import PFXTexture.Proof.ViewModelSteps
import PFXTexture.Library.CursorPages

/-!
# The pages of consecutive loads

`lastId` is read by every load and written by none, so every request is the one without a query and
every answer is the first page.
-/

namespace PFXTexture.RepositoryViewModel

variable (random : Nat → Nat → String) (server : Server)

/-- The view model after a number of loads, each issued after the previous one succeeded. A load may
fail some attempts before the server answers the request it made. -/
inductive ConsecutiveLoads : Nat → RepositoryViewModel → Prop where
  | fresh : ConsecutiveLoads 0 make
  | next {count : Nat} {viewModel issued retried next : RepositoryViewModel}
      {errors : List LoadError} {load : Load} {emitted emitted' : List Output}
      (hbefore : ConsecutiveLoads count viewModel)
      (hissue : (machine random).step viewModel .load = some (issued, []))
      (hretry : (machine random).run issued
        (errors.map fun error => .attempt viewModel.loads.length (.error error)) =
          some (retried, emitted))
      (hload : retried.loads[viewModel.loads.length]? = some load)
      (hanswer : (machine random).step retried (.attempt viewModel.loads.length
        (.ok (server.answer (Route.parameters (some load.params))))) = some (next, emitted')) :
      ConsecutiveLoads (count + 1) next

theorem ConsecutiveLoads.at_once {random : Nat → Nat → String} {server : Server} {count : Nat}
    {viewModel issued next : RepositoryViewModel} {load : Load} {emitted : List Output}
    (hbefore : ConsecutiveLoads random server count viewModel)
    (hissue : (machine random).step viewModel .load = some (issued, []))
    (hload : issued.loads[viewModel.loads.length]? = some load)
    (hanswer : (machine random).step issued (.attempt viewModel.loads.length
      (.ok (server.answer (Route.parameters (some load.params))))) = some (next, emitted)) :
    ConsecutiveLoads random server (count + 1) next := by
  have hretry : (machine random).run issued (([] : List LoadError).map fun error =>
      .attempt viewModel.loads.length (.error error)) = some (issued, []) := rfl
  exact .next hbefore hissue hretry hload hanswer

/-- The ids of the repository rows. -/
def repositoryIds (viewModel : RepositoryViewModel) : List Int :=
  ((viewModel.cellViewModelsSubject.getD []).filterMap RxCellViewModel.repository?).map
    RepositoryModel.id

/-! ### One load -/

/-- Bound, with a cursor that has not moved. -/
structure AtStart (viewModel : RepositoryViewModel) : Prop where
  wired : viewModel.Wired
  lastId_eq : viewModel.lastId = none

variable {random server} {viewModel issued retried next : RepositoryViewModel}
  {emitted : List Output} {index : Nat}

theorem AtStart.issue (hstart : viewModel.AtStart)
    (hissue : (machine random).step viewModel .load = some (issued, emitted)) :
    issued = viewModel.onLoad := by
  cases hissue
  exact hstart.wired.load_eq

theorem AtStart.loads_onLoad (hstart : viewModel.AtStart) :
    viewModel.onLoad.loads[viewModel.loads.length]? =
      some { subscription := viewModel.disposables.issued, params := [.since none],
             progress := .subscribed 0 } := by
  simp [onLoad, hstart.lastId_eq]

/-- Failed attempts of a load change neither its request nor the rows. -/
theorem AtStart.retry {errors : List LoadError} {load : Load} (hstart : viewModel.AtStart)
    (hload : viewModel.loads[index]? = some load)
    (hretry : (machine random).run viewModel
      (errors.map fun error => .attempt index (.error error)) = some (retried, emitted)) :
    retried.AtStart ∧ retried.cellViewModelsSubject = viewModel.cellViewModelsSubject ∧
      ∃ load', retried.loads[index]? = some load' ∧ load'.params = load.params := by
  induction errors generalizing viewModel load emitted with
  | nil =>
      obtain ⟨rfl, -⟩ : viewModel = retried ∧ [] = emitted := by simpa using hretry
      exact ⟨hstart, rfl, load, hload, rfl⟩
  | cons error errors ih =>
      obtain ⟨middle, first, rest, hstep, hrest, -⟩ :=
        (machine random).run_cons_eq_some_iff.mp hretry
      have hcases := hstart.wired.loads_live.attempt_step random hstep
      obtain ⟨old, failures, hold, -, hnew⟩ := hcases.loads_self
      obtain rfl := Option.some.inj (hold.symm.trans hload)
      have hmiddle : middle.AtStart :=
        ⟨hcases.wired hstart.wired, hcases.lastId_eq.trans hstart.lastId_eq⟩
      obtain ⟨hretried, hsubject, load', hload', hparams⟩ := ih hmiddle hnew hrest
      exact ⟨hretried, hsubject.trans hcases.subject_of_error, load', hload', hparams⟩

/-! ### All of them -/

theorem ConsecutiveLoads.repeats {count : Nat}
    (hloads : ConsecutiveLoads random server count viewModel) :
    viewModel.AtStart ∧ (viewModel.cellViewModelsSubject.getD []).filterMap
      RxCellViewModel.repository? =
        (List.replicate count (server.repositories.take 100)).flatten := by
  induction hloads with
  | fresh => exact ⟨⟨wired_make, rfl⟩, rfl⟩
  | @next count viewModel issued retried next errors load emitted emitted'
      hbefore hissue hretry hload hanswer ih =>
      obtain ⟨hstart, hrows⟩ := ih
      obtain rfl := hstart.issue hissue
      have hissued : viewModel.onLoad.AtStart := ⟨hstart.wired.onLoad, hstart.lastId_eq⟩
      obtain ⟨hretried, hsubject, load', hload', hparams⟩ :=
        hissued.retry hstart.loads_onLoad hretry
      obtain rfl := Option.some.inj (hload'.symm.trans hload)
      -- no query: the server answers with its first page
      have hpage : server.answer (Route.parameters (some load'.params)) =
          server.repositories.take 100 := by
        rw [hparams, Route.parameters_since_none]
        rfl
      rw [hpage] at hanswer
      have hcases := hretried.wired.loads_live.attempt_step random hanswer
      obtain ⟨rows, hdecorated, haccepted, -⟩ := hcases.subject_of_ok
      refine ⟨⟨hcases.wired hretried.wired, hcases.lastId_eq.trans hretried.lastId_eq⟩, ?_⟩
      calc (next.cellViewModelsSubject.getD []).filterMap RxCellViewModel.repository?
          = (viewModel.cellViewModelsSubject.getD []).filterMap RxCellViewModel.repository? ++
              rows.filterMap RxCellViewModel.repository? := by
            rw [haccepted, hsubject, Option.getD_some, List.filterMap_append]
            rfl
        _ = (List.replicate count (server.repositories.take 100)).flatten ++
              server.repositories.take 100 := by rw [hrows, hdecorated.repositories_eq]
        _ = (List.replicate (count + 1) (server.repositories.take 100)).flatten := by
            rw [List.replicate_succ', List.flatten_append, List.flatten_singleton]

theorem ConsecutiveLoads.repositoryIds_eq {count : Nat}
    (hloads : ConsecutiveLoads random server count viewModel) :
    viewModel.repositoryIds =
      (List.replicate count ((server.repositories.map RepositoryModel.id).take 100)).flatten := by
  rw [repositoryIds, hloads.repeats.2, List.map_flatten, List.map_replicate, List.map_take]

/-- Any number of loads can succeed one after the other. -/
theorem exists_consecutiveLoads (count : Nat) :
    ∃ viewModel, ConsecutiveLoads random server count viewModel := by
  induction count with
  | zero => exact ⟨make, .fresh⟩
  | succ count ih =>
      obtain ⟨viewModel, hloads⟩ := ih
      obtain ⟨hstart, -⟩ := hloads.repeats
      have hissue : (machine random).step viewModel .load = some (viewModel.onLoad, []) := by
        rw [← hstart.wired.load_eq]
        rfl
      obtain ⟨next, emitted, hanswer, -⟩ := hstart.wired.onLoad.loads_live.exists_attempt random
        hstart.loads_onLoad trivial
        (.ok (server.answer (Route.parameters (some [.since none]))))
      exact ⟨next, hloads.at_once hissue hstart.loads_onLoad hanswer⟩

/-- **Consecutive loads read on only up to the first page**: from the second load on, its
repositories are shown again. -/
theorem consecutive_pages_iff (random : Nat → Nat → String) (server : Server) (count : Nat)
    (viewModel : RepositoryViewModel)
    (hloads : ConsecutiveLoads random server count viewModel) :
    viewModel.repositoryIds = (server.repositories.map RepositoryModel.id).take
        (min (100 * count) server.repositories.length) ↔
      count ≤ 1 ∨ server.repositories = [] := by
  have hiff := CursorPages.flatten_replicate_take_iff 100
    (CursorPages.nodup_of_increasing id server.increasing) (by omega : 0 < 100) count
  rw [List.length_map, List.map_eq_nil_iff] at hiff
  rw [hloads.repositoryIds_eq]
  exact hiff

def oneRepository : Server where
  repositories := [{ id := 1 }]
  increasing := by simp

theorem consecutiveLoads_oneRepository :
    ∃ viewModel, ConsecutiveLoads (fun _ _ => "") oneRepository 2 viewModel ∧
      viewModel.repositoryIds = [1, 1] :=
  ⟨_, .at_once (.at_once .fresh rfl rfl rfl) rfl rfl rfl, rfl⟩

theorem consecutive_pages_twice :
    ∃ viewModel, ConsecutiveLoads (fun _ _ => "") oneRepository 2 viewModel ∧
      viewModel.repositoryIds ≠ (oneRepository.repositories.map RepositoryModel.id).take
        (min (100 * 2) oneRepository.repositories.length) := by
  obtain ⟨viewModel, hloads, hids⟩ := consecutiveLoads_oneRepository
  refine ⟨viewModel, hloads, ?_⟩
  rw [hids]
  decide

theorem consecutive_pages_iff_twice :
    ∃ viewModel : RepositoryViewModel, viewModel.repositoryIds = [1, 1] ∧
      (viewModel.repositoryIds = (oneRepository.repositories.map RepositoryModel.id).take
          (min (100 * 2) oneRepository.repositories.length) ↔
        2 ≤ 1 ∨ oneRepository.repositories = []) := by
  obtain ⟨viewModel, hloads, hids⟩ := consecutiveLoads_oneRepository
  exact ⟨viewModel, hids, consecutive_pages_iff _ _ _ _ hloads⟩

end PFXTexture.RepositoryViewModel
