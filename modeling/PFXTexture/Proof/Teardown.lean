import PFXTexture.Proof.SectionSteps
import PFXTexture.Proof.ViewModelSteps

/-!
# After `deinitialize`

`DContentsViewModel` keeps every subscription in its bag, so the reset leaves none. In
`RepositoryViewModel` the bag holds the subscription to `loadSubject` only: the reset ends that one,
and every load still in flight keeps its own.
-/

namespace PFXTexture

namespace RepositoryViewModel

variable (random : Nat → Nat → String)

/-- The bag holds every live observer of `loadSubject` and no load. -/
structure Unbagged (viewModel : RepositoryViewModel) : Prop where
  observers_bagged : ∀ subscription ∈ viewModel.loadSubject,
    subscription ∈ viewModel.disposables.live → subscription ∈ viewModel.disposables.bag
  bag_subset : ∀ subscription ∈ viewModel.disposables.bag, subscription ∈ viewModel.loadSubject
  loadSubject_lt : ∀ subscription ∈ viewModel.loadSubject,
    subscription < viewModel.disposables.issued
  loads_live : viewModel.LoadsLive
  loads_apart : ∀ load ∈ viewModel.loads, load.subscription ∉ viewModel.loadSubject

/-- Nothing is left that could deliver. -/
structure Detached (viewModel : RepositoryViewModel) : Prop extends viewModel.Unbagged where
  observers_eq : viewModel.observers = []
  resolved : ∀ load ∈ viewModel.loads, ¬load.progress.Pending

variable {random} {viewModel next : RepositoryViewModel} {emitted : List Output}

theorem unbagged_make : make.Unbagged where
  observers_bagged := by simp [make, bindInputs]
  bag_subset := by simp [make, bindInputs, Disposables.empty]
  loadSubject_lt := by decide
  loads_live := by simp [LoadsLive, make, bindInputs]
  loads_apart := by simp [make, bindInputs]

theorem Unbagged.onLoad (hunbagged : viewModel.Unbagged) : viewModel.onLoad.Unbagged where
  observers_bagged := by
    intro subscription hmem hlive
    rcases List.mem_cons.mp hlive with rfl | hlive
    · exact absurd (hunbagged.loadSubject_lt _ hmem) (Nat.lt_irrefl _)
    · exact hunbagged.observers_bagged subscription hmem hlive
  bag_subset := hunbagged.bag_subset
  loadSubject_lt := fun subscription hmem =>
    Nat.lt_succ_of_lt (hunbagged.loadSubject_lt subscription hmem)
  loads_live := hunbagged.loads_live.onLoad
  loads_apart := by
    refine forall_mem_loads_onLoad.mpr ⟨hunbagged.loads_apart, ?_⟩
    intro hmem
    exact absurd (hunbagged.loadSubject_lt _ hmem) (Nat.lt_irrefl _)

theorem Unbagged.load (hunbagged : viewModel.Unbagged) : viewModel.load.Unbagged :=
  List.foldlRecOn viewModel.observers _ hunbagged fun _ hunbagged _ _ => hunbagged.onLoad

/-- A reset ends the observers of `loadSubject` and no load. -/
theorem Unbagged.deinitializeBag (hunbagged : viewModel.Unbagged) :
    viewModel.deinitializeBag.Unbagged ∧ viewModel.deinitializeBag.observers = [] := by
  have hdead : ∀ subscription ∈ viewModel.loadSubject,
      subscription ∉ viewModel.disposables.resetBag.live := by
    intro subscription hmem hlive
    obtain ⟨hlive, hnot⟩ := (Disposables.mem_live_resetBag _ _).mp hlive
    exact hnot (hunbagged.observers_bagged subscription hmem hlive)
  constructor
  · constructor
    · intro subscription hmem hlive
      exact absurd hlive (hdead subscription hmem)
    · intro subscription hmem
      cases hmem
    · exact hunbagged.loadSubject_lt
    · intro load hload
      refine (Disposables.mem_live_resetBag _ _).mpr ⟨hunbagged.loads_live load hload, ?_⟩
      exact fun hbag => hunbagged.loads_apart load hload (hunbagged.bag_subset _ hbag)
    · exact hunbagged.loads_apart
  · apply List.filter_eq_nil_iff.mpr
    intro subscription hmem hlive
    exact hdead subscription hmem (of_decide_eq_true hlive)

theorem AttemptStep.unbagged {index : Nat} {outcome : Outcome} (hunbagged : viewModel.Unbagged)
    (hcases : AttemptStep random viewModel index outcome next emitted) : next.Unbagged := by
  have hdisposables := hcases.disposables_eq
  have hsubject := hcases.loadSubject_eq
  constructor
  · rw [hdisposables, hsubject]
    exact hunbagged.observers_bagged
  · rw [hdisposables, hsubject]
    exact hunbagged.bag_subset
  · rw [hdisposables, hsubject]
    exact hunbagged.loadSubject_lt
  · exact hcases.loadsLive hunbagged.loads_live
  · intro load hload
    obtain ⟨old, hold, heq⟩ := hcases.subscription_mem load hload
    rw [heq, hsubject]
    exact hunbagged.loads_apart old hold

theorem preserves_unbagged : (machine random).Preserves Unbagged := by
  intro viewModel event next emitted hunbagged hstep
  cases hunbagged.loads_live.step random hstep with
  | load => exact hunbagged.load
  | attempted hattempt => exact hattempt.unbagged hunbagged
  | reset _ => exact hunbagged.deinitializeBag.1

theorem Detached.step {event : Event} (hdetached : viewModel.Detached)
    (hstep : (machine random).step viewModel event = some (next, emitted)) :
    next.Detached ∧ emitted = [] ∧
      next.cellViewModelsSubject = viewModel.cellViewModelsSubject := by
  cases hdetached.loads_live.step random hstep with
  | load =>
      rw [RepositoryViewModel.load, hdetached.observers_eq]
      exact ⟨hdetached, rfl, rfl⟩
  | attempted hattempt =>
      obtain ⟨load, failures, hload, hprogress, -⟩ := hattempt.loads_self
      have hpending : load.progress.Pending := by
        rw [hprogress]
        exact trivial
      exact absurd hpending (hdetached.resolved load (List.mem_of_getElem? hload))
  | reset _ =>
      obtain ⟨hunbagged, hobservers⟩ := hdetached.toUnbagged.deinitializeBag
      exact ⟨⟨hunbagged, hobservers, hdetached.resolved⟩, rfl, rfl⟩

/-- A load in flight is heard after the reset; without one, nothing is. -/
theorem Unbagged.silent_iff (hunbagged : viewModel.Unbagged) :
    (machine random).Silent cellViewModelsSubject viewModel.deinitializeBag ↔
      ∀ load ∈ viewModel.loads, ¬load.progress.Pending := by
  constructor
  · intro hsilent load hload hpending
    obtain ⟨index, hindex⟩ := List.mem_iff_getElem?.mp hload
    obtain ⟨next, emitted, hstep, hcases⟩ :=
      hunbagged.deinitializeBag.1.loads_live.exists_attempt random hindex hpending (.ok [])
    obtain ⟨rows, -, -, hemitted⟩ := hcases.subject_of_ok
    obtain ⟨hnothing, -⟩ := hsilent [.attempt index (.ok [])] next emitted <| by
      rw [Machine.run_singleton]
      exact hstep
    rw [hnothing] at hemitted
    cases hemitted
  · intro hresolved
    have hkeep : (machine random).Preserves Detached := fun _ _ _ _ hdetached hstep =>
      (hdetached.step hstep).1
    apply hkeep.silent fun _ _ _ _ hdetached hstep => (hdetached.step hstep).2
    obtain ⟨hreset, hobservers⟩ := hunbagged.deinitializeBag
    exact ⟨hreset, hobservers, hresolved⟩

end RepositoryViewModel

namespace DContentsViewModel

variable {viewModel next : DContentsViewModel} {emitted : List Output}

theorem bagged_make (dependency : Dependency) : (make dependency).disposables.Bagged := by
  simp [make, bindInputs, Disposables.Bagged]

theorem preserves_bagged : machine.Preserves fun viewModel => viewModel.disposables.Bagged := by
  intro viewModel event next emitted hbagged hstep
  cases machine_step hstep with
  | load => exact hbagged
  | issued _ => exact hbagged.subscribe_disposedByBag
  | lapsed => exact hbagged
  | responded hresponse =>
      rw [hresponse.disposables_eq]
      exact hbagged
  | reset => exact hbagged.resetBag

/-- With no live subscription nothing is delivered, and none is made. -/
theorem step_of_live_eq_nil {event : Event} (hlive : viewModel.disposables.live = [])
    (hstep : machine.step viewModel event = some (next, emitted)) :
    next.disposables.live = [] ∧ emitted = [] ∧ next.itemsSubject = viewModel.itemsSubject := by
  cases machine_step hstep with
  | load => exact ⟨hlive, rfl, rfl⟩
  | issued hmem => simp [hlive] at hmem
  | lapsed => exact ⟨hlive, rfl, rfl⟩
  | responded hresponse =>
      cases hresponse with
      | dropped _ _ _ => exact ⟨hlive, rfl, rfl⟩
      | failed _ _ hmem => simp [hlive] at hmem
      | succeeded _ _ hmem => simp [hlive] at hmem
  | reset => exact ⟨Disposables.live_resetBag_of_nil hlive, rfl, rfl⟩

theorem silent_of_bagged (hbagged : viewModel.disposables.Bagged) :
    machine.Silent itemsSubject viewModel.deinitializeBag := by
  have hkeep : machine.Preserves fun viewModel => viewModel.disposables.live = [] :=
    fun _ _ _ _ hlive hstep => (step_of_live_eq_nil hlive hstep).1
  apply hkeep.silent fun _ _ _ _ hlive hstep => (step_of_live_eq_nil hlive hstep).2
  exact hbagged.live_resetBag

end DContentsViewModel

/-! ### Both view models -/

/-- **Silence after `deinitialize`**: always of a section's view model, and of the list view model
precisely when no load is in flight at that moment. -/
theorem silent_after_deinitialize_iff (random : Nat → Nat → String) :
    (∀ viewModel,
      (RepositoryViewModel.machine random).Reachable RepositoryViewModel.make viewModel →
      ((RepositoryViewModel.machine random).Silent RepositoryViewModel.cellViewModelsSubject
          viewModel.deinitializeBag ↔
        ∀ load ∈ viewModel.loads, ¬load.progress.Pending)) ∧
    ∀ dependency viewModel, DContentsViewModel.machine.Reachable
        (DContentsViewModel.make dependency) viewModel →
      DContentsViewModel.machine.Silent DContentsViewModel.itemsSubject
        viewModel.deinitializeBag := by
  constructor
  · intro viewModel hreach
    have hunbagged : viewModel.Unbagged := RepositoryViewModel.preserves_unbagged.reachable
      RepositoryViewModel.unbagged_make hreach
    exact hunbagged.silent_iff
  · intro dependency viewModel hreach
    have hbagged : viewModel.disposables.Bagged := DContentsViewModel.preserves_bagged.reachable
      (DContentsViewModel.bagged_make dependency) hreach
    exact DContentsViewModel.silent_of_bagged hbagged

/-- A list view model torn down after its load, a section's one with its request under way. -/
theorem silent_after_deinitialize_resolved :
    ∃ viewModel emitted contents,
      (RepositoryViewModel.machine fun _ _ => "").run .make [.load, .attempt 0 (.ok [])] =
          some (viewModel, emitted) ∧
        (RepositoryViewModel.machine fun _ _ => "").Silent
          RepositoryViewModel.cellViewModelsSubject viewModel.deinitializeBag ∧
      DContentsViewModel.machine.run (.make {}) [.load, .debounceElapsed 0] =
          some (contents, []) ∧
        DContentsViewModel.machine.Silent DContentsViewModel.itemsSubject
          contents.deinitializeBag := by
  obtain ⟨hlist, hcontents⟩ := silent_after_deinitialize_iff fun _ _ => ""
  refine ⟨_, _, _, rfl, (hlist _ ⟨[.load, .attempt 0 (.ok [])], _, rfl⟩).mpr ?_, rfl,
    hcontents {} _ ⟨[.load, .debounceElapsed 0], _, rfl⟩⟩
  intro load hload
  rw [List.mem_singleton.mp hload]
  exact id

/-- The response of a load in flight is shown after the teardown. -/
theorem deinitialized_list_speaks :
    ¬∀ viewModel, (RepositoryViewModel.machine fun _ _ => "").Reachable .make viewModel →
      (RepositoryViewModel.machine fun _ _ => "").Silent
        RepositoryViewModel.cellViewModelsSubject viewModel.deinitializeBag := by
  intro hsilent
  have hrun := hsilent _ ⟨[.load], _, rfl⟩ [.attempt 0 (.ok [{ id := 1 }])] _ _ rfl
  exact absurd hrun.1 (List.cons_ne_nil _ _)

end PFXTexture
