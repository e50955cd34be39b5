import PFXTexture.Proof.BatchOnce
import PFXTexture.Proof.Emissions
import PFXTexture.Proof.Paging
import PFXTexture.Proof.Service

/-!
# The list scene from the server to the rows

The table view, the controller, its view model, the service and the server together. Every request
is the one for the first page, and there are two at most, so what the rows show is decided by the
number of answers.
-/

namespace PFXTexture

def Load.hasSucceeded (load : Load) : Bool :=
  match load.progress with
  | .succeeded _ => true
  | _ => false

namespace RepositoryViewModel

variable {random : Nat → Nat → String} {viewModel next : RepositoryViewModel} {index : Nat}
  {outcome : Outcome} {emitted : List Output}

/-- No request changes. -/
theorem AttemptStep.params_mem (hcases : AttemptStep random viewModel index outcome next emitted) :
    ∀ load ∈ next.loads, ∃ old ∈ viewModel.loads, load.params = old.params := by
  intro load hload
  obtain ⟨other, hother⟩ := List.mem_iff_getElem?.mp hload
  by_cases hsame : other = index
  · subst hsame
    obtain ⟨old, failures, hold, -, hnew⟩ := hcases.loads_self
    obtain rfl := Option.some.inj (hnew.symm.trans hother)
    exact ⟨old, List.mem_of_getElem? hold, rfl⟩
  · rw [hcases.loads_of_ne hsame] at hother
    exact ⟨load, List.mem_of_getElem? hother, rfl⟩

/-- The loads that have succeeded are one more after a page and as many after an error. -/
theorem AttemptStep.countP_hasSucceeded
    (hcases : AttemptStep random viewModel index outcome next emitted) :
    next.loads.countP Load.hasSucceeded = viewModel.loads.countP Load.hasSucceeded +
      match outcome with
      | .ok _ => 1
      | .error _ => 0 := by
  have hset : ∀ {load : Load} {failures : Nat} (progress),
      viewModel.loads[index]? = some load → load.progress = .subscribed failures →
        (viewModel.loads.set index { load with progress }).countP Load.hasSucceeded =
          viewModel.loads.countP Load.hasSucceeded +
            if Load.hasSucceeded { load with progress } then 1 else 0 := by
    intro load failures progress hload hprogress
    obtain ⟨hlt, rfl⟩ := List.getElem?_eq_some_iff.mp hload
    have hpending : Load.hasSucceeded viewModel.loads[index] = false := by
      rw [Load.hasSucceeded, hprogress]
    rw [List.countP_set hlt, hpending]
    rfl
  cases hcases with
  | retried hload hprogress _ => exact hset _ hload hprogress
  | failed hload hprogress _ => exact hset _ hload hprogress
  | succeeded hload hprogress _ => exact hset _ hload hprogress

end RepositoryViewModel

namespace ASTableView

open RepositoryViewController (editedMachine isDeletion page?)
open RepositoryViewModel (AtStart)

variable {CGFloat : Type} (platform : Platform)
  (respond : URL → Option Parameters → RequestOutcome)

/-- A page is what the service delivers for the request of its load. Errors come at will. -/
def Served (table : ASTableView) : Event CGFloat → Prop
  | .attempt load (.ok models) => ∀ pending,
      table.asyncDelegate.viewModel.loads[load]? = some pending →
        GithubService.loadRepository platform respond (some pending.params) = some [.ok models]
  | _ => True

/-- The pages that the events of the table view bring. -/
def pagesOf (events : List (Event CGFloat)) : List (List RepositoryModel) :=
  (events.flatMap project).filterMap page?

def deletions (events : List (Event CGFloat)) : Nat :=
  (events.flatMap project).countP isDeletion

structure FirstPages (server : Server) (events : List (Event CGFloat)) (table : ASTableView) :
    Prop where
  at_start : table.asyncDelegate.viewModel.AtStart
  params_eq : ∀ load ∈ table.asyncDelegate.viewModel.loads, load.params = [.since none]
  pages_eq : ∀ page ∈ pagesOf events, page = server.repositories.take 100
  length_pages :
    (pagesOf events).length = table.asyncDelegate.viewModel.loads.countP Load.hasSucceeded

variable {platform respond} {server : Server} {events : List (Event CGFloat)}
  {table next : ASTableView} {event : Event CGFloat}

theorem firstPages_start (server : Server) :
    FirstPages server ([] : List (Event CGFloat)) start where
  at_start := ⟨RepositoryViewController.wired_loaded, rfl⟩
  params_eq := by
    intro load hload
    rw [List.mem_singleton.mp hload]
    rfl
  pages_eq := List.forall_mem_nil _
  length_pages := rfl

/-! ### One step -/

theorem pagesOf_concat (events : List (Event CGFloat)) (event : Event CGFloat) :
    pagesOf (events ++ [event]) = pagesOf events ++ (project event).filterMap page? := by
  rw [pagesOf, List.flatMap_append, List.filterMap_append, List.flatMap_singleton]
  rfl

theorem pages_of_isCheck (hevent : isCheck event = true) :
    (project event).filterMap page? = [] := by
  obtain ⟨_, rfl⟩ | ⟨_, _, rfl⟩ := isCheck_cases hevent <;> rfl

/-- A step that changes the view model in nothing but the number of its loads. -/
theorem FirstPages.of_eq (hpages : FirstPages server events table)
    (hnone : (project event).filterMap page? = []) (hstart : next.asyncDelegate.viewModel.AtStart)
    (hparams : ∀ load ∈ next.asyncDelegate.viewModel.loads, load.params = [.since none])
    (hcount : next.asyncDelegate.viewModel.loads.countP Load.hasSucceeded =
      table.asyncDelegate.viewModel.loads.countP Load.hasSucceeded) :
    FirstPages server (events ++ [event]) next where
  at_start := hstart
  params_eq := hparams
  pages_eq := by
    rw [pagesOf_concat, hnone, List.append_nil]
    exact hpages.pages_eq
  length_pages := by
    rw [pagesOf_concat, hnone, List.append_nil, hcount]
    exact hpages.length_pages

theorem FirstPages.params_of_mem (hpages : FirstPages server events table)
    {viewModel : RepositoryViewModel}
    (hmem : ∀ load ∈ viewModel.loads, ∃ old ∈ table.asyncDelegate.viewModel.loads,
      load.params = old.params) : ∀ load ∈ viewModel.loads, load.params = [.since none] := by
  intro load hload
  obtain ⟨old, hold, hparams⟩ := hmem load hload
  rw [hparams, hpages.params_eq old hold]

variable [OfNat CGFloat 0] [OfNat CGFloat 2] [BEq CGFloat] [LT CGFloat] [LE CGFloat]
  [DecidableLT CGFloat] [DecidableLE CGFloat] [Sub CGFloat] [Mul CGFloat]
  {random : Nat → Nat → String} {emitted : List RepositoryViewModel.Output}

theorem FirstPages.step (hserves : Serves platform server respond)
    (hpages : FirstPages server events table) (hserved : table.Served platform respond event)
    (hcases : TableStep random table event next emitted) :
    FirstPages server (events ++ [event]) next := by
  have hstart := hpages.at_start
  have hwired := hcases.wired hstart.wired
  cases hcases with
  | refused hevent _ =>
      exact hpages.of_eq (pages_of_isCheck hevent) hstart hpages.params_eq rfl
  | begun hchecked _ =>
      exact hpages.of_eq (pages_of_isCheck (isCheck_of_checked? hchecked))
        ⟨hwired, hstart.lastId_eq⟩ hpages.params_eq rfl
  | allocated _ => exact hpages.of_eq rfl ⟨hwired, hstart.lastId_eq⟩ hpages.params_eq rfl
  | called _ =>
      have hload : (table.asyncDelegate.willBeginBatchFetchWith batchContext).viewModel =
          table.asyncDelegate.viewModel.onLoad := hstart.wired.load_eq
      refine hpages.of_eq rfl ⟨hwired, ?_⟩ ?_ ?_
      · simp only [hload]
        exact hstart.lastId_eq
      · simp only [hload]
        refine RepositoryViewModel.forall_mem_loads_onLoad.mpr ⟨hpages.params_eq, ?_⟩
        rw [hstart.lastId_eq]
      · simp only [hload, RepositoryViewModel.onLoad, List.countP_append]
        rfl
  | failed hattempt =>
      refine hpages.of_eq rfl ⟨hwired, hattempt.lastId_eq.trans hstart.lastId_eq⟩ ?_ ?_
      · exact hpages.params_of_mem hattempt.params_mem
      · exact hattempt.countP_hasSucceeded
  | @succeeded load models _ _ hscene =>
      cases hscene with
      | succeeded hattempt _ _ =>
          -- the load asked for the first page, so this is what the service delivered
          obtain ⟨pending, failures, hload, -, -⟩ := hattempt.loads_self
          have hparams := hpages.params_eq pending (List.mem_of_getElem? hload)
          have hanswer := hserved pending hload
          have hpage : models = server.repositories.take 100 := by
            rw [hparams, hserves.loadRepository_eq, server.answer_parameters] at hanswer
            simpa [sinceOf, GithubParam.value, Server.pageSince, eq_comm] using hanswer
          have hconcat : pagesOf (events ++ [.attempt load (.ok models)]) =
              pagesOf events ++ [models] := pagesOf_concat events _
          constructor
          · exact ⟨hwired, hattempt.lastId_eq.trans hstart.lastId_eq⟩
          · exact hpages.params_of_mem hattempt.params_mem
          · rw [hconcat, List.forall_mem_append, List.forall_mem_singleton]
            exact ⟨hpages.pages_eq, hpage⟩
          · rw [hconcat, List.length_append, hpages.length_pages]
            exact hattempt.countP_hasSucceeded.symm
  | edited _ => exact hpages.of_eq rfl hstart hpages.params_eq rfl
  | deleted _ _ => exact hpages.of_eq rfl ⟨hwired, hstart.lastId_eq⟩ hpages.params_eq rfl

/-! ### Runs -/

theorem firstPages_of_run (hserves : Serves platform server respond)
    (hserved : (machine CGFloat random).Each (Served platform respond) start events)
    (hrun : (machine CGFloat random).run start events = some (table, emitted)) :
    FirstPages server events table :=
  hserved.run_induction (motive := fun events table _ => FirstPages server events table)
    (firstPages_start server)
    (fun _ _ _ _ _ _ hpages hcondition hstep =>
      hpages.step hserves hcondition (table_step hpages.at_start.wired hstep)) hrun

theorem decorated_repositories_eq {models : List RepositoryModel} {rows : List RxCellViewModel}
    (hdecorated : RepositoryViewModel.IsDecorated random models rows) :
    rows.filterMap RxCellViewModel.repository? = models := by
  obtain ⟨allocated, allocated', hdecorate⟩ := hdecorated
  obtain ⟨rows', allocated'', hpage⟩ := exists_decoratedPage random models allocated
  obtain rfl : rows = rows' := by
    have hpair := Option.some.inj (hdecorate.symm.trans hpage.decorate_eq)
    exact congrArg Prod.fst hpair
  exact hpage.repositories_eq

/-- The repositories of all emissions, when every page is the same one. -/
theorem repositories_emissions {page : List RepositoryModel}
    {pages : List (List RepositoryModel)} {rows : List (List RxCellViewModel)}
    (hpages : ∀ other ∈ pages, other = page)
    (hdecorated : List.Forall₂ (RepositoryViewModel.IsDecorated random) pages rows) :
    (Relay.emissions [] rows).flatten.filterMap RxCellViewModel.repository? =
      (List.replicate (Relay.copies 0 pages.length) page).flatten := by
  have hmodels : rows.map (List.filterMap RxCellViewModel.repository?) = pages := by
    induction hdecorated with
    | nil => rfl
    | cons hhead _ ih =>
        rw [List.map_cons, decorated_repositories_eq hhead,
          ih fun other hother => hpages other (List.mem_cons_of_mem _ hother)]
  calc (Relay.emissions [] rows).flatten.filterMap RxCellViewModel.repository?
      = ((Relay.emissions [] rows).map (List.filterMap RxCellViewModel.repository?)).flatten :=
        List.filterMap_flatten
    _ = (Relay.emissions [] pages).flatten := by
        rw [Relay.map_filterMap_emissions, hmodels]
        rfl
    _ = (Relay.emissions (List.replicate 0 page).flatten
          (List.replicate pages.length page)).flatten := by
        rw [← List.eq_replicate_of_mem hpages]
        rfl
    _ = (List.replicate (Relay.copies 0 pages.length) page).flatten :=
        Relay.flatten_emissions_replicate page 0 pages.length

theorem copies_zero (count : Nat) : Relay.copies 0 count = count * (count + 1) / 2 := by
  have htwice := Relay.two_mul_copies 0 count
  rw [Nat.mul_zero, Nat.zero_add] at htwice
  omega

/-- **The list shows the server's first page or nothing.** After `answered` answers, which are two
at most, the repositories of the rows and of the deleted rows together are that page
`answered * (answered + 1) / 2` times, and those of the rows stand in its order, however checks,
calls, blocks, failures, answers and edits are interleaved. -/
theorem list_shows_first_page (platform : Platform) (server : Server)
    (respond : URL → Option Parameters → RequestOutcome)
    (hserves : Serves platform server respond) (random : Nat → Nat → String)
    (events : List (Event CGFloat)) (table : ASTableView)
    (emitted : List RepositoryViewModel.Output)
    (hserved : (machine CGFloat random).Each (Served platform respond) start events)
    (hrun : (machine CGFloat random).run start events = some (table, emitted)) :
    ∃ answered ≤ 2, answered = (pagesOf events).length ∧
      ∃ deleted, (editedMachine random).run (.loaded, []) (events.flatMap project) =
          some ((table.asyncDelegate, deleted), emitted) ∧
        deleted.length = deletions events ∧
        ((table.asyncDelegate.items ++ deleted).filterMap RxCellViewModel.repository?).Perm
          (List.replicate (answered * (answered + 1) / 2)
            (server.repositories.take 100)).flatten ∧
        (table.asyncDelegate.items.filterMap RxCellViewModel.repository?).Sublist
          (List.replicate (answered * (answered + 1) / 2)
            (server.repositories.take 100)).flatten ∧
        (deletions events = 0 →
          table.asyncDelegate.items.filterMap RxCellViewModel.repository? =
            (List.replicate (answered * (answered + 1) / 2)
              (server.repositories.take 100)).flatten) := by
  have hpages := firstPages_of_run hserves hserved hrun
  have hone := oneBatch_of_run hrun
  have hrows : (RepositoryViewController.machine random).run .loaded (events.flatMap project) =
      some (table.asyncDelegate, emitted) := project_run hrun
  obtain ⟨deleted, hedited⟩ := Machine.exists_run_withGhost _ [] hrows
  obtain ⟨-, rows, happended⟩ := RepositoryViewController.appended_of_run hedited
  have hanswered : (pagesOf events).length ≤ 2 := by
    have hcalled : events.countP isCalled ≤ 1 := by
      have hbegun := hone.begun_eq
      split at hbegun <;> omega
    calc (pagesOf events).length
        = table.asyncDelegate.viewModel.loads.countP Load.hasSucceeded := hpages.length_pages
      _ ≤ table.asyncDelegate.viewModel.loads.length := List.countP_le_length
      _ ≤ 2 := by rw [hone.length_loads]; omega
  have hshown := repositories_emissions hpages.pages_eq happended.pages_decorated
  rw [copies_zero] at hshown
  refine ⟨(pagesOf events).length, hanswered, rfl, deleted, hedited, happended.length_deleted,
    ?_, ?_, ?_⟩
  · rw [← hshown]
    exact happended.items_perm.filterMap _
  · rw [← hshown]
    exact happended.items_sublist.filterMap _
  · intro hkept
    have hnone : deleted = [] := List.eq_nil_of_length_eq_zero <|
      happended.length_deleted.trans hkept
    have hlength := happended.items_perm.length_eq
    rw [hnone, List.append_nil] at hlength
    rw [← hshown, happended.items_sublist.eq_of_length hlength]

/-- Two answers and a deletion: the one repository of the server three times, one of them deleted. -/
theorem list_shows_first_page_three_times :
    ∃ table emitted deleted, (machine ℚ fun _ _ => "").run start
        [.checkForBatchFetching shortContent, .runDispatched,
          .attempt 1 (.ok [completeKeys.model]), .attempt 0 (.error (.request "offline")),
          .attempt 0 (.ok [completeKeys.model]), .commit .delete 1] = some (table, emitted) ∧
      deleted.length = 1 ∧
      ((table.asyncDelegate.items ++ deleted).filterMap RxCellViewModel.repository?).Perm
        [completeKeys.model, completeKeys.model, completeKeys.model] := by
  obtain ⟨table, emitted, hrun⟩ : ∃ table emitted, (machine ℚ fun _ _ => "").run start
      [.checkForBatchFetching shortContent, .runDispatched,
        .attempt 1 (.ok [completeKeys.model]), .attempt 0 (.error (.request "offline")),
        .attempt 0 (.ok [completeKeys.model]), .commit .delete 1] = some (table, emitted) :=
    ⟨_, _, rfl⟩
  have hserved : (machine ℚ fun _ _ => "").Each (Served plainPlatform respondComplete) start
      [.checkForBatchFetching shortContent, .runDispatched,
        .attempt 1 (.ok [completeKeys.model]), .attempt 0 (.error (.request "offline")),
        .attempt 0 (.ok [completeKeys.model]), .commit .delete 1] := by
    refine fun _ _ hfirst => ⟨trivial, fun _ _ hsecond => ⟨trivial, fun _ _ hthird =>
      ⟨?_, fun _ _ hfourth => ⟨trivial, fun _ _ _ => ⟨?_, fun _ _ _ => ⟨trivial, trivial⟩⟩⟩⟩⟩⟩
    · cases hfirst
      cases hsecond
      rintro pending hpending
      cases hpending
      rfl
    · cases hfirst
      cases hsecond
      cases hthird
      cases hfourth
      rintro pending hpending
      cases hpending
      rfl
  obtain ⟨_, -, rfl, deleted, -, hdeleted, hshown, -⟩ :=
    list_shows_first_page _ _ _ serves_respondComplete _ _ _ _ hserved hrun
  exact ⟨table, emitted, deleted, hrun, hdeleted, hshown⟩

end ASTableView

end PFXTexture
