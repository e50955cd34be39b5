import PFXTexture.ASTableView
import PFXTexture.Proof.SceneSteps

/-!
# What one step of the table view does

A check that is refused changes nothing, and neither a check that begins a batch nor a block that
builds a node touches the controller. The other events reach it, so a run of the table view is a run
of the scene.
-/

namespace PFXTexture.ASTableView

open RepositoryViewController (SceneStep)
open RepositoryViewModel (AttemptStep)

section

variable {CGFloat : Type}

/-- The events of the controller that an event of the table view stands for. -/
def project : Event CGFloat → List RepositoryViewController.Event
  | .checkForBatchFetching _ => []
  | .scrollViewWillEndDragging _ _ => []
  | .runDispatched => [.willBeginBatchFetch batchContext]
  | .allocateNode _ => []
  | .attempt load outcome => [.attempt load outcome]
  | .commit editingStyle row => [.commit editingStyle row]

def isCheck : Event CGFloat → Bool
  | .checkForBatchFetching _ => true
  | .scrollViewWillEndDragging _ _ => true
  | .runDispatched | .allocateNode _ | .attempt _ _ | .commit _ _ => false

/-- What a check looks at: nothing while the finger is down, and at the end of a drag the place
where the content will come to rest. -/
def checked? : Event CGFloat → Option (UIScrollView CGFloat × CGPoint CGFloat)
  | .checkForBatchFetching scrollView =>
      if scrollView.isDragging || scrollView.isTracking then
        none
      else
        some (scrollView, scrollView.contentOffset)
  | .scrollViewWillEndDragging scrollView targetContentOffset =>
      targetContentOffset.map fun contentOffset => (scrollView, contentOffset)
  | .runDispatched | .allocateNode _ | .attempt _ _ | .commit _ _ => none

theorem isCheck_cases {event : Event CGFloat} (hevent : isCheck event = true) :
    (∃ scrollView, event = .checkForBatchFetching scrollView) ∨
      ∃ scrollView targetContentOffset,
        event = .scrollViewWillEndDragging scrollView targetContentOffset := by
  cases event with
  | checkForBatchFetching scrollView => exact .inl ⟨scrollView, rfl⟩
  | scrollViewWillEndDragging scrollView targetContentOffset =>
      exact .inr ⟨scrollView, targetContentOffset, rfl⟩
  | runDispatched => cases hevent
  | allocateNode _ => cases hevent
  | attempt _ _ => cases hevent
  | commit _ _ => cases hevent

theorem isCheck_of_checked? {event : Event CGFloat}
    {seen : UIScrollView CGFloat × CGPoint CGFloat} (hchecked : checked? event = some seen) :
    isCheck event = true := by
  by_contra hevent
  cases event <;> first | exact hevent rfl | cases hchecked

end

/-- A deletion has been carried out: all blocks have run, against the shorter list. -/
def deleted (table : ASTableView) (row : Nat) : ASTableView :=
  let asyncDelegate :=
    { table.asyncDelegate with items := table.asyncDelegate.items.eraseIdx row }
  { table with
    numberOfRows := asyncDelegate.numberOfRowsInSection
    pendingMap := (table.pendingMap.map fun element =>
      .allocated (element.node asyncDelegate)).eraseIdx row
    asyncDelegate }

variable {CGFloat : Type} [OfNat CGFloat 0] [OfNat CGFloat 2] [BEq CGFloat] [LT CGFloat]
  [LE CGFloat] [DecidableLT CGFloat] [DecidableLE CGFloat] [Sub CGFloat] [Mul CGFloat]
  (random : Nat → Nat → String)

inductive TableStep (table : ASTableView) :
    Event CGFloat → ASTableView → List RepositoryViewModel.Output → Prop where
  | refused {event : Event CGFloat} (hevent : isCheck event = true)
      (hcheck : ∀ seen, checked? event = some seen →
        table.shouldFetchBatch seen.1 seen.2 = false) : TableStep table event table []
  | begun {event : Event CGFloat} {seen : UIScrollView CGFloat × CGPoint CGFloat}
      (hchecked : checked? event = some seen)
      (hcheck : table.shouldFetchBatch seen.1 seen.2 = true) :
      TableStep table event table.beginBatchFetching []
  | called {dispatched : Nat} (hdispatched : table.dispatched = dispatched + 1) :
      TableStep table .runDispatched
        { table with
          dispatched
          asyncDelegate := table.asyncDelegate.willBeginBatchFetchWith batchContext } []
  | allocated {row blockRow : Nat} (hblock : table.pendingMap[row]? = some (.nodeBlock blockRow)) :
      TableStep table (.allocateNode row)
        { table with
          pendingMap := table.pendingMap.set row <| .allocated <|
            RepositoryViewController.nodeBlockForRowAt blockRow table.asyncDelegate } []
  | failed {load : Nat} {error : LoadError} {viewModel : RepositoryViewModel}
      {emitted : List RepositoryViewModel.Output}
      (hattempt : AttemptStep random table.asyncDelegate.viewModel load (.error error) viewModel
        emitted) :
      TableStep table (.attempt load (.error error))
        { table with asyncDelegate := { table.asyncDelegate with viewModel } } emitted
  | succeeded {load : Nat} {models : List RepositoryModel} {next : RepositoryViewController}
      {emitted : List RepositoryViewModel.Output}
      (hscene : SceneStep random table.asyncDelegate (.attempt load (.ok models)) next emitted) :
      TableStep table (.attempt load (.ok models)) { table with asyncDelegate := next }.reloadData
        emitted
  | edited {editingStyle : UITableViewCell.EditingStyle} {row : Nat}
      (hstyle : editingStyle ≠ .delete) : TableStep table (.commit editingStyle row) table []
  | deleted {row : Nat} (hrow : row < table.asyncDelegate.items.length)
      (hrows : table.numberOfRows = table.asyncDelegate.items.length) :
      TableStep table (.commit .delete row) (table.deleted row) []

variable {random} {table next : ASTableView} {event : Event CGFloat}
  {emitted : List RepositoryViewModel.Output}

theorem attempt_step (hwired : table.asyncDelegate.viewModel.Wired) {load : Nat} {outcome : Outcome}
    (hstep : table.attempt random load outcome = some (next, emitted)) :
    TableStep random table (.attempt load outcome : Event CGFloat) next emitted := by
  obtain ⟨⟨asyncDelegate, outputs⟩, hattempt, hpair⟩ := Option.map_eq_some_iff.mp hstep
  obtain ⟨rfl, rfl⟩ : outputs.foldl receive { table with asyncDelegate } = next ∧
      outputs = emitted := by simpa using hpair
  have hscene := RepositoryViewController.attempt_step hwired.loads_live hattempt
  cases hscene with
  | failed hcases =>
      have hkept : ∀ table : ASTableView, outputs.foldl receive table = table := by
        intro table
        cases hcases <;> rfl
      rw [hkept]
      exact .failed hcases
  | succeeded hcases hpage hsubject =>
      obtain ⟨_, -, -, rfl⟩ := hcases.subject_of_ok
      exact .succeeded (.succeeded hcases hpage hsubject)

theorem commit_step {editingStyle : UITableViewCell.EditingStyle} {row : Nat}
    (hcommit : table.commit editingStyle row = some next) :
    TableStep random table (.commit editingStyle row : Event CGFloat) next [] := by
  obtain ⟨hknown, hcommit⟩ := Option.ite_none_right_eq_some.mp hcommit
  obtain ⟨controller, hcontroller, hnext⟩ := Option.bind_eq_some_iff.mp hcommit
  obtain ⟨hstyle, rfl⟩ | ⟨rfl, hrow, rfl⟩ := RepositoryViewController.commit_cases hcontroller
  · rw [if_neg hstyle] at hnext
    cases hnext
    exact .edited hstyle
  · rw [if_pos rfl] at hnext
    obtain ⟨hrows, hnext⟩ := Option.ite_none_right_eq_some.mp hnext
    have hlength : (table.asyncDelegate.items.eraseIdx row).length + 1 = table.numberOfRows := hrows
    rw [List.length_eraseIdx_of_lt hrow] at hlength
    cases hnext
    exact .deleted hrow (by omega)

/-- All checks are made in one way. -/
theorem step_of_isCheck (random : Nat → Nat → String) (table : ASTableView)
    (hevent : isCheck event = true) :
    (machine CGFloat random).step table event =
      some ((checked? event).elim table fun seen =>
        table.beginBatchFetchingIfNeeded seen.1 seen.2, []) := by
  obtain ⟨scrollView, rfl⟩ | ⟨scrollView, targetContentOffset, rfl⟩ := isCheck_cases hevent
  · simp only [machine, checkForBatchFetching, checked?]
    split <;> rfl
  · cases targetContentOffset <;> rfl

theorem check_step (hevent : isCheck event = true)
    (hstep : (machine CGFloat random).step table event = some (next, emitted)) :
    TableStep random table event next emitted := by
  rw [step_of_isCheck random table hevent] at hstep
  cases hstep
  cases hchecked : checked? event with
  | none => exact .refused hevent fun seen hseen => by cases hchecked.symm.trans hseen
  | some seen =>
      rw [Option.elim_some, beginBatchFetchingIfNeeded]
      cases hcheck : table.shouldFetchBatch seen.1 seen.2 with
      | false =>
          refine .refused hevent fun other hother => ?_
          obtain rfl := Option.some.inj (hchecked.symm.trans hother)
          exact hcheck
      | true => exact .begun hchecked hcheck

theorem table_step (hwired : table.asyncDelegate.viewModel.Wired)
    (hstep : (machine CGFloat random).step table event = some (next, emitted)) :
    TableStep random table event next emitted := by
  cases event with
  | checkForBatchFetching _ => exact check_step rfl hstep
  | scrollViewWillEndDragging _ _ => exact check_step rfl hstep
  | allocateNode row =>
      obtain ⟨_, hallocate, hpair⟩ := Option.map_eq_some_iff.mp hstep
      cases hpair
      unfold allocateNode at hallocate
      split at hallocate
      · cases hallocate
      · cases hallocate
      next hblock =>
        cases hallocate
        exact .allocated hblock
  | runDispatched =>
      obtain ⟨_, hrun, hpair⟩ := Option.map_eq_some_iff.mp hstep
      cases hpair
      unfold runDispatched at hrun
      cases hdispatched : table.dispatched with
      | zero => simp [hdispatched] at hrun
      | succ dispatched =>
          rw [hdispatched] at hrun
          cases hrun
          exact .called hdispatched
  | attempt load outcome => exact attempt_step hwired hstep
  | commit editingStyle row =>
      obtain ⟨_, hcommit, hpair⟩ := Option.map_eq_some_iff.mp hstep
      cases hpair
      exact commit_step hcommit

/-! ### The scene behind the table view -/

theorem asyncDelegate_receive (table : ASTableView) (outputs : List RepositoryViewModel.Output) :
    (outputs.foldl receive table).asyncDelegate = table.asyncDelegate := by
  induction outputs generalizing table with
  | nil => rfl
  | cons output outputs ih =>
      rw [List.foldl_cons, ih]
      cases output <;> rfl

theorem asyncDelegate_of_check (hevent : isCheck event = true)
    (hstep : (machine CGFloat random).step table event = some (next, emitted)) :
    next.asyncDelegate = table.asyncDelegate ∧ emitted = [] := by
  rw [step_of_isCheck random table hevent] at hstep
  cases hstep
  refine ⟨?_, rfl⟩
  cases checked? event with
  | none => rfl
  | some seen =>
      rw [Option.elim_some, beginBatchFetchingIfNeeded]
      split <;> rfl

theorem project_step (hstep : (machine CGFloat random).step table event = some (next, emitted)) :
    (RepositoryViewController.machine random).run table.asyncDelegate (project event) =
      some (next.asyncDelegate, emitted) := by
  cases event with
  | checkForBatchFetching scrollView =>
      obtain ⟨hsame, rfl⟩ := asyncDelegate_of_check rfl hstep
      rw [hsame]
      rfl
  | scrollViewWillEndDragging scrollView targetContentOffset =>
      obtain ⟨hsame, rfl⟩ := asyncDelegate_of_check rfl hstep
      rw [hsame]
      rfl
  | allocateNode row =>
      obtain ⟨_, hallocate, hpair⟩ := Option.map_eq_some_iff.mp hstep
      cases hpair
      unfold allocateNode at hallocate
      split at hallocate
      · cases hallocate
      · cases hallocate
      · cases hallocate
        rfl
  | runDispatched =>
      obtain ⟨_, hrun, hpair⟩ := Option.map_eq_some_iff.mp hstep
      cases hpair
      unfold runDispatched at hrun
      split at hrun
      · cases hrun
      · cases hrun
        rfl
  | attempt load outcome =>
      obtain ⟨⟨asyncDelegate, outputs⟩, hattempt, hpair⟩ := Option.map_eq_some_iff.mp hstep
      cases hpair
      rw [asyncDelegate_receive]
      exact (Machine.run_singleton _ _ _).trans hattempt
  | commit editingStyle row =>
      obtain ⟨_, hcommit, hpair⟩ := Option.map_eq_some_iff.mp hstep
      cases hpair
      obtain ⟨-, hcommit⟩ := Option.ite_none_right_eq_some.mp hcommit
      obtain ⟨controller, hcontroller, hnext⟩ := Option.bind_eq_some_iff.mp hcommit
      have hsame : next.asyncDelegate = controller := by
        split at hnext
        · obtain ⟨-, hnext⟩ := Option.ite_none_right_eq_some.mp hnext
          cases hnext
          rfl
        · cases hnext
          rfl
      rw [hsame]
      apply (Machine.run_singleton _ _ _).trans
      simp only [RepositoryViewController.machine, hcontroller, Option.map_some]

/-- **A run of the table view is a run of the scene** in which the waiting blocks begin the
batches. -/
theorem project_run {events : List (Event CGFloat)} {state : ASTableView}
    (hrun : (machine CGFloat random).run state events = some (next, emitted)) :
    (RepositoryViewController.machine random).run state.asyncDelegate (events.flatMap project) =
      some (next.asyncDelegate, emitted) := by
  have hkeep : (machine CGFloat random).Preserves fun _ => True := fun _ _ _ _ _ _ => trivial
  exact hkeep.run_flatMap (fun _ _ _ _ _ hstep => project_step hstep) trivial hrun

theorem TableStep.wired (hwired : table.asyncDelegate.viewModel.Wired)
    (hcases : TableStep random table event next emitted) : next.asyncDelegate.viewModel.Wired := by
  cases hcases with
  | refused _ _ => exact hwired
  | begun _ _ => exact hwired
  | allocated _ => exact hwired
  | called _ =>
      simp only [RepositoryViewController.willBeginBatchFetchWith, hwired.load_eq]
      exact hwired.onLoad
  | failed hattempt => exact hattempt.wired hwired
  | succeeded hscene => exact hscene.wired hwired
  | edited _ => exact hwired
  | deleted _ _ => exact hwired

end PFXTexture.ASTableView
