import Mathlib.Algebra.Order.Ring.Unbundled.Rat
import PFXTexture.Proof.TableSteps

/-!
# One batch

The context that a batch sets to fetching is completed by nobody, so the first batch is the last.
`OneBatch` counts the call of the controller that waits together with the one that was made.
-/

namespace PFXTexture.ASTableView

open RepositoryViewController (leadingScreensForBatching)
open ASScrollDirection (verticalDirections)

section

variable {CGFloat : Type}

def isCalled : Event CGFloat → Bool
  | .runDispatched => true
  | _ => false

structure OneBatch (events : List (Event CGFloat)) (table : ASTableView) : Prop where
  wired : table.asyncDelegate.viewModel.Wired
  length_loads : table.asyncDelegate.viewModel.loads.length = 1 + events.countP isCalled
  context_eq : table.asyncDelegate.context =
    if events.countP isCalled = 0 then none else some batchContext
  begun_eq : events.countP isCalled + table.dispatched =
    if table.batchState.isFetching then 1 else 0

theorem countP_isCalled_concat (events : List (Event CGFloat)) (event : Event CGFloat) :
    (events ++ [event]).countP isCalled =
      events.countP isCalled + if isCalled event then 1 else 0 := by
  rw [List.countP_append, List.countP_singleton]

theorem isCalled_of_isCheck {event : Event CGFloat} (hevent : isCheck event = true) :
    isCalled event = false := by
  obtain ⟨_, rfl⟩ | ⟨_, _, rfl⟩ := isCheck_cases hevent <;> rfl

theorem oneBatch_start : OneBatch ([] : List (Event CGFloat)) start where
  wired := RepositoryViewController.wired_loaded
  length_loads := rfl
  context_eq := rfl
  begun_eq := rfl

/-- A step that calls the controller for no batch and begins none. -/
theorem OneBatch.of_eq {events : List (Event CGFloat)} {table next : ASTableView}
    {event : Event CGFloat} (hone : OneBatch events table) (hcalled : isCalled event = false)
    (hwired : next.asyncDelegate.viewModel.Wired)
    (hlength : next.asyncDelegate.viewModel.loads.length =
      table.asyncDelegate.viewModel.loads.length)
    (hcontext : next.asyncDelegate.context = table.asyncDelegate.context)
    (hbegun : next.batchState = table.batchState ∧ next.dispatched = table.dispatched) :
    OneBatch (events ++ [event]) next := by
  have hcount : (events ++ [event]).countP isCalled = events.countP isCalled := by
    rw [countP_isCalled_concat, hcalled]
    rfl
  constructor
  · exact hwired
  · rw [hcount, hlength, hone.length_loads]
  · rw [hcount, hcontext, hone.context_eq]
  · rw [hcount, hbegun.1, hbegun.2, hone.begun_eq]

end

variable {CGFloat : Type} [OfNat CGFloat 0] [OfNat CGFloat 2] [BEq CGFloat] [LT CGFloat]
  [LE CGFloat] [DecidableLT CGFloat] [DecidableLE CGFloat] [Sub CGFloat] [Mul CGFloat]
  {random : Nat → Nat → String} {events : List (Event CGFloat)} {table next : ASTableView}
  {event : Event CGFloat} {emitted : List RepositoryViewModel.Output}
  {scrollView : UIScrollView CGFloat} {contentOffset : CGPoint CGFloat}

/-! ### The check -/

/-- A check made at the event finds the end of the content near enough. -/
def asksForBatch (event : Event CGFloat) : Bool :=
  (checked? event).any fun seen =>
    ASDisplayShouldFetchBatchForContext .completed seen.1 verticalDirections seen.2
      leadingScreensForBatching

theorem isFetching_of_shouldFetchBatch
    (hcheck : table.shouldFetchBatch scrollView contentOffset = true) :
    table.batchState.isFetching = false := by
  by_contra hfetching
  rw [Bool.not_eq_false] at hfetching
  simp [shouldFetchBatch, ASDisplayShouldFetchBatchForContext, hfetching] at hcheck

/-- Apart from the geometry, a check asks whether a batch has begun. -/
theorem OneBatch.shouldFetchBatch_eq_true_iff (hone : OneBatch events table) :
    table.shouldFetchBatch scrollView contentOffset = true ↔
      events.countP isCalled + table.dispatched = 0 ∧
        ASDisplayShouldFetchBatchForContext .completed scrollView verticalDirections contentOffset
          leadingScreensForBatching = true := by
  rw [hone.begun_eq]
  cases hfetching : table.batchState.isFetching with
  | true =>
      simp [shouldFetchBatch, ASDisplayShouldFetchBatchForContext, hfetching]
  | false =>
      have hnone : events.countP isCalled = 0 := by
        have hbegun := hone.begun_eq
        rw [hfetching, if_neg Bool.false_ne_true] at hbegun
        omega
      have hcan : table.canBatchFetch = true := by
        rw [canBatchFetch, RepositoryViewController.shouldBatchFetch, hone.context_eq, if_pos hnone]
        rfl
      have hcompleted : ASBatchContextState.completed.isFetching = false := rfl
      simp only [shouldFetchBatch, hcan, ASDisplayShouldFetchBatchForContext, hfetching, hcompleted,
        Bool.not_true, Bool.false_eq_true, if_false, true_and]

/-- One more call waits after a check precisely if it was the first to be asked for a batch. -/
theorem OneBatch.dispatched_iff (hone : OneBatch events table)
    (hcases : TableStep random table event next emitted) :
    next.dispatched = table.dispatched + 1 ↔
      events.countP isCalled + table.dispatched = 0 ∧ asksForBatch event = true := by
  have hkept : ∀ {event : Event CGFloat}, checked? event = none →
      (table.dispatched = table.dispatched + 1 ↔
        events.countP isCalled + table.dispatched = 0 ∧ asksForBatch event = true) := by
    intro event hchecked
    rw [asksForBatch, hchecked]
    exact iff_of_false (Nat.ne_of_lt (Nat.lt_succ_self _)) fun hasks => nomatch hasks.2
  cases hcases with
  | refused _ hcheck =>
      cases hchecked : checked? event with
      | none => exact hkept hchecked
      | some seen =>
          refine iff_of_false (Nat.ne_of_lt (Nat.lt_succ_self _)) ?_
          rintro ⟨hnone, hasks⟩
          rw [asksForBatch, hchecked, Option.any_some] at hasks
          have hbegins := hone.shouldFetchBatch_eq_true_iff.mpr ⟨hnone, hasks⟩
          rw [hcheck seen hchecked] at hbegins
          exact Bool.false_ne_true hbegins
  | @begun event seen hchecked hcheck =>
      refine iff_of_true rfl ?_
      rw [asksForBatch, hchecked, Option.any_some]
      exact hone.shouldFetchBatch_eq_true_iff.mp hcheck
  | @called dispatched hdispatched =>
      refine iff_of_false ?_ fun hasks => nomatch hasks.2
      change dispatched ≠ table.dispatched + 1
      omega
  | allocated _ => exact hkept rfl
  | failed _ => exact hkept rfl
  | succeeded _ => exact hkept rfl
  | edited _ => exact hkept rfl
  | deleted _ _ => exact hkept rfl

/-! ### One step -/

theorem OneBatch.step (hone : OneBatch events table)
    (hcases : TableStep random table event next emitted) : OneBatch (events ++ [event]) next := by
  have hwired := hcases.wired hone.wired
  cases hcases with
  | refused hevent _ =>
      exact hone.of_eq (isCalled_of_isCheck hevent) hwired rfl rfl ⟨rfl, rfl⟩
  | begun hchecked hcheck =>
      have hcount : (events ++ [event]).countP isCalled = events.countP isCalled := by
        rw [countP_isCalled_concat, isCalled_of_isCheck (isCheck_of_checked? hchecked)]
        rfl
      have hfetching := isFetching_of_shouldFetchBatch hcheck
      have hbegun := hone.begun_eq
      rw [hfetching, if_neg Bool.false_ne_true] at hbegun
      constructor
      · exact hwired
      · rw [hcount]
        exact hone.length_loads
      · rw [hcount]
        exact hone.context_eq
      · rw [hcount]
        change events.countP isCalled + (table.dispatched + 1) = 1
        omega
  | @called dispatched hdispatched =>
      have hcount : (events ++ [Event.runDispatched]).countP isCalled =
          events.countP isCalled + 1 := countP_isCalled_concat events .runDispatched
      constructor
      · exact hwired
      · rw [hcount, ← Nat.add_assoc, ← hone.length_loads]
        simp only [RepositoryViewController.willBeginBatchFetchWith, hone.wired.load_eq,
          RepositoryViewModel.onLoad, List.length_append, List.length_singleton]
      · rw [hcount, if_neg (Nat.succ_ne_zero _)]
        rfl
      · have hbegun := hone.begun_eq
        rw [hdispatched] at hbegun
        rw [hcount, ← hbegun, Nat.add_assoc, Nat.add_comm 1]
  | allocated _ => exact hone.of_eq rfl hwired rfl rfl ⟨rfl, rfl⟩
  | failed hattempt => exact hone.of_eq rfl hwired hattempt.length_loads rfl ⟨rfl, rfl⟩
  | succeeded hscene =>
      cases hscene with
      | succeeded hattempt _ _ => exact hone.of_eq rfl hwired hattempt.length_loads rfl ⟨rfl, rfl⟩
  | edited _ => exact hone.of_eq rfl hwired rfl rfl ⟨rfl, rfl⟩
  | deleted _ _ => exact hone.of_eq rfl hwired rfl rfl ⟨rfl, rfl⟩

/-! ### Runs -/

theorem oneBatch_of_run
    (hrun : (machine CGFloat random).run start events = some (table, emitted)) :
    OneBatch events table :=
  (machine CGFloat random).run_induction (motive := fun events table _ => OneBatch events table)
    oneBatch_start
    (fun _ _ _ _ _ _ hone hstep => hone.step (table_step hone.wired hstep)) hrun

/-- **The controller is asked for one batch at most**, under every order of checks, drags, waiting
calls, blocks, responses and edits, and so it issues at most two loads. A step begins a batch
exactly if none has begun and a check made at it finds the end of the content near enough. -/
theorem called_at_most_once (random : Nat → Nat → String) (events : List (Event CGFloat))
    (table : ASTableView) (emitted : List RepositoryViewModel.Output)
    (hrun : (machine CGFloat random).run start events = some (table, emitted)) :
    events.countP isCalled + table.dispatched ≤ 1 ∧
      table.asyncDelegate.viewModel.loads.length = 1 + events.countP isCalled ∧
      (table.asyncDelegate.shouldBatchFetch = false ↔ events.countP isCalled = 1) ∧
      ∀ event next outputs, (machine CGFloat random).step table event = some (next, outputs) →
        (next.dispatched = table.dispatched + 1 ↔
          events.countP isCalled + table.dispatched = 0 ∧ asksForBatch event = true) := by
  have hone := oneBatch_of_run hrun
  have hle : events.countP isCalled + table.dispatched ≤ 1 := by
    rw [hone.begun_eq]
    split <;> omega
  refine ⟨hle, hone.length_loads, ?_, fun _ _ _ hstep => ?_⟩
  · rw [RepositoryViewController.shouldBatchFetch, hone.context_eq]
    by_cases hnone : events.countP isCalled = 0
    · rw [if_pos hnone, hnone]
      decide
    · rw [if_neg hnone]
      refine iff_of_true rfl ?_
      omega
  · exact hone.dispatched_iff (table_step hone.wired hstep)

/-- A scroll view with less content than it can show. -/
def shortContent : UIScrollView ℚ where
  isDragging := false
  isTracking := false
  scrollDirection := { up := false, left := false, down := false, right := false }
  bounds := { width := 320, height := 480 }
  contentSize := { width := 320, height := 0 }
  contentOffset := { x := 0, y := 0 }
  visible := true

/-- A check under the finger, the end of that drag, and a check before and after the call: one
batch, and two loads. -/
theorem called_at_most_once_short_content :
    ∃ table emitted, (machine ℚ fun _ _ => "").run start
        [.checkForBatchFetching { shortContent with isDragging := true },
          .scrollViewWillEndDragging shortContent (some ⟨0, 0⟩),
          .checkForBatchFetching shortContent, .runDispatched] = some (table, emitted) ∧
      table.asyncDelegate.viewModel.loads.length = 2 ∧
      ∀ next outputs, (machine ℚ fun _ _ => "").step table (.checkForBatchFetching shortContent) =
        some (next, outputs) → next.dispatched ≠ table.dispatched + 1 := by
  obtain ⟨table, emitted, hrun⟩ : ∃ table emitted, (machine ℚ fun _ _ => "").run start
      [.checkForBatchFetching { shortContent with isDragging := true },
        .scrollViewWillEndDragging shortContent (some ⟨0, 0⟩),
        .checkForBatchFetching shortContent, .runDispatched] = some (table, emitted) :=
    ⟨_, _, by rfl⟩
  obtain ⟨-, hloads, -, hbegins⟩ := called_at_most_once _ _ _ _ hrun
  refine ⟨table, emitted, hrun, hloads, fun next outputs hstep => ?_⟩
  rw [Ne, hbegins _ _ _ hstep]
  rintro ⟨hnone, -⟩
  simp [isCalled] at hnone

end PFXTexture.ASTableView
