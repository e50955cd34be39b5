import Mathlib.Algebra.Order.BigOperators.Group.Finset
import Mathlib.Data.List.Perm.Subperm
import PFXTexture.Proof.BatchOnce
import PFXTexture.Proof.Loads
import PFXTexture.Proof.TableRows

/-!
# The requests of the list screen

The loads behind the table view are accounted for by their attempts. Two loads with three attempts
each are all the screen ever makes.
-/

namespace PFXTexture

namespace RepositoryViewController

/-! ### The view model behind the controller -/

/-- The events of the view model that an event of the controller stands for. -/
def viewModelEvents : Event → List RepositoryViewModel.Event
  | .willBeginBatchFetch _ => [.load]
  | .attempt load outcome => [.attempt load outcome]
  | .commit _ _ => []

variable {random : Nat → Nat → String} {controller next : RepositoryViewController} {event : Event}
  {emitted : List RepositoryViewModel.Output}

theorem foldl_receive_viewModel (outputs : List RepositoryViewModel.Output)
    (controller : RepositoryViewController) :
    (outputs.foldl receive controller).viewModel = controller.viewModel := by
  induction outputs generalizing controller with
  | nil => rfl
  | cons output outputs ih =>
      rw [List.foldl_cons, ih]
      cases output <;> rfl

theorem viewModel_run_of_step
    (hstep : (machine random).step controller event = some (next, emitted)) :
    (RepositoryViewModel.liveMachine random).run controller.viewModel (viewModelEvents event) =
      some (next.viewModel, emitted) := by
  cases event with
  | willBeginBatchFetch context =>
      cases hstep
      rfl
  | attempt load outcome =>
      obtain ⟨⟨viewModel, outputs⟩, hattempt, hpair⟩ := Option.map_eq_some_iff.mp hstep
      cases hpair
      rw [viewModelEvents, Machine.run_singleton, foldl_receive_viewModel]
      exact (Machine.restrict_step_eq_some_iff _).mpr ⟨rfl, hattempt⟩
  | commit editingStyle row =>
      obtain ⟨_, hcommit, hpair⟩ := Option.map_eq_some_iff.mp hstep
      cases hpair
      obtain ⟨-, rfl⟩ | ⟨-, -, rfl⟩ := commit_cases hcommit
      · rfl
      · rfl

/-- A run of the scene is a run of its view model. -/
theorem viewModel_run {events : List Event}
    (hrun : (machine random).run controller events = some (next, emitted)) :
    (RepositoryViewModel.liveMachine random).run controller.viewModel
      (events.flatMap viewModelEvents) = some (next.viewModel, emitted) := by
  have hkeep : (machine random).Preserves fun _ => True := fun _ _ _ _ _ _ => trivial
  exact hkeep.run_flatMap (fun _ _ _ _ _ hstep => viewModel_run_of_step hstep) trivial hrun

end RepositoryViewController

namespace RepositoryViewModel

open RepositoryViewController (Outstanding)

/-! ### Accounting for attempts -/

def attempted? : Event → Option Nat
  | .attempt load _ => some load
  | .load | .initializeCall | .deinitializeCall => none

/-- The loads whose attempts have ended, one entry for each attempt. -/
def attempted (events : List Event) : List Nat :=
  events.filterMap attempted?

theorem count_attempted (index : Nat) (events : List Event) :
    (attempted events).count index = (outcomesOf index events).length := by
  induction events with
  | nil => rfl
  | cons event events ih =>
      cases event with
      | attempt load outcome =>
          by_cases hload : load = index
          · simpa [attempted, attempted?, outcomesOf, hload] using ih
          · simpa [attempted, attempted?, outcomesOf, hload] using ih
      | load => exact ih
      | initializeCall => exact ih
      | deinitializeCall => exact ih

variable {random : Nat → Nat → String} {events : List Event} {viewModel : RepositoryViewModel}
  {emitted : List Output}

theorem History.attempted_lt (hhistory : History random events viewModel emitted) :
    ∀ index ∈ attempted events, index < viewModel.loads.length := by
  intro index hindex
  by_contra hge
  have hcount := List.count_pos_iff.mpr hindex
  rw [count_attempted, hhistory.unused index (Nat.not_lt.mp hge)] at hcount
  exact Nat.lt_irrefl 0 hcount

/-- Three attempts a load. -/
theorem History.length_attempted_le (hhistory : History random events viewModel emitted) :
    (attempted events).length ≤ 3 * viewModel.loads.length := by
  have hrange : ∀ index ∈ (attempted events : Multiset Nat),
      index ∈ Finset.range viewModel.loads.length := by
    intro index hindex
    exact Finset.mem_range.mpr (hhistory.attempted_lt index hindex)
  calc (attempted events).length
      = ∑ index ∈ Finset.range viewModel.loads.length, (attempted events).count index := by
        simpa only [Multiset.coe_count, Multiset.coe_card] using
          (Multiset.sum_count_eq_card hrange).symm
    _ ≤ ∑ _index ∈ Finset.range viewModel.loads.length, 3 := by
        apply Finset.sum_le_sum
        intro index _
        rw [count_attempted]
        exact hhistory.few index
    _ = 3 * viewModel.loads.length := by
        rw [Finset.sum_const_nat fun _ _ => rfl, Finset.card_range, mul_comm]

/-- A load is outstanding until it has a result. -/
theorem History.outstanding_iff (hhistory : History random events viewModel emitted)
    (index : Nat) : Outstanding viewModel index ↔
      index < viewModel.loads.length ∧ index ∉ (resolutions events).map Prod.fst := by
  constructor
  · rintro ⟨load, hload, hpending⟩
    refine ⟨(List.getElem?_eq_some_iff.mp hload).1, fun hresolved => ?_⟩
    obtain ⟨⟨_, result⟩, hresult, rfl⟩ := List.mem_map.mp hresolved
    have hafter := (hhistory.result_iff _ result).mp hresult
    rw [← hhistory.progress_eq _ load hload] at hafter
    cases result with
    | ok models =>
        have hprogress : load.progress = .succeeded models := hafter
        rw [hprogress] at hpending
        exact hpending
    | error error =>
        have hprogress : load.progress = .failed error := hafter
        rw [hprogress] at hpending
        exact hpending
  · rintro ⟨hindex, hunresolved⟩
    have hreceptive := hhistory.receptive index hindex
      (fun result hresult => hunresolved (List.mem_map.mpr ⟨_, hresult, rfl⟩)) (.ok [])
    obtain ⟨⟨next, first⟩, hstep⟩ := Option.isSome_iff_exists.mp hreceptive
    exact pending_of_attempt_eq_some random
      ((Machine.restrict_step_eq_some_iff _).mp hstep).2

/-- One report a load, and all of them once nothing is outstanding. -/
theorem History.length_emitted_le (hhistory : History random events viewModel emitted) :
    emitted.length ≤ viewModel.loads.length ∧
      (emitted.length = viewModel.loads.length ↔ ∀ index, ¬Outstanding viewModel index) := by
  have hlength : emitted.length = ((resolutions events).map Prod.fst).length := by
    rw [List.length_map, hhistory.emitted_eq.length_eq]
  have hsubset : (resolutions events).map Prod.fst ⊆ List.range viewModel.loads.length := by
    intro index hindex
    obtain ⟨⟨_, result⟩, hresult, rfl⟩ := List.mem_map.mp hindex
    apply List.mem_range.mpr
    by_contra hge
    have hafter := (hhistory.result_iff _ result).mp hresult
    rw [hhistory.unused _ (Nat.not_lt.mp hge)] at hafter
    cases result <;> cases hafter
  have hsubperm := hhistory.resolved_once.subperm hsubset
  have hle : emitted.length ≤ viewModel.loads.length := by
    rw [hlength]
    simpa using hsubperm.length_le
  refine ⟨hle, ?_⟩
  simp only [hhistory.outstanding_iff, not_and_not_right]
  constructor
  · intro heq index hindex
    have hperm := hsubperm.perm_of_length_le (by rw [← hlength, heq, List.length_range])
    exact hperm.mem_iff.mpr (List.mem_range.mpr hindex)
  · intro hall
    have hback : List.range viewModel.loads.length ⊆ (resolutions events).map Prod.fst :=
      fun index hindex => hall index (List.mem_range.mp hindex)
    have hge := (List.nodup_range.subperm hback).length_le
    rw [List.length_range, ← hlength] at hge
    exact Nat.le_antisymm hle hge

end RepositoryViewModel

namespace ASTableView

open RepositoryViewController (Outstanding viewModelEvents)

section

variable {CGFloat : Type}

def isAttempt : Event CGFloat → Bool
  | .attempt _ _ => true
  | _ => false

/-- The inputs of the view model in a run of the table view. The first load is the one of
`viewDidLoad`. -/
def inputs (events : List (Event CGFloat)) : List RepositoryViewModel.Event :=
  .load :: (events.flatMap project).flatMap viewModelEvents

theorem length_attempted_inputs (events : List (Event CGFloat)) :
    (RepositoryViewModel.attempted (inputs events)).length = events.countP isAttempt := by
  induction events with
  | nil => rfl
  | cons event events ih =>
      have hsplit : (RepositoryViewModel.attempted (inputs (event :: events))).length =
          (RepositoryViewModel.attempted ((project event).flatMap viewModelEvents)).length +
            (RepositoryViewModel.attempted (inputs events)).length := by
        simp only [inputs, List.flatMap_cons, List.flatMap_append]
        exact (congrArg List.length List.filterMap_append).trans List.length_append
      rw [hsplit, ih, List.countP_cons, Nat.add_comm]
      cases event <;> rfl

end

variable {CGFloat : Type} [OfNat CGFloat 0] [OfNat CGFloat 2] [BEq CGFloat] [LT CGFloat]
  [LE CGFloat] [DecidableLT CGFloat] [DecidableLE CGFloat] [Sub CGFloat] [Mul CGFloat]
  {random : Nat → Nat → String} {events : List (Event CGFloat)} {table : ASTableView}
  {emitted : List RepositoryViewModel.Output}

theorem history_of_run (hrun : (machine CGFloat random).run start events = some (table, emitted)) :
    RepositoryViewModel.History random (inputs events) table.asyncDelegate.viewModel emitted := by
  apply RepositoryViewModel.history_of_run
  apply (Machine.run_cons_eq_some_iff _).mpr
  refine ⟨_, [], emitted, rfl, ?_, rfl⟩
  exact RepositoryViewController.viewModel_run (project_run hrun)

/-- **The screen makes six requests at most**, in every order of checks, drags, waiting calls,
blocks, responses and edits: three attempts for each of its loads, of which there are two at most.
It reports one result for each load at most, and has reported all of them precisely when no attempt
is under way. -/
theorem requests_bounded (random : Nat → Nat → String) (events : List (Event CGFloat))
    (table : ASTableView) (emitted : List RepositoryViewModel.Output)
    (hrun : (machine CGFloat random).run start events = some (table, emitted)) :
    events.countP isAttempt ≤ 3 * table.asyncDelegate.viewModel.loads.length ∧
      table.asyncDelegate.viewModel.loads.length ≤ 2 ∧
      emitted.length ≤ table.asyncDelegate.viewModel.loads.length ∧
      (emitted.length = table.asyncDelegate.viewModel.loads.length ↔
        ∀ load outcome, (machine CGFloat random).step table (.attempt load outcome) = none) := by
  have hhistory := history_of_run hrun
  have hone := oneBatch_of_run hrun
  have hknown := preserves_rowsKnown.run rowsKnown_start hrun
  obtain ⟨hle, hall⟩ := hhistory.length_emitted_le
  refine ⟨?_, ?_, hle, hall.trans ?_⟩
  · rw [← length_attempted_inputs]
    exact hhistory.length_attempted_le
  · have hbegun := hone.begun_eq
    rw [hone.length_loads]
    split at hbegun <;> omega
  · refine forall_congr' fun load => ?_
    constructor
    · intro hdone outcome
      rw [← Option.not_isSome_iff_eq_none, hknown.step_isSome_iff]
      exact hdone
    · intro hnone houtstanding
      have hsome : ((machine CGFloat random).step table (.attempt load (.ok []))).isSome = true :=
        (hknown.step_isSome_iff _).mpr houtstanding
      rw [hnone] at hsome
      exact Bool.false_ne_true hsome

/-- A failed attempt, then an empty page: the load has its result. -/
theorem requests_bounded_retried :
    ∃ table emitted, (machine ℚ fun _ _ => "").run start
        [.attempt 0 (.error (.request "offline")), .attempt 0 (.ok [])] = some (table, emitted) ∧
      table.asyncDelegate.viewModel.loads.length = 1 ∧
      ∀ load outcome, (machine ℚ fun _ _ => "").step table (.attempt load outcome) = none := by
  obtain ⟨table, emitted, hrun, hloads, hemitted⟩ : ∃ table emitted,
      (machine ℚ fun _ _ => "").run start
        [.attempt 0 (.error (.request "offline")), .attempt 0 (.ok [])] = some (table, emitted) ∧
      table.asyncDelegate.viewModel.loads.length = 1 ∧ emitted.length = 1 :=
    ⟨_, _, rfl, rfl, rfl⟩
  obtain ⟨-, -, -, hdone⟩ := requests_bounded _ _ _ _ hrun
  exact ⟨table, emitted, hrun, hloads, hdone.mp (hemitted.trans hloads.symm)⟩

end ASTableView

end PFXTexture
