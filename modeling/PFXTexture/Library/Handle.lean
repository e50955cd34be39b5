import Mathlib.Data.List.Chain
import Mathlib.Data.List.Induction

/-!
# One handle

A holder has one handle on the resources it acquires. Acquiring again without a release overwrites
the handle, and the resource it named is lost: no release reaches it any more. So nothing is lost
exactly when no two acquisitions follow each other directly.
-/

namespace Handle

variable {ε : Type*} (acquires : ε → Bool)

/-- `count` resources are out, and a release leaves `lost` of them. -/
structure Holder where
  count : Nat
  lost : Nat

namespace Holder

def empty : Holder where
  count := 0
  lost := 0

def acquire (holder : Holder) : Holder where
  count := holder.count + 1
  lost := holder.count

def release (holder : Holder) : Holder where
  count := holder.lost
  lost := holder.lost

/-- An event acquires or releases. -/
def step (holder : Holder) (event : ε) : Holder :=
  if acquires event then holder.acquire else holder.release

end Holder

def run (events : List ε) : Holder :=
  events.foldl (Holder.step acquires) .empty

/-- What should be out after the events: one resource if the last of them acquired it. -/
def expected (events : List ε) : Nat :=
  if events.getLast?.any acquires then 1 else 0

/-- No acquisition comes directly after another. -/
def Alternating (events : List ε) : Prop :=
  events.IsChain fun event next => ¬(acquires event = true ∧ acquires next = true)

variable {acquires}

theorem run_concat (events : List ε) (event : ε) :
    run acquires (events ++ [event]) = (run acquires events).step acquires event := by
  rw [run, List.foldl_concat]
  rfl

theorem expected_concat (events : List ε) (event : ε) :
    expected acquires (events ++ [event]) = if acquires event then 1 else 0 := by
  rw [expected, List.getLast?_concat, Option.any_some]

/-- The last resource is reachable, the others out are lost. -/
theorem count_run (events : List ε) :
    (run acquires events).count = (run acquires events).lost + expected acquires events := by
  induction events using List.reverseRecOn with
  | nil => rfl
  | append_singleton events event ih =>
      rw [run_concat, expected_concat, Holder.step]
      by_cases hevent : acquires event = true
      · rw [if_pos hevent, if_pos hevent]
        rfl
      · rw [if_neg hevent, if_neg hevent]
        rfl

theorem alternating_concat_iff (events : List ε) (event : ε) :
    Alternating acquires (events ++ [event]) ↔
      Alternating acquires events ∧ (acquires event = true → expected acquires events = 0) := by
  rw [Alternating, Alternating, List.isChain_append]
  apply and_congr_right
  intro _
  rw [and_iff_right (.singleton event), expected]
  cases hlast : events.getLast? with
  | none => simp
  | some last =>
      by_cases hlast' : acquires last = true
      · simp [hlast']
      · simp [hlast']

theorem lost_run_eq_zero_iff (events : List ε) :
    (run acquires events).lost = 0 ↔ Alternating acquires events := by
  induction events using List.reverseRecOn with
  | nil => exact iff_of_true rfl .nil
  | append_singleton events event ih =>
      rw [run_concat, alternating_concat_iff, Holder.step, ← ih]
      by_cases hevent : acquires event = true
      · rw [if_pos hevent, Holder.acquire, count_run, Nat.add_eq_zero_iff]
        simp only [hevent, true_implies]
      · rw [if_neg hevent, Holder.release]
        simp only [hevent, Bool.false_eq_true, false_implies, and_true]

/-- **The right number is out exactly when acquisitions alternate with releases.** -/
theorem count_run_eq_expected_iff (events : List ε) :
    (run acquires events).count = expected acquires events ↔ Alternating acquires events := by
  rw [count_run, Nat.add_eq_right, lost_run_eq_zero_iff]

end Handle
