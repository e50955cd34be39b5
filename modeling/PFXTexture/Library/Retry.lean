import Mathlib.Data.List.Basic

/-!
# Retrying

`retry(n)` subscribes again after a failed attempt until one succeeds or `n` have failed. The
result is the first success or the last failure.
-/

namespace Retry

variable {ε α : Type*}

/-- How far a retried subscription has come: the number of failed attempts, or its result. -/
inductive Progress (ε α : Type*) where
  | subscribed (failures : Nat)
  | succeeded (value : α)
  | failed (error : ε)

def Progress.Pending : Progress ε α → Prop
  | .subscribed _ => True
  | .succeeded _ | .failed _ => False

def Progress.Success : Progress ε α → Prop
  | .succeeded _ => True
  | .subscribed _ | .failed _ => False

def Progress.Failure : Progress ε α → Prop
  | .failed _ => True
  | .subscribed _ | .succeeded _ => False

instance : DecidablePred (@Progress.Pending ε α)
  | .subscribed _ => isTrue trivial
  | .succeeded _ | .failed _ => isFalse id

def next (limit : Nat) : Progress ε α → Except ε α → Progress ε α
  | .subscribed _, .ok value => .succeeded value
  | .subscribed failures, .error error =>
      if failures + 1 < limit then .subscribed (failures + 1) else .failed error
  | .succeeded value, _ => .succeeded value
  | .failed error, _ => .failed error

def after (limit : Nat) (outcomes : List (Except ε α)) : Progress ε α :=
  outcomes.foldl (next limit) (.subscribed 0)

@[simp]
theorem after_nil (limit : Nat) : after limit ([] : List (Except ε α)) = .subscribed 0 := rfl

theorem after_concat (limit : Nat) (outcomes : List (Except ε α)) (outcome : Except ε α) :
    after limit (outcomes ++ [outcome]) = next limit (after limit outcomes) outcome := by
  simp [after]

theorem foldl_next_succeeded (limit : Nat) (outcomes : List (Except ε α)) (value : α) :
    outcomes.foldl (next limit) (.succeeded value) = .succeeded value := by
  induction outcomes with
  | nil => rfl
  | cons outcome outcomes ih => exact ih

theorem foldl_next_failed (limit : Nat) (outcomes : List (Except ε α)) (error : ε) :
    outcomes.foldl (next limit) (.failed error) = .failed error := by
  induction outcomes with
  | nil => rfl
  | cons outcome outcomes ih => exact ih

theorem foldl_next_eq_subscribed {limit : Nat} :
    ∀ {outcomes : List (Except ε α)} {failures result : Nat},
      outcomes.foldl (next limit) (.subscribed failures) = .subscribed result →
        result = failures + outcomes.length := by
  intro outcomes
  induction outcomes with
  | nil =>
      intro failures result heq
      cases heq
      rfl
  | cons outcome outcomes ih =>
      intro failures result heq
      rw [List.foldl_cons] at heq
      cases outcome with
      | ok value =>
          rw [next, foldl_next_succeeded] at heq
          cases heq
      | error error =>
          rw [next] at heq
          split at heq
          · rw [ih heq, List.length_cons]
            omega
          · rw [foldl_next_failed] at heq
            cases heq

theorem length_eq_of_after_eq_subscribed {limit failures : Nat} {outcomes : List (Except ε α)}
    (hafter : after limit outcomes = .subscribed failures) : outcomes.length = failures := by
  rw [foldl_next_eq_subscribed hafter, Nat.zero_add]

theorem foldl_next_success_iff {limit : Nat} :
    ∀ {outcomes : List (Except ε α)} {failures : Nat}, failures < limit →
      ((outcomes.foldl (next limit) (.subscribed failures)).Success ↔
        ∃ value, .ok value ∈ outcomes.take (limit - failures)) := by
  intro outcomes
  induction outcomes with
  | nil => simp [Progress.Success]
  | cons outcome outcomes ih =>
      intro failures hlt
      obtain ⟨left, hleft⟩ : ∃ left, limit - failures = left + 1 := ⟨limit - failures - 1, by omega⟩
      rw [hleft, List.take_succ_cons, List.foldl_cons]
      cases outcome with
      | ok value =>
          rw [next, foldl_next_succeeded]
          exact iff_of_true trivial ⟨value, List.mem_cons_self⟩
      | error error =>
          rw [next]
          split
          · next hmore =>
              rw [ih hmore, show limit - (failures + 1) = left by omega]
              simp
          · next hlast =>
              rw [foldl_next_failed, show left = 0 by omega]
              simp [Progress.Success]

theorem foldl_next_pending_iff {limit : Nat} :
    ∀ {outcomes : List (Except ε α)} {failures : Nat}, failures < limit →
      ((outcomes.foldl (next limit) (.subscribed failures)).Pending ↔
        failures + outcomes.length < limit ∧ ∀ value, .ok value ∉ outcomes) := by
  intro outcomes
  induction outcomes with
  | nil =>
      intro failures hlt
      simpa [Progress.Pending] using hlt
  | cons outcome outcomes ih =>
      intro failures hlt
      rw [List.foldl_cons, List.length_cons]
      cases outcome with
      | ok value =>
          rw [next, foldl_next_succeeded]
          exact iff_of_false id fun h => h.2 value List.mem_cons_self
      | error error =>
          rw [next]
          split
          · next hmore =>
              rw [ih hmore, show failures + 1 + outcomes.length = failures + (outcomes.length + 1)
                by omega]
              simp
          · next hlast =>
              rw [foldl_next_failed]
              exact iff_of_false id fun h => by omega

/-! ### The three cases of a result

A success is one of the first `limit` attempts, a failure is all of them, and there is no result
while fewer have ended, all in failure. -/

theorem after_success_iff {limit : Nat} (hlimit : 0 < limit) (outcomes : List (Except ε α)) :
    (after limit outcomes).Success ↔ ∃ value, .ok value ∈ outcomes.take limit :=
  foldl_next_success_iff hlimit

theorem after_pending_iff {limit : Nat} (hlimit : 0 < limit) (outcomes : List (Except ε α)) :
    (after limit outcomes).Pending ↔
      outcomes.length < limit ∧ ∀ value, .ok value ∉ outcomes := by
  have hfold := @foldl_next_pending_iff ε α limit outcomes 0 hlimit
  rwa [Nat.zero_add] at hfold

theorem after_failure_iff {limit : Nat} (hlimit : 0 < limit) (outcomes : List (Except ε α)) :
    (after limit outcomes).Failure ↔
      limit ≤ outcomes.length ∧ ∀ value, .ok value ∉ outcomes.take limit := by
  have hsuccess := after_success_iff hlimit outcomes
  have hpending := after_pending_iff hlimit outcomes
  have hmem : outcomes.length < limit → outcomes.take limit = outcomes :=
    fun hlt => List.take_of_length_le (Nat.le_of_lt hlt)
  cases hafter : after limit outcomes with
  | subscribed failures =>
      rw [hafter] at hpending
      have hfew := (hpending.mp trivial).1
      exact iff_of_false id fun h => by omega
  | succeeded value =>
      rw [hafter] at hsuccess
      obtain ⟨value, hvalue⟩ := hsuccess.mp trivial
      exact iff_of_false id fun h => h.2 value hvalue
  | failed error =>
      rw [hafter] at hsuccess hpending
      have hnone : ∀ value, .ok value ∉ outcomes.take limit := fun value hvalue =>
        hsuccess.mpr ⟨value, hvalue⟩
      refine iff_of_true trivial ⟨Nat.le_of_not_lt fun hlt => ?_, hnone⟩
      rw [hmem hlt] at hnone
      exact hpending.mpr ⟨hlt, hnone⟩

end Retry
