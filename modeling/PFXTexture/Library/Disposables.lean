import Mathlib.Data.List.Basic

/-!
# Subscriptions and the bag that disposes them

A subscription delivers while it is live. Resetting a dispose bag ends exactly the subscriptions
that were inserted into it (`mem_live_resetBag`): an owner that keeps all of them in its bag is left
with none (`Bagged.live_resetBag`), and one kept in no bag outlives every reset.
-/

/-- The subscriptions of one owner: how many were made, which are live, and which of them its
current bag holds. A subscription is named by the number made before it. -/
structure Disposables where
  issued : Nat
  live : List Nat
  bag : List Nat
  live_lt : ∀ subscription ∈ live, subscription < issued

namespace Disposables

def empty : Disposables where
  issued := 0
  live := []
  bag := []
  live_lt := by simp

def subscribe (disposables : Disposables) : Disposables where
  issued := disposables.issued + 1
  live := disposables.issued :: disposables.live
  bag := disposables.bag
  live_lt := by
    intro subscription hmem
    rcases List.mem_cons.mp hmem with rfl | hmem
    · exact Nat.lt_succ_self _
    · exact Nat.lt_succ_of_lt (disposables.live_lt subscription hmem)

def disposedByBag (disposables : Disposables) (subscription : Nat) : Disposables :=
  { disposables with bag := subscription :: disposables.bag }

def resetBag (disposables : Disposables) : Disposables where
  issued := disposables.issued
  live := disposables.live.filter fun subscription => subscription ∉ disposables.bag
  bag := []
  live_lt := fun subscription hmem =>
    disposables.live_lt subscription (List.mem_filter.mp hmem).1

variable (disposables : Disposables) (subscription : Nat)

@[simp]
theorem live_empty : empty.live = [] := rfl

@[simp]
theorem live_subscribe :
    disposables.subscribe.live = disposables.issued :: disposables.live := rfl

@[simp]
theorem bag_subscribe : disposables.subscribe.bag = disposables.bag := rfl

@[simp]
theorem live_disposedByBag : (disposables.disposedByBag subscription).live = disposables.live := rfl

@[simp]
theorem bag_disposedByBag :
    (disposables.disposedByBag subscription).bag = subscription :: disposables.bag := rfl

@[simp]
theorem mem_live_resetBag : subscription ∈ disposables.resetBag.live ↔
    subscription ∈ disposables.live ∧ subscription ∉ disposables.bag := by
  simp [resetBag]

def Bagged : Prop := ∀ subscription ∈ disposables.live, subscription ∈ disposables.bag

variable {disposables}

theorem Bagged.subscribe_disposedByBag (hbagged : disposables.Bagged) :
    (disposables.subscribe.disposedByBag disposables.issued).Bagged := by
  intro subscription hmem
  rw [live_disposedByBag, live_subscribe, List.mem_cons] at hmem
  rw [bag_disposedByBag, bag_subscribe, List.mem_cons]
  exact hmem.imp_right (hbagged subscription)

theorem Bagged.live_resetBag (hbagged : disposables.Bagged) : disposables.resetBag.live = [] := by
  rw [List.eq_nil_iff_forall_not_mem]
  intro subscription hmem
  obtain ⟨hlive, hnot⟩ := (disposables.mem_live_resetBag subscription).mp hmem
  exact hnot (hbagged subscription hlive)

theorem Bagged.resetBag (hbagged : disposables.Bagged) : disposables.resetBag.Bagged := by
  intro subscription hlive
  rw [hbagged.live_resetBag] at hlive
  cases hlive

theorem live_resetBag_of_nil (hlive : disposables.live = []) : disposables.resetBag.live = [] := by
  apply List.eq_nil_iff_forall_not_mem.mpr
  intro subscription hmem
  rw [mem_live_resetBag, hlive] at hmem
  cases hmem.1

/-! ### Subjects

A subject remembers the subscriptions made to it, and its events reach the live ones. -/

def observers (disposables : Disposables) (subject : List Nat) : List Nat :=
  subject.filter fun subscription => subscription ∈ disposables.live

def Knows (disposables : Disposables) (subject : List Nat) : Prop :=
  ∀ subscription ∈ subject, subscription < disposables.issued

variable {subject : List Nat}

theorem Knows.observers_subscribe (hknown : disposables.Knows subject) :
    disposables.subscribe.observers subject = disposables.observers subject := by
  apply List.filter_congr
  intro known hmem
  have hne : known ≠ disposables.issued := Nat.ne_of_lt (hknown known hmem)
  simp [hne]

/-- A new subscription to the subject is one more observer. -/
theorem Knows.observers_concat (hknown : disposables.Knows subject) :
    disposables.subscribe.observers (subject ++ [disposables.issued]) =
      disposables.observers subject ++ [disposables.issued] := by
  rw [observers, List.filter_append]
  refine congrArg₂ _ hknown.observers_subscribe ?_
  simp

theorem Knows.subscribe (hknown : disposables.Knows subject) :
    disposables.subscribe.Knows subject :=
  fun known hmem => Nat.lt_succ_of_lt (hknown known hmem)

theorem Knows.concat (hknown : disposables.Knows subject) :
    disposables.subscribe.Knows (subject ++ [disposables.issued]) := by
  intro known hmem
  rcases List.mem_append.mp hmem with hold | hnew
  · exact hknown.subscribe known hold
  · rw [List.mem_singleton.mp hnew]
    exact Nat.lt_succ_self _

theorem Bagged.observers_resetBag (hbagged : disposables.Bagged) (subject : List Nat) :
    disposables.resetBag.observers subject = [] := by
  rw [observers, hbagged.live_resetBag, List.filter_eq_nil_iff]
  simp

end Disposables
