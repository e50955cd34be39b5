import Mathlib.Data.List.Forall2

/-!
# Traversals that may fail

A traversal of a list with a function into `Except` is all or nothing: it succeeds when the function
does on every element, and then with the results in order.
-/

namespace Traversal

variable {ε α β κ : Type}

theorem bind_eq_ok_iff {first : Except ε α} {next : α → Except ε β} {result : β} :
    (first >>= next) = .ok result ↔ ∃ value, first = .ok value ∧ next value = .ok result := by
  cases first with
  | error error => simp [bind, Except.bind]
  | ok value => simp [bind, Except.bind]

theorem mapM_eq_ok_iff {f : α → Except ε β} {elements : List α} {results : List β} :
    elements.mapM f = .ok results ↔
      List.Forall₂ (fun element result => f element = .ok result) elements results := by
  induction elements generalizing results with
  | nil =>
      rw [List.mapM_nil, List.forall₂_nil_left_iff]
      simp [pure, Except.pure, eq_comm]
  | cons element elements ih =>
      rw [List.mapM_cons, bind_eq_ok_iff, List.forall₂_cons_left_iff]
      apply exists_congr
      intro value
      rw [bind_eq_ok_iff]
      simp only [ih, pure, Except.pure, Except.ok.injEq]
      constructor
      · rintro ⟨hvalue, values, hvalues, rfl⟩
        exact ⟨values, hvalue, hvalues, rfl⟩
      · rintro ⟨values, hvalue, hvalues, rfl⟩
        exact ⟨hvalue, values, hvalues, rfl⟩

/-- Where the function succeeds on what is `good`, with `value` as the result, the traversal
succeeds on a list whose elements are all good. -/
theorem mapM_eq_ok_iff_forall {f : α → Except ε β} {Holds : α → κ → Prop} {good : κ → Prop}
    {value : κ → β}
    (helement : ∀ element key, Holds element key →
      ∀ result, f element = .ok result ↔ good key ∧ result = value key)
    {elements : List α} {keys : List κ} (hholds : List.Forall₂ Holds elements keys)
    {results : List β} :
    elements.mapM f = .ok results ↔ (∀ key ∈ keys, good key) ∧ results = keys.map value := by
  rw [mapM_eq_ok_iff]
  induction hholds generalizing results with
  | nil =>
      rw [List.forall₂_nil_left_iff, List.map_nil]
      exact (and_iff_right (List.forall_mem_nil _)).symm
  | cons hkey hrest ih =>
      rw [List.forall₂_cons_left_iff, List.forall_mem_cons]
      constructor
      · rintro ⟨result, results, hresult, hresults, rfl⟩
        obtain ⟨hgood, rfl⟩ := (helement _ _ hkey result).mp hresult
        obtain ⟨hall, rfl⟩ := ih.mp hresults
        exact ⟨⟨hgood, hall⟩, rfl⟩
      · rintro ⟨⟨hgood, hall⟩, rfl⟩
        exact ⟨_, _, (helement _ _ hkey _).mpr ⟨hgood, rfl⟩, ih.mpr ⟨hall, rfl⟩, rfl⟩

/-- With the empty list in place of a failure, a list that is not empty tells them apart. -/
theorem toOption_getD_eq_iff {results : List β} {outcome : Except ε (List β)}
    (hresults : results ≠ []) : outcome.toOption.getD [] = results ↔ outcome = .ok results := by
  cases outcome with
  | error error => exact iff_of_false (fun heq => hresults heq.symm) fun heq => by cases heq
  | ok value => exact ⟨fun heq => congrArg Except.ok heq, fun heq => Except.ok.inj heq⟩

end Traversal
