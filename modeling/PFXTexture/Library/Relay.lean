import Mathlib.Algebra.BigOperators.Group.List.Basic
import Mathlib.Data.List.Induction
import Mathlib.Data.List.Nodup
import Mathlib.Data.List.Pairwise
import Mathlib.Tactic.Ring

/-!
# Relays that accumulate

A relay keeps every chunk it has accepted and emits, at each acceptance, all it holds. A consumer
that appends what it receives has the first chunk as often as there were acceptances, the second one
time less, and so on.
-/

namespace Relay

variable {α β : Type*}

/-- What a relay that holds `held` emits while it accepts the chunks. -/
def emissions (held : List α) : List (List α) → List (List α)
  | [] => []
  | chunk :: chunks => (held ++ chunk) :: emissions (held ++ chunk) chunks

variable {held : List α}

theorem emissions_append (left right : List (List α)) :
    emissions held (left ++ right) =
      emissions held left ++ emissions (held ++ left.flatten) right := by
  induction left generalizing held with
  | nil => simp [emissions]
  | cons chunk left ih =>
      rw [List.cons_append, emissions, emissions, ih, List.flatten_cons, List.append_assoc]
      rfl

theorem emissions_concat (chunks : List (List α)) (chunk : List α) :
    emissions held (chunks ++ [chunk]) =
      emissions held chunks ++ [held ++ chunks.flatten ++ chunk] := by
  rw [emissions_append]
  rfl

theorem subset_of_mem_emissions {chunks : List (List α)} {emission : List α}
    (hemission : emission ∈ emissions held chunks) : emission ⊆ held ++ chunks.flatten := by
  induction chunks generalizing held with
  | nil => cases hemission
  | cons chunk chunks ih =>
      rw [List.flatten_cons, ← List.append_assoc]
      rcases List.mem_cons.mp hemission with rfl | hlater
      · exact List.subset_append_left _ _
      · exact ih hlater

/-- A function of the elements may be applied before the relay or behind it. -/
theorem map_filterMap_emissions (f : α → Option β) (chunks : List (List α)) :
    (emissions held chunks).map (List.filterMap f) =
      emissions (held.filterMap f) (chunks.map (List.filterMap f)) := by
  induction chunks generalizing held with
  | nil => rfl
  | cons chunk chunks ih =>
      rw [emissions, List.map_cons, ih, List.map_cons, emissions, List.filterMap_append]

/-- An element of one chunk only has been received once for that chunk and once for each later
one. -/
theorem count_flatten_emissions [BEq α] [LawfulBEq α] {chunks : List (List α)}
    (hnodup : chunks.flatten.Nodup) {index : Nat} (hindex : index < chunks.length) {element : α}
    (helement : element ∈ chunks[index]) :
    (emissions [] chunks).flatten.count element = chunks.length - index := by
  induction chunks using List.reverseRecOn with
  | nil => cases hindex
  | append_singleton chunks chunk ih =>
      have hmem : element ∈ (chunks ++ [chunk]).flatten :=
        List.mem_flatten_of_mem (List.getElem_mem hindex) helement
      have hlast := List.count_eq_one_of_mem hnodup hmem
      rw [List.flatten_concat] at hnodup hlast
      rw [emissions_concat, List.flatten_concat, List.count_append, List.nil_append, hlast,
        List.length_append, List.length_singleton]
      by_cases hold : index < chunks.length
      · rw [List.getElem_append_left hold] at helement
        rw [ih hnodup.of_append_left hold helement]
        omega
      · -- the last chunk: no emission before it has the element
        obtain rfl : index = chunks.length := by
          rw [List.length_append, List.length_singleton] at hindex
          omega
        rw [List.getElem_concat_length rfl] at helement
        have hfresh : element ∉ chunks.flatten := fun hmem =>
          (List.nodup_append.mp hnodup).2.2 element hmem element helement rfl
        have hnone : element ∉ (emissions [] chunks).flatten := fun hmem => by
          obtain ⟨emission, hemission, hmem⟩ := List.mem_flatten.mp hmem
          exact hfresh (subset_of_mem_emissions hemission hmem)
        rw [List.count_eq_zero_of_not_mem hnone]
        omega

/-! ### The same chunk every time -/

/-- How often a consumer has the chunk after `count` acceptances, when the relay had accepted it
`before` times without the consumer. -/
def copies (before : Nat) : Nat → Nat
  | 0 => 0
  | count + 1 => copies before count + (before + count + 1)

theorem two_mul_copies (before count : Nat) :
    2 * copies before count = count * (2 * before + count + 1) := by
  induction count with
  | zero => rw [copies, Nat.zero_mul]
  | succ count ih =>
      rw [copies, Nat.mul_add, ih]
      ring

theorem flatten_replicate_append_replicate (chunk : List α) (first second : Nat) :
    (List.replicate first chunk).flatten ++ (List.replicate second chunk).flatten =
      (List.replicate (first + second) chunk).flatten := by
  rw [← List.flatten_append, List.replicate_append_replicate]

theorem flatten_emissions_replicate (chunk : List α) (before count : Nat) :
    (emissions (List.replicate before chunk).flatten (List.replicate count chunk)).flatten =
      (List.replicate (copies before count) chunk).flatten := by
  induction count with
  | zero => rfl
  | succ count ih =>
      have hheld : (List.replicate before chunk).flatten ++ (List.replicate count chunk).flatten ++
          chunk = (List.replicate (before + count + 1) chunk).flatten := by
        rw [flatten_replicate_append_replicate, List.replicate_succ', List.flatten_concat]
      rw [List.replicate_succ', emissions_concat, List.flatten_concat, ih, hheld,
        flatten_replicate_append_replicate]
      rfl

theorem copies_eq_one_iff {before count : Nat} :
    copies before count = 1 ↔ before = 0 ∧ count = 1 := by
  match count with
  | 0 => simp [copies]
  | 1 => simp [copies]
  | count + 2 =>
      rw [copies, copies]
      omega

/-! ### Copies of several chunks -/

section Copies

variable {ι : Type*} {indices : List ι} {chunk : ι → List α}

theorem count_flatMap_of_mem [BEq α] [LawfulBEq α] [DecidableEq ι] (hindices : indices.Nodup)
    {index : ι} (hindex : index ∈ indices) {element : α}
    (hother : ∀ other ≠ index, other ∈ indices → element ∉ chunk other) :
    (indices.flatMap chunk).count element = (chunk index).count element := by
  rw [List.count_flatMap, List.sum_map_eq_nsmul_single index]
  · rw [List.count_eq_one_of_mem hindices hindex, one_nsmul, Function.comp_apply]
  · intro other hne hmem
    exact List.count_eq_zero_of_not_mem (hother other hne hmem)

/-- Copies of disjoint chunks are the chunks themselves only if each that is not empty is there
once. -/
theorem flatMap_replicate_eq_iff [DecidableEq α] [DecidableEq ι] (hindices : indices.Nodup)
    (hnodup : (indices.flatMap chunk).Nodup) (times : ι → Nat) :
    (indices.flatMap fun index => (List.replicate (times index) (chunk index)).flatten) =
        indices.flatMap chunk ↔
      ∀ index ∈ indices, chunk index ≠ [] → times index = 1 := by
  constructor
  · intro heq index hindex hne
    obtain ⟨element, helement⟩ := List.exists_mem_of_ne_nil _ hne
    obtain ⟨hchunks, hpairwise⟩ := List.nodup_flatMap.mp hnodup
    have hsymm : Std.Symm (Function.onFun List.Disjoint chunk) :=
      ⟨fun _ _ hdisjoint _ hright hleft => hdisjoint hleft hright⟩
    have hother : ∀ other ≠ index, other ∈ indices → element ∉ chunk other := by
      intro other hdifferent hmem hshared
      exact hpairwise.forall hmem hindex hdifferent hshared helement
    have hcopies : ∀ other ≠ index, other ∈ indices →
        element ∉ (List.replicate (times other) (chunk other)).flatten := by
      intro other hdifferent hmem hshared
      obtain ⟨copy, hcopy, hin⟩ := List.mem_flatten.mp hshared
      rw [List.eq_of_mem_replicate hcopy] at hin
      exact hother other hdifferent hmem hin
    have hcount := congrArg (List.count element) heq
    rw [count_flatMap_of_mem hindices hindex hcopies, count_flatMap_of_mem hindices hindex hother,
      List.count_flatten, List.map_replicate, List.sum_replicate,
      List.count_eq_one_of_mem (hchunks index hindex) helement] at hcount
    simpa using hcount
  · intro honce
    apply List.flatMap_congr
    intro index hindex
    by_cases hempty : chunk index = []
    · simp [hempty]
    · rw [honce index hindex hempty]
      simp

end Copies

end Relay
