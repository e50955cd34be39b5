import Mathlib

/-!
# Pages behind a cursor

Rows with strictly increasing integer keys are read in pages: the page behind a cursor is the first
`size` rows whose key is above it. A reader that never moves the cursor sees the first page again; a
reader that moves it by `size` whatever the rows are sees each row once precisely when no key is
missing below the last block that is in use.
-/

namespace CursorPages

variable {α : Type*} (key : α → ℤ) (size : ℕ)

def page (rows : List α) (cursor : ℤ) : List α :=
  (rows.filter fun row => cursor < key row).take size

/-- The rows whose keys lie in the half-open block `(size * index, size * (index + 1)]`. -/
def block (rows : List α) (index : ℕ) : List α :=
  rows.filter fun row => (size * index : ℤ) < key row ∧ key row ≤ size * (index + 1)

/-- Every positive key up to the last full block below a row is in use. -/
def Dense (rows : List α) : Prop :=
  ∀ row ∈ rows, ∀ position : ℤ, 0 < position → position ≤ size * ((key row - 1) / size) →
    ∃ other ∈ rows, key other = position

/-! ### The same page again -/

theorem nodup_of_increasing {rows : List α} (hsorted : rows.Pairwise fun a b => key a < key b) :
    rows.Nodup :=
  hsorted.imp fun hlt heq => by simp [heq] at hlt

theorem flatten_replicate_take_iff {rows : List α} (hnodup : rows.Nodup) (hsize : 0 < size)
    (count : ℕ) :
    (List.replicate count (rows.take size)).flatten =
        rows.take (min (size * count) rows.length) ↔ count ≤ 1 ∨ rows = [] := by
  constructor
  · intro heq
    by_contra hnot
    obtain ⟨hcount, hne⟩ := not_or.mp hnot
    obtain ⟨more, rfl⟩ : ∃ more, count = more + 2 := ⟨count - 2, by omega⟩
    obtain ⟨row, rest, rfl⟩ := List.exists_cons_of_ne_nil hne
    obtain ⟨tail, rfl⟩ : ∃ tail, size = tail + 1 := ⟨size - 1, by omega⟩
    -- the first row stands at the head of both copies
    have htwice : ¬(List.replicate (more + 2) ((row :: rest).take (tail + 1))).flatten.Nodup := by
      simp [List.replicate_succ]
    rw [heq] at htwice
    exact htwice (hnodup.sublist (List.take_sublist _ _))
  · rintro (hcount | rfl)
    · obtain rfl | rfl : count = 0 ∨ count = 1 := by omega
      · simp
      · rw [Nat.mul_one, ← List.take_eq_take_min]
        simp
    · simp

/-! ### Blocks -/

section Blocks

variable {key} {size} {rows : List α}

/-- Below a threshold the rows of a sorted list come first. -/
theorem filter_eq_append (hsorted : rows.Pairwise fun a b => key a < key b) {low high : ℤ}
    (hle : low ≤ high) :
    (rows.filter fun row => low < key row) =
      (rows.filter fun row => low < key row ∧ key row ≤ high) ++
        rows.filter fun row => high < key row := by
  induction rows with
  | nil => rfl
  | cons row rows ih =>
      have htail := ih hsorted.of_cons
      by_cases hhigh : high < key row
      · have hall : ∀ other ∈ rows, high < key other := fun other hother =>
          hhigh.trans (List.rel_of_pairwise_cons hsorted hother)
        have hnone : (rows.filter fun row => low < key row ∧ key row ≤ high) = [] := by
          rw [List.filter_eq_nil_iff]
          intro other hother
          have hlt := hall other hother
          simp only [decide_eq_true_eq]
          omega
        rw [hnone, List.nil_append] at htail
        rw [List.filter_cons_of_pos (by simp; omega), List.filter_cons_of_neg (by simp; omega),
          List.filter_cons_of_pos (by simpa using hhigh), hnone, htail, List.nil_append]
      · by_cases hlow : low < key row
        · rw [List.filter_cons_of_pos (by simpa using hlow),
            List.filter_cons_of_pos (by simp; omega),
            List.filter_cons_of_neg (by simpa using hhigh), htail, List.cons_append]
        · rw [List.filter_cons_of_neg (by simpa using hlow),
            List.filter_cons_of_neg (by simp; omega),
            List.filter_cons_of_neg (by simpa using hhigh), htail]

theorem filter_above_eq (hsorted : rows.Pairwise fun a b => key a < key b) (index : ℕ) :
    (rows.filter fun row => (size * index : ℤ) < key row) =
      block key size rows index ++
        rows.filter fun row => (size * (index + 1) : ℤ) < key row :=
  filter_eq_append hsorted (by nlinarith [Int.natCast_nonneg size])

theorem keys_block_subset (index : ℕ) :
    ((block key size rows index).map key).toFinset ⊆
      Finset.Ioc (size * index : ℤ) (size * (index + 1)) := by
  intro position hposition
  obtain ⟨row, hrow, rfl⟩ := List.mem_map.mp (List.mem_toFinset.mp hposition)
  simpa using (List.mem_filter.mp hrow).2

theorem card_keys_block (hsorted : rows.Pairwise fun a b => key a < key b) (index : ℕ) :
    ((block key size rows index).map key).toFinset.card = (block key size rows index).length := by
  have hnodup : ((block key size rows index).map key).Nodup := by
    refine List.Pairwise.map _ ?_ (hsorted.filter _)
    intro first second hlt
    exact hlt.ne
  rw [List.toFinset_card_of_nodup hnodup, List.length_map]

theorem card_Ioc (index : ℕ) :
    (Finset.Ioc (size * index : ℤ) (size * (index + 1))).card = size := by
  rw [Int.card_Ioc]
  have hwidth : (size * (index + 1) - size * index : ℤ) = size := by ring
  rw [hwidth, Int.toNat_natCast]

theorem length_block_le (hsorted : rows.Pairwise fun a b => key a < key b) (index : ℕ) :
    (block key size rows index).length ≤ size := by
  calc (block key size rows index).length
      = ((block key size rows index).map key).toFinset.card := (card_keys_block hsorted index).symm
    _ ≤ (Finset.Ioc (size * index : ℤ) (size * (index + 1))).card :=
        Finset.card_le_card (keys_block_subset index)
    _ = size := card_Ioc index

/-- A block is full exactly when every key in it is in use. -/
theorem length_block_eq_iff (hsorted : rows.Pairwise fun a b => key a < key b) (index : ℕ) :
    (block key size rows index).length = size ↔
      ∀ position : ℤ, size * index < position → position ≤ size * (index + 1) →
        ∃ other ∈ rows, key other = position := by
  rw [← card_keys_block hsorted index]
  constructor
  · intro hcard position hlow hhigh
    have hfull : ((block key size rows index).map key).toFinset =
        Finset.Ioc (size * index : ℤ) (size * (index + 1)) :=
      Finset.eq_of_subset_of_card_le (keys_block_subset index) (by rw [card_Ioc, hcard])
    have hmem : position ∈ Finset.Ioc (size * index : ℤ) (size * (index + 1)) :=
      Finset.mem_Ioc.mpr ⟨hlow, hhigh⟩
    rw [← hfull, List.mem_toFinset, List.mem_map] at hmem
    obtain ⟨row, hrow, hkey⟩ := hmem
    exact ⟨row, (List.mem_filter.mp hrow).1, hkey⟩
  · intro hall
    have hfull : Finset.Ioc (size * index : ℤ) (size * (index + 1)) ⊆
        ((block key size rows index).map key).toFinset := by
      intro position hposition
      obtain ⟨hlow, hhigh⟩ := Finset.mem_Ioc.mp hposition
      obtain ⟨row, hrow, rfl⟩ := hall position hlow hhigh
      rw [List.mem_toFinset, List.mem_map]
      exact ⟨row, List.mem_filter.mpr ⟨hrow, by simpa using ⟨hlow, hhigh⟩⟩, rfl⟩
    rw [Finset.Subset.antisymm (keys_block_subset index) hfull, card_Ioc]

theorem Dense.length_block (hdense : Dense key size rows)
    (hsorted : rows.Pairwise fun a b => key a < key b) (hsize : 0 < size) {index : ℕ} {row : α}
    (hrow : row ∈ rows) (habove : (size * (index + 1) : ℤ) < key row) :
    (block key size rows index).length = size := by
  apply (length_block_eq_iff hsorted index).mpr
  intro position hlow hhigh
  have hpositive : (0 : ℤ) < size := by exact_mod_cast hsize
  have hblocks : (index + 1 : ℤ) ≤ (key row - 1) / size := by
    apply Int.le_ediv_of_mul_le hpositive
    rw [mul_comm]
    omega
  apply hdense row hrow position
  · calc (0 : ℤ) ≤ size * index := by positivity
      _ < position := hlow
  · calc position ≤ size * (index + 1) := hhigh
      _ ≤ size * ((key row - 1) / size) := mul_le_mul_of_nonneg_left hblocks hpositive.le

/-- A page reads its block and no more, unless a gap below a used key lets it read further. -/
theorem Dense.page_eq_block (hdense : Dense key size rows)
    (hsorted : rows.Pairwise fun a b => key a < key b) (hsize : 0 < size) (index : ℕ) :
    page key size rows (size * index) = block key size rows index := by
  rw [page, filter_above_eq hsorted]
  by_cases habove : ∃ row ∈ rows, (size * (index + 1) : ℤ) < key row
  · obtain ⟨row, hrow, hlt⟩ := habove
    exact List.take_left' (hdense.length_block hsorted hsize hrow hlt)
  · have hnone : (rows.filter fun row => (size * (index + 1) : ℤ) < key row) = [] := by
      rw [List.filter_eq_nil_iff]
      intro row hrow hlt
      exact habove ⟨row, hrow, by simpa using hlt⟩
    rw [hnone, List.append_nil, List.take_of_length_le (length_block_le hsorted index)]

theorem block_disjoint {first second : ℕ} (hne : first ≠ second) :
    (block key size rows first).Disjoint (block key size rows second) := by
  have hlt : ∀ {low high : ℕ}, low < high →
      (block key size rows low).Disjoint (block key size rows high) := by
    intro low high hlt row hlow hhigh
    have hbelow : key row ≤ size * (low + 1) :=
      (by simpa using (List.mem_filter.mp hlow).2 : _ ∧ _).2
    have habove : (size * high : ℤ) < key row :=
      (by simpa using (List.mem_filter.mp hhigh).2 : _ ∧ _).1
    have hblocks : (size * (low + 1) : ℤ) ≤ size * high := by
      apply mul_le_mul_of_nonneg_left _ (Int.natCast_nonneg size)
      exact_mod_cast hlt
    omega
  rcases Nat.lt_or_gt_of_ne hne with hbefore | hafter
  · exact hlt hbefore
  · exact (hlt hafter).symm

/-- The first blocks and what lies above them make up the rows. -/
theorem flatMap_block_append (hsorted : rows.Pairwise fun a b => key a < key b)
    (hpositive : ∀ row ∈ rows, 0 < key row) (count : ℕ) :
    (List.range count).flatMap (block key size rows) ++
      (rows.filter fun row => (size * count : ℤ) < key row) = rows := by
  induction count with
  | zero =>
      rw [List.range_zero, List.flatMap_nil, List.nil_append, List.filter_eq_self]
      intro row hrow
      simpa using hpositive row hrow
  | succ count ih =>
      calc (List.range (count + 1)).flatMap (block key size rows) ++
            (rows.filter fun row => (size * (count + 1 : ℕ) : ℤ) < key row)
          = (List.range count).flatMap (block key size rows) ++
              (block key size rows count ++
                rows.filter fun row => (size * (count + 1) : ℤ) < key row) := by
            simp [List.range_succ]
        _ = rows := by rw [← filter_above_eq hsorted, ih]

theorem flatMap_block_eq_filter (hsorted : rows.Pairwise fun a b => key a < key b)
    (hpositive : ∀ row ∈ rows, 0 < key row) (count : ℕ) :
    (List.range count).flatMap (block key size rows) =
      rows.filter fun row => key row ≤ size * count := by
  have hrows : (List.range count).flatMap (block key size rows) ++
      (rows.filter fun row => (size * count : ℤ) < key row) = rows :=
    flatMap_block_append hsorted hpositive count
  have hbelow : ∀ row ∈ (List.range count).flatMap (block key size rows),
      decide (key row ≤ size * count) = true := by
    intro row hrow
    obtain ⟨index, hindex, hblock⟩ := List.mem_flatMap.mp hrow
    have hhigh : key row ≤ size * (index + 1) :=
      (by simpa using (List.mem_filter.mp hblock).2 : _ ∧ _).2
    have hblocks : (size * (index + 1) : ℤ) ≤ size * count := by
      apply mul_le_mul_of_nonneg_left _ (Int.natCast_nonneg size)
      exact_mod_cast List.mem_range.mp hindex
    exact decide_eq_true (hhigh.trans hblocks)
  have habove : ((rows.filter fun row => (size * count : ℤ) < key row).filter
      fun row => key row ≤ size * count) = [] := by
    rw [List.filter_filter, List.filter_eq_nil_iff]
    intro row _
    simp
  calc (List.range count).flatMap (block key size rows)
      = ((List.range count).flatMap (block key size rows) ++
          rows.filter fun row => (size * count : ℤ) < key row).filter
            fun row => key row ≤ size * count := by
        rw [List.filter_append, List.filter_eq_self.mpr hbelow, habove, List.append_nil]
    _ = rows.filter fun row => key row ≤ size * count := by rw [hrows]

theorem exists_block (hsize : 0 < size) {position : ℤ} (hpositive : 0 < position) :
    ∃ index : ℕ, (size * index : ℤ) < position ∧ position ≤ size * (index + 1) := by
  have hwidth : (0 : ℤ) < size := by exact_mod_cast hsize
  obtain ⟨index, hindex⟩ : ∃ index : ℕ, (index : ℤ) = (position - 1) / size :=
    ⟨((position - 1) / size).toNat, Int.toNat_of_nonneg (Int.ediv_nonneg (by omega) hwidth.le)⟩
  have hdivision := Int.emod_add_mul_ediv (position - 1) size
  have hremainder := Int.emod_nonneg (position - 1) hwidth.ne'
  have hbound := Int.emod_lt_of_pos (position - 1) hwidth
  rw [← hindex] at hdivision
  refine ⟨index, by omega, ?_⟩
  rw [mul_add, mul_one]
  omega

/-- The row that follows a block which is not full is read twice. -/
theorem not_disjoint_of_length_block_lt (hsorted : rows.Pairwise fun a b => key a < key b)
    (hsize : 0 < size) {index : ℕ} {row : α} (hrow : row ∈ rows)
    (habove : (size * (index + 1) : ℤ) < key row)
    (hshort : (block key size rows index).length < size) :
    ∃ other : ℕ, index ≠ other ∧
      ¬(page key size rows (size * index)).Disjoint (page key size rows (size * other)) := by
  have hwidth : (0 : ℤ) < size := by exact_mod_cast hsize
  cases hrest : rows.filter fun row => (size * (index + 1) : ℤ) < key row with
  | nil =>
      rw [List.filter_eq_nil_iff] at hrest
      exact absurd (by simpa using habove) (hrest row hrow)
  | cons next rest =>
      have hnext : (size * (index + 1) : ℤ) < key next := by
        have hmem : next ∈ rows.filter fun row => (size * (index + 1) : ℤ) < key row := by
          rw [hrest]
          exact List.mem_cons_self
        simpa using (List.mem_filter.mp hmem).2
      obtain ⟨other, hlow, hhigh⟩ := @exists_block size hsize (key next) <|
        hnext.trans_le' (by positivity)
      have hlater : index + 1 ≤ other := by
        have hcut := hnext.trans_le hhigh
        have hcast := lt_of_mul_lt_mul_left hcut hwidth.le
        omega
      have hsame : (rows.filter fun row => (size * other : ℤ) < key row) = next :: rest := by
        have hcut : (size * (index + 1) : ℤ) ≤ size * other :=
          mul_le_mul_of_nonneg_left (by exact_mod_cast hlater) hwidth.le
        have hsplit := filter_eq_append hsorted hcut
        have hordered := hsorted.filter fun row => (size * (index + 1) : ℤ) < key row
        rw [hrest] at hsplit hordered
        -- no row lies between the block and the row after it
        cases hbetween : rows.filter fun row =>
            (size * (index + 1) : ℤ) < key row ∧ key row ≤ size * other with
        | nil => rw [hsplit, hbetween, List.nil_append]
        | cons first between =>
            rw [hbetween, List.cons_append, List.cons.injEq] at hsplit
            have hmem : first ∈ rows.filter fun row =>
                (size * (index + 1) : ℤ) < key row ∧ key row ≤ size * other := by
              rw [hbetween]
              exact List.mem_cons_self
            have hfirst : key first ≤ size * other :=
              (by simpa using (List.mem_filter.mp hmem).2 : _ ∧ _).2
            rw [← hsplit.1] at hfirst
            omega
      refine ⟨other, by omega, fun hdisjoint => @hdisjoint next ?_ ?_⟩
      · rw [page, filter_above_eq hsorted, hrest, List.mem_take_iff_getElem]
        refine ⟨(block key size rows index).length, ?_, ?_⟩
        · simp
          omega
        · simp
      · rw [page, hsame]
        obtain ⟨more, rfl⟩ : ∃ more, size = more + 1 := ⟨size - 1, by omega⟩
        exact List.mem_cons_self

theorem dense_of_disjoint (hsorted : rows.Pairwise fun a b => key a < key b) (hsize : 0 < size)
    (hdisjoint : ∀ first second : ℕ, first ≠ second →
      (page key size rows (size * first)).Disjoint (page key size rows (size * second))) :
    Dense key size rows := by
  have hwidth : (0 : ℤ) < size := by exact_mod_cast hsize
  intro row hrow position hlow hhigh
  obtain ⟨index, hafter, hupto⟩ := exists_block hsize hlow
  by_contra hmissing
  have hshort : (block key size rows index).length < size := by
    apply Nat.lt_of_le_of_ne (length_block_le hsorted index)
    intro hfull
    exact hmissing ((length_block_eq_iff hsorted index).mp hfull position hafter hupto)
  have habove : (size * (index + 1) : ℤ) < key row := by
    have hblocks : (index : ℤ) < (key row - 1) / size :=
      lt_of_mul_lt_mul_left (hafter.trans_le hhigh) hwidth.le
    calc (size * (index + 1) : ℤ) ≤ size * ((key row - 1) / size) :=
          mul_le_mul_of_nonneg_left hblocks hwidth.le
      _ ≤ key row - 1 := Int.mul_ediv_self_le hwidth.ne'
      _ < key row := sub_one_lt _
  obtain ⟨other, hne, hoverlap⟩ := not_disjoint_of_length_block_lt hsorted hsize hrow habove hshort
  exact hoverlap (hdisjoint index other hne)

/-- **Exact condition for pages at multiples of `size`.** They have no row in common and the first
of them read the rows without a gap precisely when the keys are dense. -/
theorem pages_iff_dense (hsorted : rows.Pairwise fun a b => key a < key b)
    (hpositive : ∀ row ∈ rows, 0 < key row) (hsize : 0 < size) :
    ((∀ first second : ℕ, first ≠ second →
        (page key size rows (size * first)).Disjoint (page key size rows (size * second))) ∧
      ∀ last : ℕ, (List.range (last + 1)).flatMap
        (fun index : ℕ => page key size rows (size * index)) <+: rows) ↔ Dense key size rows := by
  constructor
  · rintro ⟨hdisjoint, -⟩
    exact dense_of_disjoint hsorted hsize hdisjoint
  · intro hdense
    have hpages : (fun index : ℕ => page key size rows (size * index)) = block key size rows := by
      funext index
      exact hdense.page_eq_block hsorted hsize index
    constructor
    · intro first second hne
      rw [hdense.page_eq_block hsorted hsize, hdense.page_eq_block hsorted hsize]
      exact block_disjoint hne
    · intro last
      rw [hpages]
      exact ⟨_, flatMap_block_append hsorted hpositive (last + 1)⟩

end Blocks

end CursorPages
