import Mathlib.Data.List.InsertIdx
import Mathlib.Data.List.Nodup
import Mathlib.Data.List.Perm.Basic

/-!
# Arrays that trap, and insertion at a stride

Swift's `insert(_:at:)` and `remove(at:)` stop the program on an index out of range; here they
return `none`. An insertion may stand one past the end. The main result is about a loop that inserts
a new element at every multiple of a step while its bound, the old count, is already fixed.
-/

namespace SwiftArray

variable {α : Type*}

def insert (rows : List α) (row : α) (index : Nat) : Option (List α) :=
  if index ≤ rows.length then some (rows.insertIdx index row) else none

def remove (rows : List α) (index : Nat) : Option (List α) :=
  if index < rows.length then some (rows.eraseIdx index) else none

/-- `stride(from:to:by:)` for a positive step: all values are fixed when it is built. -/
def strideTo (start stop step : Nat) : List Nat :=
  (List.range ((stop - start + (step - 1)) / step)).map fun count => start + step * count

example : strideTo 0 13 6 = [0, 6, 12] := by decide

theorem remove_eq_some_iff {rows rest : List α} {index : Nat} :
    remove rows index = some rest ↔ index < rows.length ∧ rest = rows.eraseIdx index := by
  unfold remove
  split
  · next hlt => simp [hlt, eq_comm]
  · next hge => simp [hge]

theorem eraseIdx_eq_filter_ne [DecidableEq α] {rows : List α} (hnodup : rows.Nodup) {index : Nat}
    (hindex : index < rows.length) :
    rows.eraseIdx index = rows.filter fun row => row ≠ rows[index] := by
  rw [← hnodup.erase_getElem index hindex, hnodup.erase_eq_filter]
  exact List.filter_congr fun row _ => by rw [bne, decide_not]; rfl

/-! ### Insertion at every multiple of a step

The loop `for i in stride(from: 0, to: rows.count, by: step)` skips index `0` and inserts a new
element, built from the next free allocation, at every other index. Its bound is the count before
the first insertion. -/

def insertOne (make : Nat → α) (state : List α × Nat) (index : Nat) : Option (List α × Nat) :=
  if index = 0 then
    some state
  else
    (insert state.1 (make state.2) index).map fun grown => (grown, state.2 + 1)

def insertAtStride (step : Nat) (make : Nat → α) (rows : List α) (allocated : Nat) :
    Option (List α × Nat) :=
  (strideTo 0 rows.length step).foldlM (insertOne make) (rows, allocated)

/-- What `inserted` insertions at the first multiples of `step` make of the rows: new elements
stand exactly at these multiples, and dropping them gives the old rows back. -/
structure Spaced (new : α → Bool) (step : Nat) (make : Nat → α) (rows : List α)
    (allocated inserted : Nat) (grown : List α) : Prop where
  length_eq : grown.length = rows.length + inserted
  new_iff : ∀ index (hindex : index < grown.length),
    new grown[index] = true ↔ step ∣ index ∧ 0 < index ∧ index ≤ step * inserted
  kept : (grown.filter fun row => !new row) = rows
  perm : grown.Perm (rows ++ (List.range' allocated inserted).map make)

theorem filter_insertIdx_of_neg {keep : α → Bool} {row : α} (hrow : keep row = false) :
    ∀ (rows : List α) (index : Nat), (rows.insertIdx index row).filter keep = rows.filter keep
  | rows, 0 => by simp [hrow]
  | [], index + 1 => by simp
  | head :: rows, index + 1 => by
      rw [List.insertIdx_succ_cons, List.filter_cons, List.filter_cons,
        filter_insertIdx_of_neg hrow rows index]

section Loop

variable {new : α → Bool} {step : Nat} {make : Nat → α} {rows : List α} {allocated : Nat}

theorem Spaced.refl (hold : ∀ row ∈ rows, new row = false) :
    Spaced new step make rows allocated 0 rows where
  length_eq := rfl
  new_iff := by
    intro index hindex
    have hrow := hold rows[index] (List.getElem_mem hindex)
    rw [hrow]
    simp only [Bool.false_eq_true, false_iff]
    omega
  kept := by
    rw [List.filter_eq_self]
    intro row hrow
    simp [hold row hrow]
  perm := by simp

theorem Spaced.insertIdx {inserted : Nat} {grown : List α} (hstep : 0 < step)
    (hmake : ∀ allocation, new (make allocation) = true)
    (hspaced : Spaced new step make rows allocated inserted grown)
    (hindex : step * (inserted + 1) ≤ grown.length) :
    Spaced new step make rows allocated (inserted + 1)
      (grown.insertIdx (step * (inserted + 1)) (make (allocated + inserted))) where
  length_eq := by
    rw [List.length_insertIdx_of_le_length hindex, hspaced.length_eq, Nat.add_assoc]
  new_iff := by
    -- the next insertion stands after all the earlier ones, so it moves none of them
    intro index hlt
    have hnext : step * (inserted + 1) = step * inserted + step := Nat.mul_succ _ _
    have hlength := List.length_insertIdx_of_le_length hindex (make (allocated + inserted))
    rcases Nat.lt_trichotomy index (step * (inserted + 1)) with hbefore | rfl | hafter
    · rw [List.getElem_insertIdx_of_lt hbefore, hspaced.new_iff]
      -- a multiple of the step below the new one is at most the one before it
      refine and_congr_right fun hdvd => and_congr_right fun _ => ?_
      obtain ⟨count, rfl⟩ := hdvd
      have hcount : count < inserted + 1 := Nat.lt_of_mul_lt_mul_left hbefore
      have hle : step * count ≤ step * inserted := Nat.mul_le_mul_left _ (by omega)
      exact iff_of_true hle (by omega)
    · rw [List.getElem_insertIdx_self, hmake]
      exact iff_of_true rfl ⟨Nat.dvd_mul_right _ _, by omega, Nat.le_refl _⟩
    · rw [List.getElem_insertIdx_of_gt hafter, hspaced.new_iff]
      apply iff_of_false
      · rintro ⟨-, -, hle⟩
        omega
      · rintro ⟨-, -, hle⟩
        omega
  kept := by
    rw [filter_insertIdx_of_neg (by simp [hmake]), hspaced.kept]
  perm := by
    apply (List.perm_insertIdx _ _ hindex).trans
    rw [List.range'_concat, List.map_append, ← List.append_assoc, Nat.one_mul]
    apply (List.Perm.cons _ hspaced.perm).trans
    exact (List.perm_append_singleton (make (allocated + inserted)) _).symm

theorem foldlM_insertOne (hstep : 0 < step) (hold : ∀ row ∈ rows, new row = false)
    (hmake : ∀ allocation, new (make allocation) = true) :
    ∀ count, (∀ earlier < count, step * earlier < rows.length) →
      ∃ grown, ((List.range count).map fun earlier => 0 + step * earlier).foldlM (insertOne make)
          (rows, allocated) = some (grown, allocated + (count - 1)) ∧
        Spaced new step make rows allocated (count - 1) grown := by
  intro count
  induction count with
  | zero => exact fun _ => ⟨rows, rfl, Spaced.refl hold⟩
  | succ count ih =>
      intro hbound
      obtain ⟨grown, hloop, hspaced⟩ := ih fun earlier hlt => hbound earlier (by omega)
      rw [List.range_succ, List.map_append, List.foldlM_append, hloop]
      cases count with
      | zero => exact ⟨grown, by simp [insertOne], hspaced⟩
      | succ inserted =>
          have hindex : step * (inserted + 1) ≤ grown.length := by
            have hlt := hbound (inserted + 1) (by omega)
            have hlength := hspaced.length_eq
            omega
          refine ⟨_, ?_, hspaced.insertIdx hstep hmake hindex⟩
          have hpositive : step * (inserted + 1) ≠ 0 :=
            Nat.ne_of_gt (Nat.mul_pos hstep (Nat.succ_pos inserted))
          simp [insertOne, insert, hindex, hpositive, Nat.add_assoc]

/-- **The loop at a stride.** It never inserts past the end, and it inserts one element for every
multiple of the step that is positive and below the old count. -/
theorem insertAtStride_spec (hstep : 0 < step) (hold : ∀ row ∈ rows, new row = false)
    (hmake : ∀ allocation, new (make allocation) = true) :
    ∃ grown, insertAtStride step make rows allocated =
        some (grown, allocated + (rows.length - 1) / step) ∧
      Spaced new step make rows allocated ((rows.length - 1) / step) grown := by
  have hcount : (rows.length - 0 + (step - 1)) / step - 1 = (rows.length - 1) / step := by
    rcases Nat.eq_zero_or_pos rows.length with hzero | hpositive
    · rw [hzero, Nat.div_eq_of_lt (by omega), Nat.div_eq_of_lt (by omega)]
    · have hsplit : rows.length - 0 + (step - 1) = (rows.length - 1) + step := by omega
      rw [hsplit, Nat.add_div_right _ hstep, Nat.succ_sub_one]
  obtain ⟨grown, hloop, hspaced⟩ := @foldlM_insertOne α new step make rows allocated hstep
    hold hmake ((rows.length - 0 + (step - 1)) / step) fun earlier hlt => by
      have hle : (earlier + 1) * step ≤ rows.length - 0 + (step - 1) :=
        (Nat.le_div_iff_mul_le hstep).mp hlt
      rw [Nat.add_mul, Nat.mul_comm] at hle
      omega
  rw [hcount] at hloop hspaced
  exact ⟨grown, hloop, hspaced⟩

theorem Spaced.new_iff_lt {grown : List α} (hstep : 0 < step)
    (hspaced : Spaced new step make rows allocated ((rows.length - 1) / step) grown)
    (index : Nat) (hindex : index < grown.length) :
    new grown[index] = true ↔ step ∣ index ∧ 0 < index ∧ index < rows.length := by
  rw [hspaced.new_iff]
  refine and_congr_right fun hdvd => and_congr_right fun hpositive => ?_
  obtain ⟨count, rfl⟩ := hdvd
  rw [Nat.mul_le_mul_left_iff hstep, Nat.le_div_iff_mul_le hstep, Nat.mul_comm count step]
  omega

/-! How many new elements stand before an index, and with it what a run of the rows was before. -/

theorem length_filter_singleton (keep : α → Bool) (row : α) :
    ([row].filter keep).length = if keep row = true then 1 else 0 := by
  rw [List.filter_singleton]
  split <;> simp_all

theorem Spaced.length_filter_take {inserted : Nat} {grown : List α} (hstep : 0 < step)
    (hspaced : Spaced new step make rows allocated inserted grown) :
    ∀ index ≤ grown.length,
      ((grown.take index).filter new).length = min ((index - 1) / step) inserted := by
  intro index
  induction index with
  | zero => simp
  | succ index ih =>
      intro hindex
      rw [List.take_succ_eq_append_getElem hindex, List.filter_append, List.length_append,
        ih (by omega), length_filter_singleton]
      simp only [hspaced.new_iff index hindex, Nat.add_sub_cancel]
      cases index with
      | zero => simp
      | succ index =>
          rw [Nat.add_sub_cancel]
          by_cases hdvd : step ∣ index + 1
          · -- the next multiple: it is new as long as not all have been inserted
            have hdiv : (index + 1) / step = index / step + 1 := Nat.succ_div_of_dvd hdvd
            have hmul : step * (index / step + 1) = index + 1 := by
              rw [← hdiv]
              exact Nat.mul_div_cancel' hdvd
            have hle : index + 1 ≤ step * inserted ↔ index / step + 1 ≤ inserted := by
              rw [← hmul, Nat.mul_le_mul_left_iff hstep]
            simp only [hdvd, Nat.succ_pos, true_and, hle, hdiv]
            split <;> omega
          · rw [Nat.succ_div_of_not_dvd hdvd]
            simp [hdvd]

/-- A run of the rows is free of new elements exactly if its indices avoid their places. -/
theorem Spaced.forall_mem_run_iff {inserted : Nat} {before run after : List α}
    (hspaced : Spaced new step make rows allocated inserted (before ++ run ++ after)) :
    (∀ row ∈ run, new row = false) ↔ ∀ offset < run.length,
      ¬(step ∣ before.length + offset ∧ 0 < before.length + offset ∧
        before.length + offset ≤ step * inserted) := by
  have hnew : ∀ offset (hoffset : offset < run.length), new run[offset] = true ↔
      step ∣ before.length + offset ∧ 0 < before.length + offset ∧
        before.length + offset ≤ step * inserted := by
    intro offset hoffset
    have hindex : before.length + offset < (before ++ run ++ after).length := by
      rw [List.length_append, List.length_append]
      omega
    have hrow : (before ++ run ++ after)[before.length + offset] = run[offset] := by
      rw [List.getElem_append_left (by rw [List.length_append]; omega),
        List.getElem_append_right (by omega)]
      simp only [Nat.add_sub_cancel_left]
    rw [← hspaced.new_iff _ hindex, hrow]
  rw [List.forall_mem_iff_getElem]
  refine forall_congr' fun offset => forall_congr' fun hoffset => ?_
  rw [← hnew offset hoffset, Bool.not_eq_true]

/-- A run that is free of new elements was a run of the old rows. -/
theorem Spaced.exists_old_run {inserted : Nat} {before run after : List α} (hstep : 0 < step)
    (hspaced : Spaced new step make rows allocated inserted (before ++ run ++ after))
    (hrun : ∀ row ∈ run, new row = false) :
    ∃ before' after', rows = before' ++ run ++ after' ∧
      before'.length = before.length - min ((before.length - 1) / step) inserted := by
  have hkept := hspaced.kept
  have hself : (run.filter fun row => !new row) = run :=
    List.filter_eq_self.mpr fun row hrow => by rw [hrun row hrow]; rfl
  rw [List.filter_append, List.filter_append, hself] at hkept
  refine ⟨_, _, hkept.symm, ?_⟩
  have hcount := hspaced.length_filter_take hstep before.length (by simp)
  rw [List.append_assoc, List.take_left] at hcount
  have hsplit := List.length_eq_length_filter_add (l := before) new
  omega

end Loop

end SwiftArray
