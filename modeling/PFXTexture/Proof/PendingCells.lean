import PFXTexture.Proof.TableRows

/-!
# Cells that are built late

A block reads its row when the queue runs it. A deletion takes the entry away first and waits for
the queue then, so a block behind the deleted row that has not run reads the entry after its own,
and the block of the last row finds nothing.
-/

namespace PFXTexture.ASTableView

open RepositoryViewController (cellNode cellNodeAt cellNode_ne_plain_iff nodeBlockForRowAt)

/-- Every row that has its cell has the cell of its entry. -/
def OwnCells (table : ASTableView) : Prop :=
  ∀ (row : Nat) node, table.pendingMap[row]? = some (.allocated node) →
    table.asyncDelegate.items[row]?.map cellNode = some node

def NoEmptyCell (table : ASTableView) : Prop :=
  ∀ row : Nat, table.pendingMap[row]? ≠ some (.allocated .plain)

/-- Behind the row, every pending block finds an entry with the same cell one place on. -/
def KeepsCells (table : ASTableView) (row : Nat) : Prop :=
  ∀ behind, row < behind → table.Pending behind →
    table.asyncDelegate.items[behind + 1]?.map cellNode =
      table.asyncDelegate.items[behind]?.map cellNode

/-- If the block of the last row is pending, the row is the last one. -/
def KeepsLast (table : ASTableView) (row : Nat) : Prop :=
  ∀ last, last + 1 = table.asyncDelegate.items.length → table.Pending last → row = last

/-- A condition on the deletions of a run. -/
def AtDeletion {CGFloat : Type} (condition : ASTableView → Nat → Prop) (table : ASTableView) :
    Event CGFloat → Prop
  | .commit .delete row => condition table row
  | _ => True

variable {table : ASTableView}

theorem atDeletion_of_isCheck {CGFloat : Type} {condition : ASTableView → Nat → Prop}
    {event : Event CGFloat} (hevent : isCheck event = true) :
    AtDeletion condition table event := by
  obtain ⟨_, rfl⟩ | ⟨_, _, rfl⟩ := isCheck_cases hevent <;> trivial

/-! ### What the blocks read after a deletion -/

theorem cellNodeAt_eq_iff {items : List RxCellViewModel} {row : Nat} {node : ASCellNode}
    (hnode : node ≠ .plain) :
    cellNodeAt items row = node ↔ items[row]?.map cellNode = some node := by
  rw [cellNodeAt]
  cases items[row]? with
  | none => exact iff_of_false (Ne.symm hnode) (Option.some_ne_none _).symm
  | some viewModel => exact Option.some_inj.symm

theorem getElem?_items_deleted (table : ASTableView) (deleted row : Nat) :
    (table.deleted deleted).asyncDelegate.items[row]? =
      table.asyncDelegate.items[rowBefore deleted row]? := by
  rw [ASTableView.deleted, List.getElem?_eraseIdx, rowBefore]
  split <;> rfl

theorem cellNodeAt_deleted (table : ASTableView) (deleted row : Nat) :
    cellNodeAt (table.deleted deleted).asyncDelegate.items row =
      cellNodeAt table.asyncDelegate.items (rowBefore deleted row) := by
  rw [cellNodeAt, getElem?_items_deleted]
  rfl

theorem rowBefore_of_lt {deleted row : Nat} (hrow : row < deleted) : rowBefore deleted row = row :=
  if_pos hrow

theorem rowBefore_of_ge {deleted row : Nat} (hrow : deleted ≤ row) :
    rowBefore deleted row = row + 1 :=
  if_neg (Nat.not_lt.mpr hrow)

/-- A block that the deletion has to wait for reads its row in the shorter list. -/
theorem RowsKnown.pendingMap_deleted (hknown : RowsKnown table) {deleted row : Nat}
    (hpending : table.Pending (rowBefore deleted row)) :
    (table.deleted deleted).pendingMap[row]? = some (.allocated
      (cellNodeAt table.asyncDelegate.items (rowBefore deleted (rowBefore deleted row)))) := by
  obtain ⟨blockRow, hblock⟩ := hpending
  obtain rfl := hknown.nodeBlock_row _ _ hblock
  rw [getElem?_deleted, hblock, Option.map_some, ASCollectionElement.node, nodeBlockForRowAt,
    cellNodeAt_deleted]

/-- Behind the deleted row, that is the entry after its own. -/
theorem RowsKnown.pendingMap_behind (hknown : RowsKnown table) {deleted row : Nat}
    (hrow : deleted ≤ row) (hpending : table.Pending (row + 1)) :
    (table.deleted deleted).pendingMap[row]? =
      some (.allocated (cellNodeAt table.asyncDelegate.items (row + 2))) := by
  rw [← rowBefore_of_ge hrow] at hpending
  rw [hknown.pendingMap_deleted hpending, rowBefore_of_ge hrow,
    rowBefore_of_ge (Nat.le_succ_of_le hrow)]

/-- A row has the cell it had, or the one that its block has just built. -/
theorem RowsKnown.deleted_cases (hknown : RowsKnown table) {deleted row : Nat} {node : ASCellNode}
    (hnode : (table.deleted deleted).pendingMap[row]? = some (.allocated node)) :
    table.pendingMap[rowBefore deleted row]? = some (.allocated node) ∨
      (row < deleted ∧ table.Pending row ∧ node = cellNodeAt table.asyncDelegate.items row) ∨
      deleted ≤ row ∧ table.Pending (row + 1) ∧
        node = cellNodeAt table.asyncDelegate.items (row + 2) := by
  obtain ⟨element, helement, hbuilt⟩ :=
    Option.map_eq_some_iff.mp ((getElem?_deleted table deleted row).symm.trans hnode)
  cases element with
  | allocated old =>
      cases hbuilt
      exact .inl helement
  | nodeBlock blockRow =>
      have hpending : table.Pending (rowBefore deleted row) := ⟨blockRow, helement⟩
      right
      rcases Nat.lt_or_ge row deleted with hrow | hrow
      · have hcell := hknown.pendingMap_deleted hpending
        rw [rowBefore_of_lt hrow, rowBefore_of_lt hrow, hnode] at hcell
        rw [rowBefore_of_lt hrow] at hpending
        exact .inl ⟨hrow, hpending, by simpa using hcell⟩
      · rw [rowBefore_of_ge hrow] at hpending
        have hcell := hknown.pendingMap_behind hrow hpending
        rw [hnode] at hcell
        exact .inr ⟨hrow, hpending, by simpa using hcell⟩

theorem RowsKnown.exists_entry (hknown : RowsKnown table) {row : Nat} (hpending : table.Pending row) :
    ∃ viewModel, table.asyncDelegate.items[row]? = some viewModel ∧ cellNode viewModel ≠ .plain := by
  obtain ⟨blockRow, hblock⟩ := hpending
  obtain ⟨viewModel, hentry, hclass, -⟩ := hknown.nodeBlockForRowAt_eq hblock
  exact ⟨viewModel, hentry, (cellNode_ne_plain_iff viewModel).mpr hclass⟩

theorem RowsKnown.cellNodeAt_ne_plain_iff (hknown : RowsKnown table) {row : Nat} :
    cellNodeAt table.asyncDelegate.items row ≠ .plain ↔ row < table.asyncDelegate.items.length := by
  rw [cellNodeAt]
  rcases Nat.lt_or_ge row table.asyncDelegate.items.length with hrow | hrow
  · rw [List.getElem?_eq_getElem hrow]
    refine iff_of_true ?_ hrow
    exact (cellNode_ne_plain_iff _).mpr (hknown.items_class _ (List.getElem_mem hrow))
  · rw [List.getElem?_eq_none hrow]
    exact iff_of_false (fun hne => hne rfl) (Nat.not_lt.mpr hrow)

/-! ### Deletions -/

theorem ownCells_deleted_iff (hknown : RowsKnown table) (hown : OwnCells table) {deleted : Nat} :
    OwnCells (table.deleted deleted) ↔ KeepsCells table deleted := by
  constructor
  · intro hafter behind hbehind hpending
    obtain ⟨row, rfl⟩ := Nat.exists_eq_add_one_of_ne_zero (Nat.ne_zero_of_lt hbehind)
    have hrow : deleted ≤ row := Nat.le_of_lt_succ hbehind
    have hbuilt := hafter row _ (hknown.pendingMap_behind hrow hpending)
    obtain ⟨viewModel, hentry, hplain⟩ := hknown.exists_entry hpending
    rw [getElem?_items_deleted, rowBefore_of_ge hrow, hentry] at hbuilt
    rw [hentry, Option.map_some, ← cellNodeAt_eq_iff hplain]
    exact (Option.some.inj hbuilt).symm
  · intro hkeeps row node hnode
    rw [getElem?_items_deleted]
    obtain hold | ⟨hrow, hpending, rfl⟩ | ⟨hrow, hpending, rfl⟩ := hknown.deleted_cases hnode
    · exact hown _ node hold
    · obtain ⟨viewModel, hentry, -⟩ := hknown.exists_entry hpending
      rw [rowBefore_of_lt hrow, cellNodeAt, hentry]
      rfl
    · obtain ⟨viewModel, hentry, hplain⟩ := hknown.exists_entry hpending
      have hnext := hkeeps _ (Nat.lt_succ_of_le hrow) hpending
      rw [hentry, Option.map_some, ← cellNodeAt_eq_iff hplain] at hnext
      rw [rowBefore_of_ge hrow, hnext, hentry]
      rfl

theorem noEmptyCell_deleted_iff (hknown : RowsKnown table) (hno : NoEmptyCell table) {deleted : Nat}
    (hdeleted : deleted < table.asyncDelegate.items.length) :
    NoEmptyCell (table.deleted deleted) ↔ KeepsLast table deleted := by
  constructor
  · intro hafter last hlast hpending
    by_contra hne
    obtain ⟨row, rfl⟩ : ∃ row, last = row + 1 := Nat.exists_eq_add_one.mpr (by omega)
    have hplain : cellNodeAt table.asyncDelegate.items (row + 2) = .plain := by
      by_contra hcell
      have hlt := hknown.cellNodeAt_ne_plain_iff.mp hcell
      omega
    have hbuilt := hknown.pendingMap_behind (by omega : deleted ≤ row) hpending
    rw [hplain] at hbuilt
    exact hafter row hbuilt
  · intro hkeeps row hnode
    obtain hold | ⟨-, hpending, hplain⟩ | ⟨hrow, hpending, hplain⟩ := hknown.deleted_cases hnode
    · exact hno _ hold
    · have hlt := hknown.lt_of_pending hpending
      exact hknown.cellNodeAt_ne_plain_iff.mpr hlt hplain.symm
    · have hlt := hknown.lt_of_pending hpending
      by_cases hlast : row + 2 = table.asyncDelegate.items.length
      · have hsame := hkeeps _ hlast hpending
        omega
      · exact hknown.cellNodeAt_ne_plain_iff.mpr (by omega) hplain.symm

/-! ### Runs -/

variable {CGFloat : Type} [OfNat CGFloat 0] [OfNat CGFloat 2] [BEq CGFloat] [LT CGFloat]
  [LE CGFloat] [DecidableLT CGFloat] [DecidableLE CGFloat] [Sub CGFloat] [Mul CGFloat]

/-- What the cells of the rows satisfy is lost by deletions only. -/
theorem always_iff_each_atDeletion {property : ASTableView → Prop}
    {condition : ASTableView → Nat → Prop}
    (hsame : ∀ table {next : ASTableView}, next.pendingMap = table.pendingMap →
      next.asyncDelegate.items = table.asyncDelegate.items → property table → property next)
    (hallocate : ∀ {table : ASTableView} {row : Nat} {viewModel : RxCellViewModel},
      table.asyncDelegate.items[row]? = some viewModel → viewModel.subclass ≠ .none →
        property table → property
          { table with pendingMap := table.pendingMap.set row (.allocated (cellNode viewModel)) })
    (hreload : ∀ table : ASTableView, property table.reloadData)
    (hdelete : ∀ {table : ASTableView} {row : Nat}, RowsKnown table → property table →
      row < table.asyncDelegate.items.length → (property (table.deleted row) ↔ condition table row))
    (events : List (Event CGFloat)) :
    (machine CGFloat random).Always property start events ↔
      (machine CGFloat random).Each (AtDeletion condition) start events := by
  apply preserves_rowsKnown.always_iff_each
  · intro table event next emitted hknown hproperty hstep
    cases table_step hknown.wired hstep with
    | refused hevent _ => exact iff_of_true hproperty (atDeletion_of_isCheck hevent)
    | begun hchecked _ =>
        refine iff_of_true (hsame table rfl rfl hproperty) ?_
        exact atDeletion_of_isCheck (isCheck_of_checked? hchecked)
    | called _ => exact iff_of_true (hsame table rfl rfl hproperty) trivial
    | allocated hblock =>
        obtain ⟨viewModel, hentry, hclass, hnode⟩ := hknown.nodeBlockForRowAt_eq hblock
        rw [hnode]
        exact iff_of_true (hallocate hentry hclass hproperty) trivial
    | failed _ => exact iff_of_true (hsame table rfl rfl hproperty) trivial
    | succeeded _ => exact iff_of_true (hreload _) trivial
    | @edited editingStyle row hstyle =>
        refine iff_of_true hproperty ?_
        cases editingStyle with
        | none => trivial
        | insert => trivial
        | delete => exact absurd rfl hstyle
    | deleted hrow _ => exact hdelete hknown hproperty hrow
  · exact rowsKnown_start
  · exact hreload { start with pendingMap := [] }

/-- Two rows, no block has run, the first row is deleted: the other one gets the empty cell. -/
example : ((machine ℚ fun _ _ => "").run start
    [.attempt 0 (.ok [{ id := 1 }, { id := 2 }]), .commit .delete 0]).map
      (fun scene => scene.1.pendingMap) = some [.allocated .plain] := by
  rfl

end PFXTexture.ASTableView
