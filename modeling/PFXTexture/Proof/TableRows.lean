import Mathlib.Algebra.Order.Ring.Unbundled.Rat
import PFXTexture.Proof.BatchFetch
import PFXTexture.Proof.TableSteps

/-!
# Rows the table view knows

Whatever changes the rows of the controller, the table view is told at once. So it has one element
for each of them, each block that has not run is the one of its own row, and neither the controller
nor the table view ever stops the program.
-/

namespace PFXTexture

open SwiftArray

variable {random : Nat → Nat → String}

/-! ### Rows have a class -/

theorem subclass_ne_none_of_mem_decorated {models : List RepositoryModel} {allocated : Nat}
    {rows : List RxCellViewModel} {allocated' : Nat}
    (hpage : DecoratedPage random models allocated rows allocated') :
    ∀ row ∈ rows, row.subclass ≠ .none := by
  have hcells : ∀ row ∈ cells random models allocated, ∃ model, row.subclass = .repository model :=
    fun row hrow => repository_of_mem_cells random hrow
  obtain ⟨bannered, rows', hdecorate, hfirst, hsecond⟩ :=
    @decorate_spec random _ (allocated + models.length) fun row hrow =>
      RxCellViewModel.plain_of_repository (hcells row hrow).choose_spec
  obtain rfl : rows' = rows := by
    have hpair := Option.some.inj (hdecorate.symm.trans hpage.decorate_eq)
    exact congrArg Prod.fst hpair
  intro row hrow
  rcases List.mem_append.mp (hsecond.perm.mem_iff.mp hrow) with hold | hinfo
  · rcases List.mem_append.mp (hfirst.perm.mem_iff.mp hold) with hcell | hbanner
    · obtain ⟨model, hmodel⟩ := hcells row hcell
      rw [hmodel]
      exact fun heq => by cases heq
    · obtain ⟨object, -, rfl⟩ := List.mem_map.mp hbanner
      exact fun heq => by cases heq
  · obtain ⟨object, -, rfl⟩ := List.mem_map.mp hinfo
    exact fun heq => by cases heq

theorem RepositoryViewController.cellNode_ne_plain_iff (viewModel : RxCellViewModel) :
    cellNode viewModel ≠ .plain ↔ viewModel.subclass ≠ .none := by
  unfold cellNode
  cases viewModel.subclass <;> simp

namespace ASTableView

open RepositoryViewController (Outstanding cellNode cellNode_ne_plain_iff nodeBlockForRowAt)

/-- The element of the row still has its block. -/
def Pending (table : ASTableView) (row : Nat) : Prop :=
  ∃ blockRow, table.pendingMap[row]? = some (.nodeBlock blockRow)

/-- What can happen at a table view: any check, a call that waits, a block that has not run, the end
of an attempt that is under way, and an edit of a row it knows. -/
def Enabled {CGFloat : Type} (table : ASTableView) : Event CGFloat → Prop
  | .checkForBatchFetching _ => True
  | .scrollViewWillEndDragging _ _ => True
  | .runDispatched => 0 < table.dispatched
  | .allocateNode row => table.Pending row
  | .attempt load _ => Outstanding table.asyncDelegate.viewModel load
  | .commit _ row => row < table.numberOfRows

structure RowsKnown (table : ASTableView) : Prop where
  wired : table.asyncDelegate.viewModel.Wired
  numberOfRows_eq : table.numberOfRows = table.asyncDelegate.items.length
  length_pendingMap : table.pendingMap.length = table.asyncDelegate.items.length
  nodeBlock_row : ∀ row blockRow : Nat,
    table.pendingMap[row]? = some (.nodeBlock blockRow) → blockRow = row
  accumulated_class : ∀ row ∈ table.asyncDelegate.accumulated, row.subclass ≠ .none
  items_class : ∀ row ∈ table.asyncDelegate.items, row.subclass ≠ .none

theorem rowsKnown_start : RowsKnown start where
  wired := RepositoryViewController.wired_loaded
  numberOfRows_eq := rfl
  length_pendingMap := rfl
  nodeBlock_row := fun _ _ hblock => by cases hblock
  accumulated_class := fun _ hrow => absurd hrow List.not_mem_nil
  items_class := fun _ hrow => absurd hrow List.not_mem_nil

/-! ### Elements -/

@[simp]
theorem length_pendingMap_reloadData (table : ASTableView) :
    table.reloadData.pendingMap.length = table.asyncDelegate.items.length := by
  simp [reloadData, RepositoryViewController.numberOfRowsInSection]

theorem getElem?_reloadData {table : ASTableView} {row : Nat} {element : ASCollectionElement}
    (helement : table.reloadData.pendingMap[row]? = some element) : element = .nodeBlock row := by
  rw [reloadData, List.getElem?_map] at helement
  obtain ⟨blockRow, hrow, rfl⟩ := Option.map_eq_some_iff.mp helement
  obtain ⟨hlt, rfl⟩ := List.getElem?_eq_some_iff.mp hrow
  rw [List.getElem_range]

/-- Where a row was before the deletion of another one. -/
def rowBefore (deleted row : Nat) : Nat :=
  if row < deleted then row else row + 1

/-- Nothing is left to run after a deletion. -/
theorem getElem?_deleted (table : ASTableView) (deleted row : Nat) :
    (table.deleted deleted).pendingMap[row]? =
      table.pendingMap[rowBefore deleted row]?.map fun element =>
        .allocated (element.node (table.deleted deleted).asyncDelegate) := by
  rw [ASTableView.deleted, List.getElem?_eraseIdx, rowBefore]
  split
  · exact List.getElem?_map ..
  · exact List.getElem?_map ..

variable {CGFloat : Type} [OfNat CGFloat 0] [OfNat CGFloat 2] [BEq CGFloat] [LT CGFloat]
  [LE CGFloat] [DecidableLT CGFloat] [DecidableLE CGFloat] [Sub CGFloat] [Mul CGFloat]
  {table next : ASTableView} {event : Event CGFloat} {emitted : List RepositoryViewModel.Output}

/-! ### One step -/

theorem RowsKnown.step (hknown : RowsKnown table)
    (hcases : TableStep random table event next emitted) : RowsKnown next := by
  have hwired := hcases.wired hknown.wired
  cases hcases with
  | refused _ _ => exact hknown
  | begun _ _ => exact { hknown with wired := hwired }
  | called _ =>
      refine { hknown with wired := hwired, accumulated_class := ?_ }
      intro row hrow
      apply hknown.accumulated_class row
      simpa [RepositoryViewController.accumulated, RepositoryViewController.willBeginBatchFetchWith,
        hknown.wired.load_eq, RepositoryViewModel.onLoad] using hrow
  | @allocated row blockRow hblock =>
      refine { hknown with length_pendingMap := ?_, nodeBlock_row := ?_ }
      · rw [List.length_set]
        exact hknown.length_pendingMap
      · intro other otherBlock hother
        rw [List.getElem?_set] at hother
        split at hother
        · split at hother <;> cases hother
        · exact hknown.nodeBlock_row other otherBlock hother
  | failed hattempt =>
      refine { hknown with wired := hwired, accumulated_class := ?_ }
      intro row hrow
      apply hknown.accumulated_class row
      rwa [RepositoryViewController.accumulated, hattempt.subject_of_error] at hrow
  | succeeded hscene =>
      cases hscene with
      | @succeeded load models viewModel _ rows hattempt hpage hsubject =>
          have hnew : ∀ row ∈ table.asyncDelegate.accumulated ++ rows, row.subclass ≠ .none := by
            rw [List.forall_mem_append]
            exact ⟨hknown.accumulated_class, subclass_ne_none_of_mem_decorated hpage⟩
          constructor
          · exact hwired
          · rfl
          · exact length_pendingMap_reloadData _
          · intro row blockRow hblock
            cases getElem?_reloadData hblock
            rfl
          · intro row hrow
            apply hnew row
            simpa [RepositoryViewController.accumulated, reloadData, hsubject] using hrow
          · exact List.forall_mem_append.mpr ⟨hknown.items_class, hnew⟩
  | edited _ => exact hknown
  | @deleted row hrow _ =>
      constructor
      · exact hwired
      · rfl
      · have hlt : row < table.pendingMap.length := by rw [hknown.length_pendingMap]; exact hrow
        simp only [ASTableView.deleted, List.length_eraseIdx_of_lt hrow]
        rw [List.length_eraseIdx_of_lt (by rw [List.length_map]; exact hlt), List.length_map,
          hknown.length_pendingMap]
      · intro other blockRow hblock
        rw [getElem?_deleted] at hblock
        obtain ⟨_, -, hnode⟩ := Option.map_eq_some_iff.mp hblock
        cases hnode
      · exact hknown.accumulated_class
      · intro entry hmem
        exact hknown.items_class entry (List.mem_of_mem_eraseIdx hmem)

theorem preserves_rowsKnown : (machine CGFloat random).Preserves RowsKnown := by
  intro table event next emitted hknown hstep
  exact hknown.step (table_step hknown.wired hstep)

/-! ### What is answered -/

theorem RowsKnown.commit_isSome (hknown : RowsKnown table)
    (editingStyle : UITableViewCell.EditingStyle) {row : Nat} (hrow : row < table.numberOfRows) :
    (table.commit editingStyle row).isSome = true := by
  have hlt : row < table.asyncDelegate.items.length := by
    rw [← hknown.numberOfRows_eq]
    exact hrow
  unfold commit
  rw [if_pos hrow, RepositoryViewController.commit]
  by_cases hstyle : editingStyle = .delete
  · rw [if_pos hstyle, SwiftArray.remove_eq_some_iff.mpr ⟨hlt, rfl⟩, Option.map_some,
      Option.bind_some, if_pos hstyle, deleteRow, if_pos]
    · rfl
    · simp only [allocateNodes, RepositoryViewController.numberOfRowsInSection,
        List.length_eraseIdx_of_lt hlt, hknown.numberOfRows_eq]
      omega
  · rw [if_neg hstyle, Option.bind_some, if_neg hstyle]
    rfl

theorem allocateNode_isSome_iff (table : ASTableView) (row : Nat) :
    (table.allocateNode row).isSome = true ↔ table.Pending row := by
  unfold allocateNode Pending
  cases helement : table.pendingMap[row]? with
  | none => simp
  | some element =>
      cases element with
      | nodeBlock blockRow => exact iff_of_true rfl ⟨blockRow, rfl⟩
      | allocated node => simp

theorem RowsKnown.step_isSome_iff (hknown : RowsKnown table) (event : Event CGFloat) :
    ((machine CGFloat random).step table event).isSome = true ↔ table.Enabled event := by
  cases event with
  | checkForBatchFetching scrollView => exact iff_of_true rfl trivial
  | scrollViewWillEndDragging scrollView targetContentOffset => exact iff_of_true rfl trivial
  | runDispatched =>
      simp only [machine, runDispatched, Enabled, Option.isSome_map]
      cases table.dispatched with
      | zero => exact iff_of_false Bool.false_ne_true (Nat.lt_irrefl 0)
      | succ dispatched => exact iff_of_true rfl (Nat.succ_pos dispatched)
  | allocateNode row =>
      simp only [machine, Enabled, Option.isSome_map]
      exact allocateNode_isSome_iff table row
  | attempt load outcome =>
      simp only [machine, attempt, RepositoryViewController.attempt, Enabled, Option.isSome_map]
      constructor
      · intro hsome
        obtain ⟨⟨viewModel, outputs⟩, hattempt⟩ := Option.isSome_iff_exists.mp hsome
        exact RepositoryViewModel.pending_of_attempt_eq_some random hattempt
      · rintro ⟨pending, hload, hpending⟩
        obtain ⟨_, _, hattempt, -⟩ :=
          hknown.wired.loads_live.exists_attempt random hload hpending outcome
        rw [hattempt]
        rfl
  | commit editingStyle row =>
      simp only [machine, Enabled, Option.isSome_map]
      constructor
      · intro hsome
        obtain ⟨_, hcommit⟩ := Option.isSome_iff_exists.mp hsome
        exact (Option.ite_none_right_eq_some.mp hcommit).1
      · exact hknown.commit_isSome editingStyle

theorem RowsKnown.lt_of_pending (hknown : RowsKnown table) {row : Nat}
    (hpending : table.Pending row) : row < table.asyncDelegate.items.length := by
  obtain ⟨blockRow, hblock⟩ := hpending
  rw [← hknown.length_pendingMap]
  exact (List.getElem?_eq_some_iff.mp hblock).1

/-- A block that runs while the rows are all there builds the cell of its entry. -/
theorem RowsKnown.nodeBlockForRowAt_eq (hknown : RowsKnown table) {row blockRow : Nat}
    (hblock : table.pendingMap[row]? = some (.nodeBlock blockRow)) :
    ∃ viewModel, table.asyncDelegate.items[row]? = some viewModel ∧ viewModel.subclass ≠ .none ∧
      nodeBlockForRowAt blockRow table.asyncDelegate = cellNode viewModel := by
  have hrow := hknown.lt_of_pending ⟨blockRow, hblock⟩
  refine ⟨_, List.getElem?_eq_getElem hrow, hknown.items_class _ (List.getElem_mem hrow), ?_⟩
  rw [hknown.nodeBlock_row row blockRow hblock, nodeBlockForRowAt,
    RepositoryViewController.cellNodeAt, List.getElem?_eq_getElem hrow]

end ASTableView

end PFXTexture
