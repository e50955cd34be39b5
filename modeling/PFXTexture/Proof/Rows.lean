import PFXTexture.Proof.SceneSteps

/-!
# Rows shown and rows accumulated

Every emission is the whole accumulated list, and the controller appends it to rows it already has.
Beside the scene stands the list of the entries deleted so far.
-/

namespace PFXTexture.RepositoryViewController

variable (random : Nat → Nat → String)

/-- Every entry a deletion removes is recorded. -/
def recordDeleted (controller : RepositoryViewController) (event : Event)
    (_ : RepositoryViewController) (deleted : List RxCellViewModel) : List RxCellViewModel :=
  match event with
  | .commit .delete row => controller.items[row]?.toList ++ deleted
  | _ => deleted

def editedMachine : Machine (RepositoryViewController × List RxCellViewModel) Event
    RepositoryViewModel.Output :=
  (machine random).withGhost recordDeleted

/-- The rows are the accumulated entries without the deleted ones. -/
structure RowsShown (scene : RepositoryViewController × List RxCellViewModel) : Prop where
  items_eq : scene.1.items = scene.1.accumulated.filter fun row => row ∉ scene.2
  once : ∀ row ∈ scene.1.accumulated, row ∉ scene.2 → scene.1.items.count row = 1
  gone : ∀ row ∈ scene.2, row ∉ scene.1.items

/-- A page is accepted only while nothing has been accumulated. -/
def FirstPage (scene : RepositoryViewController × List RxCellViewModel) (event : Event) : Prop :=
  match event with
  | .attempt _ (.ok _) => scene.1.accumulated = []
  | _ => True

/-! ### Entries are distinct objects -/

structure RowsDistinct (scene : RepositoryViewController × List RxCellViewModel) : Prop where
  wired : scene.1.viewModel.Wired
  objects_nodup : (scene.1.accumulated.map RxCellViewModel.object).Nodup
  objects_lt : ∀ row ∈ scene.1.accumulated, row.object < scene.1.viewModel.allocated
  items_subset : ∀ row ∈ scene.1.items, row ∈ scene.1.accumulated
  deleted_subset : ∀ row ∈ scene.2, row ∈ scene.1.accumulated

variable {random} {controller next : RepositoryViewController}
  {deleted deleted' : List RxCellViewModel} {event : Event}
  {emitted : List RepositoryViewModel.Output}

theorem RowsDistinct.nodup (hdistinct : RowsDistinct (controller, deleted)) :
    controller.accumulated.Nodup :=
  hdistinct.objects_nodup.of_map

theorem RowsDistinct.rowsShown_iff (hdistinct : RowsDistinct (controller, deleted)) :
    RowsShown (controller, deleted) ↔
      controller.items = controller.accumulated.filter fun row => row ∉ deleted := by
  constructor
  · exact RowsShown.items_eq
  · intro hitems
    refine ⟨hitems, ?_, ?_⟩
    · intro row hrow hkept
      have hmem : row ∈ controller.items := by
        rw [hitems]
        exact List.mem_filter.mpr ⟨hrow, by simpa using hkept⟩
      have hnodup : controller.items.Nodup := by
        rw [hitems]
        exact hdistinct.nodup.filter _
      exact List.count_eq_one_of_mem hnodup hmem
    · intro row hrow hmem
      rw [hitems] at hmem
      exact absurd hrow (by simpa using (List.mem_filter.mp hmem).2)

theorem rowsDistinct_loaded : RowsDistinct (loaded, []) where
  wired := wired_loaded
  objects_nodup := List.nodup_nil
  objects_lt := by simp [loaded_eq, accumulated, RepositoryViewModel.make,
    RepositoryViewModel.bindInputs, RepositoryViewModel.onLoad]
  items_subset := by simp [loaded_eq]
  deleted_subset := by simp

/-- Two scenes with the same accumulated entries. -/
theorem RowsDistinct.of_eq (hdistinct : RowsDistinct (controller, deleted))
    (hwired : next.viewModel.Wired) (haccumulated : next.accumulated = controller.accumulated)
    (hallocated : next.viewModel.allocated = controller.viewModel.allocated)
    (hitems : ∀ row ∈ next.items, row ∈ controller.items)
    (hdeleted : ∀ row ∈ deleted', row ∈ deleted ∨ row ∈ controller.items) :
    RowsDistinct (next, deleted') where
  wired := hwired
  objects_nodup := by
    rw [haccumulated]
    exact hdistinct.objects_nodup
  objects_lt := by
    rw [haccumulated, hallocated]
    exact hdistinct.objects_lt
  items_subset := by
    intro row hrow
    rw [haccumulated]
    exact hdistinct.items_subset row (hitems row hrow)
  deleted_subset := by
    intro row hrow
    rw [haccumulated]
    rcases hdeleted row hrow with hold | hnew
    · exact hdistinct.deleted_subset row hold
    · exact hdistinct.items_subset row hnew

/-- The objects of a new page are not among the accumulated ones. -/
theorem RowsDistinct.fresh {models : List RepositoryModel} {rows : List RxCellViewModel}
    {allocated : Nat} (hdistinct : RowsDistinct (controller, deleted))
    (hpage : DecoratedPage random models controller.viewModel.allocated rows allocated)
    {row : RxCellViewModel} (hrow : row ∈ rows) : row ∉ controller.accumulated := by
  intro hmem
  have hold := hdistinct.objects_lt row hmem
  have hnew := (hpage.object_mem hrow).1
  exact absurd hold (Nat.not_lt.mpr hnew)

theorem RowsDistinct.step (hdistinct : RowsDistinct (controller, deleted))
    (hcases : SceneStep random controller event next emitted) :
    RowsDistinct (next, recordDeleted controller event next deleted) := by
  have hwired := hcases.wired hdistinct.wired
  cases hcases with
  | batched =>
      exact hdistinct.of_eq hwired rfl rfl (fun _ hrow => hrow) fun _ hrow => .inl hrow
  | failed hattempt =>
      refine hdistinct.of_eq hwired ?_ hattempt.allocated_of_error (fun _ hrow => hrow)
        fun _ hrow => .inl hrow
      unfold accumulated
      rw [hattempt.subject_of_error]
  | @succeeded load models viewModel emitted rows hattempt hpage hsubject =>
      have haccumulated : (viewModel.cellViewModelsSubject.getD []) =
          controller.accumulated ++ rows := by rw [hsubject, Option.getD_some]
      constructor
      · exact hwired
      · rw [accumulated, haccumulated, List.map_append, List.nodup_append]
        refine ⟨hdistinct.objects_nodup, hpage.objects_nodup, ?_⟩
        intro object hold other hnew heq
        obtain ⟨row, hrow, rfl⟩ := List.mem_map.mp hold
        obtain ⟨fresh, hfresh, rfl⟩ := List.mem_map.mp hnew
        have hlt : row.object < controller.viewModel.allocated := hdistinct.objects_lt row hrow
        have hle := (hpage.object_mem hfresh).1
        omega
      · intro row hrow
        rw [accumulated, haccumulated, List.mem_append] at hrow
        rcases hrow with hold | hnew
        · exact Nat.lt_of_lt_of_le (hdistinct.objects_lt row hold) hpage.le
        · exact (hpage.object_mem hnew).2
      · intro row hrow
        rw [accumulated, haccumulated]
        rcases List.mem_append.mp hrow with hold | hnew
        · exact List.mem_append_left _ (hdistinct.items_subset row hold)
        · exact hnew
      · intro row hrow
        rw [accumulated, haccumulated]
        exact List.mem_append_left _ (hdistinct.deleted_subset row hrow)
  | @edited editingStyle row hstyle =>
      refine hdistinct.of_eq hwired rfl rfl (fun _ hrow => hrow) fun entry hentry => .inl ?_
      cases editingStyle with
      | none => exact hentry
      | insert => exact hentry
      | delete => exact absurd rfl hstyle
  | @deleted row hrow =>
      refine hdistinct.of_eq hwired rfl rfl (fun _ hmem => List.mem_of_mem_eraseIdx hmem) ?_
      intro entry hentry
      rw [recordDeleted, List.getElem?_eq_getElem hrow, Option.toList_some] at hentry
      rcases List.mem_append.mp hentry with hnew | hold
      · rw [List.mem_singleton.mp hnew]
        exact .inr (List.getElem_mem hrow)
      · exact .inl hold

theorem preserves_rowsDistinct : (editedMachine random).Preserves RowsDistinct := by
  rintro ⟨controller, deleted⟩ event ⟨next, deleted'⟩ emitted hdistinct hstep
  obtain ⟨hscene, rfl⟩ := (machine random).withGhost_step_eq_some_iff.mp hstep
  exact hdistinct.step (scene_step hdistinct.wired hscene)

/-! ### One step -/

/-- Deletions keep the rows right. A page is appended behind everything already accumulated, so it
keeps them right only if that is nothing. -/
theorem RowsDistinct.rowsShown_step_iff (hdistinct : RowsDistinct (controller, deleted))
    (hshown : RowsShown (controller, deleted))
    (hcases : SceneStep random controller event next emitted) :
    RowsShown (next, recordDeleted controller event next deleted) ↔
      FirstPage (controller, deleted) event := by
  have hitems := hshown.items_eq
  rw [(hdistinct.step hcases).rowsShown_iff]
  cases hcases with
  | batched => exact iff_of_true hitems trivial
  | failed hattempt =>
      refine iff_of_true ?_ trivial
      unfold accumulated
      rw [hattempt.subject_of_error]
      exact hitems
  | @succeeded load models viewModel emitted rows hattempt hpage hsubject =>
      have hkept : (rows.filter fun row => row ∉ deleted) = rows := by
        apply List.filter_eq_self.mpr
        intro row hrow
        have hfresh := hdistinct.fresh hpage hrow
        simpa using fun hdeleted => hfresh (hdistinct.deleted_subset row hdeleted)
      have haccumulated : ((viewModel.cellViewModelsSubject.getD []).filter
          fun row => row ∉ deleted) = controller.items ++ rows := by
        rw [hsubject, Option.getD_some, List.filter_append, hkept, hitems]
      change controller.items ++ (controller.accumulated ++ rows) =
        (viewModel.cellViewModelsSubject.getD []).filter (fun row => row ∉ deleted) ↔
          controller.accumulated = []
      rw [haccumulated, List.append_cancel_left_eq, List.append_left_eq_self]
  | @edited editingStyle row hstyle =>
      refine iff_of_true ?_ trivial
      cases editingStyle with
      | none => exact hitems
      | insert => exact hitems
      | delete => exact absurd rfl hstyle
  | @deleted row hrow =>
      refine iff_of_true ?_ trivial
      have hnodup : controller.items.Nodup := by
        rw [hitems]
        exact hdistinct.nodup.filter _
      have hremoved := SwiftArray.eraseIdx_eq_filter_ne hnodup hrow
      have hrecord : recordDeleted controller (.commit .delete row)
          { controller with items := controller.items.eraseIdx row } deleted =
            controller.items[row] :: deleted := by
        rw [recordDeleted, List.getElem?_eq_getElem hrow]
        rfl
      rw [hrecord]
      generalize controller.items[row] = entry at hremoved ⊢
      calc controller.items.eraseIdx row
          = (controller.accumulated.filter fun row => row ∉ deleted).filter
              fun row => row ≠ entry := by rw [hremoved, hitems]
        _ = controller.accumulated.filter fun row => row ∉ entry :: deleted := by
            rw [List.filter_filter]
            apply List.filter_congr
            intro other _
            simp

/-! ### Runs -/

/-- **Rows shown equal rows accumulated** along a run precisely when it accepts every page while
nothing has been accumulated. -/
theorem rows_shown_iff (random : Nat → Nat → String) (events : List Event) :
    (editedMachine random).Always RowsShown (loaded, []) events ↔
      (editedMachine random).Each FirstPage (loaded, []) events := by
  apply preserves_rowsDistinct.always_iff_each
  · rintro ⟨controller, deleted⟩ event ⟨next, deleted'⟩ emitted hdistinct hshown hstep
    obtain ⟨hscene, rfl⟩ := (machine random).withGhost_step_eq_some_iff.mp hstep
    exact hdistinct.rowsShown_step_iff hshown (scene_step hdistinct.wired hscene)
  · exact rowsDistinct_loaded
  · exact rowsDistinct_loaded.rowsShown_iff.mpr rfl

/-- The second page brings the first one along. -/
theorem rows_shown_twice :
    ∃ scene emitted, (editedMachine fun _ _ => "").run (loaded, [])
        [.attempt 0 (.ok [{ id := 1 }]), .willBeginBatchFetch ⟨0⟩,
          .attempt 1 (.ok [{ id := 2 }])] = some (scene, emitted) ∧
      scene.1.accumulated.length = 2 ∧ scene.1.items.length = 3 ∧ ¬RowsShown scene := by
  refine ⟨_, _, rfl, rfl, rfl, ?_⟩
  intro hshown
  exact absurd hshown.items_eq (by decide)

end PFXTexture.RepositoryViewController
