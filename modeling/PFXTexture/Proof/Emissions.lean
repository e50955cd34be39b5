import PFXTexture.Library.Relay
import PFXTexture.Proof.Loads
import PFXTexture.Proof.Rows

/-!
# How often a row is shown

The view model is a relay that accumulates, and the controller appends whatever it emits. `Appended`
follows the rows, the deleted ones included, through any run: they are the emissions, one after the
other.
-/

namespace PFXTexture.RepositoryViewController

open RepositoryViewModel (AttemptStep IsDecorated)

/-- The page that an event brings. -/
def page? : Event → Option (List RepositoryModel)
  | .attempt _ (.ok models) => some models
  | _ => none

def isDeletion : Event → Bool
  | .commit .delete _ => true
  | _ => false

def rows? : RepositoryViewModel.Output → Option (List RxCellViewModel)
  | .error _ => none
  | .cellViewModels rows => some rows

variable (random : Nat → Nat → String)

structure Appended (events : List Event)
    (scene : RepositoryViewController × List RxCellViewModel)
    (emitted : List RepositoryViewModel.Output) (pages : List (List RxCellViewModel)) : Prop where
  pages_decorated : List.Forall₂ (IsDecorated random) (events.filterMap page?) pages
  accumulated_eq : scene.1.accumulated = pages.flatten
  emitted_eq : emitted.filterMap rows? = Relay.emissions [] pages
  items_sublist : scene.1.items.Sublist (Relay.emissions [] pages).flatten
  items_perm : (scene.1.items ++ scene.2).Perm (Relay.emissions [] pages).flatten
  length_deleted : scene.2.length = events.countP isDeletion

theorem appended_loaded : Appended random [] (loaded, []) [] [] where
  pages_decorated := List.Forall₂.nil
  accumulated_eq := rfl
  emitted_eq := rfl
  items_sublist := List.Sublist.refl _
  items_perm := List.Perm.refl _
  length_deleted := rfl

variable {random} {events : List Event} {controller next : RepositoryViewController}
  {deleted : List RxCellViewModel} {event : Event}
  {emitted first : List RepositoryViewModel.Output} {pages : List (List RxCellViewModel)}

/-! ### One step -/

/-- A step that brings no page and deletes no row. -/
theorem Appended.of_eq (happended : Appended random events (controller, deleted) emitted pages)
    (hpage : page? event = none) (hdeletion : isDeletion event = false)
    (haccumulated : next.accumulated = controller.accumulated)
    (hitems : next.items = controller.items) (hfirst : first.filterMap rows? = []) :
    Appended random (events ++ [event]) (next, deleted) (emitted ++ first) pages where
  pages_decorated := by
    rw [List.filterMap_append, List.filterMap_cons_none hpage, List.filterMap_nil, List.append_nil]
    exact happended.pages_decorated
  accumulated_eq := haccumulated.trans happended.accumulated_eq
  emitted_eq := by
    rw [List.filterMap_append, hfirst, List.append_nil]
    exact happended.emitted_eq
  items_sublist := by
    rw [hitems]
    exact happended.items_sublist
  items_perm := by
    rw [hitems]
    exact happended.items_perm
  length_deleted := by
    rw [List.countP_append, List.countP_singleton, hdeletion]
    exact happended.length_deleted

theorem rows?_of_error {load : Nat} {error : LoadError} {viewModel next : RepositoryViewModel}
    (hattempt : AttemptStep random viewModel load (.error error) next emitted) :
    emitted.filterMap rows? = [] := by
  cases hattempt <;> rfl

/-- The whole list is emitted and appended, the new page at its end. -/
theorem Appended.succeeded
    (happended : Appended random events (controller, deleted) emitted pages) {load : Nat}
    {models : List RepositoryModel} {viewModel : RepositoryViewModel}
    (hattempt : AttemptStep random controller.viewModel load (.ok models) viewModel first)
    {rows : List RxCellViewModel}
    (hsubject : viewModel.cellViewModelsSubject = some (controller.accumulated ++ rows)) :
    Appended random (events ++ [.attempt load (.ok models)])
      ({ controller with items := controller.items ++ (controller.accumulated ++ rows), viewModel },
        deleted)
      (emitted ++ first) (pages ++ [rows]) := by
  obtain ⟨rows', hpage, hsubject', rfl⟩ := hattempt.subject_of_ok
  obtain rfl : rows = rows' :=
    List.append_cancel_left (Option.some.inj (hsubject.symm.trans hsubject'))
  have hemissions : Relay.emissions [] (pages ++ [rows]) =
      Relay.emissions [] pages ++ [controller.accumulated ++ rows] := by
    rw [Relay.emissions_concat, List.nil_append, happended.accumulated_eq]
  constructor
  · rw [List.filterMap_append]
    apply List.rel_append happended.pages_decorated
    exact List.Forall₂.cons ⟨_, _, hpage.decorate_eq⟩ List.Forall₂.nil
  · rw [List.flatten_concat, ← happended.accumulated_eq, accumulated, hsubject, Option.getD_some]
  · rw [List.filterMap_append, happended.emitted_eq, hemissions]
    rfl
  · rw [hemissions, List.flatten_concat]
    exact happended.items_sublist.append_right _
  · rw [hemissions, List.flatten_concat]
    refine List.Perm.trans ?_ (happended.items_perm.append_right _)
    rw [List.append_assoc, List.append_assoc controller.items deleted]
    exact List.perm_append_comm.append_left _
  · rw [List.countP_append]
    exact happended.length_deleted

theorem Appended.erased (happended : Appended random events (controller, deleted) emitted pages)
    {row : Nat} (hrow : row < controller.items.length) :
    Appended random (events ++ [.commit .delete row])
      ({ controller with items := controller.items.eraseIdx row }, controller.items[row] :: deleted)
      emitted pages where
  pages_decorated := by
    have hnone : [Event.commit .delete row].filterMap page? = [] := rfl
    rw [List.filterMap_append, hnone, List.append_nil]
    exact happended.pages_decorated
  accumulated_eq := happended.accumulated_eq
  emitted_eq := happended.emitted_eq
  items_sublist := (List.eraseIdx_sublist _ _).trans happended.items_sublist
  items_perm := by
    have hrow' : (controller.items[row] :: controller.items.eraseIdx row).Perm controller.items :=
      List.getElem_cons_eraseIdx_perm hrow
    exact (List.perm_middle.trans (hrow'.append_right _)).trans happended.items_perm
  length_deleted := by
    rw [List.length_cons, happended.length_deleted, List.countP_append]
    rfl

theorem Appended.step (happended : Appended random events (controller, deleted) emitted pages)
    (hcases : SceneStep random controller event next first) :
    ∃ pages', Appended random (events ++ [event])
      (next, recordDeleted controller event next deleted) (emitted ++ first) pages' := by
  cases hcases with
  | batched => exact ⟨pages, happended.of_eq rfl rfl rfl rfl rfl⟩
  | failed hattempt =>
      refine ⟨pages, happended.of_eq rfl rfl ?_ rfl (rows?_of_error hattempt)⟩
      unfold accumulated
      rw [hattempt.subject_of_error]
  | succeeded hattempt _ hsubject => exact ⟨_, happended.succeeded hattempt hsubject⟩
  | @edited editingStyle row hstyle =>
      cases editingStyle with
      | none => exact ⟨pages, happended.of_eq rfl rfl rfl rfl rfl⟩
      | insert => exact ⟨pages, happended.of_eq rfl rfl rfl rfl rfl⟩
      | delete => exact absurd rfl hstyle
  | @deleted row hrow =>
      rw [recordDeleted, List.getElem?_eq_getElem hrow, List.append_nil]
      exact ⟨pages, happended.erased hrow⟩

/-! ### Runs -/

theorem appended_of_run {scene : RepositoryViewController × List RxCellViewModel}
    (hrun : (editedMachine random).run (loaded, []) events = some (scene, emitted)) :
    RowsDistinct scene ∧ ∃ pages, Appended random events scene emitted pages := by
  refine (editedMachine random).run_induction
    (motive := fun events scene emitted => RowsDistinct scene ∧
      ∃ pages, Appended random events scene emitted pages)
    ⟨rowsDistinct_loaded, [], appended_loaded random⟩ ?_ hrun
  rintro done ⟨controller, deleted⟩ out event ⟨next, deleted'⟩ first ⟨hdistinct, _, happended⟩ hstep
  obtain ⟨hscene, rfl⟩ := (machine random).withGhost_step_eq_some_iff.mp hstep
  have hcases := scene_step hdistinct.wired hscene
  exact ⟨hdistinct.step hcases, happended.step hcases⟩

/-- **A row of the `k`-th of `n` pages has been appended `n - k` times**: it is on the screen that
often, less the number of times it was deleted. -/
theorem row_count_eq (random : Nat → Nat → String) (events : List Event)
    (scene : RepositoryViewController × List RxCellViewModel)
    (emitted : List RepositoryViewModel.Output)
    (hrun : (editedMachine random).run (loaded, []) events = some (scene, emitted)) :
    ∃ pages, List.Forall₂ (IsDecorated random) (events.filterMap page?) pages ∧
      emitted.filterMap rows? = Relay.emissions [] pages ∧
      scene.1.items.Sublist (Relay.emissions [] pages).flatten ∧
      ∀ index (hindex : index < pages.length), ∀ row ∈ pages[index],
        scene.1.items.count row + scene.2.count row = pages.length - index := by
  obtain ⟨hdistinct, pages, happended⟩ := appended_of_run hrun
  refine ⟨pages, happended.pages_decorated, happended.emitted_eq, happended.items_sublist, ?_⟩
  intro index hindex row hrow
  have hnodup : pages.flatten.Nodup := by
    rw [← happended.accumulated_eq]
    exact hdistinct.nodup
  rw [← List.count_append, happended.items_perm.count_eq]
  exact Relay.count_flatten_emissions hnodup hindex hrow

/-- Two pages, the rows of the first one twice. -/
theorem row_count_eq_two_pages :
    ∃ scene emitted, ∃ pages : List (List RxCellViewModel),
      (editedMachine fun _ _ => "").run (loaded, [])
        [.attempt 0 (.ok [{ id := 1 }]), .willBeginBatchFetch ⟨0⟩,
          .attempt 1 (.ok [{ id := 2 }]), .commit .delete 0] = some (scene, emitted) ∧
      pages.length = 2 ∧ ∀ index (hindex : index < pages.length), ∀ row ∈ pages[index],
        scene.1.items.count row + scene.2.count row = 2 - index := by
  obtain ⟨scene, emitted, hrun⟩ : ∃ scene emitted, (editedMachine fun _ _ => "").run (loaded, [])
      [.attempt 0 (.ok [{ id := 1 }]), .willBeginBatchFetch ⟨0⟩,
        .attempt 1 (.ok [{ id := 2 }]), .commit .delete 0] = some (scene, emitted) := ⟨_, _, rfl⟩
  obtain ⟨pages, hpages, -, -, hcount⟩ := row_count_eq _ _ _ _ hrun
  have hlength : pages.length = 2 := hpages.length_eq.symm
  refine ⟨scene, emitted, pages, hrun, hlength, fun index hindex row hrow => ?_⟩
  rw [hcount index hindex row hrow, hlength]

end PFXTexture.RepositoryViewController
