import PFXTexture.RepositoryViewController
import PFXTexture.Proof.ViewModelSteps

/-!
# What one step of the list scene does

The five kinds of step of a scene whose view model is wired. A successful attempt is the only one
that reaches the controller's rows from the view model.
-/

namespace PFXTexture.RepositoryViewController

open RepositoryViewModel (AttemptStep)

variable (random : Nat → Nat → String)

/-- The rows the view model has accumulated. -/
def accumulated (controller : RepositoryViewController) : List RxCellViewModel :=
  controller.viewModel.cellViewModelsSubject.getD []

inductive SceneStep (controller : RepositoryViewController) :
    Event → RepositoryViewController → List RepositoryViewModel.Output → Prop where
  | batched {context : ASBatchContext} :
      SceneStep controller (.willBeginBatchFetch context)
        { controller with context := some context, viewModel := controller.viewModel.onLoad } []
  | failed {load : Nat} {error : LoadError} {viewModel : RepositoryViewModel}
      {emitted : List RepositoryViewModel.Output}
      (hattempt : AttemptStep random controller.viewModel load (.error error) viewModel emitted) :
      SceneStep controller (.attempt load (.error error)) { controller with viewModel } emitted
  | succeeded {load : Nat} {models : List RepositoryModel} {viewModel : RepositoryViewModel}
      {emitted : List RepositoryViewModel.Output} {rows : List RxCellViewModel}
      (hattempt : AttemptStep random controller.viewModel load (.ok models) viewModel emitted)
      (hpage : DecoratedPage random models controller.viewModel.allocated rows viewModel.allocated)
      (hsubject : viewModel.cellViewModelsSubject = some (controller.accumulated ++ rows)) :
      SceneStep controller (.attempt load (.ok models))
        { controller with items := controller.items ++ (controller.accumulated ++ rows), viewModel }
        emitted
  | edited {editingStyle : UITableViewCell.EditingStyle} {row : Nat}
      (hstyle : editingStyle ≠ .delete) :
      SceneStep controller (.commit editingStyle row) controller []
  | deleted {row : Nat} (hrow : row < controller.items.length) :
      SceneStep controller (.commit .delete row)
        { controller with items := controller.items.eraseIdx row } []

variable {random} {controller next : RepositoryViewController} {event : Event}
  {emitted : List RepositoryViewModel.Output}

theorem attempt_step (hloads : controller.viewModel.LoadsLive) {load : Nat} {outcome : Outcome}
    (hstep : controller.attempt random load outcome = some (next, emitted)) :
    SceneStep random controller (.attempt load outcome) next emitted := by
  obtain ⟨⟨viewModel, outputs⟩, hattempt, hpair⟩ := Option.map_eq_some_iff.mp hstep
  obtain ⟨rfl, rfl⟩ : outputs.foldl receive { controller with viewModel } = next ∧
      outputs = emitted := by simpa using hpair
  have hcases := hloads.attempt_step random hattempt
  cases outcome with
  | ok models =>
      obtain ⟨rows, hpage, hsubject, rfl⟩ := hcases.subject_of_ok
      exact .succeeded hcases hpage hsubject
  | error error =>
      have hkept : outputs.foldl receive { controller with viewModel } =
          { controller with viewModel } := by
        cases hcases <;> rfl
      rw [hkept]
      exact .failed hcases

theorem commit_cases {editingStyle : UITableViewCell.EditingStyle} {row : Nat}
    (hcommit : controller.commit editingStyle row = some next) :
    editingStyle ≠ .delete ∧ next = controller ∨
      editingStyle = .delete ∧ row < controller.items.length ∧
        next = { controller with items := controller.items.eraseIdx row } := by
  unfold commit at hcommit
  by_cases hstyle : editingStyle = .delete
  · rw [if_pos hstyle] at hcommit
    obtain ⟨items, hremove, rfl⟩ := Option.map_eq_some_iff.mp hcommit
    obtain ⟨hrow, rfl⟩ := SwiftArray.remove_eq_some_iff.mp hremove
    exact .inr ⟨hstyle, hrow, rfl⟩
  · rw [if_neg hstyle] at hcommit
    exact .inl ⟨hstyle, (Option.some.inj hcommit).symm⟩

theorem scene_step (hwired : controller.viewModel.Wired)
    (hstep : (machine random).step controller event = some (next, emitted)) :
    SceneStep random controller event next emitted := by
  cases event with
  | willBeginBatchFetch context =>
      cases hstep
      rw [willBeginBatchFetchWith, hwired.load_eq]
      exact .batched
  | attempt load outcome => exact attempt_step hwired.loads_live hstep
  | commit editingStyle row =>
      obtain ⟨_, hcommit, hpair⟩ := Option.map_eq_some_iff.mp hstep
      cases hpair
      obtain ⟨hstyle, rfl⟩ | ⟨rfl, hrow, rfl⟩ := commit_cases hcommit
      · exact .edited hstyle
      · exact .deleted hrow

theorem SceneStep.wired (hwired : controller.viewModel.Wired)
    (hcases : SceneStep random controller event next emitted) : next.viewModel.Wired := by
  cases hcases with
  | batched => exact hwired.onLoad
  | failed hattempt => exact hattempt.wired hwired
  | succeeded hattempt _ _ => exact hattempt.wired hwired
  | edited _ => exact hwired
  | deleted _ => exact hwired

theorem loaded_eq : loaded =
    { items := [], context := none, viewModel := RepositoryViewModel.make.onLoad } := rfl

theorem wired_loaded : loaded.viewModel.Wired :=
  RepositoryViewModel.wired_make.onLoad

end PFXTexture.RepositoryViewController
