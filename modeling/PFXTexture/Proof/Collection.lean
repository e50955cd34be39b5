import PFXTexture.DContentsNode

/-!
# The collection and its cells

The collection node keeps the number of items of its last `reloadData` and may ask for any row below
it. Every handler changes `itemCellNodes`; two of them leave the number as it was.
-/

namespace PFXTexture.DContentsNode

/-- Every row the collection may ask for has its cell. -/
structure Agrees (node : DContentsNode) : Prop where
  count_eq : node.collectionNode.numberOfItems = node.itemCellNodes.length
  cell_of_row : ∀ row < node.collectionNode.numberOfItems, node.nodeForItemAt row ≠ none

/-- The recent and the refresh button are tapped only when there is nothing to clear. -/
def ClearsNothing (node : DContentsNode) : Event → Prop
  | .recentButtonTap | .allButtonTap => node.itemCellNodes = []
  | _ => True

variable {node next : DContentsNode} {event : Event} {emitted : List DContentsViewModel.Output}

theorem agrees_iff : node.Agrees ↔
    node.collectionNode.numberOfItems = node.itemCellNodes.length := by
  constructor
  · exact fun hagrees => hagrees.count_eq
  · intro hcount
    refine ⟨hcount, fun row hrow => ?_⟩
    rw [hcount] at hrow
    rw [nodeForItemAt, List.getElem?_eq_getElem hrow]
    exact Option.some_ne_none _

/-! ### Handlers -/

theorem agrees_reloadData (node : DContentsNode) : node.reloadData.Agrees :=
  agrees_iff.mpr rfl

theorem Agrees.onItems (hagrees : node.Agrees) (models : Option (List RepositoryModel)) :
    (node.onItems models).Agrees := by
  cases models with
  | none => exact hagrees
  | some models => exact agrees_reloadData _

theorem agrees_make (viewModel : DContentsViewModel) : (make viewModel).Agrees := by
  apply Agrees.onItems
  exact agrees_iff.mpr rfl

theorem Agrees.foldl_receive (outputs : List DContentsViewModel.Output) :
    ∀ {node : DContentsNode}, node.Agrees → (outputs.foldl receive node).Agrees := by
  induction outputs with
  | nil => exact fun hagrees => hagrees
  | cons output outputs ih =>
      intro node hagrees
      rw [List.foldl_cons]
      cases output with
      | items models => exact ih (hagrees.onItems (some models))

theorem Agrees.response (hagrees : node.Agrees) {index : Nat} {outcome : Outcome}
    (hstep : node.response index outcome = some (next, emitted)) : next.Agrees := by
  obtain ⟨⟨viewModel, outputs⟩, -, hpair⟩ := Option.map_eq_some_iff.mp hstep
  cases hpair
  apply Agrees.foldl_receive
  exact ⟨hagrees.count_eq, hagrees.cell_of_row⟩

/-- Clearing without `reloadData` is harmless only when there is nothing to clear. -/
theorem Agrees.removeAll_iff (hagrees : node.Agrees) :
    node.removeAll.Agrees ↔ node.itemCellNodes = [] := by
  have hcount : node.removeAll.collectionNode.numberOfItems = node.itemCellNodes.length :=
    hagrees.count_eq
  rw [agrees_iff, hcount]
  exact List.length_eq_zero_iff

theorem Agrees.step_iff (hagrees : node.Agrees)
    (hstep : machine.step node event = some (next, emitted)) :
    next.Agrees ↔ node.ClearsNothing event := by
  cases event with
  | didLoad =>
      cases hstep
      exact iff_of_true ⟨hagrees.count_eq, hagrees.cell_of_row⟩ trivial
  | favoriteButtonTap =>
      cases hstep
      exact iff_of_true (agrees_reloadData _) trivial
  | recentButtonTap =>
      cases hstep
      exact hagrees.removeAll_iff
  | allButtonTap =>
      cases hstep
      -- the load input touches the view model alone
      have hload : node.allButtonTap.Agrees ↔ node.removeAll.Agrees := by
        rw [agrees_iff, agrees_iff]
        exact Iff.rfl
      exact hload.trans hagrees.removeAll_iff
  | debounceElapsed subscription =>
      obtain ⟨_, -, hpair⟩ := Option.map_eq_some_iff.mp hstep
      cases hpair
      exact iff_of_true ⟨hagrees.count_eq, hagrees.cell_of_row⟩ trivial
  | response index outcome => exact iff_of_true (hagrees.response hstep) trivial

/-- **The collection agrees with its cells** all along a run precisely when the two buttons that
clear without reloading are tapped on an empty section only. -/
theorem agrees_iff_clearsNothing (viewModel : DContentsViewModel) (events : List Event) :
    machine.Always Agrees (make viewModel) events ↔
      machine.Each ClearsNothing (make viewModel) events := by
  have hkeep : machine.Preserves fun _ => True := fun _ _ _ _ _ _ => trivial
  apply hkeep.always_iff_each
  · intro node event next emitted _ hagrees hstep
    exact hagrees.step_iff hstep
  · trivial
  · exact agrees_make viewModel

/-- After a tap on the recent button the collection may ask for a cell that is gone. -/
theorem stale_row_after_recent :
    ∃ node emitted, machine.run (make (.make {}))
        [.didLoad, .debounceElapsed 0, .response 0 (.ok [{ id := 1 }]), .recentButtonTap] =
          some (node, emitted) ∧
      0 < node.collectionNode.numberOfItems ∧ node.nodeForItemAt 0 = none ∧ ¬node.Agrees := by
  refine ⟨_, _, rfl, by decide, rfl, ?_⟩
  intro hagrees
  exact absurd hagrees.count_eq (by decide)

end PFXTexture.DContentsNode
