import PFXTexture.Library.Handle
import PFXTexture.Proof.Menu

/-!
# One underline

A node holds on to the last border it added. The text node removes it before it adds another, so it
never has a border it cannot remove. The image node does not when it is selected, and every
selection that follows another directly leaves a border behind.
-/

namespace PFXTexture

open DStickyHeaderNodeProtocol (Call callAll)

/-! ### Borders of a view -/

namespace UIView

variable {view : UIView} {object : Nat} {color : UIColor} {width : Nat}

theorem underlines_addBottomBorderWithColor :
    (view.addBottomBorderWithColor object color width).1.underlines =
      view.underlines +
        if (view.addBottomBorderWithColor object color width).2.isVisible then 1 else 0 := by
  rw [underlines, underlines, addBottomBorderWithColor, List.countP_append, List.countP_singleton]

theorem removeLayer_addBottomBorderWithColor
    (hfresh : ∀ layer ∈ view.sublayers, layer.object ≠ object) :
    (view.addBottomBorderWithColor object color width).1.removeLayer
      (view.addBottomBorderWithColor object color width).2 = view := by
  have hkept : (view.sublayers.filter fun layer => layer.object ≠ object) = view.sublayers :=
    List.filter_eq_self.mpr fun layer hlayer => decide_eq_true (hfresh layer hlayer)
  rw [removeLayer, addBottomBorderWithColor, List.filter_append, hkept]
  simp

theorem removeLayer_removeLayer (view : UIView) (layer : CALayer) :
    (view.removeLayer layer).removeLayer layer = view.removeLayer layer := by
  rw [removeLayer, removeLayer, List.filter_filter]
  simp only [Bool.and_self]

end UIView

namespace DStickyHeaderNode

def isSelected : Call → Bool
  | .selected => true
  | .deselected => false

/-! ### The image node -/

namespace ImageNode

/-- The borders to be seen are the resources, and `underLine` is the handle. -/
def holder (node : ImageNode) : Handle.Holder where
  count := node.view.underlines
  lost := (node.view.removeLayer node.underLine).underlines

theorem holder_selected (node : ImageNode) : node.selected.holder = node.holder.acquire := by
  have hcount : node.selected.view.underlines = node.view.underlines + 1 :=
    UIView.underlines_addBottomBorderWithColor
  have hlost : node.selected.view.removeLayer node.selected.underLine = node.view :=
    UIView.removeLayer_addBottomBorderWithColor fun layer hlayer =>
      Nat.ne_of_lt (node.sublayers_lt layer hlayer)
  rw [holder, hcount, hlost]
  rfl

theorem holder_deselected (node : ImageNode) : node.deselected.holder = node.holder.release := by
  have hlost : node.deselected.view.removeLayer node.deselected.underLine =
      node.view.removeLayer node.underLine := node.view.removeLayer_removeLayer node.underLine
  rw [holder, hlost]
  rfl

/-- **The image node is a holder of borders.** -/
theorem holder_callAll (calls : List Call) :
    (callAll make calls).holder = Handle.run isSelected calls := by
  have hmake : make.holder = .empty := rfl
  rw [callAll, Handle.run, ← hmake]
  symm
  apply List.foldl_hom holder
  intro node call
  cases call with
  | selected => exact node.holder_selected.symm
  | deselected => exact node.holder_deselected.symm

theorem underlines_callAll_iff (calls : List Call) :
    (callAll make calls).view.underlines = Handle.expected isSelected calls ↔
      Handle.Alternating isSelected calls := by
  have hcount : (callAll make calls).view.underlines = (Handle.run isSelected calls).count :=
    congrArg Handle.Holder.count (holder_callAll calls)
  rw [hcount, Handle.count_run_eq_expected_iff]

end ImageNode

/-! ### The text node -/

namespace TextNode

variable {node : TextNode}

theorem Bordered.underlines_replaceUnderLine (hnode : node.Bordered) (color : UIColor)
    (width : Nat) : (node.replaceUnderLine color width).view.underlines =
      if (node.replaceUnderLine color width).underLine.isVisible then 1 else 0 := by
  have hnone : (node.view.removeLayer node.underLine).underlines = 0 := by
    rw [UIView.underlines, List.countP_eq_zero]
    intro layer hlayer hvisible
    obtain ⟨hmem, hother⟩ := List.mem_filter.mp hlayer
    exact of_decide_eq_true hother (hnode layer hmem hvisible)
  have hadd : (node.replaceUnderLine color width).view.underlines =
      (node.view.removeLayer node.underLine).underlines +
        if (node.replaceUnderLine color width).underLine.isVisible then 1 else 0 :=
    UIView.underlines_addBottomBorderWithColor
  rw [hadd, hnone, Nat.zero_add]

theorem underlines_callAll (text : String) (calls : List Call) :
    (callAll (make text) calls).Bordered ∧
      (callAll (make text) calls).view.underlines = Handle.expected isSelected calls := by
  induction calls using List.reverseRecOn with
  | nil => exact ⟨fun layer hlayer => absurd hlayer List.not_mem_nil, rfl⟩
  | append_singleton calls call ih =>
      obtain ⟨hbordered, -⟩ := ih
      rw [callAll, List.foldl_concat, Handle.expected_concat]
      cases call with
      | selected =>
          exact ⟨hbordered.replaceUnderLine .black 2,
            hbordered.underlines_replaceUnderLine .black 2⟩
      | deselected =>
          exact ⟨hbordered.replaceUnderLine .clear 0,
            hbordered.underlines_replaceUnderLine .clear 0⟩

end TextNode

/-! ### Both node kinds -/

/-- A node whose last call was `selected()` should show one underline, any other none. -/
def expectedUnderlines (calls : List Call) : Nat :=
  if calls.getLast? = some .selected then 1 else 0

theorem expected_eq (calls : List Call) :
    Handle.expected isSelected calls = expectedUnderlines calls := by
  rw [Handle.expected, expectedUnderlines]
  rcases calls.getLast? with _ | (_ | _) <;> rfl

theorem alternating_iff (calls : List Call) :
    Handle.Alternating isSelected calls ↔
      calls.IsChain fun call next => ¬(call = .selected ∧ next = .selected) := by
  have hselected : ∀ call, isSelected call = true ↔ call = .selected := by
    intro call
    cases call <;> decide
  rw [Handle.Alternating]
  simp only [hselected]

/-- **The text node draws one underline after `selected()` and none otherwise. The image node does
precisely if no `selected()` comes directly after another**, and only then the two are
interchangeable. -/
theorem underlines_iff (text : String) (calls : List Call) :
    (callAll (TextNode.make text) calls).view.underlines = expectedUnderlines calls ∧
      ((callAll ImageNode.make calls).view.underlines = expectedUnderlines calls ↔
        calls.IsChain fun call next => ¬(call = .selected ∧ next = .selected)) ∧
      ((callAll ImageNode.make calls).view.underlines =
          (callAll (TextNode.make text) calls).view.underlines ↔
        calls.IsChain fun call next => ¬(call = .selected ∧ next = .selected)) := by
  have htext : (callAll (TextNode.make text) calls).view.underlines =
      expectedUnderlines calls := by
    rw [(TextNode.underlines_callAll text calls).2, expected_eq]
  have himage : (callAll ImageNode.make calls).view.underlines = expectedUnderlines calls ↔
      calls.IsChain fun call next => ¬(call = .selected ∧ next = .selected) := by
    rw [← expected_eq, ImageNode.underlines_callAll_iff, alternating_iff]
  refine ⟨htext, himage, ?_⟩
  rw [htext]
  exact himage

/-- The second selection of an image node leaves a border behind for good. -/
theorem selected_twice :
    (callAll ImageNode.make [.selected, .selected]).view.underlines = 2 ∧
      (callAll ImageNode.make [.selected, .selected, .deselected]).view.underlines = 1 ∧
      expectedUnderlines [.selected, .selected] = 1 ∧
      expectedUnderlines [.selected, .selected, .deselected] = 0 ∧
      (callAll (TextNode.make "a") [.selected, .selected]).view.underlines = 1 :=
  ⟨rfl, rfl, rfl, rfl, rfl⟩

end DStickyHeaderNode

end PFXTexture
