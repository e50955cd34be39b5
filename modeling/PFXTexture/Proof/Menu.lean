import PFXTexture.DStickyHeaderNode
import Mathlib.Logic.Function.Basic

/-!
# What a menu is

A menu has texts, one selected index and an underline under some of the texts. The header refines
this machine: the layers of its nodes come to one bit for each row, as long as every visible layer
is the one its node holds on to.
-/

namespace PFXTexture

open DStickyHeaderNode (Event TextNode)

@[ext]
structure Menu where
  texts : List String
  selectedIndex : Nat
  underlined : Nat → Bool
  listening : Bool

namespace Menu

def display (menu : Menu) (row : Nat) : Menu :=
  { menu with
    underlined := Function.update menu.underlined row (decide (row = menu.selectedIndex)) }

def select (menu : Menu) (row : Nat) : Menu :=
  { menu with
    selectedIndex := row
    underlined := fun other => decide (other = row) }

def machine : Machine Menu Event Nat where
  step := fun menu event =>
    match event with
    | .numberOfItemsInSection => some (menu, [])
    | .nodeForItemAt row => if row < menu.texts.length then some (menu, []) else none
    | .willDisplayItemWith row =>
        if row < menu.texts.length ∧ menu.selectedIndex < menu.texts.length then
          some (menu.display row, [])
        else
          none
    | .didSelectItemAt row =>
        if menu.selectedIndex = row then
          some (menu, [])
        else if row < menu.texts.length then
          some (menu.select row, if menu.listening then [row] else [])
        else
          none

/-- What a call does to a menu, and what the listener is told. -/
inductive Step (menu : Menu) : Event → Menu → List Nat → Prop
  | counted : Step menu .numberOfItemsInSection menu []
  | asked (row : Nat) (hrow : row < menu.texts.length) : Step menu (.nodeForItemAt row) menu []
  | displayed (row : Nat) (hrow : row < menu.texts.length)
      (hselected : menu.selectedIndex < menu.texts.length) :
      Step menu (.willDisplayItemWith row) (menu.display row) []
  | passed (row : Nat) (hsame : menu.selectedIndex = row) :
      Step menu (.didSelectItemAt row) menu []
  | selected (row : Nat) (hother : menu.selectedIndex ≠ row) (hrow : row < menu.texts.length) :
      Step menu (.didSelectItemAt row) (menu.select row) (if menu.listening then [row] else [])

theorem step_eq_some_iff {menu next : Menu} {event : Event} {told : List Nat} :
    machine.step menu event = some (next, told) ↔ Step menu event next told := by
  constructor
  · intro hstep
    cases event with
    | numberOfItemsInSection =>
        cases hstep
        exact .counted
    | nodeForItemAt row =>
        obtain ⟨hrow, hpair⟩ := Option.ite_none_right_eq_some.mp hstep
        cases hpair
        exact .asked row hrow
    | willDisplayItemWith row =>
        obtain ⟨hvalid, hpair⟩ := Option.ite_none_right_eq_some.mp hstep
        cases hpair
        exact .displayed row hvalid.1 hvalid.2
    | didSelectItemAt row =>
        by_cases hsame : menu.selectedIndex = row
        · simp only [machine, hsame, if_true] at hstep
          cases hstep
          exact .passed row hsame
        · simp only [machine, hsame, if_false] at hstep
          obtain ⟨hrow, hpair⟩ := Option.ite_none_right_eq_some.mp hstep
          cases hpair
          exact .selected row hsame hrow
  · intro hstep
    cases hstep with
    | counted => rfl
    | asked row hrow => exact if_pos hrow
    | displayed row hrow hselected => exact if_pos ⟨hrow, hselected⟩
    | passed row hsame => exact if_pos hsame
    | selected row hother hrow => exact (if_neg hother).trans (if_pos hrow)

end Menu

namespace DStickyHeaderNode

/-! ### One node -/

namespace TextNode

/-- The node can reach every layer that shows. -/
def Bordered (node : TextNode) : Prop :=
  ∀ layer ∈ node.view.sublayers, layer.isVisible = true → layer.object = node.underLine.object

variable {node : TextNode}

theorem bordered_of_not_underlined (hnode : node.isUnderlined = false) : node.Bordered := by
  intro layer hlayer hvisible
  rw [isUnderlined, List.any_eq_false] at hnode
  exact absurd hvisible (hnode layer hlayer)

theorem text_replaceUnderLine (node : TextNode) (color : UIColor) (width : Nat) :
    (node.replaceUnderLine color width).text = node.text := rfl

theorem mem_sublayers_replaceUnderLine {color : UIColor} {width : Nat} {layer : CALayer}
    (hlayer : layer ∈ (node.replaceUnderLine color width).view.sublayers) :
    layer ∈ node.view.sublayers ∧ layer.object ≠ node.underLine.object ∨
      layer = (node.replaceUnderLine color width).underLine := by
  rcases List.mem_append.mp hlayer with hold | hnew
  · left
    simpa [UIView.removeLayer] using hold
  · exact Or.inr (List.mem_singleton.mp hnew)

/-- Whatever showed before is gone, only the new border can show. -/
theorem Bordered.eq_underLine (hnode : node.Bordered) {color : UIColor} {width : Nat}
    {layer : CALayer} (hlayer : layer ∈ (node.replaceUnderLine color width).view.sublayers)
    (hvisible : layer.isVisible = true) :
    layer = (node.replaceUnderLine color width).underLine := by
  rcases mem_sublayers_replaceUnderLine hlayer with ⟨hold, hother⟩ | hnew
  · exact absurd (hnode layer hold hvisible) hother
  · exact hnew

theorem Bordered.replaceUnderLine (hnode : node.Bordered) (color : UIColor) (width : Nat) :
    (node.replaceUnderLine color width).Bordered := by
  intro layer hlayer hvisible
  rw [hnode.eq_underLine hlayer hvisible]

theorem Bordered.isUnderlined_replaceUnderLine (hnode : node.Bordered) (color : UIColor)
    (width : Nat) : (node.replaceUnderLine color width).isUnderlined =
      (node.replaceUnderLine color width).underLine.isVisible := by
  rw [Bool.eq_iff_iff, isUnderlined, List.any_eq_true]
  constructor
  · rintro ⟨layer, hlayer, hvisible⟩
    rwa [← hnode.eq_underLine hlayer hvisible]
  · intro hvisible
    exact ⟨_, List.mem_append_right _ List.mem_cons_self, hvisible⟩

theorem Bordered.isUnderlined_selected (hnode : node.Bordered) :
    node.selected.isUnderlined = true := by
  rw [selected, hnode.isUnderlined_replaceUnderLine]
  rfl

theorem Bordered.isUnderlined_deselected (hnode : node.Bordered) :
    node.deselected.isUnderlined = false := by
  rw [deselected, hnode.isUnderlined_replaceUnderLine]
  rfl

end TextNode

/-! ### The header as a menu -/

def underlinedAt (nodes : List TextNode) (row : Nat) : Bool :=
  (nodes[row]?.map TextNode.isUnderlined).getD false

def menu (header : DStickyHeaderNode) : Menu where
  texts := header.itemCellNodes.map TextNode.text
  selectedIndex := header.content.selectedIndex
  underlined := underlinedAt header.itemCellNodes
  listening := header.selectedMenu

def Bordered (header : DStickyHeaderNode) : Prop :=
  ∀ node ∈ header.itemCellNodes, node.Bordered

variable {header next : DStickyHeaderNode}

theorem menu_use (header : DStickyHeaderNode) : header.useItemCellNodes.menu = header.menu := rfl

theorem selectedIndex_menu (header : DStickyHeaderNode) :
    header.menu.selectedIndex = header.content.selectedIndex := rfl

theorem length_texts (header : DStickyHeaderNode) :
    header.menu.texts.length = header.itemCellNodes.length := List.length_map _

theorem bordered_make (content : Content) (selectedMenu : Bool) :
    (make content selectedMenu).Bordered := by
  intro node hnode
  obtain ⟨text, -, rfl⟩ := List.mem_map.mp hnode
  intro layer hlayer
  cases hlayer

theorem map_text_modify (nodes : List TextNode) (row : Nat) {change : TextNode → TextNode}
    (hchange : ∀ node, (change node).text = node.text) :
    (nodes.modify row change).map TextNode.text = nodes.map TextNode.text := by
  apply List.ext_getElem?
  intro other
  rw [List.getElem?_map, List.getElem?_map, List.getElem?_modify]
  cases nodes[other]? with
  | none => rfl
  | some node =>
      by_cases hrow : row = other <;> simp [hrow, hchange]

theorem forall_mem_modify {property : TextNode → Prop} {nodes : List TextNode} (row : Nat)
    {change : TextNode → TextNode} (hnodes : ∀ node ∈ nodes, property node)
    (hchange : ∀ node ∈ nodes, property (change node)) :
    ∀ node ∈ nodes.modify row change, property node := by
  intro node hnode
  obtain ⟨other, hother⟩ := List.mem_iff_getElem?.mp hnode
  rw [List.getElem?_modify] at hother
  obtain ⟨old, hold, rfl⟩ := Option.map_eq_some_iff.mp hother
  have hmem := List.mem_of_getElem? hold
  by_cases hrow : row = other
  · simpa [hrow] using hchange old hmem
  · simpa [hrow] using hnodes old hmem

/-- What a change of one node does to the underlines. -/
theorem underlinedAt_modify {nodes : List TextNode} {row : Nat} {change : TextNode → TextNode}
    {underlined : Bool} (hrow : row < nodes.length)
    (hchange : ∀ node ∈ nodes, (change node).isUnderlined = underlined) :
    underlinedAt (nodes.modify row change) =
      Function.update (underlinedAt nodes) row underlined := by
  funext other
  rw [underlinedAt, List.getElem?_modify]
  by_cases hother : other = row
  · rw [hother, Function.update_self, List.getElem?_eq_getElem hrow]
    simp [hchange _ (List.getElem_mem hrow)]
  · rw [Function.update_of_ne hother, underlinedAt]
    simp [Ne.symm hother]

theorem underlinedAt_of_forall {nodes : List TextNode}
    (hnodes : ∀ node ∈ nodes, node.isUnderlined = false) : underlinedAt nodes = fun _ => false := by
  funext row
  rw [underlinedAt]
  cases hnode : nodes[row]? with
  | none => rfl
  | some node => exact hnodes node (List.mem_of_getElem? hnode)

/-- A node shown is cleared, and underlined if it is the selected one. -/
def displayed (header : DStickyHeaderNode) (row : Nat) (node : TextNode) : TextNode :=
  if row = header.content.selectedIndex then node.deselected.selected else node.deselected

theorem willDisplayItemWith_eq (header : DStickyHeaderNode) (row : Nat) :
    header.willDisplayItemWith row =
      if row < header.itemCellNodes.length ∧
          header.content.selectedIndex < header.itemCellNodes.length then
        some { header with
          lazyItemCellNodes := some (header.itemCellNodes.modify row (header.displayed row)) }
      else
        none := by
  unfold willDisplayItemWith displayed
  by_cases hrow : row < header.itemCellNodes.length
  · by_cases hselected : header.content.selectedIndex < header.itemCellNodes.length
    · by_cases heq : row = header.content.selectedIndex
      · simp only [hselected, List.length_modify, if_true, heq, and_self, List.modify_modify_eq]
        rfl
      · simp [hrow, hselected, heq]
    · simp [hrow, hselected]
  · simp [hrow]

theorem Bordered.displayed (hheader : header.Bordered) {row : Nat} :
    ∀ node ∈ header.itemCellNodes, (header.displayed row node).Bordered ∧
      (header.displayed row node).isUnderlined =
        decide (row = header.content.selectedIndex) := by
  intro node hnode
  have hcleared := (hheader node hnode).replaceUnderLine .clear 0
  unfold DStickyHeaderNode.displayed
  by_cases hrow : row = header.content.selectedIndex
  · rw [if_pos hrow, decide_eq_true hrow]
    exact ⟨hcleared.replaceUnderLine .black 2, hcleared.isUnderlined_selected⟩
  · rw [if_neg hrow, decide_eq_false hrow]
    exact ⟨hcleared, (hheader node hnode).isUnderlined_deselected⟩

theorem text_displayed (row : Nat) (node : TextNode) :
    (header.displayed row node).text = node.text := by
  unfold displayed
  split <;> rfl

theorem menu_display (hheader : header.Bordered) {row : Nat}
    (hrow : row < header.itemCellNodes.length) :
    { header with
        lazyItemCellNodes := some (header.itemCellNodes.modify row (header.displayed row)) }.menu =
      header.menu.display row := by
  ext1
  · exact map_text_modify header.itemCellNodes row (text_displayed row)
  · rfl
  · exact underlinedAt_modify hrow fun node hnode => (hheader.displayed node hnode).2
  · rfl

/-- The nodes after a tap on another row. -/
def tapped (header : DStickyHeaderNode) (row : Nat) : List TextNode :=
  (header.itemCellNodes.map TextNode.deselected).modify row TextNode.selected

theorem Bordered.map_deselected (hheader : header.Bordered) :
    ∀ node ∈ header.itemCellNodes.map TextNode.deselected,
      node.Bordered ∧ node.isUnderlined = false := by
  intro node hnode
  obtain ⟨old, hold, rfl⟩ := List.mem_map.mp hnode
  exact ⟨(hheader old hold).replaceUnderLine _ _, (hheader old hold).isUnderlined_deselected⟩

theorem menu_select (hheader : header.Bordered) {row : Nat}
    (hrow : row < header.itemCellNodes.length) :
    { header with
        content := { header.content with selectedIndex := row }
        lazyItemCellNodes := some (header.tapped row) }.menu = header.menu.select row := by
  have hcleared := hheader.map_deselected
  ext1
  · calc (header.tapped row).map TextNode.text
        = (header.itemCellNodes.map TextNode.deselected).map TextNode.text :=
          map_text_modify _ row fun node => node.text_replaceUnderLine .black 2
      _ = header.itemCellNodes.map TextNode.text := by
          rw [List.map_map]
          rfl
  · rfl
  · have hlength : row < (header.itemCellNodes.map TextNode.deselected).length := by
      rwa [List.length_map]
    calc underlinedAt (header.tapped row)
        = Function.update (underlinedAt (header.itemCellNodes.map TextNode.deselected)) row true :=
          underlinedAt_modify hlength fun node hnode =>
            (hcleared node hnode).1.isUnderlined_selected
      _ = fun other => decide (other = row) := by
          rw [underlinedAt_of_forall fun node hnode => (hcleared node hnode).2]
          funext other
          by_cases hother : other = row <;> simp [hother]
  · rfl

theorem didSelectItemAt_eq (header : DStickyHeaderNode) (row : Nat) :
    header.didSelectItemAt row =
      if header.content.selectedIndex = row then
        some (header, [])
      else if row < header.itemCellNodes.length then
        some
          ({ header with
              content := { header.content with selectedIndex := row }
              lazyItemCellNodes := some (header.tapped row) },
            if header.selectedMenu then [row] else [])
      else
        none := by
  unfold didSelectItemAt tapped
  simp only [List.length_map]

/-! ### Refinement -/

/-- The header clears a node before it underlines it, so these are the calls a property of every
node has to survive. -/
theorem preserves_forall_nodes {Kept Cleared : TextNode → Prop}
    (hdeselected : ∀ node, Kept node → Cleared node.deselected)
    (hcleared : ∀ node, Cleared node → Kept node)
    (hselected : ∀ node, Cleared node → Kept node.selected) :
    machine.Preserves fun header => ∀ node ∈ header.itemCellNodes, Kept node := by
  intro header event next emitted hheader hstep
  cases event with
  | numberOfItemsInSection =>
      cases hstep
      exact hheader
  | nodeForItemAt row =>
      obtain ⟨_, hnode, hpair⟩ := Option.map_eq_some_iff.mp hstep
      cases hpair
      obtain ⟨_, -, hnext⟩ := Option.map_eq_some_iff.mp hnode
      cases hnext
      exact hheader
  | willDisplayItemWith row =>
      obtain ⟨_, hdisplay, hpair⟩ := Option.map_eq_some_iff.mp hstep
      cases hpair
      rw [willDisplayItemWith_eq] at hdisplay
      obtain ⟨-, hnext⟩ := Option.ite_none_right_eq_some.mp hdisplay
      cases hnext
      apply forall_mem_modify row hheader
      intro node hnode
      have hnode' := hdeselected node (hheader node hnode)
      unfold displayed
      split
      · exact hselected _ hnode'
      · exact hcleared _ hnode'
  | didSelectItemAt row =>
      have htapped : header.didSelectItemAt row = some (next, emitted) := hstep
      rw [didSelectItemAt_eq] at htapped
      split at htapped
      · cases htapped
        exact hheader
      · obtain ⟨-, hnext⟩ := Option.ite_none_right_eq_some.mp htapped
        cases hnext
        have hnodes : ∀ node ∈ header.itemCellNodes.map TextNode.deselected, Cleared node := by
          intro node hnode
          obtain ⟨old, hold, rfl⟩ := List.mem_map.mp hnode
          exact hdeselected old (hheader old hold)
        exact forall_mem_modify row (fun node hnode => hcleared node (hnodes node hnode))
          fun node hnode => hselected node (hnodes node hnode)

theorem preserves_bordered : machine.Preserves Bordered :=
  preserves_forall_nodes (fun _ hnode => hnode.replaceUnderLine .clear 0) (fun _ hnode => hnode)
    fun _ hnode => hnode.replaceUnderLine .black 2

/-- **The header refines the menu**, call by call. -/
theorem menu_step (header : DStickyHeaderNode) (event : Event) (hheader : header.Bordered) :
    (machine.step header event).map (Prod.map menu id) =
      Menu.machine.step header.menu event := by
  cases event with
  | numberOfItemsInSection => rfl
  | nodeForItemAt row =>
      simp only [machine, Menu.machine, nodeForItemAt, length_texts]
      by_cases hrow : row < header.itemCellNodes.length
      · simp [hrow, menu_use]
      · simp [hrow]
  | willDisplayItemWith row =>
      simp only [machine, Menu.machine, willDisplayItemWith_eq, length_texts, selectedIndex_menu]
      split
      · next hvalid =>
          simp only [Option.map_some, Prod.map_apply, menu_display hheader hvalid.1, id_eq]
      · rfl
  | didSelectItemAt row =>
      simp only [machine, Menu.machine, didSelectItemAt_eq, length_texts, selectedIndex_menu]
      by_cases hselected : header.content.selectedIndex = row
      · rw [if_pos hselected, if_pos hselected]
        rfl
      · rw [if_neg hselected, if_neg hselected]
        by_cases hrow : row < header.itemCellNodes.length
        · rw [if_pos hrow, if_pos hrow]
          simp only [Option.map_some, Prod.map_apply, menu_select hheader hrow, id_eq]
          rfl
        · rw [if_neg hrow, if_neg hrow]
          rfl

/-- Runs of the header are runs of its menu. -/
theorem menu_run (hheader : header.Bordered) (events : List Event) :
    (machine.run header events).map (Prod.map menu id) = Menu.machine.run header.menu events :=
  preserves_bordered.map_run menu_step hheader

end DStickyHeaderNode

end PFXTexture
