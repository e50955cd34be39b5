import PFXTexture.UIView
import PFXTexture.Library.Machine

/-!
# The sticky header

`DStickyHeaderNode`, its `TextNode` and its `ImageNode`. The item nodes are built lazily, from the
content the header has when they are first asked for. A node is identified by its place among them.
`none` is an index out of range, which traps.
-/

namespace PFXTexture

structure DStickyHeaderNode.Content where
  items : List String := []
  selectedIndex : Nat := 0
  deriving DecidableEq

/-- `allocated` counts the layers made for this node; the first is the initial `underLine`. -/
structure DStickyHeaderNode.TextNode where
  text : String
  view : UIView
  underLine : CALayer
  allocated : Nat
  deriving DecidableEq

/-- The layers of `view` are among those made for this node. -/
structure DStickyHeaderNode.ImageNode where
  view : UIView
  underLine : CALayer
  allocated : Nat
  sublayers_lt : ∀ layer ∈ view.sublayers, layer.object < allocated

/-- `selectedMenu` says whether a listener is set. -/
structure DStickyHeaderNode where
  content : DStickyHeaderNode.Content
  lazyItemCellNodes : Option (List DStickyHeaderNode.TextNode)
  selectedMenu : Bool
  deriving DecidableEq

namespace DStickyHeaderNode

/-! ### Item nodes -/

namespace TextNode

def make (text : String) : TextNode where
  text := text
  view := ⟨[]⟩
  underLine := { object := 0 }
  allocated := 1

/-- `underLine.removeFromSuperlayer()` and then `addBottomBorderWithColor`. -/
def replaceUnderLine (node : TextNode) (color : UIColor) (width : Nat) : TextNode :=
  let view := node.view.removeLayer node.underLine
  let (view, underLine) := view.addBottomBorderWithColor node.allocated color width
  { node with view, underLine, allocated := node.allocated + 1 }

def selected (node : TextNode) : TextNode :=
  node.replaceUnderLine .black 2

def deselected (node : TextNode) : TextNode :=
  node.replaceUnderLine .clear 0

/-- The view of the node shows a border. -/
def isUnderlined (node : TextNode) : Bool :=
  node.view.sublayers.any CALayer.isVisible

end TextNode

namespace ImageNode

def make : ImageNode where
  view := ⟨[]⟩
  underLine := { object := 0 }
  allocated := 1
  sublayers_lt := fun _ hlayer => absurd hlayer List.not_mem_nil

/-- Unlike the text node, it leaves the layer of its last `underLine` in the view. -/
def selected (node : ImageNode) : ImageNode where
  view := (node.view.addBottomBorderWithColor node.allocated .black 2).1
  underLine := (node.view.addBottomBorderWithColor node.allocated .black 2).2
  allocated := node.allocated + 1
  sublayers_lt := by
    intro layer hlayer
    rcases List.mem_append.mp hlayer with hold | hnew
    · exact Nat.lt_succ_of_lt (node.sublayers_lt layer hold)
    · rw [List.mem_singleton.mp hnew]
      exact Nat.lt_succ_self node.allocated

def deselected (node : ImageNode) : ImageNode where
  view := node.view.removeLayer node.underLine
  underLine := node.underLine
  allocated := node.allocated
  sublayers_lt := fun layer hlayer => node.sublayers_lt layer (List.mem_of_mem_filter hlayer)

end ImageNode

/-- Empty items get no node. -/
def buildItemCellNodes (content : Content) : List TextNode :=
  (content.items.filter fun item => 0 < item.length).map TextNode.make

def itemCellNodes (header : DStickyHeaderNode) : List TextNode :=
  header.lazyItemCellNodes.getD (buildItemCellNodes header.content)

/-! ### Calls -/

/-- `init(with:)`. -/
def make (content : Content) (selectedMenu : Bool) : DStickyHeaderNode where
  content := content
  lazyItemCellNodes := none
  selectedMenu := selectedMenu

/-- The item nodes stay as they are. -/
def configureCell (header : DStickyHeaderNode) (content : Content) : DStickyHeaderNode :=
  { header with content }

/-- The first use of the item nodes builds them. -/
def useItemCellNodes (header : DStickyHeaderNode) : DStickyHeaderNode :=
  { header with lazyItemCellNodes := some header.itemCellNodes }

def numberOfItemsInSection (header : DStickyHeaderNode) : DStickyHeaderNode × Nat :=
  (header.useItemCellNodes, header.itemCellNodes.length)

def nodeForItemAt (header : DStickyHeaderNode) (row : Nat) :
    Option (DStickyHeaderNode × TextNode) :=
  header.itemCellNodes[row]?.map fun node => (header.useItemCellNodes, node)

/-- The node shown is the item node at `row`. -/
def willDisplayItemWith (header : DStickyHeaderNode) (row : Nat) : Option DStickyHeaderNode :=
  let nodes := header.itemCellNodes
  if row < nodes.length then
    let nodes := nodes.modify row TextNode.deselected
    if header.content.selectedIndex < nodes.length then
      if row = header.content.selectedIndex then
        some { header with lazyItemCellNodes := some (nodes.modify row TextNode.selected) }
      else
        some { header with lazyItemCellNodes := some nodes }
    else
      none
  else
    none

/-- The indices handed to `selectedMenu` are the second component. -/
def didSelectItemAt (header : DStickyHeaderNode) (row : Nat) :
    Option (DStickyHeaderNode × List Nat) :=
  if header.content.selectedIndex = row then
    some (header, [])
  else
    let nodes := header.itemCellNodes.map TextNode.deselected
    let content := { header.content with selectedIndex := row }
    if row < nodes.length then
      some
        ({ header with content, lazyItemCellNodes := some (nodes.modify row TextNode.selected) },
          if header.selectedMenu then [row] else [])
    else
      none

/-! ### The calls of the collection node -/

inductive Event where
  | numberOfItemsInSection
  | nodeForItemAt (row : Nat)
  | willDisplayItemWith (row : Nat)
  | didSelectItemAt (row : Nat)
  deriving DecidableEq

def machine : Machine DStickyHeaderNode Event Nat where
  step := fun header event =>
    match event with
    | .numberOfItemsInSection => some (header.numberOfItemsInSection.1, [])
    | .nodeForItemAt row => (header.nodeForItemAt row).map fun (next, _) => (next, [])
    | .willDisplayItemWith row => (header.willDisplayItemWith row).map fun next => (next, [])
    | .didSelectItemAt row => header.didSelectItemAt row

end DStickyHeaderNode

/-! ### The protocol of the item nodes -/

class DStickyHeaderNodeProtocol (Node : Type) where
  selected : Node → Node
  deselected : Node → Node

instance : DStickyHeaderNodeProtocol DStickyHeaderNode.ImageNode where
  selected := DStickyHeaderNode.ImageNode.selected
  deselected := DStickyHeaderNode.ImageNode.deselected

instance : DStickyHeaderNodeProtocol DStickyHeaderNode.TextNode where
  selected := DStickyHeaderNode.TextNode.selected
  deselected := DStickyHeaderNode.TextNode.deselected

namespace DStickyHeaderNodeProtocol

inductive Call where
  | selected
  | deselected
  deriving DecidableEq

variable {Node : Type} [DStickyHeaderNodeProtocol Node]

def call (node : Node) : Call → Node
  | .selected => selected node
  | .deselected => deselected node

def callAll (node : Node) (calls : List Call) : Node :=
  calls.foldl call node

end DStickyHeaderNodeProtocol

end PFXTexture
