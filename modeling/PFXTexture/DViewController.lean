import PFXTexture.DCellNode
import PFXTexture.DStickyHeaderNode
import PFXTexture.ExCellNode

/-!
# The dynamic scene

`DynamicNode`: a collection of two sections over one array of cells. The array and the sticky header
are built together, when the array is first asked for. The collection node remembers the counts it
read at its last `reloadData`.
-/

namespace PFXTexture

inductive DynamicNode.Cell where
  | exCellNode (node : ExCellNode)
  | dCellNode (nodes : List DContentsNode)

inductive DynamicNode.SupplementaryNode where
  | plain
  | stickyHeaderNode (header : DStickyHeaderNode)

structure DynamicNode where
  stickyHeaderNode : Option DStickyHeaderNode
  lazySections : Option (List (List DynamicNode.Cell))
  collectionNode : Option (List Nat)
  reloads : Nat

namespace DynamicNode

inductive Event where
  | didLoad
  | nodeForItemAt (indexPath : IndexPath)
  | titleTap (indexPath : IndexPath) (random : String)
  | contents (indexPath : IndexPath) (event : Nat × DContentsNode.Event)
  | header (event : DStickyHeaderNode.Event)

inductive Output where
  | contents (output : Nat × DContentsViewModel.Output)
  | selectedMenu (type : Nat)

def make : DynamicNode where
  stickyHeaderNode := none
  lazySections := none
  collectionNode := none
  reloads := 0

/-! ### Sections -/

def dynamicCellNode : ExCellNode where
  data := { title := "인포메이션 셀입니다.", desc := "다이나믹 셀\n클릭 해 보세요! 🤩" }

def stickyCellNode : ExCellNode where
  data := { title := "인포메이션 셀입니다.", desc := "스티키 메뉴 영역이에용! 🥳" }
  isUserInteractionEnabled := false

def buildSections : List (List Cell) :=
  [[.exCellNode dynamicCellNode], [.exCellNode stickyCellNode, .dCellNode DCellNode.nodes]]

def buildStickyHeaderNode : DStickyHeaderNode :=
  .make
    { items := ["AA_A", "B_BB_B_BB", "C__C_C", "DD_D_D_D___DD", "E____E", "FF_F_F_F", "G_G_G_G"]
      selectedIndex := 0 }
    true

def sections (node : DynamicNode) : List (List Cell) :=
  node.lazySections.getD buildSections

/-- The first use of the sections builds them, and the header with them. -/
def useSections (node : DynamicNode) : DynamicNode :=
  match node.lazySections with
  | some _ => node
  | none =>
      { node with
        lazySections := some buildSections
        stickyHeaderNode := some buildStickyHeaderNode }

/-! ### The data source -/

def numberOfSections (node : DynamicNode) : Nat :=
  node.sections.length

def numberOfItemsInSection (node : DynamicNode) (section_ : Nat) : Option Nat :=
  node.sections[section_]?.map List.length

def nodeForItemAt (node : DynamicNode) (indexPath : IndexPath) : Option Cell :=
  node.sections[indexPath.section_]?.bind fun cells => cells[indexPath.row]?

def nodeForSupplementaryElementOfKind (node : DynamicNode) (section_ : Nat) : SupplementaryNode :=
  if section_ = 0 then
    .plain
  else
    match node.stickyHeaderNode with
    | some header => .stickyHeaderNode header
    | none => .plain

/-- The collection reads the number of sections and the number of items of each. -/
def reloadData (node : DynamicNode) : DynamicNode :=
  { node.useSections with
    collectionNode := some (node.sections.map List.length)
    reloads := node.reloads + 1 }

/-! ### Handlers -/

def didLoad (node : DynamicNode) : DynamicNode :=
  node.reloadData

/-- The handler the header calls. -/
def selectedMenu (node : DynamicNode) : DynamicNode :=
  node.reloadData

/-- A cell that has been built. -/
def cellAt (node : DynamicNode) (indexPath : IndexPath) : Option Cell :=
  node.lazySections.bind fun sections =>
    sections[indexPath.section_]?.bind fun cells => cells[indexPath.row]?

def setCell (node : DynamicNode) (indexPath : IndexPath) (cell : Cell) : DynamicNode :=
  { node with
    lazySections := node.lazySections.map fun sections =>
      sections.modify indexPath.section_ fun cells => cells.set indexPath.row cell }

/-- A cell without user interaction gets no tap. -/
def titleTap (node : DynamicNode) (indexPath : IndexPath) (random : String) :
    Option DynamicNode :=
  match node.cellAt indexPath with
  | some (.exCellNode cell) =>
      if cell.isUserInteractionEnabled then
        some (node.setCell indexPath (.exCellNode (cell.titleTap random)))
      else
        none
  | _ => none

def contents (node : DynamicNode) (indexPath : IndexPath) (event : Nat × DContentsNode.Event) :
    Option (DynamicNode × List Output) :=
  match node.cellAt indexPath with
  | some (.dCellNode nodes) =>
      (DCellNode.machine.step nodes event).map fun (nodes, emitted) =>
        (node.setCell indexPath (.dCellNode nodes), emitted.map Output.contents)
  | _ => none

def header (node : DynamicNode) (event : DStickyHeaderNode.Event) :
    Option (DynamicNode × List Output) :=
  node.stickyHeaderNode.bind fun header =>
    (DStickyHeaderNode.machine.step header event).map fun (header, types) =>
      (types.foldl (fun node _ => node.selectedMenu) { node with stickyHeaderNode := some header },
        types.map Output.selectedMenu)

def machine : Machine DynamicNode Event Output where
  step := fun node event =>
    match event with
    | .didLoad => some (node.didLoad, [])
    | .nodeForItemAt indexPath =>
        (node.nodeForItemAt indexPath).map fun _ => (node.useSections, [])
    | .titleTap indexPath random => (node.titleTap indexPath random).map fun next => (next, [])
    | .contents indexPath event => node.contents indexPath event
    | .header event => node.header event

end DynamicNode

end PFXTexture
