import PFXTexture.RepositoryViewController

/-!
# The example scene

`ExViewController`: two sections over two arrays. Rows are read by `firstItems[row]` and
`secondItems[row]` with no guard, so a row out of range stops the program, which is `none` here.
-/

namespace PFXTexture

structure ExData where
  title : String := ""
  desc : String := ""
  imagePath : String := ""
  deriving DecidableEq

structure DCellData where
  deriving DecidableEq

structure IndexPath where
  section_ : Nat
  row : Nat
  deriving DecidableEq

structure ExViewController where
  firstItems : List ExData
  secondItems : List DCellData

namespace ExViewController

inductive CellNode where
  | exCellNode (data : ExData)
  | dCellNode (data : DCellData)
  deriving DecidableEq

def make : ExViewController where
  firstItems :=
    [{ title := "1111", desc := "1212" },
     { title := "2222", desc := "22333" },
     { title := "3333", desc := "3323" }]
  secondItems := [{}]

/-! ### Data source -/

def numberOfSections : Nat := 2

def numberOfRowsInSection (controller : ExViewController) (section_ : Nat) : Nat :=
  if section_ = 0 then controller.firstItems.length else controller.secondItems.length

def nodeForRowAt (controller : ExViewController) (indexPath : IndexPath) : Option CellNode :=
  if indexPath.section_ = 0 then
    controller.firstItems[indexPath.row]?.map .exCellNode
  else
    controller.secondItems[indexPath.row]?.map .dCellNode

/-- The block holds the controller and the index path: it indexes the arrays when it is run. -/
def nodeBlockForRowAt (indexPath : IndexPath) : ExViewController → Option CellNode :=
  fun controller =>
    if indexPath.section_ = 0 then
      controller.firstItems[indexPath.row]?.map .exCellNode
    else
      controller.secondItems[indexPath.row]?.map .dCellNode

/-! ### Edits -/

/-- `none` where `remove(at:)` traps. -/
def commit (controller : ExViewController) (editingStyle : UITableViewCell.EditingStyle)
    (indexPath : IndexPath) : Option ExViewController :=
  if editingStyle = .delete then
    if indexPath.section_ = 0 then
      (SwiftArray.remove controller.firstItems indexPath.row).map fun firstItems =>
        { controller with firstItems }
    else
      (SwiftArray.remove controller.secondItems indexPath.row).map fun secondItems =>
        { controller with secondItems }
  else
    some controller

end ExViewController

end PFXTexture
