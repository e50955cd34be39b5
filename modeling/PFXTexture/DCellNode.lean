import PFXTexture.DContentsNode
import PFXTexture.Library.Family

/-!
# The cell of the sections

`DCellNode` stacks five sections, each with a view model of its own, and their events come in any
order.
-/

namespace PFXTexture.DCellNode

/-- The lazy `nodes`. -/
def nodes : List DContentsNode :=
  (List.range 5).map fun i : Nat => DContentsNode.make (.make { index := i })

def machine :
    Machine (List DContentsNode) (Nat × DContentsNode.Event) (Nat × DContentsViewModel.Output) :=
  DContentsNode.machine.family

/-- The cells of the stack, from the first section to the last. -/
def itemCellNodes (nodes : List DContentsNode) : List DContentsNode.Cell :=
  nodes.flatMap DContentsNode.itemCellNodes

end PFXTexture.DCellNode
