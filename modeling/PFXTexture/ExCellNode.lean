import PFXTexture.ASDisplayNode
import PFXTexture.ExViewController

/-!
# The information cell

`ExCellNode`: every tap on its title adds a text node and an image node. The layout walks over the
indices of the image nodes and reads both arrays, so an image node without a text node would stop
the program, which is `none` here.
-/

namespace PFXTexture

structure ExCellNode where
  data : ExData
  isUserInteractionEnabled : Bool := true
  descNodes : List ASTextNode := []
  imageNodes : List ASNetworkImageNode := []
  deriving DecidableEq

namespace ExCellNode

inductive Element where
  | text (node : ASTextNode)
  | image (node : ASNetworkImageNode)
  deriving DecidableEq

def titleNode (node : ExCellNode) : ASTextNode :=
  { attributedText := some node.data.desc }

/-- The handler of `titleNode.rx.tap`; the text is the one `String.random(length: 32)` answers. -/
def titleTap (node : ExCellNode) (random : String) : ExCellNode :=
  { node with
    descNodes := node.descNodes ++ [{ attributedText := some random }]
    imageNodes := node.imageNodes ++ [{}] }

def contentLayoutSpec (node : ExCellNode) : Option (List Element) :=
  (List.range node.imageNodes.length).foldlM
    (fun elements i => do
      let textNode ← node.descNodes[i]?
      let imageNode ← node.imageNodes[i]?
      some (elements ++ [.text textNode, .image imageNode])) []

end ExCellNode

end PFXTexture
