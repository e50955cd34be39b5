import PFXTexture.ASDisplayNode
import PFXTexture.CellBindings
import PFXTexture.StringExtensions

/-!
# The cell nodes of a row

`RepositoryListCellNode` and `RepositoryBannerCellNode`. A node subscribes to the outputs of its
view model, which replay nothing, and then sends `willDisplay`. A row that stands in the table
several times is one view model, so its nodes hear each other's `willDisplay`.
-/

namespace PFXTexture

/-- `attributedText?.length ?? 0` -/
def ASTextNode.length (node : ASTextNode) : Nat :=
  (node.attributedText.map fun text => utf16Length text.toList).getD 0

structure RepositoryListCellNode where
  id : Int
  userProfileNode : ASNetworkImageNode := {}
  usernameNode : ASTextNode := { maximumNumberOfLines := 1 }
  descriptionNode : ASTextNode := { maximumNumberOfLines := 1 }
  statusNode : ASTextNode := {}
  deriving DecidableEq

structure RepositoryBannerCellNode where
  partnerModels : List PartnerModel := []
  titleNode : ASTextNode := { maximumNumberOfLines := 1 }
  descriptionNode : ASTextNode := { maximumNumberOfLines := 1 }
  deriving DecidableEq

namespace RepositoryListCellNode

/-- The subscriptions of `init(viewModel:)`. -/
def receive (node : RepositoryListCellNode) : CellBindings.Output → RepositoryListCellNode
  | .profileUrl url => { node with userProfileNode := { url := some url } }
  | .desc desc =>
      { node with descriptionNode := { node.descriptionNode with attributedText := some desc } }
  | .username name =>
      { node with usernameNode := { node.usernameNode with attributedText := some name } }
  | .title _ | .partnerModels _ | .contents _ => node

/-- The description is the one text node with this delegate. -/
def textNodeTappedTruncationToken (node : RepositoryListCellNode) : RepositoryListCellNode :=
  { node with descriptionNode := { node.descriptionNode with maximumNumberOfLines := 0 } }

def contentLayoutSpec (node : RepositoryListCellNode) : List ASTextNode :=
  [node.usernameNode, node.descriptionNode, node.statusNode].filter fun text => 0 < text.length

end RepositoryListCellNode

namespace RepositoryBannerCellNode

structure PartnerLayoutSpec where
  node : ASNetworkImageNode
  regionNode : ASTextNode
  nameNode : ASTextNode
  deriving DecidableEq

inductive LayoutSpec where
  | content (elements : List ASTextNode)
  | partner (spec : PartnerLayoutSpec)
  deriving DecidableEq

/-- The subscriptions of `init(viewModel:)`. -/
def receive (node : RepositoryBannerCellNode) : CellBindings.Output → RepositoryBannerCellNode
  | .title title =>
      { node with titleNode := { node.titleNode with attributedText := some title } }
  | .desc desc =>
      { node with descriptionNode := { node.descriptionNode with attributedText := some desc } }
  | .partnerModels partnerModels => { node with partnerModels }
  | .profileUrl _ | .username _ | .contents _ => node

def textNodeTappedTruncationToken (node : RepositoryBannerCellNode) : RepositoryBannerCellNode :=
  { node with descriptionNode := { node.descriptionNode with maximumNumberOfLines := 0 } }

def contentLayoutSpec (node : RepositoryBannerCellNode) : List ASTextNode :=
  [node.titleNode, node.descriptionNode].filter fun text => 0 < text.length

def partnerLayoutSpec (model : PartnerModel) : PartnerLayoutSpec where
  node := { url := some model.thumbnailUrl }
  regionNode := { attributedText := some model.region, maximumNumberOfLines := 1 }
  nameNode := { attributedText := some model.name, maximumNumberOfLines := 1 }

def layoutSpecThatFits (node : RepositoryBannerCellNode) : List LayoutSpec :=
  .content node.contentLayoutSpec ::
    node.partnerModels.map fun model => .partner (partnerLayoutSpec model)

end RepositoryBannerCellNode

/-! ### The nodes of one view model -/

inductive RowNode where
  | list (node : RepositoryListCellNode)
  | banner (node : RepositoryBannerCellNode)
  deriving DecidableEq

namespace RowNode

/-- A node before its `willDisplay`. The other rows have no node that subscribes. -/
def make (viewModel : RxCellViewModel) : Option RowNode :=
  match viewModel.subclass with
  | .repository model => some (.list { id := model.id })
  | .banner _ => some (.banner {})
  | .info _ | .none => none

def receive : RowNode → CellBindings.Output → RowNode
  | .list node, output => .list (node.receive output)
  | .banner node, output => .banner (node.receive output)

def textNodeTappedTruncationToken : RowNode → RowNode
  | .list node => .list node.textNodeTappedTruncationToken
  | .banner node => .banner node.textNodeTappedTruncationToken

end RowNode

/-- A node that has been released is `none`. -/
structure RowScene where
  bindings : CellBindings
  nodes : List (Option RowNode)

namespace RowScene

inductive Event where
  | nodeMade
  | released (node : Nat)
  | textNodeTappedTruncationToken (node : Nat)
  | initializeCall
  | deinitializeCall
  deriving DecidableEq

def make (viewModel : RxCellViewModel) : RowScene where
  bindings := .make viewModel
  nodes := []

/-- `init(viewModel:)`: what `willDisplay` sends goes to all nodes that are there. -/
def nodeMade (scene : RowScene) : Option RowScene :=
  (RowNode.make scene.bindings.viewModel).map fun made =>
    { scene with
      nodes := (scene.nodes ++ [some made]).map fun node =>
        node.map fun node => scene.bindings.willDisplay.foldl RowNode.receive node }

def change (scene : RowScene) (node : Nat) (changed : RowNode → Option RowNode) :
    Option RowScene :=
  scene.nodes[node]?.join.map fun old => { scene with nodes := scene.nodes.set node (changed old) }

def machine : Machine RowScene Event Empty where
  step := fun scene event =>
    match event with
    | .nodeMade => scene.nodeMade.map fun next => (next, [])
    | .released node => (scene.change node fun _ => none).map fun next => (next, [])
    | .textNodeTappedTruncationToken node =>
        (scene.change node fun old => some old.textNodeTappedTruncationToken).map
          fun next => (next, [])
    | .initializeCall => some ({ scene with bindings := scene.bindings.initializeCall }, [])
    | .deinitializeCall => some ({ scene with bindings := scene.bindings.deinitializeCall }, [])

end RowScene

end PFXTexture
