import PFXTexture.DContentsViewModel

/-!
# The node of a section

`DContentsNode` with the view model it drives. The collection node remembers the number of items it
read at its last `reloadData`.
-/

namespace PFXTexture

structure DContentsNode.Cell where
  model : RepositoryModel
  deriving DecidableEq

structure ASCollectionNode where
  numberOfItems : Nat

structure DContentsNode where
  itemCellNodes : List DContentsNode.Cell
  collectionNode : ASCollectionNode
  viewModel : DContentsViewModel

namespace DContentsNode

inductive Event where
  | didLoad
  | favoriteButtonTap
  | recentButtonTap
  | allButtonTap
  | debounceElapsed (subscription : Nat)
  | response (load : Nat) (outcome : Outcome)

/-! ### The collection -/

def numberOfItemsInSection (node : DContentsNode) : Nat :=
  node.itemCellNodes.length

def nodeForItemAt (node : DContentsNode) (row : Nat) : Option Cell :=
  node.itemCellNodes[row]?

def reloadData (node : DContentsNode) : DContentsNode :=
  { node with collectionNode := ⟨node.numberOfItemsInSection⟩ }

/-! ### Handlers -/

def loadInput (node : DContentsNode) : DContentsNode :=
  { node with viewModel := node.viewModel.load }

def removeAll (node : DContentsNode) : DContentsNode :=
  { node with itemCellNodes := [] }

/-- The handler of the items output: `nil` is passed over. -/
def onItems (node : DContentsNode) (responseModels : Option (List RepositoryModel)) :
    DContentsNode :=
  match responseModels with
  | none => node
  | some models =>
      { node with itemCellNodes := node.itemCellNodes ++ models.map Cell.mk }.reloadData

def receive (node : DContentsNode) : DContentsViewModel.Output → DContentsNode
  | .items models => node.onItems (some models)

/-- `init(viewModel:)`: the relay replays its value to the new subscription. -/
def make (viewModel : DContentsViewModel) : DContentsNode :=
  { itemCellNodes := [], collectionNode := ⟨0⟩, viewModel : DContentsNode }.onItems
    viewModel.itemsSubject

def didLoad (node : DContentsNode) : DContentsNode :=
  node.loadInput

def favoriteButtonTap (node : DContentsNode) : DContentsNode :=
  node.removeAll.reloadData

-- no `reloadData` here
def recentButtonTap (node : DContentsNode) : DContentsNode :=
  node.removeAll

def allButtonTap (node : DContentsNode) : DContentsNode :=
  node.removeAll.loadInput

def response (node : DContentsNode) (load : Nat) (outcome : Outcome) :
    Option (DContentsNode × List DContentsViewModel.Output) :=
  (node.viewModel.response load outcome).map fun (viewModel, emitted) =>
    (emitted.foldl receive { node with viewModel }, emitted)

def machine : Machine DContentsNode Event DContentsViewModel.Output where
  step := fun node event =>
    match event with
    | .didLoad => some (node.didLoad, [])
    | .favoriteButtonTap => some (node.favoriteButtonTap, [])
    | .recentButtonTap => some (node.recentButtonTap, [])
    | .allButtonTap => some (node.allButtonTap, [])
    | .debounceElapsed subscription =>
        (node.viewModel.debounceElapsed subscription).map fun viewModel =>
          ({ node with viewModel }, [])
    | .response load outcome => node.response load outcome

end DContentsNode

end PFXTexture
