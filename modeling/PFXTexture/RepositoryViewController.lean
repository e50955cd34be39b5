import PFXTexture.RepositoryViewModel

/-!
# The list scene

`RepositoryViewController` together with the view model it drives. The controller keeps a copy of
the rows: the driver appends every emission to it and the edit control deletes from it. The events
are the callbacks of the table node, in any order.
-/

namespace PFXTexture

structure ASBatchContext where
  identity : Nat
  deriving DecidableEq

inductive UITableViewCell.EditingStyle where
  | none
  | delete
  | insert
  deriving DecidableEq

/-- What a cell node is built from. -/
inductive ASCellNode where
  | plain
  | repositoryList (viewModel : RxCellViewModel)
  | repositoryBanner (viewModel : RxCellViewModel)
  | repositoryInfo (content : RepositoryInfoCellNode.Content)
  deriving DecidableEq

structure RepositoryViewController where
  items : List RxCellViewModel
  context : Option ASBatchContext
  viewModel : RepositoryViewModel

namespace RepositoryViewController

inductive Event where
  | willBeginBatchFetch (context : ASBatchContext)
  | attempt (load : Nat) (outcome : Outcome)
  | commit (editingStyle : UITableViewCell.EditingStyle) (row : Nat)

def make (viewModel : RepositoryViewModel) : RepositoryViewController where
  items := []
  context := none
  viewModel := viewModel

/-! ### Binding -/

/-- The handler of the driver: `nil` is passed over. -/
def drive (controller : RepositoryViewController) (viewModels : Option (List RxCellViewModel)) :
    RepositoryViewController :=
  match viewModels with
  | none => controller
  | some viewModels => { controller with items := controller.items ++ viewModels }

/-- The error output is bound by nobody. -/
def receive (controller : RepositoryViewController) :
    RepositoryViewModel.Output → RepositoryViewController
  | .error _ => controller
  | .cellViewModels viewModels => controller.drive (some viewModels)

/-- The first load is issued, and the relay replays its value to the new driver. -/
def viewDidLoad (controller : RepositoryViewController) : RepositoryViewController :=
  let controller := { controller with viewModel := controller.viewModel.load }
  controller.drive controller.viewModel.cellViewModelsSubject

/-! ### Cells -/

def numberOfRowsInSection (controller : RepositoryViewController) : Nat :=
  controller.items.length

/-- The class of a row decides the class of its cell. -/
def cellNode (viewModel : RxCellViewModel) : ASCellNode :=
  match viewModel.subclass with
  | .repository _ => .repositoryList viewModel
  | .banner _ => .repositoryBanner viewModel
  | .info dependency =>
      .repositoryInfo (dependency.contents.head dependency.contents_ne_nil)
  | .none => .plain

def cellNodeAt (items : List RxCellViewModel) (row : Nat) : ASCellNode :=
  match items[row]? with
  | none => .plain
  | some viewModel => cellNode viewModel

/-- The block holds the controller and the row: it reads `items` when it is run. -/
def nodeBlockForRowAt (row : Nat) : RepositoryViewController → ASCellNode :=
  fun controller => cellNodeAt controller.items row

def nodeForRowAt (controller : RepositoryViewController) (row : Nat) : ASCellNode :=
  cellNodeAt controller.items row

/-! ### Batches and edits -/

def shouldBatchFetch (controller : RepositoryViewController) : Bool :=
  controller.context.isNone

def willBeginBatchFetchWith (controller : RepositoryViewController) (context : ASBatchContext) :
    RepositoryViewController :=
  { controller with context := some context, viewModel := controller.viewModel.load }

/-- `none` where `remove(at:)` traps. -/
def commit (controller : RepositoryViewController) (editingStyle : UITableViewCell.EditingStyle)
    (row : Nat) : Option RepositoryViewController :=
  if editingStyle = .delete then
    (SwiftArray.remove controller.items row).map fun items => { controller with items }
  else
    some controller

/-! ### The scene -/

def attempt (random : Nat → Nat → String) (controller : RepositoryViewController) (load : Nat)
    (outcome : Outcome) : Option (RepositoryViewController × List RepositoryViewModel.Output) :=
  (controller.viewModel.attempt random load outcome).map fun (viewModel, emitted) =>
    (emitted.foldl receive { controller with viewModel }, emitted)

def machine (random : Nat → Nat → String) :
    Machine RepositoryViewController Event RepositoryViewModel.Output where
  step := fun controller event =>
    match event with
    | .willBeginBatchFetch context => some (controller.willBeginBatchFetchWith context, [])
    | .attempt load outcome => controller.attempt random load outcome
    | .commit editingStyle row => (controller.commit editingStyle row).map fun next => (next, [])

/-- The scene on its new view model, after `viewDidLoad`. -/
def loaded : RepositoryViewController :=
  (make .make).viewDidLoad

end RepositoryViewController

end PFXTexture
