import PFXTexture.RepositoryViewController

/-!
# The table view of the list scene

The parts of `ASTableView`, `ASBatchFetching` and `ASDataController` that decide when the controller
is asked for more rows and when for a cell. A check begins a batch at once and hands the call of the
delegate to a queue; a reload asks for all node blocks at once and hands them to another, which runs
them. So other events come between the two.

Lengths have any type with the operations that a check does on them. No law is assumed of these, so
it does not matter how `CGFloat` rounds.
-/

namespace PFXTexture

section

variable {CGFloat : Type} [OfNat CGFloat 0] [OfNat CGFloat 2] [BEq CGFloat] [LT CGFloat]
  [LE CGFloat] [DecidableLT CGFloat] [DecidableLE CGFloat] [Sub CGFloat] [Mul CGFloat]

/-! ### Whether to fetch -/

inductive ASBatchContextState where
  | fetching
  | cancelled
  | completed
  deriving DecidableEq

def ASBatchContextState.isFetching (state : ASBatchContextState) : Bool :=
  state = .fetching

structure CGSize (CGFloat : Type) where
  width : CGFloat
  height : CGFloat

structure CGPoint (CGFloat : Type) where
  x : CGFloat
  y : CGFloat

/-- `CGRectIsEmpty` of a rectangle of this size. -/
def CGSize.isEmpty (size : CGSize CGFloat) : Bool :=
  size.width == 0 || size.height == 0

structure ASScrollDirection where
  up : Bool
  left : Bool
  down : Bool
  right : Bool

def ASScrollDirection.containsVerticalDirection (direction : ASScrollDirection) : Bool :=
  direction.up || direction.down

def ASScrollDirection.verticalDirections : ASScrollDirection where
  up := true
  left := false
  down := true
  right := false

/-- What a check reads from the scroll view. -/
structure UIScrollView (CGFloat : Type) where
  isDragging : Bool
  isTracking : Bool
  scrollDirection : ASScrollDirection
  bounds : CGSize CGFloat
  contentSize : CGSize CGFloat
  contentOffset : CGPoint CGFloat
  visible : Bool

/-- No `batchFetchingDelegate` is set, so the velocity plays no part. -/
def ASDisplayShouldFetchBatchForContext (context : ASBatchContextState)
    (scrollView : UIScrollView CGFloat) (scrollableDirections : ASScrollDirection)
    (targetOffset : CGPoint CGFloat) (leadingScreens : CGFloat) : Bool :=
  if context.isFetching then
    false
  else if leadingScreens ≤ 0 || scrollView.bounds.isEmpty then
    false
  else
    let vertical := scrollableDirections.containsVerticalDirection
    let viewLength := if vertical then scrollView.bounds.height else scrollView.bounds.width
    let offset := if vertical then targetOffset.y else targetOffset.x
    let contentLength :=
      if vertical then scrollView.contentSize.height else scrollView.contentSize.width
    if contentLength < viewLength then
      true
    else if !scrollView.visible then
      false
    else if scrollView.scrollDirection.up || scrollView.scrollDirection.left then
      false
    else
      let triggerDistance := viewLength * leadingScreens
      let remainingDistance := contentLength - viewLength - offset
      remainingDistance ≤ triggerDistance

/-- `leadingScreensForBatching`, as the controller sets it on its table node. -/
def RepositoryViewController.leadingScreensForBatching : CGFloat := 2

/-! ### Elements -/

/-- An element gives its block up when it has the node. The block is known by the row it holds. -/
inductive ASCollectionElement where
  | nodeBlock (row : Nat)
  | allocated (node : ASCellNode)
  deriving DecidableEq

/-- The block runs at the first call and reads the rows of the controller as they are then. -/
def ASCollectionElement.node (element : ASCollectionElement)
    (controller : RepositoryViewController) : ASCellNode :=
  match element with
  | .nodeBlock row => RepositoryViewController.nodeBlockForRowAt row controller
  | .allocated node => node

/-! ### The table view -/

/-- `dispatched` counts the calls of the delegate that wait on the queue. `numberOfRows` and
`pendingMap` are what the data controller has made of the data source at the last update. -/
structure ASTableView where
  batchState : ASBatchContextState
  dispatched : Nat
  numberOfRows : Nat
  pendingMap : List ASCollectionElement
  asyncDelegate : RepositoryViewController

namespace ASTableView

inductive Event (CGFloat : Type) where
  | checkForBatchFetching (scrollView : UIScrollView CGFloat)
  | scrollViewWillEndDragging (scrollView : UIScrollView CGFloat)
      (targetContentOffset : Option (CGPoint CGFloat))
  | runDispatched
  | allocateNode (row : Nat)
  | attempt (load : Nat) (outcome : Outcome)
  | commit (editingStyle : UITableViewCell.EditingStyle) (row : Nat)

/-- The one `_batchContext` of the table view. -/
def batchContext : ASBatchContext := ⟨0⟩

/-- New elements for all rows, none of which has run its block. -/
def reloadData (table : ASTableView) : ASTableView :=
  { table with
    numberOfRows := table.asyncDelegate.numberOfRowsInSection
    pendingMap :=
      (List.range table.asyncDelegate.numberOfRowsInSection).map ASCollectionElement.nodeBlock }

def make (asyncDelegate : RepositoryViewController) : ASTableView :=
  { batchState := .completed
    dispatched := 0
    numberOfRows := 0
    pendingMap := []
    asyncDelegate : ASTableView }
    |>.reloadData

/-! ### Batches -/

/-- The controller has both methods of the delegate. -/
def canBatchFetch (table : ASTableView) : Bool :=
  table.asyncDelegate.shouldBatchFetch

def shouldFetchBatch (table : ASTableView) (scrollView : UIScrollView CGFloat)
    (contentOffset : CGPoint CGFloat) : Bool :=
  if !table.canBatchFetch then
    false
  else
    ASDisplayShouldFetchBatchForContext table.batchState scrollView
      ASScrollDirection.verticalDirections contentOffset
      RepositoryViewController.leadingScreensForBatching

def beginBatchFetching (table : ASTableView) : ASTableView :=
  { table with batchState := .fetching, dispatched := table.dispatched + 1 }

def beginBatchFetchingIfNeeded (table : ASTableView) (scrollView : UIScrollView CGFloat)
    (contentOffset : CGPoint CGFloat) : ASTableView :=
  if table.shouldFetchBatch scrollView contentOffset then table.beginBatchFetching else table

/-- While the finger is down, the end of the drag is waited for. -/
def checkForBatchFetching (table : ASTableView) (scrollView : UIScrollView CGFloat) :
    ASTableView :=
  if scrollView.isDragging || scrollView.isTracking then
    table
  else
    table.beginBatchFetchingIfNeeded scrollView scrollView.contentOffset

def scrollViewWillEndDragging (table : ASTableView) (scrollView : UIScrollView CGFloat)
    (targetContentOffset : Option (CGPoint CGFloat)) : ASTableView :=
  match targetContentOffset with
  | none => table
  | some contentOffset => table.beginBatchFetchingIfNeeded scrollView contentOffset

/-- A block that waits on the queue runs. -/
def runDispatched (table : ASTableView) : Option ASTableView :=
  match table.dispatched with
  | 0 => none
  | dispatched + 1 =>
      some
        { table with
          dispatched
          asyncDelegate := table.asyncDelegate.willBeginBatchFetchWith batchContext }

/-! ### Nodes -/

/-- The queue reaches an element that has no node yet. -/
def allocateNode (table : ASTableView) (row : Nat) : Option ASTableView :=
  match table.pendingMap[row]? with
  | none => none
  | some (.allocated _) => none
  | some (.nodeBlock blockRow) =>
      let node := RepositoryViewController.nodeBlockForRowAt blockRow table.asyncDelegate
      some { table with pendingMap := table.pendingMap.set row (.allocated node) }

/-- The queue is waited for. -/
def allocateNodes (table : ASTableView) : ASTableView :=
  { table with
    pendingMap := table.pendingMap.map fun element =>
      .allocated (element.node table.asyncDelegate) }

/-! ### Rows -/

/-- The handler of the driver ends with `reloadData`. -/
def receive (table : ASTableView) : RepositoryViewModel.Output → ASTableView
  | .error _ => table
  | .cellViewModels _ => table.reloadData

def attempt (random : Nat → Nat → String) (table : ASTableView) (load : Nat) (outcome : Outcome) :
    Option (ASTableView × List RepositoryViewModel.Output) :=
  (table.asyncDelegate.attempt random load outcome).map fun (asyncDelegate, emitted) =>
    (emitted.foldl receive { table with asyncDelegate }, emitted)

/-- `deleteRows(at:with:)` of one row. The update begins when all blocks have run, and it raises,
which is `none`, unless the data source has exactly one row less. -/
def deleteRow (table : ASTableView) (row : Nat) : Option ASTableView :=
  let table := table.allocateNodes
  let numberOfRows := table.asyncDelegate.numberOfRowsInSection
  if numberOfRows + 1 = table.numberOfRows then
    some { table with numberOfRows, pendingMap := table.pendingMap.eraseIdx row }
  else
    none

/-- The rows that can be edited are among those the table view knows of. -/
def commit (table : ASTableView) (editingStyle : UITableViewCell.EditingStyle) (row : Nat) :
    Option ASTableView :=
  if row < table.numberOfRows then
    (table.asyncDelegate.commit editingStyle row).bind fun asyncDelegate =>
      if editingStyle = .delete then
        { table with asyncDelegate }.deleteRow row
      else
        some { table with asyncDelegate }
  else
    none

variable (CGFloat) in
def machine (random : Nat → Nat → String) :
    Machine ASTableView (Event CGFloat) RepositoryViewModel.Output where
  step := fun table event =>
    match event with
    | .checkForBatchFetching scrollView => some (table.checkForBatchFetching scrollView, [])
    | .scrollViewWillEndDragging scrollView targetContentOffset =>
        some (table.scrollViewWillEndDragging scrollView targetContentOffset, [])
    | .runDispatched => table.runDispatched.map fun next => (next, [])
    | .allocateNode row => (table.allocateNode row).map fun next => (next, [])
    | .attempt load outcome => table.attempt random load outcome
    | .commit editingStyle row => (table.commit editingStyle row).map fun next => (next, [])

/-- The table view of the loaded scene. -/
def start : ASTableView :=
  make .loaded

end ASTableView

end

end PFXTexture
