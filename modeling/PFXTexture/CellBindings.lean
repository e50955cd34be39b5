import PFXTexture.CellViewModels
import PFXTexture.Library.Disposables
import PFXTexture.Library.Machine

/-!
# The bindings of a cell view model

A cell view model with its subscriptions. The subclasses of `RxCellViewModel` override
`initialize()`, which binds their inputs again, and call it from their constructors.
-/

namespace PFXTexture

structure CellBindings where
  viewModel : RxCellViewModel
  disposables : Disposables
  willDisplaySubject : List Nat
  tapProfileSubject : List Nat

def RxCellViewModel.deinitializeBag (disposables : Disposables) : Disposables :=
  disposables.resetBag

def RxCellViewModel.initializeBag (disposables : Disposables) : Disposables :=
  disposables.resetBag

namespace CellBindings

inductive Output where
  | profileUrl (url : URL)
  | desc (desc : String)
  | username (username : String)
  | title (title : String)
  | partnerModels (partnerModels : List PartnerModel)
  | contents (contents : List RepositoryInfoCellNode.Content)
  deriving DecidableEq

inductive Event where
  | willDisplay (value : Bool)
  | tapProfile
  | initializeCall
  | deinitializeCall

/-! ### Binding -/

def bindWillDisplay (bindings : CellBindings) : CellBindings :=
  let subscription := bindings.disposables.issued
  { bindings with
    disposables := bindings.disposables.subscribe.disposedByBag subscription
    willDisplaySubject := bindings.willDisplaySubject ++ [subscription] }

def bindTapProfile (bindings : CellBindings) : CellBindings :=
  let subscription := bindings.disposables.issued
  { bindings with
    disposables := bindings.disposables.subscribe.disposedByBag subscription
    tapProfileSubject := bindings.tapProfileSubject ++ [subscription] }

/-- `bindInputs()` of the three subclasses. -/
def bindInputs (bindings : CellBindings) : CellBindings :=
  match bindings.viewModel.subclass with
  | .none => bindings
  | .repository _ => bindings.bindWillDisplay.bindTapProfile
  | .banner _ => bindings.bindWillDisplay
  | .info _ => bindings.bindWillDisplay

/-! ### Lifecycle -/

/-- `initialize()`, as overridden by the subclass. -/
def initializeCall (bindings : CellBindings) : CellBindings :=
  bindInputs
    { bindings with disposables := RxCellViewModel.initializeBag bindings.disposables }

def deinitializeCall (bindings : CellBindings) : CellBindings :=
  { bindings with disposables := RxCellViewModel.deinitializeBag bindings.disposables }

/-- The constructors end with a call of `initialize()`. -/
def make (viewModel : RxCellViewModel) : CellBindings :=
  initializeCall
    { viewModel
      disposables := Disposables.empty
      willDisplaySubject := []
      tapProfileSubject := [] }

/-! ### Inputs -/

/-- What the handler of `willDisplaySubject` sends to the outputs. -/
def onWillDisplay (viewModel : RxCellViewModel) : List Output :=
  match viewModel.subclass with
  | .none => []
  | .repository model =>
      ((model.user.bind UserModel.profileURL).map .profileUrl).toList ++
        (model.desc.map .desc).toList ++
        (model.user.map fun user => .username user.username).toList
  | .banner dependency =>
      [.title dependency.title, .desc dependency.desc, .partnerModels dependency.partnerModels]
  | .info dependency =>
      [.title dependency.title, .desc dependency.desc, .contents dependency.contents]

def willDisplayObservers (bindings : CellBindings) : List Nat :=
  bindings.disposables.observers bindings.willDisplaySubject

def tapProfileObservers (bindings : CellBindings) : List Nat :=
  bindings.disposables.observers bindings.tapProfileSubject

/-- `input.willDisplay.onNext(_)`. -/
def willDisplay (bindings : CellBindings) : List Output :=
  bindings.willDisplayObservers.flatMap fun _ => onWillDisplay bindings.viewModel

def machine : Machine CellBindings Event Output where
  step := fun bindings event =>
    match event with
    | .willDisplay _ => some (bindings, bindings.willDisplay)
    | .tapProfile => some (bindings, [])
    | .initializeCall => some (bindings.initializeCall, [])
    | .deinitializeCall => some (bindings.deinitializeCall, [])

end CellBindings

end PFXTexture
