import PFXTexture.RxViewModel
import PFXTexture.Library.Machine

/-!
# The view model of a section

`DContentsViewModel` as a machine. A load input restarts the debounce of every observer of
`loadSubject` that is alive; when 300 ms have passed without another, the debounce of one observer
elapses and the request is made. There is no `retry`, so the first outcome of a request is its
result. Both subscriptions are in the bag.
-/

namespace PFXTexture

structure DContentsViewModel.Dependency where
  index : Int := 0

structure DContentsViewModel.Load where
  subscription : Nat
  params : List GithubParam
  completed : Bool

structure DContentsViewModel where
  dependency : DContentsViewModel.Dependency
  disposables : Disposables
  loadSubject : List Nat
  debounced : List Nat
  itemsSubject : Option (List RepositoryModel)
  loads : List DContentsViewModel.Load

namespace DContentsViewModel

inductive Output where
  | items (models : List RepositoryModel)
  deriving DecidableEq

inductive Event where
  | load
  | debounceElapsed (subscription : Nat)
  | response (load : Nat) (outcome : Outcome)
  | initializeCall
  | deinitializeCall

def bindInputs (viewModel : DContentsViewModel) : DContentsViewModel :=
  let subscription := viewModel.disposables.issued
  { viewModel with
    disposables := viewModel.disposables.subscribe.disposedByBag subscription
    loadSubject := viewModel.loadSubject ++ [subscription] }

/-- `init(dependency:)`. -/
def make (dependency : Dependency) : DContentsViewModel :=
  bindInputs
    { dependency
      disposables := Disposables.empty
      loadSubject := []
      debounced := []
      itemsSubject := none
      loads := [] }

/-- The observers of `loadSubject` that still receive its events. -/
def observers (viewModel : DContentsViewModel) : List Nat :=
  viewModel.loadSubject.filter fun subscription => subscription ∈ viewModel.disposables.live

/-- `input.load.onNext(())`. -/
def load (viewModel : DContentsViewModel) : DContentsViewModel :=
  { viewModel with debounced := viewModel.observers }

/-- The handler behind the debounce. -/
def onLoad (viewModel : DContentsViewModel) : DContentsViewModel :=
  let subscription := viewModel.disposables.issued
  { viewModel with
    disposables := viewModel.disposables.subscribe.disposedByBag subscription
    loads := viewModel.loads ++
      [{ subscription
         params := [.since (some (viewModel.dependency.index * 100))]
         completed := false }] }

def endDebounce (viewModel : DContentsViewModel) (subscription : Nat) : DContentsViewModel :=
  { viewModel with debounced := viewModel.debounced.erase subscription }

def debounceElapsed (viewModel : DContentsViewModel) (subscription : Nat) :
    Option DContentsViewModel :=
  if subscription ∉ viewModel.debounced then
    none
  else
    let viewModel := viewModel.endDebounce subscription
    if subscription ∈ viewModel.disposables.live then some viewModel.onLoad else some viewModel

def onSuccess (viewModel : DContentsViewModel) (responseModels : List RepositoryModel) :
    DContentsViewModel × List Output :=
  let accepted :=
    match viewModel.itemsSubject with
    | some models => models ++ responseModels
    | none => responseModels
  ({ viewModel with itemsSubject := some accepted }, [.items accepted])

def complete (viewModel : DContentsViewModel) (index : Nat) (load : Load) : DContentsViewModel :=
  { viewModel with loads := viewModel.loads.set index { load with completed := true } }

/-- The request of a load ends. A disposed subscription receives nothing of it, and the error
handler does nothing. -/
def response (viewModel : DContentsViewModel) (index : Nat) (outcome : Outcome) :
    Option (DContentsViewModel × List Output) :=
  match viewModel.loads[index]? with
  | none => none
  | some load =>
      if load.completed then
        none
      else
        let viewModel := viewModel.complete index load
        if load.subscription ∉ viewModel.disposables.live then
          some (viewModel, [])
        else
          match outcome with
          | .ok responseModels => some (viewModel.onSuccess responseModels)
          | .error _ => some (viewModel, [])

def initializeBag (viewModel : DContentsViewModel) : DContentsViewModel :=
  { viewModel with disposables := RxViewModel.initializeBag viewModel.disposables }

def deinitializeBag (viewModel : DContentsViewModel) : DContentsViewModel :=
  { viewModel with disposables := RxViewModel.deinitializeBag viewModel.disposables }

def machine : Machine DContentsViewModel Event Output where
  step := fun viewModel event =>
    match event with
    | .load => some (viewModel.load, [])
    | .debounceElapsed subscription =>
        (viewModel.debounceElapsed subscription).map fun next => (next, [])
    | .response index outcome => viewModel.response index outcome
    | .initializeCall => some (viewModel.initializeBag, [])
    | .deinitializeCall => some (viewModel.deinitializeBag, [])

end DContentsViewModel

end PFXTexture
