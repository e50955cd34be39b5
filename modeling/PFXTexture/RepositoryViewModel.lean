import PFXTexture.CellViewModels
import PFXTexture.RxViewModel
import PFXTexture.Library.Machine
import PFXTexture.Library.Retry

/-!
# The list view model

`RepositoryViewModel` as a machine. Its events are the load input, the outcome of the current
attempt of one load, and the two lifecycle calls it inherits from `RxViewModel`. Handlers of the
main scheduler run one at a time, so each event is one step.

A load is named by the number of loads before it. Its inner subscription is made by `_ =
... .subscribe`, outside every bag; the subscription to `loadSubject` is in the bag.
-/

namespace PFXTexture

/-! ### State -/

structure Load where
  subscription : Nat
  params : List GithubParam
  progress : Retry.Progress LoadError (List RepositoryModel)

structure RepositoryViewModel where
  disposables : Disposables
  loadSubject : List Nat
  lastId : Option Int
  cellViewModelsSubject : Option (List RxCellViewModel)
  loads : List Load
  allocated : Nat

namespace RepositoryViewModel

inductive Output where
  | error (message : String)
  | cellViewModels (viewModels : List RxCellViewModel)
  deriving DecidableEq

inductive Event where
  | load
  | attempt (load : Nat) (outcome : Outcome)
  | initializeCall
  | deinitializeCall

def Event.isLifecycle : Event → Bool
  | .initializeCall | .deinitializeCall => true
  | .load | .attempt _ _ => false

/-! ### Operations -/

def bindInputs (viewModel : RepositoryViewModel) : RepositoryViewModel :=
  let subscription := viewModel.disposables.issued
  { viewModel with
    disposables := viewModel.disposables.subscribe.disposedByBag subscription
    loadSubject := viewModel.loadSubject ++ [subscription] }

/-- `init(dependency:)`. -/
def make : RepositoryViewModel :=
  bindInputs
    { disposables := Disposables.empty
      loadSubject := []
      lastId := none
      cellViewModelsSubject := none
      loads := []
      allocated := 0 }

/-- The handler of `loadSubject`. -/
def onLoad (viewModel : RepositoryViewModel) : RepositoryViewModel :=
  let since := viewModel.lastId
  { viewModel with
    disposables := viewModel.disposables.subscribe
    loads := viewModel.loads ++
      [{ subscription := viewModel.disposables.issued
         params := [.since since]
         progress := .subscribed 0 }] }

/-- The observers of `loadSubject` that still receive its events. -/
def observers (viewModel : RepositoryViewModel) : List Nat :=
  viewModel.loadSubject.filter fun subscription => subscription ∈ viewModel.disposables.live

/-- `input.load.onNext(())`. -/
def load (viewModel : RepositoryViewModel) : RepositoryViewModel :=
  viewModel.observers.foldl (fun viewModel _ => viewModel.onLoad) viewModel

def initializeBag (viewModel : RepositoryViewModel) : RepositoryViewModel :=
  { viewModel with disposables := RxViewModel.initializeBag viewModel.disposables }

def deinitializeBag (viewModel : RepositoryViewModel) : RepositoryViewModel :=
  { viewModel with disposables := RxViewModel.deinitializeBag viewModel.disposables }

def setProgress (viewModel : RepositoryViewModel) (index : Nat) (load : Load)
    (progress : Retry.Progress LoadError (List RepositoryModel)) : RepositoryViewModel :=
  { viewModel with loads := viewModel.loads.set index { load with progress } }

section Responses

variable (random : Nat → Nat → String)

/-- `onSuccess`, after the `map` that made a view model of each repository. -/
def onSuccess (viewModel : RepositoryViewModel) (models : List RepositoryModel) :
    Option (RepositoryViewModel × List Output) :=
  let page := cells random models viewModel.allocated
  (decorate random page (viewModel.allocated + models.length)).map fun (viewModels, allocated) =>
    let accepted :=
      match viewModel.cellViewModelsSubject with
      | some cellViewModels => cellViewModels ++ viewModels
      | none => viewModels
    ({ viewModel with cellViewModelsSubject := some accepted, allocated },
      [.cellViewModels accepted])

def onError (viewModel : RepositoryViewModel) : RepositoryViewModel × List Output :=
  (viewModel, [.error "error"])

/-- The current attempt of a load ends. `retry(3)` decides whether that is the load's result; what
a disposed subscription would receive is dropped. -/
def attempt (viewModel : RepositoryViewModel) (index : Nat) (outcome : Outcome) :
    Option (RepositoryViewModel × List Output) :=
  match viewModel.loads[index]? with
  | none => none
  | some load =>
      if ¬load.progress.Pending then
        none
      else if load.subscription ∉ viewModel.disposables.live then
        some (viewModel, [])
      else
        let progress := Retry.next 3 load.progress outcome
        let viewModel := viewModel.setProgress index load progress
        match progress with
        | .subscribed _ => some (viewModel, [])
        | .succeeded models => viewModel.onSuccess random models
        | .failed _ => some viewModel.onError

def machine : Machine RepositoryViewModel Event Output where
  step := fun viewModel event =>
    match event with
    | .load => some (viewModel.load, [])
    | .attempt index outcome => viewModel.attempt random index outcome
    | .initializeCall => some (viewModel.initializeBag, [])
    | .deinitializeCall => some (viewModel.deinitializeBag, [])

/-- The view model while its owner makes no lifecycle call. -/
def liveMachine : Machine RepositoryViewModel Event Output :=
  (machine random).restrict fun _ event => event.isLifecycle = false

end Responses

end RepositoryViewModel

end PFXTexture
