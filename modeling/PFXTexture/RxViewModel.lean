import PFXTexture.Networks
import PFXTexture.Library.Disposables

/-!
# What the list view models share

The lifecycle calls of `RxViewModel` touch its bag only. Either of them replaces the bag, which
disposes what the old one held.
-/

namespace PFXTexture

/-- What the `Single` of the service delivers to one subscription. -/
abbrev Outcome := Except LoadError (List RepositoryModel)

def RxViewModel.deinitializeBag (disposables : Disposables) : Disposables :=
  disposables.resetBag

def RxViewModel.initializeBag (disposables : Disposables) : Disposables :=
  disposables.resetBag

end PFXTexture
