import PFXTexture.Models

/-!
# Display nodes

What the cells set of the nodes they are made of.
-/

namespace PFXTexture

structure ASTextNode where
  attributedText : Option String := none
  maximumNumberOfLines : Nat := 0
  deriving DecidableEq

structure ASNetworkImageNode where
  url : Option URL := none
  deriving DecidableEq

end PFXTexture
