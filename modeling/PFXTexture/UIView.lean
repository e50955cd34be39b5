import Mathlib.Data.List.Basic

/-!
# Views and their border layers

What `UIView+Extension` does to a view. A layer is an object: `object` is its identity, and of its
frame only the height matters here. `UIColor` holds the two colours the nodes pass.
-/

namespace PFXTexture

inductive UIColor where
  | black
  | clear
  deriving DecidableEq

/-- A new `CALayer()` has no colour and an empty frame. -/
structure CALayer where
  object : Nat
  backgroundColor : Option UIColor := none
  height : Nat := 0
  deriving DecidableEq

structure UIView where
  sublayers : List CALayer
  deriving DecidableEq

/-- Something of the layer can be seen. -/
def CALayer.isVisible (layer : CALayer) : Bool :=
  match layer.backgroundColor with
  | some .black => 0 < layer.height
  | some .clear => false
  | none => false

namespace UIView

/-- The border is a new object. -/
def addBottomBorderWithColor (view : UIView) (object : Nat) (color : UIColor) (width : Nat) :
    UIView × CALayer :=
  let border : CALayer := { object, backgroundColor := some color, height := width }
  ({ sublayers := view.sublayers ++ [border] }, border)

/-- `layer.removeFromSuperlayer()`, for a layer that is in this view or in none. -/
def removeLayer (view : UIView) (layer : CALayer) : UIView :=
  { sublayers := view.sublayers.filter fun sublayer => sublayer.object ≠ layer.object }

/-- How many borders of the view can be seen. -/
def underlines (view : UIView) : Nat :=
  view.sublayers.countP CALayer.isVisible

end UIView

end PFXTexture
