import Mathlib.Data.List.Basic

/-!
# Observable sequences as lists of events

What a source sends its one observer, from the subscription on. An event after an error or a
completion is not delivered, so every operator stops reading at the first of them.
-/

namespace Observable

variable {ε α β : Type*}

inductive Event (ε α : Type*) where
  | next (value : α)
  | error (error : ε)
  | completed

inductive RxError where
  | noElements
  | moreThanOneElement
  deriving DecidableEq, Repr

def just (value : α) : List (Event ε α) := [.next value, .completed]

def ofSingle : Except ε α → List (Event ε α)
  | .ok value => just value
  | .error error => [.error error]

def followedBy : List (Event ε α) → List (Event ε α) → List (Event ε α)
  | [], _ => []
  | .next value :: events, rest => .next value :: followedBy events rest
  | .error error :: _, _ => [.error error]
  | .completed :: _, rest => rest

/-- `flatMap` with inner sequences that end before the outer one sends again, as those of `just`
do. -/
def flatMap (inner : α → List (Event ε β)) : List (Event ε α) → List (Event ε β)
  | [] => []
  | .next value :: events => followedBy (inner value) (flatMap inner events)
  | .error error :: _ => [.error error]
  | .completed :: _ => [.completed]

/-- `asSingle`, with the element it holds back until the source completes. The list is what its
observer receives. -/
def asSingle (rxError : RxError → ε) : Option α → List (Event ε α) → List (Except ε α)
  | _, [] => []
  | none, .next value :: events => asSingle rxError (some value) events
  | some _, .next _ :: _ => [.error (rxError .moreThanOneElement)]
  | _, .error error :: _ => [.error error]
  | none, .completed :: _ => [.error (rxError .noElements)]
  | some value, .completed :: _ => [.ok value]

@[simp]
theorem asSingle_ofSingle (rxError : RxError → ε) (result : Except ε α) :
    asSingle rxError none (ofSingle result) = [result] := by
  cases result <;> rfl

@[simp]
theorem asSingle_flatMap_just (rxError : RxError → ε) (transform : α → β)
    (result : Except ε α) :
    asSingle rxError none (flatMap (fun value => just (transform value)) (ofSingle result)) =
      [result.map transform] := by
  cases result <;> rfl

end Observable
