import Mathlib.Data.Rat.Defs
import Mathlib.Algebra.Ring.Int.Defs
import Mathlib.Data.List.Basic

/-!
# Response models and their decoding

The models of `Scenes/Repositories/Models` and the `init(from:)` the compiler synthesises for them.
A stored property that is not optional is read with `decode`, whatever default it declares, and an
optional one with `decodeIfPresent`. An array decodes when all its elements do. `URL(string:)`
belongs to the platform and is a parameter.
-/

namespace PFXTexture

inductive JSON where
  | null
  | bool (value : Bool)
  | number (value : ℚ)
  | string (value : String)
  | array (elements : List JSON)
  | object (fields : List (String × JSON))

def JSON.isContainer : JSON → Bool
  | .array _ | .object _ => true
  | .null | .bool _ | .number _ | .string _ => false

structure URL where
  absoluteString : String
  deriving DecidableEq, Repr

structure UserModel where
  username : String := ""
  profileURL : Option URL := none
  deriving DecidableEq, Repr

structure RepositoryModel where
  id : Int := -1
  user : Option UserModel := none
  repositoryName : Option String := none
  desc : Option String := none
  isPrivate : Bool := false
  isForked : Bool := false
  deriving DecidableEq, Repr

inductive DecodingError where
  | keyNotFound (key : String)
  | valueNotFound (key : String)
  | typeMismatch (key : String)
  | dataCorrupted (key : String)
  deriving DecidableEq, Repr

namespace JSONDecoder

abbrev Unbox (α : Type) := String → JSON → Except DecodingError α

def unboxInt : Unbox Int := fun key value =>
  match value with
  | .number number =>
      -- a number is a 64-bit `Int` when it is integral and in range
      if number.den = 1 ∧ -2 ^ 63 ≤ number.num ∧ number.num < 2 ^ 63 then
        .ok number.num
      else
        .error (.dataCorrupted key)
  | _ => .error (.typeMismatch key)

def unboxBool : Unbox Bool := fun key value =>
  match value with
  | .bool value => .ok value
  | _ => .error (.typeMismatch key)

def unboxString : Unbox String := fun key value =>
  match value with
  | .string value => .ok value
  | _ => .error (.typeMismatch key)

def unboxURL (urlOfString : String → Option URL) : Unbox URL := fun key value =>
  match value with
  | .string string =>
      match urlOfString string with
      | some url => .ok url
      | none => .error (.dataCorrupted key)
  | _ => .error (.typeMismatch key)

def decode {α : Type} (unbox : Unbox α) (fields : List (String × JSON)) (key : String) :
    Except DecodingError α :=
  match fields.lookup key with
  | none => .error (.keyNotFound key)
  | some .null => .error (.valueNotFound key)
  | some value => unbox key value

def decodeIfPresent {α : Type} (unbox : Unbox α) (fields : List (String × JSON)) (key : String) :
    Except DecodingError (Option α) :=
  match fields.lookup key with
  | none | some .null => .ok none
  | some value => (unbox key value).map some

def container (key : String) : JSON → Except DecodingError (List (String × JSON))
  | .object fields => .ok fields
  | .null => .error (.valueNotFound key)
  | _ => .error (.typeMismatch key)

end JSONDecoder

section Decodable

open JSONDecoder

variable (urlOfString : String → Option URL)

def UserModel.decode : Unbox UserModel := fun key value => do
  let fields ← container key value
  let username ← JSONDecoder.decode unboxString fields "login"
  let profileURL ← decodeIfPresent (unboxURL urlOfString) fields "avatar_url"
  pure { username, profileURL }

def RepositoryModel.decode : Unbox RepositoryModel := fun key value => do
  let fields ← container key value
  let id ← JSONDecoder.decode unboxInt fields "id"
  let user ← decodeIfPresent (UserModel.decode urlOfString) fields "owner"
  let repositoryName ← decodeIfPresent unboxString fields "full_name"
  let desc ← decodeIfPresent unboxString fields "description"
  let isPrivate ← JSONDecoder.decode unboxBool fields "private"
  let isForked ← JSONDecoder.decode unboxBool fields "fork"
  pure { id, user, repositoryName, desc, isPrivate, isForked }

def decodeArray : JSON → Except DecodingError (List RepositoryModel)
  | .array elements => elements.mapM (RepositoryModel.decode urlOfString "")
  | .null => .error (.valueNotFound "")
  | _ => .error (.typeMismatch "")

end Decodable

example : (decodeArray (fun _ => none) (.array [.object [("id", .number 7), ("private", .bool true),
    ("fork", .bool false)]])).toOption = some [{ id := 7, isPrivate := true }] := by
  decide +kernel

end PFXTexture
