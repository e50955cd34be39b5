import Mathlib.Data.List.Basic

/-!
# String validators

`validString` and `validPhoneString` of `Extensions/String+Extentions.swift`. A string is its list
of characters, which are the extended grapheme clusters that `count` counts. Foundation sees its
Unicode scalars and measures ranges in UTF-16 units. A pattern is one character class, given by the
ranges it lists.
-/

namespace PFXTexture

structure CharacterClass where
  ranges : List (Char × Char)

def CharacterClass.contains (filter : CharacterClass) (scalar : Char) : Bool :=
  filter.ranges.any fun range => range.1 ≤ scalar && scalar ≤ range.2

/-- `[a-zA-Z0-9가-힣ㄱ-ㅎㅏ-ㅣ ]` -/
def stringFilter : CharacterClass where
  ranges := [('a', 'z'), ('A', 'Z'), ('0', '9'), ('가', '힣'), ('ㄱ', 'ㅎ'), ('ㅏ', 'ㅣ'), (' ', ' ')]

/-- `[0-9]` -/
def phoneFilter : CharacterClass where
  ranges := [('0', '9')]

/-- Grapheme segmentation puts a boundary between any two letters, digits, spaces, Hangul syllables
or compatibility jamo, so two scalars of `stringFilter` never meet inside one character. -/
structure Character where
  scalars : List Char
  nonempty : scalars ≠ []
  separated : scalars.IsChain fun scalar next =>
    ¬(stringFilter.contains scalar = true ∧ stringFilter.contains next = true)

def unicodeScalars (string : List Character) : List Char :=
  string.flatMap Character.scalars

/-! ### `NSRegularExpression` -/

def utf16Count (scalar : Char) : Nat :=
  if scalar.toNat < 0x10000 then 1 else 2

/-- `NSString.length` -/
def utf16Length : List Char → Nat
  | [] => 0
  | scalar :: rest => utf16Count scalar + utf16Length rest

structure NSRange where
  location : Nat
  length : Nat
  deriving DecidableEq, Repr

/-- One match for each scalar of the class inside the range, from `offset` on. -/
def matchesFrom (filter : CharacterClass) (range : NSRange) : Nat → List Char → List NSRange
  | _, [] => []
  | offset, scalar :: rest =>
      let next := offset + utf16Count scalar
      if filter.contains scalar ∧ range.location ≤ offset ∧
          next ≤ range.location + range.length then
        ⟨offset, utf16Count scalar⟩ :: matchesFrom filter range next rest
      else
        matchesFrom filter range next rest

/-- A range that leaves the string raises an exception. -/
def matchesIn (filter : CharacterClass) (scalars : List Char) (range : NSRange) :
    Option (List NSRange) :=
  if range.location + range.length ≤ utf16Length scalars then
    some (matchesFrom filter range 0 scalars)
  else
    none

/-! ### The validators -/

/-- What both validators do after their check of `count`. -/
def hasMatchPerCharacter (filter : CharacterClass) (string : List Character) : Option Bool :=
  (matchesIn filter (unicodeScalars string) ⟨0, string.length⟩).map fun list =>
    list.length == string.length

def validString (string : List Character) (filter : CharacterClass := stringFilter) : Option Bool :=
  if string.length = 0 then some false else hasMatchPerCharacter filter string

def validPhoneString (string : List Character) (filter : CharacterClass := phoneFilter) :
    Option Bool :=
  if string.length ≠ 11 then some false else hasMatchPerCharacter filter string

end PFXTexture
