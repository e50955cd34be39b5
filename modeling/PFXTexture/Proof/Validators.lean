import PFXTexture.StringExtensions

/-!
# What the validators accept

The count of a string is too short a range in UTF-16 units when a character has several scalars. The
matches then fill the range although scalars follow it, so the last character may carry anything.
-/

namespace PFXTexture

variable {filter : CharacterClass} {string : List Character} {character : Character}

/-! ### Classes -/

theorem contains_iff {scalar : Char} :
    filter.contains scalar = true ↔
      ∃ range ∈ filter.ranges, range.1 ≤ scalar ∧ scalar ≤ range.2 := by
  rw [CharacterClass.contains, List.any_eq_true]
  simp only [Bool.and_eq_true, decide_eq_true_eq]

/-- The class only has letters, digits, spaces and Hangul that `stringFilter` has too. -/
def Within (filter : CharacterClass) : Prop :=
  ∀ scalar, filter.contains scalar = true → stringFilter.contains scalar = true

theorem within_stringFilter : Within stringFilter := fun _ hscalar => hscalar

theorem within_phoneFilter : Within phoneFilter := by
  intro scalar hscalar
  obtain ⟨range, hrange, hle⟩ := contains_iff.mp hscalar
  refine contains_iff.mpr ⟨range, ?_, hle⟩
  rw [List.mem_singleton.mp hrange]
  decide

theorem utf16Count_pos (scalar : Char) : 0 < utf16Count scalar := by
  rw [utf16Count]
  split <;> decide

theorem Within.utf16Count_eq_one (hwithin : Within filter) {scalar : Char}
    (hscalar : filter.contains scalar = true) : utf16Count scalar = 1 := by
  obtain ⟨range, hrange, -, hle⟩ := contains_iff.mp (hwithin scalar hscalar)
  have hplane : ∀ range ∈ stringFilter.ranges, range.2.toNat < 0x10000 := by decide
  have htoNat : scalar.toNat ≤ range.2.toNat := hle
  exact if_pos (Nat.lt_of_le_of_lt htoNat (hplane range hrange))

/-! ### Matches in a range -/

section Matches

variable {limit offset : Nat} {scalar : Char} {scalars : List Char}

theorem matchesFrom_of_le (hle : limit ≤ offset) :
    matchesFrom filter ⟨0, limit⟩ offset scalars = [] := by
  induction scalars generalizing offset with
  | nil => rfl
  | cons scalar rest ih =>
      have hpos := utf16Count_pos scalar
      have hnext : limit ≤ offset + utf16Count scalar := by omega
      rw [matchesFrom, if_neg (by simp only [Nat.zero_add]; omega)]
      exact ih hnext

theorem matchesFrom_length_le :
    (matchesFrom filter ⟨0, limit⟩ offset scalars).length ≤ limit - offset := by
  induction scalars generalizing offset with
  | nil => exact Nat.zero_le _
  | cons scalar rest ih =>
      have hpos := utf16Count_pos scalar
      have hrest := @ih (offset + utf16Count scalar)
      rw [matchesFrom]
      split
      case isTrue hmatch =>
          have hnext : offset + utf16Count scalar ≤ limit := by
            simpa only [Nat.zero_add] using hmatch.2.2
          rw [List.length_cons]
          omega
      case isFalse => omega

/-- The matches fill the range exactly when it begins with so many scalars of the class. -/
theorem Within.matchesFrom_length_eq_iff (hwithin : Within filter) {count : Nat} :
    (matchesFrom filter ⟨0, offset + count⟩ offset scalars).length = count ↔
      count ≤ scalars.length ∧ ∀ scalar ∈ scalars.take count, filter.contains scalar = true := by
  induction scalars generalizing offset count with
  | nil =>
      rw [matchesFrom, List.take_nil, List.length_nil]
      constructor
      · rintro rfl
        exact ⟨Nat.le_refl 0, List.forall_mem_nil _⟩
      · exact fun hcount => (Nat.le_zero.mp hcount.1).symm
  | cons scalar rest ih =>
      cases count with
      | zero =>
          rw [@matchesFrom_of_le filter (offset + 0) offset _ (Nat.le_refl offset)]
          exact iff_of_true rfl ⟨Nat.zero_le _, List.forall_mem_nil _⟩
      | succ count =>
          rw [matchesFrom, List.take_succ_cons, List.forall_mem_cons, List.length_cons,
            Nat.succ_le_succ_iff]
          by_cases hscalar : filter.contains scalar = true
          · have hone := hwithin.utf16Count_eq_one hscalar
            have hrange : offset + (count + 1) = offset + 1 + count := by omega
            rw [if_pos ⟨hscalar, Nat.zero_le _, by simp only [hone, Nat.zero_add]; omega⟩,
              List.length_cons, Nat.succ_inj, hone, hrange, ih, and_iff_right hscalar]
          · have hpos := utf16Count_pos scalar
            have hle := @matchesFrom_length_le filter (offset + (count + 1))
              (offset + utf16Count scalar) rest
            rw [if_neg fun hmatch => hscalar hmatch.1]
            exact iff_of_false (by omega) fun hall => hscalar hall.2.1

end Matches

/-! ### Characters -/

theorem length_le_length_unicodeScalars : string.length ≤ (unicodeScalars string).length := by
  induction string with
  | nil => exact Nat.le_refl 0
  | cons character rest ih =>
      have hpos := List.length_pos_of_ne_nil character.nonempty
      rw [unicodeScalars, List.flatMap_cons, List.length_append, List.length_cons]
      rw [unicodeScalars] at ih
      omega

theorem length_le_utf16Length (scalars : List Char) : scalars.length ≤ utf16Length scalars := by
  induction scalars with
  | nil => exact Nat.le_refl 0
  | cons scalar rest ih =>
      have hpos := utf16Count_pos scalar
      rw [utf16Length, List.length_cons]
      omega

/-- The range never leaves the string. -/
theorem matchesIn_count (filter : CharacterClass) (string : List Character) :
    matchesIn filter (unicodeScalars string) ⟨0, string.length⟩ =
      some (matchesFrom filter ⟨0, string.length⟩ 0 (unicodeScalars string)) := by
  have hcount := Nat.le_trans (@length_le_length_unicodeScalars string)
    (length_le_utf16Length (unicodeScalars string))
  rw [matchesIn, if_pos (by rwa [Nat.zero_add])]

theorem Within.hasMatchPerCharacter_iff (hwithin : Within filter) :
    hasMatchPerCharacter filter string = some true ↔
      ∀ scalar ∈ (unicodeScalars string).take string.length, filter.contains scalar = true := by
  have hmatches := @Within.matchesFrom_length_eq_iff filter 0 (unicodeScalars string) hwithin
    string.length
  rw [Nat.zero_add] at hmatches
  rw [hasMatchPerCharacter, matchesIn_count, Option.map_some, Option.some.injEq, beq_iff_eq,
    hmatches, and_iff_right length_le_length_unicodeScalars]

/-- The character is one scalar of the class. -/
def Single (filter : CharacterClass) (character : Character) : Prop :=
  ∃ scalar, character.scalars = [scalar] ∧ filter.contains scalar = true

/-- The character is a scalar of the class that further scalars are joined to. -/
def Joined (filter : CharacterClass) (character : Character) : Prop :=
  ∃ scalar marks, character.scalars = scalar :: marks ∧ filter.contains scalar = true ∧ marks ≠ []

/-- All characters but the last are single scalars of the class, and the last is joined. -/
def EndsJoined (filter : CharacterClass) (string : List Character) : Prop :=
  ∃ front last, string = front ++ [last] ∧ (∀ character ∈ front, Single filter character) ∧
    Joined filter last

theorem endsJoined_singleton : EndsJoined filter [character] ↔ Joined filter character := by
  constructor
  · rintro ⟨front, last, hstring, -, hlast⟩
    rw [← List.nil_append [character], List.append_singleton_inj] at hstring
    rw [hstring.2]
    exact hlast
  · intro hjoined
    exact ⟨[], character, rfl, List.forall_mem_nil _, hjoined⟩

theorem endsJoined_cons_cons {next : Character} :
    EndsJoined filter (character :: next :: string) ↔
      Single filter character ∧ EndsJoined filter (next :: string) := by
  constructor
  · rintro ⟨front, last, hstring, hfront, hlast⟩
    cases front with
    | nil => cases hstring
    | cons head front =>
        obtain ⟨rfl, hrest⟩ := List.cons.inj hstring
        rw [List.forall_mem_cons] at hfront
        exact ⟨hfront.1, front, last, hrest, hfront.2, hlast⟩
  · rintro ⟨hsingle, front, last, hrest, hfront, hlast⟩
    refine ⟨character :: front, last, ?_, List.forall_mem_cons.mpr ⟨hsingle, hfront⟩, hlast⟩
    rw [hrest, List.cons_append]

/-- Two scalars of the class in a row belong to different characters. -/
theorem Within.not_contains_next (hwithin : Within filter) {scalar next : Char} {rest : List Char}
    (hscalars : character.scalars = scalar :: next :: rest)
    (hscalar : filter.contains scalar = true) : ¬filter.contains next = true := by
  have hseparated := character.separated
  rw [hscalars, List.isChain_cons_cons] at hseparated
  exact fun hnext => hseparated.1 ⟨hwithin scalar hscalar, hwithin next hnext⟩

theorem Within.single_iff (hwithin : Within filter) :
    Single filter character ↔ ∀ scalar ∈ character.scalars, filter.contains scalar = true := by
  constructor
  · rintro ⟨scalar, hscalars, hscalar⟩
    rw [hscalars, List.forall_mem_singleton]
    exact hscalar
  · intro hall
    cases hscalars : character.scalars with
    | nil => exact (character.nonempty hscalars).elim
    | cons scalar marks =>
        rw [hscalars, List.forall_mem_cons] at hall
        cases marks with
        | nil => exact ⟨scalar, hscalars, hall.1⟩
        | cons next rest =>
            have hnext := hall.2 next (List.mem_cons_self)
            exact (hwithin.not_contains_next hscalars hall.1 hnext).elim

/-- Every scalar of the string is in the class when every character is a single one. -/
theorem Within.forall_single_iff (hwithin : Within filter) :
    (∀ character ∈ string, Single filter character) ↔
      ∀ scalar ∈ unicodeScalars string, filter.contains scalar = true := by
  simp only [hwithin.single_iff, unicodeScalars, List.mem_flatMap]
  constructor
  · rintro hall scalar ⟨character, hcharacter, hscalar⟩
    exact hall character hcharacter scalar hscalar
  · intro hall character hcharacter scalar hscalar
    exact hall scalar ⟨character, hcharacter, hscalar⟩

/-- A character before another one is reached whole. -/
theorem Within.forall_take_append_iff (hwithin : Within filter) {scalars : List Char}
    {count : Nat} :
    (∀ scalar ∈ (character.scalars ++ scalars).take (count + 2), filter.contains scalar = true) ↔
      Single filter character ∧
        ∀ scalar ∈ scalars.take (count + 1), filter.contains scalar = true := by
  cases hscalars : character.scalars with
  | nil => exact (character.nonempty hscalars).elim
  | cons scalar marks =>
      cases marks with
      | nil =>
          rw [hwithin.single_iff, hscalars, List.forall_mem_singleton, List.singleton_append,
            List.take_succ_cons, List.forall_mem_cons]
      | cons next rest =>
          rw [hwithin.single_iff, hscalars, List.cons_append, List.take_succ_cons, List.cons_append,
            List.take_succ_cons, List.forall_mem_cons, List.forall_mem_cons]
          apply iff_of_false
          · rintro ⟨hscalar, hnext, -⟩
            exact hwithin.not_contains_next hscalars hscalar hnext
          · rintro ⟨hall, -⟩
            exact hwithin.not_contains_next hscalars (hall scalar List.mem_cons_self)
              (hall next (List.mem_cons_of_mem scalar List.mem_cons_self))

/-- Of the last character only the first scalar is reached. -/
theorem forall_take_one_iff :
    (∀ scalar ∈ character.scalars.take 1, filter.contains scalar = true) ↔
      Single filter character ∨ Joined filter character := by
  cases hscalars : character.scalars with
  | nil => exact (character.nonempty hscalars).elim
  | cons scalar marks =>
      rw [List.take_succ_cons, List.take_zero, List.forall_mem_singleton]
      constructor
      · intro hscalar
        by_cases hmarks : marks = []
        · rw [hmarks] at hscalars
          exact .inl ⟨scalar, hscalars, hscalar⟩
        · exact .inr ⟨scalar, marks, hscalars, hscalar, hmarks⟩
      · rintro (⟨first, hfirst, hscalar⟩ | ⟨first, others, hfirst, hscalar, -⟩)
        · rw [hscalars] at hfirst
          rwa [(List.cons.inj hfirst).1]
        · rw [hscalars] at hfirst
          rwa [(List.cons.inj hfirst).1]

/-- The range reaches as many scalars as there are characters. If they are all in the class, only
the last character can have a scalar it does not reach. -/
theorem Within.forall_take_iff (hwithin : Within filter) (hstring : string ≠ []) :
    (∀ scalar ∈ (unicodeScalars string).take string.length, filter.contains scalar = true) ↔
      (∀ character ∈ string, Single filter character) ∨ EndsJoined filter string := by
  induction string with
  | nil => exact (hstring rfl).elim
  | cons character rest ih =>
      cases rest with
      | nil =>
          rw [List.forall_mem_singleton, endsJoined_singleton, ← forall_take_one_iff,
            unicodeScalars, List.flatMap_singleton]
          rfl
      | cons next others =>
          have hnext := ih (List.cons_ne_nil next others)
          rw [endsJoined_cons_cons, List.forall_mem_cons, ← and_or_left, ← hnext]
          exact hwithin.forall_take_append_iff

theorem Joined.not_single (hjoined : Joined filter character) : ¬Single filter character := by
  obtain ⟨scalar, marks, hscalars, -, hmarks⟩ := hjoined
  rintro ⟨other, hother, -⟩
  rw [hscalars] at hother
  exact hmarks (List.cons.inj hother).2

theorem EndsJoined.not_forall_single (hends : EndsJoined filter string) :
    ¬∀ character ∈ string, Single filter character := by
  obtain ⟨front, last, rfl, -, hlast⟩ := hends
  exact fun hall => hlast.not_single (hall last (List.mem_append_right front List.mem_cons_self))

/-! ### The validators -/

theorem Within.length_unicodeScalars (hwithin : Within filter)
    (hall : ∀ scalar ∈ unicodeScalars string, filter.contains scalar = true) :
    (unicodeScalars string).length = string.length := by
  rw [← hwithin.forall_single_iff] at hall
  rw [unicodeScalars, List.length_flatMap]
  have hones : ∀ character ∈ string, character.scalars.length = 1 := by
    intro character hmem
    obtain ⟨scalar, hscalars, -⟩ := hall character hmem
    rw [hscalars, List.length_singleton]
  rw [List.map_congr_left hones, List.map_const', List.sum_replicate_nat, Nat.mul_one]

theorem validString_eq_true_iff :
    validString string = some true ↔ string ≠ [] ∧
      ((∀ scalar ∈ unicodeScalars string, stringFilter.contains scalar = true) ∨
        EndsJoined stringFilter string) := by
  rw [validString]
  by_cases hempty : string = []
  · rw [if_pos (List.length_eq_zero_iff.mpr hempty)]
    exact iff_of_false (by decide) fun hvalid => hvalid.1 hempty
  · rw [if_neg fun hlength => hempty (List.length_eq_zero_iff.mp hlength),
      within_stringFilter.hasMatchPerCharacter_iff, within_stringFilter.forall_take_iff hempty,
      within_stringFilter.forall_single_iff, and_iff_right hempty]

theorem validPhoneString_eq_true_iff :
    validPhoneString string = some true ↔ string.length = 11 ∧
      ((∀ scalar ∈ unicodeScalars string, phoneFilter.contains scalar = true) ∨
        EndsJoined phoneFilter string) := by
  rw [validPhoneString]
  by_cases hlength : string.length = 11
  · have hempty : string ≠ [] := by
      rintro rfl
      cases hlength
    rw [if_neg (not_not_intro hlength), within_phoneFilter.hasMatchPerCharacter_iff,
      within_phoneFilter.forall_take_iff hempty, within_phoneFilter.forall_single_iff,
      and_iff_right hlength]
  · rw [if_pos hlength]
    exact iff_of_false (by decide) fun hvalid => hlength hvalid.1

/-- An extra way to accept changes nothing where it cannot be taken. -/
theorem and_or_iff_and_iff {guard expected extra : Prop} (hextra : extra → ¬expected) :
    (guard ∧ (expected ∨ extra) ↔ guard ∧ expected) ↔ ¬(guard ∧ extra) := by
  constructor
  · rintro hagree ⟨hguard, htaken⟩
    exact hextra htaken (hagree.mp ⟨hguard, .inr htaken⟩).2
  · rintro hextra
    refine and_congr_right fun hguard => or_iff_left fun htaken => hextra ⟨hguard, htaken⟩

/-- **A validator accepts exactly its alphabet, except for a string whose last character joins
further scalars to one of the alphabet**, all characters before it being single scalars of it. -/
theorem validators_iff (string : List Character) :
    ((validString string = some true ↔ string ≠ [] ∧
        ∀ scalar ∈ unicodeScalars string, stringFilter.contains scalar = true) ↔
      ¬EndsJoined stringFilter string) ∧
    ((validPhoneString string = some true ↔ (unicodeScalars string).length = 11 ∧
        ∀ scalar ∈ unicodeScalars string, phoneFilter.contains scalar = true) ↔
      ¬(string.length = 11 ∧ EndsJoined phoneFilter string)) := by
  constructor
  · have hnonempty : EndsJoined stringFilter string → string ≠ [] := by
      rintro ⟨front, last, rfl, -, -⟩
      exact List.append_ne_nil_of_right_ne_nil front (List.cons_ne_nil last [])
    rw [validString_eq_true_iff, and_or_iff_and_iff, and_iff_right_of_imp hnonempty]
    rw [← within_stringFilter.forall_single_iff]
    exact EndsJoined.not_forall_single
  · have hcount : ((unicodeScalars string).length = 11 ∧
          ∀ scalar ∈ unicodeScalars string, phoneFilter.contains scalar = true) ↔
        (string.length = 11 ∧
          ∀ scalar ∈ unicodeScalars string, phoneFilter.contains scalar = true) := by
      apply and_congr_left
      intro hall
      rw [within_phoneFilter.length_unicodeScalars hall]
    rw [validPhoneString_eq_true_iff, hcount, and_or_iff_and_iff]
    rw [← within_phoneFilter.forall_single_iff]
    exact EndsJoined.not_forall_single

def plainCharacter (scalar : Char) : Character where
  scalars := [scalar]
  nonempty := List.cons_ne_nil scalar []
  separated := .singleton scalar

/-- A digit or letter under a combining acute accent. -/
def accented (scalar : Char) : Character where
  scalars := [scalar, '\u0301']
  nonempty := List.cons_ne_nil scalar _
  separated := by
    refine List.isChain_cons_cons.mpr ⟨?_, .singleton _⟩
    have haccent : stringFilter.contains '\u0301' = false := by decide
    rw [haccent]
    exact fun hboth => Bool.false_ne_true hboth.2

/-- The accent gets through both validators. -/
theorem accent_is_valid :
    validString [accented 'a'] = some true ∧
      ¬(∀ scalar ∈ unicodeScalars [accented 'a'], stringFilter.contains scalar = true) ∧
      validPhoneString (List.replicate 10 (plainCharacter '0') ++ [accented '0']) = some true ∧
      (unicodeScalars (List.replicate 10 (plainCharacter '0') ++ [accented '0'])).length = 12 := by
  have haccent : stringFilter.contains '\u0301' = false := by decide
  refine ⟨by decide, ?_, by decide +kernel, rfl⟩
  intro hall
  have hcontains := hall '\u0301' (by decide)
  rw [haccent] at hcontains
  exact Bool.false_ne_true hcontains

end PFXTexture
