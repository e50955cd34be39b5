import PFXTexture.Library.Traversal
import PFXTexture.Proof.Response

/-!
# Missing keys

A repository object may lack any of its keys. Those of optional properties decode to `nil`. The
others are read with `decode`, which ignores the default the property declares and throws, and one
element that throws makes the whole page empty.
-/

namespace PFXTexture

open JSONDecoder Traversal

/-! ### What an object holds -/

section Keys

variable {α : Type} (unbox : Unbox α) (fields : List (String × JSON)) (key : String)

/-- The key is absent, or has a value of the right type. -/
def Carries : Option α → Prop
  | none => fields.lookup key = none
  | some value => ∃ json, fields.lookup key = some json ∧ json ≠ .null ∧ unbox key json = .ok value

/-- The key of an optional property may also be `null`. -/
def CarriesOptional : Option α → Prop
  | none => fields.lookup key = none ∨ fields.lookup key = some .null
  | some value => ∃ json, fields.lookup key = some json ∧ json ≠ .null ∧ unbox key json = .ok value

variable {unbox fields key} {held : Option α}

theorem decode_of_ne_null {json : JSON} (hlookup : fields.lookup key = some json)
    (hnull : json ≠ .null) : decode unbox fields key = unbox key json := by
  rw [decode, hlookup]
  cases json with
  | null => exact absurd rfl hnull
  | _ => rfl

theorem decodeIfPresent_of_absent
    (habsent : fields.lookup key = none ∨ fields.lookup key = some .null) :
    decodeIfPresent unbox fields key = .ok none := by
  rw [decodeIfPresent]
  rcases habsent with hlookup | hlookup <;> rw [hlookup]

theorem decodeIfPresent_of_ne_null {json : JSON} (hlookup : fields.lookup key = some json)
    (hnull : json ≠ .null) : decodeIfPresent unbox fields key = (unbox key json).map some := by
  rw [decodeIfPresent, hlookup]
  cases json with
  | null => exact absurd rfl hnull
  | _ => rfl

theorem Carries.decode_eq_ok_iff (hcarries : Carries unbox fields key held) {value : α} :
    decode unbox fields key = .ok value ↔ held = some value := by
  cases held with
  | none =>
      have hlookup : fields.lookup key = none := hcarries
      rw [decode, hlookup]
      exact iff_of_false (fun heq => by cases heq) fun heq => by cases heq
  | some present =>
      obtain ⟨json, hlookup, hnull, hunbox⟩ := hcarries
      rw [decode_of_ne_null hlookup hnull, hunbox, Except.ok.injEq, Option.some.injEq]

theorem CarriesOptional.decodeIfPresent_eq (hcarries : CarriesOptional unbox fields key held) :
    decodeIfPresent unbox fields key = .ok held := by
  cases held with
  | none => exact decodeIfPresent_of_absent hcarries
  | some present =>
      obtain ⟨json, hlookup, hnull, hunbox⟩ := hcarries
      rw [decodeIfPresent_of_ne_null hlookup hnull, hunbox]
      rfl

end Keys

structure OwnerKeys where
  login : Option String
  avatarUrl : Option URL

structure RepositoryKeys where
  id : Option Int
  owner : Option OwnerKeys
  fullName : Option String
  description : Option String
  isPrivate : Option Bool
  fork : Option Bool

/-- The values where present, and the declared defaults of `UserModel` where absent. -/
def OwnerKeys.model (keys : OwnerKeys) : UserModel where
  username := keys.login.getD ({} : UserModel).username
  profileURL := keys.avatarUrl

namespace RepositoryKeys

/-- The values where present, and the declared defaults of `RepositoryModel` where absent. -/
def model (keys : RepositoryKeys) : RepositoryModel where
  id := keys.id.getD ({} : RepositoryModel).id
  user := keys.owner.map OwnerKeys.model
  repositoryName := keys.fullName
  desc := keys.description
  isPrivate := keys.isPrivate.getD ({} : RepositoryModel).isPrivate
  isForked := keys.fork.getD ({} : RepositoryModel).isForked

/-- The keys that `decode` reads are there. -/
structure Complete (keys : RepositoryKeys) : Prop where
  id : keys.id.isSome = true
  isPrivate : keys.isPrivate.isSome = true
  fork : keys.fork.isSome = true
  login : ∀ owner, keys.owner = some owner → owner.login.isSome = true

end RepositoryKeys

section Elements

variable (urlOfString : String → Option URL)

/-- The value is an object whose present keys have the right types, with these values. -/
def UserHolds (value : JSON) (keys : OwnerKeys) : Prop :=
  ∃ fields, value = .object fields ∧ Carries unboxString fields "login" keys.login ∧
    CarriesOptional (unboxURL urlOfString) fields "avatar_url" keys.avatarUrl

def OwnerHolds (fields : List (String × JSON)) : Option OwnerKeys → Prop
  | none => fields.lookup "owner" = none ∨ fields.lookup "owner" = some .null
  | some owner => ∃ value, fields.lookup "owner" = some value ∧ UserHolds urlOfString value owner

def Holds (element : JSON) (keys : RepositoryKeys) : Prop :=
  ∃ fields, element = .object fields ∧ Carries unboxInt fields "id" keys.id ∧
    OwnerHolds urlOfString fields keys.owner ∧
    CarriesOptional unboxString fields "full_name" keys.fullName ∧
    CarriesOptional unboxString fields "description" keys.description ∧
    Carries unboxBool fields "private" keys.isPrivate ∧ Carries unboxBool fields "fork" keys.fork

variable {urlOfString}

theorem UserHolds.decode_eq_ok_iff {value : JSON} {keys : OwnerKeys}
    (hholds : UserHolds urlOfString value keys) {user : UserModel} :
    UserModel.decode urlOfString "owner" value = .ok user ↔
      keys.login.isSome = true ∧ user = keys.model := by
  obtain ⟨fields, rfl, hlogin, havatar⟩ := hholds
  simp only [UserModel.decode, container, bind_eq_ok_iff, hlogin.decode_eq_ok_iff,
    havatar.decodeIfPresent_eq, Except.ok.injEq, exists_eq_left', pure, Except.pure]
  constructor
  · rintro ⟨username, hpresent, rfl⟩
    rw [OwnerKeys.model, hpresent]
    exact ⟨rfl, rfl⟩
  · rintro ⟨hpresent, rfl⟩
    obtain ⟨username, hpresent⟩ := Option.isSome_iff_exists.mp hpresent
    refine ⟨username, hpresent, ?_⟩
    rw [OwnerKeys.model, hpresent]
    rfl

theorem OwnerHolds.decodeIfPresent_eq_ok_iff {fields : List (String × JSON)}
    {owner : Option OwnerKeys} (hholds : OwnerHolds urlOfString fields owner)
    {user : Option UserModel} :
    decodeIfPresent (UserModel.decode urlOfString) fields "owner" = .ok user ↔
      (∀ keys, owner = some keys → keys.login.isSome = true) ∧
        user = owner.map OwnerKeys.model := by
  cases owner with
  | none =>
      rw [decodeIfPresent_of_absent hholds, Except.ok.injEq, Option.map_none]
      constructor
      · rintro rfl
        exact ⟨fun keys hkeys => (Option.some_ne_none keys hkeys.symm).elim, rfl⟩
      · rintro ⟨-, rfl⟩
        rfl
  | some keys =>
      obtain ⟨value, hlookup, hvalue⟩ := hholds
      have hnull : value ≠ .null := by
        obtain ⟨fields, rfl, -⟩ := hvalue
        exact fun heq => by cases heq
      rw [decodeIfPresent_of_ne_null hlookup hnull, Option.map_some]
      cases hdecode : UserModel.decode urlOfString "owner" value with
      | error error =>
          apply iff_of_false
          · exact fun heq => by cases heq
          · rintro ⟨hpresent, -⟩
            have hok := hvalue.decode_eq_ok_iff.mpr ⟨hpresent keys rfl, rfl⟩
            rw [hdecode] at hok
            cases hok
      | ok decoded =>
          obtain ⟨hpresent, rfl⟩ := hvalue.decode_eq_ok_iff.mp hdecode
          have hlogin : ∀ other, some keys = some other → other.login.isSome = true := by
            intro other hother
            rw [← Option.some.inj hother]
            exact hpresent
          exact ⟨fun heq => ⟨hlogin, (Except.ok.inj heq).symm⟩, fun heq => by rw [heq.2]; rfl⟩

/-- An element decodes when it is complete, and then to its values. -/
theorem Holds.decode_eq_ok_iff {element : JSON} {keys : RepositoryKeys}
    (hholds : Holds urlOfString element keys) {model : RepositoryModel} :
    RepositoryModel.decode urlOfString "" element = .ok model ↔
      keys.Complete ∧ model = keys.model := by
  obtain ⟨fields, rfl, hid, howner, hname, hdesc, hprivate, hfork⟩ := hholds
  simp only [RepositoryModel.decode, container, bind_eq_ok_iff, hid.decode_eq_ok_iff,
    howner.decodeIfPresent_eq_ok_iff, hname.decodeIfPresent_eq, hdesc.decodeIfPresent_eq,
    hprivate.decode_eq_ok_iff, hfork.decode_eq_ok_iff, Except.ok.injEq, exists_eq_left', pure,
    Except.pure]
  constructor
  · rintro ⟨id, hid, user, ⟨hlogin, rfl⟩, isPrivate, hprivate, fork, hfork, rfl⟩
    refine ⟨⟨?_, ?_, ?_, hlogin⟩, ?_⟩
    · rw [hid, Option.isSome_some]
    · rw [hprivate, Option.isSome_some]
    · rw [hfork, Option.isSome_some]
    · simp only [RepositoryKeys.model, hid, hprivate, hfork, Option.getD_some]
  · rintro ⟨hcomplete, rfl⟩
    obtain ⟨id, hid⟩ := Option.isSome_iff_exists.mp hcomplete.id
    obtain ⟨isPrivate, hprivate⟩ := Option.isSome_iff_exists.mp hcomplete.isPrivate
    obtain ⟨fork, hfork⟩ := Option.isSome_iff_exists.mp hcomplete.fork
    refine ⟨id, hid, _, ⟨hcomplete.login, rfl⟩, isPrivate, hprivate, fork, hfork, ?_⟩
    simp only [RepositoryKeys.model, hid, hprivate, hfork, Option.getD_some]

/-- The decoder is all or nothing. -/
theorem decodeArray_eq_ok_iff {elements : List JSON} {keys : List RepositoryKeys}
    (hholds : List.Forall₂ (Holds urlOfString) elements keys) {models : List RepositoryModel} :
    decodeArray urlOfString (.array elements) = .ok models ↔
      (∀ key ∈ keys, key.Complete) ∧ models = keys.map RepositoryKeys.model :=
  mapM_eq_ok_iff_forall (fun _ _ hholds _ => hholds.decode_eq_ok_iff) hholds

end Elements

/-! ### A page -/

/-- **A page keeps its elements exactly when each of them has an `id`, `private`, `fork` and, in an
owner object, a `login`.** Otherwise the defaults are not used and the whole page is empty. -/
theorem generateArrayModel_eq_models_iff (platform : Platform) (data : platform.Data)
    (elements : List JSON) (keys : List RepositoryKeys)
    (hparse : platform.parse data = .array elements)
    (hholds : List.Forall₂ (Holds platform.urlOfString) elements keys) :
    generateArrayModel platform (decodeArray platform.urlOfString) [.ok data] =
        [.ok (keys.map RepositoryKeys.model)] ↔
      ∀ key ∈ keys, key.Complete := by
  rw [generateArrayModel_singleton]
  simp only [Except.map, hparse, List.cons.injEq, and_true, Except.ok.injEq]
  cases hholds with
  | nil => exact iff_of_true rfl (List.forall_mem_nil _)
  | cons hkeys hrest =>
      rw [toOption_getD_eq_iff (by rw [List.map_cons]; exact List.cons_ne_nil _ _),
        decodeArray_eq_ok_iff (List.Forall₂.cons hkeys hrest)]
      exact and_iff_left rfl

/-- A repository with every key that `decode` reads. -/
def completeElement : JSON :=
  .object [("id", .number 1), ("full_name", .string "mojombo/grit"),
    ("owner", .object [("login", .string "mojombo")]), ("private", .bool false),
    ("fork", .bool true)]

def completeKeys : RepositoryKeys where
  id := some 1
  owner := some { login := some "mojombo", avatarUrl := none }
  fullName := some "mojombo/grit"
  description := none
  isPrivate := some false
  fork := some true

/-- A repository without `private` and `fork`, whose properties declare a default. -/
def idElement : JSON := .object [("id", .number 26)]

def idKeys : RepositoryKeys where
  id := some 26
  owner := none
  fullName := none
  description := none
  isPrivate := none
  fork := none

theorem completeElement_holds (urlOfString : String → Option URL) :
    Holds urlOfString completeElement completeKeys := by
  refine ⟨_, rfl, ⟨_, rfl, ?_, rfl⟩, ⟨_, rfl, _, rfl, ⟨_, rfl, ?_, rfl⟩, .inl rfl⟩,
    ⟨_, rfl, ?_, rfl⟩, .inl rfl, ⟨_, rfl, ?_, rfl⟩, ⟨_, rfl, ?_, rfl⟩⟩
  all_goals exact fun heq => by cases heq

theorem idElement_holds (urlOfString : String → Option URL) :
    Holds urlOfString idElement idKeys := by
  refine ⟨_, rfl, ⟨_, rfl, ?_, rfl⟩, .inl rfl, .inl rfl, .inl rfl, rfl, rfl⟩
  exact fun heq => by cases heq

theorem generateArrayModel_eq_models_single :
    (generateArrayModel plainPlatform (decodeArray plainPlatform.urlOfString)
          [.ok (.array [completeElement])] =
        [.ok ([completeKeys].map RepositoryKeys.model)]) ∧
      ∀ key ∈ [completeKeys], key.Complete := by
  have hpage := generateArrayModel_eq_models_iff plainPlatform (.array [completeElement])
    [completeElement] [completeKeys] rfl (.cons (completeElement_holds _) .nil)
  have hcomplete : ∀ key ∈ [completeKeys], key.Complete := by
    intro key hkey
    rw [List.mem_singleton.mp hkey]
    refine ⟨rfl, rfl, rfl, ?_⟩
    intro owner howner
    rw [← Option.some.inj howner]
    rfl
  exact ⟨hpage.mpr hcomplete, hcomplete⟩

/-- One repository without `private` and `fork` empties the page of the other. -/
theorem incomplete_element_empties_page :
    List.Forall₂ (Holds plainPlatform.urlOfString) [completeElement, idElement]
        [completeKeys, idKeys] ∧
      generateArrayModel plainPlatform (decodeArray plainPlatform.urlOfString)
        [.ok (.array [completeElement, idElement])] = [.ok []] ∧
      generateArrayModel plainPlatform (decodeArray plainPlatform.urlOfString)
        [.ok (.array [completeElement, idElement])] ≠
          [.ok ([completeKeys, idKeys].map RepositoryKeys.model)] := by
  have hempty : generateArrayModel plainPlatform (decodeArray plainPlatform.urlOfString)
      [.ok (.array [completeElement, idElement])] = [.ok []] := rfl
  refine ⟨.cons (completeElement_holds _) (.cons (idElement_holds _) .nil), hempty, ?_⟩
  rw [hempty]
  intro heq
  cases heq

end PFXTexture
