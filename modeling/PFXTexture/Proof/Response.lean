import PFXTexture.Networks

/-!
# How a request ends

Four stages follow a request: serialising the value, the `Single`, reading the data back and the
`Single` again. For an array or an object they leave exactly one result.
-/

namespace PFXTexture

open Observable

/-- The response is an error, an array or an object. -/
def RequestOutcome.IsReadable : RequestOutcome → Prop
  | .error _ => True
  | .json _ value => value.isContainer = true

section Requests

variable (platform : Platform) (requestJSON : URL → Option Parameters → RequestOutcome)
  {url : URL} {address : String} {params : Option Parameters}

theorem nextHandler_of_isContainer (statusCode : Nat) {value : JSON}
    (hvalue : value.isContainer = true) :
    ∃ data, platform.parse data = value ∧
      Network.nextHandler platform statusCode value = some (ofSingle (.ok data)) := by
  obtain ⟨data, hserialize, hparse⟩ := platform.parse_serialize value hvalue
  refine ⟨data, hparse, ?_⟩
  rw [Network.nextHandler, JSONSerialization.data, if_pos hvalue, hserialize]
  rfl

theorem get_of_error {error : LoadError} (hurl : platform.urlOfString address = some url)
    (hresponse : requestJSON url params = .error error) :
    Network.get platform requestJSON address params = some [.error error] := by
  simp only [Network.get, hurl, hresponse]
  rfl

theorem get_of_json {statusCode : Nat} {value : JSON}
    (hurl : platform.urlOfString address = some url)
    (hresponse : requestJSON url params = .json statusCode value)
    (hvalue : value.isContainer = true) :
    ∃ data, platform.parse data = value ∧
      Network.get platform requestJSON address params = some [.ok data] := by
  obtain ⟨data, hparse, hhandler⟩ := nextHandler_of_isContainer platform statusCode hvalue
  refine ⟨data, hparse, ?_⟩
  simp only [Network.get, hurl, hresponse, hhandler, Option.map_some, asSingle_ofSingle]

theorem generateArrayModel_singleton {Model : Type}
    (decode : JSON → Except DecodingError (List Model))
    (result : Except LoadError platform.Data) :
    generateArrayModel platform decode [result] =
      [result.map fun data => (decode (platform.parse data)).toOption.getD []] := by
  rw [generateArrayModel, List.flatMap_singleton, asSingle_flatMap_just]

/-- **A request ends exactly once**: with the error of the transport, with the repositories of an
array that decodes, and with an empty page for any other array or object. -/
theorem loadRepository_ends (platform : Platform)
    (requestJSON : URL → Option Parameters → RequestOutcome) (params : Option (List GithubParam))
    (url : URL) (hurl : platform.urlOfString Route.basePath.path = some url)
    (hreadable : (requestJSON url (Route.parameters params)).IsReadable) :
    ∃ result, GithubService.loadRepository platform requestJSON params = some [result] ∧
      (∀ error, result = .error error ↔ requestJSON url (Route.parameters params) = .error error) ∧
      ∀ statusCode value, requestJSON url (Route.parameters params) = .json statusCode value →
        (∀ models, decodeArray platform.urlOfString value = .ok models → result = .ok models) ∧
        ∀ error, decodeArray platform.urlOfString value = .error error → result = .ok [] := by
  cases hresponse : requestJSON url (Route.parameters params) with
  | error error =>
      refine ⟨.error error, ?_, ?_, fun _ _ heq => by cases heq⟩
      · rw [GithubService.loadRepository, get_of_error platform requestJSON hurl hresponse,
          Option.map_some, generateArrayModel_singleton]
        rfl
      · intro other
        rw [Except.error.injEq, RequestOutcome.error.injEq]
  | json statusCode value =>
      rw [hresponse] at hreadable
      obtain ⟨data, hparse, hget⟩ := get_of_json platform requestJSON hurl hresponse hreadable
      refine ⟨.ok ((decodeArray platform.urlOfString value).toOption.getD []), ?_, ?_, ?_⟩
      · rw [GithubService.loadRepository, hget, Option.map_some, generateArrayModel_singleton,
          ← hparse]
        rfl
      · intro error
        exact iff_of_false (fun heq => by cases heq) fun heq => by cases heq
      · intro _ _ heq
        obtain ⟨rfl, rfl⟩ := RequestOutcome.json.inj heq
        constructor
        · intro models hdecode
          rw [hdecode]
          rfl
        · intro error hdecode
          rw [hdecode]
          rfl

end Requests

/-! ### A rate limit -/

/-- A platform whose data is the value itself. -/
def plainPlatform : Platform where
  Data := JSON
  urlOfString := fun address => some ⟨address⟩
  serialize := .ok
  parse := id
  parse_serialize := fun value _ => ⟨value, rfl, rfl⟩

def rateLimited : URL → Option Parameters → RequestOutcome :=
  fun _ _ => .json 403 (.object [("message", .string "API rate limit exceeded")])

theorem loadRepository_ends_rateLimited :
    ∃ result, GithubService.loadRepository plainPlatform rateLimited none = some [result] ∧
      result = .ok [] := by
  obtain ⟨result, hends, -, hvalue⟩ := loadRepository_ends plainPlatform rateLimited none _ rfl rfl
  exact ⟨result, hends, (hvalue _ _ rfl).2 _ rfl⟩

/-- An error object is reported as an empty page. -/
theorem rateLimited_not_error :
    (∀ models, decodeArray plainPlatform.urlOfString
        (.object [("message", .string "API rate limit exceeded")]) ≠ .ok models) ∧
      GithubService.loadRepository plainPlatform rateLimited none = some [.ok []] ∧
      ¬∃ error, GithubService.loadRepository plainPlatform rateLimited none =
        some [.error error] := by
  refine ⟨?_, rfl, ?_⟩
  · intro models heq
    cases heq
  · rintro ⟨error, heq⟩
    cases heq

end PFXTexture
