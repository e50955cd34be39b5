import PFXTexture.Models
import PFXTexture.Library.Observable

/-!
# Requests

`Networks/Network.swift`, `Networks/RepoService.swift` and `generateArrayModel` of
`Extensions/Decoder+Extension.swift`. What a `Single` delivers to its observer is a list of
results; `none` in its place is a trap that stops the program.
-/

namespace PFXTexture

open Observable

inductive GithubParam where
  | since (value : Option Int)
  deriving DecidableEq, Repr

def GithubParam.key : GithubParam → String
  | .since _ => "since"

def GithubParam.value : GithubParam → Option Int
  | .since value => value

abbrev Parameters := List (String × Int)

def Parameters.set (result : Parameters) (key : String) (value : Option Int) : Parameters :=
  -- assigning `nil` under a key removes it
  let others := result.filter fun entry => entry.1 ≠ key
  match value with
  | some value => others ++ [(key, value)]
  | none => others

inductive Route where
  | basePath

def Route.path : Route → String
  | .basePath => "https://api.github.com/repositories"

def Route.parameters : Option (List GithubParam) → Option Parameters
  | none => none
  | some params =>
      let result : Parameters :=
        params.foldl (fun result param => Parameters.set result param.key param.value) []
      if result.isEmpty then none else some result

@[simp]
theorem Route.parameters_since_none : Route.parameters (some [.since none]) = none := rfl

@[simp]
theorem Route.parameters_since_some (value : Int) :
    Route.parameters (some [.since (some value)]) = some [("since", value)] := rfl

inductive LoadError where
  | request (description : String)
  | nsError (domain : String) (code : Int)
  | rx (error : RxError)
  deriving DecidableEq, Repr

/-- What `RxAlamofire.requestJSON` delivers: one error, or the response and one JSON value. -/
inductive RequestOutcome where
  | error (error : LoadError)
  | json (statusCode : Nat) (value : JSON)

/-- The platform functions the request goes through. Serialising an array or an object gives data
that reads back as the same value. -/
structure Platform where
  Data : Type
  urlOfString : String → Option URL
  serialize : JSON → Except String Data
  parse : Data → JSON
  parse_serialize : ∀ value, value.isContainer = true →
    ∃ data, serialize value = .ok data ∧ parse data = value

section Requests

variable (platform : Platform) (requestJSON : URL → Option Parameters → RequestOutcome)

/-- `JSONSerialization.data(withJSONObject:)`: a top-level value that is no array or object raises
an Objective-C exception, which no `catch` of Swift sees. -/
def JSONSerialization.data (value : JSON) : Option (Except String platform.Data) :=
  if value.isContainer then some (platform.serialize value) else none

def Network.nextHandler (_statusCode : Nat) (data : JSON) :
    Option (List (Event LoadError platform.Data)) :=
  match JSONSerialization.data platform data with
  | none => none
  | some (.ok rawData) => some [.next rawData, .completed]
  | some (.error _) => some [.error (.nsError "failed JSONSerialization" 0)]

def Network.get (url : String) (params : Option Parameters) :
    Option (List (Except LoadError platform.Data)) :=
  let operation : Option (List (Event LoadError platform.Data)) :=
    match platform.urlOfString url with
    | none => some [.error (.nsError "failed convert url" 0)]
    | some convertedURL =>
        match requestJSON convertedURL params with
        | .error error => some [.error error]
        | .json statusCode data => Network.nextHandler platform statusCode data
  operation.map (asSingle .rx none)

def generateArrayModel {Model : Type} (decode : JSON → Except DecodingError (List Model))
    (single : List (Except LoadError platform.Data)) : List (Except LoadError (List Model)) :=
  asSingle .rx none <|
    flatMap (fun data => just ((decode (platform.parse data)).toOption.getD [])) <|
      single.flatMap ofSingle

def GithubService.loadRepository (params : Option (List GithubParam)) :
    Option (List (Except LoadError (List RepositoryModel))) :=
  (Network.get platform requestJSON Route.basePath.path (Route.parameters params)).map
    (generateArrayModel platform (decodeArray platform.urlOfString))

end Requests

/-! ### The server

It holds repositories in the order of their ids and answers with the first hundred of them, or with
the first hundred after the id that the query names. -/

structure Server where
  repositories : List RepositoryModel
  increasing : (repositories.map RepositoryModel.id).Pairwise (· < ·)

def Server.answer (server : Server) (parameters : Option Parameters) : List RepositoryModel :=
  match parameters.bind (List.lookup "since") with
  | none => server.repositories.take 100
  | some since => (server.repositories.filter fun repository => since < repository.id).take 100

end PFXTexture
