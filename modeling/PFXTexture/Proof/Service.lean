import Mathlib.Data.List.Induction
import PFXTexture.Proof.Defaults

/-!
# The service in front of the server

The parameters of a request come down to the last `since` among them. When the server writes its
repositories as JSON objects that have the keys the decoder reads, the service delivers the server's
page, whatever else the objects hold.
-/

namespace PFXTexture

open JSONDecoder Traversal

/-! ### Parameters -/

/-- Every parameter has the key `since`, so the last one decides, and a `nil` there takes the key
out again. -/
def sinceOf : Option (List GithubParam) → Option Int
  | none => none
  | some params => params.getLast?.bind GithubParam.value

def sinceParameters (since : Option Int) : Parameters :=
  since.toList.map fun value => ("since", value)

theorem Parameters.set_sinceParameters (since value : Option Int) :
    Parameters.set (sinceParameters since) "since" value = sinceParameters value := by
  cases since <;> cases value <;> rfl

theorem foldl_set_eq (params : List GithubParam) :
    params.foldl (fun result param => Parameters.set result param.key param.value) [] =
      sinceParameters (sinceOf (some params)) := by
  induction params using List.reverseRecOn with
  | nil => rfl
  | append_singleton params param ih =>
      have hkey : param.key = "since" := by cases param; rfl
      rw [List.foldl_concat, ih, hkey, Parameters.set_sinceParameters, sinceOf,
        List.getLast?_concat, Option.bind_some]

theorem Route.parameters_eq (params : Option (List GithubParam)) :
    Route.parameters params = (sinceOf params).map fun value => [("since", value)] := by
  cases params with
  | none => rfl
  | some params =>
      rw [Route.parameters, foldl_set_eq]
      cases sinceOf (some params) <;> rfl

/-- The page of a request: the first hundred repositories, behind `since` if there is one. -/
def Server.pageSince (server : Server) (since : Option Int) : List RepositoryModel :=
  match since with
  | none => server.repositories.take 100
  | some since => (server.repositories.filter fun repository => since < repository.id).take 100

theorem Server.answer_parameters (server : Server) (params : Option (List GithubParam)) :
    server.answer (Route.parameters params) = server.pageSince (sinceOf params) := by
  rw [Route.parameters_eq, Server.answer]
  cases sinceOf params <;> rfl

/-! ### The wire -/

/-- The object has the keys of the repository, and maybe others. -/
def Represents (urlOfString : String → Option URL) (element : JSON) (model : RepositoryModel) :
    Prop :=
  ∃ keys, Holds urlOfString element keys ∧ keys.Complete ∧ keys.model = model

/-- The server answers every request with an array of such objects. -/
structure Serves (platform : Platform) (server : Server)
    (respond : URL → Option Parameters → RequestOutcome) : Prop where
  url : ∃ url, platform.urlOfString Route.basePath.path = some url
  answers : ∀ url parameters, ∃ statusCode elements,
    respond url parameters = .json statusCode (.array elements) ∧
      List.Forall₂ (Represents platform.urlOfString) elements (server.answer parameters)

variable {urlOfString : String → Option URL}

theorem exists_keys_of_represents {elements : List JSON} {models : List RepositoryModel}
    (hrepresents : List.Forall₂ (Represents urlOfString) elements models) :
    ∃ keys, List.Forall₂ (Holds urlOfString) elements keys ∧ (∀ key ∈ keys, key.Complete) ∧
      keys.map RepositoryKeys.model = models := by
  induction hrepresents with
  | nil => exact ⟨[], .nil, List.forall_mem_nil _, rfl⟩
  | cons hhead htail ih =>
      obtain ⟨key, hholds, hcomplete, rfl⟩ := hhead
      obtain ⟨keys, hall, hallComplete, rfl⟩ := ih
      exact ⟨key :: keys, .cons hholds hall, List.forall_mem_cons.mpr ⟨hcomplete, hallComplete⟩,
        rfl⟩

/-- What represents a page decodes to it. -/
theorem decodeArray_of_represents {elements : List JSON} {models : List RepositoryModel}
    (hrepresents : List.Forall₂ (Represents urlOfString) elements models) :
    decodeArray urlOfString (.array elements) = .ok models := by
  obtain ⟨keys, hholds, hcomplete, rfl⟩ := exists_keys_of_represents hrepresents
  exact (decodeArray_eq_ok_iff hholds).mpr ⟨hcomplete, rfl⟩

theorem Serves.loadRepository_eq {platform : Platform} {server : Server}
    {respond : URL → Option Parameters → RequestOutcome}
    (hserves : Serves platform server respond) (params : Option (List GithubParam)) :
    GithubService.loadRepository platform respond params =
      some [.ok (server.answer (Route.parameters params))] := by
  obtain ⟨url, hurl⟩ := hserves.url
  obtain ⟨statusCode, elements, hresponse, helements⟩ :=
    hserves.answers url (Route.parameters params)
  obtain ⟨data, hparse, hget⟩ := get_of_json platform respond hurl hresponse rfl
  rw [GithubService.loadRepository, hget, Option.map_some, generateArrayModel_singleton,
    Except.map, hparse, decodeArray_of_represents helements]
  rfl

/-- **The service delivers the server's page** behind the last `since` of the parameters, once and
without an error, for every list of parameters. -/
theorem loadRepository_delivers_page (platform : Platform) (server : Server)
    (respond : URL → Option Parameters → RequestOutcome)
    (hserves : Serves platform server respond) (params : Option (List GithubParam)) :
    GithubService.loadRepository platform respond params =
      some [.ok (server.pageSince (sinceOf params))] := by
  rw [hserves.loadRepository_eq, server.answer_parameters]

/-! ### One repository -/

/-- A server with the repository of `completeElement` alone. -/
def completeServer : Server where
  repositories := [completeKeys.model]
  increasing := by simp

def respondComplete : URL → Option Parameters → RequestOutcome := fun _ parameters =>
  .json 200 (.array ((completeServer.answer parameters).map fun _ => completeElement))

theorem completeKeys_complete : completeKeys.Complete where
  id := rfl
  isPrivate := rfl
  fork := rfl
  login := by
    rintro owner howner
    rw [← Option.some.inj howner]
    rfl

theorem serves_respondComplete : Serves plainPlatform completeServer respondComplete where
  url := ⟨_, rfl⟩
  answers := by
    intro url parameters
    refine ⟨200, _, rfl, ?_⟩
    apply List.forall₂_map_left_iff.mpr
    apply List.forall₂_same.mpr
    intro model hmodel
    refine ⟨completeKeys, completeElement_holds _, completeKeys_complete, ?_⟩
    -- every page of this server is empty or holds its one repository
    have hmem : model ∈ completeServer.repositories := by
      unfold Server.answer at hmodel
      split at hmodel
      · exact List.mem_of_mem_take hmodel
      · exact (List.mem_filter.mp (List.mem_of_mem_take hmodel)).1
    exact (List.mem_singleton.mp hmem).symm

/-- The later `nil` takes the `since` out again. -/
theorem loadRepository_delivers_page_complete :
    GithubService.loadRepository plainPlatform respondComplete
        (some [.since (some 1), .since none]) = some [.ok [completeKeys.model]] ∧
      GithubService.loadRepository plainPlatform respondComplete
        (some [.since none, .since (some 1)]) = some [.ok []] :=
  ⟨loadRepository_delivers_page _ _ _ serves_respondComplete _,
    loadRepository_delivers_page _ _ _ serves_respondComplete _⟩

end PFXTexture
