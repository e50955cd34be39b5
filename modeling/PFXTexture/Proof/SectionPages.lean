import Mathlib.Data.List.DropRight
import PFXTexture.DCellNode
import PFXTexture.Proof.SectionCells
import PFXTexture.Proof.Sections
import PFXTexture.Proof.Service

/-!
# The sections from the server to the cells

Every request of a section asks for one and the same page, so a section shows copies of that page,
and how many is decided by the answers before and since its last clearing. The five sections do not
disturb each other.
-/

namespace PFXTexture

open Machine (ofMember Memberwise)

namespace DContentsNode

/-! ### The view model behind the node -/

def viewModelEvents : Event → List DContentsViewModel.Event
  | .didLoad | .allButtonTap => [.load]
  | .favoriteButtonTap | .recentButtonTap => []
  | .debounceElapsed subscription => [.debounceElapsed subscription]
  | .response load outcome => [.response load outcome]

variable {node next : DContentsNode} {event : Event} {events : List Event}
  {emitted : List DContentsViewModel.Output}

theorem foldl_receive_viewModel (outputs : List DContentsViewModel.Output) :
    (outputs.foldl receive node).viewModel = node.viewModel := by
  induction outputs generalizing node with
  | nil => rfl
  | cons output outputs ih =>
      rw [List.foldl_cons, ih]
      cases output
      rfl

theorem viewModel_run_of_step (hstep : machine.step node event = some (next, emitted)) :
    DContentsViewModel.machine.run node.viewModel (viewModelEvents event) =
      some (next.viewModel, emitted) := by
  cases event with
  | didLoad =>
      cases hstep
      rfl
  | favoriteButtonTap =>
      cases hstep
      rfl
  | recentButtonTap =>
      cases hstep
      rfl
  | allButtonTap =>
      cases hstep
      rfl
  | debounceElapsed subscription =>
      obtain ⟨viewModel, helapsed, hpair⟩ := Option.map_eq_some_iff.mp hstep
      cases hpair
      rw [viewModelEvents, Machine.run_singleton]
      exact Option.map_eq_some_iff.mpr ⟨viewModel, helapsed, rfl⟩
  | response load outcome =>
      obtain ⟨⟨viewModel, outputs⟩, hresponse, hpair⟩ := Option.map_eq_some_iff.mp hstep
      obtain ⟨rfl, rfl⟩ : outputs.foldl receive { node with viewModel } = next ∧
          outputs = emitted := by simpa using hpair
      rw [viewModelEvents, Machine.run_singleton, foldl_receive_viewModel]
      exact hresponse

/-! ### One page -/

variable (platform : Platform) (respond : URL → Option Parameters → RequestOutcome)

/-- A page is what the service delivers for the request of its load. Errors come at will. -/
def Served (node : DContentsNode) : Event → Prop
  | .response load (.ok models) => ∀ pending, node.viewModel.loads[load]? = some pending →
      GithubService.loadRepository platform respond (some pending.params) = some [.ok models]
  | _ => True

/-- The page behind the cursor of the section at `index`. -/
def sectionPage (server : Server) (index : ℕ) : List RepositoryModel :=
  CursorPages.page RepositoryModel.id 100 server.repositories ((100 : ℕ) * index)

structure OnePage (server : Server) (index : ℕ) (events : List Event) (node : DContentsNode) :
    Prop where
  cells_accumulated : node.CellsAccumulated
  asks_for : node.viewModel.AsksFor index
  pages_eq : ∀ page ∈ pagesOf events, page = sectionPage server index

variable {platform respond} {server : Server} {index : ℕ}

theorem onePage_start (server : Server) (index : ℕ) :
    OnePage server index [] (start { index }) where
  cells_accumulated := cellsAccumulated_start _
  asks_for := DContentsViewModel.asksFor_make index
  pages_eq := List.forall_mem_nil _

theorem Serves.eq_sectionPage (hserves : Serves platform server respond)
    {models : List RepositoryModel}
    (hanswer : GithubService.loadRepository platform respond
      (some [.since (some (index * 100))]) = some [.ok models]) :
    models = sectionPage server index := by
  rw [hserves.loadRepository_eq, server.answer_parameters] at hanswer
  have hpage : server.pageSince (some (index * 100)) = models := by
    simpa [sinceOf, GithubParam.value] using hanswer
  rw [← hpage, sectionPage, mul_comm]
  rfl

theorem OnePage.step (hserves : Serves platform server respond)
    (hpage : OnePage server index events node) (hserved : node.Served platform respond event)
    (hstep : machine.step node event = some (next, emitted)) :
    OnePage server index (events ++ [event]) next where
  cells_accumulated := preserves_cellsAccumulated hpage.cells_accumulated hstep
  asks_for := (DContentsViewModel.preserves_asksFor index).run hpage.asks_for
    (viewModel_run_of_step hstep)
  pages_eq := by
    rw [pagesOf, List.filterMap_append, List.forall_mem_append]
    refine ⟨hpage.pages_eq, fun page hlast => ?_⟩
    obtain ⟨_, hmem, hmodels⟩ := List.mem_filterMap.mp hlast
    obtain rfl := List.mem_singleton.mp hmem
    cases hpage.cells_accumulated.cells_step hstep with
    | kept hnone _ _ _ => cases hnone.symm.trans hmodels
    | cleared hnone _ _ _ => cases hnone.symm.trans hmodels
    | appended _ _ =>
        cases hmodels
        -- the load asked for the page of the section
        cases hpage.cells_accumulated.response_step hstep with
        | succeeded hresponse _ =>
            cases hresponse with
            | succeeded hload _ _ =>
                have hanswer := hserved _ hload
                rw [hpage.asks_for.params_eq _ (List.mem_of_getElem? hload)] at hanswer
                exact Serves.eq_sectionPage hserves hanswer

theorem onePage_of_run (hserves : Serves platform server respond)
    (hserved : machine.Each (Served platform respond) (start { index }) events)
    (hrun : machine.run (start { index }) events = some (node, emitted)) :
    OnePage server index events node :=
  hserved.run_induction (motive := fun events node _ => OnePage server index events node)
    (onePage_start server index)
    (fun _ _ _ _ _ _ hpage hcondition hstep => hpage.step hserves hcondition hstep) hrun

/-! ### Copies -/

def untilCleared (events : List Event) : List Event :=
  events.rdropWhile fun event => !clears event

def sinceCleared (events : List Event) : List Event :=
  events.rtakeWhile fun event => !clears event

/-- Every answer since the clearing shows the page once for each answer up to it, itself included.
-/
def copiesShown (events : List Event) : ℕ :=
  Relay.copies (pagesOf (untilCleared events)).length (pagesOf (sinceCleared events)).length

theorem getLast?_untilCleared (events : List Event) :
    (untilCleared events).getLast?.all clears = true := by
  by_cases hnil : untilCleared events = []
  · rw [hnil]
    rfl
  · rw [List.getLast?_eq_some_getLast hnil, Option.all_some]
    simpa [untilCleared] using List.rdropWhile_last_not _ _ hnil

theorem clears_of_mem_sinceCleared {events : List Event} :
    ∀ event ∈ sinceCleared events, clears event = false := by
  intro event hevent
  simpa using List.mem_rtakeWhile_imp hevent

theorem cells_eq_copies (hserves : Serves platform server respond)
    (hserved : machine.Each (Served platform respond) (start { index }) events)
    (hrun : machine.run (start { index }) events = some (node, emitted)) :
    node.itemCellNodes.map Cell.model =
      (List.replicate (copiesShown events) (sectionPage server index)).flatten := by
  have hpage := onePage_of_run hserves hserved hrun
  have hsplit : untilCleared events ++ sinceCleared events = events :=
    List.rdropWhile_append_rtakeWhile
  have hreplicate : ∀ part : List Event, part ⊆ events →
      pagesOf part = List.replicate (pagesOf part).length (sectionPage server index) := by
    intro part hsubset
    apply List.eq_replicate_of_mem
    intro page hpart
    exact hpage.pages_eq page (List.filterMap_subset page? hsubset hpart)
  rw [← hsplit] at hrun
  obtain ⟨middle, first, rest, huntil, hsince, -⟩ := machine.run_append_eq_some_iff.mp hrun
  have hempty := cells_eq_nil_of_cleared (getLast?_untilCleared events) huntil
  rw [(cellsAccumulated_of_run huntil).cells_of_run hempty clears_of_mem_sinceCleared hsince,
    accumulated_of_run huntil,
    hreplicate (untilCleared events) (List.rdropWhile_prefix _ _).subset,
    hreplicate (sinceCleared events) (List.rtakeWhile_suffix _ _).subset,
    Relay.flatten_emissions_replicate]
  rfl

end DContentsNode

namespace DCellNode

open DContentsNode (Served Cell sectionPage copiesShown pagesOf untilCleared sinceCleared)

variable {platform : Platform} {server : Server}
  {respond : URL → Option Parameters → RequestOutcome}
  {events : List (ℕ × DContentsNode.Event)} {finals : List DContentsNode}
  {emitted : List (ℕ × DContentsViewModel.Output)}

theorem getElem?_nodes {index : ℕ} (hindex : index < 5) :
    nodes[index]? = some (DContentsNode.start { index }) := by
  rw [nodes, List.getElem?_map, List.getElem?_range hindex]
  rfl

theorem section_eq_copies (hserves : Serves platform server respond)
    (hserved : machine.Each (Memberwise (Served platform respond)) nodes events)
    (hrun : machine.run nodes events = some (finals, emitted)) {index : ℕ} (hindex : index < 5) :
    ∃ node, finals[index]? = some node ∧ node.itemCellNodes.map Cell.model =
      (List.replicate (copiesShown (ofMember index events))
        (sectionPage server index)).flatten := by
  have hnode := getElem?_nodes hindex
  obtain ⟨node, hfinal, hmember⟩ := Machine.run_member hrun hnode
  exact ⟨node, hfinal,
    DContentsNode.cells_eq_copies hserves (hserved.member hrun hnode) hmember⟩

/-- **Each section shows copies of its own page**, whatever the loads, taps, responses and failures
of the others are. -/
theorem sections_show_copies (platform : Platform) (server : Server)
    (respond : URL → Option Parameters → RequestOutcome)
    (hserves : Serves platform server respond) (events : List (ℕ × DContentsNode.Event))
    (finals : List DContentsNode) (emitted : List (ℕ × DContentsViewModel.Output))
    (hserved : machine.Each (Memberwise (Served platform respond)) nodes events)
    (hrun : machine.run nodes events = some (finals, emitted)) :
    finals.length = 5 ∧ ∀ index (hindex : index < finals.length),
      finals[index].itemCellNodes.map Cell.model =
        (List.replicate (copiesShown (ofMember index events))
          (CursorPages.page RepositoryModel.id 100 server.repositories
            ((100 : ℕ) * index))).flatten := by
  have hlength : finals.length = 5 := Machine.length_of_family_run hrun
  refine ⟨hlength, ?_⟩
  intro index hindex
  obtain ⟨node, hfinal, hcells⟩ := section_eq_copies hserves hserved hrun (hlength ▸ hindex)
  obtain ⟨_, rfl⟩ := List.getElem?_eq_some_iff.mp hfinal
  exact hcells

/-- Two sections load in turns, and the first is refreshed. -/
def refreshFirst : List (ℕ × DContentsNode.Event) :=
  [(0, .didLoad), (1, .didLoad), (0, .debounceElapsed 0),
    (0, .response 0 (.ok [completeKeys.model])), (1, .debounceElapsed 0), (0, .allButtonTap),
    (1, .response 0 (.ok [])), (0, .debounceElapsed 0),
    (0, .response 1 (.ok [completeKeys.model]))]

theorem served_refreshFirst :
    machine.Each (Memberwise (Served plainPlatform respondComplete)) nodes refreshFirst := by
  have hquiet : ∀ {states : List DContentsNode} {member : ℕ} {event : DContentsNode.Event},
      (∀ node, Served plainPlatform respondComplete node event) →
        Memberwise (Served plainPlatform respondComplete) states (member, event) :=
    fun hserved node _ => hserved node
  refine .cons rfl (hquiet fun _ => trivial) <| .cons rfl (hquiet fun _ => trivial) <|
    .cons rfl (hquiet fun _ => trivial) <| .cons rfl ?_ <| .cons rfl (hquiet fun _ => trivial) <|
    .cons rfl (hquiet fun _ => trivial) <| .cons rfl ?_ <| .cons rfl (hquiet fun _ => trivial) <|
    .cons rfl ?_ trivial
  all_goals
    rintro node hnode pending hpending
    cases hnode
    cases hpending
    rfl

theorem sections_show_copies_refreshed :
    ∃ finals emitted, machine.run nodes refreshFirst = some (finals, emitted) ∧
      ∃ hindex : 0 < finals.length, finals[0].itemCellNodes.map Cell.model =
        [completeKeys.model, completeKeys.model] := by
  obtain ⟨finals, emitted, hrun⟩ : ∃ finals emitted,
      machine.run nodes refreshFirst = some (finals, emitted) := ⟨_, _, rfl⟩
  obtain ⟨hlength, hcells⟩ := sections_show_copies _ _ _ serves_respondComplete _ _ _
    served_refreshFirst hrun
  have hindex : 0 < finals.length := by omega
  exact ⟨finals, emitted, hrun, hindex, (hcells 0 hindex).trans rfl⟩

theorem itemCellNodes_eq_flatMap (hserves : Serves platform server respond)
    (hserved : machine.Each (Memberwise (Served platform respond)) nodes events)
    (hrun : machine.run nodes events = some (finals, emitted)) :
    (itemCellNodes finals).map Cell.model = (List.range 5).flatMap fun index =>
      (List.replicate (copiesShown (ofMember index events))
        (sectionPage server index)).flatten := by
  have hlength : finals.length = 5 := Machine.length_of_family_run hrun
  have hmaps : finals.map (fun node => node.itemCellNodes.map Cell.model) =
      (List.range 5).map fun index => (List.replicate (copiesShown (ofMember index events))
        (sectionPage server index)).flatten := by
    apply List.ext_getElem?
    intro index
    rw [List.getElem?_map, List.getElem?_map]
    by_cases hindex : index < 5
    · obtain ⟨node, hfinal, hcells⟩ := section_eq_copies hserves hserved hrun hindex
      rw [hfinal, List.getElem?_range hindex, Option.map_some, Option.map_some, hcells]
    · rw [List.getElem?_eq_none (by omega), List.getElem?_eq_none (by simpa using hindex)]
      rfl
  rw [itemCellNodes, List.map_flatMap, List.flatMap_def, hmaps, List.flatMap_def]

/-- **The stack shows the first five hundred repositories once each** on a server whose ids have no
gap, precisely if every section with a page has had one answer and has not been cleared since. -/
theorem stack_shows_each_once_iff (platform : Platform) (server : Server)
    (respond : URL → Option Parameters → RequestOutcome)
    (hserves : Serves platform server respond)
    (hdense : CursorPages.Dense RepositoryModel.id 100 server.repositories)
    (hpositive : ∀ repository ∈ server.repositories, 0 < repository.id)
    (events : List (ℕ × DContentsNode.Event)) (finals : List DContentsNode)
    (emitted : List (ℕ × DContentsViewModel.Output))
    (hserved : machine.Each (Memberwise (Served platform respond)) nodes events)
    (hrun : machine.run nodes events = some (finals, emitted)) :
    (itemCellNodes finals).map Cell.model =
        server.repositories.filter (fun repository => repository.id ≤ 500) ↔
      ∀ index : ℕ, index < 5 →
        (∃ repository ∈ server.repositories, 100 * (index : ℤ) < repository.id) →
        (pagesOf (untilCleared (ofMember index events))).length = 0 ∧
          (pagesOf (sinceCleared (ofMember index events))).length = 1 := by
  have hsorted : server.repositories.Pairwise fun a b => a.id < b.id :=
    List.pairwise_map.mp server.increasing
  have hblocks : ∀ index, sectionPage server index =
      CursorPages.block RepositoryModel.id 100 server.repositories index :=
    hdense.page_eq_block hsorted (by omega)
  have hfirst : (List.range 5).flatMap (sectionPage server) =
      server.repositories.filter fun repository => repository.id ≤ 500 := by
    rw [funext hblocks, CursorPages.flatMap_block_eq_filter hsorted hpositive]
    rfl
  have hnodup : ((List.range 5).flatMap (sectionPage server)).Nodup := by
    rw [hfirst]
    exact (CursorPages.nodup_of_increasing _ hsorted).filter _
  have hpage : ∀ index, sectionPage server index ≠ [] ↔
      ∃ repository ∈ server.repositories, 100 * (index : ℤ) < repository.id := by
    intro index
    simp [sectionPage, CursorPages.page]
  rw [itemCellNodes_eq_flatMap hserves hserved hrun, ← hfirst,
    Relay.flatMap_replicate_eq_iff List.nodup_range hnodup]
  refine forall_congr' fun index => ?_
  rw [List.mem_range, hpage, copiesShown, Relay.copies_eq_one_iff]

theorem stack_shows_each_once_iff_refreshed :
    ∃ finals emitted, machine.run nodes refreshFirst = some (finals, emitted) ∧
      (itemCellNodes finals).map Cell.model ≠ [completeKeys.model] := by
  obtain ⟨finals, emitted, hrun⟩ : ∃ finals emitted,
      machine.run nodes refreshFirst = some (finals, emitted) := ⟨_, _, rfl⟩
  have hdense : CursorPages.Dense RepositoryModel.id 100 completeServer.repositories := by
    intro repository hrepository position hpositive hle
    rw [List.mem_singleton.mp hrepository] at hle
    exact absurd hle (not_le.mpr hpositive)
  have hpositive : ∀ repository ∈ completeServer.repositories, 0 < repository.id := by
    intro repository hrepository
    rw [List.mem_singleton.mp hrepository]
    decide
  have honce := stack_shows_each_once_iff _ _ _ serves_respondComplete hdense hpositive _ _ _
    served_refreshFirst hrun
  refine ⟨finals, emitted, hrun, fun hcells => ?_⟩
  have hanswers := (honce.mp hcells 0 (by omega) ⟨completeKeys.model, by decide, by decide⟩).1
  exact absurd hanswers (by decide)

end DCellNode

end PFXTexture
