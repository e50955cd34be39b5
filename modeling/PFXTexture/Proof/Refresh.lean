import PFXTexture.DContentsNode
import PFXTexture.Proof.SectionSteps

/-!
# Refreshing a section

Three buttons clear the cells of the node and none clears what its view model has accumulated. The
next response emits all of that, and the node appends it.
-/

namespace PFXTexture.DContentsNode

/-- One load at a time, and every page has distinct repositories. -/
def Sequential (node : DContentsNode) : Event → Prop
  | .debounceElapsed _ => ∀ load ∈ node.viewModel.loads, load.completed = true
  | .response _ (.ok models) => (models.map RepositoryModel.id).Nodup
  | _ => True

instance (node : DContentsNode) : DecidablePred node.Sequential
  | .debounceElapsed _ =>
      inferInstanceAs (Decidable (∀ load ∈ node.viewModel.loads, load.completed = true))
  | .response _ (.ok models) => inferInstanceAs (Decidable (models.map RepositoryModel.id).Nodup)
  | .response _ (.error _) => isTrue trivial
  | .didLoad | .favoriteButtonTap | .recentButtonTap | .allButtonTap => isTrue trivial

def sequentialMachine : Machine DContentsNode Event DContentsViewModel.Output :=
  machine.restrict Sequential

def start (dependency : DContentsViewModel.Dependency) : DContentsNode :=
  make (.make dependency)

/-- The cells a first load shows that receives the page. -/
def FirstLoad (dependency : DContentsViewModel.Dependency) (models : List RepositoryModel)
    (cells : List Cell) : Prop :=
  ∃ node emitted, machine.run (start dependency)
      [.didLoad, .debounceElapsed 0, .response 0 (.ok models)] = some (node, emitted) ∧
    node.itemCellNodes = cells

/-- A successful response leaves its page in the node, as a first load would. -/
structure PageShown (dependency : DContentsViewModel.Dependency) (models : List RepositoryModel)
    (node : DContentsNode) : Prop where
  cells_eq : node.itemCellNodes.map Cell.model = models
  ids_nodup : (node.itemCellNodes.map fun cell => cell.model.id).Nodup
  first_load : FirstLoad dependency models node.itemCellNodes

def ShowsPage (dependency : DContentsViewModel.Dependency) (_ : DContentsNode) (event : Event)
    (next : DContentsNode) (_ : List DContentsViewModel.Output) : Prop :=
  match event with
  | .response _ (.ok models) => PageShown dependency models next
  | _ => True

def NothingAccumulated (node : DContentsNode) (event : Event) : Prop :=
  match event with
  | .response _ (.ok _) => node.viewModel.itemsSubject.getD [] = []
  | _ => True

/-! ### Cells come from what is accumulated -/

structure CellsAccumulated (node : DContentsNode) : Prop where
  loads_live : node.viewModel.LoadsLive
  cells_of_nil : node.viewModel.itemsSubject.getD [] = [] → node.itemCellNodes = []

variable {node next : DContentsNode} {event : Event} {emitted : List DContentsViewModel.Output}
  {dependency : DContentsViewModel.Dependency}

theorem cellsAccumulated_start (dependency : DContentsViewModel.Dependency) :
    (start dependency).CellsAccumulated where
  loads_live := by
    intro load hload
    cases hload
  cells_of_nil := fun _ => rfl

theorem first_load_iff (models : List RepositoryModel) (cells : List Cell) :
    FirstLoad dependency models cells ↔ cells = models.map Cell.mk := by
  constructor
  · rintro ⟨node, emitted, hrun, rfl⟩
    cases hrun
    rfl
  · rintro rfl
    exact ⟨_, _, rfl, rfl⟩

theorem pageShown_iff {models : List RepositoryModel}
    (hnodup : (models.map RepositoryModel.id).Nodup) :
    PageShown dependency models node ↔ node.itemCellNodes = models.map Cell.mk := by
  constructor
  · intro hshown
    exact (first_load_iff models _).mp hshown.first_load
  · intro hcells
    have hmodels : node.itemCellNodes.map Cell.model = models := by
      rw [hcells, List.map_map]
      exact List.map_id models
    refine ⟨hmodels, ?_, (first_load_iff models _).mpr hcells⟩
    rw [← hmodels, List.map_map] at hnodup
    exact hnodup

/-! ### One step -/

/-- A response is either swallowed or appended to both lists. -/
inductive ResponseStep (node : DContentsNode) (index : Nat) : Outcome → DContentsNode → Prop where
  | failed {error : LoadError} {viewModel : DContentsViewModel}
      (hresponse : DContentsViewModel.ResponseStep node.viewModel index (.error error) viewModel [])
      (hitems : viewModel.itemsSubject = node.viewModel.itemsSubject) :
      ResponseStep node index (.error error) { node with viewModel }
  | succeeded {models : List RepositoryModel} {viewModel : DContentsViewModel}
      {output : DContentsViewModel.Output} {collectionNode : ASCollectionNode}
      (hresponse : DContentsViewModel.ResponseStep node.viewModel index (.ok models) viewModel
        [output])
      (hitems : viewModel.itemsSubject = some (node.viewModel.itemsSubject.getD [] ++ models)) :
      ResponseStep node index (.ok models)
        { node with
          itemCellNodes := node.itemCellNodes ++
            (node.viewModel.itemsSubject.getD [] ++ models).map Cell.mk
          collectionNode
          viewModel }

theorem CellsAccumulated.response_step {index : Nat} {outcome : Outcome}
    (haccumulated : node.CellsAccumulated)
    (hstep : node.response index outcome = some (next, emitted)) :
    ResponseStep node index outcome next := by
  obtain ⟨⟨viewModel, outputs⟩, hresponse, hpair⟩ := Option.map_eq_some_iff.mp hstep
  obtain ⟨rfl, rfl⟩ : outputs.foldl receive { node with viewModel } = next ∧
      outputs = emitted := by simpa using hpair
  have hcases := DContentsViewModel.response_step hresponse
  cases hcases with
  | dropped hload _ hdead =>
      exact absurd (haccumulated.loads_live _ (List.mem_of_getElem? hload)) hdead
  | failed hload hopen hlive => exact .failed (.failed hload hopen hlive) rfl
  | succeeded hload hopen hlive => exact .succeeded (.succeeded hload hopen hlive) rfl

theorem preserves_cellsAccumulated : machine.Preserves CellsAccumulated := by
  intro node event next emitted haccumulated hstep
  cases event with
  | didLoad =>
      cases hstep
      exact ⟨haccumulated.loads_live, haccumulated.cells_of_nil⟩
  | favoriteButtonTap =>
      cases hstep
      exact ⟨haccumulated.loads_live, fun _ => rfl⟩
  | recentButtonTap =>
      cases hstep
      exact ⟨haccumulated.loads_live, fun _ => rfl⟩
  | allButtonTap =>
      cases hstep
      exact ⟨haccumulated.loads_live, fun _ => rfl⟩
  | debounceElapsed subscription =>
      obtain ⟨_, helapsed, hpair⟩ := Option.map_eq_some_iff.mp hstep
      cases hpair
      obtain ⟨-, ⟨-, rfl⟩ | ⟨-, rfl⟩⟩ := DContentsViewModel.debounceElapsed_cases helapsed
      · have hended : (node.viewModel.endDebounce subscription).LoadsLive := haccumulated.loads_live
        exact ⟨hended.onLoad, haccumulated.cells_of_nil⟩
      · exact ⟨haccumulated.loads_live, haccumulated.cells_of_nil⟩
  | response index outcome =>
      cases haccumulated.response_step hstep with
      | failed hresponse hitems =>
          refine ⟨hresponse.loadsLive haccumulated.loads_live, ?_⟩
          rw [hitems]
          exact haccumulated.cells_of_nil
      | succeeded hresponse hitems =>
          refine ⟨hresponse.loadsLive haccumulated.loads_live, ?_⟩
          rw [hitems, Option.getD_some]
          intro hnil
          rw [haccumulated.cells_of_nil (List.append_eq_nil_iff.mp hnil).1, hnil]
          rfl

/-- A page is shown alone only by a node behind which nothing has accumulated. -/
theorem CellsAccumulated.showsPage_iff (haccumulated : node.CellsAccumulated)
    (hsequential : node.Sequential event)
    (hstep : machine.step node event = some (next, emitted)) :
    ShowsPage dependency node event next emitted ↔ NothingAccumulated node event := by
  cases event with
  | didLoad => exact Iff.rfl
  | favoriteButtonTap => exact Iff.rfl
  | recentButtonTap => exact Iff.rfl
  | allButtonTap => exact Iff.rfl
  | debounceElapsed subscription => exact Iff.rfl
  | response index outcome =>
      cases haccumulated.response_step hstep with
      | failed _ _ => exact Iff.rfl
      | succeeded _ _ =>
          apply (pageShown_iff hsequential).trans
          constructor
          · intro hcells
            have hlength := congrArg List.length hcells
            simp only [List.length_append, List.length_map] at hlength
            exact List.eq_nil_of_length_eq_zero (by omega)
          · intro hnil
            have hnothing : node.viewModel.itemsSubject.getD [] = [] := hnil
            simp only [haccumulated.cells_of_nil hnothing, hnothing, List.nil_append]

/-- **Refresh shows the fresh page** along a run precisely when every successful response finds
nothing accumulated. -/
theorem refresh_shows_page_iff (dependency : DContentsViewModel.Dependency) (events : List Event) :
    sequentialMachine.EachStep (ShowsPage dependency) (start dependency) events ↔
      sequentialMachine.Each NothingAccumulated (start dependency) events := by
  have hkeep : sequentialMachine.Preserves CellsAccumulated := by
    intro node event next emitted haccumulated hstep
    exact preserves_cellsAccumulated haccumulated
      (machine.restrict_step_eq_some_iff.mp hstep).2
  apply hkeep.eachStep_iff_each
  · intro node event next emitted haccumulated hstep
    obtain ⟨hsequential, hstep⟩ := machine.restrict_step_eq_some_iff.mp hstep
    exact haccumulated.showsPage_iff hsequential hstep
  · exact cellsAccumulated_start dependency

/-- A refresh that receives the same page shows its repository twice. -/
theorem refresh_shows_page_twice :
    ∃ node emitted, sequentialMachine.run (start {})
        [.didLoad, .debounceElapsed 0, .response 0 (.ok [{ id := 1 }]), .allButtonTap,
          .debounceElapsed 0, .response 1 (.ok [{ id := 1 }])] = some (node, emitted) ∧
      node.itemCellNodes.map (fun cell => cell.model.id) = [1, 1] ∧
      ¬PageShown {} [{ id := 1 }] node := by
  refine ⟨_, _, rfl, rfl, ?_⟩
  intro hshown
  exact absurd hshown.ids_nodup (by decide)

end PFXTexture.DContentsNode
