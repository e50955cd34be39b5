import PFXTexture.Library.Relay
import PFXTexture.Proof.Refresh

/-!
# The cells of a section

The view model of a section is a relay that no button resets, and the node appends what it emits. So
the cells are the emissions since they were last cleared, and each of these repeats all the pages
before it, the ones before the clearing included.
-/

namespace PFXTexture.DContentsNode

def page? : Event → Option (List RepositoryModel)
  | .response _ (.ok models) => some models
  | _ => none

def clears : Event → Bool
  | .favoriteButtonTap | .recentButtonTap | .allButtonTap => true
  | .didLoad | .debounceElapsed _ | .response _ _ => false

def pagesOf (events : List Event) : List (List RepositoryModel) :=
  events.filterMap page?

/-- What the view model has accumulated. -/
def accumulated (node : DContentsNode) : List RepositoryModel :=
  node.viewModel.itemsSubject.getD []

inductive CellsStep (node : DContentsNode) : Event → DContentsNode → Prop where
  | kept {event : Event} {next : DContentsNode} (hpage : page? event = none)
      (hkept : clears event = false) (hcells : next.itemCellNodes = node.itemCellNodes)
      (hitems : next.accumulated = node.accumulated) : CellsStep node event next
  | cleared {event : Event} {next : DContentsNode} (hpage : page? event = none)
      (hclears : clears event = true) (hcells : next.itemCellNodes = [])
      (hitems : next.accumulated = node.accumulated) : CellsStep node event next
  | appended {index : Nat} {models : List RepositoryModel} {next : DContentsNode}
      (hcells : next.itemCellNodes =
        node.itemCellNodes ++ (node.accumulated ++ models).map Cell.mk)
      (hitems : next.accumulated = node.accumulated ++ models) :
      CellsStep node (.response index (.ok models)) next

variable {node next middle : DContentsNode} {event : Event} {events before after : List Event}
  {emitted : List DContentsViewModel.Output} {dependency : DContentsViewModel.Dependency}

theorem CellsAccumulated.cells_step (haccumulated : node.CellsAccumulated)
    (hstep : machine.step node event = some (next, emitted)) : CellsStep node event next := by
  cases event with
  | didLoad =>
      cases hstep
      exact .kept rfl rfl rfl rfl
  | favoriteButtonTap =>
      cases hstep
      exact .cleared rfl rfl rfl rfl
  | recentButtonTap =>
      cases hstep
      exact .cleared rfl rfl rfl rfl
  | allButtonTap =>
      cases hstep
      exact .cleared rfl rfl rfl rfl
  | debounceElapsed subscription =>
      obtain ⟨_, helapsed, hpair⟩ := Option.map_eq_some_iff.mp hstep
      cases hpair
      obtain ⟨-, ⟨-, rfl⟩ | ⟨-, rfl⟩⟩ := DContentsViewModel.debounceElapsed_cases helapsed
      · exact .kept rfl rfl rfl rfl
      · exact .kept rfl rfl rfl rfl
  | response index outcome =>
      cases haccumulated.response_step hstep with
      | failed _ hitems => exact .kept rfl rfl rfl (congrArg (fun items => items.getD []) hitems)
      | succeeded _ hitems =>
          apply CellsStep.appended rfl
          rw [accumulated, hitems]
          rfl

/-! ### Runs -/

theorem cellsAccumulated_of_run
    (hrun : machine.run (start dependency) events = some (node, emitted)) :
    node.CellsAccumulated :=
  preserves_cellsAccumulated.run (cellsAccumulated_start dependency) hrun

theorem accumulated_of_run (hrun : machine.run (start dependency) events = some (node, emitted)) :
    node.accumulated = (pagesOf events).flatten := by
  have hboth : node.CellsAccumulated ∧ node.accumulated = (pagesOf events).flatten := by
    refine machine.run_induction (motive := fun events node _ =>
      node.CellsAccumulated ∧ node.accumulated = (pagesOf events).flatten)
      ⟨cellsAccumulated_start dependency, rfl⟩ ?_ hrun
    rintro done node out event next first ⟨haccumulated, hpages⟩ hstep
    refine ⟨preserves_cellsAccumulated haccumulated hstep, ?_⟩
    rw [pagesOf, List.filterMap_append, List.flatten_append]
    cases haccumulated.cells_step hstep with
    | kept hpage _ _ hitems =>
        rw [hitems, hpages, List.filterMap_cons_none hpage]
        simp [pagesOf]
    | cleared hpage _ _ hitems =>
        rw [hitems, hpages, List.filterMap_cons_none hpage]
        simp [pagesOf]
    | appended _ hitems =>
        rw [hitems, hpages]
        simp [pagesOf, page?]
  exact hboth.2

/-- The cells are empty at the start and after a clearing. -/
theorem cells_eq_nil_of_cleared (hcleared : before.getLast?.all clears = true)
    (hrun : machine.run (start dependency) before = some (node, emitted)) :
    node.itemCellNodes = [] := by
  rcases before.eq_nil_or_concat' with rfl | ⟨earlier, last, rfl⟩
  · obtain ⟨rfl, -⟩ : start dependency = node ∧ [] = emitted := by simpa using hrun
    rfl
  · obtain ⟨middle, first, rest, hearlier, hlast, -⟩ := machine.run_append_eq_some_iff.mp hrun
    rw [Machine.run_singleton] at hlast
    have hclears : clears last = true := by simpa using hcleared
    cases (cellsAccumulated_of_run hearlier).cells_step hlast with
    | kept _ hkept _ _ => exact absurd (hkept.symm.trans hclears) Bool.false_ne_true
    | cleared _ _ hcells _ => exact hcells
    | appended _ _ => cases hclears

/-- While nothing is cleared, every emission is appended. -/
theorem CellsAccumulated.cells_of_run (haccumulated : middle.CellsAccumulated)
    (hempty : middle.itemCellNodes = []) (hkept : ∀ event ∈ after, clears event = false)
    (hrun : machine.run middle after = some (node, emitted)) :
    node.itemCellNodes.map Cell.model =
      (Relay.emissions middle.accumulated (pagesOf after)).flatten := by
  have hall : node.CellsAccumulated ∧
      node.accumulated = middle.accumulated ++ (pagesOf after).flatten ∧
      node.itemCellNodes.map Cell.model =
        (Relay.emissions middle.accumulated (pagesOf after)).flatten := by
    refine (machine.each_of_forall_mem hkept middle).run_induction
      (motive := fun events node _ => node.CellsAccumulated ∧
        node.accumulated = middle.accumulated ++ (pagesOf events).flatten ∧
        node.itemCellNodes.map Cell.model =
          (Relay.emissions middle.accumulated (pagesOf events)).flatten) ?_ ?_ hrun
    · exact ⟨haccumulated, by simp [pagesOf], by rw [hempty]; rfl⟩
    rintro done node out event next first ⟨hnode, hitems, hcells⟩ hevent hstep
    refine ⟨preserves_cellsAccumulated hnode hstep, ?_⟩
    cases hnode.cells_step hstep with
    | kept hpage _ hcells' hitems' =>
        have hsame : pagesOf (done ++ [event]) = pagesOf done := by
          rw [pagesOf, List.filterMap_append, List.filterMap_cons_none hpage, List.filterMap_nil,
            List.append_nil, pagesOf]
        rw [hsame, hitems', hcells']
        exact ⟨hitems, hcells⟩
    | cleared _ hclears _ _ => exact absurd (hevent.symm.trans hclears) Bool.false_ne_true
    | @appended index models _ hcells' hitems' =>
        have hmore : pagesOf (done ++ [.response index (.ok models)]) =
            pagesOf done ++ [models] := by
          rw [pagesOf, List.filterMap_append]
          rfl
        have hmodels : ((node.accumulated ++ models).map Cell.mk).map Cell.model =
            node.accumulated ++ models := by
          rw [List.map_map]
          exact List.map_id _
        rw [hmore, hitems', hcells', List.map_append, hcells, hmodels, hitems,
          Relay.emissions_concat, List.flatten_concat, List.flatten_concat, List.append_assoc]
        exact ⟨rfl, rfl⟩
  exact hall.2.2

/-- **The cells of a section are the emissions since they were last cleared**, over every run of
loads, taps, responses and failures. -/
theorem cells_eq_emissions (dependency : DContentsViewModel.Dependency) (before after : List Event)
    (node : DContentsNode) (emitted : List DContentsViewModel.Output)
    (hcleared : before.getLast?.all clears = true)
    (hkept : ∀ event ∈ after, clears event = false)
    (hrun : machine.run (start dependency) (before ++ after) = some (node, emitted)) :
    node.itemCellNodes.map Cell.model =
      (Relay.emissions (pagesOf before).flatten (pagesOf after)).flatten := by
  obtain ⟨middle, first, rest, hbefore, hafter, -⟩ := machine.run_append_eq_some_iff.mp hrun
  have hempty := cells_eq_nil_of_cleared hcleared hbefore
  rw [(cellsAccumulated_of_run hbefore).cells_of_run hempty hkept hafter,
    accumulated_of_run hbefore]

/-- A refresh behind one page shows that page again before the new one. -/
theorem cells_eq_emissions_refreshed :
    ∃ node emitted, machine.run (start {})
        ([.didLoad, .debounceElapsed 0, .response 0 (.ok [{ id := 1 }]), .allButtonTap] ++
          [.debounceElapsed 0, .response 1 (.ok [{ id := 2 }])]) = some (node, emitted) ∧
      node.itemCellNodes.map Cell.model = [{ id := 1 }, { id := 2 }] := by
  obtain ⟨node, emitted, hrun⟩ : ∃ node emitted, machine.run (start {})
      ([.didLoad, .debounceElapsed 0, .response 0 (.ok [{ id := 1 }]), .allButtonTap] ++
        [.debounceElapsed 0, .response 1 (.ok [{ id := 2 }])]) = some (node, emitted) :=
    ⟨_, _, rfl⟩
  exact ⟨node, emitted, hrun, cells_eq_emissions _ _ _ _ _ rfl (by simp [clears]) hrun⟩

end PFXTexture.DContentsNode
