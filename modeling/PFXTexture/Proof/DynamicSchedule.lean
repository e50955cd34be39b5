import PFXTexture.Proof.Debounce
import PFXTexture.Proof.DynamicRuns

/-!
# What may happen in the dynamic scene

The events before one decide whether it may happen: whether the cells and the header are there yet,
and for an event of a section what has happened to that section.
-/

namespace PFXTexture

open Machine (ofMember)

namespace DynamicNode

open DContentsNode (Scheduled)

variable {node next : DynamicNode} {cell : ExCellNode} {nodes : List DContentsNode}
  {sticky : DStickyHeaderNode} {event : Event} {events : List Event} {emitted first : List Output}

/-- The event asks for the cells. -/
def builds : Event → Bool
  | .didLoad | .nodeForItemAt _ => true
  | .titleTap _ _ | .contents _ _ | .header _ => false

/-- The cells and the header have been built. -/
def built (events : List Event) : Bool :=
  events.any builds

/-- What may happen after the events. -/
def Enabled (events : List Event) : Event → Prop
  | .didLoad => True
  | .nodeForItemAt indexPath => indexPath ∈ ([⟨0, 0⟩, ⟨1, 0⟩, ⟨1, 1⟩] : List IndexPath)
  | .titleTap indexPath _ => built events = true ∧ indexPath = ⟨0, 0⟩
  | .contents indexPath tagged => built events = true ∧ indexPath = ⟨1, 1⟩ ∧ tagged.1 < 5 ∧
      Scheduled (ofMember tagged.1 (events.filterMap contentsEvent?)) tagged.2
  | .header event => built events = true ∧ event.IsRow 7

/-! ### Built or not -/

theorem isSome_lazySections_setCell (node : DynamicNode) (indexPath : IndexPath) (changed : Cell) :
    (node.setCell indexPath changed).lazySections.isSome = node.lazySections.isSome :=
  Option.isSome_map

theorem isSome_lazySections_foldl (types : List Nat) (hbuilt : node.lazySections.isSome = true) :
    (types.foldl (fun node _ => node.selectedMenu) node).lazySections.isSome = true := by
  induction types generalizing node with
  | nil => exact hbuilt
  | cons type types ih => exact ih (isSome_lazySections_useSections node)

theorem isSome_lazySections_of_cellAt {indexPath : IndexPath} {found : Cell}
    (hfound : node.cellAt indexPath = some found) : node.lazySections.isSome = true := by
  obtain ⟨sections, hsections, -⟩ := Option.bind_eq_some_iff.mp hfound
  exact Option.isSome_of_eq_some hsections

theorem Screen.isSome_lazySections_step (hscreen : Screen node cell nodes sticky)
    (hstep : machine.step node event = some (next, emitted)) :
    next.lazySections.isSome = (node.lazySections.isSome || builds event) := by
  cases event with
  | didLoad =>
      cases hstep
      rw [builds, Bool.or_true]
      exact isSome_lazySections_useSections node
  | nodeForItemAt indexPath =>
      obtain ⟨_, -, hpair⟩ := Option.map_eq_some_iff.mp hstep
      cases hpair
      rw [builds, Bool.or_true]
      exact isSome_lazySections_useSections node
  | titleTap indexPath random =>
      obtain ⟨tapped, htap, hpair⟩ := Option.map_eq_some_iff.mp hstep
      cases hpair
      rw [builds, Bool.or_false]
      unfold DynamicNode.titleTap at htap
      cases hfound : node.cellAt indexPath with
      | none => simp [hfound] at htap
      | some found =>
          cases found with
          | exCellNode found =>
              simp only [hfound] at htap
              obtain ⟨-, htap⟩ := Option.ite_none_right_eq_some.mp htap
              cases htap
              exact isSome_lazySections_setCell _ _ _
          | dCellNode found => simp [hfound] at htap
  | contents indexPath tagged =>
      rw [builds, Bool.or_false]
      simp only [machine, DynamicNode.contents] at hstep
      cases hfound : node.cellAt indexPath with
      | none => simp [hfound] at hstep
      | some found =>
          cases found with
          | exCellNode found => simp [hfound] at hstep
          | dCellNode found =>
              simp only [hfound] at hstep
              obtain ⟨_, -, hpair⟩ := Option.map_eq_some_iff.mp hstep
              cases hpair
              exact isSome_lazySections_setCell _ _ _
  | header event =>
      obtain ⟨header, hheader, hcall⟩ := Option.bind_eq_some_iff.mp hstep
      obtain ⟨_, -, hpair⟩ := Option.map_eq_some_iff.mp hcall
      cases hpair
      have hbuilt : node.lazySections.isSome = true := by
        rw [← hscreen.built_together, hheader]
        rfl
      rw [builds, Bool.or_false, hbuilt]
      exact isSome_lazySections_foldl _ hbuilt

theorem isSome_lazySections_of_run
    (hrun : machine.run make events = some (node, emitted)) :
    node.lazySections.isSome = built events := by
  have hboth : (∃ cell nodes sticky, Parts events node emitted cell nodes sticky) ∧
      node.lazySections.isSome = built events := by
    refine machine.run_induction (motive := fun events node emitted =>
      (∃ cell nodes sticky, Parts events node emitted cell nodes sticky) ∧
        node.lazySections.isSome = built events) ⟨⟨_, _, _, parts_make⟩, rfl⟩ ?_ hrun
    rintro done node out event next first ⟨⟨cell, nodes, sticky, hparts⟩, hbuilt⟩ hstep
    refine ⟨hparts.step hstep, ?_⟩
    rw [hparts.screen.isSome_lazySections_step hstep, hbuilt, built, built, List.any_append,
      List.any_cons, List.any_nil, Bool.or_false]
  exact hboth.2

/-! ### The parts -/

theorem Screen.cellAt_of_built (hscreen : Screen node cell nodes sticky)
    (hbuilt : node.lazySections.isSome = true) :
    node.cellAt ⟨0, 0⟩ = some (.exCellNode cell) ∧
      node.cellAt ⟨1, 1⟩ = some (.dCellNode nodes) := by
  obtain ⟨sections, hsections⟩ := Option.isSome_iff_exists.mp hbuilt
  have hself : sections = [[.exCellNode cell], [.exCellNode stickyCellNode, .dCellNode nodes]] := by
    rw [← hscreen.sections_eq, DynamicNode.sections, hsections, Option.getD_some]
  rw [cellAt, cellAt, hsections, hself]
  exact ⟨rfl, rfl⟩

theorem isUserInteractionEnabled_foldl_titleTap (taps : List String) (cell : ExCellNode) :
    (taps.foldl ExCellNode.titleTap cell).isUserInteractionEnabled =
      cell.isUserInteractionEnabled := by
  induction taps generalizing cell with
  | nil => rfl
  | cons tap taps ih => exact ih (cell.titleTap tap)

theorem Parts.titleTap_isSome_iff (hparts : Parts events node emitted cell nodes sticky)
    (hbuilt : node.lazySections.isSome = built events) (indexPath : IndexPath) (random : String) :
    (node.titleTap indexPath random).isSome ↔ built events = true ∧ indexPath = ⟨0, 0⟩ := by
  have htappable : cell.isUserInteractionEnabled = true := by
    rw [hparts.cell_eq, isUserInteractionEnabled_foldl_titleTap]
    rfl
  constructor
  · intro hsome
    obtain ⟨tapped, htap⟩ := Option.isSome_iff_exists.mp hsome
    unfold DynamicNode.titleTap at htap
    cases hfound : node.cellAt indexPath with
    | none => simp [hfound] at htap
    | some found =>
        refine ⟨hbuilt.symm.trans (isSome_lazySections_of_cellAt hfound), ?_⟩
        obtain ⟨-, ⟨hplace, -⟩ | ⟨-, rfl⟩ | ⟨-, rfl⟩⟩ := hparts.screen.cellAt_cases hfound
        · exact hplace
        · -- the second information cell takes no taps
          simp [hfound, stickyCellNode] at htap
        · simp [hfound] at htap
  · rintro ⟨hdone, rfl⟩
    have hcell := (hparts.screen.cellAt_of_built (hbuilt.trans hdone)).1
    unfold DynamicNode.titleTap
    rw [hcell]
    simp [htappable]

theorem Parts.contents_isSome_iff (hparts : Parts events node emitted cell nodes sticky)
    (hbuilt : node.lazySections.isSome = built events) (indexPath : IndexPath)
    (tagged : Nat × DContentsNode.Event) :
    (node.contents indexPath tagged).isSome ↔ built events = true ∧ indexPath = ⟨1, 1⟩ ∧
      tagged.1 < 5 ∧
        Scheduled (ofMember tagged.1 (events.filterMap contentsEvent?)) tagged.2 := by
  have hcontents : ∀ {changed : List DContentsNode}, node.cellAt indexPath =
      some (.dCellNode changed) → ((node.contents indexPath tagged).isSome ↔
        (DCellNode.machine.step changed tagged).isSome) := by
    intro changed hfound
    unfold DynamicNode.contents
    simp only [hfound, Option.isSome_map]
  constructor
  · intro hsome
    cases hfound : node.cellAt indexPath with
    | none => simp [DynamicNode.contents, hfound] at hsome
    | some found =>
        refine ⟨hbuilt.symm.trans (isSome_lazySections_of_cellAt hfound), ?_⟩
        obtain ⟨-, ⟨-, rfl⟩ | ⟨-, rfl⟩ | ⟨hplace, rfl⟩⟩ := hparts.screen.cellAt_cases hfound
        · simp [DynamicNode.contents, hfound] at hsome
        · simp [DynamicNode.contents, hfound] at hsome
        · exact ⟨hplace, (DCellNode.isSome_step_iff hparts.contents_run tagged).mp
            ((hcontents hfound).mp hsome)⟩
  · rintro ⟨hdone, rfl, hscheduled⟩
    have hcell := (hparts.screen.cellAt_of_built (hbuilt.trans hdone)).2
    exact (hcontents hcell).mpr
      ((DCellNode.isSome_step_iff hparts.contents_run tagged).mpr hscheduled)

theorem Parts.header_isSome_iff (hparts : Parts events node emitted cell nodes sticky)
    (hbuilt : node.lazySections.isSome = built events) (event : DStickyHeaderNode.Event) :
    (node.header event).isSome ↔ built events = true ∧ event.IsRow 7 := by
  have htogether : node.stickyHeaderNode.isSome = built events :=
    hparts.screen.built_together.trans hbuilt
  have hheader : ∀ {header : DStickyHeaderNode}, node.stickyHeaderNode = some header →
      ((node.header event).isSome ↔ (DStickyHeaderNode.machine.step sticky event).isSome) := by
    intro header hsome
    have hsame : header = sticky := by
      rw [← hparts.screen.header_eq, hsome, Option.getD_some]
    simp only [DynamicNode.header, hsome, Option.bind_some, Option.isSome_map, hsame]
  rw [← htogether]
  constructor
  · intro hcall
    cases hsome : node.stickyHeaderNode with
    | none => simp [DynamicNode.header, hsome] at hcall
    | some header =>
        refine ⟨rfl, ?_⟩
        obtain ⟨⟨changed, types⟩, hstep⟩ :=
          Option.isSome_iff_exists.mp ((hheader hsome).mp hcall)
        have hbordered : sticky.Bordered := DStickyHeaderNode.preserves_bordered.run
          bordered_buildStickyHeaderNode hparts.header_run
        have hmenu := DStickyHeaderNode.menu_step sticky event hbordered
        rw [hstep] at hmenu
        exact hparts.history.isRow_of_step hmenu.symm
  · rintro ⟨hthere, hrow⟩
    obtain ⟨header, hsome⟩ := Option.isSome_iff_exists.mp hthere
    exact (hheader hsome).mpr (hparts.header_isSome hrow)

theorem Parts.isSome_step_iff (hparts : Parts events node emitted cell nodes sticky)
    (hbuilt : node.lazySections.isSome = built events) (event : Event) :
    (machine.step node event).isSome ↔ Enabled events event := by
  cases event with
  | didLoad => exact iff_of_true rfl trivial
  | nodeForItemAt indexPath =>
      simp only [machine, Option.isSome_map]
      rw [nodeForItemAt, hparts.screen.sections_eq, Enabled]
      obtain ⟨section_, row⟩ := indexPath
      rcases section_ with _ | _ | section_
      · rcases row with _ | row <;> simp
      · rcases row with _ | _ | row <;> simp
      · simp
  | titleTap indexPath random =>
      simp only [machine, Option.isSome_map]
      exact hparts.titleTap_isSome_iff hbuilt indexPath random
  | contents indexPath tagged => exact hparts.contents_isSome_iff hbuilt indexPath tagged
  | header event => exact hparts.header_isSome_iff hbuilt event

/-- **What the dynamic scene can do.** Its runs are the orders of events in which the cells have
been asked for before anything happens to one of them or to the header, only the first information
cell is tapped, the header is called about its seven items, and each section keeps to its own
schedule. -/
theorem runs_iff_enabled (events : List Event) :
    (machine.run make events).isSome ↔
      ∀ before event after, events = before ++ event :: after → Enabled before event := by
  apply machine.isSome_run_iff
  intro before node emitted hrun
  obtain ⟨cell, nodes, sticky, hparts⟩ := parts_of_run hrun
  exact hparts.isSome_step_iff (isSome_lazySections_of_run hrun)

end DynamicNode

end PFXTexture
