import PFXTexture.DViewController
import PFXTexture.Proof.MenuSelection

/-!
# The dynamic scene as its parts

The information cell, the five sections and the sticky header of a dynamic scene run as they would
alone: a reload reads the sections and changes none of them. The header sets off a reload for each
selection, and the reloads are counted.
-/

namespace PFXTexture

namespace ExCellNode

theorem contentLayoutSpec_eq {node : ExCellNode}
    (hlength : node.descNodes.length = node.imageNodes.length) :
    node.contentLayoutSpec = some ((node.descNodes.zip node.imageNodes).flatMap
      fun pair => [.text pair.1, .image pair.2]) := by
  have hprefix : ∀ count ≤ node.imageNodes.length,
      (List.range count).foldlM
        (fun elements i => do
          let textNode ← node.descNodes[i]?
          let imageNode ← node.imageNodes[i]?
          some (elements ++ [Element.text textNode, .image imageNode])) [] =
        some (((node.descNodes.zip node.imageNodes).take count).flatMap
          fun pair => [.text pair.1, .image pair.2]) := by
    intro count hcount
    induction count with
    | zero => rfl
    | succ count ih =>
        have htext : count < node.descNodes.length := by omega
        have hpair : count < (node.descNodes.zip node.imageNodes).length := by
          rw [List.length_zip]
          omega
        rw [List.range_succ, List.foldlM_append, ih (by omega),
          List.take_succ_eq_append_getElem hpair, List.flatMap_append, List.getElem_zip]
        simp [List.getElem?_eq_getElem htext, List.getElem?_eq_getElem (Nat.lt_of_succ_le hcount)]
  have hall : (node.descNodes.zip node.imageNodes).length = node.imageNodes.length := by
    rw [List.length_zip, hlength, Nat.min_self]
  rw [contentLayoutSpec, hprefix _ le_rfl, List.take_of_length_le hall.le]

end ExCellNode

namespace DynamicNode

variable {node next : DynamicNode} {cell : ExCellNode} {nodes : List DContentsNode}
  {sticky : DStickyHeaderNode} {event : Event} {events : List Event} {emitted first : List Output}

/-- What the scene has built, or would build. -/
structure Screen (node : DynamicNode) (cell : ExCellNode) (nodes : List DContentsNode)
    (sticky : DStickyHeaderNode) : Prop where
  sections_eq : node.sections = [[.exCellNode cell], [.exCellNode stickyCellNode, .dCellNode nodes]]
  header_eq : node.stickyHeaderNode.getD buildStickyHeaderNode = sticky
  built_together : node.stickyHeaderNode.isSome = node.lazySections.isSome
  collection_eq : ∀ counts, node.collectionNode = some counts →
    counts = [1, 2] ∧ node.lazySections.isSome = true

theorem screen_make : Screen make dynamicCellNode DCellNode.nodes buildStickyHeaderNode where
  sections_eq := rfl
  header_eq := rfl
  built_together := rfl
  collection_eq := fun _ hnone => by cases hnone

/-! ### Reloads -/

@[simp]
theorem sections_useSections (node : DynamicNode) : node.useSections.sections = node.sections := by
  unfold useSections
  cases hsections : node.lazySections with
  | none =>
      rw [sections, sections, hsections]
      rfl
  | some _ => rfl

@[simp]
theorem collectionNode_useSections (node : DynamicNode) :
    node.useSections.collectionNode = node.collectionNode := by
  unfold useSections
  cases node.lazySections <;> rfl

@[simp]
theorem reloads_useSections (node : DynamicNode) : node.useSections.reloads = node.reloads := by
  unfold useSections
  cases node.lazySections <;> rfl

theorem isSome_lazySections_useSections (node : DynamicNode) :
    node.useSections.lazySections.isSome = true := by
  unfold useSections
  cases hsections : node.lazySections with
  | none => rfl
  | some sections => simp [hsections]

theorem Screen.stickyHeaderNode_useSections (hscreen : Screen node cell nodes sticky) :
    node.useSections.stickyHeaderNode = some sticky := by
  have hheader := hscreen.header_eq
  have hbuilt := hscreen.built_together
  unfold useSections
  cases hsections : node.lazySections with
  | none =>
      rw [hsections, Option.isSome_none, Option.isSome_eq_false_iff,
        Option.isNone_iff_eq_none] at hbuilt
      rw [hbuilt, Option.getD_none] at hheader
      rw [← hheader]
  | some sections =>
      rw [hsections, Option.isSome_some] at hbuilt
      obtain ⟨header, hsome⟩ := Option.isSome_iff_exists.mp hbuilt
      rw [hsome, Option.getD_some] at hheader
      rw [← hheader]
      exact hsome

theorem Screen.useSections (hscreen : Screen node cell nodes sticky) :
    Screen node.useSections cell nodes sticky where
  sections_eq := by rw [sections_useSections, hscreen.sections_eq]
  header_eq := by rw [hscreen.stickyHeaderNode_useSections, Option.getD_some]
  built_together := by
    rw [hscreen.stickyHeaderNode_useSections, isSome_lazySections_useSections]
    rfl
  collection_eq := by
    intro counts hcounts
    rw [collectionNode_useSections] at hcounts
    exact ⟨(hscreen.collection_eq counts hcounts).1, isSome_lazySections_useSections node⟩

theorem Screen.reloadData (hscreen : Screen node cell nodes sticky) :
    Screen node.reloadData cell nodes sticky where
  sections_eq := hscreen.useSections.sections_eq
  header_eq := hscreen.useSections.header_eq
  built_together := hscreen.useSections.built_together
  collection_eq := by
    rintro counts hcounts
    obtain rfl := Option.some.inj hcounts
    rw [hscreen.sections_eq]
    exact ⟨rfl, isSome_lazySections_useSections node⟩

/-- A reload for each selection. -/
theorem Screen.foldl_selectedMenu (hscreen : Screen node cell nodes sticky) (types : List Nat) :
    Screen (types.foldl (fun node _ => node.selectedMenu) node) cell nodes sticky ∧
      (types.foldl (fun node _ => node.selectedMenu) node).reloads =
        node.reloads + types.length := by
  induction types generalizing node with
  | nil => exact ⟨hscreen, rfl⟩
  | cons type types ih =>
      obtain ⟨hrest, hreloads⟩ := @ih node.selectedMenu hscreen.reloadData
      refine ⟨hrest, hreloads.trans ?_⟩
      rw [selectedMenu, DynamicNode.reloadData, List.length_cons, Nat.add_assoc, Nat.add_comm 1]

/-! ### Cells -/

/-- The three cells and their places. -/
theorem Screen.cellAt_cases (hscreen : Screen node cell nodes sticky) {indexPath : IndexPath}
    {found : Cell} (hfound : node.cellAt indexPath = some found) :
    node.lazySections = some node.sections ∧
      (indexPath = ⟨0, 0⟩ ∧ found = .exCellNode cell ∨
        indexPath = ⟨1, 0⟩ ∧ found = .exCellNode stickyCellNode ∨
        indexPath = ⟨1, 1⟩ ∧ found = .dCellNode nodes) := by
  obtain ⟨sections, hsections, hcells⟩ := Option.bind_eq_some_iff.mp hfound
  obtain ⟨cells, hcells, hrow⟩ := Option.bind_eq_some_iff.mp hcells
  have hself : sections = node.sections := by rw [DynamicNode.sections, hsections, Option.getD_some]
  refine ⟨by rw [hsections, hself], ?_⟩
  rw [hself, hscreen.sections_eq] at hcells
  obtain ⟨section_, row⟩ := indexPath
  rcases section_ with _ | _ | section_
  · cases hcells
    rcases row with _ | row
    · cases hrow
      exact .inl ⟨rfl, rfl⟩
    · cases hrow
  · cases hcells
    rcases row with _ | _ | row
    · cases hrow
      exact .inr (.inl ⟨rfl, rfl⟩)
    · cases hrow
      exact .inr (.inr ⟨rfl, rfl⟩)
    · cases hrow
  · cases hcells

theorem Screen.setCell_exCellNode (hscreen : Screen node cell nodes sticky)
    (hbuilt : node.lazySections = some node.sections) (changed : ExCellNode) :
    Screen (node.setCell ⟨0, 0⟩ (.exCellNode changed)) changed nodes sticky where
  sections_eq := by
    rw [setCell, hbuilt, hscreen.sections_eq]
    rfl
  header_eq := hscreen.header_eq
  built_together := hscreen.built_together.trans (by rw [setCell, Option.isSome_map])
  collection_eq := by
    intro counts hcounts
    obtain ⟨hcounts, hsome⟩ := hscreen.collection_eq counts hcounts
    exact ⟨hcounts, by rw [setCell, Option.isSome_map, hsome]⟩

theorem Screen.setCell_dCellNode (hscreen : Screen node cell nodes sticky)
    (hbuilt : node.lazySections = some node.sections) (changed : List DContentsNode) :
    Screen (node.setCell ⟨1, 1⟩ (.dCellNode changed)) cell changed sticky where
  sections_eq := by
    rw [setCell, hbuilt, hscreen.sections_eq]
    rfl
  header_eq := hscreen.header_eq
  built_together := hscreen.built_together.trans (by rw [setCell, Option.isSome_map])
  collection_eq := by
    intro counts hcounts
    obtain ⟨hcounts, hsome⟩ := hscreen.collection_eq counts hcounts
    exact ⟨hcounts, by rw [setCell, Option.isSome_map, hsome]⟩

/-! ### The parts of a run -/

def headerEvent? : Event → Option DStickyHeaderNode.Event
  | .header event => some event
  | _ => none

def contentsEvent? : Event → Option (Nat × DContentsNode.Event)
  | .contents _ event => some event
  | _ => none

/-- A tap on the title of the information cell, with the text it adds. -/
def tap? : Event → Option String
  | .titleTap _ random => some random
  | _ => none

def isDidLoad : Event → Bool
  | .didLoad => true
  | _ => false

def selectedMenu? : Output → Option Nat
  | .selectedMenu type => some type
  | .contents _ => none

def contentsOutput? : Output → Option (Nat × DContentsViewModel.Output)
  | .selectedMenu _ => none
  | .contents output => some output

theorem filterMap_selectedMenu (types : List Nat) :
    (types.map Output.selectedMenu).filterMap selectedMenu? = types ∧
      (types.map Output.selectedMenu).filterMap contentsOutput? = [] := by
  rw [List.filterMap_map, List.filterMap_map]
  exact ⟨List.filterMap_some, List.filterMap_eq_nil_iff.mpr fun _ _ => rfl⟩

theorem filterMap_contents (outputs : List (Nat × DContentsViewModel.Output)) :
    (outputs.map Output.contents).filterMap selectedMenu? = [] ∧
      (outputs.map Output.contents).filterMap contentsOutput? = outputs := by
  rw [List.filterMap_map, List.filterMap_map]
  exact ⟨List.filterMap_eq_nil_iff.mpr fun _ _ => rfl, List.filterMap_some⟩

structure Parts (events : List Event) (node : DynamicNode) (emitted : List Output)
    (cell : ExCellNode) (nodes : List DContentsNode) (sticky : DStickyHeaderNode) : Prop where
  screen : Screen node cell nodes sticky
  cell_eq : cell = (events.filterMap tap?).foldl ExCellNode.titleTap dynamicCellNode
  contents_run : DCellNode.machine.run DCellNode.nodes (events.filterMap contentsEvent?) =
    some (nodes, emitted.filterMap contentsOutput?)
  header_run : DStickyHeaderNode.machine.run buildStickyHeaderNode
    (events.filterMap headerEvent?) = some (sticky, emitted.filterMap selectedMenu?)
  reloads_eq : node.reloads = events.countP isDidLoad + (emitted.filterMap selectedMenu?).length

theorem parts_make :
    Parts [] make [] dynamicCellNode DCellNode.nodes buildStickyHeaderNode where
  screen := screen_make
  cell_eq := rfl
  contents_run := rfl
  header_run := rfl
  reloads_eq := rfl

/-- An event of the scene alone. -/
theorem Parts.of_screen (hparts : Parts events node emitted cell nodes sticky)
    (hscreen : Screen next cell nodes sticky) (hheader : headerEvent? event = none)
    (hcontents : contentsEvent? event = none) (htap : tap? event = none)
    (hreloads : next.reloads = node.reloads + if isDidLoad event then 1 else 0) :
    Parts (events ++ [event]) next emitted cell nodes sticky where
  screen := hscreen
  cell_eq := by
    rw [List.filterMap_append, List.filterMap_cons_none htap, List.filterMap_nil, List.append_nil]
    exact hparts.cell_eq
  contents_run := by
    rw [List.filterMap_append, List.filterMap_cons_none hcontents, List.filterMap_nil,
      List.append_nil]
    exact hparts.contents_run
  header_run := by
    rw [List.filterMap_append, List.filterMap_cons_none hheader, List.filterMap_nil,
      List.append_nil]
    exact hparts.header_run
  reloads_eq := by
    rw [hreloads, hparts.reloads_eq, List.countP_append, List.countP_singleton]
    omega

theorem Parts.titleTap (hparts : Parts events node emitted cell nodes sticky)
    (hbuilt : node.lazySections = some node.sections) (random : String) :
    Parts (events ++ [.titleTap ⟨0, 0⟩ random])
      (node.setCell ⟨0, 0⟩ (.exCellNode (cell.titleTap random))) emitted (cell.titleTap random)
      nodes sticky where
  screen := hparts.screen.setCell_exCellNode hbuilt _
  cell_eq := by
    rw [List.filterMap_append, List.foldl_append, ← hparts.cell_eq]
    rfl
  contents_run := by
    rw [List.filterMap_append]
    exact (congrArg _ (List.append_nil _)).trans hparts.contents_run
  header_run := by
    rw [List.filterMap_append]
    exact (congrArg _ (List.append_nil _)).trans hparts.header_run
  reloads_eq := by
    rw [List.countP_append]
    exact hparts.reloads_eq

theorem Parts.contents (hparts : Parts events node emitted cell nodes sticky)
    (hbuilt : node.lazySections = some node.sections) {event : Nat × DContentsNode.Event}
    {changed : List DContentsNode} {outputs : List (Nat × DContentsViewModel.Output)}
    (hstep : DCellNode.machine.step nodes event = some (changed, outputs)) :
    Parts (events ++ [.contents ⟨1, 1⟩ event]) (node.setCell ⟨1, 1⟩ (.dCellNode changed))
      (emitted ++ outputs.map Output.contents) cell changed sticky := by
  obtain ⟨hnone, hsame⟩ := filterMap_contents outputs
  constructor
  · exact hparts.screen.setCell_dCellNode hbuilt changed
  · rw [List.filterMap_append]
    exact hparts.cell_eq.trans (congrArg _ (List.append_nil _).symm)
  · rw [List.filterMap_append, List.filterMap_append, hsame]
    exact DCellNode.machine.run_concat hparts.contents_run hstep
  · rw [List.filterMap_append, List.filterMap_append, hnone, List.append_nil]
    exact (congrArg _ (List.append_nil _)).trans hparts.header_run
  · rw [List.countP_append, List.filterMap_append, hnone, List.append_nil]
    exact hparts.reloads_eq

theorem Parts.header (hparts : Parts events node emitted cell nodes sticky)
    {event : DStickyHeaderNode.Event} {changed : DStickyHeaderNode} {types : List Nat}
    (hsome : node.stickyHeaderNode.isSome = true)
    (hstep : DStickyHeaderNode.machine.step sticky event = some (changed, types)) :
    Parts (events ++ [.header event])
      (types.foldl (fun node _ => node.selectedMenu) { node with stickyHeaderNode := some changed })
      (emitted ++ types.map Output.selectedMenu) cell nodes changed := by
  obtain ⟨hsame, hnone⟩ := filterMap_selectedMenu types
  have hchanged : Screen { node with stickyHeaderNode := some changed } cell nodes changed :=
    ⟨hparts.screen.sections_eq, rfl, hsome.symm.trans hparts.screen.built_together,
      hparts.screen.collection_eq⟩
  obtain ⟨hscreen, hreloads⟩ := hchanged.foldl_selectedMenu types
  constructor
  · exact hscreen
  · rw [List.filterMap_append]
    exact hparts.cell_eq.trans (congrArg _ (List.append_nil _).symm)
  · rw [List.filterMap_append, List.filterMap_append, hnone, List.append_nil]
    exact (congrArg _ (List.append_nil _)).trans hparts.contents_run
  · rw [List.filterMap_append, List.filterMap_append, hsame]
    exact DStickyHeaderNode.machine.run_concat hparts.header_run hstep
  · rw [hreloads, List.countP_append, List.filterMap_append, hsame, List.length_append]
    exact (congrArg (· + types.length) hparts.reloads_eq).trans (Nat.add_assoc _ _ _)

theorem Parts.step (hparts : Parts events node emitted cell nodes sticky)
    (hstep : machine.step node event = some (next, first)) :
    ∃ cell nodes sticky, Parts (events ++ [event]) next (emitted ++ first) cell nodes sticky := by
  have hscreen := hparts.screen
  cases event with
  | didLoad =>
      cases hstep
      rw [List.append_nil]
      refine ⟨cell, nodes, sticky, hparts.of_screen hscreen.reloadData rfl rfl rfl rfl⟩
  | nodeForItemAt indexPath =>
      obtain ⟨_, -, hpair⟩ := Option.map_eq_some_iff.mp hstep
      cases hpair
      rw [List.append_nil]
      exact ⟨cell, nodes, sticky,
        hparts.of_screen hscreen.useSections rfl rfl rfl (reloads_useSections node)⟩
  | titleTap indexPath random =>
      obtain ⟨tapped, htap, hpair⟩ := Option.map_eq_some_iff.mp hstep
      cases hpair
      unfold DynamicNode.titleTap at htap
      cases hfound : node.cellAt indexPath with
      | none => simp [hfound] at htap
      | some found =>
          obtain ⟨hbuilt, ⟨rfl, rfl⟩ | ⟨-, rfl⟩ | ⟨-, rfl⟩⟩ := hscreen.cellAt_cases hfound
          · simp only [hfound] at htap
            obtain ⟨-, htap⟩ := Option.ite_none_right_eq_some.mp htap
            cases htap
            rw [List.append_nil]
            exact ⟨_, nodes, sticky, hparts.titleTap hbuilt random⟩
          · -- the second information cell takes no taps
            simp [hfound, stickyCellNode] at htap
          · simp [hfound] at htap
  | contents indexPath event =>
      simp only [machine, DynamicNode.contents] at hstep
      cases hfound : node.cellAt indexPath with
      | none => simp [hfound] at hstep
      | some found =>
          obtain ⟨hbuilt, ⟨-, rfl⟩ | ⟨-, rfl⟩ | ⟨rfl, rfl⟩⟩ := hscreen.cellAt_cases hfound
          · simp [hfound] at hstep
          · simp [hfound] at hstep
          · simp only [hfound] at hstep
            obtain ⟨⟨changed, outputs⟩, hcontents, hpair⟩ := Option.map_eq_some_iff.mp hstep
            cases hpair
            exact ⟨cell, changed, sticky, hparts.contents hbuilt hcontents⟩
  | header event =>
      obtain ⟨header, hheader, hcall⟩ := Option.bind_eq_some_iff.mp hstep
      obtain ⟨⟨changed, types⟩, hmenu, hpair⟩ := Option.map_eq_some_iff.mp hcall
      cases hpair
      have hsame : header = sticky := by
        rw [← hscreen.header_eq, hheader, Option.getD_some]
      rw [hsame] at hmenu
      exact ⟨cell, nodes, changed, hparts.header (by rw [hheader]; rfl) hmenu⟩

theorem parts_of_run (hrun : machine.run make events = some (node, emitted)) :
    ∃ cell nodes sticky, Parts events node emitted cell nodes sticky := by
  refine machine.run_induction (motive := fun events node emitted =>
    ∃ cell nodes sticky, Parts events node emitted cell nodes sticky) ⟨_, _, _, parts_make⟩ ?_ hrun
  rintro done node out event next first ⟨cell, nodes, sticky, hparts⟩ hstep
  exact hparts.step hstep

end DynamicNode

end PFXTexture
