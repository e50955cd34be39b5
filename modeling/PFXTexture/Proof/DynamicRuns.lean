import PFXTexture.Proof.DynamicScreen

/-!
# Runs of the dynamic scene

After any run of a dynamic scene its parts are where their own events take them, a selection has
reloaded the collection once, and the scene answers what the collection asks.
-/

namespace PFXTexture

/-! ### The header alone -/

/-- Only calls about one of its rows go through. -/
theorem Menu.History.isRow_of_step {start menu next : Menu}
    {events : List DStickyHeaderNode.Event} {event : DStickyHeaderNode.Event}
    {told first : List Nat} (hhistory : History start events menu told)
    (hstep : Menu.machine.step menu event = some (next, first)) :
    event.IsRow start.texts.length := by
  rw [← hhistory.texts_eq]
  cases step_eq_some_iff.mp hstep with
  | counted => exact trivial
  | asked row hrow => exact hrow
  | displayed row hrow _ => exact hrow
  | passed row hsame => exact hsame ▸ hhistory.selected_lt
  | selected row _ hrow => exact hrow

theorem Menu.history_of_run {start menu : Menu} {events : List DStickyHeaderNode.Event}
    {told : List Nat} (hselected : start.selectedIndex < start.texts.length)
    (hunderlined : ∀ row, start.underlined row = false)
    (hrun : Menu.machine.run start events = some (menu, told)) :
    History start events menu told := by
  refine Menu.machine.run_induction (motive := History start)
    (history_start hselected hunderlined) ?_ hrun
  intro done menu told event next first hhistory hstep
  obtain ⟨other, outputs, hother, hnext⟩ := hhistory.step (hhistory.isRow_of_step hstep)
  obtain ⟨rfl, rfl⟩ : other = next ∧ outputs = first := by simpa using hother.symm.trans hstep
  exact hnext

namespace DynamicNode

variable {node next : DynamicNode} {cell : ExCellNode} {nodes : List DContentsNode}
  {sticky : DStickyHeaderNode} {event : Event} {events : List Event} {emitted : List Output}

theorem bordered_buildStickyHeaderNode : buildStickyHeaderNode.Bordered :=
  DStickyHeaderNode.bordered_make _ true

theorem underlined_buildStickyHeaderNode (row : Nat) :
    buildStickyHeaderNode.menu.underlined row = false := by
  apply congrFun (DStickyHeaderNode.underlinedAt_of_forall _) row
  decide

theorem Parts.history (hparts : Parts events node emitted cell nodes sticky) :
    Menu.History buildStickyHeaderNode.menu (events.filterMap headerEvent?) sticky.menu
      (emitted.filterMap selectedMenu?) := by
  apply Menu.history_of_run (by decide) underlined_buildStickyHeaderNode
  rw [← DStickyHeaderNode.menu_run bordered_buildStickyHeaderNode, hparts.header_run]
  rfl

/-- **A scene runs as its parts do.** Whatever the order of taps, reloads, selections and responses,
the information cell has one text and one image for each tap, the second one has none, the sections
are where their own events take them, and so is the header. -/
theorem scene_runs_as_parts (events : List Event) (node : DynamicNode) (emitted : List Output)
    (hrun : machine.run make events = some (node, emitted)) :
    ∃ nodes sticky,
      node.sections =
        [[.exCellNode ((events.filterMap tap?).foldl ExCellNode.titleTap dynamicCellNode)],
          [.exCellNode stickyCellNode, .dCellNode nodes]] ∧
      (∀ header, node.stickyHeaderNode = some header → header = sticky) ∧
      DCellNode.machine.run DCellNode.nodes (events.filterMap contentsEvent?) =
        some (nodes, emitted.filterMap contentsOutput?) ∧
      DStickyHeaderNode.machine.run buildStickyHeaderNode (events.filterMap headerEvent?) =
        some (sticky, emitted.filterMap selectedMenu?) := by
  obtain ⟨cell, nodes, sticky, hparts⟩ := parts_of_run hrun
  refine ⟨nodes, sticky, ?_, ?_, hparts.contents_run, hparts.header_run⟩
  · rw [hparts.screen.sections_eq, hparts.cell_eq]
  · intro header hheader
    rw [← hparts.screen.header_eq, hheader, Option.getD_some]

/-- Taps, a section's load and a selection, with reloads in between. -/
def mixedEvents : List Event :=
  [.didLoad, .titleTap ⟨0, 0⟩ "first", .contents ⟨1, 1⟩ (3, .didLoad),
    .header (.didSelectItemAt 2), .titleTap ⟨0, 0⟩ "second",
    .contents ⟨1, 1⟩ (3, .debounceElapsed 0), .header (.didSelectItemAt 2)]

theorem scene_runs_as_parts_mixed :
    ∃ node emitted nodes, machine.run make mixedEvents = some (node, emitted) ∧
      DCellNode.machine.run DCellNode.nodes [(3, .didLoad), (3, .debounceElapsed 0)] =
        some (nodes, emitted.filterMap contentsOutput?) := by
  obtain ⟨node, emitted, hrun⟩ : ∃ node emitted,
      machine.run make mixedEvents = some (node, emitted) := ⟨_, _, rfl⟩
  obtain ⟨nodes, -, -, -, hcontents, -⟩ := scene_runs_as_parts _ _ _ hrun
  exact ⟨node, emitted, nodes, hrun, hcontents⟩

/-- **Every change of the selection reloads the collection once**, and nothing else does after the
scene has loaded. -/
theorem reloads_eq_selections (events : List Event) (node : DynamicNode) (emitted : List Output)
    (hrun : machine.run make events = some (node, emitted)) :
    emitted.filterMap selectedMenu? = selections 0 (events.filterMap headerEvent?) ∧
      node.reloads =
        events.countP isDidLoad + (selections 0 (events.filterMap headerEvent?)).length ∧
      ∀ header, node.stickyHeaderNode = some header → header.content.selectedIndex =
        (selections 0 (events.filterMap headerEvent?)).getLastD 0 := by
  obtain ⟨cell, nodes, sticky, hparts⟩ := parts_of_run hrun
  have htold : emitted.filterMap selectedMenu? = selections 0 (events.filterMap headerEvent?) :=
    hparts.history.told_eq
  refine ⟨htold, ?_, ?_⟩
  · rw [hparts.reloads_eq, htold]
  · intro header hheader
    have hsame : header = sticky := by
      rw [← hparts.screen.header_eq, hheader, Option.getD_some]
    rw [hsame]
    exact hparts.history.selected_eq

/-- The second tap on the same item reloads nothing. -/
theorem reloads_eq_selections_mixed :
    ∃ node emitted, machine.run make mixedEvents = some (node, emitted) ∧ node.reloads = 2 := by
  obtain ⟨node, emitted, hrun⟩ : ∃ node emitted,
      machine.run make mixedEvents = some (node, emitted) := ⟨_, _, rfl⟩
  obtain ⟨-, hreloads, -⟩ := reloads_eq_selections _ _ _ hrun
  exact ⟨node, emitted, hrun, hreloads⟩

/-! ### What is asked of the scene -/

/-- Each tap leaves a text node and an image node behind. -/
theorem nodes_foldl_titleTap (taps : List String) (cell : ExCellNode) :
    (taps.foldl ExCellNode.titleTap cell).descNodes =
        cell.descNodes ++ taps.map (fun text => { attributedText := some text }) ∧
      (taps.foldl ExCellNode.titleTap cell).imageNodes =
        cell.imageNodes ++ taps.map (fun _ => ({} : ASNetworkImageNode)) := by
  induction taps generalizing cell with
  | nil => exact ⟨(List.append_nil _).symm, (List.append_nil _).symm⟩
  | cons tap taps ih =>
      obtain ⟨hdescs, himages⟩ := ih (cell.titleTap tap)
      rw [List.foldl_cons, hdescs, himages]
      exact ⟨List.append_assoc .., List.append_assoc ..⟩

/-- The text and the image of each tap, one after the other. -/
theorem contentLayoutSpec_foldl_titleTap (taps : List String) :
    (taps.foldl ExCellNode.titleTap dynamicCellNode).contentLayoutSpec =
      some (taps.flatMap fun text => [.text { attributedText := some text }, .image {}]) := by
  obtain ⟨hdescs, himages⟩ := nodes_foldl_titleTap taps dynamicCellNode
  have hlength : (taps.foldl ExCellNode.titleTap dynamicCellNode).descNodes.length =
      (taps.foldl ExCellNode.titleTap dynamicCellNode).imageNodes.length := by
    rw [hdescs, himages]
    simp [dynamicCellNode]
  rw [ExCellNode.contentLayoutSpec_eq hlength, hdescs, himages]
  simp only [dynamicCellNode, List.nil_append, List.zip_map', List.flatMap_map]

/-- Every row the header's collection can name. -/
theorem Parts.header_isSome (hparts : Parts events node emitted cell nodes sticky)
    {event : DStickyHeaderNode.Event} (hevent : event.IsRow 7) :
    (DStickyHeaderNode.machine.step sticky event).isSome = true := by
  obtain ⟨next, first, hstep, -⟩ := hparts.history.step hevent
  have hbordered : sticky.Bordered :=
    DStickyHeaderNode.preserves_bordered.run bordered_buildStickyHeaderNode hparts.header_run
  rw [← DStickyHeaderNode.menu_step sticky event hbordered] at hstep
  obtain ⟨_, hsome, -⟩ := Option.map_eq_some_iff.mp hstep
  rw [hsome]
  rfl

/-- **The scene answers its collection.** In every state it reaches, each row that the last reload
has counted has a cell, the second section has the header from the first reload on, the header
answers for each of its seven items, and an information cell lays out the text and the image of each
tap. -/
theorem scene_answers_collection (events : List Event) (node : DynamicNode) (emitted : List Output)
    (hrun : machine.run make events = some (node, emitted)) :
    (∀ counts, node.collectionNode = some counts → counts.length = node.numberOfSections ∧
      (∃ header, node.nodeForSupplementaryElementOfKind 1 = .stickyHeaderNode header) ∧
      ∀ section_ count, counts[section_]? = some count →
        node.numberOfItemsInSection section_ = some count ∧
          ∀ row < count, (node.nodeForItemAt ⟨section_, row⟩).isSome = true) ∧
    (node.stickyHeaderNode.isSome = true → ∀ event : DStickyHeaderNode.Event, event.IsRow 7 →
      (machine.step node (.header event)).isSome = true) ∧
    ∀ section_ row cell, node.nodeForItemAt ⟨section_, row⟩ = some (.exCellNode cell) →
      cell.contentLayoutSpec = some ((if section_ = 0 then events.filterMap tap? else []).flatMap
        fun text => [.text { attributedText := some text }, .image {}]) := by
  obtain ⟨cell, nodes, sticky, hparts⟩ := parts_of_run hrun
  have hscreen := hparts.screen
  refine ⟨?_, ?_, ?_⟩
  · intro counts hcounts
    obtain ⟨rfl, hbuilt⟩ := hscreen.collection_eq counts hcounts
    refine ⟨by rw [numberOfSections, hscreen.sections_eq]; rfl, ?_, ?_⟩
    · rw [← hscreen.built_together] at hbuilt
      obtain ⟨header, hheader⟩ := Option.isSome_iff_exists.mp hbuilt
      refine ⟨header, ?_⟩
      rw [nodeForSupplementaryElementOfKind, hheader]
      rfl
    · intro section_ count hcount
      rw [numberOfItemsInSection, hscreen.sections_eq]
      have hnode : ∀ row, node.nodeForItemAt ⟨section_, row⟩ =
          ([[Cell.exCellNode cell], [.exCellNode stickyCellNode, .dCellNode nodes]][section_]?.bind
            fun cells => cells[row]?) := by
        intro row
        rw [nodeForItemAt, hscreen.sections_eq]
      simp only [hnode]
      rcases section_ with _ | _ | section_
      · cases hcount
        refine ⟨rfl, fun row hrow => ?_⟩
        obtain rfl : row = 0 := by omega
        rfl
      · cases hcount
        refine ⟨rfl, fun row hrow => ?_⟩
        obtain rfl | rfl : row = 0 ∨ row = 1 := by omega
        · rfl
        · rfl
      · cases hcount
  · intro hsome event hevent
    obtain ⟨header, hheader⟩ := Option.isSome_iff_exists.mp hsome
    have hsame : header = sticky := by
      rw [← hscreen.header_eq, hheader, Option.getD_some]
    simp only [machine, DynamicNode.header, hheader, Option.bind_some, Option.isSome_map, hsame]
    exact hparts.header_isSome hevent
  · intro section_ row found hfound
    rw [nodeForItemAt, hscreen.sections_eq, hparts.cell_eq] at hfound
    rcases section_ with _ | _ | section_
    · rcases row with _ | row
      · cases hfound
        exact contentLayoutSpec_foldl_titleTap _
      · cases hfound
    · rcases row with _ | _ | row
      · cases hfound
        rfl
      · cases hfound
      · cases hfound
    · cases hfound

theorem scene_answers_collection_mixed :
    ∃ node emitted, machine.run make mixedEvents = some (node, emitted) ∧
      (machine.step node (.header (.didSelectItemAt 6))).isSome = true ∧
      ∃ header, node.nodeForSupplementaryElementOfKind 1 = .stickyHeaderNode header := by
  obtain ⟨node, emitted, hrun, hcounts, hheader⟩ : ∃ node emitted,
      machine.run make mixedEvents = some (node, emitted) ∧ node.collectionNode = some [1, 2] ∧
        node.stickyHeaderNode.isSome = true := ⟨_, _, rfl, rfl, rfl⟩
  obtain ⟨hrows, hitems, -⟩ := scene_answers_collection _ _ _ hrun
  exact ⟨node, emitted, hrun, hitems hheader _ (by decide), (hrows _ hcounts).2.1⟩

end DynamicNode

end PFXTexture
