import PFXTexture.Proof.MenuSelection

/-!
# Reconfiguring a header

`configureCell` replaces the content. The item nodes, once built, are kept: they show the texts of
the content they were built from. Underlines left over from before go away as rows are displayed.
-/

namespace PFXTexture

open DStickyHeaderNode (Event TextNode)

namespace Menu

/-- Two menus that a run can tell apart by leftover underlines only. -/
structure SameTexts (left right : Menu) : Prop where
  texts_eq : left.texts = right.texts
  selected_eq : left.selectedIndex = right.selectedIndex
  listening_eq : left.listening = right.listening

variable {left right : Menu}

/-- Both menus take the call alike. Rows underlined alike stay so, and a displayed row becomes so. -/
theorem SameTexts.step (hsame : SameTexts left right) {event : Event}
    {next : Menu} {told : List Nat} (hstep : machine.step left event = some (next, told)) :
    ∃ next', machine.step right event = some (next', told) ∧ SameTexts next next' ∧
      ∀ row, event = .willDisplayItemWith row ∨ left.underlined row = right.underlined row →
        next.underlined row = next'.underlined row := by
  obtain ⟨htexts, hselected, hlistening⟩ := hsame
  -- the same case of `Step` holds of the other menu
  cases step_eq_some_iff.mp hstep with
  | counted =>
      refine ⟨right, step_eq_some_iff.mpr .counted, ⟨htexts, hselected, hlistening⟩, ?_⟩
      intro row hrow
      exact hrow.resolve_left fun heq => by cases heq
  | asked row hrow =>
      refine ⟨right, step_eq_some_iff.mpr (.asked row (htexts ▸ hrow)),
        ⟨htexts, hselected, hlistening⟩, ?_⟩
      intro other hother
      exact hother.resolve_left fun heq => by cases heq
  | displayed row hrow hvalid =>
      rw [htexts] at hrow
      rw [htexts, hselected] at hvalid
      refine ⟨right.display row, step_eq_some_iff.mpr (.displayed row hrow hvalid),
        ⟨htexts, hselected, hlistening⟩, ?_⟩
      intro other hother
      by_cases heq : other = row
      · simp [display, heq, hselected]
      · have hunderlined := hother.resolve_left fun hevent => heq (by cases hevent; rfl)
        simp [display, heq, hunderlined]
  | passed row hcurrent =>
      refine ⟨right, step_eq_some_iff.mpr (.passed row (hselected ▸ hcurrent)),
        ⟨htexts, hselected, hlistening⟩, ?_⟩
      intro other hother
      exact hother.resolve_left fun heq => by cases heq
  | selected row hother hrow =>
      rw [hselected] at hother
      rw [htexts] at hrow
      rw [hlistening]
      exact ⟨right.select row, step_eq_some_iff.mpr (.selected row hother hrow),
        ⟨htexts, rfl, hlistening⟩, fun _ _ => rfl⟩

/-- Along a run in which a row is displayed, it ends up underlined in both menus or in none. -/
theorem SameTexts.run {events : List Event} : ∀ {left right final : Menu} {told : List Nat},
    SameTexts left right → machine.run left events = some (final, told) →
      ∃ final', machine.run right events = some (final', told) ∧
        ∀ row, .willDisplayItemWith row ∈ events ∨ left.underlined row = right.underlined row →
          final.underlined row = final'.underlined row := by
  induction events with
  | nil =>
      intro left right final told hsame hrun
      obtain ⟨rfl, rfl⟩ : left = final ∧ [] = told := by simpa using hrun
      refine ⟨right, rfl, ?_⟩
      rintro row (hmem | hunderlined)
      · cases hmem
      · exact hunderlined
  | cons event events ih =>
      intro left right final told hsame hrun
      obtain ⟨next, first, rest, hstep, hrest, rfl⟩ := machine.run_cons_eq_some_iff.mp hrun
      obtain ⟨next', hstep', hnext, hunderlined⟩ := hsame.step hstep
      obtain ⟨final', hrest', hfinal⟩ := ih hnext hrest
      have hrun' := machine.run_cons_eq_some_iff.mpr ⟨next', first, rest, hstep', hrest', rfl⟩
      refine ⟨final', hrun', ?_⟩
      intro row hrow
      apply hfinal
      by_cases hlater : .willDisplayItemWith row ∈ events
      · exact Or.inl hlater
      · right
        apply hunderlined
        rcases hrow with hmem | hsame
        · left
          rcases List.mem_cons.mp hmem with hnow | hlater'
          · exact hnow.symm
          · exact absurd hlater' hlater
        · exact Or.inr hsame

end Menu

namespace DStickyHeaderNode

/-! ### Histories and observations -/

inductive LifeEvent where
  | call (event : Event)
  | configureCell (content : Content)

/-- A header over its life: its calls, and new contents between them. -/
def lifeMachine : Machine DStickyHeaderNode LifeEvent Nat where
  step := fun header event =>
    match event with
    | .call event => machine.step header event
    | .configureCell content => some (header.configureCell content, [])

/-- The headers have the same rows, and no run of calls over these rows traps in one of them or
tells the listeners different things. Once every row has been displayed, the same is underlined. -/
structure Equivalent (left right : DStickyHeaderNode) : Prop where
  count_eq : left.numberOfItemsInSection.2 = right.numberOfItemsInSection.2
  text_eq : ∀ row, (left.nodeForItemAt row).map (fun (_, node) => node.text) =
    (right.nodeForItemAt row).map fun (_, node) => node.text
  run_eq : ∀ events, (∀ event ∈ events, event.IsRow right.numberOfItemsInSection.2) →
    ∃ left' right' told, machine.run left events = some (left', told) ∧
      machine.run right events = some (right', told) ∧
      ((∀ row < right.numberOfItemsInSection.2, .willDisplayItemWith row ∈ events) →
        ∀ row < right.numberOfItemsInSection.2,
          underlinedAt left'.itemCellNodes row = underlinedAt right'.itemCellNodes row)

variable {header : DStickyHeaderNode} {content : Content}

theorem itemCellNodes_configureCell {nodes : List TextNode}
    (hnodes : header.lazyItemCellNodes = some nodes) (content : Content) :
    (header.configureCell content).itemCellNodes = nodes := by
  rw [configureCell, itemCellNodes, hnodes, Option.getD_some]

/-- Before the item nodes are built, a header is nothing but its content and its listener. -/
theorem configureCell_of_not_built (hnodes : header.lazyItemCellNodes = none) (content : Content) :
    header.configureCell content = make content header.selectedMenu := by
  rw [configureCell, hnodes, make]

theorem Bordered.configureCell (hheader : header.Bordered) (content : Content) :
    (header.configureCell content).Bordered := by
  cases hnodes : header.lazyItemCellNodes with
  | none =>
      rw [configureCell_of_not_built hnodes]
      exact bordered_make content header.selectedMenu
  | some nodes =>
      have hkept : header.itemCellNodes = nodes := by
        rw [itemCellNodes, hnodes, Option.getD_some]
      unfold Bordered at hheader ⊢
      rwa [itemCellNodes_configureCell hnodes, ← hkept]

theorem preserves_bordered_life : lifeMachine.Preserves Bordered := by
  intro header event next emitted hheader hstep
  cases event with
  | call event => exact preserves_bordered hheader hstep
  | configureCell content =>
      cases hstep
      exact hheader.configureCell content

/-! ### Equivalence with a new header -/

theorem map_text_nodeForItemAt (header : DStickyHeaderNode) (row : Nat) :
    (header.nodeForItemAt row).map (fun (_, node) => node.text) = header.menu.texts[row]? := by
  rw [nodeForItemAt, Option.map_map, menu, List.getElem?_map]
  rfl

theorem Equivalent.texts_eq {left right : DStickyHeaderNode}
    (hequivalent : Equivalent left right) : left.menu.texts = right.menu.texts := by
  apply List.ext_getElem?
  intro row
  rw [← map_text_nodeForItemAt, ← map_text_nodeForItemAt]
  exact hequivalent.text_eq row

theorem equivalent_of_sameTexts {left right : DStickyHeaderNode} (hleft : left.Bordered)
    (hright : right.Bordered) (hsame : Menu.SameTexts right.menu left.menu)
    (hselected : right.content.selectedIndex < right.itemCellNodes.length)
    (hclear : ∀ node ∈ right.itemCellNodes, node.isUnderlined = false) :
    Equivalent left right := by
  have hcount : left.itemCellNodes.length = right.itemCellNodes.length := by
    rw [← length_texts, ← length_texts, hsame.texts_eq]
  refine ⟨hcount, ?_, ?_⟩
  · intro row
    rw [map_text_nodeForItemAt, map_text_nodeForItemAt, hsame.texts_eq]
  · intro events hevents
    rw [numberOfItemsInSection, ← length_texts] at hevents
    obtain ⟨menu, told, hmenu, -⟩ := @Menu.exists_run right.menu (by rwa [length_texts])
      (fun row => congrFun (underlinedAt_of_forall hclear) row) events hevents
    obtain ⟨menu', hmenu', hunderlined⟩ := hsame.run hmenu
    obtain ⟨left', hrunLeft, hmenuLeft, -⟩ := exists_run_of_menu_run hleft hmenu'
    obtain ⟨right', hrunRight, hmenuRight, -⟩ := exists_run_of_menu_run hright hmenu
    refine ⟨left', right', told, hrunLeft, hrunRight, ?_⟩
    intro hdisplayed row hrow
    have hrow' := hunderlined row (Or.inl (hdisplayed row hrow))
    rw [← hmenuLeft, ← hmenuRight] at hrow'
    exact hrow'.symm

/-- **Reconfiguring equals building anew** precisely if the item nodes have not been built yet, or
show the texts of the new content. -/
theorem configureCell_iff (start : Content) (selectedMenu : Bool) (history : List LifeEvent)
    (header : DStickyHeaderNode) (told : List Nat)
    (hrun : lifeMachine.run (make start selectedMenu) history = some (header, told))
    (content : Content) (hitems : ∀ item ∈ content.items, item ≠ "")
    (hselected : content.selectedIndex < content.items.length) :
    Equivalent (header.configureCell content) (make content header.selectedMenu) ↔
      ∀ nodes, header.lazyItemCellNodes = some nodes →
        nodes.map TextNode.text = content.items := by
  have hheader := preserves_bordered_life.run (bordered_make start selectedMenu) hrun
  have htexts : (make content header.selectedMenu).menu.texts = content.items :=
    texts_of_built hitems fun nodes hnodes => by cases hnodes
  constructor
  · intro hequivalent nodes hnodes
    calc nodes.map TextNode.text
        = (header.configureCell content).menu.texts := by
          rw [menu, itemCellNodes_configureCell hnodes]
      _ = (make content header.selectedMenu).menu.texts := hequivalent.texts_eq
      _ = content.items := htexts
  · intro hbuilt
    have htexts' : (header.configureCell content).menu.texts = content.items :=
      texts_of_built hitems hbuilt
    apply equivalent_of_sameTexts (hheader.configureCell content)
      (bordered_make content header.selectedMenu)
    · exact ⟨htexts.trans htexts'.symm, rfl, rfl⟩
    · rw [← length_texts, htexts]
      exact hselected
    · intro node hnode
      obtain ⟨text, -, rfl⟩ := List.mem_map.mp hnode
      rfl

theorem configureCell_iff_untouched :
    Equivalent ((make { items := ["a"] } true).configureCell { items := ["b", "c"] })
        (make { items := ["b", "c"] } true) ↔
      ∀ nodes, (make { items := ["a"] } true).lazyItemCellNodes = some nodes →
        nodes.map TextNode.text = ["b", "c"] :=
  configureCell_iff { items := ["a"] } true [] _ [] rfl { items := ["b", "c"] } (by decide)
    (by decide)

/-- A header asked for its rows once keeps showing the old item. -/
theorem configureCell_after_use :
    ∃ header, lifeMachine.run (make { items := ["a"] } true) [.call .numberOfItemsInSection] =
        some (header, []) ∧
      (header.configureCell { items := ["b", "c"] }).numberOfItemsInSection.2 = 1 ∧
      ¬Equivalent (header.configureCell { items := ["b", "c"] })
        (make { items := ["b", "c"] } header.selectedMenu) := by
  refine ⟨_, rfl, rfl, ?_⟩
  intro hequivalent
  exact absurd hequivalent.count_eq (by decide)

end DStickyHeaderNode

end PFXTexture
