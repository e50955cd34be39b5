import PFXTexture.Proof.Menu
import Mathlib.Data.List.Induction

/-!
# One selected item

Along any run the underlines of a menu, its selected index and what its listener was told are
functions of the calls made. They are found for the menu and carried over to the header.
-/

namespace PFXTexture

open DStickyHeaderNode (Event TextNode)

/-- A call about one of `count` rows. -/
def DStickyHeaderNode.Event.IsRow (count : Nat) : Event → Prop
  | .numberOfItemsInSection => True
  | .nodeForItemAt row | .willDisplayItemWith row | .didSelectItemAt row => row < count

instance (count : Nat) : DecidablePred (DStickyHeaderNode.Event.IsRow count)
  | .numberOfItemsInSection => isTrue trivial
  | .nodeForItemAt row | .willDisplayItemWith row | .didSelectItemAt row =>
      inferInstanceAs (Decidable (row < count))

/-- The rows tapped while another row was selected. -/
def selections (selectedIndex : Nat) : List Event → List Nat
  | [] => []
  | .didSelectItemAt row :: events =>
      if row = selectedIndex then selections selectedIndex events
      else row :: selections row events
  | .numberOfItemsInSection :: events => selections selectedIndex events
  | .nodeForItemAt _ :: events => selections selectedIndex events
  | .willDisplayItemWith _ :: events => selections selectedIndex events

theorem selections_concat (event : Event) : ∀ (events : List Event) (selectedIndex : Nat),
    selections selectedIndex (events ++ [event]) = selections selectedIndex events ++
      selections ((selections selectedIndex events).getLastD selectedIndex) [event]
  | [], _ => rfl
  | .numberOfItemsInSection :: events, selectedIndex => selections_concat event events selectedIndex
  | .nodeForItemAt _ :: events, selectedIndex => selections_concat event events selectedIndex
  | .willDisplayItemWith _ :: events, selectedIndex => selections_concat event events selectedIndex
  | .didSelectItemAt row :: events, selectedIndex => by
      by_cases hrow : row = selectedIndex
      · simp only [List.cons_append, selections, hrow, if_true]
        exact selections_concat event events selectedIndex
      · simp only [List.cons_append, selections, hrow, if_false, List.getLastD_cons]
        rw [selections_concat event events row]

namespace Menu

/-- What a run has left behind in a menu that started without underlines. -/
structure History (start : Menu) (events : List Event) (menu : Menu) (told : List Nat) : Prop where
  texts_eq : menu.texts = start.texts
  listening_eq : menu.listening = start.listening
  selected_lt : menu.selectedIndex < menu.texts.length
  selected_eq : menu.selectedIndex =
    (selections start.selectedIndex events).getLastD start.selectedIndex
  underlined_iff : ∀ row, menu.underlined row = true ↔ row = menu.selectedIndex ∧
    (.willDisplayItemWith row ∈ events ∨ selections start.selectedIndex events ≠ [])
  told_eq : told = if start.listening then selections start.selectedIndex events else []

variable {start menu : Menu} {events : List Event} {told : List Nat}

theorem history_start (hselected : start.selectedIndex < start.texts.length)
    (hunderlined : ∀ row, start.underlined row = false) : History start [] start [] where
  texts_eq := rfl
  listening_eq := rfl
  selected_lt := hselected
  selected_eq := rfl
  underlined_iff := by
    intro row
    rw [hunderlined]
    simp [selections]
  told_eq := by simp [selections]

/-- A call that neither shows nor selects leaves no trace. -/
theorem History.silent (hhistory : History start events menu told) {event : Event}
    (hshow : ∀ row, event ≠ .willDisplayItemWith row)
    (hselect : selections menu.selectedIndex [event] = []) :
    History start (events ++ [event]) menu told := by
  have hselections : selections start.selectedIndex (events ++ [event]) =
      selections start.selectedIndex events := by
    rw [selections_concat, ← hhistory.selected_eq, hselect, List.append_nil]
  refine ⟨hhistory.texts_eq, hhistory.listening_eq, hhistory.selected_lt, ?_, ?_, ?_⟩
  · rw [hselections]
    exact hhistory.selected_eq
  · intro row
    have hother : Event.willDisplayItemWith row ∉ [event] := fun hmem =>
      hshow row (List.mem_singleton.mp hmem).symm
    rw [hhistory.underlined_iff, hselections, List.mem_append, or_iff_left hother]
  · rw [hselections]
    exact hhistory.told_eq

theorem History.display (hhistory : History start events menu told) (row : Nat) :
    History start (events ++ [.willDisplayItemWith row]) (menu.display row) told := by
  have hselections : selections start.selectedIndex (events ++ [.willDisplayItemWith row]) =
      selections start.selectedIndex events := by
    rw [selections_concat]
    exact List.append_nil _
  refine ⟨hhistory.texts_eq, hhistory.listening_eq, hhistory.selected_lt, ?_, ?_, ?_⟩
  · rw [hselections]
    exact hhistory.selected_eq
  · intro other
    rw [hselections]
    by_cases hother : other = row
    · simp [Menu.display, hother]
    · have hunderlined : (menu.display row).underlined other = menu.underlined other :=
        Function.update_of_ne hother _ _
      rw [hunderlined, hhistory.underlined_iff]
      simp [Menu.display, hother]
  · rw [hselections]
    exact hhistory.told_eq

theorem History.select (hhistory : History start events menu told) {row : Nat}
    (hrow : row < menu.texts.length) (hother : menu.selectedIndex ≠ row) :
    History start (events ++ [.didSelectItemAt row]) (menu.select row)
      (told ++ if menu.listening then [row] else []) := by
  have hselections : selections start.selectedIndex (events ++ [.didSelectItemAt row]) =
      selections start.selectedIndex events ++ [row] := by
    rw [selections_concat, ← hhistory.selected_eq, selections, if_neg hother.symm]
    rfl
  refine ⟨hhistory.texts_eq, hhistory.listening_eq, hrow, ?_, ?_, ?_⟩
  · rw [hselections, List.getLastD_concat]
    rfl
  · intro other
    rw [hselections]
    simp [Menu.select]
  · rw [hselections, hhistory.told_eq, hhistory.listening_eq]
    by_cases hlistening : start.listening = true <;> simp [hlistening]

theorem History.step (hhistory : History start events menu told) {event : Event}
    (hevent : event.IsRow start.texts.length) :
    ∃ next first, machine.step menu event = some (next, first) ∧
      History start (events ++ [event]) next (told ++ first) := by
  rw [← hhistory.texts_eq] at hevent
  cases event with
  | numberOfItemsInSection =>
      refine ⟨menu, [], step_eq_some_iff.mpr .counted, ?_⟩
      rw [List.append_nil]
      exact hhistory.silent (fun _ heq => by cases heq) rfl
  | nodeForItemAt row =>
      refine ⟨menu, [], step_eq_some_iff.mpr (.asked row hevent), ?_⟩
      rw [List.append_nil]
      exact hhistory.silent (fun _ heq => by cases heq) rfl
  | willDisplayItemWith row =>
      refine ⟨menu.display row, [],
        step_eq_some_iff.mpr (.displayed row hevent hhistory.selected_lt), ?_⟩
      rw [List.append_nil]
      exact hhistory.display row
  | didSelectItemAt row =>
      by_cases hselected : menu.selectedIndex = row
      · refine ⟨menu, [], step_eq_some_iff.mpr (.passed row hselected), ?_⟩
        rw [List.append_nil]
        apply hhistory.silent fun _ heq => by cases heq
        rw [selections, if_pos hselected.symm]
        rfl
      · exact ⟨menu.select row, _, step_eq_some_iff.mpr (.selected row hselected hevent),
          hhistory.select hevent hselected⟩

/-- A run over valid rows goes through and leaves its history. -/
theorem exists_run (hselected : start.selectedIndex < start.texts.length)
    (hunderlined : ∀ row, start.underlined row = false) (events : List Event)
    (hevents : ∀ event ∈ events, event.IsRow start.texts.length) :
    ∃ menu told, machine.run start events = some (menu, told) ∧ History start events menu told := by
  induction events using List.reverseRecOn with
  | nil => exact ⟨start, [], rfl, history_start hselected hunderlined⟩
  | append_singleton events event ih =>
      obtain ⟨menu, told, hrun, hhistory⟩ := ih fun other hother =>
        hevents other (List.mem_append_left _ hother)
      obtain ⟨next, first, hstep, hnext⟩ := hhistory.step
        (hevents event (List.mem_append_right _ List.mem_cons_self))
      refine ⟨next, told ++ first, ?_, hnext⟩
      rw [machine.run_append_eq_some_iff]
      exact ⟨menu, told, first, hrun, (machine.run_singleton menu event).trans hstep, rfl⟩

end Menu

namespace DStickyHeaderNode

variable {header : DStickyHeaderNode} {events : List Event}

theorem texts_of_built (hitems : ∀ item ∈ header.content.items, item ≠ "")
    (hbuilt : ∀ nodes, header.lazyItemCellNodes = some nodes →
      nodes.map TextNode.text = header.content.items) :
    header.menu.texts = header.content.items := by
  cases hnodes : header.lazyItemCellNodes with
  | some nodes =>
      have hself : header.itemCellNodes = nodes := by rw [itemCellNodes, hnodes, Option.getD_some]
      rw [menu, hself]
      exact hbuilt nodes hnodes
  | none =>
      have hself : header.itemCellNodes = buildItemCellNodes header.content := by
        rw [itemCellNodes, hnodes, Option.getD_none]
      have hkept : (header.content.items.filter fun item => 0 < item.length) =
          header.content.items := by
        apply List.filter_eq_self.mpr
        intro item hitem
        simpa [Nat.pos_iff_ne_zero] using hitems item hitem
      calc header.menu.texts
          = (buildItemCellNodes header.content).map TextNode.text := by rw [menu, hself]
        _ = header.content.items := by
            rw [buildItemCellNodes, hkept, List.map_map]
            exact List.map_id _

/-- Runs of the header and of its menu succeed together. -/
theorem exists_run_of_menu_run (hheader : header.Bordered) {menu : Menu} {told : List Nat}
    (hrun : Menu.machine.run header.menu events = some (menu, told)) :
    ∃ final, machine.run header events = some (final, told) ∧ final.menu = menu ∧
      final.Bordered := by
  rw [← menu_run hheader] at hrun
  obtain ⟨⟨final, emitted⟩, hfinal, hpair⟩ := Option.map_eq_some_iff.mp hrun
  cases hpair
  exact ⟨final, hfinal, rfl, preserves_bordered.run hheader hfinal⟩

theorem underlinedAt_eq_true_iff {nodes : List TextNode} {row : Nat} :
    underlinedAt nodes row = true ↔ ∃ node, nodes[row]? = some node ∧ node.isUnderlined = true := by
  unfold underlinedAt
  cases nodes[row]? <;> simp

/-- **One selected item.** From item nodes of the content without underlines, any run of calls over
valid rows goes through. At most the selected node is underlined; it is as soon as it has been
displayed, or tapped while another was selected. The listener was told every change. -/
theorem one_selected_item (header : DStickyHeaderNode) (events : List Event)
    (hitems : ∀ item ∈ header.content.items, item ≠ "")
    (hselected : header.content.selectedIndex < header.content.items.length)
    (hbuilt : ∀ nodes, header.lazyItemCellNodes = some nodes →
      nodes.map TextNode.text = header.content.items)
    (hclear : ∀ node ∈ header.itemCellNodes, node.isUnderlined = false)
    (hevents : ∀ event ∈ events, event.IsRow header.content.items.length) :
    ∃ final told, machine.run header events = some (final, told) ∧
      (∀ row node, final.itemCellNodes[row]? = some node → node.isUnderlined = true →
        row = final.content.selectedIndex) ∧
      (.willDisplayItemWith final.content.selectedIndex ∈ events ∨
          final.content.selectedIndex ∈ selections header.content.selectedIndex events →
        ∃ node, final.itemCellNodes[final.content.selectedIndex]? = some node ∧
          node.isUnderlined = true) ∧
      told = (if header.selectedMenu then selections header.content.selectedIndex events
        else []) ∧
      final.content.selectedIndex =
        (selections header.content.selectedIndex events).getLastD header.content.selectedIndex ∧
      ∀ value, told.getLast? = some value → value = final.content.selectedIndex := by
  have htexts := texts_of_built hitems hbuilt
  have hheader : header.Bordered := fun node hnode =>
    TextNode.bordered_of_not_underlined (hclear node hnode)
  obtain ⟨menu, told, hmenu, hhistory⟩ := @Menu.exists_run header.menu
    (by rwa [htexts]) (fun row => congrFun (underlinedAt_of_forall hclear) row) events
    (by rwa [htexts])
  obtain ⟨final, hrun, rfl, -⟩ := exists_run_of_menu_run hheader hmenu
  refine ⟨final, told, hrun, ?_, ?_, hhistory.told_eq, hhistory.selected_eq, ?_⟩
  · intro row node hnode hunderlined
    exact ((hhistory.underlined_iff row).mp
      (underlinedAt_eq_true_iff.mpr ⟨node, hnode, hunderlined⟩)).1
  · intro hshown
    apply underlinedAt_eq_true_iff.mp
    exact (hhistory.underlined_iff _).mpr ⟨rfl, hshown.imp_right List.ne_nil_of_mem⟩
  · intro value hvalue
    rw [hhistory.told_eq] at hvalue
    by_cases hlistening : header.selectedMenu = true
    · have htold : (selections header.content.selectedIndex events).getLast? = some value := by
        simpa [menu, hlistening] using hvalue
      rw [← selectedIndex_menu, hhistory.selected_eq, List.getLastD_eq_getLast?]
      exact (congrArg (Option.getD · _) htold).symm
    · simp [menu, hlistening] at hvalue

theorem one_selected_item_two :
    ∃ final told, machine.run (make { items := ["a", "b"] } true)
        [.willDisplayItemWith 0, .didSelectItemAt 1] = some (final, told) ∧ told = [1] := by
  obtain ⟨final, told, hrun, -, -, htold, -⟩ := one_selected_item
    (make { items := ["a", "b"] } true) [.willDisplayItemWith 0, .didSelectItemAt 1] (by decide)
    (by decide) (fun _ hnodes => by cases hnodes) (by decide) (by decide)
  exact ⟨final, told, hrun, htold⟩

/-- A tap on the selected item is passed over, also before the item has been displayed. -/
theorem tap_on_selected_item :
    ∃ final, machine.run (make { items := ["a"] } true) [.didSelectItemAt 0] =
        some (final, []) ∧
      final.content.selectedIndex = 0 ∧ final.itemCellNodes.map TextNode.isUnderlined = [false] :=
  ⟨_, rfl, rfl, by decide⟩

end DStickyHeaderNode

end PFXTexture
