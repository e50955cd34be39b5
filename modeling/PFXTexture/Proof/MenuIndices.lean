import PFXTexture.Proof.MenuSelection

/-!
# Indices of a menu

`selectedIndex` counts the items of the content, the rows of the collection count its item nodes,
and empty items have none. The two agree when the empty items come last.
-/

namespace PFXTexture

open DStickyHeaderNode (Event TextNode)

section FilteredPrefix

variable {α : Type*}

/-- The kept elements are the beginning if as many elements at the beginning are kept. -/
theorem filter_eq_take {items : List α} {keep : α → Bool}
    (hkeep : ∀ row < (items.filter keep).length, ∃ item, items[row]? = some item ∧ keep item) :
    items.filter keep = items.take (items.filter keep).length := by
  have hle : (items.filter keep).length ≤ items.length := List.length_filter_le _ _
  have htake : (items.take (items.filter keep).length).filter keep =
      items.take (items.filter keep).length := by
    rw [List.filter_eq_self]
    intro item hitem
    obtain ⟨row, hrow⟩ := List.mem_iff_getElem?.mp hitem
    rw [List.getElem?_take] at hrow
    obtain ⟨hlt, hrow⟩ := Option.ite_none_right_eq_some.mp hrow
    obtain ⟨kept, hkept, hpositive⟩ := hkeep row hlt
    rw [hrow] at hkept
    rwa [Option.some.inj hkept]
  -- the kept items fill the first places, so none is left for the others
  have hsplit : items.filter keep = items.take (items.filter keep).length ++
      (items.drop (items.filter keep).length).filter keep := by
    calc items.filter keep
        = (items.take (items.filter keep).length ++
            items.drop (items.filter keep).length).filter keep := by rw [List.take_append_drop]
      _ = items.take (items.filter keep).length ++
            (items.drop (items.filter keep).length).filter keep := by
          rw [List.filter_append, htake]
  have hlength := congrArg List.length hsplit
  rw [List.length_append, List.length_take_of_le hle] at hlength
  have hnone : (items.drop (items.filter keep).length).filter keep = [] :=
    List.eq_nil_of_length_eq_zero (by omega)
  rw [hnone, List.append_nil] at hsplit
  exact hsplit

/-- A kept item stands among the kept items if these are the beginning. -/
theorem lt_length_filter {items : List α} {keep : α → Bool}
    (hbeginning : items.filter keep <+: items) {row : Nat} (hrow : row < items.length)
    (hkeep : keep items[row] = true) : row < (items.filter keep).length := by
  by_contra hbehind
  obtain ⟨rest, hrest⟩ := hbeginning
  have hnone : rest.filter keep = [] := by
    have hfiltered := congrArg (List.filter keep) hrest
    rw [List.filter_append, List.filter_filter] at hfiltered
    simpa using hfiltered
  have hget : items[row]? = rest[row - (items.filter keep).length]? := by
    calc items[row]? = (items.filter keep ++ rest)[row]? := by rw [hrest]
      _ = rest[row - (items.filter keep).length]? :=
          List.getElem?_append_right (Nat.not_lt.mp hbehind)
  rw [List.getElem?_eq_getElem hrow] at hget
  exact List.filter_eq_nil_iff.mp hnone _ (List.mem_of_getElem? hget.symm) hkeep

/-- What is filtered out comes last exactly if what is kept is the beginning. -/
theorem filter_prefix_iff {keep : α → Bool} : ∀ {items : List α},
    items.filter keep <+: items ↔ items.Pairwise fun earlier later => ¬keep earlier → ¬keep later
  | [] => by simp
  | item :: items => by
      rw [List.pairwise_cons]
      by_cases hitem : keep item = true
      · rw [List.filter_cons_of_pos hitem, List.prefix_cons_inj, filter_prefix_iff]
        simp [hitem]
      · rw [List.filter_cons_of_neg hitem]
        constructor
        · intro hbeginning
          -- a kept item would have to be the rejected head
          have hnone : ∀ later ∈ items, ¬keep later = true := by
            rw [← List.filter_eq_nil_iff]
            by_contra hkept
            obtain ⟨head, tail, hcons⟩ := List.exists_cons_of_ne_nil hkept
            have hhead : head ∈ items.filter keep := by
              rw [hcons]
              exact List.mem_cons_self
            rw [hcons, List.cons_prefix_cons] at hbeginning
            rw [hbeginning.1] at hhead
            exact hitem (List.mem_filter.mp hhead).2
          exact ⟨fun later hlater _ => hnone later hlater,
            List.pairwise_iff_forall_sublist.mpr fun hsub _ =>
              hnone _ (hsub.subset (by simp))⟩
        · rintro ⟨hrest, -⟩
          have hnone : items.filter keep = [] := by
            rw [List.filter_eq_nil_iff]
            exact fun later hlater => hrest later hlater hitem
          rw [hnone]
          exact List.nil_prefix

end FilteredPrefix

namespace Menu

theorem underlined_display_self (menu : Menu) (row : Nat) :
    (menu.display row).underlined row = decide (row = menu.selectedIndex) :=
  Function.update_self _ _ _

/-- No call changes the texts, and the selected index stays in range. -/
theorem preserves_texts (texts : List String) : machine.Preserves fun menu =>
    menu.texts = texts ∧ menu.selectedIndex < menu.texts.length := by
  rintro menu event next emitted ⟨htexts, hselected⟩ hstep
  cases step_eq_some_iff.mp hstep with
  | counted => exact ⟨htexts, hselected⟩
  | asked row hrow => exact ⟨htexts, hselected⟩
  | displayed row hrow hvalid => exact ⟨htexts, hselected⟩
  | passed row hsame => exact ⟨htexts, hselected⟩
  | selected row hother hrow => exact ⟨htexts, hrow⟩

end Menu

namespace DStickyHeaderNode

/-- What `selectedIndex` and the rows of a header mean in terms of `items`. -/
structure IndicesAgreeIn (items : List String) (header : DStickyHeaderNode) : Prop where
  display_ok : ∀ row < header.itemCellNodes.length, header.willDisplayItemWith row ≠ none
  underlined : ∃ selected node, header.itemCellNodes[selected]? = some node ∧
    items[header.content.selectedIndex]? = some node.text ∧
    ∀ row next, header.willDisplayItemWith row = some next →
      (underlinedAt next.itemCellNodes row = true ↔ row = selected)
  told : ∀ row node next emitted, header.itemCellNodes[row]? = some node →
    header.didSelectItemAt row = some (next, emitted) →
      ∀ value ∈ emitted, items[value]? = some node.text

def IndicesAgree (content : Content) : Prop :=
  ∀ selectedMenu events header emitted,
    machine.run (make content selectedMenu) events = some (header, emitted) →
      header.IndicesAgreeIn content.items

variable {header : DStickyHeaderNode} {content : Content}

theorem texts_make (content : Content) (selectedMenu : Bool) :
    (make content selectedMenu).menu.texts =
      content.items.filter fun item => 0 < item.length := by
  calc (make content selectedMenu).menu.texts
      = (buildItemCellNodes content).map TextNode.text := rfl
    _ = content.items.filter fun item => 0 < item.length := by
        rw [buildItemCellNodes, List.map_map]
        exact List.map_id _

theorem length_pos_iff (item : String) : decide (0 < item.length) = true ↔ item ≠ "" := by
  simp [Nat.pos_iff_ne_zero]

theorem getElem?_texts (header : DStickyHeaderNode) (row : Nat) :
    header.menu.texts[row]? = header.itemCellNodes[row]?.map TextNode.text :=
  List.getElem?_map

/-- The header of a menu whose texts are the first items. -/
theorem indicesAgreeIn_of_prefix {items : List String} (hheader : header.Bordered)
    (htexts : header.menu.texts <+: items)
    (hselected : header.content.selectedIndex < header.itemCellNodes.length) :
    header.IndicesAgreeIn items := by
  have hitem : ∀ (row : Nat) (node : TextNode), header.itemCellNodes[row]? = some node →
      items[row]? = some node.text := by
    intro row node hnode
    obtain ⟨rest, rfl⟩ := htexts
    rw [List.getElem?_append_left, getElem?_texts, hnode, Option.map_some]
    rw [length_texts]
    exact (List.getElem?_eq_some_iff.mp hnode).1
  refine ⟨?_, ?_, ?_⟩
  · intro row hrow
    rw [willDisplayItemWith_eq, if_pos ⟨hrow, hselected⟩]
    exact Option.some_ne_none _
  · have hnode := List.getElem?_eq_getElem hselected
    refine ⟨header.content.selectedIndex, _, hnode, hitem _ _ hnode, ?_⟩
    intro row next hdisplay
    rw [willDisplayItemWith_eq] at hdisplay
    obtain ⟨hvalid, hnext⟩ := Option.ite_none_right_eq_some.mp hdisplay
    cases hnext
    have hunderlined := congrFun (congrArg Menu.underlined (menu_display hheader hvalid.1)) row
    have hrow := hunderlined.trans (Menu.underlined_display_self header.menu row)
    exact (Bool.eq_iff_iff.mp hrow).trans decide_eq_true_iff
  · intro row node next emitted hnode htap value hvalue
    rw [didSelectItemAt_eq] at htap
    split at htap
    · cases htap
      cases hvalue
    · obtain ⟨-, hnext⟩ := Option.ite_none_right_eq_some.mp htap
      cases hnext
      have hrow : value = row := by
        split at hvalue
        · exact List.mem_singleton.mp hvalue
        · cases hvalue
      rw [hrow]
      exact hitem row node hnode

/-- **Both sides mean the same indices** precisely when no empty item stands before another one
that is not empty. -/
theorem indices_agree_iff (content : Content)
    (hselected : content.selectedIndex < content.items.length)
    (hitem : content.items[content.selectedIndex] ≠ "") :
    IndicesAgree content ↔
      content.items.Pairwise fun earlier later => earlier = "" → later = "" := by
  have hpairwise : (content.items.filter fun item => 0 < item.length) <+: content.items ↔
      content.items.Pairwise fun earlier later => earlier = "" → later = "" := by
    rw [filter_prefix_iff]
    simp only [length_pos_iff, not_not]
  rw [← hpairwise]
  constructor
  · intro hagree
    have hfresh := hagree true [] (make content true) [] rfl
    have htexts := texts_make content true
    rw [← htexts]
    have htake : content.items.filter (fun item => 0 < item.length) =
        content.items.take (content.items.filter fun item => 0 < item.length).length := by
      apply filter_eq_take
      intro row hrow
      by_cases hsame : row = content.selectedIndex
      · rw [hsame]
        exact ⟨_, List.getElem?_eq_getElem hselected, (length_pos_iff _).mpr hitem⟩
      · -- a tap on this row hands on its own index
        rw [← htexts, length_texts] at hrow
        have hnode := List.getElem?_eq_getElem hrow
        obtain ⟨next, htap⟩ : ∃ next, (make content true).didSelectItemAt row =
            some (next, [row]) := by
          have hother : (make content true).content.selectedIndex ≠ row := Ne.symm hsame
          rw [didSelectItemAt_eq, if_neg hother, if_pos hrow]
          exact ⟨_, rfl⟩
        have htold := hfresh.told row _ _ _ hnode htap row List.mem_cons_self
        refine ⟨_, htold, ?_⟩
        have hmem : (make content true).itemCellNodes[row].text ∈
            (make content true).menu.texts := List.mem_map_of_mem (List.getElem_mem hrow)
        rw [htexts] at hmem
        exact (List.mem_filter.mp hmem).2
    rw [htexts, htake]
    exact List.take_prefix _ _
  · intro hbeginning selectedMenu events header emitted hrun
    have hmake := bordered_make content selectedMenu
    have hinv : (make content selectedMenu).menu.texts = (make content selectedMenu).menu.texts ∧
        (make content selectedMenu).menu.selectedIndex <
          (make content selectedMenu).menu.texts.length := by
      refine ⟨rfl, ?_⟩
      rw [texts_make]
      exact lt_length_filter hbeginning hselected ((length_pos_iff _).mpr hitem)
    have hmenu := congrArg (Option.map (Prod.map menu id)) hrun
    rw [menu_run hmake] at hmenu
    obtain ⟨htexts, hselected'⟩ := (Menu.preserves_texts _).run hinv hmenu
    apply indicesAgreeIn_of_prefix (preserves_bordered.run hmake hrun)
    · rw [htexts, texts_make]
      exact hbeginning
    · rwa [length_texts] at hselected'

theorem indices_agree_trailing :
    IndicesAgree { items := ["a", ""] } ↔
      ["a", ""].Pairwise fun earlier later => earlier = "" → later = "" :=
  indices_agree_iff { items := ["a", ""] } (by decide) (by decide)

/-- Behind an empty item the selected index is out of range of the item nodes. -/
theorem leading_empty_item_traps :
    (make { items := ["", "a"], selectedIndex := 1 } true).itemCellNodes.length = 1 ∧
      (make { items := ["", "a"], selectedIndex := 1 } true).willDisplayItemWith 0 = none ∧
      ¬IndicesAgree { items := ["", "a"], selectedIndex := 1 } := by
  refine ⟨rfl, rfl, ?_⟩
  intro hagree
  exact (hagree true [] _ [] rfl).display_ok 0 (by decide) rfl

end DStickyHeaderNode

end PFXTexture
