import PFXTexture.Proof.Underlines

/-!
# The calls of an item node

The calls of the collection node decide which calls each item node gets, and these decide everything
about it. A selection comes directly after a deselection, so a header of image nodes would look the
same.
-/

namespace PFXTexture.DStickyHeaderNode

open DStickyHeaderNodeProtocol (Call callAll)

/-- The calls that one event makes on the item node at `row`. -/
def callsOf (row selectedIndex : Nat) : Event → List Call
  | .numberOfItemsInSection | .nodeForItemAt _ => []
  | .willDisplayItemWith shown =>
      if shown = row then
        if row = selectedIndex then [.deselected, .selected] else [.deselected]
      else
        []
  | .didSelectItemAt tapped =>
      if selectedIndex = tapped then
        []
      else if tapped = row then
        [.deselected, .selected]
      else
        [.deselected]

def nextSelectedIndex (selectedIndex : Nat) : Event → Nat
  | .didSelectItemAt row => row
  | .numberOfItemsInSection | .nodeForItemAt _ | .willDisplayItemWith _ => selectedIndex

def calls (row : Nat) : Nat → List Event → List Call
  | _, [] => []
  | selectedIndex, event :: events =>
      callsOf row selectedIndex event ++ calls row (nextSelectedIndex selectedIndex event) events

variable {header next : DStickyHeaderNode} {event : Event} {events : List Event} {told : List Nat}

/-! ### One event -/

theorem getElem?_modify_map (nodes : List TextNode) (change : TextNode → TextNode)
    (row other : Nat) : (nodes.modify row change)[other]? =
      nodes[other]?.map fun node => if row = other then change node else node := by
  rw [List.getElem?_modify]
  split <;> rfl

/-- No event calls a node without clearing it first. -/
theorem displayed_eq_callAll (header : DStickyHeaderNode) (shown row : Nat) (node : TextNode) :
    (if shown = row then header.displayed shown node else node) =
      callAll node (callsOf row header.content.selectedIndex (.willDisplayItemWith shown)) := by
  unfold displayed callsOf
  by_cases hshown : shown = row
  · subst hshown
    by_cases hselected : shown = header.content.selectedIndex
    · simp only [if_true, hselected]
      rfl
    · simp only [if_true, hselected, if_false]
      rfl
  · simp only [hshown, if_false]
    rfl

theorem tapped_eq_callAll {selectedIndex tapped : Nat} (hother : selectedIndex ≠ tapped)
    (row : Nat) (node : TextNode) :
    (if tapped = row then node.deselected.selected else node.deselected) =
      callAll node (callsOf row selectedIndex (.didSelectItemAt tapped)) := by
  rw [callsOf, if_neg hother]
  by_cases htapped : tapped = row
  · rw [if_pos htapped, if_pos htapped]
    rfl
  · rw [if_neg htapped, if_neg htapped]
    rfl

theorem item_step (hstep : machine.step header event = some (next, told)) (row : Nat) :
    next.content.selectedIndex = nextSelectedIndex header.content.selectedIndex event ∧
      next.itemCellNodes[row]? = header.itemCellNodes[row]?.map fun node =>
        callAll node (callsOf row header.content.selectedIndex event) := by
  have hnone : header.itemCellNodes[row]? =
      header.itemCellNodes[row]?.map fun node => callAll node [] := Option.map_id'.symm
  cases event with
  | numberOfItemsInSection =>
      cases hstep
      exact ⟨rfl, hnone⟩
  | nodeForItemAt asked =>
      obtain ⟨_, hnode, hpair⟩ := Option.map_eq_some_iff.mp hstep
      cases hpair
      obtain ⟨_, -, hnext⟩ := Option.map_eq_some_iff.mp hnode
      cases hnext
      exact ⟨rfl, hnone⟩
  | willDisplayItemWith shown =>
      obtain ⟨_, hdisplay, hpair⟩ := Option.map_eq_some_iff.mp hstep
      cases hpair
      rw [willDisplayItemWith_eq] at hdisplay
      obtain ⟨-, hnext⟩ := Option.ite_none_right_eq_some.mp hdisplay
      cases hnext
      refine ⟨rfl, (getElem?_modify_map _ _ shown row).trans ?_⟩
      exact congrArg (header.itemCellNodes[row]?.map ·)
        (funext (header.displayed_eq_callAll shown row))
  | didSelectItemAt tapped =>
      have htapped : header.didSelectItemAt tapped = some (next, told) := hstep
      rw [didSelectItemAt_eq] at htapped
      by_cases hsame : header.content.selectedIndex = tapped
      · rw [if_pos hsame] at htapped
        cases htapped
        rw [callsOf, if_pos hsame]
        exact ⟨hsame, hnone⟩
      · rw [if_neg hsame] at htapped
        obtain ⟨-, hnext⟩ := Option.ite_none_right_eq_some.mp htapped
        cases hnext
        refine ⟨rfl, (getElem?_modify_map _ _ tapped row).trans ?_⟩
        rw [List.getElem?_map, Option.map_map]
        exact congrArg (header.itemCellNodes[row]?.map ·)
          (funext (tapped_eq_callAll hsame row))

/-! ### Runs -/

theorem item_run {told : List Nat} (hrun : machine.run header events = some (next, told))
    (row : Nat) : next.itemCellNodes[row]? = header.itemCellNodes[row]?.map fun node =>
      callAll node (calls row header.content.selectedIndex events) := by
  induction events generalizing header told with
  | nil =>
      obtain ⟨rfl, -⟩ : header = next ∧ [] = told := by simpa using hrun
      exact Option.map_id'.symm
  | cons event events ih =>
      obtain ⟨middle, first, rest, hstep, hrest, -⟩ := machine.run_cons_eq_some_iff.mp hrun
      obtain ⟨hselected, hitem⟩ := item_step hstep row
      rw [ih hrest, hitem, hselected, Option.map_map]
      apply congrArg (header.itemCellNodes[row]?.map ·)
      funext node
      exact List.foldl_append.symm

/-! ### No selection directly after another -/

theorem callsOf_cases (row selectedIndex : Nat) (event : Event) :
    callsOf row selectedIndex event = [] ∨ callsOf row selectedIndex event = [.deselected] ∨
      callsOf row selectedIndex event = [.deselected, .selected] := by
  cases event with
  | numberOfItemsInSection => exact .inl rfl
  | nodeForItemAt asked => exact .inl rfl
  | willDisplayItemWith shown =>
      rw [callsOf]
      split_ifs <;> simp
  | didSelectItemAt tapped =>
      rw [callsOf]
      split_ifs <;> simp

theorem alternating_deselected {calls : List Call} (hcalls : Handle.Alternating isSelected calls) :
    Handle.Alternating isSelected (.deselected :: calls) :=
  List.isChain_cons.mpr ⟨fun _ _ hboth => Bool.false_ne_true hboth.1, hcalls⟩

theorem alternating_selected {calls : List Call} (hcalls : Handle.Alternating isSelected calls)
    (hhead : calls.head? ≠ some .selected) :
    Handle.Alternating isSelected (.selected :: calls) := by
  refine List.isChain_cons.mpr ⟨?_, hcalls⟩
  rintro call hcall ⟨-, hselected⟩
  cases call with
  | selected => exact hhead hcall
  | deselected => exact Bool.false_ne_true hselected

/-- The first call is a deselection, and so is the one after a selection. -/
theorem alternating_calls (row selectedIndex : Nat) (events : List Event) :
    Handle.Alternating isSelected (calls row selectedIndex events) ∧
      (calls row selectedIndex events).head? ≠ some .selected := by
  induction events generalizing selectedIndex with
  | nil => exact ⟨.nil, Option.some_ne_none _ |>.symm⟩
  | cons event events ih =>
      obtain ⟨hlater, hhead⟩ := ih (nextSelectedIndex selectedIndex event)
      rw [calls]
      rcases callsOf_cases row selectedIndex event with hcalls | hcalls | hcalls
      · rw [hcalls]
        exact ⟨hlater, hhead⟩
      · rw [hcalls]
        exact ⟨alternating_deselected hlater, by simp⟩
      · rw [hcalls]
        exact ⟨alternating_deselected (alternating_selected hlater hhead), by simp⟩

/-- **An item node is what its calls make it, and an image node would do as well**: in every run of
a header each node is a new one after the calls that the events decide for its row, and an image
node that gets these calls shows as many underlines. -/
theorem items_called (content : Content) (selectedMenu : Bool) (events : List Event)
    (header : DStickyHeaderNode) (told : List Nat)
    (hrun : machine.run (make content selectedMenu) events = some (header, told)) :
    header.itemCellNodes = (content.items.filter fun item => 0 < item.length).mapIdx
        (fun row text => callAll (TextNode.make text) (calls row content.selectedIndex events)) ∧
      header.itemCellNodes.map (fun node => node.view.underlines) =
        (content.items.filter fun item => 0 < item.length).mapIdx fun row _ =>
          (callAll ImageNode.make (calls row content.selectedIndex events)).view.underlines := by
  have hnodes : header.itemCellNodes =
      (content.items.filter fun item => 0 < item.length).mapIdx fun row text =>
        callAll (TextNode.make text) (calls row content.selectedIndex events) := by
    apply List.ext_getElem?
    intro row
    rw [item_run hrun row, List.getElem?_mapIdx]
    have hmake : (make content selectedMenu).itemCellNodes = buildItemCellNodes content := rfl
    rw [hmake, buildItemCellNodes, List.getElem?_map, Option.map_map]
    rfl
  refine ⟨hnodes, ?_⟩
  apply List.ext_getElem?
  intro row
  rw [hnodes, List.getElem?_map, List.getElem?_mapIdx, List.getElem?_mapIdx, Option.map_map]
  apply congrArg (Option.map · _)
  funext text
  calc (callAll (TextNode.make text) (calls row content.selectedIndex events)).view.underlines
      = Handle.expected isSelected (calls row content.selectedIndex events) :=
        (TextNode.underlines_callAll text _).2
    _ = (callAll ImageNode.make (calls row content.selectedIndex events)).view.underlines :=
        ((ImageNode.underlines_callAll_iff _).mpr
          (alternating_calls row content.selectedIndex events).1).symm

theorem items_called_tapped :
    ∃ header told, machine.run (make { items := ["a", "b"] } true)
        [.willDisplayItemWith 0, .didSelectItemAt 1] = some (header, told) ∧
      header.itemCellNodes.map (fun node => node.view.underlines) = [0, 1] := by
  obtain ⟨header, told, hrun⟩ : ∃ header told, machine.run (make { items := ["a", "b"] } true)
      [.willDisplayItemWith 0, .didSelectItemAt 1] = some (header, told) := ⟨_, _, rfl⟩
  exact ⟨header, told, hrun, (items_called _ _ _ _ _ hrun).2⟩

end PFXTexture.DStickyHeaderNode
