import PFXTexture.Library.Broadcast
import PFXTexture.Proof.Bindings
import PFXTexture.Proof.Validators
import PFXTexture.RepositoryCellNodes

/-!
# What the nodes of a row show

The view model of a row is a publisher and its nodes are the listeners: a node that is made has all
of them filled again, unless the view model was torn down. A filled node shows what the row holds.
-/

namespace PFXTexture

/-! ### Texts -/

theorem ASTextNode.length_pos_iff (node : ASTextNode) :
    0 < node.length ↔ ∃ text, node.attributedText = some text ∧ text ≠ "" := by
  unfold ASTextNode.length
  cases node.attributedText with
  | none => simp
  | some text =>
      have hunits : 0 < utf16Length text.toList ↔ text ≠ "" := by
        rw [ne_eq, ← String.toList_eq_nil_iff]
        cases hscalars : text.toList with
        | nil => simp [utf16Length]
        | cons scalar scalars =>
            have hlength := length_le_utf16Length (scalar :: scalars)
            rw [List.length_cons] at hlength
            exact iff_of_true (by omega) (List.cons_ne_nil _ _)
      simpa using hunits

/-- A stack leaves out the nodes without text and the ones with an empty text. -/
theorem filterMap_attributedText (nodes : List ASTextNode) :
    (nodes.filter fun node => 0 < node.length).filterMap ASTextNode.attributedText =
      (nodes.filterMap ASTextNode.attributedText).filter (· ≠ "") := by
  induction nodes with
  | nil => rfl
  | cons node nodes ih =>
      have hnode := node.length_pos_iff
      cases htext : node.attributedText with
      | none =>
          have hempty : ¬0 < node.length := by simp [hnode, htext]
          rw [List.filter_cons_of_neg (by simpa using hempty), ih,
            List.filterMap_cons_none htext]
      | some text =>
          rw [List.filterMap_cons_some htext]
          by_cases hne : text = ""
          · have hempty : ¬0 < node.length := by simp [hnode, htext, hne]
            rw [List.filter_cons_of_neg (by simpa using hempty), ih,
              List.filter_cons_of_neg (by simpa using hne)]
          · have hfull : 0 < node.length := by simp [hnode, htext, hne]
            rw [List.filter_cons_of_pos (by simpa using hfull), List.filterMap_cons_some htext, ih,
              List.filter_cons_of_pos (by simpa using hne)]

def RepositoryBannerCellNode.LayoutSpec.texts : LayoutSpec → List String
  | .content elements => elements.filterMap ASTextNode.attributedText
  | .partner spec => [spec.regionNode, spec.nameNode].filterMap ASTextNode.attributedText

theorem RepositoryBannerCellNode.texts_layoutSpecThatFits (node : RepositoryBannerCellNode) :
    node.layoutSpecThatFits.flatMap LayoutSpec.texts =
      ([node.titleNode, node.descriptionNode].filterMap ASTextNode.attributedText).filter (· ≠ "") ++
        node.partnerModels.flatMap fun model => [model.region, model.name] := by
  rw [layoutSpecThatFits, List.flatMap_cons, List.flatMap_map, LayoutSpec.texts, contentLayoutSpec,
    filterMap_attributedText]
  rfl

namespace RowNode

open CellBindings (onWillDisplay)

/-- The texts a node lays out, from top to bottom. -/
def texts : RowNode → List String
  | .list node => node.contentLayoutSpec.filterMap ASTextNode.attributedText
  | .banner node => node.layoutSpecThatFits.flatMap RepositoryBannerCellNode.LayoutSpec.texts

/-- The texts a row has for its nodes. -/
def rowTexts (viewModel : RxCellViewModel) : List String :=
  match viewModel.subclass with
  | .repository model =>
      ((model.user.map UserModel.username).toList ++ model.desc.toList).filter (· ≠ "")
  | .banner dependency =>
      [dependency.title, dependency.desc].filter (· ≠ "") ++
        dependency.partnerModels.flatMap fun model => [model.region, model.name]
  | .info _ | .none => []

/-- What a node comes to show. -/
def shown (viewModel : RxCellViewModel) : Option RowNode :=
  match viewModel.subclass with
  | .repository model =>
      some (.list
        { id := model.id
          userProfileNode := { url := model.user.bind UserModel.profileURL }
          usernameNode :=
            { attributedText := model.user.map UserModel.username, maximumNumberOfLines := 1 }
          descriptionNode := { attributedText := model.desc, maximumNumberOfLines := 1 } })
  | .banner dependency =>
      some (.banner
        { partnerModels := dependency.partnerModels
          titleNode := { attributedText := some dependency.title, maximumNumberOfLines := 1 }
          descriptionNode :=
            { attributedText := some dependency.desc, maximumNumberOfLines := 1 } })
  | .info _ | .none => none

def fill (viewModel : RxCellViewModel) (node : RowNode) : RowNode :=
  (onWillDisplay viewModel).foldl receive node

variable (viewModel : RxCellViewModel) (node : RowNode)

theorem map_fill_make : (make viewModel).map (fill viewModel) = shown viewModel := by
  unfold make shown fill onWillDisplay
  cases viewModel.subclass with
  | none => rfl
  | repository model =>
      rcases model with ⟨id, _ | ⟨username, _ | profileURL⟩, _, _ | desc, _, _⟩ <;> rfl
  | banner dependency => rfl
  | info dependency => rfl

theorem fill_fill : fill viewModel (fill viewModel node) = fill viewModel node := by
  unfold fill onWillDisplay
  cases viewModel.subclass with
  | none => rfl
  | repository model =>
      rcases model with ⟨id, _ | ⟨username, _ | profileURL⟩, _, _ | desc, _, _⟩ <;>
        cases node <;> rfl
  | banner dependency => cases node <;> rfl
  | info dependency => cases node <;> rfl

theorem receive_tapped (output : CellBindings.Output) :
    node.textNodeTappedTruncationToken.receive output =
      (node.receive output).textNodeTappedTruncationToken := by
  cases node <;> cases output <;> rfl

theorem fill_tapped :
    fill viewModel node.textNodeTappedTruncationToken =
      (fill viewModel node).textNodeTappedTruncationToken := by
  unfold fill
  induction onWillDisplay viewModel generalizing node with
  | nil => rfl
  | cons output outputs ih => rw [List.foldl_cons, receive_tapped, ih, List.foldl_cons]

theorem texts_tapped : node.textNodeTappedTruncationToken.texts = node.texts := by
  cases node with
  | list node =>
      simp only [textNodeTappedTruncationToken, texts, RepositoryListCellNode.contentLayoutSpec,
        filterMap_attributedText]
      rfl
  | banner node =>
      simp only [textNodeTappedTruncationToken, texts,
        RepositoryBannerCellNode.texts_layoutSpecThatFits]
      rfl

theorem texts_make {viewModel : RxCellViewModel} {blank : RowNode}
    (hblank : make viewModel = some blank) : blank.texts = [] := by
  unfold make at hblank
  cases hsubclass : viewModel.subclass with
  | none => simp [hsubclass] at hblank
  | repository model =>
      simp only [hsubclass, Option.some.injEq] at hblank
      rw [← hblank]
      rfl
  | banner dependency =>
      simp only [hsubclass, Option.some.injEq] at hblank
      rw [← hblank]
      rfl
  | info dependency => simp [hsubclass] at hblank

theorem texts_shown {viewModel : RxCellViewModel} {filled : RowNode}
    (hfilled : shown viewModel = some filled) : filled.texts = rowTexts viewModel := by
  unfold shown at hfilled
  unfold rowTexts
  cases hsubclass : viewModel.subclass with
  | none => simp [hsubclass] at hfilled
  | repository model =>
      simp only [hsubclass, Option.some.injEq] at hfilled
      rw [← hfilled, texts, RepositoryListCellNode.contentLayoutSpec, filterMap_attributedText]
      apply congrArg
      cases model.user <;> cases model.desc <;> rfl
  | banner dependency =>
      simp only [hsubclass, Option.some.injEq] at hfilled
      rw [← hfilled, texts, RepositoryBannerCellNode.texts_layoutSpecThatFits]
      rfl
  | info dependency => simp [hsubclass] at hfilled

theorem tapped_tapped :
    node.textNodeTappedTruncationToken.textNodeTappedTruncationToken =
      node.textNodeTappedTruncationToken := by
  cases node <;> rfl

end RowNode

namespace RowScene

open CellBindings (Kept BoundTimes onWillDisplay)

/-! ### The publisher -/

def call : Event → Broadcast.Event
  | .nodeMade => .join
  | .released node => .leave node
  | .textNodeTappedTruncationToken node => .touch node
  | .initializeCall => .bind
  | .deinitializeCall => .unbind

/-- Bound means that `willDisplay` has an observer. -/
def broadcast (scene : RowScene) : Broadcast RowNode where
  bound := scene.bindings.willDisplayObservers.length = 1
  listeners := scene.nodes

structure OneRow (viewModel : RxCellViewModel) (scene : RowScene) : Prop where
  kept : Kept viewModel scene.bindings
  bound_le : scene.bindings.willDisplayObservers.length ≤ 1

variable {viewModel : RxCellViewModel} {blank : RowNode} {scene next : RowScene} {event : Event}
  {events : List Event} {emitted : List Empty}

theorem subclass_ne_none (hblank : RowNode.make viewModel = some blank) :
    viewModel.subclass ≠ .none := by
  intro hnone
  rw [RowNode.make, hnone] at hblank
  cases hblank

theorem OneRow.willDisplay_eq (hrow : OneRow viewModel scene) :
    scene.bindings.willDisplay =
      if scene.bindings.willDisplayObservers.length = 1 then onWillDisplay viewModel else [] := by
  rw [CellBindings.willDisplay_eq_flatten, hrow.kept.viewModel_eq]
  obtain hlength | hlength : scene.bindings.willDisplayObservers.length = 0 ∨
      scene.bindings.willDisplayObservers.length = 1 := by
    have hbound := hrow.bound_le
    omega
  · rw [hlength]
    rfl
  · rw [hlength]
    exact List.append_nil _

theorem broadcast_nodeMade (hrow : OneRow viewModel scene)
    (hblank : RowNode.make viewModel = some blank) (hmade : scene.nodeMade = some next) :
    scene.broadcast.join blank (RowNode.fill viewModel) = next.broadcast := by
  obtain ⟨made, hsame, rfl⟩ := Option.map_eq_some_iff.mp hmade
  rw [hrow.kept.viewModel_eq, hblank] at hsame
  obtain rfl := Option.some.inj hsame
  rw [hrow.willDisplay_eq, Broadcast.join]
  by_cases hbound : scene.bindings.willDisplayObservers.length = 1
  · simp only [broadcast, hbound, decide_true, if_true]
    rfl
  · have hsilent : ∀ nodes : List (Option RowNode),
        nodes.map (fun node => node.map fun node => [].foldl RowNode.receive node) = nodes := by
      intro nodes
      exact List.map_congr_left (fun node _ => Option.map_id_apply) |>.trans (List.map_id _)
    simp only [broadcast, hbound, decide_false, Bool.false_eq_true, if_false, hsilent]

theorem broadcast_change (node : Nat) (changed : RowNode → Option RowNode) :
    scene.broadcast.change node changed = (scene.change node changed).map broadcast := by
  rw [change, Option.map_map]
  rfl

theorem OneRow.step (hblank : RowNode.make viewModel = some blank) (hrow : OneRow viewModel scene)
    (hstep : machine.step scene event = some (next, emitted)) :
    OneRow viewModel next ∧
      (Broadcast.machine blank (RowNode.fill viewModel)
        RowNode.textNodeTappedTruncationToken).step scene.broadcast (call event) =
          some (next.broadcast, emitted) := by
  have hchange : ∀ {node : Nat} {changed : RowNode → Option RowNode},
      (scene.change node changed).map (fun next => (next, [])) = some (next, emitted) →
        OneRow viewModel next ∧ (scene.broadcast.change node changed).map
          (fun next => (next, [])) = some (next.broadcast, emitted) := by
    intro node changed hnext
    obtain ⟨_, hsome, hpair⟩ := Option.map_eq_some_iff.mp hnext
    cases hpair
    rw [broadcast_change, hsome]
    obtain ⟨old, -, rfl⟩ := Option.map_eq_some_iff.mp hsome
    exact ⟨⟨hrow.kept, hrow.bound_le⟩, rfl⟩
  cases event with
  | nodeMade =>
      obtain ⟨_, hmade, hpair⟩ := Option.map_eq_some_iff.mp hstep
      cases hpair
      have hjoin := broadcast_nodeMade hrow hblank hmade
      obtain ⟨made, -, rfl⟩ := Option.map_eq_some_iff.mp hmade
      exact ⟨⟨hrow.kept, hrow.bound_le⟩, congrArg (fun state => some (state, [])) hjoin⟩
  | released node => exact hchange hstep
  | textNodeTappedTruncationToken node => exact hchange hstep
  | initializeCall =>
      cases hstep
      obtain ⟨hkept, hbound⟩ := hrow.kept.initializeCall (subclass_ne_none hblank)
      refine ⟨⟨hkept, hbound.willDisplay_eq.le⟩, ?_⟩
      simp [Broadcast.machine, call, broadcast, hbound.willDisplay_eq]
  | deinitializeCall =>
      cases hstep
      obtain ⟨hkept, hbound⟩ := hrow.kept.deinitializeCall
      refine ⟨⟨hkept, by rw [hbound.willDisplay_eq]; exact Nat.zero_le 1⟩, ?_⟩
      simp [Broadcast.machine, call, broadcast, hbound.willDisplay_eq]

/-! ### Runs -/

theorem oneRow_make (hblank : RowNode.make viewModel = some blank) :
    OneRow viewModel (make viewModel) ∧ (make viewModel).broadcast = Broadcast.empty := by
  have hempty : Kept viewModel
      { viewModel, disposables := Disposables.empty, willDisplaySubject := [],
        tapProfileSubject := [] } := by
    constructor
    · rfl
    · exact List.forall_mem_nil _
    · exact List.forall_mem_nil _
    · exact List.forall_mem_nil _
  obtain ⟨hkept, hbound⟩ := hempty.initializeCall (subclass_ne_none hblank)
  refine ⟨⟨hkept, hbound.willDisplay_eq.le⟩, ?_⟩
  have hlength : (make viewModel).bindings.willDisplayObservers.length = 1 := hbound.willDisplay_eq
  rw [broadcast, hlength]
  rfl

theorem broadcast_run (hblank : RowNode.make viewModel = some blank)
    (hrun : machine.run (make viewModel) events = some (scene, emitted)) :
    (Broadcast.machine blank (RowNode.fill viewModel)
      RowNode.textNodeTappedTruncationToken).run Broadcast.empty (events.map call) =
        some (scene.broadcast, emitted) := by
  have hkeep : machine.Preserves (OneRow viewModel) := fun _ _ _ _ hrow hstep =>
    (hrow.step hblank hstep).1
  obtain ⟨hrow, hempty⟩ := oneRow_make hblank
  rw [← hempty, ← List.flatMap_pure_eq_map]
  refine hkeep.run_flatMap ?_ hrow hrun
  intro scene event next emitted hrow hstep
  exact (Machine.run_singleton _ scene.broadcast (call event)).trans (hrow.step hblank hstep).2

/-! ### Filled nodes -/

def isNodeMade : Event → Bool
  | .nodeMade => true
  | _ => false

def lifecycle? : Event → Option LifecycleCall
  | .initializeCall => some .initializeCall
  | .deinitializeCall => some .deinitializeCall
  | _ => none

/-- The node, or one made behind it, was made while the view model was not torn down. -/
def Filled (events : List Event) (index : Nat) : Prop :=
  ∃ before after, events = before ++ .nodeMade :: after ∧
    (before.filterMap lifecycle?).getLast? ≠ some .deinitializeCall ∧
      index ≤ before.countP isNodeMade

theorem boundAfter_map_call (events : List Event) :
    Broadcast.boundAfter (events.map call) = true ↔
      (events.filterMap lifecycle?).getLast? ≠ some .deinitializeCall := by
  have hbinds : (events.map call).filterMap Broadcast.binds? =
      (events.filterMap lifecycle?).map fun call => decide (call = .initializeCall) := by
    rw [List.filterMap_map, List.map_filterMap]
    apply List.filterMap_congr
    intro event _
    cases event <;> rfl
  rw [Broadcast.boundAfter, hbinds, List.getLast?_map]
  rcases (events.filterMap lifecycle?).getLast? with _ | _ | _
  · decide
  · decide
  · decide

theorem heard_iff_filled {index : Nat} :
    Broadcast.Heard (events.map call) index ↔ Filled events index := by
  have hjoins : ∀ events : List Event,
      (events.map call).countP Broadcast.isJoin = events.countP isNodeMade := by
    intro events
    rw [List.countP_map]
    apply List.countP_congr
    intro event _
    cases event <;> exact Iff.rfl
  constructor
  · rintro ⟨before, after, hsplit, hbound, hindex⟩
    obtain ⟨done, rest, rfl, rfl, hrest⟩ := List.map_eq_append_iff.mp hsplit
    obtain ⟨event, later, rfl, hevent, rfl⟩ := List.map_eq_cons_iff.mp hrest
    have hmade : event = .nodeMade := by
      cases event with
      | nodeMade => rfl
      | released _ => cases hevent
      | textNodeTappedTruncationToken _ => cases hevent
      | initializeCall => cases hevent
      | deinitializeCall => cases hevent
    exact ⟨done, later, by rw [hmade], (boundAfter_map_call done).mp hbound, hjoins done ▸ hindex⟩
  · rintro ⟨before, after, rfl, hbound, hindex⟩
    refine ⟨before.map call, after.map call, by rw [List.map_append, List.map_cons]; rfl, ?_, ?_⟩
    · exact (boundAfter_map_call before).mpr hbound
    · rw [hjoins]
      exact hindex

theorem touch_mem_iff {index : Nat} : Broadcast.Event.touch index ∈ events.map call ↔
    .textNodeTappedTruncationToken index ∈ events := by
  rw [List.mem_map]
  constructor
  · rintro ⟨event, hmem, hcall⟩
    cases event with
    | textNodeTappedTruncationToken tapped =>
        cases hcall
        exact hmem
    | nodeMade => cases hcall
    | released _ => cases hcall
    | initializeCall => cases hcall
    | deinitializeCall => cases hcall
  · exact fun hmem => ⟨_, hmem, rfl⟩

/-- **A node shows its row or nothing.** In every run of nodes made and released and of the view
model torn down and bound again, a node that is there is filled precisely if it or a later one was
made while the view model was bound. A tap on the truncation token unfolds the description and
changes nothing else. -/
theorem node_shows_row (viewModel : RxCellViewModel) (blank filled : RowNode)
    (hblank : RowNode.make viewModel = some blank) (hfilled : RowNode.shown viewModel = some filled)
    (events : List Event) (scene : RowScene) (emitted : List Empty)
    (hrun : machine.run (make viewModel) events = some (scene, emitted)) (index : Nat)
    (node : RowNode) (hnode : scene.nodes[index]? = some (some node)) :
    (Filled events index → node.texts = RowNode.rowTexts viewModel ∧
      node = if .textNodeTappedTruncationToken index ∈ events then
        filled.textNodeTappedTruncationToken else filled) ∧
    (¬Filled events index → node.texts = [] ∧
      node = if .textNodeTappedTruncationToken index ∈ events then
        blank.textNodeTappedTruncationToken else blank) := by
  have hhistory := Broadcast.history_of_run (RowNode.fill_fill viewModel) RowNode.tapped_tapped
    (RowNode.fill_tapped viewModel) (broadcast_run hblank hrun)
  have hvalue := hhistory.listeners_eq index node hnode
  have hfill : RowNode.fill viewModel blank = filled := by
    have hmap := RowNode.map_fill_make viewModel
    rw [hblank, hfilled] at hmap
    exact Option.some.inj hmap
  have htexts : ∀ {node shown : RowNode}, (node = if .textNodeTappedTruncationToken index ∈ events
      then shown.textNodeTappedTruncationToken else shown) → node.texts = shown.texts := by
    rintro node shown rfl
    split
    · rw [RowNode.texts_tapped]
    · rfl
  constructor
  · intro hheard
    rw [Broadcast.expected_of_heard (heard_iff_filled.mpr hheard), hfill] at hvalue
    simp only [touch_mem_iff] at hvalue
    exact ⟨(htexts hvalue).trans (RowNode.texts_shown hfilled), hvalue⟩
  · intro hheard
    rw [Broadcast.expected_of_not_heard (heard_iff_filled.not.mpr hheard)] at hvalue
    simp only [touch_mem_iff] at hvalue
    exact ⟨(htexts hvalue).trans (RowNode.texts_make hblank), hvalue⟩

/-- A node made while the view model is torn down stays blank, until the next one is made. -/
theorem node_shows_row_late :
    ∃ scene node, machine.run (make (RepositoryCellViewModel (fun _ _ => "")
        { user := some { username := "octocat" }, desc := some "" } 0))
        [.deinitializeCall, .nodeMade, .initializeCall, .nodeMade, .released 1] =
          some (scene, []) ∧
      scene.nodes = [some node, none] ∧ node.texts = ["octocat"] := by
  obtain ⟨scene, hrun, node, hnodes⟩ : ∃ scene, machine.run (make (RepositoryCellViewModel
      (fun _ _ => "") { user := some { username := "octocat" }, desc := some "" } 0))
      [.deinitializeCall, .nodeMade, .initializeCall, .nodeMade, .released 1] = some (scene, []) ∧
        ∃ node, scene.nodes = [some node, none] := ⟨_, rfl, _, rfl⟩
  have hfirst : scene.nodes[0]? = some (some node) := by rw [hnodes]; rfl
  obtain ⟨hfilled, -⟩ := node_shows_row _ _ _ rfl rfl _ _ _ hrun 0 node hfirst
  have hlater : Filled [.deinitializeCall, .nodeMade, .initializeCall, .nodeMade, .released 1] 0 :=
    ⟨[.deinitializeCall, .nodeMade, .initializeCall], [.released 1], rfl, by decide, by decide⟩
  exact ⟨scene, node, hrun, hnodes, (hfilled hlater).1.trans (by decide)⟩

end RowScene

end PFXTexture
