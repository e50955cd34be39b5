import Mathlib.Data.List.DropRight
import PFXTexture.Proof.SectionPages

/-!
# The requests of the sections

The debounce joins the loads that follow each other. What may happen to a section, and what it has
asked for, is decided by its own events before: the debounce elapses when a load has come since it
last did, and a request is answered once.
-/

namespace PFXTexture

open Machine (ofMember)

namespace DContentsViewModel

variable {viewModel next : DContentsViewModel} {index subscription : Nat} {outcome : Outcome}
  {emitted : List Output}

theorem isSome_debounceElapsed_iff :
    (viewModel.debounceElapsed subscription).isSome ↔ subscription ∈ viewModel.debounced := by
  unfold debounceElapsed
  by_cases hmem : subscription ∈ viewModel.debounced
  · rw [if_neg (not_not_intro hmem)]
    refine iff_of_true ?_ hmem
    by_cases hlive : subscription ∈ (viewModel.endDebounce subscription).disposables.live
    · simp only [hlive, if_true, Option.isSome_some]
    · simp only [hlive, if_false, Option.isSome_some]
  · rw [if_pos hmem]
    exact iff_of_false Bool.false_ne_true hmem

theorem isSome_response_iff : (viewModel.response index outcome).isSome ↔
    ∃ load, viewModel.loads[index]? = some load ∧ load.completed = false := by
  constructor
  · intro hsome
    obtain ⟨⟨next, emitted⟩, hstep⟩ := Option.isSome_iff_exists.mp hsome
    cases response_step hstep with
    | dropped hload hopen _ => exact ⟨_, hload, hopen⟩
    | failed hload hopen _ => exact ⟨_, hload, hopen⟩
    | succeeded hload hopen _ => exact ⟨_, hload, hopen⟩
  · rintro ⟨load, hload, hopen⟩
    unfold response
    simp only [hload, hopen, Bool.false_eq_true, if_false]
    split
    · rfl
    · cases outcome <;> rfl

/-- A response closes its request and leaves the inputs alone. -/
theorem ResponseStep.closed (hcases : ResponseStep viewModel index outcome next emitted) :
    next.dependency = viewModel.dependency ∧ next.loadSubject = viewModel.loadSubject ∧
      next.disposables = viewModel.disposables ∧ next.debounced = viewModel.debounced ∧
      ∃ load, viewModel.loads[index]? = some load ∧
        next.loads = viewModel.loads.set index { load with completed := true } := by
  cases hcases with
  | dropped hload _ _ => exact ⟨rfl, rfl, rfl, rfl, _, hload, rfl⟩
  | failed hload _ _ => exact ⟨rfl, rfl, rfl, rfl, _, hload, rfl⟩
  | succeeded hload _ _ => exact ⟨rfl, rfl, rfl, rfl, _, hload, rfl⟩

end DContentsViewModel

namespace DContentsNode

open DContentsViewModel (Load)

/-! ### What decides -/

def loads : Event → Bool
  | .didLoad | .allButtonTap => true
  | .favoriteButtonTap | .recentButtonTap | .debounceElapsed _ | .response _ _ => false

def elapses : Event → Bool
  | .debounceElapsed _ => true
  | .didLoad | .favoriteButtonTap | .recentButtonTap | .allButtonTap | .response _ _ => false

def answers (load : Nat) : Event → Bool
  | .response other _ => other = load
  | .didLoad | .favoriteButtonTap | .recentButtonTap | .allButtonTap | .debounceElapsed _ => false

/-- The debounce has been started and has not elapsed since. -/
def waiting (events : List Event) : Bool :=
  (events.rtakeWhile fun event => !elapses event).any loads

def requests (events : List Event) : Nat :=
  events.countP elapses

def answered (events : List Event) (load : Nat) : Bool :=
  events.any (answers load)

/-- What may happen after the events. -/
def Scheduled (events : List Event) : Event → Prop
  | .didLoad | .favoriteButtonTap | .recentButtonTap | .allButtonTap => True
  | .debounceElapsed subscription => subscription = 0 ∧ waiting events = true
  | .response load _ => load < requests events ∧ answered events load = false

theorem waiting_concat (events : List Event) (event : Event) :
    waiting (events ++ [event]) = (!elapses event && (waiting events || loads event)) := by
  rw [waiting, List.rtakeWhile_concat]
  cases elapses event with
  | true => rfl
  | false => simp [waiting]

theorem requests_concat (events : List Event) (event : Event) :
    requests (events ++ [event]) = requests events + if elapses event then 1 else 0 := by
  rw [requests, List.countP_append, List.countP_singleton]
  rfl

theorem answered_concat (events : List Event) (event : Event) (load : Nat) :
    answered (events ++ [event]) load = (answered events load || answers load event) := by
  rw [answered, List.any_append, List.any_cons, List.any_nil, Bool.or_false]
  rfl

/-! ### What the events leave behind -/

structure Asked (dependency : DContentsViewModel.Dependency) (events : List Event)
    (viewModel : DContentsViewModel) : Prop where
  dependency_eq : viewModel.dependency = dependency
  loadSubject_eq : viewModel.loadSubject = [0]
  live : 0 ∈ viewModel.disposables.live
  debounced_eq : viewModel.debounced = if waiting events then [0] else []
  length_eq : viewModel.loads.length = requests events
  params_eq : ∀ load ∈ viewModel.loads, load.params = [.since (some (dependency.index * 100))]
  completed_eq : ∀ index load, viewModel.loads[index]? = some load →
    load.completed = answered events index
  answered_lt : ∀ load, answered events load = true → load < requests events
  requests_le : requests events + (if waiting events then 1 else 0) ≤ events.countP loads

variable {dependency : DContentsViewModel.Dependency} {node next : DContentsNode} {event : Event}
  {events : List Event} {viewModel nextModel : DContentsViewModel} {index subscription : Nat}
  {outcome : Outcome} {emitted : List DContentsViewModel.Output}

theorem asked_start (dependency : DContentsViewModel.Dependency) :
    Asked dependency [] (start dependency).viewModel where
  dependency_eq := rfl
  loadSubject_eq := rfl
  live := List.mem_cons_self
  debounced_eq := rfl
  length_eq := rfl
  params_eq := List.forall_mem_nil _
  completed_eq := fun _ _ hload => absurd (List.mem_of_getElem? hload) List.not_mem_nil
  answered_lt := fun _ hanswered => absurd hanswered Bool.false_ne_true
  requests_le := le_rfl

theorem Asked.observers_eq (hasked : Asked dependency events viewModel) :
    viewModel.observers = [0] := by
  rw [DContentsViewModel.observers, hasked.loadSubject_eq]
  exact List.filter_eq_self.mpr fun subscription hmem =>
    decide_eq_true (List.mem_singleton.mp hmem ▸ hasked.live)

/-- An event that is no answer and lets no debounce elapse leaves the requests as they are. -/
theorem Asked.unasked (hasked : Asked dependency events viewModel)
    (helapses : elapses event = false) (hanswers : ∀ load, answers load event = false)
    {debounced : List Nat}
    (hdebounced : debounced = if waiting events || loads event then [0] else [])
    (hle : requests events + (if waiting events || loads event then 1 else 0) ≤
      events.countP loads + if loads event then 1 else 0) :
    Asked dependency (events ++ [event]) { viewModel with debounced } := by
  have hwaiting : waiting (events ++ [event]) = (waiting events || loads event) := by
    rw [waiting_concat, helapses]
    rfl
  have hrequests : requests (events ++ [event]) = requests events := by
    rw [requests_concat, helapses]
    rfl
  have hanswered : answered (events ++ [event]) = answered events := by
    funext load
    rw [answered_concat, hanswers, Bool.or_false]
  refine ⟨hasked.dependency_eq, hasked.loadSubject_eq, hasked.live, ?_, ?_, hasked.params_eq,
    ?_, ?_, ?_⟩
  · rw [hwaiting]
    exact hdebounced
  · rw [hrequests]
    exact hasked.length_eq
  · rw [hanswered]
    exact hasked.completed_eq
  · rw [hrequests, hanswered]
    exact hasked.answered_lt
  · rw [hrequests, hwaiting, List.countP_append, List.countP_singleton]
    exact hle

/-- A tap that loads nothing. -/
theorem Asked.silent (hasked : Asked dependency events viewModel) (hloads : loads event = false)
    (helapses : elapses event = false) (hanswers : ∀ load, answers load event = false) :
    Asked dependency (events ++ [event]) viewModel := by
  apply hasked.unasked helapses hanswers
  · rw [hloads, Bool.or_false]
    exact hasked.debounced_eq
  · rw [hloads, Bool.or_false]
    exact hasked.requests_le

/-- A load starts the debounce again. -/
theorem Asked.load (hasked : Asked dependency events viewModel) (hloads : loads event = true)
    (helapses : elapses event = false) (hanswers : ∀ load, answers load event = false) :
    Asked dependency (events ++ [event]) viewModel.load := by
  apply hasked.unasked helapses hanswers
  · rw [hloads, Bool.or_true]
    exact hasked.observers_eq
  · have hle := hasked.requests_le
    rw [hloads, Bool.or_true, if_pos rfl]
    omega

/-- The debounce elapses: the next request goes out. -/
theorem Asked.elapsed (hasked : Asked dependency events viewModel)
    (hstep : viewModel.debounceElapsed subscription = some nextModel) :
    Asked dependency (events ++ [.debounceElapsed subscription]) nextModel := by
  obtain ⟨hmem, hcases⟩ := DContentsViewModel.debounceElapsed_cases hstep
  rw [hasked.debounced_eq, List.mem_ite_nil_right, List.mem_singleton] at hmem
  obtain ⟨hwaiting, rfl⟩ := hmem
  obtain ⟨-, rfl⟩ := hcases.resolve_right fun hdead => hdead.1 hasked.live
  have hended : waiting (events ++ [Event.debounceElapsed 0]) = false := by
    rw [waiting_concat]
    rfl
  have hrequests : requests (events ++ [Event.debounceElapsed 0]) = requests events + 1 := by
    rw [requests_concat]
    rfl
  have hanswered : answered (events ++ [Event.debounceElapsed 0]) = answered events := by
    funext load
    rw [answered_concat]
    exact Bool.or_false _
  have hnone : answered events (requests events) = false := by
    rw [Bool.eq_false_iff]
    exact fun htrue => lt_irrefl _ (hasked.answered_lt _ htrue)
  have hcount : (events ++ [Event.debounceElapsed 0]).countP loads = events.countP loads := by
    simp [List.countP_append, loads]
  refine ⟨hasked.dependency_eq, hasked.loadSubject_eq, List.mem_cons_of_mem _ hasked.live, ?_, ?_,
    ?_, ?_, ?_, ?_⟩
  · rw [hended]
    have herase : (viewModel.endDebounce 0).onLoad.debounced = viewModel.debounced.erase 0 := rfl
    rw [herase, hasked.debounced_eq, hwaiting]
    rfl
  · rw [hrequests, DContentsViewModel.onLoad, List.length_append]
    exact congrArg (· + 1) hasked.length_eq
  · refine DContentsViewModel.forall_mem_loads_onLoad.mpr ⟨hasked.params_eq, ?_⟩
    rw [← hasked.dependency_eq]
    rfl
  · intro index load hload
    rw [hanswered]
    by_cases hold : index < viewModel.loads.length
    · have hkept : (viewModel.endDebounce 0).onLoad.loads[index]? = viewModel.loads[index]? :=
        List.getElem?_append_left hold
      exact hasked.completed_eq index load (hkept.symm.trans hload)
    · have hindex : index = viewModel.loads.length := by
        have hlt := (List.getElem?_eq_some_iff.mp hload).1
        rw [DContentsViewModel.onLoad, List.length_append] at hlt
        exact Nat.le_antisymm (Nat.le_of_lt_succ hlt) (Nat.not_lt.mp hold)
      rw [hindex] at hload
      obtain rfl := Option.some.inj (List.getElem?_concat_length.symm.trans hload)
      rw [hindex, hasked.length_eq, hnone]
  · intro load hload
    rw [hanswered] at hload
    rw [hrequests]
    exact Nat.lt_succ_of_lt (hasked.answered_lt load hload)
  · have hle := hasked.requests_le
    rw [hwaiting, if_pos rfl] at hle
    rw [hrequests, hended, hcount]
    exact hle

theorem Asked.open_iff (hasked : Asked dependency events viewModel) :
    (∃ load, viewModel.loads[index]? = some load ∧ load.completed = false) ↔
      index < requests events ∧ answered events index = false := by
  rw [← hasked.length_eq]
  constructor
  · rintro ⟨load, hload, hopen⟩
    refine ⟨(List.getElem?_eq_some_iff.mp hload).1, ?_⟩
    rw [← hasked.completed_eq index load hload, hopen]
  · rintro ⟨hindex, hopen⟩
    have hload := List.getElem?_eq_getElem hindex
    exact ⟨_, hload, (hasked.completed_eq index _ hload).trans hopen⟩

/-- A request is answered. -/
theorem Asked.response (hasked : Asked dependency events viewModel)
    (hstep : viewModel.response index outcome = some (nextModel, emitted)) :
    Asked dependency (events ++ [.response index outcome]) nextModel := by
  obtain ⟨hdependency, hsubject, hdisposables, hdebounced, load, hload, hloads⟩ :=
    (DContentsViewModel.response_step hstep).closed
  have hopen := hasked.open_iff.mp
    (DContentsViewModel.isSome_response_iff.mp (Option.isSome_of_eq_some hstep))
  have hwaiting : waiting (events ++ [Event.response index outcome]) = waiting events := by
    rw [waiting_concat]
    exact Bool.or_false _
  have hrequests : requests (events ++ [Event.response index outcome]) = requests events := by
    rw [requests_concat]
    rfl
  have hanswered : answered (events ++ [Event.response index outcome]) =
      Function.update (answered events) index true := by
    funext other
    rw [answered_concat, Function.update_apply]
    by_cases hother : other = index
    · simp [answers, hother]
    · simp [answers, hother, Ne.symm hother]
  have hcount : (events ++ [Event.response index outcome]).countP loads = events.countP loads := by
    simp [List.countP_append, loads]
  refine ⟨hdependency.trans hasked.dependency_eq, hsubject.trans hasked.loadSubject_eq,
    hdisposables ▸ hasked.live, ?_, ?_, ?_, ?_, ?_, ?_⟩
  · rw [hwaiting, hdebounced, hasked.debounced_eq]
  · rw [hloads, List.length_set, hrequests]
    exact hasked.length_eq
  · intro other hother
    rw [hloads] at hother
    rcases List.mem_or_eq_of_mem_set hother with hold | rfl
    · exact hasked.params_eq other hold
    · exact hasked.params_eq load (List.mem_of_getElem? hload)
  · intro other found hfound
    rw [hloads, List.getElem?_set] at hfound
    rw [hanswered]
    by_cases hsame : index = other
    · subst hsame
      have hlength := (List.getElem?_eq_some_iff.mp hload).1
      rw [if_pos rfl, if_pos hlength] at hfound
      rw [Function.update_self, ← Option.some.inj hfound]
    · rw [if_neg hsame] at hfound
      rw [Function.update_of_ne (Ne.symm hsame)]
      exact hasked.completed_eq other found hfound
  · intro other hother
    rw [hrequests]
    by_cases hsame : other = index
    · rw [hsame]
      exact hopen.1
    · rw [hanswered, Function.update_of_ne hsame] at hother
      exact hasked.answered_lt other hother
  · rw [hrequests, hwaiting, hcount]
    exact hasked.requests_le

theorem Asked.step (hasked : Asked dependency events node.viewModel)
    (hstep : machine.step node event = some (next, emitted)) :
    Asked dependency (events ++ [event]) next.viewModel := by
  cases event with
  | didLoad =>
      cases hstep
      exact hasked.load rfl rfl fun _ => rfl
  | favoriteButtonTap =>
      cases hstep
      exact hasked.silent rfl rfl fun _ => rfl
  | recentButtonTap =>
      cases hstep
      exact hasked.silent rfl rfl fun _ => rfl
  | allButtonTap =>
      cases hstep
      exact hasked.load rfl rfl fun _ => rfl
  | debounceElapsed subscription =>
      obtain ⟨viewModel, helapsed, hpair⟩ := Option.map_eq_some_iff.mp hstep
      cases hpair
      exact hasked.elapsed helapsed
  | response index outcome =>
      have hrun := viewModel_run_of_step hstep
      rw [viewModelEvents, Machine.run_singleton] at hrun
      exact hasked.response hrun

theorem Asked.isSome_step_iff (hasked : Asked dependency events node.viewModel) (event : Event) :
    (machine.step node event).isSome ↔ Scheduled events event := by
  cases event with
  | didLoad => exact iff_of_true rfl trivial
  | favoriteButtonTap => exact iff_of_true rfl trivial
  | recentButtonTap => exact iff_of_true rfl trivial
  | allButtonTap => exact iff_of_true rfl trivial
  | debounceElapsed subscription =>
      simp only [machine, Option.isSome_map]
      rw [DContentsViewModel.isSome_debounceElapsed_iff, hasked.debounced_eq,
        List.mem_ite_nil_right, List.mem_singleton]
      exact and_comm
  | response index outcome =>
      simp only [machine, DContentsNode.response, Option.isSome_map]
      rw [DContentsViewModel.isSome_response_iff]
      exact hasked.open_iff

theorem asked_of_run (hrun : machine.run (start dependency) events = some (node, emitted)) :
    Asked dependency events node.viewModel :=
  machine.run_induction (motive := fun events node _ => Asked dependency events node.viewModel)
    (asked_start dependency) (fun _ _ _ _ _ _ hasked hstep => hasked.step hstep) hrun

theorem Asked.params_replicate (hasked : Asked dependency events viewModel) :
    viewModel.loads.map Load.params =
      List.replicate (requests events) [.since (some (dependency.index * 100))] := by
  rw [← hasked.length_eq, ← List.length_map Load.params]
  apply List.eq_replicate_of_mem
  intro params hparams
  obtain ⟨load, hload, rfl⟩ := List.mem_map.mp hparams
  exact hasked.params_eq load hload

end DContentsNode

namespace DCellNode

open DContentsNode (Asked Scheduled loads requests waiting)
open DContentsViewModel (Load)

variable {events : List (ℕ × DContentsNode.Event)} {finals : List DContentsNode}
  {emitted : List (ℕ × DContentsViewModel.Output)}

theorem asked_of_run (hrun : machine.run nodes events = some (finals, emitted)) {index : ℕ}
    (hindex : index < 5) : ∃ node, finals[index]? = some node ∧
      Asked { index } (ofMember index events) node.viewModel := by
  obtain ⟨node, hnode, hmember⟩ := Machine.run_member hrun (getElem?_nodes hindex)
  exact ⟨node, hnode, DContentsNode.asked_of_run hmember⟩

theorem isSome_step_iff (hrun : machine.run nodes events = some (finals, emitted))
    (tagged : ℕ × DContentsNode.Event) : (machine.step finals tagged).isSome ↔
      tagged.1 < 5 ∧ Scheduled (ofMember tagged.1 events) tagged.2 := by
  obtain ⟨member, event⟩ := tagged
  have hlength : finals.length = 5 := Machine.length_of_family_run hrun
  by_cases hmember : member < 5
  · obtain ⟨node, hnode, hasked⟩ := asked_of_run hrun hmember
    have hstep : machine.step finals (member, event) =
        (DContentsNode.machine.step node event).map fun (next, outputs) =>
          (finals.set member next, outputs.map (Prod.mk member)) := by
      simp only [machine, Machine.family, hnode, Option.bind_some]
    rw [hstep, Option.isSome_map, hasked.isSome_step_iff]
    exact (and_iff_right hmember).symm
  · have hnone : finals[member]? = none := List.getElem?_eq_none (by omega)
    have hstep : machine.step finals (member, event) = none := by
      simp only [machine, Machine.family, hnone, Option.bind_none]
    rw [hstep]
    exact iff_of_false Bool.false_ne_true fun hscheduled => hmember hscheduled.1

/-- **The schedule of the sections.** Their runs are the interleavings in which each debounce
elapses after a load of its own section that it has not elapsed for, and each request is answered
at most once. Along a run one request goes out for each debounce that elapses, it asks for the page
of its section, and no load is requested twice. -/
theorem runs_iff_scheduled (events : List (ℕ × DContentsNode.Event)) :
    ((machine.run nodes events).isSome ↔
        ∀ before tagged after, events = before ++ tagged :: after →
          tagged.1 < 5 ∧ Scheduled (ofMember tagged.1 before) tagged.2) ∧
      ∀ finals emitted, machine.run nodes events = some (finals, emitted) →
        finals.map (fun node => node.viewModel.loads.map Load.params) =
            (List.range 5).map (fun index : ℕ =>
              List.replicate (requests (ofMember index events)) [.since (some (index * 100))]) ∧
          ∀ index < 5, requests (ofMember index events) +
            (if waiting (ofMember index events) then 1 else 0) ≤
              (ofMember index events).countP loads := by
  constructor
  · exact machine.isSome_run_iff fun before finals emitted hrun => isSome_step_iff hrun
  · intro finals emitted hrun
    constructor
    · apply List.ext_getElem?
      intro index
      rw [List.getElem?_map, List.getElem?_map]
      by_cases hindex : index < 5
      · obtain ⟨node, hnode, hasked⟩ := asked_of_run hrun hindex
        rw [hnode, List.getElem?_range hindex, Option.map_some, Option.map_some,
          hasked.params_replicate]
      · have hlength : finals.length = 5 := Machine.length_of_family_run hrun
        rw [List.getElem?_eq_none (by omega), List.getElem?_eq_none (by simpa using hindex)]
        rfl
    · intro index hindex
      obtain ⟨node, -, hasked⟩ := asked_of_run hrun hindex
      exact hasked.requests_le

/-- Two loads of one section in a row make one request. -/
theorem runs_iff_scheduled_joined :
    ∃ finals emitted, machine.run nodes
        [(1, .didLoad), (0, .didLoad), (1, .allButtonTap), (1, .debounceElapsed 0),
          (1, .response 0 (.ok []))] = some (finals, emitted) ∧
      finals.map (fun node => node.viewModel.loads.map Load.params) =
        [[], [[.since (some 100)]], [], [], []] := by
  obtain ⟨finals, emitted, hrun⟩ : ∃ finals emitted, machine.run nodes
      [(1, .didLoad), (0, .didLoad), (1, .allButtonTap), (1, .debounceElapsed 0),
        (1, .response 0 (.ok []))] = some (finals, emitted) := ⟨_, _, rfl⟩
  exact ⟨finals, emitted, hrun, ((runs_iff_scheduled _).2 finals emitted hrun).1⟩

end DCellNode

end PFXTexture
