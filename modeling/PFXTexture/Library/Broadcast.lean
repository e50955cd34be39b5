import PFXTexture.Library.Machine

/-!
# A publisher and its listeners

A listener that joins has the publisher announce. An announcement reaches every listener that has
not left, and nobody while the publisher is unbound. So a listener has heard one precisely if
somebody has joined since, the listener itself included, while the publisher was bound.
-/

structure Broadcast (α : Type*) where
  bound : Bool
  listeners : List (Option α)

namespace Broadcast

inductive Event where
  | bind
  | unbind
  | join
  | leave (index : Nat)
  | touch (index : Nat)
  deriving DecidableEq

variable {α : Type*} (blank : α) (announce touch : α → α)

def empty : Broadcast α where
  bound := true
  listeners := []

/-- The listener at the index, if it has not left, is changed. -/
def change (state : Broadcast α) (index : Nat) (changed : α → Option α) : Option (Broadcast α) :=
  state.listeners[index]?.join.map fun listener =>
    { state with listeners := state.listeners.set index (changed listener) }

def join (state : Broadcast α) : Broadcast α :=
  let listeners := state.listeners ++ [some blank]
  { state with listeners := if state.bound then listeners.map (Option.map announce) else listeners }

def machine : Machine (Broadcast α) Event Empty where
  step := fun state event =>
    match event with
    | .bind => some ({ state with bound := true }, [])
    | .unbind => some ({ state with bound := false }, [])
    | .join => some (state.join blank announce, [])
    | .leave index => (state.change index fun _ => none).map fun next => (next, [])
    | .touch index => (state.change index fun listener => some (touch listener)).map
        fun next => (next, [])

/-! ### What a run has announced -/

def isJoin : Event → Bool
  | .join => true
  | _ => false

/-- The last call that binds or unbinds. -/
def binds? : Event → Option Bool
  | .bind => some true
  | .unbind => some false
  | _ => none

def boundAfter (events : List Event) : Bool :=
  (events.filterMap binds?).getLast?.getD true

/-- Somebody has joined behind the listener, or is the listener, while the publisher was bound. -/
def Heard (events : List Event) (index : Nat) : Prop :=
  ∃ before after, events = before ++ .join :: after ∧ boundAfter before = true ∧
    index ≤ before.countP isJoin

theorem boundAfter_concat (events : List Event) (event : Event) :
    boundAfter (events ++ [event]) = (binds? event).getD (boundAfter events) := by
  rw [boundAfter, List.filterMap_append, List.getLast?_append]
  cases hbinds : binds? event with
  | none => simp [hbinds, boundAfter]
  | some bound => simp [hbinds]

theorem heard_concat_iff {events : List Event} {event : Event} {index : Nat} :
    Heard (events ++ [event]) index ↔ Heard events index ∨
      isJoin event = true ∧ boundAfter events = true ∧ index ≤ events.countP isJoin := by
  constructor
  · rintro ⟨before, after, hsplit, hbound, hindex⟩
    rcases after.eq_nil_or_concat' with rfl | ⟨after, last, rfl⟩
    · obtain ⟨rfl, hlast⟩ := List.append_inj' hsplit rfl
      cases hlast
      exact .inr ⟨rfl, hbound, hindex⟩
    · rw [← List.cons_append, ← List.append_assoc] at hsplit
      obtain ⟨rfl, -⟩ := List.append_inj' hsplit rfl
      exact .inl ⟨before, after, rfl, hbound, hindex⟩
  · rintro (⟨before, after, rfl, hbound, hindex⟩ | ⟨hjoin, hbound, hindex⟩)
    · exact ⟨before, after ++ [event], by simp, hbound, hindex⟩
    · cases event with
      | join => exact ⟨events, [], rfl, hbound, hindex⟩
      | bind => cases hjoin
      | unbind => cases hjoin
      | leave _ => cases hjoin
      | touch _ => cases hjoin

theorem Heard.lt_joins {events : List Event} {index : Nat} (hheard : Heard events index) :
    index < events.countP isJoin := by
  obtain ⟨before, after, rfl, -, hindex⟩ := hheard
  rw [List.countP_append, List.countP_cons]
  simp only [isJoin, if_true]
  omega

/-! ### What a listener has become -/

open Classical in
/-- The listener has been announced to at most once and touched at most once, as far as it shows. -/
noncomputable def expected (events : List Event) (index : Nat) : α :=
  let heard := if Heard events index then announce blank else blank
  if .touch index ∈ events then touch heard else heard

section Expected

variable {blank announce touch} {events : List Event} {event : Event} {index : Nat}

theorem expected_of_heard (hheard : Heard events index) :
    expected blank announce touch events index =
      if .touch index ∈ events then touch (announce blank) else announce blank := by
  simp only [expected, hheard, if_true]

theorem expected_of_not_heard (hheard : ¬Heard events index) :
    expected blank announce touch events index =
      if .touch index ∈ events then touch blank else blank := by
  simp only [expected, hheard, if_false]

theorem expected_concat_of_quiet
    (hjoin : ¬(isJoin event = true ∧ boundAfter events = true ∧ index ≤ events.countP isJoin))
    (htouch : event ≠ .touch index) :
    expected blank announce touch (events ++ [event]) index =
      expected blank announce touch events index := by
  have hsame : Heard (events ++ [event]) index ↔ Heard events index := by
    rw [heard_concat_iff, or_iff_left hjoin]
  have htouched : Event.touch index ∈ events ++ [event] ↔ .touch index ∈ events := by
    rw [List.mem_append, List.mem_singleton, or_iff_left htouch.symm]
  by_cases hheard : Heard events index
  · rw [expected_of_heard hheard, expected_of_heard (hsame.mpr hheard)]
    simp only [htouched]
  · rw [expected_of_not_heard hheard, expected_of_not_heard (hsame.not.mpr hheard)]
    simp only [htouched]

theorem expected_concat_join (hannounce : ∀ value, announce (announce value) = announce value)
    (hcommute : ∀ value, announce (touch value) = touch (announce value))
    (hbound : boundAfter events = true) (hindex : index ≤ events.countP isJoin) :
    expected blank announce touch (events ++ [.join]) index =
      announce (expected blank announce touch events index) := by
  have htouched : Event.touch index ∈ events ++ [.join] ↔ .touch index ∈ events := by
    rw [List.mem_append, List.mem_singleton, or_iff_left (by simp)]
  rw [expected_of_heard (heard_concat_iff.mpr (.inr ⟨rfl, hbound, hindex⟩))]
  by_cases hheard : Heard events index
  · rw [expected_of_heard hheard, apply_ite announce, hcommute, hannounce]
    simp only [htouched]
  · rw [expected_of_not_heard hheard, apply_ite announce, hcommute]
    simp only [htouched]

theorem expected_concat_touch (htouch : ∀ value, touch (touch value) = touch value) :
    expected blank announce touch (events ++ [.touch index]) index =
      touch (expected blank announce touch events index) := by
  have hsame : Heard (events ++ [.touch index]) index ↔ Heard events index := by
    rw [heard_concat_iff, or_iff_left fun hjoin => Bool.false_ne_true hjoin.1]
  have htouched : Event.touch index ∈ events ++ [.touch index] :=
    List.mem_append_right _ List.mem_cons_self
  by_cases hheard : Heard events index
  · rw [expected_of_heard hheard, expected_of_heard (hsame.mpr hheard), if_pos htouched,
      apply_ite touch, htouch, ite_self]
  · rw [expected_of_not_heard hheard, expected_of_not_heard (hsame.not.mpr hheard),
      if_pos htouched, apply_ite touch, htouch, ite_self]

theorem expected_of_joins_le (hindex : events.countP isJoin ≤ index)
    (htouched : .touch index ∉ events) : expected blank announce touch events index = blank := by
  rw [expected_of_not_heard fun hheard => ?_, if_neg htouched]
  have hlt := hheard.lt_joins
  omega

end Expected

variable {blank announce touch} {state next : Broadcast α} {events : List Event} {event : Event}

structure History (blank : α) (announce touch : α → α) (events : List Event)
    (state : Broadcast α) : Prop where
  bound_eq : state.bound = boundAfter events
  length_eq : state.listeners.length = events.countP isJoin
  touch_lt : ∀ index, .touch index ∈ events → index < state.listeners.length
  listeners_eq : ∀ index listener, state.listeners[index]? = some (some listener) →
    listener = expected blank announce touch events index

theorem history_empty : History blank announce touch [] empty where
  bound_eq := rfl
  length_eq := rfl
  touch_lt := by simp
  listeners_eq := by
    intro index listener hlistener
    cases hlistener

/-- A call that binds or unbinds. -/
theorem History.binding (hhistory : History blank announce touch events state) {bound : Bool}
    (hbinds : binds? event = some bound) (hjoin : isJoin event = false)
    (htouch : ∀ index, event ≠ .touch index) :
    History blank announce touch (events ++ [event]) { state with bound } where
  bound_eq := by rw [boundAfter_concat, hbinds, Option.getD_some]
  length_eq := by
    rw [List.countP_append, List.countP_singleton, hjoin]
    exact hhistory.length_eq
  touch_lt := by
    intro index hmem
    rw [List.mem_append, List.mem_singleton, or_iff_left (htouch index).symm] at hmem
    exact hhistory.touch_lt index hmem
  listeners_eq := by
    intro index listener hlistener
    rw [hhistory.listeners_eq index listener hlistener]
    exact (expected_concat_of_quiet (by simp [hjoin]) (htouch index)).symm

theorem History.join (hannounce : ∀ value, announce (announce value) = announce value)
    (hcommute : ∀ value, announce (touch value) = touch (announce value))
    (hhistory : History blank announce touch events state) :
    History blank announce touch (events ++ [.join]) (state.join blank announce) := by
  have hlisteners : ∀ index listener, (state.listeners ++ [some blank])[index]? =
      some (some listener) → index ≤ events.countP isJoin ∧
        listener = expected blank announce touch events index := by
    intro index listener hlistener
    rw [← hhistory.length_eq]
    by_cases hold : index < state.listeners.length
    · rw [List.getElem?_append_left hold] at hlistener
      exact ⟨Nat.le_of_lt hold, hhistory.listeners_eq index listener hlistener⟩
    · -- the listener that joins
      obtain ⟨hlt, hvalue⟩ := List.getElem?_eq_some_iff.mp hlistener
      rw [List.length_append, List.length_singleton] at hlt
      obtain rfl : index = state.listeners.length := by omega
      rw [List.getElem_concat_length rfl] at hvalue
      obtain rfl := Option.some.inj hvalue
      refine ⟨Nat.le_refl _, (expected_of_joins_le (Nat.le_of_eq hhistory.length_eq.symm) ?_).symm⟩
      exact fun hmem => Nat.lt_irrefl _ (hhistory.touch_lt _ hmem)
  have hlength : (state.join blank announce).listeners.length = state.listeners.length + 1 := by
    unfold Broadcast.join
    split <;> simp
  constructor
  · rw [boundAfter_concat]
    exact hhistory.bound_eq
  · rw [hlength, List.countP_append, hhistory.length_eq]
    rfl
  · intro index hmem
    rw [List.mem_append, List.mem_singleton, or_iff_left (by simp)] at hmem
    rw [hlength]
    exact Nat.lt_succ_of_lt (hhistory.touch_lt index hmem)
  · intro index listener hlistener
    by_cases hbound : boundAfter events = true
    · simp only [Broadcast.join, hhistory.bound_eq, hbound, if_true] at hlistener
      rw [List.getElem?_map, Option.map_eq_some_iff] at hlistener
      obtain ⟨old, hold, hmap⟩ := hlistener
      obtain ⟨value, rfl, rfl⟩ := Option.map_eq_some_iff.mp hmap
      obtain ⟨hindex, rfl⟩ := hlisteners index value hold
      exact (expected_concat_join hannounce hcommute hbound hindex).symm
    · simp only [Broadcast.join, hhistory.bound_eq, hbound, Bool.false_eq_true, if_false]
        at hlistener
      rw [(hlisteners index listener hlistener).2]
      exact (expected_concat_of_quiet (fun hjoin => hbound hjoin.2.1) (by simp)).symm

/-- A listener leaves or is touched. -/
theorem History.change (hhistory : History blank announce touch events state) {index : Nat}
    {changed : α → Option α} (hbinds : binds? event = none) (hjoin : isJoin event = false)
    (htouch : ∀ other ≠ index, event ≠ .touch other)
    (hchanged : ∀ listener, listener = expected blank announce touch events index →
      ∀ value, changed listener = some value →
        value = expected blank announce touch (events ++ [event]) index)
    (hnext : state.change index changed = some next) :
    History blank announce touch (events ++ [event]) next := by
  obtain ⟨listener, hjoined, rfl⟩ := Option.map_eq_some_iff.mp hnext
  have hlistener : state.listeners[index]? = some (some listener) :=
    Option.join_eq_some_iff.mp hjoined
  obtain ⟨hlt, -⟩ := List.getElem?_eq_some_iff.mp hlistener
  constructor
  · rw [boundAfter_concat, hbinds]
    exact hhistory.bound_eq
  · rw [List.length_set, List.countP_append, List.countP_singleton, hjoin]
    exact hhistory.length_eq
  · intro other hmem
    rw [List.length_set]
    by_cases hsame : other = index
    · exact hsame ▸ hlt
    · rw [List.mem_append, List.mem_singleton, or_iff_left (htouch other hsame).symm] at hmem
      exact hhistory.touch_lt other hmem
  · intro other value hvalue
    by_cases hsame : other = index
    · subst hsame
      rw [List.getElem?_set_self hlt] at hvalue
      exact hchanged listener (hhistory.listeners_eq other listener hlistener) value
        (Option.some.inj hvalue)
    · rw [List.getElem?_set_ne (Ne.symm hsame)] at hvalue
      rw [hhistory.listeners_eq other value hvalue]
      exact (expected_concat_of_quiet (by simp [hjoin]) (htouch other hsame)).symm

/-- **What a listener has become** is decided by whether it has heard and whether it was touched. -/
theorem history_of_run (hannounce : ∀ value, announce (announce value) = announce value)
    (htouch : ∀ value, touch (touch value) = touch value)
    (hcommute : ∀ value, announce (touch value) = touch (announce value)) {emitted : List Empty}
    (hrun : (machine blank announce touch).run empty events = some (state, emitted)) :
    History blank announce touch events state := by
  refine (machine blank announce touch).run_induction
    (motive := fun events state _ => History blank announce touch events state)
    history_empty ?_ hrun
  intro done state out event next first hhistory hstep
  cases event with
  | bind =>
      cases hstep
      exact hhistory.binding rfl rfl (by simp)
  | unbind =>
      cases hstep
      exact hhistory.binding rfl rfl (by simp)
  | join =>
      cases hstep
      exact hhistory.join hannounce hcommute
  | leave index =>
      obtain ⟨_, hnext, hpair⟩ := Option.map_eq_some_iff.mp hstep
      cases hpair
      exact hhistory.change rfl rfl (by simp) (by simp) hnext
  | touch index =>
      obtain ⟨_, hnext, hpair⟩ := Option.map_eq_some_iff.mp hstep
      cases hpair
      refine hhistory.change rfl rfl (fun other hne heq => hne (by cases heq; rfl)) ?_ hnext
      rintro listener rfl value hvalue
      rw [expected_concat_touch htouch]
      exact (Option.some.inj hvalue).symm

end Broadcast
