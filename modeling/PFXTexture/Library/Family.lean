import PFXTexture.Library.Machine

/-!
# Families of machines

Machines of one kind side by side. An event names the member it is for, so a run of the family is an
interleaving of runs of the members, and each member has run on the events that name it.
-/

namespace Machine

variable {σ ε ω α : Type*}

/-- The values that carry the index. -/
def ofMember (index : Nat) (tagged : List (Nat × α)) : List α :=
  tagged.filterMap fun (member, value) => if member = index then some value else none

@[simp]
theorem ofMember_nil (index : Nat) : ofMember index ([] : List (Nat × α)) = [] := rfl

theorem ofMember_append (index : Nat) (left right : List (Nat × α)) :
    ofMember index (left ++ right) = ofMember index left ++ ofMember index right :=
  List.filterMap_append

@[simp]
theorem ofMember_cons_self (index : Nat) (value : α) (tagged : List (Nat × α)) :
    ofMember index ((index, value) :: tagged) = value :: ofMember index tagged := by
  simp [ofMember]

theorem ofMember_cons_of_ne {index member : Nat} (hne : member ≠ index) (value : α)
    (tagged : List (Nat × α)) :
    ofMember index ((member, value) :: tagged) = ofMember index tagged := by
  simp [ofMember, hne]

theorem ofMember_map_self (index : Nat) (values : List α) :
    ofMember index (values.map (Prod.mk index)) = values := by
  induction values with
  | nil => rfl
  | cons value values ih => rw [List.map_cons, ofMember_cons_self, ih]

theorem ofMember_map_of_ne {index member : Nat} (hne : member ≠ index) (values : List α) :
    ofMember index (values.map (Prod.mk member)) = [] := by
  induction values with
  | nil => rfl
  | cons value values ih => rw [List.map_cons, ofMember_cons_of_ne hne, ih]

variable (machine : Machine σ ε ω)

def family : Machine (List σ) (Nat × ε) (Nat × ω) where
  step := fun states (index, event) =>
    states[index]?.bind fun state =>
      (machine.step state event).map fun (next, emitted) =>
        (states.set index next, emitted.map (Prod.mk index))

theorem family_step_eq_some_iff {states nexts : List σ} {index : Nat} {event : ε}
    {emitted : List (Nat × ω)} :
    machine.family.step states (index, event) = some (nexts, emitted) ↔
      ∃ state next first, states[index]? = some state ∧
        machine.step state event = some (next, first) ∧ nexts = states.set index next ∧
          emitted = first.map (Prod.mk index) := by
  simp only [family, Option.bind_eq_some_iff, Option.map_eq_some_iff, Prod.mk.injEq, Prod.exists]
  constructor
  · rintro ⟨state, hstate, next, first, hstep, rfl, rfl⟩
    exact ⟨state, next, first, hstate, hstep, rfl, rfl⟩
  · rintro ⟨state, next, first, hstate, hstep, rfl, rfl⟩
    exact ⟨state, hstate, next, first, hstep, rfl, rfl⟩

/-- A condition on the member an event names. -/
def Memberwise (condition : σ → ε → Prop) (states : List σ) (tagged : Nat × ε) : Prop :=
  ∀ state, states[tagged.1]? = some state → condition state tagged.2

variable {machine}

theorem length_of_family_run {states finals : List σ} {events : List (Nat × ε)}
    {emitted : List (Nat × ω)} (hrun : machine.family.run states events = some (finals, emitted)) :
    finals.length = states.length := by
  refine machine.family.run_induction
    (motive := fun _ finals _ => finals.length = states.length) rfl ?_ hrun
  rintro done current out ⟨index, event⟩ nexts first hlength hstep
  obtain ⟨_, _, _, -, -, rfl, -⟩ := machine.family_step_eq_some_iff.mp hstep
  rw [List.length_set, hlength]

/-- **A member runs on the events that name it**, whatever the others do in between, and emits what
the family emits under its name. -/
theorem run_member {states finals : List σ} {events : List (Nat × ε)} {emitted : List (Nat × ω)}
    (hrun : machine.family.run states events = some (finals, emitted)) {index : Nat} {state : σ}
    (hstate : states[index]? = some state) :
    ∃ final, finals[index]? = some final ∧
      machine.run state (ofMember index events) = some (final, ofMember index emitted) := by
  refine machine.family.run_induction
    (motive := fun events finals emitted => ∃ final, finals[index]? = some final ∧
      machine.run state (ofMember index events) = some (final, ofMember index emitted))
    ⟨state, hstate, rfl⟩ ?_ hrun
  rintro done current out ⟨member, event⟩ nexts first ⟨middle, hmiddle, hdone⟩ hstep
  obtain ⟨before, next, values, hbefore, hnext, rfl, rfl⟩ :=
    machine.family_step_eq_some_iff.mp hstep
  rw [ofMember_append, ofMember_append]
  by_cases hsame : member = index
  · subst hsame
    obtain rfl := Option.some.inj (hmiddle.symm.trans hbefore)
    obtain ⟨hlt, -⟩ := List.getElem?_eq_some_iff.mp hmiddle
    refine ⟨next, List.getElem?_set_self hlt, ?_⟩
    rw [ofMember_cons_self, ofMember_nil, ofMember_map_self]
    exact machine.run_concat hdone hnext
  · refine ⟨middle, by rw [List.getElem?_set_ne hsame, hmiddle], ?_⟩
    rw [ofMember_cons_of_ne hsame, ofMember_map_of_ne hsame, List.append_nil]
    rw [ofMember_nil, List.append_nil, hdone]

theorem Each.member {condition : σ → ε → Prop} {index : Nat} {state : σ} :
    ∀ {events : List (Nat × ε)} {states finals : List σ} {emitted : List (Nat × ω)},
      machine.family.Each (Memberwise condition) states events →
        machine.family.run states events = some (finals, emitted) →
          states[index]? = some state → machine.Each condition state (ofMember index events) := by
  intro events
  induction events generalizing state with
  | nil => exact fun _ _ _ => trivial
  | cons tagged events ih =>
      obtain ⟨member, event⟩ := tagged
      intro states finals emitted heach hrun hstate
      obtain ⟨nexts, first, rest, hstep, hrest, -⟩ := machine.family.run_cons_eq_some_iff.mp hrun
      obtain ⟨hcondition, hlater⟩ := heach nexts first hstep
      obtain ⟨before, next, values, hbefore, hnext, rfl, -⟩ :=
        machine.family_step_eq_some_iff.mp hstep
      by_cases hsame : member = index
      · subst hsame
        rw [ofMember_cons_self]
        obtain rfl := Option.some.inj (hstate.symm.trans hbefore)
        intro other outputs hother
        obtain ⟨rfl, -⟩ : next = other ∧ values = outputs := by
          simpa using hnext.symm.trans hother
        obtain ⟨hlt, -⟩ := List.getElem?_eq_some_iff.mp hstate
        exact ⟨hcondition state hstate, ih hlater hrest (List.getElem?_set_self hlt)⟩
      · rw [ofMember_cons_of_ne hsame]
        apply ih hlater hrest
        rw [List.getElem?_set_ne hsame, hstate]

end Machine
