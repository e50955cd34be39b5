import Mathlib.Data.List.Basic

/-!
# Guarded machines and their runs

A machine answers an event with its next state and the values it emits, or refuses the event when
it is not enabled. A property of every interleaving is then a property of every list of events,
and it is proved from one lemma about a single step.

The exact rules at the end are for a property that a run keeps on some steps and loses on others:
when one step loses it precisely if a condition on the state before the step fails, the whole run
keeps it precisely if all its steps meet the condition.
-/

/-- `step state event` is `none` when the event is not enabled in the state. -/
structure Machine (σ ε ω : Type*) where
  step : σ → ε → Option (σ × List ω)

namespace Machine

variable {σ ε ω γ : Type*} (machine : Machine σ ε ω)

def run (state : σ) : List ε → Option (σ × List ω)
  | [] => some (state, [])
  | event :: events =>
      match machine.step state event with
      | none => none
      | some (next, emitted) =>
          (run next events).map fun (final, rest) => (final, emitted ++ rest)

@[simp]
theorem run_nil (state : σ) : machine.run state [] = some (state, []) := rfl

theorem run_cons_eq_some_iff {state final : σ} {event : ε} {events : List ε} {emitted : List ω} :
    machine.run state (event :: events) = some (final, emitted) ↔
      ∃ next first rest, machine.step state event = some (next, first) ∧
        machine.run next events = some (final, rest) ∧ emitted = first ++ rest := by
  rw [run]
  cases hstep : machine.step state event with
  | none => simp
  | some result =>
      obtain ⟨next, first⟩ := result
      simp only [Option.map_eq_some_iff, Option.some.injEq, Prod.mk.injEq, Prod.exists]
      constructor
      · rintro ⟨_, rest, hrun, rfl, rfl⟩
        exact ⟨next, first, rest, ⟨rfl, rfl⟩, hrun, rfl⟩
      · rintro ⟨_, _, rest, ⟨rfl, rfl⟩, hrun, rfl⟩
        exact ⟨final, rest, hrun, rfl, rfl⟩

theorem run_append_eq_some_iff {state final : σ} {left right : List ε} {emitted : List ω} :
    machine.run state (left ++ right) = some (final, emitted) ↔
      ∃ middle first rest, machine.run state left = some (middle, first) ∧
        machine.run middle right = some (final, rest) ∧ emitted = first ++ rest := by
  induction left generalizing state emitted with
  | nil => simp
  | cons event left ih =>
      rw [List.cons_append, run_cons_eq_some_iff]
      constructor
      · rintro ⟨next, first, rest, hstep, hrun, rfl⟩
        obtain ⟨middle, second, third, hleft, hright, rfl⟩ := ih.mp hrun
        refine ⟨middle, first ++ second, third, ?_, hright, by rw [List.append_assoc]⟩
        exact machine.run_cons_eq_some_iff.mpr ⟨next, first, second, hstep, hleft, rfl⟩
      · rintro ⟨middle, before, third, hleft, hright, rfl⟩
        obtain ⟨next, first, second, hstep, hrest, rfl⟩ := machine.run_cons_eq_some_iff.mp hleft
        refine ⟨next, first, second ++ third, hstep, ?_, by rw [List.append_assoc]⟩
        exact ih.mpr ⟨middle, second, third, hrest, hright, rfl⟩

theorem run_singleton (state : σ) (event : ε) :
    machine.run state [event] = machine.step state event := by
  rw [run]
  cases hstep : machine.step state event <;> simp

theorem run_concat {start state next : σ} {events : List ε} {event : ε} {out emitted : List ω}
    (hrun : machine.run start events = some (state, out))
    (hstep : machine.step state event = some (next, emitted)) :
    machine.run start (events ++ [event]) = some (next, out ++ emitted) := by
  apply machine.run_append_eq_some_iff.mpr
  exact ⟨state, out, emitted, hrun, (machine.run_singleton state event).trans hstep, rfl⟩

/-- If what is enabled after some events is decided by them, the runs are the lists of events each
of which is enabled after those before it. -/
theorem isSome_run_iff {enabled : List ε → ε → Prop} {start : σ}
    (hexact : ∀ before state emitted, machine.run start before = some (state, emitted) →
      ∀ event, (machine.step state event).isSome ↔ enabled before event) {events : List ε} :
    (machine.run start events).isSome ↔
      ∀ before event after, events = before ++ event :: after → enabled before event := by
  constructor
  · intro hsome before event after hsplit
    obtain ⟨⟨final, emitted⟩, hrun⟩ := Option.isSome_iff_exists.mp hsome
    rw [hsplit] at hrun
    obtain ⟨state, first, rest, hbefore, hafter, -⟩ := machine.run_append_eq_some_iff.mp hrun
    obtain ⟨next, second, third, hstep, -, -⟩ := machine.run_cons_eq_some_iff.mp hafter
    exact (hexact before state first hbefore event).mp (Option.isSome_of_eq_some hstep)
  · intro henabled
    have hall : ∀ (events done : List ε) (state : σ) (out : List ω),
        machine.run start done = some (state, out) →
          (∀ before event after, events = before ++ event :: after →
            enabled (done ++ before) event) → (machine.run state events).isSome := by
      intro events
      induction events with
      | nil => exact fun _ _ _ _ _ => rfl
      | cons event events ih =>
          intro done state out hdone henabled
          have hfirst : enabled done event := by
            simpa using henabled [] event events rfl
          obtain ⟨⟨next, emitted⟩, hstep⟩ := Option.isSome_iff_exists.mp
            ((hexact done state out hdone event).mpr hfirst)
          have hlater := ih (done ++ [event]) next (out ++ emitted)
            (machine.run_concat hdone hstep) fun before other after hsplit => by
              simpa using henabled (event :: before) other after (by rw [hsplit]; rfl)
          obtain ⟨⟨final, rest⟩, hrest⟩ := Option.isSome_iff_exists.mp hlater
          exact Option.isSome_of_eq_some
            (machine.run_cons_eq_some_iff.mpr ⟨next, emitted, rest, hstep, hrest, rfl⟩)
    exact hall events [] start [] rfl henabled

/-- Induction along a run, with the events and the outputs so far at hand. -/
theorem run_induction {motive : List ε → σ → List ω → Prop} {start : σ}
    (hstart : motive [] start [])
    (hstep : ∀ done state out event next emitted, motive done state out →
      machine.step state event = some (next, emitted) →
        motive (done ++ [event]) next (out ++ emitted)) :
    ∀ {events : List ε} {final : σ} {emitted : List ω},
      machine.run start events = some (final, emitted) → motive events final emitted := by
  have hrun : ∀ (events done : List ε) (state : σ) (out : List ω) (final : σ) (emitted : List ω),
      motive done state out → machine.run state events = some (final, emitted) →
        motive (done ++ events) final (out ++ emitted) := by
    intro events
    induction events with
    | nil =>
        intro done state out final emitted hmotive hrun
        obtain ⟨rfl, rfl⟩ : state = final ∧ [] = emitted := by simpa using hrun
        simpa using hmotive
    | cons event events ih =>
        intro done state out final emitted hmotive hrun
        obtain ⟨next, first, rest, hfirst, hrest, rfl⟩ := machine.run_cons_eq_some_iff.mp hrun
        have hnext := hstep done state out event next first hmotive hfirst
        have htail := ih (done ++ [event]) next (out ++ first) final rest hnext hrest
        rwa [List.append_assoc, List.append_assoc] at htail
  intro events final emitted hevents
  simpa using hrun events [] start [] final emitted hstart hevents

/-- Induction along a run for a property of the state and the last event of some kind before it. -/
theorem run_last_induction {κ : Type*} (kind : ε → Option κ) {motive : Option κ → σ → Prop}
    {start : σ} (hstart : motive none start)
    (hstep : ∀ last state event next emitted, motive last state →
      machine.step state event = some (next, emitted) → motive ((kind event).or last) next)
    {events : List ε} {final : σ} {emitted : List ω}
    (hrun : machine.run start events = some (final, emitted)) :
    motive (events.filterMap kind).getLast? final := by
  refine machine.run_induction
    (motive := fun done state _ => motive (done.filterMap kind).getLast? state) hstart ?_ hrun
  intro done state out event next first hmotive hnext
  have hlast : ((done ++ [event]).filterMap kind).getLast? =
      (kind event).or (done.filterMap kind).getLast? := by
    rw [List.filterMap_append, List.getLast?_append]
    cases hkind : kind event <;> simp [hkind]
  rw [hlast]
  exact hstep _ state event next first hmotive hnext

/-! ### Invariants -/

def Preserves (inv : σ → Prop) : Prop :=
  ∀ ⦃state event next emitted⦄, inv state → machine.step state event = some (next, emitted) →
    inv next

variable {machine} in
theorem Preserves.run {inv : σ → Prop} (hkeep : machine.Preserves inv) :
    ∀ {events : List ε} {state final : σ} {emitted : List ω}, inv state →
      machine.run state events = some (final, emitted) → inv final := by
  intro events
  induction events with
  | nil =>
      intro state final emitted hinv hrun
      obtain ⟨rfl, -⟩ : state = final ∧ [] = emitted := by simpa using hrun
      exact hinv
  | cons event events ih =>
      intro state final emitted hinv hrun
      obtain ⟨next, first, rest, hstep, hrest, -⟩ := machine.run_cons_eq_some_iff.mp hrun
      exact ih (hkeep hinv hstep) hrest

def Reachable (start state : σ) : Prop :=
  ∃ events emitted, machine.run start events = some (state, emitted)

variable {machine} in
theorem Reachable.refl (start : σ) : machine.Reachable start start :=
  ⟨[], [], rfl⟩

variable {machine} in
theorem Reachable.run {start state final : σ} {events : List ε} {emitted : List ω}
    (hreach : machine.Reachable start state)
    (hrun : machine.run state events = some (final, emitted)) : machine.Reachable start final := by
  obtain ⟨before, first, hbefore⟩ := hreach
  exact ⟨before ++ events, first ++ emitted,
    machine.run_append_eq_some_iff.mpr ⟨state, first, emitted, hbefore, hrun, rfl⟩⟩

variable {machine} in
theorem Preserves.reachable {inv : σ → Prop} (hkeep : machine.Preserves inv) {start state : σ}
    (hstart : inv start) (hreach : machine.Reachable start state) : inv state := by
  obtain ⟨events, emitted, hrun⟩ := hreach
  exact hkeep.run hstart hrun

/-! ### Silence -/

/-- Whatever happens from here on, nothing is emitted and the value in view stays. -/
def Silent {β : Type*} (view : σ → β) (state : σ) : Prop :=
  ∀ events final emitted, machine.run state events = some (final, emitted) →
    emitted = [] ∧ view final = view state

variable {machine} in
theorem Preserves.silent {β : Type*} {view : σ → β} {inv : σ → Prop}
    (hkeep : machine.Preserves inv)
    (hquiet : ∀ state event next emitted, inv state →
      machine.step state event = some (next, emitted) → emitted = [] ∧ view next = view state)
    {state : σ} (hinv : inv state) : machine.Silent view state := by
  intro events
  induction events generalizing state with
  | nil =>
      intro final emitted hrun
      obtain ⟨rfl, rfl⟩ : state = final ∧ [] = emitted := by simpa using hrun
      exact ⟨rfl, rfl⟩
  | cons event events ih =>
      intro final emitted hrun
      obtain ⟨next, first, rest, hstep, hrest, rfl⟩ := machine.run_cons_eq_some_iff.mp hrun
      obtain ⟨rfl, hview⟩ := hquiet state event next first hinv hstep
      obtain ⟨rfl, hfinal⟩ := ih (hkeep hinv hstep) final rest hrest
      exact ⟨rfl, hfinal.trans hview⟩

/-! ### Properties of all states and of all steps of a run

`Always` is about every state the run passes through, both ends included; `EachStep` relates the
state before a step, its event, the state after it and what it emits; `Each` asks a condition of
the state and the event alone. -/

def Always (property : σ → Prop) : σ → List ε → Prop
  | state, [] => property state
  | state, event :: events =>
      property state ∧ ∀ next emitted, machine.step state event = some (next, emitted) →
        Always property next events

def EachStep (relation : σ → ε → σ → List ω → Prop) : σ → List ε → Prop
  | _, [] => True
  | state, event :: events =>
      ∀ next emitted, machine.step state event = some (next, emitted) →
        relation state event next emitted ∧ EachStep relation next events

def Each (condition : σ → ε → Prop) : σ → List ε → Prop :=
  machine.EachStep fun state event _ _ => condition state event

theorem each_of_forall_mem {condition : ε → Prop} {events : List ε}
    (hall : ∀ event ∈ events, condition event) (state : σ) :
    machine.Each (fun _ event => condition event) state events := by
  induction events generalizing state with
  | nil => exact trivial
  | cons event events ih =>
      obtain ⟨hevent, hevents⟩ := List.forall_mem_cons.mp hall
      intro next emitted _
      exact ⟨hevent, ih hevents next⟩

variable {machine} in
theorem Each.cons {condition : σ → ε → Prop} {state next : σ} {event : ε} {events : List ε}
    {emitted : List ω} (hstep : machine.step state event = some (next, emitted))
    (hcondition : condition state event) (hevents : machine.Each condition next events) :
    machine.Each condition state (event :: events) := by
  intro other outputs hother
  obtain ⟨rfl, rfl⟩ : next = other ∧ emitted = outputs := by simpa using hstep.symm.trans hother
  exact ⟨hcondition, hevents⟩

variable {machine} in
/-- Induction along a run all of whose steps meet the condition. -/
theorem Each.run_induction {condition : σ → ε → Prop} {motive : List ε → σ → List ω → Prop}
    {start : σ} (hstart : motive [] start [])
    (hstep : ∀ done state out event next emitted, motive done state out → condition state event →
      machine.step state event = some (next, emitted) →
        motive (done ++ [event]) next (out ++ emitted))
    {events : List ε} {final : σ} {emitted : List ω} (heach : machine.Each condition start events)
    (hrun : machine.run start events = some (final, emitted)) : motive events final emitted := by
  have hall : ∀ (events done : List ε) (state : σ) (out : List ω) (final : σ) (emitted : List ω),
      motive done state out → machine.Each condition state events →
        machine.run state events = some (final, emitted) →
          motive (done ++ events) final (out ++ emitted) := by
    intro events
    induction events with
    | nil =>
        intro done state out final emitted hmotive _ hrun
        obtain ⟨rfl, rfl⟩ : state = final ∧ [] = emitted := by simpa using hrun
        simpa using hmotive
    | cons event events ih =>
        intro done state out final emitted hmotive heach hrun
        obtain ⟨next, first, rest, hfirst, hrest, rfl⟩ := machine.run_cons_eq_some_iff.mp hrun
        obtain ⟨hcondition, hlater⟩ := heach next first hfirst
        have hnext := hstep done state out event next first hmotive hcondition hfirst
        have htail := ih (done ++ [event]) next (out ++ first) final rest hnext hlater hrest
        rwa [List.append_assoc, List.append_assoc] at htail
  simpa using hall events [] start [] final emitted hstart heach hrun

theorem always_iff_forall_run {property : σ → Prop} {state : σ} {events : List ε} :
    machine.Always property state events ↔
      ∀ done rest middle emitted, events = done ++ rest →
        machine.run state done = some (middle, emitted) → property middle := by
  induction events generalizing state with
  | nil =>
      constructor
      · intro hproperty done rest middle emitted hsplit hrun
        obtain ⟨rfl, rfl⟩ := List.append_eq_nil_iff.mp hsplit.symm
        obtain ⟨rfl, -⟩ : state = middle ∧ [] = emitted := by simpa using hrun
        exact hproperty
      · exact fun hall => hall [] [] state [] rfl rfl
  | cons event events ih =>
      constructor
      · rintro ⟨hproperty, hnext⟩ done rest middle emitted hsplit hrun
        cases done with
        | nil =>
            obtain ⟨rfl, -⟩ : state = middle ∧ [] = emitted := by simpa using hrun
            exact hproperty
        | cons head done =>
            obtain ⟨rfl, htail⟩ : event = head ∧ events = done ++ rest := by simpa using hsplit
            obtain ⟨next, first, second, hstep, hrest, -⟩ := machine.run_cons_eq_some_iff.mp hrun
            exact ih.mp (hnext next first hstep) done rest middle second htail hrest
      · intro hall
        refine ⟨hall [] (event :: events) state [] rfl rfl, fun next first hstep => ih.mpr ?_⟩
        intro done rest middle second hsplit hrun
        apply hall (event :: done) rest middle (first ++ second) (by rw [hsplit]; rfl)
        exact machine.run_cons_eq_some_iff.mpr ⟨next, first, second, hstep, hrun, rfl⟩

variable {machine} in
/-- What good states emit, a run through good states emits. -/
theorem Always.forall_mem_emitted {property : σ → Prop} {good : ω → Prop}
    (houtput : ∀ state event next emitted, property state →
      machine.step state event = some (next, emitted) → ∀ output ∈ emitted, good output) :
    ∀ {events : List ε} {state final : σ} {emitted : List ω},
      machine.Always property state events → machine.run state events = some (final, emitted) →
        ∀ output ∈ emitted, good output := by
  intro events
  induction events with
  | nil =>
      intro state final emitted _ hrun
      obtain ⟨-, rfl⟩ : state = final ∧ [] = emitted := by simpa using hrun
      simp
  | cons event events ih =>
      rintro state final emitted ⟨hproperty, hnext⟩ hrun
      obtain ⟨next, first, rest, hstep, hrest, rfl⟩ := machine.run_cons_eq_some_iff.mp hrun
      rw [List.forall_mem_append]
      exact ⟨houtput state event next first hproperty hstep, ih (hnext next first hstep) hrest⟩

variable {machine} in
/-- **Exact condition for states.** If a step from a good state leads to a good state precisely
when it meets the condition, the run stays in good states precisely when all its steps do. -/
theorem Preserves.always_iff_each {inv property : σ → Prop} {condition : σ → ε → Prop}
    (hkeep : machine.Preserves inv)
    (hexact : ∀ state event next emitted, inv state → property state →
      machine.step state event = some (next, emitted) →
        (property next ↔ condition state event)) :
    ∀ {events : List ε} {state : σ}, inv state → property state →
      (machine.Always property state events ↔ machine.Each condition state events) := by
  intro events
  induction events with
  | nil =>
      intro state _ hproperty
      exact iff_of_true hproperty trivial
  | cons event events ih =>
      intro state hinv hproperty
      constructor
      · rintro ⟨-, hnext⟩ next emitted hstep
        have htail := hnext next emitted hstep
        have hgood : property next :=
          machine.always_iff_forall_run.mp htail [] events next [] rfl rfl
        exact ⟨(hexact state event next emitted hinv hproperty hstep).mp hgood,
          (ih (hkeep hinv hstep) hgood).mp htail⟩
      · intro heach
        refine ⟨hproperty, fun next emitted hstep => ?_⟩
        obtain ⟨hcondition, htail⟩ := heach next emitted hstep
        have hgood := (hexact state event next emitted hinv hproperty hstep).mpr hcondition
        exact (ih (hkeep hinv hstep) hgood).mpr htail

variable {machine} in
theorem Preserves.eachStep_iff_each {inv : σ → Prop} {relation : σ → ε → σ → List ω → Prop}
    {condition : σ → ε → Prop} (hkeep : machine.Preserves inv)
    (hexact : ∀ state event next emitted, inv state →
      machine.step state event = some (next, emitted) →
        (relation state event next emitted ↔ condition state event)) :
    ∀ {events : List ε} {state : σ}, inv state →
      (machine.EachStep relation state events ↔ machine.Each condition state events) := by
  intro events
  induction events with
  | nil => exact fun _ => Iff.rfl
  | cons event events ih =>
      intro state hinv
      refine forall₂_congr fun next emitted => forall_congr' fun hstep => ?_
      exact and_congr (hexact state event next emitted hinv hstep) (ih (hkeep hinv hstep))

/-! ### Simulation

A machine whose states, seen through `view`, step as those of another do. -/

variable {machine} in
theorem Preserves.map_run {τ : Type*} {abstract : Machine τ ε ω} {view : σ → τ} {inv : σ → Prop}
    (hkeep : machine.Preserves inv)
    (hview : ∀ state event, inv state →
      (machine.step state event).map (Prod.map view id) = abstract.step (view state) event) :
    ∀ {events : List ε} {state : σ}, inv state →
      (machine.run state events).map (Prod.map view id) = abstract.run (view state) events := by
  intro events
  induction events with
  | nil => exact fun _ => rfl
  | cons event events ih =>
      intro state hinv
      rw [Machine.run, Machine.run, ← hview state event hinv]
      cases hstep : machine.step state event with
      | none => rfl
      | some result =>
          obtain ⟨next, first⟩ := result
          simp only [Option.map_some, Prod.map_apply, id_eq]
          rw [← ih (hkeep hinv hstep), Option.map_map, Option.map_map]
          rfl

variable {machine} in
/-- A machine each of whose steps is a run of another, by events that its own event decides. -/
theorem Preserves.run_flatMap {τ ε' : Type*} {abstract : Machine τ ε' ω} {view : σ → τ}
    {inv : σ → Prop} {project : ε → List ε'} (hkeep : machine.Preserves inv)
    (hstep : ∀ state event next emitted, inv state →
      machine.step state event = some (next, emitted) →
        abstract.run (view state) (project event) = some (view next, emitted)) :
    ∀ {events : List ε} {state final : σ} {emitted : List ω}, inv state →
      machine.run state events = some (final, emitted) →
        abstract.run (view state) (events.flatMap project) = some (view final, emitted) := by
  intro events
  induction events with
  | nil =>
      intro state final emitted _ hrun
      obtain ⟨rfl, rfl⟩ : state = final ∧ [] = emitted := by simpa using hrun
      rfl
  | cons event events ih =>
      intro state final emitted hinv hrun
      obtain ⟨next, first, rest, hfirst, hrest, rfl⟩ := machine.run_cons_eq_some_iff.mp hrun
      rw [List.flatMap_cons]
      apply abstract.run_append_eq_some_iff.mpr
      exact ⟨view next, first, rest, hstep state event next first hinv hfirst,
        ih (hkeep hinv hfirst) hrest, rfl⟩

/-! ### Assumptions on the surroundings

The machine under a rule about which events happen when. -/

def restrict (allowed : σ → ε → Prop) [∀ state event, Decidable (allowed state event)] :
    Machine σ ε ω where
  step := fun state event => if allowed state event then machine.step state event else none

theorem restrict_step_eq_some_iff {allowed : σ → ε → Prop}
    [∀ state event, Decidable (allowed state event)] {state next : σ} {event : ε}
    {emitted : List ω} :
    (machine.restrict allowed).step state event = some (next, emitted) ↔
      allowed state event ∧ machine.step state event = some (next, emitted) := by
  unfold restrict
  by_cases hallowed : allowed state event <;> simp [hallowed]

/-! ### Ghost state

A history kept beside the state, which no step reads. -/

def withGhost (track : σ → ε → σ → γ → γ) : Machine (σ × γ) ε ω where
  step := fun (state, ghost) event =>
    (machine.step state event).map fun (next, emitted) =>
      ((next, track state event next ghost), emitted)

theorem withGhost_step_eq_some_iff {track : σ → ε → σ → γ → γ} {state next : σ}
    {ghost ghost' : γ} {event : ε} {emitted : List ω} :
    (machine.withGhost track).step (state, ghost) event = some ((next, ghost'), emitted) ↔
      machine.step state event = some (next, emitted) ∧ ghost' = track state event next ghost := by
  simp only [withGhost, Option.map_eq_some_iff, Prod.mk.injEq, Prod.exists]
  constructor
  · rintro ⟨_, _, hstep, ⟨rfl, rfl⟩, rfl⟩
    exact ⟨hstep, rfl⟩
  · rintro ⟨hstep, rfl⟩
    exact ⟨next, emitted, hstep, ⟨rfl, rfl⟩, rfl⟩

/-- A history stops no run. -/
theorem exists_run_withGhost {track : σ → ε → σ → γ → γ} {events : List ε} {state final : σ}
    {emitted : List ω} (ghost : γ) (hrun : machine.run state events = some (final, emitted)) :
    ∃ ghost', (machine.withGhost track).run (state, ghost) events =
      some ((final, ghost'), emitted) := by
  induction events generalizing state emitted ghost with
  | nil =>
      obtain ⟨rfl, rfl⟩ : state = final ∧ [] = emitted := by simpa using hrun
      exact ⟨ghost, rfl⟩
  | cons event events ih =>
      obtain ⟨next, first, rest, hfirst, hrest, rfl⟩ := machine.run_cons_eq_some_iff.mp hrun
      obtain ⟨ghost', hghost⟩ := ih (track state event next ghost) hrest
      refine ⟨ghost', (Machine.run_cons_eq_some_iff _).mpr ?_⟩
      refine ⟨(next, track state event next ghost), first, rest, ?_, hghost, rfl⟩
      exact machine.withGhost_step_eq_some_iff.mpr ⟨hfirst, rfl⟩

end Machine
