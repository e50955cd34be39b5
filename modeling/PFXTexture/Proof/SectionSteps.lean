import PFXTexture.DContentsViewModel

/-!
# What one step of a section's view model does
-/

namespace PFXTexture.DContentsViewModel

def accept (viewModel : DContentsViewModel) (models : List RepositoryModel) :
    DContentsViewModel :=
  { viewModel with itemsSubject := some (viewModel.itemsSubject.getD [] ++ models) }

/-- A response of a disposed subscription is dropped, an error is swallowed, a page is accepted. -/
inductive ResponseStep (viewModel : DContentsViewModel) (index : Nat) :
    Outcome → DContentsViewModel → List Output → Prop where
  | dropped {load : Load} {outcome : Outcome} (hload : viewModel.loads[index]? = some load)
      (hopen : load.completed = false) (hdead : load.subscription ∉ viewModel.disposables.live) :
      ResponseStep viewModel index outcome (viewModel.complete index load) []
  | failed {load : Load} {error : LoadError} (hload : viewModel.loads[index]? = some load)
      (hopen : load.completed = false) (hlive : load.subscription ∈ viewModel.disposables.live) :
      ResponseStep viewModel index (.error error) (viewModel.complete index load) []
  | succeeded {load : Load} {models : List RepositoryModel}
      (hload : viewModel.loads[index]? = some load) (hopen : load.completed = false)
      (hlive : load.subscription ∈ viewModel.disposables.live) :
      ResponseStep viewModel index (.ok models) ((viewModel.complete index load).accept models)
        [.items (viewModel.itemsSubject.getD [] ++ models)]

variable {viewModel next : DContentsViewModel} {index subscription : Nat} {outcome : Outcome}
  {emitted : List Output}

theorem onSuccess_eq (viewModel : DContentsViewModel) (models : List RepositoryModel) :
    viewModel.onSuccess models =
      (viewModel.accept models, [.items (viewModel.itemsSubject.getD [] ++ models)]) := by
  unfold onSuccess accept
  cases viewModel.itemsSubject <;> rfl

theorem response_step (hstep : viewModel.response index outcome = some (next, emitted)) :
    ResponseStep viewModel index outcome next emitted := by
  unfold response at hstep
  cases hload : viewModel.loads[index]? with
  | none => simp [hload] at hstep
  | some load =>
      cases hopen : load.completed with
      | true => simp [hload, hopen] at hstep
      | false =>
          have hlive_eq : (viewModel.complete index load).disposables = viewModel.disposables := rfl
          simp only [hload, hopen, Bool.false_eq_true, if_false, hlive_eq] at hstep
          by_cases hlive : load.subscription ∈ viewModel.disposables.live
          · rw [if_neg (not_not_intro hlive)] at hstep
            cases outcome with
            | ok models =>
                simp only [onSuccess_eq] at hstep
                cases hstep
                exact .succeeded hload hopen hlive
            | error error =>
                cases hstep
                exact .failed hload hopen hlive
          · rw [if_pos hlive] at hstep
            cases hstep
            exact .dropped hload hopen hlive

theorem ResponseStep.disposables_eq (hcases : ResponseStep viewModel index outcome next emitted) :
    next.disposables = viewModel.disposables := by
  cases hcases <;> rfl

/-- No subscription is added and none changes hands. -/
theorem ResponseStep.subscription_mem
    (hcases : ResponseStep viewModel index outcome next emitted) :
    ∀ load ∈ next.loads, ∃ old ∈ viewModel.loads, load.subscription = old.subscription := by
  have hset : ∀ {old load : Load}, viewModel.loads[index]? = some old →
      load ∈ viewModel.loads.set index { old with completed := true } →
        ∃ old ∈ viewModel.loads, load.subscription = old.subscription := by
    intro old load hold hload
    rcases List.mem_or_eq_of_mem_set hload with hmem | rfl
    · exact ⟨load, hmem, rfl⟩
    · exact ⟨old, List.mem_of_getElem? hold, rfl⟩
  intro load hload
  cases hcases with
  | dropped hold _ _ => exact hset hold hload
  | failed hold _ _ => exact hset hold hload
  | succeeded hold _ _ => exact hset hold hload

theorem debounceElapsed_cases (hstep : viewModel.debounceElapsed subscription = some next) :
    subscription ∈ viewModel.debounced ∧
      (subscription ∈ viewModel.disposables.live ∧
          next = (viewModel.endDebounce subscription).onLoad ∨
        subscription ∉ viewModel.disposables.live ∧ next = viewModel.endDebounce subscription) := by
  unfold debounceElapsed at hstep
  by_cases hmem : subscription ∈ viewModel.debounced
  · refine ⟨hmem, ?_⟩
    rw [if_neg (not_not_intro hmem)] at hstep
    by_cases hlive : subscription ∈ viewModel.disposables.live
    · left
      have hlive' : subscription ∈ (viewModel.endDebounce subscription).disposables.live := hlive
      rw [if_pos hlive'] at hstep
      exact ⟨hlive, (Option.some.inj hstep).symm⟩
    · right
      have hlive' : subscription ∉ (viewModel.endDebounce subscription).disposables.live := hlive
      rw [if_neg hlive'] at hstep
      exact ⟨hlive, (Option.some.inj hstep).symm⟩
  · simp [hmem] at hstep

/-- A step of the machine: a load input, a debounce that elapses with or without its observer, the
end of a request, or a reset of the bag. -/
inductive Step (viewModel : DContentsViewModel) :
    Event → DContentsViewModel → List Output → Prop where
  | load : Step viewModel .load viewModel.load []
  | issued {subscription : Nat} (hlive : subscription ∈ viewModel.disposables.live) :
      Step viewModel (.debounceElapsed subscription) (viewModel.endDebounce subscription).onLoad []
  | lapsed {subscription : Nat} :
      Step viewModel (.debounceElapsed subscription) (viewModel.endDebounce subscription) []
  | responded {index : Nat} {outcome : Outcome} {next : DContentsViewModel} {emitted : List Output}
      (hresponse : ResponseStep viewModel index outcome next emitted) :
      Step viewModel (.response index outcome) next emitted
  | reset {event : Event} : Step viewModel event viewModel.deinitializeBag []

theorem machine_step {event : Event}
    (hstep : machine.step viewModel event = some (next, emitted)) :
    Step viewModel event next emitted := by
  cases event with
  | load =>
      cases hstep
      exact .load
  | debounceElapsed subscription =>
      obtain ⟨_, helapsed, hpair⟩ := Option.map_eq_some_iff.mp hstep
      cases hpair
      obtain ⟨-, ⟨hlive, rfl⟩ | ⟨-, rfl⟩⟩ := debounceElapsed_cases helapsed
      · exact .issued hlive
      · exact .lapsed
  | response index outcome => exact .responded (response_step hstep)
  | initializeCall =>
      cases hstep
      exact .reset
  | deinitializeCall =>
      cases hstep
      exact .reset

/-- The loads after a new one. -/
theorem forall_mem_loads_onLoad {property : Load → Prop} :
    (∀ load ∈ viewModel.onLoad.loads, property load) ↔
      (∀ load ∈ viewModel.loads, property load) ∧
        property { subscription := viewModel.disposables.issued,
                   params := [.since (some (viewModel.dependency.index * 100))],
                   completed := false } := by
  rw [onLoad, List.forall_mem_append, List.forall_mem_singleton]

def LoadsLive (viewModel : DContentsViewModel) : Prop :=
  ∀ load ∈ viewModel.loads, load.subscription ∈ viewModel.disposables.live

theorem LoadsLive.onLoad (hloads : viewModel.LoadsLive) : viewModel.onLoad.LoadsLive := by
  refine forall_mem_loads_onLoad.mpr ⟨?_, ?_⟩
  · intro load hload
    exact List.mem_cons_of_mem _ (hloads load hload)
  · exact List.mem_cons_self

theorem ResponseStep.loadsLive (hloads : viewModel.LoadsLive)
    (hcases : ResponseStep viewModel index outcome next emitted) : next.LoadsLive := by
  intro load hload
  obtain ⟨old, hold, heq⟩ := hcases.subscription_mem load hload
  rw [hcases.disposables_eq, heq]
  exact hloads old hold

end PFXTexture.DContentsViewModel
