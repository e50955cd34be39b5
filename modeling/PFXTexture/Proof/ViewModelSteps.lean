import PFXTexture.RepositoryViewModel
import PFXTexture.Proof.DecoratedPage

/-!
# What one step of the list view model does

`AttemptStep` lists the three things the end of an attempt can do to a view model that is bound and
whose subscriptions are live. Everything about runs is derived from it.
-/

namespace PFXTexture.RepositoryViewModel

variable (random : Nat → Nat → String)

def LoadsLive (viewModel : RepositoryViewModel) : Prop :=
  ∀ load ∈ viewModel.loads, load.subscription ∈ viewModel.disposables.live

/-- Bound once, with all subscriptions delivering. -/
structure Wired (viewModel : RepositoryViewModel) : Prop where
  bound : ∃ subscription ∈ viewModel.disposables.live, viewModel.loadSubject = [subscription]
  loads_live : viewModel.LoadsLive

def accept (viewModel : RepositoryViewModel) (rows : List RxCellViewModel) (allocated : Nat) :
    RepositoryViewModel :=
  { viewModel with
    cellViewModelsSubject := some (viewModel.cellViewModelsSubject.getD [] ++ rows)
    allocated }

section Wired

variable {viewModel : RepositoryViewModel}

theorem wired_make : make.Wired where
  bound := ⟨0, by decide, rfl⟩
  loads_live := by simp [LoadsLive, make, bindInputs]

theorem Wired.load_eq (hwired : viewModel.Wired) : viewModel.load = viewModel.onLoad := by
  obtain ⟨subscription, hlive, hsubject⟩ := hwired.bound
  have hobservers : viewModel.observers = [subscription] := by
    simp [observers, hsubject, hlive]
  rw [load, hobservers]
  rfl

/-- The loads after a new one. -/
theorem forall_mem_loads_onLoad {property : Load → Prop} :
    (∀ load ∈ viewModel.onLoad.loads, property load) ↔
      (∀ load ∈ viewModel.loads, property load) ∧
        property { subscription := viewModel.disposables.issued,
                   params := [.since viewModel.lastId], progress := .subscribed 0 } := by
  rw [onLoad, List.forall_mem_append, List.forall_mem_singleton]

theorem LoadsLive.onLoad (hloads : viewModel.LoadsLive) : viewModel.onLoad.LoadsLive := by
  refine forall_mem_loads_onLoad.mpr ⟨?_, ?_⟩
  · intro load hload
    exact List.mem_cons_of_mem _ (hloads load hload)
  · exact List.mem_cons_self

theorem Wired.onLoad (hwired : viewModel.Wired) : viewModel.onLoad.Wired where
  bound := by
    obtain ⟨subscription, hlive, hsubject⟩ := hwired.bound
    exact ⟨subscription, List.mem_cons_of_mem _ hlive, hsubject⟩
  loads_live := hwired.loads_live.onLoad

end Wired

/-! ### The end of an attempt -/

/-- A new attempt follows, or the third failure is reported, or the page is accepted. -/
inductive AttemptStep (viewModel : RepositoryViewModel) (index : Nat) :
    Outcome → RepositoryViewModel → List Output → Prop where
  | retried {load : Load} {failures : Nat} {error : LoadError}
      (hload : viewModel.loads[index]? = some load)
      (hprogress : load.progress = .subscribed failures) (hmore : failures + 1 < 3) :
      AttemptStep viewModel index (.error error)
        (viewModel.setProgress index load (.subscribed (failures + 1))) []
  | failed {load : Load} {failures : Nat} {error : LoadError}
      (hload : viewModel.loads[index]? = some load)
      (hprogress : load.progress = .subscribed failures) (hlast : ¬failures + 1 < 3) :
      AttemptStep viewModel index (.error error)
        (viewModel.setProgress index load (.failed error)) [.error "error"]
  | succeeded {load : Load} {failures : Nat} {models : List RepositoryModel}
      {rows : List RxCellViewModel} {allocated : Nat}
      (hload : viewModel.loads[index]? = some load)
      (hprogress : load.progress = .subscribed failures)
      (hpage : DecoratedPage random models viewModel.allocated rows allocated) :
      AttemptStep viewModel index (.ok models)
        ((viewModel.setProgress index load (.succeeded models)).accept rows allocated)
        [.cellViewModels (viewModel.cellViewModelsSubject.getD [] ++ rows)]

variable {viewModel next : RepositoryViewModel} {index : Nat} {outcome : Outcome}
  {emitted : List Output}

/-- A page is always accepted: the insertion loops do not trap. -/
theorem exists_onSuccess (viewModel : RepositoryViewModel) (models : List RepositoryModel) :
    ∃ rows allocated, DecoratedPage random models viewModel.allocated rows allocated ∧
      viewModel.onSuccess random models = some (viewModel.accept rows allocated,
        [.cellViewModels (viewModel.cellViewModelsSubject.getD [] ++ rows)]) := by
  obtain ⟨rows, allocated, hpage⟩ := exists_decoratedPage random models viewModel.allocated
  refine ⟨rows, allocated, hpage, ?_⟩
  rw [onSuccess, hpage.decorate_eq]
  unfold accept
  cases viewModel.cellViewModelsSubject <;> rfl

theorem LoadsLive.exists_attempt (hloads : viewModel.LoadsLive) {load : Load}
    (hload : viewModel.loads[index]? = some load) (hpending : load.progress.Pending)
    (outcome : Outcome) :
    ∃ next emitted, viewModel.attempt random index outcome = some (next, emitted) ∧
      AttemptStep random viewModel index outcome next emitted := by
  have hlive : load.subscription ∈ viewModel.disposables.live :=
    hloads load (List.mem_of_getElem? hload)
  rw [attempt, hload]
  simp only [hpending, not_true_eq_false, if_false, hlive]
  cases hprogress : load.progress with
  | succeeded models =>
      rw [hprogress] at hpending
      exact hpending.elim
  | failed error =>
      rw [hprogress] at hpending
      exact hpending.elim
  | subscribed failures =>
      cases outcome with
      | ok models =>
          obtain ⟨rows, allocated, hpage, haccept⟩ := exists_onSuccess random
            (viewModel.setProgress index load (.succeeded models)) models
          exact ⟨_, _, haccept, AttemptStep.succeeded hload hprogress hpage⟩
      | error error =>
          by_cases hmore : failures + 1 < 3
          · refine ⟨_, _, ?_, AttemptStep.retried hload hprogress hmore⟩
            simp [Retry.next, hmore]
          · refine ⟨_, _, ?_, AttemptStep.failed hload hprogress hmore⟩
            simp [Retry.next, hmore, onError]

theorem pending_of_attempt_eq_some
    (hstep : viewModel.attempt random index outcome = some (next, emitted)) :
    ∃ load, viewModel.loads[index]? = some load ∧ load.progress.Pending := by
  unfold attempt at hstep
  cases hload : viewModel.loads[index]? with
  | none => simp [hload] at hstep
  | some load =>
      by_cases hpending : load.progress.Pending
      · exact ⟨load, rfl, hpending⟩
      · simp [hload, hpending] at hstep

theorem LoadsLive.attempt_step (hloads : viewModel.LoadsLive)
    (hstep : viewModel.attempt random index outcome = some (next, emitted)) :
    AttemptStep random viewModel index outcome next emitted := by
  obtain ⟨load, hload, hpending⟩ := pending_of_attempt_eq_some random hstep
  obtain ⟨next', emitted', hstep', hcases⟩ := hloads.exists_attempt random hload hpending outcome
  obtain ⟨rfl, rfl⟩ : next' = next ∧ emitted' = emitted := by
    simpa using hstep'.symm.trans hstep
  exact hcases

/-- A step of the machine: a load input, the end of an attempt, or a reset of the bag. -/
inductive Step (viewModel : RepositoryViewModel) :
    Event → RepositoryViewModel → List Output → Prop where
  | load : Step viewModel .load viewModel.load []
  | attempted {index : Nat} {outcome : Outcome} {next : RepositoryViewModel}
      {emitted : List Output}
      (hattempt : AttemptStep random viewModel index outcome next emitted) :
      Step viewModel (.attempt index outcome) next emitted
  | reset {event : Event} (hlifecycle : event.isLifecycle = true) :
      Step viewModel event viewModel.deinitializeBag []

theorem LoadsLive.step (hloads : viewModel.LoadsLive) {event : Event}
    (hstep : (machine random).step viewModel event = some (next, emitted)) :
    Step random viewModel event next emitted := by
  cases event with
  | load =>
      cases hstep
      exact .load
  | attempt index outcome => exact .attempted (hloads.attempt_step random hstep)
  | initializeCall =>
      cases hstep
      exact .reset rfl
  | deinitializeCall =>
      cases hstep
      exact .reset rfl

variable {random}

theorem AttemptStep.disposables_eq
    (hcases : AttemptStep random viewModel index outcome next emitted) :
    next.disposables = viewModel.disposables := by
  cases hcases <;> rfl

theorem AttemptStep.loadSubject_eq
    (hcases : AttemptStep random viewModel index outcome next emitted) :
    next.loadSubject = viewModel.loadSubject := by
  cases hcases <;> rfl

/-- No subscription is added and none changes hands. -/
theorem AttemptStep.subscription_mem
    (hcases : AttemptStep random viewModel index outcome next emitted) :
    ∀ load ∈ next.loads, ∃ old ∈ viewModel.loads, load.subscription = old.subscription := by
  have hset : ∀ {old load : Load} {progress}, viewModel.loads[index]? = some old →
      load ∈ viewModel.loads.set index { old with progress } →
        ∃ old ∈ viewModel.loads, load.subscription = old.subscription := by
    intro old load progress hold hload
    rcases List.mem_or_eq_of_mem_set hload with hmem | rfl
    · exact ⟨load, hmem, rfl⟩
    · exact ⟨old, List.mem_of_getElem? hold, rfl⟩
  intro load hload
  cases hcases with
  | retried hold _ _ => exact hset hold hload
  | failed hold _ _ => exact hset hold hload
  | succeeded hold _ _ => exact hset hold hload

theorem AttemptStep.loadsLive (hloads : viewModel.LoadsLive)
    (hcases : AttemptStep random viewModel index outcome next emitted) : next.LoadsLive := by
  intro load hload
  obtain ⟨old, hold, heq⟩ := hcases.subscription_mem load hload
  rw [hcases.disposables_eq, heq]
  exact hloads old hold

theorem AttemptStep.wired (hwired : viewModel.Wired)
    (hcases : AttemptStep random viewModel index outcome next emitted) : next.Wired where
  bound := by
    rw [hcases.disposables_eq, hcases.loadSubject_eq]
    exact hwired.bound
  loads_live := hcases.loadsLive hwired.loads_live

theorem AttemptStep.lastId_eq (hcases : AttemptStep random viewModel index outcome next emitted) :
    next.lastId = viewModel.lastId := by
  cases hcases <;> rfl

theorem AttemptStep.length_loads
    (hcases : AttemptStep random viewModel index outcome next emitted) :
    next.loads.length = viewModel.loads.length := by
  cases hcases <;> exact List.length_set

/-- The load the attempt belongs to was pending and moves on by the rule of `retry`. -/
theorem AttemptStep.loads_self
    (hcases : AttemptStep random viewModel index outcome next emitted) :
    ∃ load failures, viewModel.loads[index]? = some load ∧ load.progress = .subscribed failures ∧
      next.loads[index]? =
        some { load with progress := Retry.next 3 (.subscribed failures) outcome } := by
  have hset : ∀ {load : Load}, viewModel.loads[index]? = some load → ∀ progress,
      (viewModel.loads.set index { load with progress })[index]? =
        some { load with progress } := by
    intro load hload progress
    rw [List.getElem?_set_self (List.getElem?_eq_some_iff.mp hload).1]
  cases hcases with
  | @retried load failures error hload hprogress hmore =>
      refine ⟨load, failures, hload, hprogress, ?_⟩
      rw [Retry.next, if_pos hmore]
      exact hset hload _
  | @failed load failures error hload hprogress hlast =>
      refine ⟨load, failures, hload, hprogress, ?_⟩
      rw [Retry.next, if_neg hlast]
      exact hset hload _
  | @succeeded load failures models rows allocated hload hprogress hpage =>
      exact ⟨load, failures, hload, hprogress, hset hload _⟩

theorem AttemptStep.subject_of_error {error : LoadError}
    (hcases : AttemptStep random viewModel index (.error error) next emitted) :
    next.cellViewModelsSubject = viewModel.cellViewModelsSubject := by
  cases hcases <;> rfl

theorem AttemptStep.allocated_of_error {error : LoadError}
    (hcases : AttemptStep random viewModel index (.error error) next emitted) :
    next.allocated = viewModel.allocated := by
  cases hcases <;> rfl

theorem AttemptStep.subject_of_ok {models : List RepositoryModel}
    (hcases : AttemptStep random viewModel index (.ok models) next emitted) :
    ∃ rows, DecoratedPage random models viewModel.allocated rows next.allocated ∧
      next.cellViewModelsSubject = some (viewModel.cellViewModelsSubject.getD [] ++ rows) ∧
      emitted = [.cellViewModels (viewModel.cellViewModelsSubject.getD [] ++ rows)] := by
  cases hcases with
  | succeeded _ _ hpage => exact ⟨_, hpage, rfl, rfl⟩

/-- Only that load moves on. -/
theorem AttemptStep.loads_of_ne {other : Nat} (hne : other ≠ index)
    (hcases : AttemptStep random viewModel index outcome next emitted) :
    next.loads[other]? = viewModel.loads[other]? := by
  cases hcases <;> exact List.getElem?_set_ne hne.symm

end PFXTexture.RepositoryViewModel
