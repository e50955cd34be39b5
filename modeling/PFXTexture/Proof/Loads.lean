import PFXTexture.Proof.ViewModelSteps

/-!
# Loads under every interleaving

A run is read twice: as the view model executes it, and as a log of results computed from the events
alone, where a load's result is its first success or its third failure. `History` carries the
agreement of the two from one step to the next.
-/

namespace PFXTexture.RepositoryViewModel

/-! ### The log of results -/

def outcomesOf (index : Nat) (events : List Event) : List Outcome :=
  events.filterMap fun event =>
    match event with
    | .attempt load outcome => if load = index then some outcome else none
    | _ => none

/-- The result that an event brings, after the events before it. -/
def resolution? (done : List Event) : Event → Option (Nat × Outcome)
  | .attempt load (.ok models) => some (load, .ok models)
  | .attempt load (.error error) =>
      if (outcomesOf load done).length = 2 then some (load, .error error) else none
  | _ => none

def resolutionsFrom (done : List Event) : List Event → List (Nat × Outcome)
  | [] => []
  | event :: events => (resolution? done event).toList ++ resolutionsFrom (done ++ [event]) events

def resolutions (events : List Event) : List (Nat × Outcome) :=
  resolutionsFrom [] events

/-- The pages of the loads that succeeded, in the order of their results. -/
def pagesOf (results : List (Nat × Outcome)) : List (List RepositoryModel) :=
  results.filterMap fun result => result.2.toOption

def isLoad : Event → Bool
  | .load => true
  | _ => false

theorem outcomesOf_concat_load (index : Nat) (events : List Event) :
    outcomesOf index (events ++ [.load]) = outcomesOf index events := by
  simp [outcomesOf]

theorem outcomesOf_concat_attempt (index load : Nat) (outcome : Outcome) (events : List Event) :
    outcomesOf index (events ++ [.attempt load outcome]) =
      outcomesOf index events ++ if load = index then [outcome] else [] := by
  unfold outcomesOf
  rw [List.filterMap_append]
  by_cases heq : load = index <;> simp [heq]

theorem resolutionsFrom_concat (event : Event) :
    ∀ (events done : List Event), resolutionsFrom done (events ++ [event]) =
      resolutionsFrom done events ++ (resolution? (done ++ events) event).toList := by
  intro events
  induction events with
  | nil =>
      intro done
      simp [resolutionsFrom]
  | cons head events ih =>
      intro done
      rw [List.cons_append, resolutionsFrom, ih, resolutionsFrom]
      simp [List.append_assoc]

theorem resolutions_concat (events : List Event) (event : Event) :
    resolutions (events ++ [event]) = resolutions events ++ (resolution? events event).toList := by
  rw [resolutions, resolutionsFrom_concat, List.nil_append]
  rfl

/-! ### What the log promises -/

variable (random : Nat → Nat → String)

def IsDecorated (models : List RepositoryModel) (rows : List RxCellViewModel) : Prop :=
  ∃ allocated allocated',
    decorate random (cells random models allocated) (allocated + models.length) =
      some (rows, allocated')

/-- The one value that a result makes the view model emit. -/
def Reports (result : Nat × Outcome) (output : Output) : Prop :=
  match result.2 with
  | .ok _ => ∃ viewModels, output = .cellViewModels viewModels
  | .error _ => output = .error "error"

structure LoadsAccounted (events : List Event) (viewModel : RepositoryViewModel)
    (emitted : List Output) : Prop where
  length_loads : viewModel.loads.length = events.countP isLoad
  resolved_once : ((resolutions events).map Prod.fst).Nodup
  attempts_le : ∀ index, (outcomesOf index events).length ≤ 3
  success_iff : ∀ index, (∃ models, (index, Except.ok models) ∈ resolutions events) ↔
    ∃ models, Except.ok models ∈ (outcomesOf index events).take 3
  failure_iff : ∀ index, (∃ error, (index, Except.error error) ∈ resolutions events) ↔
    (outcomesOf index events).length = 3 ∧
      ∀ models, Except.ok models ∉ (outcomesOf index events).take 3
  subject_eq : ∃ pages, List.Forall₂ (IsDecorated random) (pagesOf (resolutions events)) pages ∧
    viewModel.cellViewModelsSubject = if pages = [] then none else some pages.flatten
  emitted_eq : List.Forall₂ Reports (resolutions events) emitted
  receptive : ∀ index < viewModel.loads.length, (∀ result, (index, result) ∉ resolutions events) →
    ∀ outcome, ((liveMachine random).step viewModel (.attempt index outcome)).isSome = true

/-! ### The agreement along a run -/

def IsResult (progress : Retry.Progress LoadError (List RepositoryModel)) : Outcome → Prop
  | .ok models => progress = .succeeded models
  | .error error => progress = .failed error

structure History (events : List Event) (viewModel : RepositoryViewModel)
    (emitted : List Output) : Prop where
  wired : viewModel.Wired
  length_loads : viewModel.loads.length = events.countP isLoad
  progress_eq : ∀ index load, viewModel.loads[index]? = some load →
    load.progress = Retry.after 3 (outcomesOf index events)
  unused : ∀ index, viewModel.loads.length ≤ index → outcomesOf index events = []
  few : ∀ index, (outcomesOf index events).length ≤ 3
  result_iff : ∀ index outcome, (index, outcome) ∈ resolutions events ↔
    IsResult (Retry.after 3 (outcomesOf index events)) outcome
  resolved_once : ((resolutions events).map Prod.fst).Nodup
  subject_eq : ∃ pages, List.Forall₂ (IsDecorated random) (pagesOf (resolutions events)) pages ∧
    viewModel.cellViewModelsSubject = if pages = [] then none else some pages.flatten
  emitted_eq : List.Forall₂ Reports (resolutions events) emitted

theorem history_make : History random [] make [] where
  wired := wired_make
  length_loads := rfl
  progress_eq := by simp [make, bindInputs]
  unused := by simp [outcomesOf]
  few := by simp [outcomesOf]
  result_iff := by
    intro index outcome
    cases outcome <;> simp [resolutions, resolutionsFrom, outcomesOf, IsResult]
  resolved_once := List.nodup_nil
  subject_eq := ⟨[], List.Forall₂.nil, rfl⟩
  emitted_eq := List.Forall₂.nil

variable {random} {events : List Event} {viewModel next : RepositoryViewModel}
  {emitted : List Output}

theorem resolutions_concat_load : resolutions (events ++ [.load]) = resolutions events := by
  rw [resolutions_concat]
  simp [resolution?]

theorem History.onLoad (hhistory : History random events viewModel emitted) :
    History random (events ++ [.load]) viewModel.onLoad emitted where
  wired := hhistory.wired.onLoad
  length_loads := by
    simp [RepositoryViewModel.onLoad, hhistory.length_loads, isLoad]
  progress_eq := by
    intro index load hload
    rw [outcomesOf_concat_load]
    by_cases hold : index < viewModel.loads.length
    · rw [RepositoryViewModel.onLoad, List.getElem?_append_left hold] at hload
      exact hhistory.progress_eq index load hload
    · rw [RepositoryViewModel.onLoad, List.getElem?_append_right (Nat.le_of_not_lt hold),
        List.getElem?_singleton] at hload
      split at hload
      · obtain rfl := (Option.some.inj hload).symm
        rw [hhistory.unused index (Nat.le_of_not_lt hold)]
        rfl
      · cases hload
  unused := by
    intro index hle
    rw [outcomesOf_concat_load]
    apply hhistory.unused index
    simp only [RepositoryViewModel.onLoad, List.length_append, List.length_singleton] at hle
    omega
  few := by
    intro index
    rw [outcomesOf_concat_load]
    exact hhistory.few index
  result_iff := by
    intro index outcome
    rw [outcomesOf_concat_load, resolutions_concat_load]
    exact hhistory.result_iff index outcome
  resolved_once := by
    rw [resolutions_concat_load]
    exact hhistory.resolved_once
  subject_eq := by
    rw [resolutions_concat_load]
    exact hhistory.subject_eq
  emitted_eq := by
    rw [resolutions_concat_load]
    exact hhistory.emitted_eq

theorem resolution?_eq_some_iff {index other : Nat} {outcome result : Outcome}
    (hfew : (outcomesOf index events).length < 3) :
    resolution? events (.attempt index outcome) = some (other, result) ↔ other = index ∧
      IsResult (Retry.next 3 (.subscribed (outcomesOf index events).length) outcome) result := by
  cases outcome with
  | ok models =>
      cases result <;> simp [resolution?, Retry.next, IsResult, eq_comm]
  | error error =>
      by_cases hlast : (outcomesOf index events).length = 2
      · have hnot : ¬(outcomesOf index events).length + 1 < 3 := by omega
        cases result <;> simp [resolution?, Retry.next, IsResult, hlast, eq_comm]
      · have hmore : (outcomesOf index events).length + 1 < 3 := by omega
        cases result <;> simp [resolution?, Retry.next, IsResult, hlast, hmore]

section Attempt

variable {index : Nat} {outcome : Outcome} {first : List Output}

/-- Before an attempt ends its load has no result, and as many outcomes as failures. -/
theorem History.pending (hhistory : History random events viewModel emitted)
    (hcases : AttemptStep random viewModel index outcome next first) :
    Retry.after 3 (outcomesOf index events) = .subscribed (outcomesOf index events).length ∧
      (outcomesOf index events).length < 3 := by
  obtain ⟨load, failures, hload, hprogress, -⟩ := hcases.loads_self
  have hafter : Retry.after 3 (outcomesOf index events) = .subscribed failures := by
    rw [← hhistory.progress_eq index load hload, hprogress]
  have hpending : (Retry.after 3 (outcomesOf index events)).Pending := by
    rw [hafter]
    exact trivial
  rw [Retry.length_eq_of_after_eq_subscribed hafter]
  refine ⟨hafter, ?_⟩
  rw [← Retry.length_eq_of_after_eq_subscribed hafter]
  exact ((Retry.after_pending_iff (by omega) _).mp hpending).1

theorem History.result_iff_attempt (hhistory : History random events viewModel emitted)
    (hcases : AttemptStep random viewModel index outcome next first) (other : Nat)
    (result : Outcome) :
    (other, result) ∈ resolutions (events ++ [.attempt index outcome]) ↔
      IsResult (Retry.after 3 (outcomesOf other (events ++ [.attempt index outcome]))) result := by
  obtain ⟨hafter, hfew⟩ := hhistory.pending hcases
  rw [resolutions_concat, List.mem_append, Option.mem_toList, resolution?_eq_some_iff hfew,
    hhistory.result_iff, outcomesOf_concat_attempt]
  by_cases hother : index = other
  · subst hother
    rw [if_pos rfl, Retry.after_concat, hafter]
    have hnone : ¬IsResult (.subscribed (outcomesOf index events).length) result := by
      cases result <;> simp [IsResult]
    simp [hnone]
  · have hne : other ≠ index := fun heq => hother heq.symm
    simp [hother, hne]

theorem History.resolved_once_attempt (hhistory : History random events viewModel emitted)
    (hcases : AttemptStep random viewModel index outcome next first) :
    ((resolutions (events ++ [.attempt index outcome])).map Prod.fst).Nodup := by
  obtain ⟨hafter, hfew⟩ := hhistory.pending hcases
  rw [resolutions_concat, List.map_append]
  refine List.nodup_append.mpr ⟨hhistory.resolved_once, ?_, ?_⟩
  · cases resolution? events (.attempt index outcome) <;> simp
  · -- the load that gets a result now had none before
    rintro load hold other hnew rfl
    obtain ⟨⟨other, result⟩, hresult, rfl⟩ := List.mem_map.mp hnew
    obtain ⟨rfl, -⟩ := (resolution?_eq_some_iff hfew).mp (Option.mem_toList.mp hresult)
    obtain ⟨⟨other', earlier⟩, hearlier, hsame⟩ := List.mem_map.mp hold
    obtain rfl : other' = other := hsame
    have hres := (hhistory.result_iff other' earlier).mp hearlier
    rw [hafter] at hres
    cases earlier <;> cases hres

/-- The page of a success joins the list, a third failure is reported, and a retry does nothing. -/
theorem History.effect (hhistory : History random events viewModel emitted)
    (hcases : AttemptStep random viewModel index outcome next first) :
    (∃ pages, List.Forall₂ (IsDecorated random)
        (pagesOf (resolutions (events ++ [.attempt index outcome]))) pages ∧
      next.cellViewModelsSubject = if pages = [] then none else some pages.flatten) ∧
    List.Forall₂ Reports (resolutions (events ++ [.attempt index outcome])) (emitted ++ first) := by
  obtain ⟨pages, hpages, hsubject⟩ := hhistory.subject_eq
  have hreports := hhistory.emitted_eq
  have hcount : ∀ {load failures}, viewModel.loads[index]? = some load →
      load.progress = .subscribed failures → (outcomesOf index events).length = failures := by
    intro load failures hload hprogress
    have hload' := hhistory.progress_eq index load hload
    rw [hprogress] at hload'
    exact Retry.length_eq_of_after_eq_subscribed hload'.symm
  obtain ⟨-, hfew⟩ := hhistory.pending hcases
  rw [resolutions_concat]
  cases hcases with
  | retried hload hprogress hmore =>
      have hlength := hcount hload hprogress
      have hnone : ∀ error, resolution? events (.attempt index (.error error)) = none := by
        intro error
        rw [resolution?, if_neg (by omega)]
      rw [hnone, Option.toList_none, List.append_nil, List.append_nil]
      exact ⟨⟨pages, hpages, hsubject⟩, hreports⟩
  | failed hload hprogress hlast =>
      have hlength := hcount hload hprogress
      have hsome : ∀ error, resolution? events (.attempt index (.error error)) =
          some (index, .error error) := by
        intro error
        rw [resolution?, if_pos (by omega)]
      rw [hsome, Option.toList_some]
      refine ⟨⟨pages, ?_, hsubject⟩, ?_⟩
      · rw [pagesOf, List.filterMap_append]
        simpa [pagesOf, Except.toOption] using hpages
      · exact List.rel_append hreports (List.Forall₂.cons rfl List.Forall₂.nil)
  | @succeeded load failures models rows allocated hload hprogress hpage =>
      have hsome : resolution? events (.attempt index (.ok models)) =
          some (index, .ok models) := rfl
      rw [hsome, Option.toList_some]
      refine ⟨⟨pages ++ [rows], ?_, ?_⟩, ?_⟩
      · rw [pagesOf, List.filterMap_append]
        exact List.rel_append hpages
          (List.Forall₂.cons ⟨viewModel.allocated, allocated, hpage.decorate_eq⟩ List.Forall₂.nil)
      · have hold : viewModel.cellViewModelsSubject.getD [] = pages.flatten := by
          rw [hsubject]
          by_cases hnil : pages = [] <;> simp [hnil]
        rw [if_neg (by simp), List.flatten_append, ← hold]
        simp [accept, RepositoryViewModel.setProgress]
      · exact List.rel_append hreports (List.Forall₂.cons ⟨_, rfl⟩ List.Forall₂.nil)

theorem History.attempt (hhistory : History random events viewModel emitted)
    (hcases : AttemptStep random viewModel index outcome next first) :
    History random (events ++ [.attempt index outcome]) next (emitted ++ first) where
  wired := hcases.wired hhistory.wired
  length_loads := by
    rw [hcases.length_loads, hhistory.length_loads, List.countP_append]
    simp [isLoad]
  progress_eq := by
    intro other load hload
    rw [outcomesOf_concat_attempt]
    by_cases hother : index = other
    · subst hother
      obtain ⟨old, failures, hold, hprogress, hnew⟩ := hcases.loads_self
      obtain rfl := Option.some.inj (hnew.symm.trans hload)
      rw [if_pos rfl, Retry.after_concat, ← hhistory.progress_eq index old hold, hprogress]
    · rw [hcases.loads_of_ne fun heq => hother heq.symm] at hload
      rw [if_neg hother, List.append_nil]
      exact hhistory.progress_eq other load hload
  unused := by
    intro other hle
    obtain ⟨load, failures, hload, -⟩ := hcases.loads_self
    have hlt := (List.getElem?_eq_some_iff.mp hload).1
    rw [hcases.length_loads] at hle
    rw [outcomesOf_concat_attempt, if_neg (by omega), List.append_nil]
    exact hhistory.unused other hle
  few := by
    intro other
    obtain ⟨-, hfew⟩ := hhistory.pending hcases
    rw [outcomesOf_concat_attempt, List.length_append]
    by_cases hother : index = other
    · subst hother
      rw [if_pos rfl, List.length_singleton]
      omega
    · rw [if_neg hother]
      exact hhistory.few other
  result_iff := hhistory.result_iff_attempt hcases
  resolved_once := hhistory.resolved_once_attempt hcases
  subject_eq := (hhistory.effect hcases).1
  emitted_eq := (hhistory.effect hcases).2

end Attempt

/-! ### Runs -/

theorem History.step {event : Event} {first : List Output}
    (hhistory : History random events viewModel emitted)
    (hstep : (liveMachine random).step viewModel event = some (next, first)) :
    History random (events ++ [event]) next (emitted ++ first) := by
  obtain ⟨hlive, hstep⟩ := (machine random).restrict_step_eq_some_iff.mp hstep
  cases hhistory.wired.loads_live.step random hstep with
  | load =>
      rw [hhistory.wired.load_eq, List.append_nil]
      exact hhistory.onLoad
  | attempted hattempt => exact hhistory.attempt hattempt
  | reset hlifecycle => exact absurd (hlifecycle.symm.trans hlive) (by decide)

theorem history_of_run
    (hrun : (liveMachine random).run make events = some (viewModel, emitted)) :
    History random events viewModel emitted :=
  (liveMachine random).run_induction (history_make random)
    (fun _ _ _ _ _ _ hhistory hstep => hhistory.step hstep) hrun

theorem History.receptive (hhistory : History random events viewModel emitted) (index : Nat)
    (hindex : index < viewModel.loads.length)
    (hunresolved : ∀ result, (index, result) ∉ resolutions events) (outcome : Outcome) :
    ((liveMachine random).step viewModel (.attempt index outcome)).isSome = true := by
  have hload : viewModel.loads[index]? = some viewModel.loads[index] :=
    List.getElem?_eq_getElem hindex
  have hprogress := hhistory.progress_eq index _ hload
  have hpending : viewModel.loads[index].progress.Pending := by
    rw [hprogress]
    have hnone := fun result hresult =>
      hunresolved result ((hhistory.result_iff index result).mpr hresult)
    cases hafter : Retry.after 3 (outcomesOf index events) with
    | subscribed failures => exact trivial
    | succeeded models => exact absurd hafter (hnone (.ok models))
    | failed error => exact absurd hafter (hnone (.error error))
  obtain ⟨next, first, hstep, -⟩ :=
    hhistory.wired.loads_live.exists_attempt random hload hpending outcome
  have hlive : (liveMachine random).step viewModel (.attempt index outcome) = some (next, first) :=
    (Machine.restrict_step_eq_some_iff _).mpr ⟨rfl, hstep⟩
  rw [hlive]
  rfl

/-- **No load is lost, repeated or half-applied**, whatever the order in which loads are issued and
their attempts end. -/
theorem loads_accounted (random : Nat → Nat → String) (events : List Event)
    (viewModel : RepositoryViewModel) (emitted : List Output)
    (hrun : (liveMachine random).run make events = some (viewModel, emitted)) :
    LoadsAccounted random events viewModel emitted := by
  have hhistory := history_of_run hrun
  refine ⟨hhistory.length_loads, hhistory.resolved_once, hhistory.few, ?_, ?_, hhistory.subject_eq,
    hhistory.emitted_eq, hhistory.receptive⟩
  · intro index
    rw [← Retry.after_success_iff (by omega)]
    simp only [hhistory.result_iff, IsResult]
    cases Retry.after 3 (outcomesOf index events) <;> simp [Retry.Progress.Success]
  · intro index
    have hfew := hhistory.few index
    have hfailure := Retry.after_failure_iff (by omega : 0 < 3) (outcomesOf index events)
    have hle : 3 ≤ (outcomesOf index events).length ↔ (outcomesOf index events).length = 3 := by
      omega
    rw [hle] at hfailure
    rw [← hfailure]
    simp only [hhistory.result_iff, IsResult]
    cases Retry.after 3 (outcomesOf index events) <;> simp [Retry.Progress.Failure]

/-- Two loads in flight at once: the later one resolves first, the earlier one after a retry. -/
theorem loads_accounted_overlapping :
    ∃ viewModel emitted, LoadsAccounted (fun _ _ => "")
      [.load, .load, .attempt 1 (.ok [{ id := 1 }]), .attempt 0 (.error (.request "offline")),
        .attempt 0 (.ok [{ id := 2 }])] viewModel emitted :=
  ⟨_, _, loads_accounted _ _ _ _ rfl⟩

end PFXTexture.RepositoryViewModel
