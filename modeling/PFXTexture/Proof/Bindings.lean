import PFXTexture.CellBindings
import PFXTexture.Proof.Teardown

/-!
# One live binding

The cell view models bind inside the overridden `initialize()`, so each call replaces the binding it
has just disposed. The list view models bind in their constructors alone: for them `initialize()`
ends the binding as `deinitialize()` does.
-/

namespace PFXTexture

inductive LifecycleCall where
  | initializeCall
  | deinitializeCall
  deriving DecidableEq

/-- How many bindings each input has after the last lifecycle call; `none` is the construction. -/
def bindingsAfter : Option LifecycleCall → Nat
  | some .deinitializeCall => 0
  | some .initializeCall => 1
  | none => 1

/-! ### Cell view models -/

namespace CellBindings

def lifecycle? : Event → Option LifecycleCall
  | .willDisplay _ => none
  | .tapProfile => none
  | .initializeCall => some .initializeCall
  | .deinitializeCall => some .deinitializeCall

/-- Every input has this many live subscriptions, and one input makes as many rounds of outputs. -/
structure BoundTimes (count : Nat) (bindings : CellBindings) : Prop where
  willDisplay_eq : bindings.willDisplayObservers.length = count
  tapProfile_eq : bindings.viewModel.repository?.isSome = true →
    bindings.tapProfileObservers.length = count
  rounds_eq : bindings.willDisplay =
    (List.replicate count (onWillDisplay bindings.viewModel)).flatten

structure Kept (viewModel : RxCellViewModel) (bindings : CellBindings) : Prop where
  viewModel_eq : bindings.viewModel = viewModel
  bagged : bindings.disposables.Bagged
  willDisplay_known : bindings.disposables.Knows bindings.willDisplaySubject
  tapProfile_known : bindings.disposables.Knows bindings.tapProfileSubject

variable {viewModel : RxCellViewModel} {bindings : CellBindings} {count : Nat}

theorem willDisplay_eq_flatten (bindings : CellBindings) :
    bindings.willDisplay = (List.replicate bindings.willDisplayObservers.length
      (onWillDisplay bindings.viewModel)).flatten := by
  rw [willDisplay, List.flatMap_def, List.map_const']

theorem boundTimes_of_length (hwillDisplay : bindings.willDisplayObservers.length = count)
    (htapProfile : bindings.viewModel.repository?.isSome = true →
      bindings.tapProfileObservers.length = count) : BoundTimes count bindings := by
  refine ⟨hwillDisplay, htapProfile, ?_⟩
  rw [willDisplay_eq_flatten, hwillDisplay]

theorem Kept.deinitializeCall (hkept : Kept viewModel bindings) :
    Kept viewModel bindings.deinitializeCall ∧ BoundTimes 0 bindings.deinitializeCall := by
  constructor
  · exact ⟨hkept.viewModel_eq, hkept.bagged.resetBag, hkept.willDisplay_known,
      hkept.tapProfile_known⟩
  · apply boundTimes_of_length
    · exact congrArg List.length (hkept.bagged.observers_resetBag _)
    · exact fun _ => congrArg List.length (hkept.bagged.observers_resetBag _)

theorem Kept.bindWillDisplay (hkept : Kept viewModel bindings) :
    Kept viewModel bindings.bindWillDisplay ∧
      bindings.bindWillDisplay.willDisplayObservers.length =
        bindings.willDisplayObservers.length + 1 ∧
      bindings.bindWillDisplay.tapProfileObservers = bindings.tapProfileObservers := by
  refine ⟨⟨hkept.viewModel_eq, hkept.bagged.subscribe_disposedByBag,
    hkept.willDisplay_known.concat, hkept.tapProfile_known.subscribe⟩, ?_,
    hkept.tapProfile_known.observers_subscribe⟩
  calc bindings.bindWillDisplay.willDisplayObservers.length
      = (bindings.willDisplayObservers ++ [bindings.disposables.issued]).length :=
        congrArg List.length hkept.willDisplay_known.observers_concat
    _ = bindings.willDisplayObservers.length + 1 := List.length_append

theorem Kept.bindTapProfile (hkept : Kept viewModel bindings) :
    Kept viewModel bindings.bindTapProfile ∧
      bindings.bindTapProfile.willDisplayObservers = bindings.willDisplayObservers ∧
      bindings.bindTapProfile.tapProfileObservers.length =
        bindings.tapProfileObservers.length + 1 := by
  refine ⟨⟨hkept.viewModel_eq, hkept.bagged.subscribe_disposedByBag,
    hkept.willDisplay_known.subscribe, hkept.tapProfile_known.concat⟩,
    hkept.willDisplay_known.observers_subscribe, ?_⟩
  calc bindings.bindTapProfile.tapProfileObservers.length
      = (bindings.tapProfileObservers ++ [bindings.disposables.issued]).length :=
        congrArg List.length hkept.tapProfile_known.observers_concat
    _ = bindings.tapProfileObservers.length + 1 := List.length_append

/-- The reset ends the old binding and `bindInputs` makes the new one. -/
theorem Kept.initializeCall (hkept : Kept viewModel bindings)
    (hsubclass : viewModel.subclass ≠ .none) :
    Kept viewModel bindings.initializeCall ∧ BoundTimes 1 bindings.initializeCall := by
  obtain ⟨hreset, hnone⟩ := hkept.deinitializeCall
  obtain ⟨hshown, hcount, hother⟩ := hreset.bindWillDisplay
  obtain ⟨htapped, hsame, hcount'⟩ := hshown.bindTapProfile
  rw [hnone.willDisplay_eq] at hcount
  have hdef : bindings.initializeCall = bindings.deinitializeCall.bindInputs := rfl
  have hviewModel : bindings.deinitializeCall.viewModel = viewModel := hreset.viewModel_eq
  rw [hdef, CellBindings.bindInputs, hviewModel]
  cases hcases : viewModel.subclass with
  | none => exact absurd hcases hsubclass
  | repository model =>
      refine ⟨htapped, boundTimes_of_length ?_ ?_⟩
      · rw [hsame, hcount]
      · intro _
        rw [hcount', hother]
        have hrepository : bindings.deinitializeCall.viewModel.repository?.isSome = true := by
          rw [hviewModel, RxCellViewModel.repository?, hcases]
          rfl
        rw [hnone.tapProfile_eq hrepository]
  | banner dependency =>
      refine ⟨hshown, boundTimes_of_length hcount ?_⟩
      intro hrepository
      rw [hshown.viewModel_eq, RxCellViewModel.repository?, hcases] at hrepository
      cases hrepository
  | info dependency =>
      refine ⟨hshown, boundTimes_of_length hcount ?_⟩
      intro hrepository
      rw [hshown.viewModel_eq, RxCellViewModel.repository?, hcases] at hrepository
      cases hrepository

theorem bound_of_run (hsubclass : viewModel.subclass ≠ .none) {events : List Event}
    {emitted : List Output} (hrun : machine.run (make viewModel) events = some (bindings, emitted)) :
    BoundTimes (bindingsAfter (events.filterMap lifecycle?).getLast?) bindings := by
  have hempty : Kept viewModel
      { viewModel, disposables := Disposables.empty, willDisplaySubject := [],
        tapProfileSubject := [] } := by
    refine ⟨rfl, ?_, ?_, ?_⟩
    · intro subscription hlive
      cases hlive
    · intro subscription hmem
      cases hmem
    · intro subscription hmem
      cases hmem
  have hinv := machine.run_last_induction lifecycle?
    (motive := fun last bindings =>
      Kept viewModel bindings ∧ BoundTimes (bindingsAfter last) bindings)
    (hempty.initializeCall hsubclass) ?_ hrun
  · exact hinv.2
  · rintro last state event next first ⟨hkept, hbound⟩ hstep
    cases event with
    | willDisplay value =>
        cases hstep
        exact ⟨hkept, hbound⟩
    | tapProfile =>
        cases hstep
        exact ⟨hkept, hbound⟩
    | initializeCall =>
        cases hstep
        exact hkept.initializeCall hsubclass
    | deinitializeCall =>
        cases hstep
        exact hkept.deinitializeCall

end CellBindings

/-! ### List view models

`initialize()` and `deinitialize()` both leave no observer, and nothing but the constructor makes
one. -/

/-- The observers a subject of a list view model has left. -/
def observersAfter : Option LifecycleCall → Nat
  | none => 1
  | some _ => 0

theorem observersAfter_eq_iff (last : Option LifecycleCall) :
    observersAfter last = bindingsAfter last ↔ last ≠ some .initializeCall := by
  rcases last with _ | (_ | _) <;> decide

namespace RepositoryViewModel

def lifecycle? : Event → Option LifecycleCall
  | .load => none
  | .attempt _ _ => none
  | .initializeCall => some .initializeCall
  | .deinitializeCall => some .deinitializeCall

/-- The load input has this many live subscriptions and makes as many requests. -/
structure BoundTimes (count : Nat) (viewModel : RepositoryViewModel) : Prop where
  observers_eq : viewModel.observers.length = count
  requests_eq : viewModel.load.loads.length = viewModel.loads.length + count

variable {random : Nat → Nat → String} {viewModel next : RepositoryViewModel} {count : Nat}

theorem length_loads_load (viewModel : RepositoryViewModel) :
    viewModel.load.loads.length = viewModel.loads.length + viewModel.observers.length := by
  unfold load
  induction viewModel.observers generalizing viewModel with
  | nil => rfl
  | cons observer observers ih =>
      have hone : viewModel.onLoad.loads.length = viewModel.loads.length + 1 :=
        List.length_append
      rw [List.foldl_cons, ih, hone, List.length_cons]
      omega

theorem boundTimes_iff : BoundTimes count viewModel ↔ viewModel.observers.length = count := by
  constructor
  · exact fun hbound => hbound.observers_eq
  · intro hcount
    refine ⟨hcount, ?_⟩
    rw [length_loads_load, hcount]

theorem Unbagged.observers_onLoad (hunbagged : viewModel.Unbagged) :
    viewModel.onLoad.observers = viewModel.observers :=
  Disposables.Knows.observers_subscribe hunbagged.loadSubject_lt

theorem Unbagged.observers_load (hunbagged : viewModel.Unbagged) :
    viewModel.load.observers = viewModel.observers := by
  have hfold : viewModel.load.Unbagged ∧ viewModel.load.observers = viewModel.observers :=
    List.foldlRecOn viewModel.observers _
      (motive := fun loaded => Unbagged loaded ∧ loaded.observers = viewModel.observers)
      ⟨hunbagged, rfl⟩ fun loaded hloaded _ _ =>
        ⟨hloaded.1.onLoad, hloaded.1.observers_onLoad.trans hloaded.2⟩
  exact hfold.2

theorem AttemptStep.observers_eq {index : Nat} {outcome : Outcome} {emitted : List Output}
    (hcases : AttemptStep random viewModel index outcome next emitted) :
    next.observers = viewModel.observers := by
  rw [observers, hcases.disposables_eq, hcases.loadSubject_eq]
  rfl

theorem observers_of_run {events : List Event} {emitted : List Output}
    (hrun : (machine random).run make events = some (viewModel, emitted)) :
    viewModel.observers.length =
      observersAfter (events.filterMap lifecycle?).getLast? := by
  have hinv := (machine random).run_last_induction lifecycle?
    (motive := fun last viewModel =>
      Unbagged viewModel ∧ viewModel.observers.length = observersAfter last)
    ⟨unbagged_make, rfl⟩ ?_ hrun
  · exact hinv.2
  · rintro last viewModel event next emitted ⟨hunbagged, hcount⟩ hstep
    refine ⟨preserves_unbagged hunbagged hstep, ?_⟩
    cases event with
    | load =>
        cases hstep
        rw [hunbagged.observers_load]
        exact hcount
    | attempt index outcome =>
        rw [(hunbagged.loads_live.attempt_step random hstep).observers_eq]
        exact hcount
    | initializeCall =>
        cases hstep
        exact congrArg List.length hunbagged.deinitializeBag.2
    | deinitializeCall =>
        cases hstep
        exact congrArg List.length hunbagged.deinitializeBag.2

end RepositoryViewModel

namespace DContentsViewModel

def lifecycle? : Event → Option LifecycleCall
  | .load => none
  | .debounceElapsed _ => none
  | .response _ _ => none
  | .initializeCall => some .initializeCall
  | .deinitializeCall => some .deinitializeCall

/-- A load input whose debounces all elapse. -/
def loadAndWait (viewModel : DContentsViewModel) : DContentsViewModel :=
  viewModel.load.debounced.foldl
    (fun viewModel subscription => (viewModel.debounceElapsed subscription).getD viewModel)
    viewModel.load

/-- The load input has this many live subscriptions and makes as many requests. -/
structure BoundTimes (count : Nat) (viewModel : DContentsViewModel) : Prop where
  observers_eq : viewModel.observers.length = count
  requests_eq : viewModel.loadAndWait.loads.length = viewModel.loads.length + count

variable {viewModel next : DContentsViewModel} {count : Nat}

/-- Debounces of live observers elapse one after the other, each with a request. -/
theorem length_loads_foldl : ∀ {debounced : List Nat} {viewModel : DContentsViewModel},
    viewModel.debounced = debounced →
    (∀ subscription ∈ debounced, subscription ∈ viewModel.disposables.live) →
      (debounced.foldl (fun viewModel subscription =>
        (viewModel.debounceElapsed subscription).getD viewModel) viewModel).loads.length =
          viewModel.loads.length + debounced.length := by
  intro debounced
  induction debounced with
  | nil => exact fun _ _ => rfl
  | cons subscription debounced ih =>
      intro viewModel hdebounced hlive
      have helapsed : viewModel.debounceElapsed subscription =
          some (viewModel.endDebounce subscription).onLoad := by
        have hmem : subscription ∈ viewModel.debounced := by
          rw [hdebounced]
          exact List.mem_cons_self
        have hlive' : subscription ∈ (viewModel.endDebounce subscription).disposables.live :=
          hlive subscription List.mem_cons_self
        rw [debounceElapsed, if_neg (not_not_intro hmem)]
        exact if_pos hlive'
      have hrest : (viewModel.endDebounce subscription).onLoad.debounced = debounced := by
        calc (viewModel.endDebounce subscription).onLoad.debounced
            = viewModel.debounced.erase subscription := rfl
          _ = debounced := by rw [hdebounced, List.erase_cons_head]
      have hone : (viewModel.endDebounce subscription).onLoad.loads.length =
          viewModel.loads.length + 1 := List.length_append
      rw [List.foldl_cons, helapsed, Option.getD_some, ih hrest, hone, List.length_cons]
      · omega
      · intro later hlater
        exact List.mem_cons_of_mem _ (hlive later (List.mem_cons_of_mem _ hlater))

theorem boundTimes_iff : BoundTimes count viewModel ↔ viewModel.observers.length = count := by
  constructor
  · exact fun hbound => hbound.observers_eq
  · intro hcount
    refine ⟨hcount, ?_⟩
    rw [← hcount]
    apply length_loads_foldl
    · rfl
    · intro subscription hmem
      exact of_decide_eq_true (List.mem_filter.mp hmem).2

theorem knows_make (dependency : Dependency) :
    (make dependency).disposables.Knows (make dependency).loadSubject := by
  intro subscription hmem
  rw [List.mem_singleton.mp hmem]
  exact Nat.lt_succ_self _

theorem observers_of_run {dependency : Dependency} {events : List Event} {emitted : List Output}
    (hrun : machine.run (make dependency) events = some (viewModel, emitted)) :
    viewModel.observers.length =
      observersAfter (events.filterMap lifecycle?).getLast? := by
  have hinv := machine.run_last_induction lifecycle?
    (motive := fun last viewModel => viewModel.disposables.Bagged ∧
      viewModel.disposables.Knows viewModel.loadSubject ∧
        viewModel.observers.length = observersAfter last)
    ⟨bagged_make dependency, knows_make dependency, rfl⟩ ?_ hrun
  · exact hinv.2.2
  · rintro last viewModel event next emitted ⟨hbagged, hknown, hcount⟩ hstep
    refine ⟨preserves_bagged hbagged hstep, ?_⟩
    cases event with
    | load =>
        cases hstep
        exact ⟨hknown, hcount⟩
    | debounceElapsed subscription =>
        obtain ⟨_, helapsed, hpair⟩ := Option.map_eq_some_iff.mp hstep
        cases hpair
        obtain ⟨-, ⟨-, rfl⟩ | ⟨-, rfl⟩⟩ := debounceElapsed_cases helapsed
        · refine ⟨hknown.subscribe, ?_⟩
          calc (viewModel.endDebounce subscription).onLoad.observers.length
              = viewModel.observers.length := congrArg List.length hknown.observers_subscribe
            _ = observersAfter last := hcount
        · exact ⟨hknown, hcount⟩
    | response index outcome =>
        have hresponse := response_step hstep
        have hsubject : next.loadSubject = viewModel.loadSubject := by cases hresponse <;> rfl
        rw [observers, hresponse.disposables_eq, hsubject]
        exact ⟨hknown, hcount⟩
    | initializeCall =>
        cases hstep
        exact ⟨hknown, congrArg List.length (hbagged.observers_resetBag _)⟩
    | deinitializeCall =>
        cases hstep
        exact ⟨hknown, congrArg List.length (hbagged.observers_resetBag _)⟩

end DContentsViewModel

/-! ### All classes -/

/-- **One live binding.** After any run the cell view models have the bindings their last lifecycle
call asks for; the list view models precisely if that call is not `initialize()`. -/
theorem bindings_iff (random : Nat → Nat → String) :
    (∀ viewModel events bindings emitted, viewModel.subclass ≠ .none →
      CellBindings.machine.run (.make viewModel) events = some (bindings, emitted) →
        bindings.BoundTimes (bindingsAfter (events.filterMap CellBindings.lifecycle?).getLast?)) ∧
    (∀ events viewModel emitted,
      (RepositoryViewModel.machine random).run .make events = some (viewModel, emitted) →
        (viewModel.BoundTimes
            (bindingsAfter (events.filterMap RepositoryViewModel.lifecycle?).getLast?) ↔
          (events.filterMap RepositoryViewModel.lifecycle?).getLast? ≠ some .initializeCall)) ∧
    ∀ dependency events viewModel emitted,
      DContentsViewModel.machine.run (.make dependency) events = some (viewModel, emitted) →
        (viewModel.BoundTimes
            (bindingsAfter (events.filterMap DContentsViewModel.lifecycle?).getLast?) ↔
          (events.filterMap DContentsViewModel.lifecycle?).getLast? ≠ some .initializeCall) := by
  refine ⟨?_, ?_, ?_⟩
  · intro viewModel events bindings emitted hsubclass hrun
    exact CellBindings.bound_of_run hsubclass hrun
  · intro events viewModel emitted hrun
    rw [RepositoryViewModel.boundTimes_iff, RepositoryViewModel.observers_of_run hrun,
      observersAfter_eq_iff]
  · intro dependency events viewModel emitted hrun
    rw [DContentsViewModel.boundTimes_iff, DContentsViewModel.observers_of_run hrun,
      observersAfter_eq_iff]

/-- A cell view model bound again, and a list view model torn down. -/
theorem bindings_after_calls :
    ∃ bindings viewModel contents,
      CellBindings.machine.run (.make (RepositoryCellViewModel (fun _ _ => "") {} 0))
          [.deinitializeCall, .initializeCall] = some (bindings, []) ∧
        bindings.BoundTimes 1 ∧
      (RepositoryViewModel.machine fun _ _ => "").run .make [.deinitializeCall] =
          some (viewModel, []) ∧ viewModel.BoundTimes 0 ∧
      DContentsViewModel.machine.run (.make {}) [.load] = some (contents, []) ∧
        contents.BoundTimes 1 := by
  obtain ⟨hcells, hlist, hcontents⟩ := bindings_iff fun _ _ => ""
  refine ⟨_, _, _, rfl, ?_, rfl, ?_, rfl, ?_⟩
  · exact hcells (RepositoryCellViewModel (fun _ _ => "") {} 0)
      [.deinitializeCall, .initializeCall] _ [] (fun heq => by cases heq) rfl
  · exact (hlist [.deinitializeCall] _ [] rfl).mpr (by decide)
  · exact (hcontents {} [.load] _ [] rfl).mpr (by decide)

/-- After `initialize()` the list view models no longer hear a load input. -/
theorem initialized_list_is_deaf :
    (∃ viewModel, (RepositoryViewModel.machine fun _ _ => "").run .make [.initializeCall] =
        some (viewModel, []) ∧ viewModel.load.loads.length = 0) ∧
    ∃ viewModel, DContentsViewModel.machine.run (.make {}) [.initializeCall] =
      some (viewModel, []) ∧ viewModel.loadAndWait.loads.length = 0 :=
  ⟨⟨_, rfl, by decide⟩, _, rfl, by decide⟩

end PFXTexture
