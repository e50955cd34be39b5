import PFXTexture.Proof.SceneSteps

/-!
# Batch fetches

The table node asks `shouldBatchFetch` before it begins a batch. The context that a batch sets is
cleared by nothing, so the answer after the first batch is always no. Beside the scene stands the
list of the loads that batches triggered.
-/

namespace PFXTexture.RepositoryViewController

variable (random : Nat → Nat → String)

/-- A batch begins only when the controller has answered that it should. -/
def Permitted (controller : RepositoryViewController) : Event → Prop
  | .willBeginBatchFetch _ => controller.shouldBatchFetch = true
  | .attempt _ _ | .commit _ _ => True

instance (controller : RepositoryViewController) : DecidablePred controller.Permitted
  | .willBeginBatchFetch _ => inferInstanceAs (Decidable (controller.shouldBatchFetch = true))
  | .attempt _ _ | .commit _ _ => isTrue trivial

def recordBatch (controller : RepositoryViewController) (event : Event)
    (_ : RepositoryViewController) (batchLoads : List Nat) : List Nat :=
  match event with
  | .willBeginBatchFetch _ => controller.viewModel.loads.length :: batchLoads
  | _ => batchLoads

def batchMachine : Machine (RepositoryViewController × List Nat) Event
    RepositoryViewModel.Output :=
  ((machine random).restrict Permitted).withGhost recordBatch

def Outstanding (viewModel : RepositoryViewModel) (index : Nat) : Prop :=
  ∃ load, viewModel.loads[index]? = some load ∧ load.progress.Pending

/-- The controller refuses a batch exactly while one is outstanding. -/
def Released (scene : RepositoryViewController × List Nat) : Prop :=
  scene.1.shouldBatchFetch = false ↔ ∃ index ∈ scene.2, Outstanding scene.1.viewModel index

/-- The event is not the end of a load that a batch triggered. -/
def KeepsBatch (scene : RepositoryViewController × List Nat) (event : Event) : Prop :=
  match event with
  | .attempt index outcome =>
      ∀ load, index ∈ scene.2 → scene.1.viewModel.loads[index]? = some load →
        (Retry.next 3 load.progress outcome).Pending
  | _ => True

/-! ### The context stays -/

theorem shouldBatchFetch_eq_false_iff {controller : RepositoryViewController} :
    controller.shouldBatchFetch = false ↔ ∃ context, controller.context = some context := by
  unfold shouldBatchFetch
  cases controller.context <;> simp

/-- Before the first batch, and ever after it. -/
structure ContextKept (scene : RepositoryViewController × List Nat) : Prop where
  wired : scene.1.viewModel.Wired
  context_eq : scene.1.context = none ∧ scene.2 = [] ∨
    ∃ context index, scene.1.context = some context ∧ scene.2 = [index] ∧
      index < scene.1.viewModel.loads.length

variable {random} {controller next : RepositoryViewController} {batchLoads : List Nat}
  {event : Event} {emitted : List RepositoryViewModel.Output}

theorem contextKept_loaded : ContextKept (loaded, []) where
  wired := wired_loaded
  context_eq := .inl ⟨rfl, rfl⟩

theorem ContextKept.step (hkept : ContextKept (controller, batchLoads))
    (hpermitted : controller.Permitted event)
    (hcases : SceneStep random controller event next emitted) :
    ContextKept (next, recordBatch controller event next batchLoads) := by
  refine ⟨hcases.wired hkept.wired, ?_⟩
  have hcontext := hkept.context_eq
  cases hcases with
  | @batched context =>
      rcases hcontext with ⟨-, hnone⟩ | ⟨old, index, hsome, -⟩
      · right
        refine ⟨context, controller.viewModel.loads.length, rfl, ?_, ?_⟩
        · rw [recordBatch, show batchLoads = [] from hnone]
        · simp [RepositoryViewModel.onLoad]
      · have hrefused := shouldBatchFetch_eq_false_iff.mpr ⟨old, hsome⟩
        exact absurd (hrefused.symm.trans hpermitted) Bool.false_ne_true
  | failed hattempt =>
      simp only [hattempt.length_loads]
      exact hcontext
  | succeeded hattempt _ _ =>
      simp only [hattempt.length_loads]
      exact hcontext
  | edited _ => exact hcontext
  | deleted _ => exact hcontext

theorem batch_step (hwired : controller.viewModel.Wired) {batchLoads' : List Nat}
    (hstep : (batchMachine random).step (controller, batchLoads) event =
      some ((next, batchLoads'), emitted)) :
    controller.Permitted event ∧ SceneStep random controller event next emitted ∧
      batchLoads' = recordBatch controller event next batchLoads := by
  obtain ⟨hstep, hrecord⟩ := Machine.withGhost_step_eq_some_iff _ |>.mp hstep
  obtain ⟨hpermitted, hstep⟩ := (machine random).restrict_step_eq_some_iff.mp hstep
  exact ⟨hpermitted, scene_step hwired hstep, hrecord⟩

theorem preserves_contextKept : (batchMachine random).Preserves ContextKept := by
  rintro ⟨controller, batchLoads⟩ event ⟨next, batchLoads'⟩ emitted hkept hstep
  obtain ⟨hpermitted, hcases, rfl⟩ := batch_step hkept.wired hstep
  exact hkept.step hpermitted hcases

/-! ### One step -/

theorem outstanding_attempt_iff {viewModel next : RepositoryViewModel} {index other : Nat}
    {outcome : Outcome} {load : Load}
    (hcases : RepositoryViewModel.AttemptStep random viewModel index outcome next emitted)
    (hload : viewModel.loads[other]? = some load) (hpending : load.progress.Pending) :
    Outstanding next other ↔ (other = index → (Retry.next 3 load.progress outcome).Pending) := by
  by_cases heq : other = index
  · subst heq
    obtain ⟨old, failures, hold, hprogress, hnew⟩ := hcases.loads_self
    obtain rfl := Option.some.inj (hold.symm.trans hload)
    simp [Outstanding, hnew, hprogress]
  · rw [Outstanding, hcases.loads_of_ne heq]
    exact iff_of_true ⟨load, hload, hpending⟩ fun h => absurd h heq

/-- After an attempt the context is as it was, while a load of the batch may have ended. -/
theorem released_attempt_iff {index : Nat} {outcome : Outcome}
    (hkept : ContextKept (controller, batchLoads)) (hreleased : Released (controller, batchLoads))
    {viewModel : RepositoryViewModel} {items : List RxCellViewModel}
    (hcases : RepositoryViewModel.AttemptStep random controller.viewModel index outcome viewModel
      emitted) :
    Released ({ controller with items, viewModel }, batchLoads) ↔
      KeepsBatch (controller, batchLoads) (.attempt index outcome) := by
  rcases hkept.context_eq with ⟨hnone, hempty⟩ | ⟨context, batch, hsome, hsingle, hlt⟩
  · obtain rfl : batchLoads = [] := hempty
    refine iff_of_true (iff_of_false ?_ ?_) fun load hmem => by cases hmem
    · rw [shouldBatchFetch_eq_false_iff]
      rintro ⟨context, hsome⟩
      cases hnone.symm.trans hsome
    · rintro ⟨index, hmem, -⟩
      cases hmem
  · obtain rfl : batchLoads = [batch] := hsingle
    have hrefused := shouldBatchFetch_eq_false_iff.mpr ⟨context, hsome⟩
    obtain ⟨_, hmem, load, hload, hpending⟩ := hreleased.mp hrefused
    rw [List.mem_singleton.mp hmem] at hload
    have hafter := outstanding_attempt_iff hcases hload hpending
    calc Released ({ controller with items, viewModel }, [batch])
        ↔ Outstanding viewModel batch := by
          simp only [Released, List.mem_singleton, exists_eq_left]
          exact iff_true_left hrefused
      _ ↔ (batch = index → (Retry.next 3 load.progress outcome).Pending) := hafter
      _ ↔ KeepsBatch (controller, [batch]) (.attempt index outcome) := by
          constructor
          · rintro hpending' other hother hload'
            obtain rfl := List.mem_singleton.mp hother
            obtain rfl := Option.some.inj (hload'.symm.trans hload)
            exact hpending' rfl
          · rintro hkeeps rfl
            exact hkeeps load (List.mem_singleton.mpr rfl) hload

theorem released_step_iff (hkept : ContextKept (controller, batchLoads))
    (hreleased : Released (controller, batchLoads)) (hpermitted : controller.Permitted event)
    (hcases : SceneStep random controller event next emitted) :
    Released (next, recordBatch controller event next batchLoads) ↔
      KeepsBatch (controller, batchLoads) event := by
  cases hcases with
  | batched =>
      refine iff_of_true (iff_of_true rfl ⟨_, List.mem_cons_self, ?_⟩) trivial
      exact ⟨_, List.getElem?_concat_length, trivial⟩
  | failed hattempt => exact released_attempt_iff hkept hreleased hattempt
  | succeeded hattempt _ _ => exact released_attempt_iff hkept hreleased hattempt
  | edited _ => exact iff_of_true hreleased trivial
  | deleted _ => exact iff_of_true hreleased trivial

/-- **Batch fetching is released again** along a run precisely when it never ends a load that a
batch triggered. -/
theorem batch_released_iff (random : Nat → Nat → String) (events : List Event) :
    (batchMachine random).Always Released (loaded, []) events ↔
      (batchMachine random).Each KeepsBatch (loaded, []) events := by
  apply preserves_contextKept.always_iff_each
  · rintro ⟨controller, batchLoads⟩ event ⟨next, batchLoads'⟩ emitted hkept hreleased hstep
    obtain ⟨hpermitted, hcases, rfl⟩ := batch_step hkept.wired hstep
    exact released_step_iff hkept hreleased hpermitted hcases
  · exact contextKept_loaded
  · exact iff_of_false Bool.noConfusion fun ⟨_, hmem, _⟩ => by cases hmem

/-- The batch has succeeded and a second one is refused. -/
theorem batch_refused_after_success :
    ∃ scene emitted, (batchMachine fun _ _ => "").run (loaded, [])
        [.willBeginBatchFetch ⟨0⟩, .attempt 1 (.ok [])] = some (scene, emitted) ∧
      scene.1.shouldBatchFetch = false ∧ ¬Released scene := by
  refine ⟨_, _, rfl, rfl, fun hreleased => ?_⟩
  obtain ⟨index, hmem, load, hload, hpending⟩ := hreleased.mp rfl
  obtain rfl := List.mem_singleton.mp hmem
  obtain rfl := Option.some.inj hload
  exact hpending

end PFXTexture.RepositoryViewController
