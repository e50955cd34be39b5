import PFXTexture.ExViewController
import PFXTexture.Library.Machine

/-!
# Node blocks of the example scene

A block is vended for a row that exists and indexes the arrays when it runs. Nothing grows the
arrays, so a deletion in its section is what can leave it out of range.
-/

namespace PFXTexture.ExViewController

/-- The controller and the index paths of the blocks not run yet. -/
structure TableScene where
  controller : ExViewController
  blocks : List IndexPath

inductive TableEvent where
  | nodeBlockForRow (indexPath : IndexPath)
  | runBlock (position : Nat)
  | commit (editingStyle : UITableViewCell.EditingStyle) (indexPath : IndexPath)

/-- An index path the table knows at this moment. -/
def IsRow (controller : ExViewController) (indexPath : IndexPath) : Prop :=
  indexPath.section_ < numberOfSections ∧
    indexPath.row < controller.numberOfRowsInSection indexPath.section_

instance (controller : ExViewController) : DecidablePred controller.IsRow :=
  fun indexPath => inferInstanceAs (Decidable (indexPath.section_ < numberOfSections ∧
    indexPath.row < controller.numberOfRowsInSection indexPath.section_))

def vend (scene : TableScene) (indexPath : IndexPath) : Option TableScene :=
  if scene.controller.IsRow indexPath then
    some { scene with blocks := scene.blocks ++ [indexPath] }
  else
    none

/-- What a run of a block emits is `none` if it traps. -/
def runBlock (scene : TableScene) (position : Nat) :
    Option (TableScene × List (Option CellNode)) :=
  scene.blocks[position]?.map fun indexPath =>
    ({ scene with blocks := scene.blocks.eraseIdx position },
      [nodeBlockForRowAt indexPath scene.controller])

def tableMachine : Machine TableScene TableEvent (Option CellNode) where
  step := fun scene event =>
    match event with
    | .nodeBlockForRow indexPath => (vend scene indexPath).map fun next => (next, [])
    | .runBlock position => runBlock scene position
    | .commit editingStyle indexPath =>
        if scene.controller.IsRow indexPath then
          (scene.controller.commit editingStyle indexPath).map fun controller =>
            ({ scene with controller }, [])
        else
          none

/-- Neither a pending block, run now, nor the deletion of a row traps. -/
structure Safe (scene : TableScene) : Prop where
  block_runs : ∀ position next emitted,
    tableMachine.step scene (.runBlock position) = some (next, emitted) → none ∉ emitted
  deletion_runs : ∀ indexPath, scene.controller.IsRow indexPath →
    scene.controller.commit .delete indexPath ≠ none

/-- No pending block of the section was vended for the row that is its last now. -/
def KeepsLastRow (scene : TableScene) (event : TableEvent) : Prop :=
  match event with
  | .commit .delete indexPath =>
      ∀ block ∈ scene.blocks, block.section_ = indexPath.section_ →
        block.row + 1 ≠ scene.controller.numberOfRowsInSection indexPath.section_
  | _ => True

/-! ### Rows -/

variable {controller next : ExViewController} {indexPath : IndexPath}

/-- Run at once, a block builds what `nodeForRowAt` does. -/
theorem nodeBlockForRowAt_eq (indexPath : IndexPath) (controller : ExViewController) :
    nodeBlockForRowAt indexPath controller = controller.nodeForRowAt indexPath := rfl

theorem nodeForRowAt_isSome_iff (indexPath : IndexPath) :
    (controller.nodeForRowAt indexPath).isSome = true ↔
      indexPath.row < controller.numberOfRowsInSection indexPath.section_ := by
  unfold nodeForRowAt numberOfRowsInSection
  by_cases hsection : indexPath.section_ = 0 <;> simp [hsection]

theorem commit_ne_none (hrow : controller.IsRow indexPath) :
    controller.commit .delete indexPath ≠ none := by
  obtain ⟨-, hrow⟩ := hrow
  unfold numberOfRowsInSection at hrow
  unfold commit SwiftArray.remove
  by_cases hsection : indexPath.section_ = 0
  · rw [if_pos hsection] at hrow
    simp [hsection, hrow]
  · rw [if_neg hsection] at hrow
    simp [hsection, hrow]

/-- A deletion takes one row off its own section. -/
theorem numberOfRows_of_commit (hrow : controller.IsRow indexPath)
    (hcommit : controller.commit .delete indexPath = some next) :
    ∀ section_ < numberOfSections, next.numberOfRowsInSection section_ =
      if section_ = indexPath.section_ then controller.numberOfRowsInSection section_ - 1
      else controller.numberOfRowsInSection section_ := by
  obtain ⟨hindexPath, hrow⟩ := hrow
  intro section_ hsection
  unfold numberOfSections at hsection hindexPath
  unfold numberOfRowsInSection at hrow ⊢
  unfold commit at hcommit
  rw [if_pos rfl] at hcommit
  by_cases hfirst : indexPath.section_ = 0
  · rw [if_pos hfirst] at hcommit hrow
    obtain ⟨firstItems, hremove, rfl⟩ := Option.map_eq_some_iff.mp hcommit
    obtain ⟨-, rfl⟩ := SwiftArray.remove_eq_some_iff.mp hremove
    by_cases hzero : section_ = 0
    · simp [hzero, hfirst, List.length_eraseIdx_of_lt hrow]
    · simp [hzero, hfirst]
  · rw [if_neg hfirst] at hcommit hrow
    obtain ⟨secondItems, hremove, rfl⟩ := Option.map_eq_some_iff.mp hcommit
    obtain ⟨-, rfl⟩ := SwiftArray.remove_eq_some_iff.mp hremove
    by_cases hzero : section_ = 0
    · simp [hzero, Ne.symm hfirst]
    · have hsame : section_ = indexPath.section_ := by omega
      rw [if_neg hzero, if_neg hzero, if_pos hsame]
      exact List.length_eraseIdx_of_lt hrow

/-! ### Scenes -/

variable {scene following : TableScene}

theorem safe_iff (scene : TableScene) :
    Safe scene ↔ ∀ block ∈ scene.blocks,
      block.row < scene.controller.numberOfRowsInSection block.section_ := by
  constructor
  · intro hsafe block hblock
    obtain ⟨position, hposition⟩ := List.mem_iff_getElem?.mp hblock
    have hrun := hsafe.block_runs position _ _ (congrArg (Option.map _) hposition)
    rw [← nodeForRowAt_isSome_iff block, Option.isSome_iff_ne_none]
    intro hnone
    exact hrun (List.mem_singleton.mpr hnone.symm)
  · intro hrows
    refine ⟨?_, fun indexPath hrow => commit_ne_none hrow⟩
    intro position next emitted hstep
    obtain ⟨block, hblock, hpair⟩ := Option.map_eq_some_iff.mp hstep
    cases hpair
    have hrow := hrows block (List.mem_of_getElem? hblock)
    rw [← nodeForRowAt_isSome_iff block, Option.isSome_iff_ne_none] at hrow
    intro hmem
    exact hrow (List.mem_singleton.mp hmem).symm

/-- Blocks are vended for the two sections only. -/
def SectionsKnown (scene : TableScene) : Prop :=
  ∀ block ∈ scene.blocks, block.section_ < numberOfSections

/-- A row survives a deletion in its section unless it was the last one. -/
theorem safe_after_commit_iff (hsafe : Safe scene) {indexPath : IndexPath}
    {controller : ExViewController} (hrow : scene.controller.IsRow indexPath)
    (hknown : SectionsKnown scene)
    (hcommit : scene.controller.commit .delete indexPath = some controller) :
    Safe { scene with controller } ↔ KeepsLastRow scene (.commit .delete indexPath) := by
  rw [safe_iff] at hsafe ⊢
  apply forall₂_congr
  intro block hblock
  have hbefore := hsafe block hblock
  rw [numberOfRows_of_commit hrow hcommit _ (hknown block hblock)]
  by_cases hsame : block.section_ = indexPath.section_
  · rw [if_pos hsame, ← hsame]
    simp only [true_implies]
    omega
  · rw [if_neg hsame]
    exact iff_of_true hbefore fun heq => absurd heq hsame

/-- What a call does to the scene. -/
inductive TableStep (scene : TableScene) :
    TableEvent → TableScene → List (Option CellNode) → Prop
  | vended (indexPath : IndexPath) (hrow : scene.controller.IsRow indexPath) :
      TableStep scene (.nodeBlockForRow indexPath)
        { scene with blocks := scene.blocks ++ [indexPath] } []
  | ran (position : Nat) (block : IndexPath) (hblock : scene.blocks[position]? = some block) :
      TableStep scene (.runBlock position)
        { scene with blocks := scene.blocks.eraseIdx position }
        [nodeBlockForRowAt block scene.controller]
  | committed (editingStyle : UITableViewCell.EditingStyle) (indexPath : IndexPath)
      (controller : ExViewController) (hrow : scene.controller.IsRow indexPath)
      (hcommit : scene.controller.commit editingStyle indexPath = some controller) :
      TableStep scene (.commit editingStyle indexPath) { scene with controller } []

theorem table_step {event : TableEvent} {emitted : List (Option CellNode)}
    (hstep : tableMachine.step scene event = some (following, emitted)) :
    TableStep scene event following emitted := by
  cases event with
  | nodeBlockForRow indexPath =>
      obtain ⟨_, hvend, hpair⟩ := Option.map_eq_some_iff.mp hstep
      cases hpair
      obtain ⟨hrow, hnext⟩ := Option.ite_none_right_eq_some.mp hvend
      cases hnext
      exact .vended indexPath hrow
  | runBlock position =>
      obtain ⟨block, hblock, hpair⟩ := Option.map_eq_some_iff.mp hstep
      cases hpair
      exact .ran position block hblock
  | commit editingStyle indexPath =>
      obtain ⟨hrow, hmapped⟩ := Option.ite_none_right_eq_some.mp hstep
      obtain ⟨controller, hcommit, hpair⟩ := Option.map_eq_some_iff.mp hmapped
      cases hpair
      exact .committed editingStyle indexPath controller hrow hcommit

theorem preserves_sectionsKnown : tableMachine.Preserves SectionsKnown := by
  intro scene event following emitted hknown hstep
  cases table_step hstep with
  | vended indexPath hrow =>
      intro block hblock
      rcases List.mem_append.mp hblock with hold | hnew
      · exact hknown block hold
      · rw [List.mem_singleton.mp hnew]
        exact hrow.1
  | ran position block hblock =>
      intro other hother
      exact hknown other (List.mem_of_mem_eraseIdx hother)
  | committed editingStyle indexPath controller hrow hcommit => exact hknown

theorem safe_step_iff {event : TableEvent} {emitted : List (Option CellNode)}
    (hknown : SectionsKnown scene) (hsafe : Safe scene)
    (hstep : tableMachine.step scene event = some (following, emitted)) :
    Safe following ↔ KeepsLastRow scene event := by
  cases table_step hstep with
  | vended indexPath hrow =>
      refine iff_of_true ((safe_iff _).mpr ?_) trivial
      intro block hblock
      rcases List.mem_append.mp hblock with hold | hnew
      · exact (safe_iff _).mp hsafe block hold
      · rw [List.mem_singleton.mp hnew]
        exact hrow.2
  | ran position block hblock =>
      refine iff_of_true ((safe_iff _).mpr ?_) trivial
      intro other hother
      exact (safe_iff _).mp hsafe other (List.mem_of_mem_eraseIdx hother)
  | committed editingStyle indexPath controller hrow hcommit =>
      cases editingStyle with
      | delete => exact safe_after_commit_iff hsafe hrow hknown hcommit
      | none =>
          cases hcommit
          exact iff_of_true hsafe trivial
      | insert =>
          cases hcommit
          exact iff_of_true hsafe trivial

theorem Safe.none_notMem (hsafe : Safe scene) {event : TableEvent}
    {emitted : List (Option CellNode)}
    (hstep : tableMachine.step scene event = some (following, emitted)) :
    ∀ output ∈ emitted, output ≠ none := by
  cases table_step hstep with
  | vended indexPath hrow => exact List.forall_mem_nil _
  | ran position block hblock =>
      rintro output houtput rfl
      exact hsafe.block_runs position _ _ hstep houtput
  | committed editingStyle indexPath controller hrow hcommit => exact List.forall_mem_nil _

/-- **Pending blocks survive deletions** precisely while no deletion takes the last row of a section
from a pending block. A run through such deletions has no trap in it. -/
theorem pending_blocks_iff (controller : ExViewController) (events : List TableEvent) :
    (tableMachine.Always Safe ⟨controller, []⟩ events ↔
      tableMachine.Each KeepsLastRow ⟨controller, []⟩ events) ∧
    (tableMachine.Each KeepsLastRow ⟨controller, []⟩ events → ∀ scene emitted,
      tableMachine.run ⟨controller, []⟩ events = some (scene, emitted) → none ∉ emitted) := by
  have hiff : tableMachine.Always Safe ⟨controller, []⟩ events ↔
      tableMachine.Each KeepsLastRow ⟨controller, []⟩ events := by
    apply preserves_sectionsKnown.always_iff_each
    · exact fun _ _ _ _ hknown hsafe hstep => safe_step_iff hknown hsafe hstep
    · intro block hblock
      cases hblock
    · refine (safe_iff _).mpr ?_
      intro block hblock
      cases hblock
  refine ⟨hiff, ?_⟩
  intro heach scene emitted hrun hnone
  have houtputs := (hiff.mpr heach).forall_mem_emitted
    (fun _ _ _ _ hsafe hstep => hsafe.none_notMem hstep) hrun
  exact houtputs none hnone rfl

/-- A block of the third row runs after one of the three rows is deleted. -/
theorem block_traps_after_deletion :
    ∃ scene, tableMachine.run ⟨make, []⟩
        [.nodeBlockForRow ⟨0, 2⟩, .commit .delete ⟨0, 0⟩, .runBlock 0] = some (scene, [none]) :=
  ⟨_, rfl⟩

end PFXTexture.ExViewController
