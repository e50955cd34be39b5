import PFXTexture.Proof.SceneSteps

/-!
# Node blocks

A block is vended for a row and run later. Between the two the rows may be deleted and appended to,
and other blocks may be vended and run.
-/

namespace PFXTexture.RepositoryViewController

/-- A block not run yet. The entry it was requested for is remembered here and nowhere in the
source. -/
structure NodeBlock where
  row : Nat
  requested : RxCellViewModel

structure TableScene where
  controller : RepositoryViewController
  blocks : List NodeBlock

inductive TableEvent where
  | nodeBlockForRow (row : Nat)
  | runBlock (position : Nat)
  | commit (editingStyle : UITableViewCell.EditingStyle) (row : Nat)
  | drive (viewModels : Option (List RxCellViewModel))

def vend (scene : TableScene) (row : Nat) : Option TableScene :=
  scene.controller.items[row]?.map fun requested =>
    { scene with blocks := scene.blocks ++ [{ row, requested }] }

def runBlock (scene : TableScene) (position : Nat) : Option (TableScene × List ASCellNode) :=
  scene.blocks[position]?.map fun block =>
    ({ scene with blocks := scene.blocks.eraseIdx position },
      [nodeBlockForRowAt block.row scene.controller])

def tableMachine : Machine TableScene TableEvent ASCellNode where
  step := fun scene event =>
    match event with
    | .nodeBlockForRow row => (vend scene row).map fun next => (next, [])
    | .runBlock position => runBlock scene position
    | .commit editingStyle row =>
        (scene.controller.commit editingStyle row).map fun controller =>
          ({ scene with controller }, [])
    | .drive viewModels => some ({ scene with controller := scene.controller.drive viewModels }, [])

/-- Run now, any block reads the entry it was requested for and builds the cell of that entry. -/
def BlocksBuild (scene : TableScene) : Prop :=
  ∀ position block, scene.blocks[position]? = some block →
    scene.controller.items[block.row]? = some block.requested ∧
      ∃ next, tableMachine.step scene (.runBlock position) = some (next, [cellNode block.requested])

/-- A deletion leaves every requested row where it is, or moves the same entry up to it. -/
def KeepsRequested (scene : TableScene) (event : TableEvent) : Prop :=
  match event with
  | .commit .delete row =>
      ∀ block ∈ scene.blocks,
        block.row < row ∨ scene.controller.items[block.row + 1]? = some block.requested
  | _ => True

/-! ### Blocks read their rows -/

/-- Run at once, a block builds what `nodeForRowAt` does. -/
theorem nodeBlockForRowAt_eq (row : Nat) (controller : RepositoryViewController) :
    nodeBlockForRowAt row controller = controller.nodeForRowAt row := rfl

theorem nodeForRowAt_of_getElem? {controller : RepositoryViewController} {row : Nat}
    {viewModel : RxCellViewModel} (hentry : controller.items[row]? = some viewModel) :
    controller.nodeForRowAt row = cellNode viewModel := by
  rw [nodeForRowAt, cellNodeAt, hentry]

theorem blocksBuild_iff (scene : TableScene) :
    BlocksBuild scene ↔
      ∀ block ∈ scene.blocks, scene.controller.items[block.row]? = some block.requested := by
  constructor
  · intro hbuild block hblock
    obtain ⟨position, hposition⟩ := List.mem_iff_getElem?.mp hblock
    exact (hbuild position block hposition).1
  · intro hread position block hposition
    have hentry := hread block (List.mem_of_getElem? hposition)
    refine ⟨hentry, { scene with blocks := scene.blocks.eraseIdx position }, ?_⟩
    rw [← nodeForRowAt_of_getElem? hentry, ← nodeBlockForRowAt_eq]
    exact congrArg (Option.map _) hposition

theorem getElem?_drive {controller : RepositoryViewController} {row : Nat}
    {requested : RxCellViewModel} (hentry : controller.items[row]? = some requested)
    (viewModels : Option (List RxCellViewModel)) :
    (controller.drive viewModels).items[row]? = some requested := by
  cases viewModels with
  | none => exact hentry
  | some viewModels =>
      have hrow := (List.getElem?_eq_some_iff.mp hentry).1
      rw [drive, List.getElem?_append_left hrow]
      exact hentry

/-- What a deletion makes of one requested row. -/
theorem getElem?_eraseIdx_iff {items : List RxCellViewModel} {row deleted : Nat}
    {requested : RxCellViewModel} (hentry : items[row]? = some requested) :
    (items.eraseIdx deleted)[row]? = some requested ↔
      row < deleted ∨ items[row + 1]? = some requested := by
  by_cases hbelow : row < deleted
  · rw [List.getElem?_eraseIdx_of_lt hbelow]
    exact iff_of_true hentry (.inl hbelow)
  · rw [List.getElem?_eraseIdx_of_ge (Nat.not_lt.mp hbelow)]
    exact (or_iff_right hbelow).symm

theorem blocksBuild_step_iff {scene next : TableScene} {event : TableEvent}
    {emitted : List ASCellNode} (hbuild : BlocksBuild scene)
    (hstep : tableMachine.step scene event = some (next, emitted)) :
    BlocksBuild next ↔ KeepsRequested scene event := by
  rw [blocksBuild_iff] at hbuild ⊢
  cases event with
  | nodeBlockForRow row =>
      obtain ⟨_, hvend, hpair⟩ := Option.map_eq_some_iff.mp hstep
      cases hpair
      obtain ⟨requested, hentry, rfl⟩ := Option.map_eq_some_iff.mp hvend
      refine iff_of_true ?_ trivial
      intro block hblock
      rcases List.mem_append.mp hblock with hold | hnew
      · exact hbuild block hold
      · rw [List.mem_singleton.mp hnew]
        exact hentry
  | runBlock position =>
      obtain ⟨block, hblock, hpair⟩ := Option.map_eq_some_iff.mp hstep
      cases hpair
      refine iff_of_true ?_ trivial
      intro other hother
      exact hbuild other (List.mem_of_mem_eraseIdx hother)
  | commit editingStyle row =>
      obtain ⟨controller, hcommit, hpair⟩ := Option.map_eq_some_iff.mp hstep
      cases hpair
      obtain ⟨hstyle, rfl⟩ | ⟨rfl, -, rfl⟩ := commit_cases hcommit
      · refine iff_of_true hbuild ?_
        cases editingStyle with
        | none => trivial
        | insert => trivial
        | delete => exact absurd rfl hstyle
      · apply forall₂_congr
        intro block hblock
        exact getElem?_eraseIdx_iff (hbuild block hblock)
  | drive viewModels =>
      cases hstep
      refine iff_of_true ?_ trivial
      intro block hblock
      exact getElem?_drive (hbuild block hblock) viewModels

/-- **A node block builds the row it was asked for**, whenever it is run, precisely while every
deletion is below all requested rows or moves an equal entry up to them. -/
theorem node_blocks_iff (controller : RepositoryViewController) (events : List TableEvent) :
    tableMachine.Always BlocksBuild ⟨controller, []⟩ events ↔
      tableMachine.Each KeepsRequested ⟨controller, []⟩ events := by
  have hkeep : tableMachine.Preserves fun _ => True := fun _ _ _ _ _ _ => trivial
  apply hkeep.always_iff_each
  · exact fun _ _ _ _ _ hbuild hstep => blocksBuild_step_iff hbuild hstep
  · trivial
  · intro position block hblock
    cases hblock

/-- The block of the first of two rows, run after that row is deleted. -/
theorem node_block_after_deletion :
    ∃ controller scene emitted,
      tableMachine.run ⟨controller, []⟩ [.nodeBlockForRow 0, .commit .delete 0] =
          some (scene, emitted) ∧
        (∃ requested, controller.items[0]? = some requested ∧
          ∀ next cell, tableMachine.step scene (.runBlock 0) = some (next, [cell]) →
            cell ≠ cellNode requested) ∧
        ¬BlocksBuild scene := by
  refine ⟨{ make .make with items := cells (fun _ _ => "") [{ id := 1 }, { id := 2 }] 0 }, _, _,
    rfl, ⟨_, rfl, ?_⟩, ?_⟩
  · intro next cell hstep
    cases hstep
    decide
  · intro hbuild
    exact absurd ((blocksBuild_iff _).mp hbuild _ List.mem_cons_self) (by decide)

end PFXTexture.RepositoryViewController
