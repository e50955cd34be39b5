import PFXTexture.Proof.SectionSteps
import PFXTexture.Library.CursorPages

/-!
# The pages of the sections

The section at `index` asks for the repositories since `index * 100`. The service reads that as a
bound on ids: it is the number of repositories before the section's own only when the ids below it
have no gap.
-/

namespace PFXTexture.DContentsViewModel

/-- The view model of the section at `index` makes a request, and this is the server's answer. -/
def Requests (server : Server) (index : ℕ) (page : List RepositoryModel) : Prop :=
  ∃ viewModel load, machine.Reachable (make { index }) viewModel ∧ load ∈ viewModel.loads ∧
    page = server.answer (Route.parameters (some load.params))

/-- Every load asks for the page of the section. -/
structure AsksFor (index : ℕ) (viewModel : DContentsViewModel) : Prop where
  index_eq : viewModel.dependency.index = index
  params_eq : ∀ load ∈ viewModel.loads, load.params = [.since (some (index * 100))]

variable {viewModel next : DContentsViewModel} {emitted : List Output} {index : ℕ}

theorem asksFor_make (index : ℕ) : (make { index }).AsksFor index where
  index_eq := rfl
  params_eq := by simp [make, bindInputs]

theorem AsksFor.onLoad (hasks : viewModel.AsksFor index) : viewModel.onLoad.AsksFor index where
  index_eq := hasks.index_eq
  params_eq := by
    refine forall_mem_loads_onLoad.mpr ⟨hasks.params_eq, ?_⟩
    rw [hasks.index_eq]

theorem AsksFor.complete (hasks : viewModel.AsksFor index) {position : ℕ} {load : Load}
    (hload : viewModel.loads[position]? = some load) :
    (viewModel.complete position load).AsksFor index where
  index_eq := hasks.index_eq
  params_eq := by
    intro other hother
    rcases List.mem_or_eq_of_mem_set hother with hold | rfl
    · exact hasks.params_eq other hold
    · exact hasks.params_eq load (List.mem_of_getElem? hload)

theorem preserves_asksFor (index : ℕ) : machine.Preserves (AsksFor index) := by
  intro viewModel event next emitted hasks hstep
  cases machine_step hstep with
  | load => exact ⟨hasks.index_eq, hasks.params_eq⟩
  | @issued subscription _ =>
      have hended : (viewModel.endDebounce subscription).AsksFor index :=
        ⟨hasks.index_eq, hasks.params_eq⟩
      exact hended.onLoad
  | lapsed => exact ⟨hasks.index_eq, hasks.params_eq⟩
  | responded hresponse =>
      cases hresponse with
      | dropped hload _ _ => exact hasks.complete hload
      | failed hload _ _ => exact hasks.complete hload
      | succeeded hload _ _ =>
          have hcompleted := hasks.complete hload
          exact ⟨hcompleted.index_eq, hcompleted.params_eq⟩
  | reset => exact ⟨hasks.index_eq, hasks.params_eq⟩

/-- A section requests one page, and it does request it. -/
theorem requests_iff (server : Server) (index : ℕ) (page : List RepositoryModel) :
    Requests server index page ↔
      page = CursorPages.page RepositoryModel.id 100 server.repositories ((100 : ℕ) * index) := by
  have hanswer : server.answer (Route.parameters (some [.since (some (index * 100))])) =
      CursorPages.page RepositoryModel.id 100 server.repositories ((100 : ℕ) * index) := by
    rw [Route.parameters_since_some, mul_comm]
    rfl
  constructor
  · rintro ⟨viewModel, load, hreach, hload, rfl⟩
    have hasks := (preserves_asksFor index).reachable (asksFor_make index) hreach
    rw [hasks.params_eq load hload, hanswer]
  · rintro rfl
    refine ⟨_, _, ⟨[.load, .debounceElapsed 0], [], rfl⟩, List.mem_cons_self, ?_⟩
    rw [← hanswer]
    rfl

/-- **Sections show different repositories and skip none** precisely when no id is missing below the
last full hundred under an id in use. -/
theorem sections_iff_dense (server : Server)
    (hpositive : ∀ repository ∈ server.repositories, 0 < repository.id)
    (pages : ℕ → List RepositoryModel) (hpages : ∀ index, Requests server index (pages index)) :
    ((∀ first second, first ≠ second → (pages first).Disjoint (pages second)) ∧
        ∀ last, (List.range (last + 1)).flatMap pages <+: server.repositories) ↔
      ∀ repository ∈ server.repositories, ∀ id : ℤ,
        0 < id → id ≤ 100 * ((repository.id - 1) / 100) →
          ∃ other ∈ server.repositories, other.id = id := by
  obtain rfl : pages = fun index : ℕ =>
      CursorPages.page RepositoryModel.id 100 server.repositories ((100 : ℕ) * index) := by
    funext index
    exact (requests_iff server index (pages index)).mp (hpages index)
  exact CursorPages.pages_iff_dense (List.pairwise_map.mp server.increasing) hpositive (by omega)

/-! ### Two servers -/

/-- Ids 1 to 101, none missing. -/
def denseServer : Server where
  repositories := (List.range 101).map fun position : ℕ => { id := position + 1 }
  increasing := by
    rw [List.map_map]
    exact List.pairwise_lt_range.map _ fun first second hlt => by simpa using hlt

/-- A single repository, with the id 101. -/
def gapServer : Server where
  repositories := [{ id := 101 }]
  increasing := by simp

theorem sections_of_denseServer :
    (∀ first second : ℕ, first ≠ second →
      (CursorPages.page RepositoryModel.id 100 denseServer.repositories
        ((100 : ℕ) * first)).Disjoint
      (CursorPages.page RepositoryModel.id 100 denseServer.repositories ((100 : ℕ) * second))) ∧
    ∀ last, (List.range (last + 1)).flatMap (fun index : ℕ =>
      CursorPages.page RepositoryModel.id 100 denseServer.repositories ((100 : ℕ) * index)) <+:
        denseServer.repositories := by
  apply (sections_iff_dense denseServer ?_ _ fun index => (requests_iff _ index _).mpr rfl).mpr
  · intro repository hrepository id hpositive hle
    obtain ⟨position, hposition, rfl⟩ := List.mem_map.mp hrepository
    have hlt := List.mem_range.mp hposition
    refine ⟨{ id }, List.mem_map.mpr ⟨(id - 1).toNat, List.mem_range.mpr ?_, ?_⟩, rfl⟩
    · simp only at hle
      omega
    · have hid : ((id - 1).toNat : ℤ) + 1 = id := by omega
      rw [hid]
  · intro repository hrepository
    obtain ⟨position, -, rfl⟩ := List.mem_map.mp hrepository
    simp only
    omega

/-- The first two sections both show it. -/
theorem sections_of_gapServer :
    ¬∀ first second, first ≠ second → ∀ left right, Requests gapServer first left →
      Requests gapServer second right → left.Disjoint right := by
  intro hdisjoint
  have hfirst := hdisjoint 0 1 (by decide) _ _ ((requests_iff _ 0 _).mpr rfl)
    ((requests_iff _ 1 _).mpr rfl)
  exact @hfirst { id := 101 } (by decide) (by decide)

end PFXTexture.DContentsViewModel
