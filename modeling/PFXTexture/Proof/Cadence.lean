import PFXTexture.Proof.ViewModelSteps

/-!
# The banner cadence of a page

Each loop fixes its bound before the rows it inserts push the tail of the page behind that bound. So
the tail keeps its cadence only for some page lengths: with `b` banners and `t` infos, either the
rows behind the last banner or the rows behind the last info are at most six.
-/

namespace PFXTexture

open SwiftArray

/-- Every run of repository rows has at most six of them. -/
def Cadence (rows : List RxCellViewModel) : Prop :=
  ∀ run, run <:+: rows → (∀ row ∈ run, row.repository?.isSome = true) → run.length ≤ 6

/-- The page lengths for which one of the two tails is short enough. -/
def CadenceLength (length : Nat) : Prop :=
  length ≤ 17 ∨ (19 ≤ length ∧ length ≤ 22) ∨ (25 ≤ length ∧ length ≤ 32) ∨ length = 36 ∨
    length = 37 ∨ length = 44 ∨ length = 45 ∨ length = 53

theorem cadenceLength_iff {length banners infos : Nat} (hbanners : banners = (length - 1) / 6)
    (hinfos : infos = (length + banners - 1) / 10) :
    CadenceLength length ↔ length ≤ 5 * banners + 7 ∨ length + banners ≤ 9 * infos + 7 := by
  unfold CadenceLength
  by_cases hlength : length < 60
  · have hsmall : ∀ length < 60, (length ≤ 17 ∨ (19 ≤ length ∧ length ≤ 22) ∨
        (25 ≤ length ∧ length ≤ 32) ∨ length = 36 ∨ length = 37 ∨ length = 44 ∨ length = 45 ∨
          length = 53) ↔ length ≤ 5 * ((length - 1) / 6) + 7 ∨
        length + (length - 1) / 6 ≤ 9 * ((length + (length - 1) / 6 - 1) / 10) + 7 := by decide
    rw [hinfos, hbanners]
    exact hsmall length hlength
  · apply iff_of_false <;> omega

theorem plain_of_isSome {row : RxCellViewModel} (hrow : row.repository?.isSome = true) :
    row.isBanner = false ∧ row.isInfo = false := by
  unfold RxCellViewModel.repository? at hrow
  cases hsubclass : row.subclass with
  | repository model => exact RxCellViewModel.plain_of_repository hsubclass
  | none => simp [hsubclass] at hrow
  | banner dependency => simp [hsubclass] at hrow
  | info dependency => simp [hsubclass] at hrow

/-! ### Seven rows in a row

`first` is the place of seven rows in the list, `first - min ((first - 1) / 10) infos` their place
before the infos came in. -/

theorem avoids_step {step inserted first : Nat} (hstep : 0 < step)
    (havoids : ∀ offset < 7, ¬(step ∣ first + offset ∧ 0 < first + offset ∧
      first + offset ≤ step * inserted)) (count : Nat) (hcount : 0 < count)
    (hfrom : first ≤ step * count) (hto : step * count < first + 7) : inserted < count := by
  by_contra hle
  apply havoids (step * count - first) (by omega)
  rw [Nat.add_sub_cancel' hfrom]
  exact ⟨Nat.dvd_mul_right _ _, Nat.mul_pos hstep hcount, Nat.mul_le_mul_left _ (by omega)⟩

theorem not_cadence_of_seven {length banners infos first : Nat}
    (hbanners : banners = (length - 1) / 6) (hinfos : infos = (length + banners - 1) / 10)
    (hfit : first + 7 ≤ length + banners + infos)
    (hfit' : first - min ((first - 1) / 10) infos + 7 ≤ length + banners)
    (hnoInfo : ∀ offset < 7, ¬(10 ∣ first + offset ∧ 0 < first + offset ∧
      first + offset ≤ 10 * infos))
    (hnoBanner : ∀ offset < 7, ¬(6 ∣ first - min ((first - 1) / 10) infos + offset ∧
      0 < first - min ((first - 1) / 10) infos + offset ∧
      first - min ((first - 1) / 10) infos + offset ≤ 6 * banners)) :
    ¬(length ≤ 5 * banners + 7 ∨ length + banners ≤ 9 * infos + 7) := by
  obtain ⟨place, hplace⟩ : ∃ place, place = first - min ((first - 1) / 10) infos := ⟨_, rfl⟩
  rw [← hplace] at hfit' hnoBanner
  -- the seven rows stand behind the last banner
  have hbehind : 6 * banners < place := by
    by_cases hzero : place = 0
    · have hone := avoids_step (by omega) hnoBanner 1 (by omega) (by omega) (by omega)
      omega
    · have hnext := avoids_step (by omega) hnoBanner ((place + 5) / 6) (by omega)
        (by omega) (by omega)
      omega
  -- and behind the last info or between two of them
  by_cases hlast : 10 * infos < first
  · omega
  · have hbetween : first % 10 ≤ 3 := by
      by_contra hnot
      have hnext := avoids_step (by omega) hnoInfo ((first + 9) / 10) (by omega)
        (by omega) (by omega)
      omega
    have hnotInfo : first % 10 ≠ 0 := by
      intro hzero
      have hnext := avoids_step (by omega) hnoInfo (first / 10) (by omega)
        (by omega) (by omega)
      omega
    have hbefore : first / 10 < infos := by omega
    have hplace' : place = 9 * (first / 10) + first % 10 := by omega
    omega

section Page

variable {random : Nat → Nat → String} {page bannered rows : List RxCellViewModel}
  {first second banners infos : Nat}

/-- Seven rows of the list in a row, none of them a banner or an info. -/
theorem not_cadenceLength_of_run
    (hbanners : banners = (page.length - 1) / 6) (hinfos : infos = (bannered.length - 1) / 10)
    (hfirst : Spaced RxCellViewModel.isBanner 6 (RepositoryBannerCellViewModel random) page first
      banners bannered)
    {before run after : List RxCellViewModel}
    (hsecond : Spaced RxCellViewModel.isInfo 10 (RepositoryInfoCellViewModel random) bannered second
      infos (before ++ run ++ after))
    (hrun : ∀ row ∈ run, row.isBanner = false ∧ row.isInfo = false) (hseven : 7 ≤ run.length) :
    ¬CadenceLength page.length := by
  have hnoInfo := hsecond.forall_mem_run_iff.mp fun row hrow => (hrun row hrow).2
  obtain ⟨before', after', rfl, hbefore⟩ := hsecond.exists_old_run (by omega) fun row hrow =>
    (hrun row hrow).2
  have hnoBanner := hfirst.forall_mem_run_iff.mp fun row hrow => (hrun row hrow).1
  have hlength := hfirst.length_eq
  have hlength' := hsecond.length_eq
  rw [hlength] at hinfos hlength'
  rw [hbefore] at hnoBanner
  rw [cadenceLength_iff hbanners hinfos]
  simp only [List.length_append] at hlength hlength'
  refine not_cadence_of_seven hbanners hinfos ?_ ?_
    (fun offset hoffset => hnoInfo offset (by omega))
    fun offset hoffset => hnoBanner offset (by omega)
  · omega
  · omega

/-- For the other lengths the last seven rows are such a run. -/
theorem exists_run_of_not_cadenceLength
    (hbanners : banners = (page.length - 1) / 6) (hinfos : infos = (bannered.length - 1) / 10)
    (hfirst : Spaced RxCellViewModel.isBanner 6 (RepositoryBannerCellViewModel random) page first
      banners bannered)
    (hsecond : Spaced RxCellViewModel.isInfo 10 (RepositoryInfoCellViewModel random) bannered second
      infos rows) (hlength : ¬CadenceLength page.length) :
    ∃ run, run <:+: rows ∧ run.length = 7 ∧
      ∀ row ∈ run, row.isBanner = false ∧ row.isInfo = false := by
  have hbannered := hfirst.length_eq
  have hrows := hsecond.length_eq
  rw [hbannered] at hinfos hrows
  rw [cadenceLength_iff hbanners hinfos] at hlength
  have hsplit : rows = rows.take (rows.length - 7) ++ rows.drop (rows.length - 7) ++ [] := by
    rw [List.append_nil, List.take_append_drop]
  have hbefore : (rows.take (rows.length - 7)).length = rows.length - 7 := by
    rw [List.length_take]
    omega
  have hseven : (rows.drop (rows.length - 7)).length = 7 := by
    rw [List.length_drop]
    omega
  rw [hsplit] at hsecond
  have hnoInfo : ∀ row ∈ rows.drop (rows.length - 7), row.isInfo = false := by
    apply hsecond.forall_mem_run_iff.mpr
    rintro offset - ⟨-, -, hle⟩
    omega
  obtain ⟨before', after', rfl, hbefore'⟩ := hsecond.exists_old_run (by omega) hnoInfo
  have hnoBanner : ∀ row ∈ rows.drop (rows.length - 7), row.isBanner = false := by
    apply hfirst.forall_mem_run_iff.mpr
    rintro offset - ⟨-, -, hle⟩
    omega
  exact ⟨_, List.drop_suffix _ _ |>.isInfix, hseven, fun row hrow =>
    ⟨hnoBanner row hrow, hnoInfo row hrow⟩⟩

end Page

namespace RepositoryViewModel

variable (random : Nat → Nat → String)

theorem cadence_iff_of_decoratedPage {models : List RepositoryModel} {allocated allocated' : Nat}
    {rows : List RxCellViewModel} (hpage : DecoratedPage random models allocated rows allocated') :
    Cadence rows ↔ CadenceLength models.length := by
  have hplain : ∀ row ∈ cells random models allocated, row.isBanner = false ∧ row.isInfo = false :=
    fun row hrow =>
      RxCellViewModel.plain_of_repository (repository_of_mem_cells random hrow).choose_spec
  obtain ⟨bannered, rows', hdecorate, hfirst, hsecond⟩ :=
    @decorate_spec random _ (allocated + models.length) hplain
  obtain ⟨rfl, -⟩ : rows = rows' ∧ allocated' = _ := by
    simpa using hpage.decorate_eq.symm.trans hdecorate
  rw [← length_cells random models allocated]
  constructor
  · intro hcadence
    by_contra hlength
    obtain ⟨run, hwithin, hseven, hrun⟩ :=
      exists_run_of_not_cadenceLength rfl rfl hfirst hsecond hlength
    have hrepository : ∀ row ∈ run, row.repository?.isSome = true := by
      intro row hrow
      -- a row that is neither banner nor info belongs to the page
      have hmem : row ∈ rows.filter fun row => !row.isBanner && !row.isInfo := by
        rw [List.mem_filter, (hrun row hrow).1, (hrun row hrow).2]
        exact ⟨hwithin.subset hrow, rfl⟩
      rw [filter_plain_of_spaced random hfirst hsecond] at hmem
      obtain ⟨model, hmodel⟩ := repository_of_mem_cells random hmem
      rw [RxCellViewModel.repository?, hmodel]
      rfl
    have hsix := hcadence run hwithin hrepository
    omega
  · rintro hlength run ⟨before, after, rfl⟩ hrun
    by_contra hmore
    exact not_cadenceLength_of_run rfl rfl hfirst hsecond
      (fun row hrow => plain_of_isSome (hrun row hrow)) (by omega) hlength

/-- **The cadence of a page.** What a successful response appends keeps the cadence exactly for the
page lengths listed in `CadenceLength`, and for none from 54 on. -/
theorem cadence_iff (viewModel : RepositoryViewModel) (models : List RepositoryModel) :
    ∃ next rows, viewModel.onSuccess random models = some (next,
        [.cellViewModels (viewModel.cellViewModelsSubject.getD [] ++ rows)]) ∧
      next.cellViewModelsSubject = some (viewModel.cellViewModelsSubject.getD [] ++ rows) ∧
      (Cadence rows ↔ CadenceLength models.length) := by
  obtain ⟨rows, allocated, hpage, haccept⟩ := exists_onSuccess random viewModel models
  exact ⟨_, rows, haccept, rfl, cadence_iff_of_decoratedPage random hpage⟩

/-- A first page of eighteen ends with seven repositories in a row. -/
theorem cadence_fails_eighteen :
    ∃ next rows, make.onSuccess (fun _ _ => "") (List.replicate 18 {}) =
      some (next, [.cellViewModels rows]) ∧ ¬Cadence rows := by
  refine ⟨_, _, rfl, ?_⟩
  intro hcadence
  have hsix := hcadence (List.drop 14 _) (List.drop_suffix _ _).isInfix (by decide)
  revert hsix
  decide

end RepositoryViewModel

end PFXTexture
