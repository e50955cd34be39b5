import PFXTexture.CellViewModels

/-!
# The shape of a decorated page

Banners go in at the multiples of six of the page, infos at the multiples of ten of the result. Each
loop is an instance of `SwiftArray.insertAtStride_spec`; what remains is that the second loop sees
no info among the rows of the first.
-/

namespace PFXTexture

open SwiftArray

variable (random : Nat → Nat → String)

namespace RxCellViewModel

@[simp]
theorem isInfo_banner (object : Nat) :
    (RepositoryBannerCellViewModel random object).isInfo = false := rfl

@[simp]
theorem isBanner_banner (object : Nat) :
    (RepositoryBannerCellViewModel random object).isBanner = true := rfl

@[simp]
theorem isInfo_info (object : Nat) :
    (RepositoryInfoCellViewModel random object).isInfo = true := rfl

theorem plain_of_repository {row : RxCellViewModel} {model : RepositoryModel}
    (hrow : row.subclass = .repository model) : row.isBanner = false ∧ row.isInfo = false := by
  simp [isBanner, isInfo, hrow]

end RxCellViewModel

variable {page : List RxCellViewModel} {allocated : Nat}

/-- **Both loops together.** No insertion is out of range, and the rows are the page spaced with
banners and then with infos. -/
theorem decorate_spec (hpage : ∀ row ∈ page, row.isBanner = false ∧ row.isInfo = false) :
    ∃ bannered rows,
      decorate random page allocated = some (rows,
        allocated + (page.length - 1) / 6 + (bannered.length - 1) / 10) ∧
      Spaced RxCellViewModel.isBanner 6 (RepositoryBannerCellViewModel random) page allocated
        ((page.length - 1) / 6) bannered ∧
      Spaced RxCellViewModel.isInfo 10 (RepositoryInfoCellViewModel random) bannered
        (allocated + (page.length - 1) / 6) ((bannered.length - 1) / 10) rows := by
  obtain ⟨bannered, hbanners, hfirst⟩ :=
    @insertAtStride_spec _ RxCellViewModel.isBanner 6 (RepositoryBannerCellViewModel random) page
      allocated (by omega) (fun row hrow => (hpage row hrow).1) (by simp)
  have hnoInfo : ∀ row ∈ bannered, row.isInfo = false := by
    intro row hrow
    rcases List.mem_append.mp (hfirst.perm.mem_iff.mp hrow) with hold | hnew
    · exact (hpage row hold).2
    · obtain ⟨object, -, rfl⟩ := List.mem_map.mp hnew
      simp
  obtain ⟨rows, hinfos, hsecond⟩ :=
    @insertAtStride_spec _ RxCellViewModel.isInfo 10 (RepositoryInfoCellViewModel random) bannered
      (allocated + (page.length - 1) / 6) (by omega) hnoInfo (by simp)
  refine ⟨bannered, rows, ?_, hfirst, hsecond⟩
  unfold decorate insertBanners insertInfos
  rw [hbanners, Option.bind_some]
  exact hinfos

/-- The rows that are neither banner nor info are the page. -/
theorem filter_plain_of_spaced {bannered rows : List RxCellViewModel} {first second : Nat}
    {inserted inserted' : Nat}
    (hfirst : Spaced RxCellViewModel.isBanner 6 (RepositoryBannerCellViewModel random) page first
      inserted bannered)
    (hsecond : Spaced RxCellViewModel.isInfo 10 (RepositoryInfoCellViewModel random) bannered second
      inserted' rows) :
    (rows.filter fun row => !row.isBanner && !row.isInfo) = page := by
  calc (rows.filter fun row => !row.isBanner && !row.isInfo)
      = (rows.filter fun row => !row.isInfo).filter fun row => !row.isBanner := by
        rw [List.filter_filter]
    _ = bannered.filter fun row => !row.isBanner := by rw [hsecond.kept]
    _ = page := hfirst.kept

/-! ### The page of one response

The view models of a response and the rows inserted among them are all new objects. -/

@[simp]
theorem length_cells (models : List RepositoryModel) (allocated : Nat) :
    (cells random models allocated).length = models.length := by
  simp [cells]

theorem map_object_cells (models : List RepositoryModel) (allocated : Nat) :
    (cells random models allocated).map RxCellViewModel.object =
      List.range' allocated models.length := by
  rw [cells, List.map_map, ← List.zipIdx_map_snd allocated models]
  exact List.map_congr_left fun entry _ => rfl

theorem filterMap_repository_cells (models : List RepositoryModel) (allocated : Nat) :
    (cells random models allocated).filterMap RxCellViewModel.repository? = models := by
  have hrow : ∀ entry : RepositoryModel × Nat,
      (RepositoryCellViewModel random entry.1 entry.2).repository? = some entry.1 := fun _ => rfl
  rw [cells, List.filterMap_map]
  calc (models.zipIdx allocated).filterMap
        (RxCellViewModel.repository? ∘ fun entry => RepositoryCellViewModel random entry.1 entry.2)
      = (models.zipIdx allocated).filterMap (some ∘ Prod.fst) :=
        List.filterMap_congr fun entry _ => hrow entry
    _ = models := by rw [List.filterMap_eq_map, List.zipIdx_map_fst]

theorem repository_of_mem_cells {models : List RepositoryModel} {row : RxCellViewModel}
    (hrow : row ∈ cells random models allocated) : ∃ model, row.subclass = .repository model := by
  obtain ⟨entry, -, rfl⟩ := List.mem_map.mp hrow
  exact ⟨entry.1, rfl⟩

structure DecoratedPage (models : List RepositoryModel) (allocated : Nat)
    (rows : List RxCellViewModel) (allocated' : Nat) : Prop where
  decorate_eq : decorate random (cells random models allocated) (allocated + models.length) =
    some (rows, allocated')
  repositories_eq : rows.filterMap RxCellViewModel.repository? = models
  le : allocated ≤ allocated'
  objects_perm :
    (rows.map RxCellViewModel.object).Perm (List.range' allocated (allocated' - allocated))

section Objects

variable {random} {models : List RepositoryModel} {rows : List RxCellViewModel} {allocated' : Nat}

theorem DecoratedPage.object_mem (hpage : DecoratedPage random models allocated rows allocated')
    {row : RxCellViewModel} (hrow : row ∈ rows) :
    allocated ≤ row.object ∧ row.object < allocated' := by
  have hmem := hpage.objects_perm.mem_iff.mp (List.mem_map_of_mem hrow)
  have hle := hpage.le
  rw [List.mem_range'_1] at hmem
  omega

theorem DecoratedPage.objects_nodup
    (hpage : DecoratedPage random models allocated rows allocated') :
    (rows.map RxCellViewModel.object).Nodup :=
  hpage.objects_perm.nodup_iff.mpr List.nodup_range'

end Objects

theorem filterMap_repository_eq (rows : List RxCellViewModel) :
    rows.filterMap RxCellViewModel.repository? =
      (rows.filter fun row => !row.isBanner && !row.isInfo).filterMap
        RxCellViewModel.repository? := by
  rw [List.filterMap_filter]
  apply List.filterMap_congr
  intro row _
  unfold RxCellViewModel.repository? RxCellViewModel.isBanner RxCellViewModel.isInfo
  cases row.subclass <;> rfl

theorem exists_decoratedPage (models : List RepositoryModel) (allocated : Nat) :
    ∃ rows allocated', DecoratedPage random models allocated rows allocated' := by
  have hplain : ∀ row ∈ cells random models allocated, row.isBanner = false ∧ row.isInfo = false :=
    fun row hrow =>
      RxCellViewModel.plain_of_repository (repository_of_mem_cells random hrow).choose_spec
  obtain ⟨bannered, rows, hdecorate, hfirst, hsecond⟩ :=
    @decorate_spec random _ (allocated + models.length) hplain
  rw [length_cells] at hdecorate hfirst hsecond
  refine ⟨rows, _, hdecorate, ?_, by omega, ?_⟩
  · rw [filterMap_repository_eq, filter_plain_of_spaced random hfirst hsecond,
      filterMap_repository_cells]
  · -- the objects of the page, of the banners and of the infos were allocated in this order
    have hbanners : ∀ first count, ((List.range' first count).map
        (RepositoryBannerCellViewModel random)).map RxCellViewModel.object =
          List.range' first count := fun first count => by
      rw [List.map_map]; exact List.map_id _
    have hinfos : ∀ first count, ((List.range' first count).map
        (RepositoryInfoCellViewModel random)).map RxCellViewModel.object =
          List.range' first count := fun first count => by
      rw [List.map_map]; exact List.map_id _
    have hfirst' := hfirst.perm.map RxCellViewModel.object
    rw [List.map_append, map_object_cells, hbanners, List.range'_append_1] at hfirst'
    have hsecond' := hsecond.perm.map RxCellViewModel.object
    rw [List.map_append, hinfos] at hsecond'
    refine hsecond'.trans ((hfirst'.append_right _).trans ?_)
    rw [Nat.add_assoc allocated, List.range'_append_1]
    exact List.Perm.of_eq (by congr 1; omega)

/-- **Exact shape of a decorated page.** -/
theorem decorate_shape (page : List RxCellViewModel)
    (hpage : ∀ row ∈ page, ∃ model, row.subclass = .repository model) (allocated : Nat) :
    let n := page.length
    let b := (n - 1) / 6
    let m := n + b
    let t := (m - 1) / 10
    ∃ rows allocated', decorate random page allocated = some (rows, allocated') ∧
      rows.length = m + t ∧
      (∀ p (hp : p < rows.length), rows[p].isInfo = true ↔ 10 ∣ p ∧ 0 < p ∧ p < m) ∧
      (∃ kept, kept = (rows.filter fun row => !row.isInfo) ∧ kept.length = m ∧
        ∀ q (hq : q < kept.length), kept[q].isBanner = true ↔ 6 ∣ q ∧ 0 < q ∧ q < n) ∧
      (rows.filter fun row => !row.isBanner && !row.isInfo) = page := by
  have hplain : ∀ row ∈ page, row.isBanner = false ∧ row.isInfo = false := fun row hrow =>
    RxCellViewModel.plain_of_repository (hpage row hrow).choose_spec
  obtain ⟨bannered, rows, hdecorate, hfirst, hsecond⟩ :=
    @decorate_spec random page allocated hplain
  have hbannered : bannered.length = page.length + (page.length - 1) / 6 := hfirst.length_eq
  refine ⟨rows, _, hdecorate, ?_, ?_, ⟨bannered, hsecond.kept.symm, hbannered, ?_⟩, ?_⟩
  · rw [hsecond.length_eq, hbannered]
  · intro p hp
    rw [hsecond.new_iff_lt (by omega), hbannered]
  · exact hfirst.new_iff_lt (by omega)
  · exact filter_plain_of_spaced random hfirst hsecond

/-- A page of seven rows gets one banner. -/
theorem decorate_shape_seven :
    ∃ rows allocated', decorate (fun _ _ => "") (cells (fun _ _ => "") (List.replicate 7 {}) 0) 7 =
      some (rows, allocated') ∧ rows.length = 8 := by
  obtain ⟨rows, allocated', hdecorate, hlength, -⟩ :=
    decorate_shape (fun _ _ => "") (cells (fun _ _ => "") (List.replicate 7 {}) 0)
      (fun row hrow => repository_of_mem_cells (fun _ _ => "") hrow) 7
  exact ⟨rows, allocated', hdecorate, hlength⟩

end PFXTexture
