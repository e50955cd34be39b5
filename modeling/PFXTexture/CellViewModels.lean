import PFXTexture.Models
import PFXTexture.Library.SwiftArray

/-!
# Rows and decorated pages

The cell view models of `Scenes/Repositories/ViewModels` and the two insertion loops of
`RepositoryViewModel`. A view model is an object: `object` is its identity, the number of objects
allocated before it. `String.random(length:)` may answer anything, so it is a parameter
that sees the object it is drawn for.
-/

namespace PFXTexture

structure PartnerModel where
  region : String
  name : String
  star : String
  commentCount : String
  thumbnailUrl : URL
  maxLine : Nat := 1
  deriving DecidableEq, Repr

structure RepositoryInfoCellNode.Content where
  avatarUrl : URL
  title : String
  subtitle : String
  unreadItems : Int
  deriving DecidableEq, Repr

structure RepositoryBannerCellViewModel.Dependency where
  title : String
  desc : String
  partnerModels : List PartnerModel
  deriving DecidableEq

/-- A cell is built from `contents.first!`, so there has to be one. -/
structure RepositoryInfoCellViewModel.Dependency where
  title : String
  desc : String
  contents : List RepositoryInfoCellNode.Content
  contents_ne_nil : contents ≠ []
  deriving DecidableEq

/-- The class an `RxCellViewModel` has at run time, with that class's dependency. -/
inductive RxCellViewModel.Subclass where
  | none
  | repository (model : RepositoryModel)
  | banner (dependency : RepositoryBannerCellViewModel.Dependency)
  | info (dependency : RepositoryInfoCellViewModel.Dependency)
  deriving DecidableEq

structure RxCellViewModel where
  object : Nat
  reuseIdentifier : String
  identifier : String
  subclass : RxCellViewModel.Subclass
  deriving DecidableEq

namespace RxCellViewModel

def repository? (row : RxCellViewModel) : Option RepositoryModel :=
  match row.subclass with
  | .repository model => some model
  | _ => none

def isBanner (row : RxCellViewModel) : Bool :=
  match row.subclass with
  | .banner _ => true
  | _ => false

def isInfo (row : RxCellViewModel) : Bool :=
  match row.subclass with
  | .info _ => true
  | _ => false

end RxCellViewModel

section Construction

variable (random : Nat → Nat → String)

def thumbnailUrl : URL :=
  ⟨"http://d2tksqsghodazb.cloudfront.net/profile/201607/20160706/48c425a3-d6fa-4ae8-8b80-8ad24efaa361.PNG"⟩

def RepositoryCellViewModel (model : RepositoryModel) (object : Nat) : RxCellViewModel where
  object := object
  reuseIdentifier := "RepositoryCell"
  identifier := "RepositoryCell" ++ random object 20
  subclass := .repository model

def RepositoryBannerCellViewModel (object : Nat) : RxCellViewModel where
  object := object
  reuseIdentifier := "RepositoryBannerCell"
  identifier := "RepositoryBannerCell" ++ random object 20
  subclass := .banner
    { title := "섹션 타이틀 제목"
      desc := "원하는 아이템을 선택 해 보세요!"
      partnerModels :=
        [{ region := "아아아아아아아", name := random object 128, star := "4.5",
           commentCount := "444", thumbnailUrl },
         { region := "캬캬캬캬챷퍄캬캬챠", name := random object 256, star := "4.5",
           commentCount := "444", thumbnailUrl },
         { region := "애내채타파얃93야패", name := random object 512, star := "4.5",
           commentCount := "444", thumbnailUrl }] }

def RepositoryInfoCellViewModel (object : Nat) : RxCellViewModel where
  object := object
  reuseIdentifier := "RepositoryInfoCell"
  identifier := "RepositoryInfoCell" ++ random object 20
  subclass := .info
    { title := "인포 타이틀..."
      desc := "인포 서브 타이틀입니다. 헷갈리지 마세욥!"
      contents :=
        [{ avatarUrl := thumbnailUrl, title := "😭", subtitle := random object 128,
           unreadItems := 3 },
         { avatarUrl := thumbnailUrl, title := "👀", subtitle := random object 256,
           unreadItems := 3 },
         { avatarUrl := thumbnailUrl, title := "😱", subtitle := random object 512,
           unreadItems := 3 }]
      contents_ne_nil := List.cons_ne_nil _ _ }

/-! ### A page

`cells` is the `map` of a successful response. The two loops run on its result, the second over the
rows of the first. -/

def cells (models : List RepositoryModel) (allocated : Nat) : List RxCellViewModel :=
  (models.zipIdx allocated).map fun (model, object) => RepositoryCellViewModel random model object

def insertBanners (viewModels : List RxCellViewModel) (allocated : Nat) :
    Option (List RxCellViewModel × Nat) :=
  SwiftArray.insertAtStride 6 (RepositoryBannerCellViewModel random) viewModels allocated

def insertInfos (viewModels : List RxCellViewModel) (allocated : Nat) :
    Option (List RxCellViewModel × Nat) :=
  SwiftArray.insertAtStride 10 (RepositoryInfoCellViewModel random) viewModels allocated

def decorate (viewModels : List RxCellViewModel) (allocated : Nat) :
    Option (List RxCellViewModel × Nat) :=
  (insertBanners random viewModels allocated).bind fun (rows, allocated) =>
    insertInfos random rows allocated

end Construction

end PFXTexture
