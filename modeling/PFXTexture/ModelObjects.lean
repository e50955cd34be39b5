import PFXTexture.Models
import Mathlib.Logic.Function.Basic

/-!
# The models as objects

`RepositoryModel` and `UserModel` are classes, and `merge` writes through references. A reference is
a number; the objects behind them are in a heap, where a repository holds a reference to its user.
-/

namespace PFXTexture

structure RepositoryObject where
  id : Int := -1
  user : Option Nat := none
  repositoryName : Option String := none
  desc : Option String := none
  isPrivate : Bool := false
  isForked : Bool := false
  deriving DecidableEq

@[ext]
structure ModelHeap where
  repositories : Nat → RepositoryObject
  users : Nat → UserModel

def UserModel.merge (heap : ModelHeap) (self : Nat) (user : Option Nat) : ModelHeap :=
  match user with
  | none => heap
  | some user =>
      { heap with
        users := Function.update heap.users self
          { heap.users self with
            username := (heap.users user).username
            profileURL := (heap.users user).profileURL } }

/-- `user?.merge(repo.user)` and then the fields. -/
def RepositoryModel.merge (heap : ModelHeap) (self : Nat) (repo : Option Nat) : ModelHeap :=
  match repo with
  | none => heap
  | some repo =>
      let heap :=
        match (heap.repositories self).user with
        | none => heap
        | some user => UserModel.merge heap user (heap.repositories repo).user
      { heap with
        repositories := Function.update heap.repositories self
          { heap.repositories self with
            repositoryName := (heap.repositories repo).repositoryName
            desc := (heap.repositories repo).desc
            isPrivate := (heap.repositories repo).isPrivate
            isForked := (heap.repositories repo).isForked } }

def RepositoryModel.mergeAll (heap : ModelHeap) (self : Nat) (repos : List Nat) : ModelHeap :=
  repos.foldl (fun heap repo => merge heap self (some repo)) heap

end PFXTexture
