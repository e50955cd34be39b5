import PFXTexture.ModelObjects
import Mathlib.Data.List.Induction

/-!
# Merging a newer repository

A sequence of merges leaves in `a` the fields of the last repository, and in the user of `a` the
fields of the last owner. A missing user of `a` is never created, so an owner it could take over is
dropped.
-/

namespace PFXTexture.RepositoryModel

/-- The owner of the last repository that has one. -/
def lastUser (heap : ModelHeap) (repos : List Nat) : Option Nat :=
  (repos.filterMap fun repo => (heap.repositories repo).user).getLast?

/-- The object `object` has taken over the newer repositories, from `heap` to `final`. -/
structure TakesOver (heap : ModelHeap) (object : Nat) (repos : List Nat) (final : ModelHeap) :
    Prop where
  fields_eq : ∀ repo, repos.getLast? = some repo →
    (final.repositories object).repositoryName = (heap.repositories repo).repositoryName ∧
    (final.repositories object).desc = (heap.repositories repo).desc ∧
    (final.repositories object).isPrivate = (heap.repositories repo).isPrivate ∧
    (final.repositories object).isForked = (heap.repositories repo).isForked
  owner_eq : ∀ owner, lastUser heap repos = some owner →
    ∃ user, (final.repositories object).user = some user ∧
      (final.users user).username = (heap.users owner).username ∧
      (final.users user).profileURL = (heap.users owner).profileURL
  user_kept : lastUser heap repos = none →
    (final.repositories object).user = (heap.repositories object).user ∧
      ∀ user, (heap.repositories object).user = some user → final.users user = heap.users user
  id_eq : (final.repositories object).id = (heap.repositories object).id
  repos_kept : ∀ repo ∈ repos, final.repositories repo = heap.repositories repo ∧
    ∀ user, (heap.repositories repo).user = some user → final.users user = heap.users user
  stable : ∀ repo, repos.getLast? = some repo → merge final object (some repo) = final

/-- No repository is the object itself, and none shares its user. -/
def Apart (heap : ModelHeap) (self repo : Nat) : Prop :=
  repo ≠ self ∧ ∀ user, (heap.repositories self).user = some user →
    (heap.repositories repo).user ≠ some user

/-! ### Closed form -/

/-- The users once `user` has the fields of `owner`, if there are both. -/
def writeOwner (users : Nat → UserModel) : Option Nat → Option Nat → Nat → UserModel
  | some user, some owner => Function.update users user (users owner)
  | some _, none => users
  | none, _ => users

/-- `self` with the fields of `repo`, its user with those of `owner`. -/
def overwritten (heap : ModelHeap) (self repo : Nat) (owner : Option Nat) : ModelHeap where
  repositories := Function.update heap.repositories self
    { heap.repositories repo with
      id := (heap.repositories self).id
      user := (heap.repositories self).user }
  users := writeOwner heap.users (heap.repositories self).user owner

variable {heap : ModelHeap} {self repo other : Nat} {owner : Option Nat}

theorem writeOwner_none (users : Nat → UserModel) (user : Option Nat) :
    writeOwner users user none = users := by
  cases user <;> rfl

theorem writeOwner_of_ne {users : Nat → UserModel} {user owner : Option Nat} {other : Nat}
    (hother : user ≠ some other) : writeOwner users user owner other = users other := by
  cases user with
  | none => rfl
  | some user =>
      cases owner with
      | none => rfl
      | some owner => exact Function.update_of_ne (fun heq => hother (congrArg some heq.symm)) _ _

/-- A later owner replaces an earlier one. -/
theorem writeOwner_writeOwner {users : Nat → UserModel} {user owner : Option Nat} {newer : Nat}
    (hnewer : user ≠ some newer) :
    writeOwner (writeOwner users user owner) user (some newer) =
      writeOwner users user (some newer) := by
  cases user with
  | none => rfl
  | some user =>
      have hkept : writeOwner users (some user) owner newer = users newer :=
        writeOwner_of_ne hnewer
      calc writeOwner (writeOwner users (some user) owner) (some user) (some newer)
          = Function.update (writeOwner users (some user) owner) user (users newer) := by
            rw [← hkept]
            rfl
        _ = Function.update users user (users newer) := by
            cases owner with
            | none => rfl
            | some owner => exact Function.update_idem _ _ _

theorem merge_eq_overwritten (heap : ModelHeap) (self repo : Nat) :
    merge heap self (some repo) =
      overwritten heap self repo (heap.repositories repo).user := by
  cases hself : (heap.repositories self).user with
  | none => simp only [merge, overwritten, hself, writeOwner]
  | some user =>
      cases howner : (heap.repositories repo).user with
      | none => simp only [merge, overwritten, UserModel.merge, hself, howner, writeOwner]
      | some owner => simp only [merge, overwritten, UserModel.merge, hself, howner, writeOwner]

theorem overwritten_repositories_of_ne (hother : other ≠ self) :
    (overwritten heap self repo owner).repositories other = heap.repositories other :=
  Function.update_of_ne hother _ _

theorem overwritten_repositories_self :
    (overwritten heap self repo owner).repositories self =
      { heap.repositories repo with
        id := (heap.repositories self).id
        user := (heap.repositories self).user } :=
  Function.update_self _ _ _

theorem Apart.overwritten_users (hapart : Apart heap self other) {user : Nat}
    (huser : (heap.repositories other).user = some user) :
    (overwritten heap self repo owner).users user = heap.users user :=
  writeOwner_of_ne fun hself => hapart.2 user hself huser

/-- Another merge replaces the fields, and the owner if the newer repository has one. -/
theorem Apart.merge_overwritten (hapart : Apart heap self other) :
    merge (overwritten heap self repo owner) self (some other) =
      overwritten heap self other ((heap.repositories other).user.or owner) := by
  rw [merge_eq_overwritten, overwritten_repositories_of_ne hapart.1]
  ext1
  · calc (overwritten (overwritten heap self repo owner) self other
          (heap.repositories other).user).repositories
        = Function.update (overwritten heap self repo owner).repositories self
            { heap.repositories other with
              id := (heap.repositories self).id
              user := (heap.repositories self).user } := by
          simp only [overwritten, Function.update_self, Function.update_of_ne hapart.1]
      _ = Function.update heap.repositories self
            { heap.repositories other with
              id := (heap.repositories self).id
              user := (heap.repositories self).user } := Function.update_idem _ _ _
  · have husers : (overwritten (overwritten heap self repo owner) self other
        (heap.repositories other).user).users =
          writeOwner (writeOwner heap.users (heap.repositories self).user owner)
            (heap.repositories self).user (heap.repositories other).user := by
      simp only [overwritten, Function.update_self]
    rw [husers]
    cases hother : (heap.repositories other).user with
    | none =>
        rw [writeOwner_none, Option.none_or]
        rfl
    | some newer =>
        rw [Option.some_or]
        exact writeOwner_writeOwner fun heq => hapart.2 newer heq hother

theorem lastUser_concat (heap : ModelHeap) (repos : List Nat) (repo : Nat) :
    lastUser heap (repos ++ [repo]) = (heap.repositories repo).user.or (lastUser heap repos) := by
  unfold lastUser
  rw [List.filterMap_append, List.getLast?_append]
  cases huser : (heap.repositories repo).user <;> simp [huser]

theorem mergeAll_concat (heap : ModelHeap) (self repo : Nat) (repos : List Nat) :
    mergeAll heap self (repos ++ [repo]) = merge (mergeAll heap self repos) self (some repo) := by
  rw [mergeAll, List.foldl_append]
  rfl

/-- All merges at once. -/
theorem mergeAll_eq (repos : List Nat) : ∀ repo,
    (∀ other ∈ repos ++ [repo], Apart heap self other) → mergeAll heap self (repos ++ [repo]) =
      overwritten heap self repo (lastUser heap (repos ++ [repo])) := by
  induction repos using List.reverseRecOn with
  | nil =>
      intro repo _
      rw [lastUser_concat, mergeAll_concat, lastUser, List.filterMap_nil, List.getLast?_nil,
        Option.or_none]
      exact merge_eq_overwritten heap self repo
  | append_singleton repos earlier ih =>
      intro repo hapart
      have hrepo := hapart repo (List.mem_append_right _ List.mem_cons_self)
      rw [mergeAll_concat, lastUser_concat, ih earlier fun other hother =>
        hapart other (List.mem_append_left _ hother)]
      exact hrepo.merge_overwritten

/-! ### Taking over -/

theorem lastUser_eq_none_iff {repos : List Nat} :
    lastUser heap repos = none ↔ ∀ repo ∈ repos, (heap.repositories repo).user = none := by
  rw [lastUser, List.getLast?_eq_none_iff, List.filterMap_eq_nil_iff]

/-- The closed form satisfies every clause if there is a user for the owner. -/
theorem takesOver_overwritten {repos : List Nat}
    (hapart : ∀ other ∈ repos ++ [repo], Apart heap self other)
    (howner : ∀ owner, lastUser heap (repos ++ [repo]) = some owner →
      ∃ user, (heap.repositories self).user = some user) :
    TakesOver heap self (repos ++ [repo])
      (overwritten heap self repo (lastUser heap (repos ++ [repo]))) := by
  have hself := @overwritten_repositories_self heap self repo (lastUser heap (repos ++ [repo]))
  have hrepo := hapart repo (List.mem_append_right _ List.mem_cons_self)
  refine ⟨?_, ?_, ?_, ?_, ?_, ?_⟩
  · intro last hlast
    rw [List.getLast?_concat] at hlast
    cases hlast
    rw [hself]
    exact ⟨rfl, rfl, rfl, rfl⟩
  · intro owner hlast
    obtain ⟨user, huser⟩ := howner owner hlast
    refine ⟨user, by rw [hself, huser], ?_⟩
    have hwritten : (overwritten heap self repo (lastUser heap (repos ++ [repo]))).users user =
        heap.users owner := by
      rw [overwritten, huser, hlast]
      exact Function.update_self _ _ _
    rw [hwritten]
    exact ⟨rfl, rfl⟩
  · intro hlast
    rw [hself, hlast]
    refine ⟨rfl, fun user _ => ?_⟩
    rw [overwritten, writeOwner_none]
  · rw [hself]
  · intro other hother
    refine ⟨overwritten_repositories_of_ne (hapart other hother).1, ?_⟩
    exact fun user huser => (hapart other hother).overwritten_users huser
  · intro last hlast
    rw [List.getLast?_concat] at hlast
    cases hlast
    rw [hrepo.merge_overwritten]
    -- the last repository has been counted already
    rw [lastUser_concat, ← Option.or_assoc, Option.or_self]

/-- **Merging takes over the newer repository** precisely if the object has a user to write to, or
no newer repository has one. -/
theorem takes_over_iff (heap : ModelHeap) (self : Nat) (repos : List Nat) (hrepos : repos ≠ [])
    (hapart : ∀ repo ∈ repos, Apart heap self repo) :
    TakesOver heap self repos (mergeAll heap self repos) ↔
      (heap.repositories self).user ≠ none ∨
        ∀ repo ∈ repos, (heap.repositories repo).user = none := by
  obtain ⟨earlier, repo, rfl⟩ := (List.eq_nil_or_concat' repos).resolve_left hrepos
  rw [mergeAll_eq earlier repo hapart, ← lastUser_eq_none_iff]
  constructor
  · intro htakes
    by_contra hnot
    rw [not_or, not_not] at hnot
    obtain ⟨owner, howner⟩ := Option.ne_none_iff_exists'.mp hnot.2
    obtain ⟨user, huser, -⟩ := htakes.owner_eq owner howner
    rw [overwritten_repositories_self, hnot.1] at huser
    cases huser
  · intro hcondition
    apply takesOver_overwritten hapart
    intro owner howner
    rcases hcondition with huser | hnone
    · exact Option.ne_none_iff_exists'.mp huser
    · rw [hnone] at howner
      cases howner

/-- Object `0` is merged with object `1`, whose user is user `1`. -/
def twoRepositories (user : Option Nat) : ModelHeap where
  repositories := fun object => if object = 0 then { id := 1, user } else { id := 2, user := some 1 }
  users := fun user => { username := if user = 1 then "owner" else "" }

theorem takes_over_with_user :
    TakesOver (twoRepositories (some 0)) 0 [1] (mergeAll (twoRepositories (some 0)) 0 [1]) := by
  apply (takes_over_iff (twoRepositories (some 0)) 0 [1] (List.cons_ne_nil _ _) ?_).mpr
  · exact Or.inl (Option.some_ne_none 0)
  · intro repo hrepo
    rw [List.mem_singleton.mp hrepo]
    refine ⟨by decide, ?_⟩
    rintro user huser
    cases huser
    decide

/-- The owner of the newer repository is dropped when the object has no user. -/
theorem owner_dropped :
    ((twoRepositories none).repositories 1).user = some 1 ∧
      ((mergeAll (twoRepositories none) 0 [1]).repositories 0).user = none ∧
      ¬TakesOver (twoRepositories none) 0 [1] (mergeAll (twoRepositories none) 0 [1]) := by
  refine ⟨rfl, rfl, ?_⟩
  intro htakes
  obtain ⟨user, huser, -⟩ := htakes.owner_eq 1 rfl
  cases huser

end PFXTexture.RepositoryModel
