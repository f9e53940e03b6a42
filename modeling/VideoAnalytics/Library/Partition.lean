import Mathlib.Data.List.Nodup
import Mathlib.Data.List.Perm.Basic
import Mathlib.Logic.Function.Basic

/-! A pool of distinct things of which each lies in exactly one of several
places. Things move from one place to another and are never lost or doubled. -/
namespace Partition

variable {α ι : Type} {pool : List α} {contents after : ι → List α}

structure Parts (pool : List α) (contents : ι → List α) : Prop where
  nodup : ∀ place, (contents place).Nodup
  apart : ∀ place other thing, thing ∈ contents place → thing ∈ contents other → place = other
  cover : ∀ thing, thing ∈ pool ↔ ∃ place, thing ∈ contents place

/-- One thing has moved from a place to another. -/
structure Move (source target : ι) (thing : α) (contents after : ι → List α) : Prop where
  different : source ≠ target
  taken : (contents source).Perm (thing :: after source)
  added : (after target).Perm (thing :: contents target)
  others : ∀ place, place ≠ source → place ≠ target → after place = contents place

theorem Parts.congr (parts : Parts pool contents)
    (same : ∀ place, after place = contents place) : Parts pool after := by
  have equal : after = contents := funext same
  rwa [equal]

theorem Move.mem_iff {source target : ι} {thing : α} (parts : Parts pool contents)
    (move : Move source target thing contents after) (place : ι) (other : α) :
    other ∈ after place ↔
      (other = thing ∧ place = target) ∨ (other ≠ thing ∧ other ∈ contents place) := by
  have there : thing ∈ contents source := move.taken.mem_iff.mpr List.mem_cons_self
  by_cases from_source : place = source
  · subst from_source
    have distinct := move.taken.nodup_iff.mp (parts.nodup place)
    rw [List.nodup_cons] at distinct
    have members : other ∈ contents place ↔ other = thing ∨ other ∈ after place :=
      move.taken.mem_iff.trans List.mem_cons
    constructor
    · intro member
      have unequal : other ≠ thing := by
        intro same
        rw [same] at member
        exact distinct.1 member
      exact .inr ⟨unequal,members.mpr (.inr member)⟩
    · intro either
      rcases either with ⟨-,same⟩ | ⟨unequal,member⟩
      · exact absurd same move.different
      · exact (members.mp member).resolve_left unequal
  have absent : thing ∉ contents place := by
    intro member
    exact from_source (parts.apart place source thing member there)
  by_cases to_target : place = target
  · subst to_target
    have members : other ∈ after place ↔ other = thing ∨ other ∈ contents place :=
      move.added.mem_iff.trans List.mem_cons
    rw [members]
    constructor
    · intro either
      rcases either with same | member
      · exact .inl ⟨same,rfl⟩
      · refine .inr ⟨?_,member⟩
        intro same
        rw [same] at member
        exact absent member
    · intro either
      rcases either with ⟨same,-⟩ | ⟨-,member⟩
      · exact .inl same
      · exact .inr member
  · rw [move.others place from_source to_target]
    constructor
    · intro member
      refine .inr ⟨?_,member⟩
      intro same
      rw [same] at member
      exact absent member
    · intro either
      rcases either with ⟨-,same⟩ | ⟨-,member⟩
      · exact absurd same to_target
      · exact member

theorem Parts.move {source target : ι} {thing : α} (parts : Parts pool contents)
    (move : Move source target thing contents after) : Parts pool after := by
  have members := move.mem_iff parts
  have there : thing ∈ contents source := move.taken.mem_iff.mpr List.mem_cons_self
  refine ⟨?_,?_,?_⟩
  · intro place
    by_cases from_source : place = source
    · rw [from_source]
      exact (List.nodup_cons.mp (move.taken.nodup_iff.mp (parts.nodup source))).2
    by_cases to_target : place = target
    · rw [to_target,move.added.nodup_iff,List.nodup_cons]
      refine ⟨?_,parts.nodup target⟩
      intro member
      exact move.different (parts.apart source target thing there member)
    · rw [move.others place from_source to_target]
      exact parts.nodup place
  · intro place other item first second
    rw [members] at first second
    rcases first with ⟨same,here⟩ | ⟨unequal,first⟩
    · rcases second with ⟨-,there⟩ | ⟨unequal,-⟩
      · rw [here,there]
      · exact absurd same unequal
    · rcases second with ⟨same,-⟩ | ⟨-,second⟩
      · exact absurd same unequal
      · exact parts.apart place other item first second
  · intro item
    rw [parts.cover]
    constructor
    · rintro ⟨place,member⟩
      by_cases same : item = thing
      · exact ⟨target,(members target item).mpr (.inl ⟨same,rfl⟩)⟩
      · exact ⟨place,(members place item).mpr (.inr ⟨same,member⟩)⟩
    · rintro ⟨place,member⟩
      rcases (members place item).mp member with ⟨same,-⟩ | ⟨-,old⟩
      · rw [same]
        exact ⟨source,there⟩
      · exact ⟨place,old⟩

theorem Parts.transfer [DecidableEq ι] (parts : Parts pool contents) (source target : ι) (thing : α)
    {left right : List α} (different : source ≠ target)
    (taken : (contents source).Perm (thing :: left))
    (added : right.Perm (thing :: contents target)) :
    Parts pool (Function.update (Function.update contents source left) target right) := by
  have move : Move source target thing contents
      (Function.update (Function.update contents source left) target right) := by
    refine ⟨different,?_,?_,?_⟩
    · rw [Function.update_of_ne different,Function.update_self]
      exact taken
    · rw [Function.update_self]
      exact added
    · intro place not_source not_target
      rw [Function.update_of_ne not_target,Function.update_of_ne not_source]
  exact parts.move move

end Partition
