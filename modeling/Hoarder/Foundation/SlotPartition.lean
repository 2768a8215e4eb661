/-
Module: Hoarder.Foundation.SlotPartition
Purpose: Exclusive ownership of numbered slots.  The slots `0, .., n - 1` are split between a free
  list and the owners of any type that hold one slot each; taking the first free slot and giving an
  owned slot back keep the split.
Trusted boundary: none
Main exports: SlotPartition, SlotPartition.take, SlotPartition.give, SlotPartition.free_length_lt,
  SlotPartition.all_owned, SlotPartition.perm_range, SlotPartition.free_add_owners
-/
import Mathlib

namespace Hoarder.Foundation

variable {κ : Type*}

/-- The slots below `n` are partitioned by the free list and the owners. -/
structure SlotPartition (n : Nat) (free : List Nat) (owned : κ → Option Nat) : Prop where
  freeNodup : free.Nodup
  freeBound : ∀ slot ∈ free, slot < n
  ownedBound : ∀ owner slot, owned owner = some slot → slot < n
  exclusive : ∀ owner other slot,
    owned owner = some slot → owned other = some slot → owner = other
  disjoint : ∀ owner slot, owned owner = some slot → slot ∉ free
  complete : ∀ slot < n, slot ∈ free ∨ ∃ owner, owned owner = some slot

namespace SlotPartition

variable {n : Nat} {free : List Nat} {owned : κ → Option Nat}

/-- Nobody owns a slot, and the free list names every slot once. -/
theorem initial (nodup : free.Nodup) (members : ∀ slot, slot ∈ free ↔ slot < n) :
    SlotPartition n free (fun _ : κ => none) where
  freeNodup := nodup
  freeBound slot member := (members slot).mp member
  ownedBound := by simp
  exclusive := by simp
  disjoint := by simp
  complete slot inside := .inl ((members slot).mpr inside)

/-- Only the slots the owners hold matter, not how the owner map is written. -/
theorem congr {other : κ → Option Nat} (partition : SlotPartition n free owned)
    (same : ∀ owner, owned owner = other owner) : SlotPartition n free other := by
  obtain rfl : owned = other := funext same
  exact partition

/-- Every free list of a partition is shorter than the slots, once some slot is owned. -/
theorem free_length_lt (partition : SlotPartition n free owned) (owner : κ) {slot : Nat}
    (owns : owned owner = some slot) : free.length < n := by
  have nodup : (slot :: free).Nodup :=
    List.nodup_cons.mpr ⟨partition.disjoint owner slot owns, partition.freeNodup⟩
  have bound : (slot :: free) ⊆ List.range n := by
    intro other member
    rcases List.mem_cons.mp member with rfl | member
    · exact List.mem_range.mpr (partition.ownedBound owner other owns)
    · exact List.mem_range.mpr (partition.freeBound other member)
  have := (List.subperm_of_subset nodup bound).length_le
  simp only [List.length_cons, List.length_range] at this
  omega

/-- With no free slot, every slot has an owner. -/
theorem all_owned (partition : SlotPartition n [] owned) {slot : Nat} (inside : slot < n) :
    ∃ owner, owned owner = some slot := by
  rcases partition.complete slot inside with member | owner
  · cases member
  · exact owner

/-- The free slots and the slots of the owners, listed without repetition, are all the slots. -/
theorem perm_range (partition : SlotPartition n free owned) {owners : List κ}
    (nodup : owners.Nodup) (listed : ∀ owner, (owned owner).isSome ↔ owner ∈ owners) :
    (free ++ owners.filterMap owned).Perm (List.range n) := by
  have ownedNodup : (owners.filterMap owned).Nodup :=
    nodup.filterMap fun first second slot firstOwns secondOwns =>
      partition.exclusive first second slot firstOwns secondOwns
  have apart : ∀ slot ∈ free, ∀ other ∈ owners.filterMap owned, slot ≠ other := by
    rintro slot inFree other member rfl
    obtain ⟨owner, _, owns⟩ := List.mem_filterMap.mp member
    exact partition.disjoint owner slot owns inFree
  refine (List.perm_ext_iff_of_nodup
    (List.nodup_append.mpr ⟨partition.freeNodup, ownedNodup, apart⟩) List.nodup_range).mpr ?_
  intro slot
  rw [List.mem_append, List.mem_range, List.mem_filterMap]
  constructor
  · rintro (member | ⟨owner, _, owns⟩)
    · exact partition.freeBound slot member
    · exact partition.ownedBound owner slot owns
  · intro inside
    rcases partition.complete slot inside with member | ⟨owner, owns⟩
    · exact .inl member
    · exact .inr ⟨owner, (listed owner).mp (by rw [owns]; rfl), owns⟩

/-- There are no more owners than slots. -/
theorem owners_finite (partition : SlotPartition n free owned) :
    {owner | (owned owner).isSome}.Finite := by
  have injective : Set.InjOn owned {owner | (owned owner).isSome} := by
    intro first firstOwns second _ same
    obtain ⟨slot, holds⟩ := Option.isSome_iff_exists.mp firstOwns
    exact partition.exclusive first second slot holds (same ▸ holds)
  have bounded : owned '' {owner | (owned owner).isSome} ⊆ (some '' {slot | slot < n}) := by
    rintro _ ⟨owner, owns, rfl⟩
    obtain ⟨slot, holds⟩ := Option.isSome_iff_exists.mp owns
    exact ⟨slot, partition.ownedBound owner slot holds, holds.symm⟩
  exact Set.Finite.of_finite_image (((Set.finite_lt_nat n).image some).subset bounded) injective

/-- The free slots and the owners together are as many as the slots. -/
theorem free_add_owners (partition : SlotPartition n free owned) :
    free.length + {owner | (owned owner).isSome}.ncard = n := by
  classical
  have finite := partition.owners_finite
  have listed :=
    (partition.perm_range (Finset.nodup_toList finite.toFinset) (by simp)).length_eq
  have each : (finite.toFinset.toList.filterMap owned).length = finite.toFinset.toList.length := by
    rw [List.length_filterMap_eq_countP, List.countP_eq_length]
    simp
  rw [List.length_append, each, List.length_range, Finset.length_toList] at listed
  rw [Set.ncard_eq_toFinset_card _ finite, listed]

variable [DecidableEq κ]

/-- Take the first free slot. -/
theorem take {slot : Nat} (partition : SlotPartition n (slot :: free) owned) (taker : κ)
    (idle : owned taker = none) :
    SlotPartition n free (Function.update owned taker (some slot)) := by
  obtain ⟨nodup, freeBound, ownedBound, exclusive, disjoint, complete⟩ := partition
  obtain ⟨fresh, nodup⟩ := List.nodup_cons.mp nodup
  have notOwned : ∀ owner, owned owner ≠ some slot := fun owner owns =>
    disjoint owner slot owns (by simp)
  refine ⟨nodup, fun other member => freeBound other (by simp [member]), ?_, ?_, ?_, ?_⟩
  · intro owner other owns
    rcases eq_or_ne owner taker with rfl | different
    · rw [Function.update_self] at owns
      cases owns
      exact freeBound slot (by simp)
    · rw [Function.update_of_ne different] at owns
      exact ownedBound owner other owns
  · intro first second other firstOwns secondOwns
    by_cases firstTakes : first = taker <;> by_cases secondTakes : second = taker
    · rw [firstTakes, secondTakes]
    · rw [firstTakes, Function.update_self] at firstOwns
      rw [Function.update_of_ne secondTakes, ← firstOwns] at secondOwns
      exact absurd secondOwns (notOwned second)
    · rw [secondTakes, Function.update_self] at secondOwns
      rw [Function.update_of_ne firstTakes, ← secondOwns] at firstOwns
      exact absurd firstOwns (notOwned first)
    · rw [Function.update_of_ne firstTakes] at firstOwns
      rw [Function.update_of_ne secondTakes] at secondOwns
      exact exclusive first second other firstOwns secondOwns
  · intro owner other owns
    rcases eq_or_ne owner taker with rfl | different
    · rw [Function.update_self] at owns
      cases owns
      exact fresh
    · rw [Function.update_of_ne different] at owns
      exact fun member => disjoint owner other owns (by simp [member])
  · intro other inside
    rcases complete other inside with member | ⟨owner, owns⟩
    · rcases List.mem_cons.mp member with rfl | member
      · exact .inr ⟨taker, Function.update_self ..⟩
      · exact .inl member
    · have different : owner ≠ taker := by
        rintro rfl
        rw [idle] at owns
        cases owns
      exact .inr ⟨owner, by rw [Function.update_of_ne different, owns]⟩

/-- Give an owned slot back, at the end of the free list. -/
theorem give (partition : SlotPartition n free owned) (giver : κ) {slot : Nat}
    (owns : owned giver = some slot) :
    SlotPartition n (free ++ [slot]) (Function.update owned giver none) := by
  obtain ⟨nodup, freeBound, ownedBound, exclusive, disjoint, complete⟩ := partition
  have still : ∀ owner other, Function.update owned giver none owner = some other →
      owner ≠ giver ∧ owned owner = some other := by
    intro owner other owns'
    rcases eq_or_ne owner giver with rfl | different
    · rw [Function.update_self] at owns'
      cases owns'
    · exact ⟨different, by rwa [Function.update_of_ne different] at owns'⟩
  refine ⟨?_, ?_, ?_, ?_, ?_, ?_⟩
  · refine List.nodup_append.mpr ⟨nodup, by simp, ?_⟩
    intro other inFree last isSlot same
    obtain rfl := List.mem_singleton.mp isSlot
    subst same
    exact disjoint giver other owns inFree
  · intro other member
    rcases List.mem_append.mp member with member | member
    · exact freeBound other member
    · obtain rfl := List.mem_singleton.mp member
      exact ownedBound giver other owns
  · intro owner other owns'
    exact ownedBound owner other (still owner other owns').2
  · intro first second other firstOwns secondOwns
    exact exclusive first second other (still _ _ firstOwns).2 (still _ _ secondOwns).2
  · intro owner other owns' member
    obtain ⟨different, owns'⟩ := still owner other owns'
    rcases List.mem_append.mp member with member | member
    · exact disjoint owner other owns' member
    · obtain rfl := List.mem_singleton.mp member
      exact different (exclusive owner giver other owns' owns)
  · intro other inside
    rcases complete other inside with member | ⟨owner, owns'⟩
    · exact .inl (by simp [member])
    · rcases eq_or_ne owner giver with rfl | different
      · rw [owns] at owns'
        cases owns'
        exact .inl (by simp)
      · exact .inr ⟨owner, by rw [Function.update_of_ne different, owns']⟩

end SlotPartition

end Hoarder.Foundation
