/-
Module: Hoarder.Foundation.SlotHandover
Purpose: Two parties that share a table of slots and see each other's actions late.  One party
  occupies a free slot or vacates an occupied one, and reports it; the other learns of it when it
  takes the report from the front of a queue.  As long as reports arrive in order, every occupied
  slot has exactly one holder, and there is room for every report.
Trusted boundary: none
Main exports: Report, SlotHandover, SlotHandover.accept, SlotHandover.release, SlotHandover.settle,
  SlotHandover.leave, SlotHandover.existsUnique_holder, SlotHandover.card_lt
-/
import Mathlib

namespace Hoarder.Foundation

/-- What the queue reports: a slot was occupied, or the slot of an owner was vacated. -/
inductive Report (κ Slot : Type*) where
  | accepted (slot : Slot)
  | released (owner : κ)
deriving DecidableEq

variable {κ Slot : Type*}

/-- The owners as the party that reads the reports sees them, the reports it has not taken, and the
slots that are occupied. -/
structure SlotHandover (table : Finset Slot) (owned : κ → Option Slot)
    (pending : List (Report κ Slot)) (occupied : Finset Slot) : Prop where
  exclusive : ∀ owner other slot,
    owned owner = some slot → owned other = some slot → owner = other
  ownedInside : ∀ owner slot, owned owner = some slot → slot ∈ table
  acceptedInside : ∀ slot, .accepted slot ∈ pending → slot ∈ table
  nodup : pending.Nodup
  live : ∀ owner, .released owner ∈ pending → (owned owner).isSome
  ordered : ∀ owner slot, owned owner = some slot → .accepted slot ∈ pending →
    [.released owner, .accepted slot].Sublist pending
  occupied : ∀ slot, slot ∈ occupied ↔
    .accepted slot ∈ pending ∨ ∃ owner, owned owner = some slot ∧ .released owner ∉ pending

/-- Who holds a slot: an owner, or the report at a place of the queue. -/
inductive Holder (κ : Type*) where
  | owner (who : κ)
  | report (place : Nat)

/-- An owner holds its slot until that is vacated; a report that a slot was occupied holds it. -/
def Holder.Holds (owned : κ → Option Slot) (pending : List (Report κ Slot)) (slot : Slot) :
    Holder κ → Prop
  | .owner who => owned who = some slot ∧ .released who ∉ pending
  | .report place => pending[place]? = some (.accepted slot)

namespace SlotHandover

variable {table occupied : Finset Slot} {owned : κ → Option Slot}
  {pending : List (Report κ Slot)} {owner : κ} {slot : Slot}

/-- Nobody owns a slot, and nothing was reported. -/
theorem initial : SlotHandover table (fun _ : κ => none) [] (∅ : Finset Slot) := by
  constructor <;> simp

/-- A slot an owner still holds is not reported as occupied. -/
theorem not_accepted (handover : SlotHandover table owned pending occupied)
    (owns : owned owner = some slot) (holds : .released owner ∉ pending) :
    .accepted slot ∉ pending := by
  intro accepted
  exact holds ((handover.ordered owner slot owns accepted).subset (by simp))

/-- An occupied slot has exactly one holder. -/
theorem existsUnique_holder (handover : SlotHandover table owned pending occupied) :
    slot ∈ occupied ↔ ∃! holder : Holder κ, holder.Holds owned pending slot := by
  constructor
  · intro isOccupied
    rcases (handover.occupied slot).mp isOccupied with accepted | ⟨owner, owns, holds⟩
    · obtain ⟨place, found⟩ := List.mem_iff_getElem?.mp accepted
      refine ⟨.report place, found, ?_⟩
      rintro (other | other) (holdsOther : Holder.Holds owned pending slot _)
      · exact absurd accepted (handover.not_accepted holdsOther.1 holdsOther.2)
      · have inside := (List.getElem?_eq_some_iff.mp found).1
        have samePlace := (List.getElem?_inj inside handover.nodup).mp (found.trans holdsOther.symm)
        exact congrArg Holder.report samePlace.symm
    · refine ⟨.owner owner, ⟨owns, holds⟩, ?_⟩
      rintro (other | other) holdsOther
      · exact congrArg Holder.owner (handover.exclusive other owner slot holdsOther.1 owns)
      · exact absurd (List.mem_iff_getElem?.mpr ⟨other, holdsOther⟩)
          (handover.not_accepted owns holds)
  · rintro ⟨holder | place, holds, _⟩
    · exact (handover.occupied slot).mpr (.inr ⟨holder, holds⟩)
    · exact (handover.occupied slot).mpr (.inl (List.mem_iff_getElem?.mpr ⟨place, holds⟩))

/-- Nobody owns the slot that the report at the front says was occupied. -/
theorem not_owned (handover : SlotHandover table owned (.accepted slot :: pending) occupied)
    (owner : κ) : owned owner ≠ some slot := by
  intro owns
  have before := handover.ordered owner slot owns (by simp)
  have later := (List.cons_sublist_cons'.mp before).resolve_right (by simp)
  have again : .accepted slot ∈ pending := later.subset (by simp)
  exact (List.nodup_cons.mp handover.nodup).1 again

/-- With a report that a slot was occupied at the front, fewer owners than slots. -/
theorem card_lt (handover : SlotHandover table owned (.accepted slot :: pending) occupied)
    (owners : Finset κ) (all : ∀ owner ∈ owners, (owned owner).isSome) :
    owners.card < table.card := by
  classical
  have inTable : slot ∈ table := handover.acceptedInside slot (by simp)
  have card_le : owners.card ≤ (table.erase slot).card := by
    apply Finset.card_le_card_of_injOn fun owner => (owned owner).getD slot
    · intro owner member
      obtain ⟨held, owns⟩ := Option.isSome_iff_exists.mp (all owner member)
      have different : held ≠ slot := by
        rintro rfl
        exact handover.not_owned owner owns
      simpa [owns, different] using handover.ownedInside owner held owns
    · intro first firstMember second secondMember same
      obtain ⟨held, firstOwns⟩ := Option.isSome_iff_exists.mp (all first firstMember)
      obtain ⟨other, secondOwns⟩ := Option.isSome_iff_exists.mp (all second secondMember)
      simp only [firstOwns, secondOwns, Option.getD_some] at same
      subst same
      exact handover.exclusive first second held firstOwns secondOwns
  exact Nat.lt_of_le_of_lt card_le (Finset.card_erase_lt_of_mem inTable)

section Actions

variable [DecidableEq Slot]

/-- A free slot is occupied, and that is reported. -/
theorem accept (handover : SlotHandover table owned pending occupied) (inTable : slot ∈ table)
    (free : slot ∉ occupied) :
    SlotHandover table owned (pending ++ [.accepted slot]) (insert slot occupied) := by
  have notPending : .accepted slot ∉ pending := fun accepted =>
    free ((handover.occupied slot).mpr (.inl accepted))
  obtain ⟨exclusive, ownedInside, acceptedInside, nodup, live, ordered, isOccupied⟩ := handover
  refine ⟨exclusive, ownedInside, ?_, ?_, ?_, ?_, ?_⟩
  · intro other accepted
    simp only [List.mem_append, List.mem_singleton, Report.accepted.injEq] at accepted
    rcases accepted with accepted | rfl
    · exact acceptedInside other accepted
    · exact inTable
  · rw [← List.concat_eq_append, List.nodup_concat]
    exact ⟨notPending, nodup⟩
  · intro owner released
    exact live owner (by simpa using released)
  · intro owner other owns accepted
    by_cases before : .accepted other ∈ pending
    · exact (ordered owner other owns before).trans (List.sublist_append_left ..)
    · obtain rfl : other = slot := by simpa [before] using accepted
      have released : .released owner ∈ pending := by
        by_contra holds
        exact free ((isOccupied other).mpr (.inr ⟨owner, owns, holds⟩))
      exact (List.singleton_sublist.mpr released).append (List.Sublist.refl [_])
  · intro other
    rw [Finset.mem_insert, isOccupied other]
    simp only [List.mem_append, List.mem_singleton, Report.accepted.injEq, reduceCtorEq, or_false]
    tauto

/-- The slot of an owner that holds it is vacated, and that is reported. -/
theorem release (handover : SlotHandover table owned pending occupied)
    (owns : owned owner = some slot) (holds : .released owner ∉ pending) :
    SlotHandover table owned (pending ++ [.released owner]) (occupied.erase slot) := by
  have notAccepted := handover.not_accepted owns holds
  obtain ⟨exclusive, ownedInside, acceptedInside, nodup, live, ordered, isOccupied⟩ := handover
  refine ⟨exclusive, ownedInside, ?_, ?_, ?_, ?_, ?_⟩
  · intro other accepted
    exact acceptedInside other (by simpa using accepted)
  · rw [← List.concat_eq_append, List.nodup_concat]
    exact ⟨holds, nodup⟩
  · intro other released
    simp only [List.mem_append, List.mem_singleton, Report.released.injEq] at released
    rcases released with released | rfl
    · exact live other released
    · simp [owns]
  · intro other held ownsOther accepted
    exact (ordered other held ownsOther (by simpa using accepted)).trans
      (List.sublist_append_left ..)
  · intro other
    rw [Finset.mem_erase, isOccupied other]
    simp only [List.mem_append, List.mem_singleton, reduceCtorEq, or_false,
      Report.released.injEq, not_or]
    constructor
    · rintro ⟨different, accepted | ⟨holder, ownsHolder, holder_holds⟩⟩
      · exact .inl accepted
      · refine .inr ⟨holder, ownsHolder, holder_holds, ?_⟩
        rintro rfl
        rw [owns] at ownsHolder
        exact different (Option.some.inj ownsHolder).symm
    · rintro (accepted | ⟨holder, ownsHolder, holder_holds, different⟩)
      · refine ⟨?_, .inl accepted⟩
        rintro rfl
        exact notAccepted accepted
      · refine ⟨?_, .inr ⟨holder, ownsHolder, holder_holds⟩⟩
        rintro rfl
        exact different (exclusive holder owner other ownsHolder owns)

end Actions

section Reports

variable [DecidableEq κ]

/-- The report that a slot was occupied is taken: the slot goes to a new owner. -/
theorem settle (handover : SlotHandover table owned (.accepted slot :: pending) occupied)
    (fresh : owned owner = none) :
    SlotHandover table (Function.update owned owner (some slot)) pending occupied := by
  have notOwned := handover.not_owned
  have notReleased : .released owner ∉ pending := by
    intro released
    have := handover.live owner (by simp [released])
    simp [fresh] at this
  obtain ⟨exclusive, ownedInside, acceptedInside, nodup, live, ordered, isOccupied⟩ := handover
  obtain ⟨notAgain, nodup⟩ := List.nodup_cons.mp nodup
  have cases' : ∀ other held, Function.update owned owner (some slot) other = some held →
      (other = owner ∧ held = slot) ∨ (other ≠ owner ∧ owned other = some held) := by
    intro other held owns
    rcases eq_or_ne other owner with rfl | different
    · rw [Function.update_self] at owns
      exact .inl ⟨rfl, (Option.some.inj owns).symm⟩
    · rw [Function.update_of_ne different] at owns
      exact .inr ⟨different, owns⟩
  refine ⟨?_, ?_, ?_, nodup, ?_, ?_, ?_⟩
  · intro first second held firstOwns secondOwns
    rcases cases' first held firstOwns with ⟨rfl, rfl⟩ | ⟨_, firstOwned⟩ <;>
      rcases cases' second _ secondOwns with ⟨rfl, same⟩ | ⟨_, secondOwned⟩
    · rfl
    · exact absurd secondOwned (notOwned second)
    · subst same
      exact absurd firstOwned (notOwned first)
    · exact exclusive first second held firstOwned secondOwned
  · intro other held owns
    rcases cases' other held owns with ⟨_, rfl⟩ | ⟨_, owned⟩
    · exact acceptedInside held (by simp)
    · exact ownedInside other held owned
  · intro other accepted
    exact acceptedInside other (by simp [accepted])
  · intro other released
    have different : other ≠ owner := by
      rintro rfl
      exact notReleased released
    rw [Function.update_of_ne different]
    exact live other (by simp [released])
  · intro other held owns accepted
    rcases cases' other held owns with ⟨_, rfl⟩ | ⟨_, owned⟩
    · exact absurd accepted notAgain
    · have before := ordered other held owned (by simp [accepted])
      exact (List.cons_sublist_cons'.mp before).resolve_right (by simp)
  · intro other
    rw [isOccupied other]
    constructor
    · rintro (accepted | ⟨holder, owns, holds⟩)
      · rcases List.mem_cons.mp accepted with same | accepted
        · cases same
          exact .inr ⟨owner, Function.update_self .., notReleased⟩
        · exact .inl accepted
      · have different : holder ≠ owner := by
          rintro rfl
          rw [fresh] at owns
          cases owns
        exact .inr ⟨holder, by rw [Function.update_of_ne different, owns],
          fun released => holds (List.mem_cons_of_mem _ released)⟩
    · rintro (accepted | ⟨holder, owns, holds⟩)
      · exact .inl (by simp [accepted])
      · rcases cases' holder other owns with ⟨_, rfl⟩ | ⟨_, owned⟩
        · exact .inl (by simp)
        · exact .inr ⟨holder, owned, by simpa using holds⟩

/-- The report that the slot of an owner was vacated is taken: the owner leaves. -/
theorem leave (handover : SlotHandover table owned (.released owner :: pending) occupied) :
    SlotHandover table (Function.update owned owner none) pending occupied := by
  obtain ⟨exclusive, ownedInside, acceptedInside, nodup, live, ordered, isOccupied⟩ := handover
  obtain ⟨notAgain, nodup⟩ := List.nodup_cons.mp nodup
  have still : ∀ other held, Function.update owned owner none other = some held →
      other ≠ owner ∧ owned other = some held := by
    intro other held owns
    rcases eq_or_ne other owner with rfl | different
    · rw [Function.update_self] at owns
      cases owns
    · exact ⟨different, by rwa [Function.update_of_ne different] at owns⟩
  refine ⟨?_, ?_, ?_, nodup, ?_, ?_, ?_⟩
  · intro first second held firstOwns secondOwns
    exact exclusive first second held (still first held firstOwns).2 (still second held secondOwns).2
  · intro other held owns
    exact ownedInside other held (still other held owns).2
  · intro other accepted
    exact acceptedInside other (by simp [accepted])
  · intro other released
    have different : other ≠ owner := by
      rintro rfl
      exact notAgain released
    rw [Function.update_of_ne different]
    exact live other (by simp [released])
  · intro other held owns accepted
    obtain ⟨different, owned⟩ := still other held owns
    have before := ordered other held owned (by simp [accepted])
    exact (List.cons_sublist_cons'.mp before).resolve_right (by simp [different])
  · intro other
    rw [isOccupied other]
    constructor
    · rintro (accepted | ⟨holder, owns, holds⟩)
      · exact .inl (by simpa using accepted)
      · have different : holder ≠ owner := by
          rintro rfl
          exact holds (by simp)
        exact .inr ⟨holder, by rw [Function.update_of_ne different, owns],
          fun released => holds (List.mem_cons_of_mem _ released)⟩
    · rintro (accepted | ⟨holder, owns, holds⟩)
      · exact .inl (by simp [accepted])
      · obtain ⟨different, owned⟩ := still holder other owns
        exact .inr ⟨holder, owned, by simpa [different] using holds⟩

end Reports

end SlotHandover

end Hoarder.Foundation
