/-
Module: Hoarder.Foundation.Reservation
Purpose: Reservations against a capacity.  Several parties reserve an amount first and use it later;
  the use stays within the capacity whichever reservations are honoured, in whatever order.
Trusted boundary: none
Main exports: Reservation.Within, Reservation.Within.used_le, Reservation.Within.mono,
  Reservation.Within.reserve, Reservation.Within.commit
-/
import Mathlib

namespace Hoarder.Foundation.Reservation

variable {ι A : Type*} [AddCommMonoid A] [PartialOrder A]
  {capacity used used' amount : A} {reserved reserved' : ι → A}

/-- Whichever reservations are honoured, the use stays within the capacity. -/
def Within (capacity used : A) (reserved : ι → A) : Prop :=
  ∀ honoured : Finset ι, used + ∑ party ∈ honoured, reserved party ≤ capacity

theorem Within.used_le (within : Within capacity used reserved) : used ≤ capacity := by
  simpa using within ∅

/-- A single reservation can be honoured. -/
theorem Within.single_le (within : Within capacity used reserved) (party : ι) :
    used + reserved party ≤ capacity := by
  simpa using within {party}

/-- Giving back what was used or reserved keeps within the capacity. -/
theorem Within.mono [IsOrderedAddMonoid A] (within : Within capacity used reserved)
    (less : used' ≤ used) (fewer : ∀ party, reserved' party ≤ reserved party) :
    Within capacity used' reserved' := by
  intro honoured
  calc used' + ∑ party ∈ honoured, reserved' party
      ≤ used + ∑ party ∈ honoured, reserved party :=
        add_le_add less (Finset.sum_le_sum fun party _ => fewer party)
    _ ≤ capacity := within honoured

variable [DecidableEq ι]

/-- A party reserves an amount that fits beside all other reservations. -/
theorem Within.reserve (within : Within capacity used reserved) {party : ι}
    (room : ∀ honoured : Finset ι, party ∉ honoured →
      used + amount + ∑ second ∈ honoured, reserved second ≤ capacity) :
    Within capacity used (Function.update reserved party amount) := by
  intro honoured
  by_cases member : party ∈ honoured
  · have fits := room (honoured \ {party}) (by simp)
    rw [Finset.sum_update_of_mem member, ← add_assoc]
    exact fits
  · rw [Finset.sum_update_of_notMem member]
    exact within honoured

/-- A party uses what it has reserved. -/
theorem Within.commit (within : Within capacity used reserved) (party : ι) :
    Within capacity (used + reserved party) (Function.update reserved party 0) := by
  intro honoured
  have apart : party ∉ honoured \ {party} := by simp
  have rest : ∑ second ∈ honoured, Function.update reserved party 0 second =
      ∑ second ∈ honoured \ {party}, reserved second := by
    by_cases member : party ∈ honoured
    · rw [Finset.sum_update_of_mem member, zero_add]
    · rw [Finset.sum_update_of_notMem member, Finset.sdiff_singleton_eq_erase, Finset.erase_eq_of_notMem member]
  have fits := within (insert party (honoured \ {party}))
  rw [Finset.sum_insert apart, ← add_assoc] at fits
  rw [rest]
  exact fits

end Hoarder.Foundation.Reservation
