/-
Module: Hoarder.Proofs.Layout
Purpose: The layouts of the aligned buffers against what `from_size_align_unchecked` and the global
  allocator ask for.  The assertions of `new` leave out that the size is positive and fits in an
  `isize`; with these two added every layout is valid and every buffer lies inside its allocation.
Trusted boundary: none
Main exports: Layout.roundUp, Layout.Valid, AlignedBuffers.LayoutSound,
  AlignedBuffers.layoutSound_iff, AlignedBuffers.new_layout, AlignedBuffers.layout_iff
-/
import Hoarder.Core.Logger
import Hoarder.Foundation.Outcome

namespace Hoarder

open Foundation

namespace Layout

/-- The least multiple of the alignment that is not below the size. -/
def roundUp (size align : Nat) : Nat := (size + (align - 1)) / align * align

theorem roundUp_of_dvd {size align : Nat} (positive : 0 < align) (divides : align ∣ size) :
    roundUp size align = size := by
  obtain ⟨count, rfl⟩ := divides
  have padding : (align - 1) / align = 0 := Nat.div_eq_of_lt (Nat.sub_lt positive Nat.one_pos)
  rw [roundUp, Nat.mul_add_div positive, padding, Nat.add_zero, Nat.mul_comm]

/-- The documented conditions: of `from_size_align_unchecked` on the alignment and the rounded size,
of the global allocator on the size. -/
structure Valid (layout : Layout) : Prop where
  powerOfTwo : AlignedBuffers.isPowerOfTwo layout.align = true
  rounded : roundUp layout.size layout.align ≤ isizeMax
  nonZero : 0 < layout.size

end Layout

namespace AlignedBuffers

variable {count bufSize alignment : Nat} {layout : Layout}

theorem isPowerOfTwo_pos {n : Nat} (power : isPowerOfTwo n = true) : 0 < n := by
  simp only [isPowerOfTwo, Bool.and_eq_true, decide_eq_true_eq] at power
  exact Nat.pos_of_ne_zero power.1

/-- The layout is valid, and the buffers it is for lie inside it, at offsets that do not overflow. -/
structure LayoutSound (count bufSize : Nat) (layout : Layout) : Prop where
  valid : layout.Valid
  inside : ∀ index < count, index * bufSize < usizeRange ∧ index * bufSize + bufSize ≤ layout.size

/-- What the assertions of `new` say. -/
theorem newLayout_eq_ok : newLayout count bufSize alignment = .ok layout ↔
    count * bufSize < usizeRange ∧ isPowerOfTwo alignment = true ∧ alignment ∣ bufSize ∧
      layout = { size := count * bufSize, align := alignment } := by
  simp only [newLayout, Nat.dvd_iff_mod_eq_zero]
  split
  · rename_i passed
    simp only [Except.ok.injEq, eq_comm, passed, true_and]
  · rename_i failed
    simp only [reduceCtorEq, false_iff]
    exact fun passed => failed ⟨passed.1, passed.2.1, passed.2.2.1⟩

/-- The buffers lie inside the layout, whatever the parameters that pass the assertions. -/
theorem index_inside (passed : newLayout count bufSize alignment = .ok layout) {index : Nat}
    (small : index < count) :
    index * bufSize < usizeRange ∧ index * bufSize + bufSize ≤ layout.size := by
  obtain ⟨fits, _, _, rfl⟩ := newLayout_eq_ok.mp passed
  have next : index * bufSize + bufSize ≤ count * bufSize := by
    rw [← Nat.succ_mul]
    exact Nat.mul_le_mul_right bufSize small
  exact ⟨by omega, next⟩

/-- The layout is sound exactly if the size is positive and fits in an `isize`. -/
theorem layoutSound_iff (passed : newLayout count bufSize alignment = .ok layout) :
    LayoutSound count bufSize layout ↔
      count ≠ 0 ∧ bufSize ≠ 0 ∧ count * bufSize ≤ isizeMax := by
  have inside : ∀ index < count,
      index * bufSize < usizeRange ∧ index * bufSize + bufSize ≤ layout.size :=
    fun index small => index_inside passed small
  obtain ⟨_, power, divides, rfl⟩ := newLayout_eq_ok.mp passed
  have rounded : Layout.roundUp (count * bufSize) alignment = count * bufSize :=
    Layout.roundUp_of_dvd (isPowerOfTwo_pos power) (divides.mul_left count)
  constructor
  · intro sound
    have positive := Nat.pos_iff_ne_zero.mp sound.valid.nonZero
    have fits := sound.valid.rounded
    rw [rounded] at fits
    exact ⟨left_ne_zero_of_mul positive, right_ne_zero_of_mul positive, fits⟩
  · rintro ⟨some, sized, fits⟩
    exact ⟨⟨power, by rwa [rounded], Nat.pos_of_ne_zero (Nat.mul_ne_zero some sized)⟩, inside⟩

/-- A `new` that returned has asked for this layout, and `Drop` gives the memory back with it. -/
theorem new_layout {raw : Option (Nat × (Nat → UInt8))} {self : AlignedBuffers}
    (made : new count bufSize alignment raw = .ok (.ok self)) :
    newLayout count bufSize alignment = .ok self.dropLayout ∧ self.bufSize = bufSize ∧
      self.count = count := by
  simp only [new] at made
  split at made
  · rename_i passed
    split at made <;> cases made
    exact ⟨by rw [newLayout, if_pos passed]; rfl, rfl, rfl⟩
  · cases made

/-- For all parameters that pass the assertions: the layout is sound exactly if the size is positive
and fits in an `isize`, and it is the one that `Drop` uses.  For the callers this says that
`Logger::new` is right up to `isize::MAX` bytes, and `BufferPool::new` for all counts but zero. -/
theorem layout_iff (passed : newLayout count bufSize alignment = .ok layout) :
    (LayoutSound count bufSize layout ↔
      count ≠ 0 ∧ bufSize ≠ 0 ∧ count * bufSize ≤ isizeMax) ∧
    (∀ index < count, index * bufSize < usizeRange ∧ index * bufSize + bufSize ≤ layout.size) ∧
    (∀ raw self, new count bufSize alignment raw = .ok (.ok self) →
      self.dropLayout = layout ∧
        ∀ index < count, self.bufPtr index = .ok (self.ptr + index * bufSize)) ∧
    (∀ logSize logLayout, 0x1000 ≤ logSize → newLayout 1 logSize 0x1000 = .ok logLayout →
      (LayoutSound 1 logSize logLayout ↔ logSize ≤ isizeMax)) ∧
    ∀ bufCount : UInt32, ∃ poolLayout, newLayout bufCount.toNat 0x1000 0x1000 = .ok poolLayout ∧
      (LayoutSound bufCount.toNat 0x1000 poolLayout ↔ bufCount ≠ 0) := by
  refine ⟨layoutSound_iff passed, fun index small => index_inside passed small, ?_, ?_, ?_⟩
  · intro raw self made
    obtain ⟨asked, sized, counted⟩ := new_layout made
    rw [passed, Except.ok.injEq] at asked
    refine ⟨asked.symm, fun index small => ?_⟩
    rw [bufPtr, counted, if_pos small, sized]
  · intro logSize logLayout large asked
    rw [layoutSound_iff asked, Nat.one_mul]
    exact ⟨fun sound => sound.2.2, fun fits => ⟨Nat.one_ne_zero, by omega, fits⟩⟩
  · intro bufCount
    have few := UInt32.toNat_lt bufCount
    have fits : bufCount.toNat * 0x1000 ≤ isizeMax := by
      have : isizeMax = 0x7FFFFFFFFFFFFFFF := rfl
      omega
    have asked : newLayout bufCount.toNat 0x1000 0x1000 =
        .ok { size := bufCount.toNat * 0x1000, align := 0x1000 } :=
      newLayout_eq_ok.mpr
        ⟨Nat.lt_of_le_of_lt fits (by decide), by decide, dvd_refl 0x1000, rfl⟩
    have zero : bufCount.toNat ≠ 0 ↔ bufCount ≠ 0 :=
      not_congr ⟨fun same => UInt32.toNat_inj.mp same, congrArg UInt32.toNat⟩
    refine ⟨_, asked, ?_⟩
    rw [layoutSound_iff asked, ← zero]
    exact ⟨fun sound => sound.1, fun some => ⟨some, by decide, fits⟩⟩

/-- Two buffers of a page. -/
theorem layout_iff_two :
    newLayout 2 0x1000 0x1000 = .ok ⟨0x2000, 0x1000⟩ ∧ LayoutSound 2 0x1000 ⟨0x2000, 0x1000⟩ := by
  have passed : newLayout 2 0x1000 0x1000 = .ok ⟨0x2000, 0x1000⟩ := by decide
  exact ⟨passed, (layout_iff passed).1.mpr (by decide)⟩

/-- No buffers pass the assertions with a layout of size zero, and `BufferPool::new(0)` asks for it;
one buffer of `2 ^ 63` bytes passes them with a size above `isize::MAX`, and `Logger::new` asks for
it. -/
theorem invalid_layouts :
    (newLayout 0 0x1000 0x1000 = .ok ⟨0, 0x1000⟩ ∧ ¬ (⟨0, 0x1000⟩ : Layout).Valid) ∧
      newLayout 1 (2 ^ 63) 0x1000 = .ok ⟨2 ^ 63, 0x1000⟩ ∧
        ¬ (⟨2 ^ 63, 0x1000⟩ : Layout).Valid ∧
        ∃ logger, Logger.new (2 ^ 63) (fun _ => some (0x1000, fun _ => 0)) = .ok (.ok logger) := by
  refine ⟨⟨by decide, fun valid => ?_⟩, by decide, fun valid => ?_, _, rfl⟩
  · exact absurd valid.nonZero (by decide)
  · exact absurd valid.rounded (by decide)

end AlignedBuffers

end Hoarder
