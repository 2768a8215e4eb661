/-
Module: Hoarder.Proofs.AnyIds
Purpose: The generational allocator under calls with any ids.  `Counted` ties the generation of a slot
  to the number of times it was freed, modulo the width of the counter; an id that was freed comes
  back exactly when that number has gone round.  `Held` says that the outstanding ids own the slots
  that are not free; it survives every call but one on a forged id, which carries the current
  generation of a slot on the free list.
Trusted boundary: none
Main exports: AnyIds.machine, AnyIds.Counted, AnyIds.retired_until_wrap, AnyIds.State.Forged,
  AnyIds.notForged, AnyIds.State.Guarded, AnyIds.presented_guarded_iff
-/
import Hoarder.Proofs.AllocHistory

namespace Hoarder.AnyIds

open Foundation

/-- The calls a client makes. -/
inductive Call where
  | alloc
  | isValid (id : GenId)
  | free (id : GenId)
deriving DecidableEq, Repr

/-- The allocator with its history: the ids it has returned that were not freed since, how often each
slot was freed, and the freed ids, each with the number of times its slot was freed before. -/
structure State where
  allocator : GenAlloc
  outstanding : List GenId
  frees : Nat → Nat
  retired : List (GenId × Nat)

/-- One call.  A call that panics is not taken: the run ends there. -/
def step (s : State) : Call → Option State
  | .alloc =>
      match s.allocator.alloc with
      | .ok (some id, allocator) =>
          some { s with allocator := allocator, outstanding := id :: s.outstanding }
      | .ok (none, allocator) => some { s with allocator := allocator }
      | .error _ => none
  | .isValid _ => some s
  | .free id =>
      match s.allocator.free id with
      | .ok (true, allocator) =>
          let slot := id.index.toNat
          some
            { allocator := allocator
              outstanding := s.outstanding.filter (· ≠ id)
              frees := Function.update s.frees slot (s.frees slot + 1)
              retired := (id, s.frees slot) :: s.retired }
      | .ok (false, allocator) => some { s with allocator := allocator }
      | .error _ => none

/-- All histories of an allocator built with the given capacity and mask. -/
def machine (capacity mask : UInt32) : Machine State Call where
  initial s := ∃ a, GenAlloc.new capacity mask = .ok a ∧ s = ⟨a, [], fun _ => 0, []⟩
  step := step

variable {capacity mask : UInt32} {s s' : State} {id : GenId} {n : Nat}

/-- A call is an `alloc` that changes no generation, a question or a `free` that is refused, or a
`free` that is accepted and counted. -/
theorem step_cases {call : Call} (stepped : step s call = some s') :
    (∃ answer, call = .alloc ∧ s.allocator.alloc = .ok (answer, s'.allocator) ∧
      s'.outstanding = answer.toList ++ s.outstanding ∧ s'.frees = s.frees ∧
      s'.retired = s.retired) ∨
    ((∃ id, call = .isValid id ∨ (call = .free id ∧ s.allocator.isValid id = false)) ∧ s' = s) ∨
    ∃ id, call = .free id ∧ s.allocator.isValid id = true ∧
      s.allocator.free id = .ok (true, s'.allocator) ∧
      s'.outstanding = s.outstanding.filter (· ≠ id) ∧
      s'.frees = Function.update s.frees id.index.toNat (s.frees id.index.toNat + 1) ∧
      s'.retired = (id, s.frees id.index.toNat) :: s.retired := by
  cases call with
  | alloc =>
      simp only [step] at stepped
      split at stepped <;> cases stepped
      · rename_i id allocator ran
        exact .inl ⟨some id, rfl, ran, rfl, rfl, rfl⟩
      · rename_i allocator ran
        exact .inl ⟨none, rfl, ran, rfl, rfl, rfl⟩
  | isValid id =>
      cases stepped
      exact .inr (.inl ⟨⟨id, .inl rfl⟩, rfl⟩)
  | free id =>
      simp only [step] at stepped
      split at stepped <;> cases stepped
      · rename_i allocator ran
        rcases GenAlloc.free_inv ran with ⟨_, refused, _⟩ | ⟨valid, _⟩
        · cases refused
        · exact .inr (.inr ⟨id, rfl, valid, ran, rfl, rfl, rfl⟩)
      · rename_i allocator ran
        rcases GenAlloc.free_inv ran with ⟨invalid, _, rfl⟩ | ⟨_, accepted, _⟩
        · exact .inr (.inl ⟨⟨id, .inr ⟨rfl, invalid⟩⟩, rfl⟩)
        · cases accepted

/-! ### Generations count modulo their width -/

/-- The generation of a slot is the number of times it was freed, and a freed id carries the number
of times its slot had been freed before, both modulo the width of a generation. -/
structure Counted (s : State) : Prop where
  current : ∀ slot < s.allocator.capacity,
    s.allocator.generation[slot]? = some (UInt32.ofNat (s.frees slot))
  inside : ∀ id n, (id, n) ∈ s.retired → id.index.toNat < s.allocator.capacity
  carried : ∀ id n, (id, n) ∈ s.retired → id.generation = UInt32.ofNat n
  before : ∀ id n, (id, n) ∈ s.retired → n < s.frees id.index.toNat

theorem ofNat_succ (n : Nat) : UInt32.ofNat n + 1 = UInt32.ofNat (n + 1) := by
  apply UInt32.toNat_inj.mp
  rw [UInt32.toNat_add, UInt32.toNat_ofNat', UInt32.toNat_ofNat']
  have one : (1 : UInt32).toNat = 1 := rfl
  omega

/-- A valid id carries the count of its slot. -/
theorem Counted.generation_eq (counted : Counted s) (valid : s.allocator.isValid id = true) :
    id.generation = UInt32.ofNat (s.frees id.index.toNat) := by
  have found := GenAlloc.isValid_iff.mp valid
  rw [counted.current _ (GenAlloc.isValid.index_lt valid), Option.some.injEq] at found
  exact found.symm

/-- Every call keeps the count. -/
theorem Counted.step {call : Call} (counted : Counted s) (stepped : step s call = some s') :
    Counted s' := by
  rcases step_cases stepped with
    ⟨answer, _, ran, _, frees, retired⟩ | ⟨_, rfl⟩ |
      ⟨id, _, valid, ran, _, frees, retired⟩
  · have generation := GenAlloc.alloc_generation ran
    have sameCapacity : s'.allocator.capacity = s.allocator.capacity :=
      congrArg Array.size generation
    constructor
    · rw [sameCapacity, generation, frees]
      exact counted.current
    · rw [sameCapacity, retired]
      exact counted.inside
    · rw [retired]
      exact counted.carried
    · rw [frees, retired]
      exact counted.before
  · exact counted
  · have sameCapacity := GenAlloc.free_capacity ran
    have inside := GenAlloc.isValid.index_lt valid
    have carried := counted.generation_eq valid
    rcases GenAlloc.free_inv ran with ⟨_, refused, _⟩ | ⟨_, _, generation, _⟩
    · cases refused
    constructor
    · intro slot slotInside
      rw [sameCapacity] at slotInside
      rw [generation, frees]
      by_cases same : slot = id.index.toNat
      · subst same
        rw [Array.getElem?_setIfInBounds_self_of_lt inside, Function.update_self, carried,
          ofNat_succ]
      · rw [Array.getElem?_setIfInBounds_ne (Ne.symm same), Function.update_of_ne same]
        exact counted.current slot slotInside
    · rw [sameCapacity, retired]
      intro other m member
      rcases List.mem_cons.mp member with same | member
      · cases same
        exact inside
      · exact counted.inside other m member
    · rw [retired]
      intro other m member
      rcases List.mem_cons.mp member with same | member
      · cases same
        exact carried
      · exact counted.carried other m member
    · rw [retired, frees]
      intro other m member
      rcases List.mem_cons.mp member with same | member
      · cases same
        rw [Function.update_self]
        exact Nat.lt_succ_self _
      · have earlier := counted.before other m member
        by_cases same : other.index.toNat = id.index.toNat
        · rw [same, Function.update_self, ← same]
          exact Nat.lt_succ_of_lt earlier
        · rw [Function.update_of_ne same]
          exact earlier

theorem counted_initial (start : (machine capacity mask).initial s) : Counted s := by
  obtain ⟨a, made, rfl⟩ := start
  constructor
  · intro slot inside
    obtain ⟨generation, allocated, made⟩ := Outcome.bind_eq_ok.mp made
    obtain ⟨freeList, _, made⟩ := Outcome.bind_eq_ok.mp made
    cases made
    unfold newArray at allocated
    split at allocated
    · split at allocated <;> cases allocated
      rw [GenAlloc.capacity, Array.size_replicate] at inside
      rw [Array.getElem?_replicate, if_pos inside]
      rfl
    · cases allocated
  · simp
  · simp
  · simp

theorem counted_of_reach {guard : Machine.Guard State Call}
    (reached : (machine capacity mask).Reach guard s) : Counted s :=
  reached.invariant Counted (fun _ => counted_initial)
    fun _ _ _ counted stepped _ => counted.step stepped

/-- Counts agree as generations exactly if they agree modulo the width. -/
theorem ofNat_eq_iff {m n : Nat} (earlier : n ≤ m) :
    UInt32.ofNat m = UInt32.ofNat n ↔ 2 ^ 32 ∣ m - n := by
  rw [← UInt32.toNat_inj, UInt32.toNat_ofNat', UInt32.toNat_ofNat', ← Nat.modEq_iff_dvd' earlier]
  exact eq_comm

/-- A freed id is valid when the count of its slot has gone round since. -/
theorem Counted.isValid_iff (counted : Counted s) (retired : (id, n) ∈ s.retired) :
    s.allocator.isValid id = true ↔ 2 ^ 32 ∣ s.frees id.index.toNat - n := by
  rw [GenAlloc.isValid_iff, counted.current _ (counted.inside id n retired),
    counted.carried id n retired, Option.some.injEq,
    ofNat_eq_iff (Nat.le_of_lt (counted.before id n retired))]

/-- Any calls with any ids: an id that was freed is valid exactly when the number of times its slot
was freed since, that time included, is a multiple of `2 ^ 32`.  Until its slot has been freed that
often, `is_valid` and `free` refuse the id and `alloc` does not return it. -/
theorem retired_until_wrap (reached : (machine capacity mask).Reachable s)
    (retired : (id, n) ∈ s.retired) :
    n < s.frees id.index.toNat ∧
      (s.allocator.isValid id = true ↔ 2 ^ 32 ∣ s.frees id.index.toNat - n) ∧
      (s.frees id.index.toNat - n < 2 ^ 32 →
        s.allocator.isValid id = false ∧ s.allocator.free id = .ok (false, s.allocator) ∧
          ∀ a', s.allocator.alloc ≠ .ok (some id, a')) := by
  have counted := counted_of_reach reached
  have before := counted.before id n retired
  refine ⟨before, counted.isValid_iff retired, fun few => ?_⟩
  have invalid : s.allocator.isValid id = false := by
    rw [← Bool.not_eq_true, counted.isValid_iff retired]
    intro divides
    have := Nat.le_of_dvd (Nat.sub_pos_of_lt before) divides
    omega
  refine ⟨invalid, GenAlloc.free_invalid invalid, fun a' ran => ?_⟩
  obtain ⟨_, _, _, _, _, valid⟩ := GenAlloc.alloc_inv ran
  rw [valid id rfl] at invalid
  cases invalid

/-- One slot, freed once: its id is refused. -/
theorem retired_until_wrap_once :
    ∃ s, (machine 1 0).Reachable s ∧ (⟨0, 0⟩, 0) ∈ s.retired ∧
      s.allocator.isValid ⟨0, 0⟩ = false := by
  obtain ⟨a, made, _⟩ := GenAlloc.new_owns (κ := Unit)
    (show 0 < (GenAlloc.maskedCapacity 1 0).toNat by decide)
  have start : (machine 1 0).initial ⟨a, [], fun _ => 0, []⟩ := ⟨a, made, rfl⟩
  cases made
  obtain ⟨s, reached, ends⟩ := Machine.exists_reachable_of_run start [.alloc, .free ⟨0, 0⟩]
    (fun s => decide ((⟨0, 0⟩, 0) ∈ s.retired) && s.frees 0 == 1) rfl
  simp only [Bool.and_eq_true, decide_eq_true_eq, beq_iff_eq] at ends
  have few : s.frees (⟨0, 0⟩ : GenId).index.toNat - 0 < 2 ^ 32 := by
    change s.frees 0 - 0 < 2 ^ 32
    rw [ends.2]
    decide
  exact ⟨s, reached, ends.1, ((retired_until_wrap reached ends.1).2.2 few).1⟩

/-- One slot, allocated and freed `n` times: each time with the id of that round. -/
theorem rounds (n : Nat) :
    ∃ s, (machine 1 0).Reachable s ∧ s.allocator.Owns (fun _ : Unit => none) ∧
      s.allocator.capacity = 1 ∧ s.frees 0 = n ∧
      ∀ k < n, (⟨0, UInt32.ofNat k⟩, k) ∈ s.retired := by
  induction n with
  | zero =>
      obtain ⟨a, made, owns, capacityEq⟩ :=
        GenAlloc.new_owns (κ := Unit) (show 0 < (GenAlloc.maskedCapacity 1 0).toNat by decide)
      exact ⟨⟨a, [], fun _ => 0, []⟩, .initial ⟨a, made, rfl⟩, owns, capacityEq, rfl, by simp⟩
  | succ n inductionHypothesis =>
      obtain ⟨s, reached, owns, one, count, rounds⟩ := inductionHypothesis
      rcases owns.alloc_ok with ⟨_, noneFree⟩ | ⟨id, next, ran, valid, _⟩
      · have partition := owns.partition
        rw [noneFree, one] at partition
        obtain ⟨_, holds⟩ := partition.all_owned Nat.one_pos
        cases holds
      obtain ⟨_, generation, _, take⟩ := owns.alloc_some ran
      have owns' := take () rfl
      obtain ⟨last, ranFree, owns'', _⟩ :=
        owns'.free_owned (Function.update_self () (some id) fun _ => none)
      have index : id.index = 0 := by
        apply UInt32.toNat_inj.mp
        have inside := GenAlloc.isValid.index_lt valid
        rw [one] at inside
        exact Nat.lt_one_iff.mp inside
      have carried : id = ⟨0, UInt32.ofNat n⟩ := by
        have current := (counted_of_reach reached).generation_eq valid
        rw [index, show (0 : UInt32).toNat = 0 from rfl, count] at current
        cases id
        simp_all
      subst carried
      have allocated : step s .alloc =
          some
            { s with
              allocator := next, outstanding := ⟨0, UInt32.ofNat n⟩ :: s.outstanding } := by
        rw [step, ran]
      have freed := step.eq_3
        { s with allocator := next, outstanding := ⟨0, UInt32.ofNat n⟩ :: s.outstanding }
        ⟨0, UInt32.ofNat n⟩
      rw [ranFree] at freed
      refine ⟨_, .step (.free ⟨0, UInt32.ofNat n⟩)
        (.step .alloc reached allocated trivial) freed trivial, ?_, ?_, ?_, ?_⟩
      · exact owns''.congr fun _ => rfl
      · rw [GenAlloc.free_capacity ranFree, GenAlloc.capacity, generation]
        exact one
      · change Function.update s.frees 0 (s.frees 0 + 1) 0 = n + 1
        rw [Function.update_self, count]
      · intro k earlier
        rcases Nat.lt_succ_iff_lt_or_eq.mp earlier with before | rfl
        · exact List.mem_cons_of_mem _ (rounds k before)
        · rw [← count]
          exact List.mem_cons_self ..

/-- One slot, freed `2 ^ 32` times: the first id, freed long ago, is valid and allocated again. -/
theorem retired_comes_back :
    ∃ s, (machine 1 0).Reachable s ∧ (⟨0, 0⟩, 0) ∈ s.retired ∧
      s.allocator.isValid ⟨0, 0⟩ = true ∧ ∃ a', s.allocator.alloc = .ok (some ⟨0, 0⟩, a') := by
  obtain ⟨s, reached, owns, one, count, rounds⟩ := rounds (2 ^ 32)
  have retired : (⟨0, 0⟩, 0) ∈ s.retired := rounds 0 (Nat.two_pow_pos 32)
  have sameCount : s.frees (⟨0, 0⟩ : GenId).index.toNat = 2 ^ 32 := count
  have valid : s.allocator.isValid ⟨0, 0⟩ = true := by
    rw [(counted_of_reach reached).isValid_iff retired, sameCount]
    exact dvd_refl _
  refine ⟨s, reached, retired, valid, ?_⟩
  rcases owns.alloc_ok with ⟨_, noneFree⟩ | ⟨id, next, ran, otherValid, _⟩
  · have partition := owns.partition
    rw [noneFree, one] at partition
    obtain ⟨_, holds⟩ := partition.all_owned Nat.one_pos
    cases holds
  · have inside := GenAlloc.isValid.index_lt otherValid
    rw [one] at inside
    have same : id = ⟨0, 0⟩ := by
      apply GenAlloc.isValid.unique otherValid valid
      exact UInt32.toNat_inj.mp (Nat.lt_one_iff.mp inside)
    exact ⟨next, by rw [← same, ran]⟩

/-! ### Forged ids -/

/-- The slot that the id names is on the free list, and the id carries the generation of the slot:
nobody was given it yet, or it was freed and its slot has come round to it again. -/
def State.Forged (s : State) (id : GenId) : Prop :=
  id.index.toNat ∈ s.allocator.freeIndices ∧
    s.allocator.generation[id.index.toNat]? = some id.generation

/-- The id that a call presents. -/
def Call.presented? : Call → Option GenId
  | .alloc => none
  | .isValid id | .free id => some id

/-- The condition on one call that it does not present a forged id. -/
def notForged : Machine.Guard State Call := fun s call _ =>
  ∀ id, call.presented? = some id → ¬ s.Forged id

/-- The outstanding ids own the slots that are not free. -/
structure Held (s : State) : Prop where
  owns : s.allocator.Owns (GenAlloc.heldBy s.outstanding)
  nodup : s.outstanding.Nodup

/-- A valid id is outstanding or forged. -/
theorem Held.mem_or_forged (held : Held s) (valid : s.allocator.isValid id = true) :
    id ∈ s.outstanding ∨ s.Forged id := by
  rcases held.owns.partition.complete _ (GenAlloc.isValid.index_lt valid) with free | ⟨owner, holds⟩
  · exact .inr ⟨free, GenAlloc.isValid_iff.mp valid⟩
  · obtain ⟨other, holds, sameSlot⟩ := Option.map_eq_some_iff.mp holds
    obtain ⟨rfl, member⟩ := GenAlloc.heldBy_eq_some.mp holds
    have otherValid := held.owns.current _ _ holds
    rw [GenAlloc.isValid.unique valid otherValid (UInt32.toNat_inj.mp sameSlot.symm)]
    exact .inl member

/-- An outstanding id is valid, and not forged. -/
theorem Held.not_forged (held : Held s) (member : id ∈ s.outstanding) :
    s.allocator.isValid id = true ∧ ¬ s.Forged id := by
  have holds : GenAlloc.heldBy s.outstanding id = some id := GenAlloc.heldBy_eq_some.mpr ⟨rfl, member⟩
  exact ⟨held.owns.current id id holds, fun forged => held.owns.not_free holds forged.1⟩

/-- Every call but one on a forged id keeps the outstanding ids the owners of their slots. -/
theorem Held.step {call : Call} (held : Held s) (stepped : step s call = some s')
    (met : notForged s call s') : Held s' := by
  rcases step_cases stepped with
    ⟨answer, _, ran, outstanding, _⟩ | ⟨_, rfl⟩ | ⟨id, rfl, valid, ran, outstanding, _⟩
  · cases answer with
    | none =>
        obtain ⟨same, _⟩ := held.owns.alloc_none ran
        exact ⟨by rw [same, outstanding]; exact held.owns, by rw [outstanding]; exact held.nodup⟩
    | some id =>
        obtain ⟨valid, _, free, take⟩ := held.owns.alloc_some ran
        have idle : id ∉ s.outstanding := fun member =>
          (held.not_forged member).2 ⟨by simp [free], GenAlloc.isValid_iff.mp valid⟩
        refine ⟨?_, ?_⟩
        · rw [outstanding, Option.toList_some, List.singleton_append, GenAlloc.heldBy_cons]
          exact take id (by simp [GenAlloc.heldBy, idle])
        · rw [outstanding]
          exact List.nodup_cons.mpr ⟨idle, held.nodup⟩
  · exact held
  · have member := (held.mem_or_forged valid).resolve_right (met id rfl)
    obtain ⟨next, nextRan, owns, _⟩ :=
      held.owns.free_owned (GenAlloc.heldBy_eq_some.mpr ⟨rfl, member⟩)
    rw [nextRan] at ran
    obtain ⟨_, same⟩ := Prod.mk.inj (Except.ok.inj ran)
    refine ⟨?_, ?_⟩
    · rw [outstanding, GenAlloc.heldBy_filter, ← same]
      exact owns
    · rw [outstanding]
      exact held.nodup.filter _

theorem held_initial (start : (machine capacity mask).initial s) : Held s := by
  obtain ⟨a, made, rfl⟩ := start
  exact ⟨(GenAlloc.owns_of_new made).1.congr fun _ => rfl, List.nodup_nil⟩

/-- The allocator is guarded against an id: it is valid and accepted by `free` only if it is
outstanding, and freeing it neither panics nor lists an index twice. -/
structure State.Guarded (s : State) (id : GenId) : Prop where
  valid : s.allocator.isValid id = true → id ∈ s.outstanding
  freed : ∀ a', s.allocator.free id = .ok (true, a') → id ∈ s.outstanding
  returns : ∃ answer, s.allocator.free id = .ok answer
  distinct : ∀ freed a', s.allocator.free id = .ok (freed, a') → a'.freeIndices.Nodup

/-- A forged id is valid though it is not outstanding, and its `free` panics or lists an index twice. -/
theorem Held.forged_accepted (held : Held s) (forged : s.Forged id) :
    s.allocator.isValid id = true ∧ id ∉ s.outstanding ∧
      (s.allocator.free id = .error .freeListPush ∨
        ∃ a', s.allocator.free id = .ok (true, a') ∧ ¬ a'.freeIndices.Nodup) := by
  have valid := GenAlloc.isValid_iff.mpr forged.2
  refine ⟨valid, fun member => (held.not_forged member).2 forged, ?_⟩
  have current : indexArray s.allocator.generation id.index.toNat = .ok id.generation :=
    indexArray_eq_ok.mpr forged.2
  have wf := held.owns.freeList
  rcases Nat.lt_or_ge s.allocator.freeList.contents.length s.allocator.freeList.size with room | full
  · obtain ⟨freeList, pushed, _, _, contents⟩ := RingBuffer.push_spec wf room id.index
    let next : GenAlloc :=
      { generation := s.allocator.generation.setIfInBounds id.index.toNat (id.generation + 1)
        freeList := freeList }
    have accepted : s.allocator.free id = .ok (true, next) := by
      simp only [GenAlloc.free, valid, if_true, current, Outcome.ok_bind, pushed]
      rfl
    have again : next.freeIndices = s.allocator.freeIndices ++ [id.index.toNat] := by
      simp [next, GenAlloc.freeIndices, contents]
    refine .inr ⟨next, accepted, ?_⟩
    rw [again]
    intro nodup
    have apart := (List.nodup_append.mp nodup).2.2
    exact apart _ forged.1 _ (List.mem_singleton_self _) rfl
  · have refused := RingBuffer.push_full wf (Nat.le_antisymm wf.length_le full) id.index
    left
    simp only [GenAlloc.free, valid, if_true, current, Outcome.ok_bind, refused]

/-- The allocator is guarded against exactly the ids that are not forged. -/
theorem Held.guarded_iff (held : Held s) (id : GenId) : s.Guarded id ↔ ¬ s.Forged id := by
  constructor
  · intro guarded forged
    obtain ⟨valid, notOutstanding, _⟩ := held.forged_accepted forged
    exact notOutstanding (guarded.valid valid)
  · intro genuine
    have valid : s.allocator.isValid id = true → id ∈ s.outstanding := fun valid =>
      (held.mem_or_forged valid).resolve_right genuine
    by_cases member : id ∈ s.outstanding
    · obtain ⟨next, ran, owns, _⟩ :=
        held.owns.free_owned (GenAlloc.heldBy_eq_some.mpr ⟨rfl, member⟩)
      refine ⟨valid, fun _ _ => member, ⟨_, ran⟩, fun freed a' other => ?_⟩
      rw [ran] at other
      cases other
      exact owns.partition.freeNodup
    · have invalid : s.allocator.isValid id = false := by
        rw [← Bool.not_eq_true]
        exact fun isValid => member (valid isValid)
      have ran := GenAlloc.free_invalid invalid
      refine ⟨valid, fun a' accepted => ?_, ⟨_, ran⟩, fun freed a' other => ?_⟩
      · rw [ran] at accepted
        cases accepted
      · rw [ran] at other
        cases other
        exact held.owns.partition.freeNodup

/-- Every slot on the free list has a forged id. -/
theorem Held.exists_forged (held : Held s) {slot : Nat} (free : slot ∈ s.allocator.freeIndices) :
    ∃ id, s.Forged id := by
  obtain ⟨index, _, rfl⟩ := List.mem_map.mp free
  have inside : index.toNat < s.allocator.generation.size :=
    held.owns.partition.freeBound _ free
  exact ⟨⟨index, s.allocator.generation[index.toNat]⟩, free, Array.getElem?_eq_getElem inside⟩

/-- Any calls, as long as none presents a forged id: the allocator is guarded against exactly the ids
that are not forged, so against all ids exactly while no slot is free.  It lists no index twice, and
`alloc` returns and hands out no outstanding index.  A forged id is taken for valid, and if it is freed
then `free` panics or lists an index twice. -/
theorem presented_guarded_iff (reached : (machine capacity mask).Reach notForged s) :
    (∀ id, s.Guarded id ↔ ¬ s.Forged id) ∧
      ((∀ id, s.Guarded id) ↔ s.allocator.freeIndices = []) ∧
      s.allocator.freeIndices.Nodup ∧ (∃ answer, s.allocator.alloc = .ok answer) ∧
      (∀ id a', s.allocator.alloc = .ok (some id, a') →
        ∀ other ∈ s.outstanding, other.index ≠ id.index) ∧
      ∀ id, s.Forged id → s.allocator.isValid id = true ∧ id ∉ s.outstanding ∧
        (s.allocator.free id = .error .freeListPush ∨
          ∃ a', s.allocator.free id = .ok (true, a') ∧ ¬ a'.freeIndices.Nodup) := by
  have held := reached.invariant Held (fun _ => held_initial)
    fun _ _ _ held stepped met => held.step stepped met
  refine ⟨held.guarded_iff, ⟨fun guarded => ?_, fun noneFree id => ?_⟩,
    held.owns.partition.freeNodup, ?_, ?_, fun id => held.forged_accepted⟩
  · by_contra some
    obtain ⟨slot, free⟩ := List.exists_mem_of_ne_nil _ some
    obtain ⟨id, forged⟩ := held.exists_forged free
    exact (held.guarded_iff id).mp (guarded id) forged
  · refine (held.guarded_iff id).mpr fun forged => ?_
    have member := forged.1
    rw [noneFree] at member
    cases member
  · rcases held.owns.alloc_ok with ⟨ran, _⟩ | ⟨_, _, ran, _⟩
    · exact ⟨_, ran⟩
    · exact ⟨_, ran⟩
  · intro id a' ran other member sameIndex
    obtain ⟨_, _, free, _⟩ := held.owns.alloc_some ran
    apply held.owns.not_free (GenAlloc.heldBy_eq_some.mpr ⟨rfl, member⟩)
    rw [free, sameIndex]
    exact List.mem_cons_self ..

/-- `notForged`, as a test. -/
def genuine (s : State) (call : Call) (_ : State) : Bool :=
  call.presented?.all fun id =>
    !(decide (id.index.toNat ∈ s.allocator.freeIndices) &&
      s.allocator.generation[id.index.toNat]? == some id.generation)

theorem genuine_sound {call : Call} (passed : genuine s call s' = true) : notForged s call s' := by
  rintro id presented ⟨free, current⟩
  simp [genuine, presented, free, current] at passed

/-- Two slots.  One is allocated, freed and freed again: the allocator is guarded against the stale
id and against one out of range, not against that of the slot never allocated.  When both are
allocated, it is guarded against all. -/
theorem presented_guarded_iff_two :
    (∃ s, (machine 2 0).Reach notForged s ∧
      s.Guarded ⟨1, 0⟩ ∧ s.Guarded ⟨7, 0⟩ ∧ ¬ s.Guarded ⟨0, 0⟩) ∧
    ∃ s, (machine 2 0).Reach notForged s ∧ s.outstanding = [⟨1, 1⟩, ⟨0, 0⟩] ∧
      ∀ id, s.Guarded id := by
  obtain ⟨a, made, _⟩ := GenAlloc.new_owns (κ := Unit)
    (show 0 < (GenAlloc.maskedCapacity 2 0).toNat by decide)
  have start : (machine 2 0).initial ⟨a, [], fun _ => 0, []⟩ := ⟨a, made, rfl⟩
  cases made
  constructor
  · obtain ⟨s, reached, ends⟩ := Machine.exists_reach_of_run genuine
      (fun _ _ _ passed => genuine_sound passed) start
      [.alloc, .isValid ⟨1, 0⟩, .free ⟨1, 0⟩, .isValid ⟨1, 0⟩, .free ⟨1, 0⟩]
      (fun s => !(s.allocator.generation[1]? == some 0) && !(s.allocator.generation[7]? == some 0) &&
        s.allocator.freeIndices == [0, 1] && s.allocator.generation[0]? == some 0) rfl
    simp only [Bool.and_eq_true, Bool.not_eq_true', beq_eq_false_iff_ne, beq_iff_eq] at ends
    obtain ⟨⟨⟨stale, outside⟩, free⟩, fresh⟩ := ends
    obtain ⟨guarded, _⟩ := presented_guarded_iff reached
    refine ⟨s, reached, (guarded _).mpr fun forged => stale forged.2,
      (guarded _).mpr fun forged => outside forged.2, fun other => (guarded _).mp other ⟨?_, fresh⟩⟩
    rw [free]
    exact List.mem_cons_self ..
  · obtain ⟨s, reached, ends⟩ := Machine.exists_reach_of_run genuine
      (fun _ _ _ passed => genuine_sound passed) start
      [.alloc, .free ⟨1, 0⟩, .isValid ⟨1, 0⟩, .alloc, .alloc]
      (fun s => s.outstanding == [⟨1, 1⟩, ⟨0, 0⟩] && s.allocator.freeIndices == []) rfl
    simp only [Bool.and_eq_true, beq_iff_eq] at ends
    exact ⟨s, reached, ends.1, (presented_guarded_iff reached).2.1.mpr ends.2⟩

/-- A new allocator takes an id it never issued for valid, and panics when that is freed.  With one
slot allocated it accepts such an id, and then has two owners for the other slot. -/
theorem forged_id_accepted :
    (∃ s, (machine 2 0).Reachable s ∧ s.outstanding = [] ∧
      s.allocator.isValid ⟨0, 0⟩ = true ∧ s.allocator.free ⟨0, 0⟩ = .error .freeListPush) ∧
    ∃ s, (machine 2 0).Reachable s ∧ s.outstanding = [⟨0, 1⟩, ⟨0, 1⟩, ⟨1, 0⟩] := by
  obtain ⟨a, made, _⟩ := GenAlloc.new_owns (κ := Unit)
    (show 0 < (GenAlloc.maskedCapacity 2 0).toNat by decide)
  have start : (machine 2 0).initial ⟨a, [], fun _ => 0, []⟩ := ⟨a, made, rfl⟩
  cases made
  refine ⟨⟨_, .initial start, rfl, rfl, rfl⟩, ?_⟩
  obtain ⟨s, reached, ends⟩ := Machine.exists_reachable_of_run start
    [.alloc, .free ⟨0, 0⟩, .alloc, .alloc]
    (fun s => s.outstanding == [⟨0, 1⟩, ⟨0, 1⟩, ⟨1, 0⟩]) rfl
  exact ⟨s, reached, by simpa using ends⟩

end Hoarder.AnyIds
