/-
Module: Hoarder.Proofs.Headers
Purpose: The header of a message, from the peer to the handler.  The bytes of a header are read back
  as that header, and no other bytes are, so a connection is in the body of a message exactly if its
  stream begins with the bytes of that header, and it stays there until it ends.
Trusted boundary: none
Main exports: MsgHeader.readFromBytes_eq_some, Connection.phaseOf_eq_body, Running.headers_received,
  Running.headers_settled
-/
import Hoarder.Proofs.Server

namespace Hoarder

open Foundation

/-! ### The bytes of a header -/

namespace MsgHeader

theorem length_asBytes (header : MsgHeader) : header.asBytes.length = size := rfl

/-- Bits above the lower ones add to them. -/
theorem or_mul_two_pow {low high shift : Nat} (below : low < 2 ^ shift) :
    low ||| high * 2 ^ shift = low + high * 2 ^ shift := by
  rw [Nat.or_comm, ← Nat.shiftLeft_eq, ← Nat.shiftLeft_add_eq_or_of_lt below, Nat.add_comm]

/-- The bytes of the magic are its digits. -/
theorem magic_toNat (b0 b1 b2 b3 : UInt8) :
    (b0.toUInt32 ||| (b1.toUInt32 <<< 8) ||| (b2.toUInt32 <<< 16) ||| (b3.toUInt32 <<< 24)).toNat =
      b0.toNat + b1.toNat * 2 ^ 8 + b2.toNat * 2 ^ 16 + b3.toNat * 2 ^ 24 := by
  have first : b0.toNat < 2 ^ 8 := b0.toNat_lt
  have second := b1.toNat_lt
  have third := b2.toNat_lt
  have fourth := b3.toNat_lt
  have two : b0.toNat + b1.toNat * 2 ^ 8 < 2 ^ 16 := by omega
  have three : b0.toNat + b1.toNat * 2 ^ 8 + b2.toNat * 2 ^ 16 < 2 ^ 24 := by omega
  simp only [UInt32.toNat_or, UInt32.toNat_shiftLeft, UInt8.toNat_toUInt32, Nat.shiftLeft_eq,
    UInt32.reduceToNat, Nat.reduceMod]
  rw [Nat.mod_eq_of_lt (a := b1.toNat * 2 ^ 8) (by omega),
    Nat.mod_eq_of_lt (a := b2.toNat * 2 ^ 16) (by omega),
    Nat.mod_eq_of_lt (a := b3.toNat * 2 ^ 24) (by omega), or_mul_two_pow first, or_mul_two_pow two,
    or_mul_two_pow three]

/-- The bytes of a header, as the digits of its magic. -/
theorem asBytes_toNat (header : MsgHeader) :
    header.asBytes.map UInt8.toNat =
      [header.magic.toNat % 2 ^ 8, header.magic.toNat / 2 ^ 8 % 2 ^ 8,
        header.magic.toNat / 2 ^ 16 % 2 ^ 8, header.magic.toNat / 2 ^ 24 % 2 ^ 8,
        header.cmd.toNat] := by
  simp only [asBytes, List.map, UInt32.toNat_toUInt8, UInt32.toNat_shiftRight,
    Nat.shiftRight_eq_div_pow, UInt32.reduceToNat, Nat.reduceMod]

/-- A header is read from its bytes, and from no others. -/
theorem readFromBytes_eq_some {bytes : List UInt8} {header : MsgHeader} :
    readFromBytes bytes = some header ↔ bytes = header.asBytes := by
  constructor
  · intro decoded
    have sized := readFromBytes_isSome.mp (Option.isSome_of_eq_some decoded)
    match bytes, sized with
    | [b0, b1, b2, b3, cmd], _ =>
        obtain rfl := Option.some.inj decoded
        apply (List.map_injective_iff.mpr fun _ _ => UInt8.toNat_inj.mp)
        rw [asBytes_toNat, magic_toNat]
        have first := b0.toNat_lt
        have second := b1.toNat_lt
        have third := b2.toNat_lt
        have fourth := b3.toNat_lt
        simp only [List.map, List.cons.injEq, and_true]
        omega
  · rintro rfl
    have small := header.magic.toNat_lt
    have same := asBytes_toNat header
    simp only [asBytes, List.map, List.cons.injEq, and_true] at same
    obtain ⟨first, second, third, fourth⟩ := same
    rw [asBytes, readFromBytes, Option.some.injEq]
    refine congrArg (MsgHeader.mk · header.cmd) (UInt32.toNat_inj.mp ?_)
    rw [magic_toNat, first, second, third, fourth]
    omega

end MsgHeader

namespace Connection

variable {bytes : List UInt8} {header : MsgHeader}

/-- The phase of a stream is in the body exactly if the stream begins with a header. -/
theorem phaseOf_eq_body : phaseOf bytes = .receivingBody header ↔ header.asBytes <+: bytes := by
  constructor
  · intro phase
    unfold phaseOf at phase
    split at phase
    · rename_i other decoded
      cases phase
      rw [← MsgHeader.readFromBytes_eq_some.mp decoded]
      exact List.take_prefix _ bytes
    · cases phase
  · rintro ⟨rest, rfl⟩
    have first : (header.asBytes ++ rest).take MsgHeader.size = header.asBytes := by
      rw [List.take_append_of_le_length header.length_asBytes.ge]
      exact List.take_of_length_le header.length_asBytes.le
    rw [phaseOf, first, MsgHeader.readFromBytes_eq_some.mpr rfl]

/-- The phase of a stream is before the body exactly if the stream is shorter than a header. -/
theorem phaseOf_eq_header : phaseOf bytes = .receivingHeader ↔ bytes.length < MsgHeader.size := by
  refine ⟨fun phase => ?_, phaseOf_short⟩
  by_contra enough
  obtain ⟨header, _, body⟩ := phaseOf_header (Nat.le_of_not_lt enough)
  cases phase.symm.trans body

end Connection

/-! ### Headers in a run -/

namespace Running

variable {id : GenId} {handler : ConnHandler} {header : MsgHeader} {base : Nat}
  {listeners connHandlers bufCount : UInt32} {s : Running} {streams : GenId → List UInt8}

/-- The phase of a handler is that of what it has taken of its stream. -/
theorem StreamInv.phase (inv : s.StreamInv base bufCount streams) {phase : RecvPhase}
    (found : s.handlerAt id = some handler) (receiving : handler.state = .recv phase) :
    handler.offset.toNat ≤ (streams id).length ∧
      phase = Connection.phaseOf ((streams id).take handler.offset.toNat) := by
  obtain ⟨bufferId, held⟩ := inv.held id handler phase found receiving
  have owned := (ConnHandler.receiving?_recv receiving).trans held
  have holds := (inv.connected id handler found).holds bufferId owned
  exact ⟨holds.behind, ConnHandlerState.recv.inj (receiving.symm.trans holds.parsed)⟩

/-- Any number of connections, on a kernel that fails no read and counts the bytes it writes, any
split of the bytes of the peers and any order of steps, unless a repeated close frees a reissued
buffer: a handler is in the header of its message while it has taken fewer bytes than a header, and
from then on in the body behind the header that its peer has sent. -/
theorem headers_received {p : Running × (GenId → List UInt8)}
    (reached : (streamed listeners connHandlers bufCount).Reach streamGuard.onState p)
    {phase : RecvPhase} (found : p.1.handlerAt id = some handler)
    (receiving : handler.state = .recv phase) :
    (phase = .receivingHeader ↔ handler.offset.toNat < MsgHeader.size) ∧
      ∀ header, phase = .receivingBody header ↔
        MsgHeader.size ≤ handler.offset.toNat ∧ header.asBytes <+: p.2 id := by
  obtain ⟨base, inv⟩ := serverInv_reach reached
  obtain ⟨behind, rfl⟩ := inv.phase found receiving
  have taken : ((p.2 id).take handler.offset.toNat).length = handler.offset.toNat :=
    List.length_take_of_le behind
  refine ⟨by rw [Connection.phaseOf_eq_header, taken], fun header => ?_⟩
  rw [Connection.phaseOf_eq_body]
  constructor
  · intro begins
    have enough := begins.length_le
    rw [header.length_asBytes, taken] at enough
    exact ⟨enough, begins.trans (List.take_prefix _ _)⟩
  · rintro ⟨enough, begins⟩
    exact List.prefix_take_iff.mpr ⟨begins, enough⟩

set_option maxRecDepth 100000 in
/-- A header that arrives in two pieces, the second with three bytes of the body. -/
theorem headers_received_split :
    ∃ (s : Running) (streams : GenId → List UInt8) (handler : ConnHandler),
      s.handlerAt ⟨0, 0⟩ = some handler ∧
      handler.state = .recv (.receivingBody ⟨0x1234, 1⟩) ∧
        (⟨0x1234, 1⟩ : MsgHeader).asBytes <+: streams ⟨0, 0⟩ := by
  obtain ⟨⟨s, streams⟩, reached, ends⟩ : ∃ p : Running × (GenId → List UInt8),
      (streamed 1 1 1).Reach streamGuard.onState p ∧
      ((p.1.handlerAt ⟨0, 0⟩).any fun handler =>
        handler.state == .recv (.receivingBody ⟨0x1234, 1⟩)) = true := by
    exact Machine.exists_reach_of_start _
      (@streamed_initial 16 1 1 1 (some (0x1000, fun _ => 0))) (fun p label _ => p.1.isStreamed label)
      (fun _ _ _ passed => isStreamed_sound passed)
      (acceptOne ++ [.take, .complete 1 2 0 [0x34, 0x12]] ++ ticks 7 ++
        [.take, .complete 1 6 0 [0, 0, 1, 7, 8, 9]] ++ ticks 7) _ (by decide +kernel)
  obtain ⟨handler, found, stage⟩ := (Option.any_eq_true _ _).mp ends
  have receiving := beq_iff_eq.mp stage
  exact ⟨s, streams, handler, found, receiving,
    (((headers_received reached found receiving).2 _).mp rfl).2⟩

/-- On the same kernel, while no generation of a handler overflows: the header of a message is
settled.  A handler that is in the body behind a header is in the body behind that header for as long
as it receives, whatever its peer sends. -/
theorem headers_settled {p p' : Running × (GenId → List UInt8)}
    (reached : (streamed listeners connHandlers bufCount).Reach lifeGuard.onState p)
    (leads : (streamed listeners connHandlers bufCount).LeadsBy lifeGuard.onState p p')
    (found : p.1.handlerAt id = some handler)
    (receiving : handler.state = .recv (.receivingBody header)) {handler' : ConnHandler}
    {phase : RecvPhase} (found' : p'.1.handlerAt id = some handler')
    (receiving' : handler'.state = .recv phase) : phase = .receivingBody header := by
  obtain ⟨base, inv⟩ := serverInv_reach (reached.mono fun _ _ _ met => met.1)
  obtain ⟨base', inv'⟩ := serverInv_reach ((leads.reach reached).mono fun _ _ _ met => met.1)
  obtain ⟨_, body⟩ := inv.phase found receiving
  obtain ⟨_, rfl⟩ := inv'.phase found' receiving'
  rcases advanced_leadsBy reached leads (sessions_recv found receiving) with left | later
  · have none : p'.1.sessions p'.2 id = none := sessions_left left
    rw [sessions_recv found' receiving'] at none
    cases none
  · obtain ⟨later, stage, before⟩ := later
    rw [sessions_recv found' receiving', Option.some.injEq] at stage
    subst stage
    cases before with
    | receiving grows =>
        rw [Connection.phaseOf_eq_body]
        exact (Connection.phaseOf_eq_body.mp body.symm).trans grows

set_option maxRecDepth 100000 in
/-- Behind a header that has arrived, two more bytes arrive. -/
theorem headers_settled_more :
    ∃ (s' : Running) (handler' : ConnHandler), s'.handlerAt ⟨0, 0⟩ = some handler' ∧
      handler'.offset = 7 ∧ handler'.state = .recv (.receivingBody ⟨0x1234, 1⟩) := by
  obtain ⟨⟨s, streams⟩, ⟨s', streams'⟩, reached, leads, ends⟩ :
      ∃ p p' : Running × (GenId → List UInt8),
        (streamed 1 1 1).Reach lifeGuard.onState p ∧
        (streamed 1 1 1).LeadsBy lifeGuard.onState p p' ∧
        (((p.1.handlerAt ⟨0, 0⟩).any fun handler =>
            handler.state == .recv (.receivingBody ⟨0x1234, 1⟩)) &&
          ((p'.1.handlerAt ⟨0, 0⟩).any fun handler =>
            handler.receiving?.isSome && handler.offset == 7)) = true := by
    exact Machine.exists_leadsBy_of_start _
      (@streamed_initial 16 1 1 1 (some (0x1000, fun _ => 0))) (fun p label p' => p.1.isLife label p'.1)
      (fun _ _ _ passed => isLife_sound passed)
      (acceptOne ++ [.take, .complete 1 5 0 [0x34, 0x12, 0, 0, 1]] ++ ticks 7)
      ([.take, .complete 1 2 0 [8, 9]] ++ ticks 7) _ (by decide +kernel)
  simp only [Bool.and_eq_true, Option.any_eq_true, beq_iff_eq] at ends
  obtain ⟨⟨handler, found, receiving⟩, handler', found', receives, offset⟩ := ends
  obtain ⟨bufferId, receiving'⟩ := Option.isSome_iff_exists.mp receives
  obtain ⟨phase, stage, _⟩ := ConnHandler.of_receiving? receiving'
  have settled := headers_settled reached leads found receiving found' stage
  exact ⟨s', handler', found', offset, settled ▸ stage⟩

end Running

end Hoarder
