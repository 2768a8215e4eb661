/-
Module: Hoarder.Proofs.ConnStream
Purpose: One connection and the byte stream it receives.  The kernel writes each chunk at the offset
  of the pending receive and completes it; after any chunks the connection is the one determined by
  the bytes received so far, so the cuts of the stream leave no trace.
Trusted boundary: none
Main exports: Connection, Connection.spawn, Connection.receive, Connection.receiveAll,
  Connection.after, Connection.receive_after, Connection.Received, Connection.stream_received
-/
import Hoarder.Proofs.BufferHistory
import Hoarder.Proofs.ConnHandler

namespace Hoarder

open Foundation

/-- A handler, the buffers, and the intents of the last event of the handler. -/
structure Connection where
  handler : ConnHandler
  buffers : IoBufs
  pending : List MachineIntent

namespace Connection

/-- A new handler on a socket processes its first event.  A run ends at a panic. -/
def spawn (socket : UInt32) (buffers : IoBufs) : Option Connection :=
  match (ConnHandler.new socket).processEvent ⟨[], buffers⟩ .spawn with
  | .ok (handler, ctx) => some { handler := handler, buffers := ctx.buffers, pending := ctx.intents }
  | .error _ => none

/-- The kernel writes a chunk into the buffer of the pending receive, at its offset, and completes it
with the length of the chunk. -/
def receive (self : Connection) (chunk : List UInt8) (flags : UInt32) : Option Connection :=
  match self.pending with
  | [.submitRecv _ bufferId offset] =>
      match self.buffers.getMut bufferId with
      | .ok (some address) =>
          let buffers := self.buffers.writeAt (address + offset.toNat) chunk
          let event := MachineEvent.ioCompleted (Int32.ofNat chunk.length) flags
          match self.handler.processEvent ⟨[], buffers⟩ event with
          | .ok (handler, ctx) =>
              some { handler := handler, buffers := ctx.buffers, pending := ctx.intents }
          | .error _ => none
      | _ => none
  | _ => none

/-- The chunks arrive one completion at a time, each with the flags of its completion. -/
def receiveAll (self : Connection) : List (List UInt8 × UInt32) → Option Connection
  | [] => some self
  | (chunk, flags) :: chunks => (self.receive chunk flags).bind fun next => next.receiveAll chunks

/-- The bytes of some chunks. -/
def stream (chunks : List (List UInt8 × UInt32)) : List UInt8 := (chunks.map Prod.fst).flatten

@[simp] theorem stream_nil : stream [] = [] := rfl

@[simp] theorem stream_cons (chunk : List UInt8) (flags : UInt32)
    (chunks : List (List UInt8 × UInt32)) :
    stream ((chunk, flags) :: chunks) = chunk ++ stream chunks := rfl

theorem stream_append (first second : List (List UInt8 × UInt32)) :
    stream (first ++ second) = stream first ++ stream second := by
  simp [stream]

/-- The phase of a handler that has received the given bytes. -/
def phaseOf (bytes : List UInt8) : RecvPhase :=
  match MsgHeader.readFromBytes (bytes.take MsgHeader.size) with
  | some header => .receivingBody header
  | none => .receivingHeader

/-- The connection that has received the given bytes into the buffer at `address`. -/
def after (socket : Fixed) (handle : BufferHandle) (address : Nat) (buffers : IoBufs)
    (bytes : List UInt8) : Connection where
  handler :=
    { state := .recv (phaseOf bytes), socket := socket, bufHandle? := some handle,
      offset := UInt32.ofNat bytes.length }
  buffers := buffers.writeAt address bytes
  pending := [.submitRecv socket handle (UInt16.ofNat bytes.length)]

end Connection

/-- A header is read from exactly `size` bytes. -/
theorem MsgHeader.readFromBytes_isSome {bytes : List UInt8} :
    (MsgHeader.readFromBytes bytes).isSome ↔ bytes.length = MsgHeader.size := by
  match bytes with
  | [] | [_] | [_, _] | [_, _, _] | [_, _, _, _] => simp [readFromBytes, size]
  | [_, _, _, _, _] => simp [readFromBytes, size]
  | _ :: _ :: _ :: _ :: _ :: _ :: _ => simp [readFromBytes, size]

namespace Connection

theorem phaseOf_short {bytes : List UInt8} (few : bytes.length < MsgHeader.size) :
    phaseOf bytes = .receivingHeader := by
  unfold phaseOf
  split
  · rename_i header decoded
    have sized := MsgHeader.readFromBytes_isSome.mp (Option.isSome_of_eq_some decoded)
    rw [List.length_take] at sized
    omega
  · rfl

theorem phaseOf_header {bytes : List UInt8} (enough : MsgHeader.size ≤ bytes.length) :
    ∃ header, MsgHeader.readFromBytes (bytes.take MsgHeader.size) = some header ∧
      phaseOf bytes = .receivingBody header := by
  have sized : (bytes.take MsgHeader.size).length = MsgHeader.size := by
    rw [List.length_take]
    omega
  obtain ⟨header, decoded⟩ := Option.isSome_iff_exists.mp (MsgHeader.readFromBytes_isSome.mpr sized)
  exact ⟨header, decoded, by simp only [phaseOf, decoded]⟩

variable {socket : Fixed} {handle : BufferHandle} {address : Nat} {buffers : IoBufs}
  {bytes chunk : List UInt8} {flags : UInt32}

/-- The bytes written at the beginning of a buffer are the first bytes read from it. -/
theorem get_writeAt (resolved : buffers.getMut handle = .ok (some address))
    (fits : bytes.length ≤ 0x1000) :
    ∃ rest, (buffers.writeAt address bytes).get handle = .ok (some (bytes ++ rest)) := by
  have split := Memory.read_append (Memory.write buffers.pool.mem address bytes) address bytes.length
    (0x1000 - bytes.length)
  rw [Nat.add_sub_cancel' fits, Memory.read_write_self] at split
  refine ⟨Memory.read (Memory.write buffers.pool.mem address bytes) (address + bytes.length)
    (0x1000 - bytes.length), ?_⟩
  rw [BufferPool.get_eq ((BufferHistory.getMut_writeAt ..).trans resolved), Option.map_some,
    ← split]
  rfl

/-- The phase the bytes determine is the one the handler parses. -/
theorem parsed (resolved : buffers.getMut handle = .ok (some address))
    (fits : bytes.length < 0x1000) :
    Parsed (buffers.writeAt address bytes) handle (UInt32.ofNat bytes.length) (phaseOf bytes) := by
  have offset : (UInt32.ofNat bytes.length).toNat = bytes.length :=
    UInt32.toNat_ofNat_of_lt' (by unfold UInt32.size; omega)
  by_cases enough : MsgHeader.size ≤ bytes.length
  · obtain ⟨header, decoded, phase⟩ := phaseOf_header enough
    obtain ⟨rest, got⟩ := get_writeAt resolved (Nat.le_of_lt fits)
    rw [phase]
    apply Parsed.header _ header (by rwa [offset]) got
    rw [List.take_append_of_le_length enough]
    exact decoded
  · rw [phaseOf_short (Nat.lt_of_not_le enough)]
    exact .short (by rw [offset]; exact Nat.lt_of_not_le enough)

/-- One completion extends the received bytes by its chunk. -/
theorem receive_after (resolved : buffers.getMut handle = .ok (some address))
    (nonempty : chunk ≠ []) (fits : (bytes ++ chunk).length < 0x1000) :
    (after socket handle address buffers bytes).receive chunk flags =
      some (after socket handle address buffers (bytes ++ chunk)) := by
  have count : (bytes ++ chunk).length = bytes.length + chunk.length := List.length_append
  have offset : (UInt16.ofNat bytes.length).toNat = bytes.length :=
    UInt16.toNat_ofNat_of_lt' (by unfold UInt16.size; omega)
  have written : ((after socket handle address buffers bytes).buffers.writeAt
      (address + (UInt16.ofNat bytes.length).toNat) chunk) =
        buffers.writeAt address (bytes ++ chunk) := by
    rw [offset]
    simp only [after, BufferPool.writeAt, Memory.write_append]
  have positive : 0 < Int32.ofNat chunk.length := by
    have := List.length_pos_of_ne_nil nonempty
    rw [Int32.lt_iff_toInt_lt, Int32.toInt_ofNat_of_lt (by omega), Int32.toInt_zero]
    omega
  have advanced : UInt32.ofNat bytes.length + (Int32.ofNat chunk.length).toUInt32 =
      UInt32.ofNat (bytes ++ chunk).length := by
    rw [Int32.toUInt32_ofNat', count, UInt32.ofNat_add]
  have processed : (after socket handle address buffers bytes).handler.processEvent
      ⟨[], buffers.writeAt address (bytes ++ chunk)⟩
      (.ioCompleted (Int32.ofNat chunk.length) flags) = .ok _ :=
    ConnHandler.processEvent_received rfl rfl positive (advanced ▸ parsed resolved fits)
  simp only [receive, after] at written processed ⊢
  rw [BufferHistory.getMut_writeAt, resolved]
  simp only [written, processed, advanced, UInt32.toUInt16_ofNat']

/-- Any chunks extend the received bytes by their stream. -/
theorem receiveAll_after (resolved : buffers.getMut handle = .ok (some address)) (socket : Fixed)
    (bytes : List UInt8) (chunks : List (List UInt8 × UInt32)) (nonempty : ∀ chunk ∈ chunks, chunk.1 ≠ [])
    (fits : (bytes ++ stream chunks).length < 0x1000) :
    (after socket handle address buffers bytes).receiveAll chunks =
      some (after socket handle address buffers (bytes ++ stream chunks)) := by
  induction chunks generalizing bytes with
  | nil => simp [receiveAll]
  | cons first chunks inductionHypothesis =>
      obtain ⟨chunk, flags⟩ := first
      rw [stream_cons, ← List.append_assoc] at fits
      have chunkFits : (bytes ++ chunk).length < 0x1000 := by
        rw [List.length_append] at fits
        omega
      rw [receiveAll, receive_after resolved (nonempty _ List.mem_cons_self) chunkFits,
        Option.bind_some, stream_cons, ← List.append_assoc]
      exact inductionHypothesis (bytes ++ chunk)
        (fun other member => nonempty other (List.mem_cons_of_mem _ member)) fits

/-- A pool that gives out a buffer resolves its handle. -/
theorem getMut_of_alloc {count : UInt32} {s : BufferHistory.State 0x1000 0x1000} {pool : IoBufs}
    (sized : BufferHistory.Sized count s) (available : s.pool.alloc = .ok (some handle, pool)) :
    ∃ address, pool.getMut handle = .ok (some address) := by
  obtain ⟨genAlloc, allocated, rfl⟩ := BufferPool.alloc_eq_ok available
  obtain ⟨_, _, _, rfl, _, valid⟩ := GenAlloc.alloc_inv allocated
  have current : s.pool.isValid handle = true := valid handle.id rfl
  have inside : handle.id.index.toNat < s.pool.pool.count := by
    rw [sized.counted]
    exact sized.index_lt current
  exact ⟨_, BufferPool.getMut_valid current inside⟩

/-- A new handler with a buffer available has received nothing yet. -/
theorem spawn_after {pool : IoBufs} (address : Nat)
    (available : buffers.alloc = .ok (some handle, pool)) :
    spawn socket buffers = some (after socket handle address pool []) := by
  unfold spawn
  rw [ConnHandler.processEvent_spawned rfl available]
  simp only [after, BufferPool.writeAt, Memory.write_nil]
  rfl

/-- The connection has received exactly the given bytes: its offset counts them, its buffer begins
with them, its next receive continues behind them, and its phase is that of the header they carry. -/
structure Received (bytes : List UInt8) (current : Connection) : Prop where
  offset : current.handler.offset.toNat = bytes.length
  buffer : ∃ handle rest, current.handler.bufHandle? = some handle ∧
    current.buffers.get handle = .ok (some (bytes ++ rest))
  pending : ∃ handle offset, current.handler.bufHandle? = some handle ∧
    current.pending = [.submitRecv current.handler.socket handle offset] ∧
    offset.toNat = bytes.length
  short : current.handler.state = .recv .receivingHeader ↔ bytes.length < MsgHeader.size
  header : MsgHeader.size ≤ bytes.length →
    ∃ header, MsgHeader.readFromBytes (bytes.take MsgHeader.size) = some header ∧
      current.handler.state = .recv (.receivingBody header)

theorem received_after (resolved : buffers.getMut handle = .ok (some address))
    (fits : bytes.length < 0x1000) : Received bytes (after socket handle address buffers bytes) where
  offset := UInt32.toNat_ofNat_of_lt' (by unfold UInt32.size; omega)
  buffer := by
    obtain ⟨rest, got⟩ := get_writeAt resolved (Nat.le_of_lt fits)
    exact ⟨handle, rest, rfl, got⟩
  pending := ⟨handle, _, rfl, rfl, UInt16.toNat_ofNat_of_lt' (by unfold UInt16.size; omega)⟩
  short := by
    constructor
    · intro atHeader
      by_contra enough
      obtain ⟨header, _, phase⟩ := phaseOf_header (Nat.le_of_not_lt enough)
      simp [after, phase] at atHeader
    · intro few
      simp only [after, phaseOf_short few]
  header enough := by
    obtain ⟨header, decoded, phase⟩ := phaseOf_header enough
    exact ⟨header, decoded, by simp only [after, phase]⟩

/-- A new handler, spawned on a pool with any history that has a buffer available, receives a stream
of fewer than 4096 bytes in any non-empty chunks.  After each chunk it has received exactly the bytes
so far, and another way of cutting the stream ends in the same connection. -/
theorem stream_received {count : UInt32} {s : BufferHistory.State 0x1000 0x1000} {pool : IoBufs}
    (reached : (BufferHistory.machine 0x1000 0x1000 count).Reachable s)
    (available : s.pool.alloc = .ok (some handle, pool)) (socket : Fixed)
    (chunks : List (List UInt8 × UInt32)) (nonempty : ∀ chunk ∈ chunks, chunk.1 ≠ [])
    (short : (stream chunks).length < 0x1000) :
    ∃ first, spawn socket s.pool = some first ∧
      (∀ before, before <+: chunks → ∃ current, first.receiveAll before = some current ∧
        Received (stream before) current) ∧
      ∀ chunks', (∀ chunk ∈ chunks', chunk.1 ≠ []) → stream chunks' = stream chunks →
        first.receiveAll chunks' = first.receiveAll chunks := by
  obtain ⟨address, resolved⟩ := getMut_of_alloc (BufferHistory.reach_sized reached) available
  refine ⟨_, spawn_after address available, fun before isPrefix => ?_,
    fun chunks' nonempty' same => ?_⟩
  · obtain ⟨rest, rfl⟩ := isPrefix
    rw [stream_append, List.length_append] at short
    have fits : (stream before).length < 0x1000 := by omega
    have ran := receiveAll_after resolved socket [] before
      (fun chunk member => nonempty chunk (List.mem_append_left rest member)) fits
    exact ⟨_, ran, received_after resolved fits⟩
  · have ran := receiveAll_after resolved socket [] chunks nonempty short
    have ran' := receiveAll_after resolved socket [] chunks' nonempty' (same ▸ short)
    rw [ran, ran', same]

/-- Seven bytes, with the end of the header inside the second chunk or between two. -/
theorem stream_received_seven :
    ∃ (pool : IoBufs) (first : Connection),
      BufferPool.new 1 (some (0x1000, fun _ => 0)) = .ok pool ∧ spawn 0 pool = some first ∧
      (∃ current, first.receiveAll [([1, 2], 0), ([3, 4, 5, 6, 7], 4)] = some current ∧
        Received [1, 2, 3, 4, 5, 6, 7] current) ∧
      first.receiveAll [([1, 2, 3, 4, 5], 0), ([6], 4), ([7], 0)] =
        first.receiveAll [([1, 2], 0), ([3, 4, 5, 6, 7], 4)] := by
  obtain ⟨genAlloc, made, buffersMade⟩ :=
    BufferPool.new_ok (show 0 < (1 : UInt32).toNat by decide) 0x1000 fun _ => 0
  have start : (BufferHistory.machine 0x1000 0x1000 1).Reachable ⟨_, [], []⟩ :=
    .initial ⟨_, _, buffersMade, rfl⟩
  cases made
  obtain ⟨first, spawned, received, anyCut⟩ := stream_received start rfl 0
    [([1, 2], 0), ([3, 4, 5, 6, 7], 4)] (by simp) (by simp)
  exact ⟨_, first, buffersMade, spawned, received _ List.prefix_rfl, anyCut _ (by simp) rfl⟩

end Connection

end Hoarder
