/-
Module: Hoarder.Proofs.SlotOwnership
Purpose: Who owns a direct descriptor.  What the executor still has to learn about the table is the
  queue of a `SlotHandover` between the kernel and the connection handlers: an occupied slot belongs
  to the handler on it, or to a completion that is not processed yet, and there is always room for
  the handler of an accepted connection.
Trusted boundary: none
Main exports: Running.sockets, Running.reports, Hosted.SlotInv, Hosted.SlotInv.step,
  Hosted.slots_owned, Hosted.exists_reach_of_start
-/
import Hoarder.Core.DirectDescriptors
import Hoarder.Foundation.SlotHandover
import Hoarder.Proofs.Errands

namespace Hoarder

open Foundation

/-- The slots of a table of direct descriptors. -/
def slotTable (files : UInt32) : Finset Fixed :=
  (Finset.range files.toNat).image UInt32.ofNat

theorem mem_slotTable {files : UInt32} {slot : Fixed} : slot ∈ slotTable files ↔ slot < files := by
  rw [slotTable, Finset.mem_image, UInt32.lt_iff_toNat_lt]
  constructor
  · rintro ⟨number, inside, rfl⟩
    have small := UInt32.toNat_lt files
    rw [Finset.mem_range] at inside
    rw [UInt32.toNat_ofNat']
    omega
  · intro inside
    exact ⟨slot.toNat, Finset.mem_range.mpr inside, UInt32.ofNat_toNat⟩

theorem card_slotTable (files : UInt32) : (slotTable files).card ≤ files.toNat :=
  Finset.card_image_le.trans (Finset.card_range _).le

/-- What the kernel of the table posts keeps its promises. -/
theorem Op.posts_of_perform {op : Op} {files : UInt32} {occupied occupied' : Finset Fixed}
    {result : Int32} {flags : UInt32}
    (performed : op.perform files occupied result flags = some occupied') :
    op.Posts result flags := by
  cases op with
  | acceptMulti fd =>
      intro negative
      simp only [perform, if_neg (Int32.not_le.mpr negative)] at performed
      split at performed
      · cases performed
      · rename_i last
        simpa using last
  | readFixed fixed buf len bufIndex bufferId =>
      simp only [perform] at performed
      split at performed
      · rename_i success
        exact success
      · cases performed
  | close fixed => trivial

namespace Running

variable {s s' : Running} {label : RunLabel} {handle : ObjectHandle}

/-- The direct descriptor of each connection handler. -/
def sockets (s : Running) (id : GenId) : Option Fixed :=
  (s.handlerAt id).map ConnHandler.socket

/-- A change of one handler changes the direct descriptor of that handler. -/
theorem sockets_update {id : GenId} {changed : Option ConnHandler}
    (handlers : s'.handlerAt = Function.update s.handlerAt id changed) :
    s'.sockets = Function.update s.sockets id (changed.map ConnHandler.socket) := by
  funext other
  rw [sockets, handlers]
  rcases eq_or_ne other id with rfl | different
  · rw [Function.update_self, Function.update_self]
  · rw [Function.update_of_ne different, Function.update_of_ne different, sockets]

/-- What an item of the agenda tells about the table: a connection was accepted on a slot, or the
slot of a handler was closed.  A completion is that of a successful close if its result is zero and
its handler is `Closing`. -/
def report? (s : Running) : AgendaItem → Option (Report GenId Fixed)
  | .event ⟨.ioCompleted res _, handle⟩ =>
      if handle.poolId = tcpServer then
        if 0 ≤ res then some (.accepted res.toUInt32) else none
      else if res = 0 ∧ (s.handlerAt handle.genId).map ConnHandler.state = some .closing then
        some (.released handle.genId)
      else none
  | .intent _ (.spawnConnHandler fixed) => some (.accepted fixed)
  | .intent handle .terminate => some (.released handle.genId)
  | _ => none

/-- What the executor has not learned yet about the table, in order. -/
def reports (s : Running) : List (Report GenId Fixed) :=
  s.agenda.filterMap s.report?

theorem report?_congr (handlers : s'.handlerAt = s.handlerAt) : s'.report? = s.report? := by
  funext item
  unfold report?
  rw [handlers]

theorem reports_same (agenda : s'.agenda = s.agenda) (handlers : s'.handlerAt = s.handlerAt) :
    s'.reports = s.reports := by
  rw [reports, agenda, report?_congr handlers, reports]

theorem reports_cons {item : AgendaItem} {rest : List AgendaItem} (agenda : s.agenda = item :: rest) :
    s.reports = (s.report? item).toList ++ rest.filterMap s.report? := by
  rw [reports, agenda]
  cases told : s.report? item with
  | none => rw [List.filterMap_cons_none told]; rfl
  | some report => rw [List.filterMap_cons_some told]; rfl

/-- Items that are part of no errand of a handler tell the same when that handler changes. -/
theorem reports_frame {changed : Option ConnHandler} {rest : List AgendaItem} {ops : Multiset Sqe}
    (kind : handle.poolId = connHandler)
    (handlers : s'.handlerAt = Function.update s.handlerAt handle.genId changed)
    (apart : ∀ errand, (handle, errand) ∉ errandsOf rest ops)
    (fits : ∀ other errand, (other, errand) ∈ errandsOf rest ops → s.Fits other errand) :
    rest.filterMap s'.report? = rest.filterMap s.report? := by
  apply List.filterMap_congr
  intro item member
  rcases item with ⟨other, submitted⟩ | ⟨reason, other⟩
  · cases submitted <;> rfl
  cases reason with
  | spawn => rfl
  | ioCompleted res flags =>
      simp only [report?]
      split
      · rfl
      · rename_i notListener
        have isErrand : (other, Errand.completed res) ∈ errandsOf rest ops := by
          refine Multiset.mem_add.mpr (.inl (Multiset.mem_coe.mpr ?_))
          exact List.mem_filterMap.mpr ⟨_, member, by simp [AgendaItem.errand?, notListener]⟩
        have different : other.genId ≠ handle.genId := by
          intro same
          cases fits other _ isErrand with
          | listener listening => exact notListener listening
          | handler handling =>
              obtain rfl := ObjectHandle.eq_of_fields (handling.trans kind.symm) same
              exact apart _ isErrand
        rw [handlers, Function.update_of_ne different]

/-- The intents of an event of a handler tell what the event told. -/
theorem reports_of_handler {event : RunQueueEvent} {handler handler' : ConnHandler}
    {buffers buffers' : IoBufs} {intents : List MachineIntent}
    (kind : event.handle.poolId = connHandler)
    (found : s.handlerAt event.handle.genId = some handler)
    (move : ConnMove handler buffers event.reason handler' buffers' intents)
    (fits : event.reason.errand.FitsHandler handler) :
    (intents.map (AgendaItem.intent event.handle)).filterMap s'.report? =
      (s.report? (.event event)).toList := by
  obtain ⟨reason, handle⟩ := event
  have notListener := ObjectHandle.notListener kind
  cases move with
  | spawned => rfl
  | retry => rfl
  | endOfStream flags phase buffers' start => simp [report?, notListener, found, start]
  | transient res flags phase handle negative kind start => simp [report?, notListener, found, start]
  | disconnected res flags phase handle buffers' negative kind start =>
      simp [report?, notListener, found, start]
  | ignored res flags phase handle negative notTransient notUnexpected notDisconnect start =>
      simp [report?, notListener, found, start]
  | received res flags phase next handle positive start =>
      simp [report?, notListener, found, start]
  | closed flags start => simp [report?, notListener, found, start]
  | closeAgain res flags buffers' nonzero start => simp [report?, notListener, nonzero]
  | late event start =>
      cases reason with
      | spawn => rfl
      | ioCompleted res flags => simp [report?, notListener, found, start]

/-- The intents of an event of a listener that accepts tell what the event told. -/
theorem reports_of_listener {event : RunQueueEvent} {listener listener' : TcpServer}
    {listened : Result Fd} {intents : List MachineIntent} (kind : event.handle.poolId = tcpServer)
    (move : ListenerMove listener listened event.reason listener' intents)
    (accepts : ∀ res flags, event.reason = .ioCompleted res flags → listener.state = .accepting) :
    (intents.map (AgendaItem.intent event.handle)).filterMap s'.report? =
      (s.report? (.event event)).toList := by
  obtain ⟨reason, handle⟩ := event
  have listening : handle.poolId = tcpServer := kind
  cases move with
  | listening => rfl
  | refused => rfl
  | failed res flags start negative => simp [report?, listening, Int32.not_le.mpr negative]
  | accepted res flags start success more =>
      simp [report?, listening, Int32.not_lt.mp success]
  | rearmed res flags start success last =>
      simp [report?, listening, Int32.not_lt.mp success]
  | ignored res flags error start =>
      have accepting := accepts res flags rfl
      rw [start] at accepting
      cases accepting

/-- A step of the executor takes reports and settles them, or leaves the handover as it is. -/
theorem handover_progress {table occupied : Finset Fixed} (inv : s.ErrandInv)
    (progress : s.Progress label s')
    (executor : ∀ index result flags data, label ≠ .complete index result flags data)
    (handover : SlotHandover table s.sockets s.reports occupied) :
    SlotHandover table s'.sockets s'.reports occupied := by
  have same : s'.sockets = s.sockets → s'.reports = s.reports →
      SlotHandover table s'.sockets s'.reports occupied := by
    intro sockets reports
    rwa [sockets, reports]
  have sockets_same : s'.handlerAt = s.handlerAt → s'.sockets = s.sockets := by
    intro handlers
    funext id
    rw [sockets, handlers, sockets]
  have held := inv.tokens
  cases progress with
  | idle _ _ kernel agenda ops handlers listeners =>
      exact same (sockets_same handlers) (reports_same agenda handlers)
  | missing listened _ event absent agenda ops handlers listeners =>
      exact absurd absent (inv.not_missing agenda)
  | handler listened _ event handler handler' intents rest kind found move agenda agenda' ops
      handlers listeners =>
      rw [errands, agenda, errandsOf_cons_some (errand?_event kind)] at held
      have fits := (held.fits _ _ (Multiset.mem_cons_self ..)).handler_of kind found
      refine same ?_ ?_
      · have kept : s.sockets event.handle.genId = some handler'.socket := by
          rw [sockets, found, Option.map_some, move.socket]
        rw [sockets_update handlers, Option.map_some, ← kept, Function.update_eq_self]
      · rw [reports, agenda', List.filterMap_append, reports_of_handler kind found move fits,
          reports_frame kind handlers held.unique fun other errand member =>
            held.fits other errand (Multiset.mem_cons_of_mem member), reports_cons agenda]
  | listener listened _ event listener listener' intents rest kind found move agenda agenda' ops
      handlers listeners =>
      apply same (sockets_same handlers)
      have accepts : ∀ res flags, event.reason = .ioCompleted res flags →
          listener.state = .accepting := by
        intro res flags reason
        obtain ⟨_, handle⟩ := event
        cases reason
        obtain ⟨_, other, found', accepting⟩ :=
          inv.accepting (handle, res, flags) (by simp [accepts_cons kind agenda])
        rw [found] at found'
        cases found'
        exact accepting
      rw [reports, agenda', List.filterMap_append, reports_of_listener kind move accepts,
        report?_congr handlers, reports_cons agenda]
  | retry listened _ handle front back agenda agenda' ops handlers listeners =>
      apply same (sockets_same handlers)
      rw [reports_cons agenda, reports, agenda', report?_congr handlers, List.filterMap_append,
        List.filterMap_cons_none rfl, List.filterMap_append]
      rfl
  | submit listened _ handle intent sqe submits agenda ops handlers listeners =>
      apply same (sockets_same handlers)
      have noReport : s.report? (.intent handle intent) = none := by
        cases submits <;> rfl
      rw [reports_cons agenda, noReport, reports, report?_congr handlers]
      rfl
  | spawned listened _ handle fixed id front back small unbound agenda agenda' ops handlers
      listeners =>
      have kind := ObjectHandle.poolId_new connHandler small
      have sameId := ObjectHandle.genId_new connHandler small
      rw [errands, agenda, errandsOf_cons_none rfl] at held
      have apart := not_held held small unbound
      have rest := reports_frame kind (by rw [handlers, sameId]) apart held.fits
      rw [reports_cons agenda, ← rest] at handover
      have settled := handover.settle (show s.sockets id = none by rw [sockets, unbound]; rfl)
      have sockets' : s'.sockets = Function.update s.sockets id (some fixed) :=
        sockets_update handlers
      rw [sockets', reports, agenda', List.filterMap_append, List.filterMap_cons_none rfl,
        ← List.filterMap_append]
      exact settled
  | terminated listened _ handle kind agenda ops handlers listeners =>
      rw [errands, agenda, errandsOf_cons_some rfl] at held
      have rest := reports_frame kind handlers held.unique fun other errand member =>
        held.fits other errand (Multiset.mem_cons_of_mem member)
      rw [reports_cons agenda, ← rest] at handover
      have sockets' : s'.sockets = Function.update s.sockets handle.genId none :=
        sockets_update handlers
      rw [sockets']
      exact handover.leave
  | completed index result flags data =>
      exact absurd rfl (executor index result flags data)

/-- A handler whose close is reported has something under way in the agenda. -/
theorem errand_of_released {id : GenId} {ops : Multiset Sqe}
    (fits : ∀ handle errand, (handle, errand) ∈ errandsOf s.agenda ops → s.Fits handle errand)
    (told : .released id ∈ s.reports) :
    ∃ handle errand, handle.poolId = connHandler ∧ handle.genId = id ∧
      (handle, errand) ∈ errandsOf s.agenda ops := by
  obtain ⟨item, member, report⟩ := List.mem_filterMap.mp told
  have found : ∀ {held}, item.errand? = some held → held ∈ errandsOf s.agenda ops := fun has =>
    Multiset.mem_add.mpr (.inl (Multiset.mem_coe.mpr (List.mem_filterMap.mpr ⟨item, member, has⟩)))
  unfold report? at report
  split at report
  · rename_i res flags handle
    split at report
    · split at report <;> cases report
    · rename_i notListener
      split at report <;> cases report
      have isErrand := found (show _ = some (handle, Errand.completed res) by
        simp [AgendaItem.errand?, notListener])
      cases fits _ _ isErrand with
      | listener listening => exact absurd listening notListener
      | handler kind => exact ⟨handle, .completed res, kind, rfl, isErrand⟩
  · cases report
  · rename_i handle
    cases report
    have isErrand := found (show _ = some (handle, Errand.terminate) from rfl)
    cases fits _ _ isErrand with
    | listener _ _ _ waits => exact absurd waits id
    | handler kind => exact ⟨handle, .terminate, kind, rfl, isErrand⟩
  · cases report

/-- A completion is reported as the kernel performed it. -/
theorem handover_completed {files : UInt32} {occupied occupied' : Finset Fixed} {result : Int32}
    {flags : UInt32} {sqe : Sqe} {others : Multiset Sqe} (inv : s.ErrandInv)
    (performed : sqe.op.perform files occupied result flags = some occupied')
    (agenda : s'.agenda = s.agenda ++ [.event ⟨.ioCompleted result flags, ⟨sqe.userData⟩⟩])
    (ops : s.ops = sqe ::ₘ others) (handlers : s'.handlerAt = s.handlerAt)
    (handover : SlotHandover (slotTable files) s.sockets s.reports occupied) :
    SlotHandover (slotTable files) s'.sockets s'.reports occupied' := by
  obtain ⟨op, userData⟩ := sqe
  have held := inv.tokens
  rw [errands, ops, errandsOf_submitted] at held
  have fits := held.fits ⟨userData⟩ op.errand (Multiset.mem_cons_self ..)
  have sockets' : s'.sockets = s.sockets := by
    funext id
    rw [sockets, handlers, sockets]
  have appended : ∀ {told}, s.report? (.event ⟨.ioCompleted result flags, ⟨userData⟩⟩) = told →
      s'.reports = s.reports ++ told.toList := by
    intro told report
    rw [reports, agenda, report?_congr handlers, List.filterMap_append, reports]
    cases told with
    | none => rw [List.filterMap_cons_none report]; rfl
    | some told => rw [List.filterMap_cons_some report]; rfl
  have silent : s.report? (.event ⟨.ioCompleted result flags, ⟨userData⟩⟩) = none →
      occupied' = occupied → SlotHandover (slotTable files) s'.sockets s'.reports occupied' := by
    rintro report rfl
    rw [sockets', appended report, Option.toList_none, List.append_nil]
    exact handover
  rw [sockets'] at silent ⊢
  cases op with
  | acceptMulti fd =>
      cases fits with
      | handler _ _ _ waits => exact absurd waits id
      | listener kind listener found waits =>
          simp only [Op.perform] at performed
          split at performed
          · rename_i success
            split at performed <;> cases performed
            rename_i free
            have report : s.report? (.event ⟨.ioCompleted result flags, ⟨userData⟩⟩) =
                some (.accepted result.toUInt32) := by
              simp [report?, kind, success]
            rw [appended report]
            exact handover.accept (mem_slotTable.mpr free.1) free.2
          · rename_i failed
            split at performed <;> cases performed
            exact silent (by simp [report?, kind, failed]) rfl
  | readFixed fixed buf len bufIndex bufferId =>
      cases fits with
      | listener _ _ _ waits => exact absurd waits id
      | handler kind handler found waits =>
          obtain ⟨phase, start⟩ := waits
          have notListener := ObjectHandle.notListener kind
          simp only [Op.perform] at performed
          split at performed <;> cases performed
          exact silent (by simp [report?, notListener, found, start]) rfl
  | close fixed =>
      cases fits with
      | listener _ _ _ waits => exact absurd waits id
      | handler kind handler found waits =>
          obtain ⟨start, rfl⟩ := waits
          have notListener := ObjectHandle.notListener kind
          simp only [Op.perform] at performed
          split at performed
          · rename_i success
            cases performed
            have report : s.report? (.event ⟨.ioCompleted result flags, ⟨userData⟩⟩) =
                some (.released (ObjectHandle.mk userData).genId) := by
              simp [report?, notListener, found, start, success]
            have owns : s.sockets (ObjectHandle.mk userData).genId = some handler.socket := by
              rw [sockets, found]
              rfl
            rw [appended report]
            apply handover.release owns
            intro told
            obtain ⟨other, errand, handling, sameId, member⟩ := errand_of_released
              (fun other errand member => held.fits other errand (Multiset.mem_cons_of_mem member))
              told
            obtain rfl := ObjectHandle.eq_of_fields (handling.trans kind.symm) sameId
            exact held.unique errand member
          · rename_i failed
            cases performed
            exact silent (by simp [report?, notListener, failed]) rfl

/-- No step changes the size of the table. -/
theorem files_move (move : RunMove s label s') : s'.executor.io.files = s.executor.io.files := by
  cases move <;> rfl

end Running

namespace Hosted

variable {s s' : Hosted} {label : RunLabel}

/-- The executor and the kernel agree on the table, up to the reports. -/
structure SlotInv (s : Hosted) : Prop where
  errands : s.running.ErrandInv
  files : s.running.executor.io.files.toNat =
    s.running.executor.connHandlerPool.alloc.capacity
  handover : SlotHandover (slotTable s.running.executor.io.files) s.running.sockets
    s.running.reports s.occupied

/-- A step of executor and kernel is a step of the executor, and what the kernel performs with it. -/
theorem step_cases (stepped : s.step label = some s') :
    s.running.step label = some s'.running ∧
      (((∀ index result flags data, label ≠ .complete index result flags data) ∧
        s'.occupied = s.occupied) ∨
      ∃ index result flags data sqe, label = .complete index result flags data ∧
        s.running.executor.io.inFlight[index]? = some sqe ∧
        sqe.op.perform s.running.executor.io.files s.occupied result flags = some s'.occupied) := by
  cases label with
  | tick listened =>
      obtain ⟨running, ran, rfl⟩ := Option.map_eq_some_iff.mp stepped
      exact ⟨ran, .inl ⟨by simp, rfl⟩⟩
  | take =>
      obtain ⟨running, ran, rfl⟩ := Option.map_eq_some_iff.mp stepped
      exact ⟨ran, .inl ⟨by simp, rfl⟩⟩
  | complete index result flags data =>
      simp only [step] at stepped
      split at stepped
      · rename_i sqe working
        split at stepped
        · rename_i occupied performed
          obtain ⟨running, ran, rfl⟩ := Option.map_eq_some_iff.mp stepped
          exact ⟨ran, .inr ⟨index, result, flags, data, sqe, rfl, working, performed⟩⟩
        · cases stepped
      · cases stepped

/-- Every step keeps the invariant. -/
theorem SlotInv.step (inv : s.SlotInv) (stepped : s.step label = some s') : s'.SlotInv := by
  obtain ⟨ran, performs⟩ := step_cases stepped
  have move := Running.step_move ran
  have progress := inv.errands.queues.progress move
  have files := Running.files_move move
  have posts : Running.kernelPosts s.running label s'.running := by
    rintro index result flags data sqe rfl working
    rcases performs with ⟨executor, _⟩ | ⟨_, _, _, _, other, same, working', performed⟩
    · exact absurd rfl (executor index result flags data)
    · cases same
      rw [working] at working'
      cases working'
      exact Op.posts_of_perform performed
  refine ⟨inv.errands.move move posts, ?_, ?_⟩
  · rw [files, inv.files, Running.capacity_move inv.errands.queues.handlers move]
  · rw [files]
    rcases performs with ⟨executor, occupied⟩ | ⟨_, _, _, _, sqe, rfl, working, performed⟩
    · rw [occupied]
      exact Running.handover_progress inv.errands progress executor inv.handover
    · cases progress with
      | idle _ _ kernel => exact absurd rfl (kernel _ _ _ _)
      | completed _ _ _ _ _ other others working' agenda ops ops' handlers listeners =>
          rw [working] at working'
          cases working'
          exact Running.handover_completed inv.errands performed agenda ops handlers inv.handover

/-- The invariant at the start of a run, when the mask of the pool keeps the number of handlers. -/
theorem slotInv_initial {listeners connHandlers bufCount : UInt32}
    (small : connHandlers.toNat ≤ 0x00FFFFFF)
    (start : (machine listeners connHandlers bufCount).initial s) : s.SlotInv := by
  obtain ⟨⟨entries, raw, started⟩, empty⟩ := start
  obtain ⟨errands, noneFound, handle, agenda⟩ := Running.errandInv_start started
  obtain ⟨_, poolMade, _, _, _, _, files, _⟩ := Running.start_fields started
  obtain ⟨_, _, capacity, sized⟩ := ObjectPool.inv_of_new poolMade
  refine ⟨errands, ?_, ?_⟩
  · have masked : GenAlloc.maskedCapacity connHandlers objectPoolMask = connHandlers :=
      ObjectPool.and_mask (UInt32.le_iff_toNat_le.mpr small)
    rw [files, capacity, masked, ObjectPool.capacity, sized, UInt32.ofNat_toNat]
  · have sockets : s.running.sockets = fun _ => none := by
      funext id
      rw [Running.sockets, noneFound]
      rfl
    have reports : s.running.reports = [] := by
      rw [Running.reports, agenda]
      rfl
    rw [sockets, reports, empty]
    exact SlotHandover.initial

/-- Any number of connections up to the mask of the pool, any order of steps: every occupied slot
of the table has exactly one holder, a live connection handler on it whose close has not succeeded
or one completion that is not processed yet; and an accepted connection always finds room in the
pool. -/
theorem slots_owned {listeners connHandlers bufCount : UInt32}
    (small : connHandlers.toNat ≤ 0x00FFFFFF)
    (reached : (machine listeners connHandlers bufCount).Reachable s) :
    (∀ slot, slot ∈ s.occupied ↔
      ∃! holder : Holder GenId, holder.Holds s.running.sockets s.running.reports slot) ∧
    ∀ handle fixed rest, s.running.phase = .completeIntent handle (.spawnConnHandler fixed :: rest) →
      ∃ fresh pool, s.running.executor.connHandlerPool.spawn (ConnHandler.new fixed) =
        .ok (some fresh, pool) := by
  have inv := reached.invariant SlotInv (fun _ => slotInv_initial small)
    fun _ _ _ inv stepped _ => inv.step stepped
  refine ⟨fun slot => inv.handover.existsUnique_holder, fun handle fixed rest phase => ?_⟩
  rcases inv.errands.queues.handlers.pool.spawn_spec (ConnHandler.new fixed) with
    ⟨_, noneFree⟩ | ⟨id, pool, spawned, _⟩
  · obtain ⟨ids, full, live⟩ := inv.errands.queues.handlers.pool.spawn_none noneFree
    have handover := inv.handover
    rw [Running.reports_cons (Running.agenda_intent phase)] at handover
    have room := handover.card_lt ids fun id member => by
      simpa [Running.sockets, Running.handlerAt] using live id member
    have bound := card_slotTable s.running.executor.io.files
    have files := inv.files
    omega
  · exact ⟨_, pool, spawned⟩

/-- A schedule that passes a test, run from the start of an executor and an empty table. -/
theorem exists_reach_of_start {entries : Nat} {listeners connHandlers bufCount : UInt32}
    {raw : Option (Nat × (Nat → UInt8))} {guard : Machine.Guard Hosted RunLabel}
    (check : Hosted → RunLabel → Hosted → Bool)
    (sound : ∀ s label s', check s label s' = true → guard s label s') (labels : List RunLabel)
    (test : Hosted → Bool)
    (passed : ((Running.start entries listeners connHandlers bufCount raw).toOption.bind
      fun running => (machine listeners connHandlers bufCount).run check ⟨running, ∅⟩ labels).any
        test = true) :
    ∃ s, (machine listeners connHandlers bufCount).Reach guard s ∧ test s = true := by
  have initial : ∀ running, Running.start entries listeners connHandlers bufCount raw = .ok running →
      (machine listeners connHandlers bufCount).initial ⟨running, ∅⟩ :=
    fun _ started => ⟨⟨entries, raw, started⟩, rfl⟩
  exact Machine.exists_reach_of_start _ initial check sound labels test passed

set_option maxRecDepth 100000 in
/-- A table of one slot, in a pool of one.  The connection on it ends and the slot is accepted
again, both before the executor learns of either: when it comes to the second connection, that is
the one holder of the slot, and there is room. -/
theorem slots_owned_again :
    ∃ s : Hosted, s.running.phase = .completeIntent ⟨0x0100000000000000⟩ [.spawnConnHandler 0] ∧
      (∃! holder : Holder GenId, holder.Holds s.running.sockets s.running.reports 0) ∧
      ∃ fresh pool, s.running.executor.connHandlerPool.spawn (ConnHandler.new 0) =
        .ok (some fresh, pool) := by
  obtain ⟨s, reached, ends⟩ : ∃ s, (machine 1 1 1).Reachable s ∧
      (s.running.phase == .completeIntent ⟨0x0100000000000000⟩ [.spawnConnHandler 0] &&
        decide (0 ∈ s.occupied)) = true :=
    @exists_reach_of_start 16 1 1 1 (some (0x1000, fun _ => 0)) _ (fun _ _ _ => true)
      (fun _ _ _ _ => trivial)
      (Running.acceptOne ++ [.take, .complete 1 0 0 []] ++ Running.ticks 5 ++
        [.take, .complete 1 0 0 [], .complete 0 0 2 []] ++ Running.ticks 10) _ rfl
  simp only [Bool.and_eq_true, beq_iff_eq, decide_eq_true_eq] at ends
  obtain ⟨holders, room⟩ := slots_owned (by decide) reached
  exact ⟨s, ends.1, (holders 0).mp ends.2, room _ _ _ ends.1⟩

end Hosted

end Hoarder
