/-
The bytes of a connection: what the socket takes is what was accepted, in order. The invariant
says where the accepted bytes are in each phase of a write: with the socket, with the operation
in flight, in the queue or with the group that is just being queued.
-/
import Opio.Lib.Runs
import Opio.Net.WriteQueue
import Opio.Net.Bystanders

namespace Opio.Net

/-! ## Where a work item stands -/

/-- The frame puts bytes into the queue or the socket; it never waits below another one. -/
def Frame.isActive : Frame → Bool
  | .append _ _ _ _ => true
  | .aggressiveWrite _ _ _ _ => true
  | .initiateWrite => true
  | .syncWrite => true
  | _ => false

/-- What a work item is at, as far as it moves bytes. -/
inductive Doing
  | nothing
  | appending (beAggressive : Bool)
  | directWrite
  | initiating
  | gatherWrite
  deriving DecidableEq

/-- Nothing of the group at hand is in the queue. -/
def Doing.IsDirect (d : Doing) : Prop := d = .nothing ∨ d = .appending true ∨ d = .directWrite

/-- The socket is not being written to. -/
def Doing.NoWrite (d : Doing) : Prop := d ≠ .directWrite ∧ d ≠ .gatherWrite

namespace Connection

variable {env : ConnectionEnv} {c c' : Connection}

def doing : List Frame → Doing
  | .append _ beAggressive _ _ :: _ => .appending beAggressive
  | .aggressiveWrite _ _ _ _ :: _ => .directWrite
  | .initiateWrite :: _ => .initiating
  | .syncWrite :: _ => .gatherWrite
  | _ => .nothing

/-- The accepted bytes that are neither in the queue nor with the socket. -/
def pendingBytes : List Frame → Bytes
  | .append bufs _ _ _ :: _ => bufs.flatten
  | .aggressiveWrite buf bufs _ _ :: _ => buf ++ bufs.flatten
  | _ => []

theorem doing_of_waiting : ∀ {stack : List Frame}, (∀ f ∈ stack, f.isActive = false) →
    doing stack = .nothing ∧ pendingBytes stack = []
  | [], _ => ⟨rfl, rfl⟩
  | f :: _, h => by
    have hf := h f (List.mem_cons_self ..)
    cases f <;> first | exact ⟨rfl, rfl⟩ | cases hf

/-! ## The phases of a write -/

/-- What holds in every phase: how far the queue entries got, and that a connection that was shut
down accepts nothing. -/
structure Core (c : Connection) (started written : Nat) (failed : List Nat) : Prop where
  alive : c.destroyed = false
  below : ∀ f ∈ c.stack.tail, f.isActive = false
  closed : Closing c → c.scheduleForWriteIsEnabled = false
  started : startedEntries c.log = List.range (c.popped + started)
  written : writtenEntries c.log = List.range (c.popped + written)
  failed : failedEntries c.log = failed
  popped : poppedEntries c.log = List.range c.popped

/-- Where the accepted bytes are. -/
inductive Stands (c : Connection) : Prop
  /-- No write is under way: what is accepted was taken or waits in the queue. -/
  | idle (core : Core c 0 0 []) (running : c.isWriteOperationRunning = false) (async : c.asyncWrite = none)
    (notPopping : .popWritten ∉ c.stack) (queue : QueueOk c.writeQueue) (notGather : doing c.stack ≠ .gatherWrite)
    (clear : (doing c.stack).IsDirect → Clear c.writeQueue)
    (bytes : taken c.log ++ queueBytes c.writeQueue ++ pendingBytes c.stack = accepted c.log)
  /-- The front is being written synchronously. -/
  | gather (core : Core c 1 0 []) (running : c.isWriteOperationRunning = false) (async : c.asyncWrite = none)
    (notPopping : .popWritten ∉ c.stack) (queue : QueueOk c.writeQueue) (gathers : doing c.stack = .gatherWrite)
    (descriptors : (front c.writeQueue).asioBufs = (front c.writeQueue).bufsStorage)
    (bytes : taken c.log ++ queueBytes c.writeQueue = accepted c.log)
  /-- The front, or what is left of it, is with the asynchronous write. -/
  | writing (core : Core c 1 0 []) (bufs : List Bytes) (running : c.isWriteOperationRunning = true)
    (async : c.asyncWrite = some bufs) (notPopping : .popWritten ∉ c.stack) (queue : QueueOk c.writeQueue.tail)
    (noWrite : (doing c.stack).NoWrite)
    (bytes : taken c.log ++ bufs.flatten ++ queueBytes c.writeQueue.tail ++ pendingBytes c.stack = accepted c.log)
  /-- The front was written, its callbacks run, and it is not popped yet. -/
  | popping (core : Core c 1 1 []) (async : c.asyncWrite = none) (once : c.stack.count .popWritten = 1)
    (queue : QueueOk c.writeQueue.tail)
    (bytes : taken c.log ++ queueBytes c.writeQueue.tail ++ pendingBytes c.stack = accepted c.log)
    (sync : c.isWriteOperationRunning = false → (doing c.stack).IsDirect ∧
      (queueBytes c.writeQueue.tail = [] ∨ pendingBytes c.stack = []))
    (noWrite : c.isWriteOperationRunning = true → (doing c.stack).NoWrite)
  /-- A write failed, and there will be no other. -/
  | failed (entries : List Nat) (core : Core c 1 0 entries) (hasFailed : entries ≠ []) (lost : Bytes)
    (async : c.asyncWrite = none) (notPopping : .popWritten ∉ c.stack) (queue : QueueOk c.writeQueue.tail)
    (bytes : taken c.log ++ lost ++ queueBytes c.writeQueue.tail ++ pendingBytes c.stack = accepted c.log)
    (noWrite : (doing c.stack).NoWrite)
    (silent : c.isWriteOperationRunning = false → c.scheduleForWriteIsEnabled = false ∧ doing c.stack = .nothing)

/-! ## Steps that move no bytes -/

theorem Core.next {started written started' written' : Nat} {failed failed' : List Nat}
    (h : Core c started written failed) {evs : List Event}
    (hlog : c'.log = c.log ++ evs) (hdestroyed : c'.destroyed = c.destroyed)
    (hbelow : ∀ f ∈ c'.stack.tail, f.isActive = false) (hclosed : Closing c' → c'.scheduleForWriteIsEnabled = false)
    (hs : List.range (c.popped + started) ++ startedEntries evs = List.range (c'.popped + started'))
    (hw : List.range (c.popped + written) ++ writtenEntries evs = List.range (c'.popped + written'))
    (hf : failed ++ failedEntries evs = failed')
    (hp : List.range c.popped ++ poppedEntries evs = List.range c'.popped) : Core c' started' written' failed' := by
  refine ⟨hdestroyed.trans h.alive, hbelow, hclosed, ?_, ?_, ?_, ?_⟩
  · rw [hlog, startedEntries_append, h.started, hs]
  · rw [hlog, writtenEntries_append, h.written, hw]
  · rw [hlog, failedEntries_append, h.failed, hf]
  · rw [hlog, poppedEntries_append, h.popped, hp]

/-- A step that starts, finishes and pops no write. -/
theorem Core.same {started written : Nat} {failed : List Nat} (h : Core c started written failed) {evs : List Event}
    (hevs : ∀ ev ∈ evs, ev.KeepsEntries) (hlog : c'.log = c.log ++ evs) (hdestroyed : c'.destroyed = c.destroyed)
    (hpopped : c'.popped = c.popped) (hbelow : ∀ f ∈ c'.stack.tail, f.isActive = false)
    (hclosed : Closing c' → c'.scheduleForWriteIsEnabled = false) : Core c' started written failed := by
  obtain ⟨hs, hw, hf, hp⟩ := entries_eq_nil hevs
  refine h.next hlog hdestroyed hbelow hclosed ?_ ?_ ?_ ?_
  · rw [hs, List.append_nil, hpopped]
  · rw [hw, List.append_nil, hpopped]
  · rw [hf, List.append_nil]
  · rw [hp, List.append_nil, hpopped]

/-- A step that moves no bytes, from a stack at whose top no bytes are held to one with frames on
it that hold none. -/
theorem Stands.of_sameStream (h : Stands c) {evs : List Event} (hsame : SameStream c c' evs) (fs gs base : List Frame)
    (hstack : c.stack = fs ++ base) (hstack' : c'.stack = gs ++ base)
    (hgather : doing c.stack ≠ .gatherWrite) (hdirect : c.isWriteOperationRunning = false → (doing c.stack).IsDirect)
    (hpending : pendingBytes c.stack = [])
    (hbase : ∀ f ∈ base, f.isActive = false) (hfs : .popWritten ∉ fs)
    (hgs : ∀ f ∈ gs, f.isActive = false ∧ f ≠ .popWritten) : Stands c' := by
  have hwaits : ∀ f ∈ c'.stack, f.isActive = false := by
    intro f hf
    rw [hstack'] at hf
    exact (List.mem_append.1 hf).elim (fun h => (hgs f h).1) (hbase f)
  obtain ⟨hdoing', hpending'⟩ := doing_of_waiting hwaits
  obtain ⟨ha, ht⟩ := bytes_eq_nil hsame.inert
  replace ha : accepted c'.log = accepted c.log := by rw [hsame.log, accepted_append, ha, List.append_nil]
  replace ht : taken c'.log = taken c.log := by rw [hsame.log, taken_append, ht, List.append_nil]
  have hpop : Frame.popWritten ∉ gs := fun hmem => (hgs _ hmem).2 rfl
  have hcount : c'.stack.count .popWritten = c.stack.count .popWritten := by
    rw [hstack', hstack, List.count_append, List.count_append, List.count_eq_zero.2 hpop, List.count_eq_zero.2 hfs]
  have hmem : Frame.popWritten ∉ c.stack → Frame.popWritten ∉ c'.stack := by
    intro h
    rw [← List.count_eq_zero] at h ⊢
    exact hcount.trans h
  have hdirect' : (doing c'.stack).IsDirect := .inl hdoing'
  have hnoWrite : (doing c'.stack).NoWrite := by
    rw [hdoing']
    exact ⟨by simp, by simp⟩
  -- the frames that wait and the log are all the core speaks of
  have hcore : ∀ {started written failed}, Core c started written failed → Core c' started written failed := fun h =>
    h.same (fun ev hev => (hsame.inert ev hev).2.2) hsame.log hsame.destroyed hsame.popped
      (fun f hf => hwaits f (List.mem_of_mem_tail hf)) (hsame.closed h.closed)
  -- the operation stays in the state it is in, with the bytes it holds
  cases h with
  | idle core running async notPopping queue _ clear bytes =>
    refine .idle (hcore core) (hsame.running.trans running) (hsame.asyncWrite.trans async) (hmem notPopping) ?_
      hnoWrite.2 ?_ ?_
    · rw [hsame.writeQueue]
      exact queue
    · intro _
      rw [hsame.writeQueue]
      exact clear (hdirect running)
    · rw [ha, ht, hsame.writeQueue, hpending', ← bytes, hpending]
  | gather core running async notPopping queue gathers descriptors bytes =>
    exact absurd gathers hgather
  | writing core bufs running async notPopping queue noWrite bytes =>
    refine .writing (hcore core) bufs (hsame.running.trans running) (hsame.asyncWrite.trans async) (hmem notPopping) ?_
      hnoWrite ?_
    · rw [hsame.writeQueue]
      exact queue
    · rw [ha, ht, hsame.writeQueue, hpending', ← bytes, hpending]
  | popping core async once queue bytes sync noWrite =>
    refine .popping (hcore core) (hsame.asyncWrite.trans async) (hcount.trans once) ?_ ?_ ?_ ?_
    · rw [hsame.writeQueue]
      exact queue
    · rw [ha, ht, hsame.writeQueue, hpending', ← bytes, hpending]
    · intro _
      exact ⟨hdirect', .inr hpending'⟩
    · intro _
      exact hnoWrite
  | failed entries core hasFailed lost async notPopping queue bytes noWrite silent =>
    refine .failed entries (hcore core) hasFailed lost (hsame.asyncWrite.trans async) (hmem notPopping) ?_ ?_
      hnoWrite ?_
    · rw [hsame.writeQueue]
      exact queue
    · rw [ha, ht, hsame.writeQueue, hpending', ← bytes, hpending]
    · intro hrun
      rw [hsame.running] at hrun
      exact ⟨hsame.disabled (silent hrun).1, hdoing'⟩

/-- A step that moves no bytes, and leaves frames that hold none above those that wait. -/
def Quiet (c c' : Connection) (base : List Frame) : Prop :=
  ∃ evs gs, SameStream c c' evs ∧ c'.stack = gs ++ base ∧ ∀ f ∈ gs, f.isActive = false ∧ f ≠ .popWritten

theorem isActive_of_isBystander {f : Frame} (h : f.isBystander = true) : f.isActive = false ∧ f ≠ .popWritten := by
  refine ⟨?_, ?_⟩
  · cases f <;> first | rfl | cases h
  · rintro rfl
    cases h

theorem Still.quiet {evs : List Event} {gs base : List Frame} (h : Still c c' evs gs base)
    (hgs : ∀ g ∈ gs, g.isActive = false ∧ g ≠ .popWritten) : Quiet c c' base := ⟨evs, gs, h.same, h.stack, hgs⟩

theorem quiet_of_update {evs log : List Event} {base : List Frame} (gs : List Frame) (readIsEnabled : Bool)
    (readsInFlight groups : Nat) (hlog : log = c.log ++ evs) (hinert : ∀ ev ∈ evs, ev.IsInert)
    (hbase : ∀ f ∈ base, f ∈ c.stack) (hgs : ∀ f ∈ gs, f.isActive = false ∧ f ≠ .popWritten ∧ f ≠ .markShutdown) :
    Quiet c { c with log, readIsEnabled, readsInFlight, groups, stack := gs ++ base } base :=
  ⟨evs, gs, sameStream_of_update gs readIsEnabled readsInFlight groups hlog hinert hbase fun f hf => (hgs f hf).2.2,
    rfl, fun f hf => ⟨(hgs f hf).1, (hgs f hf).2.1⟩⟩

theorem handleIoError_quiet (env : ConnectionEnv) (ec : ErrorCode) (c : Connection) :
    Quiet c (handleIoError env ec c) c.stack := by
  obtain ⟨gs, hstill, hgs⟩ := handleIoError_still env ec c
  exact hstill.quiet fun g hg => isActive_of_isBystander (hgs.bystanders g hg)

theorem Pushed.quiet {f g : Frame} {i : Input} (h : Pushed f i g) : g.isActive = false ∧ g ≠ .popWritten := by
  rcases h with hg | ⟨call, calls, -, rfl⟩
  · exact isActive_of_isBystander hg.1
  · exact ⟨rfl, by simp⟩

/-! ## A group of buffers -/

theorem Closing.of_push {f g : Frame} (hf : g ≠ .markShutdown) (hclosing : Closing (c.push g)) :
    Closing (c.push f) := by
  rcases hclosing with h | h | h
  · exact .inl h
  · exact .inr (.inl h)
  · rcases List.mem_cons.1 h with h | h
    · exact absurd h.symm hf
    · exact .inr (.inr (List.mem_cons_of_mem f h))

@[simp] theorem popWritten_notMem_push {f : Frame} (hf : f ≠ .popWritten) :
    .popWritten ∉ (c.push f).stack ↔ .popWritten ∉ c.stack := by
  show .popWritten ∉ f :: c.stack ↔ _
  simp [hf.symm]

theorem count_push {f : Frame} (hf : f ≠ .popWritten) :
    (c.push f).stack.count .popWritten = c.stack.count .popWritten := List.count_cons_of_ne hf

theorem doing_cons (f : Frame) (fs : List Frame) : doing (f :: fs) = doing [f] := by cases f <;> rfl

theorem pendingBytes_cons (f : Frame) (fs : List Frame) : pendingBytes (f :: fs) = pendingBytes [f] := by
  cases f <;> rfl

/-- The queue took these bytes at its end; what is in front of its back stays as it is. -/
structure Grown (queue queue' : List SingleWritableSequence) (bs : Bytes) : Prop where
  whole : QueueOk queue → QueueOk queue' ∧ queueBytes queue' = queueBytes queue ++ bs
  tail : QueueOk queue.tail → QueueOk queue'.tail ∧ queueBytes queue'.tail = queueBytes queue.tail ++ bs

theorem Grown.refl (queue : List SingleWritableSequence) : Grown queue queue [] :=
  ⟨fun h => ⟨h, (List.append_nil _).symm⟩, fun h => ⟨h, (List.append_nil _).symm⟩⟩

theorem grown_append (env : ConnectionEnv) (buf : Bytes) (queue : List SingleWritableSequence) :
    Grown queue (appendOutgoingBuffer env buf queue) buf := by
  refine ⟨fun h => h.append env buf, fun h => ?_⟩
  cases queue with
  | nil => exact absurd rfl h.ne_nil
  | cons seq rest =>
    obtain ⟨rest', heq, hok, hbytes⟩ := append_cons env buf seq (show QueueOk rest from h)
    rw [heq]
    exact ⟨hok, hbytes⟩

theorem grown_appendCompletionCb (cb : Nat) (queue : List SingleWritableSequence) :
    Grown queue (setBack ((back queue).appendCompletionCb cb) queue) [] := by
  refine ⟨fun h => ?_, fun h => ?_⟩
  · obtain ⟨frozen, seq, rfl, hfrozen⟩ := h
    rw [back_concat, setBack_concat]
    exact ⟨⟨frozen, _, rfl, hfrozen⟩, by simp⟩
  · cases queue with
    | nil => exact absurd rfl h.ne_nil
    | cons first rest =>
      obtain ⟨frozen, seq, hrest, hfrozen⟩ := h
      rw [List.tail_cons] at hrest
      rw [hrest, ← List.cons_append, back_concat, setBack_concat]
      exact ⟨⟨frozen, _, rfl, hfrozen⟩, by simp⟩

/-- A step on a group: the frame `f` that holds some of its bytes is replaced by `g`; the socket
took `t` of what `f` held and of what was accepted with the step, and the queue took `b`. -/
structure GroupStep (c : Connection) (f g : Frame) (c' : Connection) (t b : Bytes) : Prop where
  log : ∃ evs, c'.log = c.log ++ evs ∧ ∀ ev ∈ evs, ev.KeepsEntries
  taken : taken c'.log = taken c.log ++ t
  balance : ∃ a, accepted c'.log = accepted c.log ++ a ∧ pendingBytes [f] ++ a = t ++ b ++ pendingBytes [g]
  queue : Grown c.writeQueue c'.writeQueue b
  running : c'.isWriteOperationRunning = c.isWriteOperationRunning
  asyncWrite : c'.asyncWrite = c.asyncWrite
  destroyed : c'.destroyed = c.destroyed
  popped : c'.popped = c.popped
  called : c'.shutdownWasCalled = c.shutdownWasCalled
  isOpen : c'.socketIsOpen = c.socketIsOpen
  enabled : c'.scheduleForWriteIsEnabled = c.scheduleForWriteIsEnabled
  stack : c'.stack = g :: c.stack
  notShutdown : g ≠ .markShutdown
  notPop : f ≠ .popWritten ∧ g ≠ .popWritten
  notGather : doing [f] ≠ .gatherWrite ∧ doing [g] ≠ .gatherWrite
  direct : (doing [g]).IsDirect → (doing [f]).IsDirect ∧ c'.writeQueue = c.writeQueue
  takes : t = [] ∨ doing [f] = .directWrite
  whileRunning : c.isWriteOperationRunning = true → doing [g] ≠ .directWrite
  whilePopping : c.isWriteOperationRunning = false → .popWritten ∈ c.stack →
    (doing [f]).IsDirect → queueBytes c.writeQueue.tail = [] ∨ pendingBytes [f] = [] →
      (doing [g]).IsDirect ∧ (queueBytes c.writeQueue.tail = [] ∨ t = [] ∧ pendingBytes [g] = [])
  whenSilent : doing [f] = .nothing → c.scheduleForWriteIsEnabled = true

/-- Putting one frame in the place of another, while a group is being queued. -/
theorem GroupStep.core {f g : Frame} {t b : Bytes} (hstep : GroupStep c f g c' t b) {started written : Nat}
    {failed : List Nat} (h : Core (c.push f) started written failed) : Core c' started written failed := by
  obtain ⟨evs, hlog, hevs⟩ := hstep.log
  refine h.same hevs hlog hstep.destroyed hstep.popped ?_ ?_
  · rw [hstep.stack]
    exact h.below
  · intro hclosing
    refine hstep.enabled.trans (h.closed (Closing.of_push (f := f) hstep.notShutdown ?_))
    rcases hclosing with h | h | h
    · exact .inl (hstep.called.symm.trans h)
    · exact .inr (.inl (hstep.isOpen.symm.trans h))
    · rw [hstep.stack] at h
      exact .inr (.inr h)

section GroupStep

variable {f g : Frame} {t b : Bytes}

theorem GroupStep.pendingBytes_eq (hstep : GroupStep c f g c' t b) : pendingBytes c'.stack = pendingBytes [g] := by
  rw [hstep.stack, pendingBytes_cons]

theorem GroupStep.doing_eq (hstep : GroupStep c f g c' t b) : doing c'.stack = doing [g] := by
  rw [hstep.stack, doing_cons]

theorem GroupStep.count_popWritten (hstep : GroupStep c f g c' t b) :
    c'.stack.count .popWritten = (c.push f).stack.count .popWritten := by
  rw [count_push hstep.notPop.1, hstep.stack, List.count_cons_of_ne hstep.notPop.2]

theorem GroupStep.notPopping (hstep : GroupStep c f g c' t b) (h : .popWritten ∉ (c.push f).stack) :
    .popWritten ∉ c'.stack := by
  rw [← List.count_eq_zero] at h ⊢
  exact hstep.count_popWritten.trans h

theorem GroupStep.noWrite (hstep : GroupStep c f g c' t b) (hrun : c.isWriteOperationRunning = true) :
    (doing c'.stack).NoWrite := by
  rw [hstep.doing_eq]
  exact ⟨hstep.whileRunning hrun, hstep.notGather.2⟩

/-- Where nothing is written directly the socket took nothing. -/
theorem GroupStep.taken_eq (hstep : GroupStep c f g c' t b) (hwrites : doing [f] ≠ .directWrite) :
    Opio.Net.taken c'.log = Opio.Net.taken c.log := by
  rw [hstep.taken, hstep.takes.resolve_right hwrites, List.append_nil]

/-- And what the frame held went to the end of the queue or is still pending. -/
theorem GroupStep.bytes_queued (hstep : GroupStep c f g c' t b) (hwrites : doing [f] ≠ .directWrite) {before : Bytes}
    (h : before ++ pendingBytes [f] = accepted c.log) : before ++ b ++ pendingBytes [g] = accepted c'.log := by
  obtain ⟨a, haccepted, hbalance⟩ := hstep.balance
  obtain rfl := hstep.takes.resolve_right hwrites
  rw [List.nil_append] at hbalance
  rw [haccepted, ← h, List.append_assoc, ← hbalance, List.append_assoc]

/-- Where no write is under way a direct write finds the queue empty, so that it overtakes nothing. -/
theorem GroupStep.idle_bytes (hstep : GroupStep c f g c' t b) (queue : QueueOk c.writeQueue)
    (clear : (doing [f]).IsDirect → Clear c.writeQueue)
    (bytes : Opio.Net.taken c.log ++ queueBytes c.writeQueue ++ pendingBytes [f] = accepted c.log) :
    Opio.Net.taken c'.log ++ queueBytes c'.writeQueue ++ pendingBytes c'.stack = accepted c'.log := by
  obtain ⟨a, haccepted, hbalance⟩ := hstep.balance
  rw [hstep.pendingBytes_eq, (hstep.queue.whole queue).2]
  by_cases hwrites : doing [f] = .directWrite
  · have hnil : queueBytes c.writeQueue = [] := by
      apply Clear.queueBytes
      apply clear
      rw [hwrites]
      exact .inr (.inr rfl)
    rw [hnil, List.append_nil] at bytes
    rw [hstep.taken, hnil, List.nil_append, haccepted, ← bytes, List.append_assoc _ _ a, hbalance]
    simp only [List.append_assoc]
  · rw [hstep.taken_eq hwrites, ← List.append_assoc]
    exact hstep.bytes_queued hwrites bytes

/-- While the callbacks of a write run a direct write finds nothing behind the front. -/
theorem GroupStep.popping_bytes (hstep : GroupStep c f g c' t b) (hin : .popWritten ∈ c.stack)
    (queue : QueueOk c.writeQueue.tail)
    (sync : c.isWriteOperationRunning = false → (doing [f]).IsDirect ∧
      (queueBytes c.writeQueue.tail = [] ∨ pendingBytes [f] = []))
    (noWrite : c.isWriteOperationRunning = true → (doing [f]).NoWrite)
    (bytes : Opio.Net.taken c.log ++ queueBytes c.writeQueue.tail ++ pendingBytes [f] = accepted c.log) :
    Opio.Net.taken c'.log ++ queueBytes c'.writeQueue.tail ++ pendingBytes c'.stack = accepted c'.log := by
  obtain ⟨a, haccepted, hbalance⟩ := hstep.balance
  have hbytes := (hstep.queue.tail queue).2
  rw [hstep.pendingBytes_eq, hbytes]
  by_cases hwrites : doing [f] = .directWrite
  · have hrun : c.isWriteOperationRunning = false := by
      rw [← Bool.not_eq_true]
      exact fun hrun => (noWrite hrun).1 hwrites
    obtain ⟨hdirect, hempty⟩ := sync hrun
    obtain ⟨hdirect', hempty'⟩ := hstep.whilePopping hrun hin hdirect hempty
    -- the queue is the same, so it took nothing
    have hb : b = [] := by
      rw [(hstep.direct hdirect').2] at hbytes
      simpa using hbytes
    rw [hb, List.append_nil] at hbalance
    rw [hb, List.append_nil, hstep.taken, haccepted, ← bytes, List.append_assoc _ _ a, hbalance]
    rcases hempty' with hnil | ⟨hnil, hnil'⟩
    · rw [hnil]
      simp only [List.append_nil, List.append_assoc]
    · rw [hnil, hnil']
      simp only [List.append_nil]
  · rw [hstep.taken_eq hwrites, ← List.append_assoc]
    exact hstep.bytes_queued hwrites bytes

/-- A step on a group leaves the phase of the write as it is. -/
theorem Stands.group (h : Stands (c.push f)) (hstep : GroupStep c f g c' t b) : Stands c' := by
  have hpendingf : pendingBytes (c.push f).stack = pendingBytes [f] := pendingBytes_cons f c.stack
  have hdoingf : doing (c.push f).stack = doing [f] := doing_cons f c.stack
  cases h with
  | idle core running async notPopping queue notGather clear bytes =>
    rw [hpendingf] at bytes
    rw [hdoingf] at clear
    refine .idle (hstep.core core) (hstep.running.trans running) (hstep.asyncWrite.trans async)
      (hstep.notPopping notPopping) (hstep.queue.whole queue).1 ?_ ?_ (hstep.idle_bytes queue clear bytes)
    · rw [hstep.doing_eq]
      exact hstep.notGather.2
    · intro hdirect
      rw [hstep.doing_eq] at hdirect
      obtain ⟨hdirectf, hqueue⟩ := hstep.direct hdirect
      rw [hqueue]
      exact clear hdirectf
  | gather core running async notPopping queue gathers descriptors bytes =>
    rw [hdoingf] at gathers
    exact absurd gathers hstep.notGather.1
  | writing core bufs running async notPopping queue noWrite bytes =>
    rw [hdoingf] at noWrite
    rw [hpendingf] at bytes
    obtain ⟨hok, hbytes⟩ := hstep.queue.tail queue
    refine .writing (hstep.core core) bufs (hstep.running.trans running) (hstep.asyncWrite.trans async)
      (hstep.notPopping notPopping) hok (hstep.noWrite running) ?_
    rw [hstep.pendingBytes_eq, hstep.taken_eq noWrite.1, hbytes, ← List.append_assoc]
    exact hstep.bytes_queued noWrite.1 bytes
  | popping core async once queue bytes sync noWrite =>
    rw [hdoingf] at sync noWrite
    rw [hpendingf] at bytes sync
    have hin : .popWritten ∈ c.stack := by
      refine List.count_pos_iff.1 ?_
      rw [← count_push hstep.notPop.1, once]
      exact Nat.one_pos
    refine .popping (hstep.core core) (hstep.asyncWrite.trans async) (hstep.count_popWritten.trans once)
      (hstep.queue.tail queue).1 (hstep.popping_bytes hin queue sync noWrite bytes) ?_ ?_
    · intro hrun
      rw [hstep.running] at hrun
      obtain ⟨hdirect, hempty⟩ := sync hrun
      obtain ⟨hdirect', hempty'⟩ := hstep.whilePopping hrun hin hdirect hempty
      rw [hstep.doing_eq, hstep.pendingBytes_eq, (hstep.direct hdirect').2]
      exact ⟨hdirect', hempty'.imp_right And.right⟩
    · intro hrun
      rw [hstep.running] at hrun
      exact hstep.noWrite hrun
  | failed entries core hasFailed lost async notPopping queue bytes noWrite silent =>
    rw [hdoingf] at noWrite silent
    rw [hpendingf] at bytes
    by_cases hrun : c.isWriteOperationRunning = true
    · obtain ⟨hok, hbytes⟩ := hstep.queue.tail queue
      refine .failed entries (hstep.core core) hasFailed lost (hstep.asyncWrite.trans async)
        (hstep.notPopping notPopping) hok ?_ (hstep.noWrite hrun) ?_
      · rw [hstep.pendingBytes_eq, hstep.taken_eq noWrite.1, hbytes, ← List.append_assoc]
        exact hstep.bytes_queued noWrite.1 bytes
      · intro hrun'
        rw [hstep.running, hrun] at hrun'
        cases hrun'
    · -- a write that failed and is no longer running: nothing is accepted any more
      obtain ⟨hdisabled, hnothing⟩ := silent (Bool.not_eq_true _ ▸ hrun)
      have := hstep.whenSilent hnothing
      rw [show c.scheduleForWriteIsEnabled = false from hdisabled] at this
      cases this

end GroupStep

end Connection

end Opio.Net
