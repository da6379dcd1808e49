/-
Every step keeps the bytes in order, and the entries of the queue each written once, as long as a
send that a callback makes does not get in front of a sequence that is written but not popped.
-/
import Opio.Net.WriteStream

namespace Opio.Net

namespace Connection

variable {env : ConnectionEnv} {c c' : Connection}

/-! ## Steps that move no bytes -/

theorem Stands.alive (h : Stands c) : c.destroyed = false := by
  cases h with
  | idle core => exact core.alive
  | gather core => exact core.alive
  | writing core => exact core.alive
  | popping core => exact core.alive
  | failed entries core => exact core.alive

theorem Stands.below (h : Stands c) : ∀ f ∈ c.stack.tail, f.isActive = false := by
  cases h with
  | idle core => exact core.below
  | gather core => exact core.below
  | writing core => exact core.below
  | popping core => exact core.below
  | failed _ core => exact core.below

theorem doing_of_inactive {f : Frame} (hf : f.isActive = false) (fs : List Frame) :
    doing (f :: fs) = .nothing ∧ pendingBytes (f :: fs) = [] := by
  cases f <;> first | exact ⟨rfl, rfl⟩ | cases hf

/-- A frame that is done with bytes is replaced by frames that hold none. -/
theorem Stands.replace {f : Frame} (h : Stands (c.push f)) (hquiet : Quiet (c.push f) c' c.stack)
    (hgather : doing [f] ≠ .gatherWrite) (hdirect : c.isWriteOperationRunning = false → (doing [f]).IsDirect)
    (hpending : pendingBytes [f] = []) (hpop : f ≠ .popWritten) : Stands c' := by
  obtain ⟨evs, gs, hsame, hstack, hgs⟩ := hquiet
  have hdoing : doing (c.push f).stack = doing [f] := doing_cons f c.stack
  refine h.of_sameStream hsame [f] gs _ rfl hstack ?_ ?_ ?_ h.below (by simpa using hpop.symm) hgs
  · rw [hdoing]
    exact hgather
  · rw [hdoing]
    exact hdirect
  · exact (pendingBytes_cons f c.stack).trans hpending

/-- A step of a frame that holds no bytes. -/
theorem Stands.quiet {f : Frame} (h : Stands (c.push f)) (hactive : f.isActive = false) (hpop : f ≠ .popWritten)
    (hquiet : Quiet (c.push f) c' c.stack) : Stands c' := by
  obtain ⟨hdoing, hpending⟩ := doing_of_inactive hactive []
  refine h.replace hquiet ?_ ?_ hpending hpop
  · rw [hdoing]
    simp
  · intro _
    exact .inl hdoing

theorem Quiet.of_base {base : List Frame} (h : Quiet c c' base) (hbase : base = []) : Quiet c c' [] := hbase ▸ h

/-- A work item that moves no bytes begins. -/
theorem Stands.begin (h : Stands c) (hstack : c.stack = []) (hquiet : Quiet c c' []) : Stands c' := by
  obtain ⟨evs, gs, hsame, hstack', hgs⟩ := hquiet
  refine h.of_sameStream hsame [] gs [] hstack hstack' ?_ ?_ ?_ (by simp) (by simp) hgs
  · rw [hstack]
    simp [doing]
  · rw [hstack]
    intro _
    exact .inl rfl
  · rw [hstack]
    rfl

/-! ## Groups of buffers -/

/-- A group that is accepted while the callbacks of a synchronously written sequence run comes
behind nothing, or is nothing. -/
theorem scheduleSend_stands {s : SendCall} (h : Stands (c.push (.call (.send s))))
    (hfits : c.isWriteOperationRunning = false → .popWritten ∈ c.stack → c.scheduleForWriteIsEnabled = true →
      queueBytes c.writeQueue.tail = [] ∨ s.bufs.flatten = []) : Stands (scheduleSend s c) := by
  have hrefused : ∀ gs : List Frame, (∀ f ∈ gs, f.isActive = false ∧ f ≠ .popWritten ∧ f ≠ .markShutdown) →
      Quiet (c.push (.call (.send s))) { c with
        log := c.log ++ [.refused c.groups s.cb], groups := c.groups + 1, stack := gs ++ c.stack } c.stack := by
    intro gs hgs
    refine quiet_of_update (c := c.push (.call (.send s))) gs c.readIsEnabled c.readsInFlight (c.groups + 1) rfl ?_
      (fun _ h => List.mem_cons_of_mem _ h) hgs
    intro ev hev
    rw [List.mem_singleton.1 hev]
    exact ⟨rfl, rfl, rfl, rfl, rfl, rfl⟩
  refine scheduleSend_elim s c ?accepted ?rejected ?ignored
  case accepted =>
    intro henabled
    refine h.group (g := .append s.bufs true c.groups s.cb) (t := []) (b := []) ?_
    constructor <;> try rfl
    · refine ⟨[.accepted c.groups s.bufs s.cb], rfl, ?_⟩
      intro ev hev
      rw [List.mem_singleton.1 hev]
      exact ⟨rfl, rfl, rfl, rfl⟩
    · exact taken_append ..
    · refine ⟨s.bufs.flatten, ?_, rfl⟩
      refine (accepted_append ..).trans ?_
      simp [accepted, Event.acceptedBytes]
    · exact Grown.refl _
    · simp
    · simp
    · simp [doing]
    · intro _
      exact ⟨.inl rfl, rfl⟩
    · exact .inl rfl
    · intro _
      simp [doing]
    · intro hrun hpop _ _
      exact ⟨.inr (.inl rfl), (hfits hrun hpop henabled).imp_right fun hnil => ⟨rfl, hnil⟩⟩
    · intro _
      exact henabled
  case rejected =>
    intro _ _ _
    exact h.quiet rfl (by simp) (hrefused [.runCallbacks .rejectedScheduleSend [c.groups]] (by simp [Frame.isActive]))
  case ignored => exact fun _ _ => h.quiet rfl (by simp) (hrefused [] (by simp))

/-- The end of a group that was written directly. -/
theorem Stands.written {cb : Bool} {id : Nat} (h : Stands (c.push (.append [] true id cb))) (gs : List Frame)
    (hgs : ∀ f ∈ gs, f.isActive = false ∧ f ≠ .popWritten ∧ f ≠ .markShutdown) :
    Stands { c with stack := gs ++ c.stack } := by
  refine h.replace ?_ ?_ ?_ rfl (by simp)
  · exact quiet_of_update (c := c.push _) gs c.readIsEnabled c.readsInFlight c.groups (List.append_nil _).symm
      (by simp) (fun _ h => List.mem_cons_of_mem _ h) hgs
  · simp [doing]
  · intro _
    exact .inr (.inl rfl)

/-- The end of a group that was queued: its callback goes to the back of the queue, and a write is due. -/
theorem Stands.queued {cb : Bool} {id : Nat} (h : Stands (c.push (.append [] false id cb)))
    {queue : List SingleWritableSequence} (hgrown : Grown c.writeQueue queue []) :
    Stands ({ c with writeQueue := queue }.push .initiateWrite) := by
  refine h.group (g := .initiateWrite) (t := []) (b := []) ?_
  constructor <;> try rfl
  · exact ⟨[], (List.append_nil _).symm, by simp⟩
  · exact (List.append_nil _).symm
  · exact ⟨[], (List.append_nil _).symm, rfl⟩
  · exact hgrown
  · simp
  · simp
  · simp [doing]
  · simp [doing, Doing.IsDirect]
  · exact .inl rfl
  · simp [doing]
  · simp [doing, Doing.IsDirect]
  · simp [doing]

/-- The next buffer of a group, or its end. -/
theorem append_stands {bufs : List Bytes} {beAggressive cb : Bool} {id : Nat}
    (h : Stands (c.push (.append bufs beAggressive id cb)))
    (hfits : c.isWriteOperationRunning = false → .popWritten ∈ c.stack →
      ∀ buf rest, bufs = buf :: rest → buf.length < env.quikSyncWriteHeuristicSize) :
    Stands (append env bufs beAggressive id cb c) := by
  refine append_elim env bufs beAggressive id cb c ?delivered ?ended ?noted ?queued ?direct ?buffered
  case delivered =>
    rintro rfl rfl rfl
    exact h.written [.runCallbacks .success [id]] (by simp [Frame.isActive])
  case ended =>
    rintro rfl rfl rfl
    exact h.written [] (by simp)
  case noted =>
    rintro rfl rfl rfl
    exact h.queued (grown_appendCompletionCb id _)
  case queued =>
    rintro rfl rfl rfl
    exact h.queued (.refl _)
  case direct =>
    rintro buf rest rfl rfl hrun -
    refine h.group (g := .aggressiveWrite buf rest id cb) (t := []) (b := []) ?_
    constructor <;> try rfl
    · exact ⟨[], (List.append_nil _).symm, by simp⟩
    · exact (List.append_nil _).symm
    · exact ⟨[], (List.append_nil _).symm, by simp [pendingBytes]⟩
    · exact Grown.refl _
    · simp
    · simp
    · simp [doing]
    · intro _
      exact ⟨.inr (.inl rfl), rfl⟩
    · exact .inl rfl
    · -- a direct write is made only while no operation runs
      intro hrun'
      exact absurd (hrun'.symm.trans hrun) (by decide)
    · intro _ _ _ hempty
      exact ⟨.inr (.inr rfl), hempty.imp_right fun hnil => ⟨rfl, hnil⟩⟩
    · simp [doing]
  case buffered =>
    rintro buf rest rfl hqueued
    refine h.group (g := .append rest false id cb) (t := []) (b := buf) ?_
    constructor <;> try rfl
    · exact ⟨[], (List.append_nil _).symm, by simp⟩
    · exact (List.append_nil _).symm
    · exact ⟨[], (List.append_nil _).symm, by simp [pendingBytes]⟩
    · exact grown_append env buf _
    · simp
    · simp
    · simp [doing]
    · simp [doing, Doing.IsDirect]
    · exact .inl rfl
    · simp [doing]
    · -- a buffer that is queued behind a written sequence would have that one written again
      intro hrun hpop hdirect
      have hbe : beAggressive = true := by simpa [doing, Doing.IsDirect] using hdirect
      refine absurd ⟨hbe, ?_, hfits hrun hpop buf rest rfl⟩ hqueued
      simpa using hrun
    · simp [doing]

/-- The direct write of a buffer. -/
theorem aggressiveWritten_stands {buf : Bytes} {bufs : List Bytes} {id : Nat} {cb : Bool} {r : WriteResult}
    (h : Stands (c.push (.aggressiveWrite buf bufs id cb)))
    (hfits : c.isWriteOperationRunning = false → .popWritten ∈ c.stack → r.transferred = buf.length) :
    Stands (aggressiveWritten env buf bufs id cb r c) := by
  have hlog : ∀ ev ∈ [Event.taken (buf.take r.transferred), .incBytesTxSync r.transferred], ev.KeepsEntries := by
    simp [Event.KeepsEntries, Event.started?, Event.written?, Event.failed?, Event.popped?]
  refine aggressiveWritten_elim env buf bufs id cb r c ?whole ?partly
  case whole =>
    intro hwhole
    have hall : buf.take r.transferred = buf := by rw [hwhole, List.take_length]
    refine h.group (g := .append bufs true id cb) (t := buf) (b := []) ?_
    constructor <;> try rfl
    · exact ⟨_, List.append_assoc .., hlog⟩
    · simp [push, emit, taken, Event.takenBytes, hall]
    · exact ⟨[], by simp [push, emit, accepted, Event.acceptedBytes], by simp [pendingBytes]⟩
    · exact Grown.refl _
    · simp
    · simp
    · simp [doing]
    · intro _
      exact ⟨.inr (.inr rfl), rfl⟩
    · exact .inr rfl
    · simp [doing]
    · intro _ _ _ hempty
      refine ⟨.inr (.inl rfl), hempty.imp_right fun hnil => ?_⟩
      exact List.append_eq_nil_iff.1 hnil
    · simp [doing]
  case partly =>
    intro hpartial
    -- what the socket did not take is queued
    have hrest : (if r.transferred ≠ 0 then buf.drop r.transferred else buf) = buf.drop r.transferred := by
      split
      · rfl
      · rename_i hzero
        rw [not_not.1 hzero, List.drop_zero]
    rw [hrest]
    refine h.group (g := .append bufs false id cb) (t := buf.take r.transferred) (b := buf.drop r.transferred) ?_
    constructor <;> try rfl
    · exact ⟨_, List.append_assoc .., hlog⟩
    · simp [push, emit, taken, Event.takenBytes]
    · exact ⟨[], by simp [push, emit, accepted, Event.acceptedBytes], by simp [pendingBytes]⟩
    · exact grown_append env _ _
    · simp
    · simp
    · simp [doing]
    · simp [doing, Doing.IsDirect]
    · exact .inr rfl
    · simp [doing]
    · intro hrun hpop
      exact absurd (hfits hrun hpop) hpartial
    · simp [doing]

/-! ## Writes -/

/-- A step that leaves the flags of the shutdown alone, and what it says about the entries. -/
theorem Core.write {started written started' written' popped : Nat} {failed failed' : List Nat}
    {base : List Frame} {log : List Event} {queue : List SingleWritableSequence} {running : Bool}
    {async : Option (List Bytes)} {key : Nat} (h : Core c started written failed) (gs : List Frame) (evs : List Event)
    (hbase : ∀ g ∈ base, g ∈ c.stack ∧ g.isActive = false) (hlog : log = c.log ++ evs)
    (hgs : ∀ g ∈ gs, g ≠ .markShutdown) (hbelow : ∀ g ∈ gs.tail, g.isActive = false)
    (hs : List.range (c.popped + started) ++ startedEntries evs = List.range (popped + started'))
    (hw : List.range (c.popped + written) ++ writtenEntries evs = List.range (popped + written'))
    (hf : failed ++ failedEntries evs = failed')
    (hp : List.range c.popped ++ poppedEntries evs = List.range popped) :
    Core { c with
      writeQueue := queue, isWriteOperationRunning := running, asyncWrite := async, timeoutKey := key,
      popped, log, stack := gs ++ base } started' written' failed' := by
  refine h.next hlog rfl ?_ ?_ hs hw hf hp
  · intro g hg
    cases gs with
    | nil => exact (hbase g (List.mem_of_mem_tail hg)).2
    | cons g' gs => exact (List.mem_append.1 hg).elim (hbelow g) fun hg => (hbase g hg).2
  · rintro (hclosing | hclosing | hclosing)
    · exact h.closed (.inl hclosing)
    · exact h.closed (.inr (.inl hclosing))
    · rcases List.mem_append.1 hclosing with hmem | hmem
      · exact absurd rfl (hgs _ hmem)
      · exact h.closed (.inr (.inr (hbase _ hmem).1))

theorem Core.writeStarted {base : List Frame} {queue : List SingleWritableSequence} {running : Bool}
    {async : Option (List Bytes)} {key : Nat} (h : Core c 0 0 []) (gs : List Frame)
    (hbase : ∀ g ∈ base, g ∈ c.stack ∧ g.isActive = false) (hgs : ∀ g ∈ gs, g ≠ .markShutdown)
    (hbelow : ∀ g ∈ gs.tail, g.isActive = false) :
    Core { c with
      writeQueue := queue, isWriteOperationRunning := running, asyncWrite := async, timeoutKey := key,
      log := c.log ++ [.writeStarted c.popped], stack := gs ++ base } 1 0 [] := by
  refine h.write gs _ hbase rfl hgs hbelow ?_ ?_ rfl ?_
  · exact List.range_succ.symm
  · exact List.append_nil _
  · exact List.append_nil _

/-- The frames below the one at the top. -/
theorem Stands.base {f : Frame} (h : Stands (c.push f)) : ∀ g ∈ c.stack, g ∈ (c.push f).stack ∧ g.isActive = false :=
  fun g hg => ⟨List.mem_cons_of_mem f hg, h.below g hg⟩

theorem Stands.doing_base {f : Frame} (h : Stands (c.push f)) : doing c.stack = .nothing ∧ pendingBytes c.stack = [] :=
  doing_of_waiting h.below

/-- A connection whose front is to be written, or is being written synchronously. -/
structure Writable (c : Connection) (f : Frame) (started : Nat) : Prop where
  core : Core (c.push f) started 0 []
  running : c.isWriteOperationRunning = false
  async : c.asyncWrite = none
  notPopping : .popWritten ∉ c.stack
  queue : QueueOk c.writeQueue
  bytes : taken c.log ++ queueBytes c.writeQueue = accepted c.log

/-- A write that is about to begin is the only one. -/
theorem Stands.initiating (h : Stands (c.push .initiateWrite)) (hrunning : c.isWriteOperationRunning = false) :
    Writable c .initiateWrite 0 := by
  cases h with
  | idle core running async notPopping queue notGather clear bytes =>
    exact ⟨core, running, async, mt (List.mem_cons_of_mem _) notPopping, queue, (List.append_nil _).symm.trans bytes⟩
  | gather core running async notPopping queue gathers => cases gathers
  | writing core bufs running => exact absurd (running.symm.trans hrunning) (by decide)
  | popping core async once queue bytes sync =>
    rcases (sync hrunning).1 with hdoing | hdoing | hdoing <;> cases hdoing
  | failed entries core hasFailed lost async notPopping queue bytes noWrite silent => cases (silent hrunning).2

/-- The front that is being written synchronously, with its own descriptors. -/
theorem Stands.gathering (h : Stands (c.push .syncWrite)) :
    Writable c .syncWrite 1 ∧ (front c.writeQueue).asioBufs = (front c.writeQueue).bufsStorage := by
  cases h with
  | idle core running async notPopping queue notGather => exact absurd rfl notGather
  | gather core running async notPopping queue gathers descriptors bytes =>
    exact ⟨⟨core, running, async, mt (List.mem_cons_of_mem _) notPopping, queue, bytes⟩, descriptors⟩
  | writing core bufs running async notPopping queue noWrite => exact absurd rfl noWrite.2
  | popping core async once queue bytes sync noWrite =>
    cases hrunning : c.isWriteOperationRunning with
    | false => rcases (sync hrunning).1 with hdoing | hdoing | hdoing <;> cases hdoing
    | true => exact absurd rfl (noWrite hrunning).2
  | failed entries core hasFailed lost async notPopping queue bytes noWrite => exact absurd rfl noWrite.2

theorem initiateWrite_stands (h : Stands (c.push .initiateWrite)) : Stands (initiateWriteIfNecessary env c) := by
  obtain ⟨hdoing, hpending⟩ := h.doing_base
  have hbase := h.base
  have hnoWrite : (doing c.stack).NoWrite := by
    rw [hdoing]
    exact ⟨by simp, by simp⟩
  have hfront := fun hidle => (h.initiating hidle).queue.setFront (front c.writeQueue).makeAsioBufs rfl
  refine initiateWrite_elim env c ?running ?nothing ?sync ?async
  case running =>
    intro hrunning
    refine h.replace ?_ (by simp [doing]) ?_ rfl (by simp)
    · exact quiet_of_update (c := c.push _) [] c.readIsEnabled c.readsInFlight c.groups
        (List.append_nil _).symm (by simp) (fun _ h => List.mem_cons_of_mem _ h) (by simp)
    · intro hidle
      exact absurd (hrunning.symm.trans hidle) (by decide)
  case nothing =>
    intro hidle hnil
    have hw := h.initiating hidle
    obtain ⟨hok, hsame⟩ := hfront hidle
    refine .idle (hw.core.write [] [] hbase (List.append_nil _).symm (by simp) (by simp) ?_ ?_ ?_ ?_)
      hidle hw.async hw.notPopping hok hnoWrite.2 ?_ ?_
    · exact List.append_nil _
    · exact List.append_nil _
    · rfl
    · exact List.append_nil _
    · intro _
      exact hok.clear_of_front hnil
    · show taken c.log ++ queueBytes (setFront _ c.writeQueue) ++ pendingBytes c.stack = accepted c.log
      rw [hsame, hpending, List.append_nil, hw.bytes]
  case sync =>
    intro hidle _ _
    have hw := h.initiating hidle
    obtain ⟨hok, hsame⟩ := hfront hidle
    refine .gather (hw.core.writeStarted [.syncWrite] hbase (by simp) (by simp)) hidle hw.async ?_ hok rfl rfl ?_
    · simpa [emit] using hw.notPopping
    · show taken (c.log ++ _) ++ queueBytes (setFront _ c.writeQueue) = accepted (c.log ++ _)
      rw [hsame, taken_append, accepted_append, ← hw.bytes]
      simp [taken, accepted, Event.takenBytes, Event.acceptedBytes]
  case async =>
    intro hidle _
    have hw := h.initiating hidle
    obtain ⟨hok, hsame⟩ := hfront hidle
    -- the front is handed over: its bytes are now those of the operation
    obtain ⟨rest, hfreeze, hrest, hfrozen⟩ := hok.freezeFirst
    refine .writing (hw.core.writeStarted [] hbase (by simp) (by simp))
      (front c.writeQueue).bufsStorage rfl rfl hw.notPopping ?_ hnoWrite ?_
    · show QueueOk (freezeFirst (setFront _ c.writeQueue)).tail
      rw [hfreeze]
      exact hrest
    · show taken (c.log ++ _) ++ (front c.writeQueue).bytes ++
        queueBytes (freezeFirst (setFront _ c.writeQueue)).tail ++ pendingBytes c.stack = accepted (c.log ++ _)
      rw [hfreeze, hpending, List.append_nil, taken_append, accepted_append, ← hw.bytes, ← hsame, hfrozen]
      simp [taken, accepted, Event.takenBytes, Event.acceptedBytes, setFront, front]

/-- A write has failed: the connection shuts down, unless it was the shutdown that failed the write. -/
theorem handleIoError_stands {entries : List Nat} {ec : ErrorCode} (lost : Bytes) (core : Core c 1 0 entries)
    (hasFailed : entries ≠ []) (async : c.asyncWrite = none) (notPopping : .popWritten ∉ c.stack)
    (waits : ∀ f ∈ c.stack, f.isActive = false) (queue : QueueOk c.writeQueue.tail)
    (bytes : taken c.log ++ lost ++ queueBytes c.writeQueue.tail = accepted c.log)
    (hec : c.isWriteOperationRunning = false → ec ≠ .operationAborted) : Stands (handleIoError env ec c) := by
  obtain ⟨evs, gs, hsame, hstack, hgs⟩ := handleIoError_quiet env ec c
  have hwaits : ∀ f ∈ (handleIoError env ec c).stack, f.isActive = false := by
    intro f hf
    rw [hstack] at hf
    exact (List.mem_append.1 hf).elim (fun h => (hgs f h).1) (waits f)
  obtain ⟨hdoing, hpending⟩ := doing_of_waiting hwaits
  obtain ⟨ha, ht⟩ := bytes_eq_nil hsame.inert
  refine .failed entries ?_ hasFailed lost (hsame.asyncWrite.trans async) ?_ ?_ ?_ ?_ ?_
  · exact core.same (fun ev hev => (hsame.inert ev hev).2.2) hsame.log hsame.destroyed hsame.popped
      (fun f hf => hwaits f (List.mem_of_mem_tail hf)) (hsame.closed core.closed)
  · intro hmem
    rw [hstack] at hmem
    rcases List.mem_append.1 hmem with hmem | hmem
    · exact (hgs _ hmem).2 rfl
    · exact notPopping hmem
  · rw [hsame.writeQueue]
    exact queue
  · rw [hpending, hsame.log, hsame.writeQueue, taken_append, accepted_append, ha, ht, List.append_nil, List.append_nil,
      List.append_nil, bytes]
  · rw [hdoing]
    exact ⟨by simp, by simp⟩
  · intro hrun
    rw [hsame.running] at hrun
    refine ⟨?_, hdoing⟩
    unfold handleIoError
    rw [if_neg (hec hrun)]
    exact shutdownImpl_disabled env _ core.closed

/-- The front was written: its callbacks run, and then it is popped. -/
theorem afterWrite_stands (env : ConnectionEnv) (core : Core c 1 0 []) (async : c.asyncWrite = none)
    (notPopping : .popWritten ∉ c.stack) (waits : ∀ f ∈ c.stack, f.isActive = false) (queue : QueueOk c.writeQueue.tail)
    (bytes : taken c.log ++ queueBytes c.writeQueue.tail = accepted c.log) : Stands (afterWrite env none c) := by
  refine .popping (core.write [.runCallbacks .success _, .popWritten] [.written c.popped]
    (fun g hg => ⟨hg, waits g hg⟩) rfl (by simp) (by simp [Frame.isActive]) ?_ ?_ rfl ?_) async ?_ queue ?_ ?_ ?_
  · exact List.append_nil _
  · exact List.range_succ.symm
  · exact List.append_nil _
  · show List.count _ (.runCallbacks _ _ :: .popWritten :: c.stack) = 1
    rw [List.count_cons_of_ne (by simp), List.count_cons_self, List.count_eq_zero.2 notPopping]
  · show taken (c.log ++ _) ++ queueBytes c.writeQueue.tail ++ [] = accepted (c.log ++ _)
    rw [taken_append, accepted_append, ← bytes]
    simp [taken, accepted, Event.takenBytes, Event.acceptedBytes]
  · intro _
    exact ⟨.inl rfl, .inr rfl⟩
  · intro _
    exact ⟨by simp [afterWrite, push, doing], by simp [afterWrite, push, doing]⟩

/-- The write of the front failed. -/
theorem afterWrite_failed_stands {ec : ErrorCode} (lost : Bytes) (core : Core c 1 0 []) (async : c.asyncWrite = none)
    (notPopping : .popWritten ∉ c.stack) (waits : ∀ f ∈ c.stack, f.isActive = false) (queue : QueueOk c.writeQueue.tail)
    (bytes : taken c.log ++ lost ++ queueBytes c.writeQueue.tail = accepted c.log)
    (hec : c.isWriteOperationRunning = false → ec ≠ .operationAborted) : Stands (afterWrite env (some ec) c) := by
  refine handleIoError_stands lost (core.write [.runCallbacks .ioError _] [.writeFailed c.popped]
    (fun g hg => ⟨hg, waits g hg⟩) rfl (by simp) (by simp) ?_ ?_ rfl ?_) (List.cons_ne_nil _ _) async ?_ ?_ queue ?_ hec
  · exact List.append_nil _
  · exact List.append_nil _
  · exact List.append_nil _
  · simpa [push, emit] using notPopping
  · intro f hf
    rcases List.mem_cons.1 hf with rfl | hf
    · rfl
    · exact waits f hf
  · show taken (c.log ++ _) ++ lost ++ queueBytes c.writeQueue.tail = accepted (c.log ++ _)
    rw [taken_append, accepted_append, ← bytes]
    simp [taken, accepted, Event.takenBytes, Event.acceptedBytes]

theorem totalSize_eq (seq : SingleWritableSequence) : seq.totalSize = seq.asioBufs.flatten.length := by
  rw [List.length_flatten]
  rfl

/-- What the socket takes of the front leaves the entries as they are. -/
theorem Core.takes {started written : Nat} {failed : List Nat} (h : Core c started written failed) {bs : Bytes}
    {base : List Frame} {queue : List SingleWritableSequence} {running : Bool} {async : Option (List Bytes)}
    {key : Nat} (gs : List Frame) (hbase : ∀ g ∈ base, g ∈ c.stack ∧ g.isActive = false)
    (hgs : ∀ g ∈ gs, g ≠ .markShutdown) (hbelow : ∀ g ∈ gs.tail, g.isActive = false) :
    Core { c with
      writeQueue := queue, isWriteOperationRunning := running, asyncWrite := async, timeoutKey := key,
      log := c.log ++ [.taken bs], stack := gs ++ base } started written failed :=
  h.write gs _ hbase rfl hgs hbelow (List.append_nil _) (List.append_nil _) (List.append_nil _) (List.append_nil _)

theorem taken_concat (log : List Event) (bs : Bytes) : taken (log ++ [.taken bs]) = taken log ++ bs := by
  simp [taken, Event.takenBytes]

theorem accepted_taken (log : List Event) (bs : Bytes) : accepted (log ++ [.taken bs]) = accepted log := by
  simp [accepted, Event.acceptedBytes]

theorem syncWritten_stands {r : WriteResult} (h : Stands (c.push .syncWrite))
    (hr : r.PossibleSync (front c.writeQueue).totalSize) : Stands (syncWritten env r c) := by
  obtain ⟨hdoing, hpending⟩ := h.doing_base
  have hbase := h.base
  obtain ⟨hw, hdescriptors⟩ := h.gathering
  have hdescriptors : (front c.writeQueue).asioBufs.flatten = (front c.writeQueue).bytes :=
    congrArg List.flatten hdescriptors
  have hpop : ∀ n, .popWritten ∉ Frame.incBytesTxSync n :: c.stack := by
    intro n
    simpa using hw.notPopping
  have hwaits : ∀ n, ∀ g ∈ Frame.incBytesTxSync n :: c.stack, g.isActive = false := by
    intro n g hg
    rcases List.mem_cons.1 hg with rfl | hg
    · rfl
    · exact (hbase g hg).2
  obtain ⟨ec, n⟩ := r
  refine syncWritten_elim env hr ?completed ?blocked
  all_goals rw [totalSize_eq, hdescriptors] at hr
  case completed =>
    -- the write is done, or has failed
    intro hec
    rw [hdescriptors]
    obtain ⟨rest, hfreeze, hrest, hfront⟩ := hw.queue.freezeFirst
    cases ec with
    | none =>
      obtain rfl : n = (front c.writeQueue).bytes.length := hr
      refine afterWrite_stands env (hw.core.takes [.incBytesTxSync _] hbase (by simp) (by simp)) hw.async (hpop _)
        (hwaits _) ?_ ?_
      · show QueueOk (freezeFirst c.writeQueue).tail
        rw [hfreeze]
        exact hrest
      · show taken (c.log ++ [.taken _]) ++ queueBytes (freezeFirst c.writeQueue).tail =
          accepted (c.log ++ [.taken _])
        rw [hfreeze, taken_concat, accepted_taken, ← hw.bytes, hfront, List.take_length, List.append_assoc]
        rfl
    | some ec =>
      have haborted : ec ≠ .operationAborted := by
        rintro rfl
        exact hr
      refine afterWrite_failed_stands ((front c.writeQueue).bytes.drop n)
        (hw.core.takes [.incBytesTxSync _] hbase (by simp) (by simp)) hw.async (hpop _) (hwaits _) ?_ ?_
        (fun _ => haborted)
      · show QueueOk (freezeFirst c.writeQueue).tail
        rw [hfreeze]
        exact hrest
      · show taken (c.log ++ [.taken _]) ++ _ ++ queueBytes (freezeFirst c.writeQueue).tail =
          accepted (c.log ++ [.taken _])
        rw [taken_concat, accepted_taken, ← hw.bytes, hfront, hfreeze, List.tail_cons, List.append_assoc (taken c.log),
          List.take_append_drop, List.append_assoc]
  case blocked =>
    -- the rest is left to an asynchronous write
    intro _ _
    obtain ⟨hok, hsame⟩ := hw.queue.setFront ({ front c.writeQueue with
      asioBufs := (front c.writeQueue).asioBufs.take ((front c.writeQueue).asioBufs.length -
        (skipTransferredPart (front c.writeQueue).asioBufs n).length) ++
          skipTransferredPart (front c.writeQueue).asioBufs n } : SingleWritableSequence) rfl
    obtain ⟨rest, hfreeze, hrest, hfront⟩ := hok.freezeFirst
    have hqueueBytes : queueBytes c.writeQueue = (front c.writeQueue).bytes ++ queueBytes rest :=
      hsame.symm.trans hfront
    refine .writing (hw.core.takes [] hbase (by simp) (by simp))
      (skipTransferredPart (front c.writeQueue).asioBufs n) rfl rfl hw.notPopping ?_ ?_ ?_
    · show QueueOk (freezeFirst (setFront _ c.writeQueue)).tail
      rw [hfreeze]
      exact hrest
    · show (doing c.stack).NoWrite
      rw [hdoing]
      exact ⟨by simp, by simp⟩
    · show taken (c.log ++ [.taken _]) ++ (skipTransferredPart _ n).flatten ++
        queueBytes (freezeFirst (setFront _ c.writeQueue)).tail ++ pendingBytes c.stack =
          accepted (c.log ++ [.taken _])
      rw [hfreeze, hpending, List.append_nil, flatten_skipTransferredPart, hdescriptors, taken_concat, accepted_taken,
        ← hw.bytes, hqueueBytes, List.append_assoc (taken c.log), List.take_append_drop, List.append_assoc]
      rfl

/-- A written sequence leaves the queue once its callbacks have run. -/
theorem popWritten_stands (h : Stands (c.push .popWritten)) : Stands (popWritten c) := by
  have hbase := h.base
  obtain ⟨hdoing, hpending⟩ := h.doing_base
  cases h with
  | idle core running async notPopping => exact absurd (List.mem_cons_self ..) notPopping
  | gather core running async notPopping => exact absurd (List.mem_cons_self ..) notPopping
  | writing core bufs running async notPopping => exact absurd (List.mem_cons_self ..) notPopping
  | failed entries core hasFailed lost async notPopping => exact absurd (List.mem_cons_self ..) notPopping
  | popping core async once queue bytes sync noWrite =>
    refine .idle (core.write [.initiateWrite] [.popped c.popped] hbase rfl (by simp) (by simp) ?_ ?_ rfl ?_)
      rfl async ?_ queue (by simp [popWritten, push, doing]) ?_ ?_
    · exact List.append_nil _
    · exact List.append_nil _
    · exact List.range_succ.symm
    · show .popWritten ∉ .initiateWrite :: c.stack
      have hcount : c.stack.count .popWritten = 0 := by
        have := once
        rw [show (c.push .popWritten).stack = .popWritten :: c.stack from rfl, List.count_cons_self] at this
        omega
      simpa using List.count_eq_zero.1 hcount
    · simp [popWritten, push, doing, Doing.IsDirect]
    · have bytes : taken c.log ++ queueBytes c.writeQueue.tail ++ [] = accepted c.log := bytes
      show taken (c.log ++ _) ++ queueBytes c.writeQueue.tail ++ [] = accepted (c.log ++ _)
      rw [taken_append, accepted_append, ← bytes]
      simp [taken, accepted, Event.takenBytes, Event.acceptedBytes]

/-- The asynchronous write is done, or has failed. -/
theorem asyncWritten_stands {bufs : List Bytes} {r : WriteResult} (h : Stands c) (hstack : c.stack = [])
    (hbufs : c.asyncWrite = some bufs) (hr : r.PossibleAsync (bufs.map List.length).sum) :
    Stands (asyncWritten env bufs r c) := by
  have hnone : c.asyncWrite ≠ none := by
    rw [hbufs]
    simp
  have hbase : ∀ g ∈ c.stack, g ∈ c.stack ∧ g.isActive = false := by simp [hstack]
  rw [← List.length_flatten] at hr
  cases h with
  | idle core running async => exact absurd async hnone
  | gather core running async => exact absurd async hnone
  | popping core async => exact absurd async hnone
  | failed entries core hasFailed lost async => exact absurd async hnone
  | writing core bufs' running async notPopping queue noWrite bytes =>
    obtain rfl : bufs = bufs' := Option.some.inj (hbufs.symm.trans async)
    have hpending : pendingBytes c.stack = [] := by
      rw [hstack]
      rfl
    rw [hpending, List.append_nil] at bytes
    obtain ⟨ec, n⟩ := r
    have hcore : Core (({ c with asyncWrite := none }.emit (.taken (bufs.flatten.take n))).push (.incBytesTxAsync n))
        1 0 [] :=
      core.takes [.incBytesTxAsync n] hbase (by simp) (by simp)
    have hpop : .popWritten ∉ Frame.incBytesTxAsync n :: c.stack := by simp [hstack]
    have hwaits : ∀ g ∈ Frame.incBytesTxAsync n :: c.stack, g.isActive = false := by simp [hstack, Frame.isActive]
    cases ec with
    | none =>
      obtain rfl : n = bufs.flatten.length := hr
      refine afterWrite_stands env hcore rfl hpop hwaits queue ?_
      show taken (c.log ++ [.taken _]) ++ queueBytes c.writeQueue.tail = accepted (c.log ++ [.taken _])
      rw [taken_concat, accepted_taken, ← bytes, List.take_length]
    | some ec =>
      refine afterWrite_failed_stands (bufs.flatten.drop n) hcore rfl hpop hwaits queue ?_ ?_
      · show taken (c.log ++ [.taken _]) ++ _ ++ queueBytes c.writeQueue.tail = accepted (c.log ++ [.taken _])
        rw [taken_concat, accepted_taken, ← bytes, List.append_assoc (taken c.log), List.take_append_drop]
      · intro hrun
        rw [show c.isWriteOperationRunning = false from hrun] at running
        cases running

/-! ## The end -/

/-- What the destructor calls. -/
theorem handleRemainigWriteQueue_spec (c : Connection) :
    ∃ evs, (handleRemainigWriteQueue c).log = c.log ++ evs ∧ (∀ ev ∈ evs, ev.IsInert) ∧
      (handleRemainigWriteQueue c).isWriteOperationRunning = c.isWriteOperationRunning ∧
      (handleRemainigWriteQueue c).stack = c.stack := by
  have hcalled : ∀ (ids : List Nat) (res : SendBuffersResult), ∀ ev ∈ ids.map (Event.called · res), ev.IsInert := by
    intro ids res ev hev
    obtain ⟨id, -, rfl⟩ := List.mem_map.1 hev
    exact ⟨rfl, rfl, rfl, rfl, rfl, rfl⟩
  unfold handleRemainigWriteQueue
  dsimp only
  split
  · refine ⟨_, List.append_assoc .., ?_, rfl, rfl⟩
    intro ev hev
    exact (List.mem_append.1 hev).elim (hcalled _ _ ev) (hcalled _ _ ev)
  · exact ⟨[], (List.append_nil _).symm, by simp, rfl, rfl⟩

/-- The socket took a prefix of what was accepted; no queue entry is written twice, and none leaves
the queue that was not written. -/
structure StreamIntact (c : Connection) : Prop where
  order : taken c.log <+: accepted c.log
  once : (startedEntries c.log).Nodup
  written : ∀ entry ∈ poppedEntries c.log, entry ∈ writtenEntries c.log

/-- The connection was destroyed. -/
structure Gone (c : Connection) : Prop where
  destroyed : c.destroyed = true
  stack : c.stack = []
  intact : StreamIntact c
  whole : c.isWriteOperationRunning = false → failedEntries c.log = [] → taken c.log = accepted c.log

theorem Core.intact {started written : Nat} {failed : List Nat} (h : Core c started written failed)
    (horder : taken c.log <+: accepted c.log) : StreamIntact c := by
  refine ⟨horder, ?_, ?_⟩
  · rw [h.started]
    exact List.nodup_range
  · intro entry hentry
    rw [h.popped, List.mem_range] at hentry
    rw [h.written, List.mem_range]
    omega

theorem Stands.intact (h : Stands c) : StreamIntact c := by
  cases h with
  | idle core running async notPopping queue notGather clear bytes =>
    exact core.intact ⟨_, by rw [← bytes, List.append_assoc]⟩
  | gather core running async notPopping queue gathers descriptors bytes => exact core.intact ⟨_, bytes⟩
  | writing core bufs running async notPopping queue noWrite bytes =>
    exact core.intact ⟨_, by rw [← bytes, List.append_assoc, List.append_assoc]⟩
  | popping core async once queue bytes => exact core.intact ⟨_, by rw [← bytes, List.append_assoc]⟩
  | failed entries core hasFailed lost async notPopping queue bytes =>
    exact core.intact ⟨_, by rw [← bytes, List.append_assoc, List.append_assoc]⟩

/-- A connection that does not write but may be sent to has not failed. -/
theorem Stands.notFailed (h : Stands c) (hrun : c.isWriteOperationRunning = false)
    (henabled : c.scheduleForWriteIsEnabled = true) : failedEntries c.log = [] := by
  cases h with
  | idle core => exact core.failed
  | gather core => exact core.failed
  | writing core => exact core.failed
  | popping core => exact core.failed
  | failed entries core hasFailed lost async notPopping queue bytes noWrite silent =>
    have hdisabled := (silent hrun).1
    rw [henabled] at hdisabled
    cases hdisabled

/-- Between work items, a connection that does not write has written everything, or has failed. -/
theorem Stands.whole (h : Stands c) (hstack : c.stack = []) (hrun : c.isWriteOperationRunning = false)
    (hfailed : failedEntries c.log = []) : taken c.log = accepted c.log := by
  cases h with
  | idle core running async notPopping queue notGather clear bytes =>
    have hclear : Clear c.writeQueue := clear (by rw [hstack]; exact .inl rfl)
    rw [← bytes, hclear.queueBytes, hstack]
    simp [pendingBytes]
  | gather core running async notPopping queue gathers =>
    rw [hstack] at gathers
    cases gathers
  | writing core bufs running =>
    rw [hrun] at running
    cases running
  | popping core async once =>
    rw [hstack] at once
    cases once
  | failed entries core hasFailed => exact absurd (core.failed.symm.trans hfailed) hasFailed

/-- Before the destructor looks at the queue: some bytes of the write in flight are with the socket. -/
theorem destroy_takes (h : Stands c) (hstack : c.stack = []) (n : Nat) : ∃ c₁, destroy n c =
    { handleRemainigWriteQueue c₁ with destroyed := true } ∧ StreamIntact c₁ ∧ c₁.stack = [] ∧
      (c₁.isWriteOperationRunning = false → failedEntries c₁.log = [] → taken c₁.log = accepted c₁.log) := by
  have hwhole := h.whole hstack
  unfold destroy
  cases hasync : c.asyncWrite with
  | none => exact ⟨c, rfl, h.intact, hstack, hwhole⟩
  | some bufs =>
    refine ⟨_, rfl, ?_, hstack, ?_⟩
    · have hintact := h.intact
      obtain ⟨hs, hw, hf, hp⟩ := entries_eq_nil (show ∀ ev ∈ [Event.taken (bufs.flatten.take n)], _ by
        simp [Event.KeepsEntries, Event.started?, Event.written?, Event.failed?, Event.popped?])
      refine ⟨?_, ?_, ?_⟩
      rotate_left
      · show (startedEntries (c.log ++ [_])).Nodup
        rw [startedEntries_append, hs, List.append_nil]
        exact hintact.once
      · show ∀ entry ∈ poppedEntries (c.log ++ [_]), entry ∈ writtenEntries (c.log ++ [_])
        rw [poppedEntries_append, writtenEntries_append, hp, hw, List.append_nil, List.append_nil]
        exact hintact.written
      have hnone : c.asyncWrite ≠ none := by
        rw [hasync]
        simp
      cases h with
      | writing core bufs' running async notPopping queue noWrite bytes =>
        obtain rfl : bufs = bufs' := Option.some.inj (hasync.symm.trans async)
        show taken (c.log ++ [.taken _]) <+: accepted (c.log ++ [.taken _])
        rw [taken_concat, accepted_taken, ← bytes, List.append_assoc, List.append_assoc]
        refine List.prefix_append_right_inj _ |>.2 ?_
        exact (List.take_prefix n bufs.flatten).trans (List.prefix_append ..)
      | idle core running async => exact absurd async hnone
      | gather core running async => exact absurd async hnone
      | popping core async => exact absurd async hnone
      | failed entries core hasFailed lost async => exact absurd async hnone
    · intro hrun
      cases h with
      | writing core bufs' running =>
        rw [show c.isWriteOperationRunning = false from hrun] at running
        cases running
      | idle core running async => cases hasync.symm.trans async
      | gather core running async => cases hasync.symm.trans async
      | popping core async => cases hasync.symm.trans async
      | failed entries core hasFailed lost async => cases hasync.symm.trans async

theorem destroy_gone (h : Stands c) (hstack : c.stack = []) (n : Nat) : Gone (destroy n c) := by
  obtain ⟨c₁, heq, hintact, hstack₁, hwhole⟩ := destroy_takes h hstack n
  obtain ⟨evs, hlog, hinert, hrunning, hstack'⟩ := handleRemainigWriteQueue_spec c₁
  obtain ⟨ha, ht⟩ := bytes_eq_nil hinert
  obtain ⟨hs, hw, hf, hp⟩ := entries_eq_nil fun ev hev => (hinert ev hev).2.2
  rw [heq]
  refine ⟨rfl, hstack'.trans hstack₁, ⟨?_, ?_, ?_⟩, ?_⟩
  · rw [hlog, taken_append, accepted_append, ha, ht, List.append_nil, List.append_nil]
    exact hintact.order
  · rw [hlog, startedEntries_append, hs, List.append_nil]
    exact hintact.once
  · rw [hlog, poppedEntries_append, writtenEntries_append, hp, hw, List.append_nil, List.append_nil]
    exact hintact.written
  · rw [hrunning, hlog, failedEntries_append, taken_append, accepted_append, ha, ht, hf, List.append_nil,
      List.append_nil, List.append_nil]
    exact hwhole

/-! ## All steps -/

theorem begin_stands {item : Item} (h : Stands c) (hstack : c.stack = []) (hitem : ∀ n, item ≠ .destroy n)
    (hbegin : Begins env c item c') : Stands c' := by
  cases hbegin with
  | call call =>
    refine h.begin hstack ?_
    have hquiet : Quiet c { c with stack := [.call call] ++ [] } [] :=
      quiet_of_update [.call call] c.readIsEnabled c.readsInFlight c.groups (List.append_nil _).symm (by simp) (by simp)
        (by simp [Frame.isActive])
    rw [Connection.push, hstack]
    exact hquiet
  | bystander still bystanders =>
    refine h.begin hstack (Quiet.of_base (still.quiet fun g hg => ?_) hstack)
    exact isActive_of_isBystander (bystanders g hg).1
  | asyncWrite bufs r inFlight possible => exact asyncWritten_stands h hstack inFlight possible
  | destroy n => exact absurd rfl (hitem n)

end Connection

end Opio.Net
