/-
The invariant of the write queue. There is always a sequence that takes what comes, only the last one
may be without buffers, none holds more buffers than a gather write takes, and the one in front is not
touched while an asynchronous write has its descriptors. What a step does to the queue is one of a few
operations; each fact of the invariant is kept by each of them.
-/
import Opio.Net.Completions

namespace Opio.Net

/-! ## Sequences -/

/-- The asynchronous write of a sequence was given its descriptors: all of them, or those of the bytes
that a synchronous write has left. -/
inductive Given (seq : SingleWritableSequence) : List Bytes → Prop
  | whole (descriptors : seq.asioBufs = seq.bufsStorage) : Given seq seq.asioBufs
  | rest (transferred : Nat) (less : transferred < seq.bytes.length)
    (descriptors : seq.asioBufs =
      seq.bufsStorage.take (seq.bufsStorage.length - (skipTransferredPart seq.bufsStorage transferred).length) ++
        skipTransferredPart seq.bufsStorage transferred) :
    Given seq (skipTransferredPart seq.bufsStorage transferred)

namespace Connection

variable {env : ConnectionEnv} {c c' : Connection}

/-- No sequence holds more buffers than a gather write takes. -/
def Bounded (env : ConnectionEnv) (queue : List SingleWritableSequence) : Prop :=
  ∀ seq ∈ queue, seq.bufsStorage.length ≤ env.maxSeqLength

/-- What is promised of the queue between two work items. -/
structure QueueInvariant (env : ConnectionEnv) (c : Connection) : Prop where
  nonempty : c.writeQueue ≠ []
  filled : ∀ seq ∈ c.writeQueue.dropLast, seq.bufsStorage ≠ []
  bounded : Bounded env c.writeQueue
  frozen : c.isWriteOperationRunning = true → 2 ≤ c.writeQueue.length
  given : ∀ bufs, c.asyncWrite = some bufs → c.isWriteOperationRunning = true ∧ Given (front c.writeQueue) bufs
  running : c.isWriteOperationRunning = true → failedEntries c.log = [] → c.asyncWrite ≠ none
  idle : c.isWriteOperationRunning = false → failedEntries c.log = [] →
    ∃ seq, c.writeQueue = [seq] ∧ seq.bufsStorage = [] ∧ seq.sendCompletionCbs = []

/-! ## Operations on the queue -/

theorem length_appendBuffer_le {seq : SingleWritableSequence} (h : seq.canAppendBuffer env.maxSeqLength = true)
    (buf : Bytes) : (seq.appendBuffer buf).bufsStorage.length ≤ env.maxSeqLength := by
  rw [SingleWritableSequence.appendBuffer, List.length_append, List.length_singleton]
  exact of_decide_eq_true h

theorem Bounded.back {queue : List SingleWritableSequence} (h : Bounded env queue) :
    (back queue).bufsStorage.length ≤ env.maxSeqLength :=
  back_of_forall (P := fun seq => seq.bufsStorage.length ≤ env.maxSeqLength) h (Nat.zero_le _)

theorem Bounded.front {queue : List SingleWritableSequence} (h : Bounded env queue) :
    (front queue).bufsStorage.length ≤ env.maxSeqLength :=
  front_of_forall (P := fun seq => seq.bufsStorage.length ≤ env.maxSeqLength) h (Nat.zero_le _)

theorem Bounded.append {queue : List SingleWritableSequence} (h : Bounded env queue) (buf : Bytes) :
    Bounded env (appendOutgoingBuffer env buf queue) := by
  have hnew := length_appendBuffer_le (empty_canAppendBuffer env) buf
  have hcompact : Bounded env
      (Connection.setBack ((Connection.back queue).concatSmallBuffers concatenatedBufferMaxSize) queue) :=
    forall_setBack h (Nat.le_trans (SingleWritableSequence.length_concatSmallBuffers _ _) h.back)
  refine appendOutgoingBuffer_elim env buf queue ?room ?short ?compacted ?full
  case room => exact fun hroom => forall_setBack h (length_appendBuffer_le hroom buf)
  case short => exact fun _ _ => forall_concat h hnew
  case compacted => exact fun _ _ hroom => forall_setBack h (length_appendBuffer_le hroom buf)
  case full => exact fun _ _ _ => forall_concat hcompact hnew

/-! ## The front -/

theorem front_setBack {queue : List SingleWritableSequence} (h : 2 ≤ queue.length) (seq : SingleWritableSequence) :
    front (setBack seq queue) = front queue := by
  match queue, h with
  | first :: second :: rest, _ => rfl

theorem front_concat {queue : List SingleWritableSequence} (h : queue ≠ []) (seq : SingleWritableSequence) :
    front (queue ++ [seq]) = front queue := by
  cases queue with
  | nil => exact absurd rfl h
  | cons first rest => rfl

/-- What is appended to a queue of two leaves the front alone. -/
theorem front_append {queue : List SingleWritableSequence} (h : 2 ≤ queue.length) (env : ConnectionEnv) (buf : Bytes) :
    front (appendOutgoingBuffer env buf queue) = front queue := by
  have hne : ∀ seq, setBack seq queue ≠ [] := fun seq => List.append_ne_nil_of_right_ne_nil _ (List.cons_ne_nil seq [])
  refine appendOutgoingBuffer_elim env buf queue ?room ?short ?compacted ?full
  case room => exact fun _ => front_setBack h _
  case short => exact fun _ hshort => absurd h (Nat.not_le.2 (Nat.lt_succ_of_le hshort))
  case compacted => exact fun _ _ _ => front_setBack h _
  case full => exact fun _ _ _ => (front_concat (hne _) _).trans (front_setBack h _)

/-- A front that has buffers goes on having some. -/
theorem front_append_ne_nil {queue : List SingleWritableSequence} (h : (front queue).bufsStorage ≠ [])
    (env : ConnectionEnv) (buf : Bytes) : (front (appendOutgoingBuffer env buf queue)).bufsStorage ≠ [] := by
  by_cases hlong : 2 ≤ queue.length
  · rw [front_append hlong]
    exact h
  · match queue, hlong with
    | [], _ => exact absurd rfl h
    | [seq], _ =>
      refine appendOutgoingBuffer_elim env buf [seq] ?room ?short ?compacted ?full
      case room => exact fun _ => List.append_ne_nil_of_right_ne_nil _ (List.cons_ne_nil buf [])
      case short => exact fun _ _ => h
      case compacted => exact fun _ hlen _ => absurd hlen (Nat.lt_irrefl 1)
      case full => exact fun _ hlen _ => absurd hlen (Nat.lt_irrefl 1)
    | first :: second :: rest, hlong => exact absurd (Nat.le_add_left 2 rest.length) hlong

theorem front_noted_ne_nil {queue : List SingleWritableSequence} (h : (front queue).bufsStorage ≠ []) (id : Nat) :
    (front (setBack ((back queue).appendCompletionCb id) queue)).bufsStorage ≠ [] := by
  match queue with
  | [] => exact absurd rfl h
  | [seq] => exact h
  | first :: second :: rest => exact h

/-! ## What a step does to the queue -/

/-- The operation of a step on the queue, with what it does to the write in flight and whether it
starts the write of the front or pops it. -/
inductive OnQueue (env : ConnectionEnv) (c c' : Connection) : Prop
  | kept (writeQueue : c'.writeQueue = c.writeQueue) (asyncWrite : c'.asyncWrite = c.asyncWrite ∨ c'.asyncWrite = none)
    (started : startedEntries c'.log = startedEntries c.log) (popped : c'.popped = c.popped)
  | appended (buf : Bytes) (writeQueue : c'.writeQueue = appendOutgoingBuffer env buf c.writeQueue)
    (asyncWrite : c'.asyncWrite = c.asyncWrite) (started : startedEntries c'.log = startedEntries c.log)
    (popped : c'.popped = c.popped)
  | noted (id : Nat) (writeQueue : c'.writeQueue = setBack ((back c.writeQueue).appendCompletionCb id) c.writeQueue)
    (asyncWrite : c'.asyncWrite = c.asyncWrite) (started : startedEntries c'.log = startedEntries c.log)
    (popped : c'.popped = c.popped)
  /-- The descriptors of the front are made anew. -/
  | described (idle : c.isWriteOperationRunning = false)
    (writeQueue : c'.writeQueue = setFront (front c.writeQueue).makeAsioBufs c.writeQueue)
    (asyncWrite : c'.asyncWrite = c.asyncWrite)
    (started : startedEntries c'.log = startedEntries c.log ∨ (front c.writeQueue).bufsStorage ≠ [])
    (popped : c'.popped = c.popped)
  /-- An asynchronous write is given the descriptors of the front. -/
  | given (idle : c.isWriteOperationRunning = false) (seq : SingleWritableSequence) (bufs : List Bytes)
    (storage : seq.bufsStorage = (front c.writeQueue).bufsStorage)
    (writeQueue : c'.writeQueue = freezeFirst (setFront seq c.writeQueue))
    (asyncWrite : c'.asyncWrite = some bufs) (given : Given seq bufs)
    (started : startedEntries c'.log = startedEntries c.log ∨ (front c.writeQueue).bufsStorage ≠ [])
    (popped : c'.popped = c.popped)
  /-- A synchronous write is over. -/
  | frozen (writeQueue : c'.writeQueue = freezeFirst c.writeQueue) (asyncWrite : c'.asyncWrite = c.asyncWrite)
    (started : startedEntries c'.log = startedEntries c.log) (popped : c'.popped = c.popped)
  | popped (popping : .popWritten ∈ c.stack) (writeQueue : c'.writeQueue = c.writeQueue.tail)
    (asyncWrite : c'.asyncWrite = c.asyncWrite) (started : startedEntries c'.log = startedEntries c.log)
    (popped : c'.popped = c.popped + 1)

theorem startedEntries_inert {evs : List Event} (h : ∀ ev ∈ evs, ev.IsInert) (log : List Event) :
    startedEntries (log ++ evs) = startedEntries log := by
  rw [startedEntries_append, (entries_eq_nil fun ev hev => (h ev hev).2.2).1, List.append_nil]

theorem startedEntries_concat {ev : Event} (h : ev.started? = none) (log : List Event) :
    startedEntries (log ++ [ev]) = startedEntries log := by
  rw [startedEntries_append]
  unfold startedEntries
  rw [List.filterMap_cons_none h, List.filterMap_nil, List.append_nil]

theorem SameStream.onQueue {evs : List Event} (h : SameStream c c' evs) : OnQueue env c c' :=
  .kept h.writeQueue (.inl h.asyncWrite) (h.log ▸ startedEntries_inert h.inert c.log) h.popped

/-- The end of a write leaves the queue as it is. -/
theorem afterWrite_kept (env : ConnectionEnv) (ec : Option ErrorCode) (c : Connection) :
    (afterWrite env ec c).writeQueue = c.writeQueue ∧ (afterWrite env ec c).asyncWrite = c.asyncWrite ∧
      startedEntries (afterWrite env ec c).log = startedEntries c.log ∧ (afterWrite env ec c).popped = c.popped := by
  cases ec with
  | none => exact ⟨rfl, rfl, startedEntries_concat rfl c.log, rfl⟩
  | some ec =>
    obtain ⟨gs, hfails⟩ := afterWrite_fails env ec c
    refine ⟨hfails.writeQueue, hfails.asyncWrite, ?_, hfails.popped⟩
    rw [hfails.log]
    exact startedEntries_concat rfl c.log

theorem initiateWrite_onQueue (env : ConnectionEnv) (c : Connection) :
    OnQueue env (c.push .initiateWrite) (initiateWriteIfNecessary env c) := by
  refine initiateWrite_elim env c ?running ?nothing ?sync ?async
  case running => exact fun _ => .kept rfl (.inl rfl) rfl rfl
  case nothing => exact fun hidle _ => .described hidle rfl rfl (.inl rfl) rfl
  case sync => exact fun hidle hbufs _ => .described hidle rfl rfl (.inr hbufs) rfl
  case async =>
    intro hidle hbufs
    exact .given hidle (front c.writeQueue).makeAsioBufs _ rfl rfl rfl (.whole rfl) (.inr hbufs) rfl

/-- What is left of a synchronous write goes to an asynchronous one; otherwise it is over. -/
theorem syncWritten_onQueue {r : WriteResult} (hidle : c.isWriteOperationRunning = false)
    (hdescriptors : (front c.writeQueue).asioBufs = (front c.writeQueue).bufsStorage)
    (possible : r.PossibleSync (front c.writeQueue).totalSize) :
    OnQueue env (c.push .syncWrite) (syncWritten env r c) := by
  refine syncWritten_elim env possible ?completed ?blocked
  case completed =>
    intro _
    obtain ⟨hqueue, hasync, hstarted, hpopped⟩ := afterWrite_kept env r.ec
      ({ c.emit (.taken ((front c.writeQueue).asioBufs.flatten.take r.transferred)) with
        writeQueue := freezeFirst c.writeQueue }.push (.incBytesTxSync r.transferred))
    exact .frozen hqueue hasync (hstarted.trans (startedEntries_concat rfl c.log)) hpopped
  case blocked =>
    intro _ hless
    rw [totalSize_eq] at hless
    rw [hdescriptors] at hless ⊢
    let rest := skipTransferredPart (front c.writeQueue).bufsStorage r.transferred
    let asioBufs := (front c.writeQueue).bufsStorage.take ((front c.writeQueue).bufsStorage.length - rest.length) ++
      rest
    exact .given hidle { front c.writeQueue with asioBufs } rest rfl rfl rfl (.rest r.transferred hless rfl)
      (.inl (startedEntries_concat rfl c.log)) rfl

/-- While an asynchronous write is in flight, none has failed and there is no other. -/
theorem Stands.noWrite_of_inFlight (h : Stands c) (hasync : c.asyncWrite ≠ none) :
    failedEntries c.log = [] ∧ (doing c.stack).NoWrite := by
  cases h with
  | idle core running async => exact absurd async hasync
  | gather core running async => exact absurd async hasync
  | writing core bufs running async notPopping queue noWrite => exact ⟨core.failed, noWrite⟩
  | popping core async => exact absurd async hasync
  | failed entries core hasFailed lost async => exact absurd async hasync

/-- After a write has failed, there is no other. -/
theorem Stands.noWrite_of_failed (h : Stands c) (hfailed : failedEntries c.log ≠ []) :
    c.asyncWrite = none ∧ (doing c.stack).NoWrite := by
  cases h with
  | idle core => exact absurd core.failed hfailed
  | gather core => exact absurd core.failed hfailed
  | writing core => exact absurd core.failed hfailed
  | popping core => exact absurd core.failed hfailed
  | failed entries core hasFailed lost async notPopping queue bytes noWrite => exact ⟨async, noWrite⟩

theorem resume_onQueue {f : Frame} {i : Input} (h : Stands (c.push f)) (hstep : Resumes env c f i c') :
    OnQueue env (c.push f) c' := by
  cases hstep with
  | bystander isBystander still pushed => exact still.same.onQueue
  | send s =>
    refine scheduleSend_elim s c ?accepted ?rejected ?ignored
    all_goals
      intros
      exact .kept rfl (.inl rfl) (startedEntries_concat rfl c.log) rfl
  | append bufs beAggressive id cb =>
    refine append_elim env bufs beAggressive id cb c ?delivered ?ended ?noted ?queued ?direct ?buffered
    case delivered => exact fun _ _ _ => .kept rfl (.inl rfl) rfl rfl
    case ended => exact fun _ _ _ => .kept rfl (.inl rfl) rfl rfl
    case noted => exact fun _ _ _ => .noted id rfl rfl rfl rfl
    case queued => exact fun _ _ _ => .kept rfl (.inl rfl) rfl rfl
    case direct => exact fun _ _ _ _ _ _ => .kept rfl (.inl rfl) rfl rfl
    case buffered => exact fun buf _ _ _ => .appended buf rfl rfl rfl rfl
  | aggressiveWrite buf bufs id cb r possible =>
    have hstarted : ∀ bs n, startedEntries (c.log ++ [.taken bs] ++ [.incBytesTxSync n]) = startedEntries c.log :=
      fun bs n => (startedEntries_concat rfl _).trans (startedEntries_concat rfl c.log)
    refine aggressiveWritten_elim env buf bufs id cb r c ?whole ?partly
    case whole => exact fun _ => .kept rfl (.inl rfl) (hstarted _ _) rfl
    case partly => exact fun _ => .appended _ rfl rfl (hstarted _ _) rfl
  | initiateWrite => exact initiateWrite_onQueue env c
  | syncWrite r possible =>
    obtain ⟨hwritable, hdescriptors⟩ := h.gathering
    exact syncWritten_onQueue hwritable.running hdescriptors possible
  | called res id ids cs => exact .kept rfl (.inl rfl) (startedEntries_concat rfl c.log) rfl
  | callbacksDone res => exact .kept rfl (.inl rfl) rfl rfl
  | popWritten => exact .popped (List.mem_cons_self ..) rfl rfl (startedEntries_concat rfl c.log) rfl

theorem begin_onQueue {item : Item} (hitem : ∀ n, item ≠ .destroy n) (hbegin : Begins env c item c') :
    OnQueue env c c' := by
  cases hbegin with
  | call call => exact .kept rfl (.inl rfl) rfl rfl
  | bystander still bystanders => exact still.same.onQueue
  | asyncWrite bufs r inFlight possible =>
    obtain ⟨hqueue, hasync, hstarted, hpopped⟩ := afterWrite_kept env r.ec
      (({ c with asyncWrite := none }.emit (.taken (bufs.flatten.take r.transferred))).push
        (.incBytesTxAsync r.transferred))
    exact .kept hqueue (.inr hasync) (hstarted.trans (startedEntries_concat rfl c.log)) hpopped
  | destroy n => exact absurd rfl (hitem n)

/-! ## The invariant -/

/-- What every step keeps of the queue. -/
structure QueueKept (env : ConnectionEnv) (c : Connection) : Prop where
  bounded : Bounded env c.writeQueue
  /-- The front has buffers as soon as its write was started. -/
  filled : startedEntries c.log = List.range (c.popped + 1) → (front c.writeQueue).bufsStorage ≠ []
  given : ∀ bufs, c.asyncWrite = some bufs → Given (front c.writeQueue) bufs

theorem queueKept_init (env : ConnectionEnv) : QueueKept env {} where
  bounded := fun _ hseq => List.mem_singleton.1 hseq ▸ Nat.zero_le _
  filled := nofun
  given := nofun

/-- Two sequences at least: the front, and the one that takes what comes. -/
theorem two_of_tail {queue : List SingleWritableSequence} (h : QueueOk queue.tail) : 2 ≤ queue.length := by
  have hpos := List.length_pos_iff.2 h.ne_nil
  rw [List.length_tail] at hpos
  omega

/-- With a write in flight the front does not take what comes. -/
theorem Stands.inFlight (h : Stands c) (hasync : c.asyncWrite ≠ none) :
    c.isWriteOperationRunning = true ∧ .popWritten ∉ c.stack ∧ 2 ≤ c.writeQueue.length := by
  cases h with
  | idle core running async => exact absurd async hasync
  | gather core running async => exact absurd async hasync
  | writing core bufs running async notPopping queue => exact ⟨running, notPopping, two_of_tail queue⟩
  | popping core async => exact absurd async hasync
  | failed entries core hasFailed lost async => exact absurd async hasync

/-- A write in flight has the front for itself. -/
theorem OnQueue.front_untouched (h : OnQueue env c c') (hstands : Stands c) (hasync : c.asyncWrite ≠ none) :
    front c'.writeQueue = front c.writeQueue := by
  obtain ⟨hrunning, hpopping, hlong⟩ := hstands.inFlight hasync
  cases h with
  | kept writeQueue => rw [writeQueue]
  | appended buf writeQueue =>
    rw [writeQueue]
    exact front_append hlong env buf
  | noted id writeQueue =>
    rw [writeQueue]
    exact front_setBack hlong _
  | described idle => exact absurd (hrunning.symm.trans idle) (by decide)
  | given idle => exact absurd (hrunning.symm.trans idle) (by decide)
  | frozen writeQueue =>
    rw [writeQueue]
    exact front_freezeFirst c.writeQueue
  | popped popping => exact absurd popping hpopping

theorem Stands.started_of_popping (h : Stands c) (hpopping : .popWritten ∈ c.stack) :
    startedEntries c.log = List.range (c.popped + 1) := by
  cases h with
  | idle core running async notPopping => exact absurd hpopping notPopping
  | gather core running async notPopping => exact absurd hpopping notPopping
  | writing core bufs running async notPopping => exact absurd hpopping notPopping
  | popping core => exact core.started
  | failed entries core hasFailed lost async notPopping => exact absurd hpopping notPopping

theorem OnQueue.bounded (h : OnQueue env c c') (hbounded : Bounded env c.writeQueue) : Bounded env c'.writeQueue := by
  cases h with
  | kept writeQueue => exact writeQueue ▸ hbounded
  | appended buf writeQueue => exact writeQueue ▸ hbounded.append buf
  | noted id writeQueue => exact writeQueue ▸ forall_setBack hbounded hbounded.back
  | described idle writeQueue => exact writeQueue ▸ forall_setFront hbounded hbounded.front
  | given idle _ bufs storage writeQueue =>
    rw [writeQueue]
    refine forall_freezeFirst (forall_setFront hbounded ?_) (Nat.zero_le _)
    rw [storage]
    exact hbounded.front
  | frozen writeQueue => exact writeQueue ▸ forall_freezeFirst hbounded (Nat.zero_le _)
  | popped popping writeQueue => exact writeQueue ▸ fun seq hseq => hbounded seq (List.mem_of_mem_tail hseq)

theorem OnQueue.filled (h : OnQueue env c c') (hstands : Stands c)
    (hfilled : startedEntries c.log = List.range (c.popped + 1) → (front c.writeQueue).bufsStorage ≠ [])
    (hstarted : startedEntries c'.log = List.range (c'.popped + 1)) : (front c'.writeQueue).bufsStorage ≠ [] := by
  have hsame : startedEntries c'.log = startedEntries c.log → c'.popped = c.popped →
      (front c.writeQueue).bufsStorage ≠ [] := fun hlog hpopped => hfilled (hlog ▸ hpopped ▸ hstarted)
  cases h with
  | kept writeQueue asyncWrite started popped => exact writeQueue ▸ hsame started popped
  | appended buf writeQueue asyncWrite started popped =>
    exact writeQueue ▸ front_append_ne_nil (hsame started popped) env buf
  | noted id writeQueue asyncWrite started popped => exact writeQueue ▸ front_noted_ne_nil (hsame started popped) id
  | described idle writeQueue asyncWrite started popped =>
    rw [writeQueue]
    exact started.elim (hsame · popped) id
  | given idle seq bufs storage writeQueue asyncWrite given started popped =>
    rw [writeQueue, front_freezeFirst]
    exact storage ▸ started.elim (hsame · popped) id
  | frozen writeQueue asyncWrite started popped =>
    rw [writeQueue, front_freezeFirst]
    exact hsame started popped
  | popped popping writeQueue asyncWrite started popped =>
    -- what is popped was the last that was started
    have hfront : startedEntries c.log = List.range (c.popped + 1) := hstands.started_of_popping popping
    rw [started, popped, hfront] at hstarted
    exact absurd (congrArg List.length hstarted) (by simp)

/-- The write in flight is the one from before, or was just given what it has. -/
theorem OnQueue.asyncWrite_cases (h : OnQueue env c c') {bufs : List Bytes} (hbufs : c'.asyncWrite = some bufs) :
    c.asyncWrite = some bufs ∨ Given (front c'.writeQueue) bufs := by
  cases h with
  | kept writeQueue asyncWrite =>
    rcases asyncWrite with hsame | hnone
    · exact .inl (hsame.symm.trans hbufs)
    · exact absurd (hnone.symm.trans hbufs) (Option.some_ne_none bufs).symm
  | appended buf writeQueue asyncWrite => exact .inl (asyncWrite.symm.trans hbufs)
  | noted id writeQueue asyncWrite => exact .inl (asyncWrite.symm.trans hbufs)
  | described idle writeQueue asyncWrite => exact .inl (asyncWrite.symm.trans hbufs)
  | given idle seq bufs' storage writeQueue asyncWrite given =>
    obtain rfl : bufs' = bufs := Option.some.inj (asyncWrite.symm.trans hbufs)
    rw [writeQueue, front_freezeFirst]
    exact .inr given
  | frozen writeQueue asyncWrite => exact .inl (asyncWrite.symm.trans hbufs)
  | popped popping writeQueue asyncWrite => exact .inl (asyncWrite.symm.trans hbufs)

theorem QueueKept.step (h : QueueKept env c) (hstands : Stands c) (hon : OnQueue env c c') : QueueKept env c' := by
  refine ⟨hon.bounded h.bounded, hon.filled hstands h.filled, ?_⟩
  intro bufs hbufs
  rcases hon.asyncWrite_cases hbufs with hsame | hgiven
  · rw [hon.front_untouched hstands (hsame ▸ Option.some_ne_none bufs)]
    exact h.given bufs hsame
  · exact hgiven

/-- A step of a connection that lives is an operation on its queue. -/
theorem step_onQueue {i : Input} (h : Stands c) (hi : ∀ n, i ≠ .item (.destroy n)) (hstep : step env c i = some c') :
    OnQueue env c c' := by
  rcases step_cases hstep with ⟨item, rfl, -, -, hbegin⟩ | ⟨f, c₀, rfl, hresume⟩
  · refine begin_onQueue ?_ hbegin
    rintro n rfl
    exact hi n rfl
  · exact resume_onQueue h hresume

/-- What holds along a run in which no callback calls back: the phases of the writes, and as long as the
connection lives the facts about its queue. -/
structure CalmQueue (env : ConnectionEnv) (c : Connection) : Prop where
  calm : Calm c
  holds : Holds c
  kept : c.destroyed = false → QueueKept env c ∧ CallbacksWait c

theorem Holds.stands (h : Holds c) (halive : c.destroyed = false) : Stands c :=
  h.resolve_right fun hgone => absurd (halive.symm.trans hgone.destroyed) (by decide)

theorem step_alive {i : Input} (h : Holds c) (hstep : step env c i = some c') : c.destroyed = false := by
  rcases h with hstands | hgone
  · exact hstands.alive
  · rcases step_cases hstep with ⟨item, -, -, halive, -⟩ | ⟨f, c₀, rfl, -⟩
    · exact halive
    · exact absurd hgone.stack (List.cons_ne_nil f c₀.stack)

theorem step_calmQueue {i : Input} (h : CalmQueue env c) (hi : i.callsNothing = true) (hstep : step env c i = some c') :
    CalmQueue env c' := by
  obtain ⟨hcalm, hholds⟩ := step_calm_holds ⟨h.calm, h.holds⟩ hi hstep
  refine ⟨hcalm, hholds, ?_⟩
  intro halive'
  have halive := step_alive h.holds hstep
  have hstands := h.holds.stands halive
  have hdestroy : ∀ n, i ≠ .item (.destroy n) := by
    rintro n rfl
    obtain ⟨-, -, rfl⟩ := step_destroy hstep
    cases halive'
  obtain ⟨hkept, hwait⟩ := h.kept halive
  exact ⟨hkept.step hstands (step_onQueue hstands hdestroy hstep), step_callbacksWait hwait h.calm hstep hdestroy⟩

theorem calmQueue_init (env : ConnectionEnv) : CalmQueue env {} where
  calm := calm_init
  holds := .inl stands_init
  kept := fun _ => ⟨queueKept_init env, fun _ hseq _ => List.mem_singleton.1 hseq ▸ rfl, nofun⟩

/-- The front of a queue of which the rest takes what comes. -/
theorem filled_of_tail {queue : List SingleWritableSequence} (hfront : (front queue).bufsStorage ≠ [])
    (h : QueueOk queue.tail) : ∀ seq ∈ queue.dropLast, seq.bufsStorage ≠ [] := by
  obtain ⟨frozen, last, htail, hfrozen⟩ := h
  cases queue with
  | nil => nofun
  | cons first rest =>
    obtain rfl : rest = frozen ++ [last] := htail
    rw [← List.cons_append, List.dropLast_concat]
    exact List.forall_mem_cons.2 ⟨hfront, hfrozen⟩

theorem QueueKept.invariant (h : QueueKept env c) (hwait : CallbacksWait c) (hstands : Stands c)
    (hstack : c.stack = []) :
    QueueInvariant env c := by
  have hne : ∀ {queue : List SingleWritableSequence}, 2 ≤ queue.length → queue ≠ [] := by
    rintro queue hlong rfl
    cases hlong
  -- with an empty stack an operation is neither being put together nor taken off the queue
  cases hstands with
  | idle core running async notPopping queue notGather clear bytes =>
    obtain ⟨seq, hqueue, hbufs⟩ := clear (by rw [hstack]; exact .inl rfl)
    have hcbs := hwait.owned seq (by rw [hqueue]; exact List.mem_singleton_self seq) hbufs
    constructor
    · rw [hqueue]
      exact List.cons_ne_nil seq []
    · rw [hqueue]
      nofun
    · exact h.bounded
    · intro hrunning
      exact absurd (running.symm.trans hrunning) (by decide)
    · intro bufs hbufs
      exact absurd (async.symm.trans hbufs) (Option.some_ne_none bufs).symm
    · intro hrunning
      exact absurd (running.symm.trans hrunning) (by decide)
    · intro _ _
      exact ⟨seq, hqueue, hbufs, hcbs⟩
  | gather core running async notPopping queue gathers =>
    rw [hstack] at gathers
    cases gathers
  | writing core bufs running async notPopping queue noWrite bytes =>
    constructor
    · exact hne (two_of_tail queue)
    · exact filled_of_tail (h.filled core.started) queue
    · exact h.bounded
    · intro _
      exact two_of_tail queue
    · intro bufs hbufs
      exact ⟨running, h.given bufs hbufs⟩
    · intro _ _
      rw [async]
      exact Option.some_ne_none bufs
    · intro hidle
      exact absurd (running.symm.trans hidle) (by decide)
  | popping core async once =>
    rw [hstack] at once
    cases once
  | failed entries core hasFailed lost async notPopping queue bytes noWrite silent =>
    constructor
    · exact hne (two_of_tail queue)
    · exact filled_of_tail (h.filled core.started) queue
    · exact h.bounded
    · intro _
      exact two_of_tail queue
    · intro bufs hbufs
      exact absurd (async.symm.trans hbufs) (Option.some_ne_none bufs).symm
    · intro _ hfailed
      exact absurd (core.failed.symm.trans hfailed) hasFailed
    · intro _ hfailed
      exact absurd (core.failed.symm.trans hfailed) hasFailed

/-- The queue of a connection whose callbacks call nothing: between two work items it is as it should
be, and at no time is the front touched while an asynchronous write has its descriptors. -/
theorem write_queue_invariant (env : ConnectionEnv) {inputs : List Input}
    (hinputs : ∀ i ∈ inputs, i.callsNothing = true) (hrun : execute (step env) {} inputs = some c) :
    (c.stack = [] → c.destroyed = false → QueueInvariant env c) ∧
      ∀ i c', step env c i = some c' → c'.destroyed = false → c.asyncWrite ≠ none →
        front c'.writeQueue = front c.writeQueue := by
  have h : CalmQueue env c := execute_invariant (I := CalmQueue env)
    (fun _ _ _ h hi hstep => step_calmQueue h hi hstep) inputs (calmQueue_init env) (Along.of_forall hinputs) hrun
  refine ⟨?_, ?_⟩
  · intro hstack halive
    obtain ⟨hkept, hwait⟩ := h.kept halive
    exact hkept.invariant hwait (h.holds.stands halive) hstack
  · intro i c' hstep halive' hasync
    have hstands := h.holds.stands (step_alive h.holds hstep)
    have hdestroy : ∀ n, i ≠ .item (.destroy n) := by
      rintro n rfl
      obtain ⟨-, -, rfl⟩ := step_destroy hstep
      cases halive'
    exact (step_onQueue hstands hdestroy hstep).front_untouched hstands hasync

/-- Two buffers are queued, the first half of the first is written synchronously, and a third buffer
comes while the asynchronous write has the rest. -/
theorem write_queue_invariant_rest : ∃ (env : ConnectionEnv) (c : Connection),
    c.asyncWrite = some [[2], [3, 4]] ∧ (front c.writeQueue).bufsStorage = [[1, 2], [3, 4]] ∧ c.writeQueue.length = 2 ∧
      QueueInvariant env c := by
  let env : ConnectionEnv := ⟨64, 64, by decide, false, false⟩
  let inputs : List Input := [.item (.call (.send { bufs := [[1, 2], [3, 4]] })), .none, .none,
    .result ⟨some .wouldBlock, 0⟩, .none, .none, .none, .result ⟨some .wouldBlock, 1⟩,
    .item (.call (.send { bufs := [[5]] })), .none, .none, .none, .none]
  obtain ⟨c, hrun, hasync, hfront, hlength, hstack, halive⟩ := exists_execute (step env) {} inputs
    (fun c => c.asyncWrite = some [[2], [3, 4]] ∧ (front c.writeQueue).bufsStorage = [[1, 2], [3, 4]] ∧
      c.writeQueue.length = 2 ∧ c.stack = [] ∧ c.destroyed = false) (by decide +kernel)
  exact ⟨env, c, hasync, hfront, hlength, (write_queue_invariant env (by decide) hrun).1 hstack halive⟩

end Connection

end Opio.Net
