/-
The ways through the functions of the connection: one case for each branch of the source, with the state
that it leaves. What is proved about a function follows these cases.
-/
import Opio.Net.Connection

namespace Opio.Net.Connection

variable {env : ConnectionEnv} {c c' : Connection}

/-! ## The frames -/

/-- What a frame does when it goes on with what comes in. -/
inductive Continues (env : ConnectionEnv) (c : Connection) : Frame → Input → Connection → Prop
  | call (call : Call) : Continues env c (.call call) .none (exec env c call)
  | append (bufs : List Bytes) (beAggressive : Bool) (id : Nat) (cb : Bool) :
    Continues env c (.append bufs beAggressive id cb) .none (append env bufs beAggressive id cb c)
  | aggressiveWrite (buf : Bytes) (bufs : List Bytes) (id : Nat) (cb : Bool) (r : WriteResult)
    (possible : r.PossibleSync buf.length) :
    Continues env c (.aggressiveWrite buf bufs id cb) (.result r) (aggressiveWritten env buf bufs id cb r c)
  | initiateWrite : Continues env c .initiateWrite .none (initiateWriteIfNecessary env c)
  | syncWrite (r : WriteResult) (possible : r.PossibleSync (front c.writeQueue).totalSize) :
    Continues env c .syncWrite (.result r) (syncWritten env r c)
  | callbacksDone (res : SendBuffersResult) : Continues env c (.runCallbacks res []) .none c
  | called (res : SendBuffersResult) (id : Nat) (ids : List Nat) (cs : List Call) :
    Continues env c (.runCallbacks res (id :: ids)) (.calls cs)
      (((c.emit (.called id res)).push (.runCallbacks res ids)).push (.reaction cs))
  | popWritten : Continues env c .popWritten .none (popWritten c)
  | shutdownHandler (reason : ConnectionShutdownReason) (cs : List Call) :
    Continues env c (.shutdownHandler reason) (.calls cs)
      ((c.emit (.shutdownHandlerCalled reason)).push (.reaction cs))
  | markShutdown : Continues env c .markShutdown .none { c with shutdownWasCalled := true }
  | inputHandler (cs : List Call) :
    Continues env c .inputHandler (.calls cs) ((c.emit .inputHandlerCalled).push (.reaction cs))
  | afterInput : Continues env c .afterInput .none (afterInput c)
  | reactionDone : Continues env c (.reaction []) .none c
  | reaction (call : Call) (calls : List Call) :
    Continues env c (.reaction (call :: calls)) .none ((c.push (.reaction calls)).push (.call call))
  | incBytesTxSync (n : Nat) : Continues env c (.incBytesTxSync n) .none (c.emit (.incBytesTxSync n))
  | incBytesTxAsync (n : Nat) : Continues env c (.incBytesTxAsync n) .none (c.emit (.incBytesTxAsync n))

/-- Every frame goes on with what it waits for, and with nothing else. -/
theorem continues_of_resume {f : Frame} {i : Input} (h : resume env c f i = some c') : Continues env c f i c' := by
  -- with any input but its own a frame does not go on
  cases f with
  | call call =>
    cases i <;> cases h
    exact .call call
  | append bufs beAggressive id cb =>
    cases i <;> cases h
    exact .append bufs beAggressive id cb
  | aggressiveWrite buf bufs id cb =>
    cases i with
    | result r =>
      simp only [resume] at h
      split at h
      next hr => exact Option.some.inj h ▸ .aggressiveWrite buf bufs id cb r hr
      next => cases h
    | _ => cases h
  | initiateWrite =>
    cases i <;> cases h
    exact .initiateWrite
  | syncWrite =>
    cases i with
    | result r =>
      simp only [resume] at h
      split at h
      next hr => exact Option.some.inj h ▸ .syncWrite r hr
      next => cases h
    | _ => cases h
  | runCallbacks res ids =>
    cases ids <;> cases i <;> cases h
    · exact .callbacksDone res
    · exact .called res _ _ _
  | popWritten =>
    cases i <;> cases h
    exact .popWritten
  | shutdownHandler reason =>
    cases i <;> cases h
    exact .shutdownHandler reason _
  | markShutdown =>
    cases i <;> cases h
    exact .markShutdown
  | inputHandler =>
    cases i <;> cases h
    exact .inputHandler _
  | afterInput =>
    cases i <;> cases h
    exact .afterInput
  | reaction calls =>
    cases calls <;> cases i <;> cases h
    · exact .reactionDone
    · exact .reaction _ _
  | incBytesTxSync n =>
    cases i <;> cases h
    exact .incBytesTxSync n
  | incBytesTxAsync n =>
    cases i <;> cases h
    exact .incBytesTxAsync n

/-! ## Work items -/

/-- What a work item does when it begins. -/
inductive Enters (env : ConnectionEnv) (c : Connection) : Item → Connection → Prop
  | call (call : Call) : Enters env c (.call call) (c.push (.call call))
  | asyncWriteDone (bufs : List Bytes) (r : WriteResult) (inFlight : c.asyncWrite = some bufs)
    (possible : r.PossibleAsync (bufs.map List.length).sum) :
    Enters env c (.asyncWriteDone r) (asyncWritten env bufs r c)
  | readFailed (ec : ErrorCode) (inFlight : c.readsInFlight ≠ 0) :
    Enters env c (.readDone (some ec)) (handleIoError env ec { c with readsInFlight := c.readsInFlight - 1 })
  | read (inFlight : c.readsInFlight ≠ 0) :
    Enters env c (.readDone none)
      (({ c with readsInFlight := c.readsInFlight - 1 }.push .afterInput).push .inputHandler)
  | timedOut (timeoutKey : Nat) (current : c.isWriteOperationRunning ∧ timeoutKey = c.timeoutKey) :
    Enters env c (.writeTimeout timeoutKey) (shutdownImpl env .writeTimeout c)
  | late (timeoutKey : Nat) (outdated : ¬ (c.isWriteOperationRunning ∧ timeoutKey = c.timeoutKey)) :
    Enters env c (.writeTimeout timeoutKey) c
  | destroy (transferred : Nat) : Enters env c (.destroy transferred) (destroy transferred c)

theorem enters_of_begin {item : Item} (h : begin env c item = some c') : Enters env c item c' := by
  cases item with
  | call call => exact Option.some.inj h ▸ .call call
  | asyncWriteDone r =>
    simp only [begin] at h
    split at h
    next bufs hbufs =>
      split at h
      next hr => exact Option.some.inj h ▸ .asyncWriteDone bufs r hbufs hr
      next => cases h
    next => cases h
  | readDone ec =>
    simp only [begin] at h
    split at h
    next => cases h
    next hflight =>
      cases ec with
      | some ec => exact Option.some.inj h ▸ .readFailed ec hflight
      | none => exact Option.some.inj h ▸ .read hflight
  | writeTimeout timeoutKey =>
    simp only [begin] at h
    split at h
    next hcurrent => exact Option.some.inj h ▸ .timedOut timeoutKey hcurrent
    next houtdated => exact Option.some.inj h ▸ .late timeoutKey houtdated
  | destroy transferred => exact Option.some.inj h ▸ .destroy transferred

/-- A step begins a work item, or goes on with the frame at the top. -/
theorem step_inversion {i : Input} (h : step env c i = some c') :
    (∃ item, i = .item item ∧ c.stack = [] ∧ c.destroyed = false ∧ Enters env c item c') ∨
      ∃ f c₀, c = c₀.push f ∧ Continues env c₀ f i c' := by
  unfold step at h
  split at h
  next hstack =>
    split at h
    next item =>
      split at h
      next => cases h
      next halive => exact .inl ⟨item, rfl, hstack, eq_false_of_ne_true halive, enters_of_begin h⟩
    next => cases h
  next f fs hstack =>
    refine .inr ⟨f, { c with stack := fs }, ?_, continues_of_resume h⟩
    rw [push, ← hstack]

/-- No work item begins before the running one has come to its end. -/
theorem enters_of_step {item : Item} (h : step env c (.item item) = some c') :
    c.stack = [] ∧ c.destroyed = false ∧ Enters env c item c' := by
  rcases step_inversion h with ⟨item', heq, hstack, halive, henters⟩ | ⟨f, c₀, rfl, hcontinues⟩
  · obtain rfl := Input.item.inj heq
    exact ⟨hstack, halive, henters⟩
  · cases hcontinues

/-! ## The queue -/

/-- Either the back has room for one more buffer, or it is frozen, or its small buffers are made one first. -/
@[elab_as_elim]
theorem appendOutgoingBuffer_elim {motive : List SingleWritableSequence → Prop} (env : ConnectionEnv) (buf : Bytes)
    (queue : List SingleWritableSequence)
    (room : (back queue).canAppendBuffer env.maxSeqLength = true →
      motive (setBack ((back queue).appendBuffer buf) queue))
    (short : (back queue).canAppendBuffer env.maxSeqLength = false → queue.length ≤ 1 →
      motive (queue ++ [SingleWritableSequence.empty.appendBuffer buf]))
    (compacted : (back queue).canAppendBuffer env.maxSeqLength = false → 1 < queue.length →
      ((back queue).concatSmallBuffers concatenatedBufferMaxSize).canAppendBuffer env.maxSeqLength = true →
      motive (setBack (((back queue).concatSmallBuffers concatenatedBufferMaxSize).appendBuffer buf) queue))
    (full : (back queue).canAppendBuffer env.maxSeqLength = false → 1 < queue.length →
      ((back queue).concatSmallBuffers concatenatedBufferMaxSize).canAppendBuffer env.maxSeqLength = false →
      motive (setBack ((back queue).concatSmallBuffers concatenatedBufferMaxSize) queue ++
        [SingleWritableSequence.empty.appendBuffer buf])) :
    motive (appendOutgoingBuffer env buf queue) := by
  unfold appendOutgoingBuffer
  dsimp only
  split
  next hroom => exact room hroom
  next hfull =>
    have hfull := eq_false_of_ne_true hfull
    split
    next hshort => exact short hfull hshort
    next hlong =>
      have hlong := Nat.not_le.1 hlong
      split
      next hroom => exact compacted hfull hlong hroom
      next hstill => exact full hfull hlong (eq_false_of_ne_true hstill)

/-! ## Shutdown -/

/-- The handler is called the first time, when there is one. -/
@[elab_as_elim]
theorem shutdownImpl_elim {motive : Connection → Prop} (env : ConnectionEnv) (reason : ConnectionShutdownReason)
    (c : Connection) (again : c.shutdownWasCalled = true → motive c)
    (first : c.shutdownWasCalled = false → ∀ c₁, (c.socketIsOpen = true ∧ c₁ =
        { c with
          readIsEnabled := false
          scheduleForWriteIsEnabled := false
          socketIsOpen := !env.closesOnShutdown
          timeoutKey := c.timeoutKey + 1 }) ∨ (c.socketIsOpen = false ∧ c₁ = c) →
      motive (if env.hasShutdownHandler then (c₁.push .markShutdown).push (.shutdownHandler reason)
        else { c₁ with shutdownWasCalled := true })) :
    motive (shutdownImpl env reason c) := by
  unfold shutdownImpl
  split
  next hcalled => exact again hcalled
  next hcalled =>
    have hcalled := eq_false_of_ne_true hcalled
    dsimp only
    by_cases hopen : c.socketIsOpen = true
    · rw [if_pos hopen]
      exact first hcalled _ (.inl ⟨hopen, rfl⟩)
    · rw [if_neg hopen]
      exact first hcalled _ (.inr ⟨eq_false_of_ne_true hopen, rfl⟩)

/-! ## Writing -/

/-- A direct call that is refused has its callback called by nobody. -/
@[elab_as_elim]
theorem scheduleSend_elim {motive : Connection → Prop} (s : SendCall) (c : Connection)
    (accepted : c.scheduleForWriteIsEnabled = true →
      motive (({ c with groups := c.groups + 1 }.emit (.accepted c.groups s.bufs s.cb)).push
        (.append s.bufs true c.groups s.cb)))
    (rejected : c.scheduleForWriteIsEnabled = false → s.cb = true → s.direct = false →
      motive (({ c with groups := c.groups + 1 }.emit (.refused c.groups s.cb)).push
        (.runCallbacks .rejectedScheduleSend [c.groups])))
    (ignored : c.scheduleForWriteIsEnabled = false → (s.cb = true → s.direct = true) →
      motive ({ c with groups := c.groups + 1 }.emit (.refused c.groups s.cb))) :
    motive (scheduleSend s c) := by
  unfold scheduleSend
  dsimp only
  split
  next henabled => exact accepted henabled
  next hdisabled =>
    have hdisabled := eq_false_of_ne_true hdisabled
    split
    next hcb => exact rejected hdisabled hcb.1 (eq_false_of_ne_true hcb.2)
    next hcb => exact ignored hdisabled fun h => by_contra fun hdirect => hcb ⟨h, hdirect⟩

/-- A group ends as it went: written directly its callback is called at once, otherwise it is noted. -/
@[elab_as_elim]
theorem append_elim {motive : Connection → Prop} (env : ConnectionEnv) (bufs : List Bytes) (beAggressive : Bool)
    (id : Nat) (cb : Bool) (c : Connection)
    (delivered : bufs = [] → beAggressive = true → cb = true → motive (c.push (.runCallbacks .success [id])))
    (ended : bufs = [] → beAggressive = true → cb = false → motive c)
    (noted : bufs = [] → beAggressive = false → cb = true →
      motive ({ c with writeQueue := setBack ((back c.writeQueue).appendCompletionCb id) c.writeQueue }.push
        .initiateWrite))
    (queued : bufs = [] → beAggressive = false → cb = false → motive (c.push .initiateWrite))
    (direct : ∀ buf rest, bufs = buf :: rest → beAggressive = true → c.isWriteOperationRunning = false →
      buf.length < env.quikSyncWriteHeuristicSize → motive (c.push (.aggressiveWrite buf rest id cb)))
    (buffered : ∀ buf rest, bufs = buf :: rest →
      ¬ (beAggressive ∧ ¬ c.isWriteOperationRunning ∧ buf.length < env.quikSyncWriteHeuristicSize) →
      motive ({ c with writeQueue := appendOutgoingBuffer env buf c.writeQueue }.push (.append rest false id cb))) :
    motive (append env bufs beAggressive id cb c) := by
  cases bufs with
  | nil =>
    cases beAggressive <;> cases cb
    · exact queued rfl rfl rfl
    · exact noted rfl rfl rfl
    · exact ended rfl rfl rfl
    · exact delivered rfl rfl rfl
  | cons buf bufs =>
    unfold append
    dsimp only
    split
    next h => exact direct buf bufs rfl h.1 (eq_false_of_ne_true h.2.1) h.2.2
    next h => exact buffered buf bufs rfl h

@[elab_as_elim]
theorem aggressiveWritten_elim {motive : Connection → Prop} (env : ConnectionEnv) (buf : Bytes) (bufs : List Bytes)
    (id : Nat) (cb : Bool) (r : WriteResult) (c : Connection)
    (whole : r.transferred = buf.length →
      motive (((c.emit (.taken (buf.take r.transferred))).emit (.incBytesTxSync r.transferred)).push
        (.append bufs true id cb)))
    (partly : r.transferred ≠ buf.length →
      motive ({ (c.emit (.taken (buf.take r.transferred))).emit (.incBytesTxSync r.transferred) with
        writeQueue := appendOutgoingBuffer env (if r.transferred ≠ 0 then buf.drop r.transferred else buf) c.writeQueue
        }.push (.append bufs false id cb))) :
    motive (aggressiveWritten env buf bufs id cb r c) := by
  unfold aggressiveWritten
  dsimp only
  split
  next h => exact whole h
  next h => exact partly h

@[elab_as_elim]
theorem initiateWrite_elim {motive : Connection → Prop} (env : ConnectionEnv) (c : Connection)
    (running : c.isWriteOperationRunning = true → motive c)
    (nothing : c.isWriteOperationRunning = false → (front c.writeQueue).bufsStorage = [] →
      motive { c with writeQueue := setFront (front c.writeQueue).makeAsioBufs c.writeQueue })
    (sync : c.isWriteOperationRunning = false → (front c.writeQueue).bufsStorage ≠ [] →
      (front c.writeQueue).makeAsioBufs.totalSize ≤ env.quikSyncWriteHeuristicSize →
      motive (({ c with writeQueue := setFront (front c.writeQueue).makeAsioBufs c.writeQueue }.emit
        (.writeStarted c.popped)).push .syncWrite))
    (async : c.isWriteOperationRunning = false → (front c.writeQueue).bufsStorage ≠ [] →
      motive (startAsyncWrite (front c.writeQueue).makeAsioBufs.asioBufs
        ({ c with writeQueue := setFront (front c.writeQueue).makeAsioBufs c.writeQueue }.emit
          (.writeStarted c.popped)))) :
    motive (initiateWriteIfNecessary env c) := by
  unfold initiateWriteIfNecessary
  split
  next hrunning => exact running hrunning
  next hidle =>
    have hidle := eq_false_of_ne_true hidle
    dsimp only
    split
    next hnil => exact nothing hidle hnil
    next hbufs =>
      split
      next hsmall => exact sync hidle hbufs hsmall
      next => exact async hidle hbufs

/-- A write that would block has left bytes, so the branch for unexpected results is never taken. -/
@[elab_as_elim]
theorem syncWritten_elim {motive : Connection → Prop} (env : ConnectionEnv) {r : WriteResult} {c : Connection}
    (possible : r.PossibleSync (front c.writeQueue).totalSize)
    (completed : r.ec ≠ some .wouldBlock → motive (completeOperationNow env r.ec r.transferred
      (c.emit (.taken ((front c.writeQueue).asioBufs.flatten.take r.transferred)))))
    (blocked : r.ec = some .wouldBlock → r.transferred < (front c.writeQueue).totalSize →
      motive (startAsyncWrite (skipTransferredPart (front c.writeQueue).asioBufs r.transferred)
        { c.emit (.taken ((front c.writeQueue).asioBufs.flatten.take r.transferred)) with
          writeQueue := setFront
            { front c.writeQueue with
              asioBufs := (front c.writeQueue).asioBufs.take ((front c.writeQueue).asioBufs.length -
                (skipTransferredPart (front c.writeQueue).asioBufs r.transferred).length) ++
                  skipTransferredPart (front c.writeQueue).asioBufs r.transferred }
            c.writeQueue })) :
    motive (syncWritten env r c) := by
  unfold syncWritten
  dsimp only
  by_cases hec : r.ec = some .wouldBlock
  · have hless : r.transferred < (front c.writeQueue).totalSize := by
      unfold WriteResult.PossibleSync at possible
      rw [hec] at possible
      exact possible
    rw [if_neg (not_not_intro hec), if_neg (Nat.not_le.2 hless)]
    exact blocked hec hless
  · rw [if_pos hec]
    exact completed hec

end Opio.Net.Connection
