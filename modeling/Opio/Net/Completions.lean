/-
Callbacks are called exactly once by the end of the connection, in every run where no write fails
with callbacks waiting for it and no direct call with a callback is refused: a sequence whose write
failed stays in the queue, where the destructor finds its callbacks again, and a direct call that is
refused does not call its callback at all.
-/
import Mathlib.Data.List.Nodup
import Opio.Net.Callbacks

namespace Opio.Net

namespace Connection

variable {env : ConnectionEnv} {c c' : Connection}

/-! ## Callbacks wait for buffers -/

/-- A sequence without buffers has no callbacks. -/
def Owned (queue : List SingleWritableSequence) : Prop :=
  ∀ seq ∈ queue, seq.bufsStorage = [] → seq.sendCompletionCbs = []

/-- Callbacks wait for buffers, also the one of a group that was queued. -/
structure CallbacksWait (c : Connection) : Prop where
  owned : Owned c.writeQueue
  queued : ∀ bufs id cb, .append bufs false id cb ∈ c.stack → (back c.writeQueue).bufsStorage ≠ []

theorem owned_empty :
    SingleWritableSequence.empty.bufsStorage = [] → SingleWritableSequence.empty.sendCompletionCbs = [] :=
  fun _ => rfl

theorem Owned.at_back {queue : List SingleWritableSequence} (h : Owned queue) :
    (back queue).bufsStorage = [] → (back queue).sendCompletionCbs = [] := by
  rcases List.eq_nil_or_concat queue with rfl | ⟨frozen, last, rfl⟩
  · exact owned_empty
  · rw [List.concat_eq_append, back_concat]
    exact h last (by simp)

theorem Owned.at_front {queue : List SingleWritableSequence} (h : Owned queue) :
    (front queue).bufsStorage = [] → (front queue).sendCompletionCbs = [] := by
  cases queue with
  | nil => exact owned_empty
  | cons seq rest => exact h seq (List.mem_cons_self ..)

theorem Owned.with_back {queue : List SingleWritableSequence} (h : Owned queue) {seq : SingleWritableSequence}
    (hseq : seq.bufsStorage = [] → seq.sendCompletionCbs = []) : Owned (setBack seq queue) := by
  intro s hs
  rcases List.mem_append.1 hs with hs | hs
  · exact h s (List.dropLast_subset queue hs)
  · rw [List.mem_singleton.1 hs]
    exact hseq

theorem Owned.concat {queue : List SingleWritableSequence} (h : Owned queue) {seq : SingleWritableSequence}
    (hseq : seq.bufsStorage = [] → seq.sendCompletionCbs = []) : Owned (queue ++ [seq]) := by
  intro s hs
  rcases List.mem_append.1 hs with hs | hs
  · exact h s hs
  · rw [List.mem_singleton.1 hs]
    exact hseq

theorem Owned.with_front {queue : List SingleWritableSequence} (h : Owned queue) {seq : SingleWritableSequence}
    (hbufs : seq.bufsStorage = (front queue).bufsStorage)
    (hcbs : seq.sendCompletionCbs = (front queue).sendCompletionCbs) : Owned (setFront seq queue) := by
  intro s hs
  rcases List.mem_cons.1 hs with rfl | hs
  · rw [hbufs, hcbs]
    exact h.at_front
  · exact h s (List.mem_of_mem_tail hs)

theorem Owned.frozen {queue : List SingleWritableSequence} (h : Owned queue) : Owned (freezeFirst queue) := by
  unfold freezeFirst
  split
  · exact h.concat owned_empty
  · exact h

theorem Owned.tail {queue : List SingleWritableSequence} (h : Owned queue) : Owned queue.tail :=
  fun s hs => h s (List.mem_of_mem_tail hs)

/-- The back of the queue has a buffer once one was appended. -/
theorem Owned.appended {queue : List SingleWritableSequence} (h : Owned queue) (env : ConnectionEnv) (buf : Bytes) :
    Owned (appendOutgoingBuffer env buf queue) ∧ (back (appendOutgoingBuffer env buf queue)).bufsStorage ≠ [] := by
  have hfull : ∀ seq : SingleWritableSequence, (seq.appendBuffer buf).bufsStorage = [] →
      (seq.appendBuffer buf).sendCompletionCbs = [] := by
    intro seq hnil
    simp [SingleWritableSequence.appendBuffer] at hnil
  have hback : ∀ (queue : List SingleWritableSequence) (seq : SingleWritableSequence),
      (back (queue ++ [seq.appendBuffer buf])).bufsStorage ≠ [] := by
    intro queue seq
    rw [back_concat]
    simp [SingleWritableSequence.appendBuffer]
  have hconcat : ((back queue).concatSmallBuffers concatenatedBufferMaxSize).bufsStorage = [] →
      ((back queue).concatSmallBuffers concatenatedBufferMaxSize).sendCompletionCbs = [] := by
    intro hnil
    rw [SingleWritableSequence.sendCompletionCbs_concatSmallBuffers]
    exact h.at_back (SingleWritableSequence.bufsStorage_concatSmallBuffers_eq_nil hnil)
  refine appendOutgoingBuffer_elim env buf queue ?room ?short ?compacted ?full
  case room => exact fun _ => ⟨h.with_back (hfull _), hback _ _⟩
  case short => exact fun _ _ => ⟨h.concat (hfull _), hback _ _⟩
  case compacted => exact fun _ _ _ => ⟨h.with_back (hfull _), hback _ _⟩
  case full => exact fun _ _ _ => ⟨(h.with_back hconcat).concat (hfull _), hback _ _⟩

theorem CallbacksWait.of_queue (h : Owned c'.writeQueue) (hstack : ∀ bufs id cb, .append bufs false id cb ∉ c'.stack) :
    CallbacksWait c' := ⟨h, fun bufs id cb hmem => absurd hmem (hstack bufs id cb)⟩

/-- Frames that send no group. -/
theorem noAppend_of_notSending {stack : List Frame} (h : ∀ g ∈ stack, g.isSending = false) :
    ∀ bufs id cb, .append bufs false id cb ∉ stack := by
  intro bufs id cb hmem
  cases h _ hmem

theorem resume_callbacksWait {f : Frame} {i : Input} (h : CallbacksWait (c.push f)) (hcalm : Calm (c.push f))
    (hstep : Resumes env c f i c') : CallbacksWait c' := by
  have howned : Owned c.writeQueue := h.owned
  have hbelow := noAppend_of_notSending hcalm.below
  cases hstep with
  | bystander isBystander still pushed =>
    refine .of_queue (still.same.writeQueue ▸ h.owned) ?_
    intro bufs id cb hmem
    rw [still.stack] at hmem
    rcases List.mem_append.1 hmem with hmem | hmem
    · rcases pushed _ hmem with hg | ⟨call, calls, -, heq⟩
      · cases hg.1
      · cases heq
    · exact hbelow bufs id cb hmem
  | send s =>
    refine scheduleSend_elim s c ?accepted ?rejected ?ignored
    case accepted => exact fun _ => .of_queue howned (by simp [push, emit, hbelow])
    case rejected => exact fun _ _ _ => .of_queue howned (by simp [push, emit, hbelow])
    case ignored => exact fun _ _ => .of_queue howned (by simp [emit, hbelow])
  | append bufs beAggressive id cb =>
    refine append_elim env bufs beAggressive id cb c ?delivered ?ended ?noted ?queued ?direct ?buffered
    case delivered => exact fun _ _ _ => .of_queue howned (by simp [push, hbelow])
    case ended => exact fun _ _ _ => .of_queue howned hbelow
    case noted =>
      rintro rfl rfl rfl
      -- the callback is owed to bytes: what was appended before it is in the last sequence
      have hbufs : (back c.writeQueue).bufsStorage ≠ [] := h.queued [] id true (List.mem_cons_self ..)
      exact .of_queue (howned.with_back fun hnil => absurd hnil hbufs) (by simp [push, hbelow])
    case queued => exact fun _ _ _ => .of_queue howned (by simp [push, hbelow])
    case direct => exact fun buf rest _ _ _ _ => .of_queue howned (by simp [push, hbelow])
    case buffered =>
      intro buf rest _ _
      obtain ⟨hok, hback⟩ := howned.appended env buf
      exact ⟨hok, fun _ _ _ _ => hback⟩
  | aggressiveWrite buf bufs id cb r possible =>
    refine aggressiveWritten_elim env buf bufs id cb r c ?whole ?partly
    case whole => exact fun _ => .of_queue howned (by simp [push, emit, hbelow])
    case partly =>
      intro _
      obtain ⟨hok, hback⟩ := howned.appended env (if r.transferred ≠ 0 then buf.drop r.transferred else buf)
      exact ⟨hok, fun _ _ _ _ => hback⟩
  | initiateWrite =>
    have hfront : Owned (setFront (front c.writeQueue).makeAsioBufs c.writeQueue) := howned.with_front rfl rfl
    refine initiateWrite_elim env c ?running ?nothing ?sync ?async
    case running => exact fun _ => .of_queue howned hbelow
    case nothing => exact fun _ _ => .of_queue hfront hbelow
    case sync => exact fun _ _ _ => .of_queue hfront (by simp [push, emit, hbelow])
    case async => exact fun _ _ => .of_queue hfront.frozen hbelow
  | syncWrite r possible =>
    -- a group that is still being appended would be at the top, where the write is
    have hsending : ∀ g ∈ (syncWritten env r c).stack, g.isSending = false := by
      obtain ⟨gs, hgs, hplace⟩ := resume_calm hcalm (i := .result r) rfl (.syncWrite r possible : Resumes env _ _ _ _)
      rw [hgs]
      intro g hg
      rcases List.mem_append.1 hg with hg | hg
      · rcases hplace.sending with hnone | ⟨hf, -⟩
        · exact hnone g hg
        · cases hf
      · exact hcalm.below g hg
    have hstack := noAppend_of_notSending hsending
    refine .of_queue ?_ hstack
    refine syncWritten_elim env possible ?completed ?blocked
    case completed =>
      intro _
      rw [completeOperationNow, afterWrite_queue]
      exact howned.frozen
    case blocked => exact fun _ _ => Owned.frozen (howned.with_front rfl rfl)
  | called res id ids cs => exact .of_queue howned (by simp [push, emit, hbelow])
  | callbacksDone res => exact .of_queue howned hbelow
  | popWritten => exact .of_queue howned.tail (by simp [popWritten, push, emit, hbelow])

theorem step_callbacksWait {i : Input} (h : CallbacksWait c) (hcalm : Calm c) (hstep : step env c i = some c')
    (hdestroy : ∀ n, i ≠ .item (.destroy n)) : CallbacksWait c' := by
  rcases step_cases hstep with ⟨item, rfl, hstack, -, hbegin⟩ | ⟨f, c₀, rfl, hresume⟩
  · cases hbegin with
    | call call => exact .of_queue h.owned (by simp [push, hstack])
    | bystander still bystanders =>
      refine .of_queue (still.same.writeQueue ▸ h.owned) (noAppend_of_notSending fun g hg => ?_)
      rw [still.stack, hstack, List.append_nil] at hg
      exact Frame.isSending_of_isBystander (bystanders g hg).1
    | asyncWrite bufs r inFlight possible =>
      obtain ⟨gs, hgs, hplace⟩ := afterWrite_stack env r.ec
        (({ c with asyncWrite := none }.emit (.taken (bufs.flatten.take r.transferred))).push
          (.incBytesTxAsync r.transferred)) (f := .syncWrite) (g := .incBytesTxAsync r.transferred) rfl rfl (by simp)
      refine .of_queue ?_ (noAppend_of_notSending fun g hg => ?_)
      · rw [asyncWritten, afterWrite_queue]
        exact h.owned
      · have hstack' : (asyncWritten env bufs r c).stack = gs ++ [.incBytesTxAsync r.transferred] := by
          refine hgs.trans ?_
          show gs ++ .incBytesTxAsync r.transferred :: c.stack = _
          rw [hstack]
        rw [hstack'] at hg
        rcases hplace.sending with hnone | ⟨hf, -⟩
        · exact hnone g hg
        · cases hf
    | destroy n => exact absurd rfl (hdestroy n)
  · exact resume_callbacksWait h hcalm hresume

/-! ## The end -/

theorem calledIds_called (res : SendBuffersResult) : ∀ ids : List Nat,
    calledIds (fun _ => true) (ids.map (Event.called · res)) = ids
  | [] => rfl
  | id :: ids => by
    rw [List.map_cons, ← List.singleton_append, calledIds_append, calledIds_called res ids]
    rfl

/-- A queue of one sequence, which is empty when all is written, has no callbacks. -/
theorem queueCallbacks_of_small (h : Stands c) (hwait : CallbacksWait c) (hstack : c.stack = [])
    (hsmall : ¬ 1 < c.writeQueue.length) : queueCallbacks c.writeQueue = [] := by
  -- with a write under way there is a sequence behind the front
  have hlong : QueueOk c.writeQueue.tail → queueCallbacks c.writeQueue = [] := by
    intro hok
    have hpos := List.length_pos_iff.2 hok.ne_nil
    rw [List.length_tail] at hpos
    omega
  cases h with
  | idle core running async notPopping queue notGather clear bytes =>
    obtain ⟨seq, hseq, hbufs⟩ := clear (by rw [hstack]; exact .inl rfl)
    rw [hseq, queueCallbacks_cons, hwait.owned seq (by rw [hseq]; exact List.mem_cons_self ..) hbufs]
    rfl
  | gather core running async notPopping queue gathers =>
    rw [hstack] at gathers
    cases gathers
  | popping core async once =>
    rw [hstack] at once
    cases once
  | writing core bufs running async notPopping queue => exact hlong queue
  | failed entries core hasFailed lost async notPopping queue => exact hlong queue

/-- What waits is called, the callbacks of a write in progress first. -/
theorem calledIds_handleRemainigWriteQueue (c : Connection)
    (hsmall : ¬ 1 < c.writeQueue.length → queueCallbacks c.writeQueue = []) :
    calledIds (fun _ => true) (handleRemainigWriteQueue c).log =
      calledIds (fun _ => true) c.log ++ queueCallbacks c.writeQueue := by
  unfold handleRemainigWriteQueue
  dsimp only
  split
  · rw [calledIds_append, calledIds_append, calledIds_called, calledIds_called, List.append_assoc]
    cases c.isWriteOperationRunning with
    | true => exact congrArg _ (queueCallbacks_front c.writeQueue).symm
    | false => rfl
  · rename_i hnothing
    rw [hsmall fun hlong => hnothing (.inl hlong), List.append_nil]

/-- The destructor calls what still waits in the queue. -/
theorem calledIds_destroy (h : Stands c) (hwait : CallbacksWait c) (hstack : c.stack = []) (n : Nat) :
    calledIds (fun _ => true) (destroy n c).log = calledIds (fun _ => true) c.log ++ queueCallbacks c.writeQueue := by
  have hsmall := queueCallbacks_of_small h hwait hstack
  cases hasync : c.asyncWrite with
  | none =>
    simp only [destroy, hasync]
    exact calledIds_handleRemainigWriteQueue c hsmall
  | some bufs =>
    simp only [destroy, hasync]
    refine (calledIds_handleRemainigWriteQueue (c.emit _) hsmall).trans ?_
    show calledIds _ (c.log ++ [.taken _]) ++ queueCallbacks c.writeQueue = _
    rw [calledIds_append]
    simp [calledIds, List.filterMap, Event.called?]

theorem scheduledIds_destroy (n : Nat) (c : Connection) : scheduledIds (destroy n c).log = scheduledIds c.log := by
  have hmap : ∀ (ids : List Nat) (res : SendBuffersResult), scheduledIds (ids.map (Event.called · res)) = [] := by
    intro ids res
    refine List.filterMap_eq_nil_iff.2 fun ev hev => ?_
    obtain ⟨id, -, rfl⟩ := List.mem_map.1 hev
    rfl
  have hhandle : ∀ c₁ : Connection, scheduledIds (handleRemainigWriteQueue c₁).log = scheduledIds c₁.log := by
    intro c₁
    unfold handleRemainigWriteQueue
    dsimp only
    split
    · rw [scheduledIds_append, scheduledIds_append, hmap, hmap, List.append_nil, List.append_nil]
    · rfl
  cases hasync : c.asyncWrite with
  | none =>
    simp only [destroy, hasync]
    exact hhandle c
  | some bufs =>
    simp only [destroy, hasync]
    exact (hhandle _).trans ((scheduledIds_append ..).trans (List.append_nil _))

/-! ## Exactly once -/

/-- Each callback has been called, is to be called, waits in the queue, or is the one of the group at
hand, and only one of these. -/
structure Accounted (c : Connection) : Prop where
  calm : Calm c
  stands : Stands c
  wait : CallbacksWait c
  all : (ledger (fun _ => true) c).Perm (scheduledIds c.log)
  fresh : ∀ id ∈ scheduledIds c.log, id < c.groups
  nodup : (scheduledIds c.log).Nodup

/-- The callbacks were all called, once each. -/
structure Settled (c : Connection) : Prop where
  destroyed : c.destroyed = true
  stack : c.stack = []
  all : (calledIds (fun _ => true) c.log).Perm (scheduledIds c.log)
  nodup : (scheduledIds c.log).Nodup

/-- New groups have new numbers. -/
theorem fresh_new {ids new : List Nat} {n : Nat} (hnew : new = [] ∨ new = [n]) (h : ids.Nodup)
    (hfresh : ∀ id ∈ ids, id < n) : (ids ++ new).Nodup ∧ ∀ id ∈ ids ++ new, id < n + 1 := by
  have hbelow : ∀ id ∈ ids, id < n + 1 := fun id hid => (hfresh id hid).trans (Nat.lt_succ_self n)
  rcases hnew with rfl | rfl
  · rw [List.append_nil]
    exact ⟨h, hbelow⟩
  · refine ⟨List.nodup_append.2 ⟨h, by simp, ?_⟩, ?_⟩
    · rintro id hid _ hn rfl
      rw [List.mem_singleton.1 hn] at hid
      exact absurd (hfresh n hid) (lt_irrefl n)
    · intro id hid
      rcases List.mem_append.1 hid with hid | hid
      · exact hbelow id hid
      · rw [List.mem_singleton.1 hid]
        exact Nat.lt_succ_self n

/-- A step but the end of the connection. -/
theorem Accounted.next {i : Input} (h : Accounted c) (hi : i.callsNothing = true) (hstep : step env c i = some c')
    (hdestroy : ∀ n, i ≠ .item (.destroy n)) (hledger : LedgerStep (fun _ => true) c c') : Accounted c' := by
  have hwait := step_callbacksWait h.wait h.calm hstep hdestroy
  have hcalm := step_calm h.calm hi hstep
  have hstands := step_stands h.stands (h.calm.overtakesNothing i) hdestroy hstep
  cases hledger with
  | kept scheduled accepted groups ledger =>
    refine ⟨hcalm, hstands, hwait, ?_, ?_, ?_⟩
    · rw [ledger, scheduled]
      exact h.all
    · rw [scheduled, groups]
      exact h.fresh
    · rw [scheduled]
      exact h.nodup
  | accepted ids new groups scheduled accepted ledger =>
    obtain ⟨hnodup, hfresh⟩ := fresh_new new h.nodup h.fresh
    rw [← scheduled] at hnodup hfresh
    refine ⟨hcalm, hstands, hwait, ?_, ?_, hnodup⟩
    · rw [ledger, scheduled]
      exact h.all.append_right ids
    · rw [groups]
      exact hfresh
  | refused ids new groups scheduled accepted told silent =>
    obtain ⟨hnodup, hfresh⟩ := fresh_new new h.nodup h.fresh
    rw [← scheduled] at hnodup hfresh
    refine ⟨hcalm, hstands, hwait, ?_, ?_, hnodup⟩
    · rw [scheduled]
      exact (told rfl).trans (h.all.append_right ids)
    · rw [groups]
      exact hfresh
  | direct id stack scheduled accepted groups perm first =>
    refine ⟨hcalm, hstands, hwait, ?_, ?_, ?_⟩
    · rw [scheduled]
      exact perm.trans h.all
    · rw [scheduled, groups]
      exact h.fresh
    · rw [scheduled]
      exact h.nodup

theorem step_accounted {i : Input} (h : Accounted c ∨ Settled c) (hi : i.callsNothing = true ∧ CallsBackOnce c i)
    (hstep : step env c i = some c') : Accounted c' ∨ Settled c' := by
  rcases h with h | h
  · by_cases hdestroy : ∃ n, i = .item (.destroy n)
    · obtain ⟨n, rfl⟩ := hdestroy
      obtain ⟨hstack, -, rfl⟩ := step_destroy hstep
      refine .inr ⟨rfl, destroy_stack hstack n, ?_, ?_⟩
      · rw [calledIds_destroy h.stands h.wait hstack, scheduledIds_destroy]
        refine List.Perm.trans (List.Perm.of_eq ?_) h.all
        rw [ledger_of_notMem (by simp [hstack]), hstack]
        simp
      · rw [scheduledIds_destroy]
        exact h.nodup
    · refine .inl (h.next hi.1 hstep (fun n hn => hdestroy ⟨n, hn⟩) ?_)
      rcases step_ledger (p := fun _ => true) rfl h.calm h.stands hi.1 (fun _ => hi.2) hstep with
        hledger | ⟨n, hn, -⟩
      · exact hledger
      · exact absurd ⟨n, hn⟩ hdestroy
  · rcases step_cases hstep with ⟨item, rfl, -, halive, -⟩ | ⟨f, c₀, rfl, -⟩
    · rw [h.destroyed] at halive
      cases halive
    · cases h.stack

theorem accounted_init : Accounted {} := by
  refine ⟨calm_init, stands_init, ⟨?_, by simp⟩, List.Perm.refl _, by simp [scheduledIds], List.nodup_nil⟩
  intro seq hseq _
  rw [List.mem_singleton.1 hseq]

/-- In every run in which no callback calls back, every write that fails has no callbacks to report it
to and no direct call with a callback is refused, each callback has been called once when the connection
is gone, with one result. -/
theorem callbacks_called_once (env : ConnectionEnv) (inputs : List Input) (c : Connection)
    (hinputs : ∀ i ∈ inputs, i.callsNothing = true) (honce : Along (step env) CallsBackOnce {} inputs)
    (hrun : execute (step env) {} inputs = some c) (hdestroyed : c.destroyed = true) :
    ∀ id ∈ scheduledIds c.log, (calledIds (fun _ => true) c.log).count id = 1 := by
  have h := execute_invariant (fun _ _ _ h hi hstep => step_accounted h hi hstep) inputs (.inl accounted_init)
    ((Along.of_forall hinputs).and honce) hrun
  intro id hid
  rcases h with h | h
  · rw [h.stands.alive] at hdestroyed
    cases hdestroyed
  · rw [h.all.count_eq]
    exact List.nodup_iff_count_eq_one.1 h.nodup id hid

/-- One group goes out, the other one waits for the asynchronous write when the connection ends. -/
theorem callbacks_called_once_two : ∃ c,
    execute (step ⟨64, 64, by decide, false, false⟩) {}
      [.item (.call (.send { bufs := [[1]], cb := true })), .none, .none, .result ⟨none, 1⟩,
        .none, .calls [], .none, .none,
        .item (.call (.send { bufs := [[2], [3]], cb := true })), .none, .none, .result ⟨some .wouldBlock, 0⟩, .none,
        .none, .none, .result ⟨some .wouldBlock, 1⟩, .item (.destroy 0)] = some c ∧
      scheduledIds c.log = [0, 1] ∧ ∀ id ∈ scheduledIds c.log, (calledIds (fun _ => true) c.log).count id = 1 := by
  obtain ⟨c, hc, hids, hdestroyed⟩ := exists_execute (step ⟨64, 64, by decide, false, false⟩) {}
    [.item (.call (.send { bufs := [[1]], cb := true })), .none, .none, .result ⟨none, 1⟩,
      .none, .calls [], .none, .none,
      .item (.call (.send { bufs := [[2], [3]], cb := true })), .none, .none, .result ⟨some .wouldBlock, 0⟩, .none,
      .none, .none, .result ⟨some .wouldBlock, 1⟩, .item (.destroy 0)]
    (fun c => scheduledIds c.log = [0, 1] ∧ c.destroyed = true) (by decide +kernel)
  exact ⟨c, hc, hids, callbacks_called_once _ _ c (by decide) (by decide +kernel) hc hdestroyed⟩

/-- The gather write fails: its callback is told, and told again by the destructor. A direct call on a
connection that was shut down is refused without a word. -/
theorem callbacks_not_called_once : ∃ c,
    execute (step ⟨64, 64, by decide, false, false⟩) {}
      [.item (.call (.send { bufs := [[1]], cb := true })), .none, .none, .result ⟨some .wouldBlock, 0⟩, .none, .none,
        .result ⟨some .other, 0⟩, .calls [], .none, .none, .none,
        .item (.call (.send { bufs := [[2]], cb := true, direct := true })), .none, .item (.destroy 0)] = some c ∧
      c.destroyed = true ∧ scheduledIds c.log = [0, 1] ∧ (calledIds (fun _ => true) c.log).count 0 = 2 ∧
      (calledIds (fun _ => true) c.log).count 1 = 0 := by
  refine ⟨_, rfl, ?_, ?_, ?_, ?_⟩
  · decide +kernel
  · decide +kernel
  · decide +kernel
  · decide +kernel

end Connection

end Opio.Net
