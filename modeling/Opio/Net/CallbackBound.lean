/-
How many callbacks a sequence of buffers holds. A callback comes with a buffer of its own, so as long
as every buffer stays a buffer, the bound on the buffers is one on the callbacks too. Concatenation
takes buffers away and leaves the callbacks.
-/
import Opio.Lib.Runs
import Opio.Net.CalmRuns

namespace Opio.Net

/-- The last buffer of a group is in the queue. -/
def Frame.endsGroup : Frame → Bool
  | .append [] false _ _ => true
  | _ => false

namespace Connection

variable {env : ConnectionEnv} {c c' : Connection}

/-! ## The assertion -/

/-- The next step calls `append_completion_cb` on the back of the queue. -/
def AppendsCompletionCb (c : Connection) : Prop := ∃ id base, c.stack = .append [] false id true :: base

/-- What `append_completion_cb` asserts. -/
def CbsBounded (env : ConnectionEnv) (c : Connection) : Prop :=
  AppendsCompletionCb c → (back c.writeQueue).sendCompletionCbs.length < env.maxSeqLength

/-- The step hands a buffer to `append_outgoing_buffer`. -/
def appendsOutgoingBuffer (env : ConnectionEnv) (c : Connection) (i : Input) : Bool :=
  match c.stack, i with
  | .append (buf :: _) beAggressive _ _ :: _, .none =>
    ¬ (beAggressive ∧ ¬ c.isWriteOperationRunning ∧ buf.length < env.quikSyncWriteHeuristicSize)
  | .aggressiveWrite buf _ _ _ :: _, .result r => r.transferred ≠ buf.length
  | _, _ => false

/-- Where a buffer makes `append_outgoing_buffer` concatenate the back of the queue, this leaves a buffer
for each of its callbacks. -/
def KeepsBuffersForCbs (env : ConnectionEnv) (c : Connection) (i : Input) : Prop :=
  let seq := back c.writeQueue
  appendsOutgoingBuffer env c i = true → seq.canAppendBuffer env.maxSeqLength = false → 1 < c.writeQueue.length →
    seq.sendCompletionCbs.length ≤ (seq.concatSmallBuffers concatenatedBufferMaxSize).bufsStorage.length

instance (env : ConnectionEnv) (c : Connection) (i : Input) : Decidable (KeepsBuffersForCbs env c i) :=
  inferInstanceAs (Decidable (_ → _ → _ → _))

/-! ## Sequences -/

/-- A buffer for each callback, and no more of them than a gather write takes. -/
structure Fits (env : ConnectionEnv) (seq : SingleWritableSequence) : Prop where
  cbs : seq.sendCompletionCbs.length ≤ seq.bufsStorage.length
  bufs : seq.bufsStorage.length ≤ env.maxSeqLength

theorem fits_empty (env : ConnectionEnv) : Fits env .empty := ⟨Nat.le_refl _, Nat.zero_le _⟩

theorem Fits.withAsioBufs {seq : SingleWritableSequence} (h : Fits env seq) (asioBufs : List Bytes) :
    Fits env { seq with asioBufs } := ⟨h.cbs, h.bufs⟩

/-- A buffer that is appended is one without a callback. -/
theorem Fits.appendBuffer {seq : SingleWritableSequence} (h : seq.sendCompletionCbs.length ≤ seq.bufsStorage.length)
    (hroom : seq.canAppendBuffer env.maxSeqLength = true) (buf : Bytes) :
    Fits env (seq.appendBuffer buf) ∧
      (seq.appendBuffer buf).sendCompletionCbs.length < (seq.appendBuffer buf).bufsStorage.length := by
  have hbufs : (seq.appendBuffer buf).bufsStorage.length = seq.bufsStorage.length + 1 := List.length_append
  have hcbs : (seq.appendBuffer buf).sendCompletionCbs = seq.sendCompletionCbs := rfl
  have hle : seq.bufsStorage.length + 1 ≤ env.maxSeqLength := of_decide_eq_true hroom
  refine ⟨⟨?_, ?_⟩, ?_⟩
  · rw [hbufs, hcbs]
    omega
  · rw [hbufs]
    exact hle
  · rw [hbufs, hcbs]
    omega

theorem Fits.appendCompletionCb {seq : SingleWritableSequence} (h : Fits env seq)
    (hfree : seq.sendCompletionCbs.length < seq.bufsStorage.length) (cb : Nat) :
    Fits env (seq.appendCompletionCb cb) := by
  refine ⟨?_, h.bufs⟩
  rw [SingleWritableSequence.appendCompletionCb, List.length_append, List.length_singleton]
  exact hfree

/-- What `append_outgoing_buffer` leaves at the back has a buffer without a callback. -/
theorem fits_append {queue : List SingleWritableSequence} (h : ∀ seq ∈ queue, Fits env seq)
    (hpace : (back queue).canAppendBuffer env.maxSeqLength = false → 1 < queue.length →
      (back queue).sendCompletionCbs.length ≤
        ((back queue).concatSmallBuffers concatenatedBufferMaxSize).bufsStorage.length)
    (buf : Bytes) :
    (∀ seq ∈ appendOutgoingBuffer env buf queue, Fits env seq) ∧
      (back (appendOutgoingBuffer env buf queue)).sendCompletionCbs.length <
        (back (appendOutgoingBuffer env buf queue)).bufsStorage.length := by
  have hback : Fits env (back queue) := back_of_forall h (fits_empty env)
  have hnew := Fits.appendBuffer (fits_empty env).cbs (empty_canAppendBuffer env) buf
  let compact := (back queue).concatSmallBuffers concatenatedBufferMaxSize
  have hcbs : (back queue).canAppendBuffer env.maxSeqLength = false → 1 < queue.length →
      compact.sendCompletionCbs.length ≤ compact.bufsStorage.length := by
    intro hfull hlong
    rw [SingleWritableSequence.sendCompletionCbs_concatSmallBuffers]
    exact hpace hfull hlong
  have hbufs : compact.bufsStorage.length ≤ env.maxSeqLength :=
    (SingleWritableSequence.length_concatSmallBuffers _ _).trans hback.bufs
  refine appendOutgoingBuffer_elim env buf queue ?room ?short ?compacted ?full
  case room =>
    intro hroom
    obtain ⟨hfits, hfree⟩ := Fits.appendBuffer hback.cbs hroom buf
    rw [setBack, back_concat]
    exact ⟨forall_setBack h hfits, hfree⟩
  case short =>
    intro _ _
    rw [back_concat]
    exact ⟨forall_concat h hnew.1, hnew.2⟩
  case compacted =>
    intro hfull hlong hroom
    obtain ⟨hfits, hfree⟩ := Fits.appendBuffer (hcbs hfull hlong) hroom buf
    rw [setBack, back_concat]
    exact ⟨forall_setBack h hfits, hfree⟩
  case full =>
    intro hfull hlong _
    rw [back_concat]
    exact ⟨forall_concat (forall_setBack h ⟨hcbs hfull hlong, hbufs⟩) hnew.1, hnew.2⟩

/-! ## Steps -/

/-- Every sequence has a buffer for each of its callbacks, and the back one more while a callback is to be
appended to it. -/
structure CbsFit (env : ConnectionEnv) (c : Connection) : Prop where
  queue : ∀ seq ∈ c.writeQueue, Fits env seq
  top : ∀ f base, c.stack = f :: base → f.endsGroup = true →
    (back c.writeQueue).sendCompletionCbs.length < (back c.writeQueue).bufsStorage.length
  below : ∀ f ∈ c.stack.tail, f.endsGroup = false

theorem cbsFit_init (env : ConnectionEnv) : CbsFit env {} where
  queue := by
    intro seq hseq
    rw [List.mem_singleton.1 hseq]
    exact fits_empty env
  top := by
    rintro f base ⟨⟩
  below := by simp

theorem CbsFit.base {f : Frame} (h : CbsFit env (c.push f)) : ∀ g ∈ c.stack, g.endsGroup = false := h.below

/-- A step that leaves no group at its end. -/
theorem cbsFit_of_stack (gs : List Frame) {base : List Frame} (hqueue : ∀ seq ∈ c.writeQueue, Fits env seq)
    (hstack : c.stack = gs ++ base) (hgs : ∀ g ∈ gs, g.endsGroup = false) (hbase : ∀ g ∈ base, g.endsGroup = false) :
    CbsFit env c := by
  have hall : ∀ g ∈ c.stack, g.endsGroup = false := by
    rw [hstack]
    exact List.forall_mem_append.2 ⟨hgs, hbase⟩
  refine ⟨hqueue, ?_, fun g hg => hall g (List.mem_of_mem_tail hg)⟩
  rintro f rest heq hends
  rw [hall f (heq ▸ List.mem_cons_self ..)] at hends
  cases hends

theorem endsGroup_of_isBystander {f : Frame} (h : f.isBystander = true) : f.endsGroup = false := by
  cases f <;> first | rfl | cases h

theorem Pushed.endsGroup {f g : Frame} {i : Input} (h : Pushed f i g) : g.endsGroup = false := by
  rcases h with hg | ⟨call, calls, -, rfl⟩
  · exact endsGroup_of_isBystander hg.1
  · rfl

/-- The end of a write leaves the queue as it is. -/
theorem afterWrite_pushes (env : ConnectionEnv) (ec : Option ErrorCode) (c : Connection) :
    (afterWrite env ec c).writeQueue = c.writeQueue ∧ ∃ gs, (afterWrite env ec c).stack = gs ++ c.stack ∧
      ∀ g ∈ gs, g.endsGroup = false := by
  cases ec with
  | none => exact ⟨rfl, [.runCallbacks .success _, .popWritten], rfl, by simp [Frame.endsGroup]⟩
  | some ec =>
    obtain ⟨gs, hfails⟩ := afterWrite_fails env ec c
    refine ⟨hfails.writeQueue, gs ++ [.runCallbacks .ioError (front c.writeQueue).sendCompletionCbs], ?_, ?_⟩
    · rw [List.append_assoc]
      exact hfails.stack
    · refine List.forall_mem_append.2 ⟨fun g hg => endsGroup_of_isBystander (hfails.frames.bystanders g hg), ?_⟩
      simp [Frame.endsGroup]

/-- The end of a write with nothing else on the stack that ends a group. -/
theorem afterWrite_cbsFit (env : ConnectionEnv) (ec : Option ErrorCode) {c : Connection}
    (hqueue : ∀ seq ∈ c.writeQueue, Fits env seq) (hbase : ∀ g ∈ c.stack, g.endsGroup = false) :
    CbsFit env (afterWrite env ec c) := by
  obtain ⟨hsame, gs, hstack, hgs⟩ := afterWrite_pushes env ec c
  exact cbsFit_of_stack _ (by rwa [hsame]) hstack hgs hbase

theorem append_cbsFit {bufs : List Bytes} {beAggressive cb : Bool} {id : Nat}
    (h : CbsFit env (c.push (.append bufs beAggressive id cb)))
    (hpace : KeepsBuffersForCbs env (c.push (.append bufs beAggressive id cb)) .none) :
    CbsFit env (append env bufs beAggressive id cb c) := by
  have hqueue : ∀ seq ∈ c.writeQueue, Fits env seq := h.queue
  have hbase := h.base
  refine append_elim env bufs beAggressive id cb c ?delivered ?ended ?noted ?queued ?direct ?buffered
  case delivered =>
    intro _ _ _
    exact cbsFit_of_stack _ hqueue (List.singleton_append ..).symm (by simp [Frame.endsGroup]) hbase
  case ended => exact fun _ _ _ => cbsFit_of_stack _ hqueue (List.nil_append _).symm (by simp) hbase
  case noted =>
    rintro rfl rfl rfl
    -- the buffer that came last has no callback yet
    have hfree : (back c.writeQueue).sendCompletionCbs.length < (back c.writeQueue).bufsStorage.length :=
      h.top _ _ rfl rfl
    refine cbsFit_of_stack [.initiateWrite] ?_ rfl (by simp [Frame.endsGroup]) hbase
    exact forall_setBack hqueue ((back_of_forall hqueue (fits_empty env)).appendCompletionCb hfree id)
  case queued =>
    intro _ _ _
    exact cbsFit_of_stack [.initiateWrite] hqueue rfl (by simp [Frame.endsGroup]) hbase
  case direct =>
    intro buf rest _ _ _ _
    exact cbsFit_of_stack _ hqueue (List.singleton_append ..).symm (by simp [Frame.endsGroup]) hbase
  case buffered =>
    rintro buf rest rfl hqueued
    have hpace' := hpace (decide_eq_true hqueued)
    obtain ⟨hfits, hfree⟩ := fits_append hqueue hpace' buf
    exact ⟨hfits, fun _ _ _ _ => hfree, hbase⟩

theorem aggressiveWritten_cbsFit {buf : Bytes} {bufs : List Bytes} {id : Nat} {cb : Bool} {r : WriteResult}
    (h : CbsFit env (c.push (.aggressiveWrite buf bufs id cb)))
    (hpace : KeepsBuffersForCbs env (c.push (.aggressiveWrite buf bufs id cb)) (.result r)) :
    CbsFit env (aggressiveWritten env buf bufs id cb r c) := by
  have hqueue : ∀ seq ∈ c.writeQueue, Fits env seq := h.queue
  refine aggressiveWritten_elim env buf bufs id cb r c ?whole ?partly
  case whole =>
    intro _
    exact cbsFit_of_stack _ hqueue (List.singleton_append ..).symm (by simp [Frame.endsGroup]) h.base
  case partly =>
    intro hpartial
    have hpace' := hpace (decide_eq_true hpartial)
    obtain ⟨hfits, hfree⟩ := fits_append hqueue hpace'
      (if r.transferred ≠ 0 then buf.drop r.transferred else buf)
    exact ⟨hfits, fun _ _ _ _ => hfree, h.base⟩

theorem initiateWrite_cbsFit (h : CbsFit env (c.push .initiateWrite)) :
    CbsFit env (initiateWriteIfNecessary env c) := by
  have hqueue : ∀ seq ∈ c.writeQueue, Fits env seq := h.queue
  have hasked : ∀ seq ∈ setFront (front c.writeQueue).makeAsioBufs c.writeQueue, Fits env seq :=
    forall_setFront hqueue ((front_of_forall hqueue (fits_empty env)).withAsioBufs _)
  refine initiateWrite_elim env c ?running ?nothing ?sync ?async
  case running => exact fun _ => cbsFit_of_stack _ hqueue (List.nil_append _).symm (by simp) h.base
  case nothing => exact fun _ _ => cbsFit_of_stack _ hasked (List.nil_append _).symm (by simp) h.base
  case sync =>
    intro _ _ _
    exact cbsFit_of_stack _ hasked (List.singleton_append ..).symm (by simp [Frame.endsGroup]) h.base
  case async =>
    intro _ _
    exact cbsFit_of_stack _ (forall_freezeFirst hasked (fits_empty env)) (List.nil_append _).symm (by simp) h.base

theorem syncWritten_cbsFit {r : WriteResult} (h : CbsFit env (c.push .syncWrite))
    (possible : r.PossibleSync (front c.writeQueue).totalSize) : CbsFit env (syncWritten env r c) := by
  have hqueue : ∀ seq ∈ c.writeQueue, Fits env seq := h.queue
  refine syncWritten_elim env possible ?completed ?blocked
  case completed =>
    intro _
    exact afterWrite_cbsFit env r.ec (forall_freezeFirst hqueue (fits_empty env))
      (List.forall_mem_cons.2 ⟨rfl, h.base⟩)
  case blocked =>
    intro _ _
    refine cbsFit_of_stack _ (forall_freezeFirst (forall_setFront hqueue ?_) (fits_empty env))
      (List.nil_append _).symm (by simp) h.base
    exact (front_of_forall hqueue (fits_empty env)).withAsioBufs _

theorem handleRemainigWriteQueue_fits (h : ∀ seq ∈ c.writeQueue, Fits env seq) :
    ∀ seq ∈ (handleRemainigWriteQueue c).writeQueue, Fits env seq := by
  unfold handleRemainigWriteQueue
  dsimp only
  split
  · simp
  · exact h

theorem destroy_cbsFit (hqueue : ∀ seq ∈ c.writeQueue, Fits env seq) (hstack : c.stack = []) (n : Nat) :
    CbsFit env (destroy n c) := by
  refine cbsFit_of_stack _ ?_ ((destroy_stack hstack n).trans (List.nil_append []).symm) (by simp) (by simp)
  unfold destroy
  cases c.asyncWrite with
  | none => exact handleRemainigWriteQueue_fits hqueue
  | some bufs => exact handleRemainigWriteQueue_fits hqueue

theorem scheduleSend_cbsFit {s : SendCall} (h : CbsFit env (c.push (.call (.send s)))) :
    CbsFit env (scheduleSend s c) := by
  refine scheduleSend_elim s c ?accepted ?rejected ?ignored
  case accepted =>
    intro _
    refine cbsFit_of_stack _ h.queue (List.singleton_append ..).symm ?_ h.base
    intro g hg
    rw [List.mem_singleton.1 hg]
    cases s.bufs <;> rfl
  case rejected =>
    intro _ _ _
    exact cbsFit_of_stack _ h.queue (List.singleton_append ..).symm (by simp [Frame.endsGroup]) h.base
  case ignored => exact fun _ _ => cbsFit_of_stack _ h.queue (List.nil_append _).symm (by simp) h.base

theorem step_cbsFit {i : Input} (h : CbsFit env c) (hpace : KeepsBuffersForCbs env c i)
    (hstep : step env c i = some c') : CbsFit env c' := by
  rcases step_cases hstep with ⟨item, rfl, hstack, -, hbegin⟩ | ⟨f, c₀, rfl, hresume⟩
  · have hbase : ∀ g ∈ c.stack, g.endsGroup = false := by simp [hstack]
    cases hbegin with
    | call call => exact cbsFit_of_stack _ h.queue (List.singleton_append ..).symm (by simp [Frame.endsGroup]) hbase
    | bystander still bystanders =>
      refine cbsFit_of_stack _ ?_ still.stack (fun g hg => endsGroup_of_isBystander (bystanders g hg).1) hbase
      rw [still.same.writeQueue]
      exact h.queue
    | asyncWrite bufs r => exact afterWrite_cbsFit env r.ec h.queue (List.forall_mem_cons.2 ⟨rfl, hbase⟩)
    | destroy n => exact destroy_cbsFit h.queue hstack n
  · cases hresume with
    | bystander isBystander still pushed =>
      refine cbsFit_of_stack _ ?_ still.stack (fun g hg => (pushed g hg).endsGroup) h.base
      rw [still.same.writeQueue]
      exact h.queue
    | send s => exact scheduleSend_cbsFit h
    | append bufs beAggressive id cb => exact append_cbsFit h hpace
    | aggressiveWrite buf bufs id cb r => exact aggressiveWritten_cbsFit h hpace
    | initiateWrite => exact initiateWrite_cbsFit h
    | syncWrite r possible => exact syncWritten_cbsFit h possible
    | called res id ids cs =>
      exact cbsFit_of_stack [.reaction cs, .runCallbacks res ids] h.queue rfl (by simp [Frame.endsGroup]) h.base
    | callbacksDone res => exact cbsFit_of_stack _ h.queue (List.nil_append _).symm (by simp) h.base
    | popWritten =>
      refine cbsFit_of_stack [.initiateWrite] ?_ rfl (by simp [Frame.endsGroup]) h.base
      exact fun seq hseq => h.queue seq (List.mem_of_mem_tail hseq)

/-! ## Runs -/

theorem CbsFit.bounded (h : CbsFit env c) : CbsBounded env c := by
  rintro ⟨id, base, hstack⟩
  exact (h.top _ _ hstack rfl).trans_le (back_of_forall h.queue (fits_empty env)).bufs

/-- As long as every concatenation leaves a buffer for each callback of its sequence, no sequence is
given more callbacks than it may hold. -/
theorem cbs_never_overflow {inputs : List Input} (hpace : Along (step env) (KeepsBuffersForCbs env) {} inputs)
    (hrun : execute (step env) {} inputs = some c) : CbsBounded env c :=
  (execute_invariant (I := CbsFit env) (fun _ _ _ h hi hstep => step_cbsFit h hi hstep) inputs (cbsFit_init env) hpace
    hrun).bounded

/-- A group whose write blocks, one of two buffers behind it, and one whose buffer makes the two of
them one. -/
theorem cbs_never_overflow_compacted : ∃ c, AppendsCompletionCb c ∧ (back c.writeQueue).bufsStorage = [[2, 3], [4]] ∧
    CbsBounded ⟨64 * 1024, 2, by decide, false, false⟩ c := by
  let inputs : List Input := [.item (.call (.send { bufs := [[1]], cb := true })), .none, .none,
    .result ⟨some .wouldBlock, 0⟩, .none, .none, .result ⟨some .wouldBlock, 0⟩,
    .item (.call (.send { bufs := [[2], [3]], cb := true })), .none, .none, .none, .none, .none,
    .item (.call (.send { bufs := [[4]], cb := true })), .none, .none]
  obtain ⟨c, hrun, hstack, hback⟩ := exists_execute (step ⟨64 * 1024, 2, by decide, false, false⟩) {} inputs
    (fun c => c.stack = [.append [] false 2 true] ∧ (back c.writeQueue).bufsStorage = [[2, 3], [4]])
    (by decide +kernel)
  exact ⟨c, ⟨2, [], hstack⟩, hback, cbs_never_overflow (by decide +kernel) hrun⟩

/-- While the first write is pending sixteen groups of one byte fill a sequence. The next one makes a single
buffer of them, and then its callback is the seventeenth. -/
theorem cbs_overflow : ∃ inputs c, execute (step ⟨64 * 1024, 64, by decide, false, false⟩) {} inputs = some c ∧
    ¬ CbsBounded ⟨64 * 1024, 64, by decide, false, false⟩ c := by
  let group : List Input := [.item (.call (.send { bufs := [[0]], cb := true })), .none, .none]
  let inputs : List Input := group ++ [.result ⟨some .wouldBlock, 0⟩, .none, .none, .result ⟨some .wouldBlock, 0⟩] ++
    (List.replicate 16 (group ++ [.none, .none])).flatten ++ group
  obtain ⟨c, hrun, hstack, hcbs⟩ := exists_execute (step ⟨64 * 1024, 64, by decide, false, false⟩) {} inputs
    (fun c => c.stack = [.append [] false 17 true] ∧ (back c.writeQueue).sendCompletionCbs.length = 16)
    (by decide +kernel)
  refine ⟨inputs, c, hrun, fun h => ?_⟩
  have hlt : (back c.writeQueue).sendCompletionCbs.length < 16 := h ⟨17, [], hstack⟩
  omega

end Connection

end Opio.Net
