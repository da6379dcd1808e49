/-
A callback that is told of a success: the socket has taken all bytes of its group and of the groups
before it. A callback waits with the sequence that was at the back of the queue when the last buffer
of its group was queued; all that is behind this sequence belongs to later groups.
-/
import Opio.Net.Reports
import Opio.Net.Completions

namespace Opio.Net

namespace Connection

variable {env : ConnectionEnv} {c c' : Connection}

/-! ## Bytes behind a callback -/

/-- The callbacks of the queue, each with the number of bytes behind its sequence. -/
def behind : List SingleWritableSequence → List (Nat × Nat)
  | [] => []
  | seq :: queue => seq.sendCompletionCbs.map (·, (queueBytes queue).length) ++ behind queue

theorem behind_concat (seq : SingleWritableSequence) : ∀ queue : List SingleWritableSequence,
    behind (queue ++ [seq]) =
      (behind queue).map (fun e => (e.1, e.2 + seq.bytes.length)) ++ seq.sendCompletionCbs.map (·, 0)
  | [] => by simp [behind]
  | first :: queue => by
    rw [List.cons_append, behind, behind, behind_concat seq queue]
    simp [Function.comp_def]

theorem queueCallbacks_eq_behind : ∀ queue : List SingleWritableSequence,
    queueCallbacks queue = (behind queue).map Prod.fst
  | [] => rfl
  | seq :: queue => by
    rw [queueCallbacks_cons, behind, queueCallbacks_eq_behind queue]
    simp [Function.comp_def]

/-- Callbacks stay where they are, with at most so many more bytes behind them. -/
def Shifts (n : Nat) (queue queue' : List SingleWritableSequence) : Prop :=
  ∀ e ∈ behind queue', ∃ m, (e.1, m) ∈ behind queue ∧ e.2 ≤ m + n

theorem Shifts.refl (queue : List SingleWritableSequence) : Shifts 0 queue queue :=
  fun e he => ⟨e.2, he, le_refl _⟩

theorem Shifts.trans {n n' : Nat} {queue queue' queue'' : List SingleWritableSequence} (h : Shifts n queue queue')
    (h' : Shifts n' queue' queue'') : Shifts (n + n') queue queue'' := by
  intro e he
  obtain ⟨m', hm', hle'⟩ := h' e he
  obtain ⟨m, hm, hle⟩ := h _ hm'
  exact ⟨m, hm, by omega⟩

theorem Shifts.of_eq {queue queue' : List SingleWritableSequence} (h : behind queue' = behind queue) :
    Shifts 0 queue queue' := fun e he => ⟨e.2, h ▸ he, le_refl _⟩

/-- Another back with the same callbacks. -/
theorem shifts_setBack {n : Nat} (queue : List SingleWritableSequence) {seq : SingleWritableSequence}
    (hcbs : seq.sendCompletionCbs = (back queue).sendCompletionCbs)
    (hbytes : seq.bytes.length = (back queue).bytes.length + n) :
    Shifts n queue (setBack seq queue) := by
  rcases List.eq_nil_or_concat queue with rfl | ⟨frozen, last, rfl⟩
  · intro e he
    simp [setBack, behind, hcbs, back] at he
  · rw [List.concat_eq_append, back_concat] at hcbs hbytes
    rw [List.concat_eq_append, setBack_concat]
    intro e he
    rw [behind_concat] at he ⊢
    rcases List.mem_append.1 he with he | he
    · obtain ⟨e₀, he₀, rfl⟩ := List.mem_map.1 he
      refine ⟨e₀.2 + last.bytes.length, List.mem_append_left _ (List.mem_map.2 ⟨e₀, he₀, rfl⟩), ?_⟩
      simp only [hbytes]
      omega
    · rw [hcbs] at he
      obtain ⟨id, hid, rfl⟩ := List.mem_map.1 he
      exact ⟨0, List.mem_append_right _ (List.mem_map.2 ⟨id, hid, rfl⟩), Nat.zero_le _⟩

/-- A new back. -/
theorem shifts_concat (queue : List SingleWritableSequence) (seq : SingleWritableSequence)
    (hcbs : seq.sendCompletionCbs = []) :
    Shifts seq.bytes.length queue (queue ++ [seq]) := by
  intro e he
  rw [behind_concat, hcbs, List.map_nil, List.append_nil] at he
  obtain ⟨e₀, he₀, rfl⟩ := List.mem_map.1 he
  exact ⟨e₀.2, he₀, le_refl _⟩

theorem shifts_append (env : ConnectionEnv) (buf : Bytes) (queue : List SingleWritableSequence) :
    Shifts buf.length queue (appendOutgoingBuffer env buf queue) := by
  have hconcat : Shifts 0 queue (setBack ((back queue).concatSmallBuffers concatenatedBufferMaxSize) queue) :=
    shifts_setBack queue (by simp) (by simp)
  have hnew : ∀ queue : List SingleWritableSequence,
      Shifts buf.length queue (queue ++ [SingleWritableSequence.empty.appendBuffer buf]) := by
    intro queue
    have h := shifts_concat queue (SingleWritableSequence.empty.appendBuffer buf) rfl
    rwa [SingleWritableSequence.bytes_appendBuffer, SingleWritableSequence.bytes_empty, List.nil_append] at h
  refine appendOutgoingBuffer_elim env buf queue ?room ?short ?compacted ?full
  case room => exact fun _ => shifts_setBack queue rfl (by simp)
  case short => exact fun _ _ => hnew queue
  case compacted =>
    exact fun _ _ _ => shifts_setBack queue (by simp [SingleWritableSequence.appendBuffer]) (by simp)
  case full =>
    intro _ _ _
    have h := hconcat.trans (hnew _)
    rwa [Nat.zero_add] at h

theorem behind_setFront (queue : List SingleWritableSequence) {seq : SingleWritableSequence}
    (h : seq.sendCompletionCbs = (front queue).sendCompletionCbs) : behind (setFront seq queue) = behind queue := by
  cases queue with
  | nil => simp [setFront, behind, h, front]
  | cons first queue =>
    rw [setFront, behind, behind, h]
    rfl

theorem behind_freezeFirst (queue : List SingleWritableSequence) : behind (freezeFirst queue) = behind queue := by
  unfold freezeFirst
  split
  · rw [behind_concat]
    simp
  · rfl

theorem behind_tail_freezeFirst (queue : List SingleWritableSequence) :
    behind (freezeFirst queue).tail = behind queue.tail := by
  unfold freezeFirst
  split
  · rename_i hone
    obtain ⟨seq, rfl⟩ := List.length_eq_one_iff.1 hone
    rfl
  · rfl

theorem shifts_tail (queue : List SingleWritableSequence) : Shifts 0 queue queue.tail := by
  intro e he
  refine ⟨e.2, ?_, le_refl _⟩
  cases queue with
  | nil => exact he
  | cons seq queue => exact List.mem_append_right _ he

/-- The callback of a group that was queued: nothing is behind it. -/
theorem behind_appendCompletionCb (id : Nat) (queue : List SingleWritableSequence) :
    ∀ e ∈ behind (setBack ((back queue).appendCompletionCb id) queue), e = (id, 0) ∨ e ∈ behind queue := by
  intro e he
  have hcbs : ∀ seq : SingleWritableSequence,
      (seq.appendCompletionCb id).sendCompletionCbs = seq.sendCompletionCbs ++ [id] :=
    fun _ => rfl
  rcases List.eq_nil_or_concat queue with rfl | ⟨frozen, last, rfl⟩
  · simpa [setBack, behind, back, hcbs] using he
  · rw [List.concat_eq_append, back_concat, setBack_concat, behind_concat, hcbs] at he
    rw [List.concat_eq_append, behind_concat]
    simp only [SingleWritableSequence.bytes_appendCompletionCb, List.map_append, List.map_cons, List.map_nil,
      List.mem_append, List.mem_singleton] at he ⊢
    rcases he with he | he | he
    · exact .inr (.inl he)
    · exact .inr (.inr he)
    · exact .inl he

/-! ## Steps -/

/-- What a step does to the callbacks in the queue: bytes that come behind one were pending, or are
accepted with the step. -/
def Queues (c c' : Connection) : Prop :=
  ∀ e ∈ behind (liveQueue c'), e.2 + (pendingBytes c'.stack).length = 0 ∨ ∃ m, (e.1, m) ∈ behind (liveQueue c) ∧
    e.2 + (pendingBytes c'.stack).length + (accepted c.log).length ≤
      m + (pendingBytes c.stack).length + (accepted c'.log).length

theorem queues_of_shifts {n : Nat} (bs : Bytes) (haccepted : accepted c'.log = accepted c.log ++ bs)
    (hshifts : Shifts n (liveQueue c) (liveQueue c'))
    (hpending : n + (pendingBytes c'.stack).length ≤ (pendingBytes c.stack).length + bs.length) : Queues c c' := by
  intro e he
  obtain ⟨m, hm, hle⟩ := hshifts e he
  refine .inr ⟨m, hm, ?_⟩
  rw [haccepted, List.length_append]
  omega

/-- A step that neither accepts bytes nor leaves any pending. -/
theorem queues_of_kept (haccepted : accepted c'.log = accepted c.log) (hshifts : Shifts 0 (liveQueue c) (liveQueue c'))
    (hpending : pendingBytes c'.stack = []) : Queues c c' := by
  refine queues_of_shifts [] (haccepted.trans (List.append_nil _).symm) hshifts ?_
  rw [hpending]
  simp

theorem pendingBytes_of_inactive {gs base : List Frame} (hgs : ∀ g ∈ gs, g.isActive = false)
    (hbase : ∀ g ∈ base, g.isActive = false) : pendingBytes (gs ++ base) = [] := by
  refine (doing_of_waiting fun g hg => ?_).2
  exact (List.mem_append.1 hg).elim (hgs g) (hbase g)

theorem Stands.inactive_below {f : Frame} (h : Stands (c.push f)) : ∀ g ∈ c.stack, g.isActive = false :=
  fun g hg => (h.base g hg).2

/-- A queue that is the same as far as callbacks are concerned, and so is what is behind its front. -/
theorem shifts_liveQueue (hpop : .popWritten ∈ c'.stack ↔ .popWritten ∈ c.stack)
    (hwhole : behind c'.writeQueue = behind c.writeQueue)
    (htail : behind c'.writeQueue.tail = behind c.writeQueue.tail) :
    Shifts 0 (liveQueue c) (liveQueue c') := by
  refine .of_eq ?_
  unfold liveQueue
  rw [if_congr hpop rfl rfl]
  split
  · exact htail
  · exact hwhole

theorem mem_popWritten_iff {f : Frame} (gs : List Frame) (hf : f ≠ .popWritten) (hgs : ∀ g ∈ gs, g ≠ .popWritten)
    (hstack : c'.stack = gs ++ c.stack) : .popWritten ∈ c'.stack ↔ .popWritten ∈ (c.push f).stack := by
  rw [hstack, List.mem_append]
  constructor
  · rintro (hmem | hmem)
    · exact absurd rfl (hgs _ hmem)
    · exact List.mem_cons_of_mem f hmem
  · intro hmem
    exact .inr ((List.mem_cons.1 hmem).resolve_left fun heq => hf heq.symm)

theorem Stands.notMem_popWritten (h : Stands (c.push .popWritten)) : .popWritten ∉ c.stack := by
  have hpush : .popWritten ∈ (c.push .popWritten).stack := List.mem_cons_self ..
  cases h with
  | idle core running async notPopping => exact absurd hpush notPopping
  | gather core running async notPopping => exact absurd hpush notPopping
  | writing core bufs running async notPopping => exact absurd hpush notPopping
  | failed entries core hasFailed lost async notPopping => exact absurd hpush notPopping
  | popping core async once =>
    rw [show (c.push .popWritten).stack = .popWritten :: c.stack from rfl, List.count_cons_self] at once
    exact List.count_eq_zero.1 (by omega)

/-- The end of a write: the callbacks of the front are no longer in the queue. -/
theorem afterWrite_queues (env : ConnectionEnv) (ec : Option ErrorCode) (c : Connection) (hpop : .popWritten ∉ c.stack)
    (hbelow : ∀ g ∈ c.stack, g.isActive = false) :
    accepted (afterWrite env ec c).log = accepted c.log ∧ Shifts 0 c.writeQueue (liveQueue (afterWrite env ec c)) ∧
      pendingBytes (afterWrite env ec c).stack = [] := by
  cases ec with
  | none =>
    refine ⟨(accepted_append ..).trans (List.append_nil _), ?_, rfl⟩
    have hlive : liveQueue (afterWrite env none c) = c.writeQueue.tail :=
      if_pos (List.mem_cons_of_mem _ (List.mem_cons_self ..))
    rw [hlive]
    exact shifts_tail c.writeQueue
  | some ec =>
    obtain ⟨gs, hfails⟩ := afterWrite_fails env ec c
    have hframes : ∀ g ∈ gs, g.isActive = false ∧ g ≠ .popWritten :=
      fun g hg => isActive_of_isBystander (hfails.frames.bystanders g hg)
    refine ⟨?_, ?_, ?_⟩
    · rw [hfails.log]
      exact (accepted_append ..).trans (List.append_nil _)
    · rw [liveQueue_of_notMem, afterWrite_queue]
      · exact .refl _
      · intro hmem
        rw [hfails.stack] at hmem
        rcases List.mem_append.1 hmem with hmem | hmem
        · exact (hframes _ hmem).2 rfl
        · exact hpop ((List.mem_cons.1 hmem).resolve_left (by simp))
    · rw [hfails.stack]
      refine pendingBytes_of_inactive (fun g hg => (hframes g hg).1) ?_
      exact List.forall_mem_cons.2 ⟨rfl, hbelow⟩

theorem syncWritten_queues {r : WriteResult} (h : Stands (c.push .syncWrite))
    (possible : r.PossibleSync (front c.writeQueue).totalSize) : Queues (c.push .syncWrite) (syncWritten env r c) := by
  have hpop : .popWritten ∉ c.stack := h.gathering.1.notPopping
  have hlive : liveQueue (c.push .syncWrite) = c.writeQueue := liveQueue_of_notMem (by simpa using hpop)
  have htaken : ∀ bs, accepted (c.log ++ [.taken bs]) = accepted c.log := accepted_taken c.log
  refine syncWritten_elim env possible ?completed ?blocked
  case completed =>
    intro _
    obtain ⟨haccepted, hshifts, hpending⟩ := afterWrite_queues env r.ec
      (({ c.emit (.taken ((front c.writeQueue).asioBufs.flatten.take r.transferred)) with
        writeQueue := freezeFirst c.writeQueue } : Connection).push (.incBytesTxSync r.transferred))
      (by simpa [emit] using hpop) (List.forall_mem_cons.2 ⟨rfl, h.inactive_below⟩)
    refine queues_of_kept (haccepted.trans (htaken _)) ?_ hpending
    rw [hlive]
    exact (Shifts.of_eq (behind_freezeFirst c.writeQueue)).trans hshifts
  case blocked =>
    intro _ _
    refine queues_of_kept (htaken _) ?_ h.doing_base.2
    rw [hlive]
    refine .of_eq ((congrArg behind (liveQueue_of_notMem ?_)).trans ((behind_freezeFirst _).trans ?_))
    · exact hpop
    · exact behind_setFront c.writeQueue rfl

/-- A group is accepted: its bytes are accepted and pending, so that none of them is behind a callback. -/
theorem scheduleSend_queues {s : SendCall} (hnil : c.stack = []) :
    Queues (c.push (.call (.send s))) (scheduleSend s c) := by
  have hlive : liveQueue (c.push (.call (.send s))) = c.writeQueue := liveQueue_of_notMem (by simp [push, hnil])
  have hrefused : accepted (c.log ++ [.refused c.groups s.cb]) = accepted c.log :=
    (accepted_append ..).trans (List.append_nil _)
  refine scheduleSend_elim s c ?accepted ?rejected ?ignored
  case accepted =>
    intro _
    refine queues_of_shifts (n := 0) s.bufs.flatten ?_ ?_ ?_
    · refine (accepted_append ..).trans (congrArg (accepted c.log ++ ·) ?_)
      simp [accepted, Event.acceptedBytes]
    · rw [hlive, liveQueue_of_notMem (by simp [push, emit, hnil])]
      exact .refl _
    · simp [push, emit, pendingBytes]
  case rejected =>
    intro _ _ _
    refine queues_of_kept hrefused ?_ rfl
    rw [hlive, liveQueue_of_notMem (by simp [push, emit, hnil])]
    exact .refl _
  case ignored =>
    intro _ _
    refine queues_of_kept hrefused ?_ (by simp [emit, hnil, pendingBytes])
    rw [hlive, liveQueue_of_notMem (by simp [emit, hnil])]
    exact .refl _

/-- A buffer of a group is queued, or its callback is once no buffer is left. -/
theorem append_queues {bufs : List Bytes} {beAggressive cb : Bool} {id : Nat} (hnil : c.stack = []) :
    Queues (c.push (.append bufs beAggressive id cb)) (append env bufs beAggressive id cb c) := by
  have hlive : liveQueue (c.push (.append bufs beAggressive id cb)) = c.writeQueue :=
    liveQueue_of_notMem (by simp [push, hnil])
  refine append_elim env bufs beAggressive id cb c ?delivered ?ended ?noted ?queued ?direct ?buffered
  case delivered =>
    rintro rfl rfl rfl
    refine queues_of_kept rfl ?_ rfl
    rw [hlive, liveQueue_of_notMem (by simp [push, hnil])]
    exact .refl _
  case ended =>
    rintro rfl rfl rfl
    refine queues_of_kept rfl ?_ (by simp [hnil, pendingBytes])
    rw [hlive]
    exact .of_eq (congrArg behind (liveQueue_of_notMem (by simp [hnil])))
  case noted =>
    -- the one step that puts a callback into the queue: it goes to the very back
    rintro rfl rfl rfl e he
    rw [liveQueue_of_notMem (by simp [push, hnil])] at he
    rcases behind_appendCompletionCb id c.writeQueue e he with rfl | hmem
    · exact .inl rfl
    · refine .inr ⟨e.2, ?_, le_refl _⟩
      rw [hlive]
      exact hmem
  case queued =>
    rintro rfl rfl rfl
    refine queues_of_kept rfl ?_ rfl
    rw [hlive]
    exact .of_eq (congrArg behind (liveQueue_of_notMem (by simp [push, hnil])))
  case direct =>
    rintro buf rest rfl - - -
    refine queues_of_shifts (n := 0) [] (List.append_nil _).symm ?_ (by simp [push, pendingBytes])
    rw [hlive, liveQueue_of_notMem (by simp [push, hnil])]
    exact .refl _
  case buffered =>
    -- the buffer comes behind the callbacks that wait, and is no longer pending
    rintro buf rest rfl -
    refine queues_of_shifts (n := buf.length) [] (List.append_nil _).symm ?_ (by simp [push, pendingBytes])
    rw [hlive, liveQueue_of_notMem (by simp [push, hnil])]
    exact shifts_append env buf c.writeQueue

/-- What a direct write leaves of its buffer is queued. -/
theorem aggressiveWritten_queues {buf : Bytes} {bufs : List Bytes} {id : Nat} {cb : Bool} {r : WriteResult}
    (hnil : c.stack = []) :
    Queues (c.push (.aggressiveWrite buf bufs id cb)) (aggressiveWritten env buf bufs id cb r c) := by
  have hlive : liveQueue (c.push (.aggressiveWrite buf bufs id cb)) = c.writeQueue :=
    liveQueue_of_notMem (by simp [push, hnil])
  have haccepted : ∀ bs,
      accepted (c.log ++ [.taken bs] ++ [.incBytesTxSync r.transferred]) = accepted c.log ++ [] := by
    intro bs
    simp [accepted, Event.acceptedBytes]
  refine aggressiveWritten_elim env buf bufs id cb r c ?whole ?partly
  case whole =>
    intro _
    refine queues_of_shifts (n := 0) [] (haccepted _) ?_ (by simp [push, pendingBytes])
    rw [hlive, liveQueue_of_notMem (by simp [push, emit, hnil])]
    exact .refl _
  case partly =>
    intro _
    have hrest : (if r.transferred ≠ 0 then buf.drop r.transferred else buf).length ≤ buf.length := by
      split
      · simp
      · exact le_refl _
    refine queues_of_shifts (n := buf.length) [] (haccepted _) ?_ (by simp [push, pendingBytes])
    rw [hlive, liveQueue_of_notMem (by simp [push, emit, hnil])]
    intro e he
    obtain ⟨m, hm, hle⟩ := shifts_append env _ c.writeQueue e he
    exact ⟨m, hm, hle.trans (Nat.add_le_add_left hrest m)⟩

/-- A write that starts changes what the front is gathered into, and freezes it when it is asynchronous. -/
theorem initiateWrite_queues (hbase : pendingBytes c.stack = []) :
    Queues (c.push .initiateWrite) (initiateWriteIfNecessary env c) := by
  have hseq : behind (setFront (front c.writeQueue).makeAsioBufs c.writeQueue) = behind c.writeQueue :=
    behind_setFront c.writeQueue rfl
  have hpopped : ∀ (gs : List Frame) (c' : Connection), (∀ g ∈ gs, g ≠ .popWritten) → c'.stack = gs ++ c.stack →
      (.popWritten ∈ c'.stack ↔ .popWritten ∈ (c.push .initiateWrite).stack) :=
    fun gs c' hgs hstack => mem_popWritten_iff gs (by simp) hgs hstack
  have hstarted : accepted (c.log ++ [.writeStarted c.popped]) = accepted c.log :=
    (accepted_append ..).trans (List.append_nil _)
  refine initiateWrite_elim env c ?running ?nothing ?sync ?async
  case running => exact fun _ => queues_of_kept rfl (shifts_liveQueue (hpopped [] _ (by simp) rfl) rfl rfl) hbase
  case nothing => exact fun _ _ => queues_of_kept rfl (shifts_liveQueue (hpopped [] _ (by simp) rfl) hseq rfl) hbase
  case sync =>
    intro _ _ _
    exact queues_of_kept hstarted (shifts_liveQueue (hpopped [.syncWrite] _ (by simp) rfl) hseq rfl) rfl
  case async =>
    intro _ _
    refine queues_of_kept hstarted (shifts_liveQueue (hpopped [] _ (by simp) rfl) ?_ ?_) hbase
    · exact (behind_freezeFirst _).trans hseq
    · exact behind_tail_freezeFirst _

theorem popWritten_queues (h : Stands (c.push .popWritten)) : Queues (c.push .popWritten) (popWritten c) := by
  have hnot := h.notMem_popWritten
  refine queues_of_kept ((accepted_append ..).trans (List.append_nil _)) ?_ rfl
  rw [liveQueue_of_notMem (c := popWritten c) (by simpa [popWritten, push, emit] using hnot)]
  exact .of_eq (congrArg behind (if_pos (List.mem_cons_self ..)).symm)

theorem resume_queues {f : Frame} {i : Input} (h : Stands (c.push f)) (hcalm : Calm (c.push f))
    (hstep : Resumes env c f i c') : Queues (c.push f) c' := by
  have hbase : pendingBytes c.stack = [] := h.doing_base.2
  cases hstep with
  | bystander isBystander still pushed =>
    have hgs : ∀ g : Frame, g ∈ _ → g.isActive = false ∧ g ≠ .popWritten := fun g hg => (pushed g hg).quiet
    refine queues_of_kept ?_ ?_ ?_
    · rw [still.same.log, accepted_append, (bytes_eq_nil still.same.inert).1, List.append_nil]
    · refine shifts_liveQueue ?_ (by rw [still.same.writeQueue]) (by rw [still.same.writeQueue])
      exact mem_popWritten_iff _ (isActive_of_isBystander isBystander).2 (fun g hg => (hgs g hg).2) still.stack
    · rw [still.stack]
      exact pendingBytes_of_inactive (fun g hg => (hgs g hg).1) h.inactive_below
  | send s => exact scheduleSend_queues (hcalm.notPopping rfl)
  | append bufs beAggressive id cb => exact append_queues (hcalm.notPopping rfl)
  | aggressiveWrite buf bufs id cb r possible => exact aggressiveWritten_queues (hcalm.notPopping rfl)
  | initiateWrite => exact initiateWrite_queues hbase
  | syncWrite r possible => exact syncWritten_queues h possible
  | called res id ids cs =>
    refine queues_of_kept ((accepted_append ..).trans (List.append_nil _)) ?_ rfl
    exact shifts_liveQueue (mem_popWritten_iff [.reaction cs, .runCallbacks res ids] (by simp) (by simp) rfl) rfl rfl
  | callbacksDone res =>
    exact queues_of_kept rfl (shifts_liveQueue (mem_popWritten_iff [] (by simp) (by simp) rfl) rfl rfl) hbase
  | popWritten => exact popWritten_queues h

/-- Every step but the end of the connection. -/
theorem step_queues {i : Input} (h : Stands c) (hcalm : Calm c) (hi : ∀ n, i ≠ .item (.destroy n))
    (hstep : step env c i = some c') : Queues c c' := by
  rcases step_cases hstep with ⟨item, rfl, hstack, -, hbegin⟩ | ⟨f, c₀, rfl, hresume⟩
  · cases hbegin with
    | call call => exact queues_of_kept rfl (shifts_liveQueue (by simp [push, hstack]) rfl rfl) (by cases call <;> rfl)
    | bystander still bystanders =>
      have hgs : ∀ g : Frame, g ∈ _ → g.isActive = false ∧ g ≠ .popWritten :=
        fun g hg => isActive_of_isBystander (bystanders g hg).1
      refine queues_of_kept ?_ (shifts_liveQueue ?_ ?_ ?_) ?_
      · rw [still.same.log, List.append_nil]
      · rw [still.stack, hstack, List.append_nil]
        exact iff_of_false (fun hmem => (hgs _ hmem).2 rfl) (List.not_mem_nil)
      · rw [still.same.writeQueue]
      · rw [still.same.writeQueue]
      · rw [still.stack, hstack]
        exact pendingBytes_of_inactive (fun g hg => (hgs g hg).1) (by simp)
    | asyncWrite bufs r inFlight possible =>
      obtain ⟨haccepted, hshifts, hpending⟩ := afterWrite_queues env r.ec
        ((({ c with asyncWrite := none } : Connection).emit (.taken (bufs.flatten.take r.transferred))).push
          (.incBytesTxAsync r.transferred)) (by simp [push, emit, hstack])
            (by simp [push, emit, hstack, Frame.isActive])
      refine queues_of_kept (haccepted.trans (accepted_taken ..)) ?_ hpending
      rw [liveQueue_of_notMem (c := c) (by simp [hstack])]
      exact hshifts
    | destroy n => exact absurd rfl (hi n)
  · exact resume_queues h hcalm hresume

/-- Where a frame with buffers comes from. -/
theorem step_append {i : Input} (hcalm : Calm c) (hi : i.callsNothing = true) (hstep : step env c i = some c') :
    (∀ bufs be id cb, .append bufs be id cb ∉ c'.stack) ∨
      ∃ f c₀, c = c₀.push f ∧ f.isSending = true ∧ Resumes env c₀ f i c' := by
  have hnone : (∀ g ∈ c'.stack, g.isSending = false) → ∀ bufs be id cb, .append bufs be id cb ∉ c'.stack := by
    intro hnone bufs be id cb hmem
    cases hnone _ hmem
  rcases step_cases hstep with ⟨item, rfl, hstack, -, hbegin⟩ | ⟨f, c₀, rfl, hresume⟩
  · refine .inl ?_
    cases hbegin with
    | call call => simp [push, hstack]
    | bystander still bystanders =>
      refine hnone fun g hg => Frame.isSending_of_isBystander ?_
      rw [still.stack, hstack, List.append_nil] at hg
      exact (bystanders g hg).1
    | asyncWrite bufs r inFlight possible =>
      obtain ⟨gs, hgs, hplace⟩ := afterWrite_stack env r.ec
        (({ c with asyncWrite := none }.emit (.taken (bufs.flatten.take r.transferred))).push
          (.incBytesTxAsync r.transferred)) (f := .syncWrite) (g := .incBytesTxAsync r.transferred) rfl rfl (by simp)
      refine hnone fun g hg => ?_
      have hstack' : (asyncWritten env bufs r c).stack = gs ++ [.incBytesTxAsync r.transferred] := by
        refine hgs.trans ?_
        show gs ++ .incBytesTxAsync r.transferred :: c.stack = _
        rw [hstack]
      rw [hstack'] at hg
      rcases hplace.sending with hnone | ⟨hf, -⟩
      · exact hnone g hg
      · cases hf
    | destroy n => simp [destroy_stack hstack n]
  · by_cases hf : f.isSending = true
    · exact .inr ⟨f, c₀, rfl, hf, hresume⟩
    · refine .inl (hnone fun g hg => ?_)
      obtain ⟨gs, hgs, hplace⟩ := resume_calm hcalm hi hresume
      rw [hgs] at hg
      rcases List.mem_append.1 hg with hg | hg
      · rcases hplace.sending with hnone | ⟨hsends, -⟩
        · exact hnone g hg
        · exact absurd hsends hf
      · exact hcalm.below g hg

/-- A group that is sent with a callback has a buffer. -/
def SendsBuffers (c : Connection) (_ : Input) : Prop :=
  match c.stack with
  | .call (.send s) :: _ => s.cb = true → s.bufs ≠ []
  | _ => True

def checkSendsBuffers (c : Connection) : Bool :=
  match c.stack with
  | .call (.send s) :: _ => s.cb = true → s.bufs ≠ []
  | _ => true

theorem checkSendsBuffers_iff (c : Connection) (i : Input) : checkSendsBuffers c = true ↔ SendsBuffers c i := by
  unfold checkSendsBuffers SendsBuffers
  split
  · exact decide_eq_true_iff
  · simp

instance (c : Connection) (i : Input) : Decidable (SendsBuffers c i) :=
  decidable_of_iff (checkSendsBuffers c = true) (checkSendsBuffers_iff c i)

/-- Where all buffers of a group were written directly, there is no write under way. -/
theorem step_direct {i : Input} (h : Stands c) (hcalm : Calm c) (hi : i.callsNothing = true) (hbufs : SendsBuffers c i)
    (hstep : step env c i = some c') :
    ∀ id, .append [] true id true ∈ c'.stack → c'.isWriteOperationRunning = false := by
  intro id
  rcases step_append hcalm hi hstep with hnone | ⟨f, c₀, rfl, hf, hresume⟩
  · exact fun hmem => absurd hmem (hnone [] true id true)
  have hnil : c₀.stack = [] := hcalm.notPopping hf
  cases hresume with
  | send s =>
    refine scheduleSend_elim s c₀ ?accepted ?rejected ?ignored
    case accepted =>
      intro _ hmem
      rw [push, emit, hnil] at hmem
      obtain ⟨hnone, -, -, hcb⟩ := Frame.append.inj (List.mem_singleton.1 hmem)
      exact absurd hnone.symm (hbufs hcb.symm)
    case rejected => simp [push, emit, hnil]
    case ignored => simp [emit, hnil]
  | append bufs be id' cb =>
    refine append_elim env bufs be id' cb c₀ ?delivered ?ended ?noted ?queued ?direct ?buffered
    all_goals simp [push, hnil]
  | aggressiveWrite buf bufs id' cb r possible =>
    have hrunning : c₀.isWriteOperationRunning = false := by
      cases h with
      | idle core running => exact running
      | gather core running => exact running
      | writing core bufs' running async notPopping queue noWrite => exact absurd rfl noWrite.1
      | popping core async once => simp [push, hnil] at once
      | failed entries core hasFailed lost async notPopping queue bytes noWrite => exact absurd rfl noWrite.1
    refine aggressiveWritten_elim env buf bufs id' cb r c₀ ?whole ?partly
    · exact fun _ _ => hrunning
    · exact fun _ _ => hrunning
  | bystander isBystander still pushed =>
    rw [Frame.isSending_of_isBystander isBystander] at hf
    cases hf
  | _ => cases hf

/-! ## The groups in the order they were accepted in -/

/-- Groups are accepted in the order of their numbers. -/
structure AcceptsInOrder (c : Connection) : Prop where
  order : (acceptedIds c.log).Pairwise (· < ·)
  fresh : ∀ id ∈ acceptedIds c.log, id < c.groups

/-- What a step does to the groups that were accepted. -/
theorem LedgerStep.accepts {p : SendBuffersResult → Bool} (h : LedgerStep p c c') :
    acceptedIds c'.log = acceptedIds c.log ∧ c.groups ≤ c'.groups ∨
      acceptedIds c'.log = acceptedIds c.log ++ [c.groups] ∧ c'.groups = c.groups + 1 := by
  cases h with
  | kept scheduled accepted groups => exact .inl ⟨accepted, groups.ge⟩
  | accepted ids new groups scheduled accepted => exact .inr ⟨accepted, groups⟩
  | refused ids new groups scheduled accepted => exact .inl ⟨accepted, by omega⟩
  | direct id stack scheduled accepted groups => exact .inl ⟨accepted, groups.ge⟩

theorem AcceptsInOrder.next {p : SendBuffersResult → Bool} (h : AcceptsInOrder c) (hstep : LedgerStep p c c') :
    AcceptsInOrder c' := by
  rcases hstep.accepts with ⟨haccepted, hgroups⟩ | ⟨haccepted, hgroups⟩
  · refine ⟨haccepted ▸ h.order, fun id hid => ?_⟩
    rw [haccepted] at hid
    exact (h.fresh id hid).trans_le hgroups
  · refine ⟨?_, fun id hid => ?_⟩
    · rw [haccepted]
      refine List.pairwise_append.2 ⟨h.order, List.pairwise_singleton .., ?_⟩
      intro id hid new hnew
      rw [List.mem_singleton.1 hnew]
      exact h.fresh id hid
    · rw [haccepted] at hid
      rcases List.mem_append.1 hid with hid | hid
      · have := h.fresh id hid
        omega
      · rw [List.mem_singleton.1 hid, hgroups]
        exact Nat.lt_succ_self _

/-- The bytes up to an accepted group stay what they are. -/
theorem AcceptsInOrder.stays {p : SendBuffersResult → Bool} (h : AcceptsInOrder c) (hstep : LedgerStep p c c')
    {evs : List Event} (hlog : c'.log = c.log ++ evs) {id : Nat} (hid : id ∈ acceptedIds c.log) :
    acceptedBefore (id + 1) c'.log = acceptedBefore (id + 1) c.log := by
  have hnew : ∀ new ∈ acceptedIds evs, new = c.groups := by
    intro new hnew
    have happend : acceptedIds c'.log = acceptedIds c.log ++ acceptedIds evs := by rw [hlog, acceptedIds_append]
    rcases hstep.accepts with ⟨haccepted, -⟩ | ⟨haccepted, -⟩
    · have hnil := List.append_cancel_left ((List.append_nil _).trans (haccepted.symm.trans happend))
      rw [← hnil] at hnew
      cases hnew
    · rw [← List.append_cancel_left (haccepted.symm.trans happend)] at hnew
      exact List.mem_singleton.1 hnew
  have hnil : acceptedBefore (id + 1) evs = [] := by
    refine acceptedOf_eq_nil fun new hmem => ?_
    have hlt := h.fresh id hid
    rw [hnew new hmem]
    exact decide_eq_false (by omega)
  exact hlog ▸ (acceptedOf_append ..).trans ((congrArg _ hnil).trans (List.append_nil _))

/-! ## Successes -/

def isSuccess : SendBuffersResult → Bool
  | .success => true
  | _ => false

/-- When a callback is told of a success, its group was accepted before, and all bytes up to the end of
the group were taken. -/
def SuccessesTrue (log : List Event) : Prop :=
  ∀ before id after, log = before ++ .called id .success :: after →
    id ∈ acceptedIds before ∧ acceptedBefore (id + 1) before <+: taken before

/-- Where the groups are whose callbacks have not been called. -/
structure Tracked (c : Connection) : Prop where
  calm : Calm c
  stands : Stands c
  wait : CallbacksWait c
  accepts : AcceptsInOrder c
  inOrder : (ledger isSuccess c).Sublist (acceptedIds c.log)
  direct : ∀ id, .append [] true id true ∈ c.stack → c.isWriteOperationRunning = false
  queued : ∀ e ∈ behind (liveQueue c),
    (acceptedBefore (e.1 + 1) c.log).length + e.2 + (pendingBytes c.stack).length ≤ (accepted c.log).length
  due : ∀ ids, .runCallbacks .success ids ∈ c.stack → ∀ id ∈ ids,
    (acceptedBefore (id + 1) c.log).length ≤ (taken c.log).length
  told : SuccessesTrue c.log

/-- The connection is gone, and what it told was true. -/
structure ToldTrue (c : Connection) : Prop where
  destroyed : c.destroyed = true
  stack : c.stack = []
  order : (acceptedIds c.log).Pairwise (· < ·)
  inOrder : (calledIds isSuccess c.log).Sublist (acceptedIds c.log)
  told : SuccessesTrue c.log

/-- Where an entry of a log that was extended stands. -/
theorem split_append {log evs before after : List Event} {ev : Event} (h : log ++ evs = before ++ ev :: after) :
    (∃ rest, log = before ++ ev :: rest) ∨ ∃ more, before = log ++ more ∧ evs = more ++ ev :: after := by
  rcases List.append_eq_append_iff.1 h with ⟨more, hbefore, hevs⟩ | ⟨more, hlog, hevs⟩
  · exact .inr ⟨more, hbefore, hevs⟩
  · cases more with
    | nil => exact .inr ⟨[], by simpa using hlog.symm, hevs.symm⟩
    | cons ev' more =>
      obtain ⟨rfl, -⟩ := List.cons.inj hevs
      exact .inl ⟨more, hlog⟩

theorem SuccessesTrue.append {log evs : List Event} (h : SuccessesTrue log) (hevs : ∀ id, .called id .success ∉ evs) :
    SuccessesTrue (log ++ evs) := by
  intro before id after heq
  rcases split_append heq with ⟨rest, hlog⟩ | ⟨more, -, hmore⟩
  · exact h before id rest hlog
  · rw [hmore] at hevs
    exact absurd (List.mem_append_right more (List.mem_cons_self ..)) (hevs id)

theorem SuccessesTrue.concat {log : List Event} (h : SuccessesTrue log) {id : Nat} (hid : id ∈ acceptedIds log)
    (htaken : acceptedBefore (id + 1) log <+: taken log) : SuccessesTrue (log ++ [.called id .success]) := by
  intro before id' after heq
  rcases split_append heq with ⟨rest, hlog⟩ | ⟨more, hbefore, hmore⟩
  · exact h before id' rest hlog
  · cases more with
    | nil =>
      obtain ⟨hcalled, -⟩ := List.cons.inj hmore
      obtain ⟨rfl, -⟩ := Event.called.inj hcalled
      rw [hbefore, List.append_nil]
      exact ⟨hid, htaken⟩
    | cons ev more => simp at hmore

/-- The callbacks that were or are to be told of a success, and the ones in the queue, were accepted. -/
theorem Tracked.mem_accepted (h : Tracked c) {id : Nat} (hid : id ∈ ledger isSuccess c) : id ∈ acceptedIds c.log :=
  h.inOrder.subset hid

theorem mem_ledger_of_queue {p : SendBuffersResult → Bool} {id n : Nat} (h : (id, n) ∈ behind (liveQueue c)) :
    id ∈ ledger p c := by
  refine List.mem_append_left _ (List.mem_append_right _ ?_)
  rw [queueCallbacks_eq_behind]
  exact List.mem_map.2 ⟨_, h, rfl⟩

theorem mem_ledger_of_due {ids : List Nat} {id : Nat} (hmem : .runCallbacks .success ids ∈ c.stack) (hid : id ∈ ids) :
    id ∈ ledger isSuccess c := by
  refine List.mem_append_left _ (List.mem_append_left _ (List.mem_append_right _ ?_))
  exact List.mem_flatMap.2 ⟨_, hmem, hid⟩

theorem length_taken_le {evs : List Event} (hlog : c'.log = c.log ++ evs) :
    (taken c.log).length ≤ (taken c'.log).length := by
  rw [hlog, taken_append, List.length_append]
  exact Nat.le_add_right _ _

/-- Where all buffers of a group were written directly, everything accepted was taken, and no callback
waits in the queue. -/
theorem Tracked.whole_of_direct (h : Tracked c) {id : Nat} (hstack : c.stack = [.append [] true id true]) :
    queueCallbacks c.writeQueue = [] ∧ taken c.log = accepted c.log := by
  have hrunning := h.direct id (by rw [hstack]; exact List.mem_cons_self ..)
  have hstands := h.stands
  cases hstands with
  | idle core running async notPopping queue notGather clear bytes =>
    have hclear := clear (by rw [hstack]; exact .inr (.inl rfl))
    rw [hclear.queueBytes, hstack] at bytes
    refine ⟨?_, by simpa [pendingBytes] using bytes⟩
    obtain ⟨seq, hseq, hnil⟩ := hclear
    rw [hseq, queueCallbacks_cons, h.wait.owned seq (by rw [hseq]; exact List.mem_cons_self ..) hnil]
    rfl
  | gather core running async notPopping queue gathers =>
    rw [hstack] at gathers
    cases gathers
  | writing core bufs running =>
    rw [running] at hrunning
    cases hrunning
  | popping core async once =>
    rw [hstack] at once
    cases once
  | failed entries core hasFailed lost async notPopping queue bytes noWrite silent =>
    have hnothing := (silent hrunning).2
    rw [hstack] at hnothing
    cases hnothing

/-- The callbacks of successes stay in the order of their groups. -/
theorem Tracked.next_inOrder (h : Tracked c) (hstep : LedgerStep isSuccess c c') :
    (ledger isSuccess c').Sublist (acceptedIds c'.log) := by
  cases hstep with
  | kept scheduled accepted groups ledger =>
    rw [ledger, accepted]
    exact h.inOrder
  | accepted ids new groups scheduled accepted ledger =>
    rw [ledger, accepted]
    refine h.inOrder.append ?_
    rcases new with rfl | rfl
    · exact List.nil_sublist _
    · exact List.Sublist.refl _
  | refused ids new groups scheduled accepted told silent =>
    rw [silent rfl, accepted]
    exact h.inOrder
  | direct id stack scheduled accepted groups perm first =>
    rw [first (h.whole_of_direct stack).1, accepted]
    exact h.inOrder

theorem Tracked.next_queued (h : Tracked c) {evs : List Event} (hlog : c'.log = c.log ++ evs)
    (hledger : LedgerStep isSuccess c c') (hqueues : Queues c c') (haccepts : AcceptsInOrder c') :
    ∀ e ∈ behind (liveQueue c'),
      (acceptedBefore (e.1 + 1) c'.log).length + e.2 + (pendingBytes c'.stack).length ≤ (accepted c'.log).length := by
  intro e he
  rcases hqueues e he with hnew | ⟨m, hm, hle⟩
  · have hprefix := (acceptedBefore_isPrefix (e.1 + 1) haccepts.order).length_le
    omega
  · have hbound :
        (acceptedBefore (e.1 + 1) c.log).length + m + (pendingBytes c.stack).length ≤ (accepted c.log).length :=
      h.queued (e.1, m) hm
    have hid : e.1 ∈ acceptedIds c.log := h.mem_accepted (mem_ledger_of_queue hm)
    rw [h.accepts.stays hledger hlog hid]
    omega

theorem mem_behind_front {queue : List SingleWritableSequence} {id : Nat} (h : id ∈ (front queue).sendCompletionCbs) :
    (id, (queueBytes queue.tail).length) ∈ behind queue := by
  cases queue with
  | nil => cases h
  | cons seq queue => exact List.mem_append_left _ (List.mem_map.2 ⟨id, h, rfl⟩)

/-- While callbacks run, no group is sent. -/
theorem Calm.pendingBytes_eq_nil (h : Calm c) (hpop : .popWritten ∈ c.stack) : pendingBytes c.stack = [] := by
  cases hstack : c.stack with
  | nil => rfl
  | cons f fs =>
    have halone : f.isSending = true → f = .popWritten := by
      intro hf
      rw [h.alone f (by rw [hstack]; exact List.mem_cons_self ..) hf] at hpop
      exact (List.mem_singleton.1 hpop).symm
    cases f with
    | append bufs be id cb => cases halone rfl
    | aggressiveWrite buf bufs id cb => cases halone rfl
    | _ => rfl

theorem Tracked.next_due (h : Tracked c) {evs : List Event} (hreports : Reports c c' evs)
    (hledger : LedgerStep isSuccess c c') (hcalm : Calm c') (hstands : Stands c') :
    ∀ ids, .runCallbacks .success ids ∈ c'.stack → ∀ id ∈ ids,
      (acceptedBefore (id + 1) c'.log).length ≤ (taken c'.log).length := by
  intro ids hmem id hid
  rcases hreports.frames _ _ hmem with ⟨ids', hmem', hsub⟩ | hnew
  · -- due before: no byte that was taken is lost again
    have hold := h.due ids' hmem' id (hsub hid)
    have hid : id ∈ acceptedIds c.log := h.mem_accepted (mem_ledger_of_due hmem' (hsub hid))
    rw [h.accepts.stays hledger hreports.log hid]
    exact hold.trans (length_taken_le hreports.log)
  cases hnew with
  | direct id' hstack queue running =>
    have hwhole := (h.whole_of_direct (h.calm.alone _ hstack rfl)).2
    rw [hreports.log, List.append_nil, hwhole]
    exact (acceptedBefore_isPrefix _ h.accepts.order).length_le
  | written _ quiet popping hbehind =>
    -- the front of the queue was written: what is accepted behind it is what was not taken
    have hnotPopping : .popWritten ∉ c.stack := by
      rcases quiet with hsync | hnil
      · cases hstack : c.stack with
        | nil => simp
        | cons f fs =>
          rw [hstack] at hsync
          obtain rfl := Option.some.inj hsync
          have hstands := h.stands
          rw [show c = ({ c with stack := fs } : Connection).push .syncWrite by rw [push, ← hstack]] at hstands
          have hnot : .popWritten ∉ fs := hstands.gathering.1.notPopping
          simp [hnot]
      · simp [hnil]
    have hentry : (id, (queueBytes c.writeQueue.tail).length) ∈ behind (liveQueue c) := by
      rw [liveQueue_of_notMem hnotPopping]
      exact mem_behind_front hid
    have hbound : (acceptedBefore (id + 1) c.log).length + (queueBytes c.writeQueue.tail).length +
        (pendingBytes c.stack).length ≤ (accepted c.log).length :=
          h.queued (id, (queueBytes c.writeQueue.tail).length) hentry
    have hgrows : (accepted c.log).length ≤ (accepted c'.log).length := by
      rw [hreports.log, accepted_append, List.length_append]
      exact Nat.le_add_right _ _
    have hid : id ∈ acceptedIds c.log := h.mem_accepted (mem_ledger_of_queue hentry)
    rw [h.accepts.stays hledger hreports.log hid]
    cases hstands with
    | popping core async once queue bytes =>
      have hlength := congrArg List.length bytes
      rw [List.length_append, List.length_append, hcalm.pendingBytes_eq_nil popping, hbehind] at hlength
      simp only [List.length_nil] at hlength
      omega
    | idle core running async notPopping => exact absurd popping notPopping
    | gather core running async notPopping => exact absurd popping notPopping
    | writing core bufs running async notPopping => exact absurd popping notPopping
    | failed entries core hasFailed lost async notPopping => exact absurd popping notPopping

theorem Tracked.next_told (h : Tracked c) {evs : List Event} (hreports : Reports c c' evs) : SuccessesTrue c'.log := by
  rw [hreports.log]
  by_cases hcalled : ∃ id, .called id .success ∈ evs
  · obtain ⟨id, hmem⟩ := hcalled
    obtain ⟨rfl, ids, base, hstack⟩ := hreports.called id _ hmem
    have hframe : .runCallbacks .success (id :: ids) ∈ c.stack := by
      rw [hstack]
      exact List.mem_cons_self ..
    have hid : id ∈ acceptedIds c.log := h.mem_accepted (mem_ledger_of_due hframe (List.mem_cons_self ..))
    refine h.told.concat hid ?_
    -- both are prefixes of what was accepted
    exact List.prefix_of_prefix_length_le (acceptedBefore_isPrefix _ h.accepts.order) h.stands.intact.order
      (h.due _ hframe id (List.mem_cons_self ..))
  · exact h.told.append fun id hmem => hcalled ⟨id, hmem⟩

/-- What was called back with success never depends on how often a failure was. -/
theorem step_successLedger {i : Input} (h : Calm c) (hstands : Stands c) (hi : i.callsNothing = true)
    (hdestroy : ∀ n, i ≠ .item (.destroy n)) (hstep : step env c i = some c') : LedgerStep isSuccess c c' := by
  rcases step_ledger (p := isSuccess) rfl h hstands hi (by simp [isSuccess]) hstep with hledger | ⟨n, hn, -⟩
  · exact hledger
  · exact absurd hn (hdestroy n)

theorem Tracked.next {i : Input} (h : Tracked c) (hi : i.callsNothing = true) (hbufs : SendsBuffers c i)
    (hdestroy : ∀ n, i ≠ .item (.destroy n)) (hstep : step env c i = some c') : Tracked c' := by
  have hcalm := step_calm h.calm hi hstep
  have hstands := step_stands h.stands (h.calm.overtakesNothing i) hdestroy hstep
  obtain ⟨evs, hreports⟩ := step_reports hdestroy hstep
  have hledger := step_successLedger h.calm h.stands hi hdestroy hstep
  have haccepts := h.accepts.next hledger
  exact {
    calm := hcalm
    stands := hstands
    wait := step_callbacksWait h.wait h.calm hstep hdestroy
    accepts := haccepts
    inOrder := h.next_inOrder hledger
    direct := step_direct h.stands h.calm hi hbufs hstep
    queued := h.next_queued hreports.log hledger (step_queues h.stands h.calm hdestroy hstep) haccepts
    due := h.next_due hreports hledger hcalm hstands
    told := h.next_told hreports }

theorem step_tracked {i : Input} (h : Tracked c ∨ ToldTrue c) (hi : i.callsNothing = true ∧ SendsBuffers c i)
    (hstep : step env c i = some c') : Tracked c' ∨ ToldTrue c' := by
  rcases h with h | h
  · by_cases hdestroy : ∃ n, i = .item (.destroy n)
    · obtain ⟨n, rfl⟩ := hdestroy
      obtain ⟨hstack, -, rfl⟩ := step_destroy hstep
      obtain ⟨evs, hlog, hevs⟩ := destroy_log n c
      have hnone : acceptedIds evs = [] ∧ calledIds isSuccess evs = [] ∧ ∀ id, .called id .success ∉ evs := by
        refine ⟨?_, ?_, ?_⟩
        · refine List.filterMap_eq_nil_iff.2 fun ev hev => ?_
          rcases hevs ev hev with ⟨bs, rfl⟩ | ⟨id, rfl⟩ | ⟨id, -, rfl⟩ <;> rfl
        · refine List.filterMap_eq_nil_iff.2 fun ev hev => ?_
          rcases hevs ev hev with ⟨bs, rfl⟩ | ⟨id, rfl⟩ | ⟨id, -, rfl⟩ <;> rfl
        · intro id hmem
          rcases hevs _ hmem with ⟨bs, heq⟩ | ⟨id', heq⟩ | ⟨id', -, heq⟩ <;> cases heq
      obtain ⟨haccepted, hcalled, hsuccess⟩ := hnone
      refine .inr ⟨rfl, destroy_stack hstack n, ?_, ?_, ?_⟩
      · rw [hlog, acceptedIds_append, haccepted, List.append_nil]
        exact h.accepts.order
      · rw [hlog, acceptedIds_append, haccepted, calledIds_append, hcalled, List.append_nil, List.append_nil]
        refine List.Sublist.trans ?_ h.inOrder
        unfold ledger
        rw [List.append_assoc, List.append_assoc]
        exact List.sublist_append_left _ _
      · rw [hlog]
        exact h.told.append hsuccess
    · exact .inl (h.next hi.1 hi.2 (fun n hn => hdestroy ⟨n, hn⟩) hstep)
  · rcases step_cases hstep with ⟨item, rfl, -, halive, -⟩ | ⟨f, c₀, rfl, -⟩
    · rw [h.destroyed] at halive
      cases halive
    · cases h.stack

theorem tracked_init : Tracked {} where
  calm := calm_init
  stands := stands_init
  wait := accounted_init.wait
  accepts := ⟨List.Pairwise.nil, by simp [acceptedIds]⟩
  inOrder := List.Sublist.refl _
  direct := by simp
  queued := by simp [liveQueue, behind]
  due := by simp
  told := fun before id after heq => by simp at heq

/-- In every run in which no callback calls back and every group sent with a callback has a buffer:
callbacks are told of successes in the order the groups were accepted in, and at that time the socket
has taken all bytes of the group and of the groups before it. -/
theorem successes_true (env : ConnectionEnv) (inputs : List Input) (c : Connection)
    (hinputs : ∀ i ∈ inputs, i.callsNothing = true) (hbufs : Along (step env) SendsBuffers {} inputs)
    (hrun : execute (step env) {} inputs = some c) :
    SuccessesTrue c.log ∧ (calledIds isSuccess c.log).Sublist (acceptedIds c.log) ∧
      (acceptedIds c.log).Pairwise (· < ·) := by
  have h := execute_invariant (fun _ _ _ h hi hstep => step_tracked h hi hstep) inputs (.inl tracked_init)
    ((Along.of_forall hinputs).and hbufs) hrun
  rcases h with h | h
  · refine ⟨h.told, List.Sublist.trans ?_ h.inOrder, h.accepts.order⟩
    unfold ledger
    rw [List.append_assoc, List.append_assoc]
    exact List.sublist_append_left _ _
  · exact ⟨h.told, h.inOrder, h.order⟩

/-- The first buffer goes out directly, half of the second too, and the rest by a gather write. -/
theorem successes_true_two : ∃ c,
    execute (step ⟨64, 64, by decide, false, false⟩) {}
      [.item (.call (.send { bufs := [[1], [2, 3]], cb := true })), .none, .none, .result ⟨none, 1⟩, .none,
        .result ⟨some .wouldBlock, 1⟩, .none, .none, .result ⟨none, 1⟩, .calls []] = some c ∧
      calledIds isSuccess c.log = [0] ∧ SuccessesTrue c.log ∧
      (calledIds isSuccess c.log).Sublist (acceptedIds c.log) := by
  obtain ⟨c, hc, hcalled⟩ := exists_execute (step ⟨64, 64, by decide, false, false⟩) {}
    [.item (.call (.send { bufs := [[1], [2, 3]], cb := true })), .none, .none, .result ⟨none, 1⟩, .none,
      .result ⟨some .wouldBlock, 1⟩, .none, .none, .result ⟨none, 1⟩, .calls []]
    (fun c => calledIds isSuccess c.log = [0]) (by decide +kernel)
  obtain ⟨htold, horder, -⟩ := successes_true _ _ c (by decide) (by decide +kernel) hc
  exact ⟨c, hc, hcalled, htold, horder⟩

end Connection

end Opio.Net
