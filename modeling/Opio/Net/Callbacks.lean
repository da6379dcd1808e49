/-
The callbacks of the groups, in the order of the groups: the ones that were called, the ones about
to be called, the ones in the queue and the one of the group at hand. What a step does to them.
-/
import Opio.Net.CalmRuns

namespace Opio.Net

/-- The callbacks the frame is to call with one of these results. -/
def Frame.dueIds (p : SendBuffersResult → Bool) : Frame → List Nat
  | .runCallbacks res ids => if p res then ids else []
  | _ => []

/-- The callback of the group the frame sends. -/
def Frame.groupIds : Frame → List Nat
  | .append _ _ id cb => if cb then [id] else []
  | .aggressiveWrite _ _ id cb => if cb then [id] else []
  | _ => []

theorem dueIds_of_isReporting {f : Frame} (h : f.isReporting = false) (p : SendBuffersResult → Bool) :
    f.dueIds p = [] := by
  cases f <;> first | rfl | cases h

theorem groupIds_of_isSending {f : Frame} (h : f.isSending = false) : f.groupIds = [] := by
  cases f <;> first | rfl | cases h

namespace Connection

variable {env : ConnectionEnv} {c c' : Connection} {p : SendBuffersResult → Bool}

/-! ## The queue -/

def queueCallbacks (queue : List SingleWritableSequence) : List Nat :=
  queue.flatMap SingleWritableSequence.sendCompletionCbs

@[simp] theorem queueCallbacks_nil : queueCallbacks [] = [] := rfl

@[simp] theorem queueCallbacks_cons (seq : SingleWritableSequence) (queue : List SingleWritableSequence) :
    queueCallbacks (seq :: queue) = seq.sendCompletionCbs ++ queueCallbacks queue := List.flatMap_cons

@[simp] theorem queueCallbacks_append (queue queue' : List SingleWritableSequence) :
    queueCallbacks (queue ++ queue') = queueCallbacks queue ++ queueCallbacks queue' := List.flatMap_append

theorem queueCallbacks_setBack (queue : List SingleWritableSequence) (seq : SingleWritableSequence) (ids : List Nat)
    (h : seq.sendCompletionCbs = (back queue).sendCompletionCbs ++ ids) :
    queueCallbacks (setBack seq queue) = queueCallbacks queue ++ ids := by
  rcases List.eq_nil_or_concat queue with rfl | ⟨frozen, last, rfl⟩
  · simpa [setBack, back] using h
  · rw [List.concat_eq_append, back_concat] at h
    rw [List.concat_eq_append, setBack_concat]
    simp [h]

theorem queueCallbacks_setFront (queue : List SingleWritableSequence) (seq : SingleWritableSequence)
    (h : seq.sendCompletionCbs = (front queue).sendCompletionCbs) :
    queueCallbacks (setFront seq queue) = queueCallbacks queue := by
  cases queue with
  | nil => simpa [setFront, front] using h
  | cons first rest => simpa [setFront, front] using h

theorem queueCallbacks_appendOutgoingBuffer (env : ConnectionEnv) (buf : Bytes) (queue : List SingleWritableSequence) :
    queueCallbacks (appendOutgoingBuffer env buf queue) = queueCallbacks queue := by
  have hsame : ∀ seq : SingleWritableSequence, seq.sendCompletionCbs = (back queue).sendCompletionCbs →
      queueCallbacks (setBack seq queue) = queueCallbacks queue := by
    intro seq hseq
    have hback := queueCallbacks_setBack queue seq [] (by rw [hseq, List.append_nil])
    rw [hback, List.append_nil]
  have hconcat : ((back queue).concatSmallBuffers concatenatedBufferMaxSize).sendCompletionCbs =
      (back queue).sendCompletionCbs := by simp
  refine appendOutgoingBuffer_elim env buf queue ?room ?short ?compacted ?full
  case room => exact fun _ => hsame _ rfl
  case short =>
    intro _ _
    simp [SingleWritableSequence.appendBuffer]
  case compacted => exact fun _ _ _ => hsame _ hconcat
  case full =>
    intro _ _ _
    rw [queueCallbacks_append, hsame _ hconcat]
    simp [SingleWritableSequence.appendBuffer]

/-- The front is frozen with its callbacks, and a new back has none. -/
theorem queueCallbacks_freezeFirst (queue : List SingleWritableSequence) :
    queueCallbacks (freezeFirst queue) = queueCallbacks queue ∧
      queueCallbacks (freezeFirst queue).tail = queueCallbacks queue.tail := by
  unfold freezeFirst
  split
  · rename_i hone
    obtain ⟨seq, rfl⟩ := List.length_eq_one_iff.1 hone
    exact ⟨by simp, by simp⟩
  · exact ⟨rfl, rfl⟩

theorem queueCallbacks_front (queue : List SingleWritableSequence) :
    queueCallbacks queue = (front queue).sendCompletionCbs ++ queueCallbacks queue.tail := by
  cases queue <;> rfl

/-! ## The callbacks of the groups -/

/-- The queue without a front that was written. -/
def liveQueue (c : Connection) : List SingleWritableSequence :=
  if .popWritten ∈ c.stack then c.writeQueue.tail else c.writeQueue

/-- The callbacks that were or are to be called with one of these results, that wait in the queue, and
of the group at hand. -/
def ledger (p : SendBuffersResult → Bool) (c : Connection) : List Nat :=
  calledIds p c.log ++ c.stack.flatMap (Frame.dueIds p) ++ queueCallbacks (liveQueue c) ++
    c.stack.flatMap Frame.groupIds

/-- Where no callbacks are to be called below the frames `gs`, and no group is sent. -/
theorem ledger_of_stack {gs base : List Frame} (hstack : c.stack = gs ++ base)
    (hreports : ∀ g ∈ base, g.isReporting = false) (hsending : ∀ g ∈ base, g.isSending = false) :
    ledger p c = calledIds p c.log ++ gs.flatMap (Frame.dueIds p) ++ queueCallbacks (liveQueue c) ++
      gs.flatMap Frame.groupIds := by
  have hdue : base.flatMap (Frame.dueIds p) = [] :=
    List.flatMap_eq_nil_iff.2 fun g hg => dueIds_of_isReporting (hreports g hg) p
  have hgroup : base.flatMap Frame.groupIds = [] :=
    List.flatMap_eq_nil_iff.2 fun g hg => groupIds_of_isSending (hsending g hg)
  rw [ledger, hstack, List.flatMap_append, List.flatMap_append, hdue, hgroup, List.append_nil, List.append_nil]

theorem liveQueue_of_notMem (h : .popWritten ∉ c.stack) : liveQueue c = c.writeQueue := if_neg h

theorem ledger_of_notMem (h : .popWritten ∉ c.stack) :
    ledger p c = calledIds p c.log ++ c.stack.flatMap (Frame.dueIds p) ++ queueCallbacks c.writeQueue ++
      c.stack.flatMap Frame.groupIds := by
  rw [ledger, liveQueue_of_notMem h]

/-- The failing writes have no callbacks, and no direct call with a callback is refused. -/
def CallsBackOnce (c : Connection) (i : Input) : Prop :=
  match c.stack, i with
  | .syncWrite :: _, .result r => r.ec = none ∨ r.ec = some .wouldBlock ∨ (front c.writeQueue).sendCompletionCbs = []
  | [], .item (.asyncWriteDone r) => r.ec = none ∨ (front c.writeQueue).sendCompletionCbs = []
  | .call (.send s) :: _, _ => c.scheduleForWriteIsEnabled = true ∨ s.cb = false ∨ s.direct = false
  | _, _ => True

def checkCallsBackOnce (c : Connection) (i : Input) : Bool :=
  match c.stack, i with
  | .syncWrite :: _, .result r => r.ec = none ∨ r.ec = some .wouldBlock ∨ (front c.writeQueue).sendCompletionCbs = []
  | [], .item (.asyncWriteDone r) => r.ec = none ∨ (front c.writeQueue).sendCompletionCbs = []
  | .call (.send s) :: _, _ => c.scheduleForWriteIsEnabled = true ∨ s.cb = false ∨ s.direct = false
  | _, _ => true

theorem checkCallsBackOnce_iff (c : Connection) (i : Input) : checkCallsBackOnce c i = true ↔ CallsBackOnce c i := by
  unfold checkCallsBackOnce CallsBackOnce
  split <;> simp

instance (c : Connection) (i : Input) : Decidable (CallsBackOnce c i) :=
  decidable_of_iff (checkCallsBackOnce c i = true) (checkCallsBackOnce_iff c i)

/-- What a step does to the callbacks of the groups. -/
inductive LedgerStep (p : SendBuffersResult → Bool) (c c' : Connection) : Prop
  /-- Nothing, or callbacks move on. -/
  | kept (scheduled : scheduledIds c'.log = scheduledIds c.log) (accepted : acceptedIds c'.log = acceptedIds c.log)
    (groups : c'.groups = c.groups) (ledger : ledger p c' = ledger p c)
  /-- A group is accepted: it is the last one. -/
  | accepted (ids : List Nat) (new : ids = [] ∨ ids = [c.groups]) (groups : c'.groups = c.groups + 1)
    (scheduled : scheduledIds c'.log = scheduledIds c.log ++ ids)
    (accepted : acceptedIds c'.log = acceptedIds c.log ++ [c.groups]) (ledger : ledger p c' = ledger p c ++ ids)
  /-- A group is refused. -/
  | refused (ids : List Nat) (new : ids = [] ∨ ids = [c.groups]) (groups : c'.groups = c.groups + 1)
    (scheduled : scheduledIds c'.log = scheduledIds c.log ++ ids) (accepted : acceptedIds c'.log = acceptedIds c.log)
    (told : p .rejectedScheduleSend = true → (ledger p c').Perm (ledger p c ++ ids))
    (silent : p .rejectedScheduleSend = false → ledger p c' = ledger p c)
  /-- A group went out directly: its callback is the next one. -/
  | direct (id : Nat) (stack : c.stack = [.append [] true id true])
    (scheduled : scheduledIds c'.log = scheduledIds c.log) (accepted : acceptedIds c'.log = acceptedIds c.log)
    (groups : c'.groups = c.groups) (perm : (ledger p c').Perm (ledger p c))
    (first : queueCallbacks c.writeQueue = [] → ledger p c' = ledger p c)

/-! ## Steps -/

/-- A frame that sends is all there is: nothing that was written waits to be popped. -/
theorem Calm.notPopping {f : Frame} (h : Calm (c.push f)) (hf : f.isSending = true) : c.stack = [] :=
  (List.cons.inj (h.alone f (List.mem_cons_self ..) hf)).2

/-- Bystanders in the place of bystanders. -/
theorem ledgerStep_still {evs : List Event} {fs gs base : List Frame} (hstack : c.stack = fs ++ base)
    (hfs : ∀ f ∈ fs, f.isBystander = true) (hstill : Still c c' evs gs base) (hgs : ∀ g ∈ gs, g.isBystander = true) :
    LedgerStep p c c' := by
  obtain ⟨ha, hs, hc⟩ := ids_eq_nil hstill.still
  have hnone : ∀ gs : List Frame, (∀ g ∈ gs, g.isBystander = true) →
      gs.flatMap (Frame.dueIds p) = [] ∧ gs.flatMap Frame.groupIds = [] ∧ .popWritten ∉ gs := by
    intro gs hgs
    refine ⟨List.flatMap_eq_nil_iff.2 fun g hg => ?_, List.flatMap_eq_nil_iff.2 fun g hg => ?_, fun hmem => ?_⟩
    · exact dueIds_of_isReporting (isReporting_of_isBystander (hgs g hg)) p
    · exact groupIds_of_isSending (Frame.isSending_of_isBystander (hgs g hg))
    · cases hgs _ hmem
  obtain ⟨hdue, hgroup, hpop⟩ := hnone gs hgs
  obtain ⟨hdue', hgroup', hpop'⟩ := hnone fs hfs
  have hlive : liveQueue c' = liveQueue c := by
    have hmem : .popWritten ∈ c'.stack ↔ .popWritten ∈ c.stack := by
      rw [hstill.stack, hstack, List.mem_append, List.mem_append]
      simp [hpop, hpop']
    unfold liveQueue
    rw [hstill.same.writeQueue]
    exact if_congr hmem rfl rfl
  refine .kept ?_ ?_ hstill.groups ?_
  · rw [hstill.same.log, scheduledIds_append, hs, List.append_nil]
  · rw [hstill.same.log, acceptedIds_append, ha, List.append_nil]
  · rw [ledger, ledger, hstill.same.log, calledIds_append, hc, List.append_nil, hlive, hstill.stack, hstack,
      List.flatMap_append, List.flatMap_append, List.flatMap_append, List.flatMap_append, hdue, hgroup, hdue', hgroup']

theorem ledgerStep_send {s : SendCall} (h : Calm (c.push (.call (.send s))))
    (hdirect : p .rejectedScheduleSend = true → c.scheduleForWriteIsEnabled = true ∨ s.cb = false ∨ s.direct = false) :
    LedgerStep p (c.push (.call (.send s))) (scheduleSend s c) := by
  have hnil : c.stack = [] := h.notPopping rfl
  have hpre : ledger p (c.push (.call (.send s))) = calledIds p c.log ++ queueCallbacks c.writeQueue := by
    refine (ledger_of_notMem (by simp [push, hnil])).trans ?_
    simp [push, hnil, Frame.dueIds, Frame.groupIds]
  have hids : ∀ ev : Event, ev.accepted? = none ∨ ev.accepted? = some c.groups → ev.scheduled? =
      (if s.cb then some c.groups else none) →
      scheduledIds (c.log ++ [ev]) = scheduledIds c.log ++ (if s.cb then [c.groups] else []) := by
    intro ev _ hev
    refine (scheduledIds_append ..).trans ?_
    cases hcb : s.cb <;> simp [scheduledIds, hev, hcb]
  have hnew : (if s.cb then [c.groups] else []) = [] ∨ (if s.cb then [c.groups] else []) = [c.groups] := by
    cases s.cb <;> simp
  have haccepted : acceptedIds (c.log ++ [.refused c.groups s.cb]) = acceptedIds c.log := by
    rw [acceptedIds_append]
    exact List.append_nil _
  have hscheduled := hids (.refused c.groups s.cb) (.inl rfl) (by cases hcb : s.cb <;> rfl)
  refine scheduleSend_elim s c ?accepted ?rejected ?ignored
  case accepted =>
    intro _
    refine .accepted (if s.cb then [c.groups] else []) hnew rfl ?_ ?_ ?_
    · exact hids (.accepted c.groups s.bufs s.cb) (.inr rfl) (by cases hcb : s.cb <;> rfl)
    · exact acceptedIds_append ..
    · rw [hpre]
      refine (ledger_of_notMem (by simp [push, emit, hnil])).trans ?_
      simp [push, emit, hnil, Frame.dueIds, Frame.groupIds, calledIds, List.filterMap, Event.called?]
  case rejected =>
    intro _ hcb _
    have hpost : ledger p (({ c with groups := c.groups + 1 } : Connection).emit (.refused c.groups s.cb) |>.push
        (.runCallbacks .rejectedScheduleSend [c.groups])) = calledIds p c.log ++
          (if p .rejectedScheduleSend then [c.groups] else []) ++ queueCallbacks c.writeQueue := by
      refine (ledger_of_notMem (by simp [push, emit, hnil])).trans ?_
      simp [push, emit, hnil, Frame.dueIds, Frame.groupIds, calledIds, List.filterMap, Event.called?]
    rw [if_pos hcb] at hscheduled
    refine .refused [c.groups] (.inr rfl) rfl hscheduled haccepted ?_ ?_
    · -- a refusal that counts is told before what waits in the queue
      intro hp
      rw [hpost, hpre, if_pos hp, List.append_assoc, List.append_assoc]
      exact List.perm_append_comm.append_left _
    · intro hp
      rw [hpost, hpre, hp]
      simp
  case ignored =>
    intro hdisabled hsilent
    have hpost : ledger p (({ c with groups := c.groups + 1 } : Connection).emit (.refused c.groups s.cb)) =
        calledIds p c.log ++ queueCallbacks c.writeQueue := by
      refine (ledger_of_notMem (by simp [emit, hnil])).trans ?_
      simp [emit, hnil, calledIds, List.filterMap, Event.called?]
    refine .refused (if s.cb then [c.groups] else []) hnew rfl hscheduled haccepted ?_ ?_
    · -- where refusals count nothing was ignored that had a callback
      intro hp
      have hcb : s.cb = false := by
        rcases hdirect hp with hon | hcb | hdirect
        · exact absurd (hon.symm.trans hdisabled) (by decide)
        · exact hcb
        · by_contra hcb
          exact absurd ((hsilent (by simpa using hcb)).symm.trans hdirect) (by decide)
      rw [hpost, hpre, hcb]
      simp
    · intro _
      rw [hpost, hpre]

theorem ledgerStep_append {bufs : List Bytes} {beAggressive cb : Bool} {id : Nat} (hp : p .success = true)
    (h : Calm (c.push (.append bufs beAggressive id cb))) :
    LedgerStep p (c.push (.append bufs beAggressive id cb)) (append env bufs beAggressive id cb c) := by
  have hnil : c.stack = [] := h.notPopping rfl
  have hpre : ledger p (c.push (.append bufs beAggressive id cb)) =
      calledIds p c.log ++ queueCallbacks c.writeQueue ++ if cb then [id] else [] := by
    refine (ledger_of_notMem (by simp [push, hnil])).trans ?_
    simp [push, hnil, Frame.dueIds, Frame.groupIds]
  have hpost : ∀ (gs : List Frame) (queue : List SingleWritableSequence), .popWritten ∉ gs →
      ledger p { c with writeQueue := queue, stack := gs ++ c.stack } =
        calledIds p c.log ++ gs.flatMap (Frame.dueIds p) ++ queueCallbacks queue ++ gs.flatMap Frame.groupIds := by
    intro gs queue hgs
    refine (ledger_of_notMem (by simpa [hnil] using hgs)).trans ?_
    simp [hnil]
  refine append_elim env bufs beAggressive id cb c ?delivered ?ended ?noted ?queued ?direct ?buffered
  case delivered =>
    rintro rfl rfl rfl
    -- all of the group is written: its callback comes before those of the queue, which it overtakes
    have hdirect := hpost [.runCallbacks .success [id]] c.writeQueue (by simp)
    refine .direct id (by rw [push, hnil]) rfl rfl rfl ?_ ?_
    · rw [hpre]
      refine (List.Perm.of_eq hdirect).trans ?_
      simp only [Frame.dueIds, hp, Frame.groupIds, List.flatMap_cons, List.flatMap_nil, List.append_nil, if_true,
        List.append_assoc]
      exact List.perm_append_comm.append_left _
    · intro hempty
      have hempty : queueCallbacks c.writeQueue = [] := hempty
      rw [hpre, hempty]
      refine hdirect.trans ?_
      simp [Frame.dueIds, hp, Frame.groupIds, hempty]
  case ended =>
    rintro rfl rfl rfl
    refine .kept rfl rfl rfl ?_
    rw [hpre]
    exact (hpost [] c.writeQueue (by simp)).trans (by simp)
  case noted =>
    rintro rfl rfl rfl
    refine .kept rfl rfl rfl ?_
    rw [hpre]
    refine (hpost [.initiateWrite] (setBack ((back c.writeQueue).appendCompletionCb id) c.writeQueue)
      (by simp)).trans ?_
    rw [queueCallbacks_setBack _ _ [id] rfl]
    simp [Frame.dueIds, Frame.groupIds]
  case queued =>
    rintro rfl rfl rfl
    refine .kept rfl rfl rfl ?_
    rw [hpre]
    exact (hpost [.initiateWrite] c.writeQueue (by simp)).trans (by simp [Frame.dueIds, Frame.groupIds])
  case direct =>
    rintro buf rest rfl - - -
    refine .kept rfl rfl rfl ?_
    rw [hpre]
    exact (hpost [.aggressiveWrite buf rest id cb] c.writeQueue (by simp)).trans
      (by simp [Frame.dueIds, Frame.groupIds])
  case buffered =>
    rintro buf rest rfl -
    refine .kept rfl rfl rfl ?_
    rw [hpre]
    refine (hpost [.append rest false id cb] (appendOutgoingBuffer env buf c.writeQueue) (by simp)).trans ?_
    rw [queueCallbacks_appendOutgoingBuffer]
    simp [Frame.dueIds, Frame.groupIds]

theorem ledgerStep_aggressiveWrite {buf : Bytes} {bufs : List Bytes} {id : Nat} {cb : Bool} {r : WriteResult}
    (h : Calm (c.push (.aggressiveWrite buf bufs id cb))) :
    LedgerStep p (c.push (.aggressiveWrite buf bufs id cb)) (aggressiveWritten env buf bufs id cb r c) := by
  have hnil : c.stack = [] := h.notPopping rfl
  have hpre : ledger p (c.push (.aggressiveWrite buf bufs id cb)) =
      calledIds p c.log ++ queueCallbacks c.writeQueue ++ if cb then [id] else [] := by
    refine (ledger_of_notMem (by simp [push, hnil])).trans ?_
    simp [push, hnil, Frame.dueIds, Frame.groupIds]
  have hpost : ∀ (be : Bool) (queue : List SingleWritableSequence), queueCallbacks queue = queueCallbacks c.writeQueue →
      LedgerStep p (c.push (.aggressiveWrite buf bufs id cb)) { c with
        log := (c.log ++ [.taken (buf.take r.transferred)]) ++ [.incBytesTxSync r.transferred], writeQueue := queue,
        stack := .append bufs be id cb :: c.stack } := by
    intro be queue hqueue
    refine .kept ?_ ?_ rfl ?_
    · simp [push, scheduledIds, List.filterMap, Event.scheduled?]
    · simp [push, acceptedIds, List.filterMap, Event.accepted?]
    · rw [hpre, ← hqueue]
      refine (ledger_of_notMem (by simp [hnil])).trans ?_
      simp [hnil, Frame.dueIds, Frame.groupIds, calledIds, List.filterMap, Event.called?]
  refine aggressiveWritten_elim env buf bufs id cb r c ?whole ?partly
  case whole => exact fun _ => hpost true c.writeQueue rfl
  case partly => exact fun _ => hpost false _ (queueCallbacks_appendOutgoingBuffer env _ _)

theorem Calm.ledger_base {f : Frame} (h : Calm (c.push f)) (hf : f.isBystander = false) (gs : List Frame)
    (hstack : c'.stack = gs ++ c.stack) :
    ledger p c' = calledIds p c'.log ++ gs.flatMap (Frame.dueIds p) ++ queueCallbacks (liveQueue c') ++
      gs.flatMap Frame.groupIds := ledger_of_stack hstack (h.reports_below hf) h.below

/-- A queue that differs in nothing that has to do with callbacks. -/
structure SameCallbacks (queue queue' : List SingleWritableSequence) : Prop where
  whole : queueCallbacks queue' = queueCallbacks queue
  tail : queueCallbacks queue'.tail = queueCallbacks queue.tail

theorem SameCallbacks.setFront (queue : List SingleWritableSequence) {seq : SingleWritableSequence}
    (h : seq.sendCompletionCbs = (front queue).sendCompletionCbs) : SameCallbacks queue (setFront seq queue) :=
  ⟨queueCallbacks_setFront queue seq h, rfl⟩

theorem SameCallbacks.freezeFirst {queue queue' : List SingleWritableSequence} (h : SameCallbacks queue queue') :
    SameCallbacks queue (freezeFirst queue') :=
  ⟨(queueCallbacks_freezeFirst queue').1.trans h.whole, (queueCallbacks_freezeFirst queue').2.trans h.tail⟩

theorem SameCallbacks.live {queue queue' : List SingleWritableSequence} (h : SameCallbacks queue queue')
    (pop : Prop) [Decidable pop] :
    queueCallbacks (if pop then queue'.tail else queue') = queueCallbacks (if pop then queue.tail else queue) := by
  split
  · exact h.tail
  · exact h.whole

/-- Frames without callbacks come in the place of such a frame, and the queue keeps its callbacks. -/
theorem ledgerStep_kept {f : Frame} (gs : List Frame) {evs : List Event} (h : Calm (c.push f))
    (hf : f.isBystander = false) (hdue : ∀ g ∈ f :: gs, g.dueIds p = [] ∧ g.groupIds = [] ∧ g ≠ .popWritten)
    (hlog : c'.log = c.log ++ evs) (hids : scheduledIds evs = [] ∧ acceptedIds evs = [] ∧ calledIds p evs = [])
    (hgroups : c'.groups = c.groups) (hqueue : SameCallbacks c.writeQueue c'.writeQueue)
    (hstack : c'.stack = gs ++ c.stack) : LedgerStep p (c.push f) c' := by
  obtain ⟨hs, ha, hc⟩ := hids
  have hnone : ∀ fs : List Frame, (∀ g ∈ fs, g ∈ f :: gs) →
      fs.flatMap (Frame.dueIds p) = [] ∧ fs.flatMap Frame.groupIds = [] := by
    intro fs hfs
    exact ⟨List.flatMap_eq_nil_iff.2 fun g hg => (hdue g (hfs g hg)).1,
      List.flatMap_eq_nil_iff.2 fun g hg => (hdue g (hfs g hg)).2.1⟩
  have hmem : .popWritten ∈ c'.stack ↔ .popWritten ∈ (c.push f).stack := by
    rw [hstack, List.mem_append]
    constructor
    · rintro (hpop | hpop)
      · exact absurd rfl (hdue _ (List.mem_cons_of_mem f hpop)).2.2
      · exact List.mem_cons_of_mem f hpop
    · intro hpop
      rcases List.mem_cons.1 hpop with hpop | hpop
      · exact absurd hpop.symm (hdue f (List.mem_cons_self ..)).2.2
      · exact .inr hpop
  refine .kept ?_ ?_ hgroups ?_
  · rw [hlog, scheduledIds_append, hs, List.append_nil]
    rfl
  · rw [hlog, acceptedIds_append, ha, List.append_nil]
    rfl
  · obtain ⟨hd, hg⟩ := hnone gs fun g hg => List.mem_cons_of_mem f hg
    obtain ⟨hd', hg'⟩ := hnone [f] (by simp)
    have hlive : queueCallbacks (liveQueue c') = queueCallbacks (liveQueue (c.push f)) := by
      unfold liveQueue
      rw [if_congr hmem rfl rfl]
      exact hqueue.live _
    rw [h.ledger_base hf gs hstack, h.ledger_base hf [f] rfl, hd, hg, hd', hg', hlive, hlog, calledIds_append, hc]
    simp only [List.append_nil]
    rfl

theorem ledgerStep_initiateWrite (h : Calm (c.push .initiateWrite)) :
    LedgerStep p (c.push .initiateWrite) (initiateWriteIfNecessary env c) := by
  have hseq : SameCallbacks c.writeQueue (setFront (front c.writeQueue).makeAsioBufs c.writeQueue) := .setFront _ rfl
  have hstarted : scheduledIds [.writeStarted c.popped] = [] ∧ acceptedIds [.writeStarted c.popped] = [] ∧
      calledIds p [.writeStarted c.popped] = [] := ⟨rfl, rfl, rfl⟩
  have hnil : c.log = c.log ++ [] := (List.append_nil _).symm
  refine initiateWrite_elim env c ?running ?nothing ?sync ?async
  case running =>
    intro _
    exact ledgerStep_kept [] h rfl (by simp [Frame.dueIds, Frame.groupIds]) hnil ⟨rfl, rfl, rfl⟩ rfl ⟨rfl, rfl⟩ rfl
  case nothing =>
    intro _ _
    exact ledgerStep_kept [] h rfl (by simp [Frame.dueIds, Frame.groupIds]) hnil ⟨rfl, rfl, rfl⟩ rfl hseq rfl
  case sync =>
    intro _ _ _
    exact ledgerStep_kept [.syncWrite] h rfl (by simp [Frame.dueIds, Frame.groupIds]) rfl hstarted rfl hseq rfl
  case async =>
    intro _ _
    exact ledgerStep_kept [] h rfl (by simp [Frame.dueIds, Frame.groupIds]) rfl hstarted rfl hseq.freezeFirst rfl

theorem ledgerStep_called {res : SendBuffersResult} {id : Nat} {ids : List Nat} {cs : List Call}
    (h : Calm (c.push (.runCallbacks res (id :: ids)))) :
    LedgerStep p (c.push (.runCallbacks res (id :: ids)))
      (((c.emit (.called id res)).push (.runCallbacks res ids)).push (.reaction cs)) := by
  refine .kept ?_ ?_ rfl ?_
  · exact (scheduledIds_append ..).trans (List.append_nil _)
  · exact (acceptedIds_append ..).trans (List.append_nil _)
  · have hlive : liveQueue (((c.emit (.called id res)).push (.runCallbacks res ids)).push (.reaction cs)) =
        liveQueue (c.push (.runCallbacks res (id :: ids))) := by
      unfold liveQueue
      simp [push, emit]
    rw [h.ledger_base rfl [.reaction cs, .runCallbacks res ids] rfl,
      h.ledger_base rfl [.runCallbacks res (id :: ids)] rfl, hlive]
    cases hp : p res <;>
      simp [push, emit, hp, Frame.dueIds, Frame.groupIds, calledIds, List.filterMap, Event.called?]

theorem ledgerStep_callbacksDone {res : SendBuffersResult} (h : Calm (c.push (.runCallbacks res []))) :
    LedgerStep p (c.push (.runCallbacks res [])) c :=
  ledgerStep_kept [] h rfl (by simp [Frame.dueIds, Frame.groupIds]) (List.append_nil _).symm ⟨rfl, rfl, rfl⟩ rfl
    ⟨rfl, rfl⟩ rfl

theorem ledgerStep_popWritten (h : Calm (c.push .popWritten)) (hstands : Stands (c.push .popWritten)) :
    LedgerStep p (c.push .popWritten) (popWritten c) := by
  have hnotMem : .popWritten ∉ c.stack := by
    cases hstands with
    | popping core async once =>
      rw [show (c.push .popWritten).stack = .popWritten :: c.stack from rfl, List.count_cons_self] at once
      exact List.count_eq_zero.1 (by omega)
    | idle core running async notPopping => exact absurd (List.mem_cons_self ..) notPopping
    | gather core running async notPopping => exact absurd (List.mem_cons_self ..) notPopping
    | writing core bufs running async notPopping => exact absurd (List.mem_cons_self ..) notPopping
    | failed entries core hasFailed lost async notPopping => exact absurd (List.mem_cons_self ..) notPopping
  have hlive : liveQueue (popWritten c) = liveQueue (c.push .popWritten) := by
    rw [liveQueue_of_notMem (by simpa [popWritten, push, emit] using hnotMem)]
    exact (if_pos (List.mem_cons_self ..)).symm
  refine .kept ?_ ?_ rfl ?_
  · exact (scheduledIds_append ..).trans (List.append_nil _)
  · exact (acceptedIds_append ..).trans (List.append_nil _)
  · rw [h.ledger_base rfl [.initiateWrite] rfl, h.ledger_base rfl [.popWritten] rfl, hlive]
    simp [popWritten, push, emit, Frame.dueIds, Frame.groupIds, calledIds, List.filterMap, Event.called?]

theorem afterWrite_queue (env : ConnectionEnv) (ec : Option ErrorCode) (c : Connection) :
    (afterWrite env ec c).writeQueue = c.writeQueue := by
  cases ec with
  | none => rfl
  | some ec =>
    obtain ⟨gs, hfails⟩ := afterWrite_fails env ec c
    exact hfails.writeQueue

/-- The front was written: its callbacks are due. -/
theorem ledger_written (env : ConnectionEnv) (hp : p .success = true) (hreports : ∀ g ∈ c.stack, g.isReporting = false)
    (hsending : ∀ g ∈ c.stack, g.isSending = false) :
    ledger p (afterWrite env none c) = calledIds p c.log ++ queueCallbacks c.writeQueue := by
  have hlive : liveQueue (afterWrite env none c) = c.writeQueue.tail :=
    if_pos (List.mem_cons_of_mem _ (List.mem_cons_self ..))
  have hlog : calledIds p (c.log ++ [.written c.popped]) = calledIds p c.log :=
    (calledIds_append ..).trans (List.append_nil _)
  have hstack : (afterWrite env none c).stack =
      [.runCallbacks .success (front c.writeQueue).sendCompletionCbs, .popWritten] ++ c.stack := rfl
  rw [ledger_of_stack hstack hreports hsending, hlive, queueCallbacks_front c.writeQueue,
    show (afterWrite env none c).log = c.log ++ [.written c.popped] from rfl, hlog]
  simp [Frame.dueIds, Frame.groupIds, hp]

/-- The write failed: they are due too, and the front stays where it is. -/
theorem ledger_writeFailed (env : ConnectionEnv) (ec : ErrorCode) (hreports : ∀ g ∈ c.stack, g.isReporting = false)
    (hsending : ∀ g ∈ c.stack, g.isSending = false) (hpop : .popWritten ∉ c.stack)
    (hec : p .ioError = true → (front c.writeQueue).sendCompletionCbs = []) :
    ledger p (afterWrite env (some ec) c) = calledIds p c.log ++ queueCallbacks c.writeQueue := by
  obtain ⟨gs, hfails⟩ := afterWrite_fails env ec c
  have hgs := hfails.frames.bystanders
  have hstack : (afterWrite env (some ec) c).stack =
      (gs ++ [.runCallbacks .ioError (front c.writeQueue).sendCompletionCbs]) ++ c.stack := by
    rw [List.append_assoc]
    exact hfails.stack
  have hdue : gs.flatMap (Frame.dueIds p) = [] :=
    List.flatMap_eq_nil_iff.2 fun g hg => dueIds_of_isReporting (isReporting_of_isBystander (hgs g hg)) p
  have hgroup : gs.flatMap Frame.groupIds = [] :=
    List.flatMap_eq_nil_iff.2 fun g hg => groupIds_of_isSending (Frame.isSending_of_isBystander (hgs g hg))
  have hqueue : liveQueue (afterWrite env (some ec) c) = c.writeQueue := by
    rw [liveQueue_of_notMem]
    · exact hfails.writeQueue
    · rw [hstack]
      intro hmem
      rcases List.mem_append.1 hmem with hmem | hmem
      · rcases List.mem_append.1 hmem with hmem | hmem
        · cases hgs _ hmem
        · cases List.mem_singleton.1 hmem
      · exact hpop hmem
  have hcalled : calledIds p (c.log ++ [.writeFailed c.popped]) = calledIds p c.log :=
    (calledIds_append ..).trans (List.append_nil _)
  have hfront : (Frame.runCallbacks .ioError (front c.writeQueue).sendCompletionCbs).dueIds p = [] := by
    cases hio : p .ioError with
    | false => simp [Frame.dueIds, hio]
    | true => simp [Frame.dueIds, hio, hec hio]
  rw [ledger_of_stack hstack hreports hsending, hqueue, hfails.log, hcalled, List.flatMap_append, List.flatMap_append,
    hdue, hgroup, List.flatMap_singleton, List.flatMap_singleton, hfront]
  simp [Frame.groupIds]

/-- The end of a write: the callbacks of the front are to be called. -/
theorem ledger_afterWrite (env : ConnectionEnv) (ec : Option ErrorCode) (hp : p .success = true)
    (hreports : ∀ g ∈ c.stack, g.isReporting = false)
    (hsending : ∀ g ∈ c.stack, g.isSending = false) (hpop : .popWritten ∉ c.stack)
    (hec : ec ≠ none → p .ioError = true → (front c.writeQueue).sendCompletionCbs = []) :
    scheduledIds (afterWrite env ec c).log = scheduledIds c.log ∧
      acceptedIds (afterWrite env ec c).log = acceptedIds c.log ∧
      (afterWrite env ec c).groups = c.groups ∧
      ledger p (afterWrite env ec c) = calledIds p c.log ++ queueCallbacks c.writeQueue := by
  cases ec with
  | none =>
    exact ⟨(scheduledIds_append ..).trans (List.append_nil _), (acceptedIds_append ..).trans (List.append_nil _), rfl,
      ledger_written env hp hreports hsending⟩
  | some ec =>
    obtain ⟨gs, hfails⟩ := afterWrite_fails env ec c
    refine ⟨?_, ?_, hfails.groups, ledger_writeFailed env ec hreports hsending hpop (hec (by simp))⟩
    · rw [hfails.log]
      exact (scheduledIds_append ..).trans (List.append_nil _)
    · rw [hfails.log]
      exact (acceptedIds_append ..).trans (List.append_nil _)

theorem ledgerStep_syncWrite {r : WriteResult} (hp : p .success = true) (h : Calm (c.push .syncWrite))
    (hstands : Stands (c.push .syncWrite))
    (hr : p .ioError = true → r.ec = none ∨ r.ec = some .wouldBlock ∨ (front c.writeQueue).sendCompletionCbs = [])
    (possible : r.PossibleSync (front c.writeQueue).totalSize) :
    LedgerStep p (c.push .syncWrite) (syncWritten env r c) := by
  have hpop : .popWritten ∉ c.stack := hstands.gathering.1.notPopping
  have hpre : ledger p (c.push .syncWrite) = calledIds p c.log ++ queueCallbacks c.writeQueue := by
    rw [h.ledger_base rfl [.syncWrite] rfl, liveQueue_of_notMem (by simpa [push] using hpop)]
    simp [push, Frame.dueIds, Frame.groupIds]
  have htaken : ∀ bs, scheduledIds (c.log ++ [.taken bs]) = scheduledIds c.log ∧
      acceptedIds (c.log ++ [.taken bs]) = acceptedIds c.log ∧ calledIds p (c.log ++ [.taken bs]) = calledIds p c.log :=
    fun bs => ⟨(scheduledIds_append ..).trans (List.append_nil _), (acceptedIds_append ..).trans (List.append_nil _),
      (calledIds_append ..).trans (List.append_nil _)⟩
  have hcomplete : ∀ bs, (r.ec ≠ none → p .ioError = true → (front c.writeQueue).sendCompletionCbs = []) →
      LedgerStep p (c.push .syncWrite) (completeOperationNow env r.ec r.transferred (c.emit (.taken bs))) := by
    intro bs hec
    have hfront : (front (freezeFirst c.writeQueue)).sendCompletionCbs = (front c.writeQueue).sendCompletionCbs :=
      congrArg SingleWritableSequence.sendCompletionCbs (front_freezeFirst c.writeQueue)
    obtain ⟨hs, ha, hg, hl⟩ := ledger_afterWrite env r.ec (p := p)
      (c := ({ c.emit (.taken bs) with writeQueue := freezeFirst c.writeQueue } : Connection).push
        (.incBytesTxSync r.transferred)) hp
      (List.forall_mem_cons.2 ⟨rfl, h.reports_below rfl⟩) (List.forall_mem_cons.2 ⟨rfl, h.below⟩)
      (by simpa [push, emit] using hpop) (fun hne hio => hfront.trans (hec hne hio))
    refine .kept (hs.trans (htaken bs).1) (ha.trans (htaken bs).2.1) hg ?_
    refine hl.trans ?_
    show calledIds p (c.log ++ [.taken bs]) ++ queueCallbacks (freezeFirst c.writeQueue) = _
    rw [(htaken bs).2.2, (queueCallbacks_freezeFirst c.writeQueue).1, hpre]
  refine syncWritten_elim env possible ?completed ?blocked
  case completed =>
    intro hec
    refine hcomplete _ fun hne hio => ?_
    rcases hr hio with hnone | hblock | hempty
    · exact absurd hnone hne
    · exact absurd hblock hec
    · exact hempty
  case blocked =>
    intro _ _
    exact ledgerStep_kept [] h rfl (by simp [Frame.dueIds, Frame.groupIds]) rfl ⟨rfl, rfl, rfl⟩ rfl
      (SameCallbacks.freezeFirst (by exact .setFront _ rfl)) rfl

theorem ledgerStep_asyncWrite {bufs : List Bytes} {r : WriteResult} (hp : p .success = true) (hstack : c.stack = [])
    (hr : p .ioError = true → r.ec = none ∨ (front c.writeQueue).sendCompletionCbs = []) :
    LedgerStep p c (asyncWritten env bufs r c) := by
  have hpre : ledger p c = calledIds p c.log ++ queueCallbacks c.writeQueue := by
    rw [ledger_of_notMem (by simp [hstack]), hstack]
    simp
  obtain ⟨hs, ha, hg, hl⟩ := ledger_afterWrite env r.ec (p := p)
    (c := (({ c with asyncWrite := none } : Connection).emit (.taken (bufs.flatten.take r.transferred))).push
      (.incBytesTxAsync r.transferred)) hp
    (by simp [push, emit, hstack, Frame.isReporting]) (by simp [push, emit, hstack, Frame.isSending])
    (by simp [push, emit, hstack]) (fun hne hio => (hr hio).resolve_left hne)
  refine .kept (hs.trans ((scheduledIds_append ..).trans (List.append_nil _)))
    (ha.trans ((acceptedIds_append ..).trans (List.append_nil _))) hg ?_
  refine hl.trans ?_
  show calledIds p (c.log ++ [.taken _]) ++ queueCallbacks c.writeQueue = _
  rw [calledIds_append, hpre]
  simp [calledIds, List.filterMap, Event.called?]

/-- Every step but the end of the connection. -/
theorem step_ledger {i : Input} (hp : p .success = true) (h : Calm c) (hstands : Stands c) (hi : i.callsNothing = true)
    (honce : p .ioError = true ∨ p .rejectedScheduleSend = true → CallsBackOnce c i) (hstep : step env c i = some c') :
    LedgerStep p c c' ∨ ∃ n, i = .item (.destroy n) ∧ c.stack = [] ∧ c' = destroy n c := by
  rcases step_cases hstep with ⟨item, rfl, hstack, -, hbegin⟩ | ⟨f, c₀, rfl, hresume⟩
  · have hpre : ledger p c = calledIds p c.log ++ queueCallbacks c.writeQueue := by
      rw [ledger_of_notMem (by simp [hstack]), hstack]
      simp
    cases hbegin with
    | call call =>
      refine .inl (.kept rfl rfl rfl ?_)
      rw [hpre, ledger_of_notMem (by simp [push, hstack])]
      simp [push, hstack, Frame.dueIds, Frame.groupIds]
    | bystander still bystanders =>
      exact .inl (ledgerStep_still (List.nil_append c.stack).symm (by simp) still fun g hg => (bystanders g hg).1)
    | asyncWrite bufs r inFlight possible =>
      refine .inl (ledgerStep_asyncWrite hp hstack fun hio => ?_)
      have honce := honce (.inl hio)
      unfold CallsBackOnce at honce
      rw [hstack] at honce
      exact honce
    | destroy n => exact .inr ⟨n, rfl, hstack, rfl⟩
  · refine .inl ?_
    cases hresume with
    | bystander isBystander still pushed =>
      obtain ⟨gs, hgs, hplace⟩ := resume_calm h hi (Resumes.bystander isBystander still pushed : Resumes env _ _ _ _)
      obtain rfl := List.append_cancel_right (still.stack.symm.trans hgs)
      exact ledgerStep_still (List.singleton_append ..).symm (by simpa using isBystander) still
        (hplace.bystanders isBystander)
    | send s => exact ledgerStep_send h fun hrej => honce (.inr hrej)
    | append bufs beAggressive id cb => exact ledgerStep_append hp h
    | aggressiveWrite buf bufs id cb r possible => exact ledgerStep_aggressiveWrite h
    | initiateWrite => exact ledgerStep_initiateWrite h
    | syncWrite r possible => exact ledgerStep_syncWrite hp h hstands (fun hio => honce (.inl hio)) possible
    | called res id ids cs => exact ledgerStep_called h
    | callbacksDone res => exact ledgerStep_callbacksDone h
    | popWritten => exact ledgerStep_popWritten h hstands

end Connection

end Opio.Net
