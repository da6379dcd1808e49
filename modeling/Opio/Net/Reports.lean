/-
The callbacks that are called, and where the ones that are about to be called come from: a group that
went out directly, a sequence that was written or whose write failed, a group that was refused.
-/
import Opio.Net.Callbacks

namespace Opio.Net

namespace Connection

variable {env : ConnectionEnv} {c c' : Connection} {evs : List Event}

/-! ## What is reported -/

/-- Callbacks that a step puts on the list. -/
inductive NewReport (c c' : Connection) : List Event → SendBuffersResult → List Nat → Prop
  /-- All buffers of the group were written directly. -/
  | direct (id : Nat) (stack : .append [] true id true ∈ c.stack) (queue : c'.writeQueue = c.writeQueue)
    (running : c'.isWriteOperationRunning = c.isWriteOperationRunning) : NewReport c c' [] .success [id]
  /-- The front was written, and it is not popped yet. -/
  | written (evs : List Event) (quiet : c.stack.head? = some .syncWrite ∨ c.stack = [])
    (popping : .popWritten ∈ c'.stack) (behind : queueBytes c'.writeQueue.tail = queueBytes c.writeQueue.tail) :
    NewReport c c' evs .success (front c.writeQueue).sendCompletionCbs
  | failed (evs : List Event) (ids : List Nat) : NewReport c c' evs .ioError ids
  | refused (groups : c'.groups = c.groups + 1) :
    NewReport c c' [.refused c.groups true] .rejectedScheduleSend [c.groups]

/-- What a step has to do with reports: a callback that is called was the next one on the list. -/
structure Reports (c c' : Connection) (evs : List Event) : Prop where
  log : c'.log = c.log ++ evs
  called : ∀ id res, .called id res ∈ evs →
    evs = [.called id res] ∧ ∃ ids base, c.stack = .runCallbacks res (id :: ids) :: base
  frames : ∀ res ids, .runCallbacks res ids ∈ c'.stack →
    (∃ ids', .runCallbacks res ids' ∈ c.stack ∧ ids ⊆ ids') ∨ NewReport c c' evs res ids

/-- Frames come in the place of a frame, and no callback is called. -/
theorem reports_of_stack {f : Frame} (gs : List Frame) (hlog : c'.log = c.log ++ evs)
    (hcalled : ∀ id res, .called id res ∉ evs) (hstack : c'.stack = gs ++ c.stack)
    (hgs : ∀ res ids, .runCallbacks res ids ∈ gs → NewReport (c.push f) c' evs res ids) :
    Reports (c.push f) c' evs := by
  refine ⟨hlog, fun id res hmem => absurd hmem (hcalled id res), fun res ids hmem => ?_⟩
  rw [hstack] at hmem
  rcases List.mem_append.1 hmem with hmem | hmem
  · exact .inr (hgs res ids hmem)
  · exact .inl ⟨ids, List.mem_cons_of_mem f hmem, List.Subset.refl _⟩

theorem called_notMem_of_isStill (h : ∀ ev ∈ evs, ev.isStill = true) (id : Nat) (res : SendBuffersResult) :
    .called id res ∉ evs := by
  intro hmem
  cases h _ hmem

/-- The end of a write: the callbacks of the front are told, before anything else is. -/
theorem afterWrite_reports (env : ConnectionEnv) (ec : Option ErrorCode) (c : Connection) :
    ∃ ev gs, (afterWrite env ec c).log = c.log ++ [ev] ∧ (∀ id res, ev ≠ .called id res) ∧
      (afterWrite env ec c).stack = gs ++ c.stack ∧
      ∀ res ids, .runCallbacks res ids ∈ gs → res = .ioError ∨
        res = .success ∧ ids = (front c.writeQueue).sendCompletionCbs ∧ .popWritten ∈ (afterWrite env ec c).stack := by
  cases ec with
  | none =>
    refine ⟨.written c.popped, [.runCallbacks .success (front c.writeQueue).sendCompletionCbs, .popWritten],
      rfl, by simp, rfl, fun res ids hmem => .inr ?_⟩
    simp only [List.mem_cons, Frame.runCallbacks.injEq, reduceCtorEq, List.not_mem_nil, or_false] at hmem
    exact ⟨hmem.1, hmem.2, List.mem_cons_of_mem _ (List.mem_cons_self ..)⟩
  | some ec =>
    obtain ⟨gs, hfails⟩ := afterWrite_fails env ec c
    refine ⟨.writeFailed c.popped, gs ++ [.runCallbacks .ioError (front c.writeQueue).sendCompletionCbs], hfails.log,
      by simp, ?_, fun res ids hmem => .inl ?_⟩
    · rw [List.append_assoc]
      exact hfails.stack
    · rcases List.mem_append.1 hmem with hmem | hmem
      · cases hfails.frames.bystanders _ hmem
      · have heq := List.mem_singleton.1 hmem
        exact (Frame.runCallbacks.inj heq).1

theorem queueBytes_tail_freezeFirst (queue : List SingleWritableSequence) :
    queueBytes (freezeFirst queue).tail = queueBytes queue.tail := by
  unfold freezeFirst
  split
  · rename_i hone
    obtain ⟨seq, rfl⟩ := List.length_eq_one_iff.1 hone
    rfl
  · rfl

theorem syncWritten_reports {r : WriteResult} (possible : r.PossibleSync (front c.writeQueue).totalSize) :
    ∃ evs, Reports (c.push .syncWrite) (syncWritten env r c) evs := by
  have hcomplete : ∀ ec bs, ∃ evs, Reports (c.push .syncWrite)
      (completeOperationNow env ec r.transferred (c.emit (.taken bs))) evs := by
    intro ec bs
    obtain ⟨ev, gs, hlog, hev, hstack, hgs⟩ := afterWrite_reports env ec
      ({ c.emit (.taken bs) with writeQueue := freezeFirst c.writeQueue }.push (.incBytesTxSync r.transferred))
    refine ⟨[.taken bs] ++ [ev], reports_of_stack (gs ++ [.incBytesTxSync r.transferred]) ?_ ?_ ?_ ?_⟩
    · rw [← List.append_assoc]
      exact hlog
    · intro id res hmem
      simp only [List.cons_append, List.nil_append, List.mem_cons, reduceCtorEq, List.not_mem_nil, or_false,
        false_or] at hmem
      exact hev id res hmem.symm
    · rw [List.append_assoc]
      exact hstack
    · intro res ids hmem
      have hmem : .runCallbacks res ids ∈ gs := by simpa using hmem
      rcases hgs res ids hmem with rfl | ⟨rfl, rfl, hpop⟩
      · exact .failed _ ids
      · have hnew : NewReport (c.push .syncWrite) (completeOperationNow env ec r.transferred (c.emit (.taken bs)))
            ([.taken bs] ++ [ev]) .success (front c.writeQueue).sendCompletionCbs := by
          refine .written _ (.inl rfl) hpop ?_
          rw [completeOperationNow, afterWrite_queue]
          exact queueBytes_tail_freezeFirst c.writeQueue
        have hfront : front (freezeFirst c.writeQueue) = front c.writeQueue := front_freezeFirst c.writeQueue
        rw [← hfront] at hnew
        exact hnew
  refine syncWritten_elim env possible ?completed ?blocked
  case completed => exact fun _ => hcomplete _ _
  case blocked => exact fun _ _ => ⟨[.taken _], reports_of_stack [] rfl (by simp) rfl (by simp)⟩

theorem resume_reports {f : Frame} {i : Input} (hstep : Resumes env c f i c') : ∃ evs, Reports (c.push f) c' evs := by
  have hnil : c.log = c.log ++ [] := (List.append_nil _).symm
  cases hstep with
  | bystander isBystander still pushed =>
    -- none of the frames a bystander leaves tells a result
    refine ⟨_, reports_of_stack _ still.same.log (called_notMem_of_isStill still.still) still.stack ?_⟩
    intro res ids hmem
    rcases pushed _ hmem with hg | ⟨call, calls, -, heq⟩
    · cases hg.1
    · cases heq
  | send s =>
    refine scheduleSend_elim s c ?accepted ?rejected ?ignored
    case accepted =>
      intro _
      exact ⟨[.accepted c.groups s.bufs s.cb], reports_of_stack [.append s.bufs true c.groups s.cb] rfl (by simp) rfl
        (by simp)⟩
    case rejected =>
      intro _ hcb _
      refine ⟨[.refused c.groups s.cb], reports_of_stack [.runCallbacks .rejectedScheduleSend [c.groups]] rfl
        (by simp) rfl ?_⟩
      intro res ids hmem
      obtain ⟨rfl, rfl⟩ := Frame.runCallbacks.inj (List.mem_singleton.1 hmem)
      rw [hcb]
      exact .refused rfl
    case ignored => exact fun _ _ => ⟨[.refused c.groups s.cb], reports_of_stack [] rfl (by simp) rfl (by simp)⟩
  | append bufs beAggressive id cb =>
    refine append_elim env bufs beAggressive id cb c ?delivered ?ended ?noted ?queued ?direct ?buffered
    case delivered =>
      rintro rfl rfl rfl
      refine ⟨[], reports_of_stack [.runCallbacks .success [id]] hnil (by simp) rfl ?_⟩
      intro res ids hmem
      obtain ⟨rfl, rfl⟩ := Frame.runCallbacks.inj (List.mem_singleton.1 hmem)
      exact .direct id (List.mem_cons_self ..) rfl rfl
    case ended => exact fun _ _ _ => ⟨[], reports_of_stack [] hnil (by simp) rfl (by simp)⟩
    case noted => exact fun _ _ _ => ⟨[], reports_of_stack [.initiateWrite] hnil (by simp) rfl (by simp)⟩
    case queued => exact fun _ _ _ => ⟨[], reports_of_stack [.initiateWrite] hnil (by simp) rfl (by simp)⟩
    case direct =>
      intro buf rest _ _ _ _
      exact ⟨[], reports_of_stack [.aggressiveWrite buf rest id cb] hnil (by simp) rfl (by simp)⟩
    case buffered =>
      intro buf rest _ _
      exact ⟨[], reports_of_stack [.append rest false id cb] hnil (by simp) rfl (by simp)⟩
  | aggressiveWrite buf bufs id cb r possible =>
    have hlog : ∀ bs, c.log ++ [.taken bs] ++ [.incBytesTxSync r.transferred] =
        c.log ++ [.taken bs, .incBytesTxSync r.transferred] := by simp
    refine aggressiveWritten_elim env buf bufs id cb r c ?whole ?partly
    case whole => exact fun _ => ⟨_, reports_of_stack [.append bufs true id cb] (hlog _) (by simp) rfl (by simp)⟩
    case partly => exact fun _ => ⟨_, reports_of_stack [.append bufs false id cb] (hlog _) (by simp) rfl (by simp)⟩
  | initiateWrite =>
    refine initiateWrite_elim env c ?running ?nothing ?sync ?async
    case running => exact fun _ => ⟨[], reports_of_stack [] hnil (by simp) rfl (by simp)⟩
    case nothing => exact fun _ _ => ⟨[], reports_of_stack [] hnil (by simp) rfl (by simp)⟩
    case sync =>
      intro _ _ _
      exact ⟨[.writeStarted c.popped], reports_of_stack [.syncWrite] rfl (by simp) rfl (by simp)⟩
    case async => exact fun _ _ => ⟨[.writeStarted c.popped], reports_of_stack [] rfl (by simp) rfl (by simp)⟩
  | syncWrite r possible => exact syncWritten_reports possible
  | called res id ids cs =>
    -- the one step that tells a result, of the first callback of its frame
    refine ⟨[.called id res], rfl, ?_, ?_⟩
    · intro id' res' hmem
      obtain ⟨rfl, rfl⟩ := Event.called.inj (List.mem_singleton.1 hmem)
      exact ⟨rfl, ids, c.stack, rfl⟩
    · intro res' ids' hmem
      have hmem : .runCallbacks res' ids' ∈ .reaction cs :: .runCallbacks res ids :: c.stack := hmem
      simp only [List.mem_cons, reduceCtorEq, Frame.runCallbacks.injEq, false_or] at hmem
      rcases hmem with ⟨rfl, rfl⟩ | hmem
      · exact .inl ⟨id :: ids', List.mem_cons_self .., List.subset_cons_self ..⟩
      · exact .inl ⟨ids', List.mem_cons_of_mem _ hmem, List.Subset.refl _⟩
  | callbacksDone res => exact ⟨[], reports_of_stack [] hnil (by simp) rfl (by simp)⟩
  | popWritten => exact ⟨[.popped c.popped], reports_of_stack [.initiateWrite] rfl (by simp) rfl (by simp)⟩

/-- Every step but the end of the connection. -/
theorem step_reports {i : Input} (hi : ∀ n, i ≠ .item (.destroy n)) (hstep : step env c i = some c') :
    ∃ evs, Reports c c' evs := by
  rcases step_cases hstep with ⟨item, rfl, hstack, -, hbegin⟩ | ⟨f, c₀, rfl, hresume⟩
  · cases hbegin with
    | call call =>
      refine ⟨[], (List.append_nil _).symm, by simp, fun res ids hmem => ?_⟩
      simp [push, hstack] at hmem
    | bystander still bystanders =>
      refine ⟨[], still.same.log, by simp, fun res ids hmem => ?_⟩
      rw [still.stack, hstack, List.append_nil] at hmem
      cases (bystanders _ hmem).1
    | asyncWrite bufs r inFlight possible =>
      obtain ⟨ev, gs, hlog, hev, hgs, hnew⟩ := afterWrite_reports env r.ec
        (({ c with asyncWrite := none }.emit (.taken (bufs.flatten.take r.transferred))).push
          (.incBytesTxAsync r.transferred))
      refine ⟨[.taken (bufs.flatten.take r.transferred)] ++ [ev], ?_, ?_, ?_⟩
      · rw [← List.append_assoc]
        exact hlog
      · intro id res hmem
        simp only [List.cons_append, List.nil_append, List.mem_cons, reduceCtorEq, List.not_mem_nil, or_false,
          false_or] at hmem
        exact absurd hmem.symm (hev id res)
      · intro res ids hmem
        have hmem : .runCallbacks res ids ∈ gs := by
          rw [asyncWritten, hgs] at hmem
          simpa [push, emit, hstack] using hmem
        rcases hnew res ids hmem with rfl | ⟨rfl, rfl, hpop⟩
        · exact .inr (.failed _ ids)
        · refine .inr (.written _ (.inr hstack) hpop ?_)
          rw [asyncWritten, afterWrite_queue]
          rfl
    | destroy n => exact absurd rfl (hi n)
  · exact resume_reports hresume

/-! ## The end -/

/-- The callbacks that the destructor tells that nothing was sent. -/
def unsentCallbacks (c : Connection) : List Nat :=
  queueCallbacks (if c.isWriteOperationRunning then c.writeQueue.tail else c.writeQueue)

/-- What the destructor adds to the log. -/
theorem destroy_log (n : Nat) (c : Connection) : ∃ evs, (destroy n c).log = c.log ++ evs ∧
    ∀ ev ∈ evs, (∃ bs, ev = .taken bs) ∨ (∃ id, ev = .called id .ioError) ∨
      ∃ id ∈ unsentCallbacks c, ev = .called id .didntSend := by
  have hhandle : ∀ c₁ : Connection, c₁.writeQueue = c.writeQueue →
      c₁.isWriteOperationRunning = c.isWriteOperationRunning →
      ∃ evs, (handleRemainigWriteQueue c₁).log = c₁.log ++ evs ∧
        ∀ ev ∈ evs, (∃ id, ev = .called id .ioError) ∨ ∃ id ∈ unsentCallbacks c, ev = .called id .didntSend := by
    intro c₁ hqueue hrunning
    unfold handleRemainigWriteQueue
    rw [hqueue, hrunning]
    dsimp only
    split
    · refine ⟨_, List.append_assoc .., fun ev hev => ?_⟩
      rcases List.mem_append.1 hev with hev | hev
      · obtain ⟨id, -, rfl⟩ := List.mem_map.1 hev
        exact .inl ⟨id, rfl⟩
      · obtain ⟨id, hid, rfl⟩ := List.mem_map.1 hev
        exact .inr ⟨id, hid, rfl⟩
    · exact ⟨[], (List.append_nil _).symm, by simp⟩
  cases hasync : c.asyncWrite with
  | none =>
    simp only [destroy, hasync]
    obtain ⟨evs, hlog, hevs⟩ := hhandle c rfl rfl
    exact ⟨evs, hlog, fun ev hev => .inr (hevs ev hev)⟩
  | some bufs =>
    simp only [destroy, hasync]
    obtain ⟨evs, hlog, hevs⟩ := hhandle (c.emit (.taken (bufs.flatten.take n))) rfl rfl
    refine ⟨.taken (bufs.flatten.take n) :: evs, hlog.trans ?_, List.forall_mem_cons.2 ⟨.inl ⟨_, rfl⟩, ?_⟩⟩
    · exact List.append_assoc ..
    · exact fun ev hev => .inr (hevs ev hev)

end Connection

end Opio.Net
