/-
Steps that have nothing to do with sending: what they leave as it is, and which frames they put on
the stack.
-/
import Opio.Net.Cases
import Opio.Net.StreamLog

namespace Opio.Net

/-- The frame has nothing to do with the groups of buffers and their callbacks. -/
def Frame.isBystander : Frame → Bool
  | .call (.send _) => false
  | .call _ => true
  | .shutdownHandler _ => true
  | .markShutdown => true
  | .inputHandler => true
  | .afterInput => true
  | .reaction _ => true
  | .incBytesTxSync _ => true
  | .incBytesTxAsync _ => true
  | _ => false

namespace Connection

variable {env : ConnectionEnv} {c c' : Connection}

/-- The shutdown has begun. -/
def Closing (c : Connection) : Prop :=
  c.shutdownWasCalled = true ∨ c.socketIsOpen = false ∨ .markShutdown ∈ c.stack

/-- The state differs in nothing that has to do with the bytes on their way. -/
structure SameStream (c c' : Connection) (evs : List Event) : Prop where
  log : c'.log = c.log ++ evs
  inert : ∀ ev ∈ evs, ev.IsInert
  writeQueue : c'.writeQueue = c.writeQueue
  running : c'.isWriteOperationRunning = c.isWriteOperationRunning
  asyncWrite : c'.asyncWrite = c.asyncWrite
  destroyed : c'.destroyed = c.destroyed
  popped : c'.popped = c.popped
  disabled : c.scheduleForWriteIsEnabled = false → c'.scheduleForWriteIsEnabled = false
  closed : (Closing c → c.scheduleForWriteIsEnabled = false) → Closing c' → c'.scheduleForWriteIsEnabled = false

/-- A step that does nothing for sending: the frames `gs` come on top of the frames `base`. -/
structure Still (c c' : Connection) (evs : List Event) (gs base : List Frame) : Prop where
  same : SameStream c c' evs
  still : ∀ ev ∈ evs, ev.isStill = true
  groups : c'.groups = c.groups
  stack : c'.stack = gs ++ base

theorem SameStream.refl (c : Connection) : SameStream c c [] :=
  ⟨(List.append_nil _).symm, by simp, rfl, rfl, rfl, rfl, rfl, id, id⟩

theorem Still.refl (c : Connection) : Still c c [] [] c.stack := ⟨.refl c, by simp, rfl, rfl⟩

/-- A step that leaves the flags of the shutdown alone. -/
theorem sameStream_of_update {evs log : List Event} {base : List Frame} (gs : List Frame) (readIsEnabled : Bool)
    (readsInFlight groups : Nat) (hlog : log = c.log ++ evs) (hinert : ∀ ev ∈ evs, ev.IsInert)
    (hbase : ∀ f ∈ base, f ∈ c.stack) (hgs : ∀ f ∈ gs, f ≠ .markShutdown) :
    SameStream c { c with log, readIsEnabled, readsInFlight, groups, stack := gs ++ base } evs := by
  refine ⟨hlog, hinert, rfl, rfl, rfl, rfl, rfl, id, ?_⟩
  intro h hclosing
  refine h ?_
  rcases hclosing with hclosing | hclosing | hclosing
  · exact .inl hclosing
  · exact .inr (.inl hclosing)
  · rcases List.mem_append.1 hclosing with hmem | hmem
    · exact absurd rfl (hgs _ hmem)
    · exact .inr (.inr (hbase _ hmem))

theorem still_of_update {evs log : List Event} {base : List Frame} (gs : List Frame) (readIsEnabled : Bool)
    (readsInFlight : Nat) (hlog : log = c.log ++ evs) (hstill : ∀ ev ∈ evs, ev.isStill = true)
    (hbase : ∀ f ∈ base, f ∈ c.stack) (hgs : ∀ f ∈ gs, f ≠ .markShutdown) :
    Still c { c with log, readIsEnabled, readsInFlight, stack := gs ++ base } evs gs base :=
  ⟨sameStream_of_update gs readIsEnabled readsInFlight c.groups hlog
    (fun ev hev => Event.isInert_of_isStill (hstill ev hev)) hbase hgs, hstill, rfl, rfl⟩

/-! ## The shutdown -/

/-- What the shutdown leaves to do. -/
def ShutdownFrames (gs : List Frame) : Prop := gs = [] ∨ ∃ reason, gs = [.shutdownHandler reason, .markShutdown]

theorem ShutdownFrames.bystanders {gs : List Frame} (h : ShutdownFrames gs) : ∀ g ∈ gs, g.isBystander = true := by
  rcases h with rfl | ⟨reason, rfl⟩
  · simp
  · simp [Frame.isBystander]

theorem shutdownImpl_still (env : ConnectionEnv) (reason : ConnectionShutdownReason) (c : Connection) :
    ∃ gs, Still c (shutdownImpl env reason c) [] gs c.stack ∧ ShutdownFrames gs := by
  have hnil : ∀ ev ∈ ([] : List Event), ev.IsInert := by simp
  have hstill : ∀ ev ∈ ([] : List Event), ev.isStill = true := by simp
  have hlog := (List.append_nil c.log).symm
  refine shutdownImpl_elim env reason c ?again ?first
  case again => exact fun _ => ⟨[], .refl c, .inl rfl⟩
  case first =>
    rintro - c₁ (⟨-, rfl⟩ | ⟨hclosed, rfl⟩)
    · split
      · exact ⟨_, ⟨⟨hlog, hnil, rfl, rfl, rfl, rfl, rfl, fun _ => rfl, fun _ _ => rfl⟩, hstill, rfl, rfl⟩,
          .inr ⟨reason, rfl⟩⟩
      · exact ⟨[], ⟨⟨hlog, hnil, rfl, rfl, rfl, rfl, rfl, fun _ => rfl, fun _ _ => rfl⟩, hstill, rfl, rfl⟩, .inl rfl⟩
    · -- a connection whose socket is closed takes no sends any more
      split
      · exact ⟨_, ⟨⟨hlog, hnil, rfl, rfl, rfl, rfl, rfl, id, fun h _ => h (.inr (.inl hclosed))⟩, hstill, rfl, rfl⟩,
          .inr ⟨reason, rfl⟩⟩
      · exact ⟨[], ⟨⟨hlog, hnil, rfl, rfl, rfl, rfl, rfl, id, fun h _ => h (.inr (.inl hclosed))⟩, hstill, rfl, rfl⟩,
          .inl rfl⟩

/-- A connection that is shut down accepts nothing. -/
theorem shutdownImpl_disabled (env : ConnectionEnv) (reason : ConnectionShutdownReason)
    (h : Closing c → c.scheduleForWriteIsEnabled = false) :
    (shutdownImpl env reason c).scheduleForWriteIsEnabled = false := by
  refine shutdownImpl_elim env reason c ?again ?first
  case again => exact fun hcalled => h (.inl hcalled)
  case first =>
    rintro - c₁ (⟨-, rfl⟩ | ⟨hclosed, rfl⟩)
    · split <;> rfl
    · have hdisabled := h (.inr (.inl hclosed))
      split <;> exact hdisabled

theorem handleIoError_still (env : ConnectionEnv) (ec : ErrorCode) (c : Connection) :
    ∃ gs, Still c (handleIoError env ec c) [] gs c.stack ∧ ShutdownFrames gs := by
  unfold handleIoError
  split
  · exact ⟨[], .refl c, .inl rfl⟩
  · exact shutdownImpl_still env _ c

/-- A write that failed: its callbacks are due, below what the shutdown has to do, and the front stays where it is. -/
structure WriteFails (c c' : Connection) (gs : List Frame) : Prop where
  log : c'.log = c.log ++ [.writeFailed c.popped]
  groups : c'.groups = c.groups
  writeQueue : c'.writeQueue = c.writeQueue
  asyncWrite : c'.asyncWrite = c.asyncWrite
  popped : c'.popped = c.popped
  stack : c'.stack = gs ++ .runCallbacks .ioError (front c.writeQueue).sendCompletionCbs :: c.stack
  frames : ShutdownFrames gs

theorem afterWrite_fails (env : ConnectionEnv) (ec : ErrorCode) (c : Connection) :
    ∃ gs, WriteFails c (afterWrite env (some ec) c) gs := by
  obtain ⟨gs, hstill, hgs⟩ := handleIoError_still env ec
    (({ c with timeoutKey := c.timeoutKey + 1 }.emit (.writeFailed c.popped)).push
      (.runCallbacks .ioError (front c.writeQueue).sendCompletionCbs))
  have hsame := hstill.same
  exact ⟨gs, hsame.log.trans (List.append_nil _), hstill.groups, hsame.writeQueue, hsame.asyncWrite, hsame.popped,
    hstill.stack, hgs⟩

theorem SameStream.trans {c'' : Connection} {evs evs' : List Event} (h : SameStream c c' evs)
    (h' : SameStream c' c'' evs') :
    SameStream c c'' (evs ++ evs') := by
  refine ⟨?_, ?_, h'.writeQueue.trans h.writeQueue, h'.running.trans h.running, h'.asyncWrite.trans h.asyncWrite,
    h'.destroyed.trans h.destroyed, h'.popped.trans h.popped, fun hoff => h'.disabled (h.disabled hoff),
    fun hclosed => h'.closed (h.closed hclosed)⟩
  · rw [h'.log, h.log, List.append_assoc]
  · intro ev hev
    exact (List.mem_append.1 hev).elim (h.inert ev) (h'.inert ev)

/-- Two of these, the first of which leaves the stack as it is. -/
theorem Still.trans {c'' : Connection} {evs evs' : List Event} {gs base : List Frame} (h : Still c c' evs [] base)
    (h' : Still c' c'' evs' gs base) : Still c c'' (evs ++ evs') gs base := by
  refine ⟨h.same.trans h'.same, ?_, h'.groups.trans h.groups, h'.stack⟩
  intro ev hev
  exact (List.mem_append.1 hev).elim (h.still ev) (h'.still ev)

/-! ## Frames that have nothing to do with sending -/

/-- A frame that a bystander puts on the stack: another one, whose calls, if it makes some, came
with the step, or the next call of a callback. -/
def Pushed (f : Frame) (i : Input) (g : Frame) : Prop :=
  (g.isBystander = true ∧ ∀ calls, g = .reaction calls → i = .calls calls ∨ ∃ call, f = .reaction (call :: calls)) ∨
    ∃ call calls, f = .reaction (call :: calls) ∧ g = .call call

theorem ShutdownFrames.pushed {gs : List Frame} (h : ShutdownFrames gs) (f : Frame) (i : Input) :
    ∀ g ∈ gs, Pushed f i g := by
  rcases h with rfl | ⟨reason, rfl⟩
  · simp
  · simp [Pushed, Frame.isBystander]

theorem Still.push {evs : List Event} {gs : List Frame} (h : Still c c' evs gs c.stack) (f : Frame) :
    Still (c.push f) c' evs gs c.stack := by
  refine ⟨⟨h.same.log, h.same.inert, h.same.writeQueue, h.same.running, h.same.asyncWrite, h.same.destroyed,
    h.same.popped, h.same.disabled, fun hclosed => h.same.closed fun hclosing => hclosed ?_⟩, h.still, h.groups,
    h.stack⟩
  exact hclosing.imp_right fun hclosing => hclosing.imp_right (List.mem_cons_of_mem f)

/-- A call that sends nothing. -/
theorem exec_still (env : ConnectionEnv) (c : Connection) {call : Call} (hcall : ∀ s, call ≠ .send s) :
    ∃ gs, Still c (exec env c call) [] gs c.stack ∧ ShutdownFrames gs := by
  have hreads : ∀ readIsEnabled readsInFlight,
      ∃ gs, Still c { c with readIsEnabled, readsInFlight } [] gs c.stack ∧ ShutdownFrames gs := by
    intro readIsEnabled readsInFlight
    exact ⟨[], still_of_update [] readIsEnabled readsInFlight (List.append_nil _).symm (by simp) (fun _ h => h)
      (by simp), .inl rfl⟩
  cases call with
  | send s => exact absurd rfl (hcall s)
  | shutdown => exact shutdownImpl_still env _ c
  | startReading =>
    simp only [exec, startReading]
    split
    · exact hreads _ _
    · exact hreads _ _
  | stopReading => exact hreads _ _

theorem continues_still {f : Frame} {i : Input} (hf : f.isBystander = true) (h : Continues env c f i c') :
    ∃ evs gs, Still (c.push f) c' evs gs c.stack ∧ ∀ g ∈ gs, Pushed f i g := by
  have hmem : ∀ g ∈ c.stack, g ∈ (c.push f).stack := fun g hg => List.mem_cons_of_mem f hg
  have hframes : ∀ (gs : List Frame), (∀ g ∈ gs, g ≠ .markShutdown) → (∀ g ∈ gs, Pushed f i g) →
      ∃ evs gs', Still (c.push f) { c with stack := gs ++ c.stack } evs gs' c.stack ∧ ∀ g ∈ gs', Pushed f i g := by
    intro gs hgs hpushed
    exact ⟨[], gs, still_of_update (c := c.push f) gs c.readIsEnabled c.readsInFlight (List.append_nil _).symm
      (by simp) hmem hgs, hpushed⟩
  have hevent : ∀ (ev : Event) (gs : List Frame), ev.isStill = true → (∀ g ∈ gs, g ≠ .markShutdown) →
      (∀ g ∈ gs, Pushed f i g) → ∃ evs gs',
        Still (c.push f) { c with log := c.log ++ [ev], stack := gs ++ c.stack } evs gs' c.stack ∧
          ∀ g ∈ gs', Pushed f i g := by
    intro ev gs hev hgs hpushed
    refine ⟨[ev], gs, still_of_update (c := c.push f) gs c.readIsEnabled c.readsInFlight rfl ?_ hmem hgs, hpushed⟩
    intro ev' hev'
    rw [List.mem_singleton.1 hev']
    exact hev
  cases h with
  | call call =>
    have hcall : ∀ s, call ≠ .send s := by
      rintro s rfl
      cases hf
    obtain ⟨gs, hstill, hgs⟩ := exec_still env c hcall
    exact ⟨[], gs, hstill.push _, hgs.pushed _ _⟩
  | shutdownHandler reason cs => exact hevent _ [.reaction cs] rfl (by simp) (by simp [Pushed, Frame.isBystander])
  | markShutdown =>
    -- the frame itself said that the shutdown had begun
    exact ⟨[], [], ⟨⟨(List.append_nil _).symm, by simp, rfl, rfl, rfl, rfl, rfl, id,
      fun h _ => h (.inr (.inr (List.mem_cons_self ..)))⟩, by simp, rfl, rfl⟩, by simp⟩
  | inputHandler cs => exact hevent _ [.reaction cs] rfl (by simp) (by simp [Pushed, Frame.isBystander])
  | afterInput =>
    unfold afterInput
    split
    · exact ⟨[], [], still_of_update (c := c.push .afterInput) [] c.readIsEnabled (c.readsInFlight + 1)
        (List.append_nil _).symm (by simp) hmem (by simp), by simp⟩
    · exact hframes [] (by simp) (by simp)
  | reactionDone => exact hframes [] (by simp) (by simp)
  | reaction call calls =>
    exact hframes [.call call, .reaction calls] (by simp) (by simp [Pushed, Frame.isBystander])
  | incBytesTxSync n => exact hevent _ [] rfl (by simp) (by simp)
  | incBytesTxAsync n => exact hevent _ [] rfl (by simp) (by simp)
  | _ => cases hf

/-! ## All steps -/

/-- What a frame does when it goes on. -/
inductive Resumes (env : ConnectionEnv) (c : Connection) : Frame → Input → Connection → Prop
  | bystander {f : Frame} {i : Input} {c' : Connection} {evs : List Event} {gs : List Frame}
    (isBystander : f.isBystander = true)
    (still : Still (c.push f) c' evs gs c.stack) (pushed : ∀ g ∈ gs, Pushed f i g) : Resumes env c f i c'
  | send (s : SendCall) : Resumes env c (.call (.send s)) .none (scheduleSend s c)
  | append (bufs : List Bytes) (beAggressive : Bool) (id : Nat) (cb : Bool) :
    Resumes env c (.append bufs beAggressive id cb) .none (append env bufs beAggressive id cb c)
  | aggressiveWrite (buf : Bytes) (bufs : List Bytes) (id : Nat) (cb : Bool) (r : WriteResult)
    (possible : r.PossibleSync buf.length) :
    Resumes env c (.aggressiveWrite buf bufs id cb) (.result r) (aggressiveWritten env buf bufs id cb r c)
  | initiateWrite : Resumes env c .initiateWrite .none (initiateWriteIfNecessary env c)
  | syncWrite (r : WriteResult) (possible : r.PossibleSync (front c.writeQueue).totalSize) :
    Resumes env c .syncWrite (.result r) (syncWritten env r c)
  | called (res : SendBuffersResult) (id : Nat) (ids : List Nat) (cs : List Call) :
    Resumes env c (.runCallbacks res (id :: ids)) (.calls cs)
      (((c.emit (.called id res)).push (.runCallbacks res ids)).push (.reaction cs))
  | callbacksDone (res : SendBuffersResult) : Resumes env c (.runCallbacks res []) .none c
  | popWritten : Resumes env c .popWritten .none (popWritten c)

/-- What a work item does when it begins. -/
inductive Begins (env : ConnectionEnv) (c : Connection) : Item → Connection → Prop
  | call (call : Call) : Begins env c (.call call) (c.push (.call call))
  | bystander {item : Item} {c' : Connection} {gs : List Frame} (still : Still c c' [] gs c.stack)
    (bystanders : ∀ g ∈ gs, g.isBystander = true ∧ ∀ calls, g ≠ .reaction calls) : Begins env c item c'
  | asyncWrite (bufs : List Bytes) (r : WriteResult) (inFlight : c.asyncWrite = some bufs)
    (possible : r.PossibleAsync (bufs.map List.length).sum) :
    Begins env c (.asyncWriteDone r) (asyncWritten env bufs r c)
  | destroy (transferred : Nat) : Begins env c (.destroy transferred) (destroy transferred c)

theorem resumes_of_continues {f : Frame} {i : Input} (h : Continues env c f i c') : Resumes env c f i c' := by
  by_cases hbystander : f.isBystander = true
  · obtain ⟨evs, gs, hstill, hgs⟩ := continues_still hbystander h
    exact .bystander hbystander hstill hgs
  cases h with
  | call call =>
    cases call with
    | send s => exact .send s
    | _ => exact absurd rfl hbystander
  | append bufs beAggressive id cb => exact .append bufs beAggressive id cb
  | aggressiveWrite buf bufs id cb r possible => exact .aggressiveWrite buf bufs id cb r possible
  | initiateWrite => exact .initiateWrite
  | syncWrite r possible => exact .syncWrite r possible
  | callbacksDone res => exact .callbacksDone res
  | called res id ids cs => exact .called res id ids cs
  | popWritten => exact .popWritten
  | _ => exact absurd rfl hbystander

theorem ShutdownFrames.noReaction {gs : List Frame} (h : ShutdownFrames gs) :
    ∀ g ∈ gs, g.isBystander = true ∧ ∀ calls, g ≠ .reaction calls := by
  rcases h with rfl | ⟨reason, rfl⟩
  · simp
  · simp [Frame.isBystander]

theorem begins_of_enters {item : Item} (h : Enters env c item c') : Begins env c item c' := by
  have hlog := (List.append_nil c.log).symm
  have hread : ∀ gs : List Frame, (∀ f ∈ gs, f ≠ .markShutdown) →
      Still c { c with readsInFlight := c.readsInFlight - 1, stack := gs ++ c.stack } [] gs c.stack := by
    intro gs hgs
    exact still_of_update gs c.readIsEnabled _ hlog (by simp) (fun _ h => h) hgs
  cases h with
  | call call => exact .call call
  | asyncWriteDone bufs r inFlight possible => exact .asyncWrite bufs r inFlight possible
  | readFailed ec inFlight =>
    obtain ⟨gs, hstill, hgs⟩ := handleIoError_still env ec { c with readsInFlight := c.readsInFlight - 1 }
    exact .bystander ((hread [] (by simp)).trans hstill) hgs.noReaction
  | read inFlight => exact .bystander (hread [.inputHandler, .afterInput] (by simp)) (by simp [Frame.isBystander])
  | timedOut timeoutKey current =>
    obtain ⟨gs, hstill, hgs⟩ := shutdownImpl_still env .writeTimeout c
    exact .bystander hstill hgs.noReaction
  | late timeoutKey outdated => exact .bystander (.refl c) (by simp)
  | destroy transferred => exact .destroy transferred

/-- A step begins a work item, or goes on with the frame at the top. -/
theorem step_cases {i : Input} (h : step env c i = some c') :
    (∃ item, i = .item item ∧ c.stack = [] ∧ c.destroyed = false ∧ Begins env c item c') ∨
      ∃ f c₀, c = c₀.push f ∧ Resumes env c₀ f i c' := by
  rcases step_inversion h with ⟨item, rfl, hstack, halive, henters⟩ | ⟨f, c₀, rfl, hcontinues⟩
  · exact .inl ⟨item, rfl, hstack, halive, begins_of_enters henters⟩
  · exact .inr ⟨f, c₀, rfl, resumes_of_continues hcontinues⟩

end Connection

end Opio.Net
