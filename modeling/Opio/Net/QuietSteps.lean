/-
What a connection does between the calls made on it from outside, when its callbacks make none: it
accepts nothing more, it reports its shutdown once, and the socket takes what it takes in addition
to what it took.
-/
import Opio.Net.CalmRuns
import Opio.Net.Reports
import Opio.Net.ShutdownHandler

namespace Opio.Net

open scoped List

/-- The frame begins a call or hands input over. -/
def Frame.isEntering : Frame → Bool
  | .call _ => true
  | .inputHandler => true
  | _ => false

namespace Connection

variable {env : ConnectionEnv} {c c' : Connection}

/-! ## Frames and what is accepted -/

/-- Nothing is accepted, and the frames `gs` that come on top of the others neither begin a call nor hand
input over. -/
structure Quietly (c c' : Connection) (gs base : List Frame) : Prop where
  accepted : accepted c'.log = accepted c.log
  stack : c'.stack = gs ++ base
  frames : ∀ g ∈ gs, g.isEntering = false

theorem shutdownFrames_quiet {gs : List Frame} (h : ShutdownFrames gs) : ∀ g ∈ gs, g.isEntering = false := by
  rcases h with rfl | ⟨reason, rfl⟩
  · simp
  · simp [Frame.isEntering]

/-- Events of which none accepts a group. -/
theorem quietly_of_stack {f : Frame} {evs : List Event} (gs : List Frame) (hlog : c'.log = c.log ++ evs)
    (hevs : accepted evs = []) (hstack : c'.stack = gs ++ c.stack) (hgs : ∀ g ∈ gs, g.isEntering = false) :
    Quietly (c.push f) c' gs c.stack := by
  refine ⟨?_, hstack, hgs⟩
  rw [hlog, accepted_append, hevs, List.append_nil]
  rfl

theorem Still.quietly {gs : List Frame} (h : Still c c' [] gs c.stack) (hgs : ShutdownFrames gs) :
    Quietly c c' gs c.stack := by
  refine ⟨?_, h.stack, shutdownFrames_quiet hgs⟩
  rw [h.same.log, List.append_nil]

theorem afterWrite_quietly (env : ConnectionEnv) (ec : Option ErrorCode) (c : Connection) :
    ∃ gs, Quietly c (afterWrite env ec c) gs c.stack := by
  cases ec with
  | none =>
    refine ⟨[.runCallbacks .success (front c.writeQueue).sendCompletionCbs, .popWritten], ?_, rfl,
      by simp [Frame.isEntering]⟩
    exact (accepted_append ..).trans (List.append_nil _)
  | some ec =>
    obtain ⟨gs, hfails⟩ := afterWrite_fails env ec c
    refine ⟨gs ++ [.runCallbacks .ioError (front c.writeQueue).sendCompletionCbs], ?_, ?_, ?_⟩
    · rw [hfails.log]
      exact (accepted_append ..).trans (List.append_nil _)
    · rw [hfails.stack, List.append_assoc]
      rfl
    · intro g hg
      rcases List.mem_append.1 hg with hg | hg
      · exact shutdownFrames_quiet hfails.frames g hg
      · rw [List.mem_singleton.1 hg]
        rfl

/-- The end of a write, behind a frame for the statistics and the event that the socket took something. -/
theorem afterWrite_taken_quietly (env : ConnectionEnv) (ec : Option ErrorCode) (c₁ : Connection) (f : Frame)
    (bs : Bytes) (hf : f.isEntering = false) (hlog : c₁.log = c.log ++ [.taken bs]) (hstack : c₁.stack = f :: c.stack) :
    ∃ gs, Quietly c (afterWrite env ec c₁) gs c.stack := by
  obtain ⟨gs, hquiet⟩ := afterWrite_quietly env ec c₁
  refine ⟨gs ++ [f], ?_, ?_, ?_⟩
  · rw [hquiet.accepted, hlog]
    exact accepted_taken c.log bs
  · rw [hquiet.stack, hstack, List.append_assoc]
    rfl
  · intro g hg
    rcases List.mem_append.1 hg with hg | hg
    · exact hquiet.frames g hg
    · rw [List.mem_singleton.1 hg]
      exact hf

/-- A frame other than a call of a send goes on, with no call on the list of a callback. -/
theorem continues_quietly {f : Frame} {i : Input} (hsend : ∀ s, f ≠ .call (.send s))
    (hreaction : ∀ call calls, f ≠ .reaction (call :: calls)) (h : Continues env c f i c') :
    ∃ gs, Quietly (c.push f) c' gs c.stack := by
  have hnil : c.log = c.log ++ [] := (List.append_nil _).symm
  cases h with
  | call call =>
    cases call with
    | send s => exact absurd rfl (hsend s)
    | shutdown =>
      obtain ⟨gs, hstill, hgs⟩ := shutdownImpl_still env .userInitiated c
      have hquiet := hstill.quietly hgs
      exact ⟨gs, hquiet.accepted, hquiet.stack, hquiet.frames⟩
    | startReading =>
      show ∃ gs, Quietly _ (startReading c) gs _
      unfold startReading
      split
      · exact ⟨[], quietly_of_stack [] hnil rfl rfl (by simp)⟩
      · exact ⟨[], quietly_of_stack [] hnil rfl rfl (by simp)⟩
    | stopReading => exact ⟨[], quietly_of_stack [] hnil rfl rfl (by simp)⟩
  | append bufs be id cb =>
    refine append_elim env bufs be id cb c ?delivered ?ended ?noted ?queued ?direct ?buffered
    case delivered =>
      exact fun _ _ _ => ⟨[.runCallbacks .success [id]], quietly_of_stack _ hnil rfl rfl (by simp [Frame.isEntering])⟩
    case ended => exact fun _ _ _ => ⟨[], quietly_of_stack [] hnil rfl rfl (by simp)⟩
    case noted =>
      exact fun _ _ _ => ⟨[.initiateWrite], quietly_of_stack _ hnil rfl rfl (by simp [Frame.isEntering])⟩
    case queued =>
      exact fun _ _ _ => ⟨[.initiateWrite], quietly_of_stack _ hnil rfl rfl (by simp [Frame.isEntering])⟩
    case direct =>
      intro buf rest _ _ _ _
      exact ⟨[.aggressiveWrite buf rest id cb], quietly_of_stack _ hnil rfl rfl (by simp [Frame.isEntering])⟩
    case buffered =>
      intro buf rest _ _
      exact ⟨[.append rest false id cb], quietly_of_stack _ hnil rfl rfl (by simp [Frame.isEntering])⟩
  | aggressiveWrite buf bufs id cb r possible =>
    have hlog : c.log ++ [.taken (buf.take r.transferred)] ++ [.incBytesTxSync r.transferred] =
        c.log ++ [.taken (buf.take r.transferred), .incBytesTxSync r.transferred] := by simp
    refine aggressiveWritten_elim env buf bufs id cb r c ?whole ?partly
    case whole =>
      exact fun _ => ⟨[.append bufs true id cb], quietly_of_stack _ hlog rfl rfl (by simp [Frame.isEntering])⟩
    case partly =>
      exact fun _ => ⟨[.append bufs false id cb], quietly_of_stack _ hlog rfl rfl (by simp [Frame.isEntering])⟩
  | initiateWrite =>
    refine initiateWrite_elim env c ?running ?nothing ?sync ?async
    case running => exact fun _ => ⟨[], quietly_of_stack [] hnil rfl rfl (by simp)⟩
    case nothing => exact fun _ _ => ⟨[], quietly_of_stack [] hnil rfl rfl (by simp)⟩
    case sync => exact fun _ _ _ => ⟨[.syncWrite], quietly_of_stack _ rfl rfl rfl (by simp [Frame.isEntering])⟩
    case async => exact fun _ _ => ⟨[], quietly_of_stack [] rfl rfl rfl (by simp)⟩
  | syncWrite r possible =>
    refine syncWritten_elim env possible ?completed ?blocked
    case completed =>
      intro _
      obtain ⟨gs, hquiet⟩ := afterWrite_taken_quietly (c := c) env r.ec
        ({ c.emit (.taken ((front c.writeQueue).asioBufs.flatten.take r.transferred)) with
          writeQueue := freezeFirst c.writeQueue }.push (.incBytesTxSync r.transferred))
        (.incBytesTxSync r.transferred) ((front c.writeQueue).asioBufs.flatten.take r.transferred) rfl rfl rfl
      exact ⟨gs, hquiet.accepted, hquiet.stack, hquiet.frames⟩
    case blocked => exact fun _ _ => ⟨[], quietly_of_stack [] rfl rfl rfl (by simp)⟩
  | callbacksDone res => exact ⟨[], quietly_of_stack [] hnil rfl rfl (by simp)⟩
  | called res id ids cs =>
    exact ⟨[.reaction cs, .runCallbacks res ids], quietly_of_stack _ rfl rfl rfl (by simp [Frame.isEntering])⟩
  | popWritten => exact ⟨[.initiateWrite], quietly_of_stack _ rfl rfl rfl (by simp [Frame.isEntering])⟩
  | shutdownHandler reason cs =>
    exact ⟨[.reaction cs], quietly_of_stack _ rfl rfl rfl (by simp [Frame.isEntering])⟩
  | markShutdown => exact ⟨[], quietly_of_stack [] hnil rfl rfl (by simp)⟩
  | inputHandler cs => exact ⟨[.reaction cs], quietly_of_stack _ rfl rfl rfl (by simp [Frame.isEntering])⟩
  | afterInput =>
    unfold afterInput
    split
    · exact ⟨[], quietly_of_stack [] hnil rfl rfl (by simp)⟩
    · exact ⟨[], quietly_of_stack [] hnil rfl rfl (by simp)⟩
  | reactionDone => exact ⟨[], quietly_of_stack [] hnil rfl rfl (by simp)⟩
  | reaction call calls => exact absurd rfl (hreaction call calls)
  | incBytesTxSync n => exact ⟨[], quietly_of_stack [] rfl rfl rfl (by simp)⟩
  | incBytesTxAsync n => exact ⟨[], quietly_of_stack [] rfl rfl rfl (by simp)⟩

/-- A work item that is neither a call nor the end of a read begins, and the connection is not destroyed. -/
theorem enters_quietly {item : Item} (hcall : ∀ call, item ≠ .call call) (hread : item ≠ .readDone none)
    (hdestroy : ∀ n, item ≠ .destroy n) (h : Enters env c item c') : ∃ gs, Quietly c c' gs c.stack := by
  cases h with
  | call call => exact absurd rfl (hcall call)
  | asyncWriteDone bufs r inFlight possible =>
    exact afterWrite_taken_quietly env r.ec _ (.incBytesTxAsync r.transferred) (bufs.flatten.take r.transferred) rfl
      rfl rfl
  | readFailed ec inFlight =>
    obtain ⟨gs, hstill, hgs⟩ := handleIoError_still env ec { c with readsInFlight := c.readsInFlight - 1 }
    have hquiet := hstill.quietly hgs
    exact ⟨gs, hquiet.accepted, hquiet.stack, hquiet.frames⟩
  | read inFlight => exact absurd rfl hread
  | timedOut timeoutKey current =>
    obtain ⟨gs, hstill, hgs⟩ := shutdownImpl_still env .writeTimeout c
    exact ⟨gs, hstill.quietly hgs⟩
  | late timeoutKey outdated => exact ⟨[], rfl, rfl, by simp⟩
  | destroy n => exact absurd rfl (hdestroy n)

/-! ## What is accepted no longer -/

theorem shutdownImpl_accepts (env : ConnectionEnv) (reason : ConnectionShutdownReason) (c : Connection) :
    (shutdownImpl env reason c).scheduleForWriteIsEnabled = true → c.scheduleForWriteIsEnabled = true := by
  refine shutdownImpl_elim env reason c ?again ?first
  case again => exact fun _ h => h
  case first =>
    rintro - c₁ (⟨-, rfl⟩ | ⟨-, rfl⟩) h
    · split at h <;> cases h
    · split at h <;> exact h

theorem handleIoError_accepts (env : ConnectionEnv) (ec : ErrorCode) (c : Connection) :
    (handleIoError env ec c).scheduleForWriteIsEnabled = true → c.scheduleForWriteIsEnabled = true := by
  unfold handleIoError
  split
  · exact fun h => h
  · exact shutdownImpl_accepts env _ c

theorem afterWrite_accepts (env : ConnectionEnv) (ec : Option ErrorCode) (c : Connection) :
    (afterWrite env ec c).scheduleForWriteIsEnabled = true → c.scheduleForWriteIsEnabled = true := by
  cases ec with
  | none => exact fun h => h
  | some ec => exact handleIoError_accepts env ec _

/-- A connection that has stopped accepting does not start again. -/
theorem accepts_of_step {i : Input} (hstep : step env c i = some c') (h : c'.scheduleForWriteIsEnabled = true) :
    c.scheduleForWriteIsEnabled = true := by
  rcases step_inversion hstep with ⟨item, rfl, -, -, henters⟩ | ⟨f, c₀, rfl, hcontinues⟩
  · cases henters with
    | call call => exact h
    | asyncWriteDone bufs r inFlight possible => exact (afterWrite_accepts env r.ec _ h :)
    | readFailed ec inFlight => exact (handleIoError_accepts env ec _ h :)
    | read inFlight => exact h
    | timedOut timeoutKey current => exact shutdownImpl_accepts env .writeTimeout c h
    | late timeoutKey outdated => exact h
    | destroy n =>
      have hsame : (destroy n c).scheduleForWriteIsEnabled = c.scheduleForWriteIsEnabled := by
        unfold destroy handleRemainigWriteQueue
        cases c.asyncWrite <;> dsimp only <;> split <;> rfl
      exact hsame ▸ h
  · show c₀.scheduleForWriteIsEnabled = true
    cases hcontinues with
    | call call =>
      cases call with
      | send s =>
        change (scheduleSend s c₀).scheduleForWriteIsEnabled = true at h
        revert h
        refine scheduleSend_elim s c₀ ?accepted ?rejected ?ignored
        case accepted => exact fun _ h => h
        case rejected => exact fun _ _ _ h => h
        case ignored => exact fun _ _ h => h
      | shutdown => exact shutdownImpl_accepts env .userInitiated c₀ h
      | startReading =>
        unfold exec startReading at h
        dsimp only at h
        split at h <;> exact h
      | stopReading => exact h
    | append bufs be id cb =>
      revert h
      refine append_elim env bufs be id cb c₀ ?delivered ?ended ?noted ?queued ?direct ?buffered
      case delivered => exact fun _ _ _ h => h
      case ended => exact fun _ _ _ h => h
      case noted => exact fun _ _ _ h => h
      case queued => exact fun _ _ _ h => h
      case direct => exact fun _ _ _ _ _ _ h => h
      case buffered => exact fun _ _ _ _ h => h
    | aggressiveWrite buf bufs id cb r possible =>
      revert h
      refine aggressiveWritten_elim env buf bufs id cb r c₀ ?whole ?partly
      case whole => exact fun _ h => h
      case partly => exact fun _ h => h
    | initiateWrite =>
      revert h
      refine initiateWrite_elim env c₀ ?running ?nothing ?sync ?async
      case running => exact fun _ h => h
      case nothing => exact fun _ _ h => h
      case sync => exact fun _ _ _ h => h
      case async => exact fun _ _ h => h
    | syncWrite r possible =>
      revert h
      refine syncWritten_elim env possible ?completed ?blocked
      case completed => exact fun _ h => (afterWrite_accepts env r.ec _ h :)
      case blocked => exact fun _ _ h => h
    | afterInput =>
      unfold afterInput at h
      split at h <;> exact h
    | _ => exact h

/-! ## A connection that is driven from outside alone -/

/-- What comes from outside other than a call, what was read, and the destruction: the results of writes,
failed reads, timeouts, and that a callback makes no calls. -/
def Input.isInner : Input → Bool
  | .item (.call _) => false
  | .item (.readDone .none) => false
  | .item (.destroy _) => false
  | .calls cs => cs.isEmpty
  | _ => true

theorem Input.callsNothing_of_isInner {i : Input} (h : i.isInner = true) : i.callsNothing = true := by
  cases i with
  | calls cs => exact h
  | _ => rfl

theorem Input.ne_destroy_of_isInner {i : Input} (h : i.isInner = true) (n : Nat) : i ≠ .item (.destroy n) := by
  rintro rfl
  cases h

/-- A connection whose callbacks make no calls, between the steps of a call. -/
structure Driven (c : Connection) : Prop where
  calm : Calm c
  stands : Stands c
  noCall : ∀ call, c.stack.head? ≠ some (.call call)
  below : ∀ g ∈ c.stack.tail, g.isEntering = false

theorem driven_init : Driven {} := ⟨calm_init, stands_init, by simp, by simp⟩

/-- The bytes that a call hands over. -/
def acceptedBy (c : Connection) : Call → Bytes
  | .send s => if c.scheduleForWriteIsEnabled then s.bufs.flatten else []
  | _ => []

theorem driven_of_stack (hcalm : Calm c) (hstands : Stands c) (h : ∀ g ∈ c.stack, g.isEntering = false) : Driven c := by
  refine ⟨hcalm, hstands, fun call hhead => ?_, fun g hg => h g (List.mem_of_mem_tail hg)⟩
  cases h _ (List.mem_of_head? hhead)

/-- What the socket took stays taken. -/
theorem taken_grows {i : Input} (hi : ∀ n, i ≠ .item (.destroy n)) (hstep : step env c i = some c') :
    taken c.log <+: taken c'.log := by
  obtain ⟨evs, hreports⟩ := step_reports hi hstep
  rw [hreports.log, taken_append]
  exact List.prefix_append _ _

theorem step_driven {i : Input} (h : Driven c) (hi : i.callsNothing = true) (hdestroy : ∀ n, i ≠ .item (.destroy n))
    (hstep : step env c i = some c') : Calm c' ∧ Stands c' :=
  ⟨step_calm h.calm hi hstep, step_stands h.stands (h.calm.overtakesNothing i) hdestroy hstep⟩

/-- From one call to the next nothing is accepted, and what has begun goes on. -/
theorem Driven.inner {i : Input} (h : Driven c) (hi : i.isInner = true) (hstep : step env c i = some c') :
    Driven c' ∧ accepted c'.log = accepted c.log ∧ ∀ g ∈ c'.stack, g.isEntering = false := by
  have hframes : accepted c'.log = accepted c.log ∧ ∀ g ∈ c'.stack, g.isEntering = false := by
    rcases step_inversion hstep with ⟨item, rfl, hstack, -, henters⟩ | ⟨f, c₀, rfl, hcontinues⟩
    · obtain ⟨gs, hquiet⟩ := enters_quietly (by rintro call rfl; cases hi) (by rintro rfl; cases hi)
        (by rintro n rfl; cases hi) henters
      refine ⟨hquiet.accepted, fun g hg => ?_⟩
      rw [hquiet.stack, hstack, List.append_nil] at hg
      exact hquiet.frames g hg
    · obtain ⟨gs, hquiet⟩ := continues_quietly (fun s hf => h.noCall (.send s) (by rw [hf]; rfl))
        (fun call calls hf => by
          have hnil := h.calm.silent (call :: calls) (by rw [hf]; exact List.mem_cons_self ..)
          cases hnil) hcontinues
      refine ⟨hquiet.accepted, fun g hg => ?_⟩
      rw [hquiet.stack] at hg
      exact (List.mem_append.1 hg).elim (hquiet.frames g) (h.below g)
  obtain ⟨hcalm, hstands⟩ :=
    step_driven h (Input.callsNothing_of_isInner hi) (Input.ne_destroy_of_isInner hi) hstep
  exact ⟨driven_of_stack hcalm hstands hframes.2, hframes⟩

/-- A call that begins is carried out up to the first point where something comes in. -/
theorem Driven.takesCall {call : Call} {c₁ : Connection} (h : Driven c)
    (hbegin : step env c (.item (.call call)) = some c₁) (hstep : step env c₁ .none = some c') :
    c.stack = [] ∧ c' = exec env c call ∧ Driven c' ∧ accepted c'.log = accepted c.log ++ acceptedBy c call ∧
      ∀ g ∈ c'.stack, g.isEntering = false := by
  obtain ⟨hcalm₁, hstands₁⟩ := step_driven h rfl (by simp) hbegin
  have hcalm := step_calm hcalm₁ rfl hstep
  have hstands := step_stands hstands₁ (hcalm₁.overtakesNothing _) (by simp) hstep
  obtain ⟨hstack, -, henters⟩ := enters_of_step hbegin
  cases henters with
  | call call =>
    have hexec : c' = exec env c call := (Option.some.inj hstep).symm
    have hother : (∀ s, call ≠ .send s) → ∃ gs, Quietly (c.push (.call call)) (exec env c call) gs c.stack := fun hne =>
      continues_quietly (fun s hf => hne s (Frame.call.inj hf)) (by simp) (.call call)
    have hframes : accepted c'.log = accepted c.log ++ acceptedBy c call ∧ ∀ g ∈ c'.stack, g.isEntering = false := by
      cases call with
      | send s =>
        rw [hexec]
        show accepted (scheduleSend s c).log = _ ∧ ∀ g ∈ (scheduleSend s c).stack, _
        refine scheduleSend_elim s c ?accepted ?rejected ?ignored
        case accepted =>
          intro henabled
          refine ⟨(accepted_append ..).trans ?_, by simp [push, emit, hstack, Frame.isEntering]⟩
          simp [acceptedBy, henabled, accepted, Event.acceptedBytes]
        case rejected =>
          intro hdisabled _ _
          refine ⟨(accepted_append ..).trans ?_, by simp [push, emit, hstack, Frame.isEntering]⟩
          simp [acceptedBy, hdisabled, accepted, Event.acceptedBytes]
        case ignored =>
          intro hdisabled _
          refine ⟨(accepted_append ..).trans ?_, by simp [emit, hstack]⟩
          simp [acceptedBy, hdisabled, accepted, Event.acceptedBytes]
      | _ =>
        obtain ⟨gs, hquiet⟩ := hother (by simp)
        rw [hexec]
        refine ⟨hquiet.accepted.trans (List.append_nil _).symm, fun g hg => ?_⟩
        rw [hquiet.stack, hstack, List.append_nil] at hg
        exact hquiet.frames g hg
    exact ⟨hstack, hexec, driven_of_stack hcalm hstands hframes.2, hframes⟩

/-- A read that is done waits for the input handler. -/
theorem Driven.reads (h : Driven c) (hstep : step env c (.item (.readDone none)) = some c') :
    c.stack = [] ∧ c'.stack = [.inputHandler, .afterInput] ∧ c'.log = c.log ∧ Driven c' := by
  obtain ⟨hcalm, hstands⟩ := step_driven h rfl (by simp) hstep
  obtain ⟨hstack, -, henters⟩ := enters_of_step hstep
  cases henters with
  | read inFlight =>
    refine ⟨hstack, ?_, rfl, hcalm, hstands, by simp [push], ?_⟩
    · simp [push, hstack]
    · simp [push, hstack, Frame.isEntering]

/-! ## The shutdown handler has been told -/

/-- A connection that has a shutdown handler: what stands with its shutdown, and that it was told. -/
structure Tells (c : Connection) (causes : List ConnectionShutdownReason) : Prop where
  stands : ShutdownStands c causes
  told : c.shutdownWasCalled = true → handlerCalls c.log ≠ []

theorem tells_init : Tells {} [] := ⟨.working rfl rfl (by simp) rfl rfl, by simp⟩

/-- A handler that was called had a cause to be called. -/
theorem Tells.causes_ne_nil {causes : List ConnectionShutdownReason} (h : Tells c causes)
    (hcalls : handlerCalls c.log ≠ []) : causes ≠ [] := by
  rintro rfl
  exact hcalls (List.prefix_nil.1 h.stands.once.1)

/-- Between the work items a shutdown that had a cause is over. -/
theorem Tells.called_iff {causes : List ConnectionShutdownReason} (h : Tells c causes) (hstack : c.stack = []) :
    c.shutdownWasCalled = true ↔ causes ≠ [] := by
  constructor
  · exact fun hcalled => h.causes_ne_nil (h.told hcalled)
  · intro hcauses
    cases h.stands with
    | working called opened frames calls causes => exact absurd causes hcauses
    | calling reason base called stack => rw [hstack] at stack; cases stack
    | running reason above base called stack =>
      rw [hstack] at stack
      cases above <;> cases stack
    | done called => exact called

/-- The frame that calls the handler. -/
theorem handlerCalls_of_head {i : Input} {reason : ConnectionShutdownReason}
    (hhead : c.stack.head? = some (.shutdownHandler reason)) (hstep : step env c i = some c') :
    handlerCalls c'.log ≠ [] := by
  rcases step_inversion hstep with ⟨item, rfl, hstack, -, henters⟩ | ⟨f, c₀, rfl, hcontinues⟩
  · rw [hstack] at hhead
    cases hhead
  · obtain rfl : f = .shutdownHandler reason := Option.some.inj hhead
    cases hcontinues with
    | shutdownHandler reason cs =>
      show handlerCalls (c₀.log ++ [.shutdownHandlerCalled reason]) ≠ []
      rw [handlerCalls_append]
      exact List.append_ne_nil_of_right_ne_nil _ (List.cons_ne_nil _ _)

theorem shutdownImpl_tells (hhandler : env.hasShutdownHandler = true) (reason : ConnectionShutdownReason)
    (c : Connection) : (shutdownImpl env reason c).shutdownWasCalled = c.shutdownWasCalled ∧
      handlerCalls (shutdownImpl env reason c).log = handlerCalls c.log := by
  refine shutdownImpl_elim env reason c ?again ?first
  case again => exact fun _ => ⟨rfl, rfl⟩
  case first =>
    rintro - c₁ (⟨-, rfl⟩ | ⟨-, rfl⟩)
    · rw [if_pos hhandler]
      exact ⟨rfl, rfl⟩
    · rw [if_pos hhandler]
      exact ⟨rfl, rfl⟩

/-- The handler is told in the step that calls it, and the shutdown is noted behind that. -/
theorem Tells.step {causes : List ConnectionShutdownReason} {i : Input} (h : Tells c causes)
    (hhandler : env.hasShutdownHandler = true) (hnested : ShutdownNotNested c i)
    (hdestroy : ∀ n, i ≠ .item (.destroy n)) (hstep : step env c i = some c') :
    Tells c' (causes ++ (shutdownCause c i).toList) ∧
      (handlerCalls c'.log ≠ [] →
        handlerCalls c.log ≠ [] ∨ ∃ reason, c.stack.head? = some (.shutdownHandler reason)) := by
  have hstands := step_shutdownStands h.stands hnested hstep
  have hgrows : handlerCalls c.log ≠ [] → handlerCalls c'.log ≠ [] := by
    obtain ⟨evs, hreports⟩ := step_reports hdestroy hstep
    rw [hreports.log, handlerCalls_append]
    exact fun hne => List.append_ne_nil_of_left_ne_nil hne _
  have hstays : handlerCalls c.log ≠ [] → Tells c' (causes ++ (shutdownCause c i).toList) ∧
      (handlerCalls c'.log ≠ [] → handlerCalls c.log ≠ [] ∨
        ∃ reason, c.stack.head? = some (.shutdownHandler reason)) :=
    fun hne => ⟨⟨hstands, fun _ => hgrows hne⟩, fun _ => .inl hne⟩
  cases h.stands with
  | working called opened frames calls =>
    obtain ⟨c₀, hapart, heq⟩ := step_shuts frames hstep
    have hsame : c'.shutdownWasCalled = false ∧ handlerCalls c'.log = [] := by
      cases hcause : shutdownCause c i with
      | none =>
        rw [hcause] at heq
        rw [heq]
        exact ⟨hapart.called.trans called, hapart.calls.trans calls⟩
      | some reason =>
        rw [hcause] at heq
        obtain ⟨hcalled, hcalls⟩ := shutdownImpl_tells hhandler reason c₀
        rw [heq]
        exact ⟨hcalled.trans (hapart.called.trans called), hcalls.trans (hapart.calls.trans calls)⟩
    refine ⟨⟨hstands, fun hcalled => ?_⟩, fun hne => absurd hsame.2 hne⟩
    rw [hsame.1] at hcalled
    cases hcalled
  | calling reason base called stack =>
    have hhead : c.stack.head? = some (.shutdownHandler reason) := by rw [stack]; rfl
    exact ⟨⟨hstands, fun _ => handlerCalls_of_head hhead hstep⟩, fun _ => .inr ⟨reason, hhead⟩⟩
  | running reason above base called stack inHandler frames calls => exact hstays (by rw [calls]; simp)
  | done called => exact hstays (h.told called)

end Connection

end Opio.Net
