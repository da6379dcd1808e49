/-
The shutdown handler. That it was called is noted only once it has returned, so that a shutdown from
within the handler calls it again, and so on. In a run in which that does not happen it is called
once at most, with the first of the causes.
-/
import Opio.Lib.Runs
import Opio.Net.Bystanders

namespace Opio.Net

/-- The shutdown handler is to be called, or runs. -/
def Frame.isShutdown : Frame → Bool
  | .shutdownHandler _ => true
  | .markShutdown => true
  | _ => false

/-- What is left to do while the shutdown handler runs. -/
def Frame.isInHandler : Frame → Bool
  | .call _ => true
  | .reaction _ => true
  | .runCallbacks _ _ => true
  | _ => false

def Event.handlerCall? : Event → Option ConnectionShutdownReason
  | .shutdownHandlerCalled reason => some reason
  | _ => none

/-- The calls of the shutdown handler. -/
def handlerCalls (log : List Event) : List ConnectionShutdownReason := log.filterMap Event.handlerCall?

@[simp] theorem handlerCalls_append (log evs : List Event) :
    handlerCalls (log ++ evs) = handlerCalls log ++ handlerCalls evs := List.filterMap_append

namespace Connection

variable {env : ConnectionEnv} {c c' : Connection}

/-! ## Causes -/

/-- An error that shuts the connection down. -/
def errorCause (ec : ErrorCode) : Option ConnectionShutdownReason :=
  if ec = .operationAborted then none else some (if ec = .eof then .eof else .ioError)

/-- The cause for a shutdown that comes with the input: the user, an error of a read or a write, or the
write timeout. -/
def shutdownCause (c : Connection) (i : Input) : Option ConnectionShutdownReason :=
  match c.stack, i with
  | .call .shutdown :: _, .none => some .userInitiated
  | .syncWrite :: _, .result r => if r.ec = some .wouldBlock then none else r.ec.bind errorCause
  | [], .item (.asyncWriteDone r) => r.ec.bind errorCause
  | [], .item (.readDone ec) => ec.bind errorCause
  | [], .item (.writeTimeout timeoutKey) =>
    if c.isWriteOperationRunning ∧ timeoutKey = c.timeoutKey then some .writeTimeout else none
  | _, _ => none

/-- No shutdown is asked for while the shutdown handler runs. -/
def ShutdownNotNested (c : Connection) (_ : Input) : Prop :=
  .markShutdown ∈ c.stack → c.stack.head? ≠ some (.call .shutdown)

instance (c : Connection) (i : Input) : Decidable (ShutdownNotNested c i) := by
  unfold ShutdownNotNested
  infer_instance

/-- The state differs in nothing that has to do with the shutdown. -/
structure Apart (c c' : Connection) : Prop where
  called : c'.shutdownWasCalled = c.shutdownWasCalled
  opened : c'.socketIsOpen = c.socketIsOpen
  calls : handlerCalls c'.log = handlerCalls c.log
  frames : ∀ f ∈ c'.stack, f.isShutdown = true → f ∈ c.stack

/-- The shutdown with this cause, if there is one, and nothing else that has to do with it. -/
def Shuts (env : ConnectionEnv) (cause : Option ConnectionShutdownReason) (c c' : Connection) : Prop :=
  ∃ c₀, Apart c c₀ ∧ c' = match cause with
    | some reason => shutdownImpl env reason c₀
    | none => c₀

theorem shuts_of_apart (h : Apart c c') : Shuts env none c c' := ⟨c', h, rfl⟩

/-- Frames come in the place of a frame, none of which shuts down. -/
theorem apart_of_stack {f : Frame} {evs : List Event} (gs : List Frame)
    (hcalled : c'.shutdownWasCalled = c.shutdownWasCalled) (hopened : c'.socketIsOpen = c.socketIsOpen)
    (hlog : c'.log = c.log ++ evs) (hcalls : handlerCalls evs = []) (hstack : c'.stack = gs ++ c.stack)
    (hgs : ∀ g ∈ gs, g.isShutdown = false) : Apart (c.push f) c' := by
  refine ⟨hcalled, hopened, ?_, fun g hg hshutdown => ?_⟩
  · rw [hlog, handlerCalls_append, hcalls, List.append_nil]
    rfl
  · rw [hstack] at hg
    rcases List.mem_append.1 hg with hg | hg
    · rw [hgs g hg] at hshutdown
      cases hshutdown
    · exact List.mem_cons_of_mem f hg

theorem handleIoError_eq (env : ConnectionEnv) (ec : ErrorCode) (c : Connection) : handleIoError env ec c =
    match errorCause ec with
    | some reason => shutdownImpl env reason c
    | none => c := by
  unfold handleIoError errorCause
  split <;> rfl

theorem afterWrite_shuts (env : ConnectionEnv) (ec : Option ErrorCode) (c : Connection) :
    Shuts env (ec.bind errorCause) c (afterWrite env ec c) := by
  cases ec with
  | none =>
    refine shuts_of_apart ⟨rfl, rfl, ?_, fun f hf hshutdown => ?_⟩
    · exact (handlerCalls_append ..).trans (List.append_nil _)
    · rcases List.mem_cons.1 hf with rfl | hf
      · cases hshutdown
      rcases List.mem_cons.1 hf with rfl | hf
      · cases hshutdown
      · exact hf
  | some ec =>
    refine ⟨_, ⟨?_, ?_, ?_, ?_⟩, handleIoError_eq env ec _⟩
    · rfl
    · rfl
    · exact (handlerCalls_append ..).trans (List.append_nil _)
    · intro f hf hshutdown
      rcases List.mem_cons.1 hf with rfl | hf
      · cases hshutdown
      · exact hf

theorem Shuts.of_apart {c₁ : Connection} {cause : Option ConnectionShutdownReason} (h : Apart c c₁)
    (h₁ : Shuts env cause c₁ c') : Shuts env cause c c' := by
  obtain ⟨c₀, hapart, heq⟩ := h₁
  exact ⟨c₀, ⟨hapart.called.trans h.called, hapart.opened.trans h.opened, hapart.calls.trans h.calls,
    fun f hf hshutdown => h.frames f (hapart.frames f hf hshutdown) hshutdown⟩, heq⟩

/-! ## Steps -/

theorem scheduleSend_apart (s : SendCall) (f : Frame) : Apart (c.push f) (scheduleSend s c) := by
  refine scheduleSend_elim s c ?accepted ?rejected ?ignored
  case accepted =>
    intro _
    exact apart_of_stack [.append s.bufs true c.groups s.cb] rfl rfl rfl rfl rfl (by simp [Frame.isShutdown])
  case rejected =>
    intro _ _ _
    exact apart_of_stack [.runCallbacks .rejectedScheduleSend [c.groups]] rfl rfl rfl rfl rfl
      (by simp [Frame.isShutdown])
  case ignored => exact fun _ _ => apart_of_stack [] rfl rfl rfl rfl rfl (by simp)

theorem append_apart (bufs : List Bytes) (be : Bool) (id : Nat) (cb : Bool) (f : Frame) :
    Apart (c.push f) (append env bufs be id cb c) := by
  have hnil : c.log = c.log ++ [] := (List.append_nil _).symm
  refine append_elim env bufs be id cb c ?delivered ?ended ?noted ?queued ?direct ?buffered
  case delivered =>
    intro _ _ _
    exact apart_of_stack [.runCallbacks .success [id]] rfl rfl hnil rfl rfl (by simp [Frame.isShutdown])
  case ended => exact fun _ _ _ => apart_of_stack [] rfl rfl hnil rfl rfl (by simp)
  case noted =>
    intro _ _ _
    exact apart_of_stack [.initiateWrite] rfl rfl hnil rfl rfl (by simp [Frame.isShutdown])
  case queued =>
    intro _ _ _
    exact apart_of_stack [.initiateWrite] rfl rfl hnil rfl rfl (by simp [Frame.isShutdown])
  case direct =>
    intro buf rest _ _ _ _
    exact apart_of_stack [.aggressiveWrite buf rest id cb] rfl rfl hnil rfl rfl (by simp [Frame.isShutdown])
  case buffered =>
    intro buf rest _ _
    exact apart_of_stack [.append rest false id cb] rfl rfl hnil rfl rfl (by simp [Frame.isShutdown])

theorem aggressiveWritten_apart (buf : Bytes) (bufs : List Bytes) (id : Nat) (cb : Bool) (r : WriteResult) (f : Frame) :
    Apart (c.push f) (aggressiveWritten env buf bufs id cb r c) := by
  have hlog : ∀ bs, c.log ++ [.taken bs] ++ [.incBytesTxSync r.transferred] =
      c.log ++ [.taken bs, .incBytesTxSync r.transferred] := by simp
  refine aggressiveWritten_elim env buf bufs id cb r c ?whole ?partly
  case whole =>
    intro _
    exact apart_of_stack [.append bufs true id cb] rfl rfl (hlog _) rfl rfl (by simp [Frame.isShutdown])
  case partly =>
    intro _
    exact apart_of_stack [.append bufs false id cb] rfl rfl (hlog _) rfl rfl (by simp [Frame.isShutdown])

theorem initiateWrite_apart (f : Frame) : Apart (c.push f) (initiateWriteIfNecessary env c) := by
  have hnil : c.log = c.log ++ [] := (List.append_nil _).symm
  refine initiateWrite_elim env c ?running ?nothing ?sync ?async
  case running => exact fun _ => apart_of_stack [] rfl rfl hnil rfl rfl (by simp)
  case nothing => exact fun _ _ => apart_of_stack [] rfl rfl hnil rfl rfl (by simp)
  case sync =>
    intro _ _ _
    exact apart_of_stack [.syncWrite] rfl rfl rfl rfl rfl (by simp [Frame.isShutdown])
  case async => exact fun _ _ => apart_of_stack [] rfl rfl rfl rfl rfl (by simp)

theorem syncWritten_shuts {r : WriteResult} (possible : r.PossibleSync (front c.writeQueue).totalSize) :
    Shuts env (if r.ec = some .wouldBlock then none else r.ec.bind errorCause) (c.push .syncWrite)
      (syncWritten env r c) := by
  refine syncWritten_elim env possible ?completed ?blocked
  case completed =>
    intro hec
    rw [if_neg hec]
    refine Shuts.of_apart ?_ (afterWrite_shuts env r.ec _)
    exact apart_of_stack [.incBytesTxSync r.transferred] rfl rfl rfl rfl rfl (by simp [Frame.isShutdown])
  case blocked =>
    intro hec _
    rw [if_pos hec]
    exact shuts_of_apart (apart_of_stack [] rfl rfl rfl rfl rfl (by simp))

/-- A frame other than the ones of the shutdown goes on. -/
theorem continues_shuts {f : Frame} {i : Input} (hf : f.isShutdown = false) (h : Continues env c f i c') :
    Shuts env (shutdownCause (c.push f) i) (c.push f) c' := by
  have hnil : c.log = c.log ++ [] := (List.append_nil _).symm
  cases h with
  | call call =>
    cases call with
    | shutdown => exact ⟨c, apart_of_stack [] rfl rfl hnil rfl rfl (by simp), rfl⟩
    | send s => exact shuts_of_apart (scheduleSend_apart s _)
    | startReading =>
      refine shuts_of_apart ?_
      show Apart _ (startReading c)
      unfold startReading
      split
      · exact apart_of_stack [] rfl rfl hnil rfl rfl (by simp)
      · exact apart_of_stack [] rfl rfl hnil rfl rfl (by simp)
    | stopReading => exact shuts_of_apart (apart_of_stack [] rfl rfl hnil rfl rfl (by simp))
  | append bufs be id cb => exact shuts_of_apart (append_apart bufs be id cb _)
  | aggressiveWrite buf bufs id cb r => exact shuts_of_apart (aggressiveWritten_apart buf bufs id cb r _)
  | initiateWrite => exact shuts_of_apart (initiateWrite_apart _)
  | syncWrite r possible => exact syncWritten_shuts possible
  | callbacksDone res => exact shuts_of_apart (apart_of_stack [] rfl rfl hnil rfl rfl (by simp))
  | called res id ids cs =>
    exact shuts_of_apart (apart_of_stack [.reaction cs, .runCallbacks res ids] rfl rfl rfl rfl rfl
      (by simp [Frame.isShutdown]))
  | popWritten =>
    exact shuts_of_apart (apart_of_stack [.initiateWrite] rfl rfl rfl rfl rfl (by simp [Frame.isShutdown]))
  | inputHandler cs =>
    exact shuts_of_apart (apart_of_stack [.reaction cs] rfl rfl rfl rfl rfl (by simp [Frame.isShutdown]))
  | afterInput =>
    unfold afterInput
    split
    · exact shuts_of_apart (apart_of_stack [] rfl rfl hnil rfl rfl (by simp))
    · exact shuts_of_apart (apart_of_stack [] rfl rfl hnil rfl rfl (by simp))
  | reactionDone => exact shuts_of_apart (apart_of_stack [] rfl rfl hnil rfl rfl (by simp))
  | reaction call calls =>
    exact shuts_of_apart (apart_of_stack [.call call, .reaction calls] rfl rfl hnil rfl rfl
      (by simp [Frame.isShutdown]))
  | incBytesTxSync n => exact shuts_of_apart (apart_of_stack [] rfl rfl rfl rfl rfl (by simp))
  | incBytesTxAsync n => exact shuts_of_apart (apart_of_stack [] rfl rfl rfl rfl rfl (by simp))
  | shutdownHandler reason => cases hf
  | markShutdown => cases hf

theorem destroy_apart (n : Nat) (c : Connection) : Apart c (destroy n c) := by
  have hmap : ∀ (ids : List Nat) (res : SendBuffersResult), handlerCalls (ids.map (Event.called · res)) = [] := by
    intro ids res
    refine List.filterMap_eq_nil_iff.2 fun ev hev => ?_
    obtain ⟨id, -, rfl⟩ := List.mem_map.1 hev
    rfl
  have hhandle : ∀ c₁ : Connection, c₁.shutdownWasCalled = c.shutdownWasCalled →
      handlerCalls c₁.log = handlerCalls c.log →
      c₁.stack = c.stack → c₁.socketIsOpen = c.socketIsOpen →
        Apart c { handleRemainigWriteQueue c₁ with destroyed := true } := by
    intro c₁ hcalled hlog hstack hopened
    unfold handleRemainigWriteQueue
    dsimp only
    split
    · refine ⟨hcalled, hopened, ?_, fun f hf _ => hstack ▸ hf⟩
      rw [handlerCalls_append, handlerCalls_append, hmap, hmap, List.append_nil, List.append_nil]
      exact hlog
    · exact ⟨hcalled, hopened, hlog, fun f hf _ => hstack ▸ hf⟩
  unfold destroy
  cases c.asyncWrite with
  | none => exact hhandle c rfl rfl rfl rfl
  | some bufs => exact hhandle (c.emit _) rfl ((handlerCalls_append ..).trans (List.append_nil _)) rfl rfl

theorem enters_shuts {item : Item} (hstack : c.stack = []) (h : Enters env c item c') :
    Shuts env (shutdownCause c (.item item)) c c' := by
  have hnone : ∀ f ∈ c.stack, f.isShutdown = true → f ∈ c.stack := fun f hf _ => hf
  unfold shutdownCause
  rw [hstack]
  cases h with
  | call call =>
    refine shuts_of_apart ⟨rfl, rfl, rfl, fun f hf hshutdown => ?_⟩
    rcases List.mem_cons.1 hf with rfl | hf
    · cases hshutdown
    · exact hf
  | asyncWriteDone bufs r =>
    refine Shuts.of_apart ?_ (afterWrite_shuts env r.ec _)
    refine ⟨rfl, rfl, ?_, fun f hf hshutdown => ?_⟩
    · exact (handlerCalls_append ..).trans (List.append_nil _)
    · rcases List.mem_cons.1 hf with rfl | hf
      · cases hshutdown
      · exact hf
  | readFailed ec =>
    exact ⟨{ c with readsInFlight := c.readsInFlight - 1 }, ⟨rfl, rfl, rfl, hnone⟩, handleIoError_eq env ec _⟩
  | read =>
    refine shuts_of_apart ⟨rfl, rfl, rfl, fun f hf hshutdown => ?_⟩
    rcases List.mem_cons.1 hf with rfl | hf
    · cases hshutdown
    rcases List.mem_cons.1 hf with rfl | hf
    · cases hshutdown
    · exact hf
  | timedOut timeoutKey current =>
    dsimp only
    rw [if_pos current]
    exact ⟨c, ⟨rfl, rfl, rfl, hnone⟩, rfl⟩
  | late timeoutKey outdated =>
    dsimp only
    rw [if_neg outdated]
    exact shuts_of_apart ⟨rfl, rfl, rfl, hnone⟩
  | destroy n => exact shuts_of_apart (destroy_apart n c)

/-! ## Once at most -/

/-- The handler was not called, is to be called, runs, or has run; so far the shutdown had these causes. -/
inductive ShutdownStands (c : Connection) (causes : List ConnectionShutdownReason) : Prop
  | working (called : c.shutdownWasCalled = false) (opened : c.socketIsOpen = true)
    (frames : ∀ f ∈ c.stack, f.isShutdown = false) (calls : handlerCalls c.log = []) (causes : causes = [])
  | calling (reason : ConnectionShutdownReason) (base : List Frame) (called : c.shutdownWasCalled = false)
    (stack : c.stack = .shutdownHandler reason :: .markShutdown :: base) (frames : ∀ f ∈ base, f.isShutdown = false)
    (calls : handlerCalls c.log = []) (causes : causes = [reason]) (disabled : c.scheduleForWriteIsEnabled = false)
  | running (reason : ConnectionShutdownReason) (above base : List Frame) (called : c.shutdownWasCalled = false)
    (stack : c.stack = above ++ .markShutdown :: base) (inHandler : ∀ f ∈ above, f.isInHandler = true)
    (frames : ∀ f ∈ base, f.isShutdown = false) (calls : handlerCalls c.log = [reason]) (causes : causes = [reason])
    (disabled : c.scheduleForWriteIsEnabled = false)
  | done (called : c.shutdownWasCalled = true) (frames : ∀ f ∈ c.stack, f.isShutdown = false)
    (calls : handlerCalls c.log <+: causes.take 1)

theorem Apart.frames_none (h : Apart c c') (hframes : ∀ f ∈ c.stack, f.isShutdown = false) :
    ∀ f ∈ c'.stack, f.isShutdown = false := by
  intro f hf
  by_contra hne
  have hshutdown : f.isShutdown = true := by simpa using hne
  rw [hframes f (h.frames f hf hshutdown)] at hshutdown
  cases hshutdown

/-- While the handler runs: what it does, sends and all, asks for nothing but more of the same. -/
theorem continues_inHandler {f : Frame} {i : Input} (hf : f.isInHandler = true) (hcall : f ≠ .call .shutdown)
    (hdisabled : c.scheduleForWriteIsEnabled = false) (h : Continues env c f i c') :
    ∃ gs, c'.stack = gs ++ c.stack ∧ (∀ g ∈ gs, g.isInHandler = true) ∧ c'.scheduleForWriteIsEnabled = false := by
  cases h with
  | call call =>
    cases call with
    | shutdown => exact absurd rfl hcall
    | send s =>
      show ∃ gs, (scheduleSend s c).stack = gs ++ c.stack ∧ (∀ g ∈ gs, g.isInHandler = true) ∧
        (scheduleSend s c).scheduleForWriteIsEnabled = false
      refine scheduleSend_elim s c ?accepted ?rejected ?ignored
      case accepted => exact fun henabled => absurd (henabled.symm.trans hdisabled) (by decide)
      case rejected =>
        intro _ _ _
        exact ⟨[.runCallbacks .rejectedScheduleSend [c.groups]], rfl, by simp [Frame.isInHandler], hdisabled⟩
      case ignored => exact fun _ _ => ⟨[], rfl, by simp, hdisabled⟩
    | startReading =>
      simp only [exec, startReading]
      split
      · exact ⟨[], rfl, by simp, hdisabled⟩
      · exact ⟨[], rfl, by simp, hdisabled⟩
    | stopReading => exact ⟨[], rfl, by simp, hdisabled⟩
  | reactionDone => exact ⟨[], rfl, by simp, hdisabled⟩
  | reaction call calls => exact ⟨[.call call, .reaction calls], rfl, by simp [Frame.isInHandler], hdisabled⟩
  | callbacksDone res => exact ⟨[], rfl, by simp, hdisabled⟩
  | called res id ids cs =>
    exact ⟨[.reaction cs, .runCallbacks res ids], rfl, by simp [Frame.isInHandler], hdisabled⟩
  | _ => cases hf

theorem shutdownCause_inHandler {f : Frame} {i : Input} (hf : f.isInHandler = true) (hcall : f ≠ .call .shutdown) :
    shutdownCause (c.push f) i = none := by
  cases f with
  | call call => cases call <;> first | rfl | exact absurd rfl hcall
  | _ => first | rfl | cases hf

theorem isShutdown_of_isInHandler {f : Frame} (h : f.isInHandler = true) : f.isShutdown = false := by
  cases f <;> first | rfl | cases h

/-- Before the handler is to be called, and once it has run. -/
theorem step_shuts {i : Input} (hframes : ∀ f ∈ c.stack, f.isShutdown = false) (h : step env c i = some c') :
    Shuts env (shutdownCause c i) c c' := by
  rcases step_inversion h with ⟨item, rfl, hstack, -, henters⟩ | ⟨f, c₀, rfl, hcontinues⟩
  · exact enters_shuts hstack henters
  · exact continues_shuts (hframes f (List.mem_cons_self ..)) hcontinues

/-- The first shutdown. -/
theorem shutdownImpl_first (reason : ConnectionShutdownReason) (hcalled : c.shutdownWasCalled = false)
    (hopened : c.socketIsOpen = true) (hframes : ∀ f ∈ c.stack, f.isShutdown = false)
    (hcalls : handlerCalls c.log = []) :
    ShutdownStands (shutdownImpl env reason c) [reason] := by
  refine shutdownImpl_elim env reason c ?again ?first
  case again => exact fun hcalled' => absurd (hcalled'.symm.trans hcalled) (by decide)
  case first =>
    rintro - c₁ (⟨-, rfl⟩ | ⟨hclosed, -⟩)
    · split
      · exact .calling reason c.stack hcalled rfl hframes hcalls rfl rfl
      · refine .done rfl hframes ?_
        rw [show handlerCalls _ = [] from hcalls]
        exact List.nil_prefix
    · exact absurd (hclosed.symm.trans hopened) (by decide)

/-- As long as nothing shuts the connection down the handler is not called. -/
theorem step_working {i : Input} (hcalled : c.shutdownWasCalled = false) (hopened : c.socketIsOpen = true)
    (hframes : ∀ f ∈ c.stack, f.isShutdown = false) (hcalls : handlerCalls c.log = [])
    (hstep : step env c i = some c') : ShutdownStands c' (shutdownCause c i).toList := by
  obtain ⟨c₀, hapart, rfl⟩ := step_shuts hframes hstep
  have hframes₀ := hapart.frames_none hframes
  cases shutdownCause c i with
  | none =>
    exact .working (hapart.called.trans hcalled) (hapart.opened.trans hopened) hframes₀ (hapart.calls.trans hcalls) rfl
  | some reason =>
    exact shutdownImpl_first reason (hapart.called.trans hcalled) (hapart.opened.trans hopened) hframes₀
      (hapart.calls.trans hcalls)

/-- The handler is called, whatever it does. -/
theorem step_calling {i : Input} {reason : ConnectionShutdownReason} {base : List Frame}
    (hcalled : c.shutdownWasCalled = false) (hstack : c.stack = .shutdownHandler reason :: .markShutdown :: base)
    (hframes : ∀ f ∈ base, f.isShutdown = false) (hcalls : handlerCalls c.log = [])
    (hdisabled : c.scheduleForWriteIsEnabled = false) (hstep : step env c i = some c') :
    ShutdownStands c' ([reason] ++ (shutdownCause c i).toList) := by
  have hnone : shutdownCause c i = none := by
    unfold shutdownCause
    rw [hstack]
  rw [hnone]
  unfold step at hstep
  rw [hstack] at hstep
  cases i with
  | calls cs =>
    obtain rfl := Option.some.inj hstep
    refine .running reason [.reaction cs] base hcalled rfl (by simp [Frame.isInHandler]) hframes ?_ rfl hdisabled
    exact (handlerCalls_append ..).trans (by rw [hcalls]; rfl)
  | _ => cases hstep

/-- The handler goes on: what comes above a frame of it is of the handler too. -/
theorem continues_running {i : Input} {reason : ConnectionShutdownReason} {f : Frame} {above base : List Frame}
    (hcalled : c.shutdownWasCalled = false) (hstack : c.stack = above ++ .markShutdown :: base)
    (hf : f.isInHandler = true) (hcall : f ≠ .call .shutdown) (hhandler : ∀ g ∈ above, g.isInHandler = true)
    (hframes : ∀ g ∈ base, g.isShutdown = false) (hcalls : handlerCalls c.log = [reason])
    (hdisabled : c.scheduleForWriteIsEnabled = false) (h : Continues env c f i c') :
    ShutdownStands c' ([reason] ++ (shutdownCause (c.push f) i).toList) := by
  obtain ⟨gs, hgs, hin, hoff⟩ := continues_inHandler hf hcall hdisabled h
  obtain ⟨c₀, hapart, heq⟩ := continues_shuts (isShutdown_of_isInHandler hf) h
  rw [shutdownCause_inHandler hf hcall] at heq ⊢
  obtain rfl : c' = c₀ := heq
  refine .running reason (gs ++ above) base (hapart.called.trans hcalled) ?_ ?_ hframes (hapart.calls.trans hcalls)
    rfl hoff
  · rw [List.append_assoc, ← hstack]
    exact hgs
  · intro g hg
    exact (List.mem_append.1 hg).elim (hin g) (hhandler g)

/-- The handler has returned: the connection notes that it was shut down. -/
theorem step_marks {i : Input} {reason : ConnectionShutdownReason} {base : List Frame}
    (hstack : c.stack = .markShutdown :: base) (hframes : ∀ f ∈ base, f.isShutdown = false)
    (hcalls : handlerCalls c.log = [reason]) (hstep : step env c i = some c') :
    ShutdownStands c' ([reason] ++ (shutdownCause c i).toList) := by
  have hnone : shutdownCause c i = none := by
    unfold shutdownCause
    rw [hstack]
  rw [hnone]
  unfold step at hstep
  rw [hstack] at hstep
  cases i with
  | none =>
    obtain rfl := Option.some.inj hstep
    refine .done rfl hframes ?_
    rw [show handlerCalls _ = [reason] from hcalls]
    exact List.prefix_refl _
  | _ => cases hstep

/-- From then on a shutdown does nothing. -/
theorem step_done {i : Input} {causes : List ConnectionShutdownReason} (hcalled : c.shutdownWasCalled = true)
    (hframes : ∀ f ∈ c.stack, f.isShutdown = false) (hcalls : handlerCalls c.log <+: causes.take 1)
    (hstep : step env c i = some c') : ShutdownStands c' (causes ++ (shutdownCause c i).toList) := by
  obtain ⟨c₀, hapart, rfl⟩ := step_shuts hframes hstep
  have hcalled₀ := hapart.called.trans hcalled
  have hsame : (match shutdownCause c i with
      | some reason => shutdownImpl env reason c₀
      | none => c₀) = c₀ := by
    cases shutdownCause c i with
    | none => rfl
    | some reason => exact if_pos hcalled₀
  rw [hsame]
  refine .done hcalled₀ (hapart.frames_none hframes) ?_
  rw [hapart.calls]
  refine hcalls.trans ?_
  cases causes with
  | nil => exact List.nil_prefix
  | cons reason causes => exact List.prefix_refl _

theorem step_shutdownStands {i : Input} {causes : List ConnectionShutdownReason} (h : ShutdownStands c causes)
    (hnested : ShutdownNotNested c i) (hstep : step env c i = some c') :
    ShutdownStands c' (causes ++ (shutdownCause c i).toList) := by
  cases h with
  | working called opened frames calls causes =>
    rw [causes, List.nil_append]
    exact step_working called opened frames calls hstep
  | calling reason base called stack frames calls causes disabled =>
    rw [causes]
    exact step_calling called stack frames calls disabled hstep
  | running reason above base called stack inHandler frames calls causes disabled =>
    rw [causes]
    cases above with
    | nil => exact step_marks stack frames calls hstep
    | cons f above =>
      have hcall : f ≠ .call .shutdown := by
        rintro rfl
        refine hnested ?_ (by rw [stack]; rfl)
        rw [stack]
        simp
      obtain ⟨c₁, rfl, hbelow⟩ : ∃ c₁ : Connection, c = c₁.push f ∧ c₁.stack = above ++ .markShutdown :: base :=
        ⟨{ c with stack := above ++ .markShutdown :: base }, by rw [push, ← List.cons_append, ← stack], rfl⟩
      exact continues_running called hbelow (inHandler f (List.mem_cons_self ..)) hcall
        (fun g hg => inHandler g (List.mem_cons_of_mem f hg)) frames calls disabled (continues_of_resume hstep)
  | done called frames calls => exact step_done called frames calls hstep

theorem ShutdownStands.once {causes : List ConnectionShutdownReason} (h : ShutdownStands c causes) :
    handlerCalls c.log <+: causes.take 1 ∧ c.stack.count .markShutdown ≤ 1 := by
  have hcount : ∀ fs : List Frame, (∀ f ∈ fs, f.isShutdown = false) → fs.count .markShutdown = 0 := by
    intro fs hfs
    refine List.count_eq_zero.2 fun hmem => ?_
    cases hfs _ hmem
  cases h with
  | working called opened frames calls =>
    rw [calls, hcount _ frames]
    exact ⟨List.nil_prefix, by omega⟩
  | calling reason base called stack frames calls =>
    rw [calls, stack]
    refine ⟨List.nil_prefix, ?_⟩
    rw [List.count_cons_of_ne (by simp), List.count_cons_self, hcount _ frames]
  | running reason above base called stack inHandler frames calls causes =>
    rw [calls, causes, stack, List.count_append, List.count_cons_self, hcount _ frames,
      hcount _ fun f hf => isShutdown_of_isInHandler (inHandler f hf)]
    exact ⟨List.prefix_refl _, le_refl _⟩
  | done called frames calls =>
    rw [hcount _ frames]
    exact ⟨calls, by omega⟩

/-- In every run in which no shutdown is asked for while the shutdown handler runs, the handler is called
once at most, with the first cause, and its calls are not nested. -/
theorem shutdown_handler_once (env : ConnectionEnv) (inputs : List Input) (c : Connection)
    (hnested : Along (step env) ShutdownNotNested {} inputs) (hrun : execute (step env) {} inputs = some c) :
    handlerCalls c.log <+: (collect (step env) shutdownCause {} inputs).take 1 ∧ c.stack.count .markShutdown ≤ 1 := by
  have hinit : ShutdownStands {} [] := .working rfl rfl (by simp) rfl rfl
  have h := execute_collect (fun _ _ _ _ h hi hstep => step_shutdownStands h hi hstep) inputs hinit hnested hrun
  rw [List.nil_append] at h
  exact h.once

/-- A read fails with the end of the stream, and the handler sends; later the user shuts down, too. -/
theorem shutdown_handler_once_eof : ∃ c,
    execute (step ⟨64, 64, by decide, true, false⟩) {}
      [.item (.call .startReading), .none, .item (.readDone (some .eof)), .calls [.send { bufs := [[1]] }],
        .none, .none, .none, .none, .item (.call .shutdown), .none] = some c ∧
      handlerCalls c.log = [.eof] ∧ c.stack.count .markShutdown ≤ 1 := by
  obtain ⟨c, hc, hcalls⟩ := exists_execute (step ⟨64, 64, by decide, true, false⟩) {}
    [.item (.call .startReading), .none, .item (.readDone (some .eof)), .calls [.send { bufs := [[1]] }], .none, .none,
      .none, .none, .item (.call .shutdown), .none] (fun c => handlerCalls c.log = [.eof]) (by decide +kernel)
  exact ⟨c, hc, hcalls, (shutdown_handler_once _ _ c (by decide +kernel) hc).2⟩

/-- The handler shuts the connection down itself: it is called again, with another reason. -/
theorem shutdown_handler_twice : ∃ c,
    execute (step ⟨64, 64, by decide, true, false⟩) {}
      [.item (.call .startReading), .none, .item (.readDone (some .eof)), .calls [.shutdown], .none, .none,
        .calls []] = some c ∧
      handlerCalls c.log = [.eof, .userInitiated] ∧ c.stack.count .markShutdown = 2 := by
  refine ⟨_, rfl, ?_, ?_⟩
  · decide +kernel
  · decide +kernel

/-- A handler that always shuts the connection down is called without end, one call within the other. -/
theorem shutdown_handler_recurs (env : ConnectionEnv) (hhandler : env.hasShutdownHandler = true) (n : Nat) :
    ∃ inputs c, execute (step env) {} inputs = some c ∧ (handlerCalls c.log).length = n ∧
      n < c.stack.count .markShutdown := by
  have hcall : ∀ c : Connection, c.shutdownWasCalled = false → ∃ c', exec env c .shutdown = c' ∧
      c'.stack = .shutdownHandler .userInitiated :: .markShutdown :: c.stack ∧ c'.shutdownWasCalled = false ∧
      c'.log = c.log := by
    intro c hcalled
    refine ⟨_, rfl, ?_⟩
    unfold exec shutdownImpl
    dsimp only
    rw [if_neg (by simp [hcalled]), if_pos hhandler]
    split <;> exact ⟨rfl, hcalled, rfl⟩
  suffices h : ∃ inputs c, execute (step env) {} inputs = some c ∧ (handlerCalls c.log).length = n ∧
      c.shutdownWasCalled = false ∧ ∃ reason base, c.stack = .shutdownHandler reason :: .markShutdown :: base ∧
        n ≤ base.count .markShutdown by
    obtain ⟨inputs, c, hrun, hcalls, -, reason, base, hstack, hle⟩ := h
    refine ⟨inputs, c, hrun, hcalls, ?_⟩
    rw [hstack, List.count_cons_of_ne (by simp), List.count_cons_self]
    omega
  induction n with
  | zero =>
    obtain ⟨c', hexec, hstack, hcalled, hlog⟩ := hcall {} rfl
    refine ⟨[.item (.call .shutdown), .none], c', ?_, by rw [hlog]; rfl, hcalled, _, _, hstack, Nat.zero_le _⟩
    exact congrArg some hexec
  | succ n ih =>
    obtain ⟨inputs, c, hrun, hcalls, hcalled, reason, base, hstack, hle⟩ := ih
    let c₁ : Connection := { c with
      log := c.log ++ [.shutdownHandlerCalled reason]
      stack := .reaction [] :: .markShutdown :: base }
    obtain ⟨c', hexec, hstack', hcalled', hlog⟩ := hcall c₁ hcalled
    refine ⟨inputs ++ [.calls [.shutdown], .none, .none], c', ?_, ?_, hcalled', _, _, hstack', ?_⟩
    · rw [execute_append _ hrun]
      have hreact : step env c (.calls [.shutdown]) = some { c with
          log := c.log ++ [.shutdownHandlerCalled reason]
          stack := .reaction [.shutdown] :: .markShutdown :: base } := by
        unfold step
        rw [hstack]
        rfl
      rw [execute, hreact]
      exact congrArg some hexec
    · rw [hlog]
      show (handlerCalls (c.log ++ [_])).length = n + 1
      rw [handlerCalls_append, List.length_append, hcalls]
      rfl
    · show n + 1 ≤ List.count _ (.reaction [] :: .markShutdown :: base)
      rw [List.count_cons_of_ne (by simp), List.count_cons_self]
      omega

end Connection

end Opio.Net
