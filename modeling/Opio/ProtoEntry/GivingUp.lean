/-
What gives an entry up, and what giving it up comes to. A package is handled, or its header or its
body is not accepted, or the consumer throws; each of these is said once, with the state it leaves,
and what a chunk of input does follows.
-/
import Opio.ProtoEntry.InputLoop
import Opio.ProtoEntry.RingSlots

namespace Opio.ProtoEntry

open scoped List

variable {μ : Type}

/-- What an entry does only when it is given up. -/
def Event.IsEnding : Event μ → Prop
  | .connectionShutdown => True
  | .terminate _ => True
  | .shutdownHandlerCalled _ => True
  | .inactive => True
  | _ => False

namespace ShutdownHandler

/-- The call of the handler, if there is one to be called. -/
def call (ctx : ConnectionShutdownContext) : ShutdownHandler → List (Event μ)
  | .handler => [.shutdownHandlerCalled none]
  | .handler2 => [.shutdownHandlerCalled (some ctx)]
  | _ => []

/-- The exception the call ends with when it is the last of the events. -/
def throws (env : EntryEnv μ) (evs : List (Event μ)) : ShutdownHandler → Option String
  | .handler => env.onShutdown evs
  | .handler2 => env.onShutdown evs
  | _ => none

end ShutdownHandler

namespace Entry

variable {env : EntryEnv μ} {e e' e'' : Entry μ}

/-! ## Giving up -/

/-- The entry when its shutdown handler has been called. -/
def calling (ctx : ConnectionShutdownContext) (e : Entry μ) : Entry μ :=
  { e with events := e.events ++ .terminate ctx :: e.shutdownHandler.call ctx }

/-- The entry when its shutdown handler has returned; a handler that was called before leaves the
timer alone. -/
def returned (e : Entry μ) : Entry μ :=
  { e with
    shutdownHandler := .wasCalled
    heartbeatTimer := if e.shutdownHandler = .wasCalled then e.heartbeatTimer else none }

/-- The entry when it is no longer active. -/
def deactivated (e : Entry μ) : Entry μ :=
  { e with connectionIsActive := false, events := e.events ++ [.inactive] }

/-- What becomes of an active entry that terminates: its handler throws, or it is gone. -/
def giveUp (env : EntryEnv μ) (ctx : ConnectionShutdownContext) (e : Entry μ) : EStateM.Result Stop (Entry μ) Unit :=
  match e.shutdownHandler.throws env (e.calling ctx).events with
  | some what => .error (.thrown what) (e.calling ctx)
  | none => .ok () (e.calling ctx).returned.deactivated

theorem run_visitShutdownHandler (env : EntryEnv μ) (ctx : ConnectionShutdownContext) (sh : ShutdownHandler)
    (e : Entry μ) :
    (visitShutdownHandler env ctx sh).run e =
      match sh.throws env (e.events ++ sh.call ctx) with
      | some what => .error (.thrown what) { e with events := e.events ++ sh.call ctx }
      | none => .ok () { e with
        events := e.events ++ sh.call ctx
        heartbeatTimer := if sh = .wasCalled then e.heartbeatTimer else none } := by
  have hcall : ∀ ctx', (do
      emit (.shutdownHandlerCalled ctx')
      callUser env.onShutdown
      cancelHeartbeatTimer : EntryM μ Unit).run e =
        match env.onShutdown (e.events ++ [.shutdownHandlerCalled ctx']) with
        | some what => .error (.thrown what) { e with events := e.events ++ [.shutdownHandlerCalled ctx'] }
        | none => .ok () { e with events := e.events ++ [.shutdownHandlerCalled ctx'], heartbeatTimer := none } := by
    intro ctx'
    simp only [EStateM.run_bind, emit, EStateM.run_modify, run_callUser]
    cases env.onShutdown (e.events ++ [.shutdownHandlerCalled ctx']) <;> rfl
  cases sh with
  | notSupplied =>
    simp only [ShutdownHandler.call, List.append_nil]
    rfl
  | wasCalled =>
    simp only [ShutdownHandler.call, List.append_nil]
    rfl
  | handler => exact hcall none
  | handler2 => exact hcall (some ctx)

theorem run_terminate (env : EntryEnv μ) (ctx : ConnectionShutdownContext) (hact : e.connectionIsActive = true) :
    (terminate env ctx).run e =
      match e.shutdownHandler.throws env (e.calling ctx).events with
      | some what => .error (.thrown what) (e.calling ctx)
      | none => .ok () (e.calling ctx).returned := by
  have hevs : e.events ++ [.terminate ctx] ++ e.shutdownHandler.call ctx = (e.calling ctx).events := by simp [calling]
  rw [terminate, run_bind_of_ok (EStateM.run_get e), if_neg (by simp [hact])]
  simp only [EStateM.run_bind, emit, EStateM.run_modify, EStateM.run_get, run_visitShutdownHandler, hevs]
  cases e.shutdownHandler.throws env (e.calling ctx).events <;> rfl

theorem run_handleShutdown (env : EntryEnv μ) (reason : ConnectionShutdownReason) (hact : e.connectionIsActive = true) :
    (handleShutdown env reason).run e =
      giveUp env { reason := .underlyingConnection, underlyingReason := some reason } e := by
  rw [handleShutdown, run_bind_of_ok (EStateM.run_get e), if_neg (by simp [hact]), EStateM.run_bind,
    run_terminate env _ hact, giveUp]
  cases e.shutdownHandler.throws env _ <;> rfl

/-- The entry when its connection has been shut down. -/
def shutDown (e : Entry μ) : Entry μ := { e with events := e.events ++ [.connectionShutdown] }

theorem run_shutdownAndTerminate (env : EntryEnv μ) (ctx : ConnectionShutdownContext)
    (hact : e.connectionIsActive = true) : (shutdownAndTerminate env ctx).run e = giveUp env ctx e.shutDown := by
  have hact' : e.shutDown.connectionIsActive = true := hact
  have hemit : (emit .connectionShutdown).run e = .ok () e.shutDown := rfl
  rw [shutdownAndTerminate, run_bind_of_ok (EStateM.run_get e), if_neg (by simp [hact]), run_bind_of_ok hemit,
    EStateM.run_bind, run_terminate env ctx hact', giveUp]
  cases e.shutDown.shutdownHandler.throws env (e.shutDown.calling ctx).events <;> rfl

/-! ## Going on -/

/-- The entry has read input and shown what it made of it, and nothing else. -/
structure GoesOn (e e' : Entry μ) : Prop where
  connectionIsActive : e'.connectionIsActive = e.connectionIsActive
  shutdownHandler : e'.shutdownHandler = e.shutdownHandler
  lastInputAt : e'.lastInputAt = e.lastInputAt
  heartbeatSentCount : e'.heartbeatSentCount = e.heartbeatSentCount
  heartbeatTimer : e'.heartbeatTimer = e.heartbeatTimer
  slots : e'.pkgInput.slots <:+ e.pkgInput.slots
  events : ∃ evs, e'.events = e.events ++ evs ∧ ∀ ev ∈ evs, ¬ ev.IsEnding

theorem GoesOn.refl (e : Entry μ) : GoesOn e e :=
  ⟨rfl, rfl, rfl, rfl, rfl, List.suffix_rfl, [], (List.append_nil _).symm, by simp⟩

theorem GoesOn.trans (h : GoesOn e e') (h' : GoesOn e' e'') : GoesOn e e'' := by
  obtain ⟨evs, hevs, hend⟩ := h.events
  obtain ⟨evs', hevs', hend'⟩ := h'.events
  refine ⟨h'.1.trans h.1, h'.2.trans h.2, h'.3.trans h.3, h'.4.trans h.4, h'.5.trans h.5, h'.slots.trans h.slots,
    evs ++ evs', by rw [hevs', hevs, List.append_assoc], ?_⟩
  intro ev hev
  rcases List.mem_append.1 hev with hev | hev
  · exact hend ev hev
  · exact hend' ev hev

theorem emit_goesOn (e : Entry μ) (ev : Event μ) (hev : ¬ ev.IsEnding) :
    Sat (emit ev) e (fun _ e' => GoesOn e e' ∧ e'.events = e.events ++ [ev]) fun _ _ => False :=
  Sat.modify ⟨⟨rfl, rfl, rfl, rfl, rfl, List.suffix_rfl, [ev], rfl, by simpa using hev⟩, rfl⟩

/-- A call that only takes from the input. -/
theorem onInput_goesOn {α : Type} {f : PkgInput 8 → Except Fault (α × PkgInput 8)}
    (hf : ∀ q a q', f q = .ok (a, q') → q'.slots <:+ q.slots) (e : Entry μ) :
    Sat (onInput f) e (fun _ e' => GoesOn e e' ∧ e'.events = e.events) fun s _ => ∃ fault, s = .fault fault := by
  refine (onInput_sat f e).mono ?_ fun _ _ h => h.2
  rintro a e' ⟨q, hq, rfl⟩
  exact ⟨⟨rfl, rfl, rfl, rfl, rfl, hf _ _ _ hq, [], (List.append_nil _).symm, by simp⟩, rfl⟩

/-! ## Why a package gives the entry up -/

/-- Why a package with the header is not accepted; the body of a message has been read by then. -/
inductive RejectedFor (env : EntryEnv μ) (header : PkgHeader) (e : Entry μ) : EntryShutdownReason → Prop
  | size (hm : header.pkgContentType = pkgContentMessage) (h : pkgHasValidSize env header = false) :
    RejectedFor env header e .invalidInputPackageSize
  | messageId (hm : header.pkgContentType = pkgContentMessage) (hs : pkgHasValidSize env header = true)
    (h : env.engines header.contentSpecificValue = none) : RejectedFor env header e .unexpectedInputPackageSize
  | body {engine : ProtobufEngine μ} {e₀ : Entry μ} (hm : header.pkgContentType = pkgContentMessage)
    (hs : pkgHasValidSize env header = true) (h : env.engines header.contentSpecificValue = some engine)
    (hparse : (parsePackage engine header.contentSize.toNat).run e₀ = .ok none e) :
    RejectedFor env header e .invalidInputPackage
  | heartbeat (ht : header.pkgContentType = pkgContentHeartbeatRequest ∨
      header.pkgContentType = pkgContentHeartbeatReply) (h : hasContent header = true) :
    RejectedFor env header e .invalidHeartbeatPackage
  | contentType (hm : header.pkgContentType ≠ pkgContentMessage)
    (hq : header.pkgContentType ≠ pkgContentHeartbeatRequest) (hr : header.pkgContentType ≠ pkgContentHeartbeatReply) :
    RejectedFor env header e .unknownPkgContentType

/-- The header is the last thing the entry looked at. -/
def LookedAt (header : PkgHeader) (e : Entry μ) : Prop := ∃ evs size, e.events = evs ++ [.considerHeader header size]

/-- The package whose header the entry looked at last is not accepted. -/
def Rejected (env : EntryEnv μ) (e : Entry μ) (reason : EntryShutdownReason) : Prop :=
  ∃ header, LookedAt header e ∧ RejectedFor env header e reason

/-- The consumer throws when it gets the last message. -/
def ConsumerThrew (env : EntryEnv μ) (e : Entry μ) (what : String) : Prop :=
  env.onMessage e.events = some what ∧
    ∃ evs id content msg attachedBinary, e.events = evs ++ [.message id content msg attachedBinary]

/-- What comes of handling a package. -/
inductive PackageEffect (env : EntryEnv μ) (e : Entry μ) : EStateM.Result Stop (Entry μ) PackageHandlingResult → Prop
  | goesOn {r : PackageHandlingResult} {e' : Entry μ} (hr : r ≠ .invalidPackage) (h : GoesOn e e') :
    PackageEffect env e (.ok r e')
  | rejected {e' : Entry μ} {reason : EntryShutdownReason} (h : GoesOn e e') (hrej : Rejected env e' reason) :
    PackageEffect env e ((invalidPackage env reason).run e')
  | exception {e' : Entry μ} {what : String} (h : GoesOn e e') (hthrow : ConsumerThrew env e' what) :
    PackageEffect env e (.error (.thrown what) e')
  | fault {f : Fault} {e' : Entry μ} : PackageEffect env e (.error (.fault f) e')

theorem PackageEffect.of_goesOn {r : EStateM.Result Stop (Entry μ) PackageHandlingResult} (h : GoesOn e e')
    (hr : PackageEffect env e' r) : PackageEffect env e r := by
  cases hr with
  | goesOn hr h' => exact .goesOn hr (h.trans h')
  | rejected h' hrej => exact .rejected (h.trans h') hrej
  | exception h' hthrow => exact .exception (h.trans h') hthrow
  | fault => exact .fault

/-- A step that goes on, or fails by an assertion, and what comes after it. -/
theorem PackageEffect.bind {α : Type} {x : EntryM μ α} {k : α → EntryM μ PackageHandlingResult}
    {P : Entry μ → Prop} (hx : Sat x e (fun _ e' => GoesOn e e' ∧ P e') fun s _ => ∃ fault, s = .fault fault)
    (hk : ∀ a e', x.run e = .ok a e' → P e' → PackageEffect env e' ((k a).run e')) :
    PackageEffect env e ((x >>= k).run e) := by
  cases hrun : x.run e with
  | ok a e' =>
    obtain ⟨h, hP⟩ := hx.ok hrun
    rw [run_bind_of_ok hrun]
    exact .of_goesOn h (hk a e' hrun hP)
  | error s e' =>
    obtain ⟨fault, rfl⟩ := hx.error hrun
    rw [run_bind_of_error hrun]
    exact .fault

/-! ## One package -/

variable {header : PkgHeader}

theorem LookedAt.congr (h : LookedAt header e) (hev : e'.events = e.events) : LookedAt header e' := by
  obtain ⟨evs, size, hevs⟩ := h
  exact ⟨evs, size, hev.trans hevs⟩

theorem skipBytes_goesOn (n : Nat) (e : Entry μ) :
    Sat (onInput fun q => do return ((), ← q.skipBytes n)) e (fun _ e' => GoesOn e e' ∧ e'.events = e.events)
      fun s _ => ∃ fault, s = .fault fault := by
  refine onInput_goesOn (fun q a q' h => ?_) e
  obtain ⟨q₁, hskip, h⟩ := bind_eq_ok.1 h
  obtain rfl : q₁ = q' := congrArg Prod.snd (Except.ok.inj h)
  exact PkgInput.skipBytes_slots hskip

theorem parsePackage_goesOn (engine : ProtobufEngine μ) (n : Nat) (e : Entry μ) :
    Sat (parsePackage engine n) e (fun _ e' => GoesOn e e' ∧ e'.events = e.events)
      fun s _ => ∃ fault, s = .fault fault := by
  refine Sat.get_bind (Sat.bind (onInput_goesOn (fun q a q' h => ?_) e) fun _ e' h => Sat.get_bind ?_)
  · obtain ⟨q₁, hcalls, h⟩ := bind_eq_ok.1 h
    obtain rfl : q₁ = q' := congrArg Prod.snd (Except.ok.inj h)
    exact PkgInput.zeroCopyCalls_slots _ _ hcalls
  · split <;> exact Sat.pure h

theorem consumeMessage_effect (env : EntryEnv μ) (id : UInt16) (content : Bytes) (msg : μ) (attachedBinary : Bytes)
    (e : Entry μ) :
    PackageEffect env e ((do
      consumeMessage env id content msg attachedBinary
      return .fullyConsumed : EntryM μ PackageHandlingResult).run e) := by
  have h := ((emit_goesOn e (.message id content msg attachedBinary) not_false).ok rfl).1
  simp only [consumeMessage, EStateM.run_bind, emit, EStateM.run_modify, run_callUser]
  cases hthrow : env.onMessage (e.events ++ [.message id content msg attachedBinary]) with
  | none => exact .goesOn (by simp) h
  | some what => exact .exception h ⟨hthrow, e.events, id, content, msg, attachedBinary, rfl⟩

theorem handleIncomingMessage_effect (hm : header.pkgContentType = pkgContentMessage)
    (hs : pkgHasValidSize env header = true) (hlast : LookedAt header e) :
    PackageEffect env e ((handleIncomingMessage env header).run e) := by
  unfold handleIncomingMessage
  split
  · rename_i hengine
    exact .rejected (.refl e) ⟨header, hlast, .messageId hm hs hengine⟩
  · rename_i engine hengine
    rw [run_bind_of_ok (EStateM.run_get e)]
    refine PackageEffect.bind (P := fun e' => e'.events = e.events) (parsePackage_goesOn engine _ e) ?_
    rintro (_ | msg) e₁ hparse hevs
    · exact .rejected (.refl e₁) ⟨header, hlast.congr hevs, .body hm hs hengine hparse⟩
    · refine PackageEffect.bind (P := fun _ => True) ?_ fun _ e₂ _ _ => ?_
      · exact (onInput_goesOn (fun q a q' h => PkgInput.skip_slots h) e₁).mono
          (fun _ _ h => ⟨h.1, trivial⟩) fun _ _ h => h
      split
      · exact consumeMessage_effect env _ _ msg _ e₂
      · refine PackageEffect.bind (P := fun _ => True) ?_ fun _ e₃ _ _ => consumeMessage_effect env _ _ msg _ e₃
        exact (onInput_goesOn (fun q a q' h => PkgInput.readBuffer_slots h) e₂).mono (fun _ _ h => ⟨h.1, trivial⟩)
          fun _ _ h => h

theorem handleMessagePkg_effect (hm : header.pkgContentType = pkgContentMessage) (hlast : LookedAt header e) :
    PackageEffect env e ((handleMessagePkg env header).run e) := by
  unfold handleMessagePkg
  by_cases hvalid : pkgHasValidSize env header = true
  · rw [if_neg (by simp [hvalid]), run_bind_of_ok (EStateM.run_get e)]
    split
    · exact .goesOn (by simp) (.refl e)
    · refine PackageEffect.bind (P := fun e' => e'.events = e.events) ?_ fun _ e₁ _ hevs =>
        handleIncomingMessage_effect hm hvalid (hlast.congr hevs)
      refine onInput_goesOn (fun q a q' h => ?_) e
      obtain ⟨-, -, h⟩ := bind_eq_ok.1 h
      obtain ⟨q₁, hskip, h⟩ := bind_eq_ok.1 h
      obtain rfl : q₁ = q' := congrArg Prod.snd (Except.ok.inj h)
      exact PkgInput.skipBytes_slots hskip
  · rw [if_pos (by simp [hvalid])]
    exact .rejected (.refl e) ⟨header, hlast, .size hm (by simpa using hvalid)⟩

theorem handleHeartbeatRequestPkg_effect (hq : header.pkgContentType = pkgContentHeartbeatRequest)
    (hlast : LookedAt header e) : PackageEffect env e ((handleHeartbeatRequestPkg env header).run e) := by
  unfold handleHeartbeatRequestPkg
  split
  · rename_i hcontent
    exact .rejected (.refl e) ⟨header, hlast, .heartbeat (.inl hq) hcontent⟩
  · refine PackageEffect.bind (skipBytes_goesOn _ e) fun _ e₁ _ _ => ?_
    rw [run_bind_of_ok (EStateM.run_get e₁)]
    split
    · exact .goesOn (by simp) ((emit_goesOn e₁ (.scheduleSend _) not_false).ok rfl).1
    · exact .goesOn (by simp) (.refl e₁)

theorem handleHeartbeatReplyPkg_effect (hr : header.pkgContentType = pkgContentHeartbeatReply)
    (hlast : LookedAt header e) : PackageEffect env e ((handleHeartbeatReplyPkg env header).run e) := by
  unfold handleHeartbeatReplyPkg
  split
  · rename_i hcontent
    exact .rejected (.refl e) ⟨header, hlast, .heartbeat (.inr hr) hcontent⟩
  · exact PackageEffect.bind (skipBytes_goesOn _ e) fun _ e₁ _ _ => .goesOn (by simp) (.refl e₁)

theorem handlePackage_effect (hlast : LookedAt header e) : PackageEffect env e ((handlePackage env header).run e) := by
  unfold handlePackage
  split
  · exact handleMessagePkg_effect ‹_› hlast
  split
  · exact handleHeartbeatRequestPkg_effect ‹_› hlast
  split
  · exact handleHeartbeatReplyPkg_effect ‹_› hlast
  · exact .rejected (.refl e) ⟨header, hlast, .contentType ‹_› ‹_› ‹_›⟩

/-- Whatever is at the head of the input, one iteration goes on, or rejects the package, or passes
on what the consumer throws. -/
theorem handleSinglePackage_effect (env : EntryEnv μ) (e : Entry μ) :
    PackageEffect env e ((handleSinglePackage env).run e) := by
  rw [handleSinglePackage, run_bind_of_ok (EStateM.run_get e)]
  split
  · refine PackageEffect.bind (P := fun _ => True) ?_ fun header e₁ _ _ => ?_
    · refine (onInput_goesOn (fun q a q' h => ?_) e).mono (fun _ _ h => ⟨h.1, trivial⟩) fun _ _ h => h
      obtain ⟨header, -, h⟩ := bind_eq_ok.1 h
      obtain rfl : q = q' := congrArg Prod.snd (Except.ok.inj h)
      exact List.suffix_rfl
    · rw [run_bind_of_ok (EStateM.run_get e₁)]
      refine PackageEffect.bind (P := LookedAt header) ?_ fun _ e₂ _ hlast => handlePackage_effect hlast
      refine (emit_goesOn e₁ (.considerHeader header _) not_false).mono (fun _ e₂ h => ⟨h.1, ?_⟩) fun _ _ h => h.elim
      exact ⟨e₁.events, _, h.2⟩
  · exact .goesOn (by simp) (.refl e)

/-! ## A chunk of input -/

/-- A package rejected out of an iteration that begins in `e`, or one whose consumer throws: the
context the entry is given up with, and the state it is given up in. -/
inductive GivesUp (env : EntryEnv μ) (e e' : Entry μ) : ConnectionShutdownContext → Prop
  | rejected {reason : EntryShutdownReason} (hrej : Rejected env e' reason)
    (hrun : (handleSinglePackage env).run e = (invalidPackage env reason).run e') : GivesUp env e e' { reason }
  | exception {what : String} (hthrow : ConsumerThrew env e' what)
    (hrun : (handleSinglePackage env).run e = .error (.thrown what) e') :
    GivesUp env e e' { reason := .exceptionHandlingInput, errMessage := what }

/-- What the loop passes on of an iteration that is its last. -/
def lastIteration : EStateM.Result Stop (Entry μ) PackageHandlingResult → EStateM.Result Stop (Entry μ) Unit
  | .ok _ e => .ok () e
  | .error s e => .error s e

theorem lastIteration_invalidPackage (env : EntryEnv μ) (reason : EntryShutdownReason) (e : Entry μ) :
    lastIteration ((invalidPackage env reason).run e) = (shutdownAndTerminate env { reason }).run e := by
  rw [invalidPackage, EStateM.run_bind]
  cases (shutdownAndTerminate env { reason }).run e <;> rfl

/-- What comes of the loop. -/
inductive LoopEffect (env : EntryEnv μ) (e : Entry μ) : EStateM.Result Stop (Entry μ) Unit → Prop
  | goesOn {e' : Entry μ} (h : GoesOn e e') : LoopEffect env e (.ok () e')
  | givesUp {e₁ e' : Entry μ} {ctx : ConnectionShutdownContext} (hl : LoopState env e e₁) (h : GoesOn e e')
    (hgive : GivesUp env e₁ e' ctx) : LoopEffect env e (lastIteration ((handleSinglePackage env).run e₁))
  | stops {s : Stop} {e' : Entry μ} (hs : ¬ s.IsThrown) : LoopEffect env e (.error s e')

theorem LoopEffect.next {r : EStateM.Result Stop (Entry μ) Unit} (h : GoesOn e e')
    (hrun : (handleSinglePackage env).run e = .ok .fullyConsumed e') (hr : LoopEffect env e' r) :
    LoopEffect env e r := by
  cases hr with
  | goesOn h' => exact .goesOn (h.trans h')
  | givesUp hl h' hgive => exact .givesUp (.next hrun hl) (h.trans h') hgive
  | stops hs => exact .stops hs

theorem runInputStreamLoop_effect (env : EntryEnv μ) : ∀ (fuel : Nat) (e : Entry μ),
    LoopEffect env e ((runInputStreamLoop env fuel).run e)
  | 0, _ => .stops (by rintro ⟨what, h⟩; cases h)
  | fuel + 1, e => by
    have heffect := handleSinglePackage_effect env e
    have hlast : ∀ r, (handleSinglePackage env).run e = r → (∀ e', r ≠ .ok .fullyConsumed e') →
        (runInputStreamLoop env (fuel + 1)).run e = lastIteration r := by
      rintro r hrun hr
      rw [runInputStreamLoop, EStateM.run_bind, hrun]
      rcases r with ⟨r, e'⟩ | ⟨s, e'⟩
      · cases r with
        | fullyConsumed => exact absurd rfl (hr e')
        | needsMoreInputData => rfl
        | invalidPackage => rfl
      · rfl
    generalize hrun : (handleSinglePackage env).run e = r at heffect
    cases heffect with
    | @goesOn r e' hr h =>
      cases r with
      | fullyConsumed =>
        rw [runInputStreamLoop, run_bind_of_ok hrun]
        exact .next h hrun (runInputStreamLoop_effect env fuel e')
      | needsMoreInputData =>
        rw [hlast _ hrun (by simp)]
        exact .goesOn h
      | invalidPackage => exact absurd rfl hr
    | @rejected e' reason h hrej =>
      rw [hlast _ hrun, ← hrun]
      · exact .givesUp (.start e) h (.rejected hrej hrun)
      · intro e'' hok
        rw [invalidPackage, EStateM.run_bind] at hok
        split at hok <;> cases hok
    | @exception e' what h hthrow =>
      rw [hlast _ hrun (by simp), ← hrun]
      exact .givesUp (.start e) h (.exception hthrow hrun)
    | @fault f e' =>
      rw [hlast _ hrun (by simp)]
      exact .stops (by rintro ⟨what, h⟩; cases h)

/-- However many iterations the loop is given, it does not get past the package that gives the entry up. -/
theorem runInputStreamLoop_givesUp {e₁ : Entry μ} {ctx : ConnectionShutdownContext} (hl : LoopState env e e₁)
    (hgive : GivesUp env e₁ e' ctx) : ∀ fuel,
      (runInputStreamLoop env fuel).run e = lastIteration ((handleSinglePackage env).run e₁) ∨
        ∃ e'', (runInputStreamLoop env fuel).run e = .error .diverged e'' := by
  induction hl with
  | start e =>
    rintro (_ | fuel)
    · exact .inr ⟨e, rfl⟩
    left
    rw [runInputStreamLoop, EStateM.run_bind]
    cases hgive with
    | rejected hrej hrun =>
      rw [hrun, invalidPackage, EStateM.run_bind]
      cases (shutdownAndTerminate env { reason := _ }).run e' <;> rfl
    | exception hthrow hrun =>
      rw [hrun]
      rfl
  | next hrun hl ih =>
    rintro (_ | fuel)
    · exact .inr ⟨_, rfl⟩
    rw [runInputStreamLoop, run_bind_of_ok hrun]
    exact ih hgive fuel

/-- What `handle_input` makes of what comes of the loop. -/
def absorb (env : EntryEnv μ) (now : Int) :
    EStateM.Result Stop (Entry μ) Unit → EStateM.Result Stop (Entry μ) Unit
  | .ok _ e => .ok () { e with lastInputAt := now, heartbeatSentCount := 0 }
  | .error s e => (handleInputException env s).run e

theorem run_handleInput {fuel : Nat} {now : Int} {buf : Bytes} {e₀ : Entry μ} (h : appended e buf e₀) :
    (handleInput env fuel now buf).run e = absorb env now ((runInputStreamLoop env fuel).run e₀) := by
  obtain ⟨q, hq, rfl⟩ := h
  have hon : (onInput fun q => do return ((), ← q.append buf)).run e = .ok () { e with pkgInput := q } :=
    onInput_ok (by rw [hq]; rfl)
  rw [handleInput, run_tryCatch, run_bind_of_ok hon, EStateM.run_bind]
  cases (runInputStreamLoop env fuel).run { e with pkgInput := q } <;> rfl

/-- A chunk behind a block that is still out stops the item. -/
theorem run_handleInput_fault {fuel : Nat} {now : Int} {buf : Bytes} {f : Fault}
    (h : e.pkgInput.append buf = .error f) : (handleInput env fuel now buf).run e = .error (.fault f) e := by
  have hon : (onInput fun q => do return ((), ← q.append buf)).run e = .error (.fault f) e :=
    onInput_error (by rw [h]; rfl)
  rw [handleInput, run_tryCatch, run_bind_of_error hon]
  rfl

/-- The strand goes on from the state: the work item has returned, or what it has thrown has left it. -/
def Leaves (r : EStateM.Result Stop (Entry μ) Unit) (e' : Entry μ) : Prop :=
  r = .ok () e' ∨ ∃ what, r = .error (.thrown what) e'

theorem after_leaves {fuel : Nat} {i : Item} (h : after env fuel e i = some e') :
    Leaves ((exec env fuel i).run e) e' := by
  unfold after at h
  split at h
  · rename_i hrun
    rw [Option.some.inj h] at hrun
    exact .inl hrun
  · rename_i what _ hrun
    rw [Option.some.inj h] at hrun
    exact .inr ⟨what, hrun⟩
  · cases h

theorem Leaves.of_ok {a : Unit} (h : Leaves (.ok a e) e') : e' = e := by
  rcases h with heq | ⟨what, heq⟩
  · exact (EStateM.Result.ok.inj heq).2.symm
  · cases heq

theorem Leaves.isThrown {s : Stop} (h : Leaves (.error s e) e') : s.IsThrown := by
  rcases h with heq | ⟨what, heq⟩
  · cases heq
  · exact ⟨what, (EStateM.Result.error.inj heq).1⟩

theorem Leaves.sat {x : EntryM μ Unit} {Q E : Entry μ → Prop} (h : Leaves (x.run e) e')
    (hx : Sat x e (fun _ => Q) fun s e' => s.IsThrown ∧ E e') : Q e' ∨ E e' := by
  rcases h with heq | ⟨what, heq⟩
  · exact .inl (hx.ok heq)
  · exact .inr (hx.error heq).2

/-- How `handle_input` gives an entry up. What the shutdown handler throws is caught like what the
consumer throws, and the entry is given up once more. -/
inductive GivenUp (env : EntryEnv μ) (now : Int) (e : Entry μ) :
    ConnectionShutdownContext → EStateM.Result Stop (Entry μ) Unit → Prop
  | rejected {reason : EntryShutdownReason} {e' : Entry μ}
    (h : (shutdownAndTerminate env { reason }).run e = .ok () e') :
    GivenUp env now e { reason } (.ok () { e' with lastInputAt := now, heartbeatSentCount := 0 })
  | rejectedThrew {reason : EntryShutdownReason} {what : String} {e' : Entry μ}
    (h : (shutdownAndTerminate env { reason }).run e = .error (.thrown what) e') :
    GivenUp env now e { reason }
      ((shutdownAndTerminate env { reason := .exceptionHandlingInput, errMessage := what }).run e')
  | exception {what : String} :
    GivenUp env now e { reason := .exceptionHandlingInput, errMessage := what }
      ((shutdownAndTerminate env { reason := .exceptionHandlingInput, errMessage := what }).run e)

theorem absorb_givesUp {e₁ e₂ : Entry μ} {ctx : ConnectionShutdownContext} (now : Int) (hgive : GivesUp env e₁ e₂ ctx) :
    GivenUp env now e₂ ctx (absorb env now (lastIteration ((handleSinglePackage env).run e₁))) := by
  cases hgive with
  | @exception what hthrow hrun =>
    rw [hrun]
    exact .exception
  | @rejected reason hrej hrun =>
    rw [hrun, lastIteration_invalidPackage]
    have hthrown := (shutdownAndTerminate_pkgInput env { reason } e₂)
    cases hfirst : (shutdownAndTerminate env { reason }).run e₂ with
    | ok _ e₃ => exact .rejected hfirst
    | error s e₃ =>
      obtain ⟨⟨what, rfl⟩, -⟩ := hthrown.error hfirst
      exact .rejectedThrew hfirst

/-- A chunk is handled to its end, or it comes to a package that gives the entry up. -/
theorem handleInput_cases {fuel : Nat} {now : Int} {buf : Bytes}
    (h : Leaves ((handleInput env fuel now buf).run e) e') :
    (∃ e₀ e₁, appended e buf e₀ ∧ GoesOn e₀ e₁ ∧ e' = { e₁ with lastInputAt := now, heartbeatSentCount := 0 }) ∨
      ∃ e₀ e₁ e₂ ctx, appended e buf e₀ ∧ LoopState env e₀ e₁ ∧ GoesOn e₀ e₂ ∧ GivesUp env e₁ e₂ ctx ∧
        GivenUp env now e₂ ctx ((handleInput env fuel now buf).run e) := by
  cases happend : e.pkgInput.append buf with
  | error f =>
    rw [run_handleInput_fault happend] at h
    exact absurd h.isThrown (by rintro ⟨what, heq⟩; cases heq)
  | ok q =>
    have happ : appended e buf { e with pkgInput := q } := ⟨q, happend, rfl⟩
    rw [run_handleInput happ] at h ⊢
    have heffect := runInputStreamLoop_effect env fuel { e with pkgInput := q }
    generalize (runInputStreamLoop env fuel).run { e with pkgInput := q } = r at heffect h
    cases heffect with
    | @goesOn e₁ hgoes => exact .inl ⟨_, e₁, happ, hgoes, h.of_ok⟩
    | @givesUp e₁ e₂ ctx hl hgoes hgive => exact .inr ⟨_, e₁, e₂, ctx, happ, hl, hgoes, hgive, absorb_givesUp now hgive⟩
    | @stops s e₁ hs =>
      cases s with
      | thrown what => exact absurd ⟨what, rfl⟩ hs
      | fault f => exact absurd h.isThrown hs
      | diverged => exact absurd h.isThrown hs

/-- A chunk with a package that gives the entry up is handled no further. -/
theorem handleInput_givesUp {fuel : Nat} {now : Int} {buf : Bytes} {e₀ e₁ e₂ : Entry μ}
    {ctx : ConnectionShutdownContext}
    (happ : appended e buf e₀) (hl : LoopState env e₀ e₁) (hgive : GivesUp env e₁ e₂ ctx)
    (h : Leaves ((handleInput env fuel now buf).run e) e') :
    GivenUp env now e₂ ctx ((handleInput env fuel now buf).run e) := by
  rw [run_handleInput happ] at h ⊢
  rcases runInputStreamLoop_givesUp hl hgive fuel with hrun | ⟨e'', hrun⟩
  · rw [hrun]
    exact absorb_givesUp now hgive
  · rw [hrun] at h
    exact absurd (show Leaves (.error .diverged e'') e' from h).isThrown (by rintro ⟨what, heq⟩; cases heq)

/-! ## The heartbeat check -/

/-- The entry after a heartbeat request: the next check is due when the time to reply has run out,
counted from the last input, or, when it has run out already, after the time that is allowed to
pass without input. -/
def requested (env : EntryEnv μ) (now : Int) (e : Entry μ) : Entry μ :=
  { e with
    events := e.events ++ [.scheduleSend (PkgHeader.make pkgContentHeartbeatRequest).image]
    heartbeatSentCount := e.heartbeatSentCount + 1
    heartbeatTimer := some (now +
      if now - e.lastInputAt < env.cfg.awaitHeartbeatReplyTimeout then
        env.cfg.awaitHeartbeatReplyTimeout - (now - e.lastInputAt)
      else env.cfg.initiateHeartbeatTimeout) }

/-- What comes of a heartbeat check. -/
inductive CheckEffect (env : EntryEnv μ) (now : Int) (e : Entry μ) : EStateM.Result Stop (Entry μ) Unit → Prop
  | inactive (hact : e.connectionIsActive = false) : CheckEffect env now e (.ok () e)
  | early (hact : e.connectionIsActive = true) (h : now - e.lastInputAt < env.cfg.initiateHeartbeatTimeout) :
    CheckEffect env now e (.ok () { e with
      heartbeatTimer := some (now + (env.cfg.initiateHeartbeatTimeout - (now - e.lastInputAt))) })
  | timeout (hact : e.connectionIsActive = true) (h : env.cfg.initiateHeartbeatTimeout ≤ now - e.lastInputAt)
    (hsent : e.heartbeatSentCount ≠ 0) (hawait : env.cfg.awaitHeartbeatReplyTimeout ≤ now - e.lastInputAt) :
    CheckEffect env now e ((shutdownAndTerminate env { reason := .hearbeatReplyTimeout }).run e)
  | request (hact : e.connectionIsActive = true) (h : env.cfg.initiateHeartbeatTimeout ≤ now - e.lastInputAt)
    (hsent : e.heartbeatSentCount = 0 ∨ now - e.lastInputAt < env.cfg.awaitHeartbeatReplyTimeout) :
    CheckEffect env now e (.ok () (e.requested env now))

theorem onCheckHeartbeat_effect (env : EntryEnv μ) (now : Int) (e : Entry μ) :
    CheckEffect env now e ((onCheckHeartbeat env now).run e) := by
  rw [onCheckHeartbeat, run_bind_of_ok (EStateM.run_get e)]
  by_cases hact : e.connectionIsActive = false
  · rw [if_pos hact]
    exact .inactive hact
  have hact' : e.connectionIsActive = true := by simpa using hact
  rw [if_neg hact]
  dsimp only
  by_cases hearly : now - e.lastInputAt < env.cfg.initiateHeartbeatTimeout
  · rw [if_pos hearly]
    exact .early hact' hearly
  have hlate : env.cfg.initiateHeartbeatTimeout ≤ now - e.lastInputAt := by omega
  rw [if_neg hearly]
  by_cases hdead : e.heartbeatSentCount ≠ 0 ∧ env.cfg.awaitHeartbeatReplyTimeout ≤ now - e.lastInputAt
  · rw [if_pos hdead]
    exact .timeout hact' hlate hdead.1 hdead.2
  rw [if_neg hdead]
  have hsent : e.heartbeatSentCount = 0 ∨ now - e.lastInputAt < env.cfg.awaitHeartbeatReplyTimeout := by
    by_cases h0 : e.heartbeatSentCount = 0
    · exact .inl h0
    · exact .inr (Int.not_le.1 fun hawait => hdead ⟨h0, hawait⟩)
  have hrequest := CheckEffect.request hact' hlate hsent
  unfold requested at hrequest
  by_cases hawait : now - e.lastInputAt < env.cfg.awaitHeartbeatReplyTimeout
  · rw [if_pos hawait] at hrequest
    rw [if_pos hawait]
    exact hrequest
  · rw [if_neg hawait] at hrequest
    rw [if_neg hawait]
    exact hrequest

theorem onCheckHeartbeat_inactive (env : EntryEnv μ) (now : Int) (hact : e.connectionIsActive = false) :
    (onCheckHeartbeat env now).run e = .ok () e := by
  rw [onCheckHeartbeat, run_bind_of_ok (EStateM.run_get e), if_pos hact]
  rfl

end Entry

end Opio.ProtoEntry
