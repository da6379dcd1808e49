/-
What an entry does with input that is made up of packages it takes, whether or not it is still
active: it hands all the messages over, answers heartbeats for as long as it is active, and keeps
the front of the next package. Any other work item leaves the input alone and delivers nothing.
-/
import Opio.ProtoEntry.GivingUp
import Opio.ProtoEntry.WholeStream

namespace Opio.ProtoEntry

open Incremental

variable {μ : Type}

/-! ## The events of a work item -/

def Event.isMessage : Event μ → Bool
  | .message _ _ _ _ => true
  | _ => false

/-- The messages the consumer was handed. -/
def messages (evs : List (Event μ)) : List (Event μ) := evs.filter Event.isMessage

@[simp] theorem messages_append (evs evs' : List (Event μ)) : messages (evs ++ evs') = messages evs ++ messages evs' :=
  List.filter_append ..

/-- Something is wrong with the input, or with what the consumer made of it. -/
def EntryShutdownReason.isOfInput : EntryShutdownReason → Bool
  | .underlyingConnection => false
  | .userInitiated => false
  | .hearbeatReplyTimeout => false
  | _ => true

/-- The events of input that is taken. -/
def Event.IsTaking : Event μ → Prop
  | .considerHeader _ _ => True
  | .message _ _ _ _ => True
  | .scheduleSend buf => buf = (PkgHeader.make pkgContentHeartbeatReply).image
  | _ => False

/-- The events of input and of the heartbeat timer. -/
def Event.IsWork : Event μ → Prop
  | .considerHeader _ _ => True
  | .message _ _ _ _ => True
  | .scheduleSend buf =>
    buf = (PkgHeader.make pkgContentHeartbeatRequest).image ∨ buf = (PkgHeader.make pkgContentHeartbeatReply).image
  | _ => False

/-- The events of the other work items. -/
def Event.IsOther : Event μ → Prop
  | .scheduleSend buf => buf = (PkgHeader.make pkgContentHeartbeatRequest).image
  | .terminate ctx => ctx.reason.isOfInput = false
  | .considerHeader _ _ => False
  | .message _ _ _ _ => False
  | _ => True

/-- What is shown of the events of packages: an entry that is not active sends no replies. -/
def shownBy (active : Bool) (evs : List (Event μ)) : List (Event μ) := if active then evs else messages evs

theorem shownBy_append (active : Bool) (evs evs' : List (Event μ)) :
    shownBy active (evs ++ evs') = shownBy active evs ++ shownBy active evs' := by
  unfold shownBy
  split
  · rfl
  · exact messages_append evs evs'

theorem messages_shownBy (active : Bool) (evs : List (Event μ)) : messages (shownBy active evs) = messages evs := by
  unfold shownBy
  split
  · rfl
  · simp [messages]

theorem messages_observed (evs : List (Event μ)) : messages (evs.filter Event.isObserved) = messages evs := by
  rw [messages, messages, List.filter_filter]
  refine List.filter_congr fun ev _ => ?_
  cases ev <;> rfl

theorem messages_eq_nil {evs : List (Event μ)} (h : ∀ ev ∈ evs, ev.IsOther) : messages evs = [] := by
  refine List.filter_eq_nil_iff.2 fun ev hev => ?_
  have hother := h ev hev
  cases ev <;> first | exact hother.elim | simp [Event.isMessage]

namespace Entry

variable {env : EntryEnv μ} {e e' e'' : Entry μ}

/-! ## What an entry keeps at its work -/

/-- What the events of input and of the heartbeat timer keep, and giving up, too. -/
structure KeptAtWork (env : EntryEnv μ) (P : Entry μ → Prop) : Prop where
  emits : ∀ ev, ev.IsWork → Keeps P (emit ev)
  unchanged : ∀ e e', e'.events = e.events → e'.connectionIsActive = e.connectionIsActive → P e → P e'
  givesUp : ∀ ctx, Keeps P (shutdownAndTerminate env ctx)

namespace KeptAtWork

variable {P : Entry μ → Prop} (h : KeptAtWork env P)
include h

theorem modify {f : Entry μ → Entry μ} (hevents : ∀ e, (f e).events = e.events)
    (hactive : ∀ e, (f e).connectionIsActive = e.connectionIsActive) : Keeps P (modify f : EntryM μ PUnit) :=
  Keeps.modify fun e => h.unchanged e (f e) (hevents e) (hactive e)

theorem onInput {α : Type} (f : PkgInput 8 → Except Fault (α × PkgInput 8)) : Keeps P (onInput f : EntryM μ α) := by
  intro e he
  refine Sat.final (P := P) ((onInput_sat f e).mono ?_ ?_)
  · rintro _ _ ⟨q, -, rfl⟩
    exact h.unchanged e _ rfl rfl he
  · rintro _ _ ⟨rfl, -⟩
    exact he

theorem invalidPackage (reason : EntryShutdownReason) : Keeps P (invalidPackage env reason) :=
  (h.givesUp _).bind fun _ => Keeps.pure _

theorem consumeMessage (id : UInt16) (content : Bytes) (msg : μ) (attachedBinary : Bytes) :
    Keeps P (consumeMessage env id content msg attachedBinary) := by
  refine (h.emits (.message id content msg attachedBinary) trivial).bind fun _ => Keeps.get.bind fun e => ?_
  split
  · exact Keeps.throw _
  · exact Keeps.pure _

theorem handleIncomingMessage (header : PkgHeader) : Keeps P (handleIncomingMessage env header) := by
  unfold Entry.handleIncomingMessage
  split
  · exact h.invalidPackage _
  refine Keeps.get.bind fun e => Keeps.bind ?_ fun msg? => ?_
  · refine Keeps.get.bind fun e => (h.onInput _).bind fun _ => Keeps.get.bind fun e' => ?_
    split <;> exact Keeps.pure _
  · split
    · exact h.invalidPackage _
    refine (h.onInput _).bind fun _ => ?_
    split
    · exact (Keeps.pure _).bind fun _ => (h.consumeMessage _ _ _ _).bind fun _ => Keeps.pure _
    · exact (h.onInput _).bind fun _ => (h.consumeMessage _ _ _ _).bind fun _ => Keeps.pure _

theorem handlePackage (header : PkgHeader) : Keeps P (handlePackage env header) := by
  unfold Entry.handlePackage
  split
  · unfold handleMessagePkg
    split
    · exact h.invalidPackage _
    refine Keeps.get.bind fun e => ?_
    split
    · exact Keeps.pure _
    · exact (h.onInput _).bind fun _ => h.handleIncomingMessage _
  split
  · unfold handleHeartbeatRequestPkg
    split
    · exact h.invalidPackage _
    refine (h.onInput _).bind fun _ => Keeps.get.bind fun e => ?_
    split
    · exact (h.emits (.scheduleSend _) (Or.inr rfl)).bind fun _ => Keeps.pure _
    · exact Keeps.pure _
  split
  · unfold handleHeartbeatReplyPkg
    split
    · exact h.invalidPackage _
    · exact (h.onInput _).bind fun _ => Keeps.pure _
  · exact h.invalidPackage _

theorem runInputStreamLoop : ∀ fuel, Keeps P (runInputStreamLoop env fuel)
  | 0 => Keeps.throw _
  | fuel + 1 => by
    refine Keeps.bind ?_ fun r => ?_
    · refine Keeps.get.bind fun e => ?_
      split
      · exact (h.onInput _).bind fun _ => Keeps.get.bind fun _ => (h.emits (.considerHeader _ _) trivial).bind fun _ =>
          h.handlePackage _
      · exact Keeps.pure _
    · split
      · exact runInputStreamLoop fuel
      · exact Keeps.pure _

/-- Every work item but the report of the connection that it has shut down. -/
theorem exec (fuel : Nat) {i : Item} (hi : ∀ reason, i ≠ .connectionShutdown reason) : Keeps P (exec env fuel i) := by
  cases i with
  | input now buf =>
    refine Keeps.tryCatch ?_ fun s => ?_
    · exact (h.onInput _).bind fun _ => (h.runInputStreamLoop _).bind fun _ => h.modify (fun _ => rfl) fun _ => rfl
    · cases s with
      | thrown what => exact h.givesUp _
      | fault f => exact Keeps.throw _
      | diverged => exact Keeps.throw _
  | close => exact h.givesUp _
  | connectionShutdown reason => exact absurd rfl (hi reason)
  | checkHeartbeat now =>
    refine Keeps.get.bind fun e => ?_
    split
    · exact Keeps.pure _
    dsimp only
    split
    · exact h.modify (fun _ => rfl) fun _ => rfl
    split
    · exact h.givesUp _
    have hrequest : Keeps P (sendHeartbeatRequest : EntryM μ Unit) :=
      (h.emits (.scheduleSend _) (Or.inl rfl)).bind fun _ => h.modify (fun _ => rfl) fun _ => rfl
    refine hrequest.bind fun _ => ?_
    split <;> exact h.modify (fun _ => rfl) fun _ => rfl

end KeptAtWork

/-- What a work item keeps holds behind it. -/
theorem after_keeps {P : Entry μ → Prop} {fuel : Nat} {i : Item} (hkeeps : Keeps P (exec env fuel i)) (he : P e)
    (h : after env fuel e i = some e') : P e' := by
  have hfinal := hkeeps e he
  unfold after at h
  split at h
  · rename_i hrun
    rw [hrun] at hfinal
    exact Option.some.inj h ▸ hfinal
  · rename_i hrun
    rw [hrun] at hfinal
    exact Option.some.inj h ▸ hfinal
  · cases h

/-! ## What an entry sends of itself -/

/-- All that the entry has sent are heartbeats. -/
def SendsHeartbeats (e : Entry μ) : Prop := ∀ buf, .scheduleSend buf ∈ e.events →
  buf = (PkgHeader.make pkgContentHeartbeatRequest).image ∨ buf = (PkgHeader.make pkgContentHeartbeatReply).image

theorem emit_heartbeats {ev : Event μ} (hev : ∀ buf, ev = .scheduleSend buf →
    buf = (PkgHeader.make pkgContentHeartbeatRequest).image ∨ buf = (PkgHeader.make pkgContentHeartbeatReply).image) :
    Keeps SendsHeartbeats (emit ev) := by
  refine Keeps.modify fun e h buf hbuf => ?_
  rcases List.mem_append.1 hbuf with hbuf | hbuf
  · exact h buf hbuf
  · exact hev buf (List.mem_singleton.1 hbuf).symm

theorem unchanged_heartbeats {f : Entry μ → Entry μ} (h : ∀ e, (f e).events = e.events) :
    Keeps SendsHeartbeats (modify f : EntryM μ PUnit) := by
  refine Keeps.modify fun e he buf hbuf => ?_
  rw [h] at hbuf
  exact he buf hbuf

theorem terminate_heartbeats (env : EntryEnv μ) (ctx : ConnectionShutdownContext) :
    Keeps SendsHeartbeats (terminate env ctx) := by
  have hcancel : Keeps SendsHeartbeats (cancelHeartbeatTimer : EntryM μ Unit) := unchanged_heartbeats fun _ => rfl
  have huser : Keeps SendsHeartbeats (callUser env.onShutdown) := by
    refine Keeps.get.bind fun e => ?_
    split
    · exact Keeps.throw _
    · exact Keeps.pure _
  have hcall : ∀ ctx', Keeps SendsHeartbeats (do
      emit (.shutdownHandlerCalled ctx')
      callUser env.onShutdown
      cancelHeartbeatTimer : EntryM μ Unit) := fun _ =>
    (emit_heartbeats (by simp)).bind fun _ => huser.bind fun _ => hcancel
  refine Keeps.get.bind fun e => ?_
  split
  · exact Keeps.throw _
  refine (emit_heartbeats (by simp)).bind fun _ => Keeps.get.bind fun e' => Keeps.bind ?_ fun _ =>
    unchanged_heartbeats fun _ => rfl
  cases e'.shutdownHandler with
  | notSupplied => exact hcancel
  | wasCalled => exact Keeps.pure _
  | handler => exact hcall none
  | handler2 => exact hcall (some ctx)

theorem deactivate_heartbeats : Keeps SendsHeartbeats (deactivate : EntryM μ Unit) :=
  (unchanged_heartbeats fun _ => rfl).bind fun _ => emit_heartbeats (by simp)

theorem sendsHeartbeats_kept (env : EntryEnv μ) : KeptAtWork env SendsHeartbeats where
  emits ev hev := by
    refine emit_heartbeats ?_
    rintro buf rfl
    exact hev
  unchanged e e' hevents _ h buf hbuf := by
    rw [hevents] at hbuf
    exact h buf hbuf
  givesUp ctx := by
    refine Keeps.get.bind fun e => ?_
    split
    · exact Keeps.pure _
    · exact (emit_heartbeats (by simp)).bind fun _ => (terminate_heartbeats _ _).bind fun _ => deactivate_heartbeats

/-- Whatever comes in, an entry sends nothing of itself but heartbeats. -/
theorem after_heartbeats {fuel : Nat} {i : Item} (he : SendsHeartbeats e) (h : after env fuel e i = some e') :
    SendsHeartbeats e' := by
  refine after_keeps ?_ he h
  cases i with
  | connectionShutdown reason =>
    refine Keeps.get.bind fun e => ?_
    split
    · exact Keeps.pure _
    · exact (terminate_heartbeats _ _).bind fun _ => deactivate_heartbeats
  | _ => exact (sendsHeartbeats_kept env).exec fuel (by simp)

/-! ## How an entry goes inactive -/

/-- Behind its first `n` events the entry has shut its connection down, or it is active. -/
structure ShutsDown (n : Nat) (e : Entry μ) : Prop where
  events : n ≤ e.events.length
  inactive : e.connectionIsActive = false → .connectionShutdown ∈ e.events.drop n

theorem shutsDown_kept (env : EntryEnv μ) (n : Nat) : KeptAtWork env (ShutsDown n) where
  emits ev _ := by
    refine Keeps.modify fun e he => ⟨?_, fun hinactive => ?_⟩
    · exact he.events.trans (List.length_append.trans_ge (Nat.le_add_right _ _))
    · show _ ∈ (e.events ++ [ev]).drop n
      rw [List.drop_append_of_le_length he.events]
      exact List.mem_append_left _ (he.inactive hinactive)
  unchanged e e' hevents hactive h := ⟨hevents ▸ h.events, fun hinactive => hevents ▸ h.inactive (hactive ▸ hinactive)⟩
  givesUp ctx := by
    intro e he
    have hshut : ∀ evs : List (Event μ), ∀ e' : Entry μ, e'.events = e.events ++ .connectionShutdown :: evs →
        ShutsDown n e' := by
      intro evs e' hevents
      refine ⟨?_, fun _ => ?_⟩
      · rw [hevents, List.length_append]
        exact he.events.trans (Nat.le_add_right _ _)
      · rw [hevents, List.drop_append_of_le_length he.events]
        exact List.mem_append_right _ (List.mem_cons_self ..)
    rcases Bool.eq_false_or_eq_true e.connectionIsActive with hact | hact
    · refine Sat.final ((shutdownAndTerminate_spec env ctx hact).mono ?_ ?_)
      · rintro _ e' ⟨-, -, evs, -, hevents⟩
        exact hshut _ e' hevents
      · rintro s e' ⟨-, evs, -, hext⟩
        exact hshut _ e' hext.events
    · rw [shutdownAndTerminate_inactive env ctx hact]
      exact he

/-- An entry that goes inactive has shut its connection down, or was told that it was. -/
theorem after_inactive {fuel : Nat} {i : Item} (hi : ∀ reason, i ≠ .connectionShutdown reason)
    (hact : e.connectionIsActive = true) (h : after env fuel e i = some e')
    (hinactive : e'.connectionIsActive = false) :
    .connectionShutdown ∈ e'.events.drop e.events.length := by
  have he : ShutsDown e.events.length e := ⟨le_rfl, fun hfalse => by rw [hact] at hfalse; cases hfalse⟩
  exact (after_keeps ((shutsDown_kept env _).exec fuel hi) he h).inactive hinactive

/-- An entry that is told that its connection was shut down is not active behind that, unless its shutdown handler
throws. -/
theorem after_connectionShutdown (hthrow : ∀ evs, env.onShutdown evs = none) {fuel : Nat}
    {reason : ConnectionShutdownReason} (h : after env fuel e (.connectionShutdown reason) = some e') :
    e'.connectionIsActive = false := by
  have hleaves : Leaves ((handleShutdown env reason).run e) e' := after_leaves h
  rcases Bool.eq_false_or_eq_true e.connectionIsActive with hact | hact
  · rw [run_handleShutdown env reason hact, giveUp] at hleaves
    have hreturns : ∀ evs, e.shutdownHandler.throws env evs = none := by
      intro evs
      unfold ShutdownHandler.throws
      split <;> first | exact hthrow evs | rfl
    rw [hreturns] at hleaves
    rw [hleaves.of_ok]
    rfl
  · rw [handleShutdown_inactive env reason hact] at hleaves
    rw [hleaves.of_ok]
    exact hact

/-! ## Input that is taken -/

/-- The entry has taken packages with these events, and `rest` is left. -/
structure Takes (e e' : Entry μ) (evs : List (Event μ)) (rest : Bytes) : Prop where
  active : e'.connectionIsActive = e.connectionIsActive
  ready : Ready e'.pkgInput
  contents : e'.pkgInput.contents = rest
  events : ∃ new, e'.events = e.events ++ new ∧ new.filter Event.isObserved = shownBy e.connectionIsActive evs ∧
    ∀ ev ∈ new, ev.IsTaking

theorem Takes.trans {evs evs' : List (Event μ)} {rest rest' : Bytes} (h : Takes e e' evs rest)
    (h' : Takes e' e'' evs' rest') : Takes e e'' (evs ++ evs') rest' := by
  obtain ⟨new, hnew, hobs, htaking⟩ := h.events
  obtain ⟨new', hnew', hobs', htaking'⟩ := h'.events
  refine ⟨h'.active.trans h.active, h'.ready, h'.contents, new ++ new', ?_, ?_, ?_⟩
  · rw [hnew', hnew, List.append_assoc]
  · rw [List.filter_append, hobs, hobs', h.active, shownBy_append]
  · intro ev hev
    exact (List.mem_append.1 hev).elim (htaking ev) (htaking' ev)

theorem Takes.messages {evs : List (Event μ)} {rest : Bytes} (h : Takes e e' evs rest) :
    messages e'.events = messages e.events ++ messages evs := by
  obtain ⟨new, hnew, hobs, -⟩ := h.events
  rw [hnew, messages_append, ← messages_observed new, hobs, messages_shownBy]

/-- What `handle_single_package` comes to, by the head of the bytes it finds, when nothing is wrong with them. -/
def HeadTaken (e : Entry μ) (contents : Bytes) : Head (Event μ) → PackageHandlingResult → Entry μ → Prop
  | .more, r, e' => r = .needsMoreInputData ∧ Takes e e' [] contents
  | .item evs n, r, e' => r = .fullyConsumed ∧ Takes e e' evs (contents.drop n)
  | .stop _, _, _ => True

theorem considered_takes (e : Entry μ) : ∃ new, e.considered.events = e.events ++ new ∧
    new.filter Event.isObserved = [] ∧ ∀ ev ∈ new, ev.IsTaking := by
  unfold considered
  split
  · exact ⟨_, rfl, rfl, by simp [Event.IsTaking]⟩
  · exact ⟨[], (List.append_nil _).symm, rfl, by simp⟩

section Run

variable {parsers : Decoder.Parsers μ} (hparse : ParsesAs env parsers) (hconsumer : ∀ evs, env.onMessage evs = none)
include hconsumer hparse

theorem handleSinglePackage_takes (h : Ready e.pkgInput) (hsmall : e.pkgInput.contents.length < 2 ^ 31)
    (hwf : Decoder.WellFormed e.pkgInput.contents)
    (hstop : ∀ evs, Decoder.head env.cfg.maxValidPackageSize parsers e.pkgInput.contents ≠ .stop evs) :
    Sat (handleSinglePackage env) e
      (HeadTaken e e.pkgInput.contents (Decoder.head env.cfg.maxValidPackageSize parsers e.pkgInput.contents))
      fun _ _ => False := by
  have hblocks : ∀ b ∈ e.pkgInput.blocks, b.length < 2 ^ 31 := fun b hb =>
    (List.sublist_flatten_of_mem hb).length_le.trans_lt hsmall
  obtain ⟨handler, hrun, hc⟩ := handleSinglePackage_spec env h (headerOk_of_wellFormed hblocks hwf)
  obtain ⟨new, hnew, hobs, htaking⟩ := considered_takes e
  have hhead : (verdict env e.pkgInput.blocks).toHead =
      Decoder.head env.cfg.maxValidPackageSize parsers e.pkgInput.contents := toHead_verdict hparse hblocks hwf
  have hinput := considered_pkgInput e
  have hactive := considered_active e
  refine Sat.of_run_eq hrun ?_
  rw [← hhead] at hstop ⊢
  cases hv : verdict env e.pkgInput.blocks with
  | more =>
    rw [hv] at hc
    refine Sat.of_run_ok hc ⟨rfl, hactive, hinput ▸ h, by rw [hinput], new, hnew, ?_, htaking⟩
    rw [hobs]
    cases e.connectionIsActive <;> rfl
  | invalid reason =>
    rw [hv] at hstop
    exact absurd rfl (hstop _)
  | heartbeatRequest n =>
    rw [hv] at hc
    obtain ⟨q, hq, hd, hr⟩ := hc
    rw [hinput] at hd
    refine Sat.of_run_ok hr ⟨rfl, hactive, hq, hd, ?_⟩
    dsimp only
    rw [hactive]
    cases e.connectionIsActive with
    | false => exact ⟨new, hnew, hobs, htaking⟩
    | true =>
      refine ⟨new ++ [.scheduleSend (PkgHeader.make pkgContentHeartbeatReply).image], ?_, ?_, ?_⟩
      · rw [if_pos rfl, hnew, List.append_assoc]
      · rw [List.filter_append, hobs]
        rfl
      · intro ev hev
        rcases List.mem_append.1 hev with hev | hev
        · exact htaking ev hev
        · rw [List.mem_singleton.1 hev]
          exact rfl
  | heartbeatReply n =>
    rw [hv] at hc
    obtain ⟨q, hq, hd, hr⟩ := hc
    rw [hinput] at hd
    refine Sat.of_run_ok hr ⟨rfl, hactive, hq, hd, new, hnew, ?_, htaking⟩
    rw [hobs]
    cases e.connectionIsActive <;> rfl
  | message id content msg attachedBinary n =>
    rw [hv] at hc
    obtain ⟨q, hq, hd, hr⟩ := hc
    rw [hinput] at hd
    rw [run_bind_of_ok (consumeMessage_run hconsumer ..)] at hr
    refine Sat.of_run_ok hr ⟨rfl, hactive, hq, hd, new ++ [.message id content msg attachedBinary], ?_, ?_, ?_⟩
    · simp only [hnew, List.append_assoc]
    · rw [List.filter_append, hobs]
      cases e.connectionIsActive <;> rfl
    · intro ev hev
      rcases List.mem_append.1 hev with hev | hev
      · exact htaking ev hev
      · rw [List.mem_singleton.1 hev]
        trivial

theorem runInputStreamLoop_takes : ∀ (fuel : Nat) (e : Entry μ) {evs : List (Event μ)} {rest : Bytes},
    Ready e.pkgInput → e.pkgInput.contents.length < 2 ^ 31 →
    AllGood (Decoder.head env.cfg.maxValidPackageSize parsers) Decoder.WellFormed e.pkgInput.contents →
    decodeAll (Decoder.head env.cfg.maxValidPackageSize parsers) e.pkgInput.contents = (evs, some rest) →
    e.pkgInput.contents.length < fuel →
    Sat (runInputStreamLoop env fuel) e (fun _ e' => Takes e e' evs rest) fun _ _ => False
  | 0, _, _, _, _, _, _, _, h => absurd h (Nat.not_lt_zero _)
  | fuel + 1, e, evs, rest, h, hsmall, hgood, hdecode, hfuel => by
    have hs := Decoder.stable_head env.cfg.maxValidPackageSize parsers
    have hstop : ∀ evs', Decoder.head env.cfg.maxValidPackageSize parsers e.pkgInput.contents ≠ .stop evs' := by
      intro evs' hhead
      rw [decodeAll_stop hhead] at hdecode
      cases hdecode
    have hstep := handleSinglePackage_takes hparse hconsumer h hsmall hgood.here hstop
    refine Sat.bind hstep fun r e₁ h₁ => ?_
    cases hhead : Decoder.head env.cfg.maxValidPackageSize parsers e.pkgInput.contents with
    | more =>
      rw [hhead] at h₁
      obtain ⟨rfl, htakes⟩ := h₁
      rw [decodeAll_more hhead] at hdecode
      cases hdecode
      exact Sat.pure htakes
    | stop evs' => exact absurd hhead (hstop evs')
    | item evs' n =>
      -- a package was taken, and the loop goes on with a shorter input
      rw [hhead] at h₁
      obtain ⟨rfl, htakes⟩ := h₁
      obtain ⟨hpos, hle⟩ := hs.progress _ evs' n hgood.here hhead
      have hlen : e₁.pkgInput.contents.length < e.pkgInput.contents.length := by
        rw [htakes.contents, List.length_drop]
        omega
      have hnext := hgood.next hhead
      rw [decodeAll_item hs hgood hhead, ← htakes.contents] at hdecode
      rw [← htakes.contents] at hnext
      cases hdecode' : decodeAll (Decoder.head env.cfg.maxValidPackageSize parsers) e₁.pkgInput.contents with
      | mk evs₁ rest₁ =>
        rw [hdecode'] at hdecode
        cases hdecode
        exact (runInputStreamLoop_takes fuel e₁ htakes.ready (hlen.trans hsmall) hnext hdecode' (by omega)).mono
          (fun _ _ h => htakes.trans h) fun _ _ h => h

/-- A chunk behind which nothing is wrong with the input is taken. -/
theorem after_input_takes {fuel : Nat} (now : Int) {buf : Bytes} {evs : List (Event μ)} {rest : Bytes}
    (h : Ready e.pkgInput) (hsmall : (e.pkgInput.contents ++ buf).length < 2 ^ 31)
    (hgood : AllGood (Decoder.head env.cfg.maxValidPackageSize parsers) Decoder.WellFormed (e.pkgInput.contents ++ buf))
    (hdecode : decodeAll (Decoder.head env.cfg.maxValidPackageSize parsers) (e.pkgInput.contents ++ buf) =
      (evs, some rest))
    (hfuel : (e.pkgInput.contents ++ buf).length < fuel) :
    ∃ e', after env fuel e (.input now buf) = some e' ∧ Takes e e' evs rest := by
  obtain ⟨q, hq, hready, hcontents⟩ := append_ready h.inv h.notServed buf
  change q.contents = e.pkgInput.contents ++ buf at hcontents
  have hon : (onInput fun q => do return ((), ← q.append buf)).run e = .ok () { e with pkgInput := q } :=
    onInput_ok (by rw [hq]; rfl)
  have hloop := runInputStreamLoop_takes hparse hconsumer fuel { e with pkgInput := q } hready
    (by rw [hcontents]; exact hsmall) (by rw [hcontents]; exact hgood) (by rw [hcontents]; exact hdecode)
    (by rw [hcontents]; exact hfuel)
  have hsat : Sat (handleInput env fuel now buf) e (fun _ e' => Takes e e' evs rest) fun _ _ => False := by
    refine Sat.tryCatch (F := fun _ _ => False) ?_ fun _ _ h => h.elim
    refine Sat.of_run_eq (run_bind_of_ok hon) (hloop.bind fun _ e' h' => ?_)
    exact Sat.modify ⟨h'.active, h'.ready, h'.contents, h'.events⟩
  unfold after
  cases hrun : (exec env fuel (.input now buf)).run e with
  | ok _ e' => exact ⟨e', rfl, hsat.ok hrun⟩
  | error s e' => exact (hsat.error hrun).elim

end Run

/-! ## The other work items -/

/-- The item has no input. -/
def Item.IsOther : Item → Prop
  | .input _ _ => False
  | _ => True

/-- The input is as it was, nothing is delivered, and an entry that goes inactive has shut its
connection down, or knows that it was. -/
structure LeavesInput (i : Item) (e e' : Entry μ) : Prop where
  pkgInput : e'.pkgInput = e.pkgInput
  events : ∃ new, e'.events = e.events ++ new ∧ (∀ ev ∈ new, ev.IsOther) ∧
    (e'.connectionIsActive = false → e.connectionIsActive = false ∨ (∃ reason, i = .connectionShutdown reason) ∨
      .connectionShutdown ∈ new)

theorem isOther_of_handlerCalls {evs : List (Event μ)} (h : ∀ ev ∈ evs, ev.IsHandlerCall) : ∀ ev ∈ evs, ev.IsOther := by
  intro ev hev
  have hcall := h ev hev
  cases ev <;> trivial

theorem LeavesInput.refl {i : Item} (e : Entry μ) : LeavesInput i e e :=
  ⟨rfl, [], (List.append_nil _).symm, by simp, fun h => .inl h⟩

theorem shutdownAndTerminate_leavesInput (ctx : ConnectionShutdownContext) (hctx : ctx.reason.isOfInput = false)
    (i : Item) (e : Entry μ) :
    Sat (shutdownAndTerminate env ctx) e (fun _ e' => LeavesInput i e e')
      fun s e' => s.IsThrown ∧ LeavesInput i e e' := by
  rcases Bool.eq_false_or_eq_true e.connectionIsActive with hact | hact
  · refine (shutdownAndTerminate_spec env ctx hact).mono ?_ ?_
    · rintro _ e' ⟨hinput, -, evs, hevs, h⟩
      refine ⟨hinput, _, h, ?_, fun _ => .inr (.inr (List.mem_cons_self ..))⟩
      have hother := isOther_of_handlerCalls hevs
      intro ev hev
      simp only [List.mem_cons, List.mem_append, List.not_mem_nil, or_false] at hev
      rcases hev with rfl | rfl | hev | rfl
      · trivial
      · exact hctx
      · exact hother ev hev
      · trivial
    · rintro s e' ⟨hs, evs, hevs, h⟩
      refine ⟨hs, h.pkgInput, _, h.events, ?_, fun _ => .inr (.inr (List.mem_cons_self ..))⟩
      exact List.forall_mem_cons.2 ⟨trivial, List.forall_mem_cons.2 ⟨hctx, isOther_of_handlerCalls hevs⟩⟩
  · exact Sat.of_run_ok (shutdownAndTerminate_inactive env ctx hact) (.refl e)

theorem handleShutdown_leavesInput (reason : ConnectionShutdownReason) (e : Entry μ) :
    Sat (handleShutdown env reason) e (fun _ e' => LeavesInput (.connectionShutdown reason) e e') fun s e' =>
      s.IsThrown ∧ LeavesInput (.connectionShutdown reason) e e' := by
  rcases Bool.eq_false_or_eq_true e.connectionIsActive with hact | hact
  · refine (handleShutdown_spec env reason hact).mono ?_ ?_
    · rintro _ e' ⟨hinput, -, evs, hevs, h⟩
      refine ⟨hinput, _, h, ?_, fun _ => .inr (.inl ⟨reason, rfl⟩)⟩
      have hother := isOther_of_handlerCalls hevs
      intro ev hev
      simp only [List.mem_cons, List.mem_append, List.not_mem_nil, or_false] at hev
      rcases hev with rfl | hev | rfl
      · rfl
      · exact hother ev hev
      · trivial
    · rintro s e' ⟨hs, evs, hevs, h⟩
      refine ⟨hs, h.pkgInput, _, h.events, ?_, fun _ => .inr (.inl ⟨reason, rfl⟩)⟩
      exact List.forall_mem_cons.2 ⟨rfl, isOther_of_handlerCalls hevs⟩
  · exact Sat.of_run_ok (handleShutdown_inactive env reason hact) (.refl e)

/-- An item without input is always carried out. -/
theorem after_other {fuel : Nat} {i : Item} (hi : i.IsOther) (e : Entry μ) :
    ∃ e', after env fuel e i = some e' ∧ LeavesInput i e e' := by
  have hsat : Sat (exec env fuel i) e (fun _ e' => LeavesInput i e e') fun s e' => s.IsThrown ∧ LeavesInput i e e' := by
    cases i with
    | input now buf => exact hi.elim
    | close => exact shutdownAndTerminate_leavesInput { reason := .userInitiated } rfl .close e
    | connectionShutdown reason => exact handleShutdown_leavesInput reason e
    | checkHeartbeat now =>
      have heffect := onCheckHeartbeat_effect env now e
      show Sat (onCheckHeartbeat env now) e _ _
      unfold Sat
      generalize (onCheckHeartbeat env now).run e = r at heffect
      cases heffect with
      | inactive => exact .refl e
      | early => exact ⟨rfl, [], (List.append_nil _).symm, by simp, fun h => .inl h⟩
      | timeout => exact shutdownAndTerminate_leavesInput { reason := .hearbeatReplyTimeout } rfl _ e
      | request => exact ⟨rfl, _, rfl, by simp [Event.IsOther], fun h => .inl h⟩
  unfold after
  cases hrun : (exec env fuel i).run e with
  | ok _ e' => exact ⟨e', rfl, hsat.ok hrun⟩
  | error s e' =>
    obtain ⟨⟨what, rfl⟩, hleaves⟩ := hsat.error hrun
    exact ⟨e', rfl, hleaves⟩

end Entry

end Opio.ProtoEntry
