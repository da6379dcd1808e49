/-
What an entry still does once it has terminated. The handlers do not ask whether the entry is
active before they look at the input, so nothing follows a termination only as long as the chunks
that still come do not add up to a header.
-/
import Opio.Lib.Runs
import Opio.ProtoEntry.Shutdown

namespace Opio.ProtoEntry

variable {μ : Type}

/-- The input is looked at, a message is delivered or something is sent. -/
def Event.IsActivity : Event μ → Prop
  | .considerHeader _ _ => True
  | .message _ _ _ _ => True
  | .scheduleSend _ => True
  | _ => False

/-- No activity comes after the entry has become inactive. -/
def QuietAfterTermination (evs : List (Event μ)) : Prop :=
  ∀ before later, evs = before ++ .inactive :: later → ∀ ev ∈ later, ¬ ev.IsActivity

theorem quiet_of_not_mem {evs : List (Event μ)} (h : .inactive ∉ evs) : QuietAfterTermination evs := by
  rintro before later rfl
  exact absurd (List.mem_append_right before (List.mem_cons_self ..)) h

/-- The entry becomes inactive with the last of the events. -/
theorem quiet_concat_inactive {evs : List (Event μ)} (h : .inactive ∉ evs) :
    QuietAfterTermination (evs ++ [.inactive]) := by
  intro before later heq ev hev
  rcases List.eq_nil_or_concat later with rfl | ⟨later, last, rfl⟩
  · cases hev
  · have hsplit : evs = before ++ .inactive :: later := by
      have : evs ++ [.inactive] = (before ++ .inactive :: later) ++ [last] := by simpa using heq
      exact (List.append_inj' this rfl).1
    rw [hsplit] at h
    exact absurd (List.mem_append_right before (List.mem_cons_self ..)) h

namespace Entry

variable {env : EntryEnv μ} {e : Entry μ}

/-! ## Before and after -/

structure Live (e : Entry μ) : Prop where
  active : e.connectionIsActive = true
  events : .inactive ∉ e.events

structure Terminated (e : Entry μ) : Prop where
  inactive : e.connectionIsActive = false
  events : QuietAfterTermination e.events

theorem Live.quiet (h : Live e) : QuietAfterTermination e.events := quiet_of_not_mem h.events

theorem live_init (env : EntryEnv μ) (sh : ShutdownHandler) (now : Int) : Live (init env sh now) :=
  ⟨rfl, List.not_mem_nil⟩

theorem Live.extends (h : Live e) {e' : Entry μ} {evs : List (Event μ)} (hx : Extends e e' evs)
    (hevs : .inactive ∉ evs) : Live e' := by
  refine ⟨hx.connectionIsActive.trans h.active, ?_⟩
  rw [hx.events, List.mem_append, not_or]
  exact ⟨h.events, hevs⟩

theorem not_mem_of_handlerCalls {evs : List (Event μ)} (h : ∀ ev ∈ evs, ev.IsHandlerCall) : .inactive ∉ evs :=
  fun hmem => (h _ hmem).elim

/-- That it has become inactive is the last that a live entry reports. -/
theorem Live.terminated (h : Live e) {e' : Entry μ} {evs : List (Event μ)} (hact : e'.connectionIsActive = false)
    (hevs : .inactive ∉ evs) (hev : e'.events = e.events ++ (evs ++ [.inactive])) : Terminated e' := by
  refine ⟨hact, ?_⟩
  rw [hev, ← List.append_assoc]
  apply quiet_concat_inactive
  rw [List.mem_append, not_or]
  exact ⟨h.events, hevs⟩

/-- An entry that is given up terminates, or stays as it is when its handler throws. -/
theorem shutdownAndTerminate_live (ctx : ConnectionShutdownContext) (h : Live e) :
    Sat (shutdownAndTerminate env ctx) e (fun _ => Terminated) fun _ => Live := by
  have hreport : ∀ {evs : List (Event μ)}, (∀ ev ∈ evs, ev.IsHandlerCall) →
      Event.inactive ∉ Event.connectionShutdown :: Event.terminate ctx :: evs :=
    fun hevs => by simp [not_mem_of_handlerCalls hevs]
  refine (shutdownAndTerminate_spec env ctx h.active).mono ?_ ?_
  · rintro _ e' ⟨-, hact, evs, hevs, hev⟩
    exact h.terminated hact (hreport hevs) hev
  · rintro s e' ⟨-, evs, hevs, hx⟩
    exact h.extends hx (hreport hevs)

theorem handleShutdown_live (reason : ConnectionShutdownReason) (h : Live e) :
    Sat (handleShutdown env reason) e (fun _ => Terminated) fun _ => Live := by
  have hreport : ∀ {evs : List (Event μ)}, (∀ ev ∈ evs, ev.IsHandlerCall) →
      Event.inactive ∉ Event.terminate { reason := .underlyingConnection, underlyingReason := some reason } :: evs :=
    fun hevs => by simp [not_mem_of_handlerCalls hevs]
  refine (handleShutdown_spec env reason h.active).mono ?_ ?_
  · rintro _ e' ⟨-, hact, evs, hevs, hev⟩
    exact h.terminated hact (hreport hevs) hev
  · rintro s e' ⟨-, evs, hevs, hx⟩
    exact h.extends hx (hreport hevs)

/-! ## One package of a live entry -/

theorem emit_live (h : Live e) {ev : Event μ} (hev : ev ≠ .inactive) :
    Sat (emit ev) e (fun _ => Live) fun _ _ => False :=
  (emit_extends ev e).mono (fun _ _ hx => h.extends hx (by simpa using hev.symm)) fun _ _ h => h

theorem callUser_live (throws : List (Event μ) → Option String) (h : Live e) :
    Sat (callUser throws) e (fun _ => Live) fun _ => Live :=
  (callUser_extends throws e).mono (fun _ _ hx => h.extends hx List.not_mem_nil)
    fun _ _ hx => h.extends hx.2 List.not_mem_nil

theorem onInput_live {α : Type} (f : PkgInput 8 → Except Fault (α × PkgInput 8)) (h : Live e) :
    Sat (onInput f) e (fun _ => Live) fun _ => Live := by
  refine (onInput_sat f e).mono ?_ ?_
  · rintro _ _ ⟨q, -, rfl⟩
    exact ⟨h.active, h.events⟩
  · rintro _ _ ⟨rfl, -⟩
    exact h

theorem invalidPackage_live (reason : EntryShutdownReason) (h : Live e) :
    Sat (invalidPackage env reason) e (fun r e' => r = .invalidPackage ∧ Terminated e') fun _ => Live :=
  (shutdownAndTerminate_live _ h).bind fun _ _ h => Sat.pure ⟨rfl, h⟩

/-- What a handler makes of a live entry: only a package that is given up ends it. -/
def StaysLive (r : PackageHandlingResult) (e : Entry μ) : Prop :=
  Live e ∨ r = .invalidPackage ∧ Terminated e

theorem invalidPackage_staysLive (reason : EntryShutdownReason) (h : Live e) :
    Sat (invalidPackage env reason) e StaysLive fun _ => Live :=
  (invalidPackage_live reason h).mono (fun _ _ h => .inr h) fun _ _ h => h

theorem parsePackage_live (engine : ProtobufEngine μ) (n : Nat) (h : Live e) :
    Sat (parsePackage engine n) e (fun _ => Live) fun _ => Live := by
  refine Sat.get_bind (Sat.bind (onInput_live _ h) fun _ e' h' => Sat.get_bind ?_)
  split <;> exact Sat.pure h'

theorem handleIncomingMessage_live (header : PkgHeader) (h : Live e) :
    Sat (handleIncomingMessage env header) e StaysLive fun _ => Live := by
  unfold handleIncomingMessage
  split
  · exact invalidPackage_staysLive _ h
  · refine Sat.get_bind (Sat.bind (parsePackage_live _ _ h) fun parsed e₁ h₁ => ?_)
    cases parsed with
    | none => exact invalidPackage_staysLive _ h₁
    | some msg =>
      refine Sat.bind (onInput_live _ h₁) fun _ e₂ h₂ => ?_
      have hconsume : ∀ attachedBinary e₃, Live e₃ → Sat (do
          consumeMessage env header.contentSpecificValue
            ((e.pkgInput.view.flatten).take header.contentSize.toNat) msg attachedBinary
          return .fullyConsumed : EntryM μ PackageHandlingResult) e₃ StaysLive fun _ => Live := by
        intro attachedBinary e₃ h₃
        refine Sat.bind (Q := fun _ => Live) ?_ fun _ e₄ h₄ => Sat.pure (.inl h₄)
        exact Sat.bind ((emit_live h₃ (by simp)).mono (fun _ _ h => h) fun _ _ h => h.elim)
          fun _ e₄ h₄ => callUser_live _ h₄
      split
      · exact Sat.bind (Q := fun _ => Live) (Sat.pure h₂) fun _ e₃ h₃ => hconsume _ e₃ h₃
      · exact Sat.bind (onInput_live _ h₂) fun _ e₃ h₃ => hconsume _ e₃ h₃

theorem handlePackage_live (header : PkgHeader) (h : Live e) :
    Sat (handlePackage env header) e StaysLive fun _ => Live := by
  unfold handlePackage
  split
  · unfold handleMessagePkg
    split
    · exact invalidPackage_staysLive _ h
    · refine Sat.get_bind ?_
      split
      · exact Sat.pure (.inl h)
      · exact Sat.bind (onInput_live _ h) fun _ e' h' => handleIncomingMessage_live header h'
  split
  · unfold handleHeartbeatRequestPkg
    split
    · exact invalidPackage_staysLive _ h
    · refine Sat.bind (onInput_live _ h) fun _ e' h' => Sat.get_bind ?_
      split
      · exact Sat.bind ((emit_live h' (by simp)).mono (fun _ _ h => h) fun _ _ h => h.elim)
          fun _ e₂ h₂ => Sat.pure (.inl h₂)
      · exact Sat.pure (.inl h')
  split
  · unfold handleHeartbeatReplyPkg
    split
    · exact invalidPackage_staysLive _ h
    · exact Sat.bind (onInput_live _ h) fun _ e' h' => Sat.pure (.inl h')
  · exact invalidPackage_staysLive _ h

theorem handleSinglePackage_live (h : Live e) :
    Sat (handleSinglePackage env) e StaysLive fun _ => Live := by
  refine Sat.get_bind ?_
  split
  · refine Sat.bind (onInput_live _ h) fun header e₁ h₁ => Sat.get_bind ?_
    exact Sat.bind ((emit_live h₁ (by simp)).mono (fun _ _ h => h) fun _ _ h => h.elim)
      fun _ e₂ h₂ => handlePackage_live header h₂
  · exact Sat.pure (.inl h)

/-! ## Work items -/

/-- Live or terminated, an entry has shown no activity after its termination. -/
def LiveOrTerminated (e : Entry μ) : Prop := Live e ∨ Terminated e

theorem LiveOrTerminated.quiet (h : LiveOrTerminated e) : QuietAfterTermination e.events :=
  h.elim Live.quiet Terminated.events

theorem LiveOrTerminated.of_eq (h : LiveOrTerminated e) {e' : Entry μ}
    (hactive : e'.connectionIsActive = e.connectionIsActive) (hevents : e'.events = e.events) : LiveOrTerminated e' :=
  h.imp (fun h => ⟨hactive.trans h.active, by rw [hevents]; exact h.events⟩)
    fun h => ⟨hactive.trans h.inactive, by rw [hevents]; exact h.events⟩

/-- The loop ends with the package that is given up. -/
theorem runInputStreamLoop_live : ∀ (fuel : Nat) (e : Entry μ), Live e →
    Sat (runInputStreamLoop env fuel) e (fun _ => LiveOrTerminated) fun _ => Live
  | 0, _, h => Sat.throw h
  | fuel + 1, e, h => by
    refine Sat.bind (handleSinglePackage_live h) fun r e' h' => ?_
    cases r with
    | fullyConsumed =>
      rcases h' with h' | ⟨hr, -⟩
      · exact runInputStreamLoop_live fuel e' h'
      · cases hr
    | needsMoreInputData => exact Sat.pure (h'.imp_right And.right)
    | invalidPackage => exact Sat.pure (h'.imp_right And.right)

theorem shutdownAndTerminate_liveOrTerminated (ctx : ConnectionShutdownContext) (h : LiveOrTerminated e) :
    Sat (shutdownAndTerminate env ctx) e (fun _ => LiveOrTerminated) fun _ => LiveOrTerminated := by
  rcases h with h | h
  · exact (shutdownAndTerminate_live ctx h).mono (fun _ _ h => .inr h) fun _ _ h => .inl h
  · exact Sat.of_run_ok (shutdownAndTerminate_inactive env ctx h.inactive) (.inr h)

theorem handleInputException_liveOrTerminated (s : Stop) (h : LiveOrTerminated e) :
    Sat (handleInputException env s) e (fun _ => LiveOrTerminated) fun _ => LiveOrTerminated := by
  cases s with
  | thrown what => exact shutdownAndTerminate_liveOrTerminated _ h
  | fault f => exact Sat.throw h
  | diverged => exact Sat.throw h

theorem handleInput_live (fuel : Nat) (now : Int) (buf : Bytes) (h : Live e) :
    Sat (handleInput env fuel now buf) e (fun _ => LiveOrTerminated) fun _ => LiveOrTerminated := by
  refine Sat.tryCatch (F := fun _ => Live) ?_ fun s e' h' => handleInputException_liveOrTerminated s (.inl h')
  refine Sat.bind (onInput_live _ h) fun _ e₁ h₁ => ?_
  refine Sat.bind (runInputStreamLoop_live fuel e₁ h₁) fun _ e₂ h₂ => Sat.modify ?_
  exact h₂.of_eq rfl rfl

theorem append_size {q q' : PkgInput 8} {buf : Bytes} (h : q.append buf = .ok q') :
    q'.size = q.size + buf.length := by
  rcases Bool.eq_false_or_eq_true q.firstBufferServed with hs | hs
  · rw [PkgInput.append, assertThat_error (by simp [hs])] at h
    cases h
  · rw [PkgInput.append_eq hs] at h
    rw [← Except.ok.inj h]
    split <;> rfl

/-- With less than a header in the input nothing is looked at. -/
theorem handleInput_terminated (fuel : Nat) (now : Int) {buf : Bytes} (h : Terminated e)
    (hsmall : e.pkgInput.size + buf.length < sizeofPkgHeader) :
    Sat (handleInput env fuel now buf) e (fun _ => LiveOrTerminated) fun _ => LiveOrTerminated := by
  refine Sat.tryCatch (F := fun _ => Terminated) ?_ fun s e' h' => handleInputException_liveOrTerminated s (.inr h')
  refine Sat.bind (Q := fun _ e' => Terminated e' ∧ e'.pkgInput.size < sizeofPkgHeader) ?_ ?_
  · refine (onInput_sat _ e).mono ?_ ?_
    · rintro _ _ ⟨q, hq, rfl⟩
      obtain ⟨q', happend, heq⟩ := bind_eq_ok.1 hq
      obtain rfl : q' = q := congrArg Prod.snd (Except.ok.inj heq)
      refine ⟨⟨h.inactive, h.events⟩, ?_⟩
      change q'.size < sizeofPkgHeader
      rw [append_size happend]
      exact hsmall
    · rintro _ _ ⟨rfl, -⟩
      exact h
  · rintro _ e₁ ⟨h₁, hsize⟩
    have hshort : (handleSinglePackage env).run e₁ = .ok .needsMoreInputData e₁ := by
      rw [handleSinglePackage, run_bind_of_ok (EStateM.run_get e₁), if_neg (Nat.not_le.2 hsize)]
      rfl
    cases fuel with
    | zero => exact Sat.bind (Q := fun _ _ => False) (Sat.throw h₁) fun _ _ h => h.elim
    | succ fuel =>
      have hloop : (runInputStreamLoop env (fuel + 1)).run e₁ = .ok () e₁ := by
        rw [runInputStreamLoop, run_bind_of_ok hshort]
        rfl
      exact Sat.bind (Sat.of_run_ok (Q := fun _ => Terminated) hloop h₁) fun _ e₂ h₂ =>
        Sat.modify (.inr ⟨h₂.inactive, h₂.events⟩)

theorem handleShutdown_liveOrTerminated (reason : ConnectionShutdownReason) (h : LiveOrTerminated e) :
    Sat (handleShutdown env reason) e (fun _ => LiveOrTerminated) fun _ => LiveOrTerminated := by
  rcases h with h | h
  · exact (handleShutdown_live reason h).mono (fun _ _ h => .inr h) fun _ _ h => .inl h
  · exact Sat.of_run_ok (handleShutdown_inactive env reason h.inactive) (.inr h)

theorem onCheckHeartbeat_liveOrTerminated (now : Int) (h : LiveOrTerminated e) :
    Sat (onCheckHeartbeat env now) e (fun _ => LiveOrTerminated) fun _ => LiveOrTerminated := by
  refine Sat.get_bind ?_
  split
  · exact Sat.pure h
  rename_i hactive
  have hlive : Live e := h.resolve_right fun ht => hactive ht.inactive
  dsimp only
  split
  · exact Sat.modify (h.of_eq rfl rfl)
  split
  · exact shutdownAndTerminate_liveOrTerminated _ h
  · refine Sat.bind (Q := fun _ => LiveOrTerminated) ?_ fun _ e₁ h₁ => ?_
    · exact Sat.bind ((emit_live hlive (by simp)).mono (fun _ _ h => h) fun _ _ h => h.elim)
        fun _ e₁ h₁ => Sat.modify (LiveOrTerminated.of_eq (.inl h₁) rfl rfl)
    · split <;> exact Sat.modify (h₁.of_eq rfl rfl)

/-- A chunk that comes after the termination leaves less than a header in the input. -/
def FewBytesAfterTermination (e : Entry μ) : Item → Prop
  | .input _ buf => e.connectionIsActive = false → e.pkgInput.size + buf.length < sizeofPkgHeader
  | _ => True

instance (e : Entry μ) (i : Item) : Decidable (FewBytesAfterTermination e i) :=
  match i with
  | .input _ _ => inferInstanceAs (Decidable (_ → _))
  | .close => isTrue trivial
  | .connectionShutdown _ => isTrue trivial
  | .checkHeartbeat _ => isTrue trivial

theorem exec_liveOrTerminated (fuel : Nat) (i : Item) (h : LiveOrTerminated e) (hfew : FewBytesAfterTermination e i) :
    Sat (exec env fuel i) e (fun _ => LiveOrTerminated) fun _ => LiveOrTerminated := by
  cases i with
  | input now buf =>
    rcases h with h | h
    · exact handleInput_live fuel now buf h
    · exact handleInput_terminated fuel now h (hfew h.inactive)
  | close => exact shutdownAndTerminate_liveOrTerminated _ h
  | connectionShutdown reason => exact handleShutdown_liveOrTerminated reason h
  | checkHeartbeat now => exact onCheckHeartbeat_liveOrTerminated now h

theorem after_eq_finalState {fuel : Nat} {i : Item} {e' : Entry μ} (h : after env fuel e i = some e') :
    finalState ((exec env fuel i).run e) = e' := by
  unfold after at h
  split at h
  · rename_i hrun
    rw [hrun]
    exact Option.some.inj h
  · rename_i hrun
    rw [hrun]
    exact Option.some.inj h
  · cases h

/-- The events show no activity after the termination, whether the item ends or is stopped. -/
def StaysQuiet (env : EntryEnv μ) (fuel : Nat) (e : Entry μ) (i : Item) : Prop :=
  QuietAfterTermination (finalState ((exec env fuel i).run e)).events

/-- In a run whose chunks after the termination never make up a header, no message is delivered,
nothing is sent and no header is looked at after the termination. -/
theorem run_quiet_after_termination (env : EntryEnv μ) (fuel : Nat) (sh : ShutdownHandler) (now : Int)
    (items : List Item) (h : Along (after env fuel) FewBytesAfterTermination (init env sh now) items) :
    Along (after env fuel) (StaysQuiet env fuel) (init env sh now) items := by
  refine Along.of_invariant (I := LiveOrTerminated) ?_ ?_ items _ (.inl (live_init env sh now)) h
  · intro e i hinv hfew
    exact (exec_liveOrTerminated fuel i hinv hfew).final.quiet
  · intro e i e' hinv hfew hafter
    rw [← after_eq_finalState hafter]
    exact (exec_liveOrTerminated fuel i hinv hfew).final

/-- A message, a few more bytes after the entry was closed, and the notice that the peer is gone. -/
theorem run_quiet_after_termination_close :
    Along (after (plainEnv .raw) 5) (StaysQuiet (plainEnv .raw) 5) (init (plainEnv .raw) .handler2 0)
      [.input 1 [0, 3, 1, 0, 0, 0, 0, 0, 0, 0, 0, 0], .close, .input 2 [9, 3, 0, 0, 0, 0, 0, 0, 0, 0, 0],
        .connectionShutdown .eof] :=
  run_quiet_after_termination _ _ _ _ _ (by decide +kernel)

/-- An entry without a shutdown handler that was closed before any input. -/
def closedEntry : Entry Bytes where
  connectionIsActive := false
  shutdownHandler := .wasCalled
  lastInputAt := 0
  heartbeatTimer := none
  events := [.connectionShutdown, .terminate { reason := .userInitiated }, .inactive]

/-- A message in a chunk that was under way when the entry was closed is still delivered. -/
theorem not_quiet_after_close :
    ¬ Along (after (plainEnv .raw) 5) (StaysQuiet (plainEnv .raw) 5) (init (plainEnv .raw) .notSupplied 0)
      [.close, .input 1 [0, 3, 1, 0, 0, 0, 0, 0, 0, 0, 0, 0]] := by
  have hclose : after (plainEnv .raw) 5 (init (plainEnv .raw) .notSupplied 0) .close = some closedEntry := rfl
  have hevents : (finalState ((exec (plainEnv .raw) 5 (.input 1 [0, 3, 1, 0, 0, 0, 0, 0, 0, 0, 0, 0])).run
      closedEntry)).events =
        [.connectionShutdown, .terminate { reason := .userInitiated }] ++ .inactive ::
          [.considerHeader { pkgContentType := 0, contentSpecificValue := 1 } 12, .message 1 [] [] []] := by
    decide +kernel
  intro h
  have h := h.2
  rw [hclose] at h
  exact h.1 _ _ hevents (.message 1 [] [] []) (by simp) trivial

end Entry

end Opio.ProtoEntry
