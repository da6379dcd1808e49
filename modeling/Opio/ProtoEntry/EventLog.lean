/-
Whatever an entry does, however it ends, the events before it stay as they are.
-/
import Opio.ProtoEntry.Shutdown

namespace Opio.ProtoEntry

variable {μ : Type}

namespace Entry

variable {env : EntryEnv μ} {e e' : Entry μ}

/-! ## The steps a handler is made of -/

theorem emit_grows (ev : Event μ) : Grows Entry.events (emit ev) :=
  Grows.modify fun _ => List.prefix_append _ _

theorem onInput_grows {α : Type} (f : PkgInput 8 → Except Fault (α × PkgInput 8)) :
    Grows Entry.events (onInput f : EntryM μ α) := by
  intro e
  refine Sat.final (P := fun e' => e.events <+: e'.events) ((onInput_sat f e).mono ?_ ?_)
  · rintro _ _ ⟨q, -, rfl⟩
    exact List.prefix_rfl
  · rintro _ _ ⟨rfl, -⟩
    exact List.prefix_rfl

theorem callUser_grows (throws : List (Event μ) → Option String) : Grows Entry.events (callUser throws) := by
  refine Grows.get.bind fun e => ?_
  split
  · exact Grows.throw _
  · exact Grows.pure _

theorem unchanged_grows {f : Entry μ → Entry μ} (h : ∀ e, (f e).events = e.events) :
    Grows Entry.events (modify f : EntryM μ PUnit) :=
  Grows.modify fun e => ⟨[], by rw [List.append_nil, h]⟩

theorem visitShutdownHandler_grows (env : EntryEnv μ) (ctx : ConnectionShutdownContext) (sh : ShutdownHandler) :
    Grows Entry.events (visitShutdownHandler env ctx sh) := by
  have hcancel : Grows Entry.events (cancelHeartbeatTimer : EntryM μ Unit) := unchanged_grows fun _ => rfl
  cases sh with
  | notSupplied => exact hcancel
  | wasCalled => exact Grows.pure _
  | handler => exact (emit_grows _).bind fun _ => (callUser_grows _).bind fun _ => hcancel
  | handler2 => exact (emit_grows _).bind fun _ => (callUser_grows _).bind fun _ => hcancel

/-! ## Termination -/

theorem terminate_grows (env : EntryEnv μ) (ctx : ConnectionShutdownContext) :
    Grows Entry.events (terminate env ctx) := by
  refine Grows.get.bind fun e => ?_
  split
  · exact Grows.throw _
  · exact (emit_grows _).bind fun _ => Grows.get.bind fun _ => (visitShutdownHandler_grows _ _ _).bind fun _ =>
      unchanged_grows fun _ => rfl

theorem deactivate_grows : Grows Entry.events (deactivate : EntryM μ Unit) :=
  (unchanged_grows fun _ => rfl).bind fun _ => emit_grows _

theorem shutdownAndTerminate_grows (env : EntryEnv μ) (ctx : ConnectionShutdownContext) :
    Grows Entry.events (shutdownAndTerminate env ctx) := by
  refine Grows.get.bind fun e => ?_
  split
  · exact Grows.pure _
  · exact (emit_grows _).bind fun _ => (terminate_grows _ _).bind fun _ => deactivate_grows

theorem handleShutdown_grows (env : EntryEnv μ) (reason : ConnectionShutdownReason) :
    Grows Entry.events (handleShutdown env reason) := by
  refine Grows.get.bind fun e => ?_
  split
  · exact Grows.pure _
  · exact (terminate_grows _ _).bind fun _ => deactivate_grows

theorem invalidPackage_grows (env : EntryEnv μ) (reason : EntryShutdownReason) :
    Grows Entry.events (invalidPackage env reason) :=
  (shutdownAndTerminate_grows _ _).bind fun _ => Grows.pure _

/-! ## Packages -/

theorem handleIncomingMessage_grows (env : EntryEnv μ) (header : PkgHeader) :
    Grows Entry.events (handleIncomingMessage env header) := by
  unfold handleIncomingMessage
  split
  · exact invalidPackage_grows _ _
  refine Grows.get.bind fun e => Grows.bind ?_ fun msg? => ?_
  · refine Grows.get.bind fun e => (onInput_grows _).bind fun _ => Grows.get.bind fun e' => ?_
    split <;> exact Grows.pure _
  · split
    · exact invalidPackage_grows _ _
    have hconsume : ∀ id content msg attachedBinary, Grows Entry.events (do
        consumeMessage env id content msg attachedBinary
        return .fullyConsumed : EntryM μ PackageHandlingResult) := fun _ _ _ _ =>
      ((emit_grows _).bind fun _ => callUser_grows _).bind fun _ => Grows.pure _
    refine (onInput_grows _).bind fun _ => ?_
    split
    · exact (Grows.pure _).bind fun _ => hconsume _ _ _ _
    · exact (onInput_grows _).bind fun _ => hconsume _ _ _ _

theorem handlePackage_grows (env : EntryEnv μ) (header : PkgHeader) :
    Grows Entry.events (handlePackage env header) := by
  unfold handlePackage
  split
  · unfold handleMessagePkg
    split
    · exact invalidPackage_grows _ _
    refine Grows.get.bind fun e => ?_
    split
    · exact Grows.pure _
    · exact (onInput_grows _).bind fun _ => handleIncomingMessage_grows _ _
  split
  · unfold handleHeartbeatRequestPkg
    split
    · exact invalidPackage_grows _ _
    refine (onInput_grows _).bind fun _ => Grows.get.bind fun e => ?_
    split
    · exact (emit_grows _).bind fun _ => Grows.pure _
    · exact Grows.pure _
  split
  · unfold handleHeartbeatReplyPkg
    split
    · exact invalidPackage_grows _ _
    · exact (onInput_grows _).bind fun _ => Grows.pure _
  · exact invalidPackage_grows _ _

theorem runInputStreamLoop_grows (env : EntryEnv μ) : ∀ fuel, Grows Entry.events (runInputStreamLoop env fuel)
  | 0 => Grows.throw _
  | fuel + 1 => by
    refine Grows.bind ?_ fun r => ?_
    · refine Grows.get.bind fun e => ?_
      split
      · exact (onInput_grows _).bind fun _ => Grows.get.bind fun _ => (emit_grows _).bind fun _ =>
          handlePackage_grows _ _
      · exact Grows.pure _
    · split
      · exact runInputStreamLoop_grows env fuel
      · exact Grows.pure _

/-! ## Work items -/

theorem handleInputException_grows (env : EntryEnv μ) (s : Stop) : Grows Entry.events (handleInputException env s) := by
  cases s with
  | thrown what => exact shutdownAndTerminate_grows _ _
  | fault f => exact Grows.throw _
  | diverged => exact Grows.throw _

theorem exec_grows (env : EntryEnv μ) (fuel : Nat) (i : Item) : Grows Entry.events (exec env fuel i) := by
  cases i with
  | input now buf =>
    refine Grows.tryCatch ?_ (handleInputException_grows env)
    exact (onInput_grows _).bind fun _ => (runInputStreamLoop_grows _ _).bind fun _ => unchanged_grows fun _ => rfl
  | close => exact shutdownAndTerminate_grows _ _
  | connectionShutdown reason => exact handleShutdown_grows _ _
  | checkHeartbeat now =>
    refine Grows.get.bind fun e => ?_
    split
    · exact Grows.pure _
    dsimp only
    split
    · exact unchanged_grows fun _ => rfl
    split
    · exact shutdownAndTerminate_grows _ _
    refine Grows.bind ((emit_grows _).bind fun _ => unchanged_grows fun _ => rfl) fun _ => ?_
    split <;> exact unchanged_grows fun _ => rfl

theorem after_grows {fuel : Nat} {i : Item} (h : after env fuel e i = some e') : e.events <+: e'.events := by
  have hgrows := exec_grows env fuel i e
  unfold after at h
  split at h
  · rename_i hrun
    rw [hrun] at hgrows
    exact Option.some.inj h ▸ hgrows
  · rename_i hrun
    rw [hrun] at hgrows
    exact Option.some.inj h ▸ hgrows
  · cases h

theorem run_grows (env : EntryEnv μ) (fuel : Nat) : ∀ (items : List Item) (e : Entry μ),
    e.events <+: (run env fuel e items).events
  | [], _ => List.prefix_rfl
  | i :: items, e => by
    rw [run]
    cases h : after env fuel e i with
    | none => exact exec_grows env fuel i e
    | some e' => exact (after_grows h).trans (run_grows env fuel items e')

end Entry

end Opio.ProtoEntry
