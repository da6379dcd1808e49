/-
The input loop and the preconditions of the input queue: as long as every header the loop looks at
keeps them, no assertion fails; as long as every header also advertises at least its own twelve
bytes, each package takes bytes off the input and the loop ends.
-/
import Opio.Lib.Runs
import Opio.ProtoEntry.PackageStep
import Opio.ProtoEntry.Shutdown

namespace Opio.ProtoEntry

variable {μ : Type}

/-- How many bytes a package takes off the input. -/
def Verdict.consumes : Verdict μ → Option Nat
  | .heartbeatRequest n => some n
  | .heartbeatReply n => some n
  | .message _ _ _ _ n => some n
  | _ => none

namespace Entry

variable {env : EntryEnv μ} {e : Entry μ}

/-! ## One package -/

/-- A heartbeat at the head of the input advertises at least the bytes its header has. -/
def HeartbeatAdvances (blocks : List Bytes) : Prop :=
  sizeofPkgHeader ≤ blocks.flatten.length →
    let header := PkgHeader.ofImage blocks.flatten
    header.pkgContentType = pkgContentHeartbeatRequest ∨ header.pkgContentType = pkgContentHeartbeatReply →
      ¬ hasContent header → sizeofPkgHeader ≤ header.advertizedHeaderSize

instance (blocks : List Bytes) : Decidable (HeartbeatAdvances blocks) :=
  inferInstanceAs (Decidable (_ → _ → _ → _))

theorem heartbeatVerdict_consumes {header : PkgHeader} {v : Nat → Verdict μ} (hv : ∀ n, (v n).consumes = some n)
    {n : Nat} (h : (heartbeatVerdict header v).consumes = some n) :
    ¬ hasContent header ∧ n = header.advertizedHeaderSize := by
  unfold heartbeatVerdict at h
  split at h
  · cases h
  · rename_i hcontent
    exact ⟨hcontent, by simpa [hv] using h.symm⟩

theorem messageVerdict_consumes {header : PkgHeader} {body : List Bytes} {size n : Nat}
    (h : (messageVerdict env header body size).consumes = some n) : n = size := by
  rcases messageVerdict_cases env header body with ⟨reason, hmv⟩ | ⟨id, content, msg, attachedBinary, hmv⟩
  · rw [hmv] at h
    cases h
  · rw [hmv] at h
    exact (Option.some.inj h).symm

/-- A package takes no more than there is, and no less than its header. -/
theorem verdict_consumes {blocks : List Bytes} (hok : HeaderOk env blocks) (hadv : HeartbeatAdvances blocks) {n : Nat}
    (h : (verdict env blocks).consumes = some n) : sizeofPkgHeader ≤ n ∧ n ≤ blocks.flatten.length := by
  unfold verdict at h
  split at h
  · cases h
  rename_i hge
  have hle := Nat.not_lt.1 hge
  have hok := hok hle
  have hadv := hadv hle
  dsimp only at h hok hadv
  split at h
  · rename_i hmessage
    rw [if_pos hmessage] at hok
    split at h
    · cases h
    rename_i hvalid
    split at h
    · cases h
    rename_i hcomplete
    obtain ⟨h12, -⟩ := hok (by simpa using hvalid) (Nat.not_lt.1 hcomplete)
    rw [messageVerdict_consumes h]
    exact ⟨h12.trans (by unfold packageSize; omega), Nat.not_lt.1 hcomplete⟩
  rename_i hmessage
  rw [if_neg hmessage] at hok
  split at h
  · rename_i hrequest
    rw [if_pos (.inl hrequest)] at hok
    obtain ⟨hcontent, rfl⟩ := heartbeatVerdict_consumes (fun _ => rfl) h
    exact ⟨hadv (.inl hrequest) hcontent, hok hcontent⟩
  split at h
  · rename_i hreply
    rw [if_pos (.inr hreply)] at hok
    obtain ⟨hcontent, rfl⟩ := heartbeatVerdict_consumes (fun _ => rfl) h
    exact ⟨hadv (.inr hreply) hcontent, hok hcontent⟩
  · cases h

/-- Giving an entry up leaves its input alone. -/
theorem shutdownAndTerminate_pkgInput (env : EntryEnv μ) (ctx : ConnectionShutdownContext) (e : Entry μ) :
    Sat (shutdownAndTerminate env ctx) e (fun _ e' => e'.pkgInput = e.pkgInput)
      fun s e' => s.IsThrown ∧ e'.pkgInput = e.pkgInput := by
  rcases Bool.eq_false_or_eq_true e.connectionIsActive with hact | hact
  · exact (shutdownAndTerminate_spec env ctx hact).mono (fun _ _ h => h.1) fun _ _ ⟨hs, _, _, h⟩ => ⟨hs, h.pkgInput⟩
  · exact Sat.of_run_ok (shutdownAndTerminate_inactive env ctx hact) rfl

theorem invalidPackage_pkgInput (env : EntryEnv μ) (reason : EntryShutdownReason) (e : Entry μ) :
    Sat (invalidPackage env reason) e (fun r e' => r = .invalidPackage ∧ e'.pkgInput = e.pkgInput)
      fun s e' => s.IsThrown ∧ e'.pkgInput = e.pkgInput :=
  (shutdownAndTerminate_pkgInput env _ e).bind fun _ _ h => Sat.pure ⟨rfl, h⟩

theorem consumeMessage_pkgInput (env : EntryEnv μ) (id : UInt16) (content : Bytes) (msg : μ) (attachedBinary : Bytes)
    (e : Entry μ) :
    Sat (consumeMessage env id content msg attachedBinary) e (fun _ e' => e'.pkgInput = e.pkgInput)
      fun s e' => s.IsThrown ∧ e'.pkgInput = e.pkgInput := by
  refine Sat.bind ((emit_extends _ e).mono (fun _ _ h => h) fun _ _ h => h.elim) fun _ e₁ h₁ => ?_
  exact (callUser_extends _ e₁).mono (fun _ _ h => h.pkgInput.trans h₁.pkgInput) fun _ _ h =>
    ⟨h.1, h.2.pkgInput.trans h₁.pkgInput⟩

theorem considered_pkgInput (e : Entry μ) : e.considered.pkgInput = e.pkgInput := by
  unfold considered
  split <;> rfl

/-- One iteration keeps the input well-formed, and after a package the next header is in place. -/
theorem handleSinglePackage_sat (h : Ready e.pkgInput) (hok : HeaderOk env e.pkgInput.blocks) :
    Sat (handleSinglePackage env) e
      (fun r e' => e'.pkgInput.Inv ∧ (r = .fullyConsumed → Ready e'.pkgInput ∧
        ∃ n, (verdict env e.pkgInput.blocks).consumes = some n ∧
          e'.pkgInput.blocks.flatten = e.pkgInput.blocks.flatten.drop n))
      fun s e' => s.IsThrown ∧ e'.pkgInput.Inv := by
  obtain ⟨handler, hrun, hc⟩ := handleSinglePackage_spec env h hok
  refine Sat.of_run_eq hrun ?_
  have hinput := considered_pkgInput e
  cases hv : verdict env e.pkgInput.blocks with
  | more =>
    rw [hv] at hc
    exact Sat.of_run_ok hc ⟨by rw [hinput]; exact h.inv, by simp⟩
  | invalid reason =>
    rw [hv] at hc
    obtain ⟨q, hi, hr⟩ := hc
    refine Sat.of_run_eq hr ((invalidPackage_pkgInput env reason _).mono ?_ ?_)
    · rintro r e' ⟨rfl, hq⟩
      exact ⟨by rw [hq]; exact hi, by simp⟩
    · rintro s e' ⟨hs, hq⟩
      exact ⟨hs, by rw [hq]; exact hi⟩
  | heartbeatRequest n =>
    rw [hv] at hc
    obtain ⟨q, hq, hd, hr⟩ := hc
    rw [hinput] at hd
    exact Sat.of_run_ok hr ⟨hq.inv, fun _ => ⟨hq, n, rfl, hd⟩⟩
  | heartbeatReply n =>
    rw [hv] at hc
    obtain ⟨q, hq, hd, hr⟩ := hc
    rw [hinput] at hd
    exact Sat.of_run_ok hr ⟨hq.inv, fun _ => ⟨hq, n, rfl, hd⟩⟩
  | message id content msg attachedBinary n =>
    rw [hv] at hc
    obtain ⟨q, hq, hd, hr⟩ := hc
    rw [hinput] at hd
    refine Sat.of_run_eq hr (((consumeMessage_pkgInput env id content msg attachedBinary _).mono
      (fun _ _ h => h) ?_).bind ?_)
    · rintro s e' ⟨hs, hq'⟩
      exact ⟨hs, by rw [hq']; exact hq.inv⟩
    · intro _ e' hq'
      refine Sat.pure ?_
      rw [hq']
      exact ⟨hq.inv, fun _ => ⟨hq, n, rfl, hd⟩⟩

/-! ## The loop -/

/-- The states in which an iteration of the loop begins. -/
inductive LoopState (env : EntryEnv μ) : Entry μ → Entry μ → Prop
  | start (e : Entry μ) : LoopState env e e
  | next {e e' e'' : Entry μ} (h : (handleSinglePackage env).run e = .ok .fullyConsumed e')
    (h' : LoopState env e' e'') : LoopState env e e''

/-- With every header it looks at in order, the loop makes no call outside its precondition. -/
theorem runInputStreamLoop_sat : ∀ (fuel : Nat) (e : Entry μ), Ready e.pkgInput →
    (∀ e', LoopState env e e' → HeaderOk env e'.pkgInput.blocks) →
      Sat (runInputStreamLoop env fuel) e (fun _ e' => e'.pkgInput.Inv)
        fun s e' => (∀ f, s ≠ .fault f) ∧ e'.pkgInput.Inv
  | 0, _, h, _ => Sat.throw ⟨by simp, h.inv⟩
  | fuel + 1, e, h, hok => by
    have hsat := handleSinglePackage_sat h (hok e (.start e))
    unfold Sat
    rw [runInputStreamLoop, EStateM.run_bind]
    cases hrun : (handleSinglePackage env).run e with
    | error s e' =>
      obtain ⟨⟨what, rfl⟩, hi⟩ := hsat.error hrun
      exact ⟨by simp, hi⟩
    | ok r e' =>
      obtain ⟨hi, hready⟩ := hsat.ok hrun
      cases r with
      | fullyConsumed =>
        exact runInputStreamLoop_sat fuel e' (hready rfl).1 fun e'' h' => hok e'' (.next hrun h')
      | needsMoreInputData => exact hi
      | invalidPackage => exact hi

/-- What a package takes is gone from the input. -/
theorem size_of_fullyConsumed (h : Ready e.pkgInput) (hok : HeaderOk env e.pkgInput.blocks)
    (hadv : HeartbeatAdvances e.pkgInput.blocks) {e' : Entry μ}
    (hrun : (handleSinglePackage env).run e = .ok .fullyConsumed e') :
    Ready e'.pkgInput ∧ e'.pkgInput.size + sizeofPkgHeader ≤ e.pkgInput.size := by
  obtain ⟨-, hready⟩ := (handleSinglePackage_sat h hok).ok hrun
  obtain ⟨hready, n, hn, hd⟩ := hready rfl
  obtain ⟨h12, hle⟩ := verdict_consumes hok hadv hn
  refine ⟨hready, ?_⟩
  rw [hready.size, h.size, hd, List.length_drop]
  omega

/-- The loop ends at the latest when it has taken all the bytes there are, a header at a time. -/
theorem runInputStreamLoop_ends : ∀ (fuel : Nat) (e : Entry μ), Ready e.pkgInput →
    (∀ e', LoopState env e e' → HeaderOk env e'.pkgInput.blocks ∧ HeartbeatAdvances e'.pkgInput.blocks) →
      e.pkgInput.size / sizeofPkgHeader < fuel →
        ∀ e', (runInputStreamLoop env fuel).run e ≠ .error .diverged e'
  | 0, _, _, _, hfuel => absurd hfuel (Nat.not_lt_zero _)
  | fuel + 1, e, h, hok, hfuel => by
    intro e'
    rw [runInputStreamLoop, EStateM.run_bind]
    cases hrun : (handleSinglePackage env).run e with
    | error s e₁ =>
      obtain ⟨⟨what, rfl⟩, -⟩ := (handleSinglePackage_sat h (hok e (.start e)).1).error hrun
      simp
    | ok r e₁ =>
      cases r with
      | fullyConsumed =>
        obtain ⟨hready, hsize⟩ := size_of_fullyConsumed h (hok e (.start e)).1 (hok e (.start e)).2 hrun
        refine runInputStreamLoop_ends fuel e₁ hready (fun e₂ h' => hok e₂ (.next hrun h')) ?_ e'
        unfold sizeofPkgHeader at hsize hfuel ⊢
        omega
      | needsMoreInputData => simp
      | invalidPackage => simp

theorem ready_of_loopState (h : Ready e.pkgInput)
    (hok : ∀ e', LoopState env e e' → HeaderOk env e'.pkgInput.blocks) {e' : Entry μ} (h' : LoopState env e e') :
    Ready e'.pkgInput := by
  induction h' with
  | start e => exact h
  | next hrun h' ih =>
    obtain ⟨-, hready⟩ := (handleSinglePackage_sat h (hok _ (.start _))).ok hrun
    exact ih (hready rfl).1 fun e₂ h₂ => hok e₂ (.next hrun h₂)

/-! ## Work items -/

/-- The entry once a chunk is behind its input. -/
def appended (e : Entry μ) (buf : Bytes) (e' : Entry μ) : Prop :=
  ∃ q, e.pkgInput.append buf = .ok q ∧ e' = { e with pkgInput := q }

/-- Every iteration a chunk leads to begins with a header that is in order, and no block is
outstanding when the chunk comes. -/
def InputOk (P : List Bytes → Prop) (env : EntryEnv μ) (e : Entry μ) : Item → Prop
  | .input _ buf => e.pkgInput.firstBufferServed = false ∧
    ∀ e₀ e', appended e buf e₀ → LoopState env e₀ e' → P e'.pkgInput.blocks
  | _ => True

/-- Runs the loop for at most the given number of iterations and looks at the input each one begins with. -/
def checkLoop (P : List Bytes → Prop) [DecidablePred P] (env : EntryEnv μ) : Nat → Entry μ → Bool
  | 0, _ => false
  | fuel + 1, e => decide (P e.pkgInput.blocks) &&
    match (handleSinglePackage env).run e with
    | .ok .fullyConsumed e' => checkLoop P env fuel e'
    | _ => true

theorem loopState_of_checkLoop {P : List Bytes → Prop} [DecidablePred P] {e e' : Entry μ} (h' : LoopState env e e') :
    ∀ {fuel : Nat}, checkLoop P env fuel e = true → P e'.pkgInput.blocks := by
  induction h' with
  | start e =>
    intro fuel h
    cases fuel with
    | zero => cases h
    | succ fuel => exact of_decide_eq_true (Bool.and_eq_true_iff.1 h).1
  | next hrun _ ih =>
    intro fuel h
    cases fuel with
    | zero => cases h
    | succ fuel =>
      have h := (Bool.and_eq_true_iff.1 h).2
      rw [hrun] at h
      exact ih h

/-- `InputOk`, as far as the given number of iterations shows it. -/
def checkInput (P : List Bytes → Prop) [DecidablePred P] (env : EntryEnv μ) (fuel : Nat) (e : Entry μ) : Item → Bool
  | .input _ buf => !e.pkgInput.firstBufferServed &&
    match e.pkgInput.append buf with
    | .ok q => checkLoop P env fuel { e with pkgInput := q }
    | .error _ => true
  | _ => true

theorem inputOk_of_checkInput {P : List Bytes → Prop} [DecidablePred P] {fuel : Nat} {i : Item}
    (h : checkInput P env fuel e i = true) : InputOk P env e i := by
  cases i with
  | input now buf =>
    obtain ⟨hs, hloop⟩ := Bool.and_eq_true_iff.1 h
    refine ⟨by simpa using hs, ?_⟩
    rintro e₀ e' ⟨q, hq, rfl⟩ h'
    rw [hq] at hloop
    exact loopState_of_checkLoop h' hloop
  | _ => trivial

theorem append_ready (hi : e.pkgInput.Inv) (hs : e.pkgInput.firstBufferServed = false) (buf : Bytes) :
    ∃ q, e.pkgInput.append buf = .ok q ∧ Ready q ∧ q.blocks.flatten = e.pkgInput.blocks.flatten ++ buf := by
  obtain ⟨q, hq, hi', hs', hcont, -⟩ := PkgInput.append_spec hi hs buf
  exact ⟨q, hq, ⟨hi', hs'⟩, hcont⟩

theorem handleInput_sat (fuel : Nat) (now : Int) (buf : Bytes) (hi : e.pkgInput.Inv)
    (hok : InputOk (HeaderOk env) env e (.input now buf)) :
    Sat (handleInput env fuel now buf) e (fun _ e' => e'.pkgInput.Inv)
      fun s e' => (∀ f, s ≠ .fault f) ∧ e'.pkgInput.Inv := by
  obtain ⟨hs, hok⟩ := hok
  obtain ⟨q, hq, hready, -⟩ := append_ready hi hs buf
  have hon : (onInput fun q => do return ((), ← q.append buf)).run e = .ok () { e with pkgInput := q } :=
    onInput_ok (by rw [hq]; rfl)
  have hloop := runInputStreamLoop_sat fuel { e with pkgInput := q } hready fun e' h' => hok _ e' ⟨q, hq, rfl⟩ h'
  refine Sat.tryCatch (F := fun s e' => (∀ f, s ≠ .fault f) ∧ e'.pkgInput.Inv) ?_ ?_
  · refine Sat.of_run_eq (run_bind_of_ok hon) (hloop.bind fun _ e' hi' => ?_)
    exact Sat.modify hi'
  · rintro s e' ⟨hs, hi'⟩
    cases s with
    | thrown what =>
      refine (shutdownAndTerminate_pkgInput env _ e').mono (fun _ _ h => by rw [h]; exact hi') ?_
      rintro s e'' ⟨⟨what, rfl⟩, h⟩
      exact ⟨by simp, by rw [h]; exact hi'⟩
    | fault f => exact absurd rfl (hs f)
    | diverged => exact Sat.throw ⟨by simp, hi'⟩

theorem handleShutdown_pkgInput (env : EntryEnv μ) (reason : ConnectionShutdownReason) (e : Entry μ) :
    Sat (handleShutdown env reason) e (fun _ e' => e'.pkgInput = e.pkgInput)
      fun s e' => s.IsThrown ∧ e'.pkgInput = e.pkgInput := by
  rcases Bool.eq_false_or_eq_true e.connectionIsActive with hact | hact
  · exact (handleShutdown_spec env reason hact).mono (fun _ _ h => h.1) fun _ _ ⟨hs, _, _, h⟩ => ⟨hs, h.pkgInput⟩
  · exact Sat.of_run_ok (handleShutdown_inactive env reason hact) rfl

theorem onCheckHeartbeat_pkgInput (env : EntryEnv μ) (now : Int) (e : Entry μ) :
    Sat (onCheckHeartbeat env now) e (fun _ e' => e'.pkgInput = e.pkgInput)
      fun s e' => s.IsThrown ∧ e'.pkgInput = e.pkgInput := by
  refine Sat.get_bind ?_
  split
  · exact Sat.pure rfl
  dsimp only
  split
  · exact Sat.modify rfl
  split
  · exact shutdownAndTerminate_pkgInput env _ e
  · refine Sat.modify_bind ?_
    split <;> exact Sat.modify rfl

/-- A work item whose headers are in order makes no call outside its precondition. -/
theorem exec_sat (fuel : Nat) (i : Item) (hi : e.pkgInput.Inv) (hok : InputOk (HeaderOk env) env e i) :
    Sat (exec env fuel i) e (fun _ e' => e'.pkgInput.Inv)
      fun s e' => (∀ f, s ≠ .fault f) ∧ e'.pkgInput.Inv := by
  have huser : ∀ {x : EntryM μ Unit}, Sat x e (fun _ e' => e'.pkgInput = e.pkgInput)
      (fun s e' => s.IsThrown ∧ e'.pkgInput = e.pkgInput) →
        Sat x e (fun _ e' => e'.pkgInput.Inv) fun s e' => (∀ f, s ≠ .fault f) ∧ e'.pkgInput.Inv := by
    intro x hx
    refine hx.mono (fun _ _ h => by rw [h]; exact hi) ?_
    rintro s e' ⟨⟨what, rfl⟩, h⟩
    exact ⟨by simp, by rw [h]; exact hi⟩
  cases i with
  | input now buf => exact handleInput_sat fuel now buf hi hok
  | close => exact huser (shutdownAndTerminate_pkgInput env _ e)
  | connectionShutdown reason => exact huser (handleShutdown_pkgInput env reason e)
  | checkHeartbeat now => exact huser (onCheckHeartbeat_pkgInput env now e)

theorem after_inv {fuel : Nat} {i : Item} (hi : e.pkgInput.Inv) (hok : InputOk (HeaderOk env) env e i) {e' : Entry μ}
    (h : after env fuel e i = some e') : e'.pkgInput.Inv := by
  have hsat := exec_sat fuel i hi hok
  unfold after at h
  split at h
  · rename_i hrun
    exact Option.some.inj h ▸ hsat.ok hrun
  · rename_i hrun
    exact Option.some.inj h ▸ (hsat.error hrun).2
  · cases h

/-! ## Preconditions -/

/-- The item makes no call on the input outside its precondition, and finds the input well-formed. -/
def MeetsPreconditions (env : EntryEnv μ) (fuel : Nat) (e : Entry μ) (i : Item) : Prop :=
  e.pkgInput.Inv ∧ ∀ f e', (exec env fuel i).run e ≠ .error (.fault f) e'

/-- A run whose chunks come with no block outstanding and whose headers are in order never drives
the input queue outside its preconditions. -/
theorem run_meets_preconditions (env : EntryEnv μ) (fuel : Nat) (sh : ShutdownHandler) (now : Int) (items : List Item)
    (h : Along (after env fuel) (InputOk (HeaderOk env) env) (init env sh now) items) :
    Along (after env fuel) (MeetsPreconditions env fuel) (init env sh now) items := by
  refine Along.of_invariant (I := fun e => e.pkgInput.Inv) ?_ ?_ items _ PkgInput.inv_init h
  · intro e i hi hok
    refine ⟨hi, fun f e' hrun => ?_⟩
    exact ((exec_sat fuel i hi hok).error hrun).1 f rfl
  · intro e i e' hi hok hafter
    exact after_inv hi hok hafter

/-- A heartbeat request, and a message that comes in two chunks with its attachment. -/
theorem run_meets_preconditions_message :
    Along (after (plainEnv .raw) 5) (MeetsPreconditions (plainEnv .raw) 5) (init (plainEnv .raw) .notSupplied 0)
      [.input 1 ((PkgHeader.make pkgContentHeartbeatRequest).image ++ [0, 3, 1, 0, 2]),
        .input 2 [0, 0, 0, 1, 0, 0, 0, 7, 8, 9, 2], .close] :=
  run_meets_preconditions _ _ _ _ _ (Along.mono
    (P := fun e i => checkInput (HeaderOk (plainEnv .raw)) (plainEnv .raw) 5 e i)
    (fun _ _ => inputOk_of_checkInput) (by decide +kernel))

theorem not_meetsPreconditions {fuel : Nat} {i : Item} {f : Fault}
    (h : stopped ((exec env fuel i).run e) = some (.fault f)) : ¬ MeetsPreconditions env fuel e i := by
  obtain ⟨e', he'⟩ := exists_of_stopped h
  exact fun hmeets => hmeets.2 f e' he'

/-- A heartbeat that advertises more than is there, a message header of two dwords, and a chunk after
a message that was read to the end of a block and rejected. -/
theorem preconditions_not_met :
    ¬ MeetsPreconditions (plainEnv .raw) 5 (init (plainEnv .raw) .notSupplied 0)
      (.input 1 [2, 4, 0, 0, 0, 0, 0, 0, 0, 0, 0, 0]) ∧
    ¬ MeetsPreconditions (plainEnv .raw) 5 (init (plainEnv .raw) .notSupplied 0)
      (.input 1 [0, 2, 1, 0, 0, 0, 0, 0, 0, 0, 0, 0]) ∧
    ¬ Along (after (plainEnv .rejecting) 5) (MeetsPreconditions (plainEnv .rejecting) 5)
      (init (plainEnv .rejecting) .notSupplied 0)
      [.input 1 [0, 3, 1, 0, 1, 0, 0, 0, 0, 0, 0, 0, 7], .input 2 [0]] := by
  refine ⟨not_meetsPreconditions (f := .skipShort) (by decide +kernel),
    not_meetsPreconditions (f := .headerShort) (by decide +kernel), ?_⟩
  intro h
  have hstop : stopped ((exec (plainEnv .rejecting) 5 (.input 2 [0])).run (run (plainEnv .rejecting) 5
      (init (plainEnv .rejecting) .notSupplied 0) [.input 1 [0, 3, 1, 0, 1, 0, 0, 0, 0, 0, 0, 0, 7]])) =
        some (.fault .appendServed) := by decide +kernel
  exact not_meetsPreconditions hstop h.2.1

/-! ## Progress -/

/-- Each package takes its header off the input at least, and the loop ends. -/
def LoopEnds (env : EntryEnv μ) (e : Entry μ) : Item → Prop
  | .input _ buf => ∀ e₀, appended e buf e₀ →
    (∀ e₁ e₂, LoopState env e₀ e₁ → (handleSinglePackage env).run e₁ = .ok .fullyConsumed e₂ →
      e₂.pkgInput.size + sizeofPkgHeader ≤ e₁.pkgInput.size) ∧
    ∀ fuel, e₀.pkgInput.size / sizeofPkgHeader < fuel → ∀ e', (runInputStreamLoop env fuel).run e₀ ≠ .error .diverged e'
  | _ => True

theorem run_loops_end (env : EntryEnv μ) (fuel : Nat) (sh : ShutdownHandler) (now : Int) (items : List Item)
    (h : Along (after env fuel) (InputOk (fun blocks => HeaderOk env blocks ∧ HeartbeatAdvances blocks) env)
      (init env sh now) items) :
    Along (after env fuel) (LoopEnds env) (init env sh now) items := by
  have hheader : ∀ {e : Entry μ} {i : Item},
      InputOk (fun blocks => HeaderOk env blocks ∧ HeartbeatAdvances blocks) env e i →
        InputOk (HeaderOk env) env e i := by
    intro e i hok
    cases i with
    | input now buf => exact ⟨hok.1, fun e₀ e' h₀ h' => (hok.2 e₀ e' h₀ h').1⟩
    | _ => trivial
  refine Along.of_invariant (I := fun e => e.pkgInput.Inv) ?_ ?_ items _ PkgInput.inv_init h
  · intro e i hi hok
    cases i with
    | input now buf =>
      rintro e₀ ⟨q, hq, rfl⟩
      obtain ⟨q', hq', hready, -⟩ := append_ready hi hok.1 buf
      obtain rfl : q' = q := Except.ok.inj (hq'.symm.trans hq)
      have hok' := fun e' h' => hok.2 { e with pkgInput := q' } e' ⟨q', hq, rfl⟩ h'
      refine ⟨fun e₁ e₂ h₁ hrun => ?_, fun fuel hfuel => runInputStreamLoop_ends fuel _ hready hok' hfuel⟩
      have hready₁ := ready_of_loopState hready (fun e' h' => (hok' e' h').1) h₁
      exact (size_of_fullyConsumed hready₁ (hok' e₁ h₁).1 (hok' e₁ h₁).2 hrun).2
    | _ => trivial
  · intro e i e' hi hok hafter
    exact after_inv hi (hheader hok) hafter

/-- A heartbeat reply in front of a message in two chunks: three packages at most in a chunk. -/
theorem run_loops_end_message :
    Along (after (plainEnv .raw) 5) (LoopEnds (plainEnv .raw)) (init (plainEnv .raw) .notSupplied 0)
      [.input 1 ((PkgHeader.make pkgContentHeartbeatReply).image ++ [0, 3, 1, 0, 2]),
        .input 2 [0, 0, 0, 1, 0, 0, 0, 7, 8, 9, 2], .close] :=
  run_loops_end _ _ _ _ _ (Along.mono
    (P := fun e i => checkInput (fun blocks => HeaderOk (plainEnv .raw) blocks ∧ HeartbeatAdvances blocks)
      (plainEnv .raw) 5 e i) (fun _ _ => inputOk_of_checkInput) (by decide +kernel))

/-- A heartbeat reply whose header states a size of no dwords. -/
def zeroDwordsReply : Bytes := [2, 0, 0, 0, 0, 0, 0, 0, 0, 0, 0, 0]

theorem verdict_zeroDwords (env : EntryEnv μ) {blocks : List Bytes} (h : blocks.flatten = zeroDwordsReply) :
    verdict env blocks = .heartbeatReply 0 ∧ HeaderOk env blocks := by
  unfold verdict HeaderOk
  rw [h]
  exact ⟨rfl, fun _ _ => Nat.zero_le _⟩

/-- Nothing is taken off the input, so the next iteration finds the same header. -/
theorem zeroDwords_diverges (env : EntryEnv μ) : ∀ (fuel : Nat) (e : Entry μ), Ready e.pkgInput →
    e.pkgInput.blocks.flatten = zeroDwordsReply → ∃ e', (runInputStreamLoop env fuel).run e = .error .diverged e'
  | 0, e, _, _ => ⟨e, rfl⟩
  | fuel + 1, e, h, hbytes => by
    obtain ⟨hv, hok⟩ := verdict_zeroDwords env hbytes
    obtain ⟨handler, hrun, hc⟩ := handleSinglePackage_spec env h hok
    rw [hv] at hc
    obtain ⟨q, hq, hd, hr⟩ := hc
    rw [considered_pkgInput, List.drop_zero, hbytes] at hd
    rw [runInputStreamLoop, run_bind_of_ok (hrun.trans hr)]
    exact zeroDwords_diverges env fuel _ hq hd

/-- The loop over a heartbeat of no dwords does not end, however many iterations it is given. -/
theorem zeroDwords_loop_does_not_end :
    ¬ LoopEnds (plainEnv .raw) (init (plainEnv .raw) .notSupplied 0) (.input 1 zeroDwordsReply) ∧
      ∀ fuel, ∃ e', (handleInput (plainEnv .raw) fuel 1 zeroDwordsReply).run (init (plainEnv .raw) .notSupplied 0) =
        .error .diverged e' := by
  obtain ⟨q, hq, hready, hd⟩ := append_ready (e := init (plainEnv .raw) .notSupplied 0) PkgInput.inv_init rfl
    zeroDwordsReply
  have hloop := fun fuel => zeroDwords_diverges (plainEnv .raw) fuel
    { init (plainEnv .raw) .notSupplied 0 with pkgInput := q } hready hd
  constructor
  · intro h
    obtain ⟨e', he'⟩ := hloop _
    exact (h _ ⟨q, hq, rfl⟩).2 _ (Nat.lt_succ_self _) e' he'
  · intro fuel
    obtain ⟨e', he'⟩ := hloop fuel
    have hon : (onInput fun q => do return ((), ← q.append zeroDwordsReply)).run
        (init (plainEnv .raw) .notSupplied 0) =
          .ok () { init (plainEnv .raw) .notSupplied 0 with pkgInput := q } := onInput_ok (by rw [hq]; rfl)
    refine ⟨e', ?_⟩
    rw [handleInput, run_tryCatch, run_bind_of_ok hon, run_bind_of_error he']
    rfl

end Entry

end Opio.ProtoEntry
