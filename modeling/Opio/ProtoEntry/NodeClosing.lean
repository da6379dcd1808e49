/-
How a node closes: the entry and its connection each tell the other that they are gone, and both of
them are once nothing is left to do, whichever was the first. The shutdown handler of the entry is taken
to throw nothing.
-/
import Opio.ProtoEntry.NodeRuns

namespace Opio.ProtoEntry

open Net (Connection Frame)
open Net.Connection (Tells)

variable {τ ι ο : Type}

namespace Node

/-- Each of the two that is gone has told the other, or is about to. -/
structure Closing (n : Node τ ι ο) : Prop where
  tells : ∃ causes, Tells n.connection causes ∧
    (n.entry.connectionIsActive = false → .shutdown ∈ n.strand ++ n.outbox ∨ causes ≠ [])
  told : Net.handlerCalls n.connection.log ≠ [] →
    n.entry.connectionIsActive = false ∨ ∃ reason, .connectionShutdown reason ∈ n.posted
  posted : ∀ reason, .connectionShutdown reason ∈ n.posted → Net.handlerCalls n.connection.log ≠ []

theorem closing_init (env : NodeEnv ι ο) (sh : ShutdownHandler) (now : Int) :
    (init env sh now : Node τ ι ο).Closing where
  tells := ⟨[], Net.Connection.tells_init, fun h => by cases h⟩
  told h := absurd rfl h
  posted reason h := by cases h

/-- The connection stays as it is, and with it what it was asked for. -/
theorem Closing.of_same {n n' : Node τ ι ο} (h : n.Closing) (hconnection : n'.connection = n.connection)
    (hentry : n'.entry = n.entry) (hstrand : .shutdown ∈ n.strand ++ n.outbox → .shutdown ∈ n'.strand ++ n'.outbox)
    (hposted : ∀ reason, .connectionShutdown reason ∈ n'.posted ↔ .connectionShutdown reason ∈ n.posted) :
    n'.Closing := by
  obtain ⟨causes, htells, hinactive⟩ := h.tells
  refine ⟨⟨causes, hconnection ▸ htells, fun hact => ?_⟩, fun htold => ?_, fun reason hmem => ?_⟩
  · exact (hinactive (hentry ▸ hact)).imp_left hstrand
  · rw [hconnection] at htold
    rw [hentry]
    exact (h.told htold).imp_right fun ⟨reason, hmem⟩ => ⟨reason, (hposted reason).2 hmem⟩
  · rw [hconnection]
    exact h.posted reason ((hposted reason).1 hmem)

section Step

variable {env : NodeEnv ι ο} {n n' : Node τ ι ο}

theorem Closing.takesCall {w : Work τ ο} {strand : List (Work τ ο)} {c₁ c : Connection} (h : n.Closing)
    (next : n.strand = w :: strand)
    (begins : Connection.step env.connection n.connection (.item (.call w.call)) = some c₁)
    (goesOn : Connection.step env.connection c₁ .none = some c) : (n.tookCall w strand c).Closing := by
  obtain ⟨causes, htells, hinactive⟩ := h.tells
  obtain ⟨hstack, -, henters⟩ := Net.Connection.enters_of_step begins
  have hstack₁ : c₁.stack = [.call w.call] := by
    cases henters
    simp [Net.Connection.push, hstack]
  obtain ⟨htells₁, hcalls₁⟩ := htells.step env.hasShutdownHandler
    (fun hmem => by rw [hstack] at hmem; cases hmem) (by simp) begins
  obtain ⟨htells₂, hcalls₂⟩ := htells₁.step env.hasShutdownHandler
    (fun hmem => by rw [hstack₁] at hmem; simp at hmem) (by simp) goesOn
  have hcalls : Net.handlerCalls c.log ≠ [] → Net.handlerCalls n.connection.log ≠ [] := by
    intro hne
    rcases hcalls₂ hne with hne | ⟨reason, hhead⟩
    · rcases hcalls₁ hne with hne | ⟨reason, hhead⟩
      · exact hne
      · rw [hstack] at hhead
        cases hhead
    · rw [hstack₁] at hhead
      cases hhead
  refine ⟨⟨_, htells₂, fun hact => ?_⟩, fun hne => h.told (hcalls hne), fun reason hmem => ?_⟩
  · rcases hinactive hact with hmem | hcauses
    · rw [next, List.cons_append] at hmem
      rcases List.mem_cons.1 hmem with rfl | hmem
      · -- the call is the shutdown
        right
        have hcause : Net.Connection.shutdownCause c₁ .none = some .userInitiated := by
          unfold Net.Connection.shutdownCause
          rw [hstack₁]
          rfl
        rw [hcause]
        simp
      · exact .inl hmem
    · exact .inr (by simp [hcauses])
  · obtain ⟨evs, hreports₁⟩ := Net.Connection.step_reports (by simp) begins
    obtain ⟨evs', hreports⟩ := Net.Connection.step_reports (by simp) goesOn
    show Net.handlerCalls c.log ≠ []
    rw [hreports.log, hreports₁.log, Net.handlerCalls_append, Net.handlerCalls_append, List.append_assoc]
    exact List.append_ne_nil_of_left_ne_nil (h.posted reason hmem) _

/-- The entry has run a work item; if it is not active behind that, it was not before, it has called for the shutdown of
its connection, or the connection has told it. -/
theorem Closing.ran {e : Entry ι} (h : n.Closing) (idle : n.outbox = [])
    (hactive : e.connectionIsActive = true → n.entry.connectionIsActive = true)
    (hinactive : n.entry.connectionIsActive = true → e.connectionIsActive = false →
      .connectionShutdown ∈ e.events.drop n.entry.events.length ∨ Net.handlerCalls n.connection.log ≠ []) :
    (n.ran e).Closing := by
  obtain ⟨causes, htells, hbefore⟩ := h.tells
  refine ⟨⟨causes, htells, fun hact => ?_⟩, fun hne => ?_, h.posted⟩
  · rcases Bool.eq_false_or_eq_true n.entry.connectionIsActive with hact' | hact'
    · rcases hinactive hact' hact with hmem | hne
      · exact .inl (List.mem_append_right _ (List.mem_filterMap.2 ⟨.connectionShutdown, hmem, rfl⟩))
      · exact .inr (htells.causes_ne_nil hne)
    · refine (hbefore hact').imp_left fun hmem => List.mem_append_left _ ?_
      rw [idle, List.append_nil] at hmem
      exact hmem
  · refine (h.told hne).imp_left fun hact => ?_
    rcases Bool.eq_false_or_eq_true e.connectionIsActive with hact' | hact'
    · rw [hactive hact'] at hact
      cases hact
    · exact hact'

theorem Closing.runs {now : Int} {p : Posted} {posted : List Posted} {e : Entry ι} (h : n.Closing)
    (hthrow : ∀ evs, env.entry.onShutdown evs = none) (next : n.posted = p :: posted) (idle : n.outbox = [])
    (after : Entry.after env.entry (n.fuel (p.item now)) n.entry (p.item now) = some e) :
    ((n.tookItem p posted).ran e).Closing := by
  have hactive := Entry.active_of_after after
  by_cases hp : ∃ reason, p = .connectionShutdown reason
  · -- the entry learns that its connection was shut down
    obtain ⟨reason, rfl⟩ := hp
    have hgone := Entry.after_connectionShutdown hthrow after
    have hne := h.posted reason (by simp [next])
    obtain ⟨causes, htells, -⟩ := h.tells
    exact ⟨⟨causes, htells, fun _ => .inr (htells.causes_ne_nil hne)⟩, fun _ => .inl hgone,
      fun reason' hmem => h.posted reason' (by rw [next]; exact List.mem_cons_of_mem _ hmem)⟩
  · have htook : (n.tookItem p posted).Closing := by
      refine h.of_same rfl rfl id fun reason => ?_
      rw [next, List.mem_cons]
      exact ⟨.inr, fun hmem => hmem.resolve_left fun heq => hp ⟨reason, heq.symm⟩⟩
    refine htook.ran idle hactive fun hact hinactive => .inl ?_
    refine Entry.after_inactive (fun reason hitem => hp ⟨reason, ?_⟩) hact after hinactive
    cases p <;> cases hitem
    rfl

variable [DecidableEq τ]

/-- A step of the connection, with what it posts for the entry. -/
theorem Closing.connection {i : Connection.Input} {c : Connection} (h : n.Closing) (hsound : n.Sound env)
    (inner : i.isInner = true) (goesOn : Connection.step env.connection n.connection i = some c) :
    ({ n with
      connection := c
      posted := n.posted ++ Posted.ofFrame n.readBuffer n.connection.stack.head? } : Node τ ι ο).Closing := by
  obtain ⟨causes, htells, hinactive⟩ := h.tells
  obtain ⟨htells', hcalls⟩ := htells.step env.hasShutdownHandler
    (fun _ => hsound.driven.noCall .shutdown) (Net.Connection.Input.ne_destroy_of_isInner inner) goesOn
  obtain ⟨evs, hreports⟩ := Net.Connection.step_reports (Net.Connection.Input.ne_destroy_of_isInner inner) goesOn
  refine ⟨⟨_, htells', fun hact => (hinactive hact).imp_right fun hcauses => by simp [hcauses]⟩, fun hne => ?_,
    fun reason hmem => ?_⟩
  · rcases hcalls hne with hne | ⟨reason, hhead⟩
    · exact (h.told hne).imp_right fun ⟨reason, hmem⟩ => ⟨reason, List.mem_append_left _ hmem⟩
    · refine .inr ⟨reason, List.mem_append_right _ ?_⟩
      rw [hhead]
      exact List.mem_singleton_self _
  · show Net.handlerCalls c.log ≠ []
    rcases List.mem_append.1 hmem with hmem | hmem
    · rw [hreports.log, Net.handlerCalls_append]
      exact List.append_ne_nil_of_left_ne_nil (h.posted reason hmem) _
    · unfold Posted.ofFrame at hmem
      split at hmem
      next reason' hhead => exact Net.Connection.handlerCalls_of_head hhead goesOn
      next => simp at hmem
      next => cases hmem

theorem Closing.reads {bs : Bytes} {c : Connection} (h : n.Closing) (hsound : n.Sound env)
    (done : Connection.step env.connection n.connection (.item (.readDone none)) = some c) :
    ({ n with connection := c, readBuffer := bs, read := n.read ++ bs } : Node τ ι ο).Closing := by
  obtain ⟨causes, htells, hinactive⟩ := h.tells
  obtain ⟨hstack, -, hlog, -⟩ := hsound.driven.reads done
  obtain ⟨htells', -⟩ := htells.step env.hasShutdownHandler (fun hmem => by rw [hstack] at hmem; cases hmem) (by simp)
    done
  refine ⟨⟨_, htells', fun hact => (hinactive hact).imp_right fun hcauses => by simp [hcauses]⟩, fun hne => ?_,
    fun reason hmem => ?_⟩
  · exact h.told (hlog ▸ hne)
  · show Net.handlerCalls c.log ≠ []
    exact hlog ▸ h.posted reason hmem

theorem Moves.closing {a : NodeAction τ ο} (hthrow : ∀ evs, env.entry.onShutdown evs = none) (hstep : Moves env n a n')
    (h : n.Closing) (hsound : n.Sound env) : n'.Closing := by
  cases hstep with
  | schedules t s call found =>
    refine h.of_same rfl rfl (fun hmem => ?_) fun _ => Iff.rfl
    simp only [scheduling, List.mem_append] at hmem ⊢
    tauto
  | places w outbox next =>
    refine h.of_same rfl rfl (fun hmem => ?_) fun _ => Iff.rfl
    rw [next] at hmem
    simp only [List.mem_append, List.mem_cons, List.not_mem_nil, or_false] at hmem ⊢
    tauto
  | takesCall w strand c₁ c next begins goesOn => exact h.takesCall next begins goesOn
  | connection i c inner goesOn => exact h.connection hsound inner goesOn
  | reads bs c done => exact h.reads hsound done
  | closes => exact h.of_same rfl rfl id fun reason => by simp
  | runs now p posted e next idle after => exact h.runs hthrow next idle after
  | checksHeartbeat now e idle after =>
    refine h.ran idle (Entry.active_of_after after) fun hact hinactive => .inl ?_
    exact Entry.after_inactive (by simp) hact after hinactive
  | _ => exact h.of_same rfl rfl id fun _ => Iff.rfl

/-! ## A node at rest -/

/-- Nothing is left to do on either strand. -/
structure AtRest (n : Node τ ι ο) : Prop where
  strand : n.strand = []
  outbox : n.outbox = []
  posted : n.posted = []
  stack : n.connection.stack = []

/-- Whatever closes a node, whether the entry gives up, the user closes it or the connection fails: when it comes to
rest either both of the two are gone or none is, and the entry was told once at most. A shutdown handler that throws
leaves the entry active without a connection, so it is taken to throw nothing. -/
theorem entry_and_connection_close_together (env : NodeEnv ι ο) (hthrow : ∀ evs, env.entry.onShutdown evs = none)
    (sh : ShutdownHandler) (now : Int) {actions : List (NodeAction τ ο)}
    (hrun : execute (step env) (init env sh now) actions = some n) :
    (n.AtRest → (n.entry.connectionIsActive = false ↔ n.connection.shutdownWasCalled = true)) ∧
      (Net.handlerCalls n.connection.log).length ≤ 1 := by
  have hstep : ∀ (n : Node τ ι ο) a n', n.Closing ∧ n.Sound env → True → step env n a = some n' →
      n'.Closing ∧ n'.Sound env := fun n a n' h _ hstep =>
    ⟨(moves_of_step hstep).closing hthrow h.1 h.2, (moves_of_step hstep).sound h.2⟩
  have h := execute_invariant (P := fun _ _ => True) hstep actions ⟨closing_init env sh now, sound_init env sh now⟩
    (Along.of_forall fun _ _ => trivial) hrun
  obtain ⟨⟨⟨causes, htells, hinactive⟩, htold, -⟩, -⟩ := h
  refine ⟨fun hrest => ⟨fun hact => ?_, fun hcalled => ?_⟩, ?_⟩
  · rw [htells.called_iff hrest.stack]
    refine (hinactive hact).resolve_left fun hmem => ?_
    rw [hrest.strand, hrest.outbox] at hmem
    cases hmem
  · refine (htold (htells.told hcalled)).resolve_right fun ⟨reason, hmem⟩ => ?_
    rw [hrest.posted] at hmem
    cases hmem
  · exact htells.stands.once.1.length_le.trans (List.length_take_le ..)

/-- The user closes the entry, which shuts the connection down, which tells the entry. -/
theorem entry_and_connection_close_together_close : ∃ n : Node Unit Bytes Bytes,
    execute (step plainNode) (init plainNode .handler 0)
      [.takesCall, .closes, .runs 1, .places, .takesCall, .connection (.calls []), .connection .none, .connection .none,
        .runs 2] = some n ∧
      (n.strand = [] ∧ n.outbox = [] ∧ n.posted = [] ∧ n.connection.stack = [] ∧
        n.connection.shutdownWasCalled = true) ∧ n.entry.connectionIsActive = false ∧
      (Net.handlerCalls n.connection.log).length ≤ 1 := by
  obtain ⟨n, hrun, hrest, hcalled⟩ := exists_execute (step plainNode)
    (init plainNode .handler 0 : Node Unit Bytes Bytes)
    [.takesCall, .closes, .runs 1, .places, .takesCall, .connection (.calls []), .connection .none, .connection .none,
      .runs 2]
    (fun n => (n.strand.isEmpty = true ∧ n.outbox.isEmpty = true ∧ n.posted = [] ∧ n.connection.stack = []) ∧
      n.connection.shutdownWasCalled = true) (by decide +kernel)
  obtain ⟨hstrand, houtbox, hposted, hstack⟩ := hrest
  have hstrand := List.isEmpty_iff.1 hstrand
  have houtbox := List.isEmpty_iff.1 houtbox
  have h := entry_and_connection_close_together plainNode (fun _ => rfl) .handler 0 hrun
  exact ⟨n, hrun, ⟨hstrand, houtbox, hposted, hstack, hcalled⟩,
    (h.1 ⟨hstrand, houtbox, hposted, hstack⟩).2 hcalled, h.2⟩

end Step

end Node

end Opio.ProtoEntry
