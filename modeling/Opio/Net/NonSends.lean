/-
A callback that is told that nothing of its group was sent. A refused group is none of the accepted
ones. The destructor tells it to the callbacks behind the front, and a group is behind the front only
if its first byte is: the result is about a sequence of the queue, and a group may be in several.
-/
import Opio.Net.Successes

namespace Opio.Net

namespace Connection

variable {env : ConnectionEnv} {c c' : Connection}

/-- How many bytes of the group the socket took, which takes the accepted bytes in order. -/
def takenOf (id : Nat) (log : List Event) : Nat :=
  min ((taken log).length - (acceptedBefore id log).length) (acceptedOf (· = id) log).length

/-- The result says that nothing of the group was sent. -/
def saysUnsent : SendBuffersResult → Bool
  | .didntSend => true
  | .rejectedScheduleSend => true
  | _ => false

/-- Of a group whose callback was told so, the socket has taken nothing. -/
def NonSendsTrue (log : List Event) : Prop :=
  ∀ id res, .called id res ∈ log → saysUnsent res = true → takenOf id log = 0

theorem takenOf_of_notMem {id : Nat} {log : List Event} (h : id ∉ acceptedIds log) : takenOf id log = 0 := by
  have hnil : acceptedOf (· = id) log = [] := by
    refine acceptedOf_eq_nil fun id' hid' => decide_eq_false ?_
    rintro rfl
    exact h hid'
  rw [takenOf, hnil]
  exact Nat.min_zero _

/-- Only groups that were refused have been told so, or are about to be. -/
structure Refuses (c : Connection) : Prop where
  calm : Calm c
  stands : Stands c
  accepts : AcceptsInOrder c
  told : ∀ id res, .called id res ∈ c.log → saysUnsent res = true → id ∉ acceptedIds c.log ∧ id < c.groups
  due : ∀ res ids, .runCallbacks res ids ∈ c.stack → saysUnsent res = true →
    ∀ id ∈ ids, id ∉ acceptedIds c.log ∧ id < c.groups

/-- The connection is gone. -/
structure ToldUnsent (c : Connection) : Prop where
  destroyed : c.destroyed = true
  stack : c.stack = []
  told : NonSendsTrue c.log

/-- At the end: all bytes that were accepted from a group on are still behind the front of the queue, if the
callback of the group is told that nothing was sent, and if the group has any bytes. -/
def UnsentBehindFront (c : Connection) : Input → Prop
  | .item (.destroy _) => ∀ id ∈ unsentCallbacks c, acceptedOf (· = id) c.log = [] ∨
      (acceptedFrom id c.log).length ≤ (queueBytes c.writeQueue.tail).length
  | _ => True

instance (c : Connection) (i : Input) : Decidable (UnsentBehindFront c i) := by
  unfold UnsentBehindFront
  split <;> infer_instance

/-- A group that was refused stays refused. -/
theorem LedgerStep.stays_refused {p : SendBuffersResult → Bool} (h : LedgerStep p c c') {id : Nat}
    (hid : id ∉ acceptedIds c.log ∧ id < c.groups) : id ∉ acceptedIds c'.log ∧ id < c'.groups := by
  rcases h.accepts with ⟨haccepted, hgroups⟩ | ⟨haccepted, hgroups⟩
  · rw [haccepted]
    exact ⟨hid.1, hid.2.trans_le hgroups⟩
  · rw [haccepted]
    refine ⟨fun hmem => ?_, by omega⟩
    rcases List.mem_append.1 hmem with hmem | hmem
    · exact hid.1 hmem
    · rw [List.mem_singleton.1 hmem] at hid
      exact absurd hid.2 (lt_irrefl _)

theorem Refuses.next {i : Input} (h : Refuses c) (hi : i.callsNothing = true) (hdestroy : ∀ n, i ≠ .item (.destroy n))
    (hstep : step env c i = some c') : Refuses c' := by
  obtain ⟨evs, hreports⟩ := step_reports hdestroy hstep
  have hledger := step_successLedger h.calm h.stands hi hdestroy hstep
  refine ⟨step_calm h.calm hi hstep, step_stands h.stands (h.calm.overtakesNothing i) hdestroy hstep,
    h.accepts.next hledger, ?_, ?_⟩
  · intro id res hmem hunsent
    refine hledger.stays_refused ?_
    rw [hreports.log] at hmem
    rcases List.mem_append.1 hmem with hmem | hmem
    · exact h.told id res hmem hunsent
    · obtain ⟨-, ids, base, hstack⟩ := hreports.called id res hmem
      exact h.due res (id :: ids) (by rw [hstack]; exact List.mem_cons_self ..) hunsent id (List.mem_cons_self ..)
  · intro res ids hmem hunsent id hid
    rcases hreports.frames res ids hmem with ⟨ids', hmem', hsub⟩ | hnew
    · exact hledger.stays_refused (h.due res ids' hmem' hunsent id (hsub hid))
    · cases hnew with
      | refused groups =>
        -- a new number
        obtain rfl := List.mem_singleton.1 hid
        refine ⟨fun hmem => ?_, by omega⟩
        rw [hreports.log, acceptedIds_append] at hmem
        rcases List.mem_append.1 hmem with hmem | hmem
        · exact absurd (h.accepts.fresh _ hmem) (lt_irrefl _)
        · cases hmem
      | direct => cases hunsent
      | written => cases hunsent
      | failed => cases hunsent

theorem Refuses.true (h : Refuses c) : NonSendsTrue c.log :=
  fun id res hmem hunsent => takenOf_of_notMem (h.told id res hmem hunsent).1

/-- Of the accepted bytes, at least those behind the front are never taken. -/
theorem destroy_taken (h : Stands c) (hstack : c.stack = []) (n : Nat) :
    (taken (destroy n c).log).length + (queueBytes c.writeQueue.tail).length ≤ (accepted c.log).length := by
  have hhandle : ∀ c₁ : Connection, taken (handleRemainigWriteQueue c₁).log = taken c₁.log := by
    intro c₁
    obtain ⟨evs, hlog, hinert, -⟩ := handleRemainigWriteQueue_spec c₁
    rw [hlog, taken_append, (bytes_eq_nil hinert).2, List.append_nil]
  have hnone : c.asyncWrite = none → taken (destroy n c).log = taken c.log := by
    intro hasync
    simp only [destroy, hasync]
    exact hhandle c
  cases h with
  | idle core running async notPopping queue notGather clear bytes =>
    obtain ⟨seq, hseq, -⟩ := clear (by rw [hstack]; exact .inl rfl)
    have hlength := congrArg List.length bytes
    rw [hnone async, hseq]
    simp only [List.length_append] at hlength
    simp only [List.tail_cons, queueBytes_nil, List.length_nil]
    omega
  | gather core running async notPopping queue gathers =>
    rw [hstack] at gathers
    cases gathers
  | popping core async once =>
    rw [hstack] at once
    cases once
  | writing core bufs running async notPopping queue noWrite bytes =>
    have htaken : taken (destroy n c).log = taken c.log ++ bufs.flatten.take n := by
      simp only [destroy, async]
      exact (hhandle (c.emit _)).trans (taken_concat ..)
    have hlength := congrArg List.length bytes
    rw [htaken]
    simp only [List.length_append, List.length_take] at hlength ⊢
    omega
  | failed entries core hasFailed lost async notPopping queue bytes =>
    have hlength := congrArg List.length bytes
    rw [hnone async]
    simp only [List.length_append] at hlength
    omega

theorem step_refuses {i : Input} (h : Refuses c ∨ ToldUnsent c) (hi : i.callsNothing = true ∧ UnsentBehindFront c i)
    (hstep : step env c i = some c') : Refuses c' ∨ ToldUnsent c' := by
  rcases h with h | h
  · by_cases hdestroy : ∃ n, i = .item (.destroy n)
    · obtain ⟨n, rfl⟩ := hdestroy
      obtain ⟨hstack, -, rfl⟩ := step_destroy hstep
      refine .inr ⟨rfl, destroy_stack hstack n, ?_⟩
      obtain ⟨evs, hlog, hevs⟩ := destroy_log n c
      -- the destructor accepts nothing
      have hnew : ∀ p, acceptedOf p evs = [] := by
        intro p
        refine acceptedOf_eq_nil fun id hid => ?_
        obtain ⟨ev, hev, hsome⟩ := List.mem_filterMap.1 hid
        rcases hevs ev hev with ⟨bs, rfl⟩ | ⟨id', rfl⟩ | ⟨id', -, rfl⟩ <;> cases hsome
      have hsame : ∀ p, acceptedOf p (destroy n c).log = acceptedOf p c.log := by
        intro p
        rw [hlog, acceptedOf_append, hnew, List.append_nil]
      intro id res hmem hunsent
      rw [takenOf, acceptedBefore, hsame, hsame]
      rw [hlog] at hmem
      rcases List.mem_append.1 hmem with hmem | hmem
      · -- told before: of a refused group no byte was ever accepted
        have hnil : acceptedOf (· = id) c.log = [] := by
          refine acceptedOf_eq_nil fun id' hid' => decide_eq_false ?_
          rintro rfl
          exact (h.told _ res hmem hunsent).1 hid'
        rw [hnil]
        exact Nat.min_zero _
      · rcases hevs _ hmem with ⟨bs, heq⟩ | ⟨id', heq⟩ | ⟨id', hid', heq⟩
        · cases heq
        · obtain ⟨rfl, rfl⟩ := Event.called.inj heq
          cases hunsent
        · obtain ⟨rfl, rfl⟩ := Event.called.inj heq
          rcases hi.2 id hid' with hnil | hbehind
          · rw [hnil]
            exact Nat.min_zero _
          · -- what was accepted before the group, and what is behind the front
            have hsplit := congrArg List.length (acceptedBefore_append_acceptedFrom id h.accepts.order)
            have htaken := destroy_taken h.stands hstack n
            rw [List.length_append] at hsplit
            have hbefore : (taken (destroy n c).log).length - (acceptedBefore id c.log).length = 0 := by omega
            rw [show acceptedOf (fun id' => decide (id' < id)) c.log = acceptedBefore id c.log from rfl, hbefore]
            exact Nat.zero_min _
    · exact .inl (h.next hi.1 (fun n hn => hdestroy ⟨n, hn⟩) hstep)
  · rcases step_cases hstep with ⟨item, rfl, -, halive, -⟩ | ⟨f, c₀, rfl, -⟩
    · rw [h.destroyed] at halive
      cases halive
    · cases h.stack

theorem refuses_init : Refuses {} where
  calm := calm_init
  stands := stands_init
  accepts := tracked_init.accepts
  told := by simp
  due := by simp

/-- In every run in which no callback calls back, and which does not end the connection while a group
whose callback is told that nothing was sent reaches beyond what is behind the front of the queue: of a
group whose callback was told so, the socket has taken nothing. -/
theorem non_sends_true (env : ConnectionEnv) (inputs : List Input) (c : Connection)
    (hinputs : ∀ i ∈ inputs, i.callsNothing = true) (hbehind : Along (step env) UnsentBehindFront {} inputs)
    (hrun : execute (step env) {} inputs = some c) : NonSendsTrue c.log := by
  have h := execute_invariant (fun _ _ _ h hi hstep => step_refuses h hi hstep) inputs (.inl refuses_init)
    ((Along.of_forall hinputs).and hbehind) hrun
  rcases h with h | h
  · exact h.true
  · exact h.told

/-- The connection ends while one group is with the socket and another one is behind it. -/
theorem non_sends_true_two : ∃ c,
    execute (step ⟨64, 64, by decide, false, false⟩) {}
      [.item (.call (.send { bufs := [[1]], cb := true })), .none, .none, .result ⟨some .wouldBlock, 0⟩, .none, .none,
        .result ⟨some .wouldBlock, 0⟩, .item (.call (.send { bufs := [[2]], cb := true })), .none, .none, .none, .none,
        .item (.destroy 1)] = some c ∧
      .called 1 .didntSend ∈ c.log ∧ NonSendsTrue c.log := by
  obtain ⟨c, hc, hmem⟩ := exists_execute (step ⟨64, 64, by decide, false, false⟩) {}
    [.item (.call (.send { bufs := [[1]], cb := true })), .none, .none, .result ⟨some .wouldBlock, 0⟩, .none, .none,
      .result ⟨some .wouldBlock, 0⟩, .item (.call (.send { bufs := [[2]], cb := true })), .none, .none, .none, .none,
      .item (.destroy 1)]
    (fun c => .called 1 .didntSend ∈ c.log) (by decide +kernel)
  exact ⟨c, hc, hmem, non_sends_true _ _ c (by decide) (by decide +kernel) hc⟩

/-- A group of 17 buffers of a byte each is in two sequences of the queue. The socket takes 5 bytes of the
first one, the connection ends while the rest of it is being written, and the callback waits with the
second one. -/
theorem non_sends_not_true : ∃ c,
    execute (step ⟨64, 64, by decide, false, false⟩) {}
      ([.item (.call (.send { bufs := List.replicate 17 [7], cb := true })), .none, .none,
        .result ⟨some .wouldBlock, 0⟩] ++ List.replicate 18 .none ++
        [.result ⟨some .wouldBlock, 5⟩, .item (.destroy 0)]) = some c ∧
      .called 0 .didntSend ∈ c.log ∧ takenOf 0 c.log = 5 :=
  exists_execute _ _ _ (fun c : Connection => .called 0 .didntSend ∈ c.log ∧ takenOf 0 c.log = 5) (by decide +kernel)

end Connection

end Opio.Net
