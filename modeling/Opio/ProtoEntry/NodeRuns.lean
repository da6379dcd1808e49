/-
What a node keeps in all of its runs, whatever it reads: the packages of its threads, of sends that make
one call, and its own heartbeats leave it whole and in the order of the strand, and the bytes that were read come to
the entry in order, none of them lost and none twice.
-/
import Opio.ProtoEntry.Node
import Opio.ProtoEntry.ShutdownReport

namespace Opio.ProtoEntry

open Net (Connection SendCall Call Frame accepted taken failedEntries)
open Net.Connection (Driven Stands acceptedBy)
open Entry (Item SendsHeartbeats)
open scoped List

variable {τ ι ο : Type}

/-! ## Packages -/

namespace Work

/-- The send of the thread, if the call is one of it. -/
def sendOf [DecidableEq τ] (t : τ) : Work τ ο → Option (Send ο)
  | send t' s _ => if t' = t then some s else none
  | _ => none

theorem sendOf_of_not_isSend [DecidableEq τ] {w : Work τ ο} (h : ¬ w.isSend = true) (t : τ) : w.sendOf t = none := by
  cases w <;> first | rfl | exact absurd rfl h

/-- The call hands a whole package over, or it hands nothing over. -/
def IsWhole (serialize : ο → Bytes) : Work τ ο → Prop
  | send _ s call => s.isMessage = true ∧ s.calls serialize = [call]
  | heartbeat buf =>
    buf = (PkgHeader.make pkgContentHeartbeatRequest).image ∨ buf = (PkgHeader.make pkgContentHeartbeatReply).image
  | _ => True

/-- The package of a send. -/
theorem IsWhole.bytes_send {serialize : ο → Bytes} {t : τ} {s : Send ο} {call : SendCall}
    (h : (send t s call).IsWhole serialize) : (send t s call).bytes = s.package serialize := by
  obtain ⟨-, hcalls⟩ := h
  rcases Senders.calls_cases serialize s with hnone | ⟨call', ahead, hcalls', -, hpackage⟩
  · rw [hcalls] at hnone
    cases hnone
  · rw [hcalls] at hcalls'
    obtain ⟨rfl, rfl⟩ := List.cons.inj hcalls'
    rw [← hpackage, bytesOf, List.flatMap_nil, List.append_nil]
    rfl

/-- The package that the call hands over. -/
def package (serialize : ο → Bytes) : Work τ ο → Bytes
  | send _ s _ => s.package serialize
  | heartbeat buf => buf
  | _ => []

theorem IsWhole.bytes_eq {serialize : ο → Bytes} {w : Work τ ο} (h : w.IsWhole serialize) :
    w.bytes = w.package serialize := by
  cases w with
  | send t s call => exact h.bytes_send
  | _ => rfl

/-- The bytes that the connection accepts with the call. -/
theorem acceptedBy_call (c : Connection) (w : Work τ ο) :
    acceptedBy c w.call = if w.isSend ∧ c.scheduleForWriteIsEnabled then w.bytes else [] := by
  cases w with
  | send t s call => simp [Work.call, isSend, bytes, acceptedBy]
  | heartbeat buf => simp [Work.call, isSend, bytes, acceptedBy]
  | _ => simp [Work.call, isSend, acceptedBy]

end Work

namespace Node

/-! ## The invariant -/

/-- The sends of a thread that the connection accepted, and those on their way to it. -/
def goingOf [DecidableEq τ] (n : Node τ ι ο) (t : τ) : List (Send ο) :=
  (n.sent ++ n.strand).filterMap (Work.sendOf t) ++ (n.checked t).toList.map Prod.fst

/-- The bytes that were read and not yet handled: on the strand of the entry, or about to get there. -/
def unhandled (n : Node τ ι ο) : Bytes :=
  (n.posted ++ Posted.ofFrame n.readBuffer n.connection.stack.head?).flatMap Posted.bytes

structure Sound [DecidableEq τ] (env : NodeEnv ι ο) (n : Node τ ι ο) : Prop where
  driven : Driven n.connection
  heartbeats : SendsHeartbeats n.entry
  accepted : accepted n.connection.log = n.sent.flatMap Work.bytes
  sends : ∀ w ∈ n.sent, w.isSend = true
  whole : ∀ w ∈ n.sent ++ n.strand ++ n.outbox, w.IsWhole env.serialize
  own : ∀ w ∈ n.outbox, ∀ t, w.sendOf t = none
  checked : ∀ t s call, n.checked t = some (s, call) → s.isMessage = true ∧ s.calls env.serialize = [call]
  order : ∀ t, n.goingOf t <+ n.called t
  complete : n.connection.scheduleForWriteIsEnabled = true → n.entry.connectionIsActive = true →
    ∀ t, n.goingOf t = (n.called t).filter (Send.hasImage env.serialize)
  read : n.read = n.handled ++ n.unhandled

/-- A frame that is not the input handler has no input for the entry. -/
theorem input_notMem_ofFrame {stack : List Frame} (h : .inputHandler ∉ stack) (readBuffer buf : Bytes) :
    .input buf ∉ Posted.ofFrame readBuffer stack.head? := by
  cases stack with
  | nil => exact List.not_mem_nil
  | cons f fs =>
    cases f <;> first | exact absurd (List.mem_cons_self ..) h | simp [Posted.ofFrame]

theorem ofFrame_of_not_input {stack : List Frame} (h : .inputHandler ∉ stack) (readBuffer : Bytes) :
    (Posted.ofFrame readBuffer stack.head?).flatMap Posted.bytes = [] := by
  refine List.flatMap_eq_nil_iff.2 fun p hp => ?_
  cases p with
  | input buf => exact absurd hp (input_notMem_ofFrame h readBuffer buf)
  | _ => rfl

theorem not_input_of_quiet {stack : List Frame} (h : ∀ g ∈ stack, g.isEntering = false) : .inputHandler ∉ stack :=
  fun hmem => by cases h _ hmem

section Step

variable [DecidableEq τ] {env : NodeEnv ι ο} {n n' : Node τ ι ο}

theorem sound_init (env : NodeEnv ι ο) (sh : ShutdownHandler) (now : Int) :
    (init env sh now : Node τ ι ο).Sound env where
  driven := Net.Connection.driven_init
  heartbeats := by simp [SendsHeartbeats, init, Entry.init]
  accepted := rfl
  sends := by simp [init]
  whole := by simp [init, Work.IsWhole]
  own := by simp [init]
  checked := by simp [init]
  order _ := by simp [goingOf, init, Work.sendOf]
  complete _ _ _ := by simp [goingOf, init, Work.sendOf]
  read := rfl

/-! ## Sends -/

/-- The thread has one more send behind it, which nobody is going to see. -/
theorem Sound.dropped {t : τ} {s : Send ο} (h : n.Sound env)
    (gone : s.calls env.serialize = [] ∨ n.entry.connectionIsActive = false) : (n.calling t s).Sound env := by
  refine ⟨h.driven, h.heartbeats, h.accepted, h.sends, h.whole, h.own, h.checked, fun t' => ?_, ?_, h.read⟩
  · have horder : n.goingOf t' <+ n.called t' := h.order t'
    show n.goingOf t' <+ Function.update n.called t (n.called t ++ [s]) t'
    rcases eq_or_ne t' t with rfl | hne
    · rw [Function.update_self]
      exact horder.trans (List.sublist_append_left ..)
    · rw [Function.update_of_ne hne]
      exact horder
  · intro henabled hactive t'
    have hcomplete := h.complete henabled hactive t'
    have hcalls : s.calls env.serialize = [] := gone.resolve_right fun hgone => by
      change n.entry.connectionIsActive = true at hactive
      rw [hgone] at hactive
      cases hactive
    show n.goingOf t' = (Function.update n.called t (n.called t ++ [s]) t').filter _
    rcases eq_or_ne t' t with rfl | hne
    · rw [Function.update_self, List.filter_append, ← hcomplete]
      simp [Send.hasImage, hcalls]
    · rw [Function.update_of_ne hne]
      exact hcomplete

theorem Sound.calls {t : τ} {s : Send ο} {call : SendCall} (h : n.Sound env) (idle : n.checked t = none)
    (message : s.isMessage = true) (one : s.calls env.serialize = [call]) :
    ({ n.calling t s with checked := Function.update n.checked t (some (s, call)) } : Node τ ι ο).Sound env := by
  -- the send is the last one of its thread
  have hgoing : ∀ t',
      goingOf ({ n.calling t s with checked := Function.update n.checked t (some (s, call)) } : Node τ ι ο) t' =
        n.goingOf t' ++ if t' = t then [s] else [] := by
    intro t'
    unfold goingOf
    dsimp only [Node.calling]
    rcases eq_or_ne t' t with rfl | hne
    · rw [idle, Function.update_self, if_pos rfl]
      simp
    · rw [show Function.update n.checked t (some (s, call)) t' = n.checked t' from Function.update_of_ne hne _ _,
        if_neg hne, List.append_nil]
  have hcalled : ∀ t', Function.update n.called t (n.called t ++ [s]) t' =
      n.called t' ++ if t' = t then [s] else [] := by
    intro t'
    rcases eq_or_ne t' t with rfl | hne
    · rw [Function.update_self, if_pos rfl]
    · rw [Function.update_of_ne hne, if_neg hne, List.append_nil]
  refine ⟨h.driven, h.heartbeats, h.accepted, h.sends, h.whole, h.own, ?_, fun t' => ?_, fun henabled hactive t' => ?_,
    h.read⟩
  · intro t' s' call' hchecked
    dsimp only at hchecked
    rcases eq_or_ne t' t with rfl | hne
    · rw [Function.update_self] at hchecked
      cases hchecked
      exact ⟨message, one⟩
    · rw [Function.update_of_ne hne] at hchecked
      exact h.checked t' s' call' hchecked
  · rw [hgoing]
    show _ <+ Function.update n.called t (n.called t ++ [s]) t'
    rw [hcalled]
    exact (h.order t').append (List.Sublist.refl _)
  · rw [hgoing]
    show _ = (Function.update n.called t (n.called t ++ [s]) t').filter _
    rw [hcalled, List.filter_append, h.complete henabled hactive t']
    split <;> simp [Send.hasImage, one]

theorem goingOf_scheduling {t : τ} {s : Send ο} {call : SendCall} (found : n.checked t = some (s, call)) (t' : τ) :
    (n.scheduling t s call).goingOf t' = n.goingOf t' := by
  unfold goingOf
  dsimp only [Node.scheduling]
  rw [← List.append_assoc, List.filterMap_append]
  rcases eq_or_ne t' t with rfl | hne
  · rw [found, Function.update_self]
    simp [Work.sendOf]
  · rw [Function.update_of_ne hne]
    simp [Work.sendOf, hne.symm]

theorem Sound.scheduling {t : τ} {s : Send ο} {call : SendCall} (h : n.Sound env)
    (found : n.checked t = some (s, call)) : (n.scheduling t s call).Sound env := by
  refine ⟨h.driven, h.heartbeats, h.accepted, h.sends, ?_, h.own, ?_, fun t' => ?_, fun henabled hactive t' => ?_,
    h.read⟩
  · intro w hw
    simp only [Node.scheduling, List.mem_append, List.mem_singleton] at hw
    rcases hw with (hw | hw | rfl) | hw
    · exact h.whole w (by simp [hw])
    · exact h.whole w (by simp [hw])
    · exact h.checked t s call found
    · exact h.whole w (by simp [hw])
  · intro t' s' call' hchecked
    dsimp only [Node.scheduling] at hchecked
    rcases eq_or_ne t' t with rfl | hne
    · rw [Function.update_self] at hchecked
      cases hchecked
    · rw [Function.update_of_ne hne] at hchecked
      exact h.checked t' s' call' hchecked
  · rw [goingOf_scheduling found]
    exact h.order t'
  · rw [goingOf_scheduling found]
    exact h.complete henabled hactive t'

theorem Sound.places {w : Work τ ο} {outbox : List (Work τ ο)} (h : n.Sound env) (next : n.outbox = w :: outbox) :
    ({ n with outbox, strand := n.strand ++ [w] } : Node τ ι ο).Sound env := by
  have hown : ∀ t, w.sendOf t = none := h.own w (by simp [next])
  have hgoing : ∀ t, goingOf ({ n with outbox, strand := n.strand ++ [w] } : Node τ ι ο) t = n.goingOf t := by
    intro t
    unfold goingOf
    dsimp only
    rw [← List.append_assoc, List.filterMap_append]
    simp [hown t]
  refine ⟨h.driven, h.heartbeats, h.accepted, h.sends, ?_, ?_, h.checked, fun t => ?_, fun henabled hactive t => ?_,
    h.read⟩
  · intro w' hw'
    refine h.whole w' ?_
    rw [next]
    simp only [List.mem_append, List.mem_cons, List.not_mem_nil, or_false] at hw' ⊢
    tauto
  · exact fun w' hw' => h.own w' (by simp [next, hw'])
  · rw [hgoing]
    exact h.order t
  · rw [hgoing]
    exact h.complete henabled hactive t

theorem Sound.takesCall {w : Work τ ο} {strand : List (Work τ ο)} {c₁ c : Connection} (h : n.Sound env)
    (next : n.strand = w :: strand)
    (begins : Connection.step env.connection n.connection (.item (.call w.call)) = some c₁)
    (goesOn : Connection.step env.connection c₁ .none = some c) : (n.tookCall w strand c).Sound env := by
  obtain ⟨hstack, -, hdriven, haccepted, hquiet⟩ := h.driven.takesCall begins goesOn
  have hsent : (n.tookCall w strand c).sent = n.sent ++
      if w.isSend ∧ n.connection.scheduleForWriteIsEnabled then [w] else [] := by
    unfold tookCall
    split <;> simp
  refine ⟨hdriven, h.heartbeats, ?_, ?_, ?_, h.own, h.checked, ?_, ?_, ?_⟩
  · rw [hsent, List.flatMap_append, ← h.accepted]
    refine haccepted.trans ?_
    rw [Work.acceptedBy_call]
    split <;> simp
  · intro w' hw'
    rw [hsent] at hw'
    rcases List.mem_append.1 hw' with hw' | hw'
    · exact h.sends w' hw'
    · split at hw'
      next hsend => exact List.mem_singleton.1 hw' ▸ hsend.1
      next => cases hw'
  · intro w' hw'
    refine h.whole w' ?_
    rw [hsent] at hw'
    rw [next]
    simp only [tookCall, List.mem_append, List.mem_cons] at hw' ⊢
    split at hw'
    · simp only [List.mem_singleton] at hw'
      tauto
    · simp only [List.not_mem_nil, or_false] at hw'
      tauto
  · -- a call that is not accepted is gone
    intro t
    refine List.Sublist.trans ?_ (h.order t)
    unfold goingOf
    rw [hsent, next]
    refine List.Sublist.append ?_ (List.Sublist.refl _)
    refine List.Sublist.filterMap _ ?_
    rw [List.append_assoc]
    refine List.Sublist.append (List.Sublist.refl _) ?_
    show _ <+ [w] ++ strand
    refine List.Sublist.append ?_ (List.Sublist.refl _)
    split
    · exact List.Sublist.refl _
    · exact List.nil_sublist _
  · -- while calls are accepted, none is gone
    intro henabled hactive t
    have henabled' := Net.Connection.accepts_of_step begins (Net.Connection.accepts_of_step goesOn henabled)
    have hcomplete := h.complete henabled' hactive t
    refine Eq.trans ?_ hcomplete
    unfold goingOf
    rw [hsent, next]
    dsimp only [tookCall]
    by_cases hsend : w.isSend = true
    · rw [if_pos ⟨hsend, henabled'⟩, List.append_assoc, List.singleton_append]
    · rw [if_neg fun h => hsend h.1, List.append_nil, List.filterMap_append, List.filterMap_append,
        List.filterMap_cons_none (Work.sendOf_of_not_isSend hsend t)]
  · have hread := h.read
    unfold unhandled at hread ⊢
    rw [hstack, List.flatMap_append] at hread
    rw [List.flatMap_append]
    show n.read = n.handled ++ (n.posted.flatMap Posted.bytes ++
      (Posted.ofFrame n.readBuffer c.stack.head?).flatMap Posted.bytes)
    rw [ofFrame_of_not_input (not_input_of_quiet hquiet)]
    exact hread

/-! ## Reading -/

theorem Sound.connection {i : Connection.Input} {c : Connection} (h : n.Sound env) (inner : i.isInner = true)
    (goesOn : Connection.step env.connection n.connection i = some c) :
    ({ n with
      connection := c
      posted := n.posted ++ Posted.ofFrame n.readBuffer n.connection.stack.head? } : Node τ ι ο).Sound env := by
  obtain ⟨hdriven, haccepted, hquiet⟩ := h.driven.inner inner goesOn
  refine ⟨hdriven, h.heartbeats, haccepted.trans h.accepted, h.sends, h.whole, h.own, h.checked, h.order,
    fun henabled => h.complete (Net.Connection.accepts_of_step goesOn henabled), ?_⟩
  unfold unhandled
  rw [List.flatMap_append]
  dsimp only
  rw [ofFrame_of_not_input (not_input_of_quiet hquiet), List.append_nil]
  exact h.read

theorem Sound.reads {bs : Bytes} {c : Connection} (h : n.Sound env)
    (done : Connection.step env.connection n.connection (.item (.readDone none)) = some c) :
    ({ n with connection := c, readBuffer := bs, read := n.read ++ bs } : Node τ ι ο).Sound env := by
  obtain ⟨hstack, hstack', hlog, hdriven⟩ := h.driven.reads done
  refine ⟨hdriven, h.heartbeats, ?_, h.sends, h.whole, h.own, h.checked, h.order,
    fun henabled => h.complete (Net.Connection.accepts_of_step done henabled), ?_⟩
  · rw [hlog]
    exact h.accepted
  · have hread := h.read
    unfold unhandled at hread ⊢
    rw [hstack] at hread
    rw [hstack']
    simp only [List.head?_nil, List.head?_cons, Posted.ofFrame, List.append_nil, List.flatMap_append,
      List.flatMap_cons, List.flatMap_nil, Posted.bytes] at hread ⊢
    rw [hread, List.append_assoc]

theorem Sound.closes (h : n.Sound env) : ({ n with posted := n.posted ++ [.close] } : Node τ ι ο).Sound env := by
  refine ⟨h.driven, h.heartbeats, h.accepted, h.sends, h.whole, h.own, h.checked, h.order, h.complete, ?_⟩
  have hread := h.read
  unfold unhandled at hread ⊢
  simpa [Posted.bytes] using hread

/-- The next work item has what comes next of what was read. -/
theorem Sound.read_next {p : Posted} {posted : List Posted} (h : n.Sound env) (next : n.posted = p :: posted) :
    ∃ unhandled, n.read = n.handled ++ p.bytes ++ unhandled := by
  have hread := h.read
  rw [unhandled, next, List.cons_append, List.flatMap_cons, ← List.append_assoc] at hread
  exact ⟨_, hread⟩

/-! ## The entry -/

/-- What an entry has to call the connection for. -/
theorem ran_outbox (env : NodeEnv ι ο) (n : Node τ ι ο) {e : Entry ι} (he : SendsHeartbeats e) : ∀ w ∈ (n.ran e).outbox,
    w.IsWhole env.serialize ∧ (∀ t, w.sendOf t = none) := by
  intro w hw
  obtain ⟨ev, hev, hw⟩ := List.mem_filterMap.1 hw
  cases ev with
  | scheduleSend buf =>
    cases hw
    exact ⟨he buf (List.mem_of_mem_drop hev), fun t => rfl⟩
  | connectionShutdown =>
    cases hw
    exact ⟨trivial, fun t => rfl⟩
  | _ => cases hw

theorem Sound.ran {fuel : Nat} {i : Item} {e : Entry ι} (h : n.Sound env) (idle : n.outbox = [])
    (after : Entry.after env.entry fuel n.entry i = some e) : (n.ran e).Sound env := by
  have he := Entry.after_heartbeats h.heartbeats after
  have hout := ran_outbox env n he
  refine ⟨h.driven, he, h.accepted, h.sends, ?_, fun w hw => (hout w hw).2, h.checked, h.order,
    fun henabled hactive => h.complete henabled (Entry.active_of_after after hactive), h.read⟩
  intro w hw
  rcases List.mem_append.1 hw with hw | hw
  · refine h.whole w ?_
    rw [idle, List.append_nil]
    exact hw
  · exact (hout w hw).1

theorem Sound.tookItem {p : Posted} {posted : List Posted} (h : n.Sound env) (next : n.posted = p :: posted) :
    (n.tookItem p posted).Sound env := by
  refine ⟨h.driven, h.heartbeats, h.accepted, h.sends, h.whole, h.own, h.checked, h.order, h.complete, ?_⟩
  have hread := h.read
  unfold unhandled at hread ⊢
  rw [next] at hread
  simpa [Node.tookItem] using hread

/-! ## Runs -/

theorem Moves.sound {a : NodeAction τ ο} (hstep : Moves env n a n') (h : n.Sound env) : n'.Sound env := by
  cases hstep with
  | dropped t s gone => exact h.dropped gone
  | calls t s call idle message one => exact h.calls idle message one
  | schedules t s call found => exact h.scheduling found
  | places w outbox next => exact h.places next
  | takesCall w strand c₁ c next begins goesOn => exact h.takesCall next begins goesOn
  | connection i c inner goesOn => exact h.connection inner goesOn
  | reads bs c done => exact h.reads done
  | closes => exact h.closes
  | runs now p posted e next idle after => exact (h.tookItem next).ran idle after
  | checksHeartbeat now e idle after => exact h.ran idle after

theorem sound_run {sh : ShutdownHandler} {now : Int} {actions : List (NodeAction τ ο)}
    (hrun : execute (step env) (init env sh now) actions = some n) : n.Sound env :=
  execute_invariant (P := fun _ _ => True) (fun _ _ _ h _ hstep => (moves_of_step hstep).sound h) actions
    (sound_init env sh now) (Along.of_forall fun _ _ => trivial) hrun

/-! ## What the socket takes -/

theorem Sound.accepted_eq (h : n.Sound env) :
    Net.accepted n.connection.log = n.sent.flatMap (Work.package env.serialize) := by
  rw [h.accepted, List.flatMap_def, List.flatMap_def]
  refine congrArg List.flatten (List.map_congr_left fun w hw => ?_)
  exact (h.whole w (by simp [hw])).bytes_eq

/-- A node for messages of bytes. -/
def plainNode : NodeEnv Bytes Bytes where
  entry := Entry.plainEnv .raw
  connection := ⟨64, 64, by decide, true, false⟩
  hasShutdownHandler := rfl
  serialize := id

/-- What an entry was called with is what was read: in order, nothing lost, nothing twice, and all of it once no input
is on its way. -/
structure HandsOver (n : Node τ ι ο) : Prop where
  order : n.handled <+: n.read
  all : (∀ buf, .input buf ∉ n.posted) → .inputHandler ∉ n.connection.stack → n.handled = n.read

theorem input_is_handed_over (env : NodeEnv ι ο) (sh : ShutdownHandler) (now : Int)
    {actions : List (NodeAction τ ο)} (hrun : execute (step env) (init env sh now) actions = some n) :
    n.HandsOver := by
  have hread := (sound_run hrun).read
  refine ⟨⟨_, hread.symm⟩, fun hposted hinput => ?_⟩
  have hempty : n.posted.flatMap Posted.bytes = [] := by
    refine List.flatMap_eq_nil_iff.2 fun p hp => ?_
    cases p with
    | input buf => exact absurd hp (hposted buf)
    | connectionShutdown | close => rfl
  rw [hread, unhandled, List.flatMap_append, hempty, List.nil_append, ofFrame_of_not_input hinput, List.append_nil]

/-- A chunk that is read while the one before it waits for the entry. -/
theorem input_is_handed_over_two_reads : ∃ n : Node Bool Bytes Bytes,
    execute (step plainNode) (init plainNode .notSupplied 0)
      [.takesCall, .reads [0, 3], .connection (.calls []), .connection .none, .connection .none, .reads [1],
        .connection (.calls []), .runs 5] = some n ∧
      n.read = [0, 3, 1] ∧ n.handled = [0, 3] ∧ n.HandsOver := by
  obtain ⟨n, hrun, hread, hhandled⟩ := exists_execute (step plainNode)
    (init plainNode .notSupplied 0 : Node Bool Bytes Bytes)
    [.takesCall, .reads [0, 3], .connection (.calls []), .connection .none, .connection .none, .reads [1],
      .connection (.calls []), .runs 5]
    (fun n => n.read = [0, 3, 1] ∧ n.handled = [0, 3]) (by decide +kernel)
  exact ⟨n, hrun, hread, hhandled, input_is_handed_over plainNode .notSupplied 0 hrun⟩

end Step

end Node

end Opio.ProtoEntry
