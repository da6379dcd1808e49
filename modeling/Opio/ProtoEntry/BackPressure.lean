/-
`bp_entry_t`: sends with back pressure. Each tag has a stream of its own with at most one buffer in
flight; of the buffers that come meanwhile the last one is memorized, and sent when the one in flight
is done with. A stream is a lane, and the steps of one leave the others alone.
-/
import Opio.Lib.Lane
import Opio.Lib.Runs
import Opio.Net.Connection

namespace Opio.ProtoEntry

open Opio.Net (SendBuffersResult)

/-! ## A stream -/

structure StreamContext (β : Type) where
  inFlight : Int := 0
  droppedBufs : Int := 0
  memorizedBuf : Option β := none
  deriving DecidableEq, Repr

namespace StreamContext

variable {β : Type}

/-- What `bp_send_raw_buf` does to the context of its stream, and the buffer that it sends, if any. -/
def submit (buf : β) (ctx : StreamContext β) : StreamContext β × Option β :=
  if ctx.inFlight < 1 then
    ({ ctx with inFlight := ctx.inFlight + 1 }, some buf)
  else
    ({ ctx with
        droppedBufs := if ctx.memorizedBuf.isSome then ctx.droppedBufs + 1 else ctx.droppedBufs
        memorizedBuf := some buf }, none)

/-- What `send_finished` does to it. -/
def finish (ctx : StreamContext β) : StreamContext β × Option β :=
  match ctx.memorizedBuf with
  | some buf => ({ ctx with memorizedBuf := none, droppedBufs := 0 }, some buf)
  | none => ({ ctx with inFlight := ctx.inFlight - 1 }, none)

/-- Nothing is in flight, or one buffer is. -/
def Sound (ctx : StreamContext β) : Prop := ctx.inFlight = 0 ∧ ctx.memorizedBuf = none ∨ ctx.inFlight = 1

/-- The lane that the context stands for. -/
def lane (ctx : StreamContext β) : Lane β := if ctx.inFlight = 0 then .idle else .busy ctx.memorizedBuf

theorem lane_idle {ctx : StreamContext β} (h : ctx.inFlight = 0) : ctx.lane = .idle := if_pos h

theorem lane_busy {ctx : StreamContext β} (h : ctx.inFlight = 1) : ctx.lane = .busy ctx.memorizedBuf :=
  if_neg (by omega)

theorem Sound.submit {ctx : StreamContext β} (h : ctx.Sound) (buf : β) :
    (ctx.submit buf).1.Sound ∧
      (ctx.submit buf).1.inFlight = ctx.inFlight + (if (ctx.submit buf).2.isSome then 1 else 0) ∧
      ((ctx.submit buf).1.lane, (ctx.submit buf).2) = ctx.lane.submit buf := by
  rcases h with ⟨hidle, hnone⟩ | hbusy
  · rw [StreamContext.submit, if_pos (by omega), lane_idle hidle]
    have hone : ctx.inFlight + 1 = 1 := by omega
    have hlane : ({ ctx with inFlight := ctx.inFlight + 1 } : StreamContext β).lane = .busy none := by
      rw [lane_busy hone, hnone]
    exact ⟨.inr hone, rfl, Prod.ext hlane rfl⟩
  · rw [StreamContext.submit, if_neg (by omega), lane_busy hbusy]
    exact ⟨.inr hbusy, (Int.add_zero _).symm, Prod.ext (lane_busy hbusy) rfl⟩

/-- With a buffer in flight. -/
theorem finish_spec {ctx : StreamContext β} (hbusy : ctx.inFlight = 1) :
    ctx.finish.1.Sound ∧ ctx.finish.1.inFlight = ctx.inFlight - 1 + (if ctx.finish.2.isSome then 1 else 0) ∧
      (ctx.finish.1.lane, ctx.finish.2) = ctx.lane.finish := by
  rw [lane_busy hbusy]
  unfold StreamContext.finish
  cases hmemorized : ctx.memorizedBuf with
  | none =>
    have hzero : ctx.inFlight - 1 = 0 := by omega
    exact ⟨.inl ⟨hzero, rfl⟩, (Int.add_zero _).symm, Prod.ext (lane_idle hzero) rfl⟩
  | some buf => exact ⟨.inr hbusy, by simp, Prod.ext (lane_busy hbusy) rfl⟩

end StreamContext

/-! ## The entry -/

structure BpEntry (τ β : Type) where
  streams : τ → StreamContext β := fun _ => {}
  /-- The sends whose callbacks have not been called. -/
  sending : List τ := []
  /-- The `send_finished` steps that wait for the strand. -/
  posted : List τ := []
  /-- The buffers that came and that were sent, by tag. -/
  submitted : τ → List β := fun _ => []
  sent : τ → List β := fun _ => []

/-- What the connection makes of a send. -/
inductive SendOutcome
  | later
  | atOnce (res : SendBuffersResult)
  /-- The connection is no longer active. -/
  | ignored
  deriving DecidableEq, Repr

namespace BpEntry

variable {τ β : Type} [DecidableEq τ]

/-- The callback of `send_buffer`. -/
def callback (tag : τ) (res : SendBuffersResult) (e : BpEntry τ β) : BpEntry τ β :=
  if res ≠ .success then e else { e with posted := e.posted ++ [tag] }

def sendBuffer (tag : τ) (buf : β) (outcome : SendOutcome) (e : BpEntry τ β) : BpEntry τ β :=
  let sent := Function.update e.sent tag (e.sent tag ++ [buf])
  match outcome with
  | .later => { e with sent, sending := e.sending ++ [tag] }
  | .atOnce res => callback tag res { e with sent }
  | .ignored => e

/-- The context goes back to its place, and a buffer is sent if there is one. -/
def follow (tag : τ) (r : StreamContext β × Option β) (outcome : SendOutcome) (e : BpEntry τ β) : BpEntry τ β :=
  let e := { e with streams := Function.update e.streams tag r.1 }
  match r.2 with
  | some buf => sendBuffer tag buf outcome e
  | none => e

def bpSendRawBuf (tag : τ) (buf : β) (outcome : SendOutcome) (e : BpEntry τ β) : BpEntry τ β :=
  follow tag ((e.streams tag).submit buf) outcome
    { e with submitted := Function.update e.submitted tag (e.submitted tag ++ [buf]) }

def sendFinished (tag : τ) (outcome : SendOutcome) (e : BpEntry τ β) : BpEntry τ β :=
  follow tag (e.streams tag).finish outcome e

inductive Action (τ β : Type)
  | bpSendRawBuf (tag : τ) (buf : β) (outcome : SendOutcome)
  | completes (tag : τ) (res : SendBuffersResult)
  | sendFinished (tag : τ) (outcome : SendOutcome)

def step (e : BpEntry τ β) : Action τ β → Option (BpEntry τ β)
  | .bpSendRawBuf tag buf outcome => some (bpSendRawBuf tag buf outcome e)
  | .completes tag res =>
    if tag ∈ e.sending then some (callback tag res { e with sending := e.sending.erase tag }) else none
  | .sendFinished tag outcome =>
    if tag ∈ e.posted then some (sendFinished tag outcome { e with posted := e.posted.erase tag }) else none

def Action.tag : Action τ β → τ
  | .bpSendRawBuf tag _ _ => tag
  | .completes tag _ => tag
  | .sendFinished tag _ => tag

def SendOutcome.Succeeds : SendOutcome → Prop
  | .later => True
  | .atOnce res => res = .success
  | .ignored => False

/-- The entry is active, and what is sent is sent with success. -/
def Action.Succeeds : Action τ β → Prop
  | .bpSendRawBuf _ _ outcome => SendOutcome.Succeeds outcome
  | .completes _ res => res = .success
  | .sendFinished _ outcome => SendOutcome.Succeeds outcome

/-! ## What a step changes -/

variable {e e' : BpEntry τ β} {tag : τ} {outcome : SendOutcome}

omit [DecidableEq τ] in
theorem callback_success (e : BpEntry τ β) (tag : τ) :
    callback tag .success e = { e with posted := e.posted ++ [tag] } := if_neg fun h => h rfl

/-- The buffers of a tag between being sent and their `send_finished` steps. -/
def outstanding (e : BpEntry τ β) (tag : τ) : Nat := e.sending.count tag + e.posted.count tag

/-- The stream of the tag, what it sent and what is outstanding; the other streams. -/
structure Follows (tag : τ) (r : StreamContext β × Option β) (e e' : BpEntry τ β) : Prop where
  streams : e'.streams tag = r.1
  submitted : e'.submitted = e.submitted
  sent : e'.sent tag = e.sent tag ++ r.2.toList
  outstanding : e'.outstanding tag = e.outstanding tag + (if r.2.isSome then 1 else 0)
  otherStreams : ∀ other, other ≠ tag → e'.streams other = e.streams other
  otherSent : ∀ other, other ≠ tag → e'.sent other = e.sent other
  otherOutstanding : ∀ other, other ≠ tag → e'.outstanding other = e.outstanding other

theorem follow_spec (tag : τ) (r : StreamContext β × Option β) (e : BpEntry τ β)
    (h : SendOutcome.Succeeds outcome) : Follows tag r e (follow tag r outcome e) := by
  obtain ⟨ctx, buf⟩ := r
  have hstreams : ∀ other, other ≠ tag → Function.update e.streams tag ctx other = e.streams other :=
    fun other hother => Function.update_of_ne hother ..
  cases buf with
  | none =>
    constructor
    · exact Function.update_self ..
    · rfl
    · exact (List.append_nil _).symm
    · rfl
    · exact hstreams
    · exact fun _ _ => rfl
    · exact fun _ _ => rfl
  | some buf =>
    have hsent : ∀ other, other ≠ tag → Function.update e.sent tag (e.sent tag ++ [buf]) other = e.sent other :=
      fun other hother => Function.update_of_ne hother ..
    have hcount : ∀ (tags : List τ) (other : τ), other ≠ tag →
        (tags ++ [tag]).count other = tags.count other := by
      intro tags other hother
      have hnone : [tag].count other = 0 := List.count_eq_zero_of_not_mem (by simpa using hother)
      rw [List.count_append, hnone, Nat.add_zero]
    have hone : ∀ tags : List τ, (tags ++ [tag]).count tag = tags.count tag + 1 := by
      intro tags
      rw [List.count_append, List.count_singleton_self]
    cases outcome with
    | later =>
      constructor
      · exact Function.update_self ..
      · rfl
      · exact Function.update_self ..
      · change (e.sending ++ [tag]).count tag + e.posted.count tag = _
        rw [hone, outstanding]
        simp
        omega
      · exact hstreams
      · exact hsent
      · intro other hother
        change (e.sending ++ [tag]).count other + e.posted.count other = _
        rw [hcount _ _ hother]
        rfl
    | atOnce res =>
      -- the callback runs within the send, so the buffer is never among those being sent
      obtain rfl : res = .success := h
      change Follows tag _ e (callback tag .success _)
      rw [callback_success]
      constructor
      · exact Function.update_self ..
      · rfl
      · exact Function.update_self ..
      · change e.sending.count tag + (e.posted ++ [tag]).count tag = _
        rw [hone, outstanding]
        simp
        omega
      · exact hstreams
      · exact hsent
      · intro other hother
        change e.sending.count other + (e.posted ++ [tag]).count other = _
        rw [hcount _ _ hother]
        rfl
    | ignored => cases h

/-! ## The invariant -/

/-- The stream of a tag is a lane that sends the freshest buffer, and what it has in flight is outstanding. -/
structure Serves (e : BpEntry τ β) (tag : τ) : Prop where
  sound : (e.streams tag).Sound
  fresh : Lane.Fresh (e.streams tag).lane (e.submitted tag) (e.sent tag)
  inFlight : (e.outstanding tag : Int) = (e.streams tag).inFlight

theorem serves_init (tag : τ) : Serves ({} : BpEntry τ β) tag where
  sound := .inl ⟨rfl, rfl⟩
  fresh := Lane.fresh_init
  inFlight := rfl

theorem Serves.congr (h : Serves e tag) (hstreams : e'.streams tag = e.streams tag)
    (hsubmitted : e'.submitted tag = e.submitted tag) (hsent : e'.sent tag = e.sent tag)
    (houtstanding : e'.outstanding tag = e.outstanding tag) : Serves e' tag := by
  constructor
  · rw [hstreams]
    exact h.sound
  · rw [hstreams, hsubmitted, hsent]
    exact h.fresh
  · rw [hstreams, houtstanding]
    exact h.inFlight

/-- A stream that goes on as its lane does. -/
theorem serves_follow {r : StreamContext β × Option β} (hsound : r.1.Sound)
    (hfresh : Lane.Fresh r.1.lane (e.submitted tag) (e.sent tag ++ r.2.toList))
    (hinFlight : r.1.inFlight = e.outstanding tag + (if r.2.isSome then 1 else 0))
    (hsucceeds : SendOutcome.Succeeds outcome) : Serves (follow tag r outcome e) tag := by
  have hfollows := follow_spec tag r e hsucceeds
  constructor
  · rw [hfollows.streams]
    exact hsound
  · rw [hfollows.streams, hfollows.submitted, hfollows.sent]
    exact hfresh
  · rw [hfollows.streams, hfollows.outstanding, hinFlight]
    split <;> rfl

theorem Serves.bpSendRawBuf (h : Serves e tag) (buf : β) (hsucceeds : SendOutcome.Succeeds outcome) :
    Serves (bpSendRawBuf tag buf outcome e) tag := by
  obtain ⟨hsound, hinFlight, hlane⟩ := h.sound.submit buf
  obtain ⟨hfst, hsnd⟩ := Prod.ext_iff.1 hlane
  apply serves_follow hsound ?_ ?_ hsucceeds
  · have hfresh := h.fresh.submit buf
    rw [← hfst, ← hsnd] at hfresh
    dsimp only
    rw [Function.update_self]
    exact hfresh
  · rw [hinFlight, ← h.inFlight]
    rfl

/-- A `send_finished` step is for a buffer in flight. -/
theorem Serves.inFlight_of_posted (h : Serves e tag) (hposted : tag ∈ e.posted) : (e.streams tag).inFlight = 1 := by
  have hinFlight := h.inFlight
  have hpos := List.count_pos_iff.2 hposted
  rcases h.sound with ⟨hidle, -⟩ | hbusy
  · rw [outstanding] at hinFlight
    omega
  · exact hbusy

theorem Serves.sendFinished (h : Serves e tag) (hposted : tag ∈ e.posted) (hsucceeds : SendOutcome.Succeeds outcome) :
    Serves (sendFinished tag outcome { e with posted := e.posted.erase tag }) tag := by
  have hcount : e.outstanding tag = e.sending.count tag + (e.posted.erase tag).count tag + 1 := by
    have hpos := List.count_pos_iff.2 hposted
    rw [outstanding, List.count_erase_self]
    omega
  obtain ⟨hsound, hinFlight, hlane⟩ := StreamContext.finish_spec (h.inFlight_of_posted hposted)
  obtain ⟨hfst, hsnd⟩ := Prod.ext_iff.1 hlane
  apply serves_follow hsound ?_ ?_ hsucceeds
  · have hfresh := h.fresh.finish
    rw [← hfst, ← hsnd] at hfresh
    exact hfresh
  · rw [hinFlight, ← h.inFlight, hcount]
    change _ = ((e.sending.count tag + (e.posted.erase tag).count tag : Nat) : Int) + _
    omega

theorem Serves.completes (h : Serves e tag) (hsending : tag ∈ e.sending) :
    Serves (callback tag .success { e with sending := e.sending.erase tag }) tag := by
  rw [callback_success]
  refine h.congr rfl rfl rfl ?_
  have hpos := List.count_pos_iff.2 hsending
  change (e.sending.erase tag).count tag + (e.posted ++ [tag]).count tag = e.sending.count tag + e.posted.count tag
  rw [List.count_erase_self, List.count_append, List.count_singleton_self]
  omega

/-! ## Steps -/

/-- What a step does: a buffer that is sent for the tag is the last one that came, and nothing is
changed for another tag. -/
structure SendsFreshest (a : Action τ β) (e e' : BpEntry τ β) : Prop where
  freshest : e'.sent a.tag = e.sent a.tag ∨
    ∃ buf, e'.sent a.tag = e.sent a.tag ++ [buf] ∧ (e'.submitted a.tag).getLast? = some buf
  streams : ∀ other, other ≠ a.tag → e'.streams other = e.streams other
  submitted : ∀ other, other ≠ a.tag → e'.submitted other = e.submitted other
  sent : ∀ other, other ≠ a.tag → e'.sent other = e.sent other
  outstanding : ∀ other, other ≠ a.tag → e'.outstanding other = e.outstanding other

theorem Serves.step {a : Action τ β} (h : Serves e a.tag) (hsucceeds : a.Succeeds) (hstep : step e a = some e') :
    Serves e' a.tag := by
  cases a with
  | bpSendRawBuf tag buf outcome =>
    cases hstep
    exact h.bpSendRawBuf buf hsucceeds
  | completes tag res =>
    obtain rfl : res = .success := hsucceeds
    simp only [BpEntry.step] at hstep
    split at hstep
    · rename_i hsending
      cases hstep
      exact h.completes hsending
    · cases hstep
  | sendFinished tag outcome =>
    simp only [BpEntry.step] at hstep
    split at hstep
    · rename_i hposted
      cases hstep
      exact h.sendFinished hposted hsucceeds
    · cases hstep

/-- A step that follows on what came for its tag. -/
theorem Follows.sendsFreshest {a : Action τ β} {r : StreamContext β × Option β} {e₀ : BpEntry τ β}
    (h : Follows a.tag r e₀ e') (hstreams : e₀.streams = e.streams) (hsent : e₀.sent = e.sent)
    (hsubmitted : ∀ other, other ≠ a.tag → e₀.submitted other = e.submitted other)
    (houtstanding : ∀ other, other ≠ a.tag → e₀.outstanding other = e.outstanding other)
    (hlast : ∀ buf, r.2 = some buf → (e₀.submitted a.tag).getLast? = some buf) : SendsFreshest a e e' := by
  constructor
  · have hown := h.sent
    rw [hsent] at hown
    cases hnext : r.2 with
    | none =>
      rw [hnext] at hown
      exact .inl (hown.trans (List.append_nil _))
    | some buf =>
      rw [hnext] at hown
      refine .inr ⟨buf, hown, ?_⟩
      rw [h.submitted]
      exact hlast buf hnext
  · intro other hother
    rw [h.otherStreams other hother, hstreams]
  · intro other hother
    rw [h.submitted, hsubmitted other hother]
  · intro other hother
    rw [h.otherSent other hother, hsent]
  · intro other hother
    rw [h.otherOutstanding other hother, houtstanding other hother]

theorem sendsFreshest_step {a : Action τ β} (h : Serves e a.tag) (hsucceeds : a.Succeeds)
    (hstep : step e a = some e') : SendsFreshest a e e' := by
  cases a with
  | bpSendRawBuf tag buf outcome =>
    cases hstep
    have hfollows := follow_spec tag ((e.streams tag).submit buf)
      { e with submitted := Function.update e.submitted tag (e.submitted tag ++ [buf]) } hsucceeds
    refine Follows.sendsFreshest (e := e) (a := .bpSendRawBuf tag buf outcome) hfollows rfl rfl ?_ ?_ ?_
    · exact fun other hother => Function.update_of_ne hother ..
    · exact fun _ _ => rfl
    · intro buf' hnext
      -- sent at once, with nothing before it: it is the last that was submitted
      have hlane := congrArg Prod.snd (h.sound.submit buf).2.2
      rw [Lane.submit_last (hlane.symm.trans hnext)]
      change (Function.update e.submitted tag (e.submitted tag ++ [buf]) tag).getLast? = some buf
      rw [Function.update_self]
      exact List.getLast?_concat
  | completes tag res =>
    obtain rfl : res = .success := hsucceeds
    simp only [BpEntry.step] at hstep
    split at hstep
    · cases hstep
      rw [callback_success]
      -- a completion sends nothing, it is only posted
      refine ⟨.inl rfl, fun _ _ => rfl, fun _ _ => rfl, fun _ _ => rfl, fun other hother => ?_⟩
      have hne : other ≠ tag := hother
      have hnone : [tag].count other = 0 := List.count_eq_zero_of_not_mem (by simpa using hne)
      change (e.sending.erase tag).count other + (e.posted ++ [tag]).count other = _
      rw [List.count_erase_of_ne hne, List.count_append, hnone]
      rfl
    · cases hstep
  | sendFinished tag outcome =>
    simp only [BpEntry.step] at hstep
    split at hstep
    · rename_i hposted
      cases hstep
      have hfollows := follow_spec tag (e.streams tag).finish { e with posted := e.posted.erase tag } hsucceeds
      refine Follows.sendsFreshest (e := e) (a := .sendFinished tag outcome) hfollows rfl rfl ?_ ?_ ?_
      · exact fun _ _ => rfl
      · intro other hother
        have hne : other ≠ tag := hother
        change e.sending.count other + (e.posted.erase tag).count other = _
        rw [List.count_erase_of_ne hne]
        rfl
      · intro buf hnext
        have hlane := congrArg Prod.snd (StreamContext.finish_spec (h.inFlight_of_posted hposted)).2.2
        exact h.fresh.finish_last (hlane.symm.trans hnext)
    · cases hstep

/-! ## Runs -/

/-- What back pressure promises for a tag. -/
structure Conflates (e : BpEntry τ β) (tag : τ) : Prop where
  inFlight : (e.streams tag).inFlight = 0 ∨ (e.streams tag).inFlight = 1
  memorized : (e.streams tag).memorizedBuf.isSome = true → (e.streams tag).inFlight = 1
  outstanding : e.outstanding tag ≤ 1
  inOrder : (e.sent tag).Sublist (e.submitted tag)
  last : (e.streams tag).inFlight = 0 → (e.sent tag).getLast? = (e.submitted tag).getLast?

theorem Serves.conflates (h : Serves e tag) : Conflates e tag := by
  have hinFlight := h.inFlight
  constructor
  · exact h.sound.imp_left And.left
  · intro hsome
    rcases h.sound with ⟨-, hnone⟩ | hbusy
    · rw [hnone] at hsome
      cases hsome
    · exact hbusy
  · rcases h.sound with ⟨hidle, -⟩ | hbusy <;> omega
  · exact h.fresh.inOrder
  · intro hidle
    apply h.fresh.last
    rw [StreamContext.lane_idle hidle]
    rfl

theorem serves_step {a : Action τ β} (h : ∀ tag, Serves e tag) (hsucceeds : a.Succeeds)
    (hstep : step e a = some e') (tag : τ) : Serves e' tag := by
  by_cases htag : tag = a.tag
  · subst htag
    exact (h _).step hsucceeds hstep
  · have hsends := sendsFreshest_step (h a.tag) hsucceeds hstep
    exact (h tag).congr (hsends.streams tag htag) (hsends.submitted tag htag) (hsends.sent tag htag)
      (hsends.outstanding tag htag)

/-- In every run in which the entry stays active and its sends succeed: a tag has at most one buffer in
flight, and one is memorized only then; buffers are sent in the order they came in, each the freshest
when it is sent, and with nothing in flight the last one that came was sent. -/
theorem back_pressure_conflates (actions : List (Action τ β)) {e : BpEntry τ β}
    (hsucceed : ∀ a ∈ actions, a.Succeeds) (hrun : execute step {} actions = some e) :
    (∀ tag, Conflates e tag) ∧ ∀ a e', a.Succeeds → step e a = some e' → SendsFreshest a e e' := by
  have hserves : ∀ tag, Serves e tag :=
    execute_invariant (fun _ _ _ h hsucceeds hstep => serves_step h hsucceeds hstep) actions serves_init
      (Along.of_forall hsucceed) hrun
  exact ⟨fun tag => (hserves tag).conflates, fun a e' hsucceeds hstep =>
    sendsFreshest_step (hserves a.tag) hsucceeds hstep⟩

/-- Of the buffers that come while the first is in flight only the last is sent. -/
def conflated : List (Action Nat Nat) :=
  [.bpSendRawBuf 0 1 .later, .bpSendRawBuf 0 2 .later, .bpSendRawBuf 0 3 .later, .completes 0 .success,
    .sendFinished 0 (.atOnce .success)]

theorem back_pressure_conflates_three : ∃ e : BpEntry Nat Nat, execute step {} conflated = some e ∧
    e.sent 0 = [1, 3] ∧ Conflates e 0 := by
  obtain ⟨e, he, hsent⟩ := exists_execute step ({} : BpEntry Nat Nat) conflated (fun e => e.sent 0 = [1, 3])
    (by decide +kernel)
  have hsucceed : ∀ a ∈ conflated, a.Succeeds := by simp [conflated, Action.Succeeds, SendOutcome.Succeeds]
  exact ⟨e, he, hsent, (back_pressure_conflates conflated hsucceed he).1 0⟩

end BpEntry

end Opio.ProtoEntry
