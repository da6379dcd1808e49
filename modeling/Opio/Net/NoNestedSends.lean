/-
Runs in which user callbacks do not send. What else they call, to stop reading or to shut the connection down,
is nothing to the stream: the socket takes what was accepted, in order. Where they do not start reading either, a
connection that has stopped reading rests until it is told to go on.
-/
import Opio.Net.QuietSteps
import Opio.Net.ReadLoop

namespace Opio.Net

/-- The call is neither a send nor the start of a read loop. -/
def Call.isEnding : Call → Bool
  | .shutdown => true
  | .stopReading => true
  | _ => false

namespace Connection

variable {env : ConnectionEnv} {c c' : Connection}

/-- If the input is what a user callback does, it stops reading or shuts down, if anything. -/
def Input.onlyEnds : Input → Bool
  | .calls cs => cs.all Call.isEnding
  | _ => true

/-- If the input is a call from outside, it is such a one. -/
def Input.onlyEndsOutside : Input → Bool
  | .item (.call call) => call.isEnding
  | .item (.destroy _) => false
  | _ => true

/-- A connection whose callbacks do nothing else, between the steps of a call. -/
structure Serving (c : Connection) : Prop where
  stands : Stands c
  ending : ∀ calls, .reaction calls ∈ c.stack → ∀ call ∈ calls, call.isEnding = true
  calling : ∀ call, c.stack.head? = some (.call call) → call.isEnding = true
  alone : ∀ f ∈ c.stack, f.isSending = true → c.stack = [f]
  below : ∀ g ∈ c.stack.tail, g.isEntering = false

theorem serving_init : Serving {} := ⟨stands_init, by simp, by simp, by simp, by simp⟩

theorem isSend_of_isEnding {call : Call} (h : call.isEnding = true) : ∀ s, call ≠ .send s := by
  rintro s rfl
  cases h

/-! ## Nothing is overtaken -/

theorem overtakesNothing_of_alone (h : ∀ f ∈ c.stack, f.isSending = true → c.stack = [f]) (i : Input) :
    OvertakesNothing env c i := by
  intro _ hpop
  cases hstack : c.stack with
  | nil => trivial
  | cons f fs =>
    -- a sending frame would be alone, and the written sequence would not wait below
    have hf : f.isSending = false := by
      by_contra hne
      have hone := h f (by rw [hstack]; exact List.mem_cons_self ..) (by simpa using hne)
      rw [hone, List.mem_singleton] at hpop
      subst hpop
      exact hne rfl
    cases f with
    | call call =>
      cases call with
      | send s => cases hf
      | _ => trivial
    | append bufs beAggressive id cb => cases hf
    | aggressiveWrite buf bufs id cb => cases hf
    | _ => trivial

/-! ## What comes in the place of a frame -/

/-- The frames `gs` that a step puts in the place of `f`: callbacks make only such calls, and a group is sent by one
frame that replaces another. -/
structure Replaces (f : Frame) (gs : List Frame) : Prop where
  ending : ∀ calls, .reaction calls ∈ gs → ∀ call ∈ calls, call.isEnding = true
  sending : (∀ g ∈ gs, g.isSending = false) ∨ f.isSending = true ∧ ∃ g, gs = [g]

theorem replaces_nil (f : Frame) : Replaces f [] := ⟨by simp, .inl (by simp)⟩

theorem replaces_of_sending {f g : Frame} (hf : f.isSending = true) (hg : ∀ calls, .reaction calls ≠ g) :
    Replaces f [g] := by
  refine ⟨fun calls hmem => absurd (List.mem_singleton.1 hmem) (hg calls), .inr ⟨hf, g, rfl⟩⟩

/-- Frames that neither send nor make calls. -/
theorem replaces_of_plain {f : Frame} {gs : List Frame}
    (h : ∀ g ∈ gs, g.isSending = false ∧ ∀ calls, g ≠ .reaction calls) : Replaces f gs :=
  ⟨fun calls hmem => absurd rfl ((h _ hmem).2 calls), .inl fun g hg => (h g hg).1⟩

/-- The end of a write leaves callbacks to call, and after a failure the frames of the shutdown above them. -/
theorem afterWrite_plain (env : ConnectionEnv) (ec : Option ErrorCode) (c : Connection) :
    ∃ gs, (afterWrite env ec c).stack = gs ++ c.stack ∧
      ∀ g ∈ gs, g.isSending = false ∧ ∀ calls, g ≠ .reaction calls := by
  cases ec with
  | none => exact ⟨[.runCallbacks .success _, .popWritten], rfl, by simp [Frame.isSending]⟩
  | some ec =>
    obtain ⟨gs, hfails⟩ := afterWrite_fails env ec c
    refine ⟨gs ++ [.runCallbacks .ioError (front c.writeQueue).sendCompletionCbs], ?_, fun g hg => ?_⟩
    · rw [hfails.stack, List.append_assoc]
      rfl
    · rcases List.mem_append.1 hg with hg | hg
      · exact ⟨Frame.isSending_of_isBystander (hfails.frames.bystanders g hg), (hfails.frames.noReaction g hg).2⟩
      · rw [List.mem_singleton.1 hg]
        exact ⟨rfl, by simp⟩

/-- The same where the statistics are told first. -/
theorem afterWrite_push_plain (env : ConnectionEnv) (ec : Option ErrorCode) (c : Connection) {f : Frame}
    (hsending : f.isSending = false) (hreaction : ∀ calls, f ≠ .reaction calls) :
    ∃ gs, (afterWrite env ec (c.push f)).stack = gs ++ c.stack ∧
      ∀ g ∈ gs, g.isSending = false ∧ ∀ calls, g ≠ .reaction calls := by
  obtain ⟨gs, hstack, hplain⟩ := afterWrite_plain env ec (c.push f)
  refine ⟨gs ++ [f], ?_, fun g hg => ?_⟩
  · rw [List.append_assoc]
    exact hstack
  · rcases List.mem_append.1 hg with hg | hg
    · exact hplain g hg
    · rw [List.mem_singleton.1 hg]
      exact ⟨hsending, hreaction⟩

theorem resume_replaces {f : Frame} {i : Input} (h : Serving (c.push f)) (hi : i.onlyEnds = true)
    (hstep : Resumes env c f i c') : ∃ gs, c'.stack = gs ++ c.stack ∧ Replaces f gs := by
  have hcalls : ∀ cs, i = .calls cs → ∀ call ∈ cs, call.isEnding = true := by
    rintro cs rfl
    exact List.all_eq_true.1 hi
  have hrest : ∀ call calls, f = .reaction (call :: calls) → ∀ call' ∈ call :: calls, call'.isEnding = true := by
    rintro call calls rfl
    exact h.ending _ (List.mem_cons_self ..)
  cases hstep with
  | bystander isBystander still pushed =>
    refine ⟨_, still.stack, ⟨fun calls hmem call hcall => ?_, .inl fun g hg => ?_⟩⟩
    · rcases pushed _ hmem with ⟨-, hreaction⟩ | ⟨call', calls', -, heq⟩
      · rcases hreaction calls rfl with hin | ⟨call', hf⟩
        · exact hcalls calls hin call hcall
        · exact hrest call' calls hf call (List.mem_cons_of_mem _ hcall)
      · cases heq
    · rcases pushed g hg with ⟨hg, -⟩ | ⟨call, calls, hf, rfl⟩
      · exact Frame.isSending_of_isBystander hg
      · cases call with
        | send s => exact absurd rfl (isSend_of_isEnding (hrest _ calls hf _ (List.mem_cons_self ..)) s)
        | _ => rfl
  | send s =>
    refine scheduleSend_elim s c ?accepted ?rejected ?ignored
    case accepted => exact fun _ => ⟨[.append s.bufs true c.groups s.cb], rfl, replaces_of_sending rfl (by simp)⟩
    case rejected =>
      exact fun _ _ _ => ⟨[.runCallbacks .rejectedScheduleSend [c.groups]], rfl, replaces_of_sending rfl (by simp)⟩
    case ignored => exact fun _ _ => ⟨[], rfl, replaces_nil _⟩
  | append bufs beAggressive id cb =>
    refine append_elim env bufs beAggressive id cb c ?delivered ?ended ?noted ?queued ?direct ?buffered
    case delivered => exact fun _ _ _ => ⟨[.runCallbacks .success [id]], rfl, replaces_of_sending rfl (by simp)⟩
    case ended => exact fun _ _ _ => ⟨[], rfl, replaces_nil _⟩
    case noted => exact fun _ _ _ => ⟨[.initiateWrite], rfl, replaces_of_sending rfl (by simp)⟩
    case queued => exact fun _ _ _ => ⟨[.initiateWrite], rfl, replaces_of_sending rfl (by simp)⟩
    case direct =>
      intro buf rest _ _ _ _
      exact ⟨[.aggressiveWrite buf rest id cb], rfl, replaces_of_sending rfl (by simp)⟩
    case buffered =>
      intro buf rest _ _
      exact ⟨[.append rest false id cb], rfl, replaces_of_sending rfl (by simp)⟩
  | aggressiveWrite buf bufs id cb r possible =>
    refine aggressiveWritten_elim env buf bufs id cb r c ?whole ?partly
    case whole => exact fun _ => ⟨[.append bufs true id cb], rfl, replaces_of_sending rfl (by simp)⟩
    case partly => exact fun _ => ⟨[.append bufs false id cb], rfl, replaces_of_sending rfl (by simp)⟩
  | initiateWrite =>
    refine initiateWrite_elim env c ?running ?nothing ?sync ?async
    case running => exact fun _ => ⟨[], rfl, replaces_nil _⟩
    case nothing => exact fun _ _ => ⟨[], rfl, replaces_nil _⟩
    case sync =>
      exact fun _ _ _ => ⟨[.syncWrite], rfl, replaces_of_plain (by simp [Frame.isSending])⟩
    case async => exact fun _ _ => ⟨[], rfl, replaces_nil _⟩
  | syncWrite r possible =>
    refine syncWritten_elim env possible ?completed ?blocked
    case completed =>
      intro _
      obtain ⟨gs, hstack, hplain⟩ := afterWrite_push_plain env r.ec
        { c.emit (.taken ((front c.writeQueue).asioBufs.flatten.take r.transferred)) with
          writeQueue := freezeFirst c.writeQueue } (f := .incBytesTxSync r.transferred) rfl (by simp)
      exact ⟨gs, hstack, replaces_of_plain hplain⟩
    case blocked => exact fun _ _ => ⟨[], rfl, replaces_nil _⟩
  | called res id ids cs =>
    refine ⟨[.reaction cs, .runCallbacks res ids], rfl, fun calls hmem => ?_, .inl (by simp [Frame.isSending])⟩
    obtain rfl : calls = cs := by simpa using hmem
    exact hcalls calls rfl
  | callbacksDone res => exact ⟨[], rfl, replaces_nil _⟩
  | popWritten => exact ⟨[.initiateWrite], rfl, replaces_of_plain (by simp [Frame.isSending])⟩

/-! ## Steps -/

/-- What comes in the place of a frame keeps the groups apart. -/
theorem Serving.replace {f : Frame} {gs : List Frame} (h : Serving (c.push f)) (hgs : Replaces f gs)
    (hstack : c'.stack = gs ++ c.stack) (hstands : Stands c')
    (hcalling : ∀ call, c'.stack.head? = some (.call call) → call.isEnding = true)
    (hbelow : ∀ g ∈ c'.stack.tail, g.isEntering = false) : Serving c' := by
  refine ⟨hstands, fun calls hmem => ?_, hcalling, fun g hg hsends => ?_, hbelow⟩
  · rw [hstack] at hmem
    rcases List.mem_append.1 hmem with hmem | hmem
    · exact hgs.ending calls hmem
    · exact h.ending calls (List.mem_cons_of_mem f hmem)
  · rw [hstack] at hg ⊢
    rcases List.mem_append.1 hg with hg | hg
    · rcases hgs.sending with hnone | ⟨hf, g', rfl⟩
      · rw [hnone g hg] at hsends
        cases hsends
      · have hone := h.alone f (List.mem_cons_self ..) hf
        rw [(List.cons.inj hone).2, List.mem_singleton.1 hg, List.append_nil]
    · have hone := h.alone g (List.mem_cons_of_mem f hg) hsends
      rw [(List.cons.inj hone).2] at hg
      cases hg

/-- The next call that a callback makes. -/
theorem Serving.reacts {call : Call} {calls : List Call} (h : Serving (c.push (.reaction (call :: calls)))) :
    Serving ((c.push (.reaction calls)).push (.call call)) := by
  have hcalls := h.ending _ (List.mem_cons_self ..)
  refine ⟨?_, fun calls' hmem => ?_, fun call' hhead => ?_, fun g hg hsends => ?_, fun g hg => ?_⟩
  · have hfits : OvertakesNothing ⟨0, 1, Nat.one_pos, false, false⟩ (c.push (.reaction (call :: calls))) .none :=
      overtakesNothing_of_alone h.alone .none
    exact step_stands h.stands hfits (by simp) rfl
  · rcases List.mem_cons.1 hmem with heq | hmem
    · cases heq
    · rcases List.mem_cons.1 hmem with heq | hmem
      · rw [Frame.reaction.inj heq]
        exact fun call' hcall' => hcalls call' (List.mem_cons_of_mem _ hcall')
      · exact h.ending calls' (List.mem_cons_of_mem _ hmem)
  · rw [← Frame.call.inj (Option.some.inj hhead)]
    exact hcalls call (List.mem_cons_self ..)
  · rcases List.mem_cons.1 hg with rfl | hg
    · cases call with
      | send s => exact absurd rfl (isSend_of_isEnding (hcalls _ (List.mem_cons_self ..)) s)
      | _ => cases hsends
    · rcases List.mem_cons.1 hg with rfl | hg
      · cases hsends
      · have hone := h.alone g (List.mem_cons_of_mem _ hg) hsends
        rw [(List.cons.inj hone).2] at hg
        cases hg
  · rcases List.mem_cons.1 hg with rfl | hg
    · rfl
    · exact h.below g hg

/-- A work item that is no call begins with frames that neither send nor make calls. -/
theorem enters_plain {item : Item} (hcall : ∀ call, item ≠ .call call) (hdestroy : ∀ n, item ≠ .destroy n)
    (h : Enters env c item c') : ∃ gs, c'.stack = gs ++ c.stack ∧
      ∀ g ∈ gs, g.isSending = false ∧ ∀ calls, g ≠ .reaction calls := by
  cases begins_of_enters h with
  | call call => exact absurd rfl (hcall call)
  | bystander still bystanders =>
    refine ⟨_, still.stack, fun g hg => ⟨Frame.isSending_of_isBystander (bystanders g hg).1, (bystanders g hg).2⟩⟩
  | asyncWrite bufs r inFlight possible =>
    exact afterWrite_push_plain env r.ec ({ c with asyncWrite := none }.emit (.taken (bufs.flatten.take r.transferred)))
      (f := .incBytesTxAsync r.transferred) rfl (by simp)
  | destroy n => exact absurd rfl (hdestroy n)

/-- A call from outside waits for the next step. -/
theorem serving_of_call {call : Call} (hcall : call.isEnding = true) (hstack : c.stack = [])
    (hstands : Stands (c.push (.call call))) : Serving (c.push (.call call)) := by
  have hone : (c.push (.call call)).stack = [.call call] := by rw [push, hstack]
  refine ⟨hstands, ?_, ?_, ?_, ?_⟩
  · simp [hone]
  · rintro call' hhead
    rw [hone] at hhead
    rwa [← Frame.call.inj (Option.some.inj hhead)]
  · rintro g hg -
    rw [hone] at hg ⊢
    rw [List.mem_singleton.1 hg]
  · simp [hone]

/-- What is left on the stack: no call, and none of a send behind the first frame. -/
theorem enters_below {item : Item} (hcall : ∀ call, item ≠ .call call) (hdestroy : ∀ n, item ≠ .destroy n)
    (hstack : c.stack = []) (h : Enters env c item c') :
    (∀ call, c'.stack.head? ≠ some (.call call)) ∧ (∀ g ∈ c'.stack.tail, g.isEntering = false) ∧
      accepted c'.log = accepted c.log ∧ (item ≠ .readDone none → .inputHandler ∉ c'.stack) := by
  by_cases hread : item = .readDone none
  · subst hread
    cases h with
    | read inFlight =>
      refine ⟨by simp [push], ?_, rfl, fun hne => absurd rfl hne⟩
      simp [push, hstack, Frame.isEntering]
  · obtain ⟨gs, hquiet⟩ := enters_quietly hcall hread hdestroy h
    have hframes : ∀ g ∈ c'.stack, g.isEntering = false := by
      rw [hquiet.stack, hstack, List.append_nil]
      exact hquiet.frames
    refine ⟨fun call hhead => ?_, fun g hg => hframes g (List.mem_of_mem_tail hg), hquiet.accepted, fun _ hmem => ?_⟩
    · cases hframes _ (List.mem_of_head? hhead)
    · cases hframes _ hmem

/-- Any other work item. -/
theorem serving_of_enters {item : Item} (hcall : ∀ call, item ≠ .call call) (hdestroy : ∀ n, item ≠ .destroy n)
    (hstack : c.stack = []) (hstands : Stands c') (h : Enters env c item c') : Serving c' := by
  obtain ⟨gs, hgs, hplain⟩ := enters_plain hcall hdestroy h
  have hin : ∀ g ∈ c'.stack, g.isSending = false ∧ ∀ calls, g ≠ .reaction calls := by
    rw [hgs, hstack, List.append_nil]
    exact hplain
  obtain ⟨hhead, hbelow, -, -⟩ := enters_below hcall hdestroy hstack h
  refine ⟨hstands, fun calls hmem => absurd rfl ((hin _ hmem).2 calls), fun call hcall' => absurd hcall' (hhead call),
    fun g hg hsends => ?_, hbelow⟩
  rw [(hin g hg).1] at hsends
  cases hsends

/-- The frame on top is replaced, and hands no input over. -/
theorem Serving.continues {f : Frame} {i : Input} (h : Serving (c.push f)) (hi : i.onlyEnds = true)
    (hstands : Stands c') (hstep : Continues env c f i c') :
    Serving c' ∧ accepted c'.log = accepted c.log ∧ .inputHandler ∉ c'.stack := by
  have hbelow : ∀ g ∈ c.stack, g.isEntering = false := h.below
  by_cases hreaction : ∃ call calls, f = .reaction (call :: calls)
  · obtain ⟨call, calls, rfl⟩ := hreaction
    cases hstep
    refine ⟨h.reacts, rfl, fun hmem => ?_⟩
    rcases List.mem_cons.1 hmem with heq | hmem
    · cases heq
    · rcases List.mem_cons.1 hmem with heq | hmem
      · cases heq
      · cases hbelow _ hmem
  · obtain ⟨gs, hquiet⟩ := continues_quietly
      (fun s hf => isSend_of_isEnding (h.calling (.send s) (by rw [hf]; rfl)) s rfl)
      (fun call calls hf => hreaction ⟨call, calls, hf⟩) hstep
    obtain ⟨gs', hstack, hreplaces⟩ := resume_replaces h hi (resumes_of_continues hstep)
    have hframes : ∀ g ∈ c'.stack, g.isEntering = false := by
      intro g hg
      rw [hquiet.stack] at hg
      exact (List.mem_append.1 hg).elim (hquiet.frames g) (hbelow g)
    refine ⟨h.replace hreplaces hstack hstands (fun call hhead => ?_) fun g hg => hframes g (List.mem_of_mem_tail hg),
      hquiet.accepted, fun hmem => ?_⟩
    · cases hframes _ (List.mem_of_head? hhead)
    · cases hframes _ hmem

/-- What a connection does between the sends: it accepts nothing, and only a read that is done has input to hand
over. -/
theorem Serving.step {i : Input} (h : Serving c) (hi : i.onlyEnds = true) (hout : i.onlyEndsOutside = true)
    (hstep : step env c i = some c') : Serving c' ∧ accepted c'.log = accepted c.log ∧
      (i ≠ .item (.readDone none) → .inputHandler ∉ c'.stack) := by
  have hdestroy : ∀ n, i ≠ .item (.destroy n) := by
    rintro n rfl
    cases hout
  have hstands := step_stands h.stands (overtakesNothing_of_alone h.alone i) hdestroy hstep
  rcases step_inversion hstep with ⟨item, rfl, hstack, -, henters⟩ | ⟨f, c₀, rfl, hcontinues⟩
  · by_cases hcall : ∃ call, item = .call call
    · obtain ⟨call, rfl⟩ := hcall
      cases henters
      refine ⟨serving_of_call hout hstack hstands, rfl, fun _ => ?_⟩
      simp [push, hstack]
    · have hne : ∀ call, item ≠ .call call := fun call heq => hcall ⟨call, heq⟩
      have hnot : ∀ n, item ≠ .destroy n := fun n heq => hdestroy n (heq ▸ rfl)
      obtain ⟨-, -, haccepted, hquiet⟩ := enters_below hne hnot hstack henters
      refine ⟨serving_of_enters hne hnot hstack hstands henters, haccepted, fun hread => hquiet ?_⟩
      rintro rfl
      exact hread rfl
  · obtain ⟨hserving, haccepted, hquiet⟩ := h.continues hi hstands hcontinues
    exact ⟨hserving, haccepted, fun _ => hquiet⟩

/-- At most one frame is left, which is no call and makes none. -/
theorem serving_of_one (gs : List Frame) (hstands : Stands c) (hstack : c.stack = gs) (hone : gs.length ≤ 1)
    (hframes : ∀ g ∈ gs, (∀ call, g ≠ .call call) ∧ ∀ calls, g ≠ .reaction calls) : Serving c := by
  subst hstack
  refine ⟨hstands, fun calls hmem => absurd rfl ((hframes _ hmem).2 calls), fun call hhead => ?_, fun g hg _ => ?_,
    fun g hg => ?_⟩
  · exact absurd rfl ((hframes _ (List.mem_of_head? hhead)).1 call)
  · obtain ⟨g', hg'⟩ := List.length_eq_one_iff.1 (le_antisymm hone (List.length_pos_of_mem hg))
    rw [hg'] at hg ⊢
    rw [List.mem_singleton.1 hg]
  · have hlength := List.length_pos_of_mem hg
    rw [List.length_tail] at hlength
    omega

/-- A send from outside is carried out up to the first point where something comes in. -/
theorem Serving.sends {s : SendCall} {c₁ : Connection} (h : Serving c)
    (hbegin : Connection.step env c (.item (.call (.send s))) = some c₁)
    (hstep : Connection.step env c₁ .none = some c') :
    Serving c' ∧ c.stack = [] ∧ c' = scheduleSend s c ∧ accepted c'.log = accepted c.log ++ acceptedBy c (.send s) ∧
      .inputHandler ∉ c'.stack := by
  obtain ⟨hstack, -, henters⟩ := enters_of_step hbegin
  cases henters with
  | call call =>
    have hone : (c.push (.call (.send s))).stack = [.call (.send s)] := by rw [push, hstack]
    have hstands₁ := step_stands h.stands (overtakesNothing_of_alone h.alone _) (by simp) hbegin
    have hstands := step_stands hstands₁ (overtakesNothing_of_alone (by
      rintro g hg -
      rw [hone] at hg ⊢
      rw [List.mem_singleton.1 hg]) _) (by simp) hstep
    have hexec : c' = scheduleSend s c := (Option.some.inj hstep).symm
    subst hexec
    refine ⟨?_, hstack, rfl, ?_⟩
    · revert hstands
      refine scheduleSend_elim s c ?accepted ?rejected ?ignored
      case accepted =>
        intro _ hstands
        exact serving_of_one [.append s.bufs true c.groups s.cb] hstands (by simp [push, emit, hstack]) le_rfl
          (by simp)
      case rejected =>
        intro _ _ _ hstands
        exact serving_of_one [.runCallbacks .rejectedScheduleSend [c.groups]] hstands
          (by simp [push, emit, hstack]) le_rfl (by simp)
      case ignored => exact fun _ _ hstands => serving_of_one [] hstands hstack (Nat.zero_le _) (by simp)
    · refine scheduleSend_elim s c ?accepted ?rejected ?ignored
      case accepted =>
        intro henabled
        refine ⟨(accepted_append ..).trans ?_, by simp [push, emit, hstack]⟩
        simp [acceptedBy, henabled, accepted, Event.acceptedBytes]
      case rejected =>
        intro hdisabled _ _
        refine ⟨(accepted_append ..).trans ?_, by simp [push, emit, hstack]⟩
        simp [acceptedBy, hdisabled, accepted, Event.acceptedBytes]
      case ignored =>
        intro hdisabled _
        refine ⟨(accepted_append ..).trans ?_, by simp [emit, hstack]⟩
        simp [acceptedBy, hdisabled, accepted, Event.acceptedBytes]

/-- Reading is started from outside. -/
theorem Serving.starts {c₁ : Connection} (h : Serving c)
    (hbegin : Connection.step env c (.item (.call .startReading)) = some c₁)
    (hstep : Connection.step env c₁ .none = some c') : Serving c' ∧ c.stack = [] ∧ c' = startReading c := by
  obtain ⟨hstack, -, henters⟩ := enters_of_step hbegin
  cases henters with
  | call call =>
    have hstands₁ := step_stands h.stands (overtakesNothing_of_alone h.alone _) (by simp) hbegin
    have hfits : OvertakesNothing env (c.push (.call .startReading)) .none := fun _ _ => trivial
    have hstands := step_stands hstands₁ hfits (by simp) hstep
    have hexec : c' = startReading c := (Option.some.inj hstep).symm
    subst hexec
    refine ⟨serving_of_one [] hstands ?_ (Nat.zero_le _) (by simp), hstack, rfl⟩
    unfold startReading
    split <;> exact hstack

/-- What a connection that hands no input over and starts no reads comes to from another state. -/
structure GoesOn (c c' : Connection) : Prop where
  serving : Serving c'
  reads : outstandingReads c' ≤ 1
  accepted : accepted c'.log = accepted c.log
  quiet : .inputHandler ∉ c'.stack
  accepts : c'.scheduleForWriteIsEnabled = true → c.scheduleForWriteIsEnabled = true

theorem Serving.not_starting (h : Serving c) : c.stack.head? ≠ some (.call .startReading) := by
  intro hhead
  cases h.calling _ hhead

theorem Serving.goesOn {i : Input} (h : Serving c) (hreads : outstandingReads c ≤ 1) (hi : i.onlyEnds = true)
    (hout : i.onlyEndsOutside = true) (hread : i ≠ .item (.readDone none)) (hstep : Connection.step env c i = some c') :
    GoesOn c c' := by
  obtain ⟨hserving, haccepted, hquiet⟩ := h.step hi hout hstep
  refine ⟨hserving, step_reads hreads (fun hhead => absurd hhead h.not_starting) hstep, haccepted, hquiet hread,
    accepts_of_step hstep⟩

theorem GoesOn.step {c₁ : Connection} {i : Input} (h : GoesOn c c₁) (hi : i.onlyEnds = true)
    (hout : i.onlyEndsOutside = true) (hread : i ≠ .item (.readDone none))
    (hstep : Connection.step env c₁ i = some c') : GoesOn c c' := by
  have hnext := h.serving.goesOn h.reads hi hout hread hstep
  exact ⟨hnext.serving, hnext.reads, hnext.accepted.trans h.accepted, hnext.quiet, fun henabled =>
    h.accepts (hnext.accepts henabled)⟩

/-! ## A connection at rest -/

/-- Nothing is read, and no read is going to follow. -/
structure Rests (c : Connection) : Prop where
  disabled : c.readIsEnabled = false
  none : c.readsInFlight = 0

theorem shutdownImpl_rests (reason : ConnectionShutdownReason) (h : Rests c) : Rests (shutdownImpl env reason c) := by
  refine shutdownImpl_elim env reason c ?again ?first
  case again => exact fun _ => h
  case first =>
    rintro - c₁ (⟨-, rfl⟩ | ⟨-, rfl⟩)
    · split
      · exact ⟨rfl, h.none⟩
      · exact ⟨rfl, h.none⟩
    · split
      · exact ⟨h.disabled, h.none⟩
      · exact ⟨h.disabled, h.none⟩

theorem handleIoError_rests (ec : ErrorCode) (h : Rests c) : Rests (handleIoError env ec c) := by
  unfold handleIoError
  split
  · exact h
  · exact shutdownImpl_rests _ h

theorem afterWrite_rests (ec : Option ErrorCode) (h : Rests c) : Rests (afterWrite env ec c) := by
  cases ec with
  | none => exact ⟨h.disabled, h.none⟩
  | some ec => exact handleIoError_rests ec ⟨h.disabled, h.none⟩

/-- Nothing but the start of a read loop makes a connection read that rests. -/
theorem continues_rests {f : Frame} {i : Input} (hf : f ≠ .call .startReading) (h : Rests c)
    (hstep : Continues env c f i c') : Rests c' := by
  cases hstep with
  | call call =>
    cases call with
    | send s =>
      show Rests (scheduleSend s c)
      refine scheduleSend_elim s c ?accepted ?rejected ?ignored
      all_goals
        intros
        exact ⟨h.disabled, h.none⟩
    | shutdown => exact shutdownImpl_rests _ h
    | startReading => exact absurd rfl hf
    | stopReading => exact ⟨rfl, h.none⟩
  | append bufs be id cb =>
    refine append_elim env bufs be id cb c ?delivered ?ended ?noted ?queued ?direct ?buffered
    all_goals
      intros
      exact ⟨h.disabled, h.none⟩
  | aggressiveWrite buf bufs id cb r =>
    refine aggressiveWritten_elim env buf bufs id cb r c ?whole ?partly
    all_goals
      intros
      exact ⟨h.disabled, h.none⟩
  | initiateWrite =>
    refine initiateWrite_elim env c ?running ?nothing ?sync ?async
    all_goals
      intros
      exact ⟨h.disabled, h.none⟩
  | syncWrite r possible =>
    refine syncWritten_elim env possible ?completed ?blocked
    case completed => exact fun _ => afterWrite_rests r.ec ⟨h.disabled, h.none⟩
    case blocked => exact fun _ _ => ⟨h.disabled, h.none⟩
  | afterInput =>
    show Rests (Connection.afterInput c)
    rw [Connection.afterInput, if_neg (by simp [h.disabled])]
    exact h
  | _ => exact ⟨h.disabled, h.none⟩

theorem step_rests {i : Input} (hstart : c.stack.head? ≠ some (.call .startReading)) (h : Rests c)
    (hstep : step env c i = some c') : Rests c' := by
  rcases step_inversion hstep with ⟨item, rfl, -, -, henters⟩ | ⟨f, c₀, rfl, hcontinues⟩
  · cases henters with
    | call call => exact ⟨h.disabled, h.none⟩
    | asyncWriteDone bufs r => exact afterWrite_rests r.ec ⟨h.disabled, h.none⟩
    | readFailed ec inFlight => exact absurd h.none inFlight
    | read inFlight => exact absurd h.none inFlight
    | timedOut timeoutKey => exact shutdownImpl_rests _ h
    | late timeoutKey => exact h
    | destroy n =>
      unfold destroy handleRemainigWriteQueue
      cases c.asyncWrite <;> dsimp only <;> split <;> exact ⟨h.disabled, h.none⟩
  · have h₀ : Rests c₀ := ⟨h.disabled, h.none⟩
    exact continues_rests (fun heq => hstart (heq ▸ rfl)) h₀ hcontinues

/-- An input handler that first of all stops reading. -/
theorem handler_stops {cs : List Call} {c₁ c₂ : Connection} (hhead : c.stack.head? = some .inputHandler)
    (hcalls : step env c (.calls (.stopReading :: cs)) = some c₁) (hbegins : step env c₁ .none = some c₂)
    (hstops : step env c₂ .none = some c') : c'.readIsEnabled = false ∧ c'.readsInFlight = c.readsInFlight := by
  rcases step_inversion hcalls with ⟨item, heq, -⟩ | ⟨f, c₀, rfl, hcontinues⟩
  · cases heq
  obtain rfl : f = .inputHandler := Option.some.inj hhead
  cases hcontinues with
  | inputHandler cs' =>
    obtain rfl := Option.some.inj hbegins
    obtain rfl := Option.some.inj hstops
    exact ⟨rfl, rfl⟩

end Connection

end Opio.Net
