/-
What a session of the slow proxy keeps in all of its runs: bytes go through it in order, it has one read at a
time on each connection, and it reads no faster than it was told to.
-/
import Mathlib.Data.List.Chain
import Mathlib.Algebra.Order.Group.Int
import Opio.Net.SlowProxy

namespace Opio.Net

open scoped List

/-! ## The pace -/

/-- After each of a row of reads, at least as many microseconds go by as the bytes take. -/
def Paced (limitAfter : Int) (usecToWait : Nat → Nat) (reads : List (Int × Nat)) : Prop :=
  reads.IsChain fun (a b : Int × Nat) => limitAfter < a.1 → a.1 + usecToWait a.2 ≤ b.1

/-- A read, and the time until the next one. -/
theorem read_le {rate wait size : Nat} {t t' : Int} (hsize : size * 1000000 ≤ rate * (wait + 1))
    (hwait : t + wait ≤ t') : (size * 1000000 : Int) ≤ rate * (t' - t + 1) := by
  have hle : (rate : Int) * (wait + 1) ≤ rate * (t' - t + 1) :=
    Int.mul_le_mul_of_nonneg_left (by omega) (Int.natCast_nonneg rate)
  have hcast : (size * 1000000 : Int) ≤ rate * (wait + 1) := mod_cast hsize
  exact hcast.trans hle

/-- What is read in a row before a read, when `rate` bytes take a second and rounding loses less than a
microsecond for each of them. -/
theorem Paced.bytes_le {limitAfter : Int} {usecToWait : Nat → Nat} {rate : Nat} {b : Int × Nat} :
    ∀ {mid : List (Int × Nat)} {a : Int × Nat}, Paced limitAfter usecToWait (a :: (mid ++ [b])) → limitAfter < a.1 →
      (∀ r ∈ a :: mid, r.2 * 1000000 ≤ rate * (usecToWait r.2 + 1)) →
      ((((a :: mid).map Prod.snd).sum : Nat) * 1000000 : Int) ≤ rate * (b.1 - a.1 + (mid.length + 1))
  | [], a, hpaced, hlate, hwait => by
    have hnext := (List.isChain_cons_cons.1 hpaced).1 hlate
    have hone := read_le (hwait a (List.mem_cons_self ..)) hnext
    simpa using hone
  | r :: mid, a, hpaced, hlate, hwait => by
    obtain ⟨hnext, hrest⟩ := List.isChain_cons_cons.1 hpaced
    have hone := read_le (hwait a (List.mem_cons_self ..)) (hnext hlate)
    have hlate' : limitAfter < r.1 := by
      have := hnext hlate
      omega
    have hmore := Paced.bytes_le hrest hlate' fun r' hr' => hwait r' (List.mem_cons_of_mem _ hr')
    rw [List.map_cons, List.sum_cons, List.length_cons]
    simp only [Int.natCast_add, Int.natCast_one]
    have hsplit : (rate : Int) * (b.1 - a.1 + (mid.length + 1 + 1)) =
        rate * (r.1 - a.1 + 1) + rate * (b.1 - r.1 + (mid.length + 1)) := by
      rw [← Int.mul_add]
      exact congrArg _ (by omega)
    rw [hsplit, Int.add_mul]
    exact Int.add_le_add hone hmore

/-! ## The invariant -/

/-- Input that waits for its handler. -/
def ConnectionCtx.waiting (e : ConnectionCtx) : Bytes :=
  if .inputHandler ∈ e.con.stack then e.readBuffer else []

/-- One side of a session, whose connection was given `given` to send by the handler of the other side. -/
structure ConnectionCtx.Sound (env : ProxyEnv) (alive : Bool) (clock : Int) (given : Bytes) (e : ConnectionCtx) :
    Prop where
  serving : e.con.Serving
  reads : Connection.outstandingReads e.con ≤ 1
  input : .inputHandler ∈ e.con.stack → .afterInput ∈ e.con.stack
  /-- While the timer runs nothing is read. -/
  rests : e.nextRead.isSome → e.con.Rests ∧ .inputHandler ∉ e.con.stack
  relayed : e.relayed <+: e.read
  all : alive = true → e.relayed ++ e.waiting = e.read
  accepted : Net.accepted e.con.log <+: given
  sends : e.con.scheduleForWriteIsEnabled = true → Net.accepted e.con.log ++ e.sends.flatten = given
  fits : e.readBuffer.length ≤ env.readBufLen
  sizes : ∀ r ∈ e.handled, r.2 ≤ env.readBufLen
  counted : (e.handled.map Prod.snd).sum = e.relayed.length
  paced : Paced env.limitAfter env.usecToWait e.handled
  /-- The wait after the last read is over, or the timer is going to say so. -/
  due : ∀ r ∈ e.handled.getLast?, env.limitAfter < r.1 →
    (∃ expiry, e.nextRead = some expiry ∧ r.1 + env.usecToWait r.2 ≤ expiry) ∨ r.1 + env.usecToWait r.2 ≤ clock

namespace ConnectionCtx.Sound

variable {env : ProxyEnv} {alive alive' : Bool} {clock clock' : Int} {given : Bytes} {e e' : ConnectionCtx}
  {c c₁ c₂ : Connection}

/-- Time goes by, and the session may come to its end. -/
theorem mono (h : e.Sound env alive clock given) (halive : alive' = true → alive = true) (hclock : clock ≤ clock') :
    e.Sound env alive' clock' given :=
  { h with
    all := fun hlive => h.all (halive hlive)
    due := fun r hr hlate => (h.due r hr hlate).imp_right fun hle => hle.trans hclock }

/-- The handler of the other side sends a buffer. -/
theorem gives (h : e.Sound env alive clock given) (buf : Bytes) :
    { e with sends := e.sends ++ [buf] }.Sound env alive clock (given ++ buf) :=
  { h with
    accepted := h.accepted.trans (List.prefix_append ..)
    sends := fun henabled => by
      have hsends := h.sends henabled
      rw [List.flatten_append, ← List.append_assoc, hsends]
      simp }

theorem not_waiting (h : e.Sound env alive clock given) (hhead : e.con.stack.head? ≠ some .inputHandler) :
    .inputHandler ∉ e.con.stack := by
  intro hmem
  cases hstack : e.con.stack with
  | nil =>
    rw [hstack] at hmem
    cases hmem
  | cons f fs =>
    rw [hstack] at hmem hhead
    rcases List.mem_cons.1 hmem with rfl | hmem
    · exact hhead rfl
    · have hbelow := h.serving.below .inputHandler (by rw [hstack]; exact hmem)
      cases hbelow

/-- The connection goes on, with no input on its way before and after. -/
theorem goesOn (h : e.Sound env alive clock given) (hquiet : .inputHandler ∉ e.con.stack)
    (hc : Connection.GoesOn e.con c) (hrests : e.con.Rests → c.Rests) :
    { e with con := c }.Sound env alive clock given :=
  { h with
    serving := hc.serving
    reads := hc.reads
    input := fun hmem => absurd hmem hc.quiet
    rests := fun hwaits => ⟨hrests (h.rests hwaits).1, hc.quiet⟩
    all := fun hlive => by
      have hall := h.all hlive
      rw [ConnectionCtx.waiting, if_neg hquiet] at hall
      rw [ConnectionCtx.waiting, if_neg hc.quiet]
      exact hall
    accepted := hc.accepted ▸ h.accepted
    sends := fun henabled => hc.accepted ▸ h.sends (hc.accepts henabled) }

/-- The time of a read comes after the wait of the one before. -/
theorem paced_concat (h : e.Sound env alive clock given) (hidle : e.nextRead = none) {now : Int} (hnow : clock ≤ now)
    (size : Nat) : Paced env.limitAfter env.usecToWait (e.handled ++ [(now, size)]) := by
  refine List.isChain_append.2 ⟨h.paced, List.isChain_singleton _, fun r hr b hb hlate => ?_⟩
  obtain rfl : (now, size) = b := Option.some.inj hb
  rcases h.due r hr hlate with ⟨expiry, hwaits, -⟩ | hle
  · rw [hidle] at hwaits
    cases hwaits
  · exact hle.trans hnow

/-- While input waits for its handler the timer is not running. -/
theorem idle_of_input (h : e.Sound env alive clock given) (hhead : e.con.stack.head? = some .inputHandler) :
    e.nextRead = none := by
  by_contra hne
  exact (h.rests (Option.isSome_iff_ne_none.2 hne)).2 (List.mem_of_head? hhead)

/-- The bytes go from the connection to the other side. -/
theorem handled (h : e.Sound env true clock given) (hhead : e.con.stack.head? = some .inputHandler) {now later : Int}
    (hnow : clock ≤ now) (hlater : now ≤ later) {nextRead : Option Int} (hc : Connection.GoesOn e.con c)
    (hrests : nextRead.isSome → c.Rests)
    (hdue : env.limitAfter < now → nextRead = some (later + env.usecToWait e.readBuffer.length)) :
    { e with
      con := c
      nextRead
      relayed := e.relayed ++ e.readBuffer
      handled := e.handled ++ [(now, e.readBuffer.length)] }.Sound env true later given := by
  have hall : e.relayed ++ e.readBuffer = e.read := by
    have hall := h.all rfl
    rwa [ConnectionCtx.waiting, if_pos (List.mem_of_head? hhead)] at hall
  exact { h with
    serving := hc.serving
    reads := hc.reads
    input := fun hmem => absurd hmem hc.quiet
    rests := fun hwaits => ⟨hrests hwaits, hc.quiet⟩
    relayed := hall ▸ List.prefix_rfl
    all := fun _ => by
      rw [ConnectionCtx.waiting, if_neg hc.quiet, List.append_nil]
      exact hall
    accepted := hc.accepted ▸ h.accepted
    sends := fun henabled => hc.accepted ▸ h.sends (hc.accepts henabled)
    counted := by
      dsimp only
      rw [List.map_append, List.sum_append, h.counted, List.length_append]
      simp
    sizes := fun r hr => by
      rcases List.mem_append.1 hr with hr | hr
      · exact h.sizes r hr
      · rw [List.mem_singleton.1 hr]
        exact h.fits
    paced := h.paced_concat (h.idle_of_input hhead) hnow _
    due := fun r hr hlate => by
      obtain rfl : (now, e.readBuffer.length) = r := by simpa using hr
      exact .inl ⟨_, hdue hlate, by dsimp only; omega⟩ }

theorem handles (h : e.Sound env true clock given) (hhead : e.con.stack.head? = some .inputHandler) {now later : Int}
    (hnow : clock ≤ now) (hlater : now ≤ later)
    (hschedules : Session.Schedules env now later e.readBuffer.length e e') :
    { e' with
      relayed := e'.relayed ++ e.readBuffer
      handled := e'.handled ++ [(now, e.readBuffer.length)] }.Sound env true later given := by
  have hclosing : ∀ cs : List Call, (∀ call ∈ cs, call = .shutdown) → cs.all Call.isEnding = true := by
    intro cs hcs
    refine List.all_eq_true.2 fun call hcall => ?_
    rw [hcs call hcall]
    rfl
  cases hschedules with
  | unlimited cs c early closing goesOn =>
    have hc := h.serving.goesOn h.reads (i := .calls cs) (hclosing cs closing) rfl (by simp) goesOn
    refine h.handled hhead hnow hlater hc (fun hwaits => ?_) fun hlate => absurd early (Int.not_le.2 hlate)
    rw [h.idle_of_input hhead] at hwaits
    cases hwaits
  | waits cs c₁ c₂ c late closing calls begins stops =>
    have hc₁ := h.serving.goesOn h.reads (i := .calls (.stopReading :: cs)) (hclosing cs closing) rfl (by simp) calls
    have hc := (hc₁.step rfl rfl (by simp) begins).step rfl rfl (by simp) stops
    refine h.handled hhead hnow hlater hc (fun _ => ?_) fun _ => rfl
    -- the read that brought the input was the only one
    obtain ⟨hdisabled, hflight⟩ := Connection.handler_stops hhead calls begins stops
    refine ⟨hdisabled, ?_⟩
    have hpos := List.count_pos_iff.2 (h.input (List.mem_of_head? hhead))
    have hreads := h.reads
    unfold Connection.outstandingReads at hreads
    show c.readsInFlight = 0
    omega

/-- A session that is gone does nothing with its input. -/
theorem ignores (h : e.Sound env false clock given) {now : Int} (hnow : clock ≤ now) (hidle : e.nextRead = none)
    (goesOn : Connection.step env.connection e.con (.calls []) = some c) :
    { e with con := c }.Sound env false now given := by
  have hc := h.serving.goesOn h.reads rfl rfl (by simp) goesOn
  have hnext := h.mono id hnow
  exact { hnext with
    serving := hc.serving
    reads := hc.reads
    input := fun hmem => absurd hmem hc.quiet
    rests := fun hwaits => by
      change e.nextRead.isSome at hwaits
      rw [hidle] at hwaits
      cases hwaits
    all := fun hlive => Bool.noConfusion hlive
    accepted := hc.accepted ▸ h.accepted
    sends := fun henabled => hc.accepted ▸ h.sends (hc.accepts henabled) }

/-- The next buffer is given to the connection, which takes it while it accepts any. -/
theorem sendsNext (h : e.Sound env alive clock given) {buf : Bytes} {sends : List Bytes}
    (hnext : e.sends = buf :: sends)
    (begins : Connection.step env.connection e.con (.item (.call (.send { bufs := [buf] }))) = some c₁)
    (goesOn : Connection.step env.connection c₁ .none = some c) :
    { e with con := c, sends }.Sound env alive clock given := by
  obtain ⟨hserving, hstack, hexec, haccepted, hquiet⟩ := h.serving.sends begins goesOn
  have hold : .inputHandler ∉ e.con.stack := by
    rw [hstack]
    exact List.not_mem_nil
  have hsends : e.con.scheduleForWriteIsEnabled = true → Net.accepted c.log ++ sends.flatten = given := by
    intro henabled
    have hsends := h.sends henabled
    rw [hnext, List.flatten_cons, ← List.append_assoc] at hsends
    rw [haccepted, Connection.acceptedBy, if_pos henabled]
    simpa using hsends
  exact { h with
    serving := hserving
    reads := by
      rw [hexec, Connection.outstandingReads_scheduleSend]
      exact h.reads
    input := fun hmem => absurd hmem hquiet
    rests := fun hwaits => by
      refine ⟨?_, hquiet⟩
      rw [hexec]
      have hcalls : Connection.Continues env.connection e.con (.call (.send { bufs := [buf] })) .none
          (Connection.scheduleSend { bufs := [buf] } e.con) := .call _
      exact Connection.continues_rests (by simp) (h.rests hwaits).1 hcalls
    all := fun hlive => by
      have hall := h.all hlive
      rw [ConnectionCtx.waiting, if_neg hold] at hall
      rw [ConnectionCtx.waiting, if_neg hquiet]
      exact hall
    accepted := by
      by_cases henabled : e.con.scheduleForWriteIsEnabled = true
      · exact ⟨_, hsends henabled⟩
      · rw [haccepted, Connection.acceptedBy, if_neg henabled, List.append_nil]
        exact h.accepted
    sends := fun henabled =>
      hsends (Connection.accepts_of_step begins (Connection.accepts_of_step goesOn henabled)) }

/-- A read is done, and its input waits for the handler. -/
theorem readsNext (h : e.Sound env alive clock given) {bs : Bytes} (hfits : bs.length ≤ env.readBufLen)
    (done : Connection.step env.connection e.con (.item (.readDone none)) = some c) :
    { e with con := c, readBuffer := bs, read := e.read ++ bs }.Sound env alive clock given := by
  obtain ⟨hserving, haccepted, -⟩ := h.serving.step rfl rfl done
  have hreads := Connection.step_reads h.reads (fun hhead => absurd hhead h.serving.not_starting) done
  obtain ⟨hstack, -, henters⟩ := Connection.enters_of_step done
  cases henters with
  | read inFlight =>
    have hwaits : e.nextRead.isSome → False := fun hwaits => inFlight (h.rests hwaits).1.none
    have hmem : .inputHandler ∈ (({ e.con with readsInFlight := e.con.readsInFlight - 1 } : Connection).push
        .afterInput |>.push .inputHandler).stack := List.mem_cons_self ..
    exact { h with
      serving := hserving
      reads := hreads
      input := fun _ => List.mem_cons_of_mem _ (List.mem_cons_self ..)
      rests := fun hsome => (hwaits hsome).elim
      relayed := h.relayed.trans (List.prefix_append ..)
      all := fun hlive => by
        have hall := h.all hlive
        rw [ConnectionCtx.waiting, hstack, if_neg List.not_mem_nil, List.append_nil] at hall
        rw [ConnectionCtx.waiting, if_pos hmem]
        exact congrArg (· ++ bs) hall
      fits := hfits }

/-- The wait is over. -/
theorem expires (h : e.Sound env alive clock given) {now expiry : Int} (hwaiting : e.nextRead = some expiry)
    (hover : expiry ≤ now) (hnow : clock ≤ now) : { e with nextRead := none }.Sound env alive now given :=
  { h with
    rests := fun hwaits => Bool.noConfusion hwaits
    due := fun r hr hlate => .inr <| by
      rcases h.due r hr hlate with ⟨expiry', hwaits, hle⟩ | hle
      · rw [hwaiting] at hwaits
        exact hle.trans (Option.some.inj hwaits ▸ hover)
      · exact hle.trans hnow }

/-- Reading goes on. -/
theorem starts (h : e.Sound env alive clock given) {now expiry : Int} (hwaiting : e.nextRead = some expiry)
    (hover : expiry ≤ now) (hnow : clock ≤ now)
    (begins : Connection.step env.connection e.con (.item (.call .startReading)) = some c₁)
    (goesOn : Connection.step env.connection c₁ .none = some c) :
    { e with con := c, nextRead := none }.Sound env alive now given := by
  obtain ⟨hserving, hstack, rfl⟩ := h.serving.starts begins goesOn
  have hrests := (h.rests (by rw [hwaiting]; rfl)).1
  have hstart : Connection.startReading e.con =
      { e.con with readIsEnabled := true, readsInFlight := e.con.readsInFlight + 1 } := by
    rw [Connection.startReading, if_neg (by simp [hrests.disabled])]
    rfl
  rw [hstart] at hserving ⊢
  have hnext := h.expires hwaiting hover hnow
  exact { hnext with
    serving := hserving
    rests := fun hwaits => Bool.noConfusion hwaits
    reads := by
      unfold Connection.outstandingReads
      dsimp only
      rw [hstack, hrests.none]
      exact le_rfl }

end ConnectionCtx.Sound

/-! ## Runs -/

namespace Session

variable {env : ProxyEnv} {s s' : Session}

/-- Both sides are, each with what the other one has given it. -/
def Sound (env : ProxyEnv) (s : Session) : Prop :=
  ∀ x, (s.ctx x).Sound env s.alive s.clock (s.ctx x.other).relayed

theorem other_ne (x : Side) : x.other ≠ x := by cases x <;> simp [Side.other]

@[simp] theorem other_other (x : Side) : x.other.other = x := by cases x <;> rfl

theorem eq_other {x y : Side} (h : y ≠ x) : y = x.other := by
  cases x <;> cases y <;> first | rfl | exact absurd rfl h

theorem sound_init (env : ProxyEnv) (now : Int) : (init now).Sound env := by
  intro x
  have hbegin : Connection.step env.connection {} (.item (.call .startReading)) =
      some ({ stack := [.call .startReading] } : Connection) := rfl
  have hserving : Connection.Serving (Connection.startReading {}) :=
    (Connection.serving_init.starts hbegin rfl).1
  exact {
    serving := hserving
    reads := by
      show Connection.outstandingReads (Connection.startReading {}) ≤ 1
      decide
    input := by simp [init, Connection.startReading, Connection.initiateRead]
    rests := fun hwaits => Bool.noConfusion hwaits
    relayed := List.prefix_rfl
    all := fun _ => by
      rw [ConnectionCtx.waiting, if_neg]
      · rfl
      · simp [init, Connection.startReading, Connection.initiateRead]
    accepted := List.prefix_rfl
    sends := fun _ => rfl
    fits := Nat.zero_le _
    sizes := by simp [init]
    counted := rfl
    paced := List.isChain_nil
    due := by simp [init] }

/-- One side changes, and what it has given to the other one does not. -/
theorem Sound.set {x : Side} {e : ConnectionCtx} {clock : Int} (h : s.Sound env) (hclock : s.clock ≤ clock)
    (hrelayed : e.relayed = (s.ctx x).relayed)
    (he : e.Sound env s.alive clock (s.ctx x.other).relayed) : Sound env { s.set x e with clock } := by
  intro y
  show (Function.update s.ctx x e y).Sound env s.alive clock (Function.update s.ctx x e y.other).relayed
  by_cases hy : y = x
  · subst hy
    rw [Function.update_self, Function.update_of_ne (other_ne y)]
    exact he
  · obtain rfl := eq_other hy
    rw [Function.update_of_ne hy, other_other, Function.update_self, hrelayed]
    have hother := (h x.other).mono id hclock
    rwa [other_other] at hother

/-! ### One side hands a buffer to the other one -/

theorem relay_ctx_self (s : Session) (x : Side) (now later : Int) (e : ConnectionCtx) :
    (s.relay x now later e).ctx x = { e with
      relayed := e.relayed ++ (s.ctx x).readBuffer
      handled := e.handled ++ [(now, (s.ctx x).readBuffer.length)] } :=
  (Function.update_of_ne (other_ne x).symm ..).trans (Function.update_self ..)

theorem relay_ctx_other (s : Session) (x : Side) (now later : Int) (e : ConnectionCtx) :
    (s.relay x now later e).ctx x.other = { s.ctx x.other with
      sends := (s.ctx x.other).sends ++ [(s.ctx x).readBuffer] } :=
  Function.update_self ..

theorem Sound.relay {x : Side} {now later : Int} {e : ConnectionCtx} (h : s.Sound env) (hlater : s.clock ≤ later)
    (hrelayed : e.relayed = (s.ctx x).relayed)
    (he : { e with
      relayed := e.relayed ++ (s.ctx x).readBuffer
      handled := e.handled ++ [(now, (s.ctx x).readBuffer.length)] }.Sound env s.alive later
        (s.ctx x.other).relayed) : Sound env (s.relay x now later e) := by
  intro y
  by_cases hy : y = x
  · subst hy
    rw [relay_ctx_self, relay_ctx_other]
    exact he
  · obtain rfl := eq_other hy
    rw [relay_ctx_other, other_other, relay_ctx_self, hrelayed]
    have hother := ((h x.other).mono id hlater).gives (s.ctx x).readBuffer
    rwa [other_other] at hother

/-! ### Steps -/

theorem onlyEnds_of_isRelayed {i : Connection.Input} (h : i.isRelayed = true) :
    i.onlyEnds = true ∧ i.onlyEndsOutside = true ∧ i ≠ .item (.readDone none) := by
  cases i with
  | item item =>
    cases item with
    | call call => cases h
    | destroy n => cases h
    | readDone ec =>
      cases ec with
      | none => cases h
      | some ec => exact ⟨rfl, rfl, by simp⟩
    | _ => exact ⟨rfl, rfl, by simp⟩
  | calls cs =>
    refine ⟨List.all_eq_true.2 fun call hcall => ?_, rfl, by simp⟩
    have heq := List.all_eq_true.1 h call hcall
    rw [eq_of_beq heq]
    rfl
  | _ => exact ⟨rfl, rfl, by simp⟩

/-- The connection of a side goes on by itself. -/
theorem Sound.goesOn {x : Side} {i : Connection.Input} {c : Connection} (h : s.Sound env) (hi : i.onlyEnds = true)
    (hout : i.onlyEndsOutside = true) (hread : i ≠ .item (.readDone none))
    (hquiet : .inputHandler ∉ (s.ctx x).con.stack)
    (hstep : Connection.step env.connection (s.ctx x).con i = some c) :
    Sound env (s.set x { s.ctx x with con := c }) :=
  h.set (le_refl s.clock) rfl <|
    (h x).goesOn hquiet ((h x).serving.goesOn (h x).reads hi hout hread hstep) fun hrests =>
      Connection.step_rests (h x).serving.not_starting hrests hstep

theorem Moves.sound {a : SessionAction} (h : s.Sound env) (hmoves : Moves env s a s') : s'.Sound env := by
  cases hmoves with
  | handles x now later closes e alive head clock goes schedules =>
    have hx := h x
    rw [alive] at hx
    have hrelayed : e.relayed = (s.ctx x).relayed := by cases schedules <;> rfl
    refine h.relay (clock.trans goes) hrelayed ?_
    rw [alive]
    exact hx.handles head clock goes schedules
  | ignores x now later closes c gone head clock goes goesOn =>
    have hx := h x
    rw [gone] at hx
    refine h.set (clock.trans goes) rfl ?_
    rw [gone]
    exact hx.ignores (clock.trans goes) (hx.idle_of_input head) goesOn
  | sends x buf sends c₁ c next begins goesOn =>
    exact h.set (le_refl s.clock) rfl ((h x).sendsNext next begins goesOn)
  | connection x i c inner head goesOn =>
    obtain ⟨hi, hout, hread⟩ := onlyEnds_of_isRelayed inner
    exact h.goesOn hi hout hread ((h x).not_waiting head) goesOn
  | reads x bs c fits done =>
    exact h.set (le_refl s.clock) rfl ((h x).readsNext fits done)
  | elapses x now expiry c₁ c waiting expired clock begins goesOn =>
    exact h.set clock rfl ((h x).starts waiting expired clock begins goesOn)
  | elapsesLate x now expiry waiting expired clock =>
    exact h.set clock rfl ((h x).expires waiting expired clock)
  | closes x c begins =>
    obtain ⟨hstack, -, -⟩ := Connection.enters_of_step begins
    refine h.goesOn (i := .item (.call .shutdown)) rfl rfl (by simp) ?_ begins
    rw [hstack]
    exact List.not_mem_nil
  | ends => exact fun x => (h x).mono (fun hlive => Bool.noConfusion hlive) le_rfl

theorem sound_run {now : Int} {as : List SessionAction} (hrun : execute (step env) (init now) as = some s) :
    s.Sound env :=
  execute_history (I := fun _ s => s.Sound env) (sound_init env now)
    (fun _ _ _ _ _ h hstep => (moves_of_step hstep).sound h) hrun

/-! ## What goes through -/

/-- What the socket of one side took of what was read on the other one, and how that one is read. -/
structure Relays (s : Session) (x : Side) : Prop where
  front : taken (s.ctx x.other).con.log <+: (s.ctx x).read
  /-- Nothing is lost on a connection that can still be written to. -/
  all : s.alive = true → (s.ctx x.other).con.scheduleForWriteIsEnabled = true →
    .inputHandler ∉ (s.ctx x).con.stack → (s.ctx x.other).sends = [] →
      Net.accepted (s.ctx x.other).con.log = (s.ctx x).read ∧
        ((s.ctx x.other).con.stack = [] → (s.ctx x.other).con.isWriteOperationRunning = false →
          taken (s.ctx x.other).con.log = (s.ctx x).read)
  oneRead : (s.ctx x).con.readsInFlight ≤ 1
  /-- Until a read is handled, and while the timer runs, there is no other one. -/
  noRead : .inputHandler ∈ (s.ctx x).con.stack ∨ (s.ctx x).nextRead.isSome → (s.ctx x).con.readsInFlight = 0

theorem bytes_are_relayed (env : ProxyEnv) (now : Int) (as : List SessionAction) (s : Session)
    (hrun : execute (step env) (init now) as = some s) (x : Side) : Relays s x := by
  have h := sound_run hrun x
  have hother := sound_run hrun x.other
  rw [other_other] at hother
  have hreads := h.reads
  unfold Connection.outstandingReads at hreads
  refine ⟨?front, fun halive henabled hquiet hsends => ?all, by omega, ?noRead⟩
  case front =>
    exact (hother.serving.stands.intact.order.trans hother.accepted).trans h.relayed
  case all =>
    have hall := h.all halive
    rw [ConnectionCtx.waiting, if_neg hquiet, List.append_nil] at hall
    have hgiven := hother.sends henabled
    rw [hsends, List.flatten_nil, List.append_nil, hall] at hgiven
    refine ⟨hgiven, fun hstack hidle => hgiven ▸ hother.serving.stands.whole hstack hidle ?_⟩
    exact hother.serving.stands.notFailed hidle henabled
  case noRead =>
    rintro (hinput | hwaits)
    · have hpos := List.count_pos_iff.2 (h.input hinput)
      omega
    · exact (h.rests hwaits).1.none

/-- Two bytes go from the client to the server. -/
theorem bytes_are_relayed_two : ∃ env as s, execute (step env) (init 0) as = some s ∧
    Relays s .client ∧ taken (s.ctx .server).con.log = [1, 2] ∧ (s.ctx .client).nextRead = some 1964 := by
  obtain ⟨s, hs, htaken, hwaits⟩ := exists_execute
    (step ⟨⟨64, 64, by decide, true, false⟩, 1, by decide, by decide, 0⟩) (init 0)
    [.reads .client [1, 2], .handles .client 10 11 0, .connection .client .none, .connection .client .none,
      .sends .server, .connection .server .none, .connection .server (.result ⟨none, 2⟩), .connection .server .none]
    (fun s => taken (s.ctx .server).con.log = [1, 2] ∧ (s.ctx .client).nextRead = some 1964) (by decide +kernel)
  exact ⟨_, _, s, hs, bytes_are_relayed _ 0 _ s hs .client, htaken, hwaits⟩

/-! ## How fast -/

theorem le_usecToWait (env : ProxyEnv) {size : Nat} (hsize : size * 1000000 < 2 ^ 32) :
    size * 1000000 ≤ env.kbPerSec * 1024 * (env.usecToWait size + 1) := by
  have hrate : env.kbPerSec * 1024 % 2 ^ 32 = env.kbPerSec * 1024 := by
    have hle := env.kbPerSec_le
    omega
  have hpos : 0 < env.kbPerSec * 1024 := by
    have hle := env.one_le_kbPerSec
    omega
  have hwait : env.usecToWait size = size * 1000000 / (env.kbPerSec * 1024) := by
    rw [ProxyEnv.usecToWait, hrate, Nat.mul_assoc, Nat.mod_eq_of_lt hsize]
  rw [hwait]
  exact (Nat.lt_mul_div_succ _ hpos).le

/-- How fast the bytes of one side are read. -/
structure Limits (env : ProxyEnv) (e : ConnectionCtx) : Prop where
  counted : (e.handled.map Prod.snd).sum = e.relayed.length
  paced : Paced env.limitAfter env.usecToWait e.handled
  /-- What is read in a row takes as long as it does at the rate. Rounding loses less than a microsecond for a
  read, and from 68 kilobytes a second on a product goes beyond 32 bits. -/
  rate : env.kbPerSec ≤ 67 → ∀ a mid b, a :: (mid ++ [b]) <:+: e.handled → env.limitAfter < a.1 →
    ((((a :: mid).map Prod.snd).sum : Nat) * 1000000 : Int) ≤
      (env.kbPerSec * 1024 : Nat) * (b.1 - a.1 + (mid.length + 1))

theorem rate_is_kept (env : ProxyEnv) (now : Int) (as : List SessionAction) (s : Session)
    (hrun : execute (step env) (init now) as = some s) (x : Side) : Limits env (s.ctx x) := by
  have h := sound_run hrun x
  refine ⟨h.counted, h.paced, fun hslow a mid b hrow hlate => ?_⟩
  refine Paced.bytes_le ( List.IsChain.infix h.paced hrow) hlate fun r hr => le_usecToWait env ?_
  have hmem : r ∈ a :: (mid ++ [b]) := by
    rw [← List.cons_append]
    exact List.mem_append_left _ hr
  have hsize := h.sizes r (hrow.subset hmem)
  unfold ProxyEnv.readBufLen at hsize
  omega

/-- The server is read again as soon as the wait for the first two bytes is over. -/
theorem rate_is_kept_again : ∃ env as s, execute (step env) (init 0) as = some s ∧
    Limits env (s.ctx .server) ∧ (s.ctx .server).handled = [(10, 2), (1964, 1)] := by
  obtain ⟨s, hs, hhandled⟩ := exists_execute
    (step ⟨⟨64, 64, by decide, true, false⟩, 1, by decide, by decide, 0⟩) (init 0)
    [.reads .server [1, 2], .handles .server 10 11 0, .connection .server .none, .connection .server .none,
      .elapses .server 1964, .reads .server [3], .handles .server 1964 1964 1]
    (fun s => (s.ctx .server).handled = [(10, 2), (1964, 1)]) (by decide +kernel)
  exact ⟨_, _, s, hs, rate_is_kept _ 0 _ s hs .server, hhandled⟩

/-- A full buffer takes its sixteenth of a second at this rate, and nearly nothing at the next. -/
example : (⟨⟨64, 64, by decide, true, false⟩, 67, by decide, by decide, 0⟩ : ProxyEnv).usecToWait 4288 = 62500 ∧
    (⟨⟨64, 64, by decide, true, false⟩, 68, by decide, by decide, 0⟩ : ProxyEnv).usecToWait 4352 = 819 := by decide

end Session

end Opio.Net
