/-
The input loop against the decoder: chunk by chunk an active entry shows the events of the
packages its bytes hold, and keeps what is left of them. So the events do not depend on where
the bytes are cut.
-/
import Opio.ProtoEntry.Decoder
import Opio.ProtoEntry.EventLog

namespace Opio.ProtoEntry

open Incremental

variable {μ : Type}

/-! ## Events up to the first shutdown -/

/-- A message is delivered, something is sent, or the entry shuts down. -/
def Event.isObserved : Event μ → Bool
  | .message _ _ _ _ => true
  | .scheduleSend _ => true
  | .terminate _ => true
  | _ => false

def Event.isShutdown : Event μ → Bool
  | .terminate _ => true
  | _ => false

def upToShutdown : List (Event μ) → List (Event μ)
  | [] => []
  | ev :: evs => if ev.isShutdown then [ev] else ev :: upToShutdown evs

/-- The messages, the sends and the first shutdown among the events. -/
def observed (evs : List (Event μ)) : List (Event μ) := upToShutdown (evs.filter Event.isObserved)

theorem upToShutdown_append {evs : List (Event μ)} (h : ∀ ev ∈ evs, ev.isShutdown = false) (evs' : List (Event μ)) :
    upToShutdown (evs ++ evs') = evs ++ upToShutdown evs' := by
  induction evs with
  | nil => rfl
  | cons ev evs ih =>
    rw [List.cons_append, upToShutdown, if_neg (by simp [h ev (List.mem_cons_self ..)]),
      ih fun ev' hev' => h ev' (List.mem_cons_of_mem _ hev'), List.cons_append]

theorem upToShutdown_eq_self {evs : List (Event μ)} (h : ∀ ev ∈ evs, ev.isShutdown = false) :
    upToShutdown evs = evs := by
  simpa [upToShutdown] using upToShutdown_append h []

theorem upToShutdown_append_of_mem {evs : List (Event μ)} (h : ∃ ev ∈ evs, ev.isShutdown = true)
    (evs' : List (Event μ)) : upToShutdown (evs ++ evs') = upToShutdown evs := by
  induction evs with
  | nil =>
    obtain ⟨ev, hev, -⟩ := h
    cases hev
  | cons ev evs ih =>
    rw [List.cons_append, upToShutdown, upToShutdown]
    by_cases hev : ev.isShutdown = true
    · rw [if_pos hev, if_pos hev]
    · rw [if_neg hev, if_neg hev, ih]
      obtain ⟨ev', hmem, hshutdown⟩ := h
      rcases List.mem_cons.1 hmem with rfl | hmem
      · exact absurd hshutdown hev
      · exact ⟨ev', hmem, hshutdown⟩

theorem Event.isObserved_of_isShutdown {ev : Event μ} (h : ev.isShutdown = true) : ev.isObserved = true := by
  cases ev <;> first | rfl | cases h

theorem observed_append {evs : List (Event μ)} (h : ∀ ev ∈ evs.filter Event.isObserved, ev.isShutdown = false)
    (evs' : List (Event μ)) : observed (evs ++ evs') = evs.filter Event.isObserved ++ observed evs' := by
  rw [observed, List.filter_append, upToShutdown_append h, observed]

theorem observed_append_of_mem {evs : List (Event μ)} (h : ∃ ev ∈ evs, ev.isShutdown = true) (evs' : List (Event μ)) :
    observed (evs ++ evs') = observed evs := by
  obtain ⟨ev, hev, hshutdown⟩ := h
  rw [observed, List.filter_append, upToShutdown_append_of_mem, observed]
  exact ⟨ev, List.mem_filter.2 ⟨hev, Event.isObserved_of_isShutdown hshutdown⟩, hshutdown⟩

namespace Entry

variable {env : EntryEnv μ} {e e' : Entry μ}

/-! ## What an entry shows -/

/-- After these events the entry came to wait for more behind `rest`, with `evs` on the way. -/
structure Waits (before : List (Event μ)) (e : Entry μ) (evs : List (Event μ)) (rest : Bytes) : Prop where
  active : e.connectionIsActive = true
  ready : Ready e.pkgInput
  contents : e.pkgInput.contents = rest
  events : ∃ new, e.events = before ++ new ∧ new.filter Event.isObserved = evs
  noShutdown : ∀ ev ∈ evs, ev.isShutdown = false

/-- After these events the entry came to shut down, with `evs` up to the shutdown. -/
def GaveUp (before : List (Event μ)) (e : Entry μ) (evs : List (Event μ)) : Prop :=
  ∃ new, e.events = before ++ new ∧ observed new = evs ∧ ∃ ev ∈ new, ev.isShutdown = true

/-- The entry stands where the decoder does. -/
def Shows (before : List (Event μ)) (e : Entry μ) (st : List (Event μ) × Option Bytes) : Prop :=
  match st.2 with
  | some rest => Waits before e st.1 rest
  | none => GaveUp before e st.1

variable {before : List (Event μ)}

theorem GaveUp.grows {evs : List (Event μ)} (h : GaveUp before e evs) (hg : e.events <+: e'.events) :
    GaveUp before e' evs := by
  obtain ⟨new, hnew, hobs, ev, hev, hshutdown⟩ := h
  obtain ⟨more, hmore⟩ := hg
  refine ⟨new ++ more, by rw [← hmore, hnew, List.append_assoc], ?_, ev, List.mem_append_left _ hev, hshutdown⟩
  rw [observed_append_of_mem ⟨ev, hev, hshutdown⟩, hobs]

theorem Waits.trans {evs evs' : List (Event μ)} {rest rest' : Bytes} (h : Waits before e evs rest)
    (h' : Waits e.events e' evs' rest') : Waits before e' (evs ++ evs') rest' := by
  obtain ⟨new, hnew, rfl⟩ := h.events
  obtain ⟨new', hnew', rfl⟩ := h'.events
  refine ⟨h'.active, h'.ready, h'.contents, ⟨new ++ new', ?_, List.filter_append ..⟩, fun ev hev => ?_⟩
  · rw [hnew', hnew, List.append_assoc]
  · exact (List.mem_append.1 hev).elim (h.noShutdown ev) (h'.noShutdown ev)

theorem Waits.gaveUp {evs evs' : List (Event μ)} {rest : Bytes} (h : Waits before e evs rest)
    (h' : GaveUp e.events e' evs') : GaveUp before e' (evs ++ evs') := by
  obtain ⟨new, hnew, rfl⟩ := h.events
  obtain ⟨new', hnew', rfl, ev, hev, hshutdown⟩ := h'
  refine ⟨new ++ new', by rw [hnew', hnew, List.append_assoc], ?_, ev, List.mem_append_right _ hev, hshutdown⟩
  exact observed_append h.noShutdown new'

theorem Waits.shows {evs : List (Event μ)} {st : List (Event μ) × Option Bytes} {rest : Bytes}
    (h : Waits before e evs rest) (h' : Shows e.events e' st) : Shows before e' (evs ++ st.1, st.2) := by
  obtain ⟨evs', _ | rest'⟩ := st
  · exact h.gaveUp h'
  · exact h.trans h'

theorem Shows.observed_eq {st : List (Event μ) × Option Bytes} (h : Shows before e st) :
    observed (e.events.drop before.length) = st.1 := by
  obtain ⟨evs, _ | rest⟩ := st
  · obtain ⟨new, hnew, hobs, -⟩ := h
    rw [hnew, List.drop_left]
    exact hobs
  · have hwaits : Waits before e evs rest := h
    obtain ⟨new, hnew, hobs⟩ := hwaits.events
    rw [hnew, List.drop_left, observed, hobs]
    exact upToShutdown_eq_self hwaits.noShutdown

/-- What an entry shows is its input, its events and whether it is active. -/
theorem Shows.of_eq {st : List (Event μ) × Option Bytes} (h : Shows before e st) (hinput : e'.pkgInput = e.pkgInput)
    (hactive : e'.connectionIsActive = e.connectionIsActive) (hevents : e'.events = e.events) :
    Shows before e' st := by
  obtain ⟨evs, _ | rest⟩ := st
  · exact GaveUp.grows (e := e) h ⟨[], by rw [List.append_nil, hevents]⟩
  · have hwaits : Waits before e evs rest := h
    refine ⟨hactive.trans hwaits.active, ?_, ?_, ?_, hwaits.noShutdown⟩
    · rw [hinput]
      exact hwaits.ready
    · rw [hinput]
      exact hwaits.contents
    · rw [hevents]
      exact hwaits.events

/-! ## One package -/

section Run

variable {parsers : Decoder.Parsers μ} (hparse : ParsesAs env parsers) (hconsumer : ∀ evs, env.onMessage evs = none)
include hconsumer

/-- What `handle_single_package` comes to, by the head of the bytes it finds. -/
def HeadShown (e : Entry μ) (contents : Bytes) : Head (Event μ) → PackageHandlingResult → Entry μ → Prop
  | .more, r, e' => r = .needsMoreInputData ∧ Waits e.events e' [] contents
  | .item evs n, r, e' => r = .fullyConsumed ∧ Waits e.events e' evs (contents.drop n)
  | .stop evs, r, e' => r = .invalidPackage ∧ GaveUp e.events e' evs

omit hconsumer in
theorem considered_events (e : Entry μ) : ∃ new, e.considered.events = e.events ++ new ∧
    new.filter Event.isObserved = [] := by
  unfold considered
  split
  · exact ⟨_, rfl, rfl⟩
  · exact ⟨[], (List.append_nil _).symm, rfl⟩

omit hconsumer in
theorem considered_active (e : Entry μ) : e.considered.connectionIsActive = e.connectionIsActive := by
  unfold considered
  split <;> rfl

omit hconsumer in
theorem invalidPackage_gaveUp (reason : EntryShutdownReason) {new : List (Event μ)}
    (hact : e.connectionIsActive = true) (hnew : e.events = before ++ new) (hobs : new.filter Event.isObserved = []) :
    Sat (invalidPackage env reason) e (fun r e' => r = .invalidPackage ∧ GaveUp before e' [.terminate { reason }])
      fun s e' => s.IsThrown ∧ GaveUp before e' [.terminate { reason }] := by
  have hgave : ∀ (e' : Entry μ) (evs : List (Event μ)),
      e'.events = e.events ++ .connectionShutdown :: .terminate { reason } :: evs →
        GaveUp before e' [.terminate { reason }] := by
    intro e' evs h
    refine ⟨new ++ .connectionShutdown :: .terminate { reason } :: evs, by rw [h, hnew, List.append_assoc], ?_,
      .terminate { reason }, by simp, rfl⟩
    rw [observed_append (by rw [hobs]; simp), hobs]
    rfl
  refine Sat.bind ((shutdownAndTerminate_spec env { reason } hact).mono (fun _ _ h => h) ?_) ?_
  · rintro s e' ⟨hs, evs, -, h⟩
    exact ⟨hs, hgave e' evs h.events⟩
  · rintro _ e' ⟨-, -, evs, -, h⟩
    exact Sat.pure ⟨rfl, hgave e' _ h⟩

theorem consumeMessage_run (id : UInt16) (content : Bytes) (msg : μ) (attachedBinary : Bytes) (e : Entry μ) :
    (consumeMessage env id content msg attachedBinary).run e =
      .ok () { e with events := e.events ++ [.message id content msg attachedBinary] } := by
  rw [consumeMessage, run_bind_of_ok (x := emit _) (EStateM.run_modify ..), run_callUser, hconsumer]

include hparse

theorem handleSinglePackage_shows (h : Ready e.pkgInput) (hact : e.connectionIsActive = true)
    (hsmall : e.pkgInput.contents.length < 2 ^ 31) (hwf : Decoder.WellFormed e.pkgInput.contents) :
    Sat (handleSinglePackage env) e
      (HeadShown e e.pkgInput.contents (Decoder.head env.cfg.maxValidPackageSize parsers e.pkgInput.contents))
      fun s e' => s.IsThrown ∧ ∃ evs, Decoder.head env.cfg.maxValidPackageSize parsers e.pkgInput.contents = .stop evs ∧
        GaveUp e.events e' evs := by
  have hblocks : ∀ b ∈ e.pkgInput.blocks, b.length < 2 ^ 31 := fun b hb =>
    (List.sublist_flatten_of_mem hb).length_le.trans_lt hsmall
  obtain ⟨handler, hrun, hc⟩ := handleSinglePackage_spec env h (headerOk_of_wellFormed hblocks hwf)
  obtain ⟨new, hnew, hobs⟩ := considered_events e
  have hhead := toHead_verdict hparse hblocks hwf
  have hinput := considered_pkgInput e
  have hact' := (considered_active e).trans hact
  refine Sat.of_run_eq hrun ?_
  change _ = Decoder.head _ _ e.pkgInput.contents at hhead
  rw [← hhead]
  cases hv : verdict env e.pkgInput.blocks with
  | more =>
    rw [hv] at hc
    refine Sat.of_run_ok hc ⟨rfl, hact', hinput ▸ h, by rw [hinput], ⟨new, hnew, hobs⟩, by simp⟩
  | invalid reason =>
    rw [hv] at hc
    obtain ⟨q, -, hr⟩ := hc
    refine Sat.of_run_eq hr ((invalidPackage_gaveUp reason (e := { e.considered with pkgInput := q }) hact' hnew
      hobs).mono (fun _ _ h => h) ?_)
    rintro s e' ⟨hs, hgave⟩
    exact ⟨hs, _, rfl, hgave⟩
  | heartbeatRequest n =>
    rw [hv] at hc
    obtain ⟨q, hq, hd, hr⟩ := hc
    rw [hinput] at hd
    refine Sat.of_run_ok hr ⟨rfl, hact', hq, hd,
      ⟨new ++ [.scheduleSend (PkgHeader.make pkgContentHeartbeatReply).image], ?_, ?_⟩, by simp [Event.isShutdown]⟩
    · simp only [hact', if_true, hnew, List.append_assoc]
    · rw [List.filter_append, hobs]
      rfl
  | heartbeatReply n =>
    rw [hv] at hc
    obtain ⟨q, hq, hd, hr⟩ := hc
    rw [hinput] at hd
    exact Sat.of_run_ok hr ⟨rfl, hact', hq, hd, ⟨new, hnew, hobs⟩, by simp⟩
  | message id content msg attachedBinary n =>
    rw [hv] at hc
    obtain ⟨q, hq, hd, hr⟩ := hc
    rw [hinput] at hd
    rw [run_bind_of_ok (consumeMessage_run hconsumer ..)] at hr
    refine Sat.of_run_ok hr ⟨rfl, hact', hq, hd, ⟨new ++ [.message id content msg attachedBinary], ?_, ?_⟩,
      by simp [Event.isShutdown]⟩
    · simp only [hnew, List.append_assoc]
    · rw [List.filter_append, hobs]
      rfl

/-! ## The loop -/

theorem runInputStreamLoop_shows : ∀ (fuel : Nat) (e : Entry μ), Ready e.pkgInput → e.connectionIsActive = true →
    e.pkgInput.contents.length < 2 ^ 31 →
    AllGood (Decoder.head env.cfg.maxValidPackageSize parsers) Decoder.WellFormed e.pkgInput.contents →
    e.pkgInput.contents.length < fuel →
    let st := decodeAll (Decoder.head env.cfg.maxValidPackageSize parsers) e.pkgInput.contents
    Sat (runInputStreamLoop env fuel) e (fun _ e' => Shows e.events e' st)
      fun s e' => s.IsThrown ∧ st.2 = none ∧ Shows e.events e' st
  | 0, _, _, _, _, _, h => absurd h (Nat.not_lt_zero _)
  | fuel + 1, e, h, hact, hsmall, hgood, hfuel => by
    have hs := Decoder.stable_head env.cfg.maxValidPackageSize parsers
    have hstep := handleSinglePackage_shows hparse hconsumer h hact hsmall hgood.here
    intro st
    refine Sat.bind (hstep.mono (fun _ _ h => h) ?_) fun r e₁ h₁ => ?_
    · rintro s e' ⟨hthrown, evs, hhead, hgave⟩
      have hst : st = (evs, none) := decodeAll_stop hhead
      rw [hst]
      exact ⟨hthrown, rfl, hgave⟩
    · cases hhead : Decoder.head env.cfg.maxValidPackageSize parsers e.pkgInput.contents with
      | more =>
        rw [hhead] at h₁
        obtain ⟨rfl, hwaits⟩ := h₁
        refine Sat.pure ?_
        have hst : st = ([], some e.pkgInput.contents) := decodeAll_more hhead
        rw [hst]
        exact hwaits
      | stop evs =>
        rw [hhead] at h₁
        obtain ⟨rfl, hgave⟩ := h₁
        refine Sat.pure ?_
        have hst : st = (evs, none) := decodeAll_stop hhead
        rw [hst]
        exact hgave
      | item evs n =>
        -- a package was consumed, and the loop goes on with a shorter input
        rw [hhead] at h₁
        obtain ⟨rfl, hwaits⟩ := h₁
        obtain ⟨hpos, hle⟩ := hs.progress _ evs n hgood.here hhead
        have hlen : e₁.pkgInput.contents.length < e.pkgInput.contents.length := by
          rw [hwaits.contents, List.length_drop]
          omega
        have hnext := hgood.next hhead
        rw [← hwaits.contents] at hnext
        have ih := runInputStreamLoop_shows fuel e₁ hwaits.ready hwaits.active (hlen.trans hsmall) hnext (by omega)
        have hst : st = (evs ++ (decodeAll (Decoder.head env.cfg.maxValidPackageSize parsers) e₁.pkgInput.contents).1,
            (decodeAll (Decoder.head env.cfg.maxValidPackageSize parsers) e₁.pkgInput.contents).2) := by
          rw [hwaits.contents]
          exact decodeAll_item hs hgood hhead
        rw [hst]
        exact ih.mono (fun _ _ h => hwaits.shows h) fun _ _ h => ⟨h.1, h.2.1, hwaits.shows h.2.2⟩

/-! ## Chunks -/

theorem handleInput_shows (fuel : Nat) (now : Int) {buf : Bytes} (h : Ready e.pkgInput)
    (hact : e.connectionIsActive = true) (hsmall : (e.pkgInput.contents ++ buf).length < 2 ^ 31)
    (hgood : AllGood (Decoder.head env.cfg.maxValidPackageSize parsers) Decoder.WellFormed (e.pkgInput.contents ++ buf))
    (hfuel : (e.pkgInput.contents ++ buf).length < fuel) :
    let st := decodeAll (Decoder.head env.cfg.maxValidPackageSize parsers) (e.pkgInput.contents ++ buf)
    Sat (handleInput env fuel now buf) e (fun _ e' => Shows e.events e' st) fun s e' => s.IsThrown ∧
      Shows e.events e' st := by
  intro st
  obtain ⟨q, hq, hready, hcontents⟩ := append_ready h.inv h.notServed buf
  change q.contents = e.pkgInput.contents ++ buf at hcontents
  have hon : (onInput fun q => do return ((), ← q.append buf)).run e = .ok () { e with pkgInput := q } :=
    onInput_ok (by rw [hq]; rfl)
  have hloop := runInputStreamLoop_shows hparse hconsumer fuel { e with pkgInput := q } hready hact
    (by rw [hcontents]; exact hsmall) (by rw [hcontents]; exact hgood) (by rw [hcontents]; exact hfuel)
  dsimp only at hloop
  rw [hcontents] at hloop
  refine Sat.tryCatch (F := fun s e' => s.IsThrown ∧ st.2 = none ∧ Shows e.events e' st) ?_ ?_
  · refine Sat.of_run_eq (run_bind_of_ok hon) (hloop.bind fun _ e' h' => ?_)
    exact Sat.modify (h'.of_eq rfl rfl rfl)
  · rintro s e' ⟨⟨what, rfl⟩, hnone, h'⟩
    have hgave : GaveUp e.events e' st.1 := by rwa [Shows, hnone] at h'
    have hstays : ∀ e'', e'.events <+: e''.events → Shows e.events e'' st := by
      intro e'' hg
      rw [Shows, hnone]
      exact hgave.grows hg
    have hgrows := shutdownAndTerminate_grows env { reason := .exceptionHandlingInput, errMessage := what } e'
    unfold Sat
    cases hrun : (handleInputException env (.thrown what)).run e' with
    | ok _ e'' =>
      refine hstays e'' ?_
      rwa [show (shutdownAndTerminate env _).run e' = _ from hrun] at hgrows
    | error s e'' =>
      refine ⟨((shutdownAndTerminate_pkgInput env _ e').error hrun).1, hstays e'' ?_⟩
      rwa [show (shutdownAndTerminate env _).run e' = _ from hrun] at hgrows

/-- The work items of chunks that come one after another, each with its time. -/
def inputs (chunks : List (Int × Bytes)) : List Item := chunks.map fun c => .input c.1 c.2

/-- The bytes of the chunks. -/
def bytesOf (chunks : List (Int × Bytes)) : Bytes := (chunks.map Prod.snd).flatten

theorem run_inputs_shows (fuel : Nat) : ∀ (chunks : List (Int × Bytes)) (e : Entry μ)
    (st : List (Event μ) × Option Bytes), Shows before e st →
      (∀ rest, st.2 = some rest →
        AllGood (Decoder.head env.cfg.maxValidPackageSize parsers) Decoder.WellFormed (rest ++ bytesOf chunks) ∧
          (rest ++ bytesOf chunks).length < 2 ^ 31 ∧ (rest ++ bytesOf chunks).length < fuel) →
      Shows before (run env fuel e (inputs chunks))
        ((chunks.map Prod.snd).foldl (feed (Decoder.head env.cfg.maxValidPackageSize parsers)) st)
  | [], _, _, h, _ => h
  | (now, buf) :: chunks, e, (evs, none), h, _ => by
    rw [foldl_feed_none]
    exact GaveUp.grows (e := e) h (run_grows env fuel _ e)
  | (now, buf) :: chunks, e, (evs, some rest), h, hok => by
    have hs := Decoder.stable_head env.cfg.maxValidPackageSize parsers
    have hwaits : Waits before e evs rest := h
    obtain ⟨hgood, hsmall, hfuel⟩ := hok rest rfl
    rw [show bytesOf ((now, buf) :: chunks) = buf ++ bytesOf chunks from rfl, ← List.append_assoc] at hgood hsmall hfuel
    have hlen : (rest ++ buf).length ≤ (rest ++ buf ++ bytesOf chunks).length :=
      (List.prefix_append _ _).length_le
    have hfront := hgood.of_append hs
    have hinput := handleInput_shows hparse hconsumer fuel now hwaits.ready hwaits.active
      (by rw [hwaits.contents]; exact hlen.trans_lt hsmall) (by rw [hwaits.contents]; exact hfront)
      (by rw [hwaits.contents]; exact hlen.trans_lt hfuel)
    dsimp only at hinput
    rw [hwaits.contents] at hinput
    obtain ⟨e', hafter, hshows⟩ : ∃ e', after env fuel e (.input now buf) = some e' ∧
        Shows e.events e' (decodeAll (Decoder.head env.cfg.maxValidPackageSize parsers) (rest ++ buf)) := by
      unfold after
      cases hrun : (exec env fuel (.input now buf)).run e with
      | ok _ e' => exact ⟨e', rfl, hinput.ok hrun⟩
      | error s e' =>
        obtain ⟨⟨what, rfl⟩, hshows⟩ := hinput.error hrun
        exact ⟨e', rfl, hshows⟩
    have hnext := run_inputs_shows fuel chunks e' _ (hwaits.shows hshows) ?_
    · rw [show inputs ((now, buf) :: chunks) = .input now buf :: inputs chunks from rfl, run, hafter]
      exact hnext
    · intro rest' hrest'
      have hreach := reaches_of_decodeAll hs _ hfront hrest'
      have hlen' : (rest' ++ bytesOf chunks).length ≤ (rest ++ buf ++ bytesOf chunks).length := by
        have := hreach.length_le
        simp only [List.length_append] at this ⊢
        omega
      exact ⟨hgood.reaches (hreach.append hs hgood), hlen'.trans_lt hsmall, hlen'.trans_lt hfuel⟩

/-- An entry that waits for more shows what the decoder makes of the whole. -/
theorem run_inputs_shows_decodeAll (fuel : Nat) (chunks : List (Int × Bytes)) (hact : e.connectionIsActive = true)
    (hready : Ready e.pkgInput) (hmore : Decoder.head env.cfg.maxValidPackageSize parsers e.pkgInput.contents = .more)
    (hgood : AllGood (Decoder.head env.cfg.maxValidPackageSize parsers) Decoder.WellFormed
      (e.pkgInput.contents ++ bytesOf chunks))
    (hsmall : (e.pkgInput.contents ++ bytesOf chunks).length < 2 ^ 31)
    (hfuel : (e.pkgInput.contents ++ bytesOf chunks).length < fuel) :
    Shows e.events (run env fuel e (inputs chunks))
      (decodeAll (Decoder.head env.cfg.maxValidPackageSize parsers) (e.pkgInput.contents ++ bytesOf chunks)) := by
  have hwaits : Waits e.events e [] e.pkgInput.contents :=
    ⟨hact, hready, rfl, ⟨[], (List.append_nil _).symm, rfl⟩, by simp⟩
  have hshows := run_inputs_shows hparse hconsumer fuel chunks e ([], some e.pkgInput.contents) hwaits ?_
  · rw [← decodeAll_more hmore,
      foldl_feed (Decoder.stable_head env.cfg.maxValidPackageSize parsers) _ _ hgood] at hshows
    exact hshows
  · rintro rest hrest
    obtain rfl := Option.some.inj hrest
    exact ⟨hgood, hsmall, hfuel⟩

end Run

/-! ## Two cuts of one stream -/

/-- However the bytes are cut, an active entry whose consumer does not throw shows the events the
decoder reads off the whole. -/
theorem run_decodes_whole_stream (env : EntryEnv μ) (parsers : Decoder.Parsers μ) (hparse : ParsesAs env parsers)
    (hconsumer : ∀ evs, env.onMessage evs = none) (e : Entry μ) (hact : e.connectionIsActive = true)
    (hready : Ready e.pkgInput)
    (hmore : Decoder.head env.cfg.maxValidPackageSize parsers e.pkgInput.contents = .more)
    (chunks chunks' : List (Int × Bytes)) (hcut : bytesOf chunks = bytesOf chunks')
    (hsmall : (e.pkgInput.contents ++ bytesOf chunks).length < 2 ^ 31)
    (hwf : AllGood (Decoder.head env.cfg.maxValidPackageSize parsers) Decoder.WellFormed
      (e.pkgInput.contents ++ bytesOf chunks))
    (fuel : Nat) (hfuel : (e.pkgInput.contents ++ bytesOf chunks).length < fuel) :
    observed ((run env fuel e (inputs chunks)).events.drop e.events.length) =
      observed ((run env fuel e (inputs chunks')).events.drop e.events.length) ∧
    observed ((run env fuel e (inputs chunks)).events.drop e.events.length) =
      (decodeAll (Decoder.head env.cfg.maxValidPackageSize parsers) (e.pkgInput.contents ++ bytesOf chunks)).1 := by
  have h := (run_inputs_shows_decodeAll hparse hconsumer fuel chunks hact hready hmore hwf hsmall hfuel).observed_eq
  rw [hcut] at hwf hsmall hfuel
  have h' := (run_inputs_shows_decodeAll hparse hconsumer fuel chunks' hact hready hmore hwf hsmall hfuel).observed_eq
  rw [← hcut] at h'
  exact ⟨h.trans h'.symm, h⟩

/-- The messages of one type, which are their own contents. -/
def rawParsers : Decoder.Parsers Bytes := fun id => if id = 1 then some some else none

theorem parsesAs_raw : ParsesAs (plainEnv .raw) rawParsers := by
  intro id
  unfold plainEnv rawParsers
  by_cases hid : id = 1
  · simp only [hid, if_true]
    exact .some ⟨fun _ _ _ _ => rfl, fun _ _ _ hlen _ => ProtobufEngine.consumed_readCalls _ _ hlen⟩
  · simp only [hid, if_false]
    exact .none

theorem ready_init (env : EntryEnv μ) (sh : ShutdownHandler) (now : Int) : Ready (init env sh now).pkgInput :=
  ⟨PkgInput.inv_init, rfl⟩

/-- A message with an attachment, a heartbeat request and a package of no known type, at once and in three chunks. -/
theorem run_decodes_whole_stream_message :
    observed ((run (plainEnv .raw) 50 (init (plainEnv .raw) .handler 0)
      (inputs [(1, [0, 3, 1, 0, 2, 0, 0, 0, 1, 0, 0, 0, 7, 8, 9] ++ (PkgHeader.make pkgContentHeartbeatRequest).image ++
        [9, 3, 0, 0, 0, 0, 0, 0, 0, 0, 0, 0])])).events.drop 0) =
      observed ((run (plainEnv .raw) 50 (init (plainEnv .raw) .handler 0)
        (inputs [(1, [0, 3, 1, 0, 2, 0]), (2, [0, 0, 1, 0, 0, 0, 7]),
          (3, [8, 9] ++ (PkgHeader.make pkgContentHeartbeatRequest).image ++
            [9, 3, 0, 0, 0, 0, 0, 0, 0, 0, 0, 0])])).events.drop 0) ∧
    observed ((run (plainEnv .raw) 50 (init (plainEnv .raw) .handler 0)
      (inputs [(1, [0, 3, 1, 0, 2, 0, 0, 0, 1, 0, 0, 0, 7, 8, 9] ++ (PkgHeader.make pkgContentHeartbeatRequest).image ++
        [9, 3, 0, 0, 0, 0, 0, 0, 0, 0, 0, 0])])).events.drop 0) =
      (decodeAll (Decoder.head 100 rawParsers) ([0, 3, 1, 0, 2, 0, 0, 0, 1, 0, 0, 0, 7, 8, 9] ++
        (PkgHeader.make pkgContentHeartbeatRequest).image ++ [9, 3, 0, 0, 0, 0, 0, 0, 0, 0, 0, 0])).1 :=
  run_decodes_whole_stream (plainEnv .raw) rawParsers parsesAs_raw (fun _ => rfl) (init (plainEnv .raw) .handler 0) rfl
    (ready_init ..) rfl _ _ (by decide +kernel) (by decide +kernel)
    (allGood_of_checkGood 5 _ (by decide +kernel)) 50 (by decide +kernel)

end Entry

end Opio.ProtoEntry
