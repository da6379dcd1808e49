/-
Any number of threads that send through one entry, and the heartbeats the entry sends itself. A
send makes one or two calls on the connection, each of which becomes a work item of the strand;
the strand runs the items of a thread in order and those of different threads in any order.

The attached buffers are taken to reach the connection as they are (`Sends` is about what becomes
of them); what is proved here is when the packages of the threads stay whole.
-/
import Opio.Lib.Runs
import Opio.Net.StreamLog
import Opio.ProtoEntry.Sends

namespace Opio.ProtoEntry

open Net (SendCall)
open scoped List

variable {μ τ : Type}

/-! ## What is sent -/

/-- The overloads of `send`, and the heartbeats of the entry itself. -/
inductive Send (μ : Type)
  | send (id : UInt16) (msg : μ)
  | sendAttached (id : UInt16) (msg : μ) (attachedBinary : Bytes)
  | sendVec (id : UInt16) (msg : μ) (attachedBinaries : BufferVec)
  | sendWithCb (id : UInt16) (msg : μ)
  | sendWithCbAttached (id : UInt16) (msg : μ) (attachedBinary : Bytes)
  | sendVecWithCb (id : UInt16) (msg : μ) (attachedBinaries : BufferVec)
  | heartbeatRequest
  | heartbeatReply

namespace Send

def schedulings (serialize : μ → Bytes) : Send μ → Except ImageFault (List Scheduling)
  | send id msg => ProtoEntry.send serialize id msg
  | sendAttached id msg attachedBinary => ProtoEntry.sendAttached serialize id msg attachedBinary
  | sendVec id msg attachedBinaries => ProtoEntry.sendVec serialize id msg attachedBinaries
  | sendWithCb id msg => ProtoEntry.sendWithCb serialize id msg
  | sendWithCbAttached id msg attachedBinary => ProtoEntry.sendWithCbAttached serialize id msg attachedBinary
  | sendVecWithCb id msg attachedBinaries => ProtoEntry.sendVecWithCb serialize id msg attachedBinaries
  -- the entry looks at its flag in the work item that sends the heartbeat
  | heartbeatRequest => return [.rawBufs [(PkgHeader.make pkgContentHeartbeatRequest).image]]
  | heartbeatReply => return [.rawBufs [(PkgHeader.make pkgContentHeartbeatReply).image]]

/-- The calls on the connection, one after another; none when the image cannot be made. -/
def calls (serialize : μ → Bytes) (s : Send μ) : List SendCall :=
  match s.schedulings serialize with
  | .ok schedulings => schedulings.map (Scheduling.sendCall BufferVec.bufs)
  | .error _ => []

/-- A package: its header, its content, and its attached bytes. -/
def package (serialize : μ → Bytes) : Send μ → Bytes
  | send id msg => (sendHeader id (serialize msg).length 0).image ++ serialize msg
  | sendAttached id msg attachedBinary =>
    (sendHeader id (serialize msg).length attachedBinary.length).image ++ serialize msg ++ attachedBinary
  | sendVec id msg attachedBinaries =>
    (sendHeader id (serialize msg).length attachedBinaries.bufs.flatten.length).image ++
      serialize msg ++ attachedBinaries.bufs.flatten
  | sendWithCb id msg => (sendHeader id (serialize msg).length 0).image ++ serialize msg
  | sendWithCbAttached id msg attachedBinary =>
    (sendHeader id (serialize msg).length attachedBinary.length).image ++ serialize msg ++ attachedBinary
  | sendVecWithCb id msg attachedBinaries =>
    (sendHeader id (serialize msg).length attachedBinaries.bufs.flatten.length).image ++ serialize msg ++
      attachedBinaries.bufs.flatten
  | heartbeatRequest => (PkgHeader.make pkgContentHeartbeatRequest).image
  | heartbeatReply => (PkgHeader.make pkgContentHeartbeatReply).image

end Send

/-- The bytes of calls on the connection. -/
def bytesOf (calls : List SendCall) : Bytes := calls.flatMap (·.bufs.flatten)

/-- One of the calls of a send, and those that come after it. -/
structure Piece (μ : Type) where
  send : Send μ
  first : Bool
  call : SendCall
  ahead : List SendCall

namespace Piece

def bytes (p : Piece μ) : Bytes := p.call.bufs.flatten

def aheadBytes (p : Piece μ) : Bytes := bytesOf p.ahead

/-- The send this is the first call of. -/
def send? (p : Piece μ) : Option (Send μ) := if p.first then some p.send else none

end Piece

def piecesOf (s : Send μ) : Bool → List SendCall → List (Piece μ)
  | _, [] => []
  | first, call :: ahead => ⟨s, first, call, ahead⟩ :: piecesOf s false ahead

def Send.pieces (serialize : μ → Bytes) (s : Send μ) : List (Piece μ) := piecesOf s true (s.calls serialize)

/-! ## Threads and the strand -/

structure Thread (μ : Type) where
  /-- The sends so far. -/
  called : List (Send μ) := []
  /-- What the running send has yet to call the connection with. -/
  scheduling : List (Piece μ) := []
  /-- The work items on the strand. -/
  items : List (Piece μ) := []

structure Senders (τ μ : Type) where
  connectionIsActive : Bool := true
  scheduleForWriteIsEnabled : Bool := true
  threads : τ → Thread μ := fun _ => {}
  /-- The calls with bytes in them that the connection accepted. -/
  log : List (τ × Piece μ) := []

inductive Action (τ μ : Type)
  | calls (t : τ) (s : Send μ)
  /-- The running send of the thread makes its next call on the connection. -/
  | schedules (t : τ)
  /-- The strand runs the next work item of the thread. -/
  | runs (t : τ)
  /-- The entry terminates. -/
  | terminates
  /-- The connection shuts down. -/
  | shutsDown

namespace Senders

section Step

variable [DecidableEq τ]

def setThread (t : τ) (th : Thread μ) (s : Senders τ μ) : Senders τ μ :=
  { s with threads := Function.update s.threads t th }

def step (serialize : μ → Bytes) (s : Senders τ μ) : Action τ μ → Option (Senders τ μ)
  | .calls t send =>
    let th := s.threads t
    if th.scheduling.isEmpty then
      some (s.setThread t { th with called := th.called ++ [send], scheduling := send.pieces serialize })
    else none
  | .schedules t =>
    let th := s.threads t
    match th.scheduling with
    | [] => none
    | p :: scheduling =>
      some (s.setThread t { th with scheduling, items := if s.connectionIsActive then th.items ++ [p] else th.items })
  | .runs t =>
    let th := s.threads t
    match th.items with
    | [] => none
    | p :: items =>
      let s := s.setThread t { th with items }
      some (if s.scheduleForWriteIsEnabled ∧ p.bytes ≠ [] then { s with log := s.log ++ [(t, p)] } else s)
  | .terminates => some { s with connectionIsActive := false }
  | .shutsDown => some { s with scheduleForWriteIsEnabled := false }

end Step

/-! ## Whole packages -/

/-- The bytes the connection accepted. -/
def accepted (s : Senders τ μ) : Bytes := s.log.flatMap (·.2.bytes)

/-- The bytes the thread is still to hand over. -/
def pending (s : Senders τ μ) (t : τ) : Bytes :=
  ((s.threads t).items ++ if s.connectionIsActive then (s.threads t).scheduling else []).flatMap Piece.bytes

/-- The accepted bytes are packages of the threads, those of a thread in the order of its calls.
Of the last one there may be bytes that its thread hands over next. -/
def WholePackages [DecidableEq τ] (serialize : μ → Bytes) (s : Senders τ μ) : Prop :=
  ∃ (packages : List (τ × Send μ)) (ahead : Bytes),
    s.accepted ++ ahead = packages.flatMap (fun e => e.2.package serialize) ∧
    (ahead ≠ [] → ∃ e ∈ packages.getLast?, ahead <+: s.pending e.1) ∧
    ∀ t, (packages.filter (·.1 = t)).map Prod.snd <+ (s.threads t).called

/-- The accepted call whose send is not through: more bytes of its package are to come. -/
def opened (s : Senders τ μ) : Option (τ × Piece μ) := s.log.getLast?.filter fun e => e.2.aheadBytes ≠ []

/-- Between the calls of a send nothing is accepted from elsewhere, and neither the entry nor the
connection ends before the last of them. -/
def KeepsTogether [DecidableEq τ] (s : Senders τ μ) : Action τ μ → Prop
  | .runs t => s.scheduleForWriteIsEnabled = true → ∀ p ∈ (s.threads t).items.head?,
    (∀ e ∈ s.opened, e.1 = t ∨ p.bytes = []) ∧
      (p.aheadBytes = [] ∨ s.connectionIsActive = true ∨ p.ahead.length < (s.threads t).items.length)
  | .terminates => ∀ e ∈ s.opened, e.2.ahead.length ≤ (s.threads e.1).items.length
  | .shutsDown => s.opened = none
  | _ => True

instance [DecidableEq τ] (s : Senders τ μ) : ∀ a, Decidable (s.KeepsTogether a)
  | .calls .. => isTrue trivial
  | .schedules _ => isTrue trivial
  | .runs _ => inferInstanceAs (Decidable (_ → _))
  | .terminates => inferInstanceAs (Decidable (∀ e ∈ s.opened, _))
  | .shutsDown => decidable_of_iff (s.opened.isNone = true) Option.isNone_iff_eq_none

/-! ## Sends and their calls -/

theorem makePackageImage_cases (serialize : μ → Bytes) (id : UInt16) (msg : μ) (n : Nat) :
    (∃ f, makePackageImage serialize id msg (UInt32.ofNat n) = .error f) ∨
      makePackageImage serialize id msg (UInt32.ofNat n) =
        .ok ((sendHeader id (serialize msg).length n).image ++ serialize msg) := by
  by_cases hmsg : (serialize msg).length < 2 ^ 31
  · exact .inr (makePackageImage_ok hmsg n)
  · exact .inl ⟨.serialization, makePackageImage_error hmsg n⟩

theorem image_append_ne_nil (header : PkgHeader) (bs : Bytes) : header.image ++ bs ≠ [] := by
  intro h
  have hlen := congrArg List.length h
  rw [List.length_append, PkgHeader.length_image, sizeofPkgHeader, List.length_nil] at hlen
  omega

/-- A send makes no calls, or the calls that make up its package, the first of which has bytes. -/
theorem calls_cases (serialize : μ → Bytes) (s : Send μ) : s.calls serialize = [] ∨
    ∃ call ahead, s.calls serialize = call :: ahead ∧ call.bufs.flatten ≠ [] ∧
      call.bufs.flatten ++ bytesOf ahead = s.package serialize := by
  have himage : ∀ (schedulings : Bytes → List Scheduling) (id : UInt16) (msg : μ) (n : Nat) (attached : Bytes),
      (∀ buf, ∃ call ahead, (schedulings buf).map (Scheduling.sendCall BufferVec.bufs) = call :: ahead ∧
        (buf ≠ [] → call.bufs.flatten ≠ []) ∧ call.bufs.flatten ++ bytesOf ahead = buf ++ attached) →
      s.schedulings serialize = (do return schedulings (← makePackageImage serialize id msg (UInt32.ofNat n))) →
      s.package serialize = (sendHeader id (serialize msg).length n).image ++ serialize msg ++ attached →
      s.calls serialize = [] ∨ ∃ call ahead, s.calls serialize = call :: ahead ∧ call.bufs.flatten ≠ [] ∧
        call.bufs.flatten ++ bytesOf ahead = s.package serialize := by
    intro schedulings id msg n attached hcalls hs hpackage
    rcases makePackageImage_cases serialize id msg n with ⟨f, himage⟩ | himage
    · left
      rw [Send.calls, hs, himage]
      rfl
    · right
      obtain ⟨call, ahead, heq, hne, hbytes⟩ := hcalls ((sendHeader id (serialize msg).length n).image ++ serialize msg)
      refine ⟨call, ahead, ?_, hne (image_append_ne_nil _ _), hbytes.trans hpackage.symm⟩
      rw [Send.calls, hs, himage]
      exact heq
  cases s with
  | send id msg =>
    exact himage (fun buf => [.rawBufs [buf]]) id msg 0 []
      (fun buf => ⟨_, _, rfl, by simp [Scheduling.sendCall], by simp [Scheduling.sendCall, bytesOf]⟩) rfl
      (List.append_nil _).symm
  | sendAttached id msg attached =>
    exact himage (fun buf => [.rawBufs [buf, attached]]) id msg _ attached
      (fun buf => ⟨_, _, rfl, by simp +contextual [Scheduling.sendCall], by simp [Scheduling.sendCall, bytesOf]⟩)
      rfl rfl
  | sendVec id msg attached =>
    exact himage (fun buf => [.rawBufs [buf], .vecRawBufs attached]) id msg _ attached.bufs.flatten
      (fun buf => ⟨_, _, rfl, by simp [Scheduling.sendCall], by simp [Scheduling.sendCall, bytesOf]⟩)
      (by rw [← attachedBinarySize_eq]; rfl) rfl
  | sendWithCb id msg =>
    exact himage (fun buf => [.rawBufsWithCb [buf]]) id msg 0 []
      (fun buf => ⟨_, _, rfl, by simp [Scheduling.sendCall], by simp [Scheduling.sendCall, bytesOf]⟩) rfl
      (List.append_nil _).symm
  | sendWithCbAttached id msg attached =>
    exact himage (fun buf => [.rawBufsWithCb [buf, attached]]) id msg _ attached
      (fun buf => ⟨_, _, rfl, by simp +contextual [Scheduling.sendCall], by simp [Scheduling.sendCall, bytesOf]⟩)
      rfl rfl
  | sendVecWithCb id msg attached =>
    exact himage (fun buf => [.rawBufs [buf], .vecRawBufsWithCb attached]) id msg _ attached.bufs.flatten
      (fun buf => ⟨_, _, rfl, by simp [Scheduling.sendCall], by simp [Scheduling.sendCall, bytesOf]⟩)
      (by rw [← attachedBinarySize_eq]; rfl) rfl
  | heartbeatRequest => exact .inr ⟨_, _, rfl, by decide, rfl⟩
  | heartbeatReply => exact .inr ⟨_, _, rfl, by decide, rfl⟩

/-! ## Pieces in order -/

/-- What a thread hands over goes on with the calls `ahead`, and then come whole sends. -/
def Tidy (serialize : μ → Bytes) : List SendCall → List (Piece μ) → Prop
  | [], [] => True
  | [], p :: ps => p.first = true ∧ p.bytes ≠ [] ∧ p.bytes ++ p.aheadBytes = p.send.package serialize ∧
    Tidy serialize p.ahead ps
  | call :: ahead, p :: ps => p.first = false ∧ p.call = call ∧ p.ahead = ahead ∧ Tidy serialize ahead ps
  | _ :: _, [] => False

theorem Tidy.append {serialize : μ → Bytes} {ps qs : List (Piece μ)} (hqs : Tidy serialize [] qs) :
    ∀ {ahead}, Tidy serialize ahead ps → Tidy serialize ahead (ps ++ qs) := by
  induction ps with
  | nil =>
    intro ahead h
    cases ahead with
    | nil => exact hqs
    | cons call ahead => exact h.elim
  | cons p ps ih =>
    intro ahead h
    cases ahead with
    | nil => exact ⟨h.1, h.2.1, h.2.2.1, ih h.2.2.2⟩
    | cons call ahead => exact ⟨h.1, h.2.1, h.2.2.1, ih h.2.2.2⟩

theorem Tidy.length_le {serialize : μ → Bytes} : ∀ {ahead : List SendCall} {ps : List (Piece μ)},
    Tidy serialize ahead ps → ahead.length ≤ ps.length
  | [], _, _ => Nat.zero_le _
  | _ :: _, _ :: _, h => Nat.succ_le_succ (Tidy.length_le h.2.2.2)

/-- The bytes ahead are those of the next pieces. -/
theorem Tidy.bytesOf_isPrefix {serialize : μ → Bytes} {rest : List (Piece μ)} : ∀ {ahead : List SendCall}
    {ps : List (Piece μ)}, Tidy serialize ahead (ps ++ rest) → ahead.length ≤ ps.length →
      bytesOf ahead <+: ps.flatMap Piece.bytes
  | [], _, _, _ => List.nil_prefix
  | call :: ahead, [], _, hlen => absurd hlen (Nat.not_succ_le_zero _)
  | call :: ahead, p :: ps, h, hlen => by
    obtain ⟨-, rfl, -, htidy⟩ := h
    have hrest := Tidy.bytesOf_isPrefix htidy (Nat.le_of_succ_le_succ hlen)
    rw [bytesOf, List.flatMap_cons, List.flatMap_cons]
    exact (List.prefix_append_right_inj _).2 hrest

theorem tidy_piecesOf (serialize : μ → Bytes) (s : Send μ) : ∀ ahead, Tidy serialize ahead (piecesOf s false ahead)
  | [] => trivial
  | _ :: ahead => ⟨rfl, rfl, rfl, tidy_piecesOf serialize s ahead⟩

theorem tidy_pieces (serialize : μ → Bytes) (s : Send μ) : Tidy serialize [] (s.pieces serialize) := by
  unfold Send.pieces
  rcases calls_cases serialize s with hcalls | ⟨call, ahead, hcalls, hne, hpackage⟩
  · rw [hcalls]
    trivial
  · rw [hcalls]
    exact ⟨rfl, hne, hpackage, tidy_piecesOf serialize s ahead⟩

/-- The sends the first calls of which are among the pieces. -/
def sendsOf (ps : List (Piece μ)) : List (Send μ) := ps.filterMap Piece.send?

@[simp] theorem sendsOf_append (ps qs : List (Piece μ)) : sendsOf (ps ++ qs) = sendsOf ps ++ sendsOf qs :=
  List.filterMap_append

theorem sendsOf_piecesOf (s : Send μ) : ∀ ahead, sendsOf (piecesOf s false ahead) = []
  | [] => rfl
  | _ :: ahead => sendsOf_piecesOf s ahead

theorem sendsOf_pieces (serialize : μ → Bytes) (s : Send μ) : sendsOf (s.pieces serialize) <+ [s] := by
  unfold Send.pieces
  cases s.calls serialize with
  | nil => exact List.nil_sublist _
  | cons call ahead =>
    have hsends : sendsOf (piecesOf s true (call :: ahead)) = s :: sendsOf (piecesOf s false ahead) := rfl
    rw [hsends, sendsOf_piecesOf]

/-- The sends that have been begun, with their threads. -/
def packages (log : List (τ × Piece μ)) : List (τ × Send μ) := log.filterMap fun e => e.2.send?.map (e.1, ·)

theorem packages_concat (log : List (τ × Piece μ)) (t : τ) (p : Piece μ) :
    packages (log ++ [(t, p)]) = packages log ++ p.send?.toList.map (t, ·) := by
  rw [packages, List.filterMap_append]
  cases hp : p.send? <;> simp [packages, hp]

theorem sendsOf_cons (p : Piece μ) (items : List (Piece μ)) :
    sendsOf (p :: items) = p.send?.toList ++ sendsOf items := by
  cases hp : p.send? <;> simp [sendsOf, hp]

section Opened

variable {s : Senders τ μ}

/-- The bytes to come of the send that is not through. -/
def aheadOf [DecidableEq τ] (opened : Option (τ × Piece μ)) (t : τ) : Bytes :=
  match opened with
  | some e => if e.1 = t then e.2.aheadBytes else []
  | none => []

theorem aheadBytes_of_opened {e : τ × Piece μ} (h : s.opened = some e) : e.2.aheadBytes ≠ [] := by
  have hfilter := (Option.filter_eq_some_iff.1 h).2
  exact of_decide_eq_true hfilter

theorem opened_concat (s : Senders τ μ) (e : τ × Piece μ) :
    opened { s with log := s.log ++ [e] } = if e.2.aheadBytes ≠ [] then some e else none := by
  rw [opened, List.getLast?_concat, Option.filter_some]
  by_cases h : e.2.aheadBytes = [] <;> simp [h]

theorem eq_of_opened_concat {e e' : τ × Piece μ} (h : opened { s with log := s.log ++ [e] } = some e') : e = e' := by
  rw [opened_concat] at h
  split at h
  · exact Option.some.inj h
  · cases h

theorem aheadOf_opened_concat [DecidableEq τ] (s : Senders τ μ) (t t' : τ) (p : Piece μ) :
    aheadOf (opened { s with log := s.log ++ [(t, p)] }) t' = if t = t' then p.aheadBytes else [] := by
  rw [opened_concat]
  by_cases h : p.aheadBytes = []
  · simp [h, aheadOf]
  · simp [h, aheadOf]

end Opened

/-! ## The invariant -/

section Together

variable [DecidableEq τ] {serialize : μ → Bytes} {s s' : Senders τ μ} {t : τ}

/-- What a thread has on the strand and is about to schedule goes on with the send that is not
through, if that is its own. -/
structure Queued (serialize : μ → Bytes) (opened : Option (τ × Piece μ)) (isActive : Bool) (t : τ) (th : Thread μ)
    (ahead : List SendCall) (rest : List (Piece μ)) : Prop where
  tidy : Tidy serialize ahead (th.items ++ rest)
  scheduling : isActive = true → rest = th.scheduling
  scheduled : bytesOf ahead ≠ [] → isActive = true ∨ ahead.length ≤ th.items.length
  bytes : bytesOf ahead = aheadOf opened t
  length : ∀ e ∈ opened, e.1 = t → ahead.length ≤ e.2.ahead.length

/-- The sends of a thread that were begun, in order. -/
def begun (s : Senders τ μ) (t : τ) : List (Send μ) := ((packages s.log).filter (·.1 = t)).map Prod.snd

theorem begun_concat (s : Senders τ μ) (t t' : τ) (p : Piece μ) :
    begun { s with log := s.log ++ [(t, p)] } t' = s.begun t' ++ if t' = t then p.send?.toList else [] := by
  rw [begun, packages_concat, List.filter_append, List.map_append]
  congr 1
  by_cases ht : t' = t
  · subst ht
    cases p.send? <;> simp
  · cases p.send? with
    | none => simp [ht]
    | some send => simp [ht, Ne.symm ht]

structure Together (serialize : μ → Bytes) (s : Senders τ μ) : Prop where
  whole : s.accepted ++ s.opened.elim [] (·.2.aheadBytes) = (packages s.log).flatMap (fun e => e.2.package serialize)
  order : ∀ t, s.begun t ++ sendsOf ((s.threads t).items ++ (s.threads t).scheduling) <+ (s.threads t).called
  queued : s.scheduleForWriteIsEnabled = true → ∀ t, ∃ ahead rest,
    Queued serialize s.opened s.connectionIsActive t (s.threads t) ahead rest
  closed : s.scheduleForWriteIsEnabled = false → s.opened = none
  last : ∀ e ∈ s.opened, ∃ send, (packages s.log).getLast? = some (e.1, send)

theorem together_init : Together serialize ({} : Senders τ μ) := by
  constructor
  · rfl
  · intro t
    exact List.nil_sublist _
  · intro _ t
    exact ⟨[], [], trivial, fun _ => rfl, fun h => absurd rfl h, rfl, by simp [opened]⟩
  · intro h
    cases h
  · rintro e ⟨⟩

@[simp] theorem setThread_threads_self (t : τ) (th : Thread μ) : (s.setThread t th).threads t = th :=
  Function.update_self ..

theorem setThread_threads_of_ne {t' : τ} (h : t' ≠ t) (th : Thread μ) : (s.setThread t th).threads t' = s.threads t' :=
  Function.update_of_ne h ..

/-- Nothing is accepted, and a thread moves on. -/
theorem Together.setThread (h : Together serialize s) (t : τ) (th : Thread μ)
    (horder : s.begun t ++ sendsOf (th.items ++ th.scheduling) <+ th.called)
    (hqueued : s.scheduleForWriteIsEnabled = true → ∀ ahead rest,
      Queued serialize s.opened s.connectionIsActive t (s.threads t) ahead rest →
        ∃ ahead rest, Queued serialize s.opened s.connectionIsActive t th ahead rest) :
    Together serialize (s.setThread t th) := by
  refine ⟨h.whole, fun t' => ?_, fun henabled t' => ?_, h.closed, h.last⟩
  · by_cases ht : t' = t
    · subst ht
      rw [setThread_threads_self]
      exact horder
    · rw [setThread_threads_of_ne ht]
      exact h.order t'
  · obtain ⟨ahead, rest, hq⟩ := h.queued henabled t'
    by_cases ht : t' = t
    · subst ht
      rw [setThread_threads_self]
      exact hqueued henabled ahead rest hq
    · rw [setThread_threads_of_ne ht]
      exact ⟨ahead, rest, hq⟩

theorem Together.calls {send : Send μ} (h : Together serialize s)
    (hstep : s.step serialize (.calls t send) = some s') : Together serialize s' := by
  simp only [step] at hstep
  split at hstep
  · rename_i hidle
    have hnil : (s.threads t).scheduling = [] := List.isEmpty_iff.1 hidle
    cases hstep
    refine h.setThread t _ ?_ fun _ ahead rest hq => ?_
    · have horder := h.order t
      rw [hnil, List.append_nil] at horder
      rw [sendsOf_append, ← List.append_assoc]
      exact horder.append (sendsOf_pieces serialize send)
    · by_cases hactive : s.connectionIsActive = true
      · refine ⟨ahead, send.pieces serialize, ?_, fun _ => rfl, fun _ => .inl hactive, hq.bytes, hq.length⟩
        have htidy := hq.tidy
        rw [hq.scheduling hactive, hnil, List.append_nil] at htidy
        exact (tidy_pieces serialize send).append htidy
      · exact ⟨ahead, rest, hq.tidy, fun h => absurd h hactive, hq.scheduled, hq.bytes, hq.length⟩
  · cases hstep

theorem Together.schedules (h : Together serialize s) (hstep : s.step serialize (.schedules t) = some s') :
    Together serialize s' := by
  simp only [step] at hstep
  split at hstep
  · cases hstep
  · rename_i p scheduling hp
    cases hstep
    have horder := h.order t
    rw [hp] at horder
    by_cases hactive : s.connectionIsActive = true
    · rw [if_pos hactive]
      refine h.setThread t _ ?_ fun _ ahead rest hq => ?_
      · rwa [List.append_assoc]
      · refine ⟨ahead, scheduling, ?_, fun _ => rfl, fun _ => .inl hactive, hq.bytes, hq.length⟩
        have htidy := hq.tidy
        rw [hq.scheduling hactive, hp] at htidy
        rwa [List.append_assoc]
    · -- an entry that is not active drops the call
      rw [if_neg hactive]
      refine h.setThread t _ ?_ fun _ ahead rest hq => ?_
      · refine List.Sublist.trans ?_ horder
        simp only [sendsOf_append]
        apply List.Sublist.append_left
        apply List.Sublist.append_left
        exact (List.sublist_cons_self p scheduling).filterMap _
      · exact ⟨ahead, rest, hq.tidy, fun h => absurd h hactive, hq.scheduled, hq.bytes, hq.length⟩

/-- The bytes of the next call of a thread are accepted, and nobody else's send is under way. -/
theorem Together.accepts {p : Piece μ} {items rest : List (Piece μ)} (h : Together serialize s)
    (hitems : (s.threads t).items = p :: items) (henabled : s.scheduleForWriteIsEnabled = true)
    (hwhole : s.accepted ++ p.bytes ++ p.aheadBytes =
      (packages s.log).flatMap (fun e => e.2.package serialize) ++ p.send?.toList.flatMap (Send.package serialize))
    (htidy : Tidy serialize p.ahead (items ++ rest))
    (hrest : s.connectionIsActive = true → rest = (s.threads t).scheduling)
    (hscheduled : p.aheadBytes ≠ [] → s.connectionIsActive = true ∨ p.ahead.length ≤ items.length)
    (hothers : ∀ t', t' ≠ t → aheadOf s.opened t' = [])
    (hlast : p.aheadBytes ≠ [] → ∃ send, (packages (s.log ++ [(t, p)])).getLast? = some (t, send)) :
    Together serialize
      { s.setThread t { s.threads t with items } with
        log := (s.setThread t { s.threads t with items }).log ++ [(t, p)] } := by
  refine ⟨?_, fun t' => ?_, fun _ t' => ?_, fun h => ?_, fun e he => ?_⟩
  · have hahead : Option.elim (opened { s with log := s.log ++ [(t, p)] }) [] (·.2.aheadBytes) = p.aheadBytes := by
      rw [opened_concat]
      by_cases hp : p.aheadBytes = [] <;> simp [hp]
    show (s.log ++ [(t, p)]).flatMap (·.2.bytes) ++ Option.elim (opened { s with log := s.log ++ [(t, p)] }) [] _ =
      (packages (s.log ++ [(t, p)])).flatMap _
    rw [hahead, packages_concat, List.flatMap_append, List.flatMap_append]
    simp only [List.flatMap_cons, List.flatMap_nil, List.append_nil, List.flatMap_map]
    exact hwhole
  · -- a send that begins is no longer among those to come
    have horder := h.order t'
    show begun { s with log := s.log ++ [(t, p)] } t' ++ sendsOf (((s.setThread t _).threads t').items ++ _) <+
      ((s.setThread t _).threads t').called
    rw [begun_concat]
    by_cases ht : t' = t
    · subst ht
      rw [hitems, List.cons_append, sendsOf_cons, ← List.append_assoc] at horder
      rw [if_pos rfl, setThread_threads_self]
      exact horder
    · rw [if_neg ht, List.append_nil, setThread_threads_of_ne ht]
      exact horder
  · have hopened := aheadOf_opened_concat s t t' p
    by_cases ht : t' = t
    · -- what the piece leaves open is at the head of what its thread still has to do
      subst ht
      rw [if_pos rfl] at hopened
      refine ⟨p.ahead, rest, ?_, fun h => ?_, fun h => ?_, hopened.symm, ?_⟩
      · rw [setThread_threads_self]
        exact htidy
      · rw [setThread_threads_self]
        exact hrest h
      · rw [setThread_threads_self]
        exact hscheduled h
      · rintro e he -
        obtain rfl := eq_of_opened_concat (s := s) he
        exact le_refl _
    · rw [if_neg fun h => ht h.symm] at hopened
      obtain ⟨ahead, rest', hq⟩ := h.queued henabled t'
      rw [setThread_threads_of_ne ht]
      refine ⟨ahead, rest', hq.tidy, hq.scheduling, hq.scheduled, ?_, ?_⟩
      · exact (hq.bytes.trans (hothers t' ht)).trans hopened.symm
      · rintro e he het
        obtain rfl := eq_of_opened_concat (s := s) he
        exact absurd het.symm ht
  · exact absurd (henabled.symm.trans h) (by decide)
  · have hopened : opened { s with log := s.log ++ [(t, p)] } = some e := he
    obtain rfl := eq_of_opened_concat hopened
    exact hlast (aheadBytes_of_opened hopened)

/-- A call without bytes is through, or one the connection refuses. -/
theorem Together.drops {p : Piece μ} {items : List (Piece μ)} (h : Together serialize s)
    (hitems : (s.threads t).items = p :: items)
    (hqueued : s.scheduleForWriteIsEnabled = true → ∀ ahead rest,
      Queued serialize s.opened s.connectionIsActive t (s.threads t) ahead rest →
        ∃ ahead rest, Queued serialize s.opened s.connectionIsActive t { s.threads t with items } ahead rest) :
    Together serialize (s.setThread t { s.threads t with items }) := by
  refine h.setThread t _ ?_ hqueued
  have horder := h.order t
  rw [hitems, List.cons_append] at horder
  refine List.Sublist.trans ?_ horder
  apply List.Sublist.append_left
  exact (List.sublist_cons_self p (items ++ (s.threads t).scheduling)).filterMap _

theorem Together.runs (h : Together serialize s) (hcond : s.KeepsTogether (.runs t))
    (hstep : s.step serialize (.runs t) = some s') : Together serialize s' := by
  simp only [step] at hstep
  split at hstep
  · cases hstep
  rename_i p items hitems
  have hstep := Option.some.inj hstep
  by_cases henabled : s.scheduleForWriteIsEnabled = true
  · obtain ⟨halone, hahead⟩ := hcond henabled p (by rw [hitems]; rfl)
    have hscheduled : p.aheadBytes ≠ [] → s.connectionIsActive = true ∨ p.ahead.length ≤ items.length := by
      intro hne
      rcases hahead with hnil | hactive | hlen
      · exact absurd hnil hne
      · exact .inl hactive
      · rw [hitems, List.length_cons] at hlen
        exact .inr (by omega)
    obtain ⟨ahead, rest, hq⟩ := h.queued henabled t
    have htidy := hq.tidy
    rw [hitems, List.cons_append] at htidy
    cases ahead with
    | nil =>
      -- the first call of a send: nobody's send is under way
      obtain ⟨hfirst, hne, hpackage, htidy⟩ := htidy
      rw [if_pos ⟨henabled, hne⟩] at hstep
      have hnone : s.opened = none := by
        cases ho : s.opened with
        | none => rfl
        | some e =>
          have het : e.1 = t := (halone e ho).resolve_right hne
          have hbytes := hq.bytes
          rw [ho, aheadOf, if_pos het] at hbytes
          exact absurd hbytes.symm (aheadBytes_of_opened ho)
      have hsend : p.send? = some p.send := by rw [Piece.send?, if_pos hfirst]
      have hwhole := h.whole
      rw [hnone, Option.elim_none, List.append_nil] at hwhole
      refine hstep ▸ h.accepts hitems henabled ?_ htidy hq.scheduling hscheduled ?_ fun _ => ⟨p.send, ?_⟩
      · rw [hwhole, hsend, List.append_assoc, hpackage]
        simp
      · intro t' _
        rw [hnone, aheadOf]
      · rw [packages_concat, hsend]
        exact List.getLast?_concat
    | cons call ahead =>
      obtain ⟨hfirst, rfl, rfl, htidy⟩ := htidy
      have hbytes : p.bytes ++ p.aheadBytes = aheadOf s.opened t := hq.bytes
      by_cases hne : p.bytes = []
      · rw [if_neg fun h => h.2 hne] at hstep
        refine hstep ▸ h.drops hitems fun _ ahead' rest' hq' => ?_
        refine ⟨p.ahead, rest, htidy, hq.scheduling, hscheduled, ?_, ?_⟩
        · rwa [hne, List.nil_append] at hbytes
        · intro e he het
          exact (Nat.le_succ _).trans (hq.length e he het)
      · -- the send that is under way goes on
        rw [if_pos ⟨henabled, hne⟩] at hstep
        cases ho : s.opened with
        | none =>
          rw [ho, aheadOf] at hbytes
          exact absurd (List.append_eq_nil_iff.1 hbytes).1 hne
        | some e =>
          have het : e.1 = t := (halone e ho).resolve_right hne
          have hwhole := h.whole
          rw [ho, Option.elim_some] at hwhole
          rw [ho, aheadOf, if_pos het] at hbytes
          have hsend : p.send? = none := by rw [Piece.send?, hfirst]; rfl
          refine hstep ▸ h.accepts hitems henabled ?_ htidy hq.scheduling hscheduled ?_ fun _ => ?_
          · rw [List.append_assoc, hbytes, hwhole, hsend]
            simp
          · intro t' ht
            rw [ho, aheadOf, if_neg]
            exact fun h => ht (h.symm.trans het)
          · obtain ⟨send, hlast⟩ := h.last e ho
            refine ⟨send, ?_⟩
            rw [packages_concat, hsend, ← het, ← hlast]
            exact congrArg List.getLast? (List.append_nil _)
  · rw [if_neg fun h => henabled h.1] at hstep
    exact hstep ▸ h.drops hitems fun h => absurd h henabled

theorem Together.terminates (h : Together serialize s) (hcond : s.KeepsTogether .terminates) :
    Together serialize { s with connectionIsActive := false } := by
  refine ⟨h.whole, h.order, fun henabled t => ?_, h.closed, h.last⟩
  obtain ⟨ahead, rest, hq⟩ := h.queued henabled t
  refine ⟨ahead, rest, hq.tidy, (nomatch ·), fun hne => .inr ?_, hq.bytes, hq.length⟩
  cases ho : s.opened with
  | none =>
    have hbytes := hq.bytes
    rw [ho, aheadOf] at hbytes
    exact absurd hbytes hne
  | some e =>
    have hbytes := hq.bytes
    rw [ho, aheadOf] at hbytes
    by_cases het : e.1 = t
    · have hlen := hcond e ho
      rw [het] at hlen
      exact (hq.length e ho het).trans hlen
    · rw [if_neg het] at hbytes
      exact absurd hbytes hne

theorem Together.step {a : Action τ μ} (h : Together serialize s) (hcond : s.KeepsTogether a)
    (hstep : s.step serialize a = some s') : Together serialize s' := by
  cases a with
  | calls t send => exact h.calls hstep
  | schedules t => exact h.schedules hstep
  | runs t => exact h.runs hcond hstep
  | terminates =>
    cases hstep
    exact h.terminates hcond
  | shutsDown =>
    cases hstep
    exact ⟨h.whole, h.order, (nomatch ·), fun _ => hcond, h.last⟩

theorem Together.wholePackages (h : Together serialize s) : s.WholePackages serialize := by
  refine ⟨packages s.log, s.opened.elim [] (·.2.aheadBytes), h.whole, fun hne => ?_, fun t => ?_⟩
  · cases ho : s.opened with
    | none =>
      rw [ho] at hne
      exact absurd rfl hne
    | some e =>
      have henabled : s.scheduleForWriteIsEnabled = true := by
        by_contra hdisabled
        have hnone := h.closed (Bool.eq_false_of_not_eq_true hdisabled)
        rw [ho] at hnone
        cases hnone
      obtain ⟨ahead, rest, hq⟩ := h.queued henabled e.1
      have hbytes := hq.bytes
      rw [ho, aheadOf, if_pos rfl] at hbytes
      obtain ⟨send, hlast⟩ := h.last e ho
      refine ⟨(e.1, send), hlast, ?_⟩
      rw [Option.elim_some, ← hbytes, pending]
      by_cases hactive : s.connectionIsActive = true
      · rw [if_pos hactive]
        have htidy := hq.tidy
        rw [hq.scheduling hactive] at htidy
        have hlen := htidy.length_le
        rw [← List.append_nil (_ ++ _)] at htidy
        exact htidy.bytesOf_isPrefix hlen
      · have hne := hbytes ▸ aheadBytes_of_opened ho
        rw [if_neg hactive, List.append_nil]
        exact hq.tidy.bytesOf_isPrefix ((hq.scheduled hne).resolve_left hactive)
  · exact (List.sublist_append_left _ _).trans (h.order t)

end Together

/-! ## The connection -/

/-- The connection takes a call as the strand runs its work item: all of its bytes, or none. -/
theorem execute_send (env : Net.ConnectionEnv) {c : Net.Connection} (hidle : c.stack = [])
    (hlives : c.destroyed = false)
    (call : SendCall) : ∃ c', execute (Net.Connection.step env) c [.item (.call (.send call)), .none] = some c' ∧
      c'.scheduleForWriteIsEnabled = c.scheduleForWriteIsEnabled ∧
      Net.accepted c'.log = Net.accepted c.log ++
        if c.scheduleForWriteIsEnabled then call.bufs.flatten else [] := by
  refine ⟨Net.Connection.scheduleSend call c, ?_, ?_, ?_⟩
  · have hbegin : Net.Connection.step env c (.item (.call (.send call))) = some (c.push (.call (.send call))) := by
      simp [Net.Connection.step, hidle, hlives, Net.Connection.begin]
    have hresume : Net.Connection.step env (c.push (.call (.send call))) .none =
        some (Net.Connection.scheduleSend call c) := rfl
    simp only [execute, hbegin, hresume]
  · unfold Net.Connection.scheduleSend
    dsimp only
    split
    · rfl
    · split <;> rfl
  · unfold Net.Connection.scheduleSend
    dsimp only
    split
    · simp [Net.Connection.push, Net.Connection.emit, Net.accepted, Net.Event.acceptedBytes]
    · split <;> simp [Net.Connection.push, Net.Connection.emit, Net.accepted, Net.Event.acceptedBytes]

/-- A work item of a thread does to the connection what it does to the senders. -/
theorem runs_connection [DecidableEq τ] {serialize : μ → Bytes} {s s' : Senders τ μ} {t : τ} (env : Net.ConnectionEnv)
    {c : Net.Connection} (hidle : c.stack = []) (hlives : c.destroyed = false)
    (henabled : c.scheduleForWriteIsEnabled = s.scheduleForWriteIsEnabled)
    (haccepted : Net.accepted c.log = s.accepted) (hstep : s.step serialize (.runs t) = some s') :
    ∃ p ∈ (s.threads t).items.head?, ∃ c',
      execute (Net.Connection.step env) c [.item (.call (.send p.call)), .none] = some c' ∧
      c'.scheduleForWriteIsEnabled = s'.scheduleForWriteIsEnabled ∧ Net.accepted c'.log = s'.accepted := by
  simp only [step] at hstep
  split at hstep
  · cases hstep
  rename_i p items hitems
  obtain ⟨c', hrun, hkept, haccepts⟩ := execute_send env hidle hlives p.call
  refine ⟨p, by rw [hitems]; rfl, c', hrun, ?_⟩
  have hstep := Option.some.inj hstep
  by_cases hs : s.scheduleForWriteIsEnabled = true
  · rw [henabled, if_pos hs, haccepted] at haccepts
    by_cases hne : p.bytes = []
    · rw [if_neg fun h => h.2 hne] at hstep
      rw [← hstep]
      refine ⟨hkept.trans henabled, haccepts.trans ?_⟩
      show s.accepted ++ p.bytes = s.accepted
      rw [hne, List.append_nil]
    · rw [if_pos ⟨hs, hne⟩] at hstep
      rw [← hstep]
      refine ⟨hkept.trans henabled, haccepts.trans ?_⟩
      show s.accepted ++ p.bytes = (s.log ++ [(t, p)]).flatMap (·.2.bytes)
      rw [List.flatMap_append]
      simp [accepted]
  · rw [if_neg fun h => hs h.1] at hstep
    rw [henabled, if_neg hs, List.append_nil, haccepted] at haccepts
    rw [← hstep]
    exact ⟨hkept.trans henabled, haccepts⟩

/-! ## Runs -/

section Runs

variable [DecidableEq τ]

/-- The packages of the threads stay whole in every run in which nothing comes between the calls of
a send. -/
theorem senders_tear_nothing (serialize : μ → Bytes) (actions : List (Action τ μ)) {s : Senders τ μ}
    (hcond : Along (step serialize) KeepsTogether {} actions) (hrun : execute (step serialize) {} actions = some s) :
    s.WholePackages serialize :=
  (execute_invariant (fun _ _ _ h hcond hstep => h.step hcond hstep) actions together_init hcond hrun).wholePackages

/-- A `send_vec` in two calls, with a package of another thread in front and a heartbeat behind. -/
def wholeSends : List (Action Bool Bytes) :=
  [.calls false (.sendVec 1 [7] ⟨[[1, 2], [3]], [0, 0], by decide⟩), .calls true (.send 1 [8]), .schedules false,
    .schedules true, .runs true, .runs false, .schedules false, .calls true .heartbeatRequest, .schedules true,
    .runs false, .runs true, .terminates, .shutsDown]

theorem senders_tear_nothing_two : ∃ s, execute (step id) {} wholeSends = some s ∧ s.WholePackages id :=
  ⟨_, rfl, senders_tear_nothing id wholeSends (by decide +kernel) rfl⟩

/-- The package of another thread gets between the header of a `send_vec` and its attached bytes. -/
def tornSends : List (Action Bool Bytes) :=
  [.calls false (.sendVec 1 [7] ⟨[[1, 2, 3]], [0], by decide⟩), .calls true (.send 1 [8]), .schedules false,
    .schedules true, .schedules false, .runs false, .runs true, .runs false]

theorem senders_tear : ∃ s, execute (step id) {} tornSends = some s ∧ ¬ s.WholePackages id := by
  obtain ⟨s, hs, haccepted, hfalse, htrue⟩ : ∃ s, execute (step id) {} tornSends = some s ∧
      s.accepted = [0, 3, 1, 0, 1, 0, 0, 0, 3, 0, 0, 0, 7] ++ [0, 3, 1, 0, 1, 0, 0, 0, 0, 0, 0, 0, 8] ++ [1, 2, 3] ∧
      (s.threads false).called = [.sendVec 1 [7] ⟨[[1, 2, 3]], [0], by decide⟩] ∧
      (s.threads true).called = [.send 1 [8]] :=
    ⟨_, rfl, by decide +kernel, rfl, rfl⟩
  refine ⟨s, hs, ?_⟩
  rintro ⟨packages, ahead, hwhole, -, horder⟩
  rw [haccepted] at hwhole
  -- whose ever the first package is, it does not end where the second header begins
  cases packages with
  | nil => cases hwhole
  | cons e packages =>
    obtain ⟨t, send⟩ := e
    have hsend := (horder t).subset (List.mem_map_of_mem (f := Prod.snd)
      (List.mem_filter.2 ⟨List.mem_cons_self .., decide_eq_true rfl⟩))
    rw [List.flatMap_cons] at hwhole
    cases t with
    | false =>
      rw [hfalse] at hsend
      obtain rfl : send = .sendVec 1 [7] ⟨[[1, 2, 3]], [0], by decide⟩ := List.mem_singleton.1 hsend
      have hfirst := List.prefix_of_prefix_length_le ⟨_, hwhole.symm⟩ (List.prefix_append _ _) (by decide)
      exact absurd hfirst (by decide)
    | true =>
      rw [htrue] at hsend
      obtain rfl : send = .send 1 [8] := List.mem_singleton.1 hsend
      have hfirst := List.prefix_of_prefix_length_le ⟨_, hwhole.symm⟩ (List.prefix_append _ _) (by decide)
      exact absurd hfirst (by decide)

end Runs

end Senders

end Opio.ProtoEntry
