/-
Where the buffers of a connection are. All that the socket took, what it has yet to take of the sequence
it was given and what waits behind it make a stream in which every buffer has one version as a whole.
What a group or a write that begins does to the stream is to put one version in the place of another, of
buffers of which nothing was taken.
-/
import Opio.Net.BufferMemory
import Opio.Net.QueueInvariant

namespace Opio.Net

open scoped List

variable {env : AdjusterEnv}

theorem Doing.noWrite_nothing : Doing.nothing.NoWrite := ⟨by decide, by decide⟩

theorem Doing.noWrite_appending {beAggressive : Bool} : (Doing.appending beAggressive).NoWrite := ⟨by simp, by simp⟩

theorem Doing.noWrite_initiating : Doing.initiating.NoWrite := ⟨by decide, by decide⟩

/-! ## The stream -/

/-- All buffers of the stream have one version, and none is of a group to come. -/
structure Intact (env : AdjusterEnv) (groups : Nat) (stream : List Cell) : Prop where
  whole : (bufferVersions env).Whole stream
  known : ∀ a ∈ stream, a.origin.group < groups

theorem Intact.rewritten {groups : Nat} {stream stream' : List Cell} (h : Intact env groups stream)
    (hrewritten : (bufferVersions env).Rewritten stream stream') : Intact env groups stream' := by
  refine ⟨h.whole.rewritten hrewritten, ?_⟩
  intro a ha
  obtain ⟨a', ha', horigin⟩ := hrewritten.origin a ha
  have horigin : a'.origin = a.origin := horigin
  exact horigin ▸ h.known a' ha'

namespace BufferedConnection

theorem group_outputBuffers (group : Nat) : ∀ (bufs : List Bytes) (index : Nat),
    ∀ a ∈ BufsStorage.cells env (outputBuffers env group index bufs), a.origin.group = group
  | [], _, a, ha => absurd ha List.not_mem_nil
  | bytes :: bufs, index, a, ha => by
    rw [outputBuffers, BufsStorage.cells_cons, OutputBuffer.cells_make] at ha
    rcases List.mem_append.1 ha with ha | ha
    · rw [(mem_bufferContents ha).1]
    · exact group_outputBuffers group bufs (index + 1) a ha

theorem sizes_outputBuffers (group : Nat) : ∀ (bufs : List Bytes) (index : Nat),
    BufsStorage.sizes env (outputBuffers env group index bufs) = bufs.map List.length
  | [], _ => rfl
  | bytes :: bufs, index => by
    have hbytes : ((OutputBuffer.make env ⟨group, index, bytes⟩).cells env).length = bytes.length := by
      rw [OutputBuffer.cells_make, length_bufferContents]
    exact List.cons_eq_cons.2 ⟨hbytes, sizes_outputBuffers group bufs (index + 1)⟩

theorem sound_outputBuffers (group : Nat) : ∀ (bufs : List Bytes) (index : Nat),
    ∀ buf ∈ outputBuffers env group index bufs, buf.Sound env
  | [], _ => by simp [outputBuffers]
  | _ :: bufs, index => List.forall_mem_cons.2 ⟨OutputBuffer.sound_make _, sound_outputBuffers group bufs (index + 1)⟩

/-- The buffers of a group come one after another. -/
theorem whole_outputBuffers (group : Nat) : ∀ (bufs : List Bytes) (index : Nat) {stream : List Cell},
    (bufferVersions env).Whole stream → (∀ a ∈ stream, a.origin.group = group → a.origin.index < index) →
      (bufferVersions env).Whole (stream ++ BufsStorage.cells env (outputBuffers env group index bufs))
  | [], _, _, hwhole, _ => by
    rw [outputBuffers, BufsStorage.cells_nil, List.append_nil]
    exact hwhole
  | bytes :: bufs, index, stream, hwhole, hknown => by
    rw [outputBuffers, BufsStorage.cells_cons, OutputBuffer.cells_make, ← List.append_assoc]
    refine whole_outputBuffers group bufs (index + 1) (hwhole.fresh (b := ⟨group, index, bytes⟩) ?_ none) ?_
    · intro a ha heq
      have heq : a.origin = ⟨group, index, bytes⟩ := heq
      have hlt := hknown a ha (congrArg SentBuffer.group heq)
      rw [heq] at hlt
      exact Nat.lt_irrefl index hlt
    · intro a ha hgroup
      rcases List.mem_append.1 ha with ha | ha
      · exact Nat.lt_succ_of_lt (hknown a ha hgroup)
      · have ha : a ∈ bufferContents env ⟨group, index, bytes⟩ none := ha
        rw [(mem_bufferContents ha).1]
        exact Nat.lt_succ_self index

end BufferedConnection

theorem Intact.sent {groups : Nat} {stream : List Cell} (h : Intact env groups stream) (bufs : List Bytes) :
    Intact env (groups + 1) (stream ++ BufsStorage.cells env (BufferedConnection.outputBuffers env groups 0 bufs)) := by
  constructor
  · refine BufferedConnection.whole_outputBuffers groups bufs 0 h.whole ?_
    intro a ha hgroup
    exact absurd (h.known a ha) (by omega)
  · intro a ha
    rcases List.mem_append.1 ha with ha | ha
    · exact Nat.lt_succ_of_lt (h.known a ha)
    · rw [BufferedConnection.group_outputBuffers groups bufs 0 a ha]
      exact Nat.lt_succ_self groups

namespace BufferedConnection

open StorageQueue
open Connection (Input Stands Calm Holds doing front_freezeFirst)

variable {s s' : BufferedConnection} {c c' : Connection}

/-! ## Where the buffers are -/

/-- The sizes of what is left of the group that is being sent. -/
def heldSizes : List Frame → List Nat
  | .append bufs _ _ _ :: _ => bufs.map List.length
  | .aggressiveWrite buf bufs _ _ :: _ => (buf :: bufs).map List.length
  | _ => []

theorem heldSizes_of_waiting : ∀ {stack : List Frame}, (∀ f ∈ stack, f.isActive = false) → heldSizes stack = []
  | [], _ => rfl
  | f :: _, h => by
    have hf := h f (List.mem_cons_self ..)
    cases f <;> first | rfl | cases hf

/-- The sequence in front that a write was begun with, if there is one, and what the socket has yet to
take of it. -/
inductive Phase (env : AdjusterEnv) (s : BufferedConnection) : StorageQueue → List Cell → Prop
  | idle (async : s.conn.asyncWrite = none) (notPopping : .popWritten ∉ s.conn.stack) (nothing : s.transferred = 0) :
    Phase env s [] []
  | inFlight (first : BufsStorage) (bufs : List Bytes) (async : s.conn.asyncWrite = some bufs)
    (notPopping : .popWritten ∉ s.conn.stack)
    (adjusted : ∀ a ∈ Descriptor.readAll env first s.asioBufs, a.Adjusted env)
    (length : (Descriptor.readAll env first s.asioBufs).length = (bufs.map List.length).sum) :
    Phase env s [first] ((Descriptor.readAll env first s.asioBufs).drop s.transferred)
  | written (first : BufsStorage) (async : s.conn.asyncWrite = none) (popping : .popWritten ∈ s.conn.stack)
    (nothing : s.transferred = 0) : Phase env s [first] []

/-- What holds of the memory as long as no write has failed. -/
structure Live (env : AdjusterEnv) (s : BufferedConnection) (frozen waiting : StorageQueue) (inHand : List Cell) :
    Prop where
  queue : s.queue = frozen ++ waiting
  takesMore : waiting ≠ []
  phase : Phase env s frozen inHand
  sound : Sound env waiting
  groupSound : ∀ buf ∈ s.group, buf.Sound env
  sizes : SameSizes env s.queue s.conn.writeQueue
  groupSizes : BufsStorage.sizes env s.group = heldSizes s.conn.stack
  intact : Intact env s.conn.groups (s.taken ++ (inHand ++ (cells env waiting ++ BufsStorage.cells env s.group)))
  adjusted : ∀ a ∈ s.taken, a.Adjusted env
  /-- What a synchronous write takes was asked for its data. -/
  direct : doing s.conn.stack = .directWrite → ∀ buf ∈ s.group.head?, ∀ a ∈ buf.cells env, a.Adjusted env
  gather : doing s.conn.stack = .gatherWrite → s.asioBufs = Descriptor.all (front s.queue) ∧
    ∀ a ∈ BufsStorage.cells env (front s.queue), a.Adjusted env

theorem Phase.of_eq {frozen : StorageQueue} {inHand : List Cell} (h : Phase env s frozen inHand)
    (hasync : s'.conn.asyncWrite = s.conn.asyncWrite)
    (hpopping : .popWritten ∈ s'.conn.stack ↔ .popWritten ∈ s.conn.stack)
    (hasioBufs : s'.asioBufs = s.asioBufs) (htransferred : s'.transferred = s.transferred) :
    Phase env s' frozen inHand := by
  cases h with
  | idle async notPopping nothing =>
    exact .idle (hasync.trans async) (mt hpopping.1 notPopping) (htransferred.trans nothing)
  | inFlight first bufs async notPopping adjusted length =>
    rw [← htransferred]
    rw [← hasioBufs] at adjusted length ⊢
    exact .inFlight first bufs (hasync.trans async) (mt hpopping.1 notPopping) adjusted length
  | written first async popping nothing =>
    exact .written first (hasync.trans async) (hpopping.2 popping) (htransferred.trans nothing)

section Live

variable {frozen waiting : StorageQueue} {inHand : List Cell}

/-- The connection goes on and leaves the memory as it is. -/
theorem Live.goesOn (h : Live env s frozen waiting inHand) (hqueue : SameSizes env s.queue c'.writeQueue)
    (hasync : c'.asyncWrite = s.conn.asyncWrite) (hpopping : .popWritten ∈ c'.stack ↔ .popWritten ∈ s.conn.stack)
    (hgroups : s.conn.groups ≤ c'.groups) (hgroup : BufsStorage.sizes env s.group = heldSizes c'.stack)
    (hdoing : (doing c'.stack).NoWrite) : Live env { s with conn := c' } frozen waiting inHand where
  queue := h.queue
  takesMore := h.takesMore
  phase := h.phase.of_eq hasync hpopping rfl rfl
  sound := h.sound
  groupSound := h.groupSound
  sizes := hqueue
  groupSizes := hgroup
  intact := ⟨h.intact.whole, fun a ha => Nat.lt_of_lt_of_le (h.intact.known a ha) hgroups⟩
  adjusted := h.adjusted
  direct := fun hdirect => absurd hdirect hdoing.1
  gather := fun hgather => absurd hgather hdoing.2

theorem sizes_eq_nil {storage : BufsStorage} (h : BufsStorage.sizes env storage = []) : storage = [] :=
  List.map_eq_nil_iff.1 h

/-- A group is taken for sending, or not. -/
theorem Live.send {call : SendCall} (h : Live env s frozen waiting inHand)
    (hconn : s.conn = c.push (.call (.send call))) (halone : c.stack = []) :
    Live env { s.scheduleSend env call with conn := Connection.scheduleSend call c } frozen waiting inHand := by
  obtain ⟨conn, group, queue, asioBufs, transferred, taken⟩ := s
  obtain rfl : conn = c.push (.call (.send call)) := hconn
  obtain rfl : group = [] := sizes_eq_nil h.groupSizes
  unfold scheduleSend Connection.scheduleSend
  dsimp only
  by_cases henabled : c.scheduleForWriteIsEnabled = true
  · rw [if_pos (show (c.push _).scheduleForWriteIsEnabled = true from henabled), if_pos henabled]
    have hintact := h.intact.sent call.bufs
    rw [BufsStorage.cells_nil, List.append_nil, List.append_assoc, List.append_assoc] at hintact
    refine ⟨h.queue, h.takesMore, ?_, h.sound, sound_outputBuffers _ _ 0, h.sizes, sizes_outputBuffers _ _ 0, hintact,
      h.adjusted, (absurd · Doing.noWrite_appending.1), (absurd · Doing.noWrite_appending.2)⟩
    exact h.phase.of_eq rfl (by simp [Connection.push, Connection.emit]) rfl rfl
  · rw [if_neg (show ¬ (c.push _).scheduleForWriteIsEnabled = true from henabled), if_neg henabled]
    split
    · refine h.goesOn h.sizes rfl ?_ (Nat.le_succ _) rfl Doing.noWrite_nothing
      simp [Connection.push, Connection.emit]
    · refine h.goesOn h.sizes rfl ?_ (Nat.le_succ _) ?_ ?_
      · simp [Connection.push, Connection.emit]
      · change [] = heldSizes c.stack
        rw [halone]
        rfl
      · change (doing c.stack).NoWrite
        rw [halone]
        exact Doing.noWrite_nothing

/-- A buffer of the group goes to the queue, perhaps in another version. -/
theorem Live.enqueue {f : Frame} {buf buf' : OutputBuffer} {items : List OutputBuffer} {bytes : Bytes}
    {bufs : List Bytes} (h : Live env s frozen waiting inHand) (hconn : s.conn = c.push f) (hf : f ≠ .popWritten)
    (hgroup : s.group = buf :: items) (hrewritten : (bufferVersions env).Rewritten (buf.cells env) (buf'.cells env))
    (hsound : buf'.Sound env) (hbytes : (buf'.cells env).length = bytes.length)
    (hitems : BufsStorage.sizes env items = bufs.map List.length) (id : Nat) (cb : Bool) :
    ∃ waiting', Live env { ({ s with group := items }.enqueue env buf') with
        conn := { c with writeQueue := Connection.appendOutgoingBuffer env.toConnectionEnv bytes c.writeQueue }.push
          (.append bufs false id cb) } frozen waiting' inHand := by
  obtain ⟨conn, group, queue, asioBufs, transferred, taken⟩ := s
  obtain rfl : conn = c.push f := hconn
  obtain rfl : group = buf :: items := hgroup
  obtain ⟨waiting', hqueue, htakesMore, hwaiting, hmoved⟩ := h.sound.enqueue h.takesMore hsound frozen
  have hqueue' : appendOutgoingBuffer env buf' queue = frozen ++ waiting' := by
    rw [← hqueue]
    exact congrArg _ h.queue
  refine ⟨waiting', hqueue', htakesMore, ?_, hwaiting, ?_, h.sizes.enqueue hbytes, hitems, ?_, h.adjusted,
    (absurd · Doing.noWrite_appending.1), (absurd · Doing.noWrite_appending.2)⟩
  · exact h.phase.of_eq rfl (by simp [Connection.push, hf.symm]) rfl rfl
  · exact (List.forall_mem_cons.1 h.groupSound).2
  · refine h.intact.rewritten (((Versions.Rewritten.append_left ?_ _).append_left _))
    rw [BufsStorage.cells_cons, ← List.append_assoc]
    exact ((hrewritten.append_left _).trans hmoved).append_right _

theorem Live.queue_ne_nil (h : Live env s frozen waiting inHand) : s.queue ≠ [] :=
  h.queue ▸ List.append_ne_nil_of_right_ne_nil frozen h.takesMore

/-- The group goes on, or all of it is on its way. -/
theorem Live.append {bufs : List Bytes} {beAggressive : Bool} {id : Nat} {cb : Bool}
    (h : Live env s frozen waiting inHand) (hconn : s.conn = c.push (.append bufs beAggressive id cb))
    (halone : c.stack = []) :
    ∃ waiting', Live env { s.append env beAggressive with
      conn := Connection.append env.toConnectionEnv bufs beAggressive id cb c } frozen waiting' inHand := by
  have hne := h.queue_ne_nil
  obtain ⟨conn, group, queue, asioBufs, transferred, taken⟩ := s
  obtain rfl : conn = c.push (.append bufs beAggressive id cb) := hconn
  cases bufs with
  | nil =>
    -- the group ends, and nothing of it is left that could be changed
    obtain rfl : group = [] := sizes_eq_nil h.groupSizes
    refine ⟨waiting, ?_⟩
    cases beAggressive with
    | true =>
      cases cb with
      | true =>
        exact h.goesOn h.sizes rfl (by simp [Connection.push, Connection.append])
          (Nat.le_refl _) rfl Doing.noWrite_nothing
      | false =>
        have hnothing : heldSizes c.stack = [] ∧ (doing c.stack).NoWrite := by
          rw [halone]
          exact ⟨rfl, Doing.noWrite_nothing⟩
        exact h.goesOn h.sizes rfl (by simp [Connection.push, Connection.append]) (Nat.le_refl _) hnothing.1.symm
          hnothing.2
    | false =>
      cases cb with
      | true =>
        exact h.goesOn (h.sizes.appendCompletionCb hne id) rfl (by simp [Connection.push, Connection.append])
          (Nat.le_refl _) rfl Doing.noWrite_initiating
      | false =>
        exact h.goesOn h.sizes rfl (by simp [Connection.push, Connection.append]) (Nat.le_refl _) rfl
          Doing.noWrite_initiating
  | cons buf bufs =>
    cases group with
    | nil => cases h.groupSizes
    | cons item items =>
      obtain ⟨hitem, hitems⟩ :
          (item.cells env).length = buf.length ∧ BufsStorage.sizes env items = bufs.map List.length :=
        List.cons.inj h.groupSizes
      obtain ⟨hsound, hsounds⟩ := List.forall_mem_cons.1 h.groupSound
      have hasked : (item.asioConstBuffer.cells env).length = buf.length := item.length_asioConstBuffer.trans hitem
      unfold BufferedConnection.append Connection.append
      dsimp only
      by_cases hdirect : beAggressive = true ∧ ¬ c.isWriteOperationRunning = true
      · rw [if_pos (show beAggressive = true ∧ ¬ (c.push _).isWriteOperationRunning = true from hdirect), hasked]
        by_cases hsmall : buf.length < env.quikSyncWriteHeuristicSize
        · -- it is about to be written
          rw [if_neg (Nat.not_le.2 hsmall), if_pos ⟨hdirect.1, hdirect.2, hsmall⟩]
          refine ⟨waiting, h.queue, h.takesMore, ?_, h.sound, ?_, h.sizes, ?_, ?_, h.adjusted, ?_,
            fun hgather => by cases hgather⟩
          · exact h.phase.of_eq rfl (by simp [Connection.push]) rfl rfl
          · exact List.forall_mem_cons.2 ⟨hsound.asioConstBuffer, hsounds⟩
          · exact List.cons_eq_cons.2 ⟨hasked, hitems⟩
          · refine h.intact.rewritten (((Versions.Rewritten.append_left ?_ _).append_left _).append_left _)
            rw [BufsStorage.cells_cons, BufsStorage.cells_cons]
            exact item.rewritten_asioConstBuffer.append_right _
          · intro _ buf' hbuf'
            obtain rfl : item.asioConstBuffer = buf' := Option.some.inj hbuf'
            exact hsound.adjusted
        · -- too large for a direct write, but asked for its size already
          rw [if_pos (Nat.le_of_not_lt hsmall), if_neg fun hall => hsmall hall.2.2]
          exact h.enqueue rfl (by simp) rfl item.rewritten_asioConstBuffer hsound.asioConstBuffer hasked hitems id cb
      · rw [if_neg (show ¬ (beAggressive = true ∧ ¬ (c.push _).isWriteOperationRunning = true) from hdirect),
          if_neg fun hall => hdirect ⟨hall.1, hall.2.1⟩]
        exact h.enqueue rfl (by simp) rfl .refl hsound hitem hitems id cb

/-- The socket takes the first bytes of the buffer at hand, and what is left of it begins `items'`. -/
theorem Live.takesDirectly {f : Frame} {item : OutputBuffer} {items items' : List OutputBuffer} {bufs' : List Bytes}
    (h : Live env s frozen waiting inHand) (hconn : s.conn = c.push f) (hf : f ≠ .popWritten)
    (hdirect : doing s.conn.stack = .directWrite) (hgroup : s.group = item :: items) (hinHand : inHand = [])
    (hclear : cells env waiting = []) (n : Nat)
    (hcells : BufsStorage.cells env items' = (item.cells env).drop n ++ BufsStorage.cells env items)
    (hsound : ∀ buf ∈ items', buf.Sound env) (hsizes : BufsStorage.sizes env items' = bufs'.map List.length)
    (beAggressive : Bool) (id : Nat) (cb : Bool) (log : List Event) :
    Live env { s with
      conn := ({ c with log } : Connection).push (.append bufs' beAggressive id cb)
      group := items'
      taken := s.taken ++ (item.cells env).take n } frozen waiting inHand := by
  obtain ⟨conn, group, queue, asioBufs, transferred, taken⟩ := s
  obtain rfl : conn = c.push f := hconn
  obtain rfl : group = item :: items := hgroup
  have hadjusted : ∀ a ∈ item.cells env, a.Adjusted env := h.direct hdirect item rfl
  refine ⟨h.queue, h.takesMore, ?_, h.sound, hsound, h.sizes, hsizes, ?_, ?_,
    (absurd · Doing.noWrite_appending.1), (absurd · Doing.noWrite_appending.2)⟩
  · exact h.phase.of_eq rfl (by simp [Connection.push, hf.symm]) rfl rfl
  · have hintact := h.intact
    subst hinHand
    rw [hclear] at hintact ⊢
    rw [hcells, List.nil_append, List.nil_append, List.append_assoc, ← List.append_assoc (List.take n _),
      List.take_append_drop]
    exact hintact
  · intro a ha
    exact (List.mem_append.1 ha).elim (h.adjusted a) fun ha => hadjusted a (List.mem_of_mem_take ha)

/-- A direct write is over: what is left of the buffer goes to the queue, as a copy if it is half-sent. -/
theorem Live.aggressiveWritten {buf : Bytes} {bufs : List Bytes} {id : Nat} {cb : Bool} (r : WriteResult)
    (h : Live env s frozen waiting inHand) (hconn : s.conn = c.push (.aggressiveWrite buf bufs id cb))
    (hinHand : inHand = []) (hclear : cells env waiting = []) :
    ∃ waiting', Live env { s.aggressiveWritten env r with
      conn := Connection.aggressiveWritten env.toConnectionEnv buf bufs id cb r c } frozen waiting' inHand := by
  have hdirect : doing s.conn.stack = .directWrite := by
    rw [hconn]
    rfl
  have hsizes := h.groupSizes
  rw [hconn] at hsizes
  obtain ⟨item, items, hgroup, hitem, hitems⟩ := List.map_eq_cons_iff.1 hsizes
  have hitems : BufsStorage.sizes env items = bufs.map List.length := hitems
  obtain ⟨hsound, hsounds⟩ := List.forall_mem_cons.1 (hgroup ▸ h.groupSound)
  have hadjusted : ∀ a ∈ item.cells env, a.Adjusted env := h.direct hdirect item (by rw [hgroup]; rfl)
  have hcons : ∀ {rest : OutputBuffer} {bytes : Bytes}, (rest.cells env).length = bytes.length →
      BufsStorage.sizes env (rest :: items) = (bytes :: bufs).map List.length :=
    fun hrest => List.cons_eq_cons.2 ⟨hrest, hitems⟩
  let log := c.log ++ [.taken (buf.take r.transferred)] ++ [.incBytesTxSync r.transferred]
  unfold BufferedConnection.aggressiveWritten Connection.aggressiveWritten
  dsimp only
  rw [hgroup]
  dsimp only
  rw [hitem]
  by_cases hfull : r.transferred = buf.length
  · rw [if_pos hfull, if_pos hfull]
    have hall : BufsStorage.cells env items = (item.cells env).drop r.transferred ++ BufsStorage.cells env items := by
      rw [List.drop_eq_nil_of_le (Nat.le_of_eq (hitem.trans hfull.symm)), List.nil_append]
    exact ⟨waiting, h.takesDirectly hconn (by simp) hdirect hgroup hinHand hclear r.transferred hall hsounds hitems
      true id cb log⟩
  · rw [if_neg hfull, if_neg hfull]
    by_cases hsome : r.transferred ≠ 0
    · rw [if_pos hsome, if_pos hsome]
      have hrest : (OutputBuffer.plain ((item.cells env).drop r.transferred)).Sound env :=
        fun a ha => hadjusted a (List.mem_of_mem_drop ha)
      have hlength : ((item.cells env).drop r.transferred).length = (buf.drop r.transferred).length := by
        rw [List.length_drop, List.length_drop, hitem]
      have hcells : BufsStorage.cells env (.plain ((item.cells env).drop r.transferred) :: items) =
          (item.cells env).drop r.transferred ++ BufsStorage.cells env items := BufsStorage.cells_cons ..
      have hleft := h.takesDirectly hconn (by simp) hdirect hgroup hinHand hclear r.transferred hcells
        (List.forall_mem_cons.2 ⟨hrest, hsounds⟩) (hcons hlength) false id cb log
      exact hleft.enqueue rfl (by simp) rfl .refl hrest hlength hitems id cb
    · rw [if_neg hsome, if_neg hsome]
      have hzero : r.transferred = 0 := by omega
      have hcells : BufsStorage.cells env (item :: items) =
          (item.cells env).drop r.transferred ++ BufsStorage.cells env items := by
        rw [hzero]
        exact BufsStorage.cells_cons ..
      have hleft := h.takesDirectly hconn (by simp) hdirect hgroup hinHand hclear r.transferred hcells
        (List.forall_mem_cons.2 ⟨hsound, hsounds⟩) (hcons hitem) false id cb log
      exact hleft.enqueue rfl (by simp) rfl .refl hsound hitem hitems id cb

/-! ## The front of the queue -/

theorem Phase.eq_nil (h : Phase env s frozen inHand) (hasync : s.conn.asyncWrite = none)
    (hpopping : .popWritten ∉ s.conn.stack) : frozen = [] ∧ inHand = [] ∧ s.transferred = 0 := by
  cases h with
  | idle async notPopping nothing => exact ⟨rfl, rfl, nothing⟩
  | inFlight first bufs async => exact absurd (async.symm.trans hasync) (Option.some_ne_none bufs)
  | written first async popping => exact absurd popping hpopping

/-- An asynchronous write was given what is left of the sequence in front. -/
theorem Phase.started {first : BufsStorage} {bufs : List Bytes} {n : Nat}
    (hdescriptors : Descriptor.readAll env first s.asioBufs = (BufsStorage.cells env first).drop n)
    (hasync : s.conn.asyncWrite = some bufs) (hpopping : .popWritten ∉ s.conn.stack)
    (hadjusted : ∀ a ∈ BufsStorage.cells env first, a.Adjusted env)
    (hlength : ((BufsStorage.cells env first).drop n).length = (bufs.map List.length).sum)
    (hnothing : s.transferred = 0) :
    Phase env s [first] ((BufsStorage.cells env first).drop n) := by
  have hphase : Phase env s [first] ((Descriptor.readAll env first s.asioBufs).drop s.transferred) := by
    refine .inFlight first bufs hasync hpopping ?_ ?_
    · rw [hdescriptors]
      exact fun a ha => hadjusted a (List.mem_of_mem_drop ha)
    · rw [hdescriptors]
      exact hlength
  rwa [hdescriptors, hnothing, List.drop_zero] at hphase

/-- The sequence in front is asked for its data. -/
theorem Live.described (h : Live env s [] waiting []) (hgroup : s.group = [])
    (hqueue : c'.writeQueue = Connection.setFront (Connection.front s.conn.writeQueue).makeAsioBufs s.conn.writeQueue)
    (hasync : c'.asyncWrite = s.conn.asyncWrite) (hpopping : .popWritten ∈ c'.stack ↔ .popWritten ∈ s.conn.stack)
    (hgroups : c'.groups = s.conn.groups) (hheld : heldSizes c'.stack = []) (hdoing : doing c'.stack ≠ .directWrite) :
    Live env { s with
      conn := c'
      queue := setFront ((front s.queue).map OutputBuffer.asioConstBuffer) s.queue
      asioBufs := Descriptor.all ((front s.queue).map OutputBuffer.asioConstBuffer) } []
      (setFront ((front s.queue).map OutputBuffer.asioConstBuffer) s.queue) [] := by
  have hne := h.queue_ne_nil
  obtain ⟨conn, group, queue, asioBufs, transferred, taken⟩ := s
  obtain rfl : group = [] := hgroup
  obtain rfl : queue = waiting := h.queue
  have hadjusted := BufsStorage.adjusted_asioConstBuffer h.sound.front
  refine ⟨rfl, List.cons_ne_nil _ _, ?_, h.sound.setFront (BufsStorage.sound_of_adjusted hadjusted), by simp, ?_,
    hheld.symm, ?_, h.adjusted, (absurd · hdoing), fun _ => ⟨rfl, hadjusted⟩⟩
  · cases h.phase with
    | idle async notPopping nothing => exact .idle (hasync.trans async) (mt hpopping.1 notPopping) nothing
  · change SameSizes env _ c'.writeQueue
    rw [hqueue]
    exact h.sizes.setFront ((BufsStorage.sizes_asioConstBuffer _).trans h.sizes.front)
  · change Intact env c'.groups _
    rw [hgroups]
    exact h.intact.rewritten (((rewritten_front hne).append_right _).append_left _)

/-- The socket takes the first bytes of the sequence in front, and the rest stays with a write or there is none. -/
theorem Live.frontOut (h : Live env s [] waiting [])
    (hadjusted : ∀ a ∈ BufsStorage.cells env (front s.queue), a.Adjusted env) (n : Nat)
    (hqueue : s'.queue = freezeFirst s.queue) (hgroup : s'.group = s.group)
    (htaken : s'.taken = s.taken ++ (BufsStorage.cells env (front s.queue)).take n)
    (hphase : Phase env s' [front s.queue] ((BufsStorage.cells env (front s.queue)).drop n))
    (hsizes : SameSizes env s'.queue s'.conn.writeQueue) (hheld : heldSizes s'.conn.stack = heldSizes s.conn.stack)
    (hgroups : s'.conn.groups = s.conn.groups) (hdoing : (doing s'.conn.stack).NoWrite) :
    ∃ frozen waiting' inHand, Live env s' frozen waiting' inHand := by
  obtain ⟨conn, group, queue, asioBufs, transferred, taken⟩ := s
  obtain rfl : queue = waiting := h.queue
  obtain ⟨rest, hfreeze, htakesMore, hsound, hcells⟩ := h.sound.freezeFirst h.takesMore
  refine ⟨_, rest, _, hqueue.trans hfreeze, htakesMore, hphase, hsound, hgroup ▸ h.groupSound, hsizes, ?_, ?_, ?_,
    (absurd · hdoing.1), (absurd · hdoing.2)⟩
  · rw [hgroup, hheld]
    exact h.groupSizes
  · have hintact := h.intact
    rw [hcells] at hintact
    rw [hgroups, hgroup, htaken, List.append_assoc, ← List.append_assoc (List.take n _), List.take_append_drop,
      ← List.append_assoc (BufsStorage.cells env _)]
    exact hintact
  · intro a ha
    rw [htaken] at ha
    exact (List.mem_append.1 ha).elim (h.adjusted a) fun ha => hadjusted a (List.mem_of_mem_take ha)

/-- A write begins, unless there is nothing to write or one is running. -/
theorem Live.initiateWrite (h : Live env s frozen waiting inHand) (hconn : s.conn = c.push .initiateWrite)
    (hbelow : ∀ f ∈ c.stack, f.isActive = false)
    (hidle : c.isWriteOperationRunning = false → c.asyncWrite = none ∧ .popWritten ∉ c.stack) :
    ∃ frozen' waiting' inHand', Live env { s.initiateWriteIfNecessary env with
      conn := Connection.initiateWriteIfNecessary env.toConnectionEnv c } frozen' waiting' inHand' := by
  obtain ⟨conn, group, queue, asioBufs, transferred, taken⟩ := s
  obtain rfl : conn = c.push .initiateWrite := hconn
  obtain rfl : group = [] := sizes_eq_nil h.groupSizes
  have hheld : heldSizes c.stack = [] := heldSizes_of_waiting hbelow
  have hdoing : doing c.stack = .nothing := (Connection.doing_of_waiting hbelow).1
  have hpopping : .popWritten ∈ c.stack ↔ .popWritten ∈ (c.push .initiateWrite).stack := by simp [Connection.push]
  have hnoWrite : (doing c.stack).NoWrite := by
    rw [hdoing]
    exact Doing.noWrite_nothing
  unfold initiateWriteIfNecessary Connection.initiateWriteIfNecessary
  dsimp only
  by_cases hrunning : c.isWriteOperationRunning = true
  · rw [if_pos (show (c.push _).isWriteOperationRunning = true from hrunning), if_pos hrunning]
    exact ⟨frozen, waiting, inHand, h.goesOn h.sizes rfl hpopping (Nat.le_refl _) hheld.symm hnoWrite⟩
  rw [if_neg (show ¬ (c.push _).isWriteOperationRunning = true from hrunning), if_neg hrunning]
  obtain ⟨hasync, hnotPopping⟩ := hidle (eq_false_of_ne_true hrunning)
  obtain ⟨rfl, rfl, hnothing⟩ := h.phase.eq_nil hasync (mt hpopping.2 hnotPopping)
  obtain rfl : queue = waiting := h.queue
  have hadjusted := BufsStorage.adjusted_asioConstBuffer h.sound.front
  let asked := (front queue).map OutputBuffer.asioConstBuffer
  let seq := (Connection.front c.writeQueue).makeAsioBufs
  have hsizes : BufsStorage.sizes env asked = seq.asioBufs.map List.length :=
    (BufsStorage.sizes_asioConstBuffer _).trans h.sizes.front
  have hgiven : Descriptor.readAll env asked (Descriptor.all asked) = BufsStorage.cells env asked :=
    Descriptor.readAll_all asked
  let made : BufferedConnection :=
    ⟨c.push .initiateWrite, [], setFront asked queue, Descriptor.all asked, transferred, taken⟩
  have htotal : (made.given env).length = seq.totalSize := by
    change (Descriptor.readAll env asked (Descriptor.all asked)).length = _
    rw [hgiven, BufsStorage.length_cells, hsizes]
    rfl
  have hempty : asked = [] ↔ seq.asioBufs = [] := by
    rw [← List.map_eq_nil_iff (f := List.length), ← hsizes]
    exact List.map_eq_nil_iff.symm
  by_cases hnil : asked = []
  · rw [if_pos hnil, if_pos (hempty.1 hnil)]
    exact ⟨_, _, _, h.described rfl rfl rfl hpopping rfl hheld (by simp [hdoing])⟩
  rw [if_neg hnil, if_neg (mt hempty.2 hnil)]
  by_cases hsmall : seq.totalSize ≤ env.quikSyncWriteHeuristicSize
  · rw [if_pos hsmall, if_pos (htotal.trans_le hsmall)]
    exact ⟨_, _, _, h.described rfl rfl rfl (by simp [Connection.push, Connection.emit]) rfl rfl
      (by simp [doing, Connection.push])⟩
  · rw [if_neg hsmall, if_neg fun hle => hsmall (htotal.symm.trans_le hle)]
    have hasked : Live env ⟨{ c with writeQueue := Connection.setFront seq c.writeQueue }, [], setFront asked queue,
        Descriptor.all asked, transferred, taken⟩ [] (setFront asked queue) [] :=
      h.described rfl rfl rfl hpopping rfl hheld (by simp [hdoing])
    refine hasked.frontOut hadjusted 0 rfl rfl (List.append_nil taken).symm ?_ hasked.sizes.freezeFirst rfl rfl hnoWrite
    exact .started hgiven rfl hnotPopping hadjusted ((congrArg List.length hgiven).symm.trans htotal) hnothing

end Live

end BufferedConnection

end Opio.Net
