/-
Adjustable buffers in runs in which no callback calls back. A buffer is asked for its data anew only as
long as nothing of it was taken, so that of each buffer the socket takes the beginning of one version,
also where a write ends with an error or the connection ends with a write in flight.
-/
import Opio.Net.BufferPhases
import Opio.Net.Successes

namespace Opio.Net

open scoped List

variable {env : AdjusterEnv}

namespace BufferedConnection

open StorageQueue
open Connection (Input Stands Calm Holds doing)

variable {s s' : BufferedConnection} {c c' : Connection}

section Live

variable {frozen waiting : StorageQueue} {inHand : List Cell}

/-! ## The ends of writes -/

/-- Of every buffer that has an adjuster, the socket took the beginning of what one call of it has written. -/
structure Snapshots (env : AdjusterEnv) (taken : List Cell) : Prop where
  whole : ∃ stream, (bufferVersions env).Whole stream ∧ taken <+: stream
  adjusted : ∀ a ∈ taken, a.Adjusted env

/-- What holds after each step: once a write has failed, there will be no other. -/
structure Kept (env : AdjusterEnv) (s : BufferedConnection) : Prop where
  snapshots : Snapshots env s.taken
  live : s.conn.destroyed = false → failedEntries s.conn.log = [] →
    ∃ frozen waiting inHand, Live env s frozen waiting inHand

theorem kept_of_live (h : ∃ frozen waiting inHand, Live env s frozen waiting inHand) : Kept env s := by
  refine ⟨?_, fun _ _ => h⟩
  obtain ⟨frozen, waiting, inHand, hlive⟩ := h
  exact ⟨⟨_, hlive.intact.whole, List.prefix_append ..⟩, hlive.adjusted⟩

/-- The socket takes more of what comes next, and that is all if the connection does not go on. -/
theorem Live.kept_of_end {next rest : List Cell} (h : Live env s frozen waiting inHand)
    (hnext : inHand ++ cells env waiting = next ++ rest) (hadjusted : ∀ a ∈ next, a.Adjusted env) (n : Nat)
    (htaken : s'.taken = s.taken ++ next.take n) (hend : s'.conn.destroyed = false → failedEntries s'.conn.log ≠ []) :
    Kept env s' := by
  refine ⟨⟨⟨_, h.intact.whole, ?_⟩, ?_⟩, fun halive hfailed => absurd hfailed (hend halive)⟩
  · rw [htaken, ← List.append_assoc inHand, hnext]
    refine (List.prefix_append_right_inj _).2 ?_
    exact ((List.take_prefix n next).trans (List.prefix_append ..)).trans (List.prefix_append ..)
  · intro a ha
    rw [htaken] at ha
    exact (List.mem_append.1 ha).elim (h.adjusted a) fun ha => hadjusted a (List.mem_of_mem_take ha)

theorem failedEntries_afterWrite (env : ConnectionEnv) (ec : ErrorCode) (c : Connection) :
    failedEntries (Connection.afterWrite env (some ec) c).log ≠ [] := by
  obtain ⟨gs, hfails⟩ := Connection.afterWrite_fails env ec c
  rw [hfails.log, failedEntries_append]
  exact List.append_ne_nil_of_right_ne_nil _ (List.cons_ne_nil c.popped [])

/-- A synchronous write of the front is over, or an asynchronous one goes on with it. -/
theorem Live.syncWritten {r : WriteResult} (h : Live env s frozen waiting inHand) (hconn : s.conn = c.push .syncWrite)
    (hbelow : ∀ f ∈ c.stack, f.isActive = false) (hasync : c.asyncWrite = none) (hnotPopping : .popWritten ∉ c.stack)
    (hdescriptors : (Connection.front c.writeQueue).asioBufs = (Connection.front c.writeQueue).bufsStorage)
    (hr : r.PossibleSync (Connection.front c.writeQueue).totalSize) :
    Kept env { s.syncWritten env r with conn := Connection.syncWritten env.toConnectionEnv r c } := by
  obtain ⟨conn, group, queue, asioBufs, transferred, taken⟩ := s
  obtain rfl : conn = c.push .syncWrite := hconn
  obtain rfl : group = [] := sizes_eq_nil h.groupSizes
  have hheld : heldSizes c.stack = [] := heldSizes_of_waiting hbelow
  have hnoWrite : (doing c.stack).NoWrite := by
    rw [(Connection.doing_of_waiting hbelow).1]
    exact Doing.noWrite_nothing
  obtain ⟨rfl, rfl, hnothing⟩ := h.phase.eq_nil hasync (by simpa [Connection.push] using hnotPopping)
  obtain rfl : queue = waiting := h.queue
  obtain ⟨rfl, hadjusted⟩ : asioBufs = Descriptor.all (front queue) ∧ _ := h.gather rfl
  have hgiven : given env ⟨c.push .syncWrite, [], queue, Descriptor.all (front queue), transferred, taken⟩ =
    BufsStorage.cells env (front queue) := Descriptor.readAll_all (front queue)
  have htotal : (BufsStorage.cells env (front queue)).length = (Connection.front c.writeQueue).totalSize := by
    have hsizes : BufsStorage.sizes env (front queue) = (Connection.front c.writeQueue).bufsStorage.map List.length :=
      h.sizes.front
    rw [BufsStorage.length_cells, hsizes, ← hdescriptors]
    rfl
  obtain ⟨rest, hfreeze, -, -, hcells⟩ := h.sound.freezeFirst h.takesMore
  -- the write has failed
  have hend : ∀ (ec : ErrorCode) (asioBufs' : List Descriptor) (c₁ : Connection),
      Kept env ⟨Connection.completeOperationNow env.toConnectionEnv (some ec) r.transferred c₁, [], freezeFirst queue,
        asioBufs', transferred, taken ++ (BufsStorage.cells env (front queue)).take r.transferred⟩ := by
    intro ec asioBufs' c₁
    exact h.kept_of_end hcells hadjusted r.transferred rfl fun _ => failedEntries_afterWrite _ ec _
  unfold BufferedConnection.syncWritten Connection.syncWritten
  dsimp only
  rw [hgiven]
  by_cases hblocks : r.ec ≠ some .wouldBlock
  · rw [if_pos hblocks, if_pos (.inl hblocks)]
    cases hec : r.ec with
    | none =>
      -- all was taken
      have hall : (BufsStorage.cells env (front queue)).length ≤ r.transferred := by
        unfold WriteResult.PossibleSync at hr
        rw [hec] at hr
        rw [htotal, hr]
      refine kept_of_live (h.frontOut hadjusted r.transferred rfl rfl rfl ?_ h.sizes.freezeFirst rfl rfl
        Doing.noWrite_nothing)
      rw [List.drop_eq_nil_of_le hall]
      exact .written _ hasync (List.mem_cons_of_mem _ (List.mem_cons_self ..)) hnothing
    | some ec => exact hend ec _ _
  · rw [if_neg hblocks]
    by_cases hover : (Connection.front c.writeQueue).totalSize ≤ r.transferred
    · rw [if_pos hover, if_pos (.inr (htotal.trans_le hover))]
      exact hend .syncWriteUnexpectedResults _ _
    · rw [if_neg hover, if_neg fun h' => h'.elim hblocks fun hle => hover (htotal.symm.trans_le hle)]
      let rest := skipTransferredPart (Connection.front c.writeQueue).asioBufs r.transferred
      have hrest : (Descriptor.readAll env (front queue) (Descriptor.skipTransferredPart env (front queue)
          (Descriptor.all (front queue)) r.transferred)) =
            (BufsStorage.cells env (front queue)).drop r.transferred := by
        rw [Descriptor.readAll_skipTransferredPart, Descriptor.readAll_all]
      have hlength : ((BufsStorage.cells env (front queue)).drop r.transferred).length =
        (rest.map List.length).sum := by
        rw [← List.length_flatten, flatten_skipTransferredPart, List.length_drop, List.length_drop, htotal,
          List.length_flatten]
        rfl
      refine kept_of_live (h.frontOut hadjusted r.transferred rfl rfl rfl ?_ ?_ hheld rfl hnoWrite)
      · exact .started hrest rfl hnotPopping hadjusted hlength hnothing
      · refine SameSizes.freezeFirst (h.sizes.remade h.takesMore ?_)
        rfl

/-- The socket takes the first bytes of what it has yet to take. -/
theorem Live.takesInHand (h : Live env s frozen waiting inHand) (hadjusted : ∀ a ∈ inHand, a.Adjusted env) (n : Nat)
    (hqueue : s'.queue = s.queue) (hgroup : s'.group = s.group) (htaken : s'.taken = s.taken ++ inHand.take n)
    (hphase : Phase env s' frozen (inHand.drop n)) (hsizes : s'.conn.writeQueue = s.conn.writeQueue)
    (hheld : heldSizes s'.conn.stack = heldSizes s.conn.stack) (hgroups : s'.conn.groups = s.conn.groups)
    (hdoing : (doing s'.conn.stack).NoWrite) : Live env s' frozen waiting (inHand.drop n) := by
  refine ⟨hqueue.trans h.queue, h.takesMore, hphase, h.sound, hgroup ▸ h.groupSound, ?_, ?_, ?_, ?_,
    (absurd · hdoing.1), (absurd · hdoing.2)⟩
  · rw [hqueue, hsizes]
    exact h.sizes
  · rw [hgroup, hheld]
    exact h.groupSizes
  · rw [hgroups, hgroup, htaken, List.append_assoc, ← List.append_assoc (List.take n _), List.take_append_drop]
    exact h.intact
  · intro a ha
    rw [htaken] at ha
    exact (List.mem_append.1 ha).elim (h.adjusted a) fun ha => hadjusted a (List.mem_of_mem_take ha)

/-- What an asynchronous write was given. -/
theorem Live.inFlight (h : Live env s frozen waiting inHand) {bufs : List Bytes}
    (hbufs : s.conn.asyncWrite = some bufs) :
    frozen = [front s.queue] ∧ inHand = (s.given env).drop s.transferred ∧ .popWritten ∉ s.conn.stack ∧
      (∀ a ∈ s.given env, a.Adjusted env) ∧ (s.given env).length = (bufs.map List.length).sum := by
  have hqueue := h.queue
  cases h.phase with
  | idle async => exact absurd (async.symm.trans hbufs) (Option.some_ne_none bufs).symm
  | inFlight first bufs' async notPopping adjusted length =>
    obtain rfl : bufs' = bufs := Option.some.inj (async.symm.trans hbufs)
    have hfront : front s.queue = first := by
      rw [hqueue]
      rfl
    rw [given, hfront]
    exact ⟨rfl, rfl, notPopping, adjusted, length⟩
  | written first async => exact absurd (async.symm.trans hbufs) (Option.some_ne_none bufs).symm

/-- An asynchronous write goes on. -/
theorem Live.asyncTakes {n : Nat} (h : Live env s frozen waiting inHand) (hdoing : (doing s.conn.stack).NoWrite)
    (htakes : s.asyncTakes env n = some s') : Kept env s' ∧ s'.conn = s.conn := by
  unfold BufferedConnection.asyncTakes at htakes
  split at htakes
  next hcan =>
    obtain rfl := Option.some.inj htakes
    obtain ⟨bufs, hbufs⟩ := Option.ne_none_iff_exists'.1 hcan.1
    obtain ⟨rfl, rfl, hnotPopping, hadjusted, hlength⟩ := h.inFlight hbufs
    refine ⟨kept_of_live ⟨_, waiting, _, h.takesInHand ?_ n rfl rfl rfl ?_ rfl rfl rfl hdoing⟩, rfl⟩
    · exact fun a ha => hadjusted a (List.mem_of_mem_drop ha)
    · rw [List.drop_drop]
      exact .inFlight (front s.queue) bufs hbufs hnotPopping hadjusted hlength
  next => cases htakes

/-- An asynchronous write is over. -/
theorem Live.asyncWritten {bufs : List Bytes} {r : WriteResult} (h : Live env s frozen waiting inHand)
    (hstack : s.conn.stack = []) (hbufs : s.conn.asyncWrite = some bufs)
    (hr : r.PossibleAsync (bufs.map List.length).sum) {s₁ : BufferedConnection}
    (hover : s.asyncOver env r.transferred = some s₁) :
    Kept env { s₁ with conn := Connection.asyncWritten env.toConnectionEnv bufs r s.conn } := by
  unfold asyncOver at hover
  split at hover
  next hle =>
    obtain rfl := Option.some.inj hover
    obtain ⟨rfl, rfl, -, hadjusted, hlength⟩ := h.inFlight hbufs
    have hinHand : ∀ a ∈ (s.given env).drop s.transferred, a.Adjusted env :=
      fun a ha => hadjusted a (List.mem_of_mem_drop ha)
    unfold Connection.asyncWritten
    cases hec : r.ec with
    | none =>
      have hall : ((s.given env).drop s.transferred).length ≤ r.transferred - s.transferred := by
        unfold WriteResult.PossibleAsync at hr
        rw [hec] at hr
        rw [List.length_drop, hlength, hr]
      have hheld : heldSizes s.conn.stack = [] := by
        rw [hstack]
        rfl
      refine kept_of_live ⟨_, waiting, _, h.takesInHand hinHand _ rfl rfl rfl ?_ rfl hheld.symm rfl
        Doing.noWrite_nothing⟩
      rw [List.drop_eq_nil_of_le hall]
      exact .written (front s.queue) rfl (List.mem_cons_of_mem _ (List.mem_cons_self ..)) rfl
    | some ec =>
      exact h.kept_of_end rfl hinHand _ rfl fun _ => failedEntries_afterWrite _ ec _
  next => cases hover

/-- The sequence in front leaves the queue. -/
theorem Live.popWritten (h : Live env s frozen waiting inHand) (hconn : s.conn = c.push .popWritten)
    (honce : .popWritten ∉ c.stack) :
    Kept env { s with queue := s.queue.tail, conn := Connection.popWritten c } := by
  obtain ⟨conn, group, queue, asioBufs, transferred, taken⟩ := s
  obtain rfl : conn = c.push .popWritten := hconn
  have hmem : .popWritten ∈ (c.push .popWritten).stack := List.mem_cons_self ..
  have hqueue := h.queue
  have hintact := h.intact
  refine kept_of_live ⟨[], waiting, [], ?_⟩
  cases h.phase with
  | idle async notPopping => exact absurd hmem notPopping
  | inFlight first bufs async notPopping => exact absurd hmem notPopping
  | written first async popping nothing =>
    obtain rfl : queue = first :: waiting := hqueue
    refine ⟨rfl, h.takesMore, .idle async ?_ nothing, h.sound, h.groupSound, h.sizes.tail, h.groupSizes, hintact,
      h.adjusted, (absurd · Doing.noWrite_initiating.1), (absurd · Doing.noWrite_initiating.2)⟩
    simpa [Connection.popWritten, Connection.push, Connection.emit] using honce

/-- A step that does nothing for sending. -/
theorem Live.still {evs : List Event} {gs base : List Frame} (h : Live env s frozen waiting inHand)
    (hstill : Connection.Still s.conn c' evs gs base) (hgroup : s.group = [])
    (hgs : ∀ g ∈ gs, g.isActive = false ∧ g ≠ .popWritten)
    (hbase : ∀ f ∈ base, f.isActive = false) (hpopping : .popWritten ∈ base ↔ .popWritten ∈ s.conn.stack) :
    Kept env { s with conn := c' } := by
  have hwaits : ∀ f ∈ c'.stack, f.isActive = false := by
    intro f hf
    rw [hstill.stack] at hf
    exact (List.mem_append.1 hf).elim (fun hf => (hgs f hf).1) (hbase f)
  have hsame := hstill.same
  refine kept_of_live ⟨frozen, waiting, inHand, h.goesOn ?_ hsame.asyncWrite ?_ (Nat.le_of_eq hstill.groups.symm) ?_ ?_⟩
  · rw [hsame.writeQueue]
    exact h.sizes
  · rw [hstill.stack, List.mem_append, ← hpopping]
    exact or_iff_right fun hmem => (hgs _ hmem).2 rfl
  · rw [heldSizes_of_waiting hwaits, hgroup]
    rfl
  · rw [(Connection.doing_of_waiting hwaits).1]
    exact Doing.noWrite_nothing

end Live

/-! ## Steps -/

section Steps

variable {s₁ : BufferedConnection} {i : Input}

/-- The end of an asynchronous write is a work item of its own. -/
theorem step_asyncWriteDone {env : ConnectionEnv} {r : WriteResult}
    (h : Connection.step env c (.item (.asyncWriteDone r)) = some c') :
    c.stack = [] ∧ ∃ bufs, c.asyncWrite = some bufs ∧ r.PossibleAsync (bufs.map List.length).sum ∧
      c' = Connection.asyncWritten env bufs r c := by
  obtain ⟨hstack, -, henters⟩ := Connection.enters_of_step h
  cases henters with
  | asyncWriteDone bufs r inFlight possible => exact ⟨hstack, bufs, inFlight, possible, rfl⟩

theorem heldSizes_of_isBystander {f : Frame} (h : f.isBystander = true) (fs : List Frame) :
    heldSizes (f :: fs) = [] := by
  cases f <;> first | rfl | cases h

theorem memory_of_isBystander {f : Frame} (h : f.isBystander = true) (hconn : s.conn = c.push f) (i : Input) :
    s.memory env i = some s := by
  unfold memory
  rw [hconn]
  cases f with
  | call call => cases call <;> first | rfl | cases h
  | _ => first | rfl | cases h

/-- Where no write is under way and none begins, the queue has nothing and nothing is in hand. -/
theorem Live.idle_of_direct {frozen waiting : StorageQueue} {inHand : List Cell} {f : Frame}
    (h : Live env s frozen waiting inHand) (hconn : s.conn = c.push f) (hstands : Stands (c.push f))
    (hdirect : doing [f] = .directWrite) (halone : c.stack = []) : inHand = [] ∧ cells env waiting = [] := by
  have hdoing : doing (c.push f).stack = .directWrite := (Connection.doing_cons f c.stack).trans hdirect
  have hf : f ≠ .popWritten := by
    rintro rfl
    cases hdirect
  have hpopping : .popWritten ∉ (c.push f).stack := by
    simp [Connection.push, halone, hf.symm]
  cases hstands with
  | idle core running async notPopping queue notGather clear bytes =>
    obtain ⟨rfl, rfl, -⟩ := h.phase.eq_nil (hconn ▸ async) (hconn ▸ hpopping)
    obtain ⟨seq, hqueue, hseq⟩ := clear (.inr (.inr hdoing))
    have hsizes := h.sizes
    rw [h.queue, List.nil_append, hconn, hqueue] at hsizes
    obtain ⟨storage, rest, rfl, hstorage, hrest⟩ := List.map_eq_cons_iff.1 hsizes
    obtain rfl : rest = [] := List.map_eq_nil_iff.1 hrest
    have hstorage : BufsStorage.sizes env storage = seq.bufsStorage.map List.length := hstorage
    rw [hseq] at hstorage
    obtain rfl : storage = [] := sizes_eq_nil hstorage
    exact ⟨rfl, rfl⟩
  | gather core running async notPopping queue gathers => rw [hdoing] at gathers; cases gathers
  | writing core bufs running async notPopping queue noWrite => exact absurd hdoing noWrite.1
  | popping core async once =>
    rw [List.count_eq_zero.2 hpopping] at once
    cases once
  | failed entries core hasFailed lost async notPopping queue bytes noWrite => exact absurd hdoing noWrite.1

/-- What a frame does to the buffers leaves them as the connection takes them to be. -/
theorem Live.resume {frozen waiting : StorageQueue} {inHand : List Cell} {f : Frame}
    (h : Live env s frozen waiting inHand)
    (hconn : s.conn = c.push f) (hcalm : Calm (c.push f)) (hstands : Stands (c.push f))
    (hstep : Connection.Resumes env.toConnectionEnv c f i c') (hmem : s.memory env i = some s₁) :
    Kept env { s₁ with conn := c' } := by
  have hbelow := hstands.inactive_below
  have hnoWrite : (doing c.stack).NoWrite := by
    rw [(Connection.doing_of_waiting hbelow).1]
    exact Doing.noWrite_nothing
  have halone : f.isSending = true → c.stack = [] :=
    fun hsends => (List.cons.inj (hcalm.alone f (List.mem_cons_self ..) hsends)).2
  have hgroup : heldSizes (c.push f).stack = [] → s.group = [] := by
    intro hheld
    refine sizes_eq_nil (h.groupSizes.trans ?_)
    rw [hconn]
    exact hheld
  -- frames that hold no buffers come and go, and the queue stays as it is
  have hcallbacks : ∀ {c' : Connection}, heldSizes (c.push f).stack = [] → heldSizes c'.stack = [] →
      c'.writeQueue = c.writeQueue → c'.asyncWrite = c.asyncWrite → c'.groups = c.groups →
      (.popWritten ∈ c'.stack ↔ .popWritten ∈ (c.push f).stack) → (doing c'.stack).NoWrite →
        Kept env { s with conn := c' } := by
    intro c' hheld hheld' hqueue hasync hgroups hpopping hdoing
    have hsizes := h.sizes
    rw [hconn] at hsizes
    refine kept_of_live ⟨frozen, waiting, inHand, h.goesOn ?_ ?_ ?_ ?_ ?_ hdoing⟩
    · rw [hqueue]
      exact hsizes
    · rw [hconn]
      exact hasync
    · rw [hconn]
      exact hpopping
    · rw [hconn]
      exact hgroups.ge
    · rw [hgroup hheld]
      exact hheld'.symm
  have hframe := hmem
  unfold memory at hframe
  rw [hconn] at hframe
  cases hstep with
  | bystander isBystander still pushed =>
    rw [memory_of_isBystander isBystander hconn] at hmem
    obtain rfl := Option.some.inj hmem
    refine h.still (hconn ▸ still) (hgroup (heldSizes_of_isBystander isBystander c.stack))
      (fun g hg => (pushed g hg).quiet) hbelow ?_
    rw [hconn]
    exact Connection.mem_popWritten_iff [] (Connection.isActive_of_isBystander isBystander).2 (by simp) rfl
  | send call =>
    obtain rfl := Option.some.inj hframe
    exact kept_of_live ⟨frozen, waiting, inHand, h.send hconn (halone rfl)⟩
  | append bufs beAggressive id cb =>
    obtain rfl := Option.some.inj hframe
    obtain ⟨waiting', hlive⟩ := h.append hconn (halone rfl)
    exact kept_of_live ⟨frozen, waiting', inHand, hlive⟩
  | aggressiveWrite buf bufs id cb r possible =>
    obtain rfl := Option.some.inj hframe
    obtain ⟨hinHand, hclear⟩ := h.idle_of_direct hconn hstands rfl (halone rfl)
    obtain ⟨waiting', hlive⟩ := h.aggressiveWritten r hconn hinHand hclear
    exact kept_of_live ⟨frozen, waiting', inHand, hlive⟩
  | initiateWrite =>
    obtain rfl := Option.some.inj hframe
    exact kept_of_live (h.initiateWrite hconn hbelow fun hidle =>
      ⟨(hstands.initiating hidle).async, (hstands.initiating hidle).notPopping⟩)
  | syncWrite r possible =>
    obtain rfl := Option.some.inj hframe
    obtain ⟨hwritable, hdescriptors⟩ := hstands.gathering
    exact h.syncWritten hconn hbelow hwritable.async hwritable.notPopping hdescriptors possible
  | called res id ids cs =>
    obtain rfl := Option.some.inj hframe
    refine hcallbacks rfl rfl rfl rfl rfl ?_ Doing.noWrite_nothing
    exact Connection.mem_popWritten_iff [.reaction cs, .runCallbacks res ids] (by simp) (by simp) rfl
  | callbacksDone res =>
    obtain rfl := Option.some.inj hframe
    refine hcallbacks rfl (heldSizes_of_waiting hbelow) rfl rfl rfl ?_ hnoWrite
    exact Connection.mem_popWritten_iff [] (by simp) (by simp) rfl
  | popWritten =>
    obtain rfl := Option.some.inj hframe
    exact h.popWritten hconn (hstands.notMem_popWritten)

/-- A work item begins that is neither the end of a write nor of the connection. -/
theorem Live.begin {frozen waiting : StorageQueue} {inHand : List Cell} {item : Connection.Item}
    (h : Live env s frozen waiting inHand) (hstack : s.conn.stack = []) (hdone : ∀ r, item ≠ .asyncWriteDone r)
    (hdestroy : ∀ n, item ≠ .destroy n) (hbegin : Connection.Begins env.toConnectionEnv s.conn item c') :
    Kept env { s with conn := c' } := by
  have hgroup : s.group = [] := by
    refine sizes_eq_nil (h.groupSizes.trans ?_)
    rw [hstack]
    rfl
  cases hbegin with
  | call call =>
    refine kept_of_live ⟨frozen, waiting, inHand, h.goesOn h.sizes rfl ?_ (Nat.le_refl _) ?_ ?_⟩
    · simp [Connection.push]
    · rw [hgroup]
      rfl
    · exact Doing.noWrite_nothing
  | bystander still bystanders =>
    refine h.still still hgroup (fun g hg => Connection.isActive_of_isBystander (bystanders g hg).1) ?_ (Iff.refl _)
    simp [hstack]
  | asyncWrite bufs r => exact absurd rfl (hdone r)
  | destroy n => exact absurd rfl (hdestroy n)

theorem memory_of_item {item : Connection.Item} (hstack : s.conn.stack = []) (hdone : ∀ r, item ≠ .asyncWriteDone r)
    (hdestroy : ∀ n, item ≠ .destroy n) : s.memory env (.item item) = some s := by
  unfold memory
  rw [hstack]
  cases item with
  | asyncWriteDone r => exact absurd rfl (hdone r)
  | destroy n => exact absurd rfl (hdestroy n)
  | _ => rfl

theorem Live.destroy {frozen waiting : StorageQueue} {inHand : List Cell} {n : Nat}
    (h : Live env s frozen waiting inHand)
    (hstack : s.conn.stack = []) (hmem : s.memory env (.item (.destroy n)) = some s₁) :
    Kept env { s₁ with conn := Connection.destroy n s.conn } := by
  have hgone : (Connection.destroy n s.conn).destroyed = false →
      failedEntries (Connection.destroy n s.conn).log ≠ [] := fun halive => by cases halive
  unfold memory at hmem
  rw [hstack] at hmem
  dsimp only at hmem
  cases hasync : s.conn.asyncWrite with
  | none =>
    rw [hasync] at hmem
    obtain rfl := Option.some.inj hmem
    exact h.kept_of_end (List.nil_append _).symm (by simp) 0 (List.append_nil s.taken).symm hgone
  | some bufs =>
    rw [hasync] at hmem
    obtain ⟨s₂, hover, rfl⟩ := Option.map_eq_some_iff.1 hmem
    unfold asyncOver at hover
    split at hover
    next hle =>
      obtain rfl := Option.some.inj hover
      obtain ⟨-, rfl, -, hadjusted, -⟩ := h.inFlight hasync
      exact h.kept_of_end rfl (fun a ha => hadjusted a (List.mem_of_mem_drop ha)) _ rfl hgone
    next => cases hover

theorem Live.step {frozen waiting : StorageQueue} {inHand : List Cell} (h : Live env s frozen waiting inHand)
    (hcalm : Calm s.conn) (hstands : Stands s.conn) (hstep : Connection.step env.toConnectionEnv s.conn i = some c')
    (hmem : s.memory env i = some s₁) : Kept env { s₁ with conn := c' } := by
  rcases Connection.step_cases hstep with ⟨item, rfl, hstack, -, hbegin⟩ | ⟨f, c₀, hconn, hresume⟩
  · by_cases hdone : ∃ r, item = .asyncWriteDone r
    · obtain ⟨r, rfl⟩ := hdone
      obtain ⟨-, bufs, hbufs, hr, rfl⟩ := step_asyncWriteDone hstep
      unfold memory at hmem
      rw [hstack] at hmem
      exact h.asyncWritten hstack hbufs hr hmem
    by_cases hdestroy : ∃ n, item = .destroy n
    · obtain ⟨n, rfl⟩ := hdestroy
      obtain ⟨-, -, rfl⟩ := Connection.step_destroy hstep
      exact h.destroy hstack hmem
    · rw [memory_of_item hstack (fun r hr => hdone ⟨r, hr⟩) (fun n hn => hdestroy ⟨n, hn⟩)] at hmem
      obtain rfl := Option.some.inj hmem
      exact h.begin hstack (fun r hr => hdone ⟨r, hr⟩) (fun n hn => hdestroy ⟨n, hn⟩) hbegin
  · exact h.resume hconn (hconn ▸ hcalm) (hconn ▸ hstands) hresume hmem

/-! ## After a write has failed -/

theorem taken_scheduleSend (call : SendCall) (s : BufferedConnection) : (s.scheduleSend env call).taken = s.taken := by
  unfold scheduleSend
  split <;> rfl

theorem taken_append (beAggressive : Bool) (s : BufferedConnection) : (s.append env beAggressive).taken = s.taken := by
  unfold BufferedConnection.append
  split
  · rfl
  split
  · dsimp only
    split <;> rfl
  · rfl

theorem taken_initiateWriteIfNecessary (s : BufferedConnection) :
    (s.initiateWriteIfNecessary env).taken = s.taken := by
  unfold initiateWriteIfNecessary
  split
  · rfl
  dsimp only
  split
  · rfl
  split <;> rfl

/-- With no write under way the socket takes nothing. -/
theorem taken_of_noWrite (hasync : s.conn.asyncWrite = none) (hdoing : (doing s.conn.stack).NoWrite)
    (hstep : Connection.step env.toConnectionEnv s.conn i = some c') (hmem : s.memory env i = some s₁) :
    s₁.taken = s.taken := by
  unfold memory at hmem
  split at hmem
  next r hstack =>
    obtain ⟨-, bufs, hbufs, -⟩ := step_asyncWriteDone hstep
    exact absurd (hasync.symm.trans hbufs) (Option.some_ne_none bufs).symm
  next n hstack =>
    rw [hasync] at hmem
    obtain rfl := Option.some.inj hmem
    rfl
  next =>
    obtain rfl := Option.some.inj hmem
    exact taken_scheduleSend _ s
  next =>
    obtain rfl := Option.some.inj hmem
    exact taken_append _ s
  next hstack =>
    rw [hstack] at hdoing
    exact absurd rfl hdoing.1
  next =>
    obtain rfl := Option.some.inj hmem
    exact taken_initiateWriteIfNecessary s
  next hstack =>
    rw [hstack] at hdoing
    exact absurd rfl hdoing.2
  next =>
    obtain rfl := Option.some.inj hmem
    rfl
  next =>
    obtain rfl := Option.some.inj hmem
    rfl

/-- Once a write has failed, one has failed. -/
theorem step_failed {env : ConnectionEnv} (hdestroy : ∀ n, i ≠ .item (.destroy n))
    (hstep : Connection.step env c i = some c') (hfailed : failedEntries c.log ≠ []) : failedEntries c'.log ≠ [] := by
  obtain ⟨evs, hreports⟩ := Connection.step_reports hdestroy hstep
  rw [hreports.log, failedEntries_append]
  exact List.append_ne_nil_of_left_ne_nil hfailed _

theorem Kept.step (h : Kept env s) (hcalm : Calm s.conn) (hholds : Holds s.conn)
    (hstep : Connection.step env.toConnectionEnv s.conn i = some c') (hmem : s.memory env i = some s₁) :
    Kept env { s₁ with conn := c' } := by
  have halive := Connection.step_alive hholds hstep
  have hstands := hholds.stands halive
  by_cases hfailed : failedEntries s.conn.log = []
  · obtain ⟨frozen, waiting, inHand, hlive⟩ := h.live halive hfailed
    exact hlive.step hcalm hstands hstep hmem
  · obtain ⟨hasync, hdoing⟩ := hstands.noWrite_of_failed hfailed
    refine ⟨?_, fun halive' hnone => ?_⟩
    · change Snapshots env s₁.taken
      rw [taken_of_noWrite hasync hdoing hstep hmem]
      exact h.snapshots
    · refine absurd hnone (step_failed ?_ hstep hfailed)
      rintro n rfl
      obtain ⟨-, -, rfl⟩ := Connection.step_destroy hstep
      cases halive'

end Steps

/-! ## Runs -/

/-- No callback makes calls. -/
def Action.callsNothing : Action → Bool
  | .goesOn i => i.callsNothing
  | .takes _ => true

/-- What the connection gets from outside. -/
def Action.input? : Action → Option Input
  | .goesOn i => some i
  | .takes _ => none

theorem step_goesOn {i : Input} (h : step env s (.goesOn i) = some s') :
    ∃ c' s₁, Connection.step env.toConnectionEnv s.conn i = some c' ∧ s.memory env i = some s₁ ∧
      s' = { s₁ with conn := c' } := by
  unfold step at h
  dsimp only at h
  split at h
  next c' s₁ hconn hmem => exact ⟨c', s₁, hconn, hmem, (Option.some.inj h).symm⟩
  · cases h

theorem conn_of_takes {n : Nat} (h : step env s (.takes n) = some s') : s'.conn = s.conn := by
  have htakes : s.asyncTakes env n = some s' := h
  unfold asyncTakes at htakes
  split at htakes
  · obtain rfl := Option.some.inj htakes
    rfl
  · cases htakes

/-- The connection of a run goes through a run of its own. -/
theorem execute_conn (env : AdjusterEnv) : ∀ (actions : List Action) {s s' : BufferedConnection},
    execute (step env) s actions = some s' →
      execute (Connection.step env.toConnectionEnv) s.conn (actions.filterMap Action.input?) = some s'.conn
  | [], s, s', h => congrArg (Option.map BufferedConnection.conn) h
  | a :: actions, s, s', h => by
    rw [execute] at h
    cases hstep : step env s a with
    | none =>
      rw [hstep] at h
      cases h
    | some s₁ =>
      rw [hstep] at h
      have hrest := execute_conn env actions h
      cases a with
      | goesOn i =>
        obtain ⟨c', s₂, hconn, -, rfl⟩ := step_goesOn hstep
        exact (execute_cons hconn _).trans hrest
      | takes n =>
        rw [conn_of_takes hstep] at hrest
        exact hrest

/-- Where an asynchronous write takes nothing before it is over, the memory follows every step. -/
theorem memory_total (env : AdjusterEnv) (i : Input) (hnothing : s.transferred = 0) :
    ∃ s₁, s.memory env i = some s₁ ∧ s₁.transferred = 0 := by
  have hover : ∀ n, ∃ s₁, s.asyncOver env n = some s₁ ∧ s₁.transferred = 0 := by
    intro n
    unfold asyncOver
    rw [if_pos (hnothing ▸ Nat.zero_le n)]
    exact ⟨_, rfl, rfl⟩
  unfold memory
  split
  · exact hover _
  · split
    next n _ _ _ _ =>
      obtain ⟨s₁, hs₁, hzero⟩ := hover n
      rw [hs₁]
      exact ⟨_, rfl, hzero⟩
    · exact ⟨_, rfl, hnothing⟩
  next call _ _ =>
    refine ⟨_, rfl, ?_⟩
    unfold scheduleSend
    split <;> exact hnothing
  next beAggressive _ _ _ _ =>
    refine ⟨_, rfl, ?_⟩
    unfold BufferedConnection.append
    split
    · exact hnothing
    split
    · dsimp only
      split <;> exact hnothing
    · exact hnothing
  next r _ =>
    refine ⟨_, rfl, ?_⟩
    unfold BufferedConnection.aggressiveWritten
    split
    · exact hnothing
    dsimp only
    split
    · exact hnothing
    split <;> exact hnothing
  · refine ⟨_, rfl, ?_⟩
    unfold initiateWriteIfNecessary
    split
    · exact hnothing
    dsimp only
    split
    · exact hnothing
    split <;> exact hnothing
  · exact ⟨_, rfl, hnothing⟩
  · exact ⟨_, rfl, hnothing⟩
  · exact ⟨_, rfl, hnothing⟩

/-- Every run of a connection is the run of one with its memory. -/
theorem exists_execute_conn (env : AdjusterEnv) : ∀ (inputs : List Input) {s : BufferedConnection},
    s.transferred = 0 → execute (Connection.step env.toConnectionEnv) s.conn inputs = some c →
      ∃ s', execute (step env) s (inputs.map .goesOn) = some s' ∧ s'.conn = c
  | [], s, _, h => ⟨s, rfl, Option.some.inj h⟩
  | i :: inputs, s, hnothing, h => by
    rw [execute] at h
    cases hconn : Connection.step env.toConnectionEnv s.conn i with
    | none =>
      rw [hconn] at h
      cases h
    | some c₁ =>
      rw [hconn] at h
      obtain ⟨s₁, hmem, hnothing₁⟩ := memory_total env i hnothing
      have hstep : step env s (.goesOn i) = some { s₁ with conn := c₁ } := by
        unfold BufferedConnection.step
        dsimp only
        rw [hconn, hmem]
      obtain ⟨s', hrun, hs'⟩ := exists_execute_conn env inputs (s := { s₁ with conn := c₁ }) hnothing₁ h
      exact ⟨s', (execute_cons hstep _).trans hrun, hs'⟩

/-- What holds of a connection and its memory. -/
structure Sends (env : AdjusterEnv) (s : BufferedConnection) : Prop where
  calm : Calm s.conn
  holds : Holds s.conn
  kept : Kept env s

theorem sends_init (env : AdjusterEnv) : Sends env {} where
  calm := Connection.calm_init
  holds := .inl Connection.stands_init
  kept := by
    refine kept_of_live ⟨[], [[]], [], ?_⟩
    refine ⟨rfl, List.cons_ne_nil [] [], .idle rfl (by simp) rfl, sound_singleton (by simp), by simp, rfl, rfl,
      ⟨Versions.whole_nil, ?_⟩, by simp, (absurd · Doing.noWrite_nothing.1), (absurd · Doing.noWrite_nothing.2)⟩
    intro a ha
    cases ha

theorem Sends.step {a : Action} (h : Sends env s) (ha : a.callsNothing = true) (hstep : step env s a = some s') :
    Sends env s' := by
  cases a with
  | goesOn i =>
    obtain ⟨c', s₁, hconn, hmem, rfl⟩ := step_goesOn hstep
    obtain ⟨hcalm, hholds⟩ := Connection.step_calm_holds ⟨h.calm, h.holds⟩ ha hconn
    exact ⟨hcalm, hholds, h.kept.step h.calm h.holds hconn hmem⟩
  | takes n =>
    have hconn := conn_of_takes hstep
    refine ⟨hconn ▸ h.calm, hconn ▸ h.holds, ?_⟩
    have htakes : s.asyncTakes env n = some s' := hstep
    obtain ⟨hasync, halive⟩ : s.conn.asyncWrite ≠ none ∧ s.conn.destroyed = false := by
      unfold asyncTakes at htakes
      split at htakes
      next hcan => exact ⟨hcan.1, hcan.2.1⟩
      · cases htakes
    obtain ⟨hfailed, hdoing⟩ := (h.holds.stands halive).noWrite_of_inFlight hasync
    obtain ⟨frozen, waiting, inHand, hlive⟩ := h.kept.live halive hfailed
    exact (hlive.asyncTakes hdoing htakes).1

/-- Of a buffer that has an adjuster, what the socket took is the beginning of the content that one call
of the adjuster has written. -/
theorem Snapshots.one_call {taken : List Cell} (h : Snapshots env taken) {b : SentBuffer}
    (hadjustable : env.isAdjustable b = true) :
    ∃ call, (∀ a ∈ taken, a.origin = b → a.call = some call) ∧
      (taken.filter (·.origin = b)).map Cell.byte <+: BufferedConnection.adjusted env b call := by
  obtain ⟨stream, hwhole, hprefix⟩ := h.whole
  have hmem : ∀ a ∈ taken, a.origin = b → a ∈ taken.filter (·.origin = b) :=
    fun a ha horigin => List.mem_filter.2 ⟨ha, decide_eq_true horigin⟩
  rcases hwhole.of_prefix hprefix b with hnil | ⟨version, hversion⟩
  · have hnil : taken.filter (·.origin = b) = [] := hnil
    refine ⟨0, fun a ha horigin => ?_, ?_⟩
    · have ha := hmem a ha horigin
      rw [hnil] at ha
      cases ha
    · rw [hnil]
      exact List.nil_prefix
  have hversion : taken.filter (·.origin = b) <+: bufferContents env b version := hversion
  have hcall : ∀ a ∈ taken, a.origin = b → a.call = version :=
    fun a ha horigin => (mem_bufferContents (hversion.subset (hmem a ha horigin))).2
  cases version with
  | none =>
    -- the bytes as they were sent, of which none was taken
    have hnone : ∀ a ∈ taken, a.origin ≠ b :=
      fun a ha horigin => h.adjusted a ha (horigin ▸ hadjustable) (hcall a ha horigin)
    refine ⟨0, fun a ha horigin => absurd horigin (hnone a ha), ?_⟩
    rw [List.filter_eq_nil_iff.2 fun a ha => by simpa using hnone a ha]
    exact List.nil_prefix
  | some call =>
    refine ⟨call, hcall, ?_⟩
    have hbytes := hversion.map Cell.byte
    unfold bufferContents at hbytes
    rw [List.map_map] at hbytes
    exact hbytes

/-- An adjustable buffer is sent as one snapshot, in every run in which no callback calls back. -/
theorem sent_as_one_snapshot (env : AdjusterEnv) {actions : List Action}
    (hactions : ∀ a ∈ actions, a.callsNothing = true) (hrun : execute (step env) {} actions = some s) (b : SentBuffer)
    (hadjustable : env.isAdjustable b = true) :
    ∃ call, (∀ a ∈ s.taken, a.origin = b → a.call = some call) ∧ s.takenOf b <+: adjusted env b call := by
  have h : Sends env s := execute_invariant (I := Sends env) (fun _ _ _ h ha hstep => h.step ha hstep) actions
    (sends_init env) (Along.of_forall hactions) hrun
  exact h.kept.snapshots.one_call hadjustable

/-- All buffers write the number of the call and the place. The first goes out directly by half, and the
rest of it by a gather write and an asynchronous one; meanwhile the last one of its group is merged with
the one before, and half of it is taken later. -/
theorem sent_as_one_snapshot_merged : ∃ (env : AdjusterEnv) (s : BufferedConnection),
    s.takenOf ⟨0, 0, [1, 2, 3, 4]⟩ = [16, 17, 18, 19] ∧ s.takenOf ⟨0, 3, [9, 9]⟩ = [32] ∧
      ∃ call, (∀ a ∈ s.taken, a.origin = ⟨0, 3, [9, 9]⟩ → a.call = some call) ∧
        s.takenOf ⟨0, 3, [9, 9]⟩ <+: adjusted env ⟨0, 3, [9, 9]⟩ call := by
  let env : AdjusterEnv :=
    ⟨⟨64, 2, by decide, false, false⟩, fun _ => true, fun _ call place => UInt8.ofNat (16 * (call + 1) + place), true⟩
  let actions : List Action := [.goesOn (.item (.call (.send { bufs := [[1, 2, 3, 4], [5, 6], [7, 8], [9, 9]] }))),
    .goesOn .none, .goesOn .none, .goesOn (.result ⟨some .wouldBlock, 1⟩), .goesOn .none, .goesOn .none, .goesOn .none,
    .goesOn .none, .goesOn .none, .goesOn (.result ⟨some .wouldBlock, 1⟩), .takes 2,
    .goesOn (.item (.call (.send { bufs := [[10, 10]] }))), .goesOn .none, .goesOn .none, .goesOn .none, .goesOn .none,
    .goesOn (.item (.asyncWriteDone ⟨none, 4⟩)), .goesOn .none, .goesOn .none, .goesOn .none,
    .goesOn (.result ⟨some .wouldBlock, 3⟩)]
  obtain ⟨s, hrun, hfirst, hlast⟩ := exists_execute (step env) {} actions
    (fun s => s.takenOf ⟨0, 0, [1, 2, 3, 4]⟩ = [16, 17, 18, 19] ∧ s.takenOf ⟨0, 3, [9, 9]⟩ = [32]) (by decide +kernel)
  exact ⟨env, s, hfirst, hlast, sent_as_one_snapshot env (by decide) hrun ⟨0, 3, [9, 9]⟩ rfl⟩

end BufferedConnection

end Opio.Net
