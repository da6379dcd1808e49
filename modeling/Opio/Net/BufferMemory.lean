/-
What the operations on buffers do to their memory. Wherever buffers are asked for their data a version
comes in the place of another, and otherwise bytes are moved from buffer to buffer in their order. The
buffers go on having the sizes that the connection sees.
-/
import Opio.Net.AdjustableBuffers
import Opio.Net.WriteQueue

namespace Opio.Net

variable {env : AdjusterEnv}

/-! ## Versions -/

theorem mem_bufferContents {b : SentBuffer} {call : Option Nat} {a : Cell} (h : a ∈ bufferContents env b call) :
    a.origin = b ∧ a.call = call := by
  cases call with
  | none =>
    obtain ⟨byte, -, rfl⟩ := List.mem_map.1 h
    exact ⟨rfl, rfl⟩
  | some call =>
    obtain ⟨place, -, rfl⟩ := List.mem_map.1 h
    exact ⟨rfl, rfl⟩

theorem length_bufferContents (env : AdjusterEnv) (b : SentBuffer) (call : Option Nat) :
    (bufferContents env b call).length = b.bytes.length := by
  cases call with
  | none => exact List.length_map _
  | some call => exact (List.length_map _).trans List.length_range

/-- A buffer as it was sent and as each call of its adjuster leaves it. -/
def bufferVersions (env : AdjusterEnv) : Versions Cell SentBuffer (Option Nat) where
  origin := Cell.origin
  contents := bufferContents env
  origin_eq _ _ _ h := (mem_bufferContents h).1
  length_eq b call call' := (length_bufferContents env b call).trans (length_bufferContents env b call').symm

/-- The adjuster has written it, if there is one. -/
def Cell.Adjusted (env : AdjusterEnv) (a : Cell) : Prop := env.isAdjustable a.origin = true → a.call ≠ none

namespace OutputBuffer

/-- What was copied was asked for before. -/
def Sound (env : AdjusterEnv) : OutputBuffer → Prop
  | plain cells => ∀ a ∈ cells, a.Adjusted env
  | adjustable _ _ => True

theorem sound_of_adjusted {buf : OutputBuffer} (h : ∀ a ∈ buf.cells env, a.Adjusted env) : buf.Sound env := by
  cases buf with
  | plain cells => exact h
  | adjustable b calls => trivial

/-- Asking for the data changes the version. -/
theorem rewritten_asioConstBuffer (buf : OutputBuffer) :
    (bufferVersions env).Rewritten (buf.cells env) (buf.asioConstBuffer.cells env) := by
  cases buf with
  | plain cells => exact .refl
  | adjustable b calls =>
    cases calls with
    | zero => exact Versions.rewritten_contents (V := bufferVersions env) b none (some 0)
    | succ calls => exact Versions.rewritten_contents (V := bufferVersions env) b (some calls) (some (calls + 1))

theorem length_asioConstBuffer (buf : OutputBuffer) :
    (buf.asioConstBuffer.cells env).length = (buf.cells env).length := buf.rewritten_asioConstBuffer.length

theorem Sound.adjusted {buf : OutputBuffer} (h : buf.Sound env) :
    ∀ a ∈ buf.asioConstBuffer.cells env, a.Adjusted env := by
  cases buf with
  | plain cells => exact h
  | adjustable b calls =>
    intro a ha _
    have ha : a ∈ bufferContents env b (some calls) := ha
    rw [(mem_bufferContents ha).2]
    exact Option.some_ne_none calls

theorem Sound.asioConstBuffer {buf : OutputBuffer} (h : buf.Sound env) : buf.asioConstBuffer.Sound env :=
  sound_of_adjusted h.adjusted

theorem cells_make (b : SentBuffer) : (make env b).cells env = bufferContents env b none := by
  unfold make
  split <;> rfl

theorem sound_make (b : SentBuffer) : (make env b).Sound env := by
  unfold make
  split
  · trivial
  next hplain =>
    intro a ha hadjustable
    rw [(mem_bufferContents ha).1] at hadjustable
    exact absurd hadjustable hplain

end OutputBuffer

/-! ## Sequences -/

namespace BufsStorage

@[simp] theorem cells_nil : cells env [] = [] := rfl

@[simp] theorem cells_cons (buf : OutputBuffer) (storage : BufsStorage) :
    cells env (buf :: storage) = buf.cells env ++ cells env storage := List.flatMap_cons

@[simp] theorem cells_append (storage storage' : BufsStorage) :
    cells env (storage ++ storage') = cells env storage ++ cells env storage' := List.flatMap_append

/-- The sizes of the buffers. -/
def sizes (env : AdjusterEnv) (storage : BufsStorage) : List Nat := storage.map fun buf => (buf.cells env).length

theorem length_cells (storage : BufsStorage) : (cells env storage).length = (sizes env storage).sum :=
  List.length_flatMap

theorem rewritten_asioConstBuffer : ∀ storage : BufsStorage,
    (bufferVersions env).Rewritten (cells env storage) (cells env (storage.map OutputBuffer.asioConstBuffer))
  | [] => .refl
  | buf :: storage => by
    rw [List.map_cons, cells_cons, cells_cons]
    exact buf.rewritten_asioConstBuffer.append (rewritten_asioConstBuffer storage)

theorem sizes_asioConstBuffer (storage : BufsStorage) :
    sizes env (storage.map OutputBuffer.asioConstBuffer) = sizes env storage := by
  unfold sizes
  rw [List.map_map]
  exact List.map_congr_left fun buf _ => buf.length_asioConstBuffer

theorem adjusted_asioConstBuffer {storage : BufsStorage} (h : ∀ buf ∈ storage, buf.Sound env) :
    ∀ a ∈ cells env (storage.map OutputBuffer.asioConstBuffer), a.Adjusted env := by
  intro a ha
  obtain ⟨buf', hbuf', ha⟩ := List.mem_flatMap.1 ha
  obtain ⟨buf, hbuf, rfl⟩ := List.mem_map.1 hbuf'
  exact (h buf hbuf).adjusted a ha

theorem sound_of_adjusted {storage : BufsStorage} (h : ∀ a ∈ cells env storage, a.Adjusted env) :
    ∀ buf ∈ storage, buf.Sound env :=
  fun buf hbuf => OutputBuffer.sound_of_adjusted fun a ha => h a (List.mem_flatMap.2 ⟨buf, hbuf, ha⟩)

theorem cells_merge (group : BufsStorage) : (merge env group).cells env = cells env group := by
  unfold merge
  split
  next buf => rw [cells_cons, cells_nil, List.append_nil]
  · rfl

theorem cells_concatGroups (maxSize : Nat) : ∀ (bufs : List OutputBuffer) (group : BufsStorage),
    cells env (concatGroups env maxSize group bufs) = cells env group ++ cells env bufs
  | [], group => by
    rw [concatGroups, cells_cons, cells_merge]
  | buf :: bufs, group => by
    unfold concatGroups
    split
    · rw [cells_concatGroups maxSize bufs, cells_append, cells_cons, cells_cons, cells_nil, List.append_nil,
        List.append_assoc]
    · rw [cells_cons, cells_merge, cells_concatGroups maxSize bufs, cells_cons, cells_cons, cells_nil, List.append_nil]

/-- Concatenation makes buffers of the same sizes here and there. -/
theorem sizes_concatGroups (maxSize : Nat) : ∀ (storage : List OutputBuffer) (bufs : List Bytes) (group : BufsStorage)
    (group' : Bytes), sizes env storage = bufs.map List.length → (cells env group).length = group'.length →
      sizes env (concatGroups env maxSize group storage) =
        (SingleWritableSequence.concatGroups maxSize group' bufs).map List.length
  | [], [], group, group', _, hgroup => by
    change [((merge env group).cells env).length] = [group'.length]
    rw [cells_merge, hgroup]
  | [], _ :: _, _, _, hsizes, _ => nomatch hsizes
  | _ :: _, [], _, _, hsizes, _ => nomatch hsizes
  | item :: storage, buf :: bufs, group, group', hsizes, hgroup => by
    obtain ⟨hitem, hsizes⟩ : (item.cells env).length = buf.length ∧ sizes env storage = bufs.map List.length :=
      List.cons.inj hsizes
    unfold concatGroups SingleWritableSequence.concatGroups
    rw [hitem, hgroup]
    split
    · refine sizes_concatGroups maxSize storage bufs _ _ hsizes ?_
      rw [cells_append, cells_cons, cells_nil, List.append_nil, List.length_append, List.length_append, hitem, hgroup]
    · rw [List.map_cons, ← sizes_concatGroups maxSize storage bufs [item] buf hsizes ?_]
      · change ((merge env group).cells env).length :: _ = _
        rw [cells_merge, hgroup]
        rfl
      · rw [cells_cons, cells_nil, List.append_nil]
        exact hitem

theorem rewritten_concatSmallBuffers (maxSize : Nat) (storage : BufsStorage) :
    (bufferVersions env).Rewritten (cells env storage) (cells env (storage.concatSmallBuffers env maxSize)) := by
  have hasked : (bufferVersions env).Rewritten (cells env storage) _ := rewritten_asioConstBuffer storage
  unfold concatSmallBuffers
  split
  next hnil => rwa [hnil] at hasked
  next buf bufs hcons =>
    rw [hcons] at hasked
    rw [cells_concatGroups, ← cells_append]
    exact hasked

theorem sound_concatSmallBuffers {storage : BufsStorage} (h : ∀ buf ∈ storage, buf.Sound env) (maxSize : Nat) :
    ∀ buf ∈ storage.concatSmallBuffers env maxSize, buf.Sound env := by
  have hasked := adjusted_asioConstBuffer h
  refine sound_of_adjusted ?_
  unfold concatSmallBuffers
  split
  · simp
  next buf bufs hcons =>
    rw [hcons] at hasked
    rw [cells_concatGroups, ← cells_append]
    exact hasked

theorem sizes_concatSmallBuffers {storage : BufsStorage} {seq : SingleWritableSequence}
    (h : sizes env storage = seq.bufsStorage.map List.length) (maxSize : Nat) :
    sizes env (storage.concatSmallBuffers env maxSize) =
      (seq.concatSmallBuffers maxSize).bufsStorage.map List.length := by
  rw [← sizes_asioConstBuffer] at h
  unfold concatSmallBuffers SingleWritableSequence.concatSmallBuffers
  split
  next hnil =>
    rw [hnil] at h
    rw [List.map_eq_nil_iff.1 h.symm]
    exact h
  next item items hcons =>
    rw [hcons] at h
    split
    next hnil =>
      rw [hnil] at h
      cases h
    next buf bufs hbufs =>
      rw [hbufs] at h
      obtain ⟨hitem, hitems⟩ : (item.cells env).length = buf.length ∧ sizes env items = bufs.map List.length :=
        List.cons.inj h
      refine sizes_concatGroups maxSize items bufs [item] buf hitems ?_
      rw [cells_cons, cells_nil, List.append_nil]
      exact hitem

end BufsStorage

/-! ## Descriptors -/

namespace Descriptor

theorem map_getD_range {α : Type} (d : α) (l : List α) : (List.range l.length).map (l.getD · d) = l := by
  refine List.ext_getElem (by rw [List.length_map, List.length_range]) ?_
  intro i _ hi
  rw [List.getElem_map, List.getElem_range, List.getD_eq_getElem?_getD, List.getElem?_eq_getElem hi]
  rfl

/-- The descriptors of a sequence that was just asked for its data describe all of it. -/
theorem readAll_all (front : BufsStorage) : readAll env front (all front) = BufsStorage.cells env front := by
  unfold readAll all BufsStorage.cells
  rw [List.flatMap_map]
  conv_rhs => rw [← map_getD_range (.plain []) front, List.flatMap_map]
  rfl

theorem cells_skip (front : BufsStorage) (d : Descriptor) (n : Nat) :
    cells env front { d with skipped := d.skipped + n } = (d.cells env front).drop n := by
  unfold cells
  rw [List.drop_drop]

theorem readAll_skipTransferredPart (front : BufsStorage) : ∀ (ds : List Descriptor) (transferred : Nat),
    readAll env front (skipTransferredPart env front ds transferred) = (readAll env front ds).drop transferred
  | [], transferred => List.drop_nil.symm
  | d :: ds, transferred => by
    have hcons : readAll env front (d :: ds) = d.cells env front ++ readAll env front ds := List.flatMap_cons
    unfold skipTransferredPart
    rw [hcons]
    split
    next hle =>
      rw [readAll_skipTransferredPart front ds, List.drop_append, List.drop_eq_nil_of_le hle, List.nil_append]
    next hlt =>
      rw [List.drop_append_of_le_length (Nat.le_of_not_le hlt), ← cells_skip]
      exact List.flatMap_cons

end Descriptor

/-! ## The queue -/

namespace StorageQueue

@[simp] theorem cells_nil : cells env [] = [] := rfl

@[simp] theorem cells_cons (storage : BufsStorage) (queue : StorageQueue) :
    cells env (storage :: queue) = BufsStorage.cells env storage ++ cells env queue := List.flatMap_cons

@[simp] theorem cells_append (queue queue' : StorageQueue) :
    cells env (queue ++ queue') = cells env queue ++ cells env queue' := List.flatMap_append

@[simp] theorem back_concat (frozen : StorageQueue) (storage : BufsStorage) : back (frozen ++ [storage]) = storage := by
  simp [back, List.getLastD_eq_getLast?]

@[simp] theorem setBack_concat (frozen : StorageQueue) (storage storage' : BufsStorage) :
    setBack storage' (frozen ++ [storage]) = frozen ++ [storage'] := by
  simp [setBack]

/-- All buffers of the queue are sound. -/
def Sound (env : AdjusterEnv) (queue : StorageQueue) : Prop := ∀ storage ∈ queue, ∀ buf ∈ storage, buf.Sound env

theorem Sound.append {queue queue' : StorageQueue} (h : Sound env queue) (h' : Sound env queue') :
    Sound env (queue ++ queue') := by
  intro storage hstorage
  exact (List.mem_append.1 hstorage).elim (h storage) (h' storage)

theorem sound_singleton {storage : BufsStorage} (h : ∀ buf ∈ storage, buf.Sound env) : Sound env [storage] := by
  intro storage' hstorage'
  rw [List.mem_singleton.1 hstorage']
  exact h

theorem sound_concat {storage : BufsStorage} {buf : OutputBuffer} (hstorage : ∀ buf ∈ storage, buf.Sound env)
    (hbuf : buf.Sound env) : Sound env [storage ++ [buf]] := by
  refine sound_singleton ?_
  intro buf' hbuf'
  rcases List.mem_append.1 hbuf' with hbuf' | hbuf'
  · exact hstorage buf' hbuf'
  · rw [List.mem_singleton.1 hbuf']
    exact hbuf

/-- A buffer that is appended goes behind all that is in the sequence at the back, of which the
buffers may be asked for their data. -/
theorem appendOutgoingBuffer_spec (frozen : StorageQueue) {storage : BufsStorage} {buf : OutputBuffer}
    (hstorage : ∀ buf ∈ storage, buf.Sound env) (hbuf : buf.Sound env) :
    ∃ more, appendOutgoingBuffer env buf (frozen ++ [storage]) = frozen ++ more ∧ more ≠ [] ∧ Sound env more ∧
      (bufferVersions env).Rewritten (BufsStorage.cells env storage ++ buf.cells env) (cells env more) := by
  -- the buffer is asked for its data if it is logged
  let logged := if env.traces then buf.asioConstBuffer else buf
  have hlogged : (bufferVersions env).Rewritten (buf.cells env) (logged.cells env) ∧ logged.Sound env := by
    unfold logged
    split
    · exact ⟨buf.rewritten_asioConstBuffer, hbuf.asioConstBuffer⟩
    · exact ⟨.refl, hbuf⟩
  have hnew : Sound env [[] ++ [logged]] := sound_concat (by simp) hlogged.2
  have hconcat : (bufferVersions env).Rewritten (BufsStorage.cells env storage) _ :=
    BufsStorage.rewritten_concatSmallBuffers concatenatedBufferMaxSize storage
  have hsound := BufsStorage.sound_concatSmallBuffers hstorage concatenatedBufferMaxSize
  unfold appendOutgoingBuffer
  dsimp only
  rw [back_concat]
  split
  · refine ⟨_, setBack_concat .., List.cons_ne_nil _ _, sound_concat hstorage hlogged.2, ?_⟩
    simpa using hlogged.1.append_left _
  split
  · refine ⟨[storage, [logged]], by rw [List.append_assoc]; rfl, List.cons_ne_nil _ _,
      (sound_singleton hstorage).append hnew, ?_⟩
    simpa using hlogged.1.append_left _
  split
  · refine ⟨_, setBack_concat .., List.cons_ne_nil _ _, sound_concat hsound hlogged.2, ?_⟩
    simpa using hconcat.append hlogged.1
  · refine ⟨[_, [logged]], by rw [setBack_concat, List.append_assoc]; rfl, List.cons_ne_nil _ _,
      (sound_singleton hsound).append hnew, ?_⟩
    simpa using hconcat.append hlogged.1

/-- The same behind the sequences that are left alone. -/
theorem Sound.enqueue {queue : StorageQueue} (h : Sound env queue) (hne : queue ≠ []) {buf : OutputBuffer}
    (hbuf : buf.Sound env) (frozen : StorageQueue) :
    ∃ queue', appendOutgoingBuffer env buf (frozen ++ queue) = frozen ++ queue' ∧ queue' ≠ [] ∧ Sound env queue' ∧
      (bufferVersions env).Rewritten (cells env queue ++ buf.cells env) (cells env queue') := by
  obtain ⟨before, storage, rfl⟩ := (List.eq_nil_or_concat' queue).resolve_left hne
  have hstorage : ∀ buf ∈ storage, buf.Sound env := h storage (List.mem_append_right _ (List.mem_singleton_self _))
  obtain ⟨more, heq, hne, hmore, hrewritten⟩ := appendOutgoingBuffer_spec (frozen ++ before) hstorage hbuf
  rw [List.append_assoc] at heq
  refine ⟨before ++ more, by rw [heq, List.append_assoc], List.append_ne_nil_of_right_ne_nil before hne,
    Sound.append ?_ hmore, ?_⟩
  · intro storage' hstorage'
    exact h storage' (List.mem_append_left _ hstorage')
  · rw [cells_append, cells_append, cells_cons, cells_nil, List.append_nil, List.append_assoc]
    exact hrewritten.append_left _

/-- A front that is frozen, and sequences behind it that take what comes. -/
theorem Sound.freezeFirst {queue : StorageQueue} (h : Sound env queue) (hne : queue ≠ []) :
    ∃ rest, freezeFirst queue = front queue :: rest ∧ rest ≠ [] ∧ Sound env rest ∧
      cells env queue = BufsStorage.cells env (front queue) ++ cells env rest := by
  match queue, hne with
  | [first], _ => exact ⟨[[]], rfl, List.cons_ne_nil [] [], sound_singleton (by simp), rfl⟩
  | first :: second :: rest, _ =>
    refine ⟨second :: rest, if_neg (by simp), List.cons_ne_nil second rest, ?_, cells_cons ..⟩
    exact fun storage hstorage => h storage (List.mem_cons_of_mem first hstorage)

theorem Sound.setFront {queue : StorageQueue} (h : Sound env queue) {storage : BufsStorage}
    (hstorage : ∀ buf ∈ storage, buf.Sound env) : Sound env (setFront storage queue) := by
  intro storage' hstorage'
  rcases List.mem_cons.1 hstorage' with rfl | hstorage'
  · exact hstorage
  · exact h storage' (List.mem_of_mem_tail hstorage')

theorem Sound.front {queue : StorageQueue} (h : Sound env queue) : ∀ buf ∈ front queue, buf.Sound env := by
  cases queue with
  | nil => simp [StorageQueue.front]
  | cons first rest => exact h first (List.mem_cons_self ..)

/-- The sequence in front is asked for its data. -/
theorem rewritten_front {queue : StorageQueue} (hne : queue ≠ []) :
    (bufferVersions env).Rewritten (cells env queue)
      (cells env (setFront ((front queue).map OutputBuffer.asioConstBuffer) queue)) := by
  cases queue with
  | nil => exact absurd rfl hne
  | cons first rest =>
    change (bufferVersions env).Rewritten (cells env (first :: rest)) (cells env (_ :: rest))
    rw [cells_cons, cells_cons]
    exact (BufsStorage.rewritten_asioConstBuffer first).append_right _

/-! ## Sizes -/

/-- The queue has buffers of the same sizes as the queue of the connection. -/
def SameSizes (env : AdjusterEnv) (queue : StorageQueue) (writeQueue : List SingleWritableSequence) : Prop :=
  queue.map (BufsStorage.sizes env) = writeQueue.map fun seq => seq.bufsStorage.map List.length

section SameSizes

variable {queue : StorageQueue} {writeQueue : List SingleWritableSequence}

theorem SameSizes.length (h : SameSizes env queue writeQueue) : queue.length = writeQueue.length := by
  have hlength := congrArg List.length h
  rwa [List.length_map, List.length_map] at hlength

theorem SameSizes.front (h : SameSizes env queue writeQueue) :
    (front queue).sizes env = (Connection.front writeQueue).bufsStorage.map List.length := by
  match queue, writeQueue, h with
  | [], [], _ => rfl
  | storage :: queue, seq :: writeQueue, h => exact (List.cons.inj h).1

theorem SameSizes.tail (h : SameSizes env queue writeQueue) : SameSizes env queue.tail writeQueue.tail := by
  match queue, writeQueue, h with
  | [], [], h => exact h
  | storage :: queue, seq :: writeQueue, h => exact (List.cons.inj h).2

theorem SameSizes.setFront (h : SameSizes env queue writeQueue) {storage : BufsStorage} {seq : SingleWritableSequence}
    (hfront : storage.sizes env = seq.bufsStorage.map List.length) :
    SameSizes env (setFront storage queue) (Connection.setFront seq writeQueue) :=
  List.cons_eq_cons.2 ⟨hfront, h.tail⟩

theorem SameSizes.concat (h : SameSizes env queue writeQueue) {storage : BufsStorage} {seq : SingleWritableSequence}
    (hback : storage.sizes env = seq.bufsStorage.map List.length) :
    SameSizes env (queue ++ [storage]) (writeQueue ++ [seq]) := by
  unfold SameSizes
  rw [List.map_append, List.map_append, h]
  exact congrArg _ (congrArg (fun size => [size]) hback)

theorem SameSizes.dropLast (h : SameSizes env queue writeQueue) : SameSizes env queue.dropLast writeQueue.dropLast := by
  unfold SameSizes
  rw [List.map_dropLast, List.map_dropLast, h]

theorem SameSizes.back (h : SameSizes env queue writeQueue) :
    (back queue).sizes env = (Connection.back writeQueue).bufsStorage.map List.length := by
  have hlast := congrArg List.getLast? h
  rw [List.getLast?_map, List.getLast?_map] at hlast
  unfold StorageQueue.back Connection.back
  rw [List.getLastD_eq_getLast?, List.getLastD_eq_getLast?]
  cases hqueue : queue.getLast? with
  | none =>
    rw [hqueue, Option.map_none, eq_comm, Option.map_eq_none_iff] at hlast
    rw [hlast]
    rfl
  | some storage =>
    rw [hqueue, Option.map_some, eq_comm, Option.map_eq_some_iff] at hlast
    obtain ⟨seq, hseq, hsizes⟩ := hlast
    rw [hseq]
    exact hsizes.symm

theorem SameSizes.setBack (h : SameSizes env queue writeQueue) {storage : BufsStorage} {seq : SingleWritableSequence}
    (hback : storage.sizes env = seq.bufsStorage.map List.length) :
    SameSizes env (setBack storage queue) (Connection.setBack seq writeQueue) := h.dropLast.concat hback

/-- The descriptors of the sequence in front are made anew. -/
theorem SameSizes.remade (h : SameSizes env queue writeQueue) (hne : queue ≠ []) {seq : SingleWritableSequence}
    (hseq : seq.bufsStorage = (Connection.front writeQueue).bufsStorage) :
    SameSizes env queue (Connection.setFront seq writeQueue) := by
  match queue, writeQueue, h with
  | storage :: queue, first :: writeQueue, h =>
    have hfirst : BufsStorage.sizes env storage = seq.bufsStorage.map List.length := by
      rw [hseq]
      exact (List.cons.inj h).1
    exact List.cons_eq_cons.2 ⟨hfirst, (List.cons.inj h).2⟩

/-- A callback goes to the sequence at the back. -/
theorem SameSizes.appendCompletionCb (h : SameSizes env queue writeQueue) (hne : queue ≠ []) (cb : Nat) :
    SameSizes env queue (Connection.setBack ((Connection.back writeQueue).appendCompletionCb cb) writeQueue) := by
  have hne' : writeQueue ≠ [] := by
    rintro rfl
    exact hne (List.map_eq_nil_iff.1 h)
  obtain ⟨frozen, seq, rfl⟩ := (List.eq_nil_or_concat' writeQueue).resolve_left hne'
  rw [Connection.back_concat, Connection.setBack_concat]
  refine Eq.trans h ?_
  rw [List.map_append, List.map_append]
  rfl

theorem SameSizes.freezeFirst (h : SameSizes env queue writeQueue) :
    SameSizes env (freezeFirst queue) (Connection.freezeFirst writeQueue) := by
  unfold StorageQueue.freezeFirst Connection.freezeFirst
  rw [h.length]
  split
  · exact h.concat rfl
  · exact h

end SameSizes

theorem SameSizes.enqueue {queue : StorageQueue} {writeQueue : List SingleWritableSequence}
    (h : SameSizes env queue writeQueue) {buf : OutputBuffer} {bytes : Bytes}
    (hbuf : (buf.cells env).length = bytes.length) :
    SameSizes env (appendOutgoingBuffer env buf queue)
      (Connection.appendOutgoingBuffer env.toConnectionEnv bytes writeQueue) := by
  have hlogged : ((if env.traces then buf.asioConstBuffer else buf).cells env).length = bytes.length := by
    split
    · exact buf.length_asioConstBuffer.trans hbuf
    · exact hbuf
  have hconcat : ∀ {storage : BufsStorage} {seq : SingleWritableSequence},
      storage.sizes env = seq.bufsStorage.map List.length →
      (storage ++ [if env.traces then buf.asioConstBuffer else buf]).sizes env =
        (seq.appendBuffer bytes).bufsStorage.map List.length := by
    intro storage seq hsizes
    unfold BufsStorage.sizes SingleWritableSequence.appendBuffer
    rw [List.map_append, List.map_append, ← hsizes]
    exact congrArg _ (congrArg (fun size => [size]) hlogged)
  have hroom : ∀ {storage : BufsStorage} {seq : SingleWritableSequence},
      storage.sizes env = seq.bufsStorage.map List.length →
      (storage.length + 1 ≤ env.maxSeqLength ↔ seq.canAppendBuffer env.maxSeqLength = true) := by
    intro storage seq hsizes
    have hlength := congrArg List.length hsizes
    rw [BufsStorage.sizes, List.length_map, List.length_map] at hlength
    rw [hlength, SingleWritableSequence.canAppendBuffer, decide_eq_true_iff]
  have hcompact := BufsStorage.sizes_concatSmallBuffers h.back concatenatedBufferMaxSize
  have hempty : BufsStorage.sizes env [] = SingleWritableSequence.empty.bufsStorage.map List.length := rfl
  unfold appendOutgoingBuffer Connection.appendOutgoingBuffer
  dsimp only
  simp only [hroom h.back, hroom hcompact, h.length]
  split
  · exact h.setBack (hconcat h.back)
  split
  · exact h.concat (hconcat hempty)
  split
  · exact h.setBack (hconcat hcompact)
  · exact (h.setBack hcompact).concat (hconcat hempty)

end StorageQueue

end Opio.Net
