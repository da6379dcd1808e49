/-
The write queue: a buffer that is appended goes behind everything else, only the last sequence may
be empty, and the sequence in front, once its write has begun, is left alone.
-/
import Opio.Net.Cases

namespace Opio.Net

namespace Connection

variable {env : ConnectionEnv}

/-! ## Bytes -/

def queueBytes (queue : List SingleWritableSequence) : Bytes := queue.flatMap SingleWritableSequence.bytes

@[simp] theorem queueBytes_nil : queueBytes [] = [] := rfl

@[simp] theorem queueBytes_cons (seq : SingleWritableSequence) (queue : List SingleWritableSequence) :
    queueBytes (seq :: queue) = seq.bytes ++ queueBytes queue := List.flatMap_cons

@[simp] theorem queueBytes_append (queue queue' : List SingleWritableSequence) :
    queueBytes (queue ++ queue') = queueBytes queue ++ queueBytes queue' := List.flatMap_append

@[simp] theorem back_concat (frozen : List SingleWritableSequence) (seq : SingleWritableSequence) :
    back (frozen ++ [seq]) = seq := by
  simp [back, List.getLastD_eq_getLast?]

@[simp] theorem setBack_concat (frozen : List SingleWritableSequence) (seq seq' : SingleWritableSequence) :
    setBack seq' (frozen ++ [seq]) = frozen ++ [seq'] := by
  simp [setBack]

theorem bufsStorage_ne_nil_of_full {seq : SingleWritableSequence} (h : ¬ seq.canAppendBuffer env.maxSeqLength = true) :
    seq.bufsStorage ≠ [] := by
  rintro hnil
  have hpos : 1 ≤ env.maxSeqLength := by
    have := env.maxIovLen_pos
    unfold ConnectionEnv.maxSeqLength reasonableMaxIovLen
    omega
  simp [SingleWritableSequence.canAppendBuffer, hnil, hpos] at h

theorem empty_canAppendBuffer (env : ConnectionEnv) :
    SingleWritableSequence.empty.canAppendBuffer env.maxSeqLength = true := by
  by_contra hfull
  exact bufsStorage_ne_nil_of_full hfull rfl

/-- A buffer that is appended goes behind all bytes of the queue; the sequences in front stay as
they are, and the ones that are added in front of the new back have buffers. -/
theorem appendOutgoingBuffer_spec (env : ConnectionEnv) (buf : Bytes) (frozen : List SingleWritableSequence)
    (seq : SingleWritableSequence) :
    ∃ more seq', appendOutgoingBuffer env buf (frozen ++ [seq]) = frozen ++ (more ++ [seq']) ∧
      (∀ s ∈ more, s.bufsStorage ≠ []) ∧ queueBytes (more ++ [seq']) = seq.bytes ++ buf := by
  have hfilled : ∀ s : SingleWritableSequence, s.canAppendBuffer env.maxSeqLength = false → s.bufsStorage ≠ [] :=
    fun s hfull => bufsStorage_ne_nil_of_full (ne_true_of_eq_false hfull)
  refine appendOutgoingBuffer_elim env buf (frozen ++ [seq]) ?room ?short ?compacted ?full
  all_goals rw [back_concat]
  case room => exact fun _ => ⟨[], _, setBack_concat .., by simp, by simp⟩
  case short =>
    intro hfull _
    refine ⟨[seq], _, by rw [List.append_assoc], ?_, by simp⟩
    simpa using hfilled seq hfull
  case compacted => exact fun _ _ _ => ⟨[], _, setBack_concat .., by simp, by simp⟩
  case full =>
    intro hfull _ hfull'
    refine ⟨[seq.concatSmallBuffers concatenatedBufferMaxSize], _, by rw [setBack_concat, List.append_assoc], ?_,
      by simp⟩
    simpa using hfilled _ hfull'

/-! ## What holds of all sequences -/

section Forall

variable {P : SingleWritableSequence → Prop} {queue : List SingleWritableSequence} {seq : SingleWritableSequence}

theorem forall_concat (h : ∀ s ∈ queue, P s) (hseq : P seq) : ∀ s ∈ queue ++ [seq], P s :=
  List.forall_mem_append.2 ⟨h, List.forall_mem_singleton.2 hseq⟩

theorem forall_setBack (h : ∀ s ∈ queue, P s) (hseq : P seq) : ∀ s ∈ setBack seq queue, P s :=
  forall_concat (fun s hs => h s (List.dropLast_subset queue hs)) hseq

theorem forall_setFront (h : ∀ s ∈ queue, P s) (hseq : P seq) : ∀ s ∈ setFront seq queue, P s :=
  List.forall_mem_cons.2 ⟨hseq, fun s hs => h s (List.mem_of_mem_tail hs)⟩

theorem forall_freezeFirst (h : ∀ s ∈ queue, P s) (hempty : P .empty) : ∀ s ∈ freezeFirst queue, P s := by
  unfold freezeFirst
  split
  · exact forall_concat h hempty
  · exact h

/-- The back of an empty queue would have no buffers. -/
theorem back_of_forall (h : ∀ s ∈ queue, P s) (hempty : P .empty) : P (back queue) := by
  rcases List.eq_nil_or_concat queue with rfl | ⟨frozen, last, rfl⟩
  · exact hempty
  · rw [List.concat_eq_append, back_concat]
    exact h last (by simp)

theorem front_of_forall (h : ∀ s ∈ queue, P s) (hempty : P .empty) : P (front queue) := by
  cases queue with
  | nil => exact hempty
  | cons seq rest => exact h seq (List.mem_cons_self ..)

end Forall

/-! ## Shape -/

/-- Sequences that have buffers, and the one at the back. -/
def QueueOk (queue : List SingleWritableSequence) : Prop :=
  ∃ frozen seq, queue = frozen ++ [seq] ∧ ∀ s ∈ frozen, s.bufsStorage ≠ []

/-- Nothing waits to be written. -/
def Clear (queue : List SingleWritableSequence) : Prop := ∃ seq, queue = [seq] ∧ seq.bufsStorage = []

theorem Clear.queueBytes {queue : List SingleWritableSequence} (h : Clear queue) : queueBytes queue = [] := by
  obtain ⟨seq, rfl, hseq⟩ := h
  simp [SingleWritableSequence.bytes, hseq]

theorem QueueOk.append {queue : List SingleWritableSequence} (h : QueueOk queue) (env : ConnectionEnv) (buf : Bytes) :
    QueueOk (appendOutgoingBuffer env buf queue) ∧
      queueBytes (appendOutgoingBuffer env buf queue) = queueBytes queue ++ buf := by
  obtain ⟨frozen, seq, rfl, hfrozen⟩ := h
  obtain ⟨more, seq', heq, hmore, hbytes⟩ := appendOutgoingBuffer_spec env buf frozen seq
  refine ⟨⟨frozen ++ more, seq', by rw [heq, List.append_assoc], ?_⟩, ?_⟩
  · intro s hs
    exact (List.mem_append.1 hs).elim (hfrozen s) (hmore s)
  · rw [heq, queueBytes_append, hbytes, queueBytes_append, List.append_assoc]
    simp

/-- The front of a queue whose write is under way, and a back that takes what comes. -/
theorem append_cons (env : ConnectionEnv) (buf : Bytes) (seq : SingleWritableSequence)
    {rest : List SingleWritableSequence} (h : QueueOk rest) :
    ∃ rest', appendOutgoingBuffer env buf (seq :: rest) = seq :: rest' ∧ QueueOk rest' ∧
      queueBytes rest' = queueBytes rest ++ buf := by
  obtain ⟨frozen, last, rfl, hfrozen⟩ := h
  obtain ⟨more, last', heq, hmore, hbytes⟩ := appendOutgoingBuffer_spec env buf (seq :: frozen) last
  refine ⟨frozen ++ (more ++ [last']), heq, ⟨frozen ++ more, last', by rw [List.append_assoc], ?_⟩, ?_⟩
  · intro s hs
    exact (List.mem_append.1 hs).elim (hfrozen s) (hmore s)
  · rw [queueBytes_append, hbytes, queueBytes_append, List.append_assoc]
    simp

theorem QueueOk.ne_nil {queue : List SingleWritableSequence} (h : QueueOk queue) : queue ≠ [] := by
  obtain ⟨frozen, seq, rfl, -⟩ := h
  simp

/-- A front without buffers is all there is. -/
theorem QueueOk.clear_of_front {queue : List SingleWritableSequence} (h : QueueOk queue)
    (hfront : (front queue).bufsStorage = []) : Clear queue := by
  obtain ⟨frozen, seq, rfl, hfrozen⟩ := h
  cases frozen with
  | nil => exact ⟨seq, rfl, hfront⟩
  | cons s frozen => exact absurd hfront (hfrozen s (List.mem_cons_self ..))

theorem front_freezeFirst (queue : List SingleWritableSequence) : front (freezeFirst queue) = front queue := by
  unfold freezeFirst
  split
  · cases queue <;> rfl
  · rfl

/-- Freezing the front leaves a queue behind it that takes buffers. -/
theorem QueueOk.freezeFirst {queue : List SingleWritableSequence} (h : QueueOk queue) :
    ∃ rest, freezeFirst queue = front queue :: rest ∧ QueueOk rest ∧
      queueBytes queue = (front queue).bytes ++ queueBytes rest := by
  obtain ⟨frozen, seq, rfl, hfrozen⟩ := h
  cases frozen with
  | nil => exact ⟨[.empty], rfl, ⟨[], .empty, rfl, by simp⟩, by simp [front]⟩
  | cons s frozen =>
    refine ⟨frozen ++ [seq], ?_, ⟨frozen, seq, rfl, fun s' hs' => hfrozen s' (List.mem_cons_of_mem _ hs')⟩, rfl⟩
    rw [Connection.freezeFirst, if_neg (by simp)]
    rfl

theorem QueueOk.setFront {queue : List SingleWritableSequence} (h : QueueOk queue) (seq : SingleWritableSequence)
    (hseq : seq.bufsStorage = (front queue).bufsStorage) :
    QueueOk (setFront seq queue) ∧ queueBytes (setFront seq queue) = queueBytes queue := by
  obtain ⟨frozen, last, rfl, hfrozen⟩ := h
  cases frozen with
  | nil =>
    refine ⟨⟨[], seq, rfl, by simp⟩, ?_⟩
    change seq.bytes ++ [] = last.bytes ++ []
    unfold SingleWritableSequence.bytes
    rw [hseq]
    rfl
  | cons s frozen =>
    refine ⟨⟨seq :: frozen, last, rfl, ?_⟩, ?_⟩
    · intro s' hs'
      rcases List.mem_cons.1 hs' with rfl | hs'
      · rw [hseq]
        exact hfrozen s (List.mem_cons_self ..)
      · exact hfrozen s' (List.mem_cons_of_mem _ hs')
    · change seq.bytes ++ _ = s.bytes ++ _
      unfold SingleWritableSequence.bytes
      rw [hseq]
      rfl

end Connection

end Opio.Net
