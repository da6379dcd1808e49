/-
What a connection promises of the memory it reads to: a read in flight writes to memory of the connection
alone, whatever the user does with the buffers he was handed, and he is handed the bytes that came in.
-/
import Opio.Net.Reading

namespace Opio.Net

/-! ## What has nothing to do with reading -/

namespace Connection

variable {env : ConnectionEnv} {c c' : Connection}

/-- Frames come on top of the others, none of which reads, and no read begins or ends. -/
def Elsewhere (c c' : Connection) (base : List Frame) : Prop :=
  c'.readsInFlight = c.readsInFlight ∧ ∃ gs, c'.stack = gs ++ base ∧ ∀ g ∈ gs, g.isReading = false

theorem elsewhere_of_stack {base : List Frame} (gs : List Frame) (hreads : c'.readsInFlight = c.readsInFlight)
    (hstack : c'.stack = gs ++ base) (hgs : ∀ g ∈ gs, g.isReading = false) : Elsewhere c c' base :=
  ⟨hreads, gs, hstack, hgs⟩

theorem shutdownImpl_elsewhere (env : ConnectionEnv) (reason : ConnectionShutdownReason) (c : Connection) :
    Elsewhere c (shutdownImpl env reason c) c.stack := by
  refine shutdownImpl_elim env reason c ?again ?first
  case again => exact fun _ => elsewhere_of_stack [] rfl rfl (by simp)
  case first =>
    intro _ c₁ hflags
    have hsame : c₁.readsInFlight = c.readsInFlight ∧ c₁.stack = c.stack := by
      rcases hflags with ⟨-, rfl⟩ | ⟨-, rfl⟩
      · exact ⟨rfl, rfl⟩
      · exact ⟨rfl, rfl⟩
    split
    · refine elsewhere_of_stack [.shutdownHandler reason, .markShutdown] hsame.1 ?_ (by simp [Frame.isReading])
      rw [← hsame.2]
      rfl
    · exact elsewhere_of_stack [] hsame.1 hsame.2 (by simp)

theorem handleIoError_elsewhere (env : ConnectionEnv) (ec : ErrorCode) (c : Connection) :
    Elsewhere c (handleIoError env ec c) c.stack := by
  unfold handleIoError
  split
  · exact elsewhere_of_stack [] rfl rfl (by simp)
  · exact shutdownImpl_elsewhere env _ c

theorem Elsewhere.below {f : Frame} {c₁ : Connection} (h : Elsewhere c₁ c' (f :: c.stack))
    (hreads : c₁.readsInFlight = c.readsInFlight) (hf : f.isReading = false) : Elsewhere c c' c.stack := by
  obtain ⟨hsame, gs, hstack, hgs⟩ := h
  refine ⟨hsame.trans hreads, gs ++ [f], ?_, ?_⟩
  · rw [hstack, List.append_assoc]
    rfl
  · intro g hg
    rcases List.mem_append.1 hg with hg | hg
    · exact hgs g hg
    · rwa [List.mem_singleton.1 hg]

theorem afterWrite_elsewhere (env : ConnectionEnv) (ec : Option ErrorCode) (c : Connection) :
    Elsewhere c (afterWrite env ec c) c.stack := by
  cases ec with
  | none =>
    exact elsewhere_of_stack [.runCallbacks .success (front c.writeQueue).sendCompletionCbs, .popWritten] rfl rfl
      (by simp [Frame.isReading])
  | some ec => exact (handleIoError_elsewhere env ec _).below rfl rfl

/-- A frame other than the ones that read goes on. Only starting to read begins a read. -/
theorem continues_elsewhere {f : Frame} {i : Input} (hf : f.isReading = false) (h : Continues env c f i c') :
    Elsewhere c c' c.stack ∨
      f = .call .startReading ∧ c'.stack = c.stack ∧ c'.readsInFlight = c.readsInFlight + 1 := by
  cases h with
  | call call =>
    cases call with
    | send s =>
      show Elsewhere c (scheduleSend s c) _ ∨ _
      refine .inl (scheduleSend_elim s c ?accepted ?rejected ?ignored)
      case accepted =>
        intro _
        exact elsewhere_of_stack [.append s.bufs true c.groups s.cb] rfl rfl (by simp [Frame.isReading])
      case rejected =>
        intro _ _ _
        exact elsewhere_of_stack [.runCallbacks .rejectedScheduleSend [c.groups]] rfl rfl (by simp [Frame.isReading])
      case ignored => exact fun _ _ => elsewhere_of_stack [] rfl rfl (by simp)
    | shutdown => exact .inl (shutdownImpl_elsewhere env _ c)
    | startReading =>
      show Elsewhere c (startReading c) _ ∨ _ ∧ (startReading c).stack = _ ∧ (startReading c).readsInFlight = _
      unfold startReading
      split
      · exact .inl (elsewhere_of_stack [] rfl rfl (by simp))
      · exact .inr ⟨rfl, rfl, rfl⟩
    | stopReading => exact .inl (elsewhere_of_stack [] rfl rfl (by simp))
  | append bufs be id cb =>
    refine .inl (append_elim env bufs be id cb c ?delivered ?ended ?noted ?queued ?direct ?buffered)
    case delivered =>
      exact fun _ _ _ => elsewhere_of_stack [.runCallbacks .success [id]] rfl rfl (by simp [Frame.isReading])
    case ended => exact fun _ _ _ => elsewhere_of_stack [] rfl rfl (by simp)
    case noted => exact fun _ _ _ => elsewhere_of_stack [.initiateWrite] rfl rfl (by simp [Frame.isReading])
    case queued => exact fun _ _ _ => elsewhere_of_stack [.initiateWrite] rfl rfl (by simp [Frame.isReading])
    case direct =>
      intro buf rest _ _ _ _
      exact elsewhere_of_stack [.aggressiveWrite buf rest id cb] rfl rfl (by simp [Frame.isReading])
    case buffered =>
      intro buf rest _ _
      exact elsewhere_of_stack [.append rest false id cb] rfl rfl (by simp [Frame.isReading])
  | aggressiveWrite buf bufs id cb r possible =>
    refine .inl (aggressiveWritten_elim env buf bufs id cb r c ?whole ?partly)
    case whole => exact fun _ => elsewhere_of_stack [.append bufs true id cb] rfl rfl (by simp [Frame.isReading])
    case partly => exact fun _ => elsewhere_of_stack [.append bufs false id cb] rfl rfl (by simp [Frame.isReading])
  | initiateWrite =>
    refine .inl (initiateWrite_elim env c ?running ?nothing ?sync ?async)
    case running => exact fun _ => elsewhere_of_stack [] rfl rfl (by simp)
    case nothing => exact fun _ _ => elsewhere_of_stack [] rfl rfl (by simp)
    case sync => exact fun _ _ _ => elsewhere_of_stack [.syncWrite] rfl rfl (by simp [Frame.isReading])
    case async => exact fun _ _ => elsewhere_of_stack [] rfl rfl (by simp)
  | syncWrite r possible =>
    refine .inl (syncWritten_elim env possible ?completed ?blocked)
    case completed =>
      exact fun _ => (afterWrite_elsewhere env r.ec _).below (f := .incBytesTxSync r.transferred) rfl rfl
    case blocked => exact fun _ _ => elsewhere_of_stack [] rfl rfl (by simp)
  | callbacksDone res => exact .inl (elsewhere_of_stack [] rfl rfl (by simp))
  | called res id ids cs =>
    exact .inl (elsewhere_of_stack [.reaction cs, .runCallbacks res ids] rfl rfl (by simp [Frame.isReading]))
  | popWritten => exact .inl (elsewhere_of_stack [.initiateWrite] rfl rfl (by simp [Frame.isReading]))
  | shutdownHandler reason cs => exact .inl (elsewhere_of_stack [.reaction cs] rfl rfl (by simp [Frame.isReading]))
  | markShutdown => exact .inl (elsewhere_of_stack [] rfl rfl (by simp))
  | inputHandler cs => cases hf
  | afterInput => cases hf
  | reactionDone => exact .inl (elsewhere_of_stack [] rfl rfl (by simp))
  | reaction call calls =>
    exact .inl (elsewhere_of_stack [.call call, .reaction calls] rfl rfl (by simp [Frame.isReading]))
  | incBytesTxSync n => exact .inl (elsewhere_of_stack [] rfl rfl (by simp))
  | incBytesTxAsync n => exact .inl (elsewhere_of_stack [] rfl rfl (by simp))

/-- A work item begins that is not the end of a read. -/
theorem enters_elsewhere {item : Item} (hitem : (Input.item item).endsReading = false) (h : Enters env c item c') :
    Elsewhere c c' c.stack := by
  cases h with
  | call call => exact elsewhere_of_stack [.call call] rfl rfl (by simp [Frame.isReading])
  | asyncWriteDone bufs r inFlight possible =>
    exact (afterWrite_elsewhere env r.ec _).below (f := .incBytesTxAsync r.transferred) rfl rfl
  | readFailed ec inFlight => cases hitem
  | read inFlight => cases hitem
  | timedOut timeoutKey current => exact shutdownImpl_elsewhere env _ c
  | late timeoutKey outdated => exact elsewhere_of_stack [] rfl rfl (by simp)
  | destroy transferred => cases hitem

/-- How far the connection is with reading: no input is being handled, a read has ended, or its input is with
the user. -/
inductive Stage
  | apart
  | ended
  | handling
  deriving DecidableEq, Repr

/-- The frames of a stage. -/
def AtStage (c : Connection) : Stage → Prop
  | .apart => ∀ f ∈ c.stack, f.isReading = false
  | .ended => c.stack = [.inputHandler, .afterInput]
  | .handling => ∃ gs, c.stack = gs ++ [.afterInput] ∧ ∀ g ∈ gs, g.isReading = false

/-- A step of a connection that handles no input. -/
theorem step_apart {i : Input} (hat : AtStage c .apart) (hi : i.endsReading = false) (h : step env c i = some c') :
    AtStage c' .apart ∧ (c'.readsInFlight = c.readsInFlight ∨ c'.readsInFlight = c.readsInFlight + 1) := by
  rcases step_inversion h with ⟨item, rfl, hstack, -, henters⟩ | ⟨f, c₀, rfl, hcontinues⟩
  · obtain ⟨hreads, gs, hgs, hother⟩ := enters_elsewhere hi henters
    rw [hstack, List.append_nil] at hgs
    refine ⟨fun g hg => hother g ?_, .inl hreads⟩
    rwa [hgs] at hg
  · have hf := hat f List.mem_cons_self
    rcases continues_elsewhere hf hcontinues with ⟨hreads, gs, hgs, hother⟩ | ⟨-, hstack, hreads⟩
    · refine ⟨fun g hg => ?_, .inl hreads⟩
      rw [hgs] at hg
      exact (List.mem_append.1 hg).elim (hother g) fun hg => hat g (List.mem_cons_of_mem f hg)
    · refine ⟨fun g hg => hat g (List.mem_cons_of_mem f ?_), .inr hreads⟩
      rwa [hstack] at hg

/-- The input handler is called. -/
theorem step_ended {i : Input} (hat : AtStage c .ended) (h : step env c i = some c') :
    AtStage c' .handling ∧ c'.readsInFlight = c.readsInFlight := by
  rcases step_inversion h with ⟨item, rfl, hstack, -, henters⟩ | ⟨f, c₀, rfl, hcontinues⟩
  · rw [show c.stack = [.inputHandler, .afterInput] from hat] at hstack
    cases hstack
  · obtain ⟨rfl, hstack⟩ := List.cons.inj (show f :: c₀.stack = [.inputHandler, .afterInput] from hat)
    cases hcontinues with
    | inputHandler cs =>
      refine ⟨⟨[.reaction cs], ?_, by simp [Frame.isReading]⟩, rfl⟩
      show .reaction cs :: c₀.stack = _
      rw [hstack]
      rfl

/-- The input handler goes on, or it has returned. -/
theorem step_handling {i : Input} (hat : AtStage c .handling) (h : step env c i = some c') :
    (c.stack = [.afterInput] ∧ AtStage c' .apart ∨
      (∃ f ∈ c.stack.head?, f.isReading = false) ∧ AtStage c' .handling) ∧
    (c'.readsInFlight = c.readsInFlight ∨ c'.readsInFlight = c.readsInFlight + 1) := by
  obtain ⟨gs, hstack, hgs⟩ := hat
  rcases step_inversion h with ⟨item, rfl, hnil, -, henters⟩ | ⟨f, c₀, rfl, hcontinues⟩
  · rw [hstack] at hnil
    exact absurd hnil (by simp)
  · cases gs with
    | nil =>
      obtain ⟨rfl, hbase⟩ := List.cons.inj (show f :: c₀.stack = [.afterInput] from hstack)
      cases hcontinues with
      | afterInput =>
        have hsame : (afterInput c₀).stack = c₀.stack := by
          unfold afterInput
          split <;> rfl
        refine ⟨.inl ⟨hstack, fun g hg => ?_⟩, ?_⟩
        · rw [hsame, hbase] at hg
          cases hg
        · unfold afterInput
          split
          · exact .inr rfl
          · exact .inl rfl
    | cons g gs =>
      obtain ⟨rfl, hbase⟩ := List.cons.inj (show f :: c₀.stack = g :: (gs ++ [.afterInput]) from hstack)
      have hf := hgs f List.mem_cons_self
      have hrest : ∀ g ∈ gs, g.isReading = false := fun g hg => hgs g (List.mem_cons_of_mem f hg)
      rcases continues_elsewhere hf hcontinues with ⟨hreads, gs', hgs', hother⟩ | ⟨-, hsame, hreads⟩
      · refine ⟨.inr ⟨⟨f, rfl, hf⟩, gs' ++ gs, ?_, ?_⟩, .inl hreads⟩
        · rw [hgs', hbase, List.append_assoc]
        · exact fun g hg => (List.mem_append.1 hg).elim (hother g) (hrest g)
      · exact ⟨.inr ⟨⟨f, rfl, hf⟩, gs, hsame.trans hbase, hrest⟩, .inr hreads⟩

/-- While input is handled no read is in flight. -/
theorem no_read_of_stage {st : Stage} (hat : AtStage c st) (hst : st ≠ .apart) (hone : outstandingReads c ≤ 1) :
    c.readsInFlight = 0 := by
  have hmem : .afterInput ∈ c.stack := by
    cases st with
    | apart => exact absurd rfl hst
    | ended => rw [show c.stack = [.inputHandler, .afterInput] from hat]; simp
    | handling =>
      obtain ⟨gs, hstack, -⟩ := hat
      rw [hstack]
      simp
  have hpos := List.count_pos_iff.2 hmem
  unfold outstandingReads at hone
  omega

end Connection

namespace Reading

open Connection (Stage AtStage outstandingReads)

variable {env : ReadingEnv} {s s' : Reading} {vs : List ByteVector}

/-! ## The buffers -/

theorem onBuffers_ok {f : SimpleBuffers → Except BufferFault SimpleBuffers} {buffers : SimpleBuffers}
    (h : f s.buffers = .ok buffers) : s.onBuffers f = { s with buffers } := by
  rw [onBuffers, h]

theorem besides_of_other {f : Frame} (hf : f ∈ s.conn.stack.head?) (hother : f.isReading = false) :
    besides env s = s := by
  rw [besides, Option.mem_def.1 hf]
  cases f <;> first | rfl | cases hother

theorem besides_of_apart (hat : AtStage s.conn .apart) : besides env s = s := by
  cases hstack : s.conn.stack with
  | nil => rw [besides, hstack]; rfl
  | cons f fs =>
    have hmem : f ∈ s.conn.stack := hstack ▸ List.mem_cons_self
    exact besides_of_other (hstack ▸ rfl) (hat f hmem)

/-- The buffer is handed over with what came in. -/
theorem reduceSizeInput_represents {buffers : SimpleBuffers} (h : buffers.Represents vs) {b : SimpleBuffer}
    (hb : buffers.bufs[readBuffer]? = some b) (hlength : 3 ≤ vs.length) {n : Nat} (hn : n ≤ b.size) :
    ∃ buffers' vs', reduceSizeInput n buffers = .ok buffers' ∧ buffers'.Represents vs' ∧ 3 ≤ vs'.length ∧
      buffers'.bytes inputBuffer = (buffers.bytes readBuffer).take n := by
  obtain ⟨v, hv, hsize, -, -⟩ := h.get hb
  have hi : inputBuffer < vs.length := lt_of_lt_of_le (by decide) hlength
  have hj : readBuffer < vs.length := lt_of_lt_of_le (by decide) hlength
  obtain ⟨buffers₁, hmove, h₁⟩ := SimpleBuffers.call_represents h
    (show buffers.Pre (.moveAssign inputBuffer readBuffer) from ⟨h.length ▸ hi, h.length ▸ hj⟩)
  obtain ⟨u, hu⟩ : ∃ u, (vs.set readBuffer .nil)[inputBuffer]? = some u :=
    ⟨_, List.getElem?_eq_getElem (by rwa [List.length_set])⟩
  have hmoved : (ByteVector.apply vs (.moveAssign inputBuffer readBuffer))[inputBuffer]? = some v := by
    rw [ByteVector.apply, ByteVector.getElem?_update hu, hv]
    rfl
  obtain ⟨b₁, hb₁⟩ := h₁.exists_buffer (List.getElem?_eq_some_iff.1 hmoved).1
  obtain ⟨v₁, hv₁, hsize₁, -, -⟩ := h₁.get hb₁
  obtain rfl : v = v₁ := Option.some.inj (hmoved.symm.trans hv₁)
  have hn₁ : n ≤ b₁.size := by rwa [hsize₁, ← hsize]
  obtain ⟨buffers₂, hshrink, h₂⟩ := SimpleBuffers.call_represents h₁
    (show buffers₁.Pre (.shrinkSize inputBuffer n) from ⟨b₁, hb₁, hn₁⟩)
  refine ⟨buffers₂, _, ?_, h₂, ?_, ?_⟩
  · rw [reduceSizeInput, SimpleBuffers.get_ok hb, ok_bind, assertThat_ok hn, ok_bind, hmove, ok_bind, hshrink]
  · exact hlength.trans ((ByteVector.length_le_apply ..).trans (ByteVector.length_le_apply ..))
  · rw [h₂.bytes_of (ByteVector.getElem?_update hmoved _), h.bytes_of hv]
    show v.storage.take (min n v.size) = (v.storage.take v.size).take n
    rw [List.take_take]

/-- A buffer for the next read is there, and if it can be it is not empty. -/
theorem prepareNext_represents {buffers : SimpleBuffers} (h : buffers.Represents vs) (hlength : 3 ≤ vs.length)
    (n : Nat) :
    ∃ buffers' vs', prepareNext n buffers = .ok buffers' ∧ buffers'.Represents vs' ∧ 3 ≤ vs'.length ∧
      ∃ b, buffers'.bufs[readBuffer]? = some b ∧ (0 < n → 0 < b.size) := by
  have h0 : readBuffer < vs.length := lt_of_lt_of_le (by decide) hlength
  have h1 : inputBuffer < vs.length := lt_of_lt_of_le (by decide) hlength
  have h2 : nextReadBuffer < vs.length := lt_of_lt_of_le (by decide) hlength
  obtain ⟨next, hnext⟩ := h.exists_buffer h2
  rw [prepareNext, SimpleBuffers.get_ok hnext, ok_bind]
  by_cases hset : 0 < next.size
  · -- the user has set a buffer
    rw [if_pos hset]
    obtain ⟨v, hv, hsize, -, -⟩ := h.get hnext
    obtain ⟨u, hu⟩ : ∃ u, (vs.set nextReadBuffer .nil)[readBuffer]? = some u :=
      ⟨_, List.getElem?_eq_getElem (by rwa [List.length_set])⟩
    obtain ⟨buffers₁, hmove, h₁⟩ := SimpleBuffers.call_represents h
      (show buffers.Pre (.moveAssign readBuffer nextReadBuffer) from ⟨h.length ▸ h0, h.length ▸ h2⟩)
    have hmoved : (ByteVector.apply vs (.moveAssign readBuffer nextReadBuffer))[readBuffer]? = some v := by
      rw [ByteVector.apply, ByteVector.getElem?_update hu, hv]
      rfl
    obtain ⟨b, hb⟩ := h₁.exists_buffer (List.getElem?_eq_some_iff.1 hmoved).1
    obtain ⟨v', hv', hsize', -, -⟩ := h₁.get hb
    obtain rfl : v = v' := Option.some.inj (hmoved.symm.trans hv')
    refine ⟨buffers₁, _, hmove, h₁, ?_, b, hb, fun _ => ?_⟩
    · exact hlength.trans (ByteVector.length_le_apply ..)
    · rw [hsize', ← hsize]
      exact hset
  · -- what the user left of the last one is made as large as configured
    rw [if_neg hset]
    obtain ⟨buffers₁, hmove, h₁⟩ := SimpleBuffers.call_represents h
      (show buffers.Pre (.moveAssign readBuffer inputBuffer) from ⟨h.length ▸ h0, h.length ▸ h1⟩)
    have hlength₁ := ByteVector.length_le_apply vs (.moveAssign readBuffer inputBuffer)
    have h0₁ : readBuffer < buffers₁.bufs.length := by
      rw [h₁.length]
      exact lt_of_lt_of_le h0 hlength₁
    obtain ⟨buffers₂, hresize, h₂⟩ := SimpleBuffers.call_represents h₁
      (show buffers₁.Pre (.resize readBuffer n) from h0₁)
    obtain ⟨v, hv⟩ := h₁.exists_vector h0₁
    have hresized := ByteVector.getElem?_update hv fun v => v.resize n
    obtain ⟨b, hb⟩ := h₂.exists_buffer (List.getElem?_eq_some_iff.1 hresized).1
    obtain ⟨v', hv', hsize, -, -⟩ := h₂.get hb
    have hsize' : v'.size = n := by
      rw [Option.some.inj (hv'.symm.trans hresized)]
      exact v.size_resizeTo n n
    refine ⟨buffers₂, _, ?_, h₂, ?_, b, hb, fun hpos => ?_⟩
    · rw [hmove, ok_bind, hresize]
    · exact hlength.trans (hlength₁.trans (ByteVector.length_le_apply ..))
    · rw [hsize, hsize']
      exact hpos

/-- The end of the input context takes nothing from the connection. -/
theorem endContext_represents {buffers : SimpleBuffers} (h : buffers.Represents vs) (hlength : 3 ≤ vs.length) :
    ∃ buffers' vs', endContext buffers = .ok buffers' ∧ buffers'.Represents vs' ∧ 3 ≤ vs'.length ∧
      buffers'.bufs[readBuffer]? = buffers.bufs[readBuffer]? := by
  have h1 : inputBuffer < vs.length := lt_of_lt_of_le (by decide) hlength
  have h2 : nextReadBuffer < (vs.set inputBuffer .nil).length := by
    rw [List.length_set]
    exact lt_of_lt_of_le (by decide) hlength
  obtain ⟨b₁, hb₁⟩ := h.exists_buffer h1
  obtain ⟨buffers₁, hdiscard₁, hbufs₁, h₁⟩ := SimpleBuffers.discard_represents h hb₁
  obtain ⟨b₂, hb₂⟩ := h₁.exists_buffer h2
  obtain ⟨buffers₂, hdiscard₂, hbufs₂, h₂⟩ := SimpleBuffers.discard_represents h₁ hb₂
  refine ⟨buffers₂, _, ?_, h₂, ?_, ?_⟩
  · rw [endContext, hdiscard₁, ok_bind, hdiscard₂]
  · rwa [List.length_set, List.length_set]
  · rw [hbufs₂, hbufs₁, List.getElem?_set_ne (by decide), List.getElem?_set_ne (by decide)]

/-! ## Runs -/

/-- What is in the buffers at each stage. A buffer that is lent is as it was lent, but for what came in. -/
def Holds (env : ReadingEnv) (s : Reading) : Stage → Prop
  | .apart =>
    (∃ b, s.buffers.bufs[readBuffer]? = some b ∧ (0 < env.inputBufferSize → 0 < b.size) ∧
      ∀ view ∈ s.views, view.buf = b.buf ∧ view.size = b.size ∧
        ∀ bs ∈ view.data, bs.length ≤ b.size ∧ (s.buffers.bytes readBuffer).take bs.length = bs) ∧
    s.received = s.handed ++ s.views.flatMap (·.data.getD []) ∧ s.bytesRx = s.handed.length
  | .ended => s.received = s.handed ++ s.buffers.bytes inputBuffer ∧ s.bytesRx = s.received.length
  | .handling => s.received = s.handed ∧ s.bytesRx = s.handed.length

structure Sound (env : ReadingEnv) (s : Reading) : Prop where
  outstanding : outstandingReads s.conn ≤ 1
  flight : s.views.length = s.conn.readsInFlight
  fault : s.fault = none
  owned : ∃ vs, s.buffers.Represents vs ∧ 3 ≤ vs.length
  holds : ∃ st, AtStage s.conn st ∧ Holds env s st

theorem Sound.view_unique (h : Sound env s) {k : Nat} {view : ReadView} (hview : s.views[k]? = some view) :
    k = 0 ∧ s.views = [view] := by
  have hlength := h.flight
  have hone := h.outstanding
  have hlt := (List.getElem?_eq_some_iff.1 hview).1
  unfold outstandingReads at hone
  obtain ⟨view', hviews⟩ := List.length_eq_one_iff.1 (show s.views.length = 1 by omega)
  rw [hviews] at hview hlt ⊢
  obtain rfl : k = 0 := Nat.lt_one_iff.1 hlt
  exact ⟨rfl, congrArg (· :: []) (Option.some.inj hview)⟩

/-- A read in flight is one of a connection that handles no input. -/
theorem Sound.apart_of_view (h : Sound env s) {view : ReadView} (hviews : s.views = [view]) :
    AtStage s.conn .apart ∧ Holds env s .apart := by
  obtain ⟨st, hat, hholds⟩ := h.holds
  have hlength := h.flight
  rw [hviews] at hlength
  by_cases hst : st = .apart
  · exact hst ▸ ⟨hat, hholds⟩
  · have hnone := Connection.no_read_of_stage hat hst h.outstanding
    rw [hnone] at hlength
    cases hlength

/-- Reading is not started while a read is in flight or its input is being handled. -/
def ReadNotRestarted (s : Reading) (_ : ReadingAction) : Prop := Connection.ReadNotRestarted s.conn .none

instance (s : Reading) (a : ReadingAction) : Decidable (ReadNotRestarted s a) :=
  inferInstanceAs (Decidable (Connection.ReadNotRestarted s.conn .none))

theorem lend_eq {buffers : SimpleBuffers} {b : SimpleBuffer} (hb : buffers.bufs[readBuffer]? = some b) :
    lend buffers = ⟨b.buf, b.size, none⟩ := by
  rw [lend, hb]

/-- With a read that begins, or with none, the views are as the buffer is. -/
theorem views_lent {views : List ReadView} {b : SimpleBuffer} {buffers : SimpleBuffers} {n m : Nat}
    (hb : buffers.bufs[readBuffer]? = some b) (hlength : views.length = n) (hone : m ≤ 1) (hmn : m = n ∨ m = n + 1)
    {P : ReadView → Prop} (hviews : ∀ view ∈ views, P view) (hlent : P ⟨b.buf, b.size, none⟩) :
    (views ++ List.replicate (m - n) (lend buffers)).length = m ∧
      (∀ view ∈ views ++ List.replicate (m - n) (lend buffers), P view) ∧
      (views ++ List.replicate (m - n) (lend buffers)).flatMap (·.data.getD []) = views.flatMap (·.data.getD []) := by
  rw [lend_eq hb]
  rcases hmn with rfl | rfl
  · simp only [Nat.sub_self, List.replicate_zero, List.append_nil]
    exact ⟨hlength, hviews, trivial⟩
  · obtain rfl : views = [] := List.eq_nil_of_length_eq_zero (by omega)
    simp only [Nat.add_sub_cancel_left, List.replicate_one, List.nil_append]
    exact ⟨congrArg Nat.succ hlength, by simpa using hlent, by simp⟩

theorem Sound.proceeds (h : Sound env s) {i : Connection.Input} {conn : Connection}
    (hrestart : Connection.ReadNotRestarted s.conn i) (hi : i.endsReading = false)
    (hstep : Connection.step env.connection s.conn i = some conn) :
    Sound env { besides env s with
      conn
      views := (besides env s).views ++
        List.replicate (conn.readsInFlight - s.conn.readsInFlight) (lend (besides env s).buffers) } := by
  have hone := Connection.step_reads h.outstanding hrestart hstep
  have hreads : conn.readsInFlight ≤ 1 := by
    unfold outstandingReads at hone
    omega
  obtain ⟨vs, hvs, hlength⟩ := h.owned
  obtain ⟨st, hat, hholds⟩ := h.holds
  cases st with
  | apart =>
    rw [besides_of_apart hat]
    obtain ⟨⟨b, hb, hpos, hviews⟩, hstream, hrx⟩ := hholds
    obtain ⟨hat', hsame⟩ := Connection.step_apart hat hi hstep
    obtain ⟨hflight, hviews', hstream'⟩ := views_lent hb h.flight hreads hsame hviews ⟨rfl, rfl, by simp⟩
    refine ⟨hone, hflight, h.fault, ⟨vs, hvs, hlength⟩, .apart, hat', ⟨b, hb, hpos, hviews'⟩, ?_, hrx⟩
    show s.received = s.handed ++ _
    rw [hstream', hstream]
  | ended =>
    obtain ⟨hstream, hrx⟩ := hholds
    obtain ⟨hat', hsame⟩ := Connection.step_ended hat hstep
    have hgiven : besides env s = { s with handed := s.handed ++ s.buffers.bytes inputBuffer } := by
      rw [besides, show s.conn.stack = [.inputHandler, .afterInput] from hat]
      rfl
    rw [hgiven, hsame, Nat.sub_self, List.replicate_zero, List.append_nil]
    refine ⟨hone, h.flight.trans hsame.symm, h.fault, ⟨vs, hvs, hlength⟩, .handling, hat', hstream, ?_⟩
    rw [← hstream]
    exact hrx
  | handling =>
    obtain ⟨hstream, hrx⟩ := hholds
    have hnone := Connection.no_read_of_stage hat (by simp) h.outstanding
    have hnil : s.views = [] := List.eq_nil_of_length_eq_zero (h.flight.trans hnone)
    obtain ⟨hnext, hsame⟩ := Connection.step_handling hat hstep
    rcases hnext with ⟨hstack, hat'⟩ | ⟨⟨f, hf, hother⟩, hat'⟩
    · -- the input was handled, and the buffer for the next read is made ready
      obtain ⟨buffers₁, vs₁, hprepare, h₁, hlength₁, b, hb, hpos⟩ :=
        prepareNext_represents hvs hlength env.inputBufferSize
      obtain ⟨buffers₂, vs₂, hend, h₂, hlength₂, hsameBuffer⟩ := endContext_represents h₁ hlength₁
      have hbesides : besides env s = { s with buffers := buffers₂ } := by
        rw [besides, hstack]
        refine onBuffers_ok ?_
        show (prepareNext env.inputBufferSize s.buffers >>= fun buffers => endContext buffers) = _
        rw [hprepare, ok_bind, hend]
      rw [hbesides]
      have hb₂ := hsameBuffer.trans hb
      obtain ⟨hflight, hviews', hstream'⟩ := views_lent (P := fun view => view.buf = b.buf ∧ view.size = b.size ∧
        ∀ bs ∈ view.data, bs.length ≤ b.size ∧ (buffers₂.bytes readBuffer).take bs.length = bs) hb₂ h.flight hreads
        hsame (by rw [hnil]; simp) ⟨rfl, rfl, by simp⟩
      refine ⟨hone, hflight, h.fault, ⟨vs₂, h₂, hlength₂⟩, .apart, hat', ⟨b, hb₂, hpos, hviews'⟩, ?_, hrx⟩
      show s.received = s.handed ++ _
      rw [hstream', hnil, hstream]
      simp
    · rw [besides_of_other hf hother]
      have hnone' := Connection.no_read_of_stage hat' (by simp) hone
      rw [hnone', Nat.zero_sub, List.replicate_zero, List.append_nil]
      exact ⟨hone, h.flight.trans (hnone.trans hnone'.symm), h.fault, ⟨vs, hvs, hlength⟩, .handling, hat', hstream, hrx⟩

theorem Sound.fills (h : Sound env s) {k : Nat} {buf : Option Nat} {size : Nat} {bs : Bytes}
    (hview : s.views[k]? = some ⟨buf, size, none⟩) (hfits : bs.length ≤ size) :
    Sound env { s.onBuffers (SimpleBuffers.fill buf bs) with
      views := (s.onBuffers (SimpleBuffers.fill buf bs)).views.set k ⟨buf, size, some bs⟩
      received := (s.onBuffers (SimpleBuffers.fill buf bs)).received ++ bs } := by
  obtain ⟨rfl, hviews⟩ := h.view_unique hview
  obtain ⟨hat, ⟨b, hb, hpos, hlent⟩, hstream, hrx⟩ := h.apart_of_view hviews
  obtain ⟨hbuf, hsize, -⟩ := hlent _ (hviews ▸ List.mem_singleton_self _)
  obtain rfl : buf = b.buf := hbuf
  obtain rfl : size = b.size := hsize
  obtain ⟨vs, hvs, hlength⟩ := h.owned
  obtain ⟨v, hv, hvsize, -, -⟩ := hvs.get hb
  -- the memory that was lent is that of the buffer still
  obtain ⟨buffers, hfill, hbufs, hvs'⟩ := SimpleBuffers.fill_represents hvs hb hv hfits
  have hlt := (List.getElem?_eq_some_iff.1 hv).1
  have hbytes : (buffers.bytes readBuffer).take bs.length = bs := by
    rw [hvs'.bytes_of (List.getElem?_set_self hlt)]
    exact v.take_overwrite (hvsize ▸ hfits)
  rw [onBuffers_ok hfill]
  refine ⟨h.outstanding, ?_, h.fault, ⟨_, hvs', by rwa [List.length_set]⟩, .apart, hat, ⟨b, ?_, hpos, ?_⟩, ?_, hrx⟩
  · show (s.views.set 0 _).length = _
    rw [List.length_set]
    exact h.flight
  · show buffers.bufs[readBuffer]? = _
    rw [hbufs, hb]
  · intro view hmem
    change view ∈ s.views.set 0 _ at hmem
    rw [hviews] at hmem
    obtain rfl : view = ⟨b.buf, b.size, some bs⟩ := List.mem_singleton.1 hmem
    refine ⟨rfl, rfl, fun bs' hbs' => ?_⟩
    obtain rfl : bs = bs' := Option.some.inj hbs'
    exact ⟨hfits, hbytes⟩
  · show s.received ++ bs = s.handed ++ (s.views.set 0 ⟨b.buf, b.size, some bs⟩).flatMap _
    rw [hstream, hviews]
    simp

theorem Sound.completes (h : Sound env s) {k : Nat} {buf : Option Nat} {size : Nat} {bs : Bytes} {conn : Connection}
    (hview : s.views[k]? = some ⟨buf, size, some bs⟩)
    (hstep : Connection.step env.connection s.conn (.item (.readDone none)) = some conn) :
    Sound env { s.onBuffers (reduceSizeInput bs.length) with
      conn
      views := (s.onBuffers (reduceSizeInput bs.length)).views.eraseIdx k
      bytesRx := (s.onBuffers (reduceSizeInput bs.length)).bytesRx + bs.length } := by
  obtain ⟨rfl, hviews⟩ := h.view_unique hview
  obtain ⟨-, ⟨b, hb, -, hlent⟩, hstream, hrx⟩ := h.apart_of_view hviews
  obtain ⟨-, -, hdata⟩ := hlent _ (hviews ▸ List.mem_singleton_self _)
  obtain ⟨hfits, hbytes⟩ := hdata bs rfl
  obtain ⟨vs, hvs, hlength⟩ := h.owned
  obtain ⟨buffers, vs', hreduce, hvs', hlength', hgiven⟩ := reduceSizeInput_represents hvs hb hlength hfits
  obtain ⟨hstack, -, henters⟩ := Connection.enters_of_step hstep
  have hone : s.conn.readsInFlight = 1 := by
    rw [← h.flight, hviews]
    rfl
  rw [onBuffers_ok hreduce]
  rw [hviews] at hstream
  have hall : s.received = s.handed ++ buffers.bytes inputBuffer := by
    rw [hgiven, hbytes, hstream]
    simp
  refine ⟨?_, ?_, h.fault, ⟨vs', hvs', hlength'⟩, .ended, ?_, hall, ?_⟩
  · exact (Connection.enters_reads henters).trans h.outstanding
  · cases henters with
    | read inFlight =>
      show (s.views.eraseIdx 0).length = s.conn.readsInFlight - 1
      rw [hviews, hone]
      rfl
  · cases henters with
    | read inFlight =>
      show .inputHandler :: .afterInput :: s.conn.stack = _
      rw [hstack]
  · show s.bytesRx + bs.length = s.received.length
    rw [hall, hgiven, hbytes, List.length_append, hrx]

theorem Sound.fails (h : Sound env s) {k : Nat} {buf : Option Nat} {size : Nat} {ec : ErrorCode} {conn : Connection}
    (hview : s.views[k]? = some ⟨buf, size, none⟩)
    (hstep : Connection.step env.connection s.conn (.item (.readDone (some ec))) = some conn) :
    Sound env { s with conn, views := s.views.eraseIdx k } := by
  obtain ⟨rfl, hviews⟩ := h.view_unique hview
  obtain ⟨-, ⟨b, hb, hpos, -⟩, hstream, hrx⟩ := h.apart_of_view hviews
  obtain ⟨hstack, -, henters⟩ := Connection.enters_of_step hstep
  have hone : s.conn.readsInFlight = 1 := by
    rw [← h.flight, hviews]
    rfl
  rw [hviews] at hstream
  refine ⟨(Connection.enters_reads henters).trans h.outstanding, ?_, h.fault, h.owned, .apart, ?_,
    ⟨b, hb, hpos, ?_⟩, ?_, hrx⟩
  · cases henters with
    | readFailed ec inFlight =>
      obtain ⟨hreads, -⟩ := Connection.handleIoError_elsewhere env.connection ec
        { s.conn with readsInFlight := s.conn.readsInFlight - 1 }
      show (s.views.eraseIdx 0).length = _
      rw [hreads, hviews, hone]
      rfl
  · cases henters with
    | readFailed ec inFlight =>
      obtain ⟨-, gs, hgs, hother⟩ := Connection.handleIoError_elsewhere env.connection ec
        { s.conn with readsInFlight := s.conn.readsInFlight - 1 }
      intro g hg
      change g ∈ (Connection.handleIoError ..).stack at hg
      rw [hgs] at hg
      rcases List.mem_append.1 hg with hg | hg
      · exact hother g hg
      · rw [show s.conn.stack = [] from hstack] at hg
        cases hg
  · rw [hviews]
    simp
  · rw [hviews]
    exact hstream

/-- Whatever the user does with his buffers and the ones of the input context. -/
theorem Sound.user (h : Sound env s) {op : BufferOp} (hmay : UserMay s op) :
    Sound env (s.onBuffers fun buffers => buffers.call op) := by
  obtain ⟨hpre, hnames⟩ := hmay
  obtain ⟨vs, hvs, hlength⟩ := h.owned
  obtain ⟨buffers, hcall, hvs'⟩ := SimpleBuffers.call_represents hvs hpre
  have hlength' := hlength.trans (ByteVector.length_le_apply vs op)
  have hsame : ∀ i, i < 3 → i ∉ op.names →
      buffers.bufs[i]? = s.buffers.bufs[i]? ∧ buffers.bytes i = s.buffers.bytes i := by
    intro i hi hop
    have hvi : i < vs.length := hi.trans_le hlength
    have htarget : i ∉ op.targets := fun hmem => hop (op.targets_subset_names hmem)
    refine ⟨SimpleBuffers.call_frame hcall (hvs.length ▸ hvi) htarget, ?_⟩
    rw [hvs'.bytes, hvs.bytes, ByteVector.getElem?_apply hvi htarget]
  obtain ⟨hsameBuffer, hsameBytes⟩ := hsame readBuffer (by decide) fun hmem => (hnames _ hmem).1 rfl
  rw [onBuffers_ok hcall]
  obtain ⟨st, hat, hholds⟩ := h.holds
  refine ⟨h.outstanding, h.flight, h.fault, ⟨_, hvs', hlength'⟩, st, hat, ?_⟩
  cases st with
  | apart =>
    obtain ⟨⟨b, hb, hpos, hviews⟩, hstream, hrx⟩ := hholds
    refine ⟨⟨b, hsameBuffer.trans hb, hpos, fun view hmem => ?_⟩, hstream, hrx⟩
    show _ ∧ _ ∧ ∀ bs ∈ view.data, _ ∧ (buffers.bytes readBuffer).take _ = _
    rw [hsameBytes]
    exact hviews view hmem
  | ended =>
    have hnot : inputBuffer ∉ op.names := by
      intro hmem
      rcases (hnames _ hmem).2 with hlt | hhandled
      · exact absurd hlt (by decide)
      · refine hhandled.2 ?_
        rw [show s.conn.stack = [.inputHandler, .afterInput] from hat]
        exact List.mem_cons_self
    obtain ⟨-, hsameInput⟩ := hsame inputBuffer (by decide) hnot
    show s.received = s.handed ++ buffers.bytes inputBuffer ∧ _
    rw [hsameInput]
    exact hholds
  | handling => exact hholds

theorem Sound.step (h : Sound env s) {a : ReadingAction} (hrestart : ReadNotRestarted s a)
    (hstep : step env s a = some s') : Sound env s' := by
  cases moves_of_step hstep with
  | proceeds i conn other moved => exact h.proceeds (i := i) hrestart other moved
  | fills k buf size bs view fits => exact h.fills view fits
  | completes k buf size bs conn view moved => exact h.completes view moved
  | fails k buf size ec conn view moved => exact h.fails view moved
  | user op may => exact h.user may

theorem sound_init (env : ReadingEnv) : Sound env (init env) := by
  have h₁ := SimpleBuffers.constructWith_represents SimpleBuffers.represents_init (List.replicate env.inputBufferSize 0)
  have h₂ := SimpleBuffers.constructWith_represents h₁ []
  have h₃ := SimpleBuffers.constructWith_represents h₂ []
  have hvs : (([] ++ [ByteVector.ofBytes (List.replicate env.inputBufferSize 0)]) ++ [ByteVector.ofBytes []]) ++
      [ByteVector.ofBytes []] = [.ofBytes (List.replicate env.inputBufferSize 0), .ofBytes [], .ofBytes []] := rfl
  rw [hvs] at h₃
  obtain ⟨b, hb⟩ := h₃.exists_buffer (show readBuffer < 3 by decide)
  obtain ⟨v, hv, hsize, -, -⟩ := h₃.get hb
  have hsize' : b.size = env.inputBufferSize := by
    rw [hsize, ← Option.some.inj hv]
    exact List.length_replicate
  refine ⟨show outstandingReads {} ≤ 1 by decide, rfl, rfl, ⟨_, h₃, by simp⟩, .apart, by simp [AtStage, init],
    ⟨b, hb, ?_, by simp [init]⟩, rfl, rfl⟩
  rw [hsize']
  exact id

/-- What a connection with its memory promises. -/
structure ReadsSafely (env : ReadingEnv) (s : Reading) : Prop where
  /-- No assertion failed, and nothing was written to memory that is not there. -/
  noFault : s.fault = none
  single : s.views.length ≤ 1
  /-- A read in flight writes to the buffer of the connection, which is as large as it was when it was lent, and
  to memory that no other buffer has. -/
  lent : ∀ view ∈ s.views, ∃ b, s.buffers.bufs[readBuffer]? = some b ∧ view.buf = b.buf ∧ view.size = b.size ∧
    (0 < env.inputBufferSize → 0 < view.size) ∧
    ∀ k b', k ≠ readBuffer → s.buffers.bufs[k]? = some b' → b'.buf.isSome → b'.buf ≠ view.buf
  /-- The user is handed what came in, all of it but for what has come in and is on its way to the user. -/
  stream : s.handed <+: s.received
  complete : s.conn.readsInFlight = 0 → .inputHandler ∉ s.conn.stack → s.handed = s.received ∧
    s.bytesRx = s.received.length

theorem Sound.readsSafely (h : Sound env s) : ReadsSafely env s := by
  have hone := h.outstanding
  unfold outstandingReads at hone
  obtain ⟨vs, hvs, hlength⟩ := h.owned
  obtain ⟨st, hat, hholds⟩ := h.holds
  refine ⟨h.fault, by rw [h.flight]; omega, fun view hmem => ?_, ?_, fun hreads hgiven => ?_⟩
  · have hviews : s.views = [view] := by
      obtain ⟨k, hk⟩ := List.mem_iff_getElem?.1 hmem
      exact (h.view_unique hk).2
    obtain ⟨-, ⟨b, hb, hpos, hlent⟩, -⟩ := h.apart_of_view hviews
    obtain ⟨hbuf, hsize, -⟩ := hlent view hmem
    refine ⟨b, hb, hbuf, hsize, hsize ▸ hpos, fun k b' hk hb' hsome heq => ?_⟩
    obtain ⟨p, hp⟩ := Option.isSome_iff_exists.1 hsome
    have hlt : readBuffer < s.buffers.ptrs.length := by
      rw [SimpleBuffers.length_ptrs]
      exact (List.getElem?_eq_some_iff.1 hb).1
    have hptr : s.buffers.ptrs[readBuffer] = b.buf := by
      rw [← (List.getElem?_eq_some_iff.1 hb).2]
      exact List.getElem_map ..
    have hptr' : s.buffers.ptrs[k]? = some b'.buf := by
      rw [SimpleBuffers.ptrs, List.getElem?_map, hb']
      rfl
    refine hvs.owned.apart_at hlt hk hptr' p ?_ hp
    rw [hptr, ← hbuf, ← heq, hp]
  · cases st with
    | apart => exact hholds.2.1 ▸ List.prefix_append _ _
    | ended => exact hholds.1 ▸ List.prefix_append _ _
    | handling => exact hholds.1 ▸ List.prefix_rfl
  · cases st with
    | apart =>
      obtain ⟨-, hstream, hrx⟩ := hholds
      rw [List.eq_nil_of_length_eq_zero (h.flight.trans hreads), List.flatMap_nil, List.append_nil] at hstream
      exact ⟨hstream.symm, hstream ▸ hrx⟩
    | ended =>
      rw [show s.conn.stack = [.inputHandler, .afterInput] from hat] at hgiven
      exact absurd List.mem_cons_self hgiven
    | handling => exact ⟨hholds.1.symm, hholds.1 ▸ hholds.2⟩

/-- In every run in which reading is not started again while a read is in flight or its input is being handled,
a read writes to memory of the connection alone, whatever the user does with buffers, and the user is handed
what came in. -/
theorem reads_are_safe (env : ReadingEnv) (actions : List ReadingAction) (s : Reading)
    (hrestart : Along (step env) ReadNotRestarted (init env) actions)
    (hrun : execute (step env) (init env) actions = some s) : ReadsSafely env s :=
  (execute_invariant (fun _ _ _ h hrestart hstep => Sound.step h hrestart hstep) actions (sound_init env) hrestart
    hrun).readsSafely

def plainReading : ReadingEnv := ⟨⟨64, 32, by decide, false, false⟩, 4⟩

/-- The user keeps the buffer of the first read, sets one of his own, and leaves that one for the third read,
which needs a larger one. -/
theorem reads_are_safe_kept : ∃ s, execute (step plainReading) (init plainReading)
    [.proceeds (.item (.call .startReading)), .proceeds .none, .fills 0 [1, 2, 3], .completes 0, .proceeds (.calls []),
      .user (.moveConstruct 1), .user (.constructSize 2), .user (.moveAssign 2 4), .proceeds .none, .proceeds .none,
      .user (.write 3 0 9), .fills 0 [4, 5], .completes 0, .proceeds (.calls []), .proceeds .none, .proceeds .none,
      .fills 0 [6, 7, 8, 9]] = some s ∧ s.handed = [1, 2, 3, 4, 5] ∧ s.buffers.bytes 3 = [9, 2, 3] ∧
    ReadsSafely plainReading s := by
  obtain ⟨s, hrun, hs⟩ := exists_execute (step plainReading) (init plainReading)
    [.proceeds (.item (.call .startReading)), .proceeds .none, .fills 0 [1, 2, 3], .completes 0, .proceeds (.calls []),
      .user (.moveConstruct 1), .user (.constructSize 2), .user (.moveAssign 2 4), .proceeds .none, .proceeds .none,
      .user (.write 3 0 9), .fills 0 [4, 5], .completes 0, .proceeds (.calls []), .proceeds .none, .proceeds .none,
      .fills 0 [6, 7, 8, 9]] (fun s => s.handed = [1, 2, 3, 4, 5] ∧ s.buffers.bytes 3 = [9, 2, 3]) (by decide +kernel)
  exact ⟨s, hrun, hs.1, hs.2, reads_are_safe plainReading _ s (by decide +kernel) hrun⟩

end Reading

end Opio.Net
