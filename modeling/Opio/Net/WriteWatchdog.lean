/-
The watchdog of asynchronous writes. A timer that was called off may have expired before, and the
check it asks for waits in the queue of the strand behind whatever comes first. The key of the
watchdog, which every start and every cancel move on, tells such a check from that of the write in
progress.
-/
import Opio.Net.ShutdownHandler

namespace Opio.Net

/-! ## The watchdog -/

/-- A wait of the timer, with the key its handler was given and the write it is for. -/
structure Watch where
  timeoutKey : Nat
  write : Nat
  deriving DecidableEq, Repr

/-- `asio_timer_operation_watchdog_t`. -/
structure OperationWatchdog where
  timeoutKey : Nat := 0
  /-- The wait of `m_operation_timer`. -/
  pending : Option Watch := none
  /-- The waits that are over and whose handlers have not run. -/
  expired : List Watch := []
  deriving DecidableEq, Repr

namespace OperationWatchdog

def startWatchOperation (write : Nat) (w : OperationWatchdog) : OperationWatchdog :=
  { w with
    timeoutKey := w.timeoutKey + 1
    pending := some ⟨w.timeoutKey + 1, write⟩ }

/-- A handler that is in a queue is not called off. -/
def cancelWatchOperation (w : OperationWatchdog) : OperationWatchdog :=
  { w with
    timeoutKey := w.timeoutKey + 1
    pending := none }

/-- The time of the wait is over. -/
def expire (w : OperationWatchdog) : Option OperationWatchdog :=
  w.pending.map fun watch => { w with pending := none, expired := w.expired ++ [watch] }

/-- Cancels so many times. -/
def cancels (n : Nat) (w : OperationWatchdog) : OperationWatchdog := Nat.repeat cancelWatchOperation n w

theorem cancels_timeoutKey (n : Nat) (w : OperationWatchdog) : (w.cancels n).timeoutKey = w.timeoutKey + n := by
  induction n with
  | zero => rfl
  | succ n ih => exact congrArg (· + 1) ih

theorem cancels_expired (n : Nat) (w : OperationWatchdog) : (w.cancels n).expired = w.expired := by
  induction n with
  | zero => rfl
  | succ n ih => exact ih

theorem cancels_pending {n : Nat} (hn : 0 < n) (w : OperationWatchdog) : (w.cancels n).pending = none := by
  cases n with
  | zero => cases hn
  | succ n => rfl

end OperationWatchdog

/-! ## The connection with its watchdog -/

structure Watched where
  conn : Connection := {}
  watchdog : OperationWatchdog := {}
  /-- The checks that wait for the strand. -/
  posted : List Watch := []
  /-- The asynchronous writes in flight: their numbers and what they were given. -/
  inFlight : List (Nat × List Bytes) := []
  /-- How many asynchronous writes were started. -/
  writes : Nat := 0
  /-- The writes whose wait was over at some time. -/
  timedOut : List Nat := []
  deriving DecidableEq, Repr

namespace Watched

inductive Action
  /-- The connection goes on with something that is neither of the next two. -/
  | goesOn (i : Connection.Input)
  | writeCompletes (write : Nat) (r : WriteResult)
  /-- `handle_write_operation_timeout_impl` on the strand. -/
  | checks (watch : Watch)
  | expires
  /-- The handler of the timer runs, wherever that is, and posts the check. -/
  | fires (watch : Watch)
  deriving DecidableEq, Repr

/-- What a step of the connection asked of the watchdog: to watch the write that it started, or to
cancel as often as the key went on. -/
def watching (s : Watched) (c : Connection) : Watched :=
  match c.asyncWrite with
  | some bufs =>
    { s with
      conn := { c with asyncWrite := none }
      watchdog := s.watchdog.startWatchOperation s.writes
      inFlight := s.inFlight ++ [(s.writes, bufs)]
      writes := s.writes + 1 }
  | none => { s with conn := c, watchdog := s.watchdog.cancels (c.timeoutKey - s.conn.timeoutKey) }

/-- The connection and its watchdog go; the timer takes its wait with it. -/
def destroyed (s : Watched) (c : Connection) : Watched :=
  { s with conn := c, watchdog := { s.watchdog with pending := none } }

def step (env : ConnectionEnv) (s : Watched) : Action → Option Watched
  | .goesOn i =>
    match i with
    | .item (.asyncWriteDone _) => none
    | .item (.writeTimeout _) => none
    | .item (.destroy transferred) => (Connection.step env s.conn (.item (.destroy transferred))).map s.destroyed
    | i => (Connection.step env s.conn i).map s.watching
  | .writeCompletes write r =>
    match s.inFlight.lookup write with
    | some bufs =>
      let s := { s with inFlight := s.inFlight.filter (·.1 ≠ write) }
      (Connection.step env { s.conn with asyncWrite := some bufs } (.item (.asyncWriteDone r))).map s.watching
    | none => none
  | .checks watch =>
    if watch ∈ s.posted then
      let s := { s with posted := s.posted.erase watch }
      (Connection.step env s.conn (.item (.writeTimeout watch.timeoutKey))).map s.watching
    else none
  | .expires =>
    match s.watchdog.pending, s.watchdog.expire with
    | some watch, some watchdog => some { s with watchdog, timedOut := s.timedOut ++ [watch.write] }
    | _, _ => none
  | .fires watch =>
    if watch ∈ s.watchdog.expired then
      let watchdog := { s.watchdog with expired := s.watchdog.expired.erase watch }
      -- `wp.lock()`
      some { s with watchdog, posted := if s.conn.destroyed then s.posted else s.posted ++ [watch] }
    else none

/-- The cause for a shutdown that comes with the action. -/
def cause (s : Watched) : Action → Option ConnectionShutdownReason
  | .goesOn i => Connection.shutdownCause s.conn i
  | .writeCompletes _ r => Connection.shutdownCause s.conn (.item (.asyncWriteDone r))
  | .checks watch => Connection.shutdownCause s.conn (.item (.writeTimeout watch.timeoutKey))
  | .expires => none
  | .fires _ => none

/-- The asynchronous write that was started last of those in flight. -/
def writeInProgress (s : Watched) : Option Nat := s.inFlight.getLast?.map (·.1)

end Watched

/-! ## What a step asks for -/

namespace Connection

variable {env : ConnectionEnv} {c c' : Connection}

/-- No write is started, and the key does not go back. -/
def Keeps (c c' : Connection) : Prop := c'.asyncWrite = c.asyncWrite ∧ c.timeoutKey ≤ c'.timeoutKey

/-- A write is started, and the key goes on by one. -/
def Starts (c c' : Connection) : Prop := c'.asyncWrite.isSome = true ∧ c'.timeoutKey = c.timeoutKey + 1

theorem shutdownImpl_keeps (reason : ConnectionShutdownReason) (c : Connection) :
    Keeps c (shutdownImpl env reason c) := by
  refine shutdownImpl_elim env reason c ?again ?first
  case again => exact fun _ => ⟨rfl, Nat.le_refl _⟩
  case first =>
    intro _ c₁ hflags
    have hkeeps : Keeps c c₁ := by
      rcases hflags with ⟨-, rfl⟩ | ⟨-, rfl⟩
      · exact ⟨rfl, Nat.le_succ _⟩
      · exact ⟨rfl, Nat.le_refl _⟩
    split <;> exact hkeeps

theorem handleIoError_keeps (ec : ErrorCode) (c : Connection) : Keeps c (handleIoError env ec c) := by
  unfold handleIoError
  split
  · exact ⟨rfl, Nat.le_refl _⟩
  · exact shutdownImpl_keeps _ c

/-- The end of a write calls its watch off. -/
theorem afterWrite_keeps (env : ConnectionEnv) (ec : Option ErrorCode) (c : Connection) :
    (afterWrite env ec c).asyncWrite = c.asyncWrite ∧ c.timeoutKey < (afterWrite env ec c).timeoutKey := by
  unfold afterWrite
  cases ec with
  | none => exact ⟨rfl, Nat.lt_succ_self _⟩
  | some ec => exact handleIoError_keeps ec _

theorem initiateWrite_asks (env : ConnectionEnv) (c : Connection) :
    Keeps c (initiateWriteIfNecessary env c) ∨ Starts c (initiateWriteIfNecessary env c) := by
  refine initiateWrite_elim env c ?running ?nothing ?sync ?async
  case running => exact fun _ => .inl ⟨rfl, Nat.le_refl _⟩
  case nothing => exact fun _ _ => .inl ⟨rfl, Nat.le_refl _⟩
  case sync => exact fun _ _ _ => .inl ⟨rfl, Nat.le_refl _⟩
  case async => exact fun _ _ => .inr ⟨rfl, rfl⟩

theorem syncWritten_asks {r : WriteResult} (possible : r.PossibleSync (front c.writeQueue).totalSize) :
    Keeps c (syncWritten env r c) ∨ Starts c (syncWritten env r c) := by
  refine syncWritten_elim env possible ?completed ?blocked
  case completed =>
    intro _
    obtain ⟨hwrite, hkey⟩ := afterWrite_keeps env r.ec
      ({ c.emit (.taken ((front c.writeQueue).asioBufs.flatten.take r.transferred)) with
        writeQueue := freezeFirst c.writeQueue }.push (.incBytesTxSync r.transferred))
    exact .inl ⟨hwrite, hkey.le⟩
  case blocked => exact fun _ _ => .inr ⟨rfl, rfl⟩

theorem exec_keeps (call : Call) (c : Connection) : Keeps c (exec env c call) := by
  cases call with
  | send s =>
    show Keeps c (scheduleSend s c)
    refine scheduleSend_elim s c ?accepted ?rejected ?ignored
    all_goals
      intros
      exact ⟨rfl, Nat.le_refl _⟩
  | shutdown => exact shutdownImpl_keeps _ c
  | startReading =>
    show Keeps c (startReading c)
    unfold startReading
    split <;> exact ⟨rfl, Nat.le_refl _⟩
  | stopReading => exact ⟨rfl, Nat.le_refl _⟩

theorem append_keeps (bufs : List Bytes) (beAggressive cb : Bool) (id : Nat) (c : Connection) :
    Keeps c (append env bufs beAggressive id cb c) := by
  refine append_elim env bufs beAggressive id cb c ?delivered ?ended ?noted ?queued ?direct ?buffered
  all_goals
    intros
    exact ⟨rfl, Nat.le_refl _⟩

theorem aggressiveWritten_keeps (buf : Bytes) (bufs : List Bytes) (id : Nat) (cb : Bool) (r : WriteResult)
    (c : Connection) : Keeps c (aggressiveWritten env buf bufs id cb r c) := by
  refine aggressiveWritten_elim env buf bufs id cb r c ?whole ?partly
  all_goals
    intros
    exact ⟨rfl, Nat.le_refl _⟩

/-- A step of the running work item starts a write, or starts none. -/
theorem continues_asks {f : Frame} {i : Input} (h : Continues env c f i c') : Keeps c c' ∨ Starts c c' := by
  cases h with
  | call call => exact .inl (exec_keeps call c)
  | append bufs beAggressive id cb => exact .inl (append_keeps bufs beAggressive cb id c)
  | aggressiveWrite buf bufs id cb r => exact .inl (aggressiveWritten_keeps buf bufs id cb r c)
  | initiateWrite => exact initiateWrite_asks env c
  | syncWrite r possible => exact syncWritten_asks possible
  | afterInput =>
    refine .inl ?_
    unfold afterInput
    split <;> exact ⟨rfl, Nat.le_refl _⟩
  | _ => exact .inl ⟨rfl, Nat.le_refl _⟩

/-- A step of a connection with no write of its own in flight. -/
theorem step_asks {i : Input} (hidle : c.asyncWrite = none) (h : step env c i = some c') :
    c'.asyncWrite = none ∧ c.timeoutKey ≤ c'.timeoutKey ∨ Starts c c' := by
  rcases step_inversion h with ⟨item, rfl, -, -, henters⟩ | ⟨f, c₀, rfl, hcontinues⟩
  · refine .inl ?_
    cases henters with
    | call call => exact ⟨hidle, Nat.le_refl _⟩
    | asyncWriteDone bufs r inFlight => exact absurd (hidle.symm.trans inFlight) (Option.some_ne_none bufs).symm
    | readFailed ec =>
      have hkeeps : Keeps _ (handleIoError env ec _) :=
        handleIoError_keeps ec { c with readsInFlight := c.readsInFlight - 1 }
      exact ⟨hkeeps.1.trans hidle, hkeeps.2⟩
    | read => exact ⟨hidle, Nat.le_refl _⟩
    | timedOut timeoutKey =>
      have hkeeps : Keeps c (shutdownImpl env .writeTimeout c) := shutdownImpl_keeps .writeTimeout c
      exact ⟨hkeeps.1.trans hidle, hkeeps.2⟩
    | late timeoutKey => exact ⟨hidle, Nat.le_refl _⟩
    | destroy n =>
      simp only [destroy, hidle, handleRemainigWriteQueue]
      split
      · exact ⟨rfl, Nat.le_refl _⟩
      · exact ⟨hidle, Nat.le_refl _⟩
  · rcases continues_asks hcontinues with hkeeps | hstarts
    · exact .inl ⟨hkeeps.1.trans hidle, hkeeps.2⟩
    · exact .inr hstarts

/-- The completion of a write calls its watch off. -/
theorem step_asyncWriteDone {bufs : List Bytes} {r : WriteResult}
    (h : step env { c with asyncWrite := some bufs } (.item (.asyncWriteDone r)) = some c') :
    c'.asyncWrite = none ∧ c.timeoutKey < c'.timeoutKey := by
  obtain ⟨-, -, henters⟩ := enters_of_step h
  cases henters
  exact afterWrite_keeps env r.ec _

end Connection

/-! ## The invariant -/

namespace Watched

variable {env : ConnectionEnv} {s s' : Watched} {c : Connection}

/-- The waits that may still lead to a check. -/
def outstanding (s : Watched) : List Watch := s.watchdog.pending.toList ++ s.watchdog.expired ++ s.posted

/-- A wait with the key of the watchdog is for the write in progress. -/
structure Guarded (s : Watched) : Prop where
  key : s.watchdog.timeoutKey = s.conn.timeoutKey
  idle : s.conn.asyncWrite = none
  fresh : ∀ watch ∈ s.outstanding, watch.timeoutKey ≤ s.conn.timeoutKey
  own : ∀ watch ∈ s.outstanding, watch.timeoutKey = s.conn.timeoutKey → s.writeInProgress = some watch.write
  ended : ∀ watch ∈ s.watchdog.expired ++ s.posted, watch.write ∈ s.timedOut

theorem guarded_init : Guarded {} where
  key := rfl
  idle := rfl
  fresh := by simp [outstanding]
  own := by simp [outstanding]
  ended := by simp

theorem mem_outstanding {watch : Watch} :
    watch ∈ s.outstanding ↔
      s.watchdog.pending = some watch ∨ watch ∈ s.watchdog.expired ∨ watch ∈ s.posted := by
  simp [outstanding]

/-- A write is started: no wait that is still outstanding has the new key. -/
theorem Guarded.starts {bufs : List Bytes} (h : Guarded s) (hwrite : c.asyncWrite = some bufs)
    (hkey : c.timeoutKey = s.conn.timeoutKey + 1) : Guarded (s.watching c) := by
  have hnew : ∀ watch, watch ∈ (s.watching c).outstanding →
      watch = ⟨c.timeoutKey, s.writes⟩ ∨ watch.timeoutKey < c.timeoutKey := by
    intro watch hmem
    rw [mem_outstanding, watching, hwrite] at hmem
    rcases hmem with hpending | hmem
    · left
      rw [← Option.some.inj hpending, h.key, ← hkey]
    · right
      have := h.fresh watch (mem_outstanding.2 (.inr hmem))
      omega
  have hconn : (s.watching c).conn.timeoutKey = c.timeoutKey := by rw [watching, hwrite]
  constructor
  · rw [hconn, watching, hwrite, hkey]
    exact congrArg (· + 1) h.key
  · rw [watching, hwrite]
  · intro watch hmem
    rw [hconn]
    rcases hnew watch hmem with rfl | hlt
    · exact Nat.le_refl _
    · exact hlt.le
  · intro watch hmem heq
    rw [hconn] at heq
    rcases hnew watch hmem with rfl | hlt
    · simp [watching, hwrite, writeInProgress]
    · omega
  · intro watch hmem
    rw [watching, hwrite] at hmem ⊢
    exact h.ended watch hmem

/-- The write in progress may go once the key goes on. -/
theorem Guarded.cancels (h : Guarded s) (hidle : c.asyncWrite = none) (hkey : s.conn.timeoutKey ≤ c.timeoutKey)
    {inFlight : List (Nat × List Bytes)} (hsame : inFlight = s.inFlight ∨ s.conn.timeoutKey < c.timeoutKey) :
    Guarded ({ s with inFlight }.watching c) := by
  have hconn : ({ s with inFlight }.watching c).conn = c := by rw [watching, hidle]
  have hmem : ∀ watch ∈ ({ s with inFlight }.watching c).outstanding, watch ∈ s.outstanding := by
    intro watch hwatch
    rw [mem_outstanding, watching, hidle] at hwatch
    dsimp only at hwatch
    rw [OperationWatchdog.cancels_expired] at hwatch
    rw [mem_outstanding]
    refine hwatch.imp_left fun hpending => ?_
    rcases Nat.eq_zero_or_pos (c.timeoutKey - s.conn.timeoutKey) with hzero | hpos
    · rwa [hzero] at hpending
    · rw [OperationWatchdog.cancels_pending hpos] at hpending
      cases hpending
  constructor
  · rw [hconn, watching, hidle]
    dsimp only
    rw [OperationWatchdog.cancels_timeoutKey, h.key]
    omega
  · rw [hconn]
    exact hidle
  · intro watch hwatch
    rw [hconn]
    exact (h.fresh watch (hmem watch hwatch)).trans hkey
  · intro watch hwatch heq
    rw [hconn] at heq
    have hle := h.fresh watch (hmem watch hwatch)
    rcases hsame with rfl | hlt
    · have hown := h.own watch (hmem watch hwatch) (by omega)
      rw [watching, hidle]
      exact hown
    · omega
  · intro watch hwatch
    rw [watching, hidle] at hwatch ⊢
    dsimp only at hwatch
    rw [OperationWatchdog.cancels_expired] at hwatch
    exact h.ended watch hwatch

/-- A step of the connection with what it asks of the watchdog. -/
theorem Guarded.watching {i : Connection.Input} (h : Guarded s) (hstep : Connection.step env s.conn i = some c) :
    Guarded (s.watching c) := by
  rcases Connection.step_asks h.idle hstep with ⟨hidle, hkey⟩ | ⟨hwrite, hkey⟩
  · exact h.cancels hidle hkey (.inl rfl)
  · obtain ⟨bufs, hbufs⟩ := Option.isSome_iff_exists.1 hwrite
    exact h.starts hbufs hkey

/-- Waits are called off, or come nearer to their checks. -/
theorem Guarded.subset {watchdog : OperationWatchdog} {posted : List Watch} {timedOut : List Nat} (h : Guarded s)
    (hkey : watchdog.timeoutKey = s.watchdog.timeoutKey)
    (hmem : ∀ watch, watchdog.pending = some watch ∨ watch ∈ watchdog.expired ∨ watch ∈ posted →
      watch ∈ s.outstanding)
    (hover : ∀ watch ∈ watchdog.expired ++ posted, watch.write ∈ timedOut) :
    Guarded { s with watchdog, posted, timedOut } := by
  have hold : ∀ watch, watch ∈ ({ s with watchdog, posted, timedOut } : Watched).outstanding →
      watch ∈ s.outstanding := fun watch hwatch => hmem watch (mem_outstanding.1 hwatch)
  constructor
  · exact hkey.trans h.key
  · exact h.idle
  · exact fun watch hwatch => h.fresh watch (hold watch hwatch)
  · exact fun watch hwatch heq => h.own watch (hold watch hwatch) heq
  · exact hover

theorem Guarded.destroyed {n : Nat} (h : Guarded s) (hstep : Connection.step env s.conn (.item (.destroy n)) = some c) :
    Guarded (s.destroyed c) := by
  have hkey : c.timeoutKey = s.conn.timeoutKey := by
    obtain ⟨-, -, henters⟩ := Connection.enters_of_step hstep
    cases henters
    simp only [Connection.destroy, h.idle, Connection.handleRemainigWriteQueue]
    split <;> rfl
  rcases Connection.step_asks h.idle hstep with ⟨hidle, -⟩ | ⟨-, hstarts⟩
  · have hconn : Guarded { s with conn := c } := by
      have hwatching := h.cancels hidle hkey.ge (.inl rfl)
      rwa [Watched.watching, hidle, hkey, Nat.sub_self] at hwatching
    refine hconn.subset rfl (fun watch hwatch => mem_outstanding.2 (.inr ?_)) h.ended
    exact hwatch.resolve_left fun hnone => nomatch hnone
  · omega

/-- The time of the wait is over: its handler is to run. -/
theorem Guarded.expires {watch : Watch} {watchdog : OperationWatchdog} (h : Guarded s)
    (hpending : s.watchdog.pending = some watch) (hexpire : s.watchdog.expire = some watchdog) :
    Guarded { s with watchdog, timedOut := s.timedOut ++ [watch.write] } := by
  rw [OperationWatchdog.expire, hpending] at hexpire
  cases hexpire
  refine h.subset rfl (fun watch' hwatch => mem_outstanding.2 ?_) fun watch' hwatch => ?_
  · rcases hwatch with hnone | hmem | hmem
    · cases hnone
    · rcases List.mem_append.1 hmem with hmem | hmem
      · exact .inr (.inl hmem)
      · exact .inl (List.mem_singleton.1 hmem ▸ hpending)
    · exact .inr (.inr hmem)
  · rw [List.append_assoc, List.mem_append, List.mem_append, List.mem_singleton] at hwatch
    rw [List.mem_append]
    rcases hwatch with hmem | rfl | hmem
    · exact .inl (h.ended watch' (List.mem_append_left _ hmem))
    · exact .inr (List.mem_singleton_self _)
    · exact .inl (h.ended watch' (List.mem_append_right _ hmem))

/-- The handler runs: it posts a check, unless the connection is gone. -/
theorem Guarded.fires {watch : Watch} (h : Guarded s) (hexpired : watch ∈ s.watchdog.expired) :
    Guarded { s with
      watchdog := { s.watchdog with expired := s.watchdog.expired.erase watch }
      posted := if s.conn.destroyed then s.posted else s.posted ++ [watch] } := by
  have hposted : ∀ watch' ∈ (if s.conn.destroyed then s.posted else s.posted ++ [watch]),
      watch' ∈ s.posted ∨ watch' = watch := by
    intro watch' hmem
    split at hmem
    · exact .inl hmem
    · exact (List.mem_append.1 hmem).imp_right List.mem_singleton.1
  have hqueued : ∀ watch', watch' ∈ s.watchdog.expired.erase watch ∨
      watch' ∈ (if s.conn.destroyed then s.posted else s.posted ++ [watch]) →
        watch' ∈ s.watchdog.expired ∨ watch' ∈ s.posted := by
    rintro watch' (hmem | hmem)
    · exact .inl (List.mem_of_mem_erase hmem)
    · rcases hposted watch' hmem with hmem | rfl
      · exact .inr hmem
      · exact .inl hexpired
  refine h.subset rfl (fun watch' hwatch => mem_outstanding.2 ?_) fun watch' hwatch => h.ended watch' ?_
  · exact hwatch.imp_right (hqueued watch')
  · exact List.mem_append.2 (hqueued watch' (List.mem_append.1 hwatch))

/-- A check that is made is no longer posted. -/
theorem Guarded.unposted (h : Guarded s) (watch : Watch) : Guarded { s with posted := s.posted.erase watch } := by
  refine h.subset rfl (fun watch' hwatch => mem_outstanding.2 ?_) fun watch' hwatch => h.ended watch' ?_
  · exact hwatch.imp_right (Or.imp_right List.mem_of_mem_erase)
  · rw [List.mem_append] at hwatch ⊢
    exact hwatch.imp_right List.mem_of_mem_erase

theorem Guarded.step {a : Action} (h : Guarded s) (hstep : s.step env a = some s') : Guarded s' := by
  cases a with
  | goesOn i =>
    simp only [Watched.step] at hstep
    split at hstep
    · cases hstep
    · cases hstep
    · obtain ⟨c, hc, rfl⟩ := Option.map_eq_some_iff.1 hstep
      exact h.destroyed hc
    · obtain ⟨c, hc, rfl⟩ := Option.map_eq_some_iff.1 hstep
      exact h.watching hc
  | writeCompletes write r =>
    simp only [Watched.step] at hstep
    split at hstep
    · obtain ⟨c, hc, rfl⟩ := Option.map_eq_some_iff.1 hstep
      obtain ⟨hidle, hlt⟩ := Connection.step_asyncWriteDone hc
      exact h.cancels hidle hlt.le (.inr hlt)
    · cases hstep
  | checks watch =>
    simp only [Watched.step] at hstep
    split at hstep
    · obtain ⟨c, hc, rfl⟩ := Option.map_eq_some_iff.1 hstep
      exact (h.unposted watch).watching hc
    · cases hstep
  | expires =>
    simp only [Watched.step] at hstep
    split at hstep
    · rename_i watch watchdog hpending hexpire
      cases hstep
      exact h.expires hpending hexpire
    · cases hstep
  | fires watch =>
    simp only [Watched.step] at hstep
    split at hstep
    · rename_i hexpired
      cases hstep
      exact h.fires hexpired
    · cases hstep

/-! ## Runs -/

theorem shutdownCause_writeTimeout {i : Connection.Input} (h : Connection.shutdownCause c i = some .writeTimeout) :
    ∃ timeoutKey, i = .item (.writeTimeout timeoutKey) ∧ timeoutKey = c.timeoutKey := by
  have herror : ∀ ec : Option ErrorCode, ec.bind Connection.errorCause ≠ some .writeTimeout := by
    rintro (_ | ec) heq
    · cases heq
    · simp only [Option.bind_some, Connection.errorCause] at heq
      split at heq
      · cases heq
      · split at heq <;> cases heq
  unfold Connection.shutdownCause at h
  split at h
  · cases h
  · split at h
    · cases h
    · exact absurd h (herror _)
  · exact absurd h (herror _)
  · exact absurd h (herror _)
  · split at h
    · rename_i hmatch
      exact ⟨_, rfl, hmatch.2⟩
    · cases h
  · cases h

theorem guarded_of_execute {actions : List Action} (hrun : execute (step env) {} actions = some s) : Guarded s :=
  execute_invariant (P := fun _ _ => True) (fun _ _ _ h _ hstep => h.step hstep) actions guarded_init
    (Along.of_forall fun _ _ => trivial) hrun

/-- In every run, what shuts the connection down for a write timeout is the check of the write in
progress, whose own wait was over. -/
theorem write_timeout_of_own_write (env : ConnectionEnv) (actions : List Action) (a : Action) {s s' : Watched}
    (hrun : execute (step env) {} actions = some s) (hstep : s.step env a = some s')
    (hcause : s.cause a = some .writeTimeout) :
    ∃ watch, a = .checks watch ∧ s.writeInProgress = some watch.write ∧ watch.write ∈ s.timedOut := by
  have hguarded : Guarded s := guarded_of_execute hrun
  cases a with
  | goesOn i =>
    obtain ⟨timeoutKey, rfl, -⟩ := shutdownCause_writeTimeout hcause
    cases hstep
  | writeCompletes write r =>
    obtain ⟨timeoutKey, hno, -⟩ := shutdownCause_writeTimeout hcause
    cases hno
  | checks watch =>
    obtain ⟨timeoutKey, heq, hkey⟩ := shutdownCause_writeTimeout hcause
    cases heq
    simp only [Watched.step] at hstep
    split at hstep
    · rename_i hposted
      have hown := hguarded.own watch (mem_outstanding.2 (.inr (.inr hposted))) hkey
      exact ⟨watch, rfl, hown, hguarded.ended watch (List.mem_append_right _ hposted)⟩
    · cases hstep
  | expires => cases hcause
  | fires watch => cases hcause

/-- A write that takes long is timed out. -/
theorem write_timeout_of_own_write_long : ∃ s s',
    execute (step ⟨4, 64, by decide, false, false⟩) {}
      ([.goesOn (.item (.call (.send { bufs := [[1, 2, 3, 4, 5]] })))] ++ List.replicate 4 (.goesOn .none) ++
        [.expires, .fires ⟨1, 0⟩]) = some s ∧
    s.step ⟨4, 64, by decide, false, false⟩ (.checks ⟨1, 0⟩) = some s' ∧
    s.cause (.checks ⟨1, 0⟩) = some .writeTimeout ∧ s.writeInProgress = some 0 ∧ 0 ∈ s.timedOut := by
  obtain ⟨s, hs, hnext, hcause⟩ := exists_execute (step ⟨4, 64, by decide, false, false⟩) {}
    ([.goesOn (.item (.call (.send { bufs := [[1, 2, 3, 4, 5]] })))] ++ List.replicate 4 (.goesOn .none) ++
      [.expires, .fires ⟨1, 0⟩])
    (fun s : Watched => (s.step ⟨4, 64, by decide, false, false⟩ (.checks ⟨1, 0⟩)).isSome = true ∧
      s.cause (.checks ⟨1, 0⟩) = some .writeTimeout)
    (by decide +kernel)
  obtain ⟨s', hs'⟩ := Option.isSome_iff_exists.1 hnext
  obtain ⟨watch, heq, hwrite, htimedOut⟩ := write_timeout_of_own_write _ _ _ hs hs' hcause
  obtain rfl := Action.checks.inj heq
  exact ⟨s, s', hs, hs', hcause, hwrite, htimedOut⟩

/-- A check that comes after the end of its write leaves the connection alone. -/
theorem stale_check (env : ConnectionEnv) (actions : List Action) (watch : Watch) {s s' : Watched}
    (hrun : execute (step env) {} actions = some s) (hstep : s.step env (.checks watch) = some s')
    (hstale : s.writeInProgress ≠ some watch.write) : s'.conn = s.conn := by
  have hguarded : Guarded s := guarded_of_execute hrun
  simp only [Watched.step] at hstep
  split at hstep
  · rename_i hposted
    obtain ⟨c, hc, rfl⟩ := Option.map_eq_some_iff.1 hstep
    have hold : ¬ (s.conn.isWriteOperationRunning = true ∧ watch.timeoutKey = s.conn.timeoutKey) := by
      rintro ⟨-, hkey⟩
      exact hstale (hguarded.own watch (mem_outstanding.2 (.inr (.inr hposted))) hkey)
    have hconn : c = s.conn := by
      obtain ⟨-, -, henters⟩ := Connection.enters_of_step hc
      cases henters with
      | timedOut timeoutKey current => exact absurd current hold
      | late => rfl
    rw [watching, hconn, hguarded.idle]
  · cases hstep

end Watched

end Opio.Net
