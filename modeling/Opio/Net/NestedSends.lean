/-
Sends that user callbacks make. The callbacks of a sequence run before it leaves the queue; when it
was written synchronously, the connection does not count as writing meanwhile, so that a send from
a callback writes its buffers directly, in front of what is queued, or has the written sequence
written again. The stream stays intact in every run where no send does that.
-/
import Opio.Net.WriteSteps

namespace Opio.Net

namespace Connection

variable {env : ConnectionEnv} {c c' : Connection}

/-- While the callbacks of a synchronously written sequence run, a group is accepted when nothing
is queued behind the sequence, and its buffers go out directly and whole. -/
def OvertakesNothing (env : ConnectionEnv) (c : Connection) (i : Input) : Prop :=
  c.isWriteOperationRunning = false → .popWritten ∈ c.stack →
    match c.stack, i with
    | .call (.send s) :: _, _ =>
      c.scheduleForWriteIsEnabled = true → queueBytes c.writeQueue.tail = [] ∨ s.bufs.flatten = []
    | .append (buf :: _) _ _ _ :: _, _ => buf.length < env.quikSyncWriteHeuristicSize
    | .aggressiveWrite buf _ _ _ :: _, .result r => r.transferred = buf.length
    | _, _ => True

instance (env : ConnectionEnv) (c : Connection) (i : Input) : Decidable (OvertakesNothing env c i) := by
  unfold OvertakesNothing
  have : Decidable (match c.stack, i with
      | .call (.send s) :: _, _ =>
        c.scheduleForWriteIsEnabled = true → queueBytes c.writeQueue.tail = [] ∨ s.bufs.flatten = []
      | .append (buf :: _) _ _ _ :: _, _ => buf.length < env.quikSyncWriteHeuristicSize
      | .aggressiveWrite buf _ _ _ :: _, .result r => r.transferred = buf.length
      | _, _ => True) := by split <;> infer_instance
  infer_instance

/-- The connection works, or is gone. -/
def Holds (c : Connection) : Prop := Stands c ∨ Gone c

theorem Holds.intact (h : Holds c) : StreamIntact c := h.elim Stands.intact Gone.intact

theorem Holds.whole (h : Holds c) (hstack : c.stack = []) (hrun : c.isWriteOperationRunning = false)
    (hfailed : failedEntries c.log = []) : taken c.log = accepted c.log := by
  rcases h with h | h
  · exact h.whole hstack hrun hfailed
  · exact h.whole hrun hfailed

theorem stands_init : Stands {} := by
  refine .idle ⟨rfl, by simp, ?_, rfl, rfl, rfl, rfl⟩ rfl rfl (by simp) ⟨[], _, rfl, by simp⟩ (by simp [doing]) ?_ rfl
  · rintro (h | h | h)
    · cases h
    · cases h
    · cases h
  · intro _
    exact ⟨_, rfl, rfl⟩

theorem resume_stands {f : Frame} {i : Input} (h : Stands (c.push f)) (hfits : OvertakesNothing env (c.push f) i)
    (hstep : Resumes env c f i c') : Stands c' := by
  have hin : ∀ {g}, g ∈ c.stack → g ∈ (c.push f).stack := List.mem_cons_of_mem f
  cases hstep with
  | bystander isBystander still pushed =>
    obtain ⟨hactive, hpop⟩ := isActive_of_isBystander isBystander
    exact h.quiet hactive hpop (still.quiet fun g hg => (pushed g hg).quiet)
  | send s => exact scheduleSend_stands h fun hrun hmem => hfits hrun (hin hmem)
  | append bufs beAggressive id cb =>
    refine append_stands h fun hrun hmem => ?_
    rintro buf rest rfl
    exact hfits hrun (hin hmem)
  | aggressiveWrite buf bufs id cb r possible =>
    exact aggressiveWritten_stands h fun hrun hmem => hfits hrun (hin hmem)
  | initiateWrite => exact initiateWrite_stands h
  | syncWrite r possible => exact syncWritten_stands h possible
  | called res id ids cs =>
    refine h.quiet rfl (by simp) (quiet_of_update (c := c.push _) [.reaction cs, .runCallbacks res ids] c.readIsEnabled
      c.readsInFlight c.groups rfl ?_ (fun _ => hin) (by simp [Frame.isActive]))
    intro ev hev
    rw [List.mem_singleton.1 hev]
    exact ⟨rfl, rfl, rfl, rfl, rfl, rfl⟩
  | callbacksDone res =>
    exact h.quiet rfl (by simp) (quiet_of_update (c := c.push _) [] c.readIsEnabled c.readsInFlight c.groups
      (List.append_nil _).symm (by simp) (fun _ => hin) (by simp))
  | popWritten => exact popWritten_stands h

/-- The end of the connection is a work item of its own. -/
theorem step_destroy {n : Nat} (h : step env c (.item (.destroy n)) = some c') :
    c.stack = [] ∧ c.destroyed = false ∧ c' = destroy n c := by
  obtain ⟨hstack, halive, henters⟩ := enters_of_step h
  cases henters
  exact ⟨hstack, halive, rfl⟩

theorem step_stands {i : Input} (h : Stands c) (hfits : OvertakesNothing env c i) (hi : ∀ n, i ≠ .item (.destroy n))
    (hstep : step env c i = some c') : Stands c' := by
  rcases step_cases hstep with ⟨item, rfl, hstack, -, hbegin⟩ | ⟨f, c₀, rfl, hresume⟩
  · refine begin_stands h hstack ?_ hbegin
    rintro n rfl
    exact hi n rfl
  · exact resume_stands h hfits hresume

/-- A step on which no send overtakes anything. -/
theorem step_holds {i : Input} (h : Holds c) (hfits : OvertakesNothing env c i) (hstep : step env c i = some c') :
    Holds c' := by
  rcases h with h | h
  · by_cases hi : ∃ n, i = .item (.destroy n)
    · obtain ⟨n, rfl⟩ := hi
      obtain ⟨hstack, -, rfl⟩ := step_destroy hstep
      exact .inr (destroy_gone h hstack n)
    · exact .inl (step_stands h hfits (fun n hn => hi ⟨n, hn⟩) hstep)
  · rcases step_cases hstep with ⟨item, rfl, -, halive, -⟩ | ⟨f, c₀, rfl, -⟩
    · rw [h.destroyed] at halive
      cases halive
    · cases h.stack

/-- Sends from callbacks keep the stream intact as long as none overtakes what is queued. -/
theorem nested_sends_keep_stream (env : ConnectionEnv) (inputs : List Input) (c : Connection)
    (hfits : Along (step env) (OvertakesNothing env) {} inputs) (hrun : execute (step env) {} inputs = some c) :
    StreamIntact c :=
  Holds.intact (execute_invariant (fun _ _ _ h hfits hstep => step_holds h hfits hstep) inputs (.inl stands_init) hfits
    hrun)

/-- A callback of a synchronously written group sends a buffer, which the socket takes at once. -/
theorem nested_sends_keep_stream_direct : ∃ c,
    execute (step ⟨64, 64, by decide, false, false⟩) {}
      [.item (.call (.send { bufs := [[1]], cb := true })), .none, .none, .result ⟨some .wouldBlock, 0⟩, .none, .none,
        .result ⟨none, 1⟩, .calls [.send { bufs := [[2]] }], .none, .none, .none, .result ⟨none, 1⟩] = some c ∧
      StreamIntact c := by
  obtain ⟨c, hc⟩ := Option.isSome_iff_exists.1 (show Option.isSome (execute (step ⟨64, 64, by decide, false, false⟩) {}
    [.item (.call (.send { bufs := [[1]], cb := true })), .none, .none, .result ⟨some .wouldBlock, 0⟩, .none, .none,
      .result ⟨none, 1⟩, .calls [.send { bufs := [[2]] }], .none, .none, .none, .result ⟨none, 1⟩]) = true by
    decide +kernel)
  exact ⟨c, hc, nested_sends_keep_stream _ _ c (by decide +kernel) hc⟩

/-- The socket takes nothing of the buffer that the callback sends: the written sequence is written
again, and the entry of the buffer leaves the queue before it is written. -/
theorem nested_send_breaks_stream : ∃ c,
    execute (step ⟨64, 64, by decide, false, false⟩) {}
      [.item (.call (.send { bufs := [[1]], cb := true })), .none, .none, .result ⟨some .wouldBlock, 0⟩, .none, .none,
        .result ⟨none, 1⟩, .calls [.send { bufs := [[2]] }], .none, .none, .none, .result ⟨some .wouldBlock, 0⟩, .none,
        .none, .result ⟨none, 1⟩, .calls [], .none, .none, .none, .none, .result ⟨some .wouldBlock, 0⟩, .none, .none,
        .none, .none] = some c ∧
      ¬ taken c.log <+: accepted c.log ∧ ¬ (startedEntries c.log).Nodup ∧
        ¬ ∀ entry ∈ poppedEntries c.log, entry ∈ writtenEntries c.log := by
  refine ⟨_, rfl, ?_, ?_, ?_⟩
  · decide +kernel
  · decide +kernel
  · decide +kernel

end Connection

end Opio.Net
