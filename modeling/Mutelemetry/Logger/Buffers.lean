import Mutelemetry.Logger.Pool

/-!
# The buffers of a session

What the fields of the eight buffers say in every state of a session without a
write error, whenever the logger is started and stopped in it.
-/

namespace Mutelemetry.Logger

open ByteString

namespace MutelemetryLogger

def Steady : Event → Prop
  | .start | .stop => True
  | e => Quiet e

def Adds (l l' : MutelemetryLogger) (i : Fin 8) (dp : Bytes) : Prop :=
  (l'.memPool i).buffer = (l.memPool i).buffer ++ [dp]

section
variable {l l' : MutelemetryLogger}

theorem working_session : Working 0 session := conserved_session.toWorking

theorem Working.quiet (h : Working c l) (he : Quiet e) (hs : l.step e = some l') :
    ∃ c', Working c' l' := by
  have hc : Conserved (l.bytes c) c l := ⟨h, rfl⟩
  obtain ⟨c', hc'⟩ := hc.step he hs
  exact ⟨c', hc'.toWorking⟩

theorem Working.step (h : Working c l) (he : Steady e) (hs : l.step e = some l') :
    ∃ c', Working c' l' := by
  cases e with
  | start | stop =>
    cases hs
    exact ⟨c, { h with }⟩
  | enqueue | call | step | init | release | releaseOnError =>
    exact h.quiet (by exact he) hs

theorem working_of_run (he : ∀ e ∈ es, Steady e)
    (h : Transition.run MutelemetryLogger.step session es = some l) : ∃ c, Working c l := by
  have hg := Transition.Guarded.of_run (C := fun _ e => Steady e) h fun e hmem _ => he e hmem
  refine hg.invariant (fun l => ∃ c, Working c l) ?_ ⟨0, working_session⟩
  rintro s e s' ⟨c, hc⟩ hsteady hs
  exact hc.step hsteady hs

theorem not_adds (h : l'.memPool i = l.memPool i) : ¬ Adds l l' i dp := by
  intro hadds
  have hlen := congrArg List.length hadds
  rw [h, List.length_append, List.length_singleton] at hlen
  omega

/-- Only `add` makes a buffer longer, and it is the one that was seen not to be full. -/
theorem Pooled.adds (h : Pooled c l) (hs : MainStep l env l') (hadds : Adds l l' i dp) :
    (l.memPool i).isFull = false := by
  have hok := h.pc
  cases hs with
  | @fetch j dp' rest hpc =>
    simp only [PcOk, hpc] at hok
    obtain ⟨rfl, hfull, -⟩ := hok
    by_cases hi : i = j
    · exact hi ▸ hfull
    · exact absurd hadds (not_adds (Function.update_of_ne hi _ _))
  | @copy j doFlush hpc =>
    by_cases hi : i = j
    · subst hi
      simp [Adds, setBuffer, DataBuffer.clear] at hadds
    · exact absurd hadds (not_adds (Function.update_of_ne hi _ _))
  | @write doFlush result hpc =>
    obtain ⟨file, dataQueue, hw⟩ := l.workerWrite_frame result env
    rw [hw] at hadds
    exact absurd hadds (not_adds rfl)
  | drained | load | nullQueue | nullBuffer | room | retry | giveUp | swap | unclear | push | reload
  | long | young => exact absurd hadds (not_adds rfl)

theorem Working.adds (h : Working c l) (hs : l.step e = some l') (hadds : Adds l l' i dp)
    (he : Steady e) : (l.memPool i).isFull = false := by
  cases e with
  | step env => exact h.toPooled.adds (mainLoop_step hs) hadds
  | enqueue | start | stop =>
    cases hs
    exact absurd hadds (not_adds rfl)
  | call =>
    simp only [MutelemetryLogger.step] at hs
    split at hs
    · cases hs
      split at hadds
      · exact absurd hadds (not_adds rfl)
      · exact absurd hadds (not_adds rfl)
    · cases hs
  | init | release | releaseOnError => exact he.elim

theorem Working.not_crashed (h : Working c l) (k : Crash) : l.pc ≠ .crashed k := by
  intro hpc
  have hok := h.pc
  simp only [PcOk, hpc] at hok

/-- The accounts of the buffers are right in every state, what is free is empty,
what is full gets no message, and no assertion fails. -/
theorem buffers_accounted (he : ∀ e ∈ es, Steady e)
    (h : Transition.run MutelemetryLogger.step session es = some l) :
    (∀ i, (l.memPool i).dataSize = ((l.memPool i).buffer.map List.length).sum ∧
      ((l.memPool i).isFull = true ↔ 4096 ≤ (l.memPool i).dataSize) ∧
      (l.memPool i).dataSize ≤ 8191) ∧
    (∀ i ∈ l.poolStackedIndex, (l.memPool i).buffer = [] ∧ (l.memPool i).dataSize = 0 ∧
      (l.memPool i).isFull = false) ∧
    (∀ e l' i dp, Steady e → l.step e = some l' → Adds l l' i dp →
      (l.memPool i).isFull = false) ∧
    ∀ k, l.pc ≠ .crashed k := by
  obtain ⟨c, hc⟩ := working_of_run he h
  refine ⟨fun i => ?_, fun i hi => ?_, fun e l' i dp hsteady hs hadds => ?_, hc.not_crashed⟩
  · obtain ⟨hsize, hfull, hbound⟩ := hc.accounted i
    exact ⟨hsize, hfull, Nat.le_of_lt_succ hbound⟩
  · obtain ⟨hsize, hfull, hbuffer⟩ := hc.free i hi
    exact ⟨hbuffer, hsize, hfull⟩
  · exact hc.adds hs hadds hsteady

/-- The run in which a message is flushed two seconds after it was added. -/
theorem buffers_accounted_timedFlush : ∃ l,
    Transition.run MutelemetryLogger.step session timedFlush = some l ∧
    (∀ i ∈ l.poolStackedIndex, (l.memPool i).buffer = [] ∧ (l.memPool i).dataSize = 0 ∧
      (l.memPool i).isFull = false) ∧ ∀ k, l.pc ≠ .crashed k := by
  have hsteady : ∀ e ∈ timedFlush, Steady e := by
    simp [timedFlush, Steady, Quiet, DataBuffer.maxDataSize]
  have h := buffers_accounted hsteady rfl
  exact ⟨_, rfl, h.2.1, h.2.2.2⟩

end

end MutelemetryLogger

end Mutelemetry.Logger
