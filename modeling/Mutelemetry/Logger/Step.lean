import Mutelemetry.Logger

/-!
# What one step of `main_loop` can do

`main_loop` read as the list of its transitions, with what each of them meets.
The invariants of the logger are proved from this list.
-/

namespace Mutelemetry.Logger

open ByteString

namespace MutelemetryLogger

inductive SwapSite (l : MutelemetryLogger) (env : Env) (ioIdx : Fin 8) : Bool → Prop
  | full : l.pc = .loaded ioIdx → (l.memPool ioIdx).isFull = true → SwapSite l env ioIdx false
  | timed : l.pc = .timed → l.currIdx = some ioIdx →
    (l.memPool ioIdx).canStartIo env.now = true → SwapSite l env ioIdx true

inductive MainStep (l : MutelemetryLogger) (env : Env) : MutelemetryLogger → Prop
  | drained : l.pc = .loop → l.dataQueue = true → l.queue = [] →
    MainStep l env { l with pc := .timed }
  | load : l.pc = .loop → l.dataQueue = true → l.queue ≠ [] → l.currIdx = some c →
    MainStep l env { l with pc := .loaded c }
  | nullQueue : l.pc = .loop ∨ (∃ c, l.pc = .fetch c) → l.dataQueue = false →
    MainStep l env { l with pc := .crashed .nullQueue }
  | nullBuffer : l.pc = .loop ∨ l.pc = .reload ∨ l.pc = .timed → l.currIdx = none →
    MainStep l env { l with pc := .crashed .nullBuffer }
  | room : l.pc = .loaded c → (l.memPool c).isFull = false →
    MainStep l env { l with pc := .fetch c }
  | retry : SwapSite l env c false → MainStep l env { l with pc := .loop }
  | giveUp : SwapSite l env c doFlush → MainStep l env { l with pc := .idle }
  | swap : SwapSite l env c doFlush → l.currIdx = some c → l.poolStackedIndex = top :: rest →
    (l.memPool top).dataSize = 0 → MainStep l env { l with
      currIdx := some top, poolStackedIndex := rest, pc := .worker c doFlush }
  | unclear : SwapSite l env c doFlush → l.poolStackedIndex = top :: rest →
    (l.memPool top).dataSize ≠ 0 → MainStep l env { l with
      currIdx := some top, poolStackedIndex := rest, pc := .crashed .assertion }
  | copy : l.pc = .worker dbp doFlush → MainStep l env { l.setBuffer dbp (l.memPool dbp).clear with
      pc := .stacking dbp doFlush (l.memPool dbp).data }
  | push : l.pc = .stacking dbp doFlush result →
    MainStep l env { l.workerPush dbp with pc := .writing doFlush result }
  | write : l.pc = .writing doFlush result → MainStep l env { l.workerWrite result env with
      pc := if doFlush then .idle else .reload }
  | reload : l.pc = .reload → l.currIdx = some c → MainStep l env { l with pc := .fetch c }
  | fetch : l.pc = .fetch c → l.dataQueue = true → l.queue = dp :: rest →
    dp.length ≤ DataBuffer.maxDataSize →
    MainStep l env { l.setBuffer c ((l.memPool c).add env.now dp) with queue := rest, pc := .loop }
  | long : l.pc = .fetch c → l.queue = dp :: rest → DataBuffer.maxDataSize < dp.length →
    MainStep l env { l with queue := rest, pc := .crashed .assertion }
  | young : l.pc = .timed → MainStep l env { l with pc := .idle }

theorem workerWrite_frame (l : MutelemetryLogger) (result : Bytes) (env : Env) :
    ∃ file dataQueue,
      l.workerWrite result env = { l with file := file, dataQueue := dataQueue } := by
  unfold workerWrite
  split
  · exact ⟨_, l.dataQueue, rfl⟩
  · exact ⟨_, false, rfl⟩

theorem workerWrite_good {l : MutelemetryLogger} (hf : l.file.isOpen = true ∧ l.file.bad = false)
    (henv : env.badAfter = none) (result : Bytes) : l.workerWrite result env =
      { l with file := { l.file with content := l.file.content ++ result } } := by
  simp [workerWrite, File.write, hf.1, hf.2, henv]

theorem swap_cases (l : MutelemetryLogger) (ioIdx : Fin 8) (env : Env) :
    l.swap ioIdx env = .noLock ∨ l.swap ioIdx env = .giveUp ∨
      ∃ top rest, l.poolStackedIndex = top :: rest ∧ l.currIdx = some ioIdx ∧
        l.swap ioIdx env = .swapped { l with currIdx := some top, poolStackedIndex := rest } := by
  unfold swap
  split
  · split
    · exact .inr (.inl rfl)
    · rename_i top rest hstack
      split
      · rename_i hcas
        simp only [Bool.and_eq_true, decide_eq_true_eq] at hcas
        exact .inr (.inr ⟨top, rest, hstack, hcas.2, rfl⟩)
      · exact .inr (.inl rfl)
  · exact .inl rfl

theorem swapDone_step {l : MutelemetryLogger} (hsite : SwapSite l env c doFlush)
    (hc : l.currIdx = some c) (hstack : l.poolStackedIndex = top :: rest) :
    MainStep l env (MutelemetryLogger.swapDone
      { l with currIdx := some top, poolStackedIndex := rest } c doFlush) := by
  unfold swapDone
  by_cases htop : (l.memPool top).dataSize = 0
  · simpa [htop] using MainStep.swap hsite hc hstack htop
  · simpa [htop] using MainStep.unclear hsite hstack htop

theorem mainLoop_step {l l' : MutelemetryLogger} (h : l.mainLoop env = some l') :
    MainStep l env l' := by
  cases hpc : l.pc with
  | idle => simp [mainLoop, hpc] at h
  | crashed k => simp [mainLoop, hpc] at h
  | loop =>
    simp only [mainLoop, hpc] at h
    split at h
    · rename_i hd
      split at h
      · rename_i hq
        cases h
        exact .drained hpc hd (by simpa using hq)
      · rename_i hq
        split at h
        · rename_i c hc
          cases h
          exact .load hpc hd (by simpa using hq) hc
        · rename_i hc
          cases h
          exact .nullBuffer (.inl hpc) hc
    · rename_i hd
      cases h
      exact .nullQueue (.inl hpc) (by simpa using hd)
  | loaded ioIdx =>
    simp only [mainLoop, hpc] at h
    split at h
    · rename_i hfull
      have hsite : SwapSite l env ioIdx false := .full hpc hfull
      obtain hs | hs | ⟨top, rest, hstack, hc, hs⟩ := l.swap_cases ioIdx env
      · rw [hs] at h
        cases h
        exact .retry hsite
      · rw [hs] at h
        cases h
        exact .giveUp hsite
      · rw [hs] at h
        cases h
        exact swapDone_step hsite hc hstack
    · rename_i hroom
      cases h
      exact .room hpc (by simpa using hroom)
  | worker dbp doFlush =>
    simp only [mainLoop, hpc] at h
    cases h
    exact .copy hpc
  | stacking dbp doFlush result =>
    simp only [mainLoop, hpc] at h
    cases h
    exact .push hpc
  | writing doFlush result =>
    simp only [mainLoop, hpc] at h
    cases h
    exact .write hpc
  | reload =>
    simp only [mainLoop, hpc] at h
    split at h
    · rename_i c hc
      cases h
      exact .reload hpc hc
    · rename_i hc
      cases h
      exact .nullBuffer (.inr (.inl hpc)) hc
  | fetch ioIdx =>
    simp only [mainLoop, hpc] at h
    split at h
    · rename_i hd
      split at h
      · cases h
      · rename_i dp rest hq
        split at h
        · rename_i hdp
          cases h
          exact .fetch hpc hd hq hdp
        · rename_i hdp
          cases h
          exact .long hpc hq (by omega)
    · rename_i hd
      cases h
      exact .nullQueue (.inr ⟨ioIdx, hpc⟩) (by simpa using hd)
  | timed =>
    simp only [mainLoop, hpc] at h
    split at h
    · rename_i hc
      cases h
      exact .nullBuffer (.inr (.inr hpc)) hc
    · rename_i ioIdx hc
      split at h
      · rename_i hold
        have hsite : SwapSite l env ioIdx true := .timed hpc hc hold
        obtain hs | hs | ⟨top, rest, hstack, -, hs⟩ := l.swap_cases ioIdx env
        · rw [hs] at h
          cases h
          exact .giveUp hsite
        · rw [hs] at h
          cases h
          exact .giveUp hsite
        · rw [hs] at h
          cases h
          exact swapDone_step hsite hc hstack
      · cases h
        exact .young hpc

end MutelemetryLogger

end Mutelemetry.Logger
