import Mutelemetry.Logger.Pool

/-!
# The pool over the logger's life

`init`, `start`, `stop` and `release` in any order, between calls of
`main_loop`. A write error leaves the buffers alone. `release(false)` does not:
when there are data in the current buffer it goes to the stack, no other takes
its place, and nothing does so later.
-/

namespace Mutelemetry.Logger

open ByteString

namespace MutelemetryLogger

/-- There is a current buffer, it is not on the stack, and the two are the pool. -/
def PoolWhole (l : MutelemetryLogger) : Prop :=
  ∃ c, l.currIdx = some c ∧ c ∉ l.poolStackedIndex ∧ l.poolStackedIndex.Nodup ∧
    ∀ i, i = c ∨ i ∈ l.poolStackedIndex

/-- If it is `release(false)` of an open file, there are no data in the current
buffer. -/
def Unflushed (l : MutelemetryLogger) : Event → Prop
  | .release _ => l.file.isOpen = true → ∀ c, l.currIdx = some c → (l.memPool c).hasData = false
  | .enqueue _ | .call | .step _ | .init _ | .start | .stop | .releaseOnError => True

/-- No buffer is current, and `main_loop` has not come to use one. -/
structure Torn (l : MutelemetryLogger) : Prop where
  curr : l.currIdx = none
  pc : l.pc = .idle ∨ l.pc = .loop ∨ l.pc = .timed

def Crashed (l : MutelemetryLogger) : Prop := ∃ k, l.pc = .crashed k

theorem pooled_new : Pooled 0 .new where
  curr := rfl
  pool := by decide
  free := fun _ _ => DataBuffer.clear_new
  accounted := fun _ => DataBuffer.clear_new.accounted
  pc := trivial

section
variable {l l' : MutelemetryLogger}

theorem Pooled.whole (h : Pooled c l) (hidle : l.pc = .idle) : l.PoolWhole := by
  have hp := h.pool
  simp only [hidle, held, List.nil_append] at hp
  have hn := hp.nodup_iff.mpr (List.nodup_finRange 8)
  obtain ⟨hc, hnodup⟩ := List.nodup_cons.mp hn
  refine ⟨c, h.curr, hc, hnodup, fun i => ?_⟩
  exact List.mem_cons.mp (hp.mem_iff.mpr (List.mem_finRange i))

theorem Pooled.congr (h : Pooled c l) (running dataQueue : Bool) (file : File) :
    Pooled c { l with running := running, dataQueue := dataQueue, file := file } :=
  ⟨h.curr, h.pool, h.free, h.accounted, h.pc⟩

-- ---------------------------------------------------------------------------
-- Events
-- ---------------------------------------------------------------------------

theorem release_unflushed (hc : l.currIdx = some c) (hg : Unflushed l (.release env)) :
    l.release env = { l with
      file := if l.file.isOpen then { l.file with isOpen := false } else l.file
      dataQueue := false } := by
  unfold release
  cases ho : l.file.isOpen with
  | false => simp
  | true =>
    have hd := hg ho c hc
    simp [hc, hd]

theorem release_flushed (hg : ¬ Unflushed l (.release env)) : ∃ (c : Fin 8) (file : File),
    l.currIdx = some c ∧ l.release env = { l with
      currIdx := none
      memPool := Function.update l.memPool c (l.memPool c).clear
      poolStackedIndex := c :: l.poolStackedIndex
      file := { file with isOpen := false }
      dataQueue := false } := by
  simp only [Unflushed, not_forall, Bool.not_eq_false] at hg
  obtain ⟨ho, c, hc, hd⟩ := hg
  obtain ⟨file, dataQueue, hw⟩ :=
    ((l.setBuffer c (l.memPool c).clear).workerPush c).workerWrite_frame (l.memPool c).data env
  refine ⟨c, file, hc, ?_⟩
  simp only [release, if_pos ho, hc, hd, if_true, startIoWorker, workerCopy, hw]
  rfl

theorem Crashed.step (h : l.Crashed) (hs : l.step e = some l') : l'.Crashed := by
  obtain ⟨k, hk⟩ := h
  cases e with
  | enqueue | start | stop =>
    cases hs
    exact ⟨k, hk⟩
  | step env => simp [MutelemetryLogger.step, mainLoop, hk] at hs
  | call | init | release | releaseOnError => simp [MutelemetryLogger.step, hk] at hs

theorem Torn.mainStep (h : Torn l) (hs : MainStep l env l') : l'.Crashed ∨ Torn l' := by
  have hpc := h.pc
  cases hs with
  | nullQueue | nullBuffer | unclear | long => exact .inl ⟨_, rfl⟩
  | drained => exact .inr ⟨h.curr, .inr (.inr rfl)⟩
  | young => exact .inr ⟨h.curr, .inl rfl⟩
  | load _ _ _ hc | reload _ hc => cases hc.symm.trans h.curr
  | retry hsite =>
    cases hsite with
    | full hl => simp [hl] at hpc
  | giveUp hsite | swap hsite =>
    cases hsite with
    | full hl => simp [hl] at hpc
    | timed _ hc => cases hc.symm.trans h.curr
  | room hl | copy hl | push hl | write hl | fetch hl => simp [hl] at hpc

theorem Torn.step (h : Torn l) (hs : l.step e = some l') : l'.Crashed ∨ Torn l' := by
  cases e with
  | enqueue | start | stop =>
    cases hs
    exact .inr ⟨h.curr, h.pc⟩
  | step env => exact h.mainStep (mainLoop_step hs)
  | call =>
    simp only [MutelemetryLogger.step] at hs
    split at hs <;> cases hs
    split
    · exact .inr ⟨h.curr, .inr (.inl rfl)⟩
    · exact .inr h
  | init opens =>
    simp only [MutelemetryLogger.step] at hs
    split at hs <;> cases hs
    unfold init
    split
    · exact .inr h
    · exact .inr ⟨h.curr, h.pc⟩
  | release env =>
    simp only [MutelemetryLogger.step] at hs
    split at hs <;> cases hs
    unfold release
    split
    · split
      · exact .inl ⟨_, rfl⟩
      · rename_i c hc
        cases hc.symm.trans h.curr
    · exact .inr ⟨h.curr, h.pc⟩
  | releaseOnError =>
    simp only [MutelemetryLogger.step] at hs
    split at hs <;> cases hs
    exact .inr ⟨h.curr, h.pc⟩

theorem torn_of_flushed (hg : ¬ Unflushed l e) (hs : l.step e = some l') : Torn l' := by
  cases e with
  | release env =>
    simp only [MutelemetryLogger.step] at hs
    split at hs <;> cases hs
    rename_i hidle
    obtain ⟨c, file, -, hr⟩ := release_flushed hg
    rw [hr]
    exact ⟨rfl, .inl hidle⟩
  | enqueue | call | step | init | start | stop | releaseOnError => exact absurd trivial hg

theorem Pooled.step (h : Pooled c l) (hg : Unflushed l e) (hs : l.step e = some l') :
    l'.Crashed ∨ ∃ c', Pooled c' l' := by
  cases e with
  | enqueue dp =>
    cases hs
    exact .inr ⟨c, h.curr, h.pool, h.free, h.accounted, h.pc.enqueue⟩
  | start | stop =>
    cases hs
    exact .inr ⟨c, h.congr _ _ _⟩
  | step env => exact h.mainStep (mainLoop_step hs)
  | call =>
    simp only [MutelemetryLogger.step] at hs
    split at hs <;> cases hs
    rename_i hidle
    split
    · exact .inr ⟨c, h.move (by simp [hidle, held]) rfl trivial⟩
    · exact .inr ⟨c, h⟩
  | init opens =>
    simp only [MutelemetryLogger.step] at hs
    split at hs <;> cases hs
    unfold init
    split
    · exact .inr ⟨c, h⟩
    · exact .inr ⟨c, h.congr _ _ _⟩
  | release env =>
    simp only [MutelemetryLogger.step] at hs
    split at hs <;> cases hs
    rw [release_unflushed h.curr hg]
    exact .inr ⟨c, h.congr _ _ _⟩
  | releaseOnError =>
    simp only [MutelemetryLogger.step] at hs
    split at hs <;> cases hs
    exact .inr ⟨c, h.congr _ _ _⟩

end

-- ---------------------------------------------------------------------------
-- Runs
-- ---------------------------------------------------------------------------

section
variable {l : MutelemetryLogger}

theorem pooled_of_guarded (h : Transition.Guarded step Unflushed new es l) :
    l.Crashed ∨ ∃ c, Pooled c l := by
  refine h.invariant (fun l => l.Crashed ∨ ∃ c, Pooled c l) ?_ (.inr ⟨0, pooled_new⟩)
  rintro l e l' (hcrash | ⟨c, hc⟩) hg hs
  · exact .inl (hcrash.step hs)
  · exact hc.step hg hs

/-- Behind a release that wrote the current buffer, none is current. -/
theorem guarded_or_torn (h : Transition.run step new es = some l) :
    Transition.Guarded step Unflushed new es l ∨ l.Crashed ∨ Torn l := by
  have hstart : Transition.Guarded step Unflushed new [] new ∨ new.Crashed ∨ Torn new := .inl .nil
  refine Transition.run_history
    (fun past l => Transition.Guarded step Unflushed new past l ∨ l.Crashed ∨ Torn l) ?_ h hstart
  rintro past l e l' (hg | hcrash | htorn) hs
  · by_cases he : Unflushed l e
    · exact .inl (hg.append (.cons he hs .nil))
    · exact .inr (.inr (torn_of_flushed he hs))
  · exact .inr (.inl (hcrash.step hs))
  · exact .inr (htorn.step hs)

/-- Between two calls of `main_loop`, whatever was called before, the pool is
whole if and only if no `release(false)` found data in the current buffer of an
open file. -/
theorem pool_whole_iff (h : Transition.run step new es = some l) (hidle : l.pc = .idle) :
    l.PoolWhole ↔ Transition.Guarded step Unflushed new es l := by
  constructor
  · rintro ⟨c, hc, -⟩
    obtain hg | ⟨k, hk⟩ | htorn := guarded_or_torn h
    · exact hg
    · cases hk.symm.trans hidle
    · cases hc.symm.trans htorn.curr
  · intro hg
    obtain ⟨k, hk⟩ | ⟨c, hc⟩ := pooled_of_guarded hg
    · cases hk.symm.trans hidle
    · exact hc.whole hidle

def emptySession : List Event :=
  [.init true, .start, .stop, .release ⟨0, true, true, none⟩, .init true, .start]

theorem pool_whole_iff_emptySession : ∃ l, Transition.run step new emptySession = some l ∧
    (l.PoolWhole ↔ Transition.Guarded step Unflushed new emptySession l) :=
  ⟨_, rfl, pool_whole_iff rfl rfl⟩

def initResults (es : List Event) : List Bool :=
  Transition.trace step (fun l e => match e with
    | .init opens => [l.initResult opens]
    | _ => []) new es

/-- A message is in the current buffer when the logger is released, and it is
started once more. -/
def restart : List Event :=
  [.init true, .start, .enqueue [1], .call, .step ⟨0, true, true, none⟩,
    .step ⟨0, true, true, none⟩, .step ⟨0, true, true, none⟩, .step ⟨0, true, true, none⟩,
    .step ⟨0, true, true, none⟩, .stop, .release ⟨0, true, true, none⟩, .init true, .start]

theorem restart_torn : ¬ ∀ es l, Transition.run step new es = some l → l.pc = .idle →
    l.running = true → (initResults es).getLast? = some true → l.PoolWhole := by
  intro h
  obtain ⟨c, hc, -⟩ := h restart _ rfl rfl rfl rfl
  cases hc

end

end MutelemetryLogger

end Mutelemetry.Logger
