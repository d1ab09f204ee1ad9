import Mutelemetry.Logger.Failure

/-!
# Shutdown

`stop` and `release(false)` between two calls of `main_loop`, in a run without
write errors. `release(false)` writes the current buffer; it does not look into
the queue, which `main_loop` drains into the buffer.
-/

namespace Mutelemetry.Logger

open ByteString

namespace MutelemetryLogger

def Unfailing : Event → Prop
  | .step env | .release env => env.badAfter = none
  | .releaseOnError => False
  | .enqueue _ | .call | .init _ | .start | .stop => True

/-- The file is open exactly while the pointer to the queue is set. -/
structure Mirrored (l : MutelemetryLogger) : Prop extends Attached l where
  closed : l.dataQueue = false → l.file.isOpen = false

section
variable {l l' : MutelemetryLogger}

theorem mirrored_new : Mirrored new :=
  ⟨⟨fun h => (nomatch h), fun h => h.elim⟩, fun _ => rfl⟩

theorem Mirrored.mainStep (h : Mirrored l) (henv : env.badAfter = none) (hs : MainStep l env l') :
    Mirrored l' := by
  obtain ⟨doFlush, result, hpc, rfl⟩ | ⟨-, hfile, hqueue, hbusy⟩ := hs.frame
  · have hd := h.busy (by rw [hpc]; trivial)
    rw [workerWrite_good (h.file hd) henv]
    exact ⟨⟨fun _ => h.file hd, fun _ => hd⟩, fun hd' => (nomatch hd.symm.trans hd')⟩
  · refine ⟨⟨fun hd => ?_, fun hb => ?_⟩, fun hd => ?_⟩
    · rw [hfile]
      exact h.file (hqueue ▸ hd)
    · rw [hqueue]
      exact (hbusy hb).elim h.busy id
    · rw [hfile]
      exact h.closed (hqueue ▸ hd)

theorem Mirrored.shut (hbusy : ¬ Busy l.pc) (ho : l.file.isOpen = false) (hd : l.dataQueue = false) :
    Mirrored l :=
  ⟨⟨fun hd' => (nomatch hd.symm.trans hd'), fun hb => absurd hb hbusy⟩, fun _ => ho⟩

theorem not_busy_of_idle (hidle : l.pc = .idle) : ¬ Busy l.pc := by
  rw [hidle]
  exact id

theorem Mirrored.step (h : Mirrored l) (he : Unfailing e) (hs : l.step e = some l') :
    Mirrored l' := by
  cases e with
  | enqueue | start | stop =>
    cases hs
    exact ⟨⟨h.file, h.busy⟩, h.closed⟩
  | step env => exact h.mainStep he (mainLoop_step hs)
  | call =>
    simp only [MutelemetryLogger.step] at hs
    split at hs <;> cases hs
    split
    · exact ⟨⟨h.file, fun hb => hb.elim⟩, h.closed⟩
    · exact h
  | init opens =>
    simp only [MutelemetryLogger.step] at hs
    split at hs <;> cases hs
    rename_i hidle
    unfold init
    split
    · exact h
    · cases opens with
      | true =>
        exact ⟨⟨fun _ => ⟨rfl, rfl⟩, fun hb => absurd hb (not_busy_of_idle hidle)⟩, by simp⟩
      | false => exact .shut (not_busy_of_idle hidle) rfl rfl
  | release env =>
    simp only [MutelemetryLogger.step] at hs
    split at hs <;> cases hs
    rename_i hidle
    by_cases hc : l.file.isOpen = false ∨ l.currIdx ≠ none
    · obtain ⟨ho, hd, hpc⟩ := release_closed hc env
      exact .shut (not_busy_of_idle (hpc.trans hidle)) ho hd
    · simp only [not_or, Bool.not_eq_false, not_not] at hc
      have hr : l.release env = { l with pc := .crashed .nullBuffer } := by
        simp [release, hc]
      rw [hr]
      exact ⟨⟨h.file, fun hb => hb.elim⟩, h.closed⟩
  | releaseOnError => exact he.elim

end

end MutelemetryLogger

-- ---------------------------------------------------------------------------
-- What the file is due
-- ---------------------------------------------------------------------------

namespace DataBuffer

theorem Accounted.data_nil {b : DataBuffer} (h : b.Accounted) (hd : b.hasData = false) :
    b.data = [] := by
  have hsize : (b.buffer.map List.length).sum = 0 := by
    rw [← h.dataSize]
    simpa [hasData] using hd
  rw [← List.length_flatten, List.length_eq_zero_iff] at hsize
  exact hsize

end DataBuffer

namespace Watched

open MutelemetryLogger

/-- Buffer `c` is current. While the file is open every byte it is due is on the
way to it; while it is closed nothing is. -/
structure Recorded (c : Fin 8) (w : Watched) : Prop where
  pooled : Pooled c w.logger
  opened : w.logger.dataQueue = true → w.logger.bytes c = w.due
  closed : w.logger.dataQueue = false → (w.logger.memPool c).data = []

section
variable {w w' : Watched} {l l' : MutelemetryLogger}

theorem bytes_idle (hidle : l.pc = .idle) :
    l.bytes c = l.file.content ++ (l.memPool c).data ++ l.queue.flatten := by
  simp [bytes, inFlight, hidle]

theorem Recorded.mainStep (h : Recorded c w) (hm : Mirrored w.logger) (henv : env.badAfter = none)
    (hs : MainStep w.logger env l) (failed : Bool) :
    l.Crashed ∨ ∃ c', Recorded c' ⟨l, failed, w.due⟩ := by
  obtain hcrash | ⟨c', hp⟩ := h.pooled.mainStep hs
  · exact .inl hcrash
  · cases hd : w.logger.dataQueue with
    | true =>
      obtain ⟨hqueue, -, -⟩ := hs.session (hm.file hd) henv
      refine .inr ⟨c', hp, fun _ => ?_, fun hd' => ?_⟩
      · exact (h.pooled.bytes_eq hp hs (hm.file hd) henv).trans (h.opened hd)
      · cases (hqueue.trans hd).symm.trans hd'
    | false =>
      -- `main_loop` looks into the queue before anything else
      have hbusy : ¬ Busy w.logger.pc := fun hb => nomatch hd.symm.trans (hm.busy hb)
      cases hs with
      | nullQueue | nullBuffer | unclear | long => exact hp.pc.elim
      | drained _ hd' | load _ hd' | fetch _ hd' => cases hd.symm.trans hd'
      | retry hsite | giveUp hsite | swap hsite => exact absurd hsite.busy hbusy
      | room hpc | copy hpc | push hpc | write hpc | reload hpc | young hpc =>
        rw [hpc] at hbusy
        exact absurd trivial hbusy

theorem Recorded.release (h : Recorded c w) (hm : Mirrored w.logger)
    (hg : Unflushed w.logger (.release env)) (failed : Bool) (due : Bytes) :
    Recorded c ⟨w.logger.release env, failed, due⟩ := by
  rw [release_unflushed h.pooled.curr hg]
  refine ⟨h.pooled.congr _ _ _, fun hd => (nomatch hd), fun _ => ?_⟩
  cases hd : w.logger.dataQueue with
  | true => exact (h.pooled.accounted c).data_nil (hg (hm.file hd).1 c h.pooled.curr)
  | false => exact h.closed hd

theorem Recorded.init (h : Recorded c w) (hidle : w.logger.pc = .idle) (opens : Bool) :
    ∃ failed, Recorded c ⟨w.logger.init opens, failed,
      if w.logger.opensFile (.init opens) then w.logger.queue.flatten else w.due⟩ := by
  refine ⟨false, ?_⟩
  cases hbusy : w.logger.running || w.logger.dataQueue with
  | true =>
    have hrefuse : w.logger.init opens = w.logger := by simp [MutelemetryLogger.init, hbusy]
    rw [hrefuse]
    simpa [opensFile, initResult, hbusy] using ⟨h.pooled, h.opened, h.closed⟩
  | false =>
    have haccept : w.logger.init opens =
        { w.logger with file := ⟨opens, false, []⟩, dataQueue := opens } := by
      simp [MutelemetryLogger.init, hbusy]
    have hdata := h.closed (Bool.or_eq_false_iff.mp hbusy).2
    rw [haccept]
    refine ⟨h.pooled.congr _ _ _, fun hd => ?_, fun _ => hdata⟩
    have ho : opens = true := hd
    simp [bytes, inFlight, hidle, opensFile, initResult, hbusy, ho, hdata]

/-- The process has ended, no buffer is current, or every byte is accounted for. -/
structure Kept (w : Watched) : Prop where
  mirrored : Mirrored w.logger
  cases : w.logger.Crashed ∨ Torn w.logger ∨ ∃ c, Recorded c w

theorem kept_new : Kept new where
  mirrored := mirrored_new
  cases := .inr (.inr ⟨0, pooled_new, fun hd => (nomatch hd), fun _ => rfl⟩)

theorem Recorded.step (h : Recorded c w) (hm : Mirrored w.logger) (he : Unfailing e)
    (hs : step w e = some w') : w'.logger.Crashed ∨ Torn w'.logger ∨ ∃ c', Recorded c' w' := by
  obtain ⟨l', hl, rfl⟩ := step_eq_some.mp hs
  by_cases hg : Unflushed w.logger e
  swap
  · exact .inr (.inl (torn_of_flushed hg hl))
  cases e with
  | enqueue dp =>
    cases hl
    refine .inr (.inr ⟨c, ⟨h.pooled.curr, h.pooled.pool, h.pooled.free, h.pooled.accounted,
      h.pooled.pc.enqueue⟩, fun hd => ?_, h.closed⟩)
    have hb := h.opened hd
    simp only [bytes, inFlight] at hb ⊢
    simp [opensFile, enqueued, ← hb]
  | start | stop =>
    cases hl
    exact .inr (.inr ⟨c, h.pooled.congr _ _ _,
      fun hd => (h.opened hd).trans (List.append_nil _).symm, h.closed⟩)
  | step env =>
    have hdue : w.due ++ enqueued (.step env) = w.due := List.append_nil _
    obtain hcrash | hr := h.mainStep hm he (mainLoop_step hl) (w.failed || w.logger.writesBad (.step env))
    · exact .inl hcrash
    · exact .inr (.inr (by simpa [opensFile, hdue] using hr))
  | call =>
    simp only [MutelemetryLogger.step] at hl
    split at hl <;> cases hl
    rename_i hidle
    split
    · refine .inr (.inr ⟨c, h.pooled.move (by simp [hidle, held]) rfl trivial, fun hd => ?_,
        h.closed⟩)
      have hb := h.opened hd
      rw [bytes_idle hidle] at hb
      simp [bytes, inFlight, opensFile, enqueued, ← hb]
    · exact .inr (.inr ⟨c, h.pooled, by simpa [opensFile, enqueued] using h.opened, h.closed⟩)
  | init opens =>
    simp only [MutelemetryLogger.step] at hl
    split at hl <;> cases hl
    rename_i hidle
    obtain ⟨failed, hr⟩ := h.init hidle opens
    refine .inr (.inr ⟨c, hr.pooled, ?_, hr.closed⟩)
    simpa [enqueued] using hr.opened
  | release env =>
    simp only [MutelemetryLogger.step] at hl
    split at hl <;> cases hl
    exact .inr (.inr ⟨c, h.release hm hg _ _⟩)
  | releaseOnError => exact he.elim

theorem Kept.step (h : Kept w) (he : Unfailing e) (hs : step w e = some w') : Kept w' := by
  obtain ⟨l', hl, hw'⟩ := step_eq_some.mp hs
  have hlog : w'.logger = l' := by rw [hw']
  refine ⟨by rw [hlog]; exact h.mirrored.step he hl, ?_⟩
  obtain hcrash | htorn | ⟨c, hc⟩ := h.cases
  · exact .inl (by rw [hlog]; exact hcrash.step hl)
  · have ht := htorn.step hl
    rw [← hlog] at ht
    exact ht.imp_right .inl
  · exact hc.step h.mirrored he hs

theorem kept_of_run (hes : ∀ e ∈ es, Unfailing e) (h : Transition.run step new es = some w) :
    Kept w :=
  (Transition.Guarded.of_run (C := fun _ e => Unfailing e) h fun e he _ => hes e he).invariant
    Kept (fun hw he hs => hw.step he hs) kept_new

-- ---------------------------------------------------------------------------
-- The shutdown
-- ---------------------------------------------------------------------------

theorem run_shutdown (h : Transition.run MutelemetryLogger.step l [.stop, .release env] = some l') :
    l.pc = .idle ∧ l' = ({ l with running := false } : MutelemetryLogger).release env := by
  obtain ⟨m, hm, h⟩ := Transition.run_cons.mp h
  cases hm
  obtain ⟨m, hm, h⟩ := Transition.run_cons.mp h
  cases h
  simp only [MutelemetryLogger.step] at hm
  split at hm
  · rename_i hidle
    cases hm
    exact ⟨hidle, rfl⟩
  · cases hm

/-- `release(false)` of an open file writes what is in the current buffer. -/
theorem release_content (hc : l.currIdx = some c) (hd : (l.memPool c).Accounted)
    (hf : l.file.isOpen = true ∧ l.file.bad = false) (henv : env.badAfter = none) :
    (l.release env).file.content = l.file.content ++ (l.memPool c).data ∧
      (l.release env).pc = l.pc := by
  cases hdata : (l.memPool c).hasData with
  | true =>
    have hf' : ((l.setBuffer c (l.memPool c).clear).workerPush c).file.isOpen = true ∧
        ((l.setBuffer c (l.memPool c).clear).workerPush c).file.bad = false := hf
    simp only [MutelemetryLogger.release, hf.1, hc, hdata, if_true, startIoWorker, workerCopy,
      workerWrite_good hf' henv]
    exact ⟨rfl, rfl⟩
  | false => simp [MutelemetryLogger.release, hf.1, hc, hdata, hd.data_nil hdata]

theorem Recorded.shutdown (h : Recorded c w) (hm : Mirrored w.logger) (hidle : w.logger.pc = .idle)
    (henv : env.badAfter = none) (hl : l = { w.logger with running := false }) :
    ((l.release env).pc = .idle ∧
      (w.logger.dataQueue = true → (l.release env).file.content = w.due)) ↔
      (w.logger.dataQueue = true → w.logger.currIdx ≠ none ∧ w.logger.queue.flatten = []) := by
  subst hl
  have hcurr : w.logger.currIdx ≠ none := by simp [h.pooled.curr]
  cases hd : w.logger.dataQueue with
  | false =>
    have ho := hm.closed hd
    simp [MutelemetryLogger.release, ho, hidle]
  | true =>
    obtain ⟨hcontent, hpc⟩ := release_content (l := { w.logger with running := false })
      h.pooled.curr (h.pooled.accounted c) (hm.file hd) henv
    have hdue := (bytes_idle hidle).symm.trans (h.opened hd)
    rw [hcontent, hpc, ← hdue]
    simp [hidle, hcurr]

theorem shutdown_torn (ht : Torn w.logger) (hm : Mirrored w.logger) (hidle : w.logger.pc = .idle)
    (hl : l = { w.logger with running := false }) :
    ((l.release env).pc = .idle ∧
      (w.logger.dataQueue = true → (l.release env).file.content = w.due)) ↔
      (w.logger.dataQueue = true → w.logger.currIdx ≠ none ∧ w.logger.queue.flatten = []) := by
  subst hl
  cases hd : w.logger.dataQueue with
  | false =>
    have ho := hm.closed hd
    simp [MutelemetryLogger.release, ho, hidle]
  | true =>
    have ho := (hm.file hd).1
    simp [MutelemetryLogger.release, ho, ht.curr]

end

/-- In a run without write errors the shutdown leaves in the file, in order, what
was enqueued for it, if and only if a buffer is current and the queue holds no
bytes. -/
theorem shutdown_writes_iff (hes : ∀ e ∈ es, Unfailing e)
    (h : Transition.run step new es = some w) (henv : env.badAfter = none)
    (hs : Transition.run step w [.stop, .release env] = some w') :
    (w'.logger.pc = .idle ∧ (w.logger.dataQueue = true → w'.logger.file.content = w.due)) ↔
      (w.logger.dataQueue = true → w.logger.currIdx ≠ none ∧ w.logger.queue.flatten = []) := by
  obtain ⟨hidle, hr⟩ := run_shutdown (run_logger hs)
  have hw := kept_of_run hes h
  rw [hr]
  obtain ⟨k, hk⟩ | htorn | ⟨c, hc⟩ := hw.cases
  · cases hk.symm.trans hidle
  · exact shutdown_torn htorn hw.mirrored hidle rfl
  · exact hc.shutdown hw.mirrored hidle henv rfl

def bufferedMessage : List Event :=
  [.init true, .start, .enqueue [1], .call, .step ⟨0, true, true, none⟩,
    .step ⟨0, true, true, none⟩, .step ⟨0, true, true, none⟩, .step ⟨0, true, true, none⟩,
    .step ⟨0, true, true, none⟩]

theorem shutdown_writes_iff_bufferedMessage : ∃ w w',
    Transition.run step new bufferedMessage = some w ∧
    Transition.run step w [.stop, .release ⟨0, true, true, none⟩] = some w' ∧
    w'.logger.file.content = [1] ∧
    ((w'.logger.pc = .idle ∧ (w.logger.dataQueue = true → w'.logger.file.content = w.due)) ↔
      (w.logger.dataQueue = true → w.logger.currIdx ≠ none ∧ w.logger.queue.flatten = [])) := by
  have hes : ∀ e ∈ bufferedMessage, Unfailing e := by simp [bufferedMessage, Unfailing]
  exact ⟨_, _, rfl, rfl, rfl, shutdown_writes_iff hes rfl rfl rfl⟩

/-- A message that `main_loop` has not come to drain is not in the file. -/
theorem queued_lost : ¬ ∀ es w env w', (∀ e ∈ es, Unfailing e) →
    Transition.run step new es = some w → env.badAfter = none →
    Transition.run step w [.stop, .release env] = some w' →
    w'.logger.pc = .idle ∧ (w.logger.dataQueue = true → w'.logger.file.content = w.due) := by
  intro h
  have hlost := h [.init true, .start, .enqueue [1]] _ ⟨0, true, true, none⟩ _
    (by simp [Unfailing]) rfl rfl rfl
  cases hlost.2 rfl

end Watched

end Mutelemetry.Logger
