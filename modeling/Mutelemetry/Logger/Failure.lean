import Mutelemetry.Logger.Lifecycle

/-!
# Write failures

On a bad file the worker calls `release(true)`, which nulls `data_queue_`, and
returns into `main_loop`. Behind the timed flush that call ends; behind a full
buffer it goes on to `dequeue`. `running_` stays true, so the next call of
`main_loop` looks into the queue as well.
-/

namespace Mutelemetry.Logger

open ByteString

/-- The logger, with what a run so far tells of the file that was last opened:
whether a write to it has failed, and what it is to hold once the logger is shut
down. -/
structure Watched where
  logger : MutelemetryLogger
  failed : Bool
  due : Bytes

namespace MutelemetryLogger

def writesBad (l : MutelemetryLogger) : Event → Bool
  | .step env => match l.pc with
    | .writing _ result => !(l.file.write result env).2
    | _ => false
  | .release env => l.file.isOpen && match l.currIdx with
    | some c => (l.memPool c).hasData && !(l.file.write (l.memPool c).data env).2
    | none => false
  | .enqueue _ | .call | .init _ | .start | .stop | .releaseOnError => false

def arrivals : Event → List Bytes
  | .enqueue dp => [dp]
  | .call | .step _ | .init _ | .start | .stop | .release _ | .releaseOnError => []

def opensFile (l : MutelemetryLogger) : Event → Bool
  | .init opens => l.initResult opens
  | .enqueue _ | .call | .step _ | .start | .stop | .release _ | .releaseOnError => false

end MutelemetryLogger

namespace Watched

def new : Watched := ⟨.new, false, []⟩

/-- A file that is opened has to take what waits in the queue, and what comes. -/
def step (w : Watched) (e : Event) : Option Watched :=
  (w.logger.step e).map fun l' => {
    logger := l'
    failed := if w.logger.opensFile e then false else w.failed || w.logger.writesBad e
    due := if w.logger.opensFile e then w.logger.queue.flatten
      else w.due ++ MutelemetryLogger.enqueued e }

theorem step_eq_some {w w' : Watched} : w.step e = some w' ↔
    ∃ l', w.logger.step e = some l' ∧ w' = {
      logger := l'
      failed := if w.logger.opensFile e then false else w.failed || w.logger.writesBad e
      due := if w.logger.opensFile e then w.logger.queue.flatten
        else w.due ++ MutelemetryLogger.enqueued e } := by
  simp only [step, Option.map_eq_some_iff]
  exact exists_congr fun l' => and_congr_right fun _ => eq_comm

theorem run_logger {w w' : Watched} (h : Transition.run step w es = some w') :
    Transition.run MutelemetryLogger.step w.logger es = some w'.logger := by
  induction es generalizing w with
  | nil =>
    cases h
    rfl
  | cons e es ih =>
    obtain ⟨m, hm, h⟩ := Transition.run_cons.mp h
    obtain ⟨l', hl, rfl⟩ := step_eq_some.mp hm
    exact Transition.run_cons.mpr ⟨l', hl, ih h⟩

/-- No write at the full-buffer swap reports a bad file, and once a write has
failed `main_loop` is not called while the logger runs. -/
def Careful (w : Watched) : Event → Prop
  | .step env => ∀ result, w.logger.pc = .writing false result → env.badAfter = none
  | .call => w.failed = true → w.logger.running = false
  | .enqueue _ | .init _ | .start | .stop | .release _ | .releaseOnError => True

end Watched

-- ---------------------------------------------------------------------------
-- Sessions
-- ---------------------------------------------------------------------------

namespace MutelemetryLogger

def Busy : Pc → Prop
  | .idle | .loop | .crashed _ => False
  | .loaded _ | .worker .. | .stacking .. | .writing .. | .reload | .fetch _ | .timed => True

/-- The pointer to the queue is set as long as a file is open that takes writes,
and while `main_loop` is at work. -/
structure Attached (l : MutelemetryLogger) : Prop where
  file : l.dataQueue = true → l.file.isOpen = true ∧ l.file.bad = false
  busy : Busy l.pc → l.dataQueue = true

section
variable {l l' : MutelemetryLogger}

theorem SwapSite.not_writing (hs : SwapSite l env c doFlush) : l.pc ≠ .writing b result := by
  cases hs with
  | full hpc | timed hpc => exact fun hw => nomatch hpc.symm.trans hw

theorem SwapSite.busy (hs : SwapSite l env c doFlush) : Busy l.pc := by
  cases hs with
  | full hpc | timed hpc =>
    rw [hpc]
    trivial

/-- A step touches neither the file nor the pointer, unless it writes. -/
theorem MainStep.frame (hs : MainStep l env l') :
    (∃ doFlush result, l.pc = .writing doFlush result ∧ l' = { l.workerWrite result env with
      pc := if doFlush then .idle else .reload }) ∨
    (∀ doFlush result, l.pc ≠ .writing doFlush result) ∧ l'.file = l.file ∧
      l'.dataQueue = l.dataQueue ∧ (Busy l'.pc → Busy l.pc ∨ l.dataQueue = true) := by
  cases hs with
  | write hpc => exact .inl ⟨_, _, hpc, rfl⟩
  | nullQueue hpc =>
    refine .inr ⟨fun _ _ hw => ?_, rfl, rfl, nofun⟩
    obtain hl | ⟨c, hl⟩ := hpc
    · cases hl.symm.trans hw
    · cases hl.symm.trans hw
  | nullBuffer hpc =>
    refine .inr ⟨fun _ _ hw => ?_, rfl, rfl, nofun⟩
    obtain hl | hl | hl := hpc
    · cases hl.symm.trans hw
    · cases hl.symm.trans hw
    · cases hl.symm.trans hw
  | drained hpc hd | load hpc hd | fetch hpc hd =>
    exact .inr ⟨fun _ _ hw => (nomatch hpc.symm.trans hw), rfl, rfl, fun _ => .inr hd⟩
  | long hpc | young hpc =>
    exact .inr ⟨fun _ _ hw => (nomatch hpc.symm.trans hw), rfl, rfl, nofun⟩
  | room hpc | copy hpc | push hpc | reload hpc =>
    refine .inr ⟨fun _ _ hw => (nomatch hpc.symm.trans hw), rfl, rfl, fun _ => .inl ?_⟩
    rw [hpc]
    trivial
  | retry hsite | giveUp hsite | unclear hsite =>
    exact .inr ⟨fun _ _ => hsite.not_writing, rfl, rfl, nofun⟩
  | swap hsite =>
    exact .inr ⟨fun _ _ => hsite.not_writing, rfl, rfl, fun _ => .inl hsite.busy⟩

theorem workerWrite_bad (hf : l.file.isOpen = true ∧ l.file.bad = false) (henv : env.badAfter = some n)
    (result : Bytes) : l.workerWrite result env = { l with
      file := ⟨false, true, l.file.content ++ result.take n⟩, dataQueue := false } := by
  simp [workerWrite, File.write, hf.1, hf.2, henv, releaseOnError]

theorem release_closed (h : l.file.isOpen = false ∨ l.currIdx ≠ none) (env : Env) :
    (l.release env).file.isOpen = false ∧ (l.release env).dataQueue = false ∧
      (l.release env).pc = l.pc := by
  by_cases hg : Unflushed l (.release env)
  · cases hc : l.currIdx with
    | none =>
      have ho := h.resolve_right (not_not.mpr hc)
      simp [release, ho]
    | some c =>
      rw [release_unflushed hc hg]
      cases ho : l.file.isOpen with
      | true | false => simp [ho]
  · obtain ⟨c, file, hc, hr⟩ := release_flushed hg
    rw [hr]
    exact ⟨rfl, rfl, rfl⟩

end

end MutelemetryLogger

-- ---------------------------------------------------------------------------
-- Behind a failure
-- ---------------------------------------------------------------------------

namespace Watched

open MutelemetryLogger

/-- Once a write has failed no call of `main_loop` is at work. -/
structure Halts (w : Watched) : Prop where
  attached : Attached w.logger
  failed : w.failed = true →
    w.logger.pc = .idle ∧ w.logger.dataQueue = false ∧ w.logger.file.isOpen = false

section
variable {w w' : Watched} {l : MutelemetryLogger}

theorem halts_new : Halts new :=
  ⟨⟨fun h => (nomatch h), fun h => h.elim⟩, fun h => (nomatch h)⟩

theorem writesBad_step (h : ∀ doFlush result, l.pc ≠ .writing doFlush result) :
    l.writesBad (.step env) = false := by
  simp only [writesBad]

theorem Halts.mainStep {due : Bytes} (h : Halts w) (hg : Careful w (.step env))
    (hrun : w.logger.mainLoop env = some l) :
    Halts ⟨l, w.failed || w.logger.writesBad (.step env), due⟩ := by
  have hnot : w.failed = false := by
    by_contra hf
    have hidle := (h.failed (by simpa using hf)).1
    simp [mainLoop, hidle] at hrun
  obtain ⟨doFlush, result, hpc, rfl⟩ | ⟨hpc, hfile, hqueue, hbusy⟩ := (mainLoop_step hrun).frame
  · have hd := h.attached.busy (by rw [hpc]; trivial)
    have hopen := h.attached.file hd
    cases henv : env.badAfter with
    | none =>
      have hgood : w.logger.writesBad (.step env) = false := by
        simp [writesBad, hpc, File.write, hopen, henv]
      rw [workerWrite_good hopen henv, hgood, hnot]
      exact ⟨⟨fun _ => hopen, fun _ => hd⟩, by simp⟩
    | some n =>
      have hflush : doFlush = true := by
        by_contra hf
        rw [Bool.not_eq_true] at hf
        subst hf
        cases henv.symm.trans (hg result hpc)
      rw [workerWrite_bad hopen henv, hflush]
      exact ⟨⟨by simp, fun hb => hb.elim⟩, fun _ => ⟨rfl, rfl, rfl⟩⟩
  · rw [writesBad_step hpc, hnot]
    refine ⟨⟨fun hd => ?_, fun hb => ?_⟩, by simp⟩
    · rw [hfile]
      exact h.attached.file (hqueue ▸ hd)
    · rw [hqueue]
      exact (hbusy hb).elim h.attached.busy id

theorem Halts.step (h : Halts w) (hg : Careful w e) (hs : step w e = some w') : Halts w' := by
  obtain ⟨l', hl, rfl⟩ := step_eq_some.mp hs
  cases e with
  | enqueue | start | stop =>
    cases hl
    exact ⟨⟨h.attached.file, h.attached.busy⟩, by simpa [opensFile, writesBad] using h.failed⟩
  | step env => exact h.mainStep hg hl
  | call =>
    simp only [MutelemetryLogger.step] at hl
    split at hl <;> cases hl
    cases hr : w.logger.running with
    | false => exact ⟨h.attached, by simpa [opensFile, writesBad] using h.failed⟩
    | true =>
      have hnot : w.failed = false := by
        by_contra hf
        cases hr.symm.trans (hg (by simpa using hf))
      exact ⟨⟨h.attached.file, fun hb => hb.elim⟩, by simp [opensFile, writesBad, hnot]⟩
  | init opens =>
    simp only [MutelemetryLogger.step] at hl
    split at hl <;> cases hl
    rename_i hidle
    unfold init
    split
    · rename_i hrefuse
      exact ⟨h.attached, by simpa [opensFile, initResult, writesBad, hrefuse] using h.failed⟩
    · rename_i haccept
      have hbusy : ¬ Busy w.logger.pc := by
        rw [hidle]
        exact id
      cases opens with
      | true =>
        refine ⟨⟨fun _ => ⟨rfl, rfl⟩, fun hb => absurd hb hbusy⟩, ?_⟩
        simp [opensFile, initResult, haccept]
      | false =>
        exact ⟨⟨by simp, fun hb => absurd hb hbusy⟩, fun _ => ⟨hidle, rfl, rfl⟩⟩
  | release env =>
    simp only [MutelemetryLogger.step] at hl
    split at hl <;> cases hl
    rename_i hidle
    by_cases hc : w.logger.file.isOpen = false ∨ w.logger.currIdx ≠ none
    · obtain ⟨ho, hd, hpc⟩ := release_closed hc env
      refine ⟨⟨fun hd' => ?_, fun hb => ?_⟩, fun _ => ⟨hpc.trans hidle, hd, ho⟩⟩
      · cases hd.symm.trans hd'
      · rw [hpc, hidle] at hb
        exact hb.elim
    · simp only [not_or, Bool.not_eq_false, not_not] at hc
      have hnot : w.failed = false := by
        by_contra hf
        cases hc.1.symm.trans (h.failed (by simpa using hf)).2.2
      have hr : w.logger.release env = { w.logger with pc := .crashed .nullBuffer } := by
        simp [release, hc]
      have hgood : w.logger.writesBad (.release env) = false := by
        simp [writesBad, hc]
      rw [hr, hgood, hnot]
      exact ⟨⟨h.attached.file, fun hb => hb.elim⟩, by simp⟩
  | releaseOnError =>
    simp only [MutelemetryLogger.step] at hl
    split at hl <;> cases hl
    rename_i hidle
    refine ⟨⟨by simp [MutelemetryLogger.releaseOnError], fun hb => ?_⟩, fun _ => ⟨hidle, rfl, rfl⟩⟩
    have hb' : Busy w.logger.pc := hb
    rw [hidle] at hb'
    exact hb'.elim

theorem halts_of_guarded (h : Transition.Guarded step Careful new es w) : Halts w :=
  h.invariant Halts (fun hw hg hs => hw.step hg hs) halts_new

-- ---------------------------------------------------------------------------
-- The failure
-- ---------------------------------------------------------------------------

/-- The null pointer has not been dereferenced, and nothing is dequeued or
written as long as no other file is opened. -/
structure Safe (w : Watched) : Prop where
  pointer : w.logger.pc ≠ .crashed .nullQueue
  still : ∀ e w', step w e = some w' → w'.failed = true →
    w'.logger.queue = w.logger.queue ++ arrivals e ∧
      w'.logger.file.content <+: w.logger.file.content

theorem Halts.safe (h : Halts w) (hf : w.failed = true) : Safe w := by
  obtain ⟨hidle, hd, ho⟩ := h.failed hf
  refine ⟨fun hk => (nomatch hidle.symm.trans hk), fun e w' hs _ => ?_⟩
  obtain ⟨l', hl, rfl⟩ := step_eq_some.mp hs
  cases e with
  | enqueue dp =>
    cases hl
    exact ⟨rfl, List.prefix_rfl⟩
  | start | stop =>
    cases hl
    exact ⟨(List.append_nil _).symm, List.prefix_rfl⟩
  | step env => simp [MutelemetryLogger.step, mainLoop, hidle] at hl
  | call =>
    simp only [MutelemetryLogger.step, hidle, if_true, Option.some_inj] at hl
    subst hl
    split
    · exact ⟨(List.append_nil _).symm, List.prefix_rfl⟩
    · exact ⟨(List.append_nil _).symm, List.prefix_rfl⟩
  | init opens =>
    simp only [MutelemetryLogger.step, hidle, if_true, Option.some_inj] at hl
    subst hl
    unfold init
    split
    · exact ⟨(List.append_nil _).symm, List.prefix_rfl⟩
    · exact ⟨(List.append_nil _).symm, List.nil_prefix⟩
  | release env =>
    simp only [MutelemetryLogger.step, hidle, if_true, Option.some_inj] at hl
    subst hl
    simp [release, ho, arrivals]
  | releaseOnError =>
    simp only [MutelemetryLogger.step, hidle, if_true, Option.some_inj] at hl
    subst hl
    exact ⟨(List.append_nil _).symm, List.prefix_rfl⟩

theorem step_mainLoop (hl : w.logger.mainLoop env = some l)
    (hpc : ∀ doFlush result, w.logger.pc ≠ .writing doFlush result) :
    step w (.step env) = some { w with logger := l } := by
  refine step_eq_some.mpr ⟨l, hl, ?_⟩
  simp [opensFile, writesBad_step hpc, enqueued]

theorem loop_null (hpc : w.logger.pc = .loop) (hd : w.logger.dataQueue = false) (env : Env) :
    step w (.step env) = some { w with logger := { w.logger with pc := .crashed .nullQueue } } := by
  refine step_mainLoop ?_ (by simp [hpc])
  simp [mainLoop, hpc, hd]

theorem reload_null (hpc : w.logger.pc = .reload) (hd : w.logger.dataQueue = false)
    (hc : w.logger.currIdx = some c) (env env' : Env) :
    Transition.run step w [.step env, .step env'] =
      some { w with logger := { w.logger with pc := .crashed .nullQueue } } := by
  have hfetch : step w (.step env) =
      some { w with logger := { w.logger with pc := .fetch c } } := by
    refine step_mainLoop ?_ (by simp [hpc])
    simp [mainLoop, hpc, hc]
  refine Transition.run_cons.mpr ⟨_, hfetch, Transition.run_cons.mpr ⟨_, ?_, rfl⟩⟩
  refine step_mainLoop ?_ (by simp)
  simp [mainLoop, hd]

theorem curr_of_writing (h : Transition.run step new es = some w)
    (hpc : w.logger.pc = .writing doFlush result) : ∃ c, w.logger.currIdx = some c := by
  obtain hg | ⟨k, hk⟩ | htorn := guarded_or_torn (run_logger h)
  · obtain ⟨k, hk⟩ | ⟨c, hc⟩ := pooled_of_guarded hg
    · cases hk.symm.trans hpc
    · exact ⟨c, hc.curr⟩
  · cases hk.symm.trans hpc
  · have hat := htorn.pc
    simp [hpc] at hat

/-- Without `Careful` the null pointer is dereferenced, whatever the environment. -/
theorem null_of_careless (h : Transition.Guarded step Careful new es w) (hg : ¬ Careful w e)
    (hs : step w e = some w') : ∃ n, ∀ envs : List Env, envs.length = n → ∃ w'',
      Transition.run step w' (envs.map .step) = some w'' ∧ w''.failed = true ∧
      w''.logger.pc = .crashed .nullQueue := by
  have hw := halts_of_guarded h
  obtain ⟨l', hl, hw'⟩ := step_eq_some.mp hs
  cases e with
  | enqueue | init | start | stop | release | releaseOnError => exact absurd trivial hg
  | step env =>
    simp only [Careful, not_forall] at hg
    obtain ⟨result, hpc, hbad⟩ := hg
    obtain ⟨n, hn⟩ := Option.ne_none_iff_exists'.mp hbad
    obtain ⟨c, hc⟩ := curr_of_writing h.run hpc
    have hopen := hw.attached.file (hw.attached.busy (by rw [hpc]; trivial))
    have hfails : w.logger.writesBad (.step env) = true := by
      simp [writesBad, hpc, File.write, hopen, hn]
    have hat : w'.logger.pc = .reload ∧ w'.logger.dataQueue = false ∧
        w'.logger.currIdx = some c ∧ w'.failed = true := by
      simp only [MutelemetryLogger.step, mainLoop, hpc, workerWrite_bad hopen hn,
        Option.some_inj] at hl
      rw [hw', ← hl]
      exact ⟨rfl, rfl, hc, by simp [opensFile, hfails]⟩
    refine ⟨2, fun envs hlen => ?_⟩
    obtain ⟨env₁, env₂, rfl⟩ := List.length_eq_two.mp hlen
    exact ⟨_, reload_null hat.1 hat.2.1 hat.2.2.1 env₁ env₂, hat.2.2.2, rfl⟩
  | call =>
    simp only [Careful, Classical.not_imp, Bool.not_eq_false] at hg
    obtain ⟨hf, hr⟩ := hg
    obtain ⟨hidle, hd, -⟩ := hw.failed hf
    have hat : w'.logger.pc = .loop ∧ w'.logger.dataQueue = false ∧ w'.failed = true := by
      simp only [MutelemetryLogger.step, hidle, hr, if_true, Option.some_inj] at hl
      rw [hw', ← hl]
      exact ⟨rfl, hd, by simp [opensFile, hf]⟩
    refine ⟨1, fun envs hlen => ?_⟩
    obtain ⟨env, rfl⟩ := List.length_eq_one_iff.mp hlen
    exact ⟨_, Transition.run_cons.mpr ⟨_, loop_null hat.1 hat.2.1 env, rfl⟩, hat.2.2, rfl⟩

end

/-- As long as no write behind a full buffer fails, and `main_loop` is not called
while the logger runs on after a failure, a failure is harmless; otherwise the
null pointer is dereferenced. -/
theorem failure_stops (h : Transition.Guarded step Careful new es w) :
    (w.failed = true → Safe w) ∧
      ∀ e w', ¬ Careful w e → step w e = some w' → ∃ n, ∀ envs : List Env, envs.length = n →
        ∃ w'', Transition.run step w' (envs.map .step) = some w'' ∧ w''.failed = true ∧
          w''.logger.pc = .crashed .nullQueue :=
  ⟨(halts_of_guarded h).safe, fun _ _ hg hs => null_of_careless h hg hs⟩

def failedFlush : List Event :=
  [.init true, .start, .enqueue [1], .call, .step ⟨0, true, true, none⟩,
    .step ⟨0, true, true, none⟩, .step ⟨0, true, true, none⟩, .step ⟨0, true, true, none⟩,
    .step ⟨2000000000, true, true, none⟩, .step ⟨0, true, true, none⟩,
    .step ⟨0, true, true, none⟩, .step ⟨0, true, true, some 0⟩]

theorem failure_stops_failedFlush : ∃ w, Transition.run step new failedFlush = some w ∧
    w.failed = true ∧ Safe w := by
  have hg : Transition.Guarded step Careful new failedFlush _ :=
    .cons trivial rfl <| .cons trivial rfl <| .cons trivial rfl <| .cons nofun rfl <|
    .cons (fun _ => nofun) rfl <| .cons (fun _ => nofun) rfl <| .cons (fun _ => nofun) rfl <|
    .cons (fun _ => nofun) rfl <| .cons (fun _ => nofun) rfl <| .cons (fun _ => nofun) rfl <|
    .cons (fun _ => nofun) rfl <| .cons (fun _ => nofun) rfl .nil
  exact ⟨_, rfl, rfl, (failure_stops hg).1 rfl⟩

/-- The next call of `main_loop` looks into the queue. -/
theorem failedFlush_unsafe : ¬ ∀ es w, Transition.run step new es = some w → w.failed = true →
    Safe w := by
  intro h
  exact (h (failedFlush ++ [.call, .step ⟨0, true, true, none⟩]) _ rfl rfl).pointer rfl

end Watched

end Mutelemetry.Logger
