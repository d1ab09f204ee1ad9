import Mutelemetry.Lib.Journal
import Mutelemetry.Lib.Simulation
import Mutelemetry.Logger.Failure

/-!
# The logger is a journal

Message by message, and whatever fails: from one `init` to the next the logger
does to its file what a journal does. The messages the worker holds are those of
a buffer; a write is the commit of all of them, or fails.
-/

namespace Mutelemetry.Logger

open ByteString

namespace MutelemetryLogger

def InSession : Event → Prop
  | .init _ => False
  | .enqueue _ | .call | .step _ | .start | .stop | .release _ | .releaseOnError => True

/-- The messages not yet written: in the worker's hands, in the current buffer
and in the queue. -/
def Waits (c : Fin 8) (l : MutelemetryLogger) (ms : List Bytes) : Prop :=
  ∃ hand : List Bytes, l.inFlight = hand.flatten ∧ ms = hand ++ (l.memPool c).buffer ++ l.queue

def Writable (l : MutelemetryLogger) : Prop := l.file.isOpen = true ∧ l.file.bad = false

structure Journaled (l : MutelemetryLogger) (j : Journal UInt8) : Prop where
  content : l.file.content = j.content
  torn : l.file.bad = false → j.torn = []
  live : l.Writable → ¬ l.Crashed → j.failed = false ∧ ∃ c, Pooled c l ∧ Waits c l j.waiting

theorem journaled_session : Journaled session Journal.empty where
  content := rfl
  torn := fun _ => rfl
  live := fun _ _ => ⟨rfl, 0, conserved_session.toPooled, [], rfl, rfl⟩

section
variable {l l' : MutelemetryLogger}

theorem Waits.congr (h : Waits c l ms) (hflight : l'.inFlight = l.inFlight)
    (hbuf : (l'.memPool c).buffer = (l.memPool c).buffer) (hq : l'.queue = l.queue) :
    Waits c l' ms := by
  obtain ⟨hand, hhand, rfl⟩ := h
  exact ⟨hand, hflight.trans hhand, by rw [hbuf, hq]⟩

/-- A step that writes nothing leaves every message where it is, or moves it on. -/
theorem Pooled.waits (h : Pooled c l) (h' : Pooled c' l') (hs : MainStep l env l')
    (hpc : ∀ doFlush result, l.pc ≠ .writing doFlush result) (hw : Waits c l ms) :
    Waits c' l' ms := by
  have hcurr := h'.curr
  cases hs with
  | nullQueue | nullBuffer | unclear | long => exact h'.pc.elim
  | write hpc' => exact absurd hpc' (hpc _ _)
  | drained hpc | load hpc | room hpc | young hpc | reload hpc =>
    obtain rfl : c' = c := Option.some.inj (hcurr.symm.trans h.curr)
    exact hw.congr (by simp [inFlight, hpc]) rfl rfl
  | retry hsite | giveUp hsite =>
    obtain rfl : c' = c := Option.some.inj (hcurr.symm.trans h.curr)
    exact hw.congr hsite.inFlight.symm rfl rfl
  | @swap i doFlush top rest hsite hi hstack =>
    obtain rfl : _ = c' := Option.some.inj hcurr
    obtain rfl := Option.some.inj (hi.symm.trans h.curr)
    obtain ⟨hand, hhand, rfl⟩ := hw
    have htop := (h.free top (by simp [hstack])).buffer
    refine ⟨hand ++ (l.memPool i).buffer, ?_, by simp [htop]⟩
    rw [List.flatten_append, ← hhand, hsite.inFlight]
    rfl
  | copy hpc =>
    obtain rfl : c' = c := Option.some.inj (hcurr.symm.trans h.curr)
    have hd := h.held_ne (i := _) (by rw [hpc]; exact List.mem_append_left _ List.mem_cons_self)
    refine hw.congr (by simp [inFlight, hpc]) ?_ rfl
    simp [setBuffer, Function.update_of_ne hd.symm]
  | push hpc =>
    obtain rfl : c' = c := Option.some.inj (hcurr.symm.trans h.curr)
    exact hw.congr (by simp [inFlight, hpc]) rfl rfl
  | fetch hpc _ hq =>
    obtain rfl : c' = c := Option.some.inj (hcurr.symm.trans h.curr)
    have hok := h.pc
    simp only [PcOk, hpc] at hok
    obtain ⟨rfl, -⟩ := hok
    obtain ⟨hand, hhand, rfl⟩ := hw
    refine ⟨hand, ?_, by simp [setBuffer, DataBuffer.add, hq]⟩
    rw [← hhand]
    simp [inFlight, hpc]

def Follows (j : Journal UInt8) (put : List Bytes) (l' : MutelemetryLogger) : Prop :=
  ∃ bs j', Transition.run Journal.step j bs = some j' ∧ bs.flatMap Journal.puts = put ∧
    Journaled l' j'

theorem Journaled.stay (h : Journaled l' j) : Follows j [] l' := ⟨[], j, rfl, rfl, h⟩

theorem Journaled.frozen (h : Journaled l j) (hf : l'.file.content = l.file.content)
    (hbad : l'.file.bad = false → l.file.bad = false) (hw : ¬ l'.Writable) : Journaled l' j where
  content := hf.trans h.content
  torn := fun hb => h.torn (hbad hb)
  live := fun hw' => absurd hw' hw

theorem write_frozen (hw : ¬ l.Writable) (result : Bytes) (env : Env) :
    (l.workerWrite result env).file.content = l.file.content ∧
      (l.workerWrite result env).file.bad = true := by
  have hcond : (l.file.isOpen && !l.file.bad) = false := by
    simpa [Writable] using hw
  simp [workerWrite, File.write, hcond, releaseOnError]

theorem Journaled.write (h : Journaled l j) (hopen : l.Writable) (hj : j.failed = false)
    (hwait : j.waiting = hand ++ rest) (env : Env) :
    ∃ e j', j.step e = some j' ∧ Journal.puts e = [] ∧ j'.content =
        (l.workerWrite hand.flatten env).file.content ∧
      ((l.workerWrite hand.flatten env).file.bad = false → j'.torn = [] ∧ j'.failed = false) ∧
      j'.waiting = rest := by
  have htorn := h.torn hopen.2
  cases henv : env.badAfter with
  | none =>
    refine ⟨_, _, Journal.step_commit hj hwait, rfl, ?_, fun _ => ⟨htorn, hj⟩, rfl⟩
    rw [workerWrite_good hopen henv]
    simp [Journal.content, htorn, h.content]
  | some n =>
    refine ⟨_, _, Journal.step_fail hj hwait (List.take_prefix n _), rfl, ?_, ?_, rfl⟩
    · rw [workerWrite_bad hopen henv]
      simp [Journal.content, htorn, h.content]
    · rw [workerWrite_bad hopen henv]
      exact fun hb => absurd hb (by simp)

theorem Journaled.mainLoop (h : Journaled l j) (hstep : l.mainLoop env = some l') :
    Follows j [] l' := by
  have hnot : ¬ l.Crashed := by
    rintro ⟨k, hk⟩
    simp [MutelemetryLogger.mainLoop, hk] at hstep
  have hs := mainLoop_step hstep
  obtain ⟨doFlush, result, hpc, rfl⟩ | ⟨hpc, hfile, -, -⟩ := hs.frame
  · by_cases hw : l.Writable
    · obtain ⟨hj, c, hp, hand, hhand, hwait⟩ := h.live hw hnot
      obtain rfl : result = hand.flatten := by
        rw [← hhand]
        simp [inFlight, hpc]
      obtain ⟨e, j', he, hputs, hcontent, hgood, hrest⟩ :=
        h.write hw hj (hwait.trans (List.append_assoc _ _ _)) env
      refine ⟨[e], j', Transition.run_cons.mpr ⟨j', he, rfl⟩, by simpa using hputs, ?_⟩
      refine ⟨hcontent.symm, fun hb => (hgood hb).1, fun hw' _ => ⟨(hgood hw'.2).2, c, hp.write hpc, ?_⟩⟩
      obtain ⟨file, dataQueue, hframe⟩ := l.workerWrite_frame hand.flatten env
      refine ⟨[], ?_, ?_⟩
      · cases doFlush
        · rfl
        · rfl
      · rw [hrest, hframe]
        rfl
    · obtain ⟨hcontent, hbad⟩ := write_frozen hw result env
      exact Journaled.stay (h.frozen hcontent (fun hb => by simp [hbad] at hb)
        fun hw' => by simp [Writable, hbad] at hw')
  · refine (⟨hfile ▸ h.content, hfile ▸ h.torn, fun hw hnot' => ?_⟩ : Journaled l' j).stay
    obtain ⟨hj, c, hp, hwait⟩ := h.live (by rwa [Writable, ← hfile]) hnot
    obtain hk | ⟨c', hp'⟩ := hp.mainStep hs
    · exact absurd hk hnot'
    · exact ⟨hj, c', hp', hp.waits hp' hs hpc hwait⟩

theorem Journaled.congr (h : Journaled l j) (hf : l'.file = l.file) (hc : ¬ l'.Crashed → ¬ l.Crashed)
    (hp : ∀ c, Pooled c l → Pooled c l') (hw : ∀ c, Waits c l j.waiting → Waits c l' j.waiting) :
    Journaled l' j := by
  refine ⟨hf ▸ h.content, hf ▸ h.torn, fun hopen hnot => ?_⟩
  obtain ⟨hj, c, hpooled, hwait⟩ := h.live (by rwa [Writable, ← hf]) (hc hnot)
  exact ⟨hj, c, hp c hpooled, hw c hwait⟩

theorem workerWrite_file (h : l'.file = l.file) (result : Bytes) (env : Env) :
    (l'.workerWrite result env).file = (l.workerWrite result env).file := by
  simp only [workerWrite, h]
  rcases l.file.write result env with ⟨file, good⟩
  cases good with
  | true | false => rfl

theorem not_crashed_of_idle (h : l.pc = .idle) : ¬ l.Crashed := by
  rintro ⟨k, hk⟩
  cases h.symm.trans hk

theorem Journaled.release (h : Journaled l j) (hidle : l.pc = .idle) (env : Env) :
    Follows j [] (l.release env) := by
  have hnot := not_crashed_of_idle hidle
  unfold MutelemetryLogger.release
  split
  · cases hc : l.currIdx with
    | none => exact Journaled.stay ⟨h.content, h.torn, fun _ hcrash => absurd ⟨_, rfl⟩ hcrash⟩
    | some c =>
      dsimp only
      split
      · have hsame : ((l.setBuffer c (l.memPool c).clear).workerPush c).file = l.file := rfl
        have hfile := workerWrite_file hsame (l.memPool c).data env
        by_cases hw : l.Writable
        · obtain ⟨hj, c', hp, hand, hhand, hwait⟩ := h.live hw hnot
          obtain rfl := Option.some.inj (hc.symm.trans hp.curr)
          obtain ⟨e, j', he, hputs, hcontent, hgood, -⟩ := h.write hw hj hwait env
          have hdata : (hand ++ (l.memPool c).buffer).flatten = (l.memPool c).data := by
            rw [List.flatten_append, ← hhand, inFlight, hidle]
            rfl
          rw [hdata, ← hfile] at hcontent hgood
          refine ⟨[e], j', Transition.run_cons.mpr ⟨j', he, rfl⟩, by simpa using hputs, ?_⟩
          exact ⟨hcontent.symm, fun hb => (hgood hb).1, fun hw' => absurd hw'.1 (by simp)⟩
        · obtain ⟨hcontent, hbad⟩ := write_frozen hw (l.memPool c).data env
          rw [← hfile] at hcontent hbad
          exact Journaled.stay (h.frozen hcontent
            (fun hb => absurd (hbad.symm.trans hb) (by simp)) fun hw' => absurd hw'.1 (by simp))
      · exact Journaled.stay (h.frozen rfl id fun hw' => absurd hw'.1 (by simp))
  · rename_i hclosed
    exact Journaled.stay (h.frozen rfl id fun hw => hclosed hw.1)

theorem Journaled.step (h : Journaled l j) (he : InSession e) (hs : l.step e = some l') :
    Follows j (arrivals e) l' := by
  cases e with
  | enqueue dp =>
    cases hs
    refine ⟨[.put dp], _, rfl, rfl, h.content, h.torn, fun hw hnot => ?_⟩
    obtain ⟨hj, c, hp, hand, hhand, hwait⟩ := h.live hw hnot
    refine ⟨hj, c, ⟨hp.curr, hp.pool, hp.free, hp.accounted, hp.pc.enqueue⟩, hand, hhand, ?_⟩
    simp [hwait]
  | call =>
    simp only [MutelemetryLogger.step] at hs
    split at hs <;> cases hs
    rename_i hidle
    split
    · refine Journaled.stay (h.congr rfl (fun _ => not_crashed_of_idle hidle) ?_ ?_)
      · exact fun c hp => hp.move (by simp [hidle, held]) rfl trivial
      · exact fun c hw => hw.congr (by simp [inFlight, hidle]) rfl rfl
    · exact h.stay
  | step env => exact h.mainLoop hs
  | init => exact he.elim
  | start | stop =>
    cases hs
    exact Journaled.stay (h.congr rfl id (fun c hp => hp.congr _ _ _) fun c hw => hw)
  | release env =>
    simp only [MutelemetryLogger.step] at hs
    split at hs <;> cases hs
    exact h.release ‹_› env
  | releaseOnError =>
    simp only [MutelemetryLogger.step] at hs
    split at hs <;> cases hs
    exact Journaled.stay (h.frozen rfl id fun hw => absurd hw.1 (by simp [releaseOnError]))

theorem journal_simulation : Transition.Simulation MutelemetryLogger.step Journal.step
    (fun _ e => InSession e) (fun _ => True) arrivals Journal.puts Journaled where
  step h he hs := by
    obtain ⟨bs, j', hj, hputs, hl⟩ := h.step he hs
    exact ⟨bs, j', hj, fun _ _ => trivial, hputs, hl⟩

end

theorem journaled_of_run (hes : ∀ e ∈ es, InSession e)
    (h : Transition.run MutelemetryLogger.step session es = some l) :
    ∃ bs j, Transition.run Journal.step Journal.empty bs = some j ∧
      bs.flatMap Journal.puts = es.flatMap arrivals ∧ Journaled l j ∧
      j.Accounted (es.flatMap arrivals) := by
  have hg := Transition.Guarded.of_run (C := fun _ e => InSession e) h fun e he _ => hes e he
  obtain ⟨bs, j, hj, -, hputs, hl⟩ := journal_simulation.run hg journaled_session
  have hacc := Journal.accounted_of_run hj
  rw [hputs] at hacc
  exact ⟨bs, j, hj, hputs, hl, hacc⟩

/-- Whatever fails, and wherever the logger stands: the file is what a journal
of the messages enqueued in this order has written. So it is a prefix of what
was enqueued, and ends with a whole message if no write has failed. -/
theorem logger_journals (hes : ∀ e ∈ es, InSession e)
    (h : Transition.run MutelemetryLogger.step session es = some l) :
    (∃ bs j, Transition.run Journal.step Journal.empty bs = some j ∧
      bs.flatMap Journal.puts = es.flatMap arrivals ∧ l.file.content = j.content) ∧
    l.file.content <+: (es.flatMap arrivals).flatten ∧
    (l.file.bad = false → ∃ n, l.file.content = ((es.flatMap arrivals).take n).flatten) := by
  obtain ⟨bs, j, hj, hputs, hl, hacc⟩ := journaled_of_run hes h
  refine ⟨⟨bs, j, hj, hputs, hl.content⟩, ?_, fun hb => ?_⟩
  · rw [hl.content]
    exact hacc.prefix
  · rw [hl.content]
    exact hacc.whole (hl.torn hb)

def tornFlush : List Event :=
  [.enqueue [1, 2], .enqueue [3, 4], .call] ++ List.replicate 7 (.step ⟨0, true, true, none⟩) ++
    [.step ⟨2000000000, true, true, none⟩, .step ⟨0, true, true, none⟩,
      .step ⟨0, true, true, none⟩, .step ⟨0, true, true, some 3⟩]

theorem logger_journals_tornFlush : ∃ l,
    Transition.run MutelemetryLogger.step session tornFlush = some l ∧ l.file.bad = true ∧
    l.file.content = [1, 2, 3] ∧ l.file.content <+: (tornFlush.flatMap arrivals).flatten := by
  refine ⟨_, rfl, rfl, rfl, (logger_journals ?_ rfl).2.1⟩
  simp [tornFlush, InSession]

end MutelemetryLogger

end Mutelemetry.Logger
