import Mutelemetry.Lib.Progress
import Mutelemetry.Logger.Pool

/-!
# A call of `main_loop` ends

When its locks, exchanges and writes succeed, a call of `main_loop` ends in a
number of steps that the queue bounds, whatever is enqueued meanwhile. It leaves
every message that was enqueued before it in the file, or in a buffer whose
first message is less than a second old.
-/

namespace Mutelemetry.Logger

open ByteString

namespace MutelemetryLogger

def Prompt (env : Env) : Prop :=
  env.tryLock = true ∧ env.exchange = true ∧ env.badAfter = none

def Served : Event → Prop
  | .enqueue dp => dp.length ≤ DataBuffer.maxDataSize
  | .step env => Prompt env
  | .call | .init _ | .start | .stop | .release _ | .releaseOnError => False

def isStep : Event → Bool
  | .step _ => true
  | _ => false

/-- The steps still to be taken where `main_loop` stands, besides seven for each
message in the queue. -/
def stepsLeft : Pc → Nat
  | .idle | .crashed _ => 0
  | .loop => 6
  | .loaded _ => 5
  | .worker _ doFlush => if doFlush then 3 else 4
  | .stacking _ doFlush _ => if doFlush then 2 else 3
  | .writing doFlush _ => if doFlush then 1 else 2
  | .reload => 1
  | .fetch _ => 0
  | .timed => 4

def rank (l : MutelemetryLogger) : Nat := 7 * l.queue.length + stepsLeft l.pc

variable {l l' : MutelemetryLogger}

-- ---------------------------------------------------------------------------
-- One step
-- ---------------------------------------------------------------------------

/-- There is always a free buffer to swap in. -/
theorem Working.swap (h : Working c l) (hheld : held l.pc = []) (henv : Prompt env) :
    ∃ top rest, l.poolStackedIndex = top :: rest ∧
      l.swap c env = .swapped { l with currIdx := some top, poolStackedIndex := rest } := by
  have hlen := h.pool.length_eq
  rw [hheld] at hlen
  cases hstack : l.poolStackedIndex with
  | nil => simp [hstack] at hlen
  | cons top rest =>
    exact ⟨top, rest, rfl, by simp [MutelemetryLogger.swap, henv.1, henv.2.1, hstack, h.curr]⟩

theorem Working.swapDone (h : Working c l) (hstack : l.poolStackedIndex = top :: rest)
    (doFlush : Bool) : MutelemetryLogger.swapDone
      { l with currIdx := some top, poolStackedIndex := rest } c doFlush =
      { l with currIdx := some top, poolStackedIndex := rest, pc := .worker c doFlush } := by
  have htop := (h.free top (by simp [hstack])).dataSize
  simp [MutelemetryLogger.swapDone, htop]

/-- How a call is left: with a young buffer, or after a flush. -/
inductive Leaves (l : MutelemetryLogger) (env : Env) : Prop
  | young : l.pc = .timed → l.currIdx = some c → (l.memPool c).canStartIo env.now = false →
    Leaves l env
  | flushed : l.pc = .writing true result → Leaves l env

/-- A prompt step of a call is possible, takes the rank down and, unless the
call is left, comes from a test of the queue. -/
theorem Working.prompt (h : Working c l) (hrun : l.pc ≠ .idle) (henv : Prompt env) :
    ∃ l', l.mainLoop env = some l' ∧ rank l' < rank l ∧ (l'.pc = .idle → Leaves l env) := by
  have hok := h.pc
  cases hpc : l.pc with
  | idle => exact absurd hpc hrun
  | crashed k => simp [PcOk, hpc] at hok
  | loop =>
    simp only [mainLoop, hpc, h.queue, h.curr, if_true]
    split
    · exact ⟨_, rfl, by simp [rank, stepsLeft, hpc], fun hidle => by cases hidle⟩
    · exact ⟨_, rfl, by simp [rank, stepsLeft, hpc], fun hidle => by cases hidle⟩
  | loaded ioIdx =>
    simp only [PcOk, hpc] at hok
    obtain ⟨rfl, -⟩ := hok
    simp only [mainLoop, hpc]
    split
    · obtain ⟨top, rest, hstack, hswap⟩ := h.swap (by simp [held, hpc]) henv
      rw [hswap]
      simp only [h.swapDone hstack]
      exact ⟨_, rfl, by simp [rank, stepsLeft, hpc], fun hidle => by cases hidle⟩
    · exact ⟨_, rfl, by simp [rank, stepsLeft, hpc], fun hidle => by cases hidle⟩
  | worker dbp doFlush =>
    simp only [mainLoop, hpc]
    exact ⟨_, rfl, by cases doFlush <;> simp [rank, stepsLeft, hpc, workerCopy, setBuffer],
      fun hidle => by cases hidle⟩
  | stacking dbp doFlush result =>
    simp only [mainLoop, hpc]
    exact ⟨_, rfl, by cases doFlush <;> simp [rank, stepsLeft, hpc, workerPush],
      fun hidle => by cases hidle⟩
  | writing doFlush result =>
    simp only [mainLoop, hpc]
    obtain ⟨file, dataQueue, hw⟩ := l.workerWrite_frame result env
    refine ⟨_, rfl, ?_, fun hidle => ?_⟩
    · cases doFlush <;> simp [rank, stepsLeft, hpc, hw]
    · cases doFlush with
      | true => exact .flushed hpc
      | false => simp at hidle
  | reload =>
    simp only [mainLoop, hpc, h.curr]
    exact ⟨_, rfl, by simp [rank, stepsLeft, hpc], fun hidle => by cases hidle⟩
  | fetch ioIdx =>
    simp only [PcOk, hpc] at hok
    obtain ⟨dp, rest, hq⟩ := List.exists_cons_of_ne_nil hok.2.2
    have hdp := h.short dp (by simp [hq])
    simp only [mainLoop, hpc, h.queue, hq, hdp, if_true]
    refine ⟨_, rfl, ?_, fun hidle => by cases hidle⟩
    simp only [rank, stepsLeft, hpc, hq, List.length_cons]
    omega
  | timed =>
    simp only [mainLoop, hpc, h.curr]
    split
    · obtain ⟨top, rest, hstack, hswap⟩ := h.swap (by simp [held, hpc]) henv
      rw [hswap]
      simp only [h.swapDone hstack]
      exact ⟨_, rfl, by simp [rank, stepsLeft, hpc], fun hidle => by cases hidle⟩
    · rename_i hyoung
      exact ⟨_, rfl, by simp [rank, stepsLeft, hpc],
        fun _ => .young hpc h.curr (by simpa using hyoung)⟩

-- ---------------------------------------------------------------------------
-- What is behind the loop
-- ---------------------------------------------------------------------------

def Behind : Pc → Prop
  | .idle | .timed | .worker _ true | .stacking _ true _ | .writing true _ => True
  | .loop | .loaded _ | .worker _ false | .stacking _ false _ | .writing false _ | .reload
  | .fetch _ | .crashed _ => False

def stored (c : Fin 8) (l : MutelemetryLogger) : Bytes :=
  l.file.content ++ l.inFlight ++ (l.memPool c).data

theorem bytes_eq_stored (c : Fin 8) (l : MutelemetryLogger) :
    l.bytes c = l.stored c ++ l.queue.flatten := rfl

/-- The bytes `sent` are still there, and behind the loop they have left the
queue. -/
structure Kept (sent : Bytes) (c : Fin 8) (l : MutelemetryLogger) : Prop extends
    Working c l where
  there : sent <+: l.bytes c
  behind : Behind l.pc → sent <+: l.stored c

theorem MainStep.behind (hs : MainStep l env l') (hleave : l'.pc = .idle → Leaves l env)
    (h : Behind l'.pc) : l'.queue = l.queue ∧ (l.queue = [] ∨ Behind l.pc) := by
  cases hs with
  | drained _ _ hq => exact ⟨rfl, .inl hq⟩
  | giveUp hsite =>
    cases hleave rfl with
    | young hpc | flushed hpc => exact ⟨rfl, .inr (by rw [hpc]; trivial)⟩
  | swap hsite =>
    cases hsite with
    | full => exact h.elim
    | timed hpc => exact ⟨rfl, .inr (by rw [hpc]; trivial)⟩
  | @copy dbp doFlush hpc =>
    cases doFlush with
    | true => exact ⟨rfl, .inr (by rw [hpc]; trivial)⟩
    | false => exact h.elim
  | @push dbp doFlush result hpc =>
    cases doFlush with
    | true => exact ⟨rfl, .inr (by rw [hpc]; trivial)⟩
    | false => exact h.elim
  | @write doFlush result hpc =>
    obtain ⟨file, dataQueue, hw⟩ := l.workerWrite_frame result env
    cases doFlush with
    | true => exact ⟨by rw [hw], .inr (by rw [hpc]; trivial)⟩
    | false => exact h.elim
  | young hpc => exact ⟨rfl, .inr (by rw [hpc]; trivial)⟩
  | load | nullQueue | nullBuffer | room | retry | unclear | reload | fetch | long => exact h.elim

theorem Kept.mainLoop (h : Kept sent c l) (hrun : l.pc ≠ .idle) (henv : Prompt env)
    (hstep : l.mainLoop env = some l') : ∃ c', Kept sent c' l' := by
  obtain ⟨l₁, hl₁, -, hleave⟩ := h.toWorking.prompt hrun henv
  cases hstep.symm.trans hl₁
  have hs := mainLoop_step hstep
  obtain ⟨c', hc'⟩ := Conserved.mainLoop ⟨h.toWorking, rfl⟩ henv.2.2 hstep
  have hbytes : l'.bytes c' = l.bytes c := hc'.bytes
  refine ⟨c', hc'.toWorking, hbytes ▸ h.there, fun hb => ?_⟩
  obtain ⟨hqueue, hbehind⟩ := hs.behind hleave hb
  have hstored : l'.stored c' = l.stored c := by
    rw [bytes_eq_stored, bytes_eq_stored, hqueue] at hbytes
    exact List.append_cancel_right hbytes
  rw [hstored]
  obtain hq | hb := hbehind
  · have hthere := h.there
    rwa [bytes_eq_stored, hq, List.flatten_nil, List.append_nil] at hthere
  · exact h.behind hb

theorem Working.enqueue (h : Working c l) (hdp : dp.length ≤ DataBuffer.maxDataSize) :
    Working c { l with queue := l.queue ++ [dp] } := by
  have hc : Conserved (l.bytes c) c l := ⟨h, rfl⟩
  obtain ⟨c', hc'⟩ := hc.step (e := .enqueue dp) hdp rfl
  cases hc'.curr.symm.trans h.curr
  exact hc'.toWorking

theorem Kept.enqueue (h : Kept sent c l) (hdp : dp.length ≤ DataBuffer.maxDataSize) :
    Kept sent c { l with queue := l.queue ++ [dp] } where
  toWorking := h.toWorking.enqueue hdp
  there := by
    have hbytes : ({ l with queue := l.queue ++ [dp] } : MutelemetryLogger).bytes c =
        l.bytes c ++ dp := by
      simp [bytes, inFlight]
    rw [hbytes]
    exact h.there.trans (List.prefix_append _ _)
  behind := h.behind

def Serving (sent : Bytes) (l : MutelemetryLogger) : Prop := ∃ c, Kept sent c l

theorem not_idle_of_mainLoop (h : l.mainLoop env = some l') : l.pc ≠ .idle := by
  intro hidle
  simp [MutelemetryLogger.mainLoop, hidle] at h

theorem serving_ranked (sent : Bytes) : Transition.Ranked MutelemetryLogger.step
    (fun _ e => Served e) (Serving sent) isStep rank 7 where
  keep {l e l'} h he hs := by
    obtain ⟨c, h⟩ := h
    cases e with
    | enqueue dp =>
      cases hs
      exact ⟨c, h.enqueue he⟩
    | step env => exact h.mainLoop (not_idle_of_mainLoop hs) he hs
    | call | init | start | stop | release | releaseOnError => exact he.elim
  down {l e l'} h he hown hs := by
    obtain ⟨c, h⟩ := h
    cases e with
    | step env =>
      obtain ⟨l₁, hl₁, hrank, -⟩ := h.toWorking.prompt (not_idle_of_mainLoop hs) he
      cases hl₁.symm.trans hs
      exact hrank
    | enqueue | call | init | start | stop | release | releaseOnError => cases hown
  up {l e l'} h he hown hs := by
    cases e with
    | enqueue dp =>
      cases hs
      simp only [rank, List.length_append, List.length_singleton]
      omega
    | step => cases hown
    | call | init | start | stop | release | releaseOnError => exact he.elim

-- ---------------------------------------------------------------------------
-- Calls
-- ---------------------------------------------------------------------------

theorem Leaves.rested (hl : Leaves l env) (h : Working c l) (hs : l.mainLoop env = some l') :
    l'.currIdx = some c ∧ (l'.memPool c).canStartIo env.now = false := by
  cases hl with
  | @young c' hpc hc hyoung =>
    obtain rfl : c' = c := Option.some.inj (hc.symm.trans h.curr)
    simp only [MutelemetryLogger.mainLoop, hpc, hc, hyoung] at hs
    cases hs
    exact ⟨rfl, hyoung⟩
  | @flushed result hpc =>
    have hok := h.pc
    simp only [PcOk, hpc] at hok
    obtain ⟨file, dataQueue, hw⟩ := l.workerWrite_frame result env
    simp only [MutelemetryLogger.mainLoop, hpc, hw] at hs
    cases hs
    exact ⟨h.curr, by simp [DataBuffer.canStartIo, DataBuffer.hasData, hok.1.dataSize]⟩

theorem running_step (he : Quiet e) (hs : l.step e = some l') : l'.running = l.running := by
  cases e with
  | enqueue dp =>
    cases hs
    rfl
  | call =>
    simp only [MutelemetryLogger.step] at hs
    split at hs
    · split at hs <;> cases hs <;> rfl
    · cases hs
  | step env =>
    cases mainLoop_step hs with
    | write =>
      obtain ⟨file, dataQueue, hw⟩ := l.workerWrite_frame _ env
      rw [hw]
    | drained | load | nullQueue | nullBuffer | room | retry | giveUp | swap | unclear | copy
    | push | reload | fetch | long | young => rfl
  | init | start | stop | release | releaseOnError => exact he.elim

theorem running_of_run (hq : ∀ e ∈ es, Quiet e)
    (h : Transition.run MutelemetryLogger.step session es = some l) : l.running = true := by
  have hg := Transition.Guarded.of_run (C := fun _ e => Quiet e) h fun e he _ => hq e he
  exact hg.invariant (fun l => l.running = true) (fun hi he hs => (running_step he hs).trans hi) rfl

theorem serving_call (hq : ∀ e ∈ es, Quiet e)
    (h : Transition.run MutelemetryLogger.step session es = some l) (hidle : l.pc = .idle) :
    l.step .call = some { l with pc := .loop } ∧
      Serving (es.map enqueued).flatten { l with pc := .loop } := by
  obtain ⟨c, hc⟩ := Conserved.run hq h
  have hrun := running_of_run hq h
  refine ⟨by simp [MutelemetryLogger.step, hidle, hrun], c, ?_⟩
  have hloop : Conserved (es.map enqueued).flatten c { l with pc := .loop } :=
    hc.move (by simp [hidle, held]) (by simp [hidle, inFlight]) rfl rfl trivial
  exact ⟨hloop.toWorking, hloop.bytes ▸ List.prefix_rfl, fun hb => hb.elim⟩

/-- A call whose locks, exchanges and writes succeed takes a bounded number of
steps for what is in the queue and what is enqueued meanwhile; it can go on
until it ends; and when it ends, all that was enqueued before it is in the file,
but for a buffer that is less than a second old. -/
theorem main_loop_serves (hq : ∀ e ∈ es, Quiet e)
    (h : Transition.run MutelemetryLogger.step session es = some l) (hidle : l.pc = .idle)
    (hcs : ∀ e ∈ cs, Served e)
    (h' : Transition.run MutelemetryLogger.step l (.call :: cs) = some l') :
    cs.countP isStep ≤ 7 * (l.queue.length + cs.countP (!isStep ·)) + 6 ∧
    (l'.pc ≠ .idle → ∀ env, Prompt env → ∃ m, l'.step (.step env) = some m) ∧
    (∀ past env, cs = past ++ [.step env] → l'.pc = .idle → ∃ c, l'.currIdx = some c ∧
      (es.map enqueued).flatten <+: l'.file.content ++ (l'.memPool c).data ∧
      (l'.memPool c).canStartIo env.now = false) := by
  obtain ⟨hcall, hserving⟩ := serving_call hq h hidle
  obtain ⟨l₁, hl₁, hrun⟩ := Transition.run_cons.mp h'
  cases hcall.symm.trans hl₁
  have hserved {m : MutelemetryLogger} (s : List Event) (hs : ∀ e ∈ s, e ∈ cs)
      (hr : Transition.run MutelemetryLogger.step { l with pc := .loop } s = some m) :
      Transition.Guarded MutelemetryLogger.step (fun _ e => Served e) { l with pc := .loop } s m :=
    Transition.Guarded.of_run hr fun e he _ => hcs e (hs e he)
  have hranked := serving_ranked (es.map enqueued).flatten
  refine ⟨?_, ?_, ?_⟩
  · have hbound := hranked.bound (hserved cs (fun _ he => he) hrun) hserving
    simp only [rank, stepsLeft] at hbound
    omega
  · intro hpc env henv
    obtain ⟨c, hc⟩ := (hserved cs (fun _ he => he) hrun).invariant _ hranked.keep hserving
    obtain ⟨m, hm, -⟩ := hc.toWorking.prompt hpc henv
    exact ⟨m, hm⟩
  · rintro past env rfl hend
    obtain ⟨m, hm, hlast⟩ := Transition.run_concat.mp hrun
    have hpast : ∀ e ∈ past, e ∈ past ++ [.step env] := fun e he => by simp [he]
    have henv : Prompt env := hcs (.step env) (by simp)
    obtain ⟨c, hc⟩ := (hserved past hpast hm).invariant _ hranked.keep hserving
    have hmid := not_idle_of_mainLoop hlast
    obtain ⟨m', hm', -, hleave⟩ := hc.toWorking.prompt hmid henv
    cases hlast.symm.trans hm'
    obtain ⟨hcurr, hyoung⟩ := (hleave hend).rested hc.toWorking hlast
    obtain ⟨c', hc'⟩ := hc.mainLoop hmid henv hlast
    cases hc'.curr.symm.trans hcurr
    have hstored := hc'.behind (by rw [hend]; trivial)
    simp only [stored, inFlight, hend, List.append_nil] at hstored
    exact ⟨c, hcurr, hstored, hyoung⟩

/-- Two messages, and a call two seconds after the first, during which a third
arrives. -/
def busyCall : List Event :=
  List.replicate 5 (.step ⟨0, true, true, none⟩) ++ [.enqueue [3], .step ⟨0, true, true, none⟩] ++
    List.replicate 8 (.step ⟨2000000000, true, true, none⟩)

theorem main_loop_serves_busyCall : ∃ l l',
    Transition.run MutelemetryLogger.step session [.enqueue [1], .enqueue [2]] = some l ∧
    Transition.run MutelemetryLogger.step l (.call :: busyCall) = some l' ∧
    busyCall.countP isStep ≤ 7 * (l.queue.length + busyCall.countP (!isStep ·)) + 6 ∧
    (l'.pc ≠ .idle → ∀ env, Prompt env → ∃ m, l'.step (.step env) = some m) ∧
    (∀ past env, busyCall = past ++ [.step env] → l'.pc = .idle → ∃ c, l'.currIdx = some c ∧
      ([Event.enqueue [1], .enqueue [2]].map enqueued).flatten <+:
        l'.file.content ++ (l'.memPool c).data ∧
      (l'.memPool c).canStartIo env.now = false) := by
  refine ⟨_, _, rfl, rfl, main_loop_serves (by simp [Quiet, DataBuffer.maxDataSize]) rfl rfl ?_ rfl⟩
  simp [busyCall, Served, Prompt, DataBuffer.maxDataSize]

end MutelemetryLogger

end Mutelemetry.Logger
