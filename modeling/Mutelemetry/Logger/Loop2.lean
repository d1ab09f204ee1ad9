import Mutelemetry.Logger.Buffers
import Mutelemetry.Logger.Journal

/-!
# `main_loop2`

The loop that `start` would post instead of calling `main_loop` periodically. It
reads `curr_idx_` once a turn, sleeps where `main_loop` returns, and never looks
at `running_`. Each of its steps is a run of `main_loop`, called again where it
returned; so `main_loop` could have written all that it writes.
-/

namespace Mutelemetry.Logger

open ByteString

inductive Pc2
  /-- At `io_idx = curr_idx_`. -/
  | loop
  /-- `io_idx` read, at `if (data_queue_->empty())`. -/
  | loaded (ioIdx : Option (Fin 8))
  /-- The queue was empty, at `can_start_io`. -/
  | timed (ioIdx : Fin 8)
  /-- The queue was not empty, at `full`. -/
  | filled (ioIdx : Fin 8)
  | worker (dbp : Fin 8) (doFlush : Bool)
  | stacking (dbp : Fin 8) (doFlush : Bool) (result : Bytes)
  | writing (doFlush : Bool) (result : Bytes)
  | reload
  | fetch (ioIdx : Fin 8)
  | crashed (c : Crash)
  deriving DecidableEq, Repr

/-- The logger while `main_loop2` runs; the place of `main_loop` is not used. -/
structure Looping where
  logger : MutelemetryLogger
  pc : Pc2

namespace Looping

inductive Event
  | enqueue (dp : Bytes)
  | step (env : Env)
  | start
  | stop
  deriving DecidableEq, Repr

open MutelemetryLogger

def swapDone (l : MutelemetryLogger) (ioIdx : Fin 8) (doFlush : Bool) : Looping :=
  match l.currIdx with
  | none => ⟨l, .crashed .nullBuffer⟩
  | some top =>
    if (l.memPool top).dataSize = 0 then ⟨l, .worker ioIdx doFlush⟩ else ⟨l, .crashed .assertion⟩

/-- Both swap sites; a failure sleeps and goes on. -/
def trySwap (l : MutelemetryLogger) (ioIdx : Fin 8) (doFlush : Bool) (env : Env) : Looping :=
  match l.swap ioIdx env with
  | .noLock | .giveUp => ⟨l, .loop⟩
  | .swapped l => swapDone l ioIdx doFlush

def mainLoop2 (s : Looping) (env : Env) : Option Looping :=
  let l := s.logger
  match s.pc with
  | .loop => some { s with pc := .loaded l.currIdx }
  | .loaded ioIdx =>
    if l.dataQueue then
      match ioIdx with
      | none => some { s with pc := .crashed .nullBuffer }
      | some ioIdx => some { s with pc := if l.queue.isEmpty then .timed ioIdx else .filled ioIdx }
    else some { s with pc := .crashed .nullQueue }
  | .timed ioIdx =>
    some (if (l.memPool ioIdx).canStartIo env.now then trySwap l ioIdx true env
      else { s with pc := .loop })
  | .filled ioIdx =>
    some (if (l.memPool ioIdx).isFull then trySwap l ioIdx false env
      else { s with pc := .fetch ioIdx })
  | .worker dbp doFlush =>
    let (result, l) := l.workerCopy dbp
    some ⟨l, .stacking dbp doFlush result⟩
  | .stacking dbp doFlush result => some ⟨l.workerPush dbp, .writing doFlush result⟩
  | .writing doFlush result =>
    some ⟨l.workerWrite result env, if doFlush then .loop else .reload⟩
  | .reload =>
    match l.currIdx with
    | some ioIdx => some { s with pc := .fetch ioIdx }
    | none => some { s with pc := .crashed .nullBuffer }
  | .fetch ioIdx =>
    if l.dataQueue then
      match l.queue with
      | [] => none
      | dp :: rest =>
        if dp.length ≤ DataBuffer.maxDataSize then
          some ⟨{ l.setBuffer ioIdx ((l.memPool ioIdx).add env.now dp) with queue := rest }, .loop⟩
        else some ⟨{ l with queue := rest }, .crashed .assertion⟩
    else some { s with pc := .crashed .nullQueue }
  | .crashed _ => none

def step (s : Looping) : Event → Option Looping
  | .enqueue dp => some { s with logger := { s.logger with queue := s.logger.queue ++ [dp] } }
  | .step env => s.mainLoop2 env
  | .start => some { s with logger := { s.logger with running := true } }
  | .stop => some { s with logger := { s.logger with running := false } }

def session : Looping := ⟨MutelemetryLogger.session, .loop⟩

def arrivals : Event → List Bytes
  | .enqueue dp => [dp]
  | .step _ | .start | .stop => []

-- ---------------------------------------------------------------------------
-- The steps of `main_loop`
-- ---------------------------------------------------------------------------

def place : Pc2 → Pc
  | .loop | .loaded _ => .loop
  | .timed _ => .timed
  | .filled ioIdx => .loaded ioIdx
  | .worker dbp doFlush => .worker dbp doFlush
  | .stacking dbp doFlush result => .stacking dbp doFlush result
  | .writing doFlush result => .writing doFlush result
  | .reload => .reload
  | .fetch ioIdx => .fetch ioIdx
  | .crashed c => .crashed c

/-- The logger as `main_loop` leaves it there, never stopped. -/
def image (s : Looping) : MutelemetryLogger :=
  { s.logger with pc := place s.pc, running := true }

def Current (s : Looping) : Prop :=
  match s.pc with
  | .loaded ioIdx => s.logger.currIdx = ioIdx
  | .timed ioIdx => s.logger.currIdx = some ioIdx
  | _ => True

/-- A run of `main_loop` and its calls that ends where a step of `main_loop2`
does, and meets the same. -/
def Followed (l : MutelemetryLogger) (env : Env) (s : Looping) : Prop :=
  ∃ es, Transition.run MutelemetryLogger.step l es = some s.image ∧
    (∀ e ∈ es, e = .call ∨ e = .step env) ∧ s.Current

section
variable {s s' : Looping} {l : MutelemetryLogger}

theorem followed_step (env : Env) (h : l.mainLoop env = some s.image) (hc : s.Current) : Followed l env s :=
  ⟨[.step env], Transition.run_cons.mpr ⟨_, h, rfl⟩, by simp, hc⟩

/-- Where `main_loop` returns it is called again. -/
theorem followed_call (env : Env) (h : l.mainLoop env = some { s.logger with pc := .idle, running := true })
    (hpc : s.pc = .loop) : Followed l env s := by
  refine ⟨[.step env, .call], Transition.run_cons.mpr ⟨_, h, ?_⟩, by simp, by simp [Current, hpc]⟩
  simp [Transition.run, MutelemetryLogger.step, image, hpc, place]

theorem swap_image (l : MutelemetryLogger) (pc : Pc) (ioIdx : Fin 8) (env : Env) :
    ({ l with pc := pc, running := true } : MutelemetryLogger).swap ioIdx env =
      match l.swap ioIdx env with
      | .noLock => .noLock
      | .giveUp => .giveUp
      | .swapped l => .swapped { l with pc := pc, running := true } := by
  unfold MutelemetryLogger.swap
  dsimp only
  split
  · split
    · rfl
    · split
      · rfl
      · rfl
  · rfl

theorem swapDone_image (l : MutelemetryLogger) (pc : Pc) (ioIdx : Fin 8) (doFlush : Bool) :
    ({ l with pc := pc, running := true } : MutelemetryLogger).swapDone ioIdx doFlush =
      (swapDone l ioIdx doFlush).image ∧ (swapDone l ioIdx doFlush).Current := by
  simp only [MutelemetryLogger.swapDone, swapDone]
  cases hc : l.currIdx with
  | none => exact ⟨by simp [image, place, hc], trivial⟩
  | some top =>
    by_cases htop : (l.memPool top).dataSize = 0
    · simp only [htop, if_true]
      exact ⟨by simp [image, place, hc], trivial⟩
    · simp only [htop, if_false]
      exact ⟨by simp [image, place, hc], trivial⟩

/-- A swap that does not come about ends the turn of both loops. -/
theorem followed_trySwap (l m : MutelemetryLogger) (pc lost : Pc)
    (hm : { l with pc := pc, running := true } = m) (hlost : lost = .idle ∨ lost = .loop)
    (hlock : m.swap ioIdx env = .noLock →
      m.mainLoop env = some { l with pc := lost, running := true })
    (hgive : m.swap ioIdx env = .giveUp →
      m.mainLoop env = some { l with pc := .idle, running := true })
    (hdone : ∀ l', m.swap ioIdx env = .swapped l' →
      m.mainLoop env = some (l'.swapDone ioIdx doFlush)) :
    Followed m env (trySwap l ioIdx doFlush env) := by
  subst hm
  simp only [swap_image] at hlock hgive hdone
  unfold trySwap
  cases hswap : l.swap ioIdx env with
  | noLock =>
    have h := hlock (by rw [hswap])
    obtain rfl | rfl := hlost
    · exact followed_call env h rfl
    · exact followed_step env h trivial
  | giveUp => exact followed_call env (hgive (by rw [hswap])) rfl
  | swapped l' =>
    have h := hdone _ (by rw [hswap])
    obtain ⟨himage, hcurr⟩ := swapDone_image l' pc ioIdx doFlush
    rw [himage] at h
    exact followed_step env h hcurr

theorem mainLoop2_followed (hc : s.Current) (h : s.mainLoop2 env = some s') :
    Followed s.image env s' := by
  obtain ⟨l, pc⟩ := s
  cases pc with
  | loop =>
    cases h
    exact ⟨[], rfl, by simp, rfl⟩
  | loaded ioIdx =>
    simp only [mainLoop2] at h
    obtain rfl : l.currIdx = ioIdx := hc
    split at h
    · rename_i hd
      split at h
      · rename_i hcurr
        cases h
        by_cases hq : l.queue = []
        · refine ⟨[.step env, .step env], ?_, by simp, trivial⟩
          simp [Transition.run, MutelemetryLogger.step, MutelemetryLogger.mainLoop, image, place,
            hd, hq, hcurr]
        · refine followed_step env ?_ trivial
          simp [MutelemetryLogger.mainLoop, image, place, hd, hq, hcurr]
      · rename_i i hcurr
        cases h
        by_cases hq : l.queue = []
        · refine followed_step env ?_ (by simp [Current, hq, hcurr])
          simp [MutelemetryLogger.mainLoop, image, place, hd, hq]
        · refine followed_step env ?_ (by simp [Current, hq])
          simp [MutelemetryLogger.mainLoop, image, place, hd, hq, hcurr]
    · rename_i hd
      cases h
      refine followed_step env ?_ trivial
      simp [MutelemetryLogger.mainLoop, image, place, hd]
  | timed ioIdx =>
    have hcurr : l.currIdx = some ioIdx := hc
    simp only [mainLoop2] at h
    cases h
    split
    · rename_i hold
      refine followed_trySwap l { l with pc := .timed, running := true } .timed .idle rfl (.inl rfl)
        (fun hs => ?_) (fun hs => ?_) fun l' hs => ?_
      · rw [hcurr] at hs
        simp [MutelemetryLogger.mainLoop, hcurr, hold, hs]
      · rw [hcurr] at hs
        simp [MutelemetryLogger.mainLoop, hcurr, hold, hs]
      · rw [hcurr] at hs
        simp [MutelemetryLogger.mainLoop, hcurr, hold, hs]
    · rename_i hyoung
      refine followed_call env ?_ rfl
      simp [MutelemetryLogger.mainLoop, image, place, hcurr, hyoung]
  | filled ioIdx =>
    simp only [mainLoop2] at h
    cases h
    split
    · rename_i hfull
      refine followed_trySwap l { l with pc := .loaded ioIdx, running := true } (.loaded ioIdx) .loop rfl
        (.inr rfl) (fun hs => ?_) (fun hs => ?_) fun l' hs => ?_
      · simp [MutelemetryLogger.mainLoop, hfull, hs]
      · simp [MutelemetryLogger.mainLoop, hfull, hs]
      · simp [MutelemetryLogger.mainLoop, hfull, hs]
    · rename_i hroom
      refine followed_step env ?_ trivial
      simp [MutelemetryLogger.mainLoop, image, place, hroom]
  | worker dbp doFlush =>
    cases h
    exact followed_step env rfl trivial
  | stacking dbp doFlush result =>
    cases h
    exact followed_step env rfl trivial
  | writing doFlush result =>
    have hwrite : ∀ pc, MutelemetryLogger.workerWrite { l with pc := pc, running := true } result env =
        { l.workerWrite result env with pc := pc, running := true } := by
      intro pc
      simp only [MutelemetryLogger.workerWrite]
      rcases l.file.write result env with ⟨file, good⟩
      cases good with
      | true | false => rfl
    cases h
    cases doFlush with
    | true =>
      refine followed_call env ?_ rfl
      simp only [MutelemetryLogger.mainLoop, image, place, hwrite, if_true]
    | false =>
      refine followed_step env ?_ trivial
      simp only [MutelemetryLogger.mainLoop, image, place, hwrite, Bool.false_eq_true, if_false]
  | reload =>
    simp only [mainLoop2] at h
    split at h
    · rename_i i hcurr
      cases h
      refine followed_step env ?_ trivial
      simp [MutelemetryLogger.mainLoop, image, place, hcurr]
    · rename_i hcurr
      cases h
      refine followed_step env ?_ trivial
      simp [MutelemetryLogger.mainLoop, image, place, hcurr]
  | fetch ioIdx =>
    simp only [mainLoop2] at h
    split at h
    · rename_i hd
      split at h
      · cases h
      · rename_i dp rest hq
        split at h
        · rename_i hdp
          cases h
          refine followed_step env ?_ trivial
          simp [MutelemetryLogger.mainLoop, image, place, hd, hq, hdp, setBuffer]
        · rename_i hdp
          cases h
          refine followed_step env ?_ trivial
          simp [MutelemetryLogger.mainLoop, image, place, hd, hq, hdp]
    · rename_i hd
      cases h
      refine followed_step env ?_ trivial
      simp [MutelemetryLogger.mainLoop, image, place, hd]
  | crashed c => cases h

def Works (C : Env → Prop) : Logger.Event → Prop
  | .enqueue _ | .call => True
  | .step env => C env
  | .init _ | .start | .stop | .release _ | .releaseOnError => False

def Meets (C : Env → Prop) : Event → Prop
  | .step env => C env
  | .enqueue _ | .start | .stop => True

theorem loop2_simulation (C : Env → Prop) : Transition.Simulation step MutelemetryLogger.step
    (fun _ => Meets C) (Works C) arrivals MutelemetryLogger.arrivals
    (fun s l => l = s.image ∧ s.Current) where
  step := by
    rintro s e s' _ ⟨rfl, hc⟩ he hs
    cases e with
    | enqueue dp =>
      cases hs
      exact ⟨[.enqueue dp], _, rfl, by simp [Works], rfl, rfl, hc⟩
    | step env =>
      obtain ⟨es, hes, hall, hc'⟩ := mainLoop2_followed hc hs
      refine ⟨es, _, hes, fun e hmem => ?_, List.flatMap_eq_nil_iff.mpr fun e hmem => ?_, rfl, hc'⟩
      · obtain rfl | rfl := hall e hmem
        · trivial
        · exact he
      · obtain rfl | rfl := hall e hmem
        · rfl
        · rfl
    | start | stop =>
      cases hs
      exact ⟨[], _, rfl, by simp, rfl, rfl, hc⟩

end

theorem call_session : MutelemetryLogger.session.step .call = some session.image := rfl

/-- Every run of `main_loop2` is one of `main_loop`, called whenever it has
returned: the same messages arrive in the same order, no step meets what the
other did not, and file, buffers, stack and queue are the same at the end.
`stop` makes no difference to it. -/
theorem main_loop2_refines (C : Env → Prop) (hes : ∀ e ∈ es, Meets C e)
    (h : Transition.run step session es = some s) : ∃ es',
      Transition.run MutelemetryLogger.step MutelemetryLogger.session es' = some s.image ∧
      (∀ e ∈ es', Works C e) ∧ es'.flatMap MutelemetryLogger.arrivals = es.flatMap arrivals := by
  have hg := Transition.Guarded.of_run (C := fun _ => Meets C) h fun e he _ => hes e he
  obtain ⟨es', l, hes', hwork, hput, rfl, -⟩ := (loop2_simulation C).run hg ⟨rfl, trivial⟩
  refine ⟨.call :: es', Transition.run_cons.mpr ⟨_, call_session, hes'⟩, ?_, hput⟩
  exact List.forall_mem_cons.mpr ⟨trivial, hwork⟩

theorem enqueued_eq_arrivals (es : List Logger.Event) :
    (es.map enqueued).flatten = (es.flatMap MutelemetryLogger.arrivals).flatten := by
  induction es with
  | nil => rfl
  | cons e es ih =>
    rw [List.map_cons, List.flatten_cons, List.flatMap_cons, List.flatten_append, ih]
    cases e with
    | enqueue dp => simp [enqueued, MutelemetryLogger.arrivals]
    | call | step | init | start | stop | release | releaseOnError => rfl

/-- Without a write error `main_loop2` never fails an assertion, and loses and
repeats nothing: at every step what was enqueued is in the file, in the worker's
hands, in the current buffer and in the queue, in this order. -/
theorem main_loop2_conserves (hshort : ∀ dp ∈ es.flatMap arrivals, dp.length ≤ DataBuffer.maxDataSize)
    (hes : ∀ e ∈ es, Meets (fun env => env.badAfter = none) e)
    (h : Transition.run step session es = some s) : (∀ k, s.pc ≠ .crashed k) ∧
      ∃ c, s.logger.currIdx = some c ∧ s.logger.file.content ++ s.image.inFlight ++
        (s.logger.memPool c).data ++ s.logger.queue.flatten = (es.flatMap arrivals).flatten := by
  have hg := Transition.Guarded.of_run (C := fun _ => Meets fun env => env.badAfter = none) h
    fun e he _ => hes e he
  obtain ⟨es', l, hes', hwork, hput, rfl, -⟩ := (loop2_simulation _).run hg ⟨rfl, trivial⟩
  have hquiet : ∀ e ∈ Logger.Event.call :: es', Quiet e := by
    refine List.forall_mem_cons.mpr ⟨trivial, fun e he => ?_⟩
    have hw := hwork e he
    cases e with
    | enqueue dp => exact hshort dp (hput ▸ List.mem_flatMap.mpr ⟨_, he, List.mem_singleton_self dp⟩)
    | call => trivial
    | step env => exact hw
    | init | start | stop | release | releaseOnError => exact hw.elim
  obtain ⟨c, hc⟩ := Conserved.run hquiet (Transition.run_cons.mpr ⟨_, call_session, hes'⟩)
  refine ⟨fun k hk => hc.toWorking.not_crashed k ?_, c, hc.curr, ?_⟩
  · rw [image, hk]
    rfl
  · rw [← hput, ← enqueued_eq_arrivals]
    exact hc.bytes

/-- A message is flushed after two seconds, and `stop` does not keep the next
one from being read. -/
def stoppedFlush : List Event :=
  [.enqueue [1], .step ⟨0, true, true, none⟩, .step ⟨0, true, true, none⟩,
    .step ⟨0, true, true, none⟩, .step ⟨0, true, true, none⟩, .stop, .step ⟨0, true, true, none⟩,
    .step ⟨0, true, true, none⟩, .step ⟨2000000000, true, true, none⟩,
    .step ⟨0, true, true, none⟩, .step ⟨0, true, true, none⟩, .step ⟨0, true, true, none⟩,
    .enqueue [2], .step ⟨0, true, true, none⟩, .step ⟨0, true, true, none⟩,
    .step ⟨0, true, true, none⟩, .step ⟨0, true, true, none⟩]

theorem main_loop2_refines_stoppedFlush : ∃ s, Transition.run step session stoppedFlush = some s ∧
    s.logger.file.content = [1] ∧ s.logger.running = false ∧ s.logger.queue = [] ∧
    ∃ es', Transition.run MutelemetryLogger.step MutelemetryLogger.session es' = some s.image ∧
      (∀ e ∈ es', Works (fun env => env.tryLock = true) e) ∧
      es'.flatMap MutelemetryLogger.arrivals = stoppedFlush.flatMap arrivals := by
  refine ⟨_, rfl, rfl, rfl, rfl, main_loop2_refines _ ?_ rfl⟩
  simp [stoppedFlush, Meets]

theorem main_loop2_conserves_stoppedFlush :
    ∃ s, Transition.run step session stoppedFlush = some s ∧ (∀ k, s.pc ≠ .crashed k) ∧
      ∃ c, s.logger.currIdx = some c ∧ s.logger.file.content ++ s.image.inFlight ++
        (s.logger.memPool c).data ++ s.logger.queue.flatten =
          (stoppedFlush.flatMap arrivals).flatten := by
  refine ⟨_, rfl, main_loop2_conserves ?_ ?_ rfl⟩
  · simp [stoppedFlush, arrivals, DataBuffer.maxDataSize]
  · simp [stoppedFlush, Meets]

end Looping

end Mutelemetry.Logger
