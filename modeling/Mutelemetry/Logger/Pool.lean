import Mathlib.Algebra.GroupWithZero.Nat
import Mathlib.Data.List.FinRange
import Mutelemetry.Logger.Step

/-!
# The buffer pool while the logger runs

`Pooled c l` is what every step of `main_loop` keeps: buffer `c` is current,
it, the buffer in the worker's hands and the stack are the eight buffers of
the pool, and what lies on the stack is clear. `Working` adds a session without
errors, `Conserved` where every enqueued byte is.
-/

namespace Mutelemetry.Logger

open ByteString

-- ---------------------------------------------------------------------------
-- One buffer
-- ---------------------------------------------------------------------------

namespace DataBuffer

structure Clear (b : DataBuffer) : Prop where
  dataSize : b.dataSize = 0
  isFull : b.isFull = false
  buffer : b.buffer = []

/-- The size counts the messages held, the flag tells when it has reached the
limit, and one message more than the limit is the most a buffer holds. -/
structure Accounted (b : DataBuffer) : Prop where
  dataSize : b.dataSize = (b.buffer.map List.length).sum
  isFull : b.isFull = true ↔ maxDataSize ≤ b.dataSize
  bound : b.dataSize < 2 * maxDataSize

@[simp] theorem clear_new : DataBuffer.new.Clear := ⟨rfl, rfl, rfl⟩

@[simp] theorem clear_clear (b : DataBuffer) : b.clear.Clear := ⟨rfl, rfl, rfl⟩

theorem Clear.data {b : DataBuffer} (h : b.Clear) : b.data = [] := by
  simp [DataBuffer.data, h.buffer]

theorem Clear.accounted {b : DataBuffer} (h : b.Clear) : b.Accounted where
  dataSize := by simp [h.dataSize, h.buffer]
  isFull := by simp [h.isFull, h.dataSize, maxDataSize]
  bound := by simp [h.dataSize, maxDataSize]

@[simp] theorem data_add (b : DataBuffer) (now : Int) (dp : Bytes) :
    (b.add now dp).data = b.data ++ dp := by
  simp [DataBuffer.data, add]

theorem Accounted.add {b : DataBuffer} (h : b.Accounted) (hfull : b.isFull = false)
    (hdp : dp.length ≤ maxDataSize) (now : Int) : (b.add now dp).Accounted := by
  have hroom : b.dataSize < maxDataSize := by
    have := mt h.isFull.mpr (by simp [hfull])
    omega
  refine ⟨?_, ?_, ?_⟩
  · simp [DataBuffer.add, h.dataSize]
  · simp only [DataBuffer.add]
    split
    · simp; omega
    · simp [hfull]; omega
  · simp only [DataBuffer.add]
    omega

end DataBuffer

-- ---------------------------------------------------------------------------
-- The pool
-- ---------------------------------------------------------------------------

namespace MutelemetryLogger

/-- The buffer that is neither current nor on the stack, if there is one. -/
def held : Pc → List (Fin 8)
  | .worker dbp _ | .stacking dbp _ _ => [dbp]
  | _ => []

def inFlight (l : MutelemetryLogger) : Bytes :=
  match l.pc with
  | .worker dbp _ => (l.memPool dbp).data
  | .stacking _ _ result | .writing _ result => result
  | _ => []

/-- What holds where `main_loop` stands. After a swap the current buffer is
clear, and inside the loop there is a message to dequeue. -/
def PcOk (c : Fin 8) (l : MutelemetryLogger) : Prop :=
  match l.pc with
  | .idle | .loop | .timed => True
  | .loaded ioIdx => ioIdx = c ∧ l.queue ≠ []
  | .worker _ doFlush | .writing doFlush _ =>
    (l.memPool c).Clear ∧ (doFlush = false → l.queue ≠ [])
  | .stacking dbp doFlush _ =>
    (l.memPool dbp).Clear ∧ (l.memPool c).Clear ∧ (doFlush = false → l.queue ≠ [])
  | .reload => (l.memPool c).Clear ∧ l.queue ≠ []
  | .fetch ioIdx => ioIdx = c ∧ (l.memPool c).isFull = false ∧ l.queue ≠ []
  | .crashed _ => False

/-- Buffer `c` is current; it, the buffer in the worker's hands and the stack
are the eight buffers. -/
structure Pooled (c : Fin 8) (l : MutelemetryLogger) : Prop where
  curr : l.currIdx = some c
  pool : (c :: (held l.pc ++ l.poolStackedIndex)).Perm (List.finRange 8)
  free : ∀ i ∈ l.poolStackedIndex, (l.memPool i).Clear
  accounted : ∀ i, (l.memPool i).Accounted
  pc : PcOk c l

structure Working (c : Fin 8) (l : MutelemetryLogger) : Prop extends Pooled c l where
  queue : l.dataQueue = true
  file : l.file.isOpen = true ∧ l.file.bad = false
  short : ∀ dp ∈ l.queue, dp.length ≤ DataBuffer.maxDataSize

/-- Where the bytes enqueued so far are: in the file, on their way to it, in
the current buffer or in the queue, and in this order. -/
structure Conserved (sent : Bytes) (c : Fin 8) (l : MutelemetryLogger) : Prop extends
    Working c l where
  bytes : l.file.content ++ l.inFlight ++ (l.memPool c).data ++ l.queue.flatten = sent

def session : MutelemetryLogger :=
  { new with running := true, dataQueue := true, file := ⟨true, false, []⟩ }

example : Transition.run step new [.init true, .start] = some session := rfl

theorem conserved_session : Conserved [] 0 session where
  curr := rfl
  pool := by decide
  free := fun _ _ => DataBuffer.clear_new
  accounted := fun _ => DataBuffer.clear_new.accounted
  queue := rfl
  file := ⟨rfl, rfl⟩
  short := by simp [session, new]
  pc := trivial
  bytes := rfl

/-- The events of a run without a write error: messages within the limit,
calls of `main_loop` and their steps. -/
def Quiet : Event → Prop
  | .enqueue dp => dp.length ≤ DataBuffer.maxDataSize
  | .call => True
  | .step env => env.badAfter = none
  | .init _ | .start | .stop | .release _ | .releaseOnError => False

def enqueued : Event → Bytes
  | .enqueue dp => dp
  | _ => []

-- ---------------------------------------------------------------------------
-- Steps
-- ---------------------------------------------------------------------------

theorem Pooled.held_ne {l : MutelemetryLogger} (h : Pooled c l)
    (hi : i ∈ held l.pc ++ l.poolStackedIndex) : i ≠ c := by
  rintro rfl
  have hn : (i :: (held l.pc ++ l.poolStackedIndex)).Nodup :=
    h.pool.nodup_iff.mpr (List.nodup_finRange 8)
  exact (List.nodup_cons.mp hn).1 hi

theorem Pooled.move {l : MutelemetryLogger} {next : Pc} (h : Pooled c l) (hheld : held l.pc = [])
    (hheld' : held next = []) (hpc : PcOk c { l with pc := next }) :
    Pooled c { l with pc := next } where
  curr := h.curr
  pool := by simpa [hheld, hheld'] using h.pool
  free := h.free
  accounted := h.accounted
  pc := hpc

theorem SwapSite.held {l : MutelemetryLogger} (hs : SwapSite l env i doFlush) :
    held l.pc = [] := by
  cases hs with
  | full hpc | timed hpc => simp [MutelemetryLogger.held, hpc]

theorem SwapSite.inFlight {l : MutelemetryLogger} (hs : SwapSite l env i doFlush) :
    l.inFlight = [] := by
  cases hs with
  | full hpc | timed hpc => simp [MutelemetryLogger.inFlight, hpc]

theorem Pooled.queue_ne {l : MutelemetryLogger} (h : Pooled c l) (hs : SwapSite l env i doFlush) :
    doFlush = false → l.queue ≠ [] := by
  have hok := h.pc
  cases hs with
  | full hpc =>
    simp only [PcOk, hpc] at hok
    exact fun _ => hok.2
  | timed => exact nofun

theorem Pooled.swap {l : MutelemetryLogger} (h : Pooled c l) (hs : SwapSite l env i doFlush)
    (hstack : l.poolStackedIndex = top :: rest) (hi : l.currIdx = some i) :
    Pooled top { l with
      currIdx := some top, poolStackedIndex := rest, pc := .worker i doFlush } := by
  obtain rfl : i = c := Option.some.inj (hi.symm.trans h.curr)
  have htop : (l.memPool top).Clear := h.free top (by simp [hstack])
  refine ⟨rfl, ?_, ?_, h.accounted, ⟨htop, h.queue_ne hs⟩⟩
  · have hp := h.pool
    rw [hs.held, hstack, List.nil_append] at hp
    exact (List.Perm.swap _ _ _).trans hp
  · intro j hj
    exact h.free j (by simp [hstack, hj])

theorem Pooled.copy {l : MutelemetryLogger} (h : Pooled c l) (hpc : l.pc = .worker dbp doFlush) :
    Pooled c { l.setBuffer dbp (l.memPool dbp).clear with
      pc := .stacking dbp doFlush (l.memPool dbp).data } := by
  have hok := h.pc
  simp only [PcOk, hpc] at hok
  have hd : dbp ≠ c := h.held_ne (by simp [hpc, held])
  refine ⟨h.curr, by simpa [hpc, held, setBuffer] using h.pool, ?_, ?_, ?_⟩
  · intro i hi
    by_cases hid : i = dbp
    · subst hid; simp [setBuffer]
    · simpa [setBuffer, Function.update_of_ne hid] using h.free i hi
  · intro i
    by_cases hid : i = dbp
    · subst hid; simpa [setBuffer] using (DataBuffer.clear_clear _).accounted
    · simpa [setBuffer, Function.update_of_ne hid] using h.accounted i
  · simpa [PcOk, setBuffer, Function.update_of_ne hd.symm] using hok

theorem Pooled.push {l : MutelemetryLogger} (h : Pooled c l)
    (hpc : l.pc = .stacking dbp doFlush result) :
    Pooled c { l.workerPush dbp with pc := .writing doFlush result } := by
  have hok := h.pc
  simp only [PcOk, hpc] at hok
  refine ⟨h.curr, by simpa [hpc, held, workerPush] using h.pool, ?_, h.accounted, hok.2⟩
  intro i hi
  rcases List.mem_cons.mp hi with rfl | hi
  · exact hok.1
  · exact h.free i hi

theorem Pooled.write {l : MutelemetryLogger} (h : Pooled c l) (hpc : l.pc = .writing doFlush result) :
    Pooled c { l.workerWrite result env with pc := if doFlush then .idle else .reload } := by
  have hok := h.pc
  simp only [PcOk, hpc] at hok
  have hp := h.pool
  simp only [hpc, held] at hp
  obtain ⟨file, dataQueue, hw⟩ := l.workerWrite_frame result env
  rw [hw]
  cases doFlush
  · exact ⟨h.curr, hp, h.free, h.accounted, ⟨hok.1, hok.2 rfl⟩⟩
  · exact ⟨h.curr, hp, h.free, h.accounted, trivial⟩

theorem Pooled.fetch {l : MutelemetryLogger} (h : Pooled c l) (hpc : l.pc = .fetch i)
    (hdp : dp.length ≤ DataBuffer.maxDataSize) :
    Pooled c { l.setBuffer i ((l.memPool i).add now dp) with queue := rest, pc := .loop } := by
  have hok := h.pc
  simp only [PcOk, hpc] at hok
  obtain ⟨rfl, hfull, -⟩ := hok
  have hnot : ∀ j ∈ l.poolStackedIndex, j ≠ i := fun j hj => h.held_ne (by simp [hj])
  refine ⟨h.curr, by simpa [hpc, held, setBuffer] using h.pool, ?_, ?_, trivial⟩
  · intro j hj
    simpa [setBuffer, Function.update_of_ne (hnot j hj)] using h.free j hj
  · intro j
    by_cases hj : j = i
    · subst hj; simpa [setBuffer] using (h.accounted j).add hfull hdp now
    · simpa [setBuffer, Function.update_of_ne hj] using h.accounted j

/-- Whatever a step of `main_loop` meets, it ends the process or keeps the pool. -/
theorem Pooled.mainStep {l l' : MutelemetryLogger} (h : Pooled c l) (hs : MainStep l env l') :
    (∃ k, l'.pc = .crashed k) ∨ ∃ c', Pooled c' l' := by
  have hok := h.pc
  cases hs with
  | nullQueue | nullBuffer | unclear | long => exact .inl ⟨_, rfl⟩
  | drained hpc => exact .inr ⟨c, h.move (by simp [hpc, held]) rfl trivial⟩
  | load hpc _ hq hc =>
    have hcc := Option.some.inj (hc.symm.trans h.curr)
    exact .inr ⟨c, h.move (by simp [hpc, held]) rfl ⟨hcc, hq⟩⟩
  | room hpc hfull =>
    simp only [PcOk, hpc] at hok
    obtain ⟨rfl, hq⟩ := hok
    exact .inr ⟨_, h.move (by simp [hpc, held]) rfl ⟨rfl, hfull, hq⟩⟩
  | retry hsite | giveUp hsite => exact .inr ⟨c, h.move hsite.held rfl trivial⟩
  | swap hsite hi hstack => exact .inr ⟨_, h.swap hsite hstack hi⟩
  | copy hpc => exact .inr ⟨c, h.copy hpc⟩
  | push hpc => exact .inr ⟨c, h.push hpc⟩
  | write hpc => exact .inr ⟨c, h.write hpc⟩
  | reload hpc hi =>
    simp only [PcOk, hpc] at hok
    have hcc := Option.some.inj (hi.symm.trans h.curr)
    refine .inr ⟨c, h.move (by simp [hpc, held]) rfl ⟨hcc, hok.1.isFull, hok.2⟩⟩
  | fetch hpc _ _ hdp => exact .inr ⟨c, h.fetch hpc hdp⟩
  | young hpc => exact .inr ⟨c, h.move (by simp [hpc, held]) rfl trivial⟩

/-- With the pool in order only a null queue and a message beyond the limit end
the process. -/
theorem Pooled.crash {l l' : MutelemetryLogger} (h : Pooled c l) (hs : MainStep l env l')
    (hk : l'.pc = .crashed k) :
    l.dataQueue = false ∨ ∃ dp ∈ l.queue, DataBuffer.maxDataSize < dp.length := by
  cases hs with
  | nullQueue _ hd => exact .inl hd
  | nullBuffer _ hc => cases hc.symm.trans h.curr
  | unclear _ hstack hne => exact absurd (h.free _ (by simp [hstack])).dataSize hne
  | long _ hq hdp => exact .inr ⟨_, by simp [hq], hdp⟩
  | write =>
    simp only at hk
    split at hk <;> cases hk
  | drained | load | room | retry | giveUp | swap | copy | push | reload | fetch | young => cases hk

def bytes (c : Fin 8) (l : MutelemetryLogger) : Bytes :=
  l.file.content ++ l.inFlight ++ (l.memPool c).data ++ l.queue.flatten

/-- A step moves the bytes from one place to the next. -/
theorem Pooled.bytes_eq {l l' : MutelemetryLogger} (h : Pooled c l) (h' : Pooled c' l')
    (hs : MainStep l env l') (hf : l.file.isOpen = true ∧ l.file.bad = false)
    (henv : env.badAfter = none) : l'.bytes c' = l.bytes c := by
  have hcurr := h'.curr
  cases hs with
  | nullQueue | nullBuffer | unclear | long => exact h'.pc.elim
  | drained hpc | load hpc | room hpc | young hpc =>
    obtain rfl : c' = c := Option.some.inj (hcurr.symm.trans h.curr)
    simp [bytes, MutelemetryLogger.inFlight, hpc]
  | retry hsite | giveUp hsite =>
    obtain rfl : c' = c := Option.some.inj (hcurr.symm.trans h.curr)
    simp only [bytes, hsite.inFlight]
    simp [MutelemetryLogger.inFlight]
  | reload hpc =>
    obtain rfl : c' = c := Option.some.inj (hcurr.symm.trans h.curr)
    simp [bytes, MutelemetryLogger.inFlight, hpc]
  | swap hsite hi hstack =>
    obtain rfl : _ = c' := Option.some.inj hcurr
    obtain rfl := Option.some.inj (hi.symm.trans h.curr)
    have htop := (h.free _ (by rw [hstack]; exact List.mem_cons_self)).data
    simp only [bytes, hsite.inFlight, htop]
    simp [MutelemetryLogger.inFlight]
  | copy hpc =>
    obtain rfl : c' = c := Option.some.inj (hcurr.symm.trans h.curr)
    have hd := h.held_ne (i := _) (by rw [hpc]; exact List.mem_append_left _ List.mem_cons_self)
    simp [bytes, MutelemetryLogger.inFlight, hpc, setBuffer, Function.update_of_ne hd.symm]
  | push hpc =>
    obtain rfl : c' = c := Option.some.inj (hcurr.symm.trans h.curr)
    simp [bytes, MutelemetryLogger.inFlight, hpc, workerPush]
  | @write doFlush result hpc =>
    rw [workerWrite_good hf henv] at hcurr ⊢
    obtain rfl : c' = c := Option.some.inj (hcurr.symm.trans h.curr)
    have hflight : MutelemetryLogger.inFlight { l with
        file := { l.file with content := l.file.content ++ result }
        pc := if doFlush then .idle else .reload } = [] := by
      cases doFlush
      · rfl
      · rfl
    rw [bytes, hflight]
    simp [bytes, MutelemetryLogger.inFlight, hpc]
  | fetch hpc _ hq =>
    obtain rfl : c' = c := Option.some.inj (hcurr.symm.trans h.curr)
    have hok := h.pc
    simp only [PcOk, hpc] at hok
    obtain ⟨rfl, -⟩ := hok
    simp [bytes, MutelemetryLogger.inFlight, hpc, hq, setBuffer]

theorem MainStep.session {l l' : MutelemetryLogger} (hs : MainStep l env l')
    (hf : l.file.isOpen = true ∧ l.file.bad = false) (henv : env.badAfter = none) :
    l'.dataQueue = l.dataQueue ∧ (l'.file.isOpen = true ∧ l'.file.bad = false) ∧
      ∀ dp ∈ l'.queue, dp ∈ l.queue := by
  cases hs with
  | write =>
    rw [workerWrite_good hf henv]
    exact ⟨rfl, hf, fun _ hdp => hdp⟩
  | fetch _ _ hq | long _ hq =>
    refine ⟨rfl, hf, fun dp hdp => ?_⟩
    rw [hq]
    exact List.mem_cons_of_mem _ hdp
  | drained | load | room | retry | giveUp | swap | unclear | nullQueue | nullBuffer | copy | push
  | reload | young => exact ⟨rfl, hf, fun _ hdp => hdp⟩

theorem Conserved.mainLoop {l l' : MutelemetryLogger} (h : Conserved sent c l)
    (henv : env.badAfter = none) (hstep : l.mainLoop env = some l') :
    ∃ c', Conserved sent c' l' := by
  have hs := mainLoop_step hstep
  have hp := h.toPooled
  obtain ⟨hqueue, hfile, hsub⟩ := hs.session h.file henv
  obtain ⟨k, hk⟩ | ⟨c', hp'⟩ := hp.mainStep hs
  · obtain hd | ⟨dp, hdp, hlong⟩ := hp.crash hs hk
    · cases hd.symm.trans h.queue
    · exact absurd (h.short dp hdp) (by omega)
  · refine ⟨c', ⟨hp', hqueue.trans h.queue, hfile, ?_⟩, ?_⟩
    · exact fun dp hdp => h.short dp (hsub dp hdp)
    · exact (hp.bytes_eq hp' hs h.file henv).trans h.bytes

theorem Conserved.move {l : MutelemetryLogger} {next : Pc} (h : Conserved sent c l)
    (hheld : held l.pc = []) (hflight : l.inFlight = []) (hheld' : held next = [])
    (hflight' : ({ l with pc := next } : MutelemetryLogger).inFlight = [])
    (hpc : PcOk c { l with pc := next }) : Conserved sent c { l with pc := next } := by
  have hp := h.toPooled.move hheld hheld' hpc
  refine ⟨⟨hp, h.queue, h.file, h.short⟩, ?_⟩
  have hb := h.bytes
  rw [hflight] at hb
  rw [hflight']
  exact hb

theorem PcOk.enqueue {l : MutelemetryLogger} (h : PcOk c l) :
    PcOk c { l with queue := l.queue ++ [dp] } := by
  unfold PcOk at h ⊢
  dsimp only
  split at h <;> simp_all

theorem Conserved.step {l l' : MutelemetryLogger} (h : Conserved sent c l) (he : Quiet e)
    (hstep : l.step e = some l') : ∃ c', Conserved (sent ++ enqueued e) c' l' := by
  cases e with
  | enqueue dp =>
    cases hstep
    have hp : Pooled c { l with queue := l.queue ++ [dp] } := { h with pc := h.pc.enqueue }
    refine ⟨c, ⟨hp, h.queue, h.file, ?_⟩, ?_⟩
    · intro m hm
      rcases List.mem_append.mp hm with hm | hm
      · exact h.short m hm
      · obtain rfl := List.mem_singleton.mp hm
        exact he
    · have hb := h.bytes
      simp only [inFlight] at hb ⊢
      simp [enqueued, ← hb]
  | call =>
    simp only [MutelemetryLogger.step] at hstep
    split at hstep
    · rename_i hpc
      simp only [enqueued, List.append_nil]
      split at hstep <;> cases hstep
      · exact ⟨c, h.move (by simp [hpc, held]) (by simp [inFlight, hpc]) rfl rfl trivial⟩
      · exact ⟨c, h⟩
    · cases hstep
  | step env =>
    simp only [enqueued, List.append_nil]
    exact h.mainLoop he hstep
  | init _ | start | stop | release _ | releaseOnError => exact he.elim

theorem Conserved.run {l : MutelemetryLogger} (hq : ∀ e ∈ es, Quiet e)
    (h : Transition.run MutelemetryLogger.step session es = some l) :
    ∃ c, Conserved (es.map enqueued).flatten c l := by
  have keep : ∀ {past : List Event} {s : MutelemetryLogger} {a : Event} {s' : MutelemetryLogger},
      ((∀ e ∈ past, Quiet e) → ∃ c, Conserved (past.map enqueued).flatten c s) →
      s.step a = some s' →
      (∀ e ∈ past ++ [a], Quiet e) → ∃ c, Conserved ((past ++ [a]).map enqueued).flatten c s' := by
    intro past s a s' ih hstep hall
    obtain ⟨c, hc⟩ := ih fun e he => hall e (by simp [he])
    simpa using hc.step (hall a (by simp)) hstep
  have hstart : (∀ e ∈ ([] : List Event), Quiet e) →
      ∃ c, Conserved (([] : List Event).map enqueued).flatten c session :=
    fun _ => ⟨0, conserved_session⟩
  exact Transition.run_history
    (fun past l => (∀ e ∈ past, Quiet e) → ∃ c, Conserved (past.map enqueued).flatten c l)
    keep h hstart hq

/-- No loss, no duplication, no reordering: between two calls of `main_loop`
the file, the current buffer and the queue hold, in this order, exactly what
was enqueued. -/
theorem main_loop_conserves {l : MutelemetryLogger} (hq : ∀ e ∈ es, Quiet e)
    (h : Transition.run MutelemetryLogger.step session es = some l) (hidle : l.pc = .idle) :
    ∃ c, l.currIdx = some c ∧
      l.file.content ++ (l.memPool c).data ++ l.queue.flatten = (es.map enqueued).flatten := by
  obtain ⟨c, hc⟩ := Conserved.run hq h
  have hb := hc.bytes
  simp only [inFlight, hidle, List.append_nil] at hb
  exact ⟨c, hc.curr, hb⟩

/-- A message is flushed two seconds after it was added, and another arrives. -/
def timedFlush : List Event :=
  [.enqueue [1], .call, .step ⟨0, true, true, none⟩, .step ⟨0, true, true, none⟩,
    .step ⟨0, true, true, none⟩, .step ⟨0, true, true, none⟩,
    .step ⟨2000000000, true, true, none⟩, .step ⟨0, true, true, none⟩,
    .step ⟨0, true, true, none⟩, .step ⟨0, true, true, none⟩, .enqueue [2]]

theorem main_loop_conserves_timedFlush : ∃ l,
    Transition.run MutelemetryLogger.step session timedFlush = some l ∧
    l.file.content = [1] ∧ l.queue = [[2]] ∧
    ∃ c, l.currIdx = some c ∧
      l.file.content ++ (l.memPool c).data ++ l.queue.flatten =
        (timedFlush.map enqueued).flatten := by
  refine ⟨_, rfl, rfl, rfl, main_loop_conserves ?_ rfl rfl⟩
  simp [timedFlush, Quiet, DataBuffer.maxDataSize]

end MutelemetryLogger

end Mutelemetry.Logger
