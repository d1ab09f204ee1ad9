import Mutelemetry.Logger.Pool

/-!
# The posted I/O worker

The logger built with `USE_POST_FUNCTION_ON_IO`: `start_io_worker` posts its
body and returns, so that `main_loop` goes on while any number of workers copy,
stack and write their buffers, each at its own pace. No message is lost or
written twice, and no buffer is in two hands; but the buffers reach the file in
the order in which their workers come to the write.
-/

namespace Mutelemetry.Logger

open ByteString

inductive Job
  /-- Before `result = dbp->data()`. -/
  | posted (dbp : Fin 8)
  /-- `result` copied and the buffer cleared. -/
  | stacking (dbp : Fin 8) (result : Bytes)
  /-- The buffer is on the stack, `result` not yet written. -/
  | writing (result : Bytes)
  deriving DecidableEq, Repr

/-- The logger and its workers, in the order in which they were posted. -/
structure Posting where
  logger : MutelemetryLogger
  jobs : List Job

namespace Posting

inductive Event
  | enqueue (dp : Bytes)
  | call
  | step (env : Env)
  | worker (i : Nat) (env : Env)
  deriving DecidableEq, Repr

open MutelemetryLogger

/-- One step of `main_loop`, where starting a worker is posting it. -/
def mainLoop (s : Posting) (env : Env) : Option Posting :=
  match s.logger.pc with
  | .worker dbp doFlush =>
    some ⟨{ s.logger with pc := if doFlush then .idle else .reload }, s.jobs ++ [.posted dbp]⟩
  | .stacking .. | .writing .. => none
  | .idle | .loop | .loaded _ | .reload | .fetch _ | .timed | .crashed _ =>
    (s.logger.mainLoop env).map fun l => { s with logger := l }

def ioWorker (s : Posting) (i : Nat) (env : Env) : Option Posting :=
  match s.jobs[i]? with
  | none => none
  | some (.posted dbp) =>
    let (result, l) := s.logger.workerCopy dbp
    some ⟨l, s.jobs.set i (.stacking dbp result)⟩
  | some (.stacking dbp result) => some ⟨s.logger.workerPush dbp, s.jobs.set i (.writing result)⟩
  | some (.writing result) => some ⟨s.logger.workerWrite result env, s.jobs.eraseIdx i⟩

def step (s : Posting) : Event → Option Posting
  | .enqueue dp => some { s with logger := { s.logger with queue := s.logger.queue ++ [dp] } }
  | .call => (s.logger.step .call).map fun l => { s with logger := l }
  | .step env => s.mainLoop env
  | .worker i env => s.ioWorker i env

def session : Posting := ⟨MutelemetryLogger.session, []⟩

def arrivals : Event → List Bytes
  | .enqueue dp => [dp]
  | .call | .step _ | .worker .. => []

def Quiet : Event → Prop
  | .enqueue dp => dp.length ≤ DataBuffer.maxDataSize
  | .call | .step _ => True
  | .worker _ env => env.badAfter = none

/-- The workers are run one after another, in the order of their posting. -/
def InTurn : Event → Prop
  | .worker i _ => i = 0
  | .enqueue _ | .call | .step _ => True

-- ---------------------------------------------------------------------------
-- The workers' buffers
-- ---------------------------------------------------------------------------

def Job.held : Job → List (Fin 8)
  | .posted dbp | .stacking dbp _ => [dbp]
  | .writing _ => []

def Job.bytes (memPool : Fin 8 → DataBuffer) : Job → Bytes
  | .posted dbp => (memPool dbp).data
  | .stacking _ result | .writing result => result

def posting : Pc → List Job
  | .worker dbp _ => [.posted dbp]
  | _ => []

def pending (s : Posting) : List Job := s.jobs ++ posting s.logger.pc

theorem bytes_update {job : Job} (h : i ∉ Job.held job) (b : DataBuffer) :
    Job.bytes (Function.update pool i b) job = Job.bytes pool job := by
  cases job with
  | posted dbp =>
    have hne : dbp ≠ i := fun heq => h (by simp [Job.held, heq])
    simp [Job.bytes, Function.update_of_ne hne]
  | stacking | writing => rfl

theorem map_bytes_update {jobs : List Job} (h : i ∉ jobs.flatMap Job.held) (b : DataBuffer) :
    jobs.map (Job.bytes (Function.update pool i b)) = jobs.map (Job.bytes pool) := by
  refine List.map_congr_left fun job hjob => bytes_update (fun hi => h ?_) b
  exact List.mem_flatMap.mpr ⟨job, hjob, hi⟩

-- ---------------------------------------------------------------------------
-- The invariant
-- ---------------------------------------------------------------------------

def OwnPlace : Pc → Prop
  | .stacking .. | .writing .. => False
  | _ => True

/-- Buffer `c` is current; it, the buffers in the workers' hands and the stack
are the eight buffers. -/
structure Shared (c : Fin 8) (s : Posting) : Prop where
  curr : s.logger.currIdx = some c
  pool : (c :: (s.pending.flatMap Job.held ++ s.logger.poolStackedIndex)).Perm (List.finRange 8)
  free : ∀ i ∈ s.logger.poolStackedIndex, (s.logger.memPool i).Clear
  cleared : ∀ dbp result, .stacking dbp result ∈ s.jobs → (s.logger.memPool dbp).Clear
  queue : s.logger.dataQueue = true
  file : s.logger.file.isOpen = true ∧ s.logger.file.bad = false
  short : ∀ dp ∈ s.logger.queue, dp.length ≤ DataBuffer.maxDataSize
  pc : PcOk c s.logger
  place : OwnPlace s.logger.pc

/-- Where the messages enqueued so far are: in the blocks that were swapped out,
in the current buffer and in the queue, in this order. A block is written or in
a worker's hands; `inTurn` keeps the blocks in order too. -/
def Spread (inTurn : Prop) (ms : List Bytes) (c : Fin 8) (s : Posting) : Prop :=
  ∃ blocks written left : List (List Bytes),
    s.logger.file.content = written.flatten.flatten ∧
    left.map List.flatten = s.pending.map (Job.bytes s.logger.memPool) ∧
    (written ++ left).Perm blocks ∧ (inTurn → written ++ left = blocks) ∧
    blocks.flatten ++ (s.logger.memPool c).buffer ++ s.logger.queue = ms

structure Scattered (inTurn : Prop) (ms : List Bytes) (c : Fin 8) (s : Posting) : Prop extends
    Shared c s where
  spread : Spread inTurn ms c s

theorem scattered_session (inTurn : Prop) : Scattered inTurn [] 0 session where
  curr := rfl
  pool := by decide
  free := fun _ _ => DataBuffer.clear_new
  cleared := nofun
  queue := rfl
  file := ⟨rfl, rfl⟩
  short := nofun
  pc := trivial
  place := trivial
  spread := ⟨[], [], [], rfl, rfl, .nil, fun _ => rfl, rfl⟩

section
variable {s s' : Posting} {ms : List Bytes}

theorem perm_exchange (a b : α) (l l' : List α) :
    (b :: (l ++ a :: l')).Perm (a :: (l ++ b :: l')) :=
  (List.perm_middle.cons b).trans ((List.Perm.swap _ _ _).trans (List.perm_middle.symm.cons a))

theorem Shared.nodup (h : Shared c s) :
    (c :: (s.pending.flatMap Job.held ++ s.logger.poolStackedIndex)).Nodup :=
  h.pool.nodup_iff.mpr (List.nodup_finRange 8)

theorem Shared.not_held (h : Shared c s) : c ∉ s.pending.flatMap Job.held := fun hc =>
  (List.nodup_cons.mp h.nodup).1 (List.mem_append_left _ hc)

theorem Scattered.move {next : Pc} (h : Scattered inTurn ms c s) (hold : posting s.logger.pc = [])
    (hnew : posting next = []) (hpc : PcOk c { s.logger with pc := next }) (hplace : OwnPlace next) :
    Scattered inTurn ms c { s with logger := { s.logger with pc := next } } := by
  have hpending : pending { s with logger := { s.logger with pc := next } } = s.pending := by
    simp [pending, hold, hnew]
  refine ⟨⟨h.curr, ?_, h.free, h.cleared, h.queue, h.file, h.short, hpc, hplace⟩, ?_⟩
  · rw [hpending]
    exact h.pool
  · obtain ⟨blocks, written, left, hcontent, hleft, hrest⟩ := h.spread
    refine ⟨blocks, written, left, hcontent, ?_, hrest⟩
    rw [hpending]
    exact hleft

theorem Scattered.post (h : Scattered inTurn ms c s) (hpc : s.logger.pc = .worker dbp doFlush) :
    Scattered inTurn ms c ⟨{ s.logger with pc := if doFlush then .idle else .reload },
      s.jobs ++ [.posted dbp]⟩ := by
  have hpending : pending ⟨{ s.logger with pc := if doFlush then .idle else .reload },
      s.jobs ++ [.posted dbp]⟩ = s.pending := by
    cases doFlush <;> simp [pending, posting, hpc]
  have hok := h.pc
  simp only [PcOk, hpc] at hok
  refine ⟨⟨h.curr, ?_, h.free, ?_, h.queue, h.file, h.short, ?_, ?_⟩, ?_⟩
  · rw [hpending]
    exact h.pool
  · intro d result hd
    obtain hd | hd := List.mem_append.mp hd
    · exact h.cleared d result hd
    · cases List.mem_singleton.mp hd
  · cases doFlush with
    | true => trivial
    | false => exact ⟨hok.1, hok.2 rfl⟩
  · cases doFlush <;> trivial
  · obtain ⟨blocks, written, left, hcontent, hleft, hrest⟩ := h.spread
    refine ⟨blocks, written, left, hcontent, ?_, hrest⟩
    rw [hpending]
    exact hleft

theorem Scattered.swap (h : Scattered inTurn ms c s) (hold : posting s.logger.pc = [])
    (hstack : s.logger.poolStackedIndex = top :: rest)
    (hq : doFlush = false → s.logger.queue ≠ []) :
    Scattered inTurn ms top { s with logger := { s.logger with
      currIdx := some top, poolStackedIndex := rest, pc := .worker c doFlush } } := by
  have htop : (s.logger.memPool top).Clear := h.free top (by simp [hstack])
  have hjobs : s.pending = s.jobs := by simp [pending, hold]
  refine ⟨⟨rfl, ?_, ?_, h.cleared, h.queue, h.file, h.short, ⟨htop, hq⟩, trivial⟩, ?_⟩
  · refine List.Perm.trans ?_ h.pool
    rw [hjobs, hstack]
    simp only [pending, posting, List.flatMap_append, List.flatMap_cons, List.flatMap_nil, Job.held,
      List.append_assoc, List.singleton_append]
    exact perm_exchange c top _ rest
  · intro i hi
    exact h.free i (by simp [hstack, hi])
  · obtain ⟨blocks, written, left, hcontent, hleft, hperm, hturn, hall⟩ := h.spread
    refine ⟨blocks ++ [(s.logger.memPool c).buffer], written, left ++ [(s.logger.memPool c).buffer],
      hcontent, ?_, ?_, ?_, ?_⟩
    · rw [hjobs] at hleft
      simp [pending, posting, hleft, Job.bytes, DataBuffer.data]
    · rw [← List.append_assoc]
      exact hperm.append_right _
    · intro ht
      rw [← List.append_assoc, hturn ht]
    · simp [htop.buffer, ← hall]

theorem Scattered.fetch (h : Scattered inTurn ms c s) (hpc : s.logger.pc = .fetch c)
    (hq : s.logger.queue = dp :: rest) (now : Int) :
    Scattered inTurn ms c { s with logger := { s.logger.setBuffer c
      ((s.logger.memPool c).add now dp) with queue := rest, pc := .loop } } := by
  have hjobs : s.pending = s.jobs := by simp [pending, posting, hpc]
  have hheld : c ∉ s.jobs.flatMap Job.held := hjobs ▸ h.not_held
  have hne : ∀ i ∈ s.logger.poolStackedIndex, i ≠ c := by
    rintro i hi rfl
    exact (List.nodup_cons.mp h.nodup).1 (List.mem_append_right _ hi)
  refine ⟨⟨h.curr, ?_, ?_, ?_, h.queue, h.file, ?_, trivial, trivial⟩, ?_⟩
  · have hp := h.pool
    rw [hjobs] at hp
    simpa [pending, posting, setBuffer] using hp
  · intro i hi
    simpa [setBuffer, Function.update_of_ne (hne i hi)] using h.free i hi
  · intro d result hd
    have hdc : d ≠ c := by
      rintro rfl
      exact hheld (List.mem_flatMap.mpr ⟨_, hd, by simp [Job.held]⟩)
    simpa [setBuffer, Function.update_of_ne hdc] using h.cleared d result hd
  · exact fun m hm => h.short m (by simp [hq, show m ∈ rest from hm])
  · obtain ⟨blocks, written, left, hcontent, hleft, hperm, hturn, hall⟩ := h.spread
    refine ⟨blocks, written, left, hcontent, ?_, hperm, hturn, ?_⟩
    · rw [hjobs] at hleft
      simp [pending, posting, setBuffer, hleft, map_bytes_update hheld]
    · rw [hq] at hall
      simp [setBuffer, DataBuffer.add, ← hall]

theorem Scattered.mainStep (h : Scattered inTurn ms c s) (hnot : posting s.logger.pc = [])
    (hs : MainStep s.logger env l) : ∃ c', Scattered inTurn ms c' { s with logger := l } := by
  have hok := h.pc
  have hplace := h.place
  cases hs with
  | drained => exact ⟨c, h.move hnot rfl trivial trivial⟩
  | load hpc _ hq hc =>
    exact ⟨c, h.move hnot rfl ⟨Option.some.inj (hc.symm.trans h.curr), hq⟩ trivial⟩
  | nullQueue _ hd => cases hd.symm.trans h.queue
  | nullBuffer _ hc => cases hc.symm.trans h.curr
  | room hpc hfull =>
    simp only [PcOk, hpc] at hok
    obtain ⟨rfl, hq⟩ := hok
    exact ⟨_, h.move hnot rfl ⟨rfl, hfull, hq⟩ trivial⟩
  | retry | giveUp | young => exact ⟨c, h.move hnot rfl trivial trivial⟩
  | @swap i doFlush top rest hsite hi hstack =>
    obtain rfl : i = c := Option.some.inj (hi.symm.trans h.curr)
    refine ⟨top, h.swap hnot hstack ?_⟩
    cases hsite with
    | full hpc =>
      simp only [PcOk, hpc] at hok
      exact fun _ => hok.2
    | timed => exact fun hflush => by cases hflush
  | unclear _ hstack hne => exact absurd (h.free _ (by simp [hstack])).dataSize hne
  | copy hpc => simp [posting, hpc] at hnot
  | push hpc | write hpc => simp [OwnPlace, hpc] at hplace
  | reload hpc hc =>
    simp only [PcOk, hpc] at hok
    refine ⟨c, h.move hnot rfl ?_ trivial⟩
    exact ⟨Option.some.inj (hc.symm.trans h.curr), hok.1.isFull, hok.2⟩
  | fetch hpc _ hq =>
    simp only [PcOk, hpc] at hok
    obtain ⟨rfl, -⟩ := hok
    exact ⟨_, h.fetch hpc hq env.now⟩
  | long _ hq hdp => exact absurd (h.short _ (hq ▸ List.mem_cons_self)) (Nat.not_le.mpr hdp)

theorem Scattered.mainLoop (h : Scattered inTurn ms c s) (hs : s.mainLoop env = some s') :
    ∃ c', Scattered inTurn ms c' s' := by
  unfold Posting.mainLoop at hs
  split at hs
  · rename_i hpc
    cases hs
    exact ⟨c, h.post hpc⟩
  · cases hs
  · cases hs
  all_goals
    rename_i hpc
    obtain ⟨l, hl, rfl⟩ := Option.map_eq_some_iff.mp hs
    exact h.mainStep (by rw [hpc]; rfl) (mainLoop_step hl)

-- ---------------------------------------------------------------------------
-- The workers
-- ---------------------------------------------------------------------------

theorem jobs_split {jobs : List Job} (h : jobs[i]? = some job) : ∃ before behind,
    jobs = before ++ job :: behind ∧ before.length = i ∧
    (∀ job', jobs.set i job' = before ++ job' :: behind) ∧
    jobs.eraseIdx i = before ++ behind := by
  obtain ⟨hi, hjob⟩ := List.getElem?_eq_some_iff.mp h
  have hsplit : jobs = jobs.take i ++ job :: jobs.drop (i + 1) := by
    rw [← hjob, List.getElem_cons_drop, List.take_append_drop]
  exact ⟨_, _, hsplit, by simp [Nat.min_eq_left (Nat.le_of_lt hi)],
    fun job' => List.set_eq_take_append_cons_drop .. ▸ if_pos hi, List.eraseIdx_eq_take_drop_succ ..⟩

theorem pcOk_update {l : MutelemetryLogger} (h : PcOk c l) (hplace : OwnPlace l.pc) (hd : dbp ≠ c)
    (b : DataBuffer) : PcOk c (l.setBuffer dbp b) := by
  have hsame : (l.setBuffer dbp b).memPool c = l.memPool c := Function.update_of_ne hd.symm _ _
  cases hpc : l.pc with
  | stacking | writing => simp [OwnPlace, hpc] at hplace
  | idle | loop | timed => simp [PcOk, setBuffer, hpc]
  | crashed => simp [PcOk, hpc] at h
  | loaded | worker | reload | fetch =>
    simp only [PcOk, hpc] at h
    have hpc' : (l.setBuffer dbp b).pc = l.pc := rfl
    simp only [PcOk, hpc', hpc, hsame]
    exact h

theorem pending_split (hjobs : s.jobs = before ++ job :: behind) :
    s.pending = before ++ job :: (behind ++ posting s.logger.pc) := by
  simp [pending, hjobs]

theorem Shared.apart (h : Shared c s) (hjobs : s.jobs = before ++ job :: behind)
    (hd : Job.held job = [dbp]) : dbp ≠ c ∧ dbp ∉ before.flatMap Job.held ∧
      dbp ∉ (behind ++ posting s.logger.pc).flatMap Job.held ∧
      dbp ∉ s.logger.poolStackedIndex := by
  have hnodup := h.nodup
  rw [pending_split hjobs, List.flatMap_append, List.flatMap_cons, hd, List.append_assoc,
    List.append_assoc, List.singleton_append, (perm_exchange dbp c _ _).nodup_iff,
    List.nodup_cons] at hnodup
  have hnot := hnodup.1
  simp only [List.mem_append, List.mem_cons, not_or] at hnot
  exact ⟨hnot.2.1, hnot.1, hnot.2.2.1, hnot.2.2.2⟩

theorem Scattered.copy (h : Scattered inTurn ms c s)
    (hjobs : s.jobs = before ++ .posted dbp :: behind) :
    Scattered inTurn ms c ⟨s.logger.setBuffer dbp (s.logger.memPool dbp).clear,
      before ++ .stacking dbp (s.logger.memPool dbp).data :: behind⟩ := by
  obtain ⟨hc, hbefore, hbehind, hstack⟩ := h.apart hjobs rfl
  have hpending := pending_split (s := ⟨s.logger.setBuffer dbp (s.logger.memPool dbp).clear,
    before ++ .stacking dbp (s.logger.memPool dbp).data :: behind⟩) rfl
  refine ⟨⟨h.curr, ?_, ?_, ?_, h.queue, h.file, h.short, pcOk_update h.pc h.place hc _, h.place⟩, ?_⟩
  · have hp := h.pool
    rw [pending_split hjobs] at hp
    rw [hpending]
    simpa only [List.flatMap_append, List.flatMap_cons, Job.held, setBuffer] using hp
  · intro i hi
    have hne : i ≠ dbp := fun heq => hstack (heq ▸ hi)
    simpa [setBuffer, Function.update_of_ne hne] using h.free i hi
  · intro d result hd
    by_cases hdd : d = dbp
    · subst hdd
      simp [setBuffer]
    · have hold : .stacking d result ∈ s.jobs := by
        rw [hjobs]
        simp only [List.mem_append, List.mem_cons, Job.stacking.injEq] at hd ⊢
        obtain hd | ⟨heq, -⟩ | hd := hd
        · exact .inl hd
        · exact absurd heq hdd
        · exact .inr (.inr hd)
      simpa [setBuffer, Function.update_of_ne hdd] using h.cleared d result hold
  · obtain ⟨blocks, written, left, hcontent, hleft, hperm, hturn, hall⟩ := h.spread
    refine ⟨blocks, written, left, hcontent, ?_, hperm, hturn, ?_⟩
    · rw [pending_split hjobs] at hleft
      rw [hpending, hleft, List.map_append, List.map_append, List.map_cons, List.map_cons]
      simp only [setBuffer, map_bytes_update hbefore, map_bytes_update hbehind]
      rfl
    · simpa [setBuffer, Function.update_of_ne hc.symm] using hall

theorem Scattered.push (h : Scattered inTurn ms c s)
    (hjobs : s.jobs = before ++ .stacking dbp result :: behind) :
    Scattered inTurn ms c ⟨s.logger.workerPush dbp, before ++ .writing result :: behind⟩ := by
  have hpending := pending_split (s := ⟨s.logger.workerPush dbp,
    before ++ .writing result :: behind⟩) rfl
  refine ⟨⟨h.curr, ?_, ?_, ?_, h.queue, h.file, h.short, h.pc, h.place⟩, ?_⟩
  · have hp := h.pool
    rw [pending_split hjobs] at hp
    rw [hpending]
    refine List.Perm.trans (List.Perm.cons c ?_) hp
    simp only [List.flatMap_append, List.flatMap_cons, Job.held, workerPush, List.append_assoc,
      List.singleton_append, List.nil_append]
    refine List.Perm.append_left _ ?_
    rw [← List.append_assoc]
    exact List.perm_middle
  · intro i hi
    obtain rfl | hi := List.mem_cons.mp hi
    · exact h.cleared i result (by simp [hjobs])
    · exact h.free i hi
  · intro d result' hd
    refine h.cleared d result' ?_
    rw [hjobs]
    simp only [List.mem_append, List.mem_cons, reduceCtorEq, false_or] at hd ⊢
    exact hd.imp_right .inr
  · obtain ⟨blocks, written, left, hcontent, hleft, hrest⟩ := h.spread
    refine ⟨blocks, written, left, hcontent, ?_, hrest⟩
    rw [pending_split hjobs] at hleft
    rw [hpending, hleft]
    simp [workerPush, Job.bytes]

/-- The block of a worker is written behind those that were written before. -/
theorem Scattered.write (h : Scattered inTurn ms c s)
    (hjobs : s.jobs = before ++ .writing result :: behind) (henv : env.badAfter = none)
    (hfirst : inTurn → before = []) :
    Scattered inTurn ms c ⟨s.logger.workerWrite result env, before ++ behind⟩ := by
  rw [workerWrite_good h.file henv]
  refine ⟨⟨h.curr, ?_, h.free, ?_, h.queue, h.file, h.short, h.pc, h.place⟩, ?_⟩
  · have hp := h.pool
    rw [pending_split hjobs] at hp
    simpa [pending, Job.held] using hp
  · intro d result' hd
    refine h.cleared d result' ?_
    rw [hjobs]
    simp only [List.mem_append, List.mem_cons, reduceCtorEq, false_or] at hd ⊢
    exact hd
  · obtain ⟨blocks, written, left, hcontent, hleft, hperm, hturn, hall⟩ := h.spread
    rw [pending_split hjobs, List.map_append, List.map_cons, List.map_eq_append_iff] at hleft
    obtain ⟨left₁, left₂, rfl, hleft₁, hleft₂⟩ := hleft
    obtain ⟨block, left₂, rfl, hblock, hleft₂⟩ := List.map_eq_cons_iff.mp hleft₂
    refine ⟨blocks, written ++ [block], left₁ ++ left₂, ?_, ?_, ?_, ?_, hall⟩
    · rw [hcontent, List.flatten_append, List.flatten_append]
      simp [hblock, Job.bytes]
    · simp [pending, hleft₁, hleft₂]
    · refine List.Perm.trans ?_ hperm
      rw [List.append_assoc, List.singleton_append]
      exact (List.perm_middle.symm).append_left written
    · intro ht
      obtain rfl := hfirst ht
      obtain rfl := List.map_eq_nil_iff.mp hleft₁
      rw [← hturn ht]
      simp

theorem Scattered.ioWorker (h : Scattered inTurn ms c s) (henv : env.badAfter = none)
    (hi : inTurn → i = 0) (hs : s.ioWorker i env = some s') : Scattered inTurn ms c s' := by
  unfold Posting.ioWorker at hs
  cases hjob : s.jobs[i]? with
  | none => simp [hjob] at hs
  | some job =>
    obtain ⟨before, behind, hjobs, hlen, hset, herase⟩ := jobs_split hjob
    cases job with
    | posted dbp =>
      simp only [hjob, workerCopy, hset] at hs
      cases hs
      exact h.copy hjobs
    | stacking dbp result =>
      simp only [hjob, hset] at hs
      cases hs
      exact h.push hjobs
    | writing result =>
      simp only [hjob, herase] at hs
      cases hs
      exact h.write hjobs henv fun ht => List.length_eq_zero_iff.mp (hlen.trans (hi ht))

-- ---------------------------------------------------------------------------
-- Runs
-- ---------------------------------------------------------------------------

theorem Scattered.enqueue (h : Scattered inTurn ms c s) (hdp : dp.length ≤ DataBuffer.maxDataSize) :
    Scattered inTurn (ms ++ [dp]) c
      { s with logger := { s.logger with queue := s.logger.queue ++ [dp] } } := by
  refine ⟨⟨h.curr, h.pool, h.free, h.cleared, h.queue, h.file, ?_, h.pc.enqueue, h.place⟩, ?_⟩
  · intro m hm
    obtain hm | hm := List.mem_append.mp hm
    · exact h.short m hm
    · rwa [List.mem_singleton.mp hm]
  · obtain ⟨blocks, written, left, hcontent, hleft, hperm, hturn, hall⟩ := h.spread
    refine ⟨blocks, written, left, hcontent, hleft, hperm, hturn, ?_⟩
    simp [← hall]

theorem Scattered.step (h : Scattered inTurn ms c s) (he : Quiet e) (ht : inTurn → InTurn e)
    (hs : s.step e = some s') : ∃ c', Scattered inTurn (ms ++ arrivals e) c' s' := by
  cases e with
  | enqueue dp =>
    cases hs
    exact ⟨c, h.enqueue he⟩
  | call =>
    rw [arrivals, List.append_nil]
    obtain ⟨l, hl, rfl⟩ := Option.map_eq_some_iff.mp hs
    simp only [MutelemetryLogger.step] at hl
    split at hl
    · rename_i hpc
      cases hl
      split
      · exact ⟨c, h.move (by rw [hpc]; rfl) rfl trivial trivial⟩
      · exact ⟨c, h⟩
    · cases hl
  | step env =>
    rw [arrivals, List.append_nil]
    exact h.mainLoop hs
  | worker i env =>
    rw [arrivals, List.append_nil]
    exact ⟨c, h.ioWorker he ht hs⟩

theorem scattered_of_run (inTurn : Prop) (hes : ∀ e ∈ es, Quiet e) (ht : inTurn → ∀ e ∈ es, InTurn e)
    (h : Transition.run step session es = some s) :
    ∃ c, Scattered inTurn (es.flatMap arrivals) c s := by
  have hg := Transition.Guarded.of_run (C := fun _ e => Quiet e ∧ (inTurn → InTurn e)) h
    fun e he _ => ⟨hes e he, fun hturn => ht hturn e he⟩
  have hstart : ∃ c, Scattered inTurn (([] : List Event).flatMap arrivals) c session :=
    ⟨0, scattered_session inTurn⟩
  exact hg.history (fun past s => ∃ c, Scattered inTurn (past.flatMap arrivals) c s)
    (fun ⟨c, hc⟩ he hs => by simpa using hc.step he.1 he.2 hs) hstart

def twoFlushes : List Event :=
  [.enqueue [1], .call] ++ List.replicate 4 (.step ⟨0, true, true, none⟩) ++
    List.replicate 2 (.step ⟨2000000000, true, true, none⟩) ++ [.enqueue [2], .call] ++
    List.replicate 4 (.step ⟨2000000000, true, true, none⟩) ++
    List.replicate 2 (.step ⟨4000000000, true, true, none⟩)

/-- The second worker overtakes the first. -/
def overtaking : List Event :=
  twoFlushes ++ List.replicate 3 (.worker 1 ⟨0, true, true, none⟩) ++
    List.replicate 2 (.worker 0 ⟨0, true, true, none⟩)

/-- Workers that are run in turn, as by one thread, keep the order too. -/
theorem posted_in_turn (hes : ∀ e ∈ es, Quiet e) (ht : ∀ e ∈ es, InTurn e)
    (h : Transition.run step session es = some s) : ∃ c, s.logger.currIdx = some c ∧
      s.logger.file.content ++ (s.pending.map (Job.bytes s.logger.memPool)).flatten ++
        (s.logger.memPool c).data ++ s.logger.queue.flatten = (es.flatMap arrivals).flatten := by
  obtain ⟨c, hc⟩ := scattered_of_run True hes (fun _ => ht) h
  obtain ⟨blocks, written, left, hcontent, hleft, -, hturn, hall⟩ := hc.spread
  refine ⟨c, hc.curr, ?_⟩
  rw [hcontent, ← hleft, ← hall, ← hturn trivial]
  simp [DataBuffer.data, List.flatten_flatten]

def oneThread : List Event :=
  twoFlushes ++ List.replicate 4 (.worker 0 ⟨0, true, true, none⟩)

theorem posted_in_turn_oneThread : ∃ s, Transition.run step session oneThread = some s ∧
    s.logger.file.content = [1] ∧ ∃ c, s.logger.currIdx = some c ∧
      s.logger.file.content ++ (s.pending.map (Job.bytes s.logger.memPool)).flatten ++
        (s.logger.memPool c).data ++ s.logger.queue.flatten =
          (oneThread.flatMap arrivals).flatten := by
  refine ⟨_, rfl, rfl, posted_in_turn ?_ ?_ rfl⟩
  · simp [oneThread, twoFlushes, Quiet, DataBuffer.maxDataSize]
  · simp [oneThread, twoFlushes, InTurn]

end

end Posting

end Mutelemetry.Logger
