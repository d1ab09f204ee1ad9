import Mutelemetry.Network.Phase

/-!
# Draining the queue

`main_loop` loads `state_` once and then sends or skips what it dequeues by the
value it loaded, however long it drains. What becomes of a record is compared
with `state_` at its dequeue.
-/

namespace Mutelemetry.Network

open ByteString Ulog StreamerState

theorem StreamerState.Live.cases (h : Live state) : state = .running ∨ state = .stopped := by
  cases state with
  | running => exact .inl rfl
  | stopped => exact .inr rfl
  | init | connected | sendDef | resendDef | ackRecv | ackWait | unknown => exact h.elim

namespace MutelemetryStreamer

inductive GoesBy : MainPc → StreamerState → Prop
  | draining : GoesBy (.draining st) st
  | dequeue : GoesBy (.dequeue st) st
  | dequeued : GoesBy (.dequeued st dp) st

/-- It was RUNNING or STOPPED; or there are no definitions, and a START that
came late has left CONNECTED for ever. -/
def Loaded (s : MutelemetryStreamer) : Prop :=
  ∀ st, GoesBy s.main st → st.Live ∧ s.state.Live ∨ st = .connected ∧ s.state = .connected

def Skips (s s' : MutelemetryStreamer) : Prop :=
  s'.skipCntr = s.skipCntr + 1 ∧ s'.sendCntr = s.sendCntr ∧ s'.wire = s.wire

def Sends (s s' : MutelemetryStreamer) (dp : Bytes) : Prop :=
  s'.sendCntr = s.sendCntr + 1 ∧ s'.skipCntr = s.skipCntr ∧
    s'.wire = s.wire ++ [.loggingData s.targetSystem s.targetComponent dp]

variable {s s' : MutelemetryStreamer} {e : Event}

theorem main_step (hs : s.step e = some s') (he : e ≠ .main) : s'.main = s.main := by
  cases e with
  | main => exact absurd rfl he
  | enqueue dp =>
    cases hs
    rfl
  | sync => exact (syncLoop_step hs).main
  | discard => cases discardLoop_step hs <;> rfl
  | command | commandStep | loggingAck | ackStep =>
    obtain ⟨_, _, _, _, _, _, _, rfl⟩ := handler_frame hs trivial
    rfl

theorem Loaded.mainStep (h : Loaded s) (hp : Phase s) (hs : s.MainStep s') : Loaded s' := by
  intro st hg
  cases hs with
  | notRunning => exact h st hg
  | enter => cases hg
  | load _ hst =>
    cases hg
    have hlive : s.state.Live := by
      obtain hst | hst := hst
      · rw [hst]
        trivial
      · rw [hst]
        trivial
    exact .inl ⟨hlive, hlive⟩
  | loadLost hm hrun hstop =>
    cases hg
    have hsync := hp.sync
    rw [hp.running (hp.main (by simp [hm]))] at hsync
    obtain hl | ⟨-, hst⟩ := hsync
    · exact .inl ⟨hl, hl⟩
    · exact .inr ⟨hst, hst⟩
  | done => cases hg
  | more hm =>
    cases hg
    exact h _ (hm ▸ .draining)
  | dequeue hm =>
    cases hg
    exact h _ (hm ▸ .dequeue)
  | skip hm | send hm =>
    cases hg
    exact h _ (hm ▸ .dequeued)

theorem Loaded.step (h : Loaded s) (hp : Phase s) (hs : s.step e = some s') : Loaded s' := by
  by_cases he : e = .main
  · subst he
    exact h.mainStep hp (mainLoop_step hs)
  · intro st hg
    rw [main_step hs he] at hg
    have hm : s.main ≠ .idle := by
      intro hm
      rw [hm] at hg
      cases hg
    have hstate := hp.exited (hp.running (hp.main hm)) hs
    obtain ⟨hst, hl⟩ | ⟨hst, hc⟩ := h st hg
    · obtain heq | ho := hstate
      · exact .inl ⟨hst, heq ▸ hl⟩
      · exact .inl ⟨hst, ho.live hl⟩
    · obtain heq | ho := hstate
      · exact .inr ⟨hst, heq.trans hc⟩
      · rw [hc] at ho
        cases ho

theorem loaded_of_run (h : Transition.run step (.new rt) es = some s) : Loaded s :=
  (Transition.run_invariant (fun m => Phase m ∧ Loaded m)
    (fun ⟨hp, hl⟩ hs => ⟨hp.step hs, hl.step hp hs⟩) h ⟨phase_new rt, nofun⟩).2

theorem main_run (h : Transition.run step s es = some s') (he : .main ∉ es) : s'.main = s.main := by
  induction es generalizing s with
  | nil =>
    cases h
    rfl
  | cons e es ih =>
    obtain ⟨m, hs, h⟩ := Transition.run_cons.mp h
    rw [List.mem_cons, not_or] at he
    rw [ih h he.2, main_step hs (Ne.symm he.1)]

/-- What becomes of a record, by the value that `main_loop` goes by. -/
theorem bookkeeping (hm : s.main = .dequeued st dp) (hs : s.step .main = some s') :
    (st = .stopped ∨ fieldDataLen < dp.length) ∧ Skips s s' ∨
    (st ≠ .stopped ∧ dp.length ≤ fieldDataLen) ∧ Sends s s' dp := by
  cases mainLoop_step hs with
  | skip hm' hst =>
    cases hm.symm.trans hm'
    exact .inl ⟨hst, rfl, rfl, rfl⟩
  | send hm' hst hlen =>
    cases hm.symm.trans hm'
    exact .inr ⟨⟨hst, hlen⟩, rfl, rfl, rfl⟩
  | notRunning hm' | enter hm' | load hm' | loadLost hm' | done hm' | more hm' | dequeue hm' =>
    cases hm.symm.trans hm'

theorem not_skips_of_sends (h : Sends s s' dp) : ¬ Skips s s' := by
  intro hk
  have hsend := h.1
  rw [hk.2.1] at hsend
  omega

/-- In every run, for every record `main_loop` dequeues and every interleaving
up to its bookkeeping: the record is treated as `state_` says at the dequeue if
and only if that is the value loaded by the call, or the record is too long. -/
theorem dequeue_obeys_iff (h₁ : Transition.run step (.new rt) es₁ = some s₁)
    (hm : s₁.main = .dequeue st) (hq : s₁.dataQueue = dp :: rest)
    (h₂ : Transition.run step s₁ (.main :: es₂) = some s₂) (hes : .main ∉ es₂)
    (h₃ : s₂.step .main = some s₃) :
    ((s₁.state = .stopped → Skips s₂ s₃) ∧
      (s₁.state = .running → dp.length ≤ fieldDataLen → Sends s₂ s₃ dp)) ↔
    s₁.state = st ∨ fieldDataLen < dp.length := by
  obtain ⟨m, hdeq, h₂⟩ := Transition.run_cons.mp h₂
  have hheld : s₂.main = .dequeued st dp := by
    rw [main_run h₂ hes]
    cases mainLoop_step hdeq with
    | dequeue hm' hq' =>
      cases hm.symm.trans hm'
      cases hq.symm.trans hq'
      rfl
    | notRunning hm' | enter hm' | load hm' | loadLost hm' | done hm' | more hm' | skip hm'
    | send hm' => cases hm.symm.trans hm'
  have hloaded := loaded_of_run h₁ st (hm ▸ .dequeue)
  obtain ⟨hwhy, hskip⟩ | ⟨⟨hst, hlen⟩, hsend⟩ := bookkeeping hheld h₃
  · constructor
    · rintro ⟨-, hrun⟩
      refine Nat.lt_or_ge fieldDataLen dp.length |>.symm.imp (fun hlen => ?_) id
      obtain rfl : st = .stopped := hwhy.resolve_right (by omega)
      obtain ⟨-, hl⟩ | ⟨hc, -⟩ := hloaded
      · obtain hr | hs := hl.cases
        · exact absurd hskip (not_skips_of_sends (hrun hr hlen))
        · exact hs
      · cases hc
    · intro hcond
      refine ⟨fun _ => hskip, fun hr hlen => ?_⟩
      obtain rfl := hcond.resolve_right (by omega)
      have hs := hwhy.resolve_right (by omega)
      cases hr.symm.trans hs
  · constructor
    · rintro ⟨hstop, -⟩
      refine .inl ?_
      obtain ⟨hl, hl'⟩ | ⟨hc, hc'⟩ := hloaded
      · obtain hs | hs := hl'.cases
        · rw [hs, hl.cases.resolve_right hst]
        · exact absurd (hstop hs) (not_skips_of_sends hsend)
      · rw [hc, hc']
    · intro hcond
      obtain rfl := hcond.resolve_right (by omega)
      exact ⟨fun hs => absurd hs hst, fun _ _ => hsend⟩

def oneDequeue : List Event :=
  oneDefinition ++ [.sync, .sync, .main, .main, .main]

theorem dequeue_obeys_iff_oneDequeue : ∃ s₁ s₂ s₃,
    Transition.run step (.new false) oneDequeue = some s₁ ∧ s₁.state = .running ∧
    Transition.run step s₁ [.main, .enqueue []] = some s₂ ∧ s₂.step .main = some s₃ ∧
    Sends s₂ s₃ [2, 0, 65, 0, 0] := by
  have hes : .main ∉ [Event.enqueue []] := by decide
  refine ⟨_, _, _, by rfl, by rfl, by rfl, by rfl, ?_⟩
  have hiff := dequeue_obeys_iff (show Transition.run step (.new false) oneDequeue = some _ by rfl)
    (by rfl) (by rfl) (by rfl) hes (by rfl)
  exact (hiff.mpr (.inl (by rfl))).2 (by rfl) (by decide)

/-- A STOP that is accepted between the load and the dequeue. -/
theorem stop_behind_load : ¬ ∀ rt es₁ s₁ st dp rest es₂ s₂ s₃,
    Transition.run step (.new rt) es₁ = some s₁ → s₁.main = .dequeue st →
    s₁.dataQueue = dp :: rest → Transition.run step s₁ (.main :: es₂) = some s₂ → .main ∉ es₂ →
    s₂.step .main = some s₃ → (s₁.state = .stopped → Skips s₂ s₃) ∧
      (s₁.state = .running → dp.length ≤ fieldDataLen → Sends s₂ s₃ dp) := by
  intro h
  have hbad := h false (oneDequeue ++ [.command .loggingStop ⟨1, 1⟩ false, .commandStep 0,
    .commandStep 0]) _ .running [2, 0, 65, 0, 0] [] [] _ _ rfl rfl rfl rfl (by decide) rfl
  exact absurd (hbad.1 rfl).1 (by decide)

end MutelemetryStreamer

end Mutelemetry.Network
