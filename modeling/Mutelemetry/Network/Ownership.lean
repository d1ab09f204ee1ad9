import Mutelemetry.Network.Exchange

/-!
# Who commands the streamer

The address of the START that connects is kept in two 8-bit fields and compared
in 32 bits. `Courted` is what holds in INIT, where the STARTs are handled one at
a time; `Claimed` is what holds once one of them has connected.
-/

namespace Mutelemetry.Network

open ByteString Ulog StreamerState

def SparseAddress.Fits (c : SparseAddress) : Prop := c.groupId < 256 ∧ c.instanceId < 256

instance (c : SparseAddress) : Decidable c.Fits := inferInstanceAs (Decidable (_ ∧ _))

namespace MutelemetryStreamer

/-- The stored target is what the address leaves of itself. -/
def Stores (s : MutelemetryStreamer) (c : SparseAddress) : Prop :=
  s.targetSystem = c.groupId.toUInt8 ∧ s.targetComponent = c.instanceId.toUInt8

def Starts (s : MutelemetryStreamer) (i : Nat) : Prop :=
  ∃ call, s.commands[i]? = some call ∧ call.command = .loggingStart

/-- No START arrives in INIT while another one is handled. -/
def Serial (s : MutelemetryStreamer) : Event → Prop
  | .command .loggingStart _ _ => s.state = .init → ∀ i, ¬ s.Starts i
  | _ => True

inductive Calls (s : MutelemetryStreamer) : Event → MutelemetryStreamer → Prop
  | still : s'.commands = s.commands → s'.targetSystem = s.targetSystem →
    s'.targetComponent = s.targetComponent → Calls s e s'
  | arrive : Calls s (.command command sa confirmation) { s with
      commands := s.commands ++ [⟨command, sa, confirmation, s.state, none⟩] }
  | compare : s.commands[i]? = some call → call.newState = none → Verdict s call t newState →
    Calls s (.commandStep i) { t with
      commands := s.commands.set i { call with newState := some newState } }
  | answer : s.commands[i]? = some call → call.newState = some newState →
    s'.commands = s.commands.eraseIdx i → s'.targetSystem = s.targetSystem →
    s'.targetComponent = s.targetComponent → Calls s (.commandStep i) s'

variable {s s' : MutelemetryStreamer} {c sa : SparseAddress}

theorem toUInt32_toUInt8 {a : UInt32} (h : a < 256) : a.toUInt8.toUInt32 = a := by
  have hlt : a.toNat < 256 := h
  apply UInt32.toNat_inj.mp
  rw [UInt8.toNat_toUInt32, UInt32.toNat_toUInt8]
  omega

/-- A stored address that fits is recognized, and no other one is. -/
theorem Stores.isTarget_iff (h : s.Stores c) (hc : c.Fits) : s.isTarget sa = true ↔ sa = c := by
  obtain ⟨hsystem, hcomponent⟩ := h
  rw [isTarget, hsystem, hcomponent, toUInt32_toUInt8 hc.1, toUInt32_toUInt8 hc.2]
  cases sa
  cases c
  rw [Bool.and_eq_true, decide_eq_true_eq, decide_eq_true_eq, SparseAddress.mk.injEq]
  exact and_congr eq_comm eq_comm

theorem Stores.ne_zero (h : s.Stores c) (hc : c.Fits) (hg : c.groupId ≠ 0) (hi : c.instanceId ≠ 0) :
    s.targetSystem ≠ 0 ∧ s.targetComponent ≠ 0 := by
  constructor
  · intro hz
    rw [← toUInt32_toUInt8 hc.1, ← h.1, hz] at hg
    exact hg rfl
  · intro hz
    rw [← toUInt32_toUInt8 hc.2, ← h.2, hz] at hi
    exact hi rfl

-- ---------------------------------------------------------------------------
-- What a step does to the calls
-- ---------------------------------------------------------------------------

theorem calls_of_step (hs : s.step e = some s') : Calls s e s' := by
  have hexchange (old new : StreamerState) :
      (s.exchange old new).targetSystem = s.targetSystem ∧
        (s.exchange old new).targetComponent = s.targetComponent := by
    obtain ⟨_, _, h⟩ := s.exchange_frame old new
    rw [h]
    exact ⟨rfl, rfl⟩
  cases e with
  | enqueue dp =>
    cases hs
    exact .still rfl rfl rfl
  | sync =>
    cases syncLoop_step hs with
    | await | receive | resend =>
      exact .still (exchange_commands s _ _) (hexchange _ _).1 (hexchange _ _).2
    | finalSet =>
      obtain ⟨_, h⟩ := s.setState_frame _ .running
      rw [h]
      exact .still rfl rfl rfl
    | asleep | collect | begin | load | leave | send | refuse | next | rest | tick | unexpected
    | finalLoad | finalRun => exact .still rfl rfl rfl
  | discard => cases discardLoop_step hs <;> exact .still rfl rfl rfl
  | main => cases mainLoop_step hs <;> exact .still rfl rfl rfl
  | command command sa confirmation =>
    cases hs
    obtain ⟨-, h⟩ | ⟨-, h⟩ := s.protoCommandHandler_cases command sa confirmation
    · rw [h]
      exact .still rfl rfl rfl
    · rw [h]
      exact .arrive
  | commandStep i =>
    cases commandStep_step hs with
    | compare hcall hnew hv => exact .compare hcall hnew hv
    | refuse hcall hnew => exact .answer hcall hnew rfl rfl rfl
    | exchange hcall hnew =>
      exact .answer hcall hnew rfl (hexchange _ _).1 (hexchange _ _).2
  | loggingAck sa sequence =>
    cases hs
    obtain ⟨-, h⟩ | ⟨-, h⟩ := s.protoLoggingAckHandler_cases sa sequence
    · rw [h]
      exact .still rfl rfl rfl
    · rw [h]
      exact .still rfl rfl rfl
  | ackStep i =>
    cases ackStep_step hs with
    | agrees | differs => exact .still rfl rfl rfl
    | exchange => exact .still (exchange_commands s _ _) (hexchange _ _).1 (hexchange _ _).2

-- ---------------------------------------------------------------------------
-- In INIT
-- ---------------------------------------------------------------------------

/-- Nobody has connected, and at most one START is handled. -/
structure Courted (s : MutelemetryStreamer) : Prop where
  loaded : ∀ call ∈ s.commands, call.state = .init
  single : ∀ i j, s.Starts i → s.Starts j → i = j
  stored : ∀ (i : Nat) (call : CommandCall), s.commands[i]? = some call →
    call.newState = some .connected → call.command = .loggingStart ∧ s.Stores call.sa
  failed : .target ∉ s.failed

theorem courted_new (rt : Bool) : Courted (.new rt) where
  loaded := by simp [MutelemetryStreamer.new]
  single := by simp [Starts, MutelemetryStreamer.new]
  stored := by simp [MutelemetryStreamer.new]
  failed := by simp [MutelemetryStreamer.new]

theorem init_of_step (hp : Phase s) (hs : s.step e = some s') (hst : s'.state = .init) :
    s.state = .init := by
  cases hp.turns hs with
  | still heq => exact heq.symm.trans hst
  | sync _ hl => exact absurd hst hl.handshake.2.2
  | final _ hrun => cases hst.symm.trans hrun
  | command _ _ ho | ack _ _ ho => exact absurd hst ho.ne_init

theorem getElem?_concat_cases {l : List α} {i : Nat} (h : (l ++ [a])[i]? = some b) :
    l[i]? = some b ∨ i = l.length ∧ b = a := by
  obtain hlt | hge := Nat.lt_or_ge i l.length
  · rw [List.getElem?_append_left hlt] at h
    exact .inl h
  · rw [List.getElem?_append_right hge, List.getElem?_singleton] at h
    split at h
    · cases h
      exact .inr ⟨by omega, rfl⟩
    · cases h

theorem getElem?_set_cases {l : List α} {i j : Nat} (h : (l.set i a)[j]? = some b) :
    j = i ∧ b = a ∨ j ≠ i ∧ l[j]? = some b := by
  rw [List.getElem?_set] at h
  split at h
  · split at h
    · cases h
      exact .inl ⟨by omega, rfl⟩
    · cases h
  · exact .inr ⟨by omega, h⟩

theorem getElem?_eraseIdx_some {l : List α} {i j : Nat} (h : (l.eraseIdx i)[j]? = some a) :
    l[if j < i then j else j + 1]? = some a := by
  rw [List.getElem?_eraseIdx] at h
  split at h
  · rwa [if_pos (by assumption)]
  · rwa [if_neg (by assumption)]

theorem Courted.not_target (h : Courted s) (hp : Phase s) (hst : s.state = .init)
    (hs : s.step e = some s') : .target ∉ s'.failed := by
  intro hf
  obtain hf | hf := failed_step hs hf
  · exact h.failed hf
  · cases hf with
    | target hpc =>
      have hsync := hp.sync
      rw [hpc, hst] at hsync
      obtain hc | ho := hsync.2.1
      · cases hc
      · cases ho

theorem Courted.step (h : Courted s) (hp : Phase s) (hst : s.state = .init) (hc : s.Serial e)
    (hs : s.step e = some s') : Courted s' := by
  have hfailed := h.not_target hp hst hs
  cases calls_of_step hs with
  | still hcommands hsystem hcomponent =>
    refine ⟨by rw [hcommands]; exact h.loaded, ?_, ?_, hfailed⟩
    · unfold Starts
      rw [hcommands]
      exact h.single
    · unfold Stores
      rw [hcommands, hsystem, hcomponent]
      exact h.stored
  | @arrive command sa confirmation =>
    refine ⟨?_, ?_, ?_, hfailed⟩
    · intro call hmem
      obtain hmem | hmem := List.mem_append.mp hmem
      · exact h.loaded call hmem
      · rw [List.mem_singleton.mp hmem]
        exact hst
    · rintro i j ⟨ci, hi, hsi⟩ ⟨cj, hj, hsj⟩
      obtain hold | ⟨rfl, rfl⟩ := getElem?_concat_cases hi
      · obtain hold' | ⟨rfl, rfl⟩ := getElem?_concat_cases hj
        · exact h.single i j ⟨ci, hold, hsi⟩ ⟨cj, hold', hsj⟩
        · cases hsj
          exact absurd ⟨ci, hold, hsi⟩ (hc hst i)
      · obtain hold' | ⟨rfl, rfl⟩ := getElem?_concat_cases hj
        · cases hsi
          exact absurd ⟨cj, hold', hsj⟩ (hc hst j)
        · rfl
    · intro i call hi hnew
      obtain hi | ⟨-, rfl⟩ := getElem?_concat_cases hi
      · exact h.stored i call hi hnew
      · cases hnew
  | compare hcall hnew hv =>
    rename_i i call t newState
    have hstarts (j : Nat) (d : CommandCall) (hd : d.command = .loggingStart)
        (hj : (s.commands.set i { call with newState := some newState })[j]? = some d) :
        s.Starts j := by
      obtain ⟨rfl, rfl⟩ | ⟨-, hj⟩ := getElem?_set_cases hj
      · exact ⟨call, hcall, hd⟩
      · exact ⟨d, hj, hd⟩
    refine ⟨?_, ?_, ?_, hfailed⟩
    · intro d hd
      obtain hd | rfl := List.mem_or_eq_of_mem_set hd
      · exact h.loaded d hd
      · exact h.loaded call (List.mem_of_getElem? hcall)
    · rintro j k ⟨dj, hj, hsj⟩ ⟨dk, hk, hsk⟩
      exact h.single j k (hstarts j dj hsj hj) (hstarts k dk hsk hk)
    · intro j d hj hconn
      obtain ⟨rfl, rfl⟩ | ⟨hne, hother⟩ := getElem?_set_cases hj
      · cases hconn
        cases hv with
        | connect hcommand => exact ⟨hcommand, rfl, rfl⟩
      · have hd := h.stored j d hother hconn
        cases hv with
        | connect hcommand =>
          -- the START that was stored would be a second one
          exact absurd (h.single j i ⟨d, hother, hd.1⟩ ⟨call, hcall, hcommand⟩) hne
        | resume | halt | refuse => exact hd
  | answer hcall hnew hcommands hsystem hcomponent =>
    refine ⟨?_, ?_, ?_, hfailed⟩
    · rw [hcommands]
      exact fun d hd => h.loaded d (List.mem_of_mem_eraseIdx hd)
    · unfold Starts
      rw [hcommands]
      rintro j k ⟨cj, hj, hsj⟩ ⟨ck, hk, hsk⟩
      have heq := h.single _ _ ⟨cj, getElem?_eraseIdx_some hj, hsj⟩
        ⟨ck, getElem?_eraseIdx_some hk, hsk⟩
      split at heq <;> split at heq <;> omega
    · unfold Stores
      rw [hcommands, hsystem, hcomponent]
      exact fun j d hj => h.stored _ d (getElem?_eraseIdx_some hj)

-- ---------------------------------------------------------------------------
-- Once connected
-- ---------------------------------------------------------------------------

/-- The START of `c` has connected: no handler will store another target, and
RUNNING and STOPPED are asked for by `c` only. -/
structure Claimed (c : SparseAddress) (s : MutelemetryStreamer) : Prop where
  left : s.state ≠ .init
  stores : s.Stores c
  settled : ∀ call ∈ s.commands, call.command = .loggingStart → call.state = .init →
    call.newState ≠ none
  asked : ∀ call ∈ s.commands, ∀ newState, call.newState = some newState → newState.Live →
    call.sa = c
  failed : c.groupId ≠ 0 → c.instanceId ≠ 0 → .target ∉ s.failed

theorem Claimed.step (h : Claimed c s) (hp : Phase s) (hc : c.Fits) (hs : s.step e = some s') :
    Claimed c s' := by
  have hleft : s'.state ≠ .init := fun hst => h.left (init_of_step hp hs hst)
  have hfailed : c.groupId ≠ 0 → c.instanceId ≠ 0 → .target ∉ s'.failed := by
    intro hg hi hf
    obtain hf | hf := failed_step hs hf
    · exact h.failed hg hi hf
    · obtain ⟨hsystem, hcomponent⟩ := h.stores.ne_zero hc hg hi
      cases hf with
      | target _ hz => exact hz.elim hsystem hcomponent
  cases calls_of_step hs with
  | still hcommands hsystem hcomponent =>
    refine ⟨hleft, ?_, hcommands ▸ h.settled, hcommands ▸ h.asked, hfailed⟩
    exact ⟨hsystem.trans h.stores.1, hcomponent.trans h.stores.2⟩
  | arrive =>
    refine ⟨hleft, h.stores, ?_, ?_, hfailed⟩
    · intro call hmem _ hst
      obtain hmem | hmem := List.mem_append.mp hmem
      · exact h.settled call hmem ‹_› hst
      · rw [List.mem_singleton.mp hmem] at hst
        exact absurd hst h.left
    · intro call hmem newState hnew
      obtain hmem | hmem := List.mem_append.mp hmem
      · exact h.asked call hmem newState hnew
      · rw [List.mem_singleton.mp hmem] at hnew
        cases hnew
  | compare hcall hnew hv =>
    rename_i i call t newState
    have hmem := List.mem_of_getElem? hcall
    have hstores : Stores t c := by
      cases hv with
      | connect hcommand hst => exact absurd hnew (h.settled call hmem hcommand hst)
      | resume | halt | refuse => exact h.stores
    refine ⟨hleft, hstores, ?_, ?_, hfailed⟩
    · intro d hd hcommand hst
      obtain hd | rfl := List.mem_or_eq_of_mem_set hd
      · exact h.settled d hd hcommand hst
      · simp
    · intro d hd asked hasked hlive
      obtain hd | rfl := List.mem_or_eq_of_mem_set hd
      · exact h.asked d hd asked hasked hlive
      · cases hasked
        cases hv with
        | connect | refuse => exact hlive.elim
        | resume _ _ htarget | halt _ _ htarget => exact (h.stores.isTarget_iff hc).mp htarget
  | answer hcall hnew hcommands hsystem hcomponent =>
    refine ⟨hleft, ⟨hsystem.trans h.stores.1, hcomponent.trans h.stores.2⟩, ?_, ?_, hfailed⟩
    · rw [hcommands]
      exact fun d hd => h.settled d (List.mem_of_mem_eraseIdx hd)
    · rw [hcommands]
      exact fun d hd => h.asked d (List.mem_of_mem_eraseIdx hd)

theorem getElem?_eraseIdx_ne (i j : Nat) : (if j < i then j else j + 1) ≠ i := by
  split <;> omega

/-- The exchange of a START makes its sender the owner. -/
theorem Courted.connect (h : Courted s) (hp : Phase s) (hst : s.state = .init)
    (hcall : s.commands[i]? = some call) (hs : s.step (.commandStep i) = some s')
    (hconn : s'.state = .connected) : Claimed call.sa s' := by
  have hmem := List.mem_of_getElem? hcall
  have hload := h.loaded call hmem
  cases commandStep_step hs with
  | compare hcall' _ hv =>
    cases hv <;> cases hst.symm.trans hconn
  | refuse => cases hst.symm.trans hconn
  | exchange hcall' hnew hu =>
    cases hcall.symm.trans hcall'
    rw [exchange_eq (hst.trans hload.symm)] at hconn ⊢
    cases hconn
    obtain ⟨hcommand, hstores⟩ := h.stored i call hcall hnew
    refine ⟨nofun, hstores, ?_, ?_, fun _ _ => h.failed⟩
    · intro d hd hstart _ _
      obtain ⟨j, hj⟩ := List.mem_iff_getElem?.mp hd
      have hne := getElem?_eraseIdx_ne i j
      exact hne (h.single _ i ⟨d, getElem?_eraseIdx_some hj, hstart⟩ ⟨call, hcall, hcommand⟩)
    · intro d hd newState hasked hlive
      have hd := List.mem_of_mem_eraseIdx hd
      obtain rfl | ⟨ho, -⟩ := hp.commands d hd newState hasked
      · exact hlive.elim
      · rw [h.loaded d hd] at ho
        cases ho
        exact hlive.elim

-- ---------------------------------------------------------------------------
-- Runs
-- ---------------------------------------------------------------------------

def Toggles (s s' : MutelemetryStreamer) : Prop :=
  s.state = .running ∧ s'.state = .stopped ∨ s.state = .stopped ∧ s'.state = .running

/-- A command of `c` that is received in `old` is answered with `answer`, whenever
its handler gets to it; and takes effect when nothing comes in between. -/
structure Accepts (s : MutelemetryStreamer) (c : SparseAddress) (command : Command)
    (old answer : StreamerState) : Prop where
  answers : ∀ (i : Nat) (call : CommandCall) s', s.commands[i]? = some call →
    call.command = command → call.sa = c → call.state = old → call.newState = none →
    s.step (.commandStep i) = some s' →
    s'.commands[i]? = some { call with newState := some answer }
  takes : s.state = old → ∀ confirmation, ∃ s', Transition.run step s
    [.command command c confirmation, .commandStep s.commands.length,
      .commandStep s.commands.length] = some s' ∧ s'.state = answer

/-- RUNNING and STOPPED follow the commands of `c`, and of no one else. -/
structure ObeysOnly (s : MutelemetryStreamer) (c : SparseAddress) : Prop where
  toggles : ∀ e s', s.step e = some s' → s.Toggles s' →
    ∃ i call, e = .commandStep i ∧ s.commands[i]? = some call ∧ call.sa = c
  stop : s.Accepts c .loggingStop .running .stopped
  start : s.Accepts c .loggingStart .stopped .running
  target : c.groupId ≠ 0 → c.instanceId ≠ 0 → .target ∉ s.failed

theorem Toggles.live (h : s.Toggles s') : s.state.Live ∧ s'.state.Live ∧ s'.state ≠ s.state := by
  obtain ⟨h, h'⟩ | ⟨h, h'⟩ := h
  · rw [h, h']
    exact ⟨trivial, trivial, by decide⟩
  · rw [h, h']
    exact ⟨trivial, trivial, by decide⟩

theorem live_sync (hp : Phase s) (hl : s.state.Live) : s.sync = .finalRun ∨ s.sync = .exited := by
  have hnot := hl.not_handshake
  have hsync := hp.sync
  cases hpc : s.sync with
  | finalRun => exact .inl rfl
  | exited => exact .inr rfl
  | loop | loaded | sent | timeout | received =>
    exact absurd (hsync.handshake (by rw [hpc]; trivial)) hnot
  | collect =>
    rw [hpc] at hsync
    exact absurd (hsync.1.handshake trivial) hnot
  | finalLoad =>
    rw [hpc] at hsync
    obtain hst | ⟨-, hst | hst⟩ := hsync
    all_goals exact (hst ▸ hl).elim
  | finalSet st =>
    rw [hpc] at hsync
    obtain ⟨hst, ha⟩ := hsync
    obtain rfl | ⟨-, rfl | rfl⟩ := hst
    all_goals exact absurd (ha.handshake trivial) hnot

theorem Claimed.toggles (h : Claimed c s) (hp : Phase s) (hs : s.step e = some s')
    (ht : s.Toggles s') : ∃ i call, e = .commandStep i ∧ s.commands[i]? = some call ∧ call.sa = c := by
  obtain ⟨hl, hl', hne⟩ := ht.live
  cases hp.turns hs with
  | still heq => exact absurd heq hne
  | sync _ hsync => exact absurd hsync.handshake.2.1 hl'.not_handshake
  | final hpc =>
    obtain hpc' | hpc' := live_sync hp hl
    · cases hpc.symm.trans hpc'
    · cases hpc.symm.trans hpc'
  | @command i call _ hcall hnew =>
    exact ⟨i, call, rfl, hcall, h.asked call (List.mem_of_getElem? hcall) _ hnew hl'⟩
  | ack _ _ _ hst =>
    rw [hst] at hl
    exact hl.elim

/-- A command is accepted that every state with this target accepts. -/
theorem accepts_of_compare (hother : command ≠ .other) (hu : answer ≠ .unknown)
    (hv : ∀ (t : MutelemetryStreamer) confirmation, t.targetSystem = s.targetSystem →
      t.targetComponent = s.targetComponent →
      t.compareCommand ⟨command, c, confirmation, old, none⟩ = (t, answer)) :
    s.Accepts c command old answer where
  answers := by
    rintro i ⟨_, _, confirmation, _, _⟩ s' hcall rfl rfl rfl rfl hs
    obtain ⟨t, ht, -, hanswer⟩ := commandStep_compare hcall rfl
    cases ht.symm.trans hs
    rw [hanswer, hv s confirmation rfl rfl]
  takes := by
    rintro rfl confirmation
    let call : CommandCall := ⟨command, c, confirmation, s.state, none⟩
    let s₁ : MutelemetryStreamer := { s with commands := s.commands ++ [call] }
    have h₁ : s.step (.command command c confirmation) = some s₁ := by
      simp [MutelemetryStreamer.step, protoCommandHandler, hother, s₁, call]
    have hcall : s₁.commands[s.commands.length]? = some call := by simp [s₁]
    obtain ⟨s₂, h₂, hst, hanswer⟩ := commandStep_compare hcall rfl
    rw [hv s₁ confirmation rfl rfl] at hanswer
    have h₃ : s₂.step (.commandStep s.commands.length) = some { s₂ with
        state := answer
        commands := s₂.commands.eraseIdx s.commands.length
        wire := if confirmation then s₂.wire ++ [.commandAck command true c] else s₂.wire } := by
      have hex : s₂.exchange s.state answer = { s₂ with state := answer } := exchange_eq hst answer
      simp [MutelemetryStreamer.step, commandStep, hanswer, hu, hex, call]
    exact ⟨_, Transition.run_cons.mpr ⟨_, h₁, Transition.run_cons.mpr ⟨_, h₂,
      Transition.run_cons.mpr ⟨_, h₃, rfl⟩⟩⟩, rfl⟩

/-- The run behind the START of `c` that took INIT to CONNECTED, when the ids of
`c` fit and no two STARTs were handled at once in INIT. -/
theorem owner_commands (has : Transition.Guarded step Serial (.new rt) as s₀)
    (hst : s₀.state = .init) (hcall : s₀.commands[i]? = some call)
    (hs : s₀.step (.commandStep i) = some s₁) (hconn : s₁.state = .connected)
    (hc : call.sa.Fits) (hbs : Transition.run step s₁ bs = some s) : s.ObeysOnly call.sa := by
  have hinit := has.invariant (fun m => Phase m ∧ (m.state = .init → Courted m))
    (fun ⟨hp, hcourt⟩ hg hs => ⟨hp.step hs, fun hst =>
      have hst := init_of_step hp hs hst
      (hcourt hst).step hp hst hg hs⟩) ⟨phase_new rt, fun _ => courted_new rt⟩
  have hclaim := (hinit.2 hst).connect hinit.1 hst hcall hs hconn
  obtain ⟨hp, h⟩ := Transition.run_invariant (fun m => Phase m ∧ Claimed call.sa m)
    (fun ⟨hp, h⟩ hs => ⟨hp.step hs, h.step hp hc hs⟩) hbs ⟨hinit.1.step hs, hclaim⟩
  have htarget (t : MutelemetryStreamer) (hsystem : t.targetSystem = s.targetSystem)
      (hcomponent : t.targetComponent = s.targetComponent) : t.isTarget call.sa = true :=
    (Stores.isTarget_iff ⟨hsystem.trans h.stores.1, hcomponent.trans h.stores.2⟩ hc).mpr rfl
  refine ⟨fun e s' => h.toggles hp, ?_, ?_, h.failed⟩
  · refine accepts_of_compare (by decide) (by decide) fun t _ hsystem hcomponent => ?_
    simp [compareCommand, htarget t hsystem hcomponent]
  · refine accepts_of_compare (by decide) (by decide) fun t _ hsystem hcomponent => ?_
    simp [compareCommand, htarget t hsystem hcomponent]

def courting (sa : SparseAddress) : List Event :=
  [.enqueue (fileHeader 0), .enqueue [2, 0, 65, 0, 0], .sync, .sync,
    .command .loggingStart sa false, .commandStep 0]

def handshake (sa : SparseAddress) : List Event :=
  [.sync, .sync, .sync, .loggingAck sa 0, .ackStep 0, .ackStep 0, .sync, .sync, .sync, .sync,
    .sync, .sync, .sync]

theorem owner_commands_oneClient : ∃ s₀ s₁ s,
    Transition.run step (.new false) (courting ⟨1, 1⟩) = some s₀ ∧
    s₀.step (.commandStep 0) = some s₁ ∧
    Transition.run step s₁ (handshake ⟨1, 1⟩) = some s ∧ s.state = .running ∧ s.ObeysOnly ⟨1, 1⟩ := by
  refine ⟨_, _, _, by rfl, by rfl, by rfl, by rfl, ?_⟩
  have hserial : Transition.Guarded step Serial (.new false) (courting ⟨1, 1⟩) _ :=
    .cons trivial rfl (.cons trivial rfl (.cons trivial rfl (.cons trivial rfl
      (.cons (fun _ _ => by simp [Starts, MutelemetryStreamer.new]) rfl
        (.cons trivial rfl .nil)))))
  exact owner_commands hserial (i := 0) (by rfl) (by rfl) (by rfl) (by rfl) (by decide)
    (show Transition.run step _ (handshake ⟨1, 1⟩) = some _ by rfl)

/-- A client with 32-bit ids cannot stop what it started. -/
theorem wide_client_refused : ¬ ∀ rt as s₀ (i : Nat) call s₁ bs s,
    Transition.run step (.new rt) as = some s₀ → s₀.state = .init → s₀.commands[i]? = some call →
    s₀.step (.commandStep i) = some s₁ → s₁.state = .connected →
    Transition.run step s₁ bs = some s → s.ObeysOnly call.sa := by
  intro h
  have hbad := h false (courting ⟨257, 257⟩) _ 0 _ _ (handshake ⟨257, 257⟩) _
    (by rfl) (by rfl) (by rfl) (by rfl) (by rfl) (by rfl)
  obtain ⟨s', hrun, hst⟩ := hbad.stop.takes rfl false
  cases hrun
  cases hst

end MutelemetryStreamer

end Mutelemetry.Network
