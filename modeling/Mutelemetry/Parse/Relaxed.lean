import Mutelemetry.Lib.Transition
import Mutelemetry.Parse.Build

/-!
# The relaxed state machine

With `RELAXED_STATE_MACHINE` a message that the strict parser does not take is
passed over. The relaxed parser on a stream is the strict one on what is left of
it without these messages; only unknown flags still make it invalid.
-/

namespace Mutelemetry.Parse

open ByteString Lockstep Stateful Ulog

namespace Build

def strict (keepData : Bool) : Build := ⟨false, keepData⟩

def relaxed (keepData : Bool) : Build := ⟨true, keepData⟩

def accept (b : Build) (p : MutelemetryParser) (m : Bytes × Nat) : Option MutelemetryParser :=
  match (b.parse m.1 m.2).run p with
  | .ok true p' => some p'
  | _ => none

theorem accept_eq_some {b : Build} :
    b.accept p m = some p' ↔ (b.parse m.1 m.2).run p = .ok true p' := by
  unfold accept
  split
  · rename_i h
    simp [h]
  · rename_i h
    simp only [reduceCtorEq, false_iff]
    exact h p'

end Build

open Build (strict relaxed)

-- ---------------------------------------------------------------------------
-- One message
-- ---------------------------------------------------------------------------

def Live (p q : MutelemetryParser) : Prop := p = q ∧ p.state ≠ .invalid

def Taken (s t : ParseState) : Prop := s = t ∧ s ≠ .invalid

inductive Eases (p : MutelemetryParser) : EStateM.Result Fault MutelemetryParser ParseState →
    EStateM.Result Fault MutelemetryParser ParseState → Prop
  | taken : s ≠ .invalid → Eases p (.ok s q) (.ok s q)
  | fault : Eases p (.error f q) (.error f q)
  | passed : Eases p (.ok .invalid p) (.ok p.state p)

theorem eases_of_agree (h : Agree Live Taken x y) (hp : p.state ≠ .invalid) :
    Eases p (x.run p) (y.run p) := by
  have hxy := h p p ⟨rfl, hp⟩
  generalize x.run p = r at hxy ⊢
  generalize y.run p = r' at hxy ⊢
  cases hxy with
  | ok hs hq =>
    rw [← hs.1, ← hq.1]
    exact .taken hs.2
  | error hq =>
    rw [← hq.1]
    exact .fault

theorem lift_live (x : Except Fault α) : Agree Live Eq (lift x) (lift x) := by
  cases x with
  | ok a => exact agree_pure rfl
  | error fault => exact agree_throw fault

theorem modify_live {f : MutelemetryParser → MutelemetryParser} (h : ∀ p, (f p).state = p.state) :
    Agree Live Eq (modify f : ParseM PUnit) (modify f) := by
  refine agree_modify ?_
  rintro p _ ⟨rfl, hp⟩
  exact ⟨rfl, by rwa [h]⟩

theorem get_state_live : Agree Live Taken (do return (← get).state : ParseM ParseState)
    (do return (← get).state) := by
  refine agree_bind agree_get ?_
  rintro p _ ⟨rfl, hp⟩
  exact agree_pure ⟨rfl, hp⟩

theorem parseInfo_live (buffer : Bytes) (message : Nat) (msgSize : UInt16) : Agree Live Taken
    (parseInfo buffer message msgSize) (parseInfo buffer message msgSize) := by
  refine agree_bind (lift_live _) ?_
  rintro ⟨key, value⟩ _ rfl
  exact agree_bind (modify_live fun _ => rfl) fun _ _ _ => get_state_live

theorem parseAdd_live (buffer : Bytes) (message : Nat) (msgSize : UInt16) : Agree Live Taken
    (parseAdd buffer message msgSize) (parseAdd buffer message msgSize) := by
  refine agree_bind agree_get ?_
  rintro p _ ⟨rfl, -⟩
  refine agree_bind (lift_live _) ?_
  rintro sub _ rfl
  exact agree_bind (modify_live fun _ => rfl) fun _ _ _ => agree_pure ⟨rfl, nofun⟩

theorem insertSeries_live (name : Bytes) (timeseries : Timeseries) :
    Agree Live Eq (insertSeries name timeseries) (insertSeries name timeseries) :=
  modify_live fun p => by split <;> rfl

theorem dataBehind_live (buffer : Bytes) (hdr : Nat) :
    Agree Live Eq (dataBehind buffer hdr) (dataBehind buffer hdr) := by
  unfold dataBehind
  cases headerType buffer hdr with
  | ok type => exact agree_pure rfl
  | error fault => exact agree_bind (modify_live fun _ => rfl) fun _ _ _ => agree_pure rfl

theorem parseRemove_live (buffer : Bytes) (message : Nat) :
    Agree Live Taken (parseRemove buffer message) (parseRemove buffer message) := by
  refine agree_bind (lift_live _) ?_
  rintro msgId _ rfl
  exact agree_bind (modify_live fun _ => rfl) fun _ _ _ => agree_pure ⟨rfl, nofun⟩

section
variable (k : Bool)

theorem parseDataIntl_relaxed (formats : Formats) (buffer : Bytes) (depth : Nat) (format : Format) :
    (relaxed k).parseDataIntl formats buffer depth format =
      (strict k).parseDataIntl formats buffer depth format := by
  induction depth generalizing format with
  | zero => rfl
  | succ depth ih =>
    simp only [Build.parseDataIntl, ih]
    rfl

theorem parseData_relaxed (buffer : Bytes) (message : Nat) :
    (relaxed k).parseData buffer message = (strict k).parseData buffer message := by
  simp only [Build.parseData, parseDataIntl_relaxed]
  rfl

theorem parseData_live (buffer : Bytes) (message : Nat) : Agree Live Taken
    ((strict k).parseData buffer message) ((relaxed k).parseData buffer message) := by
  rw [parseData_relaxed]
  refine agree_bind (lift_live _) ?_
  rintro msgId _ rfl
  refine agree_bind agree_get ?_
  rintro p _ ⟨rfl, -⟩
  dsimp only
  cases p.subscriptions.lookup msgId with
  | none => exact agree_pure ⟨rfl, nofun⟩
  | some sub =>
    dsimp only
    refine agree_bind (lift_live _) ?_
    rintro timeseries _ rfl
    refine agree_bind (insertSeries_live _ timeseries) fun _ _ _ => ?_
    refine agree_bind (lift_live _) ?_
    rintro tval _ rfl
    refine agree_bind (lift_live _) ?_
    rintro format _ rfl
    generalize EStateM.run _ _ = r
    cases r with
    | error fault c => exact agree_bind (modify_live fun _ => rfl) fun _ _ _ => agree_throw _
    | ok _ c =>
      refine agree_bind (modify_live fun _ => rfl) fun _ _ _ => ?_
      refine agree_bind (lift_live _) ?_
      rintro data _ rfl
      exact agree_bind (modify_live fun _ => rfl) fun _ _ _ => agree_pure ⟨rfl, nofun⟩

theorem parseAddData_live (buffer : Bytes) (pos : Nat) : Agree Live Taken
    ((strict k).parseAddData buffer pos) ((relaxed k).parseAddData buffer pos) := by
  refine agree_bind (lift_live _) ?_
  rintro size _ rfl
  refine agree_bind (parseAdd_live _ _ _) fun nextState _ hs => ?_
  refine agree_bind (dataBehind_live _ _) ?_
  rintro behind _ rfl
  split
  · exact parseData_live k _ _
  · exact agree_pure hs

theorem parseLogged_live (buffer : Bytes) (message : Nat) (msgSize : UInt16) : Agree Live Taken
    ((strict k).parseLogged buffer message msgSize)
    ((relaxed k).parseLogged buffer message msgSize) := by
  refine agree_bind (lift_live _) ?_
  rintro msgLog _ rfl
  exact agree_bind (modify_live fun _ => rfl) fun _ _ _ => agree_pure ⟨rfl, nofun⟩

-- ---------------------------------------------------------------------------
-- Messages that may be passed over
-- ---------------------------------------------------------------------------

theorem eases_lift {x : Except Fault α} {f g : α → ParseM ParseState}
    (h : ∀ a, x = .ok a → Eases p ((f a).run p) ((g a).run p)) :
    Eases p ((lift x >>= f).run p) ((lift x >>= g).run p) := by
  rw [run_seq, run_seq, run_lift]
  cases x with
  | error fault => exact .fault
  | ok a => exact h a rfl

section
variable {p : MutelemetryParser} (hp : p.state ≠ .invalid)
include hp

theorem eases_parseFormat (buffer : Bytes) (message : Nat) (msgSize : UInt16) :
    Eases p (((strict k).parseFormat buffer message msgSize).run p)
      (((relaxed k).parseFormat buffer message msgSize).run p) := by
  refine eases_lift fun text _ => eases_lift fun format _ => ?_
  cases format with
  | none => exact .passed
  | some format => exact .taken hp

theorem eases_parseParam (buffer : Bytes) (message : Nat) :
    Eases p (((strict k).parseParam buffer message).run p)
      (((relaxed k).parseParam buffer message).run p) := by
  refine eases_lift fun param _ => ?_
  cases param with
  | none => exact .passed
  | some param => exact .taken hp

theorem eases_parseDefinition (buffer : Bytes) (pos : Nat) :
    Eases p (((strict k).parseDefinition buffer pos).run p)
      (((relaxed k).parseDefinition buffer pos).run p) := by
  refine eases_lift fun type _ => ?_
  match type with
  | some .I => exact eases_lift fun _ _ => eases_of_agree (parseInfo_live _ _ _) hp
  | some .M => exact eases_of_agree get_state_live hp
  | some .F => exact eases_lift fun _ _ => eases_parseFormat k hp _ _ _
  | some .P => exact eases_parseParam k hp _ _
  | some .A => exact eases_of_agree (parseAddData_live k _ _) hp
  | some .B | some .D | some .L | some .S | some .O | some .R | none => exact .passed

theorem eases_parseDataSection (buffer : Bytes) (pos : Nat) :
    Eases p (((strict k).parseDataSection buffer pos).run p)
      (((relaxed k).parseDataSection buffer pos).run p) := by
  refine eases_lift fun type _ => ?_
  match type with
  | some .A => exact eases_of_agree (parseAddData_live k _ _) hp
  | some .D => exact eases_of_agree (parseData_live k _ _) hp
  | some .L => exact eases_lift fun _ _ => eases_of_agree (parseLogged_live k _ _ _) hp
  | some .I => exact eases_lift fun _ _ => eases_of_agree (parseInfo_live _ _ _) hp
  | some .M => exact eases_of_agree get_state_live hp
  | some .P => exact eases_parseParam k hp _ _
  | some .S | some .O => exact .taken nofun
  | some .R => exact eases_of_agree (parseRemove_live _ _) hp
  | some .B | some .F | none => exact .passed

end

-- ---------------------------------------------------------------------------
-- Any message
-- ---------------------------------------------------------------------------

theorem Build.run_parse (b : Build) (buffer : Bytes) (pos : Nat) (p : MutelemetryParser) :
    (b.parse buffer pos).run p = settle ((b.handle p.state buffer pos).run p) := by
  simp only [Build.parse, run_seq, EStateM.run_get]
  cases (b.handle p.state buffer pos).run p with
  | ok | error => rfl

theorem flagsState_cases (h : flagsState buffer pos = .ok state) :
    state = .definition ∨ state = .invalid := by
  have hend : ∀ {unknown appended : Prop} [Decidable unknown] [Decidable appended]
      {offsets : Except Fault Bytes}, (if unknown then pure .invalid
        else if appended then do
          let _ ← offsets
          pure .definition
        else pure .definition : Except Fault ParseState) = .ok state →
      state = .definition ∨ state = .invalid := by
    intro unknown appended _ _ offsets h
    split at h
    · cases h
      exact .inr rfl
    · split at h
      · obtain ⟨_, -, h⟩ := bind_eq_ok.mp h
        cases h
        exact .inl rfl
      · cases h
        exact .inl rfl
  simp only [flagsState] at h
  obtain ⟨type, -, h⟩ := bind_eq_ok.mp h
  split at h
  · obtain ⟨first, -, h⟩ := bind_eq_ok.mp h
    split at h
    · obtain ⟨unknown, -, h⟩ := bind_eq_ok.mp h
      exact hend h
    · obtain ⟨unknown, -, h⟩ := bind_eq_ok.mp h
      exact hend h
  · cases h
    exact .inr rfl

/-- The messages the relaxed machine passes over: the strict one stops at an
assertion where the header or the flags are not what comes, and refuses the
others. -/
inductive Passed (k : Bool) (p : MutelemetryParser) (m : Bytes × Nat) : Prop
  | header : p.state = .header → readFrom m.1 m.2 = .ok none → Passed k p m
  | flags : p.state = .flags → headerType m.1 m.2 = .ok type → type ≠ some .B → Passed k p m
  | body : p.InBody → ((strict k).parse m.1 m.2).run p = .ok false q → Passed k p m

def UnknownFlags (p : MutelemetryParser) (m : Bytes × Nat) : Prop :=
  p.state = .flags ∧ headerType m.1 m.2 = .ok (some .B) ∧ flagsState m.1 m.2 = .ok .invalid

inductive Both (k : Bool) (p : MutelemetryParser) (m : Bytes × Nat) : Prop
  | same : ((relaxed k).parse m.1 m.2).run p = ((strict k).parse m.1 m.2).run p →
    (∀ q, ((strict k).parse m.1 m.2).run p ≠ .ok false q) → Both k p m
  | passed : Passed k p m → ((relaxed k).parse m.1 m.2).run p = .ok true p →
    (strict k).accept p m = none → Both k p m
  | unknown : UnknownFlags p m →
    ((relaxed k).parse m.1 m.2).run p = .ok false { p with state := .invalid } →
    (strict k).accept p m = none → Both k p m

theorem settle_same (p : MutelemetryParser) (h : p.state ≠ .invalid) :
    settle (.ok p.state p) = .ok true p := by
  simp [settle, h]

end

theorem accept_of_error {b : Build} {m : Bytes × Nat}
    (h : (b.parse m.1 m.2).run p = .error fault q) : b.accept p m = none := by
  simp only [Build.accept, h]

theorem accept_of_false {b : Build} {m : Bytes × Nat}
    (h : (b.parse m.1 m.2).run p = .ok false q) : b.accept p m = none := by
  simp only [Build.accept, h]

theorem Build.run_handle_header (b : Build) (buffer : Bytes) (pos : Nat) (p : MutelemetryParser) :
    (b.handle .header buffer pos).run p = match readFrom buffer pos with
      | .error fault => .error fault p
      | .ok none => (b.assertState (b.refused p.state) .flags).run p
      | .ok (some timestamp) =>
        (b.assertState .flags .flags).run { p with startTime := some timestamp } := by
  rw [Build.handle, run_seq, Build.parseHeader, run_seq, run_lift]
  cases readFrom buffer pos with
  | error => rfl
  | ok timestamp =>
    cases timestamp with
    | none | some => rfl

theorem Build.run_handle_flags (b : Build) (buffer : Bytes) (pos : Nat) (p : MutelemetryParser) :
    (b.handle .flags buffer pos).run p = match headerType buffer pos with
      | .error fault => .error fault p
      | .ok type =>
        if type = some .B then match flagsState buffer pos with
          | .error fault => .error fault p
          | .ok state => (b.assertState state .definition).run p
        else (b.assertState (b.refused p.state) .definition).run p := by
  rw [Build.handle, run_seq, Build.parseFlags, run_seq, run_lift]
  cases headerType buffer pos with
  | error => rfl
  | ok type =>
    by_cases hB : type = some .B
    · simp only [if_pos hB, run_lift]
      cases flagsState buffer pos with
      | ok | error => rfl
    · simp only [if_neg hB]
      rfl

theorem both_header (k : Bool) (hs : p.state = .header) (m : Bytes × Nat) : Both k p m := by
  have hrun (b : Build) := b.run_parse m.1 m.2 p
  simp only [hs, Build.run_handle_header] at hrun
  cases hr : readFrom m.1 m.2 with
  | error fault =>
    simp only [hr] at hrun
    exact .same (by rw [hrun, hrun]) (by simp [hrun, settle])
  | ok timestamp =>
    cases timestamp with
    | none =>
      simp only [hr] at hrun
      refine .passed (.header hs hr) ?_ (accept_of_error (hrun _))
      rw [hrun, ← hs]
      exact settle_same p (by simp [hs])
    | some timestamp =>
      simp only [hr] at hrun
      refine .same (by rw [hrun, hrun]; rfl) fun q hq => ?_
      rw [hrun] at hq
      cases hq

theorem both_flags (k : Bool) (hs : p.state = .flags) (m : Bytes × Nat) : Both k p m := by
  have hrun (b : Build) := b.run_parse m.1 m.2 p
  simp only [hs, Build.run_handle_flags] at hrun
  cases ht : headerType m.1 m.2 with
  | error fault =>
    simp only [ht] at hrun
    exact .same (by rw [hrun, hrun]) (by simp [hrun, settle])
  | ok type =>
    simp only [ht] at hrun
    by_cases hB : type = some .B
    · simp only [if_pos hB] at hrun
      cases hf : flagsState m.1 m.2 with
      | error fault =>
        simp only [hf] at hrun
        exact .same (by rw [hrun, hrun]) (by simp [hrun, settle])
      | ok state =>
        simp only [hf] at hrun
        obtain rfl | rfl := flagsState_cases hf
        · refine .same (by rw [hrun, hrun]; rfl) fun q hq => ?_
          rw [hrun] at hq
          cases hq
        · exact .unknown ⟨hs, by rw [ht, hB], hf⟩ (hrun _) (accept_of_error (hrun _))
    · simp only [if_neg hB] at hrun
      refine .passed (.flags hs ht hB) ?_ (accept_of_error (hrun _))
      rw [hrun, ← hs]
      exact settle_same p (by simp [hs])

theorem both_body (k : Bool) (hb : p.InBody) (m : Bytes × Nat) : Both k p m := by
  have hlive := hb.ne_invalid
  have heases : Eases p (((strict k).handle p.state m.1 m.2).run p)
      (((relaxed k).handle p.state m.1 m.2).run p) := by
    obtain hs | hs := id hb
    · rw [hs]
      exact eases_parseDefinition k hlive m.1 m.2
    · rw [hs]
      exact eases_parseDataSection k hlive m.1 m.2
  have hrun (b : Build) := b.run_parse m.1 m.2 p
  have hstrict := hrun (strict k)
  have hrelaxed := hrun (relaxed k)
  generalize ((strict k).handle p.state m.1 m.2).run p = r at heases hstrict
  generalize ((relaxed k).handle p.state m.1 m.2).run p = r' at heases hrelaxed
  cases heases with
  | taken hs => exact .same (by rw [hstrict, hrelaxed]) (by simp [hstrict, settle, hs])
  | fault => exact .same (by rw [hstrict, hrelaxed]) (by simp [hstrict, settle])
  | passed =>
    refine .passed (.body hb hstrict) ?_ (accept_of_false hstrict)
    rw [hrelaxed]
    exact settle_same p hlive

theorem both (k : Bool) (hp : p.state ≠ .invalid) (m : Bytes × Nat) : Both k p m := by
  cases hs : p.state with
  | header => exact both_header k hs m
  | flags => exact both_flags k hs m
  | definition => exact both_body k (.inl hs) m
  | definitionOrData => exact both_body k (.inr hs) m
  | invalid => exact absurd hs hp

-- ---------------------------------------------------------------------------
-- Streams
-- ---------------------------------------------------------------------------

theorem Passed.ne_invalid (h : Passed k p m) : p.state ≠ .invalid := by
  cases h with
  | header hs | flags hs => simp [hs]
  | body hb => exact hb.ne_invalid

theorem Passed.not_strict (h : Passed k p m) : (strict k).accept p m = none := by
  cases h with
  | header hs hr =>
    have hrun := (strict k).run_parse m.1 m.2 p
    simp only [hs, Build.run_handle_header, hr] at hrun
    exact accept_of_error hrun
  | flags hs ht hB =>
    have hrun := (strict k).run_parse m.1 m.2 p
    simp only [hs, Build.run_handle_flags, ht, if_neg hB] at hrun
    exact accept_of_error hrun
  | body hb hrun => exact accept_of_false hrun

theorem accept_invalid (b : Build) (hs : p.state = .invalid) (m : Bytes × Nat) :
    b.accept p m = none := by
  have hrun := b.run_parse m.1 m.2 p
  rw [hs] at hrun
  exact accept_of_false hrun

theorem Passed.relaxed (h : Passed k p m) : ((relaxed k).parse m.1 m.2).run p = .ok true p := by
  have hrun := (Build.relaxed k).run_parse m.1 m.2 p
  cases h with
  | header hs hr =>
    simp only [hs, Build.run_handle_header, hr] at hrun
    rw [hrun, ← hs]
    exact settle_same p (by simp [hs])
  | flags hs ht hB =>
    simp only [hs, Build.run_handle_flags, ht, if_neg hB] at hrun
    rw [hrun, ← hs]
    exact settle_same p (by simp [hs])
  | body hb hfalse =>
    cases both k hb.ne_invalid m with
    | same _ hne => exact absurd hfalse (hne _)
    | passed _ hrelaxed => exact hrelaxed
    | unknown hf =>
      obtain hs | hs := hb
      · simp [UnknownFlags, hs] at hf
      · simp [UnknownFlags, hs] at hf

/-- A message is taken as by the strict machine, or passed over. -/
theorem relaxed_accept_iff : (relaxed k).accept p m = some q ↔
    (strict k).accept p m = some q ∨ Passed k p m ∧ q = p := by
  by_cases hp : p.state = .invalid
  · rw [accept_invalid _ hp, accept_invalid _ hp]
    simp only [reduceCtorEq, false_or, false_iff, not_and]
    exact fun h => absurd hp h.ne_invalid
  · constructor
    · intro h
      cases both k hp m with
      | same hrun => exact .inl (by rwa [Build.accept_eq_some, ← hrun, ← Build.accept_eq_some])
      | passed hpassed hrun =>
        rw [Build.accept_eq_some.mpr hrun] at h
        exact .inr ⟨hpassed, (Option.some.inj h).symm⟩
      | unknown _ hrun => simp [accept_of_false hrun] at h
    · rintro (h | ⟨hpassed, rfl⟩)
      · cases both k hp m with
        | same hrun => rwa [Build.accept_eq_some, hrun, ← Build.accept_eq_some]
        | passed _ _ hnone | unknown _ _ hnone => simp [hnone] at h
      · exact Build.accept_eq_some.mpr hpassed.relaxed

/-- A stream, what is left of it when the messages passed over are taken out,
and the parser behind it. -/
inductive Screened (k : Bool) : MutelemetryParser → List (Bytes × Nat) → List (Bytes × Nat) →
    MutelemetryParser → Prop
  | nil : Screened k p [] [] p
  | taken : (strict k).accept p m = some p' → Screened k p' ms rest q →
    Screened k p (m :: ms) (m :: rest) q
  | passed : Passed k p m → Screened k p ms rest q → Screened k p (m :: ms) rest q

theorem Screened.sublist (h : Screened k p ms rest q) : rest.Sublist ms := by
  induction h with
  | nil => exact .slnil
  | taken _ _ ih => exact ih.cons_cons _
  | passed _ _ ih => exact ih.cons _

theorem Screened.strict_run (h : Screened k p ms rest q) :
    Transition.run (strict k).accept p rest = some q := by
  induction h with
  | nil => rfl
  | taken hm _ ih => exact Transition.run_cons.mpr ⟨_, hm, ih⟩
  | passed _ _ ih => exact ih

/-- What is left of a stream is determined. -/
theorem Screened.unique (h : Screened k p ms rest q) (h' : Screened k p ms rest' q') :
    rest' = rest := by
  induction h generalizing rest' with
  | nil =>
    cases h'
    rfl
  | taken hm _ ih =>
    cases h' with
    | taken hm' h' =>
      cases hm.symm.trans hm'
      rw [ih h']
    | passed hm' => cases hm.symm.trans hm'.not_strict
  | passed hm _ ih =>
    cases h' with
    | taken hm' => cases hm'.symm.trans hm.not_strict
    | passed _ h' => exact ih h'

theorem screened_iff : Transition.run (relaxed k).accept p ms = some q ↔
    ∃ rest, Screened k p ms rest q := by
  constructor
  · intro h
    induction ms generalizing p with
    | nil =>
      cases h
      exact ⟨[], .nil⟩
    | cons m ms ih =>
      obtain ⟨p', hm, h⟩ := Transition.run_cons.mp h
      obtain ⟨rest, hrest⟩ := ih h
      obtain hm | ⟨hm, rfl⟩ := relaxed_accept_iff.mp hm
      · exact ⟨m :: rest, .taken hm hrest⟩
      · exact ⟨rest, .passed hm hrest⟩
  · rintro ⟨rest, h⟩
    induction h with
    | nil => rfl
    | taken hm _ ih => exact Transition.run_cons.mpr ⟨_, relaxed_accept_iff.mpr (.inl hm), ih⟩
    | passed hm _ ih => exact Transition.run_cons.mpr ⟨_, relaxed_accept_iff.mpr (.inr ⟨hm, rfl⟩), ih⟩

/-- The relaxed machine refuses nothing but flags it does not know. -/
theorem relaxed_refuses_iff (hp : p.state ≠ .invalid) :
    (∃ q, ((relaxed k).parse m.1 m.2).run p = .ok false q) ↔ UnknownFlags p m := by
  constructor
  · rintro ⟨q, h⟩
    cases both k hp m with
    | same hrun hne => exact absurd (hrun ▸ h) (hne q)
    | passed _ hrun => cases hrun.symm.trans h
    | unknown hf => exact hf
  · intro hf
    have hrun := (relaxed k).run_parse m.1 m.2 p
    simp only [hf.1, Build.run_handle_flags, hf.2.1, hf.2.2, if_true] at hrun
    exact ⟨_, hrun⟩

/-- The relaxed parser on a stream is the strict one on a part of it: on what
the strict one takes, the rest being passed over without effect. -/
theorem relaxed_reads_part (k : Bool) (ms : List (Bytes × Nat)) (q : MutelemetryParser) :
    Transition.run (relaxed k).accept .new ms = some q ↔ ∃ rest, Screened k .new ms rest q ∧
      rest.Sublist ms ∧ Transition.run (strict k).accept .new rest = some q := by
  rw [screened_iff]
  constructor
  · rintro ⟨rest, h⟩
    exact ⟨rest, h, h.sublist, h.strict_run⟩
  · rintro ⟨rest, h, -⟩
    exact ⟨rest, h⟩

theorem strict_accept (p : MutelemetryParser) (m : Bytes × Nat) :
    (strict false).accept p m = accept p m := by
  have hparse : (strict false).parse m.1 m.2 = parse m.1 m.2 := Build.parse_default m.1 m.2
  ext p'
  rw [Build.accept_eq_some, accept_eq_some, hparse]

/-- The parser modelled before takes that part, and no other part is left. -/
theorem relaxed_reads_default (h : Transition.run (relaxed false).accept .new ms = some q) :
    ∃! rest, Screened false .new ms rest q ∧ rest.Sublist ms ∧
      Transition.run accept .new rest = some q := by
  obtain ⟨rest, hrest⟩ := screened_iff.mp h
  have hrun := hrest.strict_run
  rw [show (strict false).accept = accept from funext₂ strict_accept] at hrun
  exact ⟨rest, ⟨hrest, hrest.sublist, hrun⟩, fun rest' h' => hrest.unique h'.1⟩

end Mutelemetry.Parse
