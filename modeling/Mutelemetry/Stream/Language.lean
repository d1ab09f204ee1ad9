import Mutelemetry.Stream.Loss

/-!
# The language of the stream

Every message that the writer enqueues is given to a parser, in order. The
writer takes its calls in any order, with any keys and fields; the parser takes
formats before the first record only, log messages behind it only, and reads
the types that stand in keys and fields.
-/

namespace Mutelemetry.Stream

open ByteString Stateful Ulog Telemetry Parse

def printedKey (text : Bytes) : Bytes := text.take (MuTelemetry.printedLen text).toNat

/-- The call is one that this parser is ready for. -/
def Speaks (p : MutelemetryParser) : Call → Prop
  | .registerParamInt key _ | .registerParamFloat key _ =>
    ∃ type name, (type = ascii "int32_t" ∨ type = ascii "float") ∧
      printedKey (cstr key) = type ++ charByte ' ' :: name
  | .registerInfo key value => (ascii "char[" ++ decimal value.length ++ ascii "] ").length <
      (printedKey (MuTelemetry.infoKey value.length key)).length
  | .registerInfoMulti .. => True
  | .registerDataFormat typeName fields => p.state = .definition ∧
      FormatSections (MuTelemetry.printedFormat (MuTelemetry.formatText typeName fields))
  | .storeData data typeName _ _ => typeName.length < 2 ^ 31 ∧ ValueOf p.formats typeName data
  | .storeMessage .. => p.state = .definitionOrData

def Ready (t : MuTelemetry) (c : Call) : Prop :=
  ∀ p, Transition.run valid .new t.netQueue = some p → Speaks p c

-- ---------------------------------------------------------------------------
-- Keys
-- ---------------------------------------------------------------------------

section
variable {p : MutelemetryParser} {text value : Bytes}

theorem printedLen_eq (h : (MuTelemetry.printedLen text).toNat < 255) :
    MuTelemetry.printedLen text = .ofNat (printedKey text).length := by
  have hle := MuTelemetry.printedLen_le h
  have hlen : (printedKey text).length = (MuTelemetry.printedLen text).toNat := by
    rw [printedKey, List.length_take]
    omega
  rw [hlen, UInt8.ofNat_toNat]

theorem keyedBody_eq (h : (MuTelemetry.printedLen text).toNat < 255)
    (hkey : printedKey text = type ++ charByte ' ' :: name) :
    MuTelemetry.keyedBody [] text value = [.ofNat (type.length + 1 + name.length)] ++
      (type ++ charByte ' ' :: name ++ value) := by
  have hlen : (type ++ charByte ' ' :: name).length = type.length + 1 + name.length := by
    simp only [List.length_append, List.length_cons]
    omega
  have htake : text.take (MuTelemetry.printedLen text).toNat = type ++ charByte ' ' :: name := hkey
  rw [MuTelemetry.keyedBody, List.nil_append, htake, printedLen_eq h, hkey, hlen]

theorem length_printedKey (h : (MuTelemetry.printedLen text).toNat < 255)
    (hkey : printedKey text = type ++ charByte ' ' :: name) :
    type.length + 1 + name.length = (MuTelemetry.printedLen text).toNat := by
  have hle := MuTelemetry.printedLen_le h
  have hlen := congrArg List.length hkey
  simp only [printedKey, List.length_take, List.length_append, List.length_cons] at hlen
  omega

theorem wellFormed_param (hroom : (MuTelemetry.printedLen text).toNat + 4 < 255)
    (hkey : printedKey text = type ++ charByte ' ' :: name)
    (htype : type = ascii "int32_t" ∨ type = ascii "float") (n : Nat) :
    WellFormed p (frame .P (MuTelemetry.keyedBody [] text (leBytes 4 n))) (.message .P) := by
  have hlen := length_printedKey (by omega) hkey
  rw [keyedBody_eq (by omega) hkey]
  exact .param htype (by omega) (length_leBytes 4 n)

theorem printedKey_info
    (h : (ascii "char[" ++ decimal n ++ ascii "] ").length <
      (printedKey (MuTelemetry.infoKey n key)).length) :
    ∃ name, name ≠ [] ∧ printedKey (MuTelemetry.infoKey n key) =
      (ascii "char[" ++ decimal n ++ ascii "]") ++ charByte ' ' :: name := by
  have hpre : ascii "char[" ++ decimal n ++ ascii "] " <+: printedKey (MuTelemetry.infoKey n key) := by
    have hkey : printedKey (MuTelemetry.infoKey n key) <+: MuTelemetry.infoKey n key :=
      List.take_prefix _ _
    exact List.prefix_of_prefix_length_le (List.prefix_append _ _) hkey h.le
  obtain ⟨name, hname⟩ := hpre
  refine ⟨name, ?_, ?_⟩
  · rintro rfl
    rw [← hname, List.append_nil] at h
    exact h.false
  · rw [← hname]
    simp [ascii]

theorem blank_notMem_charType (n : Nat) :
    charByte ' ' ∉ ascii "char[" ++ decimal n ++ ascii "]" := by
  have hdecimal : charByte ' ' ∉ decimal n := fun hmem => by
    have hdigit := digit_of_mem_decimal hmem
    have hvalue : (charByte ' ').toNat = 32 := rfl
    omega
  have hopen : charByte ' ' ∉ ascii "char[" := by decide
  have hclose : charByte ' ' ∉ ascii "]" := by decide
  simp only [List.mem_append, not_or]
  exact ⟨⟨hopen, hdecimal⟩, hclose⟩

theorem wellFormed_info (hroom : (MuTelemetry.printedLen (MuTelemetry.infoKey n key)).toNat +
      value.length < 255)
    (h : (ascii "char[" ++ decimal n ++ ascii "] ").length <
      (printedKey (MuTelemetry.infoKey n key)).length) :
    WellFormed p (frame .I (MuTelemetry.keyedBody [] (MuTelemetry.infoKey n key) value))
      (.message .I) := by
  obtain ⟨name, hne, hkey⟩ := printedKey_info h
  have hlen := length_printedKey (by omega) hkey
  rw [keyedBody_eq (by omega) hkey]
  exact .info (blank_notMem_charType n) hne (by omega) (by omega)

end

-- ---------------------------------------------------------------------------
-- One call
-- ---------------------------------------------------------------------------

section
variable {p : MutelemetryParser} {t t' : MuTelemetry}

theorem not_dataBegin_frame (hne : type ≠ .A) (body : Bytes) :
    checkUlogDataBegin (frame type body) = false := by
  rw [← List.append_nil (frame _ _), checkUlogDataBegin_frame]
  simpa using hne

theorem valid_body (h : Serves tags p) (hc : Coherent tags) (hb : p.InBody)
    (hwf : WellFormed p (frame type body) (.message type)) (hmem : type ∈ [.I, .M, .P]) :
    ∃ q, valid p (frame type body) = some q ∧ Serves tags q ∧ q.InBody := by
  have hne : type ≠ .A := by
    rintro rfl
    exact absurd hmem (by decide)
  obtain ⟨q, hv, hq, hs⟩ :=
    serves_of_takes h hc (takes_body hwf hb hmem) (not_dataBegin_frame hne body)
  refine ⟨q, hv, hq, ?_⟩
  rw [MutelemetryParser.InBody, hs]
  exact hb

/-- The message of a call that the parser is ready for is accepted. -/
theorem Speaks.valid (hs : Speaks p c) (he : MuTelemetry.Enqueues t c m t') (hids : t.MsgIds ns)
    (hpre : entered ns (storedTypes [c]) <+: names) (h : Serves (TagOf names) p)
    (hc : Coherent (TagOf names)) (hb : p.InBody) :
    ∃ q, valid p m = some q ∧ Serves (TagOf names) q ∧ q.InBody := by
  cases he with
  | paramInt hroom | paramFloat hroom =>
    obtain ⟨type, name, htype, hkey⟩ := hs
    exact valid_body h hc hb (wellFormed_param hroom hkey htype _) (by decide)
  | info hroom => exact valid_body h hc hb (wellFormed_info hroom hs) (by decide)
  | infoMulti => exact valid_body h hc hb .multi (by decide)
  | dataFormat hlen =>
    obtain ⟨hstate, hsections⟩ := hs
    obtain ⟨format, hf⟩ := parseFormatText_iff.mpr hsections
    have hsize := (MuTelemetry.length_printedFormat (Nat.lt_of_lt_of_le (by omega)
      (MuTelemetry.length_formatText _ _).ge)).trans_le hlen
    obtain ⟨q, hv, hq, hqs⟩ := serves_of_takes h hc (takes_format_text hstate hf (by omega))
      (not_dataBegin_frame (by decide) _)
    exact ⟨q, hv, hq, .inl (hqs.trans hstate)⟩
  | @data typeName _ _ _ _ _ _ hname _ hmax hid =>
    obtain ⟨hshort, hvalue⟩ := hs
    have hpre' : enter ns typeName <+: names := hpre
    have hmem : typeName ∈ enter ns typeName := mem_enter.mpr (.inr rfl)
    rw [MuTelemetry.nameLen_of_lt hshort] at hname ⊢
    rw [List.take_length, (hids.identify hid).1, ← idxOf_of_prefix hpre' hmem]
    obtain ⟨q, hv, hq, hqs, -⟩ := valid_data (a := ⟨.ofNat (names.idxOf typeName), _, typeName⟩)
      h hc hb ⟨hpre'.subset hmem, rfl⟩ hname hmax hvalue
    exact ⟨q, hv, hq, .inr hqs⟩
  | @message level timestamp message hlen =>
    have hsent : Sent p.formats names
        (frame .L ([level.code] ++ (leBytes 8 timestamp.toNat ++ cstr message))) :=
      .message ((length_cstr_le message).trans_lt hlen)
    obtain ⟨q, hv, hq, hqs, -⟩ := hsent.valid h hc (.inl hs)
    exact ⟨q, hv, hq, .inr hqs⟩

end

-- ---------------------------------------------------------------------------
-- Runs
-- ---------------------------------------------------------------------------

/-- From a parser in the body that has taken all that is enqueued. -/
theorem guarded_accepted {t t' : MuTelemetry}
    (hrun : Transition.Guarded MuTelemetry.accept Ready t cs t') (hnet : t.withNetwork = true)
    (hids : t.MsgIds ns) (hpre : entered ns (storedTypes cs) <+: names)
    (hc : Coherent (TagOf names)) (hp : Transition.run valid .new t.netQueue = some p)
    (h : Serves (TagOf names) p) (hb : p.InBody) :
    ∃ q, Transition.run valid .new t'.netQueue = some q ∧ q.InBody := by
  induction hrun generalizing ns p with
  | nil => exact ⟨p, hp, hb⟩
  | @cons t c t₂ cs t' hready haccept _ ih =>
    rw [storedTypes_cons, entered_append] at hpre
    have henabled : t.isEnabled = true := by simp [MuTelemetry.isEnabled, hnet]
    obtain ⟨m, t₁, he, rfl⟩ := MuTelemetry.accept_enqueues henabled haccept
    obtain ⟨hnet₁, hqueue, -⟩ := he.same
    rw [hnet] at hnet₁
    obtain ⟨q, hv, hq, hqb⟩ := (hready p hp).valid he hids ((prefix_entered _ _).trans hpre) h hc hb
    have hp' : Transition.run valid .new (t₁.toIo m).netQueue = some q := by
      rw [MuTelemetry.netQueue_toIo hnet₁, hqueue]
      exact Transition.run_concat.mpr ⟨p, hp, hv⟩
    have hids₁ : t₁.MsgIds (entered ns (storedTypes [c])) := hids.enqueues he
    exact ih hnet₁ hids₁ hpre hp' hq hqb

theorem run_headerAndFlags (hc : Coherent tags) (timestamp : UInt64) :
    ∃ p, Transition.run valid .new [fileHeader timestamp, frame .B (MuTelemetry.zeros 40)] = some p ∧
      Serves tags p ∧ p.InBody := by
  have hheader : WellFormed .new (fileHeader timestamp) .fileHeader := .fileHeader
  obtain ⟨p, hp, hserves, hs⟩ := serves_of_takes serves_new hc
    (obeys_header hheader rfl) rfl
  have hflags : WellFormed p (frame .B (MuTelemetry.zeros 8 ++
      (0 :: MuTelemetry.zeros 7 ++ MuTelemetry.zeros 24))) (.flags false) := .flags rfl rfl rfl
  have htakes : Takes p (frame .B (MuTelemetry.zeros 40)) .definition := by
    have hobeys := obeys_flags hflags hs
    unfold Obeys at hobeys
    rw [hs] at hobeys
    exact hobeys
  obtain ⟨q, hq, hserves', hs'⟩ := serves_of_takes hserves hc htakes rfl
  exact ⟨q, Transition.run_cons.mpr ⟨p, hp, Transition.run_cons.mpr ⟨q, hq, rfl⟩⟩, hserves', .inl hs'⟩

/-- When every call is one that the parser is ready for, and the types are told
apart, every message is accepted. -/
theorem stream_accepted (hrun : Transition.Guarded MuTelemetry.accept Ready
      (MuTelemetry.new true withLocalLog timestamp).createHeaderAndFlags cs t)
    (htypes : (storedTypes cs).toFinset.card ≤ 2 ^ 16) (hnames : NotInstances (storedTypes cs)) :
    ∃ p, Transition.run valid .new t.netQueue = some p ∧ p.state ≠ .invalid := by
  have hc : Coherent (TagOf (entered [] (storedTypes cs))) := coherent_entered htypes hnames
  obtain ⟨p, hp, hserves, hb⟩ := run_headerAndFlags hc timestamp
  obtain ⟨q, hq, hqb⟩ := guarded_accepted hrun rfl (ranked_new rfl) List.prefix_rfl hc hp hserves hb
  refine ⟨q, hq, ?_⟩
  obtain hs | hs := hqb
  · simp [hs]
  · simp [hs]

theorem ready_of_run (hp : Transition.run valid .new t.netQueue = some p) (hs : Speaks p c) :
    Ready t c := by
  intro q hq
  obtain rfl := Option.some_inj.mp (hp.symm.trans hq)
  exact hs

def firstFormat : Call := .registerDataFormat (ascii "T") (ascii "int8_t a;")

def firstRecord : Call := .storeData (List.replicate 8 0 ++ [5]) (ascii "T") [] 7

def firstLog : Call := .storeMessage (ascii "up") .info 8

theorem run_firsts : ∃ t₁ t₂ t₃ p₀ p₁ p₂,
    (MuTelemetry.new true false 0).createHeaderAndFlags.accept firstFormat = some t₁ ∧
    t₁.accept firstRecord = some t₂ ∧ t₂.accept firstLog = some t₃ ∧
    Transition.run valid .new (MuTelemetry.new true false 0).createHeaderAndFlags.netQueue = some p₀ ∧
    Transition.run valid .new t₁.netQueue = some p₁ ∧ Transition.run valid .new t₂.netQueue = some p₂ ∧
    p₀.state = .definition ∧ p₁.formats.lookup (ascii "T") = some parsedFormat ∧
    p₂.state = .definitionOrData := by
  have hcalls : ((MuTelemetry.new true false 0).createHeaderAndFlags.accept firstFormat).bind (fun t₁ =>
      (t₁.accept firstRecord).bind fun t₂ => (t₂.accept firstLog).bind fun _ =>
        (Transition.run valid .new
          (MuTelemetry.new true false 0).createHeaderAndFlags.netQueue).bind fun p₀ =>
            (Transition.run valid .new t₁.netQueue).bind fun p₁ =>
              (Transition.run valid .new t₂.netQueue).map fun p₂ =>
                (p₀.state, p₁.formats.lookup (ascii "T"), p₂.state)) =
      some (.definition, some parsedFormat, .definitionOrData) := by decide +kernel
  obtain ⟨t₁, ht₁, h⟩ := Option.bind_eq_some_iff.mp hcalls
  obtain ⟨t₂, ht₂, h⟩ := Option.bind_eq_some_iff.mp h
  obtain ⟨t₃, ht₃, h⟩ := Option.bind_eq_some_iff.mp h
  obtain ⟨p₀, hp₀, h⟩ := Option.bind_eq_some_iff.mp h
  obtain ⟨p₁, hp₁, h⟩ := Option.bind_eq_some_iff.mp h
  obtain ⟨p₂, hp₂, h⟩ := Option.map_eq_some_iff.mp h
  simp only [Prod.mk.injEq] at h
  exact ⟨t₁, t₂, t₃, p₀, p₁, p₂, ht₁, ht₂, ht₃, hp₀, hp₁, hp₂, h⟩

theorem stream_accepted_firsts : ∃ t, Transition.run MuTelemetry.accept
      (MuTelemetry.new true false 0).createHeaderAndFlags [firstFormat, firstRecord, firstLog] = some t ∧
    ∃ p, Transition.run valid .new t.netQueue = some p ∧ p.state ≠ .invalid := by
  obtain ⟨t₁, t₂, t₃, p₀, p₁, p₂, ht₁, ht₂, ht₃, hp₀, hp₁, hp₂, hs₀, hf, hs₂⟩ := run_firsts
  have hformat : Speaks p₀ firstFormat :=
    ⟨hs₀, parseFormatText_iff.mp ⟨parsedFormat, by decide⟩⟩
  have hrecord : Speaks p₁ firstRecord :=
    ⟨by decide, parsedFormat, .prim (.int8 5) .done, [], hf, .flat hf (by decide), .prim rfl .done,
      by decide⟩
  have hrun : Transition.Guarded MuTelemetry.accept Ready
      (MuTelemetry.new true false 0).createHeaderAndFlags [firstFormat, firstRecord, firstLog] t₃ :=
    .cons (ready_of_run hp₀ hformat) ht₁ (.cons (ready_of_run hp₁ hrecord) ht₂
      (.cons (ready_of_run hp₂ hs₂) ht₃ .nil))
  exact ⟨t₃, hrun.run, stream_accepted hrun (by decide) (notInstances_singleton _)⟩

/-- A log message before the first record. -/
theorem early_log_rejected : ¬ ∀ cs t, Transition.run MuTelemetry.accept
      (MuTelemetry.new true false 0).createHeaderAndFlags cs = some t →
    ∃ p, Transition.run valid .new t.netQueue = some p ∧ p.state ≠ .invalid := by
  intro h
  have hlog : (Transition.run MuTelemetry.accept
      (MuTelemetry.new true false 0).createHeaderAndFlags [firstLog]).map
        (fun t => (Transition.run valid .new t.netQueue).isSome) = some false := by decide +kernel
  obtain ⟨t, ht, hnone⟩ := Option.map_eq_some_iff.mp hlog
  obtain ⟨p, hp, -⟩ := h _ t ht
  rw [hp] at hnone
  cases hnone

end Mutelemetry.Stream
