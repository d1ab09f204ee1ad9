import Mutelemetry.Parse.Syntax
import Mutelemetry.Telemetry.Encoders

/-!
# Formats that are registered

`register_data_format` gives `snprintf` the length of the text for a size, so the
closing NUL takes the place of the last byte, and the parser finds it in the
name of the last field.
-/

namespace Mutelemetry.Stream

open ByteString Stateful Ulog Telemetry Parse

/-- The call returns true, and the F message it enqueues has this body. -/
def Registers (t : MuTelemetry) (typeName fields body : Bytes) : Prop :=
  ∃ exact, (t.registerDataFormat typeName fields).run true =
    .ok (true, t.toIo (frame .F body)) exact

-- ---------------------------------------------------------------------------
-- The message
-- ---------------------------------------------------------------------------

section
variable {t : MuTelemetry} {typeName fields body : Bytes}

theorem frame_inj {type : ULogMessageType} {body' : Bytes} (h : frame type body = frame type body') :
    body = body' := by
  have hdrop := congrArg (List.drop 3) h
  simpa [frame, List.drop_append] using hdrop

theorem toIo_inj (ht : t.isEnabled = true) (h : t.toIo m = t.toIo m') : m = m' := by
  have hlog := congrArg MuTelemetry.logQueue h
  have hnet := congrArg MuTelemetry.netQueue h
  simp only [MuTelemetry.toIo] at hlog hnet
  obtain hn | hl := Bool.or_eq_true_iff.mp ht
  · simpa [hn] using hnet
  · simpa [hl] using hlog

theorem registers_iff (ht : t.isEnabled = true)
    (hnul : 0 ∉ MuTelemetry.formatText typeName fields)
    (hlen : (MuTelemetry.formatText typeName fields).length ≤ 1500) :
    Registers t typeName fields body ↔
      body = MuTelemetry.printedFormat (MuTelemetry.formatText typeName fields) := by
  have hrun := MuTelemetry.run_registerDataFormat ht typeName fields true
  rw [if_pos (.inl hlen), if_neg hnul] at hrun
  constructor
  · rintro ⟨exact, h⟩
    rw [hrun] at h
    simp only [EStateM.Result.ok.injEq, Prod.mk.injEq, true_and] at h
    exact (frame_inj (toIo_inj ht h.1)).symm
  · rintro rfl
    exact ⟨true, hrun⟩

theorem printedFormat_concat (pre : Bytes) (c : UInt8) :
    MuTelemetry.printedFormat (pre ++ [c]) = pre ++ [0] := by
  simp [MuTelemetry.printedFormat]

theorem printedFormat_ne (hnul : 0 ∉ format) :
    MuTelemetry.printedFormat format ≠ format := by
  intro h
  refine hnul ?_
  rw [← h, MuTelemetry.printedFormat]
  simp

end

-- ---------------------------------------------------------------------------
-- The format
-- ---------------------------------------------------------------------------

def timestampField : FieldText := ⟨ascii "uint64_t", none, ascii "timestamp"⟩

section
variable {typeName : Bytes} {fs : List FieldText} {last : Option FieldText}

theorem declared_timestampField : timestampField.Declared := ⟨by decide, by decide, nofun⟩

theorem formatText_render (typeName : Bytes) (fs : List FieldText) (last : Option FieldText) :
    MuTelemetry.formatText typeName (fs.flatMap (fun f => f.render ++ ascii ";") ++
      last.elim [] FieldText.render) = renderFormat typeName (timestampField :: fs) last := by
  simp [MuTelemetry.formatText, renderFormat, timestampField, FieldText.render, FieldText.sizeText,
    ascii]

theorem name_nul {pre : Bytes} (hspace : charByte ' ' ∉ pre) (hsemicolon : charByte ';' ∉ pre) :
    pre ++ [0] ≠ [] ∧ charByte ' ' ∉ pre ++ [0] ∧ charByte ';' ∉ pre ++ [0] := by
  simp only [List.mem_append, not_or]
  exact ⟨by simp, ⟨hspace, by decide⟩, hsemicolon, by decide⟩

/-- The text that is printed is one of fields too, but for the name of the last. -/
theorem printedFormat_render (typeName : Bytes) (hf : ∀ f ∈ fs ++ last.toList, f.Declared) :
    ∃ gs g, (∀ f ∈ gs ++ (some g).toList, f.WellFormed ∧ ∀ n ∈ f.arraySize, n < 2 ^ 31) ∧
      0 ∈ g.fieldName ∧ MuTelemetry.printedFormat (renderFormat typeName (timestampField :: fs) last) =
        renderFormat typeName gs (some g) := by
  have hall : ∀ f ∈ timestampField :: fs, f.Declared := by
    rw [List.forall_mem_cons]
    exact ⟨declared_timestampField, fun f hmem => hf f (List.mem_append_left _ hmem)⟩
  have hsound : ∀ f : FieldText, f.Declared → f.WellFormed ∧ ∀ n ∈ f.arraySize, n < 2 ^ 31 :=
    fun f hd => ⟨hd.wellFormed, fun n hn => (hd.arraySize n hn).2⟩
  cases last with
  | some f =>
    obtain ⟨hwf, hn⟩ := hsound f (hf f (by simp))
    obtain ⟨pre, c, hname⟩ := (List.eq_nil_or_concat f.fieldName).resolve_left hwf.fieldName.1
    rw [List.concat_eq_append] at hname
    have hpre : charByte ' ' ∉ pre ∧ charByte ';' ∉ pre := by
      have hspace := hwf.fieldName.2.1
      have hsemicolon := hwf.fieldName.2.2
      rw [hname, List.mem_append, not_or] at hspace hsemicolon
      exact ⟨hspace.1, hsemicolon.1⟩
    refine ⟨timestampField :: fs, { f with fieldName := pre ++ [0] }, ?_, by simp, ?_⟩
    · rw [List.forall_mem_append]
      refine ⟨fun g hg => hsound g (hall g hg), ?_⟩
      simp only [Option.toList_some, List.mem_singleton, forall_eq]
      exact ⟨⟨hwf.typeName, name_nul hpre.1 hpre.2⟩, hn⟩
    · have htext : renderFormat typeName (timestampField :: fs) (some f) = (typeName ++ ascii ":" ++
          ((timestampField :: fs).flatMap (fun f => f.render ++ ascii ";") ++
            (f.typeName ++ f.sizeText ++ ascii " " ++ pre))) ++ [c] := by
        simp [renderFormat, FieldText.render, hname]
      rw [htext, printedFormat_concat]
      simp [renderFormat, FieldText.render, FieldText.sizeText]
  | none =>
    obtain ⟨gs, g, hgs⟩ := (List.eq_nil_or_concat (timestampField :: fs)).resolve_left (by simp)
    rw [List.concat_eq_append] at hgs
    rw [hgs, List.forall_mem_append] at hall
    obtain ⟨hwf, hn⟩ := hsound g (hall.2 g (by simp))
    refine ⟨gs, { g with fieldName := g.fieldName ++ [0] }, ?_, by simp, ?_⟩
    · rw [List.forall_mem_append]
      refine ⟨fun f hmem => hsound f (hall.1 f hmem), ?_⟩
      simp only [Option.toList_some, List.mem_singleton, forall_eq]
      exact ⟨⟨hwf.typeName, name_nul hwf.fieldName.2.1 hwf.fieldName.2.2⟩, hn⟩
    · have htext : renderFormat typeName (gs ++ [g]) none = (typeName ++ ascii ":" ++
          (gs.flatMap (fun f => f.render ++ ascii ";") ++ g.render)) ++ [charByte ';'] := by
        simp [renderFormat, ascii]
      rw [hgs, htext, printedFormat_concat]
      simp [renderFormat, FieldText.render, FieldText.sizeText]

theorem read_fieldName (f : FieldText) : f.read.fieldName = f.fieldName := by
  unfold FieldText.read
  split
  · rfl
  · rfl

/-- The two are told apart by the NUL in a field's name. -/
theorem parse_printedFormat_ne (hname : charByte ':' ∉ typeName)
    (hf : ∀ f ∈ fs ++ last.toList, f.Declared) :
    parseFormatText (MuTelemetry.printedFormat (renderFormat typeName (timestampField :: fs) last)) ≠
      parseFormatText (renderFormat typeName (timestampField :: fs) last) := by
  have hall : ∀ f ∈ timestampField :: fs ++ last.toList, f.Declared := by
    rw [List.cons_append, List.forall_mem_cons]
    exact ⟨declared_timestampField, hf⟩
  obtain ⟨gs, g, hgs, hnul, hprinted⟩ := printedFormat_render typeName hf
  have hparse := parseFormatText_read hname fun f hmem =>
    ⟨(hall f hmem).wellFormed, fun n hn => ((hall f hmem).arraySize n hn).2⟩
  rw [hprinted, parseFormatText_read hname hgs, hparse]
  intro h
  have hsame := Option.some.inj (Except.ok.inj h)
  have hkept : g.read ∈ (formatWith typeName ((gs ++ (some g).toList).map FieldText.read)).fields := by
    refine List.mem_filter.mpr ⟨by simp, ?_⟩
    have hne : g.fieldName ≠ ascii "timestamp" := fun heq => by
      rw [heq] at hnul
      exact absurd hnul (by decide)
    simp [Field.isTimestamp, read_fieldName, hne]
  rw [hsame] at hkept
  obtain ⟨f, hmem, hread⟩ := List.mem_map.mp (List.mem_filter.mp hkept).1
  rw [← read_fieldName, ← hread, read_fieldName] at hnul
  exact isIdentifier_notMem (hall f hmem).fieldName (by decide) hnul

end

/-- No F message that the call enqueues carries the text; what it carries in its
place has a NUL at the end, and where the fields are declared ones the format
that is stored is another. -/
theorem registered_format_cut (ht : t.isEnabled = true) (hname : charByte ':' ∉ typeName)
    (hnul : 0 ∉ typeName) (hnul' : 0 ∉ fields)
    (hlen : (MuTelemetry.formatText typeName fields).length ≤ 1500) :
    ¬ Registers t typeName fields (MuTelemetry.formatText typeName fields) ∧
    Registers t typeName fields
      (MuTelemetry.printedFormat (MuTelemetry.formatText typeName fields)) ∧
    ∀ (fs : List FieldText) (last : Option FieldText), (∀ f ∈ fs ++ last.toList, f.Declared) →
      fields = fs.flatMap (fun f => f.render ++ ascii ";") ++ last.elim [] FieldText.render →
      parseFormatText (MuTelemetry.printedFormat (MuTelemetry.formatText typeName fields)) ≠
        parseFormatText (MuTelemetry.formatText typeName fields) := by
  have htext : 0 ∉ MuTelemetry.formatText typeName fields := by
    simp only [MuTelemetry.formatText, List.mem_append, not_or]
    exact ⟨⟨hnul, by decide⟩, hnul'⟩
  refine ⟨fun h => ?_, (registers_iff ht htext hlen).mpr rfl, ?_⟩
  · exact printedFormat_ne htext ((registers_iff ht htext hlen).mp h).symm
  · rintro fs last hf rfl
    rw [formatText_render]
    exact parse_printedFormat_ne hname hf

theorem registered_format_cut_float :
    ¬ Registers (.new true false 0) (ascii "T") (ascii "float a;")
        (MuTelemetry.formatText (ascii "T") (ascii "float a;")) ∧
    parseFormatText (MuTelemetry.printedFormat
        (MuTelemetry.formatText (ascii "T") (ascii "float a;"))) ≠
      parseFormatText (MuTelemetry.formatText (ascii "T") (ascii "float a;")) := by
  have h : _ := registered_format_cut (t := .new true false 0) rfl
    (show charByte ':' ∉ ascii "T" by decide) (by decide)
    (show 0 ∉ ascii "float a;" by decide) (by decide)
  refine ⟨h.1, h.2.2 [⟨ascii "float", none, ascii "a"⟩] none (fun f hf => ?_) (by decide)⟩
  obtain rfl : f = ⟨ascii "float", none, ascii "a"⟩ := by simpa using hf
  exact ⟨by decide, by decide, nofun⟩

/-- `T:uint64_t timestamp;float a;` -/
theorem registered_float : ¬ ∀ (t : MuTelemetry) typeName fields, t.isEnabled = true →
    charByte ':' ∉ typeName → 0 ∉ typeName → 0 ∉ fields →
    (MuTelemetry.formatText typeName fields).length ≤ 1500 →
    Registers t typeName fields (MuTelemetry.formatText typeName fields) := by
  intro h
  have hr := h (.new true false 0) (ascii "T") (ascii "float a;") rfl (by decide) (by decide)
    (by decide) (by decide)
  exact absurd ((registers_iff rfl (by decide) (by decide)).mp hr) (by decide)

end Mutelemetry.Stream
