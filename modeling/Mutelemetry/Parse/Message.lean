import Mathlib.Data.List.Find
import Mutelemetry.Parse.Tree

/-!
# Well-formed messages

What a message of each type holds when its payload is well-formed, stated
without the functions that read it. A D message is judged by the parser it
comes to: only a subscription says what its values are.
-/

namespace Mutelemetry.Parse

open ByteString Stateful Ulog

-- ---------------------------------------------------------------------------
-- The text of a format
-- ---------------------------------------------------------------------------

structure FieldText where
  typeName : Bytes
  arraySize : Option Nat
  fieldName : Bytes

namespace FieldText

def sizeText (f : FieldText) : Bytes :=
  match f.arraySize with
  | none => []
  | some n => ascii "[" ++ decimal n ++ ascii "]"

def render (f : FieldText) : Bytes := f.typeName ++ f.sizeText ++ ascii " " ++ f.fieldName

structure WellFormed (f : FieldText) : Prop where
  typeName : f.typeName ≠ [] ∧ charByte ' ' ∉ f.typeName ∧ charByte ';' ∉ f.typeName ∧
    charByte '[' ∉ f.typeName ∧ charByte ']' ∉ f.typeName
  fieldName : f.fieldName ≠ [] ∧ charByte ' ' ∉ f.fieldName ∧ charByte ';' ∉ f.fieldName

end FieldText

/-- `name:field;field;…`, with a ';' behind the last field or without. -/
def IsFormatText (text : Bytes) : Prop :=
  ∃ (name : Bytes) (fields : List FieldText) (last : Bytes), charByte ':' ∉ name ∧ (∀ f ∈ fields, f.WellFormed) ∧
    (last = [] ∨ ∃ f : FieldText, f.WellFormed ∧ last = f.render) ∧
    text = name ++ ascii ":" ++ (fields.flatMap (fun f => f.render ++ ascii ";") ++ last)

section
variable {d : UInt8} {s rest : Bytes}

theorem splitString_append (h : d ∉ s) (rest : Bytes) :
    splitString d (s ++ d :: rest) = s :: splitString d rest := by
  induction s with
  | nil => simp [splitString]
  | cons c s ih =>
    rw [List.mem_cons, not_or] at h
    rw [List.cons_append, splitString, if_neg (Ne.symm h.1), ih h.2]

theorem splitString_self (h : d ∉ s) (hne : s ≠ []) : splitString d s = [s] := by
  rw [splitString_eq d s hne]
  have hall : ∀ c ∈ s, decide (c ≠ d) = true := by
    intro c hc
    simpa using fun heq : c = d => h (heq ▸ hc)
  rw [List.takeWhile_eq_self_iff.mpr hall, List.dropWhile_eq_nil_iff.mpr hall]
  rfl

end

theorem parseDigits_of_mem (h : charByte ']' ∈ view) (arraySize : Int) :
    ∃ n, parseDigits view arraySize = .ok n := by
  induction view generalizing arraySize with
  | nil => cases h
  | cons c view ih =>
    rw [parseDigits]
    split
    · exact ⟨_, rfl⟩
    · rename_i hc
      exact ih ((List.mem_cons.mp h).resolve_left fun heq => hc heq.symm) _

theorem parseArraySize_sizeText (f : FieldText) : ∃ n, parseArraySize f.sizeText = .ok n := by
  unfold FieldText.sizeText
  cases f.arraySize with
  | none => exact ⟨1, rfl⟩
  | some n =>
    obtain ⟨digit, digits, hdigits⟩ := List.exists_cons_of_ne_nil (decimal_ne_nil n)
    have hmem : charByte ']' ∈ digits ++ ascii "]" := by simp [ascii]
    simp only [hdigits]
    exact parseDigits_of_mem hmem _

theorem parseArraySize_append (h : charByte '[' ∉ s) (f : FieldText) :
    ∃ n, parseArraySize (s ++ f.sizeText) = .ok n := by
  cases s with
  | nil => exact parseArraySize_sizeText f
  | cons c s =>
    have hc : c ≠ charByte '[' := fun heq => h (heq ▸ List.mem_cons_self)
    exact ⟨1, if_neg hc⟩

theorem FieldText.sizeText_eq (f : FieldText) : f.sizeText = [] ∨ ∃ digits,
    charByte '[' ∉ digits ∧ f.sizeText = charByte '[' :: (digits ++ [charByte ']']) := by
  unfold sizeText
  cases f.arraySize with
  | none => exact .inl rfl
  | some n =>
    refine .inr ⟨decimal n, fun hmem => ?_, rfl⟩
    exact absurd (digit_of_mem_decimal hmem).2 (by decide)

theorem prefix_typeName {f : FieldText} (h : name <+: f.typeName ++ f.sizeText)
    (hname : charByte '[' ∉ name) : name <+: f.typeName := by
  obtain hp | ⟨rest, rfl⟩ := List.prefix_or_prefix_of_prefix h (List.prefix_append _ _)
  · exact hp
  · rw [List.prefix_append_right_inj] at h
    obtain hs | ⟨digits, -, hs⟩ := f.sizeText_eq
    · rw [hs, List.prefix_nil] at h
      rw [h, List.append_nil]
    · rw [hs, List.prefix_cons_iff] at h
      obtain rfl | ⟨rest, rfl, -⟩ := h
      · rw [List.append_nil]
      · exact absurd (List.mem_append_right _ List.mem_cons_self) hname

/-- A primitive name has no bracket, so the array size plays no part in the tests. -/
theorem find?_typeName (f : FieldText) :
    primitiveTypes.find? (·.1.isPrefixOf (f.typeName ++ f.sizeText)) =
      primitiveTypes.find? (·.1.isPrefixOf f.typeName) := by
  refine List.find?_congr fun e he => ?_
  have hopen : charByte '[' ∉ e.1 :=
    (show ∀ e ∈ primitiveTypes, charByte '[' ∉ e.1 by decide) e he
  rw [Bool.eq_iff_iff, List.isPrefixOf_iff_prefix, List.isPrefixOf_iff_prefix]
  exact ⟨fun h => prefix_typeName h hopen, fun h => h.trans (List.prefix_append _ _)⟩

theorem parseType_primitive {f : FieldText}
    (hfind : primitiveTypes.find? (·.1.isPrefixOf f.typeName) = some (name, type)) :
    parseType (f.typeName ++ f.sizeText) =
      .ok (type, [], f.typeName.drop name.length ++ f.sizeText) := by
  have hfound := List.find?_some hfind
  have hpre := List.isPrefixOf_iff_prefix.mp hfound
  simp only [parseType, find?_typeName, hfind, List.drop_append_of_le_length hpre.length_le]

theorem parseType_other {f : FieldText} (h : f.WellFormed)
    (hfind : primitiveTypes.find? (·.1.isPrefixOf f.typeName) = none) :
    ∃ view, parseType (f.typeName ++ f.sizeText) = .ok (.other, f.typeName, view) ∧
      parseArraySize view = parseArraySize f.sizeText := by
  obtain ⟨⟨hne, -, -, hopen, hclose⟩, -⟩ := h
  simp only [parseType, find?_typeName, hfind]
  obtain hs | ⟨digits, hdigits, hs⟩ := f.sizeText_eq
  · have hlast : f.typeName.getLast? ≠ some (charByte ']') := fun h => hclose (List.mem_of_getLast? h)
    rw [hs, List.append_nil, if_neg hlast]
    refine ⟨_, rfl, ?_⟩
    obtain ⟨c, s, hs⟩ := List.exists_cons_of_ne_nil hne
    have hc : c ≠ charByte '[' := fun heq => hopen (heq ▸ hs ▸ List.mem_cons_self)
    rw [hs]
    exact if_neg hc
  · have hlast : (f.typeName ++ f.sizeText).getLast? = some (charByte ']') := by
      rw [hs, ← List.cons_append, ← List.append_assoc, List.getLast?_concat]
    have hmem : charByte '[' ∈ f.typeName ++ f.sizeText := by simp [hs]
    have hview : (f.typeName ++ f.sizeText).dropWhile (· ≠ charByte '[') = f.sizeText := by
      rw [hs]
      exact dropWhile_of_notMem hopen _
    -- the last '[' is the one the size begins with
    have hhelper : (f.typeName ++ f.sizeText).reverse.dropWhile (· ≠ charByte '[') =
        charByte '[' :: f.typeName.reverse := by
      have hrev : (f.typeName ++ f.sizeText).reverse =
          (charByte ']' :: digits.reverse) ++ charByte '[' :: f.typeName.reverse := by
        rw [hs]
        simp
      rw [hrev, dropWhile_of_notMem]
      rw [List.mem_cons, List.mem_reverse, not_or]
      exact ⟨by decide, hdigits⟩
    rw [if_pos hlast, if_pos hmem, hview, hhelper, List.reverse_cons, List.reverse_reverse,
      List.dropLast_concat]
    exact ⟨_, rfl, rfl⟩

theorem parseType_ok {f : FieldText} (h : f.WellFormed) :
    ∃ type otherTypeId view n, parseType (f.typeName ++ f.sizeText) = .ok (type, otherTypeId, view) ∧
      parseArraySize view = .ok n := by
  cases hfind : primitiveTypes.find? (·.1.isPrefixOf f.typeName) with
  | some found =>
    obtain ⟨name, type⟩ := found
    obtain ⟨n, hn⟩ := parseArraySize_append
      (fun hmem => h.typeName.2.2.2.1 (List.mem_of_mem_drop hmem)) f
    exact ⟨_, _, _, n, parseType_primitive hfind, hn⟩
  | none =>
    obtain ⟨view, htype, hview⟩ := parseType_other h hfind
    obtain ⟨n, hn⟩ := parseArraySize_sizeText f
    exact ⟨_, _, view, n, htype, hview.trans hn⟩

theorem FieldText.notMem_typeText {f : FieldText} (h : b ∉ f.typeName) (hopen : b ≠ charByte '[')
    (hclose : b ≠ charByte ']') (hdigit : b.toNat < 48 ∨ 57 < b.toNat) :
    b ∉ f.typeName ++ f.sizeText := by
  rw [List.mem_append, not_or]
  refine ⟨h, ?_⟩
  unfold sizeText
  cases f.arraySize with
  | none => simp
  | some n =>
    have hn : b ∉ decimal n := fun hmem => by
      have := digit_of_mem_decimal hmem
      omega
    simp [ascii, hopen, hclose, hn]

theorem splitString_render {f : FieldText} (h : f.WellFormed) :
    splitString (charByte ' ') f.render = [f.typeName ++ f.sizeText, f.fieldName] := by
  have hspace := FieldText.notMem_typeText h.typeName.2.1 (by decide) (by decide) (by decide)
  have happend : f.render = (f.typeName ++ f.sizeText) ++ charByte ' ' :: f.fieldName := by
    simp [FieldText.render, ascii]
  rw [happend, splitString_append hspace, splitString_self h.fieldName.2.1 h.fieldName.1]

theorem parseField_render {f : FieldText} (h : f.WellFormed) :
    ∃ field, parseField f.render = .ok field := by
  obtain ⟨type, otherTypeId, view, n, htype, hsize⟩ := parseType_ok h
  refine ⟨⟨type, f.fieldName, otherTypeId, n⟩, ?_⟩
  simp only [parseField, splitString_render h, htype, ok_bind, hsize]
  rfl

theorem FieldText.notMem_render {f : FieldText} (h : f.WellFormed) : charByte ';' ∉ f.render := by
  have htype := FieldText.notMem_typeText h.typeName.2.2.1 (by decide) (by decide) (by decide)
  rw [render, List.append_assoc, List.mem_append, not_or]
  refine ⟨htype, ?_⟩
  rw [List.mem_append, not_or]
  exact ⟨by decide, h.fieldName.2.2⟩

theorem FieldText.render_ne_nil (f : FieldText) : f.render ≠ [] := by
  simp [render, ascii]

theorem splitString_fields {fields : List FieldText} {last : Option FieldText}
    (hf : ∀ f ∈ fields ++ last.toList, f.WellFormed) : splitString (charByte ';')
      (fields.flatMap (fun f => f.render ++ ascii ";") ++ last.elim [] FieldText.render) =
        (fields ++ last.toList).map FieldText.render := by
  induction fields with
  | nil =>
    cases last with
    | none => rfl
    | some f => exact splitString_self (FieldText.notMem_render (hf f (by simp))) f.render_ne_nil
  | cons f fields ih =>
    rw [List.cons_append, List.forall_mem_cons] at hf
    have happend : (f :: fields).flatMap (fun f => f.render ++ ascii ";") ++
        last.elim [] FieldText.render = f.render ++ charByte ';' ::
          (fields.flatMap (fun f => f.render ++ ascii ";") ++ last.elim [] FieldText.render) := by
      simp [ascii]
    rw [happend, splitString_append (FieldText.notMem_render hf.1), ih hf.2, List.cons_append,
      List.map_cons]

theorem IsFormatText.parse (h : IsFormatText text) : ∃ format, parseFormatText text = .ok (some format) := by
  obtain ⟨name, fields, last, hname, hf, hlast, rfl⟩ := h
  obtain ⟨l, hl, rfl⟩ : ∃ l : Option FieldText, (∀ f ∈ l.toList, f.WellFormed) ∧
      last = l.elim [] FieldText.render := by
    obtain rfl | ⟨f, hwf, rfl⟩ := hlast
    · exact ⟨none, by simp, rfl⟩
    · exact ⟨some f, by simpa using hwf, rfl⟩
  have hall : ∀ f ∈ fields ++ l.toList, f.WellFormed := List.forall_mem_append.mpr ⟨hf, hl⟩
  obtain ⟨fields', hfields⟩ :
      ∃ fields', ((fields ++ l.toList).map FieldText.render).mapM parseField = .ok fields' := by
    refine mapM_ok_iff.mpr (List.forall_mem_map.mpr fun f hf => ?_)
    exact parseField_render (hall f hf)
  have hbody (rest : Bytes) :
      ((name ++ ascii ":" ++ rest).dropWhile (· ≠ charByte ':')).tail = rest := by
    rw [List.append_assoc]
    exact congrArg List.tail (dropWhile_of_notMem hname rest)
  unfold parseFormatText
  rw [if_pos (by simp [ascii]), hbody, splitString_fields hall, hfields]
  exact ⟨_, rfl⟩

-- ---------------------------------------------------------------------------
-- The texts that are read
-- ---------------------------------------------------------------------------

/-- An array size that begins has an end, which is not its first character. -/
def SizeEnds (view : Bytes) : Prop :=
  view.head? = some (charByte '[') → charByte ']' ∈ view.drop 2

/-- The array size is what follows a primitive name. The name of another format
lasts up to the last '[' when the text ends with ']'. -/
def TypeText (fieldType : Bytes) : Prop :=
  match primitiveTypes.find? (·.1.isPrefixOf fieldType) with
  | some (name, _) => SizeEnds (fieldType.drop name.length)
  | none =>
    if fieldType.getLast? = some (charByte ']') then
      charByte '[' ∈ fieldType ∧ SizeEnds (fieldType.dropWhile (· ≠ charByte '['))
    else SizeEnds fieldType

def FieldSection (fieldSection : Bytes) : Prop :=
  ∃ fieldType fieldName more,
    splitString (charByte ' ') fieldSection = fieldType :: fieldName :: more ∧ TypeText fieldType

def FormatSections (text : Bytes) : Prop :=
  charByte ':' ∈ text ∧
    ∀ s ∈ splitString (charByte ';') (text.dropWhile (· ≠ charByte ':')).tail, FieldSection s

theorem parseDigits_iff : (∃ n, parseDigits view arraySize = .ok n) ↔ charByte ']' ∈ view := by
  constructor
  · rintro ⟨n, h⟩
    induction view generalizing arraySize with
    | nil => cases h
    | cons c view ih =>
      rw [parseDigits] at h
      split at h
      · rename_i hc
        exact hc ▸ List.mem_cons_self
      · exact List.mem_cons_of_mem _ (ih h)
  · exact fun h => parseDigits_of_mem h arraySize

theorem parseArraySize_iff : (∃ n, parseArraySize view = .ok n) ↔ SizeEnds view := by
  match view with
  | [] => simp [parseArraySize, SizeEnds]
  | [c] =>
    by_cases hc : c = charByte '['
    · simp [parseArraySize, SizeEnds, hc]
    · simp [parseArraySize, SizeEnds, hc]
  | c :: digit :: view =>
    by_cases hc : c = charByte '['
    · simpa [parseArraySize, SizeEnds, hc] using parseDigits_iff
    · simp [parseArraySize, SizeEnds, hc]

theorem parseType_iff : (∃ type otherTypeId view n,
    parseType fieldType = .ok (type, otherTypeId, view) ∧ parseArraySize view = .ok n) ↔
      TypeText fieldType := by
  unfold parseType TypeText
  cases primitiveTypes.find? (·.1.isPrefixOf fieldType) with
  | some found => simp [parseArraySize_iff]
  | none =>
    by_cases hclose : fieldType.getLast? = some (charByte ']')
    · by_cases hopen : charByte '[' ∈ fieldType
      · simp [hclose, hopen, parseArraySize_iff]
      · simp [hclose, hopen]
    · simp [hclose, parseArraySize_iff]

theorem parseField_iff (s : Bytes) : (∃ field, parseField s = .ok field) ↔ FieldSection s := by
  unfold parseField FieldSection
  split
  · rename_i fieldType fieldName more hsplit
    constructor
    · rintro ⟨field, h⟩
      obtain ⟨⟨type, otherTypeId, view⟩, htype, h⟩ := bind_eq_ok.mp h
      obtain ⟨n, hsize, -⟩ := bind_eq_ok.mp h
      exact ⟨fieldType, fieldName, more, hsplit, parseType_iff.mp ⟨_, _, _, _, htype, hsize⟩⟩
    · rintro ⟨fieldType', fieldName', more', h, htext⟩
      obtain ⟨rfl, -⟩ := List.cons.inj (hsplit.symm.trans h)
      obtain ⟨type, otherTypeId, view, n, htype, hsize⟩ := parseType_iff.mpr htext
      refine ⟨⟨type, fieldName, otherTypeId, n⟩, ?_⟩
      simp only [htype, ok_bind, hsize]
      rfl
  · rename_i hsplit
    simp only [reduceCtorEq, exists_false, false_iff]
    rintro ⟨fieldType, fieldName, more, h, -⟩
    exact hsplit _ _ _ h

/-- `parse_format` takes a text if and only if it has these sections. -/
theorem parseFormatText_iff :
    (∃ format, parseFormatText text = .ok (some format)) ↔ FormatSections text := by
  unfold parseFormatText FormatSections
  split
  · rename_i hcolon
    simp only [hcolon, true_and, ← parseField_iff, ← mapM_ok_iff]
    constructor
    · rintro ⟨format, h⟩
      obtain ⟨fields, hfields, -⟩ := bind_eq_ok.mp h
      exact ⟨fields, hfields⟩
    · rintro ⟨fields, hfields⟩
      rw [hfields]
      exact ⟨_, rfl⟩
  · rename_i hcolon
    simp [hcolon, pure_eq_ok]

-- ---------------------------------------------------------------------------
-- Messages
-- ---------------------------------------------------------------------------

/-- The body of a D message: of an identifier that is not subscribed, or a value
of its format, for which the series that it goes to was created. -/
inductive DataBody (p : MutelemetryParser) : Bytes → Prop
  | unsubscribed : p.subscriptions.lookup msgId = none →
    DataBody p (leBytes 2 msgId.toNat ++ rest)
  | subscribed : p.subscriptions.lookup msgId = some sub → sub.format = some name →
    p.formats.lookup name = some format → Resolved p.formats name →
    Conforms p.formats format.slots t →
    (∀ timeseries, p.timeseries.lookup (p.seriesName sub) = some timeseries →
      ∃ created, createTimeseries p.formats format = .ok created ∧
        timeseries.data.map Prod.fst = created.data.map Prod.fst) →
    DataBody p (dataPayload msgId tval t)

/-- What a buffer holds: the file header, a B message with or without unknown
bits, a message of another type, or an A message and a D message behind it. -/
inductive Kind
  | fileHeader
  | flags (unknown : Bool)
  | message (type : ULogMessageType)
  | addData
  deriving DecidableEq, Repr

def Kind.type : Kind → Option ULogMessageType
  | .fileHeader => none
  | .flags _ => some .B
  | .message type => some type
  | .addData => some .A

/-- A bit of `incompat_flags` is set, other than that for appended data. -/
def unknownBits (first : UInt8) (others : Bytes) : Bool :=
  first &&& ~~~1 ≠ 0 || others.any (· ≠ 0)

inductive WellFormed (p : MutelemetryParser) : Bytes → Kind → Prop
  | fileHeader : WellFormed p (magic ++ ([version] ++ leBytes 8 timestamp)) .fileHeader
  | flags {compat others offsets : Bytes} : compat.length = 8 → others.length = 7 →
    offsets.length = 24 → WellFormed p (frame .B (compat ++ (first :: others ++ offsets)))
      (.flags (unknownBits first others))
  | info {type key value : Bytes} : charByte ' ' ∉ type → key ≠ [] →
    type.length + 1 + key.length < 256 → 1 + (type.length + 1 + key.length) + value.length < 2 ^ 16 →
    WellFormed p (frame .I ([UInt8.ofNat (type.length + 1 + key.length)] ++
      (type ++ charByte ' ' :: key ++ value))) (.message .I)
  | multi : WellFormed p (frame .M body) (.message .M)
  | format : IsFormatText text → text.length < 2 ^ 16 → WellFormed p (frame .F text) (.message .F)
  | param {type name value : Bytes} : type = ascii "int32_t" ∨ type = ascii "float" →
    type.length + 1 + name.length < 256 → value.length = 4 →
    WellFormed p (frame .P ([UInt8.ofNat (type.length + 1 + name.length)] ++
      (type ++ charByte ' ' :: name ++ value))) (.message .P)
  | add {name : Bytes} : 3 + name.length < 2 ^ 16 →
    WellFormed p (frame .A (addBody msgId multiId name)) (.message .A)
  | addData {name body : Bytes} : 3 + name.length < 2 ^ 16 → body.length < 2 ^ 16 →
    DataBody (p.subscribe (subscriptionOf p.formats msgId multiId name)) body →
    WellFormed p (frame .A (addBody msgId multiId name) ++ frame .D body) .addData
  | data : body.length < 2 ^ 16 → DataBody p body → WellFormed p (frame .D body) (.message .D)
  | logged {text : Bytes} : 1 + (8 + text.length) < 2 ^ 16 →
    WellFormed p (frame .L ([level] ++ (leBytes 8 timestamp ++ text))) (.message .L)
  | sync : WellFormed p (frame .S body) (.message .S)
  | dropout : WellFormed p (frame .O body) (.message .O)
  | remove : WellFormed p (frame .R ([lo, hi] ++ rest)) (.message .R)

-- ---------------------------------------------------------------------------
-- Reading them
-- ---------------------------------------------------------------------------

theorem WellFormed.headerType (h : WellFormed p m k) : headerType m 0 = .ok k.type := by
  cases h with
  | fileHeader => rfl
  | addData => exact headerType_frame _ _ _
  | flags | info | multi | format | param | add | data | logged | sync | dropout | remove =>
    rw [← List.append_nil (frame _ _)]
    exact headerType_frame _ _ _

theorem fetch_body (type : ULogMessageType) {body mid : Bytes} (pre post : Bytes)
    (hbody : body = pre ++ (mid ++ post)) (hpos : pos = 3 + pre.length) (hn : n = mid.length) :
    fetch (frame type body) ↑pos n = .ok mid := by
  refine fetch_at ((ULogMessageHeader.mk (.ofNat body.length) type.code).bytes ++ pre) post ?_ ?_ hn
  · rw [frame, hbody]
    simp
  · rw [List.length_append, ULogMessageHeader.length_bytes, hpos]

theorem readUInt8_body (type : ULogMessageType) (b : UInt8) {body : Bytes} (pre post : Bytes)
    (hbody : body = pre ++ ([b] ++ post)) (hpos : pos = 3 + pre.length) :
    readUInt8 (frame type body) pos = .ok b := by
  rw [readUInt8, fetch_body type pre post hbody hpos (show 1 = [b].length from rfl)]
  simp [Except.map, leNat]

section
variable {raw value : Bytes}

/-- The key is the second part of its text, the type the first. -/
theorem infoEntry_frame (hlen : keyLen.toNat = raw.length)
    (hsize : size.toNat = 1 + raw.length + value.length) :
    infoEntry (frame .I ([keyLen] ++ (raw ++ value))) 3 size =
      match splitString (charByte ' ') raw with
      | type :: key :: _ =>
        .ok (key, if (ascii "char[").isPrefixOf type then value else infoNumber type key raw)
      | _ => .error .vectorIndex := by
  have hread : readUInt8 (frame .I ([keyLen] ++ (raw ++ value))) 3 = .ok keyLen :=
    readUInt8_body .I keyLen [] _ rfl rfl
  have hraw : fetch (frame .I ([keyLen] ++ (raw ++ value))) ((3 + 1 : Nat) : Int) keyLen.toNat =
      .ok raw := fetch_body .I [keyLen] value rfl rfl hlen
  have hvalue : fetch (frame .I ([keyLen] ++ (raw ++ value))) ↑(3 + 1 + keyLen.toNat)
      (size.toNat - (keyLen.toNat + 1)) = .ok value := by
    refine fetch_body .I ([keyLen] ++ raw) [] (by simp) ?_ (by omega)
    rw [List.length_append, List.length_singleton]
    omega
  simp only [infoEntry, hread, ok_bind, hraw]
  cases splitString (charByte ' ') raw with
  | nil => rfl
  | cons type parts =>
    cases parts with
    | nil => rfl
    | cons key parts =>
      by_cases hchar : (ascii "char[").isPrefixOf type = true
      · simp only [if_pos hchar, if_neg (show ¬ size.toNat < keyLen.toNat + 1 by omega), hvalue,
          ok_bind]
        rfl
      · simp only [if_neg hchar]
        rfl

/-- The type is what stands before the first blank, the name all that stands behind it. -/
theorem readParameter_frame (hlen : keyLen.toNat = raw.length) (hvalue : value.length = 4) :
    readParameter (frame .P ([keyLen] ++ (raw ++ value))) 3 = .ok (if charByte ' ' ∉ raw then none
      else (parameterType (raw.takeWhile (· ≠ charByte ' '))).map fun valType =>
        ⟨(raw.dropWhile (· ≠ charByte ' ')).tail, .ofNat (leNat value), valType⟩) := by
  have hread : readUInt8 (frame .P ([keyLen] ++ (raw ++ value))) 3 = .ok keyLen :=
    readUInt8_body .P keyLen [] _ rfl rfl
  have hraw : fetch (frame .P ([keyLen] ++ (raw ++ value))) ((3 + 1 : Nat) : Int) keyLen.toNat =
      .ok raw := fetch_body .P [keyLen] value rfl rfl hlen
  have hfour : readUInt32 (frame .P ([keyLen] ++ (raw ++ value))) (3 + 1 + keyLen.toNat) =
      .ok (.ofNat (leNat value)) := by
    have hfetch : fetch (frame .P ([keyLen] ++ (raw ++ value))) ↑(3 + 1 + keyLen.toNat) 4 =
        .ok value := by
      refine fetch_body .P ([keyLen] ++ raw) [] (by simp) ?_ hvalue.symm
      rw [List.length_append, List.length_singleton]
      omega
    rw [readUInt32, hfetch]
    rfl
  simp only [readParameter, hread, ok_bind, hraw, hfour]
  split
  · rfl
  · cases parameterType (raw.takeWhile (· ≠ charByte ' ')) with
    | none | some => rfl

theorem readLog_frame {time text : Bytes} (level : UInt8) (htime : time.length = 8)
    (hsize : size.toNat = 1 + (8 + text.length)) :
    readLog (frame .L ([level] ++ (time ++ text))) 3 size =
      .ok ⟨level, .ofNat (leNat time), text⟩ := by
  have hlevel : readUInt8 (frame .L ([level] ++ (time ++ text))) 3 = .ok level :=
    readUInt8_body .L level [] _ rfl rfl
  have hfetch : fetch (frame .L ([level] ++ (time ++ text))) ((3 + 1 : Nat) : Int) 8 = .ok time :=
    fetch_body .L [level] text rfl rfl htime.symm
  have htext : fetch (frame .L ([level] ++ (time ++ text))) ((3 + 9 : Nat) : Int)
      (size.toNat - 9) = .ok text :=
    fetch_body .L ([level] ++ time) [] (by simp) (by simp [htime]) (by omega)
  simp only [readLog, hlevel, ok_bind, readUInt64, hfetch, Except.map, htext]
  rw [if_neg (by omega)]
  rfl

end

theorem anySet_ok {buffer : Bytes} (pre bs post : Bytes) (hbuf : buffer = pre ++ (bs ++ post)) :
    anySet buffer (List.range' pre.length bs.length) = .ok (bs.any (· ≠ 0)) := by
  induction bs generalizing pre with
  | nil => rfl
  | cons b bs ih =>
    have hread : readUInt8 buffer pre.length = .ok b :=
      readUInt8_at pre (bs ++ post) b (by simp [hbuf]) rfl
    have hrest := ih (pre ++ [b]) (by simp [hbuf])
    rw [List.length_append, List.length_singleton] at hrest
    rw [List.length_cons, List.range'_succ, anySet, hread, ok_bind, hrest]
    by_cases hb : b = 0
    · simp [hb]
    · simp [hb, pure_eq_ok]

theorem flagsState_ok {compat others offsets : Bytes} (hcompat : compat.length = 8)
    (hothers : others.length = 7) (hoffsets : offsets.length = 24) :
    flagsState (frame .B (compat ++ (first :: others ++ offsets))) 0 =
      .ok (if unknownBits first others then .invalid else .definition) := by
  have htype := headerType_frame .B (compat ++ (first :: others ++ offsets)) []
  rw [List.append_nil] at htype
  have hfirst : readUInt8 (frame .B (compat ++ (first :: others ++ offsets))) (0 + 3 + 8) =
      .ok first := readUInt8_body .B first compat (others ++ offsets) (by simp) (by omega)
  have hothers' : anySet (frame .B (compat ++ (first :: others ++ offsets)))
      ((List.range' 1 7).map (0 + 3 + 8 + ·)) = .ok (others.any (· ≠ 0)) := by
    rw [List.map_add_range']
    have h : anySet (frame .B (compat ++ (first :: others ++ offsets))) _ = _ := anySet_ok
      ((ULogMessageHeader.mk (.ofNat (compat ++ (first :: others ++ offsets)).length)
        ULogMessageType.B.code).bytes ++ (compat ++ [first])) others offsets (by simp [frame])
    simpa [hcompat, hothers] using h
  have hoffsets' : fetch (frame .B (compat ++ (first :: others ++ offsets)))
      ((0 + 3 + 16 : Nat) : Int) 24 = .ok offsets :=
    fetch_body .B (compat ++ first :: others) [] (by simp)
      (by simp only [List.length_append, List.length_cons]; omega) hoffsets.symm
  simp only [flagsState, htype, ok_bind, hfirst, hothers', hoffsets', if_true]
  unfold unknownBits
  by_cases hbits : first &&& ~~~1 = 0
  · rw [if_neg (not_not.mpr hbits), decide_eq_false (not_not.mpr hbits), Bool.false_or]
    cases others.any (· ≠ 0)
    · by_cases happended : first &&& 1 = 0
      · rw [if_neg (not_not.mpr happended)]
        rfl
      · rw [if_pos happended]
        rfl
    · rfl
  · rw [if_pos hbits, decide_eq_true hbits, Bool.true_or]
    rfl

theorem DataBody.parse (h : DataBody p body) (hsize : body.length < 2 ^ 16) (before after : Bytes) :
    ∃ q, (parseData (before ++ (body ++ after)) before.length).run p = .ok .definitionOrData q := by
  cases h with
  | unsubscribed hsub =>
    rename_i rest
    exact ⟨p, run_parseData_none (readUInt16_at before (rest ++ after) _ (by simp) rfl) hsub⟩
  | subscribed hsub hname hf hr ht hseries =>
    obtain ⟨q, hd, -⟩ := delivers_tree hname hf hr ht hsize hseries before after
    exact ⟨q, run_parseData_delivers (msgId_dataPayload before after _ _ _) hsub hd⟩

end Mutelemetry.Parse
