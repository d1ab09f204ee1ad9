import Mutelemetry.Parse.Grammar

/-!
# What a format says

`FieldText.field` is the field that the text of one stands for, `FieldText.read`
the one that `parse_format` makes of it. They differ where the name of another
format begins with that of a primitive type.
-/

namespace Mutelemetry.Parse

open ByteString Stateful Ulog

-- ---------------------------------------------------------------------------
-- Sizes
-- ---------------------------------------------------------------------------

theorem toInt_digit (hc : c.isDigit = true) :
    (charByte c).toInt8.toInt - 48 = ((c.toNat - '0'.toNat : Nat) : Int) := by
  have hall : ∀ n, n < 58 → 48 ≤ n → (UInt8.ofNat n).toInt8.toInt - 48 = ((n - 48 : Nat) : Int) := by
    decide
  obtain ⟨hlo, hhi⟩ := Char.isDigit_iff_toNat.mp hc
  exact hall c.toNat (Nat.lt_succ_of_le hhi) hlo

theorem digit_ne_bracket (hc : c.isDigit = true) : charByte c ≠ charByte ']' := by
  intro heq
  have hdigit := toInt_digit hc
  have hbracket : (charByte ']').toInt8.toInt = 93 := by decide
  obtain ⟨hlo, hhi⟩ : 48 ≤ c.toNat ∧ c.toNat ≤ 57 := Char.isDigit_iff_toNat.mp hc
  have hzero : '0'.toNat = 48 := rfl
  rw [heq, hbracket, hzero] at hdigit
  omega

theorem le_ofDigitChars (cs : List Char) (n : Nat) : n ≤ Nat.ofDigitChars 10 cs n := by
  induction cs generalizing n with
  | nil => simp
  | cons c cs ih =>
    rw [Nat.ofDigitChars_cons]
    exact le_trans (by omega) (ih _)

theorem parseDigits_digits (hcs : ∀ c ∈ cs, c.isDigit = true)
    (hlt : Nat.ofDigitChars 10 cs n < 2 ^ 31) :
    parseDigits (cs.map charByte ++ [charByte ']']) n = .ok (Nat.ofDigitChars 10 cs n) := by
  induction cs generalizing n with
  | nil => simp [parseDigits]
  | cons c cs ih =>
    rw [List.forall_mem_cons] at hcs
    rw [Nat.ofDigitChars_cons] at hlt
    have hle := le_ofDigitChars cs (10 * n + (c.toNat - '0'.toNat))
    have hnext : (10 * (n : Int) + (charByte c).toInt8.toInt - 48).bmod (2 ^ 32) =
        ((10 * n + (c.toNat - '0'.toNat) : Nat) : Int) := by
      have hdigit := toInt_digit hcs.1
      rw [Int.bmod_def]
      split <;> omega
    rw [List.map_cons, List.cons_append, parseDigits, if_neg (digit_ne_bracket hcs.1), hnext,
      ih hcs.2 hlt, Nat.ofDigitChars_cons]

theorem parseArraySize_decimal (h : n < 2 ^ 31) :
    parseArraySize (ascii "[" ++ decimal n ++ ascii "]") = .ok (n : Int) := by
  obtain ⟨c, cs, hcs⟩ := List.exists_cons_of_ne_nil (Nat.toDigits_ne_nil (n := n) (b := 10))
  have hdigits : ∀ d ∈ c :: cs, d.isDigit = true := fun d hd =>
    Nat.isDigit_of_mem_toDigits (by decide) (by decide) (hcs ▸ hd)
  rw [List.forall_mem_cons] at hdigits
  have hn : Nat.ofDigitChars 10 cs (c.toNat - '0'.toNat) = n := by
    have hall := Nat.ofDigitChars_ten_toDigits (n := n)
    rwa [hcs, Nat.ofDigitChars_cons, Nat.mul_zero, Nat.zero_add] at hall
  have hview : ascii "[" ++ decimal n ++ ascii "]" =
      charByte '[' :: charByte c :: (cs.map charByte ++ [charByte ']']) := by
    simp [decimal, hcs, ascii]
  rw [hview, parseArraySize, if_pos rfl, toInt_digit hdigits.1,
    parseDigits_digits hdigits.2 (by rwa [hn]), hn]

theorem parseArraySize_size {f : FieldText} (h : ∀ n ∈ f.arraySize, n < 2 ^ 31) :
    parseArraySize f.sizeText = .ok ((f.arraySize.getD 1 : Nat) : Int) := by
  unfold FieldText.sizeText
  cases hsize : f.arraySize with
  | none => rfl
  | some n => exact parseArraySize_decimal (h n hsize)

-- ---------------------------------------------------------------------------
-- Fields
-- ---------------------------------------------------------------------------

namespace FieldText

def field (f : FieldText) : Field :=
  match primitiveTypes.lookup f.typeName with
  | some type => ⟨type, f.fieldName, [], f.arraySize.getD 1⟩
  | none => ⟨.other, f.fieldName, f.typeName, f.arraySize.getD 1⟩

/-- The field that is made of it. Behind a primitive name that the type only
begins with stands no size. -/
def read (f : FieldText) : Field :=
  match primitiveTypes.find? (·.1.isPrefixOf f.typeName) with
  | some (name, type) => ⟨type, f.fieldName, [],
    (if name = f.typeName then f.arraySize.getD 1 else 1 : Nat)⟩
  | none => ⟨.other, f.fieldName, f.typeName, f.arraySize.getD 1⟩

end FieldText

/-- The name of another format that is taken for a primitive type. -/
def Misread (typeName : Bytes) : Prop :=
  ∃ e ∈ primitiveTypes, e.1 <+: typeName ∧ e.1 ≠ typeName

instance : Decidable (Misread typeName) := List.decidableBEx _ _

section
variable {f : FieldText}

/-- Behind a primitive name that the type only begins with no size is read. -/
theorem parseArraySize_drop (h : f.WellFormed) (hsize : ∀ n ∈ f.arraySize, n < 2 ^ 31)
    (hpre : name <+: f.typeName) : parseArraySize (f.typeName.drop name.length ++ f.sizeText) =
      .ok (if name = f.typeName then f.arraySize.getD 1 else 1 : Nat) := by
  obtain ⟨rest, hrest⟩ := hpre
  rw [← hrest, List.drop_left]
  cases rest with
  | nil =>
    rw [List.append_nil, if_pos rfl, List.nil_append]
    exact parseArraySize_size hsize
  | cons c rest =>
    have hc : c ≠ charByte '[' := fun heq => h.typeName.2.2.2.1 (hrest ▸ by simp [heq])
    rw [if_neg (by simp)]
    exact if_neg hc

theorem parseField_read (h : f.WellFormed) (hsize : ∀ n ∈ f.arraySize, n < 2 ^ 31) :
    parseField f.render = .ok f.read := by
  simp only [parseField, splitString_render h, FieldText.read]
  cases hfind : primitiveTypes.find? (·.1.isPrefixOf f.typeName) with
  | some found =>
    obtain ⟨name, type⟩ := found
    have hfound := List.find?_some hfind
    have hdrop := parseArraySize_drop h hsize (List.isPrefixOf_iff_prefix.mp hfound)
    simp only [parseType_primitive hfind, ok_bind, hdrop]
    rfl
  | none =>
    obtain ⟨view, htype, hview⟩ := parseType_other h hfind
    simp only [htype, ok_bind, hview, parseArraySize_size hsize]
    rfl

theorem lookup_primitive : ∀ e ∈ primitiveTypes, primitiveTypes.lookup e.1 = some e.2 := by decide

/-- A name is read as it stands, unless it is taken for a primitive type. -/
theorem read_eq_field (h : ¬ Misread f.typeName) : f.read = f.field := by
  unfold FieldText.read FieldText.field
  cases hfind : primitiveTypes.find? (·.1.isPrefixOf f.typeName) with
  | some found =>
    have hmem := List.mem_of_find?_eq_some hfind
    have hfound := List.find?_some hfind
    have hname : found.1 = f.typeName := by
      by_contra hne
      exact h ⟨found, hmem, List.isPrefixOf_iff_prefix.mp hfound, hne⟩
    have hlookup := lookup_primitive found hmem
    rw [hname] at hlookup
    simp only [hlookup, hname, if_true]
  | none =>
    have hlookup : primitiveTypes.lookup f.typeName = none := by
      refine List.lookup_eq_none_iff.mpr fun e he => ?_
      have hno := List.find?_eq_none.mp hfind e he
      simpa using fun heq : f.typeName = e.1 =>
        hno (List.isPrefixOf_iff_prefix.mpr (heq ▸ List.prefix_rfl))
    simp only [hlookup]

theorem Misread.type (h : Misread f.typeName) : f.read.type ≠ .other ∧ f.field.type = .other := by
  obtain ⟨e, he, hpre, hne⟩ := h
  constructor
  · unfold FieldText.read
    cases hfind : primitiveTypes.find? (·.1.isPrefixOf f.typeName) with
    | some found =>
      exact (show ∀ e ∈ primitiveTypes, e.2 ≠ .other by decide) _ (List.mem_of_find?_eq_some hfind)
    | none =>
      exact absurd (List.isPrefixOf_iff_prefix.mpr hpre) (List.find?_eq_none.mp hfind e he)
  · have hlookup : primitiveTypes.lookup f.typeName = none := by
      refine List.lookup_eq_none_iff.mpr fun e' he' => ?_
      have hapart : ∀ e ∈ primitiveTypes, ∀ e' ∈ primitiveTypes, e.1.isPrefixOf e'.1 = true →
          e.1 = e'.1 := by decide
      simpa using fun heq : f.typeName = e'.1 =>
        hne ((hapart e he e' he' (List.isPrefixOf_iff_prefix.mpr (heq ▸ hpre))).trans heq.symm)
    simp only [FieldText.field, hlookup]

end

-- ---------------------------------------------------------------------------
-- Formats
-- ---------------------------------------------------------------------------

/-- `name:field;field;…`, with a ';' behind all fields but perhaps the last. -/
def renderFormat (name : Bytes) (fields : List FieldText) (last : Option FieldText) : Bytes :=
  name ++ ascii ":" ++ (fields.flatMap (fun f => f.render ++ ascii ";") ++
    last.elim [] FieldText.render)

def formatWith (name : Bytes) (fields : List Field) : Format :=
  ⟨name, fields.filter (!·.isTimestamp)⟩

theorem parseFormatText_read {fields : List FieldText} {last : Option FieldText}
    (hname : charByte ':' ∉ name)
    (hf : ∀ f ∈ fields ++ last.toList, f.WellFormed ∧ ∀ n ∈ f.arraySize, n < 2 ^ 31) :
    parseFormatText (renderFormat name fields last) =
      .ok (some (formatWith name ((fields ++ last.toList).map FieldText.read))) := by
  have hfields : ∀ fs : List FieldText, (∀ f ∈ fs, f.WellFormed ∧ ∀ n ∈ f.arraySize, n < 2 ^ 31) →
      (fs.map FieldText.render).mapM parseField = .ok (fs.map FieldText.read) := by
    intro fs hfs
    induction fs with
    | nil => rfl
    | cons f fs ih =>
      rw [List.forall_mem_cons] at hfs
      rw [List.map_cons, List.mapM_cons, parseField_read hfs.1.1 hfs.1.2, ok_bind, ih hfs.2]
      rfl
  have htext : renderFormat name fields last = name ++ charByte ':' ::
      (fields.flatMap (fun f => f.render ++ ascii ";") ++ last.elim [] FieldText.render) := by
    simp [renderFormat, ascii]
  rw [parseFormatText, htext, if_pos (by simp), takeWhile_of_notMem hname,
    dropWhile_of_notMem hname, List.tail_cons, splitString_fields fun f hmem => (hf f hmem).1,
    hfields _ hf]
  rfl

/-- The fields of other formats are fewer when some are misread. -/
theorem formatWith_read_iff {fs : List FieldText} :
    formatWith name (fs.map FieldText.read) = formatWith name (fs.map FieldText.field) ↔
      ∀ f ∈ fs, ¬ Misread f.typeName := by
  constructor
  · intro h
    have hcount : ∀ g : FieldText → Field, ((formatWith name (fs.map g)).fields.countP
        fun field => field.type = .other) = fs.countP fun f => (g f).type = .other := by
      intro g
      rw [formatWith, List.countP_filter, List.countP_map]
      refine List.countP_congr fun f _ => ?_
      by_cases hother : (g f).type = .other
      · simp [Field.isTimestamp, hother]
      · simp [hother]
    have hle : ∀ f : FieldText, decide (f.read.type = .other) = true →
        decide (f.field.type = .other) = true := by
      intro f hf
      have hother : f.read.type = .other := by simpa using hf
      rw [← read_eq_field fun hmis => hmis.type.1 hother]
      exact hf
    -- of two filters, one within the other, with as many members
    have heq := congrArg (fun format => format.fields.countP fun field => field.type = .other) h
    simp only [hcount, List.countP_eq_length_filter] at heq
    have hsame := (List.monotone_filter_right fs hle).eq_of_length heq
    intro f hf hmis
    have hmem : f ∈ fs.filter fun f => f.field.type = .other :=
      List.mem_filter.mpr ⟨hf, by simpa using hmis.type.2⟩
    rw [← hsame] at hmem
    exact hmis.type.1 (by simpa using (List.mem_filter.mp hmem).2)
  · intro h
    rw [List.map_congr_left fun f hf => read_eq_field (h f hf)]

-- ---------------------------------------------------------------------------
-- Identifiers
-- ---------------------------------------------------------------------------

def isLetter (c : UInt8) : Bool :=
  charByte 'a' ≤ c && c ≤ charByte 'z' || charByte 'A' ≤ c && c ≤ charByte 'Z' || c = charByte '_'

def isIdentifier : Bytes → Bool
  | [] => false
  | c :: cs => isLetter c && cs.all fun c => isLetter c || charByte '0' ≤ c && c ≤ charByte '9'

/-- The type and the name are identifiers, the size is a positive `int`. -/
structure FieldText.Declared (f : FieldText) : Prop where
  typeName : isIdentifier f.typeName = true
  fieldName : isIdentifier f.fieldName = true
  arraySize : ∀ n ∈ f.arraySize, 1 ≤ n ∧ n < 2 ^ 31

theorem isIdentifier_notMem (h : isIdentifier s = true)
    (hb : (isLetter b || charByte '0' ≤ b && b ≤ charByte '9') = false) : b ∉ s := by
  cases s with
  | nil => exact List.not_mem_nil
  | cons c cs =>
    simp only [isIdentifier, Bool.and_eq_true, List.all_eq_true] at h
    intro hmem
    obtain rfl | hmem := List.mem_cons.mp hmem
    · rw [h.1] at hb
      cases hb
    · cases (h.2 b hmem).symm.trans hb

theorem isIdentifier_ne_nil (h : isIdentifier s = true) : s ≠ [] := by
  rintro rfl
  cases h

theorem FieldText.Declared.wellFormed {f : FieldText} (h : f.Declared) : f.WellFormed where
  typeName := ⟨isIdentifier_ne_nil h.typeName, isIdentifier_notMem h.typeName (by decide),
    isIdentifier_notMem h.typeName (by decide), isIdentifier_notMem h.typeName (by decide),
    isIdentifier_notMem h.typeName (by decide)⟩
  fieldName := ⟨isIdentifier_ne_nil h.fieldName, isIdentifier_notMem h.fieldName (by decide),
    isIdentifier_notMem h.fieldName (by decide)⟩

/-- The text is taken, its format is stored under its name, and the others are left alone. -/
def Defines (p : MutelemetryParser) (text : Bytes) (format : Format) : Prop :=
  ∃ q, (parse (frame .F text) 0).run p = .ok true q ∧ q.state = .definition ∧
    q.formats.lookup format.name = some format ∧
    ∀ name ≠ format.name, q.formats.lookup name = p.formats.lookup name

theorem defines_iff {p : MutelemetryParser} {format : Format} (hs : p.state = .definition)
    (hf : parseFormatText text = .ok (some format)) (hsize : text.length < 2 ^ 16) (format' : Format)
    (hname : format'.name = format.name) : Defines p text format' ↔ format = format' := by
  have hrun := run_parse_F hs hf hsize
  constructor
  · rintro ⟨q, hq, -, hl, -⟩
    rw [hrun] at hq
    cases hq
    rw [hname, AList.lookup_insert] at hl
    exact Option.some.inj hl
  · rintro rfl
    exact ⟨_, hrun, rfl, AList.lookup_insert _, fun _ hne => AList.lookup_insert_ne hne⟩

/-- The text of a format, parsed, gives its fields if and only if no type among
them is named like a primitive one with more behind it. -/
theorem parse_inverts_iff {p : MutelemetryParser} {fields : List FieldText} {last : Option FieldText}
    (hs : p.state = .definition) (hname : charByte ':' ∉ name)
    (hf : ∀ f ∈ fields ++ last.toList, f.Declared)
    (hsize : (renderFormat name fields last).length < 2 ^ 16) :
    Defines p (renderFormat name fields last)
        (formatWith name ((fields ++ last.toList).map FieldText.field)) ↔
      ∀ f ∈ fields ++ last.toList, ¬ Misread f.typeName := by
  have hparse := parseFormatText_read hname fun f hmem =>
    ⟨(hf f hmem).wellFormed, fun n hn => ((hf f hmem).arraySize n hn).2⟩
  rw [defines_iff hs hparse hsize
    (formatWith name ((fields ++ last.toList).map FieldText.field)) rfl]
  exact formatWith_read_iff

def definitionSection : MutelemetryParser := { MutelemetryParser.new with state := .definition }

def innerFields : List FieldText :=
  [⟨ascii "Inner", some 12, ascii "b"⟩, ⟨ascii "float", none, ascii "a"⟩]

theorem parse_inverts_iff_inner :
    Defines definitionSection (renderFormat (ascii "T") innerFields none)
        (formatWith (ascii "T") ((innerFields ++ none.toList).map FieldText.field)) ↔
      ∀ f ∈ innerFields ++ none.toList, ¬ Misread f.typeName := by
  refine parse_inverts_iff rfl (by decide) (fun f hf => ?_) (by decide)
  simp only [innerFields, Option.toList_none, List.append_nil, List.mem_cons, List.not_mem_nil,
    or_false] at hf
  obtain rfl | rfl := hf
  · exact ⟨by decide, by decide, by simp⟩
  · exact ⟨by decide, by decide, by simp⟩

def misreadField : FieldText := ⟨ascii "double_vec", none, ascii "a"⟩

theorem misread_defined : ¬ ∀ (p : MutelemetryParser) name (fields : List FieldText),
    p.state = .definition → charByte ':' ∉ name → (∀ f ∈ fields, f.Declared) →
    (renderFormat name fields none).length < 2 ^ 16 →
    Defines p (renderFormat name fields none) (formatWith name (fields.map FieldText.field)) := by
  intro h
  have hd : misreadField.Declared := ⟨by decide, by decide, nofun⟩
  have hdefines := h definitionSection (ascii "T") [misreadField] rfl (by decide) (by simpa using hd)
    (by decide)
  have hparse : parseFormatText (renderFormat (ascii "T") [misreadField] none) =
      .ok (some ⟨ascii "T", [⟨.double, ascii "a", [], 1⟩]⟩) := by decide
  have heq := (defines_iff rfl hparse (by decide)
    (formatWith (ascii "T") ([misreadField].map FieldText.field)) rfl).mp hdefines
  exact absurd heq (by decide)

end Mutelemetry.Parse
