import Mutelemetry.Parse.Entry

/-!
# Numeric info values

The values of the nine integer types that an I message can carry, and what
`parse_info` makes of them. It reads the bytes of the key's own text in their
place, so one value of each type is told rightly, and none of `bool`.
-/

namespace Mutelemetry.Parse

open ByteString Stateful Ulog

-- ---------------------------------------------------------------------------
-- Texts of numbers
-- ---------------------------------------------------------------------------

section
variable {i j : Int} {n : Nat}

theorem minus_notMem_decimal (n : Nat) : charByte '-' ∉ decimal n := by
  intro h
  have hdigit := digit_of_mem_decimal h
  have hminus : (charByte '-').toNat = 45 := rfl
  omega

theorem intText_inj : intText i = intText j ↔ i = j := by
  constructor
  · intro h
    unfold intText at h
    split at h
    · split at h
      · have habs := decimal_inj.mp (List.cons.inj h).2
        omega
      · exact absurd (h ▸ List.mem_cons_self) (minus_notMem_decimal j.natAbs)
    · split at h
      · exact absurd (h.symm ▸ List.mem_cons_self) (minus_notMem_decimal i.natAbs)
      · have habs := decimal_inj.mp h
        omega
  · rintro rfl
    rfl

theorem numeral_zeroFilled (hb : 1 < b) (hb' : b ≤ 16) (width n : Nat) :
    numeral b (zeroFilled b width n) = n := by
  simp only [zeroFilled, numeral_zeros, numeral_toDigits hb hb']

theorem intToHex_inj {i j : UInt32} : intToHex i = intToHex j ↔ i = j := by
  constructor
  · intro h
    have hdigits := List.append_cancel_left h
    rw [← UInt32.toNat_inj, ← numeral_zeroFilled (b := 16) (by decide) (by decide) 8 i.toNat, hdigits,
      numeral_zeroFilled (by decide) (by decide)]
  · rintro rfl
    rfl

theorem intToHex_ne_decimal (i : UInt32) (n : Nat) : intToHex i ≠ decimal n := by
  intro h
  have hmem : charByte 'x' ∈ intToHex i := List.mem_append_left _ (by decide)
  have hdigit := digit_of_mem_decimal (h ▸ hmem)
  have hx : (charByte 'x').toNat = 120 := rfl
  omega

end

-- ---------------------------------------------------------------------------
-- Values
-- ---------------------------------------------------------------------------

inductive InfoValue
  | bool (v : Bool)
  | uint8 (v : UInt8) | uint16 (v : UInt16) | uint32 (v : UInt32) | uint64 (v : UInt64)
  | int8 (v : Int8) | int16 (v : Int16) | int32 (v : Int32) | int64 (v : Int64)

/-- `ver_*_release`. -/
def isRelease (name : Bytes) : Bool :=
  (ascii "ver_").isPrefixOf name && (ascii "_release").isSuffixOf (name.drop 4)

namespace InfoValue

def typeName : InfoValue → Bytes
  | bool _ => ascii "bool"
  | uint8 _ => ascii "uint8_t" | uint16 _ => ascii "uint16_t"
  | uint32 _ => ascii "uint32_t" | uint64 _ => ascii "uint64_t"
  | int8 _ => ascii "int8_t" | int16 _ => ascii "int16_t"
  | int32 _ => ascii "int32_t" | int64 _ => ascii "int64_t"

def bytes : InfoValue → Bytes
  | bool v => leBytes 1 v.toNat
  | uint8 v => leBytes 1 v.toNat
  | uint16 v => leBytes 2 v.toNat
  | uint32 v => leBytes 4 v.toNat
  | uint64 v => leBytes 8 v.toNat
  | int8 v => leBytes 1 v.toUInt8.toNat
  | int16 v => leBytes 2 v.toUInt16.toNat
  | int32 v => leBytes 4 v.toUInt32.toNat
  | int64 v => leBytes 8 v.toUInt64.toNat

def text (name : Bytes) : InfoValue → Bytes
  | bool v => decimal v.toNat
  | uint8 v => decimal v.toNat
  | uint16 v => decimal v.toNat
  | uint32 v => if isRelease name then intToHex v else decimal v.toNat
  | uint64 v => decimal v.toNat
  | int8 v => intText v.toInt
  | int16 v => intText v.toInt
  | int32 v => intText v.toInt
  | int64 v => intText v.toInt

def key (v : InfoValue) (name : Bytes) : Bytes := v.typeName ++ charByte ' ' :: name

def message (v : InfoValue) (name : Bytes) : Bytes :=
  frame .I ([.ofNat (v.key name).length] ++ (v.key name ++ v.bytes))

/-- The bytes of the value are those that the key begins with. -/
def Spelled (v : InfoValue) : Prop := v.bytes = (v.typeName ++ ascii " ").take v.bytes.length

instance (v : InfoValue) : Decidable v.Spelled := inferInstanceAs (Decidable (_ = _))

end InfoValue

section
variable {name raw w : Bytes}

theorem suffix_ver (rest : Bytes) : ascii "_release" <:+ ascii "ver_" ++ rest ↔
    ascii "_release" <:+ rest ∨ rest = ascii "release" := by
  have hver : ascii "ver_" ++ rest =
      charByte 'v' :: charByte 'e' :: charByte 'r' :: charByte '_' :: rest := rfl
  have hrelease : ascii "_release" = charByte '_' :: ascii "release" := rfl
  have hv : charByte '_' ≠ charByte 'v' := by decide
  have he : charByte '_' ≠ charByte 'e' := by decide
  have hr : charByte '_' ≠ charByte 'r' := by decide
  rw [hver, hrelease]
  simp only [List.suffix_cons_iff, List.cons.injEq, hv, he, hr, false_and, false_or, true_and,
    eq_comm (a := rest)]
  exact or_comm

/-- So the source takes one more name for that of a release. -/
theorem release_test (name : Bytes) :
    ((ascii "ver_").isPrefixOf name && (ascii "_release").isSuffixOf name) = true ↔
      isRelease name = true ∨ name = ascii "ver_release" := by
  simp only [isRelease, Bool.and_eq_true, List.isPrefixOf_iff_prefix, List.isSuffixOf_iff_suffix]
  constructor
  · rintro ⟨⟨rest, rfl⟩, hsuffix⟩
    obtain hsuffix | rfl := (suffix_ver rest).mp hsuffix
    · exact .inl ⟨List.prefix_append _ _, hsuffix⟩
    · exact .inr rfl
  · rintro (⟨⟨rest, rfl⟩, hsuffix⟩ | rfl)
    · exact ⟨List.prefix_append _ _, (suffix_ver rest).mpr (.inl hsuffix)⟩
    · exact ⟨⟨ascii "release", rfl⟩, (suffix_ver _).mpr (.inr rfl)⟩

-- A word of the key shows a value if and only if it is the bytes of the value.

theorem leBytes_eq_take_iff (hlen : k ≤ raw.length) (hn : n < 256 ^ k) :
    leBytes k n = raw.take k ↔ leNat (raw.take k) = n := by
  refine leBytes_eq_iff ?_ hn
  rw [List.length_take]
  omega

theorem decimal_word (hlen : k ≤ raw.length) (hn : n < 256 ^ k) :
    decimal (leNat (raw.take k)) = decimal n ↔ leBytes k n = raw.take k :=
  decimal_inj.trans (leBytes_eq_take_iff hlen hn).symm

theorem intText_word (f : Nat → Int) (hlen : k ≤ raw.length) (hn : n < 256 ^ k)
    (hf : ∀ x < 256 ^ k, f x = i ↔ x = n) :
    intText (f (leNat (raw.take k))) = intText i ↔ leBytes k n = raw.take k := by
  have hlt : leNat (raw.take k) < 256 ^ k := by
    have h := leNat_lt (raw.take k)
    rwa [List.length_take_of_le hlen] at h
  rw [intText_inj, hf _ hlt, leBytes_eq_take_iff hlen hn]

theorem int8_iff {v : Int8} (hx : x < 256) :
    (UInt8.ofNat x).toInt8.toInt = v.toInt ↔ x = v.toUInt8.toNat := by
  rw [Int8.toInt_inj]
  constructor
  · rintro rfl
    rw [UInt8.toUInt8_toInt8, UInt8.toNat_ofNat_of_lt' hx]
  · rintro rfl
    rw [UInt8.ofNat_toNat, Int8.toInt8_toUInt8]

theorem int16_iff {v : Int16} (hx : x < 2 ^ 16) :
    (UInt16.ofNat x).toInt16.toInt = v.toInt ↔ x = v.toUInt16.toNat := by
  rw [Int16.toInt_inj]
  constructor
  · rintro rfl
    rw [UInt16.toUInt16_toInt16, UInt16.toNat_ofNat_of_lt' hx]
  · rintro rfl
    rw [UInt16.ofNat_toNat, Int16.toInt16_toUInt16]

theorem int32_iff {v : Int32} (hx : x < 2 ^ 32) :
    (UInt32.ofNat x).toInt32.toInt = v.toInt ↔ x = v.toUInt32.toNat := by
  rw [Int32.toInt_inj]
  constructor
  · rintro rfl
    rw [UInt32.toUInt32_toInt32, UInt32.toNat_ofNat_of_lt' hx]
  · rintro rfl
    rw [UInt32.ofNat_toNat, Int32.toInt32_toUInt32]

theorem int64_iff {v : Int64} (hx : x < 2 ^ 64) :
    (UInt64.ofNat x).toInt64.toInt = v.toInt ↔ x = v.toUInt64.toNat := by
  rw [Int64.toInt_inj]
  constructor
  · rintro rfl
    rw [UInt64.toUInt64_toInt64, UInt64.toNat_ofNat_of_lt' hx]
  · rintro rfl
    rw [UInt64.ofNat_toNat, Int64.toInt64_toUInt64]

theorem uint32_word {v : UInt32} (hlen : 4 ≤ raw.length) :
    infoNumber (ascii "uint32_t") name raw = (InfoValue.uint32 v).text name ↔
      leBytes 4 v.toNat = raw.take 4 ∧ name ≠ ascii "ver_release" := by
  have hnumber : infoNumber (ascii "uint32_t") name raw =
      if (ascii "ver_").isPrefixOf name && (ascii "_release").isSuffixOf name then
        intToHex (.ofNat (leNat (raw.take 4)))
      else decimal (leNat (raw.take 4)) := rfl
  have hv : v.toNat < 256 ^ 4 := v.toNat_lt
  have hhex : intToHex (.ofNat (leNat (raw.take 4))) = intToHex v ↔
      leBytes 4 v.toNat = raw.take 4 := by
    have hlt : leNat (raw.take 4) < 2 ^ 32 := by
      have h := leNat_lt (raw.take 4)
      rwa [List.length_take_of_le hlen] at h
    rw [intToHex_inj, ← UInt32.toNat_inj, UInt32.toNat_ofNat_of_lt' hlt, leBytes_eq_take_iff hlen hv]
  rw [hnumber, InfoValue.text]
  by_cases hrelease : isRelease name = true
  · have hne : name ≠ ascii "ver_release" := by
      rintro rfl
      exact absurd hrelease (by decide)
    rw [if_pos ((release_test name).mpr (.inl hrelease)), if_pos hrelease, hhex, and_iff_left hne]
  · rw [if_neg hrelease]
    by_cases hname : name = ascii "ver_release"
    · rw [if_pos ((release_test name).mpr (.inr hname))]
      simp [hname, intToHex_ne_decimal]
    · have htest : ¬ _ := fun h => ((release_test name).mp h).elim hrelease hname
      rw [if_neg htest, decimal_word hlen hv, and_iff_left hname]

/-- What `parse_info` shows is the value if and only if the key begins with its bytes. -/
theorem infoNumber_eq_iff (v : InfoValue) (hlen : v.bytes.length ≤ raw.length) :
    infoNumber v.typeName name raw = v.text name ↔ v.bytes = raw.take v.bytes.length ∧
      ∀ n, v = .uint32 n → name ≠ ascii "ver_release" := by
  have hother {P : Prop} (hne : ∀ n, v ≠ .uint32 n) (h : P ↔ v.bytes = raw.take v.bytes.length) :
      P ↔ v.bytes = raw.take v.bytes.length ∧ ∀ n, v = .uint32 n → name ≠ ascii "ver_release" :=
    h.trans (and_iff_left fun n hn => absurd hn (hne n)).symm
  cases v with
  | bool n =>
    have hn : n.toNat < 256 ^ 1 := by cases n <;> decide
    exact hother (by simp) (decimal_word hlen hn)
  | uint8 n => exact hother (by simp) (decimal_word hlen n.toNat_lt)
  | uint16 n => exact hother (by simp) (decimal_word hlen n.toNat_lt)
  | uint64 n => exact hother (by simp) (decimal_word hlen n.toNat_lt)
  | int8 n => exact hother (by simp) (intText_word (fun x => (UInt8.ofNat x).toInt8.toInt) hlen
      n.toUInt8.toNat_lt fun _ => int8_iff)
  | int16 n => exact hother (by simp) (intText_word (fun x => (UInt16.ofNat x).toInt16.toInt) hlen
      n.toUInt16.toNat_lt fun _ => int16_iff)
  | int32 n => exact hother (by simp) (intText_word (fun x => (UInt32.ofNat x).toInt32.toInt) hlen
      n.toUInt32.toNat_lt fun _ => int32_iff)
  | int64 n => exact hother (by simp) (intText_word (fun x => (UInt64.ofNat x).toInt64.toInt) hlen
      n.toUInt64.toNat_lt fun _ => int64_iff)
  | uint32 n =>
    refine (uint32_word hlen).trans (and_congr_right fun _ => ?_)
    simp

end

-- ---------------------------------------------------------------------------
-- The entry
-- ---------------------------------------------------------------------------

/-- Once the I message has been parsed, this is what stands under the name. -/
def StoresInfo (p : MutelemetryParser) (m name text : Bytes) : Prop :=
  ∃ size q, headerSize m 0 = .ok size ∧ (parseInfo m 3 size).run p = .ok p.state q ∧
    q.info.lookup name = some text

section
variable {p : MutelemetryParser} {name : Bytes} {v : InfoValue}

theorem InfoValue.blank_notMem (v : InfoValue) : charByte ' ' ∉ v.typeName := by
  cases v with
  | bool | uint8 | uint16 | uint32 | uint64 | int8 | int16 | int32 | int64 => exact of_decide_eq_true rfl

theorem InfoValue.not_char (v : InfoValue) : (ascii "char[").isPrefixOf v.typeName = false := by
  cases v with
  | bool | uint8 | uint16 | uint32 | uint64 | int8 | int16 | int32 | int64 => rfl

theorem InfoValue.length_bytes_le (v : InfoValue) :
    v.bytes.length ≤ (v.typeName ++ ascii " ").length := by
  cases v with
  | bool | uint8 | uint16 | uint32 | uint64 | int8 | int16 | int32 | int64 =>
    exact (length_leBytes _ _).trans_le (of_decide_eq_true rfl)

theorem InfoValue.key_eq (v : InfoValue) (name : Bytes) :
    v.key name = (v.typeName ++ ascii " ") ++ name := by
  rw [List.append_assoc]
  rfl

theorem InfoValue.take_key (v : InfoValue) (name : Bytes) :
    (v.key name).take v.bytes.length = (v.typeName ++ ascii " ").take v.bytes.length := by
  rw [v.key_eq, List.take_append_of_le_length v.length_bytes_le]

theorem infoEntry_message (hlen : (v.key name).length < 256) :
    headerSize (v.message name) 0 = .ok (.ofNat (1 + (v.key name).length + v.bytes.length)) ∧
    infoEntry (v.message name) 3 (.ofNat (1 + (v.key name).length + v.bytes.length)) =
      if name = [] then .error .vectorIndex
      else .ok (name.takeWhile (· ≠ charByte ' '),
        infoNumber v.typeName (name.takeWhile (· ≠ charByte ' ')) (v.key name)) := by
  have hbytes := v.length_bytes_le
  have hbody : ([UInt8.ofNat (v.key name).length] ++ (v.key name ++ v.bytes)).length =
      1 + (v.key name).length + v.bytes.length := by
    simp only [List.length_append, List.length_singleton, Nat.add_assoc]
  have hlt : 1 + (v.key name).length + v.bytes.length < 2 ^ 16 := by
    have hkey := congrArg List.length (v.key_eq name)
    rw [List.length_append] at hkey
    omega
  constructor
  · rw [InfoValue.message, headerSize_alone, hbody]
  · rw [InfoValue.message, infoEntry_frame (UInt8.toNat_ofNat_of_lt' hlen)
      (UInt16.toNat_ofNat_of_lt' hlt), InfoValue.key, splitString_append v.blank_notMem]
    by_cases hname : name = []
    · rw [if_pos hname, hname]
      rfl
    · rw [if_neg hname, splitString_eq _ name hname]
      simp [v.not_char]

theorem storesInfo_iff (hlen : (v.key name).length < 256) (text : Bytes) :
    StoresInfo p (v.message name) name text ↔ name ≠ [] ∧
      (p.addInfo (name.takeWhile (· ≠ charByte ' ')) (infoNumber v.typeName
        (name.takeWhile (· ≠ charByte ' ')) (v.key name))).info.lookup name = some text := by
  obtain ⟨hsize, hentry⟩ := infoEntry_message hlen
  simp only [StoresInfo, hsize, Except.ok.injEq, exists_and_left, exists_eq_left', run_parseInfo,
    hentry]
  by_cases hname : name = []
  · simp [hname]
  · simp [hname, MutelemetryParser.addInfo]

/-- A numeric value is stored where its bytes are those that the key begins
with, or where it has been before. -/
theorem parse_info_number_iff (hlen : (v.key name).length < 256) :
    StoresInfo p (v.message name) name (v.text name) ↔ name ≠ [] ∧
      (p.info.lookup name = some (v.text name) ∨ name ∉ p.info ∧ charByte ' ' ∉ name ∧ v.Spelled ∧
        ∀ n, v = .uint32 n → name ≠ ascii "ver_release") := by
  rw [storesInfo_iff hlen]
  refine and_congr_right fun _ => ?_
  by_cases hblank : charByte ' ' ∈ name
  · have hne : name ≠ name.takeWhile (· ≠ charByte ' ') := fun h =>
      takeWhile_eq_self_iff.mp h hblank
    rw [lookup_addInfo_of_ne _ _ hne]
    simp [hblank]
  · rw [← takeWhile_eq_self_iff.mpr hblank]
    by_cases hmem : name ∈ p.info
    · simp [MutelemetryParser.addInfo, hmem]
    · have hspelled : v.Spelled ↔ v.bytes = (v.key name).take v.bytes.length := by
        rw [v.take_key]
        rfl
      have hnone : p.info.lookup name = none := AList.lookup_eq_none.mpr hmem
      have hraw : v.bytes.length ≤ (v.key name).length := by
        rw [v.key_eq, List.length_append]
        exact v.length_bytes_le.trans (Nat.le_add_right _ _)
      rw [lookup_addInfo_self _ hmem, Option.some_inj, infoNumber_eq_iff v hraw, ← hspelled, hnone]
      simp [hmem, hblank]

end

/-- `uint8_t x` with the value 117, which is the byte of `u`. -/
theorem parse_info_number_iff_spelled :
    StoresInfo .new (InfoValue.uint8 117 |>.message (ascii "x")) (ascii "x") (ascii "117") :=
  (parse_info_number_iff (v := .uint8 117) (by decide)).mpr
    ⟨by decide, .inr ⟨by decide, by decide, by decide, by simp⟩⟩

/-- `uint8_t x` with the value 5. -/
theorem number_misread : ¬ ∀ (v : InfoValue) (name : Bytes), (v.key name).length < 256 →
    StoresInfo .new (v.message name) name (v.text name) := by
  intro h
  have hstores := h (.uint8 5) (ascii "x") (by decide)
  exact absurd ((storesInfo_iff (by decide) _).mp hstores).2 (by decide)

end Mutelemetry.Parse
