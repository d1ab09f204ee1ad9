import Mutelemetry.Parse.Entry
import Mutelemetry.Stream.Language
import Mutelemetry.Stream.Registration

/-!
# What the parser reads back

An info, a parameter or a log message that a call enqueues, given to the parser.
The length of a printed key is kept in eight bits, and `parse_info` takes the
key for the second word of its text, so there are keys that do not come back.
-/

namespace Mutelemetry.Stream

open ByteString Stateful Ulog Telemetry Parse

-- ---------------------------------------------------------------------------
-- Printed keys
-- ---------------------------------------------------------------------------

section
variable {text value : Bytes}

theorem toNat_printedLen_eq (h : (MuTelemetry.printedLen text).toNat < 255) :
    (MuTelemetry.printedLen text).toNat = (printedKey text).length := by
  have hle := MuTelemetry.printedLen_le h
  rw [printedKey, List.length_take]
  omega

theorem printedKey_eq (h : text.length < 256) : printedKey text = text := by
  have hlen := MuTelemetry.toNat_printedLen text
  rw [if_pos (by omega), Nat.mod_eq_of_lt h] at hlen
  rw [printedKey, hlen, List.take_length]

theorem length_printedKey_le (hroom : (MuTelemetry.printedLen text).toNat < 255)
    (h : 256 ≤ text.length) : (printedKey text).length + 256 ≤ text.length := by
  rw [← toNat_printedLen_eq hroom]
  rw [MuTelemetry.toNat_printedLen] at hroom ⊢
  split at hroom
  · rw [if_pos (by assumption)]
    omega
  · omega

theorem keyedBody_nil (text value : Bytes) : MuTelemetry.keyedBody [] text value =
    [MuTelemetry.printedLen text] ++ (printedKey text ++ value) := rfl

theorem length_keyedMessage (hroom : (MuTelemetry.printedLen text).toNat + value.length < 255) :
    (UInt16.ofNat (MuTelemetry.keyedBody [] text value).length).toNat =
      1 + (printedKey text).length + value.length := by
  have hlen : (MuTelemetry.keyedBody [] text value).length = _ :=
    MuTelemetry.length_keyedBody hroom
  have hlt : 1 + (MuTelemetry.printedLen text).toNat + value.length < 2 ^ 16 := by omega
  rw [hlen, List.length_nil, Nat.zero_add, UInt16.toNat_ofNat_of_lt' hlt,
    toNat_printedLen_eq (by omega)]

theorem run_registerKeyed_fits {t : MuTelemetry} (ht : t.isEnabled = true)
    (hroom : (MuTelemetry.printedLen text).toNat + value.length < 255) (e : Bool) :
    (t.registerKeyed type [] text value).run e =
      .ok (true, t.toIo (frame type (MuTelemetry.keyedBody [] text value)))
        (e && text.length < 256) := by
  rw [MuTelemetry.run_registerKeyed ht (by simp), if_pos hroom]
  rfl

end

-- ---------------------------------------------------------------------------
-- Info
-- ---------------------------------------------------------------------------

/-- The parser accepts the message, and has one entry more and no other change. -/
def AddsInfo (p : MutelemetryParser) (m key value : Bytes) : Prop :=
  (parse m 0).run p = .ok true { p with info := p.info.insert key value }

section
variable {p : MutelemetryParser} {t t' : MuTelemetry} {key value : Bytes}

theorem addInfo_eq_iff (h : key ∉ p.info) {key' value' : Bytes} :
    { p with info := p.info.insert key value } = p.addInfo key' value' ↔
      key' = key ∧ value' = value := by
  constructor
  · intro heq
    have hlookup := congrArg (fun q : MutelemetryParser => q.info.lookup key) heq
    simp only [AList.lookup_insert] at hlookup
    by_cases hkey : key = key'
    · subst hkey
      rw [lookup_addInfo_self _ h] at hlookup
      exact ⟨rfl, (Option.some.inj hlookup).symm⟩
    · rw [lookup_addInfo_of_ne _ _ hkey, AList.lookup_eq_none.mpr h] at hlookup
      cases hlookup
  · rintro ⟨rfl, rfl⟩
    rw [MutelemetryParser.addInfo, if_neg h]

theorem infoKey_eq (n : Nat) (hnul : 0 ∉ key) :
    MuTelemetry.infoKey n key = (ascii "char[" ++ decimal n ++ ascii "]") ++ charByte ' ' :: key := by
  rw [MuTelemetry.infoKey, cstr_eq_self hnul]
  simp [ascii]

theorem length_printedKey_lt
    (hroom : (MuTelemetry.printedLen (MuTelemetry.infoKey n key)).toNat + n < 255) (hnul : 0 ∉ key)
    (hlong : 256 ≤ (MuTelemetry.infoKey n key).length) :
    (printedKey (MuTelemetry.infoKey n key)).length < key.length := by
  have hle := length_printedKey_le (by omega) hlong
  have hdecimal : (decimal n).length ≤ 3 := (length_decimal_le_iff (by decide)).mpr (by omega)
  have hopen : (ascii "char[").length = 5 := rfl
  have hclose : (ascii "]").length = 1 := rfl
  rw [infoKey_eq n hnul] at hle ⊢
  simp only [List.length_append, List.length_cons] at hle ⊢
  omega

/-- The entry of an info message is the one that was registered. -/
theorem infoEntry_info_iff
    (hroom : (MuTelemetry.printedLen (MuTelemetry.infoKey value.length key)).toNat +
      value.length < 255) (hnul : 0 ∉ key) :
    infoEntry (frame .I (MuTelemetry.keyedBody [] (MuTelemetry.infoKey value.length key) value)) 3
        (.ofNat (MuTelemetry.keyedBody [] (MuTelemetry.infoKey value.length key) value).length) =
      .ok (key, value) ↔
      key ≠ [] ∧ charByte ' ' ∉ key ∧ (MuTelemetry.infoKey value.length key).length < 256 := by
  have hsize := length_keyedMessage hroom
  rw [keyedBody_nil] at hsize ⊢
  rw [infoEntry_frame (toNat_printedLen_eq (by omega)) hsize]
  by_cases hlen : (MuTelemetry.infoKey value.length key).length < 256
  · have hchar : (ascii "char[").isPrefixOf (ascii "char[" ++ decimal value.length ++ ascii "]") =
        true := by
      rw [List.isPrefixOf_iff_prefix, List.append_assoc]
      exact List.prefix_append _ _
    rw [printedKey_eq hlen, infoKey_eq _ hnul, splitString_append (blank_notMem_charType _)]
    rw [infoKey_eq _ hnul] at hlen
    by_cases hkey : key = []
    · simp [hkey, splitString]
    · rw [splitString_eq _ key hkey, ← takeWhile_eq_self_iff]
      simp only [hchar, if_true, Except.ok.injEq, Prod.mk.injEq, and_true, ne_eq, hkey,
        not_false_eq_true, true_and, hlen]
      exact eq_comm
  · -- whatever word is taken for the key, it lies in the text that was cut
    have hshort := length_printedKey_lt hroom hnul (by omega)
    simp only [hlen, and_false, iff_false]
    intro h
    split at h
    · rename_i type word parts hsplit
      simp only [Except.ok.injEq, Prod.mk.injEq] at h
      have hle : word.length ≤ _ := length_le_of_mem_splitString
        (hsplit ▸ List.mem_cons_of_mem _ List.mem_cons_self)
      rw [h.1] at hle
      omega
    · cases h

theorem addsInfo_iff
    (hroom : (MuTelemetry.printedLen (MuTelemetry.infoKey value.length key)).toNat +
      value.length < 255) (hnul : 0 ∉ key) (hnew : key ∉ p.info) :
    AddsInfo p (frame .I (MuTelemetry.keyedBody [] (MuTelemetry.infoKey value.length key) value))
      key value ↔ p.InBody ∧ key ≠ [] ∧ charByte ' ' ∉ key ∧
        (MuTelemetry.infoKey value.length key).length < 256 := by
  have ht := headerType_frame .I
    (MuTelemetry.keyedBody [] (MuTelemetry.infoKey value.length key) value) []
  rw [List.append_nil] at ht
  rw [AddsInfo, parse_info_iff ht (headerSize_alone _ _), ← infoEntry_info_iff hroom hnul]
  refine and_congr_right fun _ => ?_
  simp only [addInfo_eq_iff hnew]
  constructor
  · rintro ⟨key', value', he, rfl, rfl⟩
    exact he
  · intro he
    exact ⟨key, value, he, rfl, rfl⟩

/-- An info message comes back if and only if its key is one word that is short enough. -/
theorem info_roundTrip_iff (ht : t.isEnabled = true) (hnul : 0 ∉ key)
    (h : (t.registerInfo key value).run true = .ok (true, t') e) :
    ∃ m, t' = t.toIo m ∧ ∀ p : MutelemetryParser, key ∉ p.info → (AddsInfo p m key value ↔
      p.InBody ∧ key ≠ [] ∧ charByte ' ' ∉ key ∧
        (MuTelemetry.infoKey value.length key).length < 256) := by
  obtain ⟨hroom, rfl⟩ := MuTelemetry.run_registerKeyed_ok ht (by simp) h
  exact ⟨_, rfl, fun p hnew => addsInfo_iff hroom hnul hnew⟩

def defining : MutelemetryParser := { MutelemetryParser.new with state := .definition }

/-- `register_info("a", "v")` -/
theorem info_roundTrip_iff_word : ∃ m, AddsInfo defining m (ascii "a") (ascii "v") := by
  have hroom : (MuTelemetry.printedLen (MuTelemetry.infoKey (ascii "v").length
      (ascii "a"))).toNat + (ascii "v").length < 255 := by decide
  have hrun : ((MuTelemetry.new true false 0).registerInfo (ascii "a") (ascii "v")).run true = _ :=
    run_registerKeyed_fits rfl hroom true
  obtain ⟨m, -, hround⟩ := info_roundTrip_iff rfl (by decide) hrun
  exact ⟨m, (hround defining (AList.notMem_empty _)).mpr
    ⟨.inl rfl, by decide, by decide, by decide⟩⟩

/-- `register_info("a b", "v")` -/
theorem info_cut_at_blank : ¬ ∀ (t t' : MuTelemetry) (key value : Bytes) e, t.isEnabled = true →
    0 ∉ key → (t.registerInfo key value).run true = .ok (true, t') e →
      ∃ m, t' = t.toIo m ∧ ∀ p : MutelemetryParser, p.InBody → key ∉ p.info →
        AddsInfo p m key value := by
  intro h
  have hroom : (MuTelemetry.printedLen (MuTelemetry.infoKey (ascii "v").length
      (ascii "a b"))).toNat + (ascii "v").length < 255 := by decide
  have hrun : ((MuTelemetry.new true false 0).registerInfo (ascii "a b") (ascii "v")).run true = _ :=
    run_registerKeyed_fits rfl hroom true
  obtain ⟨m, hm, hround⟩ := h _ _ _ _ _ rfl (by decide) hrun
  obtain rfl := toIo_inj rfl hm
  have hnew : ascii "a b" ∉ defining.info := AList.notMem_empty _
  have hadds := hround defining (.inl rfl) hnew
  exact absurd ((addsInfo_iff hroom (by decide) hnew).mp hadds).2.2.1 (by decide)

end

-- ---------------------------------------------------------------------------
-- Parameters
-- ---------------------------------------------------------------------------

/-- The parser accepts the message in the state it keeps, and has one parameter more. -/
def AddsParameter (p : MutelemetryParser) (m : Bytes) (param : Parameter) : Prop :=
  ∃ q, (parse m 0).run p = .ok true q ∧ q.parameters = p.parameters ++ [param] ∧ q.state = p.state

section
variable {p : MutelemetryParser} {t t' : MuTelemetry} {type name value : Bytes}

/-- The name is what stands behind the first blank, so it is cut with the key. -/
theorem readParameter_keyed_iff
    (hroom : (MuTelemetry.printedLen (type ++ charByte ' ' :: name)).toNat + 4 < 255)
    (hvalue : value.length = 4) (hblank : charByte ' ' ∉ type) (hshort : type.length < 255)
    (htype : parameterType type = some valType) :
    readParameter (frame .P (MuTelemetry.keyedBody [] (type ++ charByte ' ' :: name) value)) 3 =
      .ok (some ⟨name, .ofNat (leNat value), valType⟩) ↔
        (type ++ charByte ' ' :: name).length < 256 := by
  rw [keyedBody_nil, readParameter_frame (toNat_printedLen_eq (by omega)) hvalue]
  by_cases hlen : (type ++ charByte ' ' :: name).length < 256
  · rw [printedKey_eq hlen, if_neg (by simp), takeWhile_of_notMem hblank,
      dropWhile_of_notMem hblank, htype]
    simpa using hlen
  · have hle := length_printedKey_le (show _ < 255 by omega) (Nat.le_of_not_lt hlen)
    simp only [hlen, iff_false, Except.ok.injEq]
    intro h
    split at h
    · cases h
    · obtain ⟨valType', -, hparam⟩ := Option.map_eq_some_iff.mp h
      have hname := congrArg (fun param : Parameter => param.name.length) hparam
      have htail : ∀ l : Bytes, (l.dropWhile (· ≠ charByte ' ')).tail.length ≤ l.length :=
        fun l => (List.tail_sublist _).length_le.trans (List.dropWhile_suffix _).length_le
      have hcut := htail (printedKey (type ++ charByte ' ' :: name))
      simp only [List.length_append, List.length_cons] at hname hle hcut
      omega

theorem addsParameter_iff
    (hroom : (MuTelemetry.printedLen (type ++ charByte ' ' :: name)).toNat + 4 < 255)
    (hvalue : value.length = 4) (hblank : charByte ' ' ∉ type) (hshort : type.length < 255)
    (htype : parameterType type = some valType) :
    AddsParameter p (frame .P (MuTelemetry.keyedBody [] (type ++ charByte ' ' :: name) value))
      ⟨name, .ofNat (leNat value), valType⟩ ↔
        p.InBody ∧ (type ++ charByte ' ' :: name).length < 256 := by
  have ht := headerType_frame .P
    (MuTelemetry.keyedBody [] (type ++ charByte ' ' :: name) value) []
  rw [List.append_nil] at ht
  rw [← readParameter_keyed_iff hroom hvalue hblank hshort htype]
  simp only [AddsParameter, parse_param_iff ht]
  constructor
  · rintro ⟨q, ⟨hb, param, hr, rfl⟩, hparams, -⟩
    obtain rfl : param = _ := List.singleton_inj.mp (List.append_cancel_left hparams)
    exact ⟨hb, hr⟩
  · rintro ⟨hb, hr⟩
    exact ⟨_, ⟨hb, _, hr, rfl⟩, rfl, rfl⟩

theorem cstr_key (type : Bytes) (htype : 0 ∉ type) (hnul : 0 ∉ name) :
    cstr (type ++ charByte ' ' :: name) = type ++ charByte ' ' :: name := by
  refine cstr_eq_self ?_
  simp only [List.mem_append, List.mem_cons, not_or]
  exact ⟨htype, by decide, hnul⟩

/-- A parameter comes back if and only if its key is short enough. -/
theorem param_roundTrip_iff (ht : t.isEnabled = true) (hnul : 0 ∉ name) :
    (∀ (value : Int32) t' e,
      (t.registerParamInt (ascii "int32_t " ++ name) value).run true = .ok (true, t') e →
        ∃ m, t' = t.toIo m ∧ ∀ p, AddsParameter p m ⟨name, value.toUInt32, .int32⟩ ↔
          p.InBody ∧ (ascii "int32_t " ++ name).length < 256) ∧
    ∀ (value : Float32) t' e,
      (t.registerParamFloat (ascii "float " ++ name) value).run true = .ok (true, t') e →
        ∃ m, t' = t.toIo m ∧ ∀ p, AddsParameter p m ⟨name, value.toBits, .float⟩ ↔
          p.InBody ∧ (ascii "float " ++ name).length < 256 := by
  constructor
  · intro value t' e h
    have hkey : cstr (ascii "int32_t " ++ name) = _ := cstr_key (ascii "int32_t") (by decide) hnul
    rw [MuTelemetry.registerParamInt, hkey] at h
    obtain ⟨hroom, rfl⟩ := MuTelemetry.run_registerKeyed_ok ht (by simp) h
    rw [length_leBytes] at hroom
    refine ⟨_, rfl, fun p => ?_⟩
    have hadds := addsParameter_iff (p := p) hroom (length_leBytes 4 value.toUInt32.toNat)
      (by decide) (by decide) (show parameterType (ascii "int32_t") = some .int32 by decide)
    rwa [ofNat_leNat_uint32] at hadds
  · intro value t' e h
    have hkey : cstr (ascii "float " ++ name) = _ := cstr_key (ascii "float") (by decide) hnul
    rw [MuTelemetry.registerParamFloat, hkey] at h
    obtain ⟨hroom, rfl⟩ := MuTelemetry.run_registerKeyed_ok ht (by simp) h
    rw [length_leBytes] at hroom
    refine ⟨_, rfl, fun p => ?_⟩
    have hadds := addsParameter_iff (p := p) hroom (length_leBytes 4 value.toBits.toNat)
      (by decide) (by decide) (show parameterType (ascii "float") = some .float by decide)
    rwa [ofNat_leNat_uint32] at hadds

/-- `register_param("int32_t a", 5)` -/
theorem param_roundTrip_iff_short : ∃ m, AddsParameter defining m ⟨ascii "a", 5, .int32⟩ := by
  have hroom : (MuTelemetry.printedLen (cstr (ascii "int32_t " ++ ascii "a"))).toNat +
      (leBytes 4 (5 : Int32).toUInt32.toNat).length < 255 := by decide
  have hrun : ((MuTelemetry.new true false 0).registerParamInt (ascii "int32_t " ++ ascii "a")
      5).run true = _ := run_registerKeyed_fits rfl hroom true
  obtain ⟨m, -, hround⟩ := (param_roundTrip_iff rfl (by decide)).1 5 _ _ hrun
  exact ⟨m, (hround defining).mpr ⟨.inl rfl, by decide⟩⟩

/-- A name of 248 bytes: the length of the whole key is 256, and kept as 0. -/
theorem long_param_lost : ¬ ∀ (t t' : MuTelemetry) (name : Bytes) (value : Int32) e,
    t.isEnabled = true → 0 ∉ name →
      (t.registerParamInt (ascii "int32_t " ++ name) value).run true = .ok (true, t') e →
        ∃ m, t' = t.toIo m ∧ ∀ p : MutelemetryParser, p.InBody →
          AddsParameter p m ⟨name, value.toUInt32, .int32⟩ := by
  intro h
  obtain ⟨name, hname, hnul⟩ : ∃ name : Bytes, name.length = 248 ∧ 0 ∉ name := by
    refine ⟨List.replicate 248 97, List.length_replicate, fun hmem => ?_⟩
    exact absurd (List.mem_replicate.mp hmem).2 (by decide)
  have hkey := cstr_key (ascii "int32_t") (by decide) hnul
  have hlen : (ascii "int32_t" ++ charByte ' ' :: name).length = 256 := by
    rw [List.length_append, List.length_cons, hname]
    rfl
  have hroom : (MuTelemetry.printedLen (ascii "int32_t" ++ charByte ' ' :: name)).toNat + 4 <
      255 := by
    rw [MuTelemetry.toNat_printedLen, hlen]
    decide
  have hrun : ((MuTelemetry.new true false 0).registerParamInt (ascii "int32_t " ++ name) 5).run
      true = _ := run_registerKeyed_fits rfl (hkey.symm ▸ hroom) true
  obtain ⟨m, hm, hround⟩ := h _ _ _ 5 _ rfl hnul hrun
  obtain rfl := toIo_inj rfl hm
  have hadds := hround defining (.inl rfl)
  rw [show cstr (ascii "int32_t " ++ name) = _ from hkey] at hadds
  have hiff := addsParameter_iff (p := defining) hroom (length_leBytes 4 (5 : Int32).toUInt32.toNat)
    (by decide) (by decide) (show parameterType (ascii "int32_t") = some .int32 by decide)
  rw [ofNat_leNat_uint32, hlen] at hiff
  exact absurd (hiff.mp hadds).2 (Nat.lt_irrefl _)

end

-- ---------------------------------------------------------------------------
-- Log messages
-- ---------------------------------------------------------------------------

section
variable {p : MutelemetryParser} {t : MuTelemetry} {message : Bytes}

theorem run_parse_log (hs : p.state = .definitionOrData) (hlen : message.length < 1500)
    (level : ULogLevel) (timestamp : UInt64) :
    (parse (frame .L ([level.code] ++ (leBytes 8 timestamp.toNat ++ message))) 0).run p =
      .ok true { p with
        logCalls := p.logCalls ++ [⟨level.code, timestamp, message⟩]
        messageLogs := p.messageLogs ++ [⟨level.code, timestamp, message⟩] } := by
  have hbody : ([level.code] ++ (leBytes 8 timestamp.toNat ++ message)).length =
      1 + (8 + message.length) := by
    simp only [List.length_append, List.length_singleton, length_leBytes]
  have hlog : readLog (frame .L ([level.code] ++ (leBytes 8 timestamp.toNat ++ message))) 3
      (.ofNat (1 + (8 + message.length))) = .ok ⟨level.code, timestamp, message⟩ := by
    rw [readLog_frame level.code (length_leBytes _ _) (UInt16.toNat_ofNat_of_lt' (by
      show 1 + (8 + message.length) < 2 ^ 16; omega)), ofNat_leNat_uint64]
  have ht := headerType_frame .L ([level.code] ++ (leBytes 8 timestamp.toNat ++ message)) []
  rw [List.append_nil] at ht
  rw [run_parse_L hs ht (headerSize_alone _ _), Nat.zero_add, hbody, run_parseLogged, hlog]
  simp [settle, hs]

/-- A text is stored if and only if it has fewer than 1500 bytes, and then it comes back. -/
theorem log_roundTrip (ht : t.isEnabled = true) (hnul : 0 ∉ message) (level : ULogLevel)
    (timestamp : UInt64) :
    ((∃ t' e, (t.storeMessage message level timestamp).run true = .ok (true, t') e) ↔
      message.length ≤ 1499) ∧
    (message.length ≤ 1499 → ∃ m,
      (t.storeMessage message level timestamp).run true = .ok (true, t.toIo m) true ∧
      ∀ p : MutelemetryParser, p.state = .definitionOrData → (parse m 0).run p = .ok true { p with
        logCalls := p.logCalls ++ [⟨level.code, timestamp, message⟩]
        messageLogs := p.messageLogs ++ [⟨level.code, timestamp, message⟩] }) ∧
    (1499 < message.length →
      (t.storeMessage message level timestamp).run true = .ok (false, t) true) := by
  have hrun := MuTelemetry.run_storeMessage ht message level timestamp true
  rw [cstr_eq_self hnul] at hrun
  refine ⟨?_, fun hlen => ?_, fun hlen => ?_⟩
  · rw [hrun]
    constructor
    · rintro ⟨t', e, h⟩
      split at h
      · omega
      · cases h
    · intro hlen
      rw [if_pos (by omega)]
      exact ⟨_, _, rfl⟩
  · rw [if_pos (by omega)] at hrun
    exact ⟨_, hrun, fun p hs => run_parse_log hs (by omega) level timestamp⟩
  · rw [hrun, if_neg (by omega)]

theorem log_roundTrip_hi : ∃ m, ∀ p : MutelemetryParser, p.state = .definitionOrData →
    (parse m 0).run p = .ok true { p with
      logCalls := p.logCalls ++ [⟨ULogLevel.info.code, 7, ascii "hi"⟩]
      messageLogs := p.messageLogs ++ [⟨ULogLevel.info.code, 7, ascii "hi"⟩] } := by
  obtain ⟨m, -, hround⟩ := (log_roundTrip (t := .new true false 0) rfl
    (show 0 ∉ ascii "hi" by decide) .info 7).2.1 (by decide)
  exact ⟨m, hround⟩

end

end Mutelemetry.Stream
