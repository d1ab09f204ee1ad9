import Mutelemetry.Parse.Message
import Mutelemetry.Parse.Naming

/-!
# The grammar of a stream

`ParseState.next` is the state machine on the kinds of messages alone. A parser
that is given well-formed messages follows it, and `Grammar` is its language.
-/

namespace Mutelemetry.Parse

open ByteString Stateful Ulog

/-- The state behind a well-formed message; none where it is rejected. -/
def ParseState.next : ParseState → Kind → Option ParseState
  | .header, .fileHeader => some .flags
  | .flags, .flags false => some .definition
  | .definition, .message .I | .definition, .message .M | .definition, .message .F
  | .definition, .message .P => some .definition
  | .definition, .message .A | .definition, .addData => some .definitionOrData
  | .definitionOrData, .message .B | .definitionOrData, .message .F => none
  | .definitionOrData, .message _ | .definitionOrData, .addData => some .definitionOrData
  | _, _ => none

def Takes (p : MutelemetryParser) (m : Bytes) (s : ParseState) : Prop :=
  ∃ q, (parse m 0).run p = .ok true q ∧ q.state = s

def Rejects (p : MutelemetryParser) (m : Bytes) : Prop :=
  (∃ q, (parse m 0).run p = .ok false q ∧ q.state = .invalid) ∨
    ∃ fault q, fault.isThrown = false ∧ (parse m 0).run p = .error fault q

-- ---------------------------------------------------------------------------
-- One message
-- ---------------------------------------------------------------------------

theorem takes_of_settle (h : (parse m 0).run p = settle r) (hr : r = .ok s q)
    (hs : s ≠ .invalid) : Takes p m s := by
  refine ⟨{ q with state := s }, ?_, rfl⟩
  rw [h, hr]
  simp [settle, hs]

theorem takes_of_handle (h : (handle p.state m 0).run p = .ok s q) (hs : s ≠ .invalid) :
    Takes p m s :=
  takes_of_settle (run_parse m 0 p) h hs

theorem rejects_of_handle (h : (handle p.state m 0).run p = .ok .invalid q) : Rejects p m := by
  refine .inl ⟨{ q with state := .invalid }, ?_, rfl⟩
  rw [run_parse, h]
  rfl

theorem rejects_of_fault {fault : Fault} (h : (handle p.state m 0).run p = .error fault q)
    (hf : fault.isThrown = false) : Rejects p m := by
  refine .inr ⟨fault, q, hf, ?_⟩
  rw [run_parse, h]
  rfl

theorem readFrom_error (h : readFrom buffer pos = .error fault) : fault = .outOfBounds := by
  simp only [readFrom, bind_eq_error] at h
  obtain h | ⟨bs, -, h⟩ := h
  · exact fetch_error h
  · split at h
    · obtain h | ⟨version, -, h⟩ := bind_eq_error.mp h
      · exact readUInt8_error h
      · obtain h | ⟨timestamp, -, h⟩ := bind_eq_error.mp h
        · exact readUInt64_error h
        · cases h
    · cases h

theorem readFrom_ok (version : UInt8) (timestamp : Nat) : ∃ timestamp',
    readFrom (magic ++ ([version] ++ leBytes 8 timestamp)) 0 = .ok (some timestamp') := by
  have hmagic : fetch (magic ++ ([version] ++ leBytes 8 timestamp)) ((0 : Nat) : Int) 7 = .ok magic :=
    fetch_at [] ([version] ++ leBytes 8 timestamp) rfl rfl rfl
  have hversion : readUInt8 (magic ++ ([version] ++ leBytes 8 timestamp)) (0 + 7) = .ok version :=
    readUInt8_at magic (leBytes 8 timestamp) _ rfl rfl
  have htime : fetch (magic ++ ([version] ++ leBytes 8 timestamp)) ((0 + 8 : Nat) : Int) 8 =
      .ok (leBytes 8 timestamp) :=
    fetch_at (magic ++ [version]) [] (by simp) rfl (length_leBytes _ _).symm
  simp only [readFrom, hmagic, ok_bind, if_true, hversion, readUInt64, htime, Except.map]
  exact ⟨_, rfl⟩

section
variable {p : MutelemetryParser} {m : Bytes}

theorem takes_header (hs : p.state = .header) (hr : readFrom m 0 = .ok (some timestamp)) :
    Takes p m .flags := by
  refine takes_of_handle (q := { p with startTime := some timestamp }) ?_ (by simp)
  simp only [hs, handle, run_seq, parseHeader, hr, run_lift_ok]
  rw [← hs]
  rfl

theorem rejects_header (hs : p.state = .header) (ht : headerType m 0 = .ok (some t)) :
    Rejects p m := by
  cases hr : readFrom m 0 with
  | error fault =>
    have hrun : (handle p.state m 0).run p = .error fault p := by
      simp only [hs, handle, run_seq, parseHeader, hr, run_lift_error]
    exact rejects_of_fault hrun (by rw [readFrom_error hr]; rfl)
  | ok timestamp =>
    cases timestamp with
    | some timestamp =>
      rw [headerType_header hr] at ht
      cases ht
    | none =>
      have hrun : (handle p.state m 0).run p = .error .assertion p := by
        simp only [hs, handle, run_seq, parseHeader, hr, run_lift_ok]
        rfl
      exact rejects_of_fault hrun rfl

theorem run_handle_flags (hs : p.state = .flags) (hf : flagsState m 0 = .ok s) :
    (handle p.state m 0).run p = if s = .definition then .ok s p else .error .assertion p := by
  simp only [hs, handle, run_seq, parseFlags, hf, run_lift_ok, assertState]
  split
  · rfl
  · rfl

theorem rejects_flags (hs : p.state = .flags) (hf : flagsState m 0 = .ok .invalid) :
    Rejects p m := by
  have hrun := run_handle_flags hs hf
  rw [if_neg (by simp)] at hrun
  exact rejects_of_fault hrun rfl

theorem flagsState_other (ht : headerType m 0 = .ok t) (hne : t ≠ some .B) :
    flagsState m 0 = .ok .invalid := by
  rw [flagsState, ht, ok_bind, if_neg hne]
  rfl

theorem rejects_definition (hs : p.state = .definition) (ht : headerType m 0 = .ok t)
    (hne : t ∉ [some .I, some .M, some .F, some .P, some .A]) : Rejects p m := by
  refine rejects_of_handle (q := p) ?_
  rw [hs, handle, parseDefinition, run_seq, run_lift, ht]
  cases t with
  | none => rfl
  | some t =>
    cases t with
    | B | D | L | S | O | R => rfl
    | I | M | F | P | A => exact absurd hne (by decide)

theorem rejects_data (hs : p.state = .definitionOrData) (ht : headerType m 0 = .ok t)
    (ht' : t ∈ [none, some .B, some .F]) : Rejects p m := by
  refine rejects_of_handle (q := p) ?_
  rw [hs, handle, parseDataSection, run_seq, run_lift, ht]
  simp only [List.mem_cons, List.not_mem_nil, or_false] at ht'
  obtain rfl | rfl | rfl := ht'
  · rfl
  · rfl
  · rfl

theorem takes_info (hb : p.InBody) (ht : headerType m 0 = .ok (some .I))
    (hsize : headerSize m 0 = .ok size) (he : infoEntry m (0 + 3) size = .ok e) :
    Takes p m p.state := by
  have hrun := run_parseInfo m (0 + 3) size p
  rw [he] at hrun
  exact takes_of_settle (run_parse_I hb ht hsize) hrun hb.ne_invalid

theorem takes_multi (hb : p.InBody) (ht : headerType m 0 = .ok (some .M)) : Takes p m p.state := by
  obtain hs | hs := hb
  all_goals
    refine takes_of_handle (q := p) ?_ (by simp [hs])
    simp only [hs, handle, parseDefinition, parseDataSection, run_seq, ht, run_lift_ok]
    rw [← hs]
    rfl

theorem takes_param (hb : p.InBody) (ht : headerType m 0 = .ok (some .P))
    (hr : readParameter m (0 + 3) = .ok (some param)) : Takes p m p.state := by
  have hrun := run_parseParam m (0 + 3) p
  rw [hr] at hrun
  exact takes_of_settle (run_parse_P hb ht) hrun hb.ne_invalid

theorem takes_add (hb : p.InBody) (ht : headerType m 0 = .ok (some .A))
    (hrun : (parseAddData m 0).run p = .ok .definitionOrData q) : Takes p m .definitionOrData :=
  takes_of_settle (run_parse_A hb ht) hrun (by simp)

theorem takes_data (hs : p.state = .definitionOrData) (ht : headerType m 0 = .ok (some .D))
    (hrun : (parseData m (0 + 3)).run p = .ok .definitionOrData q) :
    Takes p m .definitionOrData :=
  takes_of_settle (run_parse_D hs ht) hrun (by simp)

theorem takes_logged (hs : p.state = .definitionOrData) (ht : headerType m 0 = .ok (some .L))
    (hsize : headerSize m 0 = .ok size) (hr : readLog m (0 + 3) size = .ok msgLog) :
    Takes p m .definitionOrData := by
  have hrun := run_parseLogged m (0 + 3) size p
  rw [hr] at hrun
  exact takes_of_settle (run_parse_L hs ht hsize) hrun (by simp)

theorem takes_passed (hs : p.state = .definitionOrData)
    (ht : headerType m 0 = .ok (some .S) ∨ headerType m 0 = .ok (some .O)) :
    Takes p m .definitionOrData := by
  refine takes_of_handle (q := p) ?_ (by simp)
  obtain ht | ht := ht
  all_goals
    simp only [hs, handle, parseDataSection, run_seq, ht, run_lift_ok]
    rfl

theorem takes_remove (hs : p.state = .definitionOrData) (ht : headerType m 0 = .ok (some .R))
    (hr : readUInt16 m (0 + 3) = .ok msgId) : Takes p m .definitionOrData := by
  refine takes_of_handle (q := { p with subscriptions := p.subscriptions.erase msgId }) ?_ (by simp)
  simp only [hs, handle, parseDataSection, run_seq, ht, run_lift_ok, run_parseRemove, hr]

end

-- ---------------------------------------------------------------------------
-- Each type
-- ---------------------------------------------------------------------------

theorem run_parse_F (hs : p.state = .definition) (hf : parseFormatText text = .ok (some format))
    (hsize : text.length < 2 ^ 16) : (parse (frame .F text) 0).run p =
      .ok true { p with formats := p.formats.insert format.name format, state := .definition } := by
  have hfetch : fetch (frame .F text) ((0 + 3 : Nat) : Int) text.length = .ok text :=
    fetch_body .F [] [] (by simp) rfl rfl
  have hparse : fetch (frame .F text) ((0 + 3 : Nat) : Int) (UInt16.ofNat text.length).toNat >>=
      parseFormatText = .ok (some format) := by
    rw [UInt16.toNat_ofNat_of_lt' hsize, hfetch, ok_bind, hf]
  have ht : headerType (frame .F text ++ []) 0 = .ok (some .F) := headerType_frame .F text []
  rw [List.append_nil] at ht
  rw [run_parse]
  simp only [hs, handle, parseDefinition, run_seq, ht, headerSize_alone, run_lift_ok,
    run_parseFormat, hparse]
  rfl

theorem takes_format_text (hs : p.state = .definition) (hf : parseFormatText text = .ok (some format))
    (hsize : text.length < 2 ^ 16) : Takes p (frame .F text) p.state :=
  ⟨_, run_parse_F hs hf hsize, hs.symm⟩

section
variable {name body : Bytes}

theorem headerType_end {buffer : Bytes} (h : buffer.length ≤ pos) :
    headerType buffer pos = .error .outOfBounds := by
  have hnone : window buffer (pos + 2) 1 = none := if_neg (by omega)
  rw [headerType, readUInt8, fetch, if_pos (by omega), Int.toNat_natCast, hnone]
  rfl

theorem takes_add_alone (hb : p.InBody) (hname : 3 + name.length < 2 ^ 16) :
    Takes p (frame .A (addBody msgId multiId name)) .definitionOrData := by
  have hrun : (parseAddData (frame .A (addBody msgId multiId name) ++ []) 0).run p = _ :=
    run_parseAddData_frame hname []
  rw [List.append_nil, behind, headerType_end (by simp [dataPos])] at hrun
  exact takes_add hb (WellFormed.add (p := p) hname).headerType hrun

/-- The D message behind an A message, which the parse of either comes to. What
follows its value is not read. -/
theorem DataBody.run_add (hd : DataBody p body) (hsize : body.length < 2 ^ 16) (msgId : UInt16)
    (multiId : UInt8) (name rest : Bytes) :
    ∃ q, (parseData (frame .A (addBody msgId multiId name) ++ frame .D (body ++ rest))
      (dataPos name + 3)).run p = .ok .definitionOrData q := by
  let before := frame .A (addBody msgId multiId name) ++
    (ULogMessageHeader.mk (.ofNat (body ++ rest).length) ULogMessageType.D.code).bytes
  have hbuf : frame .A (addBody msgId multiId name) ++ frame .D (body ++ rest) =
      before ++ (body ++ rest) := by
    simp [before, frame]
  have hpos : dataPos name + 3 = before.length := by simp [before, dataPos]
  rw [hbuf, hpos]
  exact hd.parse hsize before rest

theorem takes_addData (hb : p.InBody) (hname : 3 + name.length < 2 ^ 16)
    (hsize : body.length < 2 ^ 16)
    (hd : DataBody (p.subscribe (subscriptionOf p.formats msgId multiId name)) body)
    (rest : Bytes) :
    Takes p (frame .A (addBody msgId multiId name) ++ frame .D (body ++ rest)) .definitionOrData := by
  obtain ⟨q, hq⟩ := hd.run_add hsize msgId multiId name rest
  refine takes_add hb (headerType_frame _ _ _) (q := q) ?_
  rw [run_parseAddData_frame hname, behind_data]
  exact hq

theorem takes_addData_alone (hb : p.InBody) (hname : 3 + name.length < 2 ^ 16)
    (hsize : body.length < 2 ^ 16)
    (hd : DataBody (p.subscribe (subscriptionOf p.formats msgId multiId name)) body) :
    Takes p (frame .A (addBody msgId multiId name) ++ frame .D body) .definitionOrData := by
  have htakes := takes_addData hb hname hsize hd []
  rwa [List.append_nil] at htakes

end

def Obeys (p : MutelemetryParser) (m : Bytes) (k : Kind) : Prop :=
  match p.state.next k with
  | some s => Takes p m s
  | none => Rejects p m

section
variable (h : WellFormed p m k)
include h

theorem obeys_header (hs : p.state = .header) : Obeys p m k := by
  have ht := h.headerType
  unfold Obeys
  rw [hs]
  cases h with
  | fileHeader =>
    obtain ⟨_, hr⟩ := readFrom_ok _ _
    exact takes_header hs hr
  | flags | info | multi | format | param | add | addData | data | logged | sync | dropout
  | remove => exact rejects_header hs ht

theorem obeys_flags (hs : p.state = .flags) : Obeys p m k := by
  have ht := h.headerType
  unfold Obeys
  rw [hs]
  cases h with
  | @flags first compat others offsets hcompat hothers hoffsets =>
    have hf : flagsState (frame .B (compat ++ (first :: others ++ offsets))) 0 = _ :=
      flagsState_ok hcompat hothers hoffsets
    cases hbits : unknownBits first others with
    | true =>
      rw [hbits] at hf
      exact rejects_flags hs hf
    | false =>
      rw [hbits] at hf
      exact takes_of_handle (run_handle_flags hs hf) (by simp)
  | fileHeader | info | multi | format | param | add | addData | data | logged | sync | dropout
  | remove => exact rejects_flags hs (flagsState_other ht (by decide))

omit h in
theorem takes_body (h : WellFormed p m (.message t)) (hb : p.InBody) (hmem : t ∈ [.I, .M, .P]) :
    Takes p m p.state := by
  have ht := h.headerType
  cases h with
  | info hspace hkey hlen hsize =>
    rename_i type key value
    have hraw : (type ++ charByte ' ' :: key).length = type.length + 1 + key.length := by
      simp only [List.length_append, List.length_cons]
      omega
    have hbody : ([UInt8.ofNat (type.length + 1 + key.length)] ++
        (type ++ charByte ' ' :: key ++ value)).length =
        1 + (type ++ charByte ' ' :: key).length + value.length := by
      simp only [List.length_append, List.length_singleton]
      omega
    rw [← hraw] at hlen hsize
    have he : infoEntry (frame .I ([UInt8.ofNat (type ++ charByte ' ' :: key).length] ++
        (type ++ charByte ' ' :: key ++ value))) 3
        (.ofNat (1 + (type ++ charByte ' ' :: key).length + value.length)) = _ :=
      infoEntry_frame (UInt8.toNat_ofNat_of_lt' hlen) (UInt16.toNat_ofNat_of_lt' hsize)
    rw [splitString_append hspace, splitString_eq _ key hkey, hraw] at he
    rw [hraw] at hbody
    rw [← hbody] at he
    exact takes_info hb ht (headerSize_alone _ _) he
  | multi => exact takes_multi hb ht
  | param htype hlen hvalue =>
    rename_i type name value
    have hspace : charByte ' ' ∉ type := by
      obtain rfl | rfl := htype
      · decide
      · decide
    obtain ⟨valType, hv⟩ : ∃ valType, parameterType type = some valType := by
      obtain rfl | rfl := htype
      · exact ⟨.int32, by decide⟩
      · exact ⟨.float, by decide⟩
    have hraw : (type ++ charByte ' ' :: name).length = type.length + 1 + name.length := by
      simp only [List.length_append, List.length_cons]
      omega
    have hr : readParameter (frame .P ([UInt8.ofNat (type.length + 1 + name.length)] ++
        (type ++ charByte ' ' :: name ++ value))) 3 = _ :=
      readParameter_frame (by rw [UInt8.toNat_ofNat_of_lt' hlen, hraw]) hvalue
    rw [if_neg (by simp), takeWhile_of_notMem hspace, hv] at hr
    exact takes_param hb ht hr
  | format | add | data | logged | sync | dropout | remove => exact absurd hmem (by decide)

theorem obeys_definition (hs : p.state = .definition) : Obeys p m k := by
  have hb : p.InBody := .inl hs
  have ht := h.headerType
  unfold Obeys
  rw [hs]
  cases id h with
  | info | multi | param =>
    show Takes p _ .definition
    rw [← hs]
    exact takes_body h hb (by decide)
  | format htext hsize =>
    show Takes p _ .definition
    rw [← hs]
    obtain ⟨format, hf⟩ := htext.parse
    exact takes_format_text hs hf hsize
  | add hname => exact takes_add_alone hb hname
  | addData hname hsize hd => exact takes_addData_alone hb hname hsize hd
  | fileHeader | flags | data | logged | sync | dropout | remove =>
    exact rejects_definition hs ht (by simp [Kind.type])

theorem obeys_data (hs : p.state = .definitionOrData) : Obeys p m k := by
  have hb : p.InBody := .inr hs
  have ht := h.headerType
  unfold Obeys
  rw [hs]
  cases id h with
  | info | multi | param =>
    show Takes p _ .definitionOrData
    rw [← hs]
    exact takes_body h hb (by decide)
  | add hname => exact takes_add_alone hb hname
  | addData hname hsize hd => exact takes_addData_alone hb hname hsize hd
  | @data body hsize hd =>
    obtain ⟨q, hq⟩ := hd.parse hsize
      (ULogMessageHeader.mk (.ofNat body.length) ULogMessageType.D.code).bytes []
    rw [List.append_nil, ULogMessageHeader.length_bytes] at hq
    exact takes_data hs ht hq
  | @logged level timestamp text hsize =>
    have hbody : ([level] ++ (leBytes 8 timestamp ++ text)).length = 1 + (8 + text.length) := by
      simp only [List.length_append, List.length_singleton, length_leBytes]
    have hr : readLog (frame .L ([level] ++ (leBytes 8 timestamp ++ text))) 3
        (.ofNat (1 + (8 + text.length))) = _ :=
      readLog_frame level (length_leBytes _ _) (UInt16.toNat_ofNat_of_lt' hsize)
    rw [← hbody] at hr
    exact takes_logged hs ht (headerSize_alone _ _) hr
  | sync => exact takes_passed hs (.inl ht)
  | dropout => exact takes_passed hs (.inr ht)
  | @remove lo hi rest =>
    have hid : readUInt16 (frame .R ([lo, hi] ++ rest)) (0 + 3) = .ok (.ofNat (leNat [lo, hi])) := by
      have hfetch : fetch (frame .R ([lo, hi] ++ rest)) ((0 + 3 : Nat) : Int) 2 = .ok [lo, hi] :=
        fetch_body .R [] rest rfl rfl rfl
      rw [readUInt16, hfetch]
      rfl
    exact takes_remove hs ht hid
  | fileHeader | flags | format => exact rejects_data hs ht (by simp [Kind.type])

/-- A well-formed message is taken where its kind is, and rejected elsewhere. -/
theorem obeys_wellFormed : Obeys p m k := by
  cases hs : p.state with
  | header => exact obeys_header h hs
  | flags => exact obeys_flags h hs
  | definition => exact obeys_definition h hs
  | definitionOrData => exact obeys_data h hs
  | invalid =>
    unfold Obeys
    rw [hs]
    refine rejects_of_handle (q := p) ?_
    rw [hs]
    rfl

end

-- ---------------------------------------------------------------------------
-- The language
-- ---------------------------------------------------------------------------

def definitionKinds : List Kind := [.message .I, .message .M, .message .F, .message .P]

def addKinds : List Kind := [.message .A, .addData]

def dataKinds : List Kind :=
  [.message .A, .addData, .message .D, .message .L, .message .I, .message .M, .message .P,
    .message .S, .message .O, .message .R]

/-- Definitions; and then, if anything, an A message, alone or with a D message,
and any messages of the data section. -/
def Body (ks : List Kind) : Prop :=
  ∃ defs data, ks = defs ++ data ∧ (∀ k ∈ defs, k ∈ definitionKinds) ∧
    (data = [] ∨ ∃ first rest, data = first :: rest ∧ first ∈ addKinds ∧ ∀ k ∈ rest, k ∈ dataKinds)

/-- The file header, a B message without unknown bits, and the body. -/
def Grammar (ks : List Kind) : Prop := ∃ body, ks = .fileHeader :: .flags false :: body ∧ Body body

section
open Transition ParseState

theorem next_data (k : Kind) :
    next .definitionOrData k = if k ∈ dataKinds then some .definitionOrData else none := by
  cases k with
  | fileHeader | flags | addData => rfl
  | message t => cases t <;> rfl

theorem next_definition (k : Kind) : next .definition k =
    if k ∈ definitionKinds then some .definition
    else if k ∈ addKinds then some .definitionOrData else none := by
  cases k with
  | fileHeader | flags | addData => rfl
  | message t => cases t <;> rfl

theorem run_next_cons : (run next s (k :: ks)).isSome ↔ ∃ s', next s k = some s' ∧ (run next s' ks).isSome := by
  simp only [Option.isSome_iff_exists, run_cons]
  exact ⟨fun ⟨r, s', hk, hr⟩ => ⟨s', hk, r, hr⟩, fun ⟨s', hk, r, hr⟩ => ⟨r, s', hk, hr⟩⟩

theorem run_next_append (h : (run next s (ks ++ more)).isSome) : (run next s ks).isSome := by
  obtain ⟨r, hr⟩ := Option.isSome_iff_exists.mp h
  obtain ⟨m, hm, -⟩ := run_append.mp hr
  exact Option.isSome_iff_exists.mpr ⟨m, hm⟩

theorem run_next_data : (run next .definitionOrData ks).isSome ↔ ∀ k ∈ ks, k ∈ dataKinds := by
  induction ks with
  | nil => simp
  | cons k ks ih =>
    rw [run_next_cons, List.forall_mem_cons, ← ih, next_data]
    by_cases hk : k ∈ dataKinds
    · simp [hk]
    · simp [hk]

theorem run_next_definition : (run next .definition ks).isSome ↔ Body ks := by
  induction ks with
  | nil => exact iff_of_true rfl ⟨[], [], rfl, by simp, .inl rfl⟩
  | cons k ks ih =>
    rw [run_next_cons, next_definition]
    constructor
    · rintro ⟨s', hk, h⟩
      split at hk
      · rename_i hdef
        cases hk
        obtain ⟨defs, data, rfl, hdefs, hdata⟩ := ih.mp h
        exact ⟨k :: defs, data, rfl, List.forall_mem_cons.mpr ⟨hdef, hdefs⟩, hdata⟩
      · split at hk
        · rename_i hadd
          cases hk
          exact ⟨[], k :: ks, rfl, by simp, .inr ⟨k, ks, rfl, hadd, run_next_data.mp h⟩⟩
        · cases hk
    · rintro ⟨defs, data, heq, hdefs, hdata⟩
      cases defs with
      | cons d defs =>
        obtain ⟨rfl, rfl⟩ := List.cons.inj heq
        rw [List.forall_mem_cons] at hdefs
        rw [if_pos hdefs.1]
        exact ⟨_, rfl, ih.mpr ⟨defs, data, rfl, hdefs.2, hdata⟩⟩
      | nil =>
        obtain rfl | ⟨first, rest, rfl, hadd, hrest⟩ := hdata
        · cases heq
        · obtain ⟨rfl, rfl⟩ := List.cons.inj heq
          have hdef := (show ∀ k ∈ addKinds, k ∉ definitionKinds by decide) k hadd
          rw [if_neg hdef, if_pos hadd]
          exact ⟨_, rfl, run_next_data.mpr hrest⟩

/-- What can be read from the start is what can be continued to a whole stream. -/
theorem run_next_header : (run next .header ks).isSome ↔ ∃ more, Grammar (ks ++ more) := by
  have hheader : ∀ k s, next .header k = some s → k = .fileHeader ∧ s = .flags := by
    intro k s hk
    cases k with
    | fileHeader =>
      cases hk
      exact ⟨rfl, rfl⟩
    | flags | message | addData => cases hk
  have hflags : ∀ k s, next .flags k = some s → k = .flags false ∧ s = .definition := by
    intro k s hk
    cases k with
    | flags unknown =>
      cases unknown with
      | true => cases hk
      | false =>
        cases hk
        exact ⟨rfl, rfl⟩
    | fileHeader | message | addData => cases hk
  constructor
  · intro h
    match ks with
    | [] => exact ⟨[.fileHeader, .flags false], [], rfl, [], [], rfl, by simp, .inl rfl⟩
    | [k] =>
      obtain ⟨s, hk, -⟩ := run_next_cons.mp h
      obtain ⟨rfl, -⟩ := hheader k s hk
      exact ⟨[.flags false], [], rfl, [], [], rfl, by simp, .inl rfl⟩
    | k :: k' :: ks =>
      obtain ⟨s, hk, h⟩ := run_next_cons.mp h
      obtain ⟨rfl, rfl⟩ := hheader k s hk
      obtain ⟨s', hk', h⟩ := run_next_cons.mp h
      obtain ⟨rfl, rfl⟩ := hflags k' s' hk'
      exact ⟨[], ks, by simp, run_next_definition.mp h⟩
  · rintro ⟨more, body, heq, hbody⟩
    have hwhole : (run next .header (ks ++ more)).isSome := by
      rw [heq, run_next_cons]
      exact ⟨.flags, rfl, run_next_cons.mpr ⟨.definition, rfl, run_next_definition.mpr hbody⟩⟩
    exact run_next_append hwhole

end

-- ---------------------------------------------------------------------------
-- Sequences of buffers
-- ---------------------------------------------------------------------------

/-- The parser of a program that goes on, or that a fault has stopped. -/
inductive Session
  | live (p : MutelemetryParser)
  | stopped (p : MutelemetryParser)

namespace Session

def parser : Session → MutelemetryParser
  | live p | stopped p => p

/-- One call of `parse`, and whether it accepts the buffer. An exception is
caught; an assertion that fails stops the program. -/
def feed : Session → Bytes → Bool × Session
  | stopped p, _ => (false, stopped p)
  | live p, m => match (parse m 0).run p with
    | .ok b q => (b, live q)
    | .error fault q => (false, if fault.isThrown then live q else stopped q)

def after (s : Session) (ms : List Bytes) : Session := ms.foldl (fun s m => (s.feed m).2) s

def accepts (s : Session) : List Bytes → Bool
  | [] => true
  | m :: ms => (s.feed m).1 && (s.feed m).2.accepts ms

/-- Nothing will be accepted any more, nor change anything. -/
def Closed (s : Session) : Prop := ∀ m, s.feed m = (false, s)

theorem Closed.after {s : Session} (h : s.Closed) (ms : List Bytes) : s.after ms = s := by
  induction ms with
  | nil => rfl
  | cons m ms ih =>
    rw [Session.after, List.foldl_cons, h m]
    exact ih

end Session

/-- Each buffer holds a well-formed message of the kind beside it. -/
inductive Streams : Session → List Bytes → List Kind → Prop
  | nil : Streams s [] []
  | cons : WellFormed s.parser m k → Streams (s.feed m).2 ms ks → Streams s (m :: ms) (k :: ks)

section
variable {p : MutelemetryParser} {m : Bytes}

theorem Takes.feed (h : Takes p m s) : ∃ q, (Session.live p).feed m = (true, .live q) ∧ q.state = s := by
  obtain ⟨q, hrun, hq⟩ := h
  exact ⟨q, by rw [Session.feed, hrun], hq⟩

theorem run_parse_invalid (hs : p.state = .invalid) (pos : Nat) :
    (parse m pos).run p = .ok false p := by
  rw [run_parse, hs]
  cases p
  cases hs
  rfl

theorem Rejects.feed (h : Rejects p m) : ∃ s, (Session.live p).feed m = (false, s) ∧ s.Closed := by
  obtain ⟨q, hrun, hq⟩ | ⟨fault, q, hf, hrun⟩ := h
  · refine ⟨.live q, by rw [Session.feed, hrun], fun m' => ?_⟩
    rw [Session.feed, run_parse_invalid hq]
  · exact ⟨.stopped q, by simp [Session.feed, hrun, hf], fun m' => rfl⟩

/-- A well-formed message goes where its kind goes, or ends the stream. -/
theorem feed_wellFormed (h : WellFormed p m k) :
    (∃ q, p.state.next k = some q.state ∧ (Session.live p).feed m = (true, .live q)) ∨
    (p.state.next k = none ∧ ∃ s, (Session.live p).feed m = (false, s) ∧ s.Closed) := by
  have hobeys : Obeys p m k := obeys_wellFormed h
  unfold Obeys at hobeys
  cases hnext : p.state.next k with
  | some s =>
    rw [hnext] at hobeys
    obtain ⟨q, hfeed, rfl⟩ := hobeys.feed
    exact .inl ⟨q, rfl, hfeed⟩
  | none =>
    rw [hnext] at hobeys
    exact .inr ⟨rfl, hobeys.feed⟩

theorem accepts_iff (h : Streams (.live p) ms ks) :
    (Session.live p).accepts ms = true ↔ (Transition.run ParseState.next p.state ks).isSome := by
  induction ms generalizing p ks with
  | nil =>
    cases h
    exact iff_of_true rfl rfl
  | cons m ms ih =>
    cases h with
    | cons hwf hrest =>
      rw [run_next_cons, Session.accepts, Bool.and_eq_true]
      replace hwf : WellFormed p _ _ := hwf
      obtain ⟨q, hnext, hfeed⟩ | ⟨hnext, s, hfeed, -⟩ := feed_wellFormed hwf
      · rw [hfeed] at hrest ⊢
        simp [hnext, ih hrest]
      · rw [hfeed]
        simp [hnext]

theorem accepts_append (h : (Session.live p).accepts as = true)
    (hs : Streams (.live p) (as ++ m :: bs) ks) :
    ∃ q k, (Session.live p).after as = .live q ∧ WellFormed q m k ∧
      (Session.live p).accepts (as ++ [m]) = ((Session.live q).feed m).1 := by
  induction as generalizing p ks with
  | nil =>
    cases hs with
    | cons hwf => exact ⟨p, _, rfl, hwf, by simp [Session.accepts]⟩
  | cons a as ih =>
    rw [Session.accepts, Bool.and_eq_true] at h
    cases hs with
    | cons hwf hrest =>
      replace hwf : WellFormed p _ _ := hwf
      obtain ⟨q, -, hfeed⟩ | ⟨-, s, hfeed, -⟩ := feed_wellFormed hwf
      · rw [hfeed] at hrest h
        obtain ⟨r, k', hafter, hwf', haccepts⟩ := ih h.2 hrest
        refine ⟨r, k', ?_, hwf', ?_⟩
        · rw [Session.after, List.foldl_cons, hfeed]
          exact hafter
        · rw [List.cons_append, Session.accepts, hfeed, Bool.true_and]
          exact haccepts
      · rw [hfeed] at h
        cases h.1

end

/-- A fresh parser accepts well-formed messages exactly when they are, or begin,
a stream of the grammar; and behind the first one that it rejects, whatever
comes is rejected and changes nothing. -/
theorem parser_grammar (h : Streams (.live .new) ms ks) :
    ((Session.live .new).accepts ms = true ↔ ∃ more, Grammar (ks ++ more)) ∧
    ∀ as m bs, ms = as ++ m :: bs → (Session.live .new).accepts as = true →
      (Session.live .new).accepts (as ++ [m]) = false →
      ∀ cs c, ((Session.live .new).after (as ++ m :: cs)).feed c =
        (false, (Session.live .new).after (as ++ [m])) := by
  refine ⟨(accepts_iff h).trans run_next_header, ?_⟩
  rintro as m bs rfl has hm cs c
  obtain ⟨q, k, hafter, hwf, haccepts⟩ := accepts_append has h
  obtain ⟨s, hfeed, hclosed⟩ : ∃ s, (Session.live q).feed m = (false, s) ∧ s.Closed := by
    obtain ⟨r, -, hfeed⟩ | ⟨-, hclosed⟩ := feed_wellFormed hwf
    · rw [haccepts, hfeed] at hm
      cases hm
    · exact hclosed
  have hend (cs : List Bytes) : (Session.live .new).after (as ++ m :: cs) = s := by
    rw [Session.after, List.foldl_append, List.foldl_cons]
    rw [Session.after] at hafter
    rw [hafter, hfeed]
    exact hclosed.after cs
  rw [hend cs, hend [], hclosed c]

def earlyLog : List Bytes :=
  oneType.map (·.1) ++ [frame .L ([6] ++ (leBytes 8 7 ++ ascii "up"))]

theorem parser_grammar_earlyLog : ∃ ks, Streams (.live .new) earlyLog ks ∧
    ¬ (∃ more, Grammar (ks ++ more)) ∧
    ∀ cs c, ((Session.live .new).after (earlyLog ++ cs)).feed c =
      (false, (Session.live .new).after earlyLog) := by
  have htext : IsFormatText (ascii "T:int8_t[2] a;") := by
    refine ⟨ascii "T", [⟨ascii "int8_t", some 2, ascii "a"⟩], [], by decide, ?_, .inl rfl, by decide⟩
    exact List.forall_mem_singleton.mpr ⟨by decide, by decide⟩
  have hstreams : Streams (.live .new) earlyLog
      [.fileHeader, .flags false, .message .F, .message .L] := by
    refine .cons ?_ (.cons ?_ (.cons (.format htext (by decide)) (.cons (.logged (by decide)) .nil)))
    · exact (WellFormed.fileHeader : WellFormed _ (magic ++ ([1] ++ leBytes 8 0)) _)
    · exact (WellFormed.flags rfl rfl rfl : WellFormed _ (frame .B (List.replicate 8 0 ++
        (0 :: List.replicate 7 0 ++ List.replicate 24 0))) (.flags (unknownBits 0 _)))
  have hall := parser_grammar hstreams
  refine ⟨_, hstreams, ?_, ?_⟩
  · rw [← hall.1]
    decide +kernel
  · intro cs c
    have hend := hall.2 (oneType.map (·.1)) (frame .L ([6] ++ (leBytes 8 7 ++ ascii "up"))) [] rfl
      (by decide +kernel) (by decide +kernel) cs c
    simpa [earlyLog] using hend

/-- The file header alone is accepted, and is no stream. -/
theorem fileHeader_accepted : ¬ ∀ ms ks, Streams (.live .new) ms ks →
    ((Session.live .new).accepts ms = true ↔ Grammar ks) := by
  intro h
  have hstreams : Streams (.live .new) [fileHeader 0] [.fileHeader] :=
    .cons (WellFormed.fileHeader : WellFormed _ (magic ++ ([1] ++ leBytes 8 0)) _) .nil
  obtain ⟨body, heq, -⟩ := (h _ _ hstreams).mp (by decide +kernel)
  cases heq

end Mutelemetry.Parse
