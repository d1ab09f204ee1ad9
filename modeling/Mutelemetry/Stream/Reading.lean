import Mutelemetry.Lib.Related
import Mutelemetry.Parse.Delivery
import Mutelemetry.Parse.Padding
import Mutelemetry.Stream.RoundTrip

/-!
# What a stream says

The stream of a writer as its calls mean it: each call adds to what a reader
has, the tables of the definitions and the values and texts behind them. The
parser that is given the messages has exactly that in the end.
-/

namespace Mutelemetry.Stream

open ByteString Stateful Ulog Telemetry Parse

-- ---------------------------------------------------------------------------
-- Readings
-- ---------------------------------------------------------------------------

/-- What a reader has. Of a delivery the name is left out, which depends on the
instances of its type. -/
structure Reading where
  state : ParseState
  info : AList fun _ : Bytes => Bytes
  parameters : List Parameter
  formats : Formats
  data : List (UInt64 × List (Bytes × Float))
  logs : List MessageLog
  /-- Something was looked for behind the end of a message. -/
  strayed : Bool

namespace Reading

def start : Reading := ⟨.definition, ∅, [], ∅, [], [], false⟩

def addInfo (r : Reading) (key value : Bytes) : Reading :=
  { r with info := if key ∈ r.info then r.info else r.info.insert key value }

def addParameter (r : Reading) (param : Parameter) : Reading :=
  { r with parameters := r.parameters ++ [param] }

def addFormat (r : Reading) (format : Format) : Reading :=
  { r with formats := r.formats.insert format.name format }

/-- A record is delivered twice. -/
def deliver (r : Reading) (timestamp : UInt64) (leaves : List (Bytes × Float)) : Reading := { r with
  state := .definitionOrData
  data := r.data ++ [(timestamp, leaves), (timestamp, leaves)] }

def log (r : Reading) (msgLog : MessageLog) : Reading := { r with logs := r.logs ++ [msgLog] }

end Reading

def readingOf (p : MutelemetryParser) : Reading where
  state := p.state
  info := p.info
  parameters := p.parameters
  formats := p.formats
  data := p.dataCalls.map fun d => (d.timestamp, d.structuredData)
  logs := p.logCalls
  strayed := p.strayed

/-- What a call says to a reader that has this much. -/
inductive Says (r : Reading) : Call → Reading → Prop
  | paramInt : printedKey (cstr key) = type ++ charByte ' ' :: name →
    parameterType type = some valType →
    Says r (.registerParamInt key value) (r.addParameter ⟨name, value.toUInt32, valType⟩)
  | paramFloat : printedKey (cstr key) = type ++ charByte ' ' :: name →
    parameterType type = some valType →
    Says r (.registerParamFloat key value) (r.addParameter ⟨name, value.toBits, valType⟩)
  | info : printedKey (MuTelemetry.infoKey value.length key) =
      (ascii "char[" ++ decimal value.length ++ ascii "]") ++ charByte ' ' :: name → name ≠ [] →
    Says r (.registerInfo key value) (r.addInfo (name.takeWhile (· ≠ charByte ' ')) value)
  | infoMulti : Says r (.registerInfoMulti key value isContinued) r
  | dataFormat : r.state = .definition →
    parseFormatText (MuTelemetry.printedFormat (MuTelemetry.formatText typeName fields)) =
      .ok (some format) →
    Says r (.registerDataFormat typeName fields) (r.addFormat format)
  | data {rest : Bytes} : typeName.length < 2 ^ 31 → r.formats.lookup typeName = some format →
    Resolved r.formats typeName → Conforms r.formats format.slots v →
    data.drop 8 = v.encode ++ rest →
    Says r (.storeData data typeName annotation timestamp)
      (r.deliver timestamp (v.leaves r.formats [] format.slots))
  | message : r.state = .definitionOrData →
    Says r (.storeMessage message level timestamp) (r.log ⟨level.code, timestamp, cstr message⟩)

inductive Tells : Reading → List Call → Reading → Prop
  | nil : Tells r [] r
  | cons : Says r c r₁ → Tells r₁ cs r' → Tells r (c :: cs) r'

theorem tells_append : Tells r (cs ++ cs') r' ↔ ∃ r₁, Tells r cs r₁ ∧ Tells r₁ cs' r' := by
  constructor
  · intro h
    induction cs generalizing r with
    | nil => exact ⟨r, .nil, h⟩
    | cons c cs ih =>
      cases h with
      | cons hs h =>
        obtain ⟨r₁, h₁, h₂⟩ := ih h
        exact ⟨r₁, .cons hs h₁, h₂⟩
  · rintro ⟨r₁, h₁, h₂⟩
    induction h₁ with
    | nil => exact h₂
    | cons hs _ ih => exact .cons hs (ih h₂)

-- ---------------------------------------------------------------------------
-- Definitions and log messages
-- ---------------------------------------------------------------------------

section
variable {p : MutelemetryParser} {text value : Bytes}

theorem parameterType_blank (h : parameterType type = some valType) : charByte ' ' ∉ type := by
  unfold parameterType at h
  split at h
  · rename_i heq
    subst heq
    decide
  · split at h
    · rename_i heq
      subst heq
      decide
    · cases h

theorem run_parse_param (hb : p.InBody) (hroom : (MuTelemetry.printedLen text).toNat + 4 < 255)
    (hvalue : value.length = 4) (hkey : printedKey text = type ++ charByte ' ' :: name)
    (htype : parameterType type = some valType) :
    (parse (frame .P (MuTelemetry.keyedBody [] text value)) 0).run p =
      .ok true { p with parameters := p.parameters ++ [⟨name, .ofNat (leNat value), valType⟩] } := by
  have hblank := parameterType_blank htype
  have ht := headerType_frame .P (MuTelemetry.keyedBody [] text value) []
  rw [List.append_nil] at ht
  refine (parse_param_iff ht).mpr ⟨hb, _, ?_, rfl⟩
  rw [keyedBody_nil, readParameter_frame (toNat_printedLen_eq (by omega)) hvalue, hkey,
    if_neg (by simp), takeWhile_of_notMem hblank, dropWhile_of_notMem hblank, htype]
  rfl

theorem run_parse_infoMessage (hb : p.InBody)
    (hroom : (MuTelemetry.printedLen text).toNat + value.length < 255)
    (hkey : printedKey text = (ascii "char[" ++ decimal n ++ ascii "]") ++ charByte ' ' :: name)
    (hname : name ≠ []) :
    (parse (frame .I (MuTelemetry.keyedBody [] text value)) 0).run p =
      .ok true (p.addInfo (name.takeWhile (· ≠ charByte ' ')) value) := by
  have hsize := length_keyedMessage hroom
  have ht := headerType_frame .I (MuTelemetry.keyedBody [] text value) []
  rw [List.append_nil] at ht
  refine (parse_info_iff ht (headerSize_alone _ _)).mpr ⟨hb, _, _, ?_, rfl⟩
  have hchar : (ascii "char[").isPrefixOf (ascii "char[" ++ decimal n ++ ascii "]") = true := by
    rw [List.isPrefixOf_iff_prefix, List.append_assoc]
    exact List.prefix_append _ _
  rw [keyedBody_nil] at hsize ⊢
  rw [infoEntry_frame (toNat_printedLen_eq (by omega)) hsize, hkey,
    splitString_append (blank_notMem_charType n), splitString_eq _ name hname]
  simp only [if_pos hchar]

theorem run_parse_multi (hb : p.InBody) (body : Bytes) :
    (parse (frame .M body) 0).run p = .ok true p := by
  have ht := headerType_frame .M body []
  rw [List.append_nil] at ht
  exact (Handles.multi hb ht).run hb.ne_invalid

end

-- ---------------------------------------------------------------------------
-- Records
-- ---------------------------------------------------------------------------

section
variable {tags : Tag → Prop} {p q : MutelemetryParser} {a : Tag}

theorem readingOf_delivers (h : Delivers p buffer message sub q)
    (hcalls : q.dataCalls = p.dataCalls ++ [data]) : readingOf q = { readingOf p with
      data := (readingOf p).data ++ [(data.timestamp, data.structuredData)] } := by
  cases h with
  | mk =>
    simp only [readingOf, hcalls, List.map_append, List.map_cons, List.map_nil]
    rfl

/-- What a record says that holds a tree of its type. -/
theorem readingOf_record (h : Serves tags p) (hc : Coherent tags) (hb : p.InBody) (ha : tags a)
    (hname : 3 + a.name.length < 2 ^ 16) (hf : p.formats.lookup a.name = some format)
    (hr : Resolved p.formats a.name) (ht : Conforms p.formats format.slots v)
    (hsize : (dataPayload a.msgId tval v).length < 2 ^ 16)
    (hpayload : payload = leBytes 8 tval.toNat ++ (v.encode ++ rest))
    (hv : valid p (addData a.msgId a.multiId a.name payload) = some q) :
    readingOf q = (readingOf p).deliver tval (v.leaves p.formats [] format.slots) := by
  -- the subscription that the D message finds
  have hlookup := lookup_subscribe p (a.subscription p.formats)
  obtain ⟨b, hb', hsub, hbname⟩ := Tagged.lookup (p := p.subscribe (a.subscription p.formats)) hc
    (fun _ _ => h.subs.subscribe fun _ => ⟨a, ha, rfl⟩) ha hlookup
  rw [hsub] at hlookup
  have hmem : a.name ∈ p.formats := AList.lookup_isSome.mp (by rw [hf]; rfl)
  have hformat : (b.subscription p.formats).format = some a.name := by
    simp [Tag.subscription, subscriptionOf, hbname, hmem]
  have hseries := SeriesOf.created (p := p.subscribe (a.subscription p.formats)) h.series hc hb'
    (hbname ▸ hf)
  -- where the D message lies
  let before := frame .A (addBody a.msgId a.multiId a.name) ++
    (ULogMessageHeader.mk (.ofNat (dataPayload a.msgId tval v ++ rest).length)
      ULogMessageType.D.code).bytes
  have hbuf : before ++ (dataPayload a.msgId tval v ++ rest) =
      addData a.msgId a.multiId a.name payload := by
    simp [before, addData, dataPayload, hpayload, frame]
  have hpos : before.length = dataPos a.name + 3 := by simp [before, dataPos]
  obtain ⟨q₁, hd, hcalls⟩ := delivers_tree (p := p.subscribe (a.subscription p.formats))
    hformat hf hr ht hsize hseries before rest
  rw [hbuf, hpos] at hd
  obtain ⟨data, q₂, hcalls₁, hd₂, hcalls₂, hrun⟩ :=
    run_checkUlogValid_delivers hb hname hlookup hd
  obtain rfl : _ = data := List.singleton_inj.mp (List.append_cancel_left (hcalls.symm.trans hcalls₁))
  obtain rfl : q = { q₂ with state := .definitionOrData } := by
    have hq := (valid_eq_some.mp hv).symm.trans hrun
    cases hq
    rfl
  have hsecond : readingOf q₂ = _ := readingOf_delivers hd₂ hcalls₂
  have hfirst : readingOf q₁ = _ := readingOf_delivers hd hcalls
  have hsame : readingOf { q₁ with state := .definitionOrData } =
      { readingOf q₁ with state := .definitionOrData } := rfl
  have hlast : readingOf { q₂ with state := .definitionOrData } =
      { readingOf q₂ with state := .definitionOrData } := rfl
  rw [hlast, hsecond, hsame, hfirst]
  simp only [Reading.deliver, List.append_assoc]
  rfl

end

-- ---------------------------------------------------------------------------
-- One call
-- ---------------------------------------------------------------------------

section
variable {p : MutelemetryParser} {t t' : MuTelemetry}

theorem valid_of_parse (h : Serves tags p) (hc : Coherent tags) (hb : p.InBody)
    (hm : checkUlogDataBegin m = false) (hrun : (parse m 0).run p = .ok true q) :
    valid p m = some q ∧ Serves tags q ∧ q.InBody := by
  have hv := (valid_once hm).mpr (accept_at.mpr hrun)
  obtain ⟨hserves, hs⟩ := h.valid hc hm hv
  refine ⟨hv, hserves, ?_⟩
  obtain hp | hp := hb
  · exact .inl (by rw [hs, hp]; rfl)
  · exact .inr (by rw [hs, hp]; rfl)

/-- The message that a call enqueues, where the types have these identifiers. -/
def Spoken (names : List Bytes) (c : Call) (m : Bytes) : Prop :=
  ∃ t t' ns, MuTelemetry.Enqueues t c m t' ∧ t.MsgIds ns ∧ entered ns (storedTypes [c]) <+: names

theorem Spoken.mono (h : Spoken names c m) (hpre : names <+: names') : Spoken names' c m := by
  obtain ⟨t, t', ns, he, hids, hns⟩ := h
  exact ⟨t, t', ns, he, hids, hns.trans hpre⟩

/-- The message of a call says to a parser what the call says. -/
theorem Says.valid (hs : Says (readingOf p) c r) (hm : Spoken names c m)
    (h : Serves (TagOf names) p) (hc : Coherent (TagOf names)) (hb : p.InBody) :
    ∃ q, Parse.valid p m = some q ∧ readingOf q = r ∧ Serves (TagOf names) q ∧ q.InBody := by
  obtain ⟨t, t', ns, he, hids, hpre⟩ := hm
  cases hs with
  | @paramInt _ _ _ _ value hkey htype =>
    cases he with
    | paramInt hroom =>
      have hrun := run_parse_param hb hroom (length_leBytes 4 value.toUInt32.toNat) hkey htype
      rw [ofNat_leNat_uint32] at hrun
      obtain ⟨hv, hq⟩ := valid_of_parse h hc hb (not_dataBegin_frame (by decide) _) hrun
      exact ⟨_, hv, rfl, hq⟩
  | @paramFloat _ _ _ _ value hkey htype =>
    cases he with
    | paramFloat hroom =>
      have hrun := run_parse_param hb hroom (length_leBytes 4 value.toBits.toNat) hkey htype
      rw [ofNat_leNat_uint32] at hrun
      obtain ⟨hv, hq⟩ := valid_of_parse h hc hb (not_dataBegin_frame (by decide) _) hrun
      exact ⟨_, hv, rfl, hq⟩
  | info hkey hname =>
    cases he with
    | info hroom =>
      have hrun := run_parse_infoMessage hb hroom hkey hname
      obtain ⟨hv, hq⟩ := valid_of_parse h hc hb (not_dataBegin_frame (by decide) _) hrun
      exact ⟨_, hv, rfl, hq⟩
  | infoMulti =>
    cases he with
    | infoMulti =>
      obtain ⟨hv, hq⟩ := valid_of_parse h hc hb (not_dataBegin_frame (by decide) _)
        (run_parse_multi hb _)
      exact ⟨_, hv, rfl, hq⟩
  | @dataFormat typeName fields _ hstate hformat =>
    cases he with
    | dataFormat hlen =>
      have hpos := MuTelemetry.length_formatText typeName fields
      have hsize := MuTelemetry.length_printedFormat
        (show 0 < (MuTelemetry.formatText typeName fields).length by omega)
      have hrun := run_parse_F hstate hformat (by omega)
      obtain ⟨hv, hq⟩ := valid_of_parse h hc hb (not_dataBegin_frame (by decide) _) hrun
      refine ⟨_, hv, ?_, hq⟩
      have hkeep : p.state = .definition := hstate
      simp only [readingOf, Reading.addFormat, hkeep]
  | @data typeName format v data annotation timestamp rest hshort hf hr ht hdata =>
    cases he with
    | data hname hmin hmax hid =>
      rename_i msgId multiId
      have hpre' : enter ns typeName <+: names := hpre
      have hmem : typeName ∈ enter ns typeName := mem_enter.mpr (.inr rfl)
      rw [MuTelemetry.nameLen_of_lt hshort] at hname ⊢
      rw [List.take_length, (hids.identify hid).1, ← idxOf_of_prefix hpre' hmem]
      have ha : TagOf names ⟨.ofNat (names.idxOf typeName), multiId, typeName⟩ :=
        ⟨hpre'.subset hmem, rfl⟩
      obtain ⟨q, hv, hq, hqs, -⟩ :=
        valid_data h hc hb ha hname hmax ⟨format, v, rest, hf, hr, ht, hdata⟩
      have hlen := congrArg List.length hdata
      simp only [List.length_drop, List.length_append] at hlen
      refine ⟨q, hv, ?_, hq, .inr hqs⟩
      rw [record_eq, hdata] at hv
      refine readingOf_record h hc hb ha (by show 3 + typeName.length < 2 ^ 16; omega) hf hr ht ?_ rfl hv
      simp only [dataPayload, List.length_append, length_leBytes]
      omega
  | @message message level timestamp hstate =>
    cases he with
    | message hlen =>
      have hle := length_cstr_le message
      have hrun := run_parse_log hstate (show (cstr message).length < 1500 by omega) level timestamp
      obtain ⟨hv, hq⟩ := valid_of_parse h hc hb (not_dataBegin_frame (by decide) _) hrun
      exact ⟨_, hv, rfl, hq⟩

end

-- ---------------------------------------------------------------------------
-- Streams
-- ---------------------------------------------------------------------------

theorem readingOf_before (h : accept p m = some q) (hs : p.state = .header ∨ p.state = .flags) :
    readingOf q = { readingOf p with state := p.state.past } := by
  obtain ⟨buffer, pos⟩ := m
  obtain ⟨state, r, hh, rfl, hne⟩ := parse_ok (accept_eq_some.mp h)
  cases hh with
  | header hs' => simp [readingOf, hs', ParseState.past]
  | flags hs' => simp [readingOf, hs', ParseState.past]
  | reject => simp at hne
  | info hb | multi hb | param hb | add hb | addData hb =>
    obtain hs' | hs' := hb
    all_goals simp [hs'] at hs
  | format hs' | data hs' | logged hs' | passed hs' | remove hs' => simp [hs'] at hs

theorem readingOf_headerAndFlags
    (hp : Transition.run valid .new [fileHeader timestamp, frame .B (MuTelemetry.zeros 40)] = some p) :
    readingOf p = .start := by
  obtain ⟨p₁, h₁, hp⟩ := Transition.run_cons.mp hp
  obtain ⟨p₂, h₂, hp⟩ := Transition.run_cons.mp hp
  cases hp
  have hfirst : readingOf p₁ = { readingOf .new with state := .flags } :=
    readingOf_before ((valid_once rfl).mp h₁) (.inl rfl)
  have hs₁ : p₁.state = .flags := congrArg Reading.state hfirst
  have hsecond := readingOf_before ((valid_once rfl).mp h₂) (.inr hs₁)
  rw [hsecond, hfirst, hs₁]
  rfl

theorem spoken_of_emits (he : MuTelemetry.Emits t cs ms t') (hids : t.MsgIds ns)
    (hpre : entered ns (storedTypes cs) <+: names) : List.Forall₂ (Spoken names) cs ms := by
  induction he generalizing ns with
  | nil => exact .nil
  | @cons t c m t₁ cs ms t' hm _ ih =>
    rw [storedTypes_cons, entered_append] at hpre
    have hids₁ : t₁.MsgIds (entered ns (storedTypes [c])) := hids.enqueues hm
    exact .cons ⟨t, t₁, ns, hm, hids, (prefix_entered _ _).trans hpre⟩ (ih hids₁ hpre)

theorem Says.strayed (h : Says r c r') : r'.strayed = r.strayed := by
  cases h <;> rfl

/-- A parser that is given buffers that begin with the messages of calls has then
what the calls say. -/
theorem run_says (htells : Tells r₀ cs r) (hms : List.Forall₂ (Spoken names) cs ms)
    (hbs : List.Forall₂ (· <+: ·) ms bs) (hc : Coherent (TagOf names)) (hread : readingOf p = r₀)
    (hstrayed : r₀.strayed = false) (h : Serves (TagOf names) p) (hb : p.InBody) :
    ∃ q, Transition.run valid p bs = some q ∧ readingOf q = r ∧ Serves (TagOf names) q ∧
      q.InBody := by
  induction htells generalizing ms bs p with
  | nil =>
    cases hms
    cases hbs
    exact ⟨p, rfl, hread, h, hb⟩
  | cons hsaid _ ih =>
    subst hread
    cases hms with
    | cons hm hms =>
      cases hbs with
      | cons hmb hbs =>
        obtain ⟨q, hv, hq, hserves, hqb⟩ := hsaid.valid hm h hc hb
        have hqs := hsaid.strayed.trans hstrayed
        have hvalid := valid_padded hv hmb ((congrArg Reading.strayed hq).trans hqs)
        obtain ⟨q', hrun, hlast⟩ := ih hms hbs hq hqs hserves hqb
        exact ⟨q', Transition.run_cons.mpr ⟨q, hvalid, hrun⟩, hlast⟩

theorem run_headerAndFlags_padded (hc : Coherent tags) (timestamp : UInt64)
    (hbs : List.Forall₂ (· <+: ·) [fileHeader timestamp, frame .B (MuTelemetry.zeros 40)] bs) :
    ∃ p, Transition.run valid .new bs = some p ∧ readingOf p = .start ∧ Serves tags p ∧
      p.InBody := by
  obtain ⟨p, hp, hserves, hb⟩ := run_headerAndFlags hc timestamp
  have hread := readingOf_headerAndFlags hp
  have hstrayed : p.strayed = false := congrArg Reading.strayed hread
  obtain ⟨p₁, h₁, hp⟩ := Transition.run_cons.mp hp
  obtain ⟨p₂, h₂, hp⟩ := Transition.run_cons.mp hp
  cases hp
  cases hbs with
  | cons hheader hbs =>
    cases hbs with
    | cons hflags hbs =>
      cases hbs
      have hheader' := valid_padded h₁ hheader (valid_strayed h₂ hstrayed)
      have hflags' := valid_padded h₂ hflags hstrayed
      exact ⟨p, Transition.run_cons.mpr ⟨p₁, hheader', Transition.run_cons.mpr ⟨p, hflags', rfl⟩⟩,
        hread, hserves, hb⟩

/-- Of calls that return true and say something, every message is accepted, in
any buffer that begins with it, and what the parser has then is what they say:
the entries of the infos, the parameters and the formats, each value twice with
its time, and each text. -/
theorem stream_says (hrun : Transition.run MuTelemetry.accept
      (MuTelemetry.new true withLocalLog timestamp).createHeaderAndFlags cs = some t)
    (htells : Tells .start cs r) (htypes : (storedTypes cs).toFinset.card ≤ 2 ^ 16)
    (hnames : NotInstances (storedTypes cs)) (hbs : List.Forall₂ (· <+: ·) t.netQueue bs) :
    ∃ p, Transition.run valid .new bs = some p ∧ readingOf p = r := by
  have hc : Coherent (TagOf (entered [] (storedTypes cs))) := coherent_entered htypes hnames
  obtain ⟨ms, hms, hq⟩ := MuTelemetry.emits_of_run rfl hrun
  rw [hq, MuTelemetry.netQueue_createHeaderAndFlags] at hbs
  obtain ⟨bs₁, bs₂, rfl, hbs₁, hbs₂⟩ := Related.append_left_iff.mp hbs
  obtain ⟨p, hp, hread, hserves, hb⟩ := run_headerAndFlags_padded hc timestamp hbs₁
  obtain ⟨q, hq', hlast, -⟩ := run_says htells (spoken_of_emits hms (ranked_new rfl)
    List.prefix_rfl) hbs₂ hc hread rfl hserves hb
  exact ⟨q, Transition.run_append.mpr ⟨p, hp, hq'⟩, hlast⟩

def firstReading : Reading where
  state := .definitionOrData
  info := ∅
  parameters := []
  formats := AList.insert (ascii "T") parsedFormat ∅
  data := [(7, [(ascii "/a" ++ [0], (5 : Int8).toFloat)]), (7, [(ascii "/a" ++ [0], (5 : Int8).toFloat)])]
  logs := [⟨6, 8, ascii "up"⟩]
  strayed := false

theorem stream_says_firsts : ∃ t p, Transition.run MuTelemetry.accept
      (MuTelemetry.new true false 0).createHeaderAndFlags [firstFormat, firstRecord, firstLog] = some t ∧
    Transition.run valid .new (t.netQueue.map (· ++ [0, 0, 0])) = some p ∧
    readingOf p = firstReading := by
  have hrun : (Transition.run MuTelemetry.accept (MuTelemetry.new true false 0).createHeaderAndFlags
      [firstFormat, firstRecord, firstLog]).isSome = true := by decide +kernel
  obtain ⟨t, ht⟩ := Option.isSome_iff_exists.mp hrun
  have hlookup : (Reading.start.addFormat parsedFormat).formats.lookup (ascii "T") =
      some parsedFormat := AList.lookup_insert _
  have htells : Tells .start [firstFormat, firstRecord, firstLog] firstReading :=
    .cons (.dataFormat rfl (by decide)) (.cons (.data (v := .prim (.int8 5) .done) (by decide) hlookup
      (.flat hlookup (by decide)) (.prim rfl .done) rfl) (.cons (.message rfl) .nil))
  have hbs : List.Forall₂ (· <+: ·) t.netQueue (t.netQueue.map (· ++ [0, 0, 0])) := by
    rw [List.forall₂_map_right_iff, List.forall₂_same]
    exact fun m _ => List.prefix_append m _
  obtain ⟨p, hp, hread⟩ := stream_says ht htells (by decide) (notInstances_singleton _) hbs
  exact ⟨t, p, ht, hp, hread⟩

end Mutelemetry.Stream
