import Mutelemetry.Parse.Coherence
import Mutelemetry.Stream.Definitions
import Mutelemetry.Telemetry.Identifiers

/-!
# Records that are lost

A parser that has the definitions is given some of the messages that the writer
enqueues behind them, in order. It is the first record that takes it to the data
section.
-/

namespace Mutelemetry.Stream

open ByteString Ulog Telemetry Parse

-- ---------------------------------------------------------------------------
-- What is enqueued behind the definitions
-- ---------------------------------------------------------------------------

def isDefinition : Call → Bool
  | .storeData .. | .storeMessage .. => false
  | _ => true

def Stores (ds : List Call) : Call → Prop
  | .storeData _ typeName _ _ => ∃ fields, .registerDataFormat typeName fields ∈ ds
  | .storeMessage .. => True
  | _ => False

theorem not_isData (h : isDefinition c = true) : c.isData = false := by
  cases c with
  | storeData => cases h
  | registerParamInt | registerParamFloat | registerInfo | registerInfoMulti
  | registerDataFormat | storeMessage => rfl

theorem Stores.not_isDefinition (h : Stores ds c) : isDefinition c = false := by
  cases c with
  | storeData | storeMessage => rfl
  | registerParamInt | registerParamFloat | registerInfo | registerInfoMulti
  | registerDataFormat => cases h

theorem Stores.registered (h : Stores ds c) (hn : c.storedType = some typeName) :
    ∃ fields, .registerDataFormat typeName fields ∈ ds := by
  cases c with
  | storeData =>
    cases hn
    exact h
  | storeMessage => cases hn
  | registerParamInt | registerParamFloat | registerInfo | registerInfoMulti
  | registerDataFormat => cases h

/-- Behind the timestamp the data begin with a value of the type, as the formats
have it; a serialized struct may have padding behind that. -/
def ValueOf (formats : Formats) (typeName data : Bytes) : Prop :=
  ∃ format t rest, formats.lookup typeName = some format ∧ Resolved formats typeName ∧
    Conforms formats format.slots t ∧ data.drop 8 = t.encode ++ rest

inductive Stored (names : List Bytes) (cs : List Call) : Bytes → Prop
  | data {data typeName : Bytes} : .storeData data typeName annotation timestamp ∈ cs →
    MuTelemetry.nameLen typeName ≤ 255 → data.length ≤ 1500 →
    Stored names cs (MuTelemetry.record (.ofNat (names.idxOf typeName)) multiId
      (typeName.take (MuTelemetry.nameLen typeName)) timestamp (data.drop 8))
  | message {message : Bytes} : .storeMessage message level timestamp ∈ cs → message.length < 1500 →
    Stored names cs (frame .L ([level.code] ++ (leBytes 8 timestamp.toNat ++ cstr message)))

section
variable {t t' : MuTelemetry}

theorem Stored.mono (h : Stored names cs m) (c : Call) : Stored names (c :: cs) m := by
  cases h with
  | data hc hname hdata => exact .data (List.mem_cons_of_mem _ hc) hname hdata
  | message hc hlen => exact .message (List.mem_cons_of_mem _ hc) hlen

theorem stored_of_enqueues (he : MuTelemetry.Enqueues t c m t') (hc : c ∈ cs)
    (hdef : isDefinition c = false) (hids : t.MsgIds names)
    (hpre : entered names (storedTypes [c]) <+: names') : Stored names' cs m := by
  cases he with
  | data hname _ hdata hid =>
    have hpre' : enter names _ <+: names' := hpre
    rw [(hids.identify hid).1, ← idxOf_of_prefix hpre' (mem_enter.mpr (.inr rfl))]
    exact .data hc hname hdata
  | message hlen => exact .message hc hlen
  | paramInt | paramFloat | info | infoMulti | dataFormat => cases hdef

theorem stored_of_emits (he : MuTelemetry.Emits t cs ms t') (hids : t.MsgIds names)
    (hcs : ∀ c ∈ cs, isDefinition c = false) :
    ∀ m ∈ ms, Stored (entered names (storedTypes cs)) cs m := by
  induction he generalizing names with
  | nil => simp
  | @cons t c m t₁ cs ms t' hm _ ih =>
    rw [List.forall_mem_cons] at hcs
    rw [storedTypes_cons, entered_append, List.forall_mem_cons]
    have hnext : t₁.MsgIds _ := hids.enqueues hm
    refine ⟨stored_of_enqueues hm (by simp) hcs.1 hids (prefix_entered _ _), fun m' hm' => ?_⟩
    exact (ih hnext hcs.2 m' hm').mono c

end

-- ---------------------------------------------------------------------------
-- Types that are told apart
-- ---------------------------------------------------------------------------

def TagOf (names : List Bytes) (a : Tag) : Prop :=
  a.name ∈ names ∧ a.msgId = .ofNat (names.idxOf a.name)

/-- No type is named as an instance of another is. -/
def NotInstances (names : List Bytes) : Prop :=
  ∀ a ∈ names, ∀ b ∈ names, ∀ i : UInt8, b ≠ a ++ ascii "." ++ decimal02 i.toNat

theorem coherent_tagOf (hlen : names.length ≤ 2 ^ 16) (hnames : NotInstances names) :
    Coherent (TagOf names) := by
  refine ⟨fun ha hb hid => ?_, fun ha hb hna hnb => ?_⟩
  · rw [ha.2, hb.2] at hid
    exact eq_of_ofNat_idxOf_eq ofNat_uint16_eq_iff hlen ha.1 hb.1 hid
  · rename_i a b n
    simp only [Tag.seriesNames, List.mem_cons, List.not_mem_nil, or_false] at hna hnb
    obtain rfl | rfl := hna
    · obtain hnb | hnb := hnb
      · exact hnb
      · exact absurd hnb (hnames _ hb.1 _ ha.1 _)
    · obtain hnb | hnb := hnb
      · exact absurd hnb.symm (hnames _ ha.1 _ hb.1 _)
      · have hdot (i : Nat) : charByte '.' ∉ decimal02 i := notMem_decimal02 (by decide)
        simp only [List.append_assoc] at hnb
        exact eq_of_append_eq (hdot _) (hdot _) hnb

theorem coherent_entered (htypes : ns.toFinset.card ≤ 2 ^ 16) (hnames : NotInstances ns) :
    Coherent (TagOf (entered [] ns)) := by
  have hmem (n : Bytes) : n ∈ entered [] ns ↔ n ∈ ns := by simp [mem_entered]
  refine coherent_tagOf (by rw [length_entered]; exact htypes) fun a ha b hb => ?_
  exact hnames a ((hmem a).mp ha) b ((hmem b).mp hb)

-- ---------------------------------------------------------------------------
-- The data section
-- ---------------------------------------------------------------------------

theorem record_eq (i : UInt16) (j : UInt8) (name : Bytes) (timestamp : UInt64) (data : Bytes) :
    MuTelemetry.record i j name timestamp data = addData i j name (leBytes 8 timestamp.toNat ++ data) :=
  rfl

section
variable {p : MutelemetryParser}

theorem valid_data (h : Serves (TagOf names) p) (hc : Coherent (TagOf names)) (hb : p.InBody)
    (ha : TagOf names a) (hname : a.name.length ≤ 255) (hdata : data.length ≤ 1500)
    (hvalue : ValueOf p.formats a.name data) :
    ∃ q, valid p (MuTelemetry.record a.msgId a.multiId a.name timestamp (data.drop 8)) = some q ∧
      Serves (TagOf names) q ∧ q.state = .definitionOrData ∧ q.formats = p.formats := by
  obtain ⟨format, t, rest, hf, hr, ht, hvalue⟩ := hvalue
  have hlen := congrArg List.length hvalue
  have hsize : (dataPayload a.msgId timestamp t).length < 2 ^ 16 := by
    simp only [List.length_drop, List.length_append] at hlen
    simp only [dataPayload, List.length_append, length_leBytes]
    omega
  rw [hvalue, record_eq]
  exact valid_record h hc hb ha (by omega) hf hr ht hsize rfl

inductive Sent (formats : Formats) (names : List Bytes) : Bytes → Prop
  | data : TagOf names a → a.name.length ≤ 255 → data.length ≤ 1500 → ValueOf formats a.name data →
    Sent formats names (MuTelemetry.record a.msgId a.multiId a.name timestamp (data.drop 8))
  | message {text : Bytes} : text.length < 1500 →
    Sent formats names (frame .L ([level] ++ (leBytes 8 timestamp ++ text)))

theorem Stored.sent (h : Stored names cs m) (hnames : ∀ n, n ∈ storedTypes cs → n ∈ names)
    (hshort : ∀ n ∈ storedTypes cs, n.length < 2 ^ 31)
    (hvalues : ∀ data typeName annotation timestamp,
      .storeData data typeName annotation timestamp ∈ cs → ValueOf formats typeName data) :
    Sent formats names m := by
  cases h with
  | data hc hname hdata =>
    have hmem : _ ∈ storedTypes cs := List.mem_filterMap.mpr ⟨_, hc, rfl⟩
    rw [MuTelemetry.nameLen_of_lt (hshort _ hmem)] at hname ⊢
    rw [List.take_length]
    exact Sent.data (a := ⟨_, _, _⟩) ⟨hnames _ hmem, rfl⟩ hname hdata (hvalues _ _ _ _ hc)
  | message hc hlen => exact .message ((length_cstr_le _).trans_lt hlen)

theorem Sent.valid (hm : Sent p.formats names m) (h : Serves (TagOf names) p)
    (hc : Coherent (TagOf names)) (hs : p.state = .definitionOrData ∨
      p.state = .definition ∧ checkUlogDataBegin m = true) :
    ∃ q, valid p m = some q ∧ Serves (TagOf names) q ∧ q.state = .definitionOrData ∧
      q.formats = p.formats := by
  cases hm with
  | data ha hname hdata hvalue =>
    exact valid_data h hc (hs.symm.imp_left And.left) ha hname hdata hvalue
  | message hlen =>
    obtain hs | ⟨-, hbegin⟩ := hs
    · exact valid_logged h hc hs (by omega)
    · cases hbegin

/-- Once the data section has begun, whatever comes is accepted. -/
theorem run_sent (h : Serves (TagOf names) p) (hc : Coherent (TagOf names))
    (hs : p.state = .definitionOrData) (hl : ∀ m ∈ l, Sent p.formats names m) :
    ∃ q, Transition.run valid p l = some q := by
  induction l generalizing p with
  | nil => exact ⟨p, rfl⟩
  | cons m l ih =>
    rw [List.forall_mem_cons] at hl
    obtain ⟨q, hv, hq, hqs, hf⟩ := hl.1.valid h hc (.inl hs)
    obtain ⟨r, hr⟩ := ih hq hqs (by rw [hf]; exact hl.2)
    exact ⟨r, Transition.run_cons.mpr ⟨q, hv, hr⟩⟩

theorem run_sent_iff (h : Serves (TagOf names) p) (hc : Coherent (TagOf names))
    (hs : p.state = .definition) (hl : ∀ m ∈ l, Sent p.formats names m) :
    (∃ q, Transition.run valid p l = some q) ↔ ∀ m ∈ l.head?, checkUlogDataBegin m = true := by
  cases l with
  | nil => simp
  | cons m l =>
    rw [List.forall_mem_cons] at hl
    simp only [List.head?_cons, Option.mem_some_iff, forall_eq']
    constructor
    · rintro ⟨q, hrun⟩
      obtain ⟨r, hv, -⟩ := Transition.run_cons.mp hrun
      cases hl.1 with
      | data => exact checkUlogDataBegin_add _ _ _ _
      | message hlen =>
        rw [not_valid_logged hs (by omega)] at hv
        cases hv
    · intro hbegin
      obtain ⟨q, hv, hq, hqs, hf⟩ := hl.1.valid h hc (.inr ⟨hs, hbegin⟩)
      obtain ⟨r, hr⟩ := run_sent hq hc hqs (by rw [hf]; exact hl.2)
      exact ⟨r, Transition.run_cons.mpr ⟨q, hv, hr⟩⟩

end

-- ---------------------------------------------------------------------------
-- Streams
-- ---------------------------------------------------------------------------

theorem length_registered (he : MuTelemetry.Emits t cs ms t')
    (hc : .registerDataFormat typeName fields ∈ cs) : typeName.length < 2 ^ 31 := by
  obtain ⟨_, _, _, hm⟩ := he.enqueues hc
  cases hm with
  | dataFormat hlen =>
    have hpos := MuTelemetry.length_formatText typeName fields
    omega

/-- What is enqueued by calls that register is no record, and gives no identifiers. -/
structure Defined (ds : List Call) (t : MuTelemetry) : Prop where
  netQueue : ∃ header flags defs, t.netQueue = header :: flags :: defs
  noRecord : ∀ m ∈ t.netQueue, checkUlogDataBegin m = false
  withNetwork : t.withNetwork = true
  msgId : t.msgId = .new
  multiId : t.multiId = ∅
  registered : ∀ typeName fields, .registerDataFormat typeName fields ∈ ds → typeName.length < 2 ^ 31

theorem defined_of_run (hds : ∀ c ∈ ds, isDefinition c = true)
    (hdefs : Transition.run MuTelemetry.accept
      (MuTelemetry.new true withLocalLog timestamp).createHeaderAndFlags ds = some t) : Defined ds t := by
  obtain ⟨defs, hemits, hq⟩ := MuTelemetry.emits_of_run rfl hdefs
  rw [MuTelemetry.netQueue_createHeaderAndFlags] at hq
  have hdata : ∀ c ∈ ds, c.isData = false := fun c hc => not_isData (hds c hc)
  obtain ⟨hmsgId, hmultiId⟩ := hemits.identifiers hdata
  refine ⟨⟨_, _, defs, hq⟩, ?_, hemits.withNetwork, hmsgId, hmultiId, fun _ _ => length_registered hemits⟩
  rw [hq, List.forall_mem_append]
  exact ⟨fun m hm => (headerAndFlags timestamp m hm).1, emits_not_dataBegin hemits hdata⟩

/-- A parser with all definitions is given some of the messages from the first
record on. When the types are told apart and their data has the registered
formats, it accepts them all if and only if the first of them is a record. -/
theorem delivered_accepted_iff (hds : ∀ c ∈ ds, isDefinition c = true)
    (hdefs : Transition.run MuTelemetry.accept
      (MuTelemetry.new true withLocalLog timestamp).createHeaderAndFlags ds = some t₁)
    (hp : Transition.run valid .new t₁.netQueue = some p) (hcs : ∀ c ∈ cs, Stores ds c)
    (hrun : Transition.run MuTelemetry.accept t₁ cs = some t₂)
    (hms : t₂.netQueue = t₁.netQueue ++ ms)
    (hl : l.Sublist (ms.dropWhile fun m => !checkUlogDataBegin m))
    (hvalues : ∀ data typeName annotation timestamp,
      .storeData data typeName annotation timestamp ∈ cs → ValueOf p.formats typeName data)
    (htypes : (storedTypes cs).toFinset.card ≤ 2 ^ 16) (hnames : NotInstances (storedTypes cs)) :
    (∃ q, Transition.run valid p l = some q) ↔ ∀ m ∈ l.head?, checkUlogDataBegin m = true := by
  have hdefined := defined_of_run hds hdefs
  let names := entered [] (storedTypes cs)
  have hmem (n : Bytes) : n ∈ names ↔ n ∈ storedTypes cs := by simp [names, mem_entered]
  have hcoherent : Coherent (TagOf names) := coherent_entered htypes hnames
  -- the definitions
  obtain ⟨header, flags, defs, hq⟩ := hdefined.netQueue
  have hbegin := hdefined.noRecord
  rw [hq] at hp hbegin
  obtain ⟨hserves, hstate⟩ := serves_defined hcoherent hbegin hp
  -- the messages behind them
  have hids : t₁.MsgIds [] := by
    rw [MuTelemetry.MsgIds, hdefined.msgId]
    exact ranked_new rfl
  obtain ⟨ms', hemits', hq'⟩ := MuTelemetry.emits_of_run hdefined.withNetwork hrun
  rw [hms, List.append_cancel_left_eq] at hq'
  subst hq'
  have hshort : ∀ n ∈ storedTypes cs, n.length < 2 ^ 31 := by
    intro n hn
    obtain ⟨c, hc, hn⟩ := List.mem_filterMap.mp hn
    obtain ⟨fields, hreg⟩ := (hcs c hc).registered hn
    exact hdefined.registered n fields hreg
  refine run_sent_iff hserves hcoherent hstate fun m hm => ?_
  have hm' : m ∈ ms := (List.dropWhile_sublist _).subset (hl.subset hm)
  have hstored := stored_of_emits hemits' hids (fun c hc => (hcs c hc).not_isDefinition) m hm'
  exact hstored.sent (fun n hn => (hmem n).mpr hn) hshort hvalues

def oneFormat : List Call := [.registerDataFormat (ascii "T") (ascii "int8_t a;")]

def dataAndLog : List Call :=
  [.storeData (List.replicate 8 0 ++ [5]) (ascii "T") [] 7, .storeMessage (ascii "up") .info 8]

/-- The format as it is printed, with a NUL in the place of its last character. -/
def parsedFormat : Format := ⟨ascii "T", [⟨.int8, ascii "a" ++ [0], [], 1⟩]⟩

def recordOf : Bytes := MuTelemetry.record 0 0 (ascii "T") 7 [5]

def logOf : Bytes := frame .L ([6] ++ (leBytes 8 8 ++ ascii "up"))

theorem run_dataAndLog : ∃ t₁ p t₂, Transition.run MuTelemetry.accept
      (MuTelemetry.new true false 0).createHeaderAndFlags oneFormat = some t₁ ∧
    Transition.run valid .new t₁.netQueue = some p ∧
    p.state = .definition ∧ p.formats.lookup (ascii "T") = some parsedFormat ∧
    Transition.run MuTelemetry.accept t₁ dataAndLog = some t₂ ∧
    t₂.netQueue = t₁.netQueue ++ [recordOf, logOf] := by
  have hwriter : ((Transition.run MuTelemetry.accept
      (MuTelemetry.new true false 0).createHeaderAndFlags oneFormat).bind fun t₁ =>
        (Transition.run valid .new t₁.netQueue).bind fun p =>
          (Transition.run MuTelemetry.accept t₁ dataAndLog).map fun t₂ =>
            (p.state, p.formats.lookup (ascii "T"),
              decide (t₂.netQueue = t₁.netQueue ++ [recordOf, logOf]))) =
      some (.definition, some parsedFormat, true) := by decide +kernel
  obtain ⟨t₁, ht₁, h⟩ := Option.bind_eq_some_iff.mp hwriter
  obtain ⟨p, hp, h⟩ := Option.bind_eq_some_iff.mp h
  obtain ⟨t₂, ht₂, h⟩ := Option.map_eq_some_iff.mp h
  simp only [Prod.mk.injEq, decide_eq_true_eq] at h
  exact ⟨t₁, p, t₂, ht₁, hp, h.1, h.2.1, ht₂, h.2.2⟩

theorem stores_dataAndLog : ∀ c ∈ dataAndLog, Stores oneFormat c := by
  refine List.forall_mem_cons.mpr ⟨?_, List.forall_mem_singleton.mpr trivial⟩
  exact ⟨ascii "int8_t a;", List.mem_singleton_self _⟩

theorem valueOf_dataAndLog (hf : formats.lookup (ascii "T") = some parsedFormat) :
    ∀ data typeName annotation timestamp,
      .storeData data typeName annotation timestamp ∈ dataAndLog → ValueOf formats typeName data := by
  intro data typeName annotation timestamp hmem
  simp only [dataAndLog, List.mem_cons, Call.storeData.injEq, reduceCtorEq, List.not_mem_nil,
    or_false] at hmem
  obtain ⟨rfl, rfl, -, -⟩ := hmem
  exact ⟨parsedFormat, .prim (.int8 5) .done, [], hf, .flat hf (by decide), .prim rfl .done, by decide⟩

theorem notInstances_singleton (name : Bytes) : NotInstances [name] := by
  intro a ha b hb i heq
  rw [List.mem_singleton] at ha hb
  subst ha hb
  exact dotted_ne _ _ heq.symm

theorem delivered_accepted_dataAndLog : ∃ t₁ p, Transition.run MuTelemetry.accept
      (MuTelemetry.new true false 0).createHeaderAndFlags oneFormat = some t₁ ∧
    Transition.run valid .new t₁.netQueue = some p ∧
    ∃ q, Transition.run valid p [recordOf, logOf] = some q := by
  obtain ⟨t₁, p, t₂, ht₁, hp, -, hf, ht₂, hms⟩ := run_dataAndLog
  exact ⟨t₁, p, ht₁, hp, (delivered_accepted_iff (by decide) ht₁ hp stores_dataAndLog ht₂ hms (.refl _)
    (valueOf_dataAndLog hf) (by decide) (notInstances_singleton _)).mpr (by decide)⟩

/-- The record is lost, and the log message is the first that comes. -/
theorem lost_record_rejects : ¬ ∀ ds cs t₁ p t₂ ms l, (∀ c ∈ ds, isDefinition c = true) →
    Transition.run MuTelemetry.accept (MuTelemetry.new true false 0).createHeaderAndFlags ds = some t₁ →
    Transition.run valid .new t₁.netQueue = some p → (∀ c ∈ cs, Stores ds c) →
    Transition.run MuTelemetry.accept t₁ cs = some t₂ → t₂.netQueue = t₁.netQueue ++ ms →
    l.Sublist (ms.dropWhile fun m => !checkUlogDataBegin m) →
    (∀ data typeName annotation timestamp,
      .storeData data typeName annotation timestamp ∈ cs → ValueOf p.formats typeName data) →
    ∃ q, Transition.run valid p l = some q := by
  intro h
  obtain ⟨t₁, p, t₂, ht₁, hp, hs, hf, ht₂, hms⟩ := run_dataAndLog
  obtain ⟨q, hq⟩ := h oneFormat dataAndLog t₁ p t₂ [recordOf, logOf] [logOf] (by decide) ht₁ hp
    stores_dataAndLog ht₂ hms (.cons _ (.refl _)) (valueOf_dataAndLog hf)
  obtain ⟨r, hv, -⟩ := Transition.run_cons.mp hq
  rw [logOf, not_valid_logged hs (by decide)] at hv
  cases hv

end Mutelemetry.Stream
