import Mutelemetry.Parse.Attribution
import Mutelemetry.Stream.Loss
import Mutelemetry.Telemetry.Allocation

/-!
# Instances of a type

The writer has an identifier for each type and one for each annotation of it.
The parser keeps one subscription for each identifier of a type, so the records
of all instances go to the series of the first.
-/

namespace Mutelemetry.Stream

open ByteString Ulog Telemetry Parse

/-- Two records of one type with two annotations never go by one name. -/
def Apart (s : Session) (ms : List Bytes) (ds : List DataCall) : Prop :=
  ∀ j k d d' data data', ds[j]? = some d → ds[k]? = some d' → d.typeName = d'.typeName →
    d.instName ≠ d'.instName → data ∈ s.calls ms j → data' ∈ s.calls ms k → data.name ≠ data'.name

/-- What is delivered of a record was parsed by a subscription with the name and
the `multi_id_` of its own A message. -/
def Attributed (s : Session) (ms : List Bytes) : Prop :=
  ∀ k m data, ms[k]? = some m → data ∈ s.calls ms k → ∀ name msgId multiId,
    AsksFor (m, 0) name msgId multiId →
    ∃ sub, (s.after (ms.take (k + 1))).parser.subscriptions.lookup msgId = some sub ∧
      sub.messageName = name ∧ sub.multiId = multiId

def FewTypes (ds : List DataCall) : Prop := (ds.map (·.typeName)).toFinset.card ≤ 2 ^ 16

def OneInstance (ds : List DataCall) : Prop :=
  ∀ d ∈ ds, ∀ d' ∈ ds, d.typeName = d'.typeName → d.instName = d'.instName

/-- Behind records of one type with two annotations there is one with another
annotation than the second. -/
def Alternates (ds : List DataCall) : Prop :=
  ∃ (i j k : Nat) (d d' d'' : DataCall), i < j ∧ j < k ∧ ds[i]? = some d ∧ ds[j]? = some d' ∧ ds[k]? = some d'' ∧
    d.typeName = d'.typeName ∧ d'.typeName = d''.typeName ∧
    d.instName ≠ d'.instName ∧ d'.instName ≠ d''.instName

def annotationsOf (ds : List DataCall) (typeName : Bytes) : List Bytes :=
  (ds.filter fun d => d.typeName = typeName).map (·.instName)

-- ---------------------------------------------------------------------------
-- The writer
-- ---------------------------------------------------------------------------

section
variable {ds : List DataCall} {d d' : DataCall}

theorem FewTypes.length_typesOf (htypes : FewTypes ds) : (typesOf ds).length ≤ 2 ^ 16 := by
  rw [typesOf, length_entered]
  exact htypes

theorem typeName_of_msgIdOf (htypes : FewTypes ds) (hd : d ∈ ds) (hd' : d' ∈ ds)
    (h : msgIdOf ds d = msgIdOf ds d') : d.typeName = d'.typeName :=
  msgIdOf_injective_iff.mpr htypes.length_typesOf d hd d' hd' h

theorem annotation_of_multiIdOf (htypes : FewTypes ds) (hd : d ∈ ds) (hd' : d' ∈ ds)
    (hfew : ∀ typeName, (annotationsOf ds typeName).toFinset.card < 256)
    (ht : d.typeName = d'.typeName) (h : multiIdOf ds d = multiIdOf ds d') :
    d.instName = d'.instName := by
  refine (multiIdOf_injective_iff htypes.length_typesOf).mpr (fun c _ => ?_) d hd d' hd' ht h
  rw [distinctAnnotations, length_entered]
  exact (hfew c.typeName).le

theorem multiIdOf_first {b : DataCall}
    (hb : ds.find? (fun b => msgIdOf ds b = msgIdOf ds d) = some b) : multiIdOf ds b = 0 := by
  obtain ⟨hid, as, bs, hds, has⟩ := List.find?_eq_some_iff_append.mp hb
  have hid : msgIdOf ds b = msgIdOf ds d := by simpa using hid
  have hnone : as.filter (fun b => msgIdOf ds b = msgIdOf ds d) = [] := by
    refine List.filter_eq_nil_iff.mpr fun a ha => ?_
    simpa using has a ha
  have hfilter : ds.filter (fun b => msgIdOf ds b = msgIdOf ds d) =
      b :: bs.filter fun b => msgIdOf ds b = msgIdOf ds d := by
    generalize msgIdOf ds = f at hid hnone ⊢
    rw [hds, List.filter_append, hnone, List.filter_cons_of_pos (by simpa using hid), List.nil_append]
  have hpre := prefix_entered [b.instName]
    ((bs.filter fun b => msgIdOf ds b = msgIdOf ds d).map (·.instName))
  rw [multiIdOf, hid, instancesOf, hfilter, List.map_cons, entered_cons]
  rw [show enter [] b.instName = [b.instName] from rfl,
    idxOf_of_prefix hpre List.mem_cons_self, List.idxOf_cons_self]
  rfl

end

-- ---------------------------------------------------------------------------
-- The reader
-- ---------------------------------------------------------------------------

def tag (ds : List DataCall) (d : DataCall) : Tag := ⟨msgIdOf ds d, multiIdOf ds d, d.typeName⟩

def tagged (ds : List DataCall) (d : DataCall) : Tag × Bytes :=
  (tag ds d, leBytes 8 d.timestamp.toNat ++ d.data.drop 8)

/-- What is delivered of a record goes by the first record of its identifier. -/
def ByFirst (formats : Formats) (s : Session) (ms : List Bytes) (ds : List DataCall) : Prop :=
  ∀ k d data, ds[k]? = some d → data ∈ s.calls ms k →
    ∃ b, ds.find? (fun b => msgIdOf ds b = msgIdOf ds d) = some b ∧
      data.name = (tag ds b).seriesAfter ((ds.take (k + 1)).map (tag ds)) ∧
      (s.after (ms.take (k + 1))).parser.subscriptions.lookup (msgIdOf ds d) =
        some ((tag ds b).subscription formats)

section
variable {ds : List DataCall} {d d' b : DataCall} {s : Session} {p : MutelemetryParser}

theorem byFirst_records (hp : Heard formats [] p) (hshort : ∀ d ∈ ds, d.typeName.length ≤ 255) :
    ByFirst formats (.live p) (records (ds.map (tagged ds))) ds := by
  intro k d data hk hd
  have hrs : ∀ r ∈ ds.map (tagged ds), 3 + r.1.name.length < 2 ^ 16 := by
    intro r hr
    obtain ⟨d', hd', rfl⟩ := List.mem_map.mp hr
    have hlen := hshort d' hd'
    exact show 3 + d'.typeName.length < 2 ^ 16 by omega
  have hk' : (ds.map (tagged ds))[k]? = some (tagged ds d) := by
    rw [List.getElem?_map, hk]
    rfl
  obtain ⟨b, hb, hname, hsub⟩ := calls_heard hp hrs hk' hd
  have htags : (ds.map (tagged ds)).map Prod.fst = ds.map (tag ds) := by
    rw [List.map_map]
    rfl
  rw [htags, ← List.map_take] at hb hname
  rw [firstOf, List.find?_map] at hb
  obtain ⟨b, hfirst, rfl⟩ := Option.map_eq_some_iff.mp hb
  exact ⟨b, (List.take_prefix _ _).find?_eq_some hfirst, hname, hsub⟩

theorem asksFor_record (a : Tag) (payload : Bytes) (hname : 3 + a.name.length < 2 ^ 16) :
    AsksFor (a.record payload, 0) name msgId multiId ↔
      name = a.name ∧ msgId = a.msgId ∧ multiId = a.multiId := by
  constructor
  · exact asksFor_add hname
  · rintro ⟨rfl, rfl, rfl⟩
    have hread : readSubscription ∅ (a.record payload) (0 + 3) (.ofNat (3 + a.name.length)) =
        .ok (a.subscription ∅) := readSubscription_add hname
    exact asksFor_of_read (headerType_add _ _ _ _) (headerSize_add _ _ _ _) hread

/-- Each record goes by the first of its identifier; so it is attributed to its
own A message when that is of the same instance. -/
theorem attributed_iff (hby : ByFirst formats s (records (ds.map (tagged ds))) ds)
    (hshort : ∀ d ∈ ds, d.typeName.length ≤ 255) :
    Attributed s (records (ds.map (tagged ds))) ↔ ∀ (k : Nat) d b data, ds[k]? = some d →
      data ∈ s.calls (records (ds.map (tagged ds))) k →
      ds.find? (fun b => msgIdOf ds b = msgIdOf ds d) = some b →
      b.typeName = d.typeName ∧ multiIdOf ds b = multiIdOf ds d := by
  have hrecord : ∀ k : Nat, (records (ds.map (tagged ds)))[k]? =
      ds[k]?.map fun d => (tag ds d).record (tagged ds d).2 := by
    intro k
    rw [records, List.map_map, List.getElem?_map]
    rfl
  have hlen : ∀ d ∈ ds, 3 + (tag ds d).name.length < 2 ^ 16 := by
    intro d hd
    have h := hshort d hd
    exact show 3 + d.typeName.length < 2 ^ 16 by omega
  constructor
  · intro h k d b data hk hd hb
    obtain ⟨b', hb', -, hsub⟩ := hby k d data hk hd
    cases hb.symm.trans hb'
    obtain ⟨sub, hsub', hname, hmulti⟩ := h k _ data (by rw [hrecord, hk]; rfl) hd _ _ _
      ((asksFor_record _ _ (hlen d (List.mem_of_getElem? hk))).mpr ⟨rfl, rfl, rfl⟩)
    cases hsub.symm.trans hsub'
    exact ⟨hname, hmulti⟩
  · intro h k m data hm hd name msgId multiId hasks
    rw [hrecord] at hm
    obtain ⟨d, hk, rfl⟩ := Option.map_eq_some_iff.mp hm
    obtain ⟨rfl, rfl, rfl⟩ :=
      (asksFor_record _ _ (hlen d (List.mem_of_getElem? hk))).mp hasks
    obtain ⟨b, hb, -, hsub⟩ := hby k d data hk hd
    obtain ⟨hname, hmulti⟩ := h k d b data hk hd hb
    exact ⟨_, hsub, hname, hmulti⟩

theorem fewTypes_of_inj (h : ∀ d ∈ ds, ∀ d' ∈ ds, msgIdOf ds d = msgIdOf ds d' →
    d.typeName = d'.typeName) : FewTypes ds := by
  unfold FewTypes
  rw [← length_entered]
  exact msgIdOf_injective_iff.mp h

/-- Records that are all attributed are those of few types, each of one instance. -/
theorem one_of_attributed (hall : ∀ d ∈ ds, ∀ b,
      ds.find? (fun b => msgIdOf ds b = msgIdOf ds d) = some b →
      b.typeName = d.typeName ∧ multiIdOf ds b = multiIdOf ds d)
    (hfew : ∀ typeName, (annotationsOf ds typeName).toFinset.card < 256) :
    FewTypes ds ∧ OneInstance ds := by
  have hfirst : ∀ d ∈ ds, ∀ d' ∈ ds, msgIdOf ds d = msgIdOf ds d' →
      d.typeName = d'.typeName ∧ multiIdOf ds d = multiIdOf ds d' := by
    intro d hd d' hd' hid
    obtain ⟨b, hb⟩ : ∃ b, ds.find? (fun b => msgIdOf ds b = msgIdOf ds d) = some b :=
      Option.isSome_iff_exists.mp (List.find?_isSome.mpr ⟨d, hd, by simp⟩)
    obtain ⟨hname, hmulti⟩ := hall d hd b hb
    obtain ⟨hname', hmulti'⟩ := hall d' hd' b (by rw [← hid]; exact hb)
    exact ⟨hname.symm.trans hname', hmulti.symm.trans hmulti'⟩
  have htypes := fewTypes_of_inj fun d hd d' hd' hid => (hfirst d hd d' hd' hid).1
  refine ⟨htypes, fun d hd d' hd' ht => ?_⟩
  exact annotation_of_multiIdOf htypes hd hd' hfew ht (hfirst d hd d' hd' (msgIdOf_congr ht)).2

end

-- ---------------------------------------------------------------------------
-- Names
-- ---------------------------------------------------------------------------

/-- Up to this record there is one of another instance than the first of its type. -/
def Announced (ds : List DataCall) (b : DataCall) (k : Nat) : Prop :=
  ∃ l c, l ≤ k ∧ ds[l]? = some c ∧ c.typeName = b.typeName ∧ c.instName ≠ b.instName

section
variable {ds : List DataCall} {d d' b : DataCall} {s : Session} {ms : List Bytes}

theorem mem_take_iff : c ∈ ds.take (k + 1) ↔ ∃ l, l ≤ k ∧ ds[l]? = some c := by
  rw [List.mem_iff_getElem?]
  constructor
  · rintro ⟨l, hl⟩
    rw [List.getElem?_take] at hl
    split at hl
    · exact ⟨l, by omega, hl⟩
    · cases hl
  · rintro ⟨l, hle, hl⟩
    exact ⟨l, by rw [List.getElem?_take, if_pos (by omega)]; exact hl⟩

variable (htypes : FewTypes ds)
  (hfew : ∀ typeName, (annotationsOf ds typeName).toFinset.card < 256)
  (hb : ds.find? (fun b => msgIdOf ds b = msgIdOf ds d) = some b)
include htypes hfew hb

theorem multiIdOf_pos_iff (hc : c ∈ ds) (hname : c.typeName = b.typeName) :
    0 < multiIdOf ds c ↔ c.instName ≠ b.instName := by
  have hzero := multiIdOf_first hb
  rw [UInt8.pos_iff_ne_zero, not_iff_not, ← hzero]
  constructor
  · exact annotation_of_multiIdOf htypes hc (List.mem_of_find?_eq_some hb) hfew hname
  · exact multiIdOf_congr hname

theorem seriesAfter_cases (k : Nat) :
    (Announced ds b k ∧ (tag ds b).seriesAfter ((ds.take (k + 1)).map (tag ds)) =
      b.typeName ++ ascii "." ++ decimal02 0) ∨
    (¬ Announced ds b k ∧
      (tag ds b).seriesAfter ((ds.take (k + 1)).map (tag ds)) = b.typeName) := by
  have hzero := multiIdOf_first hb
  have hiff : (∃ c ∈ (ds.take (k + 1)).map (tag ds), c.name = (tag ds b).name ∧ 0 < c.multiId) ↔
      Announced ds b k := by
    simp only [List.mem_map, exists_exists_and_eq_and, mem_take_iff, Announced]
    constructor
    · rintro ⟨c, ⟨l, hle, hl⟩, hname, hpos⟩
      have hc := List.mem_of_getElem? hl
      exact ⟨l, c, hle, hl, hname, (multiIdOf_pos_iff htypes hfew hb hc hname).mp hpos⟩
    · rintro ⟨l, c, hle, hl, hname, hne⟩
      have hc := List.mem_of_getElem? hl
      exact ⟨c, ⟨l, hle, hl⟩, hname, (multiIdOf_pos_iff htypes hfew hb hc hname).mpr hne⟩
  unfold Tag.seriesAfter
  by_cases h : Announced ds b k
  · rw [if_pos (hiff.mpr h)]
    refine .inl ⟨h, ?_⟩
    rw [show (tag ds b).multiId = 0 from hzero]
    rfl
  · rw [if_neg fun hc => h (hiff.mp hc)]
    exact .inr ⟨h, rfl⟩

theorem name_eq_iff {data data' : MessageData} (hby : ByFirst formats s ms ds)
    (hj : ds[j]? = some d) (hk : ds[k]? = some d') (ht : d.typeName = d'.typeName)
    (hd : data ∈ s.calls ms j) (hd' : data' ∈ s.calls ms k) :
    data.name = data'.name ↔ (Announced ds b j ↔ Announced ds b k) := by
  obtain ⟨b₁, hb₁, hname, -⟩ := hby j d data hj hd
  obtain ⟨b₂, hb₂, hname', -⟩ := hby k d' data' hk hd'
  rw [← msgIdOf_congr ht] at hb₂
  cases hb.symm.trans hb₁
  cases hb.symm.trans hb₂
  have hne : b.typeName ++ ascii "." ++ decimal02 0 ≠ b.typeName := dotted_ne _ _
  rw [hname, hname']
  obtain ⟨ha, heq⟩ | ⟨ha, heq⟩ := seriesAfter_cases htypes hfew hb j
  · obtain ⟨ha', heq'⟩ | ⟨ha', heq'⟩ := seriesAfter_cases htypes hfew hb k
    · rw [heq, heq']
      exact iff_of_true rfl (iff_of_true ha ha')
    · rw [heq, heq']
      exact iff_of_false hne fun h => ha' (h.mp ha)
  · obtain ⟨ha', heq'⟩ | ⟨ha', heq'⟩ := seriesAfter_cases htypes hfew hb k
    · rw [heq, heq']
      exact iff_of_false hne.symm fun h => ha (h.mpr ha')
    · rw [heq, heq']
      exact iff_of_true rfl (iff_of_false ha ha')

end

section
variable {ds : List DataCall} {d d' b : DataCall} {s : Session} {ms : List Bytes}

theorem Announced.mono (h : Announced ds b j) (hjk : j ≤ k) : Announced ds b k := by
  obtain ⟨l, c, hle, hl⟩ := h
  exact ⟨l, c, hle.trans hjk, hl⟩

theorem find_msgId (hd : d ∈ ds) : ∃ b, ds.find? (fun b => msgIdOf ds b = msgIdOf ds d) = some b :=
  Option.isSome_iff_exists.mp (List.find?_isSome.mpr ⟨d, hd, by simp⟩)

theorem first_typeName (htypes : FewTypes ds) (hd : d ∈ ds)
    (hb : ds.find? (fun b => msgIdOf ds b = msgIdOf ds d) = some b) : b.typeName = d.typeName := by
  refine typeName_of_msgIdOf htypes (List.mem_of_find?_eq_some hb) hd ?_
  simpa using List.find?_some hb

theorem first_le {k : Nat} (hk : ds[k]? = some d)
    (hb : ds.find? (fun b => msgIdOf ds b = msgIdOf ds d) = some b) : ∃ l ≤ k, ds[l]? = some b := by
  have hmem : d ∈ ds.take (k + 1) := mem_take_iff.mpr ⟨k, le_rfl, hk⟩
  obtain ⟨b', hb'⟩ : ∃ b', (ds.take (k + 1)).find? (fun b => msgIdOf ds b = msgIdOf ds d) = some b' :=
    Option.isSome_iff_exists.mp (List.find?_isSome.mpr ⟨d, hmem, by simp⟩)
  cases hb.symm.trans ((List.take_prefix _ _).find?_eq_some hb')
  exact mem_take_iff.mp (List.mem_of_find?_eq_some hb')

theorem alternates_of_announced {j k : Nat} (hjk : j < k) (hj : ds[j]? = some d)
    (hk : ds[k]? = some d') (ht : d.typeName = d'.typeName) (hne : d.instName ≠ d'.instName)
    (hb : ds.find? (fun b => msgIdOf ds b = msgIdOf ds d) = some b)
    (hname : b.typeName = d.typeName) (ha : Announced ds b j) : Alternates ds := by
  have hearlier : ∃ l c, l ≤ j ∧ ds[l]? = some c ∧ c.typeName = d.typeName ∧
      c.instName ≠ d.instName := by
    by_cases heq : d.instName = b.instName
    · obtain ⟨l, c, hle, hl, hc, hcb⟩ := ha
      exact ⟨l, c, hle, hl, hc.trans hname, heq ▸ hcb⟩
    · obtain ⟨l, hle, hl⟩ := first_le hj hb
      exact ⟨l, b, hle, hl, hname, Ne.symm heq⟩
  obtain ⟨l, c, hle, hl, hc, hcd⟩ := hearlier
  have hlj : l ≠ j := by
    rintro rfl
    cases hl.symm.trans hj
    exact hcd rfl
  exact ⟨l, j, k, c, d, d', by omega, hjk, hl, hj, hk, hc, ht, hcd, hne⟩

/-- Where all records are delivered, the names keep instances apart as long as a
type is not stored under another annotation again once it had a second one. -/
theorem apart_iff (htypes : FewTypes ds)
    (hfew : ∀ typeName, (annotationsOf ds typeName).toFinset.card < 256)
    (hby : ByFirst formats s ms ds) (hall : ∀ k < ds.length, s.calls ms k ≠ []) :
    Apart s ms ds ↔ ¬ Alternates ds := by
  constructor
  · rintro h ⟨i, j, k, d, d', d'', hij, hjk, hi, hj, hk, ht, ht', hne, hne'⟩
    obtain ⟨b, hb⟩ := find_msgId (List.mem_of_getElem? hj)
    have hname := first_typeName htypes (List.mem_of_getElem? hj) hb
    have hannounced : Announced ds b j := by
      by_cases heq : d'.instName = b.instName
      · exact ⟨i, d, hij.le, hi, ht.trans hname.symm, heq ▸ hne⟩
      · exact ⟨j, d', le_rfl, hj, hname.symm, heq⟩
    obtain ⟨data, hd⟩ := List.exists_mem_of_ne_nil _ (hall j (List.getElem?_eq_some_iff.mp hj).1)
    obtain ⟨data', hd'⟩ := List.exists_mem_of_ne_nil _ (hall k (List.getElem?_eq_some_iff.mp hk).1)
    refine h j k d' d'' data data' hj hk ht' hne' hd hd' ?_
    exact (name_eq_iff htypes hfew hb hby hj hk ht' hd hd').mpr
      (iff_of_true hannounced (hannounced.mono hjk.le))
  · intro hnone j k d d' data data' hj hk ht hne hd hd' heq
    obtain ⟨b, hb⟩ := find_msgId (List.mem_of_getElem? hj)
    have hname := first_typeName htypes (List.mem_of_getElem? hj) hb
    have hboth := (name_eq_iff htypes hfew hb hby hj hk ht hd hd').mp heq
    have hannounced : Announced ds b j ∧ Announced ds b k := by
      by_cases ha : d.instName = b.instName
      · have hk' : Announced ds b k :=
          ⟨k, d', le_rfl, hk, ht.symm.trans hname.symm, fun h => hne (ha.trans h.symm)⟩
        exact ⟨hboth.mpr hk', hk'⟩
      · have hj' : Announced ds b j := ⟨j, d, le_rfl, hj, hname.symm, ha⟩
        exact ⟨hj', hboth.mp hj'⟩
    obtain hjk | rfl | hkj := Nat.lt_trichotomy j k
    · exact hnone (alternates_of_announced hjk hj hk ht hne hb hname hannounced.1)
    · cases hj.symm.trans hk
      exact hne rfl
    · rw [msgIdOf_congr ht] at hb
      exact hnone (alternates_of_announced hkj hk hj ht.symm hne.symm hb (hname.trans ht) hannounced.2)

end

-- ---------------------------------------------------------------------------
-- Both
-- ---------------------------------------------------------------------------

theorem records_of_emits (hids : t.Identified (msgIdOf ds) [])
    (he : MuTelemetry.Emits t (ds.map DataCall.call) ms t')
    (hshort : ∀ d ∈ ds, d.typeName.length < 2 ^ 31) : ms = records (ds.map (tagged ds)) ∧
      ∀ d ∈ ds, d.typeName.length ≤ 255 := by
  have hlen : ∀ d ∈ ds, MuTelemetry.nameLen d.typeName = d.typeName.length :=
    fun d hd => MuTelemetry.nameLen_of_lt (hshort d hd)
  refine ⟨?_, fun d hd => ?_⟩
  · rw [hids.emits rfl he, records, List.map_map]
    refine List.map_congr_left fun d hd => ?_
    rw [MuTelemetry.recordOf, hlen d hd, List.take_length]
    rfl
  · obtain ⟨_, _, _, hm⟩ := he.enqueues (List.mem_map_of_mem hd)
    cases hm with
    | data hname =>
      rw [hlen d hd] at hname
      exact hname

/-- The records of calls on registered types are given to a parser that has the
formats. They are kept apart and attributed when there are identifiers for all
types and each has one instance; where all are delivered, only then. -/
theorem instances_apart_iff (hcs : ∀ c ∈ cs, isDefinition c = true)
    (hdefs : Transition.run MuTelemetry.accept
      (MuTelemetry.new true withLocalLog timestamp).createHeaderAndFlags cs = some t₁)
    (hp : Transition.run valid .new t₁.netQueue = some p)
    (hregistered : ∀ d ∈ ds, ∃ fields, .registerDataFormat d.typeName fields ∈ cs)
    (hfew : ∀ typeName, (annotationsOf ds typeName).toFinset.card < 256)
    (hrun : Transition.run MuTelemetry.accept t₁ (ds.map DataCall.call) = some t₂)
    (hms : t₂.netQueue = t₁.netQueue ++ ms) :
    (FewTypes ds ∧ OneInstance ds → Apart (.live p) ms ds ∧ Attributed (.live p) ms) ∧
    ((∀ k < ms.length, (Session.live p).calls ms k ≠ []) →
      (Apart (.live p) ms ds ∧ Attributed (.live p) ms → FewTypes ds ∧ OneInstance ds) ∧
      (FewTypes ds → (Apart (.live p) ms ds ↔ ¬ Alternates ds))) := by
  have hdefined := defined_of_run hcs hdefs
  obtain ⟨header, flags, defs, hq⟩ := hdefined.netQueue
  have hbegin := hdefined.noRecord
  rw [hq] at hp hbegin
  have hheard := heard_defined hbegin hp
  have hids : t₁.Identified (msgIdOf ds) [] := by
    refine ⟨?_, fun i => ?_⟩
    · rw [MuTelemetry.MsgIds, hdefined.msgId]
      exact ranked_new rfl
    · rw [hdefined.multiId, AList.lookup_empty]
      exact ranked_new rfl
  obtain ⟨ms', hemits, hq'⟩ := MuTelemetry.emits_of_run hdefined.withNetwork hrun
  rw [hms, List.append_cancel_left_eq] at hq'
  subst hq'
  obtain ⟨rfl, hshort⟩ := records_of_emits hids hemits fun d hd => by
    obtain ⟨fields, hreg⟩ := hregistered d hd
    exact hdefined.registered _ fields hreg
  have hby := byFirst_records hheard hshort
  refine ⟨?_, fun hall => ⟨?_, fun htypes => ?_⟩⟩
  · rintro ⟨htypes, hone⟩
    constructor
    · intro j k d d' data data' hj hk ht hne
      exact absurd (hone d (List.mem_of_getElem? hj) d' (List.mem_of_getElem? hk) ht) hne
    · refine (attributed_iff hby hshort).mpr fun k d b data hk hd hb => ?_
      have hmem := List.mem_of_getElem? hk
      have hname := first_typeName htypes hmem hb
      exact ⟨hname, multiIdOf_congr hname (hone b (List.mem_of_find?_eq_some hb) d hmem hname)⟩
  · rintro ⟨-, hattr⟩
    refine one_of_attributed (fun d hd b hb => ?_) hfew
    obtain ⟨k, hk⟩ := List.getElem?_of_mem hd
    have hlt : k < ds.length := (List.getElem?_eq_some_iff.mp hk).1
    obtain ⟨data, hdata⟩ := List.exists_mem_of_ne_nil _ (hall k (by simpa [records] using hlt))
    exact (attributed_iff hby hshort).mp hattr k d b data hk hdata hb
  · exact apart_iff htypes hfew hby fun k hk => hall k (by simpa [records] using hk)

def stored (annotations : List Bytes) : List DataCall :=
  annotations.map fun instName => ⟨List.replicate 8 0 ++ [5], ascii "T", instName, 7⟩

theorem registered_stored (annotations : List Bytes) :
    ∀ d ∈ stored annotations, ∃ fields, .registerDataFormat d.typeName fields ∈ oneFormat := by
  intro d hd
  obtain ⟨instName, -, rfl⟩ := List.mem_map.mp hd
  exact ⟨ascii "int8_t a;", List.mem_singleton_self _⟩

theorem card_annotationsOf_le (ds : List DataCall) (typeName : Bytes) :
    (annotationsOf ds typeName).toFinset.card ≤ ds.length := by
  refine (List.toFinset_card_le _).trans ?_
  rw [annotationsOf, List.length_map]
  exact List.length_filter_le _ _

def storedRecords (annotations : List Bytes) : List Bytes :=
  (stored annotations).map (MuTelemetry.recordOf (stored annotations))

def deliveredNames (annotations : List Bytes) : Option (List (List Bytes)) :=
  (Transition.run MuTelemetry.accept
      (MuTelemetry.new true false 0).createHeaderAndFlags oneFormat).bind fun t₁ =>
    (Transition.run valid .new t₁.netQueue).bind fun p =>
      (Transition.run MuTelemetry.accept t₁ ((stored annotations).map DataCall.call)).bind fun t₂ =>
        if t₂.netQueue = t₁.netQueue ++ storedRecords annotations then
          some ((List.range annotations.length).map fun k =>
            ((Session.live p).calls (storedRecords annotations) k).map (·.name))
        else none

theorem deliveredNames_eq_some (h : deliveredNames annotations = some names) : ∃ t₁ p t₂,
    Transition.run MuTelemetry.accept (MuTelemetry.new true false 0).createHeaderAndFlags oneFormat =
      some t₁ ∧
    Transition.run valid .new t₁.netQueue = some p ∧
    Transition.run MuTelemetry.accept t₁ ((stored annotations).map DataCall.call) = some t₂ ∧
    t₂.netQueue = t₁.netQueue ++ storedRecords annotations ∧
    (List.range annotations.length).map
      (fun k => ((Session.live p).calls (storedRecords annotations) k).map (·.name)) = names := by
  unfold deliveredNames at h
  obtain ⟨t₁, ht₁, h⟩ := Option.bind_eq_some_iff.mp h
  obtain ⟨p, hp, h⟩ := Option.bind_eq_some_iff.mp h
  obtain ⟨t₂, ht₂, h⟩ := Option.bind_eq_some_iff.mp h
  split at h
  · rename_i hms
    cases h
    exact ⟨t₁, p, t₂, ht₁, hp, ht₂, hms, rfl⟩
  · cases h

theorem not_alternates (h : ds.length ≤ 2) : ¬ Alternates ds := by
  rintro ⟨i, j, k, d, d', d'', hij, hjk, -, -, hk, -⟩
  have hlt := (List.getElem?_eq_some_iff.mp hk).1
  omega

/-- One annotation twice is kept apart and attributed. Of two annotations once
each the names are apart, and the second record is not attributed. -/
theorem instances_apart_iff_two : ∃ t₁ p,
    Transition.run MuTelemetry.accept (MuTelemetry.new true false 0).createHeaderAndFlags oneFormat =
      some t₁ ∧
    Transition.run valid .new t₁.netQueue = some p ∧
    (Apart (.live p) (storedRecords [ascii "d01", ascii "d01"]) (stored [ascii "d01", ascii "d01"]) ∧
      Attributed (.live p) (storedRecords [ascii "d01", ascii "d01"])) ∧
    Apart (.live p) (storedRecords [ascii "d01", ascii "d02"]) (stored [ascii "d01", ascii "d02"]) ∧
      ¬ Attributed (.live p) (storedRecords [ascii "d01", ascii "d02"]) := by
  have hsame : deliveredNames [ascii "d01", ascii "d01"] = some [[ascii "T"], [ascii "T"]] := by
    decide +kernel
  have htwo : deliveredNames [ascii "d01", ascii "d02"] = some [[ascii "T"], [ascii "T.00"]] := by
    decide +kernel
  obtain ⟨t₁, p, t₂, ht₁, hp, ht₂, hms, -⟩ := deliveredNames_eq_some hsame
  obtain ⟨t₁', p', t₂', ht₁', hp', ht₂', hms', hcalls⟩ := deliveredNames_eq_some htwo
  cases ht₁.symm.trans ht₁'
  cases hp.symm.trans hp'
  have hone : OneInstance (stored [ascii "d01", ascii "d01"]) := by
    intro d hd d' hd' _
    simp only [stored, List.map_cons, List.map_nil, List.mem_cons, List.not_mem_nil, or_self,
      or_false] at hd hd'
    rw [hd, hd']
  have hnotOne : ¬ OneInstance (stored [ascii "d01", ascii "d02"]) := by
    unfold OneInstance
    decide
  have hdelivered : ∀ k < (storedRecords [ascii "d01", ascii "d02"]).length,
      (Session.live p).calls (storedRecords [ascii "d01", ascii "d02"]) k ≠ [] := by
    intro k hk hnone
    have hname := congrArg (·[k]?) hcalls
    simp only [storedRecords, stored, List.length_map, List.length_cons, List.length_nil] at hk
    obtain rfl | rfl : k = 0 ∨ k = 1 := by omega
    all_goals simp [hnone] at hname
  have hall := instances_apart_iff (by decide) ht₁ hp (registered_stored _)
    (fun n => (card_annotationsOf_le _ n).trans_lt (by decide)) ht₂ hms
  have hnames := instances_apart_iff (by decide) ht₁ hp (registered_stored _)
    (fun n => (card_annotationsOf_le _ n).trans_lt (by decide)) ht₂' hms'
  have hapart :=
    ((hnames.2 hdelivered).2 (by unfold FewTypes; decide)).mpr (not_alternates (by decide))
  exact ⟨t₁, p, ht₁, hp, hall.1 ⟨by unfold FewTypes; decide, hone⟩, hapart,
    fun hattr => hnotOne ((hnames.2 hdelivered).1 ⟨hapart, hattr⟩).2⟩

/-- The first annotation comes again behind a second one. -/
theorem instances_share_series : ¬ ∀ cs ds t₁ p t₂ ms, (∀ c ∈ cs, isDefinition c = true) →
    Transition.run MuTelemetry.accept (MuTelemetry.new true false 0).createHeaderAndFlags cs = some t₁ →
    Transition.run valid .new t₁.netQueue = some p →
    (∀ d ∈ ds, ∃ fields, .registerDataFormat d.typeName fields ∈ cs) →
    (∀ typeName, (annotationsOf ds typeName).toFinset.card < 256) →
    Transition.run MuTelemetry.accept t₁ (ds.map DataCall.call) = some t₂ →
    t₂.netQueue = t₁.netQueue ++ ms → Apart (.live p) ms ds := by
  intro h
  have hnames : deliveredNames [ascii "d01", ascii "d02", ascii "d01"] =
      some [[ascii "T"], [ascii "T.00"], [ascii "T.00"]] := by decide +kernel
  obtain ⟨t₁, p, t₂, ht₁, hp, ht₂, hms, hcalls⟩ := deliveredNames_eq_some hnames
  have hapart := h oneFormat _ t₁ p t₂ _ (by decide) ht₁ hp (registered_stored _)
    (fun n => (card_annotationsOf_le _ n).trans_lt (by decide)) ht₂ hms
  simp only [List.length_cons, List.length_nil, List.range_succ, List.range_zero,
    List.map_nil, List.map_cons, List.nil_append, List.cons_append, List.cons.injEq] at hcalls
  obtain ⟨-, h₁, h₂, -⟩ := hcalls
  obtain ⟨data, hd, hname⟩ := List.mem_map.mp (h₁ ▸ List.mem_singleton_self _)
  obtain ⟨data', hd', hname'⟩ := List.mem_map.mp (h₂ ▸ List.mem_singleton_self _)
  exact hapart 1 2 _ _ data data' rfl rfl rfl (by decide) hd hd' (hname.trans hname'.symm)

end Mutelemetry.Stream
