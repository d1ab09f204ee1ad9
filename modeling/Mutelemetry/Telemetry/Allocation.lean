import Mutelemetry.Telemetry.Identifiers

/-!
# How many identifiers there are

`msg_id_` has 16 bits and `multi_id_` has 8. Calls of `store_data` are told apart
by them as long as there are no more types, and no more annotations of a type,
than that; `store_data` refuses none.
-/

namespace Mutelemetry.Telemetry

open ByteString Ulog

def distinctAnnotations (ds : List DataCall) (typeName : Bytes) : List Bytes :=
  entered [] ((ds.filter fun d => d.typeName = typeName).map (·.instName))

/-- There are identifiers for all types, and for all annotations of each. -/
def EnoughIds (ds : List DataCall) : Prop :=
  (typesOf ds).length ≤ 2 ^ 16 ∧ ∀ d ∈ ds, (distinctAnnotations ds d.typeName).length ≤ 2 ^ 8

section
variable {ds : List DataCall} {d d' : DataCall}

theorem msgIdOf_injective_iff :
    (∀ d ∈ ds, ∀ d' ∈ ds, msgIdOf ds d = msgIdOf ds d' → d.typeName = d'.typeName) ↔
      (typesOf ds).length ≤ 2 ^ 16 := by
  rw [← ofNat_idxOf_injective_iff ofNat_uint16_eq_iff (by decide) (nodup_typesOf ds)]
  have hcall : ∀ a ∈ typesOf ds, ∃ d ∈ ds, d.typeName = a := by
    intro a ha
    exact List.mem_map.mp ((mem_entered.mp ha).resolve_left List.not_mem_nil)
  constructor
  · intro h a ha b hb heq
    obtain ⟨d, hd, rfl⟩ := hcall a ha
    obtain ⟨d', hd', rfl⟩ := hcall b hb
    exact h d hd d' hd' heq
  · intro h d hd d' hd'
    exact h _ (mem_typesOf hd) _ (mem_typesOf hd')

/-- The instances under an identifier are those of one type. -/
theorem instancesOf_eq (htypes : (typesOf ds).length ≤ 2 ^ 16) (hd : d ∈ ds) :
    instancesOf (msgIdOf ds) ds (msgIdOf ds d) = distinctAnnotations ds d.typeName := by
  have hsame : (ds.filter fun d' => msgIdOf ds d' = msgIdOf ds d) =
      ds.filter fun d' => d'.typeName = d.typeName := by
    refine List.filter_congr fun d' hd' => ?_
    exact decide_eq_decide.mpr ⟨msgIdOf_injective_iff.mpr htypes d' hd' d hd, msgIdOf_congr⟩
  rw [instancesOf, hsame, distinctAnnotations]

theorem multiIdOf_injective_iff (htypes : (typesOf ds).length ≤ 2 ^ 16) :
    (∀ d ∈ ds, ∀ d' ∈ ds, d.typeName = d'.typeName → multiIdOf ds d = multiIdOf ds d' →
      d.instName = d'.instName) ↔ ∀ d ∈ ds, (distinctAnnotations ds d.typeName).length ≤ 2 ^ 8 := by
  constructor
  · intro h d hd
    rw [← instancesOf_eq htypes hd, ← ofNat_idxOf_injective_iff ofNat_uint8_eq_iff (by decide)
      (nodup_instancesOf _ _ _)]
    have hcall : ∀ a ∈ instancesOf (msgIdOf ds) ds (msgIdOf ds d),
        ∃ c ∈ ds, msgIdOf ds c = msgIdOf ds d ∧ c.instName = a := by
      intro a ha
      obtain ⟨c, hc, rfl⟩ := List.mem_map.mp ((mem_entered.mp ha).resolve_left List.not_mem_nil)
      obtain ⟨hc, hid⟩ := List.mem_filter.mp hc
      exact ⟨c, hc, by simpa using hid, rfl⟩
    intro a ha b hb heq
    obtain ⟨c, hc, hid, rfl⟩ := hcall a ha
    obtain ⟨c', hc', hid', rfl⟩ := hcall b hb
    refine h c hc c' hc' (msgIdOf_injective_iff.mpr htypes c hc c' hc' (hid.trans hid'.symm)) ?_
    rw [multiIdOf, multiIdOf, hid, hid']
    exact heq
  · intro hfew d hd d' hd' ht heq
    have hlen : (instancesOf (msgIdOf ds) ds (msgIdOf ds d)).length ≤ 2 ^ 8 := by
      rw [instancesOf_eq htypes hd]
      exact hfew d hd
    have hmem' := mem_instancesOf hd'
    rw [← msgIdOf_congr ht] at hmem'
    rw [multiIdOf, multiIdOf, ← msgIdOf_congr ht] at heq
    exact eq_of_ofNat_idxOf_eq ofNat_uint8_eq_iff hlen (mem_instancesOf hd) hmem' heq

end

-- ---------------------------------------------------------------------------
-- Calls
-- ---------------------------------------------------------------------------

structure Announcement where
  call : DataCall
  msgId : UInt16
  multiId : UInt8
  sent : List Bytes

def idsOfA (m : Bytes) : UInt16 × UInt8 := (.ofNat (leNat ((m.drop 4).take 2)), (m.drop 3).headD 0)

/-- Types, and the annotations of a type, are told apart by their identifiers. -/
structure ToldApart (as : List Announcement) : Prop where
  pairs : ∀ a ∈ as, ∀ b ∈ as, (a.msgId, a.multiId) = (b.msgId, b.multiId) ↔
    a.call.typeName = b.call.typeName ∧ a.call.instName = b.call.instName
  types : ∀ a ∈ as, ∀ b ∈ as, a.msgId = b.msgId → a.call.typeName = b.call.typeName
  annotations : ∀ a ∈ as, ∀ b ∈ as, a.call.typeName = b.call.typeName →
    a.multiId = b.multiId → a.call.instName = b.call.instName

theorem idsOfA_record (msgId : UInt16) (multiId : UInt8) (name : Bytes) (timestamp : UInt64)
    (data : Bytes) : idsOfA (MuTelemetry.record msgId multiId name timestamp data) =
      (msgId, multiId) := by
  have hid : (leBytes 2 msgId.toNat).length = 2 := length_leBytes _ _
  have hsize : ∀ n, (leBytes 2 n).drop 4 = [] := fun n => List.drop_eq_nil_of_le (by simp)
  simp only [idsOfA, MuTelemetry.record, frame, ULogMessageHeader.bytes, List.append_assoc]
  simp [List.drop_append, hid, hsize]

namespace MuTelemetry

def returned (t : MuTelemetry) (d : DataCall) : Option MuTelemetry :=
  match (t.call d.call).run true with
  | .ok (_, t') _ => some t'
  | .error .. => none

def announce (t : MuTelemetry) (d : DataCall) : List Announcement :=
  match t.returned d with
  | some t' =>
    if t.isEnabled then
      [{ call := d
         msgId := (t.identify d.typeName d.instName).1
         multiId := (t.identify d.typeName d.instName).2.1
         sent := t'.logQueue.drop t.logQueue.length ++ t'.netQueue.drop t.netQueue.length }]
    else []
  | none => []

variable {t t' : MuTelemetry} {d : DataCall}

theorem returned_cases (ht : t.isEnabled = true) (h : t.returned d = some t')
    (hid : t.identify d.typeName d.instName = (i, j, t₁)) :
    t' = t₁ ∨ ∃ name, t' = t₁.toIo (record i j name d.timestamp (d.data.drop 8)) := by
  unfold returned at h
  by_cases hname : nameLen d.typeName ≤ 255
  · rw [DataCall.call, call, run_storeDataIntl ht _ _ _ _ hname, hid] at h
    split_ifs at h
    · cases h
      exact .inl rfl
    · cases h
      exact .inr ⟨_, rfl⟩
  · rw [DataCall.call, call, run_storeDataIntl_of_lt ht _ _ _ _ (by omega)] at h
    cases h

theorem mem_toIo (h : m ∈ (t.toIo dp).logQueue.drop t.logQueue.length ++
    (t.toIo dp).netQueue.drop t.netQueue.length) : m = dp := by
  simp only [toIo, List.mem_append] at h
  obtain h | h := h
  · split at h
    · simpa using h
    · simp at h
  · split at h
    · simpa using h
    · simp at h

theorem Identified.returned {all : List DataCall} (h : t.Identified (msgIdOf all) past)
    (hall : all = past ++ d :: rest) (ht : t.isEnabled = true) (hr : t.returned d = some t') :
    t'.Identified (msgIdOf all) (past ++ [d]) ∧ t'.isEnabled = true ∧
      ∃ sent, t.announce d = [⟨d, msgIdOf all d, multiIdOf all d, sent⟩] ∧
        ∀ m ∈ sent, idsOfA m = (msgIdOf all d, multiIdOf all d) := by
  rcases hid : t.identify d.typeName d.instName with ⟨i, j, t₁⟩
  obtain ⟨rfl, rfl, hnext⟩ := h.identify hall hid
  have hsame : t₁.logQueue = t.logQueue ∧ t₁.netQueue = t.netQueue ∧ t₁.isEnabled = t.isEnabled := by
    simp only [MuTelemetry.identify, getMsgId, getMultiId, Prod.mk.injEq] at hid
    obtain ⟨-, -, rfl⟩ := hid
    exact ⟨rfl, rfl, rfl⟩
  obtain ⟨hlog, hnet, hon⟩ := hsame
  have hann : t.announce d = [⟨d, msgIdOf all d, multiIdOf all d,
      t'.logQueue.drop t.logQueue.length ++ t'.netQueue.drop t.netQueue.length⟩] := by
    simp [announce, hr, ht, hid]
  obtain rfl | ⟨name, rfl⟩ := returned_cases ht hr hid
  · refine ⟨hnext, hon.trans ht, _, hann, ?_⟩
    simp [hlog, hnet]
  · refine ⟨hnext.toIo _, hon.trans ht, _, hann, fun m hm => ?_⟩
    rw [← hlog, ← hnet] at hm
    obtain rfl := mem_toIo hm
    exact idsOfA_record _ _ _ _ _

/-- What is announced in a run, call by call. -/
theorem Identified.announced {all ds : List DataCall} (h : t.Identified (msgIdOf all) past)
    (hall : all = past ++ ds) (ht : t.isEnabled = true)
    (hr : Transition.run MuTelemetry.returned t ds = some t') :
    (Transition.trace MuTelemetry.returned announce t ds).map (·.call) = ds ∧
      ∀ a ∈ Transition.trace MuTelemetry.returned announce t ds, a.msgId = msgIdOf all a.call ∧
        a.multiId = multiIdOf all a.call ∧ ∀ m ∈ a.sent, idsOfA m = (a.msgId, a.multiId) := by
  induction ds generalizing past t with
  | nil => simp [Transition.trace]
  | cons d ds ih =>
    obtain ⟨t₁, hd, hr⟩ := Transition.run_cons.mp hr
    obtain ⟨hnext, hon, sent, hann, hsent⟩ := h.returned hall ht hd
    rw [List.append_cons] at hall
    obtain ⟨hcalls, has⟩ := ih hnext hall hon hr
    simp only [Transition.trace, hann, hd, List.singleton_append, List.map_cons, hcalls,
      List.forall_mem_cons]
    exact ⟨trivial, ⟨trivial, trivial, hsent⟩, has⟩

theorem announced_off (ht : t.isEnabled = false) (ds : List DataCall) :
    Transition.trace MuTelemetry.returned announce t ds = [] := by
  induction ds with
  | nil => rfl
  | cons d ds ih =>
    have hr : t.returned d = some t := by
      simp only [MuTelemetry.returned, DataCall.call, call, storeDataIntl, ht]
      rfl
    simp [Transition.trace, announce, hr, ht, ih]

theorem exists_returned (hds : ∀ d ∈ ds, nameLen d.typeName ≤ 255 ∧ 8 ≤ d.data.length)
    (t : MuTelemetry) : ∃ t', Transition.run MuTelemetry.returned t ds = some t' := by
  induction ds generalizing t with
  | nil => exact ⟨t, rfl⟩
  | cons d ds ih =>
    rw [List.forall_mem_cons] at hds
    obtain ⟨⟨hname, hmin⟩, hds⟩ := hds
    obtain ⟨t₁, hd⟩ : ∃ t₁, t.returned d = some t₁ := by
      cases ht : t.isEnabled with
      | false =>
        refine ⟨t, ?_⟩
        simp only [MuTelemetry.returned, DataCall.call, call, storeDataIntl, ht]
        rfl
      | true =>
        simp only [MuTelemetry.returned, DataCall.call, call, run_storeDataIntl ht _ _ _ _ hname,
          if_neg (not_lt.mpr hmin)]
        split_ifs
        · exact ⟨_, rfl⟩
        · exact ⟨_, rfl⟩
    obtain ⟨t', hr⟩ := ih hds t₁
    exact ⟨t', Transition.run_cons.mpr ⟨t₁, hd, hr⟩⟩

end MuTelemetry

-- ---------------------------------------------------------------------------
-- Told apart
-- ---------------------------------------------------------------------------

section
variable {as : List Announcement} {ds : List DataCall}

theorem toldApart_iff_enoughIds (hcalls : as.map (·.call) = ds)
    (has : ∀ a ∈ as, a.msgId = msgIdOf ds a.call ∧ a.multiId = multiIdOf ds a.call) :
    ToldApart as ↔ EnoughIds ds := by
  have hmem : ∀ a ∈ as, a.call ∈ ds := fun a ha => hcalls ▸ List.mem_map_of_mem ha
  have hcall : ∀ d ∈ ds, ∃ a ∈ as, a.call = d := fun d hd => List.mem_map.mp (hcalls.symm ▸ hd)
  constructor
  · intro h
    have htypes : (typesOf ds).length ≤ 2 ^ 16 := by
      refine msgIdOf_injective_iff.mp fun d hd d' hd' heq => ?_
      obtain ⟨a, ha, rfl⟩ := hcall d hd
      obtain ⟨b, hb, rfl⟩ := hcall d' hd'
      exact h.types a ha b hb (by rw [(has a ha).1, (has b hb).1, heq])
    refine ⟨htypes, (multiIdOf_injective_iff htypes).mp fun d hd d' hd' ht heq => ?_⟩
    obtain ⟨a, ha, rfl⟩ := hcall d hd
    obtain ⟨b, hb, rfl⟩ := hcall d' hd'
    exact h.annotations a ha b hb ht (by rw [(has a ha).2, (has b hb).2, heq])
  · rintro ⟨htypes, hannotations⟩
    have htype : ∀ a ∈ as, ∀ b ∈ as, a.msgId = b.msgId → a.call.typeName = b.call.typeName := by
      intro a ha b hb heq
      rw [(has a ha).1, (has b hb).1] at heq
      exact msgIdOf_injective_iff.mpr htypes _ (hmem a ha) _ (hmem b hb) heq
    have hann : ∀ a ∈ as, ∀ b ∈ as, a.call.typeName = b.call.typeName →
        a.multiId = b.multiId → a.call.instName = b.call.instName := by
      intro a ha b hb ht heq
      rw [(has a ha).2, (has b hb).2] at heq
      exact (multiIdOf_injective_iff htypes).mpr hannotations _ (hmem a ha) _ (hmem b hb) ht heq
    refine ⟨fun a ha b hb => ⟨fun h => ?_, fun ⟨ht, hi⟩ => ?_⟩, htype, hann⟩
    · obtain ⟨hm, hj⟩ := Prod.mk.inj h
      have ht := htype a ha b hb hm
      exact ⟨ht, hann a ha b hb ht hj⟩
    · rw [(has a ha).1, (has a ha).2, (has b hb).1, (has b hb).2, msgIdOf_congr ht,
        multiIdOf_congr ht hi]

theorem announced_new (h : Transition.run MuTelemetry.returned
      (.new withNetwork withLocalLog timestamp) ds = some t')
    (hon : (withNetwork || withLocalLog) = true) :
    (Transition.trace MuTelemetry.returned MuTelemetry.announce
        (.new withNetwork withLocalLog timestamp) ds).map (·.call) = ds ∧
      ∀ a ∈ Transition.trace MuTelemetry.returned MuTelemetry.announce
          (.new withNetwork withLocalLog timestamp) ds,
        a.msgId = msgIdOf ds a.call ∧ a.multiId = multiIdOf ds a.call ∧
          ∀ m ∈ a.sent, idsOfA m = (a.msgId, a.multiId) := by
  have hstart : (MuTelemetry.new withNetwork withLocalLog timestamp).Identified (msgIdOf ds) [] :=
    ⟨ranked_new rfl, fun _ => ranked_new rfl⟩
  exact hstart.announced rfl hon h

end

/-- In every sequence of calls of `store_data` types and annotations are told
apart by the identifiers of the A messages if and only if there are at most 2^16
types, and at most 2^8 annotations of each. -/
theorem identifiers_tell_apart_iff (h : Transition.run MuTelemetry.returned
      (.new withNetwork withLocalLog timestamp) ds = some t') :
    (∀ a ∈ Transition.trace MuTelemetry.returned MuTelemetry.announce
        (.new withNetwork withLocalLog timestamp) ds, ∀ m ∈ a.sent,
      idsOfA m = (a.msgId, a.multiId)) ∧
    (ToldApart (Transition.trace MuTelemetry.returned MuTelemetry.announce
        (.new withNetwork withLocalLog timestamp) ds) ↔
      ((withNetwork || withLocalLog) = true → EnoughIds ds)) := by
  cases hon : withNetwork || withLocalLog with
  | false =>
    have hoff : (MuTelemetry.new withNetwork withLocalLog timestamp).isEnabled = false := hon
    rw [MuTelemetry.announced_off hoff]
    exact ⟨nofun, iff_of_true ⟨nofun, nofun, nofun⟩ nofun⟩
  | true =>
    obtain ⟨hcalls, has⟩ := announced_new h hon
    refine ⟨fun a ha => (has a ha).2.2, ?_⟩
    rw [toldApart_iff_enoughIds hcalls fun a ha => ⟨(has a ha).1, (has a ha).2.1⟩]
    exact ⟨fun henough _ => henough, fun henough => henough rfl⟩

def twoAnnotations : List DataCall :=
  [⟨MuTelemetry.zeros 8, ascii "imu", ascii "left", 0⟩,
    ⟨MuTelemetry.zeros 8, ascii "imu", ascii "right", 0⟩]

theorem identifiers_tell_apart_iff_twoAnnotations : ∃ t',
    Transition.run MuTelemetry.returned (.new true false 0) twoAnnotations = some t' ∧
    EnoughIds twoAnnotations ∧
    (ToldApart (Transition.trace MuTelemetry.returned MuTelemetry.announce (.new true false 0)
      twoAnnotations) ↔ ((true || false) = true → EnoughIds twoAnnotations)) := by
  have hfits : ∀ d ∈ twoAnnotations, MuTelemetry.nameLen d.typeName ≤ 255 ∧ 8 ≤ d.data.length := by
    decide
  obtain ⟨t', h⟩ := MuTelemetry.exists_returned hfits (.new true false 0)
  exact ⟨t', h, ⟨by decide, by decide⟩, (identifiers_tell_apart_iff h).2⟩

def manyAnnotations : List DataCall :=
  (List.range 257).map fun n => ⟨MuTelemetry.zeros 8, ascii "imu", List.replicate n 97, 0⟩

theorem not_told_apart : ¬ ∀ ds t', Transition.run MuTelemetry.returned (.new true false 0) ds = some t' →
    ToldApart (Transition.trace MuTelemetry.returned MuTelemetry.announce (.new true false 0) ds) := by
  intro h
  have hfits : ∀ d ∈ manyAnnotations, MuTelemetry.nameLen d.typeName ≤ 255 ∧ 8 ≤ d.data.length := by
    simp only [manyAnnotations, List.forall_mem_map]
    exact fun _ _ => by decide
  obtain ⟨t', hr⟩ := MuTelemetry.exists_returned hfits (.new true false 0)
  obtain ⟨hcalls, has⟩ := announced_new hr rfl
  have henough := (toldApart_iff_enoughIds hcalls fun a ha => ⟨(has a ha).1, (has a ha).2.1⟩).mp
    (h _ _ hr)
  have hfew := henough.2 ⟨MuTelemetry.zeros 8, ascii "imu", [], 0⟩
    (List.mem_map.mpr ⟨0, by simp, rfl⟩)
  have hnames : ((manyAnnotations.filter fun d => d.typeName = ascii "imu").map (·.instName)) =
      (List.range 257).map (List.replicate · 97) := by
    rw [List.filter_eq_self.mpr]
    · rw [manyAnnotations, List.map_map]
      rfl
    · simp [manyAnnotations]
  have hnodup : ((List.range 257).map (List.replicate · (97 : UInt8))).Nodup :=
    List.nodup_range.map fun m n heq => by simpa using congrArg List.length heq
  rw [distinctAnnotations, length_entered, hnames, List.toFinset_card_of_nodup hnodup] at hfew
  simp at hfew

end Mutelemetry.Telemetry
