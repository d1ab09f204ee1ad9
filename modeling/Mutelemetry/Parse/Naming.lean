import Mutelemetry.Parse.Resolution

/-!
# The names of series

A series is named after its message, with the instance behind it once an A
message of that name has had a `multi_id_`. So the name of a subscription's data
changes when the first such A message comes between two of its D messages.
-/

namespace Mutelemetry.Parse

open ByteString Stateful Ulog

-- ---------------------------------------------------------------------------
-- A and D messages
-- ---------------------------------------------------------------------------

def AsksFor (m : Bytes × Nat) (name : Bytes) (msgId : UInt16) (multiId : UInt8) : Prop :=
  ∃ formats size sub, headerType m.1 m.2 = .ok (some .A) ∧ headerSize m.1 m.2 = .ok size ∧
    readSubscription formats m.1 (m.2 + 3) size = .ok sub ∧
    sub.messageName = name ∧ sub.msgId = msgId ∧ sub.multiId = multiId

/-- An A message for an instance of a type that has several. -/
def Announces (m : Bytes × Nat) (name : Bytes) : Prop :=
  ∃ msgId multiId, AsksFor m name msgId multiId ∧ 0 < multiId

/-- Every A message for an identifier has the name and the instance it stands for. -/
def Agrees (meaning : UInt16 → Bytes × UInt8) (_ : MutelemetryParser) (m : Bytes × Nat) : Prop :=
  ∀ name msgId multiId, AsksFor m name msgId multiId → (name, multiId) = meaning msgId

def dataAt (m : Bytes × Nat) : Option Nat :=
  match headerType m.1 m.2, headerSize m.1 m.2 with
  | .ok (some .D), _ => some (m.2 + 3)
  | .ok (some .A), .ok size =>
    if headerType m.1 (m.2 + 3 + size.toNat) = .ok (some .D) then some (m.2 + 3 + size.toNat + 3)
    else none
  | _, _ => none

structure DeliversAs (p : MutelemetryParser) (m : Bytes × Nat) (msgId : UInt16)
    (data : MessageData) (q : MutelemetryParser) : Prop where
  accepted : accept p m = some q
  read : ∃ pos, dataAt m = some pos ∧ readUInt16 m.1 pos = .ok msgId
  called : q.dataCalls = p.dataCalls ++ [data]

section
variable {p q : MutelemetryParser}

theorem readSubscription_congr (formats' : Formats)
    (h : readSubscription formats buffer message size = .ok sub) :
    ∃ sub', readSubscription formats' buffer message size = .ok sub' ∧
      sub'.messageName = sub.messageName ∧ sub'.msgId = sub.msgId ∧ sub'.multiId = sub.multiId := by
  simp only [readSubscription, bind_eq_ok] at h
  obtain ⟨multiId, hmulti, msgId, hid, h⟩ := h
  split at h
  · cases h
  · rename_i hsize
    simp only [pure_eq_ok, bind_eq_ok] at h
    obtain ⟨name, hname, heq⟩ := h
    cases heq
    refine ⟨⟨msgId, multiId, name, if name ∈ formats' then some name else none⟩, ?_, rfl, rfl, rfl⟩
    simp only [readSubscription, hmulti, hid, ok_bind, if_neg hsize, hname]
    rfl

theorem headerType_header (h : readFrom buffer pos = .ok (some timestamp)) :
    headerType buffer pos = .ok none := by
  simp only [readFrom, bind_eq_ok] at h
  obtain ⟨bs, hbs, h⟩ := h
  split at h
  · rename_i heq
    subst heq
    obtain ⟨hle, hwin, -⟩ := window_eq_some (fetch_eq_ok.mp hbs)
    have hbuf : buffer = (buffer.take pos ++ [85, 76]) ++
        ([111] ++ ([103, 0x01, 0x12, 0x35] ++ (buffer.drop pos).drop 7)) := by
      calc buffer = buffer.take pos ++ ((buffer.drop pos).take 7 ++ (buffer.drop pos).drop 7) := by
            rw [List.take_append_drop, List.take_append_drop]
        _ = _ := by
            rw [← hwin]
            simp [magic]
    have hpos : pos + 2 = (buffer.take pos ++ [85, 76]).length := by
      rw [List.length_append, List.length_take]
      simp
      omega
    rw [headerType, readUInt8_at _ _ _ hbuf hpos]
    rfl
  · cases h

theorem headerType_flags (h : flagsState buffer pos = .ok .definition) :
    headerType buffer pos = .ok (some .B) := by
  simp only [flagsState, bind_eq_ok] at h
  obtain ⟨type, ht, h⟩ := h
  split at h
  · rename_i heq
    rw [ht, heq]
  · cases h

theorem asksFor_of_read (ht : headerType buffer pos = .ok (some .A))
    (hsize : headerSize buffer pos = .ok size)
    (hr : readSubscription formats buffer (pos + 3) size = .ok sub) :
    AsksFor (buffer, pos) sub.messageName sub.msgId sub.multiId :=
  ⟨formats, size, sub, ht, hsize, hr, rfl, rfl, rfl⟩

theorem AsksFor.eq_read (h : AsksFor (buffer, pos) name msgId multiId)
    (hsize : headerSize buffer pos = .ok size)
    (hr : readSubscription formats buffer (pos + 3) size = .ok sub) :
    name = sub.messageName ∧ msgId = sub.msgId ∧ multiId = sub.multiId := by
  obtain ⟨formats', size', sub', -, hsize', hr', rfl, rfl, rfl⟩ := h
  cases hsize.symm.trans hsize'
  obtain ⟨sub'', hr'', hname, hid, hmulti⟩ := readSubscription_congr formats hr'
  cases hr.symm.trans hr''
  exact ⟨hname.symm, hid.symm, hmulti.symm⟩

theorem mem_subscribe (name : Bytes) : name ∈ (p.subscribe sub).withMultiId ↔
    name ∈ p.withMultiId ∨ name = sub.messageName ∧ 0 < sub.multiId := by
  simp only [MutelemetryParser.subscribe]
  split
  · rename_i h
    simp [h, or_comm]
  · rename_i h
    simp [h]

theorem Data.withMultiId (h : Data p buffer message q) : q.withMultiId = p.withMultiId := by
  cases h with
  | unsubscribed => rfl
  | subscribed _ _ hd =>
    cases hd
    rfl

theorem behind_withMultiId (h : behind p buffer hdr = (b, q)) : q.withMultiId = p.withMultiId := by
  obtain rfl | rfl := behind_eq h <;> rfl

/-- An A message of the body adds its name, any other message none. -/
theorem Handles.withMultiId (h : Handles buffer pos p s q) (hs : s ≠ .invalid) (name : Bytes) :
    name ∈ q.withMultiId ↔ name ∈ p.withMultiId ∨ Announces (buffer, pos) name := by
  have hother {t : Option ULogMessageType} (ht : headerType buffer pos = .ok t) (hne : t ≠ some .A) :
      ¬ Announces (buffer, pos) name := by
    rintro ⟨_, _, ⟨_, _, _, ht', -⟩, -⟩
    cases ht.symm.trans ht'
    exact hne rfl
  have hadd {size sub} (ht : headerType buffer pos = .ok (some .A))
      (hsize : headerSize buffer pos = .ok size)
      (hr : readSubscription p.formats buffer (pos + 3) size = .ok sub) :
      name ∈ (p.subscribe sub).withMultiId ↔
        name ∈ p.withMultiId ∨ Announces (buffer, pos) name := by
    rw [mem_subscribe]
    refine or_congr_right ⟨?_, ?_⟩
    · rintro ⟨rfl, hpos⟩
      exact ⟨_, _, asksFor_of_read ht hsize hr, hpos⟩
    · rintro ⟨_, _, hasks, hpos⟩
      obtain ⟨rfl, -, rfl⟩ := hasks.eq_read hsize hr
      exact ⟨rfl, hpos⟩
  cases h with
  | header _ hr => simp [hother (headerType_header hr)]
  | flags _ hf => simp [hother (headerType_flags hf)]
  | info _ ht | multi _ ht | param _ ht | format _ ht | logged _ ht | remove _ ht =>
    simp [hother ht]
  | data _ ht hd => simp [hd.withMultiId, hother ht]
  | passed _ ht =>
    obtain ht | ht := ht
    · simp [hother ht]
    · simp [hother ht]
  | add _ ht hsize hr hb => rw [behind_withMultiId hb, hadd ht hsize hr]
  | addData _ ht hsize hr hb hd => rw [hd.withMultiId, behind_withMultiId hb, hadd ht hsize hr]
  | reject => exact absurd rfl hs

theorem getLatestData_name {timeseries : Timeseries}
    (h : timeseries.getLatestData name = .ok data) : data.name = name := by
  unfold Timeseries.getLatestData at h
  split at h
  · cases h
  · obtain ⟨structuredData, -, heq⟩ := bind_eq_ok.mp h
    cases heq
    rfl

theorem dataCalls_behind (h : behind p buffer hdr = (b, q)) : q.dataCalls = p.dataCalls := by
  obtain rfl | rfl := behind_eq h <;> rfl

theorem behind_true (h : behind p buffer hdr = (true, q)) :
    headerType buffer hdr = .ok (some .D) ∧ q = p := by
  unfold behind at h
  split at h
  · rename_i type htype
    obtain ⟨ht, rfl⟩ := Prod.mk.inj h
    exact ⟨by rw [htype, of_decide_eq_true ht], rfl⟩
  · cases h

/-- What is delivered has the name that the state behind it gives the series. -/
theorem Data.name (h : Data p buffer message q) (hid : readUInt16 buffer message = .ok msgId)
    (hcalls : q.dataCalls = p.dataCalls ++ [data]) :
    ∃ sub, q.subscriptions.lookup msgId = some sub ∧ data.name = q.seriesName sub := by
  cases h with
  | unsubscribed => simp at hcalls
  | subscribed hid' hsub hd =>
    cases hid.symm.trans hid'
    obtain ⟨-, -, -, -, hdata⟩ := hd
    rename_i data'
    have heq : data' = data := by
      simpa [MutelemetryParser.handleData, MutelemetryParser.setSeries] using hcalls
    subst heq
    exact ⟨_, hsub, getLatestData_name hdata⟩

theorem DeliversAs.name (h : DeliversAs p m msgId data q) :
    ∃ sub, q.subscriptions.lookup msgId = some sub ∧ data.name = q.seriesName sub := by
  obtain ⟨haccept, ⟨pos, hpos, hid⟩, hcalls⟩ := h
  obtain ⟨buffer, start⟩ := m
  obtain ⟨state, q, hh, rfl, -⟩ := parse_ok (accept_eq_some.mp haccept)
  cases hh with
  | header | flags | info | multi | format | param | logged | passed | remove | reject =>
    simp at hcalls
  | add _ _ _ _ hb =>
    simp [dataCalls_behind hb, MutelemetryParser.subscribe] at hcalls
  | data _ ht hd =>
    simp only [dataAt, ht, Option.some.injEq] at hpos
    subst hpos
    exact hd.name hid hcalls
  | addData _ ht hsize _ hb hd =>
    obtain ⟨htype, rfl⟩ := behind_true hb
    simp only [dataAt, ht, hsize, htype, if_true, Option.some.injEq] at hpos
    subst hpos
    exact hd.name hid hcalls

-- ---------------------------------------------------------------------------
-- Runs
-- ---------------------------------------------------------------------------

def Means (meaning : UInt16 → Bytes × UInt8) (_ : Formats) (sub : Subscription) : Prop :=
  (sub.messageName, sub.multiId) = meaning sub.msgId

theorem Agrees.adds (h : Agrees meaning p m) : Adds (Means meaning) p m :=
  fun _ _ ht hsize hr _ => h _ _ _ (asksFor_of_read ht hsize hr)

theorem accept_withMultiId (h : accept p m = some q) (name : Bytes) :
    name ∈ q.withMultiId ↔ name ∈ p.withMultiId ∨ Announces m name := by
  obtain ⟨state, q, hh, rfl, hb⟩ := parse_ok (accept_eq_some.mp h)
  exact hh.withMultiId (by simpa using hb) name

theorem run_withMultiId (h : Transition.run accept p ms = some q) (name : Bytes) :
    name ∈ q.withMultiId ↔ name ∈ p.withMultiId ∨ ∃ m ∈ ms, Announces m name := by
  induction ms generalizing p with
  | nil =>
    cases h
    simp
  | cons m ms ih =>
    obtain ⟨p', hm, h⟩ := Transition.run_cons.mp h
    rw [ih h, accept_withMultiId hm, or_assoc]
    simp

theorem dotted_ne (name s : Bytes) : name ++ ascii "." ++ s ≠ name := by
  intro heq
  have hdot : (ascii ".").length = 1 := rfl
  have hlen := congrArg List.length heq
  rw [List.length_append, List.length_append, hdot] at hlen
  omega

/-- The name of a series tells whether instances of its message were announced. -/
theorem DeliversAs.name_eq (h : DeliversAs p m msgId data q) (hq : Keeps (Means meaning) q) :
    data.name = if (meaning msgId).1 ∈ q.withMultiId then
      (meaning msgId).1 ++ ascii "." ++ decimal02 (meaning msgId).2.toNat
      else (meaning msgId).1 := by
  obtain ⟨sub, hsub, hname⟩ := h.name
  have hmeans : (sub.messageName, sub.multiId) = meaning msgId := by
    rw [← (hq.subs _ _ hsub).1]
    exact (hq.subs _ _ hsub).2
  rw [hname, MutelemetryParser.seriesName, ← hmeans]

/-- Two deliveries of one identifier have the same name exactly when an A message
up to the first of them announces instances of its message, or none up to the
second does. -/
theorem name_stable_iff {meaning : UInt16 → Bytes × UInt8}
    (has : Transition.Guarded accept (Agrees meaning) .new as p) (hm : Agrees meaning p m)
    (hd : DeliversAs p m msgId data q) (hbs : Transition.Guarded accept (Agrees meaning) q bs r)
    (hm' : Agrees meaning r m') (hd' : DeliversAs r m' msgId data' t) :
    data.name = data'.name ↔ (∃ n ∈ as ++ [m], Announces n (meaning msgId).1) ∨
      ∀ n ∈ as ++ [m] ++ bs ++ [m'], ¬ Announces n (meaning msgId).1 := by
  have hkeeps {p q ns} (hp : Keeps (Means meaning) p)
      (h : Transition.Guarded accept (Agrees meaning) p ns q) : Keeps (Means meaning) q :=
    h.invariant _ (fun hi hg hs => hi.accept hg.adds hs) hp
  have hrun : Transition.run accept .new (as ++ [m]) = some q :=
    Transition.run_append.mpr ⟨p, has.run, by simp [Transition.run, hd.accepted]⟩
  have hrun' : Transition.run accept .new (as ++ [m] ++ bs ++ [m']) = some t :=
    Transition.run_append.mpr ⟨r, Transition.run_append.mpr ⟨q, hrun, hbs.run⟩,
      by simp [Transition.run, hd'.accepted]⟩
  have hq : Keeps (Means meaning) q := (hkeeps keeps_new has).accept hm.adds hd.accepted
  have ht : Keeps (Means meaning) t := (hkeeps hq hbs).accept hm'.adds hd'.accepted
  have hmem := run_withMultiId hrun (meaning msgId).1
  have hmem' := run_withMultiId hrun' (meaning msgId).1
  have hnew : (meaning msgId).1 ∉ MutelemetryParser.new.withMultiId := Finset.notMem_empty _
  simp only [hnew, false_or] at hmem hmem'
  rw [hd.name_eq hq, hd'.name_eq ht]
  by_cases hfirst : (meaning msgId).1 ∈ q.withMultiId
  · -- announced before: both have the instance
    obtain ⟨n, hn, ha⟩ := hmem.mp hfirst
    have hlast := hmem'.mpr ⟨n, by simp only [List.mem_append] at hn ⊢; tauto, ha⟩
    rw [if_pos hfirst, if_pos hlast]
    exact ⟨fun _ => .inl ⟨n, hn, ha⟩, fun _ => rfl⟩
  · have hnone : ¬ ∃ n ∈ as ++ [m], Announces n (meaning msgId).1 := fun h => hfirst (hmem.mpr h)
    rw [if_neg hfirst]
    by_cases hlast : (meaning msgId).1 ∈ t.withMultiId
    · rw [if_pos hlast]
      obtain ⟨n, hn, ha⟩ := hmem'.mp hlast
      constructor
      · exact fun heq => absurd heq.symm (dotted_ne _ _)
      · rintro (h | h)
        · exact absurd h hnone
        · exact absurd ha (h n hn)
    · rw [if_neg hlast]
      exact ⟨fun _ => .inr fun n hn ha => hlast (hmem'.mpr ⟨n, hn, ha⟩), fun _ => rfl⟩

end

-- ---------------------------------------------------------------------------
-- One type with two instances
-- ---------------------------------------------------------------------------

theorem Data.dataCalls (h : Data p buffer message q) :
    ∃ ds, q.dataCalls = p.dataCalls ++ ds ∧ ds.length ≤ 1 := by
  cases h with
  | unsubscribed => exact ⟨[], by simp, by simp⟩
  | subscribed _ _ hd =>
    cases hd
    exact ⟨[_], rfl, by simp⟩

theorem accept_dataCalls (h : accept p m = some q) :
    ∃ ds, q.dataCalls = p.dataCalls ++ ds ∧ ds.length ≤ 1 := by
  obtain ⟨state, q, hh, rfl, -⟩ := parse_ok (accept_eq_some.mp h)
  cases hh with
  | header | flags | info | multi | format | param | logged | passed | remove | reject =>
    exact ⟨[], by simp, by simp⟩
  | add _ _ _ _ hb => exact ⟨[], by simp [dataCalls_behind hb, MutelemetryParser.subscribe], by simp⟩
  | data _ _ hd => exact hd.dataCalls
  | addData _ _ _ _ hb hd =>
    obtain ⟨-, rfl⟩ := behind_true hb
    exact hd.dataCalls

theorem asksFor_add (hname : 3 + name.length < 2 ^ 16)
    (h : AsksFor (addData msgId multiId name payload, 0) name' msgId' multiId') :
    name' = name ∧ msgId' = msgId ∧ multiId' = multiId := by
  have hread : readSubscription ∅ (addData msgId multiId name payload) (0 + 3)
      (.ofNat (3 + name.length)) = .ok (subscriptionOf ∅ msgId multiId name) :=
    readSubscription_add hname
  exact h.eq_read (headerSize_add msgId multiId name payload) hread

theorem not_asksFor (h : headerType m.1 m.2 ≠ .ok (some .A)) : ¬ AsksFor m name msgId multiId := by
  rintro ⟨_, _, _, ht, -⟩
  exact h ht

def oneTypeMeaning (msgId : UInt16) : Bytes × UInt8 := (ascii "T", if msgId = 0 then 0 else 1)

def otherRecord : Bytes × Nat := (addData 1 1 (ascii "T") (leBytes 8 7 ++ [1, 2]), 0)

theorem agrees_add (hname : 3 + name.length < 2 ^ 16) (h : (name, multiId) = meaning msgId) :
    Agrees meaning p (addData msgId multiId name payload, 0) := by
  intro name' msgId' multiId' hasks
  obtain ⟨rfl, rfl, rfl⟩ := asksFor_add hname hasks
  exact h

theorem guarded_oneType (h : Transition.run accept .new oneType = some p) :
    Transition.Guarded accept (Agrees oneTypeMeaning) .new oneType p :=
  .of_run h fun _ hm _ _ _ _ hasks => absurd hasks (not_asksFor ((show ∀ m ∈ oneType,
    headerType m.1 m.2 ≠ .ok (some .A) by decide +kernel) _ hm))

theorem agrees_oneData (p : MutelemetryParser) : Agrees oneTypeMeaning p oneData :=
  fun _ _ _ hasks => absurd hasks (not_asksFor (by decide +kernel))

def deliveredNames (ms : List (Bytes × Nat)) : Option (List Bytes) :=
  (Transition.run accept .new ms).map fun p => p.dataCalls.map (·.name)

theorem deliversAs_concat (hp : Transition.run accept .new ms = some p)
    (hnames : deliveredNames (ms ++ [m]) = (deliveredNames ms).map (· ++ [name]))
    (hid : (dataAt m).map (readUInt16 m.1) = some (.ok msgId)) :
    ∃ data q, Transition.run accept .new (ms ++ [m]) = some q ∧ DeliversAs p m msgId data q ∧
      data.name = name := by
  simp only [deliveredNames, hp, Option.map_some, Option.map_eq_some_iff] at hnames
  obtain ⟨q, hq, hnames⟩ := hnames
  obtain ⟨p', hp', hstep⟩ := Transition.run_concat.mp hq
  cases hp.symm.trans hp'
  obtain ⟨ds, hcalls, -⟩ := accept_dataCalls hstep
  simp only [hcalls, List.map_append, List.append_cancel_left_eq] at hnames
  obtain ⟨data, rfl, rfl⟩ := List.map_eq_singleton_iff.mp hnames
  obtain ⟨pos, hpos, hread⟩ := Option.map_eq_some_iff.mp hid
  exact ⟨data, q, hq, ⟨hstep, ⟨pos, hpos, hread⟩, hcalls⟩, rfl⟩

theorem name_stable_iff_oneType : ∃ p q t data data',
    Transition.run accept .new oneType = some p ∧ DeliversAs p oneRecord 0 data q ∧
    DeliversAs q oneData 0 data' t ∧ data.name = data'.name := by
  have hrun : (Transition.run accept .new oneType).isSome = true := by decide +kernel
  obtain ⟨p, hp⟩ := Option.isSome_iff_exists.mp hrun
  obtain ⟨data, q, hq, hd, -⟩ : ∃ data q, _ ∧ DeliversAs p oneRecord 0 data q ∧
    data.name = ascii "T" := deliversAs_concat hp (by decide +kernel) (by decide +kernel)
  obtain ⟨data', t, ht, hd', -⟩ : ∃ data' t, _ ∧ DeliversAs q oneData 0 data' t ∧
    data'.name = ascii "T" := deliversAs_concat hq (by decide +kernel) (by decide +kernel)
  have hrecord : Agrees oneTypeMeaning p oneRecord := agrees_add (by decide) rfl
  have hstable := name_stable_iff (guarded_oneType hp) hrecord hd .nil (agrees_oneData q) hd'
  refine ⟨p, q, t, data, data', hp, hd, hd', hstable.mpr (.inr ?_)⟩
  rintro n hn ⟨msgId, multiId, hasks, hpos⟩
  simp only [List.mem_append, List.mem_singleton, List.append_nil] at hn
  obtain (hn | rfl) | rfl := hn
  · exact not_asksFor ((show ∀ m ∈ oneType, headerType m.1 m.2 ≠ .ok (some .A) by
      decide +kernel) _ hn) hasks
  · obtain ⟨-, -, rfl⟩ := asksFor_add (by decide) hasks
    exact absurd hpos (by decide)
  · exact not_asksFor (by decide +kernel) hasks

/-- The second instance of a type changes the name of the first one's data. -/
theorem otherRecord_renames : ¬ ∀ (meaning : UInt16 → Bytes × UInt8) as p m msgId data q bs r m'
    data' t, Transition.Guarded accept (Agrees meaning) .new as p → Agrees meaning p m →
    DeliversAs p m msgId data q → Transition.Guarded accept (Agrees meaning) q bs r →
    Agrees meaning r m' → DeliversAs r m' msgId data' t → data.name = data'.name := by
  intro h
  have hrun : (Transition.run accept .new oneType).isSome = true := by decide +kernel
  obtain ⟨p, hp⟩ := Option.isSome_iff_exists.mp hrun
  obtain ⟨data, q, hq, hd, hname⟩ : ∃ data q, _ ∧ DeliversAs p oneRecord 0 data q ∧
    data.name = ascii "T" := deliversAs_concat hp (by decide +kernel) (by decide +kernel)
  obtain ⟨_, r, hr, ho, -⟩ : ∃ data r, _ ∧ DeliversAs q otherRecord 1 data r ∧
    data.name = ascii "T.01" := deliversAs_concat hq (by decide +kernel) (by decide +kernel)
  obtain ⟨data', t, -, hd', hname'⟩ : ∃ data' t, _ ∧ DeliversAs r oneData 0 data' t ∧
    data'.name = ascii "T.00" := deliversAs_concat hr (by decide +kernel) (by decide +kernel)
  have hrecord : Agrees oneTypeMeaning p oneRecord := agrees_add (by decide) rfl
  have hother : Agrees oneTypeMeaning q otherRecord := agrees_add (by decide) rfl
  have hsame := h oneTypeMeaning oneType p oneRecord 0 data q [otherRecord] r oneData data' t
    (guarded_oneType hp) hrecord hd (.cons hother ho.accepted .nil) (agrees_oneData r) hd'
  rw [hname, hname'] at hsame
  exact absurd hsame (by decide)

end Mutelemetry.Parse
