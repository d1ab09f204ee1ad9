import Mutelemetry.Parse.Bounds
import Mutelemetry.Parse.Naming

/-!
# Calls that fail

A message is taken apart before anything is stored, but for two cases: behind an
A message the D message fails when the subscription is there already, and a D
message has given its series a new timestamp, and the values so far, when it
comes to a nested format that is not defined.
-/

namespace Mutelemetry.Parse

open ByteString Stateful Ulog

/-- The same tables, as maps, and no call of a handler. -/
structure Same (p q : MutelemetryParser) : Prop where
  formats : q.formats = p.formats
  subscriptions : ∀ msgId, q.subscriptions.lookup msgId = p.subscriptions.lookup msgId
  withMultiId : q.withMultiId = p.withMultiId
  timeseries : ∀ name, q.timeseries.lookup name = p.timeseries.lookup name
  parameters : q.parameters = p.parameters
  info : q.info = p.info
  dataCalls : q.dataCalls = p.dataCalls
  logCalls : q.logCalls = p.logCalls

def Atomic (p : MutelemetryParser) (m : Bytes × Nat) : Prop :=
  match (parse m.1 m.2).run p with
  | .ok true _ => True
  | .ok false q => Same p q
  | .error fault q => fault.isThrown = true → Same p q

inductive Reaches (p : MutelemetryParser) (m : Bytes × Nat) : MutelemetryParser → Nat → Prop
  | data : p.state = .definitionOrData → headerType m.1 m.2 = .ok (some .D) →
    Reaches p m p (m.2 + 3)
  | addData : p.InBody → headerType m.1 m.2 = .ok (some .A) → headerSize m.1 m.2 = .ok size →
    readSubscription p.formats m.1 (m.2 + 3) size = .ok sub →
    headerType m.1 (m.2 + 3 + size.toNat) = .ok (some .D) →
    Reaches p m (p.subscribe sub) (m.2 + 3 + size.toNat + 3)

/-- Behind these leaves, the format of a D message nests a name that is not defined. -/
structure Undefined (p : MutelemetryParser) (buffer : Bytes) (message : Nat) (sub : Subscription)
    (leaves : List Leaf) : Prop where
  subscribed : ∃ msgId, readUInt16 buffer message = .ok msgId ∧ p.subscriptions.lookup msgId = some sub
  format : ∃ format, p.formatOf sub = .ok format ∧
    trail p.formats p.formats.keys.length format ↑(message + 10) = ⟨leaves, .error .outOfRange⟩

/-- What the D message stores before it comes to that name is there already. -/
def Stored (p : MutelemetryParser) (buffer : Bytes) (message : Nat) (sub : Subscription)
    (leaves : List Leaf) : Prop :=
  ∀ timeseries tval values, p.timeseries.lookup (p.seriesName sub) = some timeseries →
    readUInt64 buffer (message + 2) = .ok tval → leaves.mapM (readLeaf buffer) = .ok values →
    { timeseries with timestamps := [tval] }.setColumns 0 values = timeseries

def Known (p : MutelemetryParser) (sub : Subscription) : Prop :=
  sub.msgId ∈ p.subscriptions ∧ (0 < sub.multiId → sub.messageName ∈ p.withMultiId)

def AddsNothing (p : MutelemetryParser) (m : Bytes × Nat) : Prop :=
  ∀ size sub, headerType m.1 m.2 = .ok (some .A) → headerSize m.1 m.2 = .ok size →
    readSubscription p.formats m.1 (m.2 + 3) size = .ok sub → Known p sub

/-- A D message that comes to such a name has changed nothing before: an A
message in front of it adds nothing, and its series is not there or keeps what
it has. -/
def Tidy (p : MutelemetryParser) (m : Bytes × Nat) : Prop :=
  ∀ q message sub leaves, Reaches p m q message → Undefined q m.1 message sub leaves →
    AddsNothing p m ∧ Stored q m.1 message sub leaves

section
variable {p q : MutelemetryParser}

theorem Same.refl (p : MutelemetryParser) (s : ParseState) : Same p { p with state := s } :=
  ⟨rfl, fun _ => rfl, rfl, fun _ => rfl, rfl, rfl, rfl, rfl⟩

theorem same_setSeries_iff (hq : q.timeseries = p.timeseries)
    (hlookup : q.timeseries.lookup name = some timeseries) :
    Same p (q.setSeries name timeseries') ↔ Same p q ∧ timeseries' = timeseries := by
  constructor
  · rintro ⟨hf, hs, hm, ht, hp, hi, hd, hl⟩
    refine ⟨⟨hf, hs, hm, fun _ => by rw [hq], hp, hi, hd, hl⟩, ?_⟩
    have hname := ht name
    rw [MutelemetryParser.setSeries, AList.lookup_insert, ← hq, hlookup] at hname
    exact Option.some.inj hname
  · rintro ⟨⟨hf, hs, hm, ht, hp, hi, hd, hl⟩, rfl⟩
    refine ⟨hf, hs, hm, fun name' => ?_, hp, hi, hd, hl⟩
    rw [MutelemetryParser.setSeries, ← hq]
    by_cases hname : name' = name
    · rw [hname, AList.lookup_insert, hlookup]
    · rw [AList.lookup_insert_ne hname]

-- ---------------------------------------------------------------------------
-- D messages
-- ---------------------------------------------------------------------------

/-- A name that is not defined stops the call before its series is there. -/
theorem Undefined.run_new (h : Undefined p buffer message sub leaves)
    (hlookup : p.timeseries.lookup (p.seriesName sub) = none) :
    (parseData buffer message).run p = .error .overflow p ∨
      (parseData buffer message).run p = .error .outOfRange p := by
  obtain ⟨⟨msgId, hid, hsub⟩, format, hf, htrail⟩ := h
  have hseries : p.seriesFor sub = createTimeseries p.formats format := by
    simp only [MutelemetryParser.seriesFor, hlookup, hf, ok_bind]
  have hnames : NamesTo (appendVector p.formats p.formats.keys.length format []) _ :=
    appendVector_namesTo _ _ _ ↑(message + 10)
  rw [htrail] at hnames
  simp only [run_parseData, parseDataTo, run_seq, hid, run_lift_ok, EStateM.run_get, hsub, hseries,
    createTimeseries]
  obtain hoverflow | herror := hnames
  · rw [hoverflow]
    exact .inl rfl
  · rw [show appendVector p.formats p.formats.keys.length format [] = .error .outOfRange from herror]
    exact .inr rfl

/-- It stops the call behind the leaves in front of it, when the series is there. -/
theorem Undefined.run_old (h : Undefined p buffer message sub leaves)
    (hlookup : p.timeseries.lookup (p.seriesName sub) = some timeseries) :
    (∃ fault q, (parseData buffer message).run p = .error fault q ∧ fault.isStray = true) ∨
    ∃ tval values, readUInt64 buffer (message + 2) = .ok tval ∧
      leaves.mapM (readLeaf buffer) = .ok values ∧
      (parseData buffer message).run p = .error .outOfRange (p.setSeries (p.seriesName sub)
        ({ timeseries with timestamps := [tval] }.setColumns 0 values)) := by
  obtain ⟨⟨msgId, hid, hsub⟩, format, hf, htrail⟩ := h
  have hseries : p.seriesFor sub = .ok timeseries := by
    simp only [MutelemetryParser.seriesFor, hlookup]
  obtain ⟨t, hnew, hins⟩ := run_insertSeries p (p.seriesName sub) timeseries
  simp only [run_parseData, parseDataTo, run_seq, hid, run_lift_ok, EStateM.run_get, hsub, hseries,
    hnew]
  cases htval : readUInt64 buffer (message + 2) with
  | error fault =>
    rw [readUInt64_error htval]
    exact .inl ⟨.outOfBounds, _, rfl, rfl⟩
  | ok tval =>
    have hwalk : Treads buffer (parseDataIntl p.formats buffer p.formats.keys.length format) _ :=
      parseDataIntl_treads _ _
    replace hwalk := hwalk ⟨{ timeseries with timestamps := [tval] }, ↑(message + 10), 0⟩
    simp only [run_lift_ok, hf, htrail] at hwalk ⊢
    cases hstore : storeLeaves buffer leaves { timeseries with timestamps := [tval] } 0 with
    | error fault =>
      simp only [hstore] at hwalk
      obtain ⟨c, hrun⟩ := hwalk
      rw [hrun]
      exact .inl ⟨fault, _, rfl, storeLeaves_stray hstore⟩
    | ok r =>
      obtain ⟨timeseries', index⟩ := r
      obtain ⟨values, hv, -, rfl, -⟩ := (storeLeaves_eq_ok (Nat.zero_le
        ({ timeseries with timestamps := [tval] } : Timeseries).data.length)).mp hstore
      obtain ⟨c, hrun, hc⟩ := parseDataIntl_halts p.formats.keys.length format
        ⟨{ timeseries with timestamps := [tval] }, ↑(message + 10), 0⟩ .outOfRange _ index
        (by rw [htrail]) (by rw [htrail]; exact hstore)
      refine .inr ⟨tval, values, rfl, hv, ?_⟩
      rw [hrun, MutelemetryParser.setSeries, ← hins, ← hc]
      rfl

theorem formatOf_error (h : p.formatOf sub = .error fault) : fault = .nullFormat := by
  unfold MutelemetryParser.formatOf at h
  split at h
  · cases h
  · cases h
    rfl

theorem createTimeseries_thrown (h : createTimeseries formats format = .error fault)
    (ht : fault.isThrown = true) (start : Int) :
    (trail formats formats.keys.length format start).stop = .error fault := by
  obtain h | ⟨paths, -, h⟩ := bind_eq_error.mp h
  · refine appendVector_stops h ?_ start
    rintro rfl
    cases ht
  · cases h

theorem DataFault.undefined (h : DataFault p buffer message sub fault) (ht : fault.isThrown = true)
    (hsub : ∃ msgId, readUInt16 buffer message = .ok msgId ∧ p.subscriptions.lookup msgId = some sub) :
    ∃ leaves, Undefined p buffer message sub leaves := by
  obtain ⟨format, hf, hstop⟩ : ∃ format, p.formatOf sub = .ok format ∧
      (trail p.formats p.formats.keys.length format ↑(message + 10)).stop = .error fault := by
    cases h with
    | series hs =>
      unfold MutelemetryParser.seriesFor at hs
      split at hs
      · cases hs
      · obtain hf | ⟨format, hf, hs⟩ := bind_eq_error.mp hs
        · rw [formatOf_error hf] at ht
          cases ht
        · exact ⟨format, hf, createTimeseries_thrown hs ht _⟩
    | timestamp hr =>
      rw [readUInt64_error hr] at ht
      cases ht
    | format hf =>
      rw [formatOf_error hf] at ht
      cases ht
    | walk _ hf hwalk => exact ⟨_, hf, parseDataIntl_stops hwalk (Fault.isStray_of_isThrown ht)⟩
    | latest _ _ _ hlatest =>
      rw [getLatestData_error hlatest] at ht
      cases ht
  obtain rfl | rfl := trail_error hstop
  · exact ⟨_, hsub, format, hf, by rw [← hstop]⟩
  · cases ht

theorem parseData_thrown (h : (parseData buffer message).run p = .error fault q)
    (ht : fault.isThrown = true) : ∃ sub leaves, Undefined p buffer message sub leaves := by
  obtain ⟨q', hok, -⟩ | ⟨fault', q', herr, hd⟩ := parseData_cases buffer message p
  · cases hok.symm.trans h
  · cases herr.symm.trans h
    cases hd with
    | msgId hid =>
      rw [readUInt16_error hid] at ht
      cases ht
    | subscribed t hid hsub hf => exact ⟨_, hf.undefined ht ⟨_, hid, hsub⟩⟩

-- ---------------------------------------------------------------------------
-- Any message
-- ---------------------------------------------------------------------------

theorem Reaches.run (h : Reaches p m q message) :
    (parse m.1 m.2).run p = settle ((parseData m.1 message).run q) := by
  cases h with
  | data hs ht => exact run_parse_D hs ht
  | addData hb ht hsize hr htype =>
    rw [run_parse_A hb ht, run_parseAddData hsize]
    simp only [hr, behind, htype]
    rfl

theorem Reaches.timeseries (h : Reaches p m q message) : q.timeseries = p.timeseries := by
  cases h with
  | data | addData => rfl

theorem Reaches.unique (h : Reaches p m q message) (h' : Reaches p m q' message') :
    q' = q ∧ message' = message := by
  cases h with
  | data _ ht =>
    cases h' with
    | data => exact ⟨rfl, rfl⟩
    | addData _ ht' => cases ht.symm.trans ht'
  | addData _ ht hsize hr =>
    cases h' with
    | data _ ht' => cases ht.symm.trans ht'
    | addData _ _ hsize' hr' =>
      cases hsize.symm.trans hsize'
      cases hr.symm.trans hr'
      exact ⟨rfl, rfl⟩

theorem Undefined.unique (h : Undefined p buffer message sub leaves)
    (h' : Undefined p buffer message sub' leaves') : sub' = sub ∧ leaves' = leaves := by
  obtain ⟨⟨msgId, hid, hsub⟩, format, hf, htrail⟩ := h
  obtain ⟨⟨msgId', hid', hsub'⟩, format', hf', htrail'⟩ := h'
  cases hid.symm.trans hid'
  cases hsub.symm.trans hsub'
  cases hf.symm.trans hf'
  cases htrail.symm.trans htrail'
  exact ⟨rfl, rfl⟩

theorem Handles.rejected (h : Handles buffer pos p s q) (hs : s = .invalid) : q = p := by
  cases h with
  | info hb | multi hb | param hb => exact absurd hs hb.ne_invalid
  | format hp => exact absurd hs (by simp [hp])
  | header | flags | add | addData | data | logged | passed | remove => cases hs
  | reject => rfl

theorem atomic_of_not_reaches (h : ∀ q message, ¬ Reaches p m q message) : Atomic p m := by
  obtain ⟨buffer, pos⟩ := m
  unfold Atomic
  split
  · trivial
  · rename_i q hrun
    obtain ⟨state, q, hh, rfl, hb⟩ := parse_ok hrun
    obtain rfl := hh.rejected (by simpa using hb)
    exact .refl _ _
  · rename_i fault q hrun
    intro ht
    cases parse_error hrun with
    | unchanged => exact .refl p p.state
    | asserted => cases ht
    | addData hb ht hsize hr hbehind =>
      obtain ⟨htype, rfl⟩ := behind_true hbehind
      exact absurd (.addData hb ht hsize hr htype) (h _ _)
    | data hs ht => exact absurd (.data hs ht) (h _ _)

theorem Reaches.atomic_iff (h : Reaches p m q message) : Atomic p m ↔ ∀ fault q',
    (parseData m.1 message).run q = .error fault q' → fault.isThrown = true → Same p q' := by
  rw [Atomic, h.run]
  obtain ⟨q', hrun, -⟩ | ⟨fault, q', hrun, -⟩ := parseData_cases m.1 message q
  · rw [hrun]
    exact iff_of_true trivial nofun
  · rw [hrun]
    constructor
    · intro ha fault' q'' heq
      cases heq
      exact ha
    · exact fun ha => ha fault q' rfl

theorem same_subscribe_iff : Same p (p.subscribe sub) ↔ Known p sub := by
  constructor
  · intro h
    have hsub := h.subscriptions sub.msgId
    rw [lookup_subscribe] at hsub
    refine ⟨AList.lookup_isSome.mp (by rw [← hsub]; rfl), fun hmulti => ?_⟩
    rw [← h.withMultiId, mem_subscribe]
    exact .inr ⟨rfl, hmulti⟩
  · rintro ⟨hsub, hmulti⟩
    refine ⟨rfl, fun msgId => ?_, Finset.ext fun name => ?_, fun _ => rfl, rfl, rfl, rfl, rfl⟩
    · simp only [MutelemetryParser.subscribe, if_pos hsub]
    · rw [mem_subscribe, or_iff_left_of_imp]
      rintro ⟨rfl, h⟩
      exact hmulti h

theorem Reaches.same_iff (h : Reaches p m q message) : Same p q ↔ AddsNothing p m := by
  cases h with
  | data _ ht => exact iff_of_true (.refl p p.state) fun _ _ ht' => nomatch ht.symm.trans ht'
  | addData _ ht hsize hr =>
    rw [same_subscribe_iff]
    constructor
    · intro hk size' sub' _ hsize' hr'
      cases hsize.symm.trans hsize'
      cases hr.symm.trans hr'
      exact hk
    · exact fun hk => hk _ _ ht hsize hr

theorem Reaches.tidy_iff (h : Reaches p m q message) (hu : Undefined q m.1 message sub leaves) :
    Tidy p m ↔ Same p q ∧ Stored q m.1 message sub leaves := by
  rw [h.same_iff]
  constructor
  · exact fun ht => ht q message sub leaves h hu
  · rintro ht q' message' sub' leaves' h' hu'
    obtain ⟨rfl, rfl⟩ := h.unique h'
    obtain ⟨rfl, rfl⟩ := hu.unique hu'
    exact ht

/-- At a name that is not defined, the call has changed what it has stored. -/
theorem Undefined.same_iff (hu : Undefined q m.1 message sub leaves) (hreach : Reaches p m q message)
    (h : step p m = some p') :
    (∀ fault q', (parseData m.1 message).run q = .error fault q' → fault.isThrown = true → Same p q') ↔
      Same p q ∧ Stored q m.1 message sub leaves := by
  cases hlookup : q.timeseries.lookup (q.seriesName sub) with
  | none =>
    have hstored : Stored q m.1 message sub leaves :=
      fun timeseries _ _ hsome => nomatch hlookup.symm.trans hsome
    obtain hrun | hrun := hu.run_new hlookup
    · simp only [step, hreach.run, hrun, settle] at h
      cases h
    · simp [hrun, hstored, Fault.isThrown]
  | some timeseries =>
    obtain ⟨fault, q', hrun, hstray⟩ | ⟨tval, values, ht, hv, hrun⟩ := hu.run_old hlookup
    · simp only [step, hreach.run, hrun, settle, Option.ite_none_right_eq_some] at h
      cases hstray.symm.trans (Fault.isStray_of_isThrown h.1)
    · have hstored : Stored q m.1 message sub leaves ↔
          { timeseries with timestamps := [tval] }.setColumns 0 values = timeseries := by
        constructor
        · exact fun hs => hs timeseries tval values hlookup ht hv
        · rintro hs timeseries' tval' values' hlookup' ht' hv'
          cases hlookup.symm.trans hlookup'
          cases ht.symm.trans ht'
          cases hv.symm.trans hv'
          exact hs
      rw [hstored, ← same_setSeries_iff hreach.timeseries hlookup]
      simp [hrun, Fault.isThrown]

theorem atomic_iff_tidy (h : step p m = some p') : Atomic p m ↔ Tidy p m := by
  by_cases hreach : ∃ q message, Reaches p m q message
  · obtain ⟨q, message, hreach⟩ := hreach
    rw [hreach.atomic_iff]
    by_cases hu : ∃ sub leaves, Undefined q m.1 message sub leaves
    · obtain ⟨sub, leaves, hu⟩ := hu
      rw [hreach.tidy_iff hu]
      exact hu.same_iff hreach h
    · refine iff_of_true (fun fault q' hrun ht => absurd (parseData_thrown hrun ht) hu) ?_
      intro q' message' sub leaves h' hu'
      obtain ⟨rfl, rfl⟩ := hreach.unique h'
      exact absurd ⟨sub, leaves, hu'⟩ hu
  · have hnot : ∀ q message, ¬ Reaches p m q message := fun q message hq => hreach ⟨q, message, hq⟩
    exact iff_of_true (atomic_of_not_reaches hnot) fun q message _ _ hq => absurd hq (hnot q message)

end

-- ---------------------------------------------------------------------------
-- Runs
-- ---------------------------------------------------------------------------

/-- The format of this type nests one that is not defined. -/
def openType : List (Bytes × Nat) :=
  [(fileHeader 0, 0), (frame .B (List.replicate 40 0), 0), (frame .F (ascii "T:Inner x;"), 0)]

def openRecord : Bytes × Nat := (addData 0 0 (ascii "T") (leBytes 8 7 ++ leBytes 8 7), 0)

/-- Every call of a run is atomic if and only if every message is tidy where it
is parsed. -/
theorem failures_atomic_iff (h : Transition.run step .new ms = some p) :
    (∀ past m rest q, ms = past ++ m :: rest → Transition.run step .new past = some q → Atomic q m) ↔
      Transition.Guarded step Tidy .new ms p := by
  rw [Transition.guarded_iff, and_iff_right h]
  refine forall₄_congr fun past m rest q => forall₂_congr fun heq hq => ?_
  rw [heq, Transition.run_append] at h
  obtain ⟨q', hq', h⟩ := h
  cases hq.symm.trans hq'
  obtain ⟨_, hm, -⟩ := Transition.run_cons.mp h
  exact atomic_iff_tidy hm

theorem failures_atomic_iff_openType :
    ∃ p, Transition.run step .new (openType ++ [openRecord]) = some p ∧
      ((∀ past m rest q, openType ++ [openRecord] = past ++ m :: rest →
        Transition.run step .new past = some q → Atomic q m) ↔
          Transition.Guarded step Tidy .new (openType ++ [openRecord]) p) := by
  -- the last call throws, and the run goes on with what it leaves
  have hrun : (Transition.run step .new (openType ++ [openRecord])).map (·.subscriptions.keys) =
      some [0] := by decide +kernel
  obtain ⟨p, hp, -⟩ := Option.map_eq_some_iff.mp hrun
  exact ⟨p, hp, failures_atomic_iff hp⟩

/-- Its subscription stays behind the call that throws. -/
theorem openRecord_subscribes : ¬ ∀ ms p m, Transition.run step .new ms = some p → Atomic p m := by
  intro h
  have hrun : (Transition.run step .new openType).map (fun p => (p.subscriptions.keys,
      match (parse openRecord.1 openRecord.2).run p with
      | .error fault q => some (fault.isThrown, q.subscriptions.keys)
      | .ok _ _ => none)) = some ([], some (true, [0])) := by decide +kernel
  obtain ⟨p, hp, heq⟩ := Option.map_eq_some_iff.mp hrun
  simp only [Prod.mk.injEq] at heq
  obtain ⟨hbefore, hafter⟩ := heq
  have hatomic := h openType p openRecord hp
  unfold Atomic at hatomic
  split at hafter
  · rename_i fault q herr
    rw [herr] at hatomic
    simp only [Option.some.injEq, Prod.mk.injEq] at hafter
    obtain ⟨hthrown, hkeys⟩ := hafter
    have hsame := (hatomic hthrown).subscriptions 0
    have hin : 0 ∈ q.subscriptions := AList.mem_keys.mpr (by simp [hkeys])
    have hout : 0 ∉ p.subscriptions := by simp [AList.mem_keys, hbefore]
    rw [AList.lookup_eq_none.mpr hout] at hsame
    exact AList.lookup_eq_none.mp hsame hin
  · cases hafter

end Mutelemetry.Parse
