import Mutelemetry.Parse.Naming

/-!
# What the parser retains

A D message replaces the timestamp of its series and as many columns as it has
values. An L message is kept behind those before it: the test for `KEEP_DATA` in
`parse_logged` is the wrong way round.
-/

namespace Mutelemetry.Parse

open ByteString Stateful Ulog

-- ---------------------------------------------------------------------------
-- What a D message says
-- ---------------------------------------------------------------------------

structure DataMessage where
  series : Bytes
  timestamp : UInt64
  values : List Float

def readData (p : MutelemetryParser) (buffer : Bytes) (message : Nat) :
    Except Fault (Option DataMessage) := do
  let msgId ← readUInt16 buffer message
  match p.subscriptions.lookup msgId with
  | none => pure none
  | some sub =>
    let timestamp ← readUInt64 buffer (message + 2)
    let format ← p.formatOf sub
    let (leaves, _) ← layout p.formats p.formats.keys.length format [] ↑(message + 10)
    let values ← leaves.mapM (readLeaf buffer)
    pure (some ⟨p.seriesName sub, timestamp, values⟩)

/-- The parser that the D message of `m` comes to: behind an A message its
subscription is there. -/
def atData (p : MutelemetryParser) (m : Bytes × Nat) : MutelemetryParser :=
  match headerType m.1 m.2, headerSize m.1 m.2 with
  | .ok (some .A), .ok size => match readSubscription p.formats m.1 (m.2 + 3) size with
    | .ok sub => p.subscribe sub
    | .error _ => p
  | _, _ => p

def dataOf (p : MutelemetryParser) (m : Bytes × Nat) : List DataMessage :=
  match (dataAt m).map (readData (atData p m) m.1) with
  | some (.ok (some d)) => [d]
  | _ => []

def latest (name : Bytes) (ds : List DataMessage) : Option DataMessage :=
  (ds.filter (·.series = name)).getLast?

theorem latest_concat (name : Bytes) (ds : List DataMessage) (d : DataMessage) :
    latest name (ds ++ [d]) = if d.series = name then some d else latest name ds := by
  unfold latest
  split
  · rename_i h
    simp [h]
  · rename_i h
    simp [h]

-- ---------------------------------------------------------------------------
-- What an accepted message leaves
-- ---------------------------------------------------------------------------

structure Stores (p : MutelemetryParser) (d : DataMessage) (timeseries : Timeseries)
    (q : MutelemetryParser) : Prop where
  room : d.values.length ≤ timeseries.data.length
  series : p.timeseries.lookup d.series = some timeseries ∨
    p.timeseries.lookup d.series = none ∧ timeseries.data.length = d.values.length
  timeseries : q.timeseries = p.timeseries.insert d.series
    ({ timeseries with timestamps := [d.timestamp] }.setColumns 0 d.values)
  logs : q.messageLogs = p.messageLogs

/-- What a message changes of the data that is retained. -/
inductive Retention (p : MutelemetryParser) (m : Bytes × Nat) (q : MutelemetryParser) : Prop
  | quiet : headerType m.1 m.2 ≠ .ok (some .L) → dataOf p m = [] → q.timeseries = p.timeseries →
    q.messageLogs = p.messageLogs → Retention p m q
  | logged : headerType m.1 m.2 = .ok (some .L) → dataOf p m = [] → q.timeseries = p.timeseries →
    q.messageLogs = p.messageLogs ++ [msgLog] → Retention p m q
  | data : headerType m.1 m.2 ≠ .ok (some .L) → dataOf p m = [d] → Stores p d timeseries q →
    Retention p m q

section
variable {p q : MutelemetryParser} {timeseries : Timeseries}

theorem seriesFor_length (hs : p.seriesFor sub = .ok timeseries) (hf : p.formatOf sub = .ok format)
    (hl : layout p.formats p.formats.keys.length format [] start = .ok (leaves, stop)) :
    p.timeseries.lookup (p.seriesName sub) = some timeseries ∨
      p.timeseries.lookup (p.seriesName sub) = none ∧ timeseries.data.length = leaves.length := by
  unfold MutelemetryParser.seriesFor at hs
  split at hs
  · rename_i hlookup
    cases hs
    exact .inl hlookup
  · rename_i hlookup
    rw [hf, ok_bind] at hs
    obtain ⟨created, hcreated, hpaths⟩ | hoverflow := createTimeseries_layout hl
    · cases hcreated.symm.trans hs
      exact .inr ⟨hlookup, by simpa using congrArg List.length hpaths⟩
    · cases hoverflow.symm.trans hs

theorem Data.reads (h : Data p buffer message q) :
    (readData p buffer message = .ok none ∧ q = p) ∨
      ∃ d timeseries, readData p buffer message = .ok (some d) ∧ Stores p d timeseries q := by
  cases h with
  | unsubscribed hid hsub =>
    refine .inl ⟨?_, rfl⟩
    rw [readData, hid, ok_bind, hsub]
    rfl
  | subscribed hid hsub hd =>
    obtain ⟨hs, ht, hf, hwalk, -⟩ := hd
    obtain ⟨leaves, stop, values, hl, hv, hroom, rfl⟩ := run_parseDataIntl_eq_ok.mp hwalk
    refine .inr ⟨⟨p.seriesName _, _, values⟩, _, ?_, ?_, ?_, rfl, rfl⟩
    · simp only [readData, hid, ok_bind, hsub, ht, hf, hl, hv]
      rfl
    · rw [length_mapM hv]
      exact hroom
    · rw [length_mapM hv]
      exact seriesFor_length hs hf hl

theorem dataOf_eq_nil (h : dataAt m = none) (p : MutelemetryParser) : dataOf p m = [] := by
  rw [dataOf, h]
  rfl

theorem dataAt_eq_none (hd : headerType m.1 m.2 ≠ .ok (some .D)) (ha : headerType m.1 m.2 ≠ .ok (some .A)) :
    dataAt m = none := by
  unfold dataAt
  split
  · rename_i h
    exact absurd h hd
  · rename_i h _
    exact absurd h ha
  · rfl

theorem Retention.of_type (ht : headerType m.1 m.2 = .ok type) (hd : type ≠ some .D)
    (ha : type ≠ some .A) (hl : type ≠ some .L) (hts : q.timeseries = p.timeseries)
    (hlogs : q.messageLogs = p.messageLogs) : Retention p m q := by
  have hne (t) (h : type ≠ some t) : headerType m.1 m.2 ≠ .ok (some t) := by
    rw [ht]
    exact fun heq => h (Except.ok.inj heq)
  exact .quiet (hne _ hl) (dataOf_eq_nil (dataAt_eq_none (hne _ hd) (hne _ ha)) p) hts hlogs

theorem Retention.of_data (hl : headerType m.1 m.2 ≠ .ok (some .L)) (hat : dataAt m = some message)
    (hts : (atData p m).timeseries = p.timeseries) (hlogs : (atData p m).messageLogs = p.messageLogs)
    (h : Data (atData p m) m.1 message q) (s : ParseState) : Retention p m { q with state := s } := by
  obtain ⟨hread, rfl⟩ | ⟨d, timeseries, hread, hroom, hseries, hq, hqlogs⟩ := h.reads
  · exact .quiet hl (by simp [dataOf, hat, hread]) hts hlogs
  · rw [hts] at hseries hq
    exact .data hl (by simp [dataOf, hat, hread]) ⟨hroom, hseries, hq, hqlogs.trans hlogs⟩

theorem behind_false (h : behind p buffer hdr = (false, q)) :
    headerType buffer hdr ≠ .ok (some .D) := by
  intro ht
  rw [behind, ht] at h
  cases h

theorem atData_add (ht : headerType m.1 m.2 = .ok (some .A)) (hsize : headerSize m.1 m.2 = .ok size)
    (hr : readSubscription p.formats m.1 (m.2 + 3) size = .ok sub) : atData p m = p.subscribe sub := by
  simp only [atData, ht, hsize, hr]

theorem accept_retention (h : accept p m = some q) : Retention p m q := by
  obtain ⟨buffer, pos⟩ := m
  obtain ⟨state, q, hh, rfl, hb⟩ := parse_ok (accept_eq_some.mp h)
  cases hh with
  | header _ hr =>
    exact .of_type (headerType_header hr) (by decide) (by decide) (by decide) rfl rfl
  | flags _ hr => exact .of_type (headerType_flags hr) (by decide) (by decide) (by decide) rfl rfl
  | info _ ht | multi _ ht | format _ ht | param _ ht | remove _ ht =>
    exact .of_type ht (by decide) (by decide) (by decide) rfl rfl
  | passed _ ht =>
    obtain ht | ht := ht <;> exact .of_type ht (by decide) (by decide) (by decide) rfl rfl
  | reject => simp at hb
  | logged _ ht =>
    refine .logged ht (dataOf_eq_nil (dataAt_eq_none ?_ ?_) p) rfl rfl
    · simp [ht]
    · simp [ht]
  | add _ ht hsize hr hbehind =>
    have hl : headerType buffer pos ≠ .ok (some .L) := by simp [ht]
    have hat : dataAt (buffer, pos) = none := by
      simp only [dataAt, ht, hsize]
      exact if_neg (behind_false hbehind)
    obtain rfl | rfl := behind_eq hbehind
    · exact .quiet hl (dataOf_eq_nil hat p) rfl rfl
    · exact .quiet hl (dataOf_eq_nil hat p) rfl rfl
  | addData _ ht hsize hr hbehind hd =>
    obtain ⟨htype, rfl⟩ := behind_true hbehind
    have hto := atData_add ht hsize hr
    rw [← hto] at hd
    refine .of_data (by simp [ht]) ?_ ?_ ?_ hd _
    · simp only [dataAt, ht, hsize, if_pos htype]
    · rw [hto]
      rfl
    · rw [hto]
      rfl
  | data _ ht hd =>
    have hto : atData p (buffer, pos) = p := by simp only [atData, ht]
    rw [← hto] at hd
    refine .of_data (by simp [ht]) ?_ ?_ ?_ hd _
    · simp only [dataAt, ht]
    · rw [hto]
    · rw [hto]

-- ---------------------------------------------------------------------------
-- Bounded retention
-- ---------------------------------------------------------------------------

/-- One timestamp and one value a column, those of the latest D message of the
series, and no L message. -/
structure Retains (p : MutelemetryParser) (ds : List DataMessage) : Prop where
  series : ∀ name timeseries, p.timeseries.lookup name = some timeseries →
    ∃ d, latest name ds = some d ∧ timeseries.timestamps = [d.timestamp] ∧
      timeseries.data.map Prod.snd = d.values.map ([·])
  logs : p.messageLogs = []

/-- No L message, nor a D message with fewer values than its series has columns. -/
def Bounded (p : MutelemetryParser) (m : Bytes × Nat) : Prop :=
  headerType m.1 m.2 ≠ .ok (some .L) ∧ ∀ d ∈ dataOf p m, ∀ timeseries,
    p.timeseries.lookup d.series = some timeseries → timeseries.data.length ≤ d.values.length

theorem retains_new : Retains .new [] := by
  refine ⟨fun name timeseries h => ?_, rfl⟩
  simp [MutelemetryParser.new] at h

theorem columns_setColumns (h : timeseries.data.length = values.length) :
    (timeseries.setColumns 0 values).data.map Prod.snd = values.map ([·]) := by
  rw [timeseries.data_setColumns_all h, List.map_zipWith]
  calc List.zipWith (fun _ v => [v]) timeseries.data values
      = (timeseries.data.zip values).map (fun e => [e.2]) :=
        (List.map_zip_eq_zipWith (f := fun e : (Bytes × List Float) × Float => [e.2])).symm
    _ = ((timeseries.data.zip values).map Prod.snd).map ([·]) := by rw [List.map_map, Function.comp_def]
    _ = values.map ([·]) := by rw [List.map_snd_zip h.ge]

theorem Retains.stores (h : Retains p ds) (hs : Stores p d timeseries q)
    (hfull : timeseries.data.length ≤ d.values.length) : Retains q (ds ++ [d]) := by
  obtain ⟨hroom, -, hq, hlogs⟩ := hs
  refine ⟨fun name ts hts => ?_, hlogs.trans h.logs⟩
  rw [latest_concat]
  rw [hq] at hts
  by_cases hname : d.series = name
  · subst hname
    rw [AList.lookup_insert] at hts
    cases hts
    refine ⟨d, if_pos rfl, Timeseries.timestamps_setColumns _ _, ?_⟩
    exact columns_setColumns (Nat.le_antisymm hfull hroom)
  · rw [AList.lookup_insert_ne (Ne.symm hname)] at hts
    rw [if_neg hname]
    exact h.series name ts hts

theorem Retains.full (h : Retains q (ds ++ [d])) (hs : Stores p d timeseries q) :
    timeseries.data.length ≤ d.values.length := by
  have hlookup := AList.lookup_insert (a := d.series)
    (b := { timeseries with timestamps := [d.timestamp] }.setColumns 0 d.values) p.timeseries
  rw [← hs.timeseries] at hlookup
  obtain ⟨d', hlatest, -, hcolumns⟩ := h.series _ _ hlookup
  rw [latest_concat, if_pos rfl] at hlatest
  cases hlatest
  simpa using (congrArg List.length hcolumns).le

/-- A step keeps the bound exactly when its message is one of these. -/
theorem Retention.bounded_iff (h : Retention p m q) (hp : Retains p ds) :
    Bounded p m ↔ Retains q (ds ++ dataOf p m) := by
  cases h with
  | quiet hl hd hts hlogs =>
    rw [Bounded, hd, List.append_nil]
    refine iff_of_true ⟨hl, nofun⟩ ⟨?_, hlogs.trans hp.logs⟩
    rw [hts]
    exact hp.series
  | logged hl _ _ hlogs =>
    refine iff_of_false (fun hb => hb.1 hl) fun hq => ?_
    have hempty := hq.logs
    simp [hlogs] at hempty
  | data hl hd hs =>
    rw [Bounded, hd, List.forall_mem_singleton]
    constructor
    · rintro ⟨-, hfull⟩
      refine hp.stores hs ?_
      obtain hold | ⟨-, hnew⟩ := hs.series
      · exact hfull _ hold
      · exact hnew.le
    · intro hq
      refine ⟨hl, fun ts hts => ?_⟩
      obtain hold | ⟨hnew, -⟩ := hs.series
      · cases hold.symm.trans hts
        exact hq.full hs
      · cases hnew.symm.trans hts

/-- Every state of an accepted run keeps the bound if and only if every message
is one of these. -/
theorem retention_bounded_iff (h : Transition.run accept .new ms = some p) :
    (∀ past rest q, ms = past ++ rest → Transition.run accept .new past = some q →
      Retains q (Transition.trace accept dataOf .new past)) ↔
        Transition.Guarded accept Bounded .new ms p := by
  refine Transition.guarded_iff_history
    (fun past q => Retains q (Transition.trace accept dataOf .new past)) retains_new ?_ h
  intro past q m q' hrun hq hm
  rw [Transition.trace_concat hrun]
  exact (accept_retention hm).bounded_iff hq

end

def isLogged (m : Bytes × Nat) : Bool := headerType m.1 m.2 = .ok (some .L)

/-- Whatever the bound is, the L messages are all there. -/
theorem length_messageLogs (h : Transition.run accept .new ms = some p) :
    p.messageLogs.length = ms.countP isLogged := by
  have hinit : MutelemetryParser.new.messageLogs.length = [].countP isLogged := rfl
  refine Transition.run_history
    (fun past (q : MutelemetryParser) => q.messageLogs.length = past.countP isLogged) ?_ h hinit
  intro past q m q' hq hm
  rw [List.countP_append, List.countP_singleton, ← hq]
  cases accept_retention hm with
  | quiet hl _ _ hlogs => simp [isLogged, hl, hlogs]
  | logged hl _ _ hlogs => simp [isLogged, hl, hlogs]
  | data hl _ hs => simp [isLogged, hl, hs.logs]

def oneLog : Bytes × Nat := (frame .L ([54] ++ leBytes 8 9 ++ ascii "a"), 0)

theorem retention_bounded_iff_oneType :
    ∃ p, Transition.run accept .new (oneType ++ [oneRecord, oneData]) = some p ∧
      ((∀ past rest q, oneType ++ [oneRecord, oneData] = past ++ rest →
        Transition.run accept .new past = some q →
        Retains q (Transition.trace accept dataOf .new past)) ↔
          Transition.Guarded accept Bounded .new (oneType ++ [oneRecord, oneData]) p) := by
  have hrun : (Transition.run accept .new (oneType ++ [oneRecord, oneData])).isSome = true := by
    decide +kernel
  obtain ⟨p, hp⟩ := Option.isSome_iff_exists.mp hrun
  exact ⟨p, hp, retention_bounded_iff hp⟩

/-- The message is still there behind the call that handled it. -/
theorem oneLog_kept : ¬ ∀ ms p, Transition.run accept .new ms = some p →
    Retains p (Transition.trace accept dataOf .new ms) := by
  intro h
  have hrun : (Transition.run accept .new (oneType ++ [oneRecord, oneLog])).map
      (·.messageLogs.length) = some 1 := by decide +kernel
  obtain ⟨p, hp, hlogs⟩ := Option.map_eq_some_iff.mp hrun
  simp [(h _ p hp).logs] at hlogs

end Mutelemetry.Parse
