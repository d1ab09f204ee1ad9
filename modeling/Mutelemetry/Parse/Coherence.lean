import Mutelemetry.Parse.Grammar

/-!
# Records of several types

A record carries its A message with it, so it needs nothing of the records
before it, as long as what they have left for its identifier and its series
belongs to its own type.
-/

namespace Mutelemetry.Parse

open ByteString Stateful Ulog

structure Tag where
  msgId : UInt16
  multiId : UInt8
  name : Bytes

def Tag.seriesNames (a : Tag) : List Bytes :=
  [a.name, a.name ++ ascii "." ++ decimal02 a.multiId.toNat]

def Tag.subscription (a : Tag) (formats : Formats) : Subscription :=
  subscriptionOf formats a.msgId a.multiId a.name

/-- An identifier, or a series, is that of one type. -/
structure Coherent (tags : Tag → Prop) : Prop where
  msgId : ∀ {a b}, tags a → tags b → a.msgId = b.msgId → a.name = b.name
  series : ∀ {a b n}, tags a → tags b → n ∈ a.seriesNames → n ∈ b.seriesNames → a.name = b.name

def Tagged (tags : Tag → Prop) (formats : Formats) (sub : Subscription) : Prop :=
  ∃ a, tags a ∧ sub = a.subscription formats

def SeriesOf (tags : Tag → Prop) (p : MutelemetryParser) : Prop :=
  ∀ n timeseries, p.timeseries.lookup n = some timeseries →
    ∃ a, tags a ∧ n ∈ a.seriesNames ∧ Columned p.formats a.name timeseries

/-- What a parser has kept is of these tags. -/
structure Serves (tags : Tag → Prop) (p : MutelemetryParser) : Prop where
  subs : Keeps (Tagged tags) p
  fresh : p.state = .header ∨ p.state = .flags ∨ p.state = .definition → p.timeseries = ∅
  series : SeriesOf tags p

section
variable {tags : Tag → Prop} {p q : MutelemetryParser} {a : Tag}

theorem serves_new : Serves tags .new := by
  refine ⟨keeps_new, fun _ => rfl, fun n timeseries h => ?_⟩
  simp [MutelemetryParser.new] at h

theorem seriesName_tag (p : MutelemetryParser) (a : Tag) (formats : Formats) :
    p.seriesName (a.subscription formats) ∈ a.seriesNames := by
  unfold MutelemetryParser.seriesName
  split
  · exact List.mem_cons_of_mem _ (List.mem_singleton.mpr rfl)
  · exact List.mem_cons_self

theorem formatOf_tag (p : MutelemetryParser) (a : Tag) :
    p.formatOf (a.subscription p.formats) = .ok format ↔ p.formats.lookup a.name = some format := by
  unfold MutelemetryParser.formatOf Tag.subscription subscriptionOf
  by_cases hmem : a.name ∈ p.formats
  · obtain ⟨format', hf⟩ := Option.isSome_iff_exists.mp (AList.lookup_isSome.mpr hmem)
    simp [hmem, hf]
  · simp [hmem, AList.lookup_eq_none.mpr hmem]

theorem SeriesOf.seriesFor (h : SeriesOf tags p) (hc : Coherent tags) (ha : tags a)
    (hs : p.seriesFor (a.subscription p.formats) = .ok timeseries) :
    Columned p.formats a.name timeseries := by
  unfold MutelemetryParser.seriesFor at hs
  split at hs
  · rename_i hl
    cases hs
    obtain ⟨b, hb, hn, hcols⟩ := h _ _ hl
    rw [hc.series ha hb (seriesName_tag p a p.formats) hn]
    exact hcols
  · obtain ⟨format, hf, hs⟩ := bind_eq_ok.mp hs
    obtain ⟨paths, hp, heq⟩ := bind_eq_ok.mp hs
    cases heq
    refine ⟨format, (formatOf_tag p a).mp hf, ?_⟩
    simpa [Function.comp_def] using hp

theorem SeriesOf.data (h : SeriesOf tags p) (hc : Coherent tags)
    (hsubs : ∀ msgId sub, p.subscriptions.lookup msgId = some sub → Tagged tags p.formats sub)
    (hd : Data p buffer message q) : SeriesOf tags q := by
  cases hd with
  | unsubscribed => exact h
  | subscribed _ hsub hd =>
    obtain ⟨a, ha, rfl⟩ := hsubs _ _ hsub
    obtain ⟨hs, -, -, hwalk, -⟩ := hd
    obtain ⟨leaves, stop, values, -, -, -, rfl⟩ := run_parseDataIntl_eq_ok.mp hwalk
    intro n ts hlookup
    simp only [MutelemetryParser.handleData, MutelemetryParser.setSeries] at hlookup
    by_cases heq : n = p.seriesName (a.subscription p.formats)
    · subst heq
      rw [AList.lookup_insert] at hlookup
      cases hlookup
      obtain ⟨format, hf, hcols⟩ := h.seriesFor hc ha hs
      refine ⟨a, ha, seriesName_tag p a p.formats, format, hf, ?_⟩
      rw [Timeseries.paths_setColumns]
      exact hcols
    · rw [AList.lookup_insert_ne heq] at hlookup
      exact h n ts hlookup

theorem Serves.handles (h : Serves tags p) (hc : Coherent tags)
    (hg : Adds (Tagged tags) p (buffer, pos)) (hh : Handles buffer pos p s q) :
    Serves tags { q with state := s } := by
  refine ⟨h.subs.handles hg hh, ?_, ?_⟩
  · cases hh with
    | header hs => exact fun _ => h.fresh (.inl hs)
    | flags hs => exact fun _ => h.fresh (.inr (.inl hs))
    | info | multi | param | format => exact h.fresh
    | add | addData | data | logged | passed | remove | reject => simp
  · cases hh with
    | header | flags | info | multi | param | logged | passed | remove | reject => exact h.series
    | format hs =>
      intro n timeseries hl
      simp [h.fresh (.inr (.inr hs))] at hl
    | add hb ht hsize hr hbehind =>
      obtain rfl | rfl := behind_eq hbehind
      · exact h.series
      · exact h.series
    | addData hb ht hsize hr hbehind hd =>
      have hsubs := h.subs.behind (hg _ _ ht hsize hr) hbehind
      obtain ⟨-, rfl⟩ := behind_true hbehind
      have hnew : SeriesOf tags q :=
        SeriesOf.data (p := p.subscribe _) h.series hc (fun msgId sub hl => (hsubs msgId sub hl).2) hd
      exact hnew
    | data hs ht hd =>
      have hnew : SeriesOf tags q :=
        h.series.data hc (fun msgId sub hl => (h.subs.subs msgId sub hl).2) hd
      exact hnew

theorem Serves.accept (h : Serves tags p) (hc : Coherent tags) (hg : Adds (Tagged tags) p m)
    (hs : accept p m = some q) : Serves tags q := by
  obtain ⟨state, q, hh, rfl, -⟩ := parse_ok (accept_eq_some.mp hs)
  exact h.handles hc hg hh

theorem Tagged.lookup (hc : Coherent tags)
    (hsubs : ∀ msgId sub, p.subscriptions.lookup msgId = some sub →
      sub.msgId = msgId ∧ Tagged tags p.formats sub)
    (ha : tags a) (hl : p.subscriptions.lookup a.msgId = some sub) :
    ∃ b, tags b ∧ sub = b.subscription p.formats ∧ b.name = a.name := by
  obtain ⟨hid, b, hb, rfl⟩ := hsubs _ _ hl
  exact ⟨b, hb, rfl, hc.msgId hb ha hid⟩

theorem SeriesOf.created (h : SeriesOf tags p) (hc : Coherent tags) (ha : tags a)
    (hf : p.formats.lookup a.name = some format) : ∀ timeseries,
      p.timeseries.lookup (p.seriesName (a.subscription p.formats)) = some timeseries →
      ∃ created, createTimeseries p.formats format = .ok created ∧
        timeseries.data.map Prod.fst = created.data.map Prod.fst := by
  intro timeseries hts
  obtain ⟨b, hb, hn, format', hf', hcols⟩ := h _ _ hts
  rw [← hc.series ha hb (seriesName_tag p a p.formats) hn] at hf'
  cases hf.symm.trans hf'
  obtain ⟨created, hcreated, hpaths⟩ := createTimeseries_of_names hcols
  exact ⟨created, hcreated, hpaths.symm⟩

theorem SeriesOf.dataBody (h : SeriesOf tags p) (hc : Coherent tags)
    (hsubs : ∀ msgId sub, p.subscriptions.lookup msgId = some sub →
      sub.msgId = msgId ∧ Tagged tags p.formats sub)
    (ha : tags a) (hl : p.subscriptions.lookup a.msgId = some sub)
    (hf : p.formats.lookup a.name = some format) (hr : Resolved p.formats a.name)
    (ht : Conforms p.formats format.slots t) : DataBody p (dataPayload a.msgId tval t) := by
  obtain ⟨b, hb, rfl, hname⟩ := Tagged.lookup hc hsubs ha hl
  have hformat : (b.subscription p.formats).format = some a.name := by
    have hmem : a.name ∈ p.formats := AList.lookup_isSome.mp (by rw [hf]; rfl)
    simp [Tag.subscription, subscriptionOf, hname, hmem]
  exact .subscribed hl hformat hf hr ht (h.created hc hb (hname ▸ hf))

end

-- ---------------------------------------------------------------------------
-- `check_ulog_valid`
-- ---------------------------------------------------------------------------

def valid (p : MutelemetryParser) (m : Bytes) : Option MutelemetryParser :=
  match (checkUlogValid m).run p with
  | .ok true q => some q
  | _ => none

theorem valid_eq_some : valid p m = some q ↔ (checkUlogValid m).run p = .ok true q := by
  unfold valid
  split
  · rename_i h
    simp [h]
  · rename_i h
    simp only [reduceCtorEq, false_iff]
    exact h q

section
variable {tags : Tag → Prop} {p q : MutelemetryParser} {a : Tag}

theorem accept_at : accept p (buffer, pos) = some q ↔ (parse buffer pos).run p = .ok true q :=
  accept_eq_some

theorem valid_once (hm : checkUlogDataBegin m = false) :
    valid p m = some q ↔ accept p (m, 0) = some q := by
  rw [valid_eq_some, accept_at]
  cases hrun : (parse m 0).run p with
  | ok b q => rw [run_checkUlogValid_once hrun (.inr hm)]
  | error fault q => rw [run_checkUlogValid_error hrun]

theorem checkUlogDataBegin_of_headerType (h : headerType m 0 = .ok (some .A)) :
    checkUlogDataBegin m = true := by
  simp only [headerType, readUInt8, map_eq_ok] at h
  obtain ⟨c, ⟨bs, hbs, rfl⟩, hcode⟩ := h
  obtain ⟨hle, rfl, -⟩ := window_eq_some (fetch_eq_ok.mp hbs)
  have hlt : 2 < m.length := by omega
  have hbyte : (m.drop (0 + 2)).take 1 = [m[2]] := by
    rw [Nat.zero_add, List.drop_eq_getElem_cons hlt, List.take_succ_cons, List.take_zero]
  have hc := ULogMessageType.code_of_ofCode hcode
  rw [hbyte] at hc
  rw [checkUlogDataBegin, List.getElem?_eq_getElem hlt]
  simpa [leNat] using hc.symm

def ParseState.past : ParseState → ParseState
  | .header => .flags
  | .flags => .definition
  | s => s

theorem accept_past (h : accept p m = some q) (ht : headerType m.1 m.2 ≠ .ok (some .A)) :
    q.state = p.state.past := by
  obtain ⟨buffer, pos⟩ := m
  obtain ⟨state, r, hh, rfl, hb⟩ := parse_ok (accept_eq_some.mp h)
  cases hh with
  | header hs | flags hs | format hs | data hs | logged hs | passed hs | remove hs =>
    simp [hs, ParseState.past]
  | info hbody | multi hbody | param hbody =>
    obtain hs | hs := hbody
    · simp [hs, ParseState.past]
    · simp [hs, ParseState.past]
  | add _ hA | addData _ hA => exact absurd hA ht
  | reject => simp at hb

theorem accept_formats (h : accept p m = some q) (hs : p.state = .definitionOrData) :
    q.formats = p.formats := by
  obtain ⟨buffer, pos⟩ := m
  obtain ⟨state, r, hh, rfl, -⟩ := parse_ok (accept_eq_some.mp h)
  cases hh with
  | header | flags | info | multi | param | logged | passed | remove | reject => rfl
  | format hs' => cases hs.symm.trans hs'
  | add _ _ _ _ hbehind =>
    obtain rfl | rfl := behind_eq hbehind
    · rfl
    · rfl
  | addData _ _ _ _ hbehind hd =>
    obtain ⟨-, rfl⟩ := behind_true hbehind
    exact hd.keeps.1
  | data _ _ hd => exact hd.keeps.1

/-- A record changes no format, and subscribes as its A message asks. -/
theorem accept_record (hb : p.InBody) (hname : 3 + name.length < 2 ^ 16)
    (h : accept p (addData msgId multiId name payload, 0) = some q) :
    q.state = .definitionOrData ∧ q.formats = p.formats ∧
      q.subscriptions = (p.subscribe (subscriptionOf p.formats msgId multiId name)).subscriptions := by
  rw [accept_at, run_parse_add hb hname] at h
  obtain ⟨r, hr, hd⟩ | ⟨fault, r, hr, -⟩ := parseData_cases (addData msgId multiId name payload)
    (dataPos name + 3) (p.subscribe (subscriptionOf p.formats msgId multiId name))
  · rw [hr] at h
    cases h
    obtain ⟨hf, hsubs⟩ := hd.keeps
    exact ⟨rfl, hf, hsubs⟩
  · rw [hr] at h
    cases h

/-- A record of a tag that begins with a value of its type is accepted, both times. -/
theorem valid_record (h : Serves tags p) (hc : Coherent tags) (hb : p.InBody) (ha : tags a)
    (hname : 3 + a.name.length < 2 ^ 16) (hf : p.formats.lookup a.name = some format)
    (hr : Resolved p.formats a.name) (ht : Conforms p.formats format.slots t)
    (hsize : (dataPayload a.msgId tval t).length < 2 ^ 16)
    (hpayload : payload = leBytes 8 tval.toNat ++ (t.encode ++ rest)) :
    ∃ q, valid p (addData a.msgId a.multiId a.name payload) = some q ∧
      Serves tags q ∧ q.state = .definitionOrData ∧ q.formats = p.formats := by
  have hadds (p : MutelemetryParser) :
      Adds (Tagged tags) p (addData a.msgId a.multiId a.name payload, 0) :=
    adds_add hname ⟨a, ha, rfl⟩
  have hlookup := lookup_subscribe p (a.subscription p.formats)
  have hrecord : addData a.msgId a.multiId a.name payload =
      frame .A (addBody a.msgId a.multiId a.name) ++ frame .D (dataPayload a.msgId tval t ++ rest) := by
    simp [addData, dataPayload, hpayload]
  -- from the A message on
  have hbody : DataBody (p.subscribe (a.subscription p.formats)) (dataPayload a.msgId tval t) :=
    SeriesOf.dataBody (p := p.subscribe (a.subscription p.formats)) h.series hc
      (fun _ _ => h.subs.subscribe fun _ => ⟨a, ha, rfl⟩) ha hlookup hf hr ht
  obtain ⟨r, hrun, -⟩ := takes_addData hb hname hsize hbody rest
  rw [← hrecord] at hrun
  have haccept : accept p (addData a.msgId a.multiId a.name payload, 0) = some r :=
    accept_at.mpr hrun
  obtain ⟨hstate, hformats, hsubs⟩ := accept_record hb hname haccept
  have hserves : Serves tags r := h.accept hc (hadds p) haccept
  -- its D message once more
  have hlookup' : r.subscriptions.lookup a.msgId = some _ :=
    (congrArg (AList.lookup a.msgId) hsubs).trans hlookup
  have hbody' : DataBody r (dataPayload a.msgId tval t) := by
    rw [← hformats] at hf hr ht
    exact hserves.series.dataBody hc hserves.subs.subs ha hlookup' hf hr ht
  obtain ⟨q, hq⟩ := hbody'.run_add hsize a.msgId a.multiId a.name rest
  rw [← hrecord] at hq
  have hagain : (parse (addData a.msgId a.multiId a.name payload) (dataPos a.name)).run r = _ :=
    run_parse_data hstate
  rw [hq] at hagain
  refine ⟨{ q with state := .definitionOrData }, ?_, ?_, rfl, ?_⟩
  · have hpos : 3 + (UInt16.ofNat (3 + a.name.length)).toNat = dataPos a.name := by
      rw [UInt16.toNat_ofNat_of_lt' hname, dataPos]
    rw [valid_eq_some, run_checkUlogValid_begin (accept_at.mp haccept) (checkUlogDataBegin_add _ _ _ _)
      (headerSize_add _ _ _ _), hpos, hagain]
    rfl
  · refine hserves.accept hc (adds_of_type ?_ r) (accept_at.mpr hagain)
    rw [headerType_data]
    simp
  · rw [← hformats]
    exact accept_formats (accept_at.mpr hagain) hstate

theorem Serves.valid (h : Serves tags p) (hc : Coherent tags) (hm : checkUlogDataBegin m = false)
    (hv : valid p m = some q) : Serves tags q ∧ q.state = p.state.past := by
  have haccept := (valid_once hm).mp hv
  have ht : headerType m 0 ≠ .ok (some .A) := fun ht => by
    rw [checkUlogDataBegin_of_headerType ht] at hm
    cases hm
  exact ⟨h.accept hc (adds_of_type ht p) haccept, accept_past haccept ht⟩

theorem serves_of_takes (h : Serves tags p) (hc : Coherent tags) (ht : Takes p m s)
    (hm : checkUlogDataBegin m = false) : ∃ q, valid p m = some q ∧ Serves tags q ∧ q.state = s := by
  obtain ⟨q, hrun, hq⟩ := ht
  have hv := (valid_once hm).mpr (accept_at.mpr hrun)
  exact ⟨q, hv, (h.valid hc hm hv).1, hq⟩

theorem valid_logged (h : Serves tags p) (hc : Coherent tags) (hs : p.state = .definitionOrData)
    {text : Bytes} (hsize : 1 + (8 + text.length) < 2 ^ 16) :
    ∃ q, valid p (frame .L ([level] ++ (leBytes 8 timestamp ++ text))) = some q ∧
      Serves tags q ∧ q.state = .definitionOrData ∧ q.formats = p.formats := by
  have htakes : Takes p (frame .L ([level] ++ (leBytes 8 timestamp ++ text))) .definitionOrData := by
    have hobeys : Obeys p (frame .L ([level] ++ (leBytes 8 timestamp ++ text))) (.message .L) :=
      obeys_data (.logged hsize) hs
    unfold Obeys at hobeys
    rw [hs] at hobeys
    exact hobeys
  obtain ⟨q, hv, hq, hstate⟩ := serves_of_takes h hc htakes rfl
  have haccept := (valid_once (q := q) rfl).mp hv
  exact ⟨q, hv, hq, hstate, accept_formats haccept hs⟩

theorem not_valid_logged (hs : p.state = .definition) {text : Bytes}
    (hsize : 1 + (8 + text.length) < 2 ^ 16) :
    valid p (frame .L ([level] ++ (leBytes 8 timestamp ++ text))) = none := by
  have hrejects : Rejects p (frame .L ([level] ++ (leBytes 8 timestamp ++ text))) := by
    have hobeys : Obeys p (frame .L ([level] ++ (leBytes 8 timestamp ++ text))) (.message .L) :=
      obeys_definition (.logged hsize) hs
    unfold Obeys at hobeys
    rw [hs] at hobeys
    exact hobeys
  refine Option.eq_none_iff_forall_ne_some.mpr fun q hq => ?_
  have hrun := accept_at.mp ((valid_once rfl).mp hq)
  obtain ⟨q', hno, -⟩ | ⟨fault, q', -, hno⟩ := hrejects
  · cases hrun.symm.trans hno
  · cases hrun.symm.trans hno

-- ---------------------------------------------------------------------------
-- The definitions
-- ---------------------------------------------------------------------------

theorem serves_defined (hc : Coherent tags) (hm : ∀ m ∈ header :: flags :: ms, checkUlogDataBegin m = false)
    (h : Transition.run valid .new (header :: flags :: ms) = some p) :
    Serves tags p ∧ p.state = .definition := by
  obtain ⟨p₁, h₁, h⟩ := Transition.run_cons.mp h
  obtain ⟨p₂, h₂, h⟩ := Transition.run_cons.mp h
  simp only [List.forall_mem_cons] at hm
  obtain ⟨hserves₁, hs₁⟩ := Serves.valid serves_new hc hm.1 h₁
  obtain ⟨hserves₂, hs₂⟩ := hserves₁.valid hc hm.2.1 h₂
  rw [hs₁] at hs₂
  refine (Transition.Guarded.of_run h fun m hmem _ => hm.2.2 m hmem).invariant
    (fun q => Serves tags q ∧ q.state = .definition) ?_ ⟨hserves₂, hs₂⟩
  intro q m q' hq hbegin hv
  obtain ⟨hserves, hs⟩ := hq.1.valid hc hbegin hv
  rw [hq.2] at hs
  exact ⟨hserves, hs⟩

end

end Mutelemetry.Parse
