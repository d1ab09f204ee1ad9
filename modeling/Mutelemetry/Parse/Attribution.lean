import Mutelemetry.Parse.Coherence

/-!
# The subscription of a record

For each identifier a parser keeps the subscription of the first A message that
has it, whatever instances the later ones announce.
-/

namespace Mutelemetry.Parse

open ByteString Stateful Ulog

def Tag.record (a : Tag) (payload : Bytes) : Bytes := addData a.msgId a.multiId a.name payload

def firstOf (tags : List Tag) (msgId : UInt16) : Option Tag := tags.find? fun b => b.msgId = msgId

/-- The series of a tag's subscription, once these tags have been announced. -/
def Tag.seriesAfter (b : Tag) (tags : List Tag) : Bytes :=
  if ∃ c ∈ tags, c.name = b.name ∧ 0 < c.multiId then
    b.name ++ ascii "." ++ decimal02 b.multiId.toNat
  else b.name

/-- A parser in the body of a stream that has heard these A messages. -/
structure Heard (formats : Formats) (tags : List Tag) (p : MutelemetryParser) : Prop where
  body : p.InBody
  defined : p.formats = formats
  subscriptions : ∀ msgId,
    p.subscriptions.lookup msgId = (firstOf tags msgId).map (·.subscription formats)
  withMultiId : ∀ name, name ∈ p.withMultiId ↔ ∃ c ∈ tags, c.name = name ∧ 0 < c.multiId

section
variable {formats : Formats} {tags past : List Tag} {p q : MutelemetryParser} {a b : Tag}

theorem firstOf_concat (tags : List Tag) (a : Tag) (msgId : UInt16) :
    firstOf (tags ++ [a]) msgId =
      (firstOf tags msgId).or (if a.msgId = msgId then some a else none) := by
  rw [firstOf, List.find?_append, ← firstOf]
  by_cases h : a.msgId = msgId
  · simp [h]
  · simp [h]

theorem Heard.congr (h : Heard formats tags p) (hs : q.InBody) (hf : q.formats = p.formats)
    (hsubs : q.subscriptions = p.subscriptions) (hm : q.withMultiId = p.withMultiId) :
    Heard formats tags q := by
  refine ⟨hs, hf.trans h.defined, fun msgId => ?_, fun name => ?_⟩
  · rw [hsubs, h.subscriptions]
  · rw [hm, h.withMultiId]

theorem Heard.subscribe (h : Heard formats tags p) (a : Tag) :
    Heard formats (tags ++ [a]) (p.subscribe (a.subscription formats)) := by
  refine ⟨h.body, h.defined, fun msgId => ?_, fun name => ?_⟩
  · have hold := h.subscriptions msgId
    rw [firstOf_concat]
    by_cases heq : a.msgId = msgId
    · subst heq
      have hnew := lookup_subscribe p (a.subscription formats)
      rw [show (a.subscription formats).msgId = a.msgId from rfl, hold] at hnew
      rw [hnew]
      cases firstOf tags a.msgId with
      | none => simp
      | some b => simp
    · rw [if_neg heq, Option.or_none, ← hold]
      simp only [MutelemetryParser.subscribe]
      split
      · rfl
      · exact AList.lookup_insert_ne (Ne.symm heq)
  · rw [mem_subscribe, h.withMultiId]
    simp only [Tag.subscription, subscriptionOf, List.mem_append, List.mem_singleton]
    constructor
    · rintro (⟨c, hc, hn⟩ | ⟨rfl, hpos⟩)
      · exact ⟨c, .inl hc, hn⟩
      · exact ⟨a, .inr rfl, rfl, hpos⟩
    · rintro ⟨c, hc | rfl, hn, hpos⟩
      · exact .inl ⟨c, hc, hn, hpos⟩
      · exact .inr ⟨hn.symm, hpos⟩

theorem Heard.seriesName (h : Heard formats tags p) (b : Tag) :
    p.seriesName (b.subscription formats) = b.seriesAfter tags := by
  unfold MutelemetryParser.seriesName Tag.seriesAfter
  by_cases hm : b.name ∈ p.withMultiId
  · rw [if_pos ((h.withMultiId _).mp hm)]
    exact if_pos hm
  · rw [if_neg fun hc => hm ((h.withMultiId _).mpr hc)]
    exact if_neg hm

theorem Heard.data (h : Heard formats tags p) (hd : Data p buffer message q)
    (hid : readUInt16 buffer message = .ok msgId) :
    Heard formats tags { q with state := .definitionOrData } ∧
      ∃ ds, q.dataCalls = p.dataCalls ++ ds ∧
        ∀ data ∈ ds, ∃ b, firstOf tags msgId = some b ∧ data.name = b.seriesAfter tags := by
  obtain ⟨hf, hsubs⟩ := hd.keeps
  have hq : Heard formats tags { q with state := .definitionOrData } :=
    h.congr (.inr rfl) hf hsubs hd.withMultiId
  refine ⟨hq, ?_⟩
  obtain ⟨ds, hcalls, hlen⟩ := hd.dataCalls
  refine ⟨ds, hcalls, fun data hmem => ?_⟩
  have hone : ds = [data] := by
    match ds, hlen with
    | [d], _ => rw [List.mem_singleton.mp hmem]
  obtain ⟨sub, hl, hname⟩ := hd.name hid (hone ▸ hcalls)
  have hfirst := hq.subscriptions msgId
  rw [show ({ q with state := .definitionOrData } : MutelemetryParser).subscriptions.lookup msgId =
    some sub from hl] at hfirst
  obtain ⟨b, hb, rfl⟩ := Option.map_eq_some_iff.mp hfirst.symm
  exact ⟨b, hb, hname.trans (hq.seriesName b)⟩

theorem Heard.dataStops (h : Heard formats tags p) (hd : DataStops p buffer message fault q) :
    Heard formats tags q ∧ q.dataCalls = p.dataCalls := by
  cases hd with
  | msgId => exact ⟨h, rfl⟩
  | subscribed => exact ⟨h.congr h.body rfl rfl rfl, rfl⟩

/-- A record is heard, whatever becomes of its D message. -/
theorem Heard.feed (h : Heard formats tags p) (hname : 3 + a.name.length < 2 ^ 16)
    (payload : Bytes) : ∃ q ds, (((Session.live p).feed (a.record payload)).2 = .live q ∨
        ((Session.live p).feed (a.record payload)).2 = .stopped q) ∧
      Heard formats (tags ++ [a]) q ∧ q.dataCalls = p.dataCalls ++ ds ∧
      ∀ data ∈ ds, ∃ b, firstOf (tags ++ [a]) a.msgId = some b ∧
        data.name = b.seriesAfter (tags ++ [a]) := by
  have hrun : (parse (a.record payload) 0).run p = _ := run_parse_add h.body hname
  have hsub := h.subscribe a
  rw [← h.defined] at hsub
  obtain ⟨r, hr, hd⟩ | ⟨fault, r, hr, hd⟩ := parseData_cases
    (addData a.msgId a.multiId a.name payload) (dataPos a.name + 3)
    (p.subscribe (subscriptionOf p.formats a.msgId a.multiId a.name))
  · rw [hr] at hrun
    obtain ⟨hq, ds, hcalls, hnames⟩ := hsub.data hd (msgId_data _ _ _ _)
    rw [h.defined] at hq
    refine ⟨_, ds, .inl ?_, hq, hcalls, hnames⟩
    rw [Session.feed, hrun]
    rfl
  · rw [hr] at hrun
    obtain ⟨hq, hcalls⟩ := hsub.dataStops hd
    rw [h.defined] at hq
    refine ⟨r, [], ?_, hq, hcalls.trans (List.append_nil _).symm, by simp⟩
    rw [Session.feed, hrun]
    cases hthrown : fault.isThrown with
    | true => exact .inl (by simp [settle, hthrown])
    | false => exact .inr (by simp [settle, hthrown])

theorem heard_defined (hm : ∀ m ∈ header :: flags :: ms, checkUlogDataBegin m = false)
    (h : Transition.run valid .new (header :: flags :: ms) = some p) : Heard p.formats [] p := by
  have hnone : Coherent fun _ => False := ⟨fun ha => ha.elim, fun ha => ha.elim⟩
  obtain ⟨hserves, hs⟩ := serves_defined hnone hm h
  have hempty := hserves.subs.fresh (.inr (.inr hs))
  have hmulti : p.withMultiId = ∅ := by
    refine (Transition.Guarded.of_run h fun m hmem _ => hm m hmem).invariant
      (fun q => q.withMultiId = ∅) ?_ rfl
    intro q m q' hq hbegin hv
    ext name
    rw [accept_withMultiId ((valid_once hbegin).mp hv), hq]
    refine ⟨?_, fun hmem => absurd hmem (Finset.notMem_empty _)⟩
    rintro (hmem | ⟨_, _, ⟨_, _, _, ht, -⟩, -⟩)
    · exact hmem
    · rw [checkUlogDataBegin_of_headerType ht] at hbegin
      cases hbegin
  exact ⟨.inl hs, rfl, fun msgId => by simp [hempty, firstOf], fun name => by simp [hmulti]⟩

end

-- ---------------------------------------------------------------------------
-- Sequences of records
-- ---------------------------------------------------------------------------

/-- What is delivered of the buffer at a place of a sequence. -/
def Session.calls (s : Session) (ms : List Bytes) (k : Nat) : List MessageData :=
  (s.after (ms.take (k + 1))).parser.dataCalls.drop (s.after (ms.take k)).parser.dataCalls.length

section
variable {formats : Formats} {past : List Tag} {p : MutelemetryParser} {a : Tag}

theorem Session.after_concat (s : Session) (ms : List Bytes) (m : Bytes) :
    s.after (ms ++ [m]) = ((s.after ms).feed m).2 := by
  rw [Session.after, List.foldl_append]
  rfl

theorem Session.after_stopped (p : MutelemetryParser) (ms : List Bytes) :
    (Session.stopped p).after ms = .stopped p :=
  Session.Closed.after (fun _ => rfl) ms

def records (rs : List (Tag × Bytes)) : List Bytes := rs.map fun r => r.1.record r.2

theorem heard_after (h : Heard formats past p) (hshort : ∀ r ∈ rs, 3 + r.1.name.length < 2 ^ 16) :
    (∃ q, (Session.live p).after (records rs) = .live q ∧ Heard formats (past ++ rs.map Prod.fst) q) ∨
      ∃ q, (Session.live p).after (records rs) = .stopped q := by
  induction rs generalizing past p with
  | nil => exact .inl ⟨p, rfl, by simpa using h⟩
  | cons r rs ih =>
    rw [List.forall_mem_cons] at hshort
    obtain ⟨q, ds, hq, hheard, -⟩ := h.feed hshort.1 r.2
    have hafter : (Session.live p).after (records (r :: rs)) =
        (((Session.live p).feed (r.1.record r.2)).2).after (records rs) := rfl
    obtain hq | hq := hq
    · rw [hafter, hq, List.map_cons, List.append_cons]
      exact ih hheard hshort.2
    · rw [hafter, hq]
      exact .inr ⟨q, Session.after_stopped q _⟩

/-- What a record delivers goes by the subscription of the first record that has
its identifier. -/
theorem calls_heard (h : Heard formats [] p) (hshort : ∀ r ∈ rs, 3 + r.1.name.length < 2 ^ 16)
    (hk : rs[k]? = some (a, payload)) (hd : data ∈ (Session.live p).calls (records rs) k) :
    ∃ b, firstOf ((rs.map Prod.fst).take (k + 1)) a.msgId = some b ∧
      data.name = b.seriesAfter ((rs.map Prod.fst).take (k + 1)) ∧
      ((Session.live p).after ((records rs).take (k + 1))).parser.subscriptions.lookup a.msgId =
        some (b.subscription formats) := by
  have htake : rs.take (k + 1) = rs.take k ++ [(a, payload)] := by
    rw [List.take_add_one, hk, Option.toList_some]
  have hpast : (records rs).take k = records (rs.take k) := List.map_take.symm
  have hnow : (records rs).take (k + 1) = records (rs.take k) ++ [a.record payload] := by
    rw [← hpast, records, ← List.map_take, htake, List.map_append, ← List.map_take]
    rfl
  have hmem : (a, payload) ∈ rs := List.mem_of_getElem? hk
  rw [Session.calls, hnow, hpast, Session.after_concat] at hd
  rw [hnow, Session.after_concat, ← List.map_take, htake, List.map_append]
  obtain ⟨q, hq, hheard⟩ | ⟨q, hq⟩ := heard_after h fun r hr => hshort r (List.mem_of_mem_take hr)
  · rw [hq] at hd ⊢
    obtain ⟨q', ds, hfeed, hheard', hcalls, hnames⟩ := hheard.feed (hshort _ hmem) payload
    have hparser : ((Session.live q).feed (a.record payload)).2.parser = q' := by
      obtain hfeed | hfeed := hfeed
      · rw [hfeed, Session.parser]
      · rw [hfeed, Session.parser]
    rw [hparser, hcalls, Session.parser, List.drop_left] at hd
    obtain ⟨b, hb, hname⟩ := hnames data hd
    refine ⟨b, hb, hname, ?_⟩
    rw [hparser, hheard'.subscriptions, hb]
    rfl
  · rw [hq] at hd
    simp [Session.feed, Session.parser] at hd

end

end Mutelemetry.Parse
