import Mutelemetry.Lib.Transition
import Mutelemetry.Parse.Record

/-!
# The shape of the series

A run takes one message after the other; an exception is caught and the run
goes on, any other fault ends it. When every A message names a resolved format,
a series keeps the columns of its format: no F message is taken after the first
A, and the name of a series tells the name of its message.
-/

namespace Mutelemetry.Parse

open ByteString Stateful Ulog

/-- `std::out_of_range` and `std::length_error` can be caught. -/
def Fault.isThrown : Fault → Bool
  | .outOfRange | .lengthError => true
  | _ => false

def step (p : MutelemetryParser) (m : Bytes × Nat) : Option MutelemetryParser :=
  match (parse m.1 m.2).run p with
  | .ok _ p' => some p'
  | .error fault p' => if fault.isThrown then some p' else none

theorem step_cases (h : step p (buffer, pos) = some p') :
    (∃ state q, Handles buffer pos p state q ∧ p' = { q with state := state }) ∨
      ∃ fault, fault.isThrown = true ∧ Stops buffer pos p fault p' := by
  simp only [step] at h
  cases hrun : (parse buffer pos).run p with
  | ok b q =>
    rw [hrun] at h
    cases h
    obtain ⟨state, q, hh, rfl, -⟩ := parse_ok hrun
    exact .inl ⟨state, q, hh, rfl⟩
  | error fault q =>
    rw [hrun] at h
    simp only [Option.ite_none_right_eq_some] at h
    obtain ⟨hcaught, heq⟩ := h
    cases heq
    exact .inr ⟨fault, hcaught, parse_error hrun⟩

/-- A name without a dot, as a C identifier is, of a resolved format, when the
message is an A message. -/
def AddsResolved (p : MutelemetryParser) (m : Bytes × Nat) : Prop :=
  ∀ size sub, headerType m.1 m.2 = .ok (some .A) → headerSize m.1 m.2 = .ok size →
    readSubscription p.formats m.1 (m.2 + 3) size = .ok sub →
    charByte '.' ∉ sub.messageName ∧ Resolved p.formats sub.messageName

-- ---------------------------------------------------------------------------
-- Names
-- ---------------------------------------------------------------------------

def baseName (tsName : Bytes) : Bytes := tsName.takeWhile (· ≠ charByte '.')

theorem baseName_seriesName {sub : Subscription} (p : MutelemetryParser)
    (h : charByte '.' ∉ sub.messageName) : baseName (p.seriesName sub) = sub.messageName := by
  unfold baseName MutelemetryParser.seriesName
  split
  · have hdot : ascii "." = [charByte '.'] := rfl
    rw [hdot, List.append_assoc]
    exact takeWhile_of_notMem h _
  · refine List.takeWhile_eq_self_iff.mpr fun c hc => ?_
    simpa using fun heq : c = charByte '.' => h (heq ▸ hc)

-- ---------------------------------------------------------------------------
-- The invariant
-- ---------------------------------------------------------------------------

def Columned (formats : Formats) (name : Bytes) (timeseries : Timeseries) : Prop :=
  ∃ format, formats.lookup name = some format ∧
    appendVector formats formats.keys.length format [] = .ok (timeseries.data.map Prod.fst)

structure Subscribed (formats : Formats) (sub : Subscription) : Prop where
  format : sub.format = some sub.messageName
  undotted : charByte '.' ∉ sub.messageName
  resolved : Resolved formats sub.messageName

structure Shaped (p : MutelemetryParser) : Prop where
  fresh : p.state = .header ∨ p.state = .flags ∨ p.state = .definition →
    p.subscriptions = ∅ ∧ p.timeseries = ∅
  subs : ∀ msgId sub, p.subscriptions.lookup msgId = some sub → Subscribed p.formats sub
  series : ∀ name timeseries, p.timeseries.lookup name = some timeseries →
    Resolved p.formats (baseName name) ∧ Columned p.formats (baseName name) timeseries

theorem shaped_new : Shaped .new := by
  refine ⟨fun _ => ⟨rfl, rfl⟩, ?_, ?_⟩
  · intro msgId sub h
    simp [MutelemetryParser.new] at h
  · intro name timeseries h
    simp [MutelemetryParser.new] at h

theorem Shaped.congr (h : Shaped p) (hf : q.formats = p.formats)
    (hs : q.subscriptions = p.subscriptions) (ht : q.timeseries = p.timeseries)
    (hstate : q.state = .header ∨ q.state = .flags ∨ q.state = .definition →
      p.state = .header ∨ p.state = .flags ∨ p.state = .definition) : Shaped q := by
  refine ⟨fun hq => ?_, ?_, ?_⟩
  · rw [hs, ht]
    exact h.fresh (hstate hq)
  · rw [hs, hf]
    exact h.subs
  · rw [ht, hf]
    exact h.series

theorem Shaped.define (h : Shaped p) (hp : p.state = .definition) (formats : Formats) :
    Shaped { p with formats := formats } := by
  obtain ⟨hs, ht⟩ := h.fresh (.inr (.inr hp))
  refine ⟨fun _ => ⟨hs, ht⟩, ?_, ?_⟩
  · intro msgId sub hsub
    simp [hs] at hsub
  · intro name timeseries hts
    simp [ht] at hts

theorem Shaped.erase (h : Shaped p) (hp : p.state = .definitionOrData) (msgId : UInt16) :
    Shaped { p with subscriptions := p.subscriptions.erase msgId } := by
  refine ⟨?_, ?_, h.series⟩
  · simp [hp]
  · intro msgId' sub hsub
    by_cases heq : msgId' = msgId
    · subst heq
      simp at hsub
    · exact h.subs msgId' sub (by simpa [AList.lookup_erase_ne heq] using hsub)

theorem readSubscription_format (h : readSubscription formats buffer message size = .ok sub) :
    sub.format = if sub.messageName ∈ formats then some sub.messageName else none := by
  simp only [readSubscription, bind_eq_ok] at h
  obtain ⟨multiId, -, msgId, -, h⟩ := h
  split at h
  · cases h
  · simp only [pure_eq_ok, bind_eq_ok] at h
    obtain ⟨name, -, heq⟩ := h
    cases heq
    rfl

theorem lookup_subscribe_cases {p : MutelemetryParser} {sub sub' : Subscription}
    (h : (p.subscribe sub).subscriptions.lookup msgId = some sub') :
    p.subscriptions.lookup msgId = some sub' ∨
      sub.msgId ∉ p.subscriptions ∧ msgId = sub.msgId ∧ sub' = sub := by
  simp only [MutelemetryParser.subscribe] at h
  split at h
  · exact .inl h
  · rename_i hnew
    by_cases heq : msgId = sub.msgId
    · subst heq
      rw [AList.lookup_insert] at h
      cases h
      exact .inr ⟨hnew, rfl, rfl⟩
    · rw [AList.lookup_insert_ne heq] at h
      exact .inl h

theorem Shaped.subscribe (h : Shaped p) (hsub : Subscribed p.formats sub) :
    Shaped { p.subscribe sub with state := .definitionOrData } := by
  refine ⟨by simp, ?_, h.series⟩
  intro msgId sub' hlookup
  obtain hlookup | ⟨-, rfl, rfl⟩ := lookup_subscribe_cases hlookup
  · exact h.subs msgId sub' hlookup
  · exact hsub

-- ---------------------------------------------------------------------------
-- D messages
-- ---------------------------------------------------------------------------

section
variable {p : MutelemetryParser} {timeseries : Timeseries} {leaves : List Leaf}

theorem formatOf_eq (h : Subscribed p.formats sub) (hf : p.formats.lookup sub.messageName = some f) :
    p.formatOf sub = .ok f := by
  simp [MutelemetryParser.formatOf, h.format, hf]

/-- The series of a subscription has the columns of its format, be it old or new. -/
theorem Shaped.seriesFor (h : Shaped p) (hsub : Subscribed p.formats sub)
    (hs : p.seriesFor sub = .ok timeseries) : Columned p.formats sub.messageName timeseries := by
  unfold MutelemetryParser.seriesFor at hs
  split at hs
  · rename_i hl
    cases hs
    rw [← baseName_seriesName p hsub.undotted]
    exact (h.series _ _ hl).2
  · obtain ⟨format, hf⟩ := hsub.resolved.lookup
    rw [formatOf_eq hsub hf, ok_bind] at hs
    exact ⟨format, hf, createTimeseries_eq_ok hs⟩

theorem Columned.layout (h : Columned formats name timeseries) (hr : Resolved formats name)
    (hf : formats.lookup name = some format) (start : Int) :
    ∃ leaves stop, layout formats formats.keys.length format [] start = .ok (leaves, stop) ∧
      timeseries.data.map Prod.fst = leaves.map (·.path) := by
  obtain ⟨format', hf', hcols⟩ := h
  cases hf.symm.trans hf'
  obtain ⟨leaves, stop, hl⟩ := hr.layout hf [] start
  refine ⟨leaves, stop, hl, ?_⟩
  obtain hok | herr := appendVector_layout hl
  · exact Except.ok.inj (hcols.symm.trans hok)
  · cases hcols.symm.trans herr

theorem Columned.length (h : timeseries.data.map Prod.fst = leaves.map Leaf.path) :
    leaves.length = timeseries.data.length := by
  simpa using (congrArg List.length h).symm

theorem Shaped.delivers (h : Shaped p) (hp : p.state = .definitionOrData)
    (hsub : Subscribed p.formats sub) (hd : Delivers p buffer message sub q) : Shaped q := by
  obtain ⟨hs, -, hf, hwalk, -⟩ := hd
  obtain ⟨leaves, stop, values, -, -, -, rfl⟩ := run_parseDataIntl_eq_ok.mp hwalk
  refine ⟨?_, h.subs, ?_⟩
  · simp [MutelemetryParser.handleData, MutelemetryParser.setSeries, hp]
  · intro name ts hlookup
    simp only [MutelemetryParser.handleData, MutelemetryParser.setSeries] at hlookup
    by_cases heq : name = p.seriesName sub
    · subst heq
      rw [AList.lookup_insert] at hlookup
      cases hlookup
      obtain ⟨format, hf, hcols⟩ := h.seriesFor hsub hs
      rw [baseName_seriesName p hsub.undotted]
      refine ⟨hsub.resolved, format, hf, ?_⟩
      rw [Timeseries.paths_setColumns]
      exact hcols
    · rw [AList.lookup_insert_ne heq] at hlookup
      exact h.series name ts hlookup

theorem Shaped.data (h : Shaped p) (hp : p.state = .definitionOrData)
    (hd : Data p buffer message q) : Shaped q := by
  cases hd with
  | unsubscribed => exact h
  | subscribed _ hsub hd => exact h.delivers hp (h.subs _ _ hsub) hd

/-- A subscribed D message can only be too short, or its arrays too long for a suffix. -/
theorem Shaped.dataFault (h : Shaped p) (hsub : Subscribed p.formats sub)
    (hd : DataFault p buffer message sub fault) : fault = .outOfBounds ∨ fault = .overflow := by
  obtain ⟨format, hf⟩ := hsub.resolved.lookup
  have hformat := formatOf_eq hsub hf
  cases hd with
  | series hs =>
    unfold MutelemetryParser.seriesFor at hs
    split at hs
    · cases hs
    · rw [hformat, ok_bind] at hs
      obtain ⟨leaves, stop, hl⟩ := hsub.resolved.layout hf [] 0
      obtain ⟨created, hcreated, -⟩ | hoverflow := createTimeseries_layout hl
      · cases hcreated.symm.trans hs
      · cases hoverflow.symm.trans hs
        exact .inr rfl
  | timestamp ht => exact .inl (readUInt64_error ht)
  | format he =>
    rw [hformat] at he
    cases he
  | walk hs hf' hwalk =>
    cases hformat.symm.trans hf'
    obtain ⟨leaves, stop, hl, hcols⟩ := (h.seriesFor hsub hs).layout hsub.resolved hf ↑(message + 10)
    refine .inl (run_parseDataIntl_error hl ?_ hwalk)
    exact (Columned.length hcols).le
  | latest hs hf' hwalk hlatest =>
    cases hformat.symm.trans hf'
    obtain ⟨leaves, stop, hl, hcols⟩ := (h.seriesFor hsub hs).layout hsub.resolved hf ↑(message + 10)
    obtain ⟨leaves', stop', values, hl', hv, -, rfl⟩ := run_parseDataIntl_eq_ok.mp hwalk
    cases hl.symm.trans hl'
    have hlen := (Columned.length hcols).symm.trans (length_mapM hv).symm
    cases hlatest.symm.trans (getLatestData_setColumns _ values _ rfl hlen)

end

-- ---------------------------------------------------------------------------
-- Runs
-- ---------------------------------------------------------------------------

theorem subscribed_of_read (hg : AddsResolved p (buffer, pos))
    (ht : headerType buffer pos = .ok (some .A)) (hsize : headerSize buffer pos = .ok size)
    (hr : readSubscription p.formats buffer (pos + 3) size = .ok sub) :
    Subscribed p.formats sub := by
  obtain ⟨hdot, hres⟩ := hg size sub ht hsize hr
  refine ⟨?_, hdot, hres⟩
  rw [readSubscription_format hr, if_pos (hres.defined _ .refl)]

/-- Looking behind an A message changes nothing of interest. -/
theorem behind_eq (h : behind p buffer hdr = (b, q)) :
    q = p ∨ q = { p with strayed := true } := by
  unfold behind at h
  split at h <;> cases h
  · exact .inl rfl
  · exact .inr rfl

theorem Shaped.behind (h : Shaped { p with state := s }) (hb : behind p buffer hdr = (b, q)) :
    Shaped { q with state := s } := by
  obtain rfl | rfl := behind_eq hb
  · exact h
  · exact h.congr rfl rfl rfl id

theorem Data.state (h : Data p buffer message q) (s : ParseState) :
    Data { p with state := s } buffer message { q with state := s } := by
  cases h with
  | unsubscribed hid hsub => exact .unsubscribed hid hsub
  | subscribed hid hsub hd =>
    obtain ⟨hs, ht, hf, hwalk, hl⟩ := hd
    exact .subscribed hid hsub (.mk hs ht hf hwalk hl)

theorem Shaped.handles (h : Shaped p) (hg : AddsResolved p (buffer, pos))
    (hh : Handles buffer pos p s q) : Shaped { q with state := s } := by
  cases hh with
  | header hs => exact h.congr rfl rfl rfl fun _ => .inl hs
  | flags hs => exact h.congr rfl rfl rfl fun _ => .inr (.inl hs)
  | info | multi | param => exact h.congr rfl rfl rfl id
  | format hs => exact h.define hs _
  | add hb ht hsize hr hbehind =>
    exact (h.subscribe (subscribed_of_read hg ht hsize hr)).behind hbehind
  | addData hb ht hsize hr hbehind hd =>
    exact ((h.subscribe (subscribed_of_read hg ht hsize hr)).behind hbehind).data rfl (hd.state _)
  | data hs ht hd => exact (h.data hs hd).congr rfl rfl rfl (by simp)
  | logged hs | passed hs => exact h.congr rfl rfl rfl (by simp)
  | remove hs => exact (h.erase hs _).congr rfl rfl rfl (by simp)
  | reject => exact h.congr rfl rfl rfl (by simp)

theorem DataFault.state (h : DataFault p buffer message sub fault) (s : ParseState) :
    DataFault { p with state := s } buffer message sub fault := by
  cases h with
  | series hs => exact .series hs
  | timestamp ht => exact .timestamp ht
  | format hf => exact .format hf
  | walk hs hf hwalk => exact .walk hs hf hwalk
  | latest hs hf hwalk hl => exact .latest hs hf hwalk hl

theorem Shaped.dataStops (h : Shaped { p with state := s })
    (hd : DataStops p buffer message fault q) : fault = .outOfBounds ∨ fault = .overflow := by
  cases hd with
  | msgId hid => exact .inl (readUInt16_error hid)
  | subscribed t hid hsub hf => exact h.dataFault (h.subs _ _ hsub) (hf.state s)

theorem Shaped.stops (h : Shaped p) (hg : AddsResolved p (buffer, pos))
    (hs : Stops buffer pos p fault q) : q = p ∨ fault.isThrown = false := by
  cases hs with
  | unchanged => exact .inl rfl
  | asserted => exact .inr rfl
  | addData hb ht hsize hr hbehind hd =>
    have hq := (h.subscribe (subscribed_of_read hg ht hsize hr)).behind hbehind
    obtain rfl | rfl := hq.dataStops hd <;> exact .inr rfl
  | data hp ht hd =>
    obtain rfl | rfl := (show Shaped { p with state := p.state } from h).dataStops hd <;>
      exact .inr rfl

theorem Shaped.step (h : Shaped p) (hg : AddsResolved p m) (hs : step p m = some p') :
    Shaped p' := by
  obtain ⟨buffer, pos⟩ := m
  obtain ⟨state, q, hh, rfl⟩ | ⟨fault, hcaught, hstops⟩ := step_cases hs
  · exact h.handles hg hh
  · obtain rfl | hthrown := h.stops hg hstops
    · exact h
    · rw [hthrown] at hcaught
      cases hcaught

/-- In every state a run reaches, a series has a column for each leaf of the
format of its message. A further D message goes through all of them, unless its
payload or the suffix buffer is too short. -/
theorem series_shape (h : Transition.Guarded step AddsResolved .new ms p) :
    (∀ tsName timeseries, p.timeseries.lookup tsName = some timeseries →
      ∃ format leaves stop, p.formats.lookup (baseName tsName) = some format ∧
        layout p.formats p.formats.keys.length format [] 0 = .ok (leaves, stop) ∧
        timeseries.data.map Prod.fst = leaves.map (·.path)) ∧
    ∀ msgId sub, p.subscriptions.lookup msgId = some sub →
      baseName (p.seriesName sub) = sub.messageName ∧
      ∃ format, p.formats.lookup sub.messageName = some format ∧ p.formatOf sub = .ok format ∧
        (∀ timeseries, p.seriesFor sub = .ok timeseries → ∀ buffer message tval,
          match (parseDataIntl p.formats buffer p.formats.keys.length format).run
              ⟨{ timeseries with timestamps := [tval] }, message, 0⟩ with
          | .error fault _ => fault = .outOfBounds
          | .ok _ c => c.index = c.timeseries.data.length ∧
            ∃ data, c.timeseries.getLatestData (p.seriesName sub) = .ok data) ∧
        ∀ buffer message fault q, (parseData buffer message).run p = .error fault q →
          fault = .outOfBounds ∨ fault = .overflow := by
  have hp : Shaped p := h.invariant Shaped (fun hi hg hs => hi.step hg hs) shaped_new
  refine ⟨fun tsName timeseries hts => ?_, fun msgId sub hlookup => ?_⟩
  · obtain ⟨hres, hcols⟩ := hp.series tsName timeseries hts
    obtain ⟨format, hf⟩ := hres.lookup
    obtain ⟨leaves, stop, hl, hpaths⟩ := hcols.layout hres hf 0
    exact ⟨format, leaves, stop, hf, hl, hpaths⟩
  · have hsub := hp.subs msgId sub hlookup
    obtain ⟨format, hf⟩ := hsub.resolved.lookup
    refine ⟨baseName_seriesName p hsub.undotted, format, hf, formatOf_eq hsub hf, ?_, ?_⟩
    · intro timeseries hs buffer message tval
      obtain ⟨leaves, stop, hl, hpaths⟩ := (hp.seriesFor hsub hs).layout hsub.resolved hf message
      have hlen := Columned.length hpaths
      cases hrun : (parseDataIntl p.formats buffer p.formats.keys.length format).run
          ⟨{ timeseries with timestamps := [tval] }, message, 0⟩ with
      | error fault c =>
        refine run_parseDataIntl_error hl ?_ hrun
        exact hlen.le
      | ok u c =>
        obtain ⟨leaves', stop', values, hl', hv, -, rfl⟩ := run_parseDataIntl_eq_ok.mp hrun
        cases hl.symm.trans hl'
        refine ⟨by simpa using hlen, _, getLatestData_setColumns _ values _ rfl ?_⟩
        exact hlen.symm.trans (length_mapM hv).symm
    · intro buffer message fault q hrun
      obtain ⟨q', hok, -⟩ | ⟨fault', q', herr, hd⟩ := parseData_cases buffer message p
      · cases hok.symm.trans hrun
      · cases herr.symm.trans hrun
        exact (show Shaped { p with state := p.state } from hp).dataStops hd

theorem addsResolved_of_type (h : headerType m.1 m.2 ≠ .ok (some .A)) (p : MutelemetryParser) :
    AddsResolved p m :=
  fun _ _ ht => absurd ht h

theorem addsResolved_add (hname : 3 + name.length < 2 ^ 16) (hdot : charByte '.' ∉ name)
    (hres : Resolved p.formats name) : AddsResolved p (addData msgId multiId name payload, 0) := by
  intro size sub _ hsize hsub
  cases (headerSize_add msgId multiId name payload).symm.trans hsize
  cases (readSubscription_add hname).symm.trans hsub
  exact ⟨hdot, hres⟩

def oneType : List (Bytes × Nat) :=
  [(fileHeader 0, 0), (frame .B (List.replicate 40 0), 0), (frame .F (ascii "T:int8_t[2] a;"), 0)]

def oneRecord : Bytes × Nat := (addData 0 0 (ascii "T") (leBytes 8 7 ++ [1, 2]), 0)

def oneData : Bytes × Nat := (frame .D ([0, 0] ++ leBytes 8 8 ++ [3, 4]), 0)

theorem series_shape_oneType :
    ∃ p, Transition.Guarded step AddsResolved .new (oneType ++ ([oneRecord] ++ [oneData])) p ∧
      ∀ tsName timeseries, p.timeseries.lookup tsName = some timeseries →
        ∃ format leaves stop, p.formats.lookup (baseName tsName) = some format ∧
          layout p.formats p.formats.keys.length format [] 0 = .ok (leaves, stop) ∧
          timeseries.data.map Prod.fst = leaves.map (·.path) := by
  have hrun : (Transition.run step .new (oneType ++ ([oneRecord] ++ [oneData]))).isSome = true := by
    decide +kernel
  have hformats : (Transition.run step .new oneType).map (·.formats.lookup (ascii "T")) =
      some (some ⟨ascii "T", [⟨.int8, ascii "a", [], 2⟩]⟩) := by decide +kernel
  obtain ⟨p, hp⟩ := Option.isSome_iff_exists.mp hrun
  obtain ⟨p₁, h₁, h⟩ := Transition.run_append.mp hp
  obtain ⟨p₂, h₂, h₃⟩ := Transition.run_append.mp h
  obtain ⟨_, hstep, heq⟩ := Transition.run_cons.mp h₂
  cases heq
  rw [h₁, Option.map_some, Option.some_inj] at hformats
  have hres : Resolved p₁.formats (ascii "T") := .flat hformats (by simp)
  have hg₁ : Transition.Guarded step AddsResolved .new oneType p₁ :=
    .of_run h₁ fun m hm => addsResolved_of_type ((show ∀ m ∈ oneType,
      headerType m.1 m.2 ≠ .ok (some .A) by decide +kernel) m hm)
  have hg₂ : Transition.Guarded step AddsResolved p₁ [oneRecord] p₂ :=
    .cons (addsResolved_add (by decide) (by decide) hres) hstep .nil
  have hg₃ : Transition.Guarded step AddsResolved p₂ [oneData] p :=
    .of_run h₃ fun m hm => addsResolved_of_type ((show ∀ m ∈ [oneData],
      headerType m.1 m.2 ≠ .ok (some .A) by decide +kernel) m hm)
  exact ⟨p, hg₁.append (hg₂.append hg₃), (series_shape (hg₁.append (hg₂.append hg₃))).1⟩

end Mutelemetry.Parse
