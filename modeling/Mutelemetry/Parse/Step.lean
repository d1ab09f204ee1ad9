import Mutelemetry.Parse
import Mutelemetry.Parse.Decode

/-!
# What a call of the parser does

One inversion for each function of the parser: what its state is after a call
that returns, and after a fault.
-/

namespace Mutelemetry.Parse

open ByteString Stateful Ulog

@[simp] theorem run_lift_ok (a : α) (p : MutelemetryParser) :
    (lift (.ok a)).run p = .ok a p := (rfl)

@[simp] theorem run_lift_error (fault : Fault) (p : MutelemetryParser) :
    (lift (.error fault : Except Fault α)).run p = .error fault p := (rfl)

theorem run_lift (x : Except Fault α) (p : MutelemetryParser) : (lift x).run p = match x with
    | .ok a => .ok a p
    | .error fault => .error fault p := by
  cases x with
  | ok | error => rfl

-- A read fails outside the buffer only.

theorem readUInt8_error (h : readUInt8 buffer pos = .error fault) : fault = .outOfBounds :=
  fetch_error (map_eq_error.mp h)

theorem readUInt16_error (h : readUInt16 buffer pos = .error fault) : fault = .outOfBounds :=
  fetch_error (map_eq_error.mp h)

theorem readUInt64_error (h : readUInt64 buffer pos = .error fault) : fault = .outOfBounds :=
  fetch_error (map_eq_error.mp h)

-- ---------------------------------------------------------------------------
-- D messages
-- ---------------------------------------------------------------------------

/-- A D message is decoded into its series, and the handler is called. -/
inductive Delivers (p : MutelemetryParser) (buffer : Bytes) (message : Nat) (sub : Subscription) :
    MutelemetryParser → Prop
  | mk : p.seriesFor sub = .ok timeseries → readUInt64 buffer (message + 2) = .ok tval →
    p.formatOf sub = .ok format →
    (parseDataIntl p.formats buffer p.formats.keys.length format).run
      ⟨{ timeseries with timestamps := [tval] }, ↑(message + 10), 0⟩ = .ok () c →
    c.timeseries.getLatestData (p.seriesName sub) = .ok data →
    Delivers p buffer message sub ((p.setSeries (p.seriesName sub) c.timeseries).handleData data)

inductive DataFault (p : MutelemetryParser) (buffer : Bytes) (message : Nat) (sub : Subscription) :
    Fault → Prop
  | series : p.seriesFor sub = .error fault → DataFault p buffer message sub fault
  | timestamp : readUInt64 buffer (message + 2) = .error fault →
    DataFault p buffer message sub fault
  | format : p.formatOf sub = .error fault → DataFault p buffer message sub fault
  | walk : p.seriesFor sub = .ok timeseries → p.formatOf sub = .ok format →
    (parseDataIntl p.formats buffer p.formats.keys.length format).run
      ⟨{ timeseries with timestamps := [tval] }, ↑(message + 10), 0⟩ = .error fault c →
    DataFault p buffer message sub fault
  | latest : p.seriesFor sub = .ok timeseries → p.formatOf sub = .ok format →
    (parseDataIntl p.formats buffer p.formats.keys.length format).run
      ⟨{ timeseries with timestamps := [tval] }, ↑(message + 10), 0⟩ = .ok () c →
    c.timeseries.getLatestData (p.seriesName sub) = .error fault →
    DataFault p buffer message sub fault

theorem run_parseData (buffer : Bytes) (message : Nat) (p : MutelemetryParser) :
    (parseData buffer message).run p =
      (parseDataTo p.formats.keys.length buffer message).run p := (rfl)

theorem run_parseDataTo_none (depth : Nat) (hid : readUInt16 buffer message = .ok msgId)
    (hsub : p.subscriptions.lookup msgId = none) :
    (parseDataTo depth buffer message).run p = .ok .definitionOrData p := by
  simp only [parseDataTo, run_seq, hid, run_lift_ok, EStateM.run_get, hsub]
  rfl

theorem run_parseData_none (hid : readUInt16 buffer message = .ok msgId)
    (hsub : p.subscriptions.lookup msgId = none) :
    (parseData buffer message).run p = .ok .definitionOrData p :=
  run_parseDataTo_none p.formats.keys.length hid hsub

/-- A new series is inserted before its first values are. -/
theorem run_insertSeries (p : MutelemetryParser) (name : Bytes) (timeseries : Timeseries) :
    ∃ t, (insertSeries name timeseries).run p = .ok () { p with timeseries := t } ∧
      ∀ ts, t.insert name ts = p.timeseries.insert name ts := by
  simp only [insertSeries, EStateM.run_modify]
  by_cases h : name ∈ p.timeseries
  · exact ⟨p.timeseries, by rw [if_pos h], fun _ => rfl⟩
  · exact ⟨p.timeseries.insert name timeseries, by rw [if_neg h]; rfl, fun _ => by simp⟩

theorem run_parseData_some (hid : readUInt16 buffer message = .ok msgId)
    (hsub : p.subscriptions.lookup msgId = some sub) :
    (∃ p', (parseData buffer message).run p = .ok .definitionOrData p' ∧
      Delivers p buffer message sub p') ∨
    ∃ fault t, (parseData buffer message).run p = .error fault { p with timeseries := t } ∧
      DataFault p buffer message sub fault := by
  simp only [run_parseData, parseDataTo, run_seq, hid, run_lift_ok, EStateM.run_get, hsub]
  cases hseries : p.seriesFor sub with
  | error fault => exact .inr ⟨fault, p.timeseries, rfl, .series hseries⟩
  | ok timeseries =>
    obtain ⟨t, hnew, hins⟩ := run_insertSeries p (p.seriesName sub) timeseries
    simp only [run_lift_ok, hnew]
    cases htval : readUInt64 buffer (message + 2) with
    | error fault => exact .inr ⟨fault, t, rfl, .timestamp htval⟩
    | ok tval =>
      simp only [run_lift_ok]
      cases hformat : p.formatOf sub with
      | error fault => exact .inr ⟨fault, t, rfl, .format hformat⟩
      | ok format =>
        simp only [run_lift_ok]
        cases hwalk : (parseDataIntl p.formats buffer p.formats.keys.length format).run
            ⟨{ timeseries with timestamps := [tval] }, ↑(message + 10), 0⟩ with
        | error fault c => exact .inr ⟨fault, _, rfl, .walk hseries hformat hwalk⟩
        | ok u c =>
          simp only [run_seq]
          cases hdata : c.timeseries.getLatestData (p.seriesName sub) with
          | error fault => exact .inr ⟨fault, _, rfl, .latest hseries hformat hwalk hdata⟩
          | ok data =>
            refine .inl ⟨_, ?_, .mk hseries htval hformat hwalk hdata⟩
            rw [MutelemetryParser.setSeries, ← hins]
            rfl

theorem run_parseData_delivers (hid : readUInt16 buffer message = .ok msgId)
    (hsub : p.subscriptions.lookup msgId = some sub) (hd : Delivers p buffer message sub q) :
    (parseData buffer message).run p = .ok .definitionOrData q := by
  obtain ⟨hseries, htval, hformat, hwalk, hdata⟩ := hd
  rename_i timeseries tval format c data
  obtain ⟨t, hnew, hins⟩ := run_insertSeries p (p.seriesName sub) timeseries
  simp only [run_parseData, parseDataTo, run_seq, hid, run_lift_ok, EStateM.run_get, hsub, hseries,
    hnew, htval, hformat, hwalk, hdata]
  rw [MutelemetryParser.setSeries, ← hins]
  rfl

inductive Data (p : MutelemetryParser) (buffer : Bytes) (message : Nat) : MutelemetryParser → Prop
  | unsubscribed : readUInt16 buffer message = .ok msgId → p.subscriptions.lookup msgId = none →
    Data p buffer message p
  | subscribed : readUInt16 buffer message = .ok msgId → p.subscriptions.lookup msgId = some sub →
    Delivers p buffer message sub q → Data p buffer message q

inductive DataStops (p : MutelemetryParser) (buffer : Bytes) (message : Nat) :
    Fault → MutelemetryParser → Prop
  | msgId : readUInt16 buffer message = .error fault → DataStops p buffer message fault p
  | subscribed (t) : readUInt16 buffer message = .ok msgId →
    p.subscriptions.lookup msgId = some sub → DataFault p buffer message sub fault →
    DataStops p buffer message fault { p with timeseries := t }

theorem parseData_cases (buffer : Bytes) (message : Nat) (p : MutelemetryParser) :
    (∃ q, (parseData buffer message).run p = .ok .definitionOrData q ∧ Data p buffer message q) ∨
    ∃ fault q, (parseData buffer message).run p = .error fault q ∧
      DataStops p buffer message fault q := by
  cases hid : readUInt16 buffer message with
  | error fault =>
    refine .inr ⟨fault, p, ?_, .msgId hid⟩
    rw [run_parseData, parseDataTo, hid]
    exact run_seq_error (run_lift_error _ _) _
  | ok msgId =>
    cases hsub : p.subscriptions.lookup msgId with
    | none => exact .inl ⟨p, run_parseData_none hid hsub, .unsubscribed hid hsub⟩
    | some sub =>
      obtain ⟨q, hrun, hq⟩ | ⟨fault, t, hrun, hf⟩ := run_parseData_some hid hsub
      · exact .inl ⟨q, hrun, .subscribed hid hsub hq⟩
      · exact .inr ⟨fault, _, hrun, .subscribed t hid hsub hf⟩

-- ---------------------------------------------------------------------------
-- The other messages
-- ---------------------------------------------------------------------------

theorem run_parseInfo (buffer : Bytes) (message : Nat) (msgSize : UInt16) (p : MutelemetryParser) :
    (parseInfo buffer message msgSize).run p = match infoEntry buffer message msgSize with
      | .ok (key, value) => .ok p.state { p with
          info := if key ∈ p.info then p.info else p.info.insert key value }
      | .error fault => .error fault p := by
  rw [parseInfo, run_seq, run_lift]
  cases infoEntry buffer message msgSize with
  | ok | error => rfl

theorem run_parseFormat (buffer : Bytes) (message : Nat) (msgSize : UInt16)
    (p : MutelemetryParser) : (parseFormat buffer message msgSize).run p =
      match fetch buffer message msgSize.toNat >>= parseFormatText with
      | .ok (some format) => .ok p.state { p with
          formats := p.formats.insert format.name format }
      | .ok none => .ok .invalid p
      | .error fault => .error fault p := by
  rw [parseFormat, run_seq, run_lift]
  cases fetch buffer message msgSize.toNat with
  | error => rfl
  | ok text =>
    simp only [run_seq, run_lift, ok_bind]
    cases parseFormatText text with
    | error => rfl
    | ok format =>
      cases format with
      | none | some => rfl

theorem run_parseParam (buffer : Bytes) (message : Nat) (p : MutelemetryParser) :
    (parseParam buffer message).run p = match readParameter buffer message with
      | .ok (some param) => .ok p.state { p with parameters := p.parameters ++ [param] }
      | .ok none => .ok .invalid p
      | .error fault => .error fault p := by
  rw [parseParam, run_seq, run_lift]
  cases readParameter buffer message with
  | error => rfl
  | ok param =>
    cases param with
    | none | some => rfl

theorem run_parseAdd (buffer : Bytes) (message : Nat) (msgSize : UInt16) (p : MutelemetryParser) :
    (parseAdd buffer message msgSize).run p =
      match readSubscription p.formats buffer message msgSize with
      | .ok sub => .ok .definitionOrData (p.subscribe sub)
      | .error fault => .error fault p := by
  simp only [parseAdd, run_seq, EStateM.run_get, run_lift]
  cases readSubscription p.formats buffer message msgSize with
  | ok | error => rfl

theorem run_parseLogged (buffer : Bytes) (message : Nat) (msgSize : UInt16)
    (p : MutelemetryParser) : (parseLogged buffer message msgSize).run p =
      match readLog buffer message msgSize with
      | .ok msgLog => .ok .definitionOrData { p with
          logCalls := p.logCalls ++ [msgLog], messageLogs := p.messageLogs ++ [msgLog] }
      | .error fault => .error fault p := by
  rw [parseLogged, run_seq, run_lift]
  cases readLog buffer message msgSize with
  | ok | error => rfl

theorem run_parseRemove (buffer : Bytes) (message : Nat) (p : MutelemetryParser) :
    (parseRemove buffer message).run p = match readUInt16 buffer message with
      | .ok msgId => .ok .definitionOrData { p with subscriptions := p.subscriptions.erase msgId }
      | .error fault => .error fault p := by
  rw [parseRemove, run_seq, run_lift]
  cases readUInt16 buffer message with
  | ok | error => rfl

/-- The end of `parse`: the new state is kept, and tells the result. -/
def settle : EStateM.Result Fault MutelemetryParser ParseState →
    EStateM.Result Fault MutelemetryParser Bool
  | .ok state q => .ok (state ≠ .invalid) { q with state := state }
  | .error fault q => .error fault q

theorem run_parse (buffer : Bytes) (pos : Nat) (p : MutelemetryParser) :
    (parse buffer pos).run p = settle ((handle p.state buffer pos).run p) := by
  simp only [parse, run_seq, EStateM.run_get]
  cases (handle p.state buffer pos).run p with
  | ok | error => rfl

-- ---------------------------------------------------------------------------
-- Records
-- ---------------------------------------------------------------------------

def behind (p : MutelemetryParser) (buffer : Bytes) (hdr : Nat) : Bool × MutelemetryParser :=
  match headerType buffer hdr with
  | .ok type => (type = some .D, p)
  | .error _ => (false, { p with strayed := true })

theorem run_parseAddThen {data : Bytes → Nat → ParseM ParseState}
    (hsize : headerSize buffer pos = .ok size) :
    (parseAddThen data buffer pos).run p =
      match readSubscription p.formats buffer (pos + 3) size with
      | .error fault => .error fault p
      | .ok sub => match behind (p.subscribe sub) buffer (pos + 3 + size.toNat) with
        | (true, q) => (data buffer (pos + 3 + size.toNat + 3)).run q
        | (false, q) => .ok .definitionOrData q := by
  simp only [parseAddThen, run_seq, hsize, run_lift_ok, run_parseAdd]
  cases readSubscription p.formats buffer (pos + 3) size with
  | error => rfl
  | ok sub =>
    simp only [dataBehind, behind]
    cases headerType buffer (pos + 3 + size.toNat) with
    | error => rfl
    | ok type =>
      by_cases htype : type = some .D
      · subst htype
        rfl
      · simp only [EStateM.run_pure, decide_eq_false htype]
        rfl

theorem run_parseAddData (hsize : headerSize buffer pos = .ok size) :
    (parseAddData buffer pos).run p =
      match readSubscription p.formats buffer (pos + 3) size with
      | .error fault => .error fault p
      | .ok sub => match behind (p.subscribe sub) buffer (pos + 3 + size.toNat) with
        | (true, q) => (parseData buffer (pos + 3 + size.toNat + 3)).run q
        | (false, q) => .ok .definitionOrData q :=
  run_parseAddThen hsize

-- ---------------------------------------------------------------------------
-- Any message
-- ---------------------------------------------------------------------------

def MutelemetryParser.InBody (p : MutelemetryParser) : Prop :=
  p.state = .definition ∨ p.state = .definitionOrData

theorem MutelemetryParser.InBody.ne_invalid {p : MutelemetryParser} (h : p.InBody) :
    p.state ≠ .invalid := by
  obtain h | h := h
  · simp [h]
  · simp [h]

inductive Handles (buffer : Bytes) (pos : Nat) (p : MutelemetryParser) :
    ParseState → MutelemetryParser → Prop
  | header : p.state = .header → readFrom buffer pos = .ok (some timestamp) →
    Handles buffer pos p .flags { p with startTime := some timestamp }
  | flags : p.state = .flags → flagsState buffer pos = .ok .definition →
    Handles buffer pos p .definition p
  | info : p.InBody → headerType buffer pos = .ok (some .I) → headerSize buffer pos = .ok size →
    infoEntry buffer (pos + 3) size = .ok (key, value) →
    Handles buffer pos p p.state { p with
      info := if key ∈ p.info then p.info else p.info.insert key value }
  | multi : p.InBody → headerType buffer pos = .ok (some .M) → Handles buffer pos p p.state p
  | format : p.state = .definition → headerType buffer pos = .ok (some .F) →
    headerSize buffer pos = .ok size →
    fetch buffer ↑(pos + 3) size.toNat >>= parseFormatText = .ok (some format) →
    Handles buffer pos p p.state { p with formats := p.formats.insert format.name format }
  | param : p.InBody → headerType buffer pos = .ok (some .P) →
    readParameter buffer (pos + 3) = .ok (some param) →
    Handles buffer pos p p.state { p with parameters := p.parameters ++ [param] }
  | add : p.InBody → headerType buffer pos = .ok (some .A) → headerSize buffer pos = .ok size →
    readSubscription p.formats buffer (pos + 3) size = .ok sub →
    behind (p.subscribe sub) buffer (pos + 3 + size.toNat) = (false, q) →
    Handles buffer pos p .definitionOrData q
  | addData : p.InBody → headerType buffer pos = .ok (some .A) →
    headerSize buffer pos = .ok size →
    readSubscription p.formats buffer (pos + 3) size = .ok sub →
    behind (p.subscribe sub) buffer (pos + 3 + size.toNat) = (true, q) →
    Data q buffer (pos + 3 + size.toNat + 3) q' → Handles buffer pos p .definitionOrData q'
  | data : p.state = .definitionOrData → headerType buffer pos = .ok (some .D) →
    Data p buffer (pos + 3) q → Handles buffer pos p .definitionOrData q
  | logged : p.state = .definitionOrData → headerType buffer pos = .ok (some .L) →
    headerSize buffer pos = .ok size → readLog buffer (pos + 3) size = .ok msgLog →
    Handles buffer pos p .definitionOrData { p with
      logCalls := p.logCalls ++ [msgLog], messageLogs := p.messageLogs ++ [msgLog] }
  | passed : p.state = .definitionOrData →
    headerType buffer pos = .ok (some .S) ∨ headerType buffer pos = .ok (some .O) →
    Handles buffer pos p .definitionOrData p
  | remove : p.state = .definitionOrData → headerType buffer pos = .ok (some .R) →
    readUInt16 buffer (pos + 3) = .ok msgId →
    Handles buffer pos p .definitionOrData { p with
      subscriptions := p.subscriptions.erase msgId }
  | reject : Handles buffer pos p .invalid p

/-- Only a D message that fails can leave the state changed, apart from the
assertions of the first two states. -/
inductive Stops (buffer : Bytes) (pos : Nat) (p : MutelemetryParser) :
    Fault → MutelemetryParser → Prop
  | unchanged (fault) : Stops buffer pos p fault p
  | asserted (q) : Stops buffer pos p .assertion q
  | addData : p.InBody → headerType buffer pos = .ok (some .A) →
    headerSize buffer pos = .ok size →
    readSubscription p.formats buffer (pos + 3) size = .ok sub →
    behind (p.subscribe sub) buffer (pos + 3 + size.toNat) = (true, q) →
    DataStops q buffer (pos + 3 + size.toNat + 3) fault q' → Stops buffer pos p fault q'
  | data : p.state = .definitionOrData → headerType buffer pos = .ok (some .D) →
    DataStops p buffer (pos + 3) fault q → Stops buffer pos p fault q

def Ends (buffer : Bytes) (pos : Nat) (p : MutelemetryParser) :
    EStateM.Result Fault MutelemetryParser ParseState → Prop
  | .ok state q => Handles buffer pos p state q
  | .error fault q => Stops buffer pos p fault q

theorem ends_parseHeader (hs : p.state = .header) :
    Ends buffer pos p ((parseHeader buffer pos >>= (assertState · .flags)).run p) := by
  simp only [run_seq, parseHeader, run_lift]
  cases hr : readFrom buffer pos with
  | error fault => exact .unchanged fault
  | ok timestamp =>
    cases timestamp with
    | none => exact .asserted p
    | some timestamp => exact .header hs hr

theorem ends_parseFlags (hs : p.state = .flags) :
    Ends buffer pos p ((parseFlags buffer pos >>= (assertState · .definition)).run p) := by
  simp only [run_seq, parseFlags, run_lift]
  cases hr : flagsState buffer pos with
  | error fault => exact .unchanged fault
  | ok state =>
    by_cases hd : state = .definition
    · subst hd
      exact .flags hs hr
    · simp only [assertState, if_neg hd]
      exact .asserted p

theorem headerSize_of_headerType (h : headerType buffer pos = .ok type) :
    ∃ size, headerSize buffer pos = .ok size := by
  simp only [headerType, readUInt8, map_eq_ok] at h
  obtain ⟨_, ⟨bs, hbs, -⟩, -⟩ := h
  obtain ⟨hle, -⟩ := window_eq_some (fetch_eq_ok.mp hbs)
  rw [headerSize, readUInt16, fetch_of_le (by omega)]
  exact ⟨_, rfl⟩

section
variable (hb : MutelemetryParser.InBody p)
include hb

theorem ends_parseInfo (ht : headerType buffer pos = .ok (some .I)) :
    Ends buffer pos p ((do parseInfo buffer (pos + 3) (← lift (headerSize buffer pos))).run p) := by
  obtain ⟨size, hsize⟩ := headerSize_of_headerType ht
  simp only [run_seq, hsize, run_lift_ok, run_parseInfo]
  cases hi : infoEntry buffer (pos + 3) size with
  | error fault => exact .unchanged fault
  | ok entry => exact Handles.info hb ht hsize hi

theorem ends_parseParam (ht : headerType buffer pos = .ok (some .P)) :
    Ends buffer pos p ((parseParam buffer (pos + 3)).run p) := by
  rw [run_parseParam]
  cases hr : readParameter buffer (pos + 3) with
  | error fault => exact .unchanged fault
  | ok param =>
    cases param with
    | none => exact .reject
    | some param => exact .param hb ht hr

theorem ends_parseAddData (ht : headerType buffer pos = .ok (some .A)) :
    Ends buffer pos p ((parseAddData buffer pos).run p) := by
  obtain ⟨size, hsize⟩ := headerSize_of_headerType ht
  rw [run_parseAddData hsize]
  cases hr : readSubscription p.formats buffer (pos + 3) size with
  | error fault => exact .unchanged fault
  | ok sub =>
    rcases hbehind : behind (p.subscribe sub) buffer (pos + 3 + size.toNat) with ⟨b, q⟩
    simp only [hbehind]
    cases b with
    | false => exact Handles.add hb ht hsize hr hbehind
    | true =>
      obtain ⟨q', hrun, hq⟩ | ⟨fault, q', hrun, hq⟩ :=
        parseData_cases buffer (pos + 3 + size.toNat + 3) q
      · simp only [hrun]
        exact Handles.addData hb ht hsize hr hbehind hq
      · simp only [hrun]
        exact Stops.addData hb ht hsize hr hbehind hq

end

theorem ends_parseDefinition (hs : p.state = .definition) :
    Ends buffer pos p ((parseDefinition buffer pos).run p) := by
  have hb : p.InBody := .inl hs
  rw [parseDefinition, run_seq, run_lift]
  cases ht : headerType buffer pos with
  | error fault => exact .unchanged fault
  | ok type =>
    match type with
    | some .I => exact ends_parseInfo hb ht
    | some .M => exact Handles.multi hb ht
    | some .P => exact ends_parseParam hb ht
    | some .A => exact ends_parseAddData hb ht
    | some .F =>
      obtain ⟨size, hsize⟩ := headerSize_of_headerType ht
      simp only [run_seq, hsize, run_lift_ok, run_parseFormat]
      cases hf : fetch buffer ↑(pos + 3) size.toNat >>= parseFormatText with
      | error fault => exact .unchanged fault
      | ok format =>
        cases format with
        | none => exact .reject
        | some format => exact .format hs ht hsize hf
    | some .B | some .D | some .L | some .S | some .O | some .R | none => exact .reject

theorem ends_parseDataSection (hs : p.state = .definitionOrData) :
    Ends buffer pos p ((parseDataSection buffer pos).run p) := by
  have hb : p.InBody := .inr hs
  rw [parseDataSection, run_seq, run_lift]
  cases ht : headerType buffer pos with
  | error fault => exact .unchanged fault
  | ok type =>
    match type with
    | some .I => exact ends_parseInfo hb ht
    | some .M => exact Handles.multi hb ht
    | some .P => exact ends_parseParam hb ht
    | some .A => exact ends_parseAddData hb ht
    | some .D =>
      obtain ⟨q, hrun, hq⟩ | ⟨fault, q, hrun, hq⟩ := parseData_cases buffer (pos + 3) p
      · simp only [hrun]
        exact Handles.data hs ht hq
      · simp only [hrun]
        exact Stops.data hs ht hq
    | some .L =>
      obtain ⟨size, hsize⟩ := headerSize_of_headerType ht
      simp only [run_seq, hsize, run_lift_ok, run_parseLogged]
      cases hr : readLog buffer (pos + 3) size with
      | error fault => exact .unchanged fault
      | ok msgLog => exact .logged hs ht hsize hr
    | some .S => exact Handles.passed hs (.inl ht)
    | some .O => exact Handles.passed hs (.inr ht)
    | some .R =>
      simp only [run_parseRemove]
      cases hr : readUInt16 buffer (pos + 3) with
      | error fault => exact .unchanged fault
      | ok msgId => exact .remove hs ht hr
    | some .B | some .F | none => exact .reject

theorem handle_ends (buffer : Bytes) (pos : Nat) (p : MutelemetryParser) :
    Ends buffer pos p ((handle p.state buffer pos).run p) := by
  cases hs : p.state with
  | header => exact ends_parseHeader hs
  | flags => exact ends_parseFlags hs
  | definition => exact ends_parseDefinition hs
  | definitionOrData => exact ends_parseDataSection hs
  | invalid => exact .reject

/-- What a call of `parse` that returns has done. -/
theorem parse_ok (h : (parse buffer pos).run p = .ok b p') : ∃ state q,
    Handles buffer pos p state q ∧ p' = { q with state := state } ∧ b = (state ≠ .invalid) := by
  rw [run_parse] at h
  have hends := handle_ends buffer pos p
  cases hrun : (handle p.state buffer pos).run p with
  | error fault q =>
    rw [hrun] at h
    cases h
  | ok state q =>
    rw [hrun] at h hends
    cases h
    exact ⟨state, q, hends, rfl, by simp⟩

theorem parse_error (h : (parse buffer pos).run p = .error fault q) : Stops buffer pos p fault q := by
  rw [run_parse] at h
  have hends := handle_ends buffer pos p
  cases hrun : (handle p.state buffer pos).run p with
  | ok state q =>
    rw [hrun] at h
    cases h
  | error fault q =>
    rw [hrun] at h hends
    cases h
    exact hends

theorem run_parse_A (hb : p.InBody) (ht : headerType buffer pos = .ok (some .A)) :
    (parse buffer pos).run p = settle ((parseAddData buffer pos).run p) := by
  rw [run_parse]
  obtain hs | hs := hb
  · rw [hs, handle, parseDefinition, run_seq, ht]
    rfl
  · rw [hs, handle, parseDataSection, run_seq, ht]
    rfl

theorem run_parse_D (hs : p.state = .definitionOrData) (ht : headerType buffer pos = .ok (some .D)) :
    (parse buffer pos).run p = settle ((parseData buffer (pos + 3)).run p) := by
  rw [run_parse, hs, handle, parseDataSection, run_seq, ht]
  rfl

theorem run_parse_I (hb : p.InBody) (ht : headerType buffer pos = .ok (some .I))
    (hsize : headerSize buffer pos = .ok size) :
    (parse buffer pos).run p = settle ((parseInfo buffer (pos + 3) size).run p) := by
  rw [run_parse]
  obtain hs | hs := hb
  · simp only [hs, handle, parseDefinition, run_seq, ht, hsize, run_lift_ok]
  · simp only [hs, handle, parseDataSection, run_seq, ht, hsize, run_lift_ok]

theorem run_parse_P (hb : p.InBody) (ht : headerType buffer pos = .ok (some .P)) :
    (parse buffer pos).run p = settle ((parseParam buffer (pos + 3)).run p) := by
  rw [run_parse]
  obtain hs | hs := hb
  · simp only [hs, handle, parseDefinition, run_seq, ht, run_lift_ok]
  · simp only [hs, handle, parseDataSection, run_seq, ht, run_lift_ok]

theorem run_parse_L (hs : p.state = .definitionOrData) (ht : headerType buffer pos = .ok (some .L))
    (hsize : headerSize buffer pos = .ok size) :
    (parse buffer pos).run p = settle ((parseLogged buffer (pos + 3) size).run p) := by
  rw [run_parse, hs, handle, parseDataSection]
  simp only [run_seq, ht, hsize, run_lift_ok]

theorem settle_eq_error {r : EStateM.Result Fault MutelemetryParser ParseState} :
    settle r = .error fault q ↔ r = .error fault q := by
  cases r with
  | ok | error => simp [settle]

-- ---------------------------------------------------------------------------
-- `check_ulog_valid`
-- ---------------------------------------------------------------------------

theorem run_checkUlogValid_error (h : (parse buffer 0).run p = .error fault q) :
    (checkUlogValid buffer).run p = .error fault q := by
  rw [checkUlogValid, run_seq, h]

theorem run_checkUlogValid_once (h : (parse buffer 0).run p = .ok b q)
    (hb : b = false ∨ checkUlogDataBegin buffer = false) :
    (checkUlogValid buffer).run p = .ok b q := by
  rw [checkUlogValid, run_seq, h]
  obtain rfl | hb := hb
  · rfl
  · simp only [hb, Bool.and_false, Bool.false_eq_true, if_false]
    rfl

theorem run_checkUlogValid_begin (h : (parse buffer 0).run p = .ok true q)
    (hb : checkUlogDataBegin buffer = true) (hsize : headerSize buffer 0 = .ok size) :
    (checkUlogValid buffer).run p = (parse buffer (3 + size.toNat)).run q := by
  rw [checkUlogValid, run_seq, h]
  simp only [hb, Bool.and_self, if_true, run_seq, hsize, run_lift_ok]

def accept (p : MutelemetryParser) (m : Bytes × Nat) : Option MutelemetryParser :=
  match (parse m.1 m.2).run p with
  | .ok true p' => some p'
  | _ => none

theorem accept_eq_some : accept p m = some p' ↔ (parse m.1 m.2).run p = .ok true p' := by
  unfold accept
  split
  · rename_i h
    simp [h]
  · rename_i h
    simp only [reduceCtorEq, false_iff]
    exact h p'

end Mutelemetry.Parse
