import Mutelemetry.Parse.Shape

/-!
# How often a record is delivered

`check_ulog_valid` parses a record from its A message, which takes the D message
with it, and then the D message once more.
-/

namespace Mutelemetry.Parse

open ByteString Stateful Ulog

def stateAfter : EStateM.Result Fault MutelemetryParser α → MutelemetryParser
  | .ok _ q | .error _ q => q

/-- One call of `data_handler_` comes of a call of `check_ulog_valid`. -/
def DeliversOnce (p : MutelemetryParser) (buffer : Bytes) : Prop :=
  (stateAfter ((checkUlogValid buffer).run p)).dataCalls.length = p.dataCalls.length + 1

instance : Decidable (DeliversOnce p buffer) :=
  inferInstanceAs (Decidable (_ = _))

/-- What has been delivered can be delivered again. -/
theorem Delivers.again (h : Delivers p buffer message sub q) (s : ParseState) :
    ∃ data q', q.dataCalls = p.dataCalls ++ [data] ∧
      Delivers { q with state := s } buffer message sub q' ∧
      q'.dataCalls = q.dataCalls ++ [data] := by
  obtain ⟨hseries, htval, hformat, hwalk, hdata⟩ := h
  obtain ⟨leaves, stop, values, hl, hv, hroom, rfl⟩ := run_parseDataIntl_eq_ok.mp hwalk
  rename_i timeseries tval format data
  -- the series holds the values now, and reading them into it changes nothing
  let filled := ({ timeseries with timestamps := [tval] } : Timeseries).setColumns 0 values
  let q : MutelemetryParser := (p.setSeries (p.seriesName sub) filled).handleData data
  have hfilled : { filled with timestamps := [tval] } = filled := by
    have ht : filled.timestamps = [tval] := Timeseries.timestamps_setColumns _ values
    rw [← ht]
  have hsame : filled.setColumns 0 values = filled :=
    Timeseries.setColumns_setColumns _ (by simpa [length_mapM hv] using hroom)
  have hagain : (parseDataIntl p.formats buffer p.formats.keys.length format).run
      ⟨{ filled with timestamps := [tval] }, ↑(message + 10), 0⟩ =
      .ok () ⟨filled, stop, leaves.length⟩ := by
    rw [hfilled]
    exact run_parseDataIntl_eq_ok.mpr
      ⟨leaves, stop, values, hl, hv, by simpa [filled] using hroom, by rw [hsame]⟩
  have hs : MutelemetryParser.seriesFor { q with state := s } sub = .ok filled := by
    have hlookup : q.timeseries.lookup (p.seriesName sub) = some filled := AList.lookup_insert _
    unfold MutelemetryParser.seriesFor
    rw [show q.timeseries.lookup (({ q with state := s } : MutelemetryParser).seriesName sub) =
      some filled from hlookup]
  exact ⟨data, _, rfl, .mk hs htval hformat hagain hdata, rfl⟩

theorem DataStops.dataCalls (h : DataStops p buffer message fault q) :
    q.dataCalls = p.dataCalls := by
  cases h with
  | msgId | subscribed => rfl

section
variable {p : MutelemetryParser} {name payload : Bytes}

theorem run_checkUlogValid_delivers (hb : p.InBody) (hname : 3 + name.length < 2 ^ 16)
    (hsub : (p.subscribe (subscriptionOf p.formats msgId multiId name)).subscriptions.lookup msgId =
      some sub)
    (hd : Delivers (p.subscribe (subscriptionOf p.formats msgId multiId name))
      (addData msgId multiId name payload) (dataPos name + 3) sub q) :
    ∃ data q', q.dataCalls = p.dataCalls ++ [data] ∧
      Delivers { q with state := .definitionOrData } (addData msgId multiId name payload)
        (dataPos name + 3) sub q' ∧
      q'.dataCalls = q.dataCalls ++ [data] ∧
      (checkUlogValid (addData msgId multiId name payload)).run p =
        .ok true { q' with state := .definitionOrData } := by
  have hsize : 3 + (UInt16.ofNat (3 + name.length)).toNat = dataPos name := by
    rw [UInt16.toNat_ofNat_of_lt' hname, dataPos]
  have hid := msgId_data msgId multiId name payload
  have hparse : (parse (addData msgId multiId name payload) 0).run p = _ := run_parse_add hb hname
  rw [run_parseData_delivers hid hsub hd] at hparse
  obtain ⟨data, q', hcalls, hd', hcalls'⟩ := hd.again .definitionOrData
  have hagain := run_parseData_delivers hid (p := { q with state := .definitionOrData })
    (by cases hd; exact hsub) hd'
  refine ⟨data, q', hcalls, hd', hcalls', ?_⟩
  rw [run_checkUlogValid_begin hparse (checkUlogDataBegin_add msgId multiId name payload)
    (headerSize_add msgId multiId name payload), hsize, run_parse_data rfl, hagain]
  rfl

/-- A record is delivered twice, or its call faults and it is not delivered. -/
theorem checkUlogValid_add (hb : p.InBody) (hname : 3 + name.length < 2 ^ 16) :
    (∃ data q, (checkUlogValid (addData msgId multiId name payload)).run p = .ok true q ∧
      q.dataCalls = p.dataCalls ++ [data, data]) ∨
    ∃ fault q, (checkUlogValid (addData msgId multiId name payload)).run p = .error fault q ∧
      q.dataCalls = p.dataCalls := by
  have hparse : (parse (addData msgId multiId name payload) 0).run p = _ := run_parse_add hb hname
  obtain ⟨q, hrun, hq⟩ | ⟨fault, q, hrun, hq⟩ := parseData_cases
    (addData msgId multiId name payload) (dataPos name + 3)
    (p.subscribe (subscriptionOf p.formats msgId multiId name))
  · cases hq with
    | unsubscribed hid hnone =>
      cases hid.symm.trans (msgId_data msgId multiId name payload)
      have hsome := lookup_subscribe p (subscriptionOf p.formats msgId multiId name)
      rw [show (subscriptionOf p.formats msgId multiId name).msgId = msgId from rfl, hnone] at hsome
      cases hsome
    | subscribed hid hsub hd =>
      cases hid.symm.trans (msgId_data msgId multiId name payload)
      obtain ⟨data, q', hcalls, -, hcalls', hrun⟩ := run_checkUlogValid_delivers hb hname hsub hd
      refine .inl ⟨data, _, hrun, ?_⟩
      calc q'.dataCalls = (p.dataCalls ++ [data]) ++ [data] := by rw [hcalls', hcalls]
        _ = p.dataCalls ++ [data, data] := List.append_assoc ..
  · rw [hrun] at hparse
    exact .inr ⟨fault, q, run_checkUlogValid_error hparse, hq.dataCalls⟩

/-- In whatever state records are taken, none is delivered exactly once. -/
theorem not_deliversOnce (hb : p.InBody) (hname : 3 + name.length < 2 ^ 16) :
    ¬ DeliversOnce p (addData msgId multiId name payload) := by
  have hends : (∃ data q, (checkUlogValid (addData msgId multiId name payload)).run p =
      .ok true q ∧ _) ∨ _ := checkUlogValid_add hb hname
  unfold DeliversOnce
  obtain ⟨data, q, hrun, hcalls⟩ | ⟨fault, q, hrun, hcalls⟩ := hends
  · simp [hrun, stateAfter, hcalls]
  · simp [hrun, stateAfter, hcalls]

end

theorem not_deliversOnce_oneType : ∃ p, Transition.run step .new oneType = some p ∧
    ¬ DeliversOnce p oneRecord.1 := by
  have hrun : (Transition.run step .new oneType).map (·.state) = some .definition := by
    decide +kernel
  obtain ⟨p, hp, hs⟩ := Option.map_eq_some_iff.mp hrun
  exact ⟨p, hp, not_deliversOnce (.inl hs) (by decide)⟩

/-- The first record of a type that is defined. -/
theorem oneRecord_twice : ¬ ∀ p msgId multiId name payload, Transition.Reachable step .new p →
    p.InBody → name ∈ p.formats → name.length ≤ 255 →
    DeliversOnce p (addData msgId multiId name payload) := by
  intro h
  have hrun : (Transition.run step .new oneType).map (fun p =>
      (p.state, p.formats.keys, decide (DeliversOnce p oneRecord.1))) =
      some (.definition, [ascii "T"], false) := by decide +kernel
  obtain ⟨p, hp, heq⟩ := Option.map_eq_some_iff.mp hrun
  simp only [Prod.mk.injEq, decide_eq_false_iff_not] at heq
  obtain ⟨hs, hkeys, hnot⟩ := heq
  exact hnot (h p 0 0 (ascii "T") _ ⟨oneType, hp⟩ (.inl hs)
    (AList.mem_keys.mpr (by simp [hkeys])) (by decide))

end Mutelemetry.Parse
