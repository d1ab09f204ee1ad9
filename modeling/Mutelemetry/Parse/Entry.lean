import Mutelemetry.Parse.Grammar
import Mutelemetry.Parse.Split

/-!
# Entries

What `parse` adds for an I or a P message that it accepts. Before the body both
are rejected; in it the state is kept.
-/

namespace Mutelemetry.Parse

open ByteString Stateful Ulog

-- ---------------------------------------------------------------------------
-- Messages of the body
-- ---------------------------------------------------------------------------

section
variable {p q : MutelemetryParser} {m : Bytes}

theorem Rejects.not_accepted (h : Rejects p m) : (parse m 0).run p ≠ .ok true q := by
  obtain ⟨q', hrun, -⟩ | ⟨fault, q', -, hrun⟩ := h
  · simp [hrun]
  · simp [hrun]

/-- Before the body only the file header and a B message are accepted. -/
theorem inBody_of_parse (ht : headerType m 0 = .ok (some t)) (hne : t ≠ .B)
    (h : (parse m 0).run p = .ok true q) : p.InBody := by
  cases hs : p.state with
  | header => exact absurd h (rejects_header hs ht).not_accepted
  | flags =>
    exact absurd h (rejects_flags hs (flagsState_other ht (by simpa using hne))).not_accepted
  | definition => exact .inl hs
  | definitionOrData => exact .inr hs
  | invalid =>
    rw [run_parse, hs, handle] at h
    cases h

/-- `info_` with an entry; one that its key has is kept. -/
def MutelemetryParser.addInfo (p : MutelemetryParser) (key value : Bytes) : MutelemetryParser :=
  { p with info := if key ∈ p.info then p.info else p.info.insert key value }

theorem parse_info_iff (ht : headerType m 0 = .ok (some .I)) (hsize : headerSize m 0 = .ok size) :
    (parse m 0).run p = .ok true q ↔
      p.InBody ∧ ∃ key value, infoEntry m 3 size = .ok (key, value) ∧ q = p.addInfo key value := by
  constructor
  · intro h
    have hb := inBody_of_parse ht (by simp) h
    rw [run_parse_I hb ht hsize, Nat.zero_add, run_parseInfo] at h
    refine ⟨hb, ?_⟩
    cases he : infoEntry m 3 size with
    | error fault =>
      rw [he] at h
      cases h
    | ok e =>
      simp only [he, settle, EStateM.Result.ok.injEq] at h
      exact ⟨e.1, e.2, rfl, h.2.symm⟩
  · rintro ⟨hb, key, value, he, rfl⟩
    rw [run_parse_I hb ht hsize, Nat.zero_add, run_parseInfo, he]
    simp [settle, hb.ne_invalid, MutelemetryParser.addInfo]

theorem parse_param_iff (ht : headerType m 0 = .ok (some .P)) : (parse m 0).run p = .ok true q ↔
    p.InBody ∧ ∃ param, readParameter m 3 = .ok (some param) ∧
      q = { p with parameters := p.parameters ++ [param] } := by
  constructor
  · intro h
    have hb := inBody_of_parse ht (by simp) h
    rw [run_parse_P hb ht, Nat.zero_add, run_parseParam] at h
    refine ⟨hb, ?_⟩
    cases hr : readParameter m 3 with
    | error fault =>
      rw [hr] at h
      cases h
    | ok param =>
      rw [hr] at h
      cases param with
      | none => cases h
      | some param =>
        simp only [settle, EStateM.Result.ok.injEq] at h
        exact ⟨param, rfl, h.2.symm⟩
  · rintro ⟨hb, param, hr, rfl⟩
    rw [run_parse_P hb ht, Nat.zero_add, run_parseParam, hr]
    simp [settle, hb.ne_invalid]

theorem lookup_addInfo_self (value : Bytes) (h : key ∉ p.info) :
    (p.addInfo key value).info.lookup key = some value := by
  simp [MutelemetryParser.addInfo, h]

theorem lookup_addInfo_of_ne (p : MutelemetryParser) (value : Bytes) (h : name ≠ key) :
    (p.addInfo key value).info.lookup name = p.info.lookup name := by
  unfold MutelemetryParser.addInfo
  by_cases hmem : key ∈ p.info
  · simp [hmem]
  · simp [hmem, AList.lookup_insert_ne h]

end

end Mutelemetry.Parse
