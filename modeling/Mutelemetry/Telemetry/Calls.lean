import Mutelemetry.Lib.Transition
import Mutelemetry.Telemetry.Encoders

/-!
# Sequences of calls

What a call that returns true enqueues, and what a sequence of such calls does.
-/

namespace Mutelemetry.Telemetry

open ByteString Checked Ulog

def Call.isData : Call → Bool
  | .storeData .. => true
  | _ => false

def Call.messageLength : Call → Nat
  | .registerParamInt key _ | .registerParamFloat key _ =>
    4 + (MuTelemetry.printedLen (cstr key)).toNat + 4
  | .registerInfo key value =>
    4 + (MuTelemetry.printedLen (MuTelemetry.infoKey value.length key)).toNat + value.length
  | .registerInfoMulti key value _ =>
    5 + (MuTelemetry.printedLen (MuTelemetry.infoKey value.length key)).toNat + value.length
  | .registerDataFormat typeName fields => 3 + (MuTelemetry.formatText typeName fields).length
  | .storeData data typeName _ _ => 6 + MuTelemetry.nameLen typeName + (5 + data.length)
  | .storeMessage message _ _ => 12 + (cstr message).length

namespace MuTelemetry

def accept (t : MuTelemetry) (c : Call) : Option MuTelemetry :=
  match (t.call c).run true with
  | .ok (true, t') _ => some t'
  | _ => none

def keyedBody (flags text value : Bytes) : Bytes :=
  flags ++ ([printedLen text] ++ (text.take (printedLen text).toNat ++ value))

/-- The message a call enqueues, and the instance whose identifiers it uses. -/
inductive Enqueues (t : MuTelemetry) : Call → Bytes → MuTelemetry → Prop
  | paramInt : (printedLen (cstr key)).toNat + 4 < 255 →
    Enqueues t (.registerParamInt key value)
      (frame .P (keyedBody [] (cstr key) (leBytes 4 value.toUInt32.toNat))) t
  | paramFloat : (printedLen (cstr key)).toNat + 4 < 255 →
    Enqueues t (.registerParamFloat key value)
      (frame .P (keyedBody [] (cstr key) (leBytes 4 value.toBits.toNat))) t
  | info {value : Bytes} : (printedLen (infoKey value.length key)).toNat + value.length < 255 →
    Enqueues t (.registerInfo key value)
      (frame .I (keyedBody [] (infoKey value.length key) value)) t
  | infoMulti {value : Bytes} : (printedLen (infoKey value.length key)).toNat + value.length < 255 →
    Enqueues t (.registerInfoMulti key value isContinued)
      (frame .M (keyedBody [if isContinued then 1 else 0] (infoKey value.length key) value)) t
  | dataFormat : (formatText typeName fields).length ≤ 1500 → 0 ∉ formatText typeName fields →
    Enqueues t (.registerDataFormat typeName fields)
      (frame .F (printedFormat (formatText typeName fields))) t
  | data {msgId : UInt16} {multiId : UInt8} {data : Bytes} : nameLen typeName ≤ 255 →
    8 ≤ data.length → data.length ≤ 1500 → t.identify typeName annotation = (msgId, multiId, t') →
    Enqueues t (.storeData data typeName annotation timestamp)
      (record msgId multiId (typeName.take (nameLen typeName)) timestamp (data.drop 8)) t'
  | message {message : Bytes} : message.length < 1500 →
    Enqueues t (.storeMessage message level timestamp)
      (frame .L ([level.code] ++ (leBytes 8 timestamp.toNat ++ cstr message))) t

inductive Emits : MuTelemetry → List Call → List Bytes → MuTelemetry → Prop
  | nil : Emits t [] [] t
  | cons : Enqueues t c m t₁ → Emits (t₁.toIo m) cs ms t' → Emits t (c :: cs) (m :: ms) t'

variable {t : MuTelemetry} {flags value : Bytes}

theorem run_registerKeyed_ok (ht : t.isEnabled = true) (hflags : flags.length ≤ 1)
    (h : (t.registerKeyed type flags text value).run e = .ok (true, t') e') :
    (printedLen text).toNat + value.length < 255 ∧
      t' = t.toIo (frame type (keyedBody flags text value)) := by
  rw [run_registerKeyed ht hflags] at h
  split at h
  · rename_i hroom
    cases h
    exact ⟨hroom, rfl⟩
  · cases h

theorem accept_eq_some : t.accept c = some t' ↔ ∃ e, (t.call c).run true = .ok (true, t') e := by
  unfold accept
  split
  · rename_i h
    simp [h]
  · rename_i h
    simp only [reduceCtorEq, false_iff, not_exists]
    exact h t'

theorem accept_enqueues (ht : t.isEnabled = true) (h : t.accept c = some t') :
    ∃ m t₁, Enqueues t c m t₁ ∧ t' = t₁.toIo m := by
  obtain ⟨e, h⟩ := accept_eq_some.mp h
  cases c with
  | registerParamInt key value =>
    obtain ⟨hroom, rfl⟩ := run_registerKeyed_ok ht (by simp) h
    exact ⟨_, t, .paramInt (by simpa using hroom), rfl⟩
  | registerParamFloat key value =>
    obtain ⟨hroom, rfl⟩ := run_registerKeyed_ok ht (by simp) h
    exact ⟨_, t, .paramFloat (by simpa using hroom), rfl⟩
  | registerInfo key value =>
    obtain ⟨hroom, rfl⟩ := run_registerKeyed_ok ht (by simp) h
    exact ⟨_, t, .info hroom, rfl⟩
  | registerInfoMulti key value isContinued =>
    obtain ⟨hroom, rfl⟩ := run_registerKeyed_ok ht (by simp) h
    exact ⟨_, t, .infoMulti hroom, rfl⟩
  | registerDataFormat typeName fields =>
    rw [call, run_registerDataFormat ht] at h
    split at h
    · rename_i hfits
      split at h
      · cases h
      · rename_i hnul
        cases h
        rw [cstr_eq_self hnul] at hfits
        exact ⟨_, t, .dataFormat (by omega) hnul, rfl⟩
    · cases h
  | storeData data typeName annotation timestamp =>
    by_cases hname : nameLen typeName ≤ 255
    · rw [call, run_storeDataIntl ht data typeName annotation timestamp hname] at h
      split at h
      · cases h
      · split at h
        · cases h
        · cases h
          exact ⟨_, _, .data hname (by omega) (by omega) rfl, rfl⟩
    · rw [call, run_storeDataIntl_of_lt ht data typeName annotation timestamp (by omega)] at h
      cases h
  | storeMessage message level timestamp =>
    rw [call, run_storeMessage ht] at h
    split at h
    · rename_i hlen
      cases h
      exact ⟨_, t, .message hlen, rfl⟩
    · cases h

-- ---------------------------------------------------------------------------
-- Sequences
-- ---------------------------------------------------------------------------

theorem netQueue_toIo (ht : t.withNetwork = true) (m : Bytes) :
    (t.toIo m).netQueue = t.netQueue ++ [m] := by
  simp [toIo, ht]

theorem Enqueues.same (h : Enqueues t c m t₁) :
    t₁.withNetwork = t.withNetwork ∧ t₁.netQueue = t.netQueue ∧ (c.isData = false → t₁ = t) := by
  cases h with
  | data _ _ _ hid =>
    simp only [identify, getMsgId, getMultiId, Prod.mk.injEq] at hid
    obtain ⟨-, -, rfl⟩ := hid
    exact ⟨rfl, rfl, by simp [Call.isData]⟩
  | paramInt | paramFloat | info | infoMulti | dataFormat | message =>
    exact ⟨rfl, rfl, fun _ => rfl⟩

theorem Emits.withNetwork (h : Emits t cs ms t') : t'.withNetwork = t.withNetwork := by
  induction h with
  | nil => rfl
  | cons hm _ ih => exact ih.trans hm.same.1

theorem Emits.enqueues (h : Emits t cs ms t') (hc : c ∈ cs) : ∃ t m t', Enqueues t c m t' := by
  induction h with
  | nil => cases hc
  | cons hm _ ih =>
    obtain rfl | hc := List.mem_cons.mp hc
    · exact ⟨_, _, _, hm⟩
    · exact ih hc

theorem Emits.identifiers (h : Emits t cs ms t') (hcs : ∀ c ∈ cs, c.isData = false) :
    t'.msgId = t.msgId ∧ t'.multiId = t.multiId := by
  induction h with
  | nil => exact ⟨rfl, rfl⟩
  | cons hm _ ih =>
    rw [List.forall_mem_cons] at hcs
    rw [hm.same.2.2 hcs.1] at ih
    exact ih hcs.2

theorem emits_of_run (ht : t.withNetwork = true) (h : Transition.run accept t cs = some t') :
    ∃ ms, Emits t cs ms t' ∧ t'.netQueue = t.netQueue ++ ms := by
  induction cs generalizing t with
  | nil =>
    cases h
    exact ⟨[], .nil, by simp⟩
  | cons c cs ih =>
    obtain ⟨t₂, hc, h⟩ := Transition.run_cons.mp h
    obtain ⟨m, t₁, hm, rfl⟩ := accept_enqueues (by simp [isEnabled, ht]) hc
    obtain ⟨hn, hq, -⟩ := hm.same
    rw [ht] at hn
    obtain ⟨ms, hms, hnet⟩ := ih (show (t₁.toIo m).withNetwork = true from hn) h
    refine ⟨m :: ms, .cons hm hms, ?_⟩
    rw [hnet, netQueue_toIo hn, hq]
    simp

theorem netQueue_createHeaderAndFlags (withLocalLog : Bool) (timestamp : UInt64) :
    (MuTelemetry.new true withLocalLog timestamp).createHeaderAndFlags.netQueue =
      [fileHeader timestamp, frame .B (zeros 40)] := rfl

theorem Enqueues.not_dataBegin (h : Enqueues t c m t₁) (hc : c.isData = false) :
    checkUlogDataBegin m = false := by
  cases h with
  | data => cases hc
  | paramInt | paramFloat | info | infoMulti | dataFormat | message =>
    rw [← List.append_nil (frame _ _), checkUlogDataBegin_frame]
    rfl

theorem length_keyedBody (h : (printedLen text).toNat + n < 255) :
    (keyedBody flags text value).length =
      flags.length + 1 + (printedLen text).toNat + value.length := by
  have hle : (printedLen text).toNat ≤ text.length := printedLen_le (by omega)
  simp only [keyedBody, List.length_append, List.length_take, List.length_singleton]
  omega

theorem Enqueues.length (h : Enqueues t c m t') : m.length = c.messageLength := by
  cases h with
  | paramInt hroom | paramFloat hroom =>
    rw [length_frame, length_keyedBody hroom, length_leBytes, Call.messageLength, List.length_nil]
    omega
  | info hroom | infoMulti hroom =>
    rw [length_frame, length_keyedBody hroom, Call.messageLength]
    simp only [List.length_nil, List.length_singleton]
    omega
  | @dataFormat typeName fields =>
    have hpos := length_formatText typeName fields
    rw [length_frame, length_printedFormat (by omega), Call.messageLength]
  | data hname hmin =>
    have hle := nameLen_le hname
    simp only [Call.messageLength, record, List.length_append, length_frame,
      List.length_singleton, length_leBytes, List.length_take, List.length_drop]
    omega
  | message =>
    simp only [Call.messageLength, length_frame, List.length_append, List.length_singleton,
      length_leBytes]
    omega

end MuTelemetry

end Mutelemetry.Telemetry
