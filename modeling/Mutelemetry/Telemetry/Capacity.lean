import Mutelemetry.Telemetry.Encoders

/-!
# Capacity

Which calls keep inside their structs. A call is sound when it is refused and
enqueues nothing, or when every size it computed is exact and it enqueues whole
frames that the logger takes. `Fits` is the condition on the arguments alone.
-/

namespace Mutelemetry.Telemetry

open ByteString Checked Ulog

/-- One frame; an A and a D frame for `store_data`. -/
def Framed : Call → Bytes → Prop
  | .storeData .., m => ∃ a d, a.length < 2 ^ 16 ∧ d.length < 2 ^ 16 ∧ m = frame .A a ++ frame .D d
  | _, m => IsFrame m

def Sound (t : MuTelemetry) (c : Call) : EStateM.Result Stop Bool (Bool × MuTelemetry) → Prop
  | .error .assertion _ => True
  | .error .outOfBounds _ => False
  | .ok (false, t') _ => t'.logQueue = t.logQueue ∧ t'.netQueue = t.netQueue
  | .ok (true, t') exact => exact = true ∧ ∃ m, Framed c m ∧ m.length ≤ 4096 ∧
      t'.logQueue = (t.toIo m).logQueue ∧ t'.netQueue = (t.toIo m).netQueue

/-- `key_len_` is the length of the key, or the key is refused for its value. -/
def KeyFits (text : Bytes) (len : Nat) : Prop :=
  ¬ (256 ≤ text.length ∧ text.length < 2 ^ 31 ∧ text.length % 256 + len < 255)

instance : Decidable (KeyFits text len) := inferInstanceAs (Decidable (¬ _))

def Call.Fits : Call → Prop
  | .registerParamInt key _ | .registerParamFloat key _ => KeyFits (cstr key) 4
  | .registerInfo key value | .registerInfoMulti key value _ =>
    KeyFits (MuTelemetry.infoKey value.length key) value.length
  | .registerDataFormat typeName fields =>
    (MuTelemetry.formatText typeName fields).length ≤ 1500 ∨
      (cstr (MuTelemetry.formatText typeName fields)).length < 1500
  | .storeData data typeName _ _ => typeName.length % 2 ^ 32 ≤ 255 ∧
    (1500 < data.length ∨ typeName.length < 2 ^ 31 ∧ 8 ≤ data.length)
  | .storeMessage .. => True

section
variable {t : MuTelemetry} (ht : t.isEnabled = true)
include ht

theorem sound_keyed (type : ULogMessageType) (hflags : flags.length ≤ 1) (text value : Bytes)
    (hc : ∀ m, IsFrame m → Framed c m) :
    Sound t c ((t.registerKeyed type flags text value).run true) ↔ KeyFits text value.length := by
  rw [MuTelemetry.run_registerKeyed ht hflags]
  have hlen := MuTelemetry.toNat_printedLen text
  unfold KeyFits
  by_cases hroom : (MuTelemetry.printedLen text).toNat + value.length < 255
  · rw [if_pos hroom]
    have hle := MuTelemetry.printedLen_le (show (MuTelemetry.printedLen text).toNat < 255 by omega)
    constructor
    · rintro ⟨hexact, -⟩ ⟨hlong, -⟩
      simp only [Bool.true_and, decide_eq_true_eq] at hexact
      omega
    · intro hfits
      have hshort : text.length < 256 := by
        rw [hlen] at hroom
        split at hroom <;> omega
      refine ⟨by simpa using hshort, _, hc _ ⟨type, _, ?_, rfl⟩, ?_, rfl, rfl⟩
      · simp only [List.length_append, List.length_singleton, List.length_take]
        omega
      · simp only [length_frame, List.length_append, List.length_singleton, List.length_take]
        omega
  · rw [if_neg hroom]
    refine ⟨fun _ ⟨_, hint, hsmall⟩ => hroom ?_, fun _ => ⟨rfl, rfl⟩⟩
    rwa [hlen, if_pos hint]

theorem sound_registerDataFormat (typeName fields : Bytes) :
    Sound t (.registerDataFormat typeName fields)
      ((t.registerDataFormat typeName fields).run true) ↔
    (Call.registerDataFormat typeName fields).Fits := by
  rw [MuTelemetry.run_registerDataFormat ht, Call.Fits]
  generalize hf : MuTelemetry.formatText typeName fields = format
  by_cases hfit : format.length ≤ 1500 ∨ (cstr format).length < 1500
  · rw [if_pos hfit]
    refine iff_of_true ?_ hfit
    by_cases hnul : 0 ∈ format
    · rw [if_pos hnul]
      trivial
    · rw [if_neg hnul]
      rw [cstr_eq_self hnul] at hfit
      have hlen : (MuTelemetry.printedFormat format).length ≤ 1500 := by
        simp only [MuTelemetry.printedFormat, List.length_append, List.length_take,
          List.length_singleton]
        omega
      refine ⟨rfl, _, ⟨.F, _, by omega, rfl⟩, ?_, rfl, rfl⟩
      rw [length_frame]
      omega
  · rw [if_neg hfit]
    exact iff_of_false id hfit

theorem sound_storeMessage (message : Bytes) (level : ULogLevel) (timestamp : UInt64) :
    Sound t (.storeMessage message level timestamp)
      ((t.storeMessage message level timestamp).run true) := by
  rw [MuTelemetry.run_storeMessage ht]
  have hle := length_cstr_le message
  split
  · refine ⟨rfl, _, ⟨.L, _, ?_, rfl⟩, ?_, rfl, rfl⟩
    · simp only [List.length_append, List.length_singleton, length_leBytes]
      omega
    · simp only [length_frame, List.length_append, List.length_singleton, length_leBytes]
      omega
  · exact ⟨rfl, rfl⟩

theorem sound_storeDataIntl (data typeName annotation : Bytes) (timestamp : UInt64) :
    Sound t (.storeData data typeName annotation timestamp)
      ((t.storeDataIntl data typeName annotation timestamp).run true) ↔
    (Call.storeData data typeName annotation timestamp).Fits := by
  rw [Call.Fits, ← MuTelemetry.nameLen_le_iff]
  by_cases hname : MuTelemetry.nameLen typeName ≤ 255
  · rw [MuTelemetry.run_storeDataIntl ht data typeName annotation timestamp hname]
    by_cases hmax : 1500 < data.length
    · rw [if_pos hmax]
      exact iff_of_true ⟨rfl, rfl⟩ ⟨hname, .inl hmax⟩
    · rw [if_neg hmax]
      by_cases hmin : data.length < 8
      · rw [if_pos hmin]
        exact iff_of_false id (by omega)
      · rw [if_neg hmin]
        constructor
        · rintro ⟨hexact, -⟩
          exact ⟨hname, .inr ⟨by simpa using hexact, by omega⟩⟩
        · rintro ⟨-, hd | ⟨hlong, -⟩⟩
          · omega
          · refine ⟨by simpa using hlong, _, ⟨_, _, ?_, ?_, rfl⟩, ?_, rfl, rfl⟩
            · simp only [List.length_append, List.length_singleton, length_leBytes,
                List.length_take]
              omega
            · simp only [List.length_append, length_leBytes, List.length_drop]
              omega
            · simp only [List.length_append, length_frame, List.length_singleton,
                length_leBytes, List.length_take, List.length_drop]
              omega
  · rw [MuTelemetry.run_storeDataIntl_of_lt ht data typeName annotation timestamp (by omega)]
    exact iff_of_false id (fun h => hname h.1)

/-- A call keeps inside its struct and frames exactly if and only if its
arguments fit. -/
theorem call_sound_iff (c : Call) : Sound t c ((t.call c).run true) ↔ c.Fits := by
  cases c with
  | registerParamInt key value => exact sound_keyed ht .P (by simp) _ _ fun _ h => h
  | registerParamFloat key value => exact sound_keyed ht .P (by simp) _ _ fun _ h => h
  | registerInfo key value => exact sound_keyed ht .I (by simp) _ _ fun _ h => h
  | registerInfoMulti key value isContinued => exact sound_keyed ht .M (by simp) _ _ fun _ h => h
  | registerDataFormat typeName fields => exact sound_registerDataFormat ht typeName fields
  | storeData data typeName annotation timestamp =>
    exact sound_storeDataIntl ht data typeName annotation timestamp
  | storeMessage message level timestamp =>
    exact iff_of_true (sound_storeMessage ht message level timestamp) trivial

end

theorem call_sound_iff_int32 :
    Sound (.new true false 0) (.registerParamInt (ascii "int32_t gain") 5)
        (((MuTelemetry.new true false 0).call (.registerParamInt (ascii "int32_t gain") 5)).run
          true) ↔
      (Call.registerParamInt (ascii "int32_t gain") 5).Fits :=
  call_sound_iff rfl _

/-- Data without room for a timestamp: `data.size() - len` wraps. -/
theorem storeData_empty : ¬ ∀ (t : MuTelemetry) (c : Call), t.isEnabled = true →
    Sound t c ((t.call c).run true) := by
  simp only [not_forall]
  refine ⟨.new true false 0, .storeData [] (ascii "imu") [] 0, rfl, ?_⟩
  rw [MuTelemetry.call, sound_storeDataIntl rfl]
  simp [Call.Fits]

end Mutelemetry.Telemetry
