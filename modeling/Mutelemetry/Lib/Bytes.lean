import Mathlib.Algebra.Group.Int.Defs
import Mathlib.Algebra.Group.Nat.Defs
import Mathlib.Data.List.Basic
import Mathlib.Data.List.TakeWhile

/-!
# Byte strings

A C++ `std::string`, a buffer and a struct's storage are all lists of bytes
here. The module has the fixed-width little-endian integers, windows read from
a buffer and laid over one, text literals and decimal numerals.
-/

namespace ByteString

abbrev Bytes := List UInt8

def charByte (c : Char) : UInt8 := UInt8.ofNat c.toNat

def ascii (s : String) : Bytes := s.toList.map charByte

-- ---------------------------------------------------------------------------
-- Little-endian integers
-- ---------------------------------------------------------------------------

def leBytes : (width value : Nat) → Bytes
  | 0, _ => []
  | width + 1, value => UInt8.ofNat (value % 256) :: leBytes width (value / 256)

def leNat : Bytes → Nat
  | [] => 0
  | b :: bs => b.toNat + 256 * leNat bs

@[simp] theorem length_leBytes (width value : Nat) : (leBytes width value).length = width := by
  induction width generalizing value with
  | zero => rfl
  | succ width ih => simp [leBytes, ih]

theorem leNat_leBytes (width value : Nat) :
    leNat (leBytes width value) = value % 256 ^ width := by
  induction width generalizing value with
  | zero => simp [leBytes, leNat, Nat.mod_one]
  | succ width ih =>
    have hb : (UInt8.ofNat (value % 256)).toNat = value % 256 := by
      simp [UInt8.toNat_ofNat']
    rw [leBytes, leNat, ih, hb, Nat.pow_succ', Nat.mod_mul]

theorem leNat_leBytes_of_lt (h : value < 256 ^ width) : leNat (leBytes width value) = value := by
  rw [leNat_leBytes, Nat.mod_eq_of_lt h]

theorem leBytes_leNat (bs : Bytes) : leBytes bs.length (leNat bs) = bs := by
  induction bs with
  | nil => rfl
  | cons b bs ih =>
    have hb := b.toNat_lt
    have hlow : (b.toNat + 256 * leNat bs) % 256 = b.toNat := by omega
    have hhigh : (b.toNat + 256 * leNat bs) / 256 = leNat bs := by omega
    rw [List.length_cons, leNat, leBytes, hlow, hhigh, ih, UInt8.ofNat_toNat]

theorem leBytes_eq_iff (hlen : bs.length = width) (h : n < 256 ^ width) :
    leBytes width n = bs ↔ leNat bs = n := by
  constructor
  · intro hbs
    rw [← hbs, leNat_leBytes_of_lt h]
  · rintro rfl
    rw [← hlen, leBytes_leNat]

theorem leNat_lt (bs : Bytes) : leNat bs < 256 ^ bs.length := by
  induction bs with
  | nil => decide
  | cons b bs ih =>
    have hb := b.toNat_lt
    rw [leNat, List.length_cons, Nat.pow_succ]
    omega

@[simp] theorem ofNat_leNat_uint8 (x : UInt8) : UInt8.ofNat (leNat (leBytes 1 x.toNat)) = x := by
  rw [leNat_leBytes_of_lt (by simpa using x.toNat_lt), UInt8.ofNat_toNat]

@[simp] theorem ofNat_leNat_uint16 (x : UInt16) :
    UInt16.ofNat (leNat (leBytes 2 x.toNat)) = x := by
  rw [leNat_leBytes_of_lt (by simpa using x.toNat_lt), UInt16.ofNat_toNat]

@[simp] theorem ofNat_leNat_uint32 (x : UInt32) :
    UInt32.ofNat (leNat (leBytes 4 x.toNat)) = x := by
  rw [leNat_leBytes_of_lt (by simpa using x.toNat_lt), UInt32.ofNat_toNat]

@[simp] theorem ofNat_leNat_uint64 (x : UInt64) :
    UInt64.ofNat (leNat (leBytes 8 x.toNat)) = x := by
  rw [leNat_leBytes_of_lt (by simpa using x.toNat_lt), UInt64.ofNat_toNat]

-- ---------------------------------------------------------------------------
-- Windows
-- ---------------------------------------------------------------------------

/-- The `n` bytes at `pos`, when they lie inside the buffer. -/
def window (buf : Bytes) (pos n : Nat) : Option Bytes :=
  if pos + n ≤ buf.length then some ((buf.drop pos).take n) else none

theorem window_append (pre mid post : Bytes) :
    window (pre ++ (mid ++ post)) pre.length mid.length = some mid := by
  simp [window]

theorem window_eq_some {buf bs : Bytes} (h : window buf pos n = some bs) :
    pos + n ≤ buf.length ∧ bs = (buf.drop pos).take n ∧ bs.length = n := by
  unfold window at h
  split at h
  · cases h
    refine ⟨by assumption, rfl, ?_⟩
    rw [List.length_take, List.length_drop]
    omega
  · cases h

theorem window_isSome {buf : Bytes} (h : pos + n ≤ buf.length) :
    window buf pos n = some ((buf.drop pos).take n) := if_pos h

/-- `src` laid over the bytes of `buf` from `pos` on, when it fits. -/
def overlay (buf : Bytes) (pos : Nat) (src : Bytes) : Option Bytes :=
  if pos + src.length ≤ buf.length then
    some (buf.take pos ++ (src ++ buf.drop (pos + src.length)))
  else none

theorem overlay_of_le {buf src : Bytes} (h : pos + src.length ≤ buf.length) :
    overlay buf pos src = some (buf.take pos ++ (src ++ buf.drop (pos + src.length))) := if_pos h

theorem overlay_of_lt {buf src : Bytes} (h : buf.length < pos + src.length) :
    overlay buf pos src = none := if_neg (by omega)

-- ---------------------------------------------------------------------------
-- Text
-- ---------------------------------------------------------------------------

/-- What `c_str()` shows of a string: everything before its first NUL. -/
def cstr (s : Bytes) : Bytes := s.takeWhile (· ≠ 0)

theorem length_cstr_le (s : Bytes) : (cstr s).length ≤ s.length :=
  (List.takeWhile_prefix _).length_le

theorem zero_notMem_cstr (s : Bytes) : 0 ∉ cstr s := by
  intro h
  simpa using List.mem_takeWhile_imp h

theorem cstr_eq_self {s : Bytes} (h : 0 ∉ s) : cstr s = s := by
  refine List.takeWhile_eq_self_iff.mpr fun b hb => ?_
  have hne : b ≠ 0 := fun h0 => h (h0 ▸ hb)
  simpa using hne

theorem length_cstr_lt {s : Bytes} (h : 0 ∈ s) : (cstr s).length < s.length := by
  refine lt_of_le_of_ne (length_cstr_le s) fun he => ?_
  have hs : cstr s = s := (List.takeWhile_prefix _).eq_of_length he
  exact zero_notMem_cstr s (hs.symm ▸ h)

def decimal (n : Nat) : Bytes := (Nat.toDigits 10 n).map charByte

def decimal02 (n : Nat) : Bytes := if n < 10 then charByte '0' :: decimal n else decimal n

def digitValue (d : UInt8) : Nat := if d.toNat < 58 then d.toNat - 48 else d.toNat - 87

def numeral (b : Nat) (digits : Bytes) : Nat := digits.foldl (fun n d => b * n + digitValue d) 0

theorem digitValue_digitChar : ∀ d < 16, digitValue (charByte (Nat.digitChar d)) = d := by decide

theorem numeral_toDigits (hb : 1 < b) (hb' : b ≤ 16) (n : Nat) :
    numeral b ((Nat.toDigits b n).map charByte) = n := by
  induction n using Nat.strongRecOn with
  | ind n ih =>
    by_cases hn : n < b
    · rw [Nat.toDigits_of_lt_base hn]
      simp [numeral, digitValue_digitChar n (by omega)]
    · have hdiv : n / b < n := Nat.div_lt_self (by omega) hb
      have hmod : n % b < b := Nat.mod_lt _ (by omega)
      have hlast := digitValue_digitChar (n % b) (by omega)
      have hrec := ih _ hdiv
      unfold numeral at hrec
      rw [Nat.toDigits_of_base_le hb (by omega), List.map_append, numeral, List.foldl_append, hrec]
      simpa [hlast] using Nat.div_add_mod n b

theorem numeral_zeros (b k : Nat) (digits : Bytes) :
    numeral b (List.replicate k (charByte '0') ++ digits) = numeral b digits := by
  induction k with
  | zero => rfl
  | succ k ih =>
    rw [List.replicate_succ, List.cons_append, numeral, List.foldl_cons, Nat.mul_zero, Nat.zero_add]
    exact ih

theorem numeral_decimal (n : Nat) : numeral 10 (decimal n) = n :=
  numeral_toDigits (by decide) (by decide) n

theorem decimal_inj : decimal m = decimal n ↔ m = n := by
  constructor
  · intro h
    rw [← numeral_decimal m, h, numeral_decimal]
  · rintro rfl
    rfl

theorem numeral_decimal02 (n : Nat) : numeral 10 (decimal02 n) = n := by
  unfold decimal02
  split
  · exact (numeral_zeros 10 1 (decimal n)).trans (numeral_decimal n)
  · exact numeral_decimal n

theorem decimal02_inj : decimal02 m = decimal02 n ↔ m = n := by
  constructor
  · intro h
    rw [← numeral_decimal02 m, h, numeral_decimal02]
  · rintro rfl
    rfl

theorem decimal_ne_nil (n : Nat) : decimal n ≠ [] := by
  simp [decimal, Nat.toDigits_ne_nil]

theorem digit_of_mem_decimal (h : b ∈ decimal n) : 48 ≤ b.toNat ∧ b.toNat ≤ 57 := by
  obtain ⟨c, hc, rfl⟩ := List.mem_map.mp h
  have hdigit := Char.isDigit_iff_toNat.mp (Nat.isDigit_of_mem_toDigits (by decide) (by decide) hc)
  have hzero : '0'.toNat = 48 := rfl
  have hnine : '9'.toNat = 57 := rfl
  rw [charByte, UInt8.toNat_ofNat_of_lt' (show c.toNat < 256 by omega)]
  omega

theorem notMem_decimal02 (h : b.toNat < 48 ∨ 57 < b.toNat) : b ∉ decimal02 n := by
  have hdecimal : b ∉ decimal n := fun hmem => by
    have := digit_of_mem_decimal hmem
    omega
  unfold decimal02
  split
  · rw [List.mem_cons, not_or]
    refine ⟨?_, hdecimal⟩
    rintro rfl
    exact absurd h (by decide)
  · exact hdecimal

section
variable {s : Bytes} (h : b ∉ s) (rest : Bytes)
include h

theorem takeWhile_of_notMem : (s ++ b :: rest).takeWhile (· ≠ b) = s := by
  have hall : ∀ c ∈ s, decide (c ≠ b) = true := by
    intro c hc
    simpa using fun heq : c = b => h (heq ▸ hc)
  rw [List.takeWhile_append_of_pos hall]
  simp

theorem dropWhile_of_notMem : (s ++ b :: rest).dropWhile (· ≠ b) = b :: rest := by
  have hall : ∀ c ∈ s, decide (c ≠ b) = true := by
    intro c hc
    simpa using fun heq : c = b => h (heq ▸ hc)
  rw [List.dropWhile_append_of_pos hall]
  simp

end

theorem takeWhile_eq_self_iff {s : Bytes} : s = s.takeWhile (· ≠ b) ↔ b ∉ s := by
  rw [eq_comm, List.takeWhile_eq_self_iff]
  constructor
  · intro h hmem
    simpa using h b hmem
  · intro h c hc
    simpa using fun heq : c = b => h (heq ▸ hc)

theorem flatMap_cons_eq_intercalate (d : α) (segments : List (List α)) :
    segments.flatMap (d :: ·) = [d].intercalate ([] :: segments) := by
  induction segments with
  | nil => rfl
  | cons s segments ih =>
    rw [List.flatMap_cons, ih, List.intercalate_cons_cons]
    cases segments with
    | nil => simp
    | cons t segments => simp [List.intercalate_cons_cons]

/-- Segments, each behind a delimiter that none of them has, can be read back. -/
theorem flatMap_cons_inj [BEq α] [LawfulBEq α] {segments segments' : List (List α)}
    (h : ∀ s ∈ segments, d ∉ s) (h' : ∀ s ∈ segments', d ∉ s)
    (heq : segments.flatMap (d :: ·) = segments'.flatMap (d :: ·)) : segments = segments' := by
  rw [flatMap_cons_eq_intercalate, flatMap_cons_eq_intercalate] at heq
  have hsplit := congrArg (List.splitOn d) heq
  rw [List.splitOn_intercalate d (by simpa using h) (by simp),
    List.splitOn_intercalate d (by simpa using h') (by simp)] at hsplit
  exact List.tail_eq_of_cons_eq hsplit

theorem eq_of_append_eq {a b s t : Bytes} (hs : d ∉ s) (ht : d ∉ t)
    (h : a ++ d :: s = b ++ d :: t) : a = b := by
  obtain ⟨c, hb, hrest⟩ | ⟨c, ha, hrest⟩ := List.append_eq_append_iff.mp h
  · cases c with
    | nil => rw [hb, List.append_nil]
    | cons x c =>
      obtain ⟨-, rfl⟩ := List.cons.inj hrest
      simp at hs
  · cases c with
    | nil => rw [ha, List.append_nil]
    | cons x c =>
      obtain ⟨-, rfl⟩ := List.cons.inj hrest
      simp at ht

theorem length_decimal_le_iff (h : 0 < k) : (decimal n).length ≤ k ↔ n < 10 ^ k := by
  rw [decimal, List.length_map]
  exact Nat.length_toDigits_le_iff (by decide) h

end ByteString
