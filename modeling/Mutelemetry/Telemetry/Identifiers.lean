import Mathlib.Data.Finset.Card
import Mutelemetry.Telemetry.Calls

/-!
# Identifiers

`get_id` numbers the names in the order they first come in, and the counter
wraps with its type.
-/

namespace Mutelemetry.Telemetry

open ByteString Ulog

-- ---------------------------------------------------------------------------
-- Names in the order they come in
-- ---------------------------------------------------------------------------

def enter (names : List Bytes) (name : Bytes) : List Bytes :=
  if name ∈ names then names else names ++ [name]

def entered (names more : List Bytes) : List Bytes := more.foldl enter names

section
variable {names : List Bytes}

theorem mem_enter : n ∈ enter names name ↔ n ∈ names ∨ n = name := by
  unfold enter
  split
  · rename_i h
    exact ⟨.inl, fun hn => hn.elim id fun heq => heq ▸ h⟩
  · simp

theorem prefix_enter (names : List Bytes) (name : Bytes) : names <+: enter names name := by
  unfold enter
  split
  · exact List.prefix_rfl
  · exact List.prefix_append _ _

theorem nodup_enter (h : names.Nodup) (name : Bytes) : (enter names name).Nodup := by
  unfold enter
  split
  · exact h
  · rename_i hn
    exact h.append (List.nodup_singleton _) (by simpa using hn)

theorem entered_cons : entered names (name :: more) = entered (enter names name) more := rfl

theorem prefix_entered (names more : List Bytes) : names <+: entered names more := by
  induction more generalizing names with
  | nil => exact List.prefix_rfl
  | cons name more ih => exact (prefix_enter names name).trans (ih _)

theorem mem_entered : n ∈ entered names more ↔ n ∈ names ∨ n ∈ more := by
  induction more generalizing names with
  | nil => simp [entered]
  | cons name more ih =>
    rw [entered_cons, ih, mem_enter, List.mem_cons, or_assoc]

theorem nodup_entered (h : names.Nodup) (more : List Bytes) : (entered names more).Nodup := by
  induction more generalizing names with
  | nil => exact h
  | cons name more ih => exact ih (nodup_enter h name)

theorem length_entered (more : List Bytes) : (entered [] more).length = more.toFinset.card := by
  rw [← List.toFinset_card_of_nodup (nodup_entered List.nodup_nil more)]
  congr 1
  ext n
  simp [mem_entered]

theorem idxOf_of_prefix (h : names <+: names') (hn : name ∈ names) :
    names'.idxOf name = names.idxOf name := by
  obtain ⟨rest, rfl⟩ := h
  exact List.idxOf_append_of_mem hn

end

-- ---------------------------------------------------------------------------
-- `ID`
-- ---------------------------------------------------------------------------

/-- The names have the numbers from zero on, as far as `T` tells them apart. -/
structure Ranked (ofNat : Nat → T) (id : ID T) (names : List Bytes) : Prop where
  nodup : names.Nodup
  idCntr : id.idCntr = ofNat names.length
  lookup : ∀ name,
    id.ids.lookup name = if name ∈ names then some (ofNat (names.idxOf name)) else none

theorem ranked_new [OfNat T 0] {ofNat : Nat → T} (hzero : ofNat 0 = 0) :
    Ranked ofNat (.new : ID T) [] :=
  ⟨List.nodup_nil, hzero.symm, fun name => by simp [ID.new]⟩

theorem Ranked.getId [Add T] [OfNat T 1] {ofNat : Nat → T} {id : ID T}
    (hsucc : ∀ n, ofNat (n + 1) = ofNat n + 1) (h : Ranked ofNat id names) (name : Bytes) :
    (id.getId name).1 = ofNat ((enter names name).idxOf name) ∧
      Ranked ofNat (id.getId name).2 (enter names name) := by
  by_cases hn : name ∈ names
  · have hl := h.lookup name
    rw [if_pos hn] at hl
    rw [enter, if_pos hn, ID.getId, hl]
    exact ⟨rfl, h⟩
  · have hl := h.lookup name
    rw [if_neg hn] at hl
    have hlast : (names ++ [name]).idxOf name = names.length := by
      rw [List.idxOf_append_of_notMem hn, List.idxOf_cons_self, Nat.add_zero]
    rw [enter, if_neg hn, ID.getId, hl]
    refine ⟨by rw [hlast]; exact h.idCntr, ?_, ?_, fun n => ?_⟩
    · exact h.nodup.append (List.nodup_singleton _) (by simpa using hn)
    · rw [List.length_append, List.length_singleton, hsucc, ← h.idCntr]
    · by_cases heq : n = name
      · subst heq
        rw [AList.lookup_insert, if_pos (by simp), hlast, h.idCntr]
      · rw [AList.lookup_insert_ne heq, h.lookup n]
        by_cases hmem : n ∈ names
        · rw [if_pos hmem, if_pos (List.mem_append_left _ hmem), List.idxOf_append_of_mem hmem]
        · rw [if_neg hmem, if_neg (by simp [hmem, heq])]

theorem ofNat_uint16_eq_iff (m n : Nat) : UInt16.ofNat m = .ofNat n ↔ m % 2 ^ 16 = n % 2 ^ 16 := by
  rw [← UInt16.toNat_inj, UInt16.toNat_ofNat', UInt16.toNat_ofNat']

theorem ofNat_uint8_eq_iff (m n : Nat) : UInt8.ofNat m = .ofNat n ↔ m % 2 ^ 8 = n % 2 ^ 8 := by
  rw [← UInt8.toNat_inj, UInt8.toNat_ofNat', UInt8.toNat_ofNat']

section
variable {ofNat : Nat → T} {N : Nat} (hmod : ∀ m n, ofNat m = ofNat n ↔ m % N = n % N)
  {names : List Bytes}
include hmod

theorem eq_of_ofNat_idxOf_eq (hlen : names.length ≤ N) (ha : a ∈ names) (hb : b ∈ names)
    (h : ofNat (names.idxOf a) = ofNat (names.idxOf b)) : a = b := by
  have hia := (List.idxOf_lt_length_of_mem ha).trans_le hlen
  have hib := (List.idxOf_lt_length_of_mem hb).trans_le hlen
  rw [hmod, Nat.mod_eq_of_lt hia, Nat.mod_eq_of_lt hib] at h
  exact (List.idxOf_inj ha).mp h

/-- Behind the last identifier the counter begins again. -/
theorem ofNat_idxOf_injective_iff (hpos : 0 < N) (hnodup : names.Nodup) :
    (∀ a ∈ names, ∀ b ∈ names, ofNat (names.idxOf a) = ofNat (names.idxOf b) → a = b) ↔
      names.length ≤ N := by
  refine ⟨fun h => ?_, fun hlen a ha b hb => eq_of_ofNat_idxOf_eq hmod hlen ha hb⟩
  by_contra hmany
  have hN : N < names.length := Nat.lt_of_not_le hmany
  have hfirst : 0 < names.length := by omega
  have heq := h names[0] (List.getElem_mem hfirst) names[N] (List.getElem_mem hN) (by
    rw [hnodup.idxOf_getElem 0 hfirst, hnodup.idxOf_getElem N hN, hmod, Nat.zero_mod, Nat.mod_self])
  exact absurd (hnodup.getElem_inj_iff.mp heq) hpos.ne

end

-- ---------------------------------------------------------------------------
-- Message identifiers
-- ---------------------------------------------------------------------------

def Call.storedType : Call → Option Bytes
  | .storeData _ typeName _ _ => some typeName
  | _ => none

def storedTypes (cs : List Call) : List Bytes := cs.filterMap Call.storedType

theorem storedTypes_cons (c : Call) (cs : List Call) :
    storedTypes (c :: cs) = storedTypes [c] ++ storedTypes cs := by
  simp only [storedTypes, ← List.filterMap_append, List.singleton_append]

theorem entered_append : entered names (more ++ more') = entered (entered names more) more' :=
  List.foldl_append

namespace MuTelemetry

variable {t t' : MuTelemetry}

theorem identify_msgId (h : t.identify typeName annotation = (i, j, t')) :
    i = (t.msgId.getId typeName).1 ∧ t'.msgId = (t.msgId.getId typeName).2 := by
  simp only [identify, getMsgId, getMultiId, Prod.mk.injEq] at h
  obtain ⟨rfl, -, rfl⟩ := h
  exact ⟨rfl, rfl⟩

def MsgIds (t : MuTelemetry) (names : List Bytes) : Prop := Ranked UInt16.ofNat t.msgId names

theorem MsgIds.identify (h : t.MsgIds names) (hid : t.identify typeName annotation = (i, j, t')) :
    i = .ofNat ((enter names typeName).idxOf typeName) ∧ t'.MsgIds (enter names typeName) := by
  obtain ⟨rfl, hmsgId⟩ := identify_msgId hid
  obtain ⟨hi, hr⟩ := Ranked.getId (fun n => UInt16.ofNat_add n 1) h typeName
  exact ⟨hi, by rw [MsgIds, hmsgId]; exact hr⟩

theorem MsgIds.enqueues (h : t.MsgIds names) (he : Enqueues t c m t') :
    t'.MsgIds (entered names (storedTypes [c])) := by
  cases he with
  | data _ _ _ hid => exact (h.identify hid).2
  | paramInt | paramFloat | info | infoMulti | dataFormat | message => exact h

end MuTelemetry

-- ---------------------------------------------------------------------------
-- Instances
-- ---------------------------------------------------------------------------

structure DataCall where
  data : Bytes
  typeName : Bytes
  instName : Bytes
  timestamp : UInt64

def DataCall.call (d : DataCall) : Call := .storeData d.data d.typeName d.instName d.timestamp

def typesOf (ds : List DataCall) : List Bytes := entered [] (ds.map (·.typeName))

def msgIdOf (ds : List DataCall) (d : DataCall) : UInt16 := .ofNat ((typesOf ds).idxOf d.typeName)

/-- The instances stored under an identifier, where the calls have these. -/
def instancesOf (msgId : DataCall → UInt16) (ds : List DataCall) (i : UInt16) : List Bytes :=
  entered [] ((ds.filter fun d => msgId d = i).map (·.instName))

def multiIdOf (ds : List DataCall) (d : DataCall) : UInt8 :=
  .ofNat ((instancesOf (msgIdOf ds) ds (msgIdOf ds d)).idxOf d.instName)

section
variable {past rest : List DataCall} {d : DataCall}

theorem typesOf_concat (past : List DataCall) (d : DataCall) :
    typesOf (past ++ [d]) = enter (typesOf past) d.typeName := by
  rw [typesOf, List.map_append, entered_append]
  rfl

theorem prefix_typesOf (past rest : List DataCall) : typesOf past <+: typesOf (past ++ rest) := by
  rw [typesOf, typesOf, List.map_append, entered_append]
  exact prefix_entered _ _

theorem msgIdOf_eq (past rest : List DataCall) (d : DataCall) :
    msgIdOf (past ++ d :: rest) d =
      .ofNat ((enter (typesOf past) d.typeName).idxOf d.typeName) := by
  have hpre := prefix_typesOf (past ++ [d]) rest
  rw [typesOf_concat, ← List.append_cons] at hpre
  rw [msgIdOf, idxOf_of_prefix hpre (mem_enter.mpr (.inr rfl))]

theorem instancesOf_concat (msgId : DataCall → UInt16) (past : List DataCall) (d : DataCall) :
    instancesOf msgId (past ++ [d]) (msgId d) = enter (instancesOf msgId past (msgId d)) d.instName := by
  rw [instancesOf, List.filter_append, List.map_append, entered_append]
  simp only [List.filter_singleton, decide_true]
  rfl

theorem instancesOf_concat_ne {msgId : DataCall → UInt16} (past : List DataCall) (h : msgId d ≠ i) :
    instancesOf msgId (past ++ [d]) i = instancesOf msgId past i := by
  rw [instancesOf, List.filter_append, List.map_append, entered_append]
  simp only [List.filter_singleton, h, decide_false]
  rfl

theorem prefix_instancesOf (msgId : DataCall → UInt16) (past rest : List DataCall) (i : UInt16) :
    instancesOf msgId past i <+: instancesOf msgId (past ++ rest) i := by
  rw [instancesOf, instancesOf, List.filter_append, List.map_append, entered_append]
  exact prefix_entered _ _

theorem multiIdOf_eq (past rest : List DataCall) (d : DataCall) :
    multiIdOf (past ++ d :: rest) d = .ofNat ((enter (instancesOf (msgIdOf (past ++ d :: rest)) past
      (msgIdOf (past ++ d :: rest) d)) d.instName).idxOf d.instName) := by
  have hpre := prefix_instancesOf (msgIdOf (past ++ d :: rest)) (past ++ [d]) rest
    (msgIdOf (past ++ d :: rest) d)
  rw [instancesOf_concat, ← List.append_cons] at hpre
  rw [multiIdOf, idxOf_of_prefix hpre (mem_enter.mpr (.inr rfl))]

end

section
variable {ds : List DataCall} {d d' : DataCall}

theorem nodup_typesOf (ds : List DataCall) : (typesOf ds).Nodup := nodup_entered List.nodup_nil _

theorem nodup_instancesOf (msgId : DataCall → UInt16) (ds : List DataCall) (i : UInt16) :
    (instancesOf msgId ds i).Nodup := nodup_entered List.nodup_nil _

theorem mem_typesOf (hd : d ∈ ds) : d.typeName ∈ typesOf ds :=
  mem_entered.mpr (.inr (List.mem_map_of_mem hd))

theorem msgIdOf_congr (h : d.typeName = d'.typeName) : msgIdOf ds d = msgIdOf ds d' := by
  rw [msgIdOf, msgIdOf, h]

theorem mem_instancesOf (hd : d ∈ ds) : d.instName ∈ instancesOf (msgIdOf ds) ds (msgIdOf ds d) := by
  refine mem_entered.mpr (.inr (List.mem_map_of_mem (List.mem_filter.mpr ⟨hd, ?_⟩)))
  simp

theorem multiIdOf_congr (ht : d.typeName = d'.typeName) (ha : d.instName = d'.instName) :
    multiIdOf ds d = multiIdOf ds d' := by
  rw [multiIdOf, multiIdOf, msgIdOf_congr ht, ha]

end

namespace MuTelemetry

/-- The types and the instances of the calls so far have their identifiers. -/
structure Identified (msgId : DataCall → UInt16) (past : List DataCall) (t : MuTelemetry) : Prop where
  msgIds : t.MsgIds (typesOf past)
  multiIds : ∀ i,
    Ranked UInt8.ofNat ((t.multiId.lookup i).getD .new) (instancesOf msgId past i)

variable {t t' : MuTelemetry} {d : DataCall}

theorem identify_multiId (h : t.identify typeName annotation = (i, j, t')) :
    j = (((t.multiId.lookup i).getD .new).getId annotation).1 ∧
      t'.multiId = t.multiId.insert i (((t.multiId.lookup i).getD .new).getId annotation).2 := by
  simp only [identify, getMsgId, getMultiId, Prod.mk.injEq] at h
  obtain ⟨rfl, rfl, rfl⟩ := h
  exact ⟨rfl, rfl⟩

theorem Identified.identify {all : List DataCall} (h : t.Identified (msgIdOf all) past)
    (hall : all = past ++ d :: rest) (hid : t.identify d.typeName d.instName = (i, j, t')) :
    i = msgIdOf all d ∧ j = multiIdOf all d ∧ t'.Identified (msgIdOf all) (past ++ [d]) := by
  obtain ⟨hi, hmsgIds⟩ := h.msgIds.identify hid
  obtain ⟨hj, hmulti⟩ := identify_multiId hid
  rw [← msgIdOf_eq past rest d, ← hall] at hi
  subst hi
  obtain ⟨hrank, hranked⟩ := Ranked.getId (fun n => UInt8.ofNat_add n 1)
    (h.multiIds (msgIdOf all d)) d.instName
  refine ⟨rfl, ?_, by rw [typesOf_concat]; exact hmsgIds, fun k => ?_⟩
  · rw [hj, hrank, hall, multiIdOf_eq]
  · rw [hmulti]
    by_cases hk : msgIdOf all d = k
    · subst hk
      rw [AList.lookup_insert, Option.getD_some, instancesOf_concat]
      exact hranked
    · rw [AList.lookup_insert_ne (Ne.symm hk), instancesOf_concat_ne past hk]
      exact h.multiIds k

theorem Identified.toIo (h : t.Identified f past) (m : Bytes) : (t.toIo m).Identified f past :=
  ⟨h.msgIds, h.multiIds⟩

def recordOf (ds : List DataCall) (d : DataCall) : Bytes :=
  record (msgIdOf ds d) (multiIdOf ds d) (d.typeName.take (nameLen d.typeName)) d.timestamp
    (d.data.drop 8)

theorem Identified.emits {all ds : List DataCall} (h : t.Identified (msgIdOf all) past)
    (hall : all = past ++ ds) (he : Emits t (ds.map DataCall.call) ms t') :
    ms = ds.map (recordOf all) := by
  induction ds generalizing past t ms with
  | nil =>
    cases he
    rfl
  | cons d ds ih =>
    cases he with
    | cons hm he =>
      cases hm with
      | data _ _ _ hid =>
        obtain ⟨rfl, rfl, hnext⟩ := h.identify hall hid
        rw [List.append_cons] at hall
        rw [List.map_cons, ih (hnext.toIo _) hall he]
        rfl

end MuTelemetry

end Mutelemetry.Telemetry
