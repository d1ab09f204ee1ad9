import Mutelemetry.Parse.Shape

/-!
# Subscriptions resolve

A name is resolved twice: the format of a subscription by its A message, the
formats nested in it by each D message. When every A message that subscribes
names a format that is defined with all that it nests, both succeed.
-/

namespace Mutelemetry.Parse

open ByteString Stateful Relation Ulog

-- ---------------------------------------------------------------------------
-- What is kept of every subscription
-- ---------------------------------------------------------------------------

structure Keeps (R : Formats → Subscription → Prop) (p : MutelemetryParser) : Prop where
  fresh : p.state = .header ∨ p.state = .flags ∨ p.state = .definition → p.subscriptions = ∅
  subs : ∀ msgId sub, p.subscriptions.lookup msgId = some sub → sub.msgId = msgId ∧ R p.formats sub

def Adds (R : Formats → Subscription → Prop) (p : MutelemetryParser) (m : Bytes × Nat) : Prop :=
  ∀ size sub, headerType m.1 m.2 = .ok (some .A) → headerSize m.1 m.2 = .ok size →
    readSubscription p.formats m.1 (m.2 + 3) size = .ok sub → sub.msgId ∉ p.subscriptions →
    R p.formats sub

section
variable {R : Formats → Subscription → Prop} {p q : MutelemetryParser}

theorem keeps_new : Keeps R .new := by
  refine ⟨fun _ => rfl, ?_⟩
  intro msgId sub h
  simp [MutelemetryParser.new] at h

theorem Keeps.subscribe (h : Keeps R p) (hsub : sub.msgId ∉ p.subscriptions → R p.formats sub)
    (hl : (p.subscribe sub).subscriptions.lookup msgId = some sub') :
    sub'.msgId = msgId ∧ R p.formats sub' := by
  obtain hl | ⟨hnew, rfl, rfl⟩ := lookup_subscribe_cases hl
  · exact h.subs msgId sub' hl
  · exact ⟨rfl, hsub hnew⟩

theorem Data.keeps (h : Data p buffer message q) :
    q.formats = p.formats ∧ q.subscriptions = p.subscriptions := by
  cases h with
  | unsubscribed => exact ⟨rfl, rfl⟩
  | subscribed _ _ hd =>
    cases hd
    exact ⟨rfl, rfl⟩

theorem Keeps.behind (h : Keeps R p) (hsub : sub.msgId ∉ p.subscriptions → R p.formats sub)
    (hb : behind (p.subscribe sub) buffer hdr = (b, q)) :
    ∀ msgId sub', q.subscriptions.lookup msgId = some sub' →
      sub'.msgId = msgId ∧ R q.formats sub' := by
  intro msgId sub' hl
  obtain rfl | rfl := behind_eq hb
  · exact h.subscribe hsub hl
  · exact h.subscribe hsub hl

theorem Keeps.handles (h : Keeps R p) (hg : Adds R p (buffer, pos))
    (hh : Handles buffer pos p s q) : Keeps R { q with state := s } := by
  cases hh with
  | header hs => exact ⟨fun _ => h.fresh (.inl hs), h.subs⟩
  | flags hs => exact ⟨fun _ => h.fresh (.inr (.inl hs)), h.subs⟩
  | info | multi | param => exact ⟨h.fresh, h.subs⟩
  | format hs =>
    have hempty := h.fresh (.inr (.inr hs))
    refine ⟨fun _ => hempty, fun msgId sub hl => ?_⟩
    simp [hempty] at hl
  | add hb ht hsize hr hbehind =>
    have hsubs := h.behind (hg _ _ ht hsize hr) hbehind
    exact ⟨by simp, hsubs⟩
  | addData hb ht hsize hr hbehind hd =>
    obtain ⟨hf, hsubs⟩ := hd.keeps
    refine ⟨by simp, fun msgId sub hl => ?_⟩
    simp only [hsubs] at hl
    simp only [hf]
    exact h.behind (hg _ _ ht hsize hr) hbehind msgId sub hl
  | data hs ht hd =>
    obtain ⟨hf, hsubs⟩ := hd.keeps
    refine ⟨by simp, fun msgId sub hl => ?_⟩
    simp only [hsubs] at hl
    simp only [hf]
    exact h.subs msgId sub hl
  | logged | passed | reject => exact ⟨by simp, h.subs⟩
  | remove =>
    refine ⟨by simp, fun msgId' sub hl => ?_⟩
    rename_i msgId _ _ _
    by_cases heq : msgId' = msgId
    · subst heq
      simp at hl
    · exact h.subs msgId' sub (by simpa [AList.lookup_erase_ne heq] using hl)

theorem Keeps.accept (h : Keeps R p) (hg : Adds R p m) (hs : accept p m = some p') :
    Keeps R p' := by
  obtain ⟨state, q, hh, rfl, -⟩ := parse_ok (accept_eq_some.mp hs)
  exact h.handles hg hh

/-- A caught exception leaves the state as it was, unless it comes from a D message. -/
theorem Keeps.step (h : Keeps R p) (hg : Adds R p m)
    (hthrown : ∀ q sub message fault, R q.formats sub → DataFault q m.1 message sub fault →
      fault.isThrown = false) (hs : step p m = some p') : Keeps R p' := by
  obtain ⟨buffer, pos⟩ := m
  have hdata : ∀ q message fault q', (∀ msgId sub, q.subscriptions.lookup msgId = some sub →
      sub.msgId = msgId ∧ R q.formats sub) → DataStops q buffer message fault q' → fault.isThrown = false := by
    intro q message fault q' hq hd
    cases hd with
    | msgId hid =>
      rw [readUInt16_error hid]
      rfl
    | subscribed t hid hsub hf => exact hthrown q _ message fault (hq _ _ hsub).2 hf
  obtain ⟨state, q, hh, rfl⟩ | ⟨fault, hcaught, hstops⟩ := step_cases hs
  · exact h.handles hg hh
  · cases hstops with
    | unchanged => exact h
    | asserted => cases hcaught
    | addData hb ht hsize hr hbehind hd =>
      rw [hdata _ _ _ _ (h.behind (hg _ _ ht hsize hr) hbehind) hd] at hcaught
      cases hcaught
    | data hs ht hd =>
      rw [hdata _ _ _ _ h.subs hd] at hcaught
      cases hcaught

end

-- ---------------------------------------------------------------------------
-- Names that are all defined
-- ---------------------------------------------------------------------------

/-- A null format, or an exception. -/
def Fault.isUnresolved : Fault → Bool
  | .nullFormat | .outOfRange | .lengthError => true
  | _ => false

/-- The format of a subscription is defined with all that it nests. -/
structure Linked (formats : Formats) (sub : Subscription) : Prop where
  format : sub.format = some sub.messageName
  closed : ∀ b, ReflTransGen (Nests formats) sub.messageName b → b ∈ formats

section
variable {formats : Formats} {format : Format}

theorem closed_lookup (h : ∀ b, ReflTransGen (Nests formats) name b → b ∈ formats) :
    ∃ format, formats.lookup name = some format :=
  Option.isSome_iff_exists.mp (AList.lookup_isSome.mpr (h name .refl))

theorem flatMapM_error {l : List α} {f : α → Except Fault (List β)}
    (h : l.flatMapM f = .error fault) : ∃ a ∈ l, f a = .error fault := by
  by_contra hnone
  simp only [not_exists, not_and] at hnone
  exact flatMapM_ne_error hnone h

theorem appendVector_error (hf : formats.lookup name = some format)
    (hc : ∀ b, ReflTransGen (Nests formats) name b → b ∈ formats)
    (h : appendVector formats depth format pre = .error fault) : fault.isUnresolved = false := by
  induction depth generalizing name format pre with
  | zero =>
    cases h
    rfl
  | succ depth ih =>
    rw [appendVector_succ] at h
    obtain ⟨slot, hslot, h⟩ := flatMapM_error h
    cases slot with
    | padding size => cases h
    | item field i =>
      obtain hsuffix | ⟨suffix, hsuffix, hpath⟩ := arraySuffix_eq field i pre
      · simp only [slotNames, hsuffix, error_bind] at h
        cases h
        rfl
      · simp only [slotNames, hsuffix, ok_bind] at h
        by_cases ht : field.type = .other
        · have hn : Nests formats name field.otherTypeId := ⟨format, hf, field, i, hslot, ht, rfl⟩
          obtain ⟨child, hchild⟩ := closed_lookup fun b hb => hc b (hb.head hn)
          simp only [if_pos ht, hchild] at h
          exact ih hchild (fun b hb => hc b (hb.head hn)) h
        · simp only [if_neg ht] at h
          cases h

theorem readValue_error (h : (readValue buffer type).run c = .error fault c') :
    fault = .outOfBounds := by
  simp only [readValue, EStateM.run_bind, EStateM.run_get] at h
  cases hf : fetch buffer c.message type.sizeOf with
  | error f =>
    rw [hf] at h
    cases h
    exact fetch_error hf
  | ok bs =>
    rw [hf] at h
    cases h

theorem storeValue_error (h : (storeValue value).run c = .error fault c') :
    fault = .vectorIndex := by
  simp only [storeValue, EStateM.run_bind, EStateM.run_get] at h
  split at h
  · cases h
  · cases h
    rfl

theorem parseDataIntl_error (hf : formats.lookup name = some format)
    (hc : ∀ b, ReflTransGen (Nests formats) name b → b ∈ formats)
    (h : (parseDataIntl formats buffer depth format).run c = .error fault c') :
    fault.isUnresolved = false := by
  induction depth generalizing name format c with
  | zero =>
    cases h
    rfl
  | succ depth ih =>
    rw [parseDataIntl_succ] at h
    obtain ⟨slot, hslot, m, h⟩ := run_forM_error h
    cases slot with
    | padding size => cases h
    | item field i =>
      simp only [slotRead] at h
      by_cases ht : field.type = .other
      · have hn : Nests formats name field.otherTypeId := ⟨format, hf, field, i, hslot, ht, rfl⟩
        obtain ⟨child, hchild⟩ := closed_lookup fun b hb => hc b (hb.head hn)
        simp only [if_pos ht, hchild] at h
        exact ih hchild (fun b hb => hc b (hb.head hn)) h
      · simp only [if_neg ht, run_seq] at h
        cases hr : (readValue buffer field.type).run m with
        | error f m' =>
          rw [hr] at h
          cases h
          rw [readValue_error hr]
          rfl
        | ok value m' =>
          rw [hr] at h
          rw [storeValue_error h]
          rfl

theorem latestValue_error (h : latestValue col = .error fault) : fault = .emptyBack := by
  unfold latestValue at h
  split at h
  · cases h
    rfl
  · cases h

theorem getLatestData_error {timeseries : Timeseries}
    (h : timeseries.getLatestData name = .error fault) : fault = .emptyBack := by
  unfold Timeseries.getLatestData at h
  split at h
  · cases h
    rfl
  · obtain h | ⟨data, -, h⟩ := bind_eq_error.mp h
    · obtain ⟨col, -, hcol⟩ := mapM_eq_error h
      exact latestValue_error hcol
    · cases h

theorem Linked.dataFault {p : MutelemetryParser} (h : Linked p.formats sub)
    (hd : DataFault p buffer message sub fault) : fault.isUnresolved = false := by
  obtain ⟨format, hf⟩ := closed_lookup h.closed
  have hformat : p.formatOf sub = .ok format := by simp [MutelemetryParser.formatOf, h.format, hf]
  cases hd with
  | series hs =>
    unfold MutelemetryParser.seriesFor at hs
    split at hs
    · cases hs
    · rw [hformat, ok_bind, createTimeseries] at hs
      obtain hs | ⟨paths, -, hs⟩ := bind_eq_error.mp hs
      · exact appendVector_error hf h.closed hs
      · cases hs
  | timestamp ht =>
    rw [readUInt64_error ht]
    rfl
  | format he =>
    rw [hformat] at he
    cases he
  | walk _ hf' hwalk =>
    cases hformat.symm.trans hf'
    exact parseDataIntl_error hf h.closed hwalk
  | latest _ _ _ hlatest =>
    rw [getLatestData_error hlatest]
    rfl

end

-- ---------------------------------------------------------------------------
-- Runs
-- ---------------------------------------------------------------------------

theorem Fault.isThrown_of_isUnresolved {fault : Fault} (h : fault.isUnresolved = false) :
    fault.isThrown = false := by
  cases fault <;> first | rfl | cases h

theorem linkedStops (h : ∀ msgId sub, p.subscriptions.lookup msgId = some sub →
    sub.msgId = msgId ∧ Linked p.formats sub) (hd : DataStops p buffer message fault q) :
    fault.isUnresolved = false := by
  cases hd with
  | msgId hid =>
    rw [readUInt16_error hid]
    rfl
  | subscribed t hid hsub hf => exact (h _ _ hsub).2.dataFault hf

/-- In every state a run reaches, a subscription has its format and all that it
nests, and handling a D message, alone or behind an A message, finds them. -/
theorem subscriptions_resolve (h : Transition.Guarded step (Adds Linked) .new ms p) :
    (∀ msgId sub, p.subscriptions.lookup msgId = some sub → Linked p.formats sub) ∧
    (∀ buffer pos msgId fault q, headerType buffer pos = .ok (some .D) →
      readUInt16 buffer (pos + 3) = .ok msgId → msgId ∈ p.subscriptions →
      (parse buffer pos).run p = .error fault q → fault.isUnresolved = false) ∧
    ∀ buffer pos size sub fault q, Adds Linked p (buffer, pos) →
      headerType buffer pos = .ok (some .A) → headerSize buffer pos = .ok size →
      readSubscription p.formats buffer (pos + 3) size = .ok sub → p.InBody →
      (parse buffer pos).run p = .error fault q → fault.isUnresolved = false := by
  have hp : Keeps Linked p := h.invariant (Keeps Linked) (fun hi hg hs => hi.step hg
    (fun q sub message fault hl hd => Fault.isThrown_of_isUnresolved (hl.dataFault hd)) hs) keeps_new
  refine ⟨fun msgId sub hl => (hp.subs msgId sub hl).2, ?_, ?_⟩
  · intro buffer pos msgId fault q ht hid hmem herr
    cases hs : p.state with
    | header | flags | definition =>
      rw [hp.fresh (by simp [hs])] at hmem
      exact absurd hmem (AList.notMem_empty msgId)
    | invalid =>
      rw [run_parse, hs] at herr
      cases herr
    | definitionOrData =>
      rw [run_parse_D hs ht, settle_eq_error] at herr
      obtain ⟨q', hok, -⟩ | ⟨fault', q', herr', hd⟩ := parseData_cases buffer (pos + 3) p
      · cases hok.symm.trans herr
      · cases herr'.symm.trans herr
        exact linkedStops hp.subs hd
  · intro buffer pos size sub fault q hg ht hsize hr hb herr
    rw [run_parse_A hb ht, settle_eq_error, run_parseAddData hsize, hr] at herr
    rcases hbehind : behind (p.subscribe sub) buffer (pos + 3 + size.toNat) with ⟨b, q₁⟩
    simp only [hbehind] at herr
    cases b with
    | false => cases herr
    | true =>
      obtain ⟨q', hok, -⟩ | ⟨fault', q', herr', hd⟩ :=
        parseData_cases buffer (pos + 3 + size.toNat + 3) q₁
      · cases hok.symm.trans herr
      · cases herr'.symm.trans herr
        exact linkedStops (hp.behind (hg _ _ ht hsize hr) hbehind) hd

theorem adds_of_type (h : headerType m.1 m.2 ≠ .ok (some .A)) (p : MutelemetryParser) :
    Adds R p m :=
  fun _ _ ht => absurd ht h

theorem adds_add (hname : 3 + name.length < 2 ^ 16)
    (hR : R p.formats (subscriptionOf p.formats msgId multiId name)) :
    Adds R p (addData msgId multiId name payload, 0) := by
  intro size sub _ hsize hsub _
  cases (headerSize_add msgId multiId name payload).symm.trans hsize
  cases (readSubscription_add hname).symm.trans hsub
  exact hR

theorem subscriptions_resolve_oneType :
    ∃ p, Transition.Guarded step (Adds Linked) .new (oneType ++ [oneRecord]) p ∧
      ∀ msgId sub, p.subscriptions.lookup msgId = some sub → Linked p.formats sub := by
  have hrun : (Transition.run step .new (oneType ++ [oneRecord])).isSome = true := by
    decide +kernel
  have hformats : (Transition.run step .new oneType).map (·.formats.lookup (ascii "T")) =
      some (some ⟨ascii "T", [⟨.int8, ascii "a", [], 2⟩]⟩) := by decide +kernel
  obtain ⟨p, hp⟩ := Option.isSome_iff_exists.mp hrun
  obtain ⟨p₁, h₁, h⟩ := Transition.run_append.mp hp
  obtain ⟨_, hstep, heq⟩ := Transition.run_cons.mp h
  cases heq
  rw [h₁, Option.map_some, Option.some_inj] at hformats
  have hres : Resolved p₁.formats (ascii "T") := .flat hformats (by simp)
  have hg₁ : Transition.Guarded step (Adds Linked) .new oneType p₁ :=
    .of_run h₁ fun m hm => adds_of_type ((show ∀ m ∈ oneType,
      headerType m.1 m.2 ≠ .ok (some .A) by decide +kernel) m hm)
  have hg₂ : Transition.Guarded step (Adds Linked) p₁ [oneRecord] p := by
    refine .cons (adds_add (by decide) ⟨?_, hres.defined⟩) hstep .nil
    exact if_pos (hres.defined _ .refl)
  exact ⟨p, hg₁.append hg₂, (subscriptions_resolve (hg₁.append hg₂)).1⟩

def undefinedType : List (Bytes × Nat) :=
  [(fileHeader 0, 0), (frame .B (List.replicate 40 0), 0), (frame .A (addBody 0 0 (ascii "T")), 0)]

theorem undefinedType_null : ¬ ∀ ms p buffer msgId fault q, Transition.run accept .new ms = some p →
    headerType buffer 0 = .ok (some .D) → readUInt16 buffer 3 = .ok msgId →
    msgId ∈ p.subscriptions → (parse buffer 0).run p = .error fault q →
    fault.isUnresolved = false := by
  intro h
  have hrun : (Transition.run accept .new undefinedType).map (fun p => (p.subscriptions.keys,
      match (parse oneData.1 0).run p with
      | .error fault _ => some fault
      | .ok _ _ => none)) = some ([0], some .nullFormat) := by decide +kernel
  obtain ⟨p, hp, heq⟩ := Option.map_eq_some_iff.mp hrun
  simp only [Prod.mk.injEq] at heq
  obtain ⟨hkeys, hnull⟩ := heq
  split at hnull
  · rename_i fault q herr
    cases hnull
    have hbad := h undefinedType p oneData.1 0 .nullFormat q hp (by decide +kernel) (by decide +kernel)
      (AList.mem_keys.mpr (by simp [hkeys])) herr
    cases hbad
  · cases hnull

end Mutelemetry.Parse
