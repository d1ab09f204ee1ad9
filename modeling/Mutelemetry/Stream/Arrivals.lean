import Mutelemetry.Stream.Reading

/-!
# What arrives

Behind the first record of a stream a call can be said again, at any place and
any number of times, and says the same to every reader that has the formats. So
what a network leaves of a stream is a stream of its own, unless a text comes
before any record.
-/

namespace Mutelemetry.Stream

open ByteString Stateful Ulog Telemetry Parse

-- ---------------------------------------------------------------------------
-- Calls behind the first record
-- ---------------------------------------------------------------------------

/-- `store_message`, which is read behind a record only. -/
def isText : Call → Bool
  | .storeMessage .. => true
  | _ => false

def Quiet (cs : List Call) : Prop := ∀ c ∈ cs.takeWhile (!·.isData), isText c = false

def Sayable (formats : Formats) (c : Call) : Prop :=
  ∀ r : Reading, r.formats = formats → (isText c = true → r.state = .definitionOrData) →
    ∃ r', Says r c r' ∧ r'.formats = formats

section
variable {r r' : Reading}

theorem quiet_cons : Quiet (c :: cs) ↔ c.isData = true ∨ isText c = false ∧ Quiet cs := by
  unfold Quiet
  cases hc : c.isData with
  | true => simp [hc]
  | false => simp [hc]

theorem Says.state (h : Says r c r') :
    r'.state = if c.isData then .definitionOrData else r.state := by
  cases h <;> rfl

theorem Says.formats (h : Says r c r') (hc : c.isData = true ∨ r.state = .definitionOrData) :
    r'.formats = r.formats := by
  cases h with
  | dataFormat hs =>
    rw [hs] at hc
    exact absurd hc (by simp [Call.isData])
  | paramInt | paramFloat | info | infoMulti | data | message => rfl

theorem Says.sayable (h : Says r c r') (hc : c.isData = true ∨ r.state = .definitionOrData) :
    Sayable r.formats c := by
  intro r₁ hf htext
  cases h with
  | paramInt hkey htype => exact ⟨_, .paramInt hkey htype, hf⟩
  | paramFloat hkey htype => exact ⟨_, .paramFloat hkey htype, hf⟩
  | info hkey hname => exact ⟨_, .info hkey hname, hf⟩
  | infoMulti => exact ⟨_, .infoMulti, hf⟩
  | dataFormat hs =>
    rw [hs] at hc
    exact absurd hc (by simp [Call.isData])
  | data hshort hlookup hr ht hdata =>
    rw [← hf] at hlookup hr ht
    exact ⟨_, .data hshort hlookup hr ht hdata, hf⟩
  | message => exact ⟨_, .message (htext rfl), hf⟩

theorem Tells.state (h : Tells r cs r') (hcs : ∀ c ∈ cs, c.isData = false) :
    r'.state = r.state := by
  induction h with
  | nil => rfl
  | cons hs _ ih =>
    rw [List.forall_mem_cons] at hcs
    rw [ih hcs.2, hs.state, hcs.1]
    rfl

theorem Tells.strayed (h : Tells r cs r') : r'.strayed = r.strayed := by
  induction h with
  | nil => rfl
  | cons hs _ ih => exact ih.trans hs.strayed

theorem Tells.sayable (h : Tells r cs r')
    (hs : r.state = .definitionOrData ∨ ∀ c ∈ cs.head?, c.isData = true) :
    ∀ c ∈ cs, Sayable r.formats c := by
  induction h with
  | nil => simp
  | @cons r c r₁ cs _ hsaid _ ih =>
    have hc : c.isData = true ∨ r.state = .definitionOrData :=
      hs.symm.imp_left fun hhead => hhead c rfl
    have hstate : r₁.state = .definitionOrData := by
      rw [hsaid.state]
      split
      · rfl
      · exact hc.resolve_left (by assumption)
    rw [List.forall_mem_cons]
    refine ⟨hsaid.sayable hc, ?_⟩
    rw [← hsaid.formats hc]
    exact ih (.inl hstate)

end

theorem Spoken.dataBegin (h : Spoken names c m) : checkUlogDataBegin m = c.isData := by
  obtain ⟨t, t', ns, he, -⟩ := h
  cases hc : c.isData with
  | false => exact he.not_dataBegin hc
  | true =>
    cases he with
    | data => exact checkUlogDataBegin_add _ _ _ _
    | paramInt | paramFloat | info | infoMulti | dataFormat | message => cases hc

-- ---------------------------------------------------------------------------
-- Messages in any order
-- ---------------------------------------------------------------------------

section
variable {p q : MutelemetryParser}

/-- A text that comes among the definitions is rejected. -/
theorem valid_early_text (hs : p.state = .definition) (hm : frame .L body <+: b) :
    valid p b = none := by
  obtain ⟨rest, rfl⟩ := hm
  have ht := headerType_frame .L body rest
  cases hv : valid p (frame .L body ++ rest) with
  | none => rfl
  | some q =>
    exfalso
    have hA : checkUlogDataBegin (frame .L body ++ rest) = false := by
      rw [checkUlogDataBegin_frame]
      rfl
    obtain ⟨-, ⟨-, hrun⟩ | ⟨r, size, hbegin, -⟩⟩ := valid_cases hv
    · obtain ⟨s, r, hh, rfl, hne⟩ := parse_ok hrun
      cases hh with
      | header h | flags h | data h | logged h | passed h | remove h => simp [hs] at h
      | info _ h | multi _ h | format _ h | param _ h | add _ h | addData _ h =>
        simp [ht] at h
      | reject => simp at hne
    · simp [hA] at hbegin

/-- A parser that has the formats takes the call, in any buffer that begins with
its message. -/
theorem Sayable.valid (hsay : Sayable p.formats c)
    (htext : isText c = true → p.state = .definitionOrData) (hm : Spoken names c m) (hb : m <+: b)
    (hc : Coherent (TagOf names)) (h : Serves (TagOf names) p) (hbody : p.InBody)
    (hstrayed : p.strayed = false) : ∃ q, Parse.valid p b = some q ∧
      Says (readingOf p) c (readingOf q) ∧ q.formats = p.formats ∧ q.strayed = false ∧
      Serves (TagOf names) q ∧ q.InBody := by
  obtain ⟨r, hsaid, hf⟩ := hsay (readingOf p) rfl htext
  obtain ⟨q, hv, rfl, hq, hqb⟩ := hsaid.valid hm h hc hbody
  have hqs : q.strayed = false := hsaid.strayed.trans hstrayed
  exact ⟨q, valid_padded hv hb hqs, hsaid, hf, hqs, hq, hqb⟩

/-- What arrives is accepted, and read as a stream of its own, if and only if no
text comes before the first record. -/
theorem run_arrivals (hcs : ∀ c ∈ cs, Sayable p.formats c)
    (hms : List.Forall₂ (Spoken names) cs ms) (hbs : List.Forall₂ (· <+: ·) ms bs)
    (hc : Coherent (TagOf names)) (h : Serves (TagOf names) p) (hb : p.InBody)
    (hstrayed : p.strayed = false) :
    ((∃ q, Transition.run valid p bs = some q) ↔ p.state = .definitionOrData ∨ Quiet cs) ∧
    ∀ q, Transition.run valid p bs = some q → Tells (readingOf p) cs (readingOf q) := by
  induction hms generalizing bs p with
  | nil =>
    cases hbs
    refine ⟨⟨fun _ => .inr (by simp [Quiet]), fun _ => ⟨p, rfl⟩⟩, fun q hq => ?_⟩
    cases hq
    exact .nil
  | @cons c m cs ms hm _ ih =>
    cases hbs with
    | @cons _ b _ bs hmb hbs =>
      rw [List.forall_mem_cons] at hcs
      by_cases htext : isText c = true → p.state = .definitionOrData
      · obtain ⟨q, hv, hsaid, hf, hqs, hserves, hqb⟩ :=
          hcs.1.valid htext hm hmb hc h hb hstrayed
        obtain ⟨hiff, hread⟩ := ih (hf ▸ hcs.2) hbs hserves hqb hqs
        have hstate : q.state = if c.isData then .definitionOrData else p.state := hsaid.state
        have hnext : q.state = .definitionOrData ∨ Quiet cs ↔
            p.state = .definitionOrData ∨ Quiet (c :: cs) := by
          rw [hstate, quiet_cons]
          cases hdata : c.isData with
          | true => simp
          | false =>
            cases htc : isText c with
            | true => simp [htext htc]
            | false => simp
        have hstep (q' : MutelemetryParser) : Transition.run valid p (b :: bs) = some q' ↔
            Transition.run valid q bs = some q' := by
          rw [Transition.run_cons, hv]
          simp
        simp only [hstep]
        exact ⟨hiff.trans hnext, fun q' hq' => .cons hsaid (hread q' hq')⟩
      · -- a text that is the first of the data
        obtain ⟨htc, hs⟩ := Classical.not_imp.mp htext
        have hnone : valid p b = none := by
          obtain ⟨t, t', ns, he, -⟩ := hm
          cases he with
          | message => exact valid_early_text (hb.resolve_right hs) hmb
          | paramInt | paramFloat | info | infoMulti | dataFormat | data => cases htc
        have hrun (q : MutelemetryParser) : Transition.run valid p (b :: bs) ≠ some q := by
          intro hq
          obtain ⟨r, hv, -⟩ := Transition.run_cons.mp hq
          rw [hnone] at hv
          cases hv
        have hloud : ¬ Quiet (c :: cs) := by
          rw [quiet_cons]
          cases c with
          | storeMessage => simp [isText, Call.isData]
          | registerParamInt | registerParamFloat | registerInfo | registerInfoMulti
          | registerDataFormat | storeData => cases htc
        simp [hrun, hs, hloud]

/-- The parser behind the definitions that have arrived, whatever comes of the
data behind them. -/
theorem run_stream_arrivals (htells : Tells .start (ds ++ es) r)
    (hds : ∀ c ∈ ds, c.isData = false) (hes : ∀ c ∈ es.head?, c.isData = true)
    (hfirst : ds' <+: ds) (hall : cs ≠ [] → ds' = ds) (hcs : ∀ c ∈ cs, c ∈ es)
    (hms : List.Forall₂ (Spoken names) ds' dms) (hns : List.Forall₂ (Spoken names) cs cms)
    (hbs : List.Forall₂ (· <+: ·)
      ([fileHeader timestamp, frame .B (MuTelemetry.zeros 40)] ++ (dms ++ cms)) bs)
    (hc : Coherent (TagOf names)) :
    ((∃ q, Transition.run valid .new bs = some q) ↔ Quiet cs) ∧
    ∀ q, Transition.run valid .new bs = some q → Tells .start (ds' ++ cs) (readingOf q) := by
  obtain ⟨bs₁, bs₂, rfl, hbs₁, hbs₂⟩ := Related.append_left_iff.mp hbs
  obtain ⟨bs₂, bs₃, rfl, hbs₂, hbs₃⟩ := Related.append_left_iff.mp hbs₂
  obtain ⟨p₀, hp₀, hread₀, hserves₀, hb₀⟩ := run_headerAndFlags_padded hc timestamp hbs₁
  -- the definitions
  obtain ⟨r₁, htells₁, htells₂⟩ := tells_append.mp htells
  obtain ⟨rest, hrest⟩ := hfirst
  obtain ⟨r₂, hdefs, hmore⟩ := tells_append.mp (hrest ▸ htells₁)
  obtain ⟨p, hp, hread, hserves, hb⟩ := run_says hdefs hms hbs₂ hc hread₀ rfl hserves₀ hb₀
  subst hread
  have hstate : p.state = .definition :=
    hdefs.state fun c hmem => hds c (hrest ▸ List.mem_append_left _ hmem)
  have hstrayed : p.strayed = false := hdefs.strayed
  -- the data, which comes behind them all
  have hsay : ∀ c ∈ cs, Sayable p.formats c := by
    intro c hmem
    rw [hall (List.ne_nil_of_mem hmem), List.append_right_eq_self] at hrest
    subst hrest
    cases hmore
    exact htells₂.sayable (.inr hes) c (hcs c hmem)
  obtain ⟨hiff, hlast⟩ := run_arrivals hsay hns hbs₃ hc hserves hb hstrayed
  rw [hstate] at hiff
  have hrun (q : MutelemetryParser) : Transition.run valid .new (bs₁ ++ (bs₂ ++ bs₃)) = some q ↔
      Transition.run valid p bs₃ = some q := by
    simp only [Transition.run_append, hp₀, hp, Option.some_inj, exists_eq_left']
  simp only [hrun]
  refine ⟨hiff.trans (by simp), fun q hq => ?_⟩
  exact tells_append.mpr ⟨_, hdefs, hlast q hq⟩

end

end Mutelemetry.Stream
