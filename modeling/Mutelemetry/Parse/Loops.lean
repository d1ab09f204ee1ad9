import Mutelemetry.Lib.Loop
import Mutelemetry.Parse.Message

/-!
# The loops of parse_format

`parse_format` again, on views into its text and turn by turn: each `while` of
the source is a loop here, and a view that is empty stays so. Its results are
those of the functions on texts, and it has none where these have the fault
`diverges`.
-/

namespace Mutelemetry.Parse

open ByteString Loop Stateful

/-- A `string_view`: what it shows, and what stands behind that in the string. -/
structure View where
  text : Bytes
  behind : Bytes

namespace View

/-- Clamped at the length of the view, as `removeSuffix` is. -/
def removePrefix (v : View) (n : Nat) : View := { v with text := v.text.drop n }

def removeSuffix (v : View) (n : Nat) : View where
  text := v.text.take (v.text.length - n)
  behind := v.text.drop (v.text.length - n) ++ v.behind

/-- `v[0]`, which is not checked. A string has a NUL at its end. -/
def front (v : View) : UInt8 := (v.text ++ v.behind).headD 0

def startsWith (v : View) (b : UInt8) : Bool := v.text.head? = some b

def endsWith (v : View) (b : UInt8) : Bool := v.text.getLast? = some b

end View

-- ---------------------------------------------------------------------------
-- The loops
-- ---------------------------------------------------------------------------

def splitTurn (delimeter : UInt8) (strToSplit : View) : Nat × List View → Nat × List View
  | (pos, parts) =>
    let newPos := pos + (strToSplit.text.drop pos).findIdx (· = delimeter)
    let sv := ⟨(strToSplit.text.drop pos).take (newPos - pos),
      strToSplit.text.drop newPos ++ strToSplit.behind⟩
    (newPos + 1, parts ++ [sv])

def splitViews (delimeter : UInt8) (strToSplit : View) (fuel : Nat) : Timed Fault (List View) := do
  let (_, parts) ← whileLoop (fun (pos, _) => pos < strToSplit.text.length)
    (splitTurn delimeter strToSplit) fuel (0, [])
  return parts

def typeLoops (fieldType : View) (fuel : Nat) : Timed Fault (FormatType × Bytes × View) :=
  match primitiveTypes.find? (·.1.isPrefixOf fieldType.text) with
  | some (name, type) => pure (type, [], fieldType.removePrefix name.length)
  | none =>
    if fieldType.endsWith (charByte ']') then do
      let helper ← whileLoop (!View.endsWith · (charByte '[')) (·.removeSuffix 1) fuel fieldType
      let view ← whileLoop (!View.startsWith · (charByte '[')) (·.removePrefix 1) fuel fieldType
      return (.other, (helper.removeSuffix 1).text, view)
    else pure (.other, fieldType.text, fieldType)

def digitTurn : View × Int → View × Int
  | (view, arraySize) =>
    (view.removePrefix 1, (10 * arraySize + view.front.toInt8.toInt - 48).bmod (2 ^ 32))

def arraySizeLoops (fieldType : View) (fuel : Nat) : Timed Fault Int :=
  if fieldType.text ≠ [] ∧ fieldType.front = charByte '[' then do
    let digits := fieldType.removePrefix 1
    let (_, arraySize) ← whileLoop (fun (view, _) => view.front ≠ charByte ']') digitTurn fuel
      (digits.removePrefix 1, digits.front.toInt8.toInt - 48)
    return arraySize
  else pure 1

def fieldLoops (fieldSection : View) (fuel : Nat) : Timed Fault Field := do
  match ← splitViews (charByte ' ') fieldSection fuel with
  | fieldType :: fieldName :: _ =>
    let (type, otherTypeId, view) ← typeLoops fieldType fuel
    let arraySize ← arraySizeLoops view fuel
    return { type, fieldName := fieldName.text, otherTypeId, arraySize }
  | _ => throw .outOfRange

def formatLoops (text : Bytes) (fuel : Nat) : Timed Fault (Option Format) :=
  if charByte ':' ∈ text then do
    let name := text.takeWhile (· ≠ charByte ':')
    let fields := ⟨(text.dropWhile (· ≠ charByte ':')).tail, []⟩
    let fieldsSplit ← splitViews (charByte ';') fields fuel
    let fields ← fieldsSplit.mapM (fieldLoops · fuel)
    return some ⟨name, fields.filter (!·.isTimestamp)⟩
  else pure none

-- ---------------------------------------------------------------------------
-- What they come to
-- ---------------------------------------------------------------------------

section
variable {d : UInt8} {v : View}

structure Splitting (d : UInt8) (v : View) (s : Nat × List View) : Prop where
  texts : s.2.map View.text ++ splitString d (v.text.drop s.1) = splitString d v.text
  behind : ∀ part ∈ s.2.dropLast, part.behind.head? = some d
  last : s.1 < v.text.length → ∀ part ∈ s.2, part.behind.head? = some d

theorem splitTurn_eq (pos : Nat) (parts : List View) : splitTurn d v (pos, parts) =
    (pos + ((v.text.drop pos).takeWhile (· ≠ d)).length + 1, parts ++
      [⟨(v.text.drop pos).takeWhile (· ≠ d), (v.text.drop pos).dropWhile (· ≠ d) ++ v.behind⟩]) := by
  have hfind : (v.text.drop pos).findIdx (fun a => !decide (a ≠ d)) =
      (v.text.drop pos).findIdx (· = d) := by simp
  have htake : (v.text.drop pos).takeWhile (· ≠ d) = _ := List.takeWhile_eq_take_findIdx_not
  have hdrop : (v.text.drop pos).dropWhile (· ≠ d) = _ := List.dropWhile_eq_drop_findIdx_not
  rw [hfind] at htake hdrop
  rw [htake, hdrop, List.drop_drop, List.length_take_of_le List.findIdx_le_length, splitTurn,
    Nat.add_sub_cancel_left]

theorem Splitting.turn (h : Splitting d v s) (hpos : s.1 < v.text.length) :
    Splitting d v (splitTurn d v s) := by
  obtain ⟨pos, parts⟩ := s
  obtain ⟨htexts, hbehind, hlast⟩ := h
  have hsplit := List.takeWhile_append_dropWhile (p := (· ≠ d)) (l := v.text.drop pos)
  have hrest : v.text.drop (pos + ((v.text.drop pos).takeWhile (· ≠ d)).length) =
      (v.text.drop pos).dropWhile (· ≠ d) := by
    rw [← List.drop_drop]
    exact (congrArg (List.drop _) hsplit.symm).trans List.drop_left
  rw [splitString_eq d _ (by simpa using hpos)] at htexts
  rw [splitTurn_eq]
  refine ⟨?_, ?_, ?_⟩
  · simp only [← List.tail_drop, hrest, List.map_append, List.map_cons, List.map_nil,
      List.append_assoc, List.singleton_append, htexts]
  · rw [List.dropLast_concat]
    exact hlast hpos
  · intro hlt
    rw [List.forall_mem_append, List.forall_mem_singleton]
    refine ⟨hlast hpos, ?_⟩
    -- the text goes on, so the delimiter ended the part
    have hhead := List.head?_dropWhile_not (· ≠ d) (v.text.drop pos)
    cases hdrop : (v.text.drop pos).dropWhile (· ≠ d) with
    | nil =>
      rw [hdrop, List.drop_eq_nil_iff] at hrest
      omega
    | cons c rest =>
      rw [hdrop] at hhead
      simpa using hhead

theorem splitViews_computes (d : UInt8) (v : View) : ∃ parts : List View,
    parts.map View.text = splitString d v.text ∧
      (∀ part ∈ parts.dropLast, part.behind.head? = some d) ∧
      Computes .diverges (splitViews d v) (.ok parts) := by
  have hdown (s : Nat × List View) (h : Splitting d v s) (hc : decide (s.1 < v.text.length) = true) :
      Splitting d v (splitTurn d v s) ∧
        v.text.length - (splitTurn d v s).1 < v.text.length - s.1 := by
    have hpos : s.1 < v.text.length := by simpa using hc
    refine ⟨h.turn hpos, ?_⟩
    rw [splitTurn_eq]
    omega
  have hinit : Splitting d v (0, []) := ⟨rfl, by simp, by simp⟩
  obtain ⟨⟨pos, parts⟩, ⟨htexts, hbehind, -⟩, hc, hends⟩ :=
    whileLoop_ends Fault.diverges _ (fun s => v.text.length - s.1) hdown hinit
  have hend : v.text.drop pos = [] := List.drop_eq_nil_of_le (by simpa using hc)
  rw [hend, splitString, List.append_nil] at htexts
  exact ⟨parts, htexts, hbehind, hends.bind_ok (.pure parts)⟩

end

section
variable {v : View}

/-- What the cut of `helper` keeps: the last '[' and what is before it. -/
structure Cutting (v s : View) : Prop where
  mem : charByte '[' ∈ s.text
  upTo : s.text.reverse.dropWhile (· ≠ charByte '[') = v.text.reverse.dropWhile (· ≠ charByte '[')

theorem Cutting.turn (h : Cutting v s) (hc : (!s.endsWith (charByte '[')) = true) :
    Cutting v (s.removeSuffix 1) ∧ (s.removeSuffix 1).text.length < s.text.length := by
  obtain ⟨hmem, hupTo⟩ := h
  obtain hs | ⟨front, last, hs⟩ := List.eq_nil_or_concat s.text
  · rw [hs] at hmem
    cases hmem
  · have htext : (s.removeSuffix 1).text = front := by simp [View.removeSuffix, hs]
    have hlast : last ≠ charByte '[' := by simpa [View.endsWith, hs] using hc
    rw [htext]
    refine ⟨⟨?_, ?_⟩, ?_⟩
    · simpa [hs, Ne.symm hlast, htext] using hmem
    · simpa [hs, hlast, htext] using hupTo
    · simp [hs]

/-- `helper` ends with the last '['. -/
theorem helper_computes (h : charByte '[' ∈ v.text) : ∃ helper : View,
    helper.text = (v.text.reverse.dropWhile (· ≠ charByte '[')).reverse ∧ Computes Fault.diverges
      (whileLoop (!View.endsWith · (charByte '[')) (·.removeSuffix 1) · v) (.ok helper) := by
  obtain ⟨helper, ⟨-, hupTo⟩, hc, hhelper⟩ := whileLoop_ends Fault.diverges (Cutting v)
    (fun s => s.text.length) (fun s hs hc => hs.turn hc) ⟨h, rfl⟩
  refine ⟨helper, ?_, hhelper⟩
  obtain ⟨front, hfront⟩ := List.getLast?_eq_some_iff.mp (by simpa [View.endsWith] using hc)
  rw [← hupTo, hfront]
  simp

/-- Without a '[' the view is emptied, and the loop goes on. -/
theorem helper_never (h : charByte '[' ∉ v.text) : Computes Fault.diverges
    (whileLoop (!View.endsWith · (charByte '[')) (·.removeSuffix 1) · v) (.error .diverges) := by
  refine whileLoop_never (fun s : View => charByte '[' ∉ s.text) (fun s hs => ⟨?_, ?_⟩) h
  · have hlast : s.text.getLast? ≠ some (charByte '[') := fun h => hs (List.mem_of_getLast? h)
    simpa [View.endsWith] using hlast
  · exact fun hmem => hs (List.mem_of_mem_take hmem)

structure Stripping (v s : View) : Prop where
  mem : charByte '[' ∈ s.text
  from_ : s.text.dropWhile (· ≠ charByte '[') = v.text.dropWhile (· ≠ charByte '[')
  behind : s.behind = v.behind

theorem Stripping.turn (h : Stripping v s) (hc : (!s.startsWith (charByte '[')) = true) :
    Stripping v (s.removePrefix 1) ∧ (s.removePrefix 1).text.length < s.text.length := by
  obtain ⟨hmem, hfrom, hbehind⟩ := h
  obtain ⟨c, rest, hs⟩ := List.exists_cons_of_ne_nil (List.ne_nil_of_mem hmem)
  have htext : (s.removePrefix 1).text = rest := by simp [View.removePrefix, hs]
  have hc : c ≠ charByte '[' := by simpa [View.startsWith, hs] using hc
  refine ⟨⟨?_, ?_, hbehind⟩, ?_⟩
  · simpa [hs, Ne.symm hc, htext] using hmem
  · simpa [hs, hc, htext] using hfrom
  · simp [htext, hs]

theorem view_computes (h : charByte '[' ∈ v.text) : Computes Fault.diverges
    (whileLoop (!View.startsWith · (charByte '[')) (·.removePrefix 1) · v)
    (.ok ⟨v.text.dropWhile (· ≠ charByte '['), v.behind⟩) := by
  obtain ⟨⟨text, behind⟩, ⟨-, hfrom, hbehind⟩, hc, hview⟩ := whileLoop_ends Fault.diverges
    (Stripping v) (fun s => s.text.length) (fun s hs hc => hs.turn hc) ⟨h, rfl, rfl⟩
  obtain ⟨rest, hrest⟩ := List.head?_eq_some_iff.mp (by simpa [View.startsWith] using hc)
  have hstrip : text.dropWhile (· ≠ charByte '[') = text := by
    rw [hrest]
    exact List.dropWhile_cons_of_neg (by simp)
  rw [← hfrom, ← hbehind, hstrip]
  exact hview

theorem typeLoops_computes (v : View) : Computes .diverges (typeLoops v)
    ((parseType v.text).map fun (type, otherTypeId, view) => (type, otherTypeId, ⟨view, v.behind⟩)) := by
  unfold typeLoops parseType
  cases primitiveTypes.find? (·.1.isPrefixOf v.text) with
  | some found => exact .pure _
  | none =>
    have hends : v.endsWith (charByte ']') = true ↔ v.text.getLast? = some (charByte ']') :=
      decide_eq_true_iff
    by_cases hclose : v.endsWith (charByte ']') = true
    · simp only [hclose, if_true, if_pos (hends.mp hclose)]
      by_cases hopen : charByte '[' ∈ v.text
      · obtain ⟨helper, htext, hhelper⟩ := helper_computes hopen
        rw [if_pos hopen, List.dropLast_eq_take, ← htext]
        exact hhelper.bind_ok ((view_computes hopen).bind_ok (.pure _))
      · rw [if_neg hopen]
        exact (helper_never hopen).bind_error
    · simp only [hclose, if_neg fun h => hclose (hends.mpr h)]
      exact .pure _

theorem View.front_ne (h : charByte ']' ∉ v.text) (hbehind : v.behind.head? = some (charByte ' ')) :
    v.front ≠ charByte ']' := by
  obtain ⟨rest, hrest⟩ := List.head?_eq_some_iff.mp hbehind
  unfold View.front
  cases htext : v.text with
  | nil =>
    rw [hrest]
    exact (by decide : charByte ' ' ≠ charByte ']')
  | cons c text => exact fun heq => h (htext ▸ heq ▸ List.mem_cons_self)

structure Reading (v : View) (n : Int) (s : View × Int) : Prop where
  mem : charByte ']' ∈ s.1.text
  size : parseDigits s.1.text s.2 = parseDigits v.text n

theorem Reading.turn (h : Reading v n s) (hc : decide (s.1.front ≠ charByte ']') = true) :
    Reading v n (digitTurn s) ∧ (digitTurn s).1.text.length < s.1.text.length := by
  obtain ⟨⟨text, behind⟩, m⟩ := s
  obtain ⟨hmem, hsize⟩ := h
  obtain ⟨c, rest, rfl⟩ := List.exists_cons_of_ne_nil (List.ne_nil_of_mem hmem)
  have hc : c ≠ charByte ']' := of_decide_eq_true hc
  refine ⟨⟨(List.mem_cons.mp hmem).resolve_left hc.symm, ?_⟩, Nat.lt_succ_self _⟩
  rw [← hsize]
  exact (if_neg hc).symm

/-- Behind the view there is a blank, and the view does not come to it. -/
theorem digits_never (h : charByte ']' ∉ v.text) (n : Int)
    (hbehind : v.behind.head? = some (charByte ' ')) : Computes Fault.diverges
      (whileLoop (fun (view, _) => view.front ≠ charByte ']') digitTurn · (v, n))
      (.error .diverges) := by
  refine whileLoop_never
    (fun s => charByte ']' ∉ s.1.text ∧ s.1.behind.head? = some (charByte ' '))
    (fun s hs => ⟨?_, ?_, hs.2⟩) ⟨h, hbehind⟩
  · exact decide_eq_true (s.1.front_ne hs.1 hs.2)
  · exact fun h => hs.1 (List.mem_of_mem_drop h)

theorem parseDigits_of_notMem (h : charByte ']' ∉ view) : parseDigits view n = .error .diverges := by
  induction view generalizing n with
  | nil => rfl
  | cons c view ih =>
    rw [List.mem_cons, not_or] at h
    rw [parseDigits, if_neg (Ne.symm h.1), ih h.2]

/-- The digits are read up to a ']', and for ever when there is none. -/
theorem digits_computes (n : Int) (hbehind : v.behind.head? = some (charByte ' ')) :
    Computes Fault.diverges (fun fuel => do
      let (_, arraySize) ← whileLoop (fun (view, _) => view.front ≠ charByte ']') digitTurn fuel (v, n)
      return arraySize) (parseDigits v.text n) := by
  by_cases hmem : charByte ']' ∈ v.text
  · have hinit : Reading v n (v, n) := ⟨hmem, rfl⟩
    obtain ⟨⟨⟨text, behind⟩, m⟩, ⟨hmem, hsize⟩, hc, hends⟩ := whileLoop_ends Fault.diverges _
      (fun s => s.1.text.length) (fun s hs hc => hs.turn hc) hinit
    obtain ⟨c, rest, rfl⟩ := List.exists_cons_of_ne_nil (List.ne_nil_of_mem hmem)
    have hc : c = charByte ']' := not_not.mp (of_decide_eq_false hc)
    rw [← hsize, parseDigits, if_pos hc]
    exact hends.bind_ok (.pure m)
  · rw [parseDigits_of_notMem hmem]
    exact (digits_never hmem n hbehind).bind_error

theorem arraySizeLoops_computes (hbehind : v.behind.head? = some (charByte ' ')) :
    Computes .diverges (arraySizeLoops v) (parseArraySize v.text) := by
  obtain ⟨text, behind⟩ := v
  unfold arraySizeLoops parseArraySize
  match text with
  | [] => exact .pure 1
  | c :: view =>
    have hfront : (⟨c :: view, behind⟩ : View).front = c := rfl
    by_cases hc : c = charByte '['
    · simp only [hc, ne_eq, reduceCtorEq, not_false_eq_true, true_and, if_true]
      match view with
      | [] => exact digits_computes (v := ⟨[], behind⟩) _ hbehind
      | digit :: view => exact digits_computes (v := ⟨view, behind⟩) _ hbehind
    · simp only [hfront, hc, and_false, if_false]
      exact .pure 1

theorem fieldLoops_computes (v : View) : Computes .diverges (fieldLoops v) (parseField v.text) := by
  obtain ⟨parts, htexts, hbehind, hparts⟩ := splitViews_computes (charByte ' ') v
  unfold parseField fieldLoops
  rw [← htexts]
  match parts with
  | [] => exact hparts.bind_ok (.throw nofun)
  | [_] => exact hparts.bind_ok (.throw nofun)
  | fieldType :: fieldName :: more =>
    have hblank := hbehind fieldType (by simp)
    have htype := typeLoops_computes fieldType
    refine hparts.bind_ok ?_
    simp only [List.map_cons]
    cases hparse : parseType fieldType.text with
    | error e =>
      rw [hparse] at htype
      exact htype.bind_error
    | ok r =>
      obtain ⟨type, otherTypeId, view⟩ := r
      rw [hparse] at htype
      have hsize := arraySizeLoops_computes (v := ⟨view, fieldType.behind⟩) hblank
      exact htype.bind_ok (hsize.bind fun _ _ => .pure _)

/-- The loops and the functions on texts come to the same. -/
theorem formatLoops_computes (text : Bytes) :
    Computes .diverges (formatLoops text) (parseFormatText text) := by
  unfold formatLoops parseFormatText
  split
  · obtain ⟨parts, htexts, -, hparts⟩ :=
      splitViews_computes (charByte ';') ⟨(text.dropWhile (· ≠ charByte ':')).tail, []⟩
    rw [← htexts, List.mapM_map]
    refine hparts.bind_ok (Computes.bind ?_ fun _ _ => .pure _)
    exact .mapM fun v _ => fieldLoops_computes v
  · exact .pure _

end

-- ---------------------------------------------------------------------------
-- The texts they end on
-- ---------------------------------------------------------------------------

def hasName (fieldSection : Bytes) : Bool := 2 ≤ (splitString (charByte ' ') fieldSection).length

/-- Up to the first section without a name, each one has a type that can be read. -/
def LoopsEnd (text : Bytes) : Prop := charByte ':' ∈ text →
  ∀ s ∈ (splitString (charByte ';') (text.dropWhile (· ≠ charByte ':')).tail).takeWhile hasName,
    FieldSection s

theorem parseDigits_error (h : parseDigits view n = .error e) : e = .diverges := by
  by_cases hmem : charByte ']' ∈ view
  · obtain ⟨m, hm⟩ := parseDigits_of_mem hmem n
    rw [hm] at h
    cases h
  · rw [parseDigits_of_notMem hmem] at h
    exact (Except.error.inj h).symm

theorem parseArraySize_error (h : parseArraySize view = .error e) : e = .diverges := by
  unfold parseArraySize at h
  split at h
  · cases h
  · split at h
    · split at h
      · exact (Except.error.inj h).symm
      · exact parseDigits_error h
    · cases h

theorem parseType_error (h : parseType fieldType = .error e) : e = .diverges := by
  unfold parseType at h
  split at h
  · cases h
  · split at h
    · split at h
      · cases h
      · exact (Except.error.inj h).symm
    · cases h

theorem parseField_of_hasName (h : hasName s = true) (herror : parseField s = .error e) :
    e = .diverges := by
  unfold parseField at herror
  split at herror
  · obtain herror | ⟨r, -, herror⟩ := bind_eq_error.mp herror
    · exact parseType_error herror
    · obtain herror | ⟨n, -, herror⟩ := bind_eq_error.mp herror
      · exact parseArraySize_error herror
      · cases herror
  · rename_i hsplit
    unfold hasName at h
    match hs : splitString (charByte ' ') s with
    | [] => simp [hs] at h
    | [_] => simp [hs] at h
    | fieldType :: fieldName :: more => exact absurd hs (hsplit _ _ _)

theorem parseField_of_not_hasName (h : hasName s = false) : parseField s = .error .outOfRange := by
  unfold parseField
  split
  · rename_i hsplit
    simp [hasName, hsplit] at h
  · rfl

theorem mapM_parseField_iff {sections : List Bytes} :
    sections.mapM parseField ≠ .error .diverges ↔ ∀ s ∈ sections.takeWhile hasName, FieldSection s := by
  induction sections with
  | nil => simp [pure_eq_ok]
  | cons s sections ih =>
    rw [List.mapM_cons]
    cases hname : hasName s with
    | false =>
      rw [parseField_of_not_hasName hname, List.takeWhile_cons_of_neg (by simp [hname])]
      simp
    | true =>
      rw [List.takeWhile_cons_of_pos hname, List.forall_mem_cons, ← ih, ← parseField_iff]
      cases hfield : parseField s with
      | error e => simp [parseField_of_hasName hname hfield]
      | ok field =>
        rw [ok_bind]
        cases sections.mapM parseField with
        | error e => simp
        | ok fields => simp [pure_eq_ok]

theorem parseFormatText_ends_iff : parseFormatText text ≠ .error .diverges ↔ LoopsEnd text := by
  unfold parseFormatText LoopsEnd
  split
  · rename_i hcolon
    rw [imp_iff_right hcolon, ← mapM_parseField_iff]
    cases (splitString (charByte ';') (text.dropWhile (· ≠ charByte ':')).tail).mapM parseField with
    | error e => simp
    | ok fields => simp [pure_eq_ok]
  · rename_i hcolon
    simp [hcolon, pure_eq_ok]

/-- `parse_format` returns or throws, after finitely many turns, on these texts and no others. -/
theorem formatLoops_end_iff (text : Bytes) :
    (∃ fuel r, (formatLoops text fuel).run = some r) ↔ LoopsEnd text :=
  (formatLoops_computes text).ends_iff.trans parseFormatText_ends_iff

/-- No '[' comes before the ']'. -/
theorem formatLoops_never_closing :
    ¬ ∃ fuel r, (formatLoops (ascii "T:x] a;") fuel).run = some r := by
  have hnever : parseFormatText (ascii "T:x] a;") = .error .diverges := by decide
  exact fun h => (formatLoops_computes _).ends_iff.mp h hnever

end Mutelemetry.Parse
