import Mutelemetry.Parse.Step

/-!
# Framed messages

What the parser reads of a message that is framed as its header says, wherever
it lies in the buffer: the fields of an A and of a D message, and a record of
the two.
-/

namespace Mutelemetry.Parse

open ByteString Stateful Ulog

-- ---------------------------------------------------------------------------
-- Reads
-- ---------------------------------------------------------------------------

section
variable {buffer : Bytes} (pre post : Bytes)

theorem fetch_at {mid : Bytes} (hbuf : buffer = pre ++ (mid ++ post)) (hpos : pos = pre.length)
    (hn : n = mid.length) : fetch buffer ↑pos n = .ok mid := by
  rw [hpos, hn, fetch_eq_ok, hbuf]
  exact window_append pre mid post

theorem readUInt8_at (b : UInt8) (hbuf : buffer = pre ++ ([b] ++ post)) (hpos : pos = pre.length) :
    readUInt8 buffer pos = .ok b := by
  rw [readUInt8, fetch_at pre post hbuf hpos (by simp)]
  simp [Except.map, leNat]

theorem readUInt16_at (x : UInt16) (hbuf : buffer = pre ++ (leBytes 2 x.toNat ++ post))
    (hpos : pos = pre.length) : readUInt16 buffer pos = .ok x := by
  rw [readUInt16, fetch_at pre post hbuf hpos (by simp)]
  simp [Except.map]

theorem readUInt64_at (x : UInt64) (hbuf : buffer = pre ++ (leBytes 8 x.toNat ++ post))
    (hpos : pos = pre.length) : readUInt64 buffer pos = .ok x := by
  rw [readUInt64, fetch_at pre post hbuf hpos (by simp)]
  simp [Except.map]

theorem headerSize_at (t : ULogMessageType) (body : Bytes)
    (hbuf : buffer = pre ++ (frame t body ++ post)) (hpos : pos = pre.length) :
    headerSize buffer pos = .ok (.ofNat body.length) := by
  refine readUInt16_at pre ([t.code] ++ (body ++ post)) _ ?_ hpos
  rw [hbuf]
  simp [frame, ULogMessageHeader.bytes]

theorem headerType_at (t : ULogMessageType) (body : Bytes)
    (hbuf : buffer = pre ++ (frame t body ++ post)) (hpos : pos = pre.length) :
    headerType buffer pos = .ok (some t) := by
  have h : readUInt8 buffer (pos + 2) = .ok t.code := by
    refine readUInt8_at (pre ++ leBytes 2 (UInt16.ofNat body.length).toNat) (body ++ post) _ ?_ ?_
    · rw [hbuf]
      simp [frame, ULogMessageHeader.bytes]
    · simp [hpos]
  rw [headerType, h]
  simp [Except.map]

theorem headerType_frame (type : ULogMessageType) (body post : Bytes) :
    headerType (frame type body ++ post) 0 = .ok (some type) :=
  headerType_at [] post type body rfl rfl

theorem headerSize_frame (type : ULogMessageType) (body post : Bytes) :
    headerSize (frame type body ++ post) 0 = .ok (.ofNat body.length) :=
  headerSize_at [] post type body rfl rfl

theorem headerSize_alone (type : ULogMessageType) (body : Bytes) :
    headerSize (frame type body) 0 = .ok (.ofNat body.length) :=
  headerSize_at [] [] type body (by simp) rfl

-- ---------------------------------------------------------------------------
-- Records
-- ---------------------------------------------------------------------------

def addBody (msgId : UInt16) (multiId : UInt8) (name : Bytes) : Bytes :=
  [multiId] ++ (leBytes 2 msgId.toNat ++ name)

@[simp] theorem length_addBody (msgId : UInt16) (multiId : UInt8) (name : Bytes) :
    (addBody msgId multiId name).length = 3 + name.length := by
  simp [addBody]
  omega

def subscriptionOf (formats : Formats) (msgId : UInt16) (multiId : UInt8) (name : Bytes) :
    Subscription where
  msgId := msgId
  multiId := multiId
  messageName := name
  format := if name ∈ formats then some name else none

theorem readSubscription_at (formats : Formats) (msgId : UInt16) (multiId : UInt8) (name : Bytes)
    (hbuf : buffer = pre ++ (addBody msgId multiId name ++ post)) (hpos : pos = pre.length)
    (hsize : size.toNat = (addBody msgId multiId name).length) :
    readSubscription formats buffer pos size = .ok (subscriptionOf formats msgId multiId name) := by
  have hmulti : readUInt8 buffer pos = .ok multiId :=
    readUInt8_at pre (leBytes 2 msgId.toNat ++ (name ++ post)) _ (by simp [hbuf, addBody]) hpos
  have hid : readUInt16 buffer (pos + 1) = .ok msgId :=
    readUInt16_at (pre ++ [multiId]) (name ++ post) _ (by simp [hbuf, addBody]) (by simp [hpos])
  have hname : fetch buffer ↑(pos + 3) (size.toNat - 3) = .ok name := by
    refine fetch_at (pre ++ [multiId] ++ leBytes 2 msgId.toNat) post ?_ ?_ ?_
    · simp [hbuf, addBody]
    · simp [hpos]
    · rw [hsize, length_addBody]
      omega
  rw [length_addBody] at hsize
  simp only [readSubscription, hmulti, hid, ok_bind, if_neg (show ¬ size.toNat < 3 by omega), hname]
  rfl

end

/-- An A message and, right behind it, a D message of the same identifier. -/
def addData (msgId : UInt16) (multiId : UInt8) (name payload : Bytes) : Bytes :=
  frame .A (addBody msgId multiId name) ++ frame .D (leBytes 2 msgId.toNat ++ payload)

def dataPos (name : Bytes) : Nat := 3 + (3 + name.length)

section
variable (msgId : UInt16) (multiId : UInt8) (name payload : Bytes)

theorem headerType_add : headerType (addData msgId multiId name payload) 0 = .ok (some .A) :=
  headerType_at [] _ .A _ rfl rfl

theorem headerSize_add : headerSize (addData msgId multiId name payload) 0 =
    .ok (.ofNat (3 + name.length)) := by
  rw [← length_addBody msgId multiId name]
  exact headerSize_at [] _ .A _ rfl rfl

theorem headerType_data : headerType (addData msgId multiId name payload) (dataPos name) =
    .ok (some .D) :=
  headerType_at (frame .A (addBody msgId multiId name)) [] .D (leBytes 2 msgId.toNat ++ payload)
    (by simp [addData]) (by simp [dataPos])

theorem msgId_data : readUInt16 (addData msgId multiId name payload) (dataPos name + 3) =
    .ok msgId := by
  refine readUInt16_at (frame .A (addBody msgId multiId name) ++
    (ULogMessageHeader.mk (.ofNat (leBytes 2 msgId.toNat ++ payload).length)
      ULogMessageType.D.code).bytes) payload msgId ?_ ?_
  · simp [addData, frame]
  · simp [dataPos]

theorem checkUlogDataBegin_add : checkUlogDataBegin (addData msgId multiId name payload) = true := by
  simp [addData, checkUlogDataBegin_frame]

variable {msgId multiId name payload} {p : MutelemetryParser}

theorem readSubscription_frame (hname : 3 + name.length < 2 ^ 16) (post : Bytes) :
    readSubscription formats (frame .A (addBody msgId multiId name) ++ post) (0 + 3)
      (.ofNat (3 + name.length)) = .ok (subscriptionOf formats msgId multiId name) := by
  refine readSubscription_at (ULogMessageHeader.mk (.ofNat (addBody msgId multiId name).length)
    ULogMessageType.A.code).bytes post _ _ _ _ ?_ ?_ ?_
  · simp [frame]
  · simp
  · rw [UInt16.toNat_ofNat_of_lt' hname, length_addBody]

theorem readSubscription_add (hname : 3 + name.length < 2 ^ 16) :
    readSubscription formats (addData msgId multiId name payload) (0 + 3)
      (.ofNat (3 + name.length)) = .ok (subscriptionOf formats msgId multiId name) :=
  readSubscription_frame hname _

/-- An A message asks for a subscription; a D message behind it is parsed after that. -/
theorem run_parseAddData_frame (hname : 3 + name.length < 2 ^ 16) (post : Bytes) :
    (parseAddData (frame .A (addBody msgId multiId name) ++ post) 0).run p =
      match behind (p.subscribe (subscriptionOf p.formats msgId multiId name))
        (frame .A (addBody msgId multiId name) ++ post) (dataPos name) with
      | (true, q) => (parseData (frame .A (addBody msgId multiId name) ++ post)
          (dataPos name + 3)).run q
      | (false, q) => .ok .definitionOrData q := by
  have hsize : headerSize (frame .A (addBody msgId multiId name) ++ post) 0 =
      .ok (.ofNat (3 + name.length)) := by
    rw [headerSize_frame, length_addBody]
  have hpos : 0 + 3 + (3 + name.length) = dataPos name := by rw [dataPos, Nat.zero_add]
  have hrun : (parseAddData (frame .A (addBody msgId multiId name) ++ post) 0).run p = _ :=
    run_parseAddData hsize
  rw [readSubscription_frame hname, UInt16.toNat_ofNat_of_lt' hname, hpos] at hrun
  exact hrun

theorem behind_data (msgId : UInt16) (multiId : UInt8) (name body : Bytes) :
    behind p (frame .A (addBody msgId multiId name) ++ frame .D body) (dataPos name) = (true, p) := by
  have ht : headerType (frame .A (addBody msgId multiId name) ++ frame .D body) (dataPos name) =
      .ok (some .D) :=
    headerType_at (frame .A (addBody msgId multiId name)) [] .D body (by simp) (by simp [dataPos])
  rw [behind, ht]
  rfl

theorem run_parseAddData_add (hname : 3 + name.length < 2 ^ 16) :
    (parseAddData (addData msgId multiId name payload) 0).run p =
      (parseData (addData msgId multiId name payload) (dataPos name + 3)).run
        (p.subscribe (subscriptionOf p.formats msgId multiId name)) := by
  rw [addData, run_parseAddData_frame hname, behind_data]

theorem run_parse_add (hb : p.InBody) (hname : 3 + name.length < 2 ^ 16) :
    (parse (addData msgId multiId name payload) 0).run p =
      settle ((parseData (addData msgId multiId name payload) (dataPos name + 3)).run
        (p.subscribe (subscriptionOf p.formats msgId multiId name))) := by
  rw [run_parse_A hb (headerType_add msgId multiId name payload), run_parseAddData_add hname]

theorem run_parse_data (hs : p.state = .definitionOrData) :
    (parse (addData msgId multiId name payload) (dataPos name)).run p =
      settle ((parseData (addData msgId multiId name payload) (dataPos name + 3)).run p) :=
  run_parse_D hs (headerType_data msgId multiId name payload)

end

theorem lookup_subscribe (p : MutelemetryParser) (sub : Subscription) :
    (p.subscribe sub).subscriptions.lookup sub.msgId =
      some ((p.subscriptions.lookup sub.msgId).getD sub) := by
  simp only [MutelemetryParser.subscribe]
  split
  · rename_i h
    obtain ⟨sub', hsub'⟩ := Option.isSome_iff_exists.mp (AList.lookup_isSome.mpr h)
    simp [hsub']
  · rename_i h
    rw [AList.lookup_insert, AList.lookup_eq_none.mpr h, Option.getD_none]

end Mutelemetry.Parse
