import Deskhub.Protocol.Wire.Header

/-!
# Input messages

`BuildInputEvents` and `ParseInputEvents`: events behind the sequence number of
the first one.
-/

namespace Deskhub

def kInputHeaderSize : Nat := 5
def kInputEventSize : Nat := 19
def kMaxInputEvents : Nat := (kMaxDatagram - kCommonHeaderSize - kInputHeaderSize) / kInputEventSize

/-- The kind of an event; a received byte may name none of them. -/
inductive InputType where
  | key | mouseMove | mouseButton | mouseWheel
  | other (code : UInt8) (h : code = 0 ∨ 4 < code)
deriving DecidableEq, Repr

def InputType.code : InputType → UInt8
  | .key => 1
  | .mouseMove => 2
  | .mouseButton => 3
  | .mouseWheel => 4
  | .other c _ => c

def InputType.ofCode (c : UInt8) : InputType :=
  if h : c = 0 ∨ 4 < c then .other c h
  else if c = 1 then .key else if c = 2 then .mouseMove else if c = 3 then .mouseButton
  else .mouseWheel

@[simp] theorem InputType.ofCode_code (t : InputType) : InputType.ofCode t.code = t := by
  cases t with
  | other c h => exact dif_pos h
  | _ => rfl

structure InputEvent where
  type : InputType := .key
  timestampUs : UInt64 := 0
  a : Int32 := 0
  b : Int32 := 0
  state : UInt8 := 0
  absolute : UInt8 := 0
deriving DecidableEq, Repr

/-- The bytes of an event. -/
def inputEntry (ev : InputEvent) : Bytes :=
  [ev.type.code] ++ putU64 ev.timestampUs ++ putU32 ev.a.toUInt32 ++ putU32 ev.b.toUInt32 ++
    [ev.state, ev.absolute]

def buildInputEvents (cap : Nat) (sessionId firstSeq : UInt32) (events : List InputEvent) :
    Option Bytes :=
  if events = [] ∨ kMaxInputEvents < events.length then none
  else
    writeCommon cap .inputEvent 0 .input sessionId
      (putU32 firstSeq ++ [UInt8.ofNat events.length] ++ (events.map inputEntry).flatten)

/-- The event at a pointer. -/
def readInputEntry (e : Bytes) : InputEvent :=
  { type := .ofCode (byteAt e 0)
    timestampUs := getU64 (e.drop 1)
    a := (getU32 (e.drop 9)).toInt32
    b := (getU32 (e.drop 13)).toInt32
    state := byteAt e 17
    absolute := byteAt e 18 }

/-- `ParseInputEvents` into a span of `room` events: the first sequence number, and the events. -/
def parseInputEvents (payload : Bytes) (room : Nat) : Option (UInt32 × List InputEvent) :=
  if payload.length < kInputHeaderSize then none
  else
    let count := (byteAt payload 4).toNat
    if count = 0 ∨ room < count then none
    else if payload.length < kInputHeaderSize + count * kInputEventSize then none
    else
      some (getU32 payload, (List.range count).map fun i =>
        readInputEntry (payload.drop (kInputHeaderSize + i * kInputEventSize)))

/-- An event reads back as it was written, whatever stands behind it. -/
theorem readInputEntry_entry (ev : InputEvent) (rest : Bytes) :
    readInputEntry (inputEntry ev ++ rest) = ev := by
  have htime : getU64 ((inputEntry ev ++ rest).drop 1) = ev.timestampUs :=
    getU64_putU64 ev.timestampUs _
  have ha : getU32 ((inputEntry ev ++ rest).drop 9) = ev.a.toUInt32 := getU32_putU32 _ _
  have hb : getU32 ((inputEntry ev ++ rest).drop 13) = ev.b.toUInt32 := getU32_putU32 _ _
  have htype : InputType.ofCode (byteAt (inputEntry ev ++ rest) 0) = ev.type := ev.type.ofCode_code
  unfold readInputEntry
  rw [htype, htime, ha, hb]
  cases ev
  simp [inputEntry, byteAt, putU64, putU32]

theorem length_inputEntry (ev : InputEvent) : (inputEntry ev).length = kInputEventSize := rfl

theorem length_inputEntries (events : List InputEvent) :
    (events.map inputEntry).flatten.length = events.length * kInputEventSize := by
  induction events with
  | nil => rfl
  | cons ev events ih =>
    rw [List.map_cons, List.flatten_cons, List.length_append, ih, length_inputEntry, List.length_cons]
    unfold kInputEventSize
    omega

/-- The entries of a message, one behind the other. -/
theorem readInputEntries (events : List InputEvent) (rest : Bytes) :
    ((List.range events.length).map fun i =>
      readInputEntry (((events.map inputEntry).flatten ++ rest).drop (i * kInputEventSize))) = events := by
  induction events with
  | nil => rfl
  | cons ev events ih =>
    have hfirst := readInputEntry_entry ev ((events.map inputEntry).flatten ++ rest)
    rw [List.length_cons, List.range_succ_eq_map, List.map_cons, List.map_map]
    have hshift : ∀ i, readInputEntry
        ((((ev :: events).map inputEntry).flatten ++ rest).drop ((i + 1) * kInputEventSize)) =
        readInputEntry (((events.map inputEntry).flatten ++ rest).drop (i * kInputEventSize)) := by
      intro i
      have hskip : (i + 1) * kInputEventSize = (inputEntry ev).length + i * kInputEventSize := by
        rw [length_inputEntry]
        unfold kInputEventSize
        omega
      rw [hskip, List.map_cons, List.flatten_cons, List.append_assoc, ← List.drop_drop, List.drop_left]
    have hrest : (List.range events.length).map ((fun i => readInputEntry
        ((((ev :: events).map inputEntry).flatten ++ rest).drop (i * kInputEventSize))) ∘ Nat.succ) =
        events := by
      refine Eq.trans ?_ ih
      apply List.map_congr_left
      intro i _
      exact hshift i
    rw [hrest]
    refine congrArg (· :: events) ?_
    rw [Nat.zero_mul, List.drop_zero, List.map_cons, List.flatten_cons, List.append_assoc]
    exact hfirst

/-- A message of events reads back as it was built. -/
theorem parseInputEvents_build {cap room : Nat} {sessionId firstSeq : UInt32}
    {events : List InputEvent} {d : Bytes} (h : buildInputEvents cap sessionId firstSeq events = some d)
    (hroom : events.length ≤ room) :
    parseInputEvents (payloadOf d) room = some (firstSeq, events) := by
  unfold buildInputEvents at h
  split at h
  · cases h
  · next hsize =>
    push Not at hsize
    have hpos : 0 < events.length := List.length_pos_iff.mpr hsize.1
    have hmax : events.length ≤ 62 := hsize.2
    rw [payloadOf_writeCommon h]
    have hcount : (byteAt (putU32 firstSeq ++ [UInt8.ofNat events.length] ++
        (events.map inputEntry).flatten) 4).toNat = events.length := by
      show (UInt8.ofNat events.length).toNat = events.length
      rw [UInt8.toNat_ofNat', Nat.mod_eq_of_lt (by omega)]
    have hlen : (putU32 firstSeq ++ [UInt8.ofNat events.length] ++
        (events.map inputEntry).flatten).length =
        kInputHeaderSize + events.length * kInputEventSize := by
      rw [List.length_append, length_inputEntries]
      rfl
    have hentries := readInputEntries events []
    rw [List.append_nil] at hentries
    have hdrop : ∀ i, (putU32 firstSeq ++ [UInt8.ofNat events.length] ++
        (events.map inputEntry).flatten).drop (kInputHeaderSize + i * kInputEventSize) =
        ((events.map inputEntry).flatten).drop (i * kInputEventSize) := by
      intro i
      rw [← List.drop_drop]
      rfl
    unfold parseInputEvents
    rw [if_neg (by rw [hlen]; omega)]
    dsimp only
    rw [hcount, if_neg (by omega), if_neg (by rw [hlen]; omega)]
    simp only [hdrop, hentries]
    rw [List.append_assoc, getU32_putU32]

end Deskhub
