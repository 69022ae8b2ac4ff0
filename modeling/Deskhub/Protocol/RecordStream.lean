import Deskhub.Lib.Framing
import Deskhub.Lib.Machine
import Deskhub.Protocol.Wire.Header

/-!
# Records on a stream

`BuildRecord`, `ReadRecord` and `RecordStream`: messages behind a 16-bit length.
However the stream is cut, the messages in front of the first length that is not
allowed come out, and nothing behind it does.
-/

namespace Deskhub

def kRecordPrefixSize : Nat := 2
def kMaxRecordBacklog : Nat := kRecordPrefixSize + kMaxRecordSize

inductive RecordStatus where
  | ok | needMore | invalid
deriving DecidableEq, Repr

structure RecordView where
  status : RecordStatus := .needMore
  message : Bytes := []
  consumed : Nat := 0
deriving DecidableEq, Repr

def buildRecord (cap : Nat) (message : Bytes) : Option Bytes :=
  if message = [] ∨ kMaxRecordSize < message.length then none
  else if cap < kRecordPrefixSize + message.length then none
  else some (putU16 (UInt16.ofNat message.length) ++ message)

def readRecord (buffer : Bytes) : RecordView :=
  if buffer.length < kRecordPrefixSize then {}
  else
    let len := (getU16 buffer).toNat
    if len = 0 ∨ kMaxRecordSize < len then { status := .invalid }
    else if buffer.length < kRecordPrefixSize + len then {}
    else
      { status := .ok
        message := (buffer.drop kRecordPrefixSize).take len
        consumed := kRecordPrefixSize + len }

structure RecordStream where
  buffer : Bytes := []
  consumed : Nat := 0
  failed : Bool := false
deriving DecidableEq, Repr

namespace RecordStream

def compact (s : RecordStream) : RecordStream :=
  if s.consumed = 0 then s else { s with buffer := s.buffer.drop s.consumed, consumed := 0 }

def append (s : RecordStream) (bytes : Bytes) : RecordStream :=
  if s.failed ∨ bytes = [] then s
  else
    let s := s.compact
    if kMaxRecordBacklog < s.buffer.length then { buffer := [], consumed := 0, failed := true }
    else { s with buffer := s.buffer ++ bytes }

/-- `Next`: the message, when there is one. -/
def next (s : RecordStream) : RecordStream × Option Bytes :=
  if s.failed then (s, none)
  else
    let record := readRecord (s.buffer.drop s.consumed)
    match record.status with
    | .invalid => ({ buffer := [], consumed := 0, failed := true }, none)
    | .needMore => (s, none)
    | .ok =>
        let consumed := s.consumed + record.consumed
        (if consumed = s.buffer.length then { s with buffer := [], consumed := 0 }
          else { s with consumed := consumed }, some record.message)

def reset (_ : RecordStream) : RecordStream := {}

/-- `Next` until it returns false, at most `fuel` times. -/
def drain : Nat → RecordStream → RecordStream × List Bytes
  | 0, s => (s, [])
  | fuel + 1, s =>
      match s.next with
      | (s, none) => (s, [])
      | (s, some message) =>
          let (s, messages) := drain fuel s
          (s, message :: messages)

/-- A chunk of the stream: `Append`, and `Next` until it returns false. Every message takes
a byte of the buffer, so there are turns enough. -/
def feed (s : RecordStream) (chunk : Bytes) : RecordStream × List Bytes :=
  let s := s.append chunk
  drain (s.buffer.length + 1) s

end RecordStream

/-- The stream as a machine over its chunks. -/
def recordFeed : Machine RecordStream Bytes Bytes where
  step := RecordStream.feed

/-- The calls on a stream. -/
inductive RecordCall where
  | append (bytes : Bytes)
  | next
  | reset
deriving DecidableEq, Repr

/-- The stream as a machine over its calls. -/
def recordStream : Machine RecordStream RecordCall Bytes where
  step s
    | .append bytes => (s.append bytes, [])
    | .next =>
        let (s, message) := s.next
        (s, message.toList)
    | .reset => (s.reset, [])

/-! ## Reading records -/

/-- What `ReadRecord` says of the front of a stream. -/
def recordVerdict (buffer : Bytes) : Verdict UInt8 Bytes :=
  match (readRecord buffer).status with
  | .needMore => .more
  | .invalid => .bad
  | .ok => .item (readRecord buffer).message (buffer.drop (readRecord buffer).consumed)

/-- A message that may stand in a record. -/
def RecordSized (message : Bytes) : Prop := 0 < message.length ∧ message.length ≤ kMaxRecordSize

/-- The record of a message. -/
def record (message : Bytes) : Bytes := putU16 (UInt16.ofNat message.length) ++ message

/-- What is built is the record of a message that may stand in one. -/
theorem buildRecord_eq_some {cap : Nat} {message d : Bytes} (h : buildRecord cap message = some d) :
    RecordSized message ∧ d = record message := by
  unfold buildRecord at h
  split at h
  · cases h
  · next hsize =>
    push Not at hsize
    split at h
    · cases h
    · cases h
      exact ⟨⟨List.length_pos_iff.mpr hsize.1, hsize.2⟩, rfl⟩

/-- The length in front of a record. -/
theorem getU16_record {message : Bytes} (h : RecordSized message) (rest : Bytes) :
    (getU16 (record message ++ rest)).toNat = message.length := by
  have hmax : message.length ≤ 16384 := h.2
  unfold record
  rw [List.append_assoc, getU16_putU16, UInt16.toNat_ofNat', Nat.mod_eq_of_lt (by omega)]

theorem length_record (message : Bytes) : (record message).length = kRecordPrefixSize + message.length := by
  simp [record, kRecordPrefixSize]

/-- A record in front is read, whatever stands behind it. -/
theorem readRecord_record {message : Bytes} (h : RecordSized message) (rest : Bytes) :
    readRecord (record message ++ rest) =
      { status := .ok, message := message, consumed := (record message).length } := by
  have hlen := getU16_record h rest
  have hpos := h.1
  have hmax := h.2
  have htotal : (record message ++ rest).length = kRecordPrefixSize + message.length + rest.length := by
    rw [List.length_append, length_record]
  have hmessage : ((record message ++ rest).drop kRecordPrefixSize).take message.length = message :=
    List.take_left
  unfold readRecord
  rw [if_neg (by omega)]
  dsimp only
  rw [hlen, if_neg (by omega), if_neg (by omega), hmessage, length_record]

/-- What is read as a record is one. -/
theorem record_of_readRecord {buffer : Bytes} (h : (readRecord buffer).status = .ok) :
    RecordSized (readRecord buffer).message ∧
      buffer = record (readRecord buffer).message ++ buffer.drop (readRecord buffer).consumed := by
  rcases buffer with _ | ⟨a, _ | ⟨b, rest⟩⟩
  · cases h
  · cases h
  · unfold readRecord at h ⊢
    rw [if_neg (by simp [kRecordPrefixSize])] at h ⊢
    dsimp only at h ⊢
    by_cases hbad : (getU16 (a :: b :: rest)).toNat = 0 ∨ kMaxRecordSize < (getU16 (a :: b :: rest)).toNat
    · rw [if_pos hbad] at h
      cases h
    · rw [if_neg hbad] at h ⊢
      by_cases hshort : (a :: b :: rest).length < kRecordPrefixSize + (getU16 (a :: b :: rest)).toNat
      · rw [if_pos hshort] at h
        cases h
      · rw [if_neg hshort]
        have hput := putU16_getU16 a b rest
        generalize getU16 (a :: b :: rest) = len at hput hbad hshort ⊢
        dsimp only
        have hlen : (rest.take len.toNat).length = len.toNat := by
          rw [List.length_take]
          simp [kRecordPrefixSize] at hshort
          omega
        have hmessage : ((a :: b :: rest).drop kRecordPrefixSize).take len.toNat = rest.take len.toNat :=
          rfl
        have hrest : (a :: b :: rest).drop (kRecordPrefixSize + len.toNat) = rest.drop len.toNat := by
          unfold kRecordPrefixSize
          rw [Nat.add_comm]
          rfl
        rw [hmessage, hrest]
        constructor
        · constructor <;> omega
        · unfold record
          rw [hlen, UInt16.ofNat_toNat, hput, List.append_assoc, List.take_append_drop]
          rfl

/-- A length that is not allowed stays so. -/
theorem readRecord_invalid_append {buffer : Bytes} (h : (readRecord buffer).status = .invalid)
    (rest : Bytes) : (readRecord (buffer ++ rest)).status = .invalid := by
  rcases buffer with _ | ⟨a, _ | ⟨b, tail⟩⟩
  · cases h
  · cases h
  · have hsame : getU16 (a :: b :: tail ++ rest) = getU16 (a :: b :: tail) := rfl
    unfold readRecord at h ⊢
    rw [if_neg (by simp [kRecordPrefixSize])] at h ⊢
    dsimp only at h ⊢
    rw [hsame]
    by_cases hbad : (getU16 (a :: b :: tail)).toNat = 0 ∨ kMaxRecordSize < (getU16 (a :: b :: tail)).toNat
    · rw [if_pos hbad]
    · rw [if_neg hbad] at h
      split at h
      · cases h
      · cases h

/-- What is short of a record is short of the largest one. -/
theorem readRecord_needMore_length {buffer : Bytes} (h : (readRecord buffer).status = .needMore) :
    buffer.length ≤ kMaxRecordBacklog := by
  unfold kMaxRecordBacklog
  by_contra hlong
  unfold readRecord at h
  rw [if_neg (by omega)] at h
  dsimp only at h
  split at h
  · cases h
  · next hlen =>
    rw [if_neg (by omega)] at h
    cases h

theorem recordVerdict_item {buffer message rest : Bytes}
    (h : recordVerdict buffer = .item message rest) :
    RecordSized message ∧ buffer = record message ++ rest := by
  unfold recordVerdict at h
  split at h
  · cases h
  · cases h
  · next hok =>
    cases h
    exact record_of_readRecord hok

theorem recordVerdict_record {message : Bytes} (h : RecordSized message) (rest : Bytes) :
    recordVerdict (record message ++ rest) = .item message rest := by
  unfold recordVerdict
  rw [readRecord_record h]
  simp

/-- Records as the items of a stream. -/
def recordReader : Reader UInt8 Bytes where
  read := recordVerdict
  shorter := by
    intro xs message rest h
    rcases recordVerdict_item h with ⟨-, rfl⟩
    rw [List.length_append, length_record]
    unfold kRecordPrefixSize
    omega
  item_append := by
    intro xs message rest h ys
    rcases recordVerdict_item h with ⟨hsized, rfl⟩
    rw [List.append_assoc]
    exact recordVerdict_record hsized _
  bad_append := by
    intro xs h ys
    have hbad : (readRecord xs).status = .invalid := by
      unfold recordVerdict at h
      split at h
      · cases h
      · assumption
      · cases h
    unfold recordVerdict
    rw [readRecord_invalid_append hbad]

/-! ## The stream -/

namespace RecordStream

/-- The bytes that are not read yet; nothing once the stream has failed. -/
def pending (s : RecordStream) : Option Bytes :=
  if s.failed then none else some (s.buffer.drop s.consumed)

theorem pending_eq_some {s : RecordStream} {rest : Bytes} :
    s.pending = some rest ↔ s.failed = false ∧ s.buffer.drop s.consumed = rest := by
  unfold pending
  cases s.failed <;> simp

theorem pending_eq_none {s : RecordStream} : s.pending = none ↔ s.failed = true := by
  unfold pending
  cases s.failed <;> simp

theorem append_of_failed {s : RecordStream} (h : s.failed = true) (bytes : Bytes) : s.append bytes = s := by
  unfold append
  rw [if_pos (Or.inl h)]

theorem next_of_failed {s : RecordStream} (h : s.failed = true) : s.next = (s, none) := by
  unfold next
  rw [if_pos h]

/-- A chunk joins what is pending, when that is no longer than a record. -/
theorem append_pending {s : RecordStream} {rest : Bytes} (h : s.pending = some rest)
    (hlen : rest.length ≤ kMaxRecordBacklog) (bytes : Bytes) :
    (s.append bytes).pending = some (rest ++ bytes) := by
  rcases pending_eq_some.mp h with ⟨hok, hrest⟩
  have hcompact : s.compact = { buffer := rest, consumed := 0, failed := false } := by
    unfold compact
    by_cases hzero : s.consumed = 0
    · rw [if_pos hzero]
      rw [hzero, List.drop_zero] at hrest
      cases s
      simp_all
    · rw [if_neg hzero, hrest, hok]
  unfold append
  by_cases hnil : bytes = []
  · rw [if_pos (Or.inr hnil), hnil, List.append_nil]
    exact h
  · rw [if_neg (by simp [hok, hnil]), hcompact]
    dsimp only
    rw [if_neg (by omega)]
    exact pending_eq_some.mpr ⟨rfl, rfl⟩

/-- `Next` says what the reader says of the bytes that are pending. -/
theorem next_more {s : RecordStream} {rest : Bytes} (h : s.pending = some rest)
    (hread : recordVerdict rest = .more) : s.next = (s, none) := by
  rcases pending_eq_some.mp h with ⟨hok, rfl⟩
  unfold recordVerdict at hread
  unfold next
  rw [if_neg (by simp [hok])]
  dsimp only
  split at hread
  · next hstatus => rw [hstatus]
  · cases hread
  · cases hread

theorem next_bad {s : RecordStream} {rest : Bytes} (h : s.pending = some rest)
    (hread : recordVerdict rest = .bad) :
    s.next = ({ buffer := [], consumed := 0, failed := true }, none) := by
  rcases pending_eq_some.mp h with ⟨hok, rfl⟩
  unfold recordVerdict at hread
  unfold next
  rw [if_neg (by simp [hok])]
  dsimp only
  split at hread
  · cases hread
  · next hstatus => rw [hstatus]
  · cases hread

theorem next_item {s : RecordStream} {buffer message rest : Bytes} (h : s.pending = some buffer)
    (hread : recordVerdict buffer = .item message rest) :
    s.next.2 = some message ∧ s.next.1.pending = some rest := by
  rcases pending_eq_some.mp h with ⟨hok, rfl⟩
  unfold recordVerdict at hread
  unfold next
  rw [if_neg (by simp [hok])]
  dsimp only
  split at hread
  · cases hread
  · cases hread
  · next hstatus =>
    cases hread
    rw [hstatus]
    refine ⟨rfl, ?_⟩
    rw [List.drop_drop]
    dsimp only
    split
    · next hall =>
      -- everything is read: the buffer is cleared
      rw [hall, List.drop_length]
      exact pending_eq_some.mpr ⟨hok, rfl⟩
    · exact pending_eq_some.mpr ⟨hok, rfl⟩

theorem drain_spec {fuel : Nat} {s : RecordStream} {rest : Bytes} (h : s.pending = some rest)
    (hfuel : rest.length < fuel) :
    (drain fuel s).2 = (recordReader.decode rest).1 ∧
      (drain fuel s).1.pending = (recordReader.decode rest).2 := by
  induction fuel generalizing s rest with
  | zero => omega
  | succ fuel ih =>
    unfold drain
    cases hread : recordVerdict rest with
    | more =>
      rw [next_more h hread, Reader.decode_more hread]
      exact ⟨rfl, h⟩
    | bad =>
      rw [next_bad h hread, Reader.decode_bad hread]
      exact ⟨rfl, rfl⟩
    | item message tail =>
      rcases next_item h hread with ⟨hout, hpending⟩
      have hshort := recordReader.shorter hread
      rcases ih hpending (by omega) with ⟨hmore, hend⟩
      rw [Reader.decode_item hread]
      have hnext : s.next = (s.next.1, some message) := by rw [← hout]
      rw [hnext]
      dsimp only
      rw [hmore]
      exact ⟨rfl, hend⟩

theorem drain_of_failed {s : RecordStream} (h : s.failed = true) (fuel : Nat) : drain fuel s = (s, []) := by
  cases fuel with
  | zero => rfl
  | succ fuel =>
    unfold drain
    rw [next_of_failed h]

/-- The stream follows the reader of records. -/
theorem follows : recordReader.Follows recordFeed pending := by
  constructor
  · intro s chunk hbad
    have hfailed := pending_eq_none.mp hbad
    show (s.feed chunk).2 = [] ∧ (s.feed chunk).1.pending = none
    unfold feed
    dsimp only
    rw [append_of_failed hfailed, drain_of_failed hfailed]
    exact ⟨rfl, hbad⟩
  · intro s chunk rest hpending hmore
    have hlen : rest.length ≤ kMaxRecordBacklog := by
      apply readRecord_needMore_length
      have hmore' : recordVerdict rest = .more := hmore
      unfold recordVerdict at hmore'
      split at hmore'
      · assumption
      · cases hmore'
      · cases hmore'
    have happend := append_pending hpending hlen chunk
    apply drain_spec happend
    rw [← (pending_eq_some.mp happend).2, List.length_drop]
    omega

end RecordStream

/-! ## The framing of a stream -/

/-- The records of messages, one behind the other. -/
def records (messages : List Bytes) : Bytes := (messages.map record).flatten

theorem decode_records {messages : List Bytes} (h : ∀ m ∈ messages, RecordSized m) (rest : Bytes) :
    recordReader.decode (records messages ++ rest) =
      (messages ++ (recordReader.decode rest).1, (recordReader.decode rest).2) := by
  induction messages with
  | nil => rfl
  | cons m messages ih =>
    have hfirst := recordVerdict_record (h m (by simp)) (records messages ++ rest)
    have hsplit : records (m :: messages) ++ rest = record m ++ (records messages ++ rest) := by
      simp [records]
    rw [hsplit, Reader.decode_item hfirst, ih (fun m' hm => h m' (by simp [hm]))]
    rfl

/-- Every stream is the records of some messages and a rest that does not start with one. -/
theorem exists_records (bytes : Bytes) : ∃ messages rest, (∀ m ∈ messages, RecordSized m) ∧
    bytes = records messages ++ rest ∧ (readRecord rest).status ≠ .ok := by
  induction hlen : bytes.length using Nat.strongRecOn generalizing bytes with
  | ind n ih =>
    cases hread : recordVerdict bytes with
    | more | bad =>
      refine ⟨[], bytes, by simp, rfl, ?_⟩
      intro hok
      unfold recordVerdict at hread
      rw [hok] at hread
      cases hread
    | item message tail =>
      rcases recordVerdict_item hread with ⟨hsized, hsplit⟩
      have hshort := recordReader.shorter hread
      rcases ih tail.length (hlen ▸ hshort) tail rfl with ⟨messages, rest, hall, htail, hend⟩
      refine ⟨message :: messages, rest, ?_, ?_, hend⟩
      · intro m hm
        rcases List.mem_cons.mp hm with rfl | hm
        · exact hsized
        · exact hall m hm
      · rw [hsplit, htail]
        simp [records]

theorem built_records {messages built : List Bytes}
    (h : List.Forall₂ (fun m d => ∃ cap, buildRecord cap m = some d) messages built) :
    (∀ m ∈ messages, RecordSized m) ∧ built.flatten = records messages := by
  induction h with
  | nil => exact ⟨by simp, rfl⟩
  | cons hone _ ih =>
    rcases hone with ⟨cap, hone⟩
    rcases buildRecord_eq_some hone with ⟨hsized, rfl⟩
    constructor
    · intro m hm
      rcases List.mem_cons.mp hm with rfl | hm
      · exact hsized
      · exact ih.1 m hm
    · rw [List.flatten_cons, ih.2]
      rfl

/-- A fresh stream gives what the whole of its bytes decodes to. -/
theorem recordFeed_run (chunks : List Bytes) :
    (recordFeed.run {} chunks).2 = (recordReader.decode chunks.flatten).1 ∧
      (recordFeed.run {} chunks).1.pending = (recordReader.decode chunks.flatten).2 := by
  have hstart : ({} : RecordStream).pending = some [] := rfl
  have hmore : recordReader.read [] = .more := rfl
  exact RecordStream.follows.run hstart hmore chunks

theorem recordFeed_failed (chunks : List Bytes) :
    (recordFeed.run {} chunks).1.failed = true ↔ (recordReader.decode chunks.flatten).2 = none := by
  rw [← (recordFeed_run chunks).2, RecordStream.pending_eq_none]

/-- The messages in front of a rest that does not start with a record, and whether that rest is
bad. -/
theorem decode_of_rest {messages : List Bytes} (h : ∀ m ∈ messages, RecordSized m) {rest : Bytes}
    (hrest : (readRecord rest).status ≠ .ok) :
    (recordReader.decode (records messages ++ rest)).1 = messages ∧
      ((recordReader.decode (records messages ++ rest)).2 = none ↔
        (readRecord rest).status = .invalid) := by
  rw [decode_records h]
  cases hstatus : (readRecord rest).status with
  | ok => exact absurd hstatus hrest
  | needMore =>
    have hmore : recordReader.read rest = .more := by
      show recordVerdict rest = _
      unfold recordVerdict
      rw [hstatus]
    rw [Reader.decode_more hmore]
    simp
  | invalid =>
    have hbad : recordReader.read rest = .bad := by
      show recordVerdict rest = _
      unfold recordVerdict
      rw [hstatus]
    rw [Reader.decode_bad hbad]
    simp

/-- A failed stream gives nothing, whatever is called on it but a reset. -/
theorem failed_run {s : RecordStream} (h : s.failed = true) {calls : List RecordCall}
    (hreset : .reset ∉ calls) :
    (recordStream.run s calls).2 = [] ∧ (recordStream.run s calls).1.failed = true := by
  induction calls generalizing s with
  | nil => exact ⟨rfl, h⟩
  | cons call calls ih =>
    have hstep : recordStream.step s call = (s, []) := by
      cases call with
      | append bytes =>
        show (s.append bytes, []) = _
        rw [RecordStream.append_of_failed h]
      | next =>
        show (s.next.1, s.next.2.toList) = _
        rw [RecordStream.next_of_failed h]
        rfl
      | reset => exact absurd (by simp) hreset
    rw [Machine.run_cons, hstep]
    exact ih h (fun hmem => hreset (by simp [hmem]))

/-- The framing of a stream does not depend on how it is cut. Built records give their messages;
any stream gives the messages in front of the first length that is not allowed, and fails when
there is one; a failed stream gives nothing until it is reset. -/
theorem recordFraming :
    (∀ messages built chunks : List Bytes,
      List.Forall₂ (fun m d => ∃ cap, buildRecord cap m = some d) messages built →
      chunks.flatten = built.flatten →
      (recordFeed.run {} chunks).2 = messages ∧ (recordFeed.run {} chunks).1.failed = false) ∧
    (∀ chunks chunks' : List Bytes, chunks.flatten = chunks'.flatten →
      (recordFeed.run {} chunks).2 = (recordFeed.run {} chunks').2 ∧
        (recordFeed.run {} chunks).1.failed = (recordFeed.run {} chunks').1.failed) ∧
    (∀ chunks : List Bytes, ∃ messages rest, (∀ m ∈ messages, RecordSized m) ∧
      chunks.flatten = records messages ++ rest ∧ (readRecord rest).status ≠ .ok ∧
      (recordFeed.run {} chunks).2 = messages ∧
      ((recordFeed.run {} chunks).1.failed = true ↔ (readRecord rest).status = .invalid)) ∧
    ∀ (s : RecordStream) (calls : List RecordCall), s.failed = true → .reset ∉ calls →
      (recordStream.run s calls).2 = [] ∧ (recordStream.run s calls).1.failed = true := by
  refine ⟨?_, ?_, ?_, fun s calls h hreset => failed_run h hreset⟩
  · intro messages built chunks hbuilt hflat
    rcases built_records hbuilt with ⟨hsized, hrecords⟩
    have hempty : (readRecord []).status ≠ .ok := by decide
    rcases decode_of_rest hsized hempty with ⟨hout, hend⟩
    rw [List.append_nil, ← hrecords, ← hflat] at hout hend
    refine ⟨(recordFeed_run chunks).1.trans hout, ?_⟩
    apply Bool.eq_false_iff.mpr
    intro hfailed
    have hinvalid := hend.mp ((recordFeed_failed chunks).mp hfailed)
    exact absurd hinvalid (by decide)
  · intro chunks chunks' hflat
    have hiff := (recordFeed_failed chunks).trans (hflat ▸ (recordFeed_failed chunks').symm)
    refine ⟨?_, Bool.eq_iff_iff.mpr hiff⟩
    rw [(recordFeed_run chunks).1, (recordFeed_run chunks').1, hflat]
  · intro chunks
    rcases exists_records chunks.flatten with ⟨messages, rest, hsized, hsplit, hrest⟩
    rcases decode_of_rest hsized hrest with ⟨hout, hend⟩
    rw [← hsplit] at hout hend
    refine ⟨messages, rest, hsized, hsplit, hrest, (recordFeed_run chunks).1.trans hout, ?_⟩
    exact (recordFeed_failed chunks).trans hend

/-- A record of two bytes, cut inside its length. -/
example : recordFeed.run {} [[0], [2, 7], [], [9, 0]] =
    ({ buffer := [0, 2, 7, 9, 0], consumed := 4, failed := false }, [[7, 9]]) := by
  decide

end Deskhub
