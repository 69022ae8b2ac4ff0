import Deskhub.Lib.Framing
import Deskhub.Session.SecureDesktopWire

/-!
# The stream of the secure desktop

However the pipe is cut, the messages in front of the first bad header come out as they were
encoded, and nothing behind it does.
-/

namespace Deskhub

/-! ## One message -/

@[simp] theorem SecureDesktopMsg.ofCode?_code (type : SecureDesktopMsg) :
    SecureDesktopMsg.ofCode? type.code = some type := by
  cases type <;> rfl

theorem SecureDesktopMsg.ofCode?_eq_some {byte : UInt8} {type : SecureDesktopMsg}
    (h : SecureDesktopMsg.ofCode? byte = some type) : byte = type.code := by
  unfold SecureDesktopMsg.ofCode? at h
  split at h
  · next hbyte =>
    cases h
    exact hbyte
  · split at h
    · next hbyte =>
      cases h
      exact hbyte
    · split at h
      · next hbyte =>
        cases h
        exact hbyte
      · split at h
        · next hbyte =>
          cases h
          exact hbyte
        · cases h

namespace SecureDesktopMessage

/-- A payload that a header may announce. -/
def Sized (message : SecureDesktopMessage) : Prop := message.payload.length ≤ kSecureDesktopMaxPayload

/-- The bytes of a message. -/
def bytes (message : SecureDesktopMessage) : Bytes := startMessage message.type message.payload

theorem length_bytes (message : SecureDesktopMessage) :
    message.bytes.length = kSecureDesktopHeaderSize + message.payload.length := by
  unfold bytes startMessage kSecureDesktopHeaderSize
  rw [List.length_cons, List.length_append, length_putU32]
  omega

end SecureDesktopMessage

/-- What `Next` says of the front of the bytes that are pending. -/
def secureDesktopVerdict (head : Bytes) : Verdict UInt8 SecureDesktopMessage :=
  if head.length < kSecureDesktopHeaderSize then .more
  else
    let length := (getU32 (head.drop 1)).toNat
    match SecureDesktopMsg.ofCode? (byteAt head 0) with
    | none => .bad
    | some type =>
      if kSecureDesktopMaxPayload < length then .bad
      else if head.length - kSecureDesktopHeaderSize < length then .more
      else
        .item { type, payload := (head.drop kSecureDesktopHeaderSize).take length }
          (head.drop (kSecureDesktopHeaderSize + length))

theorem secureDesktopVerdict_bytes {message : SecureDesktopMessage} (h : message.Sized) (rest : Bytes) :
    secureDesktopVerdict (message.bytes ++ rest) = .item message rest := by
  have hmax : message.payload.length < 2 ^ 32 := Nat.lt_of_le_of_lt h (by decide)
  have hlength : (message.bytes ++ rest).length =
      kSecureDesktopHeaderSize + message.payload.length + rest.length := by
    rw [List.length_append, message.length_bytes]
  have hvalue : (getU32 ((message.bytes ++ rest).drop 1)).toNat = message.payload.length := by
    have hdrop : (message.bytes ++ rest).drop 1 =
        putU32 (UInt32.ofNat message.payload.length) ++ (message.payload ++ rest) := by
      rw [← List.append_assoc]
      rfl
    rw [hdrop, getU32_putU32, toNat_length32 hmax]
  have htype : byteAt (message.bytes ++ rest) 0 = message.type.code := rfl
  have hpayload : ((message.bytes ++ rest).drop kSecureDesktopHeaderSize).take
      message.payload.length = message.payload := by
    have hdrop : (message.bytes ++ rest).drop kSecureDesktopHeaderSize = message.payload ++ rest := rfl
    rw [hdrop, List.take_left]
  have hrest : (message.bytes ++ rest).drop (kSecureDesktopHeaderSize + message.payload.length) = rest := by
    rw [← message.length_bytes, List.drop_left]
  unfold secureDesktopVerdict
  rw [if_neg (by omega)]
  dsimp only
  rw [hvalue, htype, SecureDesktopMsg.ofCode?_code]
  dsimp only
  rw [if_neg (Nat.not_lt.mpr h), if_neg (by omega), hpayload, hrest]

theorem secureDesktopVerdict_item {head : Bytes} {message : SecureDesktopMessage} {rest : Bytes}
    (h : secureDesktopVerdict head = .item message rest) :
    message.Sized ∧ head = message.bytes ++ rest := by
  rcases head with _ | ⟨type, _ | ⟨a, _ | ⟨b, _ | ⟨c, _ | ⟨d, tail⟩⟩⟩⟩⟩
  · cases h
  · cases h
  · cases h
  · cases h
  · cases h
  · unfold secureDesktopVerdict at h
    rw [if_neg (by simp [kSecureDesktopHeaderSize])] at h
    dsimp only at h
    split at h
    · cases h
    · next type' hknown =>
      split at h
      · cases h
      · next hmax =>
        split at h
        · cases h
        · next hfits =>
          have hdrop : (type :: a :: b :: c :: d :: tail).drop 1 = a :: b :: c :: d :: tail := rfl
          have hbody : (type :: a :: b :: c :: d :: tail).drop kSecureDesktopHeaderSize = tail := rfl
          rw [hdrop] at hmax hfits h
          rw [← List.drop_drop, hbody] at h
          have hlen : (type :: a :: b :: c :: d :: tail).length - kSecureDesktopHeaderSize =
              tail.length := by
            simp [kSecureDesktopHeaderSize]
          rw [hlen] at hfits
          have hput := putU32_getU32 a b c d tail
          generalize getU32 (a :: b :: c :: d :: tail) = length at hmax hfits h hput
          have htake : (tail.take length.toNat).length = length.toNat := by
            rw [List.length_take]
            omega
          cases h
          constructor
          · show (tail.take length.toNat).length ≤ _
            rw [htake]
            omega
          · unfold SecureDesktopMessage.bytes startMessage
            dsimp only
            have htype : type = type'.code := SecureDesktopMsg.ofCode?_eq_some hknown
            rw [htake, UInt32.ofNat_toNat, hput, List.cons_append, List.append_assoc,
              List.take_append_drop, htype]
            rfl

theorem secureDesktopVerdict_bad {head : Bytes} (h : secureDesktopVerdict head = .bad) (ys : Bytes) :
    secureDesktopVerdict (head ++ ys) = .bad := by
  rcases head with _ | ⟨type, _ | ⟨a, _ | ⟨b, _ | ⟨c, _ | ⟨d, tail⟩⟩⟩⟩⟩
  · cases h
  · cases h
  · cases h
  · cases h
  · cases h
  · unfold secureDesktopVerdict at h ⊢
    rw [if_neg (by simp [kSecureDesktopHeaderSize])] at h ⊢
    -- the header is the same
    change (match SecureDesktopMsg.ofCode? type with
      | none => Verdict.bad
      | some type' =>
        if kSecureDesktopMaxPayload < (getU32 (a :: b :: c :: d :: (tail ++ ys))).toNat then _ else _) = _
    have hsame : getU32 (a :: b :: c :: d :: (tail ++ ys)) = getU32 (a :: b :: c :: d :: tail) := rfl
    rw [hsame]
    change (match SecureDesktopMsg.ofCode? type with
      | none => Verdict.bad
      | some type' =>
        if kSecureDesktopMaxPayload < (getU32 (a :: b :: c :: d :: tail)).toNat then _ else _) = _ at h
    split at h
    · rfl
    · split at h
      · next hlong => rw [if_pos hlong]
      · split at h
        · cases h
        · cases h

/-- The messages as the items of a stream. -/
def secureDesktopReader : Reader UInt8 SecureDesktopMessage where
  read := secureDesktopVerdict
  shorter := by
    intro xs message rest h
    rcases secureDesktopVerdict_item h with ⟨-, rfl⟩
    rw [List.length_append, message.length_bytes]
    unfold kSecureDesktopHeaderSize
    omega
  item_append := by
    intro xs message rest h ys
    rcases secureDesktopVerdict_item h with ⟨hsized, rfl⟩
    rw [List.append_assoc]
    exact secureDesktopVerdict_bytes hsized _
  bad_append := by
    intro xs h ys
    exact secureDesktopVerdict_bad h ys

/-! ## The stream -/

namespace SecureDesktopStream

/-- The bytes that are not read yet; nothing once the stream has failed. -/
def pending (s : SecureDesktopStream) : Option Bytes :=
  if s.failed then none else some (s.buffer.drop s.consumed)

theorem pending_eq_some {s : SecureDesktopStream} {rest : Bytes} :
    s.pending = some rest ↔ s.failed = false ∧ s.buffer.drop s.consumed = rest := by
  unfold pending
  cases s.failed with
  | false => simp
  | true => simp

theorem pending_eq_none {s : SecureDesktopStream} : s.pending = none ↔ s.failed = true := by
  unfold pending
  cases s.failed with
  | false => simp
  | true => simp

theorem append_of_failed {s : SecureDesktopStream} (h : s.failed = true) (bytes : Bytes) :
    s.append bytes = s := by
  unfold append
  rw [if_pos (.inl h)]

theorem next_of_failed {s : SecureDesktopStream} (h : s.failed = true) : s.next = (s, none) := by
  unfold next
  rw [if_pos h]

/-- A chunk joins what is pending, whether or not the buffer is compacted first. -/
theorem append_pending {s : SecureDesktopStream} {rest : Bytes} (h : s.pending = some rest)
    (bytes : Bytes) : (s.append bytes).pending = some (rest ++ bytes) := by
  rcases pending_eq_some.mp h with ⟨hok, hrest⟩
  have hcompact : s.compact = { buffer := rest, consumed := 0, failed := false } := by
    unfold compact
    by_cases hzero : s.consumed = 0
    · rw [if_pos hzero]
      rw [hzero, List.drop_zero] at hrest
      rw [← hrest, ← hzero, ← hok]
    · rw [if_neg hzero, hrest, hok]
  unfold append
  by_cases hnil : bytes = []
  · rw [if_pos (.inr hnil), hnil, List.append_nil]
    exact h
  · rw [if_neg (by rw [hok]; simp [hnil]), hcompact]
    exact pending_eq_some.mpr ⟨rfl, rfl⟩

/-- `Next` says what the reader says of the bytes that are pending. -/
theorem next_eq {s : SecureDesktopStream} {head : Bytes} (h : s.pending = some head) :
    match secureDesktopVerdict head with
    | .more => s.next = (s, none)
    | .bad => s.next = (s.fail, none)
    | .item message rest => s.next.2 = some message ∧ s.next.1.pending = some rest := by
  rcases pending_eq_some.mp h with ⟨hok, rfl⟩
  unfold secureDesktopVerdict next
  rw [hok, if_neg Bool.false_ne_true]
  by_cases hshort : (s.buffer.drop s.consumed).length < kSecureDesktopHeaderSize
  · rw [if_pos hshort, if_pos hshort]
  · rw [if_neg hshort, if_neg hshort]
    dsimp only
    generalize (getU32 ((s.buffer.drop s.consumed).drop 1)).toNat = length
    cases SecureDesktopMsg.ofCode? (byteAt (s.buffer.drop s.consumed) 0) with
    | none => rfl
    | some type =>
      dsimp only
      by_cases hlong : kSecureDesktopMaxPayload < length
      · rw [if_pos hlong, if_pos hlong]
      · rw [if_neg hlong, if_neg hlong]
        by_cases hmore : (s.buffer.drop s.consumed).length - kSecureDesktopHeaderSize < length
        · rw [if_pos hmore, if_pos hmore]
        · rw [if_neg hmore, if_neg hmore]
          refine ⟨rfl, ?_⟩
          have hbehind : (s.buffer.drop s.consumed).drop (kSecureDesktopHeaderSize + length) =
              s.buffer.drop (s.consumed + (kSecureDesktopHeaderSize + length)) := List.drop_drop
          rw [hbehind]
          split
          · next hall =>
            -- everything is read: the buffer is cleared
            rw [hall, List.drop_length]
            exact pending_eq_some.mpr ⟨rfl, rfl⟩
          · exact pending_eq_some.mpr ⟨rfl, rfl⟩

theorem drain_spec {fuel : Nat} {s : SecureDesktopStream} {head : Bytes} (h : s.pending = some head)
    (hfuel : head.length < fuel) :
    (drain fuel s).2 = (secureDesktopReader.decode head).1 ∧
      (drain fuel s).1.pending = (secureDesktopReader.decode head).2 := by
  induction fuel generalizing s head with
  | zero => exact absurd hfuel (Nat.not_lt_zero _)
  | succ fuel ih =>
    have hnext := next_eq h
    unfold drain
    cases hread : secureDesktopVerdict head with
    | more =>
      rw [hread] at hnext
      rw [show s.next = (s, none) from hnext, Reader.decode_more hread]
      exact ⟨rfl, h⟩
    | bad =>
      rw [hread] at hnext
      rw [show s.next = (s.fail, none) from hnext, Reader.decode_bad hread]
      exact ⟨rfl, rfl⟩
    | item message rest =>
      rw [hread] at hnext
      have hshort := secureDesktopReader.shorter hread
      rcases ih hnext.2 (by omega) with ⟨hmessages, hend⟩
      have heq : s.next = (s.next.1, some message) := by rw [← hnext.1]
      rw [Reader.decode_item hread, heq]
      dsimp only
      rw [hmessages]
      exact ⟨rfl, hend⟩

theorem drain_of_failed {s : SecureDesktopStream} (h : s.failed = true) (fuel : Nat) :
    drain fuel s = (s, []) := by
  cases fuel with
  | zero => rfl
  | succ fuel =>
    unfold drain
    rw [next_of_failed h]

/-- The stream as a machine over its chunks. -/
def machine : Machine SecureDesktopStream Bytes SecureDesktopMessage where
  step := feed

/-- The stream follows the reader of messages. -/
theorem follows : secureDesktopReader.Follows machine pending := by
  constructor
  · intro s chunk hbad
    have hfailed := pending_eq_none.mp hbad
    show (s.feed chunk).2 = [] ∧ (s.feed chunk).1.pending = none
    unfold feed
    dsimp only
    rw [append_of_failed hfailed, drain_of_failed hfailed]
    exact ⟨rfl, hbad⟩
  · intro s chunk rest hpending _
    have happend := append_pending hpending chunk
    apply drain_spec happend
    rw [← (pending_eq_some.mp happend).2, List.length_drop]
    omega

/-- A fresh stream gives what the whole of its bytes decodes to. -/
theorem run_fresh (chunks : List Bytes) :
    (machine.run {} chunks).2 = (secureDesktopReader.decode chunks.flatten).1 ∧
      (machine.run {} chunks).1.pending = (secureDesktopReader.decode chunks.flatten).2 := by
  have hstart : ({} : SecureDesktopStream).pending = some [] := rfl
  have hmore : secureDesktopReader.read [] = .more := rfl
  exact follows.run hstart hmore chunks

theorem run_failed (chunks : List Bytes) :
    (machine.run {} chunks).1.failed = true ↔
      (secureDesktopReader.decode chunks.flatten).2 = none := by
  rw [← (run_fresh chunks).2, pending_eq_none]

theorem decode_bytes {messages : List SecureDesktopMessage} (h : ∀ m ∈ messages, m.Sized) (rest : Bytes) :
    secureDesktopReader.decode ((messages.map SecureDesktopMessage.bytes).flatten ++ rest) =
      (messages ++ (secureDesktopReader.decode rest).1, (secureDesktopReader.decode rest).2) := by
  induction messages with
  | nil => rfl
  | cons m messages ih =>
    have hfirst := secureDesktopVerdict_bytes (h m List.mem_cons_self)
      ((messages.map SecureDesktopMessage.bytes).flatten ++ rest)
    rw [List.map_cons, List.flatten_cons, List.append_assoc, Reader.decode_item hfirst,
      ih fun m' hm => h m' (List.mem_cons_of_mem m hm)]
    rfl

/-- Every stream is messages and a rest that does not start with one. -/
theorem exists_messages (bytes : Bytes) : ∃ (messages : List SecureDesktopMessage) (rest : Bytes),
    (∀ m ∈ messages, SecureDesktopMessage.Sized m) ∧
      bytes = (messages.map SecureDesktopMessage.bytes).flatten ++ rest ∧
      (secureDesktopVerdict rest = .more ∨ secureDesktopVerdict rest = .bad) := by
  induction hlen : bytes.length using Nat.strongRecOn generalizing bytes with
  | ind n ih =>
    have hnone : ∀ m ∈ ([] : List SecureDesktopMessage), m.Sized := by
      intro m hm
      exact absurd hm List.not_mem_nil
    cases hread : secureDesktopVerdict bytes with
    | more => exact ⟨[], bytes, hnone, rfl, .inl hread⟩
    | bad => exact ⟨[], bytes, hnone, rfl, .inr hread⟩
    | item message tail =>
      rcases secureDesktopVerdict_item hread with ⟨hsized, hsplit⟩
      have hshort := secureDesktopReader.shorter hread
      rcases ih tail.length (hlen ▸ hshort) tail rfl with ⟨messages, rest, hall, htail, hend⟩
      refine ⟨message :: messages, rest, ?_, ?_, hend⟩
      · intro m hm
        rcases List.mem_cons.mp hm with rfl | hrest
        · exact hsized
        · exact hall m hrest
      · rw [hsplit, htail, List.map_cons, List.flatten_cons, List.append_assoc]

end SecureDesktopStream

/-! ## The codecs -/

/-- What the two sides tell each other. -/
inductive SecureDesktopValue where
  | watch (w : SecureDesktopWatch)
  | input (i : SecureDesktopInput)
  | state (secure : Bool)
  | frame (sourceId : UInt8) (width height : UInt32) (bgra : Bytes)
deriving DecidableEq

namespace SecureDesktopValue

def encode : SecureDesktopValue → Option Bytes
  | .watch w => some (encodeSecureDesktopWatch w)
  | .input i => some (encodeSecureDesktopInput i)
  | .state secure => some (encodeSecureDesktopState secure)
  | .frame sourceId width height bgra => encodeSecureDesktopFrame sourceId width height bgra

/-- What the decoder for the type of a message makes of its payload. -/
def decode (message : SecureDesktopMessage) : Option SecureDesktopValue :=
  match message.type with
  | .watch => (decodeSecureDesktopWatch message.payload).map .watch
  | .input => (decodeSecureDesktopInput message.payload).map .input
  | .desktopState => (decodeSecureDesktopState message.payload).map .state
  | .frame =>
    (decodeSecureDesktopFrame message.payload).map fun f => .frame f.sourceId f.width f.height f.bgra

/-- A watch is of a valid size and rate. -/
def Valid : SecureDesktopValue → Prop
  | .watch w => validFrameSize w.width w.height = true ∧ validMaxFps w.maxFps = true
  | .input _ => True
  | .state _ => True
  | .frame _ _ _ _ => True

instance (v : SecureDesktopValue) : Decidable v.Valid := by
  cases v <;> unfold Valid <;> infer_instance

end SecureDesktopValue

theorem decodeSecureDesktopWatch_payload {w : SecureDesktopWatch}
    (hsize : validFrameSize w.width w.height = true) (hrate : validMaxFps w.maxFps = true) :
    decodeSecureDesktopWatch ([w.sourceId] ++ putU32 w.left.toUInt32 ++ putU32 w.top.toUInt32 ++
      putU32 w.width ++ putU32 w.height ++ [if w.alwaysStream then 1 else 0] ++ putU32 w.maxFps) =
      some w := by
  generalize hp : [w.sourceId] ++ putU32 w.left.toUInt32 ++ putU32 w.top.toUInt32 ++
    putU32 w.width ++ putU32 w.height ++ [if w.alwaysStream then 1 else 0] ++ putU32 w.maxFps = p
  have hlength : p.length = kWatchSize := by
    rw [← hp]
    rfl
  have hid : byteAt p 0 = w.sourceId := by
    rw [← hp]
    rfl
  have hflag : byteAt p 17 = if w.alwaysStream then 1 else 0 := by
    rw [← hp]
    rfl
  have hleft : getU32 (p.drop 1) = w.left.toUInt32 := by
    rw [← hp]
    exact getU32_putU32 _ _
  have htop : getU32 (p.drop 5) = w.top.toUInt32 := by
    rw [← hp]
    exact getU32_putU32 _ _
  have hwidth : getU32 (p.drop 9) = w.width := by
    rw [← hp]
    exact getU32_putU32 _ _
  have hheight : getU32 (p.drop 13) = w.height := by
    rw [← hp]
    exact getU32_putU32 _ _
  have hfps : getU32 (p.drop 18) = w.maxFps := by
    rw [← hp]
    exact getU32_putU32 _ []
  have hlow : ¬ 1 < byteAt p 17 := by
    rw [hflag]
    cases w.alwaysStream with
    | false => decide
    | true => decide
  have hstream : decide (byteAt p 17 = 1) = w.alwaysStream := by
    rw [hflag]
    cases w.alwaysStream with
    | false => rfl
    | true => rfl
  unfold decodeSecureDesktopWatch
  rw [if_neg (not_not.mpr hlength), if_neg hlow, hid, hleft, htop, hwidth, hheight, hfps, hstream,
    Int32.toInt32_toUInt32, Int32.toInt32_toUInt32]
  dsimp only
  rw [if_neg (by rw [hsize, hrate]; simp)]

theorem decodeSecureDesktopInput_payload (i : SecureDesktopInput) :
    decodeSecureDesktopInput ([i.kind.code] ++ putU16 i.vk ++ putU16 i.scan ++ putU32 i.flags ++
      putU32 i.dx.toUInt32 ++ putU32 i.dy.toUInt32 ++ putU32 i.data) = some i := by
  generalize hp : [i.kind.code] ++ putU16 i.vk ++ putU16 i.scan ++ putU32 i.flags ++
    putU32 i.dx.toUInt32 ++ putU32 i.dy.toUInt32 ++ putU32 i.data = p
  have hlength : p.length = kInputSize := by
    rw [← hp]
    rfl
  have hkind : byteAt p 0 = i.kind.code := by
    rw [← hp]
    rfl
  have hvk : getU16 (p.drop 1) = i.vk := by
    rw [← hp]
    exact getU16_putU16 _ _
  have hscan : getU16 (p.drop 3) = i.scan := by
    rw [← hp]
    exact getU16_putU16 _ _
  have hflags : getU32 (p.drop 5) = i.flags := by
    rw [← hp]
    exact getU32_putU32 _ _
  have hdx : getU32 (p.drop 9) = i.dx.toUInt32 := by
    rw [← hp]
    exact getU32_putU32 _ _
  have hdy : getU32 (p.drop 13) = i.dy.toUInt32 := by
    rw [← hp]
    exact getU32_putU32 _ _
  have hdata : getU32 (p.drop 17) = i.data := by
    rw [← hp]
    exact getU32_putU32 _ []
  have hdeclared : ¬ (i.kind.code ≠ SecureDesktopInputKind.keyboard.code ∧
      i.kind.code ≠ SecureDesktopInputKind.mouse.code) ∧
      (if i.kind.code = SecureDesktopInputKind.keyboard.code then SecureDesktopInputKind.keyboard
        else .mouse) = i.kind := by
    cases i.kind with
    | keyboard => decide
    | mouse => decide
  unfold decodeSecureDesktopInput
  rw [if_neg (not_not.mpr hlength), hkind, if_neg hdeclared.1, hdeclared.2, hvk, hscan, hflags, hdx,
    hdy, hdata, Int32.toInt32_toUInt32, Int32.toInt32_toUInt32]

theorem decodeSecureDesktopState_payload (secure : Bool) :
    decodeSecureDesktopState [if secure then 1 else 0] = some secure := by
  cases secure with
  | false => rfl
  | true => rfl

theorem frameBytes_le {width height : UInt32} (h : validFrameSize width height = true) :
    kSecureDesktopFrameHeaderSize + frameBytes width height ≤ kSecureDesktopMaxPayload := by
  have hsize := of_decide_eq_true h
  have hwidth := UInt32.le_iff_toNat_le.mp hsize.2.2.1
  have hheight := UInt32.le_iff_toNat_le.mp hsize.2.2.2
  have hproduct := Nat.mul_le_mul hwidth hheight
  unfold frameBytes kSecureDesktopMaxPayload
  omega

theorem decodeSecureDesktopFrame_payload (sourceId : UInt8) {width height : UInt32} {bgra : Bytes}
    (hsize : validFrameSize width height = true) (hbytes : bgra.length = frameBytes width height) :
    decodeSecureDesktopFrame ([sourceId] ++ putU32 width ++ putU32 height ++ bgra) =
      some { sourceId, width, height, bgra } := by
  generalize hp : [sourceId] ++ putU32 width ++ putU32 height ++ bgra = p
  have hlength : p.length = kSecureDesktopFrameHeaderSize + bgra.length := by
    rw [← hp, List.length_append]
    rfl
  have hid : byteAt p 0 = sourceId := by
    rw [← hp]
    rfl
  have hwidth : getU32 (p.drop 1) = width := by
    rw [← hp]
    exact getU32_putU32 _ _
  have hheight : getU32 (p.drop 5) = height := by
    rw [← hp]
    exact getU32_putU32 _ _
  have hpixels : p.drop kSecureDesktopFrameHeaderSize = bgra := by
    rw [← hp]
    rfl
  unfold decodeSecureDesktopFrame
  rw [if_neg (by omega)]
  dsimp only
  rw [hid, hwidth, hheight, hpixels, if_neg (by rw [hsize]; decide), if_neg (by omega)]

/-- What is encoded is one message, which its header may announce and its decoder reads back. -/
theorem SecureDesktopValue.encode_eq_some {v : SecureDesktopValue} (hvalid : v.Valid) {bytes : Bytes}
    (h : v.encode = some bytes) : ∃ message : SecureDesktopMessage,
      message.Sized ∧ bytes = message.bytes ∧ decode message = some v := by
  cases v with
  | watch w =>
    refine ⟨{ type := .watch, payload := _ }, ?_, (Option.some.inj h).symm, ?_⟩
    · exact Nat.le_of_ble_eq_true rfl
    · show (decodeSecureDesktopWatch _).map _ = _
      rw [decodeSecureDesktopWatch_payload hvalid.1 hvalid.2]
      rfl
  | input i =>
    refine ⟨{ type := .input, payload := _ }, ?_, (Option.some.inj h).symm, ?_⟩
    · exact Nat.le_of_ble_eq_true rfl
    · show (decodeSecureDesktopInput _).map _ = _
      rw [decodeSecureDesktopInput_payload]
      rfl
  | state secure =>
    refine ⟨{ type := .desktopState, payload := _ }, ?_, (Option.some.inj h).symm, ?_⟩
    · exact Nat.le_of_ble_eq_true rfl
    · show (decodeSecureDesktopState _).map _ = _
      rw [decodeSecureDesktopState_payload]
      rfl
  | frame sourceId width height bgra =>
    unfold encode encodeSecureDesktopFrame at h
    dsimp only at h
    split at h
    · cases h
    · next hok =>
      rw [not_or, Bool.not_eq_false, not_not] at hok
      refine ⟨{ type := .frame, payload := _ }, ?_, (Option.some.inj h).symm, ?_⟩
      · have hle := frameBytes_le hok.1
        show ([sourceId] ++ putU32 width ++ putU32 height ++ bgra).length ≤ _
        rw [List.length_append, hok.2]
        exact hle
      · show (decodeSecureDesktopFrame _).map _ = _
        rw [decodeSecureDesktopFrame_payload sourceId hok.1 hok.2]
        rfl

theorem SecureDesktopValue.encode_all {values : List SecureDesktopValue} {encoded : List Bytes}
    (hvalid : ∀ v ∈ values, v.Valid) (h : List.Forall₂ (fun v d => v.encode = some d) values encoded) :
    ∃ messages : List SecureDesktopMessage, (∀ m ∈ messages, m.Sized) ∧
      encoded.flatten = (messages.map SecureDesktopMessage.bytes).flatten ∧
      messages.map decode = values.map some := by
  induction h with
  | nil =>
    refine ⟨[], ?_, rfl, rfl⟩
    intro m hm
    exact absurd hm List.not_mem_nil
  | @cons v d values encoded hone _ ih =>
    rcases encode_eq_some (hvalid v List.mem_cons_self) hone with ⟨message, hsized, rfl, hdecode⟩
    rcases ih fun v' hv => hvalid v' (List.mem_cons_of_mem v hv) with ⟨messages, hall, hbytes, hvalues⟩
    refine ⟨message :: messages, ?_, ?_, ?_⟩
    · intro m hm
      rcases List.mem_cons.mp hm with rfl | hrest
      · exact hsized
      · exact hall m hrest
    · rw [List.flatten_cons, List.map_cons, List.flatten_cons, hbytes]
    · rw [List.map_cons, List.map_cons, hdecode, hvalues]

open SecureDesktopStream in
/-- The pipe is framed and coded exactly: however it is cut, the encoded values come out in order;
what comes out of any stream, and whether it fails, depends on its bytes alone, and is the messages in
front of the first bad header; a failed stream gives nothing, whatever is appended. -/
theorem secureDesktopStream_exact :
    (∀ (values : List SecureDesktopValue) (encoded chunks : List Bytes), (∀ v ∈ values, v.Valid) →
      List.Forall₂ (fun v d => v.encode = some d) values encoded →
      chunks.flatten = encoded.flatten →
      (machine.run {} chunks).2.map SecureDesktopValue.decode = values.map some ∧
        (machine.run {} chunks).1.failed = false) ∧
    (∀ chunks chunks' : List Bytes, chunks.flatten = chunks'.flatten →
      (machine.run {} chunks).2 = (machine.run {} chunks').2 ∧
        (machine.run {} chunks).1.failed = (machine.run {} chunks').1.failed) ∧
    (∀ chunks : List Bytes, ∃ (messages : List SecureDesktopMessage) (rest : Bytes),
      (∀ m ∈ messages, m.Sized) ∧
      chunks.flatten = (messages.map SecureDesktopMessage.bytes).flatten ++ rest ∧
      (machine.run {} chunks).2 = messages ∧
      (((machine.run {} chunks).1.failed = false ∧ secureDesktopVerdict rest = .more) ∨
        ((machine.run {} chunks).1.failed = true ∧ secureDesktopVerdict rest = .bad))) ∧
    ∀ (s : SecureDesktopStream), s.failed = true → (∀ bytes, s.append bytes = s) ∧ s.next = (s, none) := by
  refine ⟨?_, ?_, ?_, fun s h => ⟨append_of_failed h, next_of_failed h⟩⟩
  · intro values encoded chunks hvalid hencoded hflat
    rcases SecureDesktopValue.encode_all hvalid hencoded with ⟨messages, hsized, hbytes, hvalues⟩
    have hempty : secureDesktopReader.read [] = .more := rfl
    have hdecode := decode_bytes hsized []
    rw [List.append_nil, ← hbytes, ← hflat, Reader.decode_more hempty, List.append_nil] at hdecode
    constructor
    · rw [(run_fresh chunks).1, hdecode, hvalues]
    · apply Bool.eq_false_iff.mpr
      intro hfailed
      have hnone := (run_failed chunks).mp hfailed
      rw [hdecode] at hnone
      cases hnone
  · intro chunks chunks' hflat
    have hiff := (run_failed chunks).trans (hflat ▸ (run_failed chunks').symm)
    refine ⟨?_, Bool.eq_iff_iff.mpr hiff⟩
    rw [(run_fresh chunks).1, (run_fresh chunks').1, hflat]
  · intro chunks
    rcases exists_messages chunks.flatten with ⟨messages, rest, hsized, hsplit, hend⟩
    have hdecode := decode_bytes hsized rest
    rw [← hsplit] at hdecode
    refine ⟨messages, rest, hsized, hsplit, ?_, ?_⟩
    · rw [(run_fresh chunks).1, hdecode]
      rcases hend with hmore | hbad
      · rw [Reader.decode_more (r := secureDesktopReader) hmore, List.append_nil]
      · rw [Reader.decode_bad (r := secureDesktopReader) hbad, List.append_nil]
    · rcases hend with hmore | hbad
      · refine .inl ⟨?_, hmore⟩
        apply Bool.eq_false_iff.mpr
        intro hfailed
        have hnone := (run_failed chunks).mp hfailed
        rw [hdecode, Reader.decode_more (r := secureDesktopReader) hmore] at hnone
        cases hnone
      · refine .inr ⟨(run_failed chunks).mpr ?_, hbad⟩
        rw [hdecode, Reader.decode_bad (r := secureDesktopReader) hbad]

/-- A state and a frame of one pixel, cut inside the second header. -/
theorem secureDesktopStream_exact_cut :
    (SecureDesktopStream.machine.run {} [[3, 0, 0, 0, 1, 1, 4, 0], [0, 0, 13, 7, 0, 0, 0, 1, 0, 0, 0],
        [1, 9, 8, 7, 6]]).2.map SecureDesktopValue.decode =
      [.state true, .frame 7 1 1 [9, 8, 7, 6]].map some ∧
    (SecureDesktopStream.machine.run {} [[3, 0, 0, 0, 1, 1, 4, 0], [0, 0, 13, 7, 0, 0, 0, 1, 0, 0, 0],
        [1, 9, 8, 7, 6]]).1.failed = false :=
  secureDesktopStream_exact.1 [.state true, .frame 7 1 1 [9, 8, 7, 6]]
    [[3, 0, 0, 0, 1, 1], [4, 0, 0, 0, 13, 7, 0, 0, 0, 1, 0, 0, 0, 1, 9, 8, 7, 6]] _ (by decide)
    (.cons (by decide) (.cons (by decide) .nil)) (by decide)

end Deskhub
