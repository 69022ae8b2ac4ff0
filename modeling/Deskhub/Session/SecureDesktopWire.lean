import Deskhub.Protocol.ByteOrder
import Mathlib.Data.List.Basic

/-!
# The wire of the secure desktop

The messages between the session process and the agent on the secure desktop, the
configuration an unattended host is given, and the stream the messages are read off.
-/

namespace Deskhub

inductive SecureDesktopMsg where
  | watch | input | desktopState | frame
deriving DecidableEq, Repr

def SecureDesktopMsg.code : SecureDesktopMsg → UInt8
  | .watch => 1
  | .input => 2
  | .desktopState => 3
  | .frame => 4

/-- `KnownType`, and the type that is known. -/
def SecureDesktopMsg.ofCode? (type : UInt8) : Option SecureDesktopMsg :=
  if type = 1 then some .watch
  else if type = 2 then some .input
  else if type = 3 then some .desktopState
  else if type = 4 then some .frame
  else none

inductive SecureDesktopRequest where
  | agent | takeover | configure | status
deriving DecidableEq, Repr

def SecureDesktopRequest.code : SecureDesktopRequest → UInt8
  | .agent => 1
  | .takeover => 2
  | .configure => 3
  | .status => 4

def kUnattendedMaxHostKeyBytes : Nat := 8 * 1024
def kUnattendedMaxAuthorizedKeysBytes : Nat := 256 * 1024
def kUnattendedMaxSettingsBytes : Nat := 16 * 1024
def kUnattendedConfigLengthSize : Nat := 4
def kUnattendedConfigMaxBytes : Nat :=
  1 + 3 * 4 + kUnattendedMaxHostKeyBytes + kUnattendedMaxAuthorizedKeysBytes +
    kUnattendedMaxSettingsBytes

def kSecureDesktopMaxFps : UInt32 := 240
def kSecureDesktopHeaderSize : Nat := 5
def kSecureDesktopMaxFrameSide : UInt32 := 8192
def kSecureDesktopFrameHeaderSize : Nat := 9
def kSecureDesktopMaxPayload : Nat :=
  kSecureDesktopFrameHeaderSize +
    kSecureDesktopMaxFrameSide.toNat * kSecureDesktopMaxFrameSide.toNat * 4

def kWatchSize : Nat := 22
def kInputSize : Nat := 21
def kStateSize : Nat := 1

structure SecureDesktopWatch where
  sourceId : UInt8 := 0
  left : Int32 := 0
  top : Int32 := 0
  width : UInt32 := 0
  height : UInt32 := 0
  alwaysStream : Bool := false
  maxFps : UInt32 := 10
deriving DecidableEq

structure UnattendedConfig where
  enabled : Bool := false
  hostKeyPem : Bytes := []
  authorizedKeys : Bytes := []
  settings : Bytes := []
deriving DecidableEq

inductive SecureDesktopInputKind where
  | keyboard | mouse
deriving DecidableEq, Repr

def SecureDesktopInputKind.code : SecureDesktopInputKind → UInt8
  | .keyboard => 1
  | .mouse => 2

structure SecureDesktopInput where
  kind : SecureDesktopInputKind := .keyboard
  vk : UInt16 := 0
  scan : UInt16 := 0
  flags : UInt32 := 0
  dx : Int32 := 0
  dy : Int32 := 0
  data : UInt32 := 0
deriving DecidableEq

structure SecureDesktopFrame where
  sourceId : UInt8 := 0
  width : UInt32 := 0
  height : UInt32 := 0
  bgra : Bytes := []
deriving DecidableEq

structure SecureDesktopMessage where
  type : SecureDesktopMsg := .watch
  payload : Bytes := []
deriving DecidableEq

def validFrameSize (width height : UInt32) : Bool :=
  0 < width ∧ 0 < height ∧ width ≤ kSecureDesktopMaxFrameSide ∧ height ≤ kSecureDesktopMaxFrameSide

def frameBytes (width height : UInt32) : Nat := width.toNat * height.toNat * 4

def validMaxFps (maxFps : UInt32) : Bool := 1 ≤ maxFps ∧ maxFps ≤ kSecureDesktopMaxFps

/-! ## The configuration of an unattended host -/

def putBlock (text : Bytes) : Bytes := putU32 (UInt32.ofNat text.length) ++ text

/-- `TakeBlock`: the block in front of the body, and what is behind it. -/
def takeBlock (body : Bytes) (maxBytes : Nat) : Option (Bytes × Bytes) :=
  if body.length < 4 then none
  else
    let length := (getU32 body).toNat
    let body := body.drop 4
    if maxBytes < length ∨ body.length < length then none
    else some (body.take length, body.drop length)

def decodeSecureDesktopRequest (byte : UInt8) : Option SecureDesktopRequest :=
  if byte = 1 then some .agent
  else if byte = 2 then some .takeover
  else if byte = 3 then some .configure
  else if byte = 4 then some .status
  else none

/-- The encoding of a configuration without the length in front. -/
def configBody (config : UnattendedConfig) : Bytes :=
  (if config.enabled then 1 else 0) :: (putBlock config.hostKeyPem ++
    putBlock config.authorizedKeys ++ putBlock config.settings)

def encodeUnattendedConfig (config : UnattendedConfig) : Option Bytes :=
  if kUnattendedMaxHostKeyBytes < config.hostKeyPem.length ∨
      kUnattendedMaxAuthorizedKeysBytes < config.authorizedKeys.length ∨
      kUnattendedMaxSettingsBytes < config.settings.length then none
  else if config.enabled ∧ config.hostKeyPem = [] then none
  else some (putU32 (UInt32.ofNat (configBody config).length) ++ configBody config)

def decodeUnattendedConfigLength (bytes : Bytes) : Option UInt32 :=
  if bytes.length ≠ kUnattendedConfigLengthSize then none
  else
    let length := getU32 bytes
    if length = 0 ∨ kUnattendedConfigMaxBytes < length.toNat then none else some length

def decodeUnattendedConfig (body : Bytes) : Option UnattendedConfig :=
  if body = [] ∨ 1 < byteAt body 0 then none
  else do
    let enabled : Bool := byteAt body 0 = 1
    let (hostKeyPem, body) ← takeBlock (body.drop 1) kUnattendedMaxHostKeyBytes
    let (authorizedKeys, body) ← takeBlock body kUnattendedMaxAuthorizedKeysBytes
    let (settings, body) ← takeBlock body kUnattendedMaxSettingsBytes
    if body ≠ [] then none
    else if enabled ∧ hostKeyPem = [] then none
    else some { enabled, hostKeyPem, authorizedKeys, settings }

/-! ## The messages -/

/-- `StartMessage` and the payload behind it. -/
def startMessage (type : SecureDesktopMsg) (payload : Bytes) : Bytes :=
  type.code :: (putU32 (UInt32.ofNat payload.length) ++ payload)

def encodeSecureDesktopWatch (watch : SecureDesktopWatch) : Bytes :=
  startMessage .watch ([watch.sourceId] ++ putU32 watch.left.toUInt32 ++ putU32 watch.top.toUInt32 ++
    putU32 watch.width ++ putU32 watch.height ++ [if watch.alwaysStream then 1 else 0] ++
    putU32 watch.maxFps)

def encodeSecureDesktopInput (input : SecureDesktopInput) : Bytes :=
  startMessage .input ([input.kind.code] ++ putU16 input.vk ++ putU16 input.scan ++
    putU32 input.flags ++ putU32 input.dx.toUInt32 ++ putU32 input.dy.toUInt32 ++ putU32 input.data)

def encodeSecureDesktopState (secure : Bool) : Bytes :=
  startMessage .desktopState [if secure then 1 else 0]

def encodeSecureDesktopFrame (sourceId : UInt8) (width height : UInt32) (bgra : Bytes) :
    Option Bytes :=
  if validFrameSize width height = false ∨ bgra.length ≠ frameBytes width height then none
  else some (startMessage .frame ([sourceId] ++ putU32 width ++ putU32 height ++ bgra))

def decodeSecureDesktopWatch (p : Bytes) : Option SecureDesktopWatch :=
  if p.length ≠ kWatchSize then none
  else if 1 < byteAt p 17 then none
  else
    let watch : SecureDesktopWatch :=
      { sourceId := byteAt p 0
        left := (getU32 (p.drop 1)).toInt32
        top := (getU32 (p.drop 5)).toInt32
        width := getU32 (p.drop 9)
        height := getU32 (p.drop 13)
        alwaysStream := byteAt p 17 = 1
        maxFps := getU32 (p.drop 18) }
    if validFrameSize watch.width watch.height = false ∨ validMaxFps watch.maxFps = false then none
    else some watch

def decodeSecureDesktopInput (p : Bytes) : Option SecureDesktopInput :=
  if p.length ≠ kInputSize then none
  else if byteAt p 0 ≠ SecureDesktopInputKind.keyboard.code ∧
      byteAt p 0 ≠ SecureDesktopInputKind.mouse.code then none
  else
    some
      { kind := if byteAt p 0 = SecureDesktopInputKind.keyboard.code then .keyboard else .mouse
        vk := getU16 (p.drop 1)
        scan := getU16 (p.drop 3)
        flags := getU32 (p.drop 5)
        dx := (getU32 (p.drop 9)).toInt32
        dy := (getU32 (p.drop 13)).toInt32
        data := getU32 (p.drop 17) }

def decodeSecureDesktopState (p : Bytes) : Option Bool :=
  if p.length ≠ kStateSize ∨ 1 < byteAt p 0 then none else some (byteAt p 0 = 1)

def decodeSecureDesktopFrame (p : Bytes) : Option SecureDesktopFrame :=
  if p.length < kSecureDesktopFrameHeaderSize then none
  else
    let frame : SecureDesktopFrame :=
      { sourceId := byteAt p 0
        width := getU32 (p.drop 1)
        height := getU32 (p.drop 5)
        bgra := p.drop kSecureDesktopFrameHeaderSize }
    if validFrameSize frame.width frame.height = false then none
    else if p.length - kSecureDesktopFrameHeaderSize ≠ frameBytes frame.width frame.height then none
    else some frame

/-! ## The stream -/

structure SecureDesktopStream where
  buffer : Bytes := []
  consumed : Nat := 0
  failed : Bool := false
deriving DecidableEq

namespace SecureDesktopStream

def fail (_ : SecureDesktopStream) : SecureDesktopStream :=
  { buffer := [], consumed := 0, failed := true }

def compact (s : SecureDesktopStream) : SecureDesktopStream :=
  if s.consumed = 0 then s else { s with buffer := s.buffer.drop s.consumed, consumed := 0 }

def append (s : SecureDesktopStream) (bytes : Bytes) : SecureDesktopStream :=
  if s.failed ∨ bytes = [] then s
  else
    let s := s.compact
    { s with buffer := s.buffer ++ bytes }

/-- `Next`: the message, when there is one. -/
def next (s : SecureDesktopStream) : SecureDesktopStream × Option SecureDesktopMessage :=
  if s.failed then (s, none)
  else
    let head := s.buffer.drop s.consumed
    if head.length < kSecureDesktopHeaderSize then (s, none)
    else
      let length := (getU32 (head.drop 1)).toNat
      match SecureDesktopMsg.ofCode? (byteAt head 0) with
      | none => (s.fail, none)
      | some type =>
        if kSecureDesktopMaxPayload < length then (s.fail, none)
        else if head.length - kSecureDesktopHeaderSize < length then (s, none)
        else
          let payload := (head.drop kSecureDesktopHeaderSize).take length
          let consumed := s.consumed + (kSecureDesktopHeaderSize + length)
          (if consumed = s.buffer.length then { s with buffer := [], consumed := 0 }
            else { s with consumed := consumed }, some { type, payload })

/-- `Next` until it returns false, at most `fuel` times. -/
def drain : Nat → SecureDesktopStream → SecureDesktopStream × List SecureDesktopMessage
  | 0, s => (s, [])
  | fuel + 1, s =>
    match s.next with
    | (s, none) => (s, [])
    | (s, some message) =>
      let (s, messages) := drain fuel s
      (s, message :: messages)

/-- A chunk of the pipe: `Append`, and `Next` until it returns false. Every message takes bytes of
the buffer, so there are turns enough. -/
def feed (s : SecureDesktopStream) (chunk : Bytes) : SecureDesktopStream × List SecureDesktopMessage :=
  let s := s.append chunk
  drain (s.buffer.length + 1) s

end SecureDesktopStream

/-! ## Reading a configuration -/

theorem toNat_length32 {s : Bytes} (h : s.length < 2 ^ 32) :
    (UInt32.ofNat s.length).toNat = s.length := by
  rw [UInt32.toNat_ofNat', Nat.mod_eq_of_lt h]

/-- A block is taken off a body if and only if it stands in front and is not too long. -/
theorem takeBlock_eq_some {body text rest : Bytes} {maxBytes : Nat} (hmax : maxBytes < 2 ^ 32) :
    takeBlock body maxBytes = some (text, rest) ↔
      text.length ≤ maxBytes ∧ body = putBlock text ++ rest := by
  constructor
  · intro h
    rcases body with _ | ⟨a, _ | ⟨b, _ | ⟨c, _ | ⟨d, tail⟩⟩⟩⟩
    · cases h
    · cases h
    · cases h
    · cases h
    · unfold takeBlock at h
      rw [if_neg (by simp)] at h
      dsimp only at h
      split at h
      · cases h
      · next hfits =>
        rw [not_or, Nat.not_lt, Nat.not_lt] at hfits
        rw [Option.some.injEq, Prod.mk.injEq] at h
        rcases h with ⟨rfl, rfl⟩
        have htail : (a :: b :: c :: d :: tail).drop 4 = tail := rfl
        rw [htail] at hfits ⊢
        -- the length in front is the length of what was taken
        have hlength : (tail.take (getU32 (a :: b :: c :: d :: tail)).toNat).length =
            (getU32 (a :: b :: c :: d :: tail)).toNat := by
          rw [List.length_take]
          exact Nat.min_eq_left hfits.2
        constructor
        · rw [hlength]
          exact hfits.1
        · unfold putBlock
          rw [hlength, UInt32.ofNat_toNat, putU32_getU32, List.append_assoc, List.take_append_drop]
          rfl
  · rintro ⟨hfits, rfl⟩
    have hvalue : (getU32 (putBlock text ++ rest)).toNat = text.length := by
      unfold putBlock
      rw [List.append_assoc, getU32_putU32, toNat_length32 (by omega)]
    have hdrop : (putBlock text ++ rest).drop 4 = text ++ rest := by
      unfold putBlock
      rw [List.append_assoc]
      exact List.drop_left' (length_putU32 _)
    have hlength : (putBlock text ++ rest).length = 4 + text.length + rest.length := by
      unfold putBlock
      rw [List.length_append, List.length_append, length_putU32]
    unfold takeBlock
    rw [if_neg (by omega)]
    dsimp only
    rw [hvalue, hdrop, List.length_append, if_neg (by omega), List.take_left, List.drop_left]

theorem length_putBlock (text : Bytes) : (putBlock text).length = 4 + text.length := by
  unfold putBlock
  rw [List.length_append, length_putU32]

/-- A configuration that may be sent. -/
structure UnattendedConfig.Fits (config : UnattendedConfig) : Prop where
  hostKey : config.hostKeyPem.length ≤ kUnattendedMaxHostKeyBytes
  authorizedKeys : config.authorizedKeys.length ≤ kUnattendedMaxAuthorizedKeysBytes
  settings : config.settings.length ≤ kUnattendedMaxSettingsBytes
  keyed : ¬ (config.enabled ∧ config.hostKeyPem = [])

theorem encodeUnattendedConfig_eq_some {config : UnattendedConfig} {bytes : Bytes} :
    encodeUnattendedConfig config = some bytes ↔
      config.Fits ∧
        bytes = putU32 (UInt32.ofNat (configBody config).length) ++ configBody config := by
  unfold encodeUnattendedConfig
  constructor
  · intro h
    split at h
    · cases h
    · next hsizes =>
      split at h
      · cases h
      · next hkeyed =>
        rw [not_or, not_or, Nat.not_lt, Nat.not_lt, Nat.not_lt] at hsizes
        exact ⟨⟨hsizes.1, hsizes.2.1, hsizes.2.2, hkeyed⟩, (Option.some.inj h).symm⟩
  · rintro ⟨hfits, rfl⟩
    have h1 := hfits.hostKey
    have h2 := hfits.authorizedKeys
    have h3 := hfits.settings
    rw [if_neg (by omega), if_neg hfits.keyed]

theorem length_configBody (config : UnattendedConfig) :
    (configBody config).length =
      13 + config.hostKeyPem.length + config.authorizedKeys.length + config.settings.length := by
  unfold configBody
  rw [List.length_cons, List.length_append, List.length_append, length_putBlock, length_putBlock,
    length_putBlock]
  omega

/-- The limits of the blocks fit together with the one of the whole. -/
theorem UnattendedConfig.Fits.length_le {config : UnattendedConfig} (h : config.Fits) :
    (configBody config).length ≤ kUnattendedConfigMaxBytes := by
  have h1 := h.hostKey
  have h2 := h.authorizedKeys
  have h3 := h.settings
  rw [length_configBody]
  unfold kUnattendedConfigMaxBytes
  omega

/-- A body is read if and only if it is the one of a configuration that may be sent. -/
theorem decodeUnattendedConfig_eq_some {body : Bytes} {config : UnattendedConfig} :
    decodeUnattendedConfig body = some config ↔ config.Fits ∧ body = configBody config := by
  have hmax : kUnattendedMaxHostKeyBytes < 2 ^ 32 ∧ kUnattendedMaxAuthorizedKeysBytes < 2 ^ 32 ∧
      kUnattendedMaxSettingsBytes < 2 ^ 32 := by decide
  constructor
  · intro h
    cases body with
    | nil => cases h
    | cons flag body =>
      unfold decodeUnattendedConfig at h
      split at h
      · cases h
      · next hflag =>
        simp only [Option.bind_eq_bind] at h
        rcases Option.bind_eq_some_iff.mp h with ⟨⟨hostKeyPem, body1⟩, hfirst, h1⟩
        rcases Option.bind_eq_some_iff.mp h1 with ⟨⟨authorizedKeys, body2⟩, hsecond, h2⟩
        rcases Option.bind_eq_some_iff.mp h2 with ⟨⟨settings, body3⟩, hthird, h3⟩
        clear h h1 h2
        dsimp only at hsecond hthird h3
        rcases (takeBlock_eq_some hmax.1).mp hfirst with ⟨hhost, hbody⟩
        rcases (takeBlock_eq_some hmax.2.1).mp hsecond with ⟨hkeys, rfl⟩
        rcases (takeBlock_eq_some hmax.2.2).mp hthird with ⟨hsettings, rfl⟩
        split at h3
        · cases h3
        · next hend =>
          split at h3
          · cases h3
          · next hkeyed =>
            have hnil := Decidable.not_not.mp hend
            subst hnil
            rw [Option.some.injEq] at h3
            subst h3
            have hbyte : byteAt (flag :: body) 0 = flag := rfl
            rw [hbyte] at hflag hkeyed ⊢
            refine ⟨⟨hhost, hkeys, hsettings, ?_⟩, ?_⟩
            · exact hkeyed
            · -- the flag is 0 or 1
              have hone : flag = if decide (flag = 1) = true then 1 else 0 := by
                rw [not_or, UInt8.not_lt, UInt8.le_iff_toNat_le] at hflag
                by_cases hset : flag = 1
                · rw [if_pos (decide_eq_true hset)]
                  exact hset
                · rw [if_neg (by simpa using hset)]
                  apply UInt8.toNat_inj.mp
                  have hne : flag.toNat ≠ 1 := by
                    intro heq
                    exact hset (UInt8.toNat_inj.mp heq)
                  have hle : flag.toNat ≤ 1 := hflag.2
                  show flag.toNat = 0
                  omega
              have hbody' : body = putBlock hostKeyPem ++ (putBlock authorizedKeys ++
                  (putBlock settings ++ [])) := hbody
              unfold configBody
              dsimp only
              rw [← hone, hbody', List.append_nil, List.append_assoc]
  · rintro ⟨hfits, rfl⟩
    have hflag : byteAt (configBody config) 0 = if config.enabled then 1 else 0 := rfl
    have hdrop : (configBody config).drop 1 = putBlock config.hostKeyPem ++
        (putBlock config.authorizedKeys ++ (putBlock config.settings ++ [])) := by
      rw [List.append_nil, ← List.append_assoc]
      rfl
    unfold decodeUnattendedConfig
    rw [hflag, hdrop, if_neg]
    · simp only [(takeBlock_eq_some hmax.1).mpr ⟨hfits.hostKey, rfl⟩,
        (takeBlock_eq_some hmax.2.1).mpr ⟨hfits.authorizedKeys, rfl⟩,
        (takeBlock_eq_some hmax.2.2).mpr ⟨hfits.settings, rfl⟩, Option.bind_eq_bind, Option.bind_some]
      have hkeyed := hfits.keyed
      rcases config with ⟨enabled, hostKeyPem, authorizedKeys, settings⟩
      cases enabled with
      | true =>
        dsimp only at hkeyed
        rw [if_neg (by simp), if_neg (by simpa using hkeyed)]
        rfl
      | false =>
        rw [if_neg (by simp), if_neg (by simp)]
        rfl
    · rintro (hnil | hhigh)
      · exact List.cons_ne_nil _ _ hnil
      · cases hset : config.enabled with
        | true =>
          rw [hset] at hhigh
          exact absurd hhigh (by decide)
        | false =>
          rw [hset] at hhigh
          exact absurd hhigh (by decide)

/-- The length in front of a configuration that may be sent is accepted, and says how long the body
is. -/
theorem decodeUnattendedConfigLength_encode {config : UnattendedConfig} (h : config.Fits) :
    decodeUnattendedConfigLength (putU32 (UInt32.ofNat (configBody config).length)) =
        some (UInt32.ofNat (configBody config).length) ∧
      (UInt32.ofNat (configBody config).length).toNat = (configBody config).length := by
  have hle := h.length_le
  have hmax : kUnattendedConfigMaxBytes = 286733 := by decide
  have hvalue := toNat_length32 (s := configBody config) (by omega)
  have hpos := length_configBody config
  have hget := getU32_putU32 (UInt32.ofNat (configBody config).length) []
  rw [List.append_nil] at hget
  refine ⟨?_, hvalue⟩
  unfold decodeUnattendedConfigLength
  rw [if_neg (by rw [length_putU32]; decide)]
  dsimp only
  rw [hget, if_neg]
  rintro (hzero | hlong)
  · rw [hzero] at hvalue
    have hnone : (0 : UInt32).toNat = 0 := rfl
    omega
  · omega

theorem decodeUnattendedConfigLength_eq_some {bytes : Bytes} {length : UInt32}
    (h : decodeUnattendedConfigLength bytes = some length) :
    bytes = putU32 length ∧ 0 < length.toNat ∧ length.toNat ≤ kUnattendedConfigMaxBytes := by
  unfold decodeUnattendedConfigLength at h
  split at h
  · cases h
  · next hsize =>
    dsimp only at h
    split at h
    · cases h
    · next hrange =>
      rw [Option.some.injEq] at h
      subst h
      have hfour : bytes.length = 4 := Decidable.not_not.mp hsize
      rw [not_or, Nat.not_lt] at hrange
      refine ⟨?_, ?_, hrange.2⟩
      · rcases bytes with _ | ⟨a, _ | ⟨b, _ | ⟨c, _ | ⟨d, rest⟩⟩⟩⟩
        · cases hfour
        · cases hfour
        · cases hfour
        · cases hfour
        · have hnil : rest = [] := by
            apply List.eq_nil_of_length_eq_zero
            simp only [List.length_cons] at hfour
            omega
          rw [putU32_getU32, hnil]
      · by_contra hzero
        apply hrange.1
        apply UInt32.toNat_inj.mp
        show (getU32 bytes).toNat = 0
        omega

end Deskhub
