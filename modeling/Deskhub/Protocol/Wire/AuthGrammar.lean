import Deskhub.Protocol.ByteOrder
import Deskhub.Protocol.RecordStream
import Deskhub.Protocol.Wire.Auth

/-!
# Reads that stay within a message

What a parser reads behind a pointer, and nothing where it would read past the end.
-/

namespace Deskhub

def byteAt? (p : Bytes) (i : Nat) : Option UInt8 := p[i]?

def bytesAt? (p : Bytes) (i len : Nat) : Option Bytes :=
  if i + len ≤ p.length then some ((p.drop i).take len) else none

def getU16At? (p : Bytes) (i : Nat) : Option UInt16 := (bytesAt? p i 2).map getU16

def getU32At? (p : Bytes) (i : Nat) : Option UInt32 := (bytesAt? p i 4).map getU32

def getU64At? (p : Bytes) (i : Nat) : Option UInt64 := (bytesAt? p i 8).map getU64

theorem getU16_take (p : Bytes) : getU16 (p.take 2) = getU16 p := by
  rcases p with _ | ⟨a, _ | ⟨b, rest⟩⟩ <;> rfl

theorem getU32_take (p : Bytes) : getU32 (p.take 4) = getU32 p := by
  rcases p with _ | ⟨a, _ | ⟨b, _ | ⟨c, _ | ⟨d, rest⟩⟩⟩⟩ <;> rfl

theorem getU64_take (p : Bytes) : getU64 (p.take 8) = getU64 p := by
  unfold getU64
  rw [← getU32_take (p.take 8), List.take_take, List.drop_take, show min 4 8 = 4 from rfl,
    show 8 - 4 = 4 from rfl, getU32_take, getU32_take]

/-- The parser goes on with what it has read. -/
theorem read_bind {α β : Type} {read : Option α} {a : α} (h : read = some a) (next : α → Option β) :
    (read >>= next) = next a := by
  rw [h]
  rfl

section Within

variable {p : Bytes} {i : Nat}

theorem byteAt?_eq (h : i < p.length) : byteAt? p i = some (byteAt p i) := by
  unfold byteAt? byteAt
  rw [List.getElem?_eq_getElem h, List.getD_eq_getElem _ _ h]

theorem bytesAt?_eq {len : Nat} (h : i + len ≤ p.length) :
    bytesAt? p i len = some ((p.drop i).take len) :=
  if_pos h

theorem getU16At?_eq (h : i + 2 ≤ p.length) : getU16At? p i = some (getU16 (p.drop i)) := by
  unfold getU16At?
  rw [bytesAt?_eq h, Option.map_some, getU16_take]

theorem getU32At?_eq (h : i + 4 ≤ p.length) : getU32At? p i = some (getU32 (p.drop i)) := by
  unfold getU32At?
  rw [bytesAt?_eq h, Option.map_some, getU32_take]

theorem getU64At?_eq (h : i + 8 ≤ p.length) : getU64At? p i = some (getU64 (p.drop i)) := by
  unfold getU64At?
  rw [bytesAt?_eq h, Option.map_some, getU64_take]

/-! What is left of a message at an offset, with the first field of it told apart. -/

theorem drop_byte (h : i < p.length) : p.drop i = byteAt p i :: p.drop (i + 1) := by
  unfold byteAt
  rw [List.getD_eq_getElem _ _ h, List.drop_eq_getElem_cons h]

theorem drop_bytes (len : Nat) : p.drop i = (p.drop i).take len ++ p.drop (i + len) := by
  rw [← List.drop_drop, List.take_append_drop]

theorem drop_u16 (h : i + 2 ≤ p.length) :
    p.drop i = putU16 (getU16 (p.drop i)) ++ p.drop (i + 2) := by
  have hbytes : p.drop i = byteAt p i :: byteAt p (i + 1) :: p.drop (i + 2) := by
    rw [drop_byte (by omega), drop_byte (by omega)]
  rw [hbytes, putU16_getU16]
  rfl

theorem drop_u32 (h : i + 4 ≤ p.length) :
    p.drop i = putU32 (getU32 (p.drop i)) ++ p.drop (i + 4) := by
  have hbytes : p.drop i = byteAt p i :: byteAt p (i + 1) :: byteAt p (i + 2) ::
      byteAt p (i + 3) :: p.drop (i + 4) := by
    rw [drop_byte (by omega), drop_byte (by omega), drop_byte (by omega), drop_byte (by omega)]
  rw [hbytes, putU32_getU32]
  rfl

theorem drop_u64 (h : i + 8 ≤ p.length) :
    p.drop i = putU64 (getU64 (p.drop i)) ++ p.drop (i + 8) := by
  have hbytes : p.drop i = byteAt p i :: byteAt p (i + 1) :: byteAt p (i + 2) ::
      byteAt p (i + 3) :: byteAt p (i + 4) :: byteAt p (i + 5) :: byteAt p (i + 6) ::
      byteAt p (i + 7) :: p.drop (i + 8) := by
    rw [drop_byte (by omega), drop_byte (by omega), drop_byte (by omega), drop_byte (by omega),
      drop_byte (by omega), drop_byte (by omega), drop_byte (by omega), drop_byte (by omega)]
  rw [hbytes, putU64_getU64]
  rfl

theorem drop_last (h : p.length = i + 1) : p.drop i = [byteAt p i] := by
  rw [drop_byte (by omega), List.drop_eq_nil_of_le (by omega)]

end Within

/-!
## The grammar of an AuthStart

`ParseAuthStart` once more, with reads that fail past the end: none does. What it takes is one
layout of a key, a name and a token, and nothing else.
-/

/-- `ParseAuthStart` with each of its reads where the source makes it: nothing when one of them is
past the end. -/
def readAuthStart (payload : Bytes) : Option (Option AuthStart) :=
  if payload.length < 6 then some none
  else do
    let first ← byteAt? payload 0
    if first ≠ 0 then some none
    else do
      let keyLen := (← getU16At? payload 1).toNat
      if keyLen = 0 ∨ kMaxAuthBlobBytes < keyLen ∨ payload.length < 1 + 2 + keyLen + 1 + 1 + 1 then
        some none
      else do
        let publicKey ← bytesAt? payload 3 keyLen
        let nameOff := 1 + 2 + keyLen
        let nameLen := (← byteAt? payload nameOff).toNat
        if kMaxClientNameBytes < nameLen ∨ payload.length < nameOff + 1 + nameLen + 1 + 1 then
          some none
        else do
          let tokenOff := nameOff + 1 + nameLen
          let tokenLen := (← byteAt? payload tokenOff).toNat
          if (tokenLen ≠ 0 ∧ tokenLen ≠ kPairingTokenBytes) ∨
              payload.length ≠ tokenOff + 1 + tokenLen + 1 then some none
          else do
            let version ← byteAt? payload (tokenOff + 1 + tokenLen)
            if version ≠ kAuthVersion then some none
            else do
              let name ← bytesAt? payload (nameOff + 1) nameLen
              let token ← bytesAt? payload (tokenOff + 1) tokenLen
              some (some
                { publicKey := publicKey, clientName := removeControls name, pairingToken := token })

/-- Every read is within the payload, and the outcome is the parser's. -/
theorem readAuthStart_eq (payload : Bytes) :
    readAuthStart payload = some (parseAuthStart payload) := by
  unfold readAuthStart parseAuthStart
  by_cases hshort : payload.length < 6
  · rw [if_pos hshort, if_pos hshort]
  · rw [if_neg hshort, if_neg hshort, read_bind (byteAt?_eq (by omega))]
    by_cases hfirst : byteAt payload 0 ≠ 0
    · rw [if_pos hfirst, if_pos hfirst]
    · rw [if_neg hfirst, if_neg hfirst, read_bind (getU16At?_eq (by omega))]
      dsimp only
      generalize (getU16 (payload.drop 1)).toNat = keyLen
      by_cases hkey : keyLen = 0 ∨ kMaxAuthBlobBytes < keyLen ∨
          payload.length < 1 + 2 + keyLen + 1 + 1 + 1
      · rw [if_pos hkey, if_pos hkey]
      · push Not at hkey
        rw [if_neg (by omega), if_neg (by omega), read_bind (bytesAt?_eq (by omega)),
          read_bind (byteAt?_eq (by omega))]
        generalize (byteAt payload (1 + 2 + keyLen)).toNat = nameLen
        by_cases hname : kMaxClientNameBytes < nameLen ∨
            payload.length < 1 + 2 + keyLen + 1 + nameLen + 1 + 1
        · rw [if_pos hname, if_pos hname]
        · push Not at hname
          rw [if_neg (by omega), if_neg (by omega), read_bind (byteAt?_eq (by omega))]
          generalize (byteAt payload (1 + 2 + keyLen + 1 + nameLen)).toNat = tokenLen
          by_cases htoken : (tokenLen ≠ 0 ∧ tokenLen ≠ kPairingTokenBytes) ∨
              payload.length ≠ 1 + 2 + keyLen + 1 + nameLen + 1 + tokenLen + 1
          · rw [if_pos htoken, if_pos (or_assoc.mp (Or.inl htoken))]
          · have hend : payload.length = 1 + 2 + keyLen + 1 + nameLen + 1 + tokenLen + 1 := by
              omega
            rw [if_neg htoken, read_bind (byteAt?_eq (by omega))]
            by_cases hversion :
                byteAt payload (1 + 2 + keyLen + 1 + nameLen + 1 + tokenLen) ≠ kAuthVersion
            · rw [if_pos hversion, if_pos (Or.inr (Or.inr hversion))]
            · rw [if_neg hversion, if_neg (by tauto), read_bind (bytesAt?_eq (by omega)),
                read_bind (bytesAt?_eq (by omega))]

/-! ## The layout -/

/-- A key, a name and a token behind their lengths, between the byte 0 and the version. -/
def authStartLayout (key name token : Bytes) : Bytes :=
  [0] ++ putU16 (UInt16.ofNat key.length) ++ key ++ UInt8.ofNat name.length :: name ++
    UInt8.ofNat token.length :: token ++ [kAuthVersion]

/-- The payload is the layout of the three parts, each within its bounds. -/
structure AuthStartGrammar (payload key name token : Bytes) : Prop where
  key_pos : 1 ≤ key.length
  key_le : key.length ≤ kMaxAuthBlobBytes
  name_le : name.length ≤ kMaxClientNameBytes
  token_len : token.length = 0 ∨ token.length = kPairingTokenBytes
  layout : payload = authStartLayout key name token

/-- A name that is short enough goes out as it is. -/
theorem putText_short {limit : Nat} {s : Bytes} (h : s.length ≤ limit) :
    putText limit s = UInt8.ofNat s.length :: s := by
  have hcut : cutText limit s = s := by
    unfold cutText utf8TruncLen
    rw [if_pos h, List.take_length]
  rw [putText_eq, hcut]

theorem AuthStartGrammar.parse {payload key name token : Bytes}
    (h : AuthStartGrammar payload key name token) :
    parseAuthStart payload = some ⟨key, removeControls name, token⟩ := by
  have hkey : key ≠ [] := List.length_pos_iff.mp h.key_pos
  have htoken : token = [] ∨ token.length = kPairingTokenBytes :=
    h.token_len.imp_left List.length_eq_zero_iff.mp
  have hparse := @parseAuthStart_payload ⟨key, name, token⟩ hkey h.key_le htoken
  have hcut : cutText kMaxClientNameBytes name = name := by
    unfold cutText utf8TruncLen
    rw [if_pos h.name_le, List.take_length]
  dsimp only at hparse
  rw [putText_short h.name_le, hcut] at hparse
  rw [h.layout]
  unfold authStartLayout
  simpa only [List.append_assoc, List.cons_append, List.nil_append] using hparse

/-- The parts of a payload that the parser takes, one behind the other. -/
theorem AuthStartGrammar.of_parse {payload : Bytes} {m : AuthStart}
    (h : parseAuthStart payload = some m) :
    ∃ key name token, AuthStartGrammar payload key name token := by
  unfold parseAuthStart at h
  by_cases hshort : payload.length < 6
  · rw [if_pos hshort] at h
    cases h
  rw [if_neg hshort] at h
  by_cases hfirst : byteAt payload 0 ≠ 0
  · rw [if_pos hfirst] at h
    cases h
  rw [if_neg hfirst] at h
  dsimp only at h
  generalize hkeyLen : (getU16 (payload.drop 1)).toNat = keyLen at h
  by_cases hkey : keyLen = 0 ∨ kMaxAuthBlobBytes < keyLen ∨
      payload.length < 1 + 2 + keyLen + 1 + 1 + 1
  · rw [if_pos hkey] at h
    cases h
  rw [if_neg hkey] at h
  generalize hnameLen : (byteAt payload (1 + 2 + keyLen)).toNat = nameLen at h
  by_cases hname : kMaxClientNameBytes < nameLen ∨
      payload.length < 1 + 2 + keyLen + 1 + nameLen + 1 + 1
  · rw [if_pos hname] at h
    cases h
  rw [if_neg hname] at h
  generalize htokenLen : (byteAt payload (1 + 2 + keyLen + 1 + nameLen)).toNat = tokenLen at h
  by_cases htoken : (tokenLen ≠ 0 ∧ tokenLen ≠ kPairingTokenBytes) ∨
      payload.length ≠ 1 + 2 + keyLen + 1 + nameLen + 1 + tokenLen + 1 ∨
      byteAt payload (1 + 2 + keyLen + 1 + nameLen + 1 + tokenLen) ≠ kAuthVersion
  · rw [if_pos htoken] at h
    cases h
  push Not at hkey hname htoken
  rcases htoken with ⟨htokenLen', hend, hversion⟩
  have hkeyLength : ((payload.drop 3).take keyLen).length = keyLen := by
    rw [List.length_take, List.length_drop]
    omega
  have hnameLength : ((payload.drop (1 + 2 + keyLen + 1)).take nameLen).length = nameLen := by
    rw [List.length_take, List.length_drop]
    omega
  have htokenLength :
      ((payload.drop (1 + 2 + keyLen + 1 + nameLen + 1)).take tokenLen).length = tokenLen := by
    rw [List.length_take, List.length_drop]
    omega
  refine ⟨(payload.drop 3).take keyLen, (payload.drop (1 + 2 + keyLen + 1)).take nameLen,
    (payload.drop (1 + 2 + keyLen + 1 + nameLen + 1)).take tokenLen, ?_⟩
  constructor
  · omega
  · omega
  · omega
  · omega
  · unfold authStartLayout
    rw [hkeyLength, hnameLength, htokenLength, ← hkeyLen, UInt16.ofNat_toNat, hkeyLen, ← hnameLen,
      UInt8.ofNat_toNat, hnameLen, ← htokenLen, UInt8.ofNat_toNat, htokenLen]
    -- from the version at the end to the byte at the front
    have hversionAt : payload.drop (1 + 2 + keyLen + 1 + nameLen + 1 + tokenLen) = [kAuthVersion] := by
      rw [drop_last hend, hversion]
    have htokenAt := (@drop_bytes payload (1 + 2 + keyLen + 1 + nameLen + 1) tokenLen).trans
      (congrArg _ hversionAt)
    have htokenByte := (@drop_byte payload (1 + 2 + keyLen + 1 + nameLen) (by omega)).trans
      (congrArg _ htokenAt)
    have hnameAt := (@drop_bytes payload (1 + 2 + keyLen + 1) nameLen).trans (congrArg _ htokenByte)
    have hnameByte := (@drop_byte payload (1 + 2 + keyLen) (by omega)).trans (congrArg _ hnameAt)
    have hkeyAt := (@drop_bytes payload 3 keyLen).trans (congrArg _ hnameByte)
    have hkeyLenAt := (@drop_u16 payload 1 (by omega)).trans (congrArg _ hkeyAt)
    have hfront := (@drop_byte payload 0 (by omega)).trans (congrArg _ hkeyLenAt)
    rw [List.drop_zero, not_not.mp hfirst] at hfront
    refine hfront.trans ?_
    simp only [List.append_assoc, List.cons_append, List.nil_append]

/-- What goes out of a key, a name and a token within their bounds. -/
theorem AuthStartGrammar.build {payload key name token : Bytes}
    (h : AuthStartGrammar payload key name token) {cap : Nat}
    (hcap : kCommonHeaderSize + payload.length ≤ cap) :
    (buildAuthStart cap ⟨key, name, token⟩).map payloadOf = some payload := by
  have hkey : ¬ (key = [] ∨ kMaxAuthBlobBytes < key.length) := by
    rintro (rfl | hlong)
    · exact absurd h.key_pos (by decide)
    · exact absurd h.key_le (Nat.not_le.mpr hlong)
  have htoken : ¬ (token ≠ [] ∧ token.length ≠ kPairingTokenBytes) := by
    rintro ⟨hsome, hne⟩
    exact h.token_len.elim (fun hnil => hsome (List.length_eq_zero_iff.mp hnil)) hne
  have hlayout : [0] ++ putU16 (UInt16.ofNat key.length) ++ key ++
      putText kMaxClientNameBytes name ++ [UInt8.ofNat token.length] ++ token ++ [kAuthVersion] =
      payload := by
    rw [putText_short h.name_le, h.layout]
    unfold authStartLayout
    simp only [List.append_assoc, List.cons_append, List.nil_append]
  unfold buildAuthStart
  rw [if_neg hkey, if_neg htoken, hlayout]
  cases hwrite : writeCommon cap .authStart 0 .control 0 payload with
  | none =>
    unfold writeCommon at hwrite
    rw [if_neg (Nat.not_lt.mpr hcap)] at hwrite
    cases hwrite
  | some d => rw [Option.map_some, payloadOf_writeCommon hwrite]

/-- `ParseAuthStart` reads within the payload and takes what is of the grammar, the name without
its control bytes; a name without any goes out again as it came. -/
theorem authStart_grammar (payload : Bytes) :
    readAuthStart payload = some (parseAuthStart payload) ∧
      ((parseAuthStart payload).isSome = true ↔
        ∃ key name token, AuthStartGrammar payload key name token) ∧
      ∀ key name token, AuthStartGrammar payload key name token →
        parseAuthStart payload = some ⟨key, removeControls name, token⟩ ∧
          ((∀ c ∈ name, ¬ (c < 0x20 ∨ c = 0x7F)) →
            ∀ cap, kCommonHeaderSize + payload.length ≤ cap →
              (buildAuthStart cap ⟨key, removeControls name, token⟩).map payloadOf = some payload) := by
  refine ⟨readAuthStart_eq payload, ?_, ?_⟩
  · constructor
    · intro h
      rcases Option.isSome_iff_exists.mp h with ⟨m, hm⟩
      exact AuthStartGrammar.of_parse hm
    · rintro ⟨key, name, token, h⟩
      rw [h.parse]
      rfl
  · intro key name token h
    refine ⟨h.parse, ?_⟩
    intro hclean cap hcap
    have hkept : ∀ c ∈ name, 0x20 ≤ c ∧ c ≠ 0x7F := fun c hc =>
      ⟨UInt8.not_lt.mp fun hlow => hclean c hc (.inl hlow), fun hdel => hclean c hc (.inr hdel)⟩
    rw [removeControls_eq_self hkept]
    exact h.build hcap

end Deskhub
