import Deskhub.Auth.FailureLimiter
import Deskhub.Net.Base64
import Deskhub.Net.TrustStore
import Deskhub.Auth.PairingTokens

/-!
# Pairing invites

`FormatPairingInvite` and `ParsePairingInvite`: the endpoints of a host, its key, a token and its
name as a link.
-/

namespace Deskhub

open Base64

namespace PairingInvite

def kPairingInvitePrefix : Bytes := ascii "deskhub://pair/"
def kPairingInviteVersion : UInt8 := 1
def kMaxPairingEndpoints : Nat := 4
def kMaxPairingHostNameBytes : Nat := 32
def kMaxPairingInviteChars : Nat := 180
def kEndpointBytes : Nat := 6
def kFingerprintBytes : Nat := 32
def kMaxRecordBytes : Nat :=
  1 + 1 + kMaxPairingEndpoints * kEndpointBytes + kFingerprintBytes + kPairingTokenBytes + 1 +
    kMaxPairingHostNameBytes

end PairingInvite

structure PairingEndpoint where
  ip : UInt32 := 0
  port : UInt16 := 0
deriving DecidableEq, Repr

structure PairingInvite where
  endpoints : List PairingEndpoint
  hostKey : Fingerprint
  token : PairingToken
  hostName : Bytes
deriving DecidableEq

namespace PairingInvite

def isContinuationByte (byte : UInt8) : Bool := byte &&& 0xC0 = 0x80

/-- The loop of `CleanHostName` that cuts a name at the end of a character. -/
def cutHostName (out : Bytes) : Bytes :=
  if kMaxPairingHostNameBytes < out.length then
    cutHostName (out.dropLast.rdropWhile isContinuationByte)
  else out
termination_by out.length
decreasing_by
  have hshorter := (List.rdropWhile_prefix isContinuationByte out.dropLast).length_le
  rw [List.length_dropLast] at hshorter
  omega

def cleanHostName (name : Bytes) : Bytes :=
  trim (cutHostName (name.filter (fun byte => !(byte < 0x20 || byte = 0x7F))))

def validHostName (name : Bytes) : Bool :=
  if kMaxPairingHostNameBytes < name.length then false
  else if name.any (fun byte => byte < 0x20 || byte = 0x7F) then false
  else (trim name).length = name.length

def validEndpoints (endpoints : List PairingEndpoint) : Bool :=
  if endpoints = [] ∨ kMaxPairingEndpoints < endpoints.length then false
  else endpoints.all (fun endpoint => !(endpoint.ip = 0 || endpoint.port = 0))

/-- `PutU32` and `PutU16` of an endpoint. -/
def endpointBytes (endpoint : PairingEndpoint) : Bytes :=
  putU32 endpoint.ip ++ putU16 endpoint.port

/-- The record of `FormatPairingInvite`. -/
def recordOf (invite : PairingInvite) : Bytes :=
  kPairingInviteVersion :: UInt8.ofNat invite.endpoints.length ::
    (invite.endpoints.flatMap endpointBytes ++ (invite.hostKey.val ++ (invite.token.val ++
      UInt8.ofNat invite.hostName.length :: invite.hostName)))

def formatPairingInvite (invite : PairingInvite) : Bytes :=
  if !validEndpoints invite.endpoints || TrustStore.isZero invite.hostKey || invite.token.isZero ||
      !validHostName invite.hostName then []
  else kPairingInvitePrefix ++ encodeBase64 (recordOf invite) .url .none

/-- The loop of `ParsePairingInvite` over the endpoints. -/
def readEndpoints : Nat → Bytes → List PairingEndpoint
  | 0, _ => []
  | count + 1, p => ⟨getU32 p, getU16 (p.drop 4)⟩ :: readEndpoints count (p.drop kEndpointBytes)

/-- The fields that `ParsePairingInvite` copies out behind the number of endpoints. -/
def readFields (count : Nat) (p : Bytes) : Option PairingInvite :=
  if h : p.length < count * kEndpointBytes + kFingerprintBytes + kPairingTokenBytes + 1 then none
  else
    let afterEndpoints := p.drop (count * kEndpointBytes)
    let afterKey := afterEndpoints.drop kFingerprintBytes
    let afterToken := afterKey.drop kPairingTokenBytes
    have hkey : kFingerprintBytes ≤ afterEndpoints.length := by
      rw [List.length_drop]
      omega
    have htoken : kPairingTokenBytes ≤ afterKey.length := by
      rw [List.length_drop, List.length_drop]
      omega
    let nameLen := (byteAt afterToken 0).toNat
    let name := afterToken.drop 1
    if name.length ≠ nameLen then none
    else
      some {
        endpoints := readEndpoints count p
        hostKey := ⟨afterEndpoints.take kFingerprintBytes, List.length_take_of_le hkey⟩
        token := ⟨afterKey.take kPairingTokenBytes, List.length_take_of_le htoken⟩
        hostName := name }

/-- The record as `ParsePairingInvite` walks it. -/
def readRecord (record : Bytes) : Option PairingInvite :=
  match record with
  | version :: count :: p =>
    if version ≠ kPairingInviteVersion then none
    else if count.toNat = 0 ∨ kMaxPairingEndpoints < count.toNat then none
    else readFields count.toNat p
  | _ => none

def parsePairingInvite (text : Bytes) : Option PairingInvite :=
  let body := trim text
  if ¬ kPairingInvitePrefix <+: body ∨ kMaxPairingInviteChars < body.length then none
  else
    match decodeBase64 (body.drop kPairingInvitePrefix.length) .url with
    | none => none
    | some record =>
      if record.length < 2 ∨ kMaxRecordBytes < record.length then none
      else
        match readRecord record with
        | none => none
        | some invite =>
          if !validEndpoints invite.endpoints || TrustStore.isZero invite.hostKey ||
              invite.token.isZero || !validHostName invite.hostName ||
              cleanHostName invite.hostName ≠ invite.hostName then none
          else some invite

def isPairingInvite (text : Bytes) : Bool := kPairingInvitePrefix <+: trim text

/-- Blanks around an invite do not matter. -/
theorem parsePairingInvite_trim (text : Bytes) :
    parsePairingInvite (trim text) = parsePairingInvite text := by
  unfold parsePairingInvite
  rw [trim_trim]

/-! ## Host names -/

/-- A valid name is not changed by cleaning. -/
theorem cleanHostName_of_valid {name : Bytes} (h : validHostName name = true) :
    cleanHostName name = name := by
  unfold validHostName at h
  by_cases hlong : kMaxPairingHostNameBytes < name.length
  · rw [if_pos hlong] at h
    cases h
  rw [if_neg hlong] at h
  by_cases hcontrol : name.any (fun byte => byte < 0x20 || byte = 0x7F) = true
  · rw [if_pos hcontrol] at h
    cases h
  rw [if_neg hcontrol] at h
  have htrim : trim name = name := (trim_sublist name).eq_of_length (of_decide_eq_true h)
  have hkept : name.filter (fun byte => !(byte < 0x20 || byte = 0x7F)) = name := by
    rw [List.filter_eq_self]
    intro byte hbyte
    by_contra hdropped
    rw [Bool.not_eq_true', Bool.not_eq_false] at hdropped
    exact hcontrol (List.any_eq_true.mpr ⟨byte, hbyte, hdropped⟩)
  unfold cleanHostName
  rw [hkept, cutHostName, if_neg hlong, htrim]

theorem length_le_of_validHostName {name : Bytes} (h : validHostName name = true) :
    name.length ≤ kMaxPairingHostNameBytes := by
  unfold validHostName at h
  by_cases hlong : kMaxPairingHostNameBytes < name.length
  · rw [if_pos hlong] at h
    cases h
  · exact Nat.le_of_not_lt hlong

theorem length_of_validEndpoints {endpoints : List PairingEndpoint}
    (h : validEndpoints endpoints = true) :
    0 < endpoints.length ∧ endpoints.length ≤ kMaxPairingEndpoints := by
  unfold validEndpoints at h
  by_cases hcount : endpoints = [] ∨ kMaxPairingEndpoints < endpoints.length
  · rw [if_pos hcount] at h
    cases h
  · rw [not_or] at hcount
    exact ⟨List.length_pos_iff.mpr hcount.1, Nat.le_of_not_lt hcount.2⟩

/-! ## Records -/

@[simp] theorem length_endpointBytes (endpoint : PairingEndpoint) :
    (endpointBytes endpoint).length = kEndpointBytes := rfl

theorem length_flatMap_endpointBytes (endpoints : List PairingEndpoint) :
    (endpoints.flatMap endpointBytes).length = endpoints.length * kEndpointBytes := by
  rw [List.length_flatMap]
  simp

theorem readEndpoints_append (endpoints : List PairingEndpoint) (rest : Bytes) :
    readEndpoints endpoints.length (endpoints.flatMap endpointBytes ++ rest) = endpoints := by
  induction endpoints with
  | nil => rfl
  | cons endpoint endpoints ih =>
    rw [List.flatMap_cons, List.append_assoc, List.length_cons, readEndpoints,
      List.drop_left' (length_endpointBytes endpoint), ih]
    unfold endpointBytes
    rw [List.append_assoc, getU32_putU32, List.drop_left' (length_putU32 endpoint.ip),
      getU16_putU16]

theorem length_readEndpoints (count : Nat) (p : Bytes) : (readEndpoints count p).length = count := by
  induction count generalizing p with
  | zero => rfl
  | succ count ih => rw [readEndpoints, List.length_cons, ih]

/-- Endpoints that are read give the bytes they were read from. -/
theorem flatMap_readEndpoints {count : Nat} {p : Bytes} (h : count * kEndpointBytes ≤ p.length) :
    (readEndpoints count p).flatMap endpointBytes = p.take (count * kEndpointBytes) := by
  induction count generalizing p with
  | zero =>
    rw [Nat.zero_mul, List.take_zero]
    rfl
  | succ count ih =>
    unfold kEndpointBytes at h ih ⊢
    match p with
    | a :: b :: c :: d :: e :: f :: p =>
      simp only [List.length_cons] at h
      have hfirst : endpointBytes ⟨getU32 (a :: b :: c :: d :: e :: f :: p), getU16 (e :: f :: p)⟩ =
          [a, b, c, d, e, f] := by
        show putU32 _ ++ putU16 _ = _
        rw [putU32_getU32, putU16_getU16]
        rfl
      have hsix : (count + 1) * 6 = 6 + count * 6 := by omega
      rw [readEndpoints, List.flatMap_cons]
      show endpointBytes ⟨getU32 (a :: b :: c :: d :: e :: f :: p), getU16 (e :: f :: p)⟩ ++
        (readEndpoints count p).flatMap endpointBytes = _
      rw [hfirst, ih (by omega), hsix, List.take_add]
      rfl
    | [] | [_] | [_, _] | [_, _, _] | [_, _, _, _] | [_, _, _, _, _] =>
      simp only [List.length_cons, List.length_nil] at h
      omega

/-- The byte at a pointer, and the rest. -/
theorem cons_byteAt {p : Bytes} (h : p ≠ []) : byteAt p 0 :: p.drop 1 = p := by
  cases p with
  | nil => exact absurd rfl h
  | cons b p => rfl

section Fields

variable {invite : PairingInvite} {len : UInt8}

theorem readFields_append (hlen : len.toNat = invite.hostName.length) :
    readFields invite.endpoints.length (invite.endpoints.flatMap endpointBytes ++
      (invite.hostKey.val ++ (invite.token.val ++ len :: invite.hostName))) = some invite := by
  have hendpoints := length_flatMap_endpointBytes invite.endpoints
  have hkey : invite.hostKey.val.length = kFingerprintBytes := invite.hostKey.property
  have htoken : invite.token.val.length = kPairingTokenBytes := invite.token.property
  have hlength : ¬ (invite.endpoints.flatMap endpointBytes ++
      (invite.hostKey.val ++ (invite.token.val ++ len :: invite.hostName))).length <
        invite.endpoints.length * kEndpointBytes + kFingerprintBytes + kPairingTokenBytes + 1 := by
    simp only [List.length_append, List.length_cons]
    omega
  unfold readFields
  rw [dif_neg hlength]
  simp only [List.drop_left' hendpoints, List.drop_left' hkey, List.drop_left' htoken,
    List.take_left' hkey, List.take_left' htoken, readEndpoints_append]
  have hbyte : (byteAt (len :: invite.hostName) 0).toNat = invite.hostName.length := hlen
  rw [if_neg (by rw [hbyte]; exact fun hne => hne rfl)]
  rfl

/-- Fields that are read are those the bytes were written from. -/
theorem append_of_readFields {count : Nat} {p : Bytes} (h : readFields count p = some invite) :
    invite.endpoints.length = count ∧ ∃ len : UInt8, len.toNat = invite.hostName.length ∧
      p = invite.endpoints.flatMap endpointBytes ++
        (invite.hostKey.val ++ (invite.token.val ++ len :: invite.hostName)) := by
  unfold readFields at h
  by_cases hlength :
      p.length < count * kEndpointBytes + kFingerprintBytes + kPairingTokenBytes + 1
  · rw [dif_pos hlength] at h
    cases h
  rw [dif_neg hlength] at h
  dsimp only at h
  split at h
  · cases h
  next hname =>
  rw [not_not] at hname
  rcases Option.some.inj h with rfl
  dsimp only
  refine ⟨length_readEndpoints count p, byteAt (((p.drop (count * kEndpointBytes)).drop
    kFingerprintBytes).drop kPairingTokenBytes) 0, hname.symm, ?_⟩
  have hsome : ((p.drop (count * kEndpointBytes)).drop kFingerprintBytes).drop kPairingTokenBytes ≠
      [] := by
    intro hnil
    have hlen := congrArg List.length hnil
    simp only [List.length_drop, List.length_nil] at hlen
    omega
  rw [flatMap_readEndpoints (by omega), cons_byteAt hsome, List.take_append_drop,
    List.take_append_drop, List.take_append_drop]

end Fields

theorem readRecord_recordOf {invite : PairingInvite} (hsome : 0 < invite.endpoints.length)
    (hmost : invite.endpoints.length ≤ kMaxPairingEndpoints)
    (hname : invite.hostName.length ≤ kMaxPairingHostNameBytes) :
    readRecord (recordOf invite) = some invite := by
  unfold kMaxPairingEndpoints at hmost
  unfold kMaxPairingHostNameBytes at hname
  have hcount : (UInt8.ofNat invite.endpoints.length).toNat = invite.endpoints.length := by
    rw [UInt8.toNat_ofNat']
    omega
  have hlen : (UInt8.ofNat invite.hostName.length).toNat = invite.hostName.length := by
    rw [UInt8.toNat_ofNat']
    omega
  unfold recordOf readRecord
  dsimp only
  rw [if_neg (fun hversion => hversion rfl), hcount, if_neg (by unfold kMaxPairingEndpoints; omega)]
  exact readFields_append hlen

/-- A record that is read is the one of what was read. -/
theorem recordOf_readRecord {record : Bytes} {invite : PairingInvite}
    (h : readRecord record = some invite) : record = recordOf invite := by
  match record, h with
  | version :: count :: p, h =>
    unfold readRecord at h
    dsimp only at h
    by_cases hversion : version ≠ kPairingInviteVersion
    · rw [if_pos hversion] at h
      cases h
    rw [if_neg hversion] at h
    by_cases hcount : count.toNat = 0 ∨ kMaxPairingEndpoints < count.toNat
    · rw [if_pos hcount] at h
      cases h
    rw [if_neg hcount] at h
    rcases append_of_readFields h with ⟨hendpoints, len, hlen, rfl⟩
    unfold recordOf
    rw [not_not.mp hversion, hendpoints, ← hlen, UInt8.ofNat_toNat, UInt8.ofNat_toNat]
  | [], h => cases h
  | [_], h => cases h

/-! ## Links -/

/-- What `FormatPairingInvite` and `ParsePairingInvite` ask of an invite. -/
def Sound (invite : PairingInvite) : Prop :=
  (!validEndpoints invite.endpoints || TrustStore.isZero invite.hostKey || invite.token.isZero ||
    !validHostName invite.hostName) = false

section Links

variable {invite : PairingInvite} {text : Bytes}

theorem formatPairingInvite_of_sound (h : Sound invite) :
    formatPairingInvite invite =
      kPairingInvitePrefix ++ encodeBase64 (recordOf invite) .url .none := by
  unfold formatPairingInvite
  rw [if_neg (Bool.eq_false_iff.mp h)]

theorem sound_of_formatPairingInvite (h : formatPairingInvite invite ≠ []) : Sound invite := by
  apply Bool.eq_false_iff.mpr
  intro hrefused
  unfold formatPairingInvite at h
  exact h (if_pos hrefused)

theorem Sound.parts (h : Sound invite) :
    validEndpoints invite.endpoints = true ∧ validHostName invite.hostName = true := by
  unfold Sound at h
  simp only [Bool.or_eq_false_iff, Bool.not_eq_false'] at h
  exact ⟨h.1.1.1, h.2⟩

/-- The longest record is the one of the most endpoints and the longest name. -/
theorem length_recordOf_le (h : Sound invite) :
    2 ≤ (recordOf invite).length ∧ (recordOf invite).length ≤ kMaxRecordBytes := by
  have hendpoints := (length_of_validEndpoints h.parts.1).2
  have hname := length_le_of_validHostName h.parts.2
  have hkey : invite.hostKey.val.length = 32 := invite.hostKey.property
  have htoken : invite.token.val.length = kPairingTokenBytes := invite.token.property
  unfold kMaxRecordBytes kMaxPairingEndpoints kMaxPairingHostNameBytes kFingerprintBytes at *
  unfold recordOf
  simp only [List.length_cons, List.length_append, length_flatMap_endpointBytes]
  unfold kEndpointBytes
  omega

/-- What a link that is parsed holds. -/
theorem of_parsePairingInvite (h : parsePairingInvite text = some invite) :
    Sound invite ∧ ∃ body, trim text = kPairingInvitePrefix ++ body ∧
      decodeBase64 body .url = some (recordOf invite) := by
  unfold parsePairingInvite at h
  dsimp only at h
  split at h
  · cases h
  next hlink =>
  rw [not_or, not_not] at hlink
  rcases hlink.1 with ⟨body, hbody⟩
  rw [← hbody, List.drop_left] at h
  split at h
  · cases h
  next record hdecode =>
  split at h
  · cases h
  split at h
  · cases h
  next read hread =>
  split at h
  · cases h
  next hsound =>
  obtain rfl := Option.some.inj h
  rw [recordOf_readRecord hread] at hdecode
  rw [Bool.or_eq_true, not_or] at hsound
  exact ⟨Bool.eq_false_iff.mpr hsound.1, body, hbody.symm, hdecode⟩

/-- A link around the encoding of a record is parsed back. -/
theorem parsePairingInvite_of_record (h : Sound invite)
    (htext : text = kPairingInvitePrefix ++ encodeBase64 (recordOf invite) .url .none) :
    parsePairingInvite text = some invite := by
  have hrecord := length_recordOf_le h
  rcases encodeBase64_none (recordOf invite) .url with ⟨hvisible, -, hlength⟩
  have hprefix : kPairingInvitePrefix.length = 15 := by decide
  have htrim : trim text = text := by
    apply trim_of_trimmed
    apply trimmed_of_visible
    rw [htext]
    intro c hc
    rcases List.mem_append.mp hc with hc | hc
    · exact forall_of_all (p := (32 < ·.toNat)) (by decide) c hc
    · exact hvisible c hc
  have hsome : recordOf invite ≠ [] := List.cons_ne_nil _ _
  have hendpoints := length_of_validEndpoints h.parts.1
  have hclean := cleanHostName_of_valid h.parts.2
  unfold parsePairingInvite
  dsimp only
  rw [htrim, if_neg, htext, List.drop_left, decodeBase64_encodeBase64 hsome]
  · dsimp only
    rw [if_neg (by omega), readRecord_recordOf hendpoints.1 hendpoints.2
      (length_le_of_validHostName h.parts.2)]
    dsimp only
    unfold Sound at h
    rw [h, hclean]
    simp
  · rw [htext, not_or, not_not]
    refine ⟨List.prefix_append _ _, ?_⟩
    rw [List.length_append, hprefix]
    unfold kMaxPairingInviteChars
    have hmost := hrecord.2
    change _ ≤ 123 at hmost
    omega

end Links

end PairingInvite

open PairingInvite in
/-- Invites and their links: what is formatted is parsed back, and what is parsed was formatted so
up to blanks around it and padding. -/
theorem pairingInvite_canonical :
    (∀ invite, formatPairingInvite invite ≠ [] →
      parsePairingInvite (formatPairingInvite invite) = some invite) ∧
    ∀ text invite, parsePairingInvite text = some invite →
      formatPairingInvite invite = (trim text).rdropWhile (· = 61) := by
  constructor
  · intro invite hsome
    have hsound := sound_of_formatPairingInvite hsome
    exact parsePairingInvite_of_record hsound (formatPairingInvite_of_sound hsound)
  · intro text invite hparse
    rcases of_parsePairingInvite hparse with ⟨hsound, body, hbody, hdecode⟩
    rcases encodeBase64_of_decodeBase64 hdecode with ⟨-, padding, hencode⟩
    have hplain : ∀ c ∈ formatPairingInvite invite, c ≠ 61 := by
      rw [formatPairingInvite_of_sound hsound]
      intro c hc
      rcases List.mem_append.mp hc with hc | hc
      · exact forall_of_all (p := (· ≠ 61)) (by decide) c hc
      · exact encodeBase64_none_ne c hc
    have hkept : (formatPairingInvite invite).rdropWhile (· = 61) = formatPairingInvite invite := by
      rw [List.rdropWhile_eq_self_iff]
      intro hne
      simpa using hplain _ (List.getLast_mem hne)
    rw [hbody, hencode]
    cases padding with
    | none => rw [← formatPairingInvite_of_sound hsound, hkept]
    | equals =>
      have hpadded : encodeBase64 (recordOf invite) .url .equals =
          encodeBase64 (recordOf invite) .url .none ++
            List.replicate (padCount (encodeBase64 (recordOf invite) .url .none).length) 61 :=
        padEquals_eq _
      have hdropped : ∀ n : Nat, (List.replicate n (61 : UInt8)).rdropWhile (· = 61) = [] := by
        intro n
        rw [List.rdropWhile_eq_nil_iff]
        intro c hc
        simpa using List.eq_of_mem_replicate hc
      rw [hpadded, ← List.append_assoc, ← formatPairingInvite_of_sound hsound, rdropWhile_append,
        if_pos (hdropped _), hkept]

open PairingInvite in
/-- An invite with one endpoint. -/
theorem pairingInvite_canonical_one :
    parsePairingInvite (formatPairingInvite
        ⟨[⟨1, 1⟩], ⟨List.replicate 32 1, rfl⟩, ⟨List.replicate 32 2, rfl⟩, [65]⟩) =
      some ⟨[⟨1, 1⟩], ⟨List.replicate 32 1, rfl⟩, ⟨List.replicate 32 2, rfl⟩, [65]⟩ :=
  pairingInvite_canonical.1 _ (by decide +kernel)

end Deskhub
