import Deskhub.Protocol.Wire.Texts

/-!
# Authentication messages

The builders and parsers of the handshake's four messages, with what each parser gives on
what its builder wrote.
-/

namespace Deskhub

def kAuthVersion : UInt8 := 8
def kMaxAuthBlobBytes : Nat := 256
def kPairingTokenBytes : Nat := 32

abbrev PairingToken := { bytes : Bytes // bytes.length = kPairingTokenBytes }

inductive AuthMode where
  | denied | signature | configError | awaitingApproval
deriving DecidableEq, Repr

def AuthMode.all : List AuthMode := [.denied, .signature, .configError, .awaitingApproval]

def AuthMode.code : AuthMode → UInt8
  | .denied => 0
  | .signature => 1
  | .configError => 2
  | .awaitingApproval => 3

/-- The mode of a byte; none above `AwaitingApproval`. -/
def AuthMode.ofCode? (c : UInt8) : Option AuthMode := AuthMode.all.find? (fun m => m.code = c)

@[simp] theorem AuthMode.ofCode?_code (m : AuthMode) : AuthMode.ofCode? m.code = some m := by
  cases m <;> decide

inductive AuthResultCode where
  | accepted | notPaired | refused | timedOut | versionMismatch | badSignature | configError
  | untrustedHost | localKeyUnavailable | awaitingApproval | rateLimited
deriving DecidableEq, Repr

def AuthResultCode.all : List AuthResultCode :=
  [.accepted, .notPaired, .refused, .timedOut, .versionMismatch, .badSignature, .configError,
    .untrustedHost, .localKeyUnavailable, .awaitingApproval, .rateLimited]

def AuthResultCode.code : AuthResultCode → UInt8
  | .accepted => 0
  | .notPaired => 1
  | .refused => 2
  | .timedOut => 3
  | .versionMismatch => 4
  | .badSignature => 5
  | .configError => 6
  | .untrustedHost => 7
  | .localKeyUnavailable => 8
  | .awaitingApproval => 9
  | .rateLimited => 10

def AuthResultCode.ofCode? (c : UInt8) : Option AuthResultCode :=
  AuthResultCode.all.find? (fun r => r.code = c)

@[simp] theorem AuthResultCode.ofCode?_code (r : AuthResultCode) :
    AuthResultCode.ofCode? r.code = some r := by
  cases r <;> decide

/-- The results that are sent; the others only the client gives itself. -/
def isWireAuthResultCode (code : UInt8) : Bool :=
  code ≤ AuthResultCode.configError.code ∨ code = AuthResultCode.awaitingApproval.code

structure AuthStart where
  publicKey : Bytes := []
  clientName : Bytes := []
  pairingToken : Bytes := []
deriving DecidableEq, Repr

structure AuthChallenge where
  mode : AuthMode := .denied
deriving DecidableEq, Repr

structure AuthResponse where
  proof : Bytes := []
deriving DecidableEq, Repr

structure AuthResult where
  code : AuthResultCode := .notPaired
deriving DecidableEq, Repr

/-! ## Builders -/

def buildAuthStart (cap : Nat) (m : AuthStart) : Option Bytes :=
  if m.publicKey = [] ∨ kMaxAuthBlobBytes < m.publicKey.length then none
  else if m.pairingToken ≠ [] ∧ m.pairingToken.length ≠ kPairingTokenBytes then none
  else
    writeCommon cap .authStart 0 .control 0
      ([0] ++ putU16 (UInt16.ofNat m.publicKey.length) ++ m.publicKey ++
        putText kMaxClientNameBytes m.clientName ++
        [UInt8.ofNat m.pairingToken.length] ++ m.pairingToken ++ [kAuthVersion])

/-- `BuildAuthChallenge`: no mode is above `AwaitingApproval`. -/
def buildAuthChallenge (cap : Nat) (m : AuthChallenge) : Option Bytes :=
  writeCommon cap .authChallenge 0 .control 0 [kAuthVersion, m.mode.code]

def buildAuthResponse (cap : Nat) (m : AuthResponse) : Option Bytes :=
  if m.proof = [] ∨ kMaxAuthBlobBytes < m.proof.length then none
  else
    writeCommon cap .authResponse 0 .control 0
      ([kAuthVersion] ++ putU16 (UInt16.ofNat m.proof.length) ++ m.proof)

def buildAuthResult (cap : Nat) (m : AuthResult) : Option Bytes :=
  if !isWireAuthResultCode m.code.code then none
  else writeCommon cap .authResult 0 .control 0 [kAuthVersion, m.code.code]

/-! ## Parsers -/

def parseAuthStart (payload : Bytes) : Option AuthStart :=
  if payload.length < 6 then none
  else if byteAt payload 0 ≠ 0 then none
  else
    let keyLen := (getU16 (payload.drop 1)).toNat
    if keyLen = 0 ∨ kMaxAuthBlobBytes < keyLen ∨ payload.length < 1 + 2 + keyLen + 1 + 1 + 1 then
      none
    else
      let nameOff := 1 + 2 + keyLen
      let nameLen := (byteAt payload nameOff).toNat
      if kMaxClientNameBytes < nameLen ∨ payload.length < nameOff + 1 + nameLen + 1 + 1 then none
      else
        let tokenOff := nameOff + 1 + nameLen
        let tokenLen := (byteAt payload tokenOff).toNat
        if (tokenLen ≠ 0 ∧ tokenLen ≠ kPairingTokenBytes) ∨
            payload.length ≠ tokenOff + 1 + tokenLen + 1 ∨
            byteAt payload (tokenOff + 1 + tokenLen) ≠ kAuthVersion then none
        else some
          { publicKey := (payload.drop 3).take keyLen
            clientName := removeControls ((payload.drop (nameOff + 1)).take nameLen)
            pairingToken := (payload.drop (tokenOff + 1)).take tokenLen }

def parseAuthChallenge (payload : Bytes) : Option AuthChallenge :=
  if payload.length ≠ 2 ∨ byteAt payload 0 ≠ kAuthVersion then none
  else (AuthMode.ofCode? (byteAt payload 1)).map fun mode => ⟨mode⟩

def parseAuthResponse (payload : Bytes) : Option AuthResponse :=
  if payload.length < 3 ∨ byteAt payload 0 ≠ kAuthVersion then none
  else
    let blob := (getU16 (payload.drop 1)).toNat
    if blob = 0 ∨ kMaxAuthBlobBytes < blob ∨ payload.length ≠ 3 + blob then none
    else some ⟨(payload.drop 3).take blob⟩

def parseAuthResult (payload : Bytes) : Option AuthResult :=
  if payload.length ≠ 2 ∨ byteAt payload 0 ≠ kAuthVersion then none
  else if !isWireAuthResultCode (byteAt payload 1) then none
  else (AuthResultCode.ofCode? (byteAt payload 1)).map fun code => ⟨code⟩

/-! ## Round trips -/

/-- A length of at most 16 bits. -/
theorem toNat_length16 {s : Bytes} (h : s.length < 65536) :
    (UInt16.ofNat s.length).toNat = s.length := by
  rw [UInt16.toNat_ofNat', Nat.mod_eq_of_lt h]

theorem parseAuthStart_payload {m : AuthStart} (hkey : m.publicKey ≠ [])
    (hlimit : m.publicKey.length ≤ kMaxAuthBlobBytes)
    (htoken : m.pairingToken = [] ∨ m.pairingToken.length = kPairingTokenBytes) :
    parseAuthStart ([0] ++ putU16 (UInt16.ofNat m.publicKey.length) ++ m.publicKey ++
        putText kMaxClientNameBytes m.clientName ++
        [UInt8.ofNat m.pairingToken.length] ++ m.pairingToken ++ [kAuthVersion]) =
      some { m with clientName := removeControls (cutText kMaxClientNameBytes m.clientName) } := by
  have hpos : 0 < m.publicKey.length := List.length_pos_of_ne_nil hkey
  have hmax : kMaxAuthBlobBytes = 256 := rfl
  have hbytes : kPairingTokenBytes = 32 := rfl
  have hname : kMaxClientNameBytes = 64 := rfl
  have hshort := length_cutText_le kMaxClientNameBytes m.clientName
  have htokenLen : m.pairingToken.length = 0 ∨ m.pairingToken.length = 32 := by
    rcases htoken with hnil | hlen
    · exact .inl (List.length_eq_zero_iff.mpr hnil)
    · exact .inr hlen
  generalize hname' : cutText kMaxClientNameBytes m.clientName = name at hshort
  -- the parts of variable length, each behind its length
  let front1 := [0] ++ putU16 (UInt16.ofNat m.publicKey.length) ++ m.publicKey
  let front2 := front1 ++ UInt8.ofNat name.length :: name
  let front3 := front2 ++ UInt8.ofNat m.pairingToken.length :: m.pairingToken
  have hlayout : [0] ++ putU16 (UInt16.ofNat m.publicKey.length) ++ m.publicKey ++
      putText kMaxClientNameBytes m.clientName ++
      [UInt8.ofNat m.pairingToken.length] ++ m.pairingToken ++ [kAuthVersion] =
      front3 ++ [kAuthVersion] := by
    rw [putText_eq, hname']
    simp only [front3, front2, front1, List.append_assoc, List.cons_append, List.nil_append]
  have h3 : front3 ++ [kAuthVersion] = front2 ++ UInt8.ofNat m.pairingToken.length ::
      (m.pairingToken ++ [kAuthVersion]) := by
    simp only [front3, List.append_assoc, List.cons_append]
  have h2 : front3 ++ [kAuthVersion] = front1 ++ UInt8.ofNat name.length ::
      (name ++ UInt8.ofNat m.pairingToken.length :: (m.pairingToken ++ [kAuthVersion])) := by
    simp only [front3, front2, List.append_assoc, List.cons_append]
  have hlen1 : front1.length = 1 + 2 + m.publicKey.length := by
    simp only [front1, List.length_append, List.length_singleton, length_putU16]
  have hlen2 : front2.length = 1 + 2 + m.publicKey.length + 1 + name.length := by
    simp only [front2, List.length_append, List.length_cons, hlen1]
    omega
  have hlen3 : front3.length =
      1 + 2 + m.publicKey.length + 1 + name.length + 1 + m.pairingToken.length := by
    simp only [front3, List.length_append, List.length_cons, hlen2]
    omega
  have hsize : (front3 ++ [kAuthVersion]).length =
      1 + 2 + m.publicKey.length + 1 + name.length + 1 + m.pairingToken.length + 1 := by
    rw [List.length_append, hlen3, List.length_singleton]
  have hzero : byteAt (front3 ++ [kAuthVersion]) 0 = 0 := rfl
  have hkeyLen : (getU16 ((front3 ++ [kAuthVersion]).drop 1)).toNat = m.publicKey.length := by
    refine Eq.trans ?_ (toNat_length16 (show m.publicKey.length < 65536 by omega))
    exact congrArg UInt16.toNat (getU16_putU16 (UInt16.ofNat m.publicKey.length) _)
  have hnameLen : (byteAt (front3 ++ [kAuthVersion]) (1 + 2 + m.publicKey.length)).toNat =
      name.length := by
    rw [← hlen1, h2, byteAt_append, toNat_length (by omega)]
  have htokenByte : (byteAt (front3 ++ [kAuthVersion])
      (1 + 2 + m.publicKey.length + 1 + name.length)).toNat = m.pairingToken.length := by
    rw [← hlen2, h3, byteAt_append, toNat_length (by omega)]
  have hversion : byteAt (front3 ++ [kAuthVersion])
      (1 + 2 + m.publicKey.length + 1 + name.length + 1 + m.pairingToken.length) = kAuthVersion := by
    rw [← hlen3]
    exact byteAt_append front3 kAuthVersion []
  have hkeyBytes : ((front3 ++ [kAuthVersion]).drop 3).take m.publicKey.length = m.publicKey := by
    rw [h2]
    exact List.take_left
  have hnameBytes : ((front3 ++ [kAuthVersion]).drop (1 + 2 + m.publicKey.length + 1)).take
      name.length = name := by
    rw [← hlen1, h2, drop_append_cons, List.take_left]
  have htokenBytes : ((front3 ++ [kAuthVersion]).drop
      (1 + 2 + m.publicKey.length + 1 + name.length + 1)).take m.pairingToken.length =
        m.pairingToken := by
    rw [← hlen2, h3, drop_append_cons, List.take_left]
  rw [hlayout]
  unfold parseAuthStart
  dsimp only
  rw [hkeyLen, hnameLen, htokenByte, hversion, hzero, hsize, hkeyBytes, hnameBytes, htokenBytes,
    if_neg (by omega), if_neg (not_not.mpr rfl), if_neg (by omega), if_neg (by omega), if_neg]
  rintro (hlen | hlen | hversion')
  · omega
  · exact hlen rfl
  · exact hversion' rfl

theorem parseAuthChallenge_payload (m : AuthChallenge) :
    parseAuthChallenge [kAuthVersion, m.mode.code] = some m := by
  have hmode : byteAt [kAuthVersion, m.mode.code] 1 = m.mode.code := rfl
  unfold parseAuthChallenge
  rw [if_neg, hmode, AuthMode.ofCode?_code]
  · rfl
  · rintro (hlen | hversion)
    · exact hlen rfl
    · exact hversion rfl

theorem parseAuthResponse_payload {m : AuthResponse} (hproof : m.proof ≠ [])
    (hlimit : m.proof.length ≤ kMaxAuthBlobBytes) :
    parseAuthResponse ([kAuthVersion] ++ putU16 (UInt16.ofNat m.proof.length) ++ m.proof) =
      some m := by
  have hpos : 0 < m.proof.length := List.length_pos_of_ne_nil hproof
  have hmax : kMaxAuthBlobBytes = 256 := rfl
  have hversion : byteAt ([kAuthVersion] ++ putU16 (UInt16.ofNat m.proof.length) ++ m.proof) 0 =
      kAuthVersion := rfl
  have hblob : (getU16 (([kAuthVersion] ++ putU16 (UInt16.ofNat m.proof.length) ++
      m.proof).drop 1)).toNat = m.proof.length := by
    refine Eq.trans ?_ (toNat_length16 (show m.proof.length < 65536 by omega))
    exact congrArg UInt16.toNat (getU16_putU16 (UInt16.ofNat m.proof.length) _)
  have hsize : ([kAuthVersion] ++ putU16 (UInt16.ofNat m.proof.length) ++ m.proof).length =
      3 + m.proof.length := by
    simp only [List.length_append, List.length_singleton, length_putU16]
  have hdrop : ([kAuthVersion] ++ putU16 (UInt16.ofNat m.proof.length) ++ m.proof).drop 3 =
      m.proof := rfl
  unfold parseAuthResponse
  dsimp only
  rw [hblob, hsize, hdrop, hversion, if_neg, if_neg (by omega), List.take_length]
  rintro (hlen | hne)
  · omega
  · exact hne rfl

theorem parseAuthResult_payload {m : AuthResult} (hwire : isWireAuthResultCode m.code.code = true) :
    parseAuthResult [kAuthVersion, m.code.code] = some m := by
  have hcode : byteAt [kAuthVersion, m.code.code] 1 = m.code.code := rfl
  unfold parseAuthResult
  rw [if_neg, hcode, hwire, if_neg (by decide), AuthResultCode.ofCode?_code]
  · rfl
  · rintro (hlen | hversion)
    · exact hlen rfl
    · exact hversion rfl

end Deskhub
