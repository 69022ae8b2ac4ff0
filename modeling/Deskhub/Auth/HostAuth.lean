import Deskhub.Auth.FailureLimiter
import Deskhub.Net.PublicKeyText
import Deskhub.Protocol.Wire.Auth

/-!
# The host's side of a handshake

`HostAuth`: what a client claims in its AuthStart, and whether its AuthResponse proves it. The keys,
the pairing tokens and the requests for access are files that others write too, so a handshake
finds them as they are at the moment it looks.
-/

namespace Deskhub

/-! ## What is signed -/

inductive AuthRole where
  | client | host
deriving DecidableEq, Repr

def AuthRole.code : AuthRole → UInt8
  | .client => 1
  | .host => 2

theorem AuthRole.code_inj {role role' : AuthRole} (h : role.code = role'.code) : role = role' := by
  cases role <;> cases role'
  · rfl
  · exact absurd h (by decide)
  · exact absurd h (by decide)
  · rfl

def kAuthSessionIdBytes : Nat := 32

abbrev AuthSessionId := { bytes : Bytes // bytes.length = kAuthSessionIdBytes }

def kDomain : Bytes := ascii "Deskhub/auth/signature"

/-- `AppendField`: a field behind its length. -/
def transcriptField (field : Bytes) : Bytes := putU32 (UInt32.ofNat field.length) ++ field

def authTranscript (role : AuthRole) (sessionId : AuthSessionId) (clientPublicKey : Bytes)
    (hostFingerprint : Fingerprint) : Bytes :=
  if sessionId.val.all (· = 0) ∨ clientPublicKey = [] ∨ kMaxAuthBlobBytes < clientPublicKey.length ∨
      hostFingerprint.val.all (· = 0) then []
  else
    transcriptField kDomain ++ transcriptField [kAuthVersion, role.code] ++ transcriptField sessionId.val ++
      transcriptField clientPublicKey ++ transcriptField hostFingerprint.val

/-- Two fields that a length counts, and what is behind each, are told apart. -/
theorem transcriptField_inj {field field' rest rest' : Bytes} (h : field.length < 2 ^ 32)
    (h' : field'.length < 2 ^ 32)
    (heq : transcriptField field ++ rest = transcriptField field' ++ rest') :
    field = field' ∧ rest = rest' := by
  unfold transcriptField at heq
  rw [List.append_assoc, List.append_assoc] at heq
  have hcount := congrArg getU32 heq
  rw [getU32_putU32, getU32_putU32] at hcount
  have hlength := congrArg UInt32.toNat hcount
  rw [UInt32.toNat_ofNat', UInt32.toNat_ofNat', Nat.mod_eq_of_lt h, Nat.mod_eq_of_lt h'] at hlength
  rw [hcount] at heq
  exact List.append_inj (List.append_cancel_left heq) hlength

/-- Two roles, connections, keys or hosts never have the same transcript. -/
theorem authTranscript_inj {role role' : AuthRole} {sessionId sessionId' : AuthSessionId}
    {clientPublicKey clientPublicKey' : Bytes} {hostFingerprint hostFingerprint' : Fingerprint}
    (hsome : authTranscript role sessionId clientPublicKey hostFingerprint ≠ [])
    (heq : authTranscript role sessionId clientPublicKey hostFingerprint =
      authTranscript role' sessionId' clientPublicKey' hostFingerprint') :
    role = role' ∧ sessionId = sessionId' ∧ clientPublicKey = clientPublicKey' ∧
      hostFingerprint = hostFingerprint' := by
  have hmax : kMaxAuthBlobBytes = 256 := rfl
  have hlong : kAuthSessionIdBytes = 32 := rfl
  have hsome' := heq ▸ hsome
  unfold authTranscript at heq hsome hsome'
  split at hsome
  · exact absurd rfl hsome
  next hgood =>
  split at hsome'
  · exact absurd rfl hsome'
  next hgood' =>
  rw [if_neg hgood, if_neg hgood'] at heq
  push Not at hgood hgood'
  simp only [List.append_assoc] at heq
  -- field by field, each behind its length
  have hdomain := (transcriptField_inj (by decide) (by decide) heq).2
  have hshort : ∀ role : AuthRole, [kAuthVersion, role.code].length < 2 ^ 32 := by
    intro role
    rw [List.length_cons, List.length_singleton]
    decide
  rcases transcriptField_inj (hshort role) (hshort role') hdomain with ⟨hmetadata, hafterRole⟩
  rcases transcriptField_inj (by rw [sessionId.property]; omega) (by rw [sessionId'.property]; omega)
    hafterRole with ⟨hsession, hafterSession⟩
  rcases transcriptField_inj (by omega) (by omega) hafterSession with ⟨hkey, hlast⟩
  have hhost := (@transcriptField_inj _ _ [] [] (by rw [hostFingerprint.property]; decide)
    (by rw [hostFingerprint'.property]; decide) (by simpa using hlast)).1
  have hcode : role.code = role'.code := (List.cons.inj (List.cons.inj hmetadata).2).1
  exact ⟨AuthRole.code_inj hcode, Subtype.ext hsession, hkey, Subtype.ext hhost⟩

/-- What a client has signed is not what the host signs on that connection. -/
theorem authTranscript_inj_roles :
    authTranscript .client ⟨List.replicate 32 7, rfl⟩ [1, 2] ⟨List.replicate 32 9, rfl⟩ ≠
      authTranscript .host ⟨List.replicate 32 7, rfl⟩ [1, 2] ⟨List.replicate 32 9, rfl⟩ := by
  intro heq
  have hsome : authTranscript .client ⟨List.replicate 32 7, rfl⟩ [1, 2] ⟨List.replicate 32 9, rfl⟩ ≠ [] := by
    decide +kernel
  have hrole := (authTranscript_inj hsome heq).1
  cases hrole

/-! ## What a handshake asks -/

inductive ClientKeyAuthorization where
  | authorized | denied | configError
deriving DecidableEq, Repr

/-- The cryptography, and the files as `Env` has them. -/
structure HostServices (Env : Type) where
  publicKeyTextFromSpki : Bytes → Bytes
  fingerprintOfPublicKey : Bytes → Option Fingerprint
  verifySignature : Bytes → Bytes → Bytes → Bool
  checkClientKeyAuthorization : Env → Bytes → ClientKeyAuthorization
  rememberAuthorizedKey : Env → Bytes → Env × Bool
  redeemPairingToken : Env → Bytes → Env × Bool
  rememberAccessRequest : Env → Bytes → Bytes → Bytes → Env × Bool
  authorizedKeysGeneration : Env → UInt64

inductive HostAuthState where
  | idle | awaitingResponse | settled
deriving DecidableEq, Repr

structure HostAuth where
  /-- Of the host's identity. -/
  fingerprint : Fingerprint
  sessionId : AuthSessionId
  peerAddress : Bytes
  state : HostAuthState := .idle
  tokenRejected : Bool := false
  peer : Fingerprint := default
  peerName : Bytes := []
  peerPublicKey : Bytes := []
  pairingToken : Bytes := []
deriving DecidableEq

namespace HostAuth

variable {Env : Type} (sv : HostServices Env)

/-- `LabelledPublicKeyText`: with the name as the label, if it can be one. -/
def labelledPublicKeyText (publicKeySpki name : Bytes) : Bytes :=
  match parsePublicKeyText (sv.publicKeyTextFromSpki publicKeySpki) with
  | none => []
  | some parsed =>
      let text := formatPublicKeyText { parsed with label := name }
      if text = [] then formatPublicKeyText { parsed with label := [] } else text

def settle (h : HostAuth) (code : AuthResultCode) : HostAuth × AuthResult :=
  ({ h with state := .settled }, { code := code })

def admitWithToken (h : HostAuth) (env : Env) : HostAuth × Env × ClientKeyAuthorization :=
  let (env, redeemed) := sv.redeemPairingToken env h.pairingToken
  if !redeemed then ({ h with tokenRejected := true }, env, .denied)
  else
    let keyText := labelledPublicKeyText sv h.peerPublicKey h.peerName
    -- whether the key could be saved or not, the answer is what the list says then
    let env := if keyText = [] then env else (sv.rememberAuthorizedKey env keyText).1
    (h, env, sv.checkClientKeyAuthorization env h.peerPublicKey)

/-- The first part of `SettleProvenKey`: what the list says of the key, or the token does for it. -/
def authorizeKey (h : HostAuth) (env : Env) : HostAuth × Env × ClientKeyAuthorization :=
  let authorization := sv.checkClientKeyAuthorization env h.peerPublicKey
  if authorization = .denied ∧ h.pairingToken ≠ [] then h.admitWithToken sv env else (h, env, authorization)

def settleProvenKey (h : HostAuth) (env : Env) : HostAuth × Env × AuthResult :=
  let (h, env, authorization) := h.authorizeKey sv env
  match authorization with
  | .authorized => ((h.settle .accepted).1, env, (h.settle .accepted).2)
  | .configError => ((h.settle .configError).1, env, (h.settle .configError).2)
  | .denied =>
      let (env, remembered) := sv.rememberAccessRequest env h.peerPublicKey h.peerName h.peerAddress
      let code := if remembered then AuthResultCode.awaitingApproval else .notPaired
      ((h.settle code).1, env, (h.settle code).2)

/-- `Begin`: the challenge, if there is one. -/
def begin (h : HostAuth) (env : Env) (start : AuthStart) : HostAuth × Option AuthChallenge :=
  if h.state ≠ .idle then (h, none)
  else if sv.publicKeyTextFromSpki start.publicKey = [] then (h, none)
  else
    match sv.fingerprintOfPublicKey start.publicKey with
    | none => (h, none)
    | some peer =>
        let mode := if sv.checkClientKeyAuthorization env start.publicKey = .configError then AuthMode.configError
          else .signature
        ({ h with
            peer := peer
            peerName := start.clientName
            peerPublicKey := start.publicKey
            pairingToken := start.pairingToken
            state := if mode = .signature then .awaitingResponse else .settled }, some { mode := mode })

def respond (h : HostAuth) (env : Env) (response : AuthResponse) : HostAuth × Env × AuthResult :=
  if h.state ≠ .awaitingResponse then ((h.settle .notPaired).1, env, (h.settle .notPaired).2)
  else
    let transcript := authTranscript .client h.sessionId h.peerPublicKey h.fingerprint
    if transcript = [] then ((h.settle .notPaired).1, env, (h.settle .notPaired).2)
    else if sv.verifySignature h.peerPublicKey transcript response.proof = false then
      ((h.settle .badSignature).1, env, (h.settle .badSignature).2)
    else h.settleProvenKey sv env

/-! ## What the answers mean -/

variable {sv}

/-- What `Begin` takes over from the AuthStart, and that it leaves the rest. -/
structure Begun (h : HostAuth) (start : AuthStart) (h' : HostAuth) : Prop where
  sessionId : h'.sessionId = h.sessionId
  fingerprint : h'.fingerprint = h.fingerprint
  peerPublicKey : h'.peerPublicKey = start.publicKey
  pairingToken : h'.pairingToken = start.pairingToken

theorem begin_spec {h h' : HostAuth} {env : Env} {start : AuthStart} {challenge : AuthChallenge}
    (hbegin : h.begin sv env start = (h', some challenge)) : Begun h start h' := by
  unfold HostAuth.begin at hbegin
  split at hbegin
  · cases hbegin
  · split at hbegin
    · cases hbegin
    · split at hbegin
      · cases hbegin
      · simp only [Prod.mk.injEq] at hbegin
        rw [← hbegin.1]
        exact ⟨rfl, rfl, rfl, rfl⟩

/-- The key is let in: it is on the list, or its client has a token that is taken. -/
def Entitled (sv : HostServices Env) (env : Env) (publicKey pairingToken : Bytes) : Prop :=
  sv.checkClientKeyAuthorization env publicKey = .authorized ∨
    pairingToken ≠ [] ∧ (sv.redeemPairingToken env pairingToken).2 = true

/-- A token that is not taken leaves the key denied. -/
theorem admitWithToken_authorized {h : HostAuth} {env : Env} (hauthorized : (h.admitWithToken sv env).2.2 = .authorized) :
    (sv.redeemPairingToken env h.pairingToken).2 = true := by
  unfold admitWithToken at hauthorized
  rcases hredeem : sv.redeemPairingToken env h.pairingToken with ⟨env', redeemed⟩
  rw [hredeem] at hauthorized
  cases redeemed with
  | true => rfl
  | false => contradiction

theorem authorizeKey_authorized {h : HostAuth} {env : Env} (hauthorized : (h.authorizeKey sv env).2.2 = .authorized) :
    Entitled sv env h.peerPublicKey h.pairingToken := by
  unfold authorizeKey at hauthorized
  dsimp only at hauthorized
  split at hauthorized
  · next htoken => exact .inr ⟨htoken.2, admitWithToken_authorized hauthorized⟩
  · exact .inl hauthorized

theorem settleProvenKey_accepted {h : HostAuth} {env : Env}
    (haccepted : (h.settleProvenKey sv env).2.2.code = .accepted) : Entitled sv env h.peerPublicKey h.pairingToken := by
  apply authorizeKey_authorized
  unfold settleProvenKey at haccepted
  rcases hkey : h.authorizeKey sv env with ⟨h', env', authorization⟩
  rw [hkey] at haccepted
  cases authorization with
  | authorized => rfl
  | configError => contradiction
  | denied =>
    exfalso
    have hcode : (if (sv.rememberAccessRequest env' h'.peerPublicKey h'.peerName h'.peerAddress).2 then
        AuthResultCode.awaitingApproval else .notPaired) = .accepted := haccepted
    split at hcode <;> contradiction

/-- A response is accepted only while one is awaited, with a signature that verifies and a key that
is let in. -/
theorem respond_accepted {h : HostAuth} {env : Env} {response : AuthResponse}
    (haccepted : (h.respond sv env response).2.2.code = .accepted) :
    h.state = .awaitingResponse ∧
      sv.verifySignature h.peerPublicKey (authTranscript .client h.sessionId h.peerPublicKey h.fingerprint)
        response.proof = true ∧ Entitled sv env h.peerPublicKey h.pairingToken := by
  unfold respond at haccepted
  split at haccepted
  · contradiction
  · next hawaits =>
    dsimp only at haccepted
    split at haccepted
    · contradiction
    · split at haccepted
      · contradiction
      · next hverified =>
        exact ⟨not_not.mp hawaits, Bool.eq_true_of_not_eq_false hverified, settleProvenKey_accepted haccepted⟩

end HostAuth

end Deskhub
