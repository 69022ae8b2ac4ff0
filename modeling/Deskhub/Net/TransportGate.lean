import Deskhub.Net.SessionTransport

/-!
# The gate of a host

Nothing of a peer passes before it is let in. What the transport outputs is followed peer by peer:
the AuthStart that a handshake began with, how the handshake was settled, and how many began on a
connection. The transport's maps are what was seen of each peer.
-/

namespace Deskhub

/-! ## What is seen of a peer -/

/-- What was seen of a peer: the AuthStart of its handshake and the latest settlement, both since it
was forgotten last, and how many handshakes began since its connection was admitted. -/
structure PeerRecord where
  start : Option AuthStart := none
  settlement : Option AuthResultCode := none
  begun : Nat := 0

namespace PeerRecord

def note (key : UInt64) (r : PeerRecord) : TransportEvent → PeerRecord
  | .admitted key' => if key' = key then { r with start := none, begun := 0 } else r
  | .began key' start => if key' = key then { r with start := some start, begun := r.begun + 1 } else r
  | .settled key' code => if key' = key then { r with settlement := some code } else r
  | .forgot key' => if key' = key then { r with start := none, settlement := none } else r
  | .closed => { r with start := none, settlement := none }
  | _ => r

end PeerRecord

/-- The record of a peer after these events. -/
def peerRecord (key : UInt64) (events : List TransportEvent) : PeerRecord :=
  events.foldl (PeerRecord.note key) {}

/-- The event says nothing of a peer's handshakes. -/
def TransportEvent.Quiet : TransportEvent → Prop
  | .admitted _ | .began _ _ | .settled _ _ | .forgot _ | .closed => False
  | _ => True

/-- The event answers a peer or reports on it, and passes nothing. -/
def TransportEvent.Reply : TransportEvent → Prop
  | .auth _ _ | .closeConnection _ _ | .paired _ _ _ | .refused _ _ => True
  | _ => False

theorem TransportEvent.Reply.quiet {e : TransportEvent} (h : e.Reply) : e.Quiet := by
  cases e with
  | auth peer message => trivial
  | closeConnection key code => trivial
  | paired peer fp name => trivial
  | refused peer code => trivial
  | _ => exact h.elim

theorem quiet_of_reply {events : List TransportEvent} (h : ∀ e ∈ events, e.Reply) : ∀ e ∈ events, e.Quiet :=
  fun e he => (h e he).quiet

theorem note_quiet {e : TransportEvent} (h : e.Quiet) (key : UInt64) (r : PeerRecord) : r.note key e = r := by
  cases e with
  | admitted key' => exact h.elim
  | began key' start => exact h.elim
  | settled key' code => exact h.elim
  | forgot key' => exact h.elim
  | closed => exact h.elim
  | _ => rfl

theorem peerRecord_append (key : UInt64) (events events' : List TransportEvent) :
    peerRecord key (events ++ events') = events'.foldl (PeerRecord.note key) (peerRecord key events) :=
  List.foldl_append

theorem foldl_note_quiet {events : List TransportEvent} (h : ∀ e ∈ events, e.Quiet) (key : UInt64)
    (r : PeerRecord) : events.foldl (PeerRecord.note key) r = r := by
  induction events with
  | nil => rfl
  | cons e events ih =>
    rw [List.foldl_cons, note_quiet (h e (by simp))]
    exact ih fun e' hmem => h e' (by simp [hmem])

/-! ## What a response keeps -/

namespace HostAuth

variable {Env : Type} {sv : HostServices Env}

/-- The handshake is with the same key, on the same connection. -/
structure SamePeer (h h' : HostAuth) : Prop where
  sessionId : h'.sessionId = h.sessionId
  fingerprint : h'.fingerprint = h.fingerprint
  peerPublicKey : h'.peerPublicKey = h.peerPublicKey
  pairingToken : h'.pairingToken = h.pairingToken

variable (sv) in
theorem samePeer_authorizeKey (h : HostAuth) (env : Env) : SamePeer h (h.authorizeKey sv env).1 := by
  have htoken : SamePeer h (h.admitWithToken sv env).1 := by
    unfold admitWithToken
    dsimp only
    split
    · exact ⟨rfl, rfl, rfl, rfl⟩
    · exact ⟨rfl, rfl, rfl, rfl⟩
  unfold authorizeKey
  dsimp only
  split
  · exact htoken
  · exact ⟨rfl, rfl, rfl, rfl⟩

theorem SamePeer.settle {h h' : HostAuth} (hsame : SamePeer h h') (code : AuthResultCode) :
    SamePeer h (h'.settle code).1 :=
  ⟨hsame.sessionId, hsame.fingerprint, hsame.peerPublicKey, hsame.pairingToken⟩

variable (sv) in
theorem samePeer_respond (h : HostAuth) (env : Env) (response : AuthResponse) :
    SamePeer h (h.respond sv env response).1 := by
  have hself : SamePeer h h := ⟨rfl, rfl, rfl, rfl⟩
  have hproven : SamePeer h (h.settleProvenKey sv env).1 := by
    have hkey := h.samePeer_authorizeKey sv env
    unfold settleProvenKey
    dsimp only
    split
    · exact hkey.settle .accepted
    · exact hkey.settle .configError
    · exact ⟨hkey.sessionId, hkey.fingerprint, hkey.peerPublicKey, hkey.pairingToken⟩
  unfold respond
  dsimp only
  split
  · exact hself.settle .notPaired
  · split
    · exact hself.settle .notPaired
    · split
      · exact hself.settle .badSignature
      · exact hproven

variable (sv) in
/-- A new handshake begins with a key that can be written and has a fingerprint. -/
theorem begin_eq_none {h : HostAuth} (hidle : h.state = .idle) (env : Env) (start : AuthStart) :
    (h.begin sv env start).2 = none ↔
      sv.publicKeyTextFromSpki start.publicKey = [] ∨ sv.fingerprintOfPublicKey start.publicKey = none := by
  unfold HostAuth.begin
  rw [if_neg (not_not.mpr hidle)]
  by_cases htext : sv.publicKeyTextFromSpki start.publicKey = []
  · rw [if_pos htext]
    exact iff_of_true rfl (Or.inl htext)
  · rw [if_neg htext]
    cases hfingerprint : sv.fingerprintOfPublicKey start.publicKey with
    | none => exact iff_of_true rfl (Or.inr rfl)
    | some peer => simp [htext]

end HostAuth

namespace SessionTransport

variable {Env : Type} {sv : HostServices Env} {s t : SessionTransport Env}

/-! ## What a message of a handshake does -/

/-- The AuthStart is one that a handshake begins with, on a connection with that session id. -/
def beginsWith (sv : HostServices Env) (s : SessionTransport Env) (peer : NetAddr) (payload : Bytes)
    (clock : Nat → UInt64) : Option (AuthStart × AuthSessionId) :=
  match parseAuthStart payload, s.exportAuthSessionId peer.pack with
  | some start, some sessionId =>
      if (start.pairingToken = [] ∨ s.authFailures.allow kPairingGuessKey peer.ip (clock 0) = true) ∧
          sv.publicKeyTextFromSpki start.publicKey ≠ [] ∧
          (sv.fingerprintOfPublicKey start.publicKey).isSome = true then some (start, sessionId)
      else none
  | _, _ => none

theorem sendAuth_reply (peer : NetAddr) (message : Option Bytes) : ∀ e ∈ sendAuth peer message, e.Reply := by
  intro e he
  unfold sendAuth at he
  cases message with
  | none => exact absurd he (by simp)
  | some message =>
    rw [List.mem_singleton.mp he]
    trivial

/-- An AuthStart restarts, does not begin, or begins a handshake; the record of one that begins is
kept unless its key is rate limited. -/
inductive StartsAs (sv : HostServices Env) (s : SessionTransport Env) (peer : NetAddr) (payload : Bytes)
    (clock : Nat → UInt64) : SessionTransport Env × List TransportEvent → Prop where
  | restarted (hrecord : s.hostAuth.contains peer.pack = true) :
      StartsAs sv s peer payload clock ((s.forgetPeerAuth peer).1,
        (s.forgetPeerAuth peer).2 ++ [.closeConnection peer.pack kCloseAuthRestarted])
  | refused (hrecord : s.hostAuth.contains peer.pack = false)
      (hnone : s.beginsWith sv peer payload clock = none) {out : List TransportEvent}
      (hreplies : ∀ e ∈ out, e.Reply) : StartsAs sv s peer payload clock (s, out)
  | limited (hrecord : s.hostAuth.contains peer.pack = false) {start : AuthStart}
      {sessionId : AuthSessionId} (hbegins : s.beginsWith sv peer payload clock = some (start, sessionId))
      {out : List TransportEvent} (hreplies : ∀ e ∈ out, e.Reply) :
      StartsAs sv s peer payload clock (s, .began peer.pack start :: out)
  | begun (hrecord : s.hostAuth.contains peer.pack = false) {start : AuthStart}
      {sessionId : AuthSessionId} (hbegins : s.beginsWith sv peer payload clock = some (start, sessionId))
      {auth : HostAuth} (hsession : auth.sessionId = sessionId) (hfingerprint : auth.fingerprint = s.fingerprint)
      (hkey : auth.peerPublicKey = start.publicKey) (htoken : auth.pairingToken = start.pairingToken)
      (pendingAuth : AuthDeadlines) {out : List TransportEvent} (hreplies : ∀ e ∈ out, e.Reply) :
      StartsAs sv s peer payload clock
        ({ s with hostAuth := s.hostAuth.insert peer.pack auth, pendingAuth := pendingAuth },
          .began peer.pack start :: out)

variable (sv) in
theorem handleAuthStart_startsAs (s : SessionTransport Env) (peer : NetAddr) (payload : Bytes)
    (clock : Nat → UInt64) :
    StartsAs sv s peer payload clock (s.handleAuthStart sv peer payload clock) := by
  have hclose : ∀ code, (TransportEvent.closeConnection peer.pack code).Reply := fun _ => trivial
  unfold handleAuthStart
  dsimp only
  by_cases hrecord : s.hostAuth.contains peer.pack = true
  · rw [if_pos hrecord]
    exact .restarted hrecord
  rw [if_neg hrecord]
  rw [Bool.not_eq_true] at hrecord
  cases hparse : parseAuthStart payload with
  | none =>
    have hnone : s.beginsWith sv peer payload clock = none := by
      unfold beginsWith
      rw [hparse]
    exact .refused hrecord hnone (List.forall_mem_append.mpr ⟨sendAuth_reply _ _, List.forall_mem_singleton.mpr (hclose _)⟩)
  | some start =>
    dsimp only
    cases hsession : s.exportAuthSessionId peer.pack with
    | none =>
      have hnone : s.beginsWith sv peer payload clock = none := by
        unfold beginsWith
        rw [hparse, hsession]
      exact .refused hrecord hnone (List.forall_mem_singleton.mpr (hclose _))
    | some sessionId =>
      dsimp only
      by_cases hguess : start.pairingToken ≠ [] ∧
          s.authFailures.allow kPairingGuessKey peer.ip (clock 0) = false
      · have hnone : s.beginsWith sv peer payload clock = none := by
          unfold beginsWith
          rw [hparse, hsession]
          dsimp only
          rw [if_neg]
          rintro ⟨hempty | hallowed, -⟩
          · exact hguess.1 hempty
          · exact Bool.false_ne_true (hguess.2.symm.trans hallowed)
        rw [if_pos hguess]
        exact .refused hrecord hnone (List.forall_mem_singleton.mpr (hclose _))
      rw [if_neg hguess]
      -- a new handshake, which takes over the key and the token of the AuthStart
      let auth : HostAuth := { fingerprint := s.fingerprint, sessionId := sessionId, peerAddress := peer.toText }
      have hiff := HostAuth.begin_eq_none sv (h := auth) rfl s.env start
      have htoken : start.pairingToken = [] ∨ s.authFailures.allow kPairingGuessKey peer.ip (clock 0) = true := by
        by_cases hempty : start.pairingToken = []
        · exact Or.inl hempty
        · exact Or.inr (Bool.eq_true_of_not_eq_false fun hdenied => hguess ⟨hempty, hdenied⟩)
      rcases hbegin : auth.begin sv s.env start with ⟨auth', challenge⟩
      rw [hbegin] at hiff
      cases challenge with
      | none =>
        have hnone : s.beginsWith sv peer payload clock = none := by
          unfold beginsWith
          rw [hparse, hsession]
          dsimp only
          rw [if_neg]
          rintro ⟨-, htext, hfingerprint⟩
          rcases hiff.mp rfl with hnotext | hnoprint
          · exact htext hnotext
          · rw [hnoprint] at hfingerprint
            contradiction
        exact .refused hrecord hnone (List.forall_mem_singleton.mpr (hclose _))
      | some challenge =>
        have hgood := not_or.mp (fun hbad => Option.some_ne_none _ (hiff.mpr hbad))
        have hbegins : s.beginsWith sv peer payload clock = some (start, sessionId) := by
          unfold beginsWith
          rw [hparse, hsession]
          dsimp only
          rw [if_pos]
          exact ⟨htoken, hgood.1, Option.isSome_iff_ne_none.mpr hgood.2⟩
        have hspec := HostAuth.begin_spec hbegin
        dsimp only
        split
        · exact .limited hrecord hbegins (List.forall_mem_singleton.mpr (hclose _))
        · split
          · exact .begun hrecord hbegins hspec.sessionId hspec.fingerprint hspec.peerPublicKey
              hspec.pairingToken s.pendingAuth (sendAuth_reply _ _)
          · exact .begun hrecord hbegins hspec.sessionId hspec.fingerprint hspec.peerPublicKey
              hspec.pairingToken _ (List.forall_mem_append.mpr ⟨sendAuth_reply _ _, List.forall_mem_singleton.mpr trivial⟩)

/-- A settlement is noted, and the rest of what is known of the peers stays. -/
theorem settleHostAuth_state (s : SessionTransport Env) (peer : NetAddr) (auth : HostAuth)
    (result : AuthResult) (clock : Nat → UInt64) :
    (s.settleHostAuth peer auth result clock).1.authenticated =
        s.authenticated.insert peer.pack (decide (result.code = .accepted)) ∧
      (s.settleHostAuth peer auth result clock).1.hostAuth = s.hostAuth ∧
      (s.settleHostAuth peer auth result clock).1.connections = s.connections ∧
      (s.settleHostAuth peer auth result clock).1.fingerprint = s.fingerprint := by
  unfold settleHostAuth
  dsimp only
  split
  · exact ⟨rfl, rfl, rfl, rfl⟩
  · dsimp only
    split
    · exact ⟨rfl, rfl, rfl, rfl⟩
    · exact ⟨rfl, rfl, rfl, rfl⟩

/-- A settlement is told to the peer. -/
theorem settleHostAuth_out (s : SessionTransport Env) (peer : NetAddr) (auth : HostAuth)
    (result : AuthResult) (clock : Nat → UInt64) :
    ∃ told out, (s.settleHostAuth peer auth result clock).2 = told ++ .settled peer.pack result.code :: out ∧
      (∀ e ∈ told, e.Reply) ∧ (∀ e ∈ out, e.Reply) := by
  have htold := sendAuth_reply peer (buildAuthResult kMaxRecordSize result)
  unfold settleHostAuth
  dsimp only
  split
  · exact ⟨_, [.paired peer auth.peer auth.peerName], List.append_assoc _ _ _, htold, List.forall_mem_singleton.mpr trivial⟩
  · exact ⟨_, [.refused peer result.code], List.append_assoc _ _ _, htold, List.forall_mem_singleton.mpr trivial⟩

/-- An AuthResponse costs the handshake its record, does nothing, or settles the handshake. -/
inductive AnswersAs (sv : HostServices Env) (s : SessionTransport Env) (peer : NetAddr) (payload : Bytes) :
    SessionTransport Env × List TransportEvent → Prop where
  | dropped (code : UInt64) :
      AnswersAs sv s peer payload ((s.forgetPeerAuth peer).1,
        (s.forgetPeerAuth peer).2 ++ [.closeConnection peer.pack code])
  | ignored {out : List TransportEvent} (hreplies : ∀ e ∈ out, e.Reply) : AnswersAs sv s peer payload (s, out)
  | settled {auth : HostAuth} {response : AuthResponse} (hrecord : s.hostAuth.find? peer.pack = some auth)
      (hparse : parseAuthResponse payload = some response) {t : SessionTransport Env}
      (hhostAuth : t.hostAuth = s.hostAuth.insert peer.pack (auth.respond sv s.env response).1)
      (hauthenticated : t.authenticated = s.authenticated.insert peer.pack
        (decide ((auth.respond sv s.env response).2.2.code = .accepted)))
      (hconnections : t.connections = s.connections) (hfingerprint : t.fingerprint = s.fingerprint)
      {told out : List TransportEvent} (htold : ∀ e ∈ told, e.Reply) (hreplies : ∀ e ∈ out, e.Reply) :
      AnswersAs sv s peer payload
        (t, told ++ .settled peer.pack (auth.respond sv s.env response).2.2.code :: out)

theorem handleAuthResponse_answersAs (s : SessionTransport Env) (peer : NetAddr) (payload : Bytes)
    (clock : Nat → UInt64) :
    AnswersAs sv s peer payload (s.handleAuthResponse sv peer payload clock) := by
  unfold handleAuthResponse
  dsimp only
  cases hrecord : s.hostAuth.find? peer.pack with
  | none => exact .ignored (by simp)
  | some auth =>
    dsimp only
    split
    · exact .dropped kCloseAuthRateLimited
    split
    · exact .dropped kCloseAuthExpired
    cases hparse : parseAuthResponse payload with
    | none => exact .ignored (List.forall_mem_singleton.mpr trivial)
    | some response =>
      dsimp only
      -- the failure of a wrong token is counted before the handshake is settled
      generalize hcounted : (if (auth.respond sv s.env response).1.tokenRejected = true then _ else _ :
        SessionTransport Env) = u
      have hkept : u.hostAuth = s.hostAuth.insert peer.pack (auth.respond sv s.env response).1 ∧
          u.authenticated = s.authenticated ∧ u.connections = s.connections ∧ u.fingerprint = s.fingerprint := by
        rw [← hcounted]
        split
        · exact ⟨rfl, rfl, rfl, rfl⟩
        · exact ⟨rfl, rfl, rfl, rfl⟩
      rcases hkept with ⟨hhostAuth, hauthenticated, hconnections, hfingerprint⟩
      rcases u.settleHostAuth_state peer (auth.respond sv s.env response).1
          (auth.respond sv s.env response).2.2 clock with ⟨hadmission, hhost, hconn, hprint⟩
      rcases u.settleHostAuth_out peer (auth.respond sv s.env response).1
          (auth.respond sv s.env response).2.2 clock with ⟨told, out, hout, htold, hreplies⟩
      rw [hauthenticated] at hadmission
      have hsettled := AnswersAs.settled hrecord hparse (hhost.trans hhostAuth) hadmission
        (hconn.trans hconnections) (hprint.trans hfingerprint) htold hreplies
      rwa [← hout] at hsettled

/-! ## The transport's maps are what was seen -/

/-- A handshake that has a record: it is one of this host on this connection, with the key and the
token that its AuthStart named. -/
structure Handshake (fingerprint : Fingerprint) (s : SessionTransport Env) (key : UInt64) (r : PeerRecord)
    (auth : HostAuth) : Prop where
  connection : s.connections.find? key = some (some auth.sessionId)
  host : auth.fingerprint = fingerprint
  start : ∃ start, r.start = some start ∧ auth.peerPublicKey = start.publicKey ∧
    auth.pairingToken = start.pairingToken

structure Gate (fingerprint : Fingerprint) (s : SessionTransport Env) (outs : List TransportEvent) : Prop where
  host : s.fingerprint = fingerprint
  admission : ∀ key, s.authenticated.find? key =
    (peerRecord key outs).settlement.map fun code => decide (code = .accepted)
  handshake : ∀ key auth, s.hostAuth.find? key = some auth →
    Handshake fingerprint s key (peerRecord key outs) auth

variable {fingerprint : Fingerprint} {outs out : List TransportEvent}

/-- Quiet outputs, and the maps as they were. -/
theorem Gate.quiet (h : Gate fingerprint s outs) (hquiet : ∀ e ∈ out, e.Quiet)
    (hfingerprint : t.fingerprint = s.fingerprint) (hauthenticated : t.authenticated = s.authenticated)
    (hhostAuth : t.hostAuth = s.hostAuth) (hconnections : t.connections = s.connections) :
    Gate fingerprint t (outs ++ out) := by
  have hsame : ∀ key, peerRecord key (outs ++ out) = peerRecord key outs := by
    intro key
    rw [peerRecord_append, foldl_note_quiet hquiet]
  refine ⟨hfingerprint.trans h.host, ?_, ?_⟩
  · intro key
    rw [hauthenticated, hsame]
    exact h.admission key
  · intro key auth hrecord
    rw [hhostAuth] at hrecord
    have hshake := h.handshake key auth hrecord
    rw [hsame]
    exact ⟨hconnections ▸ hshake.connection, hshake.host, hshake.start⟩

/-- A peer is forgotten; of the connections, only that peer's may be another one then. -/
theorem Gate.forgot (h : Gate fingerprint s outs) (key : UInt64) (hfingerprint : t.fingerprint = s.fingerprint)
    (hauthenticated : t.authenticated = s.authenticated.erase key) (hhostAuth : t.hostAuth = s.hostAuth.erase key)
    (hconnections : ∀ other, other ≠ key → t.connections.find? other = s.connections.find? other) :
    Gate fingerprint t (outs ++ [.forgot key]) := by
  have hother : ∀ other, other ≠ key → peerRecord other (outs ++ [.forgot key]) = peerRecord other outs := by
    intro other hne
    rw [peerRecord_append]
    exact if_neg hne.symm
  have hself : (peerRecord key (outs ++ [.forgot key])).settlement = none := by
    rw [peerRecord_append]
    show (if key = key then _ else _ : PeerRecord).settlement = none
    rw [if_pos rfl]
  refine ⟨hfingerprint.trans h.host, ?_, ?_⟩
  · intro other
    rw [hauthenticated, OrdMap.Map.find?_erase]
    by_cases heq : other = key
    · rw [if_pos heq, heq, hself]
      rfl
    · rw [if_neg heq, hother other heq]
      exact h.admission other
  · intro other auth hrecord
    rw [hhostAuth, OrdMap.Map.find?_erase] at hrecord
    by_cases heq : other = key
    · rw [if_pos heq] at hrecord
      contradiction
    · rw [if_neg heq] at hrecord
      have hshake := h.handshake other auth hrecord
      rw [hother other heq]
      exact ⟨(hconnections other heq).trans hshake.connection, hshake.host, hshake.start⟩

theorem Gate.forgetPeerAuth (h : Gate fingerprint s outs) (peer : NetAddr) :
    Gate fingerprint (s.forgetPeerAuth peer).1 (outs ++ (s.forgetPeerAuth peer).2) :=
  h.forgot peer.pack rfl rfl rfl fun _ _ => rfl

/-- A peer without a connection has no handshake. -/
theorem Gate.no_record (h : Gate fingerprint s outs) {key : UInt64}
    (hnone : ∀ sessionId, s.connections.find? key ≠ some (some sessionId)) : s.hostAuth.find? key = none := by
  cases hrecord : s.hostAuth.find? key with
  | none => rfl
  | some auth => exact absurd (h.handshake key auth hrecord).connection (hnone auth.sessionId)

/-- A connection that no handshake is on changes. -/
theorem Gate.connection (h : Gate fingerprint s outs) {key : UInt64} (hnone : s.hostAuth.find? key = none)
    (hfingerprint : t.fingerprint = s.fingerprint) (hauthenticated : t.authenticated = s.authenticated)
    (hhostAuth : t.hostAuth = s.hostAuth)
    (hconnections : ∀ other, other ≠ key → t.connections.find? other = s.connections.find? other)
    (hsettlement : ∀ other, (peerRecord other (outs ++ out)).settlement = (peerRecord other outs).settlement)
    (hstart : ∀ other, other ≠ key → (peerRecord other (outs ++ out)).start = (peerRecord other outs).start) :
    Gate fingerprint t (outs ++ out) := by
  refine ⟨hfingerprint.trans h.host, ?_, ?_⟩
  · intro other
    rw [hauthenticated, hsettlement]
    exact h.admission other
  · intro other auth hrecord
    rw [hhostAuth] at hrecord
    have hne : other ≠ key := by
      rintro rfl
      rw [hnone] at hrecord
      contradiction
    have hshake := h.handshake other auth hrecord
    refine ⟨(hconnections other hne).trans hshake.connection, hshake.host, ?_⟩
    rw [hstart other hne]
    exact hshake.start

theorem Gate.admitConnection (h : Gate fingerprint s outs) (peer : NetAddr) (nowUs : UInt64) :
    Gate fingerprint (s.admitConnection peer nowUs).1 (outs ++ (s.admitConnection peer nowUs).2) := by
  have hkept : Gate fingerprint s (outs ++ []) := h.quiet (by simp) rfl rfl rfl rfl
  unfold SessionTransport.admitConnection
  split
  · exact hkept
  next hroom =>
  split
  · exact hkept
  · -- the address had no connection, so no handshake is on it
    have hnew : s.connections.find? peer.pack = none := by
      have habsent := (not_or.mp hroom).1
      unfold OrdMap.Map.contains at habsent
      exact Option.not_isSome_iff_eq_none.mp habsent
    have hnone : s.hostAuth.find? peer.pack = none := by
      apply h.no_record
      intro sessionId hfound
      rw [hnew] at hfound
      contradiction
    refine h.connection hnone rfl rfl rfl ?_ ?_ ?_
    · intro other hne
      exact (OrdMap.Map.find?_insert _ _ _ _).trans (if_neg hne)
    · intro other
      rw [peerRecord_append]
      show (if peer.pack = other then _ else _ : PeerRecord).settlement = _
      split
      · rfl
      · rfl
    · intro other hne
      rw [peerRecord_append]
      exact congrArg PeerRecord.start (if_neg hne.symm)

theorem Gate.establish (h : Gate fingerprint s outs) (key : UInt64) (sessionId : AuthSessionId) :
    Gate fingerprint (s.establish key sessionId) (outs ++ []) := by
  unfold SessionTransport.establish
  split
  · next hwaiting =>
    have hnone : s.hostAuth.find? key = none := by
      apply h.no_record
      intro other hfound
      rw [hwaiting] at hfound
      exact absurd (Option.some.inj hfound) (by simp)
    refine h.connection hnone rfl rfl rfl ?_ ?_ ?_
    · intro other hne
      exact (OrdMap.Map.find?_insert _ _ _ _).trans (if_neg hne)
    · intro other
      rw [List.append_nil]
    · intro other _
      rw [List.append_nil]
  · exact h.quiet (by simp) rfl rfl rfl rfl

/-- A handshake begins on a connection that has none. -/
theorem Gate.began (h : Gate fingerprint s outs) {key : UInt64} (hnone : s.hostAuth.find? key = none)
    {start : AuthStart} (hreplies : ∀ e ∈ out, e.Reply) (hfingerprint : t.fingerprint = s.fingerprint)
    (hauthenticated : t.authenticated = s.authenticated)
    (hconnections : t.connections = s.connections)
    (hhostAuth : ∀ other auth, t.hostAuth.find? other = some auth → s.hostAuth.find? other = some auth ∨
      other = key ∧ s.connections.find? key = some (some auth.sessionId) ∧ auth.fingerprint = fingerprint ∧
        auth.peerPublicKey = start.publicKey ∧ auth.pairingToken = start.pairingToken) :
    Gate fingerprint t (outs ++ .began key start :: out) := by
  have hrecord : ∀ other, peerRecord other (outs ++ .began key start :: out) =
      (peerRecord other outs).note other (.began key start) := by
    intro other
    rw [peerRecord_append, List.foldl_cons,
      foldl_note_quiet (quiet_of_reply hreplies)]
  have hother : ∀ other, other ≠ key → peerRecord other (outs ++ .began key start :: out) = peerRecord other outs := by
    intro other hne
    rw [hrecord]
    exact if_neg hne.symm
  refine ⟨hfingerprint.trans h.host, ?_, ?_⟩
  · intro other
    rw [hauthenticated, hrecord]
    have hsettlement : ((peerRecord other outs).note other (.began key start)).settlement =
        (peerRecord other outs).settlement := by
      show (if key = other then _ else _ : PeerRecord).settlement = _
      split
      · rfl
      · rfl
    rw [hsettlement]
    exact h.admission other
  · intro other auth hfound
    rcases hhostAuth other auth hfound with hold | ⟨rfl, hconnection, hhost, hkey, htoken⟩
    · have hne : other ≠ key := by
        rintro rfl
        rw [hnone] at hold
        contradiction
      have hshake := h.handshake other auth hold
      rw [hother other hne]
      exact ⟨hconnections ▸ hshake.connection, hshake.host, hshake.start⟩
    · refine ⟨hconnections ▸ hconnection, hhost, start, ?_, hkey, htoken⟩
      rw [hrecord]
      exact congrArg PeerRecord.start (if_pos rfl)

theorem beginsWith_session {peer : NetAddr} {payload : Bytes} {clock : Nat → UInt64} {start : AuthStart}
    {sessionId : AuthSessionId} (h : s.beginsWith sv peer payload clock = some (start, sessionId)) :
    s.connections.find? peer.pack = some (some sessionId) := by
  unfold beginsWith at h
  split at h
  · next hparse hsession =>
    split at h
    · cases h
      unfold exportAuthSessionId at hsession
      cases hfound : s.connections.find? peer.pack with
      | none =>
        rw [hfound] at hsession
        contradiction
      | some found =>
        rw [hfound] at hsession
        exact congrArg some hsession
    · contradiction
  · contradiction

theorem Gate.startsAs (h : Gate fingerprint s outs) {peer : NetAddr} {payload : Bytes} {clock : Nat → UInt64}
    {result : SessionTransport Env × List TransportEvent} (hstarts : StartsAs sv s peer payload clock result) :
    Gate fingerprint result.1 (outs ++ result.2) := by
  have hnone : s.hostAuth.contains peer.pack = false → s.hostAuth.find? peer.pack = none := by
    intro hrecord
    unfold OrdMap.Map.contains at hrecord
    simpa using hrecord
  cases hstarts with
  | restarted hrecord =>
    rw [← List.append_assoc]
    exact (h.forgetPeerAuth peer).quiet (List.forall_mem_singleton.mpr trivial) rfl rfl rfl rfl
  | refused hrecord hbegins hreplies => exact h.quiet (quiet_of_reply hreplies) rfl rfl rfl rfl
  | limited hrecord hbegins hreplies =>
    exact h.began (hnone hrecord) hreplies rfl rfl rfl fun _ _ hfound => Or.inl hfound
  | @begun hrecord start sessionId hbegins auth hsession hfingerprint hkey htoken pendingAuth out hreplies =>
    refine h.began (hnone hrecord) hreplies rfl rfl rfl ?_
    intro other auth' hfound
    change (s.hostAuth.insert peer.pack auth).find? other = some auth' at hfound
    rw [OrdMap.Map.find?_insert] at hfound
    split at hfound
    · next heq =>
      cases hfound
      refine Or.inr ⟨heq, ?_, hfingerprint.trans h.host, hkey, htoken⟩
      rw [hsession]
      exact beginsWith_session hbegins
    · exact Or.inl hfound

theorem Gate.answersAs (h : Gate fingerprint s outs) {peer : NetAddr} {payload : Bytes}
    {result : SessionTransport Env × List TransportEvent} (hanswers : AnswersAs sv s peer payload result) :
    Gate fingerprint result.1 (outs ++ result.2) := by
  cases hanswers with
  | dropped code =>
    rw [← List.append_assoc]
    exact (h.forgetPeerAuth peer).quiet (List.forall_mem_singleton.mpr trivial) rfl rfl rfl rfl
  | ignored hreplies => exact h.quiet (quiet_of_reply hreplies) rfl rfl rfl rfl
  | @settled auth response hrecord hparse t hhostAuth hauthenticated hconnections hfingerprint told out htold hreplies =>
    have hkept := auth.samePeer_respond sv s.env response
    have hseen : ∀ other, peerRecord other (outs ++ (told ++
        .settled peer.pack (auth.respond sv s.env response).2.2.code :: out)) =
          (peerRecord other outs).note other (.settled peer.pack (auth.respond sv s.env response).2.2.code) := by
      intro other
      rw [peerRecord_append, List.foldl_append, foldl_note_quiet (quiet_of_reply htold), List.foldl_cons,
      foldl_note_quiet (quiet_of_reply hreplies)]
    refine ⟨hfingerprint.trans h.host, ?_, ?_⟩
    · intro other
      rw [hauthenticated, OrdMap.Map.find?_insert, hseen]
      by_cases heq : other = peer.pack
      · rw [if_pos heq]
        have hthis : (peerRecord other outs).note other
            (.settled peer.pack (auth.respond sv s.env response).2.2.code) =
              { peerRecord other outs with settlement := some (auth.respond sv s.env response).2.2.code } :=
          if_pos heq.symm
        rw [hthis]
        rfl
      · rw [if_neg heq]
        have hthis : (peerRecord other outs).note other
            (.settled peer.pack (auth.respond sv s.env response).2.2.code) = peerRecord other outs :=
          if_neg (Ne.symm heq)
        rw [hthis]
        exact h.admission other
    · intro other auth' hfound
      have hstart : ((peerRecord other outs).note other
          (.settled peer.pack (auth.respond sv s.env response).2.2.code)).start = (peerRecord other outs).start := by
        show (if peer.pack = other then _ else _ : PeerRecord).start = _
        split
        · rfl
        · rfl
      rw [hhostAuth, OrdMap.Map.find?_insert] at hfound
      rw [hseen]
      by_cases heq : other = peer.pack
      · -- the record that was answered is of the same key on the same connection
        rw [if_pos heq] at hfound
        cases hfound
        have hshake := h.handshake other auth (heq ▸ hrecord)
        rcases hshake.start with ⟨start, hsome, hkey, htoken⟩
        refine ⟨?_, hkept.fingerprint.trans hshake.host, start, hstart.trans hsome,
          hkept.peerPublicKey.trans hkey, hkept.pairingToken.trans htoken⟩
        rw [hconnections, hkept.sessionId]
        exact hshake.connection
      · rw [if_neg heq] at hfound
        have hshake := h.handshake other auth' hfound
        refine ⟨hconnections ▸ hshake.connection, hshake.host, ?_⟩
        rw [hstart]
        exact hshake.start

/-- The message has the type of an AuthStart. -/
def isAuthStart (message : Bytes) : Bool :=
  match parseCommonHeader message with
  | none => false
  | some header => header.type = .authStart

variable (sv) in
/-- A message of a handshake starts or answers one and does not pass; any other one changes nothing,
and passes if its peer was let in. -/
theorem handleHostAuth_cases (s : SessionTransport Env) (peer : NetAddr) (message : Bytes)
    (clock : Nat → UInt64) :
    (∃ result, isAuthStart message = true ∧ StartsAs sv s peer (payloadOf message) clock result ∧
        s.handleHostAuth sv peer message clock = (result.1, result.2, false)) ∨
      (∃ result, AnswersAs sv s peer (payloadOf message) result ∧
        s.handleHostAuth sv peer message clock = (result.1, result.2, false)) ∨
      ∃ passes, s.handleHostAuth sv peer message clock = (s, [], passes) ∧
        (passes = true → s.authenticated.find? peer.pack = some true) := by
  unfold handleHostAuth
  split
  · exact Or.inr (Or.inr ⟨false, rfl, by simp⟩)
  next header hheader =>
  dsimp only
  split
  · next htype =>
    have hstart : isAuthStart message = true := by
      unfold isAuthStart
      rw [hheader]
      exact decide_eq_true htype
    exact Or.inl ⟨_, hstart, s.handleAuthStart_startsAs sv peer (payloadOf message) clock, rfl⟩
  split
  · exact Or.inr (Or.inl ⟨_, s.handleAuthResponse_answersAs peer (payloadOf message) clock, rfl⟩)
  · refine Or.inr (Or.inr ⟨_, rfl, ?_⟩)
    cases s.authenticated.find? peer.pack with
    | none => simp
    | some passes => simp

theorem isAuthMessage_of_isAuthStart {message : Bytes} (h : isAuthStart message = true) :
    isAuthMessage message = true := by
  unfold isAuthStart at h
  unfold isAuthMessage
  cases hheader : parseCommonHeader message with
  | none =>
    rw [hheader] at h
    contradiction
  | some header =>
    rw [hheader] at h
    exact decide_eq_true (Or.inl (of_decide_eq_true h))

/-- A message that is delivered waits for the host's own client, is one of a handshake, or is put in
a lane if its peer was let in. -/
inductive DeliversAs (sv : HostServices Env) (s : SessionTransport Env) (peer : NetAddr) (message : Bytes)
    (clock : Nat → UInt64) : SessionTransport Env × List TransportEvent → Prop where
  | ignored : DeliversAs sv s peer message clock (s, [])
  | client (authInbox : List TransportMessage) :
      DeliversAs sv s peer message clock ({ s with authInbox := authInbox }, [])
  | start (hclient : s.clientAuthOn = false) (hstart : isAuthStart message = true)
      {result : SessionTransport Env × List TransportEvent}
      (hstarts : StartsAs sv s peer (payloadOf message) clock result) : DeliversAs sv s peer message clock result
  | answer {result : SessionTransport Env × List TransportEvent}
      (hanswers : AnswersAs sv s peer (payloadOf message) result) : DeliversAs sv s peer message clock result
  | queued (hpasses : s.authenticated.find? peer.pack = some true) (lane : Lane)
      (inbox : Lane → List TransportMessage) :
      DeliversAs sv s peer message clock ({ s with inbox := inbox }, [.queued lane ⟨peer, message⟩])

variable (sv) in
theorem deliver_deliversAs (s : SessionTransport Env) (peer : NetAddr) (message : Bytes)
    (clock : Nat → UInt64) : DeliversAs sv s peer message clock (s.deliver sv peer message clock) := by
  unfold deliver
  split
  · exact .ignored
  split
  · exact .client _
  next hhost =>
  rcases s.handleHostAuth_cases sv peer message clock with
    ⟨result, hstart, hstarts, heq⟩ | ⟨result, hanswers, heq⟩ | ⟨passes, heq, hpasses⟩
  · have hclient : s.clientAuthOn = false :=
      Bool.eq_false_iff.mpr fun hon => hhost ⟨hon, isAuthMessage_of_isAuthStart hstart⟩
    rw [heq]
    exact .start hclient hstart hstarts
  · rw [heq]
    exact .answer hanswers
  · rw [heq]
    cases passes with
    | false => exact .ignored
    | true => exact .queued (hpasses rfl) _ _

theorem Gate.deliversAs (h : Gate fingerprint s outs) {peer : NetAddr} {message : Bytes} {clock : Nat → UInt64}
    {result : SessionTransport Env × List TransportEvent} (hdelivers : DeliversAs sv s peer message clock result) :
    Gate fingerprint result.1 (outs ++ result.2) := by
  cases hdelivers with
  | ignored => exact h.quiet (by simp) rfl rfl rfl rfl
  | client authInbox => exact h.quiet (by simp) rfl rfl rfl rfl
  | start hclient hstart hstarts => exact h.startsAs hstarts
  | answer hanswers => exact h.answersAs hanswers
  | queued hpasses lane inbox => exact h.quiet (List.forall_mem_singleton.mpr trivial) rfl rfl rfl rfl

theorem Gate.expireKey (h : Gate fingerprint s outs) (key : UInt64) :
    Gate fingerprint (s.expireKey key).1 (outs ++ (s.expireKey key).2) := by
  unfold SessionTransport.expireKey
  dsimp only
  rw [← List.append_assoc]
  exact (h.forgetPeerAuth _).quiet (List.forall_mem_singleton.mpr trivial) rfl rfl rfl rfl

theorem Gate.revokeKey (h : Gate fingerprint s outs) (key : UInt64) :
    Gate fingerprint (s.revokeKey key).1 (outs ++ (s.revokeKey key).2) := by
  unfold SessionTransport.revokeKey
  dsimp only
  rw [← List.append_assoc]
  exact (h.forgetPeerAuth _).quiet (List.forall_mem_singleton.mpr trivial) rfl rfl rfl rfl

/-- A loop over keys whose body keeps the gate. -/
theorem Gate.loop (h : Gate fingerprint s outs)
    {body : SessionTransport Env → UInt64 → SessionTransport Env × List TransportEvent}
    (hbody : ∀ (t : SessionTransport Env) (outs : List TransportEvent) (key : UInt64),
      Gate fingerprint t outs → Gate fingerprint (body t key).1 (outs ++ (body t key).2)) (keys : List UInt64) :
    Gate fingerprint ((Machine.mk body).run s keys).1 (outs ++ ((Machine.mk body).run s keys).2) := by
  refine Machine.run_invariant' (fun t out => Gate fingerprint t (outs ++ out)) ?_ ?_ keys
  · rw [List.append_nil]
    exact h
  · intro t out key hkept
    rw [← List.append_assoc]
    exact hbody t (outs ++ out) key hkept

theorem Gate.expirePendingAuth (h : Gate fingerprint s outs) (nowUs : UInt64) :
    Gate fingerprint (s.expirePendingAuth nowUs).1 (outs ++ (s.expirePendingAuth nowUs).2) := by
  have hdue : Gate fingerprint { s with pendingAuth := (s.pendingAuth.takeDue nowUs).1 } outs :=
    ⟨h.host, h.admission, fun key auth hrecord => ⟨(h.handshake key auth hrecord).connection,
      (h.handshake key auth hrecord).host, (h.handshake key auth hrecord).start⟩⟩
  exact hdue.loop (fun _ _ key hkept => hkept.expireKey key) _

theorem Gate.revokeForgottenPeers (h : Gate fingerprint s outs) (nowUs : UInt64) :
    Gate fingerprint (s.revokeForgottenPeers sv nowUs).1 (outs ++ (s.revokeForgottenPeers sv nowUs).2) := by
  unfold SessionTransport.revokeForgottenPeers
  dsimp only
  split
  · exact h.quiet (by simp) rfl rfl rfl rfl
  · refine Gate.loop ?_ (fun _ _ key hkept => hkept.revokeKey key) _
    exact ⟨h.host, h.admission, fun key auth hrecord => ⟨(h.handshake key auth hrecord).connection,
      (h.handshake key auth hrecord).host, (h.handshake key auth hrecord).start⟩⟩

theorem Gate.connectionGone (h : Gate fingerprint s outs) (peer : NetAddr) (announced : Bool) :
    Gate fingerprint (s.connectionGone peer announced).1 (outs ++ (s.connectionGone peer announced).2) := by
  unfold SessionTransport.connectionGone
  split
  · exact h.quiet (by simp) rfl rfl rfl rfl
  · dsimp only
    rw [← List.append_assoc]
    have hforgot : Gate fingerprint
        ({ s with connections := s.connections.erase peer.pack }.forgetPeerAuth peer).1
        (outs ++ [.forgot peer.pack]) := by
      refine h.forgot peer.pack rfl rfl rfl ?_
      intro other hne
      exact (OrdMap.Map.find?_erase _ _ _).trans (if_neg hne)
    refine hforgot.quiet ?_ rfl rfl rfl rfl
    split
    · exact List.forall_mem_singleton.mpr trivial
    · simp

theorem Gate.close (h : Gate fingerprint s outs) : Gate fingerprint s.close (outs ++ [.closed]) := by
  refine ⟨h.host, ?_, ?_⟩
  · intro key
    rw [peerRecord_append]
    rfl
  · intro key auth hrecord
    contradiction

theorem sendRecordOn_quiet (s : SessionTransport Env) (peer : NetAddr) (streamId : UInt64) (message : Bytes) :
    ∀ e ∈ s.sendRecordOn peer streamId message, e.Quiet := by
  unfold sendRecordOn
  split
  · simp
  split
  · simp
  · intro e he
    rcases Option.map_eq_some_iff.mp (Option.mem_toList.mp he) with ⟨record, -, rfl⟩
    trivial

theorem Gate.step (h : Gate fingerprint s outs) (call : TransportCall Env) :
    Gate fingerprint ((sessionTransport sv).step s call).1 (outs ++ ((sessionTransport sv).step s call).2) := by
  have hsilent : ∀ e ∈ ([] : List TransportEvent), e.Quiet := by simp
  cases call with
  | world env => exact h.quiet hsilent rfl rfl rfl rfl
  | clientAuth on => exact h.quiet hsilent rfl rfl rfl rfl
  | admitConnection peer nowUs => exact h.admitConnection peer nowUs
  | established peer sessionId => exact h.establish peer.pack sessionId
  | deliver peer message clock => exact h.deliversAs (s.deliver_deliversAs sv peer message clock)
  | connectionGone peer announced => exact h.connectionGone peer announced
  | revokeForgottenPeers nowUs => exact h.revokeForgottenPeers nowUs
  | expirePendingAuth nowUs => exact h.expirePendingAuth nowUs
  | takeMessage bulkReady =>
    show Gate fingerprint (s.takeMessage bulkReady).1 (outs ++ (s.takeMessage bulkReady).2)
    unfold takeMessage
    split
    · exact h.quiet (by simp) rfl rfl rfl rfl
    · split
      · exact h.quiet (by simp) rfl rfl rfl rfl
      · exact h.quiet (List.forall_mem_singleton.mpr trivial) rfl rfl rfl rfl
  | sendRecordOn peer streamId message =>
    exact h.quiet (s.sendRecordOn_quiet peer streamId message) rfl rfl rfl rfl
  | close => exact h.close

/-! ## The other calls -/

end SessionTransport

/-- The call can put a message in a lane or send a record. -/
def TransportCall.Passes {Env : Type} : TransportCall Env → Prop
  | .deliver _ _ _ | .sendRecordOn _ _ _ => True
  | _ => False

/-- The event is about connections, or a message that is given out. -/
def TransportEvent.Plain : TransportEvent → Prop
  | .closeConnection _ _ | .received _ | .peerGone _ | .admitted _ | .forgot _ | .closed => True
  | _ => False

namespace SessionTransport

variable {Env : Type} {sv : HostServices Env} {s : SessionTransport Env} {fingerprint : Fingerprint}

/-- A loop over keys whose body puts out plain events only. -/
theorem plain_loop {body : SessionTransport Env → UInt64 → SessionTransport Env × List TransportEvent}
    (hbody : ∀ (t : SessionTransport Env) (key : UInt64), ∀ e ∈ (body t key).2, TransportEvent.Plain e)
    (s : SessionTransport Env) (keys : List UInt64) :
    ∀ e ∈ ((Machine.mk body).run s keys).2, TransportEvent.Plain e := by
  refine Machine.run_invariant' (fun _ out => ∀ e ∈ out, TransportEvent.Plain e) (by simp) ?_ keys
  intro t out key hplain
  exact List.forall_mem_append.mpr ⟨hplain, hbody t key⟩

theorem plain_expireKey (s : SessionTransport Env) (key : UInt64) : ∀ e ∈ (s.expireKey key).2, e.Plain :=
  List.forall_mem_append.mpr ⟨List.forall_mem_singleton.mpr trivial, List.forall_mem_singleton.mpr trivial⟩

theorem plain_revokeKey (s : SessionTransport Env) (key : UInt64) : ∀ e ∈ (s.revokeKey key).2, e.Plain :=
  List.forall_mem_append.mpr ⟨List.forall_mem_singleton.mpr trivial, List.forall_mem_singleton.mpr trivial⟩

variable (sv) in
theorem plain_step {call : TransportCall Env} (h : ¬ call.Passes) :
    ∀ e ∈ ((sessionTransport sv).step s call).2, e.Plain := by
  cases call with
  | deliver peer message clock => exact absurd trivial h
  | sendRecordOn peer streamId message => exact absurd trivial h
  | world env => simp [sessionTransport]
  | clientAuth on => simp [sessionTransport]
  | admitConnection peer nowUs =>
    show ∀ e ∈ (s.admitConnection peer nowUs).2, e.Plain
    unfold admitConnection
    split
    · simp
    · split
      · simp
      · exact List.forall_mem_singleton.mpr trivial
  | established peer sessionId => simp [sessionTransport]
  | connectionGone peer announced =>
    show ∀ e ∈ (s.connectionGone peer announced).2, e.Plain
    unfold connectionGone
    split
    · simp
    · refine List.forall_mem_append.mpr ⟨List.forall_mem_singleton.mpr trivial, ?_⟩
      split
      · exact List.forall_mem_singleton.mpr trivial
      · simp
  | revokeForgottenPeers nowUs =>
    show ∀ e ∈ (s.revokeForgottenPeers sv nowUs).2, e.Plain
    unfold revokeForgottenPeers
    dsimp only
    split
    · simp
    · exact plain_loop plain_revokeKey _ _
  | expirePendingAuth nowUs => exact plain_loop plain_expireKey _ _
  | takeMessage bulkReady =>
    show ∀ e ∈ (s.takeMessage bulkReady).2, e.Plain
    unfold takeMessage
    split
    · simp
    · split
      · simp
      · exact List.forall_mem_singleton.mpr trivial
  | close => exact List.forall_mem_singleton.mpr trivial

/-! ## Runs -/

theorem gate_run (sv : HostServices Env) (env : Env) (fingerprint : Fingerprint)
    (calls : List (TransportCall Env)) :
    Gate fingerprint ((sessionTransport sv).run (init env fingerprint) calls).1
      ((sessionTransport sv).run (init env fingerprint) calls).2 := by
  refine Machine.run_invariant' (Gate fingerprint) ?_ ?_ calls
  · exact ⟨rfl, fun _ => rfl, fun _ _ hrecord => absurd hrecord (by simp [init])⟩
  · intro s out call hkept
    exact hkept.step call

end SessionTransport

end Deskhub
