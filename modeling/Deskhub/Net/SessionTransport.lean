import Deskhub.Auth.AuthDeadlines
import Deskhub.Auth.HostAuth
import Deskhub.Lib.Machine
import Deskhub.Net.NetAddr
import Deskhub.Protocol.RecordStream

/-!
# The transport of a host

`SessionTransport` with host authentication on. Connections are known by the packed address of their
peer. Until a handshake lets a peer in, its messages go nowhere but to the handshake, and no record
goes out to it. What the transport does to the outside, and what it settles, are its outputs.

`NowUs` can answer differently each time a call asks for it, so a call comes with a clock: its
readings in the order of the source.
-/

namespace Deskhub

inductive Lane where
  | realtime | interactive | bulk
deriving DecidableEq, Repr

def kBulkEveryNthPop : Nat := 8
def kMaxConnections : Nat := 32
def kAuthResponseTimeoutUs : UInt64 := 10000000
def kRefusalLingerUs : UInt64 := 2000000
def kAuthorizedCheckIntervalUs : UInt64 := 100000

def kCloseBadFraming : UInt64 := 1
def kCloseAuthRestarted : UInt64 := 2
def kCloseDeviceForgotten : UInt64 := 3
def kCloseAuthVersionMismatch : UInt64 := 4
def kCloseAuthExpired : UInt64 := 5
def kCloseAuthRateLimited : UInt64 := 7
def kCloseAuthRefused : UInt64 := 8

/-- Wrong pairing tokens are counted under this key. -/
def kPairingGuessKey : Fingerprint := ⟨List.replicate 32 0xFF, rfl⟩

structure TransportMessage where
  peer : NetAddr
  bytes : Bytes
deriving DecidableEq

inductive TransportEvent where
  /-- A message of a handshake goes out. -/
  | auth (peer : NetAddr) (message : Bytes)
  | record (peer : NetAddr) (streamId : UInt64) (record : Bytes)
  /-- `CloseConnection`: the connection is still there until it is reported gone. -/
  | closeConnection (key code : UInt64)
  /-- A message is put in a lane. -/
  | queued (lane : Lane) (message : TransportMessage)
  /-- `RecvFrom` gives a message out. -/
  | received (message : TransportMessage)
  | paired (peer : NetAddr) (fp : Fingerprint) (name : Bytes)
  | refused (peer : NetAddr) (code : AuthResultCode)
  | peerGone (peer : NetAddr)
  /-- A connection is admitted. -/
  | admitted (key : UInt64)
  /-- `HostAuth::Begin` has succeeded. -/
  | began (key : UInt64) (start : AuthStart)
  /-- `SettleHostAuth` -/
  | settled (key : UInt64) (code : AuthResultCode)
  /-- `ForgetPeerAuth` -/
  | forgot (key : UInt64)
  /-- `Close` -/
  | closed
deriving DecidableEq

def isAuthMessage (message : Bytes) : Bool :=
  match parseCommonHeader message with
  | none => false
  | some header =>
      header.type = .authStart ∨ header.type = .authChallenge ∨ header.type = .authResponse ∨
        header.type = .authResult

def laneOf (message : Bytes) : Lane :=
  match parseCommonHeader message with
  | none => .interactive
  | some header =>
      if header.chan = .video ∨ header.chan = .audio then .realtime
      else if header.chan = .file then .bulk
      else .interactive

def chargesAFailure (code : AuthResultCode) : Bool :=
  code ≠ .accepted ∧ code ≠ .awaitingApproval ∧ code ≠ .configError

structure SessionTransport (Env : Type) where
  env : Env
  /-- Of the host's identity. -/
  fingerprint : Fingerprint
  /-- The connections of the endpoint, with the session id of those that are established. -/
  connections : OrdMap.Map UInt64 (Option AuthSessionId) := .empty
  inbox : Lane → List TransportMessage := fun _ => []
  authInbox : List TransportMessage := []
  hostAuth : OrdMap.Map UInt64 HostAuth := .empty
  authFailures : AuthFailureLimiter := {}
  pendingAuth : AuthDeadlines := {}
  authenticated : OrdMap.Map UInt64 Bool := .empty
  clientAuthOn : Bool := false
  authorizedGenerationSeen : UInt64 := 0
  nextAuthorizedCheckUs : UInt64 := 0
  sinceBulkPop : Nat := 0

namespace SessionTransport

variable {Env : Type} (sv : HostServices Env)

/-- `SendAuth`, when the message could be built. -/
def sendAuth (peer : NetAddr) (message : Option Bytes) : List TransportEvent :=
  (message.map (TransportEvent.auth peer)).toList

def exportAuthSessionId (s : SessionTransport Env) (key : UInt64) : Option AuthSessionId :=
  (s.connections.find? key).bind id

def established (s : SessionTransport Env) (key : UInt64) : Bool := (s.exportAuthSessionId key).isSome

def forgetPeerAuth (s : SessionTransport Env) (peer : NetAddr) : SessionTransport Env × List TransportEvent :=
  ({ s with
      hostAuth := s.hostAuth.erase peer.pack
      pendingAuth := s.pendingAuth.forget peer.pack
      authenticated := s.authenticated.erase peer.pack }, [.forgot peer.pack])

def refuseAfterReply (s : SessionTransport Env) (peer : NetAddr) (nowUs : UInt64) : SessionTransport Env :=
  { s with pendingAuth := s.pendingAuth.hasten peer.pack (nowUs + kRefusalLingerUs) }

/-- `AdmitConnection`, for a connection from an address that has none. -/
def admitConnection (s : SessionTransport Env) (peer : NetAddr) (nowUs : UInt64) :
    SessionTransport Env × List TransportEvent :=
  if s.connections.contains peer.pack ∨ kMaxConnections ≤ s.connections.size then (s, [])
  else
    match s.pendingAuth.admitKey peer.pack (nowUs + kAuthResponseTimeoutUs) with
    | none => (s, [])
    | some pendingAuth =>
        ({ s with pendingAuth := pendingAuth, connections := s.connections.insert peer.pack none },
          [.admitted peer.pack])

def settleHostAuth (s : SessionTransport Env) (peer : NetAddr) (auth : HostAuth) (result : AuthResult)
    (clock : Nat → UInt64) : SessionTransport Env × List TransportEvent :=
  let told := sendAuth peer (buildAuthResult kMaxRecordSize result) ++ [.settled peer.pack result.code]
  let s := { s with authenticated := s.authenticated.insert peer.pack (decide (result.code = AuthResultCode.accepted)) }
  if result.code = .accepted then
    ({ s with
        pendingAuth := s.pendingAuth.forget peer.pack
        authFailures := s.authFailures.recordSuccess auth.peer peer.ip },
      told ++ [.paired peer auth.peer auth.peerName])
  else
    let s := s.refuseAfterReply peer (clock 3)
    let s := if chargesAFailure result.code then
        { s with authFailures := s.authFailures.recordFailure auth.peer peer.ip (clock 4) }
      else s
    (s, told ++ [.refused peer result.code])

def handleAuthStart (s : SessionTransport Env) (peer : NetAddr) (payload : Bytes) (clock : Nat → UInt64) :
    SessionTransport Env × List TransportEvent :=
  let key := peer.pack
  if s.hostAuth.contains key then
    let (s, forgot) := s.forgetPeerAuth peer
    (s, forgot ++ [.closeConnection key kCloseAuthRestarted])
  else
    match parseAuthStart payload with
    | none =>
        (s, sendAuth peer (buildAuthResult kMaxRecordSize { code := .versionMismatch }) ++
          [.closeConnection key kCloseAuthVersionMismatch])
    | some start =>
        match s.exportAuthSessionId key with
        | none => (s, [.closeConnection key kCloseBadFraming])
        | some sessionId =>
            if start.pairingToken ≠ [] ∧ s.authFailures.allow kPairingGuessKey peer.ip (clock 0) = false then
              (s, [.closeConnection key kCloseAuthRateLimited])
            else
              let auth : HostAuth :=
                { fingerprint := s.fingerprint, sessionId := sessionId, peerAddress := peer.toText }
              match auth.begin sv s.env start with
              | (_, none) => (s, [.closeConnection key kCloseBadFraming])
              | (auth, some challenge) =>
                  if challenge.mode = .signature ∧ s.authFailures.allow auth.peer peer.ip (clock 1) = false then
                    (s, [.began key start, .closeConnection key kCloseAuthRateLimited])
                  else
                    let s := { s with hostAuth := s.hostAuth.insert key auth }
                    let sent := [.began key start] ++ sendAuth peer (buildAuthChallenge kMaxRecordSize challenge)
                    if challenge.mode = .signature then (s, sent)
                    else (s.refuseAfterReply peer (clock 2), sent ++ [.refused peer .configError])

def handleAuthResponse (s : SessionTransport Env) (peer : NetAddr) (payload : Bytes) (clock : Nat → UInt64) :
    SessionTransport Env × List TransportEvent :=
  let key := peer.pack
  match s.hostAuth.find? key with
  | none => (s, [])
  | some auth =>
      if s.authFailures.allow auth.peer peer.ip (clock 0) = false then
        let (s, forgot) := s.forgetPeerAuth peer
        (s, forgot ++ [.closeConnection key kCloseAuthRateLimited])
      else if s.pendingAuth.due key (clock 1) then
        let (s, forgot) := s.forgetPeerAuth peer
        (s, forgot ++ [.closeConnection key kCloseAuthExpired])
      else
        match parseAuthResponse payload with
        | none => (s, [.closeConnection key kCloseBadFraming])
        | some response =>
            let (auth, env, result) := auth.respond sv s.env response
            let s := { s with env := env, hostAuth := s.hostAuth.insert key auth }
            let s := if auth.tokenRejected then
                { s with authFailures := s.authFailures.recordFailure kPairingGuessKey peer.ip (clock 2) }
              else s
            s.settleHostAuth peer auth result clock

/-- `HandleHostAuth`: whether the message may pass. -/
def handleHostAuth (s : SessionTransport Env) (peer : NetAddr) (message : Bytes) (clock : Nat → UInt64) :
    SessionTransport Env × List TransportEvent × Bool :=
  match parseCommonHeader message with
  | none => (s, [], false)
  | some header =>
      let payload := payloadOf message
      if header.type = .authStart then
        let (s, out) := s.handleAuthStart sv peer payload clock
        (s, out, false)
      else if header.type = .authResponse then
        let (s, out) := s.handleAuthResponse sv peer payload clock
        (s, out, false)
      else (s, [], (s.authenticated.find? peer.pack).getD false)

def deliver (s : SessionTransport Env) (peer : NetAddr) (message : Bytes) (clock : Nat → UInt64) :
    SessionTransport Env × List TransportEvent :=
  if message = [] then (s, [])
  else if s.clientAuthOn ∧ isAuthMessage message = true then
    ({ s with authInbox := s.authInbox ++ [⟨peer, message⟩] }, [])
  else
    let (s, out, passes) := s.handleHostAuth sv peer message clock
    if !passes then (s, out)
    else
      let lane := laneOf message
      ({ s with inbox := Function.update s.inbox lane (s.inbox lane ++ [⟨peer, message⟩]) },
        out ++ [.queued lane ⟨peer, message⟩])

/-- The loop of `ExpirePendingAuth`. -/
def expireKey (s : SessionTransport Env) (key : UInt64) : SessionTransport Env × List TransportEvent :=
  let refused := (s.hostAuth.find? key).any fun auth => auth.state = .settled
  let (s, forgot) := s.forgetPeerAuth (NetAddr.unpack key)
  (s, forgot ++ [.closeConnection key (if refused then kCloseAuthRefused else kCloseAuthExpired)])

def expirePendingAuth (s : SessionTransport Env) (nowUs : UInt64) : SessionTransport Env × List TransportEvent :=
  let (pendingAuth, keys) := s.pendingAuth.takeDue nowUs
  (Machine.mk expireKey).run { s with pendingAuth := pendingAuth } keys

def dropQueuedFrom (s : SessionTransport Env) (peer : NetAddr) : SessionTransport Env :=
  { s with inbox := fun lane => (s.inbox lane).filter fun message => message.peer ≠ peer }

/-- The loop of `RevokeForgottenPeers` over those that are revoked. -/
def revokeKey (s : SessionTransport Env) (key : UInt64) : SessionTransport Env × List TransportEvent :=
  let peer := NetAddr.unpack key
  let (s, forgot) := s.forgetPeerAuth peer
  (s.dropQueuedFrom peer, forgot ++ [.closeConnection peer.pack kCloseDeviceForgotten])

/-- A peer is let in, and its key is not authorized any more. -/
def isRevoked (s : SessionTransport Env) (entry : UInt64 × Bool) : Bool :=
  entry.2 && (s.hostAuth.find? entry.1).any fun auth =>
    sv.checkClientKeyAuthorization s.env auth.peerPublicKey ≠ .authorized

def revokeForgottenPeers (s : SessionTransport Env) (nowUs : UInt64) : SessionTransport Env × List TransportEvent :=
  let generation := sv.authorizedKeysGeneration s.env
  if generation = s.authorizedGenerationSeen ∧ nowUs < s.nextAuthorizedCheckUs then (s, [])
  else
    let s := { s with
      authorizedGenerationSeen := generation
      nextAuthorizedCheckUs := nowUs + kAuthorizedCheckIntervalUs }
    (Machine.mk revokeKey).run s ((s.authenticated.entries.filter (s.isRevoked sv)).map Prod.fst)

def bulkServable (s : SessionTransport Env) (bulkReady : Bool) : Bool := s.inbox .bulk ≠ [] && bulkReady

/-- `NextLane`: the lane, and the messages given out since the last one from the bulk lane. -/
def nextLane (s : SessionTransport Env) (bulkReady : Bool) : Option Lane × Nat :=
  if kBulkEveryNthPop ≤ s.sinceBulkPop ∧ s.bulkServable bulkReady = true then (some .bulk, 0)
  else if s.inbox .realtime ≠ [] then (some .realtime, s.sinceBulkPop + 1)
  else if s.inbox .interactive ≠ [] then (some .interactive, s.sinceBulkPop + 1)
  else if s.bulkServable bulkReady then (some .bulk, 0)
  else (none, s.sinceBulkPop)

/-- The end of `RecvFrom`: a message that is waiting. -/
def takeMessage (s : SessionTransport Env) (bulkReady : Bool) : SessionTransport Env × List TransportEvent :=
  match s.nextLane bulkReady with
  | (none, _) => (s, [])
  | (some lane, sinceBulkPop) =>
      match s.inbox lane with
      | [] => (s, [])
      | message :: rest =>
          ({ s with inbox := Function.update s.inbox lane rest, sinceBulkPop := sinceBulkPop }, [.received message])

def sendRecordOn (s : SessionTransport Env) (peer : NetAddr) (streamId : UInt64) (message : Bytes) :
    List TransportEvent :=
  if (s.authenticated.find? peer.pack).getD false = false then []
  else if s.established peer.pack = false then []
  else ((buildRecord (kRecordPrefixSize + message.length) message).map (TransportEvent.record peer streamId)).toList

/-- `onClosed`, or `onAbandoned` for a connection that was never established. -/
def connectionGone (s : SessionTransport Env) (peer : NetAddr) (announced : Bool) :
    SessionTransport Env × List TransportEvent :=
  if s.connections.contains peer.pack = false then (s, [])
  else
    let (s, forgot) := { s with connections := s.connections.erase peer.pack }.forgetPeerAuth peer
    (s, forgot ++ if announced then [.peerGone peer] else [])

def close (s : SessionTransport Env) : SessionTransport Env :=
  { s with
    connections := .empty
    inbox := fun _ => []
    authInbox := []
    hostAuth := .empty
    authFailures := s.authFailures.clear
    pendingAuth := s.pendingAuth.clear
    authenticated := .empty
    nextAuthorizedCheckUs := 0 }

end SessionTransport

/-- What happens to a transport. -/
inductive TransportCall (Env : Type) where
  /-- The files change. -/
  | world (env : Env)
  | clientAuth (on : Bool)
  | admitConnection (peer : NetAddr) (nowUs : UInt64)
  /-- The connection of the peer is established; its exporter answers from now on. -/
  | established (peer : NetAddr) (sessionId : AuthSessionId)
  | deliver (peer : NetAddr) (message : Bytes) (clock : Nat → UInt64)
  | connectionGone (peer : NetAddr) (announced : Bool)
  | revokeForgottenPeers (nowUs : UInt64)
  | expirePendingAuth (nowUs : UInt64)
  | takeMessage (bulkReady : Bool)
  | sendRecordOn (peer : NetAddr) (streamId : UInt64) (message : Bytes)
  | close

namespace SessionTransport

variable {Env : Type}

def init (env : Env) (fingerprint : Fingerprint) : SessionTransport Env := { env := env, fingerprint := fingerprint }

/-- A connection is established once. -/
def establish (s : SessionTransport Env) (key : UInt64) (sessionId : AuthSessionId) : SessionTransport Env :=
  if s.connections.find? key = some none then { s with connections := s.connections.insert key (some sessionId) }
  else s

end SessionTransport

def sessionTransport {Env : Type} (sv : HostServices Env) :
    Machine (SessionTransport Env) (TransportCall Env) TransportEvent where
  step s
    | .world env => ({ s with env := env }, [])
    | .clientAuth on => ({ s with clientAuthOn := on }, [])
    | .admitConnection peer nowUs => s.admitConnection peer nowUs
    | .established peer sessionId => (s.establish peer.pack sessionId, [])
    | .deliver peer message clock => s.deliver sv peer message clock
    | .connectionGone peer announced => s.connectionGone peer announced
    | .revokeForgottenPeers nowUs => s.revokeForgottenPeers sv nowUs
    | .expirePendingAuth nowUs => s.expirePendingAuth nowUs
    | .takeMessage bulkReady => s.takeMessage bulkReady
    | .sendRecordOn peer streamId message => (s, s.sendRecordOn peer streamId message)
    | .close => (s.close, [.closed])

end Deskhub
