import Deskhub.Host.TerminalHost
import Deskhub.Session.TerminalSessions

/-!
# The terminal host's sessions

`TerminalHost` as its peers meet it: the session records and the shells side by side, what
`HandleMessage` does with both, and the host's own calls. Whether a PTY starts, and which
key the transport knows a peer by, come with the message.
-/

namespace Deskhub

structure HostedTerminals where
  running : Bool := false
  sessions : TerminalSessions := {}
  host : TerminalHost := {}
deriving DecidableEq

/-- The words of the audit lines. -/
inductive TerminalAudit where
  | opened | reattached | detached | closed | attachedLocally
deriving DecidableEq, Repr

inductive HostedTerminalsEvent where
  | sent (peer : NetAddr) (message : Bytes)
  | shell (termId : UInt32) (e : ShellEvent)
  | audited (record : TerminalRecord) (what : TerminalAudit)
  | sessionsChanged
deriving DecidableEq

/-- A message arrives: from whom, under which key, and whether a PTY would start now. -/
structure TerminalArrival where
  from_ : NetAddr := {}
  message : Bytes := []
  fingerprint : Fingerprint := default
  started : Bool := true
deriving DecidableEq

namespace HostedTerminals

def start (s : HostedTerminals) : HostedTerminals :=
  if s.running then s else { s with running := true, sessions := s.sessions.setSharing true }

def stop (s : HostedTerminals) : HostedTerminals :=
  if !s.running then s
  else { running := false, sessions := s.sessions.setSharing false, host := {} }

def audit (s : HostedTerminals) (termId : UInt32) (what : TerminalAudit) :
    List HostedTerminalsEvent :=
  ((s.sessions.find termId).map (.audited · what)).toList

def shell? (s : HostedTerminals) (termId : UInt32) : Option Shell := s.host.shells.find? termId

/-- `TermIdFor`: the first shell that is the peer's, or zero. -/
def termIdFor (s : HostedTerminals) (peer : NetAddr) : UInt32 :=
  ((s.host.shells.entries.find? fun p => p.2.peer = peer).map Prod.fst).getD 0

/-- What the shells do on a call of theirs. -/
def onShells (s : HostedTerminals) (did : TerminalHost × List (UInt32 × ShellEvent)) :
    HostedTerminals × List HostedTerminalsEvent :=
  ({ s with host := did.1 }, did.2.map fun p => .shell p.1 p.2)

def closeShell (s : HostedTerminals) (termId exitCode : UInt32) (tellClient : Bool) :
    HostedTerminals × List HostedTerminalsEvent :=
  match s.shell? termId with
  | none => (s, [])
  | some shell =>
      let told :=
        if tellClient && !shell.local_ then
          [.sent shell.peer ((buildTermExit kMaxDatagram termId exitCode).getD [])]
        else []
      ({ s with
        host := (s.host.closeShell termId exitCode tellClient).1
        sessions := (s.sessions.close termId).1 },
        told ++ s.audit termId .closed ++ [.sessionsChanged])

/-- The part of `TermOpen` behind `TerminalSessions::Open`: the shell to the record. Also the
answer, when no shell stands behind it. -/
def seat (s : HostedTerminals) (from_ : NetAddr) (size : TermSize) (started : Bool)
    (ack : TermOpenAck) : HostedTerminals × List HostedTerminalsEvent × TermOpenAck :=
  if ack.reason = .accepted && !ack.resumed then
    if !started then
      ({ s with sessions := (s.sessions.close ack.termId).1 }, [], { reason := .tooManySessions })
    else
      let (s, out) := s.onShells (s.host.openShell ack.termId from_ size)
      (s, out ++ s.audit ack.termId .opened, ack)
  else if ack.reason = .accepted && ack.resumed then
    match s.shell? ack.termId with
    | none =>
        ({ s with sessions := (s.sessions.close ack.termId).1 }, [], { reason := .noSuchSession })
    | some _ =>
        let (s, out) := s.onShells
          (s.host.onShell ack.termId fun shell => (shell.reattach from_ size, [.reattached]))
        (s, out ++ s.audit ack.termId .reattached, ack)
  else (s, [], ack)

def handleOpen (s : HostedTerminals) (a : TerminalArrival) (request : TermOpen) :
    HostedTerminals × List HostedTerminalsEvent :=
  let full : TerminalOpenRequest :=
    { message := request, endpoint := a.from_.toText, fingerprint := a.fingerprint }
  let (sessions, ack) := s.sessions.open full
  let (s, out, ack) := { s with sessions := sessions }.seat a.from_ request.size a.started ack
  (s, out ++ [.sent a.from_ ((buildTermOpenAck kMaxDatagram ack).getD []), .sessionsChanged])

/-- The id a message is about: its own, or else that of its sender's first shell. -/
def askedId (s : HostedTerminals) (from_ : NetAddr) (termId : UInt32) : UInt32 :=
  if termId ≠ 0 then termId else s.termIdFor from_

def handleClose (s : HostedTerminals) (from_ : NetAddr) (termId : UInt32) :
    HostedTerminals × List HostedTerminalsEvent :=
  let asked := s.askedId from_ termId
  match s.shell? asked with
  | none => (s, [])
  | some target =>
      let anotherMachineIsInIt :=
        match s.sessions.find asked with
        | none => false
        | some record => record.state = .live && target.peer ≠ from_
      s.closeShell asked 0 anotherMachineIsInIt

/-- Input for a shell of the sender's. -/
def handleData (s : HostedTerminals) (from_ : NetAddr) (termId : UInt32) (payload : Bytes) :
    HostedTerminals × List HostedTerminalsEvent :=
  let asked := s.askedId from_ termId
  match s.shell? asked with
  | none => (s, [])
  | some shell =>
      if shell.peer ≠ from_ then (s, [])
      else (s, if payload ≠ [] then [.shell asked (.typed payload)] else [])

/-- A new size for a shell of the sender's. -/
def handleResize (s : HostedTerminals) (from_ : NetAddr) (termId : UInt32) (size : TermSize) :
    HostedTerminals × List HostedTerminalsEvent :=
  let asked := s.askedId from_ termId
  match s.shell? asked with
  | none => (s, [])
  | some shell =>
      if shell.peer ≠ from_ then (s, [])
      else
        { s with sessions := (s.sessions.resize asked size).1 }.onShells
          (s.host.onShell asked fun shell => (shell.resize size, []))

def handleMessage (s : HostedTerminals) (a : TerminalArrival) :
    HostedTerminals × List HostedTerminalsEvent :=
  if !s.running then (s, [])
  else
    match readTermMessage a.message with
    | some .list => (s, [.sent a.from_ ((buildTermListAck kMaxDatagram s.sessions.list).getD [])])
    | some (.close termId) => s.handleClose a.from_ termId
    | some (.open request) => s.handleOpen a request
    | some (.data termId payload) => s.handleData a.from_ termId payload
    | some (.resize termId size) => s.handleResize a.from_ termId size
    | _ => (s, [])

/-- The loop of `DrainGone` over the shells of one peer that is gone. -/
def detachAll (nowUs : UInt64) :
    List UInt32 → HostedTerminals → HostedTerminals × List HostedTerminalsEvent
  | [], s => (s, [])
  | termId :: rest, s =>
      let s := { s with sessions := (s.sessions.detach termId nowUs).1 }
      let (s', out) := detachAll nowUs rest s
      (s', s.audit termId .detached ++ out)

def drainGone (s : HostedTerminals) (peer : NetAddr) (nowUs : UInt64) :
    HostedTerminals × List HostedTerminalsEvent :=
  let gone := (s.host.shells.entries.filter fun p => p.2.peer = peer).map Prod.fst
  let (s, out) := detachAll nowUs gone s
  (s, if gone = [] then [] else out ++ [.sessionsChanged])

/-- The last loop of `PumpShells`: the shells that finished are closed. -/
def closeFinished (io : UInt32 → PumpIo) :
    List UInt32 → HostedTerminals → HostedTerminals × List HostedTerminalsEvent
  | [], s => (s, [])
  | termId :: rest, s =>
      let (s, out) := s.closeShell termId (io termId).exitCode true
      let (s, more) := closeFinished io rest s
      (s, out ++ more)

def pumpShells (s : HostedTerminals) (nowUs : UInt64) (io : UInt32 → PumpIo) :
    HostedTerminals × List HostedTerminalsEvent :=
  let pumped (termId : UInt32) (shell : Shell) := shell.pump termId (io termId) nowUs
  let entries := s.host.shells.entries
  let out := entries.flatMap fun p => (pumped p.1 p.2).2.1.map (.shell p.1)
  let finished := (entries.filter fun p => (pumped p.1 p.2).2.2).map Prod.fst
  let shells := s.host.shells.mapVals fun termId shell => (pumped termId shell).1
  let (s, closed) := closeFinished io finished { s with host := { shells := shells } }
  (s, out ++ closed)

/-! ## The host's own window -/

/-- `AttachLocal`: also whether the terminal is the host's own now. -/
def attachLocal (s : HostedTerminals) (termId : UInt32) :
    HostedTerminals × List HostedTerminalsEvent × Bool :=
  if !s.running then (s, [], false)
  else
    match s.shell? termId with
    | none => (s, [], false)
    | some shell =>
        if shell.local_ then (s, [], true)
        else
          let peerListening : Bool :=
            match s.sessions.find termId with
            | none => false
            | some record => record.state = .live
          if !(s.sessions.attachLocal termId).2 then (s, [], false)
          else
            let told :=
              if peerListening then
                [.sent shell.peer ((buildTermExit kMaxDatagram termId 0).getD [])]
              else []
            let (s, _) := { s with sessions := (s.sessions.attachLocal termId).1 }.onShells
              (s.host.onShell termId fun shell => ({ shell with local_ := true, peer := {} }, []))
            (s, told ++ s.audit termId .attachedLocally ++ [.sessionsChanged], true)

def closeLocal (s : HostedTerminals) (termId : UInt32) :
    HostedTerminals × List HostedTerminalsEvent :=
  if !s.running then (s, [])
  else
    match s.shell? termId with
    | none => (s, [])
    | some shell => if !shell.local_ then (s, []) else s.closeShell termId 0 false

def resizeLocal (s : HostedTerminals) (termId : UInt32) (size : TermSize) : HostedTerminals :=
  let clamped := clampTermSize size
  match s.shell? termId with
  | none => s
  | some shell =>
      if !shell.local_ then s
      else if shell.mirror.size = clamped then s
      else
        ({ s with sessions := (s.sessions.resize termId clamped).1 }.onShells
          (s.host.onShell termId fun shell => (shell.resize clamped, []))).1

end HostedTerminals

/-- What reaches the host: from its peers, from its own loop, from its own window. -/
inductive HostedTerminalsCall where
  | start
  | stop
  | message (arrival : TerminalArrival)
  | gone (peer : NetAddr) (nowUs : UInt64)
  | kick (termId : UInt32)
  | pump (nowUs : UInt64) (io : UInt32 → PumpIo)
  | attachLocal (termId : UInt32)
  | closeLocal (termId : UInt32)
  | resizeLocal (termId : UInt32) (size : TermSize)

/-- The host as a machine. -/
def hostedTerminals : Machine HostedTerminals HostedTerminalsCall HostedTerminalsEvent where
  step s
    | .start => (s.start, [])
    | .stop => (s.stop, [])
    | .message arrival => s.handleMessage arrival
    | .gone peer nowUs => s.drainGone peer nowUs
    | .kick termId => s.closeShell termId 0 true
    | .pump nowUs io => s.pumpShells nowUs io
    | .attachLocal termId => ((s.attachLocal termId).1, (s.attachLocal termId).2.1)
    | .closeLocal termId => s.closeLocal termId
    | .resizeLocal termId size => (s.resizeLocal termId size, [])

end Deskhub
