import Deskhub.Lib.OrdMap
import Deskhub.Net.NetAddr
import Deskhub.Protocol.Wire.Terminal
import Deskhub.Terminal.Repaint

/-!
# The terminal host's shells

The shells of `TerminalHost`, and `PumpShells` over them: what the shell prints is
queued for its peer, and a peer that falls behind gets a repaint of the mirror. What
the PTY returns and whether the transport takes a record come with each pump. The
session records decide which calls reach the shells and are not needed here.
-/

namespace Deskhub

def kPumpRounds : Nat := 8
def kMaxPendingBytes : Nat := 256 * 1024
def kRepaintIntervalUs : UInt64 := 100000
def kShellReportIntervalUs : UInt64 := 1000000

structure Shell where
  peer : NetAddr := {}
  mirror : Screen
  local_ : Bool := false
  pending : Bytes := []
  pendingAt : Nat := 0
  behind : Bool := false
  lastRepaintUs : UInt64 := 0
  ptyBytes : Nat := 0
  sentBytes : Nat := 0
  droppedBytes : Nat := 0
  sendFails : Nat := 0
  repaints : Nat := 0
  reportedAtUs : UInt64 := 0
  reportedBytes : Nat := 0
deriving DecidableEq, Repr

/-- What a shell does, as far as the transport, the PTY and its peer see it. -/
inductive ShellEvent where
  | opened
  | reattached
  | sent (peer : NetAddr) (message : Bytes) (ok : Bool)
  | read (bytes : Bytes)
  | typed (bytes : Bytes)
  | painted (paint : Bytes)
  | exited (peer : NetAddr) (message : Bytes)
deriving DecidableEq, Repr

/-- One call of the PTY's `Read`. -/
inductive PtyRead where
  | ended
  | nothing
  | got (bytes : Bytes)
deriving DecidableEq, Repr

/-- What one pump of a shell meets: the answers of the transport to the first and the
second flush (no more answers: refused), the reads, and the exit code. -/
structure PumpIo where
  first : List Bool := []
  reads : List PtyRead := []
  second : List Bool := []
  exitCode : UInt32 := 0
deriving DecidableEq, Repr

namespace Shell

/-- The queue as it is when all of it was sent. -/
def clearPending (s : Shell) : Shell := { s with pending := [], pendingAt := 0 }

/-- `FlushPending`: also whether the queue is empty now. -/
def flushPending (termId : UInt32) (s : Shell) (answers : List Bool) :
    Shell × List ShellEvent × Bool :=
  if s.pending.length ≤ s.pendingAt then (s.clearPending, [], true)
  else
    let take := min kMaxTermDataBytes (s.pending.length - s.pendingAt)
    match buildTermData kMaxRecordSize termId ((s.pending.drop s.pendingAt).take take) with
    | none => (({ s with behind := true } : Shell).clearPending, [], true)
    | some message =>
        match answers with
        | [] | false :: _ =>
            ({ s with sendFails := s.sendFails + 1 }, [.sent s.peer message false], false)
        | true :: answers =>
            let s := { s with sentBytes := s.sentBytes + take, pendingAt := s.pendingAt + take }
            let (s, out, empty) := flushPending termId s answers
            (s, .sent s.peer message true :: out, empty)

def queueForPeer (s : Shell) (bytes : Bytes) : Shell :=
  if s.behind then { s with droppedBytes := s.droppedBytes + bytes.length }
  else if kMaxPendingBytes < s.pending.length - s.pendingAt + bytes.length then
    { s with
      droppedBytes := s.droppedBytes + (s.pending.length - s.pendingAt + bytes.length)
      pending := []
      pendingAt := 0
      behind := true }
  else { s with pending := s.pending ++ bytes }

def queueRepaint (s : Shell) (nowUs : UInt64) : Shell × List ShellEvent :=
  if nowUs - s.lastRepaintUs < kRepaintIntervalUs then (s, [])
  else
    let paint := renderScreen s.mirror
    ({ s with
      pending := paint
      pendingAt := 0
      behind := false
      lastRepaintUs := nowUs
      repaints := s.repaints + 1 }, [.painted paint])

/-- `ReportShell`, without its log line. -/
def reportShell (s : Shell) (nowUs : UInt64) : Shell :=
  if nowUs - s.reportedAtUs < kShellReportIntervalUs then s
  else
    let moved := s.ptyBytes + s.sentBytes + s.droppedBytes
    if moved = s.reportedBytes then { s with reportedAtUs := nowUs }
    else { s with reportedAtUs := nowUs, reportedBytes := moved }

/-- One turn of the read loop: the mirror sees the bytes, and they go to the peer; a
local shell gets the mirror's answer typed instead. -/
def takeOutput (s : Shell) (fresh : Bytes) : Shell × List ShellEvent :=
  let s := { s with ptyBytes := s.ptyBytes + fresh.length, mirror := s.mirror.write fresh }
  let (mirror, reply) := s.mirror.takeResponse
  let s := { s with mirror := mirror }
  if s.local_ then (s, .read fresh :: if reply ≠ [] then [.typed reply] else [])
  else (s.queueForPeer fresh, [.read fresh])

/-- The read loop, with as many rounds left: also whether the PTY has ended. -/
def readRounds : Nat → Shell → List PtyRead → Shell × List ShellEvent × Bool
  | 0, s, _ => (s, [], false)
  | _, s, [] => (s, [], false)
  | _ + 1, s, .ended :: _ => (s, [], true)
  | _ + 1, s, .nothing :: _ => (s, [], false)
  | rounds + 1, s, .got fresh :: reads =>
      let (s, out) := s.takeOutput fresh
      let (s, more, ended) := readRounds rounds s reads
      (s, out ++ more, ended)

/-- The flush before the reads, and a repaint when the peer is behind. -/
def catchUp (termId : UInt32) (s : Shell) (answers : List Bool) (nowUs : UInt64) :
    Shell × List ShellEvent :=
  let (s, out, empty) := flushPending termId s answers
  if empty && s.behind then
    let (s, painted) := s.queueRepaint nowUs
    (s, out ++ painted)
  else (s, out)

/-- The body of `PumpShells` for one shell: also whether it has finished. -/
def pump (termId : UInt32) (s : Shell) (io : PumpIo) (nowUs : UInt64) :
    Shell × List ShellEvent × Bool :=
  let (s, before) := if s.local_ then (s, []) else s.catchUp termId io.first nowUs
  let (s, read, ended) := readRounds kPumpRounds s io.reads
  let (s, after) :=
    if s.local_ then (s, [])
    else
      let (s, out, _) := flushPending termId s io.second
      (s, out)
  (s.reportShell nowUs, before ++ read ++ after, ended)

/-- The shell as a peer that comes back finds it. -/
def reattach (s : Shell) (peer : NetAddr) (size : TermSize) : Shell :=
  { s with
    peer := peer
    mirror := s.mirror.resize (clampTermSize size)
    pending := []
    pendingAt := 0
    behind := true
    lastRepaintUs := 0 }

def resize (s : Shell) (size : TermSize) : Shell :=
  { s with mirror := s.mirror.resize (clampTermSize size) }

end Shell

/-! ## All shells -/

structure TerminalHost where
  shells : OrdMap.Map UInt32 Shell := .empty
deriving DecidableEq

/-- The calls that reach the shells. -/
inductive TerminalHostCall where
  | pumpShells (nowUs : UInt64) (io : UInt32 → PumpIo)
  | openShell (termId : UInt32) (peer : NetAddr) (size : TermSize)
  | reattach (termId : UInt32) (peer : NetAddr) (size : TermSize)
  | resize (termId : UInt32) (size : TermSize)
  | resizeLocal (termId : UInt32) (size : TermSize)
  | attachLocal (termId : UInt32)
  | closeShell (termId : UInt32) (exitCode : UInt32) (tellClient : Bool)

namespace TerminalHost

/-- `CloseShell`. -/
def closeShell (s : TerminalHost) (termId exitCode : UInt32) (tellClient : Bool) :
    TerminalHost × List (UInt32 × ShellEvent) :=
  match s.shells.find? termId with
  | none => (s, [])
  | some shell =>
      let told :=
        if tellClient && !shell.local_ then
          ((buildTermExit kMaxDatagram termId exitCode).map (fun m => .exited shell.peer m)).toList
        else []
      ({ s with shells := s.shells.erase termId }, told.map (fun e => (termId, e)))

/-- The shells that finished are closed, one after the other. -/
def closeFinished (s : TerminalHost) (io : UInt32 → PumpIo) :
    List UInt32 → TerminalHost × List (UInt32 × ShellEvent)
  | [] => (s, [])
  | termId :: rest =>
      let (s, out) := s.closeShell termId (io termId).exitCode true
      let (s, more) := closeFinished s io rest
      (s, out ++ more)

def pumpShells (s : TerminalHost) (nowUs : UInt64) (io : UInt32 → PumpIo) :
    TerminalHost × List (UInt32 × ShellEvent) :=
  let pumped (termId : UInt32) (shell : Shell) := shell.pump termId (io termId) nowUs
  let out := s.shells.entries.flatMap (fun p => (pumped p.1 p.2).2.1.map (fun e => (p.1, e)))
  let finished := (s.shells.entries.filter (fun p => (pumped p.1 p.2).2.2)).map Prod.fst
  let s := { s with shells := s.shells.mapVals (fun termId shell => (pumped termId shell).1) }
  let (s, closed) := s.closeFinished io finished
  (s, out ++ closed)

/-- What a call does to one shell. -/
def onShell (s : TerminalHost) (termId : UInt32) (f : Shell → Shell × List ShellEvent) :
    TerminalHost × List (UInt32 × ShellEvent) :=
  match s.shells.find? termId with
  | none => (s, [])
  | some shell =>
      let (shell, out) := f shell
      ({ s with shells := s.shells.insert termId shell }, out.map (fun e => (termId, e)))

/-- A shell that was started for a peer; one that is there already stays. -/
def openShell (s : TerminalHost) (termId : UInt32) (peer : NetAddr) (size : TermSize) :
    TerminalHost × List (UInt32 × ShellEvent) :=
  if s.shells.contains termId then (s, [])
  else
    let shell : Shell := { peer := peer, mirror := Screen.new (clampTermSize size) kDefaultScrollback }
    ({ s with shells := s.shells.insert termId shell }, [(termId, .opened)])

end TerminalHost

/-- The shells of a terminal host as a machine. -/
def terminalHost : Machine TerminalHost TerminalHostCall (UInt32 × ShellEvent) where
  step s
    | .pumpShells nowUs io => s.pumpShells nowUs io
    | .openShell termId peer size => s.openShell termId peer size
    | .reattach termId peer size =>
        s.onShell termId (fun shell => (shell.reattach peer size, [.reattached]))
    | .resize termId size => s.onShell termId (fun shell => (shell.resize size, []))
    | .resizeLocal termId size =>
        s.onShell termId (fun shell => (if shell.local_ then shell.resize size else shell, []))
    | .attachLocal termId =>
        s.onShell termId (fun shell =>
          (if shell.local_ then shell else { shell with local_ := true, peer := {} }, []))
    | .closeShell termId exitCode tellClient => s.closeShell termId exitCode tellClient

end Deskhub
