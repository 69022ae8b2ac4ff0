import Deskhub.Session.FileSender

/-!
# A file sender and a file receiver over a link

Both ends, and the messages on their way, which come in order and are never
lost. What the sender's `send` does not take is not sent. The two scans at the
end read the kept files and the offered batches off the callbacks of a run.
-/

namespace Deskhub

/-- The outputs: the sender's callbacks, and the receiver's with the batch it was in. -/
inductive FileLinkEvent where
  | sender (e : FileSenderEvent)
  | receiver (batchId : UInt32) (e : FileReceiverEvent)
deriving DecidableEq, Repr

structure FileLink where
  sender : FileSender := {}
  receiver : FileReceiver := {}
  toReceiver : List Bytes := []
  toSender : List Bytes := []
deriving DecidableEq, Repr

inductive FileLinkInput where
  | offer (batchId : UInt32) (files : List TransferFile) (takes : Bool)
  | pump (ios : List ChunkIo)
  | cancel (takesCancel : Bool)
  | senderLinkLost
  | deliverToSender (takesCancel : Bool)
  | deliverToReceiver (cb : FileCallbackResults)
  | receiverCall (call : FileReceiverCall)

/-- The messages among the sender's callbacks. -/
def sentMessages (es : List FileSenderEvent) : List Bytes :=
  es.filterMap (fun e => match e with | .sent message => some message | _ => none)

/-- The messages among the receiver's callbacks. -/
def answeredMessages (es : List FileReceiverEvent) : List Bytes :=
  es.filterMap (fun e => match e with | .send message => some message | _ => none)

namespace FileLink

/-- The sender acted: what it sent joins the link. -/
def senderActs (s : FileLink) (r : FileSender × List FileSenderEvent) :
    FileLink × List FileLinkEvent :=
  ({ s with sender := r.1, toReceiver := s.toReceiver ++ sentMessages r.2 }, r.2.map .sender)

/-- The receiver acted: what it sent joins the link. -/
def receiverActs (s : FileLink) (r : FileReceiver × List FileReceiverEvent) :
    FileLink × List FileLinkEvent :=
  ({ s with receiver := r.1, toSender := s.toSender ++ answeredMessages r.2 },
    r.2.map (.receiver s.receiver.batchId))

def deliverToSender (s : FileLink) (takesCancel : Bool) : FileLink × List FileLinkEvent :=
  match s.toSender with
  | [] => (s, [])
  | message :: rest =>
      senderActs { s with toSender := rest } (s.sender.handleMessage message takesCancel)

def deliverToReceiver (s : FileLink) (cb : FileCallbackResults) : FileLink × List FileLinkEvent :=
  match s.toReceiver with
  | [] => (s, [])
  | message :: rest =>
      receiverActs { s with toReceiver := rest } (s.receiver.handleMessage message cb)

end FileLink

/-- The calls that reach a receiver past the link. -/
def FileReceiverCall.isLocal : FileReceiverCall → Bool
  | .handleMessage _ _ => false
  | _ => true

/-- The two ends and the link as one machine. -/
def fileLink : Machine FileLink FileLinkInput FileLinkEvent where
  step s
    | .offer batchId files takes =>
        let (sender, out, _) := s.sender.offer batchId files takes
        s.senderActs (sender, out)
    | .pump ios => s.senderActs (s.sender.pump ios)
    | .cancel takesCancel => s.senderActs (s.sender.cancel takesCancel)
    | .senderLinkLost => s.senderActs s.sender.linkLost
    | .deliverToSender takesCancel => s.deliverToSender takesCancel
    | .deliverToReceiver cb => s.deliverToReceiver cb
    | .receiverCall call => if call.isLocal then s.receiverActs (fileReceiver.step s.receiver call) else (s, [])

/-! ## What a run shows -/

/-- A file that was closed to be kept: what was written to it, and whether it was stored. -/
structure KeptFile where
  batchId : UInt32
  index : Nat
  written : Bytes
  stored : Bool
deriving DecidableEq, Repr

/-- The scan over the receiver's callbacks: what was written to the open file, and
the files kept so far. -/
structure WriteLog where
  written : Bytes := []
  kept : List KeptFile := []
deriving DecidableEq, Repr

def WriteLog.record (l : WriteLog) : FileLinkEvent → WriteLog
  | .receiver _ (.opened _ _ _ _) => { l with written := [] }
  | .receiver _ (.wrote _ data _) => { l with written := l.written ++ data }
  | .receiver batchId (.closed i keep ok) =>
      if keep then { l with kept := l.kept ++ [⟨batchId, i, l.written, ok⟩] } else l
  | _ => l

def writeLog (out : List FileLinkEvent) : WriteLog := out.foldl WriteLog.record {}

/-- The files that were closed to be kept in a run. -/
def keptFiles (out : List FileLinkEvent) : List KeptFile := (writeLog out).kept

/-- The offer an event sends. -/
def FileLinkEvent.offer? : FileLinkEvent → Option FileOffer
  | .sender (.sent message) =>
      match FileMsg.parse message with
      | some (.offer m) => some m
      | _ => none
  | _ => none

/-- The batches offered in a run, in order. -/
def offeredBatches (out : List FileLinkEvent) : List FileOffer :=
  out.filterMap FileLinkEvent.offer?

theorem writeLog_append (out new : List FileLinkEvent) :
    writeLog (out ++ new) = new.foldl WriteLog.record (writeLog out) :=
  List.foldl_append

theorem offeredBatches_append (out new : List FileLinkEvent) :
    offeredBatches (out ++ new) = offeredBatches out ++ offeredBatches new :=
  List.filterMap_append

end Deskhub
