import Deskhub.Session.FileLanded
import Deskhub.Session.FileUploadRuns

/-!
# From the disk of the client to the disk of the host

An upload at one end of the link and the receiver with its store at the other. Each step of the upload
is a step of the sender that reads the files as they are, so what the sender and the receiver agree on
carries over, whatever comes in between: other calls, turns of the reader, messages on their way.
-/

namespace Deskhub

/-- An upload, a receiver, and the messages between them. -/
structure UploadLink where
  upload : FileUpload := {}
  receiver : FileReceiver := {}
  toReceiver : List Bytes := []
  toSender : List Bytes := []

inductive UploadLinkInput where
  | caller (input : FileUploadInput)
  | deliverToSender (takesCancel : Bool)
  | deliverToReceiver (cb : FileCallbackResults)
  | receiverCall (call : FileReceiverCall)

/-- The calls that reach an upload past the link. -/
def FileUploadInput.isLocal : FileUploadInput → Bool
  | .handleMessage _ _ => false
  | _ => true

def UploadEvent.hook? : UploadEvent → Option FileSenderEvent
  | .hook e => some e
  | _ => none

/-- What the sender did in a step of its upload. -/
def hooksOf (es : List UploadEvent) : List FileSenderEvent := es.filterMap UploadEvent.hook?

namespace UploadLink

/-- The sender of the upload on its link. -/
def link (s : UploadLink) : FileLink :=
  { sender := s.upload.sender, receiver := s.receiver, toReceiver := s.toReceiver, toSender := s.toSender }

/-- The upload acted: what its sender sent joins the link. -/
def uploadActs (s : UploadLink) (r : FileUpload × List UploadEvent) : UploadLink × List FileLinkEvent :=
  ({ s with upload := r.1, toReceiver := s.toReceiver ++ sentMessages (hooksOf r.2) },
    (hooksOf r.2).map .sender)

/-- The receiver acted, or a message reached it. -/
def receiverActs (s : UploadLink) (r : FileLink × List FileLinkEvent) : UploadLink × List FileLinkEvent :=
  ({ s with receiver := r.1.receiver, toReceiver := r.1.toReceiver, toSender := r.1.toSender }, r.2)

def deliverToSender (s : UploadLink) (takesCancel : Bool) : UploadLink × List FileLinkEvent :=
  match s.toSender with
  | [] => (s, [])
  | message :: rest =>
      uploadActs { s with toSender := rest } (fileUpload.step s.upload (.handleMessage message takesCancel))

end UploadLink

/-- The two ends and the link as one machine. -/
def uploadLink : Machine UploadLink UploadLinkInput FileLinkEvent where
  step s
    | .caller input => if input.isLocal then s.uploadActs (fileUpload.step s.upload input) else (s, [])
    | .deliverToSender takesCancel => s.deliverToSender takesCancel
    | .deliverToReceiver cb => s.receiverActs (s.link.deliverToReceiver cb)
    | .receiverCall call => s.receiverActs (fileLink.step s.link (.receiverCall call))

/-! ## What is asked of the disk -/

/-- A chunk as the file holds it. -/
def AsInFile (content : UInt32 → Nat → Bytes) (batchId : UInt32) (c : ReadChunk) : Prop :=
  c.data = ((content batchId c.index).drop c.offset).take c.data.length

/-- The files that `Begin` is given are as long as the disk says, and the numbers of the batches have not
gone round. -/
def MeasuresFiles (content : UInt32 → Nat → Bytes) (s : FileUpload) : FileUploadInput → Prop
  | .goOn i paths _ => ∀ thread, s.calls[i]? = some (.beginning thread) →
      s.nextBatchId.toNat + 1 < 2 ^ 32 ∧
        ∀ k p size, paths[k]? = some p → p.size = some size →
          size.toNat = (content s.nextBatchId k).length
  | _ => True

/-- What is asked of a run: `Begin` is called in turn, and the disk holds the files while they are sent. -/
def FairUpload (content : UInt32 → Nat → Bytes) (s : UploadLink) (_ : List FileLinkEvent) : UploadLinkInput → Prop
  | .caller input => BeginsAlone s.upload input ∧ ReadsGenuine (AsInFile content) s.upload input ∧
      MeasuresFiles content s.upload input
  | _ => True

/-! ## Pumps that read the files as they are -/

/-- A turn depends on the one read it makes. -/
theorem sendOneChunk_congr {s : FileSender} {io io' : ChunkIo}
    (htakes : io'.takesChunk = io.takesChunk ∧ io'.takesDone = io.takesDone ∧ io'.takesCancel = io.takesCancel)
    (hread : s.reads = true → io'.read s.index s.sent s.wants = io.read s.index s.sent s.wants) :
    s.sendOneChunk io' = s.sendOneChunk io := by
  have hfinish : ∀ s : FileSender, s.finishFile io' = s.finishFile io := by
    intro s
    unfold FileSender.finishFile
    rw [htakes.2.1, htakes.2.2]
  unfold FileSender.sendOneChunk
  split
  · rfl
  · next hindex =>
    dsimp only
    split
    · exact hfinish s
    · next hmore =>
      have hreads : s.reads = true := by
        unfold FileSender.reads
        rw [Bool.and_eq_true, decide_eq_true_iff, decide_eq_true_iff]
        omega
      have hsame := hread hreads
      unfold FileSender.wants at hsame
      dsimp only at hsame
      simp only [hsame, htakes.1, htakes.2.2, hfinish]

section

variable {content : UInt32 → Nat → Bytes} {s : FileUpload} {old fresh : List ReadChunk} {hi : Nat}

/-- Any file, read as it is. -/
def readsAsIs (content : UInt32 → Nat → Bytes) (s : FileUpload) (index offset want : Nat) : Bytes :=
  if index = s.sender.index ∧ offset = s.sender.sent ∧ want = s.sender.wants then s.readAt index offset want
  else ((content s.sender.batchId index).drop offset).take want

theorem reads_of_wants {s : FileSender} (h : 0 < s.wants) : s.reads = true := by
  have hsize : s.sent < (fileAt s.files s.index).size.toNat := by
    unfold FileSender.wants at h
    dsimp only at h
    split at h <;> omega
  have hindex : s.index < s.files.length := by
    by_contra hge
    unfold fileAt at hsize
    rw [List.getD_eq_default _ _ (Nat.not_lt.mp hge)] at hsize
    cases hsize
  unfold FileSender.reads
  rw [Bool.and_eq_true, decide_eq_true_iff, decide_eq_true_iff]
  exact ⟨hindex, hsize⟩

/-- What a turn sends is the next of the stream. -/
theorem FileUpload.Feeds.sends_moves (h : FileUpload.Feeds (AsInFile content) s old fresh hi) {o : FileOffer}
    (hin : InBatch content o s.sender) (ho : OfferOk content o) (hstate : s.sender.state = .sending)
    (a : SendAnswers) :
    SenderMoves content o s.sender ((s.sends a).1, (s.sends a).2.1) ∧
      ((s.sends a).2.2 = true → (s.sends a).1.state = .sending) := by
  by_cases hempty : s.sender.reads = true ∧ fresh = []
  · -- nothing to read: the batch is given up
    rcases hempty with ⟨hreads, rfl⟩
    have hnone : s.readAt s.sender.index s.sender.sent s.sender.wants = [] := by
      rw [h.readAt hreads]
      rfl
    have haborts : s.sends a = ((s.sender.abort .readFailed a.takesCancel).1,
        (s.sender.abort .readFailed a.takesCancel).2, false) := by
      unfold FileSender.reads at hreads
      rw [Bool.and_eq_true, decide_eq_true_iff, decide_eq_true_iff] at hreads
      unfold FileSender.wants at hnone
      dsimp only at hnone
      unfold FileUpload.sends FileSender.sendOneChunk
      rw [if_neg (by omega)]
      dsimp only [FileUpload.ringIo]
      rw [if_neg (by omega), hnone, if_pos (.inl rfl)]
    rw [haborts]
    exact ⟨hin.abort .readFailed a.takesCancel, by simp⟩
  · -- the turn is one that reads the file itself
    have hsame : s.sends a = s.sender.sendOneChunk
        { read := readsAsIs content s, takesChunk := a.takesChunk, takesDone := a.takesDone,
          takesCancel := a.takesCancel } := by
      have hread : s.sender.reads = true → readsAsIs content s s.sender.index s.sender.sent s.sender.wants =
          (s.ringIo a).read s.sender.index s.sender.sent s.sender.wants := by
        intro _
        unfold readsAsIs
        rw [if_pos ⟨rfl, rfl, rfl⟩]
        rfl
      have hturn : s.sender.sendOneChunk
          { read := readsAsIs content s, takesChunk := a.takesChunk, takesDone := a.takesDone,
            takesCancel := a.takesCancel } = s.sender.sendOneChunk (s.ringIo a) :=
        sendOneChunk_congr ⟨rfl, rfl, rfl⟩ hread
      exact hturn.symm
    rw [hsame]
    refine hin.sendOneChunk ho hstate ?_
    intro i off want hwant hfit
    show ∃ n, 0 < n ∧ n ≤ want ∧ readsAsIs content s i off want = _
    unfold readsAsIs
    split
    · next hplace =>
      obtain ⟨rfl, rfl, rfl⟩ := hplace
      have hreads : s.sender.reads = true := reads_of_wants hwant
      rcases List.exists_cons_of_ne_nil fun hnone => hempty ⟨hreads, hnone⟩ with ⟨c, cs, rfl⟩
      rcases h.fits c (by simp) with ⟨hfits, hgenuine⟩
      rcases hfits.next hreads h.next.1 with ⟨hindex, hoffset, hsize⟩
      rw [h.readAt hreads]
      refine ⟨c.data.length, hfits.pos, hsize, ?_⟩
      rw [← hin.id, ← hindex, ← hoffset]
      exact hgenuine
    · exact ⟨want, hwant, le_rfl, by rw [hin.id]⟩

theorem hooksOf_append (xs ys : List UploadEvent) : hooksOf (xs ++ ys) = hooksOf xs ++ hooksOf ys :=
  List.filterMap_append

theorem hooksOf_hooks (es : List FileSenderEvent) : hooksOf (es.map .hook) = es := by
  unfold hooksOf
  rw [List.filterMap_map]
  exact List.filterMap_some

/-- The turns of a `Pump` send more of the stream. -/
theorem FileUpload.Feeds.turns_moves (h : FileUpload.Feeds (AsInFile content) s old fresh hi) {o : FileOffer}
    (hin : InBatch content o s.sender) (ho : OfferOk content o) (hstate : s.sender.state = .sending)
    (as : List SendAnswers) :
    SenderMoves content o s.sender ((s.turns as).1.sender, hooksOf (s.turns as).2) := by
  induction as generalizing s old fresh with
  | nil => exact hin.stays hstate
  | cons a as ih =>
    rcases h.sends_moves hin ho hstate a with ⟨hmoves, hok⟩
    have hsender := (FileUpload.turn_frame s a).2
    have hout : hooksOf (s.turn a).2.1 = (s.sends a).2.1 := hooksOf_hooks _
    have hflag : (s.turn a).2.2 = (s.sends a).2.2 := rfl
    unfold FileUpload.turns
    rw [if_neg (not_not.mpr hstate)]
    cases hturn : (s.turn a).2.2 with
    | false =>
      simp only [hturn, Bool.not_false, if_true]
      rw [hsender, hout]
      exact hmoves
    | true =>
      have hsending := hok (hflag ▸ hturn)
      have hin' : InBatch content o (s.sends a).1 := by
        rcases hmoves with ⟨body, tail, -, ⟨-, -, hin, -⟩ | ⟨hfailed, -⟩⟩
        · exact hin
        · rw [hsending] at hfailed
          cases hfailed
      rcases h.turn a with ⟨n, hnext⟩ | ⟨-, -, hfailed, -⟩
      · rcases hnext.feeds with ⟨old', fresh', hfeeds, -⟩
        simp only [hturn, Bool.not_true, Bool.false_eq_true, if_false]
        rw [hooksOf_append, hout]
        rw [← hsender] at hmoves hsending hin'
        exact hmoves.trans hsending (ih hfeeds hin' hsending)
      · rw [hsender, hsending] at hfailed
        cases hfailed

end

/-! ## The files that are chosen -/

theorem inspectFiles_ok {paths : List PathFacts} {files : List TransferFile} (h : inspectFiles paths = .ok files) :
    files.length = paths.length ∧
      ∀ k p, paths[k]? = some p → ∃ size, p.size = some size ∧ (fileAt files k).size = size := by
  unfold inspectFiles at h
  split at h
  · cases h
  · split at h
    · cases h
    · clear * - h
      induction paths generalizing files with
      | nil =>
        obtain rfl : files = [] := by
          simpa [List.mapM_nil, pure, Except.pure, eq_comm] using h
        exact ⟨rfl, by simp⟩
      | cons p paths ih =>
        rw [List.mapM_cons] at h
        cases hfile : inspectFiles.inspect p with
        | error error =>
          rw [hfile] at h
          cases h
        | ok file =>
          rw [hfile] at h
          cases hrest : paths.mapM inspectFiles.inspect with
          | error error =>
            simp only [hrest, bind, Except.bind] at h
            cases h
          | ok rest =>
            simp only [hrest, bind, Except.bind, pure, Except.pure, Except.ok.injEq] at h
            subst h
            rcases ih hrest with ⟨hlength, hsizes⟩
            refine ⟨by simp [hlength], ?_⟩
            intro k p' hk
            cases k with
            | zero =>
              obtain rfl : p = p' := by simpa using hk
              unfold inspectFiles.inspect at hfile
              split at hfile
              · cases hfile
              · split at hfile
                · cases hfile
                · next size hsize =>
                  dsimp only at hfile
                  split at hfile
                  · cases hfile
                  · cases hfile
                    exact ⟨size, hsize, rfl⟩
            | succ k =>
              rcases hsizes k p' (by simpa using hk) with ⟨size, hsize, hfileAt⟩
              exact ⟨size, hsize, hfileAt⟩

/-! ## The invariant -/

namespace UploadLink

variable {content : UInt32 → Nat → Bytes}

/-- The ring feeds the sender, the link carries its stream, and the store is given what the receiver
writes. -/
structure Inv (content : UInt32 → Nat → Bytes) (s : UploadLink) (out : List FileLinkEvent) : Prop where
  upload : FileUpload.Inv (AsInFile content) s.upload
  link : ∃ seen ahead, LinkInv content s.link out seen ahead
  agrees : Landed.Agrees s.link out
  /-- The numbers of the batches go up. -/
  numbers : ∀ o ∈ offeredBatches out, o.batchId.toNat < s.upload.nextBatchId.toNat

/-- What `Begin` makes of the files, as far as the link sees it: nothing, or an offer of the sender. -/
theorem beginOn_offer (s : FileUpload) (paths : List PathFacts) (takes : Bool) :
    ((s.beginOn paths takes).1.sender = s.sender ∧ hooksOf (s.beginOn paths takes).2 = [] ∧
        (s.beginOn paths takes).1.nextBatchId = s.nextBatchId) ∨
      ∃ files, inspectFiles paths = .ok files ∧
        (s.beginOn paths takes).1.sender = (s.sender.offer s.nextBatchId files takes).1 ∧
        hooksOf (s.beginOn paths takes).2 = (s.sender.offer s.nextBatchId files takes).2.1 ∧
        (s.beginOn paths takes).1.nextBatchId =
          if (s.sender.offer s.nextBatchId files takes).2.2 then s.nextBatchId + 1 else s.nextBatchId := by
  unfold FileUpload.beginOn
  split
  · exact .inl ⟨rfl, rfl, rfl⟩
  · next files hfiles =>
    split
    · exact .inl ⟨rfl, rfl, rfl⟩
    · right
      refine ⟨files, hfiles, ?_⟩
      dsimp only
      rcases FileUpload.senderActs_frame s ((s.sender.offer s.nextBatchId files takes).1,
        (s.sender.offer s.nextBatchId files takes).2.1) with ⟨hframe, hsender, -⟩
      have hhooks : hooksOf (s.senderActs ((s.sender.offer s.nextBatchId files takes).1,
          (s.sender.offer s.nextBatchId files takes).2.1)).2 = (s.sender.offer s.nextBatchId files takes).2.1 :=
        hooksOf_hooks _
      cases hok : (s.sender.offer s.nextBatchId files takes).2.2 with
      | false =>
        simp only [Bool.not_false, if_true, Bool.false_eq_true, if_false]
        refine ⟨hsender, ?_, hframe.nextBatchId⟩
        rw [hooksOf_append, hhooks]
        exact List.append_nil _
      | true =>
        simp only [Bool.not_true, Bool.false_eq_true, if_false, if_true]
        refine ⟨hsender, ?_, ?_⟩
        · rw [hooksOf_append, hhooks]
          exact List.append_nil _
        · show (s.senderActs _).1.nextBatchId + 1 = _
          rw [hframe.nextBatchId]

/-- The step of a call that goes on: only the end of `Begin` reaches the link. -/
theorem goOn_offer (s : FileUpload) (i : Nat) (paths : List PathFacts) (takes : Bool) :
    ((s.goOn i paths takes).1.sender = s.sender ∧ hooksOf (s.goOn i paths takes).2 = [] ∧
        (s.goOn i paths takes).1.nextBatchId = s.nextBatchId) ∨
      ∃ thread files, s.calls[i]? = some (.beginning thread) ∧ inspectFiles paths = .ok files ∧
        (s.goOn i paths takes).1.sender = (s.sender.offer s.nextBatchId files takes).1 ∧
        hooksOf (s.goOn i paths takes).2 = (s.sender.offer s.nextBatchId files takes).2.1 ∧
        (s.goOn i paths takes).1.nextBatchId =
          if (s.sender.offer s.nextBatchId files takes).2.2 then s.nextBatchId + 1 else s.nextBatchId := by
  unfold FileUpload.goOn
  cases hcall : s.calls[i]? with
  | none => exact .inl ⟨rfl, rfl, rfl⟩
  | some call =>
    cases call with
    | beginning joins =>
      dsimp only
      split
      · rcases beginOn_offer (s.callReturns i) paths takes with hquiet | ⟨files, hfiles, hoffer⟩
        · exact .inl hquiet
        · exact .inr ⟨joins, files, rfl, hfiles, hoffer⟩
      · exact .inl ⟨rfl, rfl, rfl⟩
    | joining joins ready =>
      dsimp only
      left
      split <;> exact ⟨rfl, rfl, rfl⟩
    | checked => exact .inl ⟨rfl, rfl, rfl⟩
    | flushing => exact .inl ⟨rfl, rfl, rfl⟩
    | stopping ready => exact .inl ⟨rfl, rfl, rfl⟩
    | telling ready => exact .inl ⟨rfl, rfl, rfl⟩

variable {s : UploadLink} {out : List FileLinkEvent}

/-- An upload whose sender does nothing. -/
theorem Inv.idles (h : Inv content s out) {r : FileUpload × List UploadEvent}
    (hupload : FileUpload.Inv (AsInFile content) r.1) (hsender : r.1.sender = s.upload.sender)
    (hhooks : hooksOf r.2 = []) (hnumber : r.1.nextBatchId = s.upload.nextBatchId) :
    Inv content (s.uploadActs r).1 (out ++ (s.uploadActs r).2) := by
  have hsame : (s.uploadActs r).1.link = s.link ∧ (s.uploadActs r).2 = [] := by
    unfold uploadActs UploadLink.link
    rw [hhooks, hsender]
    exact ⟨by simp [sentMessages], rfl⟩
  refine ⟨hupload, ?_, ?_, ?_⟩
  · rw [hsame.1, hsame.2, List.append_nil]
    exact h.link
  · rw [hsame.1, hsame.2, List.append_nil]
    exact h.agrees
  · rw [hsame.2, List.append_nil]
    show ∀ o ∈ offeredBatches out, o.batchId.toNat < r.1.nextBatchId.toNat
    rw [hnumber]
    exact h.numbers

/-- An upload whose sender acts, and offers nothing. -/
theorem Inv.acts (h : Inv content s out) {r : FileUpload × List UploadEvent}
    (hupload : FileUpload.Inv (AsInFile content) r.1) (hnumber : r.1.nextBatchId = s.upload.nextBatchId)
    (hlink : ∃ seen ahead, LinkInv content (s.link.senderActs (r.1.sender, hooksOf r.2)).1
      (out ++ (s.link.senderActs (r.1.sender, hooksOf r.2)).2) seen ahead)
    (hquiet : offeredBatches ((hooksOf r.2).map .sender) = []) :
    Inv content (s.uploadActs r).1 (out ++ (s.uploadActs r).2) := by
  refine ⟨hupload, hlink, h.agrees.senderActs (r.1.sender, hooksOf r.2), ?_⟩
  show ∀ o ∈ offeredBatches (out ++ (hooksOf r.2).map .sender), o.batchId.toNat < r.1.nextBatchId.toNat
  rw [offeredBatches_append, hquiet, List.append_nil, hnumber]
  exact h.numbers

/-! ## What offers nothing -/

/-- A sender that goes on in its batch, or gives it up, offers nothing. -/
theorem offers_of_moves {o : FileOffer} {s : FileSender} {r : FileSender × List FileSenderEvent}
    (h : SenderMoves content o s r) : offeredBatches (r.2.map .sender) = [] := by
  rcases h with ⟨body, tail, hsent, hcase⟩
  rw [offeredBatches_sender hsent, List.filterMap_eq_nil_iff]
  intro m hm
  rcases List.mem_append.mp hm with hbody | htail
  · have hstream : ∃ pos, stream content o (s.index, s.sent) body = some pos := by
      rcases hcase with ⟨-, -, -, -, hstream⟩ | ⟨-, hstream, -⟩
      · exact ⟨_, hstream⟩
      · exact hstream
    rcases hstream with ⟨pos, hstream⟩
    cases m with
    | offer o' => exact absurd rfl ((stream_mem content hstream hbody).2.1 o')
    | _ => rfl
  · rcases hcase with ⟨rfl, -⟩ | ⟨-, -, rfl | ⟨reason, rfl⟩⟩
    · cases htail
    · cases htail
    · rw [List.mem_singleton.mp htail]
      rfl

theorem offers_handleMessage {s : FileSender} (hin : s.busy = true → ∃ o, InBatch content o s)
    (message : Bytes) (takesCancel : Bool) :
    offeredBatches ((s.handleMessage message takesCancel).2.map .sender) = [] := by
  rcases s.handleMessage_cases message takesCancel with hnothing | ⟨state, reason, -, -, hends⟩ |
    ⟨ack, hstate, -, -, -, -, haborts⟩ | ⟨-, haccepts⟩ | hacked
  · rw [hnothing]
    rfl
  · rw [hends]
    rfl
  · rw [haborts]
    rcases hin (by simp [FileSender.busy, hstate]) with ⟨o, hin⟩
    exact offers_of_moves (hin.abort .corrupt takesCancel)
  · rw [haccepts]
    rfl
  · rw [FileSender.handleMessage_of_acknowledges hacked]
    split <;> rfl

theorem offers_receiver (batchId : UInt32) (es : List FileReceiverEvent) :
    offeredBatches (es.map (.receiver batchId)) = [] := by
  unfold offeredBatches
  rw [List.filterMap_eq_nil_iff]
  intro e hmem
  rcases List.mem_map.mp hmem with ⟨e', -, rfl⟩
  rfl

/-! ## Steps and runs -/

/-- A step of the receiver. -/
theorem Inv.receives (h : Inv content s out) {r : FileLink × List FileLinkEvent}
    (hlink : ∃ seen ahead, LinkInv content r.1 (out ++ r.2) seen ahead) (hagrees : Landed.Agrees r.1 (out ++ r.2))
    (hframe : r.1.sender = s.upload.sender ∧ offeredBatches r.2 = []) :
    Inv content (s.receiverActs r).1 (out ++ (s.receiverActs r).2) := by
  have hsame : (s.receiverActs r).1.link = r.1 := by
    unfold UploadLink.receiverActs UploadLink.link
    rw [← hframe.1]
  refine ⟨h.upload, ?_, ?_, ?_⟩
  · rw [hsame]
    exact hlink
  · rw [hsame]
    exact hagrees
  · show ∀ o ∈ offeredBatches (out ++ r.2), o.batchId.toNat < s.upload.nextBatchId.toNat
    rw [offeredBatches_append, hframe.2, List.append_nil]
    exact h.numbers

/-- The batch of the sender, when it is in one. -/
theorem Inv.current (h : Inv content s out) (hbusy : s.upload.sender.busy = true) :
    ∃ o, InBatch content o s.upload.sender ∧ OfferOk content o := by
  rcases h.link with ⟨seen, ahead, hlink⟩
  rcases hlink.sender.current hbusy with ⟨o, hlast, hin, -⟩
  exact ⟨o, hin, hlink.sent.ok o (List.mem_of_getLast? hlast)⟩

theorem Inv.pump (h : Inv content s out) (hupload : FileUpload.Inv (AsInFile content) s.upload) (maxChunks : Nat)
    (answers : Nat → SendAnswers) :
    (∃ seen ahead, LinkInv content
      (s.link.senderActs ((s.upload.pump maxChunks answers).1.sender, hooksOf (s.upload.pump maxChunks answers).2)).1
      (out ++ (s.link.senderActs ((s.upload.pump maxChunks answers).1.sender,
        hooksOf (s.upload.pump maxChunks answers).2)).2) seen ahead) ∧
    offeredBatches ((hooksOf (s.upload.pump maxChunks answers).2).map .sender) = [] := by
  rcases h.link with ⟨seen, ahead, hlink⟩
  unfold FileUpload.pump
  split
  · next hstate =>
    have hbusy : s.upload.sender.busy = true := by simp [FileSender.busy, hstate]
    rcases (hupload.feeds hbusy).2.2 with ⟨old, fresh, hi, hfeeds⟩
    constructor
    · refine ⟨seen, hlink.moves hbusy ?_⟩
      intro o hin ho
      exact hfeeds.turns_moves hin ho hstate _
    · rcases h.current hbusy with ⟨o, hin, ho⟩
      exact offers_of_moves (hfeeds.turns_moves hin ho hstate _)
  · exact ⟨⟨seen, hlink.idles⟩, rfl⟩

/-- The offer of `Begin` is one of the link. -/
theorem Inv.offers (h : Inv content s out) {r : FileUpload × List UploadEvent} {files : List TransferFile}
    {takes : Bool} (hupload : FileUpload.Inv (AsInFile content) r.1)
    (hdescribes : Describes content ⟨s.upload.nextBatchId, files⟩)
    (hroom : s.upload.nextBatchId.toNat + 1 < 2 ^ 32)
    (hsender : r.1.sender = (s.upload.sender.offer s.upload.nextBatchId files takes).1)
    (hhooks : hooksOf r.2 = (s.upload.sender.offer s.upload.nextBatchId files takes).2.1)
    (hnumber : r.1.nextBatchId = if (s.upload.sender.offer s.upload.nextBatchId files takes).2.2
      then s.upload.nextBatchId + 1 else s.upload.nextBatchId) :
    Inv content (s.uploadActs r).1 (out ++ (s.uploadActs r).2) := by
  rcases h.link with ⟨seen, ahead, hlink⟩
  have hfresh : s.upload.nextBatchId ∉ (offeredBatches out).map (·.batchId) := by
    intro hmem
    rcases List.mem_map.mp hmem with ⟨o, ho, heq⟩
    have hlt := h.numbers o ho
    rw [heq] at hlt
    omega
  have hnext : (s.upload.nextBatchId + 1).toNat = s.upload.nextBatchId.toNat + 1 := by
    rw [UInt32.toNat_add]
    exact Nat.mod_eq_of_lt hroom
  refine ⟨hupload, ?_, h.agrees.senderActs (r.1.sender, hooksOf r.2), ?_⟩
  · show ∃ seen ahead, LinkInv content (s.link.senderActs (r.1.sender, hooksOf r.2)).1
      (out ++ (s.link.senderActs (r.1.sender, hooksOf r.2)).2) seen ahead
    rw [hsender, hhooks]
    exact ⟨seen, hlink.offer ⟨hdescribes, hfresh⟩ takes⟩
  · show ∀ o ∈ offeredBatches (out ++ (hooksOf r.2).map .sender), o.batchId.toNat < r.1.nextBatchId.toNat
    rw [offeredBatches_append, hhooks, hnumber]
    intro o ho
    cases hok : (s.upload.sender.offer s.upload.nextBatchId files takes).2.2 with
    | true =>
      rw [if_pos rfl, hnext]
      rcases FileUpload.offer_placed hok with ⟨-, -, -, -, -, -, message, hbuild, hout⟩
      rw [hout] at ho
      have hparse : FileMsg.parse message = some (.offer ⟨s.upload.nextBatchId,
          (s.upload.sender.offer s.upload.nextBatchId files takes).1.files⟩) :=
        FileMsg.parse_build (m := .offer _) trivial hbuild
      have hone : offeredBatches ([FileSenderEvent.sent message].map .sender) =
          [⟨s.upload.nextBatchId, (s.upload.sender.offer s.upload.nextBatchId files takes).1.files⟩] := by
        simp [offeredBatches, FileLinkEvent.offer?, hparse]
      rw [hone, List.mem_append, List.mem_singleton] at ho
      rcases ho with ho | rfl
      · have hlt := h.numbers o ho
        omega
      · exact Nat.lt_succ_self _
    | false =>
      rw [if_neg (by simp)]
      rw [(FileUpload.offer_refused hok).2] at ho
      have ho : o ∈ offeredBatches out := by simpa [offeredBatches] using ho
      exact h.numbers o ho

theorem describes_of_measured {s : FileUpload} {paths : List PathFacts} {files : List TransferFile}
    (hfiles : inspectFiles paths = .ok files)
    (h : ∀ k p size, paths[k]? = some p → p.size = some size → size.toNat = (content s.nextBatchId k).length) :
    Describes content ⟨s.nextBatchId, files⟩ := by
  rcases inspectFiles_ok hfiles with ⟨hlength, hsizes⟩
  intro k hk
  have hlt : k < paths.length := hlength ▸ hk
  rcases hsizes k paths[k] (List.getElem?_eq_getElem hlt) with ⟨size, hsize, hfile⟩
  rw [← h k paths[k] size (List.getElem?_eq_getElem hlt) hsize, ← hfile]

/-- The step lemma. -/
theorem Inv.step (h : Inv content s out) {input : UploadLinkInput} (hfair : FairUpload content s out input) :
    Inv content (uploadLink.step s input).1 (out ++ (uploadLink.step s input).2) := by
  have hsame : Inv content s (out ++ []) := by simpa using h
  rcases h.link with ⟨seen, ahead, hlink⟩
  cases input with
  | caller input =>
    rcases hfair with ⟨halone, hread, hmeasures⟩
    have hupload := h.upload.step halone hread
    cases input with
    | handleMessage message takesCancel => exact hsame
    | begin =>
      refine h.idles hupload ?_ ?_ ?_
      all_goals
        simp only [fileUpload, FileUpload.begin]
        split <;> rfl
    | readerTurn thread answer =>
      have honly := (FileUpload.readerTurn_turn h.upload.held thread answer).only
      exact h.idles hupload honly.sender rfl honly.nextBatchId
    | pump maxChunks answers =>
      have hacts := FileUpload.acts_pump s.upload maxChunks answers fun hbusy => (h.upload.feeds hbusy).2.2
      rcases h.pump h.upload maxChunks answers with ⟨hlink', hquiet⟩
      exact h.acts hupload hacts.frame.nextBatchId hlink' hquiet
    | cancel takesCancel =>
      have hframe := (FileUpload.senderActs_frame s.upload (s.upload.sender.cancel takesCancel)).1
      have hsender : (fileUpload.step s.upload (.cancel takesCancel)).1.sender = (s.upload.sender.cancel takesCancel).1 :=
        (FileUpload.senderActs_frame s.upload (s.upload.sender.cancel takesCancel)).2.1
      have hhooks : hooksOf (fileUpload.step s.upload (.cancel takesCancel)).2 =
          (s.upload.sender.cancel takesCancel).2 := hooksOf_hooks _
      refine h.acts hupload hframe.nextBatchId ?_ ?_
      · rw [hsender, hhooks]
        exact hlink.step (a := .cancel takesCancel) trivial
      · rw [hhooks]
        -- an abort offers nothing
        unfold FileSender.cancel
        cases hbusy : s.upload.sender.busy with
        | false => rfl
        | true =>
          rcases h.current hbusy with ⟨o, hin, -⟩
          exact offers_of_moves (hin.abort .cancelled takesCancel)
    | linkLost =>
      have hframe := (FileUpload.senderActs_frame s.upload s.upload.sender.linkLost).1
      have hsender : (fileUpload.step s.upload .linkLost).1.sender = s.upload.sender.linkLost.1 :=
        (FileUpload.senderActs_frame s.upload s.upload.sender.linkLost).2.1
      have hhooks : hooksOf (fileUpload.step s.upload .linkLost).2 = s.upload.sender.linkLost.2 := hooksOf_hooks _
      refine h.acts hupload hframe.nextBatchId ?_ ?_
      · rw [hsender, hhooks]
        exact hlink.step (a := .senderLinkLost) trivial
      · rw [hhooks]
        unfold FileSender.linkLost
        split <;> rfl
    | goOn i paths takes =>
      rcases goOn_offer s.upload i paths takes with ⟨hsender, hhooks, hnumber⟩ |
        ⟨thread, files, hcall, hfiles, hsender, hhooks, hnumber⟩
      · exact h.idles hupload hsender hhooks hnumber
      · rcases hmeasures thread hcall with ⟨hroom, hsizes⟩
        exact h.offers hupload (describes_of_measured hfiles hsizes) hroom hsender hhooks hnumber
  | deliverToSender takesCancel =>
    show Inv content (s.deliverToSender takesCancel).1 (out ++ (s.deliverToSender takesCancel).2)
    have hstep := hlink.step (a := .deliverToSender takesCancel) trivial
    have hagrees := h.agrees.step (.deliverToSender takesCancel)
    change ∃ seen' ahead', LinkInv content (s.link.deliverToSender takesCancel).1
      (out ++ (s.link.deliverToSender takesCancel).2) seen' ahead' at hstep
    unfold UploadLink.deliverToSender
    unfold FileLink.deliverToSender at hstep
    cases hmessages : s.toSender with
    | nil => exact hsame
    | cons message rest =>
      have hmessages' : s.link.toSender = message :: rest := hmessages
      rw [hmessages'] at hstep
      dsimp only
      -- the sender of the upload does what the sender of the link does
      generalize hr : fileUpload.step s.upload (.handleMessage message takesCancel) = r
      have hupload : FileUpload.Inv (AsInFile content) r.1 := by
        rw [← hr]
        exact h.upload.acts (FileUpload.standsOrEnds_handleMessage _ message takesCancel).acts
      have hframe := (FileUpload.senderActs_frame s.upload
        (s.upload.sender.handleMessage message takesCancel)).1
      have hsender : r.1.sender = (s.upload.sender.handleMessage message takesCancel).1 := by
        rw [← hr]
        exact (FileUpload.senderActs_frame s.upload (s.upload.sender.handleMessage message takesCancel)).2.1
      have hhooks : hooksOf r.2 = (s.upload.sender.handleMessage message takesCancel).2 := by
        rw [← hr]
        exact hooksOf_hooks _
      have hnumber : r.1.nextBatchId = s.upload.nextBatchId := by
        rw [← hr]
        exact hframe.nextBatchId
      have hquiet : offeredBatches ((s.upload.sender.handleMessage message takesCancel).2.map .sender) = [] :=
        offers_handleMessage (fun hbusy => (h.current hbusy).imp fun o ho => ho.1) message takesCancel
      have hpopped : Landed.Agrees { s.link with toSender := rest } out := h.agrees
      refine ⟨hupload, ?_, hpopped.senderActs (r.1.sender, hooksOf r.2), ?_⟩
      · show ∃ seen ahead, LinkInv content
          (FileLink.senderActs { s.link with toSender := rest } (r.1.sender, hooksOf r.2)).1
          (out ++ (FileLink.senderActs { s.link with toSender := rest } (r.1.sender, hooksOf r.2)).2) seen ahead
        rw [hsender, hhooks]
        exact hstep
      · show ∀ o ∈ offeredBatches (out ++ (hooksOf r.2).map .sender), o.batchId.toNat < r.1.nextBatchId.toNat
        rw [offeredBatches_append, hhooks, hquiet, List.append_nil, hnumber]
        exact h.numbers
  | deliverToReceiver cb =>
    refine h.receives (hlink.step (a := .deliverToReceiver cb) trivial) (h.agrees.step (.deliverToReceiver cb)) ?_
    show (s.link.deliverToReceiver cb).1.sender = _ ∧ _
    unfold FileLink.deliverToReceiver
    split
    · exact ⟨rfl, rfl⟩
    · exact ⟨rfl, offers_receiver _ _⟩
  | receiverCall call =>
    refine h.receives (hlink.step (a := .receiverCall call) trivial) (h.agrees.step (.receiverCall call)) ?_
    simp only [fileLink]
    split
    · exact ⟨rfl, offers_receiver _ _⟩
    · exact ⟨rfl, rfl⟩

theorem Inv.init : Inv content {} [] := by
  refine ⟨.init, ⟨[], [], .init⟩, ?_, by simp [offeredBatches]⟩
  exact Landed.run_agrees []

theorem run_inv {inputs : List UploadLinkInput} (hfair : uploadLink.Along (FairUpload content) {} inputs) :
    Inv content (uploadLink.run {} inputs).1 (uploadLink.run {} inputs).2 :=
  Machine.run_invariant (fun s out => Inv content s out) (FairUpload content) .init
    (fun _ _ _ hinput h => h.step hinput) inputs hfair

end UploadLink

/-- A file of three bytes, from disk to disk. -/
def uploadedRun : List UploadLinkInput :=
  [.receiverCall (.setAccepting true {}), .caller .begin, .caller (.goOn 0 [] true),
    .caller (.goOn 0 [{ path := ascii "/a", fileName := ascii "a", size := some 3 }] true),
    .deliverToReceiver {}, .deliverToSender false,
    .caller (.readerTurn 0 (some [1, 2, 3])), .caller (.readerTurn 0 none),
    .caller (.pump kFileChunksPerTick fun _ => {}),
    .deliverToReceiver { stored := ascii "a", written := true }, .deliverToReceiver { closed := true },
    .deliverToSender false]

def uploadedSteps : List FileStoreInput :=
  [.setDirectory true, .openFile 0 (ascii "a") 3 true { freeBytes := 100 }, .write 0 [1, 2, 3],
    .goOn true true, .takeJob, .finishJob none, .close 0 true true true, .goOn true true]

theorem uploadedRun_fair : uploadLink.Along (FairUpload fun _ _ => [1, 2, 3]) {} uploadedRun := by
  rw [Machine.along_iff]
  refine ⟨trivial, ⟨⟨rfl, ?_⟩, trivial, trivial⟩, ⟨trivial, trivial, ?_⟩, ⟨trivial, trivial, ?_⟩, trivial, trivial,
    ⟨trivial, ?_, trivial⟩, ⟨trivial, ?_, trivial⟩, ⟨trivial, trivial, trivial⟩, trivial, trivial, trivial, trivial⟩
  · intro call hmem
    cases hmem
  · intro thread _
    exact ⟨by decide +kernel, by simp⟩
  · intro thread _
    refine ⟨by decide +kernel, ?_⟩
    intro k p size hp hsize
    cases k with
    | zero =>
      obtain rfl := Option.some.inj hp
      cases hsize
      rfl
    | succ k => cases hp
  · intro r hr
    have hthread : (uploadLink.run {} (uploadedRun.take 6)).1.upload.threads.lookup 0 =
        some { plan := [⟨3, ascii "a"⟩] } := by decide +kernel
    have hr' : (uploadLink.run {} (uploadedRun.take 6)).1.upload.threads.lookup 0 = some r := hr
    obtain rfl := Option.some.inj (hthread.symm.trans hr')
    rfl
  · intro r _
    simp [AsInFile, ReaderThread.reads]

end Deskhub
