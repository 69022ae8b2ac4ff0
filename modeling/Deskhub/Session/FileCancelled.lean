import Deskhub.Session.FileBrackets
import Deskhub.Session.FileSenderDone

/-!
# A cancelled transfer on both sides

The sender tells the receiver of the end of a batch with a cancel, which `send` may refuse like
any other message. A cancel that is taken is the last message of the batch on the link, and
behind it the receiver is out of the batch.
-/

namespace Deskhub

/-! ## The cancel of a sender -/

/-- The last message sent is a cancel of the batch. -/
def EndsInCancel (batchId : UInt32) (es : List FileSenderEvent) : Prop :=
  ∃ before message reason, sentMessages es = before ++ [message] ∧
    FileMsg.parse message = some (.cancel ⟨batchId, reason⟩)

theorem EndsInCancel.after {batchId : UInt32} {es : List FileSenderEvent}
    (h : EndsInCancel batchId es) (before : List FileSenderEvent) :
    EndsInCancel batchId (before ++ es) := by
  rcases h with ⟨first, message, reason, hsent, hparse⟩
  refine ⟨sentMessages before ++ first, message, reason, ?_, hparse⟩
  rw [sentMessages_append, hsent, List.append_assoc]

namespace FileSender

theorem buildFileCancel_isSome (m : FileCancel) :
    ∃ message, buildFileCancel kMaxRecordSize m = some message :=
  ⟨_, writeCommon_eq_some.mpr ⟨by simp [kMaxRecordSize], rfl⟩⟩

theorem abort_cancels (s : FileSender) (reason : TransferReason) :
    EndsInCancel s.batchId (s.abort reason true).2 := by
  rcases buildFileCancel_isSome ⟨s.batchId, reason⟩ with ⟨message, hbuild⟩
  refine ⟨[], message, reason, ?_, FileMsg.parse_build (m := .cancel ⟨s.batchId, reason⟩) trivial hbuild⟩
  simp [FileSender.abort, FileSender.finish, emit, hbuild, sentMessages]

/-- What a turn of `Pump` does to the state: the sender goes on with the batch, or it aborts, and
sends a cancel if `send` takes it. -/
def TurnEnds (batchId : UInt32) (takesCancel : Bool) (r : FileSender × List FileSenderEvent × Bool) :
    Prop :=
  (r.1.state = .sending ∧ r.1.batchId = batchId) ∨
    (r.2.2 = false ∧ r.1.state = .failed ∧ (takesCancel = true → EndsInCancel batchId r.2.1))

theorem turnEnds_abort (s : FileSender) (reason : TransferReason) (takesCancel : Bool) :
    TurnEnds s.batchId takesCancel
      ((s.abort reason takesCancel).1, (s.abort reason takesCancel).2, false) := by
  refine .inr ⟨rfl, rfl, ?_⟩
  intro htakes
  rw [htakes]
  exact s.abort_cancels reason

theorem finishFile_ends {s : FileSender} (hstate : s.state = .sending) (io : ChunkIo) :
    TurnEnds s.batchId io.takesCancel (s.finishFile io) := by
  unfold FileSender.finishFile
  split
  · exact turnEnds_abort s .readFailed io.takesCancel
  · split <;> exact .inl ⟨hstate, rfl⟩

theorem sendOneChunk_ends {s : FileSender} (hstate : s.state = .sending) (io : ChunkIo) :
    TurnEnds s.batchId io.takesCancel (s.sendOneChunk io) := by
  unfold FileSender.sendOneChunk
  split
  · exact .inl ⟨hstate, rfl⟩
  · dsimp only
    split
    · exact finishFile_ends hstate io
    · generalize (if (fileAt s.files s.index).size.toNat - s.sent < kMaxFileChunkBytes then
        (fileAt s.files s.index).size.toNat - s.sent else kMaxFileChunkBytes) = want
      split
      · exact turnEnds_abort s .readFailed io.takesCancel
      · split
        · exact turnEnds_abort s .readFailed io.takesCancel
        · split
          · exact .inl ⟨hstate, rfl⟩
          · split
            · have hends := finishFile_ends (s := { s with
                crc := s.crc.update (io.read s.index s.sent want)
                sent := s.sent + (io.read s.index s.sent want).length
                batchSent := s.batchSent + (io.read s.index s.sent want).length }) hstate io
              rcases hends with hsending | ⟨hstops, hfailed, hcancel⟩
              · exact .inl hsending
              · exact .inr ⟨hstops, hfailed, fun htakes => (hcancel htakes).after _⟩
            · exact .inl ⟨hstate, rfl⟩

/-- Whether `send` takes the cancel of the turn of `Pump` that aborts, if one does. -/
def pumpTakesCancel (s : FileSender) : List ChunkIo → Bool
  | [] => true
  | io :: rest =>
      if (s.sendOneChunk io).1.state = .failed then io.takesCancel
      else (s.sendOneChunk io).1.pumpTakesCancel rest

theorem pump_cancels {s : FileSender} {ios : List ChunkIo} (hstate : s.state = .sending)
    (hfailed : (s.pump ios).1.state = .failed) (htakes : s.pumpTakesCancel ios = true) :
    EndsInCancel s.batchId (s.pump ios).2 := by
  induction ios generalizing s with
  | nil =>
    rw [show (s.pump []).1.state = s.state from rfl, hstate] at hfailed
    cases hfailed
  | cons io ios ih =>
    unfold FileSender.pump at hfailed ⊢
    unfold pumpTakesCancel at htakes
    rw [if_neg (not_not.mpr hstate)] at hfailed ⊢
    rcases sendOneChunk_ends hstate io with ⟨hsending, hsame⟩ | ⟨hstops, hover, hcancel⟩
    · rw [if_neg (by rw [hsending]; decide)] at htakes
      cases hok : (s.sendOneChunk io).2.2 with
      | false =>
        simp only [hok, Bool.not_false, if_true] at hfailed
        rw [hsending] at hfailed
        cases hfailed
      | true =>
        simp only [hok, Bool.not_true, Bool.false_eq_true, if_false] at hfailed ⊢
        rw [← hsame]
        exact (ih hsending hfailed htakes).after _
    · rw [if_pos hover] at htakes
      simp only [hstops, Bool.not_false, if_true]
      exact hcancel htakes

end FileSender

/-! ## The receiver behind the cancel -/

namespace FileReceiver

/-- The receiver is not in the batch. -/
def Clear (batchId : UInt32) (s : FileReceiver) : Prop :=
  ¬ (s.state = .receiving ∧ s.batchId = batchId)

theorem Clear.of_state {batchId : UInt32} {s : FileReceiver} (h : s.state ≠ .receiving) :
    Clear batchId s := fun hin => h hin.1

/-- Without a message the receiver enters no batch. -/
theorem Clear.step {batchId : UInt32} {s : FileReceiver} (h : Clear batchId s)
    {r : FileReceiver × List FileReceiverEvent} (hstep : ReceiverStep s none r) :
    Clear batchId r.1 := by
  cases hstep with
  | stays s' es hstate _ _ _ =>
    rw [hstate]
    exact h
  | fails s' es _ hfailed _ _ => exact .of_state (by rw [hfailed]; decide)
  | accepts _ _ o hm => cases hm
  | writes _ _ c hm => cases hm
  | keepsNot _ _ d hm => cases hm
  | keeps _ _ d hm => cases hm

/-- A cancel of the batch takes the receiver out of it. -/
theorem clear_of_cancel {batchId : UInt32} {s : FileReceiver} {reason : TransferReason}
    {r : FileReceiver × List FileReceiverEvent}
    (hstep : ReceiverStep s (some (.cancel ⟨batchId, reason⟩)) r) : Clear batchId r.1 := by
  cases hstep with
  | stays s' es hstate hidle _ _ =>
    rw [hstate]
    rintro ⟨hreceiving, hbatch⟩
    exact hidle hreceiving _ rfl hbatch.symm trivial
  | fails s' es _ hfailed _ _ => exact .of_state (by rw [hfailed]; decide)
  | accepts _ _ o hm => cases hm
  | writes _ _ c hm => cases hm
  | keepsNot _ _ d hm => cases hm
  | keeps _ _ d hm => cases hm

end FileReceiver

/-! ## Runs -/

/-- The input gives the sender a new batch. -/
def FileLinkInput.isOffer : FileLinkInput → Bool
  | .offer _ _ _ => true
  | _ => false

namespace FileLink

/-- The call ends a batch by `Cancel`, or by `Abort`: a file could not be read, or an
acknowledgement came out of turn. -/
def EndsBatch (s : FileLink) : FileLinkInput → Prop
  | .cancel _ => s.sender.busy = true
  | .pump ios => s.sender.state = .sending ∧ (s.sender.pump ios).1.state = .failed
  | .deliverToSender _ =>
      ∃ message rest ack, s.toSender = message :: rest ∧ s.sender.state = .sending ∧
        FileMsg.parse message = some (.ack ack) ∧ ack.batchId = s.sender.batchId ∧
        ack.reason = .accepted ∧ ack.fileIndex.toNat ≠ s.sender.acked
  | _ => False

/-- `send` takes the cancel of the call. -/
def CancelTaken (s : FileLink) : FileLinkInput → Prop
  | .cancel takesCancel => takesCancel = true
  | .pump ios => s.sender.pumpTakesCancel ios = true
  | .deliverToSender takesCancel => takesCancel = true
  | _ => True

/-- The batch is over: the sender is in none, and the cancel is the last message on the link or
the receiver is out of the batch. -/
structure Over (batchId : UInt32) (s : FileLink) : Prop where
  idle : s.sender.busy = false
  told : (∃ before message reason, s.toReceiver = before ++ [message] ∧
      FileMsg.parse message = some (.cancel ⟨batchId, reason⟩)) ∨
    (s.toReceiver = [] ∧ s.receiver.Clear batchId)

theorem over_of_endsInCancel {s : FileLink} {batchId : UInt32}
    {r : FileSender × List FileSenderEvent} (hidle : r.1.busy = false)
    (h : EndsInCancel batchId r.2) : Over batchId (s.senderActs r).1 := by
  rcases h with ⟨before, message, reason, hsent, hparse⟩
  refine ⟨hidle, .inl ⟨s.toReceiver ++ before, message, reason, ?_, hparse⟩⟩
  show s.toReceiver ++ sentMessages r.2 = _
  rw [hsent, List.append_assoc]

/-- The call that ends a batch, when its cancel is taken. -/
theorem over_of_endsBatch {s : FileLink} {c : FileLinkInput} (hends : s.EndsBatch c)
    (htaken : s.CancelTaken c) : Over s.sender.batchId (fileLink.step s c).1 := by
  cases c with
  | cancel takesCancel =>
    rw [show takesCancel = true from htaken]
    show Over _ (s.senderActs (s.sender.cancel true)).1
    unfold FileSender.cancel
    rw [if_neg (by rw [show s.sender.busy = true from hends]; decide)]
    exact over_of_endsInCancel rfl (s.sender.abort_cancels .cancelled)
  | pump ios =>
    refine over_of_endsInCancel ?_ (FileSender.pump_cancels hends.1 hends.2 htaken)
    unfold FileSender.busy
    rw [hends.2]
    rfl
  | deliverToSender takesCancel =>
    rcases hends with ⟨message, rest, ack, hqueue, hstate, hparse, hbatch, hreason, hturn⟩
    rw [show takesCancel = true from htaken]
    show Over _ (s.deliverToSender true).1
    unfold deliverToSender
    rw [hqueue]
    dsimp only
    have habort : s.sender.handleMessage message true = s.sender.abort .corrupt true :=
      FileSender.handleMessage_of_ack_mismatch hstate hparse hbatch hreason hturn
    rw [habort]
    exact over_of_endsInCancel rfl (s.sender.abort_cancels .corrupt)
  | offer _ _ _ => exact hends.elim
  | senderLinkLost => exact hends.elim
  | deliverToReceiver _ => exact hends.elim
  | receiverCall _ => exact hends.elim

/-- A sender that is in no batch ignores messages. -/
theorem Over.quiet {s : FileLink} {batchId : UInt32} (h : Over batchId s) :
    Over batchId (s.senderActs (s.sender, [])).1 := by
  refine ⟨h.idle, ?_⟩
  show (∃ before message reason, s.toReceiver ++ [] = before ++ [message] ∧ _) ∨
    (s.toReceiver ++ [] = [] ∧ _)
  rw [List.append_nil]
  exact h.told

/-- The step lemma. -/
theorem Over.step {s : FileLink} {batchId : UInt32} (h : Over batchId s) {a : FileLinkInput}
    (ha : a.isOffer = false) : Over batchId (fileLink.step s a).1 := by
  cases a with
  | offer _ _ _ => cases ha
  | pump ios =>
    show Over batchId (s.senderActs (s.sender.pump ios)).1
    have hstate : s.sender.state ≠ .sending := by
      intro hsending
      have hidle := h.idle
      simp [FileSender.busy, hsending] at hidle
    rw [FileSender.pump_of_not_sending hstate]
    exact h.quiet
  | cancel takesCancel =>
    show Over batchId (s.senderActs (s.sender.cancel takesCancel)).1
    unfold FileSender.cancel
    rw [if_pos (by rw [h.idle]; rfl)]
    exact h.quiet
  | senderLinkLost =>
    show Over batchId (s.senderActs s.sender.linkLost).1
    unfold FileSender.linkLost
    rw [if_pos (by rw [h.idle]; rfl)]
    exact h.quiet
  | deliverToSender takesCancel =>
    show Over batchId (s.deliverToSender takesCancel).1
    unfold deliverToSender
    split
    · exact h
    · next message rest _ =>
      rw [FileSender.handleMessage_of_not_busy h.idle]
      exact Over.quiet (s := { s with toSender := rest }) ⟨h.idle, h.told⟩
  | deliverToReceiver cb =>
    show Over batchId (s.deliverToReceiver cb).1
    unfold deliverToReceiver
    split
    · exact h
    · next message rest hqueue =>
      refine ⟨h.idle, ?_⟩
      rcases h.told with ⟨before, last, reason, hlast, hparse⟩ | ⟨hnone, -⟩
      · rw [hqueue] at hlast
        cases before with
        | nil =>
          -- the message is the cancel
          right
          rw [List.nil_append, List.cons.injEq] at hlast
          refine ⟨hlast.2, ?_⟩
          have hstep := receiver_step s.receiver (.handleMessage message cb)
          rw [show FileReceiverCall.message? (.handleMessage message cb) =
            some (.cancel ⟨batchId, reason⟩) from by rw [hlast.1]; exact hparse] at hstep
          exact FileReceiver.clear_of_cancel hstep
        | cons first before =>
          left
          rw [List.cons_append, List.cons.injEq] at hlast
          exact ⟨before, last, reason, hlast.2, hparse⟩
      · rw [hqueue] at hnone
        cases hnone
  | receiverCall call =>
    show Over batchId (if call.isLocal then s.receiverActs (fileReceiver.step s.receiver call)
      else (s, [])).1
    split
    · next hlocal =>
      refine ⟨h.idle, h.told.imp_right ?_⟩
      rintro ⟨hnone, hclear⟩
      refine ⟨hnone, hclear.step ?_⟩
      have hstep := receiver_step s.receiver call
      cases call with
      | handleMessage _ _ => cases hlocal
      | setAccepting _ _ => exact hstep
      | linkLost _ => exact hstep
      | setLimits _ => exact hstep
    · exact h

/-- The receiver on the link keeps a ledger of its files. -/
theorem tracks_run (inputs : List FileLinkInput) :
    ∃ n, (fileLink.run {} inputs).1.receiver.Tracks n := by
  refine Machine.run_invariant' (fun (s : FileLink) _ => ∃ n, s.receiver.Tracks n)
    ⟨_, FileReceiver.init_tracks⟩ ?_ inputs
  rintro s - a ⟨n, h⟩
  cases a with
  | deliverToReceiver cb =>
    show ∃ n, (s.deliverToReceiver cb).1.receiver.Tracks n
    unfold deliverToReceiver
    split
    · exact ⟨n, h⟩
    · next message _ _ => exact ⟨_, (FileReceiver.step_passes h (.handleMessage message cb)).2⟩
  | receiverCall call =>
    show ∃ n, (if call.isLocal then s.receiverActs (fileReceiver.step s.receiver call)
      else (s, [])).1.receiver.Tracks n
    split
    · exact ⟨_, (FileReceiver.step_passes h call).2⟩
    · exact ⟨n, h⟩
  | deliverToSender takesCancel =>
    show ∃ n, (s.deliverToSender takesCancel).1.receiver.Tracks n
    unfold deliverToSender
    split <;> exact ⟨n, h⟩
  | offer _ _ _ => exact ⟨n, h⟩
  | pump _ => exact ⟨n, h⟩
  | cancel _ => exact ⟨n, h⟩
  | senderLinkLost => exact ⟨n, h⟩

end FileLink

/-- In every run in which the sender ends a batch by a cancel that is taken: when no message is
left on the link, the receiver is not in the batch and has no file of it open. -/
theorem fileLink_cancelled (before after : List FileLinkInput) (c : FileLinkInput)
    (hends : (fileLink.run {} before).1.EndsBatch c)
    (htaken : (fileLink.run {} before).1.CancelTaken c)
    (hoffers : ∀ a ∈ after, a.isOffer = false)
    (hdelivered : (fileLink.run {} (before ++ c :: after)).1.toReceiver = []) :
    ¬ ((fileLink.run {} (before ++ c :: after)).1.receiver.batchId =
          (fileLink.run {} before).1.sender.batchId ∧
        ((fileLink.run {} (before ++ c :: after)).1.receiver.state = .receiving ∨
          (fileLink.run {} (before ++ c :: after)).1.receiver.fileOpen = true)) := by
  have hover : ∀ part, (∀ a ∈ part, a.isOffer = false) →
      FileLink.Over (fileLink.run {} before).1.sender.batchId
        (fileLink.run {} (before ++ [c] ++ part)).1 := by
    intro part
    induction part using List.reverseRecOn with
    | nil =>
      intro _
      rw [List.append_nil, Machine.run_concat]
      exact FileLink.over_of_endsBatch hends htaken
    | append_singleton part a ih =>
      intro hpart
      rw [← List.append_assoc, Machine.run_concat]
      exact (ih fun a' ha' => hpart a' (List.mem_append_left _ ha')).step
        (hpart a (List.mem_append_right _ (List.mem_singleton_self a)))
  have hend := hover after hoffers
  rcases FileLink.tracks_run (before ++ c :: after) with ⟨n, htracks⟩
  rw [List.append_assoc, List.singleton_append] at hend
  rcases hend.told with ⟨queue, message, reason, hqueue, -⟩ | ⟨-, hclear⟩
  · rw [hdelivered] at hqueue
    exact absurd hqueue.symm (List.append_ne_nil_of_right_ne_nil _ (List.cons_ne_nil _ _))
  · rintro ⟨hbatch, hreceiving | hopen⟩
    · exact hclear ⟨hreceiving, hbatch⟩
    · refine hclear ⟨?_, hbatch⟩
      by_contra hstate
      rw [htracks.idle hstate] at hopen
      cases hopen

/-- The receiver takes an offer of one file. -/
def offeredRun : List FileLinkInput :=
  [.receiverCall (.setAccepting true {}), .offer 7 [⟨1, [0x61]⟩] true, .deliverToReceiver {}]

/-- The cancel is taken and delivered. -/
theorem fileLink_cancelled_offered :
    ¬ ((fileLink.run {} (offeredRun ++ .cancel true :: [.pump [], .deliverToReceiver {}])).1.receiver.batchId =
          (fileLink.run {} offeredRun).1.sender.batchId ∧
        ((fileLink.run {} (offeredRun ++ .cancel true :: [.pump [], .deliverToReceiver {}])).1.receiver.state =
            .receiving ∨
          (fileLink.run {} (offeredRun ++ .cancel true :: [.pump [], .deliverToReceiver {}])).1.receiver.fileOpen =
            true)) := by
  apply fileLink_cancelled offeredRun [.pump [], .deliverToReceiver {}] (.cancel true)
  · show (fileLink.run {} offeredRun).1.sender.busy = true
    decide +kernel
  · rfl
  · intro a ha
    rcases List.mem_cons.mp ha with rfl | ha
    · rfl
    · rw [List.mem_singleton.mp ha]
      rfl
  · decide +kernel

/-- When `send` refuses the cancel the receiver waits on. -/
theorem fileLink_cancel_refused :
    ¬ ∀ (before after : List FileLinkInput) (c : FileLinkInput),
      (fileLink.run {} before).1.EndsBatch c → (∀ a ∈ after, a.isOffer = false) →
      (fileLink.run {} (before ++ c :: after)).1.toReceiver = [] →
      ¬ ((fileLink.run {} (before ++ c :: after)).1.receiver.batchId =
            (fileLink.run {} before).1.sender.batchId ∧
          ((fileLink.run {} (before ++ c :: after)).1.receiver.state = .receiving ∨
            (fileLink.run {} (before ++ c :: after)).1.receiver.fileOpen = true)) := by
  intro h
  have hbusy : (fileLink.run {} offeredRun).1.sender.busy = true := by decide +kernel
  refine h offeredRun [.pump []] (.cancel false) hbusy ?_ (by decide +kernel) ⟨by decide +kernel, .inl ?_⟩
  · intro a ha
    rw [List.mem_singleton.mp ha]
    rfl
  · decide +kernel

end Deskhub
