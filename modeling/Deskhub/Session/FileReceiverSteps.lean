import Deskhub.Session.FileBrackets
import Deskhub.Session.FileLink

/-!
# What a call does to a file receiver

Five cases: nothing of note, the batch fails, a batch is accepted, a chunk is
written, a file is closed to be kept. Each says what the write log records and
which acknowledgements go out.
-/

namespace Deskhub

open FileReceiver

namespace WriteLog

/-- Record the callbacks of one receiver call. -/
def recordAll (l : WriteLog) (batchId : UInt32) (es : List FileReceiverEvent) : WriteLog :=
  (es.map (FileLinkEvent.receiver batchId)).foldl record l

@[simp] theorem recordAll_nil (l : WriteLog) (b : UInt32) : l.recordAll b [] = l := rfl

@[simp] theorem recordAll_cons (l : WriteLog) (b : UInt32) (e : FileReceiverEvent)
    (es : List FileReceiverEvent) :
    l.recordAll b (e :: es) = (l.record (.receiver b e)).recordAll b es := rfl

@[simp] theorem recordAll_append (l : WriteLog) (b : UInt32) (xs ys : List FileReceiverEvent) :
    l.recordAll b (xs ++ ys) = (l.recordAll b xs).recordAll b ys := by
  simp [recordAll, List.foldl_append]

/-- Reports, lines and messages are not recorded. -/
theorem recordAll_quiet {es : List FileReceiverEvent} (h : ∀ e ∈ es, Quiet e) (l : WriteLog)
    (b : UInt32) : l.recordAll b es = l := by
  induction es with
  | nil => rfl
  | cons e es ih =>
    have hrest := ih (fun e' he' => h e' (by simp [he']))
    have he := h e (by simp)
    cases e with
    | send message => exact hrest
    | progress p => exact hrest
    | audit batchId what detail => exact hrest
    | opened _ _ _ _ => exact he.elim
    | wrote _ _ _ => exact he.elim
    | closed _ _ _ => exact he.elim

end WriteLog

/-- No message among the callbacks acknowledges a file. -/
def AcksNone (es : List FileReceiverEvent) : Prop :=
  ∀ d ∈ answeredMessages es, ∀ b i, FileMsg.parse d ≠ some (.ack ⟨b, i, .accepted⟩)

theorem answeredMessages_append (xs ys : List FileReceiverEvent) :
    answeredMessages (xs ++ ys) = answeredMessages xs ++ answeredMessages ys :=
  List.filterMap_append

theorem AcksNone.append {xs ys : List FileReceiverEvent} (hx : AcksNone xs) (hy : AcksNone ys) :
    AcksNone (xs ++ ys) := by
  intro d hd
  rw [answeredMessages_append] at hd
  rcases List.mem_append.mp hd with hd | hd
  · exact hx d hd
  · exact hy d hd

/-- Callbacks that send nothing acknowledge nothing. -/
theorem acksNone_of_silent {es : List FileReceiverEvent} (h : answeredMessages es = []) :
    AcksNone es := by
  intro d hd
  rw [h] at hd
  cases hd

/-- A message that reads back as something else is no acknowledgement. -/
theorem acksNone_emit {built : Option Bytes} {m : FileMsg}
    (hparse : ∀ d, built = some d → FileMsg.parse d = some m)
    (hm : ∀ b i, m ≠ .ack ⟨b, i, .accepted⟩) : AcksNone (emit built) := by
  intro d hd b i hack
  cases hbuilt : built with
  | none => simp [emit, hbuilt, answeredMessages] at hd
  | some d' =>
    obtain rfl : d = d' := by simpa [emit, hbuilt, answeredMessages] using hd
    rw [hparse d hbuilt] at hack
    exact hm b i (Option.some.inj hack)

theorem acksNone_accept (m : FileAccept) : AcksNone (emit (buildFileAccept kMaxRecordSize m)) :=
  acksNone_emit (m := .accept m) (fun _ h => FileMsg.parse_build (m := .accept m) trivial h)
    (by simp)

theorem acksNone_cancel (m : FileCancel) : AcksNone (emit (buildFileCancel kMaxRecordSize m)) :=
  acksNone_emit (m := .cancel m) (fun _ h => FileMsg.parse_build (m := .cancel m) trivial h)
    (by simp)

/-- What is acknowledged is what `Ack` was called for. -/
theorem ack_parse {s : FileReceiver} {reason : TransferReason} {d : Bytes}
    (hd : d ∈ answeredMessages (s.ack reason)) {b : UInt32} {i : UInt16} {r : TransferReason}
    (hparse : FileMsg.parse d = some (.ack ⟨b, i, r⟩)) (hindex : s.index < kMaxTransferFiles) :
    b = s.batchId ∧ i.toNat = s.index ∧ r = reason := by
  cases hbuild : buildFileAck kMaxRecordSize ⟨s.batchId, UInt16.ofNat s.index, reason⟩ with
  | none => simp [FileReceiver.ack, emit, hbuild, answeredMessages] at hd
  | some d' =>
    obtain rfl : d = d' := by simpa [FileReceiver.ack, emit, hbuild, answeredMessages] using hd
    have hmax : kMaxTransferFiles = 32 := rfl
    have hi : (UInt16.ofNat s.index).toNat = s.index := by
      rw [UInt16.toNat_ofNat', Nat.mod_eq_of_lt (by omega)]
    have hback : FileMsg.parse d = some (.ack ⟨s.batchId, UInt16.ofNat s.index, reason⟩) := by
      refine FileMsg.parse_build (m := .ack ⟨s.batchId, UInt16.ofNat s.index, reason⟩) ?_ hbuild
      show (UInt16.ofNat s.index).toNat < kMaxTransferFiles
      omega
    rw [hparse] at hback
    simp only [Option.some.injEq, FileMsg.ack.injEq, FileAck.mk.injEq] at hback
    rcases hback with ⟨rfl, rfl, rfl⟩
    exact ⟨rfl, hi, rfl⟩

/-- The messages that move a receiver that is in their batch. -/
def FileMsg.Drives : FileMsg → Prop
  | .chunk _ | .done _ | .cancel _ => True
  | _ => False

/-- A receiver in the middle of a batch is not driven by `m`. -/
def NotDriven (s : FileReceiver) (m : Option FileMsg) : Prop :=
  s.state = .receiving → ∀ m', m = some m' → m'.batchId = s.batchId → ¬m'.Drives

/-- What a call does, with the message it delivers. -/
inductive ReceiverStep (s : FileReceiver) (m : Option FileMsg) :
    FileReceiver × List FileReceiverEvent → Prop where
  /-- Nothing of note. -/
  | stays (s' : FileReceiver) (es : List FileReceiverEvent)
      (hstate : s' = { s with accepting := s'.accepting, limits := s'.limits })
      (hidle : NotDriven s m)
      (hlog : ∀ l b, WriteLog.recordAll l b es = l) (hacks : AcksNone es) :
      ReceiverStep s m (s', es)
  /-- The batch is over without success. -/
  | fails (s' : FileReceiver) (es : List FileReceiverEvent) (hstate : s.state = .receiving)
      (hstate' : s'.state = .failed) (hlog : ∀ l b, (WriteLog.recordAll l b es).kept = l.kept)
      (hacks : AcksNone es) : ReceiverStep s m (s', es)
  /-- A batch begins. -/
  | accepts (s' : FileReceiver) (es : List FileReceiverEvent) (o : FileOffer)
      (hm : m = some (.offer o)) (hstate : s.state ≠ .receiving) (hstate' : s'.state = .receiving)
      (hbatch : s'.batchId = o.batchId ∧ s'.files = o.files ∧ s'.index = 0 ∧ s'.received = 0 ∧
        s'.crc = .reset ∧ s'.fileOpen = false)
      (hlog : ∀ l b, WriteLog.recordAll l b es = l) (hacks : AcksNone es) :
      ReceiverStep s m (s', es)
  /-- A chunk goes to the open file. -/
  | writes (s' : FileReceiver) (es : List FileReceiverEvent) (c : FileChunkView)
      (hm : m = some (.chunk c)) (hbatch : c.batchId = s.batchId) (hstate : s.state = .receiving)
      (hplace : c.fileIndex.toNat = s.index ∧ c.offset.toNat = s.received)
      (hstate' : s' = { s with
        stored := s'.stored
        fileOpen := true
        crc := s.crc.update c.data
        received := s.received + c.data.length
        batchReceived := s.batchReceived + c.data.length })
      (hlog : ∀ l b, WriteLog.recordAll l b es =
        { l with written := (if s.fileOpen then l.written else []) ++ c.data })
      (hacks : AcksNone es) : ReceiverStep s m (s', es)
  /-- A file is closed to be kept, and was not stored. -/
  | keepsNot (s' : FileReceiver) (es : List FileReceiverEvent) (d : FileDone)
      (hm : m = some (.done d)) (hbatch : d.batchId = s.batchId) (hstate : s.state = .receiving)
      (hplace : d.fileIndex.toNat = s.index ∧
        s.received = (fileAt s.files s.index).size.toNat)
      (hstate' : s'.state = .failed)
      (hlog : ∀ l b, (WriteLog.recordAll l b es).kept =
        l.kept ++ [⟨b, s.index, if s.fileOpen then l.written else [], false⟩])
      (hacks : AcksNone es) : ReceiverStep s m (s', es)
  /-- A file is kept. -/
  | keeps (s' : FileReceiver) (es : List FileReceiverEvent) (d : FileDone)
      (hm : m = some (.done d)) (hbatch : d.batchId = s.batchId) (hstate : s.state = .receiving)
      (hplace : d.fileIndex.toNat = s.index ∧
        s.received = (fileAt s.files s.index).size.toNat)
      (hnext : s'.batchId = s.batchId ∧ s'.files = s.files ∧ s'.index = s.index + 1 ∧
        s'.received = 0 ∧ s'.crc = .reset ∧ s'.fileOpen = false)
      (hstate' : s'.state = if s.files.length ≤ s.index + 1 then .done else .receiving)
      (hlog : ∀ l b, (WriteLog.recordAll l b es).kept =
        l.kept ++ [⟨b, s.index, if s.fileOpen then l.written else [], true⟩])
      (hacks : ∀ a ∈ answeredMessages es, ∀ b i,
        FileMsg.parse a = some (.ack ⟨b, i, .accepted⟩) → b = s.batchId ∧ i.toNat = s.index) :
      ReceiverStep s m (s', es)

/-! ## Aborts -/

theorem acksNone_audit (s : FileReceiver) (what : String) (detail : Bytes) :
    AcksNone (s.audit what detail) := acksNone_of_silent rfl

theorem acksNone_report (s : FileReceiver) : AcksNone s.report := acksNone_of_silent rfl

theorem closeCurrent_acksNone (s : FileReceiver) (keep : Bool) (cb : FileCallbackResults) :
    AcksNone (s.closeCurrent keep cb).2.1 := by
  apply acksNone_of_silent
  unfold closeCurrent
  split <;> rfl

theorem closeCurrent_state (s : FileReceiver) (keep : Bool) (cb : FileCallbackResults) :
    (s.closeCurrent keep cb).1 = { s with fileOpen := false } := by
  unfold closeCurrent
  cases hopen : s.fileOpen with
  | false =>
    cases s
    simp_all
  | true => rfl

/-- Closing a file without keeping it keeps nothing. -/
theorem closeCurrent_false_kept (s : FileReceiver) (cb : FileCallbackResults) (l : WriteLog)
    (b : UInt32) : (l.recordAll b (s.closeCurrent false cb).2.1).kept = l.kept := by
  unfold closeCurrent
  split <;> rfl

theorem abort_state (s : FileReceiver) (reason : TransferReason) (tellPeer : Bool)
    (cb : FileCallbackResults) : (s.abort reason tellPeer cb).1.state = .failed := by
  simp [abort]

theorem abort_acksNone (s : FileReceiver) (reason : TransferReason) (tellPeer : Bool)
    (cb : FileCallbackResults) : AcksNone (s.abort reason tellPeer cb).2 := by
  unfold abort
  refine AcksNone.append (AcksNone.append (AcksNone.append (closeCurrent_acksNone s false cb) ?_)
    (acksNone_audit _ _ _)) (acksNone_report _)
  split
  · exact acksNone_cancel _
  · exact acksNone_of_silent rfl

theorem abort_kept (s : FileReceiver) (reason : TransferReason) (tellPeer : Bool)
    (cb : FileCallbackResults) (l : WriteLog) (b : UInt32) :
    (l.recordAll b (s.abort reason tellPeer cb).2).kept = l.kept := by
  unfold abort
  simp only [WriteLog.recordAll_append]
  rw [WriteLog.recordAll_quiet (quiet_report _), WriteLog.recordAll_quiet (quiet_audit _ _ _),
    WriteLog.recordAll_quiet]
  · exact closeCurrent_false_kept s cb l b
  · intro e he
    split at he
    · exact quiet_emit_cancel _ e he
    · cases he

/-- An abort of a batch, whatever was recorded before it without keeping a file. -/
theorem ReceiverStep.abort {s s₁ : FileReceiver} {m : Option FileMsg}
    {es : List FileReceiverEvent} (hstate : s.state = .receiving)
    (hlog : ∀ l b, (WriteLog.recordAll l b es).kept = l.kept) (hacks : AcksNone es)
    (reason : TransferReason) (tellPeer : Bool) (cb : FileCallbackResults) :
    ReceiverStep s m ((s₁.abort reason tellPeer cb).1, es ++ (s₁.abort reason tellPeer cb).2) := by
  refine .fails _ _ hstate (abort_state _ _ _ _) ?_ (hacks.append (abort_acksNone _ _ _ _))
  intro l b
  rw [WriteLog.recordAll_append, abort_kept, hlog]

/-- An abort right away. -/
theorem ReceiverStep.abort' {s s₁ : FileReceiver} {m : Option FileMsg}
    (hstate : s.state = .receiving) (reason : TransferReason) (tellPeer : Bool)
    (cb : FileCallbackResults) : ReceiverStep s m (s₁.abort reason tellPeer cb) :=
  .fails _ _ hstate (abort_state s₁ reason tellPeer cb)
    (fun l b => abort_kept s₁ reason tellPeer cb l b) (abort_acksNone s₁ reason tellPeer cb)

theorem ReceiverStep.ignores {s : FileReceiver} {m : Option FileMsg} (h : NotDriven s m) :
    ReceiverStep s m (s, []) :=
  .stays s [] (by cases s; rfl) h (fun _ _ => rfl) (acksNone_of_silent rfl)

theorem NotDriven.none (s : FileReceiver) : NotDriven s none := by
  intro _ m' hm
  cases hm

/-- A message of another batch does not drive. -/
theorem NotDriven.other {s : FileReceiver} {m : FileMsg} (h : m.batchId ≠ s.batchId) :
    NotDriven s (some m) := by
  intro _ m' hm hbatch
  cases hm
  exact absurd hbatch h

/-- Out of a batch nothing drives. -/
theorem NotDriven.over {s : FileReceiver} {m : Option FileMsg} (h : s.state ≠ .receiving) :
    NotDriven s m :=
  fun hstate => absurd hstate h

theorem NotDriven.notDrives {s : FileReceiver} {m : Option FileMsg}
    (h : ∀ m', m = some m' → ¬m'.Drives) : NotDriven s m :=
  fun _ m' hm _ => h m' hm

/-- `ensureOpen` leaves the file open, or aborts the batch. -/
theorem ensureOpen_cases (s : FileReceiver) (cb : FileCallbackResults) :
    AcksNone (s.ensureOpen cb).2.1 ∧
    ((s.ensureOpen cb).2.2 = true ∧
        (∃ stored, (s.ensureOpen cb).1 = { s with stored := stored, fileOpen := true }) ∧
        (∀ l b, WriteLog.recordAll l b (s.ensureOpen cb).2.1 =
          { l with written := if s.fileOpen then l.written else [] }) ∨
      (s.ensureOpen cb).2.2 = false ∧ (s.ensureOpen cb).1.state = .failed ∧
        ∀ l b, (WriteLog.recordAll l b (s.ensureOpen cb).2.1).kept = l.kept) := by
  unfold ensureOpen
  cases hopen : s.fileOpen with
  | true =>
    refine ⟨acksNone_of_silent rfl, Or.inl ⟨rfl, ⟨s.stored, ?_⟩, fun l b => rfl⟩⟩
    cases s
    simp_all
  | false =>
    simp only [Bool.false_eq_true, if_false]
    unfold openCurrent
    by_cases hstored : cb.stored = []
    · simp only [hstored, if_true]
      refine ⟨?_, Or.inr ⟨trivial, abort_state _ _ _ _, ?_⟩⟩
      · rw [← List.singleton_append]
        exact AcksNone.append (acksNone_of_silent rfl) (abort_acksNone _ _ _ _)
      · intro l b
        rw [WriteLog.recordAll_cons, abort_kept]
        rfl
    · simp only [if_neg hstored]
      exact ⟨acksNone_of_silent rfl, Or.inl ⟨trivial, ⟨_, rfl⟩, fun l b => rfl⟩⟩

/-! ## One handler at a time -/

theorem onOffer_step (s : FileReceiver) (payload : Bytes) :
    ReceiverStep s ((parseFileOffer payload).map .offer) (s.onOffer payload) := by
  unfold onOffer
  cases hparse : parseFileOffer payload with
  | none => exact .ignores (.none s)
  | some offer =>
    by_cases hverdict : (s.admitOffer offer).1 = .accepted
    · simp only [hverdict, ne_eq, not_true_eq_false, if_false]
      have hidle : s.state ≠ .receiving := by
        unfold admitOffer at hverdict
        grind
      refine .accepts _ _ offer rfl hidle rfl ⟨rfl, rfl, rfl, rfl, rfl, rfl⟩ ?_ ?_
      · intro l b
        simp only [WriteLog.recordAll_append]
        rw [WriteLog.recordAll_quiet (quiet_report _), WriteLog.recordAll_quiet (quiet_audit _ _ _)]
        cases buildFileAccept kMaxRecordSize ⟨offer.batchId, .accepted⟩ with
        | none => simp [emit]
        | some d => simp [emit, WriteLog.record]
      · exact AcksNone.append (AcksNone.append (acksNone_accept _) (acksNone_audit _ _ _))
          (acksNone_report _)
    · simp only [hverdict, ne_eq, not_false_eq_true, if_true]
      refine .stays _ _ (by cases s; rfl) (.notDrives ?_) (fun l b => ?_) ?_
      · rintro m' hm
        cases hm
        exact id
      · exact WriteLog.recordAll_quiet (quiet_refuse _ _ hverdict) l b
      · exact AcksNone.append (acksNone_accept _) (acksNone_of_silent rfl)

theorem onChunk_step (s : FileReceiver) (payload : Bytes) (cb : FileCallbackResults) :
    ReceiverStep s ((parseFileChunk payload).map .chunk) (s.onChunk payload cb) := by
  unfold onChunk
  cases hparse : parseFileChunk payload with
  | none => exact .ignores (.none s)
  | some chunk =>
    simp only
    split
    · next hbatch => exact .ignores (.other hbatch)
    · next hbatch =>
      split
      · next hstate => exact .ignores (.over hstate)
      · next hstate =>
        have hbatch : chunk.batchId = s.batchId := not_not.mp hbatch
        have hstate : s.state = .receiving := not_not.mp hstate
        split
        · exact .abort' hstate _ _ cb
        · next hplace =>
          push Not at hplace
          split
          · exact .abort' hstate _ _ cb
          · rcases ensureOpen_cases s cb with ⟨hacks, ⟨hok, ⟨stored, hs⟩, hlog⟩ | ⟨hok, hfailed, hlog⟩⟩
            · simp only [hok, Bool.not_true, Bool.false_eq_true, if_false]
              rw [hs]
              cases hwritten : cb.written with
              | false =>
                -- the write failed, and so does the batch
                simp only [Bool.not_false, if_true]
                rw [← List.singleton_append, ← List.append_assoc]
                refine ReceiverStep.abort hstate ?_ (hacks.append (acksNone_of_silent rfl)) _ _ cb
                intro l b
                rw [WriteLog.recordAll_append, hlog]
                rfl
              | true =>
                simp only [Bool.not_true, Bool.false_eq_true, if_false]
                refine .writes _ _ chunk rfl hbatch hstate hplace rfl ?_ ?_
                · intro l b
                  rw [WriteLog.recordAll_append, hlog, WriteLog.recordAll_cons,
                    WriteLog.recordAll_quiet (quiet_report _)]
                  rfl
                · exact hacks.append (acksNone_of_silent rfl)
            · simp only [hok, Bool.not_false, if_true]
              exact .fails _ _ hstate hfailed hlog hacks

/-- Closing a file to keep it keeps what was written to it. -/
theorem closeCurrent_true_kept {s : FileReceiver} (hopen : s.fileOpen = true)
    (cb : FileCallbackResults) (l : WriteLog) (b : UInt32) :
    (l.recordAll b (s.closeCurrent true cb).2.1).kept =
      l.kept ++ [⟨b, s.index, l.written, (s.closeCurrent true cb).2.2⟩] := by
  simp [closeCurrent, hopen, WriteLog.record]

theorem acksNone_ack {s : FileReceiver} {reason : TransferReason} (hreason : reason ≠ .accepted)
    (hindex : s.index < kMaxTransferFiles) : AcksNone (s.ack reason) := by
  intro d hd b i hparse
  exact hreason (ack_parse hd hparse hindex).2.2.symm

/-- The acknowledgement of a stored file is the only one among its callbacks. -/
theorem acks_stored {s : FileReceiver} {what : String} {detail : Bytes}
    {before after : List FileReceiverEvent} (hbefore : AcksNone before) (hafter : AcksNone after)
    (hindex : s.index < kMaxTransferFiles) {a : Bytes}
    (ha : a ∈ answeredMessages (before ++ (s.audit what detail ++ s.ack .accepted) ++ after))
    {b : UInt32} {i : UInt16} (hack : FileMsg.parse a = some (.ack ⟨b, i, .accepted⟩)) :
    b = s.batchId ∧ i.toNat = s.index := by
  simp only [answeredMessages_append, List.mem_append] at ha
  rcases ha with (ha | ha | ha) | ha
  · exact absurd hack (hbefore a ha b i)
  · exact absurd hack (acksNone_audit s what detail a ha b i)
  · exact ⟨(ack_parse ha hack hindex).1, (ack_parse ha hack hindex).2.1⟩
  · exact absurd hack (hafter a ha b i)

theorem parseFileDone_index {payload : Bytes} {m : FileDone} (h : parseFileDone payload = some m) :
    m.fileIndex.toNat < kMaxTransferFiles := by
  unfold parseFileDone at h
  grind

theorem onDone_step (s : FileReceiver) (payload : Bytes) (cb : FileCallbackResults) :
    ReceiverStep s ((parseFileDone payload).map .done) (s.onDone payload cb) := by
  unfold onDone
  cases hparse : parseFileDone payload with
  | none => exact .ignores (.none s)
  | some done =>
    simp only
    split
    · next hbatch => exact .ignores (.other hbatch)
    · next hbatch =>
      split
      · next hstate => exact .ignores (.over hstate)
      · next hstate =>
        have hbatch : done.batchId = s.batchId := not_not.mp hbatch
        have hstate : s.state = .receiving := not_not.mp hstate
        split
        · exact .abort' hstate _ _ cb
        · next hplace =>
          push Not at hplace
          have hindex : s.index < kMaxTransferFiles := hplace.1 ▸ parseFileDone_index hparse
          rcases ensureOpen_cases s cb with ⟨hacks, ⟨hok, ⟨stored, hs⟩, hlog⟩ | ⟨hok, hfailed, hlog⟩⟩
          · simp only [hok, Bool.not_true, Bool.false_eq_true, if_false]
            rw [hs]
            generalize hs₁ : ({ s with stored := stored, fileOpen := true } : FileReceiver) = s₁
            have hopen : s₁.fileOpen = true := by rw [← hs₁]
            have hat : s₁.index = s.index := by rw [← hs₁]
            have hindex₁ : ({ s₁ with fileOpen := false } : FileReceiver).index < kMaxTransferFiles :=
              hat ▸ hindex
            -- what the log holds once the file is closed to be kept
            have hkept : ∀ l b, (WriteLog.recordAll l b ((s.ensureOpen cb).2.1 ++
                (s₁.closeCurrent true cb).2.1)).kept = l.kept ++
                  [⟨b, s.index, if s.fileOpen then l.written else [], (s₁.closeCurrent true cb).2.2⟩] := by
              intro l b
              rw [WriteLog.recordAll_append, closeCurrent_true_kept hopen, hlog, hat]
            split
            · -- the checksum differs: the file is closed and not kept
              refine ReceiverStep.abort hstate ?_ ?_ _ _ cb
              · intro l b
                simp only [WriteLog.recordAll_append]
                rw [WriteLog.recordAll_quiet (quiet_ack _ _), WriteLog.recordAll_quiet (quiet_audit _ _ _),
                  closeCurrent_false_kept, hlog]
              · refine ((hacks.append (closeCurrent_acksNone _ _ _)).append
                  (acksNone_audit _ _ _)).append (acksNone_ack (by simp) ?_)
                rw [closeCurrent_state]
                exact hindex₁
            · cases hclosed : (s₁.closeCurrent true cb).2.2 with
              | false =>
                simp only [Bool.not_false, if_true]
                refine .keepsNot _ _ done rfl hbatch hstate hplace (abort_state _ _ _ _) ?_ ?_
                · intro l b
                  rw [WriteLog.recordAll_append, abort_kept, WriteLog.recordAll_append,
                    WriteLog.recordAll_quiet (quiet_ack _ _), WriteLog.recordAll_append,
                    WriteLog.recordAll_quiet (quiet_audit _ _ _), hkept, hclosed]
                · refine (((hacks.append (closeCurrent_acksNone _ _ _)).append
                    (acksNone_audit _ _ _)).append (acksNone_ack (by simp) ?_)).append
                      (abort_acksNone _ _ _ _)
                  rw [closeCurrent_state]
                  exact hindex₁
              | true =>
                simp only [Bool.not_true, Bool.false_eq_true, if_false]
                rw [closeCurrent_state]
                have hpre := hacks.append (closeCurrent_acksNone s₁ true cb)
                have hnext : s₁.batchId = s.batchId ∧ s₁.files = s.files := by
                  rw [← hs₁]
                  exact ⟨rfl, rfl⟩
                have hplace₁ : s₁.files.length = s.files.length ∧ s₁.index + 1 = s.index + 1 := by
                  rw [← hs₁]
                  exact ⟨rfl, rfl⟩
                split
                · next hlast =>
                  have hlast : s.files.length ≤ s.index + 1 := hplace₁.1 ▸ hplace₁.2 ▸ hlast
                  refine .keeps _ _ done rfl hbatch hstate hplace
                    ⟨hnext.1, hnext.2, hplace₁.2, rfl, rfl, rfl⟩ (by rw [if_pos hlast]) ?_ ?_
                  · intro l b
                    simp only [WriteLog.recordAll_append]
                    rw [WriteLog.recordAll_quiet (quiet_report _),
                      WriteLog.recordAll_quiet (quiet_audit _ _ _),
                      WriteLog.recordAll_quiet (quiet_ack _ _),
                      WriteLog.recordAll_quiet (quiet_audit _ _ _),
                      ← WriteLog.recordAll_append, hkept, hclosed]
                  · intro a ha b i hack
                    rw [List.append_assoc] at ha
                    have := acks_stored hpre
                      (AcksNone.append (acksNone_audit _ _ _) (acksNone_report _)) hindex₁ ha hack
                    exact ⟨this.1.trans hnext.1, this.2.trans hat⟩
                · next hlast =>
                  have hlast : ¬s.files.length ≤ s.index + 1 := hplace₁.1 ▸ hplace₁.2 ▸ hlast
                  refine .keeps _ _ done rfl hbatch hstate hplace
                    ⟨hnext.1, hnext.2, hplace₁.2, rfl, rfl, rfl⟩ ?_ ?_ ?_
                  · rw [if_neg hlast, ← hs₁]
                    exact hstate
                  · intro l b
                    simp only [WriteLog.recordAll_append]
                    rw [WriteLog.recordAll_quiet (quiet_report _),
                      WriteLog.recordAll_quiet (quiet_ack _ _),
                      WriteLog.recordAll_quiet (quiet_audit _ _ _),
                      ← WriteLog.recordAll_append, hkept, hclosed]
                  · intro a ha b i hack
                    have := acks_stored hpre (acksNone_report _) hindex₁ ha hack
                    exact ⟨this.1.trans hnext.1, this.2.trans hat⟩
          · simp only [hok, Bool.not_false, if_true]
            exact .fails _ _ hstate hfailed hlog hacks

theorem onCancel_step (s : FileReceiver) (payload : Bytes) (cb : FileCallbackResults) :
    ReceiverStep s ((parseFileCancel payload).map .cancel) (s.onCancel payload cb) := by
  unfold onCancel
  cases hparse : parseFileCancel payload with
  | none => exact .ignores (.none s)
  | some cancel =>
    simp only
    split
    · next hbatch => exact .ignores (.other hbatch)
    · cases hbusy : s.busy with
      | false => exact .ignores (.over (of_decide_eq_false hbusy))
      | true => exact .abort' (of_decide_eq_true hbusy) _ _ cb

theorem receiver_step (s : FileReceiver) (call : FileReceiverCall) :
    ReceiverStep s call.message? (fileReceiver.step s call) := by
  cases call with
  | handleMessage message cb =>
    show ReceiverStep s (FileMsg.parse message) (s.handleMessage message cb)
    unfold handleMessage FileMsg.parse
    cases parseCommonHeader message with
    | none => exact .ignores (.none s)
    | some header =>
      simp only
      split
      · exact .ignores (.none s)
      · unfold FileMsg.parsePayload
        cases header.type with
        | fileOffer => exact onOffer_step s _
        | fileChunk => exact onChunk_step s _ cb
        | fileDone => exact onDone_step s _ cb
        | fileCancel => exact onCancel_step s _ cb
        | fileAccept | fileAck =>
          refine .ignores (.notDrives ?_)
          intro m' hm
          rcases Option.map_eq_some_iff.mp hm with ⟨_, _, rfl⟩
          exact id
        | _ => exact .ignores (.none s)
  | setAccepting on cb =>
    show ReceiverStep s none (s.setAccepting on cb)
    unfold setAccepting
    cases hbusy : (!on && s.busy) with
    | false =>
      simp only [FileReceiver.busy] at hbusy ⊢
      simp only [hbusy, Bool.false_eq_true, if_false]
      exact .stays _ _ rfl (.none s) (fun _ _ => rfl) (acksNone_of_silent rfl)
    | true =>
      have hstate : s.state = .receiving := by
        simp only [Bool.and_eq_true, FileReceiver.busy, decide_eq_true_eq] at hbusy
        exact hbusy.2
      simp only [FileReceiver.busy] at hbusy ⊢
      simp only [hbusy, if_true]
      exact .abort' hstate _ _ cb
  | linkLost cb =>
    show ReceiverStep s none (s.linkLost cb)
    unfold linkLost
    cases hbusy : s.busy with
    | false => exact .ignores (.none s)
    | true => exact .abort' (of_decide_eq_true hbusy) _ _ cb
  | setLimits limits => exact .stays _ _ rfl (.none s) (fun _ _ => rfl) (acksNone_of_silent rfl)

end Deskhub
