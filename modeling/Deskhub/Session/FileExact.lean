import Deskhub.Session.FileLink

/-!
# A file that is kept is the file that was sent

The messages of one batch are a stream that starts at its offer: each chunk goes
on where the one before ended, each `FileDone` ends the file it is about. The
sender stands at the end of the stream it has sent, the receiver at the end of
the part it has seen, and what lies between is on the link.
-/

namespace Deskhub

/-- A place in a batch: a file index, and the bytes of that file before it. -/
abbrev FilePos := Nat × Nat

section Stream

variable (content : UInt32 → Nat → Bytes)

/-- A file of the batch is as long as its offer says. -/
def Describes (o : FileOffer) : Prop :=
  ∀ i < o.files.length, (fileAt o.files i).size.toNat = (content o.batchId i).length

/-- The place after a message of the batch `o`, if the message belongs there. -/
def streamStep (o : FileOffer) (pos : FilePos) : FileMsg → Option FilePos
  | .chunk m =>
      if m.batchId = o.batchId ∧ pos.1 < o.files.length ∧ m.fileIndex.toNat = pos.1 ∧
          m.offset.toNat = pos.2 ∧
          pos.2 + m.data.length ≤ (content o.batchId pos.1).length ∧
          m.data = ((content o.batchId pos.1).drop pos.2).take m.data.length then
        some (pos.1, pos.2 + m.data.length)
      else none
  | .done m =>
      if m.batchId = o.batchId ∧ pos.1 < o.files.length ∧ m.fileIndex.toNat = pos.1 ∧
          pos.2 = (content o.batchId pos.1).length ∧ m.crc32 = crc32 (content o.batchId pos.1) then
        some (pos.1 + 1, 0)
      else none
  | _ => none

/-- The place after a list of messages. -/
def stream (o : FileOffer) (pos : FilePos) : List FileMsg → Option FilePos
  | [] => some pos
  | m :: rest => (streamStep content o pos m).bind (fun pos => stream o pos rest)

theorem stream_append {o : FileOffer} {pos : FilePos} (xs ys : List FileMsg) :
    stream content o pos (xs ++ ys) =
      (stream content o pos xs).bind (fun pos => stream content o pos ys) := by
  induction xs generalizing pos with
  | nil => rfl
  | cons m xs ih =>
    simp only [List.cons_append, stream]
    cases streamStep content o pos m with
    | none => rfl
    | some pos' => exact ih

/-- The messages of a stream are about its batch, and none is an offer or a cancel. -/
theorem stream_mem {o : FileOffer} {pos pos' : FilePos} {ms : List FileMsg}
    (h : stream content o pos ms = some pos') {m : FileMsg} (hm : m ∈ ms) :
    m.batchId = o.batchId ∧ (∀ o', m ≠ .offer o') ∧ ∀ c, m ≠ .cancel c := by
  induction ms generalizing pos with
  | nil => cases hm
  | cons m' ms ih =>
    simp only [stream, Option.bind_eq_some_iff] at h
    rcases h with ⟨pos₁, hstep, hrest⟩
    rcases List.mem_cons.mp hm with rfl | hm
    · cases m with
      | chunk c =>
        simp only [streamStep] at hstep
        split at hstep
        · next hc => exact ⟨hc.1, by simp, by simp⟩
        · cases hstep
      | done d =>
        simp only [streamStep] at hstep
        split at hstep
        · next hd => exact ⟨hd.1, by simp, by simp⟩
        · cases hstep
      | _ => cases hstep
    · exact ih hrest hm

/-- The messages of the batch `o` so far: its offer, a stream up to `pos`, and a
cancel at the end when the sender gave the batch up. -/
def BatchLog (o : FileOffer) (ms : List FileMsg) (pos : FilePos) (cancelled : Bool) : Prop :=
  ∃ body tail, ms = .offer o :: (body ++ tail) ∧ stream content o (0, 0) body = some pos ∧
    if cancelled then ∃ r, tail = [.cancel ⟨o.batchId, r⟩] else tail = []

theorem BatchLog.offered (o : FileOffer) : BatchLog content o [.offer o] (0, 0) false :=
  ⟨[], [], rfl, rfl, rfl⟩

/-- More of the stream joins a log that was not cancelled. -/
theorem BatchLog.extend {o : FileOffer} {ms new : List FileMsg} {pos pos' : FilePos}
    (h : BatchLog content o ms pos false) (hnew : stream content o pos new = some pos') :
    BatchLog content o (ms ++ new) pos' false := by
  rcases h with ⟨body, tail, rfl, hbody, htail⟩
  have htail : tail = [] := htail
  refine ⟨body ++ new, [], ?_, ?_, rfl⟩
  · simp [htail]
  · rw [stream_append, hbody]
    exact hnew

theorem BatchLog.cancel {o : FileOffer} {ms : List FileMsg} {pos : FilePos}
    (h : BatchLog content o ms pos false) (r : TransferReason) :
    BatchLog content o (ms ++ [.cancel ⟨o.batchId, r⟩]) pos true := by
  rcases h with ⟨body, tail, rfl, hbody, htail⟩
  have htail : tail = [] := htail
  exact ⟨body, [.cancel ⟨o.batchId, r⟩], by simp [htail], hbody, r, rfl⟩

/-- What comes next in a log after its first part: a message of the stream, or the cancel. -/
theorem BatchLog.next {o : FileOffer} {seen ahead : List FileMsg} {m : FileMsg}
    {pos pos' : FilePos} {cancelled : Bool}
    (h : BatchLog content o (.offer o :: (seen ++ m :: ahead)) pos' cancelled)
    (hseen : stream content o (0, 0) seen = some pos) :
    (∃ next, streamStep content o pos m = some next) ∨ ∃ r, m = .cancel ⟨o.batchId, r⟩ := by
  rcases h with ⟨body, tail, hms, hbody, htail⟩
  have hms : seen ++ m :: ahead = body ++ tail := by simpa using hms
  rcases List.append_eq_append_iff.mp hms with ⟨rest, hb, hrest⟩ | ⟨rest, hs, hrest⟩
  · cases rest with
    | nil =>
      -- the stream ends here, so the message is the cancel
      have htail' : tail = m :: ahead := by simpa using hrest.symm
      cases cancelled with
      | false => exact absurd (htail'.symm.trans htail) (by simp)
      | true =>
        rcases htail with ⟨r, hr⟩
        have := htail'.symm.trans hr
        simp only [List.cons.injEq] at this
        exact Or.inr ⟨r, this.1⟩
    | cons m' rest =>
      have hm : m = m' := by
        have := congrArg List.head? hrest
        simpa using this
      rw [hb, stream_append, hseen] at hbody
      simp only [Option.bind_some, stream, Option.bind_eq_some_iff] at hbody
      rcases hbody with ⟨next, hnext, -⟩
      exact Or.inl ⟨next, hm ▸ hnext⟩
  · cases rest with
    | nil =>
      have htail' : tail = m :: ahead := by simpa using hrest
      cases cancelled with
      | false => exact absurd (htail'.symm.trans htail) (by simp)
      | true =>
        rcases htail with ⟨r, hr⟩
        have := htail'.symm.trans hr
        simp only [List.cons.injEq] at this
        exact Or.inr ⟨r, this.1⟩
    | cons m' rest =>
      -- the part that was seen is a stream, so the cancel is not in it
      exfalso
      cases cancelled with
      | false =>
        have : tail = [] := htail
        rw [this] at hrest
        simp at hrest
      | true =>
        rcases htail with ⟨r, hr⟩
        rw [hr] at hrest
        simp only [List.cons_append, List.cons.injEq] at hrest
        have hmem : m' ∈ seen := by
          rw [hs]
          simp
        exact (stream_mem content hseen hmem).2.2 _ hrest.1.symm

/-! ## The sender -/

/-- An offer that went out: its files are the ones it describes, and within bounds. -/
structure OfferOk (o : FileOffer) : Prop where
  describes : Describes content o
  nonempty : o.files ≠ []
  few : o.files.length ≤ kMaxTransferFiles
  small : ∀ i < o.files.length, (fileAt o.files i).size ≤ kMaxTransferFileBytes

/-- The read callback returns a nonempty part of what was asked for, as it stands in
the file. -/
def ReadsContent (batchId : UInt32) (io : ChunkIo) : Prop :=
  ∀ i off want, 0 < want → off + want ≤ (content batchId i).length →
    ∃ n, 0 < n ∧ n ≤ want ∧ io.read i off want = ((content batchId i).drop off).take n

/-- The sender is in the batch `o`, and its checksum is the one of what it has sent
of the current file. -/
structure InBatch (o : FileOffer) (s : FileSender) : Prop where
  id : s.batchId = o.batchId
  files : s.files = o.files
  crc : s.crc = Crc32.reset.update ((content o.batchId s.index).take s.sent)
  sent_le : s.index < o.files.length → s.sent ≤ (content o.batchId s.index).length

/-- What the sender puts on the link while it is in a batch: more of the stream, up
to where it stands afterwards; a cancel may follow when it fails. -/
def SenderMoves (o : FileOffer) (s : FileSender) (r : FileSender × List FileSenderEvent) : Prop :=
  ∃ body tail, (sentMessages r.2).map FileMsg.parse = (body ++ tail).map some ∧
    ((tail = [] ∧ r.1.state = .sending ∧ InBatch content o r.1 ∧ r.1.acked = s.acked ∧
        stream content o (s.index, s.sent) body = some (r.1.index, r.1.sent)) ∨
      (r.1.state = .failed ∧ (∃ pos, stream content o (s.index, s.sent) body = some pos) ∧
        (tail = [] ∨ ∃ reason, tail = [.cancel ⟨o.batchId, reason⟩])))

variable {content}

theorem sentMessages_append (xs ys : List FileSenderEvent) :
    sentMessages (xs ++ ys) = sentMessages xs ++ sentMessages ys :=
  List.filterMap_append

/-- Nothing is sent, and the sender stays where it is. -/
theorem InBatch.stays {o : FileOffer} {s : FileSender} (h : InBatch content o s)
    (hstate : s.state = .sending) : SenderMoves content o s (s, []) :=
  ⟨[], [], rfl, Or.inl ⟨rfl, hstate, h, rfl, rfl⟩⟩

theorem InBatch.abort {o : FileOffer} {s : FileSender} (h : InBatch content o s)
    (reason : TransferReason) (takes : Bool) :
    SenderMoves content o s (s.abort reason takes) := by
  cases hbuild : buildFileCancel kMaxRecordSize ⟨s.batchId, reason⟩ with
  | none =>
    refine ⟨[], [], ?_, Or.inr ⟨rfl, ⟨_, rfl⟩, Or.inl rfl⟩⟩
    simp [FileSender.abort, FileSender.finish, hbuild, sentMessages]
  | some d =>
    have hparse : FileMsg.parse d = some (.cancel ⟨s.batchId, reason⟩) :=
      FileMsg.parse_build (m := .cancel ⟨s.batchId, reason⟩) trivial hbuild
    cases takes with
    | false =>
      refine ⟨[], [], ?_, Or.inr ⟨rfl, ⟨_, rfl⟩, Or.inl rfl⟩⟩
      simp [FileSender.abort, FileSender.finish, FileSender.emit, hbuild, sentMessages]
    | true =>
      refine ⟨[], [.cancel ⟨s.batchId, reason⟩], ?_,
        Or.inr ⟨rfl, ⟨_, rfl⟩, Or.inr ⟨reason, by rw [h.id]⟩⟩⟩
      simp [FileSender.abort, FileSender.finish, FileSender.emit, hbuild, sentMessages, hparse]

/-- Two moves in a row are a move. -/
theorem SenderMoves.trans {o : FileOffer} {s s₁ s₂ : FileSender} {out out' : List FileSenderEvent}
    (h : SenderMoves content o s (s₁, out)) (hstate : s₁.state = .sending)
    (h' : SenderMoves content o s₁ (s₂, out')) : SenderMoves content o s (s₂, out ++ out') := by
  rcases h with ⟨body, tail, hsent, ⟨rfl, -, -, hacked, hstream⟩ | ⟨hfailed, -⟩⟩
  · rcases h' with ⟨body', tail', hsent', hcase⟩
    refine ⟨body ++ body', tail', ?_, ?_⟩
    · rw [sentMessages_append, List.map_append, hsent, hsent']
      simp [List.map_append]
    · rw [stream_append, hstream]
      rcases hcase with ⟨htail, hsending, hin, hacked', hstream'⟩ | hcase
      · exact Or.inl ⟨htail, hsending, hin, hacked'.trans hacked, hstream'⟩
      · exact Or.inr hcase
  · rw [hstate] at hfailed
    cases hfailed

theorem InBatch.finishFile {o : FileOffer} {s : FileSender} (h : InBatch content o s)
    (ho : OfferOk content o) (hstate : s.state = .sending) (hindex : s.index < o.files.length)
    (hall : s.sent = (content o.batchId s.index).length) (io : ChunkIo) :
    SenderMoves content o s ((s.finishFile io).1, (s.finishFile io).2.1) ∧
      ((s.finishFile io).2.2 = true → (s.finishFile io).1.state = .sending) := by
  unfold FileSender.finishFile
  cases hbuild : buildFileDone kMaxRecordSize ⟨s.batchId, UInt16.ofNat s.index, s.crc.value⟩ with
  | none => exact ⟨h.abort .readFailed io.takesCancel, by intro hf; cases hf⟩
  | some d =>
    cases htakes : io.takesDone with
    | false => exact ⟨h.stays hstate, by intro hf; cases hf⟩
    | true =>
      refine ⟨?_, fun _ => hstate⟩
      have hfew := ho.few
      have hmax : kMaxTransferFiles = 32 := rfl
      have hi : (UInt16.ofNat s.index).toNat = s.index := by
        rw [UInt16.toNat_ofNat', Nat.mod_eq_of_lt (by omega)]
      have hparse : FileMsg.parse d =
          some (.done ⟨s.batchId, UInt16.ofNat s.index, s.crc.value⟩) := by
        refine FileMsg.parse_build (m := .done ⟨s.batchId, UInt16.ofNat s.index, s.crc.value⟩) ?_ hbuild
        show (UInt16.ofNat s.index).toNat < kMaxTransferFiles
        omega
      have hcrc : s.crc.value = crc32 (content o.batchId s.index) := by
        rw [h.crc, hall, List.take_length, Crc32.value_update]
      refine ⟨[.done ⟨s.batchId, UInt16.ofNat s.index, s.crc.value⟩], [], ?_,
        Or.inl ⟨rfl, hstate, ⟨h.id, h.files, ?_, ?_⟩, rfl, ?_⟩⟩
      · simp [sentMessages, hparse]
      · simp
      · intro _
        exact Nat.zero_le _
      · simp only [stream, streamStep]
        rw [if_pos ⟨h.id, hindex, hi, hall, hcrc⟩]
        rfl

/-- A chunk that was read goes out as the next one of the stream. -/
theorem InBatch.chunk {o : FileOffer} {s : FileSender} (h : InBatch content o s)
    (ho : OfferOk content o) (hstate : s.state = .sending) (hindex : s.index < o.files.length)
    {data d : Bytes} (hlen : s.sent + data.length ≤ (content o.batchId s.index).length)
    (hdata : data = ((content o.batchId s.index).drop s.sent).take data.length)
    (hbuild : buildFileChunk kMaxRecordSize
      ⟨s.batchId, UInt16.ofNat s.index, UInt64.ofNat s.sent, data⟩ = some d) :
    let s' := { s with
      crc := s.crc.update data
      sent := s.sent + data.length
      batchSent := s.batchSent + data.length }
    SenderMoves content o s (s', .sent d :: s'.report) ∧ InBatch content o s' := by
  intro s'
  have hfew := ho.few
  have hmax : kMaxTransferFiles = 32 := rfl
  have hi : (UInt16.ofNat s.index).toNat = s.index := by
    rw [UInt16.toNat_ofNat', Nat.mod_eq_of_lt (by omega)]
  -- the file fits in 64 bits, and so does the offset
  have hsize : (content o.batchId s.index).length ≤ kMaxTransferFileBytes.toNat := by
    rw [← ho.describes s.index hindex]
    exact UInt64.le_iff_toNat_le.mp (ho.small s.index hindex)
  have hbytes : kMaxTransferFileBytes.toNat = 8589934592 := rfl
  have hoff : (UInt64.ofNat s.sent).toNat = s.sent := by
    rw [UInt64.toNat_ofNat', Nat.mod_eq_of_lt (by omega)]
  have hparse : FileMsg.parse d =
      some (.chunk ⟨s.batchId, UInt16.ofNat s.index, UInt64.ofNat s.sent, data⟩) := by
    refine FileMsg.parse_build
      (m := .chunk ⟨s.batchId, UInt16.ofNat s.index, UInt64.ofNat s.sent, data⟩) ?_ hbuild
    show (UInt64.ofNat s.sent).toNat + data.length ≤ kMaxTransferFileBytes.toNat
    omega
  have hin : InBatch content o s' := by
    refine ⟨h.id, h.files, ?_, fun _ => hlen⟩
    show s.crc.update data = _
    rw [h.crc, Crc32.update_append]
    congr 1
    show (content o.batchId s.index).take s.sent ++ data =
      (content o.batchId s.index).take (s.sent + data.length)
    rw [List.take_add, ← hdata]
  refine ⟨⟨[.chunk ⟨s.batchId, UInt16.ofNat s.index, UInt64.ofNat s.sent, data⟩], [], ?_,
    Or.inl ⟨rfl, hstate, hin, rfl, ?_⟩⟩, hin⟩
  · simp [sentMessages, FileSender.report, hparse]
  · simp only [stream, streamStep]
    rw [if_pos ⟨h.id, hindex, hi, hoff, hlen, hdata⟩]
    rfl

theorem InBatch.sendOneChunk {o : FileOffer} {s : FileSender} (h : InBatch content o s)
    (ho : OfferOk content o) (hstate : s.state = .sending) {io : ChunkIo}
    (hread : ReadsContent content o.batchId io) :
    SenderMoves content o s ((s.sendOneChunk io).1, (s.sendOneChunk io).2.1) ∧
      ((s.sendOneChunk io).2.2 = true → (s.sendOneChunk io).1.state = .sending) := by
  unfold FileSender.sendOneChunk
  split
  · exact ⟨h.stays hstate, by intro hf; cases hf⟩
  · next hindex =>
    have hindex : s.index < o.files.length := h.files ▸ Nat.not_le.mp hindex
    have hsize : (fileAt s.files s.index).size.toNat = (content o.batchId s.index).length := by
      rw [h.files]
      exact ho.describes s.index hindex
    have hle := h.sent_le hindex
    simp only [hsize]
    split
    · next hall => exact h.finishFile ho hstate hindex (by omega) io
    · next hmore =>
      generalize hwant : (if (content o.batchId s.index).length - s.sent < kMaxFileChunkBytes then
        (content o.batchId s.index).length - s.sent else kMaxFileChunkBytes) = want
      have hpos : 0 < want := by
        have : 0 < kMaxFileChunkBytes := by decide
        rw [← hwant]
        split <;> omega
      have hfit : s.sent + want ≤ (content o.batchId s.index).length := by
        rw [← hwant]
        split <;> omega
      rcases hread s.index s.sent want hpos hfit with ⟨n, hn, hnw, hdata⟩
      have hlen : (io.read s.index s.sent want).length = n := by
        rw [hdata, List.length_take, List.length_drop]
        omega
      split
      · exact ⟨h.abort .readFailed io.takesCancel, by intro hf; cases hf⟩
      · split
        · exact ⟨h.abort .readFailed io.takesCancel, by intro hf; cases hf⟩
        · next d hbuild =>
          cases htakes : io.takesChunk with
          | false => exact ⟨h.stays hstate, by intro hf; cases hf⟩
          | true =>
            rcases h.chunk ho hstate hindex (by omega) (by rw [hlen]; exact hdata) hbuild with
              ⟨hmoves, hin⟩
            simp only [Bool.not_true, Bool.false_eq_true, if_false]
            split
            · next hall =>
              rcases hin.finishFile ho hstate hindex (by
                show s.sent + _ = (content o.batchId s.index).length
                omega) io with ⟨hfinish, hok⟩
              exact ⟨hmoves.trans hstate hfinish, hok⟩
            · exact ⟨hmoves, fun _ => hstate⟩

theorem InBatch.pump {o : FileOffer} {s : FileSender} (h : InBatch content o s)
    (ho : OfferOk content o) (hstate : s.state = .sending) {ios : List ChunkIo}
    (hread : ∀ io ∈ ios, ReadsContent content o.batchId io) :
    SenderMoves content o s (s.pump ios) := by
  induction ios generalizing s with
  | nil => exact h.stays hstate
  | cons io ios ih =>
    rcases h.sendOneChunk ho hstate (hread io (by simp)) with ⟨hmoves, hok⟩
    unfold FileSender.pump
    rw [if_neg (by simp [hstate])]
    cases hturn : (s.sendOneChunk io).2.2 with
    | false => simpa [hturn] using hmoves
    | true =>
      have hsending := hok hturn
      have hin : InBatch content o (s.sendOneChunk io).1 := by
        rcases hmoves with ⟨body, tail, -, ⟨-, -, hin, -⟩ | ⟨hfailed, -⟩⟩
        · exact hin
        · rw [hsending] at hfailed
          cases hfailed
      simp only [hturn, Bool.not_true, Bool.false_eq_true, if_false]
      exact hmoves.trans hsending (ih hin hsending (fun io' hio' => hread io' (by simp [hio'])))

end Stream

end Deskhub
