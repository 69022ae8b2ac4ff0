import Deskhub.Session.FileTransfer

/-!
# What a sender that is done has sent

A `FileAck` is checked against the acknowledgements before it, not against what was sent. The
sender is done with every file sent exactly when the last acknowledgement comes after the last
`FileDone`.
-/

namespace Deskhub

/-! ## Runs of a sender -/

inductive FileSenderCall where
  | offer (batchId : UInt32) (files : List TransferFile) (takes : Bool)
  | handleMessage (message : Bytes) (takesCancel : Bool)
  | pump (ios : List ChunkIo)
  | cancel (takesCancel : Bool)
  | linkLost

def fileSender : Machine FileSender FileSenderCall FileSenderEvent where
  step s
    | .offer batchId files takes =>
        let (s, out, _) := s.offer batchId files takes
        (s, out)
    | .handleMessage message takesCancel => s.handleMessage message takesCancel
    | .pump ios => s.pump ios
    | .cancel takesCancel => s.cancel takesCancel
    | .linkLost => s.linkLost

/-- The messages that `send` took since the last offer. -/
def recordSent (ms : List FileMsg) : FileSenderEvent → List FileMsg
  | .sent message =>
      match FileMsg.parse message with
      | some (.offer _) => []
      | some m => ms ++ [m]
      | none => ms
  | _ => ms

def batchMessages (out : List FileSenderEvent) : List FileMsg := out.foldl recordSent []

theorem batchMessages_append (out new : List FileSenderEvent) :
    batchMessages (out ++ new) = new.foldl recordSent (batchMessages out) :=
  List.foldl_append

/-- Byte `x` of file `i` is in a chunk. -/
def Covered (batchId : UInt32) (i x : Nat) (ms : List FileMsg) : Prop :=
  ∃ c, .chunk c ∈ ms ∧ c.batchId = batchId ∧ c.fileIndex.toNat = i ∧ c.offset.toNat ≤ x ∧
    x < c.offset.toNat + c.data.length

/-- Chunks cover the file, and its `FileDone` is there. -/
def FileSent (batchId : UInt32) (i size : Nat) (ms : List FileMsg) : Prop :=
  (∀ x < size, Covered batchId i x ms) ∧
    ∃ d, .done d ∈ ms ∧ d.batchId = batchId ∧ d.fileIndex.toNat = i

theorem Covered.mono {batchId : UInt32} {i x : Nat} {ms more : List FileMsg}
    (h : Covered batchId i x ms) : Covered batchId i x (ms ++ more) := by
  rcases h with ⟨c, hc, hrest⟩
  exact ⟨c, List.mem_append_left more hc, hrest⟩

theorem FileSent.mono {batchId : UInt32} {i size : Nat} {ms more : List FileMsg}
    (h : FileSent batchId i size ms) : FileSent batchId i size (ms ++ more) := by
  rcases h with ⟨hchunks, d, hd, hrest⟩
  exact ⟨fun x hx => (hchunks x hx).mono, d, List.mem_append_left more hd, hrest⟩

/-- Every file of the batch was sent. -/
def AllSent (s : FileSender) (ms : List FileMsg) : Prop :=
  ∀ i < s.files.length, FileSent s.batchId i (fileAt s.files i).size.toNat ms

namespace FileSender

/-- What a sender in a batch has sent: the files before the current one, of that one the bytes up
to where it stands, and the end of no other. -/
structure Sends (s : FileSender) (ms : List FileMsg) : Prop where
  few : s.files.length ≤ kMaxTransferFiles
  small : ∀ i < s.files.length, (fileAt s.files i).size ≤ kMaxTransferFileBytes
  before : ∀ i < s.index, FileSent s.batchId i (fileAt s.files i).size.toNat ms
  current : ∀ x < s.sent, Covered s.batchId s.index x ms
  within : s.index < s.files.length → s.sent ≤ (fileAt s.files s.index).size.toNat
  ended : ∀ d, .done d ∈ ms → d.fileIndex.toNat < s.index

/-- After its events the sender failed, or is sending and has sent so much. -/
def SendsOn (ms : List FileMsg) (r : FileSender × List FileSenderEvent) : Prop :=
  r.1.state = .failed ∨ (r.1.state = .sending ∧ Sends r.1 (r.2.foldl recordSent ms))

theorem SendsOn.append {ms : List FileMsg} {s : FileSender} {out new : List FileSenderEvent}
    (h : SendsOn (out.foldl recordSent ms) (s, new)) : SendsOn ms (s, out ++ new) := by
  rcases h with hfailed | ⟨hsending, hsends⟩
  · exact .inl hfailed
  · refine .inr ⟨hsending, ?_⟩
    rw [List.foldl_append]
    exact hsends

section Pump

variable {s : FileSender} {ms : List FileMsg} (h : Sends s ms)
include h

/-- The end of a file that is sent to its last byte. -/
theorem Sends.finishFile (hstate : s.state = .sending) (hindex : s.index < s.files.length)
    (hall : (fileAt s.files s.index).size.toNat ≤ s.sent) (io : ChunkIo) :
    SendsOn ms ((s.finishFile io).1, (s.finishFile io).2.1) ∧
      ((s.finishFile io).2.2 = true → (s.finishFile io).1.state = .sending) := by
  unfold FileSender.finishFile
  cases hbuild : buildFileDone kMaxRecordSize ⟨s.batchId, UInt16.ofNat s.index, s.crc.value⟩ with
  | none => exact ⟨.inl rfl, fun hf => absurd hf Bool.false_ne_true⟩
  | some d =>
    cases htakes : io.takesDone with
    | false => exact ⟨.inr ⟨hstate, h⟩, fun hf => absurd hf Bool.false_ne_true⟩
    | true =>
      have hfew := h.few
      have hmax : kMaxTransferFiles = 32 := rfl
      have hi : (UInt16.ofNat s.index).toNat = s.index := by
        rw [UInt16.toNat_ofNat', Nat.mod_eq_of_lt (by omega)]
      have hparse : FileMsg.parse d =
          some (.done ⟨s.batchId, UInt16.ofNat s.index, s.crc.value⟩) := by
        refine FileMsg.parse_build (m := .done ⟨s.batchId, UInt16.ofNat s.index, s.crc.value⟩) ?_ hbuild
        show (UInt16.ofNat s.index).toNat < kMaxTransferFiles
        omega
      have hlog : [FileSenderEvent.sent d].foldl recordSent ms =
          ms ++ [.done ⟨s.batchId, UInt16.ofNat s.index, s.crc.value⟩] := by
        simp [recordSent, hparse]
      refine ⟨.inr ⟨hstate, ?_⟩, fun _ => hstate⟩
      show Sends { s with crc := .reset, sent := 0, index := s.index + 1 }
        ([FileSenderEvent.sent d].foldl recordSent ms)
      rw [hlog]
      refine ⟨h.few, h.small, ?_, ?_, ?_, ?_⟩
      · intro i hlt
        rcases Nat.lt_or_eq_of_le (Nat.le_of_lt_succ hlt) with hbefore | heq
        · exact (h.before i hbefore).mono
        · rw [heq]
          refine ⟨fun x hx => (h.current x (Nat.lt_of_lt_of_le hx hall)).mono,
            ⟨s.batchId, UInt16.ofNat s.index, s.crc.value⟩, ?_, rfl, hi⟩
          exact List.mem_append_right ms (List.mem_singleton_self _)
      · intro x hx
        exact absurd hx (Nat.not_lt_zero x)
      · intro _
        exact Nat.zero_le _
      · intro d' hd'
        rcases List.mem_append.mp hd' with hold | hnew
        · exact Nat.lt_succ_of_lt (h.ended d' hold)
        · cases List.mem_singleton.mp hnew
          show (UInt16.ofNat s.index).toNat < s.index + 1
          omega

/-- A chunk that goes out covers the bytes it was read for. -/
theorem Sends.chunk (hindex : s.index < s.files.length) {data d : Bytes}
    (hlen : s.sent + data.length ≤ (fileAt s.files s.index).size.toNat)
    (hbuild : buildFileChunk kMaxRecordSize
      ⟨s.batchId, UInt16.ofNat s.index, UInt64.ofNat s.sent, data⟩ = some d) :
    let s' := { s with
      crc := s.crc.update data
      sent := s.sent + data.length
      batchSent := s.batchSent + data.length }
    Sends s' ((.sent d :: s'.report).foldl recordSent ms) := by
  intro s'
  have hfew := h.few
  have hmax : kMaxTransferFiles = 32 := rfl
  have hi : (UInt16.ofNat s.index).toNat = s.index := by
    rw [UInt16.toNat_ofNat', Nat.mod_eq_of_lt (by omega)]
  have hsize := UInt64.le_iff_toNat_le.mp (h.small s.index hindex)
  have hbytes : kMaxTransferFileBytes.toNat = 8589934592 := rfl
  have hoff : (UInt64.ofNat s.sent).toNat = s.sent := by
    rw [UInt64.toNat_ofNat', Nat.mod_eq_of_lt (by omega)]
  have hparse : FileMsg.parse d =
      some (.chunk ⟨s.batchId, UInt16.ofNat s.index, UInt64.ofNat s.sent, data⟩) := by
    refine FileMsg.parse_build
      (m := .chunk ⟨s.batchId, UInt16.ofNat s.index, UInt64.ofNat s.sent, data⟩) ?_ hbuild
    show (UInt64.ofNat s.sent).toNat + data.length ≤ kMaxTransferFileBytes.toNat
    omega
  have hlog : (.sent d :: s'.report).foldl recordSent ms =
      ms ++ [.chunk ⟨s.batchId, UInt16.ofNat s.index, UInt64.ofNat s.sent, data⟩] := by
    simp [recordSent, FileSender.report, hparse]
  rw [hlog]
  refine ⟨h.few, h.small, fun i hi => (h.before i hi).mono, ?_, fun _ => hlen, ?_⟩
  · intro x hx
    by_cases hbefore : x < s.sent
    · exact (h.current x hbefore).mono
    · refine ⟨_, List.mem_append_right ms (List.mem_singleton_self _), rfl, hi, ?_, ?_⟩
      · rw [hoff]
        exact Nat.not_lt.mp hbefore
      · rw [hoff]
        exact hx
  · intro d' hd'
    rcases List.mem_append.mp hd' with hold | hnew
    · exact h.ended d' hold
    · cases List.mem_singleton.mp hnew

theorem Sends.sendOneChunk (hstate : s.state = .sending) (io : ChunkIo) :
    SendsOn ms ((s.sendOneChunk io).1, (s.sendOneChunk io).2.1) ∧
      ((s.sendOneChunk io).2.2 = true → (s.sendOneChunk io).1.state = .sending) := by
  have hstays : SendsOn ms (s, []) := .inr ⟨hstate, h⟩
  unfold FileSender.sendOneChunk
  split
  · exact ⟨hstays, fun hf => absurd hf Bool.false_ne_true⟩
  · next hindex =>
    have hindex : s.index < s.files.length := Nat.not_le.mp hindex
    dsimp only
    split
    · next hall => exact h.finishFile hstate hindex hall io
    · next hmore =>
      generalize hwant : (if (fileAt s.files s.index).size.toNat - s.sent < kMaxFileChunkBytes then
        (fileAt s.files s.index).size.toNat - s.sent else kMaxFileChunkBytes) = want
      have hfit : s.sent + want ≤ (fileAt s.files s.index).size.toNat := by
        rw [← hwant]
        split <;> omega
      split
      · exact ⟨.inl rfl, fun hf => absurd hf Bool.false_ne_true⟩
      · next hread =>
        rw [not_or, Nat.not_lt] at hread
        split
        · exact ⟨.inl rfl, fun hf => absurd hf Bool.false_ne_true⟩
        · next d hbuild =>
          cases htakes : io.takesChunk with
          | false => exact ⟨hstays, fun hf => absurd hf Bool.false_ne_true⟩
          | true =>
            have hsends := h.chunk hindex (Nat.le_trans (Nat.add_le_add_left hread.2 _) hfit)
              hbuild
            simp only [Bool.not_true, Bool.false_eq_true, if_false]
            split
            · next hall =>
              rcases hsends.finishFile hstate hindex hall io with ⟨hfinish, hok⟩
              exact ⟨hfinish.append, hok⟩
            · exact ⟨.inr ⟨hstate, hsends⟩, fun _ => hstate⟩

theorem Sends.pump (hstate : s.state = .sending) (ios : List ChunkIo) : SendsOn ms (s.pump ios) := by
  induction ios generalizing s ms with
  | nil => exact .inr ⟨hstate, h⟩
  | cons io ios ih =>
    rcases h.sendOneChunk hstate io with ⟨hturn, hok⟩
    unfold FileSender.pump
    rw [if_neg (by simp [hstate])]
    cases hmore : (s.sendOneChunk io).2.2 with
    | false => simpa [hmore] using hturn
    | true =>
      rcases hturn with hfailed | ⟨hsending, hsends⟩
      · rw [hok hmore] at hfailed
        cases hfailed
      · simp only [hmore, Bool.not_true, Bool.false_eq_true, if_false]
        exact (ih hsends hsending).append

end Pump

theorem pump_of_not_sending {s : FileSender} (h : s.state ≠ .sending) (ios : List ChunkIo) :
    s.pump ios = (s, []) := by
  cases ios with
  | nil => rfl
  | cons io ios => exact if_pos h

/-! ## Messages from the other side -/

/-- The message acknowledges the next file. -/
def Acknowledges (s : FileSender) (message : Bytes) : Prop :=
  s.state = .sending ∧ ∃ ack, FileMsg.parse message = some (.ack ack) ∧ ack.batchId = s.batchId ∧
    ack.reason = .accepted ∧ ack.fileIndex.toNat = s.acked

theorem parse_eq_ack {message : Bytes} {ack : FileAck} (h : FileMsg.parse message = some (.ack ack)) :
    ∃ header, parseCommonHeader message = some header ∧ header.chan = .file ∧
      header.type = .fileAck ∧ parseFileAck (payloadOf message) = some ack := by
  unfold FileMsg.parse at h
  split at h
  · cases h
  · next header hheader =>
    split at h
    · cases h
    · next hchan =>
      refine ⟨header, hheader, not_not.mp hchan, ?_⟩
      unfold FileMsg.parsePayload at h
      split at h
      all_goals first | cases h | (rcases Option.map_eq_some_iff.mp h with ⟨m, hm, heq⟩; cases heq)
      next htype => exact ⟨htype, hm⟩

theorem handleMessage_of_acknowledges {s : FileSender} {message : Bytes} {takesCancel : Bool}
    (h : s.Acknowledges message) :
    s.handleMessage message takesCancel =
      if s.files.length ≤ s.acked + 1 then { s with acked := s.acked + 1 }.finish .done .accepted
      else ({ s with acked := s.acked + 1 }, []) := by
  rcases h with ⟨hstate, ack, hparse, hbatch, hreason, hindex⟩
  rcases parse_eq_ack hparse with ⟨header, hheader, hchan, htype, hack⟩
  unfold handleMessage
  simp only [hheader]
  rw [if_neg (not_not.mpr hchan), htype]
  show s.onAck (payloadOf message) takesCancel = _
  unfold onAck
  rw [if_neg (not_not.mpr hstate), hack]
  dsimp only
  rw [if_neg (not_not.mpr hbatch), if_neg (not_not.mpr hreason), if_neg (not_not.mpr hindex)]

/-- What a message does: nothing, or it ends the batch, accepts the offer, or acknowledges a
file. -/
theorem handleMessage_cases (s : FileSender) (message : Bytes) (takesCancel : Bool) :
    s.handleMessage message takesCancel = (s, []) ∨
      (∃ state reason, s.busy = true ∧ (state = .refused ∨ state = .failed) ∧
        s.handleMessage message takesCancel = s.finish state reason) ∨
      (∃ ack, s.state = .sending ∧ FileMsg.parse message = some (.ack ack) ∧
        ack.batchId = s.batchId ∧ ack.reason = .accepted ∧ ack.fileIndex.toNat ≠ s.acked ∧
        s.handleMessage message takesCancel = s.abort .corrupt takesCancel) ∨
      (s.state = .offering ∧ s.handleMessage message takesCancel =
        ({ s with state := .sending }, { s with state := .sending }.report)) ∨
      s.Acknowledges message := by
  unfold handleMessage
  cases hheader : parseCommonHeader message with
  | none => exact .inl rfl
  | some header =>
    dsimp only
    by_cases hchan : header.chan = .file
    swap
    · rw [if_pos hchan]
      exact .inl rfl
    rw [if_neg (not_not.mpr hchan)]
    cases htype : header.type with
    | fileAccept =>
      dsimp only
      unfold onAccept
      split
      · exact .inl rfl
      · next hstate =>
        cases parseFileAccept (payloadOf message) with
        | none => exact .inl rfl
        | some accept =>
          dsimp only
          split
          · exact .inl rfl
          · split
            · refine .inr (.inl ⟨_, _, ?_, .inl rfl, rfl⟩)
              simp [busy, not_not.mp hstate]
            · exact .inr (.inr (.inr (.inl ⟨not_not.mp hstate, rfl⟩)))
    | fileAck =>
      dsimp only
      unfold onAck
      split
      · exact .inl rfl
      · next hstate =>
        cases hack : parseFileAck (payloadOf message) with
        | none => exact .inl rfl
        | some ack =>
          have hparse : FileMsg.parse message = some (.ack ack) := by
            unfold FileMsg.parse
            rw [hheader]
            dsimp only
            rw [if_neg (not_not.mpr hchan), htype]
            show (parseFileAck (payloadOf message)).map FileMsg.ack = _
            rw [hack]
            rfl
          dsimp only
          split
          · exact .inl rfl
          · next hbatch =>
            split
            · refine .inr (.inl ⟨_, _, ?_, .inr rfl, rfl⟩)
              simp [busy, not_not.mp hstate]
            · next hreason =>
              split
              · next hindex =>
                exact .inr (.inr (.inl ⟨ack, not_not.mp hstate, hparse, not_not.mp hbatch,
                  not_not.mp hreason, hindex, rfl⟩))
              · next hindex =>
                exact .inr (.inr (.inr (.inr ⟨not_not.mp hstate, ack, hparse, not_not.mp hbatch,
                  not_not.mp hreason, not_not.mp hindex⟩)))
    | fileCancel =>
      dsimp only
      unfold onCancel
      cases parseFileCancel (payloadOf message) with
      | none => exact .inl rfl
      | some cancel =>
        dsimp only
        split
        · exact .inl rfl
        · split
          · exact .inl rfl
          · next hbusy =>
            refine .inr (.inl ⟨_, _, by simpa using hbusy, ?_, rfl⟩)
            by_cases hoffering : s.state = .offering
            · exact .inl (if_pos hoffering)
            · exact .inr (if_neg hoffering)
    | _ => exact .inl rfl

theorem handleMessage_of_not_busy {s : FileSender} {message : Bytes} {takesCancel : Bool}
    (h : s.busy = false) : s.handleMessage message takesCancel = (s, []) := by
  have hstate : s.state ≠ .sending ∧ s.state ≠ .offering := by
    constructor <;> intro hstate <;> simp [busy, hstate] at h
  rcases s.handleMessage_cases message takesCancel with hnothing | ⟨_, _, hbusy, -⟩ |
    ⟨_, hsending, -⟩ | ⟨hoffering, -⟩ | hacked
  · exact hnothing
  · rw [h] at hbusy
    cases hbusy
  · exact absurd hsending hstate.1
  · exact absurd hoffering hstate.2
  · exact absurd hacked.1 hstate.1

/-- An acknowledgement out of turn ends the batch. -/
theorem handleMessage_of_ack_mismatch {s : FileSender} {message : Bytes} {takesCancel : Bool}
    {ack : FileAck} (hstate : s.state = .sending) (hparse : FileMsg.parse message = some (.ack ack))
    (hbatch : ack.batchId = s.batchId) (hreason : ack.reason = .accepted)
    (hturn : ack.fileIndex.toNat ≠ s.acked) :
    s.handleMessage message takesCancel = s.abort .corrupt takesCancel := by
  rcases parse_eq_ack hparse with ⟨header, hheader, hchan, htype, hack⟩
  unfold handleMessage
  simp only [hheader]
  rw [if_neg (not_not.mpr hchan), htype]
  show s.onAck (payloadOf message) takesCancel = _
  unfold onAck
  rw [if_neg (not_not.mpr hstate), hack]
  dsimp only
  rw [if_neg (not_not.mpr hbatch), if_neg (not_not.mpr hreason), if_pos hturn]

/-! ## Runs -/

/-- What an offer does: nothing, or it leaves the sender idle, or it starts a batch. -/
theorem offer_cases (s : FileSender) (batchId : UInt32) (files : List TransferFile) (takes : Bool) :
    ((s.offer batchId files takes).1 = s ∨ (s.offer batchId files takes).1.state = .idle) ∧
        (s.offer batchId files takes).2.1 = [] ∨
      ∃ message, buildFileOffer kMaxRecordSize ⟨batchId, (s.offer batchId files takes).1.files⟩ =
          some message ∧
        (s.offer batchId files takes).2.1 = [.sent message] ∧
        (s.offer batchId files takes).1.state = .offering ∧
        (s.offer batchId files takes).1.index = 0 ∧ (s.offer batchId files takes).1.sent = 0 := by
  unfold offer
  split
  · exact .inl ⟨.inl rfl, rfl⟩
  · split
    · exact .inl ⟨.inl rfl, rfl⟩
    · cases checkFiles files 0 with
      | none => exact .inl ⟨.inl rfl, rfl⟩
      | some checked =>
        rcases checked with ⟨named, total⟩
        cases hbuild : buildFileOffer kMaxRecordSize ⟨batchId, named⟩ with
        | none =>
          dsimp only
          rw [hbuild]
          exact .inl ⟨.inr rfl, rfl⟩
        | some message =>
          dsimp only
          rw [hbuild]
          cases takes with
          | false => exact .inl ⟨.inr rfl, rfl⟩
          | true => exact .inr ⟨message, hbuild, rfl, rfl, rfl, rfl⟩

/-- In a batch, and after it, the sender has sent what it counts. -/
def Logged (s : FileSender) (ms : List FileMsg) : Prop :=
  s.state = .offering ∨ s.state = .sending ∨ s.state = .done → Sends s ms

theorem Logged.ended {s : FileSender} {ms : List FileMsg}
    (h : s.state = .idle ∨ s.state = .refused ∨ s.state = .failed) : Logged s ms := by
  intro hstate
  rcases h with h | h | h <;> rw [h] at hstate <;> rcases hstate with h | h | h <;> cases h

/-- The step lemma. -/
theorem Logged.step {s : FileSender} {ms : List FileMsg} (h : Logged s ms) (c : FileSenderCall) :
    Logged (fileSender.step s c).1 ((fileSender.step s c).2.foldl recordSent ms) := by
  cases c with
  | offer batchId files takes =>
    show Logged (s.offer batchId files takes).1
      ((s.offer batchId files takes).2.1.foldl recordSent ms)
    rcases s.offer_cases batchId files takes with ⟨hsame | hidle, hnothing⟩ |
      ⟨message, hbuild, hsent, hstate, hindex, hzero⟩
    · rw [hnothing, hsame]
      exact h
    · exact .ended (.inl hidle)
    · -- the offer starts a new log
      have hparse : FileMsg.parse message = some (.offer ⟨batchId, _⟩) := parseFileOffer_build hbuild
      have hlog : (s.offer batchId files takes).2.1.foldl recordSent ms = [] := by
        rw [hsent]
        simp [recordSent, hparse]
      rcases offer_bounds_of_build hbuild with ⟨-, hfew, hsmall⟩
      rw [hlog]
      intro _
      refine ⟨hfew, hsmall, ?_, ?_, ?_, ?_⟩
      · intro i hi
        rw [hindex] at hi
        exact absurd hi (Nat.not_lt_zero i)
      · intro x hx
        rw [hzero] at hx
        exact absurd hx (Nat.not_lt_zero x)
      · intro _
        rw [hzero]
        exact Nat.zero_le _
      · intro d hd
        exact absurd hd List.not_mem_nil
  | handleMessage message takesCancel =>
    show Logged (s.handleMessage message takesCancel).1
      ((s.handleMessage message takesCancel).2.foldl recordSent ms)
    rcases s.handleMessage_cases message takesCancel with hnothing |
      ⟨state, reason, -, hstate, hends⟩ | ⟨ack, -, -, -, -, -, haborts⟩ | ⟨hstate, haccepted⟩ | hacked
    · rw [hnothing]
      exact h
    · rw [hends]
      exact .ended (.inr hstate)
    · rw [haborts]
      exact .ended (.inr (.inr rfl))
    · rw [haccepted]
      intro _
      have hsends := h (.inl hstate)
      exact ⟨hsends.few, hsends.small, hsends.before, hsends.current, hsends.within, hsends.ended⟩
    · rw [handleMessage_of_acknowledges hacked]
      have hsends := h (.inr (.inl hacked.1))
      split <;>
        exact fun _ => ⟨hsends.few, hsends.small, hsends.before, hsends.current, hsends.within,
          hsends.ended⟩
  | pump ios =>
    show Logged (s.pump ios).1 ((s.pump ios).2.foldl recordSent ms)
    by_cases hstate : s.state = .sending
    · rcases (h (.inr (.inl hstate))).pump hstate ios with hfailed | ⟨-, hsends⟩
      · exact .ended (.inr (.inr hfailed))
      · exact fun _ => hsends
    · rw [pump_of_not_sending hstate]
      exact h
  | cancel takesCancel =>
    show Logged (s.cancel takesCancel).1 ((s.cancel takesCancel).2.foldl recordSent ms)
    unfold FileSender.cancel
    split
    · exact h
    · exact .ended (.inr (.inr rfl))
  | linkLost =>
    show Logged s.linkLost.1 (s.linkLost.2.foldl recordSent ms)
    unfold FileSender.linkLost
    split
    · exact h
    · exact .ended (.inr (.inr rfl))

/-- The run lemma. -/
theorem logged_run (calls : List FileSenderCall) :
    Logged (fileSender.run {} calls).1 (batchMessages (fileSender.run {} calls).2) := by
  refine Machine.run_invariant' (fun s out => Logged s (batchMessages out)) (.ended (.inl rfl)) ?_ calls
  intro s out c h
  rw [batchMessages_append]
  exact h.step c

/-- The last acknowledgement comes after the last `FileDone`. -/
def AcksFollow (s : FileSender) (_ : List FileSenderEvent) : FileSenderCall → Prop
  | .handleMessage message _ =>
      s.Acknowledges message → s.files.length ≤ s.acked + 1 → s.files.length ≤ s.index
  | _ => True

/-- A sender that is done stands behind its last file. -/
def DoneLate (s : FileSender) : Prop := s.state = .done → s.files.length ≤ s.index

theorem DoneLate.step {s : FileSender} {out : List FileSenderEvent} {c : FileSenderCall}
    (hC : AcksFollow s out c) (hlog : Logged s (batchMessages out)) (h : DoneLate s) : DoneLate (fileSender.step s c).1 := by
  have hother : ∀ t : FileSender, t.state ≠ .done → DoneLate t :=
    fun _ hne hdone => absurd hdone hne
  cases c with
  | offer batchId files takes =>
    show DoneLate (s.offer batchId files takes).1
    rcases s.offer_cases batchId files takes with ⟨hsame | hidle, -⟩ | ⟨_, -, -, hstate, -⟩
    · rw [hsame]
      exact h
    · exact hother _ (by rw [hidle]; decide)
    · exact hother _ (by rw [hstate]; decide)
  | handleMessage message takesCancel =>
    show DoneLate (s.handleMessage message takesCancel).1
    rcases s.handleMessage_cases message takesCancel with hnothing |
      ⟨state, reason, -, hstate, hends⟩ | ⟨ack, -, -, -, -, -, haborts⟩ | ⟨-, haccepted⟩ | hacked
    · rw [hnothing]
      exact h
    · rw [hends]
      refine hother _ ?_
      show state ≠ .done
      rcases hstate with rfl | rfl <;> decide
    · rw [haborts]
      exact hother (s.abort .corrupt takesCancel).1 (show FileSenderState.failed ≠ .done by decide)
    · rw [haccepted]
      exact hother { s with state := .sending } (show FileSenderState.sending ≠ .done by decide)
    · rw [handleMessage_of_acknowledges hacked]
      split
      · next hlast => exact fun _ => hC hacked hlast
      · refine hother _ ?_
        show s.state ≠ .done
        rw [hacked.1]
        decide
  | pump ios =>
    show DoneLate (s.pump ios).1
    by_cases hstate : s.state = .sending
    · rcases (hlog (.inr (.inl hstate))).pump hstate ios with hfailed | ⟨hsending, -⟩
      · exact hother _ (by rw [hfailed]; decide)
      · exact hother _ (by rw [hsending]; decide)
    · rw [pump_of_not_sending hstate]
      exact h
  | cancel takesCancel =>
    show DoneLate (s.cancel takesCancel).1
    unfold FileSender.cancel
    split
    · exact h
    · exact hother (s.abort .cancelled takesCancel).1 (show FileSenderState.failed ≠ .done by decide)
  | linkLost =>
    show DoneLate s.linkLost.1
    unfold FileSender.linkLost
    split
    · exact h
    · exact hother (s.finish .failed .linkLost).1 (show FileSenderState.failed ≠ .done by decide)

theorem doneLate_run (calls : List FileSenderCall) (hC : fileSender.Along AcksFollow {} calls) :
    DoneLate (fileSender.run {} calls).1 := by
  induction calls using List.reverseRecOn with
  | nil => exact fun hdone => absurd hdone (show FileSenderState.idle ≠ .done by decide)
  | append_singleton calls c ih =>
    rw [Machine.run_concat]
    exact (ih hC.init).step hC.last (logged_run calls)

end FileSender

/-- In every run: whenever the sender is done it has sent everything, exactly when no last
acknowledgement comes before the last `FileDone`. -/
theorem fileSender_done_iff (calls : List FileSenderCall) :
    (∀ pre post, calls = pre ++ post → (fileSender.run {} pre).1.state = .done →
        AllSent (fileSender.run {} pre).1 (batchMessages (fileSender.run {} pre).2)) ↔
      fileSender.Along FileSender.AcksFollow {} calls := by
  constructor
  · intro h pre c post hsplit
    cases c with
    | handleMessage message takesCancel =>
      intro hacked hlast
      by_contra hbefore
      have hstep : (fileSender.step (fileSender.run {} pre).1 (.handleMessage message takesCancel)) =
          { (fileSender.run {} pre).1 with
            acked := (fileSender.run {} pre).1.acked + 1 }.finish .done .accepted := by
        show (fileSender.run {} pre).1.handleMessage message takesCancel = _
        rw [FileSender.handleMessage_of_acknowledges hacked, if_pos hlast]
      have hsent := h (pre ++ [.handleMessage message takesCancel]) post
        (by rw [hsplit, List.append_assoc]; rfl)
      rw [Machine.run_concat, hstep, batchMessages_append] at hsent
      -- the current file would have its `FileDone`
      rcases (hsent rfl _ (Nat.not_le.mp hbefore)).2 with ⟨d, hd, -, hindex⟩
      have hended := (FileSender.logged_run pre (.inr (.inl hacked.1))).ended d hd
      rw [hindex] at hended
      exact Nat.lt_irrefl _ hended
    | _ => trivial
  · intro hC pre post hsplit hdone i hi
    rw [hsplit] at hC
    have hlate := FileSender.doneLate_run pre hC.left hdone
    exact (FileSender.logged_run pre (.inr (.inr hdone))).before i (Nat.lt_of_lt_of_le hi hlate)

/-- One file of one byte, acknowledged before a byte of it was sent. -/
def hastyRun : List FileSenderCall :=
  [.offer 7 [⟨1, [0x61]⟩] true,
    .handleMessage ((buildFileAccept kMaxRecordSize ⟨7, .accepted⟩).getD []) true,
    .handleMessage ((buildFileAck kMaxRecordSize ⟨7, 0, .accepted⟩).getD []) true]

theorem hastyRun_done :
    ¬ ∀ calls : List FileSenderCall, (fileSender.run {} calls).1.state = .done →
      AllSent (fileSender.run {} calls).1 (batchMessages (fileSender.run {} calls).2) := by
  intro h
  have hsent := h hastyRun (by decide +kernel) 0 (by decide +kernel)
  rcases hsent.2 with ⟨d, hd, -⟩
  have hnone : batchMessages (fileSender.run {} hastyRun).2 = [] := by decide +kernel
  rw [hnone] at hd
  cases hd

end Deskhub
