import Deskhub.Session.FileReceiver

/-!
# The callbacks of the file receiver are bracketed

A ledger follows the calls of `open`, `write` and `close`. Whatever messages come
in and whatever the callbacks return, it never has to object.
-/

namespace Deskhub

/-- The file that is open, what was written to it, and whether every write succeeded. -/
structure OpenFile where
  index : Nat
  written : Bytes
  intact : Bool
deriving DecidableEq, Repr

/-- What can be told from the outside: the files of the batch accepted last, the
first index of it not opened yet, and the open file. -/
structure FileLedger where
  offered : List TransferFile := []
  next : Nat := 0
  current : Option OpenFile := none
deriving DecidableEq, Repr

namespace FileReceiverCall

/-- The message a call delivers. -/
def message? : FileReceiverCall → Option FileMsg
  | handleMessage message _ => FileMsg.parse message
  | _ => none

/-- The files of the offer a call delivers. -/
def offered? (call : FileReceiverCall) : Option (List TransferFile) :=
  match call.message? with
  | some (.offer m) => some m.files
  | _ => none

/-- The checksum of the `FileDone` a call delivers. -/
def crc? (call : FileReceiverCall) : Option UInt32 :=
  match call.message? with
  | some (.done m) => some m.crc32
  | _ => none

end FileReceiverCall

/-- A message that accepts a batch. -/
def isAcceptance (message : Bytes) : Bool :=
  match FileMsg.parse message with
  | some (.accept m) => m.reason = .accepted
  | _ => false

/-- The ledger, and what it allows: an open file is closed before another one is
opened, the files of a batch are opened in order, writes go to the open file and
stay within its declared size, and it is kept only when it is whole and its
checksum is the one of the `FileDone`. -/
def fileLedger : Watcher FileLedger FileReceiverCall FileReceiverEvent where
  after n call
    | .send message =>
        match call.offered? with
        | some files => if isAcceptance message then { n with offered := files, next := 0 } else n
        | none => n
    | .opened i _ _ stored =>
        { n with next := i + 1, current := if stored = [] then none else some ⟨i, [], true⟩ }
    | .wrote _ data ok =>
        { n with
          current := n.current.map
            (fun f => { f with written := f.written ++ data, intact := f.intact && ok }) }
    | .closed _ _ _ => { n with current := none }
    | _ => n
  allows n call
    | .opened i _ size _ =>
        n.current = none ∧ n.next ≤ i ∧ i < n.offered.length ∧ size = (fileAt n.offered i).size
    | .wrote i data _ =>
        ∃ f, n.current = some f ∧ f.index = i ∧
          f.written.length + data.length ≤ (fileAt n.offered i).size.toNat
    | .closed i keep _ =>
        ∃ f, n.current = some f ∧ f.index = i ∧
          (keep = true → f.intact = true ∧ f.written.length = (fileAt n.offered i).size.toNat ∧
            call.crc? = some (crc32 f.written))
    | _ => True

namespace FileReceiver

/-- The receiver agrees with its ledger. -/
structure Tracks (s : FileReceiver) (n : FileLedger) : Prop where
  idle : s.state ≠ .receiving → s.fileOpen = false
  shut : s.fileOpen = false → n.current = none
  opened : s.fileOpen = true → n.next = s.index + 1 ∧ ∃ written,
    n.current = some ⟨s.index, written, true⟩ ∧ written.length = s.received ∧
      s.crc = Crc32.reset.update written
  batch : s.state = .receiving → n.offered = s.files ∧ s.index < s.files.length ∧
    s.received ≤ (fileAt s.files s.index).size.toNat
  fresh : s.state = .receiving → s.fileOpen = false →
    s.received = 0 ∧ s.crc = .reset ∧ n.next ≤ s.index

/-! ## Events the ledger has no opinion on -/

/-- Reports, audit lines and messages that accept nothing. -/
def Quiet : FileReceiverEvent → Prop
  | .send message => isAcceptance message = false
  | .progress _ => True
  | .audit _ _ _ => True
  | _ => False

theorem quiet_pass {es : List FileReceiverEvent} (h : ∀ e ∈ es, Quiet e) (n : FileLedger)
    (call : FileReceiverCall) :
    fileLedger.AllowsAll n call es ∧ fileLedger.afterAll n call es = n := by
  induction es with
  | nil => exact ⟨trivial, rfl⟩
  | cons e es ih =>
    have hrest := ih (fun e' he' => h e' (by simp [he']))
    have he := h e (by simp)
    have hafter : fileLedger.after n call e = n := by
      cases e with
      | send message =>
        have hno : isAcceptance message = false := he
        simp only [fileLedger, hno]
        cases call.offered? <;> rfl
      | progress p => rfl
      | audit batchId what detail => rfl
      | opened _ _ _ _ => exact he.elim
      | wrote _ _ _ => exact he.elim
      | closed _ _ _ => exact he.elim
    have hallow : fileLedger.allows n call e := by
      cases e with
      | send message => trivial
      | progress p => trivial
      | audit batchId what detail => trivial
      | opened _ _ _ _ => exact he.elim
      | wrote _ _ _ => exact he.elim
      | closed _ _ _ => exact he.elim
    rw [Watcher.allowsAll_cons, Watcher.afterAll_cons, hafter]
    exact ⟨⟨hallow, hrest.1⟩, hrest.2⟩

/-- Only a message of type `FileAccept` accepts a batch. -/
theorem isAcceptance_of_type {cap : Nat} {type : MsgType} {flags : UInt8} {sid : UInt32}
    {payload d : Bytes} (htype : type ∈ MsgType.declared) (hne : type ≠ .fileAccept)
    (h : writeCommon cap type flags .file sid payload = some d) : isAcceptance d = false := by
  have hhdr := parseCommonHeader_writeCommon htype (by intro b; simp) h
  unfold isAcceptance
  cases hparse : FileMsg.parse d with
  | none => rfl
  | some m =>
    cases m with
    | accept a =>
      exfalso
      simp only [FileMsg.parse, hhdr, FileMsg.parsePayload] at hparse
      rw [if_neg (by simp)] at hparse
      split at hparse <;> simp_all
    | _ => rfl

theorem quiet_emit_cancel (m : FileCancel) :
    ∀ e ∈ emit (buildFileCancel kMaxRecordSize m), Quiet e := by
  intro e he
  cases hbuild : buildFileCancel kMaxRecordSize m with
  | none => simp [emit, hbuild] at he
  | some d =>
    obtain rfl : e = .send d := by simpa [emit, hbuild] using he
    exact isAcceptance_of_type (by decide) (by simp) hbuild

theorem quiet_ack (s : FileReceiver) (reason : TransferReason) : ∀ e ∈ s.ack reason, Quiet e := by
  intro e he
  cases hbuild : buildFileAck kMaxRecordSize ⟨s.batchId, UInt16.ofNat s.index, reason⟩ with
  | none => simp [ack, emit, hbuild] at he
  | some d =>
    obtain rfl : e = .send d := by simpa [ack, emit, hbuild] using he
    exact isAcceptance_of_type (by decide) (by simp) hbuild

theorem quiet_audit (s : FileReceiver) (what : String) (detail : Bytes) :
    ∀ e ∈ s.audit what detail, Quiet e := by
  intro e he
  obtain rfl := List.mem_singleton.mp he
  trivial

theorem quiet_report (s : FileReceiver) : ∀ e ∈ s.report, Quiet e := by
  intro e he
  obtain rfl := List.mem_singleton.mp he
  trivial

theorem buildFileAccept_isSome (m : FileAccept) :
    ∃ d, buildFileAccept kMaxRecordSize m = some d :=
  ⟨_, writeCommon_eq_some.mpr ⟨by simp [kMaxRecordSize], rfl⟩⟩

/-- The message `OnOffer` sends for a batch. -/
theorem isAcceptance_accept {m : FileAccept} {d : Bytes}
    (h : buildFileAccept kMaxRecordSize m = some d) :
    isAcceptance d = decide (m.reason = .accepted) := by
  have hparse : FileMsg.parse d = some (.accept m) :=
    FileMsg.parse_build (m := .accept m) trivial h
  simp [isAcceptance, hparse]

theorem quiet_refuse (batchId : UInt32) (reason : TransferReason) (h : reason ≠ .accepted) :
    ∀ e ∈ refuse batchId reason, Quiet e := by
  intro e he
  obtain ⟨d, hbuild⟩ := buildFileAccept_isSome ⟨batchId, reason⟩
  have hno := isAcceptance_accept hbuild
  simp only [refuse, emit, hbuild] at he
  rcases List.mem_append.mp he with he | he
  · obtain rfl : e = .send d := by simpa using he
    show isAcceptance d = false
    simp [hno, h]
  · obtain rfl := List.mem_singleton.mp he
    trivial

/-! ## One function at a time -/

/-- The open file, as the ledger has it, is the current one. -/
def Opens (s : FileReceiver) (n : FileLedger) : Prop :=
  (s.fileOpen = true → ∃ f, n.current = some f ∧ f.index = s.index) ∧
    (s.fileOpen = false → n.current = none)

theorem Tracks.opens {s : FileReceiver} {n : FileLedger} (h : s.Tracks n) : s.Opens n := by
  constructor
  · intro hopen
    rcases (h.opened hopen).2 with ⟨written, hcurrent, -⟩
    exact ⟨_, hcurrent, rfl⟩
  · exact h.shut

/-- Without an open batch the ledger has nothing to check. -/
theorem tracks_of_shut {s : FileReceiver} {n : FileLedger} (hopen : s.fileOpen = false)
    (hstate : s.state ≠ .receiving) (hcurrent : n.current = none) : s.Tracks n where
  idle _ := hopen
  shut _ := hcurrent
  opened h := absurd h (by simp [hopen])
  batch h := absurd h hstate
  fresh h := absurd h hstate

/-- Closing the current file, once the ledger allows it. -/
theorem closeCurrent_pass {s : FileReceiver} {n : FileLedger} (h : s.Opens n) (keep : Bool)
    (cb : FileCallbackResults) (call : FileReceiverCall)
    (hkeep : ∀ f, n.current = some f → keep = true → f.intact = true ∧
      f.written.length = (fileAt n.offered s.index).size.toNat ∧
        call.crc? = some (crc32 f.written)) :
    fileLedger.AllowsAll n call (s.closeCurrent keep cb).2.1 ∧
      fileLedger.afterAll n call (s.closeCurrent keep cb).2.1 = { n with current := none } ∧
      (s.closeCurrent keep cb).1 = { s with fileOpen := false } := by
  unfold closeCurrent
  cases hopen : s.fileOpen with
  | false =>
    have hnone := h.2 hopen
    refine ⟨trivial, ?_, ?_⟩
    · cases n
      simp_all
    · cases s
      simp_all
  | true =>
    rcases h.1 hopen with ⟨f, hcurrent, hindex⟩
    refine ⟨⟨⟨f, hcurrent, hindex, fun hk => ?_⟩, trivial⟩, rfl, rfl⟩
    exact hkeep f hcurrent hk

/-- An aborted batch leaves no file open. -/
theorem abort_pass {s : FileReceiver} {n : FileLedger} (h : s.Opens n) (reason : TransferReason)
    (tellPeer : Bool) (cb : FileCallbackResults) (call : FileReceiverCall) :
    fileLedger.AllowsAll n call (s.abort reason tellPeer cb).2 ∧
      (s.abort reason tellPeer cb).1.Tracks
        (fileLedger.afterAll n call (s.abort reason tellPeer cb).2) := by
  rcases closeCurrent_pass h false cb call (by intro f hf hk; cases hk) with
    ⟨hallow, hafter, hstate⟩
  unfold abort
  simp only [hstate]
  generalize hs : ({ s with fileOpen := false, state := .failed, reason := reason } : FileReceiver)
    = s'
  have hquiet : ∀ e ∈ (if tellPeer then emit (buildFileCancel kMaxRecordSize ⟨s.batchId, reason⟩)
      else []) ++ s'.audit "aborted" (transferReasonName reason) ++ s'.report, Quiet e := by
    intro e he
    rcases List.mem_append.mp he with he | he
    · rcases List.mem_append.mp he with he | he
      · split at he
        · exact quiet_emit_cancel _ e he
        · cases he
      · exact quiet_audit _ _ _ e he
    · exact quiet_report _ e he
  have hpass := quiet_pass hquiet { n with current := none } call
  simp only [List.append_assoc] at hpass ⊢
  rw [Watcher.allowsAll_append, Watcher.afterAll_append, hafter, hpass.2]
  refine ⟨⟨hallow, hpass.1⟩, ?_⟩
  subst hs
  exact tracks_of_shut rfl (by simp) rfl

/-- `ensureOpen` gets the current file opened, or aborts the batch. -/
theorem ensureOpen_pass {s : FileReceiver} {n : FileLedger} (h : s.Tracks n)
    (hstate : s.state = .receiving) (cb : FileCallbackResults) (call : FileReceiverCall) :
    fileLedger.AllowsAll n call (s.ensureOpen cb).2.1 ∧
      (s.ensureOpen cb).1.Tracks (fileLedger.afterAll n call (s.ensureOpen cb).2.1) ∧
      ((s.ensureOpen cb).2.2 = true → ∃ stored,
        (s.ensureOpen cb).1 = { s with stored := stored, fileOpen := true }) := by
  unfold ensureOpen
  cases hopen : s.fileOpen with
  | true =>
    refine ⟨trivial, h, ?_⟩
    intro _
    refine ⟨s.stored, ?_⟩
    cases s
    simp_all
  | false =>
    rcases h.fresh hstate hopen with ⟨hreceived, hcrc, hnext⟩
    rcases h.batch hstate with ⟨hfiles, hindex, hle⟩
    have hallow : fileLedger.allows n call (.opened s.index (s.names.getD s.index [])
        (fileAt s.files s.index).size cb.stored) := by
      refine ⟨h.shut hopen, hnext, ?_, ?_⟩
      · rw [hfiles]
        exact hindex
      · rw [hfiles]
    simp only [Bool.false_eq_true, if_false]
    unfold openCurrent
    by_cases hstored : cb.stored = []
    · simp only [hstored, if_true]
      -- the file was not opened: the abort finds nothing to close
      have hopens : s.Opens { n with next := s.index + 1, current := none } := by
        constructor
        · intro ho
          rw [hopen] at ho
          cases ho
        · intro _
          rfl
      have hafter : fileLedger.after n call (.opened s.index (s.names.getD s.index [])
          (fileAt s.files s.index).size []) =
            { n with next := s.index + 1, current := none } := rfl
      rcases abort_pass hopens .writeFailed true cb call with ⟨habort, htracks⟩
      rw [hstored] at hallow
      refine ⟨⟨hallow, hafter ▸ habort⟩, ?_, ?_⟩
      · rw [Watcher.afterAll_cons, hafter]
        exact htracks
      · intro hfalse
        cases hfalse
    · simp only [if_neg hstored]
      refine ⟨⟨hallow, trivial⟩, ?_, fun _ => ⟨_, rfl⟩⟩
      constructor
      · intro hne
        exact absurd hstate hne
      · intro hfalse
        cases hfalse
      · intro _
        refine ⟨rfl, [], ?_, hreceived.symm, hcrc⟩
        simp [fileLedger, hstored]
      · intro _
        exact ⟨hfiles, hindex, hle⟩
      · intro _ hfalse
        cases hfalse

/-- The outputs of a call are allowed, and the ledger still agrees after them. -/
def Passes (n : FileLedger) (call : FileReceiverCall)
    (r : FileReceiver × List FileReceiverEvent) : Prop :=
  fileLedger.AllowsAll n call r.2 ∧ r.1.Tracks (fileLedger.afterAll n call r.2)

theorem Tracks.passes {s : FileReceiver} {n : FileLedger} (h : s.Tracks n)
    (call : FileReceiverCall) {es : List FileReceiverEvent} (hes : ∀ e ∈ es, Quiet e) :
    Passes n call (s, es) := by
  rcases quiet_pass hes n call with ⟨hallow, hafter⟩
  exact ⟨hallow, by rw [hafter]; exact h⟩

theorem onOffer_passes {s : FileReceiver} {n : FileLedger} (h : s.Tracks n) (payload : Bytes)
    (call : FileReceiverCall)
    (hcall : ∀ offer, parseFileOffer payload = some offer → call.offered? = some offer.files) :
    Passes n call (s.onOffer payload) := by
  unfold onOffer
  cases hparse : parseFileOffer payload with
  | none => exact h.passes call (by simp)
  | some offer =>
    by_cases hverdict : (s.admitOffer offer).1 = .accepted
    · simp only [hverdict, ne_eq, not_true_eq_false, if_false]
      -- an admitted offer has files, and finds no batch open
      have hadm : s.state ≠ .receiving ∧ offer.files ≠ [] := by
        unfold admitOffer at hverdict
        grind
      have hcurrent := h.shut (h.idle hadm.1)
      obtain ⟨d, hbuild⟩ := buildFileAccept_isSome ⟨offer.batchId, .accepted⟩
      have haccept : isAcceptance d = true := by simp [isAcceptance_accept hbuild]
      generalize hs : ({ s with
        batchId := offer.batchId
        files := offer.files
        names := (s.admitOffer offer).2
        stored := List.replicate offer.files.length []
        index := 0
        received := 0
        batchReceived := 0
        batchSize := (offer.files.map (fun f => f.size.toNat)).sum
        fileOpen := false
        crc := .reset
        state := .receiving
        reason := .accepted } : FileReceiver) = s'
      have hafter : fileLedger.after n call (.send d) =
          { n with offered := offer.files, next := 0 } := by
        simp [fileLedger, hcall offer hparse, haccept]
      have hquiet : ∀ detail, ∀ e ∈ s'.audit "offered" detail ++ s'.report, Quiet e := by
        intro detail e he
        rcases List.mem_append.mp he with he | he
        · exact quiet_audit _ _ _ e he
        · exact quiet_report _ e he
      have htracks : s'.Tracks { n with offered := offer.files, next := 0 } := by
        subst hs
        constructor
        · intro hne
          exact absurd rfl hne
        · intro _
          exact hcurrent
        · intro hfalse
          cases hfalse
        · intro _
          exact ⟨rfl, List.length_pos_of_ne_nil hadm.2, Nat.zero_le _⟩
        · intro _ _
          exact ⟨rfl, rfl, Nat.le_refl 0⟩
      have hrest := htracks.passes call (hquiet (decimal s'.files.length ++ ascii " files, " ++
        decimal s'.batchSize ++ ascii " bytes"))
      simp only [emit, hbuild, Option.map_some, Option.toList_some, List.append_assoc,
        List.cons_append, List.nil_append] at hrest ⊢
      rw [Passes, Watcher.allowsAll_cons, Watcher.afterAll_cons, hafter]
      exact ⟨⟨trivial, hrest.1⟩, hrest.2⟩
    · simp only [hverdict, ne_eq, not_false_eq_true, if_true]
      exact h.passes call (quiet_refuse _ _ hverdict)

theorem Tracks.abort {s : FileReceiver} {n : FileLedger} (h : s.Tracks n)
    (reason : TransferReason) (tellPeer : Bool) (cb : FileCallbackResults)
    (call : FileReceiverCall) : Passes n call (s.abort reason tellPeer cb) :=
  abort_pass h.opens reason tellPeer cb call

/-- What a write to the open file leaves in the ledger. -/
theorem after_wrote {n : FileLedger} {i : Nat} {written : Bytes}
    (hcurrent : n.current = some ⟨i, written, true⟩) (call : FileReceiverCall) (data : Bytes)
    (ok : Bool) :
    fileLedger.after n call (.wrote i data ok) =
      { n with current := some ⟨i, written ++ data, ok⟩ } := by
  simp [fileLedger, hcurrent]

/-- Events come first, then the rest of the call. -/
theorem Passes.after {n : FileLedger} {call : FileReceiverCall} {es es' : List FileReceiverEvent}
    {s : FileReceiver} (hes : fileLedger.AllowsAll n call es)
    (h : Passes (fileLedger.afterAll n call es) call (s, es')) : Passes n call (s, es ++ es') := by
  rw [Passes, Watcher.allowsAll_append, Watcher.afterAll_append]
  exact ⟨⟨hes, h.1⟩, h.2⟩

/-- A chunk that fits goes to the open file; when the write fails the batch ends. -/
theorem wrote_passes {s : FileReceiver} {n : FileLedger} (h : s.Tracks n)
    (hstate : s.state = .receiving) (hopen : s.fileOpen = true) (data : Bytes)
    (hfits : s.received + data.length ≤ (fileAt s.files s.index).size.toNat)
    (cb : FileCallbackResults) (call : FileReceiverCall) :
    (cb.written = false → Passes n call ((s.abort .writeFailed true cb).1,
      .wrote s.index data cb.written :: (s.abort .writeFailed true cb).2)) ∧
    (cb.written = true →
      let s' := { s with
        crc := s.crc.update data
        received := s.received + data.length
        batchReceived := s.batchReceived + data.length }
      Passes n call (s', .wrote s.index data cb.written :: s'.report)) := by
  rcases h.opened hopen with ⟨hnext, written, hcurrent, hlength, hcrc⟩
  rcases h.batch hstate with ⟨hfiles, hindex, -⟩
  have hafter := after_wrote hcurrent call data cb.written
  have hallow : fileLedger.allows n call (.wrote s.index data cb.written) := by
    refine ⟨_, hcurrent, rfl, ?_⟩
    rw [hfiles, hlength]
    exact hfits
  constructor
  · intro hfailed
    have hopens : s.Opens { n with current := some ⟨s.index, written ++ data, cb.written⟩ } := by
      constructor
      · intro _
        exact ⟨_, rfl, rfl⟩
      · intro hfalse
        rw [hopen] at hfalse
        cases hfalse
    rcases abort_pass hopens .writeFailed true cb call with ⟨habort, htracks⟩
    rw [Passes, Watcher.allowsAll_cons, Watcher.afterAll_cons, hafter]
    exact ⟨⟨hallow, habort⟩, htracks⟩
  · intro hok s'
    have htracks : s'.Tracks { n with current := some ⟨s.index, written ++ data, cb.written⟩ } := by
      constructor
      · intro hne
        exact absurd hstate hne
      · intro hfalse
        exact absurd hopen (by simpa using hfalse)
      · intro _
        refine ⟨hnext, written ++ data, by rw [hok], ?_, ?_⟩
        · simp [s', hlength]
        · rw [← Crc32.update_append, ← hcrc]
      · intro _
        exact ⟨hfiles, hindex, hfits⟩
      · intro _ hfalse
        exact absurd hopen (by simpa using hfalse)
    have hreport := htracks.passes call (quiet_report s')
    rw [Passes, Watcher.allowsAll_cons, Watcher.afterAll_cons, hafter]
    exact ⟨⟨hallow, hreport.1⟩, hreport.2⟩

theorem onChunk_passes {s : FileReceiver} {n : FileLedger} (h : s.Tracks n) (payload : Bytes)
    (cb : FileCallbackResults) (call : FileReceiverCall) :
    Passes n call (s.onChunk payload cb) := by
  unfold onChunk
  cases hparse : parseFileChunk payload with
  | none => exact h.passes call (by simp)
  | some chunk =>
    simp only
    split
    · exact h.passes call (by simp)
    · split
      · exact h.passes call (by simp)
      · next hstate =>
        have hstate : s.state = .receiving := by simpa using hstate
        split
        · exact h.abort _ _ cb call
        · split
          · exact h.abort _ _ cb call
          · next hfits =>
            rcases ensureOpen_pass h hstate cb call with ⟨hallow, htracks, hopened⟩
            cases hok : (s.ensureOpen cb).2.2 with
            | false => exact ⟨hallow, htracks⟩
            | true =>
              rcases hopened hok with ⟨stored, hs⟩
              have hle := (h.batch hstate).2.2
              rw [hs] at htracks
              have hwrote := wrote_passes htracks hstate rfl chunk.data (by
                show s.received + _ ≤ (fileAt s.files s.index).size.toNat
                omega) cb call
              simp only [Bool.not_true, Bool.false_eq_true, if_false]
              rw [hs]
              cases hwritten : cb.written with
              | false =>
                rw [hwritten] at hwrote
                exact Passes.after hallow (hwrote.1 rfl)
              | true =>
                rw [hwritten] at hwrote
                exact Passes.after hallow (hwrote.2 rfl)

/-- After the current file was closed: lines and an answer, then the batch is aborted. -/
theorem closed_abort_passes {s : FileReceiver} {n : FileLedger} (call : FileReceiverCall)
    (cb : FileCallbackResults) (keep : Bool)
    (hallow : fileLedger.AllowsAll n call (s.closeCurrent keep cb).2.1)
    (hafter : fileLedger.afterAll n call (s.closeCurrent keep cb).2.1 = { n with current := none })
    (what : String) (detail : Bytes) (reason : TransferReason) :
    let s' : FileReceiver := { s with fileOpen := false }
    Passes n call ((s'.abort reason false cb).1, (s.closeCurrent keep cb).2.1 ++
      (s'.audit what detail ++ (s'.ack reason ++ (s'.abort reason false cb).2))) := by
  intro s'
  refine Passes.after hallow ?_
  rw [hafter]
  have hopens : s'.Opens { n with current := none } := by
    constructor
    · intro hfalse
      cases hfalse
    · intro _
      rfl
  have haudit := quiet_pass (quiet_audit s' what detail) { n with current := none } call
  have hack := quiet_pass (quiet_ack s' reason) { n with current := none } call
  refine Passes.after haudit.1 ?_
  rw [haudit.2]
  refine Passes.after hack.1 ?_
  rw [hack.2]
  exact abort_pass hopens reason false cb call

/-- The end of a file that is whole and open. -/
theorem finishFile_tracks {s : FileReceiver} {n : FileLedger} (h : s.Tracks n)
    (hstate : s.state = .receiving) (hopen : s.fileOpen = true) :
    (s.files.length ≤ s.index + 1 →
      ({ s with
        fileOpen := false
        index := s.index + 1
        received := 0
        crc := .reset
        state := .done
        reason := .accepted } : FileReceiver).Tracks { n with current := none }) ∧
    (¬ s.files.length ≤ s.index + 1 →
      ({ s with
        fileOpen := false
        index := s.index + 1
        received := 0
        crc := .reset } : FileReceiver).Tracks { n with current := none }) := by
  have hnext := (h.opened hopen).1
  constructor
  · intro _
    exact tracks_of_shut rfl (by simp) rfl
  · intro hmore
    constructor
    · intro hne
      exact absurd hstate hne
    · intro _
      rfl
    · intro hfalse
      cases hfalse
    · intro _
      exact ⟨(h.batch hstate).1, Nat.not_le.mp hmore, Nat.zero_le _⟩
    · intro _ _
      exact ⟨rfl, rfl, Nat.le_of_eq hnext⟩

theorem onDone_passes {s : FileReceiver} {n : FileLedger} (h : s.Tracks n) (payload : Bytes)
    (cb : FileCallbackResults) (call : FileReceiverCall)
    (hcall : ∀ done, parseFileDone payload = some done → call.crc? = some done.crc32) :
    Passes n call (s.onDone payload cb) := by
  unfold onDone
  cases hparse : parseFileDone payload with
  | none => exact h.passes call (by simp)
  | some done =>
    simp only
    split
    · exact h.passes call (by simp)
    · split
      · exact h.passes call (by simp)
      · next hstate =>
        have hstate : s.state = .receiving := by simpa using hstate
        split
        · exact h.abort _ _ cb call
        · next hwhole =>
          push Not at hwhole
          rcases ensureOpen_pass h hstate cb call with ⟨hallow, htracks, hopened⟩
          cases hok : (s.ensureOpen cb).2.2 with
          | false => exact ⟨hallow, htracks⟩
          | true =>
            rcases hopened hok with ⟨stored, hs⟩
            simp only [Bool.not_true, Bool.false_eq_true, if_false]
            rw [hs] at htracks ⊢
            generalize hs₁ : ({ s with stored := stored, fileOpen := true } : FileReceiver) = s₁
              at htracks ⊢
            generalize hn : fileLedger.afterAll n call (s.ensureOpen cb).2.1 = n₁ at htracks
            have hstate₁ : s₁.state = .receiving := by rw [← hs₁]; exact hstate
            have hopen₁ : s₁.fileOpen = true := by rw [← hs₁]
            have hwhole₁ : s₁.received = (fileAt s₁.files s₁.index).size.toNat := by
              rw [← hs₁]
              exact hwhole.2
            rcases htracks.opened hopen₁ with ⟨-, written, hcurrent, hlength, hcrc⟩
            split
            · -- the checksum is wrong: the file is closed without keeping it
              rcases closeCurrent_pass htracks.opens false cb call (by intro f hf hk; cases hk) with
                ⟨hclose, hafter, hs'⟩
              simp only [hs', List.append_assoc]
              refine Passes.after hallow ?_
              rw [hn]
              exact closed_abort_passes call cb false hclose hafter _ _ _
            · next hsum =>
              have hkeep : ∀ f, n₁.current = some f → true = true → f.intact = true ∧
                  f.written.length = (fileAt n₁.offered s₁.index).size.toNat ∧
                    call.crc? = some (crc32 f.written) := by
                intro f hf _
                obtain rfl := Option.some.inj (hcurrent.symm.trans hf)
                refine ⟨rfl, ?_, ?_⟩
                · rw [(htracks.batch hstate₁).1]
                  exact hlength.trans hwhole₁
                · have hsum : done.crc32 = s₁.crc.value := by simpa using hsum
                  rw [hcall done hparse, hsum, hcrc, Crc32.value_update]
              rcases closeCurrent_pass htracks.opens true cb call hkeep with ⟨hclose, hafter, hs'⟩
              cases hkept : (s₁.closeCurrent true cb).2.2 with
              | false =>
                -- the file could not be stored
                simp only [hs', Bool.not_false, if_true, List.append_assoc]
                refine Passes.after hallow ?_
                rw [hn]
                exact closed_abort_passes call cb true hclose hafter _ _ _
              | true =>
                have hfinish := finishFile_tracks htracks hstate₁ hopen₁
                simp only [hs', Bool.not_true, Bool.false_eq_true, if_false]
                split
                · next hlast =>
                  simp only [List.append_assoc]
                  refine Passes.after hallow ?_
                  rw [hn]
                  refine Passes.after hclose ?_
                  rw [hafter]
                  refine (hfinish.1 hlast).passes call ?_
                  intro e he
                  simp only [List.mem_append] at he
                  rcases he with he | he | he | he
                  · exact quiet_audit _ _ _ e he
                  · exact quiet_ack _ _ e he
                  · exact quiet_audit _ _ _ e he
                  · exact quiet_report _ e he
                · next hmore =>
                  simp only [List.append_assoc]
                  refine Passes.after hallow ?_
                  rw [hn]
                  refine Passes.after hclose ?_
                  rw [hafter]
                  refine (hfinish.2 hmore).passes call ?_
                  intro e he
                  simp only [List.mem_append] at he
                  rcases he with he | he | he
                  · exact quiet_audit _ _ _ e he
                  · exact quiet_ack _ _ e he
                  · exact quiet_report _ e he

/-! ## Calls and runs -/

theorem handleMessage_passes {s : FileReceiver} {n : FileLedger} (h : s.Tracks n)
    (message : Bytes) (cb : FileCallbackResults) :
    Passes n (.handleMessage message cb) (s.handleMessage message cb) := by
  unfold handleMessage
  cases hhdr : parseCommonHeader message with
  | none => exact h.passes _ (by simp)
  | some header =>
    simp only
    split
    · exact h.passes _ (by simp)
    · next hchan =>
      -- what the ledger reads from the message is what the handler parses
      have hmessage : FileMsg.parse message =
          FileMsg.parsePayload header.type (payloadOf message) := by
        simp [FileMsg.parse, hhdr, hchan]
      split
      · next htype =>
        refine onOffer_passes h _ _ ?_
        intro offer hparse
        simp [FileReceiverCall.offered?, FileReceiverCall.message?, hmessage, htype,
          FileMsg.parsePayload, hparse]
      · exact onChunk_passes h _ cb _
      · next htype =>
        refine onDone_passes h _ cb _ ?_
        intro done hparse
        simp [FileReceiverCall.crc?, FileReceiverCall.message?, hmessage, htype,
          FileMsg.parsePayload, hparse]
      · unfold onCancel
        cases hparse : parseFileCancel (payloadOf message) with
        | none => exact h.passes _ (by simp)
        | some cancel =>
          simp only
          split
          · exact h.passes _ (by simp)
          · split
            · exact h.passes _ (by simp)
            · exact h.abort _ _ cb _
      · exact h.passes _ (by simp)

theorem step_passes {s : FileReceiver} {n : FileLedger} (h : s.Tracks n)
    (call : FileReceiverCall) : Passes n call (fileReceiver.step s call) := by
  cases call with
  | handleMessage message cb => exact handleMessage_passes h message cb
  | setAccepting on cb =>
    have hset : ({ s with accepting := on } : FileReceiver).Tracks n :=
      ⟨h.idle, h.shut, h.opened, h.batch, h.fresh⟩
    simp only [fileReceiver, setAccepting]
    split
    · exact hset.abort _ _ cb _
    · exact hset.passes _ (by simp)
  | linkLost cb =>
    simp only [fileReceiver, linkLost]
    split
    · exact h.passes _ (by simp)
    · exact h.abort _ _ cb _
  | setLimits limits =>
    have hset : ({ s with limits := limits } : FileReceiver).Tracks n :=
      ⟨h.idle, h.shut, h.opened, h.batch, h.fresh⟩
    exact hset.passes _ (by simp)

theorem init_tracks : ({} : FileReceiver).Tracks {} :=
  tracks_of_shut rfl (by decide) rfl

/-- In every run the ledger allows every callback of a fresh receiver, and no file
is open at its end unless a batch is being received. -/
theorem callbacks_bracketed (calls : List FileReceiverCall) :
    fileLedger.Accepts {} (fileReceiver.trace {} calls) ∧
      ((fileReceiver.run {} calls).1.state ≠ .receiving →
        (fileLedger.finish {} (fileReceiver.trace {} calls)).current = none ∧
          (fileReceiver.run {} calls).1.fileOpen = false) := by
  rcases fileLedger.watch Tracks init_tracks (fun s n call h => step_passes h call) calls with
    ⟨haccept, hend⟩
  refine ⟨haccept, ?_⟩
  intro hstate
  have hshut := hend.idle hstate
  exact ⟨hend.shut hshut, hshut⟩

end FileReceiver

end Deskhub
