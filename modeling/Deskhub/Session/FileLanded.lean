import Deskhub.Session.FileBrackets
import Deskhub.Session.FileTransfer
import Deskhub.Transfer.FileStoreRuns

/-!
# A transfer ends on the disk

The receiver of a transfer with the store that its callbacks call: what the store was given for the
open file is what the receiver wrote to it, and a file the receiver was told is kept is in the
directory. Together with the transfer itself this is the way of a file from the sender to the
directory of the host.
-/

namespace Deskhub

open OrdMap

/-- The call of a store behind a callback of the receiver. -/
def FileLinkEvent.storeCall? : FileLinkEvent → Option FileStoreEvent
  | .receiver _ (.opened i safeName size stored) => some (.opened (UInt16.ofNat i) safeName size stored)
  | .receiver _ (.wrote i data ok) => some (.wrote (UInt16.ofNat i) data ok)
  | .receiver _ (.closed i keep ok) => some (.closed (UInt16.ofNat i) keep ok)
  | _ => none

/-- The calls of the store in a run of the link. -/
def storeCalls (out : List FileLinkEvent) : List FileStoreEvent := out.filterMap FileLinkEvent.storeCall?

theorem storeCalls_append (xs ys : List FileLinkEvent) : storeCalls (xs ++ ys) = storeCalls xs ++ storeCalls ys :=
  List.filterMap_append

namespace Landed

/-- The log of the link and the results of the store agree on the open file. -/
def OpenAgrees (current : Option OpenFile) (out : List FileLinkEvent) : Prop :=
  ∀ f, current = some f → (writeLog out).written = f.written ∧
    (f.intact = true → writtenBy (storeCalls out) (UInt16.ofNat f.index) = f.written)

/-- The callback that kept a file, and what the store had been given for it. -/
structure KeptAt (k : KeptFile) (out xs ys : List FileLinkEvent) : Prop where
  split : out = xs ++ .receiver k.batchId (.closed k.index true true) :: ys
  written : writtenBy (storeCalls xs) (UInt16.ofNat k.index) = k.written

/-- Each file that was stored was closed when the store had just what was written. -/
def KeptAgree (out : List FileLinkEvent) : Prop :=
  ∀ k ∈ keptFiles out, k.stored = true → ∃ xs ys, KeptAt k out xs ys

theorem KeptAt.append {k : KeptFile} {out xs ys : List FileLinkEvent} (h : KeptAt k out xs ys)
    (new : List FileLinkEvent) : KeptAt k (out ++ new) xs (ys ++ new) :=
  ⟨by rw [h.split]; simp, h.written⟩

theorem KeptAgree.append {out new : List FileLinkEvent} (h : KeptAgree out)
    (hsame : keptFiles (out ++ new) = keptFiles out) : KeptAgree (out ++ new) := by
  intro k hk hstored
  rw [hsame] at hk
  rcases h k hk hstored with ⟨xs, ys, hkept⟩
  exact ⟨xs, ys ++ new, hkept.append new⟩

/-- A callback that is not about a file changes nothing. -/
theorem agree_other {current : Option OpenFile} {out : List FileLinkEvent} {e : FileLinkEvent}
    (h : OpenAgrees current out) (hkept : KeptAgree out) (hcall : e.storeCall? = none)
    (hlog : ∀ l : WriteLog, l.record e = l) :
    OpenAgrees current (out ++ [e]) ∧ KeptAgree (out ++ [e]) := by
  have hlog' : writeLog (out ++ [e]) = writeLog out := by
    rw [writeLog_append]
    exact hlog _
  constructor
  · intro f hf
    rw [hlog', storeCalls_append]
    simp only [storeCalls, List.filterMap_cons, hcall, List.filterMap_nil, List.append_nil]
    exact h f hf
  · refine hkept.append ?_
    unfold keptFiles
    rw [hlog']

/-- The step lemma: a callback that the ledger allows. -/
theorem agree_step {n : FileLedger} {call : FileReceiverCall} {out : List FileLinkEvent} (b : UInt32)
    {e : FileReceiverEvent} (hallow : fileLedger.allows n call e) (h : OpenAgrees n.current out)
    (hkept : KeptAgree out) :
    OpenAgrees (fileLedger.after n call e).current (out ++ [.receiver b e]) ∧
      KeptAgree (out ++ [.receiver b e]) := by
  cases e with
  | send message =>
    have hcurrent : (fileLedger.after n call (.send message)).current = n.current := by
      simp only [fileLedger]
      split
      · split <;> rfl
      · rfl
    rw [hcurrent]
    exact agree_other h hkept rfl fun _ => rfl
  | progress p => exact agree_other h hkept rfl fun _ => rfl
  | audit batchId what detail => exact agree_other h hkept rfl fun _ => rfl
  | opened i safeName size stored =>
    -- nothing is written yet of a file that was opened
    constructor
    · intro f hf
      simp only [fileLedger] at hf
      split at hf
      · cases hf
      · cases hf
        constructor
        · rw [writeLog_append]
          rfl
        · intro _
          rw [storeCalls_append, StoreWorld.writtenBy_append]
          simp [storeCalls, FileLinkEvent.storeCall?, recordAll, FileStoreEvent.record]
    · refine hkept.append ?_
      unfold keptFiles
      rw [writeLog_append]
      rfl
  | wrote i data ok =>
    -- the log and the store grow alike while each write is taken
    rcases hallow with ⟨f₀, hcurrent, rfl, -⟩
    rcases h f₀ hcurrent with ⟨hlog, hstore⟩
    constructor
    · intro f hf
      simp only [fileLedger, hcurrent, Option.map_some, Option.some.injEq] at hf
      subst hf
      constructor
      · rw [writeLog_append]
        simp [WriteLog.record, hlog]
      · intro hintact
        rw [Bool.and_eq_true] at hintact
        rw [storeCalls_append, StoreWorld.writtenBy_append]
        simp [storeCalls, FileLinkEvent.storeCall?, recordAll, FileStoreEvent.record, hintact.2,
          ← hstore hintact.1]
    · refine hkept.append ?_
      unfold keptFiles
      rw [writeLog_append]
      rfl
  | closed i keep ok =>
    rcases hallow with ⟨f₀, hcurrent, rfl, hkeep⟩
    rcases h f₀ hcurrent with ⟨hlog, hstore⟩
    constructor
    · intro f hf
      cases hf
    · cases keep with
      | false =>
        refine hkept.append ?_
        unfold keptFiles
        rw [writeLog_append]
        rfl
      | true =>
        intro k hk hstored
        have hfiles : keptFiles (out ++ [.receiver b (.closed f₀.index true ok)]) =
            keptFiles out ++ [⟨b, f₀.index, (writeLog out).written, ok⟩] := by
          unfold keptFiles
          rw [writeLog_append]
          rfl
        rw [hfiles, List.mem_append, List.mem_singleton] at hk
        rcases hk with hk | rfl
        · rcases hkept k hk hstored with ⟨xs, ys, hat⟩
          exact ⟨xs, _, hat.append _⟩
        · -- the file that is kept now
          have hok : ok = true := hstored
          subst hok
          exact ⟨out, [], ⟨rfl, by rw [hlog]; exact hstore (hkeep rfl).1⟩⟩

/-- The callbacks of one call of the receiver. -/
theorem agree_call {n : FileLedger} {call : FileReceiverCall} {out : List FileLinkEvent} (b : UInt32)
    {es : List FileReceiverEvent} (hallow : fileLedger.AllowsAll n call es) (h : OpenAgrees n.current out)
    (hkept : KeptAgree out) :
    OpenAgrees (fileLedger.afterAll n call es).current (out ++ es.map (.receiver b)) ∧
      KeptAgree (out ++ es.map (.receiver b)) := by
  induction es generalizing n out with
  | nil => simpa using ⟨h, hkept⟩
  | cons e es ih =>
    rcases agree_step b hallow.1 h hkept with ⟨hopen, hkept'⟩
    have hrest := ih hallow.2 hopen hkept'
    simpa using hrest

/-- What the sender does is not about the store. -/
theorem agree_sender {current : Option OpenFile} {out : List FileLinkEvent} (h : OpenAgrees current out)
    (hkept : KeptAgree out) (es : List FileSenderEvent) :
    OpenAgrees current (out ++ es.map .sender) ∧ KeptAgree (out ++ es.map .sender) := by
  induction es generalizing out with
  | nil => simpa using ⟨h, hkept⟩
  | cons e es ih =>
    rcases agree_other h hkept (e := .sender e) rfl fun _ => rfl with ⟨hopen, hkept'⟩
    simpa using ih hopen hkept'

/-- The receiver is in step with its ledger, and the ledger with the log and the store. -/
def Agrees (s : FileLink) (out : List FileLinkEvent) : Prop :=
  ∃ n : FileLedger, s.receiver.Tracks n ∧ OpenAgrees n.current out ∧ KeptAgree out

theorem Agrees.senderActs {s : FileLink} {out : List FileLinkEvent} (h : Agrees s out)
    (r : FileSender × List FileSenderEvent) : Agrees (s.senderActs r).1 (out ++ (s.senderActs r).2) := by
  rcases h with ⟨n, htracks, hopen, hkept⟩
  exact ⟨n, htracks, agree_sender hopen hkept r.2⟩

theorem Agrees.receiverActs {s : FileLink} {out : List FileLinkEvent} (h : Agrees s out)
    (call : FileReceiverCall) :
    Agrees (s.receiverActs (fileReceiver.step s.receiver call)).1
      (out ++ (s.receiverActs (fileReceiver.step s.receiver call)).2) := by
  rcases h with ⟨n, htracks, hopen, hkept⟩
  rcases FileReceiver.step_passes htracks call with ⟨hallow, htracks'⟩
  exact ⟨_, htracks', agree_call _ hallow hopen hkept⟩

theorem Agrees.step {s : FileLink} {out : List FileLinkEvent} (h : Agrees s out) (input : FileLinkInput) :
    Agrees (fileLink.step s input).1 (out ++ (fileLink.step s input).2) := by
  have hsame : Agrees s (out ++ []) := by simpa using h
  cases input with
  | offer batchId files takes => exact h.senderActs _
  | pump ios => exact h.senderActs _
  | cancel takesCancel => exact h.senderActs _
  | senderLinkLost => exact h.senderActs _
  | deliverToSender takesCancel =>
    simp only [fileLink, FileLink.deliverToSender]
    split
    · exact hsame
    · next rest hlink =>
      have hpopped : Agrees { s with toSender := rest } out := h
      exact hpopped.senderActs _
  | deliverToReceiver cb =>
    simp only [fileLink, FileLink.deliverToReceiver]
    split
    · exact hsame
    · next message rest hlink =>
      have hpopped : Agrees { s with toReceiver := rest } out := h
      exact hpopped.receiverActs (.handleMessage message cb)
  | receiverCall call =>
    simp only [fileLink]
    split
    · exact h.receiverActs call
    · exact hsame

theorem run_agrees (inputs : List FileLinkInput) : Agrees (fileLink.run {} inputs).1 (fileLink.run {} inputs).2 := by
  refine Machine.run_invariant' Agrees ?_ (fun s out input h => h.step input) inputs
  refine ⟨{}, FileReceiver.init_tracks, ?_, ?_⟩
  · intro f hf
    cases hf
  · intro k hk
    cases hk

end Landed

/-! ## A batch that is done is on the disk -/

/-- A step in the run of a store that puts `content` under `target`, a name that nothing has then.
It stays there unless another program changes it. -/
structure PutAt (d : StoreDir) (steps before : List FileStoreInput) (step : FileStoreInput)
    (after : List FileStoreInput) (index : UInt16) (target content : Bytes) : Prop where
  split : steps = before ++ step :: after
  closes : (fileStore.step (fileStore.run { dir := d } before).1 step).2 = [.closed index true true]
  free : (fileStore.run { dir := d } before).1.dir target = none
  stays : ∀ mid rest, after = mid ++ rest → (∀ c, FileStoreInput.others target c ∉ mid) →
    (fileStore.run { dir := d } (before ++ step :: mid)).1.dir target = some content

section

variable {d : StoreDir} {steps : List FileStoreInput}

/-- The step of the store behind a file that the link kept. -/
theorem Landed.KeptAt.put (hleaves : fileStore.Along LeavesParts { dir := d } steps) {k : KeptFile}
    {out xs ys : List FileLinkEvent} (h : Landed.KeptAt k out xs ys)
    (hcalls : (fileStore.run { dir := d } steps).2 = storeCalls out) :
    ∃ before step after target, PutAt d steps before step after (UInt16.ofNat k.index) target k.written := by
  have hsplit : (fileStore.run { dir := d } steps).2 =
      storeCalls xs ++ .closed (UInt16.ofNat k.index) true true :: storeCalls ys := by
    rw [hcalls, h.split, storeCalls_append]
    rfl
  rcases Machine.split_of_output (fun w input => w.store.step_one w.dir input) hsplit with
    ⟨before, step, after, rfl, hbefore, hout⟩
  have hto : ∀ mid rest, after = mid ++ rest →
      fileStore.Along LeavesParts { dir := d } ((before ++ [step]) ++ mid) := by
    rintro mid rest rfl
    rw [show before ++ step :: (mid ++ rest) = ((before ++ [step]) ++ mid) ++ rest by simp] at hleaves
    exact hleaves.left
  have hkept : .closed (UInt16.ofNat k.index) true true ∈
      (fileStore.step (fileStore.run { dir := d } before).1 step).2 := by
    rw [hout]
    exact List.mem_singleton_self _
  rcases StoreWorld.step_places d (hto [] after rfl).left hkept with ⟨target, hfree, hplaced, hnot⟩
  rw [hbefore, h.written] at hplaced
  refine ⟨before, step, after, target, rfl, hout, hfree, ?_⟩
  intro mid rest hafter hothers
  rw [show before ++ step :: mid = (before ++ [step]) ++ mid by simp]
  exact (StoreWorld.run_leaves d (hto mid rest hafter) hnot hplaced hothers).1

variable {before₁ after₁ before₂ after₂ : List FileStoreInput} {step₁ step₂ : FileStoreInput} {i₁ i₂ : UInt16}
  {target₁ target₂ content₁ content₂ : Bytes}

/-- A file is put under a name that no file has that was put in place before. -/
theorem PutAt.apart (h₁ : PutAt d steps before₁ step₁ after₁ i₁ target₁ content₁)
    (h₂ : PutAt d steps before₂ step₂ after₂ i₂ target₂ content₂) (hlt : before₁.length < before₂.length)
    (hothers : ∀ c, FileStoreInput.others target₁ c ∉ steps) : target₁ ≠ target₂ := by
  rintro rfl
  -- the second is put in place in what is left of the run after the first
  have hfirst : before₁ ++ [step₁] <+: steps := ⟨after₁, by simp [h₁.split]⟩
  have hsecond : before₂ <+: steps := ⟨step₂ :: after₂, h₂.split.symm⟩
  have hstart : before₁ ++ [step₁] <+: before₂ :=
    List.prefix_of_prefix_length_le hfirst hsecond (by simpa [Nat.succ_le_iff] using hlt)
  obtain ⟨mid, rfl⟩ := hstart
  have hafter : after₁ = mid ++ step₂ :: after₂ := by
    have hsame := h₁.split.symm.trans h₂.split
    simpa using hsame
  have hkept := h₁.stays mid (step₂ :: after₂) hafter fun c hmem => hothers c (by rw [h₂.split]; simp [hmem])
  rw [show before₁ ++ step₁ :: mid = (before₁ ++ [step₁]) ++ mid by simp, h₂.free] at hkept
  cases hkept

/-- One step puts one file in place. -/
theorem PutAt.index_eq (h₁ : PutAt d steps before₁ step₁ after₁ i₁ target₁ content₁)
    (h₂ : PutAt d steps before₂ step₂ after₂ i₂ target₂ content₂)
    (heq : before₁.length = before₂.length) : i₁ = i₂ := by
  obtain ⟨rfl, hrest⟩ := List.append_inj (h₁.split.symm.trans h₂.split) heq
  obtain ⟨rfl, -⟩ := List.cons.inj hrest
  have hcloses := h₁.closes.symm.trans h₂.closes
  simpa using hcloses

/-- Two files of a batch are put under two names. -/
theorem PutAt.target_ne (h₁ : PutAt d steps before₁ step₁ after₁ i₁ target₁ content₁)
    (h₂ : PutAt d steps before₂ step₂ after₂ i₂ target₂ content₂) (hne : i₁ ≠ i₂)
    (h₁others : ∀ c, FileStoreInput.others target₁ c ∉ steps)
    (h₂others : ∀ c, FileStoreInput.others target₂ c ∉ steps) : target₁ ≠ target₂ := by
  rcases Nat.lt_trichotomy before₁.length before₂.length with hlt | heq | hlt
  · exact h₁.apart h₂ hlt h₁others
  · exact absurd (h₁.index_eq h₂ heq) hne
  · exact (h₂.apart h₁ hlt h₂others).symm

end

/-- A batch that the sender is done with is on the disk of the receiver: each file was put, with all its
bytes, under a name that nothing had, and no two files are put under one name. -/
theorem Landed.lands {content : UInt32 → Nat → Bytes} {s : FileLink} {out : List FileLinkEvent}
    {seen ahead : List FileMsg} (h : LinkInv content s out seen ahead) (hagrees : Landed.Agrees s out)
    {d : StoreDir} {steps : List FileStoreInput} (hleaves : fileStore.Along LeavesParts { dir := d } steps)
    (hcalls : (fileStore.run { dir := d } steps).2 = storeCalls out) (hdone : s.sender.state = .done) :
    ∃ target : Nat → Bytes,
      (∀ i < s.sender.files.length, ∃ before step after,
        PutAt d steps before step after (UInt16.ofNat i) (target i) (content s.sender.batchId i)) ∧
      ∀ i < s.sender.files.length, ∀ j < s.sender.files.length, i ≠ j →
        (∀ c, FileStoreInput.others (target i) c ∉ steps) →
          (∀ c, FileStoreInput.others (target j) c ∉ steps) → target i ≠ target j := by
  rcases h.sender.finished hdone with ⟨o, hlast, hid, hfiles, hall⟩
  rcases hagrees with ⟨-, -, -, hkeptAgree⟩
  have hfew : s.sender.files.length ≤ kMaxTransferFiles := by
    rw [hfiles]
    exact (h.sent.ok o (List.mem_of_getLast? hlast)).few
  -- each file was put in place when the receiver kept it
  have hput : ∀ i, ∃ target, i < s.sender.files.length → ∃ before step after,
      PutAt d steps before step after (UInt16.ofNat i) target (content s.sender.batchId i) := by
    intro i
    by_cases hi : i < s.sender.files.length
    · rcases hall i (hfiles ▸ hi) with ⟨k, hk, hbatch, hindex, hstored⟩
      rcases hkeptAgree k hk hstored with ⟨xs, ys, hat⟩
      rcases hat.put hleaves hcalls with ⟨before, step, after, target, hputAt⟩
      rw [(h.receiver.kept k hk).1, hbatch, hindex, ← hid] at hputAt
      exact ⟨target, fun _ => ⟨before, step, after, hputAt⟩⟩
    · exact ⟨[], fun hlt => absurd hlt hi⟩
  choose target htarget using hput
  refine ⟨target, htarget, ?_⟩
  intro i hi j hj hne hiothers hjothers
  rcases htarget i hi with ⟨before₁, step₁, after₁, h₁⟩
  rcases htarget j hj with ⟨before₂, step₂, after₂, h₂⟩
  refine h₁.target_ne h₂ ?_ hiothers hjothers
  intro heq
  have hnat := congrArg UInt16.toNat heq
  simp only [UInt16.toNat_ofNat'] at hnat
  unfold kMaxTransferFiles at hfew
  omega

end Deskhub
