import Deskhub.Session.FileTransfer
import Deskhub.Session.FileUpload

/-!
# Runs of an upload

The calls of other threads and the reader come in any order. `Begin` is only asked that it is not
called while a batch that ended is still being told, or while it is called already. Then the ring
feeds the sender in every state in which a batch is under way.
-/

namespace Deskhub

/-! ## The calls -/

namespace UploadCall

/-- Calls that no longer touch the ring or the reader, or never did. -/
def harmless : UploadCall → Bool
  | .flushing | .telling _ => true
  | _ => false

def begins : UploadCall → Bool
  | .checked | .beginning _ => true
  | _ => false

/-- The thread that a call waits for. -/
def joins : UploadCall → Option Nat
  | .beginning thread | .joining thread _ => thread
  | _ => none

end UploadCall

/-- What is asked of the callers: `Begin` is called when the batch before was told. -/
def BeginsAlone (s : FileUpload) : FileUploadInput → Prop
  | .begin => s.pending.finish = none ∧ ∀ call ∈ s.calls, call.harmless = true
  | _ => True

/-- What is asked of the disk: each read of a file of the batch is `genuine`. -/
def ReadsGenuine (genuine : UInt32 → ReadChunk → Prop) (s : FileUpload) : FileUploadInput → Prop
  | .readerTurn thread answer => ∀ r, s.threads.lookup thread = some r →
      genuine s.sender.batchId ⟨r.index, r.offset, r.reads answer⟩
  | _ => True

namespace FileUpload

variable (genuine : UInt32 → ReadChunk → Prop)

/-- The invariant of an upload, its reader and its callers. -/
structure Inv (s : FileUpload) : Prop where
  /-- A thread is the one that `reader_` stands for, or a call waits for it. -/
  accounted : ∀ p ∈ s.threads, s.reader = some p.1 ∨ ∃ call ∈ s.calls, call.joins = some p.1
  feeds : s.sender.busy = true → s.pending.finish = none ∧ (∀ call ∈ s.calls, call.harmless = true) ∧
    ∃ old fresh hi, Feeds genuine s old fresh hi
  begins : (∃ call ∈ s.calls, call.begins = true) → s.sender.busy = false ∧ s.pending.finish = none ∧
    (∀ call ∈ s.calls, call.harmless = true ∨ call.begins = true) ∧
    s.calls.countP UploadCall.begins = 1 ∧ ∀ thread, .beginning thread ∈ s.calls → s.reader = none
  bytes : s.ringBytes = (s.ring.map ReadChunk.size).sum
  bounded : s.ringBytes < kMaxReadAheadBytes + kMaxFileChunkBytes
  held : ∀ p ∈ s.threads, ∀ c, p.2.held = some c → c.size ≤ kMaxFileChunkBytes

variable {genuine} {s : FileUpload}

theorem Inv.init : Inv genuine {} := by
  refine ⟨?_, ?_, ?_, rfl, ?_, ?_⟩
  · simp
  · intro h
    cases h
  · simp
  · decide
  · simp

/-! ## Bytes in the ring -/

theorem foldl_sub (xs : List ReadChunk) (n : Nat) :
    xs.foldl (fun n c => n - c.data.length) n = n - (xs.map ReadChunk.size).sum := by
  induction xs generalizing n with
  | nil => rfl
  | cons c cs ih =>
    rw [List.foldl_cons, ih, List.map_cons, List.sum_cons, Nat.sub_sub]
    rfl

/-- The ring is accounted for and no longer than before. -/
structure Shrinks (s s' : FileUpload) : Prop where
  bytes : s.ringBytes = (s.ring.map ReadChunk.size).sum → s'.ringBytes = (s'.ring.map ReadChunk.size).sum
  le : s'.ringBytes ≤ s.ringBytes

theorem Shrinks.refl (s : FileUpload) : Shrinks s s := ⟨id, le_rfl⟩

theorem Shrinks.trans {s' s'' : FileUpload} (h : Shrinks s s') (h' : Shrinks s' s'') : Shrinks s s'' :=
  ⟨fun hbytes => h'.bytes (h.bytes hbytes), h'.le.trans h.le⟩

theorem shrinks_dropStale (s : FileUpload) (index offset : Nat) : Shrinks s (s.dropStale index offset) := by
  unfold dropStale
  constructor
  · intro hbytes
    dsimp only
    have hsplit := congrArg (fun xs => (xs.map ReadChunk.size).sum)
      (List.takeWhile_append_dropWhile (p := ReadChunk.isStale index offset) (l := s.ring))
    simp only [List.map_append, List.sum_append] at hsplit
    rw [foldl_sub, hbytes]
    omega
  · dsimp only
    rw [foldl_sub]
    exact Nat.sub_le _ _

theorem shrinks_senderActs (s : FileUpload) (r : FileSender × List FileSenderEvent) :
    Shrinks s (s.senderActs r).1 := by
  rcases senderActs_frame s r with ⟨-, -, hring, hbytes⟩
  constructor
  · rw [hring, hbytes]
    exact id
  · rw [hbytes]

theorem shrinks_turns (s : FileUpload) (as : List SendAnswers) : Shrinks s (s.turns as).1 := by
  induction as generalizing s with
  | nil => exact .refl s
  | cons a as ih =>
    have hturn : Shrinks s (s.turn a).1 := by
      rw [turn_eq]
      refine Shrinks.trans ?_ (shrinks_senderActs _ _)
      split
      · exact shrinks_dropStale s _ _
      · exact .refl s
    unfold turns
    split
    · exact .refl s
    · dsimp only
      split
      · exact hturn
      · exact hturn.trans (ih _)

theorem shrinks_pump (s : FileUpload) (maxChunks : Nat) (answers : Nat → SendAnswers) :
    Shrinks s (s.pump maxChunks answers).1 := by
  unfold pump
  split
  · exact shrinks_turns s _
  · exact .refl s

/-! ## Calls that let the sender act -/

/-- What a call made of the sender: it left it, or the batch goes on, or it ended. -/
structure Acts (genuine : UInt32 → ReadChunk → Prop) (s : FileUpload) (r : FileUpload × List UploadEvent) :
    Prop where
  frame : SenderOnly s r.1
  shrinks : Shrinks s r.1
  idle : s.sender.busy = false → r.1.sender = s.sender ∧ r.1.pending = s.pending
  busy : s.sender.busy = true → ∀ old fresh hi, Feeds genuine s old fresh hi →
    (∃ old' fresh', Feeds genuine r.1 old' fresh' hi ∧ r.1.sender.busy = true ∧
      r.1.pending.finish = s.pending.finish) ∨ r.1.sender.busy = false

theorem Inv.acts (h : Inv genuine s) {r : FileUpload × List UploadEvent} (hacts : Acts genuine s r) :
    Inv genuine (flush r).1 := by
  have hcalls : (flush r).1.calls = s.calls ++ [.flushing] := by
    show r.1.calls ++ [.flushing] = _
    rw [hacts.frame.calls]
  have hnone : (∃ call ∈ s.calls ++ [UploadCall.flushing], call.begins = true) → s.sender.busy = false := by
    rintro ⟨call, hmem, hbegins⟩
    simp only [List.mem_append, List.mem_singleton] at hmem
    rcases hmem with hmem | rfl
    · exact (h.begins ⟨call, hmem, hbegins⟩).1
    · cases hbegins
  refine ⟨?_, ?_, ?_, hacts.shrinks.bytes h.bytes, lt_of_le_of_lt hacts.shrinks.le h.bounded, ?_⟩
  · intro p hmem
    -- a thread is the reader or awaited by a call, as it was before
    rw [hcalls]
    change p ∈ r.1.threads at hmem
    rw [hacts.frame.threads] at hmem
    show r.1.reader = some p.1 ∨ _
    rw [hacts.frame.reader]
    rcases h.accounted p hmem with hreader | ⟨call, hcall, hjoins⟩
    · exact .inl hreader
    · exact .inr ⟨call, by simp [hcall], hjoins⟩
  · intro hbusy'
    cases hbusy : s.sender.busy with
    | false =>
      change r.1.sender.busy = true at hbusy'
      rw [(hacts.idle hbusy).1, hbusy] at hbusy'
      cases hbusy'
    | true =>
      rcases h.feeds hbusy with ⟨hfinish, hharmless, old, fresh, hi, hfeeds⟩
      -- the batch goes on, or it is over and nothing has to be fed
      rcases hacts.busy hbusy old fresh hi hfeeds with ⟨old', fresh', hfeeds', -, hfinish'⟩ | hover
      · refine ⟨hfinish'.trans hfinish, ?_, old', fresh', hi, ?_⟩
        · rw [hcalls]
          intro call hmem
          simp only [List.mem_append, List.mem_singleton] at hmem
          rcases hmem with hmem | rfl
          · exact hharmless call hmem
          · rfl
        · exact ⟨hfeeds'.running, hfeeds'.placed, hfeeds'.ring, hfeeds'.old_le, hfeeds'.fits, hfeeds'.sent,
            hfeeds'.next, hfeeds'.source⟩
      · change r.1.sender.busy = true at hbusy'
        rw [hover] at hbusy'
        cases hbusy'
  · rw [hcalls]
    intro hbegins
    have hidle := hacts.idle (hnone hbegins)
    have hold : ∃ call ∈ s.calls, call.begins = true := by
      rcases hbegins with ⟨call, hmem, hcall⟩
      simp only [List.mem_append, List.mem_singleton] at hmem
      rcases hmem with hmem | rfl
      · exact ⟨call, hmem, hcall⟩
      · cases hcall
    rcases h.begins hold with ⟨hbusy, hfinish, hkinds, hone, hreader⟩
    refine ⟨?_, ?_, ?_, ?_, ?_⟩
    · show r.1.sender.busy = false
      rw [hidle.1, hbusy]
    · show r.1.pending.finish = none
      rw [hidle.2, hfinish]
    · intro call hmem
      simp only [List.mem_append, List.mem_singleton] at hmem
      rcases hmem with hmem | rfl
      · exact hkinds call hmem
      · exact .inl rfl
    · rw [List.countP_append, hone]
      rfl
    · intro thread hmem
      simp only [List.mem_append, List.mem_singleton, reduceCtorEq, or_false] at hmem
      show r.1.reader = none
      rw [hacts.frame.reader]
      exact hreader thread hmem
  · intro p hmem
    change p ∈ r.1.threads at hmem
    rw [hacts.frame.threads] at hmem
    exact h.held p hmem

/-- A message, a cancel or the end of the link: the sender stays where it stands, or the batch is over. -/
structure StandsOrEnds (s : FileSender) (r : FileSender × List FileSenderEvent) : Prop where
  idle : s.busy = false → r = (s, [])
  busy : s.busy = true → r.1.busy = false ∨ r.1.busy = true ∧ r.1.files = s.files ∧ r.1.batchId = s.batchId ∧
    r.1.index = s.index ∧ r.1.sent = s.sent ∧ FileSender.GoesOn r.2

theorem busy_finish {s : FileSender} {state : FileSenderState} (reason : TransferReason)
    (h : state ≠ .offering ∧ state ≠ .sending) : (s.finish state reason).1.busy = false := by
  simp [FileSender.busy, FileSender.finish, h.1, h.2]

theorem busy_abort (s : FileSender) (reason : TransferReason) (takesCancel : Bool) :
    (s.abort reason takesCancel).1.busy = false := by
  unfold FileSender.abort
  exact busy_finish reason (by simp)

theorem standsOrEnds_handleMessage (s : FileSender) (message : Bytes) (takesCancel : Bool) :
    StandsOrEnds s (s.handleMessage message takesCancel) := by
  refine ⟨FileSender.handleMessage_of_not_busy, ?_⟩
  intro hbusy
  rcases s.handleMessage_cases message takesCancel with hnothing | ⟨state, reason, -, hstate, hends⟩ |
    ⟨ack, -, -, -, -, -, haborts⟩ | ⟨hoffering, haccepts⟩ | hacked
  · rw [hnothing]
    exact .inr ⟨hbusy, rfl, rfl, rfl, rfl, by simp [FileSender.GoesOn]⟩
  · rw [hends]
    exact .inl (busy_finish reason (by rcases hstate with rfl | rfl <;> simp))
  · rw [haborts]
    exact .inl (busy_abort _ _ _)
  · rw [haccepts]
    exact .inr ⟨by simp [FileSender.busy], rfl, rfl, rfl, rfl, by simp [FileSender.GoesOn, FileSender.report]⟩
  · rw [FileSender.handleMessage_of_acknowledges hacked]
    split
    · exact .inl (busy_finish _ (by simp))
    · exact .inr ⟨hbusy, rfl, rfl, rfl, rfl, by simp [FileSender.GoesOn]⟩

theorem standsOrEnds_cancel (s : FileSender) (takesCancel : Bool) : StandsOrEnds s (s.cancel takesCancel) := by
  unfold FileSender.cancel
  constructor
  · intro hbusy
    rw [hbusy]
    rfl
  · intro hbusy
    rw [hbusy]
    exact .inl (busy_abort _ _ _)

theorem standsOrEnds_linkLost (s : FileSender) : StandsOrEnds s s.linkLost := by
  unfold FileSender.linkLost
  constructor
  · intro hbusy
    rw [hbusy]
    rfl
  · intro hbusy
    rw [hbusy]
    exact .inl (busy_finish _ (by simp))

theorem StandsOrEnds.acts {r : FileSender × List FileSenderEvent} (h : StandsOrEnds s.sender r) :
    Acts genuine s (s.senderActs r) := by
  rcases senderActs_frame s r with ⟨hframe, hsender, hring, -⟩
  refine ⟨hframe, shrinks_senderActs s r, ?_, ?_⟩
  · intro hbusy
    rw [h.idle hbusy]
    exact ⟨rfl, rfl⟩
  · intro hbusy old fresh hi hfeeds
    rw [hsender]
    rcases h.busy hbusy with hover | ⟨hstill, hfiles, hbatch, hindex, hsent, hgoes⟩
    · exact .inr hover
    · left
      have hstand : (s.senderActs r).1.sender.stand = s.sender.stand := by
        unfold FileSender.stand
        rw [hsender, hfiles, hindex, hsent]
      have hsame : (s.senderActs r).1.sender.files = s.sender.files ∧
          (s.senderActs r).1.sender.batchId = s.sender.batchId := by
        rw [hsender]
        exact ⟨hfiles, hbatch⟩
      refine ⟨old, fresh, ⟨?_, ?_, hring.trans hfeeds.ring, hfeeds.old_le, ?_, ?_, ?_, ?_⟩, hstill, ?_⟩
      · exact (foldl_hook_goesOn _ hgoes).1.trans hfeeds.running
      · have hplaced := hfeeds.placed
        rw [hsender]
        refine ⟨?_, ?_, ?_⟩
        · rw [hfiles]
          exact hplaced.few
        · rw [hfiles, hindex]
          exact hplaced.index_le
        · rw [hfiles, hindex, hsent]
          exact hplaced.sent_le
      · rw [hsame.1, hsame.2]
        exact hfeeds.fits
      · rw [hsame.1, hstand]
        exact hfeeds.sent
      · rw [hsame.1, hstand]
        exact hfeeds.next
      · exact hfeeds.source.congr hframe hsame.1 hsame.2
      · exact (foldl_hook_goesOn _ hgoes).2

theorem acts_pump (s : FileUpload) (maxChunks : Nat) (answers : Nat → SendAnswers)
    (hbusy : s.sender.busy = true → ∃ old fresh hi, Feeds genuine s old fresh hi) :
    Acts genuine s (s.pump maxChunks answers) := by
  refine ⟨?_, shrinks_pump s maxChunks answers, ?_, ?_⟩
  · cases hstill : s.sender.busy with
    | true =>
      rcases hbusy hstill with ⟨old, fresh, hi, hfeeds⟩
      exact (hfeeds.pump maxChunks answers).1
    | false =>
      have hnot : s.sender.state ≠ .sending := fun hstate => by simp [FileSender.busy, hstate] at hstill
      unfold pump
      rw [if_neg hnot]
      exact ⟨rfl, rfl, rfl, rfl, rfl, rfl⟩
  · intro hidle
    have hnot : s.sender.state ≠ .sending := fun hstate => by simp [FileSender.busy, hstate] at hidle
    unfold pump
    rw [if_neg hnot]
    exact ⟨rfl, rfl⟩
  · intro hstill old fresh hi hfeeds
    rcases (hfeeds.pump maxChunks answers).2 with ⟨old', fresh', hfeeds', hcontinues⟩ | ⟨-, hfailed, -⟩
    · rcases hcontinues.moves with ⟨n, hmoves⟩
      refine .inl ⟨old', fresh', hfeeds', ?_, hcontinues.finish⟩
      unfold FileSender.busy at hstill ⊢
      rw [hmoves.state]
      exact hstill
    · exact .inr (by simp [FileSender.busy, hfailed])

/-! ## Calls that go on -/

/-- One call among the others. -/
theorem calls_split {i : Nat} {call : UploadCall} {calls : List UploadCall} (h : calls[i]? = some call) :
    ∃ xs ys, calls = xs ++ call :: ys ∧ calls.eraseIdx i = xs ++ ys ∧
      ∀ call', calls.set i call' = xs ++ call' :: ys := by
  rcases List.getElem?_eq_some_iff.mp h with ⟨hlt, rfl⟩
  refine ⟨calls.take i, calls.drop (i + 1), ?_, ?_, ?_⟩
  · simp
  · exact List.eraseIdx_eq_take_drop_succ ..
  · intro call'
    exact List.set_eq_take_append_cons_drop .. |>.trans (if_pos hlt)

theorem joins_of_harmless {call : UploadCall} (h : call.harmless = true) : call.joins = none := by
  cases call <;> first | rfl | cases h

theorem begins_of_harmless {call : UploadCall} (h : call.harmless = true) : call.begins = false := by
  cases call <;> first | rfl | cases h

/-- The call between `xs` and `ys` goes on as `call'`, which is no `Begin`, or returns. Where a batch is
under way it has to stay harmless. -/
theorem Inv.call (h : Inv genuine s) {s' : FileUpload} {xs ys : List UploadCall} {call : UploadCall}
    (hcalls : s.calls = xs ++ call :: ys) {call' : Option UploadCall}
    (hcalls' : s'.calls = xs ++ call'.toList ++ ys) (hbegins : call.begins = false)
    (hbegins' : ∀ c, call' = some c → c.begins = false)
    (hsender : s'.sender = s.sender) (hthreads : s'.threads = s.threads)
    (haccounted : ∀ p ∈ s.threads, s.reader = some p.1 ∨ call.joins = some p.1 →
      s'.reader = some p.1 ∨ ∃ c, call' = some c ∧ c.joins = some p.1)
    (hreader : s.reader = none → s'.reader = none)
    (hfeeds : s.sender.busy = true → s.pending.finish = none → call.harmless = true →
      s'.pending.finish = none ∧ (∀ c, call' = some c → c.harmless = true) ∧
        ∀ old fresh hi, Feeds genuine s old fresh hi → Feeds genuine s' old fresh hi)
    (hidle : s.pending.finish = none → call.harmless = true →
      s'.pending.finish = none ∧ ∀ c, call' = some c → c.harmless = true)
    (hshrinks : Shrinks s s') : Inv genuine s' := by
  have hmem : ∀ c, c ∈ s'.calls → c ∈ s.calls ∨ call' = some c := by
    intro c hc
    rw [hcalls'] at hc
    simp only [List.mem_append, Option.mem_toList] at hc
    rw [hcalls]
    rcases hc with (hc | hc) | hc
    · simp [hc]
    · exact .inr hc
    · simp [hc]
  have hother : ∀ c, c ∈ s.calls → c = call ∨ c ∈ s'.calls := by
    intro c hc
    rw [hcalls] at hc
    rw [hcalls']
    simp only [List.mem_append, List.mem_cons] at hc ⊢
    tauto
  refine ⟨?_, ?_, ?_, hshrinks.bytes h.bytes, lt_of_le_of_lt hshrinks.le h.bounded, ?_⟩
  · intro p hp
    rw [hthreads] at hp
    -- only the call that moves can stop awaiting a thread
    have hthis : s.reader = some p.1 ∨ call.joins = some p.1 →
        s'.reader = some p.1 ∨ ∃ c ∈ s'.calls, c.joins = some p.1 := by
      intro hby
      rcases haccounted p hp hby with hreader' | ⟨c, hc, hjoins⟩
      · exact .inl hreader'
      · exact .inr ⟨c, by rw [hcalls', hc]; simp, hjoins⟩
    rcases h.accounted p hp with hby | ⟨c, hc, hjoins⟩
    · exact hthis (.inl hby)
    · rcases hother c hc with rfl | hc'
      · exact hthis (.inr hjoins)
      · exact .inr ⟨c, hc', hjoins⟩
  · intro hbusy
    rw [hsender] at hbusy
    rcases h.feeds hbusy with ⟨hfinish, hharmless, old, fresh, hi, hring⟩
    rcases hfeeds hbusy hfinish (hharmless call (by rw [hcalls]; simp)) with ⟨hfinish', hcall, hkeeps⟩
    refine ⟨hfinish', ?_, old, fresh, hi, hkeeps old fresh hi hring⟩
    intro c hc
    rcases hmem c hc with hc | hc
    · exact hharmless c hc
    · exact hcall c hc
  · rintro ⟨c, hc, hcbegins⟩
    have hold : ∃ c ∈ s.calls, c.begins = true := by
      rcases hmem c hc with hc' | hc'
      · exact ⟨c, hc', hcbegins⟩
      · rw [hbegins' c hc'] at hcbegins
        cases hcbegins
    rcases h.begins hold with ⟨hbusy, hfinish, hkinds, hone, hnone⟩
    -- the call that begins is another one
    have hharmless : call.harmless = true := by
      rcases hkinds call (by rw [hcalls]; simp) with hharmless | hyes
      · exact hharmless
      · rw [hbegins] at hyes
        cases hyes
    rcases hidle hfinish hharmless with ⟨hfinish', hcall⟩
    refine ⟨by rw [hsender]; exact hbusy, hfinish', ?_, ?_, ?_⟩
    · intro c hc
      rcases hmem c hc with hc | hc
      · exact hkinds c hc
      · exact .inl (hcall c hc)
    · rw [hcalls] at hone
      rw [hcalls']
      simp only [List.countP_append, List.countP_cons, hbegins, Bool.false_eq_true, if_false] at hone ⊢
      have hzero : call'.toList.countP UploadCall.begins = 0 := by
        rw [List.countP_eq_zero]
        intro c hc
        rw [hbegins' c (Option.mem_toList.mp hc)]
        simp
      omega
    · intro thread hc
      rcases hmem _ hc with hc | hc
      · exact hreader (hnone thread hc)
      · have hno := hbegins' _ hc
        cases hno
  · intro p hp
    rw [hthreads] at hp
    exact h.held p hp

/-- What the ring is does not depend on the calls. -/
theorem Feeds.congr {s' : FileUpload} {old fresh : List ReadChunk} {hi : Nat} (h : Feeds genuine s old fresh hi)
    (hframe : s'.readerStop = s.readerStop ∧ s'.sender = s.sender ∧ s'.ring = s.ring ∧ s'.reader = s.reader ∧
      s'.threads = s.threads ∧ s'.readerEof = s.readerEof ∧ s'.readerFailed = s.readerFailed) :
    Feeds genuine s' old fresh hi := by
  rcases hframe with ⟨hstop, hsender, hring, hreader, hthreads, heof, hfailed⟩
  refine ⟨hstop.trans h.running, hsender ▸ h.placed, hring.trans h.ring, h.old_le, ?_, ?_, ?_, ?_⟩
  · rw [hsender]
    exact h.fits
  · rw [hsender]
    exact h.sent
  · rw [hsender]
    exact h.next
  · unfold SourceAt
    rw [hsender, hreader, hthreads, heof, hfailed]
    exact h.source

theorem lookup_eq_none {threads : List (Nat × ReaderThread)} {thread : Nat}
    (h : (threads.lookup thread).isNone = true) : ∀ p ∈ threads, p.1 ≠ thread := by
  rw [Option.isNone_iff_eq_none, List.lookup_eq_none_iff] at h
  intro p hp heq
  have hne := h p hp
  rw [heq] at hne
  simp at hne

/-- `Begin` alone has no thread left when it goes on. -/
theorem Inv.begin_alone (h : Inv genuine s) {xs ys : List UploadCall} {joins : Option Nat}
    (hcalls : s.calls = xs ++ .beginning joins :: ys) (hjoined : s.joined joins = true) :
    s.threads = [] ∧ s.sender.busy = false ∧ s.pending.finish = none ∧
      ∀ c ∈ xs ++ ys, c.harmless = true := by
  rcases h.begins ⟨.beginning joins, by rw [hcalls]; simp, rfl⟩ with ⟨hbusy, hfinish, hkinds, hone, hnone⟩
  have hharmless : ∀ c ∈ xs ++ ys, c.harmless = true := by
    intro c hc
    rcases hkinds c (by rw [hcalls]; simp at hc ⊢; tauto) with hharmless | hbegins
    · exact hharmless
    · -- there is only one `Begin`
      exfalso
      rw [hcalls] at hone
      have hpos : 0 < (xs ++ ys).countP UploadCall.begins := List.countP_pos_iff.mpr ⟨c, hc, hbegins⟩
      have hthis : UploadCall.begins (.beginning joins) = true := rfl
      simp only [List.countP_append, List.countP_cons, hthis, if_true] at hone hpos
      omega
  refine ⟨?_, hbusy, hfinish, hharmless⟩
  rw [List.eq_nil_iff_forall_not_mem]
  intro p hp
  rcases h.accounted p hp with hreader | ⟨c, hc, hcjoins⟩
  · rw [hnone joins (by rw [hcalls]; simp)] at hreader
    cases hreader
  · rw [hcalls] at hc
    have hcases : c ∈ xs ++ ys ∨ c = .beginning joins := by
      simp at hc ⊢
      tauto
    rcases hcases with hc | rfl
    · rw [joins_of_harmless (hharmless c hc)] at hcjoins
      cases hcjoins
    · have hcjoins : joins = some p.1 := hcjoins
      subst hcjoins
      exact lookup_eq_none hjoined p hp rfl

/-- An upload that is not in a batch, with no thread and no `Begin`. -/
theorem Inv.resting (h : Inv genuine s) {s' : FileUpload} (hthreads : s'.threads = [])
    (hbusy : s'.sender.busy = false) (hcalls : ∀ c ∈ s'.calls, c.harmless = true)
    (hring : s'.ring = s.ring ∧ s'.ringBytes = s.ringBytes) : Inv genuine s' := by
  refine ⟨?_, ?_, ?_, ?_, ?_, ?_⟩
  · simp [hthreads]
  · intro hstill
    rw [hbusy] at hstill
    cases hstill
  · rintro ⟨c, hc, hbegins⟩
    rw [begins_of_harmless (hcalls c hc)] at hbegins
    cases hbegins
  · rw [hring.1, hring.2]
    exact h.bytes
  · rw [hring.2]
    exact h.bounded
  · simp [hthreads]

/-- An offer that went out, for the files that were chosen. -/
theorem offer_placed {s : FileSender} {batchId : UInt32} {files : List TransferFile} {takes : Bool}
    (h : (s.offer batchId files takes).2.2 = true) :
    (s.offer batchId files takes).1.state = .offering ∧ (s.offer batchId files takes).1.batchId = batchId ∧
      (s.offer batchId files takes).1.index = 0 ∧ (s.offer batchId files takes).1.sent = 0 ∧
      (s.offer batchId files takes).1.files.length ≤ kMaxTransferFiles ∧
      sizesOf (s.offer batchId files takes).1.files = sizesOf files ∧
      ∃ message, buildFileOffer kMaxRecordSize ⟨batchId, (s.offer batchId files takes).1.files⟩ = some message ∧
        (s.offer batchId files takes).2.1 = [.sent message] := by
  unfold FileSender.offer at h ⊢
  split at h
  · cases h
  · next hbusy =>
    rw [if_neg hbusy]
    split at h
    · cases h
    · next hcount =>
      rw [if_neg hcount]
      cases hcheck : FileSender.checkFiles files 0 with
      | none =>
        rw [hcheck] at h
        cases h
      | some checked =>
        obtain ⟨named, total⟩ := checked
        rw [hcheck] at h
        dsimp only at h ⊢
        cases hbuild : buildFileOffer kMaxRecordSize ⟨batchId, named⟩ with
        | none =>
          rw [hbuild] at h
          cases h
        | some message =>
          rw [hbuild] at h
          dsimp only at h ⊢
          cases takes with
          | false => cases h
          | true =>
            rcases checkFiles_size hcheck with ⟨hlength, hsize⟩
            refine ⟨rfl, rfl, rfl, rfl, ?_, ?_, message, hbuild, rfl⟩
            · show named.length ≤ kMaxTransferFiles
              rw [hlength]
              simp only [not_or, not_lt] at hcount
              exact hcount.2
            · show sizesOf named = sizesOf files
              refine List.ext_getElem (by simp [sizesOf, hlength]) ?_
              intro i hi hi'
              have hsame := hsize i
              have hlt : i < named.length := by simpa [sizesOf] using hi
              have hlt' : i < files.length := by simpa [sizesOf] using hi'
              unfold fileAt at hsame
              rw [List.getD_eq_getElem _ _ hlt, List.getD_eq_getElem _ _ hlt'] at hsame
              simp [sizesOf, hsame]

/-- An offer that did not go out. -/
theorem offer_refused {s : FileSender} {batchId : UInt32} {files : List TransferFile} {takes : Bool}
    (h : (s.offer batchId files takes).2.2 = false) :
    (s.busy = false → (s.offer batchId files takes).1.busy = false) ∧ (s.offer batchId files takes).2.1 = [] := by
  unfold FileSender.offer at h ⊢
  split
  · exact ⟨id, rfl⟩
  · next hnot =>
    rw [if_neg hnot] at h
    split
    · exact ⟨id, rfl⟩
    · next hcount =>
      rw [if_neg hcount] at h
      cases hcheck : FileSender.checkFiles files 0 with
      | none => exact ⟨id, rfl⟩
      | some checked =>
        obtain ⟨named, total⟩ := checked
        rw [hcheck] at h
        dsimp only at h ⊢
        cases hbuild : buildFileOffer kMaxRecordSize ⟨batchId, named⟩ with
        | none => exact ⟨fun _ => rfl, rfl⟩
        | some message =>
          rw [hbuild] at h
          cases takes with
          | false => exact ⟨fun _ => rfl, rfl⟩
          | true => cases h

/-- The end of `Begin`. -/
theorem Inv.beginOn (h : Inv genuine s) (hthreads : s.threads = []) (hbusy : s.sender.busy = false)
    (hfinish : s.pending.finish = none) (hcalls : ∀ c ∈ s.calls, c.harmless = true) (paths : List PathFacts)
    (takes : Bool) : Inv genuine (s.beginOn paths takes).1 := by
  unfold FileUpload.beginOn
  split
  · exact h.resting hthreads hbusy hcalls ⟨rfl, rfl⟩
  · next files hfiles =>
    split
    · exact h.resting hthreads hbusy hcalls ⟨rfl, rfl⟩
    · dsimp only
      rcases senderActs_frame s ((s.sender.offer s.nextBatchId files takes).1,
        (s.sender.offer s.nextBatchId files takes).2.1) with ⟨hframe, hsender, hring, hbytes⟩
      cases hok : (s.sender.offer s.nextBatchId files takes).2.2 with
      | false =>
        -- the sender refuses the batch
        have hidle := (offer_refused hok).1 hbusy
        simp only [Bool.not_false, if_true]
        refine h.resting (hframe.threads.trans hthreads) ?_ ?_ ⟨hring, hbytes⟩
        · show (s.senderActs _).1.sender.busy = false
          rw [hsender]
          exact hidle
        · show ∀ c ∈ (s.senderActs _).1.calls, _
          rw [hframe.calls]
          exact hcalls
      | true =>
        -- the reader begins with the first byte of the first file, as the sender does
        rcases offer_placed hok with ⟨hstate, hbatch, hindex, hsent, hfew, hsizes, message, -, hout⟩
        have hgoes : FileSender.GoesOn (s.sender.offer s.nextBatchId files takes).2.1 := by
          simp [hout, FileSender.GoesOn]
        simp only [Bool.not_true, Bool.false_eq_true, if_false]
        generalize hs₁ : (s.senderActs ((s.sender.offer s.nextBatchId files takes).1,
          (s.sender.offer s.nextBatchId files takes).2.1)).1 = s₁ at *
        have hpending : s₁.pending.finish = none := by
          rw [← hs₁]
          exact (foldl_hook_goesOn _ hgoes).2.trans hfinish
        rw [← hsender] at hstate hindex hsent hfew hsizes
        have hone : s₁.threads = [] := hframe.threads.trans hthreads
        refine ⟨?_, ?_, ?_, rfl, ?_, ?_⟩
        · intro p hp
          left
          simp only [startReader, hone, List.mem_singleton] at hp
          rw [hp]
          rfl
        · intro _
          refine ⟨hpending, ?_, [], [], 0, ?_⟩
          · show ∀ c ∈ s₁.calls, _
            rw [hframe.calls]
            exact hcalls
          · have hstand : s₁.sender.stand = 0 := by
              unfold FileSender.stand Extents.place
              rw [hindex, hsent, Extents.start_zero]
            refine ⟨rfl, ⟨hfew, ?_, ?_⟩, rfl, by simp, by simp, by simp, hstand, ?_⟩
            · show s₁.sender.index ≤ _
              rw [hindex]
              exact Nat.zero_le _
            · show s₁.sender.sent ≤ _
              rw [hsent]
              exact Nat.zero_le _
            · refine .inl ⟨s₁.nextThread, { plan := files }, rfl, ?_, rfl, rfl, ?_⟩
              · simp [startReader, hone]
              · exact ⟨hsizes.symm, Nat.zero_le _, by simp [Extents.place], by simp⟩
        · rintro ⟨c, hc, hbegins⟩
          change c ∈ s₁.calls at hc
          rw [hframe.calls] at hc
          rw [begins_of_harmless (hcalls c hc)] at hbegins
          cases hbegins
        · show 0 < kMaxReadAheadBytes + kMaxFileChunkBytes
          decide
        · intro p hp c hc
          simp only [startReader, hone, List.mem_singleton] at hp
          rw [hp] at hc
          cases hc

theorem Inv.goOn (h : Inv genuine s) (i : Nat) (paths : List PathFacts) (takes : Bool) :
    Inv genuine (s.goOn i paths takes).1 := by
  unfold FileUpload.goOn
  cases hcall : s.calls[i]? with
  | none => exact h
  | some call =>
    rcases calls_split hcall with ⟨xs, ys, hcalls, herase, hset⟩
    cases call with
    | checked =>
      -- `Begin` stops the thread of the batch before, and waits for it
      rcases h.begins ⟨.checked, by rw [hcalls]; simp, rfl⟩ with ⟨hbusy, hfinish, hkinds, hone, -⟩
      have hcalls' : ((s.stopReader.1).callGoesOn i (.beginning s.stopReader.2)).calls =
          xs ++ .beginning s.reader :: ys := hset _
      refine ⟨?_, ?_, ?_, h.bytes, h.bounded, h.held⟩
      · intro p hp
        right
        rw [hcalls']
        rcases h.accounted p hp with hreader | ⟨c, hc, hjoins⟩
        · exact ⟨.beginning s.reader, by simp, hreader⟩
        · refine ⟨c, ?_, hjoins⟩
          rw [hcalls] at hc
          simp only [List.mem_append, List.mem_cons] at hc ⊢
          rcases hc with hc | rfl | hc
          · exact .inl hc
          · cases hjoins
          · exact .inr (.inr hc)
      · intro hstill
        change s.sender.busy = true at hstill
        rw [hbusy] at hstill
        cases hstill
      · intro _
        rw [hcalls']
        refine ⟨hbusy, hfinish, ?_, ?_, fun _ _ => rfl⟩
        · intro c hc
          simp only [List.mem_append, List.mem_cons] at hc
          rcases hc with hc | rfl | hc
          · exact hkinds c (by rw [hcalls]; simp [hc])
          · exact .inr rfl
          · exact hkinds c (by rw [hcalls]; simp [hc])
        · rw [hcalls] at hone
          simpa [List.countP_cons, UploadCall.begins] using hone
    | beginning joins =>
      dsimp only
      split
      · next hjoined =>
        rcases h.begin_alone hcalls hjoined with ⟨hthreads, hbusy, hfinish, hharmless⟩
        have hrest : Inv genuine (s.callReturns i) := by
          refine h.resting hthreads hbusy ?_ ⟨rfl, rfl⟩
          show ∀ c ∈ s.calls.eraseIdx i, _
          rw [herase]
          exact hharmless
        refine hrest.beginOn hthreads hbusy hfinish ?_ paths takes
        show ∀ c ∈ s.calls.eraseIdx i, _
        rw [herase]
        exact hharmless
      · exact h
    | flushing =>
      dsimp only
      have hcalls' : ({ s with pending := {} }.callGoesOn i (if s.pending.finish = none then
          .telling s.pending else .stopping s.pending)).calls =
          xs ++ (some (if s.pending.finish = none then UploadCall.telling s.pending
            else .stopping s.pending)).toList ++ ys := by
        show s.calls.set i _ = _
        rw [hset]
        simp
      refine h.call hcalls hcalls' rfl ?_ rfl rfl ?_ id ?_ ?_ ⟨id, le_rfl⟩
      · rintro c hc
        obtain rfl := Option.some.inj hc
        split <;> rfl
      · rintro p hp (hreader | hjoins)
        · exact .inl hreader
        · cases hjoins
      · intro _ hnone _
        refine ⟨rfl, ?_, fun old fresh hi hfeeds => hfeeds.congr ⟨rfl, rfl, rfl, rfl, rfl, rfl, rfl⟩⟩
        rintro c hc
        rw [if_pos hnone] at hc
        obtain rfl := Option.some.inj hc
        rfl
      · intro hnone _
        refine ⟨rfl, ?_⟩
        rintro c hc
        rw [if_pos hnone] at hc
        obtain rfl := Option.some.inj hc
        rfl
    | stopping ready =>
      have hcalls' : ((s.stopReader.1).callGoesOn i (.joining s.stopReader.2 ready)).calls =
          xs ++ (some (UploadCall.joining s.reader ready)).toList ++ ys := by
        show s.calls.set i _ = _
        rw [hset]
        simp [stopReader]
      refine h.call hcalls hcalls' rfl ?_ rfl rfl ?_ (fun _ => rfl) ?_ ?_ ⟨id, le_rfl⟩
      · rintro c hc
        obtain rfl := Option.some.inj hc
        rfl
      · rintro p hp (hreader | hjoins)
        · exact .inr ⟨_, rfl, hreader⟩
        · cases hjoins
      · intro _ _ hharmless
        cases hharmless
      · intro _ hharmless
        cases hharmless
    | joining joins ready =>
      dsimp only
      split
      · next hjoined =>
        have hcalls' : ({ s with ring := [], ringBytes := 0 }.callGoesOn i (.telling ready)).calls =
            xs ++ (some (UploadCall.telling ready)).toList ++ ys := by
          show s.calls.set i _ = _
          rw [hset]
          simp
        refine h.call hcalls hcalls' rfl ?_ rfl rfl ?_ id ?_ ?_ ⟨fun _ => rfl, Nat.zero_le _⟩
        · rintro c hc
          obtain rfl := Option.some.inj hc
          rfl
        · rintro p hp (hreader | hjoins)
          · exact .inl hreader
          · -- that thread is gone
            have hjoins : joins = some p.1 := hjoins
            subst hjoins
            exact absurd rfl (lookup_eq_none hjoined p hp)
        · intro _ _ hharmless
          cases hharmless
        · intro _ hharmless
          cases hharmless
      · exact h
    | telling ready =>
      have hcalls' : (s.callReturns i).calls = xs ++ (none : Option UploadCall).toList ++ ys := by
        show s.calls.eraseIdx i = _
        rw [herase]
        simp
      refine h.call hcalls hcalls' rfl (by simp) rfl rfl ?_ id ?_ ?_ ⟨id, le_rfl⟩
      · rintro p hp (hreader | hjoins)
        · exact .inl hreader
        · cases hjoins
      · intro _ hnone _
        exact ⟨hnone, by simp, fun old fresh hi hfeeds => hfeeds.congr ⟨rfl, rfl, rfl, rfl, rfl, rfl, rfl⟩⟩
      · intro hnone _
        exact ⟨hnone, by simp⟩

/-! ## Steps and runs -/

theorem lookup_mem {threads : List (Nat × ReaderThread)} {thread : Nat} {r : ReaderThread}
    (h : threads.lookup thread = some r) : (thread, r) ∈ threads := by
  rcases List.lookup_eq_some_iff.mp h with ⟨xs, ys, rfl, -⟩
  simp

theorem mem_threadGoesOn {thread : Nat} {r : ReaderThread} {p : Nat × ReaderThread}
    (h : p ∈ (s.threadGoesOn thread r).threads) : p = (thread, r) ∨ p ∈ s.threads := by
  unfold threadGoesOn at h
  rcases List.mem_map.mp h with ⟨q, hq, rfl⟩
  split
  · exact .inl rfl
  · exact .inr hq

/-- The thread that goes on is one of those that ran. -/
theorem exists_of_mem_threadGoesOn {thread : Nat} {r : ReaderThread} {p : Nat × ReaderThread}
    (h : p ∈ (s.threadGoesOn thread r).threads) : ∃ q ∈ s.threads, q.1 = p.1 := by
  unfold threadGoesOn at h
  rcases List.mem_map.mp h with ⟨q, hq, rfl⟩
  refine ⟨q, hq, ?_⟩
  split
  · next heq => exact heq
  · rfl

/-- What a turn of the reader leaves alone. -/
structure ReaderOnly (s s' : FileUpload) : Prop where
  sender : s'.sender = s.sender
  pending : s'.pending = s.pending
  calls : s'.calls = s.calls
  reader : s'.reader = s.reader
  nextBatchId : s'.nextBatchId = s.nextBatchId
  threads : ∀ p ∈ s'.threads, ∃ q ∈ s.threads, q.1 = p.1

theorem threadReturns_only (thread : Nat) : ReaderOnly s (s.threadReturns thread) :=
  ⟨rfl, rfl, rfl, rfl, rfl, fun p hp => ⟨p, (List.mem_filter.mp hp).1, rfl⟩⟩

theorem threadGoesOn_only (thread : Nat) (r : ReaderThread) : ReaderOnly s (s.threadGoesOn thread r) :=
  ⟨rfl, rfl, rfl, rfl, rfl, fun _ hp => exists_of_mem_threadGoesOn hp⟩

/-- The reader leaves the sender and the calls alone, and never fills the ring beyond its bound. -/
structure ReaderTurn (s s' : FileUpload) : Prop where
  only : ReaderOnly s s'
  bytes : s.ringBytes = (s.ring.map ReadChunk.size).sum → s'.ringBytes = (s'.ring.map ReadChunk.size).sum
  bounded : s.ringBytes < kMaxReadAheadBytes + kMaxFileChunkBytes →
    s'.ringBytes < kMaxReadAheadBytes + kMaxFileChunkBytes
  held : ∀ p ∈ s'.threads, ∀ c, p.2.held = some c → c.size ≤ kMaxFileChunkBytes

theorem readerTurn_turn (hheld : ∀ p ∈ s.threads, ∀ c, p.2.held = some c → c.size ≤ kMaxFileChunkBytes)
    (thread : Nat) (answer : Option Bytes) : ReaderTurn s (s.readerTurn thread answer) := by
  have hstays : ReaderTurn s s := ⟨⟨rfl, rfl, rfl, rfl, rfl, fun p hp => ⟨p, hp, rfl⟩⟩, id, id, hheld⟩
  -- of the threads that still run
  have hreturns : ∀ p ∈ (s.threadReturns thread).threads, ∀ c, p.2.held = some c →
      c.size ≤ kMaxFileChunkBytes := by
    intro p hp
    exact hheld p (List.mem_filter.mp hp).1
  have hgoesOn : ∀ r, (∀ c, r.held = some c → c.size ≤ kMaxFileChunkBytes) →
      ∀ p ∈ (s.threadGoesOn thread r).threads, ∀ c, p.2.held = some c → c.size ≤ kMaxFileChunkBytes := by
    intro r hr p hp
    rcases mem_threadGoesOn hp with rfl | hp
    · exact hr
    · exact hheld p hp
  unfold FileUpload.readerTurn
  split
  · exact hstays
  · next r hlookup =>
    split
    · next chunk hchunk =>
      have hsize := hheld _ (lookup_mem hlookup) chunk hchunk
      split
      · exact ⟨threadReturns_only thread, id, id, hreturns⟩
      · split
        · next hroom =>
          refine ⟨⟨rfl, rfl, rfl, rfl, rfl, (threadGoesOn_only (s := s) thread _).threads⟩, ?_, ?_,
            hgoesOn _ (by simp)⟩
          · intro hbytes
            show s.ringBytes + chunk.data.length = ((s.ring ++ [chunk]).map ReadChunk.size).sum
            rw [hbytes, List.map_append, List.sum_append]
            rfl
          · intro _
            show s.ringBytes + chunk.data.length < _
            unfold ReadChunk.size at hsize
            omega
        · exact hstays
    · next hnone =>
      split
      · exact ⟨⟨rfl, rfl, rfl, rfl, rfl, (threadReturns_only (s := s) thread).threads⟩, id, id, hreturns⟩
      · split
        · exact ⟨threadGoesOn_only thread _, id, id, hgoesOn _ (by simp [hnone])⟩
        · dsimp only
          split
          · exact ⟨⟨rfl, rfl, rfl, rfl, rfl, (threadReturns_only (s := s) thread).threads⟩, id, id, hreturns⟩
          · refine ⟨threadGoesOn_only thread _, id, id, hgoesOn _ ?_⟩
            rintro c hc
            obtain rfl := Option.some.inj hc
            have htake : (r.reads answer).length ≤ _ := List.length_take_le _ _
            show (r.reads answer).length ≤ kMaxFileChunkBytes
            split at htake <;> omega

theorem Inv.readerTurn (h : Inv genuine s) (thread : Nat) (answer : Option Bytes)
    (hread : ∀ r, s.threads.lookup thread = some r →
      genuine s.sender.batchId ⟨r.index, r.offset, r.reads answer⟩) :
    Inv genuine (s.readerTurn thread answer) := by
  have hturn := readerTurn_turn h.held thread answer
  refine ⟨?_, ?_, ?_, hturn.bytes h.bytes, hturn.bounded h.bounded, hturn.held⟩
  · intro p hp
    rw [hturn.only.reader, hturn.only.calls]
    rcases hturn.only.threads p hp with ⟨q, hq, heq⟩
    rw [← heq]
    exact h.accounted q hq
  · rw [hturn.only.sender, hturn.only.pending, hturn.only.calls]
    intro hbusy
    rcases h.feeds hbusy with ⟨hfinish, hharmless, old, fresh, hi, hfeeds⟩
    rcases hfeeds.readerTurn thread answer hread with ⟨fresh', hi', hfeeds'⟩
    exact ⟨hfinish, hharmless, old, fresh', hi', hfeeds'⟩
  · rw [hturn.only.sender, hturn.only.pending, hturn.only.calls, hturn.only.reader]
    exact h.begins

/-- The step lemma. -/
theorem Inv.step (h : Inv genuine s) {input : FileUploadInput} (halone : BeginsAlone s input)
    (hread : ReadsGenuine genuine s input) : Inv genuine (fileUpload.step s input).1 := by
  cases input with
  | begin =>
    show Inv genuine s.begin.1
    unfold FileUpload.begin
    split
    · exact ⟨h.accounted, fun hbusy => (h.feeds hbusy).imp id fun hrest => hrest.imp id
        fun ⟨old, fresh, hi, hfeeds⟩ => ⟨old, fresh, hi, hfeeds.congr ⟨rfl, rfl, rfl, rfl, rfl, rfl, rfl⟩⟩,
        h.begins, h.bytes, h.bounded, h.held⟩
    · next hbusy =>
      have hbusy : s.sender.busy = false := by simpa using hbusy
      rcases halone with ⟨hfinish, hharmless⟩
      refine ⟨?_, ?_, ?_, h.bytes, h.bounded, h.held⟩
      · intro p hp
        rcases h.accounted p hp with hreader | ⟨c, hc, hjoins⟩
        · exact .inl hreader
        · exact .inr ⟨c, by simp [hc], hjoins⟩
      · intro hstill
        change s.sender.busy = true at hstill
        rw [hbusy] at hstill
        cases hstill
      · intro _
        have hnone : s.calls.countP UploadCall.begins = 0 := by
          rw [List.countP_eq_zero]
          intro c hc
          rw [begins_of_harmless (hharmless c hc)]
          simp
        refine ⟨hbusy, hfinish, ?_, ?_, ?_⟩
        · intro c hc
          simp only [List.mem_append, List.mem_singleton] at hc
          rcases hc with hc | rfl
          · exact .inl (hharmless c hc)
          · exact .inr rfl
        · rw [List.countP_append, hnone]
          rfl
        · intro thread hc
          simp only [List.mem_append, List.mem_singleton, reduceCtorEq, or_false] at hc
          have hno := hharmless _ hc
          cases hno
  | handleMessage message takesCancel => exact h.acts (standsOrEnds_handleMessage _ message takesCancel).acts
  | pump maxChunks answers => exact h.acts (acts_pump s maxChunks answers fun hbusy => (h.feeds hbusy).2.2)
  | cancel takesCancel => exact h.acts (standsOrEnds_cancel _ takesCancel).acts
  | linkLost => exact h.acts (standsOrEnds_linkLost _).acts
  | goOn call paths takes => exact h.goOn call paths takes
  | readerTurn thread answer => exact h.readerTurn thread answer hread

/-! ## The reader and `Pump` do not wait for each other -/

/-- Callers that call `Begin` in turn, whatever is read. -/
def CallersInTurn (s : FileUpload) (_ : List UploadEvent) (input : FileUploadInput) : Prop := BeginsAlone s input

/-- What may be read. -/
def anything : UInt32 → ReadChunk → Prop := fun _ _ => True

theorem readsGenuine_anything (s : FileUpload) (input : FileUploadInput) : ReadsGenuine anything s input := by
  cases input with
  | readerTurn thread answer => exact fun _ _ => trivial
  | _ => trivial

theorem run_inv {inputs : List FileUploadInput} (halone : fileUpload.Along CallersInTurn {} inputs) :
    Inv anything (fileUpload.run {} inputs).1 := by
  refine Machine.run_invariant (fun s _ => Inv anything s) CallersInTurn .init ?_ inputs halone
  intro s out input hcaller h
  exact h.step hcaller (readsGenuine_anything s input)

variable {s : FileUpload} {old fresh : List ReadChunk} {hi : Nat}

theorem Inv.sending (h : Inv anything s) (hstate : s.sender.state = .sending) :
    ∃ old fresh hi, Feeds anything s old fresh hi :=
  (h.feeds (by simp [FileSender.busy, hstate])).2.2

/-- Where nothing is ready, what is left in the ring was sent. -/
theorem Feeds.fresh_of_pumpable (h : Feeds anything s old fresh hi) (hnone : s.pumpable = 0) :
    fresh = [] ∧ s.readerEof = false ∧ s.readerFailed = false := by
  rw [h.pumpable_eq] at hnone
  split at hnone
  · cases hnone
  · next hfailed =>
    split at hnone
    · omega
    · next hempty =>
      split at hnone
      · cases hnone
      · next heof => exact ⟨by simpa using hempty, by simpa using heof, by simpa using hfailed⟩

/-- The one chunk that was sent leaves room in the ring. -/
theorem Feeds.room (h : Feeds anything s old fresh hi) (hbytes : s.ringBytes = (s.ring.map ReadChunk.size).sum)
    (hempty : fresh = []) : s.ringBytes < kMaxReadAheadBytes := by
  have hold : (old.map ReadChunk.size).sum ≤ kMaxFileChunkBytes := by
    have hle := h.old_le
    match old, h with
    | [], _ => exact Nat.zero_le _
    | [c], h => simpa using (h.fits c (by simp)).1.small
    | c :: d :: rest, _ => simp at hle
  rw [hbytes, h.ring, hempty, List.append_nil]
  exact lt_of_le_of_lt hold (by decide)

end FileUpload

/-- A batch of one file, offered and accepted. -/
def sendingRun : List FileUploadInput :=
  [.begin, .goOn 0 [] true,
    .goOn 0 [{ path := ascii "/a", fileName := ascii "a", size := some 3 }] true,
    .handleMessage ((buildFileAccept kMaxRecordSize ⟨1, .accepted⟩).getD []) true]

theorem sendingRun_inTurn : fileUpload.Along FileUpload.CallersInTurn {} sendingRun := by
  rw [Machine.along_iff]
  refine ⟨⟨rfl, ?_⟩, trivial, trivial, trivial, trivial⟩
  intro call hmem
  cases hmem

end Deskhub
