import Deskhub.Session.FileExact
import Deskhub.Session.FileReceiverSteps

/-!
# File transfer end to end

The invariant of the two ends and the link: the sender stands at the end of what
it has sent, the receiver at the end of what it has seen, and what was kept is
what the sender's files hold. `seen` are the messages delivered so far, `ahead`
the ones on the link.
-/

namespace Deskhub

/-- The offer in a message. -/
def FileMsg.offer? : FileMsg → Option FileOffer
  | .offer o => some o
  | _ => none

/-- File `i` of batch `b` was closed to be kept, and stored. -/
def WriteLog.Stored (l : WriteLog) (b : UInt32) (i : Nat) : Prop :=
  ∃ k ∈ l.kept, k.batchId = b ∧ k.index = i ∧ k.stored = true

/-- The messages about a batch. -/
def ofBatch (b : UInt32) (ms : List FileMsg) : List FileMsg := ms.filter (fun m => m.batchId = b)

theorem ofBatch_append (b : UInt32) (xs ys : List FileMsg) :
    ofBatch b (xs ++ ys) = ofBatch b xs ++ ofBatch b ys :=
  List.filter_append _ _

theorem ofBatch_all {b : UInt32} {ms : List FileMsg} (h : ∀ m ∈ ms, m.batchId = b) :
    ofBatch b ms = ms :=
  List.filter_eq_self.mpr (fun m hm => decide_eq_true (h m hm))

theorem ofBatch_none {b : UInt32} {ms : List FileMsg} (h : ∀ m ∈ ms, m.batchId ≠ b) :
    ofBatch b ms = [] :=
  List.filter_eq_nil_iff.mpr (fun m hm => by simpa using h m hm)

section Exact

variable (content : UInt32 → Nat → Bytes)

/-- What was sent: the batches offered, in order and under distinct ids, and for each of
them a log. -/
structure SentInv (offered : List FileOffer) (msgs : List FileMsg) : Prop where
  order : msgs.filterMap FileMsg.offer? = offered
  distinct : (offered.map (·.batchId)).Nodup
  ok : ∀ o ∈ offered, OfferOk content o
  known : ∀ m ∈ msgs, ∃ o ∈ offered, m.batchId = o.batchId
  logs : ∀ o ∈ offered, ∃ pos cancelled, BatchLog content o (ofBatch o.batchId msgs) pos cancelled

/-- Where the sender stands: in the last batch offered, at the end of its log, with
nothing acknowledged that was not stored. -/
structure SenderInv (s : FileSender) (offered : List FileOffer) (msgs : List FileMsg)
    (l : WriteLog) : Prop where
  current : s.busy = true → ∃ o, offered.getLast? = some o ∧ InBatch content o s ∧
    BatchLog content o (ofBatch o.batchId msgs) (s.index, s.sent) false
  acked : s.busy = true → ∀ i < s.acked, l.Stored s.batchId i
  finished : s.state = .done → ∃ o, offered.getLast? = some o ∧ s.batchId = o.batchId ∧
    s.files = o.files ∧ ∀ i < o.files.length, l.Stored o.batchId i

/-- Where a receiver stands in the batch `o`: at the end of the stream it has seen. -/
structure Receives (o : FileOffer) (s : FileReceiver) (seen : List FileMsg) (l : WriteLog) :
    Prop where
  id : s.batchId = o.batchId
  files : s.files = o.files
  index_lt : s.index < o.files.length
  body : ∃ body, ofBatch o.batchId seen = .offer o :: body ∧
    stream content o (0, 0) body = some (s.index, s.received)
  written : s.fileOpen = true → l.written = (content o.batchId s.index).take s.received
  closed : s.fileOpen = false → s.received = 0

structure ReceiverInv (s : FileReceiver) (toSender : List Bytes) (offered : List FileOffer)
    (seen : List FileMsg) (l : WriteLog) : Prop where
  receiving : s.state = .receiving → ∃ o ∈ offered, Receives content o s seen l
  kept : ∀ k ∈ l.kept, k.written = content k.batchId k.index ∧
    ∃ o, .offer o ∈ seen ∧ k.batchId = o.batchId ∧ k.index < o.files.length
  answers : ∀ d ∈ toSender, ∀ b i, FileMsg.parse d = some (.ack ⟨b, i, .accepted⟩) →
    l.Stored b i.toNat
  complete : ∀ o, offered.getLast? = some o → l.Stored o.batchId (o.files.length - 1) →
    s.state = .done ∧ s.batchId = o.batchId

/-- The invariant of the link. -/
structure LinkInv (s : FileLink) (out : List FileLinkEvent) (seen ahead : List FileMsg) : Prop where
  onLink : s.toReceiver.map FileMsg.parse = ahead.map some
  sent : SentInv content (offeredBatches out) (seen ++ ahead)
  sender : SenderInv content s.sender (offeredBatches out) (seen ++ ahead) (writeLog out)
  receiver : ReceiverInv content s.receiver s.toSender (offeredBatches out) seen (writeLog out)

variable {content}

/-! ## The batches offered -/

theorem SentInv.same {offered : List FileOffer} {msgs : List FileMsg}
    (h : SentInv content offered msgs) {o o' : FileOffer} (ho : o ∈ offered) (ho' : o' ∈ offered)
    (hid : o.batchId = o'.batchId) : o = o' :=
  List.inj_on_of_nodup_map h.distinct ho ho' hid

theorem mem_offers {msgs : List FileMsg} {o : FileOffer} :
    o ∈ msgs.filterMap FileMsg.offer? ↔ .offer o ∈ msgs := by
  rw [List.mem_filterMap]
  constructor
  · rintro ⟨m, hm, ho⟩
    cases m with
    | offer o' =>
      cases ho
      exact hm
    | _ => cases ho
  · intro h
    exact ⟨_, h, rfl⟩

/-- While an offer is ahead, the last one is not seen. -/
theorem SentInv.last_ahead {offered : List FileOffer} {seen ahead : List FileMsg}
    (h : SentInv content offered (seen ++ ahead)) {o o' : FileOffer} (hahead : .offer o ∈ ahead)
    (hlast : offered.getLast? = some o') (hseen : .offer o' ∈ seen) : False := by
  have hdistinct := h.distinct
  rw [← h.order, List.filterMap_append, List.map_append] at hdistinct
  have hlast' : o' ∈ ahead.filterMap FileMsg.offer? := by
    rw [← h.order, List.filterMap_append, List.getLast?_append_of_ne_nil] at hlast
    · exact List.mem_of_getLast? hlast
    · exact List.ne_nil_of_mem (mem_offers.mpr hahead)
  exact (List.nodup_append.mp hdistinct).2.2 o'.batchId
    (List.mem_map_of_mem (mem_offers.mpr hseen)) o'.batchId (List.mem_map_of_mem hlast') rfl

/-- More of a batch joins what was sent. -/
theorem SentInv.extend {offered : List FileOffer} {msgs new : List FileMsg}
    (h : SentInv content offered msgs) {o : FileOffer} (ho : o ∈ offered)
    (hnew : ∀ m ∈ new, m.batchId = o.batchId ∧ ∀ o', m ≠ .offer o')
    (hlog : ∃ pos cancelled, BatchLog content o (ofBatch o.batchId (msgs ++ new)) pos cancelled) :
    SentInv content offered (msgs ++ new) := by
  refine ⟨?_, h.distinct, h.ok, ?_, ?_⟩
  · rw [List.filterMap_append, h.order]
    have hnone : new.filterMap FileMsg.offer? = [] := by
      rw [List.filterMap_eq_nil_iff]
      intro m hm
      cases m with
      | offer o' => exact absurd rfl ((hnew _ hm).2 o')
      | _ => rfl
    rw [hnone, List.append_nil]
  · intro m hm
    rcases List.mem_append.mp hm with hm | hm
    · exact h.known m hm
    · exact ⟨o, ho, (hnew m hm).1⟩
  · intro o' ho'
    by_cases hid : o'.batchId = o.batchId
    · rw [h.same ho' ho hid]
      exact hlog
    · have hnone : ofBatch o'.batchId new = [] :=
        ofBatch_none (fun m hm => (hnew m hm).1 ▸ fun e => hid e.symm)
      rw [ofBatch_append, hnone, List.append_nil]
      exact h.logs o' ho'

/-- A new batch is offered under an id that was not used. -/
theorem SentInv.offer {offered : List FileOffer} {msgs : List FileMsg}
    (h : SentInv content offered msgs) {o : FileOffer} (hok : OfferOk content o)
    (hfresh : o.batchId ∉ offered.map (·.batchId)) :
    SentInv content (offered ++ [o]) (msgs ++ [.offer o]) ∧
      ofBatch o.batchId (msgs ++ [.offer o]) = [.offer o] := by
  have hfirst : ofBatch o.batchId msgs = [] := by
    apply ofBatch_none
    intro m hm heq
    rcases h.known m hm with ⟨o', ho', hid⟩
    exact hfresh (List.mem_map.mpr ⟨o', ho', hid.symm.trans heq⟩)
  have hlog : ofBatch o.batchId (msgs ++ [.offer o]) = [.offer o] := by
    rw [ofBatch_append, hfirst]
    exact ofBatch_all (by simp [FileMsg.batchId])
  refine ⟨⟨?_, ?_, ?_, ?_, ?_⟩, hlog⟩
  · rw [List.filterMap_append, h.order]
    rfl
  · rw [List.map_append, List.nodup_append]
    refine ⟨h.distinct, by simp, ?_⟩
    intro b hb b' hb' heq
    simp only [List.map_cons, List.map_nil, List.mem_singleton] at hb'
    exact hfresh (hb' ▸ heq ▸ hb)
  · intro o' ho'
    rcases List.mem_append.mp ho' with ho' | ho'
    · exact h.ok o' ho'
    · rw [List.mem_singleton.mp ho']
      exact hok
  · intro m hm
    rcases List.mem_append.mp hm with hm | hm
    · rcases h.known m hm with ⟨o', ho', hid⟩
      exact ⟨o', by simp [ho'], hid⟩
    · rw [List.mem_singleton.mp hm]
      exact ⟨o, by simp, rfl⟩
  · intro o' ho'
    rcases List.mem_append.mp ho' with ho' | ho'
    · have hne : o.batchId ≠ o'.batchId := fun e => hfresh (List.mem_map.mpr ⟨o', ho', e.symm⟩)
      have hnone : ofBatch o'.batchId [.offer o] = [] :=
        ofBatch_none (by simpa [FileMsg.batchId] using hne)
      rw [ofBatch_append, hnone, List.append_nil]
      exact h.logs o' ho'
    · rw [List.mem_singleton.mp ho', hlog]
      exact ⟨_, _, .offered content o⟩

/-! ## The sender -/

/-- Nothing of what was stored is forgotten. -/
theorem WriteLog.Stored.mono {l l' : WriteLog} (h : ∀ k ∈ l.kept, k ∈ l'.kept) {b : UInt32}
    {i : Nat} (hs : l.Stored b i) : l'.Stored b i := by
  rcases hs with ⟨k, hk, hb, hi, hok⟩
  exact ⟨k, h k hk, hb, hi, hok⟩

theorem SenderInv.mono {s : FileSender} {offered : List FileOffer} {msgs : List FileMsg}
    {l l' : WriteLog} (h : SenderInv content s offered msgs l)
    (hkept : ∀ k ∈ l.kept, k ∈ l'.kept) : SenderInv content s offered msgs l' := by
  refine ⟨h.current, fun hbusy i hi => (h.acked hbusy i hi).mono hkept, ?_⟩
  intro hdone
  rcases h.finished hdone with ⟨o, hlast, hid, hfiles, hall⟩
  exact ⟨o, hlast, hid, hfiles, fun i hi => (hall i hi).mono hkept⟩

/-- A sender that is out of its batch without success. -/
theorem SenderInv.over {s : FileSender} {offered : List FileOffer} {msgs : List FileMsg}
    {l : WriteLog} (hidle : s.busy = false) (hdone : s.state ≠ .done) :
    SenderInv content s offered msgs l := by
  refine ⟨?_, ?_, fun h => absurd h hdone⟩
  all_goals
    intro hbusy
    rw [hidle] at hbusy
    cases hbusy

/-- The callbacks of the sender are not recorded. -/
theorem writeLog_sender (out : List FileLinkEvent) (es : List FileSenderEvent) :
    writeLog (out ++ es.map .sender) = writeLog out := by
  rw [writeLog_append]
  induction es with
  | nil => rfl
  | cons e es ih => exact ih

theorem offeredBatches_sender {es : List FileSenderEvent} {ms : List FileMsg}
    (h : (sentMessages es).map FileMsg.parse = ms.map some) :
    offeredBatches (es.map .sender) = ms.filterMap FileMsg.offer? := by
  induction es generalizing ms with
  | nil =>
    obtain rfl : ms = [] := by simpa [sentMessages] using h.symm
    rfl
  | cons e es ih =>
    cases e with
    | sent d =>
      cases ms with
      | nil => simp [sentMessages] at h
      | cons m ms =>
        have h : FileMsg.parse d = some m ∧ (sentMessages es).map FileMsg.parse = ms.map some := by
          simpa [sentMessages] using h
        have hrest := ih h.2
        have hoffer : FileLinkEvent.offer? (.sender (.sent d)) = m.offer? := by
          cases m <;> simp [FileLinkEvent.offer?, h.1, FileMsg.offer?]
        simp only [List.map_cons, offeredBatches, List.filterMap_cons, hoffer] at hrest ⊢
        rw [hrest]
    | progress p => exact ih h
    | finished state reason => exact ih h

/-- The sender moves within its batch. -/
theorem LinkInv.moves {s : FileLink} {out : List FileLinkEvent} {seen ahead : List FileMsg}
    (h : LinkInv content s out seen ahead) (hbusy : s.sender.busy = true)
    {r : FileSender × List FileSenderEvent}
    (hmoves : ∀ o, InBatch content o s.sender → OfferOk content o → SenderMoves content o s.sender r) :
    ∃ ahead', LinkInv content (s.senderActs r).1 (out ++ (s.senderActs r).2) seen ahead' := by
  rcases h.sender.current hbusy with ⟨o, hlast, hin, hlog⟩
  have ho : o ∈ offeredBatches out := List.mem_of_getLast? hlast
  rcases hmoves o hin (h.sent.ok o ho) with ⟨body, tail, hsent, hcase⟩
  -- what was sent is about the batch, and offers nothing
  have hbody : ∃ pos, stream content o (s.sender.index, s.sender.sent) body = some pos := by
    rcases hcase with ⟨-, -, -, -, hstream⟩ | ⟨-, hstream, -⟩
    · exact ⟨_, hstream⟩
    · exact hstream
  have htail : tail = [] ∨ ∃ reason, tail = [.cancel ⟨o.batchId, reason⟩] := by
    rcases hcase with ⟨htail, -⟩ | ⟨-, -, htail⟩
    · exact Or.inl htail
    · exact htail
  have hnew : ∀ m ∈ body ++ tail, m.batchId = o.batchId ∧ ∀ o', m ≠ .offer o' := by
    intro m hm
    rcases List.mem_append.mp hm with hm | hm
    · rcases hbody with ⟨pos, hbody⟩
      have := stream_mem content hbody hm
      exact ⟨this.1, this.2.1⟩
    · rcases htail with rfl | ⟨reason, rfl⟩
      · cases hm
      · rw [List.mem_singleton.mp hm]
        exact ⟨rfl, by simp⟩
  have hofBatch : ofBatch o.batchId (seen ++ ahead ++ (body ++ tail)) =
      ofBatch o.batchId (seen ++ ahead) ++ body ++ tail := by
    rw [ofBatch_append, ofBatch_all (fun m hm => (hnew m hm).1), List.append_assoc]
  have hoffered : offeredBatches (out ++ r.2.map .sender) = offeredBatches out := by
    rw [offeredBatches_append, offeredBatches_sender hsent]
    have : (body ++ tail).filterMap FileMsg.offer? = [] := by
      rw [List.filterMap_eq_nil_iff]
      intro m hm
      cases m with
      | offer o' => exact absurd rfl ((hnew _ hm).2 o')
      | _ => rfl
    rw [this, List.append_nil]
  have hlogs : ∃ pos cancelled,
      BatchLog content o (ofBatch o.batchId (seen ++ ahead ++ (body ++ tail))) pos cancelled := by
    rcases hbody with ⟨pos, hbody⟩
    have hext := hlog.extend content hbody
    rw [hofBatch]
    rcases htail with rfl | ⟨reason, rfl⟩
    · exact ⟨pos, false, by simpa using hext⟩
    · exact ⟨pos, true, hext.cancel content reason⟩
  refine ⟨ahead ++ (body ++ tail), ?_, ?_, ?_, ?_⟩
  · show (s.toReceiver ++ sentMessages r.2).map FileMsg.parse = _
    rw [List.map_append, List.map_append, h.onLink, hsent]
  · show SentInv content (offeredBatches (out ++ r.2.map .sender)) _
    rw [hoffered, ← List.append_assoc]
    exact h.sent.extend ho hnew hlogs
  · show SenderInv content r.1 (offeredBatches (out ++ r.2.map .sender)) _
      (writeLog (out ++ r.2.map .sender))
    rw [hoffered, writeLog_sender, ← List.append_assoc]
    rcases hcase with ⟨rfl, hsending, hin', hacked, hstream⟩ | ⟨hfailed, -⟩
    · refine ⟨fun _ => ⟨o, hlast, hin', ?_⟩, ?_, ?_⟩
      · rw [hofBatch, List.append_nil]
        exact hlog.extend content hstream
      · intro _ i hi
        rw [hin'.id, ← hin.id]
        exact h.sender.acked hbusy i (hacked ▸ hi)
      · intro hdone
        rw [hsending] at hdone
        cases hdone
    · exact .over (by simp [FileSender.busy, hfailed]) (by simp [hfailed])
  · show ReceiverInv content s.receiver s.toSender (offeredBatches (out ++ r.2.map .sender)) seen
      (writeLog (out ++ r.2.map .sender))
    rw [hoffered, writeLog_sender]
    exact h.receiver

/-- The sender acts and sends nothing. -/
theorem LinkInv.quiet {s : FileLink} {out : List FileLinkEvent} {seen ahead : List FileMsg}
    (h : LinkInv content s out seen ahead) {r : FileSender × List FileSenderEvent}
    (hsent : sentMessages r.2 = [])
    (hsender : SenderInv content r.1 (offeredBatches out) (seen ++ ahead) (writeLog out)) :
    LinkInv content (s.senderActs r).1 (out ++ (s.senderActs r).2) seen ahead := by
  have hoffered : offeredBatches (out ++ r.2.map .sender) = offeredBatches out := by
    have hnone : (sentMessages r.2).map FileMsg.parse = ([] : List FileMsg).map some := by
      rw [hsent]
      rfl
    rw [offeredBatches_append, offeredBatches_sender hnone]
    exact List.append_nil _
  refine ⟨?_, ?_, ?_, ?_⟩
  · show (s.toReceiver ++ sentMessages r.2).map FileMsg.parse = _
    rw [hsent, List.append_nil, h.onLink]
  · show SentInv content (offeredBatches (out ++ r.2.map .sender)) _
    rw [hoffered]
    exact h.sent
  · show SenderInv content r.1 (offeredBatches (out ++ r.2.map .sender)) _
      (writeLog (out ++ r.2.map .sender))
    rw [hoffered, writeLog_sender]
    exact hsender
  · show ReceiverInv content s.receiver s.toSender (offeredBatches (out ++ r.2.map .sender)) seen
      (writeLog (out ++ r.2.map .sender))
    rw [hoffered, writeLog_sender]
    exact h.receiver

/-- The same, when the call leaves the sender alone. -/
theorem LinkInv.idles {s : FileLink} {out : List FileLinkEvent} {seen ahead : List FileMsg}
    (h : LinkInv content s out seen ahead) :
    ∃ ahead', LinkInv content (s.senderActs (s.sender, [])).1
      (out ++ (s.senderActs (s.sender, [])).2) seen ahead' :=
  ⟨ahead, h.quiet rfl h.sender⟩

/-- The sender ends its batch without a word. -/
theorem LinkInv.ends {s : FileLink} {out : List FileLinkEvent} {seen ahead : List FileMsg}
    (h : LinkInv content s out seen ahead) {state : FileSenderState} (hstate : state ≠ .done)
    (hidle : state ≠ .offering ∧ state ≠ .sending) (reason : TransferReason) :
    ∃ ahead', LinkInv content (s.senderActs (s.sender.finish state reason)).1
      (out ++ (s.senderActs (s.sender.finish state reason)).2) seen ahead' := by
  refine ⟨ahead, h.quiet rfl (.over ?_ hstate)⟩
  show (decide (state = .offering) || decide (state = .sending)) = false
  simp [hidle.1, hidle.2]

theorem LinkInv.onAccept {s : FileLink} {out : List FileLinkEvent} {seen ahead : List FileMsg}
    (h : LinkInv content s out seen ahead) (payload : Bytes) :
    ∃ ahead', LinkInv content (s.senderActs (s.sender.onAccept payload)).1
      (out ++ (s.senderActs (s.sender.onAccept payload)).2) seen ahead' := by
  unfold FileSender.onAccept
  split
  · exact h.idles
  · next hstate =>
    have hbusy : s.sender.busy = true := by
      simp [FileSender.busy, not_not.mp hstate]
    cases parseFileAccept payload with
    | none => exact h.idles
    | some accept =>
      simp only
      split
      · exact h.idles
      · split
        · exact h.ends (by simp) (by simp) _
        · refine ⟨ahead, h.quiet rfl ⟨fun _ => ?_, fun _ => h.sender.acked hbusy, ?_⟩⟩
          · rcases h.sender.current hbusy with ⟨o, hlast, hin, hlog⟩
            exact ⟨o, hlast, ⟨hin.id, hin.files, hin.crc, hin.sent_le⟩, hlog⟩
          · intro hdone
            cases hdone

theorem LinkInv.onAck {s : FileLink} {out : List FileLinkEvent} {seen ahead : List FileMsg}
    (h : LinkInv content s out seen ahead) {payload : Bytes}
    (hack : ∀ b i, parseFileAck payload = some ⟨b, i, .accepted⟩ →
      (writeLog out).Stored b i.toNat) (takesCancel : Bool) :
    ∃ ahead', LinkInv content (s.senderActs (s.sender.onAck payload takesCancel)).1
      (out ++ (s.senderActs (s.sender.onAck payload takesCancel)).2) seen ahead' := by
  unfold FileSender.onAck
  split
  · exact h.idles
  · next hstate =>
    have hbusy : s.sender.busy = true := by
      simp [FileSender.busy, not_not.mp hstate]
    cases hparse : parseFileAck payload with
    | none => exact h.idles
    | some ack =>
      simp only
      split
      · exact h.idles
      · next hbatch =>
        split
        · exact h.ends (by simp) (by simp) _
        · next hreason =>
          split
          · exact h.moves hbusy (fun o hin _ => hin.abort _ takesCancel)
          · next hindex =>
            -- the acknowledged file was stored, and so were the ones before it
            have hstored : ∀ i < s.sender.acked + 1, (writeLog out).Stored s.sender.batchId i := by
              intro i hi
              rcases Nat.lt_succ_iff_lt_or_eq.mp hi with hi | rfl
              · exact h.sender.acked hbusy i hi
              · have := hack ack.batchId ack.fileIndex (by
                  rw [hparse, ← not_not.mp hreason])
                rwa [not_not.mp hbatch, not_not.mp hindex] at this
            rcases h.sender.current hbusy with ⟨o, hlast, hin, hlog⟩
            split
            · next hall =>
              refine ⟨ahead, h.quiet rfl ⟨?_, ?_, fun _ => ⟨o, hlast, hin.id, hin.files, ?_⟩⟩⟩
              · intro hbusy'
                cases hbusy'
              · intro hbusy'
                cases hbusy'
              · intro i hi
                rw [← hin.id]
                have hall : s.sender.files.length ≤ s.sender.acked + 1 := hall
                rw [hin.files] at hall
                exact hstored i (by omega)
            · refine ⟨ahead, h.quiet rfl ⟨fun _ => ?_, fun _ => hstored, ?_⟩⟩
              · exact ⟨o, hlast, ⟨hin.id, hin.files, hin.crc, hin.sent_le⟩, hlog⟩
              · intro hdone
                exact absurd hdone (by simp [not_not.mp hstate])

theorem LinkInv.onCancel {s : FileLink} {out : List FileLinkEvent} {seen ahead : List FileMsg}
    (h : LinkInv content s out seen ahead) (payload : Bytes) :
    ∃ ahead', LinkInv content (s.senderActs (s.sender.onCancel payload)).1
      (out ++ (s.senderActs (s.sender.onCancel payload)).2) seen ahead' := by
  unfold FileSender.onCancel
  cases parseFileCancel payload with
  | none => exact h.idles
  | some cancel =>
    simp only
    split
    · exact h.idles
    · split
      · exact h.idles
      · apply h.ends
        · split <;> simp
        · split <;> simp

/-- A message reaches the sender. -/
theorem LinkInv.senderHandles {s : FileLink} {out : List FileLinkEvent}
    {seen ahead : List FileMsg} (h : LinkInv content s out seen ahead) {message : Bytes}
    (hack : ∀ b i, FileMsg.parse message = some (.ack ⟨b, i, .accepted⟩) →
      (writeLog out).Stored b i.toNat) (takesCancel : Bool) :
    ∃ ahead', LinkInv content (s.senderActs (s.sender.handleMessage message takesCancel)).1
      (out ++ (s.senderActs (s.sender.handleMessage message takesCancel)).2) seen ahead' := by
  unfold FileSender.handleMessage
  cases hheader : parseCommonHeader message with
  | none => exact h.idles
  | some header =>
    simp only
    split
    · exact h.idles
    · next hchan =>
      cases htype : header.type with
      | fileAccept => exact h.onAccept _
      | fileAck =>
        refine h.onAck ?_ takesCancel
        intro b i hparse
        apply hack
        simp only [FileMsg.parse, hheader, if_neg hchan, htype, FileMsg.parsePayload, hparse]
        rfl
      | fileCancel => exact h.onCancel _
      | _ => exact h.idles

/-! ## The offer -/

theorem checkFiles_size {files files' : List TransferFile} {total total' : UInt64}
    (h : FileSender.checkFiles files total = some (files', total')) :
    files'.length = files.length ∧ ∀ i, (fileAt files' i).size = (fileAt files i).size := by
  induction files generalizing files' total total' with
  | nil =>
    simp only [FileSender.checkFiles, Option.some.injEq, Prod.mk.injEq] at h
    rw [← h.1]
    exact ⟨rfl, fun _ => rfl⟩
  | cons f files ih =>
    unfold FileSender.checkFiles at h
    simp only at h
    split at h
    · cases h
    · split at h
      · cases h
      · rcases Option.map_eq_some_iff.mp h with ⟨⟨rest, total''⟩, hrest, heq⟩
        simp only [Prod.mk.injEq] at heq
        rcases ih hrest with ⟨hlen, hsize⟩
        rw [← heq.1]
        refine ⟨by simp [hlen], fun i => ?_⟩
        cases i with
        | zero => rfl
        | succ i => exact hsize i

theorem offerable_size {files : List TransferFile} {total : UInt64}
    (h : offerable files total = true) :
    ∀ i < files.length, (fileAt files i).size ≤ kMaxTransferFileBytes := by
  induction files generalizing total with
  | nil =>
    intro i hi
    cases hi
  | cons f files ih =>
    simp only [offerable, Bool.and_eq_true, decide_eq_true_eq] at h
    intro i hi
    cases i with
    | zero => exact h.1.1.2
    | succ i => exact ih h.2 i (Nat.lt_of_succ_lt_succ hi)

/-- An offer that was built is within bounds. -/
theorem offer_bounds_of_build {cap : Nat} {o : FileOffer} {d : Bytes}
    (h : buildFileOffer cap o = some d) :
    o.files ≠ [] ∧ o.files.length ≤ kMaxTransferFiles ∧
      ∀ i < o.files.length, (fileAt o.files i).size ≤ kMaxTransferFileBytes := by
  unfold buildFileOffer at h
  split at h
  · cases h
  · next hcount =>
    split at h
    · cases h
    · next hofferable =>
      push Not at hcount
      exact ⟨hcount.1, hcount.2, offerable_size (by simpa using hofferable)⟩

theorem offerOk_of_build {o : FileOffer} {d : Bytes} (h : buildFileOffer kMaxRecordSize o = some d)
    (hdescribes : Describes content o) : OfferOk content o := by
  rcases offer_bounds_of_build h with ⟨hnonempty, hfew, hsmall⟩
  exact ⟨hdescribes, hnonempty, hfew, hsmall⟩

/-- An offer under an id that was not used goes out. -/
theorem LinkInv.offers {s : FileLink} {out : List FileLinkEvent} {seen ahead : List FileMsg}
    (h : LinkInv content s out seen ahead) {s' : FileSender} {o : FileOffer} {d : Bytes}
    (hbuild : buildFileOffer kMaxRecordSize o = some d) (hdescribes : Describes content o)
    (hfresh : o.batchId ∉ (offeredBatches out).map (·.batchId)) (hin : InBatch content o s')
    (hstart : s'.index = 0 ∧ s'.sent = 0 ∧ s'.acked = 0) (hstate : s'.state = .offering) :
    LinkInv content (s.senderActs (s', [.sent d])).1 (out ++ (s.senderActs (s', [.sent d])).2)
      seen (ahead ++ [.offer o]) := by
  have hparse : FileMsg.parse d = some (.offer o) :=
    FileMsg.parse_build (m := .offer o) trivial hbuild
  have hoffered : offeredBatches (out ++ ([.sent d] : List FileSenderEvent).map .sender) =
      offeredBatches out ++ [o] := by
    have hsent : (sentMessages [.sent d]).map FileMsg.parse = [FileMsg.offer o].map some := by
      simp [sentMessages, hparse]
    rw [offeredBatches_append, offeredBatches_sender hsent]
    rfl
  rcases h.sent.offer (offerOk_of_build hbuild hdescribes) hfresh with ⟨hsent, hlog⟩
  refine ⟨?_, ?_, ?_, ?_⟩
  · show (s.toReceiver ++ [d]).map FileMsg.parse = _
    rw [List.map_append, List.map_append, h.onLink]
    simp [hparse]
  · show SentInv content (offeredBatches (out ++ [FileSenderEvent.sent d].map .sender)) _
    rw [hoffered, ← List.append_assoc]
    exact hsent
  · show SenderInv content s' (offeredBatches (out ++ [FileSenderEvent.sent d].map .sender)) _ _
    rw [hoffered, ← List.append_assoc]
    refine ⟨fun _ => ⟨o, by simp, hin, ?_⟩, ?_, ?_⟩
    · rw [hlog, hstart.1, hstart.2.1]
      exact .offered content o
    · intro _ i hi
      rw [hstart.2.2] at hi
      exact absurd hi (Nat.not_lt_zero i)
    · intro hdone
      rw [hstate] at hdone
      cases hdone
  · show ReceiverInv content s.receiver s.toSender
      (offeredBatches (out ++ [FileSenderEvent.sent d].map .sender)) seen
      (writeLog (out ++ [FileSenderEvent.sent d].map .sender))
    rw [hoffered, writeLog_sender]
    refine ⟨?_, h.receiver.kept, h.receiver.answers, ?_⟩
    · intro hreceiving
      rcases h.receiver.receiving hreceiving with ⟨o', ho', hreceives⟩
      exact ⟨o', List.mem_append_left _ ho', hreceives⟩
    · -- nothing of the new batch was stored
      intro o' hlast hstored
      obtain rfl : o = o' := by simpa using hlast
      rcases hstored with ⟨k, hk, hid, -⟩
      rcases (h.receiver.kept k hk).2 with ⟨o', hseen, hid', -⟩
      have ho' : o' ∈ offeredBatches out := by
        rw [← h.sent.order, mem_offers]
        exact List.mem_append_left _ hseen
      exact absurd (List.mem_map.mpr ⟨o', ho', hid'.symm.trans hid⟩) hfresh

/-- The batch of an `offer` call: described as the files are, under an id that was
not used. -/
def FreshBatch (content : UInt32 → Nat → Bytes) (out : List FileLinkEvent) (batchId : UInt32)
    (files : List TransferFile) : Prop :=
  Describes content ⟨batchId, files⟩ ∧ batchId ∉ (offeredBatches out).map (·.batchId)

theorem LinkInv.offer {s : FileLink} {out : List FileLinkEvent} {seen ahead : List FileMsg}
    (h : LinkInv content s out seen ahead) {batchId : UInt32} {files : List TransferFile}
    (hbatch : FreshBatch content out batchId files) (takes : Bool) :
    let r := ((s.sender.offer batchId files takes).1, (s.sender.offer batchId files takes).2.1)
    ∃ ahead', LinkInv content (s.senderActs r).1 (out ++ (s.senderActs r).2) seen ahead' := by
  intro r
  have hr : r = ((s.sender.offer batchId files takes).1, (s.sender.offer batchId files takes).2.1) :=
    rfl
  clear_value r
  unfold FileSender.offer at hr
  split at hr
  · rw [hr]
    exact h.idles
  · split at hr
    · rw [hr]
      exact h.idles
    · cases hcheck : FileSender.checkFiles files 0 with
      | none =>
        rw [hcheck] at hr
        rw [hr]
        exact h.idles
      | some checked =>
        rcases checked with ⟨files', total⟩
        rw [hcheck] at hr
        simp only at hr
        cases hbuild : buildFileOffer kMaxRecordSize ⟨batchId, files'⟩ with
        | none =>
          rw [hbuild] at hr
          rw [hr]
          exact ⟨ahead, h.quiet rfl (.over rfl (by simp))⟩
        | some d =>
          rw [hbuild] at hr
          cases takes with
          | false =>
            rw [hr]
            exact ⟨ahead, h.quiet rfl (.over rfl (by simp))⟩
          | true =>
            rw [hr]
            rcases checkFiles_size hcheck with ⟨hlen, hsize⟩
            refine ⟨_, h.offers hbuild ?_ hbatch.2 ⟨rfl, rfl, ?_, ?_⟩ ⟨rfl, rfl, rfl⟩ rfl⟩
            · intro i hi
              rw [hsize]
              exact hbatch.1 i (hlen ▸ hi)
            · rfl
            · intro _
              exact Nat.zero_le _

/-! ## The receiver -/

theorem Receives.seen {o : FileOffer} {s : FileReceiver} {seen : List FileMsg} {l : WriteLog}
    (h : Receives content o s seen l) : .offer o ∈ seen := by
  rcases h.body with ⟨body, hseen, -⟩
  have : FileMsg.offer o ∈ ofBatch o.batchId seen := by simp [hseen]
  exact (List.mem_filter.mp this).1

/-- The next message of the batch goes on with the stream, or cancels it. -/
theorem Receives.next {offered : List FileOffer} {seen ahead : List FileMsg} {m : FileMsg}
    (hsent : SentInv content offered (seen ++ m :: ahead)) {o : FileOffer} (ho : o ∈ offered)
    {s : FileReceiver} {l : WriteLog} (h : Receives content o s seen l)
    (hm : m.batchId = o.batchId) :
    (∃ next, streamStep content o (s.index, s.received) m = some next) ∨
      ∃ reason, m = .cancel ⟨o.batchId, reason⟩ := by
  rcases hsent.logs o ho with ⟨pos, cancelled, hlog⟩
  rcases h.body with ⟨body, hseen, hbody⟩
  have hsplit : ofBatch o.batchId (seen ++ m :: ahead) =
      .offer o :: (body ++ m :: ofBatch o.batchId ahead) := by
    rw [ofBatch_append, hseen]
    simp [ofBatch, hm]
  exact (hsplit ▸ hlog).next content hbody

/-- What does not drive the receiver is of another batch. -/
theorem Receives.other {offered : List FileOffer} {seen ahead : List FileMsg} {m : FileMsg}
    (hsent : SentInv content offered (seen ++ m :: ahead)) {o : FileOffer} (ho : o ∈ offered)
    {s : FileReceiver} {l : WriteLog} (h : Receives content o s seen l)
    (hidle : m.batchId = s.batchId → ¬m.Drives) : m.batchId ≠ o.batchId := by
  intro hm
  have hdriven := hidle (hm.trans h.id.symm)
  rcases h.next hsent ho hm with ⟨next, hnext⟩ | ⟨reason, rfl⟩
  · cases m with
    | chunk c => exact hdriven trivial
    | done d => exact hdriven trivial
    | _ => cases hnext
  · exact hdriven trivial

/-- A complete file holds what the sender's file holds. -/
theorem Receives.exact {o : FileOffer} (ho : OfferOk content o) {s : FileReceiver}
    {seen : List FileMsg} {l : WriteLog} (h : Receives content o s seen l)
    (hall : s.received = (fileAt s.files s.index).size.toNat) :
    (if s.fileOpen then l.written else []) = content s.batchId s.index := by
  have hlen : s.received = (content o.batchId s.index).length := by
    rw [hall, h.files]
    exact ho.describes s.index h.index_lt
  rw [h.id]
  cases hopen : s.fileOpen with
  | true => rw [if_pos rfl, h.written hopen, hlen, List.take_length]
  | false =>
    rw [h.closed hopen] at hlen
    exact (List.length_eq_zero_iff.mp hlen.symm).symm

/-- Before its offer nothing of a batch was sent. -/
theorem SentInv.first {offered : List FileOffer} {seen ahead : List FileMsg} {o : FileOffer}
    (h : SentInv content offered (seen ++ .offer o :: ahead)) (ho : o ∈ offered) :
    ofBatch o.batchId seen = [] := by
  rcases h.logs o ho with ⟨pos, cancelled, body, tail, hms, hbody, htail⟩
  rw [ofBatch_append] at hms
  cases hfirst : ofBatch o.batchId seen with
  | nil => rfl
  | cons m rest =>
    exfalso
    rw [hfirst, List.cons_append, List.cons.injEq] at hms
    have hmem : FileMsg.offer o ∈ body ++ tail := by
      rw [← hms.2]
      simp [ofBatch, FileMsg.batchId]
    rcases List.mem_append.mp hmem with hmem | hmem
    · exact (stream_mem content hbody hmem).2.1 o rfl
    · cases cancelled with
      | false =>
        have htail : tail = [] := htail
        rw [htail] at hmem
        cases hmem
      | true =>
        rcases htail with ⟨r, hr⟩
        rw [hr] at hmem
        simp at hmem

theorem Receives.begin {offered : List FileOffer} {seen ahead : List FileMsg} {o : FileOffer}
    (hsent : SentInv content offered (seen ++ .offer o :: ahead)) (ho : o ∈ offered)
    {s : FileReceiver} {l : WriteLog}
    (hbatch : s.batchId = o.batchId ∧ s.files = o.files ∧ s.index = 0 ∧ s.received = 0 ∧
      s.crc = .reset ∧ s.fileOpen = false) :
    Receives content o s (seen ++ [.offer o]) l := by
  rcases hbatch with ⟨hid, hfiles, hindex, hreceived, -, hopen⟩
  refine ⟨hid, hfiles, ?_, ⟨[], ?_, ?_⟩, ?_, fun _ => hreceived⟩
  · rw [hindex]
    exact List.length_pos_of_ne_nil (hsent.ok o ho).nonempty
  · rw [ofBatch_append, hsent.first ho]
    exact ofBatch_all (by simp [FileMsg.batchId])
  · rw [hindex, hreceived]
    rfl
  · intro hopen'
    rw [hopen] at hopen'
    cases hopen'

/-- The stream a receiver has seen, one message on. -/
theorem Receives.extend {o : FileOffer} {s : FileReceiver} {seen : List FileMsg} {l : WriteLog}
    (h : Receives content o s seen l) {m : FileMsg} (hm : m.batchId = o.batchId) {pos : FilePos}
    (hstep : streamStep content o (s.index, s.received) m = some pos) :
    ∃ body, ofBatch o.batchId (seen ++ [m]) = .offer o :: body ∧
      stream content o (0, 0) body = some pos := by
  rcases h.body with ⟨body, hseen, hbody⟩
  refine ⟨body ++ [m], ?_, ?_⟩
  · rw [ofBatch_append, hseen]
    simp [ofBatch, hm]
  · rw [stream_append, hbody]
    simp [stream, hstep]

theorem Receives.writes {offered : List FileOffer} {seen ahead : List FileMsg} {c : FileChunkView}
    (hsent : SentInv content offered (seen ++ .chunk c :: ahead)) {o : FileOffer} (ho : o ∈ offered)
    {s s' : FileReceiver} {l : WriteLog} (h : Receives content o s seen l)
    (hbatch : c.batchId = s.batchId)
    (hstate : s' = { s with
      stored := s'.stored
      fileOpen := true
      crc := s.crc.update c.data
      received := s.received + c.data.length
      batchReceived := s.batchReceived + c.data.length }) :
    Receives content o s' (seen ++ [.chunk c])
      { l with written := (if s.fileOpen then l.written else []) ++ c.data } := by
  have hm : (FileMsg.chunk c).batchId = o.batchId := hbatch.trans h.id
  rcases h.next hsent ho hm with ⟨next, hnext⟩ | ⟨reason, hcancel⟩
  · have hstep := hnext
    simp only [streamStep] at hstep
    split at hstep
    · next hplace =>
      obtain rfl := Option.some.inj hstep
      rcases hplace with ⟨-, -, -, -, hfit, hdata⟩
      -- what was written so far is what came before the chunk
      have hbefore : (if s.fileOpen then l.written else []) =
          (content o.batchId s.index).take s.received := by
        cases hopen : s.fileOpen with
        | true => exact h.written hopen
        | false => simp [h.closed hopen]
      rw [hstate]
      refine ⟨h.id, h.files, h.index_lt, h.extend hm hnext, ?_, ?_⟩
      · intro _
        show (if s.fileOpen then l.written else []) ++ c.data =
          (content o.batchId s.index).take (s.received + c.data.length)
        rw [hbefore, List.take_add, ← hdata]
      · intro hopen
        cases hopen
    · cases hstep
  · cases hcancel

theorem WriteLog.stored_of_kept {l l' : WriteLog} (h : l'.kept = l.kept) {b : UInt32} {i : Nat} :
    l'.Stored b i ↔ l.Stored b i := by
  unfold WriteLog.Stored
  rw [h]

/-- One more file kept. -/
theorem WriteLog.stored_concat {l l' : WriteLog} {k : KeptFile} (h : l'.kept = l.kept ++ [k])
    {b : UInt32} {i : Nat} :
    l'.Stored b i ↔ l.Stored b i ∨ k.batchId = b ∧ k.index = i ∧ k.stored = true := by
  unfold WriteLog.Stored
  rw [h]
  simp only [List.mem_append, List.mem_singleton, or_and_right, exists_or, exists_eq_left]

/-- The callbacks of a step that acknowledges nothing leave the answers true. -/
theorem ReceiverInv.answers_quiet {s : FileReceiver} {toSender : List Bytes}
    {offered : List FileOffer} {seen : List FileMsg} {l l' : WriteLog}
    (h : ReceiverInv content s toSender offered seen l) {es : List FileReceiverEvent}
    (hacks : AcksNone es) (hkept : ∀ k ∈ l.kept, k ∈ l'.kept) :
    ∀ d ∈ toSender ++ answeredMessages es, ∀ b i,
      FileMsg.parse d = some (.ack ⟨b, i, .accepted⟩) → l'.Stored b i.toNat := by
  intro d hd b i hparse
  rcases List.mem_append.mp hd with hd | hd
  · exact (h.answers d hd b i hparse).mono hkept
  · exact absurd hparse (hacks d hd b i)

/-- What was kept stays exact when more is seen. -/
theorem ReceiverInv.kept_seen {s : FileReceiver} {toSender : List Bytes}
    {offered : List FileOffer} {seen new : List FileMsg} {l l' : WriteLog}
    (h : ReceiverInv content s toSender offered seen l) (hkept : l'.kept = l.kept) :
    ∀ k ∈ l'.kept, k.written = content k.batchId k.index ∧
      ∃ o, .offer o ∈ seen ++ new ∧ k.batchId = o.batchId ∧ k.index < o.files.length := by
  intro k hk
  rw [hkept] at hk
  rcases h.kept k hk with ⟨hexact, o, ho, hid, hlt⟩
  exact ⟨hexact, o, List.mem_append_left _ ho, hid, hlt⟩

/-- A file that is closed to be kept joins the ones that are exact. -/
theorem kept_concat {s : FileReceiver} {toSender : List Bytes} {offered : List FileOffer}
    {seen new : List FileMsg} {l l' : WriteLog} {o : FileOffer} {written : Bytes} {stored : Bool}
    (h : ReceiverInv content s toSender offered seen l) (hreceives : Receives content o s seen l)
    (hexact : written = content s.batchId s.index)
    (hkept : l'.kept = l.kept ++ [⟨s.batchId, s.index, written, stored⟩]) :
    ∀ k ∈ l'.kept, k.written = content k.batchId k.index ∧
      ∃ o, .offer o ∈ seen ++ new ∧ k.batchId = o.batchId ∧ k.index < o.files.length := by
  intro k hk
  rw [hkept] at hk
  rcases List.mem_append.mp hk with hk | hk
  · exact h.kept_seen rfl k hk
  · rw [List.mem_singleton.mp hk]
    exact ⟨hexact, o, List.mem_append_left _ hreceives.seen, hreceives.id, hreceives.index_lt⟩

/-- While a batch is being received, the last file of the last batch is not stored. -/
theorem ReceiverInv.not_complete {s : FileReceiver} {toSender : List Bytes}
    {offered : List FileOffer} {seen : List FileMsg} {l : WriteLog}
    (h : ReceiverInv content s toSender offered seen l) (hstate : s.state = .receiving)
    {o : FileOffer} (hlast : offered.getLast? = some o) :
    ¬l.Stored o.batchId (o.files.length - 1) := by
  intro hstored
  have := (h.complete o hlast hstored).1
  rw [hstate] at this
  cases this

theorem ReceiverInv.step {offered : List FileOffer} {seen ahead : List FileMsg}
    {m : Option FileMsg} (hsent : SentInv content offered (seen ++ (m.toList ++ ahead)))
    {s : FileReceiver} {toSender : List Bytes} {l : WriteLog}
    (h : ReceiverInv content s toSender offered seen l)
    {r : FileReceiver × List FileReceiverEvent} (hstep : ReceiverStep s m r) :
    ReceiverInv content r.1 (toSender ++ answeredMessages r.2) offered (seen ++ m.toList)
        (l.recordAll s.batchId r.2) ∧
      ∀ k ∈ l.kept, k ∈ (l.recordAll s.batchId r.2).kept := by
  rcases hstep with
    ⟨s', es, hstate', hidle, hlog, hacks⟩ | ⟨s', es, hstate, hstate', hlog, hacks⟩ |
    ⟨s', es, o, rfl, hstate, hstate', hbatch, hlog, hacks⟩ |
    ⟨s', es, c, rfl, hbatch, hstate, hplace, hstate', hlog, hacks⟩ |
    ⟨s', es, d, rfl, hbatch, hstate, hplace, hstate', hlog, hacks⟩ |
    ⟨s', es, d, rfl, hbatch, hstate, hplace, hnext, hstate', hlog, hacks⟩
  · -- nothing of note
    show ReceiverInv content s' (toSender ++ answeredMessages es) offered (seen ++ m.toList)
      (l.recordAll s.batchId es) ∧ ∀ k ∈ l.kept, k ∈ (l.recordAll s.batchId es).kept
    rw [hlog]
    refine ⟨⟨?_, h.kept_seen rfl, h.answers_quiet hacks (fun _ hk => hk), ?_⟩, fun _ hk => hk⟩
    · intro hreceiving
      have hreceiving : s.state = .receiving := by rwa [hstate'] at hreceiving
      rcases h.receiving hreceiving with ⟨o, ho, hreceives⟩
      have hbody : ofBatch o.batchId (seen ++ m.toList) = ofBatch o.batchId seen := by
        cases m with
        | none => simp
        | some m =>
          have hother := hreceives.other hsent ho (hidle hreceiving m rfl)
          have hnone : ofBatch o.batchId [m] = [] := ofBatch_none (by simpa using hother)
          rw [ofBatch_append, Option.toList_some, hnone, List.append_nil]
      rw [hstate']
      exact ⟨o, ho, hreceives.id, hreceives.files, hreceives.index_lt, hbody ▸ hreceives.body,
        hreceives.written, hreceives.closed⟩
    · rw [hstate']
      exact h.complete
  · -- the batch fails
    have hkept := hlog l s.batchId
    refine ⟨⟨?_, h.kept_seen hkept, h.answers_quiet hacks ?_, ?_⟩, ?_⟩
    · intro hreceiving
      rw [hstate'] at hreceiving
      cases hreceiving
    · intro k hk
      rwa [hkept]
    · intro o hlast hstored
      exact absurd ((WriteLog.stored_of_kept hkept).mp hstored) (h.not_complete hstate hlast)
    · intro k hk
      rwa [hkept]
  · -- a batch begins: its offer is one that was sent
    have ho : o ∈ offered := by
      rw [← hsent.order, mem_offers]
      simp
    show ReceiverInv content s' (toSender ++ answeredMessages es) offered (seen ++ [.offer o])
      (l.recordAll s.batchId es) ∧ ∀ k ∈ l.kept, k ∈ (l.recordAll s.batchId es).kept
    rw [hlog]
    refine ⟨⟨?_, h.kept_seen rfl, h.answers_quiet hacks (fun _ hk => hk), ?_⟩, fun _ hk => hk⟩
    · intro _
      exact ⟨o, ho, .begin hsent ho hbatch⟩
    · -- the last batch is still ahead, so nothing of it was stored
      intro o' hlast hstored
      rcases hstored with ⟨k, hk, hid, -⟩
      rcases (h.kept k hk).2 with ⟨o₁, hseen, hid', -⟩
      have ho₁ : o₁ ∈ offered := by
        rw [← hsent.order, mem_offers]
        exact List.mem_append_left _ hseen
      obtain rfl : o₁ = o' :=
        hsent.same ho₁ (List.mem_of_getLast? hlast) (hid'.symm.trans hid)
      exact (hsent.last_ahead (o := o) (by simp) hlast hseen).elim
  · -- a chunk is written
    have hkept : (l.recordAll s.batchId es).kept = l.kept := by rw [hlog]
    refine ⟨⟨?_, h.kept_seen hkept, h.answers_quiet hacks ?_, ?_⟩, ?_⟩
    · intro _
      rcases h.receiving hstate with ⟨o, ho, hreceives⟩
      refine ⟨o, ho, ?_⟩
      rw [hlog]
      exact hreceives.writes hsent ho hbatch hstate'
    · intro k hk
      rwa [hkept]
    · intro o hlast hstored
      exact absurd ((WriteLog.stored_of_kept hkept).mp hstored) (h.not_complete hstate hlast)
    · intro k hk
      rwa [hkept]
  · -- a file is closed and not stored
    rcases h.receiving hstate with ⟨o, ho, hreceives⟩
    have hexact := hreceives.exact (hsent.ok o ho) hplace.2
    have hkept := hlog l s.batchId
    have hmore : ∀ k ∈ l.kept, k ∈ (l.recordAll s.batchId es).kept := by
      intro k hk
      rw [hkept]
      exact List.mem_append_left _ hk
    refine ⟨⟨?_, ?_, h.answers_quiet hacks hmore, ?_⟩, hmore⟩
    · intro hreceiving
      rw [hstate'] at hreceiving
      cases hreceiving
    · exact kept_concat h hreceives hexact hkept
    · intro o' hlast hstored
      rcases (WriteLog.stored_concat hkept).mp hstored with hstored | ⟨-, -, hfalse⟩
      · exact absurd hstored (h.not_complete hstate hlast)
      · cases hfalse
  · -- a file is kept
    rcases h.receiving hstate with ⟨o, ho, hreceives⟩
    have hexact := hreceives.exact (hsent.ok o ho) hplace.2
    have hkept := hlog l s.batchId
    have hmore : ∀ k ∈ l.kept, k ∈ (l.recordAll s.batchId es).kept := by
      intro k hk
      rw [hkept]
      exact List.mem_append_left _ hk
    rcases hnext with ⟨hid, hfiles, hindex, hreceived, -, hclosed⟩
    refine ⟨⟨?_, ?_, ?_, ?_⟩, hmore⟩
    · intro hreceiving
      have hlt : ¬s.files.length ≤ s.index + 1 := by
        intro hle
        rw [hstate', if_pos hle] at hreceiving
        cases hreceiving
      refine ⟨o, ho, hid.trans hreceives.id, hfiles.trans hreceives.files, ?_, ?_, ?_, ?_⟩
      · rw [hindex, ← hreceives.files]
        exact Nat.not_le.mp hlt
      · have hm : (FileMsg.done d).batchId = o.batchId := hbatch.trans hreceives.id
        rcases hreceives.next hsent ho hm with ⟨next, hnext⟩ | ⟨reason, hcancel⟩
        · have hstep := hnext
          simp only [streamStep] at hstep
          split at hstep
          · obtain rfl := Option.some.inj hstep
            rw [hindex, hreceived]
            exact hreceives.extend hm hnext
          · cases hstep
        · cases hcancel
      · intro hopen
        rw [hclosed] at hopen
        cases hopen
      · intro _
        exact hreceived
    · exact kept_concat h hreceives hexact hkept
    · intro a ha b i hparse
      rcases List.mem_append.mp ha with ha | ha
      · exact (h.answers a ha b i hparse).mono hmore
      · rcases hacks a ha b i hparse with ⟨rfl, hi⟩
        exact (WriteLog.stored_concat hkept).mpr (Or.inr ⟨rfl, hi.symm, rfl⟩)
    · intro o' hlast hstored
      rcases (WriteLog.stored_concat hkept).mp hstored with hstored | ⟨hid', hindex', -⟩
      · exact absurd hstored (h.not_complete hstate hlast)
      · obtain rfl : o = o' :=
          hsent.same ho (List.mem_of_getLast? hlast) (hreceives.id.symm.trans hid')
        have hindex' : s.index = o.files.length - 1 := hindex'
        refine ⟨?_, hid.trans hreceives.id⟩
        rw [hstate', if_pos]
        rw [hreceives.files, hindex']
        omega

theorem writeLog_receiver (out : List FileLinkEvent) (b : UInt32) (es : List FileReceiverEvent) :
    writeLog (out ++ es.map (.receiver b)) = (writeLog out).recordAll b es :=
  writeLog_append out _

theorem offeredBatches_receiver (out : List FileLinkEvent) (b : UInt32)
    (es : List FileReceiverEvent) :
    offeredBatches (out ++ es.map (.receiver b)) = offeredBatches out := by
  have hnone : offeredBatches (es.map (.receiver b)) = [] := by
    unfold offeredBatches
    rw [List.filterMap_eq_nil_iff]
    intro e he
    rcases List.mem_map.mp he with ⟨e', -, rfl⟩
    rfl
  rw [offeredBatches_append, hnone, List.append_nil]

/-- The receiver acts, with the message that left the link. -/
theorem LinkInv.receives {s : FileLink} {out : List FileLinkEvent} {seen ahead : List FileMsg}
    {m : Option FileMsg} (h : LinkInv content s out seen (m.toList ++ ahead)) {rest : List Bytes}
    (hrest : rest.map FileMsg.parse = ahead.map some) {r : FileReceiver × List FileReceiverEvent}
    (hstep : ReceiverStep s.receiver m r) :
    LinkInv content (({ s with toReceiver := rest } : FileLink).receiverActs r).1
      (out ++ (({ s with toReceiver := rest } : FileLink).receiverActs r).2)
      (seen ++ m.toList) ahead := by
  rcases h.receiver.step h.sent hstep with ⟨hreceiver, hkept⟩
  refine ⟨hrest, ?_, ?_, ?_⟩
  · show SentInv content (offeredBatches (out ++ r.2.map (.receiver s.receiver.batchId))) _
    rw [offeredBatches_receiver, List.append_assoc]
    exact h.sent
  · show SenderInv content s.sender
      (offeredBatches (out ++ r.2.map (.receiver s.receiver.batchId))) _
      (writeLog (out ++ r.2.map (.receiver s.receiver.batchId)))
    rw [offeredBatches_receiver, writeLog_receiver, List.append_assoc]
    exact h.sender.mono hkept
  · show ReceiverInv content r.1 (s.toSender ++ answeredMessages r.2)
      (offeredBatches (out ++ r.2.map (.receiver s.receiver.batchId))) _
      (writeLog (out ++ r.2.map (.receiver s.receiver.batchId)))
    rw [offeredBatches_receiver, writeLog_receiver]
    exact hreceiver

/-! ## The whole run -/

/-- What is asked of the calls of a run: a batch is described as its files are and has
an id of its own, and the read callback reads the files. -/
def FairInput (content : UInt32 → Nat → Bytes) (s : FileLink) (out : List FileLinkEvent) :
    FileLinkInput → Prop
  | .offer batchId files _ => FreshBatch content out batchId files
  | .pump ios => ∀ io ∈ ios, ReadsContent content s.sender.batchId io
  | _ => True

theorem LinkInv.init : LinkInv content {} [] [] [] := by
  refine ⟨rfl, ⟨rfl, List.nodup_nil, ?_, ?_, ?_⟩, .over rfl (by simp), ⟨?_, ?_, ?_, ?_⟩⟩
  · intro o ho
    cases ho
  · intro m hm
    cases hm
  · intro o ho
    cases ho
  · intro hreceiving
    cases hreceiving
  · intro k hk
    cases hk
  · intro d hd
    cases hd
  · intro o hlast
    cases hlast

theorem LinkInv.step {s : FileLink} {out : List FileLinkEvent} {a : FileLinkInput}
    (hfair : FairInput content s out a) {seen ahead : List FileMsg}
    (h : LinkInv content s out seen ahead) :
    ∃ seen' ahead', LinkInv content (fileLink.step s a).1 (out ++ (fileLink.step s a).2) seen' ahead' := by
  cases a with
  | offer batchId files takes => exact ⟨seen, h.offer hfair takes⟩
  | pump ios =>
    cases hstate : s.sender.state with
    | sending =>
      have hbusy : s.sender.busy = true := by simp [FileSender.busy, hstate]
      refine ⟨seen, h.moves hbusy ?_⟩
      intro o hin hok
      exact hin.pump hok hstate (fun io hio => hin.id ▸ hfair io hio)
    | _ =>
      have hidle : s.sender.pump ios = (s.sender, []) := by
        cases ios <;> simp [FileSender.pump, hstate]
      show ∃ seen' ahead', LinkInv content (s.senderActs (s.sender.pump ios)).1
        (out ++ (s.senderActs (s.sender.pump ios)).2) seen' ahead'
      rw [hidle]
      exact ⟨seen, h.idles⟩
  | cancel takesCancel =>
    show ∃ seen' ahead', LinkInv content (s.senderActs (s.sender.cancel takesCancel)).1
      (out ++ (s.senderActs (s.sender.cancel takesCancel)).2) seen' ahead'
    unfold FileSender.cancel
    cases hbusy : s.sender.busy with
    | false => exact ⟨seen, h.idles⟩
    | true => exact ⟨seen, h.moves hbusy (fun o hin _ => hin.abort _ takesCancel)⟩
  | senderLinkLost =>
    show ∃ seen' ahead', LinkInv content (s.senderActs s.sender.linkLost).1
      (out ++ (s.senderActs s.sender.linkLost).2) seen' ahead'
    unfold FileSender.linkLost
    cases s.sender.busy with
    | false => exact ⟨seen, h.idles⟩
    | true => exact ⟨seen, h.ends (by simp) (by simp) _⟩
  | deliverToSender takesCancel =>
    show ∃ seen' ahead', LinkInv content (s.deliverToSender takesCancel).1
      (out ++ (s.deliverToSender takesCancel).2) seen' ahead'
    unfold FileLink.deliverToSender
    cases hlink : s.toSender with
    | nil => exact ⟨seen, ahead, by simpa using h⟩
    | cons message rest =>
      have hpopped : LinkInv content { s with toSender := rest } out seen ahead := by
        refine ⟨h.onLink, h.sent, h.sender, h.receiver.receiving, h.receiver.kept, ?_,
          h.receiver.complete⟩
        intro d hd
        exact h.receiver.answers d (by simp [hlink, hd])
      exact ⟨seen, hpopped.senderHandles (h.receiver.answers message (by simp [hlink])) takesCancel⟩
  | deliverToReceiver cb =>
    show ∃ seen' ahead', LinkInv content (s.deliverToReceiver cb).1
      (out ++ (s.deliverToReceiver cb).2) seen' ahead'
    unfold FileLink.deliverToReceiver
    have honLink := h.onLink
    cases hlink : s.toReceiver with
    | nil => exact ⟨seen, ahead, by simpa using h⟩
    | cons message rest =>
      cases ahead with
      | nil => simp [hlink] at honLink
      | cons m ahead =>
        simp only [hlink, List.map_cons, List.cons.injEq] at honLink
        have hstep := receiver_step s.receiver (.handleMessage message cb)
        have hm : (FileReceiverCall.handleMessage message cb).message? = some m := honLink.1
        rw [hm] at hstep
        exact ⟨_, ahead, LinkInv.receives (m := some m) h honLink.2 hstep⟩
  | receiverCall call =>
    show ∃ seen' ahead', LinkInv content
      (if call.isLocal then s.receiverActs (fileReceiver.step s.receiver call) else (s, [])).1
      (out ++ (if call.isLocal then s.receiverActs (fileReceiver.step s.receiver call) else (s, [])).2)
      seen' ahead'
    cases hlocal : call.isLocal with
    | false => exact ⟨seen, ahead, by simpa using h⟩
    | true =>
      have hnone : call.message? = none := by
        cases call with
        | handleMessage message cb => cases hlocal
        | _ => rfl
      have hstep := receiver_step s.receiver call
      rw [hnone] at hstep
      exact ⟨_, ahead, LinkInv.receives (m := none) h h.onLink hstep⟩

end Exact

/-- A kept file is the sender's file, and a batch the sender is done with is one the
receiver is done with, with all its files stored. -/
theorem fileTransfer_exact (content : UInt32 → Nat → Bytes) (inputs : List FileLinkInput)
    (hfair : fileLink.Along (FairInput content) {} inputs) :
    let r := fileLink.run {} inputs
    (∀ k ∈ keptFiles r.2, k.written = content k.batchId k.index ∧
      ∃ o ∈ offeredBatches r.2, k.batchId = o.batchId ∧ k.index < o.files.length) ∧
    (r.1.sender.state = .done →
      r.1.receiver.state = .done ∧ r.1.receiver.batchId = r.1.sender.batchId ∧
      ∀ i < r.1.sender.files.length,
        ∃ k ∈ keptFiles r.2, k.batchId = r.1.sender.batchId ∧ k.index = i ∧ k.stored = true) := by
  intro r
  have hinv : ∃ seen ahead, LinkInv content r.1 r.2 seen ahead := by
    refine Machine.run_invariant (fun s out => ∃ seen ahead, LinkInv content s out seen ahead)
      (FairInput content) ⟨[], [], .init⟩ ?_ inputs hfair
    rintro s out a hC ⟨seen, ahead, h⟩
    exact h.step hC
  rcases hinv with ⟨seen, ahead, h⟩
  refine ⟨?_, ?_⟩
  · intro k hk
    rcases h.receiver.kept k hk with ⟨hexact, o, hseen, hid, hlt⟩
    refine ⟨hexact, o, ?_, hid, hlt⟩
    rw [← h.sent.order, mem_offers]
    exact List.mem_append_left _ hseen
  · intro hdone
    rcases h.sender.finished hdone with ⟨o, hlast, hid, hfiles, hall⟩
    have hpos : 0 < o.files.length :=
      List.length_pos_of_ne_nil (h.sent.ok o (List.mem_of_getLast? hlast)).nonempty
    rcases h.receiver.complete o hlast (hall _ (by omega)) with ⟨hstate, hbatch⟩
    refine ⟨hstate, hbatch.trans hid.symm, ?_⟩
    intro i hi
    rw [hid]
    exact hall i (hfiles ▸ hi)

/-- A batch of one file that goes through. -/
def oneFileRun : List FileLinkInput :=
  [.receiverCall (.setAccepting true {}),
    .offer 7 [{ size := 3, name := ascii "a" }] true,
    .deliverToReceiver {},
    .deliverToSender false,
    .pump [{ read := fun _ off want => ([1, 2, 3].drop off).take want
             takesChunk := true, takesDone := true, takesCancel := true }],
    .deliverToReceiver { stored := ascii "a", written := true },
    .deliverToReceiver { closed := true },
    .deliverToSender false]

theorem oneFileRun_fair : fileLink.Along (FairInput (fun _ _ => [1, 2, 3])) {} oneFileRun := by
  rw [Machine.along_iff]
  refine ⟨trivial, ⟨?_, ?_⟩, trivial, trivial, ?_, trivial, trivial, trivial, trivial⟩
  · intro i hi
    obtain rfl : i = 0 := Nat.lt_one_iff.mp hi
    rfl
  · decide +kernel
  · intro io hio i off want hwant hfit
    rw [List.mem_singleton.mp hio]
    exact ⟨want, hwant, le_rfl, rfl⟩

theorem fileTransfer_exact_oneFile :
    (fileLink.run {} oneFileRun).1.sender.state = .done ∧
    (fileLink.run {} oneFileRun).1.receiver.state = .done ∧
    (∀ k ∈ keptFiles (fileLink.run {} oneFileRun).2, k.written = [1, 2, 3]) ∧
    ∃ k ∈ keptFiles (fileLink.run {} oneFileRun).2, k.index = 0 ∧ k.stored = true := by
  have hdone : (fileLink.run {} oneFileRun).1.sender.state = .done := by decide +kernel
  have hfiles : 0 < (fileLink.run {} oneFileRun).1.sender.files.length := by decide +kernel
  rcases fileTransfer_exact (fun _ _ => [1, 2, 3]) oneFileRun oneFileRun_fair with ⟨hkept, hend⟩
  rcases hend hdone with ⟨hreceiver, -, hall⟩
  rcases hall 0 hfiles with ⟨k, hk, -, hindex, hstored⟩
  exact ⟨hdone, hreceiver, fun k hk => (hkept k hk).1, k, hk, hindex, hstored⟩

end Deskhub
