import Deskhub.Host.HostedTerminalsSteps
import Deskhub.Session.TerminalClient

/-!
# A terminal tab and its host

A `TerminalClient` and the host, joined by a link that carries messages in order and drops
none until it is lost. The host may have had a life of its own before the tab joins.
-/

namespace Deskhub

structure TerminalLink where
  client : TerminalClient := {}
  host : HostedTerminals
  /-- The address the host sees the client under. -/
  addr : NetAddr
  /-- The messages on their way to the host, the next one first. -/
  up : List Bytes := []
  /-- The messages on their way to the client. -/
  down : List Bytes := []

inductive TerminalLinkStep where
  | client (call : TerminalClientCall)
  | toHost (started : Bool) (fingerprint : Fingerprint)
  | toClient
  /-- The link is lost, with all that was on it; the next one comes from this address. -/
  | linkLost (next : NetAddr)
  /-- The host notices that a peer is gone. -/
  | gone (peer : NetAddr) (nowUs : UInt64)
deriving DecidableEq

inductive TerminalLinkEvent where
  | client (e : TerminalClientEvent)
  | host (e : HostedTerminalsEvent)
deriving DecidableEq

namespace TerminalLink

/-- What the client put on the link. -/
def sentUp (out : List TerminalClientEvent) : List Bytes :=
  out.filterMap fun
    | .sent message => some message
    | _ => none

/-- What the host put on the link to this client. -/
def sentDown (addr : NetAddr) (out : List HostedTerminalsEvent) : List Bytes :=
  out.filterMap fun
    | .sent peer message => if peer = addr then some message else none
    | _ => none

/-- The client did something. -/
def afterClient (s : TerminalLink) (did : TerminalClient × List TerminalClientEvent) :
    TerminalLink × List TerminalLinkEvent :=
  ({ s with client := did.1, up := s.up ++ sentUp did.2 }, did.2.map .client)

/-- The host did something. -/
def afterHost (s : TerminalLink) (did : HostedTerminals × List HostedTerminalsEvent) :
    TerminalLink × List TerminalLinkEvent :=
  ({ s with host := did.1, down := s.down ++ sentDown s.addr did.2 }, did.2.map .host)

def step (s : TerminalLink) : TerminalLinkStep → TerminalLink × List TerminalLinkEvent
  | .client call => s.afterClient (s.client.call call)
  | .toHost started fingerprint =>
      match s.up with
      | [] => (s, [])
      | message :: rest =>
          { s with up := rest }.afterHost
            (s.host.handleMessage { from_ := s.addr, message, fingerprint, started })
  | .toClient =>
      match s.down with
      | [] => (s, [])
      | message :: rest => { s with down := rest }.afterClient (s.client.handleMessage message)
  | .linkLost next => ({ s with client := s.client.linkLost, addr := next, up := [], down := [] }, [])
  | .gone peer nowUs => s.afterHost (s.host.drainGone peer nowUs)

/-- The tab joins a host that is in some state. -/
def joined (host : HostedTerminals) (addr : NetAddr) : TerminalLink := { host := host, addr := addr }

/-- No message is in flight. -/
def Quiet (s : TerminalLink) : Prop := s.up = [] ∧ s.down = []

instance (s : TerminalLink) : Decidable s.Quiet := inferInstanceAs (Decidable (_ ∧ _))

end TerminalLink

def terminalLink : Machine TerminalLink TerminalLinkStep TerminalLinkEvent where
  step := TerminalLink.step

namespace TerminalLink

@[simp] theorem sentUp_append (xs ys : List TerminalClientEvent) :
    sentUp (xs ++ ys) = sentUp xs ++ sentUp ys := List.filterMap_append

@[simp] theorem sentUp_emit (written : Option Bytes) :
    sentUp (TerminalClient.emit written) = written.toList := by
  cases written with
  | none => rfl
  | some message => rfl

/-- Only messages to the address go down. -/
theorem sentDown_eq_nil {addr : NetAddr} {out : List HostedTerminalsEvent}
    (h : ∀ m, .sent addr m ∉ out) : sentDown addr out = [] := by
  refine List.filterMap_eq_nil_iff.mpr ?_
  intro e he
  cases e with
  | sent peer m =>
    have hpeer : peer ≠ addr := by
      rintro rfl
      exact h m he
    simp [hpeer]
  | shell termId e => rfl
  | audited record what => rfl
  | sessionsChanged => rfl

/-- An answer to an open reads back, whatever it says. -/
theorem readTermMessage_answer (ack : TermOpenAck) :
    readTermMessage ((buildTermOpenAck kMaxDatagram ack).getD []) = some (.openAck ack) := by
  have hbuilt : ∃ m, buildTermOpenAck kMaxDatagram ack = some m := ⟨_, rfl⟩
  rcases hbuilt with ⟨m, hm⟩
  rw [hm]
  exact readTermMessage_openAck hm

theorem readTermMessage_listAnswer (sessions : TermSessionList) :
    (∃ read, readTermMessage ((buildTermListAck kMaxDatagram sessions).getD []) =
      some (.listAck read)) ∨
      readTermMessage ((buildTermListAck kMaxDatagram sessions).getD []) = none := by
  cases hm : buildTermListAck kMaxDatagram sessions with
  | none => exact .inr rfl
  | some m => exact (readTermMessage_listAck hm).symm

theorem mem_sentDown {addr : NetAddr} {out : List HostedTerminalsEvent} {m : Bytes} :
    m ∈ sentDown addr out ↔ .sent addr m ∈ out := by
  unfold sentDown
  rw [List.mem_filterMap]
  constructor
  · rintro ⟨e, he, hm⟩
    cases e with
    | sent peer message =>
      dsimp only at hm
      split at hm
      · next hpeer =>
        cases hm
        rwa [hpeer] at he
      · cases hm
    | shell termId e => cases hm
    | audited record what => cases hm
    | sessionsChanged => cases hm
  · intro h
    exact ⟨_, h, if_pos rfl⟩

end TerminalLink

/-!
## A closed tab leaves no shell behind

`Close` tells the host to end the terminal that the tab holds. A terminal that the tab does
not hold is not ended: the one of an answer still on its way, and the one a new `Open` was
called over. In a run in which neither happens, each terminal taken for the tab stays in its
hands until it is closed: in an answer on its way, or held, or in a close on its way.
-/

namespace TerminalLink

open HostedTerminals

/-- The steps of a tab on a link that stays up. -/
def isTabStep : TerminalLinkStep → Bool
  | .client (.closeSession _) => false
  | .linkLost _ => false
  | .gone _ _ => false
  | _ => true

/-- The host opened the terminal of this id for the tab, or gave it back. -/
def Took (out : List TerminalLinkEvent) (id : UInt32) : Prop :=
  ∃ record what, .host (.audited record what) ∈ out ∧ record.termId = id ∧
    (what = .opened ∨ what = .reattached)

/-- Once the tab is closed and nothing is in flight, no peer is in a shell taken for it. -/
def LeavesNoShell (s : TerminalLink) (out : List TerminalLinkEvent) : Prop :=
  s.Quiet → s.client.state = .closed → ∀ id, Took out id → ¬ HasLive s.host id

/-- The next message for the client gives it a terminal. -/
def bringsTerminal (s : TerminalLink) : Bool :=
  match s.down.head?.bind readTermMessage with
  | some (.openAck ack) => ack.reason = .accepted
  | _ => false

/-- The tab opens no second terminal over one that it holds, and waits for each that it gets. -/
def TakesItsTerminal (s : TerminalLink) (_ : List TerminalLinkEvent) : TerminalLinkStep → Prop
  | .client (.open _ _) => s.client.state ≠ .open
  | .toClient => s.bringsTerminal = true → s.client.isWaiting = true
  | _ => True

instance (s : TerminalLink) (out : List TerminalLinkEvent) (a : TerminalLinkStep) :
    Decidable (TakesItsTerminal s out a) := by
  unfold TakesItsTerminal
  split <;> infer_instance

/-! ## Whose hands a terminal is in -/

/-- A message on its way to the client gives it the terminal. -/
def Answered (s : TerminalLink) (id : UInt32) : Prop :=
  ∃ m ∈ s.down, ∃ ack, readTermMessage m = some (.openAck ack) ∧ ack.reason = .accepted ∧
    ack.termId = id

def Held (s : TerminalLink) (id : UInt32) : Prop :=
  s.client.state = .open ∧ s.client.termId = id

/-- A message on its way to the host ends the terminal. -/
def Closing (s : TerminalLink) (id : UInt32) : Prop :=
  ∃ m ∈ s.up, readTermMessage m = some (.close id)

structure InHands (s : TerminalLink) (out : List TerminalLinkEvent) : Prop where
  kept : Kept s.host
  /-- What is on its way to the client answers an open or a list, or is no message. -/
  answers : ∀ m ∈ s.down, (∃ ack, readTermMessage m = some (.openAck ack)) ∨
    (∃ sessions, readTermMessage m = some (.listAck sessions)) ∨ readTermMessage m = none
  nonzero : s.client.state = .open → s.client.termId ≠ 0
  running : ∀ id, Took out id → s.host.running = true
  hands : ∀ id, Took out id → HasLive s.host id → id ≠ 0 ∧ (Answered s id ∨ Held s id ∨ Closing s id)

theorem took_client {out : List TerminalLinkEvent} {did : List TerminalClientEvent} {id : UInt32} :
    Took (out ++ did.map .client) id ↔ Took out id := by
  unfold Took
  simp

theorem took_host {out : List TerminalLinkEvent} {did : List HostedTerminalsEvent} {id : UInt32} :
    Took (out ++ did.map .host) id ↔ Took out id ∨ Takes did id := by
  unfold Took Takes
  simp only [List.mem_append, List.mem_map, TerminalLinkEvent.host.injEq, exists_eq_right]
  constructor
  · rintro ⟨record, what, hold | hnew, hid, hwhat⟩
    · exact .inl ⟨record, what, hold, hid, hwhat⟩
    · exact .inr ⟨record, what, hnew, hid, hwhat⟩
  · rintro (⟨record, what, hold, hid, hwhat⟩ | ⟨record, what, hnew, hid, hwhat⟩)
    · exact ⟨record, what, .inl hold, hid, hwhat⟩
    · exact ⟨record, what, .inr hnew, hid, hwhat⟩

/-! ## The client's calls -/

/-- A terminal that is held stays so, or a close for it is on its way. -/
theorem call_held {s : TerminalClient} (hopen : s.state = .open) {call : TerminalClientCall}
    (htab : isTabStep (.client call) = true) (hcond : ∀ size name, call ≠ .open size name) :
    ((s.call call).1.state = .open ∧ (s.call call).1.termId = s.termId) ∨
      ∃ m ∈ sentUp (s.call call).2, readTermMessage m = some (.close s.termId) := by
  have hresume (termId : UInt32) (size : TermSize) : s.resume termId size = (s, []) := by
    unfold TerminalClient.resume
    rw [if_pos hopen, ite_self]
  cases call with
  | «open» size name => exact absurd rfl (hcond size name)
  | reattach =>
    left
    change (s.resume s.termId s.size).1.state = _ ∧ (s.resume s.termId s.size).1.termId = _
    rw [hresume]
    exact ⟨hopen, rfl⟩
  | resume termId size =>
    left
    change (s.resume termId size).1.state = _ ∧ (s.resume termId size).1.termId = _
    rw [hresume]
    exact ⟨hopen, rfl⟩
  | requestList => exact .inl ⟨hopen, rfl⟩
  | sendInput bytes => exact .inl ⟨hopen, rfl⟩
  | resize size =>
    left
    change (s.resize size).1.state = _ ∧ (s.resize size).1.termId = _
    unfold TerminalClient.resize
    dsimp only
    split
    · exact ⟨hopen, rfl⟩
    · split
      · exact ⟨hopen, rfl⟩
      · exact ⟨hopen, rfl⟩
  | closeSession termId => cases htab
  | close =>
    right
    change ∃ m ∈ sentUp (if s.state = .open then _ else _), _
    have hbuilt : ∃ m, buildTermClose kMaxRecordSize s.termId = some m := ⟨_, rfl⟩
    rcases hbuilt with ⟨m, hm⟩
    rw [if_pos hopen, sentUp_emit, hm]
    exact ⟨m, List.mem_singleton.mpr rfl, readTermMessage_close hm⟩

theorem InHands.call {s : TerminalLink} {out : List TerminalLinkEvent} (h : InHands s out)
    {call : TerminalClientCall} (htab : isTabStep (.client call) = true)
    (hcond : TakesItsTerminal s out (.client call)) :
    InHands (s.step (.client call)).1 (out ++ (s.step (.client call)).2) := by
  refine ⟨h.kept, h.answers, ?_, ?_, ?_⟩
  · intro hopen
    rcases TerminalClient.call_open hopen with ⟨hbefore, hid⟩
    change (s.client.call call).1.termId ≠ 0
    rw [hid]
    exact h.nonzero hbefore
  · intro id htook
    exact h.running id (took_client.mp htook)
  · intro id htook hlive
    rcases h.hands id (took_client.mp htook) hlive with ⟨hid, hanswered | hheld | hclosing⟩
    · exact ⟨hid, .inl hanswered⟩
    · -- an open over what is held is ruled out
      have hnot : ∀ size name, call ≠ .open size name := by
        rintro size name rfl
        exact hcond hheld.1
      rcases call_held hheld.1 htab hnot with ⟨hstill, hsame⟩ | ⟨m, hm, hread⟩
      · exact ⟨hid, .inr (.inl ⟨hstill, hsame.trans hheld.2⟩)⟩
      · refine ⟨hid, .inr (.inr ⟨m, List.mem_append_right _ hm, ?_⟩)⟩
        rw [hread, hheld.2]
    · rcases hclosing with ⟨m, hm, hread⟩
      exact ⟨hid, .inr (.inr ⟨m, List.mem_append_left _ hm, hread⟩)⟩

/-! ## Messages -/

theorem InHands.toHost {s : TerminalLink} {out : List TerminalLinkEvent} (h : InHands s out)
    (started : Bool) (fingerprint : Fingerprint) :
    InHands (s.step (.toHost started fingerprint)).1
      (out ++ (s.step (.toHost started fingerprint)).2) := by
  cases hup : s.up with
  | nil =>
    have hstep : s.step (.toHost started fingerprint) = (s, []) := by simp [step, hup]
    rw [hstep, List.append_nil]
    exact h
  | cons message rest =>
    -- the message arrives
    generalize harrival : ({ from_ := s.addr, message, fingerprint, started } : TerminalArrival) = a
    have hfrom : a.from_ = s.addr := by rw [← harrival]
    have hmessage : a.message = message := by rw [← harrival]
    have hstep : s.step (.toHost started fingerprint) =
        ({ s with up := rest } : TerminalLink).afterHost (s.host.handleMessage a) := by
      rw [← harrival]
      simp [step, hup]
    rw [hstep]
    have hanswered {id : UInt32} (hgrants : Grants (s.host.handleMessage a).2 a.from_ id) :
        Answered (({ s with up := rest } : TerminalLink).afterHost (s.host.handleMessage a)).1 id := by
      rcases hgrants with ⟨ack, hmem, haccepted, hid⟩
      rw [hfrom] at hmem
      exact ⟨_, List.mem_append_right _ (mem_sentDown.mpr hmem), ack, readTermMessage_answer ack,
        haccepted, hid⟩
    have hnonzero {id : UInt32} (hgrants : Grants (s.host.handleMessage a).2 a.from_ id)
        (hlive : HasLive (s.host.handleMessage a).1 id) : id ≠ 0 := by
      rintro rfl
      rcases hlive with ⟨r, hr, hid, -⟩
      apply (h.kept.message a).nonzero
      rw [← hid]
      exact List.mem_map_of_mem hr
    refine ⟨h.kept.message a, ?_, h.nonzero, ?_, ?_⟩
    · intro m hm
      rcases List.mem_append.mp hm with hold | hnew
      · exact h.answers m hold
      · have hsent := mem_sentDown.mp hnew
        rw [← hfrom] at hsent
        rcases handleMessage_answers hsent with ⟨-, ack, -, rfl⟩ | ⟨sessions, rfl⟩
        · exact .inl ⟨ack, readTermMessage_answer ack⟩
        · rcases readTermMessage_listAnswer sessions with hread | hnone
          · exact .inr (.inl hread)
          · exact .inr (.inr hnone)
    · intro id htook
      change (s.host.handleMessage a).1.running = true
      rw [running_handleMessage]
      rcases took_host.mp htook with hold | hnew
      · exact h.running id hold
      · by_contra hstopped
        have hnothing : s.host.handleMessage a = (s.host, []) := by
          unfold handleMessage
          rw [if_pos (by simpa using hstopped)]
        rw [hnothing] at hnew
        rcases hnew with ⟨record, what, hmem, -⟩
        cases hmem
    · intro id htook hlive
      rcases took_host.mp htook with hold | hnew
      · rcases handleMessage_grants.1 hlive with hbefore | hgrants
        · rcases h.hands id hold hbefore with ⟨hid, hanswer | hheld | hclosing⟩
          · rcases hanswer with ⟨m, hm, hread⟩
            exact ⟨hid, .inl ⟨m, List.mem_append_left _ hm, hread⟩⟩
          · exact ⟨hid, .inr (.inl hheld)⟩
          · rcases hclosing with ⟨m, hm, hread⟩
            rw [hup] at hm
            rcases List.mem_cons.mp hm with rfl | hrest
            · -- the close arrives, and ends the terminal
              have hclosed : (s.host.handleMessage a).1 = (s.host.handleClose a.from_ id).1 := by
                unfold handleMessage
                rw [if_neg (by simp [h.running id hold]), hmessage, hread]
              change HasLive (s.host.handleMessage a).1 id at hlive
              rw [hclosed] at hlive
              exact absurd hlive (not_live_handleClose h.kept hid)
            · exact ⟨hid, .inr (.inr ⟨m, hrest, hread⟩)⟩
        · exact ⟨hnonzero hgrants hlive, .inl (hanswered hgrants)⟩
      · have hgrants := handleMessage_grants.2 hnew
        exact ⟨hnonzero hgrants hlive, .inl (hanswered hgrants)⟩

/-- What the client makes of the next message: the terminal it holds stays, and no other is
given to it; or it holds none, and is given one or not. -/
theorem takes_cases {s : TerminalLink} {out : List TerminalLinkEvent} (h : InHands s out)
    (hcond : TakesItsTerminal s out .toClient) {message : Bytes} (hnext : s.down.head? = some message) :
    ((s.client.handleMessage message).1.state = s.client.state ∧
        (s.client.handleMessage message).1.termId = s.client.termId ∧
        ∀ ack, readTermMessage message = some (.openAck ack) → ack.reason ≠ .accepted ∨
          ack.termId = 0) ∨
      (s.client.state ≠ .open ∧
        ((s.client.handleMessage message).1.state ≠ .open ∧
            (∀ ack, readTermMessage message = some (.openAck ack) → ack.reason ≠ .accepted ∨
              ack.termId = 0) ∨
          ∃ ack, readTermMessage message = some (.openAck ack) ∧ ack.termId ≠ 0 ∧
            (s.client.handleMessage message).1.state = .open ∧
            (s.client.handleMessage message).1.termId = ack.termId)) := by
  have hmem : message ∈ s.down := List.mem_of_mem_head? hnext
  by_cases hack : ∃ ack, readTermMessage message = some (.openAck ack)
  · rcases hack with ⟨ack, hread⟩
    have hone : ∀ ack', readTermMessage message = some (.openAck ack') → ack' = ack := by
      intro ack' hread'
      rw [hread] at hread'
      cases hread'
      rfl
    rw [TerminalClient.handleMessage_ack hread]
    rcases TerminalClient.handleOpenAck_cases s.client ack with ⟨hnot, hsame⟩ |
      ⟨hrefused, hopen, hafter, -, -⟩ | ⟨hwaits, -, hid, htaken⟩
    · rw [hsame]
      left
      refine ⟨rfl, rfl, ?_⟩
      intro ack' hread'
      left
      rw [hone ack' hread']
      intro haccepted
      have hbrings : s.bringsTerminal = true := by
        simp [bringsTerminal, hnext, hread, haccepted]
      rw [hcond hbrings] at hnot
      cases hnot
    · right
      refine ⟨hopen, .inl ⟨hafter, ?_⟩⟩
      intro ack' hread'
      rwa [hone ack' hread']
    · right
      have hopen : s.client.state ≠ .open := by
        intro hopen
        simp [TerminalClient.isWaiting, hopen] at hwaits
      refine ⟨hopen, .inr ⟨ack, hread, hid, ?_, ?_⟩⟩
      · rw [htaken]
      · rw [htaken]
  · -- neither an answer to a list nor what is no message ends a terminal
    left
    have hkind : (∃ sessions, readTermMessage message = some (.listAck sessions)) ∨
        readTermMessage message = none := by
      rcases h.answers message hmem with hopenAck | hrest
      · exact absurd hopenAck hack
      · exact hrest
    have hsame : (s.client.handleMessage message).1.state = s.client.state ∧
        (s.client.handleMessage message).1.termId = s.client.termId := by
      refine TerminalClient.handleMessage_state (fun ack hread => hack ⟨ack, hread⟩) ?_ ?_
      · intro termId exitCode hread
        rcases hkind with ⟨sessions, hlist⟩ | hnone
        · rw [hlist] at hread
          cases hread
        · rw [hnone] at hread
          cases hread
      · intro termId hread
        rcases hkind with ⟨sessions, hlist⟩ | hnone
        · rw [hlist] at hread
          cases hread
        · rw [hnone] at hread
          cases hread
    exact ⟨hsame.1, hsame.2, fun ack hread => absurd ⟨ack, hread⟩ hack⟩

theorem InHands.toClient {s : TerminalLink} {out : List TerminalLinkEvent} (h : InHands s out)
    (hcond : TakesItsTerminal s out .toClient) :
    InHands (s.step .toClient).1 (out ++ (s.step .toClient).2) := by
  cases hdown : s.down with
  | nil =>
    have hstep : s.step .toClient = (s, []) := by simp [step, hdown]
    rw [hstep, List.append_nil]
    exact h
  | cons message rest =>
    have hstep : s.step .toClient =
        ({ s with down := rest } : TerminalLink).afterClient (s.client.handleMessage message) := by
      simp [step, hdown]
    rw [hstep]
    have hrest : ∀ m ∈ rest, m ∈ s.down := by
      intro m hm
      rw [hdown]
      exact List.mem_cons_of_mem message hm
    have hstate := takes_cases h hcond (by rw [hdown]; rfl)
    refine ⟨h.kept, fun m hm => h.answers m (hrest m hm), ?_, ?_, ?_⟩
    · intro hopen
      change (s.client.handleMessage message).1.state = .open at hopen
      change (s.client.handleMessage message).1.termId ≠ 0
      rcases hstate with ⟨hsame, hid, -⟩ | ⟨-, ⟨hnot, -⟩ | ⟨ack, -, hid, -, hterm⟩⟩
      · rw [hid]
        exact h.nonzero (hsame ▸ hopen)
      · exact absurd hopen hnot
      · rw [hterm]
        exact hid
    · intro id htook
      exact h.running id (took_client.mp htook)
    · intro id htook hlive
      rcases h.hands id (took_client.mp htook) hlive with ⟨hid, hanswered | hheld | hclosing⟩
      · rcases hanswered with ⟨m, hm, ack, hread, haccepted, hack⟩
        rw [hdown] at hm
        rcases List.mem_cons.mp hm with rfl | hm
        · -- the terminal's own answer arrives
          have hnot : ¬ (ack.reason ≠ .accepted ∨ ack.termId = 0) := by
            rw [hack]
            simp [haccepted, hid]
          rcases hstate with ⟨-, -, hrefused⟩ | ⟨-, ⟨-, hrefused⟩ | ⟨ack', hread', -, hopen, hterm⟩⟩
          · exact absurd (hrefused ack hread) hnot
          · exact absurd (hrefused ack hread) hnot
          · rw [hread] at hread'
            cases hread'
            exact ⟨hid, .inr (.inl ⟨hopen, hterm.trans hack⟩)⟩
        · exact ⟨hid, .inl ⟨m, hm, ack, hread, haccepted, hack⟩⟩
      · rcases hstate with ⟨hsame, hterm, -⟩ | ⟨hnot, -⟩
        · exact ⟨hid, .inr (.inl ⟨hsame.trans hheld.1, hterm.trans hheld.2⟩)⟩
        · exact absurd hheld.1 hnot
      · rcases hclosing with ⟨m, hm, hread⟩
        exact ⟨hid, .inr (.inr ⟨m, List.mem_append_left _ hm, hread⟩)⟩

/-! ## Runs -/

theorem inHands_joined (calls : List HostedTerminalsCall) (addr : NetAddr) :
    InHands (joined (hostedTerminals.run {} calls).1 addr) [] := by
  refine ⟨kept_run calls, nofun, nofun, ?_, ?_⟩
  · rintro id ⟨record, what, hmem, -⟩
    cases hmem
  · rintro id ⟨record, what, hmem, -⟩
    cases hmem

theorem InHands.run {s : TerminalLink} (h : InHands s []) {steps : List TerminalLinkStep}
    (htab : ∀ a ∈ steps, isTabStep a = true) (hcond : terminalLink.Along TakesItsTerminal s steps) :
    InHands (terminalLink.run s steps).1 (terminalLink.run s steps).2 := by
  induction steps using List.reverseRecOn with
  | nil => exact h
  | append_singleton steps a ih =>
    have hbefore := ih (fun a ha => htab a (List.mem_append_left _ ha)) hcond.init
    have hstep := hcond.last
    have htab := htab a (by simp)
    rw [Machine.run_concat]
    cases a with
    | client call => exact hbefore.call htab hstep
    | toHost started fingerprint => exact hbefore.toHost started fingerprint
    | toClient => exact hbefore.toClient hstep
    | linkLost next => cases htab
    | gone peer nowUs => cases htab

/-- A closed tab leaves no shell in the runs in which no new terminal is opened over one that
the tab holds, and none is brought to it unawaited. -/
theorem leavesNoShell_of_takes (calls : List HostedTerminalsCall) (addr : NetAddr)
    {steps : List TerminalLinkStep} (htab : ∀ a ∈ steps, isTabStep a = true)
    (hcond : terminalLink.Along TakesItsTerminal
      (joined (hostedTerminals.run {} calls).1 addr) steps) :
    LeavesNoShell (terminalLink.run (joined (hostedTerminals.run {} calls).1 addr) steps).1
      (terminalLink.run (joined (hostedTerminals.run {} calls).1 addr) steps).2 := by
  intro hquiet hclosed id htook hlive
  have hinv := (inHands_joined calls addr).run htab hcond
  rcases (hinv.hands id htook hlive).2 with hanswered | hheld | hclosing
  · rcases hanswered with ⟨m, hm, -⟩
    rw [hquiet.2] at hm
    cases hm
  · have hopen := hheld.1
    rw [hclosed] at hopen
    cases hopen
  · rcases hclosing with ⟨m, hm, -⟩
    rw [hquiet.1] at hm
    cases hm

/-- A tab opens a terminal of one cell, is given it, and closes it. -/
def patientTab : List TerminalLinkStep :=
  [.client (.open { cols := 1, rows := 1 } []), .toHost true default, .toClient, .client .close,
    .toHost true default]

theorem leavesNoShell_patient :
    LeavesNoShell (terminalLink.run (joined (hostedTerminals.run {} [.start]).1 {}) patientTab).1
      (terminalLink.run (joined (hostedTerminals.run {} [.start]).1 {}) patientTab).2 :=
  leavesNoShell_of_takes [.start] {} (by decide) (by decide +kernel)

/-- A tab that is closed while the answer to its open is on its way. -/
def hastyTab : List TerminalLinkStep :=
  [.client (.open { cols := 1, rows := 1 } []), .client .close, .toHost true default, .toClient]

theorem leavesNoShell_hasty :
    ¬ LeavesNoShell (terminalLink.run (joined (hostedTerminals.run {} [.start]).1 {}) hastyTab).1
      (terminalLink.run (joined (hostedTerminals.run {} [.start]).1 {}) hastyTab).2 := by
  intro h
  -- the shell that the answer, ignored by then, gave to the tab
  let record : TerminalRecord :=
    { termId := 1
      size := { cols := 1, rows := 1 }
      clientEndpoint := NetAddr.toText {} }
  refine h (by decide +kernel) (by decide +kernel) 1 ?_ ?_
  · exact ⟨record, .opened, by decide +kernel, rfl, .inl rfl⟩
  · exact ⟨record, by decide +kernel, rfl, rfl⟩

end TerminalLink

end Deskhub
