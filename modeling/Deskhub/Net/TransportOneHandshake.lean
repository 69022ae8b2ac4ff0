import Deskhub.Net.TransportGate

/-!
# One handshake on a connection

A second AuthStart is refused by the record of the first handshake. The refusal costs the handshake
that record, and the bytes behind it are still delivered, so that a third AuthStart finds none.
-/

namespace Deskhub

namespace SessionTransport

variable {Env : Type} {sv : HostServices Env} {s : SessionTransport Env} {outs : List TransportEvent}

/-- At each moment of a run, no more than one handshake has begun on a connection. -/
def OneHandshake (sv : HostServices Env) (s : SessionTransport Env) (calls : List (TransportCall Env)) : Prop :=
  ∀ pre post, calls = pre ++ post → ∀ key, (peerRecord key ((sessionTransport sv).run s pre).2).begun ≤ 1

/-- An AuthStart that a handshake begins with comes on a connection on which one has begun, and the
record of that one is gone. -/
def StartsOver (sv : HostServices Env) (s : SessionTransport Env) (outs : List TransportEvent) :
    TransportCall Env → Prop
  | .deliver peer message clock =>
      (s.clientAuthOn = false ∧ isAuthStart message = true) ∧
        (0 < (peerRecord peer.pack outs).begun ∧ s.hostAuth.contains peer.pack = false) ∧
        (s.beginsWith sv peer (payloadOf message) clock).isSome = true
  | _ => False

/-! ## What begins -/

theorem begun_note_le (key : UInt64) (r : PeerRecord) {e : TransportEvent} (h : ∀ key' start, e ≠ .began key' start) :
    (r.note key e).begun ≤ r.begun := by
  cases e with
  | began key' start => exact absurd rfl (h key' start)
  | admitted key' =>
    show (if key' = key then _ else _ : PeerRecord).begun ≤ _
    split
    · exact Nat.zero_le _
    · exact Nat.le_refl _
  | settled key' code =>
    show (if key' = key then _ else _ : PeerRecord).begun ≤ _
    split
    · exact Nat.le_refl _
    · exact Nat.le_refl _
  | forgot key' =>
    show (if key' = key then _ else _ : PeerRecord).begun ≤ _
    split
    · exact Nat.le_refl _
    · exact Nat.le_refl _
  | _ => exact Nat.le_refl _

/-- Where nothing begins, no more have begun. -/
theorem begun_foldl_le (key : UInt64) {events : List TransportEvent}
    (h : ∀ e ∈ events, ∀ key' start, e ≠ .began key' start) (r : PeerRecord) :
    (events.foldl (PeerRecord.note key) r).begun ≤ r.begun := by
  induction events generalizing r with
  | nil => exact Nat.le_refl _
  | cons e events ih =>
    have hfirst := begun_note_le key r (h e (by simp))
    exact Nat.le_trans (ih (fun e' hmem => h e' (by simp [hmem])) _) hfirst

theorem not_began_of_plain {e : TransportEvent} (h : e.Plain) (key : UInt64) (start : AuthStart) :
    e ≠ .began key start := by
  rintro rfl
  exact h

theorem not_began_of_quiet {e : TransportEvent} (h : e.Quiet) (key : UInt64) (start : AuthStart) :
    e ≠ .began key start := by
  rintro rfl
  exact h

theorem not_began_of_reply {e : TransportEvent} (h : e.Reply) (key : UInt64) (start : AuthStart) :
    e ≠ .began key start :=
  not_began_of_quiet h.quiet key start

/-- A handshake that begins is counted for its peer only. -/
theorem begun_began (key key' : UInt64) (start : AuthStart) {replies : List TransportEvent}
    (hreplies : ∀ e ∈ replies, e.Reply) (outs : List TransportEvent) :
    (peerRecord key (outs ++ .began key' start :: replies)).begun =
      (peerRecord key outs).begun + if key' = key then 1 else 0 := by
  rw [peerRecord_append, List.foldl_cons, foldl_note_quiet (quiet_of_reply hreplies)]
  show (if key' = key then _ else _ : PeerRecord).begun = _
  split
  · rfl
  · rfl

/-- An AuthStart begins a handshake exactly if there is no record and it is good. -/
theorem StartsAs.begun_eq {peer : NetAddr} {payload : Bytes} {clock : Nat → UInt64}
    {result : SessionTransport Env × List TransportEvent} (h : StartsAs sv s peer payload clock result)
    (outs : List TransportEvent) (key : UInt64) :
    (peerRecord key (outs ++ result.2)).begun = (peerRecord key outs).begun +
      if peer.pack = key ∧ s.hostAuth.contains peer.pack = false ∧
        (s.beginsWith sv peer payload clock).isSome = true then 1 else 0 := by
  cases h with
  | restarted hrecord =>
    rw [if_neg (fun hgood => Bool.false_ne_true (hgood.2.1.symm.trans hrecord)), peerRecord_append]
    show (if peer.pack = key then _ else _ : PeerRecord).begun = _
    split
    · rfl
    · rfl
  | refused hrecord hbegins hreplies =>
    rw [if_neg, peerRecord_append, foldl_note_quiet (quiet_of_reply hreplies), Nat.add_zero]
    rintro ⟨-, -, hsome⟩
    rw [hbegins] at hsome
    contradiction
  | limited hrecord hbegins hreplies =>
    rw [begun_began key peer.pack _ hreplies, hbegins, hrecord]
    simp
  | begun hrecord hbegins hsession hfingerprint hkey htoken pendingAuth hreplies =>
    rw [begun_began key peer.pack _ hreplies, hbegins, hrecord]
    simp

/-- A response begins nothing. -/
theorem AnswersAs.begun_le {peer : NetAddr} {payload : Bytes}
    {result : SessionTransport Env × List TransportEvent} (h : AnswersAs sv s peer payload result)
    (outs : List TransportEvent) (key : UInt64) :
    (peerRecord key (outs ++ result.2)).begun ≤ (peerRecord key outs).begun := by
  rw [peerRecord_append]
  apply begun_foldl_le
  cases h with
  | dropped code =>
    refine List.forall_mem_append.mpr ⟨List.forall_mem_singleton.mpr ?_, List.forall_mem_singleton.mpr ?_⟩
    · exact not_began_of_plain trivial
    · exact not_began_of_plain trivial
  | ignored hreplies => exact fun e he => not_began_of_reply (hreplies e he)
  | settled hrecord hparse hhostAuth hauthenticated hconnections hfingerprint htold hreplies =>
    refine List.forall_mem_append.mpr ⟨fun e he => not_began_of_reply (htold e he), List.forall_mem_cons.mpr ⟨?_, ?_⟩⟩
    · simp
    · exact fun e he => not_began_of_reply (hreplies e he)

/-- Where no handshake starts over, no connection has a second one after a step. -/
theorem begun_step {call : TransportCall Env} (hle : ∀ key, (peerRecord key outs).begun ≤ 1)
    (hnot : ¬ StartsOver sv s outs call) (key : UInt64) :
    (peerRecord key (outs ++ ((sessionTransport sv).step s call).2)).begun ≤ 1 := by
  by_cases hpasses : call.Passes
  · cases call with
    | deliver peer message clock =>
      have hdelivers := s.deliver_deliversAs sv peer message clock
      change (peerRecord key (outs ++ (s.deliver sv peer message clock).2)).begun ≤ 1
      generalize s.deliver sv peer message clock = result at hdelivers ⊢
      cases hdelivers with
      | ignored =>
        rw [List.append_nil]
        exact hle key
      | client authInbox =>
        rw [List.append_nil]
        exact hle key
      | start hclient hstart hstarts =>
        rw [hstarts.begun_eq outs key]
        split
        · next hgood =>
          -- the first one on the connection, for another one would start over
          rcases hgood with ⟨rfl, hrecord, hbegins⟩
          have hfirst : ¬ 0 < (peerRecord peer.pack outs).begun :=
            fun hsecond => hnot ⟨⟨hclient, hstart⟩, ⟨hsecond, hrecord⟩, hbegins⟩
          omega
        · exact hle key
      | answer hanswers => exact Nat.le_trans (hanswers.begun_le outs key) (hle key)
      | queued hin lane inbox =>
        have hquiet : (TransportEvent.queued lane ⟨peer, message⟩).Quiet := trivial
        rw [peerRecord_append]
        exact Nat.le_trans (begun_foldl_le key (List.forall_mem_singleton.mpr (not_began_of_quiet hquiet)) _)
          (hle key)
    | sendRecordOn peer streamId message =>
      have hquiet := s.sendRecordOn_quiet peer streamId message
      rw [peerRecord_append]
      exact Nat.le_trans (begun_foldl_le key (fun e he => not_began_of_quiet (hquiet e he)) _) (hle key)
    | _ => exact hpasses.elim
  · have hplain := plain_step sv (s := s) hpasses
    rw [peerRecord_append]
    exact Nat.le_trans (begun_foldl_le key (fun e he => not_began_of_plain (hplain e he)) _) (hle key)

/-- An AuthStart that is delivered to the host goes to its handshakes. -/
theorem deliver_of_start {peer : NetAddr} {message : Bytes} {clock : Nat → UInt64}
    (hclient : s.clientAuthOn = false) (hstart : isAuthStart message = true) :
    s.deliver sv peer message clock = s.handleAuthStart sv peer (payloadOf message) clock := by
  unfold isAuthStart at hstart
  have hsome : message ≠ [] := by
    rintro rfl
    contradiction
  have hhost : ¬ (s.clientAuthOn = true ∧ isAuthMessage message = true) := by
    rw [hclient]
    simp
  unfold deliver handleHostAuth
  rw [if_neg hsome, if_neg hhost]
  cases hheader : parseCommonHeader message with
  | none =>
    rw [hheader] at hstart
    contradiction
  | some header =>
    rw [hheader] at hstart
    dsimp only
    rw [if_pos (of_decide_eq_true hstart)]
    rfl

/-- A handshake that starts over is another one on its connection. -/
theorem begun_startsOver {call : TransportCall Env} (h : StartsOver sv s outs call) :
    ∃ key, 1 < (peerRecord key (outs ++ ((sessionTransport sv).step s call).2)).begun := by
  cases call with
  | deliver peer message clock =>
    rcases h with ⟨⟨hclient, hstart⟩, ⟨hbegun, hrecord⟩, hbegins⟩
    refine ⟨peer.pack, ?_⟩
    have hstarts := s.handleAuthStart_startsAs sv peer (payloadOf message) clock
    change 1 < (peerRecord peer.pack (outs ++ (s.deliver sv peer message clock).2)).begun
    rw [deliver_of_start hclient hstart, hstarts.begun_eq outs peer.pack, if_pos ⟨rfl, hrecord, hbegins⟩]
    omega
  | _ => exact h.elim

/-- A host on which every key can be written and is on the list, and nothing verifies. -/
def plainServices : HostServices Unit where
  publicKeyTextFromSpki := fun key => key
  fingerprintOfPublicKey := fun _ => some default
  verifySignature := fun _ _ _ => false
  checkClientKeyAuthorization := fun _ _ => .authorized
  rememberAuthorizedKey := fun env _ => (env, false)
  redeemPairingToken := fun env _ => (env, false)
  rememberAccessRequest := fun env _ _ _ => (env, false)
  authorizedKeysGeneration := fun _ => 0

/-- The AuthStart of a key. -/
def startOf (key : UInt8) : Bytes := (buildAuthStart kMaxRecordSize { publicKey := [key] }).getD []

/-- A handshake, one that is refused because of it, and one with another key. -/
def threeStarts : List (TransportCall Unit) :=
  [.admitConnection { ip := 1, port := 2 } 0,
    .established { ip := 1, port := 2 } ⟨List.replicate 32 7, rfl⟩,
    .deliver { ip := 1, port := 2 } (startOf 5) fun _ => 1,
    .deliver { ip := 1, port := 2 } (startOf 6) fun _ => 2,
    .deliver { ip := 1, port := 2 } (startOf 6) fun _ => 3]

end SessionTransport

end Deskhub
