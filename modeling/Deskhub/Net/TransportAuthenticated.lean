import Deskhub.Net.TransportGate

/-!
# Nothing passes unauthenticated

A message is put in a lane, and a record goes out, only while the latest settlement of the peer lets
it in; and a settlement lets a peer in only when the response that was awaited proves the key of
the AuthStart on this very connection, and the key is on the list or its token is taken.
-/

namespace Deskhub

namespace SessionTransport

variable {Env : Type} {sv : HostServices Env} {s : SessionTransport Env} {fingerprint : Fingerprint}

/-- The response proves the key that the peer's AuthStart named, and the key is let in. -/
def ProvenBy (sv : HostServices Env) (fingerprint : Fingerprint) (s : SessionTransport Env) (peer : NetAddr)
    (message : Bytes) (r : PeerRecord) : Prop :=
  ∃ auth response start sessionId,
    s.hostAuth.find? peer.pack = some auth ∧ auth.state = .awaitingResponse ∧
      parseAuthResponse (payloadOf message) = some response ∧
      s.connections.find? peer.pack = some (some sessionId) ∧ r.start = some start ∧
      sv.verifySignature start.publicKey (authTranscript .client sessionId start.publicKey fingerprint)
        response.proof = true ∧
      HostAuth.Entitled sv s.env start.publicKey start.pairingToken

/-- What an output of a call asks of what was seen before it. -/
def Allowed (sv : HostServices Env) (fingerprint : Fingerprint) (s : SessionTransport Env)
    (outs : List TransportEvent) (call : TransportCall Env) : TransportEvent → Prop
  | .queued _ message => (peerRecord message.peer.pack outs).settlement = some .accepted
  | .record peer _ _ => (peerRecord peer.pack outs).settlement = some .accepted
  | .settled key .accepted =>
      ∃ peer message clock, call = .deliver peer message clock ∧ key = peer.pack ∧
        ProvenBy sv fingerprint s peer message (peerRecord key outs)
  | _ => True

/-- Each output of a call is allowed by what was seen before it. -/
def Gated (sv : HostServices Env) (fingerprint : Fingerprint) (s : SessionTransport Env)
    (outs : List TransportEvent) (call : TransportCall Env) : Prop :=
  ∀ before e after, ((sessionTransport sv).step s call).2 = before ++ e :: after →
    Allowed sv fingerprint s (outs ++ before) call e

end SessionTransport

/-- The event needs no one's leave. -/
def TransportEvent.Free : TransportEvent → Prop
  | .queued _ _ | .record _ _ _ | .settled _ .accepted => False
  | _ => True

theorem TransportEvent.Plain.free {e : TransportEvent} (h : e.Plain) : e.Free := by
  cases e with
  | queued lane message => exact h.elim
  | record peer streamId record => exact h.elim
  | settled key code => exact h.elim
  | _ => trivial

theorem TransportEvent.Reply.free {e : TransportEvent} (h : e.Reply) : e.Free := by
  cases e with
  | queued lane message => exact h.elim
  | record peer streamId record => exact h.elim
  | settled key code => exact h.elim
  | _ => trivial

namespace SessionTransport

variable {Env : Type} {sv : HostServices Env} {s : SessionTransport Env} {fingerprint : Fingerprint}
variable {outs : List TransportEvent} {call : TransportCall Env}

theorem allowed_of_free {e : TransportEvent} (h : e.Free) : Allowed sv fingerprint s outs call e := by
  unfold TransportEvent.Free at h
  unfold Allowed
  split
  · exact h.elim
  · exact h.elim
  · exact h.elim
  · trivial

theorem free_of_reply {events : List TransportEvent} (h : ∀ e ∈ events, e.Reply) : ∀ e ∈ events, e.Free :=
  fun e he => (h e he).free

theorem allowed_of_split {out before after : List TransportEvent} {e : TransportEvent}
    (h : ∀ e' ∈ out, e'.Free) (hsplit : out = before ++ e :: after) : Allowed sv fingerprint s outs call e := by
  apply allowed_of_free
  apply h
  rw [hsplit]
  simp

/-- An event of a list that is cut at one of its events: it is before, at or behind the cut. -/
theorem split_cases {xs ys before after : List TransportEvent} {x e : TransportEvent}
    (h : xs ++ x :: ys = before ++ e :: after) : e ∈ xs ∨ before = xs ∧ e = x ∨ e ∈ ys := by
  rcases List.append_eq_append_iff.mp h with ⟨rest, hbefore, hrest⟩ | ⟨rest, hxs, hrest⟩
  · cases rest with
    | nil =>
      rw [List.append_nil] at hbefore
      exact Or.inr (Or.inl ⟨hbefore, (List.cons.inj hrest).1.symm⟩)
    | cons y rest =>
      refine Or.inr (Or.inr ?_)
      rw [(List.cons.inj hrest).2]
      simp
  · cases rest with
    | nil =>
      rw [List.append_nil] at hxs
      exact Or.inr (Or.inl ⟨hxs.symm, (List.cons.inj hrest).1⟩)
    | cons y rest =>
      refine Or.inl ?_
      rw [hxs, (List.cons.inj hrest).1]
      simp

theorem free_startsAs {peer : NetAddr} {payload : Bytes} {clock : Nat → UInt64}
    {result : SessionTransport Env × List TransportEvent} (hstarts : StartsAs sv s peer payload clock result) :
    ∀ e ∈ result.2, e.Free := by
  cases hstarts with
  | restarted hrecord =>
    exact List.forall_mem_append.mpr
      ⟨List.forall_mem_singleton.mpr trivial, List.forall_mem_singleton.mpr trivial⟩
  | refused hrecord hbegins hreplies => exact free_of_reply hreplies
  | limited hrecord hbegins hreplies => exact List.forall_mem_cons.mpr ⟨trivial, free_of_reply hreplies⟩
  | begun hrecord hbegins hsession hfingerprint hkey htoken pendingAuth hreplies =>
    exact List.forall_mem_cons.mpr ⟨trivial, free_of_reply hreplies⟩

theorem singleton_cases {before after : List TransportEvent} {x e : TransportEvent}
    (h : [x] = before ++ e :: after) : before = [] ∧ e = x := by
  rcases split_cases ((List.nil_append [x]).trans h) with hno | heq | hno
  · exact absurd hno (by simp)
  · exact heq
  · exact absurd hno (by simp)

/-- An AuthResponse settles a handshake with a yes only if it proves the key. -/
theorem Gate.gated_answersAs (h : Gate fingerprint s outs) {peer : NetAddr} {message : Bytes}
    {clock : Nat → UInt64} {result : SessionTransport Env × List TransportEvent}
    (hanswers : AnswersAs sv s peer (payloadOf message) result) {before after : List TransportEvent}
    {e : TransportEvent} (hsplit : result.2 = before ++ e :: after) :
    Allowed sv fingerprint s (outs ++ before) (.deliver peer message clock) e := by
  cases hanswers with
  | dropped code =>
    refine allowed_of_split (List.forall_mem_append.mpr ?_) hsplit
    exact ⟨List.forall_mem_singleton.mpr trivial, List.forall_mem_singleton.mpr trivial⟩
  | ignored hreplies => exact allowed_of_split (free_of_reply hreplies) hsplit
  | @settled auth response hrecord hparse t hhostAuth hauthenticated hconnections hfingerprint told out htold hreplies =>
    rcases split_cases hsplit with htell | ⟨rfl, rfl⟩ | hreply
    · exact allowed_of_free (free_of_reply htold e htell)
    · cases hcode : (auth.respond sv s.env response).2.2.code with
      | accepted =>
        -- the record is of the AuthStart that was seen last, and nothing told to the peer changes that
        rcases HostAuth.respond_accepted hcode with ⟨hawaits, hverified, hentitled⟩
        have hshake := h.handshake peer.pack auth hrecord
        rcases hshake.start with ⟨start, hsome, hkey, htoken⟩
        rw [hshake.host, hkey] at hverified
        rw [hkey, htoken] at hentitled
        refine ⟨peer, message, clock, rfl, rfl, auth, response, start, auth.sessionId, hrecord, hawaits, hparse,
          hshake.connection, ?_, hverified, hentitled⟩
        rw [peerRecord_append, foldl_note_quiet (quiet_of_reply htold)]
        exact hsome
      | _ => trivial
    · exact allowed_of_free (free_of_reply hreplies e hreply)

/-- A peer that was let in was settled with a yes, and not forgotten since. -/
theorem Gate.settled (h : Gate fingerprint s outs) {key : UInt64} (hin : s.authenticated.find? key = some true) :
    (peerRecord key outs).settlement = some .accepted := by
  have hadmission := h.admission key
  rw [hin] at hadmission
  rcases Option.map_eq_some_iff.mp hadmission.symm with ⟨code, hsome, hcode⟩
  rw [hsome, of_decide_eq_true hcode]

theorem Gate.gated_deliver (h : Gate fingerprint s outs) (peer : NetAddr) (message : Bytes)
    (clock : Nat → UInt64) : Gated sv fingerprint s outs (.deliver peer message clock) := by
  intro before e after hsplit
  have hdelivers := s.deliver_deliversAs sv peer message clock
  change (s.deliver sv peer message clock).2 = before ++ e :: after at hsplit
  generalize s.deliver sv peer message clock = result at hdelivers hsplit
  cases hdelivers with
  | ignored => exact absurd hsplit (by simp)
  | client authInbox => exact absurd hsplit (by simp)
  | start hclient hstart hstarts => exact allowed_of_split (free_startsAs hstarts) hsplit
  | answer hanswers => exact h.gated_answersAs hanswers hsplit
  | queued hpasses lane inbox =>
    rcases singleton_cases hsplit with ⟨rfl, rfl⟩
    rw [List.append_nil]
    exact h.settled hpasses

theorem Gate.gated_sendRecordOn (h : Gate fingerprint s outs) (peer : NetAddr) (streamId : UInt64)
    (message : Bytes) : Gated sv fingerprint s outs (.sendRecordOn peer streamId message) := by
  intro before e after hsplit
  change s.sendRecordOn peer streamId message = before ++ e :: after at hsplit
  unfold sendRecordOn at hsplit
  split at hsplit
  · exact absurd hsplit (by simp)
  next hpasses =>
  split at hsplit
  · exact absurd hsplit (by simp)
  have hin : s.authenticated.find? peer.pack = some true := by
    cases hfound : s.authenticated.find? peer.pack with
    | none =>
      rw [hfound] at hpasses
      exact absurd rfl hpasses
    | some passes =>
      rw [hfound, Option.getD_some, Bool.not_eq_false] at hpasses
      rw [hpasses]
  cases hbuilt : buildRecord (kRecordPrefixSize + message.length) message with
  | none =>
    rw [hbuilt] at hsplit
    exact absurd hsplit (by simp)
  | some record =>
    rw [hbuilt] at hsplit
    rcases singleton_cases hsplit with ⟨rfl, rfl⟩
    rw [List.append_nil]
    exact h.settled hin

theorem Gate.gated (h : Gate fingerprint s outs) (call : TransportCall Env) : Gated sv fingerprint s outs call := by
  by_cases hpasses : call.Passes
  · cases call with
    | deliver peer message clock => exact h.gated_deliver peer message clock
    | sendRecordOn peer streamId message => exact h.gated_sendRecordOn peer streamId message
    | _ => exact hpasses.elim
  · intro before e after hsplit
    refine allowed_of_split ?_ hsplit
    intro e' he'
    exact (plain_step sv hpasses e' he').free

/-- In every run, a message is put in a lane and a record goes out only while the latest settlement
of the peer lets it in, and a settlement does so only for a key that is proven and let in. -/
theorem transport_gated (sv : HostServices Env) (env : Env) (fingerprint : Fingerprint)
    (calls : List (TransportCall Env)) :
    (sessionTransport sv).Along (Gated sv fingerprint) (init env fingerprint) calls :=
  fun pre call _ _ => (gate_run sv env fingerprint pre).gated call

end SessionTransport

end Deskhub
