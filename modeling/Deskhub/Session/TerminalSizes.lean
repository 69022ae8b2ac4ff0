import Deskhub.Session.TerminalLink

/-!
# The sizes of a terminal agree at rest

The size that the client wants and the size of the host's record meet whenever nothing is in
flight: a resize that is on its way is still to be applied, and one that came too early is
sent behind the answer to the open. What this rests on is that a record is told by its id.
-/

namespace Deskhub

namespace TerminalSessions

theorem find_resize (s : TerminalSessions) (termId : UInt32) (size : TermSize) (id : UInt32) :
    (s.resize termId size).1.find id =
      if id = termId then (s.find id).map fun r => { r with size := clampTermSize size }
      else s.find id := by
  unfold resize
  split
  · next hnone =>
    split
    · next h => rw [h, hnone, Option.map_none]
    · rfl
  · exact find_update termId id (f := fun r => { r with size := clampTermSize size }) (fun _ => rfl)
      s.records

/-- Detaching keeps the sizes. -/
theorem size_detach (s : TerminalSessions) (termId : UInt32) (nowUs : UInt64) (id : UInt32) :
    ((s.detach termId nowUs).1.find id).map TerminalRecord.size =
      (s.find id).map TerminalRecord.size := by
  unfold detach
  split
  · rfl
  · split
    · rfl
    · have hfind := find_update termId id
        (f := fun r => { r with state := .detached, detachedUs := nowUs }) (fun _ => rfl) s.records
      change ((update termId _ s.records).find? _).map _ = _
      rw [hfind]
      split
      · rw [Option.map_map]
        rfl
      · rfl

end TerminalSessions

namespace HostedTerminals

open TerminalSessions

/-- What the host has under an id: the size of the record, and whose the shell is. -/
def seatOf (s : HostedTerminals) (id : UInt32) : Option (TermSize × Option NetAddr) :=
  ((s.sessions.find id).map TerminalRecord.size).map fun size =>
    (size, (s.shell? id).map Shell.peer)

/-- Terminals end, and none changes. -/
def Fades (s s' : HostedTerminals) : Prop := ∀ id, s'.seatOf id = none ∨ s'.seatOf id = s.seatOf id

theorem Fades.refl (s : HostedTerminals) : Fades s s := fun _ => .inr rfl

theorem Fades.trans {s s' s'' : HostedTerminals} (h : Fades s s') (h' : Fades s' s'') :
    Fades s s'' := by
  intro id
  rcases h' id with hnone | hsame
  · exact .inl hnone
  · rw [hsame]
    exact h id

theorem closeShell_fades (s : HostedTerminals) (termId exitCode : UInt32) (tell : Bool) :
    Fades s (s.closeShell termId exitCode tell).1 := by
  rcases closeShell_cases s termId exitCode tell with ⟨-, hsame⟩ | ⟨shell, -, hclosed, -⟩
  · rw [hsame]
    exact .refl s
  · rw [hclosed]
    intro id
    unfold seatOf
    have hshell : ({ s with
        host := (s.host.closeShell termId exitCode tell).1
        sessions := (s.sessions.close termId).1 } : HostedTerminals).shell? id =
          if id = termId then none else s.shell? id := shell?_closeShell s termId exitCode tell id
    by_cases hid : id = termId
    · left
      rw [find_close, if_pos hid, Option.map_none, Option.map_none]
    · right
      rw [find_close, if_neg hid, hshell, if_neg hid]

theorem handleClose_fades (s : HostedTerminals) (from_ : NetAddr) (termId : UInt32) :
    Fades s (s.handleClose from_ termId).1 := by
  unfold handleClose
  dsimp only
  split
  · exact .refl s
  · exact closeShell_fades s _ 0 _

/-- A detached terminal keeps its size and its peer. -/
theorem detachAll_fades (nowUs : UInt64) (gone : List UInt32) (s : HostedTerminals) :
    Fades s (detachAll nowUs gone s).1 := by
  induction gone generalizing s with
  | nil => exact .refl s
  | cons termId rest ih =>
    refine .trans ?_ (ih _)
    intro id
    right
    have hsize := size_detach s.sessions termId nowUs id
    unfold seatOf
    change (((s.sessions.detach termId nowUs).1.find id).map TerminalRecord.size).map _ = _
    rw [hsize]
    rfl

theorem drainGone_fades (s : HostedTerminals) (peer : NetAddr) (nowUs : UInt64) :
    Fades s (s.drainGone peer nowUs).1 :=
  detachAll_fades nowUs _ s

/-- A resize reaches the terminal it names, if that is its sender's. -/
theorem seatOf_handleResize (s : HostedTerminals) (from_ : NetAddr) {termId : UInt32}
    (hid : termId ≠ 0) (size : TermSize) (id : UInt32) :
    (s.handleResize from_ termId size).1.seatOf id =
      if id = termId ∧ (s.shell? termId).map Shell.peer = some from_ then
        (s.seatOf id).map fun p => (clampTermSize size, p.2)
      else s.seatOf id := by
  have hasked : s.askedId from_ termId = termId := by rw [askedId, if_pos hid]
  unfold handleResize
  dsimp only
  rw [hasked]
  cases hshell : s.shell? termId with
  | none => simp
  | some shell =>
    dsimp only
    by_cases hpeer : shell.peer = from_
    · rw [if_neg (not_not.mpr hpeer)]
      -- the record and the shell both take the size, and the shell keeps its peer
      have hfind := find_resize s.sessions termId size id
      have hpeers : ((s.host.onShell termId fun shell =>
            (shell.resize size, [])).1.shells.find? id).map Shell.peer =
          (s.shell? id).map Shell.peer := by
        rw [shell?_onShell]
        unfold shell?
        split
        · rw [Option.map_map]
          rfl
        · rfl
      change (((s.sessions.resize termId size).1.find id).map TerminalRecord.size).map (fun size' =>
        (size', ((s.host.onShell termId fun shell =>
          (shell.resize size, [])).1.shells.find? id).map Shell.peer)) = _
      rw [hfind, hpeers]
      unfold seatOf
      by_cases hself : id = termId
      · rw [if_pos hself, if_pos ⟨hself, by rw [Option.map_some, hpeer]⟩, Option.map_map,
          Option.map_map, Option.map_map, Option.map_map]
        rfl
      · rw [if_neg hself, if_neg fun h => hself h.1]
    · rw [if_pos hpeer, if_neg]
      rintro ⟨-, h⟩
      rw [Option.map_some] at h
      exact hpeer (Option.some.inj h)

/-- A terminal that was given out has the size asked for, and is its asker's. -/
theorem seatOf_opening {s s' : HostedTerminals} {a : TerminalArrival} {request : TermOpen}
    {extra : List HostedTerminalsEvent} {ack : TermOpenAck} (h : Opening s a request s' extra ack)
    (hmatched : Matched s) (hfree : FreeId s a request) (haccepted : ack.reason = .accepted)
    {p : TermSize × Option NetAddr} (hp : s'.seatOf ack.termId = some p) :
    p = (clampTermSize request.size, some a.from_) := by
  cases h with
  | refused hreason => exact absurd haccepted hreason
  | failed => cases haccepted
  | made hnew hid hsize hpushed hway =>
    have hnext := hfree hnew
    have hfind : (s.sessions.open (fullRequest a request)).1.find s.sessions.nextId =
        some ‹TerminalRecord› := by
      rw [hpushed]
      have hnone := find_eq_none.mpr hnext
      unfold TerminalSessions.find at hnone ⊢
      rw [List.find?_append, hnone, Option.none_or, List.find?_cons_of_pos (by simpa using hid)]
    have hcontains : s.host.shells.contains s.sessions.nextId = false := by
      rw [Bool.eq_false_iff]
      intro hshell
      exact hnext (hmatched.recorded s.sessions.nextId hshell)
    unfold seatOf shell? at hp
    dsimp only at hp
    rw [hfind, shell?_openShell, if_pos ⟨rfl, hcontains⟩] at hp
    cases hp
    dsimp only
    rw [hsize]
    rfl
  | lost => cases haccepted
  | back hshell hmem hold hback hway =>
    unfold seatOf shell? at hp
    dsimp only at hp
    rw [hback, shell?_onShell, if_pos rfl] at hp
    unfold TerminalSessions.find at hp
    dsimp only at hp
    rw [find_update _ _ (f := resumed (fullRequest a request)) fun _ => rfl, if_pos rfl] at hp
    change s.host.shells.find? request.resumeId = some _ at hshell
    rw [hshell, Option.map_some, Option.map_map] at hp
    cases hfind : s.sessions.records.find? fun r => r.termId = request.resumeId with
    | none =>
      rw [hfind] at hp
      cases hp
    | some r =>
      rw [hfind] at hp
      cases hp
      rfl

end HostedTerminals

namespace TerminalLink

open HostedTerminals TerminalSessions

/-! ## What is in flight -/

def isOpen (m : Bytes) : Bool :=
  match readTermMessage m with
  | some (.open _) => true
  | _ => false

def isOpenAck (m : Bytes) : Bool :=
  match readTermMessage m with
  | some (.openAck _) => true
  | _ => false

def isResize (m : Bytes) : Bool :=
  match readTermMessage m with
  | some (.resize _ _) => true
  | _ => false

/-- The opens on their way, and the answers to opens. -/
def unanswered (s : TerminalLink) : Nat := s.up.countP isOpen + s.down.countP isOpenAck

/-- The size of a terminal once the messages have arrived that are on their way to it. -/
def applied (id : UInt32) (up : List Bytes) (size : TermSize) : TermSize :=
  up.foldl (fun size m =>
    match readTermMessage m with
    | some (.resize termId size') => if termId = id then clampTermSize size' else size
    | _ => size) size

/-- At most one open is unanswered. -/
def AsksOne (s : TerminalLink) (_ : List TerminalLinkEvent) (a : TerminalLinkStep) : Prop :=
  (s.step a).1.unanswered ≤ 1

/-- An open that makes a record finds the id for it unused. -/
def TakesFreeId (s : TerminalLink) (_ : List TerminalLinkEvent) : TerminalLinkStep → Prop
  | .toHost _ _ =>
      match s.up.head?.bind readTermMessage with
      | some (.open request) => FreeId s.host {} request
      | _ => True
  | _ => True

/-- The record is this client's. -/
def AttachedTo (s : TerminalLink) (r : TerminalRecord) : Prop := r.clientEndpoint = s.addr.toText

/-- At rest the host's record has the size that the client has. -/
def SizesAgree (s : TerminalLink) : Prop :=
  s.Quiet → s.client.state = .open → ∀ r ∈ s.host.sessions.records,
    r.termId = s.client.termId → r.state = .live → s.AttachedTo r → r.size = s.client.size

/-! ## What the client sends -/

theorem clampTermSize_clamp (size : TermSize) :
    clampTermSize (clampTermSize size) = clampTermSize size := by
  unfold clampTermSize
  congr 1
  · simp only
    have hmin : kMinTermCols = 1 := rfl
    have hmax : kMaxTermCols = 1000 := rfl
    omega
  · simp only
    have hmin : kMinTermRows = 1 := rfl
    have hmax : kMaxTermRows = 1000 := rfl
    omega

/-- An open is always short enough to be written. -/
theorem exists_buildTermOpen (m : TermOpen) : ∃ b, buildTermOpen kMaxRecordSize m = some b := by
  have hname := length_cutText_le kMaxClientNameBytes m.clientName
  have hlimit : kMaxClientNameBytes = 64 := rfl
  have hrecord : kMaxRecordSize = 16384 := rfl
  refine ⟨_, writeCommon_eq_some.mpr ⟨?_, rfl⟩⟩
  rw [putText_eq]
  simp only [List.length_append, List.length_cons, putTermSize, length_putU16, length_putU32]
  omega

/-- What a call leaves to be said about: the client, and what it put on the link. -/
inductive Called (s : TerminalClient) : TerminalClient → List Bytes → Prop
  /-- An open or a resume: the answer is awaited, and the size is the one that was sent. -/
  | asks {s' : TerminalClient} {m : Bytes} {request : TermOpen} (hwaits : s'.isWaiting = true)
      (hread : readTermMessage m = some (.open request)) (hsent : request.size = s'.sentSize)
      (hsize : s'.size = s'.sentSize) (hclamp : clampTermSize s'.size = s'.size) :
      Called s s' [m]
  /-- A resize of the terminal that is held. -/
  | resizes {m : Bytes} {size : TermSize} (hopen : s.state = .open)
      (hclamp : clampTermSize size = size)
      (hread : readTermMessage m = some (.resize s.termId size)) :
      Called s { s with size := size } [m]
  /-- Anything else: neither the terminal nor its size is another. -/
  | other {s' : TerminalClient} {sent : List Bytes} (hsent : s'.sentSize = s.sentSize)
      (hclamp : clampTermSize s.size = s.size → clampTermSize s'.size = s'.size)
      (hopen : s'.state = .open → s.state = .open ∧ s'.termId = s.termId ∧ s'.size = s.size)
      (hwaits : s'.isWaiting = true → s.isWaiting = true)
      (hmessages : ∀ m ∈ sent, isOpen m = false ∧ isResize m = false) :
      Called s s' sent

theorem Called.same (s : TerminalClient) : Called s s [] :=
  .other rfl (fun h => h) (fun h => ⟨h, rfl, rfl⟩) (fun h => h) nofun

theorem sendOpen_called (s : TerminalClient) {s' : TerminalClient} (hwaits : s'.isWaiting = true)
    (hclamp : clampTermSize s'.size = s'.size) :
    Called s s'.sendOpen.1 (sentUp s'.sendOpen.2) := by
  rcases exists_buildTermOpen
    { size := s'.size, resumeId := s'.termId, clientName := s'.clientName } with ⟨m, hm⟩
  unfold TerminalClient.sendOpen
  rw [sentUp_emit, hm]
  exact .asks hwaits (readTermMessage_open hm) hclamp rfl hclamp

theorem resume_called (s : TerminalClient) (termId : UInt32) (size : TermSize) :
    Called s (s.resume termId size).1 (sentUp (s.resume termId size).2) := by
  unfold TerminalClient.resume
  split
  · exact .same s
  · split
    · exact .same s
    · exact sendOpen_called s (by simp [TerminalClient.isWaiting]) (clampTermSize_clamp size)

theorem inputMessages_called (termId : UInt32) (bytes : Bytes) :
    ∀ m ∈ sentUp (TerminalClient.inputMessages termId bytes),
      isOpen m = false ∧ isResize m = false := by
  induction hlen : bytes.length using Nat.strong_induction_on generalizing bytes with
  | _ n ih =>
    rw [TerminalClient.inputMessages]
    by_cases hempty : bytes = []
    · rw [if_pos hempty]
      nofun
    · rw [if_neg hempty, sentUp_append, sentUp_emit]
      intro m hm
      rcases List.mem_append.mp hm with hfirst | hrest
      · have hread := readTermMessage_data (Option.mem_toList.mp hfirst)
        simp [isOpen, isResize, hread]
      · -- the rest is shorter
        have hpos := List.length_pos_iff.mpr hempty
        have hmax : kMaxTermDataBytes = 4096 := rfl
        refine ih _ ?_ _ rfl m hrest
        rw [List.length_drop]
        split <;> omega

theorem emit_close_called {termId : UInt32} {m : Bytes}
    (h : m ∈ (buildTermClose kMaxRecordSize termId).toList) : isOpen m = false ∧ isResize m = false := by
  have hread := readTermMessage_close (Option.mem_toList.mp h)
  simp [isOpen, isResize, hread]

theorem call_called (s : TerminalClient) (c : TerminalClientCall) :
    Called s (s.call c).1 (sentUp (s.call c).2) := by
  cases c with
  | «open» size name =>
    exact sendOpen_called s (by simp [TerminalClient.isWaiting]) (clampTermSize_clamp size)
  | reattach => exact resume_called s s.termId s.size
  | resume termId size => exact resume_called s termId size
  | requestList =>
    refine .other rfl (fun h => h) (fun h => ⟨h, rfl, rfl⟩) (fun h => h) ?_
    intro m hm
    change m ∈ sentUp s.requestList at hm
    unfold TerminalClient.requestList at hm
    split at hm
    · cases hm
    · rw [sentUp_emit] at hm
      have hread := readTermMessage_list (Option.mem_toList.mp hm)
      simp [isOpen, isResize, hread]
  | sendInput bytes =>
    refine .other rfl (fun h => h) (fun h => ⟨h, rfl, rfl⟩) (fun h => h) ?_
    intro m hm
    change m ∈ sentUp (s.sendInput bytes) at hm
    unfold TerminalClient.sendInput at hm
    split at hm
    · cases hm
    · exact inputMessages_called s.termId bytes m hm
  | resize size =>
    change Called s (s.resize size).1 (sentUp (s.resize size).2)
    unfold TerminalClient.resize
    dsimp only
    split
    · exact .same s
    · split
      · next hopen =>
        refine .other rfl (fun _ => clampTermSize_clamp size) ?_ (fun h => h) ?_
        · intro h
          exact absurd h hopen
        · intro m hm
          cases hm
      · next hopen =>
        rw [sentUp_emit]
        have hbuilt : ∃ m, buildTermResize kMaxRecordSize s.termId (clampTermSize size) = some m :=
          ⟨_, rfl⟩
        rcases hbuilt with ⟨m, hm⟩
        rw [hm]
        have hread := readTermMessage_resize hm
        rw [clampTermSize_clamp] at hread
        exact .resizes (not_not.mp hopen) (clampTermSize_clamp size) hread
  | closeSession termId =>
    change Called s (s.closeSession termId).1 (sentUp (s.closeSession termId).2)
    unfold TerminalClient.closeSession
    dsimp only
    split
    · exact .same s
    · split
      · refine .other rfl (fun h => h) (fun h => ⟨h, rfl, rfl⟩) (fun h => h) ?_
        intro m hm
        rw [sentUp_emit] at hm
        exact emit_close_called hm
      · refine .other rfl (fun h => h) ?_ (by simp [TerminalClient.isWaiting]) ?_
        · intro h
          cases h
        · intro m hm
          rw [sentUp_emit] at hm
          exact emit_close_called hm
  | close =>
    refine .other rfl (fun h => h) ?_ (by simp [TerminalClient.call, TerminalClient.close,
      TerminalClient.isWaiting]) ?_
    · intro h
      cases h
    · intro m hm
      change m ∈ sentUp (if s.state = .open then _ else _) at hm
      split at hm
      · rw [sentUp_emit] at hm
        exact emit_close_called hm
      · cases hm

/-! ## The sizes follow each other -/

/-- An answer is awaited with the size that was sent; behind the open no resize is on its way,
and once the host has answered, what it gave out has that size. A terminal that is held gets
its size from the resizes that are on their way. -/
structure Sized (s : TerminalLink) : Prop where
  matched : Matched s.host
  one : s.unanswered ≤ 1
  clamped : clampTermSize s.client.size = s.client.size
  sentClamped : clampTermSize s.client.sentSize = s.client.sentSize
  stopped : s.host.running = false → s.client.state ≠ .open ∧ s.down = []
  named : ∀ m ∈ s.up, ∀ id size, readTermMessage m = some (.resize id size) → id ≠ 0
  held : s.client.state = .open → s.client.termId ≠ 0 ∧ s.unanswered = 0 ∧
    ∀ p, s.host.seatOf s.client.termId = some p →
      p.2 = some s.addr ∧ applied s.client.termId s.up p.1 = s.client.size
  asked : s.client.isWaiting = true → ∀ m ∈ s.up, ∀ request,
    readTermMessage m = some (.open request) → request.size = s.client.sentSize
  behind : s.client.isWaiting = true →
    s.up.Pairwise fun m m' => isOpen m = true → isResize m' = false
  answered : s.client.isWaiting = true → ∀ m ∈ s.down, ∀ ack,
    readTermMessage m = some (.openAck ack) → ack.reason = .accepted →
      (∀ m' ∈ s.up, isResize m' = false) ∧
        ∀ p, s.host.seatOf ack.termId = some p → p = (s.client.sentSize, some s.addr)

theorem not_waiting_of_open {c : TerminalClient} (h : c.state = .open) : c.isWaiting = false := by
  simp [TerminalClient.isWaiting, h]

theorem applied_append (id : UInt32) (up sent : List Bytes) (size : TermSize) :
    applied id (up ++ sent) size = applied id sent (applied id up size) :=
  List.foldl_append

theorem applied_cons (id : UInt32) (m : Bytes) (up : List Bytes) (size : TermSize) :
    applied id (m :: up) size = applied id up (applied id [m] size) := rfl

theorem applied_other {id : UInt32} {m : Bytes} {size : TermSize} (h : isResize m = false) :
    applied id [m] size = size := by
  unfold isResize at h
  unfold applied
  rw [List.foldl_cons, List.foldl_nil]
  split
  · next hread =>
    rw [hread] at h
    cases h
  · rfl

theorem applied_resize {id termId : UInt32} {m : Bytes} {size size' : TermSize}
    (h : readTermMessage m = some (.resize termId size')) :
    applied id [m] size = if termId = id then clampTermSize size' else size := by
  unfold applied
  rw [List.foldl_cons, List.foldl_nil, h]

/-- Without a resize nothing is applied. -/
theorem applied_eq {id : UInt32} {up : List Bytes} {size : TermSize}
    (h : ∀ m ∈ up, isResize m = false) : applied id up size = size := by
  induction up with
  | nil => rfl
  | cons m rest ih =>
    rw [applied_cons, applied_other (h m List.mem_cons_self)]
    exact ih fun m' hm' => h m' (List.mem_cons_of_mem m hm')

theorem not_open_of_unanswered {s : TerminalLink} (h : s.up.countP isOpen = 0) {m : Bytes}
    (hm : m ∈ s.up) : isOpen m = false := by
  simpa using List.countP_eq_zero.mp h m hm

theorem not_ack_of_unanswered {s : TerminalLink} (h : s.down.countP isOpenAck = 0) {m : Bytes}
    (hm : m ∈ s.down) {ack : TermOpenAck} : readTermMessage m ≠ some (.openAck ack) := by
  intro hread
  have hnot := List.countP_eq_zero.mp h m hm
  simp [isOpenAck, hread] at hnot

theorem Sized.call {s : TerminalLink} {out : List TerminalLinkEvent} (h : Sized s)
    {call : TerminalClientCall} (hone : AsksOne s out (.client call)) :
    Sized (s.step (.client call)).1 := by
  have hcalled := call_called s.client call
  unfold AsksOne at hone
  unfold step afterClient at hone ⊢
  dsimp only at hone ⊢
  generalize (s.client.call call).1 = after at hcalled hone ⊢
  generalize sentUp (s.client.call call).2 = sent at hcalled hone ⊢
  cases hcalled with
  | @asks _ m request hwaits hread hsent hsize hclamp =>
    have hisOpen : isOpen m = true := by simp [isOpen, hread]
    have hisResize : isResize m = false := by simp [isResize, hread]
    -- the only open on its way is the new one
    have hnone : s.up.countP isOpen = 0 ∧ s.down.countP isOpenAck = 0 := by
      unfold unanswered at hone
      dsimp only at hone
      rw [List.countP_append, List.countP_singleton, if_pos hisOpen] at hone
      omega
    refine ⟨h.matched, hone, hclamp, hsize ▸ hclamp, ?_, ?_, ?_, ?_, ?_, ?_⟩
    · intro hstopped
      refine ⟨?_, (h.stopped hstopped).2⟩
      intro hopen
      rw [not_waiting_of_open hopen] at hwaits
      cases hwaits
    · intro m' hm' id size hread'
      rcases List.mem_append.mp hm' with hold | hnew
      · exact h.named m' hold id size hread'
      · rw [List.mem_singleton.mp hnew, hread] at hread'
        cases hread'
    · intro hopen
      rw [not_waiting_of_open hopen] at hwaits
      cases hwaits
    · intro _ m' hm' request' hread'
      rcases List.mem_append.mp hm' with hold | hnew
      · have hnot := not_open_of_unanswered hnone.1 hold
        simp [isOpen, hread'] at hnot
      · rw [List.mem_singleton.mp hnew, hread] at hread'
        cases hread'
        exact hsent
    · intro _
      refine List.pairwise_append.mpr ⟨?_, List.pairwise_singleton _ _, ?_⟩
      · refine List.pairwise_of_forall_mem_list ?_
        intro m₁ hm₁ m₂ _ hopen
        rw [not_open_of_unanswered hnone.1 hm₁] at hopen
        cases hopen
      · intro m₁ _ m₂ hm₂ _
        rw [List.mem_singleton.mp hm₂]
        exact hisResize
    · intro _ m' hm' ack hread'
      exact absurd hread' (not_ack_of_unanswered hnone.2 hm')
  | @resizes m size hopen hclamp hread =>
    have hnot : ({ s.client with size := size } : TerminalClient).isWaiting ≠ true := by
      simp [TerminalClient.isWaiting, hopen]
    have hisOpen : isOpen m = false := by simp [isOpen, hread]
    rcases h.held hopen with ⟨hid, hzero, hheld⟩
    refine ⟨h.matched, hone, hclamp, h.sentClamped, h.stopped, ?_, ?_, ?_, ?_, ?_⟩
    · intro m' hm' id size' hread'
      rcases List.mem_append.mp hm' with hold | hnew
      · exact h.named m' hold id size' hread'
      · rw [List.mem_singleton.mp hnew, hread] at hread'
        cases hread'
        exact hid
    · intro _
      refine ⟨hid, ?_, ?_⟩
      · unfold unanswered at hzero ⊢
        dsimp only
        rw [List.countP_append, List.countP_singleton, hisOpen, if_neg (by decide)]
        exact hzero
      · intro p hp
        refine ⟨(hheld p hp).1, ?_⟩
        change applied s.client.termId (s.up ++ [m]) p.1 = size
        rw [applied_append, applied_resize hread, if_pos rfl, hclamp]
    · exact fun hwaits => absurd hwaits hnot
    · exact fun hwaits => absurd hwaits hnot
    · exact fun hwaits => absurd hwaits hnot
  | other hsent hclamp hopen hwaits hmessages =>
    have hzero : sent.countP isOpen = 0 := by
      refine List.countP_eq_zero.mpr ?_
      intro m hm
      simp [(hmessages m hm).1]
    refine ⟨h.matched, hone, hclamp h.clamped, ?_, ?_, ?_, ?_, ?_, ?_, ?_⟩
    · rw [hsent]
      exact h.sentClamped
    · intro hstopped
      rcases h.stopped hstopped with ⟨hnot, hdown⟩
      exact ⟨fun hafter => hnot (hopen hafter).1, hdown⟩
    · intro m hm id size hread
      rcases List.mem_append.mp hm with hold | hnew
      · exact h.named m hold id size hread
      · have hnot := (hmessages m hnew).2
        simp [isResize, hread] at hnot
    · intro hafter
      rcases hopen hafter with ⟨hbefore, hid, hsize⟩
      rcases h.held hbefore with ⟨hne, hunanswered, hheld⟩
      dsimp only
      rw [hid, hsize]
      refine ⟨hne, ?_, ?_⟩
      · unfold unanswered at hunanswered ⊢
        dsimp only
        rw [List.countP_append, hzero]
        exact hunanswered
      · intro p hp
        refine ⟨(hheld p hp).1, ?_⟩
        rw [applied_append, applied_eq fun m hm => (hmessages m hm).2]
        exact (hheld p hp).2
    · intro hafter m hm request hread
      dsimp only
      rw [hsent]
      rcases List.mem_append.mp hm with hold | hnew
      · exact h.asked (hwaits hafter) m hold request hread
      · have hnot := (hmessages m hnew).1
        simp [isOpen, hread] at hnot
    · intro hafter
      refine List.pairwise_append.mpr ⟨h.behind (hwaits hafter), ?_, ?_⟩
      · refine List.pairwise_of_forall_mem_list ?_
        intro m₁ _ m₂ hm₂ _
        exact (hmessages m₂ hm₂).2
      · intro m₁ _ m₂ hm₂ _
        exact (hmessages m₂ hm₂).2
    · intro hafter m hm ack hread haccepted
      rcases h.answered (hwaits hafter) m hm ack hread haccepted with ⟨hno, hseat⟩
      dsimp only
      rw [hsent]
      refine ⟨?_, hseat⟩
      intro m' hm'
      rcases List.mem_append.mp hm' with hold | hnew
      · exact hno m' hold
      · exact (hmessages m' hnew).2

/-! ## Messages for the host -/

theorem sent_notMem_opening {h h' : HostedTerminals} {a : TerminalArrival} {request : TermOpen}
    {extra : List HostedTerminalsEvent} {ack : TermOpenAck}
    (hopening : Opening h a request h' extra ack) (peer : NetAddr) (m : Bytes) :
    .sent peer m ∉ extra := by
  cases hopening with
  | refused => nofun
  | failed => nofun
  | made hnew hid hsize hpushed hway => exact hway.quiet peer m
  | lost => nofun
  | back hshell hmem hold hback hway => exact hway.quiet peer m

/-- What a message that is neither an open nor a resize does to the terminals: some end. -/
theorem handleMessage_fades {h : HostedTerminals} {a : TerminalArrival}
    (hopen : isOpen a.message = false) (hresize : isResize a.message = false) :
    Fades h (h.handleMessage a).1 := by
  unfold handleMessage
  split
  · exact .refl h
  · split
    · exact .refl h
    · exact handleClose_fades h _ _
    · next hread =>
      rw [isOpen, hread] at hopen
      cases hopen
    · rw [handleData_state]
      exact .refl h
    · next hread =>
      rw [isResize, hread] at hresize
      cases hresize
    · exact .refl h

/-- No message but an open is answered as one. -/
theorem sentDown_not_ack {h : HostedTerminals} {a : TerminalArrival}
    (hopen : isOpen a.message = false) {m : Bytes} (hm : m ∈ sentDown a.from_ (h.handleMessage a).2)
    {ack : TermOpenAck} : readTermMessage m ≠ some (.openAck ack) := by
  intro hread
  rcases handleMessage_answers (mem_sentDown.mp hm) with ⟨request, _, hrequest, -⟩ | ⟨sessions, rfl⟩
  · rw [isOpen, hrequest] at hopen
    cases hopen
  · rcases readTermMessage_listAnswer sessions with ⟨list, hlist⟩ | hnone
    · rw [hlist] at hread
      cases hread
    · rw [hnone] at hread
      cases hread

theorem countP_sentDown {h : HostedTerminals} {a : TerminalArrival}
    (hopen : isOpen a.message = false) :
    (sentDown a.from_ (h.handleMessage a).2).countP isOpenAck = 0 := by
  refine List.countP_eq_zero.mpr ?_
  intro m hm hack
  unfold isOpenAck at hack
  split at hack
  · next ack hread => exact sentDown_not_ack hopen hm hread
  · cases hack

/-- A message arrives at the host: what is kept when it is not an open, given what becomes of
the terminal that is held and of those that were given out. -/
theorem Sized.arrived {s : TerminalLink} (h : Sized s) {m : Bytes} {rest : List Bytes}
    (hup : s.up = m :: rest) {a : TerminalArrival} (hfrom : a.from_ = s.addr)
    (hmessage : a.message = m) (hopen : isOpen m = false)
    (hheld : s.client.state = .open → ∀ p,
      (s.host.handleMessage a).1.seatOf s.client.termId = some p →
        p.2 = some s.addr ∧ applied s.client.termId rest p.1 = s.client.size)
    (hgiven : isResize m = false → Fades s.host (s.host.handleMessage a).1) :
    Sized (({ s with up := rest } : TerminalLink).afterHost (s.host.handleMessage a)).1 := by
  have hrest : ∀ m' ∈ rest, m' ∈ s.up := by
    intro m' hm'
    rw [hup]
    exact List.mem_cons_of_mem m hm'
  have hopen' : isOpen a.message = false := by rw [hmessage, hopen]
  have hcount : (({ s with up := rest } : TerminalLink).afterHost
      (s.host.handleMessage a)).1.unanswered = s.unanswered := by
    have hnone := countP_sentDown (h := s.host) hopen'
    rw [hfrom] at hnone
    unfold unanswered afterHost
    dsimp only
    rw [List.countP_append, hnone, hup, List.countP_cons_of_neg (by simp [hopen])]
    rfl
  have hmatched : Matched (s.host.handleMessage a).1 := by
    refine h.matched.message ?_
    intro request hread
    rw [isOpen, hread] at hopen'
    cases hopen'
  refine ⟨hmatched, hcount.trans_le h.one, h.clamped, h.sentClamped, ?_, ?_, ?_, ?_, ?_, ?_⟩
  · intro hstopped
    have hbefore : s.host.running = false := (running_handleMessage s.host a).symm.trans hstopped
    have hnothing : s.host.handleMessage a = (s.host, []) := by
      unfold handleMessage
      rw [if_pos (by simp [hbefore])]
    rw [hnothing]
    refine ⟨(h.stopped hbefore).1, ?_⟩
    change s.down ++ [] = []
    rw [(h.stopped hbefore).2, List.append_nil]
  · exact fun m' hm' => h.named m' (hrest m' hm')
  · intro hstate
    rcases h.held hstate with ⟨hid, hzero, -⟩
    exact ⟨hid, hcount.trans hzero, hheld hstate⟩
  · exact fun hwaits m' hm' => h.asked hwaits m' (hrest m' hm')
  · intro hwaits
    have hpairs := h.behind hwaits
    rw [hup] at hpairs
    exact (List.pairwise_cons.mp hpairs).2
  · intro hwaits m' hm' ack hread haccepted
    rcases List.mem_append.mp hm' with hold | hnew
    · rcases h.answered hwaits m' hold ack hread haccepted with ⟨hno, hseat⟩
      refine ⟨fun m₂ hm₂ => hno m₂ (hrest m₂ hm₂), ?_⟩
      intro p hp
      -- a resize is not on its way any more
      have hnot : isResize m = false := hno m (by rw [hup]; exact List.mem_cons_self)
      rcases hgiven hnot ack.termId with hgone | hsame
      · change (s.host.handleMessage a).1.seatOf ack.termId = some p at hp
        rw [hgone] at hp
        cases hp
      · exact hseat p (hsame ▸ hp)
    · rw [← hfrom] at hnew
      exact absurd hread (sentDown_not_ack hopen' hnew)

theorem Sized.opening {s : TerminalLink} (h : Sized s) {m : Bytes} {rest : List Bytes}
    (hup : s.up = m :: rest) {a : TerminalArrival} (hfrom : a.from_ = s.addr) {request : TermOpen}
    (hread : readTermMessage m = some (.open request)) (hfree : FreeId s.host a request)
    (hrunning : s.host.running = true)
    (hone : (({ s with up := rest } : TerminalLink).afterHost
      (s.host.handleOpen a request)).1.unanswered ≤ 1)
    (hstill : (s.host.handleOpen a request).1.running = s.host.running) :
    Sized (({ s with up := rest } : TerminalLink).afterHost (s.host.handleOpen a request)).1 := by
  rcases handleOpen_cases s.host a request with ⟨extra, ack, hopening, hout⟩
  have hisOpen : isOpen m = true := by simp [isOpen, hread]
  have hmem : m ∈ s.up := by
    rw [hup]
    exact List.mem_cons_self
  have hrest : ∀ m' ∈ rest, m' ∈ s.up := by
    intro m' hm'
    rw [hup]
    exact List.mem_cons_of_mem m hm'
  -- it is the one open that is unanswered
  have hnone : s.down.countP isOpenAck = 0 := by
    have hle := h.one
    unfold unanswered at hle
    rw [hup, List.countP_cons_of_pos hisOpen] at hle
    omega
  have hnotOpen : s.client.state ≠ .open := by
    intro hstate
    have hzero := (h.held hstate).2.1
    unfold unanswered at hzero
    rw [hup, List.countP_cons_of_pos hisOpen] at hzero
    omega
  refine ⟨hopening.matched hfree h.matched, hone, h.clamped, h.sentClamped, ?_, ?_, ?_, ?_, ?_, ?_⟩
  · intro hstopped
    change (s.host.handleOpen a request).1.running = false at hstopped
    rw [hstill, hrunning] at hstopped
    cases hstopped
  · exact fun m' hm' => h.named m' (hrest m' hm')
  · exact fun hstate => absurd hstate hnotOpen
  · exact fun hwaits m' hm' => h.asked hwaits m' (hrest m' hm')
  · intro hwaits
    have hpairs := h.behind hwaits
    rw [hup] at hpairs
    exact (List.pairwise_cons.mp hpairs).2
  · intro hwaits m' hm' ack' hread' haccepted
    rcases List.mem_append.mp hm' with hold | hnew
    · exact absurd hread' (not_ack_of_unanswered hnone hold)
    · -- the answer to this open
      have hack : ack' = ack := by
        have hsent := mem_sentDown.mp hnew
        rw [hout] at hsent
        rcases List.mem_append.mp hsent with hextra | hanswer
        · exact absurd hextra (sent_notMem_opening hopening _ _)
        · have hbytes : m' = (buildTermOpenAck kMaxDatagram ack).getD [] := by
            simp at hanswer
            exact hanswer.2
          rw [hbytes, readTermMessage_answer] at hread'
          cases hread'
          rfl
      have hpairs := h.behind hwaits
      rw [hup] at hpairs
      refine ⟨fun m₂ hm₂ => (List.pairwise_cons.mp hpairs).1 m₂ hm₂ hisOpen, ?_⟩
      intro p hp
      rw [hack] at haccepted hp
      rw [seatOf_opening hopening h.matched hfree haccepted hp, hfrom,
        h.asked hwaits m hmem request hread]
      rw [h.sentClamped]
      rfl

/-- A host that has stopped hears nothing. -/
theorem Sized.unheard {s : TerminalLink} (h : Sized s) {m : Bytes} {rest : List Bytes}
    (hup : s.up = m :: rest) (hstopped : s.host.running = false) :
    Sized (({ s with up := rest } : TerminalLink).afterHost (s.host, [])).1 := by
  rcases h.stopped hstopped with ⟨hnotOpen, hdown⟩
  have hrest : ∀ m' ∈ rest, m' ∈ s.up := by
    intro m' hm'
    rw [hup]
    exact List.mem_cons_of_mem m hm'
  have hsame : (({ s with up := rest } : TerminalLink).afterHost (s.host, [])).1 =
      { s with up := rest } := by
    change ({ s with up := rest, down := s.down ++ [] } : TerminalLink) = _
    rw [List.append_nil]
  rw [hsame]
  refine ⟨h.matched, ?_, h.clamped, h.sentClamped, fun _ => ⟨hnotOpen, hdown⟩, ?_, ?_, ?_, ?_, ?_⟩
  · refine le_trans ?_ h.one
    unfold unanswered
    rw [hup]
    exact Nat.add_le_add_right (List.Sublist.countP_le (List.sublist_cons_self m rest)) _
  · exact fun m' hm' => h.named m' (hrest m' hm')
  · exact fun hstate => absurd hstate hnotOpen
  · exact fun hwaits m' hm' => h.asked hwaits m' (hrest m' hm')
  · intro hwaits
    have hpairs := h.behind hwaits
    rw [hup] at hpairs
    exact (List.pairwise_cons.mp hpairs).2
  · intro _ m' hm'
    change m' ∈ s.down at hm'
    rw [hdown] at hm'
    cases hm'

theorem Sized.toHost {s : TerminalLink} {out : List TerminalLinkEvent} (h : Sized s)
    {started : Bool} {fingerprint : Fingerprint}
    (hone : AsksOne s out (.toHost started fingerprint))
    (hfree : TakesFreeId s out (.toHost started fingerprint)) :
    Sized (s.step (.toHost started fingerprint)).1 := by
  unfold AsksOne at hone
  unfold TakesFreeId at hfree
  cases hup : s.up with
  | nil =>
    have hstep : s.step (.toHost started fingerprint) = (s, []) := by simp [step, hup]
    rw [hstep]
    exact h
  | cons m rest =>
    generalize harrival :
      ({ from_ := s.addr, message := m, fingerprint, started } : TerminalArrival) = a
    have hfrom : a.from_ = s.addr := by rw [← harrival]
    have hmessage : a.message = m := by rw [← harrival]
    have hstep : s.step (.toHost started fingerprint) =
        ({ s with up := rest } : TerminalLink).afterHost (s.host.handleMessage a) := by
      rw [← harrival]
      simp [step, hup]
    rw [hstep] at hone ⊢
    cases hrunning : s.host.running with
    | false =>
      have hnothing : s.host.handleMessage a = (s.host, []) := by
        unfold handleMessage
        rw [if_pos (by simp [hrunning])]
      rw [hnothing]
      exact h.unheard hup hrunning
    | true =>
      cases hopen : isOpen m with
      | true =>
        have hrequest : ∃ request, readTermMessage m = some (.open request) := by
          unfold isOpen at hopen
          split at hopen
          · next request hread => exact ⟨request, hread⟩
          · cases hopen
        rcases hrequest with ⟨request, hread⟩
        rw [hup] at hfree
        simp only [List.head?_cons, Option.bind_some, hread] at hfree
        have heq : s.host.handleMessage a = s.host.handleOpen a request := by
          unfold handleMessage
          rw [if_neg (by simp [hrunning]), hmessage, hread]
        have hstill := running_handleMessage s.host a
        rw [heq] at hone hstill ⊢
        exact h.opening hup hfrom hread hfree hrunning hone hstill
      | false =>
        refine h.arrived hup hfrom hmessage hopen ?_ ?_
        · intro hstate p hp
          rcases h.held hstate with ⟨-, -, hheld⟩
          cases hresize : isResize m with
          | true =>
            -- the size is applied now that was to be applied first
            have hsize : ∃ id size, readTermMessage m = some (.resize id size) := by
              unfold isResize at hresize
              split at hresize
              · next id size hread => exact ⟨id, size, hread⟩
              · cases hresize
            rcases hsize with ⟨id, size, hread⟩
            have hid := h.named m (by rw [hup]; exact List.mem_cons_self) id size hread
            have heq : s.host.handleMessage a = s.host.handleResize a.from_ id size := by
              unfold handleMessage
              rw [if_neg (by simp [hrunning]), hmessage, hread]
            rw [heq, seatOf_handleResize s.host a.from_ hid] at hp
            rw [hup] at hheld
            cases hseat : s.host.seatOf s.client.termId with
            | none =>
              rw [hseat, Option.map_none, ite_self] at hp
              cases hp
            | some before =>
              rcases hheld before hseat with ⟨hpeer, happlied⟩
              have hshell : (s.host.shell? s.client.termId).map Shell.peer = some s.addr := by
                unfold seatOf at hseat
                rw [Option.map_eq_some_iff] at hseat
                rcases hseat with ⟨size', -, rfl⟩
                exact hpeer
              rw [applied_cons, applied_resize hread] at happlied
              by_cases hself : s.client.termId = id
              · rw [if_pos ⟨hself, by rw [← hself, hfrom, hshell]⟩, hseat] at hp
                cases hp
                rw [if_pos hself.symm] at happlied
                exact ⟨hpeer, happlied⟩
              · rw [if_neg (fun hboth => hself hboth.1), hseat] at hp
                cases hp
                rw [if_neg (fun heq' => hself heq'.symm)] at happlied
                exact ⟨hpeer, happlied⟩
          | false =>
            have hfades := handleMessage_fades (h := s.host) (a := a) (by rw [hmessage, hopen])
              (by rw [hmessage, hresize])
            rcases hfades s.client.termId with hgone | hsame
            · rw [hgone] at hp
              cases hp
            · rw [hsame] at hp
              rcases hheld p hp with ⟨hpeer, happlied⟩
              rw [hup, applied_cons, applied_other hresize] at happlied
              exact ⟨hpeer, happlied⟩
        · intro hresize
          exact handleMessage_fades (by rw [hmessage, hopen]) (by rw [hmessage, hresize])

/-! ## Messages for the client, and the loss of the link -/

theorem handleOpenAck_sizes (c : TerminalClient) (ack : TermOpenAck) :
    (c.handleOpenAck ack).1.size = c.size ∧ (c.handleOpenAck ack).1.sentSize = c.sentSize := by
  unfold TerminalClient.handleOpenAck
  dsimp only
  split
  · exact ⟨rfl, rfl⟩
  · split
    · split
      · exact ⟨rfl, rfl⟩
      · exact ⟨rfl, rfl⟩
    · exact ⟨rfl, rfl⟩

theorem sentUp_eq_nil {out : List TerminalClientEvent} (h : ∀ m, .sent m ∉ out) :
    sentUp out = [] := by
  refine List.filterMap_eq_nil_iff.mpr ?_
  intro e he
  cases e with
  | sent m => exact absurd he (h m)
  | output bytes => rfl
  | opened ack => rfl
  | refused reason => rfl
  | sessions list => rfl
  | exit exitCode => rfl

/-- The client is neither in a terminal nor waiting for one. -/
theorem Sized.settled {s : TerminalLink} (h : Sized s) {client : TerminalClient}
    {up down : List Bytes} (hsize : client.size = s.client.size)
    (hsent : client.sentSize = s.client.sentSize) (hopen : client.state ≠ .open)
    (hwaits : client.isWaiting = false) (hup : up ⊆ s.up) (hdown : s.down = [] → down = [])
    (hone : ({ s with client := client, up := up, down := down } : TerminalLink).unanswered ≤ 1) :
    Sized { s with client := client, up := up, down := down } := by
  refine ⟨h.matched, hone, ?_, ?_, ?_, ?_, ?_, ?_, ?_, ?_⟩
  · dsimp only
    rw [hsize]
    exact h.clamped
  · dsimp only
    rw [hsent]
    exact h.sentClamped
  · intro hstopped
    exact ⟨hopen, hdown (h.stopped hstopped).2⟩
  · exact fun m hm => h.named m (hup hm)
  · exact fun hstate => absurd hstate hopen
  · intro hwaits'
    rw [hwaits] at hwaits'
    cases hwaits'
  · intro hwaits'
    rw [hwaits] at hwaits'
    cases hwaits'
  · intro hwaits'
    rw [hwaits] at hwaits'
    cases hwaits'

/-- The answer that was awaited: the terminal has the size that was asked for, and the one
that is wanted by now is on its way. -/
theorem Sized.given {s : TerminalLink} (h : Sized s) {m : Bytes} {rest : List Bytes}
    (hdown : s.down = m :: rest) {ack : TermOpenAck}
    (hread : readTermMessage m = some (.openAck ack)) (hwaits : s.client.isWaiting = true)
    (haccepted : ack.reason = .accepted) (hid : ack.termId ≠ 0)
    (htaken : s.client.handleOpenAck ack = ({ s.client with termId := ack.termId, state := .open },
      (if s.client.size ≠ s.client.sentSize then
        TerminalClient.emit (buildTermResize kMaxRecordSize ack.termId s.client.size)
      else []) ++ [.opened ack])) :
    Sized (({ s with down := rest } : TerminalLink).afterClient (s.client.handleOpenAck ack)).1 := by
  have hack : isOpenAck m = true := by simp [isOpenAck, hread]
  have hnone : s.up.countP isOpen = 0 ∧ rest.countP isOpenAck = 0 := by
    have hle := h.one
    unfold unanswered at hle
    rw [hdown, List.countP_cons_of_pos hack] at hle
    omega
  rcases h.answered hwaits m (by rw [hdown]; exact List.mem_cons_self) ack hread haccepted with
    ⟨hno, hseat⟩
  -- the size that goes up behind the answer, if any
  generalize hsent : sentUp (s.client.handleOpenAck ack).2 = sent
  have hresizes : (s.client.size = s.client.sentSize ∧ sent = []) ∨
      ∃ m', sent = [m'] ∧ readTermMessage m' = some (.resize ack.termId s.client.size) := by
    rw [← hsent, htaken, sentUp_append]
    by_cases hsame : s.client.size = s.client.sentSize
    · left
      rw [if_neg (not_not.mpr hsame)]
      exact ⟨hsame, rfl⟩
    · right
      have hbuilt : ∃ m', buildTermResize kMaxRecordSize ack.termId s.client.size = some m' :=
        ⟨_, rfl⟩
      rcases hbuilt with ⟨m', hm'⟩
      rw [if_pos hsame, sentUp_emit, hm']
      have hread' := readTermMessage_resize hm'
      rw [h.clamped] at hread'
      exact ⟨m', rfl, hread'⟩
  have hopens : sent.countP isOpen = 0 := by
    rcases hresizes with ⟨-, rfl⟩ | ⟨m', rfl, hread'⟩
    · rfl
    · rw [List.countP_singleton, isOpen, hread']
      rfl
  have hafter : (({ s with down := rest } : TerminalLink).afterClient
      (s.client.handleOpenAck ack)).1 =
        { s with
          client := { s.client with termId := ack.termId, state := .open }
          up := s.up ++ sent
          down := rest } := by
    unfold afterClient
    rw [hsent, htaken]
  have hzero : ({ s with
      client := { s.client with termId := ack.termId, state := .open }
      up := s.up ++ sent
      down := rest } : TerminalLink).unanswered = 0 := by
    unfold unanswered
    dsimp only
    rw [List.countP_append, hopens, hnone.1, hnone.2]
  have hnot : ({ s.client with termId := ack.termId, state := .open } :
      TerminalClient).isWaiting ≠ true := by simp [TerminalClient.isWaiting]
  rw [hafter]
  refine ⟨h.matched, hzero.trans_le (Nat.zero_le 1), h.clamped, h.sentClamped, ?_, ?_, ?_, ?_, ?_, ?_⟩
  · intro hstopped
    have hempty := (h.stopped hstopped).2
    rw [hdown] at hempty
    cases hempty
  · intro m' hm' id size hread'
    rcases List.mem_append.mp hm' with hold | hnew
    · exact h.named m' hold id size hread'
    · rcases hresizes with ⟨-, rfl⟩ | ⟨m₂, rfl, hread₂⟩
      · cases hnew
      · rw [List.mem_singleton.mp hnew, hread₂] at hread'
        cases hread'
        exact hid
  · intro _
    refine ⟨hid, hzero, ?_⟩
    intro p hp
    rw [hseat p hp]
    refine ⟨rfl, ?_⟩
    change applied ack.termId (s.up ++ sent) s.client.sentSize = s.client.size
    rw [applied_append, applied_eq hno]
    rcases hresizes with ⟨hsame, rfl⟩ | ⟨m', rfl, hread'⟩
    · exact hsame.symm
    · rw [applied_resize hread', if_pos rfl, h.clamped]
  · exact fun hwaits' => absurd hwaits' hnot
  · exact fun hwaits' => absurd hwaits' hnot
  · exact fun hwaits' => absurd hwaits' hnot

theorem Sized.toClient {s : TerminalLink} (h : Sized s) : Sized (s.step .toClient).1 := by
  cases hdown : s.down with
  | nil =>
    have hstep : s.step .toClient = (s, []) := by simp [step, hdown]
    rw [hstep]
    exact h
  | cons m rest =>
    have hstep : s.step .toClient =
        ({ s with down := rest } : TerminalLink).afterClient (s.client.handleMessage m) := by
      simp [step, hdown]
    have hrest : ∀ m' ∈ rest, m' ∈ s.down := by
      intro m' hm'
      rw [hdown]
      exact List.mem_cons_of_mem m hm'
    have hfewer : s.up.countP isOpen + rest.countP isOpenAck ≤ s.unanswered := by
      unfold unanswered
      rw [hdown]
      exact Nat.add_le_add_left (List.Sublist.countP_le (List.sublist_cons_self m rest)) _
    rw [hstep]
    by_cases hack : ∃ ack, readTermMessage m = some (.openAck ack)
    · rcases hack with ⟨ack, hread⟩
      rw [TerminalClient.handleMessage_ack hread]
      rcases TerminalClient.handleOpenAck_cases s.client ack with ⟨hnot, hsame⟩ |
        ⟨-, -, hopen, hwaits, hout⟩ | ⟨hwaits, haccepted, hid, htaken⟩
      · -- nobody waits for it, and the terminal that is held was asked for by nothing else
        rw [hsame]
        have hnotOpen : s.client.state ≠ .open := by
          intro hstate
          have hzero := (h.held hstate).2.1
          unfold unanswered at hzero
          rw [hdown, List.countP_cons_of_pos (by simp [isOpenAck, hread])] at hzero
          omega
        refine h.settled rfl rfl hnotOpen hnot ?_ ?_ ?_
        · rw [show sentUp ([] : List TerminalClientEvent) = [] from rfl, List.append_nil]
          exact List.Subset.refl s.up
        · rw [hdown]
          exact fun hnil => absurd hnil (List.cons_ne_nil m rest)
        · rw [show sentUp ([] : List TerminalClientEvent) = [] from rfl, List.append_nil]
          exact hfewer.trans h.one
      · have hsizes := handleOpenAck_sizes s.client ack
        have hnothing : s.up ++ sentUp (s.client.handleOpenAck ack).2 = s.up := by
          rw [hout]
          exact List.append_nil s.up
        refine h.settled hsizes.1 hsizes.2 hopen hwaits ?_ ?_ ?_
        · rw [hnothing]
          exact List.Subset.refl s.up
        · rw [hdown]
          exact fun hnil => absurd hnil (List.cons_ne_nil m rest)
        · rw [hnothing]
          exact hfewer.trans h.one
      · exact h.given hdown hread hwaits haccepted hid htaken
    · rcases TerminalClient.handleMessage_other (s := s.client) fun ack hread => hack ⟨ack, hread⟩ with
        ⟨hsize, hsent, hquiet, hstate⟩
      have hnothing : s.up ++ sentUp (s.client.handleMessage m).2 = s.up := by
        rw [sentUp_eq_nil hquiet, List.append_nil]
      have hafter : (({ s with down := rest } : TerminalLink).afterClient
          (s.client.handleMessage m)).1 =
            { s with client := (s.client.handleMessage m).1, down := rest } := by
        unfold afterClient
        rw [hnothing]
      rw [hafter]
      rcases hstate with ⟨hstate, hid⟩ | hclosed
      · -- only what is on its way to the client is less
        have hwaits : (s.client.handleMessage m).1.isWaiting = s.client.isWaiting := by
          unfold TerminalClient.isWaiting
          rw [hstate]
        refine ⟨h.matched, hfewer.trans h.one, ?_, ?_, ?_, h.named, ?_, ?_, ?_, ?_⟩
        · dsimp only
          rw [hsize]
          exact h.clamped
        · dsimp only
          rw [hsent]
          exact h.sentClamped
        · intro hstopped
          have hempty := (h.stopped hstopped).2
          rw [hdown] at hempty
          cases hempty
        · dsimp only
          rw [hstate, hid, hsize]
          intro hopen
          rcases h.held hopen with ⟨hne, hzero, hheld⟩
          exact ⟨hne, Nat.le_zero.mp (hfewer.trans hzero.le), hheld⟩
        · dsimp only
          rw [hwaits, hsent]
          exact h.asked
        · dsimp only
          rw [hwaits]
          exact h.behind
        · dsimp only
          rw [hwaits, hsent]
          exact fun hw m' hm' => h.answered hw m' (hrest m' hm')
      · refine h.settled hsize hsent (by simp [hclosed]) ?_ (List.Subset.refl s.up) ?_ ?_
        · simp [TerminalClient.isWaiting, hclosed]
        · rw [hdown]
          exact fun hnil => absurd hnil (List.cons_ne_nil m rest)
        · exact hfewer.trans h.one

theorem linkLost_settled (c : TerminalClient) :
    c.linkLost.size = c.size ∧ c.linkLost.sentSize = c.sentSize ∧ c.linkLost.state ≠ .open ∧
      c.linkLost.isWaiting = false := by
  unfold TerminalClient.linkLost
  split
  · next hclosed => simp [TerminalClient.isWaiting, hclosed]
  · simp [TerminalClient.isWaiting]

theorem Sized.linkLost {s : TerminalLink} (h : Sized s) (next : NetAddr) :
    Sized (s.step (.linkLost next)).1 := by
  rcases linkLost_settled s.client with ⟨hsize, hsent, hopen, hwaits⟩
  have hnothing : Sized { s with client := s.client.linkLost, up := [], down := [] } :=
    h.settled hsize hsent hopen hwaits (List.nil_subset _) (fun _ => rfl) (Nat.zero_le 1)
  -- the new address is not asked about while nothing is held or awaited
  refine ⟨hnothing.matched, hnothing.one, hnothing.clamped, hnothing.sentClamped, hnothing.stopped,
    nofun, ?_, nofun, fun _ => List.Pairwise.nil, nofun⟩
  exact fun hstate => absurd hstate hopen

theorem drainGone_out {h : HostedTerminals} {peer : NetAddr} {nowUs : UInt64} {dest : NetAddr}
    {m : Bytes} : .sent dest m ∉ (h.drainGone peer nowUs).2 := by
  have hdetached (gone : List UInt32) (h : HostedTerminals) :
      .sent dest m ∉ (detachAll nowUs gone h).2 := by
    induction gone generalizing h with
    | nil => nofun
    | cons termId rest ih =>
      intro hmem
      rcases List.mem_append.mp hmem with haudit | hrest
      · rcases mem_audit haudit with ⟨record, -, he⟩
        cases he
      · exact ih _ hrest
  intro hmem
  unfold drainGone at hmem
  dsimp only at hmem
  split at hmem
  · cases hmem
  · rcases List.mem_append.mp hmem with hall | hchanged
    · exact hdetached _ h hall
    · cases List.mem_singleton.mp hchanged

theorem running_drainGone (h : HostedTerminals) (peer : NetAddr) (nowUs : UInt64) :
    (h.drainGone peer nowUs).1.running = h.running := by
  have hdetached (gone : List UInt32) (h : HostedTerminals) :
      (detachAll nowUs gone h).1.running = h.running := by
    induction gone generalizing h with
    | nil => rfl
    | cons termId rest ih => exact ih _
  exact hdetached _ h

/-- Terminals that end, or are detached, leave the sizes of the others as they are. -/
theorem Sized.gone {s : TerminalLink} (h : Sized s) (peer : NetAddr) (nowUs : UInt64) :
    Sized (s.step (.gone peer nowUs)).1 := by
  have hfades := drainGone_fades s.host peer nowUs
  have hafter : (s.step (.gone peer nowUs)).1 =
      { s with host := (s.host.drainGone peer nowUs).1 } := by
    unfold step afterHost
    dsimp only
    rw [sentDown_eq_nil fun m => drainGone_out, List.append_nil]
  rw [hafter]
  refine ⟨h.matched.shrink (drainGone_shrinks s.host peer nowUs), h.one, h.clamped, h.sentClamped, ?_,
    h.named, ?_, h.asked, h.behind, ?_⟩
  · intro hstopped
    exact h.stopped ((running_drainGone s.host peer nowUs).symm.trans hstopped)
  · intro hstate
    rcases h.held hstate with ⟨hid, hzero, hheld⟩
    refine ⟨hid, hzero, ?_⟩
    intro p hp
    rcases hfades s.client.termId with hgone | hsame
    · dsimp only at hp
      rw [hgone] at hp
      cases hp
    · exact hheld p (hsame ▸ hp)
  · intro hwaits m hm ack hread haccepted
    rcases h.answered hwaits m hm ack hread haccepted with ⟨hno, hseat⟩
    refine ⟨hno, ?_⟩
    intro p hp
    rcases hfades ack.termId with hgone | hsame
    · dsimp only at hp
      rw [hgone] at hp
      cases hp
    · exact hseat p (hsame ▸ hp)

/-! ## Runs -/

theorem Sized.step {s : TerminalLink} {out : List TerminalLinkEvent} (h : Sized s)
    {a : TerminalLinkStep} (hone : AsksOne s out a) (hfree : TakesFreeId s out a) :
    Sized (s.step a).1 := by
  cases a with
  | client call => exact h.call hone
  | toHost started fingerprint => exact h.toHost hone hfree
  | toClient => exact h.toClient
  | linkLost next => exact h.linkLost next
  | gone peer nowUs => exact h.gone peer nowUs

theorem sized_joined {calls : List HostedTerminalsCall} (addr : NetAddr)
    (hfree : hostedTerminals.Along HostedTerminals.TakesFreeId {} calls) :
    Sized (joined (hostedTerminals.run {} calls).1 addr) := by
  refine ⟨matched_run hfree, Nat.zero_le 1, rfl, rfl, fun _ => ⟨nofun, rfl⟩, nofun, nofun, nofun, ?_,
    nofun⟩
  exact fun _ => List.Pairwise.nil

theorem Sized.agree {s : TerminalLink} (h : Sized s) : SizesAgree s := by
  intro hquiet hopen r hr hid _ _
  have hfind := find_of_mem h.matched.apart.distinct hr
  rw [hid] at hfind
  have hseat : s.host.seatOf s.client.termId =
      some (r.size, (s.host.shell? s.client.termId).map Shell.peer) := by
    unfold seatOf
    rw [hfind]
    rfl
  have happlied := ((h.held hopen).2.2 _ hseat).2
  rw [hquiet.1] at happlied
  exact happlied

/-- The sizes agree at rest in the runs in which every new record finds its id unused. -/
theorem sizesAgree_of_takesFreeId {calls : List HostedTerminalsCall} (addr : NetAddr)
    (hcalls : hostedTerminals.Along HostedTerminals.TakesFreeId {} calls)
    {steps : List TerminalLinkStep}
    (hone : terminalLink.Along AsksOne (joined (hostedTerminals.run {} calls).1 addr) steps)
    (hfree : terminalLink.Along TakesFreeId (joined (hostedTerminals.run {} calls).1 addr) steps) :
    SizesAgree (terminalLink.run (joined (hostedTerminals.run {} calls).1 addr) steps).1 := by
  suffices h : Sized (terminalLink.run (joined (hostedTerminals.run {} calls).1 addr) steps).1 from
    h.agree
  refine Machine.run_invariant (fun s _ => Sized s)
    (fun s out a => AsksOne s out a ∧ TakesFreeId s out a) (sized_joined addr hcalls) ?_ steps ?_
  · intro s out a hcond h
    exact h.step hcond.1 hcond.2
  · intro before a after hsplit
    exact ⟨hone before a after hsplit, hfree before a after hsplit⟩

/-! ## The counter comes round -/

instance (s : TerminalLink) (out : List TerminalLinkEvent) (a : TerminalLinkStep) :
    Decidable (AsksOne s out a) :=
  inferInstanceAs (Decidable (_ ≤ 1))

instance (s : HostedTerminals) (a : TerminalArrival) (request : TermOpen) :
    Decidable (FreeId s a request) :=
  decidable_of_iff (s.sessions.makesRecord (.open (fullRequest a request)) = true →
      s.sessions.ids.contains s.sessions.nextId = false)
    (imp_congr_right fun _ => by rw [← Bool.not_eq_true, List.contains_iff_mem])

instance (s : TerminalLink) (out : List TerminalLinkEvent) (a : TerminalLinkStep) :
    Decidable (TakesFreeId s out a) := by
  unfold TakesFreeId
  split
  · split <;> infer_instance
  · infer_instance

/-- A terminal of one cell is opened, and widened by one. -/
def widened : List TerminalLinkStep :=
  [.client (.open { cols := 1, rows := 1 } []), .toHost true default, .toClient,
    .client (.resize { cols := 2, rows := 1 }), .toHost true default]

theorem sizesAgree_widened :
    SizesAgree (terminalLink.run (joined (hostedTerminals.run {} [.start]).1 {}) widened).1 := by
  have hcalls : hostedTerminals.Along HostedTerminals.TakesFreeId {} [.start] :=
    Machine.along_iff.mpr ⟨trivial, trivial⟩
  exact sizesAgree_of_takesFreeId {} hcalls (by decide +kernel) (by decide +kernel)

def oneCell : TermSize := { cols := 1, rows := 1 }

/-- One open that no shell starts for. -/
def failedOpen : List TerminalLinkStep :=
  [.client (.open oneCell []), .toHost false default, .toClient]

/-- The first record, and its shell. -/
def firstRecord : TerminalRecord :=
  { termId := 1, size := oneCell, clientEndpoint := NetAddr.toText {} }

def firstShell : OrdMap.Map UInt32 Shell :=
  OrdMap.Map.empty.insert 1 { mirror := Screen.new (clampTermSize oneCell) kDefaultScrollback }

/-- The host with the first terminal, as the failed opens leave it. -/
def hostBesideFirst (nextId : UInt32) : HostedTerminals :=
  { running := true
    sessions := { sharing := true, nextId := nextId, records := [firstRecord] }
    host := { shells := firstShell } }

def besideFirst (nextId : UInt32) : TerminalLink :=
  { client := { state := .refused, size := oneCell, sentSize := oneCell }
    host := hostBesideFirst nextId
    addr := {} }

def openMessage : Bytes := (buildTermOpen kMaxRecordSize { size := oneCell }).getD []

/-- On the way to the host, and back. -/
def askedBeside (nextId : UInt32) : TerminalLink :=
  { besideFirst nextId with
    client := { state := .opening, size := oneCell, sentSize := oneCell }
    up := [openMessage] }

def refusedBeside (nextId : UInt32) : TerminalLink :=
  { besideFirst nextId with
    client := { state := .opening, size := oneCell, sentSize := oneCell }
    down := [(buildTermOpenAck kMaxDatagram { reason := .tooManySessions }).getD []] }

/-- The open as it arrives, for which no shell starts. -/
def failedArrival : TerminalArrival :=
  { from_ := {}, message := openMessage, fingerprint := default, started := false }

theorem step_openBeside (nextId : UInt32) :
    (terminalLink.step (besideFirst nextId) (.client (.open oneCell []))).1 = askedBeside nextId :=
  rfl

/-- The new record is gone again with its shell. -/
theorem handleOpen_beside {nextId : UInt32} (hne : (1 : UInt32) ≠ nextId) :
    (hostBesideFirst nextId).handleOpen failedArrival { size := oneCell } =
      (hostBesideFirst (idAfter nextId),
        [.sent {} ((buildTermOpenAck kMaxDatagram { reason := .tooManySessions }).getD []),
          .sessionsChanged]) := by
  have hopen : (hostBesideFirst nextId).sessions.open
        (fullRequest failedArrival { size := oneCell }) =
      ({ sharing := true
         nextId := idAfter nextId
         records := [firstRecord, { firstRecord with termId := nextId }] }, { termId := nextId }) :=
    rfl
  have hclosed : (({ sharing := true
                     nextId := idAfter nextId
                     records := [firstRecord, { firstRecord with termId := nextId }] } :
        TerminalSessions).close nextId).1 =
      { sharing := true, nextId := idAfter nextId, records := [firstRecord] } := by
    rw [close_eq]
    simp [firstRecord, hne]
  rw [handleOpen_eq]
  dsimp only
  rw [hopen, seat_new]
  dsimp only [failedArrival]
  simp only [Bool.false_eq_true, if_false]
  rw [hclosed]
  rfl

theorem step_failBeside {nextId : UInt32} (hne : (1 : UInt32) ≠ nextId) :
    (terminalLink.step (askedBeside nextId) (.toHost false default)).1 =
      refusedBeside (idAfter nextId) := by
  have hread : readTermMessage openMessage = some (.open { size := oneCell }) := by decide +kernel
  have hmessage : (hostBesideFirst nextId).handleMessage failedArrival =
      (hostBesideFirst nextId).handleOpen failedArrival { size := oneCell } := by
    unfold handleMessage
    rw [if_neg (by simp [hostBesideFirst]), failedArrival, hread]
  have hstep : terminalLink.step (askedBeside nextId) (.toHost false default) =
      ({ askedBeside nextId with up := [] } : TerminalLink).afterHost
        ((hostBesideFirst nextId).handleMessage failedArrival) := rfl
  rw [hstep, hmessage, handleOpen_beside hne]
  rfl

theorem step_refuseBeside (nextId : UInt32) :
    (terminalLink.step (refusedBeside nextId) .toClient).1 = besideFirst nextId := by
  have hread := readTermMessage_answer { reason := .tooManySessions }
  have hstep : terminalLink.step (refusedBeside nextId) .toClient =
      ({ refusedBeside nextId with down := [] } : TerminalLink).afterClient
        ((refusedBeside nextId).client.handleMessage
          ((buildTermOpenAck kMaxDatagram { reason := .tooManySessions }).getD [])) := rfl
  rw [hstep, TerminalClient.handleMessage_ack hread]
  rfl

theorem run_failedOpen {nextId : UInt32} (hne : (1 : UInt32) ≠ nextId) :
    (terminalLink.run (besideFirst nextId) failedOpen).1 = besideFirst (idAfter nextId) := by
  rw [failedOpen, Machine.run_cons, Machine.run_cons, Machine.run_cons, Machine.run_nil]
  dsimp only
  rw [step_openBeside, step_failBeside hne, step_refuseBeside]

theorem asksOne_failedOpen {nextId : UInt32} (hne : (1 : UInt32) ≠ nextId)
    (out : List TerminalLinkEvent) :
    terminalLink.AlongFrom AsksOne (besideFirst nextId) out failedOpen := by
  have hopen : (terminalLink.step (besideFirst nextId)
      (.client (.open oneCell []))).1.unanswered ≤ 1 := by
    rw [step_openBeside]
    change [openMessage].countP isOpen + 0 ≤ 1
    decide +kernel
  have hfail : (terminalLink.step (askedBeside nextId) (.toHost false default)).1.unanswered ≤ 1 := by
    rw [step_failBeside hne]
    change 0 + [(buildTermOpenAck kMaxDatagram
      { reason := .tooManySessions }).getD []].countP isOpenAck ≤ 1
    decide +kernel
  have hrefuse : (terminalLink.step (refusedBeside (idAfter nextId)) .toClient).1.unanswered ≤ 1 := by
    rw [step_refuseBeside]
    exact Nat.zero_le 1
  rw [failedOpen, Machine.AlongFrom, Machine.AlongFrom, Machine.AlongFrom, step_openBeside,
    step_failBeside hne]
  exact ⟨hopen, hfail, hrefuse, trivial⟩

/-- So many opens fail, one after the other. -/
def failedOpens (n : Nat) : List TerminalLinkStep := (List.replicate n failedOpen).flatten

theorem one_ne_idAfterRounds {k : Nat} (h : k < 4294967294) : (1 : UInt32) ≠ idAfterRounds k := by
  intro heq
  have htwo := toNat_idAfterRounds h
  rw [← heq] at htwo
  change 1 = k + 2 at htwo
  omega

theorem run_failedOpens {n k : Nat} (h : k + n ≤ 4294967294) (out : List TerminalLinkEvent) :
    (terminalLink.run (besideFirst (idAfterRounds k)) (failedOpens n)).1 =
        besideFirst (idAfterRounds (k + n)) ∧
      terminalLink.AlongFrom AsksOne (besideFirst (idAfterRounds k)) out (failedOpens n) := by
  induction n generalizing k out with
  | zero => exact ⟨rfl, trivial⟩
  | succ n ih =>
    have hne := one_ne_idAfterRounds (k := k) (by omega)
    have hnext := idAfter_idAfterRounds (n := k) (by omega)
    have hsplit : failedOpens (n + 1) = failedOpen ++ failedOpens n := by
      rw [failedOpens, List.replicate_succ, List.flatten_cons]
      rfl
    have hround := run_failedOpen hne
    rw [hnext] at hround
    rcases ih (k := k + 1) (by omega)
      (out ++ (terminalLink.run (besideFirst (idAfterRounds k)) failedOpen).2) with ⟨hrun, halong⟩
    rw [hsplit]
    constructor
    · rw [Machine.run_append]
      dsimp only
      rw [hround, hrun, Nat.add_right_comm, Nat.add_assoc]
    · refine Machine.alongFrom_append.mpr ⟨asksOne_failedOpen hne out, ?_⟩
      rw [hround]
      exact halong

/-- The first terminal is opened, and one open fails. -/
def firstOpened : List TerminalLinkStep :=
  [.client (.open oneCell []), .toHost true default, .toClient] ++ failedOpen

/-- A terminal of two cells is opened. -/
def widerOpen : List TerminalLinkStep :=
  [.client (.open { cols := 2, rows := 1 } []), .toHost true default, .toClient]

/-- The whole state is computed, but for the functions in it. -/
theorem run_firstOpened :
    (terminalLink.run (joined (hostedTerminals.run {} [.start]).1 {}) firstOpened).1 =
      besideFirst (idAfterRounds 1) := by
  rfl

theorem asksOne_firstOpened :
    terminalLink.AlongFrom AsksOne (joined (hostedTerminals.run {} [.start]).1 {}) [] firstOpened :=
  Machine.along_iff.mp (by decide +kernel)

/-- What was put out before does not matter to it. -/
theorem asksOne_out {s : TerminalLink} {steps : List TerminalLinkStep}
    {out out' : List TerminalLinkEvent} (h : terminalLink.AlongFrom AsksOne s out steps) :
    terminalLink.AlongFrom AsksOne s out' steps := by
  induction steps generalizing s out out' with
  | nil => trivial
  | cons a steps ih => exact ⟨h.1, ih h.2⟩

/-- Once the counter has come round, the wider terminal gets the id of the first. -/
theorem widerOpen_beside :
    terminalLink.Along AsksOne (besideFirst 1) widerOpen ∧
      ¬ SizesAgree (terminalLink.run (besideFirst 1) widerOpen).1 := by
  refine ⟨by decide +kernel, ?_⟩
  intro h
  have hsize := h (by decide +kernel) (by decide +kernel) firstRecord (by decide +kernel)
    (by decide +kernel) rfl (by unfold AttachedTo; decide +kernel)
  exact absurd hsize (by decide +kernel)

theorem exists_not_sizesAgree {n : Nat} (hn : n = 4294967293) :
    ∃ steps, terminalLink.Along AsksOne (joined (hostedTerminals.run {} [.start]).1 {}) steps ∧
      ¬ SizesAgree (terminalLink.run (joined (hostedTerminals.run {} [.start]).1 {}) steps).1 := by
  have hwrapped : idAfterRounds (1 + n) = 1 := by rw [idAfterRounds, if_neg (by omega)]
  rcases widerOpen_beside with ⟨hasks, hsizes⟩
  refine ⟨firstOpened ++ (failedOpens n ++ widerOpen), ?_, ?_⟩
  · -- each part starts where the one before it ended
    refine Machine.along_iff.mpr (Machine.alongFrom_append.mpr ⟨asksOne_firstOpened, ?_⟩)
    rw [run_firstOpened]
    refine Machine.alongFrom_append.mpr ⟨(run_failedOpens (by omega) _).2, ?_⟩
    rw [(run_failedOpens (k := 1) (n := n) (by omega) []).1, hwrapped]
    exact asksOne_out (Machine.along_iff.mp hasks)
  · rw [Machine.run_append]
    dsimp only
    rw [run_firstOpened, Machine.run_append]
    dsimp only
    rw [(run_failedOpens (by omega) []).1, hwrapped]
    exact hsizes

/-- One terminal stays open while the counter comes round to its id, and the next one that is
opened gets that id too. -/
theorem sizesAgree_wrap :
    ∃ steps, terminalLink.Along AsksOne (joined (hostedTerminals.run {} [.start]).1 {}) steps ∧
      ¬ SizesAgree (terminalLink.run (joined (hostedTerminals.run {} [.start]).1 {}) steps).1 :=
  exists_not_sizesAgree rfl

end TerminalLink

end Deskhub
