import Deskhub.Host.HostedTerminals
import Deskhub.Session.TerminalSessions

/-!
# Records and shells go together

What each call of the host does to the records and to the shells behind them: every record
has its shell, and as long as each new record finds its id unused, every shell has its
record too.
-/

namespace Deskhub

namespace TerminalSessions

/-- What `Close` leaves. -/
theorem close_eq (s : TerminalSessions) (termId : UInt32) :
    (s.close termId).1 = { s with records := s.records.filter fun r => r.termId ≠ termId } := by
  unfold close
  dsimp only
  split
  · next hlength =>
    have hsame := List.filter_sublist.eq_of_length hlength
    rw [hsame]
  · rfl

@[simp] theorem nextId_close (s : TerminalSessions) (termId : UInt32) :
    (s.close termId).1.nextId = s.nextId := by
  rw [close_eq]

theorem mem_ids_close {s : TerminalSessions} {termId id : UInt32} :
    id ∈ (s.close termId).1.ids ↔ id ∈ s.ids ∧ id ≠ termId := by
  rw [close_eq]
  simp only [ids, List.mem_map, List.mem_filter, decide_eq_true_eq]
  constructor
  · rintro ⟨r, ⟨hr, hne⟩, rfl⟩
    exact ⟨⟨r, hr, rfl⟩, hne⟩
  · rintro ⟨⟨r, hr, rfl⟩, hne⟩
    exact ⟨r, ⟨hr, hne⟩, rfl⟩

/-- A write that keeps the ids. -/
theorem mem_ids_update {s : TerminalSessions} {termId id : UInt32}
    {f : TerminalRecord → TerminalRecord} (hid : ∀ r, (f r).termId = r.termId) :
    id ∈ ({ s with records := update termId f s.records } : TerminalSessions).ids ↔ id ∈ s.ids := by
  unfold ids
  rw [ids_update termId hid]

theorem find_update (termId id : UInt32) {f : TerminalRecord → TerminalRecord}
    (hid : ∀ r, (f r).termId = r.termId) (records : List TerminalRecord) :
    (update termId f records).find? (fun r => r.termId = id) =
      if id = termId then (records.find? fun r => r.termId = id).map f
      else records.find? fun r => r.termId = id := by
  induction records with
  | nil => simp [update]
  | cons r rest ih =>
    rw [update]
    by_cases hr : r.termId = termId
    · -- the written record
      rw [if_pos hr]
      by_cases hself : id = termId
      · rw [if_pos hself]
        simp [hid, hr, hself]
      · rw [if_neg hself]
        have hother : ¬ r.termId = id := fun h => hself (h.symm.trans hr)
        simp [hid, hother]
    · rw [if_neg hr]
      by_cases hself : r.termId = id
      · have hother : ¬ id = termId := fun h => hr (hself.trans h)
        simp [hself, hother]
      · rw [List.find?_cons_of_neg (by simpa using hself),
          List.find?_cons_of_neg (by simpa using hself)]
        exact ih

theorem find_close (s : TerminalSessions) (termId id : UInt32) :
    (s.close termId).1.find id = if id = termId then none else s.find id := by
  rw [close_eq]
  unfold find
  rw [List.find?_filter]
  split
  · next h =>
    refine List.find?_eq_none.mpr ?_
    intro r _
    simp only [decide_eq_true_eq, not_and, h]
    exact fun hne heq => hne heq
  · next h =>
    congr 1
    funext r
    by_cases hr : r.termId = id
    · have hne : r.termId ≠ termId := fun h' => h (hr.symm.trans h')
      simp [hr, h]
    · simp [hr]

theorem find_eq_none {s : TerminalSessions} {id : UInt32} : s.find id = none ↔ id ∉ s.ids := by
  unfold find ids
  rw [List.find?_eq_none]
  simp

/-- Where the ids are apart, each record is the one found under its id. -/
theorem find_of_mem {s : TerminalSessions} (h : s.ids.Nodup) {r : TerminalRecord}
    (hr : r ∈ s.records) : s.find r.termId = some r := by
  unfold find
  unfold ids at h
  generalize s.records = records at h hr
  induction records with
  | nil => cases hr
  | cons first rest ih =>
    rw [List.map_cons, List.nodup_cons] at h
    rcases List.mem_cons.mp hr with rfl | hrest
    · simp
    · have hne : first.termId ≠ r.termId := by
        intro heq
        exact h.1 (heq ▸ List.mem_map_of_mem hrest)
      rw [List.find?_cons_of_neg (by simpa using hne)]
      exact ih h.2 hrest

/-- A call that makes no record keeps the ids apart. -/
theorem Inv.other {s : TerminalSessions} (h : Inv s) (call : TerminalSessionsCall)
    (hcall : s.makesRecord call = false) : Inv (terminalSessions.step s call).1 := by
  apply h.step
  intro hmakes
  rw [hcall] at hmakes
  cases hmakes

/-- What resizing, detaching and attaching to the host's window have in common: the record is
written, and its id stays. -/
def Rewrites (s s' : TerminalSessions) : Prop :=
  s'.nextId = s.nextId ∧ s'.ids = s.ids

theorem rewrites_update (s : TerminalSessions) (termId : UInt32)
    {f : TerminalRecord → TerminalRecord} (hid : ∀ r, (f r).termId = r.termId) :
    Rewrites s { s with records := update termId f s.records } :=
  ⟨rfl, ids_update termId hid s.records⟩

theorem resize_rewrites (s : TerminalSessions) (termId : UInt32) (size : TermSize) :
    Rewrites s (s.resize termId size).1 := by
  unfold resize
  split
  · exact ⟨rfl, rfl⟩
  · exact rewrites_update s termId fun _ => rfl

theorem detach_rewrites (s : TerminalSessions) (termId : UInt32) (nowUs : UInt64) :
    Rewrites s (s.detach termId nowUs).1 := by
  unfold detach
  split
  · exact ⟨rfl, rfl⟩
  · split
    · exact ⟨rfl, rfl⟩
    · exact rewrites_update s termId fun _ => rfl

theorem attachLocal_rewrites (s : TerminalSessions) (termId : UInt32) :
    Rewrites s (s.attachLocal termId).1 := by
  unfold attachLocal
  split
  · exact ⟨rfl, rfl⟩
  · exact rewrites_update s termId fun _ => rfl

end TerminalSessions

namespace HostedTerminals

open TerminalSessions

/-! ## The shells -/

@[simp] theorem shell?_closeShell (s : HostedTerminals) (termId exitCode : UInt32) (tell : Bool)
    (id : UInt32) :
    ((s.host.closeShell termId exitCode tell).1.shells.find? id) =
      if id = termId then none else s.shell? id := by
  unfold TerminalHost.closeShell shell?
  split
  · next hnone =>
    split
    · next h => rw [h, hnone]
    · rfl
  · exact OrdMap.Map.find?_erase _ _ _

/-- A change of one shell. -/
theorem shell?_onShell (h : TerminalHost) (termId : UInt32) (f : Shell → Shell × List ShellEvent)
    (id : UInt32) :
    (h.onShell termId f).1.shells.find? id =
      if id = termId then (h.shells.find? id).map fun shell => (f shell).1
      else h.shells.find? id := by
  unfold TerminalHost.onShell
  split
  · next hnone =>
    split
    · next hid => rw [hid, hnone, Option.map_none]
    · rfl
  · next shell hshell =>
    dsimp only
    rw [OrdMap.Map.find?_insert]
    split
    · next hid => rw [hid, hshell, Option.map_some]
    · rfl

theorem shell?_openShell (h : TerminalHost) (termId : UInt32) (peer : NetAddr) (size : TermSize)
    (id : UInt32) :
    (h.openShell termId peer size).1.shells.find? id =
      if id = termId ∧ h.shells.contains termId = false then
        some { peer := peer, mirror := Screen.new (clampTermSize size) kDefaultScrollback }
      else h.shells.find? id := by
  unfold TerminalHost.openShell
  cases hcontains : h.shells.contains termId with
  | true => simp
  | false =>
    simp only [Bool.false_eq_true, if_false, and_true]
    exact OrdMap.Map.find?_insert _ _ _ _

/-! ## What a call does -/

theorem closeShell_cases (s : HostedTerminals) (termId exitCode : UInt32) (tell : Bool) :
    (s.shell? termId = none ∧ s.closeShell termId exitCode tell = (s, [])) ∨
      ∃ shell, s.shell? termId = some shell ∧
        (s.closeShell termId exitCode tell).1 =
          { s with
            host := (s.host.closeShell termId exitCode tell).1
            sessions := (s.sessions.close termId).1 } ∧
        (s.closeShell termId exitCode tell).2 =
          (if tell && !shell.local_ then
            [.sent shell.peer ((buildTermExit kMaxDatagram termId exitCode).getD [])]
          else []) ++ s.audit termId .closed ++ [.sessionsChanged] := by
  unfold closeShell
  cases hshell : s.shell? termId with
  | none => exact .inl ⟨rfl, rfl⟩
  | some shell => exact .inr ⟨shell, rfl, rfl, rfl⟩

/-- The request as `TerminalSessions` gets it. -/
def fullRequest (a : TerminalArrival) (request : TermOpen) : TerminalOpenRequest :=
  { message := request, endpoint := a.from_.toText, fingerprint := a.fingerprint }

/-- What happens on the way to an answer: nothing is sent, and the audit lines are about the
terminal that the answer names. -/
structure OnTheWay (termId : UInt32) (extra : List HostedTerminalsEvent) : Prop where
  quiet : ∀ peer m, .sent peer m ∉ extra
  audits : ∀ record what, .audited record what ∈ extra → record.termId = termId

/-- How a request to open ends: the state, what happened on the way, and the answer. -/
inductive Opening (s : HostedTerminals) (a : TerminalArrival) (request : TermOpen) :
    HostedTerminals → List HostedTerminalsEvent → TermOpenAck → Prop
  | refused {ack : TermOpenAck} (hreason : ack.reason ≠ .accepted)
      (hold : s.sessions.makesRecord (.open (fullRequest a request)) = false) :
      Opening s a request s [] ack
  | failed {record : TerminalRecord}
      (hnew : s.sessions.makesRecord (.open (fullRequest a request)) = true)
      (hid : record.termId = s.sessions.nextId)
      (hpushed : (s.sessions.open (fullRequest a request)).1 =
        { s.sessions with
          nextId := idAfter s.sessions.nextId
          records := s.sessions.records ++ [record] }) :
      Opening s a request
        { s with
          sessions := ((s.sessions.open (fullRequest a request)).1.close s.sessions.nextId).1 }
        [] { reason := .tooManySessions }
  | made {record : TerminalRecord} {extra : List HostedTerminalsEvent}
      (hnew : s.sessions.makesRecord (.open (fullRequest a request)) = true)
      (hid : record.termId = s.sessions.nextId) (hsize : record.size = clampTermSize request.size)
      (hpushed : (s.sessions.open (fullRequest a request)).1 =
        { s.sessions with
          nextId := idAfter s.sessions.nextId
          records := s.sessions.records ++ [record] })
      (hway : OnTheWay s.sessions.nextId extra) :
      Opening s a request
        { s with
          sessions := (s.sessions.open (fullRequest a request)).1
          host := (s.host.openShell s.sessions.nextId a.from_ request.size).1 }
        extra { termId := s.sessions.nextId }
  | lost (hshell : s.shell? request.resumeId = none)
      (hold : s.sessions.makesRecord (.open (fullRequest a request)) = false)
      (hback : (s.sessions.open (fullRequest a request)).1 =
        { s.sessions with
          records := update request.resumeId (resumed (fullRequest a request))
            s.sessions.records }) :
      Opening s a request
        { s with
          sessions := ((s.sessions.open (fullRequest a request)).1.close request.resumeId).1 }
        [] { reason := .noSuchSession }
  | back {shell : Shell} {extra : List HostedTerminalsEvent}
      (hshell : s.shell? request.resumeId = some shell)
      (hmem : request.resumeId ∈ s.sessions.ids)
      (hold : s.sessions.makesRecord (.open (fullRequest a request)) = false)
      (hback : (s.sessions.open (fullRequest a request)).1 =
        { s.sessions with
          records := update request.resumeId (resumed (fullRequest a request))
            s.sessions.records })
      (hway : OnTheWay request.resumeId extra) :
      Opening s a request
        { s with
          sessions := (s.sessions.open (fullRequest a request)).1
          host := (s.host.onShell request.resumeId fun shell =>
            (shell.reattach a.from_ request.size, [.reattached])).1 }
        extra { termId := request.resumeId, resumed := true }

theorem mem_audit {s : HostedTerminals} {termId : UInt32} {what : TerminalAudit}
    {e : HostedTerminalsEvent} (h : e ∈ s.audit termId what) :
    ∃ record, s.sessions.find termId = some record ∧ e = .audited record what := by
  unfold audit at h
  cases hfind : s.sessions.find termId with
  | none =>
    rw [hfind] at h
    cases h
  | some record =>
    rw [hfind] at h
    exact ⟨record, rfl, List.mem_singleton.mp h⟩

theorem onTheWay_seat (did : TerminalHost × List (UInt32 × ShellEvent)) (s : HostedTerminals)
    (termId : UInt32) (what : TerminalAudit) :
    OnTheWay termId
      (did.2.map (fun p => HostedTerminalsEvent.shell p.1 p.2) ++ s.audit termId what) := by
  constructor
  · intro peer m h
    rcases List.mem_append.mp h with hshell | haudit
    · obtain ⟨p, -, hp⟩ := List.mem_map.mp hshell
      cases hp
    · rcases mem_audit haudit with ⟨record, -, he⟩
      cases he
  · intro record what' h
    rcases List.mem_append.mp h with hshell | haudit
    · obtain ⟨p, -, hp⟩ := List.mem_map.mp hshell
      cases hp
    · rcases mem_audit haudit with ⟨found, hfind, he⟩
      cases he
      simpa using List.find?_some hfind

theorem seat_refused (s : HostedTerminals) (from_ : NetAddr) (size : TermSize) (started : Bool)
    {ack : TermOpenAck} (hreason : ack.reason ≠ .accepted) :
    s.seat from_ size started ack = (s, [], ack) := by
  simp [seat, hreason]

/-- A new record gets a shell, unless none starts. -/
theorem seat_new (s : HostedTerminals) (from_ : NetAddr) (size : TermSize) (started : Bool)
    (termId : UInt32) :
    s.seat from_ size started { termId := termId } =
      if started then
        ({ s with host := (s.host.openShell termId from_ size).1 },
          (s.host.openShell termId from_ size).2.map (fun p => .shell p.1 p.2) ++
            ({ s with host := (s.host.openShell termId from_ size).1 } : HostedTerminals).audit
              termId .opened, { termId := termId })
      else
        ({ s with sessions := (s.sessions.close termId).1 }, [], { reason := .tooManySessions }) := by
  cases started with
  | true => rfl
  | false => rfl

/-- A record that is come back to has its shell still, or goes. -/
theorem seat_back (s : HostedTerminals) (from_ : NetAddr) (size : TermSize) (started : Bool)
    (termId : UInt32) :
    s.seat from_ size started { termId := termId, resumed := true } =
      match s.shell? termId with
      | none =>
          ({ s with sessions := (s.sessions.close termId).1 }, [], { reason := .noSuchSession })
      | some _ =>
          let did := s.host.onShell termId fun shell => (shell.reattach from_ size, [.reattached])
          ({ s with host := did.1 }, did.2.map (fun p => .shell p.1 p.2) ++
            ({ s with host := did.1 } : HostedTerminals).audit termId .reattached,
            { termId := termId, resumed := true }) := by
  unfold seat
  cases s.shell? termId with
  | none => rfl
  | some shell => rfl

/-- An open goes through the records and then to the seat. -/
theorem handleOpen_eq (s : HostedTerminals) (a : TerminalArrival) (request : TermOpen) :
    s.handleOpen a request =
      let opened := s.sessions.open (fullRequest a request)
      let seated := ({ s with sessions := opened.1 } : HostedTerminals).seat a.from_ request.size
        a.started opened.2
      (seated.1, seated.2.1 ++
        [.sent a.from_ ((buildTermOpenAck kMaxDatagram seated.2.2).getD []), .sessionsChanged]) :=
  rfl

theorem handleOpen_cases (s : HostedTerminals) (a : TerminalArrival) (request : TermOpen) :
    ∃ extra ack, Opening s a request (s.handleOpen a request).1 extra ack ∧
      (s.handleOpen a request).2 = extra ++
        [.sent a.from_ ((buildTermOpenAck kMaxDatagram ack).getD []), .sessionsChanged] := by
  -- the seat in the state that the records leave
  generalize hseat : ({ s with sessions := (s.sessions.open (fullRequest a request)).1 } :
    HostedTerminals).seat a.from_ request.size a.started
      (s.sessions.open (fullRequest a request)).2 = seated
  have hout : s.handleOpen a request = (seated.1, seated.2.1 ++
      [.sent a.from_ ((buildTermOpenAck kMaxDatagram seated.2.2).getD []), .sessionsChanged]) := by
    rw [← hseat, handleOpen_eq]
  refine ⟨seated.2.1, seated.2.2, ?_, by rw [hout]⟩
  rw [hout, ← hseat]
  rcases open_cases s.sessions (fullRequest a request) with ⟨hold, hsame, hreason⟩ |
    ⟨hold, hmem, hback, hack⟩ | ⟨hnew, hack, record, hid, hsize, hpushed⟩
  · rw [seat_refused _ _ _ _ hreason, hsame]
    exact .refused hreason hold
  · rw [hack, seat_back]
    cases hshell : s.shell? request.resumeId with
    | none =>
      have hnone : ({ s with sessions := (s.sessions.open (fullRequest a request)).1 } :
          HostedTerminals).shell? (fullRequest a request).message.resumeId = none := hshell
      rw [hnone]
      exact .lost hshell hold hback
    | some shell =>
      have hsome : ({ s with sessions := (s.sessions.open (fullRequest a request)).1 } :
          HostedTerminals).shell? (fullRequest a request).message.resumeId = some shell := hshell
      rw [hsome]
      exact .back hshell hmem hold hback (onTheWay_seat _ _ _ _)
  · rw [hack, seat_new]
    cases a.started with
    | false => exact .failed hnew hid hpushed
    | true => exact .made hnew hid hsize hpushed (onTheWay_seat _ _ _ _)

/-! ## Records and their shells -/

/-- Every record has its shell. -/
structure Kept (s : HostedTerminals) : Prop where
  next : s.sessions.nextId ≠ 0
  nonzero : (0 : UInt32) ∉ s.sessions.ids
  backed : ∀ id ∈ s.sessions.ids, (s.shell? id).isSome = true

/-- Every shell has its record as well. -/
structure Matched (s : HostedTerminals) : Prop where
  apart : s.sessions.Inv
  backed : ∀ id ∈ s.sessions.ids, (s.shell? id).isSome = true
  recorded : ∀ id, (s.shell? id).isSome = true → id ∈ s.sessions.ids

/-- What every call does that makes no record: records and shells only go, and together. -/
structure Shrinks (s s' : HostedTerminals) : Prop where
  next : s'.sessions.nextId = s.sessions.nextId
  ids : ∀ id ∈ s'.sessions.ids, id ∈ s.sessions.ids
  backed : ∀ id ∈ s'.sessions.ids, (s.shell? id).isSome = true → (s'.shell? id).isSome = true
  shells : ∀ id, (s'.shell? id).isSome = true → (s.shell? id).isSome = true
  recorded : ∀ id, (s'.shell? id).isSome = true → id ∈ s.sessions.ids → id ∈ s'.sessions.ids
  apart : s.sessions.Inv → s'.sessions.Inv

theorem Kept.shrink {s s' : HostedTerminals} (h : Kept s) (hs : Shrinks s s') : Kept s' := by
  refine ⟨?_, ?_, ?_⟩
  · rw [hs.next]
    exact h.next
  · intro hzero
    exact h.nonzero (hs.ids 0 hzero)
  · intro id hid
    exact hs.backed id hid (h.backed id (hs.ids id hid))

theorem Matched.shrink {s s' : HostedTerminals} (h : Matched s) (hs : Shrinks s s') :
    Matched s' := by
  refine ⟨hs.apart h.apart, ?_, ?_⟩
  · intro id hid
    exact hs.backed id hid (h.backed id (hs.ids id hid))
  · intro id hid
    exact hs.recorded id hid (h.recorded id (hs.shells id hid))

namespace Shrinks

theorem refl (s : HostedTerminals) : Shrinks s s :=
  ⟨rfl, fun _ h => h, fun _ _ h => h, fun _ h => h, fun _ _ h => h, fun h => h⟩

theorem trans {s s' s'' : HostedTerminals} (h : Shrinks s s') (h' : Shrinks s' s'') :
    Shrinks s s'' := by
  refine ⟨h'.next.trans h.next, ?_, ?_, ?_, ?_, fun hs => h'.apart (h.apart hs)⟩
  · intro id hid
    exact h.ids id (h'.ids id hid)
  · intro id hid hshell
    exact h'.backed id hid (h.backed id (h'.ids id hid) hshell)
  · intro id hid
    exact h.shells id (h'.shells id hid)
  · intro id hid hmem
    exact h'.recorded id hid (h.recorded id (h'.shells id hid) hmem)

/-- Records and shells are written, and none comes or goes. -/
theorem rewrite {s s' : HostedTerminals} (hids : Rewrites s.sessions s'.sessions)
    (hshells : ∀ id, (s'.shell? id).isSome = (s.shell? id).isSome)
    (hapart : s.sessions.Inv → s'.sessions.Inv) : Shrinks s s' := by
  refine ⟨hids.1, ?_, ?_, ?_, ?_, hapart⟩
  · intro id hid
    rwa [hids.2] at hid
  · intro id _ h
    rwa [hshells]
  · intro id h
    rwa [← hshells]
  · intro id _ hid
    rwa [hids.2]

end Shrinks

theorem closeShell_shrinks (s : HostedTerminals) (termId exitCode : UInt32) (tell : Bool) :
    Shrinks s (s.closeShell termId exitCode tell).1 := by
  rcases closeShell_cases s termId exitCode tell with ⟨-, hsame⟩ | ⟨shell, -, hclosed, -⟩
  · rw [hsame]
    exact .refl s
  · rw [hclosed]
    -- the shell of the id is gone, and so are its records
    have hshell (id : UInt32) : ({ s with
        host := (s.host.closeShell termId exitCode tell).1
        sessions := (s.sessions.close termId).1 } : HostedTerminals).shell? id =
          if id = termId then none else s.shell? id := shell?_closeShell s termId exitCode tell id
    refine ⟨nextId_close s.sessions termId, ?_, ?_, ?_, ?_, ?_⟩
    · intro id hid
      exact (mem_ids_close.mp hid).1
    · intro id hid h
      rw [hshell, if_neg (mem_ids_close.mp hid).2]
      exact h
    · intro id h
      rw [hshell] at h
      split at h
      · cases h
      · exact h
    · intro id h hid
      rw [hshell] at h
      refine mem_ids_close.mpr ⟨hid, ?_⟩
      rintro rfl
      rw [if_pos rfl] at h
      cases h
    · intro h
      exact h.other (.close termId) rfl

/-- A change of one shell keeps them all. -/
theorem isSome_onShell (s : HostedTerminals) (sessions : TerminalSessions) (termId : UInt32)
    (f : Shell → Shell × List ShellEvent) (id : UInt32) :
    (({ s with sessions := sessions, host := (s.host.onShell termId f).1 } :
      HostedTerminals).shell? id).isSome = (s.shell? id).isSome := by
  change ((s.host.onShell termId f).1.shells.find? id).isSome = _
  rw [shell?_onShell]
  unfold shell?
  split
  · exact Option.isSome_map
  · rfl

theorem handleResize_shrinks (s : HostedTerminals) (from_ : NetAddr) (termId : UInt32)
    (size : TermSize) : Shrinks s (s.handleResize from_ termId size).1 := by
  unfold handleResize
  dsimp only
  split
  · exact .refl s
  · split
    · exact .refl s
    · refine .rewrite (resize_rewrites s.sessions _ size) (isSome_onShell s _ _ _) ?_
      intro h
      exact h.other (.resize _ size) rfl

theorem resizeLocal_shrinks (s : HostedTerminals) (termId : UInt32) (size : TermSize) :
    Shrinks s (s.resizeLocal termId size) := by
  unfold resizeLocal
  dsimp only
  split
  · exact .refl s
  · split
    · exact .refl s
    · split
      · exact .refl s
      · refine .rewrite (resize_rewrites s.sessions termId _) (isSome_onShell s _ _ _) ?_
        intro h
        exact h.other (.resize termId _) rfl

theorem attachLocal_shrinks (s : HostedTerminals) (termId : UInt32) :
    Shrinks s (s.attachLocal termId).1 := by
  unfold attachLocal
  split
  · exact .refl s
  · split
    · exact .refl s
    · split
      · exact .refl s
      · dsimp only
        split
        · exact .refl s
        · refine .rewrite (attachLocal_rewrites s.sessions termId) (isSome_onShell s _ _ _) ?_
          intro h
          exact h.other (.attachLocal termId) rfl

theorem closeLocal_shrinks (s : HostedTerminals) (termId : UInt32) :
    Shrinks s (s.closeLocal termId).1 := by
  unfold closeLocal
  split
  · exact .refl s
  · split
    · exact .refl s
    · split
      · exact .refl s
      · exact closeShell_shrinks s termId 0 false

theorem handleClose_shrinks (s : HostedTerminals) (from_ : NetAddr) (termId : UInt32) :
    Shrinks s (s.handleClose from_ termId).1 := by
  unfold handleClose
  dsimp only
  split
  · exact .refl s
  · exact closeShell_shrinks s _ 0 _

@[simp] theorem handleData_state (s : HostedTerminals) (from_ : NetAddr) (termId : UInt32)
    (payload : Bytes) : (s.handleData from_ termId payload).1 = s := by
  unfold handleData
  dsimp only
  split
  · rfl
  · split
    · rfl
    · rfl

theorem detachAll_shrinks (nowUs : UInt64) (gone : List UInt32) (s : HostedTerminals) :
    Shrinks s (detachAll nowUs gone s).1 := by
  induction gone generalizing s with
  | nil => exact .refl s
  | cons termId rest ih =>
    refine .trans ?_ (ih _)
    refine .rewrite (detach_rewrites s.sessions termId nowUs) (fun _ => rfl) ?_
    intro h
    exact h.other (.detach termId nowUs) rfl

theorem drainGone_shrinks (s : HostedTerminals) (peer : NetAddr) (nowUs : UInt64) :
    Shrinks s (s.drainGone peer nowUs).1 :=
  detachAll_shrinks nowUs _ s

theorem closeFinished_shrinks (io : UInt32 → PumpIo) (finished : List UInt32)
    (s : HostedTerminals) : Shrinks s (closeFinished io finished s).1 := by
  induction finished generalizing s with
  | nil => exact .refl s
  | cons termId rest ih => exact (closeShell_shrinks s termId (io termId).exitCode true).trans (ih _)

theorem pumpShells_shrinks (s : HostedTerminals) (nowUs : UInt64) (io : UInt32 → PumpIo) :
    Shrinks s (s.pumpShells nowUs io).1 := by
  refine .trans ?_ (closeFinished_shrinks io _ _)
  refine .rewrite ⟨rfl, rfl⟩ ?_ fun h => h
  intro id
  change ((s.host.shells.mapVals _).find? id).isSome = _
  rw [OrdMap.Map.find?_mapVals]
  exact Option.isSome_map

theorem start_shrinks (s : HostedTerminals) : Shrinks s s.start := by
  unfold start
  split
  · exact .refl s
  · refine .rewrite ⟨rfl, rfl⟩ (fun _ => rfl) ?_
    intro h
    exact h.other (.setSharing true) rfl

theorem stop_shrinks (s : HostedTerminals) : Shrinks s s.stop := by
  unfold stop
  split
  · exact .refl s
  · refine ⟨rfl, ?_, ?_, ?_, ?_, ?_⟩
    · intro id hid
      cases hid
    · intro id hid
      cases hid
    · intro id hid
      cases hid
    · intro id hid
      cases hid
    · intro h
      exact h.other (.setSharing false) rfl

/-! ## An open -/

/-- The id of a new record is not one of the others'. -/
def FreeId (s : HostedTerminals) (a : TerminalArrival) (request : TermOpen) : Prop :=
  s.sessions.makesRecord (.open (fullRequest a request)) = true →
    s.sessions.nextId ∉ s.sessions.ids

theorem mem_ids_resumed {s : TerminalSessions} {full : TerminalOpenRequest} {termId id : UInt32} :
    id ∈ ({ s with records := update termId (resumed full) s.records } : TerminalSessions).ids ↔
      id ∈ s.ids :=
  mem_ids_update (f := resumed full) fun _ => rfl

theorem mem_ids_push {s : TerminalSessions} {nextId : UInt32} {record : TerminalRecord}
    {id : UInt32} :
    id ∈ ({ s with nextId := nextId, records := s.records ++ [record] } : TerminalSessions).ids ↔
      id ∈ s.ids ∨ id = record.termId := by
  unfold ids
  rw [List.map_append, List.mem_append, List.map_singleton, List.mem_singleton]

theorem isSome_openShell (s : HostedTerminals) (sessions : TerminalSessions) (termId : UInt32)
    (peer : NetAddr) (size : TermSize) (id : UInt32) :
    (({ s with sessions := sessions, host := (s.host.openShell termId peer size).1 } :
      HostedTerminals).shell? id).isSome = true ↔ id = termId ∨ (s.shell? id).isSome = true := by
  change ((s.host.openShell termId peer size).1.shells.find? id).isSome = true ↔ _
  rw [shell?_openShell]
  unfold shell? OrdMap.Map.contains
  by_cases hid : id = termId
  · subst hid
    cases s.host.shells.find? id with
    | none => simp
    | some shell => simp
  · simp [hid]

theorem Opening.kept {s s' : HostedTerminals} {a : TerminalArrival} {request : TermOpen}
    {extra : List HostedTerminalsEvent} {ack : TermOpenAck} (h : Opening s a request s' extra ack)
    (hkept : Kept s) : Kept s' ∧ (ack.reason = .accepted → ack.termId ≠ 0) := by
  cases h with
  | refused hreason =>
    exact ⟨hkept, fun haccepted => absurd haccepted hreason⟩
  | failed hnew hid hpushed =>
    rw [hpushed]
    refine ⟨⟨?_, ?_, ?_⟩, nofun⟩
    · rw [nextId_close]
      exact idAfter_ne_zero s.sessions.nextId
    · intro hzero
      rcases mem_ids_push.mp (mem_ids_close.mp hzero).1 with hold | hnext
      · exact hkept.nonzero hold
      · exact hkept.next (hid ▸ hnext).symm
    · intro id hmem
      rcases mem_ids_close.mp hmem with ⟨hpush, hne⟩
      rcases mem_ids_push.mp hpush with hold | hnext
      · exact hkept.backed id hold
      · exact absurd (hnext.trans hid) hne
  | made hnew hid hsize hpushed hway =>
    rw [hpushed]
    refine ⟨⟨idAfter_ne_zero s.sessions.nextId, ?_, ?_⟩, fun _ => hkept.next⟩
    · intro hzero
      rcases mem_ids_push.mp hzero with hold | hnext
      · exact hkept.nonzero hold
      · exact hkept.next (hid ▸ hnext).symm
    · intro id hmem
      apply (isSome_openShell s _ _ _ _ id).mpr
      rcases mem_ids_push.mp hmem with hold | hnext
      · exact .inr (hkept.backed id hold)
      · exact .inl (hnext.trans hid)
  | lost hshell hold hback =>
    rw [hback]
    refine ⟨⟨?_, ?_, ?_⟩, nofun⟩
    · rw [nextId_close]
      exact hkept.next
    · intro hzero
      exact hkept.nonzero (mem_ids_resumed.mp (mem_ids_close.mp hzero).1)
    · intro id hmem
      exact hkept.backed id (mem_ids_resumed.mp (mem_ids_close.mp hmem).1)
  | back hshell hmem hold hback hway =>
    rw [hback]
    refine ⟨⟨hkept.next, ?_, ?_⟩, ?_⟩
    · intro hzero
      exact hkept.nonzero (mem_ids_resumed.mp hzero)
    · intro id hid
      rw [isSome_onShell]
      exact hkept.backed id (mem_ids_resumed.mp hid)
    · intro _ hzero
      exact hkept.nonzero (hzero ▸ hmem)

theorem Opening.matched {s s' : HostedTerminals} {a : TerminalArrival} {request : TermOpen}
    {extra : List HostedTerminalsEvent} {ack : TermOpenAck} (h : Opening s a request s' extra ack)
    (hfree : FreeId s a request) (hmatched : Matched s) : Matched s' := by
  have hopened := (hmatched.apart.open hfree).1
  cases h with
  | refused => exact hmatched
  | failed hnew hid hpushed =>
    refine ⟨hopened.other (.close _) rfl, ?_, ?_⟩
    · intro id hmem
      rcases mem_ids_close.mp hmem with ⟨hpush, hne⟩
      rw [hpushed] at hpush
      rcases mem_ids_push.mp hpush with hold | hnext
      · exact hmatched.backed id hold
      · exact absurd (hnext.trans hid) hne
    · intro id hshell
      have hold := hmatched.recorded id hshell
      refine mem_ids_close.mpr ⟨?_, ?_⟩
      · rw [hpushed]
        exact mem_ids_push.mpr (.inl hold)
      · rintro rfl
        exact hfree hnew hold
  | made hnew hid hsize hpushed hway =>
    refine ⟨hopened, ?_, ?_⟩
    · intro id hmem
      apply (isSome_openShell s _ _ _ _ id).mpr
      rw [hpushed] at hmem
      rcases mem_ids_push.mp hmem with hold | hnext
      · exact .inr (hmatched.backed id hold)
      · exact .inl (hnext.trans hid)
    · intro id hshell
      rw [hpushed]
      apply mem_ids_push.mpr
      rcases (isSome_openShell s _ _ _ _ id).mp hshell with hnext | hold
      · exact .inr (hnext.trans hid.symm)
      · exact .inl (hmatched.recorded id hold)
  | lost hshell hold hback =>
    refine ⟨hopened.other (.close _) rfl, ?_, ?_⟩
    · intro id hmem
      have hupdated := (mem_ids_close.mp hmem).1
      rw [hback] at hupdated
      exact hmatched.backed id (mem_ids_resumed.mp hupdated)
    · intro id hid
      refine mem_ids_close.mpr ⟨?_, ?_⟩
      · rw [hback]
        exact mem_ids_resumed.mpr (hmatched.recorded id hid)
      · rintro rfl
        change (s.shell? request.resumeId).isSome = true at hid
        rw [hshell] at hid
        cases hid
  | back hshell hmem hold hback hway =>
    refine ⟨hopened, ?_, ?_⟩
    · intro id hid
      rw [hback] at hid
      rw [isSome_onShell]
      exact hmatched.backed id (mem_ids_resumed.mp hid)
    · intro id hid
      rw [isSome_onShell] at hid
      rw [hback]
      exact mem_ids_resumed.mpr (hmatched.recorded id hid)

/-! ## What a message brings about -/

/-- A peer is in a shell of this id. -/
def HasLive (s : HostedTerminals) (id : UInt32) : Prop :=
  ∃ r ∈ s.sessions.records, r.termId = id ∧ r.state = .live

/-- The peer was told that the terminal of this id is its own. -/
def Grants (out : List HostedTerminalsEvent) (peer : NetAddr) (id : UInt32) : Prop :=
  ∃ ack : TermOpenAck, .sent peer ((buildTermOpenAck kMaxDatagram ack).getD []) ∈ out ∧
    ack.reason = .accepted ∧ ack.termId = id

/-- A shell of this id was opened, or come back to. -/
def Takes (out : List HostedTerminalsEvent) (id : UInt32) : Prop :=
  ∃ record what, .audited record what ∈ out ∧ record.termId = id ∧
    (what = .opened ∨ what = .reattached)

theorem live_of_close {s : TerminalSessions} {termId : UInt32} {r : TerminalRecord}
    (h : r ∈ (s.close termId).1.records) : r ∈ s.records := by
  rw [close_eq] at h
  exact (List.mem_filter.mp h).1

/-- A shell that is closed leaves no record. -/
theorem closeShell_live {s : HostedTerminals} {termId exitCode : UInt32} {tell : Bool} {id : UInt32}
    (h : HasLive (s.closeShell termId exitCode tell).1 id) : HasLive s id := by
  rcases closeShell_cases s termId exitCode tell with ⟨-, hsame⟩ | ⟨shell, -, hclosed, -⟩
  · rwa [hsame] at h
  · rw [hclosed] at h
    rcases h with ⟨r, hr, hlive⟩
    exact ⟨r, live_of_close hr, hlive⟩

theorem handleClose_live {s : HostedTerminals} {from_ : NetAddr} {termId id : UInt32}
    (h : HasLive (s.handleClose from_ termId).1 id) : HasLive s id := by
  unfold handleClose at h
  dsimp only at h
  split at h
  · exact h
  · exact closeShell_live h

/-- A close by its id ends every record of the id. -/
theorem not_live_handleClose {s : HostedTerminals} (hkept : Kept s) {from_ : NetAddr}
    {id : UInt32} (hid : id ≠ 0) : ¬ HasLive (s.handleClose from_ id).1 id := by
  intro h
  have hbefore := handleClose_live h
  have hasked : s.askedId from_ id = id := by rw [askedId, if_pos hid]
  have hbacked : (s.shell? id).isSome = true := by
    rcases hbefore with ⟨r, hr, rfl, -⟩
    exact hkept.backed r.termId (List.mem_map_of_mem hr)
  rcases Option.isSome_iff_exists.mp hbacked with ⟨shell, hshell⟩
  unfold handleClose at h
  dsimp only at h
  rw [hasked, hshell] at h
  rcases closeShell_cases s id 0 _ with ⟨hnone, -⟩ | ⟨_, -, hclosed, -⟩
  · rw [hshell] at hnone
    cases hnone
  · rw [hclosed] at h
    rcases h with ⟨r, hr, rfl, -⟩
    exact (mem_ids_close.mp (List.mem_map_of_mem hr)).2 rfl

theorem handleResize_live {s : HostedTerminals} {from_ : NetAddr} {termId id : UInt32}
    {size : TermSize} (h : HasLive (s.handleResize from_ termId size).1 id) : HasLive s id := by
  unfold handleResize at h
  dsimp only at h
  split at h
  · exact h
  · split at h
    · exact h
    · rcases h with ⟨r, hr, hid, hlive⟩
      change r ∈ (s.sessions.resize _ size).1.records at hr
      unfold TerminalSessions.resize at hr
      split at hr
      · exact ⟨r, hr, hid, hlive⟩
      · rcases mem_update hr with hold | ⟨old, hmem, -, rfl⟩
        · exact ⟨r, hold, hid, hlive⟩
        · exact ⟨old, hmem, hid, hlive⟩

/-- What an open takes it grants, and only that becomes live. -/
theorem handleOpen_grants {s : HostedTerminals} {a : TerminalArrival} {request : TermOpen}
    {id : UInt32} :
    (HasLive (s.handleOpen a request).1 id →
        HasLive s id ∨ Grants (s.handleOpen a request).2 a.from_ id) ∧
      (Takes (s.handleOpen a request).2 id → Grants (s.handleOpen a request).2 a.from_ id) := by
  rcases handleOpen_cases s a request with ⟨extra, ack, hopening, hout⟩
  have hgrants (haccepted : ack.reason = .accepted) (hid : ack.termId = id) :
      Grants (s.handleOpen a request).2 a.from_ id := by
    refine ⟨ack, ?_, haccepted, hid⟩
    rw [hout]
    simp
  have htakes (h : Takes (s.handleOpen a request).2 id) :
      ∃ record what, HostedTerminalsEvent.audited record what ∈ extra ∧ record.termId = id := by
    rcases h with ⟨record, what, hmem, hid, -⟩
    rw [hout] at hmem
    refine ⟨record, what, ?_, hid⟩
    rcases List.mem_append.mp hmem with hextra | hanswer
    · exact hextra
    · simp at hanswer
  generalize (s.handleOpen a request).1 = after at hopening
  cases hopening with
  | refused =>
    refine ⟨.inl, ?_⟩
    intro h
    rcases htakes h with ⟨record, what, hmem, -⟩
    cases hmem
  | failed hnew hid hpushed =>
    constructor
    · rintro ⟨r, hr, hrid, hlive⟩
      left
      have hne := (mem_ids_close.mp (List.mem_map_of_mem hr)).2
      have hpush := live_of_close hr
      rw [hpushed] at hpush
      rcases List.mem_append.mp hpush with hold | hlast
      · exact ⟨r, hold, hrid, hlive⟩
      · rw [List.mem_singleton.mp hlast] at hne
        exact absurd hid hne
    · intro h
      rcases htakes h with ⟨record, what, hmem, -⟩
      cases hmem
  | made hnew hid hsize hpushed hway =>
    constructor
    · rintro ⟨r, hr, hrid, hlive⟩
      change r ∈ (s.sessions.open _).1.records at hr
      rw [hpushed] at hr
      rcases List.mem_append.mp hr with hold | hlast
      · exact .inl ⟨r, hold, hrid, hlive⟩
      · rw [List.mem_singleton.mp hlast, hid] at hrid
        exact .inr (hgrants rfl hrid)
    · intro h
      rcases htakes h with ⟨record, what, hmem, hrid⟩
      exact hgrants rfl ((hway.audits record what hmem).symm.trans hrid)
  | lost hshell hold hback =>
    constructor
    · rintro ⟨r, hr, hrid, hlive⟩
      left
      have hne := (mem_ids_close.mp (List.mem_map_of_mem hr)).2
      have hupdated := live_of_close hr
      rw [hback] at hupdated
      rcases mem_update hupdated with hkeep | ⟨old, -, hoid, rfl⟩
      · exact ⟨r, hkeep, hrid, hlive⟩
      · exact absurd hoid hne
    · intro h
      rcases htakes h with ⟨record, what, hmem, -⟩
      cases hmem
  | back hshell hmem hold hback hway =>
    constructor
    · rintro ⟨r, hr, hrid, hlive⟩
      change r ∈ (s.sessions.open _).1.records at hr
      rw [hback] at hr
      rcases mem_update hr with hkeep | ⟨old, -, hoid, rfl⟩
      · exact .inl ⟨r, hkeep, hrid, hlive⟩
      · exact .inr (hgrants rfl (hoid.symm.trans hrid))
    · intro h
      rcases htakes h with ⟨record, what, haudit, hrid⟩
      exact hgrants rfl ((hway.audits record what haudit).symm.trans hrid)

/-- A close says so in the audit, whoever's shell it was. -/
theorem closeShell_out {s : HostedTerminals} {termId exitCode : UInt32} {tell : Bool}
    {e : HostedTerminalsEvent} (h : e ∈ (s.closeShell termId exitCode tell).2) :
    (∃ shell m, s.shell? termId = some shell ∧ tell = true ∧ e = .sent shell.peer m) ∨
      (∃ record, e = .audited record .closed) ∨ e = .sessionsChanged := by
  rcases closeShell_cases s termId exitCode tell with ⟨-, hsame⟩ | ⟨shell, hshell, -, hout⟩
  · rw [hsame] at h
    cases h
  · rw [hout] at h
    rcases List.mem_append.mp h with hfirst | hchanged
    · rcases List.mem_append.mp hfirst with htold | haudit
      · split at htold
        · next htell =>
          rw [Bool.and_eq_true] at htell
          exact .inl ⟨shell, _, hshell, htell.1, List.mem_singleton.mp htold⟩
        · cases htold
      · rcases mem_audit haudit with ⟨record, -, he⟩
        exact .inr (.inl ⟨record, he⟩)
    · exact .inr (.inr (List.mem_singleton.mp hchanged))

/-- What a close asked for by a peer tells: another peer that it has lost its terminal. -/
theorem handleClose_out {s : HostedTerminals} {from_ : NetAddr} {termId : UInt32}
    {e : HostedTerminalsEvent} (h : e ∈ (s.handleClose from_ termId).2) :
    (∃ peer m, peer ≠ from_ ∧ e = .sent peer m) ∨ (∃ record, e = .audited record .closed) ∨
      e = .sessionsChanged := by
  unfold handleClose at h
  dsimp only at h
  split at h
  · cases h
  · next target htarget =>
    rcases closeShell_out h with ⟨shell, m, hshell, htell, rfl⟩ | hrest
    · left
      refine ⟨shell.peer, m, ?_, rfl⟩
      rw [htarget] at hshell
      cases hshell
      split at htell
      · cases htell
      · simp only [Bool.and_eq_true, decide_eq_true_eq] at htell
        exact htell.2
    · exact .inr hrest

/-- Typing and resizing touch a shell and nothing else. -/
theorem handleData_out {s : HostedTerminals} {from_ : NetAddr} {termId : UInt32} {payload : Bytes}
    {e : HostedTerminalsEvent} (h : e ∈ (s.handleData from_ termId payload).2) :
    ∃ id did, e = .shell id did := by
  unfold handleData at h
  dsimp only at h
  split at h
  · cases h
  · split at h
    · cases h
    · split at h
      · exact ⟨_, _, List.mem_singleton.mp h⟩
      · cases h

theorem handleResize_out {s : HostedTerminals} {from_ : NetAddr} {termId : UInt32} {size : TermSize}
    {e : HostedTerminalsEvent} (h : e ∈ (s.handleResize from_ termId size).2) :
    ∃ id did, e = .shell id did := by
  unfold handleResize at h
  dsimp only at h
  split at h
  · cases h
  · split at h
    · cases h
    · obtain ⟨p, -, hp⟩ := List.mem_map.mp h
      exact ⟨p.1, p.2, hp.symm⟩

/-- Every message but an open takes nothing, and makes nothing live. -/
theorem handleMessage_grants {s : HostedTerminals} {a : TerminalArrival} {id : UInt32} :
    (HasLive (s.handleMessage a).1 id →
        HasLive s id ∨ Grants (s.handleMessage a).2 a.from_ id) ∧
      (Takes (s.handleMessage a).2 id → Grants (s.handleMessage a).2 a.from_ id) := by
  unfold handleMessage
  split
  · exact ⟨.inl, fun ⟨_, _, hmem, _⟩ => absurd hmem List.not_mem_nil⟩
  · split
    · refine ⟨.inl, ?_⟩
      rintro ⟨record, what, hmem, -⟩
      cases List.mem_singleton.mp hmem
    · refine ⟨fun h => .inl (handleClose_live h), ?_⟩
      rintro ⟨record, what, hmem, -, hwhat⟩
      rcases handleClose_out hmem with ⟨peer, m, -, he⟩ | ⟨r, he⟩ | he
      · cases he
      · cases he
        rcases hwhat with hopened | hback
        · cases hopened
        · cases hback
      · cases he
    · exact handleOpen_grants
    · refine ⟨fun h => .inl (by rwa [handleData_state] at h), ?_⟩
      rintro ⟨record, what, hmem, -⟩
      rcases handleData_out hmem with ⟨termId, did, he⟩
      cases he
    · refine ⟨fun h => .inl (handleResize_live h), ?_⟩
      rintro ⟨record, what, hmem, -⟩
      rcases handleResize_out hmem with ⟨termId, did, he⟩
      cases he
    · exact ⟨.inl, fun ⟨_, _, hmem, _⟩ => absurd hmem List.not_mem_nil⟩

/-- The answers that the sender of a message gets: to an open, and to a list. -/
theorem handleMessage_answers {s : HostedTerminals} {a : TerminalArrival} {m : Bytes}
    (h : .sent a.from_ m ∈ (s.handleMessage a).2) :
    (∃ request ack, readTermMessage a.message = some (.open request) ∧
        m = (buildTermOpenAck kMaxDatagram ack).getD []) ∨
      ∃ sessions, m = (buildTermListAck kMaxDatagram sessions).getD [] := by
  unfold handleMessage at h
  split at h
  · cases h
  · split at h
    · right
      cases List.mem_singleton.mp h
      exact ⟨_, rfl⟩
    · rcases handleClose_out h with ⟨peer, m', hpeer, he⟩ | ⟨r, he⟩ | he
      · cases he
        exact absurd rfl hpeer
      · cases he
      · cases he
    · next request hread =>
      rcases handleOpen_cases s a request with ⟨extra, ack, hopening, hout⟩
      left
      refine ⟨request, ack, hread, ?_⟩
      rw [hout] at h
      generalize (s.handleOpen a request).1 = after at hopening
      rcases List.mem_append.mp h with hextra | hanswer
      · cases hopening with
        | refused => cases hextra
        | failed => cases hextra
        | made hnew hid hsize hpushed hway => exact absurd hextra (hway.quiet _ _)
        | lost => cases hextra
        | back hshell hmem hold hback hway => exact absurd hextra (hway.quiet _ _)
      · simpa using hanswer
    · rcases handleData_out h with ⟨termId, did, he⟩
      cases he
    · rcases handleResize_out h with ⟨termId, did, he⟩
      cases he
    · cases h

@[simp] theorem running_closeShell (s : HostedTerminals) (termId exitCode : UInt32) (tell : Bool) :
    (s.closeShell termId exitCode tell).1.running = s.running := by
  rcases closeShell_cases s termId exitCode tell with ⟨-, hsame⟩ | ⟨shell, -, hclosed, -⟩
  · rw [hsame]
  · rw [hclosed]

@[simp] theorem running_handleMessage (s : HostedTerminals) (a : TerminalArrival) :
    (s.handleMessage a).1.running = s.running := by
  unfold handleMessage
  split
  · rfl
  · split
    · rfl
    · unfold handleClose
      dsimp only
      split
      · rfl
      · exact running_closeShell s _ 0 _
    · next request _ =>
      rcases handleOpen_cases s a request with ⟨extra, ack, hopening, -⟩
      generalize (s.handleOpen a request).1 = after at hopening ⊢
      cases hopening <;> rfl
    · rw [handleData_state]
    · unfold handleResize
      dsimp only
      split
      · rfl
      · split
        · rfl
        · rfl
    · rfl

/-! ## Runs -/

/-- A message that would make a record finds its id unused. -/
def TakesFreeId (s : HostedTerminals) (_ : List HostedTerminalsEvent) :
    HostedTerminalsCall → Prop
  | .message a => ∀ request, readTermMessage a.message = some (.open request) → FreeId s a request
  | _ => True

theorem handleMessage_cases (s : HostedTerminals) (a : TerminalArrival) :
    Shrinks s (s.handleMessage a).1 ∨
      ∃ request, readTermMessage a.message = some (.open request) ∧
        s.handleMessage a = s.handleOpen a request := by
  unfold handleMessage
  split
  · exact .inl (.refl s)
  · split
    · exact .inl (.refl s)
    · exact .inl (handleClose_shrinks s _ _)
    · next request hread => exact .inr ⟨request, hread, rfl⟩
    · left
      rw [handleData_state]
      exact .refl s
    · exact .inl (handleResize_shrinks s _ _ _)
    · exact .inl (.refl s)

/-- Every call but a message only lets records and shells go. -/
theorem step_shrinks (s : HostedTerminals) (call : HostedTerminalsCall)
    (hcall : ∀ a, call ≠ .message a) : Shrinks s (hostedTerminals.step s call).1 := by
  cases call with
  | start => exact start_shrinks s
  | stop => exact stop_shrinks s
  | message a => exact absurd rfl (hcall a)
  | gone peer nowUs => exact drainGone_shrinks s peer nowUs
  | kick termId => exact closeShell_shrinks s termId 0 true
  | pump nowUs io => exact pumpShells_shrinks s nowUs io
  | attachLocal termId => exact attachLocal_shrinks s termId
  | closeLocal termId => exact closeLocal_shrinks s termId
  | resizeLocal termId size => exact resizeLocal_shrinks s termId size

theorem Kept.message {s : HostedTerminals} (h : Kept s) (a : TerminalArrival) :
    Kept (s.handleMessage a).1 := by
  rcases handleMessage_cases s a with hs | ⟨request, -, heq⟩
  · exact h.shrink hs
  · rw [heq]
    rcases handleOpen_cases s a request with ⟨extra, ack, hopening, -⟩
    exact (hopening.kept h).1

theorem Matched.message {s : HostedTerminals} (h : Matched s) {a : TerminalArrival}
    (hfree : ∀ request, readTermMessage a.message = some (.open request) → FreeId s a request) :
    Matched (s.handleMessage a).1 := by
  rcases handleMessage_cases s a with hs | ⟨request, hread, heq⟩
  · exact h.shrink hs
  · rw [heq]
    rcases handleOpen_cases s a request with ⟨extra, ack, hopening, -⟩
    exact hopening.matched (hfree request hread) h

theorem kept_run (calls : List HostedTerminalsCall) : Kept (hostedTerminals.run {} calls).1 := by
  refine Machine.run_invariant' (fun s _ => Kept s) ?_ ?_ calls
  · exact ⟨by decide, nofun, nofun⟩
  · intro s _ call h
    by_cases hcall : ∃ a, call = .message a
    · rcases hcall with ⟨a, rfl⟩
      exact h.message a
    · exact h.shrink (step_shrinks s call fun a ha => hcall ⟨a, ha⟩)

theorem matched_run {calls : List HostedTerminalsCall}
    (hfree : hostedTerminals.Along TakesFreeId {} calls) :
    Matched (hostedTerminals.run {} calls).1 := by
  refine Machine.run_invariant (fun s _ => Matched s) TakesFreeId ?_ ?_ calls hfree
  · exact ⟨Inv.init, nofun, nofun⟩
  · intro s _ call hcond h
    by_cases hcall : ∃ a, call = .message a
    · rcases hcall with ⟨a, rfl⟩
      exact h.message hcond
    · exact h.shrink (step_shrinks s call fun a ha => hcall ⟨a, ha⟩)

end HostedTerminals

end Deskhub
