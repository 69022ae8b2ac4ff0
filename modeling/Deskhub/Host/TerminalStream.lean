import Deskhub.Host.TerminalHost

/-!
# The output of a shell reaches its peer whole

A ledger reads off the events of a shell what its peer is owed: the last repaint
and all that was read since. While the peer is not behind, what the transport took
and what is still queued are together exactly that.
-/

namespace Deskhub

/-- What the transport took since the last repaint, what the peer is owed since
then, and the size of that repaint. -/
structure PumpLedger where
  accepted : Bytes := []
  owed : Bytes := []
  painted : Nat := 0
deriving DecidableEq, Repr

namespace PumpLedger

def record (l : PumpLedger) : ShellEvent → PumpLedger
  | .opened | .reattached => {}
  | .sent _ message true =>
      match termData? message with
      | none => l
      | some data => { l with accepted := l.accepted ++ data }
  | .read bytes => { l with owed := l.owed ++ bytes }
  | .painted paint => { accepted := [], owed := paint, painted := paint.length }
  | _ => l

def recordAll (l : PumpLedger) (es : List ShellEvent) : PumpLedger := es.foldl record l

@[simp] theorem recordAll_nil (l : PumpLedger) : l.recordAll [] = l := rfl

@[simp] theorem recordAll_cons (l : PumpLedger) (e : ShellEvent) (es : List ShellEvent) :
    l.recordAll (e :: es) = (l.record e).recordAll es := rfl

@[simp] theorem recordAll_append (l : PumpLedger) (xs ys : List ShellEvent) :
    l.recordAll (xs ++ ys) = (l.recordAll xs).recordAll ys :=
  List.foldl_append

end PumpLedger

/-! ## Where a shell is shown does not change in a pump -/

namespace Shell

@[simp] theorem flushPending_local (termId : UInt32) (s : Shell) (answers : List Bool) :
    (flushPending termId s answers).1.local_ = s.local_ := by
  induction answers generalizing s with
  | nil =>
    unfold flushPending
    dsimp only
    split
    · rfl
    · split <;> rfl
  | cons answer answers ih =>
    unfold flushPending
    dsimp only
    split
    · rfl
    · split
      · rfl
      · cases answer with
        | false => rfl
        | true => exact ih _

@[simp] theorem queueForPeer_local (s : Shell) (bytes : Bytes) :
    (s.queueForPeer bytes).local_ = s.local_ := by
  unfold queueForPeer
  split
  · rfl
  · split <;> rfl

@[simp] theorem queueRepaint_local (s : Shell) (nowUs : UInt64) :
    (s.queueRepaint nowUs).1.local_ = s.local_ := by
  unfold queueRepaint
  split <;> rfl

@[simp] theorem takeOutput_local (s : Shell) (fresh : Bytes) :
    (s.takeOutput fresh).1.local_ = s.local_ := by
  unfold takeOutput
  dsimp only
  split
  · rfl
  · exact queueForPeer_local _ fresh

@[simp] theorem readRounds_local (rounds : Nat) (s : Shell) (reads : List PtyRead) :
    (readRounds rounds s reads).1.local_ = s.local_ := by
  induction rounds generalizing s reads with
  | zero => rfl
  | succ rounds ih =>
    cases reads with
    | nil => rfl
    | cons read reads =>
      cases read with
      | ended => rfl
      | nothing => rfl
      | got fresh =>
        show (readRounds rounds (s.takeOutput fresh).1 reads).1.local_ = s.local_
        rw [ih, takeOutput_local]

@[simp] theorem catchUp_local (termId : UInt32) (s : Shell) (answers : List Bool) (nowUs : UInt64) :
    (catchUp termId s answers nowUs).1.local_ = s.local_ := by
  unfold catchUp
  dsimp only
  split
  · rw [queueRepaint_local, flushPending_local]
  · exact flushPending_local termId s answers

/-- The report changes nothing but its own counters. -/
theorem reportShell_eq (s : Shell) (nowUs : UInt64) :
    s.reportShell nowUs = { s with
      reportedAtUs := (s.reportShell nowUs).reportedAtUs
      reportedBytes := (s.reportShell nowUs).reportedBytes } := by
  unfold reportShell
  split
  · rfl
  · dsimp only
    split <;> rfl

@[simp] theorem pump_local (termId : UInt32) (s : Shell) (io : PumpIo) (nowUs : UInt64) :
    (pump termId s io nowUs).1.local_ = s.local_ := by
  unfold pump
  dsimp only
  rw [reportShell_eq]
  cases hlocal : s.local_ <;> simp [hlocal]

end Shell

/-- A shell of a remote peer and what its ledger says. -/
structure InStream (s : Shell) (l : PumpLedger) : Prop where
  at_le : s.pendingAt ≤ s.pending.length
  whole : s.behind = false → l.accepted ++ s.pending.drop s.pendingAt = l.owed
  behind : s.behind = true → s.pending = []
  bounded : s.pending.length - s.pendingAt ≤ max kMaxPendingBytes l.painted

namespace InStream

/-- A shell that has fallen behind has nothing queued. -/
theorem fallen {s : Shell} {l : PumpLedger} (hbehind : s.behind = true) (hpending : s.pending = [])
    (hat : s.pendingAt = 0) : InStream s l := by
  refine ⟨by omega, ?_, fun _ => hpending, ?_⟩
  · intro hnot
    rw [hbehind] at hnot
    cases hnot
  · rw [hpending, hat]
    exact Nat.zero_le _

/-- The queue that was sent to its end is cleared. -/
theorem clear {s : Shell} {l : PumpLedger} (h : InStream s l)
    (hall : s.pending.length ≤ s.pendingAt) : InStream s.clearPending l := by
  refine ⟨Nat.le_refl _, ?_, fun _ => rfl, Nat.zero_le _⟩
  intro hbehind
  have := h.whole hbehind
  rwa [List.drop_eq_nil_of_le hall] at this

/-- A piece that was taken moves from the queue to what was accepted. -/
theorem take {s : Shell} {l : PumpLedger} (h : InStream s l) {n : Nat}
    (hn : n ≤ s.pending.length - s.pendingAt) (sentBytes : Nat) :
    InStream { s with sentBytes := sentBytes, pendingAt := s.pendingAt + n }
      { l with accepted := l.accepted ++ (s.pending.drop s.pendingAt).take n } := by
  have hat := h.at_le
  have hbounded := h.bounded
  refine ⟨?_, ?_, h.behind, ?_⟩
  · show s.pendingAt + n ≤ s.pending.length
    omega
  · intro hbehind
    show l.accepted ++ (s.pending.drop s.pendingAt).take n ++ s.pending.drop (s.pendingAt + n) = l.owed
    rw [← List.drop_drop, List.append_assoc, List.take_append_drop]
    exact h.whole hbehind
  · show s.pending.length - (s.pendingAt + n) ≤ max kMaxPendingBytes l.painted
    omega

/-- `FlushPending` by its two ways out and the turn of its loop. -/
theorem flush {s : Shell} {l : PumpLedger} (h : InStream s l) (termId : UInt32)
    (answers : List Bool) :
    InStream (Shell.flushPending termId s answers).1
      (l.recordAll (Shell.flushPending termId s answers).2.1) := by
  induction answers generalizing s l with
  | nil =>
    unfold Shell.flushPending
    dsimp only
    split
    · next hall => exact h.clear hall
    · split
      · exact fallen rfl rfl rfl
      · exact ⟨h.at_le, h.whole, h.behind, h.bounded⟩
  | cons answer answers ih =>
    unfold Shell.flushPending
    dsimp only
    split
    · next hall => exact h.clear hall
    · split
      · exact fallen rfl rfl rfl
      · next message hbuild =>
        cases answer with
        | false => exact ⟨h.at_le, h.whole, h.behind, h.bounded⟩
        | true =>
          have hnext := h.take (Nat.min_le_right kMaxTermDataBytes _)
            (s.sentBytes + min kMaxTermDataBytes (s.pending.length - s.pendingAt))
          have hrest := ih hnext
          simpa only [PumpLedger.recordAll_cons, PumpLedger.record, termData?_build hbuild] using hrest

/-- What was read is queued, or the peer falls behind. -/
theorem queue {s : Shell} {l : PumpLedger} (h : InStream s l) (bytes : Bytes) :
    InStream (s.queueForPeer bytes) { l with owed := l.owed ++ bytes } := by
  unfold Shell.queueForPeer
  cases hbehind : s.behind with
  | true =>
    rw [if_pos rfl]
    refine ⟨h.at_le, ?_, fun _ => h.behind hbehind, h.bounded⟩
    intro hnot
    cases hnot
  | false =>
    rw [if_neg (by simp)]
    have hwhole := h.whole hbehind
    have hat := h.at_le
    split
    · exact fallen rfl rfl rfl
    · next hfits =>
      refine ⟨?_, ?_, ?_, ?_⟩
      · show s.pendingAt ≤ (s.pending ++ bytes).length
        rw [List.length_append]
        omega
      · intro _
        show l.accepted ++ (s.pending ++ bytes).drop s.pendingAt = l.owed ++ bytes
        rw [List.drop_append_of_le_length hat, ← List.append_assoc, hwhole]
      · intro hbehind'
        cases hbehind'
      · show (s.pending ++ bytes).length - s.pendingAt ≤ max kMaxPendingBytes l.painted
        rw [List.length_append]
        omega

/-- A repaint starts the stream anew. -/
theorem repaint {s : Shell} {l : PumpLedger} (h : InStream s l) (nowUs : UInt64) :
    InStream (s.queueRepaint nowUs).1 (l.recordAll (s.queueRepaint nowUs).2) := by
  unfold Shell.queueRepaint
  split
  · exact h
  · dsimp only
    generalize renderScreen s.mirror = paint
    refine ⟨Nat.zero_le _, fun _ => rfl, ?_, ?_⟩
    · intro hbehind
      cases hbehind
    · show paint.length - 0 ≤ max kMaxPendingBytes paint.length
      omega

/-- The mirror and the counters do not matter to the stream. -/
theorem congr {s s' : Shell} {l : PumpLedger} (h : InStream s l) (hpending : s'.pending = s.pending)
    (hat : s'.pendingAt = s.pendingAt) (hbehind : s'.behind = s.behind) : InStream s' l := by
  refine ⟨?_, ?_, ?_, ?_⟩
  · rw [hpending, hat]
    exact h.at_le
  · rw [hpending, hat, hbehind]
    exact h.whole
  · rw [hpending, hbehind]
    exact h.behind
  · rw [hpending, hat]
    exact h.bounded

theorem takeOutput {s : Shell} {l : PumpLedger} (h : InStream s l) (hremote : s.local_ = false)
    (fresh : Bytes) : InStream (s.takeOutput fresh).1 (l.recordAll (s.takeOutput fresh).2) := by
  unfold Shell.takeOutput
  dsimp only
  rw [if_neg (by simp [hremote])]
  apply queue
  exact h.congr rfl rfl rfl

theorem readRounds {s : Shell} {l : PumpLedger} (h : InStream s l) (hremote : s.local_ = false)
    (rounds : Nat) (reads : List PtyRead) :
    InStream (Shell.readRounds rounds s reads).1
      (l.recordAll (Shell.readRounds rounds s reads).2.1) := by
  induction rounds generalizing s l reads with
  | zero => exact h
  | succ rounds ih =>
    cases reads with
    | nil => exact h
    | cons read reads =>
      cases read with
      | ended => exact h
      | nothing => exact h
      | got fresh =>
        have hone := h.takeOutput hremote fresh
        have hrest := ih hone (by rw [Shell.takeOutput_local, hremote]) reads
        simpa only [Shell.readRounds, PumpLedger.recordAll_append] using hrest

theorem catchUp {s : Shell} {l : PumpLedger} (h : InStream s l) (termId : UInt32)
    (answers : List Bool) (nowUs : UInt64) :
    InStream (Shell.catchUp termId s answers nowUs).1
      (l.recordAll (Shell.catchUp termId s answers nowUs).2) := by
  have hflush := h.flush termId answers
  unfold Shell.catchUp
  dsimp only
  split
  · rw [PumpLedger.recordAll_append]
    exact hflush.repaint nowUs
  · exact hflush

/-- One pump: the flush and the repaint, the reads, and the flush behind them. -/
theorem pump {s : Shell} {l : PumpLedger} (h : InStream s l) (hremote : s.local_ = false)
    (termId : UInt32) (io : PumpIo) (nowUs : UInt64) :
    InStream (Shell.pump termId s io nowUs).1
      (l.recordAll (Shell.pump termId s io nowUs).2.1) := by
  have hbefore := h.catchUp termId io.first nowUs
  have hread := hbefore.readRounds (by rw [Shell.catchUp_local, hremote]) kPumpRounds io.reads
  have hafter := hread.flush termId io.second
  unfold Shell.pump
  simp only [hremote, Shell.readRounds_local, Shell.catchUp_local, Bool.false_eq_true, if_false,
    PumpLedger.recordAll_append]
  rw [Shell.reportShell_eq]
  exact hafter.congr rfl rfl rfl

end InStream

/-! ## All shells -/

/-- The events of the shell `termId`. -/
def shellEvents (termId : UInt32) (out : List (UInt32 × ShellEvent)) : List ShellEvent :=
  (out.filter (fun p => p.1 = termId)).map Prod.snd

/-- The ledger of the shell `termId` over a run. -/
def pumpLedger (termId : UInt32) (out : List (UInt32 × ShellEvent)) : PumpLedger :=
  PumpLedger.recordAll {} (shellEvents termId out)

theorem shellEvents_append (termId : UInt32) (xs ys : List (UInt32 × ShellEvent)) :
    shellEvents termId (xs ++ ys) = shellEvents termId xs ++ shellEvents termId ys := by
  simp [shellEvents]

theorem pumpLedger_append (termId : UInt32) (xs ys : List (UInt32 × ShellEvent)) :
    pumpLedger termId (xs ++ ys) = (pumpLedger termId xs).recordAll (shellEvents termId ys) := by
  rw [pumpLedger, shellEvents_append, PumpLedger.recordAll_append]
  rfl

theorem shellEvents_own (termId : UInt32) (es : List ShellEvent) :
    shellEvents termId (es.map (fun e => (termId, e))) = es := by
  induction es with
  | nil => rfl
  | cons e es ih => simpa [shellEvents] using ih

theorem shellEvents_other {termId other : UInt32} (h : other ≠ termId) (es : List ShellEvent) :
    shellEvents termId (es.map (fun e => (other, e))) = [] := by
  induction es with
  | nil => rfl
  | cons e es ih => simp [shellEvents, h]

/-- Each shell's events, when each makes its own. -/
theorem shellEvents_flatMap {entries : List (UInt32 × Shell)}
    (hsorted : entries.Pairwise (fun p q => p.1 < q.1)) (f : UInt32 → Shell → List ShellEvent)
    {termId : UInt32} {shell : Shell} (hmem : (termId, shell) ∈ entries) :
    shellEvents termId (entries.flatMap (fun p => (f p.1 p.2).map (fun e => (p.1, e)))) =
      f termId shell := by
  have hnone : ∀ {rest : List (UInt32 × Shell)}, (∀ p ∈ rest, p.1 ≠ termId) →
      shellEvents termId (rest.flatMap (fun p => (f p.1 p.2).map (fun e => (p.1, e)))) = [] := by
    intro rest hrest
    induction rest with
    | nil => rfl
    | cons p rest ih =>
      rw [List.flatMap_cons, shellEvents_append, shellEvents_other (hrest p (by simp)),
        ih (fun q hq => hrest q (by simp [hq]))]
      rfl
  induction entries with
  | nil => cases hmem
  | cons p rest ih =>
    rw [List.pairwise_cons] at hsorted
    rw [List.flatMap_cons, shellEvents_append]
    rcases List.mem_cons.mp hmem with rfl | hmem
    · rw [shellEvents_own, hnone (fun q hq => (ne_of_gt (hsorted.1 q hq))), List.append_nil]
    · rw [shellEvents_other (ne_of_lt (hsorted.1 _ hmem)), ih hsorted.2 hmem]
      rfl

/-- The invariant of the host: each shell of a remote peer is in its stream. -/
def HostInStream (s : TerminalHost) (out : List (UInt32 × ShellEvent)) : Prop :=
  ∀ termId shell, s.shells.find? termId = some shell → shell.local_ = false →
    InStream shell (pumpLedger termId out)

namespace HostInStream

/-- A call on one shell. -/
theorem onShell {s : TerminalHost} {out : List (UInt32 × ShellEvent)} (h : HostInStream s out)
    (termId : UInt32) (f : Shell → Shell × List ShellEvent)
    (hf : ∀ shell l, (shell.local_ = false → InStream shell l) → (f shell).1.local_ = false →
      InStream (f shell).1 (l.recordAll (f shell).2)) :
    HostInStream (s.onShell termId f).1 (out ++ (s.onShell termId f).2) := by
  unfold TerminalHost.onShell
  cases hfind : s.shells.find? termId with
  | none => simpa using h
  | some shell =>
    intro termId' shell' hfind' hremote
    rw [pumpLedger_append]
    rw [OrdMap.Map.find?_insert] at hfind'
    by_cases hid : termId' = termId
    · subst hid
      rw [if_pos rfl] at hfind'
      obtain rfl := Option.some.inj hfind'
      rw [shellEvents_own]
      exact hf shell _ (h _ shell hfind) hremote
    · rw [if_neg hid] at hfind'
      rw [shellEvents_other (Ne.symm hid)]
      exact h termId' shell' hfind' hremote

/-- A shell that is closed is gone, and its exit is nothing of its stream. -/
theorem closeShell {s : TerminalHost} {out : List (UInt32 × ShellEvent)} (h : HostInStream s out)
    (termId exitCode : UInt32) (tellClient : Bool) :
    HostInStream (s.closeShell termId exitCode tellClient).1
      (out ++ (s.closeShell termId exitCode tellClient).2) := by
  unfold TerminalHost.closeShell
  cases hfind : s.shells.find? termId with
  | none => simpa using h
  | some shell =>
    intro termId' shell' hfind' hremote
    rw [OrdMap.Map.find?_erase] at hfind'
    by_cases hid : termId' = termId
    · rw [if_pos hid] at hfind'
      cases hfind'
    · rw [if_neg hid] at hfind'
      rw [pumpLedger_append, shellEvents_other (Ne.symm hid)]
      exact h termId' shell' hfind' hremote

theorem closeFinished {s : TerminalHost} {out : List (UInt32 × ShellEvent)} (h : HostInStream s out)
    (io : UInt32 → PumpIo) (finished : List UInt32) :
    HostInStream (s.closeFinished io finished).1 (out ++ (s.closeFinished io finished).2) := by
  induction finished generalizing s out with
  | nil => simpa [TerminalHost.closeFinished] using h
  | cons termId finished ih =>
    have hrest := ih (h.closeShell termId (io termId).exitCode true)
    simpa only [TerminalHost.closeFinished, List.append_assoc] using hrest

theorem pumpShells {s : TerminalHost} {out : List (UInt32 × ShellEvent)} (h : HostInStream s out)
    (nowUs : UInt64) (io : UInt32 → PumpIo) :
    HostInStream (s.pumpShells nowUs io).1 (out ++ (s.pumpShells nowUs io).2) := by
  unfold TerminalHost.pumpShells
  dsimp only
  rw [← List.append_assoc]
  apply closeFinished
  intro termId shell' hfind hremote
  -- the shell before the pump
  rw [OrdMap.Map.find?_mapVals, Option.map_eq_some_iff] at hfind
  rcases hfind with ⟨shell, hfind, rfl⟩
  have hmem := OrdMap.Map.find?_eq_some.mp hfind
  rw [pumpLedger_append, shellEvents_flatMap s.shells.sorted
    (fun termId shell => (shell.pump termId (io termId) nowUs).2.1) hmem]
  rw [Shell.pump_local] at hremote
  exact (h termId shell hfind hremote).pump hremote termId (io termId) nowUs

theorem openShell {s : TerminalHost} {out : List (UInt32 × ShellEvent)} (h : HostInStream s out)
    (termId : UInt32) (peer : NetAddr) (size : TermSize) :
    HostInStream (s.openShell termId peer size).1 (out ++ (s.openShell termId peer size).2) := by
  unfold TerminalHost.openShell
  split
  · simpa using h
  · intro termId' shell' hfind' hremote
    rw [OrdMap.Map.find?_insert] at hfind'
    by_cases hid : termId' = termId
    · subst hid
      rw [if_pos rfl] at hfind'
      obtain rfl := Option.some.inj hfind'
      rw [pumpLedger_append]
      simp only [shellEvents, List.filter_cons, decide_true, if_true, List.filter_nil, List.map_cons,
        List.map_nil, PumpLedger.recordAll_cons, PumpLedger.record]
      exact ⟨Nat.le_refl _, fun _ => rfl, fun _ => rfl, Nat.zero_le _⟩
    · rw [if_neg hid] at hfind'
      have hother : shellEvents termId' [(termId, .opened)] = [] :=
        shellEvents_other (Ne.symm hid) [.opened]
      rw [pumpLedger_append, hother]
      exact h termId' shell' hfind' hremote

theorem step {s : TerminalHost} {out : List (UInt32 × ShellEvent)} (h : HostInStream s out)
    (call : TerminalHostCall) :
    HostInStream (terminalHost.step s call).1 (out ++ (terminalHost.step s call).2) := by
  cases call with
  | pumpShells nowUs io => exact h.pumpShells nowUs io
  | openShell termId peer size => exact h.openShell termId peer size
  | reattach termId peer size =>
    apply h.onShell
    intro shell l _ _
    exact .fallen rfl rfl rfl
  | resize termId size =>
    apply h.onShell
    intro shell l hin hremote
    exact (hin hremote).congr rfl rfl rfl
  | resizeLocal termId size =>
    apply h.onShell
    intro shell l hin hremote
    cases hlocal : shell.local_ with
    | false =>
      simp only [Bool.false_eq_true, if_false]
      exact hin hlocal
    | true =>
      simp only [hlocal, if_true] at hremote
      exact absurd (hlocal.symm.trans hremote) (by simp)
  | attachLocal termId =>
    apply h.onShell
    intro shell l hin hremote
    cases hlocal : shell.local_ with
    | false =>
      simp only [hlocal, Bool.false_eq_true, if_false] at hremote
      cases hremote
    | true =>
      simp only [hlocal, if_true] at hremote
      cases hremote
  | closeShell termId exitCode tellClient => exact h.closeShell termId exitCode tellClient

end HostInStream

/-- While the peer of a shell is not behind, it gets what it is owed, in order, with
nothing missing and nothing twice; while it is behind nothing is queued; and the
queue is bounded. -/
theorem pumpShells_inStream (calls : List TerminalHostCall) {termId : UInt32} {shell : Shell}
    (hshell : (terminalHost.run {} calls).1.shells.find? termId = some shell)
    (hremote : shell.local_ = false) :
    let l := pumpLedger termId (terminalHost.run {} calls).2
    (shell.behind = false → l.accepted ++ shell.pending.drop shell.pendingAt = l.owed) ∧
    (shell.behind = true → shell.pending = [] ∧ ∀ bytes, (shell.queueForPeer bytes).pending = []) ∧
    shell.pending.length - shell.pendingAt ≤ max kMaxPendingBytes l.painted := by
  intro l
  have hinv : HostInStream (terminalHost.run {} calls).1 (terminalHost.run {} calls).2 := by
    refine Machine.run_invariant' HostInStream ?_ (fun s out call h => h.step call) calls
    intro termId shell hfind
    cases hfind
  have hin := hinv termId shell hshell hremote
  refine ⟨hin.whole, ?_, hin.bounded⟩
  intro hbehind
  refine ⟨hin.behind hbehind, ?_⟩
  intro bytes
  simp [Shell.queueForPeer, hbehind, hin.behind hbehind]

/-- A shell whose second piece of output is still queued. -/
def refusedRun : List TerminalHostCall :=
  [.openShell 1 ⟨1, 2⟩ ⟨2, 1⟩,
    .pumpShells 5 (fun _ => { reads := [.got (ascii "a"), .nothing], second := [true] }),
    .pumpShells 6 (fun _ => { reads := [.got (ascii "b"), .nothing], second := [false] })]

theorem pumpShells_inStream_refused :
    ∃ shell, (terminalHost.run {} refusedRun).1.shells.find? 1 = some shell ∧
      shell.pending = ascii "b" ∧
      (pumpLedger 1 (terminalHost.run {} refusedRun).2).accepted ++
        shell.pending.drop shell.pendingAt =
      (pumpLedger 1 (terminalHost.run {} refusedRun).2).owed := by
  have hsome : ∃ shell, (terminalHost.run {} refusedRun).1.shells.find? 1 = some shell ∧
      shell.local_ = false ∧ shell.behind = false ∧ shell.pending = ascii "b" := by
    refine ⟨_, rfl, ?_, ?_, ?_⟩ <;> decide +kernel
  rcases hsome with ⟨shell, hshell, hremote, hbehind, hpending⟩
  exact ⟨shell, hshell, hpending, (pumpShells_inStream refusedRun hshell hremote).1 hbehind⟩

end Deskhub
