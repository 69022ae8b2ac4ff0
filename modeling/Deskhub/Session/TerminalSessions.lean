import Deskhub.Auth.FailureLimiter
import Deskhub.Lib.Machine
import Deskhub.Protocol.Wire.Terminal
import Mathlib.Data.List.Nodup

/-!
# Terminal sessions

`TerminalSessions`: the host's record of every shell it shares, who is in it and how large
it is. A record outlives the link of its client, for the client to come back to.
-/

namespace Deskhub

def kMaxTerminalSessions : Nat := 8

structure TerminalRecord where
  termId : UInt32 := 0
  state : TerminalState := .live
  size : TermSize := {}
  clientName : Bytes := []
  clientEndpoint : Bytes := []
  clientFingerprint : Fingerprint := default
  detachedUs : UInt64 := 0
deriving DecidableEq

structure TerminalOpenRequest where
  message : TermOpen := {}
  endpoint : Bytes := []
  fingerprint : Fingerprint := default
deriving DecidableEq

structure TerminalSessions where
  sharing : Bool := false
  nextId : UInt32 := 1
  records : List TerminalRecord := []
deriving DecidableEq

namespace TerminalSessions

def find (s : TerminalSessions) (termId : UInt32) : Option TerminalRecord :=
  s.records.find? fun r => r.termId = termId

/-- A write through `Mutable`: to the first record of the id. -/
def update (termId : UInt32) (f : TerminalRecord → TerminalRecord) :
    List TerminalRecord → List TerminalRecord
  | [] => []
  | r :: rest => if r.termId = termId then f r :: rest else r :: update termId f rest

def closeAll (s : TerminalSessions) : TerminalSessions := { s with records := [] }

def setSharing (s : TerminalSessions) (on : Bool) : TerminalSessions :=
  let s := { s with sharing := on }
  if !on then s.closeAll else s

def refuse (reason : TermReason) : TermOpenAck := { reason := reason }

/-- The record as the client that comes back to it leaves it. -/
def resumed (request : TerminalOpenRequest) (r : TerminalRecord) : TerminalRecord :=
  { r with
    state := .live
    size := clampTermSize request.message.size
    detachedUs := 0
    clientName := request.message.clientName
    clientEndpoint := request.endpoint
    clientFingerprint := request.fingerprint }

/-- `nextId_++`, which passes over zero. -/
def idAfter (nextId : UInt32) : UInt32 := if nextId + 1 = 0 then 1 else nextId + 1

def «open» (s : TerminalSessions) (request : TerminalOpenRequest) : TerminalSessions × TermOpenAck :=
  if !s.sharing then (s, refuse .notShared)
  else if request.message.resumeId ≠ 0 then
    match s.find request.message.resumeId with
    | none => (s, refuse .noSuchSession)
    | some found =>
        if found.state ≠ .detached then (s, refuse .noSuchSession)
        else
          ({ s with records := update request.message.resumeId (resumed request) s.records },
            { termId := found.termId, resumed := true })
  else if kMaxTerminalSessions ≤ s.records.length then (s, refuse .tooManySessions)
  else
    let record : TerminalRecord :=
      { termId := s.nextId
        size := clampTermSize request.message.size
        clientName := request.message.clientName
        clientEndpoint := request.endpoint
        clientFingerprint := request.fingerprint }
    ({ s with nextId := idAfter s.nextId, records := s.records ++ [record] },
      { termId := record.termId })

def resize (s : TerminalSessions) (termId : UInt32) (size : TermSize) : TerminalSessions × Bool :=
  match s.find termId with
  | none => (s, false)
  | some _ =>
      ({ s with records := update termId (fun r => { r with size := clampTermSize size }) s.records },
        true)

def detach (s : TerminalSessions) (termId : UInt32) (nowUs : UInt64) : TerminalSessions × Bool :=
  match s.find termId with
  | none => (s, false)
  | some found =>
      if found.state ≠ .live then (s, false)
      else
        let detached (r : TerminalRecord) := { r with state := .detached, detachedUs := nowUs }
        ({ s with records := update termId detached s.records }, true)

def attachLocal (s : TerminalSessions) (termId : UInt32) : TerminalSessions × Bool :=
  match s.find termId with
  | none => (s, false)
  | some _ =>
      let attached (r : TerminalRecord) := { r with state := .local, detachedUs := 0 }
      ({ s with records := update termId attached s.records }, true)

/-- `Close`: every record of the id goes. -/
def close (s : TerminalSessions) (termId : UInt32) : TerminalSessions × Bool :=
  let kept := s.records.filter fun r => r.termId ≠ termId
  if kept.length = s.records.length then (s, false) else ({ s with records := kept }, true)

def list (s : TerminalSessions) : TermSessionList :=
  ⟨s.records.map fun r =>
    { termId := r.termId, state := r.state, size := r.size, clientName := r.clientName }⟩

/-! ## What the operations leave of a record -/

/-- The ids of the records. -/
def ids (s : TerminalSessions) : List UInt32 := s.records.map TerminalRecord.termId

/-- A write that keeps the id keeps all ids. -/
theorem ids_update (termId : UInt32) {f : TerminalRecord → TerminalRecord}
    (hid : ∀ r, (f r).termId = r.termId) (records : List TerminalRecord) :
    (update termId f records).map TerminalRecord.termId =
      records.map TerminalRecord.termId := by
  induction records with
  | nil => rfl
  | cons r rest ih =>
    rw [update]
    split
    · rw [List.map_cons, List.map_cons, hid]
    · rw [List.map_cons, List.map_cons, ih]

theorem length_update (termId : UInt32) (f : TerminalRecord → TerminalRecord)
    (records : List TerminalRecord) : (update termId f records).length = records.length := by
  induction records with
  | nil => rfl
  | cons r rest ih =>
    rw [update]
    split
    · rfl
    · rw [List.length_cons, List.length_cons, ih]

/-- A written record is an old one, or what `f` makes of one. -/
theorem mem_update {termId : UInt32} {f : TerminalRecord → TerminalRecord}
    {records : List TerminalRecord} {r : TerminalRecord} (h : r ∈ update termId f records) :
    r ∈ records ∨ ∃ old ∈ records, old.termId = termId ∧ r = f old := by
  induction records with
  | nil => cases h
  | cons first rest ih =>
    rw [update] at h
    split at h
    · next hid =>
      rcases List.mem_cons.mp h with rfl | hrest
      · exact .inr ⟨first, List.mem_cons_self, hid, rfl⟩
      · exact .inl (List.mem_cons_of_mem first hrest)
    · rcases List.mem_cons.mp h with rfl | hrest
      · exact .inl List.mem_cons_self
      · rcases ih hrest with hold | ⟨old, hmem, hid, heq⟩
        · exact .inl (List.mem_cons_of_mem first hold)
        · exact .inr ⟨old, List.mem_cons_of_mem first hmem, hid, heq⟩

end TerminalSessions

/-- What is done with the records, by the host or at a client's request. -/
inductive TerminalSessionsCall where
  | «open» (request : TerminalOpenRequest)
  | resize (termId : UInt32) (size : TermSize)
  | detach (termId : UInt32) (nowUs : UInt64)
  | attachLocal (termId : UInt32)
  | close (termId : UInt32)
  | setSharing (on : Bool)

/-- The records as a machine; an open is answered. -/
def terminalSessions : Machine TerminalSessions TerminalSessionsCall TermOpenAck where
  step s
    | .open request => ((s.open request).1, [(s.open request).2])
    | .resize termId size => ((s.resize termId size).1, [])
    | .detach termId nowUs => ((s.detach termId nowUs).1, [])
    | .attachLocal termId => ((s.attachLocal termId).1, [])
    | .close termId => ((s.close termId).1, [])
    | .setSharing on => (s.setSharing on, [])

/-!
## The ids of the terminal records

A record is known by its id. The ids come from a counter of 32 bits that passes over zero
when it wraps, but not over the ids still in use: the records stay distinguishable exactly
as long as no open takes the id of a record that is kept.
-/

namespace TerminalSessions

structure Distinguishable (s : TerminalSessions) : Prop where
  few : s.records.length ≤ kMaxTerminalSessions
  nonzero : ∀ r ∈ s.records, r.termId ≠ 0
  distinct : s.ids.Nodup
  sizes : ∀ r ∈ s.records, isValidTermSize r.size = true

/-- The id an accepted open hands out belongs to one record, and to none before when the
record is new. -/
def HandsOutOwnId (s : TerminalSessions) (request : TerminalOpenRequest) : Prop :=
  (s.open request).2.reason = .accepted →
    (s.open request).1.ids.count (s.open request).2.termId = 1 ∧
      ((s.open request).2.resumed = false → (s.open request).2.termId ∉ s.ids)

/-- The call makes a new record. -/
def makesRecord (s : TerminalSessions) : TerminalSessionsCall → Bool
  | .open request =>
      s.sharing && request.message.resumeId = 0 && s.records.length < kMaxTerminalSessions
  | _ => false

/-- A new record finds the next id unused. -/
def TakesFreeId (s : TerminalSessions) (_ : List TermOpenAck) (call : TerminalSessionsCall) : Prop :=
  s.makesRecord call = true → s.nextId ∉ s.ids

/-- Along the whole run the records are told apart by their ids. -/
def IdsStayApart (calls : List TerminalSessionsCall) : Prop :=
  ∀ before call after, calls = before ++ call :: after →
    Distinguishable (terminalSessions.step (terminalSessions.run {} before).1 call).1 ∧
      ∀ request, call = .open request → HandsOutOwnId (terminalSessions.run {} before).1 request

/-- What every call keeps that finds the next id unused. -/
structure Inv (s : TerminalSessions) : Prop extends Distinguishable s where
  next : s.nextId ≠ 0

theorem idAfter_ne_zero (nextId : UInt32) : idAfter nextId ≠ 0 := by
  unfold idAfter
  split
  · decide
  · assumption

theorem isValidTermSize_clamp (size : TermSize) : isValidTermSize (clampTermSize size) = true :=
  (getTermSize_put size []).2

theorem Inv.init : Inv {} := by
  refine ⟨⟨?_, ?_, ?_, ?_⟩, by decide⟩
  · exact Nat.zero_le _
  · intro r hr
    cases hr
  · exact List.nodup_nil
  · intro r hr
    cases hr

/-! ## One call -/

/-- A write that keeps the ids and leaves valid sizes. -/
theorem Inv.write {s : TerminalSessions} (h : Inv s) (termId : UInt32)
    {f : TerminalRecord → TerminalRecord} (hid : ∀ r, (f r).termId = r.termId)
    (hsize : ∀ r, isValidTermSize r.size = true → isValidTermSize (f r).size = true) :
    Inv { s with records := update termId f s.records } := by
  refine ⟨⟨?_, ?_, ?_, ?_⟩, h.next⟩
  · exact (length_update termId f s.records).trans_le h.few
  · intro r hr
    rcases mem_update hr with hold | ⟨old, hmem, -, rfl⟩
    · exact h.nonzero r hold
    · rw [hid]
      exact h.nonzero old hmem
  · unfold ids
    rw [ids_update termId hid]
    exact h.distinct
  · intro r hr
    rcases mem_update hr with hold | ⟨old, hmem, -, rfl⟩
    · exact h.sizes r hold
    · exact hsize old (h.sizes old hmem)

theorem Inv.shorter {s : TerminalSessions} (h : Inv s) {records : List TerminalRecord}
    (hsub : records.Sublist s.records) (sharing : Bool) :
    Inv { s with sharing := sharing, records := records } := by
  refine ⟨⟨?_, ?_, ?_, ?_⟩, h.next⟩
  · exact hsub.length_le.trans h.few
  · intro r hr
    exact h.nonzero r (hsub.subset hr)
  · exact h.distinct.sublist (hsub.map _)
  · intro r hr
    exact h.sizes r (hsub.subset hr)

/-- What an open does: it refuses, or comes back to a record, or makes one. -/
theorem open_cases (s : TerminalSessions) (request : TerminalOpenRequest) :
    (s.makesRecord (.open request) = false ∧ (s.open request).1 = s ∧
        (s.open request).2.reason ≠ .accepted) ∨
      (s.makesRecord (.open request) = false ∧ request.message.resumeId ∈ s.ids ∧
        (s.open request).1 =
          { s with
            records := update request.message.resumeId (resumed request) s.records } ∧
        (s.open request).2 = { termId := request.message.resumeId, resumed := true }) ∨
      (s.makesRecord (.open request) = true ∧ (s.open request).2 = { termId := s.nextId } ∧
        ∃ record : TerminalRecord, record.termId = s.nextId ∧
          record.size = clampTermSize request.message.size ∧
          (s.open request).1 =
            { s with nextId := idAfter s.nextId, records := s.records ++ [record] }) := by
  have hmakes : s.makesRecord (.open request) = (s.sharing && request.message.resumeId = 0 &&
      s.records.length < kMaxTerminalSessions) := rfl
  rw [hmakes]
  unfold TerminalSessions.open
  by_cases hsharing : s.sharing = true
  · rw [if_neg (by simp [hsharing])]
    by_cases hresume : request.message.resumeId = 0
    · rw [if_neg (not_not.mpr hresume)]
      by_cases hfull : kMaxTerminalSessions ≤ s.records.length
      · rw [if_pos hfull]
        left
        exact ⟨by simp [Nat.not_lt.mpr hfull], rfl, nofun⟩
      · rw [if_neg hfull]
        right
        right
        refine ⟨by simp [hsharing, hresume, Nat.not_le.mp hfull], rfl, _, ?_, ?_, rfl⟩
        · rfl
        · rfl
    · rw [if_pos hresume]
      have hnone : (s.sharing && decide (request.message.resumeId = 0) &&
          decide (s.records.length < kMaxTerminalSessions)) = false := by simp [hresume]
      rw [hnone]
      cases hfind : s.find request.message.resumeId with
      | none =>
        left
        exact ⟨rfl, rfl, nofun⟩
      | some found =>
        have hfound : found.termId = request.message.resumeId := by
          simpa using List.find?_some hfind
        dsimp only
        by_cases hdetached : found.state = .detached
        · rw [if_neg (not_not.mpr hdetached)]
          right
          left
          refine ⟨rfl, ?_, rfl, ?_⟩
          · rw [← hfound]
            exact List.mem_map_of_mem (List.mem_of_find?_eq_some hfind)
          · rw [hfound]
        · rw [if_pos hdetached]
          left
          exact ⟨rfl, rfl, nofun⟩
  · rw [if_pos (by simpa using hsharing)]
    left
    exact ⟨by simp [hsharing], rfl, nofun⟩

theorem Inv.open {s : TerminalSessions} (h : Inv s) {request : TerminalOpenRequest}
    (hfree : s.makesRecord (.open request) = true → s.nextId ∉ s.ids) :
    Inv (s.open request).1 ∧ HandsOutOwnId s request := by
  rcases open_cases s request with ⟨-, hsame, hrefused⟩ | ⟨-, hmem, hback, hack⟩ |
    ⟨hnew, hack, record, hid, hsize, hpushed⟩
  · rw [hsame]
    exact ⟨h, fun haccepted => absurd haccepted hrefused⟩
  · have hnext := h.write request.message.resumeId (f := resumed request) (fun r => rfl)
      (fun r _ => isValidTermSize_clamp request.message.size)
    unfold HandsOutOwnId
    rw [hback, hack]
    refine ⟨hnext, fun _ => ⟨?_, nofun⟩⟩
    refine List.count_eq_one_of_mem hnext.distinct ?_
    unfold ids
    rw [ids_update _ (f := resumed request) (fun r => rfl)]
    exact hmem
  · have hnotin := hfree hnew
    have hroom : s.records.length < kMaxTerminalSessions := by
      simp only [makesRecord, Bool.and_eq_true, decide_eq_true_eq] at hnew
      exact hnew.2
    have hids : (s.open request).1.ids = s.ids ++ [s.nextId] := by
      rw [hpushed, ← hid]
      exact List.map_append
    have hdistinct : (s.open request).1.ids.Nodup := by
      rw [hids, List.nodup_append]
      refine ⟨h.distinct, List.nodup_singleton _, ?_⟩
      rintro a ha b hb rfl
      rw [List.mem_singleton] at hb
      exact hnotin (hb ▸ ha)
    constructor
    · refine ⟨⟨?_, ?_, hdistinct, ?_⟩, ?_⟩
      · rw [hpushed, List.length_append]
        exact hroom
      · rw [hpushed]
        intro r hr
        rcases List.mem_append.mp hr with hold | hnew
        · exact h.nonzero r hold
        · rw [List.mem_singleton.mp hnew, hid]
          exact h.next
      · rw [hpushed]
        intro r hr
        rcases List.mem_append.mp hr with hold | hnew
        · exact h.sizes r hold
        · rw [List.mem_singleton.mp hnew, hsize]
          exact isValidTermSize_clamp _
      · rw [hpushed]
        exact idAfter_ne_zero s.nextId
    · intro _
      rw [hack]
      refine ⟨List.count_eq_one_of_mem hdistinct ?_, fun _ => hnotin⟩
      rw [hids]
      exact List.mem_append_right _ (List.mem_singleton.mpr rfl)

theorem Inv.step {s : TerminalSessions} (h : Inv s) {call : TerminalSessionsCall}
    (hfree : s.makesRecord call = true → s.nextId ∉ s.ids) :
    Inv (terminalSessions.step s call).1 := by
  cases call with
  | «open» request => exact (h.open hfree).1
  | resize termId size =>
    change Inv (s.resize termId size).1
    unfold resize
    split
    · exact h
    · exact h.write termId (fun r => rfl) (fun r _ => isValidTermSize_clamp size)
  | detach termId nowUs =>
    change Inv (s.detach termId nowUs).1
    unfold detach
    split
    · exact h
    · split
      · exact h
      · exact h.write termId (fun r => rfl) (fun r hr => hr)
  | attachLocal termId =>
    change Inv (s.attachLocal termId).1
    unfold attachLocal
    split
    · exact h
    · exact h.write termId (fun r => rfl) (fun r hr => hr)
  | close termId =>
    change Inv (s.close termId).1
    unfold close
    dsimp only
    split
    · exact h
    · exact h.shorter List.filter_sublist s.sharing
  | setSharing on =>
    change Inv (s.setSharing on)
    unfold setSharing closeAll
    dsimp only
    split
    · exact h.shorter (List.nil_sublist _) on
    · exact h.shorter (List.Sublist.refl _) on

/-! ## Runs -/

theorem Inv.run {calls : List TerminalSessionsCall}
    (h : terminalSessions.Along TakesFreeId {} calls) : Inv (terminalSessions.run {} calls).1 := by
  refine Machine.run_invariant (fun s _ => Inv s) TakesFreeId Inv.init ?_ calls h
  intro s out call hfree hinv
  exact hinv.step hfree

/-- So many shells opened and closed again, the first of them under id 2. -/
def rounds (n : Nat) : List TerminalSessionsCall :=
  (List.range n).flatMap fun k => [.open {}, .close (UInt32.ofNat (k + 2))]

/-- The id after that many rounds. -/
def idAfterRounds (n : Nat) : UInt32 := if n < 4294967294 then UInt32.ofNat (n + 2) else 1

/-- The state with the first shell open, as the rounds leave it. -/
def besideFirst (nextId : UInt32) : TerminalSessions :=
  { sharing := true, nextId := nextId, records := [{ termId := 1 }] }

theorem toNat_idAfterRounds {n : Nat} (h : n < 4294967294) : (idAfterRounds n).toNat = n + 2 := by
  rw [idAfterRounds, if_pos h, UInt32.toNat_ofNat', Nat.mod_eq_of_lt (by omega)]

theorem idAfter_idAfterRounds {n : Nat} (h : n < 4294967294) :
    idAfter (idAfterRounds n) = idAfterRounds (n + 1) := by
  have hid := toNat_idAfterRounds h
  have hone : (1 : UInt32).toNat = 1 := rfl
  unfold idAfter
  by_cases hlast : n + 1 < 4294967294
  · have hsum : idAfterRounds n + 1 = idAfterRounds (n + 1) := by
      apply UInt32.toNat_inj.mp
      rw [UInt32.toNat_add, hid, hone, toNat_idAfterRounds hlast]
      exact Nat.mod_eq_of_lt (by omega)
    have hne : idAfterRounds (n + 1) ≠ 0 := by
      intro hzero
      have hpos := toNat_idAfterRounds hlast
      rw [hzero] at hpos
      cases hpos
    rw [hsum, if_neg hne]
  · have hzero : idAfterRounds n + 1 = 0 := by
      apply UInt32.toNat_inj.mp
      rw [UInt32.toNat_add, hid]
      have hn : n = 4294967293 := by omega
      subst hn
      rfl
    rw [if_pos hzero, idAfterRounds, if_neg hlast]

theorem run_rounds {n : Nat} (h : n ≤ 4294967294) :
    (terminalSessions.run (besideFirst 2) (rounds n)).1 = besideFirst (idAfterRounds n) := by
  induction n with
  | zero => rfl
  | succ n ih =>
    have hid : idAfterRounds n = UInt32.ofNat (n + 2) := by rw [idAfterRounds, if_pos (by omega)]
    have hone : (1 : UInt32) ≠ idAfterRounds n := by
      intro heq
      have htwo := toNat_idAfterRounds (show n < 4294967294 by omega)
      rw [← heq] at htwo
      change 1 = n + 2 at htwo
      omega
    have hopened : ((besideFirst (idAfterRounds n)).open {}).1 =
        { sharing := true
          nextId := idAfter (idAfterRounds n)
          records := [{ termId := 1 }, { termId := idAfterRounds n }] } := rfl
    rw [rounds, List.range_succ, List.flatMap_append, Machine.run_append]
    change (terminalSessions.run (terminalSessions.run (besideFirst 2) (rounds n)).1 _).1 = _
    rw [ih (by omega), List.flatMap_singleton, Machine.run_cons, Machine.run_cons]
    change ((((besideFirst (idAfterRounds n)).open {}).1).close (UInt32.ofNat (n + 2))).1 = _
    rw [hopened, ← hid, idAfter_idAfterRounds (by omega)]
    unfold close besideFirst
    simp [hone]

/-- One shell stays open while the counter comes round to its id. -/
theorem not_idsStayApart_rounds {n : Nat} (hn : n = 4294967294) :
    ¬ IdsStayApart ([.setSharing true, .open {}] ++ rounds n ++ [.open {}]) := by
  intro h
  have hwrapped : idAfterRounds n = 1 := by rw [idAfterRounds, if_neg (by omega)]
  have hround := run_rounds (n := n) (by omega)
  rw [hwrapped] at hround
  rcases h ([.setSharing true, .open {}] ++ rounds n) (.open {}) [] rfl with ⟨hnext, -⟩
  have hstart : (terminalSessions.run {} [.setSharing true, .open {}]).1 = besideFirst 2 := rfl
  have hdistinct := hnext.distinct
  rw [Machine.run_append, hstart, hround] at hdistinct
  change ([1, 1] : List UInt32).Nodup at hdistinct
  exact absurd hdistinct (by decide)

end TerminalSessions

end Deskhub
