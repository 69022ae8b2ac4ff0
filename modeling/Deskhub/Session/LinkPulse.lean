import Deskhub.Lib.Machine
import Deskhub.Protocol.Wire.Control
import Mathlib.Data.Fintype.Basic
import Mathlib.Data.List.Nodup

/-!
# The pulse of a link

`LinkPulse`: the pings that went out, which of them were answered, and since when the other side
has been silent. Time in which the loop that ticks was not running is not counted as silence.
-/

namespace Deskhub

def kLinkPingIntervalUs : UInt64 := 1000000
def kLinkStallAfterUs : UInt64 := 5000000
def kLinkWatchStepUs : UInt64 := 250000
def kLinkPingWindow : Nat := 10

structure SentPing where
  pingId : UInt32 := 0
  sentUs : UInt64 := 0
  answered : Bool := false
deriving DecidableEq, Repr

structure LinkPulse where
  sent : Fin kLinkPingWindow → SentPing := fun _ => {}
  nextPingId : UInt32 := 1
  lastTickUs : UInt64 := 0
  lastPingUs : UInt64 := 0
  lastPongUs : UInt64 := 0
  answeredOnce : Bool := false
deriving DecidableEq

namespace LinkPulse

/-- The place of a ping in the ring. -/
def slotOf (pingId : UInt32) : Fin kLinkPingWindow :=
  ⟨pingId.toNat % kLinkPingWindow, Nat.mod_lt _ (by decide)⟩

def reset (_ : LinkPulse) : LinkPulse := {}

def tick (s : LinkPulse) (nowUs : UInt64) : LinkPulse :=
  let lastUs := s.lastTickUs
  let s := { s with lastTickUs := nowUs }
  if lastUs = 0 ∨ nowUs ≤ lastUs then s
  else if s.lastPongUs = 0 ∨ nowUs ≤ s.lastPongUs then s
  else
    let sinceUs := nowUs - lastUs
    if sinceUs ≤ kLinkWatchStepUs then s
    else
      let unwatchedUs := sinceUs - kLinkWatchStepUs
      let silentUs := nowUs - s.lastPongUs
      { s with lastPongUs := if silentUs ≤ unwatchedUs then nowUs else s.lastPongUs + unwatchedUs }

def pingDue (s : LinkPulse) (nowUs : UInt64) : Bool :=
  s.lastPingUs = 0 ∨ kLinkPingIntervalUs ≤ nowUs - s.lastPingUs

def makePing (s : LinkPulse) (nowUs : UInt64) : LinkPulse × PingPong :=
  let ping : PingPong := ⟨s.nextPingId, nowUs⟩
  ({ s with
      nextPingId := s.nextPingId + 1
      sent := fun slot => if slot = slotOf ping.pingId then ⟨ping.pingId, nowUs, false⟩ else s.sent slot
      lastPingUs := nowUs },
    ping)

def onPong (s : LinkPulse) (pong : PingPong) (nowUs : UInt64) : LinkPulse :=
  let slot := s.sent (slotOf pong.pingId)
  if slot.pingId ≠ pong.pingId ∨ slot.answered then s
  else if slot.sentUs ≠ pong.sendTimeUs ∨ nowUs < slot.sentUs then s
  else
    { s with
      sent := fun i => if i = slotOf pong.pingId then { slot with answered := true } else s.sent i
      lastPongUs := nowUs
      answeredOnce := true }

def stalled (s : LinkPulse) (nowUs : UInt64) : Bool :=
  s.answeredOnce ∧ kLinkStallAfterUs < nowUs - s.lastPongUs

end LinkPulse

/-! ## Runs -/

inductive LinkPulseCall where
  | reset
  | tick (nowUs : UInt64)
  | makePing (nowUs : UInt64)
  | onPong (pong : PingPong) (nowUs : UInt64)
deriving DecidableEq, Repr

/-- The time a call is given. -/
def LinkPulseCall.time? : LinkPulseCall → Option UInt64
  | .reset => none
  | .tick nowUs => some nowUs
  | .makePing nowUs => some nowUs
  | .onPong _ nowUs => some nowUs

/-- What an observer writes down; a pong counts when it changes the state. -/
inductive LinkPulseEvent where
  | reset
  | ticked (nowUs : UInt64)
  | pinged (ping : PingPong)
  | counted (pong : PingPong) (nowUs : UInt64)
deriving DecidableEq, Repr

def linkPulse : Machine LinkPulse LinkPulseCall LinkPulseEvent where
  step s
    | .reset => (s.reset, [.reset])
    | .tick nowUs => (s.tick nowUs, [.ticked nowUs])
    | .makePing nowUs =>
        let (s, ping) := s.makePing nowUs
        (s, [.pinged ping])
    | .onPong pong nowUs =>
        (s.onPong pong nowUs, if s.onPong pong nowUs = s then [] else [.counted pong nowUs])

/-- Since the last reset: the ticks, the pings, and the pongs that counted with their times. -/
structure PulseLog where
  ticks : List UInt64 := []
  pings : List PingPong := []
  counted : List (PingPong × UInt64) := []
deriving DecidableEq, Repr

def PulseLog.record (l : PulseLog) : LinkPulseEvent → PulseLog
  | .reset => {}
  | .ticked nowUs => { l with ticks := l.ticks ++ [nowUs] }
  | .pinged ping => { l with pings := l.pings ++ [ping] }
  | .counted pong nowUs => { l with counted := l.counted ++ [(pong, nowUs)] }

def pulseLog (out : List LinkPulseEvent) : PulseLog := out.foldl PulseLog.record {}

theorem pulseLog_concat (out : List LinkPulseEvent) (e : LinkPulseEvent) :
    pulseLog (out ++ [e]) = (pulseLog out).record e := by
  unfold pulseLog
  rw [List.foldl_append, List.foldl_cons, List.foldl_nil]

namespace LinkPulse

/-- A tick leaves the pings alone. -/
theorem tick_keeps (s : LinkPulse) (nowUs : UInt64) :
    (s.tick nowUs).sent = s.sent ∧ (s.tick nowUs).nextPingId = s.nextPingId ∧
      (s.tick nowUs).answeredOnce = s.answeredOnce := by
  unfold tick
  dsimp only
  split
  · exact ⟨rfl, rfl, rfl⟩
  · split
    · exact ⟨rfl, rfl, rfl⟩
    · split <;> exact ⟨rfl, rfl, rfl⟩

/-- A pong that is looked for in its slot, was not answered there, and left in time. -/
def Matches (s : LinkPulse) (pong : PingPong) (nowUs : UInt64) : Prop :=
  s.sent (slotOf pong.pingId) = ⟨pong.pingId, pong.sendTimeUs, false⟩ ∧ pong.sendTimeUs ≤ nowUs

/-- What a pong does: nothing, unless it matches. -/
theorem onPong_cases (s : LinkPulse) (pong : PingPong) (nowUs : UInt64) :
    (¬ s.Matches pong nowUs ∧ s.onPong pong nowUs = s) ∨
      (s.Matches pong nowUs ∧ s.onPong pong nowUs ≠ s ∧
        s.onPong pong nowUs =
          { s with
            sent := fun i =>
              if i = slotOf pong.pingId then ⟨pong.pingId, pong.sendTimeUs, true⟩ else s.sent i
            lastPongUs := nowUs
            answeredOnce := true }) := by
  unfold onPong Matches
  dsimp only
  generalize hslot : s.sent (slotOf pong.pingId) = slot
  by_cases hother : slot.pingId ≠ pong.pingId ∨ slot.answered = true
  · rw [if_pos hother]
    left
    refine ⟨?_, rfl⟩
    rintro ⟨rfl, -⟩
    rcases hother with hid | hanswered
    · exact hid rfl
    · cases hanswered
  · rw [if_neg hother]
    by_cases hlate : slot.sentUs ≠ pong.sendTimeUs ∨ nowUs < slot.sentUs
    · rw [if_pos hlate]
      left
      refine ⟨?_, rfl⟩
      rintro ⟨rfl, hsent⟩
      rcases hlate with htime | hbefore
      · exact htime rfl
      · exact UInt64.not_lt.mpr hsent hbefore
    · rw [if_neg hlate]
      right
      simp only [not_or, not_not, Bool.not_eq_true] at hother hlate
      rcases hother with ⟨hid, hanswered⟩
      rcases hlate with ⟨htime, hbefore⟩
      have hexact : slot = ⟨pong.pingId, pong.sendTimeUs, false⟩ := by
        rw [← hid, ← htime, ← hanswered]
      subst hexact
      refine ⟨⟨rfl, UInt64.not_lt.mp hbefore⟩, ?_, rfl⟩
      intro hsame
      have hanswer := congrFun (congrArg LinkPulse.sent hsame) (slotOf pong.pingId)
      dsimp only at hanswer
      rw [if_pos rfl, hslot] at hanswer
      cases hanswer

end LinkPulse

/-!
## Only answers to its own pings move a pulse

The ring holds the last pings, each in the slot of its id, until 2^32 of them left since the last
reset. A slot that no ping has used yet is found by the pong whose fields are all zero.
-/

/-- A pong with the values of one of the last pings, which no pong has answered, that left by
`nowUs`. -/
def PulseLog.RealAnswer (l : PulseLog) (pong : PingPong) (nowUs : UInt64) : Prop :=
  pong ∈ l.pings.drop (l.pings.length - kLinkPingWindow) ∧ pong ∉ l.counted.map Prod.fst ∧
    pong.sendTimeUs ≤ nowUs

namespace LinkPulse

/-- What the ring holds: in each slot the last ping of the slot, answered if a pong counted for it,
and nothing as long as the slot had no ping. -/
def RingHolds (s : LinkPulse) (l : PulseLog) (slot : Fin kLinkPingWindow) : Prop :=
  (s.sent slot = {} ∧ ∀ k < l.pings.length, (k + 1) % kLinkPingWindow ≠ slot) ∨
    ∃ k ping, l.pings[k]? = some ping ∧ l.pings.length ≤ k + kLinkPingWindow ∧
      (k + 1) % kLinkPingWindow = slot ∧
      s.sent slot = ⟨ping.pingId, ping.sendTimeUs, decide (ping ∈ l.counted.map Prod.fst)⟩

/-- The pings are numbered from one on, and as long as the numbers last, the ring holds the last of
them. -/
structure Ring (s : LinkPulse) (l : PulseLog) : Prop where
  next : s.nextPingId = UInt32.ofNat (l.pings.length + 1)
  ids : ∀ k ping, l.pings[k]? = some ping → ping.pingId = UInt32.ofNat (k + 1)
  slots : l.pings.length < UInt32.size → ∀ slot, s.RingHolds l slot
  counted_mem : ∀ ping ∈ l.counted.map Prod.fst, ping ∈ l.pings
  counted_nodup : (l.counted.map Prod.fst).Nodup

theorem Ring.fresh : Ring {} {} where
  next := rfl
  ids k ping h := by cases h
  slots _ slot := .inl ⟨rfl, fun k hk => absurd hk (Nat.not_lt_zero k)⟩
  counted_mem ping h := by cases h
  counted_nodup := List.nodup_nil

theorem toNat_number {k : Nat} (h : k + 1 < UInt32.size) : (UInt32.ofNat (k + 1)).toNat = k + 1 := by
  rw [UInt32.toNat_ofNat']
  exact Nat.mod_eq_of_lt h

section

variable {s : LinkPulse} {l : PulseLog} (h : Ring s l)
include h

/-- The number of a ping, and its slot. -/
theorem Ring.number (hroom : l.pings.length < UInt32.size) {k : Nat} {ping : PingPong}
    (hping : l.pings[k]? = some ping) :
    ping.pingId.toNat = k + 1 ∧ (slotOf ping.pingId : Nat) = (k + 1) % kLinkPingWindow := by
  have hk := (List.getElem?_eq_some_iff.mp hping).1
  have hid : ping.pingId.toNat = k + 1 := by
    rw [h.ids k ping hping]
    exact toNat_number (by omega)
  exact ⟨hid, by show ping.pingId.toNat % _ = _; rw [hid]⟩

/-- Two pings with one number are one ping. -/
theorem Ring.same (hroom : l.pings.length < UInt32.size) {j k : Nat} {ping : PingPong}
    (hj : l.pings[j]? = some ping) (hk : l.pings[k]? = some ping) : j = k := by
  have hj' := (h.number hroom hj).1
  have hk' := (h.number hroom hk).1
  omega

/-- The ping that leaves takes the slot of its number. -/
theorem Ring.afterPing (nowUs : UInt64) :
    Ring (s.makePing nowUs).1 (l.record (.pinged (s.makePing nowUs).2)) := by
  have hlen : (l.record (.pinged (s.makePing nowUs).2)).pings.length = l.pings.length + 1 :=
    List.length_append
  have hpings : (l.record (.pinged (s.makePing nowUs).2)).pings =
      l.pings ++ [⟨s.nextPingId, nowUs⟩] := rfl
  refine ⟨?_, ?_, ?_, ?_, h.counted_nodup⟩
  · show s.nextPingId + 1 = _
    rw [hlen, h.next]
    exact (UInt32.ofNat_add (l.pings.length + 1) 1).symm
  · intro k ping hping
    rw [hpings] at hping
    rcases Nat.lt_trichotomy k l.pings.length with hlt | heq | hgt
    · rw [List.getElem?_append_left hlt] at hping
      exact h.ids k ping hping
    · rw [heq, List.getElem?_concat_length] at hping
      rw [← Option.some.inj hping, heq]
      exact h.next
    · rw [List.getElem?_eq_none (by rw [List.length_append]; exact hgt)] at hping
      cases hping
  · intro hroom slot
    rw [hlen] at hroom
    have hold : l.pings.length < UInt32.size := by omega
    have hnumber : s.nextPingId.toNat = l.pings.length + 1 := by
      rw [h.next]
      exact toNat_number hroom
    have hsent : (s.makePing nowUs).1.sent slot =
        if slot = slotOf s.nextPingId then ⟨s.nextPingId, nowUs, false⟩ else s.sent slot := rfl
    by_cases hslot : slot = slotOf s.nextPingId
    · right
      rw [if_pos hslot] at hsent
      refine ⟨l.pings.length, ⟨s.nextPingId, nowUs⟩, ?_, ?_, ?_, ?_⟩
      · rw [hpings, List.getElem?_concat_length]
      · rw [hlen]
        exact Nat.add_le_add_left (by decide) _
      · rw [hslot]
        show _ = s.nextPingId.toNat % _
        rw [hnumber]
      · rw [hsent]
        -- no pong counted for a number that was not given out
        have hnew : (⟨s.nextPingId, nowUs⟩ : PingPong) ∉ l.counted.map Prod.fst := by
          intro hcounted
          rcases List.mem_iff_getElem?.mp (h.counted_mem _ hcounted) with ⟨k, hk⟩
          have hk' := (h.number hold hk).1
          have hlt := (List.getElem?_eq_some_iff.mp hk).1
          dsimp only at hk'
          omega
        exact congrArg _ (decide_eq_false hnew).symm
    · rw [if_neg hslot] at hsent
      have hother : (l.pings.length + 1) % kLinkPingWindow ≠ slot := by
        intro heq
        apply hslot
        apply Fin.ext
        rw [← heq]
        show _ = s.nextPingId.toNat % _
        rw [hnumber]
      rcases h.slots hold slot with ⟨hblank, hnone⟩ | ⟨k, ping, hk, hnear, hmod, hheld⟩
      · left
        refine ⟨hsent.trans hblank, ?_⟩
        intro k hk
        rw [hlen] at hk
        rcases Nat.lt_or_eq_of_le (Nat.le_of_lt_succ hk) with hlt | heq
        · exact hnone k hlt
        · rw [heq]
          exact hother
      · right
        have hlt := (List.getElem?_eq_some_iff.mp hk).1
        refine ⟨k, ping, ?_, ?_, hmod, hsent.trans hheld⟩
        · rw [hpings, List.getElem?_append_left hlt]
          exact hk
        · rw [hlen]
          -- the ping a whole ring ago had the slot of the new one
          apply Nat.lt_of_le_of_ne hnear
          intro heq
          apply hother
          rw [heq, ← hmod]
          show (k + kLinkPingWindow + 1) % kLinkPingWindow = _
          rw [Nat.add_right_comm, Nat.add_mod_right]
  · intro ping hping
    exact List.mem_append_left _ (h.counted_mem ping hping)

/-- A pong that is found in the ring answers one of the last pings. -/
theorem Ring.matched (hroom : l.pings.length < UInt32.size) {pong : PingPong} {nowUs : UInt64}
    (hblank : pong = ⟨0, 0⟩ → kLinkPingWindow ≤ l.pings.length) (hmatch : s.Matches pong nowUs) :
    ∃ k : Nat, l.pings[k]? = some pong ∧ l.RealAnswer pong nowUs := by
  rcases hmatch with ⟨hslot, hsent⟩
  rcases h.slots hroom (slotOf pong.pingId) with ⟨hempty, hnone⟩ | ⟨k, ping, hk, hnear, -, hheld⟩
  · rw [hempty] at hslot
    have hid : 0 = pong.pingId := congrArg SentPing.pingId hslot
    have htime : 0 = pong.sendTimeUs := congrArg SentPing.sentUs hslot
    have hten := hblank (by cases pong; simp_all)
    refine absurd ?_ (hnone (kLinkPingWindow - 1) (Nat.lt_of_lt_of_le (by decide) hten))
    rw [← hid]
    rfl
  · rw [hheld] at hslot
    have hid : ping.pingId = pong.pingId := congrArg SentPing.pingId hslot
    have htime : ping.sendTimeUs = pong.sendTimeUs := congrArg SentPing.sentUs hslot
    have hopen := congrArg SentPing.answered hslot
    have hsame : ping = pong := by
      cases ping
      cases pong
      simp_all
    subst hsame
    refine ⟨k, hk, ?_, of_decide_eq_false hopen, hsent⟩
    rw [List.mem_iff_getElem?]
    refine ⟨k - (l.pings.length - kLinkPingWindow), ?_⟩
    rw [List.getElem?_drop, Nat.add_sub_cancel' (by omega)]
    exact hk

/-- A pong that counts marks the slot of its ping. -/
theorem Ring.afterPong (hroom : l.pings.length < UInt32.size) {pong : PingPong} {nowUs : UInt64}
    (hblank : pong = ⟨0, 0⟩ → kLinkPingWindow ≤ l.pings.length) (hmatch : s.Matches pong nowUs) :
    Ring (s.onPong pong nowUs) (l.record (.counted pong nowUs)) := by
  rcases h.matched hroom hblank hmatch with ⟨k, hk, hreal⟩
  rcases onPong_cases s pong nowUs with ⟨hno, -⟩ | ⟨-, -, hcounted⟩
  · exact absurd hmatch hno
  rw [hcounted]
  have hmap : (l.record (.counted pong nowUs)).counted.map Prod.fst =
      l.counted.map Prod.fst ++ [pong] := List.map_append
  refine ⟨h.next, h.ids, ?_, ?_, ?_⟩
  · intro _ slot
    unfold RingHolds
    rw [hmap]
    by_cases hslot : slot = slotOf pong.pingId
    · right
      refine ⟨k, pong, hk, ?_, ?_, ?_⟩
      · rcases List.mem_iff_getElem?.mp hreal.1 with ⟨j, hj⟩
        rw [List.getElem?_drop] at hj
        have heq := h.same hroom hk hj
        show l.pings.length ≤ _
        omega
      · rw [hslot]
        exact (h.number hroom hk).2.symm
      · dsimp only
        rw [if_pos hslot]
        exact congrArg _ (decide_eq_true (by simp)).symm
    · dsimp only
      rw [if_neg hslot]
      rcases h.slots hroom slot with hempty | ⟨j, ping, hj, hnear, hmod, hheld⟩
      · exact .inl hempty
      · right
        refine ⟨j, ping, hj, hnear, hmod, ?_⟩
        have hother : ping ≠ pong := by
          intro heq
          apply hslot
          apply Fin.ext
          rw [← hmod, ← (h.number hroom hj).2, heq]
        rw [hheld]
        congr 1
        simp [hother]
  · rw [hmap]
    intro ping hping
    rcases List.mem_append.mp hping with hold | hnew
    · exact h.counted_mem ping hold
    · rw [List.mem_singleton.mp hnew]
      exact List.mem_of_getElem? hk
  · rw [hmap, List.nodup_append]
    refine ⟨h.counted_nodup, List.nodup_singleton pong, ?_⟩
    intro ping hping other hother heq
    rw [heq, List.mem_singleton.mp hother] at hping
    exact hreal.2.1 hping

end

/-! ## Runs -/

/-- A pong comes while the numbers last, and one with the values of an unused slot when every slot
was used. -/
def AnswersNumbered (_ : LinkPulse) (out : List LinkPulseEvent) : LinkPulseCall → Prop
  | .onPong pong _ =>
      (pong = ⟨0, 0⟩ → kLinkPingWindow ≤ (pulseLog out).pings.length) ∧
        (pulseLog out).pings.length < UInt32.size
  | _ => True

instance (s : LinkPulse) (out : List LinkPulseEvent) (c : LinkPulseCall) :
    Decidable (AnswersNumbered s out c) := by
  unfold AnswersNumbered
  split <;> infer_instance

theorem Ring.step {s : LinkPulse} {out : List LinkPulseEvent} {c : LinkPulseCall}
    (hcond : AnswersNumbered s out c) (h : Ring s (pulseLog out)) :
    Ring (linkPulse.step s c).1 (pulseLog (out ++ (linkPulse.step s c).2)) := by
  cases c with
  | reset =>
    show Ring {} (pulseLog (out ++ [.reset]))
    rw [pulseLog_concat]
    exact .fresh
  | tick nowUs =>
    show Ring (s.tick nowUs) (pulseLog (out ++ [.ticked nowUs]))
    rw [pulseLog_concat]
    rcases tick_keeps s nowUs with ⟨hsent, hnext, -⟩
    refine ⟨hnext.trans h.next, h.ids, ?_, h.counted_mem, h.counted_nodup⟩
    intro hroom slot
    unfold RingHolds
    rw [hsent]
    exact h.slots hroom slot
  | makePing nowUs =>
    show Ring (s.makePing nowUs).1 (pulseLog (out ++ [.pinged (s.makePing nowUs).2]))
    rw [pulseLog_concat]
    exact h.afterPing nowUs
  | onPong pong nowUs =>
    show Ring (s.onPong pong nowUs)
      (pulseLog (out ++ if s.onPong pong nowUs = s then [] else [.counted pong nowUs]))
    rcases onPong_cases s pong nowUs with ⟨-, hsame⟩ | ⟨hmatch, hchanged, -⟩
    · rw [if_pos hsame, hsame, List.append_nil]
      exact h
    · rw [if_neg hchanged, pulseLog_concat]
      exact h.afterPong hcond.2 hcond.1 hmatch

/-- The run lemma. -/
theorem ring_run (calls : List LinkPulseCall) (hcond : linkPulse.Along AnswersNumbered {} calls) :
    Ring (linkPulse.run {} calls).1 (pulseLog (linkPulse.run {} calls).2) :=
  Machine.run_invariant (fun s out => Ring s (pulseLog out)) AnswersNumbered Ring.fresh
    (fun _ _ _ hC h => h.step hC) calls hcond

/-- Only real answers count, each ping once. -/
theorem linkPulse_realAnswers (calls : List LinkPulseCall)
    (hcond : linkPulse.Along AnswersNumbered {} calls) :
    (∀ pre pong nowUs post, calls = pre ++ .onPong pong nowUs :: post →
      (linkPulse.run {} pre).1.onPong pong nowUs ≠ (linkPulse.run {} pre).1 →
      (pulseLog (linkPulse.run {} pre).2).RealAnswer pong nowUs) ∧
    ((pulseLog (linkPulse.run {} calls).2).counted.map Prod.fst).Nodup := by
  constructor
  · intro pre pong nowUs post hsplit hchanged
    rw [hsplit] at hcond
    rcases hcond pre _ post rfl with ⟨hblank, hroom⟩
    rcases onPong_cases (linkPulse.run {} pre).1 pong nowUs with ⟨-, hsame⟩ | ⟨hmatch, -⟩
    · exact absurd hsame hchanged
    · rcases (ring_run pre hcond.left).matched hroom hblank hmatch with ⟨k, -, hreal⟩
      exact hreal
  · exact (ring_run calls hcond).counted_nodup

/-- The first ping and its answer. -/
theorem linkPulse_realAnswers_one :
    (pulseLog (linkPulse.run {} [.tick 5, .makePing 5]).2).RealAnswer ⟨1, 5⟩ 9 :=
  (linkPulse_realAnswers [.tick 5, .makePing 5, .onPong ⟨1, 5⟩ 9] (by decide +kernel)).1
    [.tick 5, .makePing 5] ⟨1, 5⟩ 9 [] rfl (by decide +kernel)

/-- With no ping on its way, the pong whose fields are all zero is found in a slot. -/
theorem linkPulse_blankPong :
    ¬ ∀ (calls : List LinkPulseCall) (pong : PingPong) (nowUs : UInt64),
      (linkPulse.run {} calls).1.onPong pong nowUs ≠ (linkPulse.run {} calls).1 →
      (pulseLog (linkPulse.run {} calls).2).RealAnswer pong nowUs := by
  intro h
  rcases h [] ⟨0, 0⟩ 0 (by decide +kernel) with ⟨hmem, -⟩
  cases hmem

end LinkPulse

end Deskhub
