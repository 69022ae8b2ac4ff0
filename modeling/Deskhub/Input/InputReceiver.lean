import Deskhub.Protocol.Wire.Input

/-!
# The receiver of input events

`InputReceiver`: applies the events of a message whose sequence numbers are beyond
the last one applied.
-/

namespace Deskhub

namespace InputReceiver

structure Stats where
  packets : Nat := 0
  applied : Nat := 0
  duplicates : Nat := 0
  lost : Nat := 0
deriving DecidableEq, Repr

end InputReceiver

structure InputReceiver where
  lastAppliedSeq : Int := -1
  stats : InputReceiver.Stats := {}
deriving DecidableEq, Repr

namespace InputReceiver

/-- The loop of `HandlePacket` from the event numbered `seq` on: the events it applies. -/
def applyFrom (r : InputReceiver) (seq : Int) : List InputEvent → InputReceiver × List InputEvent
  | [] => (r, [])
  | ev :: events =>
    if seq ≤ r.lastAppliedSeq then
      applyFrom { r with stats := { r.stats with duplicates := r.stats.duplicates + 1 } } (seq + 1)
        events
    else
      let lost := if 0 ≤ r.lastAppliedSeq ∧ r.lastAppliedSeq + 1 < seq then
          r.stats.lost + (seq - r.lastAppliedSeq - 1).toNat
        else r.stats.lost
      let rest := applyFrom
        { lastAppliedSeq := seq
          stats := { r.stats with applied := r.stats.applied + 1, lost := lost } } (seq + 1) events
      (rest.1, ev :: rest.2)

/-- `HandlePacket`: whether the payload is a message of events, and those it applies. -/
def handlePacket (r : InputReceiver) (payload : Bytes) :
    InputReceiver × Bool × List InputEvent :=
  match parseInputEvents payload kMaxInputEvents with
  | none => (r, false, [])
  | some (firstSeq, events) =>
    let counted := { r with stats := { r.stats with packets := r.stats.packets + 1 } }
    let rest := counted.applyFrom firstSeq.toNat events
    (rest.1, true, rest.2)

def reset (_ : InputReceiver) : InputReceiver := {}

/-- The loop applies what lies beyond the events applied so far. -/
theorem applyFrom_spec {r : InputReceiver} {next : Nat} (hnext : r.lastAppliedSeq + 1 = next)
    (first : Nat) {events : List InputEvent} (hne : events ≠ []) :
    (r.applyFrom first events).1.lastAppliedSeq + 1 =
        ((max next (first + events.length) : Nat) : Int) ∧
      (r.applyFrom first events).2 = events.drop (next - first) := by
  induction events generalizing r next first with
  | nil => exact absurd rfl hne
  | cons ev events ih =>
    have hcast : ((first : Int) + 1) = ((first + 1 : Nat) : Int) := by omega
    rw [applyFrom, List.length_cons]
    by_cases hold : (first : Int) ≤ r.lastAppliedSeq
    · -- an event applied before
      rw [if_pos hold, hcast]
      have hskip : next - first = (next - (first + 1)) + 1 := by omega
      rw [hskip, List.drop_succ_cons]
      by_cases hrest : events = []
      · subst hrest
        rw [applyFrom]
        constructor
        · simp only [List.length_nil]
          omega
        · rw [List.drop_nil]
      · have hloop := ih (r := { r with stats := { r.stats with
          duplicates := r.stats.duplicates + 1 } }) hnext (first + 1) hrest
        rwa [show first + 1 + events.length = first + (events.length + 1) by omega] at hloop
    · rw [if_neg hold, hcast]
      have hnone : next - first = 0 := by omega
      rw [hnone, List.drop_zero]
      dsimp only
      by_cases hrest : events = []
      · subst hrest
        rw [applyFrom]
        constructor
        · simp only [List.length_nil]
          omega
        · rfl
      · constructor
        · rw [(ih (by simp only; exact hcast) (first + 1) hrest).1]
          omega
        · rw [(ih (by simp only; exact hcast) (first + 1) hrest).2, Nat.sub_self, List.drop_zero]

/-- The events applied from the payloads of a list of datagrams. -/
def applyAll (r : InputReceiver) : List Bytes → InputReceiver × List InputEvent
  | [] => (r, [])
  | d :: ds =>
    let handled := r.handlePacket (payloadOf d)
    let rest := applyAll handled.1 ds
    (rest.1, handled.2.2 ++ rest.2)

end InputReceiver

end Deskhub
