import Deskhub.Session.ScreenClientSession
import Mathlib.Data.List.Count

/-!
# A client session ends once

A session that has ended sends nothing and calls nothing back, whatever still arrives; but for
the goodbye of the host, which is told again each time it arrives. `endsOnce_iff` says that
this is the only way to end twice.
-/

namespace Deskhub

namespace ScreenClientEvent

def isDisconnect : ScreenClientEvent → Bool
  | .disconnect .. => true
  | _ => false

end ScreenClientEvent

namespace ScreenClientSession

open ScreenClientEvent

/-- How often the end of the session is told. -/
def ends (out : List ScreenClientEvent) : Nat := out.countP isDisconnect

@[simp] theorem ends_append (out out' : List ScreenClientEvent) :
    ends (out ++ out') = ends out + ends out' :=
  List.countP_append

theorem ends_sent (packet : Option Bytes) : ends (sent packet) = 0 := by
  cases packet with
  | none => rfl
  | some bytes => rfl

theorem ends_map {α : Type} {f : α → ScreenClientEvent} (hf : ∀ a, (f a).isDisconnect = false)
    (xs : List α) : ends (xs.map f) = 0 := by
  unfold ends
  rw [List.countP_eq_zero]
  intro e he
  obtain ⟨a, -, rfl⟩ := List.mem_map.mp he
  simp [hf a]

/-- A call tells the end at most once, and only when it leaves the session dead. -/
def MayEnd (result : ScreenClientSession × List ScreenClientEvent) : Prop :=
  ends result.2 = 0 ∨ ends result.2 = 1 ∧ result.1.state = .dead

theorem die_mayEnd (s : ScreenClientSession) (reason : String) (cause : ScreenSessionEnd) :
    MayEnd (s.die reason cause) :=
  .inr ⟨rfl, rfl⟩

/-- The host's goodbye of the session, as the handler reads it. -/
def IsBye (s : ScreenClientSession) : ScreenClientCall → Prop
  | .handlePacket pkt _ => ∃ h, parseCommonHeader pkt = some h ∧ h.type = .bye ∧
      s.inSession h.sessionId = true
  | _ => False

/-! ## Packets -/

theorem handleHelloAck_mayEnd (s : ScreenClientSession) (m : HelloAck) (nowUs : UInt64) :
    MayEnd ((s.handleHelloAck m nowUs).1, (s.handleHelloAck m nowUs).2.1) := by
  unfold handleHelloAck
  split
  · exact .inl rfl
  · split
    · exact die_mayEnd s _ _
    · left
      change ends ([.ready _] ++ sendStart _) = 0
      rw [ends_append]
      exact (Nat.zero_add _).trans (ends_sent _)

theorem handlePong_mayEnd (s : ScreenClientSession) (payload : Bytes) (sessionId : UInt32)
    (nowUs : UInt64) :
    MayEnd ((s.handlePong payload sessionId nowUs).1,
      (s.handlePong payload sessionId nowUs).2.1) := by
  unfold handlePong
  split
  · exact .inl rfl
  · split
    · exact .inl rfl
    · split
      · exact .inl rfl
      · exact .inl rfl

theorem handleReconfig_mayEnd (s : ScreenClientSession) (payload : Bytes) (nowUs : UInt64) :
    MayEnd ((s.handleReconfig payload nowUs).1, (s.handleReconfig payload nowUs).2.1) := by
  unfold handleReconfig
  split
  · exact .inl rfl
  · split
    · exact .inl rfl
    · left
      dsimp only
      split
      · rfl
      · rfl

theorem handleClipboard_mayEnd (s : ScreenClientSession) (payload : Bytes) (nowUs : UInt64) :
    MayEnd ((s.handleClipboard payload nowUs).1, (s.handleClipboard payload nowUs).2.1) := by
  unfold handleClipboard
  split
  · exact .inl rfl
  · split
    · exact .inl rfl
    · left
      dsimp only
      split
      · dsimp only
        cases (ClipboardSync.takeCompleted _).2 with
        | none => rfl
        | some text => rfl
      · rfl

theorem handlePacket_mayEnd (s : ScreenClientSession) (pkt : Bytes) (nowUs : UInt64) :
    MayEnd ((s.handlePacket pkt nowUs).1, (s.handlePacket pkt nowUs).2.1) := by
  unfold handlePacket
  split
  · exact .inl rfl
  · dsimp only
    split
    · split
      · exact .inl rfl
      · exact handleHelloAck_mayEnd s _ nowUs
    · exact handlePong_mayEnd s _ _ nowUs
    · split
      · exact .inl rfl
      · exact handleReconfig_mayEnd s _ nowUs
    · split
      · exact .inl rfl
      · exact die_mayEnd s _ _
    · split
      · exact .inl rfl
      · exact handleClipboard_mayEnd s _ nowUs
    · exact .inl rfl

/-- In a dead session a packet does nothing, unless it is the host's goodbye. -/
theorem handlePacket_dead {s : ScreenClientSession} (hdead : s.state = .dead) (pkt : Bytes)
    (nowUs : UInt64) (hbye : ¬ s.IsBye (.handlePacket pkt nowUs)) :
    (s.handlePacket pkt nowUs).1 = s ∧ (s.handlePacket pkt nowUs).2.1 = [] := by
  unfold handlePacket
  split
  · exact ⟨rfl, rfl⟩
  · next h hheader =>
    dsimp only
    split
    · split
      · exact ⟨rfl, rfl⟩
      · unfold handleHelloAck
        rw [if_pos (by rw [hdead]; decide)]
        exact ⟨rfl, rfl⟩
    · unfold handlePong
      rw [if_pos (Or.inr hdead)]
      exact ⟨rfl, rfl⟩
    · split
      · exact ⟨rfl, rfl⟩
      · unfold handleReconfig
        rw [if_pos (by rw [hdead]; decide)]
        exact ⟨rfl, rfl⟩
    · next htype =>
      split
      · exact ⟨rfl, rfl⟩
      · next hsession =>
        exact absurd ⟨h, hheader, htype, by simpa using hsession⟩ hbye
    · split
      · exact ⟨rfl, rfl⟩
      · unfold handleClipboard
        rw [if_pos (by rw [hdead]; decide)]
        exact ⟨rfl, rfl⟩
    · exact ⟨rfl, rfl⟩

theorem handlePacket_bye {s : ScreenClientSession} {pkt : Bytes} {nowUs : UInt64}
    (hbye : s.IsBye (.handlePacket pkt nowUs)) :
    (s.handlePacket pkt nowUs).1.state = .dead ∧
      (s.handlePacket pkt nowUs).2.1 = [.disconnect "host ended the session (BYE)" .hostBye] := by
  obtain ⟨h, hheader, htype, hsession⟩ := hbye
  unfold handlePacket
  rw [hheader]
  dsimp only
  rw [htype]
  dsimp only
  rw [if_neg (by simp [hsession])]
  exact ⟨rfl, rfl⟩

/-! ## Ticks -/

theorem tickPing_ends (s : ScreenClientSession) (nowUs : UInt64) : ends (s.tickPing nowUs).2 = 0 := by
  unfold tickPing
  split
  · rfl
  · dsimp only
    exact ends_sent _

theorem tickFocus_ends (s : ScreenClientSession) (nowUs : UInt64) :
    ends (s.tickFocus nowUs).2 = 0 := by
  unfold tickFocus
  split
  · dsimp only
    exact ends_sent _
  · rfl

theorem tickFlush_ends (s : ScreenClientSession) (nowUs : UInt64) :
    ends (s.tickFlush nowUs).2 = 0 := by
  unfold tickFlush
  split
  · change ends (_ ++ _) = 0
    rw [ends_append, ends_map (fun _ => rfl), ends_map (fun _ => rfl)]
  · rfl

theorem tickKeyframe_ends (s : ScreenClientSession) (nowUs : UInt64) :
    ends (s.tickKeyframe nowUs).2 = 0 := by
  unfold tickKeyframe
  split
  · dsimp only
    exact ends_sent _
  · rfl

theorem tickRunning_mayEnd (s : ScreenClientSession) (nowUs : UInt64) :
    MayEnd (s.tickRunning nowUs) := by
  unfold tickRunning
  split
  · exact die_mayEnd s _ _
  · left
    dsimp only
    rw [ends_append, ends_append, ends_append, tickPing_ends, tickFocus_ends, tickFlush_ends,
      tickKeyframe_ends]

theorem tick_mayEnd (s : ScreenClientSession) (nowUs : UInt64) : MayEnd (s.tick nowUs) := by
  unfold tick
  split
  · exact .inl rfl
  · exact .inl rfl
  · split
    · exact die_mayEnd s _ _
    · split
      · exact .inl (ends_sent _)
      · exact .inl rfl
  · -- asking again to start does not tell the end
    dsimp only
    split
    · have hend := tickRunning_mayEnd { s with lastSentUs := nowUs } nowUs
      dsimp only
      unfold MayEnd
      dsimp only
      rw [ends_append, show ends s.sendStart = 0 from ends_sent _, Nat.zero_add]
      exact hend
    · dsimp only
      rw [List.nil_append]
      exact tickRunning_mayEnd s nowUs
  · exact tickRunning_mayEnd s nowUs

/-! ## Runs -/

theorem step_mayEnd (s : ScreenClientSession) (call : ScreenClientCall) :
    MayEnd (screenClientSession.step s call) := by
  cases call with
  | handlePacket pkt nowUs => exact handlePacket_mayEnd s pkt nowUs
  | tick nowUs => exact tick_mayEnd s nowUs
  | sendFeedback fb =>
    left
    change ends (s.sendFeedback fb) = 0
    unfold sendFeedback
    split
    · rfl
    · exact ends_sent _
  | sendNack frameId indices =>
    left
    change ends (s.sendNack frameId indices) = 0
    unfold sendNack
    split
    · rfl
    · exact ends_sent _
  | sendInvalidateRef frameId =>
    left
    change ends (s.sendInvalidateRef frameId) = 0
    unfold sendInvalidateRef
    split
    · rfl
    · exact ends_sent _
  | sendBye =>
    left
    change ends s.sendBye.2 = 0
    unfold sendBye
    dsimp only
    split
    · exact ends_sent _
    · rfl
  | _ => exact .inl rfl

/-- A dead session stays dead, and does nothing when it is not the host's goodbye. -/
theorem step_dead {s : ScreenClientSession} (hdead : s.state = .dead) {call : ScreenClientCall}
    (hbye : ¬ s.IsBye call) :
    (screenClientSession.step s call).1.state = .dead ∧
      (screenClientSession.step s call).2 = [] := by
  have hnot : s.state ≠ .streaming := by
    rw [hdead]
    decide
  cases call with
  | handlePacket pkt nowUs =>
    obtain ⟨hsame, hout⟩ := handlePacket_dead hdead pkt nowUs hbye
    refine ⟨?_, hout⟩
    change (s.handlePacket pkt nowUs).1.state = .dead
    rw [hsame, hdead]
  | notifyVideoPacket nowUs =>
    refine ⟨?_, rfl⟩
    change (s.notifyVideoPacket nowUs).state = .dead
    have hidle : ¬ s.state = .starting := by
      rw [hdead]
      decide
    unfold notifyVideoPacket
    rw [if_neg hidle]
    dsimp only
    rw [if_neg hnot, hdead]
  | tick nowUs =>
    change (s.tick nowUs).1.state = .dead ∧ (s.tick nowUs).2 = []
    unfold tick
    rw [hdead]
    exact ⟨hdead, rfl⟩
  | queueInput ev =>
    refine ⟨?_, rfl⟩
    change (s.queueInput ev).state = .dead
    unfold queueInput
    rw [if_pos hnot, hdead]
  | queueClipboard text =>
    refine ⟨?_, rfl⟩
    change (s.queueClipboard text).state = .dead
    unfold queueClipboard
    rw [if_pos hnot, hdead]
  | setFocused on =>
    refine ⟨?_, rfl⟩
    change (s.setFocused on).state = .dead
    unfold setFocused
    split
    · exact hdead
    · exact hdead
  | requestKeyframe => exact ⟨hdead, rfl⟩
  | cancelKeyframeRequest => exact ⟨hdead, rfl⟩
  | sendFeedback fb => exact ⟨hdead, if_pos hnot⟩
  | sendNack frameId indices => exact ⟨hdead, if_pos (.inl hnot)⟩
  | sendInvalidateRef frameId => exact ⟨hdead, if_pos hnot⟩
  | sendBye =>
    refine ⟨rfl, ?_⟩
    change s.sendBye.2 = []
    unfold sendBye
    dsimp only
    rw [if_neg]
    rw [hdead]
    decide

/-- The host's goodbye ends the session, or tells again that it has ended. -/
theorem step_bye {s : ScreenClientSession} {call : ScreenClientCall} (hbye : s.IsBye call) :
    (screenClientSession.step s call).1.state = .dead ∧
      (screenClientSession.step s call).2 =
        [.disconnect "host ended the session (BYE)" .hostBye] := by
  cases call with
  | handlePacket pkt nowUs => exact handlePacket_bye hbye
  | _ => exact absurd hbye id

/-- The end is told at most once, and once the session is dead it sends nothing and makes no
other callback. -/
def EndsOnce (s : ScreenClientSession) (calls : List ScreenClientCall) : Prop :=
  ends (screenClientSession.run s calls).2 ≤ 1 ∧
    ∀ pre call post, calls = pre ++ call :: post →
      (screenClientSession.run s pre).1.state = .dead →
      ∀ e ∈ (screenClientSession.step (screenClientSession.run s pre).1 call).2,
        e.isDisconnect = true

/-- The call is no goodbye of the host that comes after the end was told. -/
def NoLateBye (s : ScreenClientSession) (out : List ScreenClientEvent) (call : ScreenClientCall) :
    Prop :=
  0 < ends out → ¬ s.IsBye call

/-- From a start of any session on: it ends once exactly when no goodbye of the host, with the
id the session has, comes after the end was told. -/
theorem endsOnce_iff (s : ScreenClientSession) (hello : Hello) (nowUs : UInt64)
    (calls : List ScreenClientCall) :
    EndsOnce (s.start hello nowUs).1 calls ↔
      screenClientSession.Along NoLateBye (s.start hello nowUs).1 calls := by
  generalize (s.start hello nowUs).1 = s
  constructor
  · rintro ⟨honce, -⟩ pre call post hsplit htold hbye
    -- the goodbye would be told a second time
    have htwice : ends (screenClientSession.run s calls).2 =
        ends (screenClientSession.run s pre).2 + 1 +
          ends (screenClientSession.run (screenClientSession.step
            (screenClientSession.run s pre).1 call).1 post).2 := by
      rw [hsplit, Machine.run_append, Machine.run_cons]
      dsimp only
      rw [ends_append, ends_append, (step_bye hbye).2, Nat.add_assoc]
      rfl
    omega
  · intro hlate
    constructor
    · have hrun := screenClientSession.run_invariant
        (fun s out => ends out ≤ 1 ∧ (0 < ends out → s.state = .dead)) NoLateBye (s := s)
        ⟨Nat.zero_le _, nofun⟩ ?_ calls hlate
      · exact hrun.1
      · rintro s out call hnot ⟨hle, hdead⟩
        rw [ends_append]
        by_cases htold : 0 < ends out
        · obtain ⟨hstays, hquiet⟩ := step_dead (hdead htold) (hnot htold)
          rw [hquiet]
          exact ⟨hle, fun _ => hstays⟩
        · rcases step_mayEnd s call with hnone | ⟨hone, hdied⟩
          · exact ⟨by omega, fun hends => absurd hends (by omega)⟩
          · exact ⟨by omega, fun _ => hdied⟩
    · intro pre call post hsplit hdead e he
      by_cases hbye : (screenClientSession.run s pre).1.IsBye call
      · rw [(step_bye hbye).2] at he
        rw [List.mem_singleton.mp he]
        rfl
      · rw [(step_dead hdead hbye).2] at he
        cases he

/-- The host says goodbye twice. -/
theorem endsOnce_twice :
    ¬ ∀ (s : ScreenClientSession) (hello : Hello) (nowUs : UInt64)
      (calls : List ScreenClientCall), EndsOnce (s.start hello nowUs).1 calls := by
  intro h
  let ack : Bytes := [3, 2, 0, 0, 0, 0, 0, 0, 0, 0, 0, 5, 0, 7, 128, 4, 56, 60, 1, 49, 45, 0, 0]
  let bye : Bytes := [3, 4, 0, 0, 0, 0, 0, 5]
  have hends := (h {} { clientId := 7, maxWidth := 0, maxHeight := 0, features := 0 } 1
    [.handlePacket ack 2, .handlePacket bye 3, .handlePacket bye 4]).1
  exact absurd hends (by decide +kernel)

end ScreenClientSession

end Deskhub
