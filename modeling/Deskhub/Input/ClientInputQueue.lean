import Deskhub.Lib.Machine
import Deskhub.Lib.OrdMap
import Deskhub.Protocol.Wire.Input

/-!
# The input of a viewer

`ClientInputQueue`: the events of keys, buttons and the pointer until they are drained. A tap is
released some time after it, by the first drain from then on; what is held is released when the
viewer loses its focus.
-/

namespace Deskhub

/-! ## Keys and characters -/

def kVkBack : Int32 := 0x08
def kVkTab : Int32 := 0x09
def kVkReturn : Int32 := 0x0D
def kVkShift : Int32 := 0x10
def kVkPause : Int32 := 0x13
def kVkSpace : Int32 := 0x20
def kVkOem1 : Int32 := 0xBA
def kVkOemPlus : Int32 := 0xBB
def kVkOemComma : Int32 := 0xBC
def kVkOemMinus : Int32 := 0xBD
def kVkOemPeriod : Int32 := 0xBE
def kVkOem2 : Int32 := 0xBF
def kVkOem3 : Int32 := 0xC0
def kVkOem4 : Int32 := 0xDB
def kVkOem5 : Int32 := 0xDC
def kVkOem6 : Int32 := 0xDD
def kVkOem7 : Int32 := 0xDE

structure KeyChord where
  vk : Int32 := 0
  shift : Bool := false
deriving DecidableEq, Repr

/-- The cases of `CharToKeyChord` after the letters and digits. -/
def charKeys : List (Char × KeyChord) :=
  [('\x08', ⟨kVkBack, false⟩), ('\t', ⟨kVkTab, false⟩),
    ('\n', ⟨kVkReturn, false⟩), ('\r', ⟨kVkReturn, false⟩), (' ', ⟨kVkSpace, false⟩),
    ('!', ⟨0x31, true⟩), ('@', ⟨0x32, true⟩), ('#', ⟨0x33, true⟩), ('$', ⟨0x34, true⟩),
    ('%', ⟨0x35, true⟩), ('^', ⟨0x36, true⟩), ('&', ⟨0x37, true⟩), ('*', ⟨0x38, true⟩),
    ('(', ⟨0x39, true⟩), (')', ⟨0x30, true⟩),
    (';', ⟨kVkOem1, false⟩), (':', ⟨kVkOem1, true⟩),
    ('=', ⟨kVkOemPlus, false⟩), ('+', ⟨kVkOemPlus, true⟩),
    (',', ⟨kVkOemComma, false⟩), ('<', ⟨kVkOemComma, true⟩),
    ('-', ⟨kVkOemMinus, false⟩), ('_', ⟨kVkOemMinus, true⟩),
    ('.', ⟨kVkOemPeriod, false⟩), ('>', ⟨kVkOemPeriod, true⟩),
    ('/', ⟨kVkOem2, false⟩), ('?', ⟨kVkOem2, true⟩),
    ('\x60', ⟨kVkOem3, false⟩), ('~', ⟨kVkOem3, true⟩),
    ('[', ⟨kVkOem4, false⟩), ('\x7b', ⟨kVkOem4, true⟩),
    ('\x5c', ⟨kVkOem5, false⟩), ('|', ⟨kVkOem5, true⟩),
    (']', ⟨kVkOem6, false⟩), ('\x7d', ⟨kVkOem6, true⟩),
    ('\x27', ⟨kVkOem7, false⟩), ('\x22', ⟨kVkOem7, true⟩)]

def charToKeyChord (cp : UInt32) : Option KeyChord :=
  if 0x61 ≤ cp ∧ cp ≤ 0x7A then some ⟨(cp - 0x61 + 0x41).toInt32, false⟩
  else if 0x41 ≤ cp ∧ cp ≤ 0x5A then some ⟨cp.toInt32, true⟩
  else if 0x30 ≤ cp ∧ cp ≤ 0x39 then some ⟨cp.toInt32, false⟩
  else (charKeys.find? fun p => p.1.val = cp).map Prod.snd

def needsVirtualKeyInjection (vk : Int32) : Bool := vk = kVkPause

def kAbsCoordMax : Int32 := 65535

def clampAbsCoord (normalized : Int32) : Int32 :=
  if normalized < 0 then 0 else if kAbsCoordMax < normalized then kAbsCoordMax else normalized

/-! ## The queue -/

def kTapHoldUs : UInt64 := 50000

structure ClientInputQueue where
  ready : List InputEvent := []
  delayed : List (UInt64 × InputEvent) := []
  /-- The keys that are held, with their scan codes. -/
  keysDown : OrdMap.Map Int32 Int32 := .empty
  buttonsDown : OrdMap.Map Int32 Unit := .empty
  wantFocus : Bool := false

namespace ClientInputQueue

def keyEvent (vk scan : Int32) (down : Bool) (nowUs : UInt64) : InputEvent :=
  { type := .key
    timestampUs := nowUs
    a := vk
    b := if needsVirtualKeyInjection vk then 0 else scan
    state := if down then 1 else 0 }

/-- The event of a mouse button, which `MouseButtonEvent` and `ReleaseAll` both fill in. -/
def buttonEvent (button : Int32) (down : Bool) (nowUs : UInt64) : InputEvent :=
  { type := .mouseButton
    timestampUs := nowUs
    a := button
    state := if down then 1 else 0 }

def pushLocked (s : ClientInputQueue) (e : InputEvent) : ClientInputQueue :=
  { s with ready := s.ready ++ [e], wantFocus := true }

/-- `delayed_.emplace_back`, with the time of the release. -/
def delay (s : ClientInputQueue) (nowUs : UInt64) (e : InputEvent) : ClientInputQueue :=
  { s with delayed := s.delayed ++ [(nowUs + kTapHoldUs, e)] }

def key (s : ClientInputQueue) (vk scan : Int32) (down : Bool) (nowUs : UInt64) : ClientInputQueue :=
  let s := { s with keysDown := if down then s.keysDown.insert vk scan else s.keysDown.erase vk }
  s.pushLocked (keyEvent vk scan down nowUs)

def keyTap (s : ClientInputQueue) (vk scan : Int32) (nowUs : UInt64) : ClientInputQueue :=
  (s.pushLocked (keyEvent vk scan true nowUs)).delay nowUs (keyEvent vk scan false nowUs)

def keyChord (s : ClientInputQueue) (modVk modScan vk scan : Int32) (nowUs : UInt64) :
    ClientInputQueue :=
  let s := s.pushLocked (keyEvent modVk modScan true nowUs)
  let s := s.pushLocked (keyEvent vk scan true nowUs)
  let s := s.delay nowUs (keyEvent vk scan false nowUs)
  s.delay nowUs (keyEvent modVk modScan false nowUs)

def charTap (s : ClientInputQueue) (codepoint : UInt32) (nowUs : UInt64) : ClientInputQueue × Bool :=
  match charToKeyChord codepoint with
  | none => (s, false)
  | some chord =>
      let s := if chord.shift then s.pushLocked (keyEvent kVkShift 0 true nowUs) else s
      let s := s.pushLocked (keyEvent chord.vk 0 true nowUs)
      let s := if chord.shift then s.pushLocked (keyEvent kVkShift 0 false nowUs) else s
      (s.delay nowUs (keyEvent chord.vk 0 false nowUs), true)

def mouseMoveAbsolute (s : ClientInputQueue) (nx ny : Int32) (nowUs : UInt64) : ClientInputQueue :=
  s.pushLocked
    { type := .mouseMove
      timestampUs := nowUs
      a := clampAbsCoord nx
      b := clampAbsCoord ny
      absolute := 1 }

def mouseButtonEvent (s : ClientInputQueue) (button : Int32) (down : Bool) (nowUs : UInt64) :
    ClientInputQueue :=
  let s := { s with
    buttonsDown := if down then s.buttonsDown.insert button () else s.buttonsDown.erase button }
  s.pushLocked (buttonEvent button down nowUs)

def mouseWheel (s : ClientInputQueue) (delta : Int32) (nowUs : UInt64) : ClientInputQueue :=
  if delta = 0 then s
  else s.pushLocked { type := .mouseWheel, timestampUs := nowUs, a := 0, b := delta }

def releaseAll (s : ClientInputQueue) (nowUs : UInt64) : ClientInputQueue :=
  let s := s.keysDown.entries.foldl (fun s p => s.pushLocked (keyEvent p.1 p.2 false nowUs)) s
  let s := { s with keysDown := .empty }
  let s := s.buttonsDown.entries.foldl (fun s p => s.pushLocked (buttonEvent p.1 false nowUs)) s
  { s with buttonsDown := .empty }

/-- `Drain`: what it hands over, the releases that are due last. -/
def drain (s : ClientInputQueue) (nowUs : UInt64) : ClientInputQueue × List InputEvent :=
  let due := s.delayed.filter fun p => p.1 ≤ nowUs
  ({ s with ready := [], delayed := s.delayed.filter fun p => ¬ p.1 ≤ nowUs },
    s.ready ++ due.map Prod.snd)

def wantsFocus (s : ClientInputQueue) : Bool := s.wantFocus

end ClientInputQueue

/-! ## Runs -/

inductive ClientInputCall where
  | key (vk scan : Int32) (down : Bool) (nowUs : UInt64)
  | keyTap (vk scan : Int32) (nowUs : UInt64)
  | keyChord (modVk modScan vk scan : Int32) (nowUs : UInt64)
  | charTap (codepoint : UInt32) (nowUs : UInt64)
  | mouseMoveAbsolute (nx ny : Int32) (nowUs : UInt64)
  | mouseButtonEvent (button : Int32) (down : Bool) (nowUs : UInt64)
  | mouseWheel (delta : Int32) (nowUs : UInt64)
  | releaseAll (nowUs : UInt64)
  | drain (nowUs : UInt64)

/-- The time of a call that may push events. -/
def ClientInputCall.time? : ClientInputCall → Option UInt64
  | .key _ _ _ nowUs => some nowUs
  | .keyTap _ _ nowUs => some nowUs
  | .keyChord _ _ _ _ nowUs => some nowUs
  | .charTap _ nowUs => some nowUs
  | .mouseMoveAbsolute _ _ nowUs => some nowUs
  | .mouseButtonEvent _ _ nowUs => some nowUs
  | .mouseWheel _ nowUs => some nowUs
  | .releaseAll nowUs => some nowUs
  | .drain _ => none

/-- The outputs are the events that were drained. -/
def clientInputQueue : Machine ClientInputQueue ClientInputCall InputEvent where
  step s
    | .key vk scan down nowUs => (s.key vk scan down nowUs, [])
    | .keyTap vk scan nowUs => (s.keyTap vk scan nowUs, [])
    | .keyChord modVk modScan vk scan nowUs => (s.keyChord modVk modScan vk scan nowUs, [])
    | .charTap codepoint nowUs => ((s.charTap codepoint nowUs).1, [])
    | .mouseMoveAbsolute nx ny nowUs => (s.mouseMoveAbsolute nx ny nowUs, [])
    | .mouseButtonEvent button down nowUs => (s.mouseButtonEvent button down nowUs, [])
    | .mouseWheel delta nowUs => (s.mouseWheel delta nowUs, [])
    | .releaseAll nowUs => (s.releaseAll nowUs, [])
    | .drain nowUs => s.drain nowUs

/-!
## Nothing stays pressed

What was pressed last is held, or its release waits among the delayed ones. `ReleaseAll` releases
what is held, and a drain late enough hands over the rest.
-/

/-! ## What is pressed -/

/-- A key, by its virtual key code, or a mouse button. -/
inductive InputThing where
  | key (vk : Int32)
  | button (button : Int32)
deriving DecidableEq, Repr

/-- What an event presses or releases. -/
def InputEvent.about? (e : InputEvent) : Option InputThing :=
  match e.type with
  | .key => some (.key e.a)
  | .mouseButton => some (.button e.a)
  | _ => none

def lastAbout (thing : InputThing) (events : List InputEvent) : Option InputEvent :=
  (events.filter fun e => e.about? = some thing).getLast?

/-- The last event about it is a press. -/
def Pressed (thing : InputThing) (events : List InputEvent) : Prop :=
  ∃ e, lastAbout thing events = some e ∧ e.state ≠ 0

theorem not_pressed_nil (thing : InputThing) : ¬ Pressed thing [] := by
  rintro ⟨e, hlast, -⟩
  cases hlast

theorem pressed_concat {thing : InputThing} {events : List InputEvent} {e : InputEvent} :
    Pressed thing (events ++ [e]) ↔
      (e.about? = some thing ∧ e.state ≠ 0) ∨ (e.about? ≠ some thing ∧ Pressed thing events) := by
  unfold Pressed lastAbout
  rw [List.filter_append]
  by_cases habout : e.about? = some thing
  · rw [List.filter_cons_of_pos (by simpa using habout), List.filter_nil, List.getLast?_concat]
    constructor
    · rintro ⟨e', hlast, hdown⟩
      cases hlast
      exact .inl ⟨habout, hdown⟩
    · rintro (⟨-, hdown⟩ | ⟨hother, -⟩)
      · exact ⟨e, rfl, hdown⟩
      · exact absurd habout hother
  · rw [List.filter_cons_of_neg (by simpa using habout), List.filter_nil, List.append_nil]
    constructor
    · intro hpressed
      exact .inr ⟨habout, hpressed⟩
    · rintro (⟨hthis, -⟩ | ⟨-, hpressed⟩)
      · exact absurd hthis habout
      · exact hpressed

/-- Releases press nothing, and what they are about is not pressed. -/
theorem Pressed.of_releases {thing : InputThing} {events releases : List InputEvent}
    (hup : ∀ r ∈ releases, r.state = 0) (h : Pressed thing (events ++ releases)) :
    Pressed thing events ∧ ∀ r ∈ releases, r.about? ≠ some thing := by
  induction releases using List.reverseRecOn with
  | nil =>
    rw [List.append_nil] at h
    exact ⟨h, fun r hr => absurd hr List.not_mem_nil⟩
  | append_singleton releases r ih =>
    rw [← List.append_assoc, pressed_concat] at h
    rcases h with ⟨-, hdown⟩ | ⟨hother, hpressed⟩
    · exact absurd (hup r (by simp)) hdown
    · rcases ih (fun r' hr' => hup r' (List.mem_append_left _ hr')) hpressed with ⟨hbefore, hnone⟩
      refine ⟨hbefore, ?_⟩
      intro r' hr'
      rcases List.mem_append.mp hr' with hold | hnew
      · exact hnone r' hold
      · rw [List.mem_singleton.mp hnew]
        exact hother

namespace ClientInputQueue

@[simp] theorem about?_keyEvent (vk scan : Int32) (down : Bool) (nowUs : UInt64) :
    (keyEvent vk scan down nowUs).about? = some (.key vk) := rfl

@[simp] theorem about?_buttonEvent (button : Int32) (down : Bool) (nowUs : UInt64) :
    (buttonEvent button down nowUs).about? = some (.button button) := rfl

/-- The queue has it among what is held. -/
def Holds (s : ClientInputQueue) : InputThing → Prop
  | .key vk => (s.keysDown.find? vk).isSome
  | .button button => (s.buttonsDown.find? button).isSome

/-- Its release waits. -/
def Waits (s : ClientInputQueue) (thing : InputThing) : Prop :=
  ∃ p ∈ s.delayed, p.2.about? = some thing

/-- Where the queue stands after the events `out` were drained, the calls so far having had the
times `times`: whatever is pressed is held or its release waits, and what waits are releases that
are due one hold after a call. -/
structure Owed (times : List UInt64) (out : List InputEvent) (s : ClientInputQueue) : Prop where
  accounted : ∀ thing, Pressed thing (out ++ s.ready) → s.Holds thing ∨ s.Waits thing
  delayed : ∀ p ∈ s.delayed, p.2.state = 0 ∧ ∃ t ∈ times, p.1 = t + kTapHoldUs

theorem Owed.fresh : Owed [] [] {} where
  accounted thing h := absurd h (not_pressed_nil thing)
  delayed _ hp := absurd hp List.not_mem_nil

section Step

variable {times : List UInt64} {out : List InputEvent} {s : ClientInputQueue} {nowUs : UInt64}

theorem pressed_pushLocked {thing : InputThing} {e : InputEvent} :
    Pressed thing (out ++ (s.pushLocked e).ready) ↔
      (e.about? = some thing ∧ e.state ≠ 0) ∨
        (e.about? ≠ some thing ∧ Pressed thing (out ++ s.ready)) := by
  show Pressed thing (out ++ (s.ready ++ [e])) ↔ _
  rw [← List.append_assoc]
  exact pressed_concat

theorem Owed.mono {more : List UInt64} (h : Owed times out s) : Owed (times ++ more) out s where
  accounted := h.accounted
  delayed p hp := by
    rcases h.delayed p hp with ⟨hup, t, ht, hdue⟩
    exact ⟨hup, t, List.mem_append_left more ht, hdue⟩

/-- An event is pushed: one that presses something is accounted for already. -/
theorem Owed.push (h : Owed times out s) {e : InputEvent}
    (he : ∀ thing, e.about? = some thing → e.state ≠ 0 → s.Holds thing ∨ s.Waits thing) :
    Owed times out (s.pushLocked e) where
  accounted thing hpressed := by
    rcases pressed_pushLocked.mp hpressed with ⟨habout, hdown⟩ | ⟨-, hbefore⟩
    · exact he thing habout hdown
    · exact h.accounted thing hbefore
  delayed := h.delayed

/-- A release waits from now on. -/
theorem Owed.delay (h : Owed times out s) {e : InputEvent} (hup : e.state = 0)
    (hnow : nowUs ∈ times) : Owed times out (s.delay nowUs e) where
  accounted thing hpressed := by
    rcases h.accounted thing hpressed with hheld | ⟨p, hp, habout⟩
    · exact .inl hheld
    · exact .inr ⟨p, List.mem_append_left _ hp, habout⟩
  delayed p hp := by
    rcases List.mem_append.mp hp with hold | hnew
    · exact h.delayed p hold
    · rw [List.mem_singleton.mp hnew]
      exact ⟨hup, nowUs, hnow, rfl⟩

/-- A key event, with what is held changed for its key. -/
theorem Owed.key (h : Owed times out s) (vk scan : Int32) (down : Bool) :
    Owed times out (s.key vk scan down nowUs) where
  accounted thing hpressed := by
    rcases pressed_pushLocked.mp hpressed with ⟨habout, hdown⟩ | ⟨hother, hbefore⟩
    · -- pressed just now: the key is in the map
      left
      rw [about?_keyEvent, Option.some.injEq] at habout
      subst habout
      cases down with
      | false => exact absurd rfl hdown
      | true => simp [Holds, ClientInputQueue.key, pushLocked]
    · rw [about?_keyEvent, ne_eq, Option.some.injEq] at hother
      refine (h.accounted thing hbefore).imp_left ?_
      intro hheld
      cases thing with
      | button button => exact hheld
      | key vk' =>
        have hne : vk' ≠ vk := fun heq => hother (by rw [heq])
        cases down with
        | false => simpa [Holds, ClientInputQueue.key, pushLocked, OrdMap.Map.find?_erase, hne] using hheld
        | true => simpa [Holds, ClientInputQueue.key, pushLocked, OrdMap.Map.find?_insert, hne] using hheld
  delayed := h.delayed

theorem Owed.mouseButtonEvent (h : Owed times out s) (button : Int32) (down : Bool) :
    Owed times out (s.mouseButtonEvent button down nowUs) where
  accounted thing hpressed := by
    rcases pressed_pushLocked.mp hpressed with ⟨habout, hdown⟩ | ⟨hother, hbefore⟩
    · left
      rw [about?_buttonEvent, Option.some.injEq] at habout
      subst habout
      cases down with
      | false => exact absurd rfl hdown
      | true => simp [Holds, ClientInputQueue.mouseButtonEvent, pushLocked]
    · rw [about?_buttonEvent, ne_eq, Option.some.injEq] at hother
      refine (h.accounted thing hbefore).imp_left ?_
      intro hheld
      cases thing with
      | key vk => exact hheld
      | button button' =>
        have hne : button' ≠ button := fun heq => hother (by rw [heq])
        cases down with
        | false =>
          simpa [Holds, ClientInputQueue.mouseButtonEvent, pushLocked, OrdMap.Map.find?_erase, hne]
            using hheld
        | true =>
          simpa [Holds, ClientInputQueue.mouseButtonEvent, pushLocked, OrdMap.Map.find?_insert, hne]
            using hheld
  delayed := h.delayed

/-- A press whose release waits from now on. -/
theorem Owed.tap (h : Owed times out s) (vk scan : Int32) (hnow : nowUs ∈ times) :
    Owed times out (s.keyTap vk scan nowUs) := by
  have hdelay := h.delay (e := keyEvent vk scan false nowUs) rfl hnow
  refine hdelay.push ?_
  intro thing habout _
  exact .inr ⟨_, List.mem_append_right _ (List.mem_singleton_self _), habout⟩

theorem Owed.keyChord (h : Owed times out s) (modVk modScan vk scan : Int32) (hnow : nowUs ∈ times) :
    Owed times out (s.keyChord modVk modScan vk scan nowUs) := by
  have hdelay := (h.delay (e := keyEvent vk scan false nowUs) rfl hnow).delay
    (e := keyEvent modVk modScan false nowUs) rfl hnow
  refine (hdelay.push ?_).push ?_
  · intro thing habout _
    exact .inr ⟨_, List.mem_append_right _ (List.mem_singleton_self _), habout⟩
  · intro thing habout _
    exact .inr ⟨_, List.mem_append_left _ (List.mem_append_right _ (List.mem_singleton_self _)), habout⟩

theorem Owed.charTap (h : Owed times out s) (codepoint : UInt32) (hnow : nowUs ∈ times) :
    Owed times out (s.charTap codepoint nowUs).1 := by
  unfold ClientInputQueue.charTap
  cases charToKeyChord codepoint with
  | none => exact h
  | some chord =>
    have hdelay := h.delay (e := keyEvent chord.vk 0 false nowUs) rfl hnow
    have hwaits : ∀ thing, (keyEvent chord.vk 0 true nowUs).about? = some thing →
        (s.delay nowUs (keyEvent chord.vk 0 false nowUs)).Waits thing := by
      intro thing habout
      exact ⟨_, List.mem_append_right _ (List.mem_singleton_self _), habout⟩
    dsimp only
    cases chord.shift with
    | false => exact hdelay.push fun thing habout _ => .inr (hwaits thing habout)
    | true =>
      refine ⟨?_, hdelay.delayed⟩
      intro thing hpressed
      have hthree : Pressed thing (out ++ (((s.pushLocked (keyEvent kVkShift 0 true nowUs)).pushLocked
          (keyEvent chord.vk 0 true nowUs)).pushLocked (keyEvent kVkShift 0 false nowUs)).ready) :=
        hpressed
      -- shift is up again, so what is pressed is the key itself or was pressed before
      rcases pressed_pushLocked.mp hthree with ⟨-, hdown⟩ | ⟨hother, htwo⟩
      · exact absurd rfl hdown
      rcases pressed_pushLocked.mp htwo with ⟨habout, -⟩ | ⟨-, hone⟩
      · exact .inr (hwaits thing habout)
      rcases pressed_pushLocked.mp hone with ⟨habout, -⟩ | ⟨-, hbefore⟩
      · exact absurd habout hother
      · exact hdelay.accounted thing hbefore

/-- What `ReleaseAll` pushes. -/
theorem foldl_pushLocked {α : Type} (f : α → InputEvent) (xs : List α) (s : ClientInputQueue) :
    (xs.foldl (fun s x => s.pushLocked (f x)) s).ready = s.ready ++ xs.map f ∧
      (xs.foldl (fun s x => s.pushLocked (f x)) s).delayed = s.delayed ∧
      (xs.foldl (fun s x => s.pushLocked (f x)) s).keysDown = s.keysDown ∧
      (xs.foldl (fun s x => s.pushLocked (f x)) s).buttonsDown = s.buttonsDown := by
  induction xs generalizing s with
  | nil => exact ⟨(List.append_nil _).symm, rfl, rfl, rfl⟩
  | cons x xs ih =>
    rcases ih (s.pushLocked (f x)) with ⟨hready, hkept⟩
    refine ⟨?_, hkept⟩
    rw [List.foldl_cons, hready]
    show s.ready ++ [f x] ++ xs.map f = _
    rw [List.append_assoc, List.map_cons, List.singleton_append]

theorem releaseAll_spec (s : ClientInputQueue) (nowUs : UInt64) :
    (s.releaseAll nowUs).ready = s.ready ++
        (s.keysDown.entries.map (fun p => keyEvent p.1 p.2 false nowUs) ++
          s.buttonsDown.entries.map fun p => buttonEvent p.1 false nowUs) ∧
      (s.releaseAll nowUs).delayed = s.delayed ∧ (s.releaseAll nowUs).keysDown = .empty ∧
      (s.releaseAll nowUs).buttonsDown = .empty := by
  unfold releaseAll
  dsimp only
  rcases foldl_pushLocked (fun p : Int32 × Int32 => keyEvent p.1 p.2 false nowUs)
    s.keysDown.entries s with ⟨hkeys, hdelayed, -, hbuttons⟩
  generalize s.keysDown.entries.foldl
    (fun s p => s.pushLocked (keyEvent p.1 p.2 false nowUs)) s = after at hkeys hdelayed hbuttons ⊢
  rcases foldl_pushLocked (fun p : Int32 × Unit => buttonEvent p.1 false nowUs)
    after.buttonsDown.entries { after with keysDown := .empty } with ⟨hready, hdelayed', hempty, -⟩
  refine ⟨?_, hdelayed'.trans hdelayed, hempty, rfl⟩
  rw [hready, ← List.append_assoc, ← hkeys, hbuttons]

/-- Nothing is held any more. -/
def HoldsNothing (s : ClientInputQueue) : Prop := ∀ thing, ¬ s.Holds thing

theorem releaseAll_holdsNothing (s : ClientInputQueue) (nowUs : UInt64) :
    (s.releaseAll nowUs).HoldsNothing := by
  rcases s.releaseAll_spec nowUs with ⟨-, -, hkeys, hbuttons⟩
  intro thing
  cases thing with
  | key vk => simp [Holds, hkeys]
  | button button => simp [Holds, hbuttons]

/-- What was held is released. -/
theorem Owed.releaseAll (h : Owed times out s) : Owed times out (s.releaseAll nowUs) := by
  rcases s.releaseAll_spec nowUs with ⟨hready, hdelayed, -⟩
  constructor
  · intro thing hpressed
    rw [hready, ← List.append_assoc] at hpressed
    rcases hpressed.of_releases (by
      intro r hr
      rcases List.mem_append.mp hr with hkey | hbutton
      · rcases List.mem_map.mp hkey with ⟨p, -, rfl⟩
        rfl
      · rcases List.mem_map.mp hbutton with ⟨p, -, rfl⟩
        rfl) with ⟨hbefore, hnone⟩
    right
    rcases h.accounted thing hbefore with hheld | ⟨p, hp, habout⟩
    · exfalso
      cases thing with
      | key vk =>
        rcases Option.isSome_iff_exists.mp hheld with ⟨scan, hscan⟩
        have hmem : (vk, scan) ∈ s.keysDown.entries := OrdMap.Map.find?_eq_some.mp hscan
        exact hnone _ (List.mem_append_left _ (List.mem_map_of_mem hmem))
          (about?_keyEvent vk scan false nowUs)
      | button button =>
        rcases Option.isSome_iff_exists.mp hheld with ⟨_, hfound⟩
        have hmem : (button, ()) ∈ s.buttonsDown.entries := OrdMap.Map.find?_eq_some.mp hfound
        exact hnone _ (List.mem_append_right _ (List.mem_map_of_mem hmem))
          (about?_buttonEvent button false nowUs)
    · exact ⟨p, by rw [hdelayed]; exact hp, habout⟩
  · rw [hdelayed]
    exact h.delayed

/-- A drain hands over the releases that are due; the others wait on. -/
theorem Owed.drain (h : Owed times out s) :
    Owed times (out ++ (s.drain nowUs).2) (s.drain nowUs).1 := by
  constructor
  · intro thing hpressed
    have hall : Pressed thing ((out ++ s.ready) ++
        (s.delayed.filter fun p => p.1 ≤ nowUs).map Prod.snd) := by
      rw [List.append_assoc]
      rwa [show (s.drain nowUs).1.ready = [] from rfl, List.append_nil] at hpressed
    rcases hall.of_releases (by
      intro r hr
      rcases List.mem_map.mp hr with ⟨p, hp, rfl⟩
      exact (h.delayed p (List.mem_of_mem_filter hp)).1) with ⟨hbefore, hnone⟩
    refine (h.accounted thing hbefore).imp_right ?_
    rintro ⟨p, hp, habout⟩
    refine ⟨p, List.mem_filter.mpr ⟨hp, ?_⟩, habout⟩
    rw [decide_eq_true_iff]
    intro hdue
    exact hnone p.2 (List.mem_map_of_mem (List.mem_filter.mpr ⟨hp, by simpa using hdue⟩)) habout
  · intro p hp
    exact h.delayed p (List.mem_of_mem_filter hp)

end Step

/-! ## Runs -/

/-- The times of the calls that may push events. -/
def inputTimes (calls : List ClientInputCall) : List UInt64 := calls.filterMap ClientInputCall.time?

theorem inputTimes_append (calls later : List ClientInputCall) :
    inputTimes (calls ++ later) = inputTimes calls ++ inputTimes later :=
  List.filterMap_append

/-- The step lemma. -/
theorem Owed.step {times : List UInt64} {out : List InputEvent} {s : ClientInputQueue}
    (h : Owed times out s) (c : ClientInputCall) :
    Owed (times ++ inputTimes [c]) (out ++ (clientInputQueue.step s c).2)
      (clientInputQueue.step s c).1 := by
  have hnow : ∀ t, c.time? = some t → t ∈ times ++ inputTimes [c] := by
    intro t ht
    exact List.mem_append_right _ (List.mem_filterMap.mpr ⟨c, List.mem_singleton_self c, ht⟩)
  have hmore : Owed (times ++ inputTimes [c]) out s := h.mono
  -- only a drain hands events over
  cases c with
  | drain nowUs => exact hmore.drain
  | key vk scan down nowUs => exact (List.append_nil out).symm ▸ hmore.key vk scan down
  | keyTap vk scan nowUs => exact (List.append_nil out).symm ▸ hmore.tap vk scan (hnow nowUs rfl)
  | keyChord modVk modScan vk scan nowUs =>
    exact (List.append_nil out).symm ▸ hmore.keyChord modVk modScan vk scan (hnow nowUs rfl)
  | charTap codepoint nowUs =>
    exact (List.append_nil out).symm ▸ hmore.charTap codepoint (hnow nowUs rfl)
  | mouseMoveAbsolute nx ny nowUs =>
    refine (List.append_nil out).symm ▸ hmore.push ?_
    intro thing habout
    cases habout
  | mouseButtonEvent button down nowUs =>
    exact (List.append_nil out).symm ▸ hmore.mouseButtonEvent button down
  | mouseWheel delta nowUs =>
    show Owed _ (out ++ []) (s.mouseWheel delta nowUs)
    rw [List.append_nil]
    unfold mouseWheel
    split
    · exact hmore
    · refine hmore.push ?_
      intro thing habout
      cases habout
  | releaseAll nowUs => exact (List.append_nil out).symm ▸ hmore.releaseAll

/-- The run lemma. -/
theorem owed_run (calls : List ClientInputCall) :
    Owed (inputTimes calls) (clientInputQueue.run {} calls).2 (clientInputQueue.run {} calls).1 := by
  induction calls using List.reverseRecOn with
  | nil => exact .fresh
  | append_singleton calls c ih =>
    rw [inputTimes_append, Machine.run_concat]
    exact ih.step c

/-- Drains take nothing into the hand. -/
theorem holdsNothing_drains {s : ClientInputQueue} (h : s.HoldsNothing) (drains : List UInt64) :
    (clientInputQueue.run s (drains.map .drain)).1.HoldsNothing := by
  induction drains generalizing s with
  | nil => exact h
  | cons nowUs drains ih =>
    rw [List.map_cons, Machine.run_cons]
    apply ih
    intro thing
    cases thing with
    | key vk => exact h (.key vk)
    | button button => exact h (.button button)

/-- After `ReleaseAll` and a drain one hold later, the last event about each key and button is a
release. -/
theorem clientInput_released (calls : List ClientInputCall) (nowUs lateUs : UInt64)
    (drains : List UInt64) (hmono : (inputTimes (calls ++ [.releaseAll nowUs])).Pairwise (· ≤ ·))
    (hlate : nowUs.toNat + kTapHoldUs.toNat ≤ lateUs.toNat) (thing : InputThing) (e : InputEvent)
    (hlast : lastAbout thing (clientInputQueue.run {}
      (calls ++ [.releaseAll nowUs] ++ drains.map .drain ++ [.drain lateUs])).2 = some e) :
    e.state = 0 := by
  have howed := owed_run (calls ++ [.releaseAll nowUs] ++ drains.map .drain)
  have hnothing : (clientInputQueue.run {}
      (calls ++ [.releaseAll nowUs] ++ drains.map .drain)).1.HoldsNothing := by
    rw [Machine.run_append, Machine.run_concat]
    exact holdsNothing_drains (releaseAll_holdsNothing _ nowUs) drains
  have htimes : inputTimes (calls ++ [.releaseAll nowUs] ++ drains.map .drain) =
      inputTimes (calls ++ [.releaseAll nowUs]) := by
    rw [inputTimes_append]
    have hnone : inputTimes (drains.map .drain) = [] := by
      simp [inputTimes, ClientInputCall.time?]
    rw [hnone, List.append_nil]
  rw [htimes] at howed
  rw [Machine.run_concat] at hlast
  generalize clientInputQueue.run {} (calls ++ [.releaseAll nowUs] ++ drains.map .drain) = before
    at howed hnothing hlast
  by_contra hdown
  have hpressed : Pressed thing ((before.2 ++ (before.1.drain lateUs).2) ++
      (before.1.drain lateUs).1.ready) := by
    rw [show (before.1.drain lateUs).1.ready = [] from rfl, List.append_nil]
    exact ⟨e, hlast, hdown⟩
  rcases howed.drain.accounted thing hpressed with hheld | ⟨p, hp, -⟩
  · refine hnothing thing ?_
    cases thing <;> exact hheld
  · -- every release is due by then
    rcases List.mem_filter.mp hp with ⟨hwaits, hnotdue⟩
    rcases (howed.delayed p hwaits).2 with ⟨t, ht, hdue⟩
    have hbefore : t ≤ nowUs := by
      rw [inputTimes_append] at hmono ht
      rcases List.mem_append.mp ht with hold | hnew
      · exact (List.pairwise_append.mp hmono).2.2 t hold nowUs (List.mem_singleton_self nowUs)
      · exact UInt64.le_of_eq (List.mem_singleton.mp hnew)
    rw [decide_eq_true_iff, hdue, UInt64.le_iff_toNat_le, UInt64.toNat_add] at hnotdue
    have hle := UInt64.le_iff_toNat_le.mp hbefore
    have hmost := lateUs.toNat_lt
    rw [Nat.mod_eq_of_lt (by omega)] at hnotdue
    omega

/-- A held key, a tap and a chord that overlap: all of them are up in the end. -/
theorem clientInput_released_overlap :
    ∃ e, lastAbout (.key 0x41) (clientInputQueue.run {}
      ([.key 0x41 0x1E true 10, .keyTap 0x41 0x1E 20, .drain 30, .keyChord 0x11 0x1D 0x41 0x1E 40,
        .mouseButtonEvent 1 true 50] ++ [.releaseAll 60] ++ [70].map .drain ++
          [.drain 50060])).2 = some e ∧ e.state = 0 := by
  have hsome : (lastAbout (.key 0x41) (clientInputQueue.run {}
      ([.key 0x41 0x1E true 10, .keyTap 0x41 0x1E 20, .drain 30, .keyChord 0x11 0x1D 0x41 0x1E 40,
        .mouseButtonEvent 1 true 50] ++ [.releaseAll 60] ++ [70].map .drain ++
          [.drain 50060])).2).isSome = true := by
    decide +kernel
  rcases Option.isSome_iff_exists.mp hsome with ⟨e, hlast⟩
  exact ⟨e, hlast, clientInput_released _ 60 50060 [70] (by decide +kernel) (by decide) (.key 0x41) e hlast⟩

end ClientInputQueue

end Deskhub
