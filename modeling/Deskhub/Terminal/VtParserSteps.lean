import Deskhub.Terminal.VtParser

/-!
# What the parser makes of well-formed pieces

An idle parser is between characters and sequences. A piece of output emits its
events when every idle parser makes them of it and is idle again; pieces are put
together by `Emits.append`. In the middle of anything, an escape that starts a
sequence brings the parser where an idle one would be.
-/

namespace Deskhub

/-- A code point a screen may show. -/
def Printable (cp : Nat) : Prop := 0x20 ≤ cp ∧ cp ≠ 0x7F ∧ isScalar cp = true

instance (cp : Nat) : Decidable (Printable cp) := inferInstanceAs (Decidable (_ ∧ _ ∧ _))

theorem isScalar_iff {cp : Nat} :
    isScalar cp = true ↔ cp ≤ 0x10FFFF ∧ (cp < 0xD800 ∨ 0xDFFF < cp) := by
  unfold isScalar isSurrogate kMaxCodepoint
  grind

theorem printable_replacement : Printable kReplacement := by decide

/-- A byte that may stand in the text of an OSC sequence. -/
def OscByte (b : UInt8) : Prop := b ≠ kEsc ∧ b ≠ kBel ∧ b ≠ kCan ∧ b ≠ kSub

instance (b : UInt8) : Decidable (OscByte b) := inferInstanceAs (Decidable (_ ∧ _ ∧ _ ∧ _))

/-- What every event the parser emits keeps to. -/
def VtEvent.Ok : VtEvent → Prop
  | .print cp => Printable cp
  | .osc _ text => ∀ b ∈ text, OscByte b
  | _ => True

namespace VtParser

/-- Between characters and sequences. -/
def Idle (p : VtParser) : Prop := p.state = .ground ∧ p.utf8Left = 0

/-- What holds of a parser whatever it was fed. -/
structure Ok (p : VtParser) : Prop where
  whole : p.state ≠ .ground → p.utf8Left = 0
  least : 0 < p.utf8Left → 0x80 ≤ p.utf8Min
  osc : ∀ b ∈ p.osc, OscByte b

theorem parse_nil (p : VtParser) : p.parse [] = (p, []) := rfl

theorem parse_cons (p : VtParser) (b : UInt8) (bs : Bytes) :
    p.parse (b :: bs) =
      (((p.consume b).1.parse bs).1, (p.consume b).2 ++ ((p.consume b).1.parse bs).2) := rfl

theorem parse_append (p : VtParser) (xs ys : Bytes) :
    p.parse (xs ++ ys) =
      (((p.parse xs).1.parse ys).1, (p.parse xs).2 ++ ((p.parse xs).1.parse ys).2) :=
  vtParser.run_append p xs ys

theorem parse_singleton (p : VtParser) (b : UInt8) : p.parse [b] = p.consume b := by
  rw [parse_cons, parse_nil]
  simp

/-! ## The invariant -/

theorem Ok.init : Ok {} := by
  refine ⟨fun h => absurd rfl h, ?_, ?_⟩
  · intro h
    cases h
  · intro b hb
    cases hb

theorem Ok.started {p : VtParser} (h : Ok p) : Ok p.startSequence := by
  refine ⟨h.whole, h.least, ?_⟩
  intro b hb
  cases hb

/-- Another state of a sequence, with no character begun. -/
theorem Ok.moved {p : VtParser} (h : Ok p) (hwhole : p.utf8Left = 0) (state : VtState) :
    Ok { p with state := state } :=
  ⟨fun _ => hwhole, h.least, h.osc⟩

theorem lead_ok {p : VtParser} (h : Ok p) (hground : p.state = .ground) {byte : UInt8} (hbyte : ¬byte < 0x20) (hdel : byte ≠ kDel) :
    Ok (p.consumeLead byte).1 ∧ (p.consumeLead byte).1.state = .ground ∧
      ∀ e ∈ (p.consumeLead byte).2, e.Ok := by
  unfold consumeLead
  split
  · next hlt =>
    refine ⟨h, hground, ?_⟩
    intro e he
    rw [List.mem_singleton.mp he]
    have h1 : byte.toNat < 0x80 := UInt8.lt_iff_toNat_lt.mp hlt
    have h2 : ¬byte.toNat < 0x20 := fun hn => hbyte (UInt8.lt_iff_toNat_lt.mpr hn)
    have h3 : byte.toNat ≠ 0x7F := fun hn => hdel (UInt8.toNat_inj.mp hn)
    exact ⟨by omega, h3, isScalar_iff.mpr ⟨by omega, Or.inl (by omega)⟩⟩
  · split
    · exact ⟨⟨fun hs => absurd hground hs, fun _ => Nat.le_refl _, h.osc⟩, hground, by simp⟩
    · split
      · exact ⟨⟨fun hs => absurd hground hs, fun _ => by show 0x80 ≤ 0x800; omega, h.osc⟩, hground,
          by simp⟩
      · split
        · exact ⟨⟨fun hs => absurd hground hs, fun _ => by show 0x80 ≤ 0x10000; omega, h.osc⟩,
            hground, by simp⟩
        · refine ⟨h, hground, ?_⟩
          intro e he
          rw [List.mem_singleton.mp he]
          exact printable_replacement

/-- What one byte does: the parser stays well, and so are its events. -/
def StepOk (r : VtParser × List VtEvent) : Prop := Ok r.1 ∧ ∀ e ∈ r.2, e.Ok

theorem Ok.quiet {p : VtParser} (h : Ok p) : StepOk (p, []) := ⟨h, by simp⟩

theorem single_ok {e : VtEvent} (he : e.Ok) : ∀ e' ∈ [e], e'.Ok := by
  intro e' he'
  rw [List.mem_singleton.mp he']
  exact he

theorem Ok.emits {p : VtParser} (h : Ok p) {e : VtEvent} (he : e.Ok) : StepOk (p, [e]) :=
  ⟨h, single_ok he⟩

theorem Ok.dropped {p : VtParser} (h : Ok p) : StepOk p.dropPartial ∧ (p.dropPartial).1.utf8Left = 0 := by
  unfold dropPartial
  split
  · refine ⟨⟨⟨fun _ => rfl, ?_, h.osc⟩, single_ok printable_replacement⟩, rfl⟩
    intro hpos
    cases hpos
  · next hnone => exact ⟨h.quiet, Nat.eq_zero_of_not_pos hnone⟩

theorem ground_ok {p : VtParser} (h : Ok p) (hground : p.state = .ground) (byte : UInt8) :
    StepOk (p.ground byte) := by
  rcases h.dropped with ⟨⟨hdropped, hevents⟩, hwhole⟩
  unfold ground
  split
  · exact ⟨hdropped.started.moved hwhole .escape, hevents⟩
  · split
    · refine ⟨hdropped, ?_⟩
      intro e he
      rcases List.mem_append.mp he with he | he
      · exact hevents e he
      · split at he
        · rw [List.mem_singleton.mp he]
          trivial
        · cases he
    · next hprints =>
      have hbyte : ¬byte < 0x20 := (not_or.mp hprints).1
      unfold consumeGround
      split
      · next hpartial =>
        split
        · -- the character goes on
          dsimp only
          split
          · next hlast =>
            refine ⟨⟨fun hs => absurd hground hs, ?_, h.osc⟩, single_ok ?_⟩
            · intro hpos
              rw [hlast] at hpos
              cases hpos
            · have hleast := h.least hpartial
              show Printable _
              split
              · next hok =>
                simp only [Bool.and_eq_true, decide_eq_true_eq] at hok
                exact ⟨by omega, by omega, hok.2⟩
              · exact printable_replacement
          · exact Ok.quiet ⟨fun hs => absurd hground hs, fun _ => h.least hpartial, h.osc⟩
        · -- the character is given up, and the byte begins another
          have hstopped : Ok { p with utf8Left := 0 } :=
            ⟨fun _ => rfl, fun hpos => absurd hpos (Nat.lt_irrefl 0), h.osc⟩
          rcases lead_ok hstopped hground hbyte (not_or.mp hprints).2 with ⟨hlead, -, hout⟩
          refine ⟨hlead, ?_⟩
          intro e he
          rcases List.mem_cons.mp he with rfl | he
          · exact printable_replacement
          · exact hout e he
      · rcases lead_ok h hground hbyte (not_or.mp hprints).2 with ⟨hlead, -, hout⟩
        exact ⟨hlead, hout⟩

theorem executeOr_ok {p : VtParser} (h : Ok p) (byte : UInt8) : StepOk (p.executeOr byte) := by
  unfold executeOr
  split
  · exact h.emits trivial
  · exact h.quiet

theorem escape_ok {p : VtParser} (h : Ok p) (hwhole : p.utf8Left = 0) (byte : UInt8) :
    StepOk (p.escape byte) := by
  unfold escape
  split
  · exact h.started.quiet
  · split
    · exact (h.moved hwhole .csiEntry).quiet
    · split
      · exact (h.moved hwhole .oscString).quiet
      · split
        · exact (h.moved hwhole .stringIgnore).quiet
        · split
          · exact Ok.quiet ⟨fun _ => hwhole, h.least, h.osc⟩
          · split
            · exact (h.moved hwhole .ground).emits trivial
            · exact executeOr_ok h byte

theorem mem_dropWhile {f : UInt8 → Bool} {bs : Bytes} {b : UInt8} (h : b ∈ bs.dropWhile f) :
    b ∈ bs := (List.dropWhile_sublist f).subset h

theorem endOfString_ok {p : VtParser} (h : Ok p) : ∀ e ∈ p.endOfString, e.Ok := by
  unfold endOfString
  split
  · intro e he
    rw [List.mem_singleton.mp he]
    show ∀ b ∈ _, OscByte b
    intro b hb
    split at hb
    · exact h.osc b (mem_dropWhile (List.mem_of_mem_drop hb))
    · exact h.osc b (mem_dropWhile hb)
  · simp

theorem string_ok {p : VtParser} (h : Ok p) (hwhole : p.utf8Left = 0) (byte : UInt8) :
    StepOk (p.string byte) := by
  have hcleared : ∀ state inString, Ok { p with osc := [], state := state, escInString := inString } := by
    intro state inString
    refine ⟨fun _ => hwhole, h.least, ?_⟩
    intro b hb
    cases hb
  unfold string
  split
  · split
    · refine ⟨⟨fun _ => hwhole, h.least, ?_⟩, endOfString_ok h⟩
      intro b hb
      split at hb
      · cases hb
      · exact h.osc b hb
    · rcases escape_ok (h.started.moved hwhole .escape) hwhole byte with ⟨hnext, hout⟩
      refine ⟨hnext, ?_⟩
      intro e he
      rcases List.mem_append.mp he with he | he
      · exact endOfString_ok h e he
      · exact hout e he
  · split
    · exact Ok.quiet ⟨fun _ => hwhole, h.least, h.osc⟩
    · next hesc =>
      split
      · exact ⟨hcleared .ground p.escInString, endOfString_ok h⟩
      · next hbel =>
        split
        · exact (hcleared .ground p.escInString).quiet
        · next hcan =>
          split
          · refine Ok.quiet ⟨fun _ => hwhole, h.least, ?_⟩
            intro b hb
            rcases List.mem_append.mp hb with hb | hb
            · exact h.osc b hb
            · rw [List.mem_singleton.mp hb]
              push Not at hcan
              exact ⟨hesc, hbel, hcan.1, hcan.2⟩
          · exact h.quiet

/-- The start of another sequence. -/
theorem Ok.restarted {p : VtParser} (h : Ok p) (hwhole : p.utf8Left = 0) :
    StepOk ({ p.startSequence with state := .escape }, []) :=
  (h.started.moved hwhole .escape).quiet

theorem escapeIntermediate_ok {p : VtParser} (h : Ok p) (hwhole : p.utf8Left = 0) (byte : UInt8) :
    StepOk (p.escapeIntermediate byte) := by
  unfold escapeIntermediate
  split
  · exact h.restarted hwhole
  · split
    · exact Ok.quiet ⟨h.whole, h.least, h.osc⟩
    · split
      · exact (h.moved hwhole .ground).emits trivial
      · exact executeOr_ok h byte

theorem csiParam_ok {p : VtParser} (h : Ok p) (hwhole : p.utf8Left = 0) (byte : UInt8) :
    StepOk (p.csiParam byte) := by
  unfold csiParam
  split
  · exact Ok.quiet ⟨fun _ => hwhole, h.least, h.osc⟩
  · split
    · exact Ok.quiet ⟨fun _ => hwhole, h.least, h.osc⟩
    · split
      · split
        · exact Ok.quiet ⟨fun _ => hwhole, h.least, h.osc⟩
        · exact (h.moved hwhole .csiIgnore).quiet
      · split
        · exact Ok.quiet ⟨fun _ => hwhole, h.least, h.osc⟩
        · split
          · exact (h.moved hwhole .ground).emits trivial
          · split
            · exact h.restarted hwhole
            · exact executeOr_ok h byte

theorem csiIntermediate_ok {p : VtParser} (h : Ok p) (hwhole : p.utf8Left = 0) (byte : UInt8) :
    StepOk (p.csiIntermediate byte) := by
  unfold csiIntermediate
  split
  · exact Ok.quiet ⟨h.whole, h.least, h.osc⟩
  · split
    · exact (h.moved hwhole .ground).emits trivial
    · split
      · exact h.restarted hwhole
      · split
        · exact h.emits trivial
        · exact (h.moved hwhole .csiIgnore).quiet

theorem csiIgnore_ok {p : VtParser} (h : Ok p) (hwhole : p.utf8Left = 0) (byte : UInt8) :
    StepOk (p.csiIgnore byte) := by
  unfold csiIgnore
  split
  · exact (h.moved hwhole .ground).quiet
  · split
    · exact h.restarted hwhole
    · exact executeOr_ok h byte

theorem consume_ok {p : VtParser} (h : Ok p) (byte : UInt8) : StepOk (p.consume byte) := by
  unfold consume
  cases hstate : p.state with
  | ground => exact ground_ok h hstate byte
  | escape => exact escape_ok h (h.whole (by simp [hstate])) byte
  | escapeIntermediate => exact escapeIntermediate_ok h (h.whole (by simp [hstate])) byte
  | csiEntry | csiParam => exact csiParam_ok h (h.whole (by simp [hstate])) byte
  | csiIntermediate => exact csiIntermediate_ok h (h.whole (by simp [hstate])) byte
  | csiIgnore => exact csiIgnore_ok h (h.whole (by simp [hstate])) byte
  | oscString | stringIgnore => exact string_ok h (h.whole (by simp [hstate])) byte

theorem parse_ok {p : VtParser} (h : Ok p) (bytes : Bytes) : StepOk (p.parse bytes) := by
  induction bytes generalizing p with
  | nil => exact h.quiet
  | cons b bytes ih =>
    rcases consume_ok h b with ⟨hone, hout⟩
    rcases ih hone with ⟨hrest, hmore⟩
    rw [parse_cons]
    refine ⟨hrest, ?_⟩
    intro e he
    rcases List.mem_append.mp he with he | he
    · exact hout e he
    · exact hmore e he

/-! ## Coming back in step -/

/-- The event that ends what the parser is in the middle of. -/
def interrupted (p : VtParser) : List VtEvent :=
  if p.state = .ground then p.dropPartial.2 else p.endOfString

/-- The parser with nothing begun. -/
def settled (p : VtParser) : VtParser := { p with state := .ground, utf8Left := 0 }

theorem settled_idle (p : VtParser) : p.settled.Idle := ⟨rfl, rfl⟩

/-- The parser behind an escape. -/
def atEscape (p : VtParser) : VtParser :=
  { p.startSequence with state := .escape, utf8Left := 0 }

/-- In the middle of anything but a string, an escape starts a sequence at once. -/
theorem consume_esc {p : VtParser} (h : Ok p)
    (hstring : p.state ≠ .oscString ∧ p.state ≠ .stringIgnore) :
    p.consume kEsc = (p.atEscape, p.interrupted) := by
  have hat : p.utf8Left = 0 → ({ p.startSequence with state := .escape } : VtParser) = p.atEscape := by
    intro hwhole
    show ({ p.startSequence with state := .escape, utf8Left := p.utf8Left } : VtParser) = _
    rw [hwhole]
    rfl
  cases hstate : p.state with
  | ground =>
    simp only [consume, hstate, ground, interrupted, if_true, dropPartial]
    split
    · rfl
    · next hnone => rw [← hat (Nat.eq_zero_of_not_pos hnone)]
  | escape =>
    have hsame : p.startSequence = ({ p.startSequence with state := .escape } : VtParser) := by
      show ({ p.startSequence with state := p.state } : VtParser) = _
      rw [hstate]
    have hwhole := h.whole (by simp [hstate])
    have hnone : p.interrupted = [] := by simp [interrupted, endOfString, hstate]
    rw [hnone, ← hat hwhole, ← hsame]
    simp [consume, hstate, escape]
  | oscString => exact absurd hstate hstring.1
  | stringIgnore => exact absurd hstate hstring.2
  | _ =>
    have hwhole := h.whole (by simp [hstate])
    have hnone : p.interrupted = [] := by simp [interrupted, endOfString, hstate]
    rw [hnone, ← hat hwhole]
    simp only [consume, hstate]
    rfl

/-- A byte behind an escape, seen from the middle of anything. -/
theorem parse_esc {p : VtParser} (h : Ok p) {b : UInt8} (hb : b ≠ 0x5C) :
    p.parse [kEsc, b] =
      ((p.atEscape.escape b).1, p.interrupted ++ (p.atEscape.escape b).2) := by
  have hnext : p.atEscape.consume b = p.atEscape.escape b := rfl
  by_cases hstring : p.state ≠ .oscString ∧ p.state ≠ .stringIgnore
  · rw [parse_cons, consume_esc h hstring, parse_singleton, hnext]
  · have hwhole : p.utf8Left = 0 := by
      apply h.whole
      intro hground
      exact hstring (by simp [hground])
    have hends : p.interrupted = p.endOfString := by
      unfold interrupted
      rw [if_neg]
      intro hground
      exact hstring (by simp [hground])
    have hconsume : ∀ (q : VtParser) (byte : UInt8), q.state = p.state → q.consume byte = q.string byte := by
      intro q byte hq
      unfold consume
      rw [hq]
      cases hstate : p.state with
      | oscString => rfl
      | stringIgnore => rfl
      | _ => exact absurd (by simp [hstate]) hstring
    have hat : ({ p.startSequence with state := .escape } : VtParser) = p.atEscape := by
      show ({ p.startSequence with state := .escape, utf8Left := p.utf8Left } : VtParser) = _
      rw [hwhole]
      rfl
    cases hin : p.escInString with
    | true =>
      -- the first escape ends the string and starts a sequence, which starts anew
      have hfirst : p.consume kEsc = (p.atEscape, p.endOfString) := by
        rw [hconsume p kEsc rfl]
        unfold string
        rw [if_pos hin, if_neg (by decide), hat]
        simp [escape, atEscape, startSequence]
      rw [parse_cons, hfirst, parse_singleton, hnext, hends]
    | false =>
      have hfirst : p.consume kEsc = ({ p with escInString := true }, []) := by
        rw [hconsume p kEsc rfl]
        unfold string
        rw [if_neg (by simp [hin]), if_pos rfl]
      have hsecond : ({ p with escInString := true } : VtParser).consume b =
          ((p.atEscape.escape b).1, p.endOfString ++ (p.atEscape.escape b).2) := by
        rw [hconsume { p with escInString := true } b rfl, ← hat]
        unfold string
        rw [if_pos rfl, if_neg hb]
        rfl
      rw [parse_cons, hfirst, parse_singleton, hsecond, hends]
      rfl

/-- An escape that starts a sequence brings the parser where an idle one would be. -/
theorem parse_resync {p : VtParser} (h : Ok p) {b : UInt8} (hb : b ≠ 0x5C) (w : Bytes) :
    p.parse (kEsc :: b :: w) =
      ((p.settled.parse (kEsc :: b :: w)).1,
        p.interrupted ++ (p.settled.parse (kEsc :: b :: w)).2) := by
  have hsettled : Ok p.settled := ⟨fun hs => absurd rfl hs, fun hpos => absurd hpos (Nat.lt_irrefl 0), h.osc⟩
  have hnone : p.settled.interrupted = [] := rfl
  have hsame : p.settled.atEscape = p.atEscape := rfl
  have hsplit : kEsc :: b :: w = [kEsc, b] ++ w := rfl
  rw [hsplit, parse_append, parse_append, parse_esc h hb, parse_esc hsettled hb, hnone, hsame,
    List.nil_append, List.append_assoc]

/-! ## Pieces -/

/-- An idle parser makes `es` of `bs`, and is idle again. -/
def Emits (bs : Bytes) (es : List VtEvent) : Prop :=
  ∀ p : VtParser, p.Idle → (p.parse bs).2 = es ∧ (p.parse bs).1.Idle

theorem Emits.nil : Emits [] [] := fun _ h => ⟨rfl, h⟩

theorem Emits.append {xs ys : Bytes} {es fs : List VtEvent} (hx : Emits xs es) (hy : Emits ys fs) :
    Emits (xs ++ ys) (es ++ fs) := by
  intro p hp
  rcases hx p hp with ⟨hes, hidle⟩
  rcases hy _ hidle with ⟨hfs, hidle'⟩
  rw [parse_append, hes, hfs]
  exact ⟨rfl, hidle'⟩

/-- A piece that is there or not. -/
theorem Emits.ite {c : Prop} [Decidable c] {xs : Bytes} {es : List VtEvent} (h : Emits xs es) :
    Emits (if c then xs else []) (if c then es else []) := by
  split
  · exact h
  · exact .nil

theorem emits_execute {b : UInt8} (hlow : b < 0x20) (hesc : b ≠ kEsc) :
    Emits [b] [.execute b] := by
  rintro p ⟨hground, hwhole⟩
  have hdel : b ≠ kDel := by
    rintro rfl
    exact absurd hlow (by decide)
  rw [parse_singleton]
  simp [consume, hground, ground, hesc, hlow, hdel, dropPartial, hwhole, Idle]

/-! ### Characters -/

/-- A continuation byte with its six bits. -/
theorem tail_byte {x : Nat} (hx : x < 64) :
    UInt8.ofNat (0x80 ||| x) &&& 0xC0 = 0x80 ∧ (UInt8.ofNat (0x80 ||| x)).toNat &&& 0x3F = x ∧
      UInt8.ofNat (0x80 ||| x) ≠ kEsc ∧ ¬UInt8.ofNat (0x80 ||| x) < 0x20 ∧
      UInt8.ofNat (0x80 ||| x) ≠ kDel := by
  revert x
  decide

theorem and_63 (x : Nat) : x &&& 0x3F = x % 64 := Nat.and_two_pow_sub_one_eq_mod x 6

/-- Six more bits. -/
theorem push_six (acc : Nat) {x : Nat} (hx : x < 64) : acc <<< 6 ||| x = acc * 64 + x := by
  rw [← Nat.shiftLeft_add_eq_or_of_lt (by simpa using hx), Nat.shiftLeft_eq]

/-- A byte that is neither a control nor an escape. -/
theorem consume_printing {p : VtParser} (hground : p.state = .ground) {b : UInt8} (hesc : b ≠ kEsc)
    (hlow : ¬b < 0x20) (hdel : b ≠ kDel) : p.consume b = p.consumeGround b := by
  have hcontrol : ¬(b < 0x20 ∨ b = kDel) := not_or.mpr ⟨hlow, hdel⟩
  unfold consume
  rw [hground]
  show p.ground b = _
  unfold ground
  rw [if_neg hesc, if_neg hcontrol]

/-- In the middle of a character, with `left` bytes to come. -/
structure Within (p : VtParser) (left acc least : Nat) : Prop where
  ground : p.state = .ground
  left : p.utf8Left = left
  acc : p.utf8Acc = acc
  least : p.utf8Min = least

/-- The bytes end the character with the code point `cp`. -/
def Finishes (p : VtParser) (bs : Bytes) (cp : Nat) : Prop :=
  (p.parse bs).2 = [.print cp] ∧ (p.parse bs).1.Idle

/-- A byte that emits nothing, in front of the ones that finish. -/
theorem Finishes.cons {p : VtParser} {b : UInt8} {bs : Bytes} {cp : Nat}
    (hquiet : (p.consume b).2 = []) (h : Finishes (p.consume b).1 bs cp) :
    Finishes p (b :: bs) cp := by
  unfold Finishes
  rw [parse_cons, hquiet]
  exact h

/-- A continuation byte that is not the last. -/
theorem Within.tail {p : VtParser} {left acc least : Nat} (h : Within p (left + 2) acc least)
    {x : Nat} (hx : x < 64) {bs : Bytes} {cp : Nat}
    (hrest : ∀ q, Within q (left + 1) (acc * 64 + x) least → Finishes q bs cp) :
    Finishes p (UInt8.ofNat (0x80 ||| x) :: bs) cp := by
  rcases tail_byte hx with ⟨htail, hbits, hesc, hlow, hdel⟩
  have hleft := h.left
  have hconsume : p.consume (UInt8.ofNat (0x80 ||| x)) =
      ({ p with utf8Acc := p.utf8Acc * 64 + x, utf8Left := p.utf8Left - 1 }, []) := by
    rw [consume_printing h.ground hesc hlow hdel]
    unfold consumeGround
    rw [if_pos (by omega), if_pos htail, hbits, push_six _ hx]
    dsimp only
    rw [if_neg (by omega)]
  apply Finishes.cons
  · rw [hconsume]
  · rw [hconsume]
    apply hrest
    refine ⟨h.ground, ?_, ?_, h.least⟩
    · show p.utf8Left - 1 = left + 1
      omega
    · show p.utf8Acc * 64 + x = acc * 64 + x
      rw [h.acc]

/-- The last continuation byte. -/
theorem Within.last {p : VtParser} {acc least : Nat} (h : Within p 1 acc least) {x : Nat}
    (hx : x < 64) {cp : Nat} (hcp : acc * 64 + x = cp) (hleast : least ≤ cp)
    (hscalar : isScalar cp = true) : Finishes p [UInt8.ofNat (0x80 ||| x)] cp := by
  rcases tail_byte hx with ⟨htail, hbits, hesc, hlow, hdel⟩
  have hleft := h.left
  have hacc : p.utf8Acc * 64 + x = cp := by rw [h.acc, hcp]
  have hmin : p.utf8Min ≤ cp := by rw [h.least]; exact hleast
  have hconsume : p.consume (UInt8.ofNat (0x80 ||| x)) =
      ({ p with utf8Acc := cp, utf8Left := 0 }, [.print cp]) := by
    rw [consume_printing h.ground hesc hlow hdel]
    unfold consumeGround
    rw [if_pos (by omega), if_pos htail, hbits, push_six _ hx, hacc]
    simp [hleft, hmin, hscalar]
  unfold Finishes
  rw [parse_singleton, hconsume]
  exact ⟨rfl, h.ground, rfl⟩

/-- The first byte of a character of two bytes or more. -/
theorem consume_first {p : VtParser} (hp : p.Idle) {b : UInt8} (hb : 0xC2 ≤ b) :
    p.consume b = p.consumeLead b := by
  have h1 : 0xC2 ≤ b.toNat := UInt8.le_iff_toNat_le.mp hb
  have hesc : b ≠ kEsc := by
    rintro rfl
    exact absurd h1 (by decide)
  have hdel : b ≠ kDel := by
    rintro rfl
    exact absurd h1 (by decide)
  have hlow : ¬b < 0x20 := by
    intro hlt
    have : b.toNat < 0x20 := UInt8.lt_iff_toNat_lt.mp hlt
    omega
  rw [consume_printing hp.1 hesc hlow hdel]
  unfold consumeGround
  rw [if_neg (by rw [hp.2]; exact Nat.lt_irrefl 0)]

/-- A first byte, when `consumeLead` begins a character with it. -/
theorem Idle.lead {p : VtParser} (hp : p.Idle) {b : UInt8} (hb : 0xC2 ≤ b) {left acc least : Nat}
    (hlead : p.consumeLead b =
      ({ p with utf8Acc := acc, utf8Left := left, utf8Min := least }, [])) {bs : Bytes} {cp : Nat}
    (hrest : ∀ q, Within q left acc least → Finishes q bs cp) : Finishes p (b :: bs) cp := by
  apply Finishes.cons
  · rw [consume_first hp hb, hlead]
  · rw [consume_first hp hb, hlead]
    exact hrest _ ⟨hp.1, rfl, rfl, rfl⟩

theorem Idle.lead_two {p : VtParser} (hp : p.Idle) {x : Nat} (hx : 2 ≤ x ∧ x < 32) {bs : Bytes}
    {cp : Nat} (hrest : ∀ q, Within q 1 x 0x80 → Finishes q bs cp) :
    Finishes p (UInt8.ofNat (0xC0 ||| x) :: bs) cp := by
  have h : ∀ x < 32, 2 ≤ x → ¬UInt8.ofNat (0xC0 ||| x) < 0x80 ∧
      0xC2 ≤ UInt8.ofNat (0xC0 ||| x) ∧ UInt8.ofNat (0xC0 ||| x) ≤ 0xDF ∧
      (UInt8.ofNat (0xC0 ||| x)).toNat &&& 0x1F = x := by decide
  rcases h x hx.2 hx.1 with ⟨hlow, hfirst, hlast, hbits⟩
  refine hp.lead hfirst ?_ hrest
  unfold consumeLead
  rw [if_neg hlow, if_pos ⟨hfirst, hlast⟩, hbits]

theorem Idle.lead_three {p : VtParser} (hp : p.Idle) {x : Nat} (hx : x < 16) {bs : Bytes}
    {cp : Nat} (hrest : ∀ q, Within q 2 x 0x800 → Finishes q bs cp) :
    Finishes p (UInt8.ofNat (0xE0 ||| x) :: bs) cp := by
  have h : ∀ x < 16, ¬UInt8.ofNat (0xE0 ||| x) < 0x80 ∧ 0xC2 ≤ UInt8.ofNat (0xE0 ||| x) ∧
      ¬(0xC2 ≤ UInt8.ofNat (0xE0 ||| x) ∧ UInt8.ofNat (0xE0 ||| x) ≤ 0xDF) ∧
      (0xE0 ≤ UInt8.ofNat (0xE0 ||| x) ∧ UInt8.ofNat (0xE0 ||| x) ≤ 0xEF) ∧
      (UInt8.ofNat (0xE0 ||| x)).toNat &&& 0x0F = x := by decide
  rcases h x hx with ⟨hlow, hfirst, htwo, hthree, hbits⟩
  refine hp.lead hfirst ?_ hrest
  unfold consumeLead
  rw [if_neg hlow, if_neg htwo, if_pos hthree, hbits]

theorem Idle.lead_four {p : VtParser} (hp : p.Idle) {x : Nat} (hx : x < 5) {bs : Bytes}
    {cp : Nat} (hrest : ∀ q, Within q 3 x 0x10000 → Finishes q bs cp) :
    Finishes p (UInt8.ofNat (0xF0 ||| x) :: bs) cp := by
  have h : ∀ x < 5, ¬UInt8.ofNat (0xF0 ||| x) < 0x80 ∧ 0xC2 ≤ UInt8.ofNat (0xF0 ||| x) ∧
      ¬(0xC2 ≤ UInt8.ofNat (0xF0 ||| x) ∧ UInt8.ofNat (0xF0 ||| x) ≤ 0xDF) ∧
      ¬(0xE0 ≤ UInt8.ofNat (0xF0 ||| x) ∧ UInt8.ofNat (0xF0 ||| x) ≤ 0xEF) ∧
      (0xF0 ≤ UInt8.ofNat (0xF0 ||| x) ∧ UInt8.ofNat (0xF0 ||| x) ≤ 0xF4) ∧
      (UInt8.ofNat (0xF0 ||| x)).toNat &&& 0x07 = x := by decide
  rcases h x hx with ⟨hlow, hfirst, htwo, hthree, hfour, hbits⟩
  refine hp.lead hfirst ?_ hrest
  unfold consumeLead
  rw [if_neg hlow, if_neg htwo, if_neg hthree, if_pos hfour, hbits]

/-- A printable code point is encoded so that the parser prints it. -/
theorem emits_encodeUtf8 {cp : Nat} (h : Printable cp) : Emits (encodeUtf8 cp) [.print cp] := by
  rintro p hp
  rcases h with ⟨hlow, hdel, hscalar⟩
  have hmax := (isScalar_iff.mp hscalar).1
  have hbits : ∀ x, x % 64 < 64 := fun x => Nat.mod_lt x (by omega)
  unfold encodeUtf8
  simp only [hscalar, if_true, and_63, Nat.shiftRight_eq_div_pow]
  split
  · next hone =>
    -- one byte
    have hbyte : ∀ x < 0x80, 0x20 ≤ x → x ≠ 0x7F → UInt8.ofNat x ≠ kEsc ∧ ¬UInt8.ofNat x < 0x20 ∧
        UInt8.ofNat x ≠ kDel ∧ UInt8.ofNat x < 0x80 ∧ (UInt8.ofNat x).toNat = x := by decide
    rcases hbyte cp hone hlow hdel with ⟨hesc, hctl, hdel', hascii, hnat⟩
    rw [parse_singleton, consume_printing hp.1 hesc hctl hdel']
    unfold consumeGround consumeLead
    rw [if_neg (by rw [hp.2]; exact Nat.lt_irrefl 0), if_pos hascii, hnat]
    exact ⟨rfl, hp⟩
  · next hone =>
    split
    · next htwo =>
      apply hp.lead_two (by omega)
      intro q hq
      exact hq.last (hbits cp) (by omega) (by omega) hscalar
    · next htwo =>
      split
      · next hthree =>
        apply hp.lead_three (by omega)
        intro q hq
        apply hq.tail (hbits _)
        intro q hq
        exact hq.last (hbits cp) (by omega) (by omega) hscalar
      · next hthree =>
        apply hp.lead_four (by omega)
        intro q hq
        apply hq.tail (hbits _)
        intro q hq
        apply hq.tail (hbits _)
        intro q hq
        exact hq.last (hbits cp) (by omega) (by omega) hscalar

/-! ### Sequences -/

/-- Where an escape leaves an idle parser. -/
theorem Idle.consume_esc {p : VtParser} (hp : p.Idle) : p.consume kEsc = (p.atEscape, []) := by
  have hsame : p.atEscape = { p.startSequence with state := .escape } := by
    show _ = ({ p.startSequence with state := .escape, utf8Left := p.utf8Left } : VtParser)
    rw [hp.2]
    rfl
  simp [consume, hp.1, ground, dropPartial, hp.2, hsame]

theorem emits_esc {final : UInt8} (hfinal : isEscFinal final = true)
    (hother : final ≠ 0x5B ∧ final ≠ 0x5D ∧ final ≠ 0x50 ∧ final ≠ 0x58 ∧ final ≠ 0x5E ∧
      final ≠ 0x5F) : Emits [kEsc, final] [.esc final 0] := by
  intro p hp
  have hesc : final ≠ kEsc := by
    rintro rfl
    exact absurd hfinal (by decide)
  have hinter : ¬isIntermediate final = true := by
    simp only [isIntermediate, isEscFinal, Bool.and_eq_true, decide_eq_true_eq,
      UInt8.le_iff_toNat_le] at hfinal ⊢
    intro h
    have h1 : (48 : Nat) ≤ final.toNat := hfinal.1
    have h2 : final.toNat ≤ (47 : Nat) := h.2
    omega
  have hstep : p.atEscape.consume final =
      ({ p.atEscape with state := .ground }, [.esc final 0]) := by
    show p.atEscape.escape final = _
    unfold escape
    rw [if_neg hesc, if_neg hother.1, if_neg hother.2.1, if_neg (by simp [hother]), if_neg hinter,
      if_pos hfinal]
    rfl
  rw [parse_cons, hp.consume_esc, parse_singleton, hstep]
  exact ⟨rfl, rfl, rfl⟩

/-- A charset is selected. -/
theorem emits_charset {slot final : UInt8} (hslot : isIntermediate slot = true)
    (hfinal : isEscFinal final = true) (hother : isIntermediate final = false) :
    Emits [kEsc, slot, final] [.esc final slot] := by
  intro p hp
  have hslot' : slot ≠ kEsc ∧ slot ≠ 0x5B ∧ slot ≠ 0x5D ∧ slot ≠ 0x50 ∧ slot ≠ 0x58 ∧
      slot ≠ 0x5E ∧ slot ≠ 0x5F := by
    refine ⟨?_, ?_, ?_, ?_, ?_, ?_, ?_⟩
    all_goals
      rintro rfl
      exact absurd hslot (by decide)
  have hesc : final ≠ kEsc := by
    rintro rfl
    exact absurd hfinal (by decide)
  have hfirst : p.atEscape.consume slot =
      ({ p.atEscape with intermediate := slot, state := .escapeIntermediate }, []) := by
    show p.atEscape.escape slot = _
    unfold escape
    rw [if_neg hslot'.1, if_neg hslot'.2.1, if_neg hslot'.2.2.1, if_neg (by simp [hslot']),
      if_pos hslot]
  have hsecond : ({ p.atEscape with intermediate := slot, state := .escapeIntermediate } :
      VtParser).consume final =
      ({ p.atEscape with intermediate := slot, state := .ground }, [.esc final slot]) := by
    show VtParser.escapeIntermediate _ final = _
    unfold escapeIntermediate
    rw [if_neg hesc, if_neg (by simp [hother]), if_pos hfinal]
    rfl
  rw [parse_cons, hp.consume_esc, parse_cons, hfirst, parse_singleton, hsecond]
  exact ⟨rfl, rfl, rfl⟩

/-- A parser in the parameters of a control sequence. -/
structure InCsi (p : VtParser) (marker : UInt8) (params : List Int) : Prop where
  state : p.state = .csiEntry ∨ p.state = .csiParam
  marker : p.marker = marker
  intermediate : p.intermediate = 0
  params : p.params = params
  whole : p.utf8Left = 0

theorem InCsi.consume {p : VtParser} {marker : UInt8} {params : List Int} (h : InCsi p marker params)
    (b : UInt8) : p.consume b = p.csiParam b := by
  unfold VtParser.consume
  rcases h.state with hs | hs <;> rw [hs]

/-- The bytes lead from parameters to more parameters, and emit nothing. -/
def Extends (bs : Bytes) (marker : UInt8) (params params' : List Int) : Prop :=
  ∀ p, InCsi p marker params → (p.parse bs).2 = [] ∧ InCsi (p.parse bs).1 marker params'

theorem Extends.nil (marker : UInt8) (params : List Int) : Extends [] marker params params :=
  fun _ hp => ⟨rfl, hp⟩

theorem Extends.append {xs ys : Bytes} {marker : UInt8} {ps qs rs : List Int}
    (hx : Extends xs marker ps qs) (hy : Extends ys marker qs rs) : Extends (xs ++ ys) marker ps rs := by
  intro p hp
  rcases hx p hp with ⟨hnone, hq⟩
  rcases hy _ hq with ⟨hnone', hr⟩
  rw [parse_append, hnone, hnone']
  exact ⟨rfl, hr⟩

theorem digitByte_facts {d : Nat} (hd : d < 10) :
    isParamByte (digitByte d) = true ∧ ((digitByte d).toNat : Int) - 0x30 = d := by
  revert d
  decide

/-- What stands in front of the last parameter, when it is empty. -/
def AtField (params init : List Int) : Prop :=
  (params = [] ∧ init = []) ∨ params = init ++ [kVtParamOmitted]

/-- The digits of a number are read as that number. -/
theorem extends_decimal {marker : UInt8} {params init : List Int} (hat : AtField params init)
    {n : Nat} (hn : n ≤ 65535) : Extends (decimal n) marker params (init ++ [(n : Int)]) := by
  induction n using Nat.strong_induction_on with
  | _ n ih =>
    intro p hp
    by_cases hlt : n < 10
    · -- a single digit opens the field
      rcases digitByte_facts hlt with ⟨hdigit, hvalue⟩
      rw [decimal_of_lt hlt, parse_singleton, hp.consume]
      unfold csiParam
      rw [if_pos hdigit]
      refine ⟨rfl, Or.inr rfl, hp.marker, hp.intermediate, ?_, hp.whole⟩
      show (p.pushParamDigit (digitByte n)).params = _
      have hsmall : ¬(n : Int) > 65535 := by omega
      rcases hat with ⟨rfl, rfl⟩ | rfl
      · simp [pushParamDigit, hp.params, hvalue, kVtParamOmitted, kMaxVtParamValue, hsmall]
      · simp [pushParamDigit, hp.params, hvalue, kVtParamOmitted, kMaxVtParamValue, hsmall]
    · rcases digitByte_facts (Nat.mod_lt n (by omega) : n % 10 < 10) with ⟨hdigit, hvalue⟩
      rcases ih (n / 10) (by omega) (by omega) p hp with ⟨hnone, hq⟩
      rw [decimal_of_ge (by omega), parse_append, hnone, parse_singleton, hq.consume]
      unfold csiParam
      rw [if_pos hdigit]
      refine ⟨rfl, Or.inr rfl, hq.marker, hq.intermediate, ?_, hq.whole⟩
      show (VtParser.pushParamDigit _ (digitByte (n % 10))).params = _
      have hdiv : ((n / 10 : Nat) : Int) ≠ kVtParamOmitted := by
        unfold kVtParamOmitted
        omega
      have hwhole : ((n / 10 : Nat) : Int) * 10 + ((n % 10 : Nat) : Int) = n := by omega
      have hsmall : ¬(n : Int) > kMaxVtParamValue := by
        unfold kMaxVtParamValue
        omega
      have hne : ¬init ++ [((n / 10 : Nat) : Int)] = [] := by simp
      unfold pushParamDigit
      dsimp only
      rw [hq.params, if_neg hne, List.getLastD_concat, List.dropLast_concat, if_neg hdiv, hvalue,
        hwhole, if_neg hsmall]

/-- A separator opens the next field. -/
theorem extends_separator {marker : UInt8} {params : List Int} (hne : params ≠ [])
    (hroom : params.length < kMaxVtParams) :
    Extends [0x3B] marker params (params ++ [kVtParamOmitted]) := by
  intro p hp
  rw [parse_singleton, hp.consume]
  unfold csiParam
  rw [if_neg (by decide), if_pos (by decide)]
  refine ⟨rfl, Or.inr rfl, hp.marker, hp.intermediate, ?_, hp.whole⟩
  show p.pushParamSeparator.params = _
  unfold pushParamSeparator
  dsimp only
  rw [hp.params, if_neg hne, if_pos hroom]

theorem csiFinal_facts {b : UInt8} (h : isCsiFinal b = true) :
    isParamByte b = false ∧ isSeparator b = false ∧ isPrivateMarker b = false ∧
      isIntermediate b = false := by
  simp only [isCsiFinal, isParamByte, isSeparator, isPrivateMarker, isIntermediate,
    Bool.and_eq_true, Bool.and_eq_false_iff, Bool.or_eq_false_iff, decide_eq_true_eq,
    decide_eq_false_iff_not, UInt8.le_iff_toNat_le, ← UInt8.toNat_inj, UInt8.reduceToNat] at h ⊢
  omega

theorem marker_facts {b : UInt8} (h : isPrivateMarker b = true) :
    isParamByte b = false ∧ isSeparator b = false := by
  simp only [isParamByte, isSeparator, isPrivateMarker, Bool.and_eq_true, Bool.and_eq_false_iff,
    Bool.or_eq_false_iff, decide_eq_true_eq, decide_eq_false_iff_not, UInt8.le_iff_toNat_le,
    ← UInt8.toNat_inj, UInt8.reduceToNat] at h ⊢
  omega

/-- The end of a control sequence. -/
theorem InCsi.final {p : VtParser} {marker : UInt8} {params : List Int} (h : InCsi p marker params)
    {final : UInt8} (hfinal : isCsiFinal final = true) :
    (p.parse [final]).2 = [.csi final marker 0 params] ∧ (p.parse [final]).1.Idle := by
  have hother := csiFinal_facts hfinal
  rw [parse_singleton, h.consume]
  unfold csiParam
  rw [if_neg (by simp [hother]), if_neg (by simp [hother]), if_neg (by simp [hother]),
    if_neg (by simp [hother]), if_pos hfinal]
  refine ⟨?_, rfl, h.whole⟩
  simp [emitCsi, h.marker, h.intermediate, h.params]

/-- A control sequence: what leads to its parameters, and its final byte. -/
theorem emits_csi {body : Bytes} {final marker : UInt8} {params : List Int}
    (hfinal : isCsiFinal final = true)
    (hbody : ∀ p, InCsi p 0 [] → p.state = .csiEntry →
      (p.parse body).2 = [] ∧ InCsi (p.parse body).1 marker params) :
    Emits (kEsc :: 0x5B :: (body ++ [final])) [.csi final marker 0 params] := by
  intro p hp
  have hentry : p.atEscape.consume 0x5B = ({ p.atEscape with state := .csiEntry }, []) := by
    show p.atEscape.escape 0x5B = _
    unfold escape
    rw [if_neg (by decide), if_pos rfl]
  have hstart : InCsi { p.atEscape with state := .csiEntry } 0 [] :=
    ⟨Or.inl rfl, rfl, rfl, rfl, rfl⟩
  rcases hbody _ hstart rfl with ⟨hnone, hin⟩
  rcases hin.final hfinal with ⟨hevent, hidle⟩
  rw [parse_cons, hp.consume_esc, parse_cons, hentry, parse_append, hnone, hevent]
  exact ⟨rfl, hidle⟩

/-- The marker of a private sequence. -/
theorem InCsi.marked {p : VtParser} (h : InCsi p 0 []) (hentry : p.state = .csiEntry)
    {marker : UInt8} (hmarker : isPrivateMarker marker = true) :
    (p.parse [marker]).2 = [] ∧ InCsi (p.parse [marker]).1 marker [] := by
  have hother := marker_facts hmarker
  rw [parse_singleton, h.consume]
  unfold csiParam
  rw [if_neg (by simp [hother]), if_neg (by simp [hother]), if_pos hmarker, if_pos hentry]
  exact ⟨rfl, Or.inr rfl, rfl, h.intermediate, h.params, h.whole⟩

/-! ### Strings -/

/-- The bytes of a string that is being collected. -/
theorem parse_osc {p : VtParser} (hstate : p.state = .oscString) (hin : p.escInString = false)
    (hwhole : p.utf8Left = 0) {text : Bytes} (htext : ∀ b ∈ text, OscByte b)
    (hroom : p.osc.length + text.length ≤ kMaxOscBytes) :
    p.parse text = ({ p with osc := p.osc ++ text }, []) := by
  induction text generalizing p with
  | nil =>
    rw [parse_nil, List.append_nil]
  | cons b text ih =>
    rcases htext b (by simp) with ⟨hesc, hbel, hcan, hsub⟩
    have hlen : p.osc.length < kMaxOscBytes := by
      rw [List.length_cons] at hroom
      omega
    have hstep : p.consume b = ({ p with osc := p.osc ++ [b] }, []) := by
      unfold consume
      rw [hstate]
      show p.string b = _
      unfold string
      rw [if_neg (by simp [hin]), if_neg hesc, if_neg hbel, if_neg (by simp [hcan, hsub]),
        if_pos ⟨hstate, hlen⟩, ← hstate]
    have hrest := ih (p := { p with osc := p.osc ++ [b] }) hstate hin hwhole
      (fun b' hb' => htext b' (by simp [hb'])) (by simp at hroom ⊢; omega)
    rw [parse_cons, hstep, hrest]
    simp

/-- A string with a command number, ended by a bell. -/
theorem emits_osc {text : Bytes} (htext : ∀ b ∈ text, OscByte b)
    (hroom : 2 + text.length ≤ kMaxOscBytes) :
    Emits (kEsc :: 0x5D :: 0x30 :: 0x3B :: (text ++ [kBel])) [.osc 0 text] := by
  intro p hp
  have hstart : p.parse [kEsc, 0x5D] = ({ p.atEscape with state := .oscString }, []) := by
    have hnext : p.atEscape.consume 0x5D = ({ p.atEscape with state := .oscString }, []) := by
      show p.atEscape.escape 0x5D = _
      unfold escape
      rw [if_neg (by decide), if_neg (by decide), if_pos rfl]
    rw [parse_cons, hp.consume_esc, parse_singleton, hnext]
    rfl
  have hcollected : ({ p.atEscape with state := .oscString } : VtParser).parse (0x30 :: 0x3B :: text) =
      ({ p.atEscape with state := .oscString, osc := 0x30 :: 0x3B :: text }, []) := by
    refine parse_osc rfl rfl rfl ?_ ?_
    · intro b hb
      rcases List.mem_cons.mp hb with rfl | hb
      · decide
      · rcases List.mem_cons.mp hb with rfl | hb
        · decide
        · exact htext b hb
    · show 0 + (text.length + 1 + 1) ≤ kMaxOscBytes
      omega
  have hend : ({ p.atEscape with state := .oscString, osc := 0x30 :: 0x3B :: text } :
      VtParser).parse [kBel] =
      ({ p.atEscape with state := .ground, osc := [] }, [.osc 0 text]) := by
    rw [parse_singleton]
    rfl
  have hsplit : kEsc :: 0x5D :: 0x30 :: 0x3B :: (text ++ [kBel]) =
      [kEsc, 0x5D] ++ ((0x30 :: 0x3B :: text) ++ [kBel]) := rfl
  rw [hsplit, parse_append, hstart, parse_append, hcollected, hend]
  exact ⟨rfl, rfl, rfl⟩

end VtParser

end Deskhub
