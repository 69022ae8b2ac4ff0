import Deskhub.Terminal.ScreenReset
import Deskhub.Terminal.VtParams

/-!
# Coming back in step

Whatever a parser is in the middle of, an escape that starts a sequence brings it where an idle
one would be, and behind a byte that is printed at once it decodes characters like an idle one.
-/

namespace Deskhub

namespace VtParser

variable {p q : VtParser}

/-! ## Sequences -/

/-- What ends when another sequence starts: nothing, a character that was begun, or the text of an
OSC sequence. -/
def Ends (p : VtParser) (ended : List VtEvent) : Prop :=
  ended = [] ∨
    (ended = [.print kReplacement] ∧ p.state = .ground ∧ 0 < p.utf8Left) ∨
    (ended = [p.emitOsc] ∧ p.state = .oscString)

theorem ends_interrupted (p : VtParser) : p.Ends p.interrupted := by
  unfold Ends interrupted dropPartial endOfString
  by_cases hground : p.state = .ground
  · rw [if_pos hground]
    by_cases hbegun : 0 < p.utf8Left
    · rw [if_pos hbegun]
      exact Or.inr (Or.inl ⟨rfl, hground, hbegun⟩)
    · rw [if_neg hbegun]
      exact Or.inl rfl
  · rw [if_neg hground]
    by_cases hstring : p.state = .oscString
    · rw [if_pos hstring]
      exact Or.inr (Or.inr ⟨rfl, hstring⟩)
    · rw [if_neg hstring]
      exact Or.inl rfl

/-- Behind an escape all parsers are alike. -/
theorem atEscape_alike (p q : VtParser) : Alike p.atEscape q.atEscape :=
  Or.inr ⟨rfl, q.utf8Acc, q.utf8Min, rfl⟩

/-- An escape that starts a sequence ends what the parser is in the middle of, with one event at
most, and from there on the parser makes what an idle one makes. -/
theorem parse_escape (h : p.Reachable) (hq : q.Idle) {b : UInt8} (hb : b ≠ 0x5C) (w : Bytes) :
    ∃ ended, p.Ends ended ∧
      (p.parse (kEsc :: b :: w)).2 = ended ++ (q.parse (kEsc :: b :: w)).2 := by
  refine ⟨p.interrupted, p.ends_interrupted, ?_⟩
  have hbehind : ∀ r : VtParser, r.Idle →
      (r.parse (kEsc :: b :: w)).2 = (r.atEscape.parse (b :: w)).2 := by
    intro r hr
    rw [parse_cons, hr.consume_esc, List.nil_append]
  have hsame : (p.settled.atEscape.parse (b :: w)).2 = (q.atEscape.parse (b :: w)).2 :=
    (parse_alike (atEscape_alike p.settled q) (b :: w)).2
  rw [parse_resync h.ok hb w, hbehind _ p.settled_idle, hbehind q hq, hsame]

/-- A title that is interrupted by a colour. -/
theorem parse_escape_title :
    ∃ ended, (({} : VtParser).parse (kEsc :: ascii "]0;a")).1.Ends ended ∧
      ((({} : VtParser).parse (kEsc :: ascii "]0;a")).1.parse (kEsc :: 0x5B :: ascii "31mx")).2 =
        ended ++ (({} : VtParser).parse (kEsc :: 0x5B :: ascii "31mx")).2 :=
  parse_escape ⟨_, rfl⟩ ⟨rfl, rfl⟩ (by decide) _

/-! ## Characters -/

/-- The characters of a list, one after the other. -/
def encodeAll (cps : List Nat) : Bytes := cps.flatMap encodeUtf8

theorem emits_encodeAll {cps : List Nat} (h : ∀ cp ∈ cps, Printable cp) :
    Emits (encodeAll cps) (cps.map .print) := by
  induction cps with
  | nil => exact .nil
  | cons cp cps ih =>
    have hrest := ih fun cp' hcp' => h cp' (by simp [hcp'])
    exact (emits_encodeUtf8 (h cp (by simp))).append hrest

/-- What is printed is a code point that may be shown. -/
theorem printable_of_print (h : p.Reachable) {bytes : Bytes} {cp : Nat}
    (hprint : .print cp ∈ (p.parse bytes).2) : Printable cp :=
  (parse_ok h.ok bytes).2 _ hprint

theorem consumeLead_state (p : VtParser) (b : UInt8) : (p.consumeLead b).1.state = p.state := by
  unfold consumeLead
  split
  · rfl
  · split
    · rfl
    · split
      · rfl
      · split
        · rfl
        · rfl

/-- Only an escape leads out of the ground state. -/
theorem consume_ground (hground : p.state = .ground) {b : UInt8} (hb : b ≠ kEsc) :
    (p.consume b).1.state = .ground := by
  have hdropped : p.dropPartial.1.state = p.state := by
    unfold dropPartial
    split
    · rfl
    · rfl
  unfold consume
  rw [hground]
  show (p.ground b).1.state = .ground
  unfold ground
  rw [if_neg hb]
  split
  · exact hdropped.trans hground
  · unfold consumeGround
    split
    · split
      · dsimp only
        split
        · exact hground
        · exact hground
      · exact (consumeLead_state _ b).trans hground
    · exact (consumeLead_state p b).trans hground

theorem parse_ground (hground : p.state = .ground) {x : Bytes} (hx : kEsc ∉ x) :
    (p.parse x).1.state = .ground := by
  induction x generalizing p with
  | nil => exact hground
  | cons b x ih =>
    rw [List.mem_cons, not_or] at hx
    exact ih (consume_ground hground (Ne.symm hx.1)) hx.2

/-- An ASCII character is printed whatever character was begun, and leaves none begun. -/
theorem consume_ascii (hground : p.state = .ground) {c : UInt8} (hlow : 0x20 ≤ c) (hhigh : c < 0x7F) :
    (p.consume c).2 = p.dropPartial.2 ++ [.print c.toNat] ∧ (p.consume c).1.Idle := by
  have h1 : 0x20 ≤ c.toNat := UInt8.le_iff_toNat_le.mp hlow
  have h2 : c.toNat < 0x7F := UInt8.lt_iff_toNat_lt.mp hhigh
  have hesc : c ≠ kEsc := by
    rintro rfl
    exact absurd h1 (by decide)
  have hdel : c ≠ kDel := by
    rintro rfl
    exact absurd h2 (by decide)
  have hcontrol : ¬ c < 0x20 := by
    intro hlt
    have hless : c.toNat < 0x20 := UInt8.lt_iff_toNat_lt.mp hlt
    omega
  have hascii : c < 0x80 := UInt8.lt_iff_toNat_lt.mpr (by show c.toNat < 0x80; omega)
  have hlead : ∀ r : VtParser, r.consumeLead c = (r, [.print c.toNat]) := by
    intro r
    unfold consumeLead
    rw [if_pos hascii]
  -- no continuation byte is an ASCII character
  have htail : c &&& 0xC0 ≠ 0x80 := by
    have hall : ∀ n < 0x7F, UInt8.ofNat n &&& 0xC0 ≠ 0x80 := by decide
    have hc := hall c.toNat h2
    rwa [UInt8.ofNat_toNat] at hc
  rw [consume_printing hground hesc hcontrol hdel]
  unfold consumeGround dropPartial
  by_cases hbegun : 0 < p.utf8Left
  · rw [if_pos hbegun, if_neg htail, if_pos hbegun, hlead]
    exact ⟨rfl, hground, rfl⟩
  · rw [if_neg hbegun, if_neg hbegun, hlead]
    exact ⟨rfl, hground, Nat.eq_zero_of_not_pos hbegun⟩

/-- Behind bytes without an escape, however ill-formed, an ASCII character and what follows it
are printed. -/
theorem parse_ascii (hground : p.state = .ground) {x : Bytes} (hx : kEsc ∉ x) {c : UInt8} (hlow : 0x20 ≤ c)
    (hhigh : c < 0x7F) {cps : List Nat} (hcps : ∀ cp ∈ cps, Printable cp) :
    (p.parse (x ++ c :: encodeAll cps)).2 =
      (p.parse x).2 ++ (p.parse x).1.dropPartial.2 ++ .print c.toNat :: cps.map .print := by
  rcases consume_ascii (parse_ground hground hx) hlow hhigh with ⟨hprinted, hidle⟩
  rw [parse_append, parse_cons, hprinted, (emits_encodeAll hcps _ hidle).1, List.append_assoc,
    List.append_assoc, List.singleton_append]

/-- Characters are decoded exactly: the encodings of code points that may be shown give these and no
others, nothing else is ever printed, and behind bytes that are ill-formed or cut off decoding
is exact again from the next ASCII character on. -/
structure DecodesExactly (p : VtParser) : Prop where
  exact : p.Idle → ∀ cps, (∀ cp ∈ cps, Printable cp) → (p.parse (encodeAll cps)).2 = cps.map .print
  printed : ∀ bytes cp, .print cp ∈ (p.parse bytes).2 →
    0x20 ≤ cp ∧ cp ≠ 0x7F ∧ cp ≤ kMaxCodepoint ∧ isSurrogate cp = false
  again : p.state = .ground → ∀ x, kEsc ∉ x → ∀ c : UInt8, 0x20 ≤ c → c < 0x7F →
    ∀ cps, (∀ cp ∈ cps, Printable cp) →
      (p.parse (x ++ c :: encodeAll cps)).2 =
        (p.parse x).2 ++ (p.parse x).1.dropPartial.2 ++ .print c.toNat :: cps.map .print

theorem decodesExactly (h : p.Reachable) : p.DecodesExactly := by
  constructor
  case exact => exact fun hidle cps hcps => (emits_encodeAll hcps p hidle).1
  case printed =>
    intro bytes cp hprint
    rcases printable_of_print h hprint with ⟨hlow, hdel, hscalar⟩
    unfold isScalar at hscalar
    rw [Bool.and_eq_true, decide_eq_true_eq, Bool.not_eq_true'] at hscalar
    exact ⟨hlow, hdel, hscalar.1, hscalar.2⟩
  case again =>
    intro hground x hx c hlow hhigh cps hcps
    exact parse_ascii hground hx hlow hhigh hcps

/-- Behind the first two bytes of a character of three. -/
theorem decodesExactly_cut : (({} : VtParser).parse [0xE2, 0x82]).1.DecodesExactly :=
  decodesExactly ⟨_, rfl⟩

end VtParser

end Deskhub
