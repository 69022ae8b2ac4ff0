import Deskhub.Protocol.Wire.Header

/-!
# Texts on the wire

A text goes out cut to its byte limit, behind its length; some of the parsers drop its
control bytes or blank them.
-/

namespace Deskhub

def kMaxClientNameBytes : Nat := 64
def kMaxSourceNameBytes : Nat := 64

/-- What the builders copy of a text: its first `Utf8TruncLen` bytes. -/
def cutText (limit : Nat) (s : Bytes) : Bytes := s.take (utf8TruncLen s limit)

/-- A text behind its length, cut to its limit. -/
def putText (limit : Nat) (s : Bytes) : Bytes :=
  [UInt8.ofNat (utf8TruncLen s limit)] ++ s.take (utf8TruncLen s limit)

/-- The bytes of a client name that are taken: all but the control bytes. -/
def removeControls (s : Bytes) : Bytes := s.filter fun c => 0x20 ≤ c ∧ c ≠ 0x7F

theorem removeControls_eq_self {s : Bytes} (h : ∀ c ∈ s, 0x20 ≤ c ∧ c ≠ 0x7F) :
    removeControls s = s := by
  unfold removeControls
  rw [List.filter_eq_self]
  intro c hc
  exact decide_eq_true (h c hc)

theorem mem_removeControls {s : Bytes} {c : UInt8} (h : c ∈ removeControls s) : 0x20 ≤ c ∧ c ≠ 0x7F :=
  of_decide_eq_true (List.mem_filter.mp h).2

/-- A host name with its control bytes blank. -/
def blankControls (s : Bytes) : Bytes := s.map fun c => if c < 0x20 ∨ c = 0x7F then 0x20 else c

/-- The client name at the end of a message, its length at offset `lenOff`: without its
control bytes, and nothing where the length is out of bounds. -/
def readClientName (payload : Bytes) (lenOff : Nat) : Bytes :=
  let nameLen := (byteAt payload lenOff).toNat
  let nameLen := if kMaxClientNameBytes < nameLen then 0 else nameLen
  if nameLen ≠ 0 ∧ lenOff + 1 + nameLen ≤ payload.length then
    removeControls ((payload.drop (lenOff + 1)).take nameLen)
  else []

/-! ## Where a text is cut -/

/-- Place `n` of a text is its start, its end, or in front of a code point. -/
def OnBoundary (s : Bytes) (n : Nat) : Prop :=
  n = 0 ∨ n = s.length ∨ byteAt s n &&& 0xC0 ≠ 0x80

/-- `t` is the longest front part of `s` within `limit` bytes that ends on a boundary. -/
structure CutTo (limit : Nat) (s t : Bytes) : Prop where
  front : t <+: s
  short : t.length ≤ limit
  boundary : OnBoundary s t.length
  longest : ∀ n, n ≤ limit → n ≤ s.length → OnBoundary s n → n ≤ t.length

/-- Where stepping back ends: on a boundary, with none behind it. -/
theorem backToBoundary_spec (s : Bytes) (n : Nat) :
    utf8TruncLen.backToBoundary s n ≤ n ∧
      (utf8TruncLen.backToBoundary s n = 0 ∨
        byteAt s (utf8TruncLen.backToBoundary s n) &&& 0xC0 ≠ 0x80) ∧
      ∀ k, utf8TruncLen.backToBoundary s n < k → k ≤ n → byteAt s k &&& 0xC0 = 0x80 := by
  induction n with
  | zero =>
    refine ⟨Nat.le_refl 0, .inl rfl, ?_⟩
    intro k hlow hhigh
    exact absurd hlow (Nat.not_lt.mpr hhigh)
  | succ n ih =>
    rw [utf8TruncLen.backToBoundary]
    by_cases hinside : byteAt s (n + 1) &&& 0xC0 = 0x80
    · rw [if_pos hinside]
      rcases ih with ⟨hle, hstop, hpassed⟩
      refine ⟨Nat.le_succ_of_le hle, hstop, ?_⟩
      intro k hlow hhigh
      rcases Nat.lt_or_ge n k with hlast | hbefore
      · rw [Nat.le_antisymm hhigh hlast]
        exact hinside
      · exact hpassed k hlow hbefore
    · rw [if_neg hinside]
      refine ⟨Nat.le_refl _, .inr hinside, ?_⟩
      intro k hlow hhigh
      exact absurd hlow (Nat.not_lt.mpr hhigh)

theorem utf8TruncLen_le_length (s : Bytes) (limit : Nat) : utf8TruncLen s limit ≤ s.length := by
  unfold utf8TruncLen
  split
  · exact Nat.le_refl _
  · have hle := (backToBoundary_spec s limit).1
    omega

theorem utf8TruncLen_le (s : Bytes) (limit : Nat) : utf8TruncLen s limit ≤ limit := by
  unfold utf8TruncLen
  split
  · assumption
  · exact (backToBoundary_spec s limit).1

theorem length_cutText (limit : Nat) (s : Bytes) :
    (cutText limit s).length = utf8TruncLen s limit := by
  unfold cutText
  rw [List.length_take]
  exact Nat.min_eq_left (utf8TruncLen_le_length s limit)

theorem length_cutText_le (limit : Nat) (s : Bytes) : (cutText limit s).length ≤ limit := by
  rw [length_cutText]
  exact utf8TruncLen_le s limit

theorem cutText_cutTo (limit : Nat) (s : Bytes) : CutTo limit s (cutText limit s) := by
  refine ⟨List.take_prefix _ _, length_cutText_le limit s, ?_, ?_⟩
  · rw [length_cutText]
    unfold utf8TruncLen
    split
    · exact .inr (.inl rfl)
    · rcases (backToBoundary_spec s limit).2.1 with hstart | hstop
      · exact .inl hstart
      · exact .inr (.inr hstop)
  · intro n hlimit hlen hboundary
    rw [length_cutText]
    unfold utf8TruncLen
    split
    · exact hlen
    · next hlong =>
      -- a boundary further on would have stopped the step back
      rcases backToBoundary_spec s limit with ⟨-, -, hpassed⟩
      by_contra hbeyond
      have hinside := hpassed n (Nat.not_le.mp hbeyond) hlimit
      rcases hboundary with hzero | hend | hstart
      · omega
      · omega
      · exact hstart hinside

/-! ## Reading a text back -/

theorem putText_eq (limit : Nat) (s : Bytes) :
    putText limit s = UInt8.ofNat (cutText limit s).length :: cutText limit s := by
  rw [length_cutText]
  rfl

/-- The length byte of a text that a byte can count. -/
theorem toNat_length {s : Bytes} (h : s.length < 256) : (UInt8.ofNat s.length).toNat = s.length := by
  rw [UInt8.toNat_ofNat', Nat.mod_eq_of_lt h]

/-- The byte behind the front part of a message. -/
theorem byteAt_append (front : Bytes) (b : UInt8) (rest : Bytes) :
    byteAt (front ++ b :: rest) front.length = b := by
  unfold byteAt
  rw [List.getD_append_right _ _ _ _ (Nat.le_refl _), Nat.sub_self, List.getD_cons_zero]

/-- What is behind that byte. -/
theorem drop_append_cons (front : Bytes) (b : UInt8) (rest : Bytes) :
    (front ++ b :: rest).drop (front.length + 1) = rest := by
  rw [← List.drop_drop, List.drop_left, List.drop_one, List.tail_cons]

theorem toNat_lengthByte (limit : Nat) (hlimit : limit < 256) (front s rest : Bytes) :
    (byteAt (front ++ (putText limit s ++ rest)) front.length).toNat = (cutText limit s).length := by
  have hshort := length_cutText_le limit s
  rw [putText_eq, List.cons_append, byteAt_append, toNat_length (by omega)]

/-- The text behind the front part of a message and its length. -/
theorem drop_putText (limit : Nat) (front s rest : Bytes) :
    (front ++ (putText limit s ++ rest)).drop (front.length + 1) = cutText limit s ++ rest := by
  rw [putText_eq, List.cons_append, drop_append_cons]

theorem readClientName_putText (front s : Bytes) :
    readClientName (front ++ putText kMaxClientNameBytes s) front.length =
      removeControls (cutText kMaxClientNameBytes s) := by
  have hlen := toNat_lengthByte kMaxClientNameBytes (by decide) front s []
  have hdrop := drop_putText kMaxClientNameBytes front s []
  have hshort := length_cutText_le kMaxClientNameBytes s
  have hsize : (front ++ putText kMaxClientNameBytes s).length =
      front.length + 1 + (cutText kMaxClientNameBytes s).length := by
    rw [putText_eq, List.length_append, List.length_cons]
    omega
  rw [List.append_nil] at hlen
  rw [List.append_nil, List.append_nil] at hdrop
  unfold readClientName
  dsimp only
  rw [hlen, hdrop, hsize, if_neg (Nat.not_lt.mpr hshort), List.take_length]
  by_cases hempty : cutText kMaxClientNameBytes s = []
  · rw [hempty]
    rfl
  · have hne : (cutText kMaxClientNameBytes s).length ≠ 0 :=
      fun h => hempty (List.length_eq_zero_iff.mp h)
    rw [if_pos ⟨hne, Nat.le_refl _⟩]

end Deskhub
