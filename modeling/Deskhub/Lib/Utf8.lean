/-!
# UTF-8

The byte sequences that encode a character, as the table of the standard lists them, the texts made
of them, and the text in which every byte that belongs to no character is replaced.
-/

namespace Utf8

/-- A byte behind the first. -/
def Tail (b : UInt8) : Prop := 0x80 ≤ b ∧ b ≤ 0xBF

instance (b : UInt8) : Decidable (Tail b) := inferInstanceAs (Decidable (_ ∧ _))

/-- The sequence encodes a character. -/
def Encodes : List UInt8 → Prop
  | [a] => a ≤ 0x7F
  | [a, b] => 0xC2 ≤ a ∧ a ≤ 0xDF ∧ Tail b
  | [a, b, c] =>
    ((a = 0xE0 ∧ 0xA0 ≤ b ∧ b ≤ 0xBF) ∨ (0xE1 ≤ a ∧ a ≤ 0xEC ∧ Tail b) ∨
      (a = 0xED ∧ 0x80 ≤ b ∧ b ≤ 0x9F) ∨ (0xEE ≤ a ∧ a ≤ 0xEF ∧ Tail b)) ∧ Tail c
  | [a, b, c, d] =>
    ((a = 0xF0 ∧ 0x90 ≤ b ∧ b ≤ 0xBF) ∨ (0xF1 ≤ a ∧ a ≤ 0xF3 ∧ Tail b) ∨
      (a = 0xF4 ∧ 0x80 ≤ b ∧ b ≤ 0x8F)) ∧ Tail c ∧ Tail d
  | _ => False

instance : DecidablePred Encodes := fun
  | [] => inferInstanceAs (Decidable False)
  | [_] => inferInstanceAs (Decidable (_ ≤ _))
  | [_, _] => inferInstanceAs (Decidable (_ ∧ _ ∧ _))
  | [_, _, _] => inferInstanceAs (Decidable (_ ∧ _))
  | [_, _, _, _] => inferInstanceAs (Decidable (_ ∧ _ ∧ _))
  | _ :: _ :: _ :: _ :: _ :: _ => inferInstanceAs (Decidable False)

/-- A text in UTF-8. -/
inductive WellFormed : List UInt8 → Prop
  | nil : WellFormed []
  | cons {c rest : List UInt8} : Encodes c → WellFormed rest → WellFormed (c ++ rest)

/-- The character that stands for what is none. -/
def replacement : List UInt8 := [0xEF, 0xBF, 0xBD]

/-- How many bytes the character at the front of the text has, if there is one. -/
def frontLength (text : List UInt8) : Option Nat :=
  [1, 2, 3, 4].find? fun n => n ≤ text.length ∧ Encodes (text.take n)

/-- From the left: a character is kept, a byte that starts none is replaced. -/
def repair : List UInt8 → List UInt8
  | [] => []
  | b :: rest =>
    match frontLength (b :: rest) with
    | some n => (b :: rest).take n ++ repair (rest.drop (n - 1))
    | none => replacement ++ repair rest
termination_by text => text.length
decreasing_by
  · rw [List.length_drop, List.length_cons]
    omega
  · exact Nat.lt_succ_self _

/-! ## The first byte says how long a character is -/

/-- The length of the characters that start with the byte. -/
def leadLength (a : UInt8) : Nat :=
  if a.toNat ≤ 0x7F then 1 else if a.toNat ≤ 0xDF then 2 else if a.toNat ≤ 0xEF then 3 else 4

theorem length_of_encodes {a : UInt8} {rest : List UInt8} (h : Encodes (a :: rest)) :
    (a :: rest).length = leadLength a := by
  unfold leadLength
  match rest, h with
  | [], h =>
    have hhigh : a.toNat ≤ 0x7F := UInt8.le_iff_toNat_le.mp h
    rw [if_pos hhigh]
    rfl
  | [b], h =>
    have hlow : 0xC2 ≤ a.toNat := UInt8.le_iff_toNat_le.mp h.1
    have hhigh : a.toNat ≤ 0xDF := UInt8.le_iff_toNat_le.mp h.2.1
    rw [if_neg (by omega), if_pos hhigh]
    rfl
  | [b, c], h =>
    have hrange : 0xE0 ≤ a.toNat ∧ a.toNat ≤ 0xEF := by
      rcases h.1 with h | h | h | h
      all_goals simp only [UInt8.le_iff_toNat_le, ← UInt8.toNat_inj, UInt8.reduceToNat] at h
      all_goals omega
    rw [if_neg (by omega), if_neg (by omega), if_pos hrange.2]
    rfl
  | [b, c, d], h =>
    have hlow : 0xF0 ≤ a.toNat := by
      rcases h.1 with h | h | h
      all_goals simp only [UInt8.le_iff_toNat_le, ← UInt8.toNat_inj, UInt8.reduceToNat] at h
      all_goals omega
    rw [if_neg (by omega), if_neg (by omega), if_neg (by omega)]
    rfl

theorem length_take_of_encodes {text : List UInt8} {n : Nat} (hlen : n ≤ text.length)
    (h : Encodes (text.take n)) : n = leadLength (text.head?.getD 0) := by
  cases text with
  | nil => exact absurd h (by rw [List.take_nil]; exact not_false)
  | cons a rest =>
    cases n with
    | zero => exact absurd h not_false
    | succ n =>
      rw [List.take_succ_cons] at h
      have hlength := length_of_encodes h
      rw [List.length_cons, List.length_take] at hlength
      rw [List.length_cons] at hlen
      simp only [List.head?_cons, Option.getD_some]
      omega

/-- One length at most is that of a character at the front. -/
theorem frontLength_eq_some {text : List UInt8} {n : Nat} (hlen : n ≤ text.length)
    (h : Encodes (text.take n)) : frontLength text = some n := by
  have hn := length_take_of_encodes hlen h
  have hmem : n ∈ [1, 2, 3, 4] := by
    rw [hn]
    unfold leadLength
    repeat' split
    all_goals simp
  unfold frontLength
  generalize hp : (fun m => decide (m ≤ text.length ∧ Encodes (text.take m))) = p
  have hpn : p n = true := by
    rw [← hp]
    exact decide_eq_true ⟨hlen, h⟩
  cases hfind : [1, 2, 3, 4].find? p with
  | none => exact absurd hpn (List.find?_eq_none.mp hfind n hmem)
  | some m =>
    have hpm := List.find?_some hfind
    rw [← hp] at hpm
    have hm := of_decide_eq_true hpm
    rw [hn, length_take_of_encodes hm.1 hm.2]

theorem frontLength_eq_none {text : List UInt8}
    (h : ∀ n, n ≤ text.length → ¬ Encodes (text.take n)) : frontLength text = none := by
  apply List.find?_eq_none.mpr
  intro n _ hn
  have henc := of_decide_eq_true hn
  exact h n henc.1 henc.2

theorem encodes_of_frontLength {text : List UInt8} {n : Nat} (h : frontLength text = some n) :
    Encodes (text.take n) := by
  unfold frontLength at h
  have hn := List.find?_some h
  exact (of_decide_eq_true hn).2

/-- A character is a byte of ASCII, or none of its bytes is one. -/
theorem bytes_of_encodes {c : List UInt8} (h : Encodes c) :
    (∃ a, c = [a] ∧ a ≤ 0x7F) ∨ ∀ b ∈ c, 0x80 ≤ b := by
  match c, h with
  | [a], h => exact .inl ⟨a, rfl, h⟩
  | [a, b], h =>
    have ha : 0x80 ≤ a := UInt8.le_trans (by decide) h.1
    right
    intro d hd
    simp only [List.mem_cons, List.not_mem_nil, or_false] at hd
    rcases hd with rfl | rfl
    · exact ha
    · exact h.2.2.1
  | [a, b, c], h =>
    have hlead : 0x80 ≤ a ∧ 0x80 ≤ b := by
      rcases h.1 with ⟨rfl, hb, -⟩ | ⟨ha, -, hb⟩ | ⟨rfl, hb, -⟩ | ⟨ha, -, hb⟩
      · exact ⟨by decide, UInt8.le_trans (by decide) hb⟩
      · exact ⟨UInt8.le_trans (by decide) ha, hb.1⟩
      · exact ⟨by decide, hb⟩
      · exact ⟨UInt8.le_trans (by decide) ha, hb.1⟩
    right
    intro e he
    simp only [List.mem_cons, List.not_mem_nil, or_false] at he
    rcases he with rfl | rfl | rfl
    · exact hlead.1
    · exact hlead.2
    · exact h.2.1
  | [a, b, c, d], h =>
    have hlead : 0x80 ≤ a ∧ 0x80 ≤ b := by
      rcases h.1 with ⟨rfl, hb, -⟩ | ⟨ha, -, hb⟩ | ⟨rfl, hb, -⟩
      · exact ⟨by decide, UInt8.le_trans (by decide) hb⟩
      · exact ⟨UInt8.le_trans (by decide) ha, hb.1⟩
      · exact ⟨by decide, hb⟩
    right
    intro e he
    simp only [List.mem_cons, List.not_mem_nil, or_false] at he
    rcases he with rfl | rfl | rfl | rfl
    · exact hlead.1
    · exact hlead.2
    · exact h.2.1.1
    · exact h.2.2.1

theorem repair_nil : repair [] = [] := by
  rw [repair]

theorem repair_cons_some {b : UInt8} {rest : List UInt8} {n : Nat}
    (h : frontLength (b :: rest) = some n) :
    repair (b :: rest) = (b :: rest).take n ++ repair (rest.drop (n - 1)) := by
  rw [repair, h]

theorem repair_cons_none {b : UInt8} {rest : List UInt8} (h : frontLength (b :: rest) = none) :
    repair (b :: rest) = replacement ++ repair rest := by
  rw [repair, h]

/-- A byte of ASCII is a character. -/
theorem repair_cons_ascii {b : UInt8} (h : b ≤ 0x7F) (rest : List UInt8) :
    repair (b :: rest) = b :: repair rest := by
  have hfront : frontLength (b :: rest) = some 1 := by
    apply frontLength_eq_some
    · rw [List.length_cons]
      omega
    · exact h
  rw [repair_cons_some hfront]
  rfl

/-! ## Texts -/

theorem WellFormed.append {s t : List UInt8} (hs : WellFormed s) (ht : WellFormed t) :
    WellFormed (s ++ t) := by
  induction hs with
  | nil => exact ht
  | cons hc _ ih =>
    rw [List.append_assoc]
    exact .cons hc ih

theorem wellFormed_of_encodes {c : List UInt8} (h : Encodes c) : WellFormed c := by
  have hone := WellFormed.cons h .nil
  rwa [List.append_nil] at hone

theorem wellFormed_replacement : WellFormed replacement := wellFormed_of_encodes (by decide)

theorem WellFormed.cons_ascii {b : UInt8} (hb : b ≤ 0x7F) {s : List UInt8} (h : WellFormed s) :
    WellFormed (b :: s) :=
  have henc : Encodes [b] := hb
  .cons henc h

theorem wellFormed_of_ascii {s : List UInt8} (h : ∀ b ∈ s, b ≤ 0x7F) : WellFormed s := by
  induction s with
  | nil => exact .nil
  | cons b s ih =>
    exact (ih fun c hc => h c (List.mem_cons_of_mem b hc)).cons_ascii (h b List.mem_cons_self)

end Utf8
