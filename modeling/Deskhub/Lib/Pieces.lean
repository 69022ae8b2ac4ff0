import Mathlib.Data.List.Basic
import Mathlib.Data.List.Flatten
import Mathlib.Data.List.GetD

/-!
# Cutting a list into pieces

A list is cut into pieces of a fixed length, the last of which may be shorter. A
table of slots that are empty or hold the piece of their place gives the list back
once no slot is empty; and the pieces can be read off what they give together.
-/

universe u

namespace Pieces

variable {α : Type u}

/-- Piece `i` of a list cut every `c` elements. -/
def piece (c : Nat) (xs : List α) (i : Nat) : List α := (xs.drop (i * c)).take c

/-- How many pieces a list is cut into. -/
def count (c : Nat) (xs : List α) : Nat := (xs.length + c - 1) / c

variable {c : Nat} {xs : List α}

theorem length_piece (c : Nat) (xs : List α) (i : Nat) :
    (piece c xs i).length = min c (xs.length - i * c) := by
  unfold piece
  rw [List.length_take, List.length_drop]

theorem length_piece_le (c : Nat) (xs : List α) (i : Nat) : (piece c xs i).length ≤ c :=
  List.length_take_le _ _

/-- The places below the count are those that start inside the list. -/
theorem lt_count_iff (hc : 0 < c) {i : Nat} : i < count c xs ↔ i * c < xs.length := by
  unfold count
  rw [Nat.lt_iff_add_one_le, Nat.le_div_iff_mul_le hc, Nat.add_one_mul]
  omega

theorem count_pos (hc : 0 < c) (h : xs ≠ []) : 0 < count c xs := by
  rw [lt_count_iff hc, Nat.zero_mul]
  exact List.length_pos_of_ne_nil h

/-- No piece below the count is empty. -/
theorem piece_ne_nil (hc : 0 < c) {i : Nat} (h : i < count c xs) : piece c xs i ≠ [] := by
  rw [lt_count_iff hc] at h
  rw [← List.length_pos_iff, length_piece]
  omega

/-- The pieces put together give the list. -/
theorem flatten_pieces (hc : 0 < c) (xs : List α) :
    ((List.range (count c xs)).map (piece c xs)).flatten = xs := by
  have hfront : ∀ n, ((List.range n).map (piece c xs)).flatten = xs.take (n * c) := by
    intro n
    induction n with
    | zero => rw [Nat.zero_mul, List.take_zero]; rfl
    | succ n ih =>
      rw [List.range_succ, List.map_append, List.flatten_append, ih, List.map_singleton,
        List.flatten_singleton, Nat.add_one_mul, List.take_add]
      rfl
  rw [hfront]
  apply List.take_of_length_le
  have hlast : count c xs < count c xs ↔ count c xs * c < xs.length := lt_count_iff hc
  omega

/-! ## Slots -/

/-- A table with a slot for each piece, each slot empty or filled with its piece. -/
def Fills (c : Nat) (xs : List α) (slots : List (List α)) : Prop :=
  slots.length = count c xs ∧
    ∀ (i : Nat) (h : i < slots.length), slots[i] = [] ∨ slots[i] = piece c xs i

theorem fills_replicate (c : Nat) (xs : List α) :
    Fills c xs (List.replicate (count c xs) []) := by
  constructor
  · exact List.length_replicate
  · intro i h
    exact .inl (List.getElem_replicate h)

theorem Fills.set {slots : List (List α)} (h : Fills c xs slots) (i : Nat) :
    Fills c xs (slots.set i (piece c xs i)) := by
  constructor
  · rw [List.length_set]
    exact h.1
  · intro j hj
    rw [List.length_set] at hj
    by_cases hij : i = j
    · subst hij
      exact .inr (List.getElem_set_self (by rwa [List.length_set]))
    · rw [List.getElem_set_ne hij]
      exact h.2 j hj

/-- Once no slot is empty the slots give the list. -/
theorem Fills.flatten {slots : List (List α)} (hc : 0 < c) (h : Fills c xs slots)
    (hfull : ∀ p ∈ slots, p ≠ []) : slots.flatten = xs := by
  have hslots : slots = (List.range (count c xs)).map (piece c xs) := by
    apply List.ext_getElem
    · rw [List.length_map, List.length_range]
      exact h.1
    · intro i hi _
      rw [List.getElem_map, List.getElem_range]
      rcases h.2 i hi with hempty | hpiece
      · exact absurd hempty (hfull _ (List.getElem_mem hi))
      · exact hpiece
  rw [hslots]
  exact flatten_pieces hc xs

/-- How many slots are not empty. -/
def filled (slots : List (List α)) : Nat := slots.countP fun p => !p.isEmpty

theorem filled_replicate (n : Nat) : filled (List.replicate n ([] : List α)) = 0 := by
  unfold filled
  rw [List.countP_replicate]
  rfl

/-- Filling an empty slot adds one. -/
theorem filled_set {slots : List (List α)} {i : Nat} {p : List α} (hi : i < slots.length)
    (hempty : slots.getD i [] = []) (hp : p ≠ []) : filled (slots.set i p) = filled slots + 1 := by
  have hslot : slots[i] = [] := by
    rw [← hempty, List.getD_eq_getElem _ _ hi]
  unfold filled
  rw [List.countP_set hi, hslot]
  simp [hp]

/-- The slots are all filled as soon as their number is reached. -/
theorem filled_lt_iff {slots : List (List α)} :
    filled slots < slots.length ↔ ∃ p ∈ slots, p = [] := by
  have hle : filled slots ≤ slots.length := List.countP_le_length
  have hall : filled slots = slots.length ↔ ∀ p ∈ slots, p ≠ [] := by
    unfold filled
    rw [List.countP_eq_length]
    simp
  constructor
  · intro hlt
    by_contra hnone
    push Not at hnone
    have := hall.mpr hnone
    omega
  · rintro ⟨p, hp, hempty⟩
    apply Nat.lt_of_le_of_ne hle
    intro heq
    exact hall.mp heq p hp hempty

/-- Parts as a cut makes them: full ones, and a last one that is not empty. -/
def Cut (c : Nat) : List (List α) → Prop
  | [] => True
  | [p] => p ≠ [] ∧ p.length ≤ c
  | p :: parts => p.length = c ∧ Cut c parts

/-- The pieces of what the parts of a cut give are the parts. -/
theorem Cut.piece_flatten {parts : List (List α)} (h : Cut c parts) (i : Nat)
    (hi : i < parts.length) : piece c parts.flatten i = parts[i] := by
  induction parts generalizing i with
  | nil => exact absurd hi (Nat.not_lt_zero i)
  | cons p parts ih =>
    cases parts with
    | nil =>
      have hzero : i = 0 := by
        rw [List.length_singleton] at hi
        omega
      subst hzero
      unfold piece
      rw [Nat.zero_mul, List.drop_zero, List.flatten_singleton]
      exact List.take_of_length_le h.2
    | cons q parts =>
      rcases h with ⟨hfull, hrest⟩
      rw [List.flatten_cons]
      cases i with
      | zero =>
        unfold piece
        rw [Nat.zero_mul, List.drop_zero, ← hfull, List.take_left]
        rfl
      | succ i =>
        have hskip : piece c (p ++ (q :: parts).flatten) (i + 1) = piece c (q :: parts).flatten i := by
          unfold piece
          rw [Nat.add_one_mul, Nat.add_comm, ← List.drop_drop, List.drop_left' hfull]
        rw [hskip]
        exact ih hrest i (Nat.lt_of_succ_lt_succ hi)

/-- Parts make a cut when all but the last are full and the last is not empty. -/
theorem cut_of_getElem {parts : List (List α)}
    (hfull : ∀ (i : Nat) (h : i < parts.length), i + 1 < parts.length → parts[i].length = c)
    (hpart : ∀ p ∈ parts, p ≠ [] ∧ p.length ≤ c) : Cut c parts := by
  induction parts with
  | nil => trivial
  | cons p parts ih =>
    cases parts with
    | nil => exact hpart p List.mem_cons_self
    | cons q parts =>
      constructor
      · exact hfull 0 (Nat.zero_lt_succ _) (Nat.succ_lt_succ (Nat.zero_lt_succ _))
      · apply ih
        · intro i hi hnext
          exact hfull (i + 1) (Nat.succ_lt_succ hi) (Nat.succ_lt_succ hnext)
        · intro p' hp'
          exact hpart p' (List.mem_cons_of_mem p hp')

/-- How long the parts of a cut are together. -/
theorem Cut.length_flatten {parts : List (List α)} (h : Cut c parts) (hne : parts ≠ []) :
    parts.flatten.length = (parts.length - 1) * c + (parts.getLast hne).length := by
  induction parts with
  | nil => exact absurd rfl hne
  | cons p parts ih =>
    cases parts with
    | nil => simp
    | cons q parts =>
      rcases h with ⟨hfull, hrest⟩
      rw [List.flatten_cons, List.length_append, ih hrest (List.cons_ne_nil q parts), hfull,
        List.getLast_cons (List.cons_ne_nil q parts)]
      simp only [List.length_cons, Nat.add_sub_cancel, Nat.add_one_mul]
      omega

/-- All pieces but the last are full. -/
theorem length_piece_eq (hc : 0 < c) {i : Nat} (h : i + 1 < count c xs) :
    (piece c xs i).length = c := by
  rw [lt_count_iff hc, Nat.add_one_mul] at h
  rw [length_piece]
  omega

/-- The last piece is what the full ones leave over. -/
theorem length_last_piece (hc : 0 < c) (h : xs ≠ []) :
    (count c xs - 1) * c + (piece c xs (count c xs - 1)).length = xs.length := by
  have hpos := count_pos hc h
  have hlast : (count c xs - 1) * c < xs.length := (lt_count_iff hc).mp (by omega)
  have hend : ¬ count c xs * c < xs.length := fun hlt => Nat.lt_irrefl _ ((lt_count_iff hc).mpr hlt)
  have hsucc : count c xs * c = (count c xs - 1) * c + c := by
    rw [← Nat.succ_mul]
    congr 1
    omega
  rw [length_piece]
  omega

end Pieces
