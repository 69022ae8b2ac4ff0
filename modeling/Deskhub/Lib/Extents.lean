import Mathlib.Algebra.BigOperators.Group.List.Basic
import Mathlib.Algebra.GroupWithZero.Nat
import Mathlib.Algebra.Order.BigOperators.Group.List
import Mathlib.Data.List.GetD

/-!
# Extents in a row

Extents of given sizes stand one behind the other, some of them empty. A place is an extent and an
offset in it; how far it is from the start orders the places and, inside the extents, tells them
apart.
-/

namespace Extents

variable (sizes : List Nat)

/-- How many units stand before extent `i`. -/
def start (i : Nat) : Nat := (sizes.take i).sum

/-- How far a place is from the start. -/
def place (i off : Nat) : Nat := start sizes i + off

@[simp] theorem start_zero : start sizes 0 = 0 := by simp [start]

theorem start_succ (i : Nat) : start sizes (i + 1) = start sizes i + sizes.getD i 0 := by
  unfold start
  rcases Nat.lt_or_ge i sizes.length with hlt | hge
  · rw [List.take_add_one, List.sum_append, List.getElem?_eq_getElem hlt, List.getD_eq_getElem _ _ hlt]
    simp
  · rw [List.take_of_length_le hge, List.take_of_length_le (by omega), List.getD_eq_default _ _ hge]
    rfl

theorem start_mono {i j : Nat} (h : i ≤ j) : start sizes i ≤ start sizes j := by
  induction h with
  | refl => exact le_rfl
  | step _ ih =>
    rw [start_succ]
    omega

theorem start_of_length_le {i : Nat} (h : sizes.length ≤ i) : start sizes i = sizes.sum := by
  unfold start
  rw [List.take_of_length_le h]

theorem start_le_sum (i : Nat) : start sizes i ≤ sizes.sum := by
  rcases Nat.lt_or_ge i sizes.length with hlt | hge
  · rw [← start_of_length_le sizes le_rfl]
    exact start_mono sizes hlt.le
  · rw [start_of_length_le sizes hge]

variable {sizes}

/-- The end of an extent is the start of the next. -/
theorem place_end (i : Nat) : place sizes i (sizes.getD i 0) = place sizes (i + 1) 0 := by
  unfold place
  rw [start_succ, Nat.add_zero]

/-- A place inside an extent stands before what stands behind it. -/
theorem place_lt_iff {i j off off' : Nat} (hj : off < sizes.getD j 0) (hi : off' ≤ sizes.getD i 0) :
    place sizes j off < place sizes i off' ↔ j < i ∨ j = i ∧ off < off' := by
  unfold place
  rcases Nat.lt_trichotomy j i with hlt | rfl | hgt
  · have hnext := start_mono sizes (Nat.succ_le_of_lt hlt)
    rw [Nat.succ_eq_add_one, start_succ] at hnext
    omega
  · omega
  · have hnext := start_mono sizes (Nat.succ_le_of_lt hgt)
    rw [Nat.succ_eq_add_one, start_succ] at hnext
    omega

/-- Places inside the extents are apart. -/
theorem place_inj {i j off off' : Nat} (hj : off < sizes.getD j 0) (hi : off' < sizes.getD i 0)
    (h : place sizes j off = place sizes i off') : j = i ∧ off = off' := by
  have hle := (place_lt_iff hj hi.le).not.mp (by omega)
  have hge := (place_lt_iff hi hj.le).not.mp (by omega)
  constructor
  · omega
  · omega

/-! ## Pieces that follow each other -/

section

variable {α : Type*} (first size : α → Nat)

/-- The pieces go from `lo` to `hi` without a gap, and none is empty. -/
def Follow : Nat → List α → Nat → Prop
  | lo, [], hi => lo = hi
  | lo, c :: cs, hi => first c = lo ∧ 0 < size c ∧ Follow (lo + size c) cs hi

variable {first size}

theorem follow_append {lo hi : Nat} {xs ys : List α} :
    Follow first size lo (xs ++ ys) hi ↔ ∃ mid, Follow first size lo xs mid ∧ Follow first size mid ys hi := by
  induction xs generalizing lo with
  | nil => simp [Follow]
  | cons c cs ih =>
    simp only [List.cons_append, Follow, ih]
    constructor
    · rintro ⟨hfirst, hpos, mid, hcs, hys⟩
      exact ⟨mid, ⟨hfirst, hpos, hcs⟩, hys⟩
    · rintro ⟨mid, ⟨hfirst, hpos, hcs⟩, hys⟩
      exact ⟨hfirst, hpos, mid, hcs, hys⟩

theorem Follow.snoc {lo hi : Nat} {xs : List α} {c : α} (h : Follow first size lo xs hi)
    (hfirst : first c = hi) (hpos : 0 < size c) : Follow first size lo (xs ++ [c]) (hi + size c) :=
  follow_append.mpr ⟨hi, h, hfirst, hpos, rfl⟩

theorem Follow.le_first {lo hi : Nat} {xs : List α} (h : Follow first size lo xs hi) {c : α}
    (hmem : c ∈ xs) : lo ≤ first c := by
  induction xs generalizing lo with
  | nil => cases hmem
  | cons d cs ih =>
    rcases List.mem_cons.mp hmem with rfl | hmem
    · exact h.1.ge
    · have hrest := ih h.2.2 hmem
      omega

/-- Dropping what stands before `lo` leaves the pieces that go on from there. -/
theorem dropWhile_before {old fresh : List α} {lo hi : Nat} {p : α → Bool}
    (hold : ∀ c ∈ old, p c = true) (hfresh : ∀ c ∈ fresh, p c = decide (first c < lo))
    (h : Follow first size lo fresh hi) :
    (old ++ fresh).dropWhile p = fresh ∧ (old ++ fresh).takeWhile p = old ∧
      (old ++ fresh).filter (fun c => !p c) = fresh := by
  have hkeep : ∀ c ∈ fresh, p c = false := by
    intro c hmem
    have hle := h.le_first hmem
    rw [hfresh c hmem, decide_eq_false_iff_not]
    omega
  have hdrop : fresh.dropWhile p = fresh ∧ fresh.takeWhile p = [] := by
    cases fresh with
    | nil => exact ⟨rfl, rfl⟩
    | cons c cs => simp [hkeep c (by simp)]
  refine ⟨?_, ?_, ?_⟩
  · rw [List.dropWhile_append_of_pos hold, hdrop.1]
  · rw [List.takeWhile_append_of_pos hold, hdrop.2, List.append_nil]
  · rw [List.filter_append, List.filter_eq_nil_iff.mpr (by simpa using hold),
      List.filter_eq_self.mpr (by simpa using hkeep), List.nil_append]

end

end Extents
