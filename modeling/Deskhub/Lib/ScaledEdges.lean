import Mathlib.Order.SuccPred.IntervalSucc
import Mathlib.Data.Nat.SuccPred

/-!
# The cells of a scaled range

A range of `src` places is cut into `dst` cells at the edges `i * src / dst`. With no more cells
than places each cell has a place, and each place is in one cell.
-/

namespace ScaledEdges

/-- The first place of cell `i`. -/
def edge (src dst i : Nat) : Nat := i * src / dst

variable {src dst : Nat}

@[simp] theorem edge_zero (src dst : Nat) : edge src dst 0 = 0 := by
  unfold edge
  rw [Nat.zero_mul, Nat.zero_div]

/-- The last edge is the end of the range. -/
theorem edge_last (hdst : 0 < dst) : edge src dst dst = src := Nat.mul_div_cancel_left src hdst

theorem edge_monotone (src dst : Nat) : Monotone (edge src dst) := by
  intro i j hij
  exact Nat.div_le_div_right (Nat.mul_le_mul_right src hij)

theorem edge_le (hdst : 0 < dst) {i : Nat} (hi : i ≤ dst) : edge src dst i ≤ src := by
  have hle := edge_monotone src dst hi
  rw [edge_last hdst] at hle
  exact hle

/-- No cell is empty. -/
theorem edge_lt_succ (hdst : 0 < dst) (hle : dst ≤ src) (i : Nat) :
    edge src dst i < edge src dst (i + 1) := by
  unfold edge
  calc i * src / dst < i * src / dst + 1 := Nat.lt_succ_self _
    _ = (i * src + dst) / dst := (Nat.add_div_right _ hdst).symm
    _ ≤ (i + 1) * src / dst := by
      apply Nat.div_le_div_right
      rw [Nat.succ_mul]
      exact Nat.add_le_add_left hle _

/-- Each place of the range is in one cell. -/
theorem existsUnique_cell (hdst : 0 < dst) {place : Nat} (hplace : place < src) :
    ∃! i, i < dst ∧ edge src dst i ≤ place ∧ place < edge src dst (i + 1) := by
  have hexists : ∀ n, place < edge src dst n →
      ∃ i, i < n ∧ edge src dst i ≤ place ∧ place < edge src dst (i + 1) := by
    intro n hn
    induction n with
    | zero =>
      rw [edge_zero] at hn
      exact absurd hn (Nat.not_lt_zero place)
    | succ n ih =>
      by_cases hbefore : place < edge src dst n
      · rcases ih hbefore with ⟨i, hi, hcell⟩
        exact ⟨i, Nat.lt_succ_of_lt hi, hcell⟩
      · exact ⟨n, Nat.lt_succ_self n, Nat.not_lt.mp hbefore, hn⟩
  rcases hexists dst (by rw [edge_last hdst]; exact hplace) with ⟨i, hi, hcell⟩
  refine ⟨i, ⟨hi, hcell⟩, ?_⟩
  rintro j ⟨-, hother⟩
  by_contra hne
  have hdisjoint := (edge_monotone src dst).pairwise_disjoint_on_Ico_succ hne
  exact Set.disjoint_left.mp hdisjoint (Set.mem_Ico.mpr hother) (Set.mem_Ico.mpr hcell)

end ScaledEdges
