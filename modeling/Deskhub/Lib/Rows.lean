import Mathlib.Data.List.Basic
import Mathlib.Data.List.Flatten

/-!
# Rows of one width

A table written row by row: the entry of row `i` and column `j` stands at `i * n + j`.
-/

universe u

namespace Rows

variable {α : Type u}

/-- The first `m` rows of a table of width `n`. -/
def rows (m n : Nat) (f : Nat → Nat → α) : List α :=
  (List.range m).flatMap fun i => (List.range n).map (f i)

theorem rows_succ (m n : Nat) (f : Nat → Nat → α) :
    rows (m + 1) n f = rows m n f ++ (List.range n).map (f m) := by
  unfold rows
  rw [List.range_succ, List.flatMap_append, List.flatMap_singleton]

@[simp] theorem length_rows (m n : Nat) (f : Nat → Nat → α) : (rows m n f).length = m * n := by
  induction m with
  | zero => rw [Nat.zero_mul]; rfl
  | succ m ih =>
    rw [rows_succ, List.length_append, ih, List.length_map, List.length_range, Nat.succ_mul]

theorem getElem?_rows {m n i j : Nat} (f : Nat → Nat → α) (hi : i < m) (hj : j < n) :
    (rows m n f)[i * n + j]? = some (f i j) := by
  induction m with
  | zero => exact absurd hi (Nat.not_lt_zero i)
  | succ m ih =>
    rw [rows_succ]
    rcases Nat.lt_succ_iff_lt_or_eq.mp hi with hbefore | rfl
    · -- an earlier row ends before the last one starts
      have hin : i * n + j < m * n := by
        have hnext : (i + 1) * n ≤ m * n := Nat.mul_le_mul_right n hbefore
        rw [Nat.succ_mul] at hnext
        omega
      rw [List.getElem?_append_left (by rw [length_rows]; exact hin), ih hbefore]
    · rw [List.getElem?_append_right (by rw [length_rows]; omega), length_rows,
        Nat.add_sub_cancel_left, List.getElem?_map, List.getElem?_range hj]
      rfl

end Rows
