import Mathlib.Order.Bounds.Defs
import Mathlib.Data.Set.Insert

/-!
# A minimum over two rolling windows

Entries fall into numbered windows, their numbers never going down. Two cells hold the least value
of the window that is filled and of the one before it; either is empty when its window is. Rotating
empties the one for the next window.
-/

universe u v

/-- The cell holds the least of the values, and nothing when there are none. -/
def LeastOf {β : Type v} [LE β] (values : Set β) : Option β → Prop
  | none => values = ∅
  | some least => IsLeast values least

namespace LeastOf

variable {β : Type v} [LE β]

theorem of_some {values : Set β} {cell : Option β} {least : β} (h : LeastOf values cell)
    (hcell : cell = some least) : IsLeast values least := by
  rw [hcell] at h
  exact h

theorem singleton [Std.IsLinearOrder β] (value : β) : LeastOf {value} (some value) := by
  refine ⟨?_, ?_⟩
  · rfl
  · rintro _ rfl
    exact Std.le_refl _

/-- The least of two collections is the least of their leasts. -/
theorem merge [Min β] [Std.IsLinearOrder β] [Std.LawfulOrderMin β] {values others : Set β}
    {cell other : Option β} (h : LeastOf values cell) (ho : LeastOf others other) :
    LeastOf (values ∪ others) (cell.merge min other) := by
  cases cell with
  | none =>
    rw [show values = ∅ from h, Set.empty_union, Option.merge_none_left]
    exact ho
  | some a =>
    cases other with
    | none =>
      rw [show others = ∅ from ho, Set.union_empty, Option.merge_none_right]
      exact h
    | some b =>
      constructor
      · rcases Std.MinEqOr.min_eq_or a b with hmin | hmin
        · rw [hmin]
          exact .inl h.1
        · rw [hmin]
          exact .inr ho.1
      · rintro v (hv | hv)
        · exact Std.le_trans Std.min_le_left (h.2 hv)
        · exact Std.le_trans Std.min_le_right (ho.2 hv)

end LeastOf

/-- The number of the window that is filled, and the cells. -/
structure RollingMinimum (β : Type v) where
  window : Nat
  current : Option β
  previous : Option β

namespace RollingMinimum

variable {α : Type u} {β : Type v}

/-- The next window. -/
def rotate (r : RollingMinimum β) : RollingMinimum β where
  window := r.window + 1
  current := none
  previous := r.current

/-- A value in the window that is filled. -/
def add [Min β] (r : RollingMinimum β) (value : β) : RollingMinimum β :=
  { r with current := r.current.merge min (some value) }

/-- The least value of both windows. -/
def floor [Min β] (r : RollingMinimum β) : Option β := r.current.merge min r.previous

variable (index : α → Nat) (value : α → β)

/-- The values of the entries whose window is one of these. -/
def valuesIn (windows : Nat → Prop) (entries : List α) : Set β :=
  {v | ∃ x ∈ entries, windows (index x) ∧ value x = v}

variable {index value}

theorem valuesIn_concat (windows : Nat → Prop) (entries : List α) (x : α) :
    valuesIn index value windows (entries ++ [x]) =
      valuesIn index value windows entries ∪ valuesIn index value windows [x] := by
  ext v
  constructor
  · rintro ⟨y, hy, hyv⟩
    rcases List.mem_append.mp hy with hy | hy
    · exact .inl ⟨y, hy, hyv⟩
    · exact .inr ⟨y, hy, hyv⟩
  · rintro (⟨y, hy, hyv⟩ | ⟨y, hy, hyv⟩)
    · exact ⟨y, List.mem_append_left _ hy, hyv⟩
    · exact ⟨y, List.mem_append_right _ hy, hyv⟩

theorem valuesIn_singleton (windows : Nat → Prop) {x : α} (h : windows (index x)) :
    valuesIn index value windows [x] = {value x} := by
  ext v
  rw [Set.mem_singleton_iff]
  simp [valuesIn, h, eq_comm]

theorem valuesIn_singleton_of_not (windows : Nat → Prop) {x : α} (h : ¬ windows (index x)) :
    valuesIn index value windows [x] = ∅ := by
  ext v
  simp [valuesIn, h]

theorem valuesIn_or (windows others : Nat → Prop) (entries : List α) :
    valuesIn index value (fun k => windows k ∨ others k) entries =
      valuesIn index value windows entries ∪ valuesIn index value others entries := by
  ext v
  simp only [valuesIn, Set.mem_union, Set.mem_ofPred_eq]
  grind

variable [LE β] (index value)

/-- The cells hold what the entries leave in them. -/
structure Follows (r : RollingMinimum β) (entries : List α) : Prop where
  upTo : ∀ x ∈ entries, index x ≤ r.window
  current : LeastOf (valuesIn index value (· = r.window) entries) r.current
  previous : LeastOf (valuesIn index value (· + 1 = r.window) entries) r.previous

variable {index value} {r : RollingMinimum β} {entries : List α}

/-- No entry is in the next window yet. -/
theorem Follows.rotate (h : Follows index value r entries) :
    Follows index value r.rotate entries := by
  constructor
  · intro x hx
    exact Nat.le_succ_of_le (h.upTo x hx)
  · ext v
    constructor
    · rintro ⟨x, hx, hnext, -⟩
      have hbefore := h.upTo x hx
      change index x = r.window + 1 at hnext
      omega
    · rintro ⟨⟩
  · have hsame : valuesIn index value (· + 1 = r.rotate.window) entries =
        valuesIn index value (· = r.window) entries := by
      show valuesIn index value (fun k => k + 1 = r.window + 1) entries = _
      simp only [Nat.add_right_cancel_iff]
    rw [hsame]
    exact h.current

variable [Min β] [Std.IsLinearOrder β] [Std.LawfulOrderMin β]

theorem Follows.add (h : Follows index value r entries) {x : α} (hx : index x = r.window) :
    Follows index value (r.add (value x)) (entries ++ [x]) := by
  constructor
  · intro y hy
    rcases List.mem_append.mp hy with hy | hy
    · exact h.upTo y hy
    · rw [List.mem_singleton.mp hy]
      exact Nat.le_of_eq hx
  · show LeastOf (valuesIn index value (· = r.window) (entries ++ [x])) _
    rw [valuesIn_concat, valuesIn_singleton (· = r.window) hx]
    exact h.current.merge (LeastOf.singleton (value x))
  · show LeastOf (valuesIn index value (· + 1 = r.window) (entries ++ [x])) _
    have hnot : ¬ index x + 1 = r.window := by omega
    rw [valuesIn_concat, valuesIn_singleton_of_not (· + 1 = r.window) hnot, Set.union_empty]
    exact h.previous

theorem Follows.floor (h : Follows index value r entries) :
    LeastOf (valuesIn index value (fun k => k = r.window ∨ k + 1 = r.window) entries) r.floor := by
  rw [valuesIn_or]
  exact h.current.merge h.previous

end RollingMinimum
