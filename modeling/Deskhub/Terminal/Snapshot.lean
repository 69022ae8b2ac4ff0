import Deskhub.Terminal.Screen

/-!
# What a terminal window shows

`SnapshotScreen` copies the rows that a window shows, some way up the scrollback, and
`AnchorScroll` moves a window further up when rows went to the scrollback.
-/

namespace Deskhub

def anchorScroll (scrollOffset scrollbackWas scrollbackNow : Nat) : Nat :=
  if scrollOffset = 0 ∨ scrollbackNow ≤ scrollbackWas then scrollOffset
  else scrollOffset + (scrollbackNow - scrollbackWas)

structure TerminalSnapshot where
  size : TermSize
  cells : List Cell
  cursor : CursorState
  title : Bytes
  revision : Nat
  scrollbackRows : Nat
  scrollOffset : Nat
deriving DecidableEq, Repr

/-- `At`: blank outside the window. -/
def TerminalSnapshot.cellAt (shot : TerminalSnapshot) (row col : Nat) : Cell :=
  if shot.size.rows ≤ row ∨ shot.size.cols ≤ col then {} else shot.cells.getD (row * shot.size.cols + col) {}

/-- A row of the window. -/
def TerminalSnapshot.rowAt (shot : TerminalSnapshot) (row : Nat) : Row :=
  (List.range shot.size.cols).map (shot.cellAt row)

namespace Screen

/-- `ScrollbackAt`: blank outside the scrollback. -/
def scrollbackAt (s : Screen) (row col : Nat) : Cell :=
  if s.scrollback.length ≤ row ∨ (s.scrollback.getD row []).length ≤ col then {}
  else (s.scrollback.getD row []).getD col {}

/-- `SnapshotScreen`. -/
def snapshot (s : Screen) (scrollOffset : Nat) : TerminalSnapshot :=
  let history := if s.alternate then 0 else s.scrollback.length
  let scrollOffset := min scrollOffset history
  let first := history - scrollOffset
  { size := s.size
    cells := (List.range s.rows).flatMap fun r =>
      (List.range s.cols).map fun c =>
        if first + r < history then s.scrollbackAt (first + r) c
        else s.cellAt (first + r - history) c
    cursor := if scrollOffset ≠ 0 then { s.cursor with visible := false } else s.cursor
    title := s.title
    revision := s.revision
    scrollbackRows := history
    scrollOffset := scrollOffset }

end Screen

/-! ## The rows of a snapshot -/

/-- Row by row, a cell is found by its row and column. -/
theorem getD_flatMap_range {α : Type} (f : Nat → Nat → α) {rows cols r c : Nat} (hr : r < rows)
    (hc : c < cols) (d : α) :
    ((List.range rows).flatMap fun r => (List.range cols).map (f r)).getD (r * cols + c) d = f r c := by
  induction rows with
  | zero => exact absurd hr (Nat.not_lt_zero r)
  | succ rows ih =>
    have hlen : ((List.range rows).flatMap fun r => (List.range cols).map (f r)).length = rows * cols := by
      simp [List.length_flatMap]
    rw [List.range_succ, List.flatMap_append, List.flatMap_singleton]
    by_cases hlast : r = rows
    · -- in the row that comes last
      have hbehind : rows * cols ≤ r * cols + c := by
        rw [hlast]
        exact Nat.le_add_right _ _
      have hcol : r * cols + c - rows * cols = c := by
        rw [hlast]
        exact Nat.add_sub_cancel_left _ _
      rw [List.getD_append_right _ _ _ _ (hlen ▸ hbehind), hlen, hcol, hlast,
        List.getD_eq_getElem _ _ (by simpa using hc), List.getElem_map, List.getElem_range]
    · have hrow : r < rows := by omega
      have hbefore : r * cols + c < rows * cols := by
        have hnext : (r + 1) * cols ≤ rows * cols := Nat.mul_le_mul_right cols hrow
        rw [Nat.add_mul, Nat.one_mul] at hnext
        omega
      rw [List.getD_append _ _ _ _ (hlen ▸ hbefore)]
      exact ih hrow

/-- The first cells of a row, blank where the row is shorter. -/
theorem map_getD_range (row : Row) (cols : Nat) :
    ((List.range cols).map fun c => row.getD c {}) = resizeRow row cols {} := by
  unfold resizeRow
  apply List.ext_getElem
  · simp
    omega
  · intro i hi hi'
    have hcol : i < cols := by simpa using hi
    rw [List.getElem_map, List.getElem_range]
    by_cases hinside : i < row.length
    · rw [List.getD_eq_getElem _ _ hinside, List.getElem_append_left (by rw [List.length_take]; omega),
        List.getElem_take]
    · rw [List.getD_eq_default _ _ (Nat.le_of_not_lt hinside),
        List.getElem_append_right (by rw [List.length_take]; omega), List.getElem_replicate]

namespace Screen

variable {s : Screen}

theorem snapshot_scrollbackRows (hprimary : s.alternate = false) (o : Nat) :
    (s.snapshot o).scrollbackRows = s.scrollback.length := by
  unfold snapshot
  rw [hprimary]
  rfl

/-- A row of the scrollback at the screen's width. -/
def historyRow (s : Screen) (line : Nat) : Row := resizeRow (s.scrollback.getD line []) s.cols {}

theorem map_scrollbackAt (s : Screen) (line : Nat) :
    (List.range s.cols).map (s.scrollbackAt line) = s.historyRow line := by
  unfold historyRow
  rw [← map_getD_range]
  apply List.map_congr_left
  intro c _
  unfold scrollbackAt
  split
  · next hout =>
    rcases hout with hline | hcol
    · rw [List.getD_eq_default s.scrollback [] hline]
      rfl
    · rw [List.getD_eq_default _ _ hcol]
  · rfl

/-- A window that is scrolled up starts with a row of the scrollback. -/
theorem snapshot_top (hprimary : s.alternate = false) (hrows : 1 ≤ s.rows) {o : Nat} (ho : 0 < o)
    (hle : o ≤ s.scrollback.length) :
    (s.snapshot o).rowAt 0 = s.historyRow (s.scrollback.length - o) := by
  rw [← map_scrollbackAt]
  unfold TerminalSnapshot.rowAt
  apply List.map_congr_left
  intro c hc
  have hcol : c < s.cols := List.mem_range.mp hc
  have hrow : ¬ (s.snapshot o).size.rows ≤ 0 := Nat.not_le.mpr hrows
  have hinside : ¬ (s.snapshot o).size.cols ≤ c := Nat.not_le.mpr hcol
  unfold TerminalSnapshot.cellAt
  rw [if_neg (not_or.mpr ⟨hrow, hinside⟩)]
  unfold snapshot
  dsimp only
  rw [hprimary]
  refine (getD_flatMap_range _ hrows hcol ({} : Cell)).trans ?_
  simp only [Bool.false_eq_true, if_false, Nat.add_zero, Nat.min_eq_left hle]
  rw [if_pos (by omega)]

end Screen

end Deskhub
