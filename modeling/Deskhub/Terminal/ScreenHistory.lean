import Deskhub.Terminal.ScreenResize

/-!
# What is above the cursor

The rows of the scrollback and those of the primary grid up to the cursor's are one sequence.
A resize moves rows of it from the grid to the scrollback and fits the others to the new width;
rows are lost only where the scrollback is full, and then the oldest ones.
-/

namespace Deskhub

namespace Screen

variable {s : Screen}

/-- The rows up to the cursor's, oldest first. -/
def above (s : Screen) : List Row := s.scrollback ++ s.grid.take (s.cursor.row + 1)

/-- The cursor's place in them. -/
def aboveCursor (s : Screen) : Nat := s.scrollback.length + s.cursor.row

/-- The rows that are not among the first `history` ones cut or padded to a width. -/
def fitted (history cols : Nat) (rows : List Row) : List Row :=
  rows.take history ++ (rows.drop history).map (fun row => resizeRow row cols {})

/-- What `t` shows up to its cursor is what `s` shows up to its own, less rows from the top. -/
structure KeepsAbove (s t : Screen) (dropped : Nat) : Prop where
  rows : t.above = fitted t.scrollback.length t.cols (s.above.drop dropped)
  full : 0 < dropped → t.scrollback.length = s.scrollbackLimit
  row : t.aboveCursor + dropped = s.aboveCursor
  col : t.cursor.col = min s.cursor.col (t.cols - 1)

/-- How many rows leave the primary grid when the screen gets that size. -/
def leaving (s : Screen) (size : TermSize) : Nat :=
  min (s.size.rows - (clampTermSize size).rows) s.cursor.row

theorem resize_size (s : Screen) (size : TermSize) : (s.resize size).size = clampTermSize size := by
  unfold Screen.resize
  dsimp only
  split
  · next hsame => exact hsame.symm
  · rfl

/-- The cursor goes up with the row it is on. -/
theorem resize_cursor (h : s.Wf) (hprimary : s.alternate = false) (size : TermSize) :
    (s.resize size).cursor.row = s.cursor.row - s.leaving size ∧
      (s.resize size).cursor.col = min s.cursor.col ((clampTermSize size).cols - 1) := by
  have hrow := h.cursor.1
  have hcol := h.cursor.2
  have hrows := (clampTermSize_ok size).rows.1
  unfold Screen.resize leaving
  dsimp only
  by_cases hsame : clampTermSize size = s.size
  · rw [if_pos hsame, hsame, Nat.sub_self, Nat.zero_min]
    exact ⟨rfl, by omega⟩
  rw [if_neg hsame]
  by_cases hshrinks : (clampTermSize size).rows < s.size.rows
  · -- what is left of the cursor's row is within the new rows, so it is not clamped again
    rw [if_pos ⟨hshrinks, by simp [hprimary]⟩]
    refine ⟨?_, rfl⟩
    show min (s.cursor.row - _) _ = _
    omega
  · rw [if_neg (fun hshrink => hshrinks hshrink.1)]
    refine ⟨?_, rfl⟩
    show min s.cursor.row _ = _
    omega

/-- The rows above the cursor that have to leave go to the scrollback, the others stay. -/
theorem resize_rows (h : s.Wf) (hheld : s.Held s.scrollbackLimit) (hprimary : s.alternate = false)
    (size : TermSize) :
    (s.resize size).scrollback =
        (s.scrollback ++ s.grid.take (s.leaving size)).rtake s.scrollbackLimit ∧
      (s.resize size).grid = resizeGrid (s.grid.drop (s.leaving size)) (clampTermSize size) := by
  have hlines := resize_primary h hheld hprimary size
  have hlength : (s.resize size).grid.length =
      (resizeGrid (s.grid.drop (s.leaving size)) (clampTermSize size)).length := by
    rw [(h.resize size).grid.1, resize_size, length_resizeGrid]
  exact List.append_inj' hlines hlength

/-- The rows of a grid that is cut or padded are its own, as far as it has any. -/
theorem take_resizeGrid {grid : List Row} {size : TermSize} {n : Nat} (hgrid : n ≤ grid.length)
    (hsize : n ≤ size.rows) :
    (resizeGrid grid size).take n = (grid.take n).map (fun row => resizeRow row size.cols {}) := by
  unfold resizeGrid
  rw [← List.map_take, List.take_append_of_le_length (by rw [List.length_take]; omega),
    List.take_take, Nat.min_eq_left hsize]

/-- A resize of the primary screen keeps what is above the cursor, and drops rows from the top
only as far as the scrollback has no room for the ones that leave. -/
theorem resize_keepsAbove (h : s.Reachable) (hprimary : s.alternate = false) (size : TermSize) :
    (s.resize size).size = clampTermSize size ∧
      s.KeepsAbove (s.resize size) (s.scrollback.length + s.leaving size - s.scrollbackLimit) := by
  have hwf := h.wf
  have hheld := h.held
  have hsize := resize_size s size
  have hleft : s.leaving size ≤ s.cursor.row := Nat.min_le_right _ _
  have hheight : s.leaving size ≤ s.size.rows - (clampTermSize size).rows := Nat.min_le_left _ _
  have hrow : s.cursor.row < s.grid.length := hwf.grid.1.symm ▸ hwf.cursor.1
  have hlimit := hheld.scrollback
  rcases resize_cursor hwf hprimary size with ⟨hcursor, hcol⟩
  rcases resize_rows hwf hheld hprimary size with ⟨hscrollback, hgrid⟩
  have hcols : (s.resize size).cols = (clampTermSize size).cols := congrArg TermSize.cols hsize
  have hinside : s.cursor.row - s.leaving size < (clampTermSize size).rows := by
    rw [← hcursor, ← hsize]
    exact (hwf.resize size).cursor.1
  have hhistory : (s.resize size).scrollback.length =
      s.scrollback.length + s.leaving size - (s.scrollback.length + s.leaving size - s.scrollbackLimit) := by
    rw [hscrollback]
    unfold List.rtake
    rw [List.length_drop, List.length_append, List.length_take]
    omega
  refine ⟨hsize, ?_, ?_, ?_, hcols.symm ▸ hcol⟩
  · -- the rows that leave and the rows that stay, with the scrollback before them
    have hsplit : s.above = (s.scrollback ++ s.grid.take (s.leaving size)) ++
        (s.grid.drop (s.leaving size)).take (s.cursor.row - s.leaving size + 1) := by
      have hjoin := List.take_add (l := s.grid) (i := s.leaving size)
        (j := s.cursor.row - s.leaving size + 1)
      rw [show s.leaving size + (s.cursor.row - s.leaving size + 1) = s.cursor.row + 1 by omega] at hjoin
      rw [above, hjoin, List.append_assoc]
    have hgone : (s.scrollback ++ s.grid.take (s.leaving size)).length =
        s.scrollback.length + s.leaving size := by
      rw [List.length_append, List.length_take]
      omega
    have hkept : (s.resize size).scrollback = (s.scrollback ++ s.grid.take (s.leaving size)).drop
        (s.scrollback.length + s.leaving size - s.scrollbackLimit) := by
      rw [hscrollback, ← hgone]
      rfl
    have hshown : (s.resize size).grid.take ((s.resize size).cursor.row + 1) =
        ((s.grid.drop (s.leaving size)).take (s.cursor.row - s.leaving size + 1)).map
          (fun row => resizeRow row (s.resize size).cols {}) := by
      rw [hgrid, hcursor, hcols]
      exact take_resizeGrid (by rw [List.length_drop]; omega) (by omega)
    unfold fitted
    rw [hsplit, List.drop_append_of_le_length (by rw [hgone]; omega), ← hkept, List.take_left,
      List.drop_left, ← hshown]
    rfl
  · intro hfull
    omega
  · unfold aboveCursor
    omega

/-- Three lines on a screen with room for one row of history, and a window of one row. -/
theorem resize_keepsAbove_shorter :
    (((Screen.new { cols := 4, rows := 3 } 1).write (ascii "a\r\nb\r\nc")).resize
        { cols := 2, rows := 1 }).size = clampTermSize { cols := 2, rows := 1 } ∧
      ((Screen.new { cols := 4, rows := 3 } 1).write (ascii "a\r\nb\r\nc")).KeepsAbove
        (((Screen.new { cols := 4, rows := 3 } 1).write (ascii "a\r\nb\r\nc")).resize
          { cols := 2, rows := 1 })
        (((Screen.new { cols := 4, rows := 3 } 1).write (ascii "a\r\nb\r\nc")).scrollback.length +
          ((Screen.new { cols := 4, rows := 3 } 1).write (ascii "a\r\nb\r\nc")).leaving
            { cols := 2, rows := 1 } -
          ((Screen.new { cols := 4, rows := 3 } 1).write (ascii "a\r\nb\r\nc")).scrollbackLimit) :=
  resize_keepsAbove ⟨_, _, [.write (ascii "a\r\nb\r\nc")], rfl⟩ (by decide +kernel) _

end Screen

end Deskhub
