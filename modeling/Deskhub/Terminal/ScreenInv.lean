import Deskhub.Terminal.Screen
import Deskhub.Terminal.VtParserSteps

/-!
# What holds of every screen

The shape of the grids, where the cursor may stand, and what the cells and the
title may hold, whatever was written to a screen.
-/

namespace Deskhub

/-- A row of `cols` cells that show printable code points. -/
def RowOk (cols : Nat) (row : Row) : Prop := row.length = cols ∧ ∀ c ∈ row, Printable c.ch

/-- A grid of a size. -/
def GridOk (size : TermSize) (grid : List Row) : Prop :=
  grid.length = size.rows ∧ ∀ row ∈ grid, RowOk size.cols row

structure SizeOk (size : TermSize) : Prop where
  cols : 1 ≤ size.cols ∧ size.cols ≤ kMaxTermCols
  rows : 1 ≤ size.rows ∧ size.rows ≤ kMaxTermRows

theorem clampTermSize_ok (size : TermSize) : SizeOk (clampTermSize size) := by
  constructor
  all_goals
    simp only [clampTermSize, kMinTermCols, kMinTermRows, kMaxTermCols, kMaxTermRows]
    omega

/-- A size that a screen can have stays as it is. -/
theorem SizeOk.clamp_eq {size : TermSize} (h : SizeOk size) : clampTermSize size = size := by
  have hcols := h.cols
  have hrows := h.rows
  simp only [kMaxTermCols, kMaxTermRows] at hcols hrows
  rw [TermSize.mk.injEq]
  constructor
  · show min (max size.cols 1) 1000 = size.cols
    omega
  · show min (max size.rows 1) 1000 = size.rows
    omega

def Inside (size : TermSize) (c : CursorState) : Prop := c.row < size.rows ∧ c.col < size.cols

def RegionOk (size : TermSize) (region : ScrollRegion) : Prop :=
  region.bottom < size.rows ∧
    (region.top < region.bottom ∨ region.top = 0 ∧ region.bottom + 1 = size.rows)

structure Screen.Wf (s : Screen) : Prop where
  size : SizeOk s.size
  grid : GridOk s.size s.grid
  saved : s.savedGrid = [] ∨ GridOk s.size s.savedGrid
  cursor : Inside s.size s.cursor
  savedCursor : Inside s.size s.savedCursor
  region : RegionOk s.size s.region
  title : s.title.length ≤ kMaxTitleBytes ∧ ∀ b ∈ s.title, OscByte b
  parser : s.parser.Ok

theorem RegionOk.le {size : TermSize} {region : ScrollRegion} (h : RegionOk size region) :
    region.top ≤ region.bottom := by
  rcases h with ⟨-, h | ⟨h, -⟩⟩
  · exact h.le
  · omega

theorem printable_space : Printable 0x20 := by decide

theorem printable_decSpecialGraphic {cp : Nat} (h : Printable cp) :
    Printable (decSpecialGraphic cp) := by
  unfold decSpecialGraphic
  split
  all_goals first
    | exact h
    | decide

/-! ## Rows -/

theorem RowOk.replicate (cols : Nat) {c : Cell} (h : Printable c.ch) :
    RowOk cols (List.replicate cols c) := by
  refine ⟨List.length_replicate, ?_⟩
  intro c' hc'
  rw [(List.mem_replicate.mp hc').2]
  exact h

theorem RowOk.blank (cols : Nat) : RowOk cols (List.replicate cols {}) :=
  .replicate cols printable_space

theorem RowOk.set {cols : Nat} {row : Row} (h : RowOk cols row) (i : Nat) {c : Cell}
    (hc : Printable c.ch) : RowOk cols (row.set i c) := by
  refine ⟨by rw [List.length_set]; exact h.1, ?_⟩
  intro c' hc'
  rcases List.mem_or_eq_of_mem_set hc' with hc' | rfl
  · exact h.2 c' hc'
  · exact hc

/-- A row cut or padded to a width. -/
theorem RowOk.resize {row : Row} (h : ∀ c ∈ row, Printable c.ch) (cols : Nat) {fill : Cell}
    (hfill : Printable fill.ch) : RowOk cols (resizeRow row cols fill) := by
  unfold resizeRow
  refine ⟨?_, ?_⟩
  · simp only [List.length_append, List.length_take, List.length_replicate]
    omega
  · intro c hc
    rcases List.mem_append.mp hc with hc | hc
    · exact h c (List.mem_of_mem_take hc)
    · rw [(List.mem_replicate.mp hc).2]
      exact hfill

theorem RowOk.fill {cols : Nat} {row : Row} (h : RowOk cols row) {first last : Nat}
    (hlast : last ≤ cols) {blank : Cell} (hblank : Printable blank.ch) :
    RowOk cols (fillCells row first last blank) := by
  have hlen := h.1
  refine ⟨?_, ?_⟩
  · simp only [fillCells, List.length_append, List.length_take, List.length_replicate,
      List.length_drop]
    omega
  · intro c hc
    simp only [fillCells, List.mem_append] at hc
    rcases hc with (hc | hc) | hc
    · exact h.2 c (List.mem_of_mem_take hc)
    · rw [(List.mem_replicate.mp hc).2]
      exact hblank
    · exact h.2 c (List.mem_of_mem_drop hc)

/-! ## Grids -/

theorem GridOk.blank (size : TermSize) :
    GridOk size (List.replicate size.rows (List.replicate size.cols {})) := by
  refine ⟨List.length_replicate, ?_⟩
  intro row hrow
  rw [(List.mem_replicate.mp hrow).2]
  exact .blank size.cols

theorem GridOk.set {size : TermSize} {grid : List Row} (h : GridOk size grid) (r : Nat) {row : Row}
    (hrow : RowOk size.cols row) : GridOk size (grid.set r row) := by
  refine ⟨by rw [List.length_set]; exact h.1, ?_⟩
  intro row' hrow'
  rcases List.mem_or_eq_of_mem_set hrow' with hrow' | rfl
  · exact h.2 row' hrow'
  · exact hrow

/-- Rows in the middle of a grid are replaced by as many others. -/
theorem GridOk.splice {size : TermSize} {grid : List Row} (h : GridOk size grid) {first last : Nat}
    (hle : first ≤ last) (hlast : last ≤ size.rows) {rows : List Row}
    (hlen : rows.length = last - first) (hrows : ∀ row ∈ rows, RowOk size.cols row) :
    GridOk size (grid.take first ++ rows ++ grid.drop last) := by
  have hgrid := h.1
  refine ⟨?_, ?_⟩
  · simp only [List.length_append, List.length_take, List.length_drop]
    omega
  · intro row hrow
    simp only [List.mem_append] at hrow
    rcases hrow with (hrow | hrow) | hrow
    · exact h.2 row (List.mem_of_mem_take hrow)
    · exact hrows row hrow
    · exact h.2 row (List.mem_of_mem_drop hrow)

theorem GridOk.resize {size target : TermSize} {grid : List Row} (h : GridOk size grid) (n : Nat) :
    GridOk target (Screen.resizeGrid (grid.drop n) target) := by
  refine ⟨?_, ?_⟩
  · simp only [Screen.resizeGrid, List.length_map, List.length_append, List.length_take,
      List.length_replicate]
    omega
  · intro row hrow
    simp only [Screen.resizeGrid, List.mem_map, List.mem_append] at hrow
    rcases hrow with ⟨row', hrow', rfl⟩
    refine RowOk.resize ?_ _ printable_space
    rcases hrow' with hrow' | hrow'
    · exact (h.2 row' (List.mem_of_mem_drop (List.mem_of_mem_take hrow'))).2
    · rw [(List.mem_replicate.mp hrow').2]
      exact (RowOk.blank target.cols).2

namespace Screen

theorem Wf.grid_ne_nil {s : Screen} (h : s.Wf) : s.grid ≠ [] := by
  intro hnil
  have hrows := h.size.rows.1
  rw [← h.grid.1, hnil] at hrows
  exact absurd hrows (by simp)

theorem Wf.rowAt {s : Screen} (h : s.Wf) {r : Nat} (hr : r < s.size.rows) :
    RowOk s.size.cols (s.rowAt r) := by
  have hlen : r < s.grid.length := by rw [h.grid.1]; exact hr
  unfold Screen.rowAt
  rw [List.getD_eq_getElem _ _ hlen]
  exact h.grid.2 _ (List.getElem_mem hlen)

theorem printable_blankCell (s : Screen) : Printable s.blankCell.ch := printable_space

theorem rowOk_blankRow (s : Screen) : RowOk s.size.cols s.blankRow :=
  .replicate s.cols (printable_blankCell s)

/-- Another grid. -/
theorem Wf.withGrid {s : Screen} (h : s.Wf) {grid : List Row} (hgrid : GridOk s.size grid) :
    ({ s with grid := grid } : Screen).Wf :=
  { h with grid := hgrid }

theorem Wf.setRow {s : Screen} (h : s.Wf) (r : Nat) {row : Row} (hrow : RowOk s.size.cols row) :
    (s.setRow r row).Wf :=
  h.withGrid (h.grid.set r hrow)

/-- Another place of the cursor. -/
theorem Wf.withCursor {s : Screen} (h : s.Wf) {cursor : CursorState} {pendingWrap : Bool}
    (hcursor : Inside s.size cursor) :
    ({ s with cursor := cursor, pendingWrap := pendingWrap } : Screen).Wf :=
  { h with cursor := hcursor }

theorem Wf.setCol {s : Screen} (h : s.Wf) {col : Nat} (hcol : col < s.size.cols) : (s.setCol col).Wf :=
  { h with cursor := ⟨h.cursor.1, hcol⟩ }

theorem Wf.wrap {s : Screen} (h : s.Wf) (pendingWrap : Bool) :
    ({ s with pendingWrap := pendingWrap } : Screen).Wf :=
  { h with }

/-! ## Scrolling -/

/-- Rows that go to the scrollback change nothing else. -/
theorem pushAll_eq (rows : List Row) (s : Screen) :
    rows.foldl pushScrollback s = { s with scrollback := (rows.foldl pushScrollback s).scrollback } := by
  induction rows generalizing s with
  | nil => rfl
  | cons row rows ih =>
    have hone : s.pushScrollback row =
        { s with scrollback := (s.pushScrollback row).scrollback } := by
      unfold pushScrollback
      split <;> rfl
    rw [List.foldl_cons, ih, hone]

/-- What `ScrollUp` changes: the grid, and the scrollback. -/
theorem scrollUp_eq (s : Screen) (count : Nat) :
    s.scrollUp count = { s with
      grid := s.grid.take s.region.top ++
        (s.regionRows.drop (min count (s.region.bottom - s.region.top + 1)) ++
          List.replicate (min count (s.region.bottom - s.region.top + 1)) s.blankRow) ++
        s.grid.drop (s.region.bottom + 1)
      scrollback := (s.scrollUp count).scrollback } := by
  unfold scrollUp
  dsimp only
  split
  · rw [pushAll_eq]
    rfl
  · rfl

theorem regionRows_ok {s : Screen} (hgrid : GridOk s.size s.grid) :
    ∀ row ∈ s.regionRows, RowOk s.size.cols row := by
  intro row hrow
  exact hgrid.2 row (List.mem_of_mem_drop (List.mem_of_mem_take hrow))

theorem regionRows_length {s : Screen} (hgrid : GridOk s.size s.grid)
    (hle : s.region.top ≤ s.region.bottom) (hbottom : s.region.bottom < s.size.rows) :
    s.regionRows.length = s.region.bottom - s.region.top + 1 := by
  have := hgrid.1
  simp only [regionRows, List.length_take, List.length_drop]
  omega

theorem scrollUp_grid {s : Screen} (hgrid : GridOk s.size s.grid)
    (hle : s.region.top ≤ s.region.bottom) (hbottom : s.region.bottom < s.size.rows) (count : Nat) :
    GridOk s.size (s.scrollUp count).grid := by
  rw [scrollUp_eq]
  refine hgrid.splice (by omega) (by omega) ?_ ?_
  · simp only [List.length_append, List.length_drop, List.length_replicate,
      regionRows_length hgrid hle hbottom]
    omega
  · intro row hrow
    rcases List.mem_append.mp hrow with hrow | hrow
    · exact regionRows_ok hgrid row (List.mem_of_mem_drop hrow)
    · rw [(List.mem_replicate.mp hrow).2]
      exact rowOk_blankRow s

theorem scrollDown_grid {s : Screen} (hgrid : GridOk s.size s.grid)
    (hle : s.region.top ≤ s.region.bottom) (hbottom : s.region.bottom < s.size.rows) (count : Nat) :
    GridOk s.size (s.scrollDown count).grid := by
  unfold scrollDown
  refine hgrid.splice (by omega) (by omega) ?_ ?_
  · simp only [List.length_append, List.length_take, List.length_replicate,
      regionRows_length hgrid hle hbottom]
    omega
  · intro row hrow
    rcases List.mem_append.mp hrow with hrow | hrow
    · rw [(List.mem_replicate.mp hrow).2]
      exact rowOk_blankRow s
    · exact regionRows_ok hgrid row (List.mem_of_mem_take hrow)

theorem Wf.scrollUp {s : Screen} (h : s.Wf) (count : Nat) : (s.scrollUp count).Wf := by
  have hgrid := scrollUp_grid h.grid h.region.le h.region.1 count
  rw [scrollUp_eq] at hgrid ⊢
  exact { h with grid := hgrid }

theorem Wf.scrollDown {s : Screen} (h : s.Wf) (count : Nat) : (s.scrollDown count).Wf :=
  { h with grid := scrollDown_grid h.grid h.region.le h.region.1 count }

theorem Wf.lineFeed {s : Screen} (h : s.Wf) : s.lineFeed.Wf := by
  unfold Screen.lineFeed
  dsimp only
  split
  · exact (h.wrap false).scrollUp 1
  · split
    · next hroom => exact h.withCursor ⟨hroom, h.cursor.2⟩
    · exact h.wrap false

theorem Wf.reverseIndex {s : Screen} (h : s.Wf) : s.reverseIndex.Wf := by
  unfold Screen.reverseIndex
  dsimp only
  split
  · exact (h.wrap false).scrollDown 1
  · split
    · refine h.withCursor ⟨?_, h.cursor.2⟩
      have := h.cursor.1
      show s.cursor.row - 1 < s.size.rows
      omega
    · exact h.wrap false

/-! ## Printing and moving -/

theorem tabStop_lt {cols : Nat} (hcols : 0 < cols) (count : Nat) {col : Nat} (h : col < cols) :
    tabStop cols count col < cols := by
  induction count generalizing col with
  | zero => exact h
  | succ count ih =>
    unfold tabStop
    apply ih
    split <;> omega

theorem backTabStop_le (count col : Nat) : backTabStop count col ≤ col := by
  induction count generalizing col with
  | zero => exact Nat.le_refl col
  | succ count ih =>
    unfold backTabStop
    split
    · exact Nat.le_refl col
    · refine (ih _).trans ?_
      have := Nat.div_mul_le_self (col - 1) kTabWidth
      omega

/-- The cursor is placed inside the grid. -/
theorem Wf.place {s : Screen} (h : s.Wf) (row col : Int) : (s.place row col).Wf := by
  apply h.withCursor
  have hsize := h.size
  have hregion := h.region.1
  have hcols := hsize.cols.1
  have hrows := hsize.rows.1
  refine ⟨?_, ?_⟩
  · show (clampInt row s.moveTop s.moveBottom).toNat < s.size.rows
    have hle := h.region.le
    have hbounds : (0 : Int) ≤ s.moveBottom ∧ s.moveBottom < s.size.rows ∧ s.moveTop ≤ s.moveBottom ∧
        0 ≤ s.moveTop := by
      unfold moveTop moveBottom Screen.rows
      cases s.modes.origin with
      | true => simp; omega
      | false => simp; omega
    unfold clampInt
    split
    · omega
    · split <;> omega
  · show (clampInt col 0 ((s.cols : Int) - 1)).toNat < s.size.cols
    unfold clampInt Screen.cols
    split
    · omega
    · split <;> omega

theorem Wf.moveTo {s : Screen} (h : s.Wf) (row col : Int) : (s.moveTo row col).Wf := h.place _ _

theorem Wf.moveBy {s : Screen} (h : s.Wf) (rows cols : Int) : (s.moveBy rows cols).Wf := h.place _ _

theorem Wf.saveCursor {s : Screen} (h : s.Wf) : s.saveCursor.Wf := { h with savedCursor := h.cursor }

theorem Wf.restoreCursor {s : Screen} (h : s.Wf) : s.restoreCursor.Wf := by
  have hcols := h.size.cols.1
  have hrows := h.size.rows.1
  refine { h with cursor := ⟨?_, ?_⟩ }
  · show min s.savedCursor.row (s.size.rows - 1) < s.size.rows
    omega
  · show min s.savedCursor.col (s.size.cols - 1) < s.size.cols
    omega

theorem Wf.setScrollRegion {s : Screen} (h : s.Wf) (top bottom : Int) :
    (s.setScrollRegion top bottom).Wf := by
  have hrows := h.size.rows.1
  have hregion : ∀ region, RegionOk s.size region → ({ s with region := region } : Screen).Wf :=
    fun region hregion => { h with region := hregion }
  -- both ends are rows of the screen
  have hends : ∀ t b : Int, 1 ≤ t → 1 ≤ b → b ≤ s.size.rows →
      RegionOk s.size (if b ≤ t then { top := 0, bottom := s.rows - 1 }
        else { top := (t - 1).toNat, bottom := (b - 1).toNat }) := by
    intro t b ht hb hbr
    unfold RegionOk Screen.rows
    split
    · dsimp only
      omega
    · dsimp only
      omega
  unfold Screen.setScrollRegion
  dsimp only
  apply moveTo
  apply hregion
  apply hends
  · split <;> omega
  · split
    · unfold Screen.rows
      omega
    · omega
  · split
    · exact Int.le_refl _
    · unfold Screen.rows at *
      omega

theorem Wf.wrapPending {s : Screen} (h : s.Wf) : s.wrapPending.Wf := by
  unfold Screen.wrapPending
  dsimp only
  apply wrap
  split
  · exact (h.setCol h.size.cols.1).lineFeed
  · exact h

theorem printable_glyph (s : Screen) {cp : Nat} (h : Printable cp) : Printable (s.glyph cp) := by
  unfold glyph
  dsimp only
  split
  · split
    · exact printable_decSpecialGraphic h
    · exact h
  · split
    · exact printable_decSpecialGraphic h
    · exact h

theorem Wf.printedRow {s : Screen} (h : s.Wf) {cp : Nat} (hcp : Printable cp) :
    RowOk s.size.cols (s.printedRow cp) := by
  have hrow := h.rowAt h.cursor.1
  unfold Screen.printedRow
  dsimp only
  refine RowOk.set ?_ _ (printable_glyph s hcp)
  split
  · refine RowOk.resize ?_ _ printable_space
    intro c hc
    rcases List.mem_append.mp hc with hc | hc
    · exact hrow.2 c (List.mem_of_mem_take hc)
    · rcases List.mem_cons.mp hc with rfl | hc
      · exact printable_blankCell s
      · exact hrow.2 c (List.mem_of_mem_drop hc)
  · exact hrow

theorem Wf.advance {s : Screen} (h : s.Wf) : s.advance.Wf := by
  unfold Screen.advance
  split
  · exact h.wrap true
  · next hroom => exact h.setCol (Nat.not_le.mp hroom)

theorem Wf.print {s : Screen} (h : s.Wf) {cp : Nat} (hcp : Printable cp) : (s.print cp).Wf := by
  have hcols := h.size.cols.1
  have hplaced : (if s.wrapPending.cols ≤ s.wrapPending.cursor.col then
      s.wrapPending.setCol (s.wrapPending.cols - 1) else s.wrapPending).Wf := by
    have hwrapped := h.wrapPending
    split
    · apply hwrapped.setCol
      have := hwrapped.size.cols.1
      unfold Screen.cols
      omega
    · exact hwrapped
  unfold Screen.print
  exact (hplaced.setRow _ (hplaced.printedRow hcp)).advance

theorem Wf.backspace {s : Screen} (h : s.Wf) : s.backspace.Wf := by
  unfold Screen.backspace
  split
  · exact h.wrap false
  · split
    · apply h.setCol
      have := h.cursor.2
      omega
    · exact h

theorem Wf.tab {s : Screen} (h : s.Wf) (count : Nat) : (s.tab count).Wf :=
  (h.setCol (tabStop_lt h.size.cols.1 count h.cursor.2)).wrap false

theorem Wf.backTab {s : Screen} (h : s.Wf) (count : Nat) : (s.backTab count).Wf :=
  (h.setCol (lt_of_le_of_lt (backTabStop_le count s.cursor.col) h.cursor.2)).wrap false

theorem Wf.carriageReturn {s : Screen} (h : s.Wf) : s.carriageReturn.Wf :=
  (h.setCol h.size.cols.1).wrap false

theorem Wf.execute {s : Screen} (h : s.Wf) (control : UInt8) : (s.execute control).Wf := by
  unfold Screen.execute
  split
  · exact h.backspace
  · split
    · exact h.tab 1
    · split
      · exact h.lineFeed
      · split
        · exact h.carriageReturn
        · split
          · exact { h with }
          · split
            · exact { h with }
            · exact h

/-! ## Erasing, inserting and deleting -/

theorem Wf.eraseCells {s : Screen} (h : s.Wf) {first last : Nat} (hlast : last ≤ s.size.cols) :
    (s.eraseCells first last).Wf :=
  h.setRow _ ((h.rowAt h.cursor.1).fill hlast (printable_blankCell s))

theorem Wf.eraseRows {s : Screen} (h : s.Wf) {first last : Nat} (hfirst : first ≤ s.size.rows)
    (hlast : last ≤ s.size.rows) : (s.eraseRows first last).Wf := by
  apply h.withGrid
  refine h.grid.splice (Nat.le_max_left first last) (Nat.max_le.mpr ⟨hfirst, hlast⟩) ?_ ?_
  · rw [List.length_replicate]
    omega
  · intro row hrow
    rw [(List.mem_replicate.mp hrow).2]
    exact rowOk_blankRow s

theorem Wf.eraseInDisplay {s : Screen} (h : s.Wf) (how : Int) : (s.eraseInDisplay how).Wf := by
  have hrow := h.cursor.1
  unfold Screen.eraseInDisplay
  split
  · exact (h.eraseRows (Nat.zero_le _) hrow.le).eraseCells (Nat.min_le_right _ _)
  · split
    · dsimp only
      have hcleared : (if how = 3 then { s with scrollback := [] } else s).Wf := by
        split
        · exact { h with }
        · exact h
      exact hcleared.eraseRows (Nat.zero_le _) le_rfl
    · exact (h.eraseCells le_rfl).eraseRows (Nat.succ_le_of_lt hrow) le_rfl

theorem Wf.eraseInLine {s : Screen} (h : s.Wf) (how : Int) : (s.eraseInLine how).Wf := by
  unfold Screen.eraseInLine
  split
  · exact h.eraseCells (Nat.min_le_right _ _)
  · split
    · exact h.setRow _ (rowOk_blankRow s)
    · exact h.eraseCells le_rfl

/-- A scroll of the rows from the cursor's on, by what it does to the grid. -/
theorem Wf.atCursorRow {s : Screen} (h : s.Wf) {f : Screen → Screen}
    (hf : ∀ t : Screen, ∃ scrollback, f t = { t with grid := (f t).grid, scrollback := scrollback })
    (hgrid : ∀ t : Screen, GridOk t.size t.grid → t.region.top ≤ t.region.bottom →
      t.region.bottom < t.size.rows → GridOk t.size (f t).grid) : (s.atCursorRow f).Wf := by
  unfold Screen.atCursorRow
  split
  · exact h
  · next hinside =>
    push Not at hinside
    have hscrolled := hgrid { s with region := { s.region with top := s.cursor.row } } h.grid
      hinside.2 h.region.1
    rcases hf { s with region := { s.region with top := s.cursor.row } } with ⟨scrollback, heq⟩
    dsimp only
    rw [heq]
    exact { h with grid := hscrolled, cursor := ⟨h.cursor.1, h.size.cols.1⟩ }

theorem Wf.insertLines {s : Screen} (h : s.Wf) (count : Nat) : (s.insertLines count).Wf := by
  apply h.atCursorRow
  · intro t
    exact ⟨t.scrollback, rfl⟩
  · intro t hgrid hle hbottom
    exact scrollDown_grid hgrid hle hbottom count

theorem Wf.deleteLines {s : Screen} (h : s.Wf) (count : Nat) : (s.deleteLines count).Wf := by
  apply h.atCursorRow
  · intro t
    refine ⟨(t.scrollUp count).scrollback, ?_⟩
    rw [scrollUp_eq]
  · intro t hgrid hle hbottom
    exact scrollUp_grid hgrid hle hbottom count

theorem Wf.insertChars {s : Screen} (h : s.Wf) (count : Nat) : (s.insertChars count).Wf := by
  have hrow := h.rowAt h.cursor.1
  apply Wf.wrap
  apply h.setRow
  refine RowOk.resize ?_ _ printable_space
  intro c hc
  simp only [List.mem_append] at hc
  rcases hc with (hc | hc) | hc
  · exact hrow.2 c (List.mem_of_mem_take hc)
  · rw [(List.mem_replicate.mp hc).2]
    exact printable_blankCell s
  · exact hrow.2 c (List.mem_of_mem_drop hc)

theorem Wf.deleteChars {s : Screen} (h : s.Wf) (count : Nat) : (s.deleteChars count).Wf := by
  have hrow := h.rowAt h.cursor.1
  apply Wf.wrap
  apply h.setRow
  refine RowOk.resize ?_ _ (printable_blankCell s)
  intro c hc
  rcases List.mem_append.mp hc with hc | hc
  · exact hrow.2 c (List.mem_of_mem_take hc)
  · exact hrow.2 c (List.mem_of_mem_drop hc)

theorem Wf.eraseChars {s : Screen} (h : s.Wf) (count : Nat) : (s.eraseChars count).Wf :=
  (h.eraseCells (Nat.min_le_right _ _)).wrap false

/-! ## Modes -/

theorem Wf.switchScreen {s : Screen} (h : s.Wf) (alternate clear : Bool) :
    (s.switchScreen alternate clear).Wf := by
  unfold Screen.switchScreen
  split
  · split
    · exact h.eraseInDisplay 2
    · exact h
  · dsimp only
    have hgrid : GridOk s.size ((if s.savedGrid.length ≠ s.rows then
        List.replicate s.rows (List.replicate s.cols {}) else s.savedGrid).map
          (fun row => resizeRow row s.cols {})) := by
      have hshown : GridOk s.size (if s.savedGrid.length ≠ s.rows then
          List.replicate s.rows (List.replicate s.cols {}) else s.savedGrid) := by
        split
        · exact .blank s.size
        · next hlen =>
          rcases h.saved with hnil | hsaved
          · -- an empty grid has no row, and a screen has one
            have hrows := h.size.rows.1
            rw [hnil] at hlen
            exact absurd (not_not.mp hlen) (by simp [Screen.rows]; omega)
          · exact hsaved
      refine ⟨by rw [List.length_map]; exact hshown.1, ?_⟩
      intro row hrow
      rcases List.mem_map.mp hrow with ⟨row', hrow', rfl⟩
      exact RowOk.resize (hshown.2 row' hrow').2 _ printable_space
    have hswitched : ({ s with
        alternate := alternate
        grid := (if s.savedGrid.length ≠ s.rows then
          List.replicate s.rows (List.replicate s.cols {}) else s.savedGrid).map
            (fun row => resizeRow row s.cols {})
        savedGrid := s.grid } : Screen).Wf :=
      { h with grid := hgrid, saved := Or.inr h.grid }
    split
    · exact hswitched.eraseInDisplay 2
    · exact hswitched

/-- The branches of a dispatch, one at a time. -/
theorem Wf.ite {c : Prop} [Decidable c] {a b : Screen} (ha : c → a.Wf) (hb : ¬ c → b.Wf) :
    (if c then a else b).Wf := by
  by_cases h : c
  · rw [if_pos h]
    exact ha h
  · rw [if_neg h]
    exact hb h

theorem Wf.setPrivateMode {s : Screen} (h : s.Wf) (mode : Int) (on : Bool) :
    (s.setPrivateMode mode on).Wf := by
  have hmodes : ∀ modes, ({ s with modes := modes } : Screen).Wf := fun modes => { h with }
  unfold Screen.setPrivateMode
  refine .ite (fun _ => hmodes _) fun _ => ?_
  refine .ite (fun _ => hmodes _) fun _ => ?_
  refine .ite (fun _ => (hmodes _).moveTo 0 0) fun _ => ?_
  refine .ite (fun _ => hmodes _) fun _ => ?_
  refine .ite (fun _ => { h with cursor := h.cursor }) fun _ => ?_
  refine .ite (fun _ => h.switchScreen on false) fun _ => ?_
  refine .ite (fun _ => ?_) fun _ => ?_
  · dsimp only
    apply Wf.switchScreen
    exact .ite (fun _ => h.eraseInDisplay 2) fun _ => h
  refine .ite (fun _ => .ite (fun _ => h.saveCursor) fun _ => h.restoreCursor) fun _ => ?_
  refine .ite (fun _ => ?_) fun _ => ?_
  · dsimp only
    cases on with
    | true => exact h.saveCursor.switchScreen true true
    | false => exact (h.switchScreen false false).restoreCursor
  refine .ite (fun _ => hmodes _) fun _ => ?_
  exact .ite (fun _ => hmodes _) fun _ => h

theorem Wf.setAnsiMode {s : Screen} (h : s.Wf) (mode : Int) (on : Bool) :
    (s.setAnsiMode mode on).Wf := by
  unfold Screen.setAnsiMode
  split
  · exact { h with }
  · exact h

theorem Wf.respond {s : Screen} (h : s.Wf) (text : Bytes) : (s.respond text).Wf := by
  unfold Screen.respond
  split
  · exact h
  · exact { h with }

theorem Wf.sgr {s : Screen} (h : s.Wf) (params : List Int) : (s.sgr params).Wf := by
  unfold Screen.sgr
  split
  · exact { h with }
  · exact { h with }

/-! ## Events -/

theorem Wf.foldl {α : Type} {f : Screen → α → Screen} (hf : ∀ t : Screen, t.Wf → ∀ a, (f t a).Wf)
    {s : Screen} (h : s.Wf) (as : List α) : (as.foldl f s).Wf := by
  induction as generalizing s with
  | nil => exact h
  | cons a as ih => exact ih (hf s h a)

theorem Wf.csiPublic {s : Screen} (h : s.Wf) (final : UInt8) (params : List Int) :
    (s.csiPublic final params).Wf := by
  have hfirst : ∀ t : Screen, t.Wf → (t.setCol 0).Wf := fun t ht => ht.setCol ht.size.cols.1
  unfold Screen.csiPublic
  refine .ite (fun _ => h.moveBy _ _) fun _ => ?_
  refine .ite (fun _ => h.moveBy _ _) fun _ => ?_
  refine .ite (fun _ => h.moveBy _ _) fun _ => ?_
  refine .ite (fun _ => h.moveBy _ _) fun _ => ?_
  refine .ite (fun _ => hfirst _ (h.moveBy _ _)) fun _ => ?_
  refine .ite (fun _ => hfirst _ (h.moveBy _ _)) fun _ => ?_
  refine .ite (fun _ => h.moveTo _ _) fun _ => ?_
  refine .ite (fun _ => h.moveTo _ _) fun _ => ?_
  refine .ite (fun _ => h.tab _) fun _ => ?_
  refine .ite (fun _ => h.eraseInDisplay _) fun _ => ?_
  refine .ite (fun _ => h.eraseInLine _) fun _ => ?_
  refine .ite (fun _ => h.insertLines _) fun _ => ?_
  refine .ite (fun _ => h.deleteLines _) fun _ => ?_
  refine .ite (fun _ => h.deleteChars _) fun _ => ?_
  refine .ite (fun _ => h.scrollUp _) fun _ => ?_
  refine .ite (fun _ => h.scrollDown _) fun _ => ?_
  refine .ite (fun _ => h.eraseChars _) fun _ => ?_
  refine .ite (fun _ => h.backTab _) fun _ => ?_
  refine .ite (fun _ => h.insertChars _) fun _ => ?_
  refine .ite (fun _ => h.moveTo _ _) fun _ => ?_
  refine .ite (fun _ => .ite (fun _ => h.respond _) fun _ => h) fun _ => ?_
  refine .ite (fun _ => h.sgr params) fun _ => ?_
  refine .ite (fun _ => ?_) fun _ => ?_
  · -- a report, or none
    have hfive : (if vtParam params 0 0 = 5 then s.respond ([0x1B] ++ ascii "[0n") else s).Wf :=
      .ite (fun _ => h.respond _) fun _ => h
    exact .ite (fun _ => hfive.respond _) fun _ => hfive
  refine .ite (fun _ => h.setScrollRegion _ _) fun _ => ?_
  refine .ite (fun _ => h.saveCursor) fun _ => ?_
  refine .ite (fun _ => h.restoreCursor) fun _ => ?_
  refine .ite (fun _ => ?_) fun _ => h
  exact Wf.foldl (fun t ht i => ht.setAnsiMode _ _) h _

theorem Wf.csi {s : Screen} (h : s.Wf) (final marker intermediate : UInt8) (params : List Int) :
    (s.csi final marker intermediate params).Wf := by
  unfold Screen.csi
  split
  · split
    · exact Wf.foldl (fun t ht i => ht.setPrivateMode _ _) h _
    · exact h
  split
  · exact h
  split
  · exact h
  · exact h.csiPublic final params

theorem regionOk_full {size : TermSize} (h : SizeOk size) :
    RegionOk size { top := 0, bottom := size.rows - 1 } := by
  have hrows := h.rows.1
  refine ⟨?_, Or.inr ⟨rfl, ?_⟩⟩
  · show size.rows - 1 < size.rows
    omega
  · show size.rows - 1 + 1 = size.rows
    omega

theorem Wf.fullReset {s : Screen} (h : s.Wf) : s.fullReset.Wf := by
  have horigin : Inside s.size {} := ⟨h.size.rows.1, h.size.cols.1⟩
  refine
    { h with
      grid := ⟨?_, ?_⟩
      saved := Or.inl rfl
      cursor := horigin
      savedCursor := horigin
      region := regionOk_full h.size
      title := ⟨Nat.zero_le _, ?_⟩ }
  · show (s.grid.map _).length = s.size.rows
    rw [List.length_map]
    exact h.grid.1
  · intro row hrow
    rcases List.mem_map.mp hrow with ⟨row', -, rfl⟩
    exact .blank s.size.cols
  · intro b hb
    cases hb

theorem Wf.esc {s : Screen} (h : s.Wf) (final intermediate : UInt8) : (s.esc final intermediate).Wf := by
  have hE : Printable (0x45 : Nat) := by decide
  unfold Screen.esc
  refine .ite (fun _ => { h with }) fun _ => ?_
  refine .ite (fun _ => { h with }) fun _ => ?_
  refine .ite (fun _ => .ite (fun _ => ?_) fun _ => h) fun _ => ?_
  · apply h.withGrid
    refine ⟨List.length_replicate, ?_⟩
    intro row hrow
    rw [(List.mem_replicate.mp hrow).2]
    exact .replicate s.cols hE
  refine .ite (fun _ => h) fun _ => ?_
  refine .ite (fun _ => h.saveCursor) fun _ => ?_
  refine .ite (fun _ => h.restoreCursor) fun _ => ?_
  refine .ite (fun _ => { h with }) fun _ => ?_
  refine .ite (fun _ => { h with }) fun _ => ?_
  refine .ite (fun _ => h.lineFeed) fun _ => ?_
  refine .ite (fun _ => h.lineFeed.setCol h.lineFeed.size.cols.1) fun _ => ?_
  refine .ite (fun _ => h.reverseIndex) fun _ => ?_
  exact .ite (fun _ => h.fullReset) fun _ => h

theorem Wf.oscEvent {s : Screen} (h : s.Wf) (command : Int) {text : Bytes}
    (htext : ∀ b ∈ text, OscByte b) : (s.oscEvent command text).Wf := by
  unfold Screen.oscEvent
  dsimp only
  split
  · exact h
  · refine { h with title := ⟨?_, fun b hb => htext b (List.mem_of_mem_take hb)⟩ }
    show (text.take kMaxTitleBytes).length ≤ kMaxTitleBytes
    rw [List.length_take]
    omega

theorem Wf.apply {s : Screen} (h : s.Wf) {e : VtEvent} (he : e.Ok) : (s.apply e).Wf := by
  cases e with
  | print cp => exact h.print he
  | execute control => exact h.execute control
  | csi final marker intermediate params => exact h.csi final marker intermediate params
  | esc final intermediate => exact h.esc final intermediate
  | osc command text => exact h.oscEvent command he

theorem Wf.applyAll {s : Screen} (h : s.Wf) {events : List VtEvent} (hok : ∀ e ∈ events, e.Ok) :
    (s.applyAll events).Wf := by
  induction events generalizing s with
  | nil => exact h
  | cons e events ih =>
    exact ih (h.apply (hok e (by simp))) (fun e' he' => hok e' (by simp [he']))

theorem Wf.write {s : Screen} (h : s.Wf) (bytes : Bytes) : (s.write bytes).Wf := by
  unfold Screen.write
  split
  · exact h
  · rcases VtParser.parse_ok h.parser bytes with ⟨hparser, hevents⟩
    have hparsed : ({ s with parser := (s.parser.parse bytes).1 } : Screen).Wf :=
      { h with parser := hparser }
    exact { hparsed.applyAll hevents with }

theorem Wf.reset {s : Screen} (h : s.Wf) : s.reset.Wf := by
  have hcleared : ({ s with parser := {}, scrollback := [], response := [] } : Screen).Wf :=
    { h with parser := .init }
  exact { hcleared.fullReset with }

theorem Wf.resize {s : Screen} (h : s.Wf) (size : TermSize) : (s.resize size).Wf := by
  have hsize := clampTermSize_ok size
  have hcols := hsize.cols.1
  have hrows := hsize.rows.1
  -- any cursor is brought inside
  have hinside : ∀ c : CursorState, Inside (clampTermSize size)
      { c with
        row := min c.row ((clampTermSize size).rows - 1)
        col := min c.col ((clampTermSize size).cols - 1) } := by
    intro c
    constructor
    · show min c.row ((clampTermSize size).rows - 1) < (clampTermSize size).rows
      omega
    · show min c.col ((clampTermSize size).cols - 1) < (clampTermSize size).cols
      omega
  have hsaved : (if s.savedGrid = [] then [] else resizeGrid s.savedGrid (clampTermSize size)) = [] ∨
      GridOk (clampTermSize size)
        (if s.savedGrid = [] then [] else resizeGrid s.savedGrid (clampTermSize size)) := by
    by_cases hnil : s.savedGrid = []
    · exact Or.inl (if_pos hnil)
    · rw [if_neg hnil]
      exact Or.inr ((h.saved.resolve_left hnil).resize 0)
  unfold Screen.resize
  dsimp only
  split
  · exact h
  · split
    · rw [pushAll_eq]
      exact ⟨hsize, h.grid.resize _, hsaved, hinside _, hinside _, regionOk_full hsize, h.title,
        h.parser⟩
    · exact ⟨hsize, h.grid.resize 0, hsaved, hinside _, hinside _, regionOk_full hsize, h.title,
        h.parser⟩

theorem Wf.new (size : TermSize) (limit : Nat) : (Screen.new size limit).Wf := by
  have hsize := clampTermSize_ok size
  refine ⟨hsize, .blank _, Or.inl rfl, ⟨hsize.rows.1, hsize.cols.1⟩, ⟨hsize.rows.1, hsize.cols.1⟩,
    regionOk_full hsize, ⟨Nat.zero_le _, ?_⟩, .init⟩
  intro b hb
  cases hb

theorem Wf.step {s : Screen} (h : s.Wf) (call : ScreenCall) : (screen.step s call).1.Wf := by
  cases call with
  | write bytes => exact h.write bytes
  | resize size => exact h.resize size
  | reset => exact h.reset
  | takeResponse => exact { h with }

/-- Every screen that calls lead to is well formed. -/
theorem Reachable.wf {s : Screen} (h : s.Reachable) : s.Wf := by
  rcases h with ⟨size, limit, calls, rfl⟩
  exact Machine.run_invariant' (fun (s : Screen) _ => s.Wf) (.new size limit) (fun s _ call h => h.step call)
    calls

end Screen

end Deskhub
