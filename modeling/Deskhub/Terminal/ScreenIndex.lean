import Deskhub.Lib.Bounded
import Deskhub.Terminal.ScreenInv

/-!
# The screen's indices

The operations that index the grid, with every index checked and with the 16-bit
arithmetic the places are computed in. On a well-formed screen each does what the
unchecked one does, so no index is out of its vector's range.
-/

namespace Deskhub

open Bounded

/-- A number cast to `uint16_t`. -/
def u16 (v : Int) : Nat := (v % 65536).toNat

theorem u16_eq {n : Nat} (h : n < 65536) {v : Int} (hv : v = n) : u16 v = n := by
  unfold u16
  omega

namespace Screen

/-- `CellAt(row, col) = cell`. -/
def setCell? (s : Screen) (row col : Nat) (cell : Cell) : Option Screen := do
  let cells ← s.grid[row]?
  let cells ← set? cells col cell
  let grid ← set? s.grid row cells
  some { s with grid := grid }

/-- One turn of `ScrollUp`'s loop: the row leaves, and a blank one takes its place. -/
def leaveRow? (s : Screen) (row : Nat) : Option Screen := do
  let leaving ← s.grid[row]?
  let grid ← set? s.grid row s.blankRow
  let s := if s.region.top = 0 ∧ !s.alternate then s.pushScrollback leaving else s
  some { s with grid := grid }

def scrollUp? (s : Screen) (count : Nat) : Option Screen := do
  let span := u16 ((s.region.bottom : Int) - s.region.top + 1)
  let n := min count span
  if n = 0 then some s
  else
    let s ← (List.range' s.region.top n).foldlM leaveRow? s
    let grid ← rotate? s.grid s.region.top (s.region.top + n) (s.region.bottom + 1)
    some { s with grid := grid }

def scrollDown? (s : Screen) (count : Nat) : Option Screen := do
  let span := u16 ((s.region.bottom : Int) - s.region.top + 1)
  let n := min count span
  if n = 0 then some s
  else
    let middle ← sub? (s.region.bottom + 1) n
    let grid ← rotate? s.grid s.region.top middle (s.region.bottom + 1)
    let grid ← fill? grid s.region.top n s.blankRow
    some { s with grid := grid }

def lineFeed? (s : Screen) : Option Screen :=
  let s := { s with pendingWrap := false }
  if s.cursor.row = s.region.bottom then s.scrollUp? 1
  else if s.cursor.row + 1 < s.rows then
    some { s with cursor := { s.cursor with row := s.cursor.row + 1 } }
  else some s

def reverseIndex? (s : Screen) : Option Screen :=
  let s := { s with pendingWrap := false }
  if s.cursor.row = s.region.top then s.scrollDown? 1
  else if 0 < s.cursor.row then
    some { s with cursor := { s.cursor with row := s.cursor.row - 1 } }
  else some s

/-- A wrap that is pending is made. -/
def wrapPending? (s : Screen) : Option Screen := do
  let s ← if s.pendingWrap && s.modes.autoWrap then (s.setCol 0).lineFeed? else some s
  some { s with pendingWrap := false }

/-- `Print` in insert mode: a blank is inserted at the cursor. -/
def insertBlank? (s : Screen) : Option Screen := do
  let row ← s.grid[s.cursor.row]?
  let row ← insert? row s.cursor.col 1 s.blankCell
  let grid ← set? s.grid s.cursor.row (resizeRow row s.cols {})
  some { s with grid := grid }

/-- The cell `Print` writes, behind a blank in insert mode. -/
def printCell? (s : Screen) (cp : Nat) : Option Screen := do
  let cell : Cell := { ch := s.glyph cp, pen := s.pen }
  let s ← if s.modes.insert then s.insertBlank? else some s
  s.setCell? s.cursor.row s.cursor.col cell

def print? (s : Screen) (cp : Nat) : Option Screen := do
  let s ← s.wrapPending?
  let s := if s.cols ≤ s.cursor.col then s.setCol (u16 ((s.cols : Int) - 1)) else s
  let s ← s.printCell? cp
  some s.advance

/-- `f` with the region starting at the cursor's row, and the cursor at the start of its row. -/
def atCursorRow? (s : Screen) (f : Screen → Option Screen) : Option Screen := do
  if s.cursor.row < s.region.top ∨ s.region.bottom < s.cursor.row then some s
  else
    let moved ← f { s with region := { s.region with top := s.cursor.row } }
    some { moved.setCol 0 with
      region := { moved.region with top := s.region.top }
      pendingWrap := false }

def insertLines? (s : Screen) (count : Nat) : Option Screen :=
  s.atCursorRow? (fun s => s.scrollDown? count)

def deleteLines? (s : Screen) (count : Nat) : Option Screen :=
  s.atCursorRow? (fun s => s.scrollUp? count)

def insertChars? (s : Screen) (count : Nat) : Option Screen := do
  let row ← s.grid[s.cursor.row]?
  let n := min count (u16 ((s.cols : Int) - s.cursor.col))
  let row ← insert? row s.cursor.col n s.blankCell
  let grid ← set? s.grid s.cursor.row (resizeRow row s.cols {})
  some { s with grid := grid, pendingWrap := false }

def deleteChars? (s : Screen) (count : Nat) : Option Screen := do
  let row ← s.grid[s.cursor.row]?
  let n := min count (u16 ((s.cols : Int) - s.cursor.col))
  let row ← erase? row s.cursor.col (s.cursor.col + n)
  let grid ← set? s.grid s.cursor.row (resizeRow row s.cols s.blankCell)
  some { s with grid := grid, pendingWrap := false }

def eraseChars? (s : Screen) (count : Nat) : Option Screen := do
  let blank := s.blankCell
  let last := min (u16 ((s.cursor.col : Int) + count)) s.cols
  let s ← (List.range' s.cursor.col (last - s.cursor.col)).foldlM
    (fun s col => s.setCell? s.cursor.row col blank) s
  some { s with pendingWrap := false }

/-! ## Events

The events whose operations are checked; the others as they are. -/

def execute? (s : Screen) (control : UInt8) : Option Screen :=
  if control = 0x0A ∨ control = 0x0B ∨ control = 0x0C then s.lineFeed?
  else some (s.execute control)

def csiPublic? (s : Screen) (final : UInt8) (params : List Int) : Option Screen :=
  let lines := clampCount (vtParam params 0 1) s.rows
  let chars := clampCount (vtParam params 0 1) s.cols
  if final = 0x4C then s.insertLines? lines
  else if final = 0x4D then s.deleteLines? lines
  else if final = 0x50 then s.deleteChars? chars
  else if final = 0x53 then s.scrollUp? lines
  else if final = 0x54 then s.scrollDown? lines
  else if final = 0x58 then s.eraseChars? chars
  else if final = 0x40 then s.insertChars? chars
  else some (s.csiPublic final params)

def csi? (s : Screen) (final marker intermediate : UInt8) (params : List Int) : Option Screen :=
  if marker = 0 ∧ intermediate = 0 then s.csiPublic? final params
  else some (s.csi final marker intermediate params)

def esc? (s : Screen) (final intermediate : UInt8) : Option Screen :=
  if intermediate = 0 ∧ final = 0x44 then s.lineFeed?
  else if intermediate = 0 ∧ final = 0x45 then do
    let s ← s.lineFeed?
    some (s.setCol 0)
  else if intermediate = 0 ∧ final = 0x4D then s.reverseIndex?
  else some (s.esc final intermediate)

def applyEvent? (s : Screen) : VtEvent → Option Screen
  | .print cp => s.print? cp
  | .execute control => s.execute? control
  | .csi final marker intermediate params => s.csi? final marker intermediate params
  | .esc final intermediate => s.esc? final intermediate
  | .osc command text => some (s.oscEvent command text)

def write? (s : Screen) (bytes : Bytes) : Option Screen := do
  if bytes = [] then some s
  else
    let (parser, events) := s.parser.parse bytes
    let s ← events.foldlM applyEvent? { s with parser := parser }
    some { s with revision := s.revision + 1 }

/-- A call, with the indices it uses checked. -/
def call? (s : Screen) : ScreenCall → Option Screen
  | .write bytes => s.write? bytes
  | .resize size => some (s.resize size)
  | .reset => some s.reset
  | .takeResponse => some s.takeResponse.1

/-! ## Scrolling -/

theorem pushAll_withGrid (rows : List Row) (s : Screen) (grid : List Row) :
    rows.foldl pushScrollback { s with grid := grid } =
      { rows.foldl pushScrollback s with grid := grid } := by
  induction rows generalizing s with
  | nil => rfl
  | cons row rows ih =>
    have hone : ({ s with grid := grid } : Screen).pushScrollback row =
        { s.pushScrollback row with grid := grid } := by
      unfold pushScrollback
      split <;> rfl
    rw [List.foldl_cons, List.foldl_cons, hone, ih]

/-- What a row that leaves does to the rest of the screen. -/
theorem pushScrollback_eq (s : Screen) (row : Row) :
    s.pushScrollback row = { s with scrollback := (s.pushScrollback row).scrollback } :=
  pushAll_eq [row] s

theorem leaveRow?_eq {s : Screen} {front back : List Row} {row : Row}
    (h : s.grid = front ++ row :: back) :
    s.leaveRow? front.length =
      some { (if s.region.top = 0 ∧ !s.alternate then s.pushScrollback row else s) with
        grid := front ++ s.blankRow :: back } := by
  have hrow : s.grid[front.length]? = some row := by
    rw [h, List.getElem?_append_right (Nat.le_refl _), Nat.sub_self, List.getElem?_cons_zero]
  unfold leaveRow?
  rw [hrow, h]
  simp only [Option.bind_eq_bind, Option.bind_some, set?_append]

/-- The rows of the grid that leave, one after the other from `front` on. -/
theorem leaveRows?_eq {s : Screen} {front leaving back : List Row}
    (h : s.grid = front ++ leaving ++ back) :
    (List.range' front.length leaving.length).foldlM leaveRow? s =
      some { (if s.region.top = 0 ∧ !s.alternate then leaving.foldl pushScrollback s else s) with
        grid := front ++ List.replicate leaving.length s.blankRow ++ back } := by
  induction leaving generalizing front s with
  | nil =>
    rw [List.append_nil] at h
    simp [h.symm]
  | cons row leaving ih =>
    rw [List.append_assoc, List.cons_append] at h
    rw [List.length_cons, List.range'_succ, List.foldlM_cons, leaveRow?_eq h]
    have hnext := @ih
      { (if s.region.top = 0 ∧ !s.alternate then s.pushScrollback row else s) with
        grid := front ++ s.blankRow :: (leaving ++ back) } (front ++ [s.blankRow]) (by simp)
    rw [List.length_append, List.length_singleton] at hnext
    rw [Option.bind_eq_bind, Option.bind_some, hnext]
    by_cases hc : s.region.top = 0 ∧ !s.alternate
    · -- the pushed row changes nothing the condition reads
      simp only [if_pos hc, List.foldl_cons, List.replicate_succ]
      rw [pushScrollback_eq s row, pushAll_withGrid]
      simp only [if_pos hc]
      congr 2
      simp [blankRow, blankCell, cols]
    · simp only [if_neg hc, List.replicate_succ]
      congr 2
      simp [blankRow, blankCell, cols]

/-- The rows in front of the region, those of it that leave, those that stay, and the rows
behind it. -/
theorem region_parts {s : Screen} (hgrid : GridOk s.size s.grid)
    (hle : s.region.top ≤ s.region.bottom) (hbottom : s.region.bottom < s.size.rows) {n : Nat}
    (hn : n ≤ s.region.bottom - s.region.top + 1) :
    ∃ front a b back, s.grid = front ++ (a ++ b) ++ back ∧ front.length = s.region.top ∧
      a.length = n ∧ b.length = s.region.bottom - s.region.top + 1 - n ∧
      s.regionRows = a ++ b ∧ s.grid.take s.region.top = front ∧
      s.grid.drop (s.region.bottom + 1) = back := by
  have hlen := regionRows_length hgrid hle hbottom
  have hrows := hgrid.1
  refine ⟨s.grid.take s.region.top, s.regionRows.take n, s.regionRows.drop n,
    s.grid.drop (s.region.bottom + 1), ?_, ?_, ?_, ?_, ?_, rfl, rfl⟩
  · have hsplit : s.grid.drop s.region.top =
        s.regionRows ++ s.grid.drop (s.region.bottom + 1) := by
      have hlast : s.region.bottom + 1 =
          s.region.top + (s.region.bottom - s.region.top + 1) := by omega
      rw [regionRows, hlast, ← List.drop_drop, List.take_append_drop]
    rw [List.take_append_drop, List.append_assoc, ← hsplit, List.take_append_drop]
  · rw [List.length_take]
    omega
  · rw [List.length_take]
    omega
  · rw [List.length_drop, hlen]
  · rw [List.take_append_drop]

theorem span_eq {s : Screen} (hsize : SizeOk s.size) (hle : s.region.top ≤ s.region.bottom)
    (hbottom : s.region.bottom < s.size.rows) :
    u16 ((s.region.bottom : Int) - s.region.top + 1) = s.region.bottom - s.region.top + 1 := by
  have hrows := hsize.rows.2
  have hmax : kMaxTermRows = 1000 := rfl
  apply u16_eq
  · omega
  · omega

theorem scrollUp?_eq {s : Screen} (hsize : SizeOk s.size) (hgrid : GridOk s.size s.grid)
    (hle : s.region.top ≤ s.region.bottom) (hbottom : s.region.bottom < s.size.rows) (count : Nat) :
    s.scrollUp? count = some (s.scrollUp count) := by
  have hn := Nat.min_le_right count (s.region.bottom - s.region.top + 1)
  rcases region_parts hgrid hle hbottom hn with
    ⟨front, a, b, back, hparts, hfront, ha, hb, hregion, htake, hdrop⟩
  unfold scrollUp? scrollUp setRegionRows
  dsimp only
  rw [span_eq hsize hle hbottom, hregion, ← ha, List.take_left, List.drop_left]
  by_cases hzero : a.length = 0
  · -- nothing leaves
    have hnil := List.length_eq_zero_iff.mp hzero
    rw [hnil] at hparts ⊢
    rw [if_pos List.length_nil]
    simp only [List.foldl_nil, ite_self, List.length_nil, List.replicate_zero, List.append_nil,
      htake, hdrop]
    rw [List.nil_append] at hparts
    rw [← hparts]
  · have hleave : s.grid = front ++ a ++ (b ++ back) := by
      rw [hparts]
      simp only [List.append_assoc]
    have hloop := leaveRows?_eq hleave
    have hrotate := rotate?_append front (List.replicate a.length s.blankRow) b back
    have hlast : s.region.bottom + 1 = s.region.top + (a.length + b.length) := by omega
    rw [hfront] at hloop hrotate
    rw [List.length_replicate, ← hlast, List.append_assoc, List.append_assoc] at hrotate
    rw [if_neg hzero, hloop, List.append_assoc]
    -- what was pushed changes none of what the rest reads
    have hsame : ∀ t, (if s.region.top = 0 ∧ !s.alternate then a.foldl pushScrollback s else s) = t →
        t.region = s.region ∧ t.grid = s.grid ∧ t.blankRow = s.blankRow := by
      rintro t rfl
      split
      · rw [pushAll_eq]
        exact ⟨rfl, rfl, rfl⟩
      · exact ⟨rfl, rfl, rfl⟩
    generalize (if s.region.top = 0 ∧ !s.alternate then a.foldl pushScrollback s else s) = t at hsame ⊢
    rcases hsame t rfl with ⟨hregion, hgrid, hblank⟩
    simp only [Option.bind_eq_bind, Option.bind_some, hregion, hgrid, hblank, hrotate, htake, hdrop,
      List.append_assoc]

theorem scrollDown?_eq {s : Screen} (hsize : SizeOk s.size) (hgrid : GridOk s.size s.grid)
    (hle : s.region.top ≤ s.region.bottom) (hbottom : s.region.bottom < s.size.rows) (count : Nat) :
    s.scrollDown? count = some (s.scrollDown count) := by
  have hstay : s.region.bottom - s.region.top + 1 -
      min count (s.region.bottom - s.region.top + 1) ≤ s.region.bottom - s.region.top + 1 :=
    Nat.sub_le _ _
  rcases region_parts hgrid hle hbottom hstay with
    ⟨front, a, b, back, hparts, hfront, ha, hb, hregion, htake, hdrop⟩
  have hcount : min count (s.region.bottom - s.region.top + 1) = b.length := by omega
  have hspan : s.region.bottom - s.region.top + 1 = a.length + b.length := by omega
  have hlast : s.region.bottom + 1 = front.length + (a.length + b.length) := by omega
  unfold scrollDown? scrollDown setRegionRows
  dsimp only
  rw [span_eq hsize hle hbottom, hcount, hregion, hspan, Nat.add_sub_cancel, List.take_left, htake,
    hdrop]
  by_cases hzero : b.length = 0
  · have hnil := List.length_eq_zero_iff.mp hzero
    rw [if_pos hzero]
    rw [hnil, List.append_nil] at hparts
    rw [hnil, List.length_nil, List.replicate_zero, List.nil_append, ← hparts]
  · have hmiddle : sub? (s.region.bottom + 1) b.length = some (front.length + a.length) := by
      rw [sub?_eq_some (by omega), hlast]
      congr 1
      omega
    have hrotate := rotate?_append front a b back
    have hfill := fill?_append front b (a ++ back) s.blankRow
    rw [if_neg hzero, hmiddle, hlast, ← hfront, hparts]
    simp only [List.append_assoc] at hrotate hfill ⊢
    simp only [Option.bind_eq_bind, Option.bind_some, hrotate, hfill]

theorem Wf.scrollUp? {s : Screen} (h : s.Wf) (count : Nat) :
    s.scrollUp? count = some (s.scrollUp count) :=
  scrollUp?_eq h.size h.grid h.region.le h.region.1 count

theorem Wf.scrollDown? {s : Screen} (h : s.Wf) (count : Nat) :
    s.scrollDown? count = some (s.scrollDown count) :=
  scrollDown?_eq h.size h.grid h.region.le h.region.1 count

theorem Wf.lineFeed? {s : Screen} (h : s.Wf) : s.lineFeed? = some s.lineFeed := by
  unfold Screen.lineFeed? Screen.lineFeed
  dsimp only
  split
  · exact (h.wrap false).scrollUp? 1
  · split
    · rfl
    · rfl

theorem Wf.reverseIndex? {s : Screen} (h : s.Wf) : s.reverseIndex? = some s.reverseIndex := by
  unfold Screen.reverseIndex? Screen.reverseIndex
  dsimp only
  split
  · exact (h.wrap false).scrollDown? 1
  · split
    · rfl
    · rfl

/-! ## Cells -/

/-- The cursor's row is in the grid, and the cursor's column in the row. -/
theorem Wf.cursorRow {s : Screen} (h : s.Wf) :
    s.grid[s.cursor.row]? = some (s.rowAt s.cursor.row) ∧
      s.cursor.row < s.grid.length ∧ (s.rowAt s.cursor.row).length = s.cols := by
  have hlen : s.cursor.row < s.grid.length := by
    rw [h.grid.1]
    exact h.cursor.1
  refine ⟨?_, hlen, (h.rowAt h.cursor.1).1⟩
  unfold Screen.rowAt
  rw [List.getD_eq_getElem _ _ hlen, List.getElem?_eq_getElem hlen]

theorem cols_lt {s : Screen} (h : s.Wf) : s.cols < 65536 := by
  have hcols := h.size.cols.2
  have hmax : kMaxTermCols = 1000 := rfl
  unfold cols
  omega

/-- A cell of a row that was written is written. -/
theorem setCell?_setRow {s : Screen} {r : Nat} (h : r < s.grid.length) (row : Row) (col : Nat)
    (cell : Cell) :
    (s.setRow r row).setCell? r col cell = (set? row col cell).map (s.setRow r) := by
  have hrow : (s.grid.set r row)[r]? = some row := List.getElem?_set_self h
  have hin : r < (s.grid.set r row).length := by
    rw [List.length_set]
    exact h
  unfold Screen.setCell? Screen.setRow
  rw [hrow, Option.bind_eq_bind, Option.bind_some]
  cases set? row col cell with
  | none => rfl
  | some row' => simp only [Option.bind_eq_bind, Option.bind_some, set?_eq_some hin, List.set_set,
      Option.map_some]

/-- Cells of a row, one after the other. -/
theorem setCells?_setRow {s : Screen} (h : s.cursor.row < s.grid.length) (row : Row)
    (cols : List Nat) (cell : Cell) :
    cols.foldlM (fun t col => t.setCell? t.cursor.row col cell) (s.setRow s.cursor.row row) =
      (cols.foldlM (fun row col => set? row col cell) row).map (s.setRow s.cursor.row) := by
  induction cols generalizing row with
  | nil => rfl
  | cons col cols ih =>
    have hcell : (s.setRow s.cursor.row row).setCell? (s.setRow s.cursor.row row).cursor.row col
        cell = (set? row col cell).map (s.setRow s.cursor.row) := setCell?_setRow h row col cell
    rw [List.foldlM_cons, List.foldlM_cons, hcell]
    cases set? row col cell with
    | none => rfl
    | some row' => exact ih row'

/-- The cursor's row is what it is. -/
theorem Wf.setRow_rowAt {s : Screen} (h : s.Wf) : s.setRow s.cursor.row (s.rowAt s.cursor.row) = s := by
  rcases h.cursorRow with ⟨hrow, hin, -⟩
  rw [List.getElem?_eq_getElem hin, Option.some.injEq] at hrow
  unfold Screen.setRow
  rw [← hrow, List.set_getElem_self]

theorem Wf.wrapPending? {s : Screen} (h : s.Wf) : s.wrapPending? = some s.wrapPending := by
  unfold Screen.wrapPending? Screen.wrapPending
  split
  · rw [(h.setCol h.size.cols.1).lineFeed?]
    rfl
  · rfl

theorem Wf.insertBlank? {s : Screen} (h : s.Wf) :
    s.insertBlank? = some (s.setRow s.cursor.row
      (resizeRow ((s.rowAt s.cursor.row).take s.cursor.col ++
        s.blankCell :: (s.rowAt s.cursor.row).drop s.cursor.col) s.cols {})) := by
  rcases h.cursorRow with ⟨hrow, hin, hlen⟩
  have hcol : s.cursor.col ≤ (s.rowAt s.cursor.row).length := by
    rw [hlen]
    exact h.cursor.2.le
  unfold Screen.insertBlank? Screen.setRow
  rw [hrow]
  simp only [Option.bind_eq_bind, Option.bind_some, insert?_eq_some hcol, set?_eq_some hin,
    List.replicate_one, List.append_assoc, List.singleton_append]

/-- The cell of a print is in its row, with or without a blank inserted. -/
theorem Wf.printCell? {s : Screen} (h : s.Wf) (cp : Nat) :
    s.printCell? cp = some (s.setRow s.cursor.row (s.printedRow cp)) := by
  unfold Screen.printCell? Screen.printedRow
  dsimp only
  by_cases hinsert : s.modes.insert = true
  · rw [if_pos hinsert, if_pos hinsert, h.insertBlank?]
    have hrow := h.rowAt h.cursor.1
    have hinserted : RowOk s.size.cols (resizeRow ((s.rowAt s.cursor.row).take s.cursor.col ++
        s.blankCell :: (s.rowAt s.cursor.row).drop s.cursor.col) s.cols {}) := by
      refine RowOk.resize ?_ _ printable_space
      intro c hc
      rcases List.mem_append.mp hc with hc | hc
      · exact hrow.2 c (List.mem_of_mem_take hc)
      · rcases List.mem_cons.mp hc with rfl | hc
        · exact printable_blankCell s
        · exact hrow.2 c (List.mem_of_mem_drop hc)
    have hset := setCell?_setRow h.cursorRow.2.1 (resizeRow ((s.rowAt s.cursor.row).take
      s.cursor.col ++ s.blankCell :: (s.rowAt s.cursor.row).drop s.cursor.col) s.cols {})
      s.cursor.col { ch := s.glyph cp, pen := s.pen }
    rw [set?_eq_some (by rw [hinserted.1]; exact h.cursor.2)] at hset
    exact hset
  · have hset := setCell?_setRow h.cursorRow.2.1 (s.rowAt s.cursor.row) s.cursor.col
      { ch := s.glyph cp, pen := s.pen }
    rw [set?_eq_some (by rw [h.cursorRow.2.2]; exact h.cursor.2), h.setRow_rowAt] at hset
    rw [if_neg hinsert, if_neg hinsert]
    exact hset

theorem Wf.print? {s : Screen} (h : s.Wf) (cp : Nat) : s.print? cp = some (s.print cp) := by
  have hw := h.wrapPending
  have hlast : u16 ((s.wrapPending.cols : Int) - 1) = s.wrapPending.cols - 1 := by
    have hcols := hw.size.cols.1
    have hlt := cols_lt hw
    unfold Screen.cols at *
    apply u16_eq
    · omega
    · omega
  -- the cursor is in a column already
  have hin : ¬ s.wrapPending.cols ≤ s.wrapPending.cursor.col := Nat.not_le.mpr hw.cursor.2
  unfold Screen.print? Screen.print
  rw [h.wrapPending?, Option.bind_eq_bind, Option.bind_some]
  dsimp only
  rw [hlast, if_neg hin, hw.printCell? cp, Option.bind_some]

/-- A scroll of the rows from the cursor's on, by what it does where the region is inside
the grid. -/
theorem Wf.atCursorRow? {s : Screen} (h : s.Wf) {f? : Screen → Option Screen} {f : Screen → Screen}
    (hf : ∀ t : Screen, SizeOk t.size → GridOk t.size t.grid → t.region.top ≤ t.region.bottom →
      t.region.bottom < t.size.rows → f? t = some (f t)) :
    s.atCursorRow? f? = some (s.atCursorRow f) := by
  unfold Screen.atCursorRow? Screen.atCursorRow
  split
  · rfl
  · next hinside =>
    have hbelow := (not_or.mp hinside).2
    rw [hf { s with region := { s.region with top := s.cursor.row } } h.size h.grid
      (Nat.not_lt.mp hbelow) h.region.1]
    rfl

theorem Wf.insertLines? {s : Screen} (h : s.Wf) (count : Nat) :
    s.insertLines? count = some (s.insertLines count) :=
  h.atCursorRow? fun _ hsize hgrid hle hbottom => scrollDown?_eq hsize hgrid hle hbottom count

theorem Wf.deleteLines? {s : Screen} (h : s.Wf) (count : Nat) :
    s.deleteLines? count = some (s.deleteLines count) :=
  h.atCursorRow? fun _ hsize hgrid hle hbottom => scrollUp?_eq hsize hgrid hle hbottom count

theorem Wf.room_eq {s : Screen} (h : s.Wf) :
    u16 ((s.cols : Int) - s.cursor.col) = s.cols - s.cursor.col := by
  have hcol : s.cursor.col < s.cols := h.cursor.2
  have hlt := cols_lt h
  apply u16_eq
  · omega
  · omega

theorem Wf.insertChars? {s : Screen} (h : s.Wf) (count : Nat) :
    s.insertChars? count = some (s.insertChars count) := by
  rcases h.cursorRow with ⟨hrow, hin, hlen⟩
  have hcol : s.cursor.col ≤ (s.rowAt s.cursor.row).length := by
    rw [hlen]
    exact h.cursor.2.le
  unfold Screen.insertChars? Screen.insertChars Screen.setRow
  simp only [hrow, h.room_eq, Option.bind_eq_bind, Option.bind_some, insert?_eq_some hcol,
    set?_eq_some hin]

theorem Wf.deleteChars? {s : Screen} (h : s.Wf) (count : Nat) :
    s.deleteChars? count = some (s.deleteChars count) := by
  rcases h.cursorRow with ⟨hrow, hin, hlen⟩
  have hcol : s.cursor.col < s.cols := h.cursor.2
  have hroom : s.cursor.col + min count (s.cols - s.cursor.col) ≤ (s.rowAt s.cursor.row).length := by
    omega
  have herase := erase?_eq_some (Nat.le_add_right s.cursor.col _) hroom
  unfold Screen.deleteChars? Screen.deleteChars Screen.setRow
  simp only [hrow, h.room_eq, Option.bind_eq_bind, Option.bind_some, herase, set?_eq_some hin]

theorem Wf.eraseChars? {s : Screen} (h : s.Wf) {count : Nat} (hcount : count ≤ s.cols) :
    s.eraseChars? count = some (s.eraseChars count) := by
  rcases h.cursorRow with ⟨-, hin, hlen⟩
  have hcol : s.cursor.col < s.cols := h.cursor.2
  have hlt := cols_lt h
  have hmax : kMaxTermCols = 1000 := rfl
  have hsize : s.cols ≤ kMaxTermCols := h.size.cols.2
  have hlast : u16 ((s.cursor.col : Int) + count) = s.cursor.col + count := by
    apply u16_eq
    · omega
    · omega
  -- the row in front of the cells, the cells, and the row behind them
  have hfill := fill?_append ((s.rowAt s.cursor.row).take s.cursor.col)
    (((s.rowAt s.cursor.row).drop s.cursor.col).take
      (min (s.cursor.col + count) s.cols - s.cursor.col))
    ((s.rowAt s.cursor.row).drop (min (s.cursor.col + count) s.cols)) s.blankCell
  have hparts : (s.rowAt s.cursor.row).take s.cursor.col ++
      ((s.rowAt s.cursor.row).drop s.cursor.col).take
        (min (s.cursor.col + count) s.cols - s.cursor.col) ++
      (s.rowAt s.cursor.row).drop (min (s.cursor.col + count) s.cols) = s.rowAt s.cursor.row := by
    have hsum : min (s.cursor.col + count) s.cols =
        s.cursor.col + (min (s.cursor.col + count) s.cols - s.cursor.col) := by omega
    rw [← List.take_add, ← hsum, List.take_append_drop]
  have hfront : ((s.rowAt s.cursor.row).take s.cursor.col).length = s.cursor.col := by
    rw [List.length_take]
    omega
  have hmiddle : (((s.rowAt s.cursor.row).drop s.cursor.col).take
      (min (s.cursor.col + count) s.cols - s.cursor.col)).length =
        min (s.cursor.col + count) s.cols - s.cursor.col := by
    rw [List.length_take, List.length_drop]
    omega
  rw [hparts, hfront, hmiddle] at hfill
  have hloop := setCells?_setRow hin (s.rowAt s.cursor.row)
    (List.range' s.cursor.col (min (s.cursor.col + count) s.cols - s.cursor.col)) s.blankCell
  rw [h.setRow_rowAt] at hloop
  unfold fill? at hfill
  rw [hfill] at hloop
  have hbehind : max s.cursor.col (min (s.cursor.col + count) s.cols) =
      min (s.cursor.col + count) s.cols := by omega
  unfold Screen.eraseChars? Screen.eraseChars Screen.eraseCells fillCells
  dsimp only
  rw [hlast, hloop, hbehind]
  rfl

/-! ## Events -/

theorem clampCount_le (value : Int) {limit : Nat} (h : 1 ≤ limit) : clampCount value limit ≤ limit := by
  unfold clampCount
  split
  · exact h
  · split
    · exact Nat.le_refl limit
    · omega

theorem Wf.execute? {s : Screen} (h : s.Wf) (control : UInt8) :
    s.execute? control = some (s.execute control) := by
  unfold Screen.execute?
  split
  · next hcontrol =>
    rw [h.lineFeed?]
    rcases hcontrol with rfl | rfl | rfl
    · rfl
    · rfl
    · rfl
  · rfl

theorem Wf.csiPublic? {s : Screen} (h : s.Wf) (final : UInt8) (params : List Int) :
    s.csiPublic? final params = some (s.csiPublic final params) := by
  unfold Screen.csiPublic?
  dsimp only
  -- the finals whose operations index the grid, in the order of the source
  by_cases hL : final = 0x4C
  · rw [if_pos hL, h.insertLines?, hL]
    rfl
  by_cases hM : final = 0x4D
  · rw [if_neg hL, if_pos hM, h.deleteLines?, hM]
    rfl
  by_cases hP : final = 0x50
  · rw [if_neg hL, if_neg hM, if_pos hP, h.deleteChars?, hP]
    rfl
  by_cases hS : final = 0x53
  · rw [if_neg hL, if_neg hM, if_neg hP, if_pos hS, h.scrollUp?, hS]
    rfl
  by_cases hT : final = 0x54
  · rw [if_neg hL, if_neg hM, if_neg hP, if_neg hS, if_pos hT, h.scrollDown?, hT]
    rfl
  by_cases hX : final = 0x58
  · have hcount := clampCount_le (vtParam params 0 1) (show 1 ≤ s.cols from h.size.cols.1)
    rw [if_neg hL, if_neg hM, if_neg hP, if_neg hS, if_neg hT, if_pos hX, h.eraseChars? hcount, hX]
    rfl
  by_cases hI : final = 0x40
  · rw [if_neg hL, if_neg hM, if_neg hP, if_neg hS, if_neg hT, if_neg hX, if_pos hI,
      h.insertChars?, hI]
    rfl
  · rw [if_neg hL, if_neg hM, if_neg hP, if_neg hS, if_neg hT, if_neg hX, if_neg hI]

theorem Wf.csi? {s : Screen} (h : s.Wf) (final marker intermediate : UInt8) (params : List Int) :
    s.csi? final marker intermediate params = some (s.csi final marker intermediate params) := by
  unfold Screen.csi?
  split
  · next hplain =>
    rw [h.csiPublic?, hplain.1, hplain.2]
    rfl
  · rfl

theorem Wf.esc? {s : Screen} (h : s.Wf) (final intermediate : UInt8) :
    s.esc? final intermediate = some (s.esc final intermediate) := by
  unfold Screen.esc?
  by_cases hD : intermediate = 0 ∧ final = 0x44
  · rw [if_pos hD, h.lineFeed?, hD.1, hD.2]
    rfl
  by_cases hE : intermediate = 0 ∧ final = 0x45
  · rw [if_neg hD, if_pos hE, h.lineFeed?, hE.1, hE.2]
    rfl
  by_cases hM : intermediate = 0 ∧ final = 0x4D
  · rw [if_neg hD, if_neg hE, if_pos hM, h.reverseIndex?, hM.1, hM.2]
    rfl
  · rw [if_neg hD, if_neg hE, if_neg hM]

theorem Wf.applyEvent? {s : Screen} (h : s.Wf) (e : VtEvent) : s.applyEvent? e = some (s.apply e) := by
  cases e with
  | print cp => exact h.print? cp
  | execute control => exact h.execute? control
  | csi final marker intermediate params => exact h.csi? final marker intermediate params
  | esc final intermediate => exact h.esc? final intermediate
  | osc command text => rfl

theorem Wf.applyAll? {s : Screen} (h : s.Wf) {events : List VtEvent} (hok : ∀ e ∈ events, e.Ok) :
    events.foldlM Screen.applyEvent? s = some (s.applyAll events) := by
  induction events generalizing s with
  | nil => rfl
  | cons e events ih =>
    have hrest := ih (h.apply (hok e List.mem_cons_self)) fun e' he' => hok e' (List.mem_cons_of_mem e he')
    rw [List.foldlM_cons, h.applyEvent? e]
    exact hrest

theorem Wf.write? {s : Screen} (h : s.Wf) (bytes : Bytes) : s.write? bytes = some (s.write bytes) := by
  unfold Screen.write? Screen.write
  split
  · rfl
  · rcases VtParser.parse_ok h.parser bytes with ⟨hparser, hevents⟩
    have hparsed : ({ s with parser := (s.parser.parse bytes).1 } : Screen).Wf :=
      { h with parser := hparser }
    have hloop := hparsed.applyAll? hevents
    dsimp only
    rw [hloop]
    rfl

theorem Wf.call? {s : Screen} (h : s.Wf) (call : ScreenCall) :
    s.call? call = some (screen.step s call).1 := by
  cases call with
  | write bytes => exact h.write? bytes
  | resize size => rfl
  | reset => rfl
  | takeResponse => rfl

end Screen

end Deskhub
