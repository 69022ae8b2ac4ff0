import Deskhub.Terminal.RepaintPen

/-!
# What a repaint draws

The events of a repaint, applied to any screen of the same size: the opening
leaves a plain canvas, the rows are painted on it, and the closing sets what is
left.
-/

namespace Deskhub

open Repaint

namespace Screen

/-- The cursor stands at a row and a column, and no wrap is pending. -/
def sentTo (s : Screen) (row col : Nat) : Screen :=
  { s with cursor := { s.cursor with row := row, col := col }, pendingWrap := false }

/-- Another grid, with the cursor and the pen that painting left. -/
def painted (s : Screen) (grid : List Row) (row col : Nat) (wrap : Bool) (pen : Pen) : Screen :=
  { s with
    grid := grid
    cursor := { s.cursor with row := row, col := col }
    pendingWrap := wrap
    pen := pen }

/-- What the opening makes of a screen, the grid, the cursor and the pen apart. -/
def canvas (s : Screen) (alternate : Bool) : Screen :=
  { s with
    alternate := alternate
    savedGrid := if alternate = s.alternate then s.savedGrid else s.grid
    savedCursor := if alternate then s.cursor else s.savedCursor
    savedPen := if alternate then s.pen else s.savedPen
    savedShiftedOut := if alternate then s.charset.shiftedOut else s.savedShiftedOut
    charset := {}
    modes := { s.modes with insert := false, origin := false, autoWrap := false }
    region := { top := 0, bottom := s.rows - 1 } }

/-- The row a repaint brings the cursor to. -/
def repaintedRow (s : Screen) : Nat :=
  if s.modes.origin then
    if s.region.top ≤ s.cursor.row then min s.cursor.row s.region.bottom
    else min (s.region.top + s.cursor.row) s.region.bottom
  else s.cursor.row

/-- The screen `c` after a repaint of `s`. -/
def repainted (s c : Screen) : Screen :=
  { c.canvas s.alternate with
    grid := s.grid
    cursor := { row := s.repaintedRow, col := s.cursor.col, visible := s.cursor.visible }
    pen := s.pen
    pendingWrap := false
    modes := s.modes
    region := s.region
    charset := s.charset
    title := if s.title = [] then c.title else s.title }

/-! ## Single events -/

theorem applyAll_append (s : Screen) (xs ys : List VtEvent) :
    s.applyAll (xs ++ ys) = (s.applyAll xs).applyAll ys := List.foldl_append

theorem applyAll_cons (s : Screen) (e : VtEvent) (es : List VtEvent) :
    s.applyAll (e :: es) = (s.apply e).applyAll es := rfl

theorem applyAll_nil (s : Screen) : s.applyAll [] = s := rfl

theorem apply_penEvent (s : Screen) (pen : Pen) : s.apply (penEvent pen) = { s with pen := pen } :=
  sgr_pen s pen

/-- A number among parameters is itself. -/
theorem vtParam_one (n : Nat) : vtParam [(n : Int)] 0 0 = n := vtParam_of_getElem? rfl

theorem apply_privateMode (s : Screen) (mode : Nat) (on : Bool) :
    s.apply (privateModeEvent mode on) = s.setPrivateMode mode on := by
  have hparam := vtParam_one mode
  cases on with
  | true =>
    show s.setPrivateMode (vtParam [(mode : Int)] 0 0) true = _
    rw [hparam]
  | false =>
    show s.setPrivateMode (vtParam [(mode : Int)] 0 0) false = _
    rw [hparam]

theorem apply_ansiMode (s : Screen) (mode : Nat) (on : Bool) :
    s.apply (ansiModeEvent mode on) = s.setAnsiMode mode on := by
  have hparam := vtParam_one mode
  cases on with
  | true =>
    show s.setAnsiMode (vtParam [(mode : Int)] 0 0) true = _
    rw [hparam]
  | false =>
    show s.setAnsiMode (vtParam [(mode : Int)] 0 0) false = _
    rw [hparam]

/-- A number that is not too small is cut where it is too large. -/
theorem clampInt_le {v lo hi : Int} (hlo : lo ≤ v) : clampInt v lo hi = min v hi := by
  unfold clampInt
  rw [if_neg (by omega)]
  split <;> omega

/-- Inside the screen, the cursor goes where it is sent. -/
theorem moveTo_eq {s : Screen} (horigin : s.modes.origin = false) {row col : Nat}
    (hrow : row < s.rows) (hcol : col < s.cols) : s.moveTo row col = s.sentTo row col := by
  have hr : (clampInt (s.moveTop + row) s.moveTop s.moveBottom).toNat = row := by
    simp only [moveTop, moveBottom, horigin, Bool.false_eq_true, if_false]
    rw [clampInt_le (by omega)]
    omega
  have hc : (clampInt col 0 ((s.cols : Int) - 1)).toNat = col := by
    rw [clampInt_le (by omega)]
    omega
  unfold moveTo place
  rw [hr, hc]
  rfl

/-- In origin mode it goes there in the region. -/
theorem moveTo_origin {s : Screen} (horigin : s.modes.origin = true) (hregion : RegionOk s.size s.region)
    (row : Nat) {col : Nat} (hcol : col < s.cols) :
    s.moveTo row col = s.sentTo (min (s.region.top + row) s.region.bottom) col := by
  have hle := hregion.le
  have hr : (clampInt (s.moveTop + row) s.moveTop s.moveBottom).toNat =
      min (s.region.top + row) s.region.bottom := by
    simp only [moveTop, moveBottom, horigin, if_true]
    rw [clampInt_le (by omega)]
    omega
  have hc : (clampInt col 0 ((s.cols : Int) - 1)).toNat = col := by
    rw [clampInt_le (by omega)]
    omega
  unfold moveTo place
  rw [hr, hc]
  rfl

theorem apply_cup (s : Screen) (row col : Nat) : s.apply (cupEvent row col) = s.moveTo row col := by
  have hrow : vtParam [((row + 1 : Nat) : Int), ((col + 1 : Nat) : Int)] 0 1 - 1 = row := by
    simp [vtParam, kVtParamOmitted]
    omega
  have hcol : vtParam [((row + 1 : Nat) : Int), ((col + 1 : Nat) : Int)] 1 1 - 1 = col := by
    simp [vtParam, kVtParamOmitted]
    omega
  show s.moveTo (vtParam [((row + 1 : Nat) : Int), ((col + 1 : Nat) : Int)] 0 1 - 1)
    (vtParam [((row + 1 : Nat) : Int), ((col + 1 : Nat) : Int)] 1 1 - 1) = _
  rw [hrow, hcol]

/-- The region of a screen of the same size, and the cursor home. -/
theorem apply_scrollRegion {s : Screen} {region : ScrollRegion} (h : RegionOk s.size region) :
    s.apply (scrollRegionEvent region s.rows) = ({ s with region := region } : Screen).moveTo 0 0 := by
  have hbottom : region.bottom < s.rows := h.1
  have hset : ∀ top bottom : Int, s.setScrollRegion top bottom =
      ({ s with region :=
          let top := if top < 1 then 1 else top
          let bottom := if bottom < 1 ∨ (s.rows : Int) < bottom then (s.rows : Int) else bottom
          if bottom ≤ top then { top := 0, bottom := s.rows - 1 }
          else { top := (top - 1).toNat, bottom := (bottom - 1).toNat } } : Screen).moveTo 0 0 :=
    fun _ _ => rfl
  unfold scrollRegionEvent
  by_cases hpart : region.top ≠ 0 ∨ region.bottom + 1 ≠ s.rows
  · have hlt : region.top < region.bottom := by
      rcases h.2 with hlt | ⟨htop, hfull⟩
      · exact hlt
      · exact absurd hpart (by simp [htop, hfull, rows])
    rw [if_pos hpart]
    show s.setScrollRegion (vtParam [((region.top + 1 : Nat) : Int), ((region.bottom + 1 : Nat) : Int)] 0 1)
      (vtParam [((region.top + 1 : Nat) : Int), ((region.bottom + 1 : Nat) : Int)] 1 s.rows) = _
    rw [vtParam_of_getElem? rfl, vtParam_of_getElem? rfl, hset]
    dsimp only
    rw [if_neg (by omega), if_neg (by omega), if_neg (by omega)]
    congr 2
    cases region
    simp
  · have hfull : region = { top := 0, bottom := s.rows - 1 } := by
      cases region
      simp at hpart ⊢
      omega
    rw [if_neg hpart]
    show s.setScrollRegion (vtParam [] 0 1) (vtParam [] 1 s.rows) = _
    have hone : vtParam [] 0 1 = 1 := rfl
    have hrows : vtParam [] 1 s.rows = s.rows := rfl
    rw [hone, hrows, hset, hfull]
    simp only [ite_self]
    congr 2
    split
    · rfl
    · simp

/-! ## Painting -/

/-- Nothing of the modes and the charset stands in the way of what is painted. -/
structure Plain (s : Screen) : Prop where
  wrap : s.modes.autoWrap = false
  insert : s.modes.insert = false
  origin : s.modes.origin = false
  charset : s.charset = {}

theorem plain_canvas (s : Screen) (alternate : Bool) : (s.canvas alternate).Plain :=
  ⟨rfl, rfl, rfl, rfl⟩

variable {s : Screen}

/-- A character at a place, with the cursor where it goes then. -/
theorem Plain.print (h : s.Plain) (grid : List Row) (row : Nat) {col : Nat} (hcol : col < s.cols)
    (pen : Pen) (cp : Nat) :
    (s.painted grid row col false pen).print cp =
      s.painted (grid.set row ((grid.getD row []).set col { ch := cp, pen := pen })) row
        (if s.cols ≤ col + 1 then col else col + 1) (decide (s.cols ≤ col + 1)) pen := by
  have hin : ¬ (s.painted grid row col false pen).cols ≤ (s.painted grid row col false pen).cursor.col :=
    Nat.not_le.mpr hcol
  have hwrap : (s.painted grid row col false pen).wrapPending = s.painted grid row col false pen := rfl
  have hrow : (s.painted grid row col false pen).printedRow cp =
      (grid.getD row []).set col { ch := cp, pen := pen } := by
    simp [printedRow, glyph, painted, rowAt, h.insert, h.charset]
  unfold Screen.print
  dsimp only
  rw [hwrap, if_neg hin, hrow]
  by_cases hlast : s.cols ≤ col + 1
  · -- the last column: the cursor stays, with a wrap pending
    rw [if_pos hlast, decide_eq_true hlast]
    exact if_pos hlast
  · rw [if_neg hlast, decide_eq_false hlast]
    exact if_neg hlast

/-- Cells to the end of a row, painted over the old ones. -/
theorem Plain.paintCells (h : s.Plain) {row : Nat} {cells : List Cell} (hne : cells ≠ [])
    (painted old : Row) (hlen : painted.length + cells.length = s.cols)
    (hold : old.length = cells.length) (grid : List Row) (hrow : row < grid.length)
    (hat : grid.getD row [] = painted ++ old) (pen : Pen) :
    (s.painted grid row painted.length false pen).applyAll (cellEvents pen cells).1 =
      s.painted (grid.set row (painted ++ cells)) row (s.cols - 1) true (cellEvents pen cells).2 := by
  induction cells generalizing painted old grid pen with
  | nil => exact absurd rfl hne
  | cons cell cells ih =>
    rw [List.length_cons] at hlen hold
    rcases old with _ | ⟨first, old⟩
    · simp at hold
    have hpen : (s.painted grid row painted.length false pen).applyAll
        (if cell.pen ≠ pen then [penEvent cell.pen] else []) =
        s.painted grid row painted.length false cell.pen := by
      by_cases hsame : cell.pen = pen
      · rw [if_neg (not_not.mpr hsame), hsame]
        rfl
      · rw [if_pos hsame, applyAll_cons, apply_penEvent]
        rfl
    have hcell : (grid.getD row []).set painted.length { ch := cell.ch, pen := cell.pen } =
        (painted ++ [cell]) ++ old := by
      rw [hat, List.set_append_right _ _ (Nat.le_refl _)]
      simp
    have hprint : (s.painted grid row painted.length false cell.pen).apply (.print cell.ch) =
        s.painted (grid.set row (painted ++ [cell] ++ old)) row
          (if s.cols ≤ painted.length + 1 then painted.length else painted.length + 1)
          (decide (s.cols ≤ painted.length + 1)) cell.pen := by
      rw [← hcell]
      exact h.print grid row (by omega) cell.pen cell.ch
    unfold cellEvents
    dsimp only
    rw [applyAll_append, hpen, applyAll_cons, hprint]
    rcases cells with _ | ⟨next, cells⟩
    · -- the last cell of the row
      have hend : s.cols = painted.length + 1 := by simpa using hlen.symm
      have hnil : old = [] := List.length_eq_zero_iff.mp (by simpa using hold)
      rw [if_pos (by omega), decide_eq_true (by omega), hnil, List.append_nil, hend]
      rfl
    · have hmore : ¬s.cols ≤ painted.length + 1 := by
        simp at hlen
        omega
      rw [if_neg hmore, decide_eq_false hmore]
      have hrest := ih (by simp) (painted ++ [cell]) old (by simp at hlen ⊢; omega)
        (by simpa using hold) (grid.set row (painted ++ [cell] ++ old)) (by simpa using hrow)
        (by simp [hrow]) cell.pen
      rw [List.length_append, List.length_singleton] at hrest
      rw [hrest, List.set_set, List.append_assoc]
      rfl

/-- A cursor that is sent somewhere forgets the wrap that was pending. -/
theorem Plain.sendTo (h : s.Plain) (grid : List Row) (r c : Nat) (wrap : Bool) (pen : Pen) {row : Nat}
    (hrow : row < s.rows) (hcols : 0 < s.cols) :
    (s.painted grid r c wrap pen).apply (cupEvent row 0) = s.painted grid row 0 false pen := by
  have horigin : (s.painted grid r c wrap pen).modes.origin = false := h.origin
  rw [apply_cup]
  exact moveTo_eq horigin hrow hcols

/-- Rows to the end of the grid, painted over the old ones. -/
theorem Plain.paintRows (h : s.Plain) (hcols : 0 < s.cols) {rows : List Row} (painted old : List Row)
    (hlen : painted.length + rows.length = s.rows) (hold : old.length = rows.length)
    (hrows : ∀ row ∈ rows, row.length = s.cols) (holds : ∀ row ∈ old, row.length = s.cols)
    (r c : Nat) (wrap : Bool) (pen : Pen) :
    ∃ r' c' wrap' pen', (s.painted (painted ++ old) r c wrap pen).applyAll
        (rowEvents pen painted.length rows) = s.painted (painted ++ rows) r' c' wrap' pen' := by
  induction rows generalizing painted old r c wrap pen with
  | nil =>
    have hnil : old = [] := List.length_eq_zero_iff.mp hold
    exact ⟨r, c, wrap, pen, by rw [hnil]; rfl⟩
  | cons row rows ih =>
    rw [List.length_cons] at hlen hold
    rcases old with _ | ⟨first, old⟩
    · simp at hold
    have hrow : row.length = s.cols := hrows row (by simp)
    have hfirst : first.length = s.cols := holds first (by simp)
    have hne : row ≠ [] := by
      rintro rfl
      simp at hrow
      omega
    have hat : (painted ++ first :: old).getD painted.length [] = [] ++ first := by simp
    have hcells := h.paintCells hne [] first (by simpa using hrow) (by rw [hfirst, hrow])
      (painted ++ first :: old) (by simp) hat pen
    have hset : (painted ++ first :: old).set painted.length ([] ++ row) = (painted ++ [row]) ++ old := by
      rw [List.set_append_right _ _ (Nat.le_refl _)]
      simp
    rw [hset] at hcells
    unfold rowEvents
    rw [applyAll_cons, h.sendTo _ r c wrap pen (by omega) hcols, applyAll_append]
    have hstart : s.painted (painted ++ first :: old) painted.length 0 false pen =
        s.painted (painted ++ first :: old) painted.length ([] : Row).length false pen := rfl
    rw [hstart, hcells]
    have hrest := ih (painted ++ [row]) old (by simp at hlen ⊢; omega)
      (by simpa using hold) (fun x hx => hrows x (by simp [hx])) (fun x hx => holds x (by simp [hx]))
      painted.length (s.cols - 1) true (cellEvents pen row).2
    rw [List.length_append, List.length_singleton, List.append_assoc painted [row] rows] at hrest
    exact hrest

/-! ## The opening -/

/-- A switch of screens, the grid that is shown apart. -/
theorem switchScreen_eq (c : Screen) (alternate clear : Bool) :
    ∃ grid, c.switchScreen alternate clear =
      { c with
        alternate := alternate
        savedGrid := if alternate = c.alternate then c.savedGrid else c.grid
        grid := grid } := by
  have herase : ∀ t : Screen, t.eraseInDisplay 2 = { t with grid := (t.eraseInDisplay 2).grid } :=
    fun _ => rfl
  unfold switchScreen
  by_cases hsame : alternate = c.alternate
  · rw [if_pos hsame, if_pos hsame]
    subst hsame
    by_cases hclear : (c.alternate && clear) = true
    · rw [if_pos hclear]
      exact ⟨_, herase c⟩
    · rw [if_neg hclear]
      exact ⟨c.grid, rfl⟩
  · rw [if_neg hsame, if_neg hsame]
    dsimp only
    cases clear with
    | true => exact ⟨_, herase _⟩
    | false => exact ⟨_, rfl⟩

/-- The first event: the screen is the one to paint on, and what was saved stays with it. -/
theorem apply_enter (c : Screen) (alternate : Bool) :
    ∃ grid row col wrap pen shifted, c.apply (privateModeEvent 1049 alternate) =
      { c with
        alternate := alternate
        savedGrid := if alternate = c.alternate then c.savedGrid else c.grid
        savedCursor := if alternate then c.cursor else c.savedCursor
        savedPen := if alternate then c.pen else c.savedPen
        savedShiftedOut := if alternate then c.charset.shiftedOut else c.savedShiftedOut
        grid := grid
        cursor := { c.cursor with row := row, col := col }
        pendingWrap := wrap
        pen := pen
        charset := { c.charset with shiftedOut := shifted } } := by
  rw [apply_privateMode]
  cases alternate with
  | true =>
    rcases c.saveCursor.switchScreen_eq true true with ⟨grid, hswitch⟩
    refine ⟨grid, c.cursor.row, c.cursor.col, c.pendingWrap, c.pen, c.charset.shiftedOut, ?_⟩
    exact hswitch
  | false =>
    rcases c.switchScreen_eq false false with ⟨grid, hswitch⟩
    refine ⟨grid, min c.savedCursor.row (c.rows - 1), min c.savedCursor.col (c.cols - 1), false,
      c.savedPen, c.savedShiftedOut, ?_⟩
    show (c.switchScreen false false).restoreCursor = _
    rw [hswitch]
    rfl

theorem moveTo_home {c : Screen} (h : SizeOk c.size) (horigin : c.modes.origin = false) :
    c.moveTo 0 0 = c.sentTo 0 0 := moveTo_eq horigin h.rows.1 h.cols.1

theorem apply_originOff {c : Screen} (h : SizeOk c.size) :
    c.apply (privateModeEvent 6 false) =
      ({ c with modes := { c.modes with origin := false } } : Screen).sentTo 0 0 := by
  have hoff : SizeOk ({ c with modes := { c.modes with origin := false } } : Screen).size := h
  rw [apply_privateMode]
  exact moveTo_home hoff rfl

theorem apply_fullRegion {c : Screen} (h : SizeOk c.size) (horigin : c.modes.origin = false) :
    c.apply (.csi 0x72 0 0 []) =
      ({ c with region := { top := 0, bottom := c.rows - 1 } } : Screen).sentTo 0 0 := by
  have hrows : 0 < c.rows := h.rows.1
  have hevent : scrollRegionEvent { top := 0, bottom := c.rows - 1 } c.rows = .csi 0x72 0 0 [] := by
    unfold scrollRegionEvent
    rw [if_neg (by simp; omega)]
  have hfull : SizeOk ({ c with region := { top := 0, bottom := c.rows - 1 } } : Screen).size := h
  have hregion : RegionOk c.size { top := 0, bottom := c.rows - 1 } := regionOk_full h
  rw [← hevent, apply_scrollRegion hregion]
  exact moveTo_home hfull horigin

/-- The other events of the opening, on any screen. -/
theorem applyAll_plain {c : Screen} (h : SizeOk c.size) :
    c.applyAll plainEvents =
      { c with
        charset := {}
        modes := { c.modes with insert := false, origin := false, autoWrap := false }
        region := { top := 0, bottom := c.rows - 1 }
        grid := (c.eraseRows 0 c.rows).grid
        cursor := { c.cursor with row := 0, col := 0 }
        pendingWrap := false } := by
  have hcharset : (((c.apply (.execute kShiftIn)).apply (charsetEvent 0x28 false)).apply
      (charsetEvent 0x29 false)) = { c with charset := {} } := rfl
  have hinsert : ∀ t : Screen, t.apply (ansiModeEvent 4 false) =
      { t with modes := { t.modes with insert := false } } := fun _ => rfl
  have hwrap : ∀ t : Screen, t.apply (privateModeEvent 7 false) =
      { t with modes := { t.modes with autoWrap := false } } := fun _ => rfl
  have herase : ∀ t : Screen, t.apply (.csi 0x4A 0 0 [2]) = t.eraseRows 0 t.rows := fun _ => rfl
  have hhome : ∀ t : Screen, SizeOk t.size → t.modes.origin = false →
      t.apply (.csi 0x48 0 0 []) = t.sentTo 0 0 := fun _ ht ho => moveTo_home ht ho
  unfold plainEvents
  simp only [applyAll_cons, applyAll_nil]
  rw [hcharset, hinsert, apply_originOff, hwrap, apply_fullRegion, hhome, herase]
  · rfl
  -- the size is kept, and the origin mode is off
  all_goals first
    | exact h
    | rfl

/-- The opening leaves a plain canvas, whatever the screen was. -/
theorem applyAll_opening (s : Screen) {c : Screen} (h : c.Wf) :
    ∃ grid pen, GridOk c.size grid ∧
      c.applyAll (openingEvents s) = (c.canvas s.alternate).painted grid 0 0 false pen := by
  have hok : ∀ e ∈ openingEvents s, e.Ok := by
    simp [openingEvents, plainEvents, privateModeEvent, charsetEvent, ansiModeEvent, VtEvent.Ok]
  have hwf := (h.applyAll hok).grid
  rcases c.apply_enter s.alternate with ⟨grid, row, col, wrap, pen, shifted, henter⟩
  have hsize : SizeOk (c.apply (privateModeEvent 1049 s.alternate)).size := by
    rw [henter]
    exact h.size
  have hrun : c.applyAll (openingEvents s) =
      (c.apply (privateModeEvent 1049 s.alternate)).applyAll plainEvents := applyAll_cons c _ _
  rw [applyAll_plain hsize, henter] at hrun
  have hall : ∃ grid', c.applyAll (openingEvents s) =
      (c.canvas s.alternate).painted grid' 0 0 false pen := ⟨_, hrun⟩
  rcases hall with ⟨grid', hall⟩
  have hsame : (c.applyAll (openingEvents s)).size = c.size := by
    rw [hall]
    rfl
  rw [hsame, hall] at hwf
  exact ⟨grid', pen, hwf, hall⟩

/-! ## The closing -/

/-- What a title event leaves. -/
theorem applyAll_title (c : Screen) {title : Bytes} (hlen : title.length ≤ kMaxTitleBytes) :
    c.applyAll (titleEvents title) = { c with title := if title = [] then c.title else title } := by
  unfold titleEvents
  by_cases hnil : title = []
  · rw [if_pos hnil, if_pos hnil]
    rfl
  · rw [if_neg hnil, if_neg hnil, applyAll_cons, applyAll_nil]
    show ({ c with title := title.take kMaxTitleBytes } : Screen) = _
    rw [List.take_of_length_le hlen]

/-- The events of the modes in front of the region. -/
def modeEvents (s : Screen) : List VtEvent :=
  [privateModeEvent 5 s.modes.reverseVideo, privateModeEvent 1 s.modes.applicationCursor,
    privateModeEvent 2004 s.modes.bracketedPaste, privateModeEvent 1000 s.modes.mouseReporting,
    .esc (if s.modes.applicationKeypad then 0x3D else 0x3E) 0, ansiModeEvent 4 s.modes.insert]

theorem applyAll_modes (s c : Screen) :
    c.applyAll s.modeEvents =
      { c with modes := { s.modes with origin := c.modes.origin, autoWrap := c.modes.autoWrap } } := by
  have hkeypad : ∀ t : Screen, t.apply (.esc (if s.modes.applicationKeypad then 0x3D else 0x3E) 0) =
      { t with modes := { t.modes with applicationKeypad := s.modes.applicationKeypad } } := by
    intro t
    cases s.modes.applicationKeypad <;> rfl
  have hreverse : ∀ t : Screen, t.setPrivateMode (5 : Nat) s.modes.reverseVideo =
      { t with modes := { t.modes with reverseVideo := s.modes.reverseVideo } } := fun _ => rfl
  have hcursor : ∀ t : Screen, t.setPrivateMode (1 : Nat) s.modes.applicationCursor =
      { t with modes := { t.modes with applicationCursor := s.modes.applicationCursor } } := fun _ => rfl
  have hpaste : ∀ t : Screen, t.setPrivateMode (2004 : Nat) s.modes.bracketedPaste =
      { t with modes := { t.modes with bracketedPaste := s.modes.bracketedPaste } } := fun _ => rfl
  have hmouse : ∀ t : Screen, t.setPrivateMode (1000 : Nat) s.modes.mouseReporting =
      { t with modes := { t.modes with mouseReporting := s.modes.mouseReporting } } := fun _ => rfl
  have hinsert : ∀ t : Screen, t.setAnsiMode (4 : Nat) s.modes.insert =
      { t with modes := { t.modes with insert := s.modes.insert } } := fun _ => rfl
  unfold modeEvents
  simp only [applyAll_cons, applyAll_nil, apply_privateMode, apply_ansiMode, hreverse, hcursor, hpaste,
    hmouse, hkeypad, hinsert]

/-- The region, the origin mode and the cursor: only the last of the moves is seen. -/
def cursorEvents (s : Screen) : List VtEvent :=
  [scrollRegionEvent s.region s.rows, privateModeEvent 6 s.modes.origin,
    cupEvent (cursorRow s) s.cursor.col]

theorem applyAll_cursor {s c : Screen} (h : s.Wf) (hsize : c.size = s.size)
    (horigin : c.modes.origin = false) :
    c.applyAll s.cursorEvents =
      ({ c with region := s.region, modes := { c.modes with origin := s.modes.origin } } :
        Screen).sentTo s.repaintedRow s.cursor.col := by
  have hcursor := h.cursor
  have hregion : RegionOk c.size s.region := hsize ▸ h.region
  have hle := h.region.le
  have hfirst : c.apply (scrollRegionEvent s.region s.rows) =
      ({ c with region := s.region } : Screen).sentTo 0 0 := by
    have hrows : s.rows = c.rows := by
      unfold rows
      rw [hsize]
    have hok : SizeOk ({ c with region := s.region } : Screen).size := hsize ▸ h.size
    rw [hrows, apply_scrollRegion hregion]
    exact moveTo_home hok horigin
  -- the origin mode sends the cursor somewhere, and the next event sends it on
  have hsecond : ∀ t : Screen, ∃ row col, t.apply (privateModeEvent 6 s.modes.origin) =
      ({ t with modes := { t.modes with origin := s.modes.origin } } : Screen).sentTo row col := by
    intro t
    rw [apply_privateMode]
    exact ⟨_, _, rfl⟩
  have hthird : ∀ t : Screen, t.size = s.size → t.region = s.region →
      t.modes.origin = s.modes.origin →
      t.apply (cupEvent (cursorRow s) s.cursor.col) = t.sentTo s.repaintedRow s.cursor.col := by
    intro t ht hr ho
    have hcol : s.cursor.col < t.cols := by
      unfold cols
      rw [ht]
      exact hcursor.2
    have hcup : cursorRow s < t.rows := by
      have hle := cursorRow_le s
      unfold rows
      rw [ht]
      exact Nat.lt_of_le_of_lt hle hcursor.1
    rw [apply_cup]
    by_cases hon : s.modes.origin = true
    · rw [moveTo_origin (ho.trans hon) (by rw [ht, hr]; exact h.region) _ hcol, hr]
      congr 1
      simp only [repaintedRow, cursorRow, hon, if_true, true_and]
      split <;> omega
    · have hoff : s.modes.origin = false := by simpa using hon
      rw [moveTo_eq (ho.trans hoff) hcup hcol]
      congr 1
      simp [repaintedRow, cursorRow, hoff]
  rcases hsecond (({ c with region := s.region } : Screen).sentTo 0 0) with ⟨row, col, hsecond⟩
  unfold cursorEvents
  rw [applyAll_cons, hfirst, applyAll_cons, hsecond, applyAll_cons, hthird]
  · rfl
  · exact hsize
  · rfl
  · rfl

/-- The events behind the cursor. -/
def lastEvents (s : Screen) : List VtEvent :=
  [privateModeEvent 7 s.modes.autoWrap, privateModeEvent 25 s.cursor.visible] ++
  (if s.charset.graphicsG0 then [charsetEvent 0x28 true] else []) ++
  (if s.charset.graphicsG1 then [charsetEvent 0x29 true] else []) ++
  (if s.charset.shiftedOut then [.execute kShiftOut] else []) ++
  [penEvent s.pen]

theorem applyAll_last (s : Screen) {c : Screen} (hplain : c.charset = {}) :
    c.applyAll s.lastEvents =
      { c with
        modes := { c.modes with autoWrap := s.modes.autoWrap }
        cursor := { c.cursor with visible := s.cursor.visible }
        charset := s.charset
        pen := s.pen } := by
  have hG0 : ∀ t : Screen, t.applyAll (if s.charset.graphicsG0 then [charsetEvent 0x28 true] else []) =
      { t with charset :=
          { t.charset with graphicsG0 := s.charset.graphicsG0 || t.charset.graphicsG0 } } := by
    intro t
    cases s.charset.graphicsG0 <;> rfl
  have hG1 : ∀ t : Screen, t.applyAll (if s.charset.graphicsG1 then [charsetEvent 0x29 true] else []) =
      { t with charset :=
          { t.charset with graphicsG1 := s.charset.graphicsG1 || t.charset.graphicsG1 } } := by
    intro t
    cases s.charset.graphicsG1 <;> rfl
  have hshift : ∀ t : Screen, t.applyAll (if s.charset.shiftedOut then [.execute kShiftOut] else []) =
      { t with charset :=
          { t.charset with shiftedOut := s.charset.shiftedOut || t.charset.shiftedOut } } := by
    intro t
    cases s.charset.shiftedOut <;> rfl
  have hmodes : c.applyAll [privateModeEvent 7 s.modes.autoWrap, privateModeEvent 25 s.cursor.visible] =
      { c with
        modes := { c.modes with autoWrap := s.modes.autoWrap }
        cursor := { c.cursor with visible := s.cursor.visible } } := by
    rw [applyAll_cons, applyAll_cons, applyAll_nil, apply_privateMode, apply_privateMode]
    rfl
  unfold lastEvents
  rw [applyAll_append, applyAll_append, applyAll_append, applyAll_append, hmodes, hG0, hG1, hshift,
    applyAll_cons, applyAll_nil, apply_penEvent]
  simp only [hplain, Bool.or_false]

theorem closingEvents_eq (s : Screen) :
    closingEvents s =
      [penEvent {}] ++ titleEvents s.title ++ s.modeEvents ++ s.cursorEvents ++ s.lastEvents := by
  simp only [closingEvents, modeEvents, cursorEvents, lastEvents, List.append_assoc, List.cons_append,
    List.nil_append]

/-- A repaint of `s`, on any screen of its size. -/
theorem applyAll_repaint {s c : Screen} (hs : s.Wf) (hc : c.Wf) (hsize : s.size = c.size) :
    c.applyAll (repaintEvents s) = s.repainted c := by
  have hplain := c.plain_canvas s.alternate
  rcases applyAll_opening s hc with ⟨grid, pen, hgrid, hopening⟩
  have hpainted : ∃ row col wrap pen', (c.canvas s.alternate).painted s.grid row col wrap pen' =
      ((c.canvas s.alternate).painted grid 0 0 false pen).applyAll (gridEvents s) := by
    have hrows : ∀ row ∈ s.grid, row.length = (c.canvas s.alternate).cols := by
      intro row hrow
      rw [(hs.grid.2 row hrow).1, hsize]
      rfl
    have holds : ∀ row ∈ grid, row.length = (c.canvas s.alternate).cols :=
      fun row hrow => (hgrid.2 row hrow).1
    have hcols : 0 < (c.canvas s.alternate).cols := hc.size.cols.1
    have hlen : ([] : List Row).length + s.grid.length = (c.canvas s.alternate).rows := by
      rw [hs.grid.1, hsize]
      exact Nat.zero_add _
    have hold : grid.length = s.grid.length := by
      rw [hs.grid.1, hsize]
      exact hgrid.1
    rcases hplain.paintRows hcols [] grid hlen hold hrows holds 0 0 false {} with
      ⟨row, col, wrap, pen', hrun⟩
    refine ⟨row, col, wrap, pen', ?_⟩
    unfold gridEvents
    rw [applyAll_cons, apply_penEvent]
    exact hrun.symm
  rcases hpainted with ⟨row, col, wrap, pen', hpainted⟩
  unfold repaintEvents
  rw [applyAll_append, applyAll_append, hopening, ← hpainted, closingEvents_eq, applyAll_append,
    applyAll_append, applyAll_append, applyAll_append, applyAll_cons, applyAll_nil, apply_penEvent,
    applyAll_title _ hs.title.1, applyAll_modes, applyAll_cursor hs, applyAll_last]
  · rfl
  · rfl
  · exact hsize.symm
  · rfl

end Screen

end Deskhub
