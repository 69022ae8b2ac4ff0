import Deskhub.Protocol.Wire.Terminal
import Deskhub.Terminal.VtParser

/-!
# The terminal's screen

`Screen`: what the parser's events do to the grid, the cursor, the pen and the
modes. Rows, columns and counts are numbers, parameters integers; the sizes are
clamped, so 16 bits hold all of the former.
-/

namespace Deskhub

def kDefaultScrollback : Nat := 2000
def kMaxScrollback : Nat := 100000
def kTabWidth : Nat := 8
def kMaxTitleBytes : Nat := 256
def kMaxResponseBytes : Nat := 4096

/-- A colour: a palette entry keeps its index only. -/
inductive Color where
  | default
  | palette (index : UInt8)
  | rgb (r g b : UInt8)
deriving DecidableEq, Repr

structure Pen where
  fg : Color := .default
  bg : Color := .default
  bold : Bool := false
  dim : Bool := false
  italic : Bool := false
  underline : Bool := false
  blink : Bool := false
  reverse : Bool := false
  hidden : Bool := false
  strike : Bool := false
deriving DecidableEq, Repr

structure Cell where
  ch : Nat := 0x20
  pen : Pen := {}
deriving DecidableEq, Repr

abbrev Row := List Cell

structure CursorState where
  row : Nat := 0
  col : Nat := 0
  visible : Bool := true
deriving DecidableEq, Repr

structure TerminalModes where
  applicationCursor : Bool := false
  applicationKeypad : Bool := false
  bracketedPaste : Bool := false
  autoWrap : Bool := true
  insert : Bool := false
  origin : Bool := false
  mouseReporting : Bool := false
  reverseVideo : Bool := false
deriving DecidableEq, Repr

structure ScrollRegion where
  top : Nat := 0
  bottom : Nat := 0
deriving DecidableEq, Repr

structure CharsetState where
  graphicsG0 : Bool := false
  graphicsG1 : Bool := false
  shiftedOut : Bool := false
deriving DecidableEq, Repr

structure Screen where
  size : TermSize
  scrollbackLimit : Nat
  grid : List Row
  savedGrid : List Row := []
  scrollback : List Row := []
  parser : VtParser := {}
  cursor : CursorState := {}
  savedCursor : CursorState := {}
  pen : Pen := {}
  savedPen : Pen := {}
  modes : TerminalModes := {}
  region : ScrollRegion
  pendingWrap : Bool := false
  alternate : Bool := false
  charset : CharsetState := {}
  savedShiftedOut : Bool := false
  title : Bytes := []
  response : Bytes := []
  revision : Nat := 0
deriving DecidableEq, Repr

def decSpecialGraphic (cp : Nat) : Nat :=
  match cp with
  | 0x60 => 0x25C6 | 0x61 => 0x2592 | 0x62 => 0x2409 | 0x63 => 0x240C | 0x64 => 0x240D
  | 0x65 => 0x240A | 0x66 => 0x00B0 | 0x67 => 0x00B1 | 0x68 => 0x2424 | 0x69 => 0x240B
  | 0x6A => 0x2518 | 0x6B => 0x2510 | 0x6C => 0x250C | 0x6D => 0x2514 | 0x6E => 0x253C
  | 0x6F => 0x23BA | 0x70 => 0x23BB | 0x71 => 0x2500 | 0x72 => 0x23BC | 0x73 => 0x23BD
  | 0x74 => 0x251C | 0x75 => 0x2524 | 0x76 => 0x2534 | 0x77 => 0x252C | 0x78 => 0x2502
  | 0x79 => 0x2264 | 0x7A => 0x2265 | 0x7B => 0x03C0 | 0x7C => 0x2260 | 0x7D => 0x00A3
  | 0x7E => 0x00B7
  | cp => cp

def clampCount (value : Int) (limit : Nat) : Nat :=
  if value < 1 then 1 else if value > limit then limit else value.toNat

/-- `std::clamp`. -/
def clampInt (v lo hi : Int) : Int := if v < lo then lo else if hi < v then hi else v

/-- A parameter as a colour component. -/
def colorByte (v : Int) : UInt8 := UInt8.ofNat (clampInt v 0 255).toNat

/-- `ExtendedColor` at index `at`: the colour, and the index of the last parameter read. -/
def extendedColor (params : List Int) (i : Nat) : Color × Nat :=
  let kind := vtParam params (i + 1) 0
  if kind = 5 then (.palette (colorByte (vtParam params (i + 2) 0)), i + 2)
  else if kind = 2 then
    let first := i + 2
    let first :=
      if first < params.length ∧ params.getD first 0 = kVtParamOmitted then first + 1 else first
    (.rgb (colorByte (vtParam params first 0)) (colorByte (vtParam params (first + 1) 0))
      (colorByte (vtParam params (first + 2) 0)), first + 2)
  else (.default, i + 1)

/-- `vector::resize` of a row. -/
def resizeRow (row : Row) (cols : Nat) (fill : Cell) : Row :=
  row.take cols ++ List.replicate (cols - row.length) fill

/-- The cells `first ≤ c < last` of a row become `blank`. -/
def fillCells (row : Row) (first last : Nat) (blank : Cell) : Row :=
  row.take first ++ List.replicate (last - first) blank ++ row.drop (max first last)

namespace Screen

def new (size : TermSize) (scrollbackLimit : Nat) : Screen :=
  let size := clampTermSize size
  { size := size
    scrollbackLimit := min scrollbackLimit kMaxScrollback
    grid := List.replicate size.rows (List.replicate size.cols {})
    region := { top := 0, bottom := size.rows - 1 } }

def rows (s : Screen) : Nat := s.size.rows
def cols (s : Screen) : Nat := s.size.cols

/-- The row `r` of the grid. -/
def rowAt (s : Screen) (r : Nat) : Row := s.grid.getD r []

/-- `At`: blank outside the grid. -/
def cellAt (s : Screen) (row col : Nat) : Cell :=
  if s.rows ≤ row ∨ s.cols ≤ col then {} else (s.rowAt row).getD col {}

def setRow (s : Screen) (r : Nat) (row : Row) : Screen := { s with grid := s.grid.set r row }

def blankCell (s : Screen) : Cell := { pen := { bg := s.pen.bg } }

/-- A row of blanks. -/
def blankRow (s : Screen) : Row := List.replicate s.cols s.blankCell

def respond (s : Screen) (text : Bytes) : Screen :=
  if kMaxResponseBytes < s.response.length + text.length then s
  else { s with response := s.response ++ text }

def takeResponse (s : Screen) : Screen × Bytes := ({ s with response := [] }, s.response)

def pushScrollback (s : Screen) (row : Row) : Screen :=
  if s.scrollbackLimit = 0 then s
  else
    let scrollback := s.scrollback ++ [row]
    { s with scrollback := scrollback.drop (scrollback.length - s.scrollbackLimit) }

/-! ## Scrolling -/

/-- The rows `top` to `bottom` of the grid are replaced. -/
def setRegionRows (s : Screen) (rows : List Row) : Screen :=
  { s with grid := s.grid.take s.region.top ++ rows ++ s.grid.drop (s.region.bottom + 1) }

/-- The rows `top` to `bottom` of the grid. -/
def regionRows (s : Screen) : List Row :=
  (s.grid.drop s.region.top).take (s.region.bottom - s.region.top + 1)

/-- `ScrollUp`: the leaving rows go to the scrollback when the region starts at the
top of the primary screen. -/
def scrollUp (s : Screen) (count : Nat) : Screen :=
  let n := min count (s.region.bottom - s.region.top + 1)
  let leaving := s.regionRows.take n
  let kept := s.regionRows.drop n
  let s := if s.region.top = 0 ∧ !s.alternate then leaving.foldl pushScrollback s else s
  s.setRegionRows (kept ++ List.replicate n s.blankRow)

def scrollDown (s : Screen) (count : Nat) : Screen :=
  let span := s.region.bottom - s.region.top + 1
  let n := min count span
  s.setRegionRows (List.replicate n s.blankRow ++ s.regionRows.take (span - n))

def lineFeed (s : Screen) : Screen :=
  let s := { s with pendingWrap := false }
  if s.cursor.row = s.region.bottom then s.scrollUp 1
  else if s.cursor.row + 1 < s.rows then
    { s with cursor := { s.cursor with row := s.cursor.row + 1 } }
  else s

def reverseIndex (s : Screen) : Screen :=
  let s := { s with pendingWrap := false }
  if s.cursor.row = s.region.top then s.scrollDown 1
  else if 0 < s.cursor.row then { s with cursor := { s.cursor with row := s.cursor.row - 1 } }
  else s

/-! ## Printing and moving -/

def setCol (s : Screen) (col : Nat) : Screen := { s with cursor := { s.cursor with col := col } }

/-- A wrap that is pending is made. -/
def wrapPending (s : Screen) : Screen :=
  let s := if s.pendingWrap && s.modes.autoWrap then (s.setCol 0).lineFeed else s
  { s with pendingWrap := false }

/-- The character a code point shows in the charset that is in use. -/
def glyph (s : Screen) (cp : Nat) : Nat :=
  let graphics := if s.charset.shiftedOut then s.charset.graphicsG1 else s.charset.graphicsG0
  if graphics then decSpecialGraphic cp else cp

/-- The cursor's row with a code point printed, behind a blank in insert mode. -/
def printedRow (s : Screen) (cp : Nat) : Row :=
  let row := s.rowAt s.cursor.row
  let row :=
    if s.modes.insert then
      resizeRow (row.take s.cursor.col ++ s.blankCell :: row.drop s.cursor.col) s.cols {}
    else row
  row.set s.cursor.col { ch := s.glyph cp, pen := s.pen }

/-- The cursor goes on, or a wrap is pending. -/
def advance (s : Screen) : Screen :=
  if s.cols ≤ s.cursor.col + 1 then { s with pendingWrap := true }
  else s.setCol (s.cursor.col + 1)

def print (s : Screen) (cp : Nat) : Screen :=
  let s := s.wrapPending
  let s := if s.cols ≤ s.cursor.col then s.setCol (s.cols - 1) else s
  (s.setRow s.cursor.row (s.printedRow cp)).advance

def carriageReturn (s : Screen) : Screen := { s.setCol 0 with pendingWrap := false }

def backspace (s : Screen) : Screen :=
  if s.pendingWrap then { s with pendingWrap := false }
  else if 0 < s.cursor.col then s.setCol (s.cursor.col - 1)
  else s

/-- The column of the next tab stop, `count` times. -/
def tabStop (cols : Nat) : Nat → Nat → Nat
  | 0, col => col
  | count + 1, col =>
      let next := (col / kTabWidth + 1) * kTabWidth
      tabStop cols count (if cols ≤ next then cols - 1 else next)

def tab (s : Screen) (count : Nat) : Screen :=
  { s.setCol (tabStop s.cols count s.cursor.col) with pendingWrap := false }

/-- The column of the tab stop before, `count` times. -/
def backTabStop : Nat → Nat → Nat
  | 0, col => col
  | count + 1, col => if col = 0 then col else backTabStop count ((col - 1) / kTabWidth * kTabWidth)

def backTab (s : Screen) (count : Nat) : Screen :=
  { s.setCol (backTabStop count s.cursor.col) with pendingWrap := false }

def execute (s : Screen) (control : UInt8) : Screen :=
  if control = 0x08 then s.backspace
  else if control = 0x09 then s.tab 1
  else if control = 0x0A ∨ control = 0x0B ∨ control = 0x0C then s.lineFeed
  else if control = 0x0D then s.carriageReturn
  else if control = 0x0E then { s with charset := { s.charset with shiftedOut := true } }
  else if control = 0x0F then { s with charset := { s.charset with shiftedOut := false } }
  else s

/-- The rows the cursor may be sent to, first and last. -/
def moveTop (s : Screen) : Int := if s.modes.origin then s.region.top else 0
def moveBottom (s : Screen) : Int := if s.modes.origin then s.region.bottom else (s.rows : Int) - 1

/-- The cursor at a row and a column that are clamped to what it may be sent to. -/
def place (s : Screen) (row col : Int) : Screen :=
  { s with
    cursor :=
      { s.cursor with
        row := (clampInt row s.moveTop s.moveBottom).toNat
        col := (clampInt col 0 ((s.cols : Int) - 1)).toNat }
    pendingWrap := false }

def moveTo (s : Screen) (row col : Int) : Screen := s.place (s.moveTop + row) col

def moveBy (s : Screen) (rows cols : Int) : Screen :=
  s.place ((s.cursor.row : Int) + rows) ((s.cursor.col : Int) + cols)

def saveCursor (s : Screen) : Screen :=
  { s with savedCursor := s.cursor, savedPen := s.pen, savedShiftedOut := s.charset.shiftedOut }

def restoreCursor (s : Screen) : Screen :=
  { s with
    cursor :=
      { s.cursor with
        row := min s.savedCursor.row (s.rows - 1)
        col := min s.savedCursor.col (s.cols - 1) }
    pen := s.savedPen
    charset := { s.charset with shiftedOut := s.savedShiftedOut }
    pendingWrap := false }

def setScrollRegion (s : Screen) (top bottom : Int) : Screen :=
  let top := if top < 1 then 1 else top
  let bottom := if bottom < 1 ∨ (s.rows : Int) < bottom then (s.rows : Int) else bottom
  let region : ScrollRegion :=
    if bottom ≤ top then { top := 0, bottom := s.rows - 1 }
    else { top := (top - 1).toNat, bottom := (bottom - 1).toNat }
  ({ s with region := region } : Screen).moveTo 0 0

/-! ## Erasing, inserting and deleting -/

/-- The cursor's row with the cells `first ≤ c < last` blank. -/
def eraseCells (s : Screen) (first last : Nat) : Screen :=
  s.setRow s.cursor.row (fillCells (s.rowAt s.cursor.row) first last s.blankCell)

/-- The rows `first ≤ r < last` are blank. -/
def eraseRows (s : Screen) (first last : Nat) : Screen :=
  { s with grid := s.grid.take first ++ List.replicate (last - first) s.blankRow ++
      s.grid.drop (max first last) }

def eraseInDisplay (s : Screen) (how : Int) : Screen :=
  if how = 1 then
    (s.eraseRows 0 s.cursor.row).eraseCells 0 (min (s.cursor.col + 1) s.cols)
  else if how = 2 ∨ how = 3 then
    let s := if how = 3 then { s with scrollback := [] } else s
    s.eraseRows 0 s.rows
  else (s.eraseCells s.cursor.col s.cols).eraseRows (s.cursor.row + 1) s.rows

def eraseInLine (s : Screen) (how : Int) : Screen :=
  if how = 1 then s.eraseCells 0 (min (s.cursor.col + 1) s.cols)
  else if how = 2 then s.setRow s.cursor.row s.blankRow
  else s.eraseCells s.cursor.col s.cols

/-- `f` with the region starting at the cursor's row, and the cursor at the start of its row. -/
def atCursorRow (s : Screen) (f : Screen → Screen) : Screen :=
  if s.cursor.row < s.region.top ∨ s.region.bottom < s.cursor.row then s
  else
    let moved := f { s with region := { s.region with top := s.cursor.row } }
    { moved.setCol 0 with region := { moved.region with top := s.region.top }, pendingWrap := false }

def insertLines (s : Screen) (count : Nat) : Screen := s.atCursorRow (fun s => s.scrollDown count)

def deleteLines (s : Screen) (count : Nat) : Screen := s.atCursorRow (fun s => s.scrollUp count)

def insertChars (s : Screen) (count : Nat) : Screen :=
  let row := s.rowAt s.cursor.row
  let n := min count (s.cols - s.cursor.col)
  let row := row.take s.cursor.col ++ List.replicate n s.blankCell ++ row.drop s.cursor.col
  { s.setRow s.cursor.row (resizeRow row s.cols {}) with pendingWrap := false }

def deleteChars (s : Screen) (count : Nat) : Screen :=
  let row := s.rowAt s.cursor.row
  let n := min count (s.cols - s.cursor.col)
  let row := row.take s.cursor.col ++ row.drop (s.cursor.col + n)
  { s.setRow s.cursor.row (resizeRow row s.cols s.blankCell) with pendingWrap := false }

def eraseChars (s : Screen) (count : Nat) : Screen :=
  { s.eraseCells s.cursor.col (min (s.cursor.col + count) s.cols) with pendingWrap := false }

/-! ## Modes -/

def switchScreen (s : Screen) (alternate clear : Bool) : Screen :=
  if alternate = s.alternate then
    if alternate && clear then s.eraseInDisplay 2 else s
  else
    let grid :=
      if s.savedGrid.length ≠ s.rows then List.replicate s.rows (List.replicate s.cols {})
      else s.savedGrid
    let s :=
      { s with
        alternate := alternate
        grid := grid.map (fun row => resizeRow row s.cols {})
        savedGrid := s.grid }
    if clear then s.eraseInDisplay 2 else s

def setPrivateMode (s : Screen) (mode : Int) (on : Bool) : Screen :=
  if mode = 1 then { s with modes := { s.modes with applicationCursor := on } }
  else if mode = 5 then { s with modes := { s.modes with reverseVideo := on } }
  else if mode = 6 then ({ s with modes := { s.modes with origin := on } } : Screen).moveTo 0 0
  else if mode = 7 then { s with modes := { s.modes with autoWrap := on } }
  else if mode = 25 then { s with cursor := { s.cursor with visible := on } }
  else if mode = 47 then s.switchScreen on false
  else if mode = 1047 then
    let s := if !on && s.alternate then s.eraseInDisplay 2 else s
    s.switchScreen on false
  else if mode = 1048 then if on then s.saveCursor else s.restoreCursor
  else if mode = 1049 then
    let s := if on then s.saveCursor else s
    let s := s.switchScreen on on
    if on then s else s.restoreCursor
  else if mode = 1000 ∨ mode = 1002 ∨ mode = 1003 ∨ mode = 1006 ∨ mode = 1015 then
    { s with modes := { s.modes with mouseReporting := on } }
  else if mode = 2004 then { s with modes := { s.modes with bracketedPaste := on } }
  else s

def setAnsiMode (s : Screen) (mode : Int) (on : Bool) : Screen :=
  if mode = 4 then { s with modes := { s.modes with insert := on } } else s

/-- One code of `Sgr` at index `i`: the pen, and the index of the last parameter read. -/
def sgrCode (params : List Int) (pen : Pen) (i : Nat) : Pen × Nat :=
  let code := vtParam params i 0
  if code = 0 then ({}, i)
  else if code = 1 then ({ pen with bold := true }, i)
  else if code = 2 then ({ pen with dim := true }, i)
  else if code = 3 then ({ pen with italic := true }, i)
  else if code = 4 then ({ pen with underline := true }, i)
  else if code = 5 ∨ code = 6 then ({ pen with blink := true }, i)
  else if code = 7 then ({ pen with reverse := true }, i)
  else if code = 8 then ({ pen with hidden := true }, i)
  else if code = 9 then ({ pen with strike := true }, i)
  else if code = 21 ∨ code = 22 then ({ pen with bold := false, dim := false }, i)
  else if code = 23 then ({ pen with italic := false }, i)
  else if code = 24 then ({ pen with underline := false }, i)
  else if code = 25 then ({ pen with blink := false }, i)
  else if code = 27 then ({ pen with reverse := false }, i)
  else if code = 28 then ({ pen with hidden := false }, i)
  else if code = 29 then ({ pen with strike := false }, i)
  else if code = 38 then
    let (color, last) := extendedColor params i
    ({ pen with fg := color }, last)
  else if code = 39 then ({ pen with fg := .default }, i)
  else if code = 48 then
    let (color, last) := extendedColor params i
    ({ pen with bg := color }, last)
  else if code = 49 then ({ pen with bg := .default }, i)
  else if 30 ≤ code ∧ code ≤ 37 then
    ({ pen with fg := .palette (UInt8.ofNat (code - 30).toNat) }, i)
  else if 40 ≤ code ∧ code ≤ 47 then
    ({ pen with bg := .palette (UInt8.ofNat (code - 40).toNat) }, i)
  else if 90 ≤ code ∧ code ≤ 97 then
    ({ pen with fg := .palette (UInt8.ofNat (code - 90 + 8).toNat) }, i)
  else if 100 ≤ code ∧ code ≤ 107 then
    ({ pen with bg := .palette (UInt8.ofNat (code - 100 + 8).toNat) }, i)
  else (pen, i)

/-- The loop of `Sgr` from index `i`, with as many turns left as there are parameters. -/
def sgrCodes (params : List Int) : Nat → Pen → Nat → Pen
  | 0, pen, _ => pen
  | fuel + 1, pen, i =>
      if params.length ≤ i then pen
      else
        let (pen, last) := sgrCode params pen i
        sgrCodes params fuel pen (last + 1)

def sgr (s : Screen) (params : List Int) : Screen :=
  if params = [] then { s with pen := {} }
  else { s with pen := sgrCodes params params.length s.pen 0 }

/-! ## Events -/

/-- The row the cursor is reported at and addressed by. -/
def originRow (s : Screen) : Int :=
  (s.cursor.row : Int) - (if s.modes.origin then (s.region.top : Int) else 0)

def kDeviceAttributes : Bytes := [0x1B] ++ ascii "[?1;2c"

/-- `std::to_string` of an integer. -/
def decimalInt (v : Int) : Bytes :=
  if v < 0 then ascii "-" ++ decimal v.natAbs else decimal v.toNat

def csiPublic (s : Screen) (final : UInt8) (params : List Int) : Screen :=
  let lines := clampCount (vtParam params 0 1) s.rows
  let chars := clampCount (vtParam params 0 1) s.cols
  if final = 0x41 then s.moveBy (-lines) 0
  else if final = 0x42 then s.moveBy lines 0
  else if final = 0x43 then s.moveBy 0 chars
  else if final = 0x44 then s.moveBy 0 (-chars)
  else if final = 0x45 then (s.moveBy lines 0).setCol 0
  else if final = 0x46 then (s.moveBy (-lines) 0).setCol 0
  else if final = 0x47 ∨ final = 0x60 then s.moveTo s.originRow (vtParam params 0 1 - 1)
  else if final = 0x48 ∨ final = 0x66 then s.moveTo (vtParam params 0 1 - 1) (vtParam params 1 1 - 1)
  else if final = 0x49 then s.tab chars
  else if final = 0x4A then s.eraseInDisplay (vtParam params 0 0)
  else if final = 0x4B then s.eraseInLine (vtParam params 0 0)
  else if final = 0x4C then s.insertLines lines
  else if final = 0x4D then s.deleteLines lines
  else if final = 0x50 then s.deleteChars chars
  else if final = 0x53 then s.scrollUp lines
  else if final = 0x54 then s.scrollDown lines
  else if final = 0x58 then s.eraseChars chars
  else if final = 0x5A then s.backTab chars
  else if final = 0x40 then s.insertChars chars
  else if final = 0x64 then
    s.moveTo (vtParam params 0 1 - 1 - (if s.modes.origin then (s.region.top : Int) else 0))
      s.cursor.col
  else if final = 0x63 then if vtParam params 0 0 = 0 then s.respond kDeviceAttributes else s
  else if final = 0x6D then s.sgr params
  else if final = 0x6E then
    let s := if vtParam params 0 0 = 5 then s.respond ([0x1B] ++ ascii "[0n") else s
    if vtParam params 0 0 = 6 then
      s.respond ([0x1B] ++ ascii "[" ++ decimalInt (s.originRow + 1) ++ ascii ";" ++
        decimal (s.cursor.col + 1) ++ ascii "R")
    else s
  else if final = 0x72 then s.setScrollRegion (vtParam params 0 1) (vtParam params 1 s.rows)
  else if final = 0x73 then s.saveCursor
  else if final = 0x75 then s.restoreCursor
  else if final = 0x68 ∨ final = 0x6C then
    (List.range params.length).foldl
      (fun s i => s.setAnsiMode (vtParam params i 0) (final = 0x68)) s
  else s

/-- `Csi`: private modes behind a question mark, the rest without marker and intermediate. -/
def csi (s : Screen) (final marker intermediate : UInt8) (params : List Int) : Screen :=
  if marker = 0x3F then
    if final = 0x68 ∨ final = 0x6C then
      (List.range params.length).foldl
        (fun s i => s.setPrivateMode (vtParam params i 0) (final = 0x68)) s
    else s
  else if marker ≠ 0 then s
  else if intermediate ≠ 0 then s
  else s.csiPublic final params

def fullReset (s : Screen) : Screen :=
  { s with
    cursor := {}
    savedCursor := {}
    pen := {}
    savedPen := {}
    modes := {}
    region := { top := 0, bottom := s.rows - 1 }
    pendingWrap := false
    alternate := false
    charset := {}
    savedShiftedOut := false
    title := []
    savedGrid := []
    grid := s.grid.map (fun _ => List.replicate s.cols {}) }

def esc (s : Screen) (final intermediate : UInt8) : Screen :=
  if intermediate = 0x28 then
    { s with charset := { s.charset with graphicsG0 := final = 0x30 } }
  else if intermediate = 0x29 then
    { s with charset := { s.charset with graphicsG1 := final = 0x30 } }
  else if intermediate = 0x23 then
    if final = 0x38 then
      { s with grid := List.replicate s.rows (List.replicate s.cols { ch := 0x45, pen := s.pen }) }
    else s
  else if intermediate ≠ 0 then s
  else if final = 0x37 then s.saveCursor
  else if final = 0x38 then s.restoreCursor
  else if final = 0x3D then { s with modes := { s.modes with applicationKeypad := true } }
  else if final = 0x3E then { s with modes := { s.modes with applicationKeypad := false } }
  else if final = 0x44 then s.lineFeed
  else if final = 0x45 then s.lineFeed.setCol 0
  else if final = 0x4D then s.reverseIndex
  else if final = 0x63 then s.fullReset
  else s

def oscEvent (s : Screen) (command : Int) (text : Bytes) : Screen :=
  let command := vtParam [command] 0 (-1)
  if command ≠ 0 ∧ command ≠ 2 then s else { s with title := text.take kMaxTitleBytes }

def apply (s : Screen) : VtEvent → Screen
  | .print cp => s.print cp
  | .execute control => s.execute control
  | .csi final marker intermediate params => s.csi final marker intermediate params
  | .esc final intermediate => s.esc final intermediate
  | .osc command text => s.oscEvent command text

/-- The events of a write, one after the other. -/
def applyAll (s : Screen) (events : List VtEvent) : Screen := events.foldl apply s

def write (s : Screen) (bytes : Bytes) : Screen :=
  if bytes = [] then s
  else
    let (parser, events) := s.parser.parse bytes
    let s := ({ s with parser := parser } : Screen).applyAll events
    { s with revision := s.revision + 1 }

/-- `Reset`. -/
def reset (s : Screen) : Screen :=
  let s := ({ s with parser := {}, scrollback := [], response := [] } : Screen).fullReset
  { s with revision := s.revision + 1 }

/-- A grid cut or padded to a size. -/
def resizeGrid (grid : List Row) (size : TermSize) : List Row :=
  (grid.take size.rows ++ List.replicate (size.rows - grid.length) (List.replicate size.cols ({} : Cell))).map
    (fun row => resizeRow row size.cols {})

def resize (s : Screen) (size : TermSize) : Screen :=
  let target := clampTermSize size
  if target = s.size then s
  else
    let s :=
      if target.rows < s.size.rows ∧ !s.alternate then
        let drop := min (s.size.rows - target.rows) s.cursor.row
        let pushed := (s.grid.take drop).foldl pushScrollback s
        { pushed with
          grid := s.grid.drop drop
          cursor := { s.cursor with row := s.cursor.row - drop } }
      else s
    let clamp (c : CursorState) : CursorState :=
      { c with row := min c.row (target.rows - 1), col := min c.col (target.cols - 1) }
    { s with
      grid := resizeGrid s.grid target
      savedGrid := if s.savedGrid = [] then [] else resizeGrid s.savedGrid target
      size := target
      region := { top := 0, bottom := target.rows - 1 }
      cursor := clamp s.cursor
      savedCursor := clamp s.savedCursor
      pendingWrap := false
      revision := s.revision + 1 }

end Screen

/-- The calls that change a screen. -/
inductive ScreenCall where
  | write (bytes : Bytes)
  | resize (size : TermSize)
  | reset
  | takeResponse
deriving DecidableEq, Repr

/-- The screen as a machine; what it outputs is the responses taken. -/
def screen : Machine Screen ScreenCall Bytes where
  step s
    | .write bytes => (s.write bytes, [])
    | .resize size => (s.resize size, [])
    | .reset => (s.reset, [])
    | .takeResponse =>
        let (s, out) := s.takeResponse
        (s, [out])

/-- A screen that a run of calls on a new one leads to. -/
def Screen.Reachable (s : Screen) : Prop :=
  ∃ size limit calls, s = (screen.run (Screen.new size limit) calls).1

end Deskhub
