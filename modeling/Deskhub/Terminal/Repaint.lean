import Deskhub.Terminal.Screen

/-!
# The repaint of a screen

`RenderScreen`: the bytes that draw a screen on another one of its size.
-/

namespace Deskhub

namespace Repaint

def kBell : UInt8 := 0x07
def kShiftIn : UInt8 := 0x0F
def kShiftOut : UInt8 := 0x0E

/-- `AppendCsi`. -/
def appendCsi (body : Bytes) : Bytes := kEsc :: 0x5B :: body

/-- `AppendCup`. -/
def appendCup (row col : Nat) : Bytes :=
  appendCsi (decimal (row + 1) ++ ascii ";" ++ decimal (col + 1) ++ ascii "H")

def appendPrivateMode (mode : Nat) (on : Bool) : Bytes :=
  appendCsi (ascii "?" ++ decimal mode ++ if on then ascii "h" else ascii "l")

def appendAnsiMode (mode : Nat) (on : Bool) : Bytes :=
  appendCsi (decimal mode ++ if on then ascii "h" else ascii "l")

def appendSelectCharset (slot : UInt8) (graphics : Bool) : Bytes :=
  [kEsc, slot, if graphics then 0x30 else 0x42]

/-- The codes of `AppendColor`. -/
def colorCodes (color : Color) (foreground : Bool) : List Nat :=
  let basic := if foreground then 30 else 40
  let bright := if foreground then 90 else 100
  let extended := if foreground then 38 else 48
  let none := if foreground then 39 else 49
  match color with
  | .default => [none]
  | .palette index =>
      if index < 8 then [basic + index.toNat]
      else if index < 16 then [bright + index.toNat - 8]
      else [extended, 5, index.toNat]
  | .rgb r g b => [extended, 2, r.toNat, g.toNat, b.toNat]

/-- The codes of the attributes that are set. -/
def attrCodes (pen : Pen) : List Nat :=
  (if pen.bold then [1] else []) ++ (if pen.dim then [2] else []) ++
    (if pen.italic then [3] else []) ++ (if pen.underline then [4] else []) ++
    (if pen.blink then [5] else []) ++ (if pen.reverse then [7] else []) ++
    (if pen.hidden then [8] else []) ++ (if pen.strike then [9] else [])

/-- Codes behind the first one of a sequence, each with its separator. -/
def moreCodes (codes : List Nat) : Bytes := (codes.map (fun code => 0x3B :: decimal code)).flatten

def appendPen (pen : Pen) : Bytes :=
  appendCsi (ascii "0" ++ moreCodes (attrCodes pen) ++ moreCodes (colorCodes pen.fg true) ++
    moreCodes (colorCodes pen.bg false) ++ ascii "m")

/-- The cells of a row: the pen where it changes, and the character. -/
def appendCells (pen : Pen) : List Cell → Bytes × Pen
  | [] => ([], pen)
  | cell :: rest =>
      let change := if cell.pen ≠ pen then appendPen cell.pen else []
      let (out, last) := appendCells cell.pen rest
      (change ++ encodeUtf8 (if cell.ch < 0x20 then 0x20 else cell.ch) ++ out, last)

/-- The rows of the grid from row `row` on. -/
def appendRows (pen : Pen) (row : Nat) : List (List Cell) → Bytes
  | [] => []
  | cells :: rest =>
      let (out, pen) := appendCells pen cells
      appendCup row 0 ++ out ++ appendRows pen (row + 1) rest

/-- `AppendGrid`: each cell as `At` gives it. -/
def appendGrid (screen : Screen) : Bytes :=
  appendPen {} ++ appendRows {} 0 ((List.range screen.rows).map fun row =>
    (List.range screen.cols).map fun col => screen.cellAt row col)

def appendScrollRegion (region : ScrollRegion) (rows : Nat) : Bytes :=
  let body :=
    if region.top ≠ 0 ∨ region.bottom + 1 ≠ rows then
      decimal (region.top + 1) ++ ascii ";" ++ decimal (region.bottom + 1)
    else []
  appendCsi (body ++ ascii "r")

def appendTitle (title : Bytes) : Bytes :=
  if title = [] then [] else [kEsc] ++ ascii "]0;" ++ title ++ [kBell]

end Repaint

open Repaint in
def renderScreen (screen : Screen) : Bytes :=
  let modes := screen.modes
  let region := screen.region
  let charset := screen.charset
  let cursor := screen.cursor
  let cursorRow :=
    if modes.origin ∧ region.top ≤ cursor.row then cursor.row - region.top else cursor.row
  appendPrivateMode 1049 screen.alternate ++
  [kShiftIn] ++
  appendSelectCharset 0x28 false ++
  appendSelectCharset 0x29 false ++
  appendAnsiMode 4 false ++
  appendPrivateMode 6 false ++
  appendPrivateMode 7 false ++
  appendCsi (ascii "r") ++
  appendCsi (ascii "H") ++
  appendCsi (ascii "2J") ++
  appendGrid screen ++
  appendPen {} ++
  appendTitle screen.title ++
  appendPrivateMode 5 modes.reverseVideo ++
  appendPrivateMode 1 modes.applicationCursor ++
  appendPrivateMode 2004 modes.bracketedPaste ++
  appendPrivateMode 1000 modes.mouseReporting ++
  [kEsc, if modes.applicationKeypad then 0x3D else 0x3E] ++
  appendAnsiMode 4 modes.insert ++
  appendScrollRegion region screen.rows ++
  appendPrivateMode 6 modes.origin ++
  appendCup cursorRow cursor.col ++
  appendPrivateMode 7 modes.autoWrap ++
  appendPrivateMode 25 cursor.visible ++
  (if charset.graphicsG0 then appendSelectCharset 0x28 true else []) ++
  (if charset.graphicsG1 then appendSelectCharset 0x29 true else []) ++
  (if charset.shiftedOut then [kShiftOut] else []) ++
  appendPen screen.pen

end Deskhub
