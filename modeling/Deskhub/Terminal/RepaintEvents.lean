import Deskhub.Terminal.Repaint
import Deskhub.Terminal.ScreenInv

/-!
# The events of a repaint

The bytes of a repaint are complete sequences, one after the other: a parser with
nothing begun emits the same events for them whatever it was fed before.
-/

namespace Deskhub

open VtParser

namespace Repaint

def cupEvent (row col : Nat) : VtEvent := .csi 0x48 0 0 [((row + 1 : Nat) : Int), ((col + 1 : Nat) : Int)]

def privateModeEvent (mode : Nat) (on : Bool) : VtEvent :=
  .csi (if on then 0x68 else 0x6C) 0x3F 0 [(mode : Int)]

def ansiModeEvent (mode : Nat) (on : Bool) : VtEvent :=
  .csi (if on then 0x68 else 0x6C) 0 0 [(mode : Int)]

def charsetEvent (slot : UInt8) (graphics : Bool) : VtEvent :=
  .esc (if graphics then 0x30 else 0x42) slot

/-- The codes of a pen behind the one that resets it. -/
def penCodes (pen : Pen) : List Nat :=
  attrCodes pen ++ colorCodes pen.fg true ++ colorCodes pen.bg false

def penEvent (pen : Pen) : VtEvent := .csi 0x6D 0 0 (0 :: (penCodes pen).map (fun code : Nat => (code : Int)))

/-- The events of the cells of a row, and the pen they leave. -/
def cellEvents (pen : Pen) : List Cell → List VtEvent × Pen
  | [] => ([], pen)
  | cell :: rest =>
      let (out, last) := cellEvents cell.pen rest
      ((if cell.pen ≠ pen then [penEvent cell.pen] else []) ++ .print cell.ch :: out, last)

def rowEvents (pen : Pen) (row : Nat) : List Row → List VtEvent
  | [] => []
  | cells :: rest =>
      cupEvent row 0 :: ((cellEvents pen cells).1 ++ rowEvents (cellEvents pen cells).2 (row + 1) rest)

def scrollRegionEvent (region : ScrollRegion) (rows : Nat) : VtEvent :=
  .csi 0x72 0 0
    (if region.top ≠ 0 ∨ region.bottom + 1 ≠ rows then
      [((region.top + 1 : Nat) : Int), ((region.bottom + 1 : Nat) : Int)]
    else [])

def titleEvents (title : Bytes) : List VtEvent := if title = [] then [] else [.osc 0 title]

/-- The row the cursor is sent to, in the rows it is addressed by. -/
def cursorRow (screen : Screen) : Nat :=
  if screen.modes.origin ∧ screen.region.top ≤ screen.cursor.row then
    screen.cursor.row - screen.region.top
  else screen.cursor.row

/-- What makes a screen blank and its modes plain. -/
def plainEvents : List VtEvent :=
  [.execute kShiftIn, charsetEvent 0x28 false, charsetEvent 0x29 false, ansiModeEvent 4 false,
    privateModeEvent 6 false, privateModeEvent 7 false, .csi 0x72 0 0 [], .csi 0x48 0 0 [],
    .csi 0x4A 0 0 [2]]

def openingEvents (screen : Screen) : List VtEvent :=
  privateModeEvent 1049 screen.alternate :: plainEvents

def gridEvents (screen : Screen) : List VtEvent :=
  penEvent {} :: rowEvents {} 0 screen.grid

/-- The title, the modes, the region, the cursor, the charsets and the pen. -/
def closingEvents (screen : Screen) : List VtEvent :=
  [penEvent {}] ++ titleEvents screen.title ++
  [privateModeEvent 5 screen.modes.reverseVideo,
    privateModeEvent 1 screen.modes.applicationCursor,
    privateModeEvent 2004 screen.modes.bracketedPaste,
    privateModeEvent 1000 screen.modes.mouseReporting,
    .esc (if screen.modes.applicationKeypad then 0x3D else 0x3E) 0,
    ansiModeEvent 4 screen.modes.insert,
    scrollRegionEvent screen.region screen.rows,
    privateModeEvent 6 screen.modes.origin,
    cupEvent (cursorRow screen) screen.cursor.col,
    privateModeEvent 7 screen.modes.autoWrap,
    privateModeEvent 25 screen.cursor.visible] ++
  (if screen.charset.graphicsG0 then [charsetEvent 0x28 true] else []) ++
  (if screen.charset.graphicsG1 then [charsetEvent 0x29 true] else []) ++
  (if screen.charset.shiftedOut then [.execute kShiftOut] else []) ++
  [penEvent screen.pen]

/-- The events of a repaint, in order. -/
def repaintEvents (screen : Screen) : List VtEvent :=
  openingEvents screen ++ gridEvents screen ++ closingEvents screen

/-! ## Control sequences -/

/-- A control sequence without marker, from what leads to its parameters. -/
theorem emits_appendCsi {body : Bytes} {final : UInt8} {params : List Int}
    (hfinal : isCsiFinal final = true) (h : Extends body 0 [] params) :
    Emits (appendCsi (body ++ [final])) [.csi final 0 0 params] :=
  emits_csi hfinal fun p hp _ => h p hp

theorem extends_one {marker : UInt8} {n : Nat} (hn : n ≤ 65535) :
    Extends (decimal n) marker [] [(n : Int)] :=
  extends_decimal (Or.inl ⟨rfl, rfl⟩) hn

/-- A number behind a separator. -/
theorem extends_next {marker : UInt8} {params : List Int} (hne : params ≠ [])
    (hroom : params.length < kMaxVtParams) {n : Nat} (hn : n ≤ 65535) :
    Extends (0x3B :: decimal n) marker params (params ++ [(n : Int)]) := by
  have hsep : Extends [0x3B] marker params (params ++ [kVtParamOmitted]) :=
    extends_separator hne hroom
  exact hsep.append (extends_decimal (Or.inr rfl) hn)

theorem extends_moreCodes {marker : UInt8} {codes : List Nat} (hcodes : ∀ c ∈ codes, c ≤ 65535)
    {params : List Int} (hne : params ≠ []) (hroom : params.length + codes.length ≤ kMaxVtParams) :
    Extends (moreCodes codes) marker params (params ++ codes.map (fun code : Nat => (code : Int))) := by
  induction codes generalizing params with
  | nil =>
    rw [List.map_nil, List.append_nil]
    exact .nil marker params
  | cons code codes ih =>
    rw [List.length_cons] at hroom
    have hfirst : Extends (0x3B :: decimal code) marker params (params ++ [(code : Int)]) :=
      extends_next hne (by omega) (hcodes code (by simp))
    have hrest : Extends (moreCodes codes) marker (params ++ [(code : Int)])
        (params ++ [(code : Int)] ++ codes.map (fun code : Nat => (code : Int))) := by
      apply ih
      · exact fun c hc => hcodes c (by simp [hc])
      · simp
      · rw [List.length_append, List.length_singleton]
        omega
    have hall := hfirst.append hrest
    rw [List.append_assoc] at hall
    exact hall

theorem extends_pair {marker : UInt8} {a b : Nat} (ha : a ≤ 65535) (hb : b ≤ 65535) :
    Extends (decimal a ++ ascii ";" ++ decimal b) marker [] [(a : Int), (b : Int)] := by
  rw [List.append_assoc]
  exact (extends_one ha).append (extends_next (by simp) (Nat.lt_of_lt_of_le (by decide : 1 < 2) (by decide)) hb)

theorem emits_cup {row col : Nat} (hrow : row + 1 ≤ 65535) (hcol : col + 1 ≤ 65535) :
    Emits (appendCup row col) [cupEvent row col] :=
  emits_appendCsi (by decide) (extends_pair hrow hcol)

/-- The final byte of a mode that is set or reset. -/
theorem modeFinal (on : Bool) :
    (if on then ascii "h" else ascii "l") = [if on then 0x68 else 0x6C] ∧
      isCsiFinal (if on then 0x68 else 0x6C) = true := by
  cases on <;> decide

theorem emits_privateMode {mode : Nat} (hmode : mode ≤ 65535) (on : Bool) :
    Emits (appendPrivateMode mode on) [privateModeEvent mode on] := by
  unfold appendPrivateMode appendCsi
  rw [(modeFinal on).1]
  apply emits_csi (modeFinal on).2
  intro p hp hentry
  have hmarked := hp.marked hentry (by decide : isPrivateMarker 0x3F = true)
  have hdigits : Extends (decimal mode) 0x3F [] [(mode : Int)] := extends_one hmode
  have hnumber := hdigits _ hmarked.2
  rw [parse_append]
  constructor
  · show (p.parse [0x3F]).2 ++ _ = []
    rw [hmarked.1]
    exact hnumber.1
  · exact hnumber.2

theorem emits_ansiMode {mode : Nat} (hmode : mode ≤ 65535) (on : Bool) :
    Emits (appendAnsiMode mode on) [ansiModeEvent mode on] := by
  unfold appendAnsiMode
  rw [(modeFinal on).1]
  exact emits_appendCsi (modeFinal on).2 (extends_one hmode)

theorem emits_selectCharset {slot : UInt8} (hslot : isIntermediate slot = true) (graphics : Bool) :
    Emits (appendSelectCharset slot graphics) [charsetEvent slot graphics] := by
  cases graphics with
  | true => exact emits_charset hslot (by decide) (by decide)
  | false => exact emits_charset hslot (by decide) (by decide)

theorem emits_scrollRegion {region : ScrollRegion} {rows : Nat} (htop : region.top + 1 ≤ 65535)
    (hbottom : region.bottom + 1 ≤ 65535) :
    Emits (appendScrollRegion region rows) [scrollRegionEvent region rows] := by
  unfold appendScrollRegion scrollRegionEvent
  by_cases hpart : region.top ≠ 0 ∨ region.bottom + 1 ≠ rows
  · rw [if_pos hpart, if_pos hpart]
    exact emits_appendCsi (by decide) (extends_pair htop hbottom)
  · rw [if_neg hpart, if_neg hpart]
    exact emits_appendCsi (by decide) (.nil 0 [])

theorem emits_title {title : Bytes} (hlen : title.length ≤ kMaxTitleBytes)
    (htitle : ∀ b ∈ title, OscByte b) : Emits (appendTitle title) (titleEvents title) := by
  unfold appendTitle titleEvents
  by_cases hnil : title = []
  · rw [if_pos hnil, if_pos hnil]
    exact .nil
  · rw [if_neg hnil, if_neg hnil]
    apply emits_osc htitle
    simp only [kMaxTitleBytes, kMaxOscBytes] at *
    omega

/-! ## The pen -/

theorem colorCodes_le (color : Color) (foreground : Bool) : ∀ c ∈ colorCodes color foreground, c ≤ 65535 := by
  have hbyte : ∀ b : UInt8, b.toNat < 256 := fun b => b.toNat_lt
  unfold colorCodes
  cases color with
  | default => cases foreground <;> simp
  | palette index =>
    have hi := hbyte index
    cases foreground <;> dsimp only <;> split <;> (try split) <;> simp <;> omega
  | rgb r g b =>
    have hr := hbyte r
    have hg := hbyte g
    have hb := hbyte b
    cases foreground <;> simp <;> omega

theorem length_colorCodes (color : Color) (foreground : Bool) :
    (colorCodes color foreground).length ≤ 5 := by
  unfold colorCodes
  cases color with
  | default => simp
  | palette index => dsimp only; split <;> (try split) <;> simp
  | rgb r g b => simp

/-- A code that is given or not. -/
theorem flag_codes (c : Bool) {code : Nat} (hcode : code ≤ 65535) :
    (if c then [code] else []).length ≤ 1 ∧ ∀ x ∈ (if c then [code] else []), x ≤ 65535 := by
  cases c <;> simp [hcode]

theorem attrCodes_facts (pen : Pen) :
    (attrCodes pen).length ≤ 8 ∧ ∀ c ∈ attrCodes pen, c ≤ 65535 := by
  have h1 := flag_codes pen.bold (by decide : 1 ≤ 65535)
  have h2 := flag_codes pen.dim (by decide : 2 ≤ 65535)
  have h3 := flag_codes pen.italic (by decide : 3 ≤ 65535)
  have h4 := flag_codes pen.underline (by decide : 4 ≤ 65535)
  have h5 := flag_codes pen.blink (by decide : 5 ≤ 65535)
  have h7 := flag_codes pen.reverse (by decide : 7 ≤ 65535)
  have h8 := flag_codes pen.hidden (by decide : 8 ≤ 65535)
  have h9 := flag_codes pen.strike (by decide : 9 ≤ 65535)
  unfold attrCodes
  constructor
  · simp only [List.length_append]
    omega
  · intro c hc
    simp only [List.mem_append] at hc
    rcases hc with ((((((hc | hc) | hc) | hc) | hc) | hc) | hc) | hc
    · exact h1.2 c hc
    · exact h2.2 c hc
    · exact h3.2 c hc
    · exact h4.2 c hc
    · exact h5.2 c hc
    · exact h7.2 c hc
    · exact h8.2 c hc
    · exact h9.2 c hc

theorem moreCodes_append (xs ys : List Nat) : moreCodes (xs ++ ys) = moreCodes xs ++ moreCodes ys := by
  simp [moreCodes]

theorem emits_pen (pen : Pen) : Emits (appendPen pen) [penEvent pen] := by
  have hattr := attrCodes_facts pen
  have hfg := length_colorCodes pen.fg true
  have hbg := length_colorCodes pen.bg false
  have hcodes : ∀ c ∈ penCodes pen, c ≤ 65535 := by
    intro c hc
    simp only [penCodes, List.mem_append] at hc
    rcases hc with (hc | hc) | hc
    · exact hattr.2 c hc
    · exact colorCodes_le pen.fg true c hc
    · exact colorCodes_le pen.bg false c hc
  have hlen : [(0 : Int)].length + (penCodes pen).length ≤ kMaxVtParams := by
    simp only [penCodes, List.length_append, List.length_singleton, kMaxVtParams]
    omega
  have hzero : Extends (ascii "0") 0 [] [(0 : Int)] := extends_one (n := 0) (by decide)
  have hmore : Extends (moreCodes (penCodes pen)) 0 [0]
      ([0] ++ (penCodes pen).map (fun code : Nat => (code : Int))) :=
    extends_moreCodes hcodes (by simp) hlen
  have hbody : ascii "0" ++ moreCodes (attrCodes pen) ++ moreCodes (colorCodes pen.fg true) ++
      moreCodes (colorCodes pen.bg false) ++ ascii "m" =
      ascii "0" ++ moreCodes (penCodes pen) ++ [0x6D] := by
    simp only [penCodes, moreCodes_append, List.append_assoc]
    rfl
  unfold appendPen
  rw [hbody]
  exact emits_appendCsi (by decide) (hzero.append hmore)

/-! ## The grid -/

theorem emits_cells {cells : List Cell} (hcells : ∀ c ∈ cells, Printable c.ch) (pen : Pen) :
    (appendCells pen cells).2 = (cellEvents pen cells).2 ∧
      Emits (appendCells pen cells).1 (cellEvents pen cells).1 := by
  induction cells generalizing pen with
  | nil => exact ⟨rfl, .nil⟩
  | cons cell cells ih =>
    have hch := hcells cell (by simp)
    rcases ih (fun c hc => hcells c (by simp [hc])) cell.pen with ⟨hpen, hrest⟩
    refine ⟨hpen, ?_⟩
    unfold appendCells cellEvents
    dsimp only
    rw [if_neg (Nat.not_lt.mpr hch.1), List.append_assoc]
    exact (Emits.ite (emits_pen cell.pen)).append ((emits_encodeUtf8 hch).append hrest)

theorem emits_rows {size : TermSize} (hsize : SizeOk size) {rows : List Row}
    (hrows : ∀ row ∈ rows, RowOk size.cols row) {first : Nat} (hfirst : first + rows.length ≤ size.rows)
    (pen : Pen) : Emits (appendRows pen first rows) (rowEvents pen first rows) := by
  induction rows generalizing first pen with
  | nil => exact .nil
  | cons row rows ih =>
    rw [List.length_cons] at hfirst
    have hmax := hsize.rows.2
    rcases emits_cells (hrows row (by simp)).2 pen with ⟨hpen, hcells⟩
    have hrest : Emits (appendRows (cellEvents pen row).2 (first + 1) rows)
        (rowEvents (cellEvents pen row).2 (first + 1) rows) :=
      ih (fun r hr => hrows r (by simp [hr])) (by omega) _
    have hcup : Emits (appendCup first 0) [cupEvent first 0] := by
      apply emits_cup
      · simp only [kMaxTermRows] at hmax
        omega
      · omega
    unfold appendRows rowEvents
    dsimp only
    rw [hpen, List.append_assoc]
    exact hcup.append (hcells.append hrest)

/-- Inside the grid, every cell is the one `At` gives. -/
theorem cellAt_rows {s : Screen} (h : GridOk s.size s.grid) :
    ((List.range s.rows).map fun row => (List.range s.cols).map fun col => s.cellAt row col) = s.grid := by
  have hlen : s.grid.length = s.rows := h.1
  apply List.ext_getElem
  · simp [hlen]
  · intro r hr hr'
    have hrow : (s.grid[r]).length = s.cols := (h.2 _ (List.getElem_mem hr')).1
    have hin : r < s.rows := hlen ▸ hr'
    apply List.ext_getElem
    · simp [hrow]
    · intro c hc hc'
      have hcol : c < s.cols := hrow ▸ hc'
      simp [Screen.cellAt, Screen.rowAt, Nat.not_le.mpr hin, Nat.not_le.mpr hcol, hr', hc']

theorem emits_grid {s : Screen} (h : s.Wf) : Emits (appendGrid s) (gridEvents s) := by
  have hlen : s.grid.length = s.size.rows := h.grid.1
  unfold appendGrid gridEvents
  rw [cellAt_rows h.grid]
  exact (emits_pen {}).append (emits_rows h.size h.grid.2 (by omega) {})

/-! ## The whole repaint -/

theorem cursorRow_le (s : Screen) : cursorRow s ≤ s.cursor.row := by
  unfold cursorRow
  split <;> omega

theorem emits_opening (s : Screen) :
    Emits (appendPrivateMode 1049 s.alternate ++ [kShiftIn] ++ appendSelectCharset 0x28 false ++
      appendSelectCharset 0x29 false ++ appendAnsiMode 4 false ++ appendPrivateMode 6 false ++
      appendPrivateMode 7 false ++ appendCsi (ascii "r") ++ appendCsi (ascii "H") ++
      appendCsi (ascii "2J")) (openingEvents s) := by
  have hbare : ∀ final, isCsiFinal final = true →
      Emits (appendCsi [final]) [.csi final 0 0 []] := by
    intro final hfinal
    exact emits_appendCsi hfinal (.nil 0 [])
  have herase : Emits (appendCsi (decimal 2 ++ [0x4A])) [.csi 0x4A 0 0 [2]] :=
    emits_appendCsi (by decide) (extends_one (by decide))
  exact (emits_privateMode (by decide) _)
    |>.append (emits_execute (by decide) (by decide))
    |>.append (emits_selectCharset (by decide) false)
    |>.append (emits_selectCharset (by decide) false)
    |>.append (emits_ansiMode (by decide) false)
    |>.append (emits_privateMode (by decide) false)
    |>.append (emits_privateMode (by decide) false)
    |>.append (hbare 0x72 (by decide))
    |>.append (hbare 0x48 (by decide))
    |>.append herase

/-- Reachable or not, a well-formed screen is repainted by complete sequences. -/
theorem emits_renderScreen {s : Screen} (h : s.Wf) : Emits (renderScreen s) (repaintEvents s) := by
  have hrows := h.size.rows.2
  have hcols := h.size.cols.2
  have hcursor := h.cursor
  have hregion := h.region.1
  have htop := h.region.le
  have hcup := cursorRow_le s
  simp only [kMaxTermRows, kMaxTermCols, Inside] at hrows hcols hcursor
  have hkeypad : Emits [kEsc, if s.modes.applicationKeypad then 0x3D else 0x3E]
      [.esc (if s.modes.applicationKeypad then 0x3D else 0x3E) 0] := by
    cases s.modes.applicationKeypad with
    | true => exact emits_esc (by decide) (by decide)
    | false => exact emits_esc (by decide) (by decide)
  have hslot : ∀ slot, isIntermediate slot = true → ∀ graphics : Bool,
      Emits (if graphics then appendSelectCharset slot true else [])
        (if graphics then [charsetEvent slot true] else []) :=
    fun slot hslot _ => .ite (emits_selectCharset hslot true)
  have hshift : Emits (if s.charset.shiftedOut then [kShiftOut] else [])
      (if s.charset.shiftedOut then [.execute kShiftOut] else []) :=
    .ite (emits_execute (by decide) (by decide))
  have hpart : Emits (appendScrollRegion s.region s.rows) [scrollRegionEvent s.region s.rows] :=
    emits_scrollRegion (by omega) (by omega)
  have hall := (emits_opening s)
    |>.append (emits_grid h)
    |>.append (emits_pen {})
    |>.append (emits_title h.title.1 h.title.2)
    |>.append (emits_privateMode (by decide : 5 ≤ 65535) s.modes.reverseVideo)
    |>.append (emits_privateMode (by decide : 1 ≤ 65535) s.modes.applicationCursor)
    |>.append (emits_privateMode (by decide : 2004 ≤ 65535) s.modes.bracketedPaste)
    |>.append (emits_privateMode (by decide : 1000 ≤ 65535) s.modes.mouseReporting)
    |>.append hkeypad
    |>.append (emits_ansiMode (by decide : 4 ≤ 65535) s.modes.insert)
    |>.append hpart
    |>.append (emits_privateMode (by decide : 6 ≤ 65535) s.modes.origin)
    |>.append (emits_cup (by omega : cursorRow s + 1 ≤ 65535) (by omega : s.cursor.col + 1 ≤ 65535))
    |>.append (emits_privateMode (by decide : 7 ≤ 65535) s.modes.autoWrap)
    |>.append (emits_privateMode (by decide : 25 ≤ 65535) s.cursor.visible)
    |>.append (hslot 0x28 (by decide) s.charset.graphicsG0)
    |>.append (hslot 0x29 (by decide) s.charset.graphicsG1)
    |>.append hshift
    |>.append (emits_pen s.pen)
  -- the bytes are these; the events differ in how their lists are grouped
  refine Eq.subst (motive := fun es => Emits (renderScreen s) es) ?_ hall
  simp only [repaintEvents, closingEvents, List.append_assoc, List.cons_append, List.nil_append]

end Repaint

end Deskhub
