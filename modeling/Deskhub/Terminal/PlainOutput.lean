import Deskhub.Terminal.ScreenResize

/-!
# Plain output

What characters, carriage returns and line feeds give on a page without an end, and that the
screen shows the last of it: the scrollback and the grid together are the last rows of the page.
-/

namespace Deskhub

/-! ## The page -/

/-- Plain output: characters, CR and LF. -/
inductive PlainItem where
  | char (cp : Nat)
  | carriageReturn
  | lineFeed
deriving DecidableEq, Repr

namespace PlainItem

def bytes : PlainItem → Bytes
  | .char cp => encodeUtf8 cp
  | .carriageReturn => [0x0D]
  | .lineFeed => [0x0A]

/-- The characters are printable. -/
def Ok : PlainItem → Prop
  | .char cp => Printable cp
  | .carriageReturn | .lineFeed => True

instance : (item : PlainItem) → Decidable item.Ok
  | .char cp => inferInstanceAs (Decidable (Printable cp))
  | .carriageReturn | .lineFeed => inferInstanceAs (Decidable True)

end PlainItem

/-- An endlessly tall page, with the place the next character goes to; `full` when the last
character went to the last column. -/
structure Page where
  cell : Nat → Nat → Cell := fun _ _ => {}
  row : Nat := 0
  col : Nat := 0
  full : Bool := false

namespace Page

def lineFeed (page : Page) : Page := { page with row := page.row + 1, full := false }

def carriageReturn (page : Page) : Page := { page with col := 0, full := false }

/-- A character behind one in the last column goes to the start of the next row. -/
def wrapped (page : Page) : Page :=
  if page.full then { page with row := page.row + 1, col := 0, full := false } else page

/-- A character at the place it goes to. -/
def put (page : Page) (cols cp : Nat) : Page :=
  { page with
    cell := fun r c => if r = page.row ∧ c = page.col then { ch := cp } else page.cell r c
    col := if cols ≤ page.col + 1 then page.col else page.col + 1
    full := decide (cols ≤ page.col + 1) }

def write (cols : Nat) (page : Page) : PlainItem → Page
  | .char cp => page.wrapped.put cols cp
  | .carriageReturn => page.carriageReturn
  | .lineFeed => page.lineFeed

def writeAll (cols : Nat) (items : List PlainItem) : Page := items.foldl (write cols) {}

/-- The first `cols` cells of a row. -/
def line (page : Page) (cols r : Nat) : Row := (List.range cols).map (page.cell r)

/-- The rows that were reached. -/
def lines (page : Page) (cols : Nat) : List Row := (List.range (page.row + 1)).map (page.line cols)

/-- How many of the rows that were reached do not fit on a screen. -/
def above (page : Page) (rows : Nat) : Nat := page.row + 1 - rows

/-- Nothing stands below the row that was reached last. -/
def Clear (page : Page) : Prop := ∀ r c, page.row < r → page.cell r c = {}

theorem clear_new : Page.Clear {} := fun _ _ _ => rfl

theorem Clear.write {page : Page} (h : page.Clear) (cols : Nat) (item : PlainItem) :
    (page.write cols item).Clear := by
  intro r c hr
  cases item with
  | carriageReturn => exact h r c hr
  | lineFeed => exact h r c (Nat.lt_of_succ_lt hr)
  | char cp =>
    have hwrapped : page.wrapped.Clear ∧ page.row ≤ page.wrapped.row := by
      unfold wrapped
      split
      · exact ⟨fun r c hr => h r c (Nat.lt_of_succ_lt hr), Nat.le_succ _⟩
      · exact ⟨h, Nat.le_refl _⟩
    show (if r = page.wrapped.row ∧ c = page.wrapped.col then _ else page.wrapped.cell r c) = _
    change page.wrapped.row < r at hr
    rw [if_neg (by omega)]
    exact hwrapped.1 r c hr

theorem line_clear {page : Page} (h : page.Clear) (cols : Nat) {r : Nat} (hr : page.row < r) :
    page.line cols r = List.replicate cols {} := by
  unfold line
  rw [List.eq_replicate_iff]
  refine ⟨by simp, ?_⟩
  intro c hc
  rcases List.mem_map.mp hc with ⟨i, -, rfl⟩
  exact h r i hr

/-- A character changes one cell of one row. -/
theorem line_put (page : Page) {cols : Nat} (cp r : Nat) :
    (page.put cols cp).line cols r =
      if r = page.row then (page.line cols r).set page.col { ch := cp } else page.line cols r := by
  split
  · next hrow =>
    apply List.ext_getElem
    · simp [line]
    · intro i hi hi'
      simp only [line, List.getElem_map, List.getElem_range, put, List.getElem_set, hrow, true_and]
      by_cases hcell : i = page.col
      · rw [if_pos hcell, if_pos hcell.symm]
      · rw [if_neg hcell, if_neg (Ne.symm hcell)]
  · next hrow =>
    apply List.map_congr_left
    intro c _
    exact if_neg fun h => hrow h.1

end Page

namespace Screen

/-! ## The screen on the page -/

/-- The screen shows the last rows of what was reached on the page, and its scrollback holds the
rows above. -/
structure OnPage (s : Screen) (page : Page) : Prop where
  modes : s.modes = {}
  pen : s.pen = {}
  charset : s.charset = {}
  primary : s.alternate = false
  region : s.region = { top := 0, bottom := s.rows - 1 }
  rows : 1 ≤ s.rows
  col : s.cursor.col = page.col
  inside : page.col < s.cols
  row : s.cursor.row + page.above s.rows = page.row
  wrap : s.pendingWrap = page.full
  clear : page.Clear
  grid : s.grid = (List.range' (page.above s.rows) s.rows).map (page.line s.cols)
  scrollback : s.scrollback =
    ((List.range (page.above s.rows)).map (page.line s.cols)).rtake s.scrollbackLimit

variable {s : Screen} {page : Page}

theorem onPage_new (size : TermSize) (limit : Nat) : OnPage (Screen.new size limit) {} := by
  have hsize := clampTermSize_ok size
  have hrows : 1 ≤ (Screen.new size limit).rows := hsize.rows.1
  have hcols : 1 ≤ (Screen.new size limit).cols := hsize.cols.1
  have habove : Page.above {} (Screen.new size limit).rows = 0 := by
    show 0 + 1 - (Screen.new size limit).rows = 0
    omega
  constructor
  case rows => exact hrows
  case inside => exact hcols
  case row =>
    rw [habove]
    rfl
  case clear => exact Page.clear_new
  case grid =>
    rw [habove]
    show List.replicate (Screen.new size limit).rows
      (List.replicate (Screen.new size limit).cols ({} : Cell)) = _
    symm
    rw [List.eq_replicate_iff]
    refine ⟨by simp, ?_⟩
    intro row hrow
    rcases List.mem_map.mp hrow with ⟨r, -, rfl⟩
    rw [Page.line, List.eq_replicate_iff]
    refine ⟨by simp, ?_⟩
    intro c hc
    rcases List.mem_map.mp hc with ⟨i, -, rfl⟩
    rfl
  case scrollback =>
    rw [habove]
    exact (List.rtake_nil _).symm
  all_goals rfl

theorem OnPage.carriageReturn (h : OnPage s page) : OnPage s.carriageReturn page.carriageReturn :=
  { h with
    col := rfl
    inside := Nat.lt_of_le_of_lt (Nat.zero_le _) h.inside
    wrap := rfl }

/-- The top row leaves to the scrollback, and a blank row comes in. -/
theorem OnPage.scrollUp (h : OnPage s page) :
    s.scrollUp 1 =
      { s with
        grid := s.grid.drop 1 ++ [List.replicate s.cols ({} : Cell)]
        scrollback := (s.scrollback ++ s.grid.take 1).rtake s.scrollbackLimit } := by
  have hrows := h.rows
  have hlen : s.grid.length = s.rows := by
    rw [h.grid]
    simp
  have htop : s.region.top = 0 := by rw [h.region]
  have hbottom : s.region.bottom + 1 = s.rows := by
    rw [h.region]
    exact Nat.sub_add_cancel hrows
  have hregion : s.regionRows = s.grid := by
    unfold regionRows
    rw [htop, List.drop_zero, Nat.sub_zero, hbottom, ← hlen, List.take_length]
  have hone : min 1 (s.region.bottom - s.region.top + 1) = 1 := by omega
  have hblank : s.blankRow = List.replicate s.cols ({} : Cell) := by
    unfold blankRow blankCell
    rw [h.pen]
  have hkept : s.scrollback.length ≤ s.scrollbackLimit := by
    rw [h.scrollback]
    exact length_rtake_le _ _
  have hscrollback : (s.scrollUp 1).scrollback =
      (s.scrollback ++ s.grid.take 1).rtake s.scrollbackLimit := by
    rw [← pushAll_scrollback _ hkept]
    unfold Screen.scrollUp
    dsimp only
    rw [hone, hregion, if_pos ⟨htop, by simp [h.primary]⟩]
    rfl
  rw [scrollUp_eq, hscrollback, hone, hregion, hblank, htop, hbottom, ← hlen, List.drop_length,
    List.take_zero, List.append_nil]
  rfl

/-- The rows of a screen whose top is moved down by one. -/
theorem drop_lines (f : Nat → Row) {rows : Nat} (hrows : 1 ≤ rows) (o : Nat) :
    ((List.range' o rows).map f).drop 1 ++ [f (o + rows)] = (List.range' (o + 1) rows).map f := by
  obtain ⟨n, rfl⟩ : ∃ n, rows = n + 1 := ⟨rows - 1, by omega⟩
  rw [List.range'_succ, List.range'_concat, List.map_cons, List.map_append]
  simp only [List.drop_succ_cons, List.drop_zero, List.map_cons, List.map_nil]
  congr 3
  omega

theorem OnPage.lineFeed (h : OnPage s page) : OnPage s.lineFeed page.lineFeed := by
  have hrows := h.rows
  have hrow := h.row
  have hcleared : OnPage { s with pendingWrap := false } { page with full := false } := { h with wrap := rfl }
  have hclear : page.lineFeed.Clear := h.clear.write 0 .lineFeed
  have hregion : s.region.bottom = s.rows - 1 := by rw [h.region]
  unfold Screen.lineFeed
  dsimp only
  by_cases hbottom : s.cursor.row = s.region.bottom
  · -- the last row of the screen: everything moves up by one
    have habove : page.lineFeed.above s.rows = page.above s.rows + 1 := by
      unfold Page.above Page.lineFeed at *
      dsimp only
      omega
    have hnext : page.above s.rows + s.rows = page.row + 1 := by
      unfold Page.above at *
      omega
    have hblank : page.line s.cols (page.above s.rows + s.rows) = List.replicate s.cols {} :=
      Page.line_clear h.clear s.cols (by omega)
    have hfirst : s.grid.take 1 = [page.line s.cols (page.above s.rows)] := by
      obtain ⟨n, hn⟩ : ∃ n, s.rows = n + 1 := ⟨s.rows - 1, by omega⟩
      rw [h.grid, hn, List.range'_succ]
      rfl
    rw [if_pos hbottom, hcleared.scrollUp]
    refine { h with row := ?_, wrap := rfl, clear := hclear, grid := ?_, scrollback := ?_ }
    · show s.cursor.row + page.lineFeed.above s.rows = page.row + 1
      omega
    · show s.grid.drop 1 ++ [List.replicate s.cols ({} : Cell)] =
        (List.range' (page.lineFeed.above s.rows) s.rows).map (page.line s.cols)
      rw [habove, ← hblank, h.grid]
      exact drop_lines _ hrows _
    · show (s.scrollback ++ s.grid.take 1).rtake s.scrollbackLimit =
        ((List.range (page.lineFeed.above s.rows)).map (page.line s.cols)).rtake s.scrollbackLimit
      rw [habove, hfirst, h.scrollback, rtake_append_rtake, List.range_succ, List.map_append]
      rfl
  · -- a row further down, and nothing above the screen yet
    have hnone : page.above s.rows = 0 ∧ page.lineFeed.above s.rows = 0 := by
      unfold Page.above Page.lineFeed at *
      dsimp only
      omega
    have hroom : s.cursor.row + 1 < ({ s with pendingWrap := false } : Screen).rows := by
      show s.cursor.row + 1 < s.rows
      unfold Page.above at *
      omega
    rw [if_neg hbottom, if_pos hroom]
    refine { h with row := ?_, wrap := rfl, clear := hclear, grid := ?_, scrollback := ?_ }
    · show s.cursor.row + 1 + page.lineFeed.above s.rows = page.row + 1
      omega
    · show s.grid = (List.range' (page.lineFeed.above s.rows) s.rows).map (page.line s.cols)
      rw [hnone.2, ← hnone.1]
      exact h.grid
    · show s.scrollback =
        ((List.range (page.lineFeed.above s.rows)).map (page.line s.cols)).rtake s.scrollbackLimit
      rw [hnone.2, ← hnone.1]
      exact h.scrollback

theorem OnPage.wrapPending (h : OnPage s page) : OnPage s.wrapPending page.wrapped := by
  have hmodes : s.modes.autoWrap = true := by rw [h.modes]
  have hfirst : OnPage (s.setCol 0) { page with col := 0 } :=
    { h with
      col := rfl
      inside := Nat.lt_of_le_of_lt (Nat.zero_le _) h.inside }
  unfold Screen.wrapPending Page.wrapped
  dsimp only
  rw [hmodes, Bool.and_true, h.wrap]
  cases hfull : page.full with
  | true =>
    have hfed := hfirst.lineFeed
    exact { hfed with wrap := rfl }
  | false => exact { h with wrap := hfull.symm }

/-- A character goes to its place. -/
theorem OnPage.put (h : OnPage s page) (hwrap : page.full = false) (cp : Nat) :
    OnPage (s.setRow s.cursor.row (s.printedRow cp)).advance (page.put s.cols cp) := by
  have hrows := h.rows
  have hrow := h.row
  have hinside := h.inside
  have hbelow : s.cursor.row < s.rows := by
    unfold Page.above at hrow
    omega
  have habove : page.above s.rows ≤ page.row := by omega
  have hline : s.rowAt s.cursor.row = page.line s.cols page.row := by
    unfold rowAt
    rw [h.grid, List.getD_eq_getElem _ _ (by simpa using hbelow), List.getElem_map, List.getElem_range']
    congr 1
    omega
  have hglyph : s.glyph cp = cp := by
    unfold glyph
    rw [h.charset]
    rfl
  have hprinted : s.printedRow cp = (page.line s.cols page.row).set page.col { ch := cp } := by
    unfold printedRow
    dsimp only
    rw [h.modes, hline, hglyph, h.pen, h.col]
    rfl
  have hgrid : s.grid.set s.cursor.row (s.printedRow cp) =
      (List.range' (page.above s.rows) s.rows).map ((page.put s.cols cp).line s.cols) := by
    rw [hprinted, h.grid]
    apply List.ext_getElem
    · simp
    · intro i hi hi'
      simp only [List.getElem_set, List.getElem_map, List.getElem_range', Nat.one_mul,
        Page.line_put]
      by_cases hcell : s.cursor.row = i
      · have hthis : page.above s.rows + i = page.row := by omega
        rw [if_pos hcell, if_pos hthis, hthis]
      · rw [if_neg hcell, if_neg (by omega)]
  have hscrollback : ((List.range (page.above s.rows)).map ((page.put s.cols cp).line s.cols)) =
      (List.range (page.above s.rows)).map (page.line s.cols) := by
    apply List.map_congr_left
    intro r hr
    rw [List.mem_range] at hr
    rw [Page.line_put, if_neg (by omega)]
  have hclear : (page.put s.cols cp).Clear := by
    have hnext := h.clear.write s.cols (.char cp)
    unfold Page.write Page.wrapped at hnext
    rwa [hwrap] at hnext
  unfold advance
  by_cases hlast : s.cols ≤ page.col + 1
  · have hcol : (page.put s.cols cp).col = page.col := if_pos hlast
    rw [if_pos (show (s.setRow _ _).cols ≤ (s.setRow _ _).cursor.col + 1 by
      show s.cols ≤ s.cursor.col + 1
      rw [h.col]
      exact hlast)]
    refine
      { h with
        col := h.col.trans hcol.symm
        inside := hcol.symm ▸ hinside
        wrap := (decide_eq_true hlast).symm
        clear := hclear
        grid := hgrid
        scrollback := ?_ }
    exact h.scrollback.trans (congrArg (List.rtake · s.scrollbackLimit) hscrollback.symm)
  · have hcol : (page.put s.cols cp).col = page.col + 1 := if_neg hlast
    rw [if_neg (show ¬ (s.setRow _ _).cols ≤ (s.setRow _ _).cursor.col + 1 by
      show ¬ s.cols ≤ s.cursor.col + 1
      rw [h.col]
      exact hlast)]
    refine
      { h with
        col := ?_
        inside := ?_
        wrap := ?_
        clear := hclear
        grid := hgrid
        scrollback := ?_ }
    · show s.cursor.col + 1 = (page.put s.cols cp).col
      rw [hcol, h.col]
    · show (page.put s.cols cp).col < s.cols
      omega
    · exact (h.wrap.trans hwrap).trans (decide_eq_false hlast).symm
    · exact h.scrollback.trans (congrArg (List.rtake · s.scrollbackLimit) hscrollback.symm)

theorem OnPage.print (h : OnPage s page) (cp : Nat) :
    OnPage (s.print cp) (page.wrapped.put s.cols cp) := by
  have hwrapped := h.wrapPending
  have hcols : s.wrapPending.cols = s.cols :=
    congrArg TermSize.cols (beside_wrapPending (K := True) (H := True) s).size
  have hnone : page.wrapped.full = false := by
    unfold Page.wrapped
    split
    · rfl
    · next hfull => exact Bool.eq_false_iff.mpr hfull
  have hinside : ¬ s.wrapPending.cols ≤ s.wrapPending.cursor.col := by
    rw [hwrapped.col]
    exact Nat.not_le.mpr hwrapped.inside
  unfold Screen.print
  dsimp only
  rw [if_neg hinside, ← hcols]
  exact hwrapped.put hnone cp

/-- The event of a plain item. -/
def itemEvent : PlainItem → VtEvent
  | .char cp => .print cp
  | .carriageReturn => .execute 0x0D
  | .lineFeed => .execute 0x0A

/-- The screen is as large as it was, with the same room in the scrollback. -/
structure SameRoom (s t : Screen) : Prop where
  size : t.size = s.size
  limit : t.scrollbackLimit = s.scrollbackLimit

theorem SameRoom.trans {t u : Screen} (h : SameRoom s t) (h' : SameRoom t u) : SameRoom s u :=
  ⟨h'.size.trans h.size, h'.limit.trans h.limit⟩

theorem SameRoom.cols {t : Screen} (h : SameRoom s t) : t.cols = s.cols := congrArg TermSize.cols h.size

theorem OnPage.apply (h : OnPage s page) (item : PlainItem) :
    OnPage (s.apply (itemEvent item)) (page.write s.cols item) ∧
      SameRoom s (s.apply (itemEvent item)) ∧ (s.apply (itemEvent item)).parser = s.parser := by
  cases item with
  | carriageReturn => exact ⟨h.carriageReturn, ⟨rfl, rfl⟩, rfl⟩
  | lineFeed =>
    have hpage := h.lineFeed
    rcases s.lineFeed_eq with ⟨grid, scrollback, row, hfed⟩
    show OnPage s.lineFeed page.lineFeed ∧ SameRoom s s.lineFeed ∧ s.lineFeed.parser = s.parser
    refine ⟨hpage, ?_⟩
    rw [hfed]
    exact ⟨⟨rfl, rfl⟩, rfl⟩
  | char cp =>
    have hpage := h.print cp
    rcases s.print_eq cp with ⟨grid, scrollback, row, col, wrap, hprint⟩
    show OnPage (s.print cp) _ ∧ SameRoom s (s.print cp) ∧ (s.print cp).parser = s.parser
    refine ⟨hpage, ?_⟩
    rw [hprint]
    exact ⟨⟨rfl, rfl⟩, rfl⟩

theorem OnPage.applyAll (h : OnPage s page) (items : List PlainItem) :
    OnPage (s.applyAll (items.map itemEvent)) (items.foldl (Page.write s.cols) page) ∧
      SameRoom s (s.applyAll (items.map itemEvent)) ∧
      (s.applyAll (items.map itemEvent)).parser = s.parser := by
  induction items generalizing s page with
  | nil => exact ⟨h, ⟨rfl, rfl⟩, rfl⟩
  | cons item items ih =>
    rcases h.apply item with ⟨hnext, hroom, hparser⟩
    rcases ih hnext with ⟨hpage, hroom', hparser'⟩
    rw [hroom.cols] at hpage
    exact ⟨hpage, hroom.trans hroom', hparser'.trans hparser⟩

/-- A chunk of plain output, which may begin and end in the middle of a character. -/
theorem OnPage.write (h : OnPage s page) {bytes : Bytes} {items : List PlainItem}
    (hevents : (s.parser.parse bytes).2 = items.map itemEvent) :
    OnPage (s.write bytes) (items.foldl (Page.write s.cols) page) ∧ SameRoom s (s.write bytes) ∧
      (s.write bytes).parser = (s.parser.parse bytes).1 := by
  by_cases hnil : bytes = []
  · subst hnil
    have hnone : items = [] := List.map_eq_nil_iff.mp hevents.symm
    subst hnone
    exact ⟨h, ⟨rfl, rfl⟩, rfl⟩
  · have hparsed : OnPage { s with parser := (s.parser.parse bytes).1 } page := { h with }
    rcases hparsed.applyAll items with ⟨hpage, hroom, hparser⟩
    unfold Screen.write
    rw [if_neg hnil]
    dsimp only
    rw [hevents]
    exact ⟨{ hpage with }, ⟨hroom.size, hroom.limit⟩, hparser⟩

theorem OnPage.writes (h : OnPage s page) {chunks : List Bytes} {items : List PlainItem}
    (hevents : (s.parser.parse chunks.flatten).2 = items.map itemEvent) :
    OnPage (chunks.foldl Screen.write s) (items.foldl (Page.write s.cols) page) ∧
      SameRoom s (chunks.foldl Screen.write s) := by
  induction chunks generalizing s page items with
  | nil =>
    have hnone : items = [] := List.map_eq_nil_iff.mp hevents.symm
    subst hnone
    exact ⟨h, ⟨rfl, rfl⟩⟩
  | cons chunk chunks ih =>
    -- the items whose events this chunk emits, and the rest
    rw [List.flatten_cons, VtParser.parse_append] at hevents
    rcases List.map_eq_append_iff.mp hevents.symm with ⟨first, rest, rfl, hfirst, hrest⟩
    rcases h.write hfirst.symm with ⟨hpage, hroom, hparser⟩
    rw [← hparser] at hrest
    rcases ih hpage hrest.symm with ⟨hend, hroom'⟩
    rw [hroom.cols] at hend
    rw [List.foldl_append]
    exact ⟨hend, hroom.trans hroom'⟩

/-! ## The last rows of the page -/

theorem emits_items {items : List PlainItem} (hok : ∀ item ∈ items, item.Ok) :
    VtParser.Emits (items.map PlainItem.bytes).flatten (items.map itemEvent) := by
  induction items with
  | nil => exact .nil
  | cons item items ih =>
    have hitem : VtParser.Emits item.bytes [itemEvent item] := by
      cases item with
      | char cp => exact VtParser.emits_encodeUtf8 (hok (.char cp) (by simp))
      | carriageReturn => exact VtParser.emits_execute (by decide) (by decide)
      | lineFeed => exact VtParser.emits_execute (by decide) (by decide)
    rw [List.map_cons, List.flatten_cons, List.map_cons]
    exact hitem.append (ih fun item' hmem => hok item' (by simp [hmem]))

theorem rtake_append_right {α : Type} (xs ys : List α) (n : Nat) :
    (xs ++ ys).rtake (n + ys.length) = xs.rtake n ++ ys := by
  unfold List.rtake
  rw [List.length_append, Nat.add_sub_add_right, List.drop_append_of_le_length (Nat.sub_le _ _)]

/-- The scrollback and the grid of a screen that shows the end of a page. -/
theorem OnPage.lines_eq (h : OnPage s page) :
    s.scrollback ++ s.grid =
      (page.lines s.cols).rtake (s.scrollbackLimit + s.rows) ++
        List.replicate (s.rows - (page.row + 1)) (List.replicate s.cols ({} : Cell)) := by
  have hrows := h.rows
  rw [h.scrollback, h.grid]
  unfold Page.lines
  by_cases hfits : page.row + 1 < s.rows
  · -- nothing left the screen, and blank rows are below
    have habove : page.above s.rows = 0 := by
      unfold Page.above
      omega
    have hbelow : (List.range' (page.row + 1) (s.rows - (page.row + 1))).map (page.line s.cols) =
        List.replicate (s.rows - (page.row + 1)) (List.replicate s.cols ({} : Cell)) := by
      rw [List.eq_replicate_iff]
      refine ⟨by simp, ?_⟩
      intro row hrow
      rcases List.mem_map.mp hrow with ⟨r, hr, rfl⟩
      have hlow := (List.mem_range'_1.mp hr).1
      exact Page.line_clear h.clear s.cols (by omega)
    have hsplit : List.range' 0 s.rows =
        List.range (page.row + 1) ++ List.range' (page.row + 1) (s.rows - (page.row + 1)) := by
      have hsum := List.range'_append_1 (s := 0) (m := page.row + 1) (n := s.rows - (page.row + 1))
      rw [Nat.zero_add] at hsum
      rw [List.range_eq_range', hsum]
      congr 1
      omega
    have hall : ((List.range (page.row + 1)).map (page.line s.cols)).rtake
        (s.scrollbackLimit + s.rows) = (List.range (page.row + 1)).map (page.line s.cols) :=
      rtake_of_length_le (by simp; omega)
    rw [habove, hsplit, List.map_append, hbelow, hall]
    simp
  · have hnone : s.rows - (page.row + 1) = 0 := by omega
    have hsplit : List.range (page.row + 1) =
        List.range (page.above s.rows) ++ List.range' (page.above s.rows) s.rows := by
      have hsum : page.row + 1 = page.above s.rows + s.rows := by
        unfold Page.above
        omega
      have hjoin := List.range'_append_1 (s := 0) (m := page.above s.rows) (n := s.rows)
      rw [Nat.zero_add] at hjoin
      rw [hsum, List.range_eq_range', List.range_eq_range', hjoin]
    have hlen : ((List.range' (page.above s.rows) s.rows).map (page.line s.cols)).length = s.rows := by simp
    have hlast := rtake_append_right ((List.range (page.above s.rows)).map (page.line s.cols))
      ((List.range' (page.above s.rows) s.rows).map (page.line s.cols)) s.scrollbackLimit
    rw [hlen] at hlast
    rw [hnone, List.replicate_zero, List.append_nil, hsplit, List.map_append, hlast]

/-- What is kept of plain output: the rows of the page that the scrollback and the grid have room
for, with blank rows below when fewer were reached, and the cursor where it is on the page. -/
structure KeepsLines (limit : Nat) (size : TermSize) (page : Page) (s : Screen) : Prop where
  lines : s.scrollback ++ s.grid =
    (page.lines size.cols).rtake (limit + size.rows) ++
      List.replicate (size.rows - (page.row + 1)) (List.replicate size.cols ({} : Cell))
  row : s.cursor.row + (page.row + 1 - size.rows) = page.row
  col : s.cursor.col = page.col

/-- Plain output is kept line by line: characters, CR and LF, written to a new screen in any
chunks, leave the last rows of what they give on an endless page. -/
theorem plainOutput_keepsLines (size : TermSize) (limit : Nat) {items : List PlainItem}
    (hok : ∀ item ∈ items, item.Ok) {chunks : List Bytes}
    (hchunks : chunks.flatten = (items.map PlainItem.bytes).flatten) :
    KeepsLines (min limit kMaxScrollback) (clampTermSize size)
      (Page.writeAll (clampTermSize size).cols items)
      (chunks.foldl Screen.write (Screen.new size limit)) := by
  have hemits := emits_items hok {} ⟨rfl, rfl⟩
  rw [← hchunks] at hemits
  rcases (onPage_new size limit).writes hemits.1 with ⟨hpage, hroom⟩
  have hsize : (chunks.foldl Screen.write (Screen.new size limit)).size = clampTermSize size := hroom.size
  have hlimit : (chunks.foldl Screen.write (Screen.new size limit)).scrollbackLimit =
      min limit kMaxScrollback := hroom.limit
  have hlines := hpage.lines_eq
  have hrow := hpage.row
  unfold Screen.rows Screen.cols at hlines hrow
  rw [hsize, hlimit] at hlines
  rw [hsize] at hrow
  exact ⟨hlines, hrow, hpage.col⟩

/-- A wrapped line, a line feed below the last row, and a character of two bytes that the chunks
cut in the middle. -/
theorem plainOutput_keepsLines_cut :
    KeepsLines (min 1 kMaxScrollback) (clampTermSize { cols := 2, rows := 2 })
      (Page.writeAll (clampTermSize { cols := 2, rows := 2 }).cols
        [.char 0x61, .char 0xE9, .char 0x62, .carriageReturn, .lineFeed, .char 0x63])
      ([[0x61, 0xC3], [0xA9, 0x62, 0x0D], [], [0x0A, 0x63]].foldl Screen.write
        (Screen.new { cols := 2, rows := 2 } 1)) :=
  plainOutput_keepsLines { cols := 2, rows := 2 } 1 (by decide +kernel) (by decide +kernel)

end Screen

end Deskhub
