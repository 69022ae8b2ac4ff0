import Deskhub.Terminal.PlainOutput
import Deskhub.Terminal.Snapshot

/-!
# A window that is scrolled up

The offset of a window counts from the end of the scrollback. Plain output puts rows at that end,
and as long as there is room the anchor adds them to the offset. Once the scrollback is full, each
row that comes in pushes one out at the front: the count of rows stays, the anchor sees nothing,
and the window goes on by a row.
-/

namespace Deskhub

namespace Screen

/-! ## The rows that plain output moves off the screen -/

/-- The row that a line feed moves off the top. -/
def fedRow (s : Screen) : List Row := if s.cursor.row = s.region.bottom then s.grid.take 1 else []

/-- The row that an item moves off the top. -/
def movedBy (s : Screen) : PlainItem → List Row
  | .char _ => if s.pendingWrap && s.modes.autoWrap then s.fedRow else []
  | .carriageReturn => []
  | .lineFeed => s.fedRow

/-- The rows that plain output moves off the top, one after the other. -/
def movedOff (s : Screen) : List PlainItem → List Row
  | [] => []
  | item :: items => s.movedBy item ++ (s.apply (itemEvent item)).movedOff items

/-- The primary screen with the whole of it as scroll region. -/
structure Whole (s : Screen) : Prop where
  primary : s.alternate = false
  region : s.region = { top := 0, bottom := s.rows - 1 }
  rows : 1 ≤ s.rows
  grid : s.grid.length = s.rows
  room : s.scrollback.length ≤ s.scrollbackLimit

/-- From `s` to `t` these rows left the top of a screen that is whole. -/
structure Moves (s t : Screen) (lines : List Row) : Prop where
  whole : t.Whole
  size : t.size = s.size
  limit : t.scrollbackLimit = s.scrollbackLimit
  scrollback : t.scrollback = (s.scrollback ++ lines).rtake s.scrollbackLimit

variable {s t u : Screen} {lines lines' : List Row}

/-- What is above the grid stays, and the grid keeps its rows. -/
theorem Whole.stays (h : s.Whole) (hsize : t.size = s.size) (hlimit : t.scrollbackLimit = s.scrollbackLimit)
    (halternate : t.alternate = s.alternate) (hregion : t.region = s.region)
    (hgrid : t.grid.length = s.grid.length) (hscrollback : t.scrollback = s.scrollback) :
    Moves s t [] := by
  have hrows : t.rows = s.rows := congrArg TermSize.rows hsize
  refine ⟨⟨halternate.trans h.primary, ?_, ?_, ?_, ?_⟩, hsize, hlimit, ?_⟩
  · rw [hregion, h.region, hrows]
  · rw [hrows]
    exact h.rows
  · rw [hgrid, h.grid, hrows]
  · rw [hscrollback, hlimit]
    exact h.room
  · rw [List.append_nil, hscrollback]
    exact (rtake_of_length_le h.room).symm

theorem Moves.trans (h : Moves s t lines) (h' : Moves t u lines') : Moves s u (lines ++ lines') := by
  refine ⟨h'.whole, h'.size.trans h.size, h'.limit.trans h.limit, ?_⟩
  rw [h'.scrollback, h.scrollback, h.limit, rtake_append_rtake, List.append_assoc]

/-- The top row goes to the scrollback, and a blank row comes in. -/
theorem Whole.scrollUp (h : s.Whole) : Moves s (s.scrollUp 1) (s.grid.take 1) := by
  have hrows := h.rows
  have hlen := h.grid
  have htop : s.region.top = 0 := by rw [h.region]
  have hbottom : s.region.bottom + 1 = s.rows := by
    rw [h.region]
    exact Nat.sub_add_cancel hrows
  have hregion : s.regionRows = s.grid := by
    unfold regionRows
    rw [htop, List.drop_zero, Nat.sub_zero, hbottom, ← hlen, List.take_length]
  have hone : min 1 (s.region.bottom - s.region.top + 1) = 1 := by omega
  have hscrollback : (s.scrollUp 1).scrollback =
      (s.scrollback ++ s.grid.take 1).rtake s.scrollbackLimit := by
    rw [← pushAll_scrollback _ h.room]
    unfold Screen.scrollUp
    dsimp only
    rw [hone, hregion, if_pos ⟨htop, by simp [h.primary]⟩]
    rfl
  have hgrid : (s.scrollUp 1).grid.length = s.rows := by
    rw [scrollUp_eq, hone, hregion, htop, hbottom]
    simp only [List.take_zero, List.nil_append, List.length_append, List.length_drop,
      List.length_replicate]
    omega
  have hroom : (s.scrollUp 1).scrollback.length ≤ s.scrollbackLimit := by
    rw [hscrollback]
    exact length_rtake_le _ _
  rw [scrollUp_eq] at hgrid ⊢
  exact ⟨⟨h.primary, h.region, hrows, hgrid, hroom⟩, rfl, rfl, hscrollback⟩

theorem Whole.lineFeed (h : s.Whole) : Moves s s.lineFeed s.fedRow := by
  have hcleared : Moves s { s with pendingWrap := false } [] := h.stays rfl rfl rfl rfl rfl rfl
  unfold Screen.lineFeed fedRow
  dsimp only
  by_cases hbottom : s.cursor.row = s.region.bottom
  · rw [if_pos hbottom, if_pos hbottom]
    exact hcleared.trans hcleared.whole.scrollUp
  · rw [if_neg hbottom, if_neg hbottom]
    split
    · exact h.stays rfl rfl rfl rfl rfl rfl
    · exact hcleared

/-- Only the wrap that a character makes moves a row off. -/
theorem Whole.print (h : s.Whole) (cp : Nat) : Moves s (s.print cp) (s.movedBy (.char cp)) := by
  have hwrap : Moves s s.wrapPending (s.movedBy (.char cp)) := by
    unfold Screen.wrapPending movedBy
    dsimp only
    by_cases hpending : (s.pendingWrap && s.modes.autoWrap) = true
    · rw [if_pos hpending, if_pos hpending]
      have hfirst : Moves s (s.setCol 0) [] := h.stays rfl rfl rfl rfl rfl rfl
      have hfed : Moves s (s.setCol 0).lineFeed s.fedRow := hfirst.trans hfirst.whole.lineFeed
      rw [← List.append_nil s.fedRow]
      exact hfed.trans (hfed.whole.stays rfl rfl rfl rfl rfl rfl)
    · rw [if_neg hpending, if_neg hpending]
      exact h.stays rfl rfl rfl rfl rfl rfl
  have hplaced : ∀ {t : Screen}, t.Whole →
      Moves t (if t.cols ≤ t.cursor.col then t.setCol (t.cols - 1) else t) [] := by
    intro t ht
    split
    · exact ht.stays rfl rfl rfl rfl rfl rfl
    · exact ht.stays rfl rfl rfl rfl rfl rfl
  have hprinted : ∀ {t : Screen}, t.Whole →
      Moves t (t.setRow t.cursor.row (t.printedRow cp)).advance [] := by
    intro t ht
    have hlen : (t.grid.set t.cursor.row (t.printedRow cp)).length = t.grid.length := List.length_set
    unfold advance
    split
    · exact ht.stays rfl rfl rfl rfl hlen rfl
    · exact ht.stays rfl rfl rfl rfl hlen rfl
  have hput := hwrap.trans (hplaced hwrap.whole)
  have hdone := hput.trans (hprinted hput.whole)
  rw [List.append_nil, List.append_nil] at hdone
  exact hdone

theorem Whole.apply (h : s.Whole) (item : PlainItem) :
    Moves s (s.apply (itemEvent item)) (s.movedBy item) := by
  cases item with
  | char cp => exact h.print cp
  | carriageReturn => exact h.stays rfl rfl rfl rfl rfl rfl
  | lineFeed => exact h.lineFeed

theorem Whole.applyAll (h : s.Whole) (items : List PlainItem) :
    Moves s (s.applyAll (items.map itemEvent)) (s.movedOff items) := by
  induction items generalizing s with
  | nil => exact h.stays rfl rfl rfl rfl rfl rfl
  | cons item items ih =>
    have hfirst := h.apply item
    exact hfirst.trans (ih hfirst.whole)

/-- Two screens that show the same move the same rows off. -/
theorem Shows.movedBy (h : Shows s t) (item : PlainItem) : s.movedBy item = t.movedBy item := by
  rcases h.behind with ⟨limit, scrollback, parser, response, revision, rfl⟩
  cases item with
  | char cp => rfl
  | carriageReturn => rfl
  | lineFeed => rfl

theorem Shows.movedOff (h : Shows s t) (items : List PlainItem) : s.movedOff items = t.movedOff items := by
  induction items generalizing s t with
  | nil => rfl
  | cons item items ih =>
    unfold Screen.movedOff
    rw [h.movedBy item, ih (h.apply (itemEvent item))]

/-- Output that the parser reads as characters, CR and LF. -/
theorem Whole.write (h : s.Whole) {bytes : Bytes} {items : List PlainItem}
    (hevents : (s.parser.parse bytes).2 = items.map itemEvent) :
    Moves s (s.write bytes) (s.movedOff items) := by
  by_cases hnil : bytes = []
  · subst hnil
    have hnone : items = [] := List.map_eq_nil_iff.mp hevents.symm
    subst hnone
    exact h.stays rfl rfl rfl rfl rfl rfl
  · have hparsed : Moves s { s with parser := (s.parser.parse bytes).1 } [] := h.stays rfl rfl rfl rfl rfl rfl
    have hmoved := hparsed.trans (hparsed.whole.applyAll items)
    have hshows : Shows { s with parser := (s.parser.parse bytes).1 } s := rfl
    rw [List.nil_append, hshows.movedOff items] at hmoved
    have hwritten : Moves s (s.write bytes) (s.movedOff items ++ []) := by
      unfold Screen.write
      rw [if_neg hnil]
      dsimp only
      rw [hevents]
      exact hmoved.trans (hmoved.whole.stays rfl rfl rfl rfl rfl rfl)
    rwa [List.append_nil] at hwritten

/-! ## The line at the top of the window -/

/-- The rows that plain output pushes out of the scrollback. -/
def evicted (s : Screen) (items : List PlainItem) : Nat :=
  s.scrollback.length + (s.movedOff items).length - s.scrollbackLimit

/-- The line at the top of a window that is scrolled up, counted from the oldest one kept. -/
def topLine (s : Screen) (o : Nat) : Nat := s.scrollback.length - o

/-- A line of those in the scrollback and those moved off behind them, at the screen's width. -/
def lineOf (s : Screen) (items : List PlainItem) (line : Nat) : Row :=
  resizeRow ((s.scrollback ++ s.movedOff items).getD line []) s.cols {}

/-- The window that follows the screen from `s` to `t`. -/
def anchored (s t : Screen) (o : Nat) : Nat :=
  anchorScroll o (s.snapshot o).scrollbackRows (t.snapshot o).scrollbackRows

/-- The anchored window starts with the line that now is where the old one was counted from the
oldest line: as many lines further down as were pushed out. -/
theorem Moves.anchored_top {items : List PlainItem} (hs : s.Whole) (h : Moves s t (s.movedOff items))
    {o : Nat} (ho : 0 < o) (hle : o ≤ s.scrollback.length) :
    (t.snapshot (s.anchored t o)).rowAt 0 = s.lineOf items (s.topLine o + s.evicted items) := by
  have hroom := hs.room
  have hcols : t.cols = s.cols := congrArg TermSize.cols h.size
  have hkept : t.scrollback = (s.scrollback ++ s.movedOff items).drop (s.evicted items) := by
    rw [h.scrollback, List.rtake, List.length_append]
    rfl
  have hcount : t.scrollback.length + s.evicted items =
      s.scrollback.length + (s.movedOff items).length := by
    rw [hkept, List.length_drop, List.length_append]
    unfold evicted
    omega
  have hgrows : s.scrollback.length ≤ t.scrollback.length := by
    unfold evicted at hcount
    omega
  have hanchored : s.anchored t o = o + (t.scrollback.length - s.scrollback.length) := by
    unfold anchored anchorScroll
    rw [snapshot_scrollbackRows hs.primary, snapshot_scrollbackRows h.whole.primary]
    split
    · omega
    · rfl
  have hline : t.scrollback.length - s.anchored t o = s.topLine o := by
    unfold topLine
    omega
  rw [snapshot_top h.whole.primary h.whole.rows (by omega) (by omega), hline]
  unfold historyRow lineOf
  rw [hkept, hcols, List.getD_eq_getElem?_getD, List.getElem?_drop, Nat.add_comm (s.evicted items),
    ← List.getD_eq_getElem?_getD]

theorem Reachable.whole (h : s.Reachable) (hprimary : s.alternate = false)
    (hregion : s.region = { top := 0, bottom := s.rows - 1 }) : s.Whole :=
  ⟨hprimary, hregion, h.wf.size.rows.1, h.wf.grid.1, h.held.scrollback⟩

/-- The window stays on its line: the anchored window starts with what the old one started with,
or that line was pushed out. -/
def StaysOnLine (s : Screen) (items : List PlainItem) (bytes : Bytes) (o : Nat) : Prop :=
  s.topLine o < s.evicted items ∨
    ((s.write bytes).snapshot (s.anchored (s.write bytes) o)).rowAt 0 = (s.snapshot o).rowAt 0

/-- A window that is scrolled up stays on its line while plain output arrives exactly if no row is
pushed out of the scrollback, or so many that the line itself is, or the line that many further
down reads the same. -/
theorem scrollAnchor_iff (h : s.Reachable) (hprimary : s.alternate = false)
    (hregion : s.region = { top := 0, bottom := s.rows - 1 }) {bytes : Bytes} {items : List PlainItem}
    (hevents : (s.parser.parse bytes).2 = items.map itemEvent) {o : Nat} (ho : 0 < o)
    (hle : o ≤ s.scrollback.length) :
    StaysOnLine s items bytes o ↔
      s.evicted items = 0 ∨ s.topLine o < s.evicted items ∨
        s.lineOf items (s.topLine o + s.evicted items) = s.lineOf items (s.topLine o) := by
  have hwhole := h.whole hprimary hregion
  have hbefore : (s.snapshot o).rowAt 0 = s.lineOf items (s.topLine o) := by
    rw [snapshot_top hprimary hwhole.rows ho hle]
    unfold historyRow lineOf topLine
    rw [List.getD_append _ _ _ _ (by omega)]
  unfold StaysOnLine
  rw [(hwhole.write hevents).anchored_top hwhole ho hle, hbefore]
  constructor
  · rintro (hevicted | hsame)
    · exact Or.inr (Or.inl hevicted)
    · exact Or.inr (Or.inr hsame)
  · rintro (hnone | hevicted | hsame)
    · rw [hnone]
      exact Or.inr rfl
    · exact Or.inl hevicted
    · exact Or.inr hsame

/-- Three lines on a screen of one row, with room for two rows of history. -/
def threeLines : Screen := (Screen.new { cols := 4, rows := 1 } 2).write (ascii "a\r\nb\r\nc")

theorem threeLines_reachable : threeLines.Reachable :=
  ⟨{ cols := 4, rows := 1 }, 2, [.write (ascii "a\r\nb\r\nc")], rfl⟩

/-- The window at the second line, and a fourth line. -/
theorem scrollAnchor_iff_fourth :
    StaysOnLine threeLines [.carriageReturn, .lineFeed, .char 0x64] (ascii "\r\nd") 1 ↔
      threeLines.evicted [.carriageReturn, .lineFeed, .char 0x64] = 0 ∨
        threeLines.topLine 1 < threeLines.evicted [.carriageReturn, .lineFeed, .char 0x64] ∨
        threeLines.lineOf [.carriageReturn, .lineFeed, .char 0x64]
            (threeLines.topLine 1 + threeLines.evicted [.carriageReturn, .lineFeed, .char 0x64]) =
          threeLines.lineOf [.carriageReturn, .lineFeed, .char 0x64] (threeLines.topLine 1) :=
  scrollAnchor_iff threeLines_reachable (by decide +kernel) (by decide +kernel) (by decide +kernel)
    (by decide) (by decide +kernel)

/-- The second line is kept, and yet the window goes on to the third. -/
theorem scrollAnchor_full :
    threeLines.Reachable ∧ threeLines.alternate = false ∧
      threeLines.region = { top := 0, bottom := threeLines.rows - 1 } ∧
      (threeLines.parser.parse (ascii "\r\nd")).2 =
        [PlainItem.carriageReturn, .lineFeed, .char 0x64].map itemEvent ∧
      1 ≤ threeLines.scrollback.length ∧
      ¬ StaysOnLine threeLines [.carriageReturn, .lineFeed, .char 0x64] (ascii "\r\nd") 1 := by
  refine ⟨threeLines_reachable, by decide +kernel, by decide +kernel, by decide +kernel,
    by decide +kernel, ?_⟩
  unfold StaysOnLine
  decide +kernel

end Screen

end Deskhub
