import Deskhub.Terminal.RepaintScreen

/-!
# A repaint reproduces the screen

Written to any screen of the same size, in the middle of whatever its parser has
begun, the repaint of a screen leaves what that screen shows.
-/

namespace Deskhub

open Repaint VtParser

namespace Screen

/-- What a repaint of `s` makes of the screen `c`, now `c'`. -/
structure Reproduces (s c c' : Screen) : Prop where
  cells : ∀ row col, c'.cellAt row col = s.cellAt row col
  pen : c'.pen = s.pen
  modes : c'.modes = s.modes
  region : c'.region = s.region
  charset : c'.charset = s.charset
  alternate : c'.alternate = s.alternate
  visible : c'.cursor.visible = s.cursor.visible
  col : c'.cursor.col = s.cursor.col
  row : s.modes.origin = false ∨ (s.region.top ≤ s.cursor.row ∧ s.cursor.row ≤ s.region.bottom) →
    c'.cursor.row = s.cursor.row
  title : s.title ≠ [] → c'.title = s.title
  response : c'.response = c.response
  scrollback : c.parser.state = .ground ∧ c.parser.utf8Left = 0 → c'.scrollback = c.scrollback

/-! ## What the parser had begun -/

/-- What a line feed may change. -/
theorem lineFeed_eq (c : Screen) : ∃ grid scrollback row, c.lineFeed =
    { c with
      grid := grid
      scrollback := scrollback
      cursor := { c.cursor with row := row }
      pendingWrap := false } := by
  unfold lineFeed
  dsimp only
  split
  · rw [scrollUp_eq]
    exact ⟨_, _, c.cursor.row, rfl⟩
  · split
    · exact ⟨c.grid, c.scrollback, _, rfl⟩
    · exact ⟨c.grid, c.scrollback, c.cursor.row, rfl⟩

/-- What a character that is printed may change. -/
theorem print_eq (c : Screen) (cp : Nat) : ∃ grid scrollback row col wrap, c.print cp =
    { c with
      grid := grid
      scrollback := scrollback
      cursor := { c.cursor with row := row, col := col }
      pendingWrap := wrap } := by
  have hwrap : ∃ grid scrollback row col, c.wrapPending =
      { c with
        grid := grid
        scrollback := scrollback
        cursor := { c.cursor with row := row, col := col }
        pendingWrap := false } := by
    unfold wrapPending
    dsimp only
    split
    · rcases (c.setCol 0).lineFeed_eq with ⟨grid, scrollback, row, hfeed⟩
      refine ⟨grid, scrollback, row, 0, ?_⟩
      rw [hfeed]
      rfl
    · exact ⟨c.grid, c.scrollback, c.cursor.row, c.cursor.col, rfl⟩
  have hcol : ∀ t : Screen, ∃ col, (if t.cols ≤ t.cursor.col then t.setCol (t.cols - 1) else t) =
      t.setCol col := by
    intro t
    split
    · exact ⟨_, rfl⟩
    · exact ⟨t.cursor.col, rfl⟩
  have hadvance : ∀ t : Screen, ∃ col wrap, t.advance =
      { t with cursor := { t.cursor with col := col }, pendingWrap := wrap } := by
    intro t
    unfold advance
    split
    · exact ⟨t.cursor.col, true, rfl⟩
    · exact ⟨_, t.pendingWrap, rfl⟩
  rcases hwrap with ⟨grid, scrollback, row, col, hwrap⟩
  rcases hcol c.wrapPending with ⟨col', hcol⟩
  unfold print
  dsimp only
  rw [hcol, hwrap]
  rcases hadvance _ with ⟨col'', wrap, hadvance⟩
  rw [hadvance]
  exact ⟨_, _, _, _, _, rfl⟩

/-- Giving up what was begun may print a character or set the title: the size stays, and
no answer is asked for. -/
theorem applyAll_interrupted (c : Screen) (p : VtParser) :
    (c.applyAll p.interrupted).size = c.size ∧ (c.applyAll p.interrupted).response = c.response := by
  unfold VtParser.interrupted
  split
  · unfold dropPartial
    split
    · rcases c.print_eq kReplacement with ⟨grid, scrollback, row, col, wrap, hprint⟩
      show (c.print kReplacement).size = _ ∧ (c.print kReplacement).response = _
      rw [hprint]
      exact ⟨rfl, rfl⟩
    · exact ⟨rfl, rfl⟩
  · have htitle : ∀ command text, (c.oscEvent command text).size = c.size ∧
        (c.oscEvent command text).response = c.response := by
      intro command text
      unfold oscEvent
      dsimp only
      split
      · exact ⟨rfl, rfl⟩
      · exact ⟨rfl, rfl⟩
    unfold endOfString
    split
    · exact htitle _ _
    · exact ⟨rfl, rfl⟩

theorem interrupted_ok {p : VtParser} (h : p.Ok) : ∀ e ∈ p.interrupted, e.Ok := by
  unfold VtParser.interrupted
  split
  · exact h.dropped.1.2
  · exact endOfString_ok h

/-- A parser with nothing begun gives up nothing. -/
theorem interrupted_idle {p : VtParser} (h : p.Idle) : p.interrupted = [] := by
  unfold VtParser.interrupted dropPartial
  rw [if_pos h.1, if_neg (by rw [h.2]; omega)]

/-! ## The repaint -/

theorem renderScreen_cons (s : Screen) : ∃ rest, renderScreen s = kEsc :: 0x5B :: rest := by
  have hfirst : ∀ mode on rest, ∃ more, appendPrivateMode mode on ++ rest = kEsc :: 0x5B :: more :=
    fun _ _ _ => ⟨_, rfl⟩
  unfold renderScreen
  simp only [List.append_assoc]
  exact hfirst 1049 s.alternate _

/-- The screen as a repaint finds it: what its parser had begun is given up. -/
def settled (c : Screen) (p : VtParser) : Screen :=
  ({ c with parser := p } : Screen).applyAll c.parser.interrupted

theorem settled_size (c : Screen) (p : VtParser) : (c.settled p).size = c.size :=
  (applyAll_interrupted _ _).1

theorem settled_response (c : Screen) (p : VtParser) : (c.settled p).response = c.response :=
  (applyAll_interrupted _ _).2

theorem Wf.settled {c : Screen} (h : c.Wf) {p : VtParser} (hp : p.Ok) : (c.settled p).Wf := by
  have hparser : ({ c with parser := p } : Screen).Wf := { h with parser := hp }
  exact hparser.applyAll (interrupted_ok h.parser)

/-- Complete sequences written in the middle of anything: their events come behind what is
given up. -/
theorem parse_emits {p : VtParser} (h : p.Ok) {b : UInt8} (hb : b ≠ 0x5C) {rest : Bytes}
    {events : List VtEvent} (hemits : Emits (kEsc :: b :: rest) events) :
    (p.parse (kEsc :: b :: rest)).2 = p.interrupted ++ events ∧
      (p.parse (kEsc :: b :: rest)).1.Idle := by
  rcases hemits p.settled p.settled_idle with ⟨hevents, hidle⟩
  rw [parse_resync h hb, hevents]
  exact ⟨rfl, hidle⟩

theorem write_emits {c : Screen} (hc : c.Wf) {b : UInt8} (hb : b ≠ 0x5C) {rest : Bytes}
    {events : List VtEvent} (hemits : Emits (kEsc :: b :: rest) events) :
    ∃ p : VtParser, p.Idle ∧ p.Ok ∧
      c.write (kEsc :: b :: rest) =
        { (c.settled p).applyAll events with
          revision := ((c.settled p).applyAll events).revision + 1 } := by
  rcases parse_emits hc.parser hb hemits with ⟨hevents, hidle⟩
  refine ⟨_, hidle, (parse_ok hc.parser _).1, ?_⟩
  unfold write settled
  rw [if_neg (List.cons_ne_nil _ _), ← applyAll_append]
  dsimp only
  rw [hevents]

/-- Written in the middle of anything, a repaint draws on the screen with that given up. -/
theorem write_renderScreen {s c : Screen} (hs : s.Wf) (hc : c.Wf) (hsize : s.size = c.size) :
    ∃ p revision, p.Idle ∧ p.Ok ∧
      c.write (renderScreen s) = { s.repainted (c.settled p) with revision := revision } := by
  rcases s.renderScreen_cons with ⟨rest, hrest⟩
  have hemits := emits_renderScreen hs
  rw [hrest] at hemits ⊢
  rcases write_emits hc (by decide) hemits with ⟨p, hidle, hok, hwrite⟩
  have hsame : s.size = (c.settled p).size := hsize.trans (c.settled_size p).symm
  rw [applyAll_repaint hs (hc.settled hok) hsame] at hwrite
  exact ⟨p, _, hidle, hok, hwrite⟩

/-- Every screen is reproduced by its repaint, on every screen of its size. -/
theorem repaint_reproduces {s c : Screen} (hs : s.Reachable) (hc : c.Reachable)
    (hsize : s.size = c.size) : s.Reproduces c (c.write (renderScreen s)) := by
  have hregion := hs.wf.region.le
  rcases write_renderScreen hs.wf hc.wf hsize with ⟨p, revision, -, -, hwrite⟩
  have hsame : s.size = (c.settled p).size := hsize.trans (c.settled_size p).symm
  rw [hwrite]
  constructor
  case cells =>
    intro row col
    show Screen.cellAt { s.repainted _ with revision := _ } row col = _
    unfold cellAt rows cols rowAt
    rw [hsame]
    rfl
  case row =>
    rintro hrow
    show s.repaintedRow = _
    unfold repaintedRow
    rcases hrow with hoff | ⟨htop, hbottom⟩
    · simp [hoff]
    · rw [if_pos htop, Nat.min_eq_left hbottom, ite_self]
  case title =>
    intro hne
    exact if_neg hne
  case response => exact c.settled_response p
  case scrollback =>
    intro hidle
    show (c.settled p).scrollback = _
    unfold settled
    rw [interrupted_idle hidle]
    rfl
  all_goals rfl

/-- A red letter, repainted on a screen that is in the middle of a title. -/
theorem repaint_reproduces_inTitle :
    ((Screen.new { cols := 2, rows := 2 } 5).write (kEsc :: ascii "[31mA")).Reproduces
      ((Screen.new { cols := 2, rows := 2 } 0).write (kEsc :: ascii "]0;t"))
      (((Screen.new { cols := 2, rows := 2 } 0).write (kEsc :: ascii "]0;t")).write
        (renderScreen ((Screen.new { cols := 2, rows := 2 } 5).write (kEsc :: ascii "[31mA")))) :=
  repaint_reproduces ⟨_, _, [.write (kEsc :: ascii "[31mA")], rfl⟩
    ⟨_, _, [.write (kEsc :: ascii "]0;t")], rfl⟩ (by decide +kernel)

end Screen

end Deskhub
