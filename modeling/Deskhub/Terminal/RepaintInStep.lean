import Deskhub.Terminal.ScreenPutBy

/-!
# Going on behind a repaint

A repaint carries what a screen shows. What it does not carry is in the parser, the wrap that is
pending, the mark that is saved, the grid that is put by, a title that is empty and a cursor
outside the region: where these are alike the screens go on alike, whatever is written to both.
-/

namespace Deskhub

open Repaint VtParser

namespace VtParser

/-! ## Idle parsers -/

/-- Between sequences, with the same of a character begun. What is left of a sequence that has
ended is not read again. -/
structure Between (p q : VtParser) : Prop where
  left : p.state = .ground
  right : q.state = .ground
  begun : p.utf8Left = q.utf8Left
  bits : 0 < p.utf8Left → p.utf8Acc = q.utf8Acc ∧ p.utf8Min = q.utf8Min

theorem Idle.between {p q : VtParser} (hp : p.Idle) (hq : q.Idle) : Between p q where
  left := hp.1
  right := hq.1
  begun := hp.2.trans hq.2.symm
  bits := fun h => absurd h (by rw [hp.2]; exact Nat.lt_irrefl 0)

variable {p q : VtParser}

theorem Between.dropPartial (h : Between p q) :
    Between p.dropPartial.1 q.dropPartial.1 ∧ p.dropPartial.2 = q.dropPartial.2 ∧
      p.dropPartial.1.utf8Left = 0 := by
  unfold VtParser.dropPartial
  rw [← h.begun]
  by_cases hbegun : 0 < p.utf8Left
  · rw [if_pos hbegun, if_pos hbegun]
    exact ⟨⟨h.left, h.right, rfl, fun hpos => absurd hpos (Nat.lt_irrefl 0)⟩, rfl, rfl⟩
  · rw [if_neg hbegun, if_neg hbegun]
    exact ⟨h, rfl, Nat.eq_zero_of_not_pos hbegun⟩

theorem Between.consumeLead (h : Between p q) (byte : UInt8) :
    Between (p.consumeLead byte).1 (q.consumeLead byte).1 ∧
      (p.consumeLead byte).2 = (q.consumeLead byte).2 := by
  have hfirst : ∀ acc left least,
      Between { p with utf8Acc := acc, utf8Left := left, utf8Min := least }
        { q with utf8Acc := acc, utf8Left := left, utf8Min := least } :=
    fun _ _ _ => ⟨h.left, h.right, rfl, fun _ => ⟨rfl, rfl⟩⟩
  unfold VtParser.consumeLead
  split
  · exact ⟨h, rfl⟩
  · split
    · exact ⟨hfirst _ _ _, rfl⟩
    · split
      · exact ⟨hfirst _ _ _, rfl⟩
      · split
        · exact ⟨hfirst _ _ _, rfl⟩
        · exact ⟨h, rfl⟩

theorem Between.consumeGround (h : Between p q) (byte : UInt8) :
    Between (p.consumeGround byte).1 (q.consumeGround byte).1 ∧
      (p.consumeGround byte).2 = (q.consumeGround byte).2 := by
  unfold VtParser.consumeGround
  rw [← h.begun]
  by_cases hbegun : 0 < p.utf8Left
  · rcases h.bits hbegun with ⟨hacc, hmin⟩
    rw [if_pos hbegun, if_pos hbegun]
    by_cases hnext : byte &&& 0xC0 = 0x80
    · rw [if_pos hnext, if_pos hnext, ← hacc, ← hmin]
      dsimp only
      split
      · exact ⟨⟨h.left, h.right, rfl, fun _ => ⟨rfl, rfl⟩⟩, rfl⟩
      · exact ⟨⟨h.left, h.right, rfl, fun _ => ⟨rfl, rfl⟩⟩, rfl⟩
    · rw [if_neg hnext, if_neg hnext]
      have hdropped : Between { p with utf8Left := 0 } { q with utf8Left := 0 } :=
        ⟨h.left, h.right, rfl, fun hpos => absurd hpos (Nat.lt_irrefl 0)⟩
      have hlead := hdropped.consumeLead byte
      revert hlead
      generalize VtParser.consumeLead { p with utf8Left := 0 } byte = r
      generalize VtParser.consumeLead { q with utf8Left := 0 } byte = r'
      intro hlead
      exact ⟨hlead.1, congrArg (.print kReplacement :: ·) hlead.2⟩
  · rw [if_neg hbegun, if_neg hbegun]
    exact h.consumeLead byte

/-- An escape leaves nothing that differs but the bits of a character. -/
theorem Between.consume (h : Between p q) (byte : UInt8) :
    (Between (p.consume byte).1 (q.consume byte).1 ∨ Alike (p.consume byte).1 (q.consume byte).1) ∧
      (p.consume byte).2 = (q.consume byte).2 := by
  rcases h.dropPartial with ⟨hdropped, hevents, hnone⟩
  unfold VtParser.consume
  rw [h.left, h.right]
  dsimp only
  unfold VtParser.ground
  by_cases hesc : byte = kEsc
  · rw [if_pos hesc, if_pos hesc]
    refine ⟨Or.inr (Or.inr ⟨hnone, q.dropPartial.1.utf8Acc, q.dropPartial.1.utf8Min, ?_⟩), hevents⟩
    unfold startSequence withChar
    dsimp only
    rw [hdropped.begun]
  · rw [if_neg hesc, if_neg hesc]
    by_cases hcontrol : byte < 0x20 ∨ byte = kDel
    · rw [if_pos hcontrol, if_pos hcontrol]
      exact ⟨Or.inl hdropped, congrArg (· ++ _) hevents⟩
    · rw [if_neg hcontrol, if_neg hcontrol]
      exact ⟨Or.inl (h.consumeGround byte).1, (h.consumeGround byte).2⟩

theorem Between.parse (h : Between p q) (bytes : Bytes) : (p.parse bytes).2 = (q.parse bytes).2 := by
  induction bytes generalizing p q with
  | nil => rfl
  | cons b bytes ih =>
    rcases h.consume b with ⟨hnext | hnext, hfirst⟩
    · rw [parse_cons, parse_cons, hfirst, ih hnext]
    · rw [parse_cons, parse_cons, hfirst, (parse_alike hnext bytes).2]

/-- Idle parsers make the same of whatever they are fed. -/
theorem Idle.parse_eq (hp : p.Idle) (hq : q.Idle) (bytes : Bytes) :
    (p.parse bytes).2 = (q.parse bytes).2 :=
  (hp.between hq).parse bytes

end VtParser

namespace Screen

/-! ## What a repaint leaves -/

/-- The screen with what its parser has begun given up. -/
def givenUp (c : Screen) : Screen := c.applyAll c.parser.interrupted

/-- What a repaint of `s` on `c` leaves, the history and the answers apart. -/
structure Drawn (s c t : Screen) : Prop where
  idle : t.parser.Idle
  size : t.size = s.size
  grid : t.grid = s.grid
  cursor : t.cursor = { row := s.repaintedRow, col := s.cursor.col, visible := s.cursor.visible }
  pen : t.pen = s.pen
  modes : t.modes = s.modes
  region : t.region = s.region
  charset : t.charset = s.charset
  alternate : t.alternate = s.alternate
  wrap : t.pendingWrap = false
  title : t.title = if s.title = [] then c.givenUp.title else s.title
  savedMark : t.savedMark = if s.alternate then c.givenUp.mark else c.givenUp.savedMark
  putBy : t.putBy = if s.alternate = c.alternate then c.putBy else c.givenUp.grid

variable {s c t : Screen}

theorem settled_shows (c : Screen) (p : VtParser) : Shows (c.settled p) c.givenUp :=
  Shows.applyAll (s := { c with parser := p }) (t := c) rfl _

/-- Giving up a character or a title is not the parser's. -/
theorem parser_settled (c : Screen) (p : VtParser) : (c.settled p).parser = p := by
  unfold settled VtParser.interrupted
  split
  · unfold VtParser.dropPartial
    split
    · rcases ({ c with parser := p } : Screen).print_eq kReplacement with
        ⟨grid, scrollback, row, col, wrap, hprint⟩
      show (({ c with parser := p } : Screen).print kReplacement).parser = p
      rw [hprint]
    · rfl
  · have htitle : ∀ (u : Screen) command text, (u.oscEvent command text).parser = u.parser := by
      intro u command text
      unfold oscEvent
      dsimp only
      split
      · rfl
      · rfl
    unfold endOfString
    split
    · exact htitle { c with parser := p } _ _
    · rfl

theorem Shows.mark (h : Shows s t) : s.mark = t.mark := by
  rcases h.behind with ⟨limit, scrollback, parser, response, revision, rfl⟩
  rfl

theorem Shows.title (h : Shows s t) : s.title = t.title := by
  rcases h.behind with ⟨limit, scrollback, parser, response, revision, rfl⟩
  rfl

theorem Shows.grid (h : Shows s t) : s.grid = t.grid := by
  rcases h.behind with ⟨limit, scrollback, parser, response, revision, rfl⟩
  rfl

/-- A grid that is put by at the size of the screen comes back as it is. -/
theorem putBy_eq (h : GridOk s.size s.savedGrid) : s.putBy = s.savedGrid := by
  unfold putBy
  rw [if_neg (fun hne : s.savedGrid.length ≠ s.rows => hne h.1)]
  exact map_resize_eq h

theorem write_drawn (hs : s.Wf) (hc : c.Wf) (hsize : s.size = c.size) :
    Drawn s c (c.write (renderScreen s)) := by
  rcases write_renderScreen hs hc hsize with ⟨p, revision, hidle, hok, hwrite⟩
  have hshows := c.settled_shows p
  have hbeside : Beside False False c (c.settled p) := beside_settled c p
  have hput : (c.write (renderScreen s)).putBy =
      if s.alternate = c.alternate then c.putBy else (c.settled p).grid := by
    by_cases hsame : s.alternate = c.alternate
    · have hkept : (c.write (renderScreen s)).savedGrid = c.savedGrid := by
        rw [hwrite]
        exact (if_pos (hsame.trans hbeside.alternate.symm)).trans hbeside.savedGrid
      have hfits : (c.write (renderScreen s)).size = c.size := by
        rw [hwrite]
        exact hbeside.size
      rw [if_pos hsame]
      unfold putBy rows cols
      rw [hkept, hfits]
    · have hgrid : (c.write (renderScreen s)).savedGrid = (c.settled p).grid := by
        rw [hwrite]
        exact if_neg fun heq => hsame (heq.trans hbeside.alternate)
      have hfits : (c.write (renderScreen s)).size = (c.settled p).size := by
        rw [hwrite]
        rfl
      rw [if_neg hsame, ← hgrid]
      apply putBy_eq
      rw [hgrid, hfits]
      exact (hc.settled hok).grid
  rw [hwrite] at hput ⊢
  constructor
  case size => exact (hsize.trans hbeside.size.symm).symm
  case idle =>
    show (c.settled p).parser.Idle
    rw [c.parser_settled p]
    exact hidle
  case title =>
    rw [← hshows.title]
    rfl
  case savedMark =>
    rw [← hshows.mark, ← hshows.savedMark]
    cases halternate : s.alternate with
    | true =>
      unfold savedMark repainted canvas
      simp only [halternate, if_true]
      rfl
    | false =>
      unfold savedMark repainted canvas
      simp only [halternate, if_false, Bool.false_eq_true]
  case putBy => rw [hput, hshows.grid]
  all_goals rfl

/-! ## What has to be there already -/

/-- What a repaint of `s` does not carry has nothing to say, or is there on `c` already. -/
structure Carried (s c : Screen) : Prop where
  idle : s.parser.Idle
  wrap : s.pendingWrap = false
  row : s.modes.origin = true → s.region.top ≤ s.cursor.row ∧ s.cursor.row ≤ s.region.bottom
  title : s.title = [] → c.givenUp.title = []
  savedMark : s.savedMark = if s.alternate then c.givenUp.mark else c.givenUp.savedMark
  putBy : s.putBy = if s.alternate = c.alternate then c.putBy else c.givenUp.grid

/-- What is read off two screens is the same. -/
structure SeenAlike (s t : Screen) : Prop where
  cells : ∀ row col, s.cellAt row col = t.cellAt row col
  cursor : s.cursor = t.cursor
  title : s.title = t.title
  modes : s.modes = t.modes

theorem Agrees.trans {u : Screen} (h : Agrees s t) (h' : Agrees t u) : Agrees s u where
  size := h.size.trans h'.size
  cells row col := (h.cells row col).trans (h'.cells row col)
  cursor := h.cursor.trans h'.cursor
  pen := h.pen.trans h'.pen
  modes := h.modes.trans h'.modes
  title := h.title.trans h'.title
  region := h.region.trans h'.region
  charset := h.charset.trans h'.charset
  alternate := h.alternate.trans h'.alternate

theorem Levels.agrees (h : Levels s t) : Agrees s t := by
  rcases h with ⟨grid, visible, rfl, -⟩
  constructor
  all_goals
    intros
    rfl

theorem repaintedRow_eq_iff (h : RegionOk s.size s.region) :
    s.repaintedRow = s.cursor.row ↔
      (s.modes.origin = true → s.region.top ≤ s.cursor.row ∧ s.cursor.row ≤ s.region.bottom) := by
  have hle := h.le
  unfold repaintedRow
  by_cases hon : s.modes.origin = true
  · rw [if_pos hon]
    constructor
    · intro hrow _
      split at hrow
      · omega
      · omega
    · intro hinside
      rcases hinside hon with ⟨htop, hbottom⟩
      rw [if_pos htop, Nat.min_eq_left hbottom]
  · rw [if_neg hon]
    exact iff_of_true rfl fun h => absurd h hon

/-- Where the rest is carried, what is drawn is the screen with another grid put by. -/
theorem Drawn.shows (h : Drawn s c t) (hs : s.Wf) (hcarried : Carried s c) :
    Shows (s.under t.savedGrid t.savedCursor.visible) t := by
  have hcursor : t.cursor = s.cursor := by
    rw [h.cursor, (repaintedRow_eq_iff hs.region).mpr hcarried.row]
  have htitle : t.title = s.title := by
    rw [h.title]
    split
    · next hnil => rw [hnil, hcarried.title hnil]
    · rfl
  have hmark : t.savedMark = s.savedMark := h.savedMark.trans hcarried.savedMark.symm
  rw [Screen.savedMark, Screen.savedMark, CursorMark.mk.injEq] at hmark
  rcases hmark with ⟨hrow, hcol, hpen, hshifted⟩
  unfold Shows shown under
  rw [Screen.mk.injEq]
  refine ⟨h.size.symm, rfl, h.grid.symm, rfl, rfl, rfl, hcursor.symm, ?_, h.pen.symm, hpen.symm,
    h.modes.symm, h.region.symm, hcarried.wrap.trans h.wrap.symm, h.alternate.symm, h.charset.symm,
    hshifted.symm, htitle.symm, rfl, rfl⟩
  dsimp only
  rw [← hrow, ← hcol]

theorem Drawn.levels (h : Drawn s c t) (hcarried : Carried s c) :
    Levels s (s.under t.savedGrid t.savedCursor.visible) := by
  refine ⟨_, _, rfl, ?_⟩
  have hput : t.putBy = s.putBy := h.putBy.trans hcarried.putBy.symm
  rw [← hput]
  unfold Screen.putBy under rows cols
  rw [h.size]

/-- The run lemma: behind the repaint, whatever is written to both. -/
theorem Drawn.agrees (h : Drawn s c t) (hs : s.Wf) (hcarried : Carried s c) (w : Bytes) :
    Agrees (s.write w) (t.write w) := by
  have hlevels := (h.levels hcarried).applyAll (s.parser.parse w).2
  have hshows := (h.shows hs hcarried).applyAll (s.parser.parse w).2
  have hleft := write_shows s w
  have hright := write_shows t w
  rw [← hcarried.idle.parse_eq h.idle w] at hright
  exact (hleft.agrees.trans hlevels.agrees).trans (hshows.trans (Eq.symm hright)).agrees

theorem Agrees.seenAlike (h : Agrees s t) : SeenAlike s t := ⟨h.cells, h.cursor, h.title, h.modes⟩

end Screen

end Deskhub
