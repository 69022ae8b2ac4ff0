import Deskhub.Terminal.RepaintInStep

/-!
# What tells a repaint

For each thing that a repaint does not carry there is a write that brings it to light, on a screen
of two columns and more.
-/

namespace Deskhub

open Repaint VtParser

namespace Screen

/-- The cells stay. -/
structure Still (u v : Screen) : Prop where
  grid : v.grid = u.grid
  size : v.size = u.size

/-- The branches of a dispatch, one at a time. -/
theorem Still.ite {c : Prop} [Decidable c] {u v w : Screen} (hv : c → Still u v) (hw : ¬ c → Still u w) :
    Still u (if c then v else w) := by
  by_cases h : c
  · rw [if_pos h]
    exact hv h
  · rw [if_neg h]
    exact hw h

theorem Still.refl (u : Screen) : Still u u := ⟨rfl, rfl⟩

end Screen

namespace VtParser

open Screen (Still)

/-- The letters that end a sequence without a meaning: p and q. -/
def Idler (b : UInt8) : Prop := b = 0x70 ∨ b = 0x71

/-- The event changes nothing of the cells. -/
def Quiet (e : VtEvent) : Prop := ∀ u : Screen, Still u (u.apply e)

variable {p : VtParser} {b : UInt8}

theorem quiet_esc (hb : Idler b) (intermediate : UInt8) : Quiet (.esc b intermediate) := by
  intro u
  have hnone : u.esc b 0 = u := by
    rcases hb with rfl | rfl
    · rfl
    · rfl
  show Still u (u.esc b intermediate)
  by_cases hplain : intermediate = 0
  · rw [hplain, hnone]
    exact .refl u
  · unfold Screen.esc
    refine .ite (fun _ => ⟨rfl, rfl⟩) fun _ => .ite (fun _ => ⟨rfl, rfl⟩) fun _ => ?_
    refine .ite (fun _ => .ite (fun hfinal => ?_) fun _ => .refl u) fun _ => ?_
    · rcases hb with rfl | rfl
      · cases hfinal
      · cases hfinal
    · exact .ite (fun _ => .refl u) fun h => absurd hplain h

theorem quiet_csi (hb : Idler b) (marker intermediate : UInt8) (params : List Int) :
    Quiet (.csi b marker intermediate params) := by
  intro u
  have hnone : u.csiPublic b params = u := by
    rcases hb with rfl | rfl
    · rfl
    · rfl
  show Still u (u.csi b marker intermediate params)
  unfold Screen.csi
  rw [hnone]
  refine .ite (fun _ => .ite (fun hfinal => ?_) fun _ => .refl u) fun _ => ?_
  · rcases hb with rfl | rfl
    · exact absurd hfinal (by decide)
    · exact absurd hfinal (by decide)
  · exact .ite (fun _ => .refl u) fun _ => .ite (fun _ => .refl u) fun _ => .refl u

theorem quiet_osc (command : Int) (text : Bytes) : Quiet (.osc command text) := by
  intro u
  exact .ite (fun _ => .refl u) fun _ => ⟨rfl, rfl⟩

theorem quiet_endOfString (p : VtParser) : ∀ e ∈ p.endOfString, Quiet e := by
  unfold endOfString
  split
  · intro e he
    rw [List.mem_singleton.mp he]
    exact quiet_osc _ _
  · intro e he
    cases he

/-- In the middle of a sequence such a letter ends it, or is part of it. -/
theorem consume_quiet (hstate : p.state ≠ .ground) (hb : Idler b) :
    ∀ e ∈ (p.consume b).2, Quiet e := by
  have hone : ∀ {e : VtEvent}, Quiet e → ∀ e' ∈ [e], Quiet e' := by
    intro e he e' he'
    rw [List.mem_singleton.mp he']
    exact he
  have hescape : ∀ q : VtParser, q.escape b = ({ q with state := .ground }, [q.emitEsc b]) := by
    intro q
    rcases hb with rfl | rfl
    · rfl
    · rfl
  have hcsi : ∀ q : VtParser, q.csiParam b = ({ q with state := .ground }, [q.emitCsi b]) := by
    intro q
    rcases hb with rfl | rfl
    · rfl
    · rfl
  unfold consume
  cases hcase : p.state with
  | ground => exact absurd hcase hstate
  | escape =>
    dsimp only
    rw [hescape p]
    exact hone (quiet_esc hb _)
  | escapeIntermediate =>
    have hends : p.escapeIntermediate b = ({ p with state := .ground }, [p.emitEsc b]) := by
      rcases hb with rfl | rfl
      · rfl
      · rfl
    dsimp only
    rw [hends]
    exact hone (quiet_esc hb _)
  | csiEntry =>
    dsimp only
    rw [hcsi p]
    exact hone (quiet_csi hb _ _ _)
  | csiParam =>
    dsimp only
    rw [hcsi p]
    exact hone (quiet_csi hb _ _ _)
  | csiIntermediate =>
    have hends : p.csiIntermediate b = ({ p with state := .ground }, [p.emitCsi b]) := by
      rcases hb with rfl | rfl
      · rfl
      · rfl
    dsimp only
    rw [hends]
    exact hone (quiet_csi hb _ _ _)
  | csiIgnore =>
    have hends : p.csiIgnore b = ({ p with state := .ground }, []) := by
      rcases hb with rfl | rfl
      · rfl
      · rfl
    dsimp only
    rw [hends]
    intro e he
    cases he
  | _ =>
    -- a string: behind an escape it ends, and the letter ends the sequence
    dsimp only
    unfold VtParser.string
    split
    · rw [if_neg (by rcases hb with rfl | rfl <;> decide), hescape]
      intro e he
      rcases List.mem_append.mp he with he | he
      · exact quiet_endOfString p e he
      · exact hone (quiet_esc hb _) e he
    · rw [if_neg (by rcases hb with rfl | rfl <;> decide), if_neg (by rcases hb with rfl | rfl <;> decide),
        if_neg (by rcases hb with rfl | rfl <;> decide)]
      split
      · intro e he
        cases he
      · intro e he
        cases he

end VtParser

namespace Screen

variable {s c t u : Screen}

/-- The screens are seen alike whatever is written to both. -/
def GoAlike (s t : Screen) : Prop := ∀ w, SeenAlike (s.write w) (t.write w)

theorem SeenAlike.of_shows {s' t' : Screen} (h : SeenAlike s t) (hs : Shows s s') (ht : Shows t t') :
    SeenAlike s' t' where
  cells row col := (hs.agrees.cells row col).symm.trans ((h.cells row col).trans (ht.agrees.cells row col))
  cursor := hs.agrees.cursor.symm.trans (h.cursor.trans ht.agrees.cursor)
  title := hs.agrees.title.symm.trans (h.title.trans ht.agrees.title)
  modes := hs.agrees.modes.symm.trans (h.modes.trans ht.agrees.modes)

theorem GoAlike.events (h : GoAlike s t) (w : Bytes) :
    SeenAlike (s.applyAll (s.parser.parse w).2) (t.applyAll (t.parser.parse w).2) :=
  (h w).of_shows (write_shows s w) (write_shows t w)

theorem GoAlike.now (h : GoAlike s t) : SeenAlike s t := h []

/-- A sequence behind what both parsers have begun. -/
theorem GoAlike.sequence (h : GoAlike s t) (hs : s.Wf) (ht : t.Wf) (hidle : t.parser.Idle) {b : UInt8}
    (hb : b ≠ 0x5C) {rest : Bytes} {es : List VtEvent} (hemits : Emits (kEsc :: b :: rest) es) :
    SeenAlike (s.givenUp.applyAll es) (t.applyAll es) := by
  have hevents := h.events (kEsc :: b :: rest)
  rw [(parse_emits hs.parser hb hemits).1, (parse_emits ht.parser hb hemits).1, interrupted_idle hidle,
    applyAll_append] at hevents
  exact hevents

/-- The same where both parsers are idle. -/
theorem GoAlike.emits (h : GoAlike s t) (hs : s.parser.Idle) (ht : t.parser.Idle) {w : Bytes}
    {es : List VtEvent} (hemits : Emits w es) : SeenAlike (s.applyAll es) (t.applyAll es) := by
  have hevents := h.events w
  rw [(hemits _ hs).1, (hemits _ ht).1] at hevents
  exact hevents

/-! ## What is printed -/

theorem print_unwrapped (h : u.Wf) (hwrap : (u.pendingWrap && u.modes.autoWrap) = false) (cp : Nat) :
    u.print cp =
      (({ u with pendingWrap := false } : Screen).setRow u.cursor.row (u.printedRow cp)).advance := by
  have hstays : u.wrapPending = { u with pendingWrap := false } := by
    unfold wrapPending
    dsimp only
    rw [hwrap, if_neg Bool.false_ne_true]
  have hin : ¬ ({ u with pendingWrap := false } : Screen).cols ≤
      ({ u with pendingWrap := false } : Screen).cursor.col :=
    Nat.not_le.mpr h.cursor.2
  unfold Screen.print
  dsimp only
  rw [hstays, if_neg hin]
  rfl

theorem advance_cell (u : Screen) (row col : Nat) : u.advance.cellAt row col = u.cellAt row col := by
  unfold advance
  split
  · rfl
  · rfl

/-- The cell that a character is printed in. -/
theorem cellAt_print (h : u.Wf) (hwrap : u.pendingWrap = false) {cp : Nat} (hcp : Printable cp) :
    (u.print cp).cellAt u.cursor.row u.cursor.col = { ch := u.glyph cp, pen := u.pen } := by
  have hrow : u.cursor.row < u.grid.length := by
    rw [h.grid.1]
    exact h.cursor.1
  have hlen : (u.printedRow cp).length = u.cols := (h.printedRow hcp).1
  have hcol : u.cursor.col < (u.printedRow cp).length := by
    rw [hlen]
    exact h.cursor.2
  have hcell : (u.printedRow cp).getD u.cursor.col {} = { ch := u.glyph cp, pen := u.pen } := by
    unfold printedRow at hcol ⊢
    dsimp only at hcol ⊢
    rw [List.length_set] at hcol
    rw [List.getD_eq_getElem?_getD, List.getElem?_set_self hcol]
    rfl
  rw [print_unwrapped h (by rw [hwrap]; rfl), advance_cell]
  unfold cellAt
  rw [if_neg]
  · have hset : (u.grid.set u.cursor.row (u.printedRow cp)).getD u.cursor.row [] = u.printedRow cp := by
      rw [List.getD_eq_getElem?_getD, List.getElem?_set_self hrow]
      rfl
    show ((u.grid.set u.cursor.row (u.printedRow cp)).getD u.cursor.row []).getD u.cursor.col {} = _
    rw [hset]
    exact hcell
  · intro hout
    rcases hout with hout | hout
    · exact absurd h.cursor.1 (Nat.not_lt.mpr hout)
    · exact absurd h.cursor.2 (Nat.not_lt.mpr hout)

/-! ## The parser -/

theorem glyph_idlers (u : Screen) : u.glyph 0x70 ≠ u.glyph 0x71 := by
  unfold glyph
  dsimp only
  split
  · split
    · decide
    · decide
  · split
    · decide
    · decide

/-- In the middle of a sequence a letter is not printed. -/
theorem GoAlike.ground (h : GoAlike s t) (ht : t.Wf) (hidle : t.parser.Idle)
    (hwrap : t.pendingWrap = false) : s.parser.state = .ground := by
  by_contra hstate
  have hcell : ∀ cp, Printable cp → ∀ b : UInt8, Idler b → encodeUtf8 cp = [b] →
      s.cellAt t.cursor.row t.cursor.col = { ch := t.glyph cp, pen := t.pen } := by
    intro cp hcp b hb hcode
    have hevents := h.events [b]
    have hquiet : ∀ (es : List VtEvent) (u : Screen), (∀ e ∈ es, Quiet e) → Still u (u.applyAll es) := by
      intro es
      induction es with
      | nil =>
        intro u _
        exact .refl u
      | cons e es ih =>
        intro u hes
        have hfirst := hes e List.mem_cons_self u
        have hrest := ih (u.apply e) fun e' he' => hes e' (List.mem_cons_of_mem e he')
        exact ⟨hrest.grid.trans hfirst.grid, hrest.size.trans hfirst.size⟩
    have hleft := hquiet _ s (consume_quiet hstate hb)
    have hprints := emits_encodeUtf8 hcp
    rw [hcode] at hprints
    rw [(hprints _ hidle).1, parse_singleton] at hevents
    have hcells := hevents.cells t.cursor.row t.cursor.col
    have hsame : (s.applyAll (s.parser.consume b).2).cellAt t.cursor.row t.cursor.col =
        s.cellAt t.cursor.row t.cursor.col := by
      unfold cellAt rows cols rowAt
      rw [hleft.grid, hleft.size]
    rw [← hsame, hcells]
    exact cellAt_print ht hwrap hcp
  have hp := hcell 0x70 (by decide) 0x70 (Or.inl rfl) rfl
  have hq := hcell 0x71 (by decide) 0x71 (Or.inr rfl) rfl
  have hch := congrArg Cell.ch (hp.symm.trans hq)
  exact glyph_idlers t hch

/-- The bytes of a backspace behind a sequence without a meaning. -/
theorem emits_idle_backspace : Emits [kEsc, 0x71, 0x08] [.esc 0x71 0, .execute 0x08] := by
  have hesc : Emits [kEsc, 0x71] [.esc 0x71 0] := emits_esc (by decide) (by decide)
  exact hesc.append (emits_execute (by decide) (by decide))

theorem advance_placed (hwrap : u.pendingWrap = false) :
    if u.cols ≤ u.cursor.col + 1 then
      u.advance.cursor.col = u.cursor.col ∧ u.advance.pendingWrap = true
    else u.advance.cursor.col = u.cursor.col + 1 ∧ u.advance.pendingWrap = false := by
  unfold advance
  by_cases hend : u.cols ≤ u.cursor.col + 1
  · rw [if_pos hend, if_pos hend]
    exact ⟨rfl, rfl⟩
  · rw [if_neg hend, if_neg hend]
    exact ⟨rfl, hwrap⟩

/-- A character that wraps stands at the start of a row. -/
theorem print_wrapped (hcols : 2 ≤ u.cols) (hwrap : (u.pendingWrap && u.modes.autoWrap) = true)
    (cp : Nat) : (u.print cp).cursor.col = 1 ∧ (u.print cp).pendingWrap = false := by
  have hadvance : ∀ v : Screen, v.cols = u.cols → v.cursor.col = 0 → v.pendingWrap = false →
      v.advance.cursor.col = 1 ∧ v.advance.pendingWrap = false := by
    intro v hv hcol hnone
    have hplaced := advance_placed hnone
    rwa [if_neg (by omega), hcol] at hplaced
  rcases (u.setCol 0).lineFeed_eq with ⟨grid, scrollback, row, hfed⟩
  have hstart : u.wrapPending =
      { u.setCol 0 with
        grid := grid
        scrollback := scrollback
        cursor := { (u.setCol 0).cursor with row := row }
        pendingWrap := false } := by
    unfold wrapPending
    dsimp only
    rw [if_pos hwrap, hfed]
  have hin : ¬ u.wrapPending.cols ≤ u.wrapPending.cursor.col := by
    rw [hstart]
    show ¬ u.cols ≤ 0
    omega
  unfold Screen.print
  dsimp only
  rw [if_neg hin]
  apply hadvance
  · rw [hstart]
    rfl
  · rw [hstart]
    rfl
  · rw [hstart]
    rfl

/-- A character that does not wrap stands where the cursor is; at the end of the row a wrap is
pending then. -/
theorem print_placed (h : u.Wf) (hwrap : (u.pendingWrap && u.modes.autoWrap) = false) (cp : Nat) :
    if u.cols ≤ u.cursor.col + 1 then
      (u.print cp).cursor.col = u.cursor.col ∧ (u.print cp).pendingWrap = true
    else (u.print cp).cursor.col = u.cursor.col + 1 ∧ (u.print cp).pendingWrap = false := by
  rw [print_unwrapped h hwrap]
  exact advance_placed (u := ({ u with pendingWrap := false } : Screen).setRow _ _) rfl

theorem backspace_pending (hwrap : u.pendingWrap = true) : u.backspace.cursor.col = u.cursor.col := by
  unfold backspace
  rw [if_pos hwrap]

theorem backspace_col (hwrap : u.pendingWrap = false) : u.backspace.cursor.col = u.cursor.col - 1 := by
  unfold backspace
  rw [if_neg (by rw [hwrap]; exact Bool.false_ne_true)]
  split
  · rfl
  · omega

/-- With a character begun, the byte of a tail and a sequence print one character in all. -/
theorem parse_tail {p : VtParser} (hp : p.Ok) (hground : p.state = .ground) (hbegun : 0 < p.utf8Left) :
    ∃ cp, (p.parse [0x80, kEsc, 0x71, 0x08]).2 = [.print cp, .esc 0x71 0, .execute 0x08] := by
  have hok := (consume_ok hp 0x80).1
  have hconsume : p.consume 0x80 = p.consumeGround 0x80 :=
    consume_printing hground (by decide) (by decide) (by decide)
  rw [hconsume] at hok
  have hrest : ∀ q : VtParser, q.Ok → (q.parse [kEsc, 0x71, 0x08]).2 =
      q.interrupted ++ [.esc 0x71 0, .execute 0x08] :=
    fun q hq => (parse_emits hq (by decide) emits_idle_backspace).1
  rw [parse_cons, hconsume]
  dsimp only
  rw [hrest _ hok]
  unfold consumeGround
  rw [if_pos hbegun, if_pos (by decide)]
  dsimp only
  split
  · next hlast =>
    simp [VtParser.interrupted, VtParser.dropPartial, hground, hlast]
  · next hmore =>
    refine ⟨kReplacement, ?_⟩
    unfold VtParser.interrupted VtParser.dropPartial
    rw [if_pos hground, if_pos (Nat.pos_of_ne_zero hmore)]
    rfl

/-- In the middle of a character it matters what comes next. -/
theorem GoAlike.whole (h : GoAlike s t) (hs : s.Wf) (ht : t.Wf) (hidle : t.parser.Idle)
    (hwrap : t.pendingWrap = false) (hheld : s.pendingWrap = true → s.cursor.col + 1 = s.cols)
    (hsize : t.size = s.size) (hcols : 2 ≤ s.cols) (hground : s.parser.state = .ground) :
    s.parser.utf8Left = 0 := by
  by_contra hleft
  have hbegun := Nat.pos_of_ne_zero hleft
  have hcol : t.cursor.col = s.cursor.col := by rw [h.now.cursor]
  have hsame : t.cols = s.cols := by
    unfold cols
    rw [hsize]
  have hlt : s.cursor.col < s.cols := hs.cursor.2
  have hgiven : s.givenUp = s.print kReplacement := by
    unfold givenUp VtParser.interrupted VtParser.dropPartial
    rw [if_pos hground, if_pos hbegun]
    rfl
  cases hpending : s.pendingWrap && s.modes.autoWrap with
  | true =>
    -- the first byte of a tail is printed by one of them, and what was begun by the other
    have hfull := hheld (Bool.and_eq_true_iff.mp hpending).1
    rcases parse_tail hs.parser hground hbegun with ⟨cp, hleft⟩
    have hright : (t.parser.parse [0x80, kEsc, 0x71, 0x08]).2 =
        [.print kReplacement, .esc 0x71 0, .execute 0x08] := by
      have hlead : t.parser.consume 0x80 = (t.parser, [.print kReplacement]) := by
        rw [consume_printing hidle.1 (by decide) (by decide) (by decide)]
        unfold consumeGround
        rw [if_neg (by rw [hidle.2]; exact Nat.lt_irrefl 0)]
        rfl
      rw [parse_cons, hlead, (emits_idle_backspace _ hidle).1]
      rfl
    have hevents := h.events [0x80, kEsc, 0x71, 0x08]
    rw [hleft, hright] at hevents
    have hcursor := congrArg CursorState.col hevents.cursor
    have hone : (s.print cp).backspace.cursor.col = (t.print kReplacement).backspace.cursor.col := hcursor
    have hwrapped := print_wrapped hcols hpending cp
    have hplaced := print_placed ht (by rw [hwrap]; rfl) kReplacement
    rw [if_pos (by omega)] at hplaced
    rw [backspace_col hwrapped.2, backspace_pending hplaced.2, hwrapped.1, hplaced.1] at hone
    omega
  | false =>
    have hevents := h.sequence hs ht hidle (by decide) emits_idle_backspace
    rw [hgiven] at hevents
    have hone : (s.print kReplacement).backspace.cursor.col = t.backspace.cursor.col :=
      congrArg CursorState.col hevents.cursor
    have hplaced := print_placed hs hpending kReplacement
    by_cases hend : s.cols ≤ s.cursor.col + 1
    · rw [if_pos hend] at hplaced
      rw [backspace_pending hplaced.2, backspace_col hwrap, hplaced.1] at hone
      omega
    · -- the cursor is not where it was, without the backspace
      have hesc : Emits [kEsc, 0x71] [.esc 0x71 0] := emits_esc (by decide) (by decide)
      have hplain := h.sequence hs ht hidle (by decide) hesc
      rw [hgiven] at hplain
      have htwo : (s.print kReplacement).cursor.col = t.cursor.col := congrArg CursorState.col hplain.cursor
      rw [if_neg hend] at hplaced
      rw [hplaced.1] at htwo
      omega

/-- A wrap that is pending holds the cursor where it is. -/
theorem GoAlike.unwrapped (h : GoAlike s t) (hs : s.parser.Idle) (ht : t.parser.Idle)
    (hwrap : t.pendingWrap = false) (hheld : s.pendingWrap = true → s.cursor.col + 1 = s.cols)
    (hcols : 2 ≤ s.cols) : s.pendingWrap = false := by
  by_contra hpending
  rw [Bool.not_eq_false] at hpending
  have hfull := hheld hpending
  have hcol : t.cursor.col = s.cursor.col := by rw [h.now.cursor]
  have hevents := h.emits hs ht (emits_execute (b := 0x08) (by decide) (by decide))
  have hone : s.backspace.cursor.col = t.backspace.cursor.col := congrArg CursorState.col hevents.cursor
  rw [backspace_pending hpending, backspace_col hwrap] at hone
  omega

/-! ## What is saved -/

/-- The cursor goes back, the second charset is graphics, and a letter shows the pen and the shift. -/
theorem emits_restored :
    Emits ([kEsc, 0x38] ++ ([kEsc, 0x28, 0x42] ++ ([kEsc, 0x29, 0x30] ++ [0x71])))
      [.esc 0x38 0, .esc 0x42 0x28, .esc 0x30 0x29, .print 0x71] := by
  have hback : Emits [kEsc, 0x38] [.esc 0x38 0] := emits_esc (by decide) (by decide)
  have hfirst : Emits [kEsc, 0x28, 0x42] [.esc 0x42 0x28] :=
    emits_charset (by decide) (by decide) (by decide)
  have hsecond : Emits [kEsc, 0x29, 0x30] [.esc 0x30 0x29] :=
    emits_charset (by decide) (by decide) (by decide)
  have hprintable : Printable 0x71 := by decide
  have hletter : Emits [0x71] [.print 0x71] := emits_encodeUtf8 hprintable
  exact hback.append (hfirst.append (hsecond.append hletter))

/-- The cell of the letter. -/
theorem Wf.restored_cell (h : u.Wf) :
    (u.applyAll [.esc 0x38 0, .esc 0x42 0x28, .esc 0x30 0x29, .print 0x71]).cellAt
        u.restoreCursor.cursor.row u.restoreCursor.cursor.col =
      { ch := if u.savedShiftedOut then 0x2500 else 0x71, pen := u.savedPen } := by
  have hwf : ((u.restoreCursor.esc 0x42 0x28).esc 0x30 0x29).Wf :=
    (h.restoreCursor.esc 0x42 0x28).esc 0x30 0x29
  have hglyph : ((u.restoreCursor.esc 0x42 0x28).esc 0x30 0x29).glyph 0x71 =
      if u.savedShiftedOut then 0x2500 else 0x71 := by
    show (if (if u.savedShiftedOut then true else false) then decSpecialGraphic 0x71 else 0x71) = _
    cases u.savedShiftedOut
    · rfl
    · rfl
  rw [← hglyph]
  exact cellAt_print hwf rfl (by decide)

/-- Sending the cursor back shows where it was saved, and a letter with what. -/
theorem GoAlike.savedMark (h : GoAlike s t) (hs : s.Wf) (ht : t.Wf) (hsidle : s.parser.Idle)
    (htidle : t.parser.Idle) : s.savedMark = t.savedMark := by
  have hesc : Emits [kEsc, 0x38] [.esc 0x38 0] := emits_esc (by decide) (by decide)
  have hback := h.emits hsidle htidle hesc
  have hcursor : s.restoreCursor.cursor = t.restoreCursor.cursor := hback.cursor
  have hrow : ∀ v : Screen, v.Wf → v.restoreCursor.cursor.row = v.savedCursor.row := by
    intro v hv
    have hlt : v.savedCursor.row < v.rows := hv.savedCursor.1
    exact Nat.min_eq_left (by omega)
  have hcol : ∀ v : Screen, v.Wf → v.restoreCursor.cursor.col = v.savedCursor.col := by
    intro v hv
    have hlt : v.savedCursor.col < v.cols := hv.savedCursor.2
    exact Nat.min_eq_left (by omega)
  have hletter := (h.emits hsidle htidle emits_restored).cells s.restoreCursor.cursor.row
    s.restoreCursor.cursor.col
  rw [hs.restored_cell, hcursor, ht.restored_cell, Cell.mk.injEq] at hletter
  have hshifted : s.savedShiftedOut = t.savedShiftedOut := by
    have hch := hletter.1
    revert hch
    cases s.savedShiftedOut
    all_goals cases t.savedShiftedOut
    all_goals decide
  unfold Screen.savedMark
  rw [← hrow s hs, ← hrow t ht, ← hcol s hs, ← hcol t ht, hcursor, hletter.2, hshifted]

theorem switchScreen_grid {on : Bool} (hother : on ≠ u.alternate) :
    (u.switchScreen on false).grid = u.putBy := by
  unfold switchScreen
  rw [if_neg hother]
  rfl

theorem switchScreen_size (u : Screen) (alternate clear : Bool) :
    (u.switchScreen alternate clear).size = u.size := by
  rcases u.switchScreen_eq alternate clear with ⟨grid, hswitch⟩
  rw [hswitch]

/-- Screens of one size with the same cells have the same grid. -/
theorem SeenAlike.grid (h : SeenAlike s t) (hs : s.Wf) (ht : t.Wf) (hsize : t.size = s.size) :
    s.grid = t.grid := by
  rw [← cellAt_rows hs.grid, ← cellAt_rows ht.grid]
  unfold rows cols
  rw [hsize]
  simp only [h.cells]

/-- Switching the screens shows what was put by. -/
theorem GoAlike.putBy (h : GoAlike s t) (hs : s.Wf) (ht : t.Wf) (hsidle : s.parser.Idle)
    (htidle : t.parser.Idle) (hsize : t.size = s.size) (halternate : t.alternate = s.alternate) :
    s.putBy = t.putBy := by
  have hmode : 47 ≤ 65535 := by omega
  have hswitched := h.emits hsidle htidle (emits_privateMode hmode !s.alternate)
  rw [applyAll_cons, applyAll_nil, applyAll_cons, applyAll_nil, apply_privateMode, apply_privateMode]
    at hswitched
  have hcells : SeenAlike (s.switchScreen (!s.alternate) false) (t.switchScreen (!s.alternate) false) :=
    hswitched
  have hsother : (!s.alternate) ≠ s.alternate := by simp
  have htother : (!s.alternate) ≠ t.alternate := by simp [halternate]
  rw [← switchScreen_grid hsother, ← switchScreen_grid htother]
  apply hcells.grid (hs.switchScreen _ _) (ht.switchScreen _ _)
  rw [switchScreen_size, switchScreen_size, hsize]

/-! ## The condition -/

/-- Screens that go on alike behind a repaint have told everything that it does not carry. -/
theorem Drawn.carried (h : Drawn s c t) (hs : s.Wf) (ht : t.Wf)
    (hheld : s.pendingWrap = true → s.cursor.col + 1 = s.cols) (hcols : 2 ≤ s.cols)
    (hgo : GoAlike s t) : Carried s c := by
  have hidle : s.parser.Idle := by
    have hground := hgo.ground ht h.idle h.wrap
    exact ⟨hground, hgo.whole hs ht h.idle h.wrap hheld h.size hcols hground⟩
  constructor
  case idle => exact hidle
  case wrap => exact hgo.unwrapped hidle h.idle h.wrap hheld hcols
  case row =>
    apply (repaintedRow_eq_iff hs.region).mp
    have hcursor := hgo.now.cursor
    rw [h.cursor] at hcursor
    exact (congrArg CursorState.row hcursor).symm
  case title =>
    intro hnil
    have htitle := hgo.now.title
    rw [h.title, if_pos hnil, hnil] at htitle
    exact htitle.symm
  case savedMark => exact (hgo.savedMark hs ht hidle h.idle).trans h.savedMark
  case putBy => exact (hgo.putBy hs ht hidle h.idle h.size h.alternate).trans h.putBy

/-- A viewer that catches up by a repaint stays in step when what the repaint does not carry is
there already; from two columns on, only then. -/
theorem repaint_inStep (hs : s.Reachable) (hc : c.Reachable) (hsize : s.size = c.size) :
    (Carried s c → ∀ w, SeenAlike (s.write w) ((c.write (renderScreen s)).write w)) ∧
      (2 ≤ s.cols → (∀ w, SeenAlike (s.write w) ((c.write (renderScreen s)).write w)) →
        Carried s c) := by
  have hdrawn := write_drawn hs.wf hc.wf hsize
  constructor
  · intro hcarried w
    exact (hdrawn.agrees hs.wf hcarried w).seenAlike
  · intro hcols hgo
    exact hdrawn.carried hs.wf (hc.wf.write _) hs.held.wrap hcols hgo

/-- A red letter on a screen that nothing is hidden on, and a screen in the middle of a character. -/
theorem repaint_inStep_letter :
    SeenAlike
      (((Screen.new { cols := 2, rows := 2 } 5).write (kEsc :: ascii "[31mA")).write (ascii "B"))
      ((((Screen.new { cols := 2, rows := 2 } 0).write [0xE2, 0x82]).write
        (renderScreen ((Screen.new { cols := 2, rows := 2 } 5).write (kEsc :: ascii "[31mA")))).write
          (ascii "B")) :=
  (repaint_inStep ⟨_, _, [.write (kEsc :: ascii "[31mA")], rfl⟩ ⟨_, _, [.write [0xE2, 0x82]], rfl⟩
      (by decide +kernel)).1
    ⟨⟨by decide +kernel, by decide +kernel⟩, by decide +kernel, by decide +kernel, by decide +kernel,
      by decide +kernel, by decide +kernel⟩ (ascii "B")

/-- Two letters fill the row and a wrap is pending; the next letter goes to the next row, on the
viewer's screen over the second letter. -/
theorem not_inStep_pendingWrap :
    ¬ ∀ s c : Screen, s.Reachable → c.Reachable → s.size = c.size →
      ∀ w, SeenAlike (s.write w) ((c.write (renderScreen s)).write w) := by
  intro h
  have hseen := h ((Screen.new { cols := 2, rows := 2 } 5).write (ascii "ab"))
    (Screen.new { cols := 2, rows := 2 } 0) ⟨_, _, [.write (ascii "ab")], rfl⟩ ⟨_, _, [], rfl⟩
    (by decide +kernel) (ascii "x")
  exact absurd (hseen.cells 0 1) (by decide +kernel)

end Screen

end Deskhub
