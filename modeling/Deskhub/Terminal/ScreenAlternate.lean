import Deskhub.Terminal.ScreenBounds
import Deskhub.Terminal.ScreenReset

/-!
# The alternate screen

While the alternate screen is shown the primary grid is put by, and so is the place the cursor
is restored to. What an output of the program on the alternate screen does to either is said
once, event by event; the rest follows for any output.
-/

namespace Deskhub

open Repaint

namespace VtEvent

/-! ## What events ask for -/

/-- The private modes an event changes. -/
def privateModes : VtEvent → List Int
  | .csi final marker _ params =>
      if marker = 0x3F ∧ (final = 0x68 ∨ final = 0x6C) then params.map (fun p => vtParam [p] 0 0) else []
  | _ => []

/-- The screen is switched. -/
def SwitchesScreen (e : VtEvent) : Prop :=
  ∃ mode ∈ e.privateModes, mode = 47 ∨ mode = 1047 ∨ mode = 1049

instance (e : VtEvent) : Decidable e.SwitchesScreen := inferInstanceAs (Decidable (∃ _ ∈ _, _))

/-- The scrollback is erased with the display. -/
def ErasesHistory : VtEvent → Prop
  | .csi final marker intermediate params =>
      final = 0x4A ∧ marker = 0 ∧ intermediate = 0 ∧ vtParam params 0 0 = 3
  | _ => False

instance : (e : VtEvent) → Decidable e.ErasesHistory
  | .csi _ _ _ _ => inferInstanceAs (Decidable (_ ∧ _ ∧ _ ∧ _))
  | .print _ | .execute _ | .esc _ _ | .osc _ _ => inferInstanceAs (Decidable False)

/-- The place of the cursor is saved. -/
def SavesCursor : VtEvent → Prop
  | .esc final intermediate => final = 0x37 ∧ intermediate = 0
  | .csi final marker intermediate params =>
      (final = 0x73 ∧ marker = 0 ∧ intermediate = 0) ∨
        (final = 0x68 ∧ marker = 0x3F ∧ ∃ p ∈ params, vtParam [p] 0 0 = 1048)
  | _ => False

instance : (e : VtEvent) → Decidable e.SavesCursor
  | .esc _ _ => inferInstanceAs (Decidable (_ ∧ _))
  | .csi _ _ _ _ => inferInstanceAs (Decidable (_ ∨ _))
  | .print _ | .execute _ | .osc _ _ => inferInstanceAs (Decidable False)

/-- A change of several private modes as one change after the other; any other event as it is. -/
def parts : VtEvent → List VtEvent
  | .csi final marker intermediate params =>
      if marker = 0x3F then params.map (fun p => .csi final marker intermediate [p])
      else [.csi final marker intermediate params]
  | e => [e]

end VtEvent

namespace Screen

/-- What is saved of the cursor: where it is, the pen and the shift. -/
structure CursorMark where
  row : Nat
  col : Nat
  pen : Pen
  shiftedOut : Bool
deriving DecidableEq, Repr

/-- The mark that saving the cursor would leave. -/
def mark (s : Screen) : CursorMark :=
  { row := s.cursor.row, col := s.cursor.col, pen := s.pen, shiftedOut := s.charset.shiftedOut }

/-- The mark that was saved last. -/
def savedMark (s : Screen) : CursorMark :=
  { row := s.savedCursor.row, col := s.savedCursor.col, pen := s.savedPen,
    shiftedOut := s.savedShiftedOut }

theorem Shows.savedMark {s t : Screen} (h : Shows s t) : s.savedMark = t.savedMark := by
  rcases h.behind with ⟨limit, scrollback, parser, response, revision, rfl⟩
  rfl

/-- From `s` to `t` the grid that is put by stays; with `K` the saved mark stays too, and with
`H` the scrollback, when the alternate screen is shown. -/
structure Beside (K H : Prop) (s t : Screen) : Prop where
  size : t.size = s.size
  alternate : t.alternate = s.alternate
  savedGrid : t.savedGrid = s.savedGrid
  savedMark : K → t.savedMark = s.savedMark
  scrollback : H → s.alternate = true → t.scrollback = s.scrollback

variable {K H : Prop} {s t u : Screen}

theorem Beside.refl (s : Screen) : Beside K H s s := ⟨rfl, rfl, rfl, fun _ => rfl, fun _ _ => rfl⟩

theorem Beside.trans (h : Beside K H s t) (h' : Beside K H t u) : Beside K H s u := by
  refine ⟨h'.size.trans h.size, h'.alternate.trans h.alternate, h'.savedGrid.trans h.savedGrid, ?_, ?_⟩
  · intro hkept
    exact (h'.savedMark hkept).trans (h.savedMark hkept)
  · intro hhistory halternate
    exact (h'.scrollback hhistory (h.alternate.trans halternate)).trans (h.scrollback hhistory halternate)

/-- The branches of a dispatch, one at a time. -/
theorem Beside.ite {c : Prop} [Decidable c] (ht : c → Beside K H s t) (hu : ¬ c → Beside K H s u) :
    Beside K H s (if c then t else u) := by
  by_cases h : c
  · rw [if_pos h]
    exact ht h
  · rw [if_neg h]
    exact hu h

theorem Beside.foldl {α : Type} {f : Screen → α → Screen} {as : List α}
    (hf : ∀ t, ∀ a ∈ as, Beside K H t (f t a)) (s : Screen) : Beside K H s (as.foldl f s) := by
  induction as generalizing s with
  | nil => exact .refl s
  | cons a as ih =>
    have hfirst := hf s a List.mem_cons_self
    exact hfirst.trans (ih (fun t b hb => hf t b (List.mem_cons_of_mem a hb)) (f s a))

/-- The rest is as it was. -/
theorem Beside.of_eq (hsize : t.size = s.size) (halternate : t.alternate = s.alternate)
    (hgrid : t.savedGrid = s.savedGrid) (hmark : t.savedMark = s.savedMark)
    (hscrollback : t.scrollback = s.scrollback) : Beside K H s t :=
  ⟨hsize, halternate, hgrid, fun _ => hmark, fun _ _ => hscrollback⟩

/-! ## The operations -/

theorem beside_scrollUp (s : Screen) (count : Nat) : Beside K H s (s.scrollUp count) := by
  have hscrollback : s.alternate = true → (s.scrollUp count).scrollback = s.scrollback := by
    intro halternate
    unfold scrollUp
    dsimp only
    rw [halternate, if_neg (by simp)]
    rfl
  rw [scrollUp_eq] at hscrollback ⊢
  exact ⟨rfl, rfl, rfl, fun _ => rfl, fun _ => hscrollback⟩

theorem beside_lineFeed (s : Screen) : Beside K H s s.lineFeed := by
  have hcleared : Beside K H s { s with pendingWrap := false } := .of_eq rfl rfl rfl rfl rfl
  exact .ite (fun _ => hcleared.trans (beside_scrollUp _ 1)) fun _ =>
    .ite (fun _ => .of_eq rfl rfl rfl rfl rfl) fun _ => hcleared

theorem beside_reverseIndex (s : Screen) : Beside K H s s.reverseIndex :=
  .ite (fun _ => .of_eq rfl rfl rfl rfl rfl) fun _ =>
    .ite (fun _ => .of_eq rfl rfl rfl rfl rfl) fun _ => .of_eq rfl rfl rfl rfl rfl

theorem beside_wrapPending (s : Screen) : Beside K H s s.wrapPending := by
  have hfirst : Beside K H s (s.setCol 0) := .of_eq rfl rfl rfl rfl rfl
  have hmade : Beside K H s (if s.pendingWrap && s.modes.autoWrap then (s.setCol 0).lineFeed else s) :=
    .ite (fun _ => hfirst.trans (beside_lineFeed _)) fun _ => .refl s
  exact hmade.trans (.of_eq rfl rfl rfl rfl rfl)

theorem beside_print (s : Screen) (cp : Nat) : Beside K H s (s.print cp) := by
  have hplaced : ∀ t : Screen, Beside K H t (if t.cols ≤ t.cursor.col then t.setCol (t.cols - 1) else t) :=
    fun t => .ite (fun _ => .of_eq rfl rfl rfl rfl rfl) fun _ => .refl t
  have hprinted : ∀ t : Screen, Beside K H t (t.setRow t.cursor.row (t.printedRow cp)).advance :=
    fun t => .ite (fun _ => .of_eq rfl rfl rfl rfl rfl) fun _ => .of_eq rfl rfl rfl rfl rfl
  exact ((beside_wrapPending s).trans (hplaced _)).trans (hprinted _)

theorem beside_execute (s : Screen) (control : UInt8) : Beside K H s (s.execute control) := by
  unfold execute
  refine .ite (fun _ => ?_) fun _ => ?_
  · exact .ite (fun _ => .of_eq rfl rfl rfl rfl rfl) fun _ =>
      .ite (fun _ => .of_eq rfl rfl rfl rfl rfl) fun _ => .refl s
  refine .ite (fun _ => .of_eq rfl rfl rfl rfl rfl) fun _ => ?_
  refine .ite (fun _ => beside_lineFeed s) fun _ => ?_
  refine .ite (fun _ => .of_eq rfl rfl rfl rfl rfl) fun _ => ?_
  refine .ite (fun _ => .of_eq rfl rfl rfl rfl rfl) fun _ => ?_
  exact .ite (fun _ => .of_eq rfl rfl rfl rfl rfl) fun _ => .refl s

/-- Only the scrollback's own erasure reaches the scrollback. -/
theorem beside_eraseInDisplay (s : Screen) {how : Int} (hhistory : how = 3 → ¬ H) :
    Beside K H s (s.eraseInDisplay how) := by
  unfold eraseInDisplay
  refine .ite (fun _ => .of_eq rfl rfl rfl rfl rfl) fun _ => .ite (fun _ => ?_) fun _ => ?_
  · dsimp only
    split
    · next hthree => exact ⟨rfl, rfl, rfl, fun _ => rfl, fun h => absurd h (hhistory hthree)⟩
    · exact .of_eq rfl rfl rfl rfl rfl
  · exact .of_eq rfl rfl rfl rfl rfl

theorem beside_eraseInLine (s : Screen) (how : Int) : Beside K H s (s.eraseInLine how) :=
  .ite (fun _ => .of_eq rfl rfl rfl rfl rfl) fun _ =>
    .ite (fun _ => .of_eq rfl rfl rfl rfl rfl) fun _ => .of_eq rfl rfl rfl rfl rfl

theorem beside_atCursorRow (s : Screen) {f : Screen → Screen} (hf : ∀ t, Beside K H t (f t)) :
    Beside K H s (s.atCursorRow f) := by
  refine .ite (fun _ => .refl s) fun _ => ?_
  have hmoved := hf { s with region := { s.region with top := s.cursor.row } }
  exact ⟨hmoved.size, hmoved.alternate, hmoved.savedGrid, hmoved.savedMark, hmoved.scrollback⟩

theorem beside_setAnsiMode (s : Screen) (mode : Int) (on : Bool) : Beside K H s (s.setAnsiMode mode on) :=
  .ite (fun _ => .of_eq rfl rfl rfl rfl rfl) fun _ => .refl s

theorem beside_respond (s : Screen) (text : Bytes) : Beside K H s (s.respond text) :=
  .ite (fun _ => .refl s) fun _ => .of_eq rfl rfl rfl rfl rfl

/-- A private mode that does not switch the screen; the cursor may be saved. -/
theorem beside_setPrivateMode (s : Screen) {mode : Int} (on : Bool)
    (hstays : mode ≠ 47 ∧ mode ≠ 1047 ∧ mode ≠ 1049) (hsave : mode = 1048 → on = true → ¬ K) :
    Beside K H s (s.setPrivateMode mode on) := by
  rcases hstays with ⟨h47, h1047, h1049⟩
  unfold setPrivateMode
  refine .ite (fun _ => .of_eq rfl rfl rfl rfl rfl) fun _ => ?_
  refine .ite (fun _ => .of_eq rfl rfl rfl rfl rfl) fun _ => ?_
  refine .ite (fun _ => .of_eq rfl rfl rfl rfl rfl) fun _ => ?_
  refine .ite (fun _ => .of_eq rfl rfl rfl rfl rfl) fun _ => ?_
  refine .ite (fun _ => .of_eq rfl rfl rfl rfl rfl) fun _ => ?_
  refine .ite (fun h => absurd h h47) fun _ => ?_
  refine .ite (fun h => absurd h h1047) fun _ => ?_
  refine .ite (fun h1048 => .ite (fun hon => ?_) fun _ => .of_eq rfl rfl rfl rfl rfl) fun _ => ?_
  · exact ⟨rfl, rfl, rfl, fun h => absurd h (hsave h1048 hon), fun _ _ => rfl⟩
  refine .ite (fun h => absurd h h1049) fun _ => ?_
  refine .ite (fun _ => .of_eq rfl rfl rfl rfl rfl) fun _ => ?_
  exact .ite (fun _ => .of_eq rfl rfl rfl rfl rfl) fun _ => .refl s

theorem beside_csiPublic (s : Screen) (final : UInt8) (params : List Int) (hsave : final = 0x73 → ¬ K)
    (hhistory : final = 0x4A → vtParam params 0 0 = 3 → ¬ H) :
    Beside K H s (s.csiPublic final params) := by
  unfold csiPublic
  refine .ite (fun _ => .of_eq rfl rfl rfl rfl rfl) fun _ => ?_
  refine .ite (fun _ => .of_eq rfl rfl rfl rfl rfl) fun _ => ?_
  refine .ite (fun _ => .of_eq rfl rfl rfl rfl rfl) fun _ => ?_
  refine .ite (fun _ => .of_eq rfl rfl rfl rfl rfl) fun _ => ?_
  refine .ite (fun _ => .of_eq rfl rfl rfl rfl rfl) fun _ => ?_
  refine .ite (fun _ => .of_eq rfl rfl rfl rfl rfl) fun _ => ?_
  refine .ite (fun _ => .of_eq rfl rfl rfl rfl rfl) fun _ => ?_
  refine .ite (fun _ => .of_eq rfl rfl rfl rfl rfl) fun _ => ?_
  refine .ite (fun _ => .of_eq rfl rfl rfl rfl rfl) fun _ => ?_
  refine .ite (fun hfinal => beside_eraseInDisplay s (hhistory hfinal)) fun _ => ?_
  refine .ite (fun _ => beside_eraseInLine s _) fun _ => ?_
  refine .ite (fun _ => beside_atCursorRow s fun _ => .of_eq rfl rfl rfl rfl rfl) fun _ => ?_
  refine .ite (fun _ => beside_atCursorRow s fun t => beside_scrollUp t _) fun _ => ?_
  refine .ite (fun _ => .of_eq rfl rfl rfl rfl rfl) fun _ => ?_
  refine .ite (fun _ => beside_scrollUp s _) fun _ => ?_
  refine .ite (fun _ => .of_eq rfl rfl rfl rfl rfl) fun _ => ?_
  refine .ite (fun _ => .of_eq rfl rfl rfl rfl rfl) fun _ => ?_
  refine .ite (fun _ => .of_eq rfl rfl rfl rfl rfl) fun _ => ?_
  refine .ite (fun _ => .of_eq rfl rfl rfl rfl rfl) fun _ => ?_
  refine .ite (fun _ => .of_eq rfl rfl rfl rfl rfl) fun _ => ?_
  refine .ite (fun _ => .ite (fun _ => beside_respond s _) fun _ => .refl s) fun _ => ?_
  refine .ite (fun _ => ?_) fun _ => ?_
  · exact .ite (fun _ => .of_eq rfl rfl rfl rfl rfl) fun _ => .of_eq rfl rfl rfl rfl rfl
  refine .ite (fun _ => ?_) fun _ => ?_
  · have hfive : Beside K H s (if vtParam params 0 0 = 5 then s.respond ([0x1B] ++ ascii "[0n") else s) :=
      .ite (fun _ => beside_respond s _) fun _ => .refl s
    exact .ite (fun _ => hfive.trans (beside_respond _ _)) fun _ => hfive
  refine .ite (fun _ => .of_eq rfl rfl rfl rfl rfl) fun _ => ?_
  refine .ite (fun hfinal => ?_) fun _ => ?_
  · exact ⟨rfl, rfl, rfl, fun h => absurd h (hsave hfinal), fun _ _ => rfl⟩
  refine .ite (fun _ => .of_eq rfl rfl rfl rfl rfl) fun _ => ?_
  refine .ite (fun _ => ?_) fun _ => .refl s
  exact Beside.foldl (fun t i _ => beside_setAnsiMode t _ _) s

/-! ## Events -/

theorem vtParam_getElem (params : List Int) {i : Nat} (hi : i < params.length) :
    vtParam params i 0 = vtParam [params[i]] 0 0 := by
  unfold vtParam
  rw [List.getElem?_eq_getElem hi]
  rfl

/-- The modes of a private change, one after the other. -/
theorem csi_private (s : Screen) {final : UInt8} (hfinal : final = 0x68 ∨ final = 0x6C)
    (intermediate : UInt8) (params : List Int) :
    s.csi final 0x3F intermediate params =
      (params.map (fun p => vtParam [p] 0 0)).foldl
        (fun s mode => s.setPrivateMode mode (final = 0x68)) s := by
  have hmodes : params.map (fun p => vtParam [p] 0 0) =
      (List.range params.length).map (fun i => vtParam params i 0) := by
    apply List.ext_getElem
    · simp
    · intro i hi hi'
      simp only [List.getElem_map, List.getElem_range]
      exact (vtParam_getElem params (by simpa using hi)).symm
  unfold csi
  rw [if_pos rfl, if_pos hfinal, hmodes, List.foldl_map]

theorem privateModes_csi {final : UInt8} (hfinal : final = 0x68 ∨ final = 0x6C) (intermediate : UInt8)
    (params : List Int) :
    (VtEvent.csi final 0x3F intermediate params).privateModes = params.map (fun p => vtParam [p] 0 0) :=
  if_pos ⟨rfl, hfinal⟩

theorem beside_csi (s : Screen) {final marker intermediate : UInt8} {params : List Int}
    (hstays : ¬ (VtEvent.csi final marker intermediate params).SwitchesScreen)
    (hsave : (VtEvent.csi final marker intermediate params).SavesCursor → ¬ K)
    (hhistory : (VtEvent.csi final marker intermediate params).ErasesHistory → ¬ H) :
    Beside K H s (s.csi final marker intermediate params) := by
  by_cases hmarker : marker = 0x3F
  · subst hmarker
    by_cases hfinal : final = 0x68 ∨ final = 0x6C
    · have hmodes := privateModes_csi hfinal intermediate params
      rw [csi_private s hfinal]
      refine Beside.foldl ?_ s
      intro t mode hmode
      rw [← hmodes] at hmode
      apply beside_setPrivateMode
      · refine ⟨?_, ?_, ?_⟩
        all_goals
          intro heq
          exact hstays ⟨mode, hmode, by simp [heq]⟩
      · intro heq hon
        have hset : final = 0x68 := by simpa using hon
        rw [hmodes] at hmode
        rcases List.mem_map.mp hmode with ⟨p, hp, hvalue⟩
        exact hsave (Or.inr ⟨hset, rfl, p, hp, hvalue.trans heq⟩)
    · unfold csi
      rw [if_pos rfl, if_neg hfinal]
      exact .refl s
  · unfold csi
    rw [if_neg hmarker]
    refine .ite (fun _ => .refl s) fun hzero => .ite (fun _ => .refl s) fun hplain => ?_
    have hmarker : marker = 0 := not_not.mp hzero
    have hintermediate : intermediate = 0 := not_not.mp hplain
    subst hmarker hintermediate
    apply beside_csiPublic
    · intro hfinal
      exact hsave (Or.inl ⟨hfinal, rfl, rfl⟩)
    · intro hfinal hthree
      exact hhistory ⟨hfinal, rfl, rfl, hthree⟩

theorem beside_esc (s : Screen) {final intermediate : UInt8}
    (hreset : VtEvent.esc final intermediate ≠ .esc 0x63 0)
    (hsave : (VtEvent.esc final intermediate).SavesCursor → ¬ K) :
    Beside K H s (s.esc final intermediate) := by
  unfold esc
  refine .ite (fun _ => .of_eq rfl rfl rfl rfl rfl) fun _ => ?_
  refine .ite (fun _ => .of_eq rfl rfl rfl rfl rfl) fun _ => ?_
  refine .ite (fun _ => .ite (fun _ => .of_eq rfl rfl rfl rfl rfl) fun _ => .refl s) fun _ => ?_
  refine .ite (fun _ => .refl s) fun hplain => ?_
  have hintermediate : intermediate = 0 := not_not.mp hplain
  subst hintermediate
  refine .ite (fun hfinal => ?_) fun _ => ?_
  · subst hfinal
    exact ⟨rfl, rfl, rfl, fun h => absurd h (hsave ⟨rfl, rfl⟩), fun _ _ => rfl⟩
  refine .ite (fun _ => .of_eq rfl rfl rfl rfl rfl) fun _ => ?_
  refine .ite (fun _ => .of_eq rfl rfl rfl rfl rfl) fun _ => ?_
  refine .ite (fun _ => .of_eq rfl rfl rfl rfl rfl) fun _ => ?_
  refine .ite (fun _ => beside_lineFeed s) fun _ => ?_
  refine .ite (fun _ => (beside_lineFeed s).trans (.of_eq rfl rfl rfl rfl rfl)) fun _ => ?_
  refine .ite (fun _ => beside_reverseIndex s) fun _ => ?_
  refine .ite (fun hfinal => ?_) fun _ => .refl s
  exact absurd (hfinal ▸ rfl) hreset

theorem beside_oscEvent (s : Screen) (command : Int) (text : Bytes) :
    Beside K H s (s.oscEvent command text) :=
  .ite (fun _ => .refl s) fun _ => .of_eq rfl rfl rfl rfl rfl

/-- An event that neither resets nor switches the screen. -/
theorem beside_apply (s : Screen) {e : VtEvent} (hreset : e ≠ .esc 0x63 0)
    (hstays : ¬ e.SwitchesScreen) (hsave : e.SavesCursor → ¬ K) (hhistory : e.ErasesHistory → ¬ H) :
    Beside K H s (s.apply e) := by
  cases e with
  | print cp => exact beside_print s cp
  | execute control => exact beside_execute s control
  | csi final marker intermediate params => exact beside_csi s hstays hsave hhistory
  | esc final intermediate => exact beside_esc s hreset hsave
  | osc command text => exact beside_oscEvent s command text

/-- What is given up when a sequence begins is a character or a title. -/
theorem beside_settled (s : Screen) (p : VtParser) : Beside K H s (s.settled p) := by
  have hparser : Beside K H s { s with parser := p } := .of_eq rfl rfl rfl rfl rfl
  refine hparser.trans (Beside.foldl ?_ _)
  intro t e he
  have hkind : (∃ cp, e = .print cp) ∨ ∃ command text, e = .osc command text := by
    unfold VtParser.interrupted VtParser.dropPartial VtParser.endOfString VtParser.emitOsc at he
    split at he
    · split at he
      · exact Or.inl ⟨_, List.mem_singleton.mp he⟩
      · cases he
    · split at he
      · exact Or.inr ⟨_, _, List.mem_singleton.mp he⟩
      · cases he
  rcases hkind with ⟨cp, rfl⟩ | ⟨command, text, rfl⟩
  · exact beside_print t cp
  · exact beside_oscEvent t command text

/-! ## In and out -/

/-- CSI ? 1049 h. -/
def enterBytes : Bytes := appendPrivateMode 1049 true

/-- CSI ? 1049 l. -/
def leaveBytes : Bytes := appendPrivateMode 1049 false

theorem resizeRow_eq_self {cols : Nat} {row : Row} (h : RowOk cols row) (fill : Cell) :
    resizeRow row cols fill = row := by
  have hlen := h.1
  unfold resizeRow
  rw [List.take_of_length_le (by omega), hlen, Nat.sub_self]
  exact List.append_nil row

theorem map_resize_eq {size : TermSize} {grid : List Row} (h : GridOk size grid) :
    grid.map (fun row => resizeRow row size.cols {}) = grid := by
  refine (List.map_congr_left fun row hrow => ?_).trans (List.map_id grid)
  exact resizeRow_eq_self (h.2 row hrow) {}

/-- The primary grid is put by, and the mark is saved. -/
theorem apply_enter_primary (hprimary : s.alternate = false) :
    (s.apply (privateModeEvent 1049 true)).alternate = true ∧
      (s.apply (privateModeEvent 1049 true)).size = s.size ∧
      (s.apply (privateModeEvent 1049 true)).savedGrid = s.grid ∧
      (s.apply (privateModeEvent 1049 true)).savedMark = s.mark ∧
      (s.apply (privateModeEvent 1049 true)).scrollback = s.scrollback := by
  rcases s.apply_enter true with ⟨grid, row, col, wrap, pen, shifted, henter⟩
  rw [henter]
  refine ⟨rfl, rfl, ?_, rfl, rfl⟩
  exact if_neg (by simp [hprimary])

/-- The grid that was put by is shown again, and the cursor is where the mark says. -/
theorem apply_leave (h : s.Wf) (halternate : s.alternate = true) (hput : s.savedGrid ≠ []) :
    s.apply (privateModeEvent 1049 false) =
      { s with
        alternate := false
        grid := s.savedGrid
        savedGrid := s.grid
        cursor := { s.cursor with row := s.savedCursor.row, col := s.savedCursor.col }
        pen := s.savedPen
        charset := { s.charset with shiftedOut := s.savedShiftedOut }
        pendingWrap := false } := by
  have hsaved := h.saved.resolve_left hput
  have hrow : min s.savedCursor.row (s.rows - 1) = s.savedCursor.row := by
    have hlt : s.savedCursor.row < s.rows := h.savedCursor.1
    omega
  have hcol : min s.savedCursor.col (s.cols - 1) = s.savedCursor.col := by
    have hlt : s.savedCursor.col < s.cols := h.savedCursor.2
    omega
  have hswitch : s.switchScreen false false =
      { s with alternate := false, grid := s.savedGrid, savedGrid := s.grid } := by
    unfold switchScreen
    rw [if_neg (by simp [halternate])]
    dsimp only
    rw [if_neg (fun hne : s.savedGrid.length ≠ s.rows => hne hsaved.1),
      show s.cols = s.size.cols from rfl, map_resize_eq hsaved]
    rfl
  rw [apply_privateMode]
  show (s.switchScreen false false).restoreCursor = _
  rw [hswitch]
  show { s with
    alternate := false
    grid := s.savedGrid
    savedGrid := s.grid
    cursor :=
      { s.cursor with
        row := min s.savedCursor.row (s.rows - 1)
        col := min s.savedCursor.col (s.cols - 1) }
    pen := s.savedPen
    charset := { s.charset with shiftedOut := s.savedShiftedOut }
    pendingWrap := false } = _
  rw [hrow, hcol]

/-- An idle parser's events of a sequence, and nothing before them. -/
theorem write_idle (h : s.Wf) (hidle : s.parser.Idle) {b : UInt8} (hb : b ≠ 0x5C) {rest : Bytes}
    {events : List VtEvent} (hemits : VtParser.Emits (kEsc :: b :: rest) events) :
    ∃ p : VtParser, p.Idle ∧ s.write (kEsc :: b :: rest) =
      { ({ s with parser := p } : Screen).applyAll events with
        revision := (({ s with parser := p } : Screen).applyAll events).revision + 1 } := by
  rcases write_emits h hb hemits with ⟨p, hp, -, hwrite⟩
  have hsettled : s.settled p = { s with parser := p } := by
    unfold settled
    rw [interrupted_idle hidle]
    rfl
  rw [hsettled] at hwrite
  exact ⟨p, hp, hwrite⟩

/-- The alternate screen is entered from an idle parser. -/
theorem write_enter (h : s.Wf) (hidle : s.parser.Idle) (hprimary : s.alternate = false) :
    (s.write enterBytes).alternate = true ∧ (s.write enterBytes).size = s.size ∧
      (s.write enterBytes).savedGrid = s.grid ∧ (s.write enterBytes).savedMark = s.mark ∧
      (s.write enterBytes).scrollback = s.scrollback := by
  have hemits : VtParser.Emits enterBytes [privateModeEvent 1049 true] :=
    emits_privateMode (by omega) true
  rcases write_idle h hidle (by decide) hemits with ⟨p, -, hwrite⟩
  have henter := apply_enter_primary (s := { s with parser := p }) hprimary
  unfold enterBytes appendPrivateMode appendCsi at *
  rw [hwrite]
  exact henter

/-- The alternate screen is left, whatever is in progress. -/
theorem write_leave (h : s.Wf) (halternate : s.alternate = true) (hput : s.savedGrid ≠ []) :
    ∃ t : Screen, Beside True True s t ∧
      s.write leaveBytes =
        { t with
          alternate := false
          grid := t.savedGrid
          savedGrid := t.grid
          cursor := { t.cursor with row := t.savedCursor.row, col := t.savedCursor.col }
          pen := t.savedPen
          charset := { t.charset with shiftedOut := t.savedShiftedOut }
          pendingWrap := false
          revision := t.revision + 1 } := by
  have hemits : VtParser.Emits leaveBytes [privateModeEvent 1049 false] :=
    emits_privateMode (by omega) false
  rcases write_emits h (by decide) hemits with ⟨p, -, hok, hwrite⟩
  have hbeside : Beside True True s (s.settled p) := beside_settled s p
  have hleave := apply_leave (h.settled hok) (hbeside.alternate.trans halternate)
    (fun hnil => hput (hbeside.savedGrid.symm.trans hnil))
  refine ⟨s.settled p, hbeside, ?_⟩
  unfold leaveBytes appendPrivateMode appendCsi at *
  rw [hwrite, applyAll_cons, applyAll_nil, hleave]

/-- The events of a write, none of which resets or switches the screen. -/
theorem beside_write (s : Screen) {bytes : Bytes}
    (hstays : ∀ e ∈ (s.parser.parse bytes).2, e ≠ .esc 0x63 0 ∧ ¬ e.SwitchesScreen)
    (hsave : ∀ e ∈ (s.parser.parse bytes).2, e.SavesCursor → ¬ K)
    (hhistory : ∀ e ∈ (s.parser.parse bytes).2, e.ErasesHistory → ¬ H) :
    Beside K H s (s.write bytes) := by
  unfold write
  refine .ite (fun _ => .refl s) fun _ => ?_
  have hparsed : Beside K H s { s with parser := (s.parser.parse bytes).1 } :=
    .of_eq rfl rfl rfl rfl rfl
  have happlied : Beside K H s
      (({ s with parser := (s.parser.parse bytes).1 } : Screen).applyAll (s.parser.parse bytes).2) := by
    refine hparsed.trans (Beside.foldl ?_ _)
    intro t e he
    exact beside_apply t (hstays e he).1 (hstays e he).2 (hsave e he) (hhistory e he)
  exact happlied.trans (.of_eq rfl rfl rfl rfl rfl)

/-! ## The shell's screen -/

/-- The screen with a program run on the alternate screen: in, what the program writes, out. -/
def afterProgram (s : Screen) (w : Bytes) : Screen := ((s.write enterBytes).write w).write leaveBytes

/-- The events the screen's parser makes of what the program writes. -/
def programEvents (s : Screen) (w : Bytes) : List VtEvent := ((s.write enterBytes).parser.parse w).2

/-- The primary screen is shown, and it and the scrollback are what they were. -/
structure ShellKept (s t : Screen) : Prop where
  primary : t.alternate = false
  size : t.size = s.size
  cells : t.grid = s.grid
  scrollback : t.scrollback = s.scrollback

/-- Full-screen programs leave the shell's screen alone: after an output of a program on the
alternate screen that neither resets, switches screens nor erases the scrollback, the primary
screen and the scrollback are what they were. -/
theorem alternate_keepsPrimary (h : s.Reachable) (hprimary : s.alternate = false)
    (hidle : s.parser.Idle) (w : Bytes)
    (hw : ∀ e ∈ s.programEvents w,
      e ≠ .esc 0x63 0 ∧ ¬ e.ErasesHistory ∧ ¬ e.SwitchesScreen) :
    ShellKept s (s.afterProgram w) := by
  have hwf := h.wf
  rcases write_enter hwf hidle hprimary with ⟨hentered, hsize, hgrid, -, hscrollback⟩
  have hprogram : Beside False True (s.write enterBytes) ((s.write enterBytes).write w) := by
    apply beside_write
    · intro e he
      exact ⟨(hw e he).1, (hw e he).2.2⟩
    · intro _ _ _ hfalse
      exact hfalse
    · intro e he herases
      exact absurd herases (hw e he).2.1
  have halternate := hprogram.alternate.trans hentered
  have hput : ((s.write enterBytes).write w).savedGrid ≠ [] := by
    rw [hprogram.savedGrid, hgrid]
    exact hwf.grid_ne_nil
  rcases write_leave ((hwf.write _).write w) halternate hput with ⟨t, hbeside, hleave⟩
  unfold afterProgram
  rw [hleave]
  refine ⟨rfl, ?_, ?_, ?_⟩
  · exact (hbeside.size.trans hprogram.size).trans hsize
  · exact (hbeside.savedGrid.trans hprogram.savedGrid).trans hgrid
  · exact ((hbeside.scrollback trivial halternate).trans (hprogram.scrollback trivial hentered)).trans
      hscrollback

/-- A program that scrolls, paints its erasures and breaks off in the middle of a sequence. -/
theorem alternate_keepsPrimary_midSequence :
    ShellKept ((Screen.new { cols := 2, rows := 2 } 5).write (ascii "ab"))
      (((Screen.new { cols := 2, rows := 2 } 5).write (ascii "ab")).afterProgram
        (ascii "c" ++ [0x0A, 0x0A] ++ kEsc :: ascii "[41;4mJ" ++ kEsc :: ascii "[?25")) := by
  apply alternate_keepsPrimary
  · exact ⟨_, _, [.write (ascii "ab")], rfl⟩
  · decide +kernel
  · exact ⟨by decide +kernel, by decide +kernel⟩
  · decide +kernel

/-! ## The cursor put back -/

theorem apply_parts (s : Screen) (e : VtEvent) : s.apply e = s.applyAll e.parts := by
  cases e with
  | csi final marker intermediate params =>
    unfold VtEvent.parts
    dsimp only
    split
    · next hmarker =>
      subst hmarker
      show s.csi final 0x3F intermediate params = _
      by_cases hfinal : final = 0x68 ∨ final = 0x6C
      · have hone : ∀ (t : Screen) (p : Int),
            t.apply (.csi final 0x3F intermediate [p]) = t.setPrivateMode (vtParam [p] 0 0) (final = 0x68) :=
          fun t p => csi_private t hfinal intermediate [p]
        rw [csi_private s hfinal]
        unfold applyAll
        rw [List.foldl_map, List.foldl_map]
        simp only [hone]
      · have hnone : ∀ (t : Screen) (ps : List Int), t.csi final 0x3F intermediate ps = t := by
          intro t ps
          unfold csi
          rw [if_pos rfl, if_neg hfinal]
        rw [hnone]
        unfold applyAll
        rw [List.foldl_map]
        induction params with
        | nil => rfl
        | cons p params ih =>
          rw [List.foldl_cons]
          show s = params.foldl _ (s.csi final 0x3F intermediate [p])
          rw [hnone]
          exact ih
    · rfl
  | _ => rfl

theorem applyAll_parts (s : Screen) (es : List VtEvent) :
    s.applyAll es = s.applyAll (es.flatMap VtEvent.parts) := by
  induction es generalizing s with
  | nil => rfl
  | cons e es ih => rw [applyAll_cons, List.flatMap_cons, applyAll_append, ← apply_parts, ih]

/-- A part of an event is the event, or one of its changes of a private mode. -/
theorem mem_parts {e part : VtEvent} (h : part ∈ e.parts) :
    part = e ∨ ∃ final intermediate params, ∃ p ∈ params,
      e = .csi final 0x3F intermediate params ∧ part = .csi final 0x3F intermediate [p] := by
  cases e with
  | csi final marker intermediate params =>
    unfold VtEvent.parts at h
    dsimp only at h
    split at h
    · next hmarker =>
      subst hmarker
      rcases List.mem_map.mp h with ⟨p, hp, hpart⟩
      exact Or.inr ⟨final, intermediate, params, p, hp, rfl, hpart.symm⟩
    · exact Or.inl (List.mem_singleton.mp h)
  | _ => exact Or.inl (List.mem_singleton.mp h)

/-- What an event does not do none of its parts does. -/
theorem stays_parts {e part : VtEvent} (h : part ∈ e.parts)
    (hstays : e ≠ .esc 0x63 0 ∧ ¬ e.SwitchesScreen) : part ≠ .esc 0x63 0 ∧ ¬ part.SwitchesScreen := by
  rcases mem_parts h with rfl | ⟨final, intermediate, params, p, hp, rfl, rfl⟩
  · exact hstays
  · refine ⟨by simp, ?_⟩
    rintro ⟨mode, hmode, hswitch⟩
    apply hstays.2
    refine ⟨mode, ?_, hswitch⟩
    unfold VtEvent.privateModes at hmode ⊢
    dsimp only at hmode ⊢
    split at hmode
    · next hfinal =>
      rw [if_pos hfinal]
      rw [List.map_singleton] at hmode
      rw [List.mem_singleton.mp hmode]
      exact List.mem_map_of_mem hp
    · cases hmode

/-- A part changes one private mode at most. -/
theorem single_of_mem_parts {e : VtEvent} {final intermediate : UInt8} {params : List Int}
    (h : .csi final 0x3F intermediate params ∈ e.parts) : ∃ p, params = [p] := by
  unfold VtEvent.parts at h
  split at h
  · next final' marker intermediate' params' =>
    split at h
    · rcases List.mem_map.mp h with ⟨p, -, hpart⟩
      cases hpart
      exact ⟨p, rfl⟩
    · next hmarker =>
      cases List.mem_singleton.mp h
      exact absurd rfl hmarker
  · next hother =>
    cases List.mem_singleton.mp h
    exact absurd rfl (hother final 0x3F intermediate params)

/-- A part that saves the cursor leaves the mark of the screen it is applied to. -/
theorem savedMark_saves (s : Screen) {e part : VtEvent} (h : part ∈ e.parts) (hsaves : part.SavesCursor) :
    (s.apply part).savedMark = s.mark := by
  cases part with
  | esc final intermediate =>
    rcases hsaves with ⟨rfl, rfl⟩
    rfl
  | csi final marker intermediate params =>
    rcases hsaves with ⟨rfl, rfl, rfl⟩ | ⟨rfl, rfl, p, hp, hmode⟩
    · rfl
    · rcases single_of_mem_parts h with ⟨q, rfl⟩
      rw [List.mem_singleton] at hp
      subst hp
      show (s.csi 0x68 0x3F intermediate [p]).savedMark = s.mark
      rw [csi_private s (Or.inl rfl), List.map_singleton, hmode]
      rfl
  | _ => exact absurd hsaves id

/-- The last part that saves the cursor, if there is one, saves the mark `m`. -/
def LastSaves (m : CursorMark) (s : Screen) (parts : List VtEvent) : Prop :=
  ∀ pre part post, parts = pre ++ part :: post → part.SavesCursor →
    (∀ later ∈ post, ¬ later.SavesCursor) → (s.applyAll pre).mark = m

/-- Where an element stands in a list with a last one: in front of the last, or there. -/
theorem concat_split {α : Type} {xs pre post : List α} {x y : α} (h : xs ++ [x] = pre ++ y :: post) :
    (pre = xs ∧ y = x ∧ post = []) ∨ ∃ rest, post = rest ++ [x] ∧ xs = pre ++ y :: rest := by
  rcases List.eq_nil_or_concat post with rfl | ⟨rest, z, rfl⟩
  · rcases List.append_inj' h rfl with ⟨hpre, hlast⟩
    exact Or.inl ⟨hpre.symm, (List.singleton_inj.mp hlast).symm, rfl⟩
  · have h' : xs ++ [x] = (pre ++ y :: rest) ++ [z] := by simpa using h
    rcases List.append_inj' h' rfl with ⟨hpre, hlast⟩
    rw [List.singleton_inj.mp hlast]
    exact Or.inr ⟨rest, by simp, hpre⟩

theorem lastSaves_concat {m : CursorMark} {parts : List VtEvent} {part : VtEvent} :
    LastSaves m s (parts ++ [part]) ↔
      if part.SavesCursor then (s.applyAll parts).mark = m else LastSaves m s parts := by
  by_cases hsaves : part.SavesCursor
  · rw [if_pos hsaves]
    constructor
    · intro h
      exact h parts part [] rfl hsaves (by simp)
    · intro h pre part' post hsplit _ hlast
      rcases concat_split hsplit with ⟨rfl, -, -⟩ | ⟨rest, rfl, -⟩
      · exact h
      · exact absurd hsaves (hlast part (by simp))
  · rw [if_neg hsaves]
    constructor
    · intro h pre part' post hsplit hpart hlast
      refine h pre part' (post ++ [part]) (by simp [hsplit]) hpart ?_
      intro later hlater
      rcases List.mem_append.mp hlater with hlater | hlater
      · exact hlast later hlater
      · rw [List.mem_singleton.mp hlater]
        exact hsaves
    · intro h pre part' post hsplit hpart hlast
      rcases concat_split hsplit with ⟨-, rfl, -⟩ | ⟨rest, rfl, hparts⟩
      · exact absurd hpart hsaves
      · exact h pre part' rest hparts hpart fun later hlater => hlast later (by simp [hlater])

/-- The mark saved at the end is the one saved at the start, or by the last part that saves. -/
theorem savedMark_applyAll {parts : List VtEvent}
    (hparts : ∀ part ∈ parts, (∃ e : VtEvent, part ∈ e.parts) ∧ part ≠ .esc 0x63 0 ∧ ¬ part.SwitchesScreen) :
    (s.applyAll parts).savedMark = s.savedMark ↔ LastSaves s.savedMark s parts := by
  induction parts using List.reverseRecOn with
  | nil =>
    constructor
    · intro _ pre part post hsplit
      exact absurd (congrArg List.length hsplit) (by simp)
    · intro _
      rfl
  | append_singleton parts part ih =>
    rcases hparts part (by simp) with ⟨⟨e, hpart⟩, hreset, hstays⟩
    rw [lastSaves_concat, applyAll_append, applyAll_cons, applyAll_nil]
    by_cases hsaves : part.SavesCursor
    · rw [if_pos hsaves, savedMark_saves _ hpart hsaves]
    · have hbeside : Beside True False (s.applyAll parts) ((s.applyAll parts).apply part) :=
        beside_apply _ hreset hstays (fun h => absurd h hsaves) fun _ hfalse => hfalse
      rw [if_neg hsaves, hbeside.savedMark trivial]
      exact ih fun part' hmem => hparts part' (by simp [hmem])

/-- Leaving a full-screen program puts the cursor back exactly when the program did not save
another: the cursor, the pen and the shift are as before if and only if the last part of its
output that saves the cursor, if any does, saves them as they were before. -/
theorem alternate_restoresCursor_iff (h : s.Reachable) (hprimary : s.alternate = false)
    (hidle : s.parser.Idle) (w : Bytes)
    (hw : ∀ e ∈ s.programEvents w, e ≠ .esc 0x63 0 ∧ ¬ e.SwitchesScreen) :
    (s.afterProgram w).mark = s.mark ↔
      LastSaves s.mark (s.write enterBytes) ((s.programEvents w).flatMap VtEvent.parts) := by
  have hwf := h.wf
  rcases write_enter hwf hidle hprimary with ⟨hentered, hsize, hgrid, hmark, -⟩
  have hprogram : Beside False False (s.write enterBytes) ((s.write enterBytes).write w) :=
    beside_write _ hw (fun _ _ _ hfalse => hfalse) fun _ _ _ hfalse => hfalse
  have halternate := hprogram.alternate.trans hentered
  have hput : ((s.write enterBytes).write w).savedGrid ≠ [] := by
    rw [hprogram.savedGrid, hgrid]
    exact hwf.grid_ne_nil
  rcases write_leave ((hwf.write _).write w) halternate hput with ⟨t, hbeside, hleave⟩
  -- what is put back is the mark saved last
  have hback : (s.afterProgram w).mark = ((s.write enterBytes).write w).savedMark := by
    unfold afterProgram
    rw [hleave]
    exact hbeside.savedMark trivial
  have hevents : ((s.write enterBytes).write w).savedMark =
      ((s.write enterBytes).applyAll ((s.programEvents w).flatMap VtEvent.parts)).savedMark := by
    rw [← applyAll_parts]
    exact (write_shows (s.write enterBytes) w).savedMark
  rw [hback, hevents, ← hmark]
  apply savedMark_applyAll
  intro part hpart
  rcases List.mem_flatMap.mp hpart with ⟨e, he, hpart⟩
  exact ⟨⟨e, hpart⟩, stays_parts hpart (hw e he)⟩

/-- A program that saves the cursor in the middle and goes back to where it started before it
saves again. -/
theorem alternate_restoresCursor_iff_savedAgain :
    (((Screen.new { cols := 4, rows := 2 } 5).write (ascii "a")).afterProgram
        (ascii "b" ++ kEsc :: ascii "7" ++ [0x08] ++ kEsc :: ascii "[s")).mark =
        ((Screen.new { cols := 4, rows := 2 } 5).write (ascii "a")).mark ↔
      LastSaves ((Screen.new { cols := 4, rows := 2 } 5).write (ascii "a")).mark
        (((Screen.new { cols := 4, rows := 2 } 5).write (ascii "a")).write enterBytes)
        ((((Screen.new { cols := 4, rows := 2 } 5).write (ascii "a")).programEvents
          (ascii "b" ++ kEsc :: ascii "7" ++ [0x08] ++ kEsc :: ascii "[s")).flatMap VtEvent.parts) :=
  alternate_restoresCursor_iff ⟨_, _, [.write (ascii "a")], rfl⟩ rfl ⟨rfl, rfl⟩ _ (by decide +kernel)

/-- A program that prints a letter and saves the cursor with ESC 7: the shell's cursor comes
back behind that letter. -/
theorem alternate_movesCursor :
    ((Screen.new { cols := 4, rows := 2 } 5).write (ascii "a")).Reachable ∧
      ((Screen.new { cols := 4, rows := 2 } 5).write (ascii "a")).alternate = false ∧
      ((Screen.new { cols := 4, rows := 2 } 5).write (ascii "a")).parser.Idle ∧
      (∀ e ∈ ((Screen.new { cols := 4, rows := 2 } 5).write (ascii "a")).programEvents
        (ascii "b" ++ kEsc :: ascii "7"), e ≠ .esc 0x63 0 ∧ ¬ e.SwitchesScreen) ∧
      (((Screen.new { cols := 4, rows := 2 } 5).write (ascii "a")).afterProgram
        (ascii "b" ++ kEsc :: ascii "7")).mark ≠
        ((Screen.new { cols := 4, rows := 2 } 5).write (ascii "a")).mark := by
  refine ⟨⟨_, _, [.write (ascii "a")], rfl⟩, rfl, ⟨rfl, rfl⟩, ?_, ?_⟩
  · decide +kernel
  · decide +kernel

end Screen

end Deskhub
