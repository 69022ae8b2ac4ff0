import Deskhub.Terminal.ScreenAlternate

/-!
# The grid that comes back

What is put by when the screens are switched is seen only when they are switched back, and then at
the size of the screen. Two screens that agree but for what comes back alike go on alike.
-/

namespace Deskhub

namespace Screen

/-- The grid that a switch of the screens brings back. -/
def putBy (s : Screen) : List Row :=
  (if s.savedGrid.length ≠ s.rows then List.replicate s.rows (List.replicate s.cols ({} : Cell))
    else s.savedGrid).map (fun row => resizeRow row s.cols {})

/-- The screen with another grid put by, and the saved cursor visible or not. -/
def under (grid : List Row) (visible : Bool) (s : Screen) : Screen :=
  { s with savedGrid := grid, savedCursor := { s.savedCursor with visible := visible } }

/-- The screens agree but for a grid that comes back alike. -/
def Levels (s t : Screen) : Prop := ∃ grid visible, t = s.under grid visible ∧ t.putBy = s.putBy

variable {s t : Screen} {grid : List Row} {visible : Bool}

theorem Levels.refl (s : Screen) : Levels s s := ⟨s.savedGrid, s.savedCursor.visible, rfl, rfl⟩

/-- What leaves the other grid where it is brings it back alike. -/
theorem levels_under {s' : Screen} (hback : (s.under grid visible).putBy = s.putBy)
    (hsize : s'.size = s.size) (hgrid : s'.savedGrid = s.savedGrid) :
    Levels s' (s'.under grid visible) := by
  have hkept : s'.putBy = s.putBy := by
    unfold putBy rows cols
    rw [hgrid, hsize]
  have hunder : (s'.under grid visible).putBy = (s.under grid visible).putBy := by
    unfold putBy under rows cols
    dsimp only
    rw [hsize]
  exact ⟨grid, visible, rfl, (hunder.trans hback).trans hkept.symm⟩

theorem Levels.ite {c : Prop} [Decidable c] {a a' b b' : Screen} (ha : c → Levels a a')
    (hb : ¬ c → Levels b b') : Levels (if c then a else b) (if c then a' else b') := by
  by_cases h : c
  · rw [if_pos h, if_pos h]
    exact ha h
  · rw [if_neg h, if_neg h]
    exact hb h

theorem Levels.foldl {α : Type} {f : Screen → α → Screen}
    (hf : ∀ s t : Screen, Levels s t → ∀ a, Levels (f s a) (f t a)) (h : Levels s t) (as : List α) :
    Levels (as.foldl f s) (as.foldl f t) := by
  induction as generalizing s t with
  | nil => exact h
  | cons a as ih => exact ih (hf s t h a)

/-- The branches of a dispatch, one at a time. -/
theorem under_ite {c : Prop} [Decidable c] {a a' b b' : Screen} (ha : c → a' = a.under grid visible)
    (hb : ¬ c → b' = b.under grid visible) :
    (if c then a' else b') = (if c then a else b).under grid visible := by
  by_cases h : c
  · rw [if_pos h, if_pos h]
    exact ha h
  · rw [if_neg h, if_neg h]
    exact hb h

/-! ## Scrolling, printing and moving -/

theorem under_scrollUp (s : Screen) (count : Nat) :
    (s.under grid visible).scrollUp count = (s.scrollUp count).under grid visible := by
  have hpushed : ∀ (lines : List Row) (u : Screen),
      lines.foldl pushScrollback (u.under grid visible) =
        (lines.foldl pushScrollback u).under grid visible := by
    intro lines
    induction lines with
    | nil =>
      intro u
      rfl
    | cons line lines ih =>
      intro u
      have hone : (u.under grid visible).pushScrollback line =
          (u.pushScrollback line).under grid visible :=
        under_ite (fun _ => rfl) fun _ => rfl
      rw [List.foldl_cons, List.foldl_cons, hone]
      exact ih _
  have hleft : ∀ lines : List Row,
      (if s.region.top = 0 ∧ !s.alternate then lines.foldl pushScrollback (s.under grid visible)
        else s.under grid visible) =
        (if s.region.top = 0 ∧ !s.alternate then lines.foldl pushScrollback s else s).under grid visible :=
    fun lines => under_ite (fun _ => hpushed lines s) fun _ => rfl
  have hkept := congrArg Screen.scrollback
    (hleft (s.regionRows.take (min count (s.region.bottom - s.region.top + 1))))
  have hscrollback : ((s.under grid visible).scrollUp count).scrollback =
      (s.scrollUp count).scrollback := hkept
  rw [scrollUp_eq s count, scrollUp_eq (s.under grid visible) count, hscrollback]
  rfl

theorem under_lineFeed (s : Screen) :
    (s.under grid visible).lineFeed = s.lineFeed.under grid visible :=
  under_ite (fun _ => under_scrollUp { s with pendingWrap := false } 1) fun _ =>
    under_ite (fun _ => rfl) fun _ => rfl

theorem under_reverseIndex (s : Screen) :
    (s.under grid visible).reverseIndex = s.reverseIndex.under grid visible :=
  under_ite (fun _ => rfl) fun _ => under_ite (fun _ => rfl) fun _ => rfl

theorem under_print (s : Screen) (cp : Nat) :
    (s.under grid visible).print cp = (s.print cp).under grid visible := by
  have hfed : (s.under grid visible).wrapPending = s.wrapPending.under grid visible := by
    have hmade : (if s.pendingWrap && s.modes.autoWrap then ((s.under grid visible).setCol 0).lineFeed
          else s.under grid visible) =
        (if s.pendingWrap && s.modes.autoWrap then (s.setCol 0).lineFeed else s).under grid visible :=
      under_ite (fun _ => under_lineFeed (s.setCol 0)) fun _ => rfl
    unfold wrapPending
    dsimp only
    exact congrArg (fun u : Screen => { u with pendingWrap := false }) hmade
  have hplaced : ∀ u : Screen,
      (if u.cols ≤ u.cursor.col then (u.under grid visible).setCol (u.cols - 1)
        else u.under grid visible) =
        (if u.cols ≤ u.cursor.col then u.setCol (u.cols - 1) else u).under grid visible :=
    fun u => under_ite (fun _ => rfl) fun _ => rfl
  have hprinted : ∀ u : Screen,
      ((u.under grid visible).setRow u.cursor.row ((u.under grid visible).printedRow cp)).advance =
        (u.setRow u.cursor.row (u.printedRow cp)).advance.under grid visible :=
    fun u => under_ite (fun _ => rfl) fun _ => rfl
  have hcursor := hplaced s.wrapPending
  unfold Screen.print
  dsimp only
  rw [hfed]
  exact (congrArg (fun u : Screen => (u.setRow u.cursor.row (u.printedRow cp)).advance) hcursor).trans
    (hprinted _)

theorem under_execute (s : Screen) (control : UInt8) :
    (s.under grid visible).execute control = (s.execute control).under grid visible := by
  unfold execute
  refine under_ite (fun _ => ?_) fun _ => ?_
  · exact under_ite (fun _ => rfl) fun _ => under_ite (fun _ => rfl) fun _ => rfl
  refine under_ite (fun _ => rfl) fun _ => ?_
  refine under_ite (fun _ => under_lineFeed s) fun _ => ?_
  refine under_ite (fun _ => rfl) fun _ => ?_
  exact under_ite (fun _ => rfl) fun _ => under_ite (fun _ => rfl) fun _ => rfl

/-! ## Erasing, inserting and deleting -/

theorem under_eraseInDisplay (s : Screen) (how : Int) :
    (s.under grid visible).eraseInDisplay how = (s.eraseInDisplay how).under grid visible := by
  unfold eraseInDisplay
  refine under_ite (fun _ => rfl) fun _ => under_ite (fun _ => ?_) fun _ => rfl
  by_cases hthree : how = 3
  · rw [if_pos hthree, if_pos hthree]
    rfl
  · rw [if_neg hthree, if_neg hthree]
    rfl

theorem under_eraseInLine (s : Screen) (how : Int) :
    (s.under grid visible).eraseInLine how = (s.eraseInLine how).under grid visible :=
  under_ite (fun _ => rfl) fun _ => under_ite (fun _ => rfl) fun _ => rfl

theorem under_atCursorRow {f : Screen → Screen}
    (hf : ∀ u : Screen, f (u.under grid visible) = (f u).under grid visible) (s : Screen) :
    (s.under grid visible).atCursorRow f = (s.atCursorRow f).under grid visible := by
  refine under_ite (fun _ => rfl) fun _ => ?_
  have hmoved := hf { s with region := { s.region with top := s.cursor.row } }
  exact congrArg (fun u : Screen =>
    { u.setCol 0 with region := { u.region with top := s.region.top }, pendingWrap := false }) hmoved

/-! ## Modes -/

theorem under_setAnsiMode (s : Screen) (mode : Int) (on : Bool) :
    (s.under grid visible).setAnsiMode mode on = (s.setAnsiMode mode on).under grid visible :=
  under_ite (fun _ => rfl) fun _ => rfl

theorem under_respond (s : Screen) (text : Bytes) :
    (s.under grid visible).respond text = (s.respond text).under grid visible :=
  under_ite (fun _ => rfl) fun _ => rfl

theorem Levels.under (h : Levels s t) {f : Screen → Screen}
    (hf : ∀ grid visible, f (s.under grid visible) = (f s).under grid visible)
    (hbeside : Beside False False s (f s)) : Levels (f s) (f t) := by
  rcases h with ⟨grid, visible, rfl, hback⟩
  rw [hf]
  exact levels_under hback hbeside.size hbeside.savedGrid

theorem Levels.eraseInDisplay (h : Levels s t) (how : Int) :
    Levels (s.eraseInDisplay how) (t.eraseInDisplay how) :=
  h.under (f := fun u => u.eraseInDisplay how) (fun _ _ => under_eraseInDisplay s how)
    (beside_eraseInDisplay s fun _ => not_false)

theorem Levels.restoreCursor (h : Levels s t) : Levels s.restoreCursor t.restoreCursor :=
  h.under (f := Screen.restoreCursor) (fun _ _ => rfl) (.of_eq rfl rfl rfl rfl rfl)

/-- The cursor is saved as it is now, and visible as it is now. -/
theorem Levels.saveCursor (h : Levels s t) : Levels s.saveCursor t.saveCursor := by
  rcases h with ⟨grid, visible, rfl, hback⟩
  exact ⟨grid, s.cursor.visible, rfl, hback⟩

/-- What comes back is what was alike; what is put by then is the same. -/
theorem Levels.switchScreen (h : Levels s t) (alternate clear : Bool) :
    Levels (s.switchScreen alternate clear) (t.switchScreen alternate clear) := by
  have herased := h.eraseInDisplay 2
  rcases h with ⟨grid, visible, rfl, hback⟩
  have hswitched : Levels
      { s with alternate := alternate, grid := s.putBy, savedGrid := s.grid }
      { s.under grid visible with
        alternate := alternate
        grid := (s.under grid visible).putBy
        savedGrid := s.grid } := by
    rw [hback]
    exact ⟨s.grid, visible, rfl, rfl⟩
  unfold Screen.switchScreen
  refine .ite (fun _ => .ite (fun _ => herased) fun _ => ⟨grid, visible, rfl, hback⟩) fun _ => ?_
  exact .ite (fun _ => hswitched.eraseInDisplay 2) fun _ => hswitched

theorem Levels.setPrivateMode (h : Levels s t) (mode : Int) (on : Bool) :
    Levels (s.setPrivateMode mode on) (t.setPrivateMode mode on) := by
  have hswitched : ∀ clear, Levels (s.switchScreen on clear) (t.switchScreen on clear) :=
    fun clear => h.switchScreen on clear
  have hcleared : Levels (if !on && s.alternate then s.eraseInDisplay 2 else s)
      (if !on && t.alternate then t.eraseInDisplay 2 else t) := by
    have herased := h.eraseInDisplay 2
    rcases h with ⟨grid, visible, rfl, hback⟩
    exact .ite (fun _ => herased) fun _ => ⟨grid, visible, rfl, hback⟩
  have hsaved : Levels (if on then s.saveCursor else s) (if on then t.saveCursor else t) :=
    .ite (fun _ => h.saveCursor) fun _ => h
  have hentered : Levels
      (if on then (if on then s.saveCursor else s).switchScreen on on
        else ((if on then s.saveCursor else s).switchScreen on on).restoreCursor)
      (if on then (if on then t.saveCursor else t).switchScreen on on
        else ((if on then t.saveCursor else t).switchScreen on on).restoreCursor) :=
    .ite (fun _ => hsaved.switchScreen on on) fun _ => (hsaved.switchScreen on on).restoreCursor
  have hkept := h.saveCursor
  have hrestored := h.restoreCursor
  rcases h with ⟨grid, visible, rfl, hback⟩
  -- whatever leaves the size and the grid that is put by
  have hleft : ∀ u : Screen, u.size = s.size → u.savedGrid = s.savedGrid →
      Levels u (u.under grid visible) := fun _ => levels_under hback
  unfold Screen.setPrivateMode
  refine .ite (fun _ => hleft _ rfl rfl) fun _ => ?_
  refine .ite (fun _ => hleft _ rfl rfl) fun _ => ?_
  refine .ite (fun _ => hleft (({ s with modes := { s.modes with origin := on } } : Screen).moveTo 0 0)
    rfl rfl) fun _ => ?_
  refine .ite (fun _ => hleft _ rfl rfl) fun _ => ?_
  refine .ite (fun _ => hleft _ rfl rfl) fun _ => ?_
  refine .ite (fun _ => hswitched false) fun _ => ?_
  refine .ite (fun _ => hcleared.switchScreen on false) fun _ => ?_
  refine .ite (fun _ => .ite (fun _ => hkept) fun _ => hrestored) fun _ => ?_
  refine .ite (fun _ => hentered) fun _ => ?_
  exact .ite (fun _ => hleft _ rfl rfl) fun _ =>
    .ite (fun _ => hleft _ rfl rfl) fun _ => hleft _ rfl rfl

/-! ## Events -/

theorem Levels.csiPublic (h : Levels s t) (final : UInt8) (params : List Int) :
    Levels (s.csiPublic final params) (t.csiPublic final params) := by
  have hmodes : Levels
      ((List.range params.length).foldl
        (fun s i => s.setAnsiMode (vtParam params i 0) (final = 0x68)) s)
      ((List.range params.length).foldl
        (fun s i => s.setAnsiMode (vtParam params i 0) (final = 0x68)) t) := by
    apply Levels.foldl _ h
    intro u v huv i
    exact huv.under (f := fun w => w.setAnsiMode (vtParam params i 0) (final = 0x68))
      (fun _ _ => under_setAnsiMode u _ _) (beside_setAnsiMode u _ _)
  have hkept := h.saveCursor
  have hdisplay := h.eraseInDisplay (vtParam params 0 0)
  have hline := h.under (f := fun u => u.eraseInLine (vtParam params 0 0))
    (fun _ _ => under_eraseInLine s _) (beside_eraseInLine s _)
  have hinsert := h.under (f := fun u => u.insertLines (clampCount (vtParam params 0 1) s.rows))
    (fun _ _ => under_atCursorRow (f := fun u => u.scrollDown _) (fun _ => rfl) s)
    (beside_atCursorRow s fun _ => .of_eq rfl rfl rfl rfl rfl)
  have hdelete := h.under (f := fun u => u.deleteLines (clampCount (vtParam params 0 1) s.rows))
    (fun _ _ => under_atCursorRow (fun u => under_scrollUp u _) s)
    (beside_atCursorRow s fun u => beside_scrollUp u _)
  have hup := h.under (f := fun u => u.scrollUp (clampCount (vtParam params 0 1) s.rows))
    (fun _ _ => under_scrollUp s _) (beside_scrollUp s _)
  have hanswer : ∀ {u v : Screen}, Levels u v → ∀ text, Levels (u.respond text) (v.respond text) :=
    fun huv text => huv.under (f := fun w => w.respond text) (fun _ _ => under_respond _ _)
      (beside_respond _ _)
  have hfive : Levels (if vtParam params 0 0 = 5 then s.respond ([0x1B] ++ ascii "[0n") else s)
      (if vtParam params 0 0 = 5 then t.respond ([0x1B] ++ ascii "[0n") else t) :=
    .ite (fun _ => hanswer h _) fun _ => h
  have hsix := hfive.under
    (f := fun u => u.respond ([0x1B] ++ ascii "[" ++ decimalInt (u.originRow + 1) ++ ascii ";" ++
      decimal (u.cursor.col + 1) ++ ascii "R"))
    (fun _ _ => under_respond _ _) (beside_respond _ _)
  have hdevice := hanswer h kDeviceAttributes
  rcases h with ⟨grid, visible, rfl, hback⟩
  have hleft : ∀ u : Screen, u.size = s.size → u.savedGrid = s.savedGrid →
      Levels u (u.under grid visible) := fun _ => levels_under hback
  unfold Screen.csiPublic
  refine .ite (fun _ => hleft (s.moveBy _ _) rfl rfl) fun _ => ?_
  refine .ite (fun _ => hleft (s.moveBy _ _) rfl rfl) fun _ => ?_
  refine .ite (fun _ => hleft (s.moveBy _ _) rfl rfl) fun _ => ?_
  refine .ite (fun _ => hleft (s.moveBy _ _) rfl rfl) fun _ => ?_
  refine .ite (fun _ => hleft ((s.moveBy _ _).setCol 0) rfl rfl) fun _ => ?_
  refine .ite (fun _ => hleft ((s.moveBy _ _).setCol 0) rfl rfl) fun _ => ?_
  refine .ite (fun _ => hleft (s.moveTo _ _) rfl rfl) fun _ => ?_
  refine .ite (fun _ => hleft (s.moveTo _ _) rfl rfl) fun _ => ?_
  refine .ite (fun _ => hleft (s.tab _) rfl rfl) fun _ => ?_
  refine .ite (fun _ => hdisplay) fun _ => ?_
  refine .ite (fun _ => hline) fun _ => ?_
  refine .ite (fun _ => hinsert) fun _ => ?_
  refine .ite (fun _ => hdelete) fun _ => ?_
  refine .ite (fun _ => hleft (s.deleteChars _) rfl rfl) fun _ => ?_
  refine .ite (fun _ => hup) fun _ => ?_
  refine .ite (fun _ => hleft (s.scrollDown _) rfl rfl) fun _ => ?_
  refine .ite (fun _ => hleft (s.eraseChars _) rfl rfl) fun _ => ?_
  refine .ite (fun _ => hleft (s.backTab _) rfl rfl) fun _ => ?_
  refine .ite (fun _ => hleft (s.insertChars _) rfl rfl) fun _ => ?_
  refine .ite (fun _ => hleft (s.moveTo _ _) rfl rfl) fun _ => ?_
  refine .ite (fun _ => .ite (fun _ => hdevice) fun _ => hleft s rfl rfl) fun _ => ?_
  refine .ite (fun _ => ?_) fun _ => ?_
  · exact .ite (fun _ => hleft { s with pen := {} } rfl rfl) fun _ =>
      hleft { s with pen := sgrCodes params params.length s.pen 0 } rfl rfl
  refine .ite (fun _ => .ite (fun _ => hsix) fun _ => hfive) fun _ => ?_
  refine .ite (fun _ => hleft (s.setScrollRegion _ _) rfl rfl) fun _ => ?_
  refine .ite (fun _ => hkept) fun _ => ?_
  refine .ite (fun _ => hleft s.restoreCursor rfl rfl) fun _ => ?_
  exact .ite (fun _ => hmodes) fun _ => hleft s rfl rfl

theorem Levels.csi (h : Levels s t) (final marker intermediate : UInt8) (params : List Int) :
    Levels (s.csi final marker intermediate params) (t.csi final marker intermediate params) := by
  unfold Screen.csi
  refine .ite (fun _ => .ite (fun _ => ?_) fun _ => h) fun _ => ?_
  · exact Levels.foldl (fun _ _ hs i => hs.setPrivateMode (vtParam params i 0) (final = 0x68)) h _
  refine .ite (fun _ => h) fun _ => ?_
  exact .ite (fun _ => h) fun _ => h.csiPublic final params

theorem Levels.esc (h : Levels s t) (final intermediate : UInt8) :
    Levels (s.esc final intermediate) (t.esc final intermediate) := by
  have hkept := h.saveCursor
  have hfed : Levels s.lineFeed t.lineFeed :=
    h.under (f := Screen.lineFeed) (fun _ _ => under_lineFeed s) (beside_lineFeed s)
  have hnext : Levels (s.lineFeed.setCol 0) (t.lineFeed.setCol 0) :=
    hfed.under (f := fun u => u.setCol 0) (fun _ _ => rfl) (.of_eq rfl rfl rfl rfl rfl)
  have hindex : Levels s.reverseIndex t.reverseIndex :=
    h.under (f := Screen.reverseIndex) (fun _ _ => under_reverseIndex s) (beside_reverseIndex s)
  rcases h with ⟨grid, visible, rfl, hback⟩
  have hleft : ∀ u : Screen, u.size = s.size → u.savedGrid = s.savedGrid →
      Levels u (u.under grid visible) := fun _ => levels_under hback
  unfold Screen.esc
  refine .ite (fun _ => hleft _ rfl rfl) fun _ => ?_
  refine .ite (fun _ => hleft _ rfl rfl) fun _ => ?_
  refine .ite (fun _ => .ite (fun _ => hleft _ rfl rfl) fun _ => hleft s rfl rfl) fun _ => ?_
  refine .ite (fun _ => hleft s rfl rfl) fun _ => ?_
  refine .ite (fun _ => hkept) fun _ => ?_
  refine .ite (fun _ => hleft s.restoreCursor rfl rfl) fun _ => ?_
  refine .ite (fun _ => hleft _ rfl rfl) fun _ => ?_
  refine .ite (fun _ => hleft _ rfl rfl) fun _ => ?_
  refine .ite (fun _ => hfed) fun _ => ?_
  refine .ite (fun _ => hnext) fun _ => ?_
  refine .ite (fun _ => hindex) fun _ => ?_
  -- a reset puts nothing by
  exact .ite (fun _ => .refl s.fullReset) fun _ => hleft s rfl rfl

theorem under_oscEvent (s : Screen) (command : Int) (text : Bytes) :
    (s.under grid visible).oscEvent command text = (s.oscEvent command text).under grid visible :=
  under_ite (fun _ => rfl) fun _ => rfl

/-- The step lemma: an event brings back alike what was alike. -/
theorem Levels.apply (h : Levels s t) (e : VtEvent) : Levels (s.apply e) (t.apply e) := by
  cases e with
  | print cp =>
    exact h.under (f := fun u => u.print cp) (fun _ _ => under_print s cp) (beside_print s cp)
  | execute control =>
    exact h.under (f := fun u => u.execute control) (fun _ _ => under_execute s control)
      (beside_execute s control)
  | csi final marker intermediate params => exact h.csi final marker intermediate params
  | esc final intermediate => exact h.esc final intermediate
  | osc command text =>
    exact h.under (f := fun u => u.oscEvent command text) (fun _ _ => under_oscEvent s command text)
      (beside_oscEvent s command text)

theorem Levels.applyAll (h : Levels s t) (events : List VtEvent) :
    Levels (s.applyAll events) (t.applyAll events) :=
  Levels.foldl (fun _ _ hs e => hs.apply e) h events

end Screen

end Deskhub
