import Deskhub.Lib.Machine
import Deskhub.Terminal.ScreenIndex

/-!
# The screen's bounds

Where a wrap is pending, how many rows the scrollback keeps and how long the response
gets; and, with the shape of the grids and the indices, what holds of every screen after
any calls.
-/

namespace Deskhub

namespace Screen

/-- What holds of the pending wrap, the scrollback and the response of a screen whose
scrollback is limited to `limit` rows. -/
structure Held (limit : Nat) (s : Screen) : Prop where
  wrap : s.pendingWrap = true → s.cursor.col + 1 = s.cols
  limited : s.scrollbackLimit = limit
  scrollback : s.scrollback.length ≤ limit
  response : s.response.length ≤ kMaxResponseBytes

variable {limit : Nat} {s t : Screen}

/-- No wrap is pending, and the rest is as it was. -/
theorem Held.unwrapped (h : s.Held limit) (hwrap : t.pendingWrap = false)
    (hlimit : t.scrollbackLimit = s.scrollbackLimit) (hscrollback : t.scrollback = s.scrollback)
    (hresponse : t.response = s.response) : t.Held limit := by
  refine ⟨?_, hlimit.trans h.limited, ?_, ?_⟩
  · intro hpending
    rw [hwrap] at hpending
    cases hpending
  · rw [hscrollback]
    exact h.scrollback
  · rw [hresponse]
    exact h.response

/-- The branches of a dispatch, one at a time. -/
theorem Held.ite {c : Prop} [Decidable c] (hs : c → s.Held limit) (ht : ¬ c → t.Held limit) :
    (if c then s else t).Held limit := by
  by_cases h : c
  · rw [if_pos h]
    exact hs h
  · rw [if_neg h]
    exact ht h

theorem Held.foldl {α : Type} {f : Screen → α → Screen}
    (hf : ∀ t : Screen, t.Held limit → ∀ a, (f t a).Held limit) (h : s.Held limit) (as : List α) :
    (as.foldl f s).Held limit := by
  induction as generalizing s with
  | nil => exact h
  | cons a as ih => exact ih (hf s h a)

/-! ## Scrolling -/

/-- A row more in the scrollback, and the oldest ones out. -/
theorem Held.pushScrollback (h : s.Held limit) (row : Row) : (s.pushScrollback row).Held limit := by
  unfold Screen.pushScrollback
  split
  · exact h
  · refine { h with scrollback := ?_ }
    have hlimit := h.limited
    show ((s.scrollback ++ [row]).drop ((s.scrollback ++ [row]).length - s.scrollbackLimit)).length ≤
      limit
    rw [List.length_drop]
    omega

theorem Held.scrollUp (h : s.Held limit) (count : Nat) : (s.scrollUp count).Held limit := by
  have hpushed : (if s.region.top = 0 ∧ !s.alternate then
      (s.regionRows.take (min count (s.region.bottom - s.region.top + 1))).foldl
        Screen.pushScrollback s else s).Held limit :=
    .ite (fun _ => Held.foldl (fun _ ht row => ht.pushScrollback row) h _) fun _ => h
  exact { hpushed with }

theorem Held.scrollDown (h : s.Held limit) (count : Nat) : (s.scrollDown count).Held limit :=
  { h with }

/-- A line feed gives up the wrap first. -/
theorem Held.lineFeed (h : ({ s with pendingWrap := false } : Screen).Held limit) :
    s.lineFeed.Held limit := by
  unfold Screen.lineFeed
  exact .ite (fun _ => h.scrollUp 1) fun _ =>
    .ite (fun _ => h.unwrapped rfl rfl rfl rfl) fun _ => h

theorem Held.reverseIndex (h : ({ s with pendingWrap := false } : Screen).Held limit) :
    s.reverseIndex.Held limit := by
  unfold Screen.reverseIndex
  exact .ite (fun _ => h.scrollDown 1) fun _ =>
    .ite (fun _ => h.unwrapped rfl rfl rfl rfl) fun _ => h

theorem Held.cleared (h : s.Held limit) : ({ s with pendingWrap := false } : Screen).Held limit :=
  h.unwrapped rfl rfl rfl rfl

/-- No wrap is pending once a line was fed. -/
theorem lineFeed_pendingWrap (s : Screen) : s.lineFeed.pendingWrap = false := by
  unfold Screen.lineFeed
  dsimp only
  split
  · rw [scrollUp_eq]
  · split
    · rfl
    · rfl

/-! ## Printing and moving -/

theorem Held.wrapPending (h : s.Held limit) : s.wrapPending.Held limit := by
  have hfed : ({ s.setCol 0 with pendingWrap := false } : Screen).Held limit :=
    h.unwrapped rfl rfl rfl rfl
  have hmade : (if s.pendingWrap && s.modes.autoWrap then (s.setCol 0).lineFeed else s).Held limit :=
    .ite (fun _ => hfed.lineFeed) fun _ => h
  exact hmade.cleared

/-- The cursor goes on from a column of the screen. -/
theorem Held.advance (h : s.Held limit) (hcol : s.cursor.col < s.cols)
    (hwrap : s.pendingWrap = false) : s.advance.Held limit := by
  unfold Screen.advance
  split
  · next hlast =>
    refine { h with wrap := ?_ }
    intro
    exact Nat.le_antisymm hcol hlast
  · exact h.unwrapped hwrap rfl rfl rfl

theorem Held.print (h : s.Held limit) (hwf : s.Wf) (cp : Nat) : (s.print cp).Held limit := by
  have hwrapped := h.wrapPending
  have hcols := hwf.wrapPending.size.cols.1
  have hin : ¬ s.wrapPending.cols ≤ s.wrapPending.cursor.col :=
    Nat.not_le.mpr hwf.wrapPending.cursor.2
  have hnone : s.wrapPending.pendingWrap = false := rfl
  unfold Screen.print
  dsimp only
  rw [if_neg hin]
  have hset : (s.wrapPending.setRow s.wrapPending.cursor.row (s.wrapPending.printedRow cp)).Held
      limit := { hwrapped with }
  exact hset.advance hwf.wrapPending.cursor.2 hnone

theorem Held.backspace (h : s.Held limit) : s.backspace.Held limit := by
  unfold Screen.backspace
  split
  · exact h.cleared
  · next hnone =>
    split
    · exact h.unwrapped (Bool.not_eq_true _ ▸ hnone) rfl rfl rfl
    · exact h

theorem Held.place (h : s.Held limit) (row col : Int) : (s.place row col).Held limit :=
  h.unwrapped rfl rfl rfl rfl

theorem Held.execute (h : s.Held limit) (control : UInt8) : (s.execute control).Held limit := by
  unfold Screen.execute
  refine .ite (fun _ => h.backspace) fun _ => ?_
  refine .ite (fun _ => h.unwrapped rfl rfl rfl rfl) fun _ => ?_
  refine .ite (fun _ => h.cleared.lineFeed) fun _ => ?_
  refine .ite (fun _ => h.unwrapped rfl rfl rfl rfl) fun _ => ?_
  refine .ite (fun _ => { h with }) fun _ => ?_
  exact .ite (fun _ => { h with }) fun _ => h

/-! ## Erasing, inserting and deleting -/

theorem Held.eraseInDisplay (h : s.Held limit) (how : Int) : (s.eraseInDisplay how).Held limit := by
  have hcleared : (if how = 3 then { s with scrollback := [] } else s).Held limit :=
    .ite (fun _ => { h with scrollback := Nat.zero_le limit }) fun _ => h
  unfold Screen.eraseInDisplay
  refine .ite (fun _ => { h with }) fun _ => ?_
  exact .ite (fun _ => { hcleared with }) fun _ => { h with }

theorem Held.eraseInLine (h : s.Held limit) (how : Int) : (s.eraseInLine how).Held limit := by
  unfold Screen.eraseInLine
  exact .ite (fun _ => { h with }) fun _ => .ite (fun _ => { h with }) fun _ => { h with }

/-- A scroll of the rows from the cursor's on leaves the cursor in the first column. -/
theorem Held.atCursorRow (h : s.Held limit) {f : Screen → Screen}
    (hf : ∀ t : Screen, t.Held limit → (f t).Held limit) : (s.atCursorRow f).Held limit := by
  have hmoved := hf { s with region := { s.region with top := s.cursor.row } } { h with }
  unfold Screen.atCursorRow
  exact .ite (fun _ => h) fun _ => hmoved.unwrapped rfl rfl rfl rfl

/-! ## Modes -/

theorem Held.switchScreen (h : s.Held limit) (alternate clear : Bool) :
    (s.switchScreen alternate clear).Held limit := by
  have hswitched : ∀ grid,
      ({ s with alternate := alternate, grid := grid, savedGrid := s.grid } : Screen).Held limit :=
    fun grid => { h with }
  unfold Screen.switchScreen
  refine .ite (fun _ => .ite (fun _ => h.eraseInDisplay 2) fun _ => h) fun _ => ?_
  exact .ite (fun _ => (hswitched _).eraseInDisplay 2) fun _ => hswitched _

theorem Held.restoreCursor (h : s.Held limit) : s.restoreCursor.Held limit :=
  h.unwrapped rfl rfl rfl rfl

theorem Held.setPrivateMode (h : s.Held limit) (mode : Int) (on : Bool) :
    (s.setPrivateMode mode on).Held limit := by
  have hmodes : ∀ modes, ({ s with modes := modes } : Screen).Held limit := fun modes => { h with }
  have hsaved : s.saveCursor.Held limit := { h with }
  unfold Screen.setPrivateMode
  refine .ite (fun _ => hmodes _) fun _ => ?_
  refine .ite (fun _ => hmodes _) fun _ => ?_
  refine .ite (fun _ => (hmodes _).place _ _) fun _ => ?_
  refine .ite (fun _ => hmodes _) fun _ => ?_
  refine .ite (fun _ => { h with }) fun _ => ?_
  refine .ite (fun _ => h.switchScreen on false) fun _ => ?_
  refine .ite (fun _ => ?_) fun _ => ?_
  · apply Held.switchScreen
    exact .ite (fun _ => h.eraseInDisplay 2) fun _ => h
  refine .ite (fun _ => .ite (fun _ => hsaved) fun _ => h.restoreCursor) fun _ => ?_
  refine .ite (fun _ => ?_) fun _ => ?_
  · cases on with
    | true => exact hsaved.switchScreen true true
    | false => exact (h.switchScreen false false).restoreCursor
  refine .ite (fun _ => hmodes _) fun _ => ?_
  exact .ite (fun _ => hmodes _) fun _ => h

theorem Held.respond (h : s.Held limit) (text : Bytes) : (s.respond text).Held limit := by
  unfold Screen.respond
  split
  · exact h
  · next hroom =>
    refine { h with response := ?_ }
    show (s.response ++ text).length ≤ kMaxResponseBytes
    rw [List.length_append]
    omega

/-! ## Events -/

theorem Held.csiPublic (h : s.Held limit) (final : UInt8) (params : List Int) :
    (s.csiPublic final params).Held limit := by
  have hfirst : ∀ row col, ((s.place row col).setCol 0).Held limit :=
    fun row col => h.unwrapped rfl rfl rfl rfl
  unfold Screen.csiPublic
  refine .ite (fun _ => h.place _ _) fun _ => ?_
  refine .ite (fun _ => h.place _ _) fun _ => ?_
  refine .ite (fun _ => h.place _ _) fun _ => ?_
  refine .ite (fun _ => h.place _ _) fun _ => ?_
  refine .ite (fun _ => hfirst _ _) fun _ => ?_
  refine .ite (fun _ => hfirst _ _) fun _ => ?_
  refine .ite (fun _ => h.place _ _) fun _ => ?_
  refine .ite (fun _ => h.place _ _) fun _ => ?_
  refine .ite (fun _ => h.unwrapped rfl rfl rfl rfl) fun _ => ?_
  refine .ite (fun _ => h.eraseInDisplay _) fun _ => ?_
  refine .ite (fun _ => h.eraseInLine _) fun _ => ?_
  refine .ite (fun _ => h.atCursorRow fun t ht => ht.scrollDown _) fun _ => ?_
  refine .ite (fun _ => h.atCursorRow fun t ht => ht.scrollUp _) fun _ => ?_
  refine .ite (fun _ => h.unwrapped rfl rfl rfl rfl) fun _ => ?_
  refine .ite (fun _ => h.scrollUp _) fun _ => ?_
  refine .ite (fun _ => h.scrollDown _) fun _ => ?_
  refine .ite (fun _ => h.unwrapped rfl rfl rfl rfl) fun _ => ?_
  refine .ite (fun _ => h.unwrapped rfl rfl rfl rfl) fun _ => ?_
  refine .ite (fun _ => h.unwrapped rfl rfl rfl rfl) fun _ => ?_
  refine .ite (fun _ => h.place _ _) fun _ => ?_
  refine .ite (fun _ => .ite (fun _ => h.respond _) fun _ => h) fun _ => ?_
  refine .ite (fun _ => ?_) fun _ => ?_
  · -- the pen alone
    unfold Screen.sgr
    exact .ite (fun _ => { h with }) fun _ => { h with }
  refine .ite (fun _ => ?_) fun _ => ?_
  · -- a report, or none
    have hfive : (if vtParam params 0 0 = 5 then s.respond ([0x1B] ++ ascii "[0n") else s).Held limit :=
      .ite (fun _ => h.respond _) fun _ => h
    exact .ite (fun _ => hfive.respond _) fun _ => hfive
  refine .ite (fun _ => h.unwrapped rfl rfl rfl rfl) fun _ => ?_
  refine .ite (fun _ => { h with }) fun _ => ?_
  refine .ite (fun _ => h.restoreCursor) fun _ => ?_
  refine .ite (fun _ => ?_) fun _ => h
  refine Held.foldl (fun t ht i => ?_) h _
  unfold Screen.setAnsiMode
  exact .ite (fun _ => { ht with }) fun _ => ht

theorem Held.csi (h : s.Held limit) (final marker intermediate : UInt8) (params : List Int) :
    (s.csi final marker intermediate params).Held limit := by
  unfold Screen.csi
  refine .ite (fun _ => .ite (fun _ => ?_) fun _ => h) fun _ => ?_
  · exact Held.foldl (fun t ht i => ht.setPrivateMode _ _) h _
  exact .ite (fun _ => h) fun _ => .ite (fun _ => h) fun _ => h.csiPublic final params

theorem Held.fullReset (h : s.Held limit) : s.fullReset.Held limit := h.unwrapped rfl rfl rfl rfl

theorem Held.esc (h : s.Held limit) (final intermediate : UInt8) :
    (s.esc final intermediate).Held limit := by
  unfold Screen.esc
  refine .ite (fun _ => { h with }) fun _ => ?_
  refine .ite (fun _ => { h with }) fun _ => ?_
  refine .ite (fun _ => .ite (fun _ => { h with }) fun _ => h) fun _ => ?_
  refine .ite (fun _ => h) fun _ => ?_
  refine .ite (fun _ => { h with }) fun _ => ?_
  refine .ite (fun _ => h.restoreCursor) fun _ => ?_
  refine .ite (fun _ => { h with }) fun _ => ?_
  refine .ite (fun _ => { h with }) fun _ => ?_
  refine .ite (fun _ => h.cleared.lineFeed) fun _ => ?_
  refine .ite (fun _ => ?_) fun _ => ?_
  · exact h.cleared.lineFeed.unwrapped (lineFeed_pendingWrap s) rfl rfl rfl
  refine .ite (fun _ => h.cleared.reverseIndex) fun _ => ?_
  exact .ite (fun _ => h.fullReset) fun _ => h

theorem Held.apply (h : s.Held limit) (hwf : s.Wf) (e : VtEvent) : (s.apply e).Held limit := by
  cases e with
  | print cp => exact h.print hwf cp
  | execute control => exact h.execute control
  | csi final marker intermediate params => exact h.csi final marker intermediate params
  | esc final intermediate => exact h.esc final intermediate
  | osc command text =>
    show (s.oscEvent command text).Held limit
    unfold Screen.oscEvent
    exact .ite (fun _ => h) fun _ => { h with }

theorem Held.applyAll (h : s.Held limit) (hwf : s.Wf) {events : List VtEvent}
    (hok : ∀ e ∈ events, e.Ok) : (s.applyAll events).Held limit := by
  induction events generalizing s with
  | nil => exact h
  | cons e events ih =>
    apply ih (h.apply hwf e) (hwf.apply (hok e List.mem_cons_self))
    intro e' he'
    exact hok e' (List.mem_cons_of_mem e he')

theorem Held.write (h : s.Held limit) (hwf : s.Wf) (bytes : Bytes) : (s.write bytes).Held limit := by
  unfold Screen.write
  refine .ite (fun _ => h) fun _ => ?_
  rcases VtParser.parse_ok hwf.parser bytes with ⟨hparser, hevents⟩
  have hparsed : ({ s with parser := (s.parser.parse bytes).1 } : Screen).Held limit := { h with }
  have happlied := hparsed.applyAll { hwf with parser := hparser } hevents
  exact { happlied with }

theorem Held.resize (h : s.Held limit) (size : TermSize) : (s.resize size).Held limit := by
  have hpushed : ∀ rows : List Row, (rows.foldl Screen.pushScrollback s).Held limit :=
    fun rows => Held.foldl (fun _ ht row => ht.pushScrollback row) h rows
  unfold Screen.resize
  refine .ite (fun _ => h) fun _ => ?_
  dsimp only
  split
  · exact (hpushed _).unwrapped rfl rfl rfl rfl
  · exact h.unwrapped rfl rfl rfl rfl

theorem Held.reset (h : s.Held limit) : s.reset.Held limit := by
  have hcleared : ({ s with parser := {}, scrollback := [], response := [] } : Screen).Held limit :=
    { h with scrollback := Nat.zero_le limit, response := Nat.zero_le _ }
  exact { hcleared.fullReset with }

theorem Held.step (h : s.Held limit) (hwf : s.Wf) (call : ScreenCall) :
    (screen.step s call).1.Held limit := by
  cases call with
  | write bytes => exact h.write hwf bytes
  | resize size => exact h.resize size
  | reset => exact h.reset
  | takeResponse => exact { h with response := Nat.zero_le _ }

theorem Held.new (size : TermSize) (limit : Nat) :
    (Screen.new size limit).Held (min limit kMaxScrollback) := by
  refine ⟨?_, rfl, Nat.zero_le _, Nat.zero_le _⟩
  intro hpending
  cases hpending

/-! ## Every run -/

/-- Every screen that calls lead to keeps to its limits. -/
theorem Reachable.held (h : s.Reachable) : s.Held s.scrollbackLimit := by
  rcases h with ⟨size, limit, calls, rfl⟩
  have hruns := Machine.run_invariant'
    (fun (s : Screen) _ => s.Wf ∧ s.Held (min limit kMaxScrollback))
    ⟨.new size limit, .new size limit⟩
    (fun _ _ call h => ⟨h.1.step call, h.2.step h.1 call⟩) calls
  exact { hruns.2 with limited := rfl, scrollback := hruns.2.limited ▸ hruns.2.scrollback }

/-- The representation invariant of a screen with a scrollback limited to `limit` rows. -/
structure Represents (limit : Nat) (s : Screen) : Prop where
  grid : s.grid.length = s.rows ∧ ∀ row ∈ s.grid, row.length = s.cols
  savedGrid : s.savedGrid = [] ∨
    s.savedGrid.length = s.rows ∧ ∀ row ∈ s.savedGrid, row.length = s.cols
  cursor : s.cursor.row < s.rows ∧ s.cursor.col < s.cols
  savedCursor : s.savedCursor.row < s.rows ∧ s.savedCursor.col < s.cols
  region : s.region.top < s.region.bottom ∧ s.region.bottom < s.rows ∨
    s.region.top = 0 ∧ s.region.bottom + 1 = s.rows
  wrap : s.pendingWrap = true → s.cursor.col + 1 = s.cols
  scrollback : s.scrollback.length ≤ limit
  response : s.response.length ≤ kMaxResponseBytes

theorem Wf.represents (hwf : s.Wf) (h : s.Held limit) : s.Represents limit := by
  have hshape : ∀ grid, GridOk s.size grid →
      grid.length = s.rows ∧ ∀ row ∈ grid, row.length = s.cols :=
    fun grid hgrid => ⟨hgrid.1, fun row hrow => (hgrid.2 row hrow).1⟩
  refine ⟨hshape _ hwf.grid, ?_, hwf.cursor, hwf.savedCursor, ?_, h.wrap, h.scrollback, h.response⟩
  · rcases hwf.saved with hnil | hsaved
    · exact .inl hnil
    · exact .inr (hshape _ hsaved)
  · rcases hwf.region with ⟨hbottom, hinner | hwhole⟩
    · exact .inl ⟨hinner, hbottom⟩
    · exact .inr hwhole

/-- A run of calls with checked indices ends where the run without checks ends. -/
theorem Wf.calls? (hwf : s.Wf) (calls : List ScreenCall) :
    calls.foldlM Screen.call? s = some (screen.run s calls).1 := by
  induction calls generalizing s with
  | nil => rfl
  | cons call calls ih =>
    rw [List.foldlM_cons, hwf.call? call, Machine.run_cons]
    exact ih (hwf.step call)

/-- After any calls on a screen of any size and scrollback limit the representation
invariant holds, and no index on the way was out of its vector's range. -/
theorem screen_represents (size : TermSize) (limit : Nat) (calls : List ScreenCall) :
    ∃ s, calls.foldlM Screen.call? (Screen.new size limit) = some s ∧
      s = (screen.run (Screen.new size limit) calls).1 ∧
      s.Represents (min limit kMaxScrollback) := by
  have hruns := Machine.run_invariant'
    (fun (s : Screen) _ => s.Wf ∧ s.Held (min limit kMaxScrollback))
    ⟨.new size limit, .new size limit⟩
    (fun _ _ call h => ⟨h.1.step call, h.2.step h.1 call⟩) calls
  exact ⟨_, (Wf.new size limit).calls? calls, rfl, hruns.1.represents hruns.2⟩

end Screen

end Deskhub
