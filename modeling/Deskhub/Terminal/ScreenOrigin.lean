import Deskhub.Terminal.ScreenAlternate

/-!
# Origin mode

In origin mode the cursor belongs into the scroll region. Every operation keeps it there but one:
a restored cursor goes back to where it was saved, inside the region or not.
-/

namespace Deskhub

open Repaint

namespace VtEvent

/-- The place of the cursor is restored. -/
def RestoresCursor : VtEvent → Prop
  | .esc final intermediate => final = 0x38 ∧ intermediate = 0
  | .csi final marker intermediate params =>
      (final = 0x75 ∧ marker = 0 ∧ intermediate = 0) ∨
        (final = 0x6C ∧ marker = 0x3F ∧ ∃ p ∈ params, vtParam [p] 0 0 = 1048 ∨ vtParam [p] 0 0 = 1049)
  | _ => False

instance : (e : VtEvent) → Decidable e.RestoresCursor
  | .esc _ _ => inferInstanceAs (Decidable (_ ∧ _))
  | .csi _ _ _ _ => inferInstanceAs (Decidable (_ ∨ _))
  | .print _ | .execute _ | .osc _ _ => inferInstanceAs (Decidable False)

end VtEvent

namespace Screen

variable {s t : Screen}

/-- In origin mode the cursor is in the region. -/
def InRegion (s : Screen) : Prop :=
  s.modes.origin = true → s.region.top ≤ s.cursor.row ∧ s.cursor.row ≤ s.region.bottom

/-- In origin mode the place that is saved is in the region. -/
def SavedInRegion (s : Screen) : Prop :=
  s.modes.origin = true → s.region.top ≤ s.savedCursor.row ∧ s.savedCursor.row ≤ s.region.bottom

instance (s : Screen) : Decidable s.SavedInRegion := inferInstanceAs (Decidable (_ → _))

/-! ## The operations -/

theorem InRegion.of_eq (h : s.InRegion) (hmodes : t.modes.origin = s.modes.origin)
    (hregion : t.region = s.region) (hrow : t.cursor.row = s.cursor.row) : t.InRegion := by
  intro horigin
  rw [hregion, hrow]
  exact h (hmodes.symm.trans horigin)

/-- The branches of a dispatch, one at a time. -/
theorem InRegion.ite {c : Prop} [Decidable c] (hs : c → s.InRegion) (ht : ¬ c → t.InRegion) :
    (if c then s else t).InRegion := by
  by_cases h : c
  · rw [if_pos h]
    exact hs h
  · rw [if_neg h]
    exact ht h

theorem InRegion.scrollUp (h : s.InRegion) (count : Nat) : (s.scrollUp count).InRegion := by
  rw [scrollUp_eq]
  exact h.of_eq rfl rfl rfl

/-- At the bottom of the region a line feed scrolls. -/
theorem InRegion.lineFeed (h : s.InRegion) : s.lineFeed.InRegion := by
  have hcleared : ({ s with pendingWrap := false } : Screen).InRegion := h.of_eq rfl rfl rfl
  refine .ite (fun _ => hcleared.scrollUp 1) fun hrow => .ite (fun _ => ?_) fun _ => hcleared
  intro horigin
  rcases h horigin with ⟨htop, hbottom⟩
  change ¬ s.cursor.row = s.region.bottom at hrow
  constructor
  · show s.region.top ≤ s.cursor.row + 1
    omega
  · show s.cursor.row + 1 ≤ s.region.bottom
    omega

/-- At the top of the region a reverse index scrolls. -/
theorem InRegion.reverseIndex (h : s.InRegion) : s.reverseIndex.InRegion := by
  have hcleared : ({ s with pendingWrap := false } : Screen).InRegion := h.of_eq rfl rfl rfl
  refine .ite (fun _ => h.of_eq rfl rfl rfl) fun hrow => .ite (fun _ => ?_) fun _ => hcleared
  intro horigin
  rcases h horigin with ⟨htop, hbottom⟩
  change ¬ s.cursor.row = s.region.top at hrow
  constructor
  · show s.region.top ≤ s.cursor.row - 1
    omega
  · show s.cursor.row - 1 ≤ s.region.bottom
    omega

theorem InRegion.wrapPending (h : s.InRegion) : s.wrapPending.InRegion := by
  have hfirst : (s.setCol 0).InRegion := h.of_eq rfl rfl rfl
  have hmade : (if s.pendingWrap && s.modes.autoWrap then (s.setCol 0).lineFeed else s).InRegion :=
    .ite (fun _ => hfirst.lineFeed) fun _ => h
  exact hmade.of_eq rfl rfl rfl

theorem InRegion.print (h : s.InRegion) (cp : Nat) : (s.print cp).InRegion := by
  have hplaced : ∀ t : Screen, t.InRegion →
      (if t.cols ≤ t.cursor.col then t.setCol (t.cols - 1) else t).InRegion :=
    fun t ht => .ite (fun _ => ht.of_eq rfl rfl rfl) fun _ => ht
  have hprinted : ∀ t : Screen, t.InRegion →
      (t.setRow t.cursor.row (t.printedRow cp)).advance.InRegion :=
    fun t ht => .ite (fun _ => ht.of_eq rfl rfl rfl) fun _ => ht.of_eq rfl rfl rfl
  exact hprinted _ (hplaced _ h.wrapPending)

theorem InRegion.execute (h : s.InRegion) (control : UInt8) : (s.execute control).InRegion := by
  unfold Screen.execute
  refine .ite (fun _ => ?_) fun _ => ?_
  · exact .ite (fun _ => h.of_eq rfl rfl rfl) fun _ =>
      .ite (fun _ => h.of_eq rfl rfl rfl) fun _ => h
  refine .ite (fun _ => h.of_eq rfl rfl rfl) fun _ => ?_
  refine .ite (fun _ => h.lineFeed) fun _ => ?_
  refine .ite (fun _ => h.of_eq rfl rfl rfl) fun _ => ?_
  refine .ite (fun _ => h.of_eq rfl rfl rfl) fun _ => ?_
  exact .ite (fun _ => h.of_eq rfl rfl rfl) fun _ => h

/-- Wherever the cursor is sent, it ends in the region. -/
theorem place_inRegion (hle : s.region.top ≤ s.region.bottom) (row col : Int) :
    (s.place row col).InRegion := by
  intro horigin
  change s.modes.origin = true at horigin
  have hrow : (s.place row col).cursor.row = (clampInt row s.region.top s.region.bottom).toNat := by
    show (clampInt row s.moveTop s.moveBottom).toNat = _
    simp only [moveTop, moveBottom, horigin, if_true]
  rw [hrow]
  show s.region.top ≤ _ ∧ _ ≤ s.region.bottom
  unfold clampInt
  split
  · omega
  · split <;> omega

theorem setScrollRegion_inRegion (h : s.Wf) (top bottom : Int) : (s.setScrollRegion top bottom).InRegion :=
  place_inRegion (h.setScrollRegion top bottom).region.le _ _

theorem InRegion.eraseInDisplay (h : s.InRegion) (how : Int) : (s.eraseInDisplay how).InRegion := by
  unfold Screen.eraseInDisplay
  refine .ite (fun _ => h.of_eq rfl rfl rfl) fun _ => .ite (fun _ => ?_) fun _ => h.of_eq rfl rfl rfl
  dsimp only
  split
  · exact h.of_eq rfl rfl rfl
  · exact h.of_eq rfl rfl rfl

theorem InRegion.eraseInLine (h : s.InRegion) (how : Int) : (s.eraseInLine how).InRegion :=
  .ite (fun _ => h.of_eq rfl rfl rfl) fun _ => .ite (fun _ => h.of_eq rfl rfl rfl) fun _ =>
    h.of_eq rfl rfl rfl

theorem InRegion.insertLines (h : s.InRegion) (count : Nat) : (s.insertLines count).InRegion :=
  .ite (fun _ => h) fun _ => h.of_eq rfl rfl rfl

theorem InRegion.deleteLines (h : s.InRegion) (count : Nat) : (s.deleteLines count).InRegion := by
  refine .ite (fun _ => h) fun _ => ?_
  dsimp only
  rw [scrollUp_eq]
  exact h.of_eq rfl rfl rfl

/-- A restored cursor is in the region if and only if the saved one is. -/
theorem restoreCursor_inRegion_iff (h : s.Wf) : s.restoreCursor.InRegion ↔ s.SavedInRegion := by
  have hrow : s.restoreCursor.cursor.row = s.savedCursor.row := by
    have hlt : s.savedCursor.row < s.rows := h.savedCursor.1
    show min s.savedCursor.row (s.rows - 1) = _
    omega
  unfold InRegion
  rw [hrow]
  exact Iff.rfl

theorem InRegion.switchScreen (h : s.InRegion) (alternate clear : Bool) :
    (s.switchScreen alternate clear).InRegion := by
  rcases s.switchScreen_eq alternate clear with ⟨grid, hswitch⟩
  rw [hswitch]
  exact h.of_eq rfl rfl rfl

theorem InRegion.respond (h : s.InRegion) (text : Bytes) : (s.respond text).InRegion :=
  .ite (fun _ => h) fun _ => h.of_eq rfl rfl rfl

theorem InRegion.setAnsiMode (h : s.InRegion) (mode : Int) (on : Bool) : (s.setAnsiMode mode on).InRegion :=
  .ite (fun _ => h.of_eq rfl rfl rfl) fun _ => h

/-- A private mode; where it restores the cursor, the saved place has to be in the region. -/
theorem InRegion.setPrivateMode (h : s.InRegion) (hwf : s.Wf) (mode : Int) (on : Bool)
    (hrestores : (mode = 1048 ∨ mode = 1049) → on = false → s.SavedInRegion) :
    (s.setPrivateMode mode on).InRegion := by
  have hhome : (({ s with modes := { s.modes with origin := on } } : Screen).moveTo 0 0).InRegion :=
    place_inRegion (s := { s with modes := { s.modes with origin := on } }) hwf.region.le _ _
  unfold Screen.setPrivateMode
  refine .ite (fun _ => h.of_eq rfl rfl rfl) fun _ => ?_
  refine .ite (fun _ => h.of_eq rfl rfl rfl) fun _ => ?_
  refine .ite (fun _ => hhome) fun _ => ?_
  refine .ite (fun _ => h.of_eq rfl rfl rfl) fun _ => ?_
  refine .ite (fun _ => h.of_eq rfl rfl rfl) fun _ => ?_
  refine .ite (fun _ => h.switchScreen on false) fun _ => ?_
  refine .ite (fun _ => ?_) fun _ => ?_
  · have hcleared : (if !on && s.alternate then s.eraseInDisplay 2 else s).InRegion :=
      .ite (fun _ => h.eraseInDisplay 2) fun _ => h
    exact hcleared.switchScreen on false
  refine .ite (fun h1048 => ?_) fun _ => ?_
  · refine .ite (fun _ => h.of_eq rfl rfl rfl) fun hoff => ?_
    exact (restoreCursor_inRegion_iff hwf).mpr (hrestores (Or.inl h1048) (by simpa using hoff))
  refine .ite (fun h1049 => ?_) fun _ => ?_
  · cases on with
    | true =>
      have hsaved : s.saveCursor.InRegion := h.of_eq rfl rfl rfl
      exact hsaved.switchScreen true true
    | false =>
      -- the switch leaves the region and the saved place as they are
      refine (restoreCursor_inRegion_iff (hwf.switchScreen false false)).mpr ?_
      rcases s.switchScreen_eq false false with ⟨grid, hswitch⟩
      rw [hswitch]
      exact hrestores (Or.inr h1049) rfl
  refine .ite (fun _ => h.of_eq rfl rfl rfl) fun _ => ?_
  exact .ite (fun _ => h.of_eq rfl rfl rfl) fun _ => h

theorem InRegion.csiPublic (h : s.InRegion) (hwf : s.Wf) (final : UInt8) (params : List Int)
    (hrestores : final = 0x75 → s.SavedInRegion) : (s.csiPublic final params).InRegion := by
  have hplace : ∀ row col, (s.place row col).InRegion :=
    fun row col => place_inRegion hwf.region.le row col
  have hfirst : ∀ row col, ((s.place row col).setCol 0).InRegion :=
    fun row col => (hplace row col).of_eq rfl rfl rfl
  unfold Screen.csiPublic
  refine .ite (fun _ => hplace _ _) fun _ => ?_
  refine .ite (fun _ => hplace _ _) fun _ => ?_
  refine .ite (fun _ => hplace _ _) fun _ => ?_
  refine .ite (fun _ => hplace _ _) fun _ => ?_
  refine .ite (fun _ => hfirst _ _) fun _ => ?_
  refine .ite (fun _ => hfirst _ _) fun _ => ?_
  refine .ite (fun _ => hplace _ _) fun _ => ?_
  refine .ite (fun _ => hplace _ _) fun _ => ?_
  refine .ite (fun _ => h.of_eq rfl rfl rfl) fun _ => ?_
  refine .ite (fun _ => h.eraseInDisplay _) fun _ => ?_
  refine .ite (fun _ => h.eraseInLine _) fun _ => ?_
  refine .ite (fun _ => h.insertLines _) fun _ => ?_
  refine .ite (fun _ => h.deleteLines _) fun _ => ?_
  refine .ite (fun _ => h.of_eq rfl rfl rfl) fun _ => ?_
  refine .ite (fun _ => h.scrollUp _) fun _ => ?_
  refine .ite (fun _ => h.of_eq rfl rfl rfl) fun _ => ?_
  refine .ite (fun _ => h.of_eq rfl rfl rfl) fun _ => ?_
  refine .ite (fun _ => h.of_eq rfl rfl rfl) fun _ => ?_
  refine .ite (fun _ => h.of_eq rfl rfl rfl) fun _ => ?_
  refine .ite (fun _ => hplace _ _) fun _ => ?_
  refine .ite (fun _ => .ite (fun _ => h.respond _) fun _ => h) fun _ => ?_
  refine .ite (fun _ => ?_) fun _ => ?_
  · exact .ite (fun _ => h.of_eq rfl rfl rfl) fun _ => h.of_eq rfl rfl rfl
  refine .ite (fun _ => ?_) fun _ => ?_
  · have hfive : (if vtParam params 0 0 = 5 then s.respond ([0x1B] ++ ascii "[0n") else s).InRegion :=
      .ite (fun _ => h.respond _) fun _ => h
    exact .ite (fun _ => hfive.respond _) fun _ => hfive
  refine .ite (fun _ => setScrollRegion_inRegion hwf _ _) fun _ => ?_
  refine .ite (fun _ => h.of_eq rfl rfl rfl) fun _ => ?_
  refine .ite (fun hfinal => ?_) fun _ => ?_
  · exact (restoreCursor_inRegion_iff hwf).mpr (hrestores hfinal)
  refine .ite (fun _ => ?_) fun _ => h
  have hmodes : ∀ (is : List Nat) (t : Screen), t.InRegion →
      (is.foldl (fun s i => s.setAnsiMode (vtParam params i 0) (final = 0x68)) t).InRegion := by
    intro is
    induction is with
    | nil => exact fun _ ht => ht
    | cons i is ih => exact fun t ht => ih _ (ht.setAnsiMode _ _)
  exact hmodes _ s h

/-! ## Events -/

theorem InRegion.esc (h : s.InRegion) (hwf : s.Wf) {final intermediate : UInt8}
    (hrestores : (VtEvent.esc final intermediate).RestoresCursor → s.SavedInRegion) :
    (s.esc final intermediate).InRegion := by
  unfold Screen.esc
  refine .ite (fun _ => h.of_eq rfl rfl rfl) fun _ => ?_
  refine .ite (fun _ => h.of_eq rfl rfl rfl) fun _ => ?_
  refine .ite (fun _ => .ite (fun _ => h.of_eq rfl rfl rfl) fun _ => h) fun _ => ?_
  refine .ite (fun _ => h) fun hplain => ?_
  refine .ite (fun _ => h.of_eq rfl rfl rfl) fun _ => ?_
  refine .ite (fun hfinal => ?_) fun _ => ?_
  · exact (restoreCursor_inRegion_iff hwf).mpr (hrestores ⟨hfinal, not_not.mp hplain⟩)
  refine .ite (fun _ => h.of_eq rfl rfl rfl) fun _ => ?_
  refine .ite (fun _ => h.of_eq rfl rfl rfl) fun _ => ?_
  refine .ite (fun _ => h.lineFeed) fun _ => ?_
  refine .ite (fun _ => h.lineFeed.of_eq rfl rfl rfl) fun _ => ?_
  refine .ite (fun _ => h.reverseIndex) fun _ => ?_
  exact .ite (fun _ => nofun) fun _ => h

/-- A part of an event; where it restores the cursor, the saved place has to be in the region. -/
theorem InRegion.apply (h : s.InRegion) (hwf : s.Wf) {e part : VtEvent} (hpart : part ∈ e.parts)
    (hrestores : part.RestoresCursor → s.SavedInRegion) : (s.apply part).InRegion := by
  cases part with
  | print cp => exact h.print cp
  | execute control => exact h.execute control
  | csi final marker intermediate params =>
    show (s.csi final marker intermediate params).InRegion
    by_cases hmarker : marker = 0x3F
    · subst hmarker
      rcases single_of_mem_parts hpart with ⟨p, rfl⟩
      by_cases hfinal : final = 0x68 ∨ final = 0x6C
      · rw [csi_private s hfinal]
        refine h.setPrivateMode hwf _ _ ?_
        intro hmode hoff
        have hreset : final = 0x6C := hfinal.resolve_left (by simpa using hoff)
        exact hrestores (Or.inr ⟨hreset, rfl, p, List.mem_singleton_self p, hmode⟩)
      · unfold Screen.csi
        rw [if_pos rfl, if_neg hfinal]
        exact h
    · unfold Screen.csi
      rw [if_neg hmarker]
      refine .ite (fun _ => h) fun hzero => .ite (fun _ => h) fun hplain => ?_
      refine h.csiPublic hwf final params ?_
      intro hfinal
      exact hrestores (Or.inl ⟨hfinal, not_not.mp hzero, not_not.mp hplain⟩)
  | esc final intermediate => exact h.esc hwf hrestores
  | osc command text => exact .ite (fun _ => h) fun _ => h.of_eq rfl rfl rfl

/-- The screen as a machine over its events. -/
def screenEvents : Machine Screen VtEvent Empty where
  step s e := (s.apply e, [])

/-- Each part that restores the cursor finds the saved place in the region. -/
def RestoresInside (s : Screen) (parts : List VtEvent) : Prop :=
  screenEvents.Along (fun s _ part => part.RestoresCursor → s.SavedInRegion) s parts

instance (s : Screen) (parts : List VtEvent) : Decidable (s.RestoresInside parts) :=
  inferInstanceAs (Decidable (screenEvents.Along _ s parts))

theorem InRegion.applyAll (h : s.InRegion) (hwf : s.Wf) {parts : List VtEvent}
    (hparts : ∀ part ∈ parts, (∃ e : VtEvent, part ∈ e.parts) ∧ part.Ok)
    (hrestores : s.RestoresInside parts) : (s.applyAll parts).InRegion := by
  have hfrom := Machine.along_iff.mp hrestores
  generalize ([] : List Empty) = out at hfrom
  clear hrestores
  induction parts generalizing s out with
  | nil => exact h
  | cons part parts ih =>
    rcases hfrom with ⟨hrestore, hrest⟩
    rcases hparts part (by simp) with ⟨⟨e, hpart⟩, hok⟩
    exact ih (h.apply hwf hpart hrestore) (hwf.apply hok) (fun part' hmem => hparts part' (by simp [hmem]))
      _ hrest

/-! ## Calls -/

/-- A write that restores the cursor finds the saved place in the region, whenever it does. -/
def CallRestoresInside (s : Screen) : ScreenCall → Prop
  | .write bytes =>
      ({ s with parser := (s.parser.parse bytes).1 } : Screen).RestoresInside
        ((s.parser.parse bytes).2.flatMap VtEvent.parts)
  | _ => True

instance (s : Screen) : (call : ScreenCall) → Decidable (s.CallRestoresInside call)
  | .write _ => inferInstanceAs (Decidable (Screen.RestoresInside _ _))
  | .resize _ | .reset | .takeResponse => inferInstanceAs (Decidable True)

theorem ok_parts {e part : VtEvent} (he : e.Ok) (h : part ∈ e.parts) : part.Ok := by
  rcases mem_parts h with rfl | ⟨final, intermediate, params, p, -, -, rfl⟩
  · exact he
  · trivial

theorem InRegion.write (h : s.InRegion) (hwf : s.Wf) {bytes : Bytes}
    (hrestores : s.CallRestoresInside (.write bytes)) : (s.write bytes).InRegion := by
  unfold Screen.write
  refine .ite (fun _ => h) fun _ => ?_
  rcases VtParser.parse_ok hwf.parser bytes with ⟨hparser, hevents⟩
  have hparsed : ({ s with parser := (s.parser.parse bytes).1 } : Screen).InRegion := h.of_eq rfl rfl rfl
  have happlied := hparsed.applyAll { hwf with parser := hparser } ?_ hrestores
  · rw [← applyAll_parts] at happlied
    exact happlied.of_eq rfl rfl rfl
  · intro part hpart
    rcases List.mem_flatMap.mp hpart with ⟨e, he, hpart⟩
    exact ⟨⟨e, hpart⟩, ok_parts (hevents e he) hpart⟩

/-- A resize drops the region. -/
theorem InRegion.resize (h : s.InRegion) (size : TermSize) : (s.resize size).InRegion := by
  unfold Screen.resize
  dsimp only
  split
  · exact h
  · intro _
    exact ⟨Nat.zero_le _, Nat.min_le_right _ _⟩

theorem InRegion.step (h : s.InRegion) (hwf : s.Wf) {call : ScreenCall}
    (hrestores : s.CallRestoresInside call) : (screen.step s call).1.InRegion := by
  cases call with
  | write bytes => exact h.write hwf hrestores
  | resize size => exact h.resize size
  | reset => exact nofun
  | takeResponse => exact h.of_eq rfl rfl rfl

/-! ## What origin mode promises -/

/-- The row and the column that CSI 6 n reports. -/
def reported (s : Screen) : Nat × Nat := ((s.originRow + 1).toNat, s.cursor.col + 1)

/-- The height of the scroll region. -/
def regionHeight (s : Screen) : Nat := s.region.bottom + 1 - s.region.top

/-- The cursor is in the region, what CSI 6 n answers is a place of the region, and the cursor
stays where it is when it is sent there. -/
structure OriginKept (s : Screen) : Prop where
  inside : s.region.top ≤ s.cursor.row ∧ s.cursor.row ≤ s.region.bottom
  range : 1 ≤ s.reported.1 ∧ s.reported.1 ≤ s.regionHeight
  answer : s.apply (.csi 0x6E 0 0 [6]) =
    s.respond ([kEsc] ++ ascii "[" ++ decimal s.reported.1 ++ ascii ";" ++ decimal s.reported.2 ++
      ascii "R")
  addressed : (s.write ([kEsc] ++ ascii "[" ++ decimal s.reported.1 ++ ascii ";" ++
    decimal s.reported.2 ++ ascii "H")).cursor = s.cursor

/-- What is given up changes neither the region nor the modes. -/
theorem settled_origin (s : Screen) (p : VtParser) :
    (s.settled p).modes = s.modes ∧ (s.settled p).region = s.region ∧
      (s.settled p).cursor.visible = s.cursor.visible := by
  have htitle : ∀ command text, (({ s with parser := p } : Screen).oscEvent command text).modes = s.modes ∧
      (({ s with parser := p } : Screen).oscEvent command text).region = s.region ∧
      (({ s with parser := p } : Screen).oscEvent command text).cursor.visible = s.cursor.visible := by
    intro command text
    unfold oscEvent
    dsimp only
    split
    · exact ⟨rfl, rfl, rfl⟩
    · exact ⟨rfl, rfl, rfl⟩
  unfold settled VtParser.interrupted
  split
  · unfold VtParser.dropPartial
    split
    · rcases ({ s with parser := p } : Screen).print_eq kReplacement with
        ⟨grid, scrollback, row, col, wrap, hprint⟩
      show (Screen.print _ kReplacement).modes = _ ∧ (Screen.print _ kReplacement).region = _ ∧
        (Screen.print _ kReplacement).cursor.visible = _
      rw [hprint]
      exact ⟨rfl, rfl, rfl⟩
    · exact ⟨rfl, rfl, rfl⟩
  · unfold VtParser.endOfString
    split
    · exact htitle _ _
    · exact ⟨rfl, rfl, rfl⟩

/-- Sent to where it is reported, the cursor stays: what was in progress may move it first. -/
theorem write_cup (hwf : s.Wf) (horigin : s.modes.origin = true) {row : Nat}
    (hrow : s.region.top + row = s.cursor.row) (hbottom : s.cursor.row ≤ s.region.bottom) :
    (s.write (appendCup row s.cursor.col)).cursor = s.cursor := by
  have hsize := hwf.size
  have hmax : kMaxTermRows = 1000 ∧ kMaxTermCols = 1000 := ⟨rfl, rfl⟩
  have hrows : s.cursor.row < s.size.rows := hwf.cursor.1
  have hcols : s.cursor.col < s.size.cols := hwf.cursor.2
  have hle := hsize.rows.2
  have hle' := hsize.cols.2
  have hemits : VtParser.Emits (appendCup row s.cursor.col) [cupEvent row s.cursor.col] :=
    emits_cup (by omega) (by omega)
  rcases write_emits hwf (by decide) hemits with ⟨p, -, hok, hwrite⟩
  rcases settled_origin s p with ⟨hmodes, hregion, hvisible⟩
  have hsent := moveTo_origin (s := s.settled p) (by rw [hmodes]; exact horigin)
    (hwf.settled hok).region row (show s.cursor.col < (s.settled p).cols by
      rw [show (s.settled p).cols = (s.settled p).size.cols from rfl, settled_size]
      exact hcols)
  have hback : min ((s.settled p).region.top + row) (s.settled p).region.bottom = s.cursor.row := by
    rw [hregion, hrow]
    exact Nat.min_eq_left hbottom
  unfold appendCup appendCsi at *
  rw [hwrite, applyAll_cons, applyAll_nil, apply_cup, hsent, hback]
  show ({ (s.settled p).cursor with row := s.cursor.row, col := s.cursor.col } : CursorState) = s.cursor
  rw [CursorState.mk.injEq]
  exact ⟨rfl, rfl, hvisible⟩

/-- What is asked with `CSI 6 n`. -/
theorem apply_reportCursor (s : Screen) :
    s.apply (.csi 0x6E 0 0 [6]) = s.respond ([0x1B] ++ ascii "[" ++ decimalInt (s.originRow + 1) ++
      ascii ";" ++ decimal (s.cursor.col + 1) ++ ascii "R") := by
  have hparam : vtParam [6] 0 0 = 6 := rfl
  simp [apply, csi, csiPublic, hparam]

theorem InRegion.originKept (h : s.InRegion) (hwf : s.Wf) (horigin : s.modes.origin = true) :
    s.OriginKept := by
  rcases h horigin with ⟨htop, hbottom⟩
  have hrow : s.originRow + 1 = ((s.cursor.row - s.region.top + 1 : Nat) : Int) := by
    unfold originRow
    rw [horigin, if_pos rfl]
    omega
  have hreported : s.reported.1 = s.cursor.row - s.region.top + 1 := by
    unfold reported
    rw [hrow]
    rfl
  have htext : decimalInt (s.originRow + 1) = decimal s.reported.1 := by
    unfold decimalInt reported
    rw [if_neg (by omega)]
  constructor
  case inside => exact ⟨htop, hbottom⟩
  case range =>
    unfold regionHeight
    omega
  case answer =>
    rw [apply_reportCursor, htext]
    rfl
  case addressed =>
    rw [hreported]
    exact write_cup hwf horigin (by omega) hbottom

/-- In origin mode the cursor stays in the region: after any calls among which each restore of the
cursor in origin mode finds the saved place in the region, the cursor is there, is reported
there, and stays where it is when it is sent to what is reported. -/
theorem originKept_of_restoresInside (size : TermSize) (limit : Nat) (calls : List ScreenCall)
    (hcalls : screen.Along (fun s _ call => s.CallRestoresInside call) (Screen.new size limit) calls)
    (horigin : (screen.run (Screen.new size limit) calls).1.modes.origin = true) :
    (screen.run (Screen.new size limit) calls).1.OriginKept := by
  have hruns := Machine.run_invariant (fun (s : Screen) _ => s.Wf ∧ s.InRegion)
    (fun s _ call => s.CallRestoresInside call) ⟨.new size limit, nofun⟩
    (fun s _ call hrestores hs => ⟨hs.1.step call, hs.2.step hs.1 hrestores⟩) calls hcalls
  exact hruns.2.originKept hruns.1 horigin

/-- A cursor that is saved and restored inside the region. -/
theorem originKept_of_restoresInside_saved :
    (screen.run (Screen.new { cols := 4, rows := 4 } 5)
      [.write (kEsc :: ascii "[2;3r" ++ kEsc :: ascii "[?6h" ++ [0x0A] ++ kEsc :: ascii "7"),
        .write (kEsc :: ascii "[H" ++ kEsc :: ascii "8")]).1.OriginKept :=
  originKept_of_restoresInside { cols := 4, rows := 4 } 5 _ (by decide +kernel) (by decide +kernel)

/-- A cursor that was saved below the region: restored in origin mode it is outside, and the row
that is reported is the third of two. -/
theorem not_originKept_restored :
    let s := (screen.run (Screen.new { cols := 4, rows := 4 } 5)
      [.write (kEsc :: ascii "[4;1H" ++ kEsc :: ascii "7" ++ kEsc :: ascii "[2;3r" ++
        kEsc :: ascii "[?6h" ++ kEsc :: ascii "8")]).1
    s.modes.origin = true ∧ s.cursor.row = 3 ∧ s.region.bottom = 2 ∧ s.reported.1 = 3 ∧
      s.regionHeight = 2 ∧ ¬ s.OriginKept := by
  refine ⟨by decide +kernel, by decide +kernel, by decide +kernel, by decide +kernel,
    by decide +kernel, ?_⟩
  intro h
  exact absurd h.inside (by decide +kernel)

end Screen

end Deskhub
