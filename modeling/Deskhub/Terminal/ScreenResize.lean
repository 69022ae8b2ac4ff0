import Deskhub.Terminal.ScreenAlternate
import Mathlib.Data.List.DropRight

/-!
# Resizing on the alternate screen

The primary grid is resized by one piece of code while it is shown, with the rows above the
cursor going to the scrollback, and by another while it is put by, with the rows below cut off.
The two agree when no row has to leave.
-/

namespace Deskhub

/-! ## The last elements of a list -/

theorem rtake_append_rtake {α : Type} (xs ys : List α) (n : Nat) :
    (xs.rtake n ++ ys).rtake n = (xs ++ ys).rtake n := by
  simp only [List.rtake_eq_reverse_take_reverse, List.reverse_append, List.reverse_reverse,
    List.take_append, List.take_take]
  rw [Nat.min_eq_left (Nat.sub_le n _)]

theorem rtake_of_length_le {α : Type} {xs : List α} {n : Nat} (h : xs.length ≤ n) : xs.rtake n = xs := by
  unfold List.rtake
  rw [Nat.sub_eq_zero_of_le h, List.drop_zero]

theorem length_rtake_le {α : Type} (xs : List α) (n : Nat) : (xs.rtake n).length ≤ n := by
  unfold List.rtake
  rw [List.length_drop]
  omega

/-- The last elements with `ys` behind `xs` are `xs` itself: `ys` is empty, or there is room for
`xs` only and it repeats. -/
theorem rtake_append_eq_iff {α : Type} {xs ys : List α} {n : Nat} (h : xs.length ≤ n) :
    (xs ++ ys).rtake n = xs ↔ ys = [] ∨ xs.length = n ∧ (xs ++ ys).drop ys.length = xs := by
  have hdrop : xs.length = n → (xs ++ ys).rtake n = (xs ++ ys).drop ys.length := by
    intro hfull
    unfold List.rtake
    rw [List.length_append, hfull, Nat.add_sub_cancel_left]
  constructor
  · intro heq
    by_cases hnil : ys = []
    · exact Or.inl hnil
    · have hfull : xs.length = n := by
        have hlen := congrArg List.length heq
        have hpos := List.length_pos_iff.mpr hnil
        unfold List.rtake at hlen
        rw [List.length_drop, List.length_append] at hlen
        omega
      exact Or.inr ⟨hfull, hdrop hfull ▸ heq⟩
  · rintro (rfl | ⟨hfull, hrepeat⟩)
    · rw [List.append_nil]
      exact rtake_of_length_le h
    · rw [hdrop hfull]
      exact hrepeat

namespace Screen

variable {s t : Screen}

/-- A row goes to the scrollback, which keeps the last of all that went there. -/
theorem pushScrollback_scrollback (h : s.scrollback.length ≤ s.scrollbackLimit) (row : Row) :
    (s.pushScrollback row).scrollback = (s.scrollback ++ [row]).rtake s.scrollbackLimit := by
  unfold pushScrollback
  split
  · next hnone =>
    rw [hnone] at h ⊢
    rw [List.rtake_zero]
    exact List.eq_nil_of_length_eq_zero (Nat.le_zero.mp h)
  · rfl

theorem pushScrollback_limit (s : Screen) (row : Row) :
    (s.pushScrollback row).scrollbackLimit = s.scrollbackLimit := by
  unfold pushScrollback
  split
  · rfl
  · rfl

/-- The scrollback keeps the last rows of all that went there. -/
theorem pushAll_scrollback (rows : List Row) (h : s.scrollback.length ≤ s.scrollbackLimit) :
    (rows.foldl pushScrollback s).scrollback = (s.scrollback ++ rows).rtake s.scrollbackLimit := by
  induction rows generalizing s with
  | nil =>
    rw [List.append_nil, rtake_of_length_le h]
    rfl
  | cons row rows ih =>
    have hrow := pushScrollback_scrollback h row
    have hlimit := s.pushScrollback_limit row
    have hkept : (s.pushScrollback row).scrollback.length ≤ (s.pushScrollback row).scrollbackLimit := by
      rw [hrow, hlimit]
      exact length_rtake_le _ _
    rw [List.foldl_cons, ih hkept, hrow, hlimit, rtake_append_rtake, List.append_assoc]
    rfl

/-! ## The grid that is put by -/

/-- While the alternate screen is shown, a grid is put by. -/
def Parked (s : Screen) : Prop := s.alternate = true → s.savedGrid ≠ []

theorem Parked.beside {K H : Prop} (h : s.Parked) (hbeside : Beside K H s t) : t.Parked := by
  intro halternate
  rw [hbeside.savedGrid]
  exact h (hbeside.alternate.symm.trans halternate)

/-- A switch puts the grid by that is shown. -/
theorem Parked.switchScreen (h : s.Parked) (hwf : s.Wf) (alternate clear : Bool) :
    (s.switchScreen alternate clear).Parked := by
  rcases s.switchScreen_eq alternate clear with ⟨grid, hswitch⟩
  rw [hswitch]
  intro halternate
  by_cases hsame : alternate = s.alternate
  · show (if alternate = s.alternate then s.savedGrid else s.grid) ≠ []
    rw [if_pos hsame]
    exact h (hsame.symm.trans halternate)
  · show (if alternate = s.alternate then s.savedGrid else s.grid) ≠ []
    rw [if_neg hsame]
    exact hwf.grid_ne_nil

theorem Parked.setPrivateMode (h : s.Parked) (hwf : s.Wf) (mode : Int) (on : Bool) :
    (s.setPrivateMode mode on).Parked := by
  by_cases hswitches : mode = 47 ∨ mode = 1047 ∨ mode = 1049
  · rcases hswitches with rfl | rfl | rfl
    · exact h.switchScreen hwf on false
    · have hcleared : (if !on && s.alternate then s.eraseInDisplay 2 else s).Parked ∧
          (if !on && s.alternate then s.eraseInDisplay 2 else s).Wf := by
        split
        · have hbeside : Beside True True s (s.eraseInDisplay 2) :=
            beside_eraseInDisplay s (by omega)
          exact ⟨h.beside hbeside, hwf.eraseInDisplay 2⟩
        · exact ⟨h, hwf⟩
      exact hcleared.1.switchScreen hcleared.2 on false
    · cases on with
      | true => exact Parked.switchScreen (s := s.saveCursor) h hwf.saveCursor true true
      | false => exact h.switchScreen hwf false false
  · have hstays : mode ≠ 47 ∧ mode ≠ 1047 ∧ mode ≠ 1049 := by omega
    have hbeside : Beside False True s (s.setPrivateMode mode on) :=
      beside_setPrivateMode s on hstays fun _ _ hfalse => hfalse
    exact h.beside hbeside

theorem Parked.apply (h : s.Parked) (hwf : s.Wf) (e : VtEvent) : (s.apply e).Parked := by
  by_cases hreset : e = .esc 0x63 0
  · subst hreset
    intro halternate
    cases halternate
  by_cases hswitches : e.SwitchesScreen
  · cases e with
    | csi final marker intermediate params =>
      rcases hswitches with ⟨mode, hmode, -⟩
      unfold VtEvent.privateModes at hmode
      dsimp only at hmode
      split at hmode
      · next hprivate =>
        rcases hprivate with ⟨rfl, hfinal⟩
        show (s.csi final 0x3F intermediate params).Parked
        rw [csi_private s hfinal]
        clear hmode hreset
        induction params generalizing s with
        | nil => exact h
        | cons p params ih =>
          exact ih (h.setPrivateMode hwf _ _) (hwf.setPrivateMode _ _)
      · cases hmode
    | _ =>
      rcases hswitches with ⟨mode, hmode, -⟩
      cases hmode
  · have hbeside : Beside False False s (s.apply e) :=
      beside_apply s hreset hswitches (fun _ hfalse => hfalse) fun _ hfalse => hfalse
    exact h.beside hbeside

theorem Parked.applyAll (h : s.Parked) (hwf : s.Wf) {events : List VtEvent} (hok : ∀ e ∈ events, e.Ok) :
    (s.applyAll events).Parked := by
  induction events generalizing s with
  | nil => exact h
  | cons e events ih =>
    exact ih (h.apply hwf e) (hwf.apply (hok e (by simp))) fun e' he' => hok e' (by simp [he'])

theorem Parked.write (h : s.Parked) (hwf : s.Wf) (bytes : Bytes) : (s.write bytes).Parked := by
  unfold Screen.write
  split
  · exact h
  · rcases VtParser.parse_ok hwf.parser bytes with ⟨hparser, hevents⟩
    exact Parked.applyAll (s := { s with parser := (s.parser.parse bytes).1 }) h
      { hwf with parser := hparser } hevents

theorem length_resizeGrid (grid : List Row) (size : TermSize) :
    (resizeGrid grid size).length = size.rows := by
  simp only [resizeGrid, List.length_map, List.length_append, List.length_take, List.length_replicate]
  omega

theorem resizeGrid_ne_nil (grid : List Row) (size : TermSize) : resizeGrid grid (clampTermSize size) ≠ [] := by
  intro hnil
  have hrows := (clampTermSize_ok size).rows.1
  rw [← length_resizeGrid grid, hnil] at hrows
  exact absurd hrows (by simp)

theorem Parked.resize (h : s.Parked) (size : TermSize) : (s.resize size).Parked := by
  have hgrid : s.alternate = true →
      (if s.savedGrid = [] then [] else resizeGrid s.savedGrid (clampTermSize size)) ≠ [] := by
    intro halternate
    rw [if_neg (h halternate)]
    exact resizeGrid_ne_nil _ _
  unfold Screen.resize
  dsimp only
  split
  · exact h
  · split
    · rw [pushAll_eq]
      exact hgrid
    · exact hgrid

theorem Reachable.parked (h : s.Reachable) : s.Parked := by
  rcases h with ⟨size, limit, calls, rfl⟩
  refine (Machine.run_invariant' (fun (s : Screen) _ => s.Wf ∧ s.Parked) ⟨.new size limit, ?_⟩ ?_ calls).2
  · intro halternate
    cases halternate
  · intro s _ call hs
    refine ⟨hs.1.step call, ?_⟩
    cases call with
    | write bytes => exact hs.2.write hs.1 bytes
    | resize size => exact hs.2.resize size
    | reset =>
      intro halternate
      cases halternate
    | takeResponse => exact hs.2

/-! ## Resizing and leaving -/

theorem resizeGrid_eq_self {size : TermSize} {grid : List Row} (h : GridOk size grid) :
    resizeGrid grid size = grid := by
  unfold resizeGrid
  rw [List.take_of_length_le (Nat.le_of_eq h.1), h.1, Nat.sub_self, List.replicate_zero, List.append_nil]
  exact map_resize_eq h

/-- The rows of the shell's output, oldest first. -/
def lines (s : Screen) : List Row := s.scrollback ++ s.grid

/-- On the primary screen the rows above the cursor leave to the scrollback, as many as have to. -/
theorem resize_primary (h : s.Wf) (hheld : s.Held s.scrollbackLimit) (hprimary : s.alternate = false)
    (size : TermSize) :
    (s.resize size).lines =
      (s.scrollback ++ s.grid.take (min (s.size.rows - (clampTermSize size).rows) s.cursor.row)).rtake
          s.scrollbackLimit ++
        resizeGrid (s.grid.drop (min (s.size.rows - (clampTermSize size).rows) s.cursor.row))
          (clampTermSize size) := by
  have hlimit := hheld.scrollback
  unfold Screen.resize
  dsimp only
  by_cases hsame : clampTermSize size = s.size
  · rw [if_pos hsame, hsame, Nat.sub_self, Nat.zero_min, List.take_zero, List.append_nil, List.drop_zero,
      rtake_of_length_le hlimit, resizeGrid_eq_self h.grid]
    rfl
  rw [if_neg hsame]
  by_cases hshrinks : (clampTermSize size).rows < s.size.rows
  · rw [if_pos ⟨hshrinks, by simp [hprimary]⟩]
    have hpushed := pushAll_scrollback
      (s.grid.take (min (s.size.rows - (clampTermSize size).rows) s.cursor.row)) hlimit
    rw [← hpushed]
    rfl
  · have hnone : min (s.size.rows - (clampTermSize size).rows) s.cursor.row = 0 := by omega
    rw [if_neg (fun hshrink => hshrinks hshrink.1), hnone, List.take_zero, List.append_nil,
      List.drop_zero, rtake_of_length_le hlimit]
    rfl

/-- On the alternate screen the grid that is put by is cut or padded. -/
theorem resize_alternate (h : s.Wf) (halternate : s.alternate = true) (hput : s.savedGrid ≠ [])
    (size : TermSize) :
    (s.resize size).alternate = true ∧ (s.resize size).scrollback = s.scrollback ∧
      (s.resize size).savedGrid = resizeGrid s.savedGrid (clampTermSize size) := by
  unfold Screen.resize
  dsimp only
  by_cases hsame : clampTermSize size = s.size
  · rw [if_pos hsame, hsame, resizeGrid_eq_self (h.saved.resolve_left hput)]
    exact ⟨halternate, rfl, rfl⟩
  · rw [if_neg hsame, if_neg (by simp [halternate])]
    exact ⟨halternate, rfl, if_neg hput⟩

/-- How many rows of the primary grid stand above the shell's cursor and have to leave when the
screen gets that size. -/
def leavingRows (s : Screen) (size : TermSize) : Nat :=
  min (s.size.rows - (clampTermSize size).rows) s.savedCursor.row

/-- Resized inside a full-screen program and then left, or the other way: the same rows. -/
def ResizesAlike (s : Screen) (size : TermSize) : Prop :=
  ((s.resize size).write leaveBytes).lines = ((s.write leaveBytes).resize size).lines

/-- No row has to leave, or the scrollback is full and the rows in it and in the grid repeat by
as many as leave. -/
def NoneLost (s : Screen) (size : TermSize) : Prop :=
  s.leavingRows size = 0 ∨
    (s.scrollback.length = s.scrollbackLimit ∧
      (s.scrollback ++ s.savedGrid.take (s.leavingRows size)).drop (s.leavingRows size) = s.scrollback ∧
      resizeGrid s.savedGrid (clampTermSize size) =
        resizeGrid (s.savedGrid.drop (s.leavingRows size)) (clampTermSize size))

/-- Resizing inside a full-screen program keeps the shell's output if and only if no row of it is
lost that resizing outside would have kept. -/
theorem resizesAlike_iff (h : s.Reachable) (halternate : s.alternate = true) (size : TermSize) :
    s.ResizesAlike size ↔ s.NoneLost size := by
  have hwf := h.wf
  have hheld := h.held
  have hput := h.parked halternate
  have hsaved := hwf.saved.resolve_left hput
  -- resized first, and left
  rcases resize_alternate hwf halternate hput size with ⟨halternate', hscrollback, hgrid⟩
  have hput' : (s.resize size).savedGrid ≠ [] := by
    rw [hgrid]
    exact resizeGrid_ne_nil _ _
  rcases write_leave (hwf.resize size) halternate' hput' with ⟨t, ht, hleave⟩
  have hfirst : ((s.resize size).write leaveBytes).lines =
      s.scrollback ++ resizeGrid s.savedGrid (clampTermSize size) := by
    rw [hleave, ← hscrollback, ← hgrid, ← ht.savedGrid, ← ht.scrollback trivial halternate']
    rfl
  -- left first, and resized
  rcases write_leave hwf halternate hput with ⟨u, hu, hleave⟩
  have hlimit := (hheld.write hwf leaveBytes).limited
  have hsecond := resize_primary (hwf.write leaveBytes) (hlimit.symm ▸ hheld.write hwf leaveBytes)
    (by rw [hleave]) size
  have hrow : (s.write leaveBytes).cursor.row = s.savedCursor.row := by
    rw [hleave]
    exact congrArg CursorMark.row (hu.savedMark trivial)
  have hkept : (s.write leaveBytes).scrollback = s.scrollback := by
    rw [hleave]
    exact hu.scrollback trivial halternate
  have hshown : (s.write leaveBytes).grid = s.savedGrid := by
    rw [hleave]
    exact hu.savedGrid
  have hsize : (s.write leaveBytes).size = s.size := by
    rw [hleave]
    exact hu.size
  rw [hrow, hkept, hshown, hsize, hlimit] at hsecond
  unfold ResizesAlike NoneLost
  rw [hfirst, hsecond]
  change _ = (s.scrollback ++ s.savedGrid.take (s.leavingRows size)).rtake s.scrollbackLimit ++
    resizeGrid (s.savedGrid.drop (s.leavingRows size)) (clampTermSize size) ↔ _
  have hleaving : (s.savedGrid.take (s.leavingRows size)).length = s.leavingRows size := by
    have hbelow : s.savedCursor.row < s.size.rows := hwf.savedCursor.1
    have hle : s.leavingRows size ≤ s.savedCursor.row := Nat.min_le_right _ _
    rw [List.length_take, hsaved.1]
    omega
  have hnil : s.savedGrid.take (s.leavingRows size) = [] ↔ s.leavingRows size = 0 := by
    rw [← List.length_eq_zero_iff, hleaving]
  constructor
  · intro heq
    rcases List.append_inj' heq (by simp [length_resizeGrid]) with ⟨hhistory, hrows⟩
    rcases (rtake_append_eq_iff hheld.scrollback).mp hhistory.symm with hnone | ⟨hfull, hrepeat⟩
    · exact Or.inl (hnil.mp hnone)
    · rw [hleaving] at hrepeat
      exact Or.inr ⟨hfull, hrepeat, hrows⟩
  · rintro (hnone | ⟨hfull, hrepeat, hrows⟩)
    · rw [hnone, List.take_zero, List.drop_zero, List.append_nil, rtake_of_length_le hheld.scrollback]
    · have hsame : (s.scrollback ++ s.savedGrid.take (s.leavingRows size)).drop
          (s.savedGrid.take (s.leavingRows size)).length = s.scrollback := by
        rw [hleaving]
        exact hrepeat
      rw [(rtake_append_eq_iff hheld.scrollback).mpr (Or.inr ⟨hfull, hsame⟩), hrows]

/-- A program that is resized to a taller screen. -/
theorem resizesAlike_iff_taller :
    ((Screen.new { cols := 4, rows := 2 } 5).write enterBytes).ResizesAlike { cols := 3, rows := 4 } ↔
      ((Screen.new { cols := 4, rows := 2 } 5).write enterBytes).NoneLost { cols := 3, rows := 4 } :=
  resizesAlike_iff ⟨_, _, [.write enterBytes], rfl⟩ (by decide +kernel) _

/-- Three lines of a shell, a program, a window that shrinks to one row: the prompt's line is
cut off, and the lines above it do not reach the scrollback. -/
theorem not_resizesAlike_shorter :
    ((Screen.new { cols := 4, rows := 3 } 5).write (ascii "a\r\nb\r\nc" ++ enterBytes)).Reachable ∧
      ((Screen.new { cols := 4, rows := 3 } 5).write (ascii "a\r\nb\r\nc" ++ enterBytes)).alternate = true ∧
      ¬ ((Screen.new { cols := 4, rows := 3 } 5).write (ascii "a\r\nb\r\nc" ++ enterBytes)).ResizesAlike
        { cols := 4, rows := 1 } := by
  refine ⟨⟨_, _, [.write (ascii "a\r\nb\r\nc" ++ enterBytes)], rfl⟩, by decide +kernel, ?_⟩
  unfold ResizesAlike
  decide +kernel

end Screen

end Deskhub
