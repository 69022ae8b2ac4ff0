import Deskhub.Terminal.ScreenOrigin

/-!
# Two ways to address a row

CSI n d and CSI n ; c H go through the same `moveTo`, which counts from the region's top in
origin mode. CSI n d takes the top off before, so in origin mode it counts from the screen's
first row and is then kept within the region.
-/

namespace Deskhub

namespace Screen

variable {s : Screen}

/-- CSI n d. -/
def toRow (s : Screen) (n : Int) : Screen := s.apply (.csi 0x64 0 0 [n])

/-- CSI n ; c H with the cursor's own column. -/
def toRowAndColumn (s : Screen) (n : Int) : Screen :=
  s.apply (.csi 0x48 0 0 [n, (s.cursor.col : Int) + 1])

/-- CSI n d sends the cursor to the row that CSI n ; c H sends it to, in the same column. -/
def RowsAgree (s : Screen) (n : Int) : Prop :=
  (s.toRow n).cursor.row = (s.toRowAndColumn n).cursor.row ∧ (s.toRow n).cursor.col = s.cursor.col

/-- A row that is clamped is the nearest one of those there are. -/
theorem toNat_clampInt {v : Int} {lo hi : Nat} (hle : lo ≤ hi) :
    (clampInt v lo hi).toNat = max lo (min v.toNat hi) := by
  unfold clampInt
  split
  · omega
  · split
    · omega
    · omega

/-- A column of the screen is kept. -/
theorem place_col (h : s.Wf) (row : Int) :
    (s.place row s.cursor.col).cursor.col = s.cursor.col := by
  have hcol : s.cursor.col < s.cols := h.cursor.2
  show (clampInt s.cursor.col 0 ((s.cols : Int) - 1)).toNat = s.cursor.col
  unfold clampInt
  rw [if_neg (by omega), if_neg (by omega), Int.toNat_natCast]

/-- What a row's parameter says, counted from zero: an omitted one means the first row. -/
def rowParam (n : Int) : Int := (if n = kVtParamOmitted then 1 else n) - 1

/-- Both leave the column as it is. -/
theorem toRow_col (h : s.Wf) (n : Int) :
    (s.toRow n).cursor.col = s.cursor.col ∧ (s.toRowAndColumn n).cursor.col = s.cursor.col := by
  refine ⟨place_col h _, ?_⟩
  have hcolumn : vtParam [n, (s.cursor.col : Int) + 1] 1 1 - 1 = s.cursor.col := by
    show (if (s.cursor.col : Int) + 1 = kVtParamOmitted then (1 : Int) else s.cursor.col + 1) - 1 = _
    have homitted : (s.cursor.col : Int) + 1 ≠ kVtParamOmitted := by
      unfold kVtParamOmitted
      omega
    rw [if_neg homitted]
    omega
  show (s.place _ (vtParam [n, (s.cursor.col : Int) + 1] 1 1 - 1)).cursor.col = _
  rw [hcolumn]
  exact place_col h _

/-- Outside origin mode both send the cursor to the same row. -/
theorem toRow_row (horigin : s.modes.origin = false) (n : Int) :
    (s.toRow n).cursor.row = (s.toRowAndColumn n).cursor.row := by
  have hnone : rowParam n - (if s.modes.origin then (s.region.top : Int) else 0) = rowParam n := by
    rw [horigin]
    exact Int.sub_zero _
  show (s.moveTo (rowParam n - (if s.modes.origin then (s.region.top : Int) else 0)) _).cursor.row =
    (s.moveTo (rowParam n) _).cursor.row
  rw [hnone]
  rfl

/-- In origin mode the one counts from the screen's first row, the other from the region's. -/
theorem toRow_row_origin (h : s.Wf) (horigin : s.modes.origin = true) (n : Int) :
    (s.toRow n).cursor.row = max s.region.top (min (rowParam n).toNat s.region.bottom) ∧
      (s.toRowAndColumn n).cursor.row =
        max s.region.top (min (s.region.top + rowParam n).toNat s.region.bottom) := by
  have hle := h.region.le
  have htop : s.moveTop = s.region.top := if_pos horigin
  have hbottom : s.moveBottom = s.region.bottom := if_pos horigin
  have hplaced : ∀ (row col : Int), (s.moveTo row col).cursor.row =
      max s.region.top (min (s.region.top + row).toNat s.region.bottom) := by
    intro row col
    show (clampInt (s.moveTop + row) s.moveTop s.moveBottom).toNat = _
    rw [htop, hbottom]
    exact toNat_clampInt hle
  constructor
  · -- the region's top that is taken off is added again
    have hback : (s.region.top : Int) + (rowParam n - (if s.modes.origin then (s.region.top : Int) else 0)) =
        rowParam n := by
      rw [if_pos horigin]
      omega
    show (s.moveTo (rowParam n - (if s.modes.origin then (s.region.top : Int) else 0)) _).cursor.row = _
    rw [hplaced, hback]
  · exact hplaced (rowParam n) _

/-- CSI n d and CSI n ; c H agree exactly where the region's top makes no difference: outside
origin mode, with the region at the top of the screen, for the first row, and for a row that
CSI n d finds at the region's last row or below. -/
theorem rowsAgree_iff (h : s.Reachable) (n : Int) :
    s.RowsAgree n ↔
      s.modes.origin = false ∨ s.region.top = 0 ∨ n ≤ 1 ∨ (s.region.bottom : Int) ≤ n - 1 := by
  have hwf := h.wf
  have hregion := hwf.region.2
  have hcol := (toRow_col hwf n).1
  unfold RowsAgree
  rw [and_iff_left hcol]
  by_cases horigin : s.modes.origin = false
  · exact iff_of_true (toRow_row horigin n) (Or.inl horigin)
  rcases toRow_row_origin hwf (by simpa using horigin) n with ⟨hrow, hboth⟩
  rw [hrow, hboth, or_iff_right horigin]
  unfold rowParam kVtParamOmitted
  split
  · omega
  · omega

/-- A region of the last three rows of four, and its first row addressed. -/
theorem rowsAgree_iff_first :
    ((Screen.new { cols := 4, rows := 4 } 5).write
        (kEsc :: ascii "[2;4r" ++ kEsc :: ascii "[?6h")).RowsAgree 1 ↔
      ((Screen.new { cols := 4, rows := 4 } 5).write
          (kEsc :: ascii "[2;4r" ++ kEsc :: ascii "[?6h")).modes.origin = false ∨
        ((Screen.new { cols := 4, rows := 4 } 5).write
          (kEsc :: ascii "[2;4r" ++ kEsc :: ascii "[?6h")).region.top = 0 ∨ (1 : Int) ≤ 1 ∨
        (((Screen.new { cols := 4, rows := 4 } 5).write
          (kEsc :: ascii "[2;4r" ++ kEsc :: ascii "[?6h")).region.bottom : Int) ≤ 1 - 1 :=
  rowsAgree_iff ⟨_, _, [.write (kEsc :: ascii "[2;4r" ++ kEsc :: ascii "[?6h")], rfl⟩ 1

/-- The same region, and its second row addressed: CSI 2 d stays in its first. -/
theorem not_rowsAgree_second :
    let s := (Screen.new { cols := 4, rows := 4 } 5).write
      (kEsc :: ascii "[2;4r" ++ kEsc :: ascii "[?6h")
    s.Reachable ∧ (s.toRow 2).cursor.row = 1 ∧ (s.toRowAndColumn 2).cursor.row = 2 ∧ ¬ s.RowsAgree 2 := by
  refine ⟨⟨_, _, [.write (kEsc :: ascii "[2;4r" ++ kEsc :: ascii "[?6h")], rfl⟩, by decide +kernel,
    by decide +kernel, ?_⟩
  unfold RowsAgree
  decide +kernel

end Screen

end Deskhub
