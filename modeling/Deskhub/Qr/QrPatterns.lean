import Deskhub.Qr.QrBlocks
import Deskhub.Qr.QrCanvas
import Mathlib.Data.Finset.Prod
import Mathlib.Order.Interval.Finset.Nat

/-!
# Function patterns and the order of the data

The modules that `PlaceFunctionPatterns` paints are the standard's function modules, the loops of
`PlaceData` visit the others in the standard's order, and there are enough of them for the codewords.
-/

namespace Deskhub

namespace Qr

/-- A list of painted modules holds this one. -/
def Paints (ms : List (Nat × Nat × Bool)) (x y : Nat) : Prop := ∃ dark, (x, y, dark) ∈ ms

theorem paints_append {ms ns : List (Nat × Nat × Bool)} {x y : Nat} :
    Paints (ms ++ ns) x y ↔ Paints ms x y ∨ Paints ns x y := by
  unfold Paints
  simp only [List.mem_append, exists_or]

theorem paints_flatMap {α : Type} {xs : List α} {f : α → List (Nat × Nat × Bool)} {x y : Nat} :
    Paints (xs.flatMap f) x y ↔ ∃ a ∈ xs, Paints (f a) x y := by
  unfold Paints
  simp only [List.mem_flatMap]
  constructor
  · rintro ⟨dark, a, ha, hmem⟩
    exact ⟨a, ha, dark, hmem⟩
  · rintro ⟨a, ha, dark, hmem⟩
    exact ⟨dark, a, ha, hmem⟩

theorem paints_nil {x y : Nat} : ¬Paints [] x y := by
  rintro ⟨dark, hmem⟩
  cases hmem

theorem paints_singleton {m : Nat × Nat × Bool} {x y : Nat} : Paints [m] x y ↔ x = m.1 ∧ y = m.2.1 := by
  unfold Paints
  constructor
  · rintro ⟨dark, hmem⟩
    rw [List.mem_singleton] at hmem
    rw [← hmem]
    exact ⟨rfl, rfl⟩
  · rintro ⟨rfl, rfl⟩
    exact ⟨m.2.2, List.mem_singleton.mpr rfl⟩

theorem paints_pair {m n : Nat × Nat × Bool} {x y : Nat} :
    Paints [m, n] x y ↔ (x = m.1 ∧ y = m.2.1) ∨ (x = n.1 ∧ y = n.2.1) := by
  have hsplit : [m, n] = [m] ++ [n] := rfl
  rw [hsplit, paints_append, paints_singleton, paints_singleton]

/-! ## The modules of each pattern -/

theorem paints_timing {size x y : Nat} :
    Paints (timingModules size) x y ↔ (x = 6 ∧ y < size) ∨ (y = 6 ∧ x < size) := by
  unfold timingModules kTimingIndex
  rw [paints_flatMap]
  constructor
  · rintro ⟨i, hi, hpair⟩
    rw [List.mem_range] at hi
    rw [paints_pair] at hpair
    dsimp only at hpair
    omega
  · rintro (⟨rfl, hy⟩ | ⟨rfl, hx⟩)
    · exact ⟨y, List.mem_range.mpr hy, paints_pair.mpr (Or.inl ⟨rfl, rfl⟩)⟩
    · exact ⟨x, List.mem_range.mpr hx, paints_pair.mpr (Or.inr ⟨rfl, rfl⟩)⟩

theorem paints_finder {size centerX centerY x y : Nat} :
    Paints (finderModules size centerX centerY) x y ↔
      (x < size ∧ y < size) ∧ (centerX ≤ x + 4 ∧ x ≤ centerX + 4) ∧ centerY ≤ y + 4 ∧ y ≤ centerY + 4 := by
  have hreach : kFinderSize / 2 + 1 = 4 := rfl
  unfold finderModules
  dsimp only
  rw [hreach, paints_flatMap]
  constructor
  · rintro ⟨i, hi, hrow⟩
    rw [paints_flatMap] at hrow
    rcases hrow with ⟨j, hj, hmodule⟩
    rw [List.mem_range] at hi hj
    split at hmodule
    · exact absurd hmodule paints_nil
    · rw [paints_singleton] at hmodule
      dsimp only at hmodule
      omega
  · intro h
    refine ⟨y + 4 - centerY, List.mem_range.mpr (by omega), ?_⟩
    rw [paints_flatMap]
    refine ⟨x + 4 - centerX, List.mem_range.mpr (by omega), ?_⟩
    split
    · omega
    · rw [paints_singleton]
      dsimp only
      omega

theorem paints_alignment {center : Nat × Nat} (hx : 2 ≤ center.1) (hy : 2 ≤ center.2) {x y : Nat} :
    Paints (alignmentModules center.1 center.2) x y ↔ InAlignment center x y := by
  have hside : 2 * kAlignmentRadius + 1 = 5 := rfl
  have hradius : (kAlignmentRadius : Int) = 2 := rfl
  unfold alignmentModules InAlignment
  rw [hside, hradius, paints_flatMap]
  constructor
  · rintro ⟨i, hi, dark, hmem⟩
    rcases List.mem_map.mp hmem with ⟨j, hj, hmodule⟩
    rw [List.mem_range] at hi hj
    rw [Prod.mk.injEq, Prod.mk.injEq] at hmodule
    omega
  · intro h
    have hcolumn : ((center.1 : Int) + (((x + 2 - center.1 : Nat) : Int) - 2)).toNat = x := by omega
    have hrow : ((center.2 : Int) + (((y + 2 - center.2 : Nat) : Int) - 2)).toNat = y := by omega
    refine ⟨y + 2 - center.2, List.mem_range.mpr (by omega), ?_⟩
    exact ⟨_, List.mem_map.mpr ⟨x + 2 - center.1, List.mem_range.mpr (by omega),
      Prod.ext hcolumn (Prod.ext hrow rfl)⟩⟩

theorem paints_formatArea {size x y : Nat} (hsize : 8 ≤ size) :
    Paints (formatAreaModules size) x y ↔
      ((x = 8 ∧ y < 9 ∧ y ≠ 6) ∨ (y = 8 ∧ x < 9 ∧ x ≠ 6)) ∨
        (y = 8 ∧ size - 8 ≤ x ∧ x < size) ∨ (x = 8 ∧ size - 8 ≤ y ∧ y < size) := by
  unfold formatAreaModules kFormatAreaLength kTimingIndex kFinderWithSeparator
  rw [paints_append, paints_flatMap, paints_flatMap]
  constructor
  · rintro (⟨i, hi, hpair⟩ | ⟨i, hi, hpair⟩)
    · rw [List.mem_range] at hi
      split at hpair
      · exact absurd hpair paints_nil
      · rw [paints_pair] at hpair
        dsimp only at hpair
        omega
    · rw [List.mem_range] at hi
      rw [paints_pair] at hpair
      dsimp only at hpair
      omega
  · rintro ((h | h) | h | h)
    · refine Or.inl ⟨y, List.mem_range.mpr h.2.1, ?_⟩
      rw [if_neg h.2.2, paints_pair]
      exact Or.inl ⟨h.1, rfl⟩
    · refine Or.inl ⟨x, List.mem_range.mpr h.2.1, ?_⟩
      rw [if_neg h.2.2, paints_pair]
      exact Or.inr ⟨rfl, h.1⟩
    · refine Or.inr ⟨size - 1 - x, List.mem_range.mpr (by omega), ?_⟩
      rw [paints_pair]
      dsimp only
      omega
    · refine Or.inr ⟨size - 1 - y, List.mem_range.mpr (by omega), ?_⟩
      rw [paints_pair]
      dsimp only
      omega

theorem paints_versionArea {version x y : Nat} (hversion : 1 ≤ version) :
    Paints (versionAreaModules (sizeOf version) version) x y ↔ InVersionArea version x y := by
  have hsize : sizeOf version = 17 + 4 * version := rfl
  unfold versionAreaModules InVersionArea kFirstVersionWithVersionInfo kVersionInfoLength kVersionInfoWidth
    kVersionInfoOffset
  by_cases hsmall : version < 7
  · rw [if_pos hsmall]
    constructor
    · intro h
      exact absurd h paints_nil
    · rintro ⟨hbig, _⟩
      omega
  · rw [if_neg hsmall, paints_flatMap]
    constructor
    · rintro ⟨i, hi, hrow⟩
      rw [paints_flatMap] at hrow
      rcases hrow with ⟨j, hj, hpair⟩
      rw [List.mem_range] at hi hj
      rw [paints_pair] at hpair
      dsimp only at hpair
      omega
    · rintro ⟨_, h | h⟩
      · refine ⟨y, List.mem_range.mpr h.2.2, ?_⟩
        rw [paints_flatMap]
        refine ⟨x - (sizeOf version - 11), List.mem_range.mpr (by omega), ?_⟩
        rw [paints_pair]
        dsimp only
        omega
      · refine ⟨x, List.mem_range.mpr h.1, ?_⟩
        rw [paints_flatMap]
        refine ⟨y - (sizeOf version - 11), List.mem_range.mpr (by omega), ?_⟩
        rw [paints_pair]
        dsimp only
        omega

/-! ## All of them -/

/-- The centers in the order of the loops of `PlaceAlignmentPatterns`. -/
def loopCenters (version : Nat) : List (Nat × Nat) :=
  let positions := alignmentPositions version
  let last := positions.length - 1
  (List.range positions.length).flatMap fun i =>
    (List.range positions.length).flatMap fun j =>
      if (i = 0 ∧ j = 0) ∨ (i = 0 ∧ j = last) ∨ (i = last ∧ j = 0) then []
      else [(positions.getD i 0, positions.getD j 0)]

theorem allAlignmentModules_eq (version : Nat) :
    allAlignmentModules version = (loopCenters version).flatMap fun c => alignmentModules c.1 c.2 := by
  unfold allAlignmentModules loopCenters
  dsimp only
  rw [List.flatMap_assoc]
  apply List.flatMap_congr
  intro i _
  rw [List.flatMap_assoc]
  apply List.flatMap_congr
  intro j _
  split
  · rfl
  · exact (List.flatMap_singleton ..).symm

/-- The loops find the standard's centers, and these keep clear of the edges. -/
theorem centers {version : Nat} (h : IsVersion version) :
    loopCenters version = alignmentCenters version ∧
      ∀ c ∈ alignmentCenters version, (2 ≤ c.1 ∧ c.1 + 2 < sizeOf version) ∧
        (2 ≤ c.2 ∧ c.2 + 2 < sizeOf version) := by
  have hall : ∀ i, i < 40 → (loopCenters (i + 1) = alignmentCenters (i + 1) ∧
      ∀ c ∈ alignmentCenters (i + 1), (2 ≤ c.1 ∧ c.1 + 2 < sizeOf (i + 1)) ∧
        (2 ≤ c.2 ∧ c.2 + 2 < sizeOf (i + 1))) := by decide +kernel
  exact forall_version (p := fun v => loopCenters v = alignmentCenters v ∧
    ∀ c ∈ alignmentCenters v, (2 ≤ c.1 ∧ c.1 + 2 < sizeOf v) ∧ (2 ≤ c.2 ∧ c.2 + 2 < sizeOf v)) hall h

theorem paints_allAlignment {version : Nat} (h : IsVersion version) {x y : Nat} :
    Paints (allAlignmentModules version) x y ↔ ∃ c ∈ alignmentCenters version, InAlignment c x y := by
  rcases centers h with ⟨hcenters, hclear⟩
  rw [allAlignmentModules_eq, hcenters, paints_flatMap]
  constructor
  · rintro ⟨c, hc, hpaints⟩
    exact ⟨c, hc, (paints_alignment (hclear c hc).1.1 (hclear c hc).2.1).mp hpaints⟩
  · rintro ⟨c, hc, hin⟩
    exact ⟨c, hc, (paints_alignment (hclear c hc).1.1 (hclear c hc).2.1).mpr hin⟩

/-- What the loops paint is what the standard reserves. -/
theorem paints_functionPatterns {version : Nat} (h : IsVersion version) {x y : Nat} :
    Paints (functionPatterns (sizeOf version) version) x y ↔
      InGrid (sizeOf version) (x, y) ∧ FunctionModule version x y := by
  have hsize : sizeOf version = 17 + 4 * version := rfl
  have hmin := h.1
  have hcenter : kFinderSize / 2 = 3 := rfl
  unfold functionPatterns
  dsimp only
  rw [paints_append, paints_append, paints_append, paints_append, paints_append, paints_append, hcenter,
    paints_timing, paints_finder, paints_finder, paints_finder, paints_allAlignment h,
    paints_formatArea (by omega), paints_versionArea hmin]
  unfold FunctionModule InGrid
  constructor
  · rintro (((((((htiming | hfirst) | hright) | hlower) | ⟨c, hc, hin⟩) | hformat) | hversion))
    · refine ⟨by omega, Or.inr (Or.inl (by omega))⟩
    · exact ⟨hfirst.1, Or.inl (by unfold InCorner; omega)⟩
    · exact ⟨hright.1, Or.inl (by unfold InCorner; omega)⟩
    · exact ⟨hlower.1, Or.inl (by unfold InCorner; omega)⟩
    · have hclear := (centers h).2 c hc
      refine ⟨?_, Or.inr (Or.inr (Or.inl ⟨c, hc, hin⟩))⟩
      unfold InAlignment at hin
      dsimp only
      omega
    · refine ⟨by omega, Or.inl (by unfold InCorner; omega)⟩
    · refine ⟨?_, Or.inr (Or.inr (Or.inr hversion))⟩
      unfold InVersionArea at hversion
      dsimp only
      omega
  · rintro ⟨hgrid, hcorner | htiming | halignment | hversion⟩
    · -- a corner is a finder pattern with its separator, or beside it the format
      dsimp only at hgrid
      rcases hcorner with ⟨hx, hy⟩ | ⟨hx, hy⟩ | ⟨hx, hy⟩
      · by_cases hfinder : x < 8 ∧ y < 8
        · exact .inl (.inl (.inl (.inl (.inl (.inr ⟨hgrid, by omega, by omega⟩)))))
        · by_cases htiming : x = 6 ∨ y = 6
          · exact .inl (.inl (.inl (.inl (.inl (.inl (by omega))))))
          · exact .inl (.inr (.inl (by omega)))
      · by_cases hfinder : y < 8
        · exact .inl (.inl (.inl (.inl (.inr ⟨hgrid, by omega, by omega⟩))))
        · exact .inl (.inr (.inr (.inl (by omega))))
      · by_cases hfinder : x < 8
        · exact .inl (.inl (.inl (.inr ⟨hgrid, by omega, by omega⟩)))
        · exact .inl (.inr (.inr (.inr (by omega))))
    · dsimp only at hgrid
      exact .inl (.inl (.inl (.inl (.inl (.inl (by omega))))))
    · exact Or.inl (Or.inl (Or.inr halignment))
    · exact Or.inr hversion

theorem paintsIn_functionPatterns {version : Nat} (h : IsVersion version) :
    PaintsIn (sizeOf version) (functionPatterns (sizeOf version) version) := by
  intro m hm
  exact ((paints_functionPatterns h).mp ⟨m.2.2, hm⟩).1

/-- The canvas marks the standard's function modules. -/
theorem isFunction_placeFunctionPatterns {version : Nat} (h : IsVersion version) {p : Nat × Nat}
    (hp : InGrid (sizeOf version) p) :
    (placeFunctionPatterns (Canvas.blank (sizeOf version)) version).isFunction p.1 p.2 = true ↔
      FunctionModule version p.1 p.2 := by
  have hpainted := isFunction_paintFunctions (blank_sound (sizeOf version)) (paintsIn_functionPatterns h) hp
  have hblank := blank_isFunction (sizeOf version) p.1 p.2
  unfold placeFunctionPatterns
  have hsame : functionPatterns (Canvas.blank (sizeOf version)).size version =
      functionPatterns (sizeOf version) version := rfl
  rw [hsame, hpainted, hblank]
  constructor
  · rintro (hfalse | hpaints)
    · cases hfalse
    · exact ((paints_functionPatterns h).mp hpaints).2
  · intro hfunction
    exact Or.inr ((paints_functionPatterns h).mpr ⟨hp, hfunction⟩)

/-! ## The order of the data -/

/-- A pair of columns, from its right one, upwards or downwards. -/
def pairModules (size : Nat) (pair : Nat × Bool) : List (Nat × Nat) :=
  (List.range size).flatMap fun step =>
    let y := if pair.2 = true then size - 1 - step else step
    [(pair.1, y), (pair.1 - 1, y)]

/-- The pairs of columns that the loop of `PlaceData` goes through are the standard's. -/
theorem columns_eq {version : Nat} (h : IsVersion version) :
    ((rightColumns (sizeOf version) (sizeOf version - 1)).map fun right =>
        (right, decide ((right + 1) &&& 2 = 0))) =
      (List.range (2 * version + 8)).map fun pair =>
        (pairColumn (sizeOf version) pair, decide (pair % 2 = 0)) :=
  forall_version (p := fun v => ((rightColumns (sizeOf v) (sizeOf v - 1)).map fun right =>
      (right, decide ((right + 1) &&& 2 = 0))) =
    (List.range (2 * v + 8)).map fun pair => (pairColumn (sizeOf v) pair, decide (pair % 2 = 0)))
    (by decide +kernel) h

theorem placementOrder_eq {version : Nat} (h : IsVersion version) :
    placementOrder (sizeOf version) = scanOrder version := by
  have hplaced : placementOrder (sizeOf version) =
      ((rightColumns (sizeOf version) (sizeOf version - 1)).map fun right =>
        (right, decide ((right + 1) &&& 2 = 0))).flatMap (pairModules (sizeOf version)) := by
    rw [List.flatMap_map]
    unfold placementOrder columnPair pairModules
    simp only [decide_eq_true_eq]
  rw [hplaced, columns_eq h, List.flatMap_map]
  unfold scanOrder pairModules
  simp only [decide_eq_true_eq]

/-- The columns of a pair lie on one side of the timing column. -/
theorem pairColumn_cases (version : Nat) {pair : Nat} (hpair : pair < 2 * version + 8) :
    (8 ≤ pairColumn (sizeOf version) pair ∧
        pairColumn (sizeOf version) pair + 2 * pair = 16 + 4 * version) ∨
      ((1 ≤ pairColumn (sizeOf version) pair ∧ pairColumn (sizeOf version) pair ≤ 5) ∧
        pairColumn (sizeOf version) pair + 2 * pair = 15 + 4 * version) := by
  have hsize : sizeOf version = 17 + 4 * version := rfl
  unfold pairColumn
  by_cases hright : 6 < sizeOf version - 1 - 2 * pair
  · rw [if_pos hright]
    omega
  · rw [if_neg hright]
    omega

/-- The row of a step, which goes through all of them in either direction. -/
theorem row_spec {size step : Nat} (hstep : step < size) (up : Prop) [Decidable up] :
    (if up then size - 1 - step else step) < size ∧
      (if up then size - 1 - (if up then size - 1 - step else step)
        else if up then size - 1 - step else step) = step := by
  by_cases hup : up
  · rw [if_pos hup, if_pos hup]
    omega
  · rw [if_neg hup, if_neg hup]
    omega

/-- Every module is visited but those of the timing column. -/
theorem mem_scanOrder {version : Nat} {p : Nat × Nat} :
    p ∈ scanOrder version ↔ InGrid (sizeOf version) p ∧ p.1 ≠ 6 := by
  have hsize : sizeOf version = 17 + 4 * version := rfl
  unfold scanOrder InGrid
  rw [List.mem_flatMap]
  constructor
  · rintro ⟨pair, hpair, hrows⟩
    rcases List.mem_flatMap.mp hrows with ⟨step, hstep, hmem⟩
    rw [List.mem_range] at hpair hstep
    have hrow := (row_spec hstep (pair % 2 = 0)).1
    have hcolumn := pairColumn_cases version hpair
    have heither := List.mem_cons.mp hmem
    rw [List.mem_singleton] at heither
    rcases heither with rfl | rfl
    · dsimp only
      omega
    · dsimp only
      omega
  · rintro ⟨⟨hx, hy⟩, hne⟩
    -- the pair that holds the column
    have hpair : ∃ pair, pair < 2 * version + 8 ∧
        (p.1 = pairColumn (sizeOf version) pair ∨ p.1 = pairColumn (sizeOf version) pair - 1) := by
      by_cases hright : 6 < p.1
      · have hcolumn := pairColumn_cases version (show (16 + 4 * version - p.1) / 2 < 2 * version + 8 by omega)
        exact ⟨(16 + 4 * version - p.1) / 2, by omega, by omega⟩
      · have hcolumn := pairColumn_cases version (show (15 + 4 * version - p.1) / 2 < 2 * version + 8 by omega)
        exact ⟨(15 + 4 * version - p.1) / 2, by omega, by omega⟩
    rcases hpair with ⟨pair, hpair, hcolumn⟩
    rcases row_spec hy (pair % 2 = 0) with ⟨hstep, hrow⟩
    refine ⟨pair, List.mem_range.mpr hpair, List.mem_flatMap.mpr ⟨_, List.mem_range.mpr hstep, ?_⟩⟩
    dsimp only
    rw [hrow, List.mem_cons, List.mem_singleton]
    rcases hcolumn with hfirst | hsecond
    · exact Or.inl (Prod.ext hfirst rfl)
    · exact Or.inr (Prod.ext hsecond rfl)

theorem scanOrder_nodup (version : Nat) : (scanOrder version).Nodup := by
  unfold scanOrder
  rw [List.nodup_flatMap]
  constructor
  · intro pair hpair
    have hcolumn := pairColumn_cases version (List.mem_range.mp hpair)
    rw [List.nodup_flatMap]
    constructor
    · intro step _
      dsimp only
      rw [List.nodup_cons, List.mem_singleton, Prod.mk.injEq]
      exact ⟨by omega, List.nodup_singleton _⟩
    · -- different steps stand in different rows
      apply List.Pairwise.imp_of_mem _ List.pairwise_lt_range
      intro step step' hstep hstep' hlt
      have hrow := (row_spec (List.mem_range.mp hstep) (pair % 2 = 0)).2
      have hrow' := (row_spec (List.mem_range.mp hstep') (pair % 2 = 0)).2
      rw [Function.onFun_apply, List.disjoint_left]
      intro p hp hp'
      dsimp only at hp hp'
      rw [List.mem_cons, List.mem_singleton, Prod.ext_iff, Prod.ext_iff] at hp hp'
      have hsame : (if pair % 2 = 0 then sizeOf version - 1 - step else step) =
          if pair % 2 = 0 then sizeOf version - 1 - step' else step' := by
        dsimp only at hp hp'
        omega
      rw [hsame, hrow'] at hrow
      omega
  · -- different pairs have different columns
    apply List.Pairwise.imp_of_mem _ List.pairwise_lt_range
    intro pair pair' hpair hpair' hlt
    have hcolumn := pairColumn_cases version (List.mem_range.mp hpair)
    have hcolumn' := pairColumn_cases version (List.mem_range.mp hpair')
    rw [Function.onFun_apply, List.disjoint_left]
    intro p hp hp'
    rcases List.mem_flatMap.mp hp with ⟨step, _, hmem⟩
    rcases List.mem_flatMap.mp hp' with ⟨step', _, hmem'⟩
    dsimp only at hmem hmem'
    rw [List.mem_cons, List.mem_singleton, Prod.ext_iff, Prod.ext_iff] at hmem hmem'
    dsimp only at hmem hmem'
    omega

/-! ## How many modules take data -/

/-- The modules from column `a` and row `c` up to column `b` and row `d`. -/
abbrev Rect : Type := (Nat × Nat) × Nat × Nat

def Rect.cells (r : Rect) : Finset (Nat × Nat) := Finset.Ico r.1.1 r.1.2 ×ˢ Finset.Ico r.2.1 r.2.2

def Rect.area (r : Rect) : Nat := (r.1.2 - r.1.1) * (r.2.2 - r.2.1)

theorem Rect.mem_cells {r : Rect} {p : Nat × Nat} :
    p ∈ r.cells ↔ (r.1.1 ≤ p.1 ∧ p.1 < r.1.2) ∧ r.2.1 ≤ p.2 ∧ p.2 < r.2.2 := by
  unfold Rect.cells
  rw [Finset.mem_product, Finset.mem_Ico, Finset.mem_Ico]

/-- Cells that some rectangles cover are no more than their areas together. -/
theorem card_le_areas {cells : Finset (Nat × Nat)} {rects : List Rect}
    (h : ∀ p ∈ cells, ∃ r ∈ rects, p ∈ r.cells) : cells.card ≤ (rects.map Rect.area).sum := by
  induction rects generalizing cells with
  | nil =>
    have hnone : cells = ∅ := by
      rw [Finset.eq_empty_iff_forall_notMem]
      intro p hp
      rcases h p hp with ⟨r, hr, _⟩
      cases hr
    rw [hnone]
    rfl
  | cons r rects ih =>
    have hrest : (cells \ r.cells).card ≤ (rects.map Rect.area).sum := by
      apply ih
      intro p hp
      rw [Finset.mem_sdiff] at hp
      rcases h p hp.1 with ⟨r', hr', hin⟩
      rcases List.mem_cons.mp hr' with rfl | htail
      · exact absurd hin hp.2
      · exact ⟨r', htail, hin⟩
    have harea : r.cells.card = r.area := by
      unfold Rect.cells Rect.area
      rw [Finset.card_product, Nat.card_Ico, Nat.card_Ico]
    have hsplit : cells.card ≤ (cells \ r.cells).card + r.cells.card := Finset.card_le_card_sdiff_add_card
    rw [List.map_cons, List.sum_cons]
    omega

/-- The modules around a center, without those of the timing patterns. -/
def alignmentRects (c : Nat × Nat) : List Rect :=
  if c.1 = 6 then [((4, 6), c.2 - 2, c.2 + 3), ((7, 9), c.2 - 2, c.2 + 3)]
  else if c.2 = 6 then [((c.1 - 2, c.1 + 3), 4, 6), ((c.1 - 2, c.1 + 3), 7, 9)]
  else [((c.1 - 2, c.1 + 3), c.2 - 2, c.2 + 3)]

/-- Rectangles over the finder patterns, the timing patterns and the format. -/
def fixedRects (size : Nat) : List Rect :=
  [((0, 8), 0, 8), ((size - 8, size), 0, 8), ((0, 8), size - 8, size), ((6, 7), 8, size - 8),
    ((8, size - 8), 6, 7), ((8, 9), 0, 6), ((8, 9), 7, 9), ((0, 6), 8, 9), ((7, 8), 8, 9),
    ((size - 8, size), 8, 9), ((8, 9), size - 8, size)]

/-- Rectangles over the function modules. -/
def functionRects (version : Nat) : List Rect :=
  fixedRects (sizeOf version) ++ (alignmentCenters version).flatMap alignmentRects ++
    if 7 ≤ version then
      [((sizeOf version - 11, sizeOf version - 8), 0, 6), ((0, 6), sizeOf version - 11, sizeOf version - 8)]
    else []

theorem fixedRects_cover {size : Nat} (hsize : 21 ≤ size) {p : Nat × Nat} (hp : InGrid size p)
    (h : InCorner size p.1 p.2 ∨ p.1 = 6 ∨ p.2 = 6) : ∃ r ∈ fixedRects size, p ∈ r.cells := by
  rcases hp with ⟨hwide, hhigh⟩
  have cell : ∀ r ∈ fixedRects size, (r.1.1 ≤ p.1 ∧ p.1 < r.1.2) ∧ r.2.1 ≤ p.2 ∧ p.2 < r.2.2 →
      ∃ r ∈ fixedRects size, p ∈ r.cells :=
    fun r hr hin => ⟨r, hr, Rect.mem_cells.mpr hin⟩
  unfold fixedRects at cell
  simp only [List.forall_mem_cons] at cell
  rcases cell with ⟨first, right, lower, column, row, above, beside, left, under, besideRight,
    besideLower, -⟩
  -- outside the finder patterns what is left of the format are the pieces along 8
  rcases h with (⟨hx, hy⟩ | ⟨hx, hy⟩ | ⟨hx, hy⟩) | htiming | htiming
  · by_cases hfinder : p.1 < 8 ∧ p.2 < 8
    · exact first (by omega)
    · by_cases hcolumn : p.1 = 8
      · by_cases habove : p.2 < 6
        · exact above (by omega)
        · by_cases hrow : p.2 = 6
          · exact row (by omega)
          · exact beside (by omega)
      · by_cases hleft : p.1 < 6
        · exact left (by omega)
        · by_cases hcell : p.1 = 6
          · exact column (by omega)
          · exact under (by omega)
  · by_cases hfinder : p.2 < 8
    · exact right (by omega)
    · exact besideRight (by omega)
  · by_cases hfinder : p.1 < 8
    · exact lower (by omega)
    · exact besideLower (by omega)
  · by_cases hfirst : p.2 < 8
    · exact first (by omega)
    · by_cases hlower : size - 8 ≤ p.2
      · exact lower (by omega)
      · exact column (by omega)
  · by_cases hfirst : p.1 < 8
    · exact first (by omega)
    · by_cases hright : size - 8 ≤ p.1
      · exact right (by omega)
      · exact row (by omega)

theorem alignmentRects_cover {c p : Nat × Nat} (hc : 2 ≤ c.1 ∧ 2 ≤ c.2) (hin : InAlignment c p.1 p.2)
    (htiming : ¬(p.1 = 6 ∨ p.2 = 6)) : ∃ r ∈ alignmentRects c, p ∈ r.cells := by
  unfold InAlignment at hin
  unfold alignmentRects
  by_cases hleft : c.1 = 6
  · rw [if_pos hleft]
    simp only [List.exists_mem_cons_iff, Rect.mem_cells]
    omega
  · rw [if_neg hleft]
    by_cases htop : c.2 = 6
    · rw [if_pos htop]
      simp only [List.exists_mem_cons_iff, Rect.mem_cells]
      omega
    · rw [if_neg htop]
      simp only [List.exists_mem_cons_iff, Rect.mem_cells]
      omega

theorem functionRects_cover {version : Nat} (h : IsVersion version) {p : Nat × Nat}
    (hp : InGrid (sizeOf version) p) (hfunction : FunctionModule version p.1 p.2) :
    ∃ r ∈ functionRects version, p ∈ r.cells := by
  have hsize : sizeOf version = 17 + 4 * version := rfl
  have hmin := h.1
  have hmem : ∀ r, r ∈ functionRects version ↔ (r ∈ fixedRects (sizeOf version) ∨
      r ∈ (alignmentCenters version).flatMap alignmentRects) ∨
      r ∈ if 7 ≤ version then [((sizeOf version - 11, sizeOf version - 8), 0, 6),
        ((0, 6), sizeOf version - 11, sizeOf version - 8)] else [] := by
    intro r
    unfold functionRects
    rw [List.mem_append, List.mem_append]
  by_cases hfixed : InCorner (sizeOf version) p.1 p.2 ∨ p.1 = 6 ∨ p.2 = 6
  · rcases fixedRects_cover (by omega) hp hfixed with ⟨r, hr, hin⟩
    exact ⟨r, (hmem r).mpr (Or.inl (Or.inl hr)), hin⟩
  · rcases hfunction with hcorner | htiming | ⟨c, hc, hin⟩ | ⟨hbig, hareas⟩
    · exact absurd (Or.inl hcorner) hfixed
    · exact absurd (Or.inr htiming) hfixed
    · have hclear := (centers h).2 c hc
      rcases alignmentRects_cover ⟨hclear.1.1, hclear.2.1⟩ hin fun ht => hfixed (Or.inr ht) with
        ⟨r, hr, hcell⟩
      exact ⟨r, (hmem r).mpr (Or.inl (Or.inr (List.mem_flatMap.mpr ⟨c, hc, hr⟩))), hcell⟩
    · have hrects : ∃ r ∈ ([((sizeOf version - 11, sizeOf version - 8), 0, 6),
          ((0, 6), sizeOf version - 11, sizeOf version - 8)] : List Rect), p ∈ r.cells := by
        simp only [List.exists_mem_cons_iff, Rect.mem_cells]
        omega
      rcases hrects with ⟨r, hr, hcell⟩
      exact ⟨r, (hmem r).mpr (Or.inr (by rw [if_pos hbig]; exact hr)), hcell⟩

/-- The rectangles leave room for the codewords. -/
theorem functionRects_area {version : Nat} (h : IsVersion version) :
    ((functionRects version).map Rect.area).sum + 8 * totalCodewords version ≤
      sizeOf version * sizeOf version :=
  forall_version (p := fun v => ((functionRects v).map Rect.area).sum + 8 * totalCodewords v ≤
    sizeOf v * sizeOf v) (by decide +kernel) h

/-- Every codeword finds its modules. -/
theorem length_dataPositions {version : Nat} (h : IsVersion version) :
    8 * totalCodewords version ≤ (dataPositions version).length := by
  have hnodup : (dataPositions version).Nodup := (scanOrder_nodup version).filter _
  have hgrid : (Finset.range (sizeOf version) ×ˢ Finset.range (sizeOf version)).card =
      sizeOf version * sizeOf version := by
    rw [Finset.card_product, Finset.card_range]
  have hfunction : ((Finset.range (sizeOf version) ×ˢ Finset.range (sizeOf version)).filter
      fun p => FunctionModule version p.1 p.2).card ≤ ((functionRects version).map Rect.area).sum := by
    apply card_le_areas
    intro p hp
    rw [Finset.mem_filter, Finset.mem_product, Finset.mem_range, Finset.mem_range] at hp
    exact functionRects_cover h hp.1 hp.2
  have hdata : (Finset.range (sizeOf version) ×ˢ Finset.range (sizeOf version)).filter
      (fun p => ¬FunctionModule version p.1 p.2) ⊆ (dataPositions version).toFinset := by
    intro p hp
    rw [Finset.mem_filter, Finset.mem_product, Finset.mem_range, Finset.mem_range] at hp
    rw [List.mem_toFinset]
    unfold dataPositions
    rw [List.mem_filter, mem_scanOrder]
    refine ⟨⟨hp.1, fun htiming => hp.2 (Or.inr (Or.inl (Or.inl htiming)))⟩, ?_⟩
    exact decide_eq_true hp.2
  have hcard := Finset.card_le_card hdata
  rw [List.toFinset_card_of_nodup hnodup] at hcard
  have hsplit := Finset.card_filter_add_card_filter_not
    (s := Finset.range (sizeOf version) ×ˢ Finset.range (sizeOf version))
    (fun p => FunctionModule version p.1 p.2)
  have harea := functionRects_area h
  omega

end Qr

end Deskhub
