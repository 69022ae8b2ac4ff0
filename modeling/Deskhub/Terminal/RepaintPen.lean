import Deskhub.Terminal.RepaintEvents

/-!
# The pen of a repaint

The codes a pen is written with, read back: whatever the pen was before, it is
that pen then.
-/

namespace Deskhub

/-- The loop of `Sgr` from an index on. -/
def sgrFrom (params : List Int) (pen : Pen) (i : Nat) : Pen :=
  Screen.sgrCodes params (params.length - i) pen i

/-- A code is not read twice. -/
theorem le_extendedColor (params : List Int) (i : Nat) : i ≤ (extendedColor params i).2 := by
  unfold extendedColor
  dsimp only
  split
  · exact Nat.le_add_right i 2
  · split
    · split
      all_goals
        dsimp only
        omega
    · exact Nat.le_add_right i 1

theorem le_sgrCode (params : List Int) (pen : Pen) (i : Nat) : i ≤ (Screen.sgrCode params pen i).2 := by
  have hcolor := le_extendedColor params i
  have hite : ∀ {c : Prop} [Decidable c] {a b : Pen × Nat}, i ≤ a.2 → i ≤ b.2 →
      i ≤ (if c then a else b).2 := by
    intro c _ a b ha hb
    by_cases h : c
    · rw [if_pos h]
      exact ha
    · rw [if_neg h]
      exact hb
  unfold Screen.sgrCode
  dsimp only
  -- seventeen codes, then the two extended colours among the rest
  iterate 16 refine hite (le_refl i) ?_
  refine hite hcolor ?_
  refine hite (le_refl i) ?_
  refine hite hcolor ?_
  iterate 5 refine hite (le_refl i) ?_
  exact le_refl i

/-- Past the parameters nothing is read. -/
theorem sgrCodes_end {params : List Int} {i : Nat} (h : params.length ≤ i) (fuel : Nat) (pen : Pen) :
    Screen.sgrCodes params fuel pen i = pen := by
  cases fuel with
  | zero => rfl
  | succ fuel =>
    unfold Screen.sgrCodes
    rw [if_pos h]

theorem sgrCodes_succ {params : List Int} {i : Nat} (h : ¬params.length ≤ i) (fuel : Nat) (pen : Pen) :
    Screen.sgrCodes params (fuel + 1) pen i =
      Screen.sgrCodes params fuel (Screen.sgrCode params pen i).1
        ((Screen.sgrCode params pen i).2 + 1) := by
  conv_lhs => unfold Screen.sgrCodes
  rw [if_neg h]

/-- As many turns as there are parameters left are enough. -/
theorem sgrCodes_enough {params : List Int} {fuel fuel' i : Nat} (h : params.length ≤ fuel + i)
    (h' : params.length ≤ fuel' + i) (pen : Pen) :
    Screen.sgrCodes params fuel pen i = Screen.sgrCodes params fuel' pen i := by
  induction fuel generalizing fuel' i pen with
  | zero => rw [sgrCodes_end (by omega), sgrCodes_end (by omega)]
  | succ fuel ih =>
    by_cases hend : params.length ≤ i
    · rw [sgrCodes_end hend, sgrCodes_end hend]
    · have hle := le_sgrCode params pen i
      cases fuel' with
      | zero => omega
      | succ fuel' =>
        rw [sgrCodes_succ hend, sgrCodes_succ hend]
        exact ih (by omega) (by omega) _

/-- One code, and the loop from behind it. -/
theorem sgrFrom_step {params : List Int} {i : Nat} (h : i < params.length) (pen : Pen) :
    sgrFrom params pen i =
      sgrFrom params (Screen.sgrCode params pen i).1 ((Screen.sgrCode params pen i).2 + 1) := by
  have hle := le_sgrCode params pen i
  have hmore : params.length - i = (params.length - i - 1) + 1 := by omega
  unfold sgrFrom
  rw [hmore, sgrCodes_succ (by omega)]
  exact sgrCodes_enough (by omega) (by omega) _

/-- Wherever they stand, the codes turn the one pen into the other. -/
def Repens (codes : List Nat) (p q : Pen) : Prop :=
  ∀ params i, (∀ k, k < codes.length → params[i + k]? = (codes[k]?).map (fun c : Nat => (c : Int))) →
    sgrFrom params p i = sgrFrom params q (i + codes.length)

theorem Repens.nil (p : Pen) : Repens [] p p := fun _ _ _ => rfl

theorem Repens.append {xs ys : List Nat} {p q r : Pen} (hx : Repens xs p q) (hy : Repens ys q r) :
    Repens (xs ++ ys) p r := by
  intro params i h
  rw [hx params i, hy params (i + xs.length), List.length_append, Nat.add_assoc]
  · intro k hk
    have hat := h (xs.length + k) (by rw [List.length_append]; omega)
    rw [List.getElem?_append_right (by omega), Nat.add_sub_cancel_left] at hat
    rw [Nat.add_assoc]
    exact hat
  · intro k hk
    have hat := h k (by rw [List.length_append]; omega)
    rw [List.getElem?_append_left hk] at hat
    exact hat

/-- A parameter that is a number. -/
theorem vtParam_of_getElem? {params : List Int} {i n : Nat} (h : params[i]? = some (n : Int))
    {fallback : Int} : vtParam params i fallback = n := by
  have hgiven : (n : Int) ≠ kVtParamOmitted := by
    unfold kVtParamOmitted
    omega
  unfold vtParam
  rw [h]
  exact if_neg hgiven

/-- A code that is a parameter alone. -/
theorem Repens.one {c : Nat} {p q : Pen}
    (h : ∀ params i, vtParam params i 0 = c → Screen.sgrCode params p i = (q, i)) :
    Repens [c] p q := by
  intro params i hat
  have hget : params[i]? = some (c : Int) := hat 0 (by simp)
  have hlt : i < params.length := (List.getElem?_eq_some_iff.mp hget).1
  rw [sgrFrom_step hlt, h params i (vtParam_of_getElem? hget)]
  rfl

/-! ## Attributes -/

/-- An attribute that is set, or not. -/
theorem Repens.flag {code : Nat} {p q : Pen} (on : Bool) (hon : on = true → Repens [code] p q)
    (hoff : on = false → q = p) : Repens (if on then [code] else []) p q := by
  cases on with
  | true => exact hon rfl
  | false =>
    rw [hoff rfl]
    exact .nil p

/-- The attributes of a pen, over one that has none. -/
theorem repens_attrCodes (pen : Pen) :
    Repens (Repaint.attrCodes pen) {} { pen with fg := .default, bg := .default } := by
  have hbold : Repens (if pen.bold then [1] else [])
      {}
      { bold := pen.bold } :=
    .flag _ (fun h => .one fun params i hp => by simp [Screen.sgrCode, hp, h]) (fun h => by rw [h])
  have hdim : Repens (if pen.dim then [2] else [])
      { bold := pen.bold }
      { bold := pen.bold, dim := pen.dim } :=
    .flag _ (fun h => .one fun params i hp => by simp [Screen.sgrCode, hp, h]) (fun h => by rw [h])
  have hitalic : Repens (if pen.italic then [3] else [])
      { bold := pen.bold, dim := pen.dim }
      { bold := pen.bold, dim := pen.dim, italic := pen.italic } :=
    .flag _ (fun h => .one fun params i hp => by simp [Screen.sgrCode, hp, h]) (fun h => by rw [h])
  have hunderline : Repens (if pen.underline then [4] else [])
      { bold := pen.bold, dim := pen.dim, italic := pen.italic }
      { bold := pen.bold, dim := pen.dim, italic := pen.italic, underline := pen.underline } :=
    .flag _ (fun h => .one fun params i hp => by simp [Screen.sgrCode, hp, h]) (fun h => by rw [h])
  have hblink : Repens (if pen.blink then [5] else [])
      { bold := pen.bold, dim := pen.dim, italic := pen.italic, underline := pen.underline }
      { bold := pen.bold, dim := pen.dim, italic := pen.italic, underline := pen.underline, blink := pen.blink } :=
    .flag _ (fun h => .one fun params i hp => by simp [Screen.sgrCode, hp, h]) (fun h => by rw [h])
  have hreverse : Repens (if pen.reverse then [7] else [])
      { bold := pen.bold, dim := pen.dim, italic := pen.italic, underline := pen.underline, blink := pen.blink }
      { bold := pen.bold, dim := pen.dim, italic := pen.italic, underline := pen.underline, blink := pen.blink, reverse := pen.reverse } :=
    .flag _ (fun h => .one fun params i hp => by simp [Screen.sgrCode, hp, h]) (fun h => by rw [h])
  have hhidden : Repens (if pen.hidden then [8] else [])
      { bold := pen.bold, dim := pen.dim, italic := pen.italic, underline := pen.underline, blink := pen.blink, reverse := pen.reverse }
      { bold := pen.bold, dim := pen.dim, italic := pen.italic, underline := pen.underline, blink := pen.blink, reverse := pen.reverse, hidden := pen.hidden } :=
    .flag _ (fun h => .one fun params i hp => by simp [Screen.sgrCode, hp, h]) (fun h => by rw [h])
  have hstrike : Repens (if pen.strike then [9] else [])
      { bold := pen.bold, dim := pen.dim, italic := pen.italic, underline := pen.underline, blink := pen.blink, reverse := pen.reverse, hidden := pen.hidden }
      { pen with fg := .default, bg := .default } :=
    .flag _ (fun h => .one fun params i hp => by simp [Screen.sgrCode, hp, h]) (fun h => by rw [h])
  unfold Repaint.attrCodes
  exact hbold.append hdim |>.append hitalic |>.append hunderline |>.append hblink
    |>.append hreverse |>.append hhidden |>.append hstrike

/-! ## Colours -/

/-- The pen with one of its colours changed. -/
def Pen.colored (pen : Pen) (color : Color) (foreground : Bool) : Pen :=
  if foreground then { pen with fg := color } else { pen with bg := color }

theorem colorByte_toNat (b : UInt8) : colorByte (b.toNat : Int) = b := by
  have hb := b.toNat_lt
  unfold colorByte clampInt
  rw [if_neg (by omega), if_neg (by omega), Int.toNat_natCast]
  exact UInt8.ofNat_toNat

/-- A palette entry among the first eight, and among the eight bright ones. -/
theorem sgrCode_palette {params : List Int} {i : Nat} (p : Pen) {n : Nat} (hn : n < 8)
    (foreground bright : Bool)
    (h : vtParam params i 0 =
      ((if bright then (if foreground then 90 else 100) else (if foreground then 30 else 40)) + n : Nat)) :
    Screen.sgrCode params p i =
      (p.colored (.palette (UInt8.ofNat (n + if bright then 8 else 0))) foreground, i) := by
  have hbasic : ∀ base : Nat, (((base + n : Nat) : Int) - base).toNat = n := by omega
  have hbright : ∀ base : Nat, (((base + n : Nat) : Int) - base + 8).toNat = n + 8 := by omega
  unfold Screen.sgrCode
  cases foreground <;> cases bright
  all_goals
    simp only [if_true, if_false, Bool.false_eq_true, Pen.colored] at h ⊢
    rw [h]
    simp (disch := omega) only [if_neg, if_pos]
  · rw [show (((40 + n : Nat) : Int) - 40).toNat = n from hbasic 40]
    rfl
  · rw [show (((100 + n : Nat) : Int) - 100 + 8).toNat = n + 8 from hbright 100]
  · rw [show (((30 + n : Nat) : Int) - 30).toNat = n from hbasic 30]
    rfl
  · rw [show (((90 + n : Nat) : Int) - 90 + 8).toNat = n + 8 from hbright 90]

/-- The extended colour in front: its kind, and its parameters. -/
theorem sgrCode_extended {params : List Int} {i : Nat} (p : Pen) (foreground : Bool)
    (h : vtParam params i 0 = ((if foreground then 38 else 48 : Nat) : Int)) :
    Screen.sgrCode params p i =
      (p.colored (extendedColor params i).1 foreground, (extendedColor params i).2) := by
  unfold Screen.sgrCode
  cases foreground
  all_goals
    simp only [if_true, if_false, Bool.false_eq_true, Pen.colored] at h ⊢
    rw [h]
    simp (disch := omega) only [if_neg, if_pos]

theorem sgrCode_noColor {params : List Int} {i : Nat} (p : Pen) (foreground : Bool)
    (h : vtParam params i 0 = ((if foreground then 39 else 49 : Nat) : Int)) :
    Screen.sgrCode params p i = (p.colored .default foreground, i) := by
  unfold Screen.sgrCode
  cases foreground
  all_goals
    simp only [if_true, if_false, Bool.false_eq_true, Pen.colored] at h ⊢
    rw [h]
    simp (disch := omega) only [if_neg, if_pos]

theorem Repens.palette (p : Pen) (index : UInt8) (foreground : Bool) :
    Repens [if foreground then 38 else 48, 5, index.toNat] p (p.colored (.palette index) foreground) := by
  intro params i hat
  have hfirst : params[i]? = some (((if foreground then 38 else 48 : Nat) : Nat) : Int) :=
    hat 0 (by simp)
  have hkind : vtParam params (i + 1) 0 = 5 := vtParam_of_getElem? (hat 1 (by simp))
  have hindex : vtParam params (i + 2) 0 = index.toNat := vtParam_of_getElem? (hat 2 (by simp))
  have hlt : i < params.length := (List.getElem?_eq_some_iff.mp hfirst).1
  have hcolor : extendedColor params i = (.palette index, i + 2) := by
    unfold extendedColor
    dsimp only
    rw [hkind, if_pos rfl, hindex]
    simp [colorByte_toNat]
  rw [sgrFrom_step hlt, sgrCode_extended p foreground (vtParam_of_getElem? hfirst), hcolor]
  rfl

theorem Repens.rgb (p : Pen) (r g b : UInt8) (foreground : Bool) :
    Repens [if foreground then 38 else 48, 2, r.toNat, g.toNat, b.toNat] p
      (p.colored (.rgb r g b) foreground) := by
  intro params i hat
  have hfirst : params[i]? = some (((if foreground then 38 else 48 : Nat) : Nat) : Int) :=
    hat 0 (by simp)
  have hkind : vtParam params (i + 1) 0 = 2 := vtParam_of_getElem? (hat 1 (by simp))
  have hred : params[i + 2]? = some (r.toNat : Int) := hat 2 (by simp)
  have hgreen : vtParam params (i + 3) 0 = g.toNat := vtParam_of_getElem? (hat 3 (by simp))
  have hblue : vtParam params (i + 4) 0 = b.toNat := vtParam_of_getElem? (hat 4 (by simp))
  have hlt : i < params.length := (List.getElem?_eq_some_iff.mp hfirst).1
  -- the parameter behind the kind is given, so no colour space stands there
  have hnospace : ¬(i + 2 < params.length ∧ params.getD (i + 2) 0 = kVtParamOmitted) := by
    rintro ⟨-, homitted⟩
    rw [List.getD_eq_getElem?_getD, hred] at homitted
    simp [kVtParamOmitted] at homitted
  have hcolor : extendedColor params i = (.rgb r g b, i + 4) := by
    unfold extendedColor
    dsimp only
    rw [hkind, if_neg (by simp), if_pos rfl, if_neg hnospace, vtParam_of_getElem? hred, hgreen, hblue]
    simp [colorByte_toNat]
  rw [sgrFrom_step hlt, sgrCode_extended p foreground (vtParam_of_getElem? hfirst), hcolor]
  rfl

theorem repens_colorCodes (p : Pen) (color : Color) (foreground : Bool) :
    Repens (Repaint.colorCodes color foreground) p (p.colored color foreground) := by
  unfold Repaint.colorCodes
  cases color with
  | default => exact .one fun params i h => sgrCode_noColor p foreground h
  | palette index =>
    dsimp only
    by_cases hbasic : index < 8
    · have hlt : index.toNat < 8 := UInt8.lt_iff_toNat_lt.mp hbasic
      rw [if_pos hbasic]
      refine .one fun params i h => ?_
      have hcode := sgrCode_palette p hlt foreground false h
      rw [hcode]
      simp
    · rw [if_neg hbasic]
      by_cases hbright : index < 16
      · have hge : 8 ≤ index.toNat := Nat.not_lt.mp fun h => hbasic (UInt8.lt_iff_toNat_lt.mpr h)
        have hlt : index.toNat < 16 := UInt8.lt_iff_toNat_lt.mp hbright
        rw [if_pos hbright]
        refine .one fun params i h => ?_
        have hcode := @sgrCode_palette params i p (index.toNat - 8) (by omega) foreground true
          (by rw [h]; cases foreground <;> simp <;> omega)
        rw [hcode]
        simp [Nat.sub_add_cancel hge]
      · rw [if_neg hbright]
        exact .palette p index foreground
  | rgb r g b => exact .rgb p r g b foreground

/-- Any pen, over any other. -/
theorem sgr_pen (s : Screen) (pen : Pen) :
    s.sgr (0 :: (Repaint.penCodes pen).map (fun code : Nat => (code : Int))) = { s with pen := pen } := by
  have hreset : Repens [0] s.pen {} := .one fun params i h => by simp [Screen.sgrCode, h]
  have hall : Repens ([0] ++ Repaint.penCodes pen) s.pen pen := by
    unfold Repaint.penCodes
    have hcolored := (repens_attrCodes pen).append (repens_colorCodes _ pen.fg true)
      |>.append (repens_colorCodes _ pen.bg false)
    exact hreset.append hcolored
  have hparams : (0 :: (Repaint.penCodes pen).map (fun code : Nat => (code : Int))) =
      ([0] ++ Repaint.penCodes pen).map (fun code : Nat => (code : Int)) := rfl
  unfold Screen.sgr
  rw [if_neg (by simp), hparams]
  congr 1
  have hrun := hall (([0] ++ Repaint.penCodes pen).map (fun code : Nat => (code : Int))) 0
    (fun k _ => by rw [Nat.zero_add, List.getElem?_map])
  have hend : sgrFrom (([0] ++ Repaint.penCodes pen).map (fun code : Nat => (code : Int))) pen
      (0 + ([0] ++ Repaint.penCodes pen).length) = pen := sgrCodes_end (by simp) _ _
  rw [hend] at hrun
  exact hrun

end Deskhub
