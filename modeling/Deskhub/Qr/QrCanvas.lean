import Deskhub.Lib.BitStrings
import Deskhub.Lib.Rows
import Deskhub.Qr.QrCode
import Mathlib.Data.List.Nodup

/-!
# The canvas

What painting, placing the data and masking do to the modules of a canvas, module by module: who
painted a function module last, which bit a data module holds, and that a mask taken twice is none.
-/

namespace Deskhub

namespace Qr

open BitStrings

/-- Both grids are full, and a module is light or dark. -/
structure Canvas.Sound (c : Canvas) : Prop where
  modules : c.modules.length = c.size * c.size
  function : c.function.length = c.size * c.size
  binary : ∀ m ∈ c.modules, m = 0 ∨ m = 1

/-- The modules of a symbol. -/
def InGrid (size : Nat) (p : Nat × Nat) : Prop := p.1 < size ∧ p.2 < size

theorem blank_sound (size : Nat) : (Canvas.blank size).Sound := by
  constructor
  · exact List.length_replicate
  · exact List.length_replicate
  · intro m hm
    exact Or.inl (List.eq_of_mem_replicate hm)

theorem blank_isFunction (size x y : Nat) : (Canvas.blank size).isFunction x y = false := by
  have hzero : ∀ n i, byteAt (List.replicate n (0 : UInt8)) i = 0 := by
    intro n i
    unfold byteAt
    rw [List.getD_eq_getElem?_getD, List.getElem?_replicate]
    by_cases hi : i < n
    · rw [if_pos hi]
      rfl
    · rw [if_neg hi]
      rfl
  unfold Canvas.isFunction Canvas.blank
  dsimp only
  rw [hzero]
  rfl

section Modules

variable {c : Canvas}

theorem index_lt {p : Nat × Nat} (hp : InGrid c.size p) : c.index p.1 p.2 < c.size * c.size := by
  have hrow : (p.2 + 1) * c.size ≤ c.size * c.size := Nat.mul_le_mul_right c.size hp.2
  have hcolumn := hp.1
  unfold Canvas.index
  rw [Nat.succ_mul] at hrow
  omega

theorem index_inj {p q : Nat × Nat} (hp : InGrid c.size p) (hq : InGrid c.size q)
    (h : c.index p.1 p.2 = c.index q.1 q.2) : p = q := by
  unfold Canvas.index at h
  have hpos : 0 < c.size := Nat.lt_of_le_of_lt (Nat.zero_le _) hp.1
  have hx : (p.2 * c.size + p.1) % c.size = (q.2 * c.size + q.1) % c.size := by rw [h]
  have hy : (p.2 * c.size + p.1) / c.size = (q.2 * c.size + q.1) / c.size := by rw [h]
  rw [Nat.mul_add_mod_self_right, Nat.mul_add_mod_self_right, Nat.mod_eq_of_lt hp.1,
    Nat.mod_eq_of_lt hq.1] at hx
  rw [Nat.mul_comm, Nat.mul_add_div hpos, Nat.mul_comm, Nat.mul_add_div hpos, Nat.div_eq_of_lt hp.1,
    Nat.div_eq_of_lt hq.1, Nat.add_zero, Nat.add_zero] at hy
  exact Prod.ext hx hy

/-- A byte of a grid after another one, or the same, is set. -/
theorem byteAt_set {bytes : Bytes} {p q : Nat × Nat} (hlength : bytes.length = c.size * c.size)
    (hp : InGrid c.size p) (hq : InGrid c.size q) (value : UInt8) :
    byteAt (bytes.set (c.index p.1 p.2) value) (c.index q.1 q.2) =
      if q = p then value else byteAt bytes (c.index q.1 q.2) := by
  have hin := index_lt hp
  unfold byteAt
  rw [List.getD_eq_getElem?_getD, List.getD_eq_getElem?_getD, List.getElem?_set]
  by_cases heq : q = p
  · rw [if_pos heq, heq, if_pos rfl, if_pos (by rw [hlength]; exact hin)]
    rfl
  · rw [if_neg heq, if_neg fun h => heq (index_inj hq hp h.symm)]

theorem Canvas.Sound.set (h : c.Sound) {value : UInt8} (hvalue : value = 0 ∨ value = 1) (i : Nat) :
    Canvas.Sound { c with modules := c.modules.set i value } := by
  constructor
  · dsimp only
    rw [List.length_set]
    exact h.modules
  · exact h.function
  · intro m hm
    rcases List.mem_or_eq_of_mem_set hm with hold | hnew
    · exact h.binary m hold
    · exact hnew ▸ hvalue

theorem Canvas.Sound.paint (h : c.Sound) (x y : Nat) (dark : Bool) : (c.paint x y dark).Sound := by
  apply h.set
  cases dark with
  | false => exact Or.inl rfl
  | true => exact Or.inr rfl

theorem Canvas.Sound.paintFunction (h : c.Sound) (x y : Nat) (dark : Bool) :
    (c.paintFunction x y dark).Sound := by
  have hpaint := h.paint x y dark
  constructor
  · exact hpaint.modules
  · unfold Canvas.paintFunction
    dsimp only
    rw [List.length_set]
    exact hpaint.function
  · exact hpaint.binary

theorem dark_paint (h : c.Sound) {p q : Nat × Nat} (hp : InGrid c.size p) (hq : InGrid c.size q)
    (dark : Bool) : (c.paint p.1 p.2 dark).dark q.1 q.2 = if q = p then dark else c.dark q.1 q.2 := by
  unfold Canvas.paint Canvas.dark
  have hindex : ∀ modules : Bytes, Canvas.index { c with modules := modules } q.1 q.2 = c.index q.1 q.2 :=
    fun _ => rfl
  dsimp only
  rw [hindex, byteAt_set h.modules hp hq]
  by_cases heq : q = p
  · rw [if_pos heq, if_pos heq]
    cases dark with
    | false => rfl
    | true => rfl
  · rw [if_neg heq, if_neg heq]

theorem isFunction_paintFunction (h : c.Sound) {p q : Nat × Nat} (hp : InGrid c.size p)
    (hq : InGrid c.size q) (dark : Bool) :
    (c.paintFunction p.1 p.2 dark).isFunction q.1 q.2 = if q = p then true else c.isFunction q.1 q.2 := by
  have hset := byteAt_set h.function hp hq 1
  have hpainted : (c.paintFunction p.1 p.2 dark).isFunction q.1 q.2 =
      decide (byteAt (c.function.set (c.index p.1 p.2) 1) (c.index q.1 q.2) ≠ 0) := rfl
  rw [hpainted, hset]
  by_cases heq : q = p
  · rw [if_pos heq, if_pos heq]
    rfl
  · rw [if_neg heq, if_neg heq]
    rfl

theorem dark_paintFunction (h : c.Sound) {p q : Nat × Nat} (hp : InGrid c.size p)
    (hq : InGrid c.size q) (dark : Bool) :
    (c.paintFunction p.1 p.2 dark).dark q.1 q.2 = if q = p then dark else c.dark q.1 q.2 :=
  dark_paint h hp hq dark

/-! ## Painting function modules -/

/-- A list of painted modules keeps to the grid. -/
def PaintsIn (size : Nat) (ms : List (Nat × Nat × Bool)) : Prop :=
  ∀ m ∈ ms, InGrid size (m.1, m.2.1)

theorem Canvas.Sound.paintFunctions (h : c.Sound) (ms : List (Nat × Nat × Bool)) :
    (c.paintFunctions ms).Sound ∧ (c.paintFunctions ms).size = c.size := by
  unfold Canvas.paintFunctions
  induction ms generalizing c with
  | nil => exact ⟨h, rfl⟩
  | cons m ms ih => exact ih (h.paintFunction m.1 m.2.1 m.2.2)

/-- The painted modules are function modules, and so are those that were. -/
theorem isFunction_paintFunctions (h : c.Sound) {ms : List (Nat × Nat × Bool)}
    (hin : PaintsIn c.size ms) {p : Nat × Nat} (hp : InGrid c.size p) :
    (c.paintFunctions ms).isFunction p.1 p.2 = true ↔
      c.isFunction p.1 p.2 = true ∨ ∃ dark, (p.1, p.2, dark) ∈ ms := by
  unfold Canvas.paintFunctions
  induction ms generalizing c with
  | nil =>
    constructor
    · exact Or.inl
    · rintro (hold | ⟨dark, hmem⟩)
      · exact hold
      · cases hmem
  | cons m ms ih =>
    have hm : InGrid c.size (m.1, m.2.1) := hin m List.mem_cons_self
    have hrest : PaintsIn c.size ms := fun m' hm' => hin m' (List.mem_cons_of_mem m hm')
    have hhead := isFunction_paintFunction h hm hp m.2.2
    have hih := ih (h.paintFunction m.1 m.2.1 m.2.2) hrest hp
    rw [List.foldl_cons, hih, hhead]
    by_cases heq : p = (m.1, m.2.1)
    · rw [if_pos heq, heq]
      constructor
      · intro _
        exact Or.inr ⟨m.2.2, List.mem_cons_self⟩
      · intro _
        exact Or.inl rfl
    · rw [if_neg heq]
      constructor
      · rintro (hold | ⟨dark, hmem⟩)
        · exact Or.inl hold
        · exact Or.inr ⟨dark, List.mem_cons_of_mem m hmem⟩
      · rintro (hold | ⟨dark, hmem⟩)
        · exact Or.inl hold
        · rcases List.mem_cons.mp hmem with rfl | htail
          · exact absurd rfl heq
          · exact Or.inr ⟨dark, htail⟩

/-- A module that nobody paints stays as it is. -/
theorem dark_paintFunctions_of_not_mem (h : c.Sound) {ms : List (Nat × Nat × Bool)}
    (hin : PaintsIn c.size ms) {p : Nat × Nat} (hp : InGrid c.size p)
    (hnot : ∀ dark, (p.1, p.2, dark) ∉ ms) :
    (c.paintFunctions ms).dark p.1 p.2 = c.dark p.1 p.2 := by
  unfold Canvas.paintFunctions
  induction ms generalizing c with
  | nil => rfl
  | cons m ms ih =>
    have hm : InGrid c.size (m.1, m.2.1) := hin m List.mem_cons_self
    have hne : p ≠ (m.1, m.2.1) := by
      rintro rfl
      exact hnot m.2.2 List.mem_cons_self
    rw [List.foldl_cons, ih (h.paintFunction m.1 m.2.1 m.2.2)
      (fun m' hm' => hin m' (List.mem_cons_of_mem m hm')) hp
      (fun dark hmem => hnot dark (List.mem_cons_of_mem m hmem)), dark_paintFunction h hm hp, if_neg hne]

/-- A module that is painted one way only ends that way. -/
theorem dark_paintFunctions (h : c.Sound) {ms : List (Nat × Nat × Bool)} (hin : PaintsIn c.size ms)
    {p : Nat × Nat} (hp : InGrid c.size p) {dark : Bool} (hmem : (p.1, p.2, dark) ∈ ms)
    (honly : ∀ dark', (p.1, p.2, dark') ∈ ms → dark' = dark) :
    (c.paintFunctions ms).dark p.1 p.2 = dark := by
  induction ms generalizing c with
  | nil => cases hmem
  | cons m ms ih =>
    have hm : InGrid c.size (m.1, m.2.1) := hin m List.mem_cons_self
    have hrest : PaintsIn c.size ms := fun m' hm' => hin m' (List.mem_cons_of_mem m hm')
    have hhead := h.paintFunction m.1 m.2.1 m.2.2
    have hstep : c.paintFunctions (m :: ms) = (c.paintFunction m.1 m.2.1 m.2.2).paintFunctions ms := rfl
    rw [hstep]
    by_cases hlater : ∃ dark', (p.1, p.2, dark') ∈ ms
    · rcases hlater with ⟨dark', hlater⟩
      have hsame := honly dark' (List.mem_cons_of_mem m hlater)
      rw [hsame] at hlater
      exact ih hhead hrest hp hlater fun d hd => honly d (List.mem_cons_of_mem m hd)
    · -- the first painter is the last one
      rcases List.mem_cons.mp hmem with rfl | hlast
      · rw [dark_paintFunctions_of_not_mem hhead hrest hp fun d hd => hlater ⟨d, hd⟩,
          dark_paintFunction h hm hp, if_pos rfl]
      · exact absurd ⟨dark, hlast⟩ hlater

/-! ## Masks -/

theorem byteAt_binary (h : c.Sound) (i : Nat) : byteAt c.modules i = 0 ∨ byteAt c.modules i = 1 := by
  unfold byteAt
  rw [List.getD_eq_getElem?_getD]
  by_cases hi : i < c.modules.length
  · rw [List.getElem?_eq_getElem hi]
    exact h.binary _ (List.getElem_mem hi)
  · rw [List.getElem?_eq_none (not_lt.mp hi)]
    exact Or.inl rfl

theorem Canvas.Sound.flip (h : c.Sound) (x y : Nat) : (c.flip x y).Sound := by
  apply h.set
  rcases byteAt_binary h (c.index x y) with hlight | hdark
  · rw [hlight]
    exact Or.inr rfl
  · rw [hdark]
    exact Or.inl rfl

theorem dark_flip (h : c.Sound) {p q : Nat × Nat} (hp : InGrid c.size p) (hq : InGrid c.size q) :
    (c.flip p.1 p.2).dark q.1 q.2 = if q = p then !c.dark q.1 q.2 else c.dark q.1 q.2 := by
  have hset := byteAt_set h.modules hp hq (byteAt c.modules (c.index p.1 p.2) ^^^ 1)
  have hflipped : (c.flip p.1 p.2).dark q.1 q.2 = decide (byteAt (c.modules.set (c.index p.1 p.2)
      (byteAt c.modules (c.index p.1 p.2) ^^^ 1)) (c.index q.1 q.2) ≠ 0) := rfl
  rw [hflipped, hset]
  by_cases heq : q = p
  · rw [if_pos heq, if_pos heq, heq]
    unfold Canvas.dark
    rcases byteAt_binary h (c.index p.1 p.2) with hlight | hdark
    · rw [hlight]
      rfl
    · rw [hdark]
      rfl
  · rw [if_neg heq, if_neg heq]
    rfl

/-- A canvas is its modules: those of two sound ones that look alike are the same. -/
theorem Canvas.ext_dark {c c' : Canvas} (h : c.Sound) (h' : c'.Sound) (hsize : c'.size = c.size)
    (hfunction : c'.function = c.function)
    (hdark : ∀ p, InGrid c.size p → c'.dark p.1 p.2 = c.dark p.1 p.2) : c' = c := by
  have hmodules : c'.modules = c.modules := by
    apply List.ext_getElem
    · rw [h'.modules, h.modules, hsize]
    · intro i h1 h2
      -- the module at place `i`
      have hi : i < c.size * c.size := h.modules ▸ h2
      have hpos : 0 < c.size := Nat.pos_of_ne_zero (by rintro hzero; rw [hzero] at hi; omega)
      have hp : InGrid c.size (i % c.size, i / c.size) := ⟨Nat.mod_lt i hpos, Nat.div_lt_of_lt_mul hi⟩
      have hplace : i / c.size * c.size + i % c.size = i := by
        rw [Nat.mul_comm]
        exact Nat.div_add_mod i c.size
      have hsame := hdark _ hp
      unfold Canvas.dark Canvas.index byteAt at hsame
      dsimp only at hsame
      rw [hsize, hplace, List.getD_eq_getElem _ _ h1, List.getD_eq_getElem _ _ h2, decide_eq_decide] at hsame
      rcases h'.binary _ (List.getElem_mem h1) with hlight' | hdark'
      · rcases h.binary _ (List.getElem_mem h2) with hlight | hdark
        · rw [hlight', hlight]
        · rw [hlight', hdark] at hsame
          exact absurd (hsame.mpr (by decide)) (by decide)
      · rcases h.binary _ (List.getElem_mem h2) with hlight | hdark
        · rw [hdark', hlight] at hsame
          exact absurd (hsame.mp (by decide)) (by decide)
        · rw [hdark', hdark]
  cases c
  cases c'
  dsimp only at hsize hfunction hmodules
  rw [hsize, hfunction, hmodules]

theorem maskModule_spec (h : c.Sound) (mask : Nat) {p : Nat × Nat} (hp : InGrid c.size p) :
    (maskModule mask c p).Sound ∧ (maskModule mask c p).size = c.size ∧
      (maskModule mask c p).function = c.function ∧
      ∀ q, InGrid c.size q → (maskModule mask c p).dark q.1 q.2 =
        xor (c.dark q.1 q.2) (decide (q = p) && (!c.isFunction q.1 q.2 && maskBit mask q.1 q.2)) := by
  unfold maskModule
  by_cases hmasked : (!c.isFunction p.1 p.2 && maskBit mask p.1 p.2) = true
  · rw [if_pos hmasked]
    refine ⟨h.flip p.1 p.2, rfl, rfl, ?_⟩
    intro q hq
    rw [dark_flip h hp hq]
    by_cases heq : q = p
    · rw [if_pos heq, heq, hmasked, decide_eq_true rfl, Bool.true_and, Bool.xor_true]
    · rw [if_neg heq, decide_eq_false heq, Bool.false_and, Bool.xor_false]
  · rw [if_neg hmasked]
    refine ⟨h, rfl, rfl, ?_⟩
    intro q _
    by_cases heq : q = p
    · rw [heq, Bool.eq_false_of_not_eq_true hmasked, Bool.and_false, Bool.xor_false]
    · rw [decide_eq_false heq, Bool.false_and, Bool.xor_false]

/-- The loop over some modules, each of them once. -/
theorem maskModules_spec (h : c.Sound) (mask : Nat) {ps : List (Nat × Nat)}
    (hin : ∀ p ∈ ps, InGrid c.size p) (hnodup : ps.Nodup) :
    (ps.foldl (maskModule mask) c).Sound ∧ (ps.foldl (maskModule mask) c).size = c.size ∧
      (ps.foldl (maskModule mask) c).function = c.function ∧
      ∀ q, InGrid c.size q → (ps.foldl (maskModule mask) c).dark q.1 q.2 =
        xor (c.dark q.1 q.2) (decide (q ∈ ps) && (!c.isFunction q.1 q.2 && maskBit mask q.1 q.2)) := by
  induction ps generalizing c with
  | nil =>
    refine ⟨h, rfl, rfl, ?_⟩
    intro q _
    rw [decide_eq_false List.not_mem_nil, Bool.false_and, Bool.xor_false]
    rfl
  | cons p ps ih =>
    rcases maskModule_spec h mask (hin p List.mem_cons_self) with ⟨hsound, hsize, hfunction, hdark⟩
    have hinRest : ∀ p' ∈ ps, InGrid (maskModule mask c p).size p' := by
      intro p' hp'
      rw [hsize]
      exact hin p' (List.mem_cons_of_mem p hp')
    rcases ih hsound hinRest (List.nodup_cons.mp hnodup).2 with ⟨hsound', hsize', hfunction', hdark'⟩
    rw [List.foldl_cons]
    refine ⟨hsound', hsize'.trans hsize, hfunction'.trans hfunction, ?_⟩
    intro q hq
    have hisFunction : (maskModule mask c p).isFunction q.1 q.2 = c.isFunction q.1 q.2 := by
      unfold Canvas.isFunction Canvas.index
      rw [hsize, hfunction]
    rw [hdark' q (hsize.symm ▸ hq), hdark q hq, hisFunction, Bool.xor_assoc]
    congr 1
    by_cases heq : q = p
    · have hnot : q ∉ ps := heq ▸ (List.nodup_cons.mp hnodup).1
      rw [decide_eq_true heq, decide_eq_false hnot, decide_eq_true (heq ▸ List.mem_cons_self),
        Bool.false_and, Bool.xor_false]
    · have hmem : q ∈ p :: ps ↔ q ∈ ps := by
        rw [List.mem_cons]
        exact or_iff_right heq
      rw [decide_eq_false heq, Bool.false_and, Bool.false_xor, decide_eq_decide.mpr hmem]

theorem mem_rowOrder {size : Nat} {p : Nat × Nat} : p ∈ rowOrder size ↔ InGrid size p := by
  unfold rowOrder InGrid
  rw [List.mem_flatMap]
  constructor
  · rintro ⟨y, hy, hrow⟩
    rcases List.mem_map.mp hrow with ⟨x, hx, rfl⟩
    exact ⟨List.mem_range.mp hx, List.mem_range.mp hy⟩
  · rintro ⟨hx, hy⟩
    exact ⟨p.2, List.mem_range.mpr hy, List.mem_map.mpr ⟨p.1, List.mem_range.mpr hx, rfl⟩⟩

theorem rowOrder_nodup (size : Nat) : (rowOrder size).Nodup := by
  unfold rowOrder
  rw [List.nodup_flatMap]
  constructor
  · intro y _
    apply List.Nodup.map _ List.nodup_range
    intro a b hab
    exact congrArg Prod.fst hab
  · apply List.Nodup.pairwise_of_forall_ne List.nodup_range
    intro a _ b _ hne
    rw [Function.onFun_apply, List.disjoint_left]
    intro p hp hq
    rcases List.mem_map.mp hp with ⟨x, _, rfl⟩
    rcases List.mem_map.mp hq with ⟨x', _, heq⟩
    exact hne (congrArg Prod.snd heq).symm

theorem applyMask_spec (h : c.Sound) (mask : Nat) :
    (applyMask c mask).Sound ∧ (applyMask c mask).size = c.size ∧
      (applyMask c mask).function = c.function ∧
      ∀ q, InGrid c.size q → (applyMask c mask).dark q.1 q.2 =
        xor (c.dark q.1 q.2) (!c.isFunction q.1 q.2 && maskBit mask q.1 q.2) := by
  rcases maskModules_spec h mask (fun p hp => mem_rowOrder.mp hp) (rowOrder_nodup c.size) with
    ⟨hsound, hsize, hfunction, hdark⟩
  refine ⟨hsound, hsize, hfunction, ?_⟩
  intro q hq
  have hvalue := hdark q hq
  rw [decide_eq_true (mem_rowOrder.mpr hq), Bool.true_and] at hvalue
  exact hvalue

theorem applyMask_applyMask (h : c.Sound) (mask : Nat) : applyMask (applyMask c mask) mask = c := by
  rcases applyMask_spec h mask with ⟨hsound, hsize, hfunction, hdark⟩
  rcases applyMask_spec hsound mask with ⟨hsound', hsize', hfunction', hdark'⟩
  apply Canvas.ext_dark h hsound' (hsize'.trans hsize) (hfunction'.trans hfunction)
  intro q hq
  have hisFunction : (applyMask c mask).isFunction q.1 q.2 = c.isFunction q.1 q.2 := by
    unfold Canvas.isFunction Canvas.index
    rw [hsize, hfunction]
  rw [hdark' q (hsize.symm ▸ hq), hdark q hq, hisFunction, Bool.xor_assoc, Bool.xor_self, Bool.xor_false]

/-- A turn leaves the canvas as it was, and the best mask is one of those tried. -/
theorem tryMask_spec (h : c.Sound) {bestMask mask : Nat} (bestPenalty : Nat) (hmask : mask < kMaskCount)
    (hbest : bestMask < kMaskCount) :
    (tryMask (c, bestMask, bestPenalty) mask).1 = c ∧
      (tryMask (c, bestMask, bestPenalty) mask).2.1 < kMaskCount := by
  unfold tryMask
  dsimp only
  rw [applyMask_applyMask h]
  generalize penaltyScore (applyMask c mask) = penalty
  by_cases hbetter : mask = 0 ∨ penalty < bestPenalty
  · rw [if_pos hbetter]
    exact ⟨rfl, hmask⟩
  · rw [if_neg hbetter]
    exact ⟨rfl, hbest⟩

theorem tryMasks_spec (h : c.Sound) {masks : List Nat} (hmasks : ∀ m ∈ masks, m < kMaskCount)
    {bestMask : Nat} (bestPenalty : Nat) (hbest : bestMask < kMaskCount) :
    (masks.foldl tryMask (c, bestMask, bestPenalty)).1 = c ∧
      (masks.foldl tryMask (c, bestMask, bestPenalty)).2.1 < kMaskCount := by
  induction masks generalizing bestMask bestPenalty with
  | nil => exact ⟨rfl, hbest⟩
  | cons mask masks ih =>
    have hturn := tryMask_spec h bestPenalty (hmasks mask List.mem_cons_self) hbest
    rw [List.foldl_cons]
    generalize tryMask (c, bestMask, bestPenalty) mask = state at hturn
    rcases state with ⟨canvas, best, penalty⟩
    rcases hturn with ⟨rfl, hlt⟩
    exact ih (fun m hm => hmasks m (List.mem_cons_of_mem mask hm)) penalty hlt

/-- Whatever the penalties are, the canvas ends under one of the masks. -/
theorem chooseMask_spec (h : c.Sound) :
    ∃ mask, mask < kMaskCount ∧ chooseMask c = (applyMask c mask, mask) := by
  have hmasks : ∀ m ∈ List.range kMaskCount, m < kMaskCount := fun m hm => List.mem_range.mp hm
  have hrun := tryMasks_spec h hmasks 0 (Nat.zero_lt_succ 7)
  unfold chooseMask
  generalize (List.range kMaskCount).foldl tryMask (c, 0, 0) = state at hrun
  rcases state with ⟨canvas, best, penalty⟩
  rcases hrun with ⟨rfl, hlt⟩
  exact ⟨best, hlt, rfl⟩

/-! ## Placing the data -/

theorem getElem?_codewordBit {codewords : Bytes} {bit : Nat} (h : bit < codewords.length * kBitsPerCodeword) :
    (joined 8 (codewords.map UInt8.toNat))[bit]? = some (codewordBit codewords bit) := by
  have h8 : kBitsPerCodeword = 8 := rfl
  rw [h8] at h
  have hi : bit / 8 < codewords.length := by omega
  have hj : bit % 8 < 8 := Nat.mod_lt bit (by decide)
  have hplace : 8 * (bit / 8) + bit % 8 = bit := Nat.div_add_mod bit 8
  have hin : bit / 8 < (codewords.map UInt8.toNat).length := by
    rw [List.length_map]
    exact hi
  have hentry := getElem?_joined hin hj
  rw [hplace, List.getElem_map] at hentry
  rw [hentry]
  unfold codewordBit byteAt
  rw [h8, List.getD_eq_getElem codewords 0 hi]

/-- The modules that take data, as the canvas marks them. -/
def openModules (c : Canvas) (ps : List (Nat × Nat)) : List (Nat × Nat) :=
  ps.filter fun p => !c.isFunction p.1 p.2

/-- The loops of `PlaceData` over some modules, each of them once: those that take data get the bits
in their order, and no other module changes. -/
theorem placeModules_spec (h : c.Sound) (codewords : Bytes) {ps : List (Nat × Nat)}
    (hin : ∀ p ∈ ps, InGrid c.size p) (hnodup : ps.Nodup) (bit : Nat) :
    ∃ c' bit', ps.foldl (placeModule codewords) (c, bit) = (c', bit') ∧ c'.Sound ∧ c'.size = c.size ∧
      c'.function = c.function ∧
      (∀ q, InGrid c.size q → q ∉ ps → c'.dark q.1 q.2 = c.dark q.1 q.2) ∧
      (codewords.length * kBitsPerCodeword ≤ bit + (openModules c ps).length →
        ∃ rest, (openModules c ps).map (fun p => c'.dark p.1 p.2) =
          (joined 8 (codewords.map UInt8.toNat)).drop bit ++ rest) := by
  have hbits : (joined 8 (codewords.map UInt8.toNat)).length = codewords.length * kBitsPerCodeword := by
    rw [length_joined, List.length_map, Nat.mul_comm]
    rfl
  induction ps generalizing c bit with
  | nil =>
    refine ⟨c, bit, rfl, h, rfl, rfl, fun q _ _ => rfl, ?_⟩
    intro hroom
    have hnone : (joined 8 (codewords.map UInt8.toNat)).drop bit = [] :=
      List.drop_eq_nil_of_le (by rw [hbits]; exact hroom)
    exact ⟨[], by rw [hnone]; rfl⟩
  | cons p ps ih =>
    have hp := hin p List.mem_cons_self
    have hinRest : ∀ p' ∈ ps, InGrid c.size p' := fun p' hp' => hin p' (List.mem_cons_of_mem p hp')
    rcases List.nodup_cons.mp hnodup with ⟨hnot, hnodupRest⟩
    by_cases hfunction : c.isFunction p.1 p.2 = true
    · -- a function module is left out
      have hstep : placeModule codewords (c, bit) p = (c, bit) := by
        unfold placeModule
        rw [if_pos (Or.inl hfunction)]
      have hopen : openModules c (p :: ps) = openModules c ps := by
        unfold openModules
        rw [List.filter_cons_of_neg]
        rw [hfunction]
        decide
      rcases ih h hinRest hnodupRest bit with ⟨c', bit', hrun, hsound, hsize, hkept, hother, hplaced⟩
      refine ⟨c', bit', ?_, hsound, hsize, hkept, ?_, ?_⟩
      · rw [List.foldl_cons, hstep, hrun]
      · intro q hq hmem
        exact hother q hq fun htail => hmem (List.mem_cons_of_mem p htail)
      · rw [hopen]
        exact hplaced
    · have hopen : openModules c (p :: ps) = p :: openModules c ps := by
        unfold openModules
        rw [List.filter_cons_of_pos]
        rw [Bool.eq_false_of_not_eq_true hfunction]
        rfl
      by_cases hdone : codewords.length * kBitsPerCodeword ≤ bit
      · -- no bit is left
        have hstep : placeModule codewords (c, bit) p = (c, bit) := by
          unfold placeModule
          rw [if_pos (Or.inr hdone)]
        have hnone : (joined 8 (codewords.map UInt8.toNat)).drop bit = [] :=
          List.drop_eq_nil_of_le (by rw [hbits]; exact hdone)
        rcases ih h hinRest hnodupRest bit with ⟨c', bit', hrun, hsound, hsize, hkept, hother, _⟩
        refine ⟨c', bit', ?_, hsound, hsize, hkept, ?_, ?_⟩
        · rw [List.foldl_cons, hstep, hrun]
        · intro q hq hmem
          exact hother q hq fun htail => hmem (List.mem_cons_of_mem p htail)
        · intro _
          rw [hnone]
          exact ⟨_, (List.nil_append _).symm⟩
      · have hstep : placeModule codewords (c, bit) p =
            (c.paint p.1 p.2 (codewordBit codewords bit), bit + 1) := by
          unfold placeModule
          rw [if_neg (not_or.mpr ⟨hfunction, hdone⟩)]
        have hopenPainted : openModules (c.paint p.1 p.2 (codewordBit codewords bit)) ps = openModules c ps :=
          rfl
        rcases ih (c := c.paint p.1 p.2 (codewordBit codewords bit)) (h.paint _ _ _) hinRest hnodupRest
          (bit + 1) with ⟨c', bit', hrun, hsound, hsize, hkept, hother, hplaced⟩
        refine ⟨c', bit', ?_, hsound, hsize, hkept, ?_, ?_⟩
        · rw [List.foldl_cons, hstep, hrun]
        · intro q hq hmem
          rw [hother q hq fun htail => hmem (List.mem_cons_of_mem p htail), dark_paint h hp hq, if_neg]
          rintro rfl
          exact hmem List.mem_cons_self
        · intro hroom
          rw [hopen, List.length_cons] at hroom
          rw [hopenPainted] at hplaced
          rcases hplaced (by omega) with ⟨rest, hrest⟩
          have hlt : bit < (joined 8 (codewords.map UInt8.toNat)).length := by
            rw [hbits]
            exact not_le.mp hdone
          have hfirst : (joined 8 (codewords.map UInt8.toNat))[bit] = codewordBit codewords bit := by
            have hentry := getElem?_codewordBit (not_le.mp hdone)
            rw [List.getElem?_eq_getElem hlt] at hentry
            exact Option.some.inj hentry
          refine ⟨rest, ?_⟩
          rw [hopen, List.map_cons, hrest, List.drop_eq_getElem_cons hlt, hfirst, hother p hp hnot,
            dark_paint h hp hp, if_pos rfl]
          rfl

end Modules

end Qr

end Deskhub
