import Deskhub.Qr.QrPatterns

/-!
# A QR code carries its text

What a reader finds in the modules of `EncodeQr`: the format in both its places, the codewords under
the mask it names, and in their data part the text.
-/

namespace Deskhub

namespace Qr

open BitStrings

/-! ## Format and version -/

theorem bits_eq_map (w v : Nat) : bits w v = (List.range w).reverse.map v.testBit := by
  induction w with
  | zero => rfl
  | succ w ih =>
    rw [bits, ih, List.range_succ, List.reverse_append, List.reverse_singleton, List.singleton_append,
      List.map_cons]

/-- The format of a mask is the standard's word for it. -/
theorem formatBits_spec {mask : Nat} (h : mask < kMaskCount) :
    (formatBits mask).toNat < 2 ^ 15 ∧ maskOfFormat (formatBits mask).toNat = some mask := by
  have hall : ∀ mask, mask < 8 → (formatBits mask).toNat < 2 ^ 15 ∧
      maskOfFormat (formatBits mask).toNat = some mask := by decide +kernel
  exact hall mask h

/-- The places of the format, in both copies. -/
theorem format_places (size : Nat) {i : Nat} (hi : i < 15) :
    kFormatBitPositionsTopLeft.getD i (0, 0) = formatTopLeft i ∧
      formatPositionBeside size i = formatBeside size i ∧
      ((formatTopLeft i).1 ≤ 8 ∧ (formatTopLeft i).2 ≤ 8) := by
  have hall : ∀ i, i < 15 → kFormatBitPositionsTopLeft.getD i (0, 0) = formatTopLeft i ∧
      (formatTopLeft i).1 ≤ 8 ∧ (formatTopLeft i).2 ≤ 8 := by decide
  rcases hall i hi with ⟨hplace, hnear⟩
  exact ⟨hplace, rfl, hnear⟩

theorem formatTopLeft_inj {i j : Nat} (hi : i < 15) (hj : j < 15) (h : formatTopLeft i = formatTopLeft j) :
    i = j := by
  have hall : ∀ i, i < 15 → ∀ j, j < 15 → formatTopLeft i = formatTopLeft j → i = j := by decide
  exact hall i hi j hj h

/-- The second copy lies in the eighth row and column, near the far ends. -/
theorem formatBeside_cases {size i : Nat} (hsize : 21 ≤ size) (hi : i < 15) :
    (i < 8 ∧ (formatBeside size i).1 + i + 1 = size ∧ (formatBeside size i).2 = 8) ∨
      (8 ≤ i ∧ (formatBeside size i).1 = 8 ∧ (formatBeside size i).2 + 15 = size + i) := by
  unfold formatBeside
  by_cases hright : i < 8
  · rw [if_pos hright]
    dsimp only
    omega
  · rw [if_neg hright]
    dsimp only
    omega

/-- What `WriteFormatBits` paints. -/
theorem mem_formatModules {size mask x y : Nat} {dark : Bool} :
    (x, y, dark) ∈ formatModules size mask ↔
      (∃ i, i < 15 ∧ ((x, y) = formatTopLeft i ∨ (x, y) = formatBeside size i) ∧
        dark = (formatBits mask).toNat.testBit i) ∨ (x = 8 ∧ y = size - 8 ∧ dark = true) := by
  have hcount : kFormatBitCount = 15 := rfl
  have height : kFinderWithSeparator = 8 := rfl
  unfold formatModules
  dsimp only
  rw [hcount, height, List.mem_append, List.mem_flatMap, List.mem_singleton, Prod.mk.injEq, Prod.mk.injEq]
  apply or_congr_left
  constructor
  · rintro ⟨i, hi, hmem⟩
    rw [List.mem_range] at hi
    rcases format_places size hi with ⟨htopLeft, hbeside, _⟩
    rw [htopLeft, hbeside, List.mem_cons, List.mem_singleton] at hmem
    refine ⟨i, hi, ?_⟩
    rcases hmem with hfirst | hsecond
    · rw [Prod.mk.injEq, Prod.mk.injEq] at hfirst
      exact ⟨Or.inl (Prod.ext hfirst.1 hfirst.2.1), hfirst.2.2⟩
    · rw [Prod.mk.injEq, Prod.mk.injEq] at hsecond
      exact ⟨Or.inr (Prod.ext hsecond.1 hsecond.2.1), hsecond.2.2⟩
  · rintro ⟨i, hi, hplace, hdark⟩
    rcases format_places size hi with ⟨htopLeft, hbeside, _⟩
    refine ⟨i, List.mem_range.mpr hi, ?_⟩
    rw [htopLeft, hbeside, List.mem_cons, List.mem_singleton, hdark]
    rcases hplace with hfirst | hsecond
    · rw [← hfirst]
      exact Or.inl rfl
    · rw [← hsecond]
      exact Or.inr rfl

/-- Each place of the format belongs to one bit. -/
theorem format_bit {size mask i : Nat} (hsize : 21 ≤ size) (hi : i < 15) {p : Nat × Nat}
    (hp : p = formatTopLeft i ∨ p = formatBeside size i) {dark : Bool}
    (hmem : (p.1, p.2, dark) ∈ formatModules size mask) : dark = (formatBits mask).toNat.testBit i := by
  rw [mem_formatModules] at hmem
  have hbeside := formatBeside_cases hsize hi
  have hnear := (format_places size hi).2.2
  rcases hmem with ⟨j, hj, hplace, hdark⟩ | ⟨hx, hy, _⟩
  · have hbeside' := formatBeside_cases hsize hj
    have hnear' := (format_places size hj).2.2
    have hsame : i = j := by
      rcases hp with rfl | rfl
      · rcases hplace with hsame | hother
        · exact formatTopLeft_inj hi hj hsame
        · rw [Prod.ext_iff] at hother
          dsimp only at hother
          omega
      · rcases hplace with hother | hsame
        · rw [Prod.ext_iff] at hother
          dsimp only at hother
          omega
        · rw [Prod.ext_iff] at hsame
          dsimp only at hsame
          omega
    rw [hdark, hsame]
  · -- the module that is always dark stands apart
    rcases hp with rfl | rfl
    · omega
    · omega

theorem paints_format {size mask x y : Nat} (hsize : 21 ≤ size) (h : Paints (formatModules size mask) x y) :
    InGrid size (x, y) ∧ InCorner size x y ∧ (x = 8 ∨ y = 8 ∨ (x ≤ 8 ∧ y ≤ 8)) := by
  rcases h with ⟨dark, hmem⟩
  rw [mem_formatModules] at hmem
  unfold InGrid InCorner
  dsimp only
  rcases hmem with ⟨i, hi, hplace, _⟩ | ⟨hx, hy, _⟩
  · have hbeside := formatBeside_cases hsize hi
    have hnear := (format_places size hi).2.2
    rcases hplace with hplace | hplace
    · rw [Prod.ext_iff] at hplace
      dsimp only at hplace
      omega
    · rw [Prod.ext_iff] at hplace
      dsimp only at hplace
      omega
  · omega

theorem paints_version {version x y : Nat}
    (h : Paints (versionModules (sizeOf version) version) x y) : InVersionArea version x y := by
  have hsize : sizeOf version = 17 + 4 * version := rfl
  unfold versionModules kFirstVersionWithVersionInfo kVersionBitCount kVersionInfoOffset kVersionInfoWidth at h
  unfold InVersionArea
  by_cases hsmall : version < 7
  · rw [if_pos hsmall] at h
    exact absurd h paints_nil
  · rw [if_neg hsmall, paints_flatMap] at h
    rcases h with ⟨i, hi, hpair⟩
    rw [List.mem_range] at hi
    rw [paints_pair] at hpair
    dsimp only at hpair
    omega

/-! ## The symbol -/

/-- The canvas that `EncodeQr` puts the data on. -/
def dataCanvas (text : Bytes) (version : Nat) : Canvas :=
  placeData (placeFunctionPatterns (Canvas.blank (sizeOf version)) version)
    (interleaveBlocks (appendDataCodewords text version) version)

/-- The symbol with the modules of a canvas. -/
def canvasCode (c : Canvas) : QrCode := { size := c.size, modules := c.modules }

/-- The canvas of the symbol under a mask. -/
def finalCanvas (text : Bytes) (version mask : Nat) : Canvas :=
  writeVersionBits (writeFormatBits (applyMask (dataCanvas text version) mask) mask) version

section Symbol

variable {text : Bytes} {version : Nat} (hchosen : chooseVersion text.length = some version)

include hchosen

theorem dataCanvas_spec : (dataCanvas text version).Sound ∧ (dataCanvas text version).size = sizeOf version ∧
    (∀ p, InGrid (sizeOf version) p →
      ((dataCanvas text version).isFunction p.1 p.2 = true ↔ FunctionModule version p.1 p.2)) ∧
    ∃ rest, (dataPositions version).map (fun p => (dataCanvas text version).dark p.1 p.2) =
      joined 8 ((interleaveBlocks (appendDataCodewords text version) version).map UInt8.toNat) ++ rest := by
  have hversion := (chooseVersion_spec hchosen).1
  have hlength := length_interleaveBlocks hversion (appendDataCodewords_spec hchosen).2
  have hplaced := (blank_sound (sizeOf version)).paintFunctions (functionPatterns (sizeOf version) version)
  have hmarks : ∀ p, InGrid (sizeOf version) p →
      ((placeFunctionPatterns (Canvas.blank (sizeOf version)) version).isFunction p.1 p.2 = true ↔
        FunctionModule version p.1 p.2) := fun p hp => isFunction_placeFunctionPatterns hversion hp
  have hblank : placeFunctionPatterns (Canvas.blank (sizeOf version)) version =
      (Canvas.blank (sizeOf version)).paintFunctions (functionPatterns (sizeOf version) version) := rfl
  rw [← hblank] at hplaced
  unfold dataCanvas
  generalize interleaveBlocks (appendDataCodewords text version) version = codewords at hlength
  generalize placeFunctionPatterns (Canvas.blank (sizeOf version)) version = c at hplaced hmarks
  rcases hplaced with ⟨hsound, hsize⟩
  have hsize' : c.size = sizeOf version := hsize
  -- the modules that take data are the standard's
  have hopen : openModules c (scanOrder version) = dataPositions version := by
    unfold openModules dataPositions
    apply List.filter_congr
    intro p hp
    have hmark := hmarks p (mem_scanOrder.mp hp).1
    by_cases hfunction : FunctionModule version p.1 p.2
    · rw [hmark.mpr hfunction, decide_eq_false (not_not.mpr hfunction)]
      rfl
    · rw [Bool.eq_false_of_not_eq_true fun ht => hfunction (hmark.mp ht), decide_eq_true hfunction]
      rfl
  have hin : ∀ p ∈ scanOrder version, InGrid c.size p := by
    intro p hp
    rw [hsize']
    exact (mem_scanOrder.mp hp).1
  rcases placeModules_spec hsound codewords hin (scanOrder_nodup version) 0 with
    ⟨c', bit', hrun, hsound', hsizeRun, hfunction, _, hdata⟩
  have hresult : placeData c codewords = c' := by
    unfold placeData
    rw [hsize', placementOrder_eq hversion, hrun]
  rw [hresult]
  refine ⟨hsound', hsizeRun.trans hsize', ?_, ?_⟩
  · intro p hp
    have hsame : c'.isFunction p.1 p.2 = c.isFunction p.1 p.2 := by
      unfold Canvas.isFunction Canvas.index
      rw [hsizeRun, hfunction]
    rw [hsame]
    exact hmarks p hp
  · have hroom := length_dataPositions hversion
    have hbits : codewords.length * kBitsPerCodeword = 8 * totalCodewords version := by
      rw [hlength, Nat.mul_comm]
      rfl
    rw [hopen] at hdata
    rcases hdata (by omega) with ⟨rest, hrest⟩
    exact ⟨rest, by rw [hrest, List.drop_zero]⟩

/-- The format and the version only touch function modules; what they leave is the data under the
mask, and the format stands in both its places. -/
theorem finalCanvas_spec (mask : Nat) :
    (finalCanvas text version mask).size = sizeOf version ∧
      (∀ p ∈ dataPositions version, (finalCanvas text version mask).dark p.1 p.2 =
        xor ((dataCanvas text version).dark p.1 p.2) (maskBit mask p.1 p.2)) ∧
      ∀ i, i < 15 → ∀ p, p = formatTopLeft i ∨ p = formatBeside (sizeOf version) i →
        InGrid (sizeOf version) p ∧
          (finalCanvas text version mask).dark p.1 p.2 = (formatBits mask).toNat.testBit i := by
  have hversion := (chooseVersion_spec hchosen).1
  have hsizeOf : sizeOf version = 17 + 4 * version := rfl
  have hmin := hversion.1
  have hlarge : 21 ≤ sizeOf version := by omega
  rcases dataCanvas_spec hchosen with ⟨hsound, hsize, hmarks, _⟩
  rcases applyMask_spec hsound mask with ⟨hmasked, hmaskedSize, _, hmaskedDark⟩
  have hmaskedSize' := hmaskedSize.trans hsize
  rcases hmasked.paintFunctions (formatModules (sizeOf version) mask) with ⟨hformat, hformatSize⟩
  have hformatSize' := hformatSize.trans hmaskedSize'
  rcases hformat.paintFunctions (versionModules (sizeOf version) version) with ⟨_, hfinalSize⟩
  have hfinal : finalCanvas text version mask =
      ((applyMask (dataCanvas text version) mask).paintFunctions
        (formatModules (sizeOf version) mask)).paintFunctions (versionModules (sizeOf version) version) := by
    unfold finalCanvas writeVersionBits writeFormatBits
    rw [hmaskedSize', hformatSize']
  have hinFormat : PaintsIn (applyMask (dataCanvas text version) mask).size
      (formatModules (sizeOf version) mask) := by
    intro m hm
    rw [hmaskedSize']
    exact (paints_format hlarge ⟨m.2.2, hm⟩).1
  have hinVersion : PaintsIn ((applyMask (dataCanvas text version) mask).paintFunctions
      (formatModules (sizeOf version) mask)).size (versionModules (sizeOf version) version) := by
    intro m hm
    rw [hformatSize']
    have harea : InVersionArea version m.1 m.2.1 := paints_version ⟨m.2.2, hm⟩
    unfold InVersionArea at harea
    unfold InGrid
    dsimp only
    omega
  rw [hfinal]
  refine ⟨hfinalSize.trans hformatSize', ?_, ?_⟩
  · intro p hp
    unfold dataPositions at hp
    rw [List.mem_filter, mem_scanOrder] at hp
    have hdata : ¬FunctionModule version p.1 p.2 := of_decide_eq_true hp.2
    have hgrid := hp.1.1
    have hunmarked : (dataCanvas text version).isFunction p.1 p.2 = false :=
      Bool.eq_false_of_not_eq_true fun ht => hdata ((hmarks p hgrid).mp ht)
    rw [dark_paintFunctions_of_not_mem hformat hinVersion (hformatSize'.symm ▸ hgrid)
        fun dark hmem => hdata (Or.inr (Or.inr (Or.inr (paints_version ⟨dark, hmem⟩)))),
      dark_paintFunctions_of_not_mem hmasked hinFormat (hmaskedSize'.symm ▸ hgrid)
        fun dark hmem => hdata (Or.inl (paints_format hlarge ⟨dark, hmem⟩).2.1),
      hmaskedDark p (hsize.symm ▸ hgrid), hunmarked]
    rfl
  · intro i hi p hp
    have hmem : (p.1, p.2, (formatBits mask).toNat.testBit i) ∈ formatModules (sizeOf version) mask :=
      mem_formatModules.mpr (Or.inl ⟨i, hi, hp, rfl⟩)
    rcases paints_format hlarge ⟨_, hmem⟩ with ⟨hgrid, _, hnear⟩
    refine ⟨hgrid, ?_⟩
    rw [dark_paintFunctions_of_not_mem hformat hinVersion (hformatSize'.symm ▸ hgrid), dark_paintFunctions
      hmasked hinFormat (hmaskedSize'.symm ▸ hgrid) hmem fun dark hmem' => format_bit hlarge hi hp hmem']
    -- the version stands apart from the format
    intro dark hmem'
    have harea := paints_version ⟨dark, hmem'⟩
    unfold InVersionArea at harea
    omega

end Symbol

/-- What the standard asks of a symbol that carries a text. -/
structure Carries (code : QrCode) (text : Bytes) (version mask : Nat) : Prop where
  size : versionOfSize code.size = some version
  copies : formatWord code formatTopLeft = formatWord code (formatBeside code.size)
  format : maskOfFormat (formatWord code formatTopLeft) = some mask
  blocks : ∀ j, j < eccBlockCount version → ∀ k, k < eccCodewordsPerBlock version →
    blockAt (gfTwo ^ k) (blockData version (readCodewords code version mask) j ++
      blockEcc version (readCodewords code version mask) j) = 0
  count : text.length < 2 ^ countWidth version
  data : ∃ rest, joined 8 ((dataPart version (readCodewords code version mask)).map UInt8.toNat) =
    bits 4 4 ++ bits (countWidth version) text.length ++ joined 8 (text.map UInt8.toNat) ++ rest

theorem encodeQr_eq {text : Bytes} (hne : text ≠ []) {version : Nat}
    (hchosen : chooseVersion text.length = some version) :
    ∃ mask, mask < kMaskCount ∧ encodeQr text =
      some (canvasCode (finalCanvas text version mask)) := by
  have hversion := (chooseVersion_spec hchosen).1
  rcases chooseMask_spec (dataCanvas_spec hchosen).1 with ⟨mask, hmask, hchoice⟩
  refine ⟨mask, hmask, ?_⟩
  unfold finalCanvas
  unfold dataCanvas at hchoice ⊢
  unfold encodeQr
  rw [if_neg hne, hchosen]
  dsimp only
  rw [(sized hversion).size, hchoice]
  unfold canvasCode
  dsimp only

/-- A symbol shows the modules of its canvas. -/
theorem dark_ofCanvas (c : Canvas) {p : Nat × Nat} (hp : InGrid c.size p) :
    (canvasCode c).dark p.1 p.2 = c.dark p.1 p.2 := by
  have hin : ¬((p.1 : Int) < 0 ∨ (p.2 : Int) < 0 ∨ (c.size : Int) ≤ p.1 ∨ (c.size : Int) ≤ p.2) := by
    unfold InGrid at hp
    omega
  unfold canvasCode QrCode.dark Canvas.dark Canvas.index
  dsimp only
  rw [if_neg hin, Int.toNat_natCast, Int.toNat_natCast]

section Reading

variable {text : Bytes} {version : Nat} (hchosen : chooseVersion text.length = some version) (mask : Nat)

include hchosen

/-- The codewords are read as they were interleaved. -/
theorem readCodewords_finalCanvas :
    readCodewords (canvasCode (finalCanvas text version mask)) version mask =
      interleaveBlocks (appendDataCodewords text version) version := by
  have hversion := (chooseVersion_spec hchosen).1
  have hlength := length_interleaveBlocks hversion (appendDataCodewords_spec hchosen).2
  rcases finalCanvas_spec hchosen mask with ⟨hsize, hdata, _⟩
  rcases (dataCanvas_spec hchosen).2.2.2 with ⟨rest, hrest⟩
  have hbits : readBits (canvasCode (finalCanvas text version mask)) version mask =
      (dataPositions version).map fun p => (dataCanvas text version).dark p.1 p.2 := by
    unfold readBits
    apply List.map_congr_left
    intro p hp
    have hgrid : InGrid (finalCanvas text version mask).size p := by
      rw [hsize]
      exact (mem_scanOrder.mp (List.mem_filter.mp hp).1).1
    rw [dark_ofCanvas _ hgrid, hdata p hp, Bool.xor_assoc, Bool.xor_self, Bool.xor_false]
  unfold readCodewords
  rw [hbits, hrest, (sized hversion).total, ← hlength, codewordsOf_joined]

theorem formatWord_finalCanvas (place : Nat → Nat × Nat)
    (hplace : ∀ i, i < 15 → place i = formatTopLeft i ∨ place i = formatBeside (sizeOf version) i)
    (hmask : mask < kMaskCount) :
    formatWord (canvasCode (finalCanvas text version mask)) place =
      (formatBits mask).toNat := by
  rcases finalCanvas_spec hchosen mask with ⟨hsize, _, hformat⟩
  have hbits : ((List.range 15).reverse.map fun i => (canvasCode (finalCanvas text version mask)).dark (place i).1 (place i).2) =
      bits 15 (formatBits mask).toNat := by
    rw [bits_eq_map]
    apply List.map_congr_left
    intro i hi
    rw [List.mem_reverse, List.mem_range] at hi
    rcases hformat i hi (place i) (hplace i hi) with ⟨hgrid, hdark⟩
    rw [dark_ofCanvas _ (hsize.symm ▸ hgrid), hdark]
  unfold formatWord
  rw [hbits, ofBits_bits, Nat.mod_eq_of_lt (formatBits_spec hmask).1]

theorem carries_finalCanvas (hmask : mask < kMaskCount) :
    Carries (canvasCode (finalCanvas text version mask)) text version mask := by
  have hversion := (chooseVersion_spec hchosen).1
  have hsizeOf : sizeOf version = 17 + 4 * version := rfl
  have hsized := sized hversion
  have hlength := (appendDataCodewords_spec hchosen).2
  have hcodewords := readCodewords_finalCanvas hchosen mask
  have hfirst := formatWord_finalCanvas hchosen mask formatTopLeft (fun i _ => Or.inl rfl) hmask
  have hsecond := formatWord_finalCanvas hchosen mask (formatBeside (sizeOf version))
    (fun i _ => Or.inr rfl) hmask
  have hsize := (finalCanvas_spec hchosen mask).1
  constructor
  · rcases hversion with ⟨hmin, hmax⟩
    have hgrid : (canvasCode (finalCanvas text version mask)).size = sizeOf version := hsize
    unfold versionOfSize
    rw [hgrid, if_pos (by omega), hsizeOf]
    congr 1
    omega
  · have hgrid : (canvasCode (finalCanvas text version mask)).size = sizeOf version := hsize
    rw [hfirst, hgrid, hsecond]
  · rw [hfirst]
    exact (formatBits_spec hmask).2
  · intro j hj k hk
    rw [hcodewords]
    exact blockAt_interleaveBlocks hversion hlength hj hk
  · rw [hsized.width]
    exact Nat.lt_of_le_of_lt (chooseVersion_spec hchosen).2 hsized.capacity
  · rw [hcodewords, dataPart_interleaveBlocks hversion hlength, hsized.width]
    exact (appendDataCodewords_spec hchosen).1

end Reading

/-- The reader gets the text of a symbol that carries it. -/
theorem Carries.readQr {code : QrCode} {text : Bytes} {version mask : Nat}
    (h : Carries code text version mask) : readQr code = some text := by
  rcases h.data with ⟨rest, hbits⟩
  unfold Qr.readQr
  rw [h.size]
  dsimp only [Option.bind_eq_bind, Option.bind_some]
  rw [if_neg (not_not.mpr h.copies), h.format]
  exact readText_of_bits hbits h.count

end Qr

open Qr

end Deskhub
