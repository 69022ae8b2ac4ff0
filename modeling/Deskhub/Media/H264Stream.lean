import Deskhub.Media.H264SpsRewrite

/-!
# The rewrite of a stream

The pieces of the result are those of the stream with the parameter sets rewritten, so its units
are, in the same order, and a second rewrite finds nothing to do.
-/

namespace Deskhub

open AnnexB StartCodes

namespace H264Sps

/-- What is put in a unit's place, with its start code; nothing where the unit stays. -/
def replacement (unit : Bytes) : Bytes := (annexBSpsWithZeroReorder unit).getD []

theorem annexBSpsWithZeroReorder_eq (unit : Bytes) :
    annexBSpsWithZeroReorder unit = some (replacement unit) := by
  unfold replacement
  rcases annexBSpsWithZeroReorder_cases unit with hnone | ⟨new, hnew, -⟩
  · rw [hnone]
    rfl
  · rw [hnew]
    rfl

/-- A unit that is replaced is one that was rewritten. -/
theorem rewritten_of_replacement {unit : Bytes} (h : replacement unit ≠ []) :
    ∃ new, replacement unit = [0, 0, 0, 1] ++ new ∧ Rewritten unit new ∧
      ∃ b, new.getLast? = some b ∧ b ≠ 0 := by
  have heq := annexBSpsWithZeroReorder_eq unit
  rcases annexBSpsWithZeroReorder_cases unit with hnone | ⟨new, hnew, hrewritten, hlast⟩
  · rw [heq] at hnone
    exact absurd (Option.some.inj hnone) h
  · rw [heq] at hnew
    exact ⟨new, Option.some.inj hnew, hrewritten, hlast⟩

theorem replacement_of_type_ne {header : UInt8} {payload : Bytes}
    (h : header &&& 0x1F ≠ kNalTypeSps) : replacement (header :: payload) = [] := by
  unfold replacement annexBSpsWithZeroReorder
  dsimp only
  rw [if_pos (.inr h)]
  rfl

theorem replacement_nil : replacement [] = [] := rfl

/-- A piece with what is put in its place. -/
def rewritePiece (p : Piece) : Piece :=
  if replacement p.unit = [] then p else ⟨true, (replacement p.unit).drop 4⟩

/-- Whether a unit of the pieces is replaced. -/
def changes (ps : List Piece) : Bool := ps.any (fun p => replacement p.unit ≠ [])

theorem rewritePiece_of_nil {p : Piece} (h : replacement p.unit = []) : rewritePiece p = p :=
  if_pos h

theorem changes_cons_of_nil {p : Piece} {ps : List Piece} (h : replacement p.unit = []) :
    changes (p :: ps) = changes ps := by
  unfold changes
  rw [List.any_cons, decide_eq_false (not_not.mpr h), Bool.false_or]

theorem changes_cons_of_ne {p : Piece} {ps : List Piece} (h : replacement p.unit ≠ []) :
    changes (p :: ps) = true := by
  unfold changes
  rw [List.any_cons, decide_eq_true h, Bool.true_or]

theorem bytes_rewritePiece {p : Piece} (h : replacement p.unit ≠ []) :
    (rewritePiece p).bytes = replacement p.unit := by
  rcases rewritten_of_replacement h with ⟨new, hnew, -⟩
  unfold rewritePiece
  rw [if_neg h, hnew]
  rfl

/-! ## The loop -/

/-- The bytes of a stream between two positions. -/
def between (data : Bytes) (lo hi : Nat) : Bytes := (data.drop lo).take (hi - lo)

theorem between_append {data : Bytes} {lo mid hi : Nat} (hlo : lo ≤ mid) (hhi : mid ≤ hi) :
    between data lo mid ++ between data mid hi = between data lo hi := by
  unfold between
  have hsum : hi - lo = (mid - lo) + (hi - mid) := by omega
  rw [hsum, List.take_add, List.drop_drop, Nat.add_sub_cancel' hlo]

theorem between_self (data : Bytes) (pos : Nat) : between data pos pos = [] := by
  unfold between
  rw [Nat.sub_self, List.take_zero]

section Loop

variable {annexb : Bytes} {pos start copiedTo : Nat} {out : Bytes}

theorem nextStartCode_of_code (hcode : startCodeLengthAt annexb pos ≠ 0) :
    nextStartCode annexb pos = pos := by
  rw [nextStartCode, if_neg (fun h => hcode h.2)]

theorem nextStartCode_nextStartCode (annexb : Bytes) (pos : Nat) :
    nextStartCode annexb (nextStartCode annexb pos) = nextStartCode annexb pos := by
  induction pos using nextStartCode.induct annexb with
  | case1 pos hskip ih =>
    rw [nextStartCode.eq_def annexb pos, if_pos hskip]
    exact ih
  | case2 pos hstop =>
    rw [nextStartCode.eq_def annexb pos, if_neg hstop, nextStartCode.eq_def annexb pos, if_neg hstop]

/-- A start code and the unit behind it are the bytes of the piece. -/
theorem between_piece (hcode : startCodeLengthAt annexb pos ≠ 0)
    (hat : pos + startCodeLengthAt annexb pos = start) :
    between annexb pos (nextStartCode annexb start) =
      Piece.bytes ⟨startCodeLengthAt annexb pos = 4,
        between annexb start (nextStartCode annexb start)⟩ := by
  have hsplit := code_append_drop hcode
  rw [← startCodeLengthAt_eq, List.drop_drop, hat] at hsplit
  have hlength : (if startCodeLengthAt annexb pos = 4 then [0, 0, 0, 1] else [0, 0, 1] :
      Bytes).length = startCodeLengthAt annexb pos := by
    rw [startCodeLengthAt_eq] at hcode ⊢
    rcases code_cases (annexb.drop pos) with hnone | ⟨rest, hrest⟩ | ⟨rest, hrest⟩
    · exact absurd hnone hcode
    · rw [hrest, code_long]
      rfl
    · rw [hrest, code_short]
      rfl
  have hfront : between annexb pos start =
      if startCodeLengthAt annexb pos = 4 then [0, 0, 0, 1] else [0, 0, 1] := by
    unfold between
    rw [← hsplit, ← hat, Nat.add_sub_cancel_left]
    exact List.take_left' hlength
  rw [← between_append (show pos ≤ start by omega) (le_nextStartCode annexb start), hfront]
  unfold Piece.bytes
  simp only [decide_eq_true_eq]

/-- One turn of the loop at a start code. -/
theorem streamFrom_code (hpos : pos < annexb.length) (hcode : startCodeLengthAt annexb pos ≠ 0)
    (hat : pos + startCodeLengthAt annexb pos = start) :
    streamFrom annexb pos copiedTo out =
      if replacement (between annexb start (nextStartCode annexb start)) = [] then
        streamFrom annexb (nextStartCode annexb start) copiedTo out
      else
        streamFrom annexb (nextStartCode annexb start) (nextStartCode annexb start)
          (out ++ between annexb copiedTo pos ++
            replacement (between annexb start (nextStartCode annexb start))) := by
  subst hat
  conv_lhs => rw [streamFrom]
  rw [if_pos hpos]
  refine (if_neg hcode).trans ?_
  by_cases hunit : pos + startCodeLengthAt annexb pos <
      nextStartCode annexb (pos + startCodeLengthAt annexb pos)
  · refine (dif_pos hunit).trans ?_
    have hstart := lt_length_of_lt_next hunit
    by_cases htype : annexb.get ⟨_, hstart⟩ &&& 0x1F = kNalTypeSps
    · refine (if_pos htype).trans ?_
      show (annexBSpsWithZeroReorder (between annexb _ _)).bind _ = _
      rw [annexBSpsWithZeroReorder_eq, Option.bind_some]
      by_cases hnone : replacement (between annexb (pos + startCodeLengthAt annexb pos)
          (nextStartCode annexb (pos + startCodeLengthAt annexb pos))) = []
      · rw [if_pos hnone, if_neg (not_not.mpr hnone)]
      · rw [if_neg hnone, if_pos hnone]
        rfl
    · refine (if_neg htype).trans ?_
      have hunit' : between annexb (pos + startCodeLengthAt annexb pos)
          (nextStartCode annexb (pos + startCodeLengthAt annexb pos)) =
            annexb.get ⟨_, hstart⟩ :: between annexb (pos + startCodeLengthAt annexb pos + 1)
              (nextStartCode annexb (pos + startCodeLengthAt annexb pos)) := by
        rw [← between_append (Nat.le_succ _) hunit]
        unfold between
        rw [Nat.succ_sub (Nat.le_refl _), Nat.sub_self, List.drop_eq_getElem_cons hstart]
        rfl
      rw [hunit', if_pos (replacement_of_type_ne htype)]
  · refine (dif_neg hunit).trans ?_
    have hsame := Nat.le_antisymm (Nat.le_of_not_lt hunit) (le_nextStartCode annexb _)
    rw [hsame, between_self, if_pos replacement_nil]

end Loop

/-- What the loop gives from a position on. -/
theorem streamFrom_eq (annexb : Bytes) (pos copiedTo : Nat) (out : Bytes) (hcopied : copiedTo ≤ pos)
    (hpos : pos ≤ annexb.length) :
    streamFrom annexb pos copiedTo out =
      some (if out = [] ∧ changes (piecesFrom annexb pos) = false then []
        else out ++ between annexb copiedTo (nextStartCode annexb pos) ++
          render ((piecesFrom annexb pos).map rewritePiece)) := by
  induction hleft : annexb.length - pos using Nat.strong_induction_on
    generalizing pos copiedTo out with
  | h left ih =>
  by_cases hlt : pos < annexb.length
  · by_cases hnone : startCodeLengthAt annexb pos = 0
    · have hnext : nextStartCode annexb pos = nextStartCode annexb (pos + 1) := by
        rw [nextStartCode.eq_def annexb pos, if_pos ⟨hlt, hnone⟩]
      have hskip : streamFrom annexb pos copiedTo out = streamFrom annexb (pos + 1) copiedTo out := by
        conv_lhs => rw [streamFrom]
        rw [if_pos hlt]
        exact if_pos hnone
      rw [hskip, hnext, piecesFrom_skip hlt hnone]
      exact ih _ (by omega) _ _ _ (by omega) hlt rfl
    · -- a start code, the unit behind it and what follows
      have hstart := lt_length_of_startCode hnone
      obtain ⟨start, hat⟩ : ∃ start, pos + startCodeLengthAt annexb pos = start := ⟨_, rfl⟩
      rw [hat] at hstart
      have hstop := le_nextStartCode annexb start
      have hstop' := nextStartCode_le hstart
      have hpieces := piecesFrom_of_code hnone hat
      rw [streamFrom_code hlt hnone hat, nextStartCode_of_code hnone, hpieces]
      have hpiece := between_piece hnone hat
      by_cases hkept : replacement (between annexb start (nextStartCode annexb start)) = []
      · rw [if_pos hkept, ih _ (by omega) _ _ _ (by omega) hstop' rfl, nextStartCode_nextStartCode]
        have hsame : rewritePiece ⟨startCodeLengthAt annexb pos = 4,
            between annexb start (nextStartCode annexb start)⟩ =
              ⟨startCodeLengthAt annexb pos = 4,
                between annexb start (nextStartCode annexb start)⟩ := rewritePiece_of_nil hkept
        change _ = some (if out = [] ∧ changes (⟨startCodeLengthAt annexb pos = 4,
          between annexb start (nextStartCode annexb start)⟩ :: _) = false then [] else
            _ ++ render (rewritePiece ⟨startCodeLengthAt annexb pos = 4,
              between annexb start (nextStartCode annexb start)⟩ :: _))
        rw [changes_cons_of_nil hkept, hsame, render_cons, ← hpiece,
          ← between_append hcopied (show pos ≤ nextStartCode annexb start by omega)]
        simp only [List.append_assoc]
      · rw [if_neg hkept, ih _ (by omega) _ _ _ (Nat.le_refl _) hstop' rfl,
          nextStartCode_nextStartCode, between_self, List.append_nil]
        have hbytes := bytes_rewritePiece (p := ⟨startCodeLengthAt annexb pos = 4,
          between annexb start (nextStartCode annexb start)⟩) hkept
        change _ = some (if out = [] ∧ changes (⟨startCodeLengthAt annexb pos = 4,
          between annexb start (nextStartCode annexb start)⟩ :: _) = false then [] else
            _ ++ render (rewritePiece ⟨startCodeLengthAt annexb pos = 4,
              between annexb start (nextStartCode annexb start)⟩ :: _))
        rw [changes_cons_of_ne hkept, render_cons, hbytes]
        have hsome : ¬ (out ++ between annexb copiedTo pos ++
            replacement (between annexb start (nextStartCode annexb start)) = [] ∧
              changes (piecesFrom annexb (nextStartCode annexb start)) = false) := by
          rintro ⟨hnil, -⟩
          exact hkept (List.append_eq_nil_iff.mp hnil).2
        rw [if_neg hsome, if_neg (fun h => absurd h.2 (by decide))]
        simp only [List.append_assoc]
  · -- the end
    have hend : pos = annexb.length := by omega
    have hempty : piecesFrom annexb pos = [] := by
      unfold piecesFrom
      rw [List.drop_eq_nil_of_le (Nat.le_of_not_lt hlt)]
      exact pieces_nil
    have hnext : nextStartCode annexb pos = pos := by
      rw [nextStartCode, if_neg (fun h => hlt h.1)]
    have hall : between annexb copiedTo pos = annexb.drop copiedTo := by
      unfold between
      rw [List.take_of_length_le]
      rw [List.length_drop, hend]
    rw [streamFrom, if_neg hlt, hempty, hnext, hall]
    show some _ = some (if out = [] ∧ changes [] = false then [] else _ ++ render [])
    rw [render_nil, List.append_nil]
    simp [changes]

/-! ## The pieces of the result -/

theorem code_render_rewritePiece {ps : List Piece} (h : code (render (ps.map rewritePiece)) = 3) :
    code (render ps) = 3 := by
  cases ps with
  | nil => exact h
  | cons p ps =>
    rw [List.map_cons, render_cons, code_bytes] at h
    rw [render_cons, code_bytes]
    by_cases hkept : replacement p.unit = []
    · rw [rewritePiece_of_nil hkept] at h
      exact h
    · -- a piece that is replaced has the longer start code
      unfold rewritePiece at h
      rw [if_neg hkept] at h
      cases h

theorem fits_rewritePiece {unit : Bytes} {ps : List Piece} (h : Fits unit (render ps)) :
    Fits unit (render (ps.map rewritePiece)) :=
  ⟨h.1, fun hshort => h.2 (code_render_rewritePiece hshort)⟩

/-- The unit of a piece after the rewrite. -/
theorem unit_rewritePiece {p : Piece} (h : replacement p.unit ≠ []) :
    Rewritten p.unit (rewritePiece p).unit ∧
      ∃ b, (rewritePiece p).unit.getLast? = some b ∧ b ≠ 0 := by
  rcases rewritten_of_replacement h with ⟨new, hnew, hrewritten, hlast⟩
  have hunit : (rewritePiece p).unit = new := by
    unfold rewritePiece
    rw [if_neg h, hnew]
    rfl
  rw [hunit]
  exact ⟨hrewritten, hlast⟩

theorem Rewritten.free_of_startCode {old new : Bytes} (h : Rewritten old new) :
    ¬ [0, 0, 1] <:+: new := by
  rcases h with ⟨header, payload, payload', kept, refs, -, rfl, hrewrite⟩
  exact hrewrite.noStartCode

theorem apart_rewritePiece {ps : List Piece} (h : Apart ps) : Apart (ps.map rewritePiece) := by
  induction ps with
  | nil => trivial
  | cons p ps ih =>
    refine ⟨?_, ih h.2⟩
    by_cases hkept : replacement p.unit = []
    · rw [rewritePiece_of_nil hkept]
      exact fits_rewritePiece h.1
    · rcases unit_rewritePiece hkept with ⟨hrewritten, b, hlast, hne⟩
      refine ⟨hrewritten.free_of_startCode, ?_⟩
      intro _ hzero
      rw [hlast] at hzero
      exact hne (Option.some.inj hzero)

/-- A rewritten piece is not rewritten again. -/
theorem changes_rewritePiece (ps : List Piece) : changes (ps.map rewritePiece) = false := by
  induction ps with
  | nil => rfl
  | cons p ps ih =>
    rw [List.map_cons, changes_cons_of_nil, ih]
    by_cases hkept : replacement p.unit = []
    · rw [rewritePiece_of_nil hkept]
      exact hkept
    · have hagain := (unit_rewritePiece hkept).1.again
      rw [annexBSpsWithZeroReorder_eq] at hagain
      exact Option.some.inj hagain

/-- Unit by unit: the same, or rewritten. -/
theorem forall₂_units (ps : List Piece) :
    List.Forall₂ (fun old new => new = old ∨ Rewritten old new)
      ((ps.map (·.unit)).filter (· ≠ []))
      (((ps.map rewritePiece).map (·.unit)).filter (· ≠ [])) := by
  induction ps with
  | nil => exact .nil
  | cons p ps ih =>
    simp only [List.map_cons]
    by_cases hkept : replacement p.unit = []
    · rw [rewritePiece_of_nil hkept]
      by_cases hsome : p.unit = []
      · rw [List.filter_cons_of_neg (by simpa using hsome),
          List.filter_cons_of_neg (by simpa using hsome)]
        exact ih
      · rw [List.filter_cons_of_pos (by simpa using hsome),
          List.filter_cons_of_pos (by simpa using hsome)]
        exact .cons (.inl rfl) ih
    · have hrewritten := (unit_rewritePiece hkept).1
      have hold : p.unit ≠ [] := by
        intro hnil
        rw [hnil] at hkept
        exact hkept replacement_nil
      have hnew : (rewritePiece p).unit ≠ [] := by
        rcases hrewritten with ⟨header, payload, payload', kept, refs, -, hnew, -⟩
        rw [hnew]
        exact List.cons_ne_nil _ _
      rw [List.filter_cons_of_pos (by simpa using hold),
        List.filter_cons_of_pos (by simpa using hnew)]
      exact .cons (.inr hrewritten) ih

end H264Sps

end Deskhub
