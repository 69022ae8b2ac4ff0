import Mathlib.Data.List.Infix

/-!
# Units separated by start codes

A stream of units, each after a start code of three or four bytes. A scan takes the first start code
it finds, the longer one where both begin, so a unit that holds no start code and does not run into
the next one is read back as it was written.
-/

namespace StartCodes

/-- The length of the start code that a stream begins with, and nothing without one. -/
def code (d : List UInt8) : Nat :=
  if [0, 0, 0, 1] <+: d then 4 else if [0, 0, 1] <+: d then 3 else 0

@[simp] theorem code_nil : code [] = 0 := by decide

@[simp] theorem code_long (d : List UInt8) : code (0 :: 0 :: 0 :: 1 :: d) = 4 := by
  rw [code, if_pos (by simp)]

@[simp] theorem code_short (d : List UInt8) : code (0 :: 0 :: 1 :: d) = 3 := by
  rw [code, if_neg (by simp), if_pos (by simp)]

theorem code_cases (d : List UInt8) :
    code d = 0 ∨ (∃ rest, d = 0 :: 0 :: 0 :: 1 :: rest) ∨ ∃ rest, d = 0 :: 0 :: 1 :: rest := by
  unfold code
  by_cases hlong : [0, 0, 0, 1] <+: d
  · rcases hlong with ⟨rest, rfl⟩
    exact .inr (.inl ⟨rest, rfl⟩)
  by_cases hshort : [0, 0, 1] <+: d
  · rcases hshort with ⟨rest, rfl⟩
    exact .inr (.inr ⟨rest, rfl⟩)
  · rw [if_neg hlong, if_neg hshort]
    exact .inl rfl

/-! ## Up to the next start code -/

/-- The bytes before the next start code, and the stream from there. -/
def upTo : List UInt8 → List UInt8 × List UInt8
  | [] => ([], [])
  | b :: d => if code (b :: d) = 0 then (b :: (upTo d).1, (upTo d).2) else ([], b :: d)

/-- A stream that ends or begins with a start code. -/
def Begins (d : List UInt8) : Prop := d = [] ∨ code d ≠ 0

theorem Begins.ne_of_code {d e : List UInt8} {b : UInt8} (h : Begins d) (he : code (b :: e) = 0) :
    d ≠ b :: e := by
  rintro rfl
  exact h.elim (List.cons_ne_nil b e) (fun hcode => hcode he)

/-- A unit that holds no start code, alone or together with the start of what follows. -/
def Fits (unit rest : List UInt8) : Prop :=
  ¬ [0, 0, 1] <:+: unit ∧ (code rest = 3 → unit.getLast? ≠ some 0)

theorem upTo_cons_of_code {b : UInt8} {d : List UInt8} (h : code (b :: d) ≠ 0) :
    upTo (b :: d) = ([], b :: d) := by
  rw [upTo, if_neg h]

theorem upTo_of_begins {d : List UInt8} (h : Begins d) : upTo d = ([], d) := by
  cases d with
  | nil => rfl
  | cons b d => exact upTo_cons_of_code (h.resolve_left (List.cons_ne_nil b d))

theorem append_upTo (d : List UInt8) : (upTo d).1 ++ (upTo d).2 = d := by
  induction d with
  | nil => rfl
  | cons b d ih =>
    rw [upTo]
    split
    · rw [List.cons_append, ih]
    · rfl

theorem begins_upTo (d : List UInt8) : Begins (upTo d).2 := by
  induction d with
  | nil => exact .inl rfl
  | cons b d ih =>
    rw [upTo]
    split
    · exact ih
    · next hcode => exact .inr hcode

theorem length_upTo (d : List UInt8) : (upTo d).1.length + (upTo d).2.length = d.length := by
  rw [← List.length_append, append_upTo]

theorem drop_upTo (d : List UInt8) : d.drop (upTo d).1.length = (upTo d).2 :=
  calc
    d.drop (upTo d).1.length = ((upTo d).1 ++ (upTo d).2).drop (upTo d).1.length := by
      rw [append_upTo]
    _ = (upTo d).2 := List.drop_left

theorem take_upTo (d : List UInt8) : d.take (upTo d).1.length = (upTo d).1 :=
  calc
    d.take (upTo d).1.length = ((upTo d).1 ++ (upTo d).2).take (upTo d).1.length := by
      rw [append_upTo]
    _ = (upTo d).1 := List.take_left

theorem fits_nil (rest : List UInt8) : Fits [] rest := by
  constructor
  · intro hinfix
    exact absurd (List.eq_nil_of_infix_nil hinfix) (by simp)
  · intro _ hlast
    cases hlast

/-- A byte before a unit that fits, where no start code begins. -/
theorem Fits.cons {b : UInt8} {unit rest : List UInt8} (h : Fits unit rest)
    (hnone : code (b :: (unit ++ rest)) = 0) : Fits (b :: unit) rest := by
  constructor
  · intro hinfix
    rcases List.infix_cons_iff.mp hinfix with hprefix | hinfix
    · rcases hprefix with ⟨tail, htail⟩
      rw [← List.cons_append, ← htail] at hnone
      simp at hnone
    · exact h.1 hinfix
  · intro hshort hlast
    rw [List.getLast?_cons] at hlast
    rcases code_cases rest with hcode | ⟨tail, rfl⟩ | ⟨tail, rfl⟩
    · omega
    · simp at hshort
    · cases hunit : unit.getLast? with
      | some a =>
        rw [hunit] at hlast
        exact h.2 hshort (hunit.trans hlast)
      | none =>
        rw [hunit] at hlast
        rw [List.getLast?_eq_none_iff.mp hunit, show b = 0 from Option.some.inj hlast] at hnone
        simp at hnone

theorem fits_upTo (d : List UInt8) : Fits (upTo d).1 (upTo d).2 := by
  induction d with
  | nil => exact fits_nil []
  | cons b d ih =>
    rw [upTo]
    split
    · next hcode =>
      apply ih.cons
      rw [append_upTo]
      exact hcode
    · exact fits_nil _

/-- No start code begins inside a unit that fits. -/
theorem code_of_fits {b : UInt8} {unit rest : List UInt8} (h : Fits (b :: unit) rest)
    (hrest : Begins rest) : code (b :: (unit ++ rest)) = 0 := by
  rcases code_cases (b :: (unit ++ rest)) with hnone | ⟨tail, htail⟩ | ⟨tail, htail⟩
  · exact hnone
  · match unit, htail with
    | [], htail =>
      rcases List.cons.inj htail with ⟨rfl, hrest'⟩
      change rest = 0 :: 0 :: 1 :: tail at hrest'
      rw [hrest'] at h
      exact absurd rfl (h.2 (code_short tail))
    | [_], htail =>
      have hrest' := (List.cons.inj (List.cons.inj htail).2).2
      exact absurd hrest' (hrest.ne_of_code (by simp [code]))
    | [_, _], htail =>
      have hrest' := (List.cons.inj (List.cons.inj (List.cons.inj htail).2).2).2
      exact absurd hrest' (hrest.ne_of_code (by simp [code]))
    | _ :: _ :: _ :: unit, htail =>
      simp only [List.cons_append, List.cons.injEq] at htail
      rcases htail with ⟨rfl, rfl, rfl, rfl, -⟩
      exact absurd ⟨[0], unit, rfl⟩ h.1
  · match unit, htail with
    | [], htail => exact absurd (List.cons.inj htail).2 (hrest.ne_of_code (by simp [code]))
    | [_], htail =>
      have hrest' := (List.cons.inj (List.cons.inj htail).2).2
      exact absurd hrest' (hrest.ne_of_code (by simp [code]))
    | _ :: _ :: unit, htail =>
      simp only [List.cons_append, List.cons.injEq] at htail
      rcases htail with ⟨rfl, rfl, rfl, -⟩
      exact absurd ⟨[], unit, rfl⟩ h.1

theorem Fits.tail {b : UInt8} {unit rest : List UInt8} (h : Fits (b :: unit) rest) :
    Fits unit rest := by
  constructor
  · intro hinfix
    exact h.1 (List.infix_cons hinfix)
  · intro hshort hlast
    apply h.2 hshort
    rw [List.getLast?_cons, hlast]
    rfl

/-- A unit that fits is read back. -/
theorem upTo_append {unit rest : List UInt8} (h : Fits unit rest) (hrest : Begins rest) :
    upTo (unit ++ rest) = (unit, rest) := by
  induction unit with
  | nil => exact upTo_of_begins hrest
  | cons b unit ih =>
    rw [List.cons_append, upTo, if_pos (code_of_fits h hrest), ih h.tail]

/-! ## Streams of units -/

/-- A unit and the start code before it. -/
structure Piece where
  long : Bool
  unit : List UInt8
deriving DecidableEq, Repr

def Piece.bytes (p : Piece) : List UInt8 :=
  (if p.long then [0, 0, 0, 1] else [0, 0, 1]) ++ p.unit

def render (ps : List Piece) : List UInt8 := ps.flatMap Piece.bytes

@[simp] theorem render_nil : render [] = [] := rfl

@[simp] theorem render_cons (p : Piece) (ps : List Piece) : render (p :: ps) = p.bytes ++ render ps :=
  rfl

theorem code_bytes (p : Piece) (d : List UInt8) :
    code (p.bytes ++ d) = if p.long then 4 else 3 := by
  unfold Piece.bytes
  cases p.long
  · exact code_short (p.unit ++ d)
  · exact code_long (p.unit ++ d)

theorem drop_bytes (p : Piece) (d : List UInt8) :
    (p.bytes ++ d).drop (if p.long then 4 else 3) = p.unit ++ d := by
  unfold Piece.bytes
  cases p.long
  · rfl
  · rfl

theorem begins_render (ps : List Piece) : Begins (render ps) := by
  cases ps with
  | nil => exact .inl rfl
  | cons p ps =>
    right
    rw [render_cons, code_bytes]
    cases p.long
    · exact Nat.succ_ne_zero 2
    · exact Nat.succ_ne_zero 3

/-- Each unit fits before what follows it. -/
def Apart : List Piece → Prop
  | [] => True
  | p :: ps => Fits p.unit (render ps) ∧ Apart ps

/-- The pieces of a stream that begins with a start code. -/
def pieces (d : List UInt8) : List Piece :=
  if code d = 0 then []
  else
    ⟨code d = 4, (upTo (d.drop (code d))).1⟩ :: pieces (upTo (d.drop (code d))).2
termination_by d.length
decreasing_by
  have hrest := length_upTo (d.drop (code d))
  rw [List.length_drop] at hrest
  have hsome : d ≠ [] := by
    rintro rfl
    exact absurd code_nil ‹_›
  have hpos := List.length_pos_iff.mpr hsome
  omega

theorem pieces_nil : pieces [] = [] := by
  rw [pieces, if_pos code_nil]

theorem pieces_of_code {d : List UInt8} (h : code d ≠ 0) :
    pieces d = ⟨code d = 4, (upTo (d.drop (code d))).1⟩ :: pieces (upTo (d.drop (code d))).2 := by
  rw [pieces, if_neg h]

/-- The start code of a stream, and the rest. -/
theorem code_append_drop {d : List UInt8} (h : code d ≠ 0) :
    (if code d = 4 then [0, 0, 0, 1] else [0, 0, 1]) ++ d.drop (code d) = d := by
  rcases code_cases d with hnone | ⟨rest, rfl⟩ | ⟨rest, rfl⟩
  · exact absurd hnone h
  · rw [code_long]
    rfl
  · rw [code_short]
    rfl

theorem render_pieces {d : List UInt8} (h : Begins d) : render (pieces d) = d := by
  induction d using pieces.induct with
  | case1 d hnone =>
    rw [h.resolve_right (fun hcode => hcode hnone), pieces_nil]
    rfl
  | case2 d hcode ih =>
    rw [pieces_of_code hcode, render_cons, ih (begins_upTo _)]
    unfold Piece.bytes
    rw [List.append_assoc, append_upTo]
    simpa using code_append_drop hcode

theorem apart_pieces {d : List UInt8} (h : Begins d) : Apart (pieces d) := by
  induction d using pieces.induct with
  | case1 d hnone =>
    rw [pieces, if_pos hnone]
    trivial
  | case2 d hcode ih =>
    rw [pieces_of_code hcode]
    constructor
    · rw [render_pieces (begins_upTo _)]
      exact fits_upTo _
    · exact ih (begins_upTo _)

/-- Pieces that lie apart are read back. -/
theorem pieces_render {ps : List Piece} (h : Apart ps) : pieces (render ps) = ps := by
  induction ps with
  | nil => exact pieces_nil
  | cons p ps ih =>
    have hcode := code_bytes p (render ps)
    have hsome : code (p.bytes ++ render ps) ≠ 0 := by
      rw [hcode]
      split
      · exact Nat.succ_ne_zero 3
      · exact Nat.succ_ne_zero 2
    rw [render_cons, pieces_of_code hsome, hcode, drop_bytes, upTo_append h.1 (begins_render ps),
      ih h.2]
    cases p with
    | mk long unit =>
      cases long
      · rfl
      · rfl

end StartCodes
