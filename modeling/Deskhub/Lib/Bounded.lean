import Mathlib.Data.List.Basic

/-!
# Accesses with their bounds

What a program does to a vector in place, defined only where every place it names is in
the vector: an assignment, an insertion, an erasure, a rotation, a loop of assignments.
-/

universe u

namespace Bounded

variable {α : Type u}

/-- `xs[i] = a`. -/
def set? (xs : List α) (i : Nat) (a : α) : Option (List α) :=
  if i < xs.length then some (xs.set i a) else none

/-- `n` copies of `a` are inserted in front of place `i`. -/
def insert? (xs : List α) (i n : Nat) (a : α) : Option (List α) :=
  if i ≤ xs.length then some (xs.take i ++ List.replicate n a ++ xs.drop i) else none

/-- The elements from `first` up to `last` are erased. -/
def erase? (xs : List α) (first last : Nat) : Option (List α) :=
  if first ≤ last ∧ last ≤ xs.length then some (xs.take first ++ xs.drop last) else none

/-- `std::rotate`: what is between `first` and `middle` goes behind what is up to `last`. -/
def rotate? (xs : List α) (first middle last : Nat) : Option (List α) :=
  if first ≤ middle ∧ middle ≤ last ∧ last ≤ xs.length then
    some (xs.take first ++
      ((xs.drop middle).take (last - middle) ++ (xs.drop first).take (middle - first)) ++
      xs.drop last)
  else none

/-- A place that far in front of another. -/
def sub? (i n : Nat) : Option Nat := if n ≤ i then some (i - n) else none

/-- The loop that assigns `a` to the `n` places from `first` on. -/
def fill? (xs : List α) (first n : Nat) (a : α) : Option (List α) :=
  (List.range' first n).foldlM (fun xs i => set? xs i a) xs

/-! ## Where they are defined -/

theorem set?_eq_some {xs : List α} {i : Nat} (h : i < xs.length) (a : α) :
    set? xs i a = some (xs.set i a) :=
  if_pos h

theorem insert?_eq_some {xs : List α} {i : Nat} (h : i ≤ xs.length) (n : Nat) (a : α) :
    insert? xs i n a = some (xs.take i ++ List.replicate n a ++ xs.drop i) :=
  if_pos h

theorem erase?_eq_some {xs : List α} {first last : Nat} (h : first ≤ last)
    (hlast : last ≤ xs.length) :
    erase? xs first last = some (xs.take first ++ xs.drop last) :=
  if_pos ⟨h, hlast⟩

theorem sub?_eq_some {i n : Nat} (h : n ≤ i) : sub? i n = some (i - n) := if_pos h

/-- The place behind the front part of a list is assigned. -/
theorem set?_append (front : List α) (x : α) (back : List α) (a : α) :
    set? (front ++ x :: back) front.length a = some (front ++ a :: back) := by
  have hin : front.length < (front ++ x :: back).length := by
    rw [List.length_append, List.length_cons]
    omega
  rw [set?_eq_some hin, List.set_append_right _ _ (Nat.le_refl _), Nat.sub_self, List.set_cons_zero]

/-- A part of a list is filled. -/
theorem fill?_append (front part back : List α) (a : α) :
    fill? (front ++ part ++ back) front.length part.length a =
      some (front ++ List.replicate part.length a ++ back) := by
  induction part generalizing front with
  | nil => rfl
  | cons x part ih =>
    -- the first place is assigned, and goes to the front
    have hrest := ih (front ++ [a])
    have hfirst := set?_append front x (part ++ back) a
    unfold fill? at hrest ⊢
    rw [List.length_append, List.length_singleton] at hrest
    rw [List.length_cons, List.range'_succ, List.foldlM_cons, List.append_assoc, List.cons_append,
      hfirst, List.replicate_succ]
    simp only [List.append_assoc, List.cons_append, List.nil_append] at hrest ⊢
    exact hrest

/-- Two parts of a list that stand next to each other change places. -/
theorem rotate?_append (front a b back : List α) :
    rotate? (front ++ (a ++ b) ++ back) front.length (front.length + a.length)
        (front.length + (a.length + b.length)) =
      some (front ++ (b ++ a) ++ back) := by
  unfold rotate?
  rw [if_pos]
  · congr 1
    have hmiddle : (front ++ (a ++ b) ++ back).drop (front.length + a.length) = b ++ back := by
      rw [← List.length_append, ← List.append_assoc front a b, List.append_assoc (front ++ a),
        List.drop_left]
    have hfirst : (front ++ (a ++ b) ++ back).drop front.length = a ++ (b ++ back) := by
      rw [List.append_assoc, List.drop_left, List.append_assoc]
    have hlast : (front ++ (a ++ b) ++ back).drop (front.length + (a.length + b.length)) = back := by
      rw [← List.length_append, ← List.length_append, List.drop_left]
    have hb : front.length + (a.length + b.length) - (front.length + a.length) = b.length := by
      omega
    rw [hmiddle, hfirst, hlast, hb, Nat.add_sub_cancel_left, List.take_left, List.take_left,
      List.append_assoc front, List.take_left, List.append_assoc front]
  · simp only [List.length_append]
    omega

end Bounded
