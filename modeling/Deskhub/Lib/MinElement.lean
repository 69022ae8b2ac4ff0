import Mathlib.Data.List.Basic
import Mathlib.Order.Lattice

/-!
# The first least element

`std::min_element`: the place of the first element that no element is below.
-/

universe u

variable {α : Type u}

/-- The place of the first least element; the length of the list when it is empty. -/
def minElement (below : α → α → Bool) : List α → Nat
  | [] => 0
  | x :: xs =>
    match xs[minElement below xs]? with
    | none => 0
    | some y => if below y x then minElement below xs + 1 else 0

section MinElement

variable {below : α → α → Bool}

theorem minElement_lt {xs : List α} (h : xs ≠ []) : minElement below xs < xs.length := by
  induction xs with
  | nil => exact absurd rfl h
  | cons x xs ih =>
    rw [minElement, List.length_cons]
    split
    · exact Nat.zero_lt_succ _
    · next y hy =>
      split
      · exact Nat.succ_lt_succ (List.getElem?_eq_some_iff.mp hy).1
      · exact Nat.zero_lt_succ _

/-- For a comparison by a key: no element has a lesser key, and those in front have
greater ones. -/
theorem minElement_spec {β : Type u} [LinearOrder β] {key : α → β}
    (hbelow : ∀ a b, below a b = true ↔ key a < key b) {xs : List α} {m : α}
    (h : xs[minElement below xs]? = some m) :
    (∀ x ∈ xs, key m ≤ key x) ∧
      ∀ (i : Nat) (x : α), i < minElement below xs → xs[i]? = some x → key m < key x := by
  induction xs generalizing m with
  | nil => cases h
  | cons x xs ih =>
    rw [minElement] at h ⊢
    cases hleast : xs[minElement below xs]? with
    | none =>
      have hnil : xs = [] := by
        by_contra hne
        rw [List.getElem?_eq_getElem (minElement_lt hne)] at hleast
        cases hleast
      rw [hleast] at h
      have hm : x = m := Option.some.inj h
      constructor
      · intro y hy
        rw [hnil, List.mem_singleton] at hy
        rw [hy, hm]
      · intro i y hi
        exact absurd hi (Nat.not_lt_zero i)
    | some y =>
      rw [hleast] at h
      dsimp only at h ⊢
      rcases ih hleast with ⟨hall, hfront⟩
      by_cases hless : below y x = true
      · rw [if_pos hless, List.getElem?_cons_succ, hleast, Option.some.injEq] at h
        subst h
        rw [if_pos hless]
        rw [hbelow] at hless
        constructor
        · intro z hz
          rcases List.mem_cons.mp hz with hfirst | hrest
          · rw [hfirst]
            exact le_of_lt hless
          · exact hall z hrest
        · intro i z hi hz
          cases i with
          | zero =>
            rw [List.getElem?_cons_zero, Option.some.injEq] at hz
            rwa [← hz]
          | succ i =>
            rw [List.getElem?_cons_succ] at hz
            exact hfront i z (Nat.lt_of_succ_lt_succ hi) hz
      · rw [if_neg hless, List.getElem?_cons_zero, Option.some.injEq] at h
        subst h
        rw [if_neg hless]
        rw [hbelow] at hless
        constructor
        · intro z hz
          rcases List.mem_cons.mp hz with hfirst | hrest
          · rw [hfirst]
          · exact le_trans (not_lt.mp hless) (hall z hrest)
        · intro i z hi
          exact absurd hi (Nat.not_lt_zero i)

/-- The first least element is at one place only. -/
theorem eq_minElement {β : Type u} [LinearOrder β] (key : α → β)
    (hbelow : ∀ a b, below a b = true ↔ key a < key b) {xs : List α} {i : Nat} {m : α}
    (hm : xs[i]? = some m) (hleast : ∀ x ∈ xs, key m ≤ key x)
    (hfront : ∀ (j : Nat) (x : α), j < i → xs[j]? = some x → key m < key x) :
    i = minElement below xs := by
  have hne : xs ≠ [] := by
    rintro rfl
    cases hm
  have hplace := List.getElem?_eq_getElem (@minElement_lt _ below _ hne)
  rcases minElement_spec hbelow hplace with ⟨hleast', hfront'⟩
  rcases Nat.lt_trichotomy i (minElement below xs) with hlt | heq | hgt
  · exact absurd (hfront' i m hlt hm) (not_lt.mpr (hleast _ (List.mem_of_getElem? hplace)))
  · exact heq
  · exact absurd (hfront _ _ hgt hplace) (not_lt.mpr (hleast' _ (List.mem_of_getElem? hm)))

end MinElement
