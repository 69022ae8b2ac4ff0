import Mathlib.Data.List.Rotate
import Mathlib.Data.Nat.ModEq

/-!
# Circular buffers

The elements from a reading place on, going round at the end of the buffer, are a queue: reading
takes its front, writing behind it appends, and moving the reading place forgets from the front.
-/

universe u

namespace CircularBuffer

variable {α : Type u}

/-- The `filled` elements from place `readAt` on. -/
def held (ring : List α) (readAt filled : Nat) : List α := (ring.rotate readAt).take filled

@[simp] theorem held_zero (ring : List α) (readAt : Nat) : held ring readAt 0 = [] := rfl

theorem length_held {ring : List α} {filled : Nat} (h : filled ≤ ring.length) (readAt : Nat) :
    (held ring readAt filled).length = filled := by
  unfold held
  rw [List.length_take, List.length_rotate, Nat.min_eq_left h]

theorem getElem?_held {ring : List α} {filled i : Nat} (h : filled ≤ ring.length) (hi : i < filled)
    (readAt : Nat) : (held ring readAt filled)[i]? = ring[(readAt + i) % ring.length]? := by
  unfold held
  rw [List.getElem?_take_of_lt hi, List.getElem?_rotate (by omega), Nat.add_comm i]

/-- Going `count` places forward forgets as many elements. -/
theorem drop_held {ring : List α} {filled count : Nat} (hcount : count ≤ filled)
    (hfilled : filled ≤ ring.length) (readAt : Nat) :
    (held ring readAt filled).drop count =
      held ring ((readAt + count) % ring.length) (filled - count) := by
  have hin : count ≤ (ring.rotate readAt).length := by
    rw [List.length_rotate]
    omega
  have hroom : filled - count ≤ ((ring.rotate readAt).drop count).length := by
    rw [List.length_drop, List.length_rotate]
    omega
  unfold held
  rw [List.rotate_mod, ← List.rotate_rotate, List.rotate_eq_drop_append_take hin, List.drop_take,
    List.take_append_of_le_length hroom]

/-- The element at the reading place is the front of the queue. -/
theorem held_succ {ring : List α} {readAt filled : Nat} {x : α} (hread : ring[readAt]? = some x)
    (hfilled : filled + 1 ≤ ring.length) :
    held ring readAt (filled + 1) = x :: held ring ((readAt + 1) % ring.length) filled := by
  have hin : readAt < ring.length := (List.getElem?_eq_some_iff.mp hread).1
  have hfront : (held ring readAt (filled + 1))[0]? = some x := by
    rw [getElem?_held hfilled (Nat.succ_pos filled), Nat.add_zero, Nat.mod_eq_of_lt hin, hread]
  have hrest : (held ring readAt (filled + 1)).drop 1 =
      held ring ((readAt + 1) % ring.length) filled := drop_held (Nat.succ_pos filled) hfilled readAt
  rw [← hrest]
  generalize held ring readAt (filled + 1) = queue at hfront ⊢
  cases queue with
  | nil => exact absurd hfront (by simp)
  | cons y queue =>
    rw [List.getElem?_cons_zero, Option.some.injEq] at hfront
    rw [hfront]
    rfl

/-- An element written behind the queue is its new end. -/
theorem held_set {ring : List α} {filled : Nat} (hroom : filled < ring.length) (readAt : Nat) (x : α) :
    held (ring.set ((readAt + filled) % ring.length) x) readAt (filled + 1) =
      held ring readAt filled ++ [x] := by
  have hin : (readAt + filled) % ring.length < ring.length := Nat.mod_lt _ (by omega)
  have hlength : (ring.set ((readAt + filled) % ring.length) x).length = ring.length :=
    List.length_set
  apply List.ext_getElem?
  intro i
  rcases Nat.lt_trichotomy i filled with hlt | rfl | hgt
  · -- an element of before: its place is another one
    have hother : (readAt + filled) % ring.length ≠ (readAt + i) % ring.length := by
      intro heq
      have hmod : filled % ring.length = i % ring.length := Nat.ModEq.add_left_cancel' readAt heq
      rw [Nat.mod_eq_of_lt hroom, Nat.mod_eq_of_lt (by omega)] at hmod
      omega
    rw [getElem?_held (by omega) (by omega), hlength, List.getElem?_set_ne hother,
      List.getElem?_append_left (by rw [length_held (by omega)]; exact hlt),
      getElem?_held (by omega) hlt]
  · have hlast : i = (held ring readAt i).length := (length_held (by omega) readAt).symm
    rw [getElem?_held (by omega) (by omega), hlength, List.getElem?_set_self hin]
    conv_rhs => rw [hlast]
    rw [← hlast, List.getElem?_append_right (by rw [← hlast]), ← hlast, Nat.sub_self]
    rfl
  · rw [List.getElem?_eq_none (by rw [length_held (by omega)]; omega), List.getElem?_eq_none]
    rw [List.length_append, length_held (by omega), List.length_singleton]
    omega

end CircularBuffer
