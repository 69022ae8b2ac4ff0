import Deskhub.Net.RecordText

/-!
# Numbers as the user writes them

The loop over the digits of a number with a limit, and `ParseUint` of the settings and of the
command line, which are the same.
-/

namespace Deskhub

/-- The loop over the digits, with the value so far: no value above the limit is given. -/
def digitsFrom (limit : Nat) : Nat → Bytes → Option Nat
  | value, [] => some value
  | value, c :: rest =>
    if c < 48 ∨ 57 < c then none
    else
      let value := value * 10 + (c.toNat - 48)
      if limit < value then none else digitsFrom limit value rest

/-- `ParseUint`. -/
def parseUint (s : Bytes) : Option UInt32 :=
  if s = [] then none else (digitsFrom 0xFFFFFFFF 0 s).map UInt32.ofNat

theorem digitsFrom_append (limit value : Nat) (s t : Bytes) :
    digitsFrom limit value (s ++ t) =
      (digitsFrom limit value s).bind fun value => digitsFrom limit value t := by
  induction s generalizing value with
  | nil => rfl
  | cons c s ih =>
    rw [List.cons_append, digitsFrom, digitsFrom]
    split
    · rfl
    · dsimp only
      split
      · rfl
      · exact ih _

/-- No number above the limit is read. -/
theorem digitsFrom_le {limit value n : Nat} {s : Bytes} (hvalue : value ≤ limit)
    (h : digitsFrom limit value s = some n) : n ≤ limit := by
  induction s generalizing value with
  | nil =>
    cases h
    exact hvalue
  | cons c s ih =>
    rw [digitsFrom] at h
    split at h
    · cases h
    dsimp only at h
    split at h
    · cases h
    · next hfits => exact ih (Nat.not_lt.mp hfits) h

/-- The digits of a number within the limit read back as the number. -/
theorem digitsFrom_decimal {limit n : Nat} (h : n ≤ limit) :
    digitsFrom limit 0 (decimal n) = some n := by
  have hdigit : ∀ value d, d < 10 → value * 10 + d ≤ limit →
      digitsFrom limit value [digitByte d] = some (value * 10 + d) := by
    intro value d hd hfit
    rcases digitByte_range hd with ⟨hrange, hvalue⟩
    rw [digitsFrom, if_neg hrange]
    dsimp only
    rw [hvalue, if_neg (Nat.not_lt.mpr hfit), digitsFrom]
  induction n using Nat.strong_induction_on with
  | _ n ih =>
    by_cases hsmall : n < 10
    · rw [decimal_of_lt hsmall, hdigit 0 n hsmall (by omega), Nat.zero_mul, Nat.zero_add]
    · rw [decimal_of_ge (by omega), digitsFrom_append, ih (n / 10) (by omega) (by omega)]
      show digitsFrom limit (n / 10) [digitByte (n % 10)] = some n
      rw [hdigit (n / 10) (n % 10) (by omega) (by omega)]
      congr 1
      omega

/-- A number that is written with `std::to_string` is read back. -/
theorem parseUint_decimal (n : UInt32) : parseUint (decimal n.toNat) = some n := by
  have hbound := n.toNat_lt
  unfold parseUint
  rw [if_neg (decimal_ne_nil _), digitsFrom_decimal (by omega), Option.map_some, UInt32.ofNat_toNat]

end Deskhub
