import Deskhub.Protocol.ByteOrder

/-!
# Text as bytes

Literals of the source and decimal numbers, as the byte strings they are.
-/

namespace Deskhub

/-- The bytes of an ASCII literal. -/
def ascii (s : String) : Bytes := s.toList.map (fun c => UInt8.ofNat c.toNat)

/-- A test of each byte of a literal; deciding `∀ c ∈ text` goes through every byte there is. -/
theorem forall_of_all {p : UInt8 → Prop} [DecidablePred p] {text : Bytes}
    (h : text.all (fun c => decide (p c)) = true) : ∀ c ∈ text, p c := by
  intro c hc
  exact of_decide_eq_true (List.all_eq_true.mp h c hc)

/-- The digit `d`, for `d < 10`. -/
def digitByte (d : Nat) : UInt8 := UInt8.ofNat (48 + d)

/-- The digits of `n`, the last `fuel` of them at most. -/
def decimalDigits : Nat → Nat → Bytes
  | 0, _ => []
  | fuel + 1, n =>
      if n < 10 then [digitByte n] else decimalDigits fuel (n / 10) ++ [digitByte (n % 10)]

/-- `std::to_string` of a number that is not negative. -/
def decimal (n : Nat) : Bytes := decimalDigits (n + 1) n

/-- More fuel than the number is large changes nothing. -/
theorem decimalDigits_eq {fuel n : Nat} (h : n < fuel) : decimalDigits fuel n = decimal n := by
  induction n using Nat.strong_induction_on generalizing fuel with
  | _ n ih =>
    cases fuel with
    | zero => omega
    | succ fuel =>
      unfold decimal decimalDigits
      split
      · rfl
      · -- both sides go on with a tenth of the number
        rw [ih (n / 10) (by omega) (by omega), ih (n / 10) (by omega) (by omega)]

theorem decimal_of_lt {n : Nat} (h : n < 10) : decimal n = [digitByte n] := by
  simp [decimal, decimalDigits, h]

/-- A number of several digits is written with its last digit behind the others. -/
theorem decimal_of_ge {n : Nat} (h : 10 ≤ n) :
    decimal n = decimal (n / 10) ++ [digitByte (n % 10)] := by
  have hlt : ¬ n < 10 := by omega
  conv_lhs => unfold decimal decimalDigits
  rw [if_neg hlt, decimalDigits_eq (by omega)]

end Deskhub
