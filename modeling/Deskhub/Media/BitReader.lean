import Deskhub.Media.BitWriter

/-!
# The bit reader

`BitReader` and its Exp-Golomb codes. What is read without running over depends on the bits it took
and on nothing else, so the same bits at another place give the same.
-/

namespace Deskhub

open BitStrings

/-- A position counts the bits of bytes in memory. -/
structure BitReader where
  bytes : Bytes
  pos : Nat := 0
  overrun : Bool := false
deriving DecidableEq, Repr

/-- A step of a parser over a bit reader, which may give up early. -/
abbrev Reading (α : Type) := StateT BitReader Option α

namespace BitReader

/-- `Bit`: past the end it gives zeros and notes the overrun. -/
def bit : Reading Bool := fun r =>
  if h : r.pos < r.bytes.length * 8 then
    let byte := r.bytes.get ⟨r.pos / 8, by omega⟩
    some (byte.toNat.testBit (7 - r.pos % 8), { r with pos := r.pos + 1 })
  else some (false, { r with overrun := true })

/-- The loop of `U`. -/
def uFrom : Nat → Nat → Reading Nat
  | 0, v => pure v
  | bits + 1, v => do
    let b ← bit
    uFrom bits (2 * v + b.toNat)

def u (bits : Nat) : Reading Nat := uFrom bits 0

def overrunSet : Reading Bool := fun r => some (r.overrun, r)

/-- `overrun` set before its time. -/
def setOverrun : Reading Unit := fun r => some ((), { r with overrun := true })

/-- The loop of `UE`: the zeros before a one, with how many more are allowed. More than 31 are an
overrun, and then nothing is returned. -/
def ueZeros : Nat → Nat → Reading (Option Nat)
  | left, leading => do
    if ← overrunSet then return some leading
    if ← bit then return some leading
    match left with
    | 0 => do
      setOverrun
      return none
    | left + 1 => ueZeros left (leading + 1)

/-- `UE`. -/
def ue : Reading Nat := do
  match ← ueZeros 31 0 with
  | none => return 0
  | some 0 => return 0
  | some leading => return (1 <<< leading ||| (← u leading)) - 1

/-- `SE`. -/
def se : Reading Int := do
  let k ← ue
  let half : Int := (k + 1) / 2
  return if k % 2 = 1 then half else -half

/-! ## What is read -/

/-- The bits that are left. -/
def rest (r : BitReader) : List Bool := (bitsOf r.bytes).drop r.pos

/-- Where these bits stand the reading takes them and gives `a`. -/
def Takes {α : Type} (m : Reading α) (used : List Bool) (a : α) : Prop :=
  ∀ (bytes : Bytes) (pos : Nat) (later : List Bool),
    (⟨bytes, pos, false⟩ : BitReader).rest = used ++ later →
      m ⟨bytes, pos, false⟩ = some (a, ⟨bytes, pos + used.length, false⟩)

/-- What the reading gives is decided by the bits it takes, unless it runs over. -/
def Local {α : Type} (m : Reading α) : Prop :=
  ∀ (r : BitReader) (a : α) (r' : BitReader), m r = some (a, r') → r'.overrun = false →
    r.overrun = false ∧ ∃ used later, r.rest = used ++ later ∧
      r' = ⟨r.bytes, r.pos + used.length, false⟩ ∧ Takes m used a

section Rules

variable {α β : Type}

theorem rest_add {bytes : Bytes} {pos : Nat} {used later : List Bool}
    (h : (⟨bytes, pos, false⟩ : BitReader).rest = used ++ later) :
    (⟨bytes, pos + used.length, false⟩ : BitReader).rest = later := by
  unfold rest at h ⊢
  rw [← List.drop_drop, h, List.drop_left]

theorem Takes.bind {m : Reading α} {f : α → Reading β} {used more : List Bool} {a : α} {b : β}
    (h : Takes m used a) (hf : Takes (f a) more b) : Takes (m >>= f) (used ++ more) b := by
  intro bytes pos later hrest
  rw [List.append_assoc] at hrest
  show (m ⟨bytes, pos, false⟩).bind (fun p => f p.1 p.2) = _
  rw [h bytes pos (more ++ later) hrest, Option.bind_some,
    hf bytes (pos + used.length) later (rest_add hrest), List.length_append, Nat.add_assoc]

theorem Takes.pure (a : α) : Takes (Pure.pure a : Reading α) [] a := fun _ _ _ _ => rfl

theorem Takes.map {m : Reading α} {used : List Bool} {a : α} (h : Takes m used a) (f : α → β) :
    Takes (m >>= fun x => Pure.pure (f x)) used (f a) := by
  have hboth : Takes (m >>= fun x => Pure.pure (f x)) (used ++ []) (f a) :=
    h.bind (Takes.pure (f a))
  rw [List.append_nil] at hboth
  exact hboth

theorem bind_eq_some {m : Reading α} {f : α → Reading β} {r r' : BitReader} {b : β}
    (h : (m >>= f) r = some (b, r')) : ∃ a r₁, m r = some (a, r₁) ∧ f a r₁ = some (b, r') := by
  rcases Option.bind_eq_some_iff.mp (show (m r).bind (fun p => f p.1 p.2) = some (b, r') from h) with
    ⟨⟨a, r₁⟩, hm, hf⟩
  exact ⟨a, r₁, hm, hf⟩

theorem Local.bind {m : Reading α} {f : α → Reading β} (h : Local m) (hf : ∀ a, Local (f a)) :
    Local (m >>= f) := by
  intro r b r' hrun hok
  rcases bind_eq_some hrun with ⟨a, r₁, hm, hnext⟩
  rcases hf a r₁ b r' hnext hok with ⟨hok₁, more, later, hmore, rfl, htakes'⟩
  rcases h r a r₁ hm hok₁ with ⟨hok₀, used, after, hused, rfl, htakes⟩
  have hafter : (⟨r.bytes, r.pos + used.length, false⟩ : BitReader).rest = after := by
    apply rest_add
    exact hused
  rw [hafter] at hmore
  refine ⟨hok₀, used ++ more, later, ?_, ?_, htakes.bind htakes'⟩
  · rw [hused, hmore, List.append_assoc]
  · rw [List.length_append, Nat.add_assoc]

theorem Local.pure (a : α) : Local (Pure.pure a : Reading α) := by
  intro r b r' hrun hok
  rcases Option.some.inj hrun with ⟨rfl, rfl⟩
  refine ⟨hok, [], r.rest, rfl, ?_, Takes.pure a⟩
  rw [← hok]
  rfl

theorem Local.ite {p : Prop} [Decidable p] {m n : Reading α} (hm : Local m) (hn : Local n) :
    Local (if p then m else n) := by
  split
  · exact hm
  · exact hn

/-- A bit that is left is the one that is read. -/
theorem bit_of_lt {r : BitReader} (h : r.pos < r.bytes.length * 8) :
    ∃ b, bit r = some (b, { r with pos := r.pos + 1 }) ∧
      r.rest = b :: (bitsOf r.bytes).drop (r.pos + 1) := by
  have hbyte : r.pos / 8 < r.bytes.length := by omega
  have hbits : r.pos < (bitsOf r.bytes).length := by
    rw [length_bitsOf]
    omega
  refine ⟨(r.bytes.get ⟨r.pos / 8, hbyte⟩).toNat.testBit (7 - r.pos % 8), ?_, ?_⟩
  · unfold bit
    rw [dif_pos h]
  · have hplace := getElem?_bitsOf (List.getElem?_eq_getElem hbyte)
    rw [List.getElem?_eq_getElem hbits] at hplace
    unfold rest
    rw [List.drop_eq_getElem_cons hbits, Option.some.inj hplace]
    rfl

theorem takes_bit (b : Bool) : Takes bit [b] b := by
  intro bytes pos later hrest
  have hlt : pos < bytes.length * 8 := by
    by_contra hend
    have hnone : (bitsOf bytes).length ≤ pos := by
      rw [length_bitsOf]
      omega
    unfold rest at hrest
    rw [List.drop_eq_nil_of_le hnone] at hrest
    cases hrest
  rcases bit_of_lt (r := ⟨bytes, pos, false⟩) hlt with ⟨c, hbit, hcons⟩
  rw [hrest] at hcons
  rw [hbit, (List.cons.inj hcons).1]
  rfl

theorem local_bit : Local bit := by
  intro r b r' hrun hok
  by_cases hlt : r.pos < r.bytes.length * 8
  · rcases bit_of_lt hlt with ⟨c, hbit, hcons⟩
    rw [hbit] at hrun
    obtain ⟨rfl, rfl⟩ := Prod.mk.inj (Option.some.inj hrun)
    refine ⟨hok, [c], _, hcons, ?_, takes_bit c⟩
    rw [← hok]
    rfl
  · unfold bit at hrun
    rw [dif_neg hlt] at hrun
    rcases Option.some.inj hrun with ⟨rfl, rfl⟩
    cases hok

theorem local_uFrom (count v : Nat) : Local (uFrom count v) := by
  induction count generalizing v with
  | zero => exact Local.pure v
  | succ count ih => exact local_bit.bind (fun b => ih (2 * v + b.toNat))

theorem local_u (count : Nat) : Local (u count) := local_uFrom count 0

theorem local_overrunSet : Local overrunSet := by
  intro r o r' hrun hok
  obtain ⟨rfl, rfl⟩ := Prod.mk.inj (Option.some.inj hrun)
  refine ⟨hok, [], r.rest, rfl, ?_, ?_⟩
  · rw [← hok]
    rfl
  · intro bytes pos later _
    rw [hok]
    rfl

theorem local_setOverrun : Local setOverrun := by
  intro r a r' hrun hok
  rcases Option.some.inj hrun with ⟨-, rfl⟩
  cases hok

theorem local_ueZeros (left leading : Nat) : Local (ueZeros left leading) := by
  induction left generalizing leading with
  | zero =>
    rw [ueZeros]
    apply local_overrunSet.bind
    intro o
    apply (Local.pure _).ite
    apply local_bit.bind
    intro b
    apply (Local.pure _).ite
    apply local_setOverrun.bind
    intro _
    exact Local.pure none
  | succ left ih =>
    rw [ueZeros]
    apply local_overrunSet.bind
    intro o
    apply (Local.pure _).ite
    apply local_bit.bind
    intro b
    apply (Local.pure _).ite
    exact ih (leading + 1)

theorem local_ue : Local ue := by
  apply (local_ueZeros 31 0).bind
  intro zeros
  match zeros with
  | none => exact Local.pure 0
  | some 0 => exact Local.pure 0
  | some (leading + 1) =>
    apply (local_u (leading + 1)).bind
    intro v
    exact Local.pure _

theorem local_se : Local se := by
  apply local_ue.bind
  intro k
  exact Local.pure _

end Rules

/-! ## Codes -/

theorem takes_uFrom (bs : List Bool) (v : Nat) :
    Takes (uFrom bs.length v) bs (bs.foldl (fun n b => 2 * n + b.toNat) v) := by
  induction bs generalizing v with
  | nil => exact Takes.pure v
  | cons b bs ih => exact (takes_bit b).bind (ih (2 * v + b.toNat))

theorem takes_u (count v : Nat) : Takes (u count) (bits count v) (v % 2 ^ count) := by
  have h := takes_uFrom (bits count v) 0
  rw [length_bits] at h
  rw [← ofBits_bits]
  exact h

theorem uFrom_lt {count v : Nat} {r r' : BitReader} {a : Nat} (h : uFrom count v r = some (a, r')) :
    a < (v + 1) * 2 ^ count := by
  induction count generalizing v r with
  | zero =>
    obtain ⟨rfl, -⟩ := Prod.mk.inj (Option.some.inj h)
    omega
  | succ count ih =>
    rcases bind_eq_some h with ⟨b, r₁, -, hrest⟩
    have hlt := ih hrest
    have hbit := b.toNat_lt
    calc
      a < (2 * v + b.toNat + 1) * 2 ^ count := hlt
      _ ≤ (2 * (v + 1)) * 2 ^ count := Nat.mul_le_mul_right _ (by omega)
      _ = (v + 1) * 2 ^ (count + 1) := by rw [Nat.pow_succ]; ring

theorem ueZeros_le {left leading n : Nat} {r r' : BitReader}
    (h : ueZeros left leading r = some (some n, r')) : n ≤ leading + left := by
  induction left generalizing leading r with
  | zero =>
    rw [ueZeros] at h
    rcases bind_eq_some h with ⟨o, r₁, -, h⟩
    split at h
    · cases h
      omega
    rcases bind_eq_some h with ⟨b, r₂, -, h⟩
    split at h
    · cases h
      omega
    · cases h
  | succ left ih =>
    rw [ueZeros] at h
    rcases bind_eq_some h with ⟨o, r₁, -, h⟩
    split at h
    · cases h
      omega
    rcases bind_eq_some h with ⟨b, r₂, -, h⟩
    split at h
    · cases h
      omega
    · have hle := ih h
      omega

/-- A code stands for a number below `2 ^ 32 - 1`. -/
theorem ue_lt {r r' : BitReader} {v : Nat} (h : ue r = some (v, r')) : v + 1 < 2 ^ 32 := by
  rcases bind_eq_some h with ⟨zeros, r₁, hzeros, h⟩
  match zeros, hzeros with
  | none, _ =>
    cases h
    decide
  | some 0, _ =>
    cases h
    decide
  | some (leading + 1), hzeros =>
    have hle := ueZeros_le hzeros
    rcases bind_eq_some h with ⟨low, r₂, hlow, h⟩
    have hlt : low < 2 ^ (leading + 1) := by
      have := uFrom_lt hlow
      omega
    cases h
    have hpow : 2 ^ (leading + 1) ≤ 2 ^ 31 := Nat.pow_le_pow_right (by decide) (by omega)
    show (1 <<< (leading + 1) ||| low) - 1 + 1 < 2 ^ 32
    rw [← Nat.shiftLeft_add_eq_or_of_lt hlt, Nat.shiftLeft_eq]
    omega

theorem takes_ueZeros {left n : Nat} (h : n ≤ left) (leading : Nat) :
    Takes (ueZeros left leading) (List.replicate n false ++ [true]) (some (leading + n)) := by
  have hnone : Takes overrunSet [] false := fun _ _ _ _ => rfl
  induction n generalizing left leading with
  | zero =>
    cases left with
    | zero =>
      rw [ueZeros]
      exact hnone.bind ((takes_bit true).bind (Takes.pure (some leading)))
    | succ left =>
      rw [ueZeros]
      exact hnone.bind ((takes_bit true).bind (Takes.pure (some leading)))
  | succ n ih =>
    cases left with
    | zero => exact absurd h (Nat.not_succ_le_zero n)
    | succ left =>
      rw [ueZeros]
      have hrest := ih (Nat.le_of_succ_le_succ h) (leading + 1)
      rw [Nat.add_assoc, Nat.add_comm 1 n] at hrest
      exact hnone.bind ((takes_bit false).bind hrest)

/-- What `UE` writes is read back. -/
theorem takes_ue {v : Nat} (h : v + 1 < 2 ^ 32) : Takes ue (ueBits v) v := by
  have hsize : (v + 1).size ≤ 32 := Nat.size_le.mpr h
  have hpos : 0 < (v + 1).size := Nat.size_pos.mpr (Nat.succ_pos v)
  obtain ⟨leading, hleading⟩ : ∃ leading, (v + 1).size = leading + 1 :=
    ⟨(v + 1).size - 1, by omega⟩
  have hhigh : 2 ^ leading ≤ v + 1 := Nat.lt_size.mp (by omega)
  have hlow : v + 1 < 2 ^ (leading + 1) := by
    rw [← hleading]
    exact Nat.lt_size_self (v + 1)
  have hbits : ueBits v =
      (List.replicate leading false ++ [true]) ++ bits leading (v + 1) := by
    have htop : (v + 1).testBit leading = true :=
      Nat.testBit_of_two_pow_le_and_two_pow_add_one_gt hhigh hlow
    unfold ueBits
    rw [hleading, bits, htop, Nat.add_sub_cancel, List.append_assoc]
    rfl
  have hvalue : (v + 1) % 2 ^ leading = v + 1 - 2 ^ leading := by
    rw [Nat.pow_succ] at hlow
    rw [Nat.mod_eq_sub_mod hhigh, Nat.mod_eq_of_lt (by omega)]
  rw [hbits]
  have hzeros := takes_ueZeros (show leading ≤ 31 by omega) 0
  rw [Nat.zero_add] at hzeros
  apply hzeros.bind
  cases leading with
  | zero =>
    have hv : v = 0 := by omega
    subst hv
    exact Takes.pure 0
  | succ leading =>
    have hcode : (1 <<< (leading + 1) ||| (v + 1) % 2 ^ (leading + 1)) - 1 = v := by
      rw [← Nat.shiftLeft_add_eq_or_of_lt (Nat.mod_lt _ (Nat.two_pow_pos _)), Nat.shiftLeft_eq,
        hvalue]
      omega
    have hrest := (takes_u (leading + 1) (v + 1)).map (fun low => (1 <<< (leading + 1) ||| low) - 1)
    rw [hcode] at hrest
    exact hrest

/-- A reading that runs over where nothing is left takes a bit at least. -/
theorem used_ne_of_takes {α : Type} {m : Reading α} {used : List Bool} {a : α}
    (hempty : (m ⟨[], 0, false⟩).map (·.2.overrun) = some true) (h : Takes m used a) :
    used ≠ [] := by
  rintro rfl
  rw [h [] 0 [] rfl] at hempty
  cases hempty

theorem takes_flag (flag : Bool) : Takes (u 1) [flag] flag.toNat := by
  have h := takes_uFrom [flag] 0
  rw [List.foldl_cons, List.foldl_nil, Nat.mul_zero, Nat.zero_add] at h
  exact h

/-- A flag that is read without running over. -/
theorem flag_of_u {r r' : BitReader} {v : Nat} (h : u 1 r = some (v, r')) (hok : r'.overrun = false) :
    ∃ (flag : Bool) (later : List Bool), v = flag.toNat ∧ r.rest = flag :: later := by
  rcases bind_eq_some h with ⟨flag, r₁, hbit, hrest⟩
  obtain ⟨rfl, rfl⟩ := Prod.mk.inj (Option.some.inj hrest)
  by_cases hlt : r.pos < r.bytes.length * 8
  · rcases bit_of_lt hlt with ⟨b, hread, hcons⟩
    rw [hread] at hbit
    obtain ⟨rfl, -⟩ := Prod.mk.inj (Option.some.inj hbit)
    exact ⟨b, _, by omega, hcons⟩
  · unfold bit at hbit
    rw [dif_neg hlt] at hbit
    obtain ⟨-, rfl⟩ := Prod.mk.inj (Option.some.inj hbit)
    cases hok

end BitReader

end Deskhub
