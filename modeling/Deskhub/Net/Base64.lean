import Deskhub.Lib.BitStrings
import Deskhub.Text
import Mathlib.Tactic.IntervalCases

/-!
# Base64

`EncodeBase64` and `DecodeBase64`: bytes as symbols of six bits, in two alphabets, with
or without padding. Both sides regroup one string of bits.
-/

namespace Deskhub

open BitStrings

inductive Base64Alphabet where
  | standard | url
deriving DecidableEq, Repr

inductive Base64Padding where
  | none | equals
deriving DecidableEq, Repr

namespace Base64

def kStandardAlphabet : Bytes :=
  ascii "ABCDEFGHIJKLMNOPQRSTUVWXYZabcdefghijklmnopqrstuvwxyz0123456789+/"

def kUrlAlphabet : Bytes :=
  ascii "ABCDEFGHIJKLMNOPQRSTUVWXYZabcdefghijklmnopqrstuvwxyz0123456789-_"

def kBitsPerSymbol : Nat := 6
def kBitsPerByte : Nat := 8
def kSymbolsPerGroup : Nat := 4

def alphabetOf : Base64Alphabet → Bytes
  | .url => kUrlAlphabet
  | .standard => kStandardAlphabet

def symbolValue (symbol : UInt8) (alphabet : Bytes) : Option Nat := alphabet.idxOf? symbol

/-- How many `=` a text ends with, two at most. -/
def paddingLength (text : Bytes) : Nat :=
  if [61, 61] <:+ text then 2 else if [61] <:+ text then 1 else 0

/-- The symbol of a value. -/
def symbolOf (symbols : Bytes) (value : UInt32) : UInt8 := byteAt symbols value.toNat

/-- The inner loop of `EncodeBase64`; `fuel = count` is enough. -/
def drain (symbols : Bytes) (bits : UInt32) : Nat → Nat → Bytes × Nat
  | 0, count => ([], count)
  | fuel + 1, count =>
    if kBitsPerSymbol ≤ count then
      let count := count - kBitsPerSymbol
      let rest := drain symbols bits fuel count
      (symbolOf symbols ((bits >>> UInt32.ofNat count) &&& 63) :: rest.1, rest.2)
    else ([], count)

/-- `EncodeBase64` from a byte on, without the padding. -/
def encodeFrom (symbols : Bytes) : UInt32 → Nat → Bytes → Bytes
  | bits, count, [] =>
    if count ≠ 0 then
      [symbolOf symbols ((bits <<< UInt32.ofNat (kBitsPerSymbol - count)) &&& 63)]
    else []
  | bits, count, byte :: rest =>
    let bits := (bits <<< 8) ||| byte.toUInt32
    let drained := drain symbols bits (count + kBitsPerByte) (count + kBitsPerByte)
    drained.1 ++ encodeFrom symbols bits drained.2 rest

/-- The padding loop; three turns are enough. -/
def padEquals : Nat → Bytes → Bytes
  | 0, out => out
  | fuel + 1, out =>
    if out.length % kSymbolsPerGroup ≠ 0 then padEquals fuel (out ++ [61]) else out

/-- `DecodeBase64` from a symbol on: the bytes, and the bits left over. -/
def decodeFrom (symbols : Bytes) : UInt32 → Nat → Bytes → Option (Bytes × UInt32 × Nat)
  | bits, count, [] => some ([], bits, count)
  | bits, count, symbol :: rest =>
    match symbolValue symbol symbols with
    | none => none
    | some value =>
      let bits := (bits <<< 6) ||| UInt32.ofNat value
      let count := count + kBitsPerSymbol
      if kBitsPerByte ≤ count then
        let count := count - kBitsPerByte
        (decodeFrom symbols bits count rest).map fun tail =>
          (((bits >>> UInt32.ofNat count) &&& 0xff).toUInt8 :: tail.1, tail.2)
      else decodeFrom symbols bits count rest

end Base64

open Base64

def encodeBase64 (bytes : Bytes) (alphabet : Base64Alphabet) (padding : Base64Padding) : Bytes :=
  let out := encodeFrom (alphabetOf alphabet) 0 0 bytes
  if padding = .equals then padEquals 3 out else out

def decodeBase64 (text : Bytes) (alphabet : Base64Alphabet) : Option Bytes :=
  if text = [] ∨ text.length % kSymbolsPerGroup = 1 then none
  else
    let padding := paddingLength text
    if padding ≠ 0 ∧ text.length % kSymbolsPerGroup ≠ 0 then none
    else
      match decodeFrom (alphabetOf alphabet) 0 0 (text.take (text.length - padding)) with
      | none => none
      | some (out, bits, count) =>
        let leftoverBitsSet := count ≠ 0 ∧ bits &&& ((1 <<< UInt32.ofNat count) - 1) ≠ 0
        let paddingMismatch := (padding = 1 ∧ count ≠ 2) ∨ (padding = 2 ∧ count ≠ 4)
        if leftoverBitsSet ∨ paddingMismatch then none else some out

namespace Base64

/-! ## Symbols -/

/-- A symbol's value is the one it stands for. -/
theorem symbolValue_symbolOf (alphabet : Base64Alphabet) {v : Nat} (h : v < 64) :
    symbolValue (byteAt (alphabetOf alphabet) v) (alphabetOf alphabet) = some v := by
  have hall : ∀ v : Fin 64, symbolValue (byteAt (alphabetOf alphabet) v) (alphabetOf alphabet) =
      some v.val := by
    cases alphabet <;> decide +kernel
  exact hall ⟨v, h⟩

/-- A symbol is neither the padding nor a space or a control character. -/
theorem symbolOf_visible (alphabet : Base64Alphabet) {v : Nat} (h : v < 64) :
    byteAt (alphabetOf alphabet) v ≠ 61 ∧ 32 < (byteAt (alphabetOf alphabet) v).toNat := by
  have hall : ∀ v : Fin 64, byteAt (alphabetOf alphabet) v ≠ 61 ∧
      32 < (byteAt (alphabetOf alphabet) v).toNat := by
    cases alphabet <;> decide +kernel
  exact hall ⟨v, h⟩

/-! ## Bits -/

/-- Shifting in `k` bits. -/
theorem toNat_shiftLeft_or (bits y : UInt32) {k : Nat} (hk : k < 32) (hy : y.toNat < 2 ^ k) :
    ((bits <<< UInt32.ofNat k) ||| y).toNat = (bits.toNat * 2 ^ k + y.toNat) % 2 ^ 32 := by
  have hsplit : 2 ^ 32 = 2 ^ k * 2 ^ (32 - k) := by
    rw [← Nat.pow_add]
    congr 1
    omega
  have hshift : (bits <<< UInt32.ofNat k).toNat = 2 ^ k * (bits.toNat % 2 ^ (32 - k)) := by
    rw [UInt32.toNat_shiftLeft, UInt32.toNat_ofNat', show k % 2 ^ 32 % 32 = k by omega,
      Nat.shiftLeft_eq, hsplit, Nat.mul_comm, Nat.mul_mod_mul_left]
  rw [UInt32.toNat_or, hshift, or_eq_add_of_dvd (Nat.dvd_mul_right _ _) hy, hsplit, Nat.mod_mul,
    Nat.mul_add_mod', Nat.mod_eq_of_lt hy, Nat.add_comm (bits.toNat * 2 ^ k),
    Nat.add_mul_div_right _ _ (Nat.two_pow_pos k), Nat.div_eq_of_lt hy, Nat.zero_add, Nat.add_comm]

/-- `k` bits behind the bits so far. -/
theorem bits_shiftLeft_or (bits y : UInt32) (k count : Nat) (hk : k < 32) (hy : y.toNat < 2 ^ k)
    (hcount : count + k ≤ 32) :
    BitStrings.bits (count + k) ((bits <<< UInt32.ofNat k) ||| y).toNat =
      BitStrings.bits count bits.toNat ++ BitStrings.bits k y.toNat := by
  rw [toNat_shiftLeft_or bits y hk hy, bits_mod hcount, bits_push count bits.toNat hy]

/-- A byte behind the bits so far. -/
theorem bits_push_byte (bits : UInt32) (byte : UInt8) {count : Nat} (h : count ≤ 24) :
    BitStrings.bits (count + 8) ((bits <<< 8) ||| byte.toUInt32).toNat =
      BitStrings.bits count bits.toNat ++ BitStrings.bits 8 byte.toNat := by
  have hpush := bits_shiftLeft_or bits byte.toUInt32 8 count (by decide)
    (by rw [UInt8.toNat_toUInt32]; exact byte.toNat_lt) (by omega)
  rwa [UInt8.toNat_toUInt32] at hpush

theorem toNat_and_63 (x : UInt32) : (x &&& 63).toNat = x.toNat % 2 ^ 6 := by
  rw [UInt32.toNat_and]
  exact Nat.and_two_pow_sub_one_eq_mod x.toNat 6

/-- The symbols taken off the bits, and the bits that stay. -/
theorem drain_bits (symbols : Bytes) (bits : UInt32) (fuel : Nat) {count : Nat}
    (hfuel : count ≤ fuel) (hcount : count < 32) :
    ∃ vs : List Nat, (∀ v ∈ vs, v < 2 ^ 6) ∧
      (drain symbols bits fuel count).1 = vs.map (byteAt symbols) ∧
      (drain symbols bits fuel count).2 < 6 ∧
      joined 6 vs ++ BitStrings.bits (drain symbols bits fuel count).2 bits.toNat =
        BitStrings.bits count bits.toNat := by
  induction fuel generalizing count with
  | zero =>
    have hzero : count = 0 := by omega
    subst hzero
    refine ⟨[], ?_, rfl, ?_, rfl⟩
    · intro v hv
      exact absurd hv List.not_mem_nil
    · show 0 < 6
      decide
  | succ fuel ih =>
    rw [drain]
    unfold kBitsPerSymbol
    split
    · next hsix =>
      rcases @ih (count - 6) (by omega) (by omega) with ⟨vs, hlt, hsymbols, hleft, hbits⟩
      have hvalue : ((bits >>> UInt32.ofNat (count - 6)) &&& 63).toNat =
          (bits.toNat >>> (count - 6)) % 2 ^ 6 := by
        rw [toNat_and_63, UInt32.toNat_shiftRight, UInt32.toNat_ofNat',
          show (count - 6) % 2 ^ 32 % 32 = count - 6 by omega]
      refine ⟨(bits.toNat >>> (count - 6)) % 2 ^ 6 :: vs, ?_, ?_, hleft, ?_⟩
      · intro v hv
        rcases List.mem_cons.mp hv with hfirst | hrest
        · rw [hfirst]
          exact Nat.mod_lt _ (by decide)
        · exact hlt v hrest
      · dsimp only
        rw [hsymbols, List.map_cons, symbolOf, hvalue]
      · dsimp only
        rw [joined_cons, List.append_assoc, hbits, bits_mod (Nat.le_refl 6), ← bits_add,
          show 6 + (count - 6) = count by omega]
    · refine ⟨[], ?_, rfl, ?_, rfl⟩
      · intro v hv
        exact absurd hv List.not_mem_nil
      · dsimp only
        omega

/-- An encoding gives the bits so far and those of the bytes, filled up with zeros. -/
theorem encodeFrom_bits (symbols : Bytes) (bits : UInt32) {count : Nat} (hcount : count < 6)
    (bytes : Bytes) :
    ∃ (vs : List Nat) (z : Nat), (∀ v ∈ vs, v < 2 ^ 6) ∧ z < 6 ∧
      encodeFrom symbols bits count bytes = vs.map (byteAt symbols) ∧
      joined 6 vs = BitStrings.bits count bits.toNat ++ joined 8 (bytes.map UInt8.toNat) ++
        List.replicate z false := by
  induction bytes generalizing bits count with
  | nil =>
    rw [encodeFrom]
    unfold kBitsPerSymbol
    split
    · next hsome =>
      have hvalue : ((bits <<< UInt32.ofNat (6 - count)) &&& 63).toNat =
          bits.toNat <<< (6 - count) % 2 ^ 32 % 2 ^ 6 := by
        rw [toNat_and_63, UInt32.toNat_shiftLeft, UInt32.toNat_ofNat',
          show (6 - count) % 2 ^ 32 % 32 = 6 - count by omega]
      refine ⟨[bits.toNat <<< (6 - count) % 2 ^ 32 % 2 ^ 6], 6 - count, ?_, by omega, ?_, ?_⟩
      · intro v hv
        rw [List.mem_singleton.mp hv]
        exact Nat.mod_lt _ (by decide)
      · rw [symbolOf, hvalue]
        rfl
      · -- the count bits, then zeros
        show BitStrings.bits 6 _ ++ [] = BitStrings.bits count bits.toNat ++ [] ++ _
        rw [List.append_nil, List.append_nil, bits_mod (Nat.le_refl 6),
          bits_mod (show 6 ≤ 32 by decide)]
        have hsix : 6 = count + (6 - count) := by omega
        conv_lhs => rw [hsix]
        rw [bits_add, Nat.add_sub_cancel_left, Nat.shiftLeft_shiftRight]
        congr 1
        rw [← bits_mod (Nat.le_refl _), Nat.shiftLeft_eq, Nat.mul_mod_left, bits_zero]
    · next hnone =>
      have hzero : count = 0 := by omega
      subst hzero
      refine ⟨[], 0, ?_, by decide, rfl, rfl⟩
      intro v hv
      exact absurd hv List.not_mem_nil
  | cons byte rest ih =>
    rw [encodeFrom]
    unfold kBitsPerByte
    rcases drain_bits symbols ((bits <<< 8) ||| byte.toUInt32) (count + 8) (Nat.le_refl _)
      (by omega) with ⟨vs, hlt, hsymbols, hleft, hbits⟩
    rcases ih ((bits <<< 8) ||| byte.toUInt32) hleft with ⟨ws, z, hlt', hz, hsymbols', hbits'⟩
    refine ⟨vs ++ ws, z, ?_, hz, ?_, ?_⟩
    · intro v hv
      rcases List.mem_append.mp hv with hfirst | hrest
      · exact hlt v hfirst
      · exact hlt' v hrest
    · rw [hsymbols, hsymbols', List.map_append]
    · rw [joined_append, hbits', ← List.append_assoc, ← List.append_assoc, hbits,
        bits_push_byte bits byte (by omega), List.map_cons, joined_cons, ← List.append_assoc]

/-- A symbol behind the bits so far. -/
theorem bits_push_symbol (bits : UInt32) {v : Nat} (count : Nat) (hv : v < 2 ^ 6) (h : count ≤ 26) :
    BitStrings.bits (count + 6) ((bits <<< 6) ||| UInt32.ofNat v).toNat =
      BitStrings.bits count bits.toNat ++ BitStrings.bits 6 v := by
  have hvalue : (UInt32.ofNat v).toNat = v := by
    rw [UInt32.toNat_ofNat']
    omega
  have hpush := bits_shiftLeft_or bits (UInt32.ofNat v) 6 count (by decide)
    (by rw [hvalue]; exact hv) (by omega)
  rwa [hvalue] at hpush

/-- Decoding symbols gives their bits back as bytes, and the bits left over. -/
theorem decodeFrom_bits (alphabet : Base64Alphabet) (bits : UInt32) {count : Nat} (hcount : count < 8)
    {vs : List Nat} (hvs : ∀ v ∈ vs, v < 2 ^ 6) :
    ∃ out left leftCount, decodeFrom (alphabetOf alphabet) bits count
        (vs.map (byteAt (alphabetOf alphabet))) = some (out, left, leftCount) ∧ leftCount < 8 ∧
      BitStrings.bits count bits.toNat ++ joined 6 vs =
        joined 8 (out.map UInt8.toNat) ++ BitStrings.bits leftCount left.toNat := by
  induction vs generalizing bits count with
  | nil => exact ⟨[], bits, count, rfl, hcount, List.append_nil _⟩
  | cons v vs ih =>
    have hv := hvs v List.mem_cons_self
    have hrest : ∀ w ∈ vs, w < 2 ^ 6 := fun w hw => hvs w (List.mem_cons_of_mem v hw)
    have hpush := bits_push_symbol bits count hv (by omega)
    rw [List.map_cons, decodeFrom, symbolValue_symbolOf alphabet hv]
    dsimp only
    unfold kBitsPerSymbol kBitsPerByte
    split
    · next hbyte =>
      rcases @ih ((bits <<< 6) ||| UInt32.ofNat v) (count + 6 - 8) (by omega) hrest with
        ⟨out, left, leftCount, hdecode, hlt, hbits⟩
      rw [hdecode]
      refine ⟨_, left, leftCount, rfl, hlt, ?_⟩
      -- the byte taken off is the first eight of the bits
      have htake : ((((bits <<< 6) ||| UInt32.ofNat v) >>> UInt32.ofNat (count + 6 - 8)) &&&
          0xff).toUInt8.toNat =
          (((bits <<< 6) ||| UInt32.ofNat v).toNat >>> (count + 6 - 8)) % 2 ^ 8 := by
        rw [UInt32.toNat_toUInt8, UInt32.toNat_and, UInt32.toNat_shiftRight, UInt32.toNat_ofNat',
          show (count + 6 - 8) % 2 ^ 32 % 32 = count + 6 - 8 by omega]
        show (_ &&& (2 ^ 8 - 1)) % 2 ^ 8 = _
        rw [Nat.and_two_pow_sub_one_eq_mod, Nat.mod_mod]
      have hsplit : 8 + (count + 6 - 8) = count + 6 := by omega
      rw [List.map_cons, htake, joined_cons, joined_cons, bits_mod (Nat.le_refl 8),
        List.append_assoc, ← hbits, ← List.append_assoc, ← hpush, ← List.append_assoc,
        ← bits_add, hsplit]
    · next hbyte =>
      rcases @ih ((bits <<< 6) ||| UInt32.ofNat v) (count + 6) (by omega) hrest with
        ⟨out, left, leftCount, hdecode, hlt, hbits⟩
      refine ⟨out, left, leftCount, hdecode, hlt, ?_⟩
      rw [← hbits, hpush, joined_cons, List.append_assoc]

/-- What an encoding without padding consists of, and how long it is. -/
theorem encodeBase64_none (bytes : Bytes) (alphabet : Base64Alphabet) :
    (∀ c ∈ encodeBase64 bytes alphabet .none, 32 < c.toNat) ∧
      8 * bytes.length ≤ 6 * (encodeBase64 bytes alphabet .none).length ∧
      6 * (encodeBase64 bytes alphabet .none).length < 8 * bytes.length + 6 := by
  rcases @encodeFrom_bits (alphabetOf alphabet) 0 0 (by decide) bytes with
    ⟨vs, z, hvs, hz, hencode, hbits⟩
  have htext : encodeBase64 bytes alphabet .none = vs.map (byteAt (alphabetOf alphabet)) := hencode
  have hlen := congrArg List.length hbits
  simp only [List.length_append, length_joined, List.length_map, List.length_replicate,
    length_bits] at hlen
  rw [htext]
  constructor
  · intro c hc
    rcases List.mem_map.mp hc with ⟨v, hv, rfl⟩
    exact (symbolOf_visible alphabet (hvs v hv)).2
  · rw [List.length_map]
    constructor
    · omega
    · omega

/-- No symbol is a padding sign. -/
theorem encodeBase64_none_ne {bytes : Bytes} {alphabet : Base64Alphabet} :
    ∀ c ∈ encodeBase64 bytes alphabet .none, c ≠ 61 := by
  rcases @encodeFrom_bits (alphabetOf alphabet) 0 0 (by decide) bytes with ⟨vs, z, hvs, -, hencode, -⟩
  have htext : encodeBase64 bytes alphabet .none = vs.map (byteAt (alphabetOf alphabet)) := hencode
  rw [htext]
  intro c hc
  rcases List.mem_map.mp hc with ⟨v, hv, rfl⟩
  exact (symbolOf_visible alphabet (hvs v hv)).1

/-! ## Padding -/

/-- How many `=` fill the last group. -/
def padCount (n : Nat) : Nat := (4 - n % 4) % 4

theorem padEquals_eq (out : Bytes) :
    padEquals 3 out = out ++ List.replicate (padCount out.length) 61 := by
  have hturn : ∀ fuel out, padEquals (fuel + 1) out =
      if out.length % 4 ≠ 0 then padEquals fuel (out ++ [61]) else out := fun _ _ => rfl
  have hzero : ∀ out, padEquals 0 out = out := fun _ => rfl
  unfold padCount
  by_cases h0 : out.length % 4 = 0
  · rw [hturn, if_neg (not_not.mpr h0), h0]
    exact (List.append_nil out).symm
  · rw [hturn, if_pos h0, hturn, List.length_append, List.length_singleton]
    by_cases h3 : out.length % 4 = 3
    · rw [if_neg (by omega), h3]
      rfl
    · rw [if_pos (by omega), hturn, List.length_append, List.length_append, List.length_singleton]
      by_cases h2 : out.length % 4 = 2
      · rw [if_neg (by omega), h2, List.append_assoc]
        rfl
      · rw [if_pos (by omega), hzero, show out.length % 4 = 1 by omega, List.append_assoc,
          List.append_assoc]
        rfl

/-- Padded text has no blanks either, and is not much longer than the bytes. -/
theorem encodeBase64_equals (bytes : Bytes) (alphabet : Base64Alphabet) :
    (∀ c ∈ encodeBase64 bytes alphabet .equals, 32 < c.toNat) ∧
      (encodeBase64 bytes alphabet .equals).length ≤ 2 * bytes.length + 4 := by
  rcases encodeBase64_none bytes alphabet with ⟨hvisible, -, hlength⟩
  have htext : encodeBase64 bytes alphabet .equals =
      encodeBase64 bytes alphabet .none ++
        List.replicate (padCount (encodeBase64 bytes alphabet .none).length) 61 := padEquals_eq _
  have hpad : padCount (encodeBase64 bytes alphabet .none).length < 4 := Nat.mod_lt _ (by decide)
  rw [htext]
  constructor
  · intro c hc
    rcases List.mem_append.mp hc with hsymbol | hequals
    · exact hvisible c hsymbol
    · rw [List.eq_of_mem_replicate hequals]
      decide
  · rw [List.length_append, List.length_replicate]
    omega

/-- A text of symbols behind which `=` stand ends with exactly those. -/
theorem paddingLength_append {text : Bytes} (h : ∀ c ∈ text, c ≠ 61) {k : Nat} (hk : k ≤ 2) :
    paddingLength (text ++ List.replicate k 61) = k := by
  have hlast : ∀ front : Bytes, ¬ front ++ [61] = text := by
    rintro front rfl
    exact h 61 (List.mem_append_right _ (List.mem_singleton_self 61)) rfl
  unfold paddingLength
  match k, hk with
  | 0, _ =>
    have hone : ¬ [61] <:+ text ++ List.replicate 0 61 := by
      rintro ⟨front, heq⟩
      exact hlast front (by simpa using heq)
    have htwo : ¬ [61, 61] <:+ text ++ List.replicate 0 61 := by
      rintro ⟨front, heq⟩
      exact hone ⟨front ++ [61], by rw [← heq, List.append_assoc]; rfl⟩
    rw [if_neg htwo, if_neg hone]
  | 1, _ =>
    have htwo : ¬ [61, 61] <:+ text ++ List.replicate 1 61 := by
      rintro ⟨front, heq⟩
      have heq' : (front ++ [61]) ++ [61] = text ++ [61] := by
        rw [List.append_assoc]
        exact heq
      exact hlast front (List.append_cancel_right heq')
    rw [if_neg htwo, if_pos (by exact List.suffix_append text [61])]
  | 2, _ => rw [if_pos (by exact List.suffix_append text [61, 61])]

end Base64

/-- What was encoded, with or without padding, is decoded again. -/
theorem decodeBase64_encodeBase64 {bytes : Bytes} (hne : bytes ≠ []) (alphabet : Base64Alphabet)
    (padding : Base64Padding) :
    decodeBase64 (encodeBase64 bytes alphabet padding) alphabet = some bytes := by
  rcases @encodeFrom_bits (alphabetOf alphabet) 0 0 (by decide) bytes with
    ⟨vs, z, hvs, hz, hencode, hbits⟩
  rcases @decodeFrom_bits alphabet 0 0 (by decide) vs hvs with
    ⟨out, left, leftCount, hdecode, hleft, hback⟩
  have hzero : BitStrings.bits 0 (0 : UInt32).toNat = [] := rfl
  rw [hzero, List.nil_append] at hbits hback
  -- the two splits of the bits are the same
  have hlen := congrArg List.length (hbits.symm.trans hback)
  have hvsLen := congrArg List.length hbits
  simp only [List.length_append, length_joined, List.length_map, List.length_replicate,
    length_bits] at hlen hvsLen
  have hpos : 0 < bytes.length := List.length_pos_iff.mpr hne
  have hsame : out.length = bytes.length ∧ leftCount = z := by omega
  rcases List.append_inj (hbits.symm.trans hback) (by
    rw [length_joined, length_joined, List.length_map, List.length_map, hsame.1]) with
    ⟨hbytes, hrest⟩
  have hout : out = bytes := by
    have hlt : ∀ xs : Bytes, ∀ v ∈ xs.map UInt8.toNat, v < 2 ^ 8 := by
      intro xs v hv
      rcases List.mem_map.mp hv with ⟨x, -, rfl⟩
      exact x.toNat_lt
    have hnat := joined_inj (by decide) (hlt bytes) (hlt out) hbytes
    exact (List.map_injective_iff.mpr fun a b h => UInt8.toNat_inj.mp h) hnat.symm
  have hclear : left &&& ((1 <<< UInt32.ofNat leftCount) - 1) = 0 := by
    have hzeros : BitStrings.bits leftCount left.toNat = BitStrings.bits leftCount 0 := by
      rw [← hrest, bits_zero, hsame.2]
    have hmod := mod_eq_of_bits hzeros
    have hmask : ((1 <<< UInt32.ofNat leftCount) - 1 : UInt32).toNat = 2 ^ leftCount - 1 := by
      interval_cases leftCount <;> rfl
    apply UInt32.toNat_inj.mp
    rw [UInt32.toNat_and, hmask, Nat.and_two_pow_sub_one_eq_mod, hmod, Nat.zero_mod]
    rfl
  -- the text is the symbols, then what fills the last group
  obtain ⟨k, hk, hkcount, htext⟩ : ∃ k ≤ 2, (k = 0 ∨ k = padCount vs.length) ∧
      encodeBase64 bytes alphabet padding =
        vs.map (byteAt (alphabetOf alphabet)) ++ List.replicate k 61 := by
    unfold encodeBase64
    dsimp only
    rw [hencode]
    split
    · refine ⟨padCount vs.length, ?_, .inr rfl, ?_⟩
      · unfold padCount
        omega
      · rw [padEquals_eq, List.length_map]
    · exact ⟨0, by decide, .inl rfl, (List.append_nil _).symm⟩
  have hsymbols : ∀ c ∈ vs.map (byteAt (alphabetOf alphabet)), c ≠ 61 := by
    intro c hc
    rcases List.mem_map.mp hc with ⟨v, hv, rfl⟩
    exact (symbolOf_visible alphabet (hvs v hv)).1
  have hlength : (vs.map (byteAt (alphabetOf alphabet)) ++ List.replicate k (61 : UInt8)).length =
      vs.length + k := by
    rw [List.length_append, List.length_map, List.length_replicate]
  have hfront : (vs.map (byteAt (alphabetOf alphabet)) ++ List.replicate k (61 : UInt8)).take
      (vs.length + k - k) = vs.map (byteAt (alphabetOf alphabet)) := by
    rw [Nat.add_sub_cancel]
    exact List.take_left' (List.length_map _)
  unfold padCount at hkcount
  rw [htext]
  unfold decodeBase64 kSymbolsPerGroup
  dsimp only
  rw [paddingLength_append hsymbols hk, hlength, hfront, hdecode]
  rw [if_neg, if_neg (by omega)]
  · dsimp only
    rw [if_neg, hout]
    rintro (hleftover | hmismatch)
    · exact hleftover.2 hclear
    · omega
  · rintro (hempty | hone)
    · have := congrArg List.length hempty
      rw [hlength, List.length_nil] at this
      omega
    · omega

end Deskhub

/-!
## Base64 is decoded strictly

`DecodeBase64` accepts what `EncodeBase64` writes, with or without padding, and nothing else: the
symbols of an accepted text and those of the encoding give the same bits.
-/

namespace Deskhub

open BitStrings

namespace Base64

/-- A symbol with a value is the one that stands for it. -/
theorem byteAt_symbolValue {alphabet : Base64Alphabet} {symbol : UInt8} {v : Nat}
    (h : symbolValue symbol (alphabetOf alphabet) = some v) :
    v < 2 ^ 6 ∧ byteAt (alphabetOf alphabet) v = symbol := by
  have hlength : (alphabetOf alphabet).length = 64 := by cases alphabet <;> decide
  rcases List.findIdx?_eq_some_iff_getElem.mp h with ⟨hlt, hsymbol, -⟩
  constructor
  · omega
  · unfold byteAt
    rw [List.getD_eq_getElem _ _ hlt]
    exact eq_of_beq hsymbol

/-- What is decoded consists of symbols. -/
theorem symbols_of_decodeFrom {alphabet : Base64Alphabet} {text : Bytes} {bits : UInt32}
    {count : Nat} {r : Bytes × UInt32 × Nat}
    (h : decodeFrom (alphabetOf alphabet) bits count text = some r) :
    ∃ vs : List Nat, (∀ v ∈ vs, v < 2 ^ 6) ∧ text = vs.map (byteAt (alphabetOf alphabet)) := by
  induction text generalizing bits count r with
  | nil =>
    refine ⟨[], ?_, rfl⟩
    intro v hv
    exact absurd hv List.not_mem_nil
  | cons symbol rest ih =>
    rw [decodeFrom] at h
    cases hvalue : symbolValue symbol (alphabetOf alphabet) with
    | none =>
      rw [hvalue] at h
      cases h
    | some v =>
      rcases byteAt_symbolValue hvalue with ⟨hv, hsymbol⟩
      -- whether or not a byte is complete, the rest is decoded
      have hrest : ∃ bits' count' r', decodeFrom (alphabetOf alphabet) bits' count' rest = some r' := by
        rw [hvalue] at h
        dsimp only at h
        split at h
        · rcases Option.map_eq_some_iff.mp h with ⟨tail, htail, -⟩
          exact ⟨_, _, tail, htail⟩
        · exact ⟨_, _, r, h⟩
      rcases hrest with ⟨bits', count', r', hrest⟩
      rcases ih hrest with ⟨vs, hvs, hmap⟩
      refine ⟨v :: vs, ?_, ?_⟩
      · intro u hu
        rcases List.mem_cons.mp hu with hfirst | htail
        · rw [hfirst]
          exact hv
        · exact hvs u htail
      · rw [List.map_cons, hsymbol, hmap]

/-- What was decoded: symbols with the bits of the bytes, then the bits left over. -/
theorem decodeFrom_spec {alphabet : Base64Alphabet} {text out : Bytes} {left : UInt32}
    {leftCount : Nat}
    (h : decodeFrom (alphabetOf alphabet) 0 0 text = some (out, left, leftCount)) :
    ∃ vs : List Nat, (∀ v ∈ vs, v < 2 ^ 6) ∧ text = vs.map (byteAt (alphabetOf alphabet)) ∧
      leftCount < 8 ∧
      joined 6 vs = joined 8 (out.map UInt8.toNat) ++ BitStrings.bits leftCount left.toNat := by
  rcases symbols_of_decodeFrom h with ⟨vs, hvs, rfl⟩
  rcases @decodeFrom_bits alphabet 0 0 (by decide) vs hvs with
    ⟨out', left', leftCount', hdecode, hlt, hback⟩
  rcases Option.some.inj (h.symm.trans hdecode) with ⟨rfl, rfl, rfl⟩
  exact ⟨vs, hvs, rfl, hlt, hback⟩

/-- When the bits left over are zeros and fewer than a symbol has, the symbols are those of the
encoding of the bytes. -/
theorem eq_encodeBase64_none (alphabet : Base64Alphabet) {vs : List Nat} {out : Bytes}
    {leftCount : Nat} (hvs : ∀ v ∈ vs, v < 2 ^ 6) (hcount : leftCount < 6)
    (hbits : joined 6 vs = joined 8 (out.map UInt8.toNat) ++ List.replicate leftCount false) :
    vs.map (byteAt (alphabetOf alphabet)) = encodeBase64 out alphabet .none := by
  rcases @encodeFrom_bits (alphabetOf alphabet) 0 0 (by decide) out with
    ⟨ws, z, hws, hz, hencode, hfilled⟩
  have hzero : BitStrings.bits 0 (0 : UInt32).toNat = [] := rfl
  rw [hzero, List.nil_append] at hfilled
  have hlen := congrArg List.length hbits
  have hlen' := congrArg List.length hfilled
  simp only [List.length_append, length_joined, List.length_map, List.length_replicate] at hlen hlen'
  have hfill : z = leftCount := by omega
  have hsame : vs = ws := joined_inj (by decide) hvs hws (by rw [hbits, hfilled, hfill])
  rw [hsame]
  exact hencode.symm

/-- A text ends with as many `=` as it is said to. -/
theorem paddingLength_cases (text : Bytes) :
    paddingLength text ≤ 2 ∧ ∃ front, text = front ++ List.replicate (paddingLength text) 61 := by
  unfold paddingLength
  split
  · next htwo =>
    rcases htwo with ⟨front, heq⟩
    exact ⟨Nat.le_refl 2, front, heq.symm⟩
  · split
    · next hone =>
      rcases hone with ⟨front, heq⟩
      exact ⟨Nat.le_succ 1, front, heq.symm⟩
    · exact ⟨Nat.zero_le 2, text, (List.append_nil text).symm⟩

/-- The bits of the mask are the lowest ones. -/
theorem bits_of_mask {left : UInt32} {count : Nat} (hcount : count < 8)
    (h : left &&& ((1 <<< UInt32.ofNat count) - 1) = 0) :
    BitStrings.bits count left.toNat = List.replicate count false := by
  have hmask : ((1 <<< UInt32.ofNat count) - 1 : UInt32).toNat = 2 ^ count - 1 := by
    interval_cases count <;> rfl
  have hmod : left.toNat % 2 ^ count = 0 := by
    rw [← Nat.and_two_pow_sub_one_eq_mod, ← hmask, ← UInt32.toNat_and, h]
    rfl
  rw [← bits_mod (Nat.le_refl count), hmod, bits_zero]

end Base64

open Base64

/-- What is decoded was encoded so, with or without padding. -/
theorem encodeBase64_of_decodeBase64 {text bytes : Bytes} {alphabet : Base64Alphabet}
    (h : decodeBase64 text alphabet = some bytes) :
    text ≠ [] ∧ ∃ padding, text = encodeBase64 bytes alphabet padding := by
  rcases paddingLength_cases text with ⟨hmost, front, hfront⟩
  have hlength : text.length = front.length + paddingLength text := by
    conv_lhs => rw [hfront]
    rw [List.length_append, List.length_replicate]
  have htake : text.take (text.length - paddingLength text) = front := by
    rw [hlength, Nat.add_sub_cancel]
    conv_lhs => rw [hfront]
    exact List.take_left' rfl
  unfold decodeBase64 kSymbolsPerGroup at h
  dsimp only at h
  rw [htake] at h
  by_cases hempty : text = [] ∨ text.length % 4 = 1
  · rw [if_pos hempty] at h
    cases h
  rw [if_neg hempty] at h
  by_cases hgroups : paddingLength text ≠ 0 ∧ text.length % 4 ≠ 0
  · rw [if_pos hgroups] at h
    cases h
  rw [if_neg hgroups] at h
  rw [not_or] at hempty
  cases hdecode : decodeFrom (alphabetOf alphabet) 0 0 front with
  | none =>
    rw [hdecode] at h
    cases h
  | some r =>
    rcases r with ⟨out, left, leftCount⟩
    rw [hdecode] at h
    dsimp only at h
    split at h
    · cases h
    next hstrict =>
    rcases Option.some.inj h with rfl
    rw [not_or] at hstrict
    rcases decodeFrom_spec hdecode with ⟨vs, hvs, rfl, hlt, hbits⟩
    have hlen := congrArg List.length hbits
    rw [List.length_append, length_joined, length_joined, List.length_map, length_bits] at hlen
    rw [List.length_map] at hlength
    -- a text with one symbol more than whole groups was refused, so no symbol is left over
    have hcount : leftCount < 6 := by omega
    have hclear : leftCount = 0 ∨ left &&& ((1 <<< UInt32.ofNat leftCount) - 1) = 0 := by
      by_cases hzero : leftCount = 0
      · exact .inl hzero
      · exact .inr (not_not.mp fun hset => hstrict.1 ⟨hzero, hset⟩)
    have hzeros : BitStrings.bits leftCount left.toNat = List.replicate leftCount false := by
      rcases hclear with rfl | hmask
      · rfl
      · exact bits_of_mask hlt hmask
    have hplain := eq_encodeBase64_none alphabet hvs hcount (by rw [hbits, hzeros])
    refine ⟨hempty.1, ?_⟩
    rw [hfront, hplain]
    by_cases hbare : paddingLength text = 0
    · refine ⟨.none, ?_⟩
      rw [hbare]
      exact List.append_nil _
    · -- the `=` are those that fill the last group
      refine ⟨.equals, ?_⟩
      have hpad : padCount (encodeBase64 out alphabet .none).length = paddingLength text := by
        rw [← hplain, List.length_map]
        unfold padCount
        omega
      rw [← hpad]
      exact (padEquals_eq _).symm

/-- Decoding is the strict inverse of encoding. -/
theorem decodeBase64_iff (text bytes : Bytes) (alphabet : Base64Alphabet) :
    decodeBase64 text alphabet = some bytes ↔
      text ≠ [] ∧ ∃ padding, text = encodeBase64 bytes alphabet padding := by
  constructor
  · exact encodeBase64_of_decodeBase64
  · rintro ⟨hne, padding, rfl⟩
    apply decodeBase64_encodeBase64
    -- no bytes give the empty text
    rintro rfl
    apply hne
    cases padding <;> rfl

end Deskhub
