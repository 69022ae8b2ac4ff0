import Deskhub.Lib.Json
import Deskhub.Lib.Utf8
import Deskhub.Text

/-!
# Strings in JSON

`JsonEscape`: what has to be escaped is, a character of UTF-8 is copied, and every other byte is
replaced.
-/

namespace Deskhub

open Utf8

namespace Cli

def kReplacement : Bytes := [0xEF, 0xBF, 0xBD]

def hexDigit (n : UInt8) : UInt8 := if n < 10 then 48 + n else 87 + n

/-- `AppendEscapedUnit`. -/
def escapedUnit (byte : UInt8) : Bytes :=
  ascii "\\u00" ++ [hexDigit ((byte >>> 4) &&& 0x0F), hexDigit (byte &&& 0x0F)]

def secondByteFits (lead second : UInt8) : Bool :=
  if lead = 0xE0 then 0xA0 ≤ second ∧ second ≤ 0xBF
  else if lead = 0xED then 0x80 ≤ second ∧ second ≤ 0x9F
  else if lead = 0xF0 then 0x90 ≤ second ∧ second ≤ 0xBF
  else if lead = 0xF4 then 0x80 ≤ second ∧ second ≤ 0x8F
  else 0x80 ≤ second ∧ second ≤ 0xBF

/-- `SequenceLength` at the front of what is left of the text. -/
def sequenceLength (text : Bytes) : Nat :=
  let lead := byteAt text 0
  if lead < 0x80 then 1
  else
    let length := 0
    let length := if 0xC2 ≤ lead ∧ lead ≤ 0xDF then 2 else length
    let length := if 0xE0 ≤ lead ∧ lead ≤ 0xEF then 3 else length
    let length := if 0xF0 ≤ lead ∧ lead ≤ 0xF4 then 4 else length
    if length = 0 ∨ text.length < length then 0
    else if !secondByteFits lead (byteAt text 1) then 0
    else if (List.range' 2 (length - 2)).any fun i => byteAt text i &&& 0xC0 ≠ 0x80 then 0
    else length

def jsonEscape : Bytes → Bytes
  | [] => []
  | byte :: rest =>
    if byte = 34 ∨ byte = 92 then 92 :: byte :: jsonEscape rest
    else if byte = 10 then ascii "\\n" ++ jsonEscape rest
    else if byte = 13 then ascii "\\r" ++ jsonEscape rest
    else if byte = 9 then ascii "\\t" ++ jsonEscape rest
    else if byte < 0x20 ∨ byte = 0x7F then escapedUnit byte ++ jsonEscape rest
    else
      let length := sequenceLength (byte :: rest)
      if length = 0 then kReplacement ++ jsonEscape rest
      else (byte :: rest).take length ++ jsonEscape (rest.drop (length - 1))
termination_by text => text.length
decreasing_by
  all_goals simp only [List.length_drop, List.length_cons]
  all_goals omega

/-! ## Characters -/

theorem tail_iff (b : UInt8) : b &&& 0xC0 = 0x80 ↔ Tail b := by
  have hall : ∀ n < 256, UInt8.ofNat n &&& 0xC0 = 0x80 ↔ Tail (UInt8.ofNat n) := by
    decide +kernel
  have hb := hall b.toNat b.toNat_lt
  rwa [UInt8.ofNat_toNat] at hb

/-- Which second bytes the characters of two, three and four bytes have. -/
theorem secondByteFits_two {a b : UInt8} (h : 0xC2 ≤ a ∧ a ≤ 0xDF) :
    secondByteFits a b = true ↔ Tail b := by
  simp only [UInt8.le_iff_toNat_le, UInt8.reduceToNat] at h
  unfold secondByteFits Tail
  simp only [UInt8.le_iff_toNat_le, ← UInt8.toNat_inj, UInt8.reduceToNat]
  rw [if_neg (by omega), if_neg (by omega), if_neg (by omega), if_neg (by omega)]
  exact decide_eq_true_iff

theorem secondByteFits_three {a b : UInt8} (h : 0xE0 ≤ a ∧ a ≤ 0xEF) :
    secondByteFits a b = true ↔
      (a = 0xE0 ∧ 0xA0 ≤ b ∧ b ≤ 0xBF) ∨ (0xE1 ≤ a ∧ a ≤ 0xEC ∧ Tail b) ∨
        (a = 0xED ∧ 0x80 ≤ b ∧ b ≤ 0x9F) ∨ (0xEE ≤ a ∧ a ≤ 0xEF ∧ Tail b) := by
  unfold secondByteFits Tail
  simp only [UInt8.le_iff_toNat_le, ← UInt8.toNat_inj, UInt8.reduceToNat] at *
  split
  · rw [decide_eq_true_iff]
    omega
  split
  · rw [decide_eq_true_iff]
    omega
  rw [if_neg (by omega), if_neg (by omega), decide_eq_true_iff]
  omega

theorem secondByteFits_four {a b : UInt8} (h : 0xF0 ≤ a ∧ a ≤ 0xF4) :
    secondByteFits a b = true ↔
      (a = 0xF0 ∧ 0x90 ≤ b ∧ b ≤ 0xBF) ∨ (0xF1 ≤ a ∧ a ≤ 0xF3 ∧ Tail b) ∨
        (a = 0xF4 ∧ 0x80 ≤ b ∧ b ≤ 0x8F) := by
  unfold secondByteFits Tail
  simp only [UInt8.le_iff_toNat_le, ← UInt8.toNat_inj, UInt8.reduceToNat] at *
  rw [if_neg (by omega), if_neg (by omega)]
  split
  · rw [decide_eq_true_iff]
    omega
  split
  · rw [decide_eq_true_iff]
    omega
  rw [decide_eq_true_iff]
  omega

/-- The length by the first byte, before the bytes behind it are looked at. -/
def leadClass (lead : UInt8) : Nat :=
  if 0xF0 ≤ lead ∧ lead ≤ 0xF4 then 4
  else if 0xE0 ≤ lead ∧ lead ≤ 0xEF then 3
  else if 0xC2 ≤ lead ∧ lead ≤ 0xDF then 2
  else 0

theorem sequenceLength_cons {a : UInt8} (ha : ¬ a < 0x80) (rest : Bytes) :
    sequenceLength (a :: rest) =
      if leadClass a = 0 ∨ (a :: rest).length < leadClass a then 0
      else if !secondByteFits a (byteAt (a :: rest) 1) then 0
      else if (List.range' 2 (leadClass a - 2)).any fun i => byteAt (a :: rest) i &&& 0xC0 ≠ 0x80
        then 0
      else leadClass a := by
  unfold sequenceLength leadClass
  exact if_neg ha

theorem leadClass_cases (a : UInt8) :
    (leadClass a = 0 ∧ ¬ (0xC2 ≤ a ∧ a ≤ 0xF4)) ∨
    (leadClass a = 2 ∧ leadLength a = 2 ∧ 0xC2 ≤ a ∧ a ≤ 0xDF) ∨
    (leadClass a = 3 ∧ leadLength a = 3 ∧ 0xE0 ≤ a ∧ a ≤ 0xEF) ∨
    (leadClass a = 4 ∧ leadLength a = 4 ∧ 0xF0 ≤ a ∧ a ≤ 0xF4) := by
  unfold leadClass leadLength
  simp only [UInt8.le_iff_toNat_le, UInt8.reduceToNat] at *
  split
  · right; right; right
    refine ⟨rfl, ?_, by assumption⟩
    rw [if_neg (by omega), if_neg (by omega), if_neg (by omega)]
  split
  · right; right; left
    refine ⟨rfl, ?_, by assumption⟩
    rw [if_neg (by omega), if_neg (by omega), if_pos (by omega)]
  split
  · right; left
    refine ⟨rfl, ?_, by assumption⟩
    rw [if_neg (by omega), if_pos (by omega)]
  · left
    exact ⟨rfl, by omega⟩

theorem lead_of_encodes {a : UInt8} {rest : Bytes} (h : Encodes (a :: rest)) (ha : ¬ a < 0x80) :
    0xC2 ≤ a ∧ a ≤ 0xF4 := by
  simp only [UInt8.le_iff_toNat_le, UInt8.lt_iff_toNat_lt, UInt8.reduceToNat] at *
  match rest, h with
  | [], h =>
    have hhigh : a.toNat ≤ 0x7F := UInt8.le_iff_toNat_le.mp h
    omega
  | [b], h =>
    have hlow : 0xC2 ≤ a.toNat := UInt8.le_iff_toNat_le.mp h.1
    have hhigh : a.toNat ≤ 0xDF := UInt8.le_iff_toNat_le.mp h.2.1
    omega
  | [b, c], h =>
    rcases h.1 with h | h | h | h
    all_goals simp only [UInt8.le_iff_toNat_le, ← UInt8.toNat_inj, UInt8.reduceToNat] at h
    all_goals omega
  | [b, c, d], h =>
    rcases h.1 with h | h | h
    all_goals simp only [UInt8.le_iff_toNat_le, ← UInt8.toNat_inj, UInt8.reduceToNat] at h
    all_goals omega

/-- `SequenceLength` finds the character at the front. -/
theorem frontLength_sequenceLength (a : UInt8) (rest : Bytes) :
    frontLength (a :: rest) =
      if sequenceLength (a :: rest) = 0 then none else some (sequenceLength (a :: rest)) := by
  -- where the length of the first byte is `k`, the code tests whether the `k` bytes encode
  have hcond : ∀ (k : Nat) (cond : Prop), k ≠ 0 → leadLength a = k →
      (cond → sequenceLength (a :: rest) = k) → (¬ cond → sequenceLength (a :: rest) = 0) →
      (cond ↔ k ≤ (a :: rest).length ∧ Encodes ((a :: rest).take k)) →
      frontLength (a :: rest) =
        if sequenceLength (a :: rest) = 0 then none else some (sequenceLength (a :: rest)) := by
    intro k cond hk hlead hyes hno hiff
    by_cases hcond : cond
    · rw [hyes hcond, if_neg hk]
      exact frontLength_eq_some (hiff.mp hcond).1 (hiff.mp hcond).2
    · rw [hno hcond, if_pos rfl]
      apply frontLength_eq_none
      intro n hn henc
      have hlen := length_take_of_encodes hn henc
      rw [List.head?_cons, Option.getD_some, hlead] at hlen
      rw [hlen] at hn henc
      exact hcond (hiff.mpr ⟨hn, henc⟩)
  by_cases ha : a < 0x80
  · have hlow : a.toNat < 0x80 := UInt8.lt_iff_toNat_lt.mp ha
    have henc : a ≤ 0x7F := UInt8.le_iff_toNat_le.mpr (Nat.le_of_lt_succ hlow)
    refine hcond 1 True (by decide) (if_pos (Nat.le_of_lt_succ hlow)) ?_ (fun h => absurd trivial h) ?_
    · intro _
      unfold sequenceLength
      exact if_pos ha
    · rw [true_iff]
      exact ⟨by simp, henc⟩
  have hlength := sequenceLength_cons ha rest
  rcases leadClass_cases a with ⟨hclass, hout⟩ | ⟨hclass, hlead, hrange⟩ | ⟨hclass, hlead, hrange⟩ |
    ⟨hclass, hlead, hrange⟩
  · have hzero : sequenceLength (a :: rest) = 0 := by
      rw [hlength]
      exact if_pos (Or.inl hclass)
    rw [hzero, if_pos rfl]
    apply frontLength_eq_none
    intro n hn henc
    cases n with
    | zero => exact henc
    | succ n => exact hout (lead_of_encodes henc ha)
  · rw [hclass] at hlength
    match rest, hcond, hlength with
    | [], hcond, hlength =>
      exact hcond 2 False (by decide) hlead False.elim (fun _ => hlength) (by simp)
    | b :: rest, hcond, hlength =>
      refine hcond 2 (secondByteFits a b = true) (by decide) hlead ?_ ?_ ?_
      · intro hfits
        rw [hlength]
        simp [byteAt, hfits]
      · intro hnot
        rw [hlength]
        simp [byteAt, hnot]
      · rw [secondByteFits_two hrange]
        simp [Encodes, hrange]
  · rw [hclass] at hlength
    match rest, hcond, hlength with
    | [], hcond, hlength =>
      exact hcond 3 False (by decide) hlead False.elim (fun _ => hlength) (by simp)
    | [b], hcond, hlength =>
      exact hcond 3 False (by decide) hlead False.elim (fun _ => hlength) (by simp)
    | b :: c :: rest, hcond, hlength =>
      refine hcond 3 (secondByteFits a b = true ∧ Tail c) (by decide) hlead ?_ ?_ ?_
      · rintro ⟨hfits, hc⟩
        rw [hlength]
        simp [byteAt, tail_iff, hfits, hc]
      · intro hnot
        rw [hlength]
        simpa [byteAt, tail_iff] using fun hfits hc => hnot ⟨hfits, hc⟩
      · rw [secondByteFits_three hrange]
        simp [Encodes]
  · rw [hclass] at hlength
    match rest, hcond, hlength with
    | [], hcond, hlength =>
      exact hcond 4 False (by decide) hlead False.elim (fun _ => hlength) (by simp)
    | [b], hcond, hlength =>
      exact hcond 4 False (by decide) hlead False.elim (fun _ => hlength) (by simp)
    | [b, c], hcond, hlength =>
      exact hcond 4 False (by decide) hlead False.elim (fun _ => hlength) (by simp)
    | b :: c :: d :: rest, hcond, hlength =>
      refine hcond 4 (secondByteFits a b = true ∧ Tail c ∧ Tail d) (by decide) hlead ?_ ?_ ?_
      · rintro ⟨hfits, hc, hd⟩
        rw [hlength]
        simp [byteAt, List.range', tail_iff, hfits, hc, hd]
      · intro hnot
        rw [hlength]
        simpa [byteAt, List.range', tail_iff] using fun hfits hc hd => hnot ⟨hfits, hc, hd⟩
      · rw [secondByteFits_four hrange]
        simp [Encodes]

/-! ## What the escaped text spells -/

/-- The byte as four hexadecimal digits. -/
theorem hexUnit_escaped {byte : UInt8} (h : byte < 0x80) :
    Json.hexUnit 48 48 (hexDigit ((byte >>> 4) &&& 0x0F)) (hexDigit (byte &&& 0x0F)) =
      some byte.toNat := by
  have hall : ∀ n < 0x80, Json.hexUnit 48 48 (hexDigit ((UInt8.ofNat n >>> 4) &&& 0x0F))
      (hexDigit (UInt8.ofNat n &&& 0x0F)) = some (UInt8.ofNat n).toNat := by
    decide +kernel
  have hbyte := hall byte.toNat (UInt8.lt_iff_toNat_lt.mp h)
  rwa [UInt8.ofNat_toNat] at hbyte

theorem spells_escapedUnit {byte : UInt8} (hbyte : byte < 0x80) {body s : Bytes}
    (h : Json.Spells body s) : Json.Spells (escapedUnit byte ++ body) (byte :: s) := by
  have hbytes : Json.unitBytes byte.toNat = some [byte] := by
    have hlow : byte.toNat < 0x80 := UInt8.lt_iff_toNat_lt.mp hbyte
    unfold Json.unitBytes
    rw [if_pos hlow, UInt8.ofNat_toNat]
  exact h.unit (hexUnit_escaped hbyte) hbytes

/-- The escaped text is well-formed, and it spells the text with every byte that belongs to no
character replaced. -/
theorem jsonEscape_spells (text : Bytes) :
    WellFormed (jsonEscape text) ∧ Json.Spells (jsonEscape text) (repair text) := by
  have hascii : ∀ front body : Bytes, (∀ b ∈ front, b ≤ 0x7F) → WellFormed body →
      WellFormed (front ++ body) :=
    fun front body hfront hbody => (wellFormed_of_ascii hfront).append hbody
  have hletter : ∀ (letter byte : UInt8) (rest : Bytes), letter ≤ 0x7F → byte ≤ 0x7F →
      letter ≠ 117 → Json.escaped letter = some byte →
      WellFormed (jsonEscape rest) ∧ Json.Spells (jsonEscape rest) (repair rest) →
      WellFormed (92 :: letter :: jsonEscape rest) ∧
        Json.Spells (92 :: letter :: jsonEscape rest) (repair (byte :: rest)) := by
    intro letter byte rest hlow hbyte hne hescaped ih
    constructor
    · refine hascii [92, letter] _ ?_ ih.1
      intro b hb
      simp only [List.mem_cons, List.not_mem_nil, or_false] at hb
      rcases hb with rfl | rfl
      · decide
      · exact hlow
    · rw [repair_cons_ascii hbyte]
      exact ih.2.letter hne hescaped
  fun_induction jsonEscape text with
  | case1 =>
    rw [repair_nil]
    exact ⟨.nil, Json.spells_nil⟩
  | case2 byte rest hquote ih =>
    have hlow : byte ≤ 0x7F := by
      rcases hquote with rfl | rfl
      · decide
      · decide
    refine hletter byte byte rest hlow hlow ?_ ?_ ih
    · rcases hquote with rfl | rfl
      · decide
      · decide
    · rcases hquote with rfl | rfl
      · rfl
      · rfl
  | case3 rest _ ih => exact hletter 110 10 rest (by decide) (by decide) (by decide) rfl ih
  | case4 rest _ _ ih => exact hletter 114 13 rest (by decide) (by decide) (by decide) rfl ih
  | case5 rest _ _ _ ih => exact hletter 116 9 rest (by decide) (by decide) (by decide) rfl ih
  | case6 byte rest _ _ _ _ hcontrol ih =>
    have hlow : byte < 0x80 := by
      rcases hcontrol with hlow | rfl
      · exact UInt8.lt_trans hlow (by decide)
      · decide
    have hle : byte ≤ 0x7F :=
      UInt8.le_iff_toNat_le.mpr (Nat.le_of_lt_succ (UInt8.lt_iff_toNat_lt.mp hlow))
    constructor
    · refine hascii _ _ ?_ ih.1
      have hall : ∀ n < 0x80,
          (escapedUnit (UInt8.ofNat n)).all (fun b => decide (b ≤ 0x7F)) = true := by
        decide +kernel
      have hbyte := hall byte.toNat (UInt8.lt_iff_toNat_lt.mp hlow)
      rw [UInt8.ofNat_toNat] at hbyte
      exact forall_of_all hbyte
    · rw [repair_cons_ascii hle]
      exact spells_escapedUnit hlow ih.2
  | case7 byte rest _ _ _ _ _ length hzero ih =>
    have hfront : frontLength (byte :: rest) = none := by
      rw [frontLength_sequenceLength]
      exact if_pos hzero
    rw [repair_cons_none hfront]
    exact ⟨wellFormed_replacement.append ih.1, ih.2.plain_append (forall_of_all (by decide))⟩
  | case8 byte rest hquote hfeed hreturn htab hcontrol length hsome ih =>
    have hfront : frontLength (byte :: rest) = some length := by
      rw [frontLength_sequenceLength]
      exact if_neg hsome
    have henc := encodes_of_frontLength hfront
    rw [repair_cons_some hfront]
    refine ⟨.cons henc ih.1, ih.2.plain_append ?_⟩
    intro c hc
    rcases bytes_of_encodes henc with ⟨a, htake, -⟩ | hhigh
    · have hfirst : (byte :: rest).take length = [byte] := by
        rcases Nat.exists_eq_succ_of_ne_zero hsome with ⟨n, hn⟩
        rw [hn, List.take_succ_cons] at htake ⊢
        rw [(List.cons.inj htake).2]
      rw [hfirst] at hc
      rw [List.mem_singleton.mp hc]
      rw [not_or] at hquote hcontrol
      exact ⟨hquote.1, hquote.2, hcontrol.1⟩
    · have hc80 := hhigh c hc
      refine ⟨?_, ?_, ?_⟩
      · rintro rfl
        exact absurd hc80 (by decide)
      · rintro rfl
        exact absurd hc80 (by decide)
      · intro hlow
        have hlt : c < c := UInt8.lt_of_lt_of_le hlow (UInt8.le_trans (by decide) hc80)
        exact UInt8.lt_irrefl c hlt

end Cli

end Deskhub
