import Deskhub.Text
import Mathlib.Data.Int.Cast.Basic
import Mathlib.Data.List.DropRight

/-!
# Text records

What the files of the program have in common: the lines a text is read in, and the
times written in them.
-/

namespace Deskhub

/-- A time in seconds, an `int64_t` of the source. -/
abbrev UnixTime := Int64

/-- The characters `Trim` drops: space, tab, carriage return and line feed. -/
def isBlank (c : UInt8) : Bool := c = 32 ∨ c = 9 ∨ c = 13 ∨ c = 10

def trim (s : Bytes) : Bytes := (s.dropWhile isBlank).rdropWhile isBlank

/-- The loop of `SanitizeText` over what is left of the text, with what it kept so far. -/
def sanitizeFrom (maxBytes : Nat) : Bytes → Bytes → Bytes
  | out, [] => out
  | out, c :: rest =>
    let out := if 0x20 ≤ c ∧ c ≠ 0x7F then out ++ [c] else out
    if out.length = maxBytes then out else sanitizeFrom maxBytes out rest

def sanitizeText (text : Bytes) (maxBytes : Nat) : Bytes := trim (sanitizeFrom maxBytes [] text)

/-- The pieces between the line feeds; a last piece without one counts if it is not
empty. -/
def splitLines : Bytes → List Bytes
  | [] => []
  | c :: rest =>
    if c = 10 then [] :: splitLines rest
    else
      match splitLines rest with
      | [] => [[c]]
      | line :: lines => (c :: line) :: lines

/-- A line without the carriage return at its end. -/
def dropCarriageReturn (line : Bytes) : Bytes :=
  if line.getLast? = some 13 then line.dropLast else line

/-- The text in front of the first `c`, and the text behind it. -/
def cutAt (c : UInt8) (text : Bytes) : Option (Bytes × Bytes) :=
  (text.idxOf? c).map fun i => (text.take i, text.drop (i + 1))

/-- `std::to_string` of a time. -/
def timeText (t : UnixTime) : Bytes :=
  if t.toInt < 0 then 45 :: decimal t.toInt.natAbs else decimal t.toInt.natAbs

/-- The loop of `ParseUnixTime` with the digits read so far. -/
def unixTimeFrom : Nat → Bytes → Option Nat
  | v, [] => some v
  | v, c :: rest =>
    if c < 48 ∨ 57 < c then none
    else
      let digit := c.toNat - 48
      if (2 ^ 63 - 1 - digit) / 10 < v then none else unixTimeFrom (v * 10 + digit) rest

def parseUnixTime (s : Bytes) : Option UnixTime :=
  if s = [] ∨ 19 < s.length then none else (unixTimeFrom 0 s).map Int64.ofNat

/-! ## Trimmed text -/

/-- Nothing to trim: neither end is blank. -/
def Trimmed (s : Bytes) : Prop :=
  (∀ c, s.head? = some c → isBlank c = false) ∧ ∀ c, s.getLast? = some c → isBlank c = false

theorem trim_of_trimmed {s : Bytes} (h : Trimmed s) : trim s = s := by
  have hfront : s.dropWhile isBlank = s := by
    cases s with
    | nil => rfl
    | cons c rest => rw [List.dropWhile_cons_of_neg (by rw [h.1 c rfl]; exact Bool.false_ne_true)]
  unfold trim
  rw [hfront, List.rdropWhile_eq_self_iff]
  intro hne hblank
  rw [h.2 _ (List.getLast?_eq_some_getLast hne)] at hblank
  exact Bool.false_ne_true hblank

theorem trimmed_trim (s : Bytes) : Trimmed (trim s) := by
  constructor
  · intro c hc
    -- the front of what is left is the front of what the first step left
    obtain ⟨back, hback⟩ : trim s <+: s.dropWhile isBlank := List.rdropWhile_prefix isBlank _
    have hhead : (s.dropWhile isBlank).head? = some c := by
      rw [← hback, List.head?_append, hc]
      rfl
    have hnot := List.head?_dropWhile_not isBlank s
    rw [hhead] at hnot
    exact hnot
  · intro c hc
    rcases List.getLast?_eq_some_iff.mp hc with ⟨front, heq⟩
    have hne : (s.dropWhile isBlank).rdropWhile isBlank ≠ [] := by
      show trim s ≠ []
      rw [heq]
      exact List.append_ne_nil_of_right_ne_nil _ (List.cons_ne_nil _ _)
    have hlast := List.rdropWhile_last_not isBlank _ hne
    rw [List.getLast?_eq_some_getLast (show trim s ≠ [] from hne), Option.some.injEq] at hc
    rw [← hc]
    exact Bool.eq_false_iff.mpr hlast

theorem trim_trim (s : Bytes) : trim (trim s) = trim s := trim_of_trimmed (trimmed_trim s)

theorem trim_sublist (s : Bytes) : (trim s).Sublist s :=
  (List.rdropWhile_prefix isBlank _).sublist.trans (List.dropWhile_sublist _)

/-- No byte is a space or a control character: there is nothing to trim. -/
theorem trimmed_of_visible {s : Bytes} (h : ∀ c ∈ s, 32 < c.toNat) : Trimmed s := by
  have hnot : ∀ c ∈ s, isBlank c = false := by
    intro c hc
    have hlow := h c hc
    apply decide_eq_false
    rintro (rfl | rfl | rfl | rfl)
    · exact absurd hlow (by decide)
    · exact absurd hlow (by decide)
    · exact absurd hlow (by decide)
    · exact absurd hlow (by decide)
  constructor
  · intro c hc
    exact hnot c (List.mem_of_mem_head? hc)
  · intro c hc
    exact hnot c (List.mem_of_getLast? hc)

/-- Blanks in front are dropped. -/
theorem trim_cons_blank {c : UInt8} (h : isBlank c = true) (s : Bytes) : trim (c :: s) = trim s := by
  unfold trim
  rw [List.dropWhile_cons_of_pos h]

theorem rdropWhile_append (p : UInt8 → Bool) (s t : Bytes) :
    (s ++ t).rdropWhile p = if t.rdropWhile p = [] then s.rdropWhile p else s ++ t.rdropWhile p := by
  unfold List.rdropWhile
  rw [List.reverse_append, List.dropWhile_append]
  by_cases hall : t.reverse.dropWhile p = []
  · rw [hall]
    rfl
  · have hne : (t.reverse.dropWhile p).reverse ≠ [] := by simpa using hall
    rw [if_neg hne, if_neg (by simpa using hall), List.reverse_append, List.reverse_reverse]

/-- Blanks at the end are dropped. -/
theorem trim_append_blank {s blanks : Bytes} (h : ∀ c ∈ blanks, isBlank c = true) :
    trim (s ++ blanks) = trim s := by
  unfold trim
  rw [List.dropWhile_append]
  by_cases hall : s.dropWhile isBlank = []
  · have hblanks : blanks.dropWhile isBlank = [] := List.dropWhile_eq_nil_iff.mpr h
    rw [hall, hblanks]
    rfl
  · have hblanks : blanks.rdropWhile isBlank = [] := List.rdropWhile_eq_nil_iff.mpr h
    rw [if_neg (by simpa using hall), rdropWhile_append, if_pos hblanks]

theorem trim_rdropWhile (s : Bytes) : trim (s.rdropWhile isBlank) = trim s := by
  have hblanks : ∀ c ∈ s.rtakeWhile isBlank, isBlank c = true := fun c hc => List.mem_rtakeWhile_imp hc
  have hboth := trim_append_blank (s := s.rdropWhile isBlank) hblanks
  rw [List.rdropWhile_append_rtakeWhile] at hboth
  exact hboth.symm

/-- Behind text whose ends are not blank, only the end is trimmed. -/
theorem trim_append {front rest : Bytes} (hne : front ≠ []) (hfront : Trimmed front) :
    trim (front ++ rest) = front ++ rest.rdropWhile isBlank := by
  have hself : front.rdropWhile isBlank = front := by
    rw [List.rdropWhile_eq_self_iff]
    intro hl hblank
    rw [hfront.2 _ (List.getLast?_eq_some_getLast hl)] at hblank
    exact Bool.false_ne_true hblank
  have hstart : (front ++ rest).dropWhile isBlank = front ++ rest := by
    cases front with
    | nil => exact absurd rfl hne
    | cons c front =>
      rw [List.cons_append, List.dropWhile_cons_of_neg]
      rw [hfront.1 c rfl]
      exact Bool.false_ne_true
  unfold trim
  rw [hstart, rdropWhile_append, hself]
  split
  · next hall => rw [hall, List.append_nil]
  · rfl

/-- Behind text that does not begin with a blank, text that does not either is trimmed alone. -/
theorem trim_append_text {front text : Bytes} (hne : front ≠ [])
    (hfront : ∀ c, front.head? = some c → isBlank c = false) (htextNe : text ≠ [])
    (htext : ∀ c, text.head? = some c → isBlank c = false) : trim (front ++ text) = front ++ trim text := by
  have hkept : ∀ (s : Bytes), s ≠ [] → (∀ c, s.head? = some c → isBlank c = false) →
      ∀ rest, (s ++ rest).dropWhile isBlank = s ++ rest := by
    intro s hs hhead rest
    cases s with
    | nil => exact absurd rfl hs
    | cons c s =>
      rw [List.cons_append, List.dropWhile_cons_of_neg]
      rw [hhead c rfl]
      exact Bool.false_ne_true
  have hsome : text.rdropWhile isBlank ≠ [] := by
    intro hall
    obtain ⟨c, rest, rfl⟩ := List.exists_cons_of_ne_nil htextNe
    have hblank := List.rdropWhile_eq_nil_iff.mp hall c List.mem_cons_self
    rw [htext c rfl] at hblank
    contradiction
  have hself := hkept text htextNe htext []
  rw [List.append_nil] at hself
  unfold trim
  rw [hkept front hne hfront, rdropWhile_append, if_neg hsome, hself]

/-- The bytes `SanitizeText` keeps. -/
def CleanText (s : Bytes) : Prop := ∀ c ∈ s, 0x20 ≤ c ∧ c ≠ 0x7F

theorem sanitizeFrom_spec {maxBytes : Nat} {out : Bytes} (hout : CleanText out)
    (hroom : out.length < maxBytes) (text : Bytes) :
    CleanText (sanitizeFrom maxBytes out text) ∧ (sanitizeFrom maxBytes out text).length ≤ maxBytes := by
  induction text generalizing out with
  | nil => exact ⟨hout, Nat.le_of_lt hroom⟩
  | cons c rest ih =>
    rw [sanitizeFrom]
    by_cases hkeep : 0x20 ≤ c ∧ c ≠ 0x7F
    · have hout' : CleanText (out ++ [c]) := by
        intro d hd
        rcases List.mem_append.mp hd with hold | hnew
        · exact hout d hold
        · rw [List.mem_singleton.mp hnew]
          exact hkeep
      have hlength : (out ++ [c]).length = out.length + 1 := List.length_append
      rw [if_pos hkeep]
      by_cases hfull : (out ++ [c]).length = maxBytes
      · rw [if_pos hfull]
        exact ⟨hout', Nat.le_of_eq hfull⟩
      · rw [if_neg hfull]
        exact ih hout' (by omega)
    · -- the byte is left out
      rw [if_neg hkeep, if_neg (Nat.ne_of_lt hroom)]
      exact ih hout hroom

/-- Text that is clean and fits is kept whole. -/
theorem sanitizeFrom_cleanText {maxBytes : Nat} {text : Bytes} (htext : CleanText text) (out : Bytes)
    (hfit : out.length + text.length ≤ maxBytes) : sanitizeFrom maxBytes out text = out ++ text := by
  induction text generalizing out with
  | nil => exact (List.append_nil out).symm
  | cons c rest ih =>
    rw [List.length_cons] at hfit
    have hlength : (out ++ [c]).length = out.length + 1 := List.length_append
    rw [sanitizeFrom, if_pos (htext c List.mem_cons_self)]
    by_cases hfull : (out ++ [c]).length = maxBytes
    · have hnil : rest = [] := List.eq_nil_of_length_eq_zero (by omega)
      rw [if_pos hfull, hnil]
    · rw [if_neg hfull, ih (fun d hd => htext d (List.mem_cons_of_mem c hd)) (out ++ [c]) (by omega),
        List.append_assoc, List.singleton_append]

/-- What `SanitizeText` gives: clean text that fits and has nothing to trim. -/
theorem sanitizeText_spec (text : Bytes) (maxBytes : Nat) (hmax : 0 < maxBytes) :
    CleanText (sanitizeText text maxBytes) ∧ Trimmed (sanitizeText text maxBytes) ∧
      (sanitizeText text maxBytes).length ≤ maxBytes := by
  have hnone : CleanText [] := by
    intro c hc
    exact absurd hc List.not_mem_nil
  rcases sanitizeFrom_spec hnone hmax text with ⟨hclean, hlength⟩
  refine ⟨?_, trimmed_trim _, Nat.le_trans (trim_sublist _).length_le hlength⟩
  intro c hc
  exact hclean c ((trim_sublist _).subset hc)

theorem sanitizeText_of_clean {text : Bytes} {maxBytes : Nat} (hclean : CleanText text)
    (htrimmed : Trimmed text) (hlength : text.length ≤ maxBytes) :
    sanitizeText text maxBytes = text := by
  unfold sanitizeText
  rw [sanitizeFrom_cleanText hclean [] (by rw [List.length_nil, Nat.zero_add]; exact hlength),
    List.nil_append, trim_of_trimmed htrimmed]

theorem sanitizeText_sanitizeText (text : Bytes) {maxBytes : Nat} (hmax : 0 < maxBytes) :
    sanitizeText (sanitizeText text maxBytes) maxBytes = sanitizeText text maxBytes := by
  rcases sanitizeText_spec text _ hmax with ⟨hclean, htrimmed, hlength⟩
  exact sanitizeText_of_clean hclean htrimmed hlength

/-! ## Lines -/

theorem splitLines_line {line : Bytes} (h : ∀ c ∈ line, c ≠ 10) (rest : Bytes) :
    splitLines (line ++ 10 :: rest) = line :: splitLines rest := by
  induction line with
  | nil => rfl
  | cons c line ih =>
    rw [List.cons_append, splitLines, if_neg (h c List.mem_cons_self),
      ih fun d hd => h d (List.mem_cons_of_mem c hd)]

/-- Lines written one behind the other are read as they are. -/
theorem splitLines_flatten {lines : List Bytes} (h : ∀ line ∈ lines, ∀ c ∈ line, c ≠ 10) :
    splitLines (lines.map (· ++ [10])).flatten = lines := by
  induction lines with
  | nil => rfl
  | cons line lines ih =>
    rw [List.map_cons, List.flatten_cons, List.append_assoc, List.singleton_append,
      splitLines_line (h line List.mem_cons_self),
      ih fun l hl => h l (List.mem_cons_of_mem line hl)]

/-- A file of short lines is short. -/
theorem length_lines_le {α : Type} {line : α → Bytes} {n : Nat} {rows : List α}
    (h : ∀ row ∈ rows, (line row).length ≤ n) :
    ((rows.map line).map (· ++ [10])).flatten.length ≤ (n + 1) * rows.length := by
  induction rows with
  | nil => exact Nat.zero_le _
  | cons row rows ih =>
    have hfirst := h row List.mem_cons_self
    have hrest := ih fun r hr => h r (List.mem_cons_of_mem row hr)
    rw [List.map_cons, List.map_cons, List.flatten_cons, List.length_append, List.length_append,
      List.length_singleton, List.length_cons, Nat.mul_succ]
    omega

theorem dropCarriageReturn_of_ne {line : Bytes} (h : ∀ c ∈ line, c ≠ 13) :
    dropCarriageReturn line = line := by
  unfold dropCarriageReturn
  rw [if_neg]
  intro hlast
  exact h 13 (List.mem_of_getLast? hlast) rfl

/-! ## Words -/

theorem ne_of_visible {s : Bytes} (h : ∀ c ∈ s, 32 < c.toNat) : ∀ c ∈ s, c ≠ 32 := by
  intro c hc heq
  have hlow := h c hc
  rw [heq] at hlow
  exact absurd hlow (by decide)

theorem idxOf?_append_cons {c : UInt8} {front : Bytes} (h : ∀ d ∈ front, d ≠ c) (rest : Bytes) :
    (front ++ c :: rest).idxOf? c = some front.length := by
  rw [List.idxOf?_eq_some_iff]
  refine ⟨?_, ?_, ?_⟩
  · rw [List.length_append, List.length_cons]
    omega
  · simp
  · intro j hj
    rw [List.getElem_append_left hj]
    exact h _ (List.getElem_mem hj)

theorem cutAt_append {c : UInt8} {front : Bytes} (h : ∀ d ∈ front, d ≠ c) (rest : Bytes) :
    cutAt c (front ++ c :: rest) = some (front, rest) := by
  unfold cutAt
  rw [idxOf?_append_cons h rest, Option.map_some, List.take_left, ← List.drop_drop, List.drop_left,
    List.drop_one, List.tail_cons]

theorem cutAt_none {c : UInt8} {text : Bytes} (h : ∀ d ∈ text, d ≠ c) : cutAt c text = none := by
  unfold cutAt
  rw [List.idxOf?_eq_none_iff.mpr, Option.map_none]
  intro hmem
  exact h c hmem rfl

/-! ## Times -/

theorem digitByte_range {d : Nat} (h : d < 10) :
    ¬ (digitByte d < 48 ∨ 57 < digitByte d) ∧ (digitByte d).toNat - 48 = d := by
  have hnat : (digitByte d).toNat = 48 + d := by
    unfold digitByte
    rw [UInt8.toNat_ofNat']
    omega
  rw [UInt8.lt_iff_toNat_lt, UInt8.lt_iff_toNat_lt, hnat]
  constructor
  · show ¬ (48 + d < 48 ∨ 57 < 48 + d)
    omega
  · omega

theorem unixTimeFrom_append (v : Nat) (s t : Bytes) :
    unixTimeFrom v (s ++ t) = (unixTimeFrom v s).bind fun w => unixTimeFrom w t := by
  induction s generalizing v with
  | nil => rfl
  | cons c s ih =>
    rw [List.cons_append, unixTimeFrom, unixTimeFrom]
    split
    · rfl
    · dsimp only
      split
      · rfl
      · exact ih _

/-- The digits of a number that fits read back as the number. -/
theorem unixTimeFrom_decimal {n : Nat} (h : n < 2 ^ 63) : unixTimeFrom 0 (decimal n) = some n := by
  induction n using Nat.strong_induction_on with
  | _ n ih =>
    have hdigit : ∀ v d, d < 10 → v * 10 + d < 2 ^ 63 →
        unixTimeFrom v [digitByte d] = some (v * 10 + d) := by
      intro v d hd hfit
      rcases digitByte_range hd with ⟨hrange, hvalue⟩
      rw [unixTimeFrom, if_neg hrange]
      dsimp only
      rw [hvalue, if_neg (by omega), unixTimeFrom]
    by_cases hsmall : n < 10
    · rw [decimal_of_lt hsmall, hdigit 0 n hsmall (by omega), Nat.zero_mul, Nat.zero_add]
    · rw [decimal_of_ge (by omega), unixTimeFrom_append, ih (n / 10) (by omega) (by omega)]
      show unixTimeFrom (n / 10) [digitByte (n % 10)] = some n
      rw [hdigit (n / 10) (n % 10) (by omega) (by omega)]
      congr 1
      omega

theorem decimal_ne_nil (n : Nat) : decimal n ≠ [] := by
  by_cases hsmall : n < 10
  · rw [decimal_of_lt hsmall]
    exact List.cons_ne_nil _ _
  · rw [decimal_of_ge (by omega)]
    exact List.append_ne_nil_of_right_ne_nil _ (List.cons_ne_nil _ _)

theorem length_decimal_le {k n : Nat} (hk : 0 < k) (h : n < 10 ^ k) : (decimal n).length ≤ k := by
  induction k generalizing n with
  | zero => exact absurd hk (Nat.lt_irrefl 0)
  | succ k ih =>
    by_cases hsmall : n < 10
    · rw [decimal_of_lt hsmall, List.length_singleton]
      omega
    · rw [decimal_of_ge (by omega), List.length_append, List.length_singleton]
      have hk' : 0 < k := by
        by_contra hzero
        rw [show k = 0 by omega] at h
        omega
      have := ih hk' (n := n / 10) (by rw [Nat.pow_succ] at h; omega)
      omega

/-- Every byte of a decimal number is a digit. -/
theorem decimal_digits (n : Nat) : ∀ c ∈ decimal n, 48 ≤ c.toNat ∧ c.toNat ≤ 57 := by
  have hdigit : ∀ d, d < 10 → 48 ≤ (digitByte d).toNat ∧ (digitByte d).toNat ≤ 57 := by
    intro d hd
    unfold digitByte
    rw [UInt8.toNat_ofNat']
    omega
  induction n using Nat.strong_induction_on with
  | _ n ih =>
    intro c hc
    by_cases hsmall : n < 10
    · rw [decimal_of_lt hsmall, List.mem_singleton] at hc
      rw [hc]
      exact hdigit n hsmall
    · rw [decimal_of_ge (by omega)] at hc
      rcases List.mem_append.mp hc with hfront | hlast
      · exact ih (n / 10) (by omega) c hfront
      · rw [List.mem_singleton.mp hlast]
        exact hdigit (n % 10) (by omega)

/-- A time that is not negative reads back as it was written. -/
theorem parseUnixTime_timeText {t : UnixTime} (h : 0 ≤ t.toInt) :
    timeText t = decimal t.toInt.natAbs ∧ parseUnixTime (timeText t) = some t := by
  have htext : timeText t = decimal t.toInt.natAbs := by
    unfold timeText
    rw [if_neg (by omega)]
  have hfit : t.toInt.natAbs < 2 ^ 63 := by
    have := t.toInt_lt
    omega
  have hlen : (decimal t.toInt.natAbs).length ≤ 19 := length_decimal_le (by decide) (by omega)
  refine ⟨htext, ?_⟩
  rw [htext]
  unfold parseUnixTime
  rw [if_neg (not_or.mpr ⟨decimal_ne_nil _, by omega⟩), unixTimeFrom_decimal hfit, Option.map_some]
  congr 1
  apply Int64.toInt.inj
  rw [Int64.toInt_ofNat_of_lt hfit]
  omega

theorem timeText_visible {t : UnixTime} (h : 0 ≤ t.toInt) :
    (timeText t).length ≤ 19 ∧ ∀ c ∈ timeText t, 32 < c.toNat := by
  rcases parseUnixTime_timeText h with ⟨htext, -⟩
  have hfit := t.toInt_lt
  rw [htext]
  constructor
  · exact length_decimal_le (by decide) (by omega)
  · intro c hc
    exact Nat.lt_of_lt_of_le (by decide) (decimal_digits t.toInt.natAbs c hc).1

end Deskhub
