import Mathlib.Data.List.Forall2

/-!
# JSON

Trees, and a reader of the texts that stand for them. The reader takes a part of the language: texts
without blanks between the tokens, with whole numbers, and without surrogate escapes. What it takes
is a JSON text (but for the encoding, which it does not look at), and `Reads` has a rule for every
kind of tree.
-/

/-- A tree whose texts are byte strings. -/
inductive Json where
  | text (s : List UInt8)
  | number (n : Int)
  | bool (b : Bool)
  | array (items : List Json)
  | object (fields : List (List UInt8 × Json))

namespace Json

/-- Induction over trees. -/
@[elab_as_elim]
theorem induct {P : Json → Prop} (text : ∀ s, P (.text s)) (number : ∀ n, P (.number n))
    (bool : ∀ b, P (.bool b)) (array : ∀ items, (∀ v ∈ items, P v) → P (.array items))
    (object : ∀ fields, (∀ f ∈ fields, P f.2) → P (.object fields)) : ∀ t, P t
  | .text s => text s
  | .number n => number n
  | .bool b => bool b
  | .array items => array items fun v _ => induct text number bool array object v
  | .object fields => object fields fun f _ => induct text number bool array object f.2
termination_by t => sizeOf t
decreasing_by
  · next hin =>
    have hsize := List.sizeOf_lt_of_mem hin
    simp only [Json.array.sizeOf_spec]
    omega
  · next hin =>
    have hsize := List.sizeOf_lt_of_mem hin
    rcases f with ⟨key, v⟩
    simp only [Json.object.sizeOf_spec, Prod.mk.sizeOf_spec] at *
    omega

/-- The tree with all its texts and numbers changed. -/
def map (f : List UInt8 → List UInt8) (g : Int → Int) : Json → Json
  | .text s => .text (f s)
  | .number n => .number (g n)
  | .bool b => .bool b
  | .array items => .array (items.map fun v => v.map f g)
  | .object fields => .object (fields.map fun field => (f field.1, field.2.map f g))
termination_by t => sizeOf t
decreasing_by
  · next hin =>
    have hsize := List.sizeOf_lt_of_mem hin
    simp only [Json.array.sizeOf_spec]
    omega
  · next hin =>
    have hsize := List.sizeOf_lt_of_mem hin
    rcases field with ⟨key, v⟩
    simp only [Json.object.sizeOf_spec, Prod.mk.sizeOf_spec] at *
    omega

/-- A property of all its numbers. -/
def All (P : Int → Prop) : Json → Prop
  | .text _ => True
  | .number n => P n
  | .bool _ => True
  | .array items => ∀ v, v ∈ items → v.All P
  | .object fields => ∀ field, field ∈ fields → field.2.All P
termination_by t => sizeOf t
decreasing_by
  · next hin =>
    have hsize := List.sizeOf_lt_of_mem hin
    simp only [Json.array.sizeOf_spec]
    omega
  · next hin =>
    have hsize := List.sizeOf_lt_of_mem hin
    rcases field with ⟨key, v⟩
    simp only [Json.object.sizeOf_spec, Prod.mk.sizeOf_spec] at *
    omega

/-- Two changes of the numbers come to the same tree if they agree on its numbers. -/
theorem map_eq_map_iff {f : List UInt8 → List UInt8} {g g' : Int → Int} (t : Json) :
    t.map f g = t.map f g' ↔ t.All fun n => g n = g' n := by
  induction t using induct with
  | text s => simp [map, All]
  | number n => simp [map, All]
  | bool b => simp [map, All]
  | array items ih =>
    rw [map, map, All, Json.array.injEq, List.map_inj_left]
    exact forall₂_congr ih
  | object fields ih =>
    rw [map, map, All, Json.object.injEq, List.map_inj_left]
    apply forall₂_congr
    intro field hfield
    rw [Prod.mk.injEq, ih field hfield]
    exact and_iff_right rfl

/-! ## Reading -/

/-- The value of a hexadecimal digit. -/
def hexValue (c : UInt8) : Option Nat :=
  if 48 ≤ c ∧ c ≤ 57 then some (c.toNat - 48)
  else if 97 ≤ c ∧ c ≤ 102 then some (c.toNat - 87)
  else if 65 ≤ c ∧ c ≤ 70 then some (c.toNat - 55)
  else none

def hexUnit (a b c d : UInt8) : Option Nat := do
  let a ← hexValue a
  let b ← hexValue b
  let c ← hexValue c
  let d ← hexValue d
  some (((a * 16 + b) * 16 + c) * 16 + d)

/-- A character of at most 16 bits in UTF-8; a surrogate is none. -/
def unitBytes (unit : Nat) : Option (List UInt8) :=
  if unit < 0x80 then some [UInt8.ofNat unit]
  else if unit < 0x800 then
    some [UInt8.ofNat (0xC0 + unit / 0x40), UInt8.ofNat (0x80 + unit % 0x40)]
  else if 0xD800 ≤ unit ∧ unit ≤ 0xDFFF then none
  else some [UInt8.ofNat (0xE0 + unit / 0x1000), UInt8.ofNat (0x80 + unit / 0x40 % 0x40),
    UInt8.ofNat (0x80 + unit % 0x40)]

/-- What the letter behind a backslash stands for. -/
def escaped (letter : UInt8) : Option UInt8 :=
  if letter = 34 ∨ letter = 92 ∨ letter = 47 then some letter
  else if letter = 98 then some 8
  else if letter = 102 then some 12
  else if letter = 110 then some 10
  else if letter = 114 then some 13
  else if letter = 116 then some 9
  else none

/-- The text up to the closing quotation mark, and what is behind it. -/
def readString : List UInt8 → Option (List UInt8 × List UInt8)
  | [] => none
  | c :: rest =>
    if c = 34 then some ([], rest)
    else if c = 92 then
      match rest with
      | [] => none
      | letter :: rest =>
        if letter = 117 then
          match rest with
          | a :: b :: c :: d :: rest => do
            let unit ← hexUnit a b c d
            let bytes ← unitBytes unit
            let (s, left) ← readString rest
            some (bytes ++ s, left)
          | _ => none
        else do
          let byte ← escaped letter
          let (s, left) ← readString rest
          some (byte :: s, left)
    else if c < 0x20 then none
    else do
      let (s, left) ← readString rest
      some (c :: s, left)

def isDigit (c : UInt8) : Bool := 48 ≤ c ∧ c ≤ 57

def digitsValue (digits : List UInt8) : Nat :=
  digits.foldl (fun value c => value * 10 + (c.toNat - 48)) 0

/-- A whole number without a sign; only 0 itself starts with 0. -/
def readNatural (bytes : List UInt8) : Option (Nat × List UInt8) :=
  let digits := bytes.takeWhile isDigit
  if digits = [] ∨ digits.head? = some 48 ∧ digits ≠ [48] then none
  else some (digitsValue digits, bytes.dropWhile isDigit)

/-- The letters of the two literals, behind the first. -/
def rueText : List UInt8 := [114, 117, 101]
def alseText : List UInt8 := [97, 108, 115, 101]

mutual

/-- The value at the front, and what is behind it. Fuel as much as there are bytes is enough. -/
def readValue : Nat → List UInt8 → Option (Json × List UInt8)
  | 0, _ => none
  | _ + 1, [] => none
  | fuel + 1, c :: rest =>
    if c = 34 then (readString rest).map fun (s, left) => (.text s, left)
    else if c = 91 then
      if rest.head? = some 93 then some (.array [], rest.tail)
      else (readItems fuel rest).map fun (items, left) => (.array items, left)
    else if c = 123 then
      if rest.head? = some 125 then some (.object [], rest.tail)
      else (readFields fuel rest).map fun (fields, left) => (.object fields, left)
    else if c = 116 then
      if rueText <+: rest then some (.bool true, rest.drop rueText.length) else none
    else if c = 102 then
      if alseText <+: rest then some (.bool false, rest.drop alseText.length) else none
    else if c = 45 then (readNatural rest).map fun (n, left) => (.number (-n), left)
    else (readNatural (c :: rest)).map fun (n, left) => (.number n, left)

/-- One item at least, up to the closing bracket. -/
def readItems : Nat → List UInt8 → Option (List Json × List UInt8)
  | 0, _ => none
  | fuel + 1, bytes => do
    let (v, left) ← readValue fuel bytes
    match left with
    | [] => none
    | c :: left =>
      if c = 93 then some ([v], left)
      else if c = 44 then do
        let (items, left) ← readItems fuel left
        some (v :: items, left)
      else none

/-- One field at least, up to the closing brace. -/
def readFields : Nat → List UInt8 → Option (List (List UInt8 × Json) × List UInt8)
  | 0, _ => none
  | fuel + 1, bytes =>
    if bytes.head? ≠ some 34 then none
    else do
      let (key, left) ← readString bytes.tail
      if left.head? ≠ some 58 then none
      else do
        let (v, left) ← readValue fuel left.tail
        match left with
        | [] => none
        | c :: left =>
          if c = 125 then some ([(key, v)], left)
          else if c = 44 then do
            let (fields, left) ← readFields fuel left
            some ((key, v) :: fields, left)
          else none

end

/-- The tree of a whole text. -/
def decode (bytes : List UInt8) : Option Json :=
  match readValue bytes.length bytes with
  | some (t, []) => some t
  | _ => none

/-! ## Texts that are read as a tree -/

/-- Nothing that would belong to a number in front of it. -/
def Follows (rest : List UInt8) : Prop := ∀ c, rest.head? = some c → isDigit c = false

theorem follows_nil : Follows [] := by
  intro c hc
  cases hc

theorem follows_cons {c : UInt8} (h : isDigit c = false) (rest : List UInt8) :
    Follows (c :: rest) := by
  intro c' hc'
  cases hc'
  exact h

/-- Between quotation marks the bytes spell the text. -/
def Spells (body s : List UInt8) : Prop :=
  ∀ rest, readString (body ++ 34 :: rest) = some (s, rest)

/-- The bytes are read as the tree, with fuel as much as there are bytes. -/
def Reads (bytes : List UInt8) (t : Json) : Prop :=
  ∀ fuel rest, bytes.length ≤ fuel → Follows rest →
    readValue fuel (bytes ++ rest) = some (t, rest)

theorem decode_of_reads {bytes : List UInt8} {t : Json} (h : Reads bytes t) :
    decode bytes = some t := by
  have hread := h bytes.length [] (Nat.le_refl _) follows_nil
  rw [List.append_nil] at hread
  unfold decode
  rw [hread]

/-! ### Strings -/

theorem spells_nil : Spells [] [] := by
  intro rest
  rw [List.nil_append]
  unfold readString
  exact if_pos rfl

/-- A byte that is no control character, quotation mark or backslash stands for itself. -/
theorem Spells.plain {c : UInt8} (hquote : c ≠ 34) (hback : c ≠ 92) (hlow : ¬ c < 0x20)
    {body s : List UInt8} (h : Spells body s) : Spells (c :: body) (c :: s) := by
  intro rest
  rw [List.cons_append]
  unfold readString
  rw [if_neg hquote, if_neg hback, if_neg hlow, h rest]
  rfl

theorem Spells.plain_append {front : List UInt8}
    (hfront : ∀ c ∈ front, c ≠ 34 ∧ c ≠ 92 ∧ ¬ c < 0x20) {body s : List UInt8}
    (h : Spells body s) : Spells (front ++ body) (front ++ s) := by
  induction front with
  | nil => exact h
  | cons c front ih =>
    have hc := hfront c List.mem_cons_self
    exact (ih fun d hd => hfront d (List.mem_cons_of_mem c hd)).plain hc.1 hc.2.1 hc.2.2

theorem Spells.letter {letter byte : UInt8} (hletter : letter ≠ 117)
    (hescaped : escaped letter = some byte) {body s : List UInt8} (h : Spells body s) :
    Spells (92 :: letter :: body) (byte :: s) := by
  intro rest
  rw [List.cons_append, List.cons_append]
  unfold readString
  rw [if_neg (by decide), if_pos rfl]
  dsimp only
  rw [if_neg hletter, hescaped, h rest]
  rfl

theorem Spells.unit {a b c d : UInt8} {unit : Nat} {bytes : List UInt8}
    (hunit : hexUnit a b c d = some unit) (hbytes : unitBytes unit = some bytes)
    {body s : List UInt8} (h : Spells body s) :
    Spells (92 :: 117 :: a :: b :: c :: d :: body) (bytes ++ s) := by
  intro rest
  simp only [List.cons_append]
  unfold readString
  rw [if_neg (by decide), if_pos rfl]
  dsimp only
  rw [if_pos rfl, hunit]
  dsimp only [Option.bind_eq_bind, Option.bind_some]
  rw [hbytes]
  dsimp only [Option.bind_some]
  rw [h rest]
  rfl

theorem Spells.reads {body s : List UInt8} (h : Spells body s) :
    Reads (34 :: (body ++ [34])) (.text s) := by
  intro fuel rest hfuel _
  cases fuel with
  | zero => exact absurd hfuel (Nat.not_succ_le_zero _)
  | succ fuel =>
    have hread := h rest
    rw [List.cons_append, List.append_assoc, List.singleton_append, readValue, if_pos rfl, hread]
    rfl

/-! ### Numbers and literals -/

/-- The digits of a number, as JSON has them. -/
structure Numeral (digits : List UInt8) (n : Nat) : Prop where
  digit : ∀ c ∈ digits, isDigit c = true
  lead : digits ≠ [] ∧ (digits.head? = some 48 → digits = [48])
  value : digitsValue digits = n

theorem Numeral.readNatural {digits : List UInt8} {n : Nat} (h : Numeral digits n)
    {rest : List UInt8} (hrest : Follows rest) :
    readNatural (digits ++ rest) = some (n, rest) := by
  have hstop : rest.takeWhile isDigit = [] ∧ rest.dropWhile isDigit = rest := by
    cases rest with
    | nil => exact ⟨rfl, rfl⟩
    | cons c rest =>
      have hc := hrest c rfl
      constructor
      · rw [List.takeWhile_cons, hc]
        rfl
      · rw [List.dropWhile_cons, hc]
        rfl
  have htake : (digits ++ rest).takeWhile isDigit = digits := by
    rw [List.takeWhile_append_of_pos h.digit, hstop.1, List.append_nil]
  have hdrop : (digits ++ rest).dropWhile isDigit = rest := by
    rw [List.dropWhile_append_of_pos h.digit, hstop.2]
  have hgood : ¬ (digits = [] ∨ digits.head? = some 48 ∧ digits ≠ [48]) := by
    rintro (hnil | ⟨hzero, hmore⟩)
    · exact h.lead.1 hnil
    · exact hmore (h.lead.2 hzero)
  unfold Json.readNatural
  dsimp only
  rw [htake, hdrop, if_neg hgood, h.value]

/-- A byte that is read as the start of a number. -/
theorem readValue_number {c : UInt8} (h : isDigit c = true) (fuel : Nat) (rest : List UInt8) :
    readValue (fuel + 1) (c :: rest) =
      (readNatural (c :: rest)).map fun (n, left) => (.number n, left) := by
  have hother : ∀ d, isDigit d = false → c ≠ d := by
    rintro d hd rfl
    rw [h] at hd
    cases hd
  rw [readValue, if_neg (hother _ (by decide)), if_neg (hother _ (by decide)),
    if_neg (hother _ (by decide)), if_neg (hother _ (by decide)), if_neg (hother _ (by decide)),
    if_neg (hother _ (by decide))]

theorem Numeral.reads {digits : List UInt8} {n : Nat} (h : Numeral digits n) :
    Reads digits (.number n) := by
  intro fuel rest hfuel hrest
  cases digits with
  | nil => exact absurd rfl h.lead.1
  | cons c digits =>
    cases fuel with
    | zero => exact absurd hfuel (Nat.not_succ_le_zero _)
    | succ fuel =>
      rw [List.cons_append, readValue_number (h.digit c List.mem_cons_self), ← List.cons_append,
        h.readNatural hrest]
      rfl

theorem Numeral.reads_neg {digits : List UInt8} {n : Nat} (h : Numeral digits n) :
    Reads (45 :: digits) (.number (-n)) := by
  intro fuel rest hfuel hrest
  cases fuel with
  | zero => exact absurd hfuel (Nat.not_succ_le_zero _)
  | succ fuel =>
    rw [List.cons_append, readValue, if_neg (by decide), if_neg (by decide), if_neg (by decide),
      if_neg (by decide), if_neg (by decide), if_pos rfl, h.readNatural hrest]
    rfl

theorem reads_true : Reads (116 :: rueText) (.bool true) := by
  intro fuel rest hfuel _
  cases fuel with
  | zero => exact absurd hfuel (Nat.not_succ_le_zero _)
  | succ fuel =>
    rw [List.cons_append, readValue, if_neg (by decide), if_neg (by decide), if_neg (by decide),
      if_pos rfl, if_pos (List.prefix_append _ _), List.drop_left]

theorem reads_false : Reads (102 :: alseText) (.bool false) := by
  intro fuel rest hfuel _
  cases fuel with
  | zero => exact absurd hfuel (Nat.not_succ_le_zero _)
  | succ fuel =>
    rw [List.cons_append, readValue, if_neg (by decide), if_neg (by decide), if_neg (by decide),
      if_neg (by decide), if_pos rfl, if_pos (List.prefix_append _ _), List.drop_left]

/-! ### Arrays and objects -/

/-- The texts with commas between them. -/
def joined : List (List UInt8) → List UInt8
  | [] => []
  | [part] => part
  | part :: next :: parts => part ++ 44 :: joined (next :: parts)

theorem joined_cons {part : List UInt8} {parts : List (List UInt8)} (h : parts ≠ []) :
    joined (part :: parts) = part ++ 44 :: joined parts := by
  cases parts with
  | nil => exact absurd rfl h
  | cons next parts => rfl

/-- One more at the end. -/
theorem joined_concat (parts : List (List UInt8)) (part : List UInt8) :
    joined (parts ++ [part]) = joined parts ++ (if parts = [] then [] else [44]) ++ part := by
  induction parts with
  | nil => rfl
  | cons first parts ih =>
    rw [List.cons_append, joined_cons (by simp), ih, if_neg (List.cons_ne_nil _ _)]
    cases parts with
    | nil => simp [joined]
    | cons next parts =>
      rw [joined_cons (List.cons_ne_nil next parts), if_neg (List.cons_ne_nil _ _)]
      simp [List.append_assoc]

/-- What is read as a tree does not start with a closing bracket. -/
theorem Reads.head {bytes : List UInt8} {t : Json} (h : Reads bytes t) :
    ∃ c rest, bytes = c :: rest ∧ c ≠ 93 := by
  cases bytes with
  | nil =>
    have hread := h 0 [] (Nat.le_refl _) follows_nil
    rw [List.append_nil, readValue] at hread
    cases hread
  | cons c rest =>
    refine ⟨c, rest, rfl, ?_⟩
    rintro rfl
    have hread := h (rest.length + 1) [] (Nat.le_refl _) follows_nil
    have hnone : readNatural (93 :: (rest ++ [])) = none := by
      unfold readNatural
      rw [List.takeWhile_cons]
      exact if_pos (.inl rfl)
    rw [List.cons_append, readValue, if_neg (by decide), if_neg (by decide), if_neg (by decide),
      if_neg (by decide), if_neg (by decide), if_neg (by decide), hnone] at hread
    cases hread

/-- The items of an array, one at least. -/
theorem readItems_joined {parts : List (List UInt8)} {items : List Json}
    (h : List.Forall₂ Reads parts items) (hne : parts ≠ []) {fuel : Nat}
    (hfuel : (joined parts).length + 1 ≤ fuel) (rest : List UInt8) :
    readItems fuel (joined parts ++ 93 :: rest) = some (items, rest) := by
  induction h generalizing fuel with
  | nil => exact absurd rfl hne
  | @cons part v parts items hfirst hmore ih =>
    cases fuel with
    | zero => exact absurd hfuel (Nat.not_succ_le_zero _)
    | succ fuel =>
      cases parts with
      | nil =>
        cases hmore
        have hlen : part.length ≤ fuel := Nat.le_of_succ_le_succ hfuel
        rw [joined, readItems, hfirst fuel _ hlen (follows_cons (by decide) rest)]
        dsimp only [Option.bind_eq_bind, Option.bind_some]
        rw [if_pos rfl]
      | cons next parts =>
        have hnext : next :: parts ≠ [] := List.cons_ne_nil next parts
        rw [joined_cons hnext, List.length_append, List.length_cons] at hfuel
        rw [joined_cons hnext, List.append_assoc, List.cons_append, readItems,
          hfirst fuel _ (by omega) (follows_cons (by decide) _)]
        dsimp only [Option.bind_eq_bind, Option.bind_some]
        rw [if_neg (by decide), if_pos rfl, ih hnext (by omega)]
        rfl

theorem reads_array {parts : List (List UInt8)} {items : List Json}
    (h : List.Forall₂ Reads parts items) :
    Reads (91 :: (joined parts ++ [93])) (.array items) := by
  intro fuel rest hfuel _
  cases fuel with
  | zero => exact absurd hfuel (Nat.not_succ_le_zero _)
  | succ fuel =>
    rw [List.cons_append, List.append_assoc, List.singleton_append, readValue,
      if_neg (by decide), if_pos rfl]
    cases h with
    | nil => exact if_pos rfl
    | @cons part v parts items hfirst hmore =>
      rcases hfirst.head with ⟨c, front, rfl, hc⟩
      have hhead : (joined ((c :: front) :: parts) ++ 93 :: rest).head? = some c := by
        cases parts with
        | nil => rfl
        | cons next parts => rfl
      have hne : (joined ((c :: front) :: parts) ++ 93 :: rest).head? ≠ some 93 := by
        rw [hhead]
        exact fun heq => hc (Option.some.inj heq)
      rw [List.length_cons, List.length_append, List.length_singleton] at hfuel
      rw [if_neg hne, readItems_joined (.cons hfirst hmore) (List.cons_ne_nil _ _) (by omega)]
      rfl

/-- The bytes are a key, a colon and a value. -/
def ReadsField (bytes : List UInt8) (field : List UInt8 × Json) : Prop :=
  ∃ body part, Spells body field.1 ∧ Reads part field.2 ∧
    bytes = 34 :: (body ++ 34 :: 58 :: part)

theorem readFields_joined {parts : List (List UInt8)} {fields : List (List UInt8 × Json)}
    (h : List.Forall₂ ReadsField parts fields) (hne : parts ≠ []) {fuel : Nat}
    (hfuel : (joined parts).length + 1 ≤ fuel) (rest : List UInt8) :
    readFields fuel (joined parts ++ 125 :: rest) = some (fields, rest) := by
  induction h generalizing fuel with
  | nil => exact absurd rfl hne
  | @cons bytes field parts fields hfirst hmore ih =>
    rcases hfirst with ⟨body, part, hkey, hvalue, rfl⟩
    cases fuel with
    | zero => exact absurd hfuel (Nat.not_succ_le_zero _)
    | succ fuel =>
      -- the field in front, whatever follows its value
      have hread : ∀ behind : List UInt8, Follows behind → part.length ≤ fuel →
          readFields (fuel + 1) (34 :: (body ++ 34 :: 58 :: part) ++ behind) =
            (match behind with
              | [] => none
              | c :: left =>
                if c = 125 then some ([field], left)
                else if c = 44 then do
                  let (fields, left) ← readFields fuel left
                  some (field :: fields, left)
                else none) := by
        intro behind hbehind hlen
        simp only [List.cons_append, List.append_assoc]
        rw [readFields, if_neg (by simp), List.tail_cons, hkey]
        dsimp only [Option.bind_eq_bind, Option.bind_some]
        rw [if_neg (by simp), List.tail_cons, hvalue fuel behind hlen hbehind]
        rfl
      cases parts with
      | nil =>
        cases hmore
        simp only [joined, List.length_cons, List.length_append] at hfuel
        rw [joined, hread _ (follows_cons (by decide) rest) (by omega)]
        exact if_pos rfl
      | cons next parts =>
        have hnext : next :: parts ≠ [] := List.cons_ne_nil next parts
        rw [joined_cons hnext] at hfuel ⊢
        simp only [List.length_cons, List.length_append] at hfuel
        have hfollows : Follows (44 :: joined (next :: parts) ++ 125 :: rest) :=
          follows_cons (by decide) _
        rw [List.append_assoc, hread _ hfollows (by omega)]
        dsimp only [List.cons_append]
        rw [if_neg (by decide), if_pos rfl, ih hnext (by omega)]
        rfl

theorem reads_object {parts : List (List UInt8)} {fields : List (List UInt8 × Json)}
    (h : List.Forall₂ ReadsField parts fields) :
    Reads (123 :: (joined parts ++ [125])) (.object fields) := by
  intro fuel rest hfuel _
  cases fuel with
  | zero => exact absurd hfuel (Nat.not_succ_le_zero _)
  | succ fuel =>
    rw [List.cons_append, List.append_assoc, List.singleton_append, readValue,
      if_neg (by decide), if_neg (by decide), if_pos rfl]
    cases h with
    | nil => exact if_pos rfl
    | @cons bytes field parts fields hfirst hmore =>
      rcases hfirst with ⟨body, part, hkey, hvalue, rfl⟩
      have hhead : (joined ((34 :: (body ++ 34 :: 58 :: part)) :: parts) ++ 125 :: rest).head? =
          some 34 := by
        cases parts with
        | nil => rfl
        | cons next parts => rfl
      rw [List.length_cons, List.length_append, List.length_singleton] at hfuel
      rw [if_neg (by rw [hhead]; decide),
        readFields_joined (.cons ⟨body, part, hkey, hvalue, rfl⟩ hmore) (List.cons_ne_nil _ _)
          (by omega)]
      rfl

end Json
