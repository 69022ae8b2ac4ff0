import Deskhub.Cli.JsonEscape
import Deskhub.Net.RecordText

/-!
# The JSON writer

`JsonWriter` keeps the text so far and one flag: whether the next value or key needs a comma in
front. `Builder` is what the calls mean, a stack of open arrays and objects.
-/

namespace Deskhub

namespace Cli

/-- A value of an integral type other than `bool`. -/
structure Integral where
  value : Int
  inRange : -9223372036854775808 ≤ value ∧ value < 18446744073709551616

/-- `int64_t(value)`, as the templates have it. -/
def Integral.toInt64 (n : Integral) : Int64 := Int64.ofInt n.value

/-- A call of the writer. A `const char*` is no text where it is null. -/
inductive Call where
  | objectBegin
  | objectEnd
  | arrayBegin
  | arrayEnd
  | fieldBegin (key : Bytes)
  | fieldText (key value : Bytes)
  | fieldChars (key : Bytes) (value : Option Bytes)
  | fieldBool (key : Bytes) (value : Bool)
  | fieldNumber (key : Bytes) (value : Int64)
  | fieldIntegral (key : Bytes) (value : Integral)
  | valueText (value : Bytes)
  | valueChars (value : Option Bytes)
  | valueNumber (value : Int64)
  | valueIntegral (value : Integral)

structure JsonWriter where
  out : Bytes := []
  needComma : Bool := false

namespace JsonWriter

variable (w : JsonWriter)

def append (text : Bytes) : JsonWriter := { w with out := w.out ++ text }

def separator : JsonWriter :=
  { (if w.needComma then w.append (ascii ",") else w) with needComma := true }

def quoted (text : Bytes) : JsonWriter :=
  ((w.append (ascii "\"")).append (jsonEscape text)).append (ascii "\"")

def objectBegin : JsonWriter := { w.separator.append [123] with needComma := false }

def objectEnd : JsonWriter := { w.append [125] with needComma := true }

def arrayBegin : JsonWriter := { w.separator.append [91] with needComma := false }

def arrayEnd : JsonWriter := { w.append [93] with needComma := true }

def fieldBegin (key : Bytes) : JsonWriter :=
  { (w.separator.quoted key).append (ascii ":") with needComma := false }

def fieldText (key value : Bytes) : JsonWriter :=
  { (w.fieldBegin key).quoted value with needComma := true }

def fieldNumber (key : Bytes) (value : Int64) : JsonWriter :=
  { (w.fieldBegin key).append (timeText value) with needComma := true }

def fieldBool (key : Bytes) (value : Bool) : JsonWriter :=
  { (w.fieldBegin key).append (if value then ascii "true" else ascii "false") with
    needComma := true }

def valueText (value : Bytes) : JsonWriter := w.separator.quoted value

def valueNumber (value : Int64) : JsonWriter := w.separator.append (timeText value)

def call : Call → JsonWriter
  | .objectBegin => w.objectBegin
  | .objectEnd => w.objectEnd
  | .arrayBegin => w.arrayBegin
  | .arrayEnd => w.arrayEnd
  | .fieldBegin key => w.fieldBegin key
  | .fieldText key value => w.fieldText key value
  | .fieldChars key value => w.fieldText key (value.getD [])
  | .fieldBool key value => w.fieldBool key value
  | .fieldNumber key value => w.fieldNumber key value
  | .fieldIntegral key value => w.fieldNumber key value.toInt64
  | .valueText value => w.valueText value
  | .valueChars value => w.valueText (value.getD [])
  | .valueNumber value => w.valueNumber value
  | .valueIntegral value => w.valueNumber value.toInt64

end JsonWriter

/-- The writer behind the calls. -/
def runWriter (calls : List Call) : JsonWriter := calls.foldl JsonWriter.call {}

/-! ## What the calls mean -/

/-- An open array, an open object, or an open object behind a key. -/
inductive Frame where
  | array (items : List Json)
  | object (fields : List (Bytes × Json))
  | field (fields : List (Bytes × Json)) (key : Bytes)

/-- The open arrays and objects, the innermost in front, and the root value once it is there. -/
structure Builder where
  frames : List Frame := []
  root : Option Json := none

namespace Builder

variable (b : Builder)

/-- A value comes next: the root, an item, or the value of a field. -/
def put (t : Json) : Option Builder :=
  match b.frames with
  | [] => if b.root.isSome then none else some { b with root := some t }
  | .array items :: below => some { b with frames := .array (items ++ [t]) :: below }
  | .object _ :: _ => none
  | .field fields key :: below => some { b with frames := .object (fields ++ [(key, t)]) :: below }

/-- An array or an object opens where a value may come. -/
def begin (frame : Frame) : Option Builder :=
  match b.frames with
  | [] => if b.root.isSome then none else some { b with frames := [frame] }
  | .object _ :: _ => none
  | frames => some { b with frames := frame :: frames }

/-- A key comes in an object only, and not behind another key. -/
def putKey (key : Bytes) : Option Builder :=
  match b.frames with
  | .object fields :: below => some { b with frames := .field fields key :: below }
  | _ => none

/-- The innermost array or object is a value of what is around it. -/
def endArray : Option Builder :=
  match b.frames with
  | .array items :: below => { b with frames := below }.put (.array items)
  | _ => none

def endObject : Option Builder :=
  match b.frames with
  | .object fields :: below => { b with frames := below }.put (.object fields)
  | _ => none

def putField (key : Bytes) (t : Json) : Option Builder := (b.putKey key).bind fun b => b.put t

def call : Call → Option Builder
  | .objectBegin => b.begin (.object [])
  | .objectEnd => b.endObject
  | .arrayBegin => b.begin (.array [])
  | .arrayEnd => b.endArray
  | .fieldBegin key => b.putKey key
  | .fieldText key value => b.putField key (.text value)
  | .fieldChars key value => b.putField key (.text (value.getD []))
  | .fieldBool key value => b.putField key (.bool value)
  | .fieldNumber key value => b.putField key (.number value.toInt)
  | .fieldIntegral key value => b.putField key (.number value.value)
  | .valueText value => b.put (.text value)
  | .valueChars value => b.put (.text (value.getD []))
  | .valueNumber value => b.put (.number value.toInt)
  | .valueIntegral value => b.put (.number value.value)

end Builder

/-- The builder behind the calls, if they are well nested so far. -/
def runBuilder : Builder → List Call → Option Builder
  | b, [] => some b
  | b, c :: calls => (b.call c).bind fun b => runBuilder b calls

/-- The tree of calls that are well nested and write one root value. -/
def written (calls : List Call) : Option Json :=
  match runBuilder {} calls with
  | some { frames := [], root } => root
  | _ => none

end Cli

/-!
## What the JSON writer writes

The flag of the writer says what is open innermost, so the writer follows the builder call by call,
and the text of a whole tree is read as that tree: its texts repaired, and its numbers as 64-bit
numbers with a sign.
-/

open Utf8

namespace Cli

/-- The number that is written for a number. -/
def wrap (n : Int) : Int := (Int64.ofInt n).toInt

theorem wrap_int64 (n : Int64) : wrap n.toInt = n.toInt := by
  unfold wrap
  rw [Int64.ofInt_toInt]

/-! ## The text of a tree -/

def printed : Json → Bytes
  | .text s => 34 :: (jsonEscape s ++ [34])
  | .number n => timeText (Int64.ofInt n)
  | .bool b => if b then ascii "true" else ascii "false"
  | .array items => 91 :: (Json.joined (items.map fun v => printed v) ++ [93])
  | .object fields =>
    123 :: (Json.joined (fields.map fun f => 34 :: (jsonEscape f.1 ++ 34 :: 58 :: printed f.2)) ++
      [125])
termination_by t => sizeOf t
decreasing_by
  · next hin =>
    have hsize := List.sizeOf_lt_of_mem hin
    simp only [Json.array.sizeOf_spec]
    omega
  · next hin =>
    have hsize := List.sizeOf_lt_of_mem hin
    rcases f with ⟨key, v⟩
    simp only [Json.object.sizeOf_spec, Prod.mk.sizeOf_spec] at *
    omega

def printedField (field : Bytes × Json) : Bytes :=
  34 :: (jsonEscape field.1 ++ 34 :: 58 :: printed field.2)

/-! ### It is read as the tree -/

theorem numeral_decimal (n : Nat) : Json.Numeral (decimal n) n := by
  induction n using Nat.strong_induction_on with
  | _ n ih =>
    by_cases hsmall : n < 10
    · rw [decimal_of_lt hsmall]
      have hall : ∀ d < 10, Json.isDigit (digitByte d) = true ∧
          Json.digitsValue [digitByte d] = d := by decide
      refine ⟨?_, ⟨List.cons_ne_nil _ _, ?_⟩, (hall n hsmall).2⟩
      · intro c hc
        rw [List.mem_singleton.mp hc]
        exact (hall n hsmall).1
      · intro hzero
        rw [List.head?_cons, Option.some.injEq] at hzero
        rw [hzero]
    · have hlarge : 10 ≤ n := Nat.le_of_not_lt hsmall
      have hfront := ih (n / 10) (by omega)
      have hall : ∀ d < 10, Json.isDigit (digitByte d) = true ∧ (digitByte d).toNat - 48 = d := by
        decide
      have hlast := hall (n % 10) (by omega)
      rw [decimal_of_ge hlarge]
      refine ⟨?_, ⟨List.append_ne_nil_of_right_ne_nil _ (List.cons_ne_nil _ _), ?_⟩, ?_⟩
      · intro c hc
        rcases List.mem_append.mp hc with hin | hin
        · exact hfront.digit c hin
        · rw [List.mem_singleton.mp hin]
          exact hlast.1
      · -- the digits in front are those of a number that is not 0
        intro hzero
        rw [List.head?_append_of_ne_nil _ hfront.lead.1] at hzero
        have hvalue := hfront.value
        rw [hfront.lead.2 hzero] at hvalue
        have hnot : Json.digitsValue [48] = 0 := rfl
        omega
      · unfold Json.digitsValue
        rw [List.foldl_append, List.foldl_cons, List.foldl_nil, hlast.2]
        have hvalue := hfront.value
        unfold Json.digitsValue at hvalue
        omega

theorem reads_timeText (n : Int64) : Json.Reads (timeText n) (.number n.toInt) := by
  unfold timeText
  have hnumeral := numeral_decimal n.toInt.natAbs
  split
  · have hneg : n.toInt = -(n.toInt.natAbs : Int) := by omega
    have hreads := hnumeral.reads_neg
    rwa [← hneg] at hreads
  · have hpos : n.toInt = (n.toInt.natAbs : Int) := by omega
    have hreads := hnumeral.reads
    rwa [← hpos] at hreads

/-- The text of a tree is read as the tree with its texts repaired and its numbers wrapped. -/
theorem reads_printed (t : Json) : Json.Reads (printed t) (t.map repair wrap) := by
  induction t using Json.induct with
  | text s =>
    rw [printed, Json.map]
    exact (jsonEscape_spells s).2.reads
  | number n =>
    rw [printed, Json.map]
    exact reads_timeText _
  | bool b =>
    rw [printed, Json.map]
    cases b
    · exact Json.reads_false
    · exact Json.reads_true
  | array items ih =>
    rw [printed, Json.map]
    apply Json.reads_array
    rw [List.forall₂_map_left_iff, List.forall₂_map_right_iff, List.forall₂_same]
    exact ih
  | object fields ih =>
    rw [printed, Json.map]
    apply Json.reads_object
    rw [List.forall₂_map_left_iff, List.forall₂_map_right_iff, List.forall₂_same]
    intro field hfield
    exact ⟨_, _, (jsonEscape_spells field.1).2, ih field hfield, rfl⟩

/-! ### It is in UTF-8 -/

theorem wellFormed_joined {parts : List Bytes} (h : ∀ part ∈ parts, WellFormed part) :
    WellFormed (Json.joined parts) := by
  induction parts with
  | nil => exact .nil
  | cons part parts ih =>
    have hfirst := h part List.mem_cons_self
    cases parts with
    | nil => exact hfirst
    | cons next parts =>
      have hmore := ih fun p hp => h p (List.mem_cons_of_mem part hp)
      rw [Json.joined_cons (List.cons_ne_nil next parts)]
      exact hfirst.append (hmore.cons_ascii (by decide))

theorem wellFormed_bracketed {s : Bytes} (h : WellFormed s) {first last : UInt8}
    (hfirst : first ≤ 0x7F) (hlast : last ≤ 0x7F) : WellFormed (first :: (s ++ [last])) :=
  (h.append (WellFormed.nil.cons_ascii hlast)).cons_ascii hfirst

theorem wellFormed_timeText (n : Int64) : WellFormed (timeText n) := by
  have hdigits : WellFormed (decimal n.toInt.natAbs) := by
    apply wellFormed_of_ascii
    intro c hc
    have hhigh := (decimal_digits _ c hc).2
    exact UInt8.le_iff_toNat_le.mpr (Nat.le_trans hhigh (by decide))
  unfold timeText
  split
  · exact hdigits.cons_ascii (by decide)
  · exact hdigits

theorem wellFormed_printed (t : Json) : WellFormed (printed t) := by
  induction t using Json.induct with
  | text s =>
    rw [printed]
    exact wellFormed_bracketed (jsonEscape_spells s).1 (by decide) (by decide)
  | number n =>
    rw [printed]
    exact wellFormed_timeText _
  | bool b =>
    rw [printed]
    cases b
    · exact wellFormed_of_ascii (forall_of_all (by decide))
    · exact wellFormed_of_ascii (forall_of_all (by decide))
  | array items ih =>
    rw [printed]
    refine wellFormed_bracketed (wellFormed_joined ?_) (by decide) (by decide)
    intro part hpart
    rcases List.mem_map.mp hpart with ⟨v, hv, rfl⟩
    exact ih v hv
  | object fields ih =>
    rw [printed]
    refine wellFormed_bracketed (wellFormed_joined ?_) (by decide) (by decide)
    intro part hpart
    rcases List.mem_map.mp hpart with ⟨field, hfield, rfl⟩
    have hvalue := ih field hfield
    have hkey := (jsonEscape_spells field.1).1
    refine (hkey.append ?_).cons_ascii (by decide)
    exact (hvalue.cons_ascii (by decide)).cons_ascii (by decide)

/-! ## The writer follows the builder -/

/-- The text of what is open. -/
def Frame.text : Frame → Bytes
  | .array items => 91 :: Json.joined (items.map printed)
  | .object fields => 123 :: Json.joined (fields.map printedField)
  | .field fields key =>
    123 :: (Json.joined (fields.map printedField) ++ (if fields = [] then [] else [44]) ++
      34 :: (jsonEscape key ++ [34, 58]))

/-- Whether a comma is needed in front of what comes next in it. -/
def Frame.comma : Frame → Bool
  | .array items => !items.isEmpty
  | .object fields => !fields.isEmpty
  | .field _ _ => false

/-- A comma in front, if it is needed. -/
def commaText (needed : Bool) : Bytes := if needed then [44] else []

def framesComma : List Frame → Bool
  | [] => false
  | frame :: _ => frame.comma

def framesText : List Frame → Bytes
  | [] => []
  | frame :: below => framesText below ++ commaText (framesComma below) ++ frame.text

/-- The writer stands where the builder is. -/
inductive Stands : JsonWriter → Builder → Prop
  | inside (frames : List Frame) :
    Stands { out := framesText frames, needComma := framesComma frames } { frames, root := none }
  | done (t : Json) : Stands { out := printed t, needComma := true } { frames := [], root := some t }

/-- The writer behind a value: a comma if it is needed, then the value. -/
def JsonWriter.afterValue (w : JsonWriter) (t : Json) : JsonWriter :=
  { out := w.out ++ commaText w.needComma ++ printed t, needComma := true }

theorem ite_map_eq_nil {α : Type} {f : α → Bytes} {l : List α} :
    (if l.map f = [] then [] else [44] : Bytes) = commaText (!l.isEmpty) := by
  cases l with
  | nil => rfl
  | cons a l => rfl

theorem ite_eq_nil {α : Type} {l : List α} [Decidable (l = [])] :
    (if l = [] then [] else [44] : Bytes) = commaText (!l.isEmpty) := by
  cases l with
  | nil => exact if_pos rfl
  | cons a l => exact if_neg (List.cons_ne_nil a l)

/-- An item more in the innermost array. -/
theorem framesText_array (items : List Json) (t : Json) (below : List Frame) :
    framesText (.array (items ++ [t]) :: below) =
      framesText (.array items :: below) ++ commaText (framesComma (.array items :: below)) ++
        printed t := by
  dsimp only [framesText, framesComma, Frame.text, Frame.comma]
  rw [List.map_append, List.map_singleton, Json.joined_concat, ite_map_eq_nil]
  simp only [List.append_assoc, List.cons_append]

/-- The value behind the key. -/
theorem framesText_field (fields : List (Bytes × Json)) (key : Bytes) (t : Json)
    (below : List Frame) :
    framesText (.object (fields ++ [(key, t)]) :: below) =
      framesText (.field fields key :: below) ++ printed t := by
  dsimp only [framesText, Frame.text]
  rw [List.map_append, List.map_singleton, Json.joined_concat, ite_map_eq_nil, ite_eq_nil]
  simp only [printedField, List.append_assoc, List.cons_append, List.nil_append]

theorem not_isEmpty_concat {α : Type} (l : List α) (a : α) : (!(l ++ [a]).isEmpty) = true := by
  cases l with
  | nil => rfl
  | cons b l => rfl

/-- A value in the writer is a value in the builder. -/
theorem Stands.put {w : JsonWriter} {b b' : Builder} (h : Stands w b) {t : Json}
    (hput : b.put t = some b') : Stands (w.afterValue t) b' := by
  cases h with
  | inside frames =>
    match frames, hput with
    | [], hput =>
      cases hput
      exact .done t
    | .array items :: below, hput =>
      cases hput
      have hcomma : framesComma (.array (items ++ [t]) :: below) = true := not_isEmpty_concat items t
      have hstands := Stands.inside (.array (items ++ [t]) :: below)
      rw [framesText_array, hcomma] at hstands
      exact hstands
    | .field fields key :: below, hput =>
      cases hput
      have hcomma : framesComma (.object (fields ++ [(key, t)]) :: below) = true :=
        not_isEmpty_concat fields (key, t)
      have hstands := Stands.inside (.object (fields ++ [(key, t)]) :: below)
      rw [framesText_field, hcomma] at hstands
      -- no comma behind a key
      have hnone : commaText (framesComma (.field fields key :: below)) = [] := rfl
      unfold JsonWriter.afterValue
      rw [hnone, List.append_nil]
      exact hstands
  | done root => cases hput

/-- An array or an object opens. -/
theorem Stands.begin {w : JsonWriter} {b b' : Builder} (h : Stands w b) {frame : Frame}
    (hbegin : b.begin frame = some b') :
    Stands { out := w.out ++ commaText w.needComma ++ frame.text, needComma := frame.comma } b' := by
  cases h with
  | inside frames =>
    match frames, hbegin with
    | [], hbegin =>
      cases hbegin
      exact .inside [frame]
    | .array items :: below, hbegin =>
      cases hbegin
      exact .inside (frame :: .array items :: below)
    | .field fields key :: below, hbegin =>
      cases hbegin
      exact .inside (frame :: .field fields key :: below)
  | done root => cases hbegin

theorem JsonWriter.separator_eq (w : JsonWriter) :
    w.separator = { out := w.out ++ commaText w.needComma, needComma := true } := by
  unfold JsonWriter.separator commaText
  cases w.needComma
  · simp
  · rfl

theorem JsonWriter.fieldBegin_eq (w : JsonWriter) (key : Bytes) :
    w.fieldBegin key =
      { out := w.out ++ commaText w.needComma ++ 34 :: (jsonEscape key ++ [34, 58]),
        needComma := false } := by
  have hcolon : ascii ":" = [58] := rfl
  have hquote : ascii "\"" = [34] := rfl
  unfold JsonWriter.fieldBegin JsonWriter.quoted JsonWriter.append
  rw [w.separator_eq, hcolon, hquote]
  simp only [List.append_assoc, List.cons_append, List.nil_append]

/-- A text as a value. -/
theorem JsonWriter.valueText_eq (w : JsonWriter) (text : Bytes) :
    w.valueText text = w.afterValue (.text text) := by
  have hquote : ascii "\"" = [34] := rfl
  unfold JsonWriter.valueText JsonWriter.quoted JsonWriter.append JsonWriter.afterValue
  rw [w.separator_eq, hquote, printed]
  simp only [List.append_assoc, List.cons_append, List.nil_append]

theorem JsonWriter.valueNumber_eq (w : JsonWriter) (n : Int) :
    w.valueNumber (Int64.ofInt n) = w.afterValue (.number n) := by
  unfold JsonWriter.valueNumber JsonWriter.append JsonWriter.afterValue
  rw [w.separator_eq, printed]

/-- A field is its key and then its value. -/
theorem JsonWriter.fieldText_eq (w : JsonWriter) (key text : Bytes) :
    w.fieldText key text = (w.fieldBegin key).afterValue (.text text) := by
  rw [← JsonWriter.valueText_eq]
  unfold JsonWriter.fieldText JsonWriter.valueText
  rw [JsonWriter.separator_eq, w.fieldBegin_eq]
  unfold JsonWriter.quoted JsonWriter.append commaText
  simp

theorem JsonWriter.fieldNumber_eq (w : JsonWriter) (key : Bytes) (n : Int) :
    w.fieldNumber key (Int64.ofInt n) = (w.fieldBegin key).afterValue (.number n) := by
  unfold JsonWriter.fieldNumber JsonWriter.append JsonWriter.afterValue
  rw [w.fieldBegin_eq, printed]
  simp [commaText]

theorem JsonWriter.fieldBool_eq (w : JsonWriter) (key : Bytes) (b : Bool) :
    w.fieldBool key b = (w.fieldBegin key).afterValue (.bool b) := by
  unfold JsonWriter.fieldBool JsonWriter.append JsonWriter.afterValue
  rw [w.fieldBegin_eq, printed]
  simp [commaText]

/-- A key. -/
theorem Stands.putKey {w : JsonWriter} {b b' : Builder} (h : Stands w b) {key : Bytes}
    (hkey : b.putKey key = some b') : Stands (w.fieldBegin key) b' := by
  cases h with
  | inside frames =>
    match frames, hkey with
    | .object fields :: below, hkey =>
      cases hkey
      have hstands := Stands.inside (.field fields key :: below)
      have htext : framesText (.field fields key :: below) =
          framesText (.object fields :: below) ++ commaText (framesComma (.object fields :: below)) ++
            34 :: (jsonEscape key ++ [34, 58]) := by
        dsimp only [framesText, framesComma, Frame.text, Frame.comma]
        rw [ite_eq_nil]
        simp only [List.append_assoc, List.cons_append]
      rw [htext] at hstands
      rw [JsonWriter.fieldBegin_eq]
      exact hstands
  | done root => cases hkey

theorem Stands.putField {w : JsonWriter} {b b' : Builder} (h : Stands w b) {key : Bytes} {t : Json}
    (hput : b.putField key t = some b') : Stands ((w.fieldBegin key).afterValue t) b' := by
  unfold Builder.putField at hput
  rcases Option.bind_eq_some_iff.mp hput with ⟨middle, hkey, hvalue⟩
  exact (h.putKey hkey).put hvalue

theorem Stands.endArray {w : JsonWriter} {b b' : Builder} (h : Stands w b)
    (hend : b.endArray = some b') : Stands w.arrayEnd b' := by
  cases h with
  | inside frames =>
    match frames, hend with
    | .array items :: below, hend =>
      have hstands := (Stands.inside below).put hend
      have htext : framesText below ++ commaText (framesComma below) ++ printed (.array items) =
          framesText (.array items :: below) ++ [93] := by
        rw [printed]
        dsimp only [framesText, Frame.text]
        simp only [List.append_assoc, List.cons_append]
      unfold JsonWriter.afterValue at hstands
      rw [htext] at hstands
      exact hstands
  | done root => cases hend

theorem Stands.endObject {w : JsonWriter} {b b' : Builder} (h : Stands w b)
    (hend : b.endObject = some b') : Stands w.objectEnd b' := by
  cases h with
  | inside frames =>
    match frames, hend with
    | .object fields :: below, hend =>
      have hstands := (Stands.inside below).put hend
      have htext : framesText below ++ commaText (framesComma below) ++ printed (.object fields) =
          framesText (.object fields :: below) ++ [125] := by
        rw [printed]
        dsimp only [framesText, Frame.text]
        simp only [List.append_assoc, List.cons_append]
        rfl
      unfold JsonWriter.afterValue at hstands
      rw [htext] at hstands
      exact hstands
  | done root => cases hend

/-- The step lemma: a call of the writer is the call of the builder. -/
theorem Stands.call {w : JsonWriter} {b b' : Builder} (h : Stands w b) {c : Call}
    (hcall : b.call c = some b') : Stands (w.call c) b' := by
  cases c with
  | objectBegin =>
    have hstands := h.begin hcall
    unfold JsonWriter.call JsonWriter.objectBegin JsonWriter.append
    rw [w.separator_eq]
    exact hstands
  | objectEnd => exact h.endObject hcall
  | arrayBegin =>
    have hstands := h.begin hcall
    unfold JsonWriter.call JsonWriter.arrayBegin JsonWriter.append
    rw [w.separator_eq]
    exact hstands
  | arrayEnd => exact h.endArray hcall
  | fieldBegin key => exact h.putKey hcall
  | fieldText key value =>
    rw [JsonWriter.call, w.fieldText_eq]
    exact h.putField hcall
  | fieldChars key value =>
    rw [JsonWriter.call, w.fieldText_eq]
    exact h.putField hcall
  | fieldBool key value =>
    rw [JsonWriter.call, w.fieldBool_eq]
    exact h.putField hcall
  | fieldNumber key value =>
    have hvalue := w.fieldNumber_eq key value.toInt
    rw [Int64.ofInt_toInt] at hvalue
    rw [JsonWriter.call, hvalue]
    exact h.putField hcall
  | fieldIntegral key value =>
    rw [JsonWriter.call, Integral.toInt64, w.fieldNumber_eq]
    exact h.putField hcall
  | valueText value =>
    rw [JsonWriter.call, w.valueText_eq]
    exact h.put hcall
  | valueChars value =>
    rw [JsonWriter.call, w.valueText_eq]
    exact h.put hcall
  | valueNumber value =>
    have hvalue := w.valueNumber_eq value.toInt
    rw [Int64.ofInt_toInt] at hvalue
    rw [JsonWriter.call, hvalue]
    exact h.put hcall
  | valueIntegral value =>
    rw [JsonWriter.call, Integral.toInt64, w.valueNumber_eq]
    exact h.put hcall

theorem Stands.run {w : JsonWriter} {b b' : Builder} (h : Stands w b) {calls : List Call}
    (hrun : runBuilder b calls = some b') : Stands (calls.foldl JsonWriter.call w) b' := by
  induction calls generalizing w b with
  | nil =>
    cases hrun
    exact h
  | cons c calls ih =>
    rcases Option.bind_eq_some_iff.mp hrun with ⟨middle, hcall, hrest⟩
    exact ih (h.call hcall) hrest

/-- What well-nested calls write is the text of their tree. -/
theorem out_runWriter {calls : List Call} {t : Json} (h : written calls = some t) :
    (runWriter calls).out = printed t := by
  unfold written at h
  split at h
  · next root hrun =>
    have hstands := (Stands.inside []).run hrun
    rw [h] at hstands
    unfold runWriter
    generalize hw : calls.foldl JsonWriter.call {} = w
    have hsame : w = calls.foldl JsonWriter.call
        { out := framesText [], needComma := framesComma [] } := hw.symm
    rw [← hsame] at hstands
    cases hstands
    rfl
  · cases h

/-- It is in UTF-8, and it is read as the tree with its texts repaired and its numbers wrapped. -/
theorem decode_runWriter {calls : List Call} {t : Json} (h : written calls = some t) :
    WellFormed (runWriter calls).out ∧
      Json.decode (runWriter calls).out = some (t.map repair wrap) := by
  rw [out_runWriter h]
  exact ⟨wellFormed_printed t, Json.decode_of_reads (reads_printed t)⟩

/-! ## The numbers of a tree are those of its calls -/

/-- A property of the number of a call. -/
def Call.All (P : Int → Prop) : Call → Prop
  | .fieldNumber _ value => P value.toInt
  | .fieldIntegral _ value => P value.value
  | .valueNumber value => P value.toInt
  | .valueIntegral value => P value.value
  | _ => True

def Frame.All (P : Int → Prop) : Frame → Prop
  | .array items => ∀ v ∈ items, v.All P
  | .object fields => ∀ field ∈ fields, field.2.All P
  | .field fields _ => ∀ field ∈ fields, field.2.All P

def Builder.All (P : Int → Prop) (b : Builder) : Prop :=
  (∀ frame ∈ b.frames, frame.All P) ∧ ∀ t, b.root = some t → t.All P

section All

variable {P : Int → Prop} {b b' : Builder}

theorem all_array_append (items : List Json) (t : Json) :
    (Frame.array (items ++ [t])).All P ↔ (Frame.array items).All P ∧ t.All P := by
  simp [Frame.All, or_imp, forall_and]

theorem all_field_append (fields : List (Bytes × Json)) (key : Bytes) (t : Json) :
    (Frame.object (fields ++ [(key, t)])).All P ↔ (Frame.field fields key).All P ∧ t.All P := by
  simp [Frame.All, or_imp, forall_and]

theorem all_put {t : Json} (hput : b.put t = some b') : b'.All P ↔ b.All P ∧ t.All P := by
  unfold Builder.put at hput
  split at hput
  · next hframes =>
    split at hput
    · cases hput
    · next hroot =>
      cases hput
      have hnone : b.root = none := by simpa using hroot
      simp [Builder.All, hframes, hnone]
  · next hframes =>
    cases hput
    simp only [Builder.All, hframes, List.forall_mem_cons, all_array_append]
    tauto
  · cases hput
  · next hframes =>
    cases hput
    simp only [Builder.All, hframes, List.forall_mem_cons, all_field_append]
    tauto

theorem all_begin {frame : Frame} (hframe : frame.All P) (hbegin : b.begin frame = some b') :
    b'.All P ↔ b.All P := by
  unfold Builder.begin at hbegin
  split at hbegin
  · next hframes =>
    split at hbegin
    · cases hbegin
    · cases hbegin
      simp [Builder.All, hframes, hframe]
  · cases hbegin
  · cases hbegin
    simp [Builder.All, hframe]

theorem all_putKey {key : Bytes} (hkey : b.putKey key = some b') : b'.All P ↔ b.All P := by
  unfold Builder.putKey at hkey
  split at hkey
  · next hframes =>
    cases hkey
    simp [Builder.All, Frame.All, hframes]
  · cases hkey

theorem all_putField {key : Bytes} {t : Json} (hput : b.putField key t = some b') :
    b'.All P ↔ b.All P ∧ t.All P := by
  unfold Builder.putField at hput
  rcases Option.bind_eq_some_iff.mp hput with ⟨middle, hkey, hvalue⟩
  rw [all_put hvalue, all_putKey hkey]

theorem all_endArray (hend : b.endArray = some b') : b'.All P ↔ b.All P := by
  unfold Builder.endArray at hend
  split at hend
  · next hframes =>
    rw [all_put hend, Json.All]
    simp only [Builder.All, Frame.All, hframes, List.forall_mem_cons]
    grind
  · cases hend

theorem all_endObject (hend : b.endObject = some b') : b'.All P ↔ b.All P := by
  unfold Builder.endObject at hend
  split at hend
  · next hframes =>
    rw [all_put hend, Json.All]
    simp only [Builder.All, Frame.All, hframes, List.forall_mem_cons]
    grind
  · cases hend

/-- The step lemma: a call adds its number. -/
theorem all_call {c : Call} (hcall : b.call c = some b') : b'.All P ↔ b.All P ∧ c.All P := by
  cases c with
  | objectBegin =>
    rw [all_begin (by simp [Frame.All]) hcall]
    exact (and_iff_left trivial).symm
  | objectEnd =>
    rw [all_endObject hcall]
    exact (and_iff_left trivial).symm
  | arrayBegin =>
    rw [all_begin (by simp [Frame.All]) hcall]
    exact (and_iff_left trivial).symm
  | arrayEnd =>
    rw [all_endArray hcall]
    exact (and_iff_left trivial).symm
  | fieldBegin key =>
    rw [all_putKey hcall]
    exact (and_iff_left trivial).symm
  | fieldText key value =>
    rw [all_putField hcall, Json.All]
    rfl
  | fieldChars key value =>
    rw [all_putField hcall, Json.All]
    rfl
  | fieldBool key value =>
    rw [all_putField hcall, Json.All]
    rfl
  | fieldNumber key value =>
    rw [all_putField hcall, Json.All]
    rfl
  | fieldIntegral key value =>
    rw [all_putField hcall, Json.All]
    rfl
  | valueText value =>
    rw [all_put hcall, Json.All]
    rfl
  | valueChars value =>
    rw [all_put hcall, Json.All]
    rfl
  | valueNumber value =>
    rw [all_put hcall, Json.All]
    rfl
  | valueIntegral value =>
    rw [all_put hcall, Json.All]
    rfl

theorem all_run {calls : List Call} (hrun : runBuilder b calls = some b') :
    b'.All P ↔ b.All P ∧ ∀ c ∈ calls, c.All P := by
  induction calls generalizing b with
  | nil =>
    cases hrun
    simp
  | cons c calls ih =>
    rcases Option.bind_eq_some_iff.mp hrun with ⟨middle, hcall, hrest⟩
    rw [ih hrest, all_call hcall, List.forall_mem_cons, and_assoc]

end All

theorem all_written {P : Int → Prop} {calls : List Call} {t : Json} (h : written calls = some t) :
    t.All P ↔ ∀ c ∈ calls, c.All P := by
  unfold written at h
  split at h
  · next root hrun =>
    have hall := all_run (P := P) hrun
    rw [h] at hall
    simpa [Builder.All] using hall
  · cases h

/-! ## When the tree that is read is the tree that was written -/

/-- The number of a call fits in 64 bits with a sign. -/
def Call.Fits : Call → Prop
  | .fieldIntegral _ value => value.value < 9223372036854775808
  | .valueIntegral value => value.value < 9223372036854775808
  | _ => True

instance : DecidablePred Call.Fits := fun c => by
  cases c
  all_goals unfold Call.Fits
  all_goals infer_instance

theorem wrap_eq_iff (n : Integral) : wrap n.value = n.value ↔ n.value < 9223372036854775808 := by
  have hrange := n.inRange
  have hsize : (Int64.size : Int) = 18446744073709551616 := rfl
  unfold wrap
  rw [Int64.toInt_ofInt, Int.bmod_def, hsize]
  split
  · omega
  · omega

theorem all_wrap_iff (c : Call) : (c.All fun n => wrap n = n) ↔ c.Fits := by
  cases c with
  | fieldNumber key value => exact iff_of_true (wrap_int64 value) trivial
  | valueNumber value => exact iff_of_true (wrap_int64 value) trivial
  | fieldIntegral key value => exact wrap_eq_iff value
  | valueIntegral value => exact wrap_eq_iff value
  | _ => exact Iff.rfl

/-- The output is JSON in UTF-8 that decodes to the written tree, its texts repaired, exactly when
every number fits. -/
theorem runWriter_decodes_iff {calls : List Call} {t : Json} (h : written calls = some t) :
    (WellFormed (runWriter calls).out ∧
        Json.decode (runWriter calls).out = some (t.map repair fun n => n)) ↔
      ∀ c ∈ calls, c.Fits := by
  rcases decode_runWriter h with ⟨hformed, hdecode⟩
  rw [hdecode, Option.some.injEq, Json.map_eq_map_iff, all_written h]
  constructor
  · rintro ⟨-, hall⟩ c hc
    exact (all_wrap_iff c).mp (hall c hc)
  · intro hfits
    exact ⟨hformed, fun c hc => (all_wrap_iff c).mpr (hfits c hc)⟩

/-- An object with a text that is not UTF-8, and a number. -/
theorem runWriter_decodes_object :
    WellFormed (runWriter [.objectBegin, .fieldText (ascii "name") [0xFF], .fieldBegin (ascii "ids"),
        .arrayBegin, .valueNumber (-1), .arrayEnd, .objectEnd]).out ∧
      Json.decode (runWriter [.objectBegin, .fieldText (ascii "name") [0xFF],
          .fieldBegin (ascii "ids"), .arrayBegin, .valueNumber (-1), .arrayEnd, .objectEnd]).out =
        some (Json.map repair (fun n => n)
          (.object [(ascii "name", .text [0xFF]), (ascii "ids", .array [.number (-1)])])) :=
  (runWriter_decodes_iff rfl).mpr (by decide)

/-- The largest power of two that an unsigned number has is written as a negative number. -/
theorem not_decodes_unsigned :
    ¬ ∀ (calls : List Call) (t : Json), written calls = some t →
      WellFormed (runWriter calls).out ∧
        Json.decode (runWriter calls).out = some (t.map repair fun n => n) := by
  intro h
  have hwritten : written [.objectBegin,
      .fieldIntegral (ascii "n") ⟨9223372036854775808, by decide⟩, .objectEnd] =
      some (.object [(ascii "n", .number 9223372036854775808)]) := rfl
  have hsame := (decode_runWriter hwritten).2.symm.trans (h _ _ hwritten).2
  rw [Option.some.injEq, Json.map_eq_map_iff, all_written hwritten] at hsame
  have hwrap := hsame (.fieldIntegral (ascii "n") ⟨9223372036854775808, by decide⟩) (by simp)
  exact absurd ((all_wrap_iff _).mp hwrap) (by decide)

end Cli

end Deskhub
