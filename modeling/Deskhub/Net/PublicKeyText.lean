import Deskhub.Net.Base64
import Deskhub.Net.RecordText

/-!
# Public keys as text

`FormatPublicKeyText`: the one line a public key is written in, and which keys have one;
`ParsePublicKeyText`: the key a line stands for.
-/

namespace Deskhub

inductive PublicKeyAlgorithm where
  | ed25519
  | ecdsaP256
deriving DecidableEq

structure PublicKeyText where
  algorithm : PublicKeyAlgorithm := .ed25519
  blob : Bytes := []
  label : Bytes := []
deriving DecidableEq

def kEd25519 : Bytes := ascii "ssh-ed25519"
def kEcdsaP256 : Bytes := ascii "ecdsa-sha2-nistp256"
def kCurve : Bytes := ascii "nistp256"
def kMaxTextBytes : Nat := 2048
def kMaxLabelBytes : Nat := 64

/-- `ReadString`: a length of four bytes, the most significant first, and as many bytes. -/
def readString (input : Bytes) : Option (Bytes × Bytes) :=
  if input.length < 4 then none
  else
    let length := ((byteAt input 0).toNat <<< 24) ||| ((byteAt input 1).toNat <<< 16) |||
      ((byteAt input 2).toNat <<< 8) ||| (byteAt input 3).toNat
    let rest := input.drop 4
    if rest.length < length then none else some (rest.take length, rest.drop length)

/-- `ValidBlob`: the strings in the blob are those of the algorithm, and nothing follows. -/
def validBlob (key : PublicKeyText) : Bool :=
  match readString key.blob with
  | none => false
  | some (algorithm, input) =>
    match key.algorithm with
    | .ed25519 =>
      match readString input with
      | none => false
      | some (bytes, rest) => algorithm = kEd25519 ∧ bytes.length = 32 ∧ rest = []
    | .ecdsaP256 =>
      match readString input with
      | none => false
      | some (curve, input) =>
        match readString input with
        | none => false
        | some (point, rest) =>
          algorithm = kEcdsaP256 ∧ curve = kCurve ∧ point.length = 65 ∧ byteAt point 0 = 4 ∧
            rest = []

/-- The name of an algorithm in the text. -/
def typeOf : PublicKeyAlgorithm → Bytes
  | .ed25519 => kEd25519
  | .ecdsaP256 => kEcdsaP256

def formatPublicKeyText (key : PublicKeyText) : Bytes :=
  if validBlob key = false ∨ kMaxLabelBytes < key.label.length then []
  else if key.label.any fun c => c < 32 ∨ c = 127 then []
  else
    let text := typeOf key.algorithm ++ [32] ++ encodeBase64 key.blob .standard .equals
    if key.label = [] then text else text ++ [32] ++ key.label

/-- Where a word ends: at a space or at a tab. -/
def endsWord (c : UInt8) : Bool := c = 32 ∨ c = 9

def parsePublicKeyText (text : Bytes) : Option PublicKeyText :=
  if text = [] ∨ kMaxTextBytes < text.length then none
  else
    let text := trim text
    match text.findIdx? endsWord with
    | none => none
    | some typeEnd =>
      let type := text.take typeEnd
      if type ≠ kEd25519 ∧ type ≠ kEcdsaP256 then none
      else
        let text := trim (text.drop typeEnd)
        let bodyEnd := (text.findIdx? endsWord).getD text.length
        let body := text.take bodyEnd
        let text := trim (text.drop bodyEnd)
        if kMaxLabelBytes < text.length then none
        else if text.any fun c => c < 32 ∨ c = 127 then none
        else
          match decodeBase64 body .standard with
          | none => none
          | some blob =>
            let algorithm := if type = kEd25519 then PublicKeyAlgorithm.ed25519 else .ecdsaP256
            let key : PublicKeyText := { algorithm := algorithm, blob := blob, label := text }
            if validBlob key = false then none else some key

/-! ## Keys that are the same -/

/-- `SameKey`, of the requests and of the authorized keys. -/
def sameKey (a b : PublicKeyText) : Bool := a.algorithm = b.algorithm ∧ a.blob = b.blob

/-- What `SameKey` compares. -/
def PublicKeyText.identity (key : PublicKeyText) : PublicKeyAlgorithm × Bytes :=
  (key.algorithm, key.blob)

theorem sameKey_iff {a b : PublicKeyText} : sameKey a b = true ↔ a.identity = b.identity := by
  unfold sameKey PublicKeyText.identity
  rw [decide_eq_true_iff, Prod.mk.injEq]

theorem sameKey_eq_false {a b : PublicKeyText} :
    sameKey a b = false ↔ a.identity ≠ b.identity := by
  rw [← Bool.not_eq_true, sameKey_iff]

/-!
## The line of a public key

A key that has a line is read back from it. Of its label only the blanks at the ends are lost:
they are trimmed with the line or with what stands behind the blob.
-/

open Base64

/-! ## Blobs -/

theorem readString_length {input value rest : Bytes} (h : readString input = some (value, rest)) :
    input.length = 4 + value.length + rest.length := by
  unfold readString at h
  split at h
  · contradiction
  · dsimp only at h
    split at h
    · contradiction
    · next hlong hfits =>
      rw [Option.some.injEq, Prod.mk.injEq] at h
      rw [← h.1, ← h.2]
      simp only [List.length_take, List.length_drop] at hfits ⊢
      omega

theorem validBlob_length {key : PublicKeyText} (h : validBlob key = true) :
    key.blob ≠ [] ∧ key.blob.length ≤ 104 := by
  have hed : kEd25519.length = 11 := rfl
  have hecdsa : kEcdsaP256.length = 19 := rfl
  have hcurve : kCurve.length = 8 := rfl
  have hsizes : key.blob.length = 51 ∨ key.blob.length = 104 := by
    unfold validBlob at h
    cases hfirst : readString key.blob with
    | none =>
      rw [hfirst] at h
      contradiction
    | some first =>
      have hfirstLen := readString_length hfirst
      rw [hfirst] at h
      dsimp only at h
      cases hsecond : readString first.2 with
      | none =>
        rw [hsecond] at h
        split at h <;> contradiction
      | some second =>
        have hsecondLen := readString_length hsecond
        rw [hsecond] at h
        dsimp only at h
        split at h
        · have hparts := of_decide_eq_true h
          rw [hparts.1] at hfirstLen
          rw [hparts.2.1, hparts.2.2, List.length_nil] at hsecondLen
          left
          omega
        · cases hthird : readString second.2 with
          | none =>
            rw [hthird] at h
            contradiction
          | some third =>
            have hthirdLen := readString_length hthird
            rw [hthird] at h
            have hparts := of_decide_eq_true h
            rw [hparts.1] at hfirstLen
            rw [hparts.2.1] at hsecondLen
            rw [hparts.2.2.1, hparts.2.2.2.2, List.length_nil] at hthirdLen
            right
            omega
  constructor
  · intro hnil
    rw [hnil] at hsizes
    simp at hsizes
  · omega

theorem encodeBase64_ne_nil {bytes : Bytes} (hne : bytes ≠ []) : encodeBase64 bytes .standard .equals ≠ [] := by
  intro hnil
  have hdecode := decodeBase64_encodeBase64 hne .standard .equals
  rw [hnil] at hdecode
  contradiction

/-! ## What is written -/

/-- A label that can be written. -/
structure LabelFits (label : Bytes) : Prop where
  length : label.length ≤ kMaxLabelBytes
  printable : ∀ c ∈ label, ¬(c < 32 ∨ c = 127)

theorem LabelFits.trim {label : Bytes} (h : LabelFits label) : LabelFits (trim label) where
  length := Nat.le_trans (trim_sublist label).length_le h.length
  printable := fun c hc => h.printable c ((trim_sublist label).subset hc)

/-- The line up to the label. -/
def keyText (key : PublicKeyText) : Bytes :=
  typeOf key.algorithm ++ 32 :: encodeBase64 key.blob .standard .equals

/-- What is written of a label. -/
def labelText (label : Bytes) : Bytes := if label = [] then [] else 32 :: label

theorem formatPublicKeyText_eq {key : PublicKeyText} (hblob : validBlob key = true)
    (hlabel : LabelFits key.label) : formatPublicKeyText key = keyText key ++ labelText key.label := by
  have hprintable : (key.label.any fun c => c < 32 ∨ c = 127) = false := by
    rw [List.any_eq_false]
    intro c hc
    rw [decide_eq_true_iff]
    exact hlabel.printable c hc
  unfold formatPublicKeyText keyText labelText
  rw [if_neg, hprintable]
  · dsimp only
    rw [if_neg Bool.false_ne_true]
    by_cases hempty : key.label = []
    · rw [if_pos hempty, if_pos hempty, List.append_nil, List.append_assoc]
      rfl
    · rw [if_neg hempty, if_neg hempty, List.append_assoc, List.append_assoc, List.append_assoc,
        List.append_assoc]
      rfl
  · rw [hblob]
    have hlength := hlabel.length
    rintro (hbad | hlong)
    · contradiction
    · omega

/-- The keys that have a line. -/
theorem formatPublicKeyText_ne_nil {key : PublicKeyText} :
    formatPublicKeyText key ≠ [] ↔ validBlob key = true ∧ LabelFits key.label := by
  constructor
  · intro h
    unfold formatPublicKeyText at h
    split at h
    · contradiction
    · next hsizes =>
      split at h
      · contradiction
      · next hprintable =>
        push Not at hsizes
        refine ⟨by simpa using hsizes.1, hsizes.2, ?_⟩
        intro c hc hbad
        exact hprintable (List.any_eq_true.mpr ⟨c, hc, decide_eq_true hbad⟩)
  · rintro ⟨hblob, hlabel⟩
    rw [formatPublicKeyText_eq hblob hlabel]
    apply List.append_ne_nil_of_left_ne_nil
    exact List.append_ne_nil_of_right_ne_nil _ (List.cons_ne_nil _ _)

/-- The key without blanks at the ends of its label. -/
def PublicKeyText.trimmed (key : PublicKeyText) : PublicKeyText := { key with label := trim key.label }

theorem formatPublicKeyText_trimmed {key : PublicKeyText} (h : formatPublicKeyText key ≠ []) :
    formatPublicKeyText key.trimmed ≠ [] := by
  rw [formatPublicKeyText_ne_nil] at h ⊢
  exact ⟨h.1, h.2.trim⟩

theorem typeOf_visible (algorithm : PublicKeyAlgorithm) :
    typeOf algorithm ≠ [] ∧ (typeOf algorithm).length ≤ 19 ∧ ∀ c ∈ typeOf algorithm, 32 < c.toNat := by
  cases algorithm
  · exact ⟨by decide, by decide, forall_of_all (by decide)⟩
  · exact ⟨by decide, by decide, forall_of_all (by decide)⟩

/-- The line of a key: how long it is, what its bytes are and how it begins. -/
theorem formatPublicKeyText_text {key : PublicKeyText} (h : formatPublicKeyText key ≠ []) :
    (formatPublicKeyText key).length ≤ 297 ∧ (∀ c ∈ formatPublicKeyText key, 32 ≤ c.toNat) ∧
      ∀ c, (formatPublicKeyText key).head? = some c → c = 115 ∨ c = 101 := by
  obtain ⟨hblob, hlabel⟩ := formatPublicKeyText_ne_nil.mp h
  obtain ⟨-, htypeLen, htype⟩ := typeOf_visible key.algorithm
  obtain ⟨hbody, hbodyLen⟩ := encodeBase64_equals key.blob .standard
  have hblobLen := (validBlob_length hblob).2
  have hlabelLen := hlabel.length
  have hmax : kMaxLabelBytes = 64 := rfl
  rw [formatPublicKeyText_eq hblob hlabel]
  unfold keyText labelText
  refine ⟨?_, ?_, ?_⟩
  · rw [List.length_append, List.length_append, List.length_cons]
    split
    · rw [List.length_nil]
      omega
    · rw [List.length_cons]
      omega
  · intro c hc
    rcases List.mem_append.mp hc with hkey | hrest
    · rcases List.mem_append.mp hkey with htext | hbehind
      · exact Nat.le_of_lt (htype c htext)
      · rcases List.mem_cons.mp hbehind with rfl | hsymbol
        · decide
        · exact Nat.le_of_lt (hbody c hsymbol)
    · split at hrest
      · contradiction
      · rcases List.mem_cons.mp hrest with rfl | hchar
        · decide
        · have hprintable := hlabel.printable c hchar
          rw [not_or, UInt8.lt_iff_toNat_lt] at hprintable
          exact Nat.not_lt.mp hprintable.1
  · intro c hc
    cases halgorithm : key.algorithm with
    | ed25519 =>
      rw [halgorithm] at hc
      exact .inl (Option.some.inj hc).symm
    | ecdsaP256 =>
      rw [halgorithm] at hc
      exact .inr (Option.some.inj hc).symm

/-! ## What is read -/

theorem findIdx?_append_cons {p : UInt8 → Bool} {front : Bytes} (h : ∀ d ∈ front, p d = false) {c : UInt8}
    (hc : p c = true) (rest : Bytes) : (front ++ c :: rest).findIdx? p = some front.length := by
  have hnone : front.findIdx? p = none := List.findIdx?_eq_none_iff.mpr h
  rw [List.findIdx?_append, hnone, List.findIdx?_cons, hc]
  simp

theorem endsWord_of_visible {s : Bytes} (h : ∀ c ∈ s, 32 < c.toNat) : ∀ c ∈ s, endsWord c = false := by
  intro c hc
  have hlow := h c hc
  apply decide_eq_false
  rintro (rfl | rfl)
  · exact absurd hlow (by decide)
  · exact absurd hlow (by decide)

theorem typeOf_cases (algorithm : PublicKeyAlgorithm) :
    ¬(typeOf algorithm ≠ kEd25519 ∧ typeOf algorithm ≠ kEcdsaP256) ∧
      (if typeOf algorithm = kEd25519 then PublicKeyAlgorithm.ed25519 else .ecdsaP256) = algorithm := by
  cases algorithm
  · exact ⟨fun h => h.1 rfl, rfl⟩
  · exact ⟨fun h => h.2 rfl, rfl⟩

theorem trim_labelText (label : Bytes) : trim (labelText label) = trim label := by
  unfold labelText
  split
  · next hempty => rw [hempty]
  · exact trim_cons_blank rfl label

/-- The blanks at the end of a label go with the line. -/
theorem trim_formatPublicKeyText {key : PublicKeyText} (h : formatPublicKeyText key ≠ []) :
    trim (formatPublicKeyText key) = keyText key ++ (labelText key.label).rdropWhile isBlank := by
  obtain ⟨hblob, hlabel⟩ := formatPublicKeyText_ne_nil.mp h
  obtain ⟨htypeNe, -, htype⟩ := typeOf_visible key.algorithm
  have hbody := (encodeBase64_equals key.blob .standard).1
  have hbodyNe := encodeBase64_ne_nil (validBlob_length hblob).1
  rw [formatPublicKeyText_eq hblob hlabel]
  apply trim_append
  · exact List.append_ne_nil_of_left_ne_nil htypeNe _
  · constructor
    · intro c hc
      unfold keyText at hc
      rw [List.head?_append_of_ne_nil _ htypeNe] at hc
      exact (trimmed_of_visible htype).1 c hc
    · intro c hc
      unfold keyText at hc
      rw [List.getLast?_append_of_ne_nil _ (List.cons_ne_nil _ _), List.getLast?_cons_of_ne_nil hbodyNe] at hc
      exact (trimmed_of_visible hbody).2 c hc

/-- Where the blob ends. -/
theorem bodyEnd_eq {body rest : Bytes} (hbody : ∀ c ∈ body, 32 < c.toNat)
    (hrest : ∀ c, rest.head? = some c → c = 32) :
    ((body ++ rest).findIdx? endsWord).getD (body ++ rest).length = body.length := by
  cases rest with
  | nil =>
    have hnone : (body ++ []).findIdx? endsWord = none := by
      rw [List.append_nil]
      exact List.findIdx?_eq_none_iff.mpr (endsWord_of_visible hbody)
    rw [hnone, List.append_nil]
    rfl
  | cons c rest =>
    have hc := hrest c rfl
    rw [findIdx?_append_cons (endsWord_of_visible hbody) (by rw [hc]; rfl)]
    rfl

/-- A key is read from its line, and from what trims to its line. -/
theorem parsePublicKeyText_of_trim {text : Bytes} {key : PublicKeyText} (hne : text ≠ [])
    (hlength : text.length ≤ kMaxTextBytes) (h : formatPublicKeyText key ≠ [])
    (htrim : trim text = trim (formatPublicKeyText key)) : parsePublicKeyText text = some key.trimmed := by
  obtain ⟨hblob, hlabel⟩ := formatPublicKeyText_ne_nil.mp h
  have htype := (typeOf_visible key.algorithm).2.2
  have hbody := (encodeBase64_equals key.blob .standard).1
  have hdecode := decodeBase64_encodeBase64 (validBlob_length hblob).1 .standard .equals
  have hbodyNe := encodeBase64_ne_nil (validBlob_length hblob).1
  rw [trim_formatPublicKeyText h] at htrim
  -- what is left behind the blob is a space and the label, or nothing
  have hhead : ∀ c, ((labelText key.label).rdropWhile isBlank).head? = some c → c = 32 := by
    intro c hc
    obtain ⟨back, hback⟩ := List.rdropWhile_prefix isBlank (l := labelText key.label)
    have hfirst : (labelText key.label).head? = some c := by
      rw [← hback, List.head?_append, hc]
      rfl
    unfold labelText at hfirst
    split at hfirst
    · contradiction
    · exact (Option.some.inj hfirst).symm
  have hrest : trim ((labelText key.label).rdropWhile isBlank) = trim key.label := by
    rw [trim_rdropWhile, trim_labelText]
  have hidem : ((labelText key.label).rdropWhile isBlank).rdropWhile isBlank =
      (labelText key.label).rdropWhile isBlank := List.rdropWhile_idempotent _ _
  generalize (labelText key.label).rdropWhile isBlank = rest at htrim hhead hrest hidem
  have hline : trim text = typeOf key.algorithm ++ 32 :: (encodeBase64 key.blob .standard .equals ++ rest) := by
    rw [htrim]
    unfold keyText
    rw [List.append_assoc, List.cons_append]
  have htail : trim (32 :: (encodeBase64 key.blob .standard .equals ++ rest)) =
      encodeBase64 key.blob .standard .equals ++ rest := by
    rw [trim_cons_blank rfl, trim_append hbodyNe (trimmed_of_visible hbody), hidem]
  have hprintable : ((trim key.label).any fun c => c < 32 ∨ c = 127) = false := by
    rw [List.any_eq_false]
    intro c hc
    rw [decide_eq_true_iff]
    exact hlabel.trim.printable c hc
  unfold parsePublicKeyText
  rw [if_neg (not_or.mpr ⟨hne, Nat.not_lt.mpr hlength⟩), hline]
  dsimp only
  rw [findIdx?_append_cons (endsWord_of_visible htype) rfl]
  dsimp only
  rw [List.take_left, if_neg (typeOf_cases key.algorithm).1, List.drop_left, htail, bodyEnd_eq hbody hhead,
    List.take_left, List.drop_left, hrest, if_neg (Nat.not_lt.mpr hlabel.trim.length), hprintable,
    if_neg Bool.false_ne_true, hdecode]
  dsimp only
  rw [(typeOf_cases key.algorithm).2]
  have hvalid : validBlob key.trimmed = true := hblob
  apply if_neg
  intro hbad
  exact absurd (hvalid.symm.trans hbad) Bool.noConfusion

end Deskhub
