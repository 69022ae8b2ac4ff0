import Deskhub.Net.RecordText

/-!
# IPv4 addresses as text

`ParseIPv4`: four numbers up to 255, of three digits at most, with dots between them.
-/

namespace Deskhub

/-- The loop over the digits of an octet: its value, how many digits it has, and what follows. -/
def octetFrom : Nat → Nat → Bytes → Option (Nat × Nat × Bytes)
  | value, digits, [] => some (value, digits, [])
  | value, digits, c :: rest =>
    if 48 ≤ c ∧ c ≤ 57 then
      let value := value * 10 + (c.toNat - 48)
      if 3 < digits + 1 ∨ 255 < value then none else octetFrom value (digits + 1) rest
    else some (value, digits, c :: rest)

/-- One octet and what follows it. -/
def parseOctet (text : Bytes) : Option (Nat × Bytes) :=
  match octetFrom 0 0 text with
  | some (value, digits, rest) => if digits = 0 then none else some (value, rest)
  | none => none

/-- The octets behind the first, each behind a dot. -/
def octetsFrom : Nat → UInt32 → Bytes → Option (UInt32 × Bytes)
  | 0, ip, text => some (ip, text)
  | octets + 1, ip, text =>
    match text with
    | 46 :: text => do
      let (value, text) ← parseOctet text
      octetsFrom octets (ip <<< 8 ||| UInt32.ofNat value) text
    | _ => none

def parseIPv4 (text : Bytes) : Option UInt32 := do
  let (value, text) ← parseOctet text
  let (ip, text) ← octetsFrom 3 (UInt32.ofNat value) text
  if text ≠ [] then none else some ip

/-! ## What an address is written with -/

/-- The bytes in front of what is left are digits and dots. -/
def Dotted (text rest : Bytes) : Prop :=
  ∃ front, text = front ++ rest ∧ ∀ c ∈ front, 46 ≤ c.toNat ∧ c.toNat ≤ 57

theorem Dotted.refl (text : Bytes) : Dotted text text :=
  ⟨[], rfl, fun _ hc => absurd hc List.not_mem_nil⟩

theorem Dotted.trans {text middle rest : Bytes} (h : Dotted text middle) (h' : Dotted middle rest) :
    Dotted text rest := by
  rcases h with ⟨front, rfl, hfront⟩
  rcases h' with ⟨front', rfl, hfront'⟩
  refine ⟨front ++ front', by rw [List.append_assoc], ?_⟩
  intro c hc
  rcases List.mem_append.mp hc with hleft | hright
  · exact hfront c hleft
  · exact hfront' c hright

theorem Dotted.cons {c : UInt8} (h : 46 ≤ c.toNat ∧ c.toNat ≤ 57) (rest : Bytes) :
    Dotted (c :: rest) rest := by
  refine ⟨[c], rfl, ?_⟩
  intro d hd
  rw [List.mem_singleton.mp hd]
  exact h

theorem dotted_octetFrom {value digits : Nat} {text : Bytes} {value' digits' : Nat} {rest : Bytes}
    (h : octetFrom value digits text = some (value', digits', rest)) : Dotted text rest := by
  induction text generalizing value digits with
  | nil =>
    cases h
    exact .refl []
  | cons c text ih =>
    rw [octetFrom] at h
    split at h
    · next hdigit =>
      dsimp only at h
      split at h
      · cases h
      · have hlow : 48 ≤ c.toNat := UInt8.le_iff_toNat_le.mp hdigit.1
        have hhigh : c.toNat ≤ 57 := UInt8.le_iff_toNat_le.mp hdigit.2
        exact (Dotted.cons ⟨by omega, hhigh⟩ text).trans (ih h)
    · cases h
      exact .refl _

theorem dotted_parseOctet {text rest : Bytes} {value : Nat} (h : parseOctet text = some (value, rest)) :
    Dotted text rest := by
  unfold parseOctet at h
  split at h
  · next hfrom =>
    split at h
    · cases h
    · cases h
      exact dotted_octetFrom hfrom
  · cases h

theorem dotted_octetsFrom {octets : Nat} {ip ip' : UInt32} {text rest : Bytes}
    (h : octetsFrom octets ip text = some (ip', rest)) : Dotted text rest := by
  induction octets generalizing ip text with
  | zero =>
    cases h
    exact .refl _
  | succ octets ih =>
    unfold octetsFrom at h
    split at h
    · next text' =>
      rcases Option.bind_eq_some_iff.mp h with ⟨⟨value, text''⟩, hoctet, hrest⟩
      exact ((Dotted.cons (by decide) text').trans (dotted_parseOctet hoctet)).trans (ih hrest)
    · cases h

/-- An address is written with digits and dots. -/
theorem parseIPv4_dotted {text : Bytes} {ip : UInt32} (h : parseIPv4 text = some ip) :
    ∀ c ∈ text, 46 ≤ c.toNat ∧ c.toNat ≤ 57 := by
  rcases Option.bind_eq_some_iff.mp h with ⟨⟨value, text'⟩, hoctet, hrest⟩
  rcases Option.bind_eq_some_iff.mp hrest with ⟨⟨ip', text''⟩, hoctets, hend⟩
  change (if text'' ≠ [] then none else some ip') = some ip at hend
  have hnil : text'' = [] := by
    by_contra hne
    rw [if_pos hne] at hend
    cases hend
  rcases (dotted_parseOctet hoctet).trans (dotted_octetsFrom hoctets) with ⟨front, rfl, hfront⟩
  rw [hnil, List.append_nil]
  exact hfront

end Deskhub
