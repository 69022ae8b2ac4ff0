import Deskhub.Net.TrustStore
import Deskhub.Ui.Addresses
import Mathlib.Data.List.Nodup
import Mathlib.Data.List.Perm.Subperm

/-!
# Names for saved hosts

`SuggestHostAlias`: the name proposed for a host. It comes from the address, cut to leave room for
a number, and takes the first number that no saved host has.
-/

namespace Deskhub

namespace HostProfiles

def kAliasSuffixRoom : Nat := 4

def isAliasChar (c : UInt8) : Bool :=
  (97 ≤ c && c ≤ 122) || (65 ≤ c && c ≤ 90) || (48 ≤ c && c ≤ 57) || c = 45 || c = 95

def aliasTaken (store : TrustStore) (label : Bytes) : Bool :=
  store.hosts.any fun host => host.label = label

/-- The host of an endpoint, with its port unless that is the usual one; nothing for an endpoint
that cannot be split. -/
def endpointName (endpoint : Bytes) : Bytes :=
  match splitHostPort endpoint with
  | none => []
  | some (host, port) =>
    let port := port.getD kDeskhubPort
    if port = kDeskhubPort then host else host ++ ascii "-" ++ decimal port.toNat

def aliasBase (endpoint : Bytes) : Bytes :=
  let base := (endpointName endpoint).map fun c => if isAliasChar c then c else 45
  let base := if base = [] then ascii "host" else base
  base.take (kMaxTrustLabelBytes - kAliasSuffixRoom)

def isValidHostAlias (label : Bytes) : Bool :=
  if label = [] ∨ kMaxTrustLabelBytes < label.length then false else label.all isAliasChar

/-- A numbered name. -/
def numbered (base : Bytes) (n : Nat) : Bytes := base ++ ascii "-" ++ decimal n

def suggestHostAlias (store : TrustStore) (endpoint : Bytes) : Bytes :=
  let base := aliasBase endpoint
  if !aliasTaken store base then base
  else
    match (List.range' 2 kMaxTrustedHosts).find? fun n => !aliasTaken store (numbered base n) with
    | some n => numbered base n
    | none => base

theorem aliasTaken_iff {store : TrustStore} {label : Bytes} :
    aliasTaken store label = true ↔ label ∈ store.hosts.map TrustedHost.label := by
  unfold aliasTaken
  rw [List.any_eq_true, List.mem_map]
  simp only [decide_eq_true_iff]

/-! ## Every candidate is valid -/

theorem aliasBase_spec (endpoint : Bytes) :
    aliasBase endpoint ≠ [] ∧ (aliasBase endpoint).length ≤ kMaxTrustLabelBytes - kAliasSuffixRoom ∧
      (aliasBase endpoint).all isAliasChar = true := by
  unfold aliasBase
  dsimp only
  generalize hnamed : (endpointName endpoint).map (fun c => if isAliasChar c then c else 45) = named
  have hchars : ∀ c ∈ (if named = [] then ascii "host" else named), isAliasChar c = true := by
    by_cases hnil : named = []
    · rw [if_pos hnil]
      exact forall_of_all (by decide)
    · rw [if_neg hnil, ← hnamed]
      intro c hc
      rcases List.mem_map.mp hc with ⟨d, -, rfl⟩
      split
      · next halias => exact halias
      · rfl
  have hne : (if named = [] then ascii "host" else named) ≠ [] := by
    by_cases hnil : named = []
    · rw [if_pos hnil]
      decide
    · rw [if_neg hnil]
      exact hnil
  refine ⟨?_, List.length_take_le _ _, ?_⟩
  · intro hcut
    rcases List.take_eq_nil_iff.mp hcut with hzero | hnil
    · exact absurd hzero (by decide)
    · exact hne hnil
  · rw [List.all_eq_true]
    intro c hc
    exact hchars c (List.mem_of_mem_take hc)

theorem isValidHostAlias_iff {label : Bytes} :
    isValidHostAlias label = true ↔
      (label ≠ [] ∧ label.length ≤ kMaxTrustLabelBytes) ∧ label.all isAliasChar = true := by
  unfold isValidHostAlias
  by_cases hbad : label = [] ∨ kMaxTrustLabelBytes < label.length
  · rw [if_pos hbad]
    constructor
    · intro h
      exact absurd h Bool.false_ne_true
    · rintro ⟨⟨hne, hlength⟩, -⟩
      rcases hbad with hnil | hlong
      · exact absurd hnil hne
      · omega
  · rw [if_neg hbad]
    rw [not_or, Nat.not_lt] at hbad
    exact (and_iff_right hbad).symm

theorem isValidHostAlias_aliasBase (endpoint : Bytes) :
    isValidHostAlias (aliasBase endpoint) = true := by
  rcases aliasBase_spec endpoint with ⟨hne, hlength, hchars⟩
  exact isValidHostAlias_iff.mpr ⟨⟨hne, Nat.le_trans hlength (Nat.sub_le _ _)⟩, hchars⟩

/-- The room left for the suffix is enough for every number that is tried. -/
theorem isValidHostAlias_numbered (endpoint : Bytes) {n : Nat} (hn : n < 10 ^ 3) :
    isValidHostAlias (numbered (aliasBase endpoint) n) = true := by
  rcases aliasBase_spec endpoint with ⟨hne, hlength, hchars⟩
  have hdecimal := length_decimal_le (by decide) hn
  have hdigits : (decimal n).all isAliasChar = true := by
    rw [List.all_eq_true]
    intro c hc
    rcases decimal_digits n c hc with ⟨hlow, hhigh⟩
    have hdigit : (48 ≤ c && c ≤ 57) = true := by
      rw [Bool.and_eq_true, decide_eq_true_iff, decide_eq_true_iff]
      exact ⟨UInt8.le_iff_toNat_le.mpr hlow, UInt8.le_iff_toNat_le.mpr hhigh⟩
    unfold isAliasChar
    rw [hdigit]
    simp only [Bool.or_true, Bool.true_or]
  apply isValidHostAlias_iff.mpr
  refine ⟨⟨?_, ?_⟩, ?_⟩
  · exact List.append_ne_nil_of_right_ne_nil _ (decimal_ne_nil n)
  · unfold numbered
    rw [List.length_append, List.length_append]
    change _ ≤ 64 - 4 at hlength
    change _ + 1 + _ ≤ 64
    omega
  · unfold numbered
    rw [List.all_append, List.all_append, hchars, hdigits]
    decide

/-! ## One of the candidates is free -/

theorem numbered_inj {base : Bytes} {m n : Nat} (hm : m < 2 ^ 63) (hn : n < 2 ^ 63)
    (h : numbered base m = numbered base n) : m = n := by
  have hdecimal : decimal m = decimal n := List.append_cancel_left h
  have hread := unixTimeFrom_decimal hm
  rw [hdecimal, unixTimeFrom_decimal hn, Option.some.injEq] at hread
  exact hread.symm

theorem numbered_ne_base (base : Bytes) (n : Nat) : numbered base n ≠ base := by
  intro h
  have hlength := congrArg List.length h
  unfold numbered at hlength
  rw [List.length_append, List.length_append] at hlength
  change _ + 1 + _ = _ at hlength
  omega

/-- The names that are tried. -/
def candidates (base : Bytes) : List Bytes :=
  base :: (List.range' 2 kMaxTrustedHosts).map (numbered base)

theorem nodup_candidates (base : Bytes) : (candidates base).Nodup := by
  unfold candidates
  rw [List.nodup_cons]
  constructor
  · intro hmem
    rcases List.mem_map.mp hmem with ⟨n, -, hn⟩
    exact numbered_ne_base base n hn
  · apply List.Nodup.map_on ?_ List.nodup_range'
    intro m hm n hn heq
    have hm' := (List.mem_range'_1.mp hm).2
    have hn' := (List.mem_range'_1.mp hn).2
    change m < 2 + 256 at hm'
    change n < 2 + 256 at hn'
    exact numbered_inj (by omega) (by omega) heq

/-- There are more candidates than hosts, so they do not all have one. -/
theorem exists_free {store : TrustStore} (hsize : store.hosts.length ≤ kMaxTrustedHosts)
    (base : Bytes) : ∃ label ∈ candidates base, aliasTaken store label = false := by
  by_contra hall
  have hsubset : candidates base ⊆ store.hosts.map TrustedHost.label := by
    intro label hlabel
    by_contra hfree
    exact hall ⟨label, hlabel, Bool.eq_false_iff.mpr fun h => hfree (aliasTaken_iff.mp h)⟩
  have hlength := (List.subperm_of_subset (nodup_candidates base) hsubset).length_le
  unfold candidates at hlength
  rw [List.length_cons, List.length_map, List.length_range', List.length_map] at hlength
  omega

/-- The name that is suggested is a candidate that is free. -/
theorem suggestHostAlias_free {store : TrustStore} (hsize : store.hosts.length ≤ kMaxTrustedHosts)
    (endpoint : Bytes) :
    suggestHostAlias store endpoint ∈ candidates (aliasBase endpoint) ∧
      aliasTaken store (suggestHostAlias store endpoint) = false := by
  unfold suggestHostAlias
  dsimp only
  by_cases hbase : aliasTaken store (aliasBase endpoint) = true
  · rw [if_neg (by rw [hbase]; decide)]
    cases hfind : (List.range' 2 kMaxTrustedHosts).find? fun n =>
        !aliasTaken store (numbered (aliasBase endpoint) n) with
    | some n =>
      refine ⟨List.mem_cons_of_mem _ (List.mem_map_of_mem (List.mem_of_find?_eq_some hfind)), ?_⟩
      have hfree := List.find?_some hfind
      rw [Bool.not_eq_true'] at hfree
      exact hfree
    | none =>
      -- all of them are taken
      exfalso
      rcases exists_free hsize (aliasBase endpoint) with ⟨label, hlabel, hfree⟩
      rcases List.mem_cons.mp hlabel with rfl | hnumbered
      · rw [hbase] at hfree
        exact absurd hfree Bool.noConfusion
      · rcases List.mem_map.mp hnumbered with ⟨n, hn, rfl⟩
        have hnot := List.find?_eq_none.mp hfind n hn
        rw [hfree] at hnot
        exact hnot rfl
  · have hfree := Bool.eq_false_iff.mpr hbase
    rw [if_pos (by rw [hfree]; rfl)]
    exact ⟨List.mem_cons_self, hfree⟩

end HostProfiles

end Deskhub
