import Mathlib.Data.List.Pairwise
import Mathlib.Order.Lattice
import Mathlib.Data.List.Basic

/-!
# Ordered maps as sorted association lists

A small executable map whose entries are kept in increasing key order, so that
iterating it visits the keys in order and its first entry holds the least key.
The order is a field of the structure: an unsorted map cannot be built.
-/

namespace OrdMap

universe u v

/-- A finite map with its entries listed in strictly increasing key order. -/
structure Map (κ : Type u) (α : Type v) [LinearOrder κ] where
  entries : List (κ × α)
  sorted : entries.Pairwise (fun p q => p.1 < q.1)

variable {κ : Type u} {α : Type v} [LinearOrder κ]

/-- Two maps with the same entries are the same map. -/
@[ext] theorem Map.ext {m m' : Map κ α} (h : m.entries = m'.entries) : m = m' := by
  cases m
  cases m'
  cases h
  rfl

instance [DecidableEq α] : DecidableEq (Map κ α) := fun m m' =>
  decidable_of_iff (m.entries = m'.entries) ⟨Map.ext, fun h => by rw [h]⟩

namespace Map

/-- The map without entries. -/
def empty : Map κ α := ⟨[], List.Pairwise.nil⟩

instance : Inhabited (Map κ α) := ⟨empty⟩

/-- How many entries the map has. -/
def size (m : Map κ α) : Nat := m.entries.length

/-- The entry with the least key. -/
def first? (m : Map κ α) : Option (κ × α) := m.entries.head?

/-- The value stored under `k`. -/
def find? (m : Map κ α) (k : κ) : Option α :=
  (m.entries.find? (fun p => p.1 = k)).map Prod.snd

/-- Whether `k` has a value. -/
def contains (m : Map κ α) (k : κ) : Bool := (m.find? k).isSome

/-- Remove the entry of `k`, if there is one. -/
def erase (m : Map κ α) (k : κ) : Map κ α :=
  ⟨m.entries.filter (fun p => p.1 ≠ k), m.sorted.filter _⟩

/-- Put `(k, v)` in its place in a sorted list, replacing an entry of `k`. -/
def insertSorted (k : κ) (v : α) : List (κ × α) → List (κ × α)
  | [] => [(k, v)]
  | p :: ps =>
      if k < p.1 then (k, v) :: p :: ps
      else if p.1 < k then p :: insertSorted k v ps
      else (k, v) :: ps

theorem mem_insertSorted_of_mem {k : κ} {v : α} {l : List (κ × α)} {p : κ × α}
    (h : p ∈ insertSorted k v l) : p = (k, v) ∨ p ∈ l := by
  induction l with
  | nil => simpa [insertSorted] using h
  | cons q qs ih =>
    unfold insertSorted at h
    split at h
    · simpa using h
    · split at h
      · rcases List.mem_cons.mp h with rfl | h
        · exact Or.inr (by simp)
        · exact (ih h).imp id (List.mem_cons_of_mem _)
      · exact (List.mem_cons.mp h).imp id (List.mem_cons_of_mem _)

theorem sorted_insertSorted (k : κ) (v : α) {l : List (κ × α)}
    (h : l.Pairwise (fun p q => p.1 < q.1)) :
    (insertSorted k v l).Pairwise (fun p q => p.1 < q.1) := by
  induction l with
  | nil => simp [insertSorted]
  | cons q qs ih =>
    obtain ⟨hq, hqs⟩ := List.pairwise_cons.mp h
    unfold insertSorted
    split
    · next hlt =>
      refine List.pairwise_cons.mpr ⟨?_, h⟩
      intro p hp
      rcases List.mem_cons.mp hp with rfl | hp
      · exact hlt
      · exact lt_trans hlt (hq p hp)
    · split
      · next hlt =>
        refine List.pairwise_cons.mpr ⟨?_, ih hqs⟩
        intro p hp
        rcases mem_insertSorted_of_mem hp with rfl | hp
        · exact hlt
        · exact hq p hp
      · next hge hle =>
        have hk : q.1 = k := le_antisymm (not_lt.mp hge) (not_lt.mp hle)
        exact List.pairwise_cons.mpr ⟨by simpa [hk] using hq, hqs⟩

/-- Store `v` under `k`, replacing what was there. -/
def insert (m : Map κ α) (k : κ) (v : α) : Map κ α :=
  ⟨insertSorted k v m.entries, sorted_insertSorted k v m.sorted⟩

/-- Change every value of the map, keeping its keys. -/
def mapVals (m : Map κ α) (f : κ → α → α) : Map κ α :=
  ⟨m.entries.map (fun p => (p.1, f p.1 p.2)), by
    rw [List.pairwise_map]
    exact m.sorted⟩

/-- Keep the entries that satisfy `p`. -/
def filter (m : Map κ α) (p : κ → α → Bool) : Map κ α :=
  ⟨m.entries.filter (fun e => p e.1 e.2), m.sorted.filter _⟩

/-! ## Lookup and membership -/

/-- A key occurs once: two entries of one key are the same entry. -/
theorem eq_of_mem {m : Map κ α} {k : κ} {v w : α} (hv : (k, v) ∈ m.entries)
    (hw : (k, w) ∈ m.entries) : v = w := by
  obtain ⟨l, hl⟩ := m
  induction l with
  | nil => cases hv
  | cons q qs ih =>
    obtain ⟨hq, hqs⟩ := List.pairwise_cons.mp hl
    rcases List.mem_cons.mp hv with hv | hv <;> rcases List.mem_cons.mp hw with hw | hw
    · exact congrArg Prod.snd (hv.trans hw.symm)
    · exact absurd (hq _ hw) (by rw [← hv]; exact lt_irrefl k)
    · exact absurd (hq _ hv) (by rw [← hw]; exact lt_irrefl k)
    · exact ih hqs hv hw

/-- `find?` answers exactly the entries. -/
theorem find?_eq_some {m : Map κ α} {k : κ} {v : α} :
    m.find? k = some v ↔ (k, v) ∈ m.entries := by
  unfold find?
  constructor
  · intro h
    obtain ⟨⟨k', v'⟩, hfind, rfl⟩ := Option.map_eq_some_iff.mp h
    have hk : k' = k := by simpa using List.find?_some hfind
    exact hk ▸ List.mem_of_find?_eq_some hfind
  · intro h
    cases hfind : m.entries.find? (fun p => p.1 = k) with
    | none =>
      have := List.find?_eq_none.mp hfind (k, v) h
      simp at this
    | some q =>
      obtain ⟨k', v'⟩ := q
      have hk : k' = k := by simpa using List.find?_some hfind
      have hmem := List.mem_of_find?_eq_some hfind
      subst hk
      simp [eq_of_mem hmem h]

theorem find?_eq_none {m : Map κ α} {k : κ} :
    m.find? k = none ↔ ∀ v, (k, v) ∉ m.entries := by
  constructor
  · intro h v hv
    rw [find?_eq_some.mpr hv] at h
    cases h
  · intro h
    cases hf : m.find? k with
    | none => rfl
    | some v => exact absurd (find?_eq_some.mp hf) (h v)

@[simp] theorem find?_empty (k : κ) : (empty : Map κ α).find? k = none := rfl

theorem mem_insert {m : Map κ α} {k k' : κ} {v v' : α} :
    (k', v') ∈ (m.insert k v).entries ↔
      (k' = k ∧ v' = v) ∨ (k' ≠ k ∧ (k', v') ∈ m.entries) := by
  obtain ⟨l, hl⟩ := m
  show (k', v') ∈ insertSorted k v l ↔ _
  simp only
  induction l with
  | nil => simp [insertSorted]
  | cons q qs ih =>
    obtain ⟨hq, hqs⟩ := List.pairwise_cons.mp hl
    have hih := ih hqs
    unfold insertSorted
    split
    · next hlt =>
      have hne : (k', v') ∈ q :: qs → k' ≠ k := by
        intro hmem
        rcases List.mem_cons.mp hmem with h | h
        · exact fun hk => absurd hlt (by rw [← h, hk]; exact lt_irrefl k)
        · exact fun hk => absurd (lt_trans hlt (hq _ h)) (by rw [hk]; exact lt_irrefl k)
      grind
    · split
      · next hlt => grind
      · next hge hle =>
        have hk : q.1 = k := le_antisymm (not_lt.mp hge) (not_lt.mp hle)
        have hne : (k', v') ∈ qs → k' ≠ k := by
          intro h hkk
          exact absurd (hq _ h) (by rw [hk, hkk]; exact lt_irrefl k)
        grind

theorem mem_erase {m : Map κ α} {k k' : κ} {v' : α} :
    (k', v') ∈ (m.erase k).entries ↔ k' ≠ k ∧ (k', v') ∈ m.entries := by
  simp [erase, and_comm]

/-- Reading back after a store. -/
theorem find?_insert (m : Map κ α) (k k' : κ) (v : α) :
    (m.insert k v).find? k' = if k' = k then some v else m.find? k' := by
  split
  · next h => exact find?_eq_some.mpr (mem_insert.mpr (Or.inl ⟨h, rfl⟩))
  · next h =>
    ext w
    simp only [find?_eq_some, mem_insert]
    grind

@[simp] theorem find?_insert_self (m : Map κ α) (k : κ) (v : α) :
    (m.insert k v).find? k = some v := by
  simp [find?_insert]

/-- Reading back after a removal. -/
theorem find?_erase (m : Map κ α) (k k' : κ) :
    (m.erase k).find? k' = if k' = k then none else m.find? k' := by
  split
  · next h => exact find?_eq_none.mpr (fun v hv => (mem_erase.mp hv).1 h)
  · next h =>
    ext w
    simp only [find?_eq_some, mem_erase]
    grind

@[simp] theorem find?_erase_self (m : Map κ α) (k : κ) : (m.erase k).find? k = none := by
  simp [find?_erase]

/-- A second store under one key replaces the first. -/
theorem insert_insert (m : Map κ α) (k : κ) (v w : α) :
    (m.insert k v).insert k w = m.insert k w := by
  refine Map.ext ?_
  show insertSorted k w (insertSorted k v m.entries) = insertSorted k w m.entries
  induction m.entries with
  | nil => simp [insertSorted]
  | cons q qs ih =>
    by_cases hlt : k < q.1
    · simp [insertSorted, hlt]
    · by_cases hgt : q.1 < k
      · simp [insertSorted, hlt, hgt, ih]
      · simp [insertSorted, hlt, hgt]

/-! ## Size and the first entry -/

@[simp] theorem size_empty : (empty : Map κ α).size = 0 := rfl

theorem first?_mem {m : Map κ α} {p : κ × α} (h : m.first? = some p) : p ∈ m.entries :=
  List.mem_of_mem_head? h

theorem first?_eq_none {m : Map κ α} : m.first? = none ↔ m.size = 0 := by
  simp [first?, size]

/-- The first entry holds the least key. -/
theorem first?_le {m : Map κ α} {p q : κ × α} (h : m.first? = some p) (hq : q ∈ m.entries) :
    p.1 ≤ q.1 := by
  obtain ⟨l, hl⟩ := m
  cases l with
  | nil => cases h
  | cons r rs =>
    cases h
    rcases List.mem_cons.mp hq with rfl | hq
    · exact le_rfl
    · exact le_of_lt ((List.pairwise_cons.mp hl).1 q hq)

/-- The first entry, written anew. -/
theorem first?_insert_first {m : Map κ α} {k : κ} {v : α} (h : m.first? = some (k, v)) (v' : α) :
    (m.insert k v').first? = some (k, v') := by
  cases hfirst : (m.insert k v').first? with
  | none =>
    have hempty := first?_eq_none.mp hfirst
    have hmem : (k, v') ∈ (m.insert k v').entries := mem_insert.mpr (.inl ⟨rfl, rfl⟩)
    rw [List.eq_nil_of_length_eq_zero hempty] at hmem
    cases hmem
  | some p =>
    obtain ⟨k', w⟩ := p
    have hle := first?_le hfirst (mem_insert.mpr (.inl ⟨rfl, rfl⟩))
    rcases mem_insert.mp (first?_mem hfirst) with ⟨rfl, rfl⟩ | ⟨hne, hmem⟩
    · rfl
    · have hge := first?_le h hmem
      exact absurd (le_antisymm hle hge) hne

/-- Removing the first entry leaves the others as they were. -/
theorem erase_first {m : Map κ α} {p : κ × α} (h : m.first? = some p) :
    (m.erase p.1).entries = m.entries.tail := by
  obtain ⟨l, hl⟩ := m
  cases l with
  | nil => cases h
  | cons r rs =>
    obtain rfl : r = p := by simpa [first?] using h
    have hne : ∀ q ∈ rs, q.1 ≠ r.1 := fun q hq => ne_of_gt ((List.pairwise_cons.mp hl).1 q hq)
    simpa [erase] using fun a b hab => hne (a, b) hab

theorem size_erase_first {m : Map κ α} {p : κ × α} (h : m.first? = some p) :
    (m.erase p.1).size + 1 = m.size := by
  have hne : m.entries ≠ [] := by
    intro h0
    simp [first?, h0] at h
  have hpos : 0 < m.entries.length := List.length_pos_of_ne_nil hne
  simp only [size, erase_first h, List.length_tail]
  omega

/-- A store adds at most one entry. -/
theorem size_insert_le (m : Map κ α) (k : κ) (v : α) : (m.insert k v).size ≤ m.size + 1 := by
  show (insertSorted k v m.entries).length ≤ m.entries.length + 1
  induction m.entries with
  | nil => simp [insertSorted]
  | cons q qs ih =>
    unfold insertSorted
    split
    · simp
    · split
      · simpa using ih
      · simp

/-- Replacing a value keeps the size. -/
theorem size_insert_of_contains {m : Map κ α} {k : κ} (h : m.contains k = true) (v : α) :
    (m.insert k v).size = m.size := by
  obtain ⟨w, hw⟩ := Option.isSome_iff_exists.mp h
  have hmem := find?_eq_some.mp hw
  obtain ⟨l, hl⟩ := m
  show (insertSorted k v l).length = l.length
  clear h hw
  induction l with
  | nil => cases hmem
  | cons q qs ih =>
    obtain ⟨hq, hqs⟩ := List.pairwise_cons.mp hl
    unfold insertSorted
    rcases List.mem_cons.mp hmem with hkq | hmem
    · simp [← hkq]
    · have hlt : q.1 < k := hq _ hmem
      rw [if_neg (not_lt_of_gt hlt), if_pos hlt]
      simpa using ih hqs hmem

theorem size_erase_le (m : Map κ α) (k : κ) : (m.erase k).size ≤ m.size :=
  List.length_filter_le _ _

/-! ## Changing all values, and filtering -/

theorem mem_mapVals {m : Map κ α} {f : κ → α → α} {k : κ} {v : α} :
    (k, v) ∈ (m.mapVals f).entries ↔ ∃ w, (k, w) ∈ m.entries ∧ v = f k w := by
  simp only [mapVals, List.mem_map, Prod.exists, Prod.mk.injEq]
  constructor
  · rintro ⟨a, b, hab, rfl, rfl⟩
    exact ⟨b, hab, rfl⟩
  · rintro ⟨w, hw, rfl⟩
    exact ⟨k, w, hw, rfl, rfl⟩

theorem find?_mapVals (m : Map κ α) (f : κ → α → α) (k : κ) :
    (m.mapVals f).find? k = (m.find? k).map (f k) := by
  ext v
  simp only [find?_eq_some, mem_mapVals, Option.map_eq_some_iff]
  grind

end Map

/-! ## Machine words as keys -/

instance instLinearOrderUInt8 : LinearOrder UInt8 where
  le_refl := UInt8.le_refl
  le_trans _ _ _ := UInt8.le_trans
  le_antisymm _ _ := UInt8.le_antisymm
  le_total := UInt8.le_total
  lt_iff_le_not_ge _ _ := Std.LawfulOrderLT.lt_iff _ _
  toDecidableLE := inferInstance
  toDecidableEq := inferInstance
  toDecidableLT := inferInstance

instance instLinearOrderUInt32 : LinearOrder UInt32 where
  le_refl := UInt32.le_refl
  le_trans _ _ _ := UInt32.le_trans
  le_antisymm _ _ := UInt32.le_antisymm
  le_total := UInt32.le_total
  lt_iff_le_not_ge _ _ := Std.LawfulOrderLT.lt_iff _ _
  toDecidableLE := inferInstance
  toDecidableEq := inferInstance
  toDecidableLT := inferInstance

instance instLinearOrderUInt64 : LinearOrder UInt64 where
  le_refl := UInt64.le_refl
  le_trans _ _ _ := UInt64.le_trans
  le_antisymm _ _ := UInt64.le_antisymm
  le_total := UInt64.le_total
  lt_iff_le_not_ge _ _ := Std.LawfulOrderLT.lt_iff _ _
  toDecidableLE := inferInstance
  toDecidableEq := inferInstance
  toDecidableLT := inferInstance

instance instLinearOrderInt32 : LinearOrder Int32 where
  le_refl := Int32.le_refl
  le_trans _ _ _ := Int32.le_trans
  le_antisymm _ _ := Int32.le_antisymm
  le_total := Int32.le_total
  lt_iff_le_not_ge _ _ := Std.LawfulOrderLT.lt_iff _ _
  toDecidableLE := inferInstance
  toDecidableEq := inferInstance
  toDecidableLT := inferInstance

end OrdMap
