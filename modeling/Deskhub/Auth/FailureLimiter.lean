import Deskhub.Lib.MinElement
import Deskhub.Protocol.ByteOrder
import Mathlib.Data.List.Basic
import Deskhub.Lib.Machine
import Mathlib.Order.Nat

/-!
# The failure limiter

`AuthFailureLimiter`: the failed handshakes of a few pairs of a key and an address, and how
long a pair that failed too often is blocked.
-/

namespace Deskhub

abbrev Fingerprint := { bytes : Bytes // bytes.length = 32 }

instance : Inhabited Fingerprint := ⟨⟨List.replicate 32 0, rfl⟩⟩

def kAuthFailureLimit : Nat := 3
def kAuthFailureWindowUs : UInt64 := 60000000
def kAuthFailureCooldownUs : UInt64 := 10000000
def kAuthFailureSlots : Nat := 64

namespace AuthFailureLimiter

structure Entry where
  key : Fingerprint := default
  ip : UInt32 := 0
  failures : Nat := 0
  lastFailureUs : UInt64 := 0
  blockedUntilUs : UInt64 := 0
  occupied : Bool := false
deriving DecidableEq

/-- The slot holds the failures of the pair. -/
def Entry.isOf (key : Fingerprint) (ip : UInt32) (entry : Entry) : Bool :=
  entry.occupied ∧ entry.ip = ip ∧ entry.key = key

end AuthFailureLimiter

open AuthFailureLimiter

theorem AuthFailureLimiter.length_free : (List.replicate kAuthFailureSlots ({} : Entry)).length = kAuthFailureSlots :=
  List.length_replicate

structure AuthFailureLimiter where
  entries : List Entry := List.replicate kAuthFailureSlots {}
  size : entries.length = kAuthFailureSlots := by exact Deskhub.AuthFailureLimiter.length_free

namespace AuthFailureLimiter

def allow (s : AuthFailureLimiter) (key : Fingerprint) (ip : UInt32) (nowUs : UInt64) : Bool :=
  match s.entries.find? (Entry.isOf key ip) with
  | none => true
  | some entry => entry.blockedUntilUs ≤ nowUs

/-- What the loop of `RecordFailure` has selected once it passes a free slot. -/
def passFree (i : Nat) (entry : Entry) : Option (Nat × Entry) → Option (Nat × Entry)
  | none => some (i, entry)
  | some (j, best) => if best.occupied then some (i, entry) else some (j, best)

/-- What it has selected once it passes a slot of another pair. -/
def passTaken (i : Nat) (entry : Entry) : Option (Nat × Entry) → Option (Nat × Entry)
  | none => some (i, entry)
  | some (j, best) =>
    if best.occupied ∧ entry.lastFailureUs < best.lastFailureUs then some (i, entry)
    else some (j, best)

/-- The loop of `RecordFailure` over the slots `i …`, with the slot selected so far. -/
def select (key : Fingerprint) (ip : UInt32) :
    Nat → Option (Nat × Entry) → List Entry → Option (Nat × Entry)
  | _, selected, [] => selected
  | i, selected, entry :: rest =>
    if entry.isOf key ip then some (i, entry)
    else if !entry.occupied then select key ip (i + 1) (passFree i entry selected) rest
    else select key ip (i + 1) (passTaken i entry selected) rest

/-- One more failure in the selected slot, which starts anew unless it is the pair's and its
last failure was within the window. -/
def failed (selected : Entry) (key : Fingerprint) (ip : UInt32) (nowUs : UInt64) : Entry :=
  let selected :=
    if !selected.occupied ∨ selected.ip ≠ ip ∨ selected.key ≠ key ∨
        nowUs < selected.lastFailureUs ∨ kAuthFailureWindowUs < nowUs - selected.lastFailureUs then
      { key := key, ip := ip, occupied := true }
    else selected
  let selected := { selected with lastFailureUs := nowUs, failures := selected.failures + 1 }
  if kAuthFailureLimit ≤ selected.failures then
    { selected with failures := 0, blockedUntilUs := nowUs + kAuthFailureCooldownUs }
  else selected

def recordFailure (s : AuthFailureLimiter) (key : Fingerprint) (ip : UInt32) (nowUs : UInt64) :
    AuthFailureLimiter :=
  match select key ip 0 none s.entries with
  | none => s
  | some (i, selected) =>
    { entries := s.entries.set i (failed selected key ip nowUs)
      size := by rw [List.length_set, s.size] }

def recordSuccess (s : AuthFailureLimiter) (key : Fingerprint) (ip : UInt32) : AuthFailureLimiter :=
  match s.entries.findIdx? (Entry.isOf key ip) with
  | none => s
  | some i =>
    { entries := s.entries.set i {}
      size := by rw [List.length_set, s.size] }

def clear (_ : AuthFailureLimiter) : AuthFailureLimiter := {}

end AuthFailureLimiter

end Deskhub

/-!
## How long a pair stays blocked

The runs of `AuthFailureLimiter`. A blocked pair stays blocked unless a failure of a pair
without a slot finds every slot taken and the blocked pair's the one with the oldest failure.
-/

namespace Deskhub

namespace AuthFailureLimiter

/-! ## The slot that is selected -/

/-- What the loop of `RecordFailure` has selected among the slots it has passed, none of them
the pair's: the first free one, or, when all are taken, the first with the oldest failure. -/
def Chosen (front : List Entry) : Option (Nat × Entry) → Prop
  | none => front = []
  | some (i, best) => front[i]? = some best ∧ (best.occupied = true →
      (∀ x ∈ front, x.occupied = true ∧ best.lastFailureUs ≤ x.lastFailureUs) ∧
        ∀ (j : Nat) (x : Entry), j < i → front[j]? = some x →
          best.lastFailureUs < x.lastFailureUs)

theorem Chosen.taken {front : List Entry} {selected : Option (Nat × Entry)}
    (h : Chosen front selected) {entry : Entry} (hentry : entry.occupied = true) :
    Chosen (front ++ [entry]) (passTaken front.length entry selected) := by
  have hlast : (front ++ [entry])[front.length]? = some entry := by simp
  have hbefore : ∀ {j : Nat} {x : Entry}, j < front.length → (front ++ [entry])[j]? = some x →
      x ∈ front := by
    intro j x hj hx
    rw [List.getElem?_append_left hj] at hx
    exact List.mem_of_getElem? hx
  cases selected with
  | none =>
    have hnil : front = [] := h
    subst hnil
    refine ⟨hlast, fun _ => ⟨?_, ?_⟩⟩
    · intro x hx
      rw [List.nil_append, List.mem_singleton] at hx
      rw [hx]
      exact ⟨hentry, UInt64.le_refl _⟩
    · intro j x hj
      exact absurd hj (Nat.not_lt_zero j)
  | some chosen =>
    rcases chosen with ⟨i, best⟩
    rcases h with ⟨hbest, hleast⟩
    have hi : i < front.length := (List.getElem?_eq_some_iff.mp hbest).1
    unfold passTaken
    dsimp only
    by_cases hnewer : best.occupied = true ∧ entry.lastFailureUs < best.lastFailureUs
    · rw [if_pos hnewer]
      refine ⟨hlast, fun _ => ⟨?_, ?_⟩⟩
      · intro x hx
        rcases List.mem_append.mp hx with hfront | hnew
        · rcases (hleast hnewer.1).1 x hfront with ⟨htaken, hle⟩
          exact ⟨htaken, UInt64.le_of_lt (UInt64.lt_of_lt_of_le hnewer.2 hle)⟩
        · rw [List.mem_singleton.mp hnew]
          exact ⟨hentry, UInt64.le_refl _⟩
      · intro j x hj hx
        exact UInt64.lt_of_lt_of_le hnewer.2 ((hleast hnewer.1).1 x (hbefore hj hx)).2
    · rw [if_neg hnewer]
      refine ⟨by rw [List.getElem?_append_left hi]; exact hbest, ?_⟩
      intro htaken
      have holder : best.lastFailureUs ≤ entry.lastFailureUs :=
        UInt64.not_lt.mp fun hlt => hnewer ⟨htaken, hlt⟩
      constructor
      · intro x hx
        rcases List.mem_append.mp hx with hfront | hnew
        · exact (hleast htaken).1 x hfront
        · rw [List.mem_singleton.mp hnew]
          exact ⟨hentry, holder⟩
      · intro j x hj hx
        rw [List.getElem?_append_left (Nat.lt_trans hj hi)] at hx
        exact (hleast htaken).2 j x hj hx

theorem Chosen.free {front : List Entry} {selected : Option (Nat × Entry)}
    (h : Chosen front selected) {entry : Entry} (hentry : entry.occupied = false) :
    Chosen (front ++ [entry]) (passFree front.length entry selected) := by
  have hnew : Chosen (front ++ [entry]) (some (front.length, entry)) := by
    refine ⟨by simp, ?_⟩
    intro htaken
    rw [hentry] at htaken
    cases htaken
  cases selected with
  | none => exact hnew
  | some chosen =>
    rcases chosen with ⟨i, best⟩
    have hi : i < front.length := (List.getElem?_eq_some_iff.mp h.1).1
    unfold passFree
    dsimp only
    split
    · exact hnew
    · next hfree =>
      refine ⟨by rw [List.getElem?_append_left hi]; exact h.1, ?_⟩
      intro htaken
      exact absurd htaken hfree

section Pair

variable {key : Fingerprint} {ip : UInt32}

/-- Without a slot of the pair. -/
theorem select_none {front rest : List Entry} {selected : Option (Nat × Entry)}
    (h : Chosen front selected) (hother : ∀ x ∈ rest, x.isOf key ip = false) :
    Chosen (front ++ rest) (select key ip front.length selected rest) := by
  induction rest generalizing front selected with
  | nil =>
    rw [List.append_nil]
    exact h
  | cons entry rest ih =>
    have hrest : ∀ x ∈ rest, x.isOf key ip = false :=
      fun x hx => hother x (List.mem_cons_of_mem entry hx)
    have hlen : (front ++ [entry]).length = front.length + 1 := by simp
    rw [select, if_neg (by rw [hother entry List.mem_cons_self]; decide),
      List.append_cons front entry rest, ← hlen]
    split
    · next hfree => exact ih (h.free (by simpa using hfree)) hrest
    · next htaken => exact ih (h.taken (by simpa using htaken)) hrest

/-- With one: the first. -/
theorem select_some {front rest : List Entry} {i : Nat} {selected : Option (Nat × Entry)}
    {entry : Entry} (hother : ∀ x ∈ front, x.isOf key ip = false) (hentry : entry.isOf key ip = true) :
    select key ip i selected (front ++ entry :: rest) = some (i + front.length, entry) := by
  induction front generalizing i selected with
  | nil =>
    rw [List.nil_append, select, if_pos hentry]
    rfl
  | cons x front ih =>
    have hrest : ∀ y ∈ front, y.isOf key ip = false :=
      fun y hy => hother y (List.mem_cons_of_mem x hy)
    rw [List.cons_append, select, if_neg (by rw [hother x List.mem_cons_self]; decide), ih hrest,
      ih hrest, List.length_cons, Nat.add_right_comm, Nat.add_assoc, ite_self]

end Pair

/-- The place of the first slot with the oldest failure. -/
def oldest (entries : List Entry) : Nat :=
  minElement (fun a b => a.lastFailureUs < b.lastFailureUs) entries

theorem Chosen.oldest {entries : List Entry} {i : Nat} {best : Entry}
    (h : Chosen entries (some (i, best))) (htaken : best.occupied = true) :
    i = oldest entries := by
  rcases h with ⟨hbest, hleast⟩
  rcases hleast htaken with ⟨hall, hfront⟩
  apply eq_minElement (fun entry => entry.lastFailureUs.toNat) _ hbest
  · exact fun x hx => UInt64.le_iff_toNat_le.mp (hall x hx).2
  · exact fun j x hj hx => UInt64.lt_iff_toNat_lt.mp (hfront j x hj hx)
  · intro a b
    rw [decide_eq_true_iff, UInt64.lt_iff_toNat_lt]

/-- Which slot a failure goes into: the pair's own, or, when it has none, a free one, or, when
all are taken, the one with the oldest failure. -/
theorem recordFailure_spec (s : AuthFailureLimiter) (key : Fingerprint) (ip : UInt32)
    (nowUs : UInt64) :
    ∃ i old, s.entries[i]? = some old ∧
      (s.recordFailure key ip nowUs).entries = s.entries.set i (failed old key ip nowUs) ∧
      ((old.isOf key ip = true ∧ ∀ x ∈ s.entries.take i, x.isOf key ip = false) ∨
        s.entries.find? (Entry.isOf key ip) = none ∧
          (old.occupied = true → (∀ x ∈ s.entries, x.occupied = true) ∧ i = oldest s.entries)) := by
  unfold recordFailure
  cases hfind : s.entries.find? (Entry.isOf key ip) with
  | none =>
    have hother : ∀ x ∈ s.entries, x.isOf key ip = false := by
      intro x hx
      simpa using List.find?_eq_none.mp hfind x hx
    have hchosen : Chosen s.entries (select key ip 0 none s.entries) :=
      select_none (show Chosen [] none from rfl) hother
    cases hselect : select key ip 0 none s.entries with
    | none =>
      rw [hselect] at hchosen
      have hsize := s.size
      rw [show s.entries = [] from hchosen] at hsize
      exact absurd hsize (by decide)
    | some chosen =>
      rcases chosen with ⟨i, old⟩
      rw [hselect] at hchosen
      refine ⟨i, old, hchosen.1, rfl, .inr ⟨rfl, ?_⟩⟩
      intro htaken
      exact ⟨fun x hx => ((hchosen.2 htaken).1 x hx).1, hchosen.oldest htaken⟩
  | some entry =>
    rcases List.find?_eq_some_iff_append.mp hfind with ⟨hentry, front, back, hsplit, hfront⟩
    have hother : ∀ x ∈ front, x.isOf key ip = false := fun x hx => by simpa using hfront x hx
    have hselect : select key ip 0 none s.entries = some (front.length, entry) := by
      rw [hsplit, select_some hother hentry, Nat.zero_add]
    rw [hselect]
    refine ⟨front.length, entry, by rw [hsplit]; simp, rfl, .inl ⟨hentry, ?_⟩⟩
    rw [hsplit, List.take_left']
    · exact hother
    · rfl

theorem isOf_iff {key : Fingerprint} {ip : UInt32} {entry : Entry} :
    entry.isOf key ip = true ↔ entry.occupied = true ∧ entry.ip = ip ∧ entry.key = key :=
  decide_eq_true_iff

/-- What a failure leaves in its slot. -/
theorem failed_spec (old : Entry) (key : Fingerprint) (ip : UInt32) (nowUs : UInt64) :
    (failed old key ip nowUs).isOf key ip = true ∧
      (failed old key ip nowUs).lastFailureUs = nowUs := by
  rw [isOf_iff]
  unfold failed
  dsimp only
  by_cases hnew : !old.occupied ∨ old.ip ≠ ip ∨ old.key ≠ key ∨ nowUs < old.lastFailureUs ∨
      kAuthFailureWindowUs < nowUs - old.lastFailureUs
  · rw [if_pos hnew]
    split <;> exact ⟨⟨rfl, rfl, rfl⟩, rfl⟩
  · rw [if_neg hnew]
    push Not at hnew
    have htaken : old.occupied = true := by simpa using hnew.1
    split <;> exact ⟨⟨htaken, hnew.2.1, hnew.2.2.1⟩, rfl⟩

/-- A failure within the window after the last one keeps the block, or blocks anew. -/
theorem failed_blocked {old : Entry} {key : Fingerprint} {ip : UInt32} {nowUs : UInt64}
    (hold : old.isOf key ip = true) (hlater : old.lastFailureUs ≤ nowUs)
    (hwindow : nowUs - old.lastFailureUs ≤ kAuthFailureWindowUs) :
    (failed old key ip nowUs).blockedUntilUs = old.blockedUntilUs ∨
      (failed old key ip nowUs).blockedUntilUs = nowUs + kAuthFailureCooldownUs := by
  rcases isOf_iff.mp hold with ⟨htaken, hip, hkey⟩
  have hsame : ¬ (!old.occupied ∨ old.ip ≠ ip ∨ old.key ≠ key ∨ nowUs < old.lastFailureUs ∨
      kAuthFailureWindowUs < nowUs - old.lastFailureUs) := by
    rintro (hfree | hother | hother | hbefore | hlong)
    · rw [htaken] at hfree
      cases hfree
    · exact hother hip
    · exact hother hkey
    · exact UInt64.not_lt.mpr hlater hbefore
    · exact UInt64.not_lt.mpr hwindow hlong
  unfold failed
  dsimp only
  rw [if_neg hsame]
  split
  · exact .inr rfl
  · exact .inl rfl

/-! ## One pair's slot -/

section Set

variable {α : Type} {p : α → Bool}

theorem find?_set_of_ne {xs : List α} {i : Nat} {x y : α} (hx : xs[i]? = some x)
    (hpx : p x = false) (hpy : p y = false) : (xs.set i y).find? p = xs.find? p := by
  induction xs generalizing i with
  | nil => cases hx
  | cons z xs ih =>
    cases i with
    | zero =>
      rw [List.getElem?_cons_zero, Option.some.injEq] at hx
      rw [List.set_cons_zero, List.find?_cons_of_neg (by simp [hpy]),
        List.find?_cons_of_neg (by simp [hx, hpx])]
    | succ i =>
      rw [List.getElem?_cons_succ] at hx
      rw [List.set_cons_succ, List.find?_cons, List.find?_cons, ih hx]

theorem find?_set_first {xs : List α} {i : Nat} {y : α} (hi : i < xs.length)
    (hfront : ∀ x ∈ xs.take i, p x = false) (hy : p y = true) :
    (xs.set i y).find? p = some y := by
  induction xs generalizing i with
  | nil => exact absurd hi (Nat.not_lt_zero i)
  | cons z xs ih =>
    cases i with
    | zero => rw [List.set_cons_zero, List.find?_cons_of_pos hy]
    | succ i =>
      rw [List.take_succ_cons] at hfront
      rw [List.set_cons_succ, List.find?_cons_of_neg (by simp [hfront z List.mem_cons_self])]
      exact ih (Nat.lt_of_succ_lt_succ hi) fun x hx => hfront x (List.mem_cons_of_mem z hx)

theorem getElem?_set_cases {xs : List α} {place i : Nat} {new x : α}
    (h : (xs.set place new)[i]? = some x) :
    i = place ∧ x = new ∨ i ≠ place ∧ xs[i]? = some x := by
  by_cases hi : i = place
  · subst hi
    rw [List.getElem?_set_self'] at h
    rcases Option.map_eq_some_iff.mp h with ⟨_, _, heq⟩
    exact .inl ⟨rfl, heq.symm⟩
  · rw [List.getElem?_set_ne (Ne.symm hi)] at h
    exact .inr ⟨hi, h⟩

end Set

/-! ## Runs -/

inductive Call where
  | allow (key : Fingerprint) (ip : UInt32) (nowUs : UInt64)
  | recordFailure (key : Fingerprint) (ip : UInt32) (nowUs : UInt64)
  | recordSuccess (key : Fingerprint) (ip : UInt32)
  | clear

def Call.time? : Call → Option UInt64
  | .allow _ _ nowUs => some nowUs
  | .recordFailure _ _ nowUs => some nowUs
  | .recordSuccess _ _ => none
  | .clear => none

/-- The call forgets the pair. -/
def Call.Forgets (key : Fingerprint) (ip : UInt32) : Call → Prop
  | .recordSuccess key' ip' => key' = key ∧ ip' = ip
  | .clear => True
  | _ => False

def times (calls : List Call) : List UInt64 := calls.filterMap Call.time?

/-- The outputs are the answers of `Allow`. -/
def machine : Machine AuthFailureLimiter Call Bool where
  step
    | s, .allow key ip nowUs => (s, [s.allow key ip nowUs])
    | s, .recordFailure key ip nowUs => (s.recordFailure key ip nowUs, [])
    | s, .recordSuccess key ip => (s.recordSuccess key ip, [])
    | s, .clear => (s.clear, [])

/-- The call is a failure of a pair without a slot, all slots are taken, and the one with the
oldest failure is the pair's. -/
def TakesSlot (key : Fingerprint) (ip : UInt32) (s : AuthFailureLimiter) : Call → Prop
  | .recordFailure key' ip' _ =>
    s.entries.find? (Entry.isOf key' ip') = none ∧ (∀ x ∈ s.entries, x.occupied = true) ∧
      ∃ x, s.entries[oldest s.entries]? = some x ∧ x.isOf key ip = true
  | _ => False

/-- The pair's slot, blocked until `u` at least, its last failure at one of the times. -/
def Blocked (s : AuthFailureLimiter) (key : Fingerprint) (ip : UInt32) (u : UInt64)
    (failures : List UInt64) : Prop :=
  ∃ entry, s.entries.find? (Entry.isOf key ip) = some entry ∧ u ≤ entry.blockedUntilUs ∧
    entry.lastFailureUs ∈ failures

theorem isOf_other {key key' : Fingerprint} {ip ip' : UInt32} {entry : Entry}
    (h : entry.isOf key' ip' = true) (hne : ¬ (key' = key ∧ ip' = ip)) :
    entry.isOf key ip = false := by
  rw [← Bool.not_eq_true, isOf_iff]
  rw [isOf_iff] at h
  rintro ⟨-, hip, hkey⟩
  exact hne ⟨h.2.2.symm.trans hkey, h.2.1.symm.trans hip⟩

/-- A failure of another pair leaves the pair's slot alone, unless it takes it. -/
theorem find?_recordFailure {s : AuthFailureLimiter} {key key' : Fingerprint} {ip ip' : UInt32}
    {nowUs : UInt64} (hne : ¬ (key' = key ∧ ip' = ip))
    (hslot : ¬ TakesSlot key ip s (.recordFailure key' ip' nowUs)) :
    (s.recordFailure key' ip' nowUs).entries.find? (Entry.isOf key ip) =
      s.entries.find? (Entry.isOf key ip) := by
  rcases s.recordFailure_spec key' ip' nowUs with ⟨i, old, hold, hset, hcase⟩
  rw [hset]
  apply find?_set_of_ne hold
  · rcases hcase with ⟨hown, -⟩ | ⟨hnone, hfull⟩
    · exact isOf_other hown hne
    · rw [← Bool.not_eq_true]
      intro hpair
      rcases hfull (isOf_iff.mp hpair).1 with ⟨hall, hi⟩
      exact hslot ⟨hnone, hall, old, by rw [← hi]; exact hold, hpair⟩
  · exact isOf_other (failed_spec old key' ip' nowUs).1 hne

/-- A failure of the pair itself goes into its slot, or into one that becomes its slot. -/
theorem find?_recordFailure_own (s : AuthFailureLimiter) (key : Fingerprint) (ip : UInt32)
    (nowUs : UInt64) :
    ∃ old, (s.recordFailure key ip nowUs).entries.find? (Entry.isOf key ip) =
        some (failed old key ip nowUs) ∧
      ∀ entry, s.entries.find? (Entry.isOf key ip) = some entry → old = entry := by
  rcases s.recordFailure_spec key ip nowUs with ⟨i, old, hold, hset, hcase⟩
  have hi : i < s.entries.length := (List.getElem?_eq_some_iff.mp hold).1
  have hnew := (failed_spec old key ip nowUs).1
  refine ⟨old, ?_, ?_⟩
  · rw [hset]
    apply find?_set_first hi _ hnew
    intro x hx
    rcases hcase with ⟨-, hfront⟩ | ⟨hnone, -⟩
    · exact hfront x hx
    · simpa using List.find?_eq_none.mp hnone x (List.mem_of_mem_take hx)
  · intro entry hentry
    rcases hcase with ⟨hown, hfront⟩ | ⟨hnone, -⟩
    · have hfirst := find?_set_first hi hfront hown
      rw [← (List.getElem?_eq_some_iff.mp hold).2, List.set_getElem_self, hentry] at hfirst
      rw [(List.getElem?_eq_some_iff.mp hold).2] at hfirst
      exact (Option.some.inj hfirst).symm
    · rw [hentry] at hnone
      cases hnone

theorem find?_recordSuccess {s : AuthFailureLimiter} {key key' : Fingerprint} {ip ip' : UInt32}
    (hne : ¬ (key' = key ∧ ip' = ip)) :
    (s.recordSuccess key' ip').entries.find? (Entry.isOf key ip) =
      s.entries.find? (Entry.isOf key ip) := by
  unfold recordSuccess
  split
  · rfl
  · next i hi =>
    rcases List.findIdx?_eq_some_iff_getElem.mp hi with ⟨hlt, hown, -⟩
    exact find?_set_of_ne (List.getElem?_eq_getElem hlt) (isOf_other hown hne) rfl

section Step

variable {s : AuthFailureLimiter} {key : Fingerprint} {ip : UInt32} {since : UInt64}
  {failures : List UInt64}

/-- A call during the block that neither forgets the pair nor takes its slot keeps the block. -/
theorem Blocked.step (h : s.Blocked key ip (since + kAuthFailureCooldownUs) failures)
    (hroom : since.toNat + kAuthFailureCooldownUs.toNat < UInt64.size) {c : Call}
    (htime : ∀ t, c.time? = some t → t.toNat + kAuthFailureCooldownUs.toNat < UInt64.size ∧
      t < since + kAuthFailureCooldownUs ∧ ∀ m ∈ failures, since ≤ m ∧ m ≤ t)
    (hkept : ¬ c.Forgets key ip) (hslot : ¬ TakesSlot key ip s c) :
    (machine.step s c).1.Blocked key ip (since + kAuthFailureCooldownUs)
      (failures ++ c.time?.toList) := by
  rcases h with ⟨entry, hfind, hblocked, hlast⟩
  have hstill : entry.lastFailureUs ∈ failures ++ c.time?.toList := List.mem_append_left _ hlast
  cases c with
  | allow key' ip' nowUs => exact ⟨entry, hfind, hblocked, hstill⟩
  | recordFailure key' ip' nowUs =>
    show (s.recordFailure key' ip' nowUs).Blocked key ip _ _
    by_cases hown : key' = key ∧ ip' = ip
    · rcases hown with ⟨rfl, rfl⟩
      rcases htime nowUs rfl with ⟨hclock, hduring, hordered⟩
      rcases hordered _ hlast with ⟨hsince, hlater⟩
      rcases s.find?_recordFailure_own key' ip' nowUs with ⟨old, hnew, hsame⟩
      rw [hsame entry hfind] at hnew
      refine ⟨_, hnew, ?_, ?_⟩
      · -- the block is shorter than the window, so the slot does not start anew
        have hcool : kAuthFailureCooldownUs.toNat = 10000000 := rfl
        have hwin : kAuthFailureWindowUs.toNat = 60000000 := rfl
        have hsize : UInt64.size = 2 ^ 64 := rfl
        have hu : (since + kAuthFailureCooldownUs).toNat = since.toNat + 10000000 := by
          rw [UInt64.toNat_add, hcool]
          omega
        have hsince' := UInt64.le_iff_toNat_le.mp hsince
        have hlater' := UInt64.le_iff_toNat_le.mp hlater
        have hduring' := UInt64.lt_iff_toNat_lt.mp hduring
        rw [hu] at hduring'
        have hwindow : nowUs - entry.lastFailureUs ≤ kAuthFailureWindowUs := by
          rw [UInt64.le_iff_toNat_le, UInt64.toNat_sub_of_le _ _ hlater, hwin]
          omega
        rcases failed_blocked (List.find?_some hfind) hlater hwindow with hsame | hanew
        · rw [hsame]
          exact hblocked
        · rw [hanew, UInt64.le_iff_toNat_le, hu, UInt64.toNat_add, hcool]
          omega
      · rw [(failed_spec entry key' ip' nowUs).2]
        exact List.mem_append_right _ (List.mem_singleton_self _)
    · refine ⟨entry, ?_, hblocked, hstill⟩
      rw [find?_recordFailure hown hslot]
      exact hfind
  | recordSuccess key' ip' =>
    show (s.recordSuccess key' ip').Blocked key ip _ _
    refine ⟨entry, ?_, hblocked, hstill⟩
    rw [find?_recordSuccess hkept]
    exact hfind
  | clear => exact absurd trivial hkept

end Step

/-- A pair has at most one slot. -/
def Single (s : AuthFailureLimiter) : Prop :=
  ∀ (key : Fingerprint) (ip : UInt32) (i j : Nat) (x y : Entry), s.entries[i]? = some x →
    s.entries[j]? = some y → x.isOf key ip = true → y.isOf key ip = true → i = j

/-- What holds of a slot set to an entry whose pair, if it has one, has no other slot. -/
theorem Single.set {entries : List Entry} {place : Nat} {new : Entry}
    (h : ∀ (key : Fingerprint) (ip : UInt32) (i j : Nat) (x y : Entry), entries[i]? = some x →
      entries[j]? = some y → x.isOf key ip = true → y.isOf key ip = true → i = j)
    (hnew : ∀ (key : Fingerprint) (ip : UInt32), new.isOf key ip = true →
      ∀ (i : Nat) (x : Entry), i ≠ place → entries[i]? = some x → x.isOf key ip = false)
    (key : Fingerprint) (ip : UInt32) (i j : Nat) (x y : Entry)
    (hx : (entries.set place new)[i]? = some x) (hy : (entries.set place new)[j]? = some y)
    (hxof : x.isOf key ip = true) (hyof : y.isOf key ip = true) : i = j := by
  rcases getElem?_set_cases hx with ⟨hi, rfl⟩ | ⟨hi, hx'⟩ <;>
    rcases getElem?_set_cases hy with ⟨hj, rfl⟩ | ⟨hj, hy'⟩
  · rw [hi, hj]
  · rw [hnew key ip hxof j y hj hy'] at hyof
    cases hyof
  · rw [hnew key ip hyof i x hi hx'] at hxof
    cases hxof
  · exact h key ip i j x y hx' hy' hxof hyof

theorem single_fresh : ({} : AuthFailureLimiter).Single := by
  intro key ip i j x y hx _ hxof
  have hmem : x ∈ ({} : AuthFailureLimiter).entries := List.mem_of_getElem? hx
  have hfree : x = {} := List.eq_of_mem_replicate hmem
  rw [hfree] at hxof
  cases hxof

theorem Single.step {s : AuthFailureLimiter} (h : s.Single) (c : Call) :
    (machine.step s c).1.Single := by
  cases c with
  | allow key ip nowUs => exact h
  | recordFailure key ip nowUs =>
    show (s.recordFailure key ip nowUs).Single
    rcases s.recordFailure_spec key ip nowUs with ⟨place, old, hold, hset, hcase⟩
    unfold Single
    rw [hset]
    apply Single.set h
    intro key' ip' hof i x hi hx
    have hpair : key = key' ∧ ip = ip' := by
      by_contra hne
      rw [isOf_other (failed_spec old key ip nowUs).1 hne] at hof
      cases hof
    rw [← hpair.1, ← hpair.2, ← Bool.not_eq_true]
    intro hxof
    rcases hcase with ⟨hown, -⟩ | ⟨hnone, -⟩
    · exact hi (h key ip i place x old hx hold hxof hown)
    · exact List.find?_eq_none.mp hnone x (List.mem_of_getElem? hx) hxof
  | recordSuccess key ip =>
    show (s.recordSuccess key ip).Single
    unfold recordSuccess
    split
    · exact h
    · apply Single.set h
      intro key' ip' hof
      cases hof
  | clear => exact single_fresh

theorem single_run (calls : List Call) : (machine.run {} calls).1.Single := by
  induction calls using List.reverseRecOn with
  | nil => exact single_fresh
  | append_singleton calls c ih =>
    rw [Machine.run_concat]
    exact ih.step c

/-- A pair whose slot was taken may try again at once. -/
theorem allow_of_takesSlot {s : AuthFailureLimiter} (hsingle : s.Single) {key : Fingerprint}
    {ip : UInt32} {c : Call} (h : TakesSlot key ip s c) (nowUs : UInt64) :
    (machine.step s c).1.allow key ip nowUs = true := by
  cases c with
  | recordFailure key' ip' failedUs =>
    rcases h with ⟨hnone, hall, taken, htaken, hpair⟩
    show (s.recordFailure key' ip' failedUs).allow key ip nowUs = true
    have hne : ¬ (key' = key ∧ ip' = ip) := by
      rintro ⟨rfl, rfl⟩
      exact List.find?_eq_none.mp hnone taken (List.mem_of_getElem? htaken) hpair
    rcases s.recordFailure_spec key' ip' failedUs with
      ⟨place, old, hold, hset, ⟨hown, -⟩ | ⟨-, hfull⟩⟩
    · exact absurd hown (List.find?_eq_none.mp hnone old (List.mem_of_getElem? hold))
    · have hplace := (hfull (hall old (List.mem_of_getElem? hold))).2
      have hgone : (s.recordFailure key' ip' failedUs).entries.find? (Entry.isOf key ip) =
          none := by
        rw [hset, List.find?_eq_none]
        intro x hx hxof
        rcases List.mem_iff_getElem?.mp hx with ⟨i, hi⟩
        rcases getElem?_set_cases hi with ⟨-, rfl⟩ | ⟨hother, hi'⟩
        · rw [isOf_other (failed_spec old key' ip' failedUs).1 hne] at hxof
          cases hxof
        · apply hother
          rw [hplace]
          exact hsingle key ip i _ x taken hi' htaken hxof hpair
      unfold allow
      rw [hgone]
  | allow _ _ _ => exact h.elim
  | recordSuccess _ _ => exact h.elim
  | clear => exact h.elim

/-- The block is kept through a run that neither forgets the pair nor takes its slot. -/
theorem blocked_run {s : AuthFailureLimiter} {key : Fingerprint} {ip : UInt32} {since : UInt64}
    (h : s.Blocked key ip (since + kAuthFailureCooldownUs) [since]) {calls : List Call}
    (hordered : (since :: times calls).Pairwise (· ≤ ·))
    (hclock : ∀ t ∈ since :: times calls, t.toNat + kAuthFailureCooldownUs.toNat < UInt64.size)
    (hduring : ∀ t ∈ times calls, t < since + kAuthFailureCooldownUs)
    (hkept : ∀ c ∈ calls, ¬ c.Forgets key ip)
    (hslot : machine.Along (fun s _ c => ¬ TakesSlot key ip s c) s calls) :
    (machine.run s calls).1.Blocked key ip (since + kAuthFailureCooldownUs)
      (since :: times calls) := by
  induction calls using List.reverseRecOn with
  | nil => exact h
  | append_singleton calls c ih =>
    have htimes : times (calls ++ [c]) = times calls ++ c.time?.toList := by
      unfold times
      rw [List.filterMap_append]
      cases htime : c.time? <;> simp [htime]
    rw [htimes, ← List.cons_append] at hordered hclock ⊢
    rw [htimes] at hduring
    have hsorted := List.pairwise_append.mp hordered
    have hstill := ih hsorted.1 (fun t ht => hclock t (List.mem_append_left _ ht))
      (fun t ht => hduring t (List.mem_append_left _ ht))
      (fun d hd => hkept d (List.mem_append_left _ hd)) hslot.init
    rw [Machine.run_concat]
    apply hstill.step (hclock since List.mem_cons_self) _ _ hslot.last
    · intro t ht
      have hmem : t ∈ c.time?.toList := by
        rw [ht]
        exact List.mem_singleton_self t
      refine ⟨hclock t (List.mem_append_right _ hmem),
        hduring t (List.mem_append_right _ hmem), ?_⟩
      intro m hm
      refine ⟨?_, hsorted.2.2 m hm t hmem⟩
      rcases List.mem_cons.mp hm with heq | hlater
      · exact UInt64.le_of_eq heq.symm
      · exact (List.pairwise_cons.mp hsorted.1).1 m hlater
    · exact hkept c (List.mem_append_right _ (List.mem_singleton_self c))

end AuthFailureLimiter

/-- In every run in time order in which a failure blocked a pair and the pair is not forgotten:
until the block is over the pair is refused after every call exactly when no call takes the
pair's slot. The clock stays away from the end of its 64 bits. -/
theorem failureLimiter_blocked_iff (before after : List AuthFailureLimiter.Call)
    (key : Fingerprint) (ip : UInt32) (since : UInt64)
    (hordered : (AuthFailureLimiter.times
      (before ++ .recordFailure key ip since :: after)).Pairwise (· ≤ ·))
    (hblocked : ((AuthFailureLimiter.machine.run {}
      (before ++ [.recordFailure key ip since])).1.entries.find?
        (AuthFailureLimiter.Entry.isOf key ip)).map (·.blockedUntilUs) =
          some (since + kAuthFailureCooldownUs))
    (hclock : ∀ t ∈ since :: AuthFailureLimiter.times after,
      t.toNat + kAuthFailureCooldownUs.toNat < UInt64.size)
    (hduring : ∀ t ∈ AuthFailureLimiter.times after, t < since + kAuthFailureCooldownUs)
    (hkept : ∀ c ∈ after, ¬ c.Forgets key ip) :
    (∀ part rest, after = part ++ rest → ∀ t, t < since + kAuthFailureCooldownUs →
        (AuthFailureLimiter.machine.run {}
          (before ++ .recordFailure key ip since :: part)).1.allow key ip t = false) ↔
      AuthFailureLimiter.machine.Along
        (fun s _ c => ¬ AuthFailureLimiter.TakesSlot key ip s c)
        (AuthFailureLimiter.machine.run {} (before ++ [.recordFailure key ip since])).1 after := by
  have hrun : ∀ part,
      (AuthFailureLimiter.machine.run {} (before ++ .recordFailure key ip since :: part)).1 =
        (AuthFailureLimiter.machine.run (AuthFailureLimiter.machine.run {}
          (before ++ [.recordFailure key ip since])).1 part).1 := by
    intro part
    rw [← List.singleton_append, ← List.append_assoc, Machine.run_append]
  have hstart : (AuthFailureLimiter.machine.run {}
      (before ++ [.recordFailure key ip since])).1.Blocked key ip
        (since + kAuthFailureCooldownUs) [since] := by
    rcases Option.map_eq_some_iff.mp hblocked with ⟨entry, hfind, huntil⟩
    refine ⟨entry, hfind, UInt64.le_of_eq huntil.symm, ?_⟩
    rw [Machine.run_concat] at hfind
    rcases (AuthFailureLimiter.machine.run {} before).1.find?_recordFailure_own key ip since with
      ⟨old, hnew, -⟩
    have hentry : AuthFailureLimiter.failed old key ip since = entry :=
      Option.some.inj (hnew.symm.trans hfind)
    rw [← hentry, (AuthFailureLimiter.failed_spec old key ip since).2]
    exact List.mem_singleton_self since
  have hafter : (since :: AuthFailureLimiter.times after).Pairwise (· ≤ ·) := by
    unfold AuthFailureLimiter.times at hordered ⊢
    rw [List.filterMap_append] at hordered
    exact (List.pairwise_append.mp hordered).2.1
  constructor
  · intro hrefused part c rest hsplit htakes
    -- the call is a failure at some time of the block; then the pair is let in again
    have htime : ∃ t, t < since + kAuthFailureCooldownUs := by
      refine ⟨since, ?_⟩
      have hsince := hclock since List.mem_cons_self
      have hcool : kAuthFailureCooldownUs.toNat = 10000000 := rfl
      have hsize : UInt64.size = 2 ^ 64 := rfl
      rw [UInt64.lt_iff_toNat_lt, UInt64.toNat_add, hcool]
      omega
    rcases htime with ⟨t, ht⟩
    have hthen := hrefused (part ++ [c]) rest (by rw [hsplit, List.append_assoc]; rfl) t ht
    have hsingle : (AuthFailureLimiter.machine.run (AuthFailureLimiter.machine.run {}
        (before ++ [.recordFailure key ip since])).1 part).1.Single := by
      rw [← hrun]
      exact AuthFailureLimiter.single_run _
    rw [hrun, Machine.run_concat, AuthFailureLimiter.allow_of_takesSlot hsingle htakes] at hthen
    cases hthen
  · intro hslot part rest hsplit t ht
    rw [hrun]
    rw [hsplit] at hslot hkept hduring hafter hclock
    have htimes : AuthFailureLimiter.times (part ++ rest) =
        AuthFailureLimiter.times part ++ AuthFailureLimiter.times rest := List.filterMap_append
    rw [htimes] at hduring
    rw [htimes, ← List.cons_append] at hafter hclock
    rcases AuthFailureLimiter.blocked_run hstart (List.pairwise_append.mp hafter).1
      (fun x hx => hclock x (List.mem_append_left _ hx))
      (fun x hx => hduring x (List.mem_append_left _ hx))
      (fun c hc => hkept c (List.mem_append_left _ hc)) hslot.left with ⟨entry, hfind, huntil, -⟩
    unfold AuthFailureLimiter.allow
    rw [hfind]
    rw [decide_eq_false_iff_not, UInt64.not_le]
    exact UInt64.lt_of_lt_of_le ht huntil

/-- The key of the `n`th device. -/
def deviceKey (n : Nat) : Fingerprint := ⟨UInt8.ofNat n :: List.replicate 31 0, rfl⟩

/-- As many failures as block a pair. -/
def blockingFailures (n : Nat) (t : UInt64) : List AuthFailureLimiter.Call :=
  List.replicate kAuthFailureLimit (.recordFailure (deviceKey n) 7 t)

/-- A failure of another pair does not end the block while there are free slots. -/
theorem failureLimiter_blocked_iff_neighbour :
    (AuthFailureLimiter.machine.run {} ([.recordFailure (deviceKey 0) 7 1000,
      .recordFailure (deviceKey 0) 7 1000] ++ .recordFailure (deviceKey 0) 7 1000 ::
        [.recordFailure (deviceKey 1) 7 1001])).1.allow (deviceKey 0) 7 1002 = false := by
  apply (failureLimiter_blocked_iff [.recordFailure (deviceKey 0) 7 1000,
    .recordFailure (deviceKey 0) 7 1000] [.recordFailure (deviceKey 1) 7 1001] (deviceKey 0) 7 1000
    _ _ _ _ _).mpr _ [.recordFailure (deviceKey 1) 7 1001] [] rfl 1002
  · decide +kernel
  · decide
  · decide +kernel
  · intro t ht
    rcases List.mem_cons.mp ht with rfl | hlater
    · decide
    · rw [List.mem_singleton.mp hlater]
      decide
  · intro t ht
    rw [List.mem_singleton.mp ht]
    decide
  · intro c hc
    rw [List.mem_singleton.mp hc]
    exact id
  · rw [Machine.along_iff]
    refine ⟨?_, trivial⟩
    rintro ⟨-, hall, -⟩
    revert hall
    decide +kernel

/-- Each of 64 pairs is blocked, one failure time after the other, and one more pair fails. -/
def filledTable : List AuthFailureLimiter.Call :=
  (List.range 63).flatMap (fun n => blockingFailures (n + 1) (UInt64.ofNat (1001 + n))) ++
    [.recordFailure (deviceKey 64) 7 1064]

/-- The first pair's block ends with the last of these failures, and so does a block at the end
of the clock when the pair fails on. -/
theorem filled_not_blocked :
    ((AuthFailureLimiter.machine.run {} (blockingFailures 0 1000)).1.allow (deviceKey 0) 7 1065 =
        false ∧
      (AuthFailureLimiter.times (blockingFailures 0 1000 ++ filledTable)).Pairwise (· ≤ ·) ∧
      (AuthFailureLimiter.machine.run {} (blockingFailures 0 1000 ++ filledTable)).1.allow
        (deviceKey 0) 7 1065 = true) ∧
      (AuthFailureLimiter.machine.run {} (blockingFailures 0 (0 - 10000001))).1.allow
        (deviceKey 0) 7 (0 - 10000000) = false ∧
      (AuthFailureLimiter.machine.run {}
        (blockingFailures 0 (0 - 10000001) ++ blockingFailures 0 (0 - 10000000))).1.allow
          (deviceKey 0) 7 (0 - 10000000) = true := by
  refine ⟨⟨?_, ?_, ?_⟩, ?_, ?_⟩
  all_goals decide +kernel

end Deskhub
