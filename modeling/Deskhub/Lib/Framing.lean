import Deskhub.Lib.Machine

/-!
# Reading items off a stream

A reader looks at the front of a stream and says whether more is needed, the
stream is bad, or an item stands there. More input never changes what it has
said, so the items of a stream do not depend on how it is cut.
-/

universe u v w

/-- What a reader says of the front of a stream. -/
inductive Verdict (β : Type u) (ω : Type v) where
  | more
  | bad
  | item (value : ω) (rest : List β)

/-- A reader that takes something for every item and keeps to what it said. -/
structure Reader (β : Type u) (ω : Type v) where
  read : List β → Verdict β ω
  shorter : ∀ {xs value rest}, read xs = .item value rest → rest.length < xs.length
  item_append : ∀ {xs value rest}, read xs = .item value rest →
    ∀ ys, read (xs ++ ys) = .item value (rest ++ ys)
  bad_append : ∀ {xs}, read xs = .bad → ∀ ys, read (xs ++ ys) = .bad

namespace Reader

variable {β : Type u} {ω : Type v} (r : Reader β ω)

/-- The items of a stream, and what is left of it; nothing when it is bad. -/
def decode (xs : List β) : List ω × Option (List β) :=
  match h : r.read xs with
  | .more => ([], some xs)
  | .bad => ([], none)
  | .item value rest =>
      have : rest.length < xs.length := r.shorter h
      (value :: (decode rest).1, (decode rest).2)
  termination_by xs.length

variable {r} {xs ys rest : List β} {value : ω}

theorem decode_more (h : r.read xs = .more) : r.decode xs = ([], some xs) := by
  rw [decode]
  split <;> simp_all

theorem decode_bad (h : r.read xs = .bad) : r.decode xs = ([], none) := by
  rw [decode]
  split <;> simp_all

theorem decode_item (h : r.read xs = .item value rest) :
    r.decode xs = (value :: (r.decode rest).1, (r.decode rest).2) := by
  rw [decode]
  split
  · next hmore => cases h.symm.trans hmore
  · next hbad => cases h.symm.trans hbad
  · next hitem =>
    cases h.symm.trans hitem
    rfl

/-- What is left is too short for a verdict. -/
theorem read_rest (h : (r.decode xs).2 = some rest) : r.read rest = .more := by
  induction hlen : xs.length using Nat.strongRecOn generalizing xs with
  | ind n ih =>
    cases hread : r.read xs with
    | more =>
      rw [decode_more hread] at h
      cases h
      exact hread
    | bad =>
      rw [decode_bad hread] at h
      cases h
    | item value tail =>
      rw [decode_item hread] at h
      exact ih tail.length (hlen ▸ r.shorter hread) h rfl

/-- A stream that is bad stays so, and gives the items it gave. -/
theorem decode_append_of_bad (h : (r.decode xs).2 = none) (ys : List β) :
    r.decode (xs ++ ys) = ((r.decode xs).1, none) := by
  induction hlen : xs.length using Nat.strongRecOn generalizing xs with
  | ind n ih =>
    cases hread : r.read xs with
    | more =>
      rw [decode_more hread] at h
      cases h
    | bad => rw [decode_bad hread, decode_bad (r.bad_append hread ys)]
    | item value tail =>
      rw [decode_item hread] at h ⊢
      rw [decode_item (r.item_append hread ys), ih tail.length (hlen ▸ r.shorter hread) h rfl]

/-- Reading goes on from what was left. -/
theorem decode_append (h : (r.decode xs).2 = some rest) (ys : List β) :
    r.decode (xs ++ ys) =
      ((r.decode xs).1 ++ (r.decode (rest ++ ys)).1, (r.decode (rest ++ ys)).2) := by
  induction hlen : xs.length using Nat.strongRecOn generalizing xs with
  | ind n ih =>
    cases hread : r.read xs with
    | more =>
      rw [decode_more hread] at h ⊢
      cases h
      rfl
    | bad =>
      rw [decode_bad hread] at h
      cases h
    | item value tail =>
      rw [decode_item hread] at h ⊢
      rw [decode_item (r.item_append hread ys), ih tail.length (hlen ▸ r.shorter hread) h rfl]
      rfl

/-! ## Chunks -/

variable {σ : Type w} {m : Machine σ (List β) ω} {left : σ → Option (List β)}

variable (r m left) in
/-- A machine that keeps what is left of a stream (nothing once it is bad) and outputs the items
of each chunk. -/
structure Follows : Prop where
  bad : ∀ s chunk, left s = none → (m.step s chunk).2 = [] ∧ left (m.step s chunk).1 = none
  good : ∀ s chunk rest, left s = some rest → r.read rest = .more →
    (m.step s chunk).2 = (r.decode (rest ++ chunk)).1 ∧
      left (m.step s chunk).1 = (r.decode (rest ++ chunk)).2

theorem Follows.run_bad (h : r.Follows m left) {s : σ} (hbad : left s = none)
    (chunks : List (List β)) : (m.run s chunks).2 = [] ∧ left (m.run s chunks).1 = none := by
  induction chunks generalizing s with
  | nil => exact ⟨rfl, hbad⟩
  | cons chunk chunks ih =>
    rcases h.bad s chunk hbad with ⟨hnone, hstay⟩
    rcases ih hstay with ⟨hrest, hend⟩
    rw [Machine.run_cons, hnone, hrest]
    exact ⟨rfl, hend⟩

/-- However a stream is cut, its items come out, and the same is left. -/
theorem Follows.run (h : r.Follows m left) {s : σ} (hleft : left s = some rest)
    (hmore : r.read rest = .more) (chunks : List (List β)) :
    (m.run s chunks).2 = (r.decode (rest ++ chunks.flatten)).1 ∧
      left (m.run s chunks).1 = (r.decode (rest ++ chunks.flatten)).2 := by
  induction chunks generalizing s rest with
  | nil =>
    rw [List.flatten_nil, List.append_nil, decode_more hmore]
    exact ⟨rfl, hleft⟩
  | cons chunk chunks ih =>
    rcases h.good s chunk rest hleft hmore with ⟨hout, hnext⟩
    rw [List.flatten_cons, ← List.append_assoc, Machine.run_cons, hout]
    cases hd : (r.decode (rest ++ chunk)).2 with
    | none =>
      rw [hd] at hnext
      rcases h.run_bad hnext chunks with ⟨hnone, hend⟩
      rw [decode_append_of_bad hd, hnone, List.append_nil]
      exact ⟨rfl, hend⟩
    | some tail =>
      rw [hd] at hnext
      rcases ih hnext (read_rest hd) with ⟨hrest, hend⟩
      rw [decode_append hd, hrest]
      exact ⟨rfl, hend⟩

end Reader
