import Mathlib.Data.Finset.Union
import Mathlib.Data.List.DropRight
import Mathlib.Order.Interval.Finset.Nat

/-!
# Overlapping windows of a sequence

A sender hands out windows `[lo, hi)` of a growing sequence, each of which starts
at least `lead` places before the end of what went out so far. A reader takes from
each window what lies beyond all it took before. However the windows are lost,
repeated and reordered, it takes a subsequence; and as long as no gap hides more
than `lead` new places, it takes everything.
-/

universe u v

namespace Windows

variable {δ : Type u} {α : Type v} (lo hi : δ → Nat)

/-- The places a window shows. -/
def shown (d : δ) : Finset Nat := Finset.Ico (lo d) (hi d)

/-- The places the windows of a list show. -/
def shownBy (ds : List δ) : Finset Nat := ds.foldr (fun d places => shown lo hi d ∪ places) ∅

theorem shownBy_append (xs ys : List δ) :
    shownBy lo hi (xs ++ ys) = shownBy lo hi xs ∪ shownBy lo hi ys := by
  induction xs with
  | nil => exact (Finset.empty_union _).symm
  | cons d xs ih =>
    rw [List.cons_append]
    show shown lo hi d ∪ shownBy lo hi (xs ++ ys) = (shown lo hi d ∪ shownBy lo hi xs) ∪ _
    rw [ih, Finset.union_assoc]

/-- Windows handed out one after the other; the number is how far they reach. -/
inductive Chained (lead : Nat) : List δ → Nat → Prop where
  | nil : Chained lead [] 0
  | snoc {ds : List δ} {n : Nat} {d : δ} (before : Chained lead ds n) (start : lo d ≤ n - lead)
      (reach : n ≤ hi d) : Chained lead (ds ++ [d]) (hi d)

variable {lo hi} {lead : Nat}

theorem Chained.snoc_iff {ds : List δ} {d : δ} {m : Nat} :
    Chained lo hi lead (ds ++ [d]) m ↔
      m = hi d ∧ ∃ n, Chained lo hi lead ds n ∧ lo d ≤ n - lead ∧ n ≤ hi d := by
  constructor
  · intro h
    generalize hds : ds ++ [d] = all at h
    cases h with
    | nil => exact absurd hds (by simp)
    | snoc before start reach =>
      rcases List.append_inj' hds rfl with ⟨hinit, hlast⟩
      rw [List.singleton_inj] at hlast
      rw [hinit, hlast]
      exact ⟨rfl, _, before, start, reach⟩
  · rintro ⟨rfl, n, before, start, reach⟩
    exact .snoc before start reach

/-- What chained windows show is everything up to where they reach. -/
theorem Chained.shownBy_eq {ds : List δ} {n : Nat} (h : Chained lo hi lead ds n) :
    shownBy lo hi ds = Finset.range n := by
  induction h with
  | nil => rfl
  | @snoc ds n d before start reach ih =>
    rw [shownBy_append, ih]
    show Finset.range n ∪ (Finset.Ico (lo d) (hi d) ∪ ∅) = Finset.range (hi d)
    rw [Finset.union_empty]
    ext place
    simp only [Finset.mem_union, Finset.mem_range, Finset.mem_Ico]
    omega

/-! ## The reader -/

/-- What is taken from a window when the first `next` places are behind the reader. -/
def taken (lo hi : δ → Nat) (xs : List α) (next : Nat) (d : δ) : List α :=
  ((xs.take (hi d)).drop (lo d)).drop (next - lo d)

/-- The places behind the reader, and what it took, after the windows of a list. -/
def read (lo hi : δ → Nat) (xs : List α) : Nat → List δ → Nat × List α
  | next, [] => (next, [])
  | next, d :: ds =>
      let rest := read lo hi xs (max next (hi d)) ds
      (rest.1, taken lo hi xs next d ++ rest.2)

variable {xs : List α}

theorem read_append (next : Nat) (ds es : List δ) :
    read lo hi xs next (ds ++ es) =
      ((read lo hi xs (read lo hi xs next ds).1 es).1,
        (read lo hi xs next ds).2 ++ (read lo hi xs (read lo hi xs next ds).1 es).2) := by
  induction ds generalizing next with
  | nil => rfl
  | cons d ds ih =>
    rw [List.cons_append, read, ih, read]
    simp only [List.append_assoc]

/-- What is taken starts beyond what was taken before. -/
theorem taken_eq (xs : List α) (next : Nat) (d : δ) :
    taken lo hi xs next d = (xs.take (hi d)).drop (max next (lo d)) := by
  unfold taken
  rw [List.drop_drop]
  congr 1
  omega

/-- Whatever windows arrive, in whatever order and however often, the reader takes a
subsequence of the sequence. -/
theorem read_sublist (next : Nat) (ds : List δ) :
    (read lo hi xs next ds).2.Sublist (xs.drop next) := by
  induction ds generalizing next with
  | nil => exact List.nil_sublist _
  | cons d ds ih =>
    show (taken lo hi xs next d ++ (read lo hi xs (max next (hi d)) ds).2).Sublist (xs.drop next)
    -- the places from `next` up to the new end, and those from there on
    have hsplit : (xs.take (max next (hi d))).drop next ++ xs.drop (max next (hi d)) =
        xs.drop next := by
      have hjoin := List.take_append_drop (max next (hi d) - next) (xs.drop next)
      rw [List.drop_drop, ← List.drop_take] at hjoin
      rwa [show next + (max next (hi d) - next) = max next (hi d) by omega] at hjoin
    have hfirst : (taken lo hi xs next d).Sublist ((xs.take (max next (hi d))).drop next) := by
      rw [taken_eq]
      apply List.Sublist.trans (List.drop_sublist_drop_left _ (Nat.le_max_left next (lo d)))
      apply List.Sublist.drop
      exact List.take_sublist_take_left (Nat.le_max_right next (hi d))
    rw [← hsplit]
    exact hfirst.append (ih (max next (hi d)))

/-! ## Windows that arrive in order -/

/-- The windows that arrive, given how many copies of each do. -/
def arrivals (fates : List (δ × Nat)) : List δ :=
  fates.flatMap fun f => List.replicate f.2 f.1

/-- The part of a run up to the last window that arrives. -/
def upToArrival (fates : List (δ × Nat)) : List (δ × Nat) :=
  fates.rdropWhile fun f => f.2 = 0

variable (lo hi lead) in
/-- Each longest run of lost windows with an arriving one behind it shows at most
`lead` places that were not shown before. -/
def Covered (fates : List (δ × Nat)) : Prop :=
  ∀ before gap f after, fates = before ++ gap ++ f :: after →
    (∀ g ∈ before.getLast?, 0 < g.2) → (∀ g ∈ gap, g.2 = 0) → 0 < f.2 →
    (shownBy lo hi (gap.map Prod.fst) \ shownBy lo hi (before.map Prod.fst)).card ≤ lead

theorem Covered.init {fates : List (δ × Nat)} {f : δ × Nat} (h : Covered lo hi lead (fates ++ [f])) :
    Covered lo hi lead fates := by
  intro before gap g after hsplit
  apply h before gap g (after ++ [f])
  rw [hsplit]
  simp only [List.append_assoc, List.cons_append]

/-- A run that shows at most `lead` places is covered, whatever of it is lost. -/
theorem covered_of_card_le {fates : List (δ × Nat)}
    (h : (shownBy lo hi (fates.map Prod.fst)).card ≤ lead) : Covered lo hi lead fates := by
  rintro before gap f after rfl - - -
  apply Nat.le_trans _ h
  apply Finset.card_le_card
  rw [List.map_append, List.map_append, shownBy_append, shownBy_append]
  apply Finset.Subset.trans Finset.sdiff_subset
  exact Finset.Subset.trans Finset.subset_union_right Finset.subset_union_left

theorem arrivals_concat (fates : List (δ × Nat)) (f : δ × Nat) :
    arrivals (fates ++ [f]) = arrivals fates ++ List.replicate f.2 f.1 := by
  unfold arrivals
  rw [List.flatMap_append, List.flatMap_singleton]

/-- The last window of the part up to the last arrival arrives. -/
theorem getLast?_upToArrival (fates : List (δ × Nat)) :
    ∀ g ∈ (upToArrival fates).getLast?, 0 < g.2 := by
  intro g hg
  have hne : upToArrival fates ≠ [] := by
    intro hnil
    rw [hnil] at hg
    exact absurd hg (by simp)
  have hlast := List.rdropWhile_last_not (fun f : δ × Nat => decide (f.2 = 0)) fates hne
  rw [List.getLast?_eq_some_getLast hne] at hg
  simp only [Option.mem_def, Option.some.injEq] at hg
  have : ¬ g.2 = 0 := by
    rw [← hg]
    exact of_decide_eq_false (Bool.eq_false_of_not_eq_true hlast)
  omega

/-- Once a window is read, further copies of it change nothing. -/
theorem read_replicate_of_le {next : Nat} {d : δ} (h : hi d ≤ next) (k : Nat) :
    read lo hi xs next (List.replicate k d) = (next, []) := by
  induction k with
  | zero => rfl
  | succ k ih =>
    have hnone : taken lo hi xs next d = [] := by
      rw [taken_eq]
      apply List.drop_eq_nil_of_le
      rw [List.length_take]
      omega
    rw [List.replicate_succ, read, Nat.max_eq_left h, ih, hnone]
    rfl

/-- A window that starts at or before the reader's place, in one or more copies. -/
theorem read_replicate {next : Nat} {d : δ} {k : Nat} (hstart : lo d ≤ next) (hreach : next ≤ hi d)
    (hk : 0 < k) :
    read lo hi xs next (List.replicate k d) = (hi d, (xs.take (hi d)).drop next) := by
  cases k with
  | zero => exact absurd hk (Nat.lt_irrefl 0)
  | succ k =>
    rw [List.replicate_succ, read, Nat.max_eq_right hreach, read_replicate_of_le (Nat.le_refl _),
      taken_eq, Nat.max_eq_left hstart, List.append_nil]

/-- When the windows arrive in order and every gap is covered by the lead, the reader
has taken everything shown up to the last window that arrived. -/
theorem read_arrivals (xs : List α) {fates : List (δ × Nat)} {n : Nat}
    (hchain : Chained lo hi lead (fates.map Prod.fst) n) (hgaps : Covered lo hi lead fates) :
    ∃ m, shownBy lo hi ((upToArrival fates).map Prod.fst) = Finset.range m ∧
      read lo hi xs 0 (arrivals fates) = (m, xs.take m) := by
  induction fates using List.reverseRecOn generalizing n with
  | nil => exact ⟨0, rfl, rfl⟩
  | append_singleton fates f ih =>
    have hchain' := hchain
    rw [List.map_append] at hchain'
    rcases Chained.snoc_iff.mp hchain' with ⟨-, n, before, start, reach⟩
    rcases ih before hgaps.init with ⟨m, hshown, hread⟩
    rw [arrivals_concat, read_append, hread]
    dsimp only
    by_cases hlost : f.2 = 0
    · -- nothing arrives: the last arrival is where it was
      refine ⟨m, ?_, ?_⟩
      · unfold upToArrival
        rw [List.rdropWhile_concat_pos (h := by simpa using hlost)]
        exact hshown
      · rw [hlost]
        exact congrArg (Prod.mk m) (List.append_nil _)
    · have hcopies : 0 < f.2 := Nat.pos_of_ne_zero hlost
      have hsplit : fates = upToArrival fates ++ fates.rtakeWhile fun f => f.2 = 0 :=
        List.rdropWhile_append_rtakeWhile.symm
      -- the places between the reader's and the new window are those of the gap
      have hgap : n - m ≤ lead := by
        have hcard := hgaps (upToArrival fates) (fates.rtakeWhile fun f => f.2 = 0) f []
          (by rw [← hsplit]) (getLast?_upToArrival fates)
          (fun g hg => by simpa using List.mem_rtakeWhile_imp hg) hcopies
        have hall := before.shownBy_eq
        rw [hsplit, List.map_append, shownBy_append, hshown] at hall
        have hdiff : shownBy lo hi ((fates.rtakeWhile fun f => f.2 = 0).map Prod.fst) \
            Finset.range m = Finset.range n \ Finset.range m := by
          rw [← hall, Finset.union_sdiff_left]
        have hico : Finset.range n \ Finset.range m = Finset.Ico m n := by
          ext place
          simp only [Finset.mem_sdiff, Finset.mem_range, Finset.mem_Ico]
          omega
        rwa [hshown, hdiff, hico, Nat.card_Ico] at hcard
      have hm : m ≤ n := by
        have hall := before.shownBy_eq
        rw [hsplit, List.map_append, shownBy_append, hshown] at hall
        exact Finset.range_subset_range.mp (hall ▸ Finset.subset_union_left)
      refine ⟨hi f.1, ?_, ?_⟩
      · unfold upToArrival
        rw [List.rdropWhile_concat_neg (h := by simpa using hlost), hchain.shownBy_eq]
        rw [Chained.snoc_iff.mp hchain' |>.1]
      · rw [read_replicate (by omega) (by omega) hcopies]
        dsimp only
        congr 1
        have htake : xs.take m = (xs.take (hi f.1)).take m := by
          rw [List.take_take, Nat.min_eq_left (by omega)]
        rw [htake, List.take_append_drop]

end Windows
