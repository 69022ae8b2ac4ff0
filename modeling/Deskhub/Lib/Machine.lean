import Mathlib.Data.List.Induction

/-!
# Deterministic machines with inputs and outputs

A component is a function from a state and an input to the next state and the
outputs it makes on the way. A run feeds a list of inputs; the rules below turn
facts about one step into facts about every run.
-/

universe u v w

/-- A component that answers each input with a new state and a list of outputs. -/
structure Machine (σ : Type u) (α : Type v) (ω : Type w) where
  step : σ → α → σ × List ω

namespace Machine

variable {σ : Type u} {α : Type v} {ω : Type w} (m : Machine σ α ω)

/-- Feed a list of inputs, collecting the outputs in order. -/
def run : σ → List α → σ × List ω
  | s, [] => (s, [])
  | s, a :: as =>
      let first := m.step s a
      let rest := run first.1 as
      (rest.1, first.2 ++ rest.2)

@[simp] theorem run_nil (s : σ) : m.run s [] = (s, []) := rfl

theorem run_cons (s : σ) (a : α) (as : List α) :
    m.run s (a :: as) = ((m.run (m.step s a).1 as).1, (m.step s a).2 ++ (m.run (m.step s a).1 as).2) :=
  rfl

theorem run_append (s : σ) (as bs : List α) :
    m.run s (as ++ bs) =
      ((m.run (m.run s as).1 bs).1, (m.run s as).2 ++ (m.run (m.run s as).1 bs).2) := by
  induction as generalizing s with
  | nil => simp
  | cons a as ih => simp [run_cons, ih, List.append_assoc]

/-- The last input of a run: one step from the state the others lead to. -/
theorem run_concat (s : σ) (as : List α) (a : α) :
    m.run s (as ++ [a]) =
      ((m.step (m.run s as).1 a).1, (m.run s as).2 ++ (m.step (m.run s as).1 a).2) := by
  rw [run_append]
  simp [run_cons]

/-- Each input of the run meets `C`, which sees the state and the outputs before it. -/
def Along (C : σ → List ω → α → Prop) (s : σ) (as : List α) : Prop :=
  ∀ pre a post, as = pre ++ a :: post → C (m.run s pre).1 (m.run s pre).2 a

variable {m}

theorem Along.left {C : σ → List ω → α → Prop} {s : σ} {as bs : List α}
    (h : m.Along C s (as ++ bs)) : m.Along C s as := by
  intro pre a post hsplit
  exact h pre a (post ++ bs) (by simp [hsplit])

theorem Along.init {C : σ → List ω → α → Prop} {s : σ} {as : List α} {a : α}
    (h : m.Along C s (as ++ [a])) : m.Along C s as :=
  h.left

theorem Along.last {C : σ → List ω → α → Prop} {s : σ} {as : List α} {a : α}
    (h : m.Along C s (as ++ [a])) : C (m.run s as).1 (m.run s as).2 a :=
  h as a [] rfl

/-- The condition of a run, input by input, with the outputs so far. -/
def AlongFrom (m : Machine σ α ω) (C : σ → List ω → α → Prop) : σ → List ω → List α → Prop
  | _, _, [] => True
  | s, out, a :: as => C s out a ∧ AlongFrom m C (m.step s a).1 (out ++ (m.step s a).2) as

theorem along_iff {C : σ → List ω → α → Prop} {s : σ} {as : List α} :
    m.Along C s as ↔ m.AlongFrom C s [] as := by
  suffices h : ∀ (s : σ) (out : List ω), (∀ pre a post, as = pre ++ a :: post →
      C (m.run s pre).1 (out ++ (m.run s pre).2) a) ↔ m.AlongFrom C s out as from by
    simpa [Along] using h s []
  induction as with
  | nil =>
    intro s out
    simp [AlongFrom]
  | cons a as ih =>
    intro s out
    rw [AlongFrom, ← ih]
    constructor
    · intro h
      refine ⟨by simpa using h [] a as rfl, ?_⟩
      intro pre a' post hsplit
      have := h (a :: pre) a' post (by simp [hsplit])
      rwa [run_cons, ← List.append_assoc] at this
    · rintro ⟨hfirst, hrest⟩ pre a' post hsplit
      cases pre with
      | nil =>
        simp only [List.nil_append, List.cons.injEq] at hsplit
        rw [← hsplit.1]
        simpa using hfirst
      | cons b pre =>
        simp only [List.cons_append, List.cons.injEq] at hsplit
        rw [← hsplit.1, run_cons, ← List.append_assoc]
        exact hrest pre a' post hsplit.2

theorem alongFrom_append {C : σ → List ω → α → Prop} {s : σ} {out : List ω} {as bs : List α} :
    m.AlongFrom C s out (as ++ bs) ↔
      m.AlongFrom C s out as ∧ m.AlongFrom C (m.run s as).1 (out ++ (m.run s as).2) bs := by
  induction as generalizing s out with
  | nil => simp [AlongFrom]
  | cons a as ih =>
    rw [List.cons_append, AlongFrom, AlongFrom, ih, run_cons, and_assoc, List.append_assoc]

/-- A condition that can be checked can be checked along a run. -/
instance decidableAlongFrom {C : σ → List ω → α → Prop} [∀ s out a, Decidable (C s out a)] :
    (s : σ) → (out : List ω) → (as : List α) → Decidable (m.AlongFrom C s out as)
  | _, _, [] => .isTrue trivial
  | s, out, a :: as =>
      have : Decidable (m.AlongFrom C (m.step s a).1 (out ++ (m.step s a).2) as) :=
        decidableAlongFrom _ _ as
      inferInstanceAs (Decidable (C s out a ∧ m.AlongFrom C _ _ as))

instance {C : σ → List ω → α → Prop} [∀ s out a, Decidable (C s out a)] (s : σ) (as : List α) :
    Decidable (m.Along C s as) :=
  decidable_of_iff _ along_iff.symm

/-- The invariant rule: what holds at the start and is kept by each step whose
input meets `C` holds at the end of every run all of whose inputs meet `C`. -/
theorem run_invariant (P : σ → List ω → Prop) (C : σ → List ω → α → Prop) {s : σ}
    (hinit : P s [])
    (hstep : ∀ s out a, C s out a → P s out → P (m.step s a).1 (out ++ (m.step s a).2))
    (as : List α) (hC : m.Along C s as) : P (m.run s as).1 (m.run s as).2 := by
  induction as using List.reverseRecOn with
  | nil => exact hinit
  | append_singleton as a ih =>
    rw [run_concat]
    exact hstep _ _ a hC.last (ih hC.init)

/-- The invariant rule without a condition on the inputs. -/
theorem run_invariant' (P : σ → List ω → Prop) {s : σ} (hinit : P s [])
    (hstep : ∀ s out a, P s out → P (m.step s a).1 (out ++ (m.step s a).2)) (as : List α) :
    P (m.run s as).1 (m.run s as).2 :=
  run_invariant P (fun _ _ _ => True) hinit (fun s out a _ h => hstep s out a h) as
    (fun _ _ _ _ => trivial)

/-- Where each input makes at most one output, an output of a run is the output of one input, made
after the outputs before it. -/
theorem split_of_output (hone : ∀ s a, (m.step s a).2.length ≤ 1) {s : σ} {as : List α} {xs ys : List ω}
    {e : ω} (h : (m.run s as).2 = xs ++ e :: ys) :
    ∃ pre a post, as = pre ++ a :: post ∧ (m.run s pre).2 = xs ∧ (m.step (m.run s pre).1 a).2 = [e] := by
  induction as generalizing s xs with
  | nil => simp at h
  | cons a as ih =>
    rw [run_cons] at h
    have hfirst := hone s a
    match hout : (m.step s a).2 with
    | [] =>
      rw [hout, List.nil_append] at h
      rcases ih h with ⟨pre, a', post, rfl, hpre, hstep⟩
      exact ⟨a :: pre, a', post, rfl, by rw [run_cons, hout, hpre, List.nil_append], hstep⟩
    | [o] =>
      rw [hout, List.singleton_append] at h
      cases xs with
      | nil =>
        obtain ⟨rfl, -⟩ := List.cons.inj h
        exact ⟨[], a, as, rfl, rfl, hout⟩
      | cons x xs =>
        obtain ⟨rfl, hrest⟩ := List.cons.inj h
        rcases ih hrest with ⟨pre, a', post, rfl, hpre, hstep⟩
        exact ⟨a :: pre, a', post, rfl, by rw [run_cons, hout, hpre, List.singleton_append], hstep⟩
    | o :: o' :: rest =>
      rw [hout] at hfirst
      simp at hfirst

/-- A run with the outputs of each input. -/
def trace (m : Machine σ α ω) : σ → List α → List (α × List ω)
  | _, [] => []
  | s, a :: as => (a, (m.step s a).2) :: trace m (m.step s a).1 as

end Machine

/-! ## Watchers -/

/-- An observer of a machine's outputs: what it has noted so far, and which output
it allows next. -/
structure Watcher (μ : Type u) (α : Type v) (ω : Type w) where
  after : μ → α → ω → μ
  allows : μ → α → ω → Prop

namespace Watcher

universe x

variable {μ : Type u} {α : Type v} {ω : Type w} {σ : Type x} (w : Watcher μ α ω)

/-- What is noted after the outputs of one input. -/
def afterAll (n : μ) (a : α) (out : List ω) : μ := out.foldl (fun n e => w.after n a e) n

/-- Each output of one input is allowed. -/
def AllowsAll : μ → α → List ω → Prop
  | _, _, [] => True
  | n, a, e :: es => w.allows n a e ∧ AllowsAll (w.after n a e) a es

/-- Each output of a run is allowed. -/
def Accepts : μ → List (α × List ω) → Prop
  | _, [] => True
  | n, p :: rest => w.AllowsAll n p.1 p.2 ∧ Accepts (w.afterAll n p.1 p.2) rest

/-- What is noted at the end of a run. -/
def finish (n : μ) (run : List (α × List ω)) : μ := run.foldl (fun n p => w.afterAll n p.1 p.2) n

@[simp] theorem afterAll_nil (n : μ) (a : α) : w.afterAll n a [] = n := rfl

@[simp] theorem afterAll_cons (n : μ) (a : α) (e : ω) (es : List ω) :
    w.afterAll n a (e :: es) = w.afterAll (w.after n a e) a es := rfl

@[simp] theorem afterAll_append (n : μ) (a : α) (xs ys : List ω) :
    w.afterAll n a (xs ++ ys) = w.afterAll (w.afterAll n a xs) a ys :=
  List.foldl_append

@[simp] theorem allowsAll_nil (n : μ) (a : α) : w.AllowsAll n a [] := trivial

@[simp] theorem allowsAll_cons (n : μ) (a : α) (e : ω) (es : List ω) :
    w.AllowsAll n a (e :: es) ↔ w.allows n a e ∧ w.AllowsAll (w.after n a e) a es := Iff.rfl

@[simp] theorem allowsAll_append (n : μ) (a : α) (xs ys : List ω) :
    w.AllowsAll n a (xs ++ ys) ↔ w.AllowsAll n a xs ∧ w.AllowsAll (w.afterAll n a xs) a ys := by
  induction xs generalizing n with
  | nil => simp
  | cons e xs ih => simp [ih, and_assoc]

theorem AllowsAll.mono {w w' : Watcher μ α ω} (hafter : w'.after = w.after)
    (hallows : ∀ n a e, w.allows n a e → w'.allows n a e) {n : μ} {a : α} {es : List ω}
    (h : w.AllowsAll n a es) : w'.AllowsAll n a es := by
  induction es generalizing n with
  | nil => trivial
  | cons e es ih =>
    refine ⟨hallows n a e h.1, ?_⟩
    rw [hafter]
    exact ih h.2

/-- A watcher that notes the same and allows more accepts more runs. -/
theorem Accepts.mono {w w' : Watcher μ α ω} (hafter : w'.after = w.after)
    (hallows : ∀ n a e, w.allows n a e → w'.allows n a e) {n : μ} {run : List (α × List ω)}
    (h : w.Accepts n run) : w'.Accepts n run := by
  induction run generalizing n with
  | nil => trivial
  | cons p run ih =>
    refine ⟨h.1.mono hafter hallows, ?_⟩
    have hnotes : w'.afterAll n p.1 p.2 = w.afterAll n p.1 p.2 := by
      unfold afterAll
      rw [hafter]
    rw [hnotes]
    exact ih h.2

/-- The rule for watched runs: a relation between states and notes that each step
keeps, allowing its outputs, holds at the end of every run, all of it allowed. -/
theorem watch {m : Machine σ α ω} (R : σ → μ → Prop) {s : σ} {n : μ} (hinit : R s n)
    (hstep : ∀ s n a, R s n →
      w.AllowsAll n a (m.step s a).2 ∧ R (m.step s a).1 (w.afterAll n a (m.step s a).2))
    (as : List α) :
    w.Accepts n (m.trace s as) ∧ R (m.run s as).1 (w.finish n (m.trace s as)) := by
  induction as generalizing s n with
  | nil => exact ⟨trivial, hinit⟩
  | cons a as ih =>
    rcases hstep s n a hinit with ⟨hallow, hnext⟩
    rcases ih hnext with ⟨haccept, hend⟩
    exact ⟨⟨hallow, haccept⟩, hend⟩

end Watcher
