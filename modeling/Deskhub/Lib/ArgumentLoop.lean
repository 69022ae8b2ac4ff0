/-!
# Loops over a list of arguments

The body of the loop takes the first argument and, if it likes, some of those behind it; then it
goes on with what is left or ends the loop with a result. An argument that is an option is offered
to handlers, one behind the other.
-/

namespace ArgumentLoop

variable {α σ τ φ : Type}

/-- What can be left of the arguments behind the first: an end of them. -/
abbrev Left (rest : List α) : Type := { left : List α // left <:+ rest }

namespace Left

variable (rest : List α)

/-- Nothing more was taken. -/
def all : Left rest := ⟨rest, List.suffix_rfl⟩

end Left

/-! ## Handlers -/

/-- What a handler does with an option. -/
inductive Outcome (σ : Type) (rest : List α) where
  | handled (s : σ) (left : Left rest)
  | unknown
  | failed (s : σ)

/-- A handler of options: it may take arguments behind the option. -/
abbrev Handler (σ φ α : Type) : Type := σ → φ → (rest : List α) → Outcome σ rest

namespace Outcome

variable {rest : List α}

/-- The state is in `P` if the option was handled and in `F` if it failed. -/
def Holds (P F : σ → Prop) : Outcome σ rest → Prop
  | handled s _ => P s
  | unknown => True
  | failed s => F s

theorem Holds.mono {P P' F : σ → Prop} {outcome : Outcome σ rest} (h : outcome.Holds P F)
    (hP : ∀ s, P s → P' s) : outcome.Holds P' F := by
  cases outcome with
  | handled s left => exact hP s h
  | unknown => exact h
  | failed s => exact h

end Outcome

namespace Handler

variable {P F : σ → Prop}

/-- The second handler is offered the options that the first does not know. -/
def orElse (f g : Handler σ φ α) : Handler σ φ α := fun s flag rest =>
  match f s flag rest with
  | .handled s left => .handled s left
  | .unknown => g s flag rest
  | .failed s => .failed s

/-- The handler stays in `P`, and where it fails it is in `F`. -/
def Keeps (P F : σ → Prop) (f : Handler σ φ α) : Prop :=
  ∀ s flag rest, P s → (f s flag rest).Holds P F

theorem Keeps.orElse {f g : Handler σ φ α} (hf : f.Keeps P F) (hg : g.Keeps P F) :
    (f.orElse g).Keeps P F := by
  intro s flag rest hs
  have hfirst := hf s flag rest hs
  unfold Handler.orElse
  split
  · next heq =>
    rw [heq] at hfirst
    exact hfirst
  · exact hg s flag rest hs
  · next heq =>
    rw [heq] at hfirst
    exact hfirst

end Handler

/-! ## The loop -/

/-- What the body does with an argument. -/
inductive Step (σ τ : Type) (rest : List α) where
  | goOn (s : σ) (left : Left rest)
  | stop (result : τ)

namespace Step

variable {rest : List α}

/-- Go on with another state. -/
def mapState {σ' : Type} (f : σ → σ') : Step σ τ rest → Step σ' τ rest
  | goOn s left => goOn (f s) left
  | stop result => stop result

/-- The state is in `P` if the loop goes on, the result is in `Q` if it ends. -/
def Holds (P : σ → Prop) (Q : τ → Prop) : Step σ τ rest → Prop
  | goOn s _ => P s
  | stop result => Q result

theorem Holds.mapState {σ' : Type} {P : σ → Prop} {P' : σ' → Prop} {Q : τ → Prop} {f : σ → σ'}
    {step : Step σ τ rest} (h : step.Holds P Q) (hf : ∀ s, P s → P' (f s)) :
    (step.mapState f).Holds P' Q := by
  cases step with
  | goOn s left => exact hf s h
  | stop result => exact h

end Step

section Loop

variable (body : σ → (token : α) → (rest : List α) → Step σ τ rest) (finish : σ → τ)

/-- The loop, for a list that is not longer than the fuel: every step takes an argument. -/
def loopFrom : (fuel : Nat) → σ → (args : List α) → args.length ≤ fuel → τ
  | _, s, [], _ => finish s
  | 0, _, _ :: _, hlen => absurd hlen (Nat.not_succ_le_zero _)
  | fuel + 1, s, token :: rest, hlen =>
    match body s token rest with
    | .goOn s left =>
      loopFrom fuel s left.1 (Nat.le_trans left.2.length_le (Nat.le_of_succ_le_succ hlen))
    | .stop result => result

/-- The loop over all arguments; `finish` is what happens behind it. -/
def loop (s : σ) (args : List α) : τ := loopFrom body finish args.length s args (Nat.le_refl _)

variable {body finish}

/-- The invariant rule: `P` before every argument, `Q` of the result. -/
theorem loopFrom_holds {P : σ → Prop} {Q : τ → Prop}
    (hbody : ∀ s token rest, P s → (body s token rest).Holds P Q) (hfinish : ∀ s, P s → Q (finish s))
    (fuel : Nat) (s : σ) (args : List α) (hlen : args.length ≤ fuel) (h : P s) :
    Q (loopFrom body finish fuel s args hlen) := by
  induction fuel generalizing s args with
  | zero =>
    cases args with
    | nil => exact hfinish s h
    | cons token rest => exact absurd hlen (Nat.not_succ_le_zero _)
  | succ fuel ih =>
    cases args with
    | nil => exact hfinish s h
    | cons token rest =>
      have hstep := hbody s token rest h
      unfold loopFrom
      split
      · next heq =>
        rw [heq] at hstep
        exact ih _ _ _ hstep
      · next heq =>
        rw [heq] at hstep
        exact hstep

theorem loop_holds {P : σ → Prop} {Q : τ → Prop}
    (hbody : ∀ s token rest, P s → (body s token rest).Holds P Q)
    (hfinish : ∀ s, P s → Q (finish s)) {s : σ} (h : P s) (args : List α) :
    Q (loop body finish s args) :=
  loopFrom_holds hbody hfinish args.length s args (Nat.le_refl _) h

end Loop

end ArgumentLoop
