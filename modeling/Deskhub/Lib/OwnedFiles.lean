import Mathlib.Data.Set.Insert
import Mathlib.Logic.Function.Basic

/-!
# Files with owners

A directory gives each name the content of its file. Programs that share it change it by single
operations. Each owns the files it made: it makes a file only under a name that nothing has, and
changes, removes or renames only what it owns. What a program that keeps to this leaves alone is
every file of the others.
-/

universe u v

/-- The content of the file of each name. -/
abbrev Directory (ν : Type u) (κ : Type v) : Type (max u v) := ν → Option κ

namespace Directory

variable {ν : Type u} {κ : Type v} [DecidableEq ν]

/-- Whether something has the name. -/
def has (d : Directory ν κ) (n : ν) : Bool := (d n).isSome

def set (d : Directory ν κ) (n : ν) (c : κ) : Directory ν κ := Function.update d n (some c)

def remove (d : Directory ν κ) (n : ν) : Directory ν κ := Function.update d n none

/-- The file of `a` gets the name `b`. -/
def move (d : Directory ν κ) (a b : ν) : Directory ν κ :=
  Function.update (Function.update d b (d a)) a none

variable {d : Directory ν κ} {n : ν}

@[simp] theorem set_self (d : Directory ν κ) (n : ν) (c : κ) : d.set n c n = some c :=
  Function.update_self ..

theorem set_of_ne (d : Directory ν κ) {n m : ν} (c : κ) (h : m ≠ n) : d.set n c m = d m :=
  Function.update_of_ne h ..

@[simp] theorem remove_self (d : Directory ν κ) (n : ν) : d.remove n n = none :=
  Function.update_self ..

theorem remove_of_ne (d : Directory ν κ) {n m : ν} (h : m ≠ n) : d.remove n m = d m :=
  Function.update_of_ne h ..

@[simp] theorem move_from (d : Directory ν κ) (a b : ν) : d.move a b a = none :=
  Function.update_self ..

theorem move_to (d : Directory ν κ) {a b : ν} (h : b ≠ a) : d.move a b b = d a := by
  unfold move
  rw [Function.update_of_ne h, Function.update_self]

theorem move_of_ne (d : Directory ν κ) {a b m : ν} (ha : m ≠ a) (hb : m ≠ b) : d.move a b m = d m := by
  unfold move
  rw [Function.update_of_ne ha, Function.update_of_ne hb]

omit [DecidableEq ν] in
theorem has_eq_false : d.has n = false ↔ d n = none := by
  simp [has]

end Directory

/-- A change of a directory. -/
inductive FileOp (ν : Type u) (κ : Type v) where
  | create (n : ν) (c : κ)
  | write (n : ν) (c : κ)
  | remove (n : ν)
  | move (a b : ν)
deriving DecidableEq

namespace FileOp

variable {ν : Type u} {κ : Type v} [DecidableEq ν]

def apply (d : Directory ν κ) : FileOp ν κ → Directory ν κ
  | create n c => d.set n c
  | write n c => d.set n c
  | remove n => d.remove n
  | move a b => d.move a b

/-- The operation keeps to the files in `own`. -/
def Within (own : Set ν) (d : Directory ν κ) : FileOp ν κ → Prop
  | create n _ => d n = none
  | write n _ => n ∈ own
  | remove n => n ∈ own
  | move a b => a ∈ own ∧ d b = none

/-- What is owned after an operation: a file that was renamed is given away. -/
def ownAfter (own : Set ν) : FileOp ν κ → Set ν
  | create n _ => insert n own
  | write _ _ => own
  | remove n => own \ {n}
  | move a _ => own \ {a}

variable {own : Set ν} {d : Directory ν κ} {op : FileOp ν κ}

omit [DecidableEq ν] in
theorem Within.mono {own' : Set ν} (h : op.Within own d) (hown : own ⊆ own') : op.Within own' d := by
  cases op with
  | create n c => exact h
  | write n c => exact hown h
  | remove n => exact hown h
  | move a b => exact ⟨hown h.1, h.2⟩

omit [DecidableEq ν] in
theorem ownAfter_mono {own' : Set ν} (op : FileOp ν κ) (hown : own ⊆ own') :
    op.ownAfter own ⊆ op.ownAfter own' := by
  cases op with
  | create n c => exact Set.insert_subset_insert hown
  | write n c => exact hown
  | remove n => exact fun m hm => ⟨hown hm.1, hm.2⟩
  | move a b => exact fun m hm => ⟨hown hm.1, hm.2⟩

/-- A file that is there and not owned is left alone. -/
theorem Within.leaves (h : op.Within own d) {n : ν} {c : κ} (hn : n ∉ own) (hc : d n = some c) :
    op.apply d n = some c ∧ n ∉ op.ownAfter own := by
  cases op with
  | create m c' =>
    have hne : n ≠ m := by
      rintro rfl
      simp [Within, hc] at h
    constructor
    · simp only [apply]
      rw [Directory.set_of_ne _ _ hne, hc]
    · simp [ownAfter, hne, hn]
  | write m c' =>
    have hne : n ≠ m := fun heq => hn (heq ▸ h)
    constructor
    · simp only [apply]
      rw [Directory.set_of_ne _ _ hne, hc]
    · exact hn
  | remove m =>
    have hne : n ≠ m := fun heq => hn (heq ▸ h)
    constructor
    · simp only [apply]
      rw [Directory.remove_of_ne _ hne, hc]
    · exact fun hmem => hn hmem.1
  | move a b =>
    have ha : n ≠ a := fun heq => hn (heq ▸ h.1)
    have hb : n ≠ b := by
      rintro rfl
      simp [Within, hc] at h
    constructor
    · simp only [apply]
      rw [Directory.move_of_ne _ ha hb, hc]
    · exact fun hmem => hn hmem.1

end FileOp

namespace FileOps

variable {ν : Type u} {κ : Type v} [DecidableEq ν]

/-- The directory after the operations. -/
def apply (d : Directory ν κ) (ops : List (FileOp ν κ)) : Directory ν κ := ops.foldl FileOp.apply d

/-- Each operation keeps to what is owned when its turn comes. -/
def Within : Set ν → Directory ν κ → List (FileOp ν κ) → Prop
  | _, _, [] => True
  | own, d, op :: ops => op.Within own d ∧ Within (op.ownAfter own) (op.apply d) ops

/-- What is owned after the operations. -/
def ownAfter (own : Set ν) (ops : List (FileOp ν κ)) : Set ν := ops.foldl FileOp.ownAfter own

@[simp] theorem apply_nil (d : Directory ν κ) : apply d [] = d := rfl

@[simp] theorem apply_cons (d : Directory ν κ) (op : FileOp ν κ) (ops : List (FileOp ν κ)) :
    apply d (op :: ops) = apply (op.apply d) ops := rfl

omit [DecidableEq ν] in
@[simp] theorem ownAfter_nil (own : Set ν) : ownAfter own ([] : List (FileOp ν κ)) = own := rfl

omit [DecidableEq ν] in
@[simp] theorem ownAfter_cons (own : Set ν) (op : FileOp ν κ) (ops : List (FileOp ν κ)) :
    ownAfter own (op :: ops) = ownAfter (op.ownAfter own) ops := rfl

theorem apply_append (d : Directory ν κ) (xs ys : List (FileOp ν κ)) :
    apply d (xs ++ ys) = apply (apply d xs) ys :=
  List.foldl_append

omit [DecidableEq ν] in
theorem ownAfter_append (own : Set ν) (xs ys : List (FileOp ν κ)) :
    ownAfter own (xs ++ ys) = ownAfter (ownAfter own xs) ys :=
  List.foldl_append

omit [DecidableEq ν] in
theorem ownAfter_mono {own own' : Set ν} (ops : List (FileOp ν κ)) (hown : own ⊆ own') :
    ownAfter own ops ⊆ ownAfter own' ops := by
  induction ops generalizing own own' with
  | nil => exact hown
  | cons op ops ih => exact ih (FileOp.ownAfter_mono op hown)

theorem Within.mono {own own' : Set ν} {d : Directory ν κ} {ops : List (FileOp ν κ)}
    (h : Within own d ops) (hown : own ⊆ own') : Within own' d ops := by
  induction ops generalizing own own' d with
  | nil => trivial
  | cons op ops ih => exact ⟨h.1.mono hown, ih h.2 (FileOp.ownAfter_mono op hown)⟩

theorem Within.append {own : Set ν} {d : Directory ν κ} {xs ys : List (FileOp ν κ)}
    (hxs : Within own d xs) (hys : Within (ownAfter own xs) (apply d xs) ys) : Within own d (xs ++ ys) := by
  induction xs generalizing own d with
  | nil => exact hys
  | cons op xs ih => exact ⟨hxs.1, ih hxs.2 hys⟩

/-- What one owner does leaves the files of all others as they are. -/
theorem Within.leaves {own : Set ν} {d : Directory ν κ} {ops : List (FileOp ν κ)} (h : Within own d ops)
    {n : ν} {c : κ} (hn : n ∉ own) (hc : d n = some c) :
    apply d ops n = some c ∧ n ∉ ownAfter own ops := by
  induction ops generalizing own d with
  | nil => exact ⟨hc, hn⟩
  | cons op ops ih =>
    rcases h.1.leaves hn hc with ⟨hkept, hnot⟩
    exact ih h.2 hnot hkept

end FileOps
