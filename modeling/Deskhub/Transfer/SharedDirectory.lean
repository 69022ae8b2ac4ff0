import Deskhub.Transfer.FileStoreRuns

/-!
# Several stores in one directory

The host keeps a store for each peer, all of them in one directory. Each store is one of the other
programs for the rest, and one that leaves their part files alone. So what holds of one store holds
of each of them, whatever the others do at the same time.
-/

namespace Deskhub

open OrdMap

universe u

/-- The stores, each under a name of its own, and their directory. -/
structure SharedDir (ι : Type u) where
  stores : ι → FileStore := fun _ => {}
  dir : StoreDir

inductive SharedDirInput (ι : Type u) where
  | store (i : ι) (input : FileStoreInput)
  /-- A program that is none of the stores changes a file. -/
  | outside (name : Bytes) (content : Option Bytes)
deriving DecidableEq

variable {ι : Type u} [DecidableEq ι]

/-- All stores and the directory as one machine; a result comes with the store it is of. -/
def sharedDir : Machine (SharedDir ι) (SharedDirInput ι) (ι × FileStoreEvent) where
  step w
    | .store i input =>
        let (store, ops, out) := (w.stores i).step w.dir input
        ({ stores := Function.update w.stores i store, dir := FileOps.apply w.dir ops }, out.map (i, ·))
    | .outside name content => ({ w with dir := Function.update w.dir name content }, [])

/-- The results of one store. -/
def resultsOf (i : ι) (out : List (ι × FileStoreEvent)) : List FileStoreEvent :=
  (out.filter (fun p => p.1 = i)).map Prod.snd

theorem resultsOf_append (i : ι) (xs ys : List (ι × FileStoreEvent)) :
    resultsOf i (xs ++ ys) = resultsOf i xs ++ resultsOf i ys := by
  simp [resultsOf]

theorem resultsOf_self (i : ι) (out : List FileStoreEvent) : resultsOf i (out.map (i, ·)) = out := by
  simp [resultsOf, List.filter_map, Function.comp_def]

theorem resultsOf_other {i j : ι} (hne : i ≠ j) (out : List FileStoreEvent) :
    resultsOf j (out.map (i, ·)) = [] := by
  simp [resultsOf, List.filter_map, Function.comp_def, hne]

/-- Programs that are none of the stores keep their hands off the part files. -/
def LeavesAllParts (w : SharedDir ι) (_ : List (ι × FileStoreEvent)) : SharedDirInput ι → Prop
  | .outside name _ => ∀ i, name ∉ (w.stores i).owns
  | .store _ _ => True

namespace SharedDir

variable {w : SharedDir ι} {out : List (ι × FileStoreEvent)}

/-- Each store is as if it were alone, and no part file has two owners. -/
structure Inv (w : SharedDir ι) (out : List (ι × FileStoreEvent)) : Prop where
  each : ∀ i, (w.stores i).Inv w.dir (writtenBy (resultsOf i out))
  disjoint : ∀ i j, i ≠ j → ∀ n, n ∈ (w.stores i).owns → n ∉ (w.stores j).owns

theorem Inv.start (d : StoreDir) : Inv (ι := ι) { dir := d } [] where
  each _ := FileStore.Inv.start d
  disjoint _ _ _ n hn := by
    rcases hn with ⟨i, slot, hfind, -⟩ | ⟨i, slot, target, retries, hcall, -⟩
    · cases hfind
    · cases hcall

/-- A step of store `i` within its own files leaves those of store `j` alone. -/
theorem Inv.leaves (h : w.Inv out) {i j : ι} (hne : i ≠ j) (input : FileStoreInput) {n : Bytes}
    (hn : n ∈ (w.stores j).owns) :
    FileOps.apply w.dir ((w.stores i).step w.dir input).2.1 n = w.dir n ∧
      n ∉ ((w.stores i).step w.dir input).1.owns := by
  have hkeeps := FileStore.step_keeps (h.each i) input
  rcases (h.each j).there hn with ⟨c, hc⟩
  have hnot : n ∉ (w.stores i).owns := fun hmem => h.disjoint i j hne n hmem hn
  rcases hkeeps.within.leaves hnot hc with ⟨hkept, hafter⟩
  exact ⟨by rw [hkept, hc], fun hmem => hafter (hkeeps.own hmem)⟩

theorem Inv.step (h : w.Inv out) {input : SharedDirInput ι} (hleaves : LeavesAllParts w out input) :
    (sharedDir.step w input).1.Inv (out ++ (sharedDir.step w input).2) := by
  cases input with
  | outside name content =>
    simp only [sharedDir, List.append_nil]
    constructor
    · intro i
      refine (h.each i).congr fun n hn => ?_
      -- no store owns the name that another program writes
      have hne : n ≠ name := fun heq => hleaves i (heq ▸ hn)
      exact Function.update_of_ne hne _ _
    · exact h.disjoint
  | store i input =>
    simp only [sharedDir]
    constructor
    · intro j
      rw [resultsOf_append, StoreWorld.writtenBy_append]
      dsimp only
      by_cases heq : i = j
      · -- the store that took the step
        subst heq
        rw [Function.update_self, resultsOf_self]
        exact (FileStore.step_keeps (h.each i) input).inv
      · rw [Function.update_of_ne (Ne.symm heq), resultsOf_other heq]
        exact (h.each j).congr fun n hn => (h.leaves heq input hn).1
    · intro j k hne n hj hk
      dsimp only at hj hk
      by_cases hji : j = i
      · subst hji
        rw [Function.update_self] at hj
        rw [Function.update_of_ne (Ne.symm hne)] at hk
        exact (h.leaves hne input hk).2 hj
      · rw [Function.update_of_ne hji] at hj
        by_cases hki : k = i
        · subst hki
          rw [Function.update_self] at hk
          exact (h.leaves (Ne.symm hji) input hj).2 hk
        · rw [Function.update_of_ne hki] at hk
          exact h.disjoint j k hne n hj hk

theorem run_inv (d : StoreDir) {inputs : List (SharedDirInput ι)}
    (hleaves : sharedDir.Along LeavesAllParts { dir := d } inputs) :
    (sharedDir.run { dir := d } inputs).1.Inv (sharedDir.run { dir := d } inputs).2 := by
  refine Machine.run_invariant (fun w out => w.Inv out) LeavesAllParts (Inv.start d) ?_ inputs hleaves
  intro w out input hinput hinv
  exact hinv.step hinput

/-- A file that is no store's part file is left alone by all of them. -/
theorem Inv.keeps (h : w.Inv out) {input : SharedDirInput ι} {n c : Bytes}
    (hn : ∀ i, n ∉ (w.stores i).owns) (hc : w.dir n = some c) (houtside : ∀ content, input ≠ .outside n content) :
    (sharedDir.step w input).1.dir n = some c ∧ ∀ i, n ∉ ((sharedDir.step w input).1.stores i).owns := by
  cases input with
  | outside name content =>
    have hne : n ≠ name := by
      rintro rfl
      exact houtside content rfl
    simp only [sharedDir]
    exact ⟨by rw [Function.update_of_ne hne, hc], hn⟩
  | store i input =>
    have hkeeps := FileStore.step_keeps (h.each i) input
    rcases hkeeps.within.leaves (hn i) hc with ⟨hkept, hnot⟩
    simp only [sharedDir]
    refine ⟨hkept, fun j => ?_⟩
    by_cases heq : j = i
    · subst heq
      rw [Function.update_self]
      exact fun hmem => hnot (hkeeps.own hmem)
    · rw [Function.update_of_ne heq]
      exact hn j

theorem run_keeps (d : StoreDir) {before after : List (SharedDirInput ι)}
    (hleaves : sharedDir.Along LeavesAllParts { dir := d } (before ++ after)) {n c : Bytes}
    (hn : ∀ i, n ∉ ((sharedDir.run { dir := d } before).1.stores i).owns)
    (hc : (sharedDir.run { dir := d } before).1.dir n = some c)
    (houtside : ∀ content, SharedDirInput.outside n content ∉ after) :
    (sharedDir.run { dir := d } (before ++ after)).1.dir n = some c ∧
      ∀ i, n ∉ ((sharedDir.run { dir := d } (before ++ after)).1.stores i).owns := by
  induction after using List.reverseRecOn with
  | nil => simpa using ⟨hc, hn⟩
  | append_singleton after input ih =>
    rw [← List.append_assoc] at hleaves ⊢
    rcases ih hleaves.init (fun content hmem => houtside content (by simp [hmem])) with ⟨hkept, hnot⟩
    rw [Machine.run_concat]
    refine (run_inv d hleaves.init).keeps hnot hkept ?_
    rintro content rfl
    exact houtside content (by simp)

end SharedDir

/-- Two peers send a file of one name at the same time. -/
def twoPeers : List (SharedDirInput Bool) :=
  [.store false (.setDirectory true), .store true (.setDirectory true),
    .store false (.openFile 0 (ascii "a") 1 true { freeBytes := 9 }),
    .store true (.openFile 0 (ascii "a") 1 true { freeBytes := 9 }),
    .store false (.write 0 [1]), .store true (.write 0 [2]), .store true (.goOn true true),
    .store false (.goOn true true), .store false .takeJob, .store false (.finishJob none),
    .store true .takeJob, .store true (.finishJob none), .store false (.close 0 true true true)]

end Deskhub
