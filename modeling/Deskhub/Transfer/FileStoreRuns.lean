import Deskhub.Transfer.FileStore

/-!
# Runs of the file store

Other programs may do what they like in the directory except to the part files of the store. Then
in every run nothing that was there is lost or changed by the store, a file that is kept is whole,
and no call waits forever.
-/

namespace Deskhub

open OrdMap

/-- Other programs keep their hands off the part files. -/
def LeavesParts (w : StoreWorld) (_ : List FileStoreEvent) : FileStoreInput → Prop
  | .others name _ => name ∉ w.store.owns
  | _ => True

namespace StoreWorld

/-- The invariant of a store in its directory, with the results so far. -/
def Inv (w : StoreWorld) (out : List FileStoreEvent) : Prop := w.store.Inv w.dir (writtenBy out)

theorem writtenBy_append (out new : List FileStoreEvent) :
    writtenBy (out ++ new) = recordAll (writtenBy out) new := by
  funext i
  exact List.foldl_append

/-- What another program does to a file that is not the store's. -/
theorem Inv.outside {w : StoreWorld} {out : List FileStoreEvent} (h : w.Inv out) {input : FileStoreInput}
    (hleaves : LeavesParts w out input) :
    w.store.Inv (input.outside w.dir) (writtenBy out) ∧
      ∀ n ∈ w.store.owns, input.outside w.dir n = w.dir n := by
  have hsame : ∀ n ∈ w.store.owns, input.outside w.dir n = w.dir n := by
    intro n hn
    cases input with
    | others name content =>
      have hne : n ≠ name := fun heq => hleaves (heq ▸ hn)
      exact Function.update_of_ne hne _ _
    | _ => rfl
  exact ⟨h.congr hsame, hsame⟩

/-- Outside changes do not decide what a step of the store does. -/
theorem step_outside (s : FileStore) (d : StoreDir) (input : FileStoreInput) :
    s.step d input = s.step (input.outside d) input := by
  cases input <;> rfl

theorem Inv.step {w : StoreWorld} {out : List FileStoreEvent} (h : w.Inv out) {input : FileStoreInput}
    (hleaves : LeavesParts w out input) :
    (fileStore.step w input).1.Inv (out ++ (fileStore.step w input).2) := by
  have hkeeps := FileStore.step_keeps (h.outside hleaves).1 input
  unfold Inv
  rw [writtenBy_append]
  simp only [fileStore, step_outside w.store w.dir input]
  exact hkeeps.inv

theorem run_inv (d : StoreDir) {inputs : List FileStoreInput}
    (hleaves : fileStore.Along LeavesParts { dir := d } inputs) :
    (fileStore.run { dir := d } inputs).1.Inv (fileStore.run { dir := d } inputs).2 := by
  refine Machine.run_invariant (fun w out => w.Inv out) LeavesParts (FileStore.Inv.start d) ?_ inputs hleaves
  intro w out input hinput hinv
  exact hinv.step hinput

/-- Steps of the store alone. -/
theorem Inv.run {w : StoreWorld} {out : List FileStoreEvent} (h : w.Inv out) {inputs : List FileStoreInput}
    (halone : ∀ input ∈ inputs, ∀ name content, input ≠ .others name content) :
    (fileStore.run w inputs).1.Inv (out ++ (fileStore.run w inputs).2) := by
  induction inputs generalizing w out with
  | nil => simpa using h
  | cons input inputs ih =>
    have hleaves : LeavesParts w out input := by
      cases input with
      | others name content => exact absurd rfl (halone _ (by simp) name content)
      | _ => trivial
    rw [Machine.run_cons, ← List.append_assoc]
    exact ih (h.step hleaves) fun input' hmem => halone input' (by simp [hmem])

/-- One step leaves a file that is not the store's as it was. -/
theorem Inv.leaves {w : StoreWorld} {out : List FileStoreEvent} (h : w.Inv out) {input : FileStoreInput}
    (hleaves : LeavesParts w out input) {n c : Bytes} (hn : n ∉ w.store.owns) (hc : w.dir n = some c)
    (hothers : ∀ content, input ≠ .others n content) :
    (fileStore.step w input).1.dir n = some c ∧ n ∉ (fileStore.step w input).1.store.owns := by
  have hkeeps := FileStore.step_keeps (h.outside hleaves).1 input
  have hc' : input.outside w.dir n = some c := by
    cases input with
    | others name content =>
      have hne : n ≠ name := by
        rintro rfl
        exact hothers content rfl
      rw [← hc]
      exact Function.update_of_ne hne _ _
    | _ => exact hc
  rcases hkeeps.within.leaves hn hc' with ⟨hkept, hnot⟩
  simp only [fileStore, step_outside w.store w.dir input]
  exact ⟨hkept, fun hmem => hnot (hkeeps.own hmem)⟩

/-- What is not the store's at some time stays as it is from then on. -/
theorem run_leaves (d : StoreDir) {before after : List FileStoreInput}
    (hleaves : fileStore.Along LeavesParts { dir := d } (before ++ after)) {n c : Bytes}
    (hn : n ∉ (fileStore.run { dir := d } before).1.store.owns)
    (hc : (fileStore.run { dir := d } before).1.dir n = some c)
    (hothers : ∀ content, FileStoreInput.others n content ∉ after) :
    (fileStore.run { dir := d } (before ++ after)).1.dir n = some c ∧
      n ∉ (fileStore.run { dir := d } (before ++ after)).1.store.owns := by
  induction after using List.reverseRecOn with
  | nil => simpa using ⟨hc, hn⟩
  | append_singleton after input ih =>
    rw [← List.append_assoc] at hleaves ⊢
    have hinv := run_inv d hleaves.init
    rcases ih hleaves.init (fun content hmem => hothers content (by simp [hmem])) with ⟨hkept, hnot⟩
    rw [Machine.run_concat]
    refine hinv.leaves hleaves.last hnot hkept ?_
    rintro content rfl
    exact hothers content (by simp)

end StoreWorld

/-- A run in which no other program does anything. -/
theorem along_leavesParts {w : StoreWorld} {inputs : List FileStoreInput}
    (halone : ∀ input ∈ inputs, ∀ name content, input ≠ .others name content) :
    fileStore.Along LeavesParts w inputs := by
  rintro before input after rfl
  cases input with
  | others name content => exact absurd rfl (halone _ (by simp) name content)
  | _ => trivial

/-- Somebody's file, and a file of the same name that is received. -/
def somebodysDir : StoreDir := fun n => if n = ascii "a" then some [9] else none

def receivedRun : List FileStoreInput :=
  [.setDirectory true, .openFile 0 (ascii "a") 3 true { freeBytes := 100 }, .write 0 [1, 2], .goOn true true,
    .takeJob, .finishJob none, .write 0 [3], .goOn true true, .takeJob, .finishJob none,
    .close 0 true true true]

theorem receivedRun_alone : ∀ input ∈ receivedRun ++ [.goOn true true], ∀ name content,
    input ≠ FileStoreInput.others name content := by
  unfold receivedRun
  simp

namespace FileStore

/-- Each step ends at most one call. -/
theorem step_one (s : FileStore) (d : StoreDir) (input : FileStoreInput) : (s.step d input).2.2.length ≤ 1 := by
  have hclose : ∀ (s : FileStore) (i : UInt16) (keep flushes removes : Bool),
      (s.close i keep flushes removes).2.2.length ≤ 1 := by
    intro s i keep flushes removes
    unfold close
    repeat' split
    all_goals simp
  cases input with
  | openFile i safeName size removes disk =>
    simp only [step]
    split
    · simp
    · unfold openFile
      dsimp only
      repeat' split
      all_goals simp
  | write i data =>
    simp only [step]
    split
    · simp
    · unfold write
      repeat' split
      all_goals simp
  | close i keep flushes removes =>
    simp only [step]
    split
    · simp
    · exact hclose _ _ _ _ _
  | goOn moves removes =>
    simp only [step]
    split
    · simp
    · unfold post
      split <;> simp
    · unfold place
      dsimp only
      repeat' split
      all_goals simp [dropPart]
  | finishJob failedAt =>
    simp only [step]
    unfold finishJob
    split
    · simp
    · dsimp only
      split <;> simp
  | setDirectory isDirectory => simp [step]
  | takeJob => simp [step]
  | others name content => simp [step]

/-- A file is kept by the one step that gives it a name nothing has. -/
theorem step_kept {s : FileStore} {d : StoreDir} {input : FileStoreInput} {index : UInt16}
    (h : .closed index true true ∈ (s.step d input).2.2) :
    ∃ slot target retries, s.call = .placing index slot target retries ∧ d target = none ∧
      (s.step d input).2.1 = [.move slot.part target] := by
  -- a part that is dropped is not kept, and Close itself keeps nothing yet
  have hdrop : ∀ (s : FileStore) (i : UInt16) (slot : StoreSlot) (removes : Bool),
      .closed index true true ∉ (s.dropPart i slot removes).2.2 := by
    intro s i slot removes hmem
    simp [dropPart] at hmem
  have hclose : ∀ (s : FileStore) (i : UInt16) (keep flushes removes : Bool),
      .closed index true true ∉ (s.close i keep flushes removes).2.2 := by
    intro s i keep flushes removes hmem
    unfold close at hmem
    cases keep <;> grind
  cases input with
  | goOn moves removes =>
    simp only [step] at h ⊢
    split at h
    · cases h
    · next job hcall =>
      unfold post at h
      split at h <;> simp at h
    · next i slot target retries hcall =>
      unfold place at h ⊢
      split at h
      · split at h
        · dsimp only at h
          split at h
          · exact absurd h (hdrop _ _ _ _)
          · cases h
        · exact absurd h (hdrop _ _ _ _)
      · next hfree =>
        split at h
        · next hmoves =>
          obtain rfl : index = i := by simpa using h
          rw [if_neg hfree, if_pos hmoves]
          exact ⟨slot, target, retries, hcall, Directory.has_eq_false.mp (by simpa using hfree), rfl⟩
        · exact absurd h (hdrop _ _ _ _)
  | close i keep flushes removes =>
    simp only [step] at h
    split at h
    · cases h
    · exact absurd h (hclose _ _ _ _ _)
  | openFile i safeName size removes disk =>
    simp only [step] at h
    split at h
    · cases h
    · unfold openFile at h
      dsimp only at h
      repeat' split at h
      all_goals simp at h
  | write i data =>
    simp only [step] at h
    split at h
    · cases h
    · unfold write at h
      repeat' split at h
      all_goals simp at h
  | finishJob failedAt =>
    simp only [step] at h
    unfold finishJob at h
    split at h
    · cases h
    · dsimp only at h
      split at h <;> cases h
  | setDirectory isDirectory => cases h
  | takeJob => cases h
  | others name content => cases h

end FileStore

/-- The step that keeps a file: the file has a name that nothing had, and is no part file. -/
theorem StoreWorld.step_places (d : StoreDir) {before : List FileStoreInput} {input : FileStoreInput}
    (hleaves : fileStore.Along LeavesParts { dir := d } (before ++ [input])) {index : UInt16}
    (hkept : .closed index true true ∈ (fileStore.step (fileStore.run { dir := d } before).1 input).2) :
    ∃ target, (fileStore.run { dir := d } before).1.dir target = none ∧
      (fileStore.run { dir := d } (before ++ [input])).1.dir target =
        some (writtenBy (fileStore.run { dir := d } before).2 index) ∧
      target ∉ (fileStore.run { dir := d } (before ++ [input])).1.store.owns := by
  have hinv := StoreWorld.run_inv d hleaves.init
  have hlast := hleaves.last
  rw [Machine.run_concat]
  generalize fileStore.run { dir := d } before = r at *
  obtain ⟨w, out⟩ := r
  dsimp only at *
  rcases FileStore.step_kept hkept with ⟨slot, target, retries, hcall, hfree, hops⟩
  -- only the waiting call itself puts a file in place
  have hdir : (fileStore.step w input).1.dir = (input.outside w.dir).move slot.part target := by
    simp only [fileStore, hops]
    rfl
  have hkeeps := FileStore.step_keeps (hinv.outside hlast).1 input
  have hout : input.outside w.dir = w.dir := by
    cases input with
    | others name content => cases hkept
    | _ => rfl
  have hne : slot.part ≠ target := hinv.ne_of_free hfree (FileStore.owns_of_placing hcall)
  refine ⟨target, hfree, ?_, ?_⟩
  · rw [hdir, hout, Directory.move_to _ (Ne.symm hne)]
    exact hinv.placed hcall
  · intro hmem
    have hown := hkeeps.own
    rw [hout, hops] at hown
    have hmem' : target ∈ w.store.owns \ {slot.part} := hown hmem
    exact hinv.ne_of_free hfree hmem'.1 rfl

/-- The writer's thread goes on, with what the disk answers. -/
def writerTurns (answers : List (Option Nat)) : List FileStoreInput :=
  answers.flatMap fun failedAt => [.takeJob, .finishJob failedAt]

/-- The waiting call goes on, with what the disk answers. -/
def callTurns (answers : List (Bool × Bool)) : List FileStoreInput :=
  answers.map fun answer => .goOn answer.1 answer.2

namespace FileStore

theorem finishJob_frame (s : FileStore) (d : StoreDir) (failedAt : Option Nat) :
    (s.finishJob d failedAt).1.jobs = s.queue ∧ (s.finishJob d failedAt).1.call = s.call := by
  unfold finishJob
  split
  · next hwriting => exact ⟨by simp [jobs, hwriting], rfl⟩
  · dsimp only
    split <;> exact ⟨rfl, rfl⟩

theorem takeJob_frame (s : FileStore) : s.takeJob.queue = s.jobs.tail ∧ s.takeJob.call = s.call := by
  unfold takeJob jobs
  split
  · next hwriting hqueue => simp [hwriting, hqueue]
  · next hno =>
    cases hwriting : s.writing with
    | some job => simp
    | none =>
      cases hqueue : s.queue with
      | nil => simp
      | cons job rest => exact absurd hqueue (hno job rest hwriting)

/-- A call that waits to post or to place a file, after one more try. -/
theorem goOn_call (s : FileStore) (d : StoreDir) (moves removes : Bool) (hroom : s.queuedBytes = 0) :
    (s.step d (.goOn moves removes)).1.call = .idle ∨
      (∃ job, s.call = .posting job ∧ (s.step d (.goOn moves removes)).1 = s ∧
        kMaxQueuedWriteBytes < job.data.length) ∨
      ∃ i slot target target' retries, s.call = .placing i slot target retries ∧
        retries < kMaxPlacementRetries ∧
        (s.step d (.goOn moves removes)).1 = { s with call := .placing i slot target' (retries + 1) } := by
  simp only [step]
  split
  · next hcall => exact .inl hcall
  · next job hcall =>
    unfold post
    split
    · exact .inl rfl
    · next hfull => exact .inr (.inl ⟨job, hcall, rfl, by omega⟩)
  · next i slot target retries hcall =>
    unfold place
    split
    · split
      · next hretries =>
        dsimp only
        split
        · exact .inl rfl
        · exact .inr (.inr ⟨i, slot, target, _, retries, hcall, hretries, rfl⟩)
      · exact .inl rfl
    · split <;> exact .inl rfl

/-- How many more tries the waiting call can take. -/
def triesLeft (s : FileStore) : Nat :=
  match s.call with
  | .idle => 0
  | .posting _ => 1
  | .placing _ _ _ retries => kMaxPlacementRetries - retries + 1

end FileStore

namespace StoreWorld

/-- The writer empties the queue, whatever the disk answers, and the waiting call waits on. -/
theorem run_writerTurns (w : StoreWorld) {answers : List (Option Nat)}
    (h : w.store.jobs.length ≤ answers.length) :
    (fileStore.run w (writerTurns answers)).1.store.jobs = [] ∧
      (fileStore.run w (writerTurns answers)).1.store.call = w.store.call := by
  induction answers generalizing w with
  | nil => exact ⟨List.length_eq_zero_iff.mp (Nat.le_zero.mp h), rfl⟩
  | cons failedAt answers ih =>
    -- one job less after each turn
    rcases w.store.takeJob_frame with ⟨hqueue, hcall⟩
    rcases w.store.takeJob.finishJob_frame w.dir failedAt with ⟨hjobs', hcall'⟩
    simp only [writerTurns, List.flatMap_cons, List.cons_append, List.nil_append, Machine.run_cons]
    generalize hnext : (fileStore.step (fileStore.step w .takeJob).1 (.finishJob failedAt)).1 = w' at *
    have hstore : w'.store = (w.store.takeJob.finishJob w.dir failedAt).1 := by
      rw [← hnext]
      rfl
    have hlength : w'.store.jobs.length ≤ answers.length := by
      rw [hstore, hjobs', hqueue, List.length_tail]
      simp only [List.length_cons] at h
      omega
    rcases ih w' hlength with ⟨hempty, hsame⟩
    refine ⟨hempty, ?_⟩
    rw [show List.flatMap _ answers = writerTurns answers from rfl, hsame, hstore, hcall', hcall]

theorem run_callTurns_idle (w : StoreWorld) (answers : List (Bool × Bool)) (hidle : w.store.call = .idle) :
    (fileStore.run w (callTurns answers)).1.store.call = .idle := by
  induction answers generalizing w with
  | nil => exact hidle
  | cons answer answers ih =>
    have hstep : (fileStore.step w (.goOn answer.1 answer.2)).1.store = w.store := by
      simp only [fileStore, FileStore.step, hidle]
    exact ih _ (by rw [hstep, hidle])

/-- The call is over after as many tries as it has left, or its data fits no queue. -/
theorem run_callTurns (w : StoreWorld) {answers : List (Bool × Bool)} (hempty : w.store.queuedBytes = 0)
    (h : w.store.triesLeft ≤ answers.length) :
    (fileStore.run w (callTurns answers)).1.store.call = .idle ∨
      ∃ job, w.store.call = .posting job ∧ kMaxQueuedWriteBytes < job.data.length := by
  induction answers generalizing w with
  | nil =>
    left
    have hnone := Nat.le_zero.mp h
    show w.store.call = .idle
    unfold FileStore.triesLeft at hnone
    split at hnone
    · next hcall => exact hcall
    · cases hnone
    · cases hnone
  | cons answer answers ih =>
    have hnext : (fileStore.step w (.goOn answer.1 answer.2)).1.store =
        (w.store.step w.dir (.goOn answer.1 answer.2)).1 := rfl
    rcases w.store.goOn_call w.dir answer.1 answer.2 hempty with
      hidle | ⟨job, hcall, hsame, hbig⟩ | ⟨i, slot, target, target', retries, hcall, hretries, hplacing⟩
    · have hrest := run_callTurns_idle (fileStore.step w (.goOn answer.1 answer.2)).1 answers
      exact .inl (hrest (by rw [hnext, hidle]))
    · exact .inr ⟨job, hcall, hbig⟩
    · have hleft : (fileStore.step w (.goOn answer.1 answer.2)).1.store.triesLeft ≤ answers.length := by
        rw [hnext, hplacing]
        simp only [FileStore.triesLeft, hcall, List.length_cons] at h ⊢
        omega
      rcases ih _ (by rw [hnext, hplacing]; exact hempty) hleft with hidle | ⟨job, hposting, -⟩
      · exact .inl hidle
      · rw [hnext, hplacing] at hposting
        cases hposting

end StoreWorld

/-- The queue stays within its bound, and no call waits forever: when the writer has had a turn for
each job in the queue, the waiting call is over after at most `kMaxPlacementRetries + 1` tries. Only a
`Write` of more than the bound would wait on. -/
theorem fileStore_noStall (d : StoreDir) (inputs : List FileStoreInput)
    (hleaves : fileStore.Along LeavesParts { dir := d } inputs) :
    let w := (fileStore.run { dir := d } inputs).1
    w.store.queuedBytes = (w.store.jobs.map (fun job => job.data.length)).sum ∧
    w.store.queuedBytes ≤ kMaxQueuedWriteBytes ∧
    ∀ (written : List (Option Nat)) (tries : List (Bool × Bool)),
      w.store.jobs.length ≤ written.length → kMaxPlacementRetries < tries.length →
        (fileStore.run w (writerTurns written)).1.store.settled = true ∧
        ((fileStore.run w (writerTurns written ++ callTurns tries)).1.store.call = .idle ∨
          ∃ job, w.store.call = .posting job ∧ kMaxQueuedWriteBytes < job.data.length) := by
  intro w
  have hinv : w.Inv (fileStore.run { dir := d } inputs).2 := StoreWorld.run_inv d hleaves
  refine ⟨hinv.accounted, hinv.bounded, ?_⟩
  intro written tries hwritten htries
  rcases w.run_writerTurns hwritten with ⟨hsettled, hcall⟩
  refine ⟨FileStore.settled_iff.mpr hsettled, ?_⟩
  have hturns : ∀ input ∈ writerTurns written, ∀ name content, input ≠ .others name content := by
    intro input hmem name content
    rcases List.mem_flatMap.mp hmem with ⟨failedAt, -, hinput⟩
    simp only [List.mem_cons, List.not_mem_nil, or_false] at hinput
    rcases hinput with rfl | rfl <;> simp
  -- an empty queue has room for every job that fits the bound
  have hempty : (fileStore.run w (writerTurns written)).1.store.queuedBytes = 0 := by
    have haccounted := (hinv.run hturns).accounted
    rw [hsettled] at haccounted
    exact haccounted
  have hleft : (fileStore.run w (writerTurns written)).1.store.triesLeft ≤ tries.length := by
    unfold FileStore.triesLeft
    split <;> omega
  rw [Machine.run_append]
  rcases StoreWorld.run_callTurns _ hempty hleft with hidle | ⟨job, hposting, hbig⟩
  · exact .inl hidle
  · exact .inr ⟨job, by rw [← hcall, hposting], hbig⟩

/-- A job in the queue, which the writer does. -/
theorem fileStore_noStall_received :
    (fileStore.run (fileStore.run { dir := somebodysDir } (receivedRun.take 4)).1
      (writerTurns [none])).1.store.settled = true := by
  have halone : ∀ input ∈ receivedRun.take 4, ∀ name content,
      input ≠ FileStoreInput.others name content := by
    intro input hmem
    exact receivedRun_alone input (by simp [List.mem_of_mem_take hmem])
  have hstall := fileStore_noStall somebodysDir (receivedRun.take 4) (along_leavesParts halone)
  exact (hstall.2.2 [none] (List.replicate 9 (true, true)) (by decide +kernel) (by decide)).1

end Deskhub
