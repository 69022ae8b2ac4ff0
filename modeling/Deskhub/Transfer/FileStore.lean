import Deskhub.Lib.Machine
import Deskhub.Lib.OrdMap
import Deskhub.Lib.OwnedFiles
import Deskhub.Transfer.SafeName

/-!
# The file store

`FileStore`: the received files on the disk. A file is written under a part name that did not
exist, by a thread of its own that takes the queued writes in turn, and gets its name when it is
closed to be kept, never that of a file that is there.

A call that has to wait is a state of its own: `Write` waits in `Post` for room in the queue,
`Close` tries one name after the other. What the disk answers comes with each step. Between two
steps other programs may change the directory.
-/

namespace Deskhub

open OrdMap

def kTransferPartSuffix : Bytes := ascii ".deskhub-part"
def kMaxQueuedWriteBytes : Nat := 1 <<< 20
def kMaxPlacementRetries : Nat := 8

instance instLinearOrderUInt16 : LinearOrder UInt16 where
  le_refl := UInt16.le_refl
  le_trans _ _ _ := UInt16.le_trans
  lt_iff_le_not_ge _ _ := by
    simp only [UInt16.lt_iff_toNat_lt, UInt16.le_iff_toNat_le]
    omega
  le_antisymm _ _ := UInt16.le_antisymm
  le_total := UInt16.le_total
  toDecidableLE := inferInstance
  toDecidableEq := inferInstance
  toDecidableLT := inferInstance

/-- A received file that is not closed; `sound` is the state of its stream. -/
structure StoreSlot where
  name : Bytes
  part : Bytes
  target : Bytes
  sound : Bool := true
deriving DecidableEq, Repr

structure WriteJob where
  index : UInt16
  data : Bytes
deriving DecidableEq, Repr

/-- What the caller's thread is in the middle of. -/
inductive StoreCall where
  | idle
  /-- `Write` in `Post`, waiting for room. -/
  | posting (job : WriteJob)
  /-- `Close` about to give the file the name `target`, after `retries` fresh names. -/
  | placing (index : UInt16) (slot : StoreSlot) (target : Bytes) (retries : Nat)
deriving DecidableEq, Repr

structure FileStore where
  /-- Whether `dir_` is set. -/
  ready : Bool := false
  slots : Map UInt16 StoreSlot := .empty
  queue : List WriteJob := []
  queuedBytes : Nat := 0
  /-- The job the writer is at; `writing_` is whether there is one. -/
  writing : Option WriteJob := none
  writeFailed : Bool := false
  call : StoreCall := .idle
deriving DecidableEq

/-- The results of the calls. -/
inductive FileStoreEvent where
  | opened (index : UInt16) (safeName : Bytes) (size : UInt64) (stored : Bytes)
  | wrote (index : UInt16) (data : Bytes) (ok : Bool)
  | closed (index : UInt16) (keep ok : Bool)
deriving DecidableEq, Repr

/-- What the disk answers when a file is opened. -/
structure OpenAnswers where
  freeBytes : UInt64 := 0
  creates : Bool := true
  opens : Bool := true
deriving DecidableEq, Repr

abbrev StoreDir : Type := Directory Bytes Bytes

/-- What a step leaves behind: the store, its operation on the directory, the results. -/
abbrev StoreStep : Type := FileStore × List (FileOp Bytes Bytes) × List FileStoreEvent

namespace FileStore

/-- What `Settle` waits for. -/
def settled (s : FileStore) : Bool := s.queue = [] && s.writing = none

/-- `Claimed`. -/
def claimed (s : FileStore) (d : StoreDir) (name : Bytes) : Bool :=
  d.has name || d.has (name ++ kTransferPartSuffix) ||
    s.slots.entries.any fun p => p.2.name = name

def freeName (s : FileStore) (d : StoreDir) (name : Bytes) : Bytes :=
  uniqueFileName name (s.claimed d)

/-- `Close` once the writer has settled, up to where the file is put in place. -/
def close (s : FileStore) (index : UInt16) (keep flushes removes : Bool) : StoreStep :=
  match s.slots.find? index with
  | none => (s, [], [.closed index keep (!keep)])
  | some slot =>
      let s := { s with slots := s.slots.erase index }
      if !keep || !(slot.sound && flushes) then
        (s, if removes then [.remove slot.part] else [], [.closed index keep (!keep)])
      else ({ s with call := .placing index slot slot.target 0 }, [], [])

/-- `Open`, which first gives up what has the index. -/
def openFile (s : FileStore) (d : StoreDir) (index : UInt16) (safeName : Bytes) (size : UInt64)
    (removes : Bool) (disk : OpenAnswers) : StoreStep :=
  let refused : FileStoreEvent := .opened index safeName size []
  if !s.ready then (s, [], [refused])
  else
    let (s, dropped, _) := s.close index false true removes
    let d := FileOps.apply d dropped
    let s := { s with writeFailed := false }
    let name := s.freeName d safeName
    if name = [] then (s, dropped, [refused])
    else if size > disk.freeBytes then (s, dropped, [refused])
    else
      let part := name ++ kTransferPartSuffix
      if !disk.creates || d.has part then (s, dropped, [refused])
      else if !disk.opens then (s, dropped ++ [.create part []], [refused])
      else
        ({ s with slots := s.slots.insert index { name := name, part := part, target := name } },
          dropped ++ [.create part []], [.opened index safeName size name])

/-- `Write`, up to where it waits for room. -/
def write (s : FileStore) (index : UInt16) (data : Bytes) : StoreStep :=
  if !s.slots.contains index then (s, [], [.wrote index data false])
  else if s.writeFailed then (s, [], [.wrote index data false])
  else ({ s with call := .posting { index := index, data := data } }, [], [])

/-- The end of `Post`, when there is room. -/
def post (s : FileStore) (job : WriteJob) : StoreStep :=
  if s.queuedBytes + job.data.length ≤ kMaxQueuedWriteBytes then
    ({ s with
        queuedBytes := s.queuedBytes + job.data.length
        queue := s.queue ++ [job]
        call := .idle }, [], [.wrote job.index job.data true])
  else (s, [], [])

/-- The end of `Close` when the file found no place. -/
def dropPart (s : FileStore) (index : UInt16) (slot : StoreSlot) (removes : Bool) : StoreStep :=
  ({ s with call := .idle }, if removes then [.remove slot.part] else [], [.closed index true false])

/-- One `MoveWithoutReplacing` and what `Close` makes of its outcome. -/
def place (s : FileStore) (d : StoreDir) (index : UInt16) (slot : StoreSlot) (target : Bytes)
    (retries : Nat) (moves removes : Bool) : StoreStep :=
  if d.has target then
    -- TargetExists: a fresh name, as long as there are tries left
    if retries < kMaxPlacementRetries then
      let fresh := s.freeName d slot.name
      if fresh = [] then s.dropPart index slot removes
      else ({ s with call := .placing index slot fresh (retries + 1) }, [], [])
    else s.dropPart index slot removes
  else if moves then
    ({ s with call := .idle }, [.move slot.part target], [.closed index true true])
  else s.dropPart index slot removes

/-- The writer takes the next job. -/
def takeJob (s : FileStore) : FileStore :=
  match s.writing, s.queue with
  | none, job :: rest => { s with writing := some job, queue := rest }
  | _, _ => s

/-- `WriteNow`: the bytes that land, and the slot afterwards. A stream that failed takes
nothing more. -/
def writeNow (slot : StoreSlot) (data : Bytes) (failedAt : Option Nat) : StoreSlot × Bytes × Bool :=
  if !slot.sound then (slot, [], false)
  else
    match failedAt with
    | none => (slot, data, true)
    | some n => ({ slot with sound := false }, data.take n, false)

/-- The writer does its job; with `failedAt` the disk fails behind that many bytes. -/
def finishJob (s : FileStore) (d : StoreDir) (failedAt : Option Nat) : StoreStep :=
  match s.writing with
  | none => (s, [], [])
  | some job =>
      let s := { s with writing := none, queuedBytes := s.queuedBytes - job.data.length }
      match s.slots.find? job.index with
      | none => ({ s with writeFailed := true }, [], [])
      | some slot =>
          let (slot, landed, ok) := writeNow slot job.data failedAt
          ({ s with
              slots := s.slots.insert job.index slot
              writeFailed := s.writeFailed || !ok },
            [.write slot.part ((d slot.part).getD [] ++ landed)], [])

end FileStore

/-- What happens to a store and its directory. -/
inductive FileStoreInput where
  | setDirectory (isDirectory : Bool)
  | openFile (index : UInt16) (safeName : Bytes) (size : UInt64) (removes : Bool) (disk : OpenAnswers)
  | write (index : UInt16) (data : Bytes)
  | close (index : UInt16) (keep flushes removes : Bool)
  /-- The waiting call goes on. -/
  | goOn (moves removes : Bool)
  | takeJob
  | finishJob (failedAt : Option Nat)
  /-- Another program changes a file. -/
  | others (name : Bytes) (content : Option Bytes)
deriving DecidableEq, Repr

namespace FileStore

/-- One step of the store. A call that is not in its turn does not begin. -/
def step (s : FileStore) (d : StoreDir) : FileStoreInput → StoreStep
  | .setDirectory isDirectory => ({ s with ready := s.ready || isDirectory }, [], [])
  | .openFile index safeName size removes disk =>
      if s.call ≠ .idle || !s.settled then (s, [], [])
      else s.openFile d index safeName size removes disk
  | .write index data => if s.call ≠ .idle then (s, [], []) else s.write index data
  | .close index keep flushes removes =>
      if s.call ≠ .idle || !s.settled then (s, [], []) else s.close index keep flushes removes
  | .goOn moves removes =>
      match s.call with
      | .idle => (s, [], [])
      | .posting job => s.post job
      | .placing index slot target retries => s.place d index slot target retries moves removes
  | .takeJob => (s.takeJob, [], [])
  | .finishJob failedAt => s.finishJob d failedAt
  | .others _ _ => (s, [], [])

end FileStore

/-- A store and the directory it shares with other programs. -/
structure StoreWorld where
  store : FileStore := {}
  dir : StoreDir

/-- What another program did. -/
def FileStoreInput.outside (d : StoreDir) : FileStoreInput → StoreDir
  | .others name content => Function.update d name content
  | _ => d

/-- The store and its directory as one machine. -/
def fileStore : Machine StoreWorld FileStoreInput FileStoreEvent where
  step w input :=
    let (store, ops, out) := w.store.step w.dir input
    ({ store := store, dir := FileOps.apply (input.outside w.dir) ops }, out)

end Deskhub

/-!
## What the file store does to its directory

The part files of a store are its own. A step keeps to them, so whatever else is in the directory
stays as it is. What was written to a file so far, that of the queued writes included, is what its
part file holds with the queued writes behind it, and closing the file puts just that in place.
-/

namespace Deskhub

open OrdMap

/-! ## What was written -/

/-- What the file with that index was given since it was opened, after one more result. -/
def FileStoreEvent.record (index : UInt16) (written : Bytes) : FileStoreEvent → Bytes
  | .opened i _ _ _ => if i = index then [] else written
  | .wrote i data ok => if i = index ∧ ok = true then written ++ data else written
  | .closed _ _ _ => written

/-- What each file was given since it was opened. -/
def writtenBy (out : List FileStoreEvent) (index : UInt16) : Bytes :=
  out.foldl (FileStoreEvent.record index) []

/-- `written`, with the results of one step. -/
def recordAll (written : UInt16 → Bytes) (out : List FileStoreEvent) (index : UInt16) : Bytes :=
  out.foldl (FileStoreEvent.record index) (written index)

@[simp] theorem recordAll_nil (written : UInt16 → Bytes) : recordAll written [] = written := rfl

theorem recordAll_append (written : UInt16 → Bytes) (xs ys : List FileStoreEvent) :
    recordAll written (xs ++ ys) = recordAll (recordAll written xs) ys := by
  funext i
  exact List.foldl_append

/-- The bytes of the jobs for one file. -/
def jobBytes (index : UInt16) (jobs : List WriteJob) : Bytes :=
  (jobs.filter (fun job => job.index = index)).flatMap WriteJob.data

@[simp] theorem jobBytes_nil (index : UInt16) : jobBytes index [] = [] := rfl

theorem jobBytes_cons (index : UInt16) (job : WriteJob) (jobs : List WriteJob) :
    jobBytes index (job :: jobs) = (if job.index = index then job.data else []) ++ jobBytes index jobs := by
  by_cases h : job.index = index <;> simp [jobBytes, h]

theorem jobBytes_append (index : UInt16) (xs ys : List WriteJob) :
    jobBytes index (xs ++ ys) = jobBytes index xs ++ jobBytes index ys := by
  simp [jobBytes]

namespace FileStore

/-- The jobs that are not done, in their turn. -/
def jobs (s : FileStore) : List WriteJob := s.writing.toList ++ s.queue

/-- The part files of the store. -/
def owns (s : FileStore) : Set Bytes :=
  { n | (∃ i slot, s.slots.find? i = some slot ∧ slot.part = n) ∨
    ∃ i slot target retries, s.call = .placing i slot target retries ∧ slot.part = n }

/-- What holds between two steps; `written` is what each file was given. -/
structure Inv (s : FileStore) (d : StoreDir) (written : UInt16 → Bytes) : Prop where
  apart : ∀ {i j si sj}, s.slots.find? i = some si → s.slots.find? j = some sj → si.part = sj.part → i = j
  placingApart : ∀ {i slot target retries j sj}, s.call = .placing i slot target retries →
    s.slots.find? j = some sj → sj.part ≠ slot.part
  there : ∀ {n}, n ∈ s.owns → ∃ c, d n = some c
  accounted : s.queuedBytes = (s.jobs.map (fun job => job.data.length)).sum
  bounded : s.queuedBytes ≤ kMaxQueuedWriteBytes
  known : ∀ job ∈ s.jobs, ∃ slot, s.slots.find? job.index = some slot
  postingKnown : ∀ {job}, s.call = .posting job → ∃ slot, s.slots.find? job.index = some slot
  placingSettled : ∀ {i slot target retries}, s.call = .placing i slot target retries → s.jobs = []
  content : ∀ {i slot}, s.slots.find? i = some slot → slot.sound = true →
    ∃ c, d slot.part = some c ∧ c ++ jobBytes i s.jobs = written i
  placed : ∀ {i slot target retries}, s.call = .placing i slot target retries → d slot.part = some (written i)
  unready : s.ready = false → ∀ i, s.slots.find? i = none

/-- A step that keeps to the store's own files. -/
structure Keeps (s : FileStore) (d : StoreDir) (written : UInt16 → Bytes) (r : StoreStep) : Prop where
  inv : r.1.Inv (FileOps.apply d r.2.1) (recordAll written r.2.2)
  within : FileOps.Within s.owns d r.2.1
  own : r.1.owns ⊆ FileOps.ownAfter s.owns r.2.1

theorem settled_iff {s : FileStore} : s.settled = true ↔ s.jobs = [] := by
  unfold settled jobs
  cases s.writing with
  | none => simp
  | some job => simp

theorem owns_of_find {s : FileStore} {i : UInt16} {slot : StoreSlot} (h : s.slots.find? i = some slot) :
    slot.part ∈ s.owns :=
  .inl ⟨i, slot, h, rfl⟩

theorem owns_of_placing {s : FileStore} {i : UInt16} {slot : StoreSlot} {target : Bytes} {retries : Nat}
    (h : s.call = .placing i slot target retries) : slot.part ∈ s.owns :=
  .inr ⟨i, slot, target, retries, h, rfl⟩

variable {s : FileStore} {d : StoreDir} {written : UInt16 → Bytes}

theorem Inv.start (d : StoreDir) : Inv {} d (fun _ => []) where
  apart h := by cases h
  placingApart h := by cases h
  there h := by
    rcases h with ⟨i, slot, hfind, -⟩ | ⟨i, slot, target, retries, hcall, -⟩
    · cases hfind
    · cases hcall
  accounted := rfl
  bounded := Nat.zero_le _
  known := by simp [jobs]
  postingKnown h := by cases h
  placingSettled h := by cases h
  content h := by cases h
  placed h := by cases h
  unready _ _ := rfl

/-- A step that changes neither the slots nor the jobs nor the call. -/
theorem Inv.keeps (h : s.Inv d written) (s' : FileStore) (out : List FileStoreEvent) (hready : s'.ready = false → s.ready = false)
    (hslots : s'.slots = s.slots) (hjobs : s'.jobs = s.jobs) (hbytes : s'.queuedBytes = s.queuedBytes)
    (hcall : s'.call = s.call) (hout : recordAll written out = written) : s.Keeps d written (s', [], out) := by
  have howns : s'.owns = s.owns := by
    unfold owns
    rw [hslots, hcall]
  constructor
  · rw [hout]
    constructor <;> simp only [hslots, hjobs, hbytes, hcall, howns, FileOps.apply_nil]
    · exact h.apart
    · exact h.placingApart
    · exact h.there
    · exact h.accounted
    · exact h.bounded
    · exact h.known
    · exact h.postingKnown
    · exact h.placingSettled
    · exact h.content
    · exact h.placed
    · exact fun hunready => h.unready (hready hunready)
  · trivial
  · rw [howns]
    exact subset_rfl

/-- One step after the other. -/
theorem Keeps.trans {s₁ : FileStore} {ops₁ : List (FileOp Bytes Bytes)} {out₁ : List FileStoreEvent}
    (h : s.Keeps d written (s₁, ops₁, out₁)) {r : StoreStep}
    (hnext : s₁.Keeps (FileOps.apply d ops₁) (recordAll written out₁) r) :
    s.Keeps d written (r.1, ops₁ ++ r.2.1, out₁ ++ r.2.2) := by
  constructor
  · have hinv := hnext.inv
    rw [← FileOps.apply_append, ← recordAll_append] at hinv
    exact hinv
  · exact h.within.append (hnext.within.mono h.own)
  · rw [FileOps.ownAfter_append]
    exact hnext.own.trans (FileOps.ownAfter_mono _ h.own)

/-- A part file is let go, removed or not. -/
theorem keeps_release {n : Bytes} {s' : FileStore} (hown : n ∈ s.owns) (hsub : s'.owns ⊆ s.owns \ {n})
    {removes : Bool} {out : List FileStoreEvent}
    (hinv : ∀ d', (∀ m ≠ n, d' m = d m) → s'.Inv d' (recordAll written out)) :
    s.Keeps d written (s', if removes then [.remove n] else [], out) := by
  cases removes with
  | true =>
    constructor
    · exact hinv _ fun m hm => Directory.remove_of_ne d hm
    · exact ⟨hown, trivial⟩
    · exact hsub
  | false =>
    constructor
    · exact hinv _ fun m _ => rfl
    · trivial
    · exact fun m hm => (hsub hm).1

theorem find?_erase_some {index j : UInt16} {sj : StoreSlot}
    (h : (s.slots.erase index).find? j = some sj) : s.slots.find? j = some sj ∧ j ≠ index := by
  rw [Map.find?_erase] at h
  split at h
  · cases h
  · next hne => exact ⟨h, hne⟩

theorem mem_owns_erase (hcall : s.call = .idle) {index : UInt16} {m : Bytes}
    (h : m ∈ ({ s with slots := s.slots.erase index } : FileStore).owns) :
    ∃ j sj, j ≠ index ∧ s.slots.find? j = some sj ∧ sj.part = m := by
  rcases h with ⟨j, sj, hfind, hpart⟩ | ⟨j, sj, target, retries, hplacing, -⟩
  · rcases find?_erase_some hfind with ⟨hj, hne⟩
    exact ⟨j, sj, hne, hj, hpart⟩
  · rw [show s.call = .placing j sj target retries from hplacing] at hcall
    cases hcall

/-- The slot of a file that is given up goes, and its part file with it. -/
theorem Inv.drop_keeps (h : s.Inv d written) (hcall : s.call = .idle) (hjobs : s.jobs = [])
    {index : UInt16} {slot : StoreSlot} (hfind : s.slots.find? index = some slot) (removes : Bool)
    {out : List FileStoreEvent} (hout : recordAll written out = written) :
    s.Keeps d written
      ({ s with slots := s.slots.erase index }, if removes then [.remove slot.part] else [], out) := by
  have howns : ∀ m ∈ ({ s with slots := s.slots.erase index } : FileStore).owns,
      m ∈ s.owns ∧ m ≠ slot.part := by
    intro m hm
    rcases mem_owns_erase hcall hm with ⟨j, sj, hne, hj, rfl⟩
    exact ⟨owns_of_find hj, fun heq => hne (h.apart hj hfind heq)⟩
  refine keeps_release (owns_of_find hfind) (fun m hm => ⟨(howns m hm).1, (howns m hm).2⟩) ?_
  intro d' hd'
  rw [hout]
  -- the other part files and what was written to them are untouched
  have hjobs' : ({ s with slots := s.slots.erase index } : FileStore).jobs = [] := hjobs
  constructor
  · intro i j si sj hi hj
    exact h.apart (find?_erase_some hi).1 (find?_erase_some hj).1
  · intro i slot' target retries j sj hplacing
    rw [show s.call = .placing i slot' target retries from hplacing] at hcall
    cases hcall
  · intro n hn
    rw [hd' n (howns n hn).2]
    exact h.there (howns n hn).1
  · exact h.accounted
  · exact h.bounded
  · rw [hjobs']
    simp
  · intro job hposting
    rw [show s.call = .posting job from hposting] at hcall
    cases hcall
  · exact fun _ => hjobs'
  · intro i slot' hi hsound
    rcases find?_erase_some hi with ⟨hi', hne⟩
    have hpart : slot'.part ≠ slot.part := fun heq => hne (h.apart hi' hfind heq)
    rw [hd' _ hpart]
    exact h.content hi' hsound
  · intro i slot' target retries hplacing
    rw [show s.call = .placing i slot' target retries from hplacing] at hcall
    cases hcall
  · intro hunready i
    rw [Map.find?_erase, h.unready hunready i]
    split <;> rfl

/-- `Close` of a file whose bytes are all on the disk leaves it to be put in place. -/
theorem Inv.begin_placing (h : s.Inv d written) (hjobs : s.jobs = [])
    {index : UInt16} {slot : StoreSlot} (hfind : s.slots.find? index = some slot)
    (hsound : slot.sound = true) :
    s.Keeps d written
      ({ s with slots := s.slots.erase index, call := .placing index slot slot.target 0 }, [], []) := by
  have howns : ∀ m ∈ ({ s with slots := s.slots.erase index, call := .placing index slot slot.target 0 } :
      FileStore).owns, m ∈ s.owns := by
    rintro m (⟨j, sj, hj, rfl⟩ | ⟨j, sj, target, retries, hplacing, rfl⟩)
    · exact owns_of_find (find?_erase_some hj).1
    · cases hplacing
      exact owns_of_find hfind
  have hjobs' : ({ s with slots := s.slots.erase index, call := .placing index slot slot.target 0 } :
      FileStore).jobs = [] := hjobs
  refine ⟨?_, trivial, howns⟩
  rw [recordAll_nil, FileOps.apply_nil]
  constructor
  · intro i j si sj hi hj
    exact h.apart (find?_erase_some hi).1 (find?_erase_some hj).1
  · intro i slot' target retries j sj hplacing hj heq
    cases hplacing
    exact (find?_erase_some hj).2 (h.apart (find?_erase_some hj).1 hfind heq)
  · exact fun hn => h.there (howns _ hn)
  · exact h.accounted
  · exact h.bounded
  · rw [hjobs']
    simp
  · intro job hposting
    cases hposting
  · exact fun _ => hjobs'
  · intro i slot' hi
    exact h.content (find?_erase_some hi).1
  · intro i slot' target retries hplacing
    cases hplacing
    rcases h.content hfind hsound with ⟨c, hc, hwritten⟩
    rw [hjobs, jobBytes_nil, List.append_nil] at hwritten
    rw [hc, hwritten]
  · intro hunready i
    rw [Map.find?_erase, h.unready hunready i]
    split <;> rfl

theorem close_keeps (h : s.Inv d written) (hcall : s.call = .idle) (hjobs : s.jobs = []) (index : UInt16)
    (keep flushes removes : Bool) : s.Keeps d written (s.close index keep flushes removes) := by
  unfold close
  split
  · exact h.keeps _ _ id rfl rfl rfl rfl rfl
  · next slot hfind =>
    dsimp only
    split
    · exact h.drop_keeps hcall hjobs hfind removes rfl
    · next hkept =>
      have hsound : slot.sound = true := by
        cases hs : slot.sound with
        | true => rfl
        | false => simp [hs] at hkept
      exact h.begin_placing hjobs hfind hsound

theorem close_ready (s : FileStore) (index : UInt16) (keep flushes removes : Bool) :
    (s.close index keep flushes removes).1.ready = s.ready := by
  unfold close
  split
  · rfl
  · dsimp only
    split <;> rfl

/-- What is left of the state when `Open` has given up the file that had its index. -/
theorem close_drop (written : UInt16 → Bytes) (s : FileStore) (index : UInt16) (flushes removes : Bool) :
    (s.close index false flushes removes).1.slots.find? index = none ∧
      (s.close index false flushes removes).1.call = s.call ∧
      (s.close index false flushes removes).1.jobs = s.jobs ∧
      recordAll written (s.close index false flushes removes).2.2 = written := by
  unfold close
  split
  · next hnone => exact ⟨hnone, rfl, rfl, rfl⟩
  · exact ⟨Map.find?_erase_self _ _, rfl, rfl, rfl⟩

/-- The invariant reads the directory at the part files alone. -/
theorem Inv.congr (h : s.Inv d written) {d' : StoreDir} (hd : ∀ n ∈ s.owns, d' n = d n) : s.Inv d' written where
  apart := h.apart
  placingApart := h.placingApart
  there hn := by
    rw [hd _ hn]
    exact h.there hn
  accounted := h.accounted
  bounded := h.bounded
  known := h.known
  postingKnown := h.postingKnown
  placingSettled := h.placingSettled
  content hi := by
    rw [hd _ (owns_of_find hi)]
    exact h.content hi
  placed hcall := by
    rw [hd _ (owns_of_placing hcall)]
    exact h.placed hcall
  unready := h.unready

/-- A name that is free is none of the part files. -/
theorem Inv.ne_of_free (h : s.Inv d written) {n m : Bytes} (hfree : d n = none) (hm : m ∈ s.owns) : m ≠ n := by
  rintro rfl
  rcases h.there hm with ⟨c, hc⟩
  rw [hfree] at hc
  cases hc

theorem Inv.create (h : s.Inv d written) {n : Bytes} (hfree : d n = none) (c : Bytes) :
    s.Inv (d.set n c) written :=
  h.congr fun _ hm => Directory.set_of_ne _ _ (h.ne_of_free hfree hm)

/-- The result of an `Open` is noted where there is no file. -/
theorem Inv.noteOpened (h : s.Inv d written) (hcall : s.call = .idle) {index : UInt16}
    (hnone : s.slots.find? index = none) (safeName : Bytes) (size : UInt64) (stored : Bytes) :
    s.Inv d (recordAll written [.opened index safeName size stored]) where
  apart := h.apart
  placingApart := h.placingApart
  there := h.there
  accounted := h.accounted
  bounded := h.bounded
  known := h.known
  postingKnown := h.postingKnown
  placingSettled := h.placingSettled
  content {i slot} hi hsound := by
    have hne : index ≠ i := by
      rintro rfl
      rw [hnone] at hi
      cases hi
    simpa [recordAll, FileStoreEvent.record, hne] using h.content hi hsound
  placed hplacing := by
    rw [hcall] at hplacing
    cases hplacing
  unready := h.unready

/-- The new file: nothing is written to it, and its part file is new. -/
theorem Inv.insert (h : s.Inv d written) (hready : s.ready = true) (hcall : s.call = .idle) (hjobs : s.jobs = []) {index : UInt16}
    {slot : StoreSlot} (hfree : d slot.part = none) (hnew : written index = []) :
    ({ s with slots := s.slots.insert index slot } : FileStore).Inv (d.set slot.part []) written := by
  have hcases : ∀ {j sj}, (s.slots.insert index slot).find? j = some sj →
      (j = index ∧ sj = slot) ∨ (j ≠ index ∧ s.slots.find? j = some sj) := by
    intro j sj hj
    rw [Map.find?_insert] at hj
    split at hj
    · next heq => exact .inl ⟨heq, (Option.some.inj hj).symm⟩
    · next hne => exact .inr ⟨hne, hj⟩
  -- the new part had no file, so it is no other slot's
  have hother : ∀ {j sj}, s.slots.find? j = some sj → sj.part ≠ slot.part :=
    fun hj => h.ne_of_free hfree (owns_of_find hj)
  have hjobs' : ({ s with slots := s.slots.insert index slot } : FileStore).jobs = [] := hjobs
  constructor
  · intro i j si sj hi hj hpart
    rcases hcases hi with ⟨rfl, rfl⟩ | ⟨-, hi'⟩ <;> rcases hcases hj with ⟨rfl, rfl⟩ | ⟨-, hj'⟩
    · rfl
    · exact absurd hpart.symm (hother hj')
    · exact absurd hpart (hother hi')
    · exact h.apart hi' hj' hpart
  · intro i slot' target retries j sj hplacing
    rw [show s.call = .placing i slot' target retries from hplacing] at hcall
    cases hcall
  · rintro n (⟨j, sj, hj, rfl⟩ | ⟨j, sj, target, retries, hplacing, -⟩)
    · rcases hcases hj with ⟨rfl, rfl⟩ | ⟨-, hj⟩
      · exact ⟨[], Directory.set_self ..⟩
      · rw [Directory.set_of_ne _ _ (hother hj)]
        exact h.there (owns_of_find hj)
    · rw [show s.call = .placing j sj target retries from hplacing] at hcall
      cases hcall
  · exact h.accounted
  · exact h.bounded
  · rw [hjobs']
    simp
  · intro job hposting
    rw [show s.call = .posting job from hposting] at hcall
    cases hcall
  · exact fun _ => hjobs'
  · intro i slot' hi hsound
    rw [hjobs', jobBytes_nil]
    rcases hcases hi with ⟨rfl, rfl⟩ | ⟨-, hi⟩
    · exact ⟨[], Directory.set_self .., by simp [hnew]⟩
    · rw [Directory.set_of_ne _ _ (hother hi)]
      have hcontent := h.content hi hsound
      rw [hjobs, jobBytes_nil] at hcontent
      exact hcontent
  · intro i slot' target retries hplacing
    rw [show s.call = .placing i slot' target retries from hplacing] at hcall
    cases hcall
  · intro hunready
    rw [show s.ready = false from hunready] at hready
    cases hready

theorem owns_insert_subset {index : UInt16} {slot : StoreSlot} :
    ({ s with slots := s.slots.insert index slot } : FileStore).owns ⊆ Insert.insert slot.part s.owns := by
  rintro n (⟨j, sj, hj, rfl⟩ | hplacing)
  · dsimp only at hj
    rw [Map.find?_insert] at hj
    split at hj
    · cases hj
      exact .inl rfl
    · exact .inr (owns_of_find hj)
  · exact .inr (.inr hplacing)

/-- What `Open` does when the index is free: nothing but a part file that was not there. -/
theorem Inv.created (h : s.Inv d written) (hready : s.ready = true) (hcall : s.call = .idle) (hjobs : s.jobs = []) {index : UInt16}
    (hnone : s.slots.find? index = none) (safeName : Bytes) (size : UInt64) {part : Bytes}
    (hfree : d part = none) (opens : Bool) (name : Bytes) :
    s.Keeps d written
      (if !opens then (s, [.create part []], [.opened index safeName size []])
      else
        ({ s with slots := s.slots.insert index { name := name, part := part, target := name } },
          [.create part []], [.opened index safeName size name])) := by
  cases opens with
  | false =>
    refine ⟨(h.create hfree []).noteOpened hcall hnone safeName size [], ⟨hfree, trivial⟩, ?_⟩
    exact fun m hm => .inr hm
  | true =>
    refine ⟨?_, ⟨hfree, trivial⟩, owns_insert_subset⟩
    refine (h.noteOpened hcall hnone safeName size name).insert hready hcall hjobs hfree ?_
    simp [recordAll, FileStoreEvent.record]

theorem openFile_keeps (h : s.Inv d written) (hcall : s.call = .idle) (hjobs : s.jobs = []) (index : UInt16)
    (safeName : Bytes) (size : UInt64) (removes : Bool) (disk : OpenAnswers) :
    s.Keeps d written (s.openFile d index safeName size removes disk) := by
  have hclosed := close_keeps h hcall hjobs index false true removes
  rcases close_drop written s index true removes with ⟨hnone, hcall₁, hjobs₁, hout⟩
  unfold openFile
  dsimp only
  split
  · next hunready =>
    -- there is no directory, and so there are no files
    have hfalse : s.ready = false := by simpa using hunready
    exact ⟨h.noteOpened hcall (h.unready hfalse index) safeName size [], trivial, subset_rfl⟩
  · next hready =>
    have hready₁ : (s.close index false true removes).1.ready = s.ready := close_ready ..
    generalize s.close index false true removes = r at *
    obtain ⟨s₁, dropped, out₁⟩ := r
    dsimp only at *
    rw [hcall] at hcall₁
    rw [hjobs] at hjobs₁
    -- the file that had the index is gone, and a write that failed is forgotten
    have hbegun : s.Keeps d written ({ s₁ with writeFailed := false }, dropped, []) := by
      have hinv := hclosed.inv
      dsimp only at hinv
      rw [hout] at hinv
      have hdropped : s.Keeps d written (s₁, dropped, []) := ⟨hinv, hclosed.within, hclosed.own⟩
      have hforgotten : s₁.Keeps (FileOps.apply d dropped) written ({ s₁ with writeFailed := false }, [], []) :=
        hinv.keeps _ _ id rfl rfl rfl rfl rfl
      simpa using hdropped.trans hforgotten
    have hrefused : s.Keeps d written
        ({ s₁ with writeFailed := false }, dropped, [.opened index safeName size []]) := by
      refine ⟨?_, hbegun.within, hbegun.own⟩
      exact hbegun.inv.noteOpened hcall₁ hnone safeName size []
    split
    · exact hrefused
    split
    · exact hrefused
    split
    · exact hrefused
    next hcreates =>
    have hfree : (FileOps.apply d dropped)
        (({ s₁ with writeFailed := false } : FileStore).freeName (FileOps.apply d dropped) safeName ++
          kTransferPartSuffix) = none := by
      rw [Bool.or_eq_true, not_or] at hcreates
      exact Directory.has_eq_false.mp (by simpa using hcreates.2)
    have hcreated := hbegun.inv.created (by simpa [hready₁] using hready) hcall₁ hjobs₁ hnone safeName size hfree
      disk.opens (({ s₁ with writeFailed := false } : FileStore).freeName (FileOps.apply d dropped) safeName)
    have hboth := hbegun.trans hcreated
    cases hopens : disk.opens with
    | false => simpa [hopens] using hboth
    | true => simpa [hopens] using hboth

theorem find?_of_contains {index : UInt16} (h : (!s.slots.contains index) ≠ true) :
    ∃ slot, s.slots.find? index = some slot := by
  rw [Map.contains] at h
  cases hfind : s.slots.find? index with
  | none => simp [hfind] at h
  | some slot => exact ⟨slot, rfl⟩

/-- A refused `Write` adds nothing. -/
theorem recordAll_refused (written : UInt16 → Bytes) (index : UInt16) (data : Bytes) :
    recordAll written [.wrote index data false] = written := by
  funext i
  simp [recordAll, FileStoreEvent.record]

theorem write_keeps (h : s.Inv d written) (index : UInt16) (data : Bytes) :
    s.Keeps d written (s.write index data) := by
  unfold write
  split
  · exact h.keeps _ _ id rfl rfl rfl rfl (recordAll_refused ..)
  split
  · exact h.keeps _ _ id rfl rfl rfl rfl (recordAll_refused ..)
  next hknown _ =>
  have howns : ({ s with call := .posting { index := index, data := data } } : FileStore).owns ⊆ s.owns := by
    rintro n (hslot | ⟨i, slot, target, retries, hplacing, -⟩)
    · exact .inl hslot
    · cases hplacing
  refine ⟨?_, trivial, howns⟩
  rw [recordAll_nil, FileOps.apply_nil]
  constructor
  · exact h.apart
  · intro i slot target retries j sj hplacing
    cases hplacing
  · exact fun hn => h.there (howns hn)
  · exact h.accounted
  · exact h.bounded
  · exact h.known
  · intro job hposting
    cases hposting
    exact find?_of_contains hknown
  · intro i slot target retries hplacing
    cases hplacing
  · exact h.content
  · intro i slot target retries hplacing
    cases hplacing
  · exact h.unready

/-- The job that waited joins the queue, and its bytes are taken. -/
theorem post_keeps (h : s.Inv d written) {job : WriteJob} (hcall : s.call = .posting job) :
    s.Keeps d written (s.post job) := by
  unfold post
  split
  · next hroom =>
    have howns : ({ s with
        queuedBytes := s.queuedBytes + job.data.length, queue := s.queue ++ [job], call := .idle } :
        FileStore).owns ⊆ s.owns := by
      rintro n (hslot | ⟨i, slot, target, retries, hplacing, -⟩)
      · exact .inl hslot
      · cases hplacing
    have hjobs : ({ s with
        queuedBytes := s.queuedBytes + job.data.length, queue := s.queue ++ [job], call := .idle } :
        FileStore).jobs = s.jobs ++ [job] := by
      simp [jobs]
    refine ⟨?_, trivial, howns⟩
    rw [FileOps.apply_nil]
    constructor
    · exact h.apart
    · intro i slot target retries j sj hplacing
      cases hplacing
    · exact fun hn => h.there (howns hn)
    · rw [hjobs]
      simp [h.accounted]
    · exact hroom
    · intro job' hjob'
      rw [hjobs, List.mem_append, List.mem_singleton] at hjob'
      rcases hjob' with hjob' | rfl
      · exact h.known job' hjob'
      · exact h.postingKnown hcall
    · intro job' hposting
      cases hposting
    · intro i slot target retries hplacing
      cases hplacing
    · intro i slot hi hsound
      rcases h.content hi hsound with ⟨c, hc, hwritten⟩
      refine ⟨c, hc, ?_⟩
      rw [hjobs, jobBytes_append, ← List.append_assoc, hwritten]
      by_cases heq : job.index = i
      · simp [recordAll, FileStoreEvent.record, jobBytes_cons, heq]
      · simp [recordAll, FileStoreEvent.record, jobBytes_cons, heq]
    · intro i slot target retries hplacing
      cases hplacing
    · exact h.unready
  · exact h.keeps _ _ id rfl rfl rfl rfl rfl

/-! ## Putting a file in place -/

/-- The call is over, and the part file is let go. -/
theorem Inv.endPlacing (h : s.Inv d written) {index : UInt16} {slot : StoreSlot} {target : Bytes}
    {retries : Nat} (hcall : s.call = .placing index slot target retries) :
    (∀ m ∈ ({ s with call := .idle } : FileStore).owns, m ∈ s.owns ∧ m ≠ slot.part) ∧
      ∀ d', (∀ m ∈ ({ s with call := .idle } : FileStore).owns, d' m = d m) →
        ({ s with call := .idle } : FileStore).Inv d' written := by
  have howns : ∀ m ∈ ({ s with call := .idle } : FileStore).owns, m ∈ s.owns ∧ m ≠ slot.part := by
    rintro m (⟨j, sj, hj, rfl⟩ | ⟨j, sj, target, retries, hplacing, -⟩)
    · exact ⟨owns_of_find hj, h.placingApart hcall hj⟩
    · cases hplacing
  refine ⟨howns, ?_⟩
  intro d' hd'
  have hidle : ({ s with call := .idle } : FileStore).Inv d written := by
    constructor
    · exact h.apart
    · intro i slot' target retries j sj hplacing
      cases hplacing
    · exact fun hn => h.there (howns _ hn).1
    · exact h.accounted
    · exact h.bounded
    · exact h.known
    · intro job hposting
      cases hposting
    · intro i slot' target retries hplacing
      cases hplacing
    · exact h.content
    · intro i slot' target retries hplacing
      cases hplacing
    · exact h.unready
  exact hidle.congr hd'

theorem dropPart_keeps (h : s.Inv d written) {index : UInt16} {slot : StoreSlot} {target : Bytes}
    {retries : Nat} (hcall : s.call = .placing index slot target retries) (removes : Bool) :
    s.Keeps d written (s.dropPart index slot removes) := by
  rcases h.endPlacing hcall with ⟨howns, hinv⟩
  refine keeps_release (owns_of_placing hcall) (fun m hm => howns m hm) ?_
  intro d' hd'
  exact hinv d' fun m hm => hd' m (howns m hm).2

theorem place_keeps (h : s.Inv d written) {index : UInt16} {slot : StoreSlot} {target : Bytes}
    {retries : Nat} (hcall : s.call = .placing index slot target retries) (moves removes : Bool) :
    s.Keeps d written (s.place d index slot target retries moves removes) := by
  unfold place
  split
  · split
    · dsimp only
      split
      · exact dropPart_keeps h hcall removes
      · -- the next try has another name, for the same part file
        next hfresh =>
        have howns : ({ s with call := .placing index slot (s.freeName d slot.name) (retries + 1) } :
            FileStore).owns ⊆ s.owns := by
          rintro m (hslot | ⟨j, sj, target', retries', hplacing, rfl⟩)
          · exact .inl hslot
          · cases hplacing
            exact owns_of_placing hcall
        refine ⟨?_, trivial, howns⟩
        rw [recordAll_nil, FileOps.apply_nil]
        constructor
        · exact h.apart
        · intro i slot' target' retries' j sj hplacing
          cases hplacing
          exact h.placingApart hcall
        · exact fun hn => h.there (howns hn)
        · exact h.accounted
        · exact h.bounded
        · exact h.known
        · intro job hposting
          cases hposting
        · exact fun _ => h.placingSettled hcall
        · exact h.content
        · intro i slot' target' retries' hplacing
          cases hplacing
          exact h.placed hcall
        · exact h.unready
    · exact dropPart_keeps h hcall removes
  · next hfree =>
    split
    · have hnone : d target = none := Directory.has_eq_false.mp (by simpa using hfree)
      rcases h.endPlacing hcall with ⟨howns, hinv⟩
      refine ⟨?_, ⟨⟨owns_of_placing hcall, hnone⟩, trivial⟩, ?_⟩
      · refine hinv _ fun m hm => ?_
        exact Directory.move_of_ne _ (howns m hm).2 (h.ne_of_free hnone (howns m hm).1)
      · exact fun m hm => ⟨(howns m hm).1, (howns m hm).2⟩
    · exact dropPart_keeps h hcall removes

/-! ## The writer -/

theorem takeJob_jobs (s : FileStore) : s.takeJob.jobs = s.jobs := by
  unfold takeJob jobs
  split
  · next hwriting hqueue => simp [hwriting, hqueue]
  · rfl

theorem takeJob_keeps (h : s.Inv d written) : s.Keeps d written (s.takeJob, [], []) := by
  have hframe : s.takeJob.slots = s.slots ∧ s.takeJob.queuedBytes = s.queuedBytes ∧
      s.takeJob.call = s.call ∧ s.takeJob.ready = s.ready := by
    unfold takeJob
    split <;> exact ⟨rfl, rfl, rfl, rfl⟩
  rcases hframe with ⟨hslots, hbytes, hcall, hready⟩
  exact h.keeps _ _ (by rw [hready]; exact id) hslots s.takeJob_jobs hbytes hcall rfl

/-- The bytes a stream took are the job's when it stays sound. -/
theorem writeNow_spec (slot : StoreSlot) (data : Bytes) (failedAt : Option Nat) :
    (writeNow slot data failedAt).1.part = slot.part ∧
      ((writeNow slot data failedAt).1.sound = true →
        slot.sound = true ∧ (writeNow slot data failedAt).2.1 = data) := by
  unfold writeNow
  split
  · next hbad =>
    have hfalse : slot.sound = false := by simpa using hbad
    exact ⟨rfl, fun hsound => absurd hsound (by simp [hfalse])⟩
  · next hsound =>
    split
    · exact ⟨rfl, fun _ => ⟨by simpa using hsound, rfl⟩⟩
    · exact ⟨rfl, fun hbad => by cases hbad⟩

/-- The job at the head is done: what it held is on the disk, or its stream has failed. -/
theorem finishJob_keeps (h : s.Inv d written) (failedAt : Option Nat) :
    s.Keeps d written (s.finishJob d failedAt) := by
  unfold finishJob
  split
  · have hstays : s.Keeps d written (s, [], []) := h.keeps _ _ id rfl rfl rfl rfl rfl
    exact hstays
  next job hwriting =>
  have hjobs : s.jobs = job :: s.queue := by simp [jobs, hwriting]
  rcases h.known job (by simp [hjobs]) with ⟨slot, hfind⟩
  have hnotPlacing : ∀ i slot target retries, s.call ≠ .placing i slot target retries := by
    intro i slot target retries hplacing
    have hnone := h.placingSettled hplacing
    rw [hjobs] at hnone
    cases hnone
  rcases h.there (owns_of_find hfind) with ⟨c, hc⟩
  rcases writeNow_spec slot job.data failedAt with ⟨hpart, hsound⟩
  dsimp only
  rw [hfind]
  dsimp only
  generalize writeNow slot job.data failedAt = written' at *
  obtain ⟨slot', landed, ok⟩ := written'
  dsimp only at *
  -- each index has the part file it had
  have hcases : ∀ {j sj}, (s.slots.insert job.index slot').find? j = some sj →
      ∃ sj₀, s.slots.find? j = some sj₀ ∧ sj.part = sj₀.part ∧ (j ≠ job.index → sj = sj₀) := by
    intro j sj hj
    rw [Map.find?_insert] at hj
    split at hj
    · next heq =>
      cases hj
      exact ⟨slot, by rw [heq, hfind], hpart, fun hne => absurd heq hne⟩
    · exact ⟨sj, hj, rfl, fun _ => rfl⟩
  have howns : ({ s with
      writing := none, queuedBytes := s.queuedBytes - job.data.length,
      slots := s.slots.insert job.index slot', writeFailed := s.writeFailed || !ok } : FileStore).owns ⊆
        s.owns := by
    rintro m (⟨j, sj, hj, rfl⟩ | ⟨j, sj, target, retries, hplacing, -⟩)
    · rcases hcases hj with ⟨sj₀, hj₀, hpart₀, -⟩
      rw [hpart₀]
      exact owns_of_find hj₀
    · exact absurd hplacing (hnotPlacing _ _ _ _)
  have hjobs' : ({ s with
      writing := none, queuedBytes := s.queuedBytes - job.data.length,
      slots := s.slots.insert job.index slot', writeFailed := s.writeFailed || !ok } : FileStore).jobs =
        s.queue := rfl
  have hbytes := h.accounted
  rw [hjobs, List.map_cons, List.sum_cons] at hbytes
  rw [hpart]
  refine ⟨?_, ⟨owns_of_find hfind, trivial⟩, howns⟩
  rw [recordAll_nil]
  show Inv _ (d.set slot.part ((d slot.part).getD [] ++ landed)) written
  constructor
  · intro i j si sj hi hj heq
    rcases hcases hi with ⟨si₀, hi₀, hpi, -⟩
    rcases hcases hj with ⟨sj₀, hj₀, hpj, -⟩
    exact h.apart hi₀ hj₀ (by rw [← hpi, ← hpj, heq])
  · intro i slot' target retries j sj hplacing
    exact absurd hplacing (hnotPlacing _ _ _ _)
  · intro n hn
    by_cases heq : n = slot.part
    · exact ⟨_, by rw [heq, Directory.set_self]⟩
    · rw [Directory.set_of_ne _ _ heq]
      exact h.there (howns hn)
  · rw [hjobs']
    dsimp only
    omega
  · exact Nat.le_trans (Nat.sub_le _ _) h.bounded
  · intro job' hjob'
    rw [hjobs'] at hjob'
    rcases h.known job' (by simp [hjobs, hjob']) with ⟨slot₀, hfind₀⟩
    dsimp only
    rw [Map.find?_insert]
    split
    · exact ⟨_, rfl⟩
    · exact ⟨slot₀, hfind₀⟩
  · intro job' hposting
    rcases h.postingKnown hposting with ⟨slot₀, hfind₀⟩
    dsimp only
    rw [Map.find?_insert]
    split
    · exact ⟨_, rfl⟩
    · exact ⟨slot₀, hfind₀⟩
  · intro i slot' target retries hplacing
    exact absurd hplacing (hnotPlacing _ _ _ _)
  · intro i si hi hsi
    rw [hjobs']
    by_cases heq : i = job.index
    · -- the file that was written
      subst heq
      have hsi' : si = slot' := by
        simpa using hi.symm
      rw [hsi'] at hsi ⊢
      rcases hsound hsi with ⟨hslot, hlanded⟩
      rcases h.content hfind hslot with ⟨c₀, hc₀, hwritten⟩
      rw [hc] at hc₀
      cases hc₀
      refine ⟨c ++ landed, by rw [hpart, Directory.set_self, hc, Option.getD_some], ?_⟩
      rw [hjobs, jobBytes_cons, if_pos rfl] at hwritten
      rw [hlanded, List.append_assoc, hwritten]
    · rcases hcases hi with ⟨si₀, hi₀, -, hsame⟩
      rw [hsame heq] at hsi ⊢
      have hother : si₀.part ≠ slot.part := fun hpart₀ => heq (h.apart hi₀ hfind hpart₀)
      have hcontent := h.content hi₀ hsi
      rw [hjobs, jobBytes_cons, if_neg (Ne.symm heq), List.nil_append] at hcontent
      rw [Directory.set_of_ne _ _ hother]
      exact hcontent
  · intro i slot' target retries hplacing
    exact absurd hplacing (hnotPlacing _ _ _ _)
  · intro hunready i
    have hnone := h.unready hunready job.index
    rw [hfind] at hnone
    cases hnone

/-- Every step of the store keeps to its own files. -/
theorem step_keeps (h : s.Inv d written) (input : FileStoreInput) : s.Keeps d written (s.step d input) := by
  have hstays : s.Keeps d written (s, [], []) := h.keeps _ _ id rfl rfl rfl rfl rfl
  cases input with
  | setDirectory isDirectory =>
    have hready : s.Keeps d written ({ s with ready := s.ready || isDirectory }, [], []) :=
      h.keeps _ _ (fun hunready => (Bool.or_eq_false_iff.mp hunready).1) rfl rfl rfl rfl rfl
    exact hready
  | openFile index safeName size removes disk =>
    simp only [step]
    split
    · exact hstays
    · next hturn =>
      rw [Bool.or_eq_true, not_or] at hturn
      exact openFile_keeps h (by simpa using hturn.1) (settled_iff.mp (by simpa using hturn.2)) _ _ _ _ _
  | write index data =>
    simp only [step]
    split
    · exact hstays
    · exact write_keeps h _ _
  | close index keep flushes removes =>
    simp only [step]
    split
    · exact hstays
    · next hturn =>
      rw [Bool.or_eq_true, not_or] at hturn
      exact close_keeps h (by simpa using hturn.1) (settled_iff.mp (by simpa using hturn.2)) _ _ _ _
  | goOn moves removes =>
    simp only [step]
    split
    · exact hstays
    · next job hcall => exact post_keeps h hcall
    · next hcall => exact place_keeps h hcall moves removes
  | takeJob => exact takeJob_keeps h
  | finishJob failedAt => exact finishJob_keeps h failedAt
  | others name content => exact hstays

end FileStore

end Deskhub
