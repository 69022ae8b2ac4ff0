import Deskhub.Input.InputReceiver
import Deskhub.Protocol.Wire.Control
import Deskhub.Session.ClipboardSync
import Mathlib.Data.Fintype.Basic
import Mathlib.Data.List.FinRange
import Mathlib.Data.List.Nodup

/-!
# The viewers of a session

`ViewerTable`: the slots of a session's viewers, what it publishes of them for the other
threads, and the budget of places that all sessions of a host share. The order of joining
is a 64-bit counter of admissions; it is a number here.
-/

namespace Deskhub

def kMaxViewersPerHost : Nat := 5
def kMaxViewersPerSource : Nat := kMaxViewersPerHost
def kInputControlHoldUs : UInt64 := 1000000

structure ViewerBudget where
  taken : Nat := 0
deriving DecidableEq, Repr

namespace ViewerBudget

def tryTake (b : ViewerBudget) : Option ViewerBudget :=
  if b.taken < kMaxViewersPerHost then some { b with taken := b.taken + 1 } else none

def give (b : ViewerBudget) (count : Nat) : ViewerBudget := { b with taken := b.taken - count }

end ViewerBudget

structure ViewerSlot where
  active : Bool := false
  started : Bool := false
  wantsAudio : Bool := false
  haveFeedback : Bool := false
  clientId : UInt32 := 0
  addrPacked : UInt64 := 0
  joinOrder : Nat := 0
  lastRecvUs : UInt64 := 0
  lastInputUs : UInt64 := 0
  name : Bytes := []
  feedback : Feedback := ⟨0, 0, 0⟩
  input : InputReceiver := {}
  clip : ClipboardSync := {}
deriving DecidableEq

structure ViewerInfo where
  addrPacked : UInt64 := 0
  name : Bytes := []
deriving DecidableEq, Repr

def isDriving (slot : ViewerSlot) (nowUs : UInt64) : Bool :=
  slot.active && slot.lastInputUs ≠ 0 && nowUs - slot.lastInputUs ≤ kInputControlHoldUs

/-- The place of a slot in the table. -/
abbrev SlotId := Fin kMaxViewersPerSource

structure ViewerTable where
  slots : SlotId → ViewerSlot := fun _ => {}
  published : List UInt64 := List.replicate kMaxViewersPerSource 0
  publishedAudio : List UInt64 := List.replicate kMaxViewersPerSource 0
  publishedInfos : List ViewerInfo := List.replicate kMaxViewersPerSource {}
  publishedCount : Nat := 0
  count : Nat := 0
  nextJoinOrder : Nat := 1

namespace ViewerTable

/-- The slots in use, in their order. -/
def activeIds (t : ViewerTable) : List SlotId := (List.finRange _).filter fun i => (t.slots i).active

def activeSlots (t : ViewerTable) : List ViewerSlot := t.activeIds.map t.slots

/-- What is written over the first entries of a published array; the others are cleared. -/
def filled {α : Type} (entries : List α) (blank : α) : List α :=
  entries ++ List.replicate (kMaxViewersPerSource - entries.length) blank

def publish (t : ViewerTable) : ViewerTable :=
  { t with
    publishedInfos := filled (t.activeSlots.map fun s => ⟨s.addrPacked, s.name⟩) {}
    published := filled (t.activeSlots.map ViewerSlot.addrPacked) 0
    publishedAudio := filled (t.activeSlots.map fun s => if s.wantsAudio then s.addrPacked else 0) 0
    publishedCount := t.activeSlots.length }

/-- A write through a pointer to a slot. -/
def setSlot (t : ViewerTable) (i : SlotId) (slot : ViewerSlot) : ViewerTable :=
  { t with slots := Function.update t.slots i slot }

def find (t : ViewerTable) (addrPacked : UInt64) : Option SlotId :=
  if addrPacked = 0 then none
  else (List.finRange _).find? fun i => (t.slots i).active && (t.slots i).addrPacked = addrPacked

def findByClient (t : ViewerTable) (clientId : UInt32) : Option SlotId :=
  (List.finRange _).find? fun i => (t.slots i).active && (t.slots i).clientId = clientId

/-- A place of the budget, where the table has one. -/
def takePlace : Option ViewerBudget → Option (Option ViewerBudget)
  | none => some none
  | some b => b.tryTake.map some

def givePlaces (budget : Option ViewerBudget) (count : Nat) : Option ViewerBudget :=
  budget.map (·.give count)

/-- `Admit`: the first slot that is free, when the budget has a place. -/
def admitViewer (t : ViewerTable) (budget : Option ViewerBudget) (clientId : UInt32) (addrPacked : UInt64)
    (nowUs : UInt64) (name : Bytes) : Option (ViewerTable × Option ViewerBudget × SlotId) :=
  if addrPacked = 0 then none
  else
    match (List.finRange _).find? fun i => !(t.slots i).active with
    | none => none
    | some i =>
        match takePlace budget with
        | none => none
        | some budget =>
            let slot : ViewerSlot :=
              { active := true
                clientId := clientId
                addrPacked := addrPacked
                joinOrder := t.nextJoinOrder
                lastRecvUs := nowUs
                name := name }
            let t := { t.setSlot i slot with
              nextJoinOrder := t.nextJoinOrder + 1, count := t.count + 1 }
            some (t.publish, budget, i)

def rebind (t : ViewerTable) (i : SlotId) (addrPacked : UInt64) : ViewerTable :=
  if !(t.slots i).active || addrPacked = 0 || (t.slots i).addrPacked = addrPacked then t
  else (t.setSlot i { t.slots i with addrPacked := addrPacked }).publish

def setName (t : ViewerTable) (i : SlotId) (name : Bytes) : ViewerTable :=
  if !(t.slots i).active || (t.slots i).name = name then t
  else (t.setSlot i { t.slots i with name := name }).publish

def setWantsAudio (t : ViewerTable) (i : SlotId) (on : Bool) : ViewerTable :=
  if !(t.slots i).active || (t.slots i).wantsAudio = on then t
  else (t.setSlot i { t.slots i with wantsAudio := on }).publish

def drop (t : ViewerTable) (budget : Option ViewerBudget) (i : SlotId) :
    ViewerTable × Option ViewerBudget :=
  if !(t.slots i).active then (t, budget)
  else
    let t := { t.setSlot i {} with count := t.count - 1 }
    (t.publish, givePlaces budget 1)

def clear (t : ViewerTable) (budget : Option ViewerBudget) : ViewerTable × Option ViewerBudget :=
  ({ t with slots := fun _ => {}, count := 0 }.publish, givePlaces budget t.count)

/-- A viewer who joined before that of slot `i` is driving. -/
def higherPriorityIsDriving (t : ViewerTable) (i : SlotId) (nowUs : UInt64) : Bool :=
  (List.finRange _).any fun j =>
    j ≠ i && (t.slots j).joinOrder < (t.slots i).joinOrder && isDriving (t.slots j) nowUs

def empty (t : ViewerTable) : Bool := t.count = 0

def anyStarted (t : ViewerTable) : Bool :=
  (List.finRange _).any fun i => (t.slots i).active && (t.slots i).started

def viewerCount (t : ViewerTable) : Nat := t.publishedCount

/-- `SnapshotAddrs` into a span of `room` addresses. -/
def snapshotAddrs (t : ViewerTable) (room : Nat) : List UInt64 :=
  (t.published.filter (· ≠ 0)).take room

def snapshotAudioAddrs (t : ViewerTable) (room : Nat) : List UInt64 :=
  (t.publishedAudio.filter (· ≠ 0)).take room

def snapshotInfos (t : ViewerTable) (room : Nat) : List ViewerInfo :=
  (t.publishedInfos.filter fun v => v.addrPacked ≠ 0).take room

def inputStats (t : ViewerTable) : InputReceiver.Stats :=
  t.activeSlots.foldl
    (fun total s =>
      { packets := total.packets + s.input.stats.packets
        applied := total.applied + s.input.stats.applied
        duplicates := total.duplicates + s.input.stats.duplicates
        lost := total.lost + s.input.stats.lost })
    {}

end ViewerTable

/-- One turn of the loop of `WorstCaseFeedback` after the first feedback. -/
def worseFeedback (worst one : Feedback) : Feedback :=
  { lossPct := if worst.lossPct < one.lossPct then one.lossPct else worst.lossPct
    rttMs := if worst.rttMs < one.rttMs then one.rttMs else worst.rttMs
    recvBitrateKbps :=
      if one.recvBitrateKbps < worst.recvBitrateKbps then one.recvBitrateKbps
      else worst.recvBitrateKbps }

def worstCaseFeedback (slots : List ViewerSlot) : Feedback :=
  match (slots.filter fun s => s.active && s.haveFeedback).map ViewerSlot.feedback with
  | [] => ⟨0, 0, 0⟩
  | first :: rest => rest.foldl worseFeedback first

/-!
## The viewer table keeps its viewers apart

Each operation on the table keeps the viewers' addresses, client ids and places in the order
of joining distinct, the count right, and what is published up to date.
-/

namespace ViewerTable

/-! ## What the operations do to the slots -/

@[simp] theorem publish_slots (t : ViewerTable) : t.publish.slots = t.slots := rfl
@[simp] theorem publish_count (t : ViewerTable) : t.publish.count = t.count := rfl
@[simp] theorem publish_nextJoinOrder (t : ViewerTable) :
    t.publish.nextJoinOrder = t.nextJoinOrder := rfl
@[simp] theorem publish_publish (t : ViewerTable) : t.publish.publish = t.publish := rfl

theorem setSlot_slots (t : ViewerTable) (i j : SlotId) (slot : ViewerSlot) :
    (t.setSlot i slot).slots j = if j = i then slot else t.slots j :=
  Function.update_apply t.slots i slot j

@[simp] theorem setSlot_self (t : ViewerTable) (i : SlotId) (slot : ViewerSlot) :
    (t.setSlot i slot).slots i = slot := by
  rw [setSlot_slots, if_pos rfl]

theorem setSlot_of_ne (t : ViewerTable) {i j : SlotId} (slot : ViewerSlot) (h : j ≠ i) :
    (t.setSlot i slot).slots j = t.slots j := by
  rw [setSlot_slots, if_neg h]

theorem mem_activeIds {t : ViewerTable} {i : SlotId} :
    i ∈ t.activeIds ↔ (t.slots i).active = true := by
  simp [activeIds]

theorem find_eq_some {t : ViewerTable} {addrPacked : UInt64} {i : SlotId}
    (h : t.find addrPacked = some i) :
    addrPacked ≠ 0 ∧ (t.slots i).active = true ∧ (t.slots i).addrPacked = addrPacked := by
  unfold find at h
  split at h
  · cases h
  · next hne =>
    have hfound := List.find?_some h
    simp only [Bool.and_eq_true, decide_eq_true_eq] at hfound
    exact ⟨hne, hfound⟩

theorem find_eq_none {t : ViewerTable} {addrPacked : UInt64} (h : t.find addrPacked = none)
    (hne : addrPacked ≠ 0) (i : SlotId) (hactive : (t.slots i).active = true) :
    (t.slots i).addrPacked ≠ addrPacked := by
  unfold find at h
  rw [if_neg hne] at h
  have hnot := List.find?_eq_none.mp h i (List.mem_finRange i)
  simpa [hactive] using hnot

theorem findByClient_eq_some {t : ViewerTable} {clientId : UInt32} {i : SlotId}
    (h : t.findByClient clientId = some i) :
    (t.slots i).active = true ∧ (t.slots i).clientId = clientId := by
  have hfound := List.find?_some h
  simpa only [Bool.and_eq_true, decide_eq_true_eq] using hfound

theorem findByClient_eq_none {t : ViewerTable} {clientId : UInt32}
    (h : t.findByClient clientId = none) (i : SlotId) (hactive : (t.slots i).active = true) :
    (t.slots i).clientId ≠ clientId := by
  have hnot := List.find?_eq_none.mp h i (List.mem_finRange i)
  simpa [hactive] using hnot

/-- The slot of an admission, and the table before it is published. -/
theorem admitViewer_eq_some {t t' : ViewerTable} {budget budget' : Option ViewerBudget}
    {clientId : UInt32} {addrPacked nowUs : UInt64} {name : Bytes} {i : SlotId}
    (h : t.admitViewer budget clientId addrPacked nowUs name = some (t', budget', i)) :
    addrPacked ≠ 0 ∧ (t.slots i).active = false ∧ takePlace budget = some budget' ∧
      t' = publish { t.setSlot i
        { active := true, clientId := clientId, addrPacked := addrPacked
          joinOrder := t.nextJoinOrder, lastRecvUs := nowUs, name := name } with
        nextJoinOrder := t.nextJoinOrder + 1, count := t.count + 1 } := by
  unfold admitViewer at h
  split at h
  · cases h
  · next hne =>
    split at h
    · cases h
    · next j hfree =>
      split at h
      · cases h
      · next b hplace =>
        cases h
        have hfound := List.find?_some hfree
        exact ⟨hne, by simpa using hfound, hplace, rfl⟩

/-- Nobody is admitted: there is no address, no free slot, or no place in the budget. -/
theorem admitViewer_eq_none {t : ViewerTable} {budget : Option ViewerBudget} {clientId : UInt32}
    {addrPacked nowUs : UInt64} {name : Bytes}
    (h : t.admitViewer budget clientId addrPacked nowUs name = none) :
    addrPacked = 0 ∨ (∀ i, (t.slots i).active = true) ∨ takePlace budget = none := by
  unfold admitViewer at h
  split at h
  · next hzero => exact .inl hzero
  · split at h
    · next hfull =>
      refine .inr (.inl ?_)
      intro i
      have hnot := List.find?_eq_none.mp hfull i (List.mem_finRange i)
      simpa using hnot
    · split at h
      · next hplace => exact .inr (.inr hplace)
      · cases h

theorem rebind_eq {t : ViewerTable} {i : SlotId} {addrPacked : UInt64}
    (hactive : (t.slots i).active = true) (hne : addrPacked ≠ 0) :
    (t.rebind i addrPacked).slots =
        (t.setSlot i { t.slots i with addrPacked := addrPacked }).slots ∧
      (t.rebind i addrPacked).count = t.count ∧
      (t.rebind i addrPacked).nextJoinOrder = t.nextJoinOrder := by
  unfold rebind
  split
  · next hsame =>
    refine ⟨?_, rfl, rfl⟩
    have haddr : (t.slots i).addrPacked = addrPacked := by
      simpa [hactive, hne] using hsame
    rw [← haddr]
    exact (Function.update_eq_self i t.slots).symm
  · exact ⟨rfl, rfl, rfl⟩

theorem setName_eq {t : ViewerTable} {i : SlotId} (name : Bytes)
    (hactive : (t.slots i).active = true) :
    (t.setName i name).slots = (t.setSlot i { t.slots i with name := name }).slots ∧
      (t.setName i name).count = t.count ∧
      (t.setName i name).nextJoinOrder = t.nextJoinOrder := by
  unfold setName
  split
  · next hsame =>
    refine ⟨?_, rfl, rfl⟩
    have hname : (t.slots i).name = name := by simpa [hactive] using hsame
    rw [← hname]
    exact (Function.update_eq_self i t.slots).symm
  · exact ⟨rfl, rfl, rfl⟩

theorem setWantsAudio_eq {t : ViewerTable} {i : SlotId} (on : Bool)
    (hactive : (t.slots i).active = true) :
    (t.setWantsAudio i on).slots = (t.setSlot i { t.slots i with wantsAudio := on }).slots ∧
      (t.setWantsAudio i on).count = t.count ∧
      (t.setWantsAudio i on).nextJoinOrder = t.nextJoinOrder := by
  unfold setWantsAudio
  split
  · next hsame =>
    refine ⟨?_, rfl, rfl⟩
    have haudio : (t.slots i).wantsAudio = on := by simpa [hactive] using hsame
    rw [← haudio]
    exact (Function.update_eq_self i t.slots).symm
  · exact ⟨rfl, rfl, rfl⟩

/-! ## The slots in use -/

theorem nodup_activeIds (t : ViewerTable) : t.activeIds.Nodup :=
  (List.nodup_finRange _).filter _

/-- A write that leaves a slot in use as it is. -/
theorem activeIds_setSlot {t : ViewerTable} {i : SlotId} {slot : ViewerSlot}
    (h : slot.active = (t.slots i).active) : (t.setSlot i slot).activeIds = t.activeIds := by
  unfold activeIds
  refine List.filter_congr ?_
  intro j _
  by_cases hj : j = i
  · subst hj
    rw [setSlot_self, h]
  · rw [setSlot_of_ne t slot hj]

theorem length_activeIds_taken {t : ViewerTable} {i : SlotId} (slot : ViewerSlot)
    (hfree : (t.slots i).active = false) (h : slot.active = true) :
    (t.setSlot i slot).activeIds.length = t.activeIds.length + 1 := by
  have hperm : (t.setSlot i slot).activeIds.Perm (i :: t.activeIds) := by
    have hnot : i ∉ t.activeIds := by
      rw [mem_activeIds, hfree]
      decide
    refine (List.perm_ext_iff_of_nodup (nodup_activeIds _)
      (List.nodup_cons.mpr ⟨hnot, nodup_activeIds t⟩)).mpr ?_
    intro j
    rw [mem_activeIds, List.mem_cons, mem_activeIds, setSlot_slots]
    by_cases hj : j = i
    · simp [hj, h]
    · simp [hj]
  exact hperm.length_eq

theorem length_activeIds_freed {t : ViewerTable} {i : SlotId} (slot : ViewerSlot)
    (htaken : (t.slots i).active = true) (h : slot.active = false) :
    (t.setSlot i slot).activeIds.length + 1 = t.activeIds.length := by
  have hback : (t.setSlot i slot).setSlot i (t.slots i) = t := by
    unfold setSlot
    simp
  have hlen := length_activeIds_taken (t.slots i)
    (show ((t.setSlot i slot).slots i).active = false by rw [setSlot_self, h]) htaken
  rw [hback] at hlen
  exact hlen.symm

/-! ## Consistent tables -/

/-- The viewers can be told apart. -/
structure Apart (t : ViewerTable) : Prop where
  addr_ne_zero : ∀ i, (t.slots i).active = true → (t.slots i).addrPacked ≠ 0
  addr_inj : ∀ i j, (t.slots i).active = true → (t.slots j).active = true →
    (t.slots i).addrPacked = (t.slots j).addrPacked → i = j
  client_inj : ∀ i j, (t.slots i).active = true → (t.slots j).active = true →
    (t.slots i).clientId = (t.slots j).clientId → i = j
  order_inj : ∀ i j, (t.slots i).active = true → (t.slots j).active = true →
    (t.slots i).joinOrder = (t.slots j).joinOrder → i = j
  order_lt : ∀ i, (t.slots i).active = true → (t.slots i).joinOrder < t.nextJoinOrder

/-- And the count and what is published say how it is. -/
structure Consistent (t : ViewerTable) : Prop extends Apart t where
  counted : t.count = t.activeIds.length
  published : t.publish = t

/-- A slot whose viewer, if it has one, is told apart from those of the other slots. -/
structure Fits (t : ViewerTable) (i : SlotId) (slot : ViewerSlot) : Prop where
  addr_ne_zero : slot.active = true → slot.addrPacked ≠ 0
  addr_ne : ∀ j, j ≠ i → slot.active = true → (t.slots j).active = true →
    (t.slots j).addrPacked ≠ slot.addrPacked
  client_ne : ∀ j, j ≠ i → slot.active = true → (t.slots j).active = true →
    (t.slots j).clientId ≠ slot.clientId
  order_ne : ∀ j, j ≠ i → slot.active = true → (t.slots j).active = true →
    (t.slots j).joinOrder ≠ slot.joinOrder
  order_lt : slot.active = true → slot.joinOrder < t.nextJoinOrder

/-- What two different slots never share stays so when one of them is written. -/
theorem inj_setSlot {α : Type} {t : ViewerTable} {i : SlotId} {slot : ViewerSlot}
    (f : ViewerSlot → α)
    (h : ∀ j k, (t.slots j).active = true → (t.slots k).active = true →
      f (t.slots j) = f (t.slots k) → j = k)
    (hne : ∀ j, j ≠ i → slot.active = true → (t.slots j).active = true → f (t.slots j) ≠ f slot)
    (j k : SlotId) (hj : ((t.setSlot i slot).slots j).active = true)
    (hk : ((t.setSlot i slot).slots k).active = true)
    (heq : f ((t.setSlot i slot).slots j) = f ((t.setSlot i slot).slots k)) : j = k := by
  by_cases hji : j = i <;> by_cases hki : k = i
  · rw [hji, hki]
  · subst hji
    rw [setSlot_self] at hj heq
    rw [setSlot_of_ne t slot hki] at hk heq
    exact absurd heq.symm (hne k hki hj hk)
  · subst hki
    rw [setSlot_self] at hk heq
    rw [setSlot_of_ne t slot hji] at hj heq
    exact absurd heq (hne j hji hk hj)
  · rw [setSlot_of_ne t slot hji] at hj heq
    rw [setSlot_of_ne t slot hki] at hk heq
    exact h j k hj hk heq

theorem Apart.setSlot {t : ViewerTable} (h : Apart t) {i : SlotId} {slot : ViewerSlot}
    (hfits : Fits t i slot) : Apart (t.setSlot i slot) := by
  refine ⟨?_, ?_, ?_, ?_, ?_⟩
  · intro j hj
    by_cases hji : j = i
    · subst hji
      rw [setSlot_self] at hj ⊢
      exact hfits.addr_ne_zero hj
    · rw [setSlot_of_ne t slot hji] at hj ⊢
      exact h.addr_ne_zero j hj
  · exact inj_setSlot ViewerSlot.addrPacked h.addr_inj hfits.addr_ne
  · exact inj_setSlot ViewerSlot.clientId h.client_inj hfits.client_ne
  · exact inj_setSlot ViewerSlot.joinOrder h.order_inj hfits.order_ne
  · intro j hj
    by_cases hji : j = i
    · subst hji
      rw [setSlot_self] at hj ⊢
      exact hfits.order_lt hj
    · rw [setSlot_of_ne t slot hji] at hj ⊢
      exact h.order_lt j hj

/-- A slot that keeps its viewer's identity fits where it is. -/
theorem Apart.fits {t : ViewerTable} (h : Apart t) {i : SlotId} {slot : ViewerSlot}
    (hactive : (t.slots i).active = true) (haddr : slot.addrPacked = (t.slots i).addrPacked)
    (hclient : slot.clientId = (t.slots i).clientId)
    (horder : slot.joinOrder = (t.slots i).joinOrder) : Fits t i slot := by
  refine ⟨?_, ?_, ?_, ?_, ?_⟩
  · intro _
    rw [haddr]
    exact h.addr_ne_zero i hactive
  · intro j hj _ hactive' heq
    exact hj (h.addr_inj j i hactive' hactive (heq.trans haddr))
  · intro j hj _ hactive' heq
    exact hj (h.client_inj j i hactive' hactive (heq.trans hclient))
  · intro j hj _ hactive' heq
    exact hj (h.order_inj j i hactive' hactive (heq.trans horder))
  · intro _
    rw [horder]
    exact h.order_lt i hactive

theorem Fits.inactive {t : ViewerTable} {i : SlotId} {slot : ViewerSlot}
    (h : slot.active = false) : Fits t i slot := by
  have hnever : ∀ {p : Prop}, slot.active = true → p := by
    intro p hactive
    rw [h] at hactive
    cases hactive
  refine ⟨?_, ?_, ?_, ?_, ?_⟩
  · exact fun hactive => hnever hactive
  · exact fun _ _ hactive _ => hnever hactive
  · exact fun _ _ hactive _ => hnever hactive
  · exact fun _ _ hactive _ => hnever hactive
  · exact fun hactive => hnever hactive

/-- An empty table is consistent once it is published. -/
theorem Consistent.of_empty {t : ViewerTable} (hnone : ∀ i, (t.slots i).active = false)
    (hcount : t.count = 0) (hpublished : t.publish = t) : Consistent t := by
  have hnever : ∀ {p : Prop} (i : SlotId), (t.slots i).active = true → p := by
    intro p i hi
    rw [hnone i] at hi
    cases hi
  refine ⟨⟨?_, ?_, ?_, ?_, ?_⟩, ?_, hpublished⟩
  · exact fun i hi => hnever i hi
  · exact fun i j hi _ _ => hnever i hi
  · exact fun i j hi _ _ => hnever i hi
  · exact fun i j hi _ _ => hnever i hi
  · exact fun i hi => hnever i hi
  · rw [hcount]
    unfold activeIds
    rw [List.filter_eq_nil_iff.mpr (fun i _ => by rw [hnone i]; decide)]
    rfl

theorem Consistent.init : Consistent {} := Consistent.of_empty (fun _ => rfl) rfl rfl

/-! ## The operations -/

theorem map_activeSlots_setSlot {α : Type} {t : ViewerTable} {i : SlotId} {slot : ViewerSlot}
    (hactive : slot.active = (t.slots i).active) {f : ViewerSlot → α}
    (hf : f slot = f (t.slots i)) : (t.setSlot i slot).activeSlots.map f = t.activeSlots.map f := by
  unfold activeSlots
  rw [activeIds_setSlot hactive, List.map_map, List.map_map]
  refine List.map_congr_left ?_
  intro j _
  rw [Function.comp, Function.comp, setSlot_slots]
  by_cases hj : j = i
  · rw [if_pos hj, hj, hf]
  · rw [if_neg hj]

/-- A write to a viewer's slot that keeps who is in it and what is published of it. -/
theorem Consistent.write {t : ViewerTable} (h : Consistent t) {i : SlotId} {slot : ViewerSlot}
    (htaken : (t.slots i).active = true) (hactive : slot.active = true)
    (haddr : slot.addrPacked = (t.slots i).addrPacked)
    (hclient : slot.clientId = (t.slots i).clientId)
    (horder : slot.joinOrder = (t.slots i).joinOrder)
    (hname : slot.name = (t.slots i).name) (haudio : slot.wantsAudio = (t.slots i).wantsAudio) :
    Consistent (t.setSlot i slot) := by
  have hsame : slot.active = (t.slots i).active := hactive.trans htaken.symm
  refine ⟨h.toApart.setSlot (h.toApart.fits htaken haddr hclient horder), ?_, ?_⟩
  · rw [activeIds_setSlot hsame]
    exact h.counted
  · -- each published field is a map over the slots in use, the same before and after
    have hinfos : (t.setSlot i slot).activeSlots.map (fun s => ViewerInfo.mk s.addrPacked s.name) =
        t.activeSlots.map fun s => ViewerInfo.mk s.addrPacked s.name := by
      refine map_activeSlots_setSlot hsame ?_
      rw [haddr, hname]
    have haddrs : (t.setSlot i slot).activeSlots.map ViewerSlot.addrPacked =
        t.activeSlots.map ViewerSlot.addrPacked := map_activeSlots_setSlot hsame haddr
    have haudios : (t.setSlot i slot).activeSlots.map
        (fun s => if s.wantsAudio then s.addrPacked else 0) =
        t.activeSlots.map fun s => if s.wantsAudio then s.addrPacked else 0 := by
      refine map_activeSlots_setSlot hsame ?_
      rw [haddr, haudio]
    have hlen : (t.setSlot i slot).activeSlots.length = t.activeSlots.length := by
      have hmaps := congrArg List.length haddrs
      rwa [List.length_map, List.length_map] at hmaps
    conv_rhs => rw [← h.published]
    unfold publish
    rw [hinfos, haddrs, haudios, hlen]
    rfl

/-- A write that fits, once it is published. -/
theorem Consistent.writePublished {t : ViewerTable} (h : Consistent t) {i : SlotId}
    {slot : ViewerSlot} (hactive : slot.active = (t.slots i).active) (hfits : Fits t i slot) :
    Consistent (t.setSlot i slot).publish := by
  have hapart := h.toApart.setSlot hfits
  refine ⟨⟨hapart.1, hapart.2, hapart.3, hapart.4, hapart.5⟩, ?_, rfl⟩
  change t.count = (t.setSlot i slot).activeIds.length
  rw [activeIds_setSlot hactive]
  exact h.counted

theorem Consistent.rebind {t : ViewerTable} (h : Consistent t) {i : SlotId} {addrPacked : UInt64}
    (hfree : ∀ j, j ≠ i → (t.slots j).active = true → (t.slots j).addrPacked ≠ addrPacked) :
    Consistent (t.rebind i addrPacked) := by
  unfold ViewerTable.rebind
  split
  · exact h
  · next hmoves =>
    simp only [Bool.or_eq_true, Bool.not_eq_true', decide_eq_true_eq, not_or] at hmoves
    have htaken : (t.slots i).active = true := by simpa using hmoves.1.1
    have hfits : Fits t i (t.slots i) := h.toApart.fits htaken rfl rfl rfl
    refine h.writePublished rfl ⟨fun _ => hmoves.1.2, ?_, hfits.client_ne, hfits.order_ne,
      hfits.order_lt⟩
    intro j hj _ hactive
    exact hfree j hj hactive

theorem Consistent.setName {t : ViewerTable} (h : Consistent t) (i : SlotId) (name : Bytes) :
    Consistent (t.setName i name) := by
  unfold ViewerTable.setName
  split
  · exact h
  · next hmoves =>
    simp only [Bool.or_eq_true, Bool.not_eq_true', decide_eq_true_eq, not_or] at hmoves
    have htaken : (t.slots i).active = true := by simpa using hmoves.1
    exact h.writePublished rfl (h.toApart.fits htaken rfl rfl rfl)

theorem Consistent.setWantsAudio {t : ViewerTable} (h : Consistent t) (i : SlotId) (on : Bool) :
    Consistent (t.setWantsAudio i on) := by
  unfold ViewerTable.setWantsAudio
  split
  · exact h
  · next hmoves =>
    simp only [Bool.or_eq_true, Bool.not_eq_true', decide_eq_true_eq, not_or] at hmoves
    have htaken : (t.slots i).active = true := by simpa using hmoves.1
    exact h.writePublished rfl (h.toApart.fits htaken rfl rfl rfl)

theorem Consistent.admitViewer {t t' : ViewerTable} (h : Consistent t)
    {budget budget' : Option ViewerBudget} {clientId : UInt32} {addrPacked nowUs : UInt64}
    {name : Bytes} {i : SlotId}
    (hadm : t.admitViewer budget clientId addrPacked nowUs name = some (t', budget', i))
    (haddr : ∀ j, (t.slots j).active = true → (t.slots j).addrPacked ≠ addrPacked)
    (hclient : ∀ j, (t.slots j).active = true → (t.slots j).clientId ≠ clientId) :
    Consistent t' ∧ t'.count = t.count + 1 := by
  obtain ⟨hne, hfree, -, rfl⟩ := admitViewer_eq_some hadm
  let slot : ViewerSlot :=
    { active := true, clientId := clientId, addrPacked := addrPacked
      joinOrder := t.nextJoinOrder, lastRecvUs := nowUs, name := name }
  have hnext : Apart { t with nextJoinOrder := t.nextJoinOrder + 1 } :=
    ⟨h.addr_ne_zero, h.addr_inj, h.client_inj, h.order_inj,
      fun j hj => Nat.lt_succ_of_lt (h.order_lt j hj)⟩
  have hfits : Fits { t with nextJoinOrder := t.nextJoinOrder + 1 } i slot := by
    refine ⟨fun _ => hne, fun j _ _ hj => haddr j hj, fun j _ _ hj => hclient j hj, ?_, ?_⟩
    · intro j _ _ hj heq
      exact absurd (h.order_lt j hj) (by rw [heq]; exact Nat.lt_irrefl _)
    · intro _
      exact Nat.lt_succ_self _
  have hapart := hnext.setSlot hfits
  refine ⟨⟨⟨hapart.1, hapart.2, hapart.3, hapart.4, hapart.5⟩, ?_, rfl⟩, rfl⟩
  change t.count + 1 = (t.setSlot i slot).activeIds.length
  rw [length_activeIds_taken _ hfree rfl, h.counted]

theorem Consistent.drop {t : ViewerTable} (h : Consistent t) (budget : Option ViewerBudget)
    {i : SlotId} (htaken : (t.slots i).active = true) :
    Consistent (t.drop budget i).1 ∧ (t.drop budget i).1.count + 1 = t.count := by
  have hlen := length_activeIds_freed {} htaken rfl
  have hcounted := h.counted
  unfold ViewerTable.drop
  rw [if_neg (by simp [htaken])]
  have hapart := h.toApart.setSlot (show Fits t i {} from Fits.inactive rfl)
  refine ⟨⟨⟨hapart.1, hapart.2, hapart.3, hapart.4, hapart.5⟩, ?_, rfl⟩, ?_⟩
  · change t.count - 1 = (t.setSlot i {}).activeIds.length
    omega
  · change t.count - 1 + 1 = t.count
    omega

/-- The count is zero exactly when no slot is in use. -/
theorem Consistent.empty_iff {t : ViewerTable} (h : Consistent t) :
    t.empty = true ↔ ∀ i, (t.slots i).active = false := by
  unfold ViewerTable.empty
  rw [decide_eq_true_eq, h.counted, List.length_eq_zero_iff]
  constructor
  · intro hnil i
    refine Bool.eq_false_iff.mpr ?_
    intro hactive
    have hmem := mem_activeIds.mpr hactive
    rw [hnil] at hmem
    cases hmem
  · intro hnone
    refine List.filter_eq_nil_iff.mpr ?_
    intro i _
    rw [hnone i]
    decide

theorem anyStarted_iff {t : ViewerTable} :
    t.anyStarted = true ↔ ∃ i, (t.slots i).active = true ∧ (t.slots i).started = true := by
  simp [anyStarted]

/-! ## What the snapshots list -/

theorem filter_filled {α : Type} {p : α → Bool} {entries : List α} {blank : α}
    (hentries : ∀ e ∈ entries, p e = true) (hblank : p blank = false) :
    (filled entries blank).filter p = entries := by
  unfold filled
  rw [List.filter_append, List.filter_eq_self.mpr hentries, List.filter_eq_nil_iff.mpr,
    List.append_nil]
  intro e he
  rw [List.eq_of_mem_replicate he, hblank]
  decide

theorem Consistent.addr_of_mem {t : ViewerTable} (h : Consistent t) {s : ViewerSlot}
    (hs : s ∈ t.activeSlots) : s.addrPacked ≠ 0 := by
  obtain ⟨i, hi, rfl⟩ := List.mem_map.mp hs
  exact h.addr_ne_zero i (mem_activeIds.mp hi)

theorem Consistent.viewerCount {t : ViewerTable} (h : Consistent t) :
    t.viewerCount = t.activeSlots.length := by
  unfold ViewerTable.viewerCount
  rw [← h.published]
  rfl

theorem Consistent.snapshotAddrs {t : ViewerTable} (h : Consistent t) (room : Nat) :
    t.snapshotAddrs room = (t.activeSlots.map ViewerSlot.addrPacked).take room := by
  unfold ViewerTable.snapshotAddrs
  rw [← h.published]
  refine congrArg (List.take room) (filter_filled ?_ (by decide))
  intro addr haddr
  obtain ⟨s, hs, rfl⟩ := List.mem_map.mp haddr
  simpa using h.addr_of_mem hs

theorem Consistent.snapshotInfos {t : ViewerTable} (h : Consistent t) (room : Nat) :
    t.snapshotInfos room = (t.activeSlots.map fun s => ⟨s.addrPacked, s.name⟩).take room := by
  unfold ViewerTable.snapshotInfos
  rw [← h.published]
  refine congrArg (List.take room) (filter_filled ?_ (by decide))
  intro info hinfo
  obtain ⟨s, hs, rfl⟩ := List.mem_map.mp hinfo
  simpa using h.addr_of_mem hs

/-- Those of the viewers that want audio. -/
theorem Consistent.snapshotAudioAddrs {t : ViewerTable} (h : Consistent t) (room : Nat) :
    t.snapshotAudioAddrs room =
      ((t.activeSlots.filter ViewerSlot.wantsAudio).map ViewerSlot.addrPacked).take room := by
  unfold ViewerTable.snapshotAudioAddrs
  rw [← h.published]
  refine congrArg (List.take room) ?_
  change (filled (t.activeSlots.map fun s => if s.wantsAudio then s.addrPacked else 0) 0).filter
    (· ≠ 0) = (t.activeSlots.filter ViewerSlot.wantsAudio).map ViewerSlot.addrPacked
  unfold filled
  have hblank : ∀ n, (List.replicate n (0 : UInt64)).filter (· ≠ 0) = [] := by
    intro n
    refine List.filter_eq_nil_iff.mpr ?_
    intro e he
    rw [List.eq_of_mem_replicate he]
    decide
  rw [List.filter_append, hblank, List.append_nil]
  have haddr := fun s hs => h.addr_of_mem (s := s) hs
  generalize t.activeSlots = slots at haddr
  induction slots with
  | nil => rfl
  | cons s rest ih =>
    have hrest := ih (fun s' hs' => haddr s' (List.mem_cons_of_mem s hs'))
    have hs := haddr s List.mem_cons_self
    rw [List.map_cons]
    by_cases haudio : s.wantsAudio = true
    · rw [if_pos haudio, List.filter_cons_of_pos (by simpa using hs), hrest,
        List.filter_cons_of_pos haudio, List.map_cons]
    · rw [if_neg haudio, List.filter_cons_of_neg (by decide), hrest,
        List.filter_cons_of_neg haudio]

end ViewerTable

end Deskhub
