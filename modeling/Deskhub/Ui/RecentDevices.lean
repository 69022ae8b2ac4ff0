import Deskhub.Lib.OrdMap
import Deskhub.Ui.UiSettings

/-!
# The recently used devices

A file line is a time, an address and a name. `TouchRecentDevice` and `RemoveRecentDevice` compare
addresses by their one normalized spelling, `ParseRecentDevices` compares them as they are written.
-/

namespace Deskhub

def kMaxRecentDevices : Nat := 10

structure RecentDevice where
  addr : Bytes
  lastConnectedUnix : UnixTime
  name : Bytes
deriving DecidableEq, Repr

namespace RecentDevices

/-- The address and the name behind the time of a line. -/
def addrAndName (rest : Bytes) : Bytes × Bytes :=
  match cutAt 32 rest with
  | none => (rest, [])
  | some (addr, name) => (trim addr, truncateDeviceName (trim name))

def parseLine (line : Bytes) : Option RecentDevice :=
  match cutAt 32 (trim line) with
  | none => none
  | some (stampText, rest) =>
    match parseUnixTime stampText with
    | none => none
    | some stamp =>
      let (addr, name) := addrAndName (trim rest)
      if addr = [] then none else some { addr, lastConnectedUnix := stamp, name }

def containsAddr (devices : List RecentDevice) (addr : Bytes) : Bool :=
  devices.any fun d => d.addr = addr

/-- The loop of `ParseRecentDevices` over the lines that are left. -/
def parseFrom (out : List RecentDevice) : List Bytes → List RecentDevice
  | [] => out
  | line :: lines =>
    if out.length < kMaxRecentDevices then
      match parseLine line with
      | none => parseFrom out lines
      | some device =>
        if containsAddr out device.addr then parseFrom out lines
        else parseFrom (out ++ [device]) lines
    else out

def parseRecentDevices (text : Bytes) : List RecentDevice := parseFrom [] (splitLines text)

def removeRecentDevice (devices : List RecentDevice) (addr : Bytes) : List RecentDevice :=
  let wanted := normalizedDeviceAddr addr
  if wanted = [] then devices
  else devices.filter fun d => normalizedDeviceAddr d.addr ≠ wanted

def touchRecentDevice (devices : List RecentDevice) (addr : Bytes) (nowUnix : UnixTime)
    (name : Bytes) : List RecentDevice :=
  let trimmed := trim addr
  if trimmed = [] then devices
  else
    let device :=
      { addr := trimmed, lastConnectedUnix := nowUnix, name := truncateDeviceName name }
    (device :: removeRecentDevice devices trimmed).take kMaxRecentDevices

/-- A change of the list. -/
inductive Edit where
  | touch (addr : Bytes) (nowUnix : UnixTime) (name : Bytes)
  | remove (addr : Bytes)
deriving Repr

def applyEdit (devices : List RecentDevice) : Edit → List RecentDevice
  | .touch addr nowUnix name => touchRecentDevice devices addr nowUnix name
  | .remove addr => removeRecentDevice devices addr

def run (devices : List RecentDevice) (edits : List Edit) : List RecentDevice :=
  edits.foldl applyEdit devices

/-! ## Each device once -/

/-- No two entries are spellings of one address, and there are at most `kMaxRecentDevices`. -/
structure Distinct (devices : List RecentDevice) : Prop where
  nodup : (devices.map fun d => normalizedDeviceAddr d.addr).Nodup
  length_le : devices.length ≤ kMaxRecentDevices

theorem Distinct.remove {devices : List RecentDevice} (h : Distinct devices) (addr : Bytes) :
    Distinct (removeRecentDevice devices addr) := by
  unfold removeRecentDevice
  dsimp only
  split
  · exact h
  · constructor
    · exact h.nodup.sublist (List.filter_sublist.map _)
    · exact Nat.le_trans (List.length_filter_le _ _) h.length_le

/-- What is left when an address is removed has no spelling of it. -/
theorem not_mem_removeRecentDevice {addr : Bytes} (haddr : trim addr ≠ [])
    (devices : List RecentDevice) :
    normalizedDeviceAddr addr ∉
      (removeRecentDevice devices addr).map fun d => normalizedDeviceAddr d.addr := by
  unfold removeRecentDevice
  rw [if_neg (normalizedDeviceAddr_ne_nil haddr)]
  intro hmem
  rcases List.mem_map.mp hmem with ⟨d, hd, heq⟩
  exact of_decide_eq_true (List.mem_filter.mp hd).2 heq

theorem Distinct.touch {devices : List RecentDevice} (h : Distinct devices) (addr : Bytes)
    (nowUnix : UnixTime) (name : Bytes) :
    Distinct (touchRecentDevice devices addr nowUnix name) := by
  unfold touchRecentDevice
  dsimp only
  split
  · exact h
  · next hne =>
    have htrimmed : trim (trim addr) ≠ [] := by
      rw [trim_trim]
      exact hne
    constructor
    · -- the new entry in front is no spelling of what is kept, and cutting the end keeps that
      refine List.Nodup.sublist ((List.take_sublist _ _).map _) ?_
      rw [List.map_cons, List.nodup_cons]
      exact ⟨not_mem_removeRecentDevice htrimmed devices, (h.remove _).nodup⟩
    · exact List.length_take_le _ _

/-- The step lemma: a change leaves each device once. -/
theorem Distinct.applyEdit {devices : List RecentDevice} (h : Distinct devices) (edit : Edit) :
    Distinct (applyEdit devices edit) := by
  cases edit with
  | touch addr nowUnix name => exact h.touch addr nowUnix name
  | remove addr => exact h.remove addr

theorem Distinct.run {devices : List RecentDevice} (h : Distinct devices) (edits : List Edit) :
    Distinct (run devices edits) := by
  induction edits generalizing devices with
  | nil => exact h
  | cons edit edits ih => exact ih (h.applyEdit edit)

/-! ## What the loader keeps -/

/-- The addresses of the lines that are entries, in the order of the text. -/
def entryAddrs (lines : List Bytes) : List Bytes := (lines.filterMap parseLine).map RecentDevice.addr

theorem containsAddr_iff {devices : List RecentDevice} {addr : Bytes} :
    containsAddr devices addr = true ↔ addr ∈ devices.map RecentDevice.addr := by
  unfold containsAddr
  rw [List.any_eq_true, List.mem_map]
  simp only [decide_eq_true_iff]

/-- The loop keeps what it has and goes on with the first entry of each further spelling, until the
list is full. -/
theorem addrs_parseFrom {out : List RecentDevice} (hlen : out.length ≤ kMaxRecentDevices)
    (lines : List Bytes) :
    (parseFrom out lines).map RecentDevice.addr =
      (out.map RecentDevice.addr ++
        ((entryAddrs lines).filter fun addr => addr ∉ out.map RecentDevice.addr).eraseDups).take
          kMaxRecentDevices := by
  have hfull : ∀ (out : List RecentDevice) (more : List Bytes), out.length = kMaxRecentDevices →
      (out.map RecentDevice.addr ++ more).take kMaxRecentDevices = out.map RecentDevice.addr := by
    intro out more hout
    exact List.take_left' (by rw [List.length_map, hout])
  induction lines generalizing out with
  | nil =>
    unfold parseFrom entryAddrs
    rw [List.filterMap_nil, List.map_nil, List.filter_nil, List.eraseDups_nil, List.append_nil]
    exact (List.take_of_length_le (by rwa [List.length_map])).symm
  | cons line lines ih =>
    unfold parseFrom
    split
    · next hroom =>
      split
      · next hnone =>
        have hentries : entryAddrs (line :: lines) = entryAddrs lines := by
          unfold entryAddrs
          rw [List.filterMap_cons_none hnone]
        rw [ih hlen, hentries]
      · next device hsome =>
        have hentries : entryAddrs (line :: lines) = device.addr :: entryAddrs lines := by
          unfold entryAddrs
          rw [List.filterMap_cons_some hsome, List.map_cons]
        rw [hentries]
        split
        · next hin =>
          have hmem := containsAddr_iff.mp hin
          rw [ih hlen, List.filter_cons_of_neg (by simpa using hmem)]
        · next hnot =>
          have hmem : device.addr ∉ out.map RecentDevice.addr := fun hin =>
            hnot (containsAddr_iff.mpr hin)
          have hlen' : (out ++ [device]).length ≤ kMaxRecentDevices := by
            rw [List.length_append, List.length_singleton]
            exact hroom
          -- the spelling just kept is one more that the lines behind it cannot add
          have hfilter : ((entryAddrs lines).filter fun addr =>
                addr ∉ (out ++ [device]).map RecentDevice.addr) =
              (entryAddrs lines).filter fun addr =>
                !addr == device.addr && decide (addr ∉ out.map RecentDevice.addr) := by
            apply List.filter_congr
            intro addr _
            rw [Bool.eq_iff_iff]
            simp only [decide_eq_true_iff, Bool.and_eq_true, Bool.not_eq_true', beq_eq_false_iff_ne,
              List.map_append, List.map_cons, List.map_nil, List.mem_append, List.mem_singleton,
              not_or]
            exact and_comm
          rw [ih hlen', hfilter, List.filter_cons_of_pos (by simpa using hmem), List.eraseDups_cons,
            List.filter_filter, List.map_append, List.map_singleton, List.append_assoc,
            List.singleton_append]
    · next hroom =>
      exact (hfull out _ (Nat.le_antisymm hlen (Nat.not_lt.mp hroom))).symm

/-- The loaded list: the first entry of each spelling, ten at most. -/
theorem addrs_parseRecentDevices (text : Bytes) :
    (parseRecentDevices text).map RecentDevice.addr =
      (entryAddrs (splitLines text)).eraseDups.take kMaxRecentDevices := by
  unfold parseRecentDevices
  rw [addrs_parseFrom (Nat.zero_le _)]
  simp

/-- Each device appears once, whatever is touched and removed, exactly when the first ten spellings
in the text are spellings of different addresses. -/
theorem recentDevices_distinct_iff (text : Bytes) :
    (∀ edits, Distinct (run (parseRecentDevices text) edits)) ↔
      (((entryAddrs (splitLines text)).eraseDups.take kMaxRecentDevices).map
        normalizedDeviceAddr).Nodup := by
  have haddrs := addrs_parseRecentDevices text
  constructor
  · intro h
    have hloaded := (h []).nodup
    rw [← haddrs, List.map_map]
    exact hloaded
  · intro hnodup
    apply Distinct.run
    constructor
    · rw [← haddrs, List.map_map] at hnodup
      exact hnodup
    · have hlength := congrArg List.length haddrs
      rw [List.length_map] at hlength
      rw [hlength]
      exact List.length_take_le _ _

/-- One host with and without the usual port: two entries. -/
theorem not_distinct_two_spellings :
    ¬ ∀ (text : Bytes) (edits : List Edit), Distinct (run (parseRecentDevices text) edits) := by
  intro h
  have htwo := (h (ascii "1 10.0.0.1\n2 10.0.0.1:47777\n") []).nodup
  exact absurd htwo (by decide)

end RecentDevices

end Deskhub
