import Deskhub.Protocol.Wire.File
import Deskhub.Protocol.Wire.Texts
import Deskhub.Transfer.SafeName
import Mathlib.Data.List.DropRight

/-!
# What a stored name can be

Every name that `SafeFileName` gives is short, made of harmless bytes and legal on the wire.
It is not always clear of the reserved device names: the guard against them looks at the
whole name, and the cut that comes after it can leave a device's name of a longer one.
-/

namespace Deskhub

/-- A name as the guard against the device names sees it. -/
def cleanedName (name : Bytes) : Bytes := stripTrailingDotsAndSpaces (scrubBytes (baseName name))

/-- A byte of a stored name: no control byte, no separator, nothing Windows rejects. -/
structure NameByte (c : UInt8) : Prop where
  printed : ¬ (c < 0x20 ∨ c = 0x7F)
  notSlash : isSlash c = false
  notIllegal : c ∉ kIllegalOnWindows

/-- A name that is safe to create. -/
structure SafeName (name : Bytes) : Prop where
  short : name.length ≤ kMaxSafeNameBytes
  bytes : ∀ c ∈ name, NameByte c
  ending : ∀ c, name.getLast? = some c → isDotOrSpace c = false
  named : isNoName name = false
  notDevice : isReservedDeviceName name = false
  legal : isWireLegalFileName name = true

/-- A name that is too long is cut in front of byte `k`: the last start of a code point that
leaves room for the extension. -/
structure CutBefore (name : Bytes) (k : Nat) : Prop where
  long : kMaxSafeNameBytes < name.length
  room : k ≤ kMaxSafeNameBytes - (extensionOf name).length
  start : byteAt name k &&& 0xC0 ≠ 0x80
  passed : ∀ j, k < j → j ≤ kMaxSafeNameBytes - (extensionOf name).length →
    byteAt name j &&& 0xC0 = 0x80

/-- The name is no device's, but what stands in front of the cut is. -/
def CutToDevice (name : Bytes) : Prop :=
  isReservedDeviceName name = false ∧
    ∃ k, CutBefore name k ∧ isReservedDeviceName (name.take k) = true

/-! ## Stripping, scrubbing and the base name -/

theorem stripTrailing_prefix_self (p : UInt8 → Bool) (name : Bytes) : stripTrailing p name <+: name :=
  List.rdropWhile_prefix p name

theorem stripTrailing_append {p : UInt8 → Bool} (name : Bytes) {tail : Bytes}
    (h : ∀ c ∈ tail, p c = true) : stripTrailing p (name ++ tail) = stripTrailing p name := by
  induction tail using List.reverseRecOn with
  | nil => rw [List.append_nil]
  | append_singleton tail c ih =>
    have hc : p c = true := h c (by simp)
    have htail : ∀ d ∈ tail, p d = true := fun d hd => h d (by simp [hd])
    rw [← List.append_assoc, ← ih htail]
    exact List.rdropWhile_concat_pos p (name ++ tail) c hc

/-- What is stripped off satisfies `p`. -/
theorem stripTrailing_split (p : UInt8 → Bool) (name : Bytes) :
    ∃ tail, name = stripTrailing p name ++ tail ∧ ∀ c ∈ tail, p c = true := by
  refine ⟨name.rtakeWhile p, ?_, ?_⟩
  · exact List.rdropWhile_append_rtakeWhile.symm
  · intro c hc
    exact List.mem_rtakeWhile_imp hc

theorem ending_stripTrailing {p : UInt8 → Bool} {name : Bytes} {c : UInt8}
    (h : (stripTrailing p name).getLast? = some c) : p c = false := by
  have hne : stripTrailing p name ≠ [] := by
    intro hnil
    rw [hnil] at h
    cases h
  have hnot := List.rdropWhile_last_not p name hne
  rw [List.getLast?_eq_some_getLast hne] at h
  cases h
  exact Bool.eq_false_iff.mpr hnot

theorem scrubBytes_control {u : UInt8} (h : u < 0x20 ∨ u = 0x7F) (rest : Bytes) :
    scrubBytes (u :: rest) = scrubBytes rest := if_pos h

theorem scrubBytes_illegal {u : UInt8} (h : ¬ (u < 0x20 ∨ u = 0x7F)) (hillegal : u ∈ kIllegalOnWindows)
    (rest : Bytes) : scrubBytes (u :: rest) = 0x5F :: scrubBytes rest :=
  (if_neg h).trans (congrArg (· :: scrubBytes rest) (if_pos hillegal))

theorem scrubBytes_kept {u : UInt8} (h : ¬ (u < 0x20 ∨ u = 0x7F)) (hlegal : u ∉ kIllegalOnWindows)
    (rest : Bytes) : scrubBytes (u :: rest) = u :: scrubBytes rest :=
  (if_neg h).trans (congrArg (· :: scrubBytes rest) (if_neg hlegal))

theorem underscore_legal : (0x5F : UInt8) ∉ kIllegalOnWindows := by decide +kernel

theorem scrubBytes_bytes {name : Bytes} {c : UInt8} (h : c ∈ scrubBytes name) :
    ¬ (c < 0x20 ∨ c = 0x7F) ∧ c ∉ kIllegalOnWindows ∧ (c = 0x5F ∨ c ∈ name) := by
  induction name with
  | nil => cases h
  | cons u rest ih =>
    by_cases hcontrol : u < 0x20 ∨ u = 0x7F
    · rw [scrubBytes_control hcontrol] at h
      rcases ih h with ⟨hprinted, hlegal, hfrom⟩
      exact ⟨hprinted, hlegal, hfrom.imp_right (List.mem_cons_of_mem u)⟩
    · by_cases hillegal : u ∈ kIllegalOnWindows
      · rw [scrubBytes_illegal hcontrol hillegal] at h
        rcases List.mem_cons.mp h with rfl | hrest
        · exact ⟨by decide, underscore_legal, .inl rfl⟩
        · rcases ih hrest with ⟨hprinted, hlegal, hfrom⟩
          exact ⟨hprinted, hlegal, hfrom.imp_right (List.mem_cons_of_mem u)⟩
      · rw [scrubBytes_kept hcontrol hillegal] at h
        rcases List.mem_cons.mp h with rfl | hrest
        · exact ⟨hcontrol, hillegal, .inr List.mem_cons_self⟩
        · rcases ih hrest with ⟨hprinted, hlegal, hfrom⟩
          exact ⟨hprinted, hlegal, hfrom.imp_right (List.mem_cons_of_mem u)⟩

/-- A name of harmless bytes is left as it is. -/
theorem scrubBytes_eq_self {name : Bytes} (h : ∀ c ∈ name, NameByte c) : scrubBytes name = name := by
  induction name with
  | nil => rfl
  | cons u rest ih =>
    have hu : NameByte u := h u List.mem_cons_self
    rw [scrubBytes_kept hu.printed hu.notIllegal,
      ih (fun c hc => h c (List.mem_cons_of_mem u hc))]

theorem baseName_eq_self {name : Bytes} (h : ∀ c ∈ name, NameByte c) : baseName name = name := by
  refine List.rtakeWhile_eq_self_iff.mpr ?_
  intro c hc
  rw [(h c hc).notSlash]
  rfl

theorem nameByte_of_mem_scrubBytes {name : Bytes} {c : UInt8} (h : c ∈ scrubBytes (baseName name)) :
    NameByte c := by
  rcases scrubBytes_bytes h with ⟨hprinted, hlegal, hfrom⟩
  refine ⟨hprinted, ?_, hlegal⟩
  rcases hfrom with rfl | hbase
  · rfl
  · have hnot := List.mem_rtakeWhile_imp hbase
    simpa using hnot

theorem nameByte_of_mem_cleanedName {name : Bytes} {c : UInt8} (h : c ∈ cleanedName name) :
    NameByte c :=
  nameByte_of_mem_scrubBytes ((stripTrailing_prefix_self isDotOrSpace _).subset h)

/-! ## The stem, the extension and the cut -/

/-- The stem ends at the first dot, whatever follows the part that has it. -/
theorem stemOf_append_of_dot {name : Bytes} (rest : Bytes) (h : 0x2E ∈ name) :
    stemOf (name ++ rest) = stemOf name := by
  induction name with
  | nil => cases h
  | cons u front ih =>
    unfold stemOf at ih ⊢
    by_cases hdot : u = 0x2E
    · subst hdot
      rfl
    · have hfront : 0x2E ∈ front := by
        rcases List.mem_cons.mp h with heq | hmem
        · exact absurd heq.symm hdot
        · exact hmem
      have hnot : (!isDot u) = true := by simp [isDot, hdot]
      rw [List.cons_append, List.takeWhile_cons_of_pos (p := fun c => !isDot c) hnot,
        List.takeWhile_cons_of_pos (p := fun c => !isDot c) hnot, ih hfront]

theorem stemOf_append_of_no_dot {name : Bytes} (rest : Bytes) (h : 0x2E ∉ name) :
    stemOf (name ++ rest) = name ++ stemOf rest := by
  unfold stemOf
  rw [List.takeWhile_append_of_pos]
  intro c hc
  have hne : c ≠ 0x2E := fun heq => h (heq ▸ hc)
  simp [isDot, hne]

theorem stemOf_of_no_dot {name : Bytes} (h : 0x2E ∉ name) : stemOf name = name := by
  have hself := stemOf_append_of_no_dot [] h
  simpa [stemOf] using hself

/-- Trailing dots and spaces do not matter to the guard. -/
theorem isReservedDeviceName_strip (name : Bytes) :
    isReservedDeviceName (stripTrailingDotsAndSpaces name) = isReservedDeviceName name := by
  suffices h : stripTrailing (fun c => c = 0x20) (lowerAscii (stemOf (stripTrailingDotsAndSpaces name))) =
      stripTrailing (fun c => c = 0x20) (lowerAscii (stemOf name)) by
    unfold isReservedDeviceName
    rw [h]
  obtain ⟨tail, hsplit, htail⟩ := stripTrailing_split isDotOrSpace name
  change name = stripTrailingDotsAndSpaces name ++ tail at hsplit
  generalize stripTrailingDotsAndSpaces name = front at hsplit
  subst hsplit
  by_cases hdot : (0x2E : UInt8) ∈ front
  · rw [stemOf_append_of_dot tail hdot]
  · rw [stemOf_append_of_no_dot tail hdot, stemOf_of_no_dot hdot]
    unfold lowerAscii
    rw [List.map_append]
    refine (stripTrailing_append _ ?_).symm
    intro c hc
    -- in front of its first dot the tail is all spaces
    obtain ⟨d, hd, rfl⟩ := List.mem_map.mp hc
    have hnotDot : (!isDot d) = true := List.mem_takeWhile_imp (p := fun c => !isDot c) hd
    have hblank := htail d ((List.takeWhile_prefix _).subset hd)
    have hspace : d = 0x20 := by
      simp only [isDotOrSpace, isDot, Bool.or_eq_true, decide_eq_true_eq, Bool.not_eq_true',
        decide_eq_false_iff_not] at hblank hnotDot
      exact hblank.resolve_left hnotDot
    subst hspace
    decide

/-- An extension starts with a dot, and the name ends with it. -/
theorem extensionOf_split (name : Bytes) :
    ∃ stem, name = stem ++ extensionOf name ∧
      (extensionOf name = [] ∨ ∃ rest, extensionOf name = 0x2E :: rest) := by
  unfold extensionOf
  split
  · exact ⟨name, (List.append_nil name).symm, .inl rfl⟩
  · next hany =>
    dsimp only
    split
    · exact ⟨name, (List.append_nil name).symm, .inl rfl⟩
    · split
      · have hsplit : name = name.rdropWhile (fun c => !isDot c) ++ afterLast isDot name :=
          List.rdropWhile_append_rtakeWhile.symm
        have hne : name.rdropWhile (fun c => !isDot c) ≠ [] := by
          intro hnil
          have hall := List.rdropWhile_eq_nil_iff.mp hnil
          simp only [Bool.not_eq_true', Bool.not_eq_false, List.any_eq_true] at hany
          obtain ⟨c, hc, hdot⟩ := hany
          simpa [hdot] using hall c hc
        have hlast := List.rdropWhile_last_not (fun c => !isDot c) name hne
        have hdot : (name.rdropWhile (fun c => !isDot c)).getLast hne = 0x2E := by
          exact of_decide_eq_true (Bool.not_eq_false' _ ▸ Bool.eq_false_iff.mpr hlast)
        refine ⟨(name.rdropWhile (fun c => !isDot c)).dropLast, ?_, .inr ⟨_, rfl⟩⟩
        conv_lhs => rw [hsplit, ← List.dropLast_append_getLast hne, hdot]
        rw [List.append_assoc, List.singleton_append]
      · exact ⟨name, (List.append_nil name).symm, .inl rfl⟩

theorem length_extensionOf_le (name : Bytes) :
    (extensionOf name).length ≤ kMaxPreservedExtension := by
  unfold extensionOf
  split
  · exact Nat.zero_le _
  · dsimp only
    split
    · exact Nat.zero_le _
    · split
      · assumption
      · exact Nat.zero_le _

/-- What `shorten` does to a name that is too long. -/
theorem shorten_long {name : Bytes} (h : kMaxSafeNameBytes < name.length) :
    (∃ k, CutBefore name k ∧ 0 < k ∧ shorten name = name.take k ++ extensionOf name) ∨
      (byteAt name 1 &&& 0xC0 = 0x80 ∧ (∀ k, CutBefore name k → k = 0) ∧
        shorten name <+: name) := by
  have hext := length_extensionOf_le name
  have hmax : kMaxSafeNameBytes = 255 := rfl
  have hpreserved : kMaxPreservedExtension = 32 := rfl
  let room := kMaxSafeNameBytes - (extensionOf name).length
  let stem := name.take (name.length - (extensionOf name).length)
  have hstemLen : stem.length = name.length - (extensionOf name).length := by
    rw [List.length_take]
    omega
  have hbyte : ∀ j, j ≤ room → byteAt stem j = byteAt name j := by
    intro j hj
    unfold byteAt
    rw [List.getD_eq_getElem?_getD, List.getD_eq_getElem?_getD, List.getElem?_take_of_lt (by omega)]
  have hkeep : utf8TruncLen stem room = utf8TruncLen.backToBoundary stem room := by
    rw [utf8TruncLen, if_neg (by omega)]
  rcases backToBoundary_spec stem room with ⟨hle, hstop, hpassed⟩
  rw [← hkeep] at hle hstop hpassed
  have hpassed' : ∀ j, utf8TruncLen stem room < j → j ≤ room → byteAt name j &&& 0xC0 = 0x80 := by
    intro j hlow hhigh
    rw [← hbyte j hhigh]
    exact hpassed j hlow hhigh
  have heq : shorten name = if utf8TruncLen stem room = 0 then
      name.take (utf8TruncLen name kMaxSafeNameBytes)
      else stem.take (utf8TruncLen stem room) ++ extensionOf name := by
    rw [shorten, if_neg (Nat.not_le.mpr h)]
  by_cases hzero : utf8TruncLen stem room = 0
  · right
    rw [heq, if_pos hzero]
    refine ⟨hpassed' 1 (by omega) (by omega), ?_, List.take_prefix _ _⟩
    intro k hk
    by_contra hpos
    exact hk.start (hpassed' k (by omega) hk.room)
  · left
    refine ⟨utf8TruncLen stem room, ⟨h, hle, ?_, hpassed'⟩, by omega, ?_⟩
    · rw [← hbyte _ hle]
      exact hstop.resolve_left hzero
    · rw [heq, if_neg hzero, List.take_take, Nat.min_eq_left (by omega)]

/-- There is at most one place to cut. -/
theorem CutBefore.unique {name : Bytes} {j k : Nat} (hj : CutBefore name j)
    (hk : CutBefore name k) : j = k := by
  rcases Nat.lt_trichotomy j k with hlt | heq | hgt
  · exact absurd (hj.passed k hlt hk.room) hk.start
  · exact heq
  · exact absurd (hk.passed j hgt hj.room) hj.start

theorem mem_of_mem_shorten {name : Bytes} {c : UInt8} (h : c ∈ shorten name) : c ∈ name := by
  rcases Nat.lt_or_ge kMaxSafeNameBytes name.length with hlong | hshort
  · rcases shorten_long hlong with ⟨k, -, -, heq⟩ | ⟨-, -, hfront⟩
    · obtain ⟨stem, hsplit, -⟩ := extensionOf_split name
      rw [heq] at h
      rcases List.mem_append.mp h with hkept | hext
      · exact List.mem_of_mem_take hkept
      · rw [hsplit]
        exact List.mem_append_right stem hext
    · exact hfront.subset h
  · rw [shorten, if_pos hshort] at h
    exact h

theorem length_shorten_le (name : Bytes) : (shorten name).length ≤ kMaxSafeNameBytes := by
  unfold shorten
  split
  · assumption
  · next hlong =>
    have hext := length_extensionOf_le name
    have hmax : kMaxSafeNameBytes = 255 := rfl
    have hpreserved : kMaxPreservedExtension = 32 := rfl
    dsimp only
    split
    · exact length_cutText_le kMaxSafeNameBytes name
    · have hkept := length_cutText_le (kMaxSafeNameBytes - (extensionOf name).length)
        (name.take (name.length - (extensionOf name).length))
      rw [List.length_append]
      unfold cutText at hkept
      omega

/-! ## Device names -/

/-- How every reserved device name starts. -/
def deviceHeads : List Bytes := ["co", "pr", "au", "nu", "lp"].map ascii

theorem deviceHeads_eq :
    deviceHeads = [[0x63, 0x6F], [0x70, 0x72], [0x61, 0x75], [0x6E, 0x75], [0x6C, 0x70]] := by
  decide +kernel

theorem take_two_mem_deviceHeads {name : Bytes} (h : isReservedDeviceName name = true) :
    lowerAscii (name.take 2) ∈ deviceHeads := by
  have hstems : ∀ s ∈ kReservedStems, s.take 2 ∈ deviceHeads := by decide +kernel
  have hprefixes : ∀ s ∈ kReservedPrefixes, s.take 2 ∈ deviceHeads := by decide +kernel
  have hlength : ∀ s ∈ deviceHeads, s.length = 2 := by
    rw [deviceHeads_eq]
    decide
  unfold isReservedDeviceName at h
  have hfront : stripTrailing (fun c => c = 0x20) (lowerAscii (stemOf name)) <+: lowerAscii name := by
    refine (stripTrailing_prefix_self _ _).trans ?_
    exact (List.takeWhile_prefix _).map _
  generalize stripTrailing (fun c => c = 0x20) (lowerAscii (stemOf name)) = stem at h hfront
  have hhead : stem.take 2 ∈ deviceHeads := by
    by_cases hstem : stem ∈ kReservedStems
    · exact hstems stem hstem
    · rw [if_neg hstem] at h
      by_cases hshort : stem.length ≤ kReservedPrefixLength
      · rw [if_pos hshort] at h
        cases h
      · rw [if_neg hshort] at h
        by_cases hhead : stem.take kReservedPrefixLength ∈ kReservedPrefixes
        · have htwo := hprefixes _ hhead
          rwa [List.take_take] at htwo
        · rw [if_pos hhead] at h
          cases h
  have hlong : 2 ≤ stem.length := by
    have htwo := hlength _ hhead
    rw [List.length_take] at htwo
    omega
  obtain ⟨rest, hrest⟩ := hfront
  have htake : lowerAscii (name.take 2) = stem.take 2 := by
    unfold lowerAscii at hrest ⊢
    rw [List.map_take, ← hrest, List.take_append_of_le_length hlong]
  rw [htake]
  exact hhead

theorem isReservedDeviceName_of_head {name : Bytes}
    (h : lowerAscii (name.take 2) ∉ deviceHeads) : isReservedDeviceName name = false :=
  Bool.eq_false_iff.mpr fun hdevice => h (take_two_mem_deviceHeads hdevice)

theorem isReservedDeviceName_nil : isReservedDeviceName [] = false := by
  apply isReservedDeviceName_of_head
  rw [deviceHeads_eq]
  decide

/-- A guarded name is no device's. -/
theorem isReservedDeviceName_underscore (rest : Bytes) :
    isReservedDeviceName (0x5F :: rest) = false := by
  apply isReservedDeviceName_of_head
  intro hhead
  have hfirst : ∀ s ∈ deviceHeads, byteAt s 0 ≠ 0x5F := by
    rw [deviceHeads_eq]
    decide
  exact hfirst _ hhead rfl

/-- No device name has a second byte inside a code point. -/
theorem isReservedDeviceName_inside {name front : Bytes} (h : byteAt name 1 &&& 0xC0 = 0x80)
    (hfront : front <+: name) : isReservedDeviceName front = false := by
  refine Bool.eq_false_iff.mpr ?_
  intro hdevice
  have hhead := take_two_mem_deviceHeads hdevice
  have hbytes : ∀ s ∈ deviceHeads, s.length = 2 ∧ byteAt s 1 < 0x80 := by
    rw [deviceHeads_eq]
    decide
  obtain ⟨hlen, hsecond⟩ := hbytes _ hhead
  obtain ⟨rest, rfl⟩ := hfront
  match front with
  | [] => cases hlen
  | [_] => cases hlen
  | a :: b :: tail =>
    change b &&& 0xC0 = 0x80 at h
    change (if 0x41 ≤ b ∧ b ≤ 0x5A then b + 0x20 else b) < 0x80 at hsecond
    have hhigh : (0x80 : UInt8) ≤ b := by
      rw [← h]
      exact UInt8.and_le_left
    rw [if_neg (fun hcase => absurd (UInt8.le_trans hhigh hcase.2) (by decide))] at hsecond
    exact absurd hhigh (UInt8.not_le.mpr hsecond)

theorem isReservedDeviceName_append_extension (front : Bytes) {ext : Bytes}
    (h : ext = [] ∨ ∃ rest, ext = 0x2E :: rest) :
    isReservedDeviceName (front ++ ext) = isReservedDeviceName front := by
  have hext : stemOf ext = [] := by
    rcases h with rfl | ⟨rest, rfl⟩
    · rfl
    · rfl
  have hstem : stemOf (front ++ ext) = stemOf front := by
    by_cases hdot : (0x2E : UInt8) ∈ front
    · exact stemOf_append_of_dot ext hdot
    · rw [stemOf_append_of_no_dot ext hdot, stemOf_of_no_dot hdot, hext, List.append_nil]
  unfold isReservedDeviceName
  rw [hstem]

/-! ## The stored name -/

/-- A cleaned name with the guard in front of a device's name. -/
def guardedName (name : Bytes) : Bytes := if isReservedDeviceName name then 0x5F :: name else name

/-- What is stored of a cleaned name, as long as something usable is left. -/
def storedName (name : Bytes) : Bytes := stripTrailingDotsAndSpaces (shorten (guardedName name))

theorem safeFileName_eq (name : Bytes) :
    safeFileName name =
      if isNoName (cleanedName name) then []
      else if isNoName (storedName (cleanedName name)) then [] else storedName (cleanedName name) :=
  rfl

theorem mem_storedName {name : Bytes} {c : UInt8} (h : c ∈ storedName name) : c = 0x5F ∨ c ∈ name := by
  have hshort := mem_of_mem_shorten ((stripTrailing_prefix_self _ _).subset h)
  unfold guardedName at hshort
  split at hshort
  · exact List.mem_cons.mp hshort
  · exact .inr hshort

/-- A guarded name stays clear of the devices however it is cut. -/
theorem isReservedDeviceName_shorten_underscore (rest : Bytes) :
    isReservedDeviceName (shorten (0x5F :: rest)) = false := by
  rcases Nat.lt_or_ge kMaxSafeNameBytes (0x5F :: rest : Bytes).length with hlong | hshort
  · rcases shorten_long hlong with ⟨k, -, hpos, heq⟩ | ⟨hinside, -, hfront⟩
    · obtain ⟨j, rfl⟩ := Nat.exists_eq_add_of_le' hpos
      rw [heq, List.take_succ_cons, List.cons_append]
      exact isReservedDeviceName_underscore _
    · exact isReservedDeviceName_inside hinside hfront
  · rw [shorten, if_pos hshort]
    exact isReservedDeviceName_underscore rest

/-- What is stored is a device's name exactly when the cut makes it one. -/
theorem isReservedDeviceName_storedName (name : Bytes) :
    isReservedDeviceName (storedName name) = true ↔ CutToDevice name := by
  unfold storedName
  rw [isReservedDeviceName_strip]
  by_cases hdevice : isReservedDeviceName name = true
  · rw [guardedName, if_pos hdevice, isReservedDeviceName_shorten_underscore]
    constructor
    · intro h
      cases h
    · intro h
      rw [h.1] at hdevice
      cases hdevice
  · rw [guardedName, if_neg hdevice]
    have hclear : isReservedDeviceName name = false := Bool.eq_false_iff.mpr hdevice
    rcases Nat.lt_or_ge kMaxSafeNameBytes name.length with hlong | hshort
    · rcases shorten_long hlong with ⟨k, hcut, -, heq⟩ | ⟨hinside, hzero, hfront⟩
      · obtain ⟨-, -, hext⟩ := extensionOf_split name
        rw [heq, isReservedDeviceName_append_extension _ hext]
        constructor
        · intro hkept
          exact ⟨hclear, k, hcut, hkept⟩
        · rintro ⟨-, j, hj, hkept⟩
          rw [hcut.unique hj]
          exact hkept
      · rw [isReservedDeviceName_inside hinside hfront]
        constructor
        · intro h
          cases h
        · rintro ⟨-, k, hcut, hkept⟩
          rw [hzero k hcut, List.take_zero, isReservedDeviceName_nil] at hkept
          cases hkept
    · rw [shorten, if_pos hshort, hclear]
      constructor
      · intro h
        cases h
      · rintro ⟨-, k, hcut, -⟩
        exact absurd hcut.long (Nat.not_lt.mpr hshort)

theorem isReservedDeviceName_safeFileName (name : Bytes) :
    isReservedDeviceName (safeFileName name) = true ↔ CutToDevice (cleanedName name) := by
  have hnone : ∀ out : Bytes, isNoName out = true → out.length ≤ 2 ∧ isReservedDeviceName out = false := by
    intro out hout
    simp only [isNoName, Bool.or_eq_true, decide_eq_true_eq] at hout
    rcases hout with (rfl | rfl) | rfl
    all_goals
      refine ⟨by decide, isReservedDeviceName_of_head ?_⟩
      rw [deviceHeads_eq]
      decide
  rw [safeFileName_eq]
  by_cases hclean : isNoName (cleanedName name) = true
  · rw [if_pos hclean]
    constructor
    · intro h
      rw [isReservedDeviceName_nil] at h
      cases h
    · rintro ⟨-, k, hcut, -⟩
      have hlong := hcut.long
      have hshort := (hnone _ hclean).1
      have hmax : kMaxSafeNameBytes = 255 := rfl
      omega
  · rw [if_neg hclean]
    by_cases hstored : isNoName (storedName (cleanedName name)) = true
    · rw [if_pos hstored, ← isReservedDeviceName_storedName, (hnone _ hstored).2]
      rw [isReservedDeviceName_nil]
    · rw [if_neg hstored]
      exact isReservedDeviceName_storedName (cleanedName name)

/-- Everything but the device names: what is stored is short, harmless and legal. -/
theorem safeName_of_notDevice {name : Bytes} (hsome : safeFileName name ≠ [])
    (hdevice : isReservedDeviceName (safeFileName name) = false) : SafeName (safeFileName name) := by
  have heq := safeFileName_eq name
  split at heq
  · exact absurd heq hsome
  · split at heq
    · exact absurd heq hsome
    · next hnamed =>
      have hnotNone : isNoName (storedName (cleanedName name)) = false :=
        Bool.eq_false_iff.mpr hnamed
      rw [heq] at hdevice ⊢
      have hshort : (storedName (cleanedName name)).length ≤ kMaxSafeNameBytes :=
        ((stripTrailing_prefix_self _ _).length_le).trans (length_shorten_le _)
      have hfits : (storedName (cleanedName name)).length ≤ kMaxTransferNameBytes := hshort
      have hbytes : ∀ c ∈ storedName (cleanedName name), NameByte c := by
        intro c hc
        rcases mem_storedName hc with rfl | hclean
        · exact ⟨by decide, by decide, underscore_legal⟩
        · exact nameByte_of_mem_cleanedName hclean
      refine ⟨hshort, hbytes, fun c hc => ending_stripTrailing hc, hnotNone, hdevice, ?_⟩
      simp only [isNoName, Bool.or_eq_false_iff, decide_eq_false_iff_not] at hnotNone
      rcases hnotNone with ⟨⟨hnil, hdot⟩, hdots⟩
      rw [isWireLegalFileName, if_neg (not_or.mpr ⟨hnil, Nat.not_lt.mpr hfits⟩),
        if_neg (not_or.mpr ⟨hdot, hdots⟩), List.all_eq_true]
      intro c hc
      have hbyte := hbytes c hc
      have hslash := hbyte.notSlash
      simp only [isSlash, Bool.or_eq_false_iff, decide_eq_false_iff_not] at hslash
      exact decide_eq_true ⟨hbyte.printed, hslash⟩

/-- A safe name is stored as it is. -/
theorem SafeName.stable {name : Bytes} (h : SafeName name) : safeFileName name = name := by
  have hstrip : stripTrailingDotsAndSpaces name = name := by
    refine List.rdropWhile_eq_self_iff.mpr ?_
    intro hne
    rw [h.ending _ (List.getLast?_eq_some_getLast hne)]
    decide
  have hclean : cleanedName name = name := by
    rw [cleanedName, baseName_eq_self h.bytes, scrubBytes_eq_self h.bytes, hstrip]
  have hstored : storedName name = name := by
    rw [storedName, guardedName, if_neg (by rw [h.notDevice]; decide), shorten, if_pos h.short,
      hstrip]
  rw [safeFileName_eq, hclean, hstored, h.named]
  rfl

/-- The stored name is safe and stable exactly as long as the cut makes no device of it. -/
theorem safeFileName_safe_iff (name : Bytes) :
    ((safeFileName name = [] ∨ SafeName (safeFileName name)) ∧
        safeFileName (safeFileName name) = safeFileName name) ↔
      ¬ CutToDevice (cleanedName name) := by
  rw [← isReservedDeviceName_safeFileName]
  constructor
  · rintro ⟨hempty | hsafe, -⟩ hdevice
    · rw [hempty, isReservedDeviceName_nil] at hdevice
      cases hdevice
    · rw [hsafe.notDevice] at hdevice
      cases hdevice
  · intro hclear
    by_cases hempty : safeFileName name = []
    · refine ⟨.inl hempty, ?_⟩
      rw [hempty, safeFileName_eq]
      rfl
    · have hsafe := safeName_of_notDevice hempty (Bool.eq_false_iff.mpr hclear)
      exact ⟨.inr hsafe, hsafe.stable⟩

/-- A device's name in front of enough blanks is no device's, until the blanks are cut. -/
theorem safeFileName_blanks_cut :
    safeFileName (ascii "con" ++ List.replicate 252 0x20 ++ ascii "x") = ascii "con" ∧
      ¬ ((safeFileName (ascii "con" ++ List.replicate 252 0x20 ++ ascii "x") = [] ∨
          SafeName (safeFileName (ascii "con" ++ List.replicate 252 0x20 ++ ascii "x"))) ∧
        safeFileName (safeFileName (ascii "con" ++ List.replicate 252 0x20 ++ ascii "x")) =
          safeFileName (ascii "con" ++ List.replicate 252 0x20 ++ ascii "x")) := by
  have hcon : safeFileName (ascii "con" ++ List.replicate 252 0x20 ++ ascii "x") = ascii "con" := by
    decide +kernel
  have hdevice : isReservedDeviceName (ascii "con") = true := by decide +kernel
  refine ⟨hcon, ?_⟩
  rw [hcon]
  rintro ⟨hempty | hsafe, -⟩
  · rw [hempty, isReservedDeviceName_nil] at hdevice
    cases hdevice
  · rw [hsafe.notDevice] at hdevice
    cases hdevice

end Deskhub
