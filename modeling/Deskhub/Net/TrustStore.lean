import Deskhub.Auth.FailureLimiter
import Deskhub.Lib.MinElement
import Deskhub.Net.Base64
import Deskhub.Net.RecordText
import Mathlib.Data.List.Nodup

/-!
# The trust store

`TrustStore`: the hosts the user trusts, known by the fingerprint of their key, and the text
of the file they are kept in with its two readers.
-/

namespace Deskhub

def kMaxTrustStoreFileBytes : Nat := 131072
def kMaxTrustLineBytes : Nat := 512
def kFingerprintTextBytes : Nat := 43
def kFingerprintPrefix : Bytes := ascii "SHA256:"
def kMaxTrustedHosts : Nat := 256
def kMaxTrustLabelBytes : Nat := 64
def kMaxTrustEndpointBytes : Nat := 64

namespace TrustStore

def sanitizeLabel (label : Bytes) : Bytes := sanitizeText label kMaxTrustLabelBytes

def sanitizeEndpoint (endpoint : Bytes) : Bytes :=
  let trimmed := trim endpoint
  if kMaxTrustEndpointBytes < trimmed.length then []
  else if trimmed.any fun c => c ≤ 0x20 ∨ c = 0x7F then []
  else trimmed

def isZero (fp : Fingerprint) : Bool := fp.val.all fun b => b = 0

def formatFingerprint (fp : Fingerprint) : Bytes :=
  kFingerprintPrefix ++ encodeBase64 fp.val .standard .none

def parseFingerprint (text : Bytes) : Option Fingerprint :=
  let trimmed := trim text
  if trimmed.length < kFingerprintPrefix.length then none
  else if trimmed.take kFingerprintPrefix.length ≠ kFingerprintPrefix then none
  else
    let body := trimmed.drop kFingerprintPrefix.length
    if body.length ≠ kFingerprintTextBytes then none
    else
      match decodeBase64 body .standard with
      | none => none
      | some bytes => if h : bytes.length = 32 then some ⟨bytes, h⟩ else none

end TrustStore

open TrustStore

structure TrustedHost where
  fingerprint : Fingerprint := default
  label : Bytes := []
  endpoint : Bytes := []
  firstSeenUnix : UnixTime := 0
  lastSeenUnix : UnixTime := 0
deriving DecidableEq

structure TrustStore where
  hosts : List TrustedHost := []
deriving DecidableEq

inductive TrustVerdict where
  | unknown | trusted
deriving DecidableEq

/-- The host as `Insert` stores it. -/
def TrustedHost.stored (host : TrustedHost) : TrustedHost :=
  { host with label := sanitizeLabel host.label, endpoint := sanitizeEndpoint host.endpoint }

/-- The host seen at a time, at an endpoint if a clean one is given. -/
def TrustedHost.seen (endpoint : Bytes) (nowUnix : UnixTime) (host : TrustedHost) : TrustedHost :=
  let cleanEndpoint := sanitizeEndpoint endpoint
  let endpoint := if cleanEndpoint ≠ [] then cleanEndpoint else host.endpoint
  { host with endpoint := endpoint, lastSeenUnix := nowUnix }

/-- The host under a label, if a clean one is given. -/
def TrustedHost.labelled (label : Bytes) (host : TrustedHost) : TrustedHost :=
  let cleanLabel := sanitizeLabel label
  if cleanLabel ≠ [] then { host with label := cleanLabel } else host

namespace TrustStore

def find (s : TrustStore) (fp : Fingerprint) : Option TrustedHost :=
  if isZero fp then none else s.hosts.find? fun host => host.fingerprint = fp

def check (s : TrustStore) (fp : Fingerprint) : TrustVerdict :=
  if isZero fp then .unknown else if (s.find fp).isSome then .trusted else .unknown

/-- The loop over the hosts that changes the one with the fingerprint. -/
def changeIn (fp : Fingerprint) (change : TrustedHost → TrustedHost) :
    List TrustedHost → Option (List TrustedHost)
  | [] => none
  | host :: rest =>
    if host.fingerprint = fp then some (change host :: rest)
    else (changeIn fp change rest).map (host :: ·)

def forget (s : TrustStore) (fp : Fingerprint) : TrustStore × Bool :=
  let kept := s.hosts.filter fun host => host.fingerprint ≠ fp
  if kept.length = s.hosts.length then (s, false) else ({ s with hosts := kept }, true)

def oldest (hosts : List TrustedHost) : Nat :=
  minElement (fun a b => a.lastSeenUnix < b.lastSeenUnix) hosts

def insert (s : TrustStore) (host : TrustedHost) : TrustStore :=
  if isZero host.fingerprint then s
  else
    let hosts := (s.forget host.fingerprint).1.hosts
    let hosts := if kMaxTrustedHosts ≤ hosts.length then hosts.eraseIdx (oldest hosts) else hosts
    { s with hosts := hosts ++ [host.stored] }

def remember (s : TrustStore) (fp : Fingerprint) (label endpoint : Bytes) (nowUnix : UnixTime) :
    TrustStore :=
  if isZero fp then s
  else
    match changeIn fp (fun host => (host.labelled label).seen endpoint nowUnix) s.hosts with
    | some hosts => { s with hosts := hosts }
    | none =>
      s.insert
        { fingerprint := fp, label := sanitizeLabel label, endpoint := sanitizeEndpoint endpoint,
          firstSeenUnix := nowUnix, lastSeenUnix := nowUnix }

def touch (s : TrustStore) (fp : Fingerprint) (endpoint : Bytes) (nowUnix : UnixTime) :
    TrustStore × Bool :=
  match changeIn fp (fun host => host.seen endpoint nowUnix) s.hosts with
  | some hosts => ({ s with hosts := hosts }, true)
  | none => (s, false)

def setLabel (s : TrustStore) (fp : Fingerprint) (label : Bytes) : TrustStore × Bool :=
  if label ≠ sanitizeLabel label then (s, false)
  else
    match changeIn fp (fun host => { host with label := label }) s.hosts with
    | some hosts => ({ s with hosts := hosts }, true)
    | none => (s, false)

def clear (_ : TrustStore) : TrustStore := {}

end TrustStore

/-! ## The file -/

/-- The host a line stands for, once the line is trimmed. -/
def parseTrustLine (line : Bytes) : Option TrustedHost :=
  if line = [] ∨ line.head? = some 35 then none
  else do
    -- what older versions wrote behind a tab is not read
    let base := match cutAt 9 line with
      | none => line
      | some (front, _) => front
    let (fingerprintText, base) ← cutAt 32 base
    let (firstText, base) ← cutAt 32 base
    let (lastText, base) ← cutAt 32 base
    let fp ← parseFingerprint fingerprintText
    let firstSeen ← parseUnixTime firstText
    let lastSeen ← parseUnixTime lastText
    let (endpointText, label) := match cutAt 32 base with
      | none => (base, [])
      | some (endpointText, labelText) => (endpointText, sanitizeLabel labelText)
    let endpoint := sanitizeEndpoint endpointText
    if endpoint = [] then none
    else some { fingerprint := fp, label, endpoint, firstSeenUnix := firstSeen, lastSeenUnix := lastSeen }

/-- One turn of the loop of `ParseTrustStore`. -/
def readTrustLine (store : TrustStore) (line : Bytes) : TrustStore :=
  match parseTrustLine (trim line) with
  | none => store
  | some host => store.insert host

def parseTrustStore (text : Bytes) : TrustStore := (splitLines text).foldl readTrustLine {}

/-- One turn of the loop of `ParseTrustStoreStrict`. -/
def readTrustLineStrict (store : TrustStore) (line : Bytes) : Option TrustStore :=
  let line := trim line
  if line = [] ∨ line.head? = some 35 then some store
  else if kMaxTrustLineBytes < line.length ∨ kMaxTrustedHosts ≤ store.hosts.length then none
  else if line.any fun c => c < 32 ∧ c ≠ 9 then none
  else
    match (parseTrustStore line).hosts with
    | [host] => if (store.find host.fingerprint).isSome then none else some (store.insert host)
    | _ => none

def parseTrustStoreStrict (text : Bytes) : Option TrustStore :=
  if kMaxTrustStoreFileBytes < text.length then none
  else (splitLines text).foldlM readTrustLineStrict {}

/-- The line of a host, without the line feed. -/
def trustLine (host : TrustedHost) : Bytes :=
  formatFingerprint host.fingerprint ++ [32] ++ timeText host.firstSeenUnix ++ [32] ++
    timeText host.lastSeenUnix ++ [32] ++ host.endpoint ++
    if host.label ≠ [] then [32] ++ host.label else []

def serializeTrustStore (store : TrustStore) : Bytes :=
  ((store.hosts.filter fun host => !(host.endpoint = [] ∨ isZero host.fingerprint)).map
    fun host => trustLine host ++ [10]).flatten

end Deskhub

/-!
## The trust store and its file

What the calls of `TrustStore` keep, and what the two readers of its file give back: the
strict one the store that was written, the other one whatever the strict one accepts.
-/

namespace Deskhub

namespace TrustStore

/-! ## Clean hosts -/

/-- An endpoint that is stored as it is. -/
theorem sanitizeEndpoint_spec (endpoint : Bytes) :
    Trimmed (sanitizeEndpoint endpoint) ∧
      (sanitizeEndpoint endpoint).length ≤ kMaxTrustEndpointBytes ∧
      ∀ c ∈ sanitizeEndpoint endpoint, 0x20 < c ∧ c ≠ 0x7F := by
  have hnone : Trimmed [] ∧ ([] : Bytes).length ≤ kMaxTrustEndpointBytes ∧
      ∀ c ∈ ([] : Bytes), 0x20 < c ∧ c ≠ 0x7F := by
    refine ⟨⟨?_, ?_⟩, Nat.zero_le _, ?_⟩
    · intro c hc
      cases hc
    · intro c hc
      cases hc
    · intro c hc
      cases hc
  unfold sanitizeEndpoint
  dsimp only
  by_cases hlong : kMaxTrustEndpointBytes < (trim endpoint).length
  · rw [if_pos hlong]
    exact hnone
  · rw [if_neg hlong]
    by_cases hbad : (trim endpoint).any (fun c => c ≤ 0x20 ∨ c = 0x7F) = true
    · rw [if_pos hbad]
      exact hnone
    · rw [if_neg hbad]
      refine ⟨trimmed_trim endpoint, Nat.le_of_not_lt hlong, ?_⟩
      intro c hc
      constructor
      · by_contra hlow
        exact hbad (List.any_eq_true.mpr ⟨c, hc, decide_eq_true (.inl (UInt8.not_lt.mp hlow))⟩)
      · intro hdel
        exact hbad (List.any_eq_true.mpr ⟨c, hc, decide_eq_true (.inr hdel)⟩)

theorem sanitizeEndpoint_of_clean {endpoint : Bytes} (htrimmed : Trimmed endpoint)
    (hlength : endpoint.length ≤ kMaxTrustEndpointBytes)
    (hbytes : ∀ c ∈ endpoint, 0x20 < c ∧ c ≠ 0x7F) : sanitizeEndpoint endpoint = endpoint := by
  unfold sanitizeEndpoint
  dsimp only
  rw [trim_of_trimmed htrimmed, if_neg (Nat.not_lt.mpr hlength), if_neg]
  intro hbad
  rcases List.any_eq_true.mp hbad with ⟨c, hc, hlow⟩
  rcases of_decide_eq_true hlow with hlow | hdel
  · exact absurd (hbytes c hc).1 (UInt8.not_lt.mpr hlow)
  · exact (hbytes c hc).2 hdel

theorem sanitizeEndpoint_sanitizeEndpoint (endpoint : Bytes) :
    sanitizeEndpoint (sanitizeEndpoint endpoint) = sanitizeEndpoint endpoint := by
  rcases sanitizeEndpoint_spec endpoint with ⟨htrimmed, hlength, hbytes⟩
  exact sanitizeEndpoint_of_clean htrimmed hlength hbytes

theorem sanitizeLabel_sanitizeLabel (label : Bytes) :
    sanitizeLabel (sanitizeLabel label) = sanitizeLabel label :=
  sanitizeText_sanitizeText label (by decide)

theorem stored_stored (host : TrustedHost) : host.stored.stored = host.stored := by
  unfold TrustedHost.stored
  dsimp only
  rw [sanitizeLabel_sanitizeLabel, sanitizeEndpoint_sanitizeEndpoint]

/-- A host that its line gives back: clean, at an endpoint, with times that can be read. -/
structure Clean (host : TrustedHost) : Prop where
  label : sanitizeLabel host.label = host.label
  endpoint : sanitizeEndpoint host.endpoint = host.endpoint
  somewhere : host.endpoint ≠ []
  firstSeen : 0 ≤ host.firstSeenUnix.toInt
  lastSeen : 0 ≤ host.lastSeenUnix.toInt

theorem Clean.stored_eq {host : TrustedHost} (h : Clean host) : host.stored = host := by
  unfold TrustedHost.stored
  rw [h.label, h.endpoint]

/-! ## What a call changes -/

/-- The fingerprints are those of before, and every host is one of before or what the change
makes of one. -/
theorem changeIn_spec {fp : Fingerprint} {change : TrustedHost → TrustedHost}
    (hfp : ∀ host, (change host).fingerprint = host.fingerprint) {hosts hosts' : List TrustedHost}
    (h : changeIn fp change hosts = some hosts') :
    hosts'.map (·.fingerprint) = hosts.map (·.fingerprint) ∧
      ∀ host ∈ hosts', host ∈ hosts ∨ ∃ old ∈ hosts, host = change old := by
  induction hosts generalizing hosts' with
  | nil => cases h
  | cons first rest ih =>
    rw [changeIn] at h
    by_cases hfirst : first.fingerprint = fp
    · rw [if_pos hfirst, Option.some.injEq] at h
      subst h
      constructor
      · rw [List.map_cons, List.map_cons, hfp]
      · intro host hhost
        rcases List.mem_cons.mp hhost with rfl | hrest
        · exact .inr ⟨first, List.mem_cons_self, rfl⟩
        · exact .inl (List.mem_cons_of_mem first hrest)
    · rw [if_neg hfirst] at h
      rcases Option.map_eq_some_iff.mp h with ⟨rest', hrest, rfl⟩
      rcases ih hrest with ⟨hmap, hmem⟩
      constructor
      · rw [List.map_cons, List.map_cons, hmap]
      · intro host hhost
        rcases List.mem_cons.mp hhost with rfl | hin
        · exact .inl List.mem_cons_self
        · rcases hmem host hin with hold | ⟨old, hold, hchange⟩
          · exact .inl (List.mem_cons_of_mem first hold)
          · exact .inr ⟨old, List.mem_cons_of_mem first hold, hchange⟩

theorem forget_hosts (s : TrustStore) (fp : Fingerprint) :
    (s.forget fp).1.hosts = s.hosts.filter fun host => host.fingerprint ≠ fp := by
  unfold forget
  dsimp only
  split
  · next hsame =>
    symm
    exact List.filter_eq_self.mpr (List.length_filter_eq_length_iff.mp hsame)
  · rfl

/-- The hosts `Insert` leaves where they are. -/
def keptHosts (s : TrustStore) (fp : Fingerprint) : List TrustedHost :=
  let hosts := s.hosts.filter fun host => host.fingerprint ≠ fp
  if kMaxTrustedHosts ≤ hosts.length then hosts.eraseIdx (oldest hosts) else hosts

theorem insert_hosts {s : TrustStore} {host : TrustedHost} (h : isZero host.fingerprint = false) :
    (s.insert host).hosts = s.keptHosts host.fingerprint ++ [host.stored] := by
  unfold TrustStore.insert keptHosts
  rw [h, forget_hosts]
  rfl

theorem keptHosts_sublist (s : TrustStore) (fp : Fingerprint) :
    (s.keptHosts fp).Sublist (s.hosts.filter fun host => host.fingerprint ≠ fp) := by
  unfold keptHosts
  dsimp only
  split
  · exact List.eraseIdx_sublist _ _
  · exact List.Sublist.refl _

/-- `Insert` stores what it would store of the host anyway. -/
theorem insert_stored (s : TrustStore) (host : TrustedHost) : s.insert host.stored = s.insert host := by
  unfold TrustStore.insert
  rw [stored_stored]
  rfl

/-! ## Every store -/

/-- A few hosts, each known by a key of its own. -/
structure Sound (s : TrustStore) : Prop where
  few : s.hosts.length ≤ kMaxTrustedHosts
  distinct : (s.hosts.map (·.fingerprint)).Nodup
  nonzero : ∀ host ∈ s.hosts, isZero host.fingerprint = false

theorem sound_empty : Sound {} := by
  refine ⟨Nat.zero_le _, List.nodup_nil, ?_⟩
  intro host hhost
  exact absurd hhost List.not_mem_nil

theorem Sound.of_sublist {s : TrustStore} (h : s.Sound) (s' : TrustStore) (hsub : s'.hosts.Sublist s.hosts) :
    s'.Sound where
  few := Nat.le_trans hsub.length_le h.few
  distinct := (hsub.map _).nodup h.distinct
  nonzero host hhost := h.nonzero host (hsub.subset hhost)

theorem Sound.of_map {s s' : TrustStore} (h : s.Sound)
    (hmap : s'.hosts.map (·.fingerprint) = s.hosts.map (·.fingerprint)) : s'.Sound := by
  have hlength := congrArg List.length hmap
  rw [List.length_map, List.length_map] at hlength
  refine ⟨?_, ?_, ?_⟩
  · rw [hlength]
    exact h.few
  · rw [hmap]
    exact h.distinct
  · intro host hhost
    have hfp : host.fingerprint ∈ s.hosts.map (·.fingerprint) := by
      rw [← hmap]
      exact List.mem_map_of_mem hhost
    rcases List.mem_map.mp hfp with ⟨old, hold, heq⟩
    rw [← heq]
    exact h.nonzero old hold

theorem Sound.forget {s : TrustStore} (h : s.Sound) (fp : Fingerprint) : (s.forget fp).1.Sound := by
  apply h.of_sublist
  rw [forget_hosts]
  exact List.filter_sublist

theorem Sound.insert {s : TrustStore} (h : s.Sound) (host : TrustedHost) : (s.insert host).Sound := by
  cases hzero : isZero host.fingerprint with
  | true =>
    have hsame : s.insert host = s := by
      unfold TrustStore.insert
      rw [hzero]
      rfl
    rw [hsame]
    exact h
  | false =>
    have hhosts := insert_hosts (s := s) hzero
    have hsub := keptHosts_sublist s host.fingerprint
    have hkept := h.of_sublist ⟨s.keptHosts host.fingerprint⟩
      (hsub.trans List.filter_sublist)
    refine ⟨?_, ?_, ?_⟩
    · -- either there was room, or one host was dropped
      have hroom : (s.keptHosts host.fingerprint).length < kMaxTrustedHosts := by
        have hle := (List.filter_sublist (l := s.hosts)
          (p := fun h => h.fingerprint ≠ host.fingerprint)).length_le
        have hfew := h.few
        unfold keptHosts
        dsimp only
        split
        · next hfull =>
          have hne : (s.hosts.filter fun h => h.fingerprint ≠ host.fingerprint) ≠ [] := by
            intro hnil
            rw [hnil] at hfull
            exact absurd hfull (by decide)
          have hplace : oldest (s.hosts.filter fun h => h.fingerprint ≠ host.fingerprint) < _ :=
            minElement_lt hne
          rw [List.length_eraseIdx_of_lt hplace]
          have hpos := List.length_pos_iff.mpr hne
          omega
        · omega
      rw [hhosts, List.length_append, List.length_singleton]
      exact hroom
    · rw [hhosts, List.map_append, List.nodup_append]
      refine ⟨hkept.distinct, List.nodup_singleton _, ?_⟩
      intro fp hfp fp' hfp' heq
      rcases List.mem_map.mp hfp with ⟨old, hold, rfl⟩
      have hother := of_decide_eq_true (List.mem_filter.mp (hsub.subset hold)).2
      rw [List.mem_singleton.mp hfp'] at heq
      exact hother heq
    · intro other hother
      rw [hhosts] at hother
      rcases List.mem_append.mp hother with hold | hnew
      · exact hkept.nonzero other hold
      · rw [List.mem_singleton.mp hnew]
        exact hzero

/-! ## Runs -/

inductive Call where
  | remember (fp : Fingerprint) (label endpoint : Bytes) (nowUnix : UnixTime)
  | touch (fp : Fingerprint) (endpoint : Bytes) (nowUnix : UnixTime)
  | insert (host : TrustedHost)
  | setLabel (fp : Fingerprint) (label : Bytes)
  | forget (fp : Fingerprint)
  | clear

def apply (s : TrustStore) : Call → TrustStore
  | .remember fp label endpoint nowUnix => s.remember fp label endpoint nowUnix
  | .touch fp endpoint nowUnix => (s.touch fp endpoint nowUnix).1
  | .insert host => s.insert host
  | .setLabel fp label => (s.setLabel fp label).1
  | .forget fp => (s.forget fp).1
  | .clear => s.clear

/-- The store that calls make of an empty one. -/
def after (calls : List Call) : TrustStore := calls.foldl apply {}

/-- Times are not negative, and endpoints are clean enough to leave something. -/
def Call.Ok : Call → Prop
  | .remember _ _ endpoint nowUnix => sanitizeEndpoint endpoint ≠ [] ∧ 0 ≤ nowUnix.toInt
  | .touch _ endpoint nowUnix => sanitizeEndpoint endpoint ≠ [] ∧ 0 ≤ nowUnix.toInt
  | .insert host =>
    sanitizeEndpoint host.endpoint ≠ [] ∧ 0 ≤ host.firstSeenUnix.toInt ∧ 0 ≤ host.lastSeenUnix.toInt
  | .setLabel _ _ => True
  | .forget _ => True
  | .clear => True

instance (c : Call) : Decidable c.Ok := by
  cases c <;> unfold Call.Ok <;> infer_instance

theorem Sound.changeIn {s : TrustStore} (h : s.Sound) {fp : Fingerprint}
    {change : TrustedHost → TrustedHost} (hfp : ∀ host, (change host).fingerprint = host.fingerprint)
    {hosts : List TrustedHost} (hchange : changeIn fp change s.hosts = some hosts) :
    Sound { s with hosts := hosts } :=
  h.of_map (changeIn_spec hfp hchange).1

theorem seen_fingerprint (endpoint : Bytes) (nowUnix : UnixTime) (host : TrustedHost) :
    (host.seen endpoint nowUnix).fingerprint = host.fingerprint := rfl

theorem labelled_fingerprint (label : Bytes) (host : TrustedHost) :
    (host.labelled label).fingerprint = host.fingerprint := by
  unfold TrustedHost.labelled
  dsimp only
  split
  · rfl
  · rfl

/-- No call, with whatever arguments, leaves too many hosts, two of one key, or one without. -/
theorem Sound.apply {s : TrustStore} (h : s.Sound) (c : Call) : (s.apply c).Sound := by
  cases c with
  | remember fp label endpoint nowUnix =>
    show (s.remember fp label endpoint nowUnix).Sound
    unfold remember
    split
    · exact h
    · split
      · next hosts hchange =>
        apply h.changeIn _ hchange
        intro host
        rw [seen_fingerprint, labelled_fingerprint]
      · exact h.insert _
  | touch fp endpoint nowUnix =>
    show (s.touch fp endpoint nowUnix).1.Sound
    unfold touch
    split
    · next hosts hchange => exact h.changeIn (seen_fingerprint endpoint nowUnix) hchange
    · exact h
  | insert host => exact h.insert host
  | setLabel fp label =>
    show (s.setLabel fp label).1.Sound
    unfold setLabel
    split
    · exact h
    · split
      · next hosts hchange =>
        apply h.changeIn _ hchange
        intro host
        rfl
      · exact h
  | forget fp => exact h.forget fp
  | clear => exact sound_empty

theorem sound_after (calls : List Call) : (after calls).Sound := by
  unfold after
  induction calls using List.reverseRecOn with
  | nil => exact sound_empty
  | append_singleton calls c ih =>
    rw [List.foldl_concat]
    exact ih.apply c

/-! ## Runs with clean hosts -/

theorem Clean.seen {host : TrustedHost} (h : Clean host) {endpoint : Bytes} {nowUnix : UnixTime}
    (hendpoint : sanitizeEndpoint endpoint ≠ []) (hnow : 0 ≤ nowUnix.toInt) :
    Clean (host.seen endpoint nowUnix) := by
  have hseen : host.seen endpoint nowUnix =
      { host with endpoint := sanitizeEndpoint endpoint, lastSeenUnix := nowUnix } := by
    unfold TrustedHost.seen
    dsimp only
    rw [if_pos hendpoint]
  rw [hseen]
  exact ⟨h.label, sanitizeEndpoint_sanitizeEndpoint endpoint, hendpoint, h.firstSeen, hnow⟩

theorem Clean.labelled {host : TrustedHost} (h : Clean host) (label : Bytes) :
    Clean (host.labelled label) := by
  unfold TrustedHost.labelled
  dsimp only
  split
  · exact { h with label := sanitizeLabel_sanitizeLabel label }
  · exact h

theorem clean_stored {host : TrustedHost} (hendpoint : sanitizeEndpoint host.endpoint ≠ [])
    (hfirst : 0 ≤ host.firstSeenUnix.toInt) (hlast : 0 ≤ host.lastSeenUnix.toInt) :
    Clean host.stored :=
  ⟨sanitizeLabel_sanitizeLabel _, sanitizeEndpoint_sanitizeEndpoint _, hendpoint, hfirst, hlast⟩

/-- Every host of the store can be read back. -/
def AllClean (s : TrustStore) : Prop := ∀ host ∈ s.hosts, Clean host

theorem AllClean.changeIn {s : TrustStore} (h : s.AllClean) {fp : Fingerprint}
    {change : TrustedHost → TrustedHost} (hfp : ∀ host, (change host).fingerprint = host.fingerprint)
    (hclean : ∀ host, Clean host → Clean (change host)) {hosts : List TrustedHost}
    (hchange : changeIn fp change s.hosts = some hosts) : AllClean { s with hosts := hosts } := by
  intro host hhost
  rcases (changeIn_spec hfp hchange).2 host hhost with hold | ⟨old, hold, rfl⟩
  · exact h host hold
  · exact hclean old (h old hold)

theorem AllClean.insert {s : TrustStore} (h : s.AllClean) {host : TrustedHost}
    (hclean : Clean host.stored) : (s.insert host).AllClean := by
  cases hzero : isZero host.fingerprint with
  | true =>
    unfold TrustStore.insert
    rw [hzero]
    exact h
  | false =>
    intro other hother
    rw [insert_hosts hzero] at hother
    rcases List.mem_append.mp hother with hold | hnew
    · exact h other (List.filter_sublist.subset ((keptHosts_sublist s _).subset hold))
    · rw [List.mem_singleton.mp hnew]
      exact hclean

theorem AllClean.apply {s : TrustStore} (h : s.AllClean) {c : Call} (hok : c.Ok) :
    (s.apply c).AllClean := by
  cases c with
  | remember fp label endpoint nowUnix =>
    rcases hok with ⟨hendpoint, hnow⟩
    show (s.remember fp label endpoint nowUnix).AllClean
    unfold remember
    split
    · exact h
    · split
      · next hosts hchange =>
        refine h.changeIn ?_ ?_ hchange
        · intro host
          rw [seen_fingerprint, labelled_fingerprint]
        · intro host hhost
          exact (hhost.labelled label).seen hendpoint hnow
      · apply h.insert
        have hstored : sanitizeEndpoint (sanitizeEndpoint endpoint) ≠ [] := by
          rw [sanitizeEndpoint_sanitizeEndpoint]
          exact hendpoint
        exact @clean_stored ⟨fp, sanitizeLabel label, sanitizeEndpoint endpoint, nowUnix, nowUnix⟩
          hstored hnow hnow
  | touch fp endpoint nowUnix =>
    rcases hok with ⟨hendpoint, hnow⟩
    show (s.touch fp endpoint nowUnix).1.AllClean
    unfold touch
    split
    · next hosts hchange =>
      exact h.changeIn (seen_fingerprint endpoint nowUnix)
        (fun host hhost => hhost.seen hendpoint hnow) hchange
    · exact h
  | insert host =>
    rcases hok with ⟨hendpoint, hfirst, hlast⟩
    exact h.insert (clean_stored hendpoint hfirst hlast)
  | setLabel fp label =>
    show (s.setLabel fp label).1.AllClean
    unfold setLabel
    split
    · exact h
    · next hsame =>
      -- the label is one that is stored as it is
      have hlabel := Decidable.not_not.mp hsame
      split
      · next hosts hchange =>
        refine h.changeIn ?_ ?_ hchange
        · intro host
          rfl
        · intro host hhost
          exact { hhost with label := hlabel.symm }
      · exact h
  | forget fp =>
    intro host hhost
    have hmem : host ∈ (s.forget fp).1.hosts := hhost
    rw [forget_hosts] at hmem
    exact h host (List.mem_of_mem_filter hmem)
  | clear =>
    intro host hhost
    exact absurd hhost List.not_mem_nil

theorem allClean_after {calls : List Call} (hok : ∀ c ∈ calls, c.Ok) : (after calls).AllClean := by
  unfold after
  induction calls using List.reverseRecOn with
  | nil =>
    intro host hhost
    exact absurd hhost List.not_mem_nil
  | append_singleton calls c ih =>
    rw [List.foldl_concat]
    apply AllClean.apply
    · exact ih fun c' hc' => hok c' (List.mem_append_left _ hc')
    · exact hok c (List.mem_append_right _ (List.mem_singleton_self c))

/-! ## Fingerprints -/

/-- A fingerprint reads back, and is written without blanks. -/
theorem parseFingerprint_formatFingerprint (fp : Fingerprint) :
    parseFingerprint (formatFingerprint fp) = some fp ∧ (formatFingerprint fp).length = 50 ∧
      (∀ c ∈ formatFingerprint fp, 32 < c.toNat) ∧ (formatFingerprint fp).head? = some 83 := by
  rcases Base64.encodeBase64_none fp.val .standard with ⟨hvisible, hmin, hmax⟩
  have hbytes : fp.val.length = 32 := fp.property
  have hne : fp.val ≠ [] := by
    rw [← List.length_pos_iff, hbytes]
    decide
  have hdecode := decodeBase64_encodeBase64 hne .standard .none
  have hbody : (encodeBase64 fp.val .standard .none).length = kFingerprintTextBytes := by
    unfold kFingerprintTextBytes
    omega
  have hfront : kFingerprintPrefix.length = 7 := by decide
  have hchars : ∀ c ∈ formatFingerprint fp, 32 < c.toNat := by
    intro c hc
    rcases List.mem_append.mp hc with hhash | hsymbol
    · have hall : ∀ d ∈ kFingerprintPrefix, 32 < d.toNat := forall_of_all (by decide)
      exact hall c hhash
    · exact hvisible c hsymbol
  have hlength : (formatFingerprint fp).length = 50 := by
    unfold formatFingerprint
    rw [List.length_append, hfront, hbody]
    rfl
  have htrim : trim (formatFingerprint fp) = formatFingerprint fp :=
    trim_of_trimmed (trimmed_of_visible hchars)
  refine ⟨?_, hlength, hchars, rfl⟩
  unfold parseFingerprint
  rw [htrim]
  dsimp only
  rw [if_neg (by omega)]
  unfold formatFingerprint
  rw [List.take_left, List.drop_left, if_neg (by simp), if_neg (by rw [hbody]; simp), hdecode]
  dsimp only
  rw [dif_pos hbytes]

/-! ## The line of a host -/

theorem Clean.endpoint_visible {host : TrustedHost} (h : Clean host) :
    host.endpoint.length ≤ kMaxTrustEndpointBytes ∧ ∀ c ∈ host.endpoint, 32 < c.toNat := by
  rcases sanitizeEndpoint_spec host.endpoint with ⟨-, hlength, hbytes⟩
  rw [h.endpoint] at hlength hbytes
  constructor
  · exact hlength
  · intro c hc
    exact UInt8.lt_iff_toNat_lt.mp (hbytes c hc).1

theorem Clean.label_clean {host : TrustedHost} (h : Clean host) :
    host.label.length ≤ kMaxTrustLabelBytes ∧ Trimmed host.label ∧
      ∀ c ∈ host.label, 32 ≤ c.toNat := by
  rcases sanitizeText_spec host.label kMaxTrustLabelBytes (by decide) with
    ⟨hclean, htrimmed, hlength⟩
  have hlabel : sanitizeText host.label kMaxTrustLabelBytes = host.label := h.label
  rw [hlabel] at hclean htrimmed hlength
  refine ⟨hlength, htrimmed, ?_⟩
  intro c hc
  exact UInt8.le_iff_toNat_le.mp (hclean c hc).1

/-- The endpoint and the label at the end of a line. -/
def placeText (host : TrustedHost) : Bytes :=
  host.endpoint ++ if host.label ≠ [] then [32] ++ host.label else []

theorem trustLine_eq (host : TrustedHost) :
    trustLine host = formatFingerprint host.fingerprint ++ 32 :: (timeText host.firstSeenUnix ++
      32 :: (timeText host.lastSeenUnix ++ 32 :: placeText host)) := by
  unfold trustLine placeText
  simp only [List.append_assoc, List.cons_append, List.nil_append]

/-- A line has no control characters, fits, and has nothing to trim. -/
theorem Clean.trustLine_text {host : TrustedHost} (h : Clean host) :
    (∀ c ∈ trustLine host, 32 ≤ c.toNat) ∧ (trustLine host).length ≤ 220 ∧
      Trimmed (trustLine host) ∧ (trustLine host).head? = some 83 := by
  rcases parseFingerprint_formatFingerprint host.fingerprint with ⟨-, hfpLen, hfp, hhead⟩
  rcases timeText_visible h.firstSeen with ⟨hfirstLen, hfirst⟩
  rcases timeText_visible h.lastSeen with ⟨hlastLen, hlast⟩
  rcases h.endpoint_visible with ⟨hendpointLen, hendpoint⟩
  rcases h.label_clean with ⟨hlabelLen, hlabelTrimmed, hlabel⟩
  have hmax : kMaxTrustEndpointBytes = 64 ∧ kMaxTrustLabelBytes = 64 := ⟨rfl, rfl⟩
  have hplaceLen : (placeText host).length ≤ 129 := by
    unfold placeText
    rw [List.length_append]
    split
    · rw [List.length_append, List.length_singleton]
      omega
    · rw [List.length_nil]
      omega
  have hplace : ∀ c ∈ placeText host, 32 ≤ c.toNat := by
    intro c hc
    rcases List.mem_append.mp hc with hfront | hback
    · exact Nat.le_of_lt (hendpoint c hfront)
    · split at hback
      · rcases List.mem_append.mp hback with hspace | hin
        · rw [List.mem_singleton.mp hspace]
          decide
        · exact hlabel c hin
      · exact absurd hback List.not_mem_nil
  have hplaceLast : ∀ c, (placeText host).getLast? = some c → isBlank c = false := by
    intro c hc
    unfold placeText at hc
    by_cases hnone : host.label = []
    · rw [if_neg (not_not.mpr hnone), List.append_nil] at hc
      exact (trimmed_of_visible hendpoint).2 c hc
    · rw [if_pos hnone, ← List.append_assoc, List.getLast?_append_of_ne_nil _ hnone] at hc
      exact hlabelTrimmed.2 c hc
  have hplaceNe : placeText host ≠ [] := by
    unfold placeText
    exact List.append_ne_nil_of_left_ne_nil h.somewhere _
  have hline : (trustLine host).head? = some 83 := by
    rw [trustLine_eq, List.head?_append, hhead]
    rfl
  refine ⟨?_, ?_, ⟨?_, ?_⟩, hline⟩
  · intro c hc
    rw [trustLine_eq] at hc
    simp only [List.mem_append, List.mem_cons] at hc
    rcases hc with hc | rfl | hc | rfl | hc | rfl | hc
    · exact Nat.le_of_lt (hfp c hc)
    · decide
    · exact Nat.le_of_lt (hfirst c hc)
    · decide
    · exact Nat.le_of_lt (hlast c hc)
    · decide
    · exact hplace c hc
  · rw [trustLine_eq]
    simp only [List.length_append, List.length_cons]
    omega
  · intro c hc
    rw [hline, Option.some.injEq] at hc
    rw [← hc]
    decide
  · intro c hc
    apply hplaceLast c
    unfold trustLine at hc
    rw [List.append_assoc] at hc
    change (_ ++ placeText host).getLast? = some c at hc
    rw [List.getLast?_append_of_ne_nil _ hplaceNe] at hc
    exact hc

/-- A line reads back as the host it was written for. -/
theorem Clean.parseTrustLine {host : TrustedHost} (h : Clean host) :
    parseTrustLine (trustLine host) = some host := by
  rcases parseFingerprint_formatFingerprint host.fingerprint with ⟨hparse, -, hfp, -⟩
  have hfirst := (timeText_visible h.firstSeen).2
  have hlast := (timeText_visible h.lastSeen).2
  have hendpoint := ne_of_visible h.endpoint_visible.2
  rcases h.trustLine_text with ⟨hchars, -, -, hhead⟩
  have hsome : ¬ (trustLine host = [] ∨ (trustLine host).head? = some 35) := by
    rintro (hnil | hhash)
    · rw [hnil] at hhead
      cases hhead
    · rw [hhead] at hhash
      exact absurd hhash (by decide)
  have htab : cutAt 9 (trustLine host) = none := by
    apply cutAt_none
    intro c hc heq
    have hlow := hchars c hc
    rw [heq] at hlow
    exact absurd hlow (by decide)
  unfold Deskhub.parseTrustLine
  rw [if_neg hsome, htab]
  dsimp only
  rw [trustLine_eq, cutAt_append (ne_of_visible hfp)]
  simp only [Option.bind_eq_bind, Option.bind_some]
  rw [cutAt_append (ne_of_visible hfirst)]
  simp only [Option.bind_some]
  rw [cutAt_append (ne_of_visible hlast)]
  simp only [Option.bind_some, hparse, (parseUnixTime_timeText h.firstSeen).2,
    (parseUnixTime_timeText h.lastSeen).2]
  unfold placeText
  by_cases hnone : host.label = []
  · rw [if_neg (not_not.mpr hnone), List.append_nil, cutAt_none hendpoint]
    dsimp only
    rw [h.endpoint, if_neg h.somewhere, ← hnone]
  · rw [if_pos hnone, List.singleton_append, cutAt_append hendpoint]
    dsimp only
    rw [h.endpoint, if_neg h.somewhere, h.label]

/-! ## The two readers -/

theorem splitLines_single {line : Bytes} (hne : line ≠ []) (h : ∀ c ∈ line, c ≠ 10) :
    splitLines line = [line] := by
  induction line with
  | nil => exact absurd rfl hne
  | cons c rest ih =>
    rw [splitLines, if_neg (h c List.mem_cons_self)]
    by_cases hnil : rest = []
    · rw [hnil]
      rfl
    · rw [ih hnil fun d hd => h d (List.mem_cons_of_mem c hd)]

/-- A single line, trimmed already, is read as the one turn of the loop. -/
theorem parseTrustStore_single (line : Bytes) (hne : trim line ≠ []) (h : ∀ c ∈ trim line, c ≠ 10) :
    parseTrustStore (trim line) = readTrustLine {} line := by
  unfold parseTrustStore
  rw [splitLines_single hne h, List.foldl_cons, List.foldl_nil]
  unfold readTrustLine
  rw [trim_trim]

theorem insert_empty {host : TrustedHost} (h : isZero host.fingerprint = false) :
    (({} : TrustStore).insert host).hosts = [host.stored] := by
  rw [insert_hosts h]
  rfl

theorem find_eq_none {s : TrustStore} {host : TrustedHost} (h : isZero host.fingerprint = false) :
    s.find host.fingerprint = none ↔ ∀ other ∈ s.hosts, other.fingerprint ≠ host.fingerprint := by
  unfold find
  rw [h]
  simp

/-- A host whose key is new goes behind the others while there is room. -/
theorem insert_new {s : TrustStore} {host : TrustedHost} (h : isZero host.fingerprint = false)
    (hnew : ∀ other ∈ s.hosts, other.fingerprint ≠ host.fingerprint)
    (hroom : s.hosts.length < kMaxTrustedHosts) :
    s.insert host = { hosts := s.hosts ++ [host.stored] } := by
  have hkept : s.keptHosts host.fingerprint = s.hosts := by
    unfold keptHosts
    dsimp only
    have hall : (s.hosts.filter fun other => other.fingerprint ≠ host.fingerprint) = s.hosts := by
      apply List.filter_eq_self.mpr
      intro other hother
      exact decide_eq_true (hnew other hother)
    rw [hall, if_neg (Nat.not_le.mpr hroom)]
  have hhosts := insert_hosts (s := s) h
  rw [hkept] at hhosts
  rw [← hhosts]

/-- A line the strict reader takes does the same to the store in the other one. -/
theorem readTrustLineStrict_some {s s' : TrustStore} {line : Bytes}
    (h : readTrustLineStrict s line = some s') : readTrustLine s line = s' := by
  unfold readTrustLineStrict at h
  dsimp only at h
  by_cases hskip : trim line = [] ∨ (trim line).head? = some 35
  · rw [if_pos hskip, Option.some.injEq] at h
    unfold readTrustLine parseTrustLine
    rw [if_pos hskip]
    exact h
  · rw [if_neg hskip] at h
    by_cases hlong : kMaxTrustLineBytes < (trim line).length ∨ kMaxTrustedHosts ≤ s.hosts.length
    · rw [if_pos hlong] at h
      cases h
    · rw [if_neg hlong] at h
      by_cases hbad : (trim line).any (fun c => c < 32 ∧ c ≠ 9) = true
      · rw [if_pos hbad] at h
        cases h
      · rw [if_neg hbad] at h
        have hfeed : ∀ c ∈ trim line, c ≠ 10 := by
          intro c hc heq
          apply hbad
          rw [heq] at hc
          exact List.any_eq_true.mpr ⟨10, hc, by decide⟩
        rw [parseTrustStore_single _ (fun hnil => hskip (.inl hnil)) hfeed] at h
        unfold readTrustLine at h ⊢
        cases hparse : parseTrustLine (trim line) with
        | none =>
          rw [hparse] at h
          cases h
        | some host =>
          rw [hparse] at h
          dsimp only at h ⊢
          cases hzero : isZero host.fingerprint with
          | true =>
            -- such a host is not stored, and the strict reader refuses the line
            have hnone : (({} : TrustStore).insert host).hosts = [] := by
              unfold TrustStore.insert
              rw [hzero]
              rfl
            rw [hnone] at h
            cases h
          | false =>
            rw [insert_empty hzero] at h
            dsimp only at h
            split at h
            · cases h
            · rw [Option.some.injEq, insert_stored] at h
              exact h

theorem readTrustLinesStrict_some {lines : List Bytes} {s s' : TrustStore}
    (h : lines.foldlM readTrustLineStrict s = some s') : lines.foldl readTrustLine s = s' := by
  induction lines generalizing s with
  | nil => exact Option.some.inj h
  | cons line lines ih =>
    rw [List.foldlM_cons] at h
    rcases Option.bind_eq_some_iff.mp h with ⟨next, hline, hrest⟩
    rw [List.foldl_cons, readTrustLineStrict_some hline]
    exact ih hrest

theorem parseTrustStoreStrict_some {text : Bytes} {s : TrustStore}
    (h : parseTrustStoreStrict text = some s) : parseTrustStore text = s := by
  unfold parseTrustStoreStrict at h
  split at h
  · cases h
  · exact readTrustLinesStrict_some h

/-! ## Writing and reading -/

/-- The strict reader takes the line of a clean host that is new. -/
theorem readTrustLineStrict_trustLine {s : TrustStore} {host : TrustedHost} (hclean : Clean host)
    (hzero : isZero host.fingerprint = false)
    (hnew : ∀ other ∈ s.hosts, other.fingerprint ≠ host.fingerprint)
    (hroom : s.hosts.length < kMaxTrustedHosts) :
    readTrustLineStrict s (trustLine host) = some { hosts := s.hosts ++ [host] } := by
  rcases hclean.trustLine_text with ⟨hchars, hlength, htrimmed, hhead⟩
  have htrim := trim_of_trimmed htrimmed
  have hne : trustLine host ≠ [] := by
    intro hnil
    rw [hnil] at hhead
    cases hhead
  have hfeed : ∀ c ∈ trustLine host, c ≠ 10 := by
    intro c hc heq
    have hlow := hchars c hc
    rw [heq] at hlow
    exact absurd hlow (by decide)
  have hparsed : parseTrustStore (trustLine host) = { hosts := [host] } := by
    have hsingle := parseTrustStore_single (trustLine host) (by rwa [htrim]) (by rwa [htrim])
    rw [htrim] at hsingle
    rw [hsingle]
    unfold readTrustLine
    rw [htrim, hclean.parseTrustLine]
    dsimp only
    rw [insert_new hzero (by simp) (by decide), hclean.stored_eq]
    rfl
  unfold readTrustLineStrict
  dsimp only
  rw [htrim, if_neg, if_neg, if_neg, hparsed]
  · dsimp only
    rw [(find_eq_none hzero).mpr hnew, insert_new hzero hnew hroom, hclean.stored_eq]
    rfl
  · intro hbad
    rcases List.any_eq_true.mp hbad with ⟨c, hc, hlow⟩
    have hlt := UInt8.lt_iff_toNat_lt.mp (of_decide_eq_true hlow).1
    exact absurd (hchars c hc) (Nat.not_le.mpr hlt)
  · rintro (hlong | hfull)
    · have hmax : kMaxTrustLineBytes = 512 := rfl
      omega
    · omega
  · rintro (hnil | hhash)
    · exact hne hnil
    · rw [hhead] at hhash
      exact absurd hhash (by decide)

/-- Reading the lines of clean hosts of distinct keys adds them in their order. -/
theorem readTrustLinesStrict_lines (rest : List TrustedHost) :
    ∀ s : TrustStore, Sound { hosts := s.hosts ++ rest } → (∀ host ∈ rest, Clean host) →
      (rest.map trustLine).foldlM readTrustLineStrict s = some { hosts := s.hosts ++ rest } := by
  induction rest with
  | nil =>
    intro s _ _
    rw [List.append_nil]
    rfl
  | cons host rest ih =>
    intro s hsound hclean
    have hzero : isZero host.fingerprint = false :=
      hsound.nonzero host (List.mem_append_right _ List.mem_cons_self)
    have hfew := hsound.few
    dsimp only at hfew
    rw [List.length_append, List.length_cons] at hfew
    have hnew : ∀ other ∈ s.hosts, other.fingerprint ≠ host.fingerprint := by
      intro other hother heq
      have hdistinct := hsound.distinct
      dsimp only at hdistinct
      rw [List.map_append, List.map_cons, List.nodup_append] at hdistinct
      exact hdistinct.2.2 other.fingerprint (List.mem_map_of_mem hother) host.fingerprint
        List.mem_cons_self heq
    have hjoin : s.hosts ++ host :: rest = (s.hosts ++ [host]) ++ rest := by
      rw [List.append_assoc]
      rfl
    rw [List.map_cons, List.foldlM_cons,
      readTrustLineStrict_trustLine (hclean host List.mem_cons_self) hzero hnew (by omega)]
    rw [hjoin] at hsound ⊢
    exact ih { hosts := s.hosts ++ [host] } hsound
      fun other hother => hclean other (List.mem_cons_of_mem host hother)

/-- A sound store of clean hosts is read back as it was written. -/
theorem Sound.parse_serialize {s : TrustStore} (h : s.Sound) (hclean : s.AllClean) :
    parseTrustStoreStrict (serializeTrustStore s) = some s := by
  -- no host is left out
  have hall : (s.hosts.filter fun host => !(host.endpoint = [] ∨ isZero host.fingerprint)) = s.hosts := by
    apply List.filter_eq_self.mpr
    intro host hhost
    rw [Bool.not_eq_true', decide_eq_false_iff_not]
    rintro (hnowhere | hzero)
    · exact (hclean host hhost).somewhere hnowhere
    · rw [h.nonzero host hhost] at hzero
      exact Bool.false_ne_true hzero
  have htext : serializeTrustStore s = ((s.hosts.map trustLine).map (· ++ [10])).flatten := by
    unfold serializeTrustStore
    rw [hall, List.map_map]
    rfl
  have hlines : splitLines (serializeTrustStore s) = s.hosts.map trustLine := by
    rw [htext]
    apply splitLines_flatten
    intro line hline c hc heq
    rcases List.mem_map.mp hline with ⟨host, hhost, rfl⟩
    have hlow := (hclean host hhost).trustLine_text.1 c hc
    rw [heq] at hlow
    exact absurd hlow (by decide)
  have hlength : (serializeTrustStore s).length ≤ 221 * s.hosts.length := by
    rw [htext]
    exact length_lines_le fun host hhost => (hclean host hhost).trustLine_text.2.1
  have hfew := h.few
  have hmax : kMaxTrustedHosts = 256 ∧ kMaxTrustStoreFileBytes = 131072 := ⟨rfl, rfl⟩
  unfold parseTrustStoreStrict
  rw [if_neg (by omega), hlines]
  exact readTrustLinesStrict_lines s.hosts {} h hclean

theorem sound_parseTrustStore (text : Bytes) : (parseTrustStore text).Sound := by
  unfold parseTrustStore
  induction splitLines text using List.reverseRecOn with
  | nil => exact sound_empty
  | append_singleton lines line ih =>
    rw [List.foldl_concat]
    unfold readTrustLine
    split
    · exact ih
    · exact ih.insert _

/-- The trust store survives its file: what clean calls made is read back from what is written
of it, what the strict reader accepts the other one reads the same, and every store that calls
make or a text gives is sound. -/
theorem trustStore_survivesFile :
    (∀ calls : List Call, (∀ c ∈ calls, c.Ok) →
      parseTrustStoreStrict (serializeTrustStore (after calls)) = some (after calls)) ∧
    (∀ (text : Bytes) (s : TrustStore), parseTrustStoreStrict text = some s → parseTrustStore text = s) ∧
    (∀ calls : List Call, (after calls).Sound) ∧
    (∀ text : Bytes, (parseTrustStore text).Sound) ∧
    ∀ (text : Bytes) (s : TrustStore), parseTrustStoreStrict text = some s → s.Sound := by
  refine ⟨?_, fun _ _ => parseTrustStoreStrict_some, sound_after, sound_parseTrustStore, ?_⟩
  · intro calls hok
    exact (sound_after calls).parse_serialize (allClean_after hok)
  · intro text s hstrict
    rw [← parseTrustStoreStrict_some hstrict]
    exact sound_parseTrustStore text

/-- A host that is renamed and moves, and one that is forgotten. -/
def movedCalls : List Call :=
  let fp (n : UInt8) : Fingerprint := ⟨n :: List.replicate 31 0, rfl⟩
  [.remember (fp 1) (ascii " Work station ") (ascii "host:1 ") 100,
    .insert { fingerprint := fp 2, endpoint := ascii "other:2", firstSeenUnix := 7, lastSeenUnix := 9 },
    .remember (fp 3) [] (ascii "[fe80::1]:3") 200, .setLabel (fp 2) (ascii "# two"),
    .touch (fp 1) (ascii "host:9") 300, .forget (fp 3)]

theorem trustStore_survivesFile_moved :
    parseTrustStoreStrict (serializeTrustStore (after movedCalls)) = some (after movedCalls) ∧
      parseTrustStore (serializeTrustStore (after movedCalls)) = after movedCalls := by
  have hread := trustStore_survivesFile.1 movedCalls (by decide +kernel)
  exact ⟨hread, trustStore_survivesFile.2.1 _ _ hread⟩

end TrustStore

end Deskhub
