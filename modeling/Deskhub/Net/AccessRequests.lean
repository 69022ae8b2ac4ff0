import Deskhub.Lib.MinElement
import Deskhub.Lib.OrdMap
import Deskhub.Net.PublicKeyText
import Deskhub.Net.RecordText
import Deskhub.Lib.Machine
import Mathlib.Data.List.Nodup

/-!
# Access requests

`AccessRequests`: the devices that asked to be let in, one row for each key and for each
address, a few at a time; a row marked denied turns its key away.
-/

namespace Deskhub

def kMaxAccessRequests : Nat := 16
def kAccessRequestTtlSeconds : Int64 := 600
def kMaxAccessRequestAddressBytes : Nat := 64

structure AccessRequest where
  key : PublicKeyText := {}
  address : Bytes := []
  requestedUnix : UnixTime := 0
  denied : Bool := false
deriving DecidableEq

structure AccessRequests where
  requests : List AccessRequest := []
deriving DecidableEq

def cleanAddress (address : Bytes) : Bytes :=
  let trimmed := trim address
  if trimmed = [] ∨ kMaxAccessRequestAddressBytes < trimmed.length then []
  else if trimmed.any fun c => c ≤ 0x20 ∨ c = 0x7F then []
  else trimmed

def outlivedItsTtl (requestedUnix nowUnix : UnixTime) : Bool :=
  requestedUnix ≤ nowUnix ∧ kAccessRequestTtlSeconds ≤ nowUnix - requestedUnix

def validKey (key : PublicKeyText) : Bool := formatPublicKeyText key ≠ []

/-- `HostOf`: the address without its port. -/
def hostOf (address : Bytes) : Bytes :=
  if address.head? = some 91 then
    match address.idxOf? 93 with
    | none => address
    | some close => address.take (close + 1)
  else
    match address.idxOf? 58 with
    | none => address
    | some colon => if 58 ∈ address.drop (colon + 1) then address else address.take colon

def replaces (incoming existing : AccessRequest) : Bool :=
  if sameKey existing.key incoming.key then true
  else if existing.denied || incoming.denied then false
  else hostOf existing.address = hostOf incoming.address

namespace AccessRequests

def find (s : AccessRequests) (key : PublicKeyText) : Option AccessRequest :=
  s.requests.find? fun request => sameKey request.key key

def isDenied (s : AccessRequests) (key : PublicKeyText) : Bool :=
  match s.find key with
  | none => false
  | some found => found.denied

/-- The rows `Add` leaves where they are: those the incoming request does not replace. -/
def unreplaced (s : AccessRequests) (incoming : AccessRequest) : List AccessRequest :=
  s.requests.filter fun existing => !replaces incoming existing

def oldest (requests : List AccessRequest) : Nat :=
  minElement (fun a b => a.requestedUnix < b.requestedUnix) requests

def add (s : AccessRequests) (request : AccessRequest) (nowUnix : UnixTime) :
    AccessRequests × Bool :=
  let request := { request with address := cleanAddress request.address }
  if request.address = [] ∨ validKey request.key = false then (s, false)
  else if !request.denied && s.isDenied request.key then (s, false)
  else
    let request := { request with requestedUnix := nowUnix }
    let kept := s.unreplaced request
    let kept := if kMaxAccessRequests ≤ kept.length then kept.eraseIdx (oldest kept) else kept
    ({ s with requests := kept ++ [request] }, true)

def remove (s : AccessRequests) (key : PublicKeyText) : AccessRequests × Bool :=
  let kept := s.requests.filter fun request => !sameKey request.key key
  if kept.length = s.requests.length then (s, false) else ({ s with requests := kept }, true)

/-- The loop of `Deny` over the rows. -/
def denyIn (key : PublicKeyText) (nowUnix : UnixTime) : List AccessRequest → Option (List AccessRequest)
  | [] => none
  | request :: rest =>
    if sameKey request.key key then
      some ({ request with denied := true, requestedUnix := nowUnix } :: rest)
    else (denyIn key nowUnix rest).map (request :: ·)

def deny (s : AccessRequests) (key : PublicKeyText) (nowUnix : UnixTime) : AccessRequests × Bool :=
  match denyIn key nowUnix s.requests with
  | none => (s, false)
  | some requests => ({ s with requests := requests }, true)

def expire (s : AccessRequests) (nowUnix : UnixTime) : AccessRequests × Nat :=
  let kept := s.requests.filter fun request =>
    !(outlivedItsTtl request.requestedUnix nowUnix || nowUnix < request.requestedUnix)
  ({ s with requests := kept }, s.requests.length - kept.length)

end AccessRequests

/-!
## How long a denial holds

The runs of `AccessRequests`. A denied row stays for its ten minutes unless a request from
elsewhere finds the table full and that row the oldest of it: then the row goes, and its key
may ask again.
-/

namespace AccessRequests

/-- At most one row for each key. -/
def Distinct (s : AccessRequests) : Prop := (s.requests.map (·.key.identity)).Nodup

theorem find_key {s : AccessRequests} {key : PublicKeyText} {row : AccessRequest}
    (h : s.find key = some row) : sameKey row.key key = true :=
  @List.find?_some _ (fun request : AccessRequest => sameKey request.key key) _ _ h

/-- The row of a key, when there is one, is the one `Find` gives. -/
theorem Distinct.find {s : AccessRequests} (h : s.Distinct) {row : AccessRequest}
    (hrow : row ∈ s.requests) {key : PublicKeyText} (hkey : sameKey row.key key = true) :
    s.find key = some row := by
  cases hfind : s.find key with
  | none =>
    exact absurd hkey (List.find?_eq_none.mp hfind row hrow)
  | some found =>
    have hfound : found ∈ s.requests := List.mem_of_find?_eq_some hfind
    have hsame := sameKey_iff.mp (find_key hfind)
    rw [List.inj_on_of_nodup_map h hfound hrow (hsame.trans (sameKey_iff.mp hkey).symm)]

theorem Distinct.isDenied_iff {s : AccessRequests} (h : s.Distinct) {key : PublicKeyText} :
    s.isDenied key = true ↔
      ∃ row ∈ s.requests, sameKey row.key key = true ∧ row.denied = true := by
  constructor
  · intro hdenied
    unfold isDenied at hdenied
    cases hfind : s.find key with
    | none =>
      rw [hfind] at hdenied
      cases hdenied
    | some row =>
      rw [hfind] at hdenied
      exact ⟨row, List.mem_of_find?_eq_some hfind, find_key hfind, hdenied⟩
  · rintro ⟨row, hrow, hkey, hdenied⟩
    unfold isDenied
    rw [h.find hrow hkey]
    exact hdenied

theorem isDenied_congr (s : AccessRequests) {a b : PublicKeyText} (h : sameKey a b = true) :
    s.isDenied a = s.isDenied b := by
  have hfind : s.find a = s.find b := by
    unfold AccessRequests.find sameKey
    unfold sameKey at h
    rw [decide_eq_true_iff] at h
    rw [h.1, h.2]
  unfold isDenied
  rw [hfind]

/-! ## What each call does -/

/-- The request as it is filed. -/
def cleaned (request : AccessRequest) : AccessRequest :=
  { request with address := cleanAddress request.address }

/-- The request gets past the checks of `Add`. -/
def Files (s : AccessRequests) (request : AccessRequest) : Prop :=
  cleanAddress request.address ≠ [] ∧ validKey request.key = true ∧
    (request.denied = true ∨ s.isDenied request.key = false)

/-- The rows that stay when a request is filed. -/
def keptRows (s : AccessRequests) (request : AccessRequest) : List AccessRequest :=
  let kept := s.unreplaced (cleaned request)
  if kMaxAccessRequests ≤ kept.length then kept.eraseIdx (oldest kept) else kept

/-- The row that goes to make room for a request. -/
def crowdedOut (s : AccessRequests) (request : AccessRequest) : Option AccessRequest :=
  let kept := s.unreplaced (cleaned request)
  if kMaxAccessRequests ≤ kept.length then kept[oldest kept]? else none

theorem add_of_not_files {s : AccessRequests} {request : AccessRequest} (h : ¬ s.Files request)
    (nowUnix : UnixTime) : s.add request nowUnix = (s, false) := by
  unfold add
  dsimp only
  split
  · rfl
  · next hvalid =>
    push Not at hvalid
    rw [if_pos]
    by_contra hok
    apply h
    refine ⟨hvalid.1, by simpa using hvalid.2, ?_⟩
    cases hd : request.denied
    · right
      simpa [hd] using hok
    · exact .inl rfl

theorem add_of_files {s : AccessRequests} {request : AccessRequest} (h : s.Files request)
    (nowUnix : UnixTime) :
    s.add request nowUnix =
      ({ requests := s.keptRows request ++ [{ cleaned request with requestedUnix := nowUnix }] },
        true) := by
  rcases h with ⟨haddress, hkey, hdenied⟩
  unfold add
  dsimp only
  rw [if_neg, if_neg]
  · rfl
  · rcases hdenied with hdenied | hfresh
    · rw [hdenied, Bool.not_true, Bool.false_and]
      decide
    · rw [hfresh, Bool.and_false]
      decide
  · rw [hkey]
    push Not
    exact ⟨haddress, by decide⟩

theorem unreplaced_sublist (s : AccessRequests) (request : AccessRequest) :
    (s.unreplaced request).Sublist s.requests :=
  List.filter_sublist

theorem keptRows_sublist (s : AccessRequests) (request : AccessRequest) :
    (s.keptRows request).Sublist (s.unreplaced (cleaned request)) := by
  unfold keptRows
  dsimp only
  split
  · exact List.eraseIdx_sublist _ _
  · exact List.Sublist.refl _

theorem unreplaced_key {s : AccessRequests} {request row : AccessRequest}
    (h : row ∈ s.unreplaced request) : sameKey row.key request.key = false := by
  have hnot := (List.mem_filter.mp h).2
  rw [Bool.not_eq_true', replaces] at hnot
  by_contra hsame
  rw [if_pos (by simpa using hsame)] at hnot
  cases hnot

/-- A denied row of another key is not replaced. -/
theorem mem_unreplaced {s : AccessRequests} {request row : AccessRequest} (hrow : row ∈ s.requests)
    (hdenied : row.denied = true) (hother : sameKey row.key request.key = false) :
    row ∈ s.unreplaced request := by
  apply List.mem_filter.mpr ⟨hrow, ?_⟩
  rw [Bool.not_eq_true', replaces, if_neg (by rw [hother]; decide), hdenied]
  rfl

/-- A row stays unless it is the one crowded out. -/
theorem mem_keptRows {s : AccessRequests} {request row : AccessRequest}
    (hrow : row ∈ s.unreplaced (cleaned request)) (hroom : s.crowdedOut request ≠ some row) :
    row ∈ s.keptRows request := by
  unfold crowdedOut at hroom
  unfold keptRows
  dsimp only at hroom ⊢
  split
  · next hfull =>
    rw [if_pos hfull] at hroom
    rcases List.getElem?_of_mem hrow with ⟨i, hi⟩
    apply List.mem_eraseIdx_iff_getElem?.mpr
    refine ⟨i, ?_, hi⟩
    intro heq
    rw [← heq] at hroom
    exact hroom hi
  · exact hrow

/-- The row crowded out is gone. -/
theorem crowdedOut_gone {s : AccessRequests} (h : s.Distinct) {request row : AccessRequest}
    (hgone : s.crowdedOut request = some row) :
    ∀ other ∈ s.keptRows request, sameKey other.key row.key = false := by
  unfold crowdedOut at hgone
  unfold keptRows
  dsimp only at hgone ⊢
  split
  · next hfull =>
    rw [if_pos hfull] at hgone
    have hnodup : ((s.unreplaced (cleaned request)).map (·.key.identity)).Nodup :=
      ((s.unreplaced_sublist _).map _).nodup h
    generalize s.unreplaced (cleaned request) = kept at hgone hnodup
    intro other hother
    rcases List.mem_eraseIdx_iff_getElem?.mp hother with ⟨i, hne, hi⟩
    rw [sameKey_eq_false]
    intro hsame
    apply hne
    rcases List.getElem?_eq_some_iff.mp hgone with ⟨hlt, hrow⟩
    rcases List.getElem?_eq_some_iff.mp hi with ⟨hlt', hother'⟩
    rw [← hother', ← hrow] at hsame
    apply (@List.Nodup.getElem_inj_iff _ _ hnodup i (by rwa [List.length_map]) _
      (by rwa [List.length_map])).mp
    rw [List.getElem_map, List.getElem_map]
    exact hsame
  · next hroom =>
    rw [if_neg hroom] at hgone
    cases hgone

theorem denyIn_keys {key : PublicKeyText} {nowUnix : UnixTime} {rows rows' : List AccessRequest}
    (h : denyIn key nowUnix rows = some rows') :
    rows'.map (·.key.identity) = rows.map (·.key.identity) := by
  induction rows generalizing rows' with
  | nil => cases h
  | cons row rows ih =>
    rw [denyIn] at h
    split at h
    · rw [← Option.some.inj h]
      rfl
    · rcases Option.map_eq_some_iff.mp h with ⟨rest, hrest, rfl⟩
      rw [List.map_cons, List.map_cons, ih hrest]

/-- Rows of other keys stay as they are. -/
theorem denyIn_other {key : PublicKeyText} {nowUnix : UnixTime} {rows rows' : List AccessRequest}
    (h : denyIn key nowUnix rows = some rows') {row : AccessRequest} (hrow : row ∈ rows)
    (hother : sameKey row.key key = false) : row ∈ rows' := by
  induction rows generalizing rows' with
  | nil => cases hrow
  | cons first rows ih =>
    rw [denyIn] at h
    split at h
    · next hfirst =>
      rw [← Option.some.inj h]
      rcases List.mem_cons.mp hrow with heq | hrest
      · rw [heq, hfirst] at hother
        cases hother
      · exact List.mem_cons_of_mem _ hrest
    · rcases Option.map_eq_some_iff.mp h with ⟨rest, hrest, rfl⟩
      rcases List.mem_cons.mp hrow with heq | hmem
      · rw [heq]
        exact List.mem_cons_self
      · exact List.mem_cons_of_mem _ (ih hrest hmem)

/-- The row of the key is marked. -/
theorem denyIn_marks {key : PublicKeyText} {nowUnix : UnixTime} {rows rows' : List AccessRequest}
    (h : denyIn key nowUnix rows = some rows') :
    ∃ row ∈ rows', sameKey row.key key = true ∧ row.denied = true ∧
      row.requestedUnix = nowUnix := by
  induction rows generalizing rows' with
  | nil => cases h
  | cons first rows ih =>
    rw [denyIn] at h
    split at h
    · next hfirst =>
      rw [← Option.some.inj h]
      exact ⟨_, List.mem_cons_self, hfirst, rfl, rfl⟩
    · rcases Option.map_eq_some_iff.mp h with ⟨rest, hrest, rfl⟩
      rcases ih hrest with ⟨row, hrow, hmarked⟩
      exact ⟨row, List.mem_cons_of_mem _ hrow, hmarked⟩

/-! ## Runs -/

inductive Call where
  | add (request : AccessRequest) (nowUnix : UnixTime)
  | remove (key : PublicKeyText)
  | deny (key : PublicKeyText) (nowUnix : UnixTime)
  | expire (nowUnix : UnixTime)

def Call.time? : Call → Option UnixTime
  | .add _ nowUnix => some nowUnix
  | .remove _ => none
  | .deny _ nowUnix => some nowUnix
  | .expire nowUnix => some nowUnix

/-- The call takes the row of the key out. -/
def Call.Removes (key : PublicKeyText) : Call → Prop
  | .remove removed => sameKey removed key = true
  | _ => False

def times (calls : List Call) : List UnixTime := calls.filterMap Call.time?

/-- The outputs are what the calls return. -/
def machine : Machine AccessRequests Call Bool where
  step
    | s, .add request nowUnix => ((s.add request nowUnix).1, [(s.add request nowUnix).2])
    | s, .remove key => ((s.remove key).1, [(s.remove key).2])
    | s, .deny key nowUnix => ((s.deny key nowUnix).1, [(s.deny key nowUnix).2])
    | s, .expire nowUnix => ((s.expire nowUnix).1, [])

/-- The call files a request that crowds out the row of the key. -/
def CrowdsOut (key : PublicKeyText) (s : AccessRequests) : Call → Prop
  | .add request _ =>
    s.Files request ∧ ∃ row, s.crowdedOut request = some row ∧ sameKey row.key key = true
  | _ => False

/-- The key is turned away: it is denied, and no request of it that is not itself a denial
is taken. -/
def TurnsAway (s : AccessRequests) (key : PublicKeyText) : Prop :=
  s.isDenied key = true ∧ ∀ request nowUnix, sameKey request.key key = true →
    request.denied = false → (s.add request nowUnix).2 = false

/-- The denied row of the key, marked at one of the times. -/
def Holds (s : AccessRequests) (key : PublicKeyText) (marked : List UnixTime) : Prop :=
  ∃ row ∈ s.requests, sameKey row.key key = true ∧ row.denied = true ∧ row.requestedUnix ∈ marked

theorem turnsAway_of_isDenied {s : AccessRequests} {key : PublicKeyText}
    (h : s.isDenied key = true) : s.TurnsAway key := by
  refine ⟨h, ?_⟩
  intro request nowUnix hkey hplain
  rw [add_of_not_files]
  rintro ⟨-, -, hdenied | hfresh⟩
  · rw [hplain] at hdenied
    cases hdenied
  · rw [isDenied_congr s hkey, h] at hfresh
    cases hfresh

theorem Distinct.step {s : AccessRequests} (h : s.Distinct) (c : Call) :
    (machine.step s c).1.Distinct := by
  cases c with
  | add request nowUnix =>
    show (s.add request nowUnix).1.Distinct
    by_cases hfiles : s.Files request
    · rw [add_of_files hfiles]
      unfold Distinct
      have hsub := (s.keptRows_sublist request).trans (s.unreplaced_sublist _)
      rw [List.map_append, List.nodup_append]
      refine ⟨(hsub.map _).nodup h, List.nodup_singleton _, ?_⟩
      intro a ha b hb
      rcases List.mem_map.mp ha with ⟨row, hrow, rfl⟩
      rw [List.map_singleton, List.mem_singleton] at hb
      rw [hb]
      exact sameKey_eq_false.mp (unreplaced_key ((s.keptRows_sublist request).subset hrow))
    · rw [add_of_not_files hfiles]
      exact h
  | remove key =>
    show (s.remove key).1.Distinct
    unfold AccessRequests.remove
    dsimp only
    split
    · exact h
    · exact (List.filter_sublist.map _).nodup h
  | deny key nowUnix =>
    show (s.deny key nowUnix).1.Distinct
    unfold deny
    split
    · exact h
    · next rows hrows =>
      unfold Distinct
      rw [denyIn_keys hrows]
      exact h
  | expire nowUnix =>
    exact (List.filter_sublist.map _).nodup h

theorem distinct_run (calls : List Call) : (machine.run {} calls).1.Distinct := by
  induction calls using List.reverseRecOn with
  | nil => exact List.nodup_nil
  | append_singleton calls c ih =>
    rw [Machine.run_concat]
    exact ih.step c

/-- A call within the ten minutes that neither removes the denied row nor crowds it out
keeps it. -/
theorem Holds.step {s : AccessRequests} {key : PublicKeyText} {marked : List UnixTime}
    (hdistinct : s.Distinct) (h : s.Holds key marked) {c : Call}
    (htime : ∀ t, c.time? = some t → ∀ m ∈ marked,
      m ≤ t ∧ t.toInt < m.toInt + kAccessRequestTtlSeconds.toInt)
    (hkept : ¬ c.Removes key) (hroom : ¬ CrowdsOut key s c) :
    (machine.step s c).1.Holds key (marked ++ c.time?.toList) := by
  rcases h with ⟨row, hrow, hkey, hdenied, hmarked⟩
  have hstill : row.requestedUnix ∈ marked ++ c.time?.toList := List.mem_append_left _ hmarked
  cases c with
  | add request nowUnix =>
    show (s.add request nowUnix).1.Holds key _
    by_cases hfiles : s.Files request
    · rw [add_of_files hfiles]
      by_cases hsame : sameKey request.key key = true
      · -- a request of the denied key is filed only when it is a denial itself
        have hdenial : request.denied = true := by
          rcases hfiles.2.2 with hdenial | hfresh
          · exact hdenial
          · rw [isDenied_congr s hsame, hdistinct.isDenied_iff.mpr ⟨row, hrow, hkey, hdenied⟩]
              at hfresh
            cases hfresh
        refine ⟨_, List.mem_append_right _ (List.mem_singleton_self _), hsame, hdenial, ?_⟩
        exact List.mem_append_right _ (List.mem_singleton_self _)
      · refine ⟨row, List.mem_append_left _ ?_, hkey, hdenied, hstill⟩
        apply mem_keptRows
        · apply mem_unreplaced hrow hdenied
          rw [sameKey_eq_false]
          intro heq
          rw [sameKey_iff] at hkey hsame
          exact hsame (heq.symm.trans hkey)
        · intro hout
          exact hroom ⟨hfiles, row, hout, hkey⟩
    · rw [add_of_not_files hfiles]
      exact ⟨row, hrow, hkey, hdenied, hstill⟩
  | remove removed =>
    show (s.remove removed).1.Holds key _
    unfold AccessRequests.remove
    dsimp only
    split
    · exact ⟨row, hrow, hkey, hdenied, hstill⟩
    · refine ⟨row, List.mem_filter.mpr ⟨hrow, ?_⟩, hkey, hdenied, hstill⟩
      rw [Bool.not_eq_true', sameKey_eq_false]
      intro heq
      exact hkept (sameKey_iff.mpr (heq.symm.trans (sameKey_iff.mp hkey)))
  | deny other nowUnix =>
    show (s.deny other nowUnix).1.Holds key _
    unfold deny
    split
    · exact ⟨row, hrow, hkey, hdenied, hstill⟩
    · next rows hrows =>
      by_cases hsame : sameKey row.key other = true
      · rcases denyIn_marks hrows with ⟨row', hrow', hkey', hdenied', htime'⟩
        refine ⟨row', hrow', ?_, hdenied', ?_⟩
        · rw [sameKey_iff] at hkey hkey' hsame ⊢
          exact hkey'.trans (hsame.symm.trans hkey)
        · rw [htime']
          exact List.mem_append_right _ (List.mem_singleton_self _)
      · refine ⟨row, denyIn_other hrows hrow ?_, hkey, hdenied, hstill⟩
        simpa using hsame
  | expire nowUnix =>
    refine ⟨row, List.mem_filter.mpr ⟨hrow, ?_⟩, hkey, hdenied, hstill⟩
    rcases htime nowUnix rfl _ hmarked with ⟨hle, hlt⟩
    rw [Int64.le_iff_toInt_le] at hle
    rw [Bool.not_eq_true', Bool.or_eq_false_iff]
    constructor
    · have httl : kAccessRequestTtlSeconds.toInt = 600 := rfl
      rw [httl] at hlt
      unfold outlivedItsTtl
      rw [decide_eq_false_iff_not, not_and, Int64.not_le]
      intro _
      rw [Int64.lt_iff_toInt_lt, Int64.toInt_sub, httl,
        Int.bmod_eq_of_le (by omega) (by omega)]
      omega
    · rw [decide_eq_false_iff_not, Int64.not_lt, Int64.le_iff_toInt_le]
      exact hle

/-- A call that crowds the denied row out ends the denial. -/
theorem isDenied_of_crowdsOut {s : AccessRequests} (hdistinct : s.Distinct) {key : PublicKeyText}
    {c : Call} (h : CrowdsOut key s c) :
    (machine.step s c).1.isDenied key = false := by
  cases c with
  | add request nowUnix =>
    rcases h with ⟨hfiles, gone, hgone, hkey⟩
    have hafter := hdistinct.step (.add request nowUnix)
    have hgoneKey : gone ∈ s.unreplaced (cleaned request) := by
      unfold crowdedOut at hgone
      dsimp only at hgone
      split at hgone
      · exact List.mem_of_getElem? hgone
      · cases hgone
    have hother := unreplaced_key hgoneKey
    rw [← Bool.not_eq_true, hafter.isDenied_iff]
    rintro ⟨row, hrow, hsame, -⟩
    have hrow' : row ∈ (s.add request nowUnix).1.requests := hrow
    rw [add_of_files hfiles] at hrow'
    rw [sameKey_iff] at hkey hsame
    rcases List.mem_append.mp hrow' with hkept | hnew
    · have hne := crowdedOut_gone hdistinct hgone row hkept
      rw [sameKey_eq_false] at hne
      exact hne (hsame.trans hkey.symm)
    · rw [sameKey_eq_false] at hother
      rw [List.mem_singleton.mp hnew] at hsame
      exact hother (hkey.trans hsame.symm)
  | remove _ => exact h.elim
  | deny _ _ => exact h.elim
  | expire _ => exact h.elim

/-- The denied row is kept as long as it is not crowded out. -/
theorem holds_run {s : AccessRequests} {key : PublicKeyText} {since : UnixTime}
    (hdistinct : s.Distinct) (h : s.Holds key [since]) {calls : List Call}
    (hordered : (since :: times calls).Pairwise (· ≤ ·))
    (hperiod : ∀ t ∈ times calls, t.toInt < since.toInt + kAccessRequestTtlSeconds.toInt)
    (hkept : ∀ c ∈ calls, ¬ c.Removes key)
    (hroom : machine.Along (fun s _ c => ¬ CrowdsOut key s c) s calls) :
    (machine.run s calls).1.Distinct ∧ (machine.run s calls).1.Holds key (since :: times calls) := by
  induction calls using List.reverseRecOn with
  | nil => exact ⟨hdistinct, h⟩
  | append_singleton calls c ih =>
    have htimes : times (calls ++ [c]) = times calls ++ c.time?.toList := by
      unfold times
      rw [List.filterMap_append]
      cases htime : c.time? <;> simp [htime]
    rw [htimes, ← List.cons_append] at hordered ⊢
    rw [htimes] at hperiod
    have hsorted := List.pairwise_append.mp hordered
    rcases ih hsorted.1 (fun t ht => hperiod t (List.mem_append_left _ ht))
      (fun d hd => hkept d (List.mem_append_left _ hd)) hroom.init with ⟨hdistinct', hheld⟩
    rw [Machine.run_concat]
    refine ⟨hdistinct'.step c, hheld.step hdistinct' ?_ ?_ hroom.last⟩
    · intro t ht m hm
      have hmem : t ∈ c.time?.toList := by
        rw [ht]
        exact List.mem_singleton_self t
      refine ⟨hsorted.2.2 m hm t hmem, ?_⟩
      -- no mark is older than the first
      have hfirst : since.toInt ≤ m.toInt := by
        rcases List.mem_cons.mp hm with heq | hlater
        · rw [heq]
        · exact Int64.le_iff_toInt_le.mp ((List.pairwise_cons.mp hsorted.1).1 m hlater)
      have hlast := hperiod t (List.mem_append_right _ hmem)
      omega
    · exact hkept c (List.mem_append_right _ (List.mem_singleton_self c))

end AccessRequests

/-- In every run in time order in which the row of a key was denied and is not removed: during
the ten minutes that follow the key is turned away after every call exactly when no call files
a request that crowds the denied row out. -/
theorem accessRequests_turnsAway_iff (before after : List AccessRequests.Call)
    (key : PublicKeyText) (nowUnix : UnixTime)
    (hordered :
      (AccessRequests.times (before ++ .deny key nowUnix :: after)).Pairwise (· ≤ ·))
    (hdenied : ((AccessRequests.machine.run {} before).1.deny key nowUnix).2 = true)
    (hkept : ∀ c ∈ after, ¬ c.Removes key)
    (hperiod : ∀ t ∈ AccessRequests.times after,
      t.toInt < nowUnix.toInt + kAccessRequestTtlSeconds.toInt) :
    (∀ part rest, after = part ++ rest →
        (AccessRequests.machine.run {} (before ++ .deny key nowUnix :: part)).1.TurnsAway key) ↔
      AccessRequests.machine.Along (fun s _ c => ¬ AccessRequests.CrowdsOut key s c)
        (AccessRequests.machine.run {} (before ++ [.deny key nowUnix])).1 after := by
  have hrun : ∀ part, (AccessRequests.machine.run {} (before ++ .deny key nowUnix :: part)).1 =
      (AccessRequests.machine.run
        (AccessRequests.machine.run {} (before ++ [.deny key nowUnix])).1 part).1 := by
    intro part
    rw [← List.singleton_append, ← List.append_assoc, Machine.run_append]
  have hstart := AccessRequests.distinct_run (before ++ [.deny key nowUnix])
  have hmarked : (AccessRequests.machine.run {} (before ++ [.deny key nowUnix])).1.Holds key
      [nowUnix] := by
    rw [Machine.run_concat]
    show ((AccessRequests.machine.run {} before).1.deny key nowUnix).1.Holds key [nowUnix]
    unfold AccessRequests.deny at hdenied ⊢
    split at hdenied
    · cases hdenied
    · next rows hrows =>
      rcases AccessRequests.denyIn_marks hrows with ⟨row, hrow, hkey, hmark, htime⟩
      exact ⟨row, hrow, hkey, hmark, List.mem_singleton.mpr htime⟩
  have hafter : (nowUnix :: AccessRequests.times after).Pairwise (· ≤ ·) := by
    unfold AccessRequests.times at hordered ⊢
    rw [List.filterMap_append] at hordered
    exact (List.pairwise_append.mp hordered).2.1
  generalize (AccessRequests.machine.run {} (before ++ [.deny key nowUnix])).1 = s
    at hrun hstart hmarked ⊢
  constructor
  · intro hturned part c rest hsplit hout
    -- the call that crowds the row out leaves a state in which the key is not denied
    have hthen := (hturned (part ++ [c]) rest (by rw [hsplit, List.append_assoc]; rfl)).1
    rw [hrun, Machine.run_concat] at hthen
    have hdistinct : (AccessRequests.machine.run s part).1.Distinct := by
      rw [← hrun]
      exact AccessRequests.distinct_run _
    rw [AccessRequests.isDenied_of_crowdsOut hdistinct hout] at hthen
    cases hthen
  · intro hroom part rest hsplit
    rw [hrun]
    rw [hsplit] at hroom hkept hperiod hafter
    have htimes : AccessRequests.times (part ++ rest) =
        AccessRequests.times part ++ AccessRequests.times rest := List.filterMap_append
    rw [htimes] at hperiod hafter
    rcases AccessRequests.holds_run hstart hmarked (List.pairwise_append.mp hafter).1
      (fun t ht => hperiod t (List.mem_append_left _ ht))
      (fun c hc => hkept c (List.mem_append_left _ hc)) hroom.left with ⟨hdistinct, hheld⟩
    apply AccessRequests.turnsAway_of_isDenied
    rcases hheld with ⟨row, hrow, hkey, hmark, -⟩
    exact hdistinct.isDenied_iff.mpr ⟨row, hrow, hkey, hmark⟩

/-- A request of the `n`th device, from an address of its own. -/
def requestOf (n : Nat) : AccessRequest where
  key :=
    { blob := [0, 0, 0, 11] ++ kEd25519 ++ [0, 0, 0, 32] ++ List.replicate 32 (UInt8.ofNat n) }
  address := ascii "10.0.0." ++ decimal n ++ ascii ":5000"

/-- A denied device stays so when another one asks. -/
theorem accessRequests_turnsAway_iff_neighbour :
    (AccessRequests.machine.run {} ([.add (requestOf 0) 100] ++ .deny (requestOf 0).key 110 ::
      [.add (requestOf 1) 120])).1.TurnsAway (requestOf 0).key := by
  apply (accessRequests_turnsAway_iff [.add (requestOf 0) 100] [.add (requestOf 1) 120]
    (requestOf 0).key 110 _ _ _ _).mpr _ [.add (requestOf 1) 120] [] rfl
  · decide +kernel
  · decide +kernel
  · intro c hc
    rw [List.mem_singleton.mp hc]
    exact id
  · intro t ht
    rw [List.mem_singleton.mp ht]
    decide
  · rw [Machine.along_iff]
    refine ⟨?_, trivial⟩
    rintro ⟨-, row, hout, -⟩
    have hnone : (AccessRequests.machine.run {} ([.add (requestOf 0) 100] ++
        [.deny (requestOf 0).key 110])).1.crowdedOut (requestOf 1) = none := by
      decide +kernel
    rw [hnone] at hout
    cases hout

/-- After the denial, as many other devices ask as the table holds. -/
def crowd : List AccessRequests.Call :=
  (List.range 16).map fun n => .add (requestOf (n + 1)) 120

/-- The crowd drops the denied row: twenty seconds after the denial the device may ask again. -/
theorem crowded_not_turnsAway :
    let before := [AccessRequests.Call.add (requestOf 0) 100]
    let s := (AccessRequests.machine.run {} (before ++ .deny (requestOf 0).key 110 :: crowd)).1
    (AccessRequests.times (before ++ .deny (requestOf 0).key 110 :: crowd)).Pairwise (· ≤ ·) ∧
      ((AccessRequests.machine.run {} before).1.deny (requestOf 0).key 110).2 = true ∧
      (∀ c ∈ crowd, ¬ c.Removes (requestOf 0).key) ∧
      s.isDenied (requestOf 0).key = false ∧ (s.add (requestOf 0) 130).2 = true := by
  intro before s
  refine ⟨?_, ?_, ?_, ?_, ?_⟩
  · decide +kernel
  · decide +kernel
  · intro c hc
    rcases List.mem_map.mp hc with ⟨n, -, rfl⟩
    exact id
  · decide +kernel
  · decide +kernel

end Deskhub
