import Deskhub.Net.AccessRequests
import Deskhub.Net.PublicKeyText

/-!
# The file of the access requests

`SerializeAccessRequests` writes a row a line; `ParseAccessRequests` files the rows again, each
with its own time. No two rows of a table are such that one would have replaced the other, and
so the rows are filed as they were: nothing is replaced, crowded out or refused.
-/

namespace Deskhub

def kMaxAccessRequestsFileBytes : Nat := 65536
def kMaxAccessRequestLineBytes : Nat := 2048
def kDeniedPrefix : Bytes := ascii "denied "

namespace AccessRequests

def holdsNewerFromSameSource (s : AccessRequests) (request : AccessRequest) : Bool :=
  s.requests.any fun existing => replaces request existing && decide (request.requestedUnix < existing.requestedUnix)

end AccessRequests

/-- A turn of the loop of `ParseAccessRequests`. -/
def readAccessRequest (nowUnix : UnixTime) (s : AccessRequests) (line : Bytes) : Option AccessRequests :=
  let line := trim line
  if line = [] then some s
  else
    let denied := decide (kDeniedPrefix <+: line)
    let line := if denied then line.drop kDeniedPrefix.length else line
    if kMaxAccessRequestLineBytes < line.length then none
    else do
      let (timeText, line) ← cutAt 32 line
      let (addressText, keyText) ← cutAt 32 line
      let requestedUnix ← parseUnixTime timeText
      let address := cleanAddress addressText
      let key ← parsePublicKeyText keyText
      if address = [] then none
      else if (s.find key).isSome then none
      else if outlivedItsTtl requestedUnix nowUnix then some s
      else
        let request : AccessRequest :=
          { key := key, address := address, requestedUnix := requestedUnix, denied := denied }
        if s.holdsNewerFromSameSource request then some s
        else
          let (s, added) := s.add request requestedUnix
          if added then some s else none

def parseAccessRequests (text : Bytes) (nowUnix : UnixTime) : Option AccessRequests :=
  if kMaxAccessRequestsFileBytes < text.length then none
  else ((splitLines text).foldlM (readAccessRequest nowUnix) {}).map fun s => (s.expire nowUnix).1

/-- The line of a row, and nothing for a row that cannot be written. -/
def accessRequestLine (request : AccessRequest) : Bytes :=
  let key := formatPublicKeyText request.key
  if key = [] ∨ request.address = [] then []
  else
    (if request.denied then kDeniedPrefix else []) ++ timeText request.requestedUnix ++ [32] ++
      request.address ++ [32] ++ key ++ [10]

def serializeAccessRequests (s : AccessRequests) : Bytes := (s.requests.map accessRequestLine).flatten

/-- The row without blanks at the ends of its label. -/
def AccessRequest.trimmed (row : AccessRequest) : AccessRequest := { row with key := row.key.trimmed }

/-! ## What holds of a table -/

/-- A row that `Add` filed at a time that is not negative. -/
structure AccessRequest.Filed (row : AccessRequest) : Prop where
  address : cleanAddress row.address = row.address
  somewhere : row.address ≠ []
  key : formatPublicKeyText row.key ≠ []
  time : 0 ≤ row.requestedUnix.toInt

theorem cleanAddress_spec {address : Bytes} (h : cleanAddress address ≠ []) :
    cleanAddress address = trim address ∧ (trim address).length ≤ kMaxAccessRequestAddressBytes ∧
      ∀ c ∈ trim address, 32 < c.toNat := by
  unfold cleanAddress at h ⊢
  dsimp only at h ⊢
  split at h
  · contradiction
  · next hsizes =>
    split at h
    · contradiction
    · next hvisible =>
      push Not at hsizes
      rw [if_neg (by push Not; exact hsizes), if_neg hvisible]
      refine ⟨rfl, hsizes.2, ?_⟩
      intro c hc
      by_contra hlow
      apply hvisible
      refine List.any_eq_true.mpr ⟨c, hc, decide_eq_true (.inl ?_)⟩
      rw [UInt8.le_iff_toNat_le]
      exact Nat.not_lt.mp hlow

theorem cleanAddress_cleanAddress (address : Bytes) : cleanAddress (cleanAddress address) = cleanAddress address := by
  by_cases hempty : cleanAddress address = []
  · rw [hempty]
    rfl
  · have htrim := (cleanAddress_spec hempty).1
    rw [htrim]
    unfold cleanAddress at htrim ⊢
    rw [trim_trim]
    exact htrim

namespace AccessRequests

/-- No row would have replaced one before it. -/
def Apart (rows : List AccessRequest) : Prop := rows.Pairwise fun a b => replaces b a = false

theorem replaces_eq_false {incoming existing : AccessRequest} :
    replaces incoming existing = false ↔
      sameKey existing.key incoming.key = false ∧
        (existing.denied = false → incoming.denied = false → hostOf existing.address ≠ hostOf incoming.address) := by
  unfold replaces
  cases hsame : sameKey existing.key incoming.key with
  | true => simp
  | false =>
    cases hold : existing.denied <;> cases hnew : incoming.denied <;> simp

/-- What holds of the rows after any calls. -/
structure Sound (s : AccessRequests) : Prop where
  few : s.requests.length ≤ kMaxAccessRequests
  apart : Apart s.requests
  filed : ∀ row ∈ s.requests, row.Filed

variable {s : AccessRequests}

theorem Sound.of_sublist (h : s.Sound) {rows : List AccessRequest} (hsub : rows.Sublist s.requests) :
    Sound { requests := rows } where
  few := Nat.le_trans hsub.length_le h.few
  apart := h.apart.sublist hsub
  filed := fun row hrow => h.filed row (hsub.subset hrow)

/-- There is room for the row that is filed. -/
theorem length_keptRows (hfew : s.requests.length ≤ kMaxAccessRequests) (request : AccessRequest) :
    (s.keptRows request).length < kMaxAccessRequests := by
  have hle := (s.unreplaced_sublist (cleaned request)).length_le
  unfold keptRows
  dsimp only
  split
  · next hfull =>
    have hne : s.unreplaced (cleaned request) ≠ [] := by
      intro hnil
      rw [hnil] at hfull
      exact absurd hfull (by decide)
    have hplace : oldest (s.unreplaced (cleaned request)) < _ := minElement_lt hne
    have hpos := List.length_pos_iff.mpr hne
    rw [List.length_eraseIdx_of_lt hplace]
    omega
  · omega

theorem Sound.add (h : s.Sound) (request : AccessRequest) {nowUnix : UnixTime} (hnow : 0 ≤ nowUnix.toInt) :
    (s.add request nowUnix).1.Sound := by
  by_cases hfiles : s.Files request
  · rw [add_of_files hfiles]
    have hkept := h.of_sublist (s.keptRows_sublist request |>.trans (s.unreplaced_sublist _))
    refine ⟨?_, ?_, ?_⟩
    · have hroom := length_keptRows h.few request
      rw [List.length_append, List.length_singleton]
      exact hroom
    · apply List.pairwise_append.mpr
      refine ⟨hkept.apart, List.pairwise_singleton _ _, ?_⟩
      intro row hrow filed hfiled
      have hnot := (List.mem_filter.mp ((s.keptRows_sublist request).subset hrow)).2
      rw [List.mem_singleton.mp hfiled]
      exact (Bool.not_eq_true' _).mp hnot
    · intro row hrow
      rcases List.mem_append.mp hrow with hold | hlast
      · exact hkept.filed row hold
      · rw [List.mem_singleton.mp hlast]
        obtain ⟨haddress, hkey, -⟩ := hfiles
        exact ⟨cleanAddress_cleanAddress _, haddress, of_decide_eq_true hkey, hnow⟩
  · rw [add_of_not_files hfiles]
    exact h

/-- Every row is as it was, or is the denied one. -/
theorem mem_denyIn {key : PublicKeyText} {nowUnix : UnixTime} {rows rows' : List AccessRequest}
    (h : denyIn key nowUnix rows = some rows') {row : AccessRequest} (hrow : row ∈ rows') :
    ∃ old ∈ rows, row = old ∨ row = { old with denied := true, requestedUnix := nowUnix } := by
  induction rows generalizing rows' with
  | nil => contradiction
  | cons first rows ih =>
    rw [denyIn] at h
    split at h
    · rw [← Option.some.inj h] at hrow
      rcases List.mem_cons.mp hrow with hmarked | hrest
      · exact ⟨first, List.mem_cons_self, .inr hmarked⟩
      · exact ⟨row, List.mem_cons_of_mem first hrest, .inl rfl⟩
    · obtain ⟨rest, hrest, rfl⟩ := Option.map_eq_some_iff.mp h
      rcases List.mem_cons.mp hrow with hsame | hbehind
      · exact ⟨first, List.mem_cons_self, .inl hsame⟩
      · obtain ⟨old, hold, hcases⟩ := ih hrest hbehind
        exact ⟨old, List.mem_cons_of_mem first hold, hcases⟩

/-- A denied row is apart from whatever the row was apart from. -/
theorem replaces_marked {a b : AccessRequest} (nowUnix : UnixTime) (h : replaces b a = false) :
    replaces { b with denied := true, requestedUnix := nowUnix } a = false ∧
      replaces b { a with denied := true, requestedUnix := nowUnix } = false := by
  rw [replaces_eq_false] at h
  rw [replaces_eq_false, replaces_eq_false]
  refine ⟨⟨h.1, ?_⟩, ⟨h.1, ?_⟩⟩
  · intro _ hdenied
    contradiction
  · intro hdenied
    contradiction

theorem Apart.denyIn {key : PublicKeyText} {nowUnix : UnixTime} {rows rows' : List AccessRequest}
    (h : Apart rows) (hdeny : denyIn key nowUnix rows = some rows') : Apart rows' := by
  induction rows generalizing rows' with
  | nil => contradiction
  | cons first rows ih =>
    obtain ⟨hfirst, hrows⟩ := List.pairwise_cons.mp h
    rw [AccessRequests.denyIn] at hdeny
    split at hdeny
    · rw [← Option.some.inj hdeny]
      apply List.pairwise_cons.mpr
      exact ⟨fun row hrow => (replaces_marked nowUnix (hfirst row hrow)).2, hrows⟩
    · obtain ⟨rest, hrest, rfl⟩ := Option.map_eq_some_iff.mp hdeny
      apply List.pairwise_cons.mpr
      refine ⟨?_, ih hrows hrest⟩
      intro row hrow
      obtain ⟨old, hold, rfl | rfl⟩ := mem_denyIn hrest hrow
      · exact hfirst _ hold
      · exact (replaces_marked nowUnix (hfirst old hold)).1

theorem Sound.deny (h : s.Sound) (key : PublicKeyText) {nowUnix : UnixTime} (hnow : 0 ≤ nowUnix.toInt) :
    (s.deny key nowUnix).1.Sound := by
  unfold AccessRequests.deny
  cases hdeny : denyIn key nowUnix s.requests with
  | none => exact h
  | some rows =>
    refine ⟨?_, h.apart.denyIn hdeny, ?_⟩
    · have hlength := congrArg List.length (denyIn_keys hdeny)
      rw [List.length_map, List.length_map] at hlength
      show rows.length ≤ kMaxAccessRequests
      rw [hlength]
      exact h.few
    · intro row hrow
      obtain ⟨old, hold, rfl | rfl⟩ := mem_denyIn hdeny hrow
      · exact h.filed _ hold
      · exact { h.filed old hold with time := hnow }

theorem Sound.remove (h : s.Sound) (key : PublicKeyText) : (s.remove key).1.Sound := by
  unfold AccessRequests.remove
  dsimp only
  split
  · exact h
  · exact h.of_sublist List.filter_sublist

theorem Sound.expire (h : s.Sound) (nowUnix : UnixTime) : (s.expire nowUnix).1.Sound :=
  h.of_sublist List.filter_sublist

/-- No call is made at a negative time. -/
def Call.ClockOk (call : Call) : Prop := ∀ t ∈ call.time?, 0 ≤ t.toInt

instance (call : Call) : Decidable call.ClockOk :=
  decidable_of_iff (call.time?.all (fun t => decide (0 ≤ t.toInt)) = true) (by
    rw [Option.all_eq_true]
    simp only [decide_eq_true_eq]
    exact Iff.rfl)

theorem Sound.step (h : s.Sound) {call : Call} (hclock : call.ClockOk) : (machine.step s call).1.Sound := by
  cases call with
  | add request nowUnix => exact h.add request (hclock nowUnix rfl)
  | remove key => exact h.remove key
  | deny key nowUnix => exact h.deny key (hclock nowUnix rfl)
  | expire nowUnix => exact h.expire nowUnix

theorem sound_run {calls : List Call} (hclock : ∀ call ∈ calls, call.ClockOk) :
    (machine.run {} calls).1.Sound := by
  induction calls using List.reverseRecOn with
  | nil =>
    refine ⟨Nat.zero_le _, List.Pairwise.nil, ?_⟩
    intro row hrow
    contradiction
  | append_singleton calls call ih =>
    rw [Machine.run_concat]
    apply Sound.step
    · exact ih fun c hc => hclock c (List.mem_append_left _ hc)
    · exact hclock call (List.mem_append_right _ (List.mem_singleton_self call))

/-! ## The line of a row -/

/-- What stands in front of the key in the line of a row. -/
def rowText (row : AccessRequest) : Bytes :=
  timeText row.requestedUnix ++ 32 :: (row.address ++ [32])

/-- The line of a row without the line feed. -/
def rowLine (row : AccessRequest) : Bytes :=
  (if row.denied then kDeniedPrefix else []) ++ rowText row ++ formatPublicKeyText row.key

theorem accessRequestLine_eq {row : AccessRequest} (h : row.Filed) : accessRequestLine row = rowLine row ++ [10] := by
  unfold accessRequestLine rowLine rowText
  dsimp only
  rw [if_neg (not_or.mpr ⟨h.key, h.somewhere⟩)]
  simp only [List.append_assoc, List.cons_append, List.nil_append]

theorem address_visible {row : AccessRequest} (h : row.Filed) :
    row.address.length ≤ kMaxAccessRequestAddressBytes ∧ ∀ c ∈ row.address, 32 < c.toNat := by
  have hne : cleanAddress row.address ≠ [] := by
    rw [h.address]
    exact h.somewhere
  obtain ⟨htrim, hlength, hvisible⟩ := cleanAddress_spec hne
  rw [h.address] at htrim
  rw [← htrim] at hlength hvisible
  exact ⟨hlength, hvisible⟩

theorem isBlank_of_visible {c : UInt8} (h : 32 < c.toNat) : isBlank c = false := by
  have hall : ∀ d ∈ [c], 32 < d.toNat := by
    intro d hd
    rw [List.mem_singleton.mp hd]
    exact h
  exact (trimmed_of_visible hall).1 c rfl

/-- A row's own text begins with a digit. -/
theorem rowText_head {row : AccessRequest} (h : row.Filed) :
    ∃ c rest, rowText row = c :: rest ∧ 48 ≤ c.toNat ∧ c.toNat ≤ 57 := by
  have hdigits := decimal_digits row.requestedUnix.toInt.natAbs
  unfold rowText
  rw [(parseUnixTime_timeText h.time).1]
  cases htext : decimal row.requestedUnix.toInt.natAbs with
  | nil => exact absurd htext (decimal_ne_nil _)
  | cons c rest =>
    rw [htext] at hdigits
    exact ⟨c, _, rfl, hdigits c List.mem_cons_self⟩

theorem length_rowLine_le {row : AccessRequest} (h : row.Filed) : (rowLine row).length ≤ 389 := by
  have htime := (timeText_visible h.time).1
  have haddress := (address_visible h).1
  have hkey := (formatPublicKeyText_text h.key).1
  have hmax : kMaxAccessRequestAddressBytes = 64 := rfl
  have hmark : (if row.denied then kDeniedPrefix else []).length ≤ 7 := by
    cases row.denied
    · exact Nat.zero_le _
    · exact Nat.le_refl 7
  unfold rowLine rowText
  simp only [List.length_append, List.length_cons, List.length_nil]
  omega

theorem rowLine_printable {row : AccessRequest} (h : row.Filed) : ∀ c ∈ rowLine row, c ≠ 10 := by
  have hmark : ∀ c ∈ (if row.denied then kDeniedPrefix else []), 32 ≤ c.toNat := by
    cases row.denied
    · intro c hc
      contradiction
    · exact forall_of_all (by decide)
  have hall : ∀ c ∈ rowLine row, 32 ≤ c.toNat := by
    intro c hc
    unfold rowLine rowText at hc
    simp only [List.mem_append, List.mem_cons, List.not_mem_nil, or_false] at hc
    rcases hc with (hmarked | htime | rfl | haddress | rfl) | hkey
    · exact hmark c hmarked
    · exact Nat.le_of_lt ((timeText_visible h.time).2 c htime)
    · decide
    · exact Nat.le_of_lt ((address_visible h).2 c haddress)
    · decide
    · exact (formatPublicKeyText_text h.key).2.1 c hkey
  rintro c hc rfl
  exact absurd (hall 10 hc) (by decide)

/-- Trimming a line trims its key. -/
theorem trim_rowLine {row : AccessRequest} (h : row.Filed) :
    trim (rowLine row) =
      (if row.denied then kDeniedPrefix else []) ++ rowText row ++ trim (formatPublicKeyText row.key) := by
  obtain ⟨c, rest, htext, hlow, -⟩ := rowText_head h
  have hkeyHead := (formatPublicKeyText_text h.key).2.2
  apply trim_append_text
  · rw [htext]
    exact List.append_ne_nil_of_right_ne_nil _ (List.cons_ne_nil _ _)
  · intro d hd
    cases hdenied : row.denied with
    | true =>
      rw [hdenied, if_pos rfl] at hd
      rw [← Option.some.inj hd]
      rfl
    | false =>
      rw [hdenied, if_neg Bool.false_ne_true, List.nil_append, htext] at hd
      rw [← Option.some.inj hd]
      exact isBlank_of_visible (by omega)
  · exact h.key
  · intro d hd
    rcases hkeyHead d hd with rfl | rfl
    · rfl
    · rfl

/-- What follows the mark of a denied row does not begin with one. -/
theorem not_prefix_rowText {row : AccessRequest} (h : row.Filed) (rest : Bytes) :
    ¬kDeniedPrefix <+: rowText row ++ rest := by
  obtain ⟨c, tail, htext, -, hhigh⟩ := rowText_head h
  rw [htext]
  rintro ⟨back, hback⟩
  have hfirst : (100 : UInt8) = c := (List.cons.inj hback).1
  rw [← hfirst] at hhigh
  exact absurd hhigh (by decide)

/-! ## Reading the rows -/

/-- A row that is apart from those of the table is filed behind them. -/
theorem add_apart {row : AccessRequest} (h : row.Filed) (hapart : ∀ old ∈ s.requests, replaces row old = false)
    (hroom : s.requests.length < kMaxAccessRequests) :
    s.add row row.requestedUnix = ({ requests := s.requests ++ [row] }, true) := by
  have hnone : s.find row.key = none := by
    apply List.find?_eq_none.mpr
    intro old hold
    rw [(replaces_eq_false.mp (hapart old hold)).1]
    exact Bool.false_ne_true
  have hfiles : s.Files row := by
    refine ⟨?_, decide_eq_true h.key, .inr ?_⟩
    · rw [h.address]
      exact h.somewhere
    · unfold isDenied
      rw [hnone]
  have hclean : cleaned row = row := by
    unfold cleaned
    rw [h.address]
  have hkept : s.keptRows row = s.requests := by
    have hall : s.unreplaced row = s.requests := by
      apply List.filter_eq_self.mpr
      intro old hold
      rw [hapart old hold]
      rfl
    unfold keptRows
    rw [hclean, hall]
    exact if_neg (Nat.not_le.mpr hroom)
  rw [add_of_files hfiles, hkept, hclean]

theorem filed_trimmed {row : AccessRequest} (h : row.Filed) : row.trimmed.Filed where
  address := h.address
  somewhere := h.somewhere
  key := formatPublicKeyText_trimmed h.key
  time := h.time

/-- What is read of the words of a line. -/
theorem trim_format_parse {row : AccessRequest} (h : row.Filed) :
    (trim (formatPublicKeyText row.key)).length ≤ 297 ∧
      parsePublicKeyText (trim (formatPublicKeyText row.key)) = some row.key.trimmed := by
  have hlength := Nat.le_trans (trim_sublist (formatPublicKeyText row.key)).length_le
    (formatPublicKeyText_text h.key).1
  refine ⟨hlength, parsePublicKeyText_of_trim ?_ ?_ h.key (trim_trim _)⟩
  · rw [trim_formatPublicKeyText h.key]
    unfold keyText
    apply List.append_ne_nil_of_left_ne_nil
    exact List.append_ne_nil_of_right_ne_nil _ (List.cons_ne_nil _ _)
  · unfold kMaxTextBytes
    omega

/-- The line of a row that is apart from those of the table files it, unless it is too old. -/
theorem readAccessRequest_line {row : AccessRequest} (h : row.Filed)
    (hapart : ∀ old ∈ s.requests, replaces row old = false) (hroom : s.requests.length < kMaxAccessRequests)
    (nowUnix : UnixTime) :
    readAccessRequest nowUnix s (rowLine row) =
      some (if outlivedItsTtl row.requestedUnix nowUnix then s else { requests := s.requests ++ [row.trimmed] }) := by
  obtain ⟨hkeyLength, hkey⟩ := trim_format_parse h
  obtain ⟨htimeLength, htime⟩ := timeText_visible h.time
  obtain ⟨haddressLength, haddress⟩ := address_visible h
  have hparseTime := (parseUnixTime_timeText h.time).2
  have hmax : kMaxAccessRequestAddressBytes = 64 := rfl
  have hline := trim_rowLine h
  rw [List.append_assoc] at hline
  have hunmarked := not_prefix_rowText h (trim (formatPublicKeyText row.key))
  have hwords : rowText row ++ trim (formatPublicKeyText row.key) =
      timeText row.requestedUnix ++ 32 :: (row.address ++ 32 :: trim (formatPublicKeyText row.key)) := by
    unfold rowText
    simp only [List.append_assoc, List.cons_append, List.nil_append]
  rw [hwords] at hline hunmarked
  -- the mark is read as it was written
  have hmark : decide (kDeniedPrefix <+: trim (rowLine row)) = row.denied := by
    rw [hline]
    cases row.denied with
    | true => exact decide_eq_true (List.prefix_append _ _)
    | false => exact decide_eq_false hunmarked
  have hrest : (if row.denied then (trim (rowLine row)).drop kDeniedPrefix.length else trim (rowLine row)) =
      timeText row.requestedUnix ++ 32 :: (row.address ++ 32 :: trim (formatPublicKeyText row.key)) := by
    rw [hline]
    cases row.denied with
    | true => exact List.drop_left
    | false => rfl
  have hne : trim (rowLine row) ≠ [] := by
    rw [hline]
    apply List.append_ne_nil_of_right_ne_nil
    exact List.append_ne_nil_of_right_ne_nil _ (List.cons_ne_nil _ _)
  have hfind : s.find row.key.trimmed = none := by
    apply List.find?_eq_none.mpr
    intro old hold
    have hother := (replaces_eq_false.mp (hapart old hold)).1
    rw [show sameKey old.key row.key.trimmed = sameKey old.key row.key from rfl, hother]
    exact Bool.false_ne_true
  have hnewer : s.holdsNewerFromSameSource row.trimmed = false := by
    apply List.any_eq_false.mpr
    intro old hold
    rw [show replaces row.trimmed old = replaces row old from rfl, hapart old hold, Bool.false_and]
    exact Bool.false_ne_true
  have hadd : s.add row.trimmed row.requestedUnix = ({ requests := s.requests ++ [row.trimmed] }, true) :=
    add_apart (filed_trimmed h) hapart hroom
  unfold readAccessRequest
  dsimp only
  rw [if_neg hne, hmark, hrest, if_neg]
  · simp only [cutAt_append (ne_of_visible htime), cutAt_append (ne_of_visible haddress), hparseTime, hkey,
      h.address, Option.bind_eq_bind, Option.bind_some]
    rw [if_neg h.somewhere, hfind, if_neg (by simp)]
    split
    · rfl
    · have hrow : (⟨row.key.trimmed, row.address, row.requestedUnix, row.denied⟩ : AccessRequest) = row.trimmed :=
        rfl
      rw [hrow, hnewer, if_neg Bool.false_ne_true, hadd]
      rfl
  · unfold kMaxAccessRequestLineBytes
    simp only [List.length_append, List.length_cons]
    omega

/-- The lines of rows that are apart file those that are not too old, in their order. -/
theorem readAccessRequests_lines {nowUnix : UnixTime} {rest : List AccessRequest} (hfiled : ∀ row ∈ rest, row.Filed)
    (hapart : Apart rest) (hold : ∀ old ∈ s.requests, ∀ row ∈ rest, replaces row old = false)
    (hfew : s.requests.length + rest.length ≤ kMaxAccessRequests) :
    (rest.map rowLine).foldlM (readAccessRequest nowUnix) s =
      some { requests := s.requests ++
        (rest.filter fun row => !outlivedItsTtl row.requestedUnix nowUnix).map AccessRequest.trimmed } := by
  induction rest generalizing s with
  | nil => simp
  | cons row rest ih =>
    obtain ⟨hfirst, hbehind⟩ := List.pairwise_cons.mp hapart
    have hrestFiled : ∀ r ∈ rest, r.Filed := fun r hr => hfiled r (List.mem_cons_of_mem row hr)
    rw [List.length_cons] at hfew
    rw [List.map_cons, List.foldlM_cons, readAccessRequest_line (hfiled row List.mem_cons_self)
      (fun old ho => hold old ho row List.mem_cons_self) (by omega)]
    show (rest.map rowLine).foldlM (readAccessRequest nowUnix) _ = _
    by_cases hgone : outlivedItsTtl row.requestedUnix nowUnix = true
    · rw [if_pos hgone, List.filter_cons_of_neg (by rw [hgone]; decide)]
      apply ih hrestFiled hbehind
      · intro old ho r hr
        exact hold old ho r (List.mem_cons_of_mem row hr)
      · omega
    · rw [if_neg hgone, List.filter_cons_of_pos (by simpa using hgone), ih hrestFiled hbehind]
      · simp
      · intro old ho r hr
        rcases List.mem_append.mp ho with hbefore | hlast
        · exact hold old hbefore r (List.mem_cons_of_mem row hr)
        · rw [List.mem_singleton.mp hlast]
          exact hfirst r hr
      · rw [List.length_append, List.length_singleton]
        omega

theorem Sound.parse_serialize (h : s.Sound) (nowUnix : UnixTime) :
    parseAccessRequests (serializeAccessRequests s) nowUnix =
      some { requests := (s.expire nowUnix).1.requests.map AccessRequest.trimmed } := by
  have htext : serializeAccessRequests s = ((s.requests.map rowLine).map (· ++ [10])).flatten := by
    unfold serializeAccessRequests
    rw [List.map_map]
    congr 1
    apply List.map_congr_left
    intro row hrow
    exact accessRequestLine_eq (h.filed row hrow)
  have hlines : splitLines (serializeAccessRequests s) = s.requests.map rowLine := by
    rw [htext]
    apply splitLines_flatten
    intro line hline
    obtain ⟨row, hrow, rfl⟩ := List.mem_map.mp hline
    exact rowLine_printable (h.filed row hrow)
  have hlength : (serializeAccessRequests s).length ≤ 390 * s.requests.length := by
    rw [htext]
    exact length_lines_le fun row hrow => length_rowLine_le (h.filed row hrow)
  have hfew := h.few
  unfold parseAccessRequests
  rw [if_neg, hlines, readAccessRequests_lines h.filed h.apart]
  · rw [Option.map_some, Option.some.injEq]
    unfold AccessRequests.expire
    dsimp only
    rw [List.nil_append, List.filter_map, List.filter_filter]
    congr 2
    apply List.filter_congr
    intro row _
    show (!(outlivedItsTtl row.requestedUnix nowUnix || _) && _) = _
    cases outlivedItsTtl row.requestedUnix nowUnix with
    | true => rfl
    | false =>
      rw [Bool.not_false, Bool.and_true]
      rfl
  · intro old hold
    contradiction
  · show 0 + s.requests.length ≤ kMaxAccessRequests
    omega
  · unfold kMaxAccessRequestsFileBytes
    unfold kMaxAccessRequests at hfew
    omega

end AccessRequests

/-- After any calls the table has no more rows than it may, no two of one key and no two that ask
from one host; and what is written of it is read back as the rows that have not expired, each
with the blanks at the ends of its label gone. -/
theorem accessRequests_reload (calls : List AccessRequests.Call) (hclock : ∀ call ∈ calls, call.ClockOk) :
    let s := (AccessRequests.machine.run {} calls).1
    s.requests.length ≤ kMaxAccessRequests ∧
      (s.requests.Pairwise fun a b => sameKey a.key b.key = false) ∧
      (s.requests.Pairwise fun a b => a.denied = false → b.denied = false → hostOf a.address ≠ hostOf b.address) ∧
      ∀ nowUnix, 0 ≤ nowUnix.toInt → parseAccessRequests (serializeAccessRequests s) nowUnix =
        some { requests := (s.expire nowUnix).1.requests.map AccessRequest.trimmed } := by
  have h := AccessRequests.sound_run hclock
  refine ⟨h.few, ?_, ?_, fun nowUnix _ => h.parse_serialize nowUnix⟩
  · exact h.apart.imp fun hapart => (AccessRequests.replaces_eq_false.mp hapart).1
  · exact h.apart.imp fun hapart => (AccessRequests.replaces_eq_false.mp hapart).2

/-- Three devices, one of them denied; the last has a label with blanks around it. -/
theorem accessRequests_reload_denied :
    let calls : List AccessRequests.Call :=
      [.add (requestOf 0) 100, .add (requestOf 1) 110, .deny (requestOf 0).key 120,
        .add { requestOf 2 with key := { (requestOf 2).key with label := ascii "  tablet " } } 700]
    let s := (AccessRequests.machine.run {} calls).1
    s.requests.length ≤ kMaxAccessRequests ∧
      (s.requests.Pairwise fun a b => sameKey a.key b.key = false) ∧
      (s.requests.Pairwise fun a b => a.denied = false → b.denied = false → hostOf a.address ≠ hostOf b.address) ∧
      ∀ nowUnix, 0 ≤ nowUnix.toInt → parseAccessRequests (serializeAccessRequests s) nowUnix =
        some { requests := (s.expire nowUnix).1.requests.map AccessRequest.trimmed } :=
  accessRequests_reload _ (by decide +kernel)

end Deskhub
