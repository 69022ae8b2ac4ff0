import Deskhub.Lib.MinElement
import Deskhub.Net.Base64
import Deskhub.Net.RecordText
import Deskhub.Protocol.Wire.Auth
import Deskhub.Lib.Machine
import Mathlib.Data.List.Nodup

/-!
# Pairing tokens

`PairingTokens`: the tokens a host has shown and not yet seen used, a few at a time and
each until its expiry, and the file they are kept in.
-/

namespace Deskhub

def kMaxPairingTokens : Nat := 4
def kMaxPairingTokensFileBytes : Nat := 4096
def kMaxPairingTokenLineBytes : Nat := 96

/-- `IsZero` of a token. -/
def PairingToken.isZero (token : PairingToken) : Bool := token.val.all (· = 0)

structure IssuedPairingToken where
  token : PairingToken
  expiresUnix : UnixTime
deriving DecidableEq

structure PairingTokens where
  tokens : List IssuedPairingToken := []
deriving DecidableEq

/-- `ConstantTimeDifference` of a span as long as a token: zero when they are equal. -/
def constantTimeDifference (a : Bytes) (b : PairingToken) : UInt8 :=
  (List.zipWith (· ^^^ ·) a b.val).foldl (· ||| ·) 0

namespace PairingTokens

def expire (s : PairingTokens) (nowUnix : UnixTime) : PairingTokens × Nat :=
  let kept := s.tokens.filter fun issued => !(issued.expiresUnix ≤ nowUnix)
  ({ s with tokens := kept }, s.tokens.length - kept.length)

def issue (s : PairingTokens) (token : PairingToken) (expiresUnix nowUnix : UnixTime) :
    PairingTokens × Bool :=
  let s := (s.expire nowUnix).1
  if token.isZero ∨ expiresUnix ≤ nowUnix then (s, false)
  else if s.tokens.any fun issued => issued.token = token then (s, false)
  else
    let kept :=
      if kMaxPairingTokens ≤ s.tokens.length then
        s.tokens.eraseIdx (minElement (fun a b => a.expiresUnix < b.expiresUnix) s.tokens)
      else s.tokens
    ({ s with tokens := kept ++ [⟨token, expiresUnix⟩] }, true)

/-- The loop of `Consume` over the places `i …`: the last match, else what it started with. -/
def matchFrom (presented : Bytes) : Nat → Nat → List IssuedPairingToken → Nat
  | _, matched, [] => matched
  | i, matched, issued :: rest =>
    let difference := constantTimeDifference presented issued.token
    let same := if difference = 0 then 1 else 0
    matchFrom presented (i + 1) (same * i + (1 - same) * matched) rest

def consume (s : PairingTokens) (presented : Bytes) (nowUnix : UnixTime) : PairingTokens × Bool :=
  let s := (s.expire nowUnix).1
  if presented.length ≠ kPairingTokenBytes then (s, false)
  else
    let matched := matchFrom presented 0 s.tokens.length s.tokens
    if matched = s.tokens.length then (s, false)
    else ({ s with tokens := s.tokens.eraseIdx matched }, true)

def clear (_ : PairingTokens) : PairingTokens := {}

end PairingTokens

/-- A line of the file: the token and the expiry. -/
def parsePairingTokenLine (line : Bytes) : Option (PairingToken × UnixTime) :=
  if kMaxPairingTokenLineBytes < line.length then none
  else
    match line.idxOf? 32 with
    | none => none
    | some space =>
      match decodeBase64 (line.take space) .url, parseUnixTime (line.drop (space + 1)) with
      | some bytes, some expiresUnix =>
        if h : bytes.length = kPairingTokenBytes then some (⟨bytes, h⟩, expiresUnix) else none
      | _, _ => none

/-- The loop of `ParsePairingTokens` over the lines. -/
def parsePairingTokenLines (nowUnix : UnixTime) : PairingTokens → List Bytes → Option PairingTokens
  | tokens, [] => some tokens
  | tokens, line :: lines =>
    let line := dropCarriageReturn line
    if line = [] then parsePairingTokenLines nowUnix tokens lines
    else
      match parsePairingTokenLine line with
      | none => none
      | some (token, expiresUnix) =>
        if expiresUnix ≤ nowUnix then parsePairingTokenLines nowUnix tokens lines
        else
          let issued := tokens.issue token expiresUnix nowUnix
          if issued.2 then parsePairingTokenLines nowUnix issued.1 lines else none

def parsePairingTokens (text : Bytes) (nowUnix : UnixTime) : Option PairingTokens :=
  if kMaxPairingTokensFileBytes < text.length then none
  else parsePairingTokenLines nowUnix {} (splitLines text)

def pairingTokenLine (issued : IssuedPairingToken) : Bytes :=
  encodeBase64 issued.token.val .url .none ++ [32] ++ timeText issued.expiresUnix

def serializePairingTokens (tokens : PairingTokens) : Bytes :=
  (tokens.tokens.map fun issued => pairingTokenLine issued ++ [10]).flatten

/-! ## Finding a token -/

theorem foldl_or_eq_zero {xs : Bytes} {acc : UInt8} :
    xs.foldl (· ||| ·) acc = 0 ↔ acc = 0 ∧ ∀ x ∈ xs, x = 0 := by
  induction xs generalizing acc with
  | nil => simp
  | cons x xs ih =>
    rw [List.foldl_cons, ih, UInt8.or_eq_zero_iff]
    simp only [List.forall_mem_cons, and_assoc]

/-- The difference of two strings of one length is zero exactly when they are equal. -/
theorem constantTimeDifference_eq_zero {a : Bytes} {b : PairingToken}
    (h : a.length = kPairingTokenBytes) : constantTimeDifference a b = 0 ↔ a = b.val := by
  have hgen : ∀ (xs ys : Bytes), xs.length = ys.length →
      ((∀ x ∈ List.zipWith (· ^^^ ·) xs ys, x = 0) ↔ xs = ys) := by
    intro xs
    induction xs with
    | nil =>
      intro ys hlen
      have hnil : ys = [] := List.length_eq_zero_iff.mp hlen.symm
      simp [hnil]
    | cons x xs ih =>
      intro ys hlen
      cases ys with
      | nil => cases hlen
      | cons y ys =>
        rw [List.zipWith_cons_cons, List.forall_mem_cons, ih ys (Nat.succ.inj hlen),
          UInt8.xor_eq_zero_iff, List.cons.injEq]
  unfold constantTimeDifference
  rw [foldl_or_eq_zero, hgen a b.val (h.trans b.property.symm)]
  exact and_iff_right rfl

namespace PairingTokens

theorem matchFrom_append (presented : Bytes) (i matched : Nat) (xs ys : List IssuedPairingToken) :
    matchFrom presented i matched (xs ++ ys) =
      matchFrom presented (i + xs.length) (matchFrom presented i matched xs) ys := by
  induction xs generalizing i matched with
  | nil => rfl
  | cons x xs ih =>
    rw [List.cons_append, matchFrom, ih, matchFrom, List.length_cons, Nat.add_right_comm, Nat.add_assoc]

section Presented

variable {presented : Bytes} (hlen : presented.length = kPairingTokenBytes)

include hlen

theorem matchFrom_none {tokens : List IssuedPairingToken}
    (h : ∀ issued ∈ tokens, issued.token.val ≠ presented) (i matched : Nat) :
    matchFrom presented i matched tokens = matched := by
  induction tokens generalizing i with
  | nil => rfl
  | cons issued tokens ih =>
    have hother : ¬ constantTimeDifference presented issued.token = 0 := by
      rw [constantTimeDifference_eq_zero hlen]
      exact fun heq => h issued List.mem_cons_self heq.symm
    rw [matchFrom, if_neg hother]
    rw [Nat.zero_mul, Nat.zero_add, Nat.sub_zero, Nat.one_mul]
    exact ih (fun x hx => h x (List.mem_cons_of_mem issued hx)) (i + 1)

theorem matchFrom_some {front back : List IssuedPairingToken} {issued : IssuedPairingToken}
    (hmatch : issued.token.val = presented) (hback : ∀ x ∈ back, x.token.val ≠ presented)
    (matched : Nat) :
    matchFrom presented 0 matched (front ++ issued :: back) = front.length := by
  have hsame : constantTimeDifference presented issued.token = 0 :=
    (constantTimeDifference_eq_zero hlen).mpr hmatch.symm
  rw [matchFrom_append, matchFrom, if_pos hsame]
  rw [matchFrom_none hlen hback, Nat.one_mul, Nat.sub_self, Nat.zero_mul, Nat.zero_add, Nat.add_zero]

end Presented

/-- A token is consumed exactly when it is among those left after the expiry, and then it
is the one that goes. -/
theorem consume_spec (s : PairingTokens) (presented : Bytes) (nowUnix : UnixTime)
    (hnodup : (s.tokens.map (·.token)).Nodup) :
    s.consume presented nowUnix = ((s.expire nowUnix).1, false) ∨
      ∃ front issued back, (s.expire nowUnix).1.tokens = front ++ issued :: back ∧
        issued.token.val = presented ∧
        s.consume presented nowUnix = ({ tokens := front ++ back }, true) := by
  have hkept : ((s.expire nowUnix).1.tokens.map (·.token)).Nodup :=
    (List.filter_sublist.map _).nodup hnodup
  unfold consume
  generalize (s.expire nowUnix).1 = t at hkept ⊢
  dsimp only
  split
  · exact .inl rfl
  · next hlen =>
    rw [not_not] at hlen
    by_cases hany : ∃ issued ∈ t.tokens, issued.token.val = presented
    · right
      rcases hany with ⟨issued, hmem, hmatch⟩
      rcases List.append_of_mem hmem with ⟨front, back, hsplit⟩
      have hback : ∀ x ∈ back, x.token.val ≠ presented := by
        intro x hx heq
        rw [hsplit, List.map_append, List.map_cons] at hkept
        have hfresh := (List.nodup_cons.mp (List.nodup_append.mp hkept).2.1).1
        apply hfresh
        rw [show issued.token = x.token from Subtype.ext (hmatch.trans heq.symm)]
        exact List.mem_map_of_mem hx
      refine ⟨front, issued, back, hsplit, hmatch, ?_⟩
      rw [hsplit, matchFrom_some hlen hmatch hback, if_neg, List.eraseIdx_append_of_length_le
        (Nat.le_refl _), Nat.sub_self]
      · rfl
      · rw [List.length_append, List.length_cons]
        omega
    · left
      push Not at hany
      rw [matchFrom_none hlen hany, if_pos rfl]

/-- What an issue leaves: the tokens after the expiry, or all but one of them and the new
one behind. -/
theorem issue_spec (s : PairingTokens) (token : PairingToken) (expiresUnix nowUnix : UnixTime) :
    s.issue token expiresUnix nowUnix = ((s.expire nowUnix).1, false) ∨
      ∃ kept : List IssuedPairingToken, kept.Sublist (s.expire nowUnix).1.tokens ∧
        (kept.length < kMaxPairingTokens ∨ kMaxPairingTokens < (s.expire nowUnix).1.tokens.length) ∧
        ((s.expire nowUnix).1.tokens.length < kMaxPairingTokens →
          kept = (s.expire nowUnix).1.tokens) ∧
        token.isZero = false ∧ nowUnix < expiresUnix ∧ (∀ issued ∈ kept, issued.token ≠ token) ∧
        s.issue token expiresUnix nowUnix =
          ({ tokens := kept ++ [⟨token, expiresUnix⟩] }, true) := by
  unfold issue
  generalize (s.expire nowUnix).1 = t
  dsimp only
  split
  · exact .inl rfl
  · next hvalid =>
    push Not at hvalid
    split
    · exact .inl rfl
    · next hnew =>
      right
      have hfresh : ∀ issued ∈ t.tokens, issued.token ≠ token := by
        intro issued hmem heq
        exact hnew (List.any_eq_true.mpr ⟨issued, hmem, decide_eq_true heq⟩)
      have hlater : nowUnix < expiresUnix := Int64.not_le.mp hvalid.2
      have hnonzero : token.isZero = false := Bool.eq_false_of_not_eq_true hvalid.1
      by_cases hfull : kMaxPairingTokens ≤ t.tokens.length
      · rw [if_pos hfull]
        have hne : t.tokens ≠ [] := by
          rintro hnil
          rw [hnil] at hfull
          exact absurd hfull (by decide)
        have hplace := @minElement_lt _ (fun a b => decide (a.expiresUnix < b.expiresUnix)) _ hne
        refine ⟨_, List.eraseIdx_sublist _ _, ?_, ?_, hnonzero, hlater, ?_, rfl⟩
        · rw [List.length_eraseIdx_of_lt hplace]
          omega
        · intro hroom
          omega
        · intro issued hmem
          exact hfresh issued (List.mem_of_mem_eraseIdx hmem)
      · rw [if_neg hfull]
        exact ⟨_, List.Sublist.refl _, .inl (Nat.not_le.mp hfull), fun _ => rfl, hnonzero, hlater,
          hfresh, rfl⟩

end PairingTokens

/-!
## A pairing token is spent once

The runs of `PairingTokens`, with the file among the steps: what was issued and what was
consumed, and the tokens that are live.
-/

namespace PairingTokens

/-- The calls; `reload` replaces the tokens by what their file reads back as. -/
inductive Call where
  | issue (token : PairingToken) (expiresUnix nowUnix : UnixTime)
  | consume (presented : Bytes) (nowUnix : UnixTime)
  | expire (nowUnix : UnixTime)
  | clear
  | reload (nowUnix : UnixTime)

/-- The clock of a call, where it has one, is not negative. -/
def Call.ClockOk : Call → Prop
  | .issue _ _ nowUnix => 0 ≤ nowUnix.toInt
  | .consume _ nowUnix => 0 ≤ nowUnix.toInt
  | .expire nowUnix => 0 ≤ nowUnix.toInt
  | .clear => True
  | .reload nowUnix => 0 ≤ nowUnix.toInt

/-- The successful calls. -/
inductive Event where
  | issued (token : Bytes) (expiresUnix : UnixTime)
  | consumed (token : Bytes) (nowUnix : UnixTime)
deriving DecidableEq

def machine : Machine PairingTokens Call Event where
  step
    | s, .issue token expiresUnix nowUnix =>
        ((s.issue token expiresUnix nowUnix).1,
          if (s.issue token expiresUnix nowUnix).2 then [.issued token.val expiresUnix] else [])
    | s, .consume presented nowUnix =>
        ((s.consume presented nowUnix).1,
          if (s.consume presented nowUnix).2 then [.consumed presented nowUnix] else [])
    | s, .expire nowUnix => ((s.expire nowUnix).1, [])
    | s, .clear => (s.clear, [])
    | s, .reload nowUnix =>
        ((parsePairingTokens (serializePairingTokens s) nowUnix).getD {}, [])

def issuedTokens (events : List Event) : List Bytes :=
  events.filterMap fun
    | .issued token _ => some token
    | _ => none

def consumedTokens (events : List Event) : List Bytes :=
  events.filterMap fun
    | .consumed token _ => some token
    | _ => none

/-- The expiry a token was last issued with. -/
def lastExpiry (token : Bytes) (events : List Event) : Option UnixTime :=
  (events.filterMap fun
    | .issued t expiresUnix => if t = token then some expiresUnix else none
    | _ => none).getLast?

theorem issuedTokens_append (xs ys : List Event) :
    issuedTokens (xs ++ ys) = issuedTokens xs ++ issuedTokens ys :=
  List.filterMap_append

theorem consumedTokens_append (xs ys : List Event) :
    consumedTokens (xs ++ ys) = consumedTokens xs ++ consumedTokens ys :=
  List.filterMap_append

theorem lastExpiry_issued_self (token : Bytes) (expiresUnix : UnixTime) (events : List Event) :
    lastExpiry token (events ++ [.issued token expiresUnix]) = some expiresUnix := by
  unfold lastExpiry
  rw [List.filterMap_append]
  simp

theorem lastExpiry_issued_ne {token other : Bytes} (h : other ≠ token) (expiresUnix : UnixTime)
    (events : List Event) :
    lastExpiry token (events ++ [.issued other expiresUnix]) = lastExpiry token events := by
  unfold lastExpiry
  rw [List.filterMap_append]
  simp [h]

theorem lastExpiry_consumed (token other : Bytes) (nowUnix : UnixTime) (events : List Event) :
    lastExpiry token (events ++ [.consumed other nowUnix]) = lastExpiry token events := by
  unfold lastExpiry
  rw [List.filterMap_append]
  simp

/-! ## The invariant -/

/-- What holds of the live tokens, given what was issued and consumed. -/
structure Accounts (s : PairingTokens) (events : List Event) : Prop where
  nodup : (s.tokens.map (·.token)).Nodup
  few : s.tokens.length ≤ kMaxPairingTokens
  live : ∀ issued ∈ s.tokens, issued.token.isZero = false ∧
    lastExpiry issued.token.val events = some issued.expiresUnix ∧ 0 ≤ issued.expiresUnix.toInt
  balance : ∀ token, (consumedTokens events).count token +
    (s.tokens.map (·.token.val)).count token ≤ (issuedTokens events).count token

/-- Tokens may be dropped at any time. -/
theorem Accounts.of_sublist {s s' : PairingTokens} {events : List Event} (h : s.Accounts events)
    (hsub : s'.tokens.Sublist s.tokens) : s'.Accounts events := by
  constructor
  · exact (hsub.map _).nodup h.nodup
  · exact Nat.le_trans hsub.length_le h.few
  · intro issued hmem
    exact h.live issued (hsub.subset hmem)
  · intro token
    have hcount := (hsub.map (·.token.val)).count_le token
    have hbalance := h.balance token
    omega

theorem expire_sublist (s : PairingTokens) (nowUnix : UnixTime) :
    (s.expire nowUnix).1.tokens.Sublist s.tokens :=
  List.filter_sublist

theorem expire_live {s : PairingTokens} {nowUnix : UnixTime} {issued : IssuedPairingToken}
    (h : issued ∈ (s.expire nowUnix).1.tokens) : nowUnix < issued.expiresUnix := by
  have hkept := (List.mem_filter.mp h).2
  rw [Bool.not_eq_true', decide_eq_false_iff_not] at hkept
  exact Int64.not_le.mp hkept

/-- A new token behind some of the live ones. -/
theorem Accounts.issued {s : PairingTokens} {events : List Event} (h : s.Accounts events)
    {kept : List IssuedPairingToken} (hsub : kept.Sublist s.tokens)
    (hroom : kept.length < kMaxPairingTokens) {token : PairingToken} {expiresUnix : UnixTime}
    (hnonzero : token.isZero = false) (hexpires : 0 ≤ expiresUnix.toInt)
    (hfresh : ∀ issued ∈ kept, issued.token ≠ token) :
    ({ tokens := kept ++ [⟨token, expiresUnix⟩] } : PairingTokens).Accounts
      (events ++ [.issued token.val expiresUnix]) := by
  have hkept : ({ tokens := kept } : PairingTokens).Accounts events := h.of_sublist hsub
  constructor
  · show (List.map _ (kept ++ _)).Nodup
    rw [List.map_append, List.nodup_append]
    refine ⟨hkept.nodup, List.nodup_singleton _, ?_⟩
    intro t ht u hu heq
    rcases List.mem_map.mp ht with ⟨issued, hmem, rfl⟩
    rw [List.map_singleton, List.mem_singleton] at hu
    exact hfresh issued hmem (heq.trans hu)
  · show (kept ++ _).length ≤ _
    rw [List.length_append, List.length_singleton]
    exact hroom
  · intro issued hmem
    rcases List.mem_append.mp hmem with hold | hnew
    · have hlive := hkept.live issued hold
      have hne : token.val ≠ issued.token.val := by
        intro heq
        exact hfresh issued hold (Subtype.ext heq.symm)
      rw [lastExpiry_issued_ne hne]
      exact hlive
    · rw [List.mem_singleton.mp hnew]
      exact ⟨hnonzero, lastExpiry_issued_self _ _ _, hexpires⟩
  · intro t
    have hbalance := hkept.balance t
    rw [consumedTokens_append, issuedTokens_append, List.count_append, List.count_append]
    show _ + (List.map _ (kept ++ _)).count t ≤ _
    rw [List.map_append, List.count_append]
    show _ + 0 + (_ + [token.val].count t) ≤ _ + [token.val].count t
    dsimp only at hbalance
    omega

/-- A live token leaves as it is consumed. -/
theorem Accounts.consumed {front back : List IssuedPairingToken} {issued : IssuedPairingToken}
    {events : List Event}
    (h : ({ tokens := front ++ issued :: back } : PairingTokens).Accounts events)
    (nowUnix : UnixTime) :
    ({ tokens := front ++ back } : PairingTokens).Accounts
      (events ++ [.consumed issued.token.val nowUnix]) := by
  have hrest : ({ tokens := front ++ back } : PairingTokens).Accounts events :=
    h.of_sublist ((List.Sublist.refl front).append (List.sublist_cons_self issued back))
  refine ⟨hrest.nodup, hrest.few, ?_, ?_⟩
  · intro other hmem
    rw [lastExpiry_consumed]
    exact hrest.live other hmem
  · intro t
    have hbalance := h.balance t
    rw [consumedTokens_append, issuedTokens_append, List.count_append, List.count_append]
    dsimp only at hbalance ⊢
    rw [List.map_append, List.map_cons, List.count_append, List.count_cons] at hbalance
    rw [List.map_append, List.count_append]
    show _ + [issued.token.val].count t + _ ≤ _ + 0
    rw [List.count_singleton]
    omega

/-! ## The file -/

/-- A line reads back as the token it was written for. -/
theorem parsePairingTokenLine_line {issued : IssuedPairingToken}
    (h : 0 ≤ issued.expiresUnix.toInt) :
    parsePairingTokenLine (pairingTokenLine issued) = some (issued.token, issued.expiresUnix) ∧
      pairingTokenLine issued ≠ [] ∧ (pairingTokenLine issued).length ≤ 63 ∧
      ∀ c ∈ pairingTokenLine issued, c ≠ 10 ∧ c ≠ 13 := by
  rcases Base64.encodeBase64_none issued.token.val .url with ⟨hvisible, -, hlength⟩
  rcases parseUnixTime_timeText h with ⟨htime, hparse⟩
  have htoken : issued.token.val.length = 32 := issued.token.property
  have hne : issued.token.val ≠ [] := by
    rw [← List.length_pos_iff, htoken]
    decide
  have hdigits := decimal_digits issued.expiresUnix.toInt.natAbs
  have htimeLen : (timeText issued.expiresUnix).length ≤ 19 := by
    have hfit := issued.expiresUnix.toInt_lt
    rw [htime]
    exact length_decimal_le (by decide) (by omega)
  generalize htext : encodeBase64 issued.token.val .url .none = text at hvisible hlength
  have hdecode : decodeBase64 text .url = some issued.token.val := by
    rw [← htext]
    exact decodeBase64_encodeBase64 hne .url .none
  have hline : pairingTokenLine issued = text ++ 32 :: timeText issued.expiresUnix := by
    unfold pairingTokenLine
    rw [htext, List.append_assoc]
    rfl
  have hlineLen : (text ++ 32 :: timeText issued.expiresUnix).length ≤ 63 := by
    rw [List.length_append, List.length_cons]
    omega
  have hspace : (text ++ 32 :: timeText issued.expiresUnix).idxOf? 32 = some text.length :=
    idxOf?_append_cons (ne_of_visible hvisible) _
  rw [hline]
  refine ⟨?_, ?_, hlineLen, ?_⟩
  · unfold parsePairingTokenLine
    rw [if_neg (by unfold kMaxPairingTokenLineBytes; omega), hspace]
    dsimp only
    rw [List.take_left, ← List.drop_drop, List.drop_left, List.drop_one, List.tail_cons, hdecode,
      hparse]
    dsimp only
    rw [dif_pos issued.token.property]
  · exact List.append_ne_nil_of_right_ne_nil _ (List.cons_ne_nil _ _)
  · intro c hc
    rcases List.mem_append.mp hc with hfront | hrest
    · have hlow := hvisible c hfront
      constructor
      · rintro rfl
        exact absurd hlow (by decide)
      · rintro rfl
        exact absurd hlow (by decide)
    · rcases List.mem_cons.mp hrest with hspace | hdigit
      · rw [hspace]
        decide
      · rw [htime] at hdigit
        have hlow := (hdigits c hdigit).1
        constructor
        · rintro rfl
          exact absurd hlow (by decide)
        · rintro rfl
          exact absurd hlow (by decide)

/-- Reading lines of distinct tokens adds those that have not expired. -/
theorem parsePairingTokenLines_lines {nowUnix : UnixTime} (rest : List IssuedPairingToken) :
    ∀ front : List IssuedPairingToken, (∀ issued ∈ front, nowUnix < issued.expiresUnix) →
      ((front ++ rest).map (·.token)).Nodup → (front ++ rest).length ≤ kMaxPairingTokens →
      (∀ issued ∈ rest, issued.token.isZero = false ∧ 0 ≤ issued.expiresUnix.toInt) →
      parsePairingTokenLines nowUnix { tokens := front } (rest.map pairingTokenLine) =
        some { tokens := front ++ rest.filter fun issued => !(issued.expiresUnix ≤ nowUnix) } := by
  induction rest with
  | nil =>
    intro front _ _ _ _
    rw [List.filter_nil, List.append_nil]
    rfl
  | cons issued rest ih =>
    intro front hfront hnodup hfew hrest
    rcases hrest issued List.mem_cons_self with ⟨hnonzero, hexpires⟩
    rcases parsePairingTokenLine_line hexpires with ⟨hparse, hne, -, hbytes⟩
    have hrest' : ∀ x ∈ rest, x.token.isZero = false ∧ 0 ≤ x.expiresUnix.toInt :=
      fun x hx => hrest x (List.mem_cons_of_mem issued hx)
    rw [List.map_cons, parsePairingTokenLines,
      dropCarriageReturn_of_ne fun c hc => (hbytes c hc).2]
    dsimp only
    rw [if_neg hne, hparse]
    dsimp only
    by_cases hexpired : issued.expiresUnix ≤ nowUnix
    · rw [if_pos hexpired, List.filter_cons_of_neg (by rw [decide_eq_true hexpired]; decide)]
      apply ih front hfront _ _ hrest'
      · exact (((List.Sublist.refl front).append (List.sublist_cons_self issued rest)).map _).nodup
          hnodup
      · rw [List.length_append, List.length_cons] at hfew
        rw [List.length_append]
        omega
    · rw [if_neg hexpired, List.filter_cons_of_pos (by rw [decide_eq_false hexpired]; rfl)]
      have hkept : ({ tokens := front } : PairingTokens).expire nowUnix =
          ({ tokens := front }, 0) := by
        have hall : front.filter (fun issued => !(issued.expiresUnix ≤ nowUnix)) = front := by
          apply List.filter_eq_self.mpr
          intro x hx
          rw [Bool.not_eq_true', decide_eq_false_iff_not]
          exact Int64.not_le.mpr (hfront x hx)
        unfold expire
        dsimp only
        rw [hall, Nat.sub_self]
      have hfresh : ∀ x ∈ front, x.token ≠ issued.token := by
        intro x hx heq
        rw [List.map_append, List.map_cons, List.nodup_append] at hnodup
        exact hnodup.2.2 x.token (List.mem_map_of_mem hx) issued.token List.mem_cons_self heq
      have hissue : ({ tokens := front } : PairingTokens).issue issued.token issued.expiresUnix
          nowUnix = ({ tokens := front ++ [issued] }, true) := by
        unfold issue
        rw [hkept]
        dsimp only
        rw [if_neg, if_neg, if_neg]
        · rw [List.length_append, List.length_cons] at hfew
          omega
        · intro hany
          rcases List.any_eq_true.mp hany with ⟨x, hx, hsame⟩
          exact hfresh x hx (of_decide_eq_true hsame)
        · rw [hnonzero]
          exact not_or.mpr ⟨Bool.false_ne_true, hexpired⟩
      rw [hissue]
      dsimp only
      have hjoin : front ++ issued :: rest = (front ++ [issued]) ++ rest := by
        rw [List.append_assoc]
        rfl
      rw [hjoin] at hnodup hfew
      rw [ih (front ++ [issued]) _ hnodup hfew hrest', List.append_assoc]
      · rfl
      · intro x hx
        rcases List.mem_append.mp hx with hold | hnew
        · exact hfront x hold
        · rw [List.mem_singleton.mp hnew]
          exact Int64.not_le.mp hexpired

/-- What was saved reads back as the tokens that have not expired, in the same order. -/
theorem Accounts.reload {s : PairingTokens} {events : List Event} (h : s.Accounts events)
    (nowUnix : UnixTime) :
    parsePairingTokens (serializePairingTokens s) nowUnix = some (s.expire nowUnix).1 := by
  have hlines : ∀ issued ∈ s.tokens, (pairingTokenLine issued).length ≤ 63 ∧
      ∀ c ∈ pairingTokenLine issued, c ≠ 10 := by
    intro issued hmem
    rcases parsePairingTokenLine_line (h.live issued hmem).2.2 with ⟨-, -, hlen, hbytes⟩
    exact ⟨hlen, fun c hc => (hbytes c hc).1⟩
  have htext : serializePairingTokens s =
      ((s.tokens.map pairingTokenLine).map (· ++ [10])).flatten := by
    unfold serializePairingTokens
    rw [List.map_map]
    rfl
  have hlen := length_lines_le fun issued hmem => (hlines issued hmem).1
  have hfew := h.few
  rw [← htext] at hlen
  unfold parsePairingTokens
  rw [if_neg (by unfold kMaxPairingTokensFileBytes; unfold kMaxPairingTokens at hfew; omega), htext,
    splitLines_flatten]
  · exact parsePairingTokenLines_lines s.tokens [] (fun x hx => absurd hx List.not_mem_nil)
      h.nodup h.few fun issued hmem => ⟨(h.live issued hmem).1, (h.live issued hmem).2.2⟩
  · intro line hline
    rcases List.mem_map.mp hline with ⟨issued, hmem, rfl⟩
    exact (hlines issued hmem).2

/-! ## Runs -/

/-- Every consumption of a run was of a token issued before it, in time, and not zero. -/
def SpentInTime (events : List Event) : Prop :=
  ∀ before token nowUnix after, events = before ++ .consumed token nowUnix :: after →
    (∃ b ∈ token, b ≠ 0) ∧ ∃ expiresUnix, lastExpiry token before = some expiresUnix ∧
      nowUnix < expiresUnix

theorem spentInTime_append_issued {events : List Event} (h : SpentInTime events) (token : Bytes)
    (expiresUnix : UnixTime) : SpentInTime (events ++ [.issued token expiresUnix]) := by
  intro before t nowUnix after hsplit
  rcases List.eq_nil_or_concat after with rfl | ⟨after', last, rfl⟩
  · rcases List.append_inj' hsplit rfl with ⟨-, hlast⟩
    cases hlast
  · rw [List.concat_eq_append, ← List.cons_append, ← List.append_assoc] at hsplit
    exact h before t nowUnix after' (List.append_inj' hsplit rfl).1

theorem spentInTime_append_consumed {events : List Event} (h : SpentInTime events) {token : Bytes}
    {nowUnix : UnixTime} (hnonzero : ∃ b ∈ token, b ≠ 0)
    (hlive : ∃ expiresUnix, lastExpiry token events = some expiresUnix ∧ nowUnix < expiresUnix) :
    SpentInTime (events ++ [.consumed token nowUnix]) := by
  intro before t now after hsplit
  rcases List.eq_nil_or_concat after with rfl | ⟨after', last, rfl⟩
  · rcases List.append_inj' hsplit rfl with ⟨hfront, hlast⟩
    cases hlast
    rw [← hfront]
    exact ⟨hnonzero, hlive⟩
  · rw [List.concat_eq_append, ← List.cons_append, ← List.append_assoc] at hsplit
    exact h before t now after' (List.append_inj' hsplit rfl).1

theorem accounts_run (calls : List Call) (hclock : ∀ c ∈ calls, c.ClockOk) :
    (machine.run {} calls).1.Accounts (machine.run {} calls).2 ∧
      SpentInTime (machine.run {} calls).2 := by
  induction calls using List.reverseRecOn with
  | nil =>
    constructor
    · refine ⟨List.nodup_nil, Nat.zero_le _, ?_, fun _ => Nat.le_refl 0⟩
      intro issued hmem
      exact absurd hmem List.not_mem_nil
    · intro before token nowUnix after hsplit
      exact absurd hsplit (by simp)
  | append_singleton calls c ih =>
    rcases ih fun d hd => hclock d (List.mem_append_left _ hd) with ⟨haccounts, hspent⟩
    have hnow := hclock c (List.mem_append_right _ (List.mem_singleton_self c))
    rw [Machine.run_concat]
    generalize (machine.run {} calls).1 = s at haccounts ⊢
    generalize (machine.run {} calls).2 = events at haccounts hspent ⊢
    have hexpired := fun nowUnix => haccounts.of_sublist (s.expire_sublist nowUnix)
    cases c with
    | issue token expiresUnix nowUnix =>
      show (s.issue token expiresUnix nowUnix).1.Accounts (events ++ if _ then _ else _) ∧
        SpentInTime (events ++ if _ then _ else _)
      rcases s.issue_spec token expiresUnix nowUnix with
        hrefused | ⟨kept, hsub, hroom, -, hnonzero, hlater, hfresh, hissue⟩
      · rw [hrefused, if_neg Bool.false_ne_true, List.append_nil]
        exact ⟨hexpired nowUnix, hspent⟩
      · rw [hissue, if_pos rfl]
        have hfew := (hexpired nowUnix).few
        constructor
        · apply (hexpired nowUnix).issued hsub (by omega) hnonzero _ hfresh
          have hnow' : 0 ≤ nowUnix.toInt := hnow
          rw [Int64.lt_iff_toInt_lt] at hlater
          omega
        · exact spentInTime_append_issued hspent _ _
    | consume presented nowUnix =>
      show (s.consume presented nowUnix).1.Accounts (events ++ if _ then _ else _) ∧
        SpentInTime (events ++ if _ then _ else _)
      rcases s.consume_spec presented nowUnix haccounts.nodup with
        hrefused | ⟨front, issued, back, hsplit, hmatch, hconsume⟩
      · rw [hrefused, if_neg Bool.false_ne_true, List.append_nil]
        exact ⟨hexpired nowUnix, hspent⟩
      · rw [hconsume, if_pos rfl, ← hmatch]
        have hbefore := hexpired nowUnix
        have hmem : issued ∈ (s.expire nowUnix).1.tokens := by
          rw [hsplit]
          exact List.mem_append_right _ List.mem_cons_self
        rcases hbefore.live issued hmem with ⟨hnonzero, hlast, -⟩
        constructor
        · have hsame : (s.expire nowUnix).1 = { tokens := front ++ issued :: back } := by
            rw [← hsplit]
          rw [hsame] at hbefore
          exact hbefore.consumed nowUnix
        · apply spentInTime_append_consumed hspent
          · have hsome : ¬ issued.token.val.all (· = 0) = true := by
              rw [← PairingToken.isZero, hnonzero]
              exact Bool.false_ne_true
            rw [List.all_eq_true] at hsome
            push Not at hsome
            rcases hsome with ⟨b, hb, hne⟩
            exact ⟨b, hb, by simpa using hne⟩
          · exact ⟨issued.expiresUnix, hlast, expire_live hmem⟩
    | expire nowUnix =>
      show (s.expire nowUnix).1.Accounts (events ++ []) ∧ SpentInTime (events ++ [])
      rw [List.append_nil]
      exact ⟨hexpired nowUnix, hspent⟩
    | clear =>
      show s.clear.Accounts (events ++ []) ∧ SpentInTime (events ++ [])
      rw [List.append_nil]
      exact ⟨haccounts.of_sublist (List.nil_sublist _), hspent⟩
    | reload nowUnix =>
      show ((parsePairingTokens (serializePairingTokens s) nowUnix).getD {}).Accounts (events ++ []) ∧
        SpentInTime (events ++ [])
      rw [List.append_nil, haccounts.reload nowUnix]
      exact ⟨hexpired nowUnix, hspent⟩

end PairingTokens

/-- In every run of issues, consumptions, expiries, clears and reloads of the saved file: a
token is consumed at most as often as it was issued, each time before the expiry it was last
issued with, and never the zero token; the live tokens are few and distinct; and the file
saved at any time reads back as the tokens that have not expired. -/
theorem pairingTokens_spentOnce (calls : List PairingTokens.Call)
    (hclock : ∀ c ∈ calls, c.ClockOk) :
    (∀ token, (PairingTokens.consumedTokens (PairingTokens.machine.run {} calls).2).count token ≤
        (PairingTokens.issuedTokens (PairingTokens.machine.run {} calls).2).count token) ∧
      PairingTokens.SpentInTime (PairingTokens.machine.run {} calls).2 ∧
      (PairingTokens.machine.run {} calls).1.tokens.length ≤ kMaxPairingTokens ∧
      ((PairingTokens.machine.run {} calls).1.tokens.map (·.token)).Nodup ∧
      ∀ nowUnix, parsePairingTokens (serializePairingTokens (PairingTokens.machine.run {} calls).1)
          nowUnix = some ((PairingTokens.machine.run {} calls).1.expire nowUnix).1 := by
  rcases PairingTokens.accounts_run calls hclock with ⟨haccounts, hspent⟩
  refine ⟨?_, hspent, haccounts.few, haccounts.nodup, haccounts.reload⟩
  intro token
  have hbalance := haccounts.balance token
  omega

/-- A token is issued, kept through a reload of its file and consumed; presented again, it is
refused. -/
theorem pairingTokens_spentOnce_reloaded :
    let token : PairingToken := ⟨List.replicate 32 7, rfl⟩
    let calls := [.issue token 1300 1000, .reload 1010, .consume token.val 1020,
      .consume token.val 1030]
    (PairingTokens.machine.run {} calls).2 = [.issued token.val 1300, .consumed token.val 1020] ∧
      ∀ t, (PairingTokens.consumedTokens (PairingTokens.machine.run {} calls).2).count t ≤
        (PairingTokens.issuedTokens (PairingTokens.machine.run {} calls).2).count t := by
  intro token calls
  constructor
  · decide +kernel
  · apply (pairingTokens_spentOnce calls _).1
    intro c hc
    simp only [calls, List.mem_cons, List.not_mem_nil, or_false] at hc
    rcases hc with rfl | rfl | rfl | rfl
    all_goals
      unfold PairingTokens.Call.ClockOk
      decide

end Deskhub
