import Deskhub.Lib.Machine
import Deskhub.Net.PublicKeyText
import Mathlib.Data.List.Nodup

/-!
# Authorized keys

`AuthorizedKeys`: the keys that may log in, and the file they are kept in, a line for each. The
file says exactly who is authorized: whatever the labels, a line is read as the key it was written
for, and no line is read as more than one.
-/

namespace Deskhub

def kMaxAuthorizedKeys : Nat := 128
def kMaxAuthorizedKeysFileBytes : Nat := 262144

structure AuthorizedKeys where
  keys : List PublicKeyText := []
deriving DecidableEq

namespace AuthorizedKeys

def contains (s : AuthorizedKeys) (key : PublicKeyText) : Bool := s.keys.any fun stored => sameKey stored key

def add (s : AuthorizedKeys) (key : PublicKeyText) : AuthorizedKeys × Bool :=
  if formatPublicKeyText key = [] ∨ s.contains key = true ∨ kMaxAuthorizedKeys ≤ s.keys.length then (s, false)
  else ({ s with keys := s.keys ++ [key] }, true)

def remove (s : AuthorizedKeys) (key : PublicKeyText) : AuthorizedKeys × Bool :=
  let kept := s.keys.filter fun stored => !sameKey stored key
  if kept.length = s.keys.length then (s, false) else ({ s with keys := kept }, true)

end AuthorizedKeys

/-- A turn of the loop of `ParseAuthorizedKeys`. -/
def readAuthorizedKey (s : AuthorizedKeys) (line : Bytes) : Option AuthorizedKeys :=
  let line := dropCarriageReturn line
  if line = [] ∨ line.head? = some 35 then some s
  else
    match parsePublicKeyText line with
    | none => none
    | some key =>
      let (s, added) := s.add key
      if added then some s else none

def parseAuthorizedKeys (text : Bytes) : Option AuthorizedKeys :=
  if kMaxAuthorizedKeysFileBytes < text.length then none
  else (splitLines text).foldlM readAuthorizedKey {}

/-- The loop of `SerializeAuthorizedKeys` with the text so far. -/
def serializeFrom : Bytes → List PublicKeyText → Bytes
  | out, [] => out
  | out, key :: rest =>
    let line := formatPublicKeyText key
    if line = [] then [] else serializeFrom (out ++ line ++ [10]) rest

def serializeAuthorizedKeys (s : AuthorizedKeys) : Bytes := serializeFrom [] s.keys

namespace AuthorizedKeys

inductive Call where
  | add (key : PublicKeyText)
  | remove (key : PublicKeyText)

/-- The keys with the answers of the calls. -/
def machine : Machine AuthorizedKeys Call Bool where
  step s
    | .add key =>
        let (s, added) := s.add key
        (s, [added])
    | .remove key =>
        let (s, removed) := s.remove key
        (s, [removed])

/-! ## Runs -/

/-- What holds of the keys after any calls. -/
structure Sound (s : AuthorizedKeys) : Prop where
  few : s.keys.length ≤ kMaxAuthorizedKeys
  written : ∀ key ∈ s.keys, formatPublicKeyText key ≠ []
  distinct : (s.keys.map PublicKeyText.identity).Nodup

variable {s : AuthorizedKeys}

theorem contains_eq_false {key : PublicKeyText} :
    s.contains key = false ↔ key.identity ∉ s.keys.map PublicKeyText.identity := by
  unfold contains
  rw [List.any_eq_false, List.mem_map]
  constructor
  · rintro hnone ⟨stored, hstored, hsame⟩
    exact hnone stored hstored (sameKey_iff.mpr hsame)
  · intro hnone stored hstored hsame
    exact hnone ⟨stored, hstored, sameKey_iff.mp hsame⟩

/-- Either nothing changes, or a new key comes last. -/
theorem add_cases (s : AuthorizedKeys) (key : PublicKeyText) :
    s.add key = (s, false) ∨
      (formatPublicKeyText key ≠ [] ∧ key.identity ∉ s.keys.map PublicKeyText.identity ∧
        s.keys.length < kMaxAuthorizedKeys ∧ s.add key = ({ keys := s.keys ++ [key] }, true)) := by
  unfold add
  split
  · exact .inl rfl
  · next hok =>
    push Not at hok
    obtain ⟨hformat, hnew, hroom⟩ := hok
    exact .inr ⟨hformat, contains_eq_false.mp (Bool.eq_false_iff.mpr hnew), hroom, rfl⟩

theorem add_new {key : PublicKeyText} (hformat : formatPublicKeyText key ≠ [])
    (hnew : key.identity ∉ s.keys.map PublicKeyText.identity) (hroom : s.keys.length < kMaxAuthorizedKeys) :
    s.add key = ({ keys := s.keys ++ [key] }, true) := by
  apply if_neg
  rintro (hbad | hheld | hfull)
  · exact hformat hbad
  · rw [contains_eq_false.mpr hnew] at hheld
    contradiction
  · omega

theorem remove_sublist (s : AuthorizedKeys) (key : PublicKeyText) : (s.remove key).1.keys.Sublist s.keys := by
  unfold remove
  dsimp only
  split
  · exact List.Sublist.refl _
  · exact List.filter_sublist

theorem Sound.add (h : s.Sound) (key : PublicKeyText) : (s.add key).1.Sound := by
  rcases s.add_cases key with hsame | ⟨hformat, hnew, hroom, hadded⟩
  · rw [hsame]
    exact h
  · rw [hadded]
    refine ⟨?_, ?_, ?_⟩
    · rw [List.length_append, List.length_singleton]
      omega
    · intro k hk
      rcases List.mem_append.mp hk with hold | hlast
      · exact h.written k hold
      · rw [List.mem_singleton.mp hlast]
        exact hformat
    · rw [List.map_append, List.map_singleton]
      rw [← List.concat_eq_append]
      exact List.Nodup.concat hnew h.distinct

theorem Sound.remove (h : s.Sound) (key : PublicKeyText) : (s.remove key).1.Sound := by
  have hsub := s.remove_sublist key
  exact ⟨Nat.le_trans hsub.length_le h.few, fun k hk => h.written k (hsub.subset hk), (hsub.map _).nodup h.distinct⟩

theorem Sound.step (h : s.Sound) (call : Call) : (machine.step s call).1.Sound := by
  cases call with
  | add key => exact h.add key
  | remove key => exact h.remove key

theorem sound_run (calls : List Call) : (machine.run {} calls).1.Sound := by
  have hinit : ({} : AuthorizedKeys).Sound := by
    refine ⟨Nat.zero_le _, ?_, List.nodup_nil⟩
    intro key hkey
    contradiction
  exact Machine.run_invariant' (fun (s : AuthorizedKeys) _ => s.Sound) hinit (fun _ _ call h => h.step call) calls

/-! ## The file -/

/-- Every key of the file has its line. -/
theorem serializeFrom_eq {keys : List PublicKeyText} (h : ∀ key ∈ keys, formatPublicKeyText key ≠ [])
    (out : Bytes) :
    serializeFrom out keys = out ++ ((keys.map formatPublicKeyText).map (· ++ [10])).flatten := by
  induction keys generalizing out with
  | nil => simp [serializeFrom]
  | cons key keys ih =>
    rw [serializeFrom, if_neg (h key List.mem_cons_self), ih fun k hk => h k (List.mem_cons_of_mem key hk)]
    simp [List.append_assoc]

/-- A line adds its key, with the label trimmed. -/
theorem readAuthorizedKey_line {key : PublicKeyText} (hformat : formatPublicKeyText key ≠ [])
    (hnew : key.identity ∉ s.keys.map PublicKeyText.identity) (hroom : s.keys.length < kMaxAuthorizedKeys) :
    readAuthorizedKey s (formatPublicKeyText key) = some { keys := s.keys ++ [key.trimmed] } := by
  obtain ⟨hlength, hchars, hhead⟩ := formatPublicKeyText_text hformat
  have hreturn : dropCarriageReturn (formatPublicKeyText key) = formatPublicKeyText key := by
    apply dropCarriageReturn_of_ne
    rintro c hc rfl
    exact absurd (hchars 13 hc) (by decide)
  have hread : parsePublicKeyText (formatPublicKeyText key) = some key.trimmed :=
    parsePublicKeyText_of_trim hformat (by unfold kMaxTextBytes; omega) hformat rfl
  unfold readAuthorizedKey
  dsimp only
  rw [hreturn, if_neg, hread]
  · dsimp only
    rw [add_new (formatPublicKeyText_trimmed hformat) hnew hroom]
    rfl
  · rintro (hempty | hcomment)
    · exact hformat hempty
    · rcases hhead 35 hcomment with hbad | hbad
      · contradiction
      · contradiction

/-- The lines of distinct keys add them in their order. -/
theorem readAuthorizedKeys_lines {rest : List PublicKeyText} (hrest : ∀ key ∈ rest, formatPublicKeyText key ≠ [])
    (hdistinct : (s.keys.map PublicKeyText.identity ++ rest.map PublicKeyText.identity).Nodup)
    (hfew : s.keys.length + rest.length ≤ kMaxAuthorizedKeys) :
    (rest.map formatPublicKeyText).foldlM readAuthorizedKey s =
      some { keys := s.keys ++ rest.map PublicKeyText.trimmed } := by
  induction rest generalizing s with
  | nil => simp
  | cons key rest ih =>
    have hnew : key.identity ∉ s.keys.map PublicKeyText.identity := by
      intro hmem
      exact (List.nodup_append.mp hdistinct).2.2 _ hmem _ List.mem_cons_self rfl
    rw [List.length_cons] at hfew
    rw [List.map_cons, List.foldlM_cons, readAuthorizedKey_line (hrest key List.mem_cons_self) hnew (by omega)]
    show (rest.map formatPublicKeyText).foldlM readAuthorizedKey _ = _
    rw [ih fun k hk => hrest k (List.mem_cons_of_mem key hk)]
    · simp
    · -- the label has no part in what keys are the same
      have hsame : key.trimmed.identity = key.identity := rfl
      rw [List.map_append, List.map_singleton, hsame, List.append_assoc, List.singleton_append]
      exact hdistinct
    · rw [List.length_append, List.length_singleton]
      omega

theorem Sound.parse_serialize (h : s.Sound) :
    parseAuthorizedKeys (serializeAuthorizedKeys s) = some { keys := s.keys.map PublicKeyText.trimmed } := by
  have htext : serializeAuthorizedKeys s = ((s.keys.map formatPublicKeyText).map (· ++ [10])).flatten := by
    unfold serializeAuthorizedKeys
    rw [serializeFrom_eq h.written, List.nil_append]
  have hlines : splitLines (serializeAuthorizedKeys s) = s.keys.map formatPublicKeyText := by
    rw [htext]
    apply splitLines_flatten
    intro line hline c hc
    obtain ⟨key, hkey, rfl⟩ := List.mem_map.mp hline
    rintro rfl
    exact absurd ((formatPublicKeyText_text (h.written key hkey)).2.1 10 hc) (by decide)
  have hlength : (serializeAuthorizedKeys s).length ≤ 298 * s.keys.length := by
    rw [htext]
    exact length_lines_le fun key hkey => (formatPublicKeyText_text (h.written key hkey)).1
  have hfew := h.few
  unfold parseAuthorizedKeys
  rw [if_neg, hlines, readAuthorizedKeys_lines h.written]
  · rfl
  · exact h.distinct
  · show 0 + s.keys.length ≤ kMaxAuthorizedKeys
    omega
  · unfold kMaxAuthorizedKeysFileBytes
    unfold kMaxAuthorizedKeys at hfew
    omega

end AuthorizedKeys

/-- The file of the keys that are left after any calls reads back as these keys, each with the
blanks at the ends of its label gone; there are never too many, and never two the same. -/
theorem authorizedKeys_reload (calls : List AuthorizedKeys.Call) :
    let s := (AuthorizedKeys.machine.run {} calls).1
    parseAuthorizedKeys (serializeAuthorizedKeys s) = some { keys := s.keys.map PublicKeyText.trimmed } ∧
      s.keys.length ≤ kMaxAuthorizedKeys ∧ s.keys.Pairwise fun a b => sameKey a b = false := by
  have h := AuthorizedKeys.sound_run calls
  refine ⟨h.parse_serialize, h.few, ?_⟩
  exact (List.pairwise_map.mp h.distinct).imp fun hne => sameKey_eq_false.mpr hne

end Deskhub
