import Deskhub.Lib.Machine
import Deskhub.Session.SecureDesktopWire

/-!
# The control channel of an unattended host

`UnattendedControlServer`: one request on a connection, read byte by byte. A configuration comes
out exactly when the bytes so far are its encoding, and nothing may follow it.
-/

namespace Deskhub

inductive UnattendedAction where
  | needMore | agent | takeover | configure | status | refuse
deriving DecidableEq, Repr

namespace UnattendedControlServer

inductive Stage where
  | request | configLength | configBody | served | refused
deriving DecidableEq, Repr

end UnattendedControlServer

structure UnattendedControlServer where
  stage : UnattendedControlServer.Stage := .request
  pending : Bytes := []
  bodyLength : UInt32 := 0
  config : UnattendedConfig := {}
deriving DecidableEq

namespace UnattendedControlServer

def refuse (s : UnattendedControlServer) : UnattendedControlServer × UnattendedAction :=
  ({ s with stage := .refused, pending := [] }, .refuse)

def startRequest (s : UnattendedControlServer) (byte : UInt8) :
    UnattendedControlServer × UnattendedAction :=
  match decodeSecureDesktopRequest byte with
  | none => s.refuse
  | some .agent => ({ s with stage := .served }, .agent)
  | some .takeover => ({ s with stage := .served }, .takeover)
  | some .status => ({ s with stage := .served }, .status)
  | some .configure => ({ s with stage := .configLength, pending := [] }, .needMore)

def finishConfigLength (s : UnattendedControlServer) : UnattendedControlServer × UnattendedAction :=
  match decodeUnattendedConfigLength s.pending with
  | none => s.refuse
  | some length =>
    ({ s with bodyLength := length, pending := [], stage := .configBody }, .needMore)

def finishConfigBody (s : UnattendedControlServer) : UnattendedControlServer × UnattendedAction :=
  let config := decodeUnattendedConfig s.pending
  let s := { s with pending := [] }
  match config with
  | none => s.refuse
  | some config => ({ s with config := config, stage := .served }, .configure)

/-- The server with one more byte in the buffer, as `Take` leaves it before it looks at the size. -/
def pushed (s : UnattendedControlServer) (byte : UInt8) : UnattendedControlServer :=
  { s with pending := s.pending ++ [byte] }

def take (s : UnattendedControlServer) (byte : UInt8) : UnattendedControlServer × UnattendedAction :=
  match s.stage with
  | .request => s.startRequest byte
  | .configLength =>
    let s := s.pushed byte
    if s.pending.length < kUnattendedConfigLengthSize then (s, .needMore) else s.finishConfigLength
  | .configBody =>
    let s := s.pushed byte
    if s.pending.length < s.bodyLength.toNat then (s, .needMore) else s.finishConfigBody
  | .served => s.refuse
  | .refused => s.refuse

def feed (s : UnattendedControlServer) : Bytes → UnattendedControlServer × UnattendedAction
  | [] => (s, .needMore)
  | byte :: rest =>
    match s.take byte with
    | (s, .needMore) => feed s rest
    | (s, action) =>
      -- an answer is only given to the last byte
      if rest ≠ [] then s.refuse else (s, action)

/-- The sizes the buffer has while `Take` looks at a byte. -/
def takeSizes (s : UnattendedControlServer) (byte : UInt8) : List Nat :=
  match s.stage with
  | .configLength => [s.pending.length, (s.pushed byte).pending.length]
  | .configBody => [s.pending.length, (s.pushed byte).pending.length]
  | .request => [s.pending.length]
  | .served => [s.pending.length]
  | .refused => [s.pending.length]

/-- The sizes the buffer has during a call of `Feed` and after it. -/
def feedSizes (s : UnattendedControlServer) : Bytes → List Nat
  | [] => [s.pending.length]
  | byte :: rest =>
    s.takeSizes byte ++
      match s.take byte with
      | (s, .needMore) => feedSizes s rest
      | (s, _) => [s.pending.length, s.refuse.1.pending.length]

/-- The server as a machine over the calls of `Feed`, with their answers. -/
def machine : Machine UnattendedControlServer Bytes UnattendedAction where
  step s chunk := ((s.feed chunk).1, [(s.feed chunk).2])

/-! ## One byte -/

/-- The server waits: what it was fed is the beginning of a request. -/
inductive Waiting (s : UnattendedControlServer) : Bytes → Prop
  | started (hstage : s.stage = .request) (hpending : s.pending = []) : Waiting s []
  | readingLength (hstage : s.stage = .configLength)
      (hshort : s.pending.length < kUnattendedConfigLengthSize) :
      Waiting s (SecureDesktopRequest.configure.code :: s.pending)
  | readingBody {lengthBytes : Bytes} (hstage : s.stage = .configBody)
      (hlength : decodeUnattendedConfigLength lengthBytes = some s.bodyLength)
      (hshort : s.pending.length < s.bodyLength.toNat) :
      Waiting s (SecureDesktopRequest.configure.code :: (lengthBytes ++ s.pending))

/-- The server has answered: every byte from now on is refused. -/
structure Done (s : UnattendedControlServer) : Prop where
  stage : s.stage = .served ∨ s.stage = .refused
  pending : s.pending = []

theorem done_refuse (s : UnattendedControlServer) : s.refuse.1.Done := ⟨.inr rfl, rfl⟩

theorem refuse_other (s : UnattendedControlServer) :
    s.refuse.2 ≠ .needMore ∧ s.refuse.2 ≠ .configure := by
  show UnattendedAction.refuse ≠ .needMore ∧ UnattendedAction.refuse ≠ .configure
  decide

theorem waiting_fresh : Waiting {} [] := .started rfl rfl

theorem Waiting.not_done {s : UnattendedControlServer} {bytes : Bytes} (h : s.Waiting bytes) :
    ¬ s.Done := by
  intro hdone
  rcases hdone.stage with hstage | hstage
  · cases h with
    | started hstage' _ => exact absurd (hstage.symm.trans hstage') (by decide)
    | readingLength hstage' _ => exact absurd (hstage.symm.trans hstage') (by decide)
    | readingBody hstage' _ _ => exact absurd (hstage.symm.trans hstage') (by decide)
  · cases h with
    | started hstage' _ => exact absurd (hstage.symm.trans hstage') (by decide)
    | readingLength hstage' _ => exact absurd (hstage.symm.trans hstage') (by decide)
    | readingBody hstage' _ _ => exact absurd (hstage.symm.trans hstage') (by decide)

/-- What one byte does to a server that waits. -/
inductive Taken (s : UnattendedControlServer) (bytes : Bytes) (byte : UInt8) : Prop
  | more (hanswer : (s.take byte).2 = .needMore) (hwaiting : (s.take byte).1.Waiting (bytes ++ [byte]))
  | configured {config : UnattendedConfig} {encoded : Bytes} (hanswer : (s.take byte).2 = .configure)
      (hencoded : encodeUnattendedConfig config = some encoded)
      (hbytes : bytes ++ [byte] = SecureDesktopRequest.configure.code :: encoded)
      (hconfig : (s.take byte).1.config = config) (hdone : (s.take byte).1.Done)
  | other (hanswer : (s.take byte).2 ≠ .needMore ∧ (s.take byte).2 ≠ .configure)
      (hnot : ∀ config encoded, encodeUnattendedConfig config = some encoded →
        ¬ bytes ++ [byte] <+: SecureDesktopRequest.configure.code :: encoded)
      (hdone : (s.take byte).1.Done)

theorem decodeSecureDesktopRequest_configure {byte : UInt8} :
    decodeSecureDesktopRequest byte = some .configure ↔ byte = SecureDesktopRequest.configure.code := by
  unfold decodeSecureDesktopRequest
  constructor
  · intro h
    by_contra hne
    have hne : ¬ byte = 3 := hne
    split at h
    · cases h
    · split at h
      · cases h
      · split at h
        · cases h
        · cases h
  · rintro rfl
    rfl

/-- What a request byte is answered with, when it does not start a configuration. -/
theorem startRequest_other (s : UnattendedControlServer) {byte : UInt8}
    (hpending : s.pending = []) (h : decodeSecureDesktopRequest byte ≠ some .configure) :
    ((s.startRequest byte).2 ≠ .needMore ∧ (s.startRequest byte).2 ≠ .configure) ∧
      (s.startRequest byte).1.Done := by
  unfold startRequest
  cases hrequest : decodeSecureDesktopRequest byte with
  | none => exact ⟨refuse_other s, done_refuse s⟩
  | some request =>
    have hserved : Done { s with stage := .served } := ⟨.inl rfl, hpending⟩
    cases request with
    | configure => exact absurd hrequest h
    | agent =>
      refine ⟨?_, hserved⟩
      show UnattendedAction.agent ≠ .needMore ∧ UnattendedAction.agent ≠ .configure
      decide
    | takeover =>
      refine ⟨?_, hserved⟩
      show UnattendedAction.takeover ≠ .needMore ∧ UnattendedAction.takeover ≠ .configure
      decide
    | status =>
      refine ⟨?_, hserved⟩
      show UnattendedAction.status ≠ .needMore ∧ UnattendedAction.status ≠ .configure
      decide

/-- An encoding is the length of its body, and the body. -/
theorem encoded_eq {config : UnattendedConfig} {encoded : Bytes}
    (h : encodeUnattendedConfig config = some encoded) :
    config.Fits ∧ ∃ length, decodeUnattendedConfigLength (putU32 length) = some length ∧
      length.toNat = (configBody config).length ∧ encoded = putU32 length ++ configBody config := by
  rcases encodeUnattendedConfig_eq_some.mp h with ⟨hfits, hbytes⟩
  rcases decodeUnattendedConfigLength_encode hfits with ⟨hlength, hvalue⟩
  exact ⟨hfits, _, hlength, hvalue, hbytes⟩

/-- Behind the same beginning stand the same length and the same bytes. -/
theorem putU32_prefix {a b : UInt32} {xs ys : Bytes} (h : putU32 a ++ xs <+: putU32 b ++ ys) :
    a = b ∧ xs <+: ys := by
  rcases h with ⟨zs, hsplit⟩
  have heq : a = b := by
    have hget := congrArg getU32 hsplit
    rw [List.append_assoc, getU32_putU32, getU32_putU32] at hget
    exact hget
  subst heq
  rw [List.append_assoc] at hsplit
  exact ⟨rfl, zs, List.append_cancel_left hsplit⟩

/-- A server that waits was not fed a whole encoding. -/
theorem Waiting.not_complete {s : UnattendedControlServer} {bytes : Bytes} (h : s.Waiting bytes)
    {config : UnattendedConfig} {encoded : Bytes}
    (hencoded : encodeUnattendedConfig config = some encoded) :
    ¬ SecureDesktopRequest.configure.code :: encoded <+: bytes := by
  rcases encoded_eq hencoded with ⟨-, length, -, hvalue, rfl⟩
  intro hfront
  cases h with
  | started hstage hpending => exact absurd hfront.length_le (Nat.not_succ_le_zero _)
  | readingLength hstage hshort =>
    have hle := (List.cons_prefix_cons.mp hfront).2.length_le
    have hlt : s.pending.length < 4 := hshort
    rw [List.length_append, length_putU32] at hle
    omega
  | readingBody hstage hlength hshort =>
    rw [(decodeUnattendedConfigLength_eq_some hlength).1] at hfront
    rcases putU32_prefix (List.cons_prefix_cons.mp hfront).2 with ⟨heq, hbody⟩
    have hle := hbody.length_le
    rw [← heq, hvalue] at hshort
    omega

theorem Waiting.take {s : UnattendedControlServer} {bytes : Bytes} (h : s.Waiting bytes)
    (byte : UInt8) : s.Taken bytes byte := by
  cases h with
  | started hstage hpending =>
    have htake : s.take byte = s.startRequest byte := by
      unfold UnattendedControlServer.take
      rw [hstage]
    by_cases hconfigure : decodeSecureDesktopRequest byte = some .configure
    · have hbyte := decodeSecureDesktopRequest_configure.mp hconfigure
      have hstart : s.startRequest byte =
          ({ s with stage := .configLength, pending := [] }, .needMore) := by
        unfold startRequest
        rw [hconfigure]
      apply Taken.more
      · rw [htake, hstart]
      · rw [htake, hstart, hbyte]
        exact .readingLength rfl (Nat.zero_lt_succ 3)
    · rcases startRequest_other s hpending hconfigure with ⟨hanswer, hdone⟩
      rw [← htake] at hanswer hdone
      refine .other hanswer ?_ hdone
      intro config encoded _ hfront
      -- the first byte would be the one that asks to configure
      have hfirst := List.cons_prefix_cons.mp hfront
      exact hconfigure (decodeSecureDesktopRequest_configure.mpr hfirst.1)
  | readingLength hstage hshort =>
    have htake : s.take byte =
        if (s.pushed byte).pending.length < kUnattendedConfigLengthSize then (s.pushed byte, .needMore)
        else (s.pushed byte).finishConfigLength := by
      unfold UnattendedControlServer.take
      rw [hstage]
    by_cases hmore : (s.pushed byte).pending.length < kUnattendedConfigLengthSize
    · rw [if_pos hmore] at htake
      apply Taken.more
      · rw [htake]
      · rw [htake]
        exact .readingLength hstage hmore
    · rw [if_neg hmore] at htake
      unfold finishConfigLength at htake
      cases hlength : decodeUnattendedConfigLength (s.pushed byte).pending with
      | some length =>
        rw [hlength] at htake
        have hpos := (decodeUnattendedConfigLength_eq_some hlength).2.1
        apply Taken.more
        · rw [htake]
        · rw [htake]
          have hnext := Waiting.readingBody (s := { s.pushed byte with
            bodyLength := length, pending := [], stage := .configBody }) rfl hlength hpos
          rw [List.append_nil] at hnext
          exact hnext
      | none =>
        rw [hlength] at htake
        refine .other (by rw [htake]; exact refuse_other _) ?_ (by rw [htake]; exact done_refuse _)
        intro config encoded hencoded hfront
        rcases encoded_eq hencoded with ⟨-, length, haccepted, -, rfl⟩
        -- the four bytes would be the length in front of the encoding
        have hbehind : s.pending ++ [byte] <+: putU32 length ++ configBody config := by
          rw [List.cons_append] at hfront
          exact (List.cons_prefix_cons.mp hfront).2
        have hfour : (s.pending ++ [byte]).length = 4 := by
          have hnot : ¬ (s.pending ++ [byte]).length < 4 := hmore
          have hlt : s.pending.length < 4 := hshort
          rw [List.length_append, List.length_singleton] at hnot ⊢
          omega
        have hsame : s.pending ++ [byte] = putU32 length := by
          rw [List.prefix_iff_eq_take.mp hbehind, hfour]
          exact List.take_left' (length_putU32 length)
        have hlength' : decodeUnattendedConfigLength (s.pending ++ [byte]) = none := hlength
        rw [hsame, haccepted] at hlength'
        cases hlength'
  | @readingBody lengthBytes hstage hlength hshort =>
    have htake : s.take byte =
        if (s.pushed byte).pending.length < (s.pushed byte).bodyLength.toNat then
          (s.pushed byte, .needMore)
        else (s.pushed byte).finishConfigBody := by
      unfold UnattendedControlServer.take
      rw [hstage]
    rcases decodeUnattendedConfigLength_eq_some hlength with ⟨hlengthBytes, -, -⟩
    have hjoin : SecureDesktopRequest.configure.code :: (lengthBytes ++ s.pending) ++ [byte] =
        SecureDesktopRequest.configure.code :: (lengthBytes ++ (s.pushed byte).pending) := by
      rw [List.cons_append, List.append_assoc]
      rfl
    by_cases hmore : (s.pushed byte).pending.length < (s.pushed byte).bodyLength.toNat
    · rw [if_pos hmore] at htake
      apply Taken.more
      · rw [htake]
      · rw [htake, hjoin]
        exact .readingBody hstage hlength hmore
    · rw [if_neg hmore] at htake
      -- the body is complete
      have hfull : (s.pushed byte).pending.length = s.bodyLength.toNat := by
        have hnot : ¬ (s.pending ++ [byte]).length < s.bodyLength.toNat := hmore
        show (s.pending ++ [byte]).length = _
        rw [List.length_append, List.length_singleton] at hnot ⊢
        omega
      unfold finishConfigBody at htake
      dsimp only at htake
      cases hconfig : decodeUnattendedConfig (s.pushed byte).pending with
      | some config =>
        rw [hconfig] at htake
        rcases decodeUnattendedConfig_eq_some.mp hconfig with ⟨hfits, hbody⟩
        have hvalue : UInt32.ofNat (configBody config).length = s.bodyLength := by
          rw [← hbody, hfull, UInt32.ofNat_toNat]
        have hencoded : encodeUnattendedConfig config =
            some (lengthBytes ++ (s.pushed byte).pending) := by
          rw [encodeUnattendedConfig_eq_some, hvalue, ← hlengthBytes, ← hbody]
          exact ⟨hfits, rfl⟩
        refine .configured ?_ hencoded hjoin ?_ ?_
        · rw [htake]
        · rw [htake]
        · rw [htake]
          exact ⟨.inl rfl, rfl⟩
      | none =>
        rw [hconfig] at htake
        refine .other (by rw [htake]; exact refuse_other _) ?_ (by rw [htake]; exact done_refuse _)
        intro config encoded hencoded hfront
        rcases encoded_eq hencoded with ⟨hfits, length, -, hvalue, rfl⟩
        -- the same length and as many bytes: the body would be that of the encoding
        rw [hjoin, hlengthBytes] at hfront
        rcases putU32_prefix (List.cons_prefix_cons.mp hfront).2 with ⟨heq, hbody⟩
        rw [heq] at hfull
        have hexact : (s.pushed byte).pending = configBody config :=
          hbody.eq_of_length (by rw [hfull, hvalue])
        rw [hexact, decodeUnattendedConfig_eq_some.mpr ⟨hfits, rfl⟩] at hconfig
        cases hconfig

/-! ## A call of Feed -/

theorem feed_more {s : UnattendedControlServer} {byte : UInt8} (h : (s.take byte).2 = .needMore)
    (rest : Bytes) : s.feed (byte :: rest) = (s.take byte).1.feed rest := by
  rw [feed]
  split
  · next s' heq => rw [heq]
  · next s' action hne heq =>
    rw [heq] at h
    exact absurd h hne

theorem feed_answer (s : UnattendedControlServer) (byte : UInt8) (h : (s.take byte).2 ≠ .needMore)
    (rest : Bytes) :
    s.feed (byte :: rest) = if rest ≠ [] then (s.take byte).1.refuse else s.take byte := by
  rw [feed]
  split
  · next s' heq =>
    rw [heq] at h
    exact absurd rfl h
  · next s' action hne heq => rw [heq]

theorem Done.take {s : UnattendedControlServer} (h : s.Done) (byte : UInt8) :
    s.take byte = s.refuse := by
  unfold UnattendedControlServer.take
  rcases h.stage with hstage | hstage
  · rw [hstage]
  · rw [hstage]

/-- Whoever has been answered is refused from then on. -/
theorem Done.feed {s : UnattendedControlServer} (h : s.Done) (chunk : Bytes) :
    (s.feed chunk).1.Done ∧ (chunk ≠ [] → (s.feed chunk).2 = .refuse) := by
  cases chunk with
  | nil => exact ⟨h, fun hne => absurd rfl hne⟩
  | cons byte rest =>
    have htake := h.take byte
    have hfeed := feed_answer s byte (by rw [htake]; exact (refuse_other s).1) rest
    rw [hfeed, htake]
    split
    · exact ⟨done_refuse _, fun _ => rfl⟩
    · exact ⟨done_refuse s, fun _ => rfl⟩

/-- What a call does to a server that waits: it waits on, it has just read an encoding to its end,
or it has answered something else. -/
inductive Fed (s : UnattendedControlServer) (bytes chunk : Bytes) : Prop
  | more (hanswer : (s.feed chunk).2 = .needMore) (hwaiting : (s.feed chunk).1.Waiting (bytes ++ chunk))
  | configured {config : UnattendedConfig} {encoded : Bytes} (hanswer : (s.feed chunk).2 = .configure)
      (hencoded : encodeUnattendedConfig config = some encoded)
      (hbytes : bytes ++ chunk = SecureDesktopRequest.configure.code :: encoded)
      (hconfig : (s.feed chunk).1.config = config) (hdone : (s.feed chunk).1.Done)
  | overrun {config : UnattendedConfig} {encoded : Bytes} (hanswer : (s.feed chunk).2 = .refuse)
      (hencoded : encodeUnattendedConfig config = some encoded)
      (hbytes : SecureDesktopRequest.configure.code :: encoded <+: bytes ++ chunk)
      (hmore : bytes ++ chunk ≠ SecureDesktopRequest.configure.code :: encoded)
      (hdone : (s.feed chunk).1.Done)
  | other (hanswer : (s.feed chunk).2 ≠ .needMore ∧ (s.feed chunk).2 ≠ .configure)
      (hnot : ∀ config encoded, encodeUnattendedConfig config = some encoded →
        ¬ bytes ++ chunk <+: SecureDesktopRequest.configure.code :: encoded ∧
        ¬ SecureDesktopRequest.configure.code :: encoded <+: bytes ++ chunk)
      (hdone : (s.feed chunk).1.Done)

theorem Waiting.feed {s : UnattendedControlServer} {bytes : Bytes} (h : s.Waiting bytes)
    (chunk : Bytes) : s.Fed bytes chunk := by
  induction chunk generalizing s bytes with
  | nil =>
    refine .more rfl ?_
    rw [List.append_nil]
    exact h
  | cons byte rest ih =>
    have hjoin : bytes ++ byte :: rest = (bytes ++ [byte]) ++ rest := by
      rw [List.append_assoc]
      rfl
    cases h.take byte with
    | more hanswer hwaiting =>
      have hfeed := feed_more hanswer rest
      cases ih hwaiting with
      | more hanswer' hwaiting' =>
        refine .more (by rw [hfeed]; exact hanswer') ?_
        rw [hfeed, hjoin]
        exact hwaiting'
      | configured hanswer' hencoded hbytes hconfig hdone =>
        refine .configured (by rw [hfeed]; exact hanswer') hencoded ?_ ?_ ?_
        · rw [hjoin]
          exact hbytes
        · rw [hfeed]
          exact hconfig
        · rw [hfeed]
          exact hdone
      | overrun hanswer' hencoded hbytes hmore hdone =>
        refine .overrun (by rw [hfeed]; exact hanswer') hencoded ?_ ?_ ?_
        · rw [hjoin]
          exact hbytes
        · rw [hjoin]
          exact hmore
        · rw [hfeed]
          exact hdone
      | other hanswer' hnot hdone =>
        refine .other (by rw [hfeed]; exact hanswer') ?_ (by rw [hfeed]; exact hdone)
        rw [hjoin]
        exact hnot
    | configured hanswer hencoded hbytes hconfig hdone =>
      have hfeed := feed_answer s byte (by rw [hanswer]; decide) rest
      by_cases hlast : rest = []
      · rw [if_neg (not_not.mpr hlast)] at hfeed
        refine .configured (by rw [hfeed]; exact hanswer) hencoded ?_ ?_ ?_
        · rw [hlast]
          exact hbytes
        · rw [hfeed]
          exact hconfig
        · rw [hfeed]
          exact hdone
      · -- something follows the encoding in the same call
        rw [if_pos hlast] at hfeed
        refine .overrun (by rw [hfeed]; rfl) hencoded ?_ ?_ (by rw [hfeed]; exact done_refuse _)
        · rw [hjoin, hbytes]
          exact List.prefix_append _ _
        · rw [hjoin, hbytes]
          intro heq
          exact hlast (List.append_right_eq_self.mp heq)
    | other hanswer hnot hdone =>
      have hfeed := feed_answer s byte hanswer.1 rest
      have hapart : ∀ config encoded, encodeUnattendedConfig config = some encoded →
          ¬ bytes ++ byte :: rest <+: SecureDesktopRequest.configure.code :: encoded ∧
          ¬ SecureDesktopRequest.configure.code :: encoded <+: bytes ++ byte :: rest := by
        intro config encoded hencoded
        rw [hjoin]
        constructor
        · intro hfront
          exact hnot config encoded hencoded ((List.prefix_append _ _).trans hfront)
        · intro hfront
          rcases List.prefix_or_prefix_of_prefix hfront (List.prefix_append _ rest) with hless | hmore
          · rcases List.prefix_concat_iff.mp hless with hwhole | hearly
            · apply hnot config encoded hencoded
              exact hwhole ▸ List.prefix_refl _
            · exact h.not_complete hencoded hearly
          · exact hnot config encoded hencoded hmore
      by_cases hlast : rest = []
      · rw [if_neg (not_not.mpr hlast)] at hfeed
        exact .other (by rw [hfeed]; exact hanswer) hapart (by rw [hfeed]; exact hdone)
      · rw [if_pos hlast] at hfeed
        exact .other (by rw [hfeed]; exact refuse_other _) hapart (by rw [hfeed]; exact done_refuse _)

/-! ## Runs -/

/-- The server after calls of `Feed`. -/
def after (chunks : List Bytes) : UnattendedControlServer := (machine.run {} chunks).1

theorem after_concat (chunks : List Bytes) (chunk : Bytes) :
    after (chunks ++ [chunk]) = ((after chunks).feed chunk).1 := by
  unfold after
  rw [Machine.run_concat]
  rfl

/-- The server waits with all it was fed, or it has answered. -/
theorem after_state (chunks : List Bytes) :
    (after chunks).Waiting chunks.flatten ∨ (after chunks).Done := by
  induction chunks using List.reverseRecOn with
  | nil => exact .inl waiting_fresh
  | append_singleton chunks chunk ih =>
    rw [after_concat, List.flatten_concat]
    rcases ih with hwaiting | hdone
    · cases hwaiting.feed chunk with
      | more _ hnext => exact .inl hnext
      | configured _ _ _ _ hdone => exact .inr hdone
      | overrun _ _ _ _ hdone => exact .inr hdone
      | other _ _ hdone => exact .inr hdone
    · exact .inr (hdone.feed chunk).1

/-- No encoding is the beginning of another. -/
theorem encoded_front {config config' : UnattendedConfig} {encoded encoded' : Bytes}
    (h : encodeUnattendedConfig config = some encoded)
    (h' : encodeUnattendedConfig config' = some encoded') (hfront : encoded <+: encoded') :
    encoded = encoded' ∧ config = config' := by
  rcases encoded_eq h with ⟨hfits, length, -, hvalue, rfl⟩
  rcases encoded_eq h' with ⟨hfits', length', -, hvalue', rfl⟩
  rcases putU32_prefix hfront with ⟨rfl, hbody⟩
  have hsame := hbody.eq_of_length (by rw [← hvalue, ← hvalue'])
  constructor
  · rw [hsame]
  · have hdecode := decodeUnattendedConfig_eq_some.mpr ⟨hfits, rfl⟩
    rw [hsame, decodeUnattendedConfig_eq_some.mpr ⟨hfits', rfl⟩] at hdecode
    exact (Option.some.inj hdecode).symm

/-- As long as the encoding is not complete, the server waits. -/
theorem after_waiting {config : UnattendedConfig} {encoded : Bytes}
    (hencoded : encodeUnattendedConfig config = some encoded) (chunks : List Bytes)
    (hfront : chunks.flatten <+: SecureDesktopRequest.configure.code :: encoded)
    (hnot : chunks.flatten ≠ SecureDesktopRequest.configure.code :: encoded) :
    (after chunks).Waiting chunks.flatten := by
  induction chunks using List.reverseRecOn with
  | nil => exact waiting_fresh
  | append_singleton chunks chunk ih =>
    rw [List.flatten_concat] at hfront hnot
    rw [after_concat, List.flatten_concat]
    have hearly : chunks.flatten <+: SecureDesktopRequest.configure.code :: encoded :=
      (List.prefix_append _ _).trans hfront
    have hbefore : chunks.flatten ≠ SecureDesktopRequest.configure.code :: encoded := by
      intro heq
      apply hnot
      have hle := hfront.length_le
      rw [← heq, List.length_append] at hle
      have hnil : chunk = [] := List.eq_nil_of_length_eq_zero (by omega)
      rw [hnil, List.append_nil]
      exact heq
    cases (ih hearly hbefore).feed chunk with
    | more _ hnext => exact hnext
    | configured _ hencoded' hbytes _ _ =>
      rw [hbytes] at hfront hnot
      have hsame := (encoded_front hencoded' hencoded (List.cons_prefix_cons.mp hfront).2).1
      exact absurd (by rw [hsame]) hnot
    | overrun _ hencoded' hbytes hmore _ =>
      have hsame := (encoded_front hencoded' hencoded
        (List.cons_prefix_cons.mp (hbytes.trans hfront)).2).1
      rw [hsame] at hbytes
      exact absurd (hfront.eq_of_length_le hbytes.length_le) hnot
    | other _ hapart _ => exact absurd hfront (hapart config encoded hencoded).1

/-- Whoever was told something else than to go on has been answered. -/
theorem done_of_answer {chunks : List Bytes} {action : UnattendedAction}
    (h : action ∈ (machine.run {} chunks).2) (hne : action ≠ .needMore) : (after chunks).Done := by
  induction chunks using List.reverseRecOn with
  | nil => exact absurd h List.not_mem_nil
  | append_singleton chunks chunk ih =>
    rw [Machine.run_concat] at h
    rw [after_concat]
    rcases List.mem_append.mp h with hearly | hlast
    · exact ((ih hearly).feed chunk).1
    · have hanswer : action = ((after chunks).feed chunk).2 := List.mem_singleton.mp hlast
      rcases after_state chunks with hwaiting | hdone
      · cases hwaiting.feed chunk with
        | more hmore _ => exact absurd (hanswer.trans hmore) hne
        | configured _ _ _ _ hdone => exact hdone
        | overrun _ _ _ _ hdone => exact hdone
        | other _ _ hdone => exact hdone
      · exact (hdone.feed chunk).1

/-! ## The buffer -/

theorem Waiting.takeSizes {s : UnattendedControlServer} {bytes : Bytes} (h : s.Waiting bytes)
    (byte : UInt8) :
    s.pending.length ≤ kUnattendedConfigMaxBytes ∧
      ∀ n ∈ s.takeSizes byte, n ≤ kUnattendedConfigMaxBytes := by
  have hmax : kUnattendedConfigMaxBytes = 286733 := by decide
  have hpushed : (s.pushed byte).pending.length = s.pending.length + 1 := List.length_append
  unfold UnattendedControlServer.takeSizes
  cases h with
  | started hstage hpending =>
    rw [hstage, hpending]
    simp
  | readingLength hstage hshort =>
    have hlt : s.pending.length < 4 := hshort
    rw [hstage]
    dsimp only
    rw [hpushed]
    simp only [List.mem_cons, List.not_mem_nil, or_false, forall_eq_or_imp, forall_eq]
    omega
  | readingBody hstage hlength hshort =>
    have hle := (decodeUnattendedConfigLength_eq_some hlength).2.2
    rw [hstage]
    dsimp only
    rw [hpushed]
    simp only [List.mem_cons, List.not_mem_nil, or_false, forall_eq_or_imp, forall_eq]
    omega

theorem Done.takeSizes {s : UnattendedControlServer} (h : s.Done) (byte : UInt8) :
    ∀ n ∈ s.takeSizes byte, n = 0 := by
  unfold UnattendedControlServer.takeSizes
  rcases h.stage with hstage | hstage
  · rw [hstage, h.pending]
    simp
  · rw [hstage, h.pending]
    simp

theorem feedSizes_answer {s : UnattendedControlServer} {byte : UInt8} (rest : Bytes)
    (h : (s.take byte).2 ≠ .needMore) (hdone : (s.take byte).1.Done) :
    ∀ n ∈ s.feedSizes (byte :: rest), n ∈ s.takeSizes byte ∨ n = 0 := by
  intro n hn
  rw [feedSizes] at hn
  rcases List.mem_append.mp hn with htake | hafter
  · exact .inl htake
  · right
    split at hafter
    · next s' heq =>
      rw [heq] at h
      exact absurd rfl h
    · next s' action hne heq =>
      rw [heq] at hdone
      have hnil : s'.pending = [] := hdone.pending
      rw [hnil] at hafter
      rcases List.mem_cons.mp hafter with hfirst | hsecond
      · exact hfirst
      · exact List.mem_singleton.mp hsecond

theorem Done.feedSizes {s : UnattendedControlServer} (h : s.Done) (chunk : Bytes) :
    ∀ n ∈ s.feedSizes chunk, n = 0 := by
  intro n hn
  cases chunk with
  | nil =>
    rw [List.mem_singleton.mp hn, h.pending]
    rfl
  | cons byte rest =>
    have htake := h.take byte
    have hanswer : (s.take byte).2 ≠ .needMore := by
      rw [htake]
      exact (refuse_other s).1
    have hdone : (s.take byte).1.Done := by
      rw [htake]
      exact done_refuse s
    rcases feedSizes_answer rest hanswer hdone n hn with hearly | hzero
    · exact h.takeSizes byte n hearly
    · exact hzero

/-- The buffer never holds more than a configuration. -/
theorem Waiting.feedSizes {s : UnattendedControlServer} {bytes : Bytes} (h : s.Waiting bytes)
    (chunk : Bytes) : ∀ n ∈ s.feedSizes chunk, n ≤ kUnattendedConfigMaxBytes := by
  induction chunk generalizing s bytes with
  | nil =>
    intro n hn
    rw [List.mem_singleton.mp hn]
    exact (h.takeSizes 0).1
  | cons byte rest ih =>
    intro n hn
    have hanswered : (s.take byte).2 ≠ .needMore → (s.take byte).1.Done →
        n ≤ kUnattendedConfigMaxBytes := by
      intro hanswer hdone
      rcases feedSizes_answer rest hanswer hdone n hn with hearly | hzero
      · exact (h.takeSizes byte).2 n hearly
      · rw [hzero]
        exact Nat.zero_le _
    cases h.take byte with
    | more hanswer hwaiting =>
      rw [UnattendedControlServer.feedSizes] at hn
      rcases List.mem_append.mp hn with hearly | hrest
      · exact (h.takeSizes byte).2 n hearly
      · split at hrest
        · next s' heq =>
          rw [heq] at hwaiting
          exact ih hwaiting n hrest
        · next s' action hne heq =>
          rw [heq] at hanswer
          exact absurd hanswer hne
    | configured hanswer _ _ _ hdone => exact hanswered (by rw [hanswer]; decide) hdone
    | other hanswer _ hdone => exact hanswered hanswer.1 hdone

/-! ## The request is read exactly -/

/-- What the answer to a call is, when the bytes of a configuration are fed: to go on until they are
complete, the configuration once they are, and no more. -/
structure ReadsExactly (config : UnattendedConfig) (encoded : Bytes) (chunks : List Bytes)
    (chunk : Bytes) : Prop where
  more : chunks.flatten ++ chunk <+: SecureDesktopRequest.configure.code :: encoded →
    chunks.flatten ++ chunk ≠ SecureDesktopRequest.configure.code :: encoded →
    ((after chunks).feed chunk).2 = .needMore
  complete : chunks.flatten ++ chunk = SecureDesktopRequest.configure.code :: encoded → chunk ≠ [] →
    ((after chunks).feed chunk).2 = .configure ∧ ((after chunks).feed chunk).1.config = config
  overrun : SecureDesktopRequest.configure.code :: encoded <+: chunks.flatten ++ chunk →
    chunks.flatten ++ chunk ≠ SecureDesktopRequest.configure.code :: encoded → chunk ≠ [] →
    ((after chunks).feed chunk).2 = .refuse

theorem readsExactly {config : UnattendedConfig} {encoded : Bytes}
    (hencoded : encodeUnattendedConfig config = some encoded) (chunks : List Bytes) (chunk : Bytes) :
    ReadsExactly config encoded chunks chunk := by
  constructor
  · intro hfront hnot
    have hwaiting := after_waiting hencoded (chunks ++ [chunk])
      (by rw [List.flatten_concat]; exact hfront) (by rw [List.flatten_concat]; exact hnot)
    by_contra hanswer
    -- an answer would have ended the waiting
    have hdone : (after (chunks ++ [chunk])).Done := by
      have hanswered : ((after chunks).feed chunk).2 ∈ (machine.run {} (chunks ++ [chunk])).2 := by
        rw [Machine.run_concat]
        exact List.mem_append_right _ (List.mem_singleton_self _)
      exact done_of_answer hanswered hanswer
    exact hwaiting.not_done hdone
  · intro hbytes hne
    have hfront : chunks.flatten <+: SecureDesktopRequest.configure.code :: encoded := by
      rw [← hbytes]
      exact List.prefix_append _ _
    have hnot : chunks.flatten ≠ SecureDesktopRequest.configure.code :: encoded := by
      rw [← hbytes]
      intro heq
      exact hne (List.append_right_eq_self.mp heq.symm)
    cases (after_waiting hencoded _ hfront hnot).feed chunk with
    | more _ hnext =>
      rw [hbytes] at hnext
      exact absurd (List.prefix_refl _) (hnext.not_complete hencoded)
    | configured hanswer hencoded' hbytes' hconfig _ =>
      rw [hbytes'] at hbytes
      rw [(List.cons.inj hbytes).2] at hencoded'
      have hsame := (encoded_front hencoded' hencoded (List.prefix_refl encoded)).2
      exact ⟨hanswer, hconfig.trans hsame⟩
    | overrun _ hencoded' hbytes' hmore _ =>
      rw [hbytes] at hbytes' hmore
      have hsame := (encoded_front hencoded' hencoded (List.cons_prefix_cons.mp hbytes').2).1
      exact absurd (by rw [hsame]) hmore
    | other _ hapart _ =>
      rw [hbytes] at hapart
      exact absurd (List.prefix_refl _) (hapart config encoded hencoded).1
  · intro hfront hnot hne
    rcases after_state chunks with hwaiting | hdone
    · cases hwaiting.feed chunk with
      | more _ hnext => exact absurd hfront (hnext.not_complete hencoded)
      | configured _ hencoded' hbytes' _ _ =>
        rw [hbytes'] at hfront hnot
        have hsame := (encoded_front hencoded hencoded' (List.cons_prefix_cons.mp hfront).2).1
        exact absurd (by rw [hsame]) hnot
      | overrun hanswer _ _ _ _ => exact hanswer
      | other _ hapart _ => exact absurd hfront (hapart config encoded hencoded).2
    · exact (hdone.feed chunk).2 hne

/-- The configuration request is read exactly: its bytes are answered when they are complete, no
byte is taken after an answer, no other bytes configure, the buffer stays within the limit, and the
body that is read is the one that is written. -/
theorem unattendedControl_exact :
    (∀ (config : UnattendedConfig) (encoded : Bytes), encodeUnattendedConfig config = some encoded →
      ∀ (chunks : List Bytes) (chunk : Bytes), ReadsExactly config encoded chunks chunk) ∧
    (∀ (chunks : List Bytes) (chunk : Bytes),
      (.refuse ∈ (machine.run {} chunks).2 ∨ .configure ∈ (machine.run {} chunks).2) → chunk ≠ [] →
      ((after chunks).feed chunk).2 = .refuse) ∧
    (∀ (chunks : List Bytes) (chunk : Bytes), ∀ n ∈ (after chunks).feedSizes chunk,
      n ≤ kUnattendedConfigMaxBytes) ∧
    (∀ (chunks : List Bytes) (chunk : Bytes), ((after chunks).feed chunk).2 = .configure →
      ∃ encoded, encodeUnattendedConfig ((after chunks).feed chunk).1.config = some encoded ∧
        chunks.flatten ++ chunk = SecureDesktopRequest.configure.code :: encoded) ∧
    ∀ (body : Bytes) (config : UnattendedConfig), decodeUnattendedConfig body = some config ↔
      ∃ lengthBytes, lengthBytes.length = kUnattendedConfigLengthSize ∧
        encodeUnattendedConfig config = some (lengthBytes ++ body) := by
  refine ⟨fun _ _ hencoded => readsExactly hencoded, ?_, ?_, ?_, ?_⟩
  · intro chunks chunk hanswered hne
    have hdone : (after chunks).Done := by
      rcases hanswered with hrefused | hconfigured
      · exact done_of_answer hrefused (by decide)
      · exact done_of_answer hconfigured (by decide)
    exact (hdone.feed chunk).2 hne
  · intro chunks chunk n hn
    rcases after_state chunks with hwaiting | hdone
    · exact hwaiting.feedSizes chunk n hn
    · rw [hdone.feedSizes chunk n hn]
      exact Nat.zero_le _
  · intro chunks chunk hanswer
    rcases after_state chunks with hwaiting | hdone
    · cases hwaiting.feed chunk with
      | more hmore _ =>
        rw [hmore] at hanswer
        cases hanswer
      | configured _ hencoded hbytes hconfig _ =>
        rw [hconfig]
        exact ⟨_, hencoded, hbytes⟩
      | overrun hrefuse _ _ _ _ =>
        rw [hrefuse] at hanswer
        cases hanswer
      | other hother _ _ => exact absurd hanswer hother.2
    · by_cases hnil : chunk = []
      · rw [hnil] at hanswer
        cases hanswer
      · rw [(hdone.feed chunk).2 hnil] at hanswer
        cases hanswer
  · intro body config
    constructor
    · intro hdecode
      rcases decodeUnattendedConfig_eq_some.mp hdecode with ⟨hfits, rfl⟩
      exact ⟨_, length_putU32 _, encodeUnattendedConfig_eq_some.mpr ⟨hfits, rfl⟩⟩
    · rintro ⟨lengthBytes, hfour, hencoded⟩
      rcases encodeUnattendedConfig_eq_some.mp hencoded with ⟨hfits, hbytes⟩
      have hbody := (List.append_inj hbytes (by rw [hfour, length_putU32]; rfl)).2
      exact decodeUnattendedConfig_eq_some.mpr ⟨hfits, hbody⟩

/-- A host that is switched off, its request cut in the middle of the length. -/
theorem unattendedControl_exact_cut :
    (∃ encoded, encodeUnattendedConfig { settings := [0x66] } = some encoded ∧
      ReadsExactly { settings := [0x66] } encoded [[3, 0, 0], [0, 14, 0]] [0, 0, 0, 0, 0, 0, 0, 0, 0, 0, 0, 1, 0x66]) ∧
    ((after [[3, 9, 0], [9, 9, 0]]).feed [1]).2 = .refuse :=
  ⟨⟨_, rfl, unattendedControl_exact.1 { settings := [0x66] } _ rfl _ _⟩,
    unattendedControl_exact.2.1 [[3, 9, 0], [9, 9, 0]] [1] (.inl (by decide +kernel)) (by decide)⟩

end UnattendedControlServer

end Deskhub
