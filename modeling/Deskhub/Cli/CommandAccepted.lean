import Deskhub.Cli.Command

/-!
# What an accepted command line says

Whatever the order of the arguments, a command without an error has what its verb needs. A flag
keeps the target and the ranges of the numbers, the arguments that are no flag add to the target,
and the checks behind the loops do the rest.
-/

namespace Deskhub

open ArgumentLoop PairingInvite

namespace Cli

/-! ## Every error has a text -/

@[simp] theorem ascii_eq_nil {s : String} : ascii s = [] ↔ s = "" := by
  unfold ascii
  rw [List.map_eq_nil_iff, String.toList_eq_nil_iff]

def Failed (command : Command) : Prop := command.error ≠ []

theorem quoted_ne_nil (text : Bytes) : quoted text ≠ [] := by
  simp [quoted]

theorem unknownOption_ne_nil (name : Bytes) (verb : Verb) : unknownOption name verb ≠ [] := by
  unfold unknownOption
  dsimp only
  split
  · simp
  · simp

theorem missingValue_ne_nil (name : Bytes) : missingValue name ≠ [] := by
  simp [missingValue]

theorem badValue_ne_nil (name value : Bytes) : badValue name value ≠ [] := by
  simp [badValue]

theorem needsAddress_ne_nil (verb : Verb) : needsAddress verb ≠ [] := by
  simp [needsAddress]

theorem needsAction_ne_nil (verb : Verb) (actions : Bytes) : needsAction verb actions ≠ [] := by
  simp [needsAction]

theorem failed_fail {error : Bytes} (h : error ≠ []) (command : Command) :
    Failed (command.fail error) := h

theorem Failed.failIf {command : Command} (hfailed : Failed command) (bad : Bool) {error : Bytes}
    (h : error ≠ []) : Failed (command.failIf bad error) := by
  unfold Command.failIf
  split
  · exact failed_fail h command
  · exact hfailed

/-- A check: an error, or nothing is bad and the command is as it was. -/
theorem failIf_cases {error : Bytes} (h : error ≠ []) (command : Command) (bad : Bool) :
    Failed (command.failIf bad error) ∨ bad = false ∧ command.failIf bad error = command := by
  unfold Command.failIf
  cases bad with
  | true => exact .inl (failed_fail h command)
  | false => exact .inr ⟨rfl, rfl⟩

/-! ## What must hold -/

/-- Every number that was given is in the range of its flag. The port and the interval have a
default, which is in the range too; without `--resume` the id is 0. -/
structure InRange (command : Command) : Prop where
  port : 1 ≤ command.port.toNat ∧ command.port.toNat ≤ 65535
  approvalWait : ∀ seconds, command.approvalWaitSeconds = some seconds →
    1 ≤ seconds ∧ seconds ≤ kMaxApprovalWaitSeconds
  fps : ∀ fps, command.share.fps = some fps → 1 ≤ fps ∧ fps ≤ kMaxSettingsFps
  bitrate : ∀ mbps, command.share.bitrateMbps = some mbps →
    1 ≤ mbps ∧ mbps ≤ kMaxSettingsBitrateMbps
  maxDim : ∀ dim, command.share.maxDim = some dim → 1 ≤ dim ∧ dim ≤ kMaxSettingsDim
  statusInterval : kMinStatusIntervalMs ≤ command.share.statusIntervalMs ∧
    command.share.statusIntervalMs ≤ kMaxStatusIntervalMs
  resume : command.shell.resumeId = 0 ∨
    1 ≤ command.shell.resumeId.toNat ∧ command.shell.resumeId.toNat ≤ 0xFFFFFFFF

/-- An address: a host and the port of the command. -/
def HasAddress (command : Command) : Prop :=
  ∃ host, host ≠ [] ∧ command.address = host ++ ascii ":" ++ decimal command.port.toNat

/-- Exactly one of an address, the name of a saved host and an invite that parses. -/
def OneTarget (command : Command) : Prop :=
  (HasAddress command ∧ command.profileAlias = [] ∧ command.pairingInvite = []) ∨
  (command.address = [] ∧ command.profileAlias ≠ [] ∧ command.pairingInvite = []) ∨
  (command.address = [] ∧ command.profileAlias = [] ∧
    (parsePairingInvite command.pairingInvite).isSome)

/-- A share command that shares something and does not contradict itself. -/
structure Shareable (share : ShareOptions) : Prop where
  shares : share.screen ∨ share.terminal ∨ share.files
  displays : share.screen = false → share.displays = []
  bindIp : ∀ bindIp, share.bindIp = some bindIp → bindIp ≠ [] → (parseIPv4 bindIp).isSome

structure Runnable (command : Command) : Prop where
  verb : command.verb ≠ .none
  inRange : InRange command
  target : takesAlias command.verb → OneTarget command
  files : command.verb = .send →
    1 ≤ command.send.files.length ∧ command.send.files.length ≤ kMaxTransferFiles
  share : command.verb = .share → Shareable command.share

/-- An error, help, the version, or a command that can run. -/
def Sound (command : Command) : Prop :=
  Failed command ∨ command.verb = .help ∨ command.verb = .version ∨ Runnable command

theorem Sound.of_fail {error : Bytes} (h : error ≠ []) (command : Command) :
    Sound (command.fail error) := .inl h

theorem inRange_default : InRange {} where
  port := by decide
  approvalWait := by simp
  fps := by simp
  bitrate := by simp
  maxDim := by simp
  statusInterval := by decide
  resume := .inl rfl

/-! ## Flags -/

/-- The verb, and what is set by the arguments that are no flags. -/
def operands (command : Command) : Verb × Bytes × Bytes × Bytes × UInt16 × SendOptions :=
  (command.verb, command.address, command.profileAlias, command.pairingInvite, command.port,
    command.send)

/-- In range, with these operands. -/
def Kept (k : Verb × Bytes × Bytes × Bytes × UInt16 × SendOptions) (command : Command) : Prop :=
  operands command = k ∧ InRange command

/-- The handler keeps the operands and the ranges. -/
def Keeping (f : FlagHandler) : Prop := ∀ k, f.Keeps (Kept k) Failed

theorem Keeping.orElse {f g : FlagHandler} (hf : Keeping f) (hg : Keeping g) :
    Keeping (f.orElse g) :=
  fun k => (hf k).orElse (hg k)

/-- A change that keeps the operands and the ranges. -/
def Neutral (set : Command → Command) : Prop :=
  ∀ command, operands (set command) = operands command ∧ (InRange command → InRange (set command))

theorem Neutral.kept {set : Command → Command} (h : Neutral set)
    {k : Verb × Bytes × Bytes × Bytes × UInt16 × SendOptions} {command : Command}
    (hkept : Kept k command) : Kept k (set command) :=
  ⟨(h command).1.trans hkept.1, (h command).2 hkept.2⟩

/-- A flag with a value keeps what the use of the value keeps. -/
theorem keeps_withValue {P : Command → Prop} {use : Command → Flag → Bytes → Except Bytes Command}
    (hok : ∀ command flag text command', P command → use command flag text = .ok command' →
      P command')
    (herror : ∀ command flag text error, use command flag text = .error error → error ≠ []) :
    (withValue use).Keeps P Failed := by
  intro command flag rest hP
  unfold withValue
  split
  · next error hvalue =>
    apply failed_fail
    unfold valueOf at hvalue
    split at hvalue
    · split at hvalue
      · cases hvalue
        exact missingValue_ne_nil _
      · cases hvalue
    · split at hvalue
      · cases hvalue
        exact missingValue_ne_nil _
      · cases hvalue
  · next text left _ =>
    split
    · next error huse => exact failed_fail (herror _ _ _ _ huse) command
    · next command' huse => exact hok _ _ _ _ hP huse

theorem keeping_applySwitch {name : Bytes} {set : Command → Command} (hset : Neutral set) :
    Keeping (applySwitch name set) := by
  intro k command flag rest hkept
  unfold applySwitch
  split
  · exact hset.kept hkept
  · trivial

theorem keeping_applyTextFlag {name : Bytes} {set : Command → Bytes → Command}
    (hset : ∀ text, Neutral fun command => set command text) : Keeping (applyTextFlag name set) := by
  intro k command flag rest hkept
  unfold applyTextFlag
  split
  · trivial
  · refine keeps_withValue ?_ ?_ command flag rest hkept
    · intro command flag text command' hkept huse
      cases huse
      exact (hset text).kept hkept
    · intro command flag text error huse
      cases huse

/-- A number comes into the command only within its bounds. -/
theorem keeping_applyBoundedFlag {name : Bytes} {low high : UInt32}
    {set : Command → UInt32 → Command}
    (hset : ∀ value, low ≤ value → value ≤ high → Neutral fun command => set command value) :
    Keeping (applyBoundedFlag name low high set) := by
  intro k command flag rest hkept
  unfold applyBoundedFlag
  split
  · trivial
  · refine keeps_withValue ?_ ?_ command flag rest hkept
    · intro command flag text command' hkept huse
      split at huse
      · cases huse
      split at huse
      · cases huse
      · next value _ hin =>
        cases huse
        rw [not_or, UInt32.not_lt, UInt32.not_lt] at hin
        exact (hset value hin.1 hin.2).kept hkept
    · intro command flag text error huse
      split at huse
      · cases huse
        exact badValue_ne_nil _ _
      split at huse
      · cases huse
        exact badValue_ne_nil _ _
      · cases huse

theorem keeping_onlyIf {p : Command → Bool} {f : FlagHandler} (hf : Keeping f) :
    Keeping (onlyIf p f) := by
  intro k command flag rest hkept
  unfold onlyIf
  split
  · exact hf k command flag rest hkept
  · trivial

theorem keeping_applyGlobalFlag : Keeping applyGlobalFlag := by
  intro k command flag rest hkept
  unfold applyGlobalFlag
  split
  · refine keeps_withValue ?_ ?_ command flag rest hkept
    · intro command flag text command' hkept huse
      cases huse
      exact ⟨hkept.1, { hkept.2 with }⟩
    · intro command flag text error huse
      cases huse
  split
  · trivial
  split
  · exact ⟨hkept.1, { hkept.2 with }⟩
  split
  · exact ⟨hkept.1, { hkept.2 with }⟩
  split
  · exact ⟨hkept.1, { hkept.2 with }⟩
  · trivial

theorem keeping_applyConnectionFlag : Keeping applyConnectionFlag := by
  apply Keeping.orElse
  · exact keeping_applySwitch fun command => ⟨rfl, fun h => { h with }⟩
  · apply keeping_applyBoundedFlag
    intro value hlow hhigh command
    refine ⟨rfl, fun h => { h with approvalWait := ?_ }⟩
    intro seconds hseconds
    cases hseconds
    exact ⟨hlow, hhigh⟩

theorem keeping_applyNameFlag : Keeping applyNameFlag :=
  keeping_applyTextFlag fun _ _ => ⟨rfl, fun h => { h with }⟩

/-- A flag in a loop: help, an error, or the loop goes on with what the handlers keep. -/
theorem holds_flagStep {verb : Verb} {handlers : FlagHandler} {P : Command → Prop}
    (hglobal : applyGlobalFlag.Keeps P Failed) (hhandlers : handlers.Keeps P Failed)
    {command : Command} (hP : P command) (token : Bytes) (rest : List Bytes) :
    (flagStep verb handlers command token rest).Holds P Sound := by
  have hkept := (hglobal.orElse hhandlers) command (splitFlag token) rest hP
  unfold flagStep
  dsimp only
  split
  · exact .inr (.inl rfl)
  split
  · next heq =>
    rw [heq] at hkept
    exact hkept
  · next heq =>
    rw [heq] at hkept
    exact .inl hkept
  · exact Sound.of_fail (unknownOption_ne_nil _ _) _

theorem Keeping.flagStep {handlers : FlagHandler} (h : Keeping handlers) {verb : Verb}
    {k : Verb × Bytes × Bytes × Bytes × UInt16 × SendOptions} {command : Command}
    (hkept : Kept k command) (token : Bytes) (rest : List Bytes) :
    (flagStep verb handlers command token rest).Holds (Kept k) Sound :=
  holds_flagStep (keeping_applyGlobalFlag k) (h k) hkept token rest

/-! ## Verbs that need nothing -/

/-- The verbs of which nothing more is claimed. -/
def Plain (verb : Verb) : Prop := verb ≠ .none ∧ takesAlias verb = false ∧ verb ≠ .share

instance (verb : Verb) : Decidable (Plain verb) := inferInstanceAs (Decidable (_ ∧ _ ∧ _))

/-- A command of such a verb, in range. -/
def Ready (command : Command) : Prop := Plain command.verb ∧ InRange command

theorem Ready.sound {command : Command} (h : Ready command) : Sound command := by
  rcases h with ⟨hplain, hrange⟩
  refine .inr (.inr (.inr ⟨hplain.1, hrange, ?_, ?_, ?_⟩))
  · intro halias
    rw [hplain.2.1] at halias
    cases halias
  · intro hsend
    rw [hsend] at hplain
    exact absurd hplain.2.1 (by decide)
  · exact fun hshare => absurd hshare hplain.2.2

/-- A loop whose every step keeps the operands ends well for such a verb. -/
theorem Ready.loop {body : Command → Bytes → (rest : List Bytes) → Step Command Command rest}
    {finish : Command → Command} {command : Command} {args : List Bytes} (hready : Ready command)
    (hbody : ∀ s token rest, Kept (operands command) s →
      (body s token rest).Holds (Kept (operands command)) Sound)
    (hfinish : ∀ s, Sound s → Sound (finish s)) :
    Sound (loop body finish command args) := by
  refine loop_holds hbody ?_ ⟨rfl, hready.2⟩ args
  intro s hkept
  have hverb : s.verb = command.verb := congrArg Prod.fst hkept.1
  apply hfinish
  apply Ready.sound
  refine ⟨?_, hkept.2⟩
  rw [hverb]
  exact hready.1

theorem Ready.parseNoArgVerb {command : Command} {args : List Bytes} (hready : Ready command) :
    Sound (parseNoArgVerb command args) := by
  refine hready.loop ?_ fun s h => h
  intro s token rest hkept
  unfold noArgStep
  split
  · exact Sound.of_fail (by simp [quoted_ne_nil]) _
  · have hforget : Keeping (applySwitch (ascii "--forget") fun command =>
        { command with forget := true }) :=
      keeping_applySwitch fun _ => ⟨rfl, fun h => { h with }⟩
    exact (keeping_onlyIf hforget).flagStep hkept token rest

/-! ## Verbs with one target -/

/-- No target yet. -/
def NoTarget (command : Command) : Prop :=
  command.address = [] ∧ command.profileAlias = [] ∧ command.pairingInvite = []

/-- Before every argument behind a verb with a target: there is one target as soon as the loop has
its address, and files come only behind it. -/
structure Aimed (verb : Verb) (s : Addressed) : Prop where
  verb : s.command.verb = verb
  inRange : InRange s.command
  before : s.haveAddress = false → NoTarget s.command ∧ s.command.send.files = []
  behind : s.haveAddress = true → OneTarget s.command
  files : s.command.send.files.length ≤ kMaxTransferFiles

theorem invalidAddress_ne_nil (token : Bytes) :
    invalidAddressLine token ++ ascii " " ++ invalidAddressHint ≠ [] := by
  simp

/-- The address that is taken is the one target. -/
theorem takeAddress_ok {command command' : Command} {token : Bytes} (hnone : NoTarget command)
    (hrange : InRange command) (h : takeAddress command token = .ok command') :
    OneTarget command' ∧ InRange command' ∧ command'.verb = command.verb ∧
      command'.send = command.send := by
  rcases hnone with ⟨haddress, halias, hinvite⟩
  unfold takeAddress at h
  split at h
  · split at h
    · cases h
    · next hparses =>
      cases h
      refine ⟨.inr (.inr ⟨haddress, halias, ?_⟩), { hrange with }, rfl, rfl⟩
      dsimp only
      rw [parsePairingInvite_trim]
      exact Option.isSome_iff_ne_none.mpr (Option.isNone_iff_eq_none.not.mp hparses)
  split at h
  · next hname =>
    cases h
    exact ⟨.inr (.inl ⟨haddress, hname.2.1, hinvite⟩), { hrange with }, rfl, rfl⟩
  split at h
  · cases h
  · next host port hsplit =>
    cases h
    have hport : 1 ≤ (port.getD command.port).toNat := by
      cases port with
      | none => exact hrange.port.1
      | some port =>
        apply Nat.one_le_iff_ne_zero.mpr
        intro hzero
        exact port_ne_zero hsplit (UInt16.toNat_inj.mp hzero)
    have hbound := (port.getD command.port).toNat_lt
    refine ⟨.inl ⟨⟨host, host_ne_nil hsplit, rfl⟩, halias, hinvite⟩, ?_, rfl, rfl⟩
    exact { hrange with port := ⟨hport, by dsimp only; omega⟩ }

theorem takeAddress_error {command : Command} {token error : Bytes}
    (h : takeAddress command token = .error error) : error ≠ [] := by
  unfold takeAddress at h
  split at h
  · split at h
    · cases h
      simp [kInviteInvalid]
    · cases h
  split at h
  · cases h
  split at h
  · cases h
    exact invalidAddress_ne_nil token
  · cases h

theorem Aimed.takeTarget {verb : Verb} {s : Addressed} (h : Aimed verb s)
    (hno : s.haveAddress = false) (token : Bytes) (rest : List Bytes) :
    (s.takeTarget token rest).Holds (Aimed verb) Sound := by
  unfold Addressed.takeTarget
  split
  · next herror => exact Sound.of_fail (takeAddress_error herror) _
  · next command hok =>
    rcases takeAddress_ok (h.before hno).1 h.inRange hok with ⟨htarget, hrange, hverb, hsend⟩
    have hfiles : command.send.files.length ≤ kMaxTransferFiles := by
      rw [hsend]
      exact h.files
    refine ⟨hverb.trans h.verb, hrange, ?_, fun _ => htarget, hfiles⟩
    intro hfalse
    cases hfalse

/-- A flag does not touch the target. -/
theorem Aimed.takeFlag {verb : Verb} {s : Addressed} (h : Aimed verb s) {handlers : FlagHandler}
    (hhandlers : Keeping handlers) (token : Bytes) (rest : List Bytes) :
    (s.takeFlag verb handlers token rest).Holds (Aimed verb) Sound := by
  have hflag : (flagStep verb handlers s.command token rest).Holds
      (Kept (operands s.command)) Sound :=
    hhandlers.flagStep ⟨rfl, h.inRange⟩ token rest
  refine hflag.mapState ?_
  rintro command ⟨hsame, hrange⟩
  unfold operands at hsame
  simp only [Prod.mk.injEq] at hsame
  rcases hsame with ⟨hverb, haddress, halias, hinvite, hport, hsend⟩
  constructor
  · exact hverb.trans h.verb
  · exact hrange
  · intro hno
    dsimp only at hno ⊢
    unfold NoTarget
    rw [haddress, halias, hinvite, hsend]
    exact h.before hno
  · intro hhave
    dsimp only at hhave ⊢
    unfold OneTarget HasAddress
    rw [haddress, halias, hinvite, hport]
    exact h.behind hhave
  · dsimp only
    rw [hsend]
    exact h.files

theorem Aimed.oneAddressStep {verb : Verb} {s : Addressed} (h : Aimed verb s)
    {handlers : FlagHandler} (hhandlers : Keeping handlers) (token : Bytes) (rest : List Bytes) :
    (oneAddressStep verb handlers s token rest).Holds (Aimed verb) Sound := by
  unfold Cli.oneAddressStep
  split
  · split
    · exact Sound.of_fail (by simp) _
    · next hno => exact h.takeTarget (Bool.eq_false_iff.mpr hno) token rest
  · exact h.takeFlag hhandlers token rest

/-- The target is there, so the command runs; only `send` asks for more. -/
theorem Aimed.sound {verb : Verb} {s : Addressed} (h : Aimed verb s) (halias : takesAlias verb)
    (hhave : s.haveAddress = true) (hfiles : verb = .send → 1 ≤ s.command.send.files.length) :
    Sound s.command := by
  have hverb := h.verb
  refine .inr (.inr (.inr ⟨?_, h.inRange, fun _ => h.behind hhave, ?_, ?_⟩))
  · rw [hverb]
    rintro rfl
    exact absurd halias (by decide)
  · intro hsend
    exact ⟨hfiles (hverb ▸ hsend), h.files⟩
  · intro hshare
    rw [← hverb, hshare] at halias
    exact absurd halias (by decide)

/-- A command behind which the loop of a verb with a target starts. -/
def Fresh (verb : Verb) (command : Command) : Prop :=
  command.verb = verb ∧ InRange command ∧ NoTarget command ∧ command.send.files = []

theorem Fresh.aimed {verb : Verb} {command : Command} (h : Fresh verb command) :
    Aimed verb { command } := by
  rcases h with ⟨hverb, hrange, hno, hfiles⟩
  refine ⟨hverb, hrange, fun _ => ⟨hno, hfiles⟩, ?_, ?_⟩
  · intro hfalse
    cases hfalse
  · dsimp only
    rw [hfiles]
    exact Nat.zero_le _

theorem sound_parseOneAddress {verb : Verb} (halias : takesAlias verb) (hsend : verb ≠ .send)
    {handlers : FlagHandler} (hhandlers : Keeping handlers) {command : Command}
    (h : Fresh verb command) (args : List Bytes) :
    Sound (parseOneAddress verb handlers command args) := by
  refine loop_holds (fun s token rest hs => hs.oneAddressStep hhandlers token rest) ?_ h.aimed args
  intro s hs
  unfold oneAddressDone
  split
  · exact Sound.of_fail (needsAddress_ne_nil _) _
  · next hhave =>
    rw [Bool.not_eq_true, Bool.not_eq_false'] at hhave
    exact hs.sound halias hhave fun heq => absurd heq hsend

theorem keeping_shellFlags : Keeping shellFlags := by
  apply Keeping.orElse
  · exact keeping_applySwitch fun _ => ⟨rfl, fun h => { h with }⟩
  apply Keeping.orElse
  · intro k command flag rest hkept
    unfold applyResumeFlag
    split
    · trivial
    · refine keeps_withValue ?_ ?_ command flag rest hkept
      · intro command flag text command' hkept huse
        split at huse
        · cases huse
        split at huse
        · cases huse
        · next id _ hne =>
          cases huse
          have hlow : id.toNat ≠ 0 := fun hzero => hne (UInt32.toNat_inj.mp hzero)
          have hhigh := id.toNat_lt
          refine ⟨hkept.1, { hkept.2 with resume := .inr ?_ }⟩
          dsimp only
          omega
      · intro command flag text error huse
        split at huse
        · cases huse
          exact badValue_ne_nil _ _
        split at huse
        · cases huse
          exact badValue_ne_nil _ _
        · cases huse
  · exact keeping_applyNameFlag.orElse keeping_applyConnectionFlag

theorem keeping_connectFlags : Keeping connectFlags := by
  apply Keeping.orElse
  · exact keeping_applySwitch fun _ => ⟨rfl, fun h => { h with }⟩
  apply Keeping.orElse
  · exact keeping_applySwitch fun _ => ⟨rfl, fun h => { h with }⟩
  apply Keeping.orElse
  · exact keeping_applySwitch fun _ => ⟨rfl, fun h => { h with }⟩
  apply Keeping.orElse
  · exact keeping_applyTextFlag fun _ _ => ⟨rfl, fun h => { h with }⟩
  · exact keeping_applyNameFlag.orElse keeping_applyConnectionFlag

theorem Aimed.sendStep {s : Addressed} (h : Aimed .send s) (token : Bytes) (rest : List Bytes) :
    (sendStep s token rest).Holds (Aimed .send) Sound := by
  unfold Cli.sendStep
  split
  · split
    · next hno => exact h.takeTarget (by simpa using hno) token rest
    split
    · exact Sound.of_fail (by simp) _
    · next hhave hroom =>
      have hhave' : s.haveAddress = true := by simpa using hhave
      refine ⟨h.verb, { h.inRange with }, ?_, fun _ => h.behind hhave', ?_⟩
      · intro hno
        rw [hhave'] at hno
        cases hno
      · dsimp only
        rw [List.length_append, List.length_singleton]
        exact Nat.lt_of_not_le hroom
  · exact h.takeFlag (keeping_applyNameFlag.orElse keeping_applyConnectionFlag) token rest

theorem sound_parseSend {command : Command} (h : Fresh .send command) (args : List Bytes) :
    Sound (parseSend command args) := by
  refine loop_holds (fun s token rest hs => hs.sendStep token rest) ?_ h.aimed args
  intro s hs
  unfold sendDone
  split
  · exact Sound.of_fail (needsAddress_ne_nil _) _
  split
  · exact Sound.of_fail (by simp) _
  · next hhave hfiles =>
    rw [Bool.not_eq_true, Bool.not_eq_false'] at hhave
    exact hs.sound (by decide) hhave fun _ => List.length_pos_iff.mpr hfiles

/-! ## Sharing -/

/-- A command of the verb, in range. -/
def Begun (verb : Verb) (command : Command) : Prop := command.verb = verb ∧ InRange command

theorem Keeping.begun {f : FlagHandler} (hf : Keeping f) (verb : Verb) :
    f.Keeps (Begun verb) Failed := by
  rintro command flag rest ⟨hverb, hrange⟩
  refine (hf (operands command) command flag rest ⟨rfl, hrange⟩).mono ?_
  rintro command' ⟨hsame, hrange'⟩
  have hverb' : command'.verb = command.verb := congrArg Prod.fst hsame
  exact ⟨hverb'.trans hverb, hrange'⟩

theorem keeping_shareSwitches : Keeping shareSwitches := by
  apply Keeping.orElse
  · exact keeping_applySwitch fun _ => ⟨rfl, fun h => { h with }⟩
  apply Keeping.orElse
  · exact keeping_applySwitch fun _ => ⟨rfl, fun h => { h with }⟩
  apply Keeping.orElse
  · exact keeping_applySwitch fun _ => ⟨rfl, fun h => { h with }⟩
  apply Keeping.orElse
  · exact keeping_applySwitch fun _ => ⟨rfl, fun h => { h with }⟩
  apply Keeping.orElse
  · exact keeping_applySwitch fun _ => ⟨rfl, fun h => { h with }⟩
  apply Keeping.orElse
  · exact keeping_applySwitch fun _ => ⟨rfl, fun h => { h with }⟩
  apply Keeping.orElse
  · exact keeping_applySwitch fun _ => ⟨rfl, fun h => { h with }⟩
  · exact keeping_applySwitch fun _ => ⟨rfl, fun h => { h with }⟩

/-- The port of `--port` is in its range, so cutting it to 16 bits does not change it. -/
theorem begun_applyPortFlag (verb : Verb) : applyPortFlag.Keeps (Begun verb) Failed := by
  intro command flag rest hbegun
  unfold applyPortFlag
  split
  · trivial
  · refine keeps_withValue ?_ ?_ command flag rest hbegun
    · intro command flag text command' hbegun huse
      split at huse
      · cases huse
      split at huse
      · cases huse
      · next value _ hin =>
        cases huse
        rw [not_or, UInt32.not_lt] at hin
        have hhigh : value.toNat ≤ 65535 := UInt32.le_iff_toNat_le.mp hin.2
        have hlow : value.toNat ≠ 0 := fun hzero => hin.1 (UInt32.toNat_inj.mp hzero)
        have hport : value.toUInt16.toNat = value.toNat := by
          rw [UInt32.toNat_toUInt16]
          exact Nat.mod_eq_of_lt (by omega)
        refine ⟨hbegun.1, { hbegun.2 with port := ?_ }⟩
        dsimp only
        omega
    · intro command flag text error huse
      split at huse
      · cases huse
        exact badValue_ne_nil _ _
      split at huse
      · cases huse
        exact badValue_ne_nil _ _
      · cases huse

theorem begun_shareValues (verb : Verb) : shareValues.Keeps (Begun verb) Failed := by
  unfold shareValues
  refine Handler.Keeps.orElse ?_ (Handler.Keeps.orElse (begun_applyPortFlag verb) ?_)
  · apply Keeping.begun
    exact keeping_applyTextFlag fun _ _ => ⟨rfl, fun h => { h with }⟩
  apply Keeping.begun
  apply Keeping.orElse
  · apply keeping_applyBoundedFlag
    intro value hlow hhigh command
    refine ⟨rfl, fun h => { h with fps := ?_ }⟩
    intro fps hfps
    cases hfps
    exact ⟨hlow, hhigh⟩
  apply Keeping.orElse
  · apply keeping_applyBoundedFlag
    intro value hlow hhigh command
    refine ⟨rfl, fun h => { h with bitrate := ?_ }⟩
    intro mbps hmbps
    cases hmbps
    exact ⟨hlow, hhigh⟩
  apply Keeping.orElse
  · apply keeping_applyBoundedFlag
    intro value hlow hhigh command
    refine ⟨rfl, fun h => { h with maxDim := ?_ }⟩
    intro dim hdim
    cases hdim
    exact ⟨hlow, hhigh⟩
  apply Keeping.orElse
  · apply keeping_applyBoundedFlag
    intro value hlow hhigh command
    exact ⟨rfl, fun h => { h with statusInterval := ⟨hlow, hhigh⟩ }⟩
  apply Keeping.orElse
  · exact keeping_applyTextFlag fun _ _ => ⟨rfl, fun h => { h with }⟩
  apply Keeping.orElse
  · exact keeping_applyTextFlag fun _ _ => ⟨rfl, fun h => { h with }⟩
  · exact keeping_applyNameFlag

/-- The checks behind the loop: an error, or the command as it was, which can share. -/
theorem checkShare_cases (command : Command) :
    Failed (checkShare command) ∨ checkShare command = command ∧ Shareable command.share := by
  have hbindText := badValue_ne_nil (ascii "--bind") (command.share.bindIp.getD [])
  have hnothingText : ascii ("--no-screen leaves nothing to share - add --terminal or --files, " ++
      "or drop --no-screen") ≠ [] := by simp
  have hoppositeText : ascii "--display and --no-screen ask for opposite things" ≠ [] := by simp
  unfold checkShare
  dsimp only
  rcases failIf_cases hnothingText command
      (!command.share.screen && !command.share.terminal && !command.share.files) with
    hfailed | ⟨hshares, hsame⟩
  · exact .inl ((hfailed.failIf _ hoppositeText).failIf _ hbindText)
  rw [hsame]
  rcases failIf_cases hoppositeText command (!command.share.screen && command.share.displays ≠ []) with
    hfailed | ⟨hdisplays, hsame⟩
  · exact .inl (hfailed.failIf _ hbindText)
  rw [hsame]
  refine (failIf_cases hbindText command _).imp_right ?_
  rintro ⟨hbind, hsame⟩
  refine ⟨hsame, ?_, ?_, ?_⟩
  · cases hscreen : command.share.screen
    · simpa [hscreen, or_iff_not_imp_left] using hshares
    · exact .inl rfl
  · intro hscreen
    simpa [hscreen] using hdisplays
  · intro bindIp hsome hne
    rw [hsome] at hbind
    simpa [hne] using hbind

theorem sound_parseShare {command : Command} (h : Begun .share command) (args : List Bytes) :
    Sound (parseShare command args) := by
  refine loop_holds ?_ ?_ h args
  · intro s token rest hs
    unfold shareStep
    split
    · exact Sound.of_fail (by simp) _
    · exact holds_flagStep (keeping_applyGlobalFlag.begun .share)
        ((keeping_shareSwitches.begun .share).orElse (begun_shareValues .share)) hs token rest
  · rintro s ⟨hverb, hrange⟩
    rcases checkShare_cases s with hfailed | ⟨hsame, hshareable⟩
    · exact .inl hfailed
    · rw [hsame]
      refine .inr (.inr (.inr ⟨?_, hrange, ?_, ?_, fun _ => hshareable⟩))
      · rw [hverb]
        decide
      · rw [hverb]
        exact fun halias => absurd halias (by decide)
      · rw [hverb]
        exact fun hsend => absurd hsend (by decide)

/-! ## Verbs with an action -/

theorem takeForgetTarget_error {command command' : Command} {args : List Bytes}
    (h : takeForgetTarget command args = .error command') : Failed command' := by
  unfold takeForgetTarget at h
  split at h
  · cases h
    exact failed_fail (by simp) _
  split at h
  · cases h
    exact failed_fail (by simp) _
  split at h
  · cases h
  · cases h

theorem takeForgetTarget_ok {command command' : Command} {args rest : List Bytes} {forgetAll : Bool}
    (hrange : InRange command) (h : takeForgetTarget command args = .ok (command', forgetAll, rest)) :
    command'.verb = command.verb ∧ InRange command' := by
  unfold takeForgetTarget at h
  split at h
  · cases h
  split at h
  · cases h
  split at h
  · cases h
    exact ⟨rfl, hrange⟩
  · cases h
    exact ⟨rfl, { hrange with }⟩

section Actions

variable {command : Command}

theorem Ready.parseDevices (hready : Ready command) (args : List Bytes) :
    Sound (parseDevices command args) := by
  unfold Cli.parseDevices
  split
  · exact Ready.sound ⟨hready.1, { hready.2 with }⟩
  split
  · exact Ready.parseNoArgVerb ⟨hready.1, { hready.2 with }⟩
  split
  · exact Ready.parseNoArgVerb ⟨hready.1, { hready.2 with }⟩
  split
  · exact Ready.parseNoArgVerb ⟨hready.1, { hready.2 with }⟩
  split
  · dsimp only
    split
    · exact Sound.of_fail (needsAction_ne_nil _ _) _
    · exact Ready.parseNoArgVerb ⟨hready.1, { hready.2 with }⟩
  split
  · split
    · next herror => exact .inl (takeForgetTarget_error herror)
    · next hok =>
      rcases takeForgetTarget_ok hready.2 hok with ⟨hverb, hrange⟩
      exact Ready.parseNoArgVerb ⟨hverb ▸ hready.1, { hrange with }⟩
  · exact Sound.of_fail (needsAction_ne_nil _ _) _

theorem Ready.parseTrust (hready : Ready command) (args : List Bytes) :
    Sound (parseTrust command args) := by
  unfold Cli.parseTrust
  split
  · exact Ready.sound ⟨hready.1, { hready.2 with }⟩
  split
  · exact Ready.parseNoArgVerb ⟨hready.1, { hready.2 with }⟩
  split
  · exact Ready.parseNoArgVerb ⟨hready.1, { hready.2 with }⟩
  split
  · exact Ready.parseNoArgVerb ⟨hready.1, { hready.2 with }⟩
  split
  · dsimp only
    split
    · exact Sound.of_fail (needsAction_ne_nil _ _) _
    split
    · exact Sound.of_fail (needsAction_ne_nil _ _) _
    · refine Ready.loop ⟨hready.1, { hready.2 with }⟩ ?_ (fun s h => h)
      intro s token rest hkept
      unfold trustAddStep
      split
      · exact Sound.of_fail (by simp) _
      · exact keeping_applyNameFlag.flagStep hkept token rest
  split
  · split
    · next herror => exact .inl (takeForgetTarget_error herror)
    · next hok =>
      rcases takeForgetTarget_ok hready.2 hok with ⟨hverb, hrange⟩
      exact Ready.parseNoArgVerb ⟨hverb ▸ hready.1, { hrange with }⟩
  · exact Sound.of_fail (needsAction_ne_nil _ _) _

theorem Ready.parseKey (hready : Ready command) (args : List Bytes) :
    Sound (parseKey command args) := by
  unfold Cli.parseKey
  split
  · exact .inr (.inl rfl)
  split
  · exact Sound.of_fail (by simp) _
  split
  · exact Sound.of_fail (by simp) _
  · exact Ready.parseNoArgVerb ⟨hready.1, { hready.2 with }⟩

/-- A check behind a loop adds an error or leaves the command. -/
theorem Sound.failIf {command : Command} (h : Sound command) (bad : Bool) {error : Bytes}
    (herror : error ≠ []) : Sound (command.failIf bad error) := by
  rcases failIf_cases herror command bad with hfailed | ⟨-, hsame⟩
  · exact .inl hfailed
  · rw [hsame]
    exact h

theorem Ready.parseAccess (hready : Ready command) (args : List Bytes) :
    Sound (parseAccess command args) := by
  unfold Cli.parseAccess
  dsimp only
  split
  · exact .inr (.inl rfl)
  split
  · exact Sound.of_fail (by simp [kActions]) _
  split
  · exact Sound.of_fail (by simp [kActions]) _
  · refine Ready.loop ⟨hready.1, { hready.2 with }⟩ ?_ (fun s h => h.failIf _ (by simp))
    have hflags : Keeping accessFlags := by
      apply Keeping.orElse
      · exact keeping_onlyIf (keeping_applySwitch fun _ => ⟨rfl, fun h => { h with }⟩)
      · exact keeping_onlyIf (keeping_applyTextFlag fun _ _ => ⟨rfl, fun h => { h with }⟩)
    exact fun s token rest hkept => hflags.flagStep hkept token rest

theorem Ready.hostLoop {args : List Bytes} (hready : Ready command) :
    Sound (hostLoop command args) := by
  refine hready.loop ?_ ?_
  · have hflags : Keeping hostFlags := by
      apply Keeping.orElse
      · exact keeping_onlyIf (keeping_applyTextFlag fun _ _ => ⟨rfl, fun h => { h with }⟩)
      · exact keeping_onlyIf (keeping_applySwitch fun _ => ⟨rfl, fun h => { h with }⟩)
    exact fun s token rest hkept => hflags.flagStep hkept token rest
  · intro s h
    exact (h.failIf _ (by simp)).failIf _ (by simp)

theorem Ready.parseHost (hready : Ready command) (args : List Bytes) :
    Sound (parseHost command args) := by
  unfold Cli.parseHost
  split
  · exact .inr (.inl rfl)
  split
  · exact Sound.of_fail (by simp) _
  split
  · exact Sound.of_fail (by simp) _
  dsimp only
  split
  · split
    · exact .inr (.inl rfl)
    split
    · exact Sound.of_fail (by simp) _
    · exact Ready.hostLoop ⟨hready.1, { hready.2 with }⟩
  · exact Ready.hostLoop ⟨hready.1, { hready.2 with }⟩

theorem Ready.parseHostKey (hready : Ready command) (args : List Bytes) :
    Sound (parseHostKey command args) := by
  unfold Cli.parseHostKey
  split
  · exact Sound.of_fail (by simp) _
  split
  · exact Ready.parseNoArgVerb ⟨hready.1, { hready.2 with }⟩
  · exact Sound.of_fail (by simp) _

theorem Ready.parseSettings (hready : Ready command) (args : List Bytes) :
    Sound (parseSettings command args) := by
  unfold Cli.parseSettings
  split
  · exact Ready.sound ⟨hready.1, { hready.2 with }⟩
  split
  · exact Ready.parseNoArgVerb ⟨hready.1, { hready.2 with }⟩
  split
  · exact Ready.parseNoArgVerb ⟨hready.1, { hready.2 with }⟩
  split
  · split
    · exact Sound.of_fail (by simp) _
    · exact Ready.parseNoArgVerb ⟨hready.1, { hready.2 with }⟩
  split
  · split
    · exact Sound.of_fail (by simp) _
    split
    · exact Sound.of_fail (by simp) _
    split
    · exact Sound.of_fail (by simp) _
    · exact Ready.parseNoArgVerb ⟨hready.1, { hready.2 with }⟩
  · exact Sound.of_fail (needsAction_ne_nil _ _) _

end Actions

/-! ## The whole command line -/

theorem unknownCommand_ne_nil (token : Bytes) : unknownCommand token ≠ [] := by
  simp [unknownCommand]

theorem verb_parseHelp (command : Command) (args : List Bytes) :
    (parseHelp command args).verb = .help := by
  unfold parseHelp
  dsimp only
  split
  · rfl
  split
  · rfl
  · rfl

/-- Every verb, from the command as it is in front of the verb. -/
theorem sound_parseVerb {command : Command} (h : Kept (operands {}) command) (token : Bytes)
    (args : List Bytes) : Sound (parseVerb command token args) := by
  rcases h with ⟨hsame, hrange⟩
  unfold operands at hsame
  simp only [Prod.mk.injEq] at hsame
  rcases hsame with ⟨-, haddress, halias, hinvite, -, hsend⟩
  have hrange' : ∀ verb, InRange { command with verb } := fun verb => { hrange with }
  have hready : ∀ verb, Plain verb → Ready { command with verb } := fun verb hplain =>
    ⟨hplain, hrange' verb⟩
  have hfresh : ∀ verb, Fresh verb { command with verb } := by
    intro verb
    refine ⟨rfl, hrange' verb, ⟨haddress, halias, hinvite⟩, ?_⟩
    dsimp only
    rw [hsend]
  unfold parseVerb
  dsimp only
  cases verbOf token with
  | none => exact Sound.of_fail (unknownCommand_ne_nil token) _
  | help => exact .inr (.inl (verb_parseHelp _ args))
  | version => exact (hready .version (by decide)).parseNoArgVerb
  | displays => exact (hready .displays (by decide)).parseNoArgVerb
  | sources =>
    have halias : takesAlias .sources = true := by decide
    exact sound_parseOneAddress halias (by simp) keeping_applyConnectionFlag (hfresh .sources) args
  | devices =>
    dsimp only
    split
    · exact (hready .devices (by decide)).parseKey args
    split
    · exact (hready .devices (by decide)).parseAccess args
    · exact (hready .devices (by decide)).parseDevices args
  | trust => exact (hready .trust (by decide)).parseTrust args
  | host =>
    dsimp only
    split
    · exact (hready .host (by decide)).parseHostKey args
    · exact (hready .host (by decide)).parseHost args
  | settings => exact (hready .settings (by decide)).parseSettings args
  | share => exact sound_parseShare ⟨rfl, hrange' _⟩ args
  | shell => exact sound_parseOneAddress (by decide) (by decide) keeping_shellFlags (hfresh .shell) args
  | connect =>
    exact sound_parseOneAddress (by decide) (by decide) keeping_connectFlags (hfresh _) args
  | send => exact sound_parseSend (hfresh _) args

theorem sound_parseCommand (argv : List Bytes) : Sound (parseCommand argv) := by
  have hdefault : Kept (operands {}) {} := ⟨rfl, inRange_default⟩
  refine loop_holds ?_ ?_ hdefault argv.tail
  · intro s token rest hkept
    have hglobal := keeping_applyGlobalFlag _ s (splitFlag token) rest hkept
    unfold leadingStep
    split
    · dsimp only
      split
      · exact .inr (.inl rfl)
      split
      · exact .inr (.inr (.inl rfl))
      split
      · next heq =>
        rw [heq] at hglobal
        exact hglobal
      · next heq =>
        rw [heq] at hglobal
        exact .inl hglobal
      · exact Sound.of_fail (unknownOption_ne_nil _ _) _
    · exact sound_parseVerb hkept token rest
  · exact fun s _ => .inr (.inl rfl)

/-- An accepted command line can run. -/
theorem parseCommand_runnable (argv : List Bytes) (haccepted : (parseCommand argv).error = [])
    (hhelp : (parseCommand argv).verb ≠ .help) (hversion : (parseCommand argv).verb ≠ .version) :
    Runnable (parseCommand argv) := by
  rcases sound_parseCommand argv with hfailed | hisHelp | hisVersion | hrunnable
  · exact absurd haccepted hfailed
  · exact absurd hisHelp hhelp
  · exact absurd hisVersion hversion
  · exact hrunnable

/-- Two files for a saved host, with an option between them. -/
theorem parseCommand_runnable_send :
    Runnable (parseCommand ([ "deskhub-cli", "--json", "send", "desk", "a.txt", "--approval-wait=20",
      "b.txt"].map ascii)) :=
  parseCommand_runnable _ (by decide) (by decide) (by decide)

end Cli

end Deskhub
