import Deskhub.Lib.ArgumentLoop
import Deskhub.Lib.OrdMap
import Deskhub.Net.PairingInvite
import Deskhub.Protocol.Wire.File
import Deskhub.Ui.UiSettings

/-!
# The command line: options

`Command` and the options that several verbs share. The cursor of the source is the list of the
arguments that are left.
-/

namespace Deskhub

open ArgumentLoop PairingInvite

namespace Cli

inductive Verb where
  | none
  | help
  | version
  | displays
  | sources
  | devices
  | trust
  | host
  | settings
  | share
  | shell
  | connect
  | send
deriving DecidableEq, Repr

inductive DevicesAction where
  | list
  | add
  | «public»
  | forget
  | forgetAll
  | requests
  | approve
  | deny
deriving DecidableEq, Repr

inductive TrustAction where
  | list
  | add
  | «public»
  | forget
  | forgetAll
  | update
deriving DecidableEq, Repr

inductive SettingsAction where
  | list
  | get
  | set
deriving DecidableEq, Repr

def kProgram : Bytes := ascii "deskhub-cli"
def kInviteInvalid : Bytes := ascii "That is not a Deskhub QR code or invite link."
def kDefaultStatusIntervalMs : UInt32 := 5000
def kMinStatusIntervalMs : UInt32 := 200
def kMaxStatusIntervalMs : UInt32 := 3600000
def kMaxApprovalWaitSeconds : UInt32 := 600

structure ConnectOptions where
  sources : List Bytes := []
  control : Bool := true
  audio : Option Bool := none
deriving DecidableEq, Repr

structure ShellOptions where
  list : Bool := false
  resumeId : UInt32 := 0
deriving DecidableEq, Repr

structure SendOptions where
  files : List Bytes := []
deriving DecidableEq, Repr

structure ShareOptions where
  displays : List Bytes := []
  screen : Bool := true
  terminal : Bool := false
  files : Bool := false
  filesDir : Option Bytes := none
  statusIntervalMs : UInt32 := kDefaultStatusIntervalMs
  status : Bool := true
  qr : Bool := false
  fps : Option UInt32 := none
  bitrateMbps : Option UInt32 := none
  maxDim : Option UInt32 := none
  allowInput : Option Bool := none
  audio : Option Bool := none
  bindIp : Option Bytes := none
deriving DecidableEq, Repr

structure Command where
  verb : Verb := .none
  helpFor : Verb := .none
  error : Bytes := []
  json : Bool := false
  quiet : Bool := false
  verbose : Bool := false
  accessSyntax : Bool := false
  configDir : Option Bytes := none
  address : Bytes := []
  profileAlias : Bytes := []
  pairingInvite : Bytes := []
  port : UInt16 := kDeskhubPort
  portGiven : Bool := false
  deviceName : Option Bytes := none
  acceptNewHostKey : Bool := false
  approvalWaitSeconds : Option UInt32 := none
  devices : DevicesAction := .list
  trust : TrustAction := .list
  settings : SettingsAction := .list
  target : Bytes := []
  forget : Bool := false
  key : Bytes := []
  value : Bytes := []
  share : ShareOptions := {}
  connect : ConnectOptions := {}
  send : SendOptions := {}
  shell : ShellOptions := {}
deriving DecidableEq, Repr

/-- The command with its error. -/
def Command.fail (command : Command) (error : Bytes) : Command := { command with error }

/-- One of the checks behind a loop. -/
def Command.failIf (command : Command) (bad : Bool) (error : Bytes) : Command :=
  if bad then command.fail error else command

def verbName : Verb → Bytes
  | .help => ascii "help"
  | .version => ascii "version"
  | .displays => ascii "displays"
  | .sources => ascii "sources"
  | .devices => ascii "devices"
  | .trust => ascii "trust"
  | .host => ascii "host"
  | .settings => ascii "settings"
  | .share => ascii "share"
  | .shell => ascii "shell"
  | .connect => ascii "connect"
  | .send => ascii "send"
  | .none => []

def verbOf (token : Bytes) : Verb :=
  if token = ascii "help" then .help
  else if token = ascii "version" then .version
  else if token = ascii "displays" then .displays
  else if token = ascii "sources" then .sources
  else if token = ascii "devices" then .devices
  else if token = ascii "trust" then .trust
  else if token = ascii "host" ∨ token = ascii "host-key" then .host
  else if token = ascii "key" ∨ token = ascii "access" then .devices
  else if token = ascii "settings" then .settings
  else if token = ascii "share" then .share
  else if token = ascii "shell" then .shell
  else if token = ascii "connect" then .connect
  else if token = ascii "send" then .send
  else .none

/-! ## Texts -/

def quoted (text : Bytes) : Bytes := ascii "\"" ++ text ++ ascii "\""

def unknownOption (name : Bytes) (verb : Verb) : Bytes :=
  let message := ascii "unknown option " ++ quoted name
  if verb ≠ .none then message ++ ascii " for '" ++ verbName verb ++ ascii "'" else message

def missingValue (name : Bytes) : Bytes := name ++ ascii " needs a value"

def badValue (name value : Bytes) : Bytes := name ++ ascii " does not accept " ++ quoted value

def needsAddress (verb : Verb) : Bytes :=
  verbName verb ++ ascii " needs a host address, for example " ++ kProgram ++ ascii " " ++
    verbName verb ++ ascii " 192.168.1.10"

def needsAction (verb : Verb) (actions : Bytes) : Bytes :=
  verbName verb ++ ascii " needs one of: " ++ actions

/-! ## Flags -/

/-- `Flag`, with a value where `hasInlineValue` is set. -/
structure Flag where
  name : Bytes
  inlineValue : Option Bytes
deriving DecidableEq, Repr

def isFlagToken (token : Bytes) : Bool := 1 < token.length && token.head? = some 45

def splitFlag (token : Bytes) : Flag :=
  match cutAt 61 token with
  | none => { name := token, inlineValue := none }
  | some (name, value) => { name, inlineValue := some value }

def wantsHelp (flag : Flag) : Bool :=
  flag.inlineValue = none ∧ (flag.name = ascii "--help" ∨ flag.name = ascii "-h")

def wantsVersion (flag : Flag) : Bool :=
  flag.inlineValue = none ∧ (flag.name = ascii "--version" ∨ flag.name = ascii "-V")

/-- `ValueOf`: the value of a flag and the arguments that are left, or the error. -/
def valueOf (flag : Flag) (rest : List Bytes) : Except Bytes (Bytes × Left rest) :=
  match flag.inlineValue with
  | some value => if value = [] then .error (missingValue flag.name) else .ok (value, Left.all rest)
  | none =>
    match rest with
    | [] => .error (missingValue flag.name)
    | value :: left => .ok (value, ⟨left, List.suffix_cons value left⟩)

abbrev FlagHandler : Type := Handler Command Flag Bytes

/-- A flag with a value: what `use` makes of the value is the new command or an error. -/
def withValue (use : Command → Flag → Bytes → Except Bytes Command) : FlagHandler :=
  fun command flag rest =>
    match valueOf flag rest with
    | .error error => .failed (command.fail error)
    | .ok (text, left) =>
      match use command flag text with
      | .error error => .failed (command.fail error)
      | .ok command => .handled command left

/-- A flag without a value. -/
def applySwitch (name : Bytes) (set : Command → Command) : FlagHandler :=
  fun command flag rest =>
    if flag.inlineValue = none ∧ flag.name = name then .handled (set command) (Left.all rest)
    else .unknown

def applyTextFlag (name : Bytes) (set : Command → Bytes → Command) : FlagHandler :=
  fun command flag rest =>
    if flag.name ≠ name then .unknown
    else withValue (fun command _ text => .ok (set command text)) command flag rest

def applyBoundedFlag (name : Bytes) (low high : UInt32) (set : Command → UInt32 → Command) :
    FlagHandler :=
  fun command flag rest =>
    if flag.name ≠ name then .unknown
    else
      withValue (fun command flag text =>
        match parseUint text with
        | none => .error (badValue flag.name text)
        | some value =>
          if value < low ∨ high < value then .error (badValue flag.name text)
          else .ok (set command value)) command flag rest

def applyPortFlag : FlagHandler := fun command flag rest =>
  if flag.name ≠ ascii "--port" then .unknown
  else
    withValue (fun command flag text =>
      match parseUint text with
      | none => .error (badValue flag.name text)
      | some value =>
        if value = 0 ∨ 65535 < value then .error (badValue flag.name text)
        else .ok { command with port := value.toUInt16, portGiven := true }) command flag rest

def applyGlobalFlag : FlagHandler := fun command flag rest =>
  if flag.name = ascii "--config-dir" then
    withValue (fun command _ value => .ok { command with configDir := some value }) command flag rest
  else if flag.inlineValue ≠ none then .unknown
  else if flag.name = ascii "--json" then .handled { command with json := true } (Left.all rest)
  else if flag.name = ascii "--quiet" ∨ flag.name = ascii "-q" then
    .handled { command with quiet := true } (Left.all rest)
  else if flag.name = ascii "--verbose" ∨ flag.name = ascii "-v" then
    .handled { command with verbose := true } (Left.all rest)
  else .unknown

def applyConnectionFlag : FlagHandler :=
  (applySwitch (ascii "--accept-new-host-key") fun command =>
    { command with acceptNewHostKey := true }).orElse
  (applyBoundedFlag (ascii "--approval-wait") 1 kMaxApprovalWaitSeconds fun command value =>
    { command with approvalWaitSeconds := some value })

/-- `--name`. -/
def applyNameFlag : FlagHandler :=
  applyTextFlag (ascii "--name") fun command text => { command with deviceName := some text }

/-! ## Addresses -/

/-- The verbs that take the name of a saved host for its address. -/
def takesAlias (verb : Verb) : Bool :=
  verb = .connect ∨ verb = .sources ∨ verb = .shell ∨ verb = .send

local instance instLawfulBEqUInt8 : LawfulBEq UInt8 := inferInstance

/-- `TakeAddress`: the command with its target, or the error. -/
def takeAddress (command : Command) (token : Bytes) : Except Bytes Command :=
  if isPairingInvite token then
    if (parsePairingInvite token).isNone then .error kInviteInvalid
    else .ok { command with pairingInvite := trim token }
  else if takesAlias command.verb ∧ token ≠ [] ∧ 58 ∉ token ∧ 46 ∉ token ∧ 47 ∉ token then
    .ok { command with profileAlias := token }
  else
    match splitHostPort (trim token) with
    | none => .error (invalidAddressLine token ++ ascii " " ++ invalidAddressHint)
    | some (host, port) =>
      let port := port.getD command.port
      .ok { command with port, address := host ++ ascii ":" ++ decimal port.toNat }

/-! ## One option in a loop -/

/-- What the loops do with a flag: help is shown, the flags of all verbs come before those of the
verb, and a flag that is none of them is an error. -/
def flagStep (verb : Verb) (handlers : FlagHandler) (command : Command) (token : Bytes)
    (rest : List Bytes) : Step Command Command rest :=
  let flag := splitFlag token
  if wantsHelp flag then .stop { command with helpFor := verb, verb := .help }
  else
    match applyGlobalFlag.orElse handlers command flag rest with
    | .handled command left => .goOn command left
    | .failed command => .stop command
    | .unknown => .stop (command.fail (unknownOption flag.name verb))

end Cli

end Deskhub

/-!
## The command line: verbs

Every verb has a loop over the arguments behind it and, for some, a check behind the loop.
`parseCommand` is the loop over the options in front of the verb.
-/

namespace Deskhub

open ArgumentLoop

namespace Cli

/-- A handler that is there only for some commands. -/
def onlyIf (p : Command → Bool) (handler : FlagHandler) : FlagHandler := fun command flag rest =>
  if p command then handler command flag rest else .unknown

/-- The body of the loop of the verbs without arguments. -/
def noArgStep (verb : Verb) (command : Command) (token : Bytes) (rest : List Bytes) :
    Step Command Command rest :=
  if !isFlagToken token then
    .stop (command.fail
      (verbName command.verb ++ ascii " takes no arguments, but got " ++ quoted token))
  else
    flagStep command.verb (onlyIf (fun _ => verb = .displays)
      (applySwitch (ascii "--forget") fun command => { command with forget := true }))
      command token rest

def parseNoArgVerb (command : Command) (args : List Bytes) : Command :=
  loop (noArgStep command.verb) id command args

/-! ## Verbs with one target -/

/-- A command with the loop's `haveAddress`. -/
structure Addressed where
  command : Command
  haveAddress : Bool := false

/-- The address, the first argument that is no flag. -/
def Addressed.takeTarget (s : Addressed) (token : Bytes) (rest : List Bytes) :
    Step Addressed Command rest :=
  match takeAddress s.command token with
  | .error error => .stop (s.command.fail error)
  | .ok command => .goOn { command, haveAddress := true } (Left.all rest)

/-- A flag of a verb with an address. -/
def Addressed.takeFlag (verb : Verb) (handlers : FlagHandler) (s : Addressed) (token : Bytes)
    (rest : List Bytes) : Step Addressed Command rest :=
  (flagStep verb handlers s.command token rest).mapState fun command => { s with command }

def oneAddressStep (verb : Verb) (handlers : FlagHandler) (s : Addressed) (token : Bytes)
    (rest : List Bytes) : Step Addressed Command rest :=
  if !isFlagToken token then
    if s.haveAddress then
      .stop (s.command.fail
        (verbName verb ++ ascii " takes one address, but got " ++ quoted token ++ ascii " as well"))
    else s.takeTarget token rest
  else s.takeFlag verb handlers token rest

def oneAddressDone (verb : Verb) (s : Addressed) : Command :=
  if !s.haveAddress then s.command.fail (needsAddress verb) else s.command

/-- The verbs with one address, with the flags of the verb. -/
def parseOneAddress (verb : Verb) (handlers : FlagHandler) (command : Command)
    (args : List Bytes) : Command :=
  loop (oneAddressStep verb handlers) (oneAddressDone verb) { command } args

def parseAddressVerb (command : Command) (args : List Bytes) : Command :=
  parseOneAddress command.verb applyConnectionFlag command args

/-- `--resume`. -/
def applyResumeFlag : FlagHandler := fun command flag rest =>
  if flag.name ≠ ascii "--resume" then .unknown
  else
    withValue (fun command flag text =>
      match parseUint text with
      | none => .error (badValue flag.name text)
      | some id =>
        if id = 0 then .error (badValue flag.name text)
        else .ok { command with shell := { command.shell with resumeId := id } }) command flag rest

def shellFlags : FlagHandler :=
  (applySwitch (ascii "--list") fun command =>
    { command with shell := { command.shell with list := true } }).orElse
  (applyResumeFlag.orElse
  (applyNameFlag.orElse applyConnectionFlag))

def parseShell (command : Command) (args : List Bytes) : Command :=
  parseOneAddress .shell shellFlags command args

def connectFlags : FlagHandler :=
  (applySwitch (ascii "--view-only") fun command =>
    { command with connect := { command.connect with control := false } }).orElse
  ((applySwitch (ascii "--audio") fun command =>
    { command with connect := { command.connect with audio := some true } }).orElse
  ((applySwitch (ascii "--no-audio") fun command =>
    { command with connect := { command.connect with audio := some false } }).orElse
  ((applyTextFlag (ascii "--source") fun command text =>
    { command with connect :=
      { command.connect with sources := command.connect.sources ++ [text] } }).orElse
  (applyNameFlag.orElse applyConnectionFlag))))

def parseConnect (command : Command) (args : List Bytes) : Command :=
  parseOneAddress .connect connectFlags command args

/-- What behind the address is no flag is a file. -/
def sendStep (s : Addressed) (token : Bytes) (rest : List Bytes) : Step Addressed Command rest :=
  if !isFlagToken token then
    if !s.haveAddress then s.takeTarget token rest
    else if kMaxTransferFiles ≤ s.command.send.files.length then
      .stop (s.command.fail
        (ascii "send carries at most " ++ decimal kMaxTransferFiles ++ ascii " files at a time"))
    else
      let send := { files := s.command.send.files ++ [token] }
      .goOn { s with command := { s.command with send } } (Left.all rest)
  else s.takeFlag .send (applyNameFlag.orElse applyConnectionFlag) token rest

def sendDone (s : Addressed) : Command :=
  if !s.haveAddress then s.command.fail (needsAddress .send)
  else if s.command.send.files = [] then
    s.command.fail (ascii "send needs at least one file to send")
  else s.command

def parseSend (command : Command) (args : List Bytes) : Command :=
  loop sendStep sendDone { command } args

/-! ## Sharing -/

/-- The flags without a value that change what is shared. -/
def shareSwitches : FlagHandler :=
  (applySwitch (ascii "--terminal") fun command =>
    { command with share := { command.share with terminal := true } }).orElse
  ((applySwitch (ascii "--files") fun command =>
    { command with share := { command.share with files := true } }).orElse
  ((applySwitch (ascii "--no-screen") fun command =>
    { command with share := { command.share with screen := false } }).orElse
  ((applySwitch (ascii "--no-input") fun command =>
    { command with share := { command.share with allowInput := some false } }).orElse
  ((applySwitch (ascii "--audio") fun command =>
    { command with share := { command.share with audio := some true } }).orElse
  ((applySwitch (ascii "--no-audio") fun command =>
    { command with share := { command.share with audio := some false } }).orElse
  ((applySwitch (ascii "--no-status") fun command =>
    { command with share := { command.share with status := false } }).orElse
  (applySwitch (ascii "--qr") fun command =>
    { command with share := { command.share with qr := true } })))))))

/-- The flags with a value. -/
def shareValues : FlagHandler :=
  (applyTextFlag (ascii "--display") fun command text =>
    { command with share :=
      { command.share with displays := command.share.displays ++ [text] } }).orElse
  (applyPortFlag.orElse
  ((applyBoundedFlag (ascii "--fps") 1 kMaxSettingsFps fun command value =>
    { command with share := { command.share with fps := some value } }).orElse
  ((applyBoundedFlag (ascii "--bitrate") 1 kMaxSettingsBitrateMbps fun command value =>
    { command with share := { command.share with bitrateMbps := some value } }).orElse
  ((applyBoundedFlag (ascii "--max-dim") 1 kMaxSettingsDim fun command value =>
    { command with share := { command.share with maxDim := some value } }).orElse
  ((applyBoundedFlag (ascii "--status-interval") kMinStatusIntervalMs kMaxStatusIntervalMs
    fun command value =>
    { command with share := { command.share with statusIntervalMs := value } }).orElse
  ((applyTextFlag (ascii "--bind") fun command text =>
    { command with share := { command.share with bindIp := some text } }).orElse
  ((applyTextFlag (ascii "--files-dir") fun command text =>
    { command with share := { command.share with filesDir := some text } }).orElse
  applyNameFlag)))))))

/-- The checks behind the loop: each error replaces the one before it. -/
def checkShare (command : Command) : Command :=
  let share := command.share
  ((command.failIf (!share.screen && !share.terminal && !share.files)
      (ascii ("--no-screen leaves nothing to share - add --terminal or --files, " ++
        "or drop --no-screen"))).failIf
    (!share.screen && share.displays ≠ [])
      (ascii "--display and --no-screen ask for opposite things")).failIf
    (share.bindIp.any fun bindIp => bindIp ≠ [] && (parseIPv4 bindIp).isNone)
      (badValue (ascii "--bind") (share.bindIp.getD []))

def shareStep (command : Command) (token : Bytes) (rest : List Bytes) :
    Step Command Command rest :=
  if !isFlagToken token then
    .stop (command.fail
      (ascii "share names its displays with --display, so it does not take " ++ quoted token))
  else flagStep .share (shareSwitches.orElse shareValues) command token rest

def parseShare (command : Command) (args : List Bytes) : Command :=
  loop shareStep checkShare command args

/-! ## Verbs with an action -/

/-- `TakeForgetTarget`: the command with its target, whether all are forgotten, and the arguments
that are left; or the command with an error. -/
def takeForgetTarget (command : Command) :
    List Bytes → Except Command (Command × Bool × List Bytes)
  | [] => .error (command.fail (verbName command.verb ++ ascii " forget needs a target, or 'all'"))
  | token :: rest =>
    if isFlagToken token then
      .error (command.fail (verbName command.verb ++ ascii " forget needs a target, or 'all'"))
    else if token = ascii "all" then .ok (command, true, rest)
    else .ok ({ command with target := token }, false, rest)

/-- The argument an action needs, if it is there and no flag. -/
def takeOperand : List Bytes → Option (Bytes × List Bytes)
  | [] => none
  | token :: rest => if isFlagToken token then none else some (token, rest)

def parseDevices (command : Command) : List Bytes → Command
  | [] => { command with devices := .list }
  | action :: rest =>
    if isFlagToken action then parseNoArgVerb { command with devices := .list } (action :: rest)
    else if action = ascii "list" then parseNoArgVerb { command with devices := .list } rest
    else if action = ascii "public" then parseNoArgVerb { command with devices := .«public» } rest
    else if action = ascii "add" then
      let command := { command with devices := .add }
      match takeOperand rest with
      | none => command.fail (needsAction .devices (ascii "add PUBLIC_KEY or add -"))
      | some (target, rest) => parseNoArgVerb { command with target } rest
    else if action = ascii "forget" then
      match takeForgetTarget command rest with
      | .error command => command
      | .ok (command, forgetAll, rest) =>
        parseNoArgVerb { command with devices := if forgetAll then .forgetAll else .forget } rest
    else
      command.fail (needsAction .devices
        (ascii "list, public, add PUBLIC_KEY, forget FINGERPRINT, forget all"))

def trustAddStep (command : Command) (token : Bytes) (rest : List Bytes) :
    Step Command Command rest :=
  if !isFlagToken token then .stop (command.fail (ascii "trust add takes one address and one key"))
  else flagStep command.verb applyNameFlag command token rest

def parseTrust (command : Command) : List Bytes → Command
  | [] => { command with trust := .list }
  | action :: rest =>
    if isFlagToken action then parseNoArgVerb { command with trust := .list } (action :: rest)
    else if action = ascii "list" then parseNoArgVerb { command with trust := .list } rest
    else if action = ascii "public" then parseNoArgVerb { command with trust := .«public» } rest
    else if action = ascii "add" then
      let command := { command with trust := .add }
      match takeOperand rest with
      | none => command.fail (needsAction .trust (ascii "add ADDRESS FINGERPRINT"))
      | some (target, rest) =>
        let command := { command with target }
        match takeOperand rest with
        | none => command.fail (needsAction .trust (ascii "add ADDRESS FINGERPRINT"))
        | some (value, rest) => loop trustAddStep id { command with value } rest
    else if action = ascii "forget" then
      match takeForgetTarget command rest with
      | .error command => command
      | .ok (command, forgetAll, rest) =>
        parseNoArgVerb { command with trust := if forgetAll then .forgetAll else .forget } rest
    else
      command.fail (needsAction .trust
        (ascii "list, public, add ADDRESS FINGERPRINT, forget ADDRESS, forget all"))

/-- The next argument asks for help. -/
def helpNext (args : List Bytes) : Bool := args.head?.any fun token => wantsHelp (splitFlag token)

def parseKey (command : Command) (args : List Bytes) : Command :=
  if helpNext args then { command with helpFor := .devices, verb := .help }
  else
    match takeOperand args with
    | none => command.fail (ascii "key needs public")
    | some (token, rest) =>
      if token ≠ ascii "public" then command.fail (ascii "key needs public")
      else parseNoArgVerb { command with devices := .«public» } rest

/-- The action of `access`. -/
def accessAction (token : Bytes) : Option DevicesAction :=
  if token = ascii "add" then some .add
  else if token = ascii "list" then some .list
  else if token = ascii "requests" then some .requests
  else if token = ascii "approve" then some .approve
  else if token = ascii "deny" then some .deny
  else if token = ascii "remove" then some .forget
  else if token = ascii "clear" then some .forgetAll
  else none

def kActions : Bytes := ascii "access needs add, list, requests, approve, deny, remove, or clear"

def wantsFingerprint (command : Command) : Bool :=
  command.devices = .forget ∨ command.devices = .approve ∨ command.devices = .deny

def accessFlags : FlagHandler :=
  (onlyIf (fun command => command.devices = .add)
    (applySwitch (ascii "--stdin") fun command => { command with target := ascii "-" })).orElse
  (onlyIf wantsFingerprint
    (applyTextFlag (ascii "--fingerprint") fun command text => { command with target := text }))

def checkAccess (command : Command) : Command :=
  command.failIf ((command.devices = .add || wantsFingerprint command) && command.target = [])
    (ascii "access add needs --stdin; access approve, deny and remove need --fingerprint")

def parseAccess (command : Command) (args : List Bytes) : Command :=
  let command := { command with accessSyntax := true }
  if helpNext args then { command with helpFor := .devices, verb := .help }
  else
    match takeOperand args with
    | none => command.fail kActions
    | some (token, rest) =>
      match accessAction token with
      | none => command.fail kActions
      | some devices =>
        loop (flagStep .devices accessFlags) checkAccess { command with devices } rest

/-- The action of `host`. -/
def hostAction (token : Bytes) : Option TrustAction :=
  if token = ascii "public" then some .«public»
  else if token = ascii "list" then some .list
  else if token = ascii "add" then some .add
  else if token = ascii "update" then some .update
  else if token = ascii "remove" then some .forget
  else none

def hostFlags : FlagHandler :=
  (onlyIf (fun command =>
      command.trust ≠ .list ∧ command.trust ≠ .«public» ∧ command.trust ≠ .forget)
    (applyTextFlag (ascii "--address") fun command text => { command with target := text })).orElse
  (onlyIf (fun command => command.trust = .add ∨ command.trust = .update)
    (applySwitch (ascii "--host-key-stdin") fun command => { command with value := ascii "-" }))

def checkHost (command : Command) : Command :=
  (command.failIf (command.trust = .add && (command.target = [] || command.value = []))
      (ascii "host add needs --address and --host-key-stdin")).failIf
    (command.trust = .update && command.target = [] && command.value = [])
      (ascii "host update needs a field to change")

def hostLoop (command : Command) (args : List Bytes) : Command :=
  loop (flagStep .host hostFlags) checkHost command args

def parseHost (command : Command) (args : List Bytes) : Command :=
  if helpNext args then { command with helpFor := .host, verb := .help }
  else
    match takeOperand args with
    | none => command.fail (ascii "host needs add, update, list, remove, or public")
    | some (token, rest) =>
      match hostAction token with
      | none => command.fail (ascii "host needs add, update, list, remove, or public")
      | some trust =>
        let command := { command with trust }
        if trust = .add ∨ trust = .update ∨ trust = .forget then
          if helpNext rest then { command with helpFor := .host, verb := .help }
          else
            match takeOperand rest with
            | none => command.fail (ascii "host action needs an alias")
            | some (profileAlias, rest) => hostLoop { command with profileAlias } rest
        else hostLoop command rest

/-- `host-key`. -/
def parseHostKey (command : Command) : List Bytes → Command
  | [] => command.fail (ascii "host-key needs public")
  | token :: rest =>
    if token = ascii "public" then parseNoArgVerb { command with trust := .«public» } rest
    else command.fail (ascii "host-key needs public")

def parseSettings (command : Command) : List Bytes → Command
  | [] => { command with settings := .list }
  | action :: rest =>
    if isFlagToken action then parseNoArgVerb { command with settings := .list } (action :: rest)
    else if action = ascii "list" then parseNoArgVerb { command with settings := .list } rest
    else if action = ascii "get" then
      match takeOperand rest with
      | none =>
        command.fail (ascii "settings get needs a key, for example settings get fps")
      | some (key, rest) => parseNoArgVerb { command with settings := .get, key } rest
    else if action = ascii "set" then
      match takeOperand rest with
      | none =>
        command.fail (ascii "settings set needs KEY=VALUE, for example settings set fps=90")
      | some (pair, rest) =>
        match cutAt 61 pair with
        | none =>
          command.fail (ascii "settings set needs KEY=VALUE, but got " ++ quoted pair)
        | some (key, value) =>
          if key = [] ∨ value = [] then
            command.fail (ascii "settings set needs KEY=VALUE, but got " ++ quoted pair)
          else parseNoArgVerb { command with settings := .set, key, value } rest
    else command.fail (needsAction .settings (ascii "list, get KEY, set KEY=VALUE"))

def unknownCommand (token : Bytes) : Bytes :=
  ascii "unknown command " ++ quoted token ++ ascii " - run '" ++ kProgram ++
    ascii " help' for the command list"

def parseHelp (command : Command) (args : List Bytes) : Command :=
  let command := { command with verb := .help }
  match takeOperand args with
  | none => command
  | some (token, _) =>
    let topic := verbOf token
    if topic = .none then command.fail (unknownCommand token)
    else { command with helpFor := topic }

/-! ## The whole command line -/

/-- What the verb does with the arguments behind it. -/
def parseVerb (command : Command) (token : Bytes) (args : List Bytes) : Command :=
  let command := { command with verb := verbOf token }
  match command.verb with
  | .none => command.fail (unknownCommand token)
  | .help => parseHelp command args
  | .version => parseNoArgVerb command args
  | .displays => parseNoArgVerb command args
  | .sources => parseAddressVerb command args
  | .devices =>
    if token = ascii "key" then parseKey command args
    else if token = ascii "access" then parseAccess command args
    else parseDevices command args
  | .trust => parseTrust command args
  | .host => if token = ascii "host-key" then parseHostKey command args else parseHost command args
  | .settings => parseSettings command args
  | .share => parseShare command args
  | .shell => parseShell command args
  | .connect => parseConnect command args
  | .send => parseSend command args

/-- An option in front of the verb, or the verb. -/
def leadingStep (command : Command) (token : Bytes) (rest : List Bytes) :
    Step Command Command rest :=
  if isFlagToken token then
    let flag := splitFlag token
    if wantsHelp flag then .stop { command with verb := .help }
    else if wantsVersion flag then .stop { command with verb := .version }
    else
      match applyGlobalFlag command flag rest with
      | .handled command left => .goOn command left
      | .failed command => .stop command
      | .unknown => .stop (command.fail (unknownOption flag.name .none))
  else .stop (parseVerb command token rest)

def parseArguments (args : List Bytes) : Command :=
  loop leadingStep (fun command => { command with verb := .help }) {} args

/-- `ParseCommand`: the first argument is the name of the program. -/
def parseCommand (argv : List Bytes) : Command := parseArguments argv.tail

end Cli

end Deskhub
