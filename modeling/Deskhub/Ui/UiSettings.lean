import Deskhub.Net.Ipv4
import Deskhub.Protocol.Wire.Texts
import Deskhub.Ui.Addresses

/-!
# The settings file

`UiSettings`: a line for each setting, its key in front of an equals sign. Lines that are no
setting, and values out of range, leave the defaults.
-/

namespace Deskhub

def kMaxSettingsFps : UInt32 := 240
def kMaxSettingsBitrateMbps : UInt32 := 1000
def kMaxSettingsDim : UInt32 := 16384
def kMaxSettingsPort : UInt32 := 65535
def kMaxSettingsPathBytes : Nat := 1024

structure UiSettings where
  fps : UInt32 := 60
  bitrateMbps : UInt32 := 20
  maxDim : UInt32 := 1920
  port : UInt32 := kDeskhubPort.toUInt32
  allowInput : Bool := true
  clientControl : Bool := true
  deviceName : Bytes := []
  bindIp : Bytes := []
  autostart : Bool := false
  autoShare : Bool := false
  clipboardSync : Bool := false
  shareAudio : Bool := true
  playAudio : Bool := true
  startHidden : Bool := false
  keepAwake : Bool := true
  unattended : Bool := false
  transferDir : Bytes := []
deriving DecidableEq, Repr

def truncateSettingsPath (path : Bytes) : Bytes :=
  let out := removeControls path
  if kMaxSettingsPathBytes < out.length then out.take kMaxSettingsPathBytes else out

/-- `TruncateDeviceName`: a longer name ends at the end of a character. -/
def truncateDeviceName (name : Bytes) : Bytes :=
  let out := removeControls name
  if kMaxClientNameBytes < out.length then
    out.take (utf8TruncLen.backToBoundary out kMaxClientNameBytes)
  else out

namespace UiSettings

/-- What `ApplyKeyValue` does with a number. -/
def applyNumber (out : UiSettings) (key : Bytes) (v : UInt32) : UiSettings :=
  let out := if key = ascii "fps" ∧ 1 ≤ v ∧ v ≤ kMaxSettingsFps then { out with fps := v } else out
  let out := if key = ascii "bitrate_mbps" ∧ 1 ≤ v ∧ v ≤ kMaxSettingsBitrateMbps then
    { out with bitrateMbps := v } else out
  let out := if key = ascii "max_dim" ∧ v ≤ kMaxSettingsDim then { out with maxDim := v } else out
  let out := if key = ascii "port" ∧ 1 ≤ v ∧ v ≤ kMaxSettingsPort then { out with port := v } else out
  let out := if key = ascii "allow_input" then { out with allowInput := v ≠ 0 } else out
  let out := if key = ascii "client_control" then { out with clientControl := v ≠ 0 } else out
  let out := if key = ascii "autostart" then { out with autostart := v ≠ 0 } else out
  let out := if key = ascii "auto_share" then { out with autoShare := v ≠ 0 } else out
  let out := if key = ascii "clipboard_sync" then { out with clipboardSync := v ≠ 0 } else out
  let out := if key = ascii "share_audio" then { out with shareAudio := v ≠ 0 } else out
  let out := if key = ascii "play_audio" then { out with playAudio := v ≠ 0 } else out
  let out := if key = ascii "start_hidden" then { out with startHidden := v ≠ 0 } else out
  let out := if key = ascii "keep_awake" then { out with keepAwake := v ≠ 0 } else out
  if key = ascii "unattended" then { out with unattended := v ≠ 0 } else out

def applyKeyValue (out : UiSettings) (key value : Bytes) : UiSettings :=
  if key = ascii "name" then { out with deviceName := truncateDeviceName value }
  else if key = ascii "bind_ip" then
    if value = [] ∨ (parseIPv4 value).isSome then { out with bindIp := value } else out
  else if key = ascii "transfer_dir" then { out with transferDir := truncateSettingsPath value }
  else
    match parseUint value with
    | none => out
    | some v => out.applyNumber key v

/-- The key and the value of a line, if it has an equals sign. -/
def settingOf (line : Bytes) : Option (Bytes × Bytes) :=
  (cutAt 61 (trim line)).map fun (key, value) => (trim key, trim value)

/-- What a line changes. -/
def applyLine (out : UiSettings) (line : Bytes) : UiSettings :=
  match settingOf line with
  | some (key, value) => out.applyKeyValue key value
  | none => out

/-- A switch as it is written. -/
def switchText (on : Bool) : Bytes := if on then ascii "1" else ascii "0"

/-- The lines `SerializeUiSettings` writes. -/
def settingLines (settings : UiSettings) : List Bytes :=
  [ascii "fps=" ++ decimal settings.fps.toNat,
    ascii "bitrate_mbps=" ++ decimal settings.bitrateMbps.toNat,
    ascii "max_dim=" ++ decimal settings.maxDim.toNat,
    ascii "port=" ++ decimal settings.port.toNat,
    ascii "allow_input=" ++ switchText settings.allowInput,
    ascii "client_control=" ++ switchText settings.clientControl,
    ascii "name=" ++ truncateDeviceName settings.deviceName,
    ascii "bind_ip=" ++ if (parseIPv4 settings.bindIp).isSome then settings.bindIp else [],
    ascii "autostart=" ++ switchText settings.autostart,
    ascii "auto_share=" ++ switchText settings.autoShare,
    ascii "clipboard_sync=" ++ switchText settings.clipboardSync,
    ascii "share_audio=" ++ switchText settings.shareAudio,
    ascii "play_audio=" ++ switchText settings.playAudio,
    ascii "start_hidden=" ++ switchText settings.startHidden,
    ascii "keep_awake=" ++ switchText settings.keepAwake,
    ascii "unattended=" ++ switchText settings.unattended,
    ascii "transfer_dir=" ++ truncateSettingsPath settings.transferDir]

end UiSettings

def parseUiSettings (text : Bytes) : UiSettings :=
  (splitLines text).foldl UiSettings.applyLine {}

def serializeUiSettings (settings : UiSettings) : Bytes :=
  (settings.settingLines.map (· ++ [10])).flatten

/-!
## Settings that are saved and read again

What `ParseUiSettings` gives is in range, and all of it is read back from what
`SerializeUiSettings` writes but for blanks at the ends of the name and of the directory: a value
is trimmed before its control bytes go and before it is cut, and that can bring a blank to an end.
-/

/-! ## Names and paths -/

/-- Text that is within the limit and has no control bytes. -/
def FitsIn (limit : Nat) (s : Bytes) : Prop := s.length ≤ limit ∧ ∀ c ∈ s, 0x20 ≤ c ∧ c ≠ 0x7F

theorem FitsIn.trim {limit : Nat} {s : Bytes} (h : FitsIn limit s) : FitsIn limit (trim s) := by
  have hsub := trim_sublist s
  exact ⟨Nat.le_trans hsub.length_le h.1, fun c hc => h.2 c (hsub.subset hc)⟩

theorem FitsIn.ne_newline {limit : Nat} {s : Bytes} (h : FitsIn limit s) : ∀ c ∈ s, c ≠ 10 := by
  intro c hc heq
  have hlow := (h.2 c hc).1
  rw [heq] at hlow
  exact absurd hlow (by decide)

theorem truncateDeviceName_of_fits {s : Bytes} (h : FitsIn kMaxClientNameBytes s) :
    truncateDeviceName s = s := by
  unfold truncateDeviceName
  rw [removeControls_eq_self h.2]
  exact if_neg (Nat.not_lt.mpr h.1)

theorem truncateSettingsPath_of_fits {s : Bytes} (h : FitsIn kMaxSettingsPathBytes s) :
    truncateSettingsPath s = s := by
  unfold truncateSettingsPath
  rw [removeControls_eq_self h.2]
  exact if_neg (Nat.not_lt.mpr h.1)

theorem fits_truncateDeviceName (s : Bytes) : FitsIn kMaxClientNameBytes (truncateDeviceName s) := by
  unfold truncateDeviceName
  dsimp only
  split
  · constructor
    · exact Nat.le_trans (List.length_take_le _ _) (backToBoundary_spec _ _).1
    · exact fun c hc => mem_removeControls (List.mem_of_mem_take hc)
  · next hshort => exact ⟨Nat.not_lt.mp hshort, fun c hc => mem_removeControls hc⟩

theorem fits_truncateSettingsPath (s : Bytes) :
    FitsIn kMaxSettingsPathBytes (truncateSettingsPath s) := by
  unfold truncateSettingsPath
  dsimp only
  split
  · exact ⟨List.length_take_le _ _, fun c hc => mem_removeControls (List.mem_of_mem_take hc)⟩
  · next hshort => exact ⟨Nat.not_lt.mp hshort, fun c hc => mem_removeControls hc⟩

theorem trim_eq_self_iff {s : Bytes} : trim s = s ↔ Trimmed s :=
  ⟨fun h => h ▸ trimmed_trim s, trim_of_trimmed⟩

namespace UiSettings

/-! ## What is read is in range -/

/-- Settings as a file can give them. -/
structure Ranged (s : UiSettings) : Prop where
  fps : 1 ≤ s.fps ∧ s.fps ≤ kMaxSettingsFps
  bitrateMbps : 1 ≤ s.bitrateMbps ∧ s.bitrateMbps ≤ kMaxSettingsBitrateMbps
  maxDim : s.maxDim ≤ kMaxSettingsDim
  port : 1 ≤ s.port ∧ s.port ≤ kMaxSettingsPort
  deviceName : FitsIn kMaxClientNameBytes s.deviceName
  bindIp : s.bindIp = [] ∨ (parseIPv4 s.bindIp).isSome
  transferDir : FitsIn kMaxSettingsPathBytes s.transferDir

theorem fitsIn_nil (limit : Nat) : FitsIn limit [] :=
  ⟨Nat.zero_le _, fun _ hc => absurd hc List.not_mem_nil⟩

theorem ranged_default : Ranged {} where
  fps := by decide
  bitrateMbps := by decide
  maxDim := by decide
  port := by decide
  deviceName := fitsIn_nil _
  bindIp := .inl rfl
  transferDir := fitsIn_nil _

section Number

variable (out : UiSettings) (key : Bytes) (v : UInt32)

theorem fps_applyNumber : (out.applyNumber key v).fps =
    if key = ascii "fps" ∧ 1 ≤ v ∧ v ≤ kMaxSettingsFps then v else out.fps := by
  simp only [applyNumber, apply_ite UiSettings.fps, ite_self]

theorem bitrateMbps_applyNumber : (out.applyNumber key v).bitrateMbps =
    if key = ascii "bitrate_mbps" ∧ 1 ≤ v ∧ v ≤ kMaxSettingsBitrateMbps then v
    else out.bitrateMbps := by
  simp only [applyNumber, apply_ite UiSettings.bitrateMbps, ite_self]

theorem maxDim_applyNumber : (out.applyNumber key v).maxDim =
    if key = ascii "max_dim" ∧ v ≤ kMaxSettingsDim then v else out.maxDim := by
  simp only [applyNumber, apply_ite UiSettings.maxDim, ite_self]

theorem port_applyNumber : (out.applyNumber key v).port =
    if key = ascii "port" ∧ 1 ≤ v ∧ v ≤ kMaxSettingsPort then v else out.port := by
  simp only [applyNumber, apply_ite UiSettings.port, ite_self]

/-- A number changes no text. -/
theorem texts_applyNumber : (out.applyNumber key v).deviceName = out.deviceName ∧
    (out.applyNumber key v).bindIp = out.bindIp ∧
    (out.applyNumber key v).transferDir = out.transferDir := by
  refine ⟨?_, ?_, ?_⟩
  · simp only [applyNumber, apply_ite UiSettings.deviceName, ite_self]
  · simp only [applyNumber, apply_ite UiSettings.bindIp, ite_self]
  · simp only [applyNumber, apply_ite UiSettings.transferDir, ite_self]

end Number

theorem Ranged.applyNumber {s : UiSettings} (h : Ranged s) (key : Bytes) (v : UInt32) :
    Ranged (s.applyNumber key v) := by
  rcases texts_applyNumber s key v with ⟨hname, hbind, hdir⟩
  constructor
  · rw [fps_applyNumber]
    split
    · next hfits => exact hfits.2
    · exact h.fps
  · rw [bitrateMbps_applyNumber]
    split
    · next hfits => exact hfits.2
    · exact h.bitrateMbps
  · rw [maxDim_applyNumber]
    split
    · next hfits => exact hfits.2
    · exact h.maxDim
  · rw [port_applyNumber]
    split
    · next hfits => exact hfits.2
    · exact h.port
  · rw [hname]
    exact h.deviceName
  · rw [hbind]
    exact h.bindIp
  · rw [hdir]
    exact h.transferDir

/-- The step lemma: a line leaves the settings in range. -/
theorem Ranged.applyKeyValue {s : UiSettings} (h : Ranged s) (key value : Bytes) :
    Ranged (s.applyKeyValue key value) := by
  unfold UiSettings.applyKeyValue
  split
  · exact { h with deviceName := fits_truncateDeviceName value }
  split
  · split
    · next hvalue => exact { h with bindIp := hvalue }
    · exact h
  split
  · exact { h with transferDir := fits_truncateSettingsPath value }
  split
  · exact h
  · exact h.applyNumber key _

theorem Ranged.applyLine {s : UiSettings} (h : Ranged s) (line : Bytes) :
    Ranged (s.applyLine line) := by
  unfold UiSettings.applyLine
  split
  · exact h.applyKeyValue _ _
  · exact h

theorem Ranged.foldl {s : UiSettings} (h : Ranged s) (lines : List Bytes) :
    Ranged (lines.foldl UiSettings.applyLine s) := by
  induction lines generalizing s with
  | nil => exact h
  | cons line lines ih => exact ih (h.applyLine line)

theorem ranged_parse (text : Bytes) : Ranged (parseUiSettings text) :=
  ranged_default.foldl (splitLines text)

/-! ## A line that was written -/

/-- A key: none of its bytes is a blank or an equals sign. -/
def KeyText (key : Bytes) : Prop := key ≠ [] ∧ key.all (fun c => 61 < c.toNat) = true

instance (key : Bytes) : Decidable (KeyText key) := inferInstanceAs (Decidable (_ ∧ _))

theorem KeyText.above {key : Bytes} (h : KeyText key) : ∀ c ∈ key, 61 < c.toNat :=
  forall_of_all h.2

/-- What is behind the first equals sign is the value, without the blanks around it. -/
theorem settingOf_line {key : Bytes} (hkey : KeyText key) (value : Bytes) :
    settingOf (key ++ ascii "=" ++ value) = some (key, trim value) := by
  have hvisible : ∀ c ∈ key ++ ascii "=", 32 < c.toNat := by
    intro c hc
    rcases List.mem_append.mp hc with hin | hequals
    · have hlow := hkey.above c hin
      omega
    · rw [List.mem_singleton.mp hequals]
      decide
  have hne : key ++ ascii "=" ≠ [] := List.append_ne_nil_of_left_ne_nil hkey.1 _
  have hkeyTrimmed : trim key = key := by
    apply trim_of_trimmed
    apply trimmed_of_visible
    exact fun c hc => hvisible c (List.mem_append_left _ hc)
  have hequals : ∀ c ∈ key, c ≠ 61 := by
    intro c hc heq
    have hlow := hkey.above c hc
    rw [heq] at hlow
    exact absurd hlow (by decide)
  have hcut : cutAt 61 (key ++ ascii "=" ++ value.rdropWhile isBlank) =
      some (key, value.rdropWhile isBlank) := by
    rw [List.append_assoc]
    exact cutAt_append hequals _
  unfold settingOf
  rw [trim_append hne (trimmed_of_visible hvisible), hcut, Option.map_some]
  dsimp only
  rw [hkeyTrimmed, trim_rdropWhile]

theorem applyLine_line {key : Bytes} (hkey : KeyText key) (out : UiSettings) (value : Bytes) :
    out.applyLine (key ++ ascii "=" ++ value) = out.applyKeyValue key (trim value) := by
  unfold applyLine
  rw [settingOf_line hkey]

/-- A key of a number. -/
def NumberKey (key : Bytes) : Prop :=
  KeyText key ∧ key ≠ ascii "name" ∧ key ≠ ascii "bind_ip" ∧ key ≠ ascii "transfer_dir"

instance (key : Bytes) : Decidable (NumberKey key) :=
  inferInstanceAs (Decidable (_ ∧ _ ∧ _ ∧ _))

theorem applyLine_decimal {line key : Bytes} (hline : line = key ++ ascii "=")
    (hkey : NumberKey key) (out : UiSettings) (n : UInt32) :
    out.applyLine (line ++ decimal n.toNat) = out.applyNumber key n := by
  rcases hkey with ⟨htext, hname, hbind, hdir⟩
  have hvisible : ∀ c ∈ decimal n.toNat, 32 < c.toNat := by
    intro c hc
    have hlow := (decimal_digits _ c hc).1
    omega
  rw [hline, applyLine_line htext, trim_of_trimmed (trimmed_of_visible hvisible)]
  unfold applyKeyValue
  rw [if_neg hname, if_neg hbind, if_neg hdir, parseUint_decimal]

/-- A switch is written as the number 1 or 0. -/
theorem applyLine_switch {line key : Bytes} (hline : line = key ++ ascii "=")
    (hkey : NumberKey key) (out : UiSettings) (on : Bool) :
    out.applyLine (line ++ switchText on) = out.applyNumber key (if on then 1 else 0) := by
  have hdecimal : switchText on = decimal (if on then 1 else 0 : UInt32).toNat := by
    cases on
    · decide
    · decide
  rw [hdecimal, applyLine_decimal hline hkey]

/-! ## All lines together -/

/-- No line that is written has a line feed in it. -/
theorem settingLines_ne_newline (s : UiSettings) :
    ∀ line ∈ s.settingLines, ∀ c ∈ line, c ≠ 10 := by
  have hline : ∀ key value : Bytes, (∀ c ∈ key, c ≠ 10) → (∀ c ∈ value, c ≠ 10) →
      ∀ c ∈ key ++ value, c ≠ 10 := by
    intro key value hkey hvalue c hc
    rcases List.mem_append.mp hc with hin | hin
    · exact hkey c hin
    · exact hvalue c hin
  have hdecimal : ∀ n : Nat, ∀ c ∈ decimal n, c ≠ 10 := by
    intro n c hc heq
    have hlow := (decimal_digits n c hc).1
    rw [heq] at hlow
    exact absurd hlow (by decide)
  have hswitch : ∀ on : Bool, ∀ c ∈ switchText on, c ≠ 10 := by
    intro on
    cases on
    · exact forall_of_all (by decide)
    · exact forall_of_all (by decide)
  have hname : ∀ c ∈ truncateDeviceName s.deviceName, c ≠ 10 :=
    (fits_truncateDeviceName s.deviceName).ne_newline
  have hdir : ∀ c ∈ truncateSettingsPath s.transferDir, c ≠ 10 :=
    (fits_truncateSettingsPath s.transferDir).ne_newline
  have hbind : ∀ c ∈ (if (parseIPv4 s.bindIp).isSome then s.bindIp else []), c ≠ 10 := by
    split
    · next hsome =>
      rcases Option.isSome_iff_exists.mp hsome with ⟨ip, hip⟩
      intro c hc heq
      have hlow := (parseIPv4_dotted hip c hc).1
      rw [heq] at hlow
      exact absurd hlow (by decide)
    · exact fun c hc => absurd hc List.not_mem_nil
  intro line hin
  unfold settingLines at hin
  simp only [List.mem_cons, List.not_mem_nil, or_false] at hin
  rcases hin with rfl | rfl | rfl | rfl | rfl | rfl | rfl | rfl | rfl | rfl | rfl | rfl | rfl | rfl |
    rfl | rfl | rfl
  all_goals apply hline
  all_goals first
    | exact hdecimal _
    | exact hswitch _
    | exact hname
    | exact hbind
    | exact hdir
    | exact forall_of_all (by decide)

/-- The bind address is read back. -/
theorem Ranged.applyLine_bindIp {s : UiSettings} (h : Ranged s) (out : UiSettings) :
    out.applyLine (ascii "bind_ip" ++ ascii "=" ++
        if (parseIPv4 s.bindIp).isSome then s.bindIp else []) =
      { out with bindIp := s.bindIp } := by
  have hbind : (if (parseIPv4 s.bindIp).isSome then s.bindIp else []) = s.bindIp := by
    split
    · rfl
    · next hnone => exact (h.bindIp.resolve_right hnone).symm
  have htrimmed : trim s.bindIp = s.bindIp := by
    rcases h.bindIp with hnil | hsome
    · rw [hnil]
      rfl
    · rcases Option.isSome_iff_exists.mp hsome with ⟨ip, hip⟩
      apply trim_of_trimmed
      apply trimmed_of_visible
      intro c hc
      have hlow := (parseIPv4_dotted hip c hc).1
      omega
  rw [hbind, applyLine_line (by decide), htrimmed]
  unfold UiSettings.applyKeyValue
  rw [if_neg (by decide), if_pos rfl, if_pos h.bindIp]

section Keys

variable (out : UiSettings)

theorem applyLine_fps {v : UInt32} (h : 1 ≤ v ∧ v ≤ kMaxSettingsFps) :
    out.applyLine (ascii "fps=" ++ decimal v.toNat) = { out with fps := v } := by
  have hkey : NumberKey (ascii "fps") := by decide
  rw [applyLine_decimal (by decide) hkey]
  simp +decide [applyNumber, h]

theorem applyLine_bitrateMbps {v : UInt32} (h : 1 ≤ v ∧ v ≤ kMaxSettingsBitrateMbps) :
    out.applyLine (ascii "bitrate_mbps=" ++ decimal v.toNat) = { out with bitrateMbps := v } := by
  have hkey : NumberKey (ascii "bitrate_mbps") := by decide
  rw [applyLine_decimal (by decide) hkey]
  simp +decide [applyNumber, h]

theorem applyLine_maxDim {v : UInt32} (h : v ≤ kMaxSettingsDim) :
    out.applyLine (ascii "max_dim=" ++ decimal v.toNat) = { out with maxDim := v } := by
  have hkey : NumberKey (ascii "max_dim") := by decide
  rw [applyLine_decimal (by decide) hkey]
  simp +decide [applyNumber, h]

theorem applyLine_port {v : UInt32} (h : 1 ≤ v ∧ v ≤ kMaxSettingsPort) :
    out.applyLine (ascii "port=" ++ decimal v.toNat) = { out with port := v } := by
  have hkey : NumberKey (ascii "port") := by decide
  rw [applyLine_decimal (by decide) hkey]
  simp +decide [applyNumber, h]

/-- The number of a switch sets the switch of its key. -/
theorem applyNumber_switch (on : Bool) :
    out.applyNumber (ascii "allow_input") (if on then 1 else 0) = { out with allowInput := on } ∧
    out.applyNumber (ascii "client_control") (if on then 1 else 0) =
      { out with clientControl := on } ∧
    out.applyNumber (ascii "autostart") (if on then 1 else 0) = { out with autostart := on } ∧
    out.applyNumber (ascii "auto_share") (if on then 1 else 0) = { out with autoShare := on } ∧
    out.applyNumber (ascii "clipboard_sync") (if on then 1 else 0) =
      { out with clipboardSync := on } ∧
    out.applyNumber (ascii "share_audio") (if on then 1 else 0) = { out with shareAudio := on } ∧
    out.applyNumber (ascii "play_audio") (if on then 1 else 0) = { out with playAudio := on } ∧
    out.applyNumber (ascii "start_hidden") (if on then 1 else 0) = { out with startHidden := on } ∧
    out.applyNumber (ascii "keep_awake") (if on then 1 else 0) = { out with keepAwake := on } ∧
    out.applyNumber (ascii "unattended") (if on then 1 else 0) = { out with unattended := on } := by
  have hon : decide ((if on then 1 else 0 : UInt32) ≠ 0) = on := by
    cases on
    · rfl
    · rfl
  generalize (if on then 1 else 0 : UInt32) = v at hon
  refine ⟨?_, ?_, ?_, ?_, ?_, ?_, ?_, ?_, ?_, ?_⟩
  all_goals
    rw [← hon]
    simp +decide [applyNumber]

/-- The line of a switch. -/
theorem applyLine_switches (on : Bool) :
    out.applyLine (ascii "allow_input=" ++ switchText on) = { out with allowInput := on } ∧
    out.applyLine (ascii "client_control=" ++ switchText on) = { out with clientControl := on } ∧
    out.applyLine (ascii "autostart=" ++ switchText on) = { out with autostart := on } ∧
    out.applyLine (ascii "auto_share=" ++ switchText on) = { out with autoShare := on } ∧
    out.applyLine (ascii "clipboard_sync=" ++ switchText on) = { out with clipboardSync := on } ∧
    out.applyLine (ascii "share_audio=" ++ switchText on) = { out with shareAudio := on } ∧
    out.applyLine (ascii "play_audio=" ++ switchText on) = { out with playAudio := on } ∧
    out.applyLine (ascii "start_hidden=" ++ switchText on) = { out with startHidden := on } ∧
    out.applyLine (ascii "keep_awake=" ++ switchText on) = { out with keepAwake := on } ∧
    out.applyLine (ascii "unattended=" ++ switchText on) = { out with unattended := on } := by
  have hline : ∀ {line key : Bytes} {changed : UiSettings},
      out.applyNumber key (if on then 1 else 0) = changed → line = key ++ ascii "=" →
        NumberKey key → out.applyLine (line ++ switchText on) = changed := by
    intro line key changed hchanged hline hkey
    rw [applyLine_switch hline hkey, hchanged]
  rcases applyNumber_switch out on with ⟨h1, h2, h3, h4, h5, h6, h7, h8, h9, h10⟩
  refine ⟨hline h1 ?_ ?_, hline h2 ?_ ?_, hline h3 ?_ ?_, hline h4 ?_ ?_, hline h5 ?_ ?_,
    hline h6 ?_ ?_, hline h7 ?_ ?_, hline h8 ?_ ?_, hline h9 ?_ ?_, hline h10 ?_ ?_⟩
  all_goals decide

end Keys

/-- The line of the name: its value is trimmed once more. -/
theorem Ranged.applyLine_name {s : UiSettings} (h : Ranged s) (out : UiSettings) :
    out.applyLine (ascii "name=" ++ truncateDeviceName s.deviceName) =
      { out with deviceName := trim s.deviceName } := by
  have hkey : KeyText (ascii "name") := by decide
  rw [truncateDeviceName_of_fits h.deviceName]
  refine (applyLine_line hkey out s.deviceName).trans ?_
  unfold UiSettings.applyKeyValue
  rw [if_pos rfl, truncateDeviceName_of_fits h.deviceName.trim]

/-- The line of the directory. -/
theorem Ranged.applyLine_transferDir {s : UiSettings} (h : Ranged s) (out : UiSettings) :
    out.applyLine (ascii "transfer_dir=" ++ truncateSettingsPath s.transferDir) =
      { out with transferDir := trim s.transferDir } := by
  have hkey : KeyText (ascii "transfer_dir") := by decide
  rw [truncateSettingsPath_of_fits h.transferDir]
  refine (applyLine_line hkey out s.transferDir).trans ?_
  unfold UiSettings.applyKeyValue
  rw [if_neg (by decide), if_neg (by decide), if_pos rfl,
    truncateSettingsPath_of_fits h.transferDir.trim]

/-- What is read back from what was written: all of it, the texts trimmed. -/
theorem Ranged.parse_serialize {s : UiSettings} (h : Ranged s) :
    parseUiSettings (serializeUiSettings s) =
      { s with deviceName := trim s.deviceName, transferDir := trim s.transferDir } := by
  have hbind : ∀ out : UiSettings, out.applyLine (ascii "bind_ip=" ++
      if (parseIPv4 s.bindIp).isSome then s.bindIp else []) = { out with bindIp := s.bindIp } :=
    h.applyLine_bindIp
  unfold parseUiSettings serializeUiSettings
  rw [splitLines_flatten s.settingLines_ne_newline]
  unfold settingLines
  simp only [List.foldl_cons, List.foldl_nil]
  -- the lines in the order they are written, each changes the field of its key
  rw [applyLine_fps _ h.fps, applyLine_bitrateMbps _ h.bitrateMbps, applyLine_maxDim _ h.maxDim,
    applyLine_port _ h.port]
  simp only [applyLine_switches, h.applyLine_name, hbind, h.applyLine_transferDir]

/-! ## The last line of a key -/

/-- The value of the last line with the key. -/
def lastValue (key text : Bytes) : Option Bytes :=
  ((((splitLines text).filterMap settingOf).filter (·.1 = key)).getLast?).map Prod.snd

/-- A field that only the lines of one key set holds what the last of them says. -/
theorem field_parse {β : Type} {field : UiSettings → β} {key : Bytes} {read : Bytes → β}
    (hset : ∀ (out : UiSettings) (k v : Bytes),
      field (out.applyKeyValue k v) = if k = key then read v else field out) (text : Bytes) :
    field (parseUiSettings text) = (lastValue key text).elim (field {}) read := by
  unfold parseUiSettings lastValue
  -- from the last line backwards: a line of the key settles the field
  induction splitLines text using List.reverseRecOn with
  | nil => rfl
  | append_singleton lines line ih =>
    rw [List.foldl_append, List.filterMap_append, List.filter_append]
    simp only [List.foldl_cons, List.foldl_nil]
    generalize List.foldl applyLine {} lines = out at ih
    unfold applyLine
    cases hline : settingOf line with
    | none => simpa [hline] using ih
    | some setting =>
      dsimp only
      rw [hset]
      by_cases hkey : setting.1 = key
      · simp [hline, hkey]
      · simpa [hline, hkey] using ih

theorem deviceName_applyKeyValue (out : UiSettings) (key value : Bytes) :
    (out.applyKeyValue key value).deviceName =
      if key = ascii "name" then truncateDeviceName value else out.deviceName := by
  unfold applyKeyValue
  split
  · rfl
  split
  · split
    · rfl
    · rfl
  split
  · rfl
  split
  · rfl
  · exact (texts_applyNumber _ _ _).1

theorem transferDir_applyKeyValue (out : UiSettings) (key value : Bytes) :
    (out.applyKeyValue key value).transferDir =
      if key = ascii "transfer_dir" then truncateSettingsPath value else out.transferDir := by
  unfold applyKeyValue
  split
  · next hname =>
    have hother : key ≠ ascii "transfer_dir" := by
      rw [hname]
      decide
    rw [if_neg hother]
  split
  · next hbind =>
    have hother : key ≠ ascii "transfer_dir" := by
      rw [hbind]
      decide
    rw [if_neg hother]
    split
    · rfl
    · rfl
  split
  · rfl
  split
  · rfl
  · exact (texts_applyNumber _ _ _).2.2

/-- Settings survive saving exactly when the last name and the last directory of the text, once
their control bytes are gone and they are cut, neither begin nor end with a blank. -/
theorem parse_serialize_parse_iff (text : Bytes) :
    parseUiSettings (serializeUiSettings (parseUiSettings text)) = parseUiSettings text ↔
      (∀ v, lastValue (ascii "name") text = some v → Trimmed (truncateDeviceName v)) ∧
      (∀ v, lastValue (ascii "transfer_dir") text = some v → Trimmed (truncateSettingsPath v)) := by
  have hname : trim (parseUiSettings text).deviceName = (parseUiSettings text).deviceName ↔
      ∀ v, lastValue (ascii "name") text = some v → Trimmed (truncateDeviceName v) := by
    rw [trim_eq_self_iff, field_parse deviceName_applyKeyValue text]
    cases lastValue (ascii "name") text with
    | none =>
      have hnil : Trimmed [] := trimmed_trim []
      simpa using hnil
    | some v => simp
  have hdir : trim (parseUiSettings text).transferDir = (parseUiSettings text).transferDir ↔
      ∀ v, lastValue (ascii "transfer_dir") text = some v → Trimmed (truncateSettingsPath v) := by
    rw [trim_eq_self_iff, field_parse transferDir_applyKeyValue text]
    cases lastValue (ascii "transfer_dir") text with
    | none =>
      have hnil : Trimmed [] := trimmed_trim []
      simpa using hnil
    | some v => simp
  rw [(ranged_parse text).parse_serialize, ← hname, ← hdir]
  constructor
  · intro h
    exact ⟨congrArg deviceName h, congrArg transferDir h⟩
  · rintro ⟨hnameTrim, hdirTrim⟩
    rw [hnameTrim, hdirTrim]

/-- The blank behind a control byte is kept at first and lost when the settings are saved. -/
theorem not_parse_serialize_parse_blank :
    ¬ ∀ text : Bytes,
      parseUiSettings (serializeUiSettings (parseUiSettings text)) = parseUiSettings text := by
  intro h
  have hblank := congrArg deviceName (h (ascii "name=" ++ [1] ++ ascii " a" ++ [10]))
  rw [(ranged_parse _).parse_serialize] at hblank
  exact absurd hblank (by decide)

end UiSettings

end Deskhub
