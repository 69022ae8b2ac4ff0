import Deskhub.Protocol.Wire.Header
import Deskhub.Text

/-!
# Safe file names

`SafeFileName`: the name a received file is stored under.
-/

namespace Deskhub

def kMaxSafeNameBytes : Nat := 255
def kMaxPreservedExtension : Nat := 32
def kIllegalOnWindows : Bytes := ascii "<>:\"|?*"
def kReservedStems : List Bytes := ["con", "prn", "aux", "nul", "conin$", "conout$"].map ascii
def kReservedPrefixes : List Bytes := ["com", "lpt"].map ascii
def kReservedPrefixLength : Nat := 3
def kSuperscriptDigits : List Bytes := [[0xC2, 0xB9], [0xC2, 0xB2], [0xC2, 0xB3]]

def isSlash (c : UInt8) : Bool := c = 0x2F || c = 0x5C

def isDot (c : UInt8) : Bool := c = 0x2E

def isDotOrSpace (c : UInt8) : Bool := c = 0x2E || c = 0x20

/-- What stands behind the last byte that satisfies `p`; all of it when none does. -/
def afterLast (p : UInt8 → Bool) (name : Bytes) : Bytes :=
  (name.reverse.takeWhile (fun c => !p c)).reverse

def baseName (name : Bytes) : Bytes := afterLast isSlash name

def scrubBytes : Bytes → Bytes
  | [] => []
  | u :: rest =>
      if u < 0x20 ∨ u = 0x7F then scrubBytes rest
      else (if u ∈ kIllegalOnWindows then 0x5F else u) :: scrubBytes rest

def stripTrailing (p : UInt8 → Bool) (name : Bytes) : Bytes := (name.reverse.dropWhile p).reverse

def stripTrailingDotsAndSpaces (name : Bytes) : Bytes := stripTrailing isDotOrSpace name

def lowerAscii (text : Bytes) : Bytes :=
  text.map (fun c => if 0x41 ≤ c ∧ c ≤ 0x5A then c + 0x20 else c)

/-- The name up to its first dot. -/
def stemOf (name : Bytes) : Bytes := name.takeWhile (fun c => !isDot c)

def isPortNumber (text : Bytes) : Bool :=
  match text with
  | [c] => 0x30 ≤ c && c ≤ 0x39
  | _ => text ∈ kSuperscriptDigits

def isReservedDeviceName (name : Bytes) : Bool :=
  let stem := stripTrailing (fun c => c = 0x20) (lowerAscii (stemOf name))
  if stem ∈ kReservedStems then true
  else if stem.length ≤ kReservedPrefixLength then false
  else if stem.take kReservedPrefixLength ∉ kReservedPrefixes then false
  else isPortNumber (stem.drop kReservedPrefixLength)

def extensionOf (name : Bytes) : Bytes :=
  if !name.any isDot then []
  else
    let ext := 0x2E :: afterLast isDot name
    -- a name that starts with its last dot has no extension
    if ext.length = name.length then []
    else if ext.length ≤ kMaxPreservedExtension then ext else []

def shorten (name : Bytes) : Bytes :=
  if name.length ≤ kMaxSafeNameBytes then name
  else
    let ext := extensionOf name
    let stem := name.take (name.length - ext.length)
    let room := kMaxSafeNameBytes - ext.length
    let keep := utf8TruncLen stem room
    if keep = 0 then name.take (utf8TruncLen name kMaxSafeNameBytes) else stem.take keep ++ ext

/-- Whether nothing usable is left of a name. -/
def isNoName (name : Bytes) : Bool := name = [] || name = [0x2E] || name = [0x2E, 0x2E]

def safeFileName (name : Bytes) : Bytes :=
  let out := stripTrailingDotsAndSpaces (scrubBytes (baseName name))
  if isNoName out then []
  else
    let out := if isReservedDeviceName out then 0x5F :: out else out
    let out := stripTrailingDotsAndSpaces (shorten out)
    if isNoName out then [] else out

example : safeFileName (ascii "../etc/COM1.txt. ") = ascii "_COM1.txt" := by decide +kernel

/-!
## Free file names

`UniqueFileName`: a safe name that is taken gets a number before its extension, from 2 on.
-/

def kMaxSafeNameAttempts : Nat := 1000

/-- The candidate with number `n`: what fits of the stem, the number, the extension. -/
def numberedName (safeName : Bytes) (n : Nat) : Bytes :=
  let ext := extensionOf safeName
  let stem := safeName.take (safeName.length - ext.length)
  let suffix := ascii " (" ++ decimal n ++ ascii ")"
  let room := kMaxSafeNameBytes - ext.length - suffix.length
  stem.take (utf8TruncLen stem room) ++ suffix ++ ext

/-- The loop over the numbers from `n` on; the fuel is how many are left. -/
def uniqueFileNameFrom (safeName : Bytes) (taken : Bytes → Bool) : Nat → Nat → Bytes
  | 0, _ => []
  | fuel + 1, n =>
      let candidate := numberedName safeName n
      if !taken candidate then candidate else uniqueFileNameFrom safeName taken fuel (n + 1)

/-- `UniqueFileName`: empty when every candidate is taken. -/
def uniqueFileName (safeName : Bytes) (taken : Bytes → Bool) : Bytes :=
  if safeName = [] || !taken safeName then safeName
  else uniqueFileNameFrom safeName taken (kMaxSafeNameAttempts - 1) 2

end Deskhub
