import Deskhub.Ui.Digits

/-!
# Addresses as the user writes them

`SplitHostPort` and what is built on it: a host with an optional port, and the one spelling that
stands for all spellings of an address.
-/

namespace Deskhub

def kDeskhubPort : UInt16 := 47777

/-- `SplitHostPort`: the host, and the port if the text has one (the caller's port is left as it
is otherwise). -/
def splitHostPort (s : Bytes) : Option (Bytes × Option UInt16) :=
  match cutAt 58 s with
  | none => if s = [] then none else some (s, none)
  | some (hostPart, portPart) =>
    if hostPart = [] ∨ portPart = [] then none
    else
      match digitsFrom 65535 0 portPart with
      | none => none
      | some value => if value = 0 then none else some (hostPart, some (UInt16.ofNat value))

def addressHost (address : Bytes) : Bytes :=
  let trimmed := trim address
  match splitHostPort trimmed with
  | some (host, _) => host
  | none => trimmed

/-- The port of an address, 0 when it names none. -/
def addressPort (address : Bytes) : UInt16 :=
  match splitHostPort (trim address) with
  | some (_, some port) => port
  | _ => 0

def normalizedDeviceAddr (address : Bytes) : Bytes :=
  let trimmed := trim address
  if trimmed = [] then []
  else
    let port := addressPort trimmed
    addressHost trimmed ++ ascii ":" ++ decimal (if port ≠ 0 then port else kDeskhubPort).toNat

def invalidAddressLine (address : Bytes) : Bytes :=
  ascii "Invalid address: \"" ++ address ++ ascii "\"."

def invalidAddressHint : Bytes :=
  ascii ("Enter the host's IP address, with an optional port (e.g., 192.168.1.10 or " ++
      "192.168.1.10:") ++
    decimal kDeskhubPort.toNat ++ ascii "). The default UDP port is " ++
    decimal kDeskhubPort.toNat ++ ascii "."

/-- The host of an address is not empty. -/
theorem host_ne_nil {s host : Bytes} {port : Option UInt16} (h : splitHostPort s = some (host, port)) :
    host ≠ [] := by
  unfold splitHostPort at h
  split at h
  · split at h
    · cases h
    · next hne =>
      cases h
      exact hne
  · split at h
    · cases h
    · next hparts =>
      split at h
      · cases h
      · split at h
        · cases h
        · cases h
          exact fun hnil => hparts (.inl hnil)

/-- A port that is named is not 0. -/
theorem port_ne_zero {s host : Bytes} {port : UInt16}
    (h : splitHostPort s = some (host, some port)) : port ≠ 0 := by
  unfold splitHostPort at h
  split at h
  · split at h
    · cases h
    · cases h
  · split at h
    · cases h
    split at h
    · cases h
    · next value hdigits =>
      split at h
      · cases h
      · next hne =>
        cases h
        have hle := digitsFrom_le (Nat.zero_le _) hdigits
        intro hzero
        have hnat := congrArg UInt16.toNat hzero
        rw [UInt16.toNat_ofNat_of_lt' (Nat.lt_of_le_of_lt hle (by decide))] at hnat
        exact hne hnat

/-- Only an address without text has no normalized spelling. -/
theorem normalizedDeviceAddr_ne_nil {address : Bytes} (h : trim address ≠ []) :
    normalizedDeviceAddr address ≠ [] := by
  unfold normalizedDeviceAddr
  rw [if_neg h]
  exact List.append_ne_nil_of_right_ne_nil _ (decimal_ne_nil _)

end Deskhub
