import Deskhub.Text

/-!
# Network addresses

`NetAddr`, and the number it is packed into where an address is a map's key.
-/

namespace Deskhub

structure NetAddr where
  ip : UInt32 := 0
  port : UInt16 := 0
deriving DecidableEq, Repr

namespace NetAddr

def pack (a : NetAddr) : UInt64 := (a.ip.toUInt64 <<< 16) ||| a.port.toUInt64

def unpack (v : UInt64) : NetAddr := { ip := (v >>> 16).toUInt32, port := v.toUInt16 }

/-- `ToString`: the four parts of the address and the port. -/
def toText (a : NetAddr) : Bytes :=
  let part (shift : UInt32) := decimal ((a.ip >>> shift) &&& 0xFF).toNat
  part 24 ++ ascii "." ++ part 16 ++ ascii "." ++ part 8 ++ ascii "." ++ part 0 ++ ascii ":" ++
    decimal a.port.toNat

end NetAddr

end Deskhub
