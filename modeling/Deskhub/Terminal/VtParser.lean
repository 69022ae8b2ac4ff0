import Deskhub.Lib.Machine
import Deskhub.Text

/-!
# The terminal's parser

`VtParser`: bytes in, events out. The parameters are the ones counted, in order;
the array behind them is never read further.
-/

namespace Deskhub

def kMaxVtParams : Nat := 32
def kMaxOscBytes : Nat := 4096
def kVtParamOmitted : Int := -1
def kMaxVtParamValue : Int := 65535

/-- What the parser makes of its bytes, with what each kind of event carries. -/
inductive VtEvent where
  | print (codepoint : Nat)
  | execute (control : UInt8)
  | csi (final marker intermediate : UInt8) (params : List Int)
  | esc (final intermediate : UInt8)
  | osc (command : Int) (text : Bytes)
deriving DecidableEq, Repr

/-- `VtEvent::Param` over the counted parameters. -/
def vtParam (params : List Int) (index : Nat) (fallback : Int) : Int :=
  match params[index]? with
  | none => fallback
  | some p => if p = kVtParamOmitted then fallback else p

inductive VtState where
  | ground | escape | escapeIntermediate | csiEntry | csiParam | csiIntermediate | csiIgnore
  | oscString | stringIgnore
deriving DecidableEq, Repr

structure VtParser where
  state : VtState := .ground
  marker : UInt8 := 0
  intermediate : UInt8 := 0
  params : List Int := []
  osc : Bytes := []
  utf8Acc : Nat := 0
  utf8Left : Nat := 0
  utf8Min : Nat := 0
  escInString : Bool := false
deriving DecidableEq, Repr

def kReplacement : Nat := 0xFFFD
def kMaxCodepoint : Nat := 0x10FFFF
def kEsc : UInt8 := 0x1B
def kBel : UInt8 := 0x07
def kCan : UInt8 := 0x18
def kSub : UInt8 := 0x1A
def kDel : UInt8 := 0x7F

def isSurrogate (cp : Nat) : Bool := 0xD800 ≤ cp && cp ≤ 0xDFFF
def isParamByte (b : UInt8) : Bool := 0x30 ≤ b && b ≤ 0x39
def isSeparator (b : UInt8) : Bool := b = 0x3B || b = 0x3A
def isPrivateMarker (b : UInt8) : Bool := 0x3C ≤ b && b ≤ 0x3F
def isIntermediate (b : UInt8) : Bool := 0x20 ≤ b && b ≤ 0x2F
def isCsiFinal (b : UInt8) : Bool := 0x40 ≤ b && b ≤ 0x7E
def isEscFinal (b : UInt8) : Bool := 0x30 ≤ b && b ≤ 0x7E

/-- The code points that are neither too large nor surrogates. -/
def isScalar (cp : Nat) : Bool := cp ≤ kMaxCodepoint && !isSurrogate cp

def encodeUtf8 (cp : Nat) : Bytes :=
  let cp := if isScalar cp then cp else kReplacement
  if cp < 0x80 then [UInt8.ofNat cp]
  else if cp < 0x800 then [UInt8.ofNat (0xC0 ||| cp >>> 6), UInt8.ofNat (0x80 ||| cp &&& 0x3F)]
  else if cp < 0x10000 then
    [UInt8.ofNat (0xE0 ||| cp >>> 12), UInt8.ofNat (0x80 ||| cp >>> 6 &&& 0x3F),
      UInt8.ofNat (0x80 ||| cp &&& 0x3F)]
  else
    [UInt8.ofNat (0xF0 ||| cp >>> 18), UInt8.ofNat (0x80 ||| cp >>> 12 &&& 0x3F),
      UInt8.ofNat (0x80 ||| cp >>> 6 &&& 0x3F), UInt8.ofNat (0x80 ||| cp &&& 0x3F)]

namespace VtParser

def reset (_ : VtParser) : VtParser := {}

def startSequence (p : VtParser) : VtParser :=
  { p with marker := 0, intermediate := 0, params := [], osc := [], escInString := false }

/-- `PushParamDigit`: the digit joins the last parameter. -/
def pushParamDigit (p : VtParser) (byte : UInt8) : VtParser :=
  let params := if p.params = [] then [0] else p.params
  let last := params.getLastD 0
  let slot := if last = kVtParamOmitted then 0 else last
  let slot := slot * 10 + ((byte.toNat : Int) - 0x30)
  let slot := if slot > kMaxVtParamValue then kMaxVtParamValue else slot
  { p with params := params.dropLast ++ [slot] }

def pushParamSeparator (p : VtParser) : VtParser :=
  let params := if p.params = [] then [kVtParamOmitted] else p.params
  { p with params := if params.length < kMaxVtParams then params ++ [kVtParamOmitted] else params }

def emitCsi (p : VtParser) (final : UInt8) : VtEvent :=
  .csi final p.marker p.intermediate p.params

def emitEsc (p : VtParser) (final : UInt8) : VtEvent := .esc final p.intermediate

/-- The command number of an OSC text, as far as its digits go. -/
def oscCommand (digits : Bytes) : Int :=
  digits.foldl (fun command b =>
    let command := command * 10 + ((b.toNat : Int) - 0x30)
    if command > kMaxVtParamValue then kMaxVtParamValue else command) 0

def emitOsc (p : VtParser) : VtEvent :=
  let digits := p.osc.takeWhile isParamByte
  let rest := p.osc.dropWhile isParamByte
  let command := if digits = [] then kVtParamOmitted else oscCommand digits
  .osc command (if rest.head? = some 0x3B then rest.drop 1 else rest)

/-- `ConsumeGround` with no character begun. -/
def consumeLead (p : VtParser) (byte : UInt8) : VtParser × List VtEvent :=
  if byte < 0x80 then (p, [.print byte.toNat])
  else if 0xC2 ≤ byte ∧ byte ≤ 0xDF then
    ({ p with utf8Acc := byte.toNat &&& 0x1F, utf8Left := 1, utf8Min := 0x80 }, [])
  else if 0xE0 ≤ byte ∧ byte ≤ 0xEF then
    ({ p with utf8Acc := byte.toNat &&& 0x0F, utf8Left := 2, utf8Min := 0x800 }, [])
  else if 0xF0 ≤ byte ∧ byte ≤ 0xF4 then
    ({ p with utf8Acc := byte.toNat &&& 0x07, utf8Left := 3, utf8Min := 0x10000 }, [])
  else (p, [.print kReplacement])

/-- `ConsumeGround`. A byte that does not go on with the character begun is consumed
anew, and reaches `ConsumeGround` again with none begun. -/
def consumeGround (p : VtParser) (byte : UInt8) : VtParser × List VtEvent :=
  if 0 < p.utf8Left then
    if byte &&& 0xC0 = 0x80 then
      let acc := p.utf8Acc <<< 6 ||| byte.toNat &&& 0x3F
      let p := { p with utf8Acc := acc, utf8Left := p.utf8Left - 1 }
      if p.utf8Left = 0 then
        let ok := p.utf8Min ≤ acc && isScalar acc
        (p, [.print (if ok then acc else kReplacement)])
      else (p, [])
    else
      let (p, out) := consumeLead { p with utf8Left := 0 } byte
      (p, .print kReplacement :: out)
  else consumeLead p byte

/-- A character that was begun is given up. -/
def dropPartial (p : VtParser) : VtParser × List VtEvent :=
  if 0 < p.utf8Left then ({ p with utf8Left := 0 }, [.print kReplacement]) else (p, [])

/-- `Consume` in `Ground`. -/
def ground (p : VtParser) (byte : UInt8) : VtParser × List VtEvent :=
  if byte = kEsc then
    let (p, out) := p.dropPartial
    ({ p.startSequence with state := .escape }, out)
  else if byte < 0x20 ∨ byte = kDel then
    let (p, out) := p.dropPartial
    (p, out ++ if byte ≠ kDel then [.execute byte] else [])
  else p.consumeGround byte

/-- The bytes that are executed wherever they stand in a sequence. -/
def executeOr (p : VtParser) (byte : UInt8) : VtParser × List VtEvent :=
  if byte < 0x20 then (p, [.execute byte]) else (p, [])

/-- `Consume` in `Escape`. -/
def escape (p : VtParser) (byte : UInt8) : VtParser × List VtEvent :=
  if byte = kEsc then (p.startSequence, [])
  else if byte = 0x5B then ({ p with state := .csiEntry }, [])
  else if byte = 0x5D then ({ p with state := .oscString }, [])
  else if byte = 0x50 ∨ byte = 0x58 ∨ byte = 0x5E ∨ byte = 0x5F then
    ({ p with state := .stringIgnore }, [])
  else if isIntermediate byte then
    ({ p with intermediate := byte, state := .escapeIntermediate }, [])
  else if isEscFinal byte then ({ p with state := .ground }, [p.emitEsc byte])
  else p.executeOr byte

/-- `Consume` in `EscapeIntermediate`. -/
def escapeIntermediate (p : VtParser) (byte : UInt8) : VtParser × List VtEvent :=
  if byte = kEsc then ({ p.startSequence with state := .escape }, [])
  else if isIntermediate byte then ({ p with intermediate := byte }, [])
  else if isEscFinal byte then ({ p with state := .ground }, [p.emitEsc byte])
  else p.executeOr byte

/-- `Consume` in `CsiEntry` and `CsiParam`. -/
def csiParam (p : VtParser) (byte : UInt8) : VtParser × List VtEvent :=
  if isParamByte byte then ({ p.pushParamDigit byte with state := .csiParam }, [])
  else if isSeparator byte then ({ p.pushParamSeparator with state := .csiParam }, [])
  else if isPrivateMarker byte then
    if p.state = .csiEntry then ({ p with marker := byte, state := .csiParam }, [])
    else ({ p with state := .csiIgnore }, [])
  else if isIntermediate byte then
    ({ p with intermediate := byte, state := .csiIntermediate }, [])
  else if isCsiFinal byte then ({ p with state := .ground }, [p.emitCsi byte])
  else if byte = kEsc then ({ p.startSequence with state := .escape }, [])
  else p.executeOr byte

/-- `Consume` in `CsiIntermediate`. -/
def csiIntermediate (p : VtParser) (byte : UInt8) : VtParser × List VtEvent :=
  if isIntermediate byte then ({ p with intermediate := byte }, [])
  else if isCsiFinal byte then ({ p with state := .ground }, [p.emitCsi byte])
  else if byte = kEsc then ({ p.startSequence with state := .escape }, [])
  else if byte < 0x20 then (p, [.execute byte])
  else ({ p with state := .csiIgnore }, [])

/-- `Consume` in `CsiIgnore`. -/
def csiIgnore (p : VtParser) (byte : UInt8) : VtParser × List VtEvent :=
  if isCsiFinal byte then ({ p with state := .ground }, [])
  else if byte = kEsc then ({ p.startSequence with state := .escape }, [])
  else p.executeOr byte

/-- What a string emits at its end, when it was collected. -/
def endOfString (p : VtParser) : List VtEvent :=
  if p.state = .oscString then [p.emitOsc] else []

/-- `Consume` in `OscString` and `StringIgnore`. -/
def string (p : VtParser) (byte : UInt8) : VtParser × List VtEvent :=
  if p.escInString then
    if byte = 0x5C then
      -- only a string that was collected is cleared here
      let osc := if p.state = .oscString then [] else p.osc
      ({ p with escInString := false, osc := osc, state := .ground }, p.endOfString)
    else
      let (q, out) := ({ p.startSequence with state := .escape } : VtParser).escape byte
      (q, p.endOfString ++ out)
  else if byte = kEsc then ({ p with escInString := true }, [])
  else if byte = kBel then ({ p with osc := [], state := .ground }, p.endOfString)
  else if byte = kCan ∨ byte = kSub then ({ p with osc := [], state := .ground }, [])
  else if p.state = .oscString ∧ p.osc.length < kMaxOscBytes then
    ({ p with osc := p.osc ++ [byte] }, [])
  else (p, [])

def consume (p : VtParser) (byte : UInt8) : VtParser × List VtEvent :=
  match p.state with
  | .ground => p.ground byte
  | .escape => p.escape byte
  | .escapeIntermediate => p.escapeIntermediate byte
  | .csiEntry | .csiParam => p.csiParam byte
  | .csiIntermediate => p.csiIntermediate byte
  | .csiIgnore => p.csiIgnore byte
  | .oscString | .stringIgnore => p.string byte

end VtParser

/-- The parser as a machine over its bytes. -/
def vtParser : Machine VtParser UInt8 VtEvent where
  step := VtParser.consume

/-- `VtParser::Parse`: the events of the bytes, in order. -/
def VtParser.parse (p : VtParser) (bytes : Bytes) : VtParser × List VtEvent := vtParser.run p bytes

end Deskhub
