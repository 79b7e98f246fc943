import R60V.Python.Text

/-! The wire codec of the bridge: framing, checksum, address map.
A frame is `<command><address:4><length:4><data...><checksum:2>`, all ASCII.
A wire byte is represented by the character `decode("ascii", "replace")` makes
of it; decoding is bytewise, so it commutes with every slice taken below. -/
namespace R60V

open Python (Text int)

namespace Protocol

def hello : Text := ['*', 'H', 'E', 'L', 'L', 'O', '*']

def ack : Text := ['O', 'K']

/-- `READ` and `WRITE`. A command outside the two cannot be written down here, so
`build_envelope` has no failing branch. -/
inductive Command where
  | read | write
  deriving DecidableEq

def Command.char : Command → Char
  | .read => 'r'
  | .write => 'w'

def Command.ofChar (c : Char) : Option Command :=
  if c = 'r' then some .read else if c = 'w' then some .write else none

inductive ProtocolError where
  | tooShort (raw : Text)
  | invalidCommand (raw : Text)
  | badEnvelope (raw : Text)
  | oddLength (hex : Text)
  | nonHex (hex : Text)
  | checksumMismatch (raw supplied want : Text)
  deriving DecidableEq

/-- `f"{x:0wX}"`: upper-case hex, padded with zeros after the sign. A minimum width only. -/
def formatHex (w : Nat) (x : Int) : Text :=
  let digits := (Nat.toDigits 16 x.natAbs).map Char.toUpper
  if 0 ≤ x then digits.leftpad w '0' else '-' :: digits.leftpad (w - 1) '0'

def byteSum (message : Text) : Nat :=
  (message.map fun c => ((String.utf8EncodeChar c).map UInt8.toNat).sum).sum

def checksum (message : Text) : Text := formatHex 2 (byteSum message % 256 : Nat)

def encodeData (data : List Int) : Text := data.flatMap fun b => formatHex 2 (b % 256)

def hexPairs : Text → Option (List Int)
  | [] => some []
  | [_] => none
  | a :: b :: rest =>
    match int 16 [a, b] with
    | some x => (hexPairs rest).map (x :: ·)
    | none => none

def decodeData (hex : Text) : Except ProtocolError (List Int) :=
  if hex.length % 2 ≠ 0 then .error (.oddLength hex)
  else match hexPairs hex with
    | some data => .ok data
    | none => .error (.nonHex hex)

def buildEnvelope (command : Command) (address length : Int) : Text :=
  command.char :: (formatHex 4 address ++ formatHex 4 length)

def buildFrame (command : Command) (address length : Int) (data : List Int) : Text :=
  let body := buildEnvelope command address length ++ encodeData data
  body ++ checksum body

def buildRead (address length : Int) : Text := buildFrame .read address length []

def buildWrite (address : Int) (data : List Int) : Text :=
  buildFrame .write address data.length data

def buildAck (command : Command) (address length : Int) : Text :=
  let body := buildEnvelope command address length ++ ack
  body ++ checksum body

structure Frame where
  command : Command
  address : Int
  length : Int
  data : List Int
  checksum : Text
  raw : Text
  deriving DecidableEq

def Frame.envelope (f : Frame) : Text := f.raw.take 9

def Frame.isAck (f : Frame) : Bool := (f.raw.drop 9).take 2 == ack

def slice (text : Text) (i j : Nat) : Text := (text.drop i).take (j - i)

def payloadData (payload : Text) : Except ProtocolError (List Int) :=
  if payload = ack then .ok [] else decodeData payload

/-- `parse_frame`. The length field is read but never compared with the payload. -/
def parseFrame (verify : Bool) (raw : Text) : Except ProtocolError Frame :=
  if raw.length < 11 then .error (.tooShort raw)
  else match Command.ofChar (raw.headD ' ') with
    | none => .error (.invalidCommand raw)
    | some command =>
      match int 16 (slice raw 1 5), int 16 (slice raw 5 9) with
      | some address, some length =>
        let supplied := raw.drop (raw.length - 2)
        let body := raw.take (raw.length - 2)
        match payloadData (body.drop 9) with
        | .error e => .error e
        | .ok data =>
          if verify ∧ checksum body ≠ supplied.map Char.toUpper then
            .error (.checksumMismatch raw supplied (checksum body))
          else .ok ⟨command, address, length, data, supplied, raw⟩
      | _, _ => .error (.badEnvelope raw)

def settingsBase : Int := 0x0000
def settingsLen : Nat := 0x73

def brewTempRangeC : Int × Int := (85, 115)
def serviceTempRangeC : Int × Int := (115, 125)

end Protocol

/- The memory addresses that modelled code uses. -/
namespace Address

def temperatureUnit : Nat := 0x00
def language : Nat := 0x01
def brewBoilerTemp : Nat := 0x02
def serviceBoilerTemp : Nat := 0x03
def waterFeed : Nat := 0x46
def activeProfile : Nat := 0x47
def serviceBoilerEnable : Nat := 0x49
def standby : Nat := 0x4A
def totalCoffeeCount : Nat := 0x4D
def autoOnHour : Nat := 0x51
def autoOnMinute : Nat := 0x52
def autoOffHour : Nat := 0x53
def autoOffMinute : Nat := 0x54
def currentBrewTemp : Nat := 0xB000
def currentServiceTemp : Nat := 0xB001
def currentPressure : Nat := 0xB002
def display : Nat := 0xB007

end Address

end R60V
