import R60V.Bridge.Protocol
import Mathlib.Algebra.Order.Ring.Rat

/-! The emulator, the other end of the wire: a machine's memory, and what it answers to a frame.
The clock that the date register reads is an argument, and temperatures are exact rationals where
the source has floats. -/
namespace R60V

open Python (Text roundEven)
open Protocol (parseFrame buildFrame buildAck)

/-- The exceptions that no handler of a malformed frame catches. -/
inductive EmulatorExc where
  | index | overflow | value
  deriving DecidableEq

/-- `xs[i:j]` and `xs[i]`, where negative positions count from the end. -/
def slicePosition {α : Type} (xs : List α) (i : Int) : Nat :=
  min xs.length (if i < 0 then i + xs.length else i).toNat

def sliceOf {α : Type} (xs : List α) (i j : Int) : List α :=
  (xs.take (slicePosition xs j)).drop (slicePosition xs i)

def indexOf {α : Type} (xs : List α) (i : Int) : Option Nat :=
  let position := if i < 0 then i + xs.length else i
  if 0 ≤ position ∧ position < xs.length then some position.toNat else none

def ljust {α : Type} (xs : List α) (width : Int) (fill : α) : List α :=
  xs ++ List.replicate (width.toNat - xs.length) fill

-- `bytes(count)`.
def zeroBytes (count : Int) : Except EmulatorExc (List Int) :=
  if count < 0 then .error .value else .ok (List.replicate count.toNat 0)

def littleEndian : Nat → Int → List Int
  | 0, _ => []
  | width + 1, value => value % 256 :: littleEndian width (value / 256)

def intBytes (value length : Int) : Except EmulatorExc (List Int) :=
  let value := max 0 value
  let width := (max length 1).toNat
  if 256 ^ width ≤ value then .error .overflow
  else
    let cut := sliceOf (littleEndian width value) 0 length
    if cut = [] then zeroBytes length else .ok cut

structure MachineModel where
  settings : List Int
  currentBrewTemp : ℚ
  currentServiceTemp : ℚ
  currentPressure : ℚ
  display : Text

namespace MachineModel

def defaults : List (Nat × Int) :=
  [(0x00, 0), (0x01, 0), (0x02, 105), (0x03, 123), (0x04, 15), (0x06, 40), (0x0A, 1), (0x0C, 1),
   (0x10, 65), (0x12, 5), (0x46, 1), (0x47, 0), (0x48, 15), (0x49, 1), (0x4A, 0), (0x4C, 95),
   (0x4D, 0xF4), (0x4E, 0x01), (0x51, 14), (0x52, 0), (0x53, 8), (0x54, 0)]

def initial : MachineModel where
  settings := defaults.foldl (fun s d => s.set d.1 d.2) (List.replicate 0x100 0)
  currentBrewTemp := 92
  currentServiceTemp := 118
  currentPressure := 0
  display := ['R', 'E', 'A', 'D', 'Y']

/-- The date fields that `datetime.now()` gives are those of `now`. -/
def readLive (m : MachineModel) (now : List Int) (address length : Int) :
    Except EmulatorExc (List Int) :=
  if address = 0xB000 then intBytes (roundEven m.currentBrewTemp) length
  else if address = 0xB001 then intBytes (roundEven m.currentServiceTemp) length
  else if address = 0xB002 then intBytes (roundEven (m.currentPressure * 10)) length
  else if address = 0xB007 then
    let shown := m.display.map fun c => if c.toNat < 128 then (c.toNat : Int) else 0x3F
    .ok (sliceOf (ljust shown length 0x20) 0 length)
  else if address = 0xA000 then .ok (sliceOf (ljust now length 0) 0 length)
  else zeroBytes length

def read (m : MachineModel) (now : List Int) (address length : Int) :
    Except EmulatorExc (List Int) :=
  if address < 0x100 then
    .ok (ljust (sliceOf m.settings address (address + length)) length 0)
  else m.readLive now address length

-- The loop over the data; what it has written before an index fails stays written.
def writeFrom (m : MachineModel) (address : Int) : List Int → MachineModel × Option EmulatorExc
  | [] => (m, none)
  | value :: rest =>
    match indexOf m.settings address with
    | none => (m, some .index)
    | some i => { m with settings := m.settings.set i (value % 256) }.writeFrom (address + 1) rest

def write (m : MachineModel) (address : Int) (data : List Int) :
    MachineModel × Option EmulatorExc :=
  if 0x100 ≤ address then (m, none) else m.writeFrom address data

end MachineModel

namespace Emulator

/-- `_process`: the reply to one frame, `none` for one that is dropped. The log line of a write
turns its data into `bytes`, which not all of it may be. -/
def process (m : MachineModel) (now : List Int) (raw : Text) :
    MachineModel × Except EmulatorExc (Option Text) :=
  match parseFrame true raw with
  | .error _ => (m, .ok none)
  | .ok f =>
    match f.command with
    | .read => (m, (m.read now f.address f.length).map fun data =>
        some (buildFrame .read f.address f.length data))
    | .write =>
      match m.write f.address f.data with
      | (m, some e) => (m, .error e)
      | (m, none) =>
        if f.data.all (fun b => 0 ≤ b && b < 256) then
          (m, .ok (some (buildAck .write f.address f.length)))
        else (m, .error .value)

end Emulator

end R60V
