import Mathlib.Data.Int.Log
import Mathlib.Data.List.DropRight
import Mathlib.Data.Rat.Floor

/-! How Python reads numbers from text: `int(text, base)`, `float(text)`, `round`.
A text is the list of its characters. `none` stands for the `ValueError` of a
text that is no numeral. Both readers are lenient, and they are lenient in
different ways: signs, blanks and underscores pass in both, `0x` only in base 16. -/
namespace R60V.Python

abbrev Text := List Char

/-- `received.decode("ascii", "replace")`. -/
def decodeAscii (received : List UInt8) : Text :=
  received.map fun byte => if byte < 128 then Char.ofNat byte.toNat else Char.ofNat 0xFFFD

/-- Does `text.encode("ascii")` go through? -/
def isAscii (text : Text) : Bool := text.all fun c => decide (c.toNat < 128)

theorem isAscii_iff {text : Text} : isAscii text = true ↔ ∀ c ∈ text, c.toNat < 128 := by
  simp [isAscii]

/-- `f"{n:02d}"` of what is not negative. -/
def twoDigits (n : Int) : Text := (Nat.toDigits 10 n.toNat).leftpad 2 '0'

def decimalZeros : List Nat :=
  [0x0030, 0x0660, 0x06F0, 0x07C0, 0x0966, 0x09E6, 0x0A66, 0x0AE6, 0x0B66, 0x0BE6, 0x0C66,
   0x0CE6, 0x0D66, 0x0DE6, 0x0E50, 0x0ED0, 0x0F20, 0x1040, 0x1090, 0x17E0, 0x1810, 0x1946,
   0x19D0, 0x1A80, 0x1A90, 0x1B50, 0x1BB0, 0x1C40, 0x1C50, 0xA620, 0xA8D0, 0xA900, 0xA9D0,
   0xA9F0, 0xAA50, 0xABF0, 0xFF10, 0x104A0, 0x10D30, 0x11066, 0x110F0, 0x11136, 0x111D0,
   0x112F0, 0x11450, 0x114D0, 0x11650, 0x116C0, 0x11730, 0x118E0, 0x11950, 0x11C50, 0x11D50,
   0x11DA0, 0x11F50, 0x16A60, 0x16AC0, 0x16B50, 0x1D7CE, 0x1D7D8, 0x1D7E2, 0x1D7EC, 0x1D7F6,
   0x1E140, 0x1E2F0, 0x1E4F0, 0x1E950, 0x1FBF0]

def isSpace (c : Char) : Bool :=
  let n := c.toNat
  (9 ≤ n && n ≤ 13) || (28 ≤ n && n ≤ 32) || n == 0x85 || n == 0xA0 || n == 0x1680 ||
    (0x2000 ≤ n && n ≤ 0x200A) || n == 0x2028 || n == 0x2029 || n == 0x202F || n == 0x205F ||
    n == 0x3000

def isBlank (c : Char) : Bool := c == ' ' || (9 ≤ c.toNat && c.toNat ≤ 13)

/-- `int` and `float` first turn other blanks and other digits into ASCII ones. -/
def toAscii (c : Char) : Char :=
  if c.toNat < 127 then c
  else if isSpace c then ' '
  else match decimalZeros.find? (fun z => z ≤ c.toNat && c.toNat < z + 10) with
    | some z => Char.ofNat (48 + (c.toNat - z))
    | none => '?'

def trim (p : Char → Bool) (text : Text) : Text := (text.dropWhile p).rdropWhile p

def strip (text : Text) : Text := trim isSpace text

theorem trim_none {p : Char → Bool} {text : Text} (h : ∀ c ∈ text, p c = false) :
    trim p text = text := by
  have front : text.dropWhile p = text := by
    rw [List.dropWhile_eq_self_iff]
    intro hl
    simp [h _ (List.getElem_mem hl)]
  rw [trim, front, List.rdropWhile_eq_self_iff]
  intro hl
  simp [h _ (List.getLast_mem hl)]

def splitSign : Text → Bool × Text
  | '-' :: rest => (true, rest)
  | '+' :: rest => (false, rest)
  | text => (false, text)

def digitValue (c : Char) : Option Nat :=
  if '0' ≤ c ∧ c ≤ '9' then some (c.toNat - 48)
  else if 'a' ≤ c ∧ c ≤ 'z' then some (c.toNat - 87)
  else if 'A' ≤ c ∧ c ≤ 'Z' then some (c.toNat - 55)
  else none

/-- Digits with single underscores between them; the flag says that a digit has just been read. -/
def digitRun (base : Nat) : Bool → Text → Option (List Nat)
  | afterDigit, [] => if afterDigit then some [] else none
  | afterDigit, c :: rest =>
    if c = '_' then (if afterDigit then digitRun base false rest else none)
    else match digitValue c with
      | some d => if d < base then (digitRun base true rest).map (d :: ·) else none
      | none => none

def dropHexPrefix : Text → Text
  | '0' :: c :: rest =>
    if c = 'x' ∨ c = 'X' then (match rest with | '_' :: more => more | _ => rest)
    else '0' :: c :: rest
  | text => text

def ofDigits (base : Nat) (ds : List Nat) : Nat := ds.foldl (fun n d => n * base + d) 0

/-- The interpreter refuses longer decimal numerals (base 16 has no limit). -/
def maxStrDigits : Nat := 4300

def int (base : Nat) (text : Text) : Option Int :=
  let signed := splitSign (trim isBlank (text.map toAscii))
  let body := if base = 16 then dropHexPrefix signed.2 else signed.2
  match digitRun base false body with
  | none => none
  | some ds =>
    if base ≠ 16 ∧ maxStrDigits < ds.length then none
    else some (if signed.1 then -(ofDigits base ds : Int) else ofDigits base ds)

inductive Float64 where
  | nan
  | inf (negative : Bool)
  | finite (x : ℚ)
  deriving DecidableEq

def roundEven (x : ℚ) : Int :=
  let low := ⌊x⌋
  if x - low < 1 / 2 then low
  else if 1 / 2 < x - low then low + 1
  else if low % 2 = 0 then low else low + 1

/-- The binary64 value nearest to a number: 53 bits, the subnormal grid at 2^-1074. -/
def toFloat64 (x : ℚ) : Float64 :=
  if x = 0 then .finite 0
  else
    let ulp : ℚ := 2 ^ max (Int.log 2 |x| - 52) (-1074)
    let nearest : ℚ := roundEven (x / ulp) * ulp
    if 2 ^ 1024 ≤ |nearest| then .inf (decide (x < 0)) else .finite nearest

def dropUnderscores : Char → Text → Option Text
  | before, [] => if before = '_' then none else some []
  | before, c :: rest =>
    if c = '_' then (if before.isDigit then dropUnderscores '_' rest else none)
    else if before = '_' ∧ ¬ c.isDigit then none
    else (dropUnderscores c rest).map (c :: ·)

def digitsOf (text : Text) : List Nat := text.map (fun c => c.toNat - 48)

def exponent : Text → Option Int
  | [] => some 0
  | c :: rest =>
    let signed := splitSign rest
    if (c = 'e' ∨ c = 'E') ∧ signed.2 ≠ [] ∧ signed.2.all Char.isDigit then
      some (if signed.1 then -(ofDigits 10 (digitsOf signed.2) : Int)
        else ofDigits 10 (digitsOf signed.2))
    else none

def decimal (text : Text) : Option ℚ :=
  let whole := text.takeWhile Char.isDigit
  let tail := text.dropWhile Char.isDigit
  let fraction := match tail with | '.' :: rest => rest.takeWhile Char.isDigit | _ => []
  let after := match tail with | '.' :: rest => rest.dropWhile Char.isDigit | _ => tail
  if whole = [] ∧ fraction = [] then none
  else (exponent after).map fun e : Int =>
    (ofDigits 10 (digitsOf (whole ++ fraction)) : ℚ) * (10 : ℚ) ^ (e - fraction.length)

def float (text : Text) : Option Float64 :=
  match dropUnderscores ' ' (trim isBlank (text.map toAscii)) with
  | none => none
  | some plain =>
    let signed := splitSign plain
    let word := signed.2.map Char.toLower
    if word = ['i', 'n', 'f'] ∨ word = ['i', 'n', 'f', 'i', 'n', 'i', 't', 'y'] then
      some (.inf signed.1)
    else if word = ['n', 'a', 'n'] then some .nan
    else (decimal signed.2).map fun x => toFloat64 (if signed.1 then -x else x)

end R60V.Python
