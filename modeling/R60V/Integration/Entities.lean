import R60V.Lib.Footprint
import R60V.Integration.Profiles
import R60V.Integration.TimerSwitch

/-! The integration's registry: how every entity decodes its native value from a snapshot, and how
the writable ones encode a value into a write. -/
namespace R60V.Integration

open Python (Text Float64 roundEven)
open Footprint (LooksAt Lens)

/- Addresses that only the integration has. -/

def profileA : Nat := 0x16

def profileB : Nat := 0x26

def profileC : Nat := 0x36

/-- A `datetime.time`. -/
structure TimeOfDay extends ClockTime where
  second : Fin 60
  microsecond : Fin 1000000
  deriving DecidableEq

/-- `dt_time(hour=.., minute=..)` of a valid time. -/
def ClockTime.sharp (t : ClockTime) : TimeOfDay := ⟨t, ⟨0, by decide⟩, ⟨0, by decide⟩⟩

/-- The values that entities show; `missing` is Python's `None`. -/
inductive Native where
  | missing
  | bool (on : Bool)
  | number (n : Int)
  | tenths (n : Int)
  | text (t : Text)
  | time (t : TimeOfDay)
  deriving DecidableEq

/-- `none` is an exception. -/
abbrev Decode := StateSnapshot Int → Option Native

inductive EncodeExc where
  | notInOptions (option : Text) (options : List Text)
  | profile (e : ProfileError)
  | notANumber
  | overflow
  | outOfRange (value lo hi : Int)
  -- No encoder is called with a value that is not of its type.
  | otherType
  deriving DecidableEq

/-- What the platforms hand to an encoder, one constructor for each annotated type. -/
inductive Command where
  | bool (on : Bool)
  | option (label : Text)
  | time (t : TimeOfDay)
  | profile (line : Text)
  | timer (t : Option TimeOfDay)
  | celsius (x : Float64)

abbrev Encode := Command → Except EncodeExc (Nat × List Int)

namespace StateSnapshot

def liveBytes (s : StateSnapshot Int) (address : Nat) : List Int :=
  (s.live.lookup (address : Int)).getD []

/-- Zero-padded. -/
def settingsBlock (s : StateSnapshot Int) (address length : Nat) : List Int :=
  (List.range length).map fun i => s.settingsByte (address + i)

end StateSnapshot

def le16 (data : List Int) (offset : Nat) : Int :=
  match data[offset]?, data[offset + 1]? with
  | some low, some high => low % 256 + high % 256 * 256
  | _, _ => 0

/- Decode helpers. -/

def liveByte (address : Nat) (s : StateSnapshot Int) : Int := (s.liveBytes address).headD 0

def liveDecibar (address : Nat) : Decode := fun s =>
  some (.tenths ((s.liveBytes address).headD 0))

/-- `bytes(data).decode("ascii", "replace").rstrip(" \x00")`; `bytes` refuses a value that is
no byte. -/
def liveText (address : Nat) (s : StateSnapshot Int) : Option Text :=
  let data := s.liveBytes address
  if data.all (fun b => 0 ≤ b && b ≤ 255) then
    let text := data.map fun b => if b < 128 then Char.ofNat b.toNat else '\uFFFD'
    some (text.rdropWhile fun c => c == ' ' || c.toNat == 0)
  else none

def boolOnZero (address : Nat) : Decode := fun s => some (.bool (s.settingsByte address = 0))

def boolOnNonzero (address : Nat) : Decode := fun s => some (.bool (s.settingsByte address ≠ 0))

def enum (address : Nat) (options : List Text) : Decode := fun s =>
  some (match options[(s.settingsByte address).toNat]? with
    | some label => .text label
    | none => .missing)

/-- A time of the clock, or `None`. -/
def showTime : Option ClockTime → Native
  | some t => .time t.sharp
  | none => .missing

def time (hourAddress minuteAddress : Nat) : Decode := fun s =>
  some (showTime (clockTime (s.settingsByte hourAddress) (s.settingsByte minuteAddress)))

def decodeProfileAt (address : Nat) : Decode := fun s =>
  (decodeProfile (s.settingsBlock address profileLen)).map .text

/- Encode helpers. -/

def encodeTime (hourAddress : Nat) : Encode
  | .time t => .ok (hourAddress, [t.hour.val, t.minute.val])
  | _ => .error .otherType

def encodeBool (address : Nat) (onValue offValue : Int) : Encode
  | .bool on => .ok (address, [if on then onValue else offValue])
  | _ => .error .otherType

def encodeEnum (address : Nat) (options : List Text) : Encode
  | .option label =>
    match options.findIdx? (· == label) with
    | some i => .ok (address, [(i : Int)])
    | none => .error (.notInOptions label options)
  | _ => .error .otherType

def encodeProfileAt (address : Nat) : Encode
  | .profile line =>
    match encodeProfile line with
    | .ok block => .ok (address, block)
    | .error e => .error (.profile e)
  | _ => .error .otherType

def profileOptions : List Text := [['A'], ['B'], ['C']]
def waterFeedOptions : List Text := ["mains".toList, "tank".toList]
def tempUnitOptions : List Text := ["celsius".toList, "fahrenheit".toList]
def languageOptions : List Text :=
  ["english".toList, "german".toList, "french".toList, "italian".toList]

structure EntityDescription where
  key : String
  name : String
  platform : String
  decode : Decode
  encode : Option Encode

namespace EntityDescription

def currentPressure : EntityDescription :=
  ⟨"current_pressure", "Brew Pressure", "sensor", liveDecibar Address.currentPressure, none⟩

def display : EntityDescription :=
  ⟨"display", "Display", "sensor", fun s => (liveText Address.display s).map .text, none⟩

def totalCoffeeCount : EntityDescription :=
  ⟨"total_coffee_count", "Total Coffee Count", "sensor",
    fun s => some (.number (le16 s.settings Address.totalCoffeeCount)), none⟩

def power : EntityDescription :=
  ⟨"power", "Power", "switch", boolOnZero Address.standby, some (encodeBool Address.standby 0 1)⟩

def serviceBoiler : EntityDescription :=
  ⟨"service_boiler", "Steam Boiler", "switch", boolOnNonzero Address.serviceBoilerEnable,
    some (encodeBool Address.serviceBoilerEnable 1 0)⟩

def activeProfile : EntityDescription :=
  ⟨"active_profile", "Pressure Profile", "select", enum Address.activeProfile profileOptions,
    some (encodeEnum Address.activeProfile profileOptions)⟩

def waterFeed : EntityDescription :=
  ⟨"water_feed", "Water Source", "select", enum Address.waterFeed waterFeedOptions,
    some (encodeEnum Address.waterFeed waterFeedOptions)⟩

def temperatureUnit : EntityDescription :=
  ⟨"temperature_unit", "Temperature Unit", "select", enum Address.temperatureUnit tempUnitOptions,
    some (encodeEnum Address.temperatureUnit tempUnitOptions)⟩

def language : EntityDescription :=
  ⟨"language", "Language", "select", enum Address.language languageOptions,
    some (encodeEnum Address.language languageOptions)⟩

def autoOn : EntityDescription :=
  ⟨"auto_on", "Auto-On Time", "time", time Address.autoOnHour Address.autoOnMinute,
    some (encodeTime Address.autoOnHour)⟩

def autoOff : EntityDescription :=
  ⟨"auto_off", "Auto-Off Time", "time", time Address.autoOffHour Address.autoOffMinute,
    some (encodeTime Address.autoOffHour)⟩

def profile (key name : String) (address : Nat) : EntityDescription :=
  ⟨key, name, "text", decodeProfileAt address, some (encodeProfileAt address)⟩

end EntityDescription

open EntityDescription in
/-- `ENTITIES`. -/
def entities : List EntityDescription :=
  [currentPressure, display, totalCoffeeCount, power, serviceBoiler, activeProfile, waterFeed,
    temperatureUnit, language, autoOn, autoOff,
    profile "profile_a" "Pressure Profile A" profileA,
    profile "profile_b" "Pressure Profile B" profileB,
    profile "profile_c" "Pressure Profile C" profileC]

/-- `TIMER_SWITCHES`. -/
def timerSwitches : List TimerSwitchDescription :=
  [TimerSwitchDescription.autoOn, TimerSwitchDescription.autoOff]

/- The brew boiler's temperature, off the front panel. -/

/-- A word of the pattern, in either case. -/
def matchWord (word text : Text) : Option Text :=
  if (text.take word.length).map Char.toUpper = word then some (text.drop word.length) else none

def skipBlanks (text : Text) : Text := text.dropWhile Python.isSpace

def skipOne (c : Char) : Text → Text
  | d :: rest => if d = c then rest else d :: rest
  | [] => []

/-- `BREW\s*BOIL\.?\s*(\d{1,3})\s*\*?\s*([CF])` at the beginning of a text. A decoded display has
no letters or digits outside ASCII. -/
def matchBrewTemp (text : Text) : Option (Int × Bool) := do
  let afterBrew ← matchWord ['B', 'R', 'E', 'W'] text
  let afterBoil ← matchWord ['B', 'O', 'I', 'L'] (skipBlanks afterBrew)
  let numeral := skipBlanks (skipOne '.' afterBoil)
  let digits := (numeral.takeWhile Char.isDigit).take 3
  let unit := skipBlanks (skipOne '*' (skipBlanks (numeral.drop digits.length)))
  let value : Int := Python.ofDigits 10 (Python.digitsOf digits)
  if digits = [] then none
  else match unit.head?.map Char.toUpper with
    | some 'C' => some (value, false)
    | some 'F' => some (value, true)
    | _ => none

/-- `re.search`: the first place where the pattern matches. -/
def parseDisplayBrewTemp (display : Text) : Option (Int × Bool) :=
  display.tails.findSome? matchBrewTemp

def machineToCelsius (value : Int) (fahrenheit : Bool) : Int :=
  if fahrenheit then roundEven ((value - 32) / (18 / 10)) else value

structure ClimateDescription where
  key : String
  name : String
  currentAddress : Nat
  setpointAddress : Nat
  isOn : StateSnapshot Int → Bool
  rangeC : Int × Int
  displayCurrent : Bool

namespace ClimateDescription

/-- `none` where the display is no bytes. -/
def currentC (c : ClimateDescription) (s : StateSnapshot Int) : Option Int :=
  if c.displayCurrent then
    (liveText Address.display s).map fun display =>
      match parseDisplayBrewTemp display with
      | some (value, fahrenheit) => machineToCelsius value fahrenheit
      | none => liveByte c.currentAddress s
  else some (liveByte c.currentAddress s)

def targetC (c : ClimateDescription) (s : StateSnapshot Int) : Int :=
  s.settingsByte c.setpointAddress

/-- `encode_setpoint`; the snapshot that it is given is not used. -/
def encodeSetpoint (c : ClimateDescription) : Encode
  | .celsius .nan => .error .notANumber
  | .celsius (.inf _) => .error .overflow
  | .celsius (.finite x) =>
    let value := roundEven x
    if c.rangeC.1 ≤ value ∧ value ≤ c.rangeC.2 then .ok (c.setpointAddress, [value])
    else .error (.outOfRange value c.rangeC.1 c.rangeC.2)
  | _ => .error .otherType

def brewBoiler : ClimateDescription :=
  ⟨"brew_boiler", "Brew Boiler", Address.currentBrewTemp, Address.brewBoilerTemp,
    fun s => s.settingsByte Address.standby = 0, Protocol.brewTempRangeC, true⟩

def steamBoiler : ClimateDescription :=
  ⟨"steam_boiler", "Steam Boiler", Address.currentServiceTemp, Address.serviceBoilerTemp,
    fun s => s.settingsByte Address.standby = 0 ∧
      s.settingsByte Address.serviceBoilerEnable ≠ 0, Protocol.serviceTempRangeC, false⟩

end ClimateDescription

/-- `CLIMATE_ENTITIES`. -/
def climateEntities : List ClimateDescription :=
  [ClimateDescription.brewBoiler, ClimateDescription.steamBoiler]

end R60V.Integration
