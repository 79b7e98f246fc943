import R60V.Bridge.Framing
import R60V.Lib.Overlay

/-! Decoding machine memory into entities and encoding commands back: the
snapshot, the decode and encode helpers, and the two registries built from them.
The discovery documents (`config`) of the entities are left out. -/
namespace R60V

open Python (Text int float Float64 roundEven strip twoDigits)
open Protocol (settingsLen brewTempRangeC serviceTempRangeC)
open Overlay (Dict)

def liveRegisters : List (Nat × Nat) :=
  [(Address.currentBrewTemp, 1), (Address.currentServiceTemp, 1), (Address.currentPressure, 1),
   (Address.display, 16)]

structure StateSnapshot where
  settings : List Int
  live : Dict (List Int)
  deriving DecidableEq

namespace StateSnapshot

def blank : StateSnapshot := ⟨List.replicate settingsLen 0, ∅⟩

/-- Masked with 0xFF; zero outside the block. -/
def settingsByte (s : StateSnapshot) (address : Nat) : Int := (s.settings[address]?.getD 0) % 256

def liveBytes (s : StateSnapshot) (address : Nat) : List Int := (s.live.lookup address).getD []

end StateSnapshot

inductive Value where
  | int (n : Int)
  | tenths (n : Int)
  | text (t : Text)
  deriving DecidableEq

/-- Why an encoder refuses a payload. All but `infinity` are `ValueError`s. -/
inductive EncodeError where
  | notANumber (payload : Text)
  | nan
  | infinity
  | outOfRange (value lo hi : Int) (address : Nat)
  | notHHMM (payload : Text)
  | nonNumericTime (payload : Text)
  | timeOutOfRange (payload : Text)
  | notInOptions (payload : Text) (options : List Text)
  deriving DecidableEq

def EncodeError.isValueError : EncodeError → Bool
  | .infinity => false
  | _ => true

abbrev Decode := StateSnapshot → Option Value
abbrev Encode := Text → Except EncodeError (Int × List Int)

/- Decode helpers. `none` is an exception, which the publisher logs. -/

def decodeByte (address : Nat) : Decode := fun s => some (.int (s.settingsByte address))

def decodeLiveByte (address : Nat) : Decode := fun s =>
  some (.int ((s.liveBytes address).headD 0))

def decodeLiveDecibar (address : Nat) : Decode := fun s =>
  some (.tenths ((s.liveBytes address).headD 0))

/-- `bytes(data).decode("ascii", "replace").rstrip(" \x00")`; `bytes` refuses a value that is
no byte. -/
def decodeLiveText (address : Nat) : Decode := fun s =>
  let data := s.liveBytes address
  if data.all (fun b => 0 ≤ b && b ≤ 255) then
    let text := data.map fun b => if b < 128 then Char.ofNat b.toNat else '\uFFFD'
    some (.text (text.rdropWhile fun c => c == ' ' || c.toNat == 0))
  else none

def decodeEnum (address : Nat) (options : List Text) : Decode := fun s =>
  some (.text (options[(s.settingsByte address).toNat]?.getD "unknown".toList))

def decodeTime (hour minute : Nat) : Decode := fun s =>
  some (.text (twoDigits (s.settingsByte hour) ++ ':' :: twoDigits (s.settingsByte minute)))

def le16 (data : List Int) (offset : Nat) : Option Int :=
  match data[offset]?, data[offset + 1]? with
  | some low, some high => some (low % 256 + high % 256 * 256)
  | _, _ => none

/- Encode helpers. -/

def toInteger (payload : Text) : Except EncodeError Int :=
  match float payload with
  | none => .error (.notANumber payload)
  | some .nan => .error .nan
  | some (.inf _) => .error .infinity
  | some (.finite x) => .ok (roundEven x)

def encodeRanged (address : Nat) (range : Int × Int) : Encode := fun payload =>
  match toInteger payload with
  | .error e => .error e
  | .ok value =>
    if range.1 ≤ value ∧ value ≤ range.2 then .ok (address, [value])
    else .error (.outOfRange value range.1 range.2 address)

def encodeTime (hour : Nat) : Encode := fun payload =>
  match (strip payload).splitOn ':' with
  | [h, m] =>
    match int 10 h, int 10 m with
    | some hourValue, some minuteValue =>
      if 0 ≤ hourValue ∧ hourValue ≤ 23 ∧ 0 ≤ minuteValue ∧ minuteValue ≤ 59 then
        .ok (hour, [hourValue, minuteValue])
      else .error (.timeOutOfRange payload)
    | _, _ => .error (.nonNumericTime payload)
  | _ => .error (.notHHMM payload)

/-- Whatever is not one of the three words switches off. No character outside ASCII has an
upper case inside them, so the ASCII `toUpper` decides the test. -/
def encodeBool (address : Nat) (onValue offValue : Int) : Encode := fun payload =>
  let word := (strip payload).map Char.toUpper
  .ok (address, [if word = ['O', 'N'] ∨ word = ['1'] ∨ word = ['T', 'R', 'U', 'E'] then onValue
    else offValue])

def encodeEnum (address : Nat) (options : List Text) : Encode := fun payload =>
  match options.findIdx? (· == payload) with
  | some i => .ok (address, [(i : Int)])
  | none => .error (.notInOptions payload options)

def profileOptions : List Text := [['A'], ['B'], ['C']]
def waterFeedOptions : List Text := ["mains".toList, "tank".toList]
def tempUnitOptions : List Text := ["celsius".toList, "fahrenheit".toList]
def languageOptions : List Text :=
  ["english".toList, "german".toList, "french".toList, "italian".toList]

structure Entity where
  key : String
  name : String
  component : String
  decode : Decode
  encode : Option Encode

def Entity.writable (e : Entity) : Bool := e.encode.isSome

def decodePower : Decode := fun s =>
  some (.text (if s.settingsByte Address.standby = 0 then "ON".toList else "OFF".toList))

def decodeServiceBoiler : Decode := fun s =>
  some (.text (if s.settingsByte Address.serviceBoilerEnable ≠ 0 then "ON".toList
    else "OFF".toList))

def entities : List Entity :=
  [⟨"current_pressure", "Brew Pressure", "sensor", decodeLiveDecibar Address.currentPressure,
      none⟩,
   ⟨"display", "Display", "sensor", decodeLiveText Address.display, none⟩,
   ⟨"total_coffee_count", "Total Coffee Count", "sensor",
      fun s => (le16 s.settings Address.totalCoffeeCount).map .int, none⟩,
   ⟨"power", "Power", "switch", decodePower, some (encodeBool Address.standby 0 1)⟩,
   ⟨"service_boiler", "Steam Boiler", "switch", decodeServiceBoiler,
      some (encodeBool Address.serviceBoilerEnable 1 0)⟩,
   ⟨"active_profile", "Pressure Profile", "select",
      decodeEnum Address.activeProfile profileOptions,
      some (encodeEnum Address.activeProfile profileOptions)⟩,
   ⟨"water_feed", "Water Source", "select", decodeEnum Address.waterFeed waterFeedOptions,
      some (encodeEnum Address.waterFeed waterFeedOptions)⟩,
   ⟨"temperature_unit", "Temperature Unit", "select",
      decodeEnum Address.temperatureUnit tempUnitOptions,
      some (encodeEnum Address.temperatureUnit tempUnitOptions)⟩,
   ⟨"language", "Language", "select", decodeEnum Address.language languageOptions,
      some (encodeEnum Address.language languageOptions)⟩,
   ⟨"auto_on", "Auto-On Time", "text", decodeTime Address.autoOnHour Address.autoOnMinute,
      some (encodeTime Address.autoOnHour)⟩,
   ⟨"auto_off", "Auto-Off Time", "text", decodeTime Address.autoOffHour Address.autoOffMinute,
      some (encodeTime Address.autoOffHour)⟩]

structure ClimateEntity where
  key : String
  name : String
  current : Decode
  target : Decode
  encodeTarget : Encode
  minTemp : Int
  maxTemp : Int

def climateEntities : List ClimateEntity :=
  [⟨"brew_boiler", "Brew Boiler", decodeLiveByte Address.currentBrewTemp,
      decodeByte Address.brewBoilerTemp, encodeRanged Address.brewBoilerTemp brewTempRangeC,
      brewTempRangeC.1, brewTempRangeC.2⟩,
   ⟨"steam_boiler", "Steam Boiler", decodeLiveByte Address.currentServiceTemp,
      decodeByte Address.serviceBoilerTemp,
      encodeRanged Address.serviceBoilerTemp serviceTempRangeC,
      serviceTempRangeC.1, serviceTempRangeC.2⟩]

def entityByKey (key : String) : Option Entity := entities.find? (·.key == key)

def climateByKey (key : String) : Option ClimateEntity := climateEntities.find? (·.key == key)

theorem keys_nodup : (entities.map (·.key)).Nodup ∧ (climateEntities.map (·.key)).Nodup := by
  decide

/- What every encoder of the two registries guarantees about what it returns. -/

theorem encodeRanged_ok {address : Nat} {range : Int × Int} {payload : Text} {a : Int}
    {data : List Int} (h : encodeRanged address range payload = .ok (a, data)) :
    a = address ∧ ∃ value, data = [value] ∧ range.1 ≤ value ∧ value ≤ range.2 := by
  unfold encodeRanged at h
  split at h
  · cases h
  · rename_i value _
    split at h
    · rename_i inside
      cases h
      exact ⟨rfl, value, rfl, inside⟩
    · cases h

theorem encodeRanged_error {address : Nat} {range : Int × Int} {payload : Text} {e : EncodeError}
    (h : encodeRanged address range payload = .error e) :
    e.isValueError = false ↔ ∃ negative, float payload = some (.inf negative) := by
  unfold encodeRanged toInteger at h
  split at h
  · rename_i e' he
    cases h
    split at he
    · rename_i hf; cases he; simp [EncodeError.isValueError, hf]
    · rename_i hf; cases he; simp [EncodeError.isValueError, hf]
    · rename_i b hf; cases he; simp [EncodeError.isValueError, hf]
    · cases he
  · rename_i value hv
    split at h
    · cases h
    · cases h
      split at hv
      · cases hv
      · cases hv
      · cases hv
      · rename_i hf; simp [EncodeError.isValueError, hf]

theorem encodeTime_ok {hour : Nat} {payload : Text} {a : Int} {data : List Int}
    (h : encodeTime hour payload = .ok (a, data)) : a = hour ∧ data.length = 2 := by
  unfold encodeTime at h
  split at h
  · split at h
    · split at h
      · cases h; exact ⟨rfl, rfl⟩
      · cases h
    · cases h
  · cases h

theorem encodeTime_error {hour : Nat} {payload : Text} {e : EncodeError}
    (h : encodeTime hour payload = .error e) : e.isValueError = true := by
  unfold encodeTime at h
  split at h
  · split at h
    · split at h
      · cases h
      · cases h; rfl
    · cases h; rfl
  · cases h; rfl

theorem encodeBool_ok {address : Nat} {onValue offValue : Int} {payload : Text} {a : Int}
    {data : List Int} (h : encodeBool address onValue offValue payload = .ok (a, data)) :
    a = address ∧ data.length = 1 := by
  cases h
  exact ⟨rfl, rfl⟩

theorem encodeEnum_ok {address : Nat} {options : List Text} {payload : Text} {a : Int}
    {data : List Int} (h : encodeEnum address options payload = .ok (a, data)) :
    a = address ∧ data.length = 1 := by
  unfold encodeEnum at h
  split at h
  · cases h; exact ⟨rfl, rfl⟩
  · cases h

theorem encodeEnum_error {address : Nat} {options : List Text} {payload : Text} {e : EncodeError}
    (h : encodeEnum address options payload = .error e) : e.isValueError = true := by
  unfold encodeEnum at h
  split at h
  · cases h
  · cases h; rfl

end R60V
