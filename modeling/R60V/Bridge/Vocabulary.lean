import R60V.Lib.Footprint
import R60V.Bridge.State
import R60V.Python.Numerals

/-! What the commands of the registry are meant to say: for each kind of control the payloads of its
vocabulary and the value that each of them asks for, beside what the encoders make of a payload. -/
namespace R60V

open Python (Text int float Float64 roundEven strip twoDigits)
open Protocol (settingsLen)
open Footprint (LooksAt)
open Overlay (blit)

inductive Vocabulary where
  | switch
  | select (options : List Text)
  | timer
  | setpoint (range : Int × Int)

namespace Vocabulary

def onWords : List Text := ["ON".toList, ['1'], "TRUE".toList]

def offWords : List Text := ["OFF".toList, ['0'], "FALSE".toList]

/-- Whatever the case and the blanks around it. -/
def wordOf (payload : Text) : Text := (strip payload).map Char.toUpper

/-- `HH:MM`, the pattern that the timers are published with. -/
def IsClock (text : Text) : Prop :=
  ∃ hour : Fin 24, ∃ minute : Fin 60, text = twoDigits hour.val ++ ':' :: twoDigits minute.val

instance (text : Text) : Decidable (IsClock text) :=
  inferInstanceAs (Decidable (∃ _ : Fin 24, ∃ _ : Fin 60, _))

/-- What a payload asks for, as the entity shows it; `none` outside the vocabulary. -/
def canonical : Vocabulary → Text → Option Value
  | switch, payload =>
    if wordOf payload ∈ onWords then some (.text "ON".toList)
    else if wordOf payload ∈ offWords then some (.text "OFF".toList)
    else none
  | select options, payload => if payload ∈ options then some (.text payload) else none
  | timer, payload => if IsClock (strip payload) then some (.text (strip payload)) else none
  | setpoint range, payload =>
    match float payload with
    | some (.finite x) =>
      if range.1 ≤ roundEven x ∧ roundEven x ≤ range.2 then some (.int (roundEven x)) else none
    | _ => none

/-- Two numerals that `int` reads as an hour and a minute. -/
def ReadAsClock (payload : Text) : Prop :=
  ∃ h m hour minute, (strip payload).splitOn ':' = [h, m] ∧ int 10 h = some hour ∧
    int 10 m = some minute ∧ 0 ≤ hour ∧ hour ≤ 23 ∧ 0 ≤ minute ∧ minute ≤ 59

/-- The payloads on which the encoders keep to the vocabulary. -/
def Kept : Vocabulary → Text → Prop
  | switch, payload => wordOf payload ∈ onWords ∨ wordOf payload ∈ offWords
  | select _, _ => True
  | timer, payload => ReadAsClock payload → IsClock (strip payload)
  | setpoint _, payload => ∀ negative, float payload ≠ some (.inf negative)

end Vocabulary

/-- What the registry shows under a key. -/
structure Readout where
  key : String
  decode : Decode

structure Control extends Readout where
  encode : Encode

def Entity.readout (e : Entity) : Readout := ⟨e.key, e.decode⟩

def Entity.control (e : Entity) : Option Control := e.encode.map fun encode => ⟨e.readout, encode⟩

def ClimateEntity.readout (c : ClimateEntity) : Readout := ⟨c.key, c.target⟩

def ClimateEntity.control (c : ClimateEntity) : Control := ⟨c.readout, c.encodeTarget⟩

/-- Every writable entity and climate. -/
def controls : List Control :=
  entities.filterMap Entity.control ++ climateEntities.map ClimateEntity.control

def readouts : List Readout :=
  entities.map Entity.readout ++ climateEntities.map ClimateEntity.readout

def vocabularies : List (String × Vocabulary) :=
  [("power", .switch), ("service_boiler", .switch), ("active_profile", .select profileOptions),
   ("water_feed", .select waterFeedOptions), ("temperature_unit", .select tempUnitOptions),
   ("language", .select languageOptions), ("auto_on", .timer), ("auto_off", .timer),
   ("brew_boiler", .setpoint Protocol.brewTempRangeC),
   ("steam_boiler", .setpoint Protocol.serviceTempRangeC)]

def vocabularyOf (key : String) : Vocabulary := (vocabularies.lookup key).getD .switch

/-- The settings after a write. -/
def StateSnapshot.written (s : StateSnapshot) (a : Int) (data : List Int) : StateSnapshot :=
  { s with settings := blit a data s.settings }

/-- An encoder and the decoder beside it keep to a vocabulary on a payload: what is not refused is
shown in its canonical form, and what is outside is refused. -/
structure Vocabulary.Spoken (v : Vocabulary) (encode : Encode) (decode : Decode) (payload : Text) :
    Prop where
  refusal : ∀ e, encode payload = .error e → e.isValueError = true
  returns : ∀ a data, encode payload = .ok (a, data) → ∀ s : StateSnapshot,
    s.settings.length = settingsLen → ∃ value, v.canonical payload = some value ∧
      decode (s.written a data) = some value
  outside : v.canonical payload = none → ∃ e, encode payload = .error e ∧ e.isValueError = true

/-- A command means what it says, and nothing else of the registry changes. -/
structure Control.Means (c : Control) (payload : Text) : Prop where
  spoken : (vocabularyOf c.key).Spoken c.encode c.decode payload
  others : ∀ a data, c.encode payload = .ok (a, data) → ∀ s : StateSnapshot,
    s.settings.length = settingsLen →
      (∀ r ∈ readouts, r.key ≠ c.key → r.decode (s.written a data) = r.decode s) ∧
      ∀ climate ∈ climateEntities, climate.current (s.written a data) = climate.current s

/- What a write does to the snapshot. -/

theorem settingsByte_written {s : StateSnapshot} (full : s.settings.length = settingsLen) {a : Nat}
    {data : List Int} (fits : a + data.length ≤ settingsLen) {k : Nat} {d : Int}
    (value : data[k]? = some d) (byte : 0 ≤ d ∧ d ≤ 255) :
    (s.written a data).settingsByte (a + k) = d := by
  have here := (List.getElem?_eq_some_iff.mp value).1
  have hit : (blit a data s.settings)[a + k]? = some d :=
    (Overlay.blit_hit (by rw [full]; exact fits) here).trans value
  rw [StateSnapshot.settingsByte, StateSnapshot.written, hit, Option.getD_some]
  omega

theorem settingsByte_written_one {s : StateSnapshot} (full : s.settings.length = settingsLen)
    {a : Nat} (fits : a < settingsLen) {d : Int} (byte : 0 ≤ d ∧ d ≤ 255) :
    (s.written a [d]).settingsByte a = d := by
  have value : [d][0]? = some d := rfl
  exact settingsByte_written full fits value byte

namespace Vocabulary

variable {v : Vocabulary} {encode : Encode} {decode : Decode} {payload : Text}

theorem Spoken.of_error {e : EncodeError} (refused : encode payload = .error e)
    (valueError : e.isValueError = true) : v.Spoken encode decode payload where
  refusal := fun e' refused' => by
    cases refused.symm.trans refused'
    exact valueError
  returns := fun a data accepted => by cases refused.symm.trans accepted
  outside := fun _ => ⟨e, refused, valueError⟩

theorem Spoken.of_ok {a : Int} {data : List Int} {value : Value}
    (accepted : encode payload = .ok (a, data)) (meant : v.canonical payload = some value)
    (shown : ∀ s : StateSnapshot, s.settings.length = settingsLen →
      decode (s.written a data) = some value) : v.Spoken encode decode payload where
  refusal := fun e refused => by cases accepted.symm.trans refused
  returns := fun a' data' accepted' s full => by
    cases accepted.symm.trans accepted'
    exact ⟨value, meant, shown s full⟩
  outside := fun outside => by cases meant.symm.trans outside

theorem encodeBool_word (address : Nat) (on off : Int) (payload : Text) :
    encodeBool address on off payload =
      .ok (address, [if wordOf payload ∈ onWords then on else off]) := by
  have truthy : wordOf payload ∈ onWords ↔ (wordOf payload = ['O', 'N'] ∨ wordOf payload = ['1'] ∨
      wordOf payload = ['T', 'R', 'U', 'E']) := by
    simp only [onWords, List.mem_cons, List.not_mem_nil, or_false]
    rfl
  rw [encodeBool, ← wordOf]
  simp only [truthy]

theorem spoken_switch {address : Nat} {on off : Int}
    (shown : ∀ s : StateSnapshot, s.settings.length = settingsLen →
      decode (s.written address [on]) = some (.text "ON".toList) ∧
      decode (s.written address [off]) = some (.text "OFF".toList)) :
    switch.Spoken (encodeBool address on off) decode payload ↔ switch.Kept payload := by
  have accepted := encodeBool_word address on off payload
  constructor
  · intro spoken
    by_contra neither
    have outside : switch.canonical payload = none := by
      rw [canonical, if_neg fun on => neither (Or.inl on), if_neg fun off => neither (Or.inr off)]
    obtain ⟨e, refused, -⟩ := spoken.outside outside
    cases accepted.symm.trans refused
  · intro kept
    by_cases isOn : wordOf payload ∈ onWords
    · rw [if_pos isOn] at accepted
      exact .of_ok accepted (if_pos isOn) fun s full => (shown s full).1
    · rw [if_neg isOn] at accepted
      have meant : switch.canonical payload = some (.text "OFF".toList) := by
        rw [canonical, if_neg isOn, if_pos (kept.resolve_left isOn)]
      exact .of_ok accepted meant fun s full => (shown s full).2

theorem spoken_select {address : Nat} {options : List Text} (fits : address < settingsLen)
    (few : options.length ≤ 256) :
    (select options).Spoken (encodeEnum address options) (decodeEnum address options) payload := by
  cases found : options.findIdx? (· == payload) with
  | none =>
    refine .of_error (e := .notInOptions payload options) ?_ rfl
    simp only [encodeEnum, found]
  | some i =>
    obtain ⟨inside, same, -⟩ := List.findIdx?_eq_some_iff_getElem.mp found
    have listed : options[i]? = some payload := by
      rw [List.getElem?_eq_getElem inside, eq_of_beq same]
    have accepted : encodeEnum address options payload = .ok (address, [(i : Int)]) := by
      simp only [encodeEnum, found]
    refine .of_ok accepted (if_pos (List.mem_of_getElem? listed)) fun s full => ?_
    have byte := settingsByte_written_one full fits (d := i) ⟨by omega, by omega⟩
    rw [decodeEnum, byte, Int.toNat_natCast, listed, Option.getD_some]

theorem spoken_setpoint {address : Nat} {range : Int × Int} (fits : address < settingsLen)
    (bytes : 0 ≤ range.1 ∧ range.2 ≤ 255) :
    (setpoint range).Spoken (encodeRanged address range) (decodeByte address) payload ↔
      (setpoint range).Kept payload := by
  constructor
  · intro spoken negative infinite
    have outside : (setpoint range).canonical payload = none := by
      simp only [canonical, infinite]
    obtain ⟨e, refused, valueError⟩ := spoken.outside outside
    rw [(encodeRanged_error refused).mpr ⟨negative, infinite⟩] at valueError
    cases valueError
  · intro kept
    cases read : float payload with
    | none =>
      refine .of_error (e := .notANumber payload) ?_ rfl
      simp only [encodeRanged, toInteger, read]
    | some number =>
      cases number with
      | nan =>
        refine .of_error (e := .nan) ?_ rfl
        simp only [encodeRanged, toInteger, read]
      | inf negative => exact absurd read (kept negative)
      | finite x =>
        by_cases inside : range.1 ≤ roundEven x ∧ roundEven x ≤ range.2
        · have accepted : encodeRanged address range payload = .ok (address, [roundEven x]) := by
            simp only [encodeRanged, toInteger, read, if_pos inside]
          have meant : (setpoint range).canonical payload = some (.int (roundEven x)) := by
            simp only [canonical, read, if_pos inside]
          refine .of_ok accepted meant fun s full => ?_
          rw [decodeByte, settingsByte_written_one full fits ⟨by omega, by omega⟩]
        · refine .of_error (e := .outOfRange (roundEven x) range.1 range.2 address) ?_ rfl
          simp only [encodeRanged, toInteger, read, if_neg inside]

/- Timers. -/

/-- A clock text splits into the two numerals of its hour and its minute. -/
theorem encodeTime_of_clock {hour : Fin 24} {minute : Fin 60}
    (clock : strip payload = twoDigits hour.val ++ ':' :: twoDigits minute.val) (address : Nat) :
    encodeTime address payload = .ok (address, [(hour.val : Int), (minute.val : Int)]) := by
  have bounds := hour.isLt
  have bounds' := minute.isLt
  have hourRead : int 10 (twoDigits hour.val) = some (hour.val : Int) :=
    Python.int_twoDigits (by omega) (by omega)
  have minuteRead : int 10 (twoDigits minute.val) = some (minute.val : Int) :=
    Python.int_twoDigits (by omega) (by omega)
  simp only [encodeTime, clock, Python.splitOn_twoDigits, hourRead, minuteRead]
  rw [if_pos (by omega)]

theorem readAsClock_iff (address : Nat) (payload : Text) :
    ReadAsClock payload ↔ ∃ write, encodeTime address payload = .ok write := by
  constructor
  · rintro ⟨h, m, hour, minute, parts, hourRead, minuteRead, bounds⟩
    refine ⟨(address, [hour, minute]), ?_⟩
    simp only [encodeTime, parts, hourRead, minuteRead]
    rw [if_pos bounds]
  · rintro ⟨write, accepted⟩
    unfold encodeTime at accepted
    split at accepted
    · rename_i h m parts
      split at accepted
      · rename_i hour minute hourRead minuteRead
        split at accepted
        · rename_i bounds
          exact ⟨h, m, hour, minute, parts, hourRead, minuteRead, bounds⟩
        · cases accepted
      · cases accepted
    · cases accepted

theorem spoken_timer {address : Nat} (fits : address + 1 < settingsLen) :
    timer.Spoken (encodeTime address) (decodeTime address (address + 1)) payload ↔
      timer.Kept payload := by
  constructor
  · intro spoken read
    by_contra loose
    obtain ⟨write, accepted⟩ := (readAsClock_iff address payload).mp read
    have outside : timer.canonical payload = none := by rw [canonical, if_neg loose]
    obtain ⟨e, refused, -⟩ := spoken.outside outside
    cases accepted.symm.trans refused
  · intro kept
    by_cases read : ReadAsClock payload
    · have meant : timer.canonical payload = some (.text (strip payload)) := by
        rw [canonical, if_pos (kept read)]
      obtain ⟨hour, minute, clock⟩ := kept read
      refine .of_ok (encodeTime_of_clock clock address) meant fun s full => ?_
      have bytes : ∀ k d, [(hour.val : Int), (minute.val : Int)][k]? = some d →
          0 ≤ d ∧ d ≤ 255 → (s.written address
            [(hour.val : Int), (minute.val : Int)]).settingsByte (address + k) = d :=
        fun k d => settingsByte_written full fits
      have hourBound := hour.isLt
      have minuteBound := minute.isLt
      have hourByte := bytes 0 hour.val rfl (by omega)
      have minuteByte := bytes 1 minute.val rfl (by omega)
      rw [Nat.add_zero] at hourByte
      rw [decodeTime, hourByte, minuteByte, clock]
    · cases encoded : encodeTime address payload with
      | error e => exact .of_error encoded (encodeTime_error encoded)
      | ok write => exact absurd ((readAsClock_iff address payload).mpr ⟨write, encoded⟩) read

end Vocabulary

/- The registry. -/

def registers : List (String × List Nat) :=
  [("total_coffee_count", [0x4D, 0x4E]), ("power", [0x4A]), ("service_boiler", [0x49]),
   ("active_profile", [0x47]), ("water_feed", [0x46]), ("temperature_unit", [0x00]),
   ("language", [0x01]), ("auto_on", [0x51, 0x52]), ("auto_off", [0x53, 0x54]),
   ("brew_boiler", [0x02]), ("steam_boiler", [0x03])]

def registersOf (key : String) : List Nat := (registers.lookup key).getD []

/-- Each register is of one key. -/
theorem registers_apart : ∀ c ∈ controls, ∀ r ∈ readouts, r.key ≠ c.key →
    ∀ i ∈ registersOf c.key, i ∉ registersOf r.key := by decide

namespace Readout

/-- What a key shows is read from its registers and from the live part. -/
def Sees (r : Readout) : Prop :=
  ∀ live, LooksAt (fun xs => r.decode ⟨xs, live⟩) (registersOf r.key)

theorem sees_bytes {r : Readout} (reads : ∀ s t : StateSnapshot, s.live = t.live →
    (∀ i ∈ registersOf r.key, s.settingsByte i = t.settingsByte i) → r.decode s = r.decode t) :
    r.Sees := by
  intro live xs ys _ same
  refine reads _ _ rfl fun i member => ?_
  simp only [StateSnapshot.settingsByte, same i member]

theorem sees_live {r : Readout} (reads : ∀ s xs, r.decode { s with settings := xs } = r.decode s) :
    r.Sees := by
  intro live xs ys _ _
  exact reads ⟨ys, live⟩ xs

theorem sees_one {r : Readout} {a : Nat} (only : registersOf r.key = [a])
    (reads : ∀ s t : StateSnapshot, s.settingsByte a = t.settingsByte a →
      r.decode s = r.decode t) : r.Sees := by
  apply sees_bytes
  intro s t _ same
  exact reads s t (same a (by simp [only]))

theorem sees_enum {key : String} {a : Nat} (only : registersOf key = [a]) (options : List Text) :
    Sees ⟨key, decodeEnum a options⟩ := by
  apply sees_one only
  intro s t same
  simp only [decodeEnum, same]

theorem sees_byte {key : String} {a : Nat} (only : registersOf key = [a]) :
    Sees ⟨key, decodeByte a⟩ := by
  apply sees_one only
  intro s t same
  simp only [decodeByte, same]

theorem sees_time {key : String} {hour minute : Nat} (both : registersOf key = [hour, minute]) :
    Sees ⟨key, decodeTime hour minute⟩ := by
  apply sees_bytes
  intro s t _ same
  have hours := same hour (by simp [both])
  have minutes := same minute (by simp [both])
  simp only [decodeTime, hours, minutes]

end Readout

theorem readouts_see : ∀ r ∈ readouts, r.Sees := by
  intro r member
  simp only [readouts, List.mem_append, List.mem_map] at member
  rcases member with ⟨e, listed, rfl⟩ | ⟨c, listed, rfl⟩
  · simp only [entities, List.mem_cons, List.not_mem_nil, or_false] at listed
    rcases listed with rfl | rfl | rfl | rfl | rfl | rfl | rfl | rfl | rfl | rfl | rfl
    · exact Readout.sees_live fun _ _ => rfl
    · exact Readout.sees_live fun _ _ => rfl
    · intro live xs ys _ same
      have low := same 0x4D (by decide)
      have high := same 0x4E (by decide)
      simp only [Entity.readout, le16, Address.totalCoffeeCount, low, high]
    · exact Readout.sees_one (a := Address.standby) rfl fun s t same => by
        simp only [Entity.readout, decodePower, same]
    · exact Readout.sees_one (a := Address.serviceBoilerEnable) rfl fun s t same => by
        simp only [Entity.readout, decodeServiceBoiler, same]
    · exact Readout.sees_enum rfl _
    · exact Readout.sees_enum rfl _
    · exact Readout.sees_enum rfl _
    · exact Readout.sees_enum rfl _
    · exact Readout.sees_time rfl
    · exact Readout.sees_time rfl
  · simp only [climateEntities, List.mem_cons, List.not_mem_nil, or_false] at listed
    rcases listed with rfl | rfl
    · exact Readout.sees_byte rfl
    · exact Readout.sees_byte rfl

namespace Control

/-- A write stays in the registers of its key. -/
def Local (c : Control) : Prop :=
  ∀ payload a data, c.encode payload = .ok (a, data) →
    ∃ n : Nat, a = n ∧ ∀ k < data.length, n + k ∈ registersOf c.key

def Heeds (c : Control) : Prop :=
  ∀ payload, (vocabularyOf c.key).Spoken c.encode c.decode payload ↔
    (vocabularyOf c.key).Kept payload

theorem local_byte {c : Control} {n : Nat} (own : n ∈ registersOf c.key)
    (one : ∀ payload a data, c.encode payload = .ok (a, data) → a = n ∧ data.length = 1) :
    c.Local := by
  intro payload a data accepted
  obtain ⟨at_, length⟩ := one payload a data accepted
  refine ⟨n, at_, fun k here => ?_⟩
  obtain rfl : k = 0 := by omega
  exact own

/-- A control that writes its own registers and keeps to its vocabulary. -/
def Sound (c : Control) : Prop := c.Local ∧ c.Heeds

variable {key : String} {a : Nat}

theorem sound_select {options : List Text} (kind : vocabularyOf key = .select options)
    (own : a ∈ registersOf key) (fits : a < settingsLen) (few : options.length ≤ 256) :
    Sound ⟨⟨key, decodeEnum a options⟩, encodeEnum a options⟩ := by
  refine ⟨local_byte own fun payload a data => encodeEnum_ok, fun payload => ?_⟩
  simp only [kind]
  exact iff_of_true (Vocabulary.spoken_select fits few) trivial

theorem sound_switch {on off : Int} {decode : Decode} (kind : vocabularyOf key = .switch)
    (own : a ∈ registersOf key) (fits : a < settingsLen) (onByte : 0 ≤ on ∧ on ≤ 255)
    (offByte : 0 ≤ off ∧ off ≤ 255)
    (shownOn : ∀ s : StateSnapshot, s.settingsByte a = on → decode s = some (.text "ON".toList))
    (shownOff : ∀ s : StateSnapshot, s.settingsByte a = off →
      decode s = some (.text "OFF".toList)) :
    Sound ⟨⟨key, decode⟩, encodeBool a on off⟩ := by
  refine ⟨local_byte own fun payload a data => encodeBool_ok, fun payload => ?_⟩
  simp only [kind]
  apply Vocabulary.spoken_switch
  intro s full
  exact ⟨shownOn _ (settingsByte_written_one full fits onByte),
    shownOff _ (settingsByte_written_one full fits offByte)⟩

theorem sound_timer (kind : vocabularyOf key = .timer) (own : registersOf key = [a, a + 1])
    (fits : a + 1 < settingsLen) : Sound ⟨⟨key, decodeTime a (a + 1)⟩, encodeTime a⟩ := by
  refine ⟨fun payload address data accepted => ?_, fun payload => ?_⟩
  · obtain ⟨at_, length⟩ := encodeTime_ok accepted
    refine ⟨a, at_, fun k here => ?_⟩
    obtain rfl | rfl : k = 0 ∨ k = 1 := by omega
    · simp [own]
    · simp [own]
  · simp only [kind]
    exact Vocabulary.spoken_timer fits

theorem sound_setpoint {range : Int × Int} (kind : vocabularyOf key = .setpoint range)
    (own : a ∈ registersOf key) (fits : a < settingsLen) (bytes : 0 ≤ range.1 ∧ range.2 ≤ 255) :
    Sound ⟨⟨key, decodeByte a⟩, encodeRanged a range⟩ := by
  refine ⟨local_byte own fun payload address data accepted => ?_, fun payload => ?_⟩
  · obtain ⟨at_, value, rfl, -⟩ := encodeRanged_ok accepted
    exact ⟨at_, rfl⟩
  · simp only [kind]
    exact Vocabulary.spoken_setpoint fits bytes

end Control

theorem entities_sound : ∀ e ∈ entities, ∀ c, e.control = some c → c.Sound := by
  intro e listed c control
  simp only [entities, List.mem_cons, List.not_mem_nil, or_false] at listed
  rcases listed with rfl | rfl | rfl | rfl | rfl | rfl | rfl | rfl | rfl | rfl | rfl
  · cases control
  · cases control
  · cases control
  · cases control
    exact Control.sound_switch rfl (by decide) (by decide) (by decide) (by decide)
      (fun s off => by simp [decodePower, off]) fun s on => by simp [decodePower, on]
  · cases control
    exact Control.sound_switch rfl (by decide) (by decide) (by decide) (by decide)
      (fun s on => by simp [decodeServiceBoiler, on]) fun s off => by
        simp [decodeServiceBoiler, off]
  · cases control
    exact Control.sound_select rfl (by decide) (by decide) (by decide)
  · cases control
    exact Control.sound_select rfl (by decide) (by decide) (by decide)
  · cases control
    exact Control.sound_select rfl (by decide) (by decide) (by decide)
  · cases control
    exact Control.sound_select rfl (by decide) (by decide) (by decide)
  · cases control
    exact Control.sound_timer (a := Address.autoOnHour) rfl rfl (by decide)
  · cases control
    exact Control.sound_timer (a := Address.autoOffHour) rfl rfl (by decide)

theorem climates_sound : ∀ c ∈ climateEntities, c.control.Sound := by
  intro c listed
  simp only [climateEntities, List.mem_cons, List.not_mem_nil, or_false] at listed
  rcases listed with rfl | rfl
  · exact Control.sound_setpoint rfl (by decide) (by decide) (by decide)
  · exact Control.sound_setpoint rfl (by decide) (by decide) (by decide)

theorem controls_sound : ∀ c ∈ controls, c.Sound := by
  intro c member
  simp only [controls, List.mem_append, List.mem_filterMap, List.mem_map] at member
  rcases member with ⟨e, listed, control⟩ | ⟨climate, listed, rfl⟩
  · exact entities_sound e listed c control
  · exact climates_sound climate listed

theorem current_written : ∀ c ∈ climateEntities, ∀ (s : StateSnapshot) a data,
    c.current (s.written a data) = c.current s := by
  simp only [climateEntities, List.forall_mem_cons]
  exact ⟨fun _ _ _ => rfl, fun _ _ _ => rfl, by simp⟩

/-- The commands mean what they say exactly where the encoders keep to the vocabulary: a switch is
told one of the six words, a timer that reads as a clock time is one, and no setpoint reads as
infinite. -/
theorem commands_mean_iff {c : Control} (listed : c ∈ controls) (payload : Text) :
    c.Means payload ↔ (vocabularyOf c.key).Kept payload := by
  obtain ⟨local_, heeds⟩ := controls_sound c listed
  refine ⟨fun means => (heeds payload).mp means.spoken, fun kept => ?_⟩
  refine ⟨(heeds payload).mpr kept, fun a data accepted s full => ⟨fun r shown other => ?_, ?_⟩⟩
  · obtain ⟨n, rfl, own⟩ := local_ payload a data accepted
    have apart := registers_apart c listed r shown other
    exact (readouts_see r shown s.live).blit_eq (fun k here => apart _ (own k here)) s.settings
  · exact fun climate among => current_written climate among s a data

theorem commands_mean_on :
    Control.Means ⟨⟨"power", decodePower⟩, encodeBool Address.standby 0 1⟩ " on".toList :=
  (commands_mean_iff (List.mem_append_left _ List.mem_cons_self) _).mpr (Or.inl (by decide))

/-- What is no word of a switch turns it off, a sloppy clock time is taken, and the exception of an
infinite setpoint is no `ValueError`. -/
theorem commands_misread :
    (∃ c ∈ controls, c.key = "power" ∧ ¬ c.Means "turn on".toList) ∧
    (∃ c ∈ controls, c.key = "auto_on" ∧ ¬ c.Means "7:+5".toList) ∧
    ∃ c ∈ controls, c.key = "brew_boiler" ∧ ¬ c.Means "inf".toList := by
  refine ⟨⟨⟨⟨"power", decodePower⟩, encodeBool Address.standby 0 1⟩, ?_, rfl, fun means => ?_⟩,
    ⟨⟨⟨"auto_on", decodeTime Address.autoOnHour Address.autoOnMinute⟩,
      encodeTime Address.autoOnHour⟩, ?_, rfl, fun means => ?_⟩,
    ⟨⟨⟨"brew_boiler", decodeByte Address.brewBoilerTemp⟩,
      encodeRanged Address.brewBoilerTemp Protocol.brewTempRangeC⟩, ?_, rfl, fun means => ?_⟩⟩
  · exact List.mem_append_left _ List.mem_cons_self
  · obtain ⟨e, refused, -⟩ := means.spoken.outside (by decide)
    cases refused
  · simp [controls, entities, Entity.control, Entity.readout]
  · obtain ⟨e, refused, -⟩ := means.spoken.outside (by decide +kernel)
    have accepted : encodeTime Address.autoOnHour "7:+5".toList = .ok (0x51, [7, 5]) := by
      decide +kernel
    cases accepted.symm.trans refused
  · exact List.mem_append_right _ List.mem_cons_self
  · have raised : encodeRanged Address.brewBoilerTemp Protocol.brewTempRangeC "inf".toList =
        .error .infinity := by decide +kernel
    cases means.spoken.refusal _ raised

end R60V
