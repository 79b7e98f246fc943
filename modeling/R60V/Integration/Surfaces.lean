import R60V.Integration.Discovery
import R60V.Integration.PushPath

/-! The two surfaces of one machine: what the bridge publishes over MQTT beside what the entities of
the integration show, and what a command becomes on each of the ways that it can take. -/
namespace R60V.Integration

open Python (Text Float64 float roundEven twoDigits)
open Protocol (settingsLen)

/-- The snapshot that the integration gets of a store. -/
def pushed (s : DeviceState) : StateSnapshot Int where
  settings := s.snapshot.settings
  live := s.snapshot.live.entries.map fun e => ((e.1 : Int), e.2)
  available := s.available

/-- A published value and one that an entity shows say the same. What is no option is `unknown` or
nothing, and a timer whose two bytes are no time of day is these two numbers or nothing. -/
inductive Alike : Value → Native → Prop where
  | int (n : Int) : Alike (.int n) (.number n)
  | tenths (n : Int) : Alike (.tenths n) (.tenths n)
  | text (t : Text) : Alike (.text t) (.text t)
  | on : Alike (.text "ON".toList) (.bool true)
  | off : Alike (.text "OFF".toList) (.bool false)
  | time (t : ClockTime) : Alike (.text (shown t)) (.time t.sharp)
  | unknown : Alike (.text "unknown".toList) .missing
  | noTime {hour minute : Int} (bytes : (0 ≤ hour ∧ hour ≤ 255) ∧ 0 ≤ minute ∧ minute ≤ 255)
      (outside : 23 < hour ∨ 59 < minute) :
      Alike (.text (twoDigits hour ++ ':' :: twoDigits minute)) .missing

theorem mirrored_eq (s : DeviceState) : mirrored s = (pushed s).json := by
  simp [mirrored, pushed, StateSnapshot.json, List.map_map, Function.comp_def]

section Bytes

variable (s : DeviceState)

theorem settingsByte_pushed (a : Nat) : (pushed s).settingsByte a = s.snapshot.settingsByte a := rfl

theorem liveBytes_pushed (a : Nat) : (pushed s).liveBytes a = s.snapshot.liveBytes a := by
  have found : ∀ entries : List (Sigma fun _ : Nat => List Int),
      (entries.map fun e => ((e.1 : Int), e.2)).lookup (a : Int) = entries.dlookup a := by
    intro entries
    induction entries with
    | nil => rfl
    | cons e entries ih =>
      obtain ⟨key, value⟩ := e
      rw [List.map_cons, List.lookup_cons]
      by_cases same : a = key
      · subst same
        simp
      · have other : ((a : Int) == (key : Int)) = false := by simpa using same
        rw [List.dlookup_cons_ne _ _ same, ← ih]
        simp only [other]
  simp only [StateSnapshot.liveBytes, R60V.StateSnapshot.liveBytes, pushed]
  rw [found]
  rfl

end Bytes

/- One kind of entity after the other. -/

variable {s : DeviceState}

theorem alike_live (a : Nat) :
    Option.Rel Alike (R60V.decodeLiveDecibar a s.snapshot) (liveDecibar a (pushed s)) := by
  rw [R60V.decodeLiveDecibar, liveDecibar, liveBytes_pushed]
  exact .some (.tenths _)

theorem liveText_pushed (a : Nat) :
    R60V.decodeLiveText a s.snapshot = (liveText a (pushed s)).map .text := by
  simp only [R60V.decodeLiveText, liveText, liveBytes_pushed]
  split <;> rfl

theorem alike_text (a : Nat) : Option.Rel Alike (R60V.decodeLiveText a s.snapshot)
    ((liveText a (pushed s)).map .text) := by
  rw [liveText_pushed]
  cases liveText a (pushed s) with
  | none => exact .none
  | some t => exact .some (.text t)

theorem alike_count {a : Nat} (inside : a + 1 < s.snapshot.settings.length) :
    Option.Rel Alike ((R60V.le16 s.snapshot.settings a).map .int)
      (some (.number (le16 (pushed s).settings a))) := by
  have low : s.snapshot.settings[a]? = some s.snapshot.settings[a] :=
    List.getElem?_eq_getElem (by omega)
  have high : s.snapshot.settings[a + 1]? = some s.snapshot.settings[a + 1] :=
    List.getElem?_eq_getElem inside
  simp only [R60V.le16, le16, pushed, low, high, Option.map_some]
  exact .some (.int _)

theorem alike_power (a : Nat) : Option.Rel Alike
    (some (.text (if s.snapshot.settingsByte a = 0 then "ON".toList else "OFF".toList)))
    (boolOnZero a (pushed s)) := by
  simp only [boolOnZero, settingsByte_pushed]
  split <;> rename_i byte
  · simp only [byte, decide_true]
    exact .some .on
  · simp only [byte, decide_false]
    exact .some .off

theorem alike_switch (a : Nat) : Option.Rel Alike
    (some (.text (if s.snapshot.settingsByte a ≠ 0 then "ON".toList else "OFF".toList)))
    (boolOnNonzero a (pushed s)) := by
  have same := settingsByte_pushed s a
  by_cases byte : s.snapshot.settingsByte a = 0
  · rw [if_neg (not_not.mpr byte)]
    simp only [boolOnNonzero, same, byte, ne_eq, not_true, decide_false]
    exact .some .off
  · rw [if_pos byte]
    simp only [boolOnNonzero, same, byte, ne_eq, not_false_iff, decide_true]
    exact .some .on

theorem alike_select (a : Nat) (options : List Text) :
    Option.Rel Alike (R60V.decodeEnum a options s.snapshot) (enum a options (pushed s)) := by
  simp only [R60V.decodeEnum, enum, settingsByte_pushed]
  cases options[(s.snapshot.settingsByte a).toNat]? with
  | none => exact .some .unknown
  | some label => exact .some (.text label)

theorem alike_time (hour minute : Nat) :
    Option.Rel Alike (R60V.decodeTime hour minute s.snapshot) (time hour minute (pushed s)) := by
  simp only [R60V.decodeTime, time, settingsByte_pushed]
  have byte : ∀ a, 0 ≤ s.snapshot.settingsByte a ∧ s.snapshot.settingsByte a ≤ 255 := by
    intro a
    unfold R60V.StateSnapshot.settingsByte
    omega
  have first := byte hour
  have second := byte minute
  generalize s.snapshot.settingsByte hour = h at first
  generalize s.snapshot.settingsByte minute = m at second
  unfold clockTime
  split
  · rename_i inside
    have hours : ((h.toNat : Nat) : Int) = h := Int.toNat_of_nonneg first.1
    have minutes : ((m.toNat : Nat) : Int) = m := Int.toNat_of_nonneg second.1
    have same : twoDigits h ++ ':' :: twoDigits m =
        shown ⟨⟨h.toNat, by omega⟩, ⟨m.toNat, by omega⟩⟩ := by
      rw [shown]
      dsimp only
      rw [hours, minutes]
    rw [same]
    exact .some (.time _)
  · rename_i outside
    exact .some (.noTime ⟨first, second⟩ (by omega))

/-- Where the thermostats of the two surfaces show another temperature: what the panel says in
Celsius is not what the register says. -/
def PanelDiffers (s : StateSnapshot Int) (c : ClimateDescription) : Prop :=
  c.displayCurrent = true ∧ ∀ display, liveText Address.display s = some display →
    ∃ value fahrenheit, parseDisplayBrewTemp display = some (value, fahrenheit) ∧
      machineToCelsius value fahrenheit ≠ liveByte c.currentAddress s

theorem alike_current (c : ClimateDescription) : Option.Rel Alike
    (R60V.decodeLiveByte c.currentAddress s.snapshot) ((c.currentC (pushed s)).map .number) ↔
      ¬ PanelDiffers (pushed s) c := by
  rw [R60V.decodeLiveByte, ← liveBytes_pushed]
  change Option.Rel Alike (some (.int (liveByte c.currentAddress (pushed s)))) _ ↔ _
  have shows : ∀ n : Int, Option.Rel Alike (some (.int (liveByte c.currentAddress (pushed s))))
      (some (.number n)) ↔ n = liveByte c.currentAddress (pushed s) := by
    intro n
    constructor
    · intro same
      cases same with
      | some alike =>
        cases alike
        rfl
    · rintro rfl
      exact .some (.int _)
  unfold ClimateDescription.currentC PanelDiffers
  cases c.displayCurrent with
  | false => simpa using (shows _).mpr rfl
  | true =>
    rw [if_pos rfl]
    cases liveText Address.display (pushed s) with
    | none => exact iff_of_false (fun same => by cases same) (by simp)
    | some display =>
      rw [Option.map_some, Option.map_some, shows]
      cases reads : parseDisplayBrewTemp display with
      | none => simp [reads]
      | some reading =>
        obtain ⟨value, fahrenheit⟩ := reading
        constructor
        · rintro same ⟨-, differs⟩
          obtain ⟨_, _, again, other⟩ := differs display rfl
          cases reads.symm.trans again
          exact other same
        · intro alike
          by_contra other
          refine alike ⟨rfl, fun shown same => ?_⟩
          cases same
          exact ⟨value, fahrenheit, reads, other⟩

/-- **Both surfaces show the same machine.** Whatever the store holds, every entity that the bridge
publishes is one of the integration's, and shows there what is published of it, from the snapshot
that the push channel brings; as does every thermostat, but for a current temperature that the
integration reads off the panel and finds to be another than the register's. -/
theorem surfaces_alike (full : s.snapshot.settings.length = settingsLen) :
    mirrored s = (pushed s).json ∧
    (∀ e ∈ R60V.entities, ∃ d ∈ entities, d.key = e.key ∧
      Option.Rel Alike (e.decode s.snapshot) (d.decode (pushed s))) ∧
    ∀ c ∈ R60V.climateEntities, ∃ d ∈ climateEntities, d.key = c.key ∧
      Option.Rel Alike (c.target s.snapshot) (some (.number (d.targetC (pushed s)))) ∧
      (Option.Rel Alike (c.current s.snapshot) ((d.currentC (pushed s)).map .number) ↔
        ¬ PanelDiffers (pushed s) d) := by
  have listed : ∀ d ∈ ([.currentPressure, .display, .totalCoffeeCount, .power, .serviceBoiler,
      .activeProfile, .waterFeed, .temperatureUnit, .language, .autoOn, .autoOff] :
        List EntityDescription), d ∈ entities := fun d member =>
    List.mem_append_left _ member
  simp only [List.forall_mem_cons] at listed
  obtain ⟨pressure, display, count, power, service, profile, water, unit, language, on, off, -⟩ :=
    listed
  refine ⟨mirrored_eq s, ?_, ?_⟩
  · simp only [R60V.entities, List.forall_mem_cons]
    exact ⟨⟨_, pressure, rfl, alike_live _⟩, ⟨_, display, rfl, alike_text _⟩,
      ⟨_, count, rfl, alike_count (by rw [full]; decide)⟩, ⟨_, power, rfl, alike_power _⟩,
      ⟨_, service, rfl, alike_switch _⟩, ⟨_, profile, rfl, alike_select _ _⟩,
      ⟨_, water, rfl, alike_select _ _⟩, ⟨_, unit, rfl, alike_select _ _⟩,
      ⟨_, language, rfl, alike_select _ _⟩, ⟨_, on, rfl, alike_time _ _⟩,
      ⟨_, off, rfl, alike_time _ _⟩, by simp⟩
  · simp only [R60V.climateEntities, List.forall_mem_cons]
    exact ⟨⟨_, List.mem_cons_self, rfl, .some (.int _), alike_current .brewBoiler⟩,
      ⟨_, List.mem_cons_of_mem _ List.mem_cons_self, rfl, .some (.int _),
        alike_current .steamBoiler⟩, by simp⟩

/-- A fresh store. -/
theorem fresh_surfaces_alike : ∃ d ∈ entities, d.key = "power" ∧
    Option.Rel Alike (some (.text "ON".toList)) (d.decode (pushed (.new 4 12 1))) :=
  (surfaces_alike (s := .new 4 12 1) List.length_replicate).2.1
    ⟨"power", "Power", "switch", decodePower, some (R60V.encodeBool Address.standby 0 1)⟩
    (by simp [R60V.entities])

/- What becomes of a command. -/

/-- The writer of the integration under a key of the bridge's registry. -/
def writerOf (key : String) : Option Writer :=
  match (entities.find? (·.key == key)).bind EntityDescription.writer with
  | some w => some w
  | none => (climateEntities.find? (·.key == key)).map ClimateDescription.writer

/-- A command of Home Assistant, and a payload over MQTT that asks for the same: words in any case
and clock texts with any blanks around them, options to the letter, and whatever reads as the same
number. -/
inductive Says : Command → Text → Prop where
  | on {payload : Text} (word : Vocabulary.wordOf payload ∈ Vocabulary.onWords) :
      Says (.bool true) payload
  | off {payload : Text} (word : Vocabulary.wordOf payload ∈ Vocabulary.offWords) :
      Says (.bool false) payload
  | option (label : Text) : Says (.option label) label
  | time (t : TimeOfDay) {payload : Text} (clock : Python.strip payload = shown t.toClockTime) :
      Says (.time t) payload
  | celsius {payload : Text} {x : Float64} (read : float payload = some x) :
      Says (.celsius x) payload

/-- Two encoders take the same commands, and write the same for them. -/
def Agrees (encode : Encode) (mqtt : R60V.Encode) : Prop :=
  ∀ v payload, Says v payload → encode v ≠ .error .otherType → ∀ a data,
    encode v = .ok (a, data) ↔ mqtt payload = .ok ((a : Int), data)

theorem agrees_at {a' a : Nat} {data' data : List Int} :
    (Except.ok (a', data') : Except EncodeExc (Nat × List Int)) = .ok (a, data) ↔
      (Except.ok ((a' : Int), data') : Except EncodeError (Int × List Int)) =
        .ok ((a : Int), data) := by
  simp

theorem agrees_bool (a : Nat) (on off : Int) :
    Agrees (encodeBool a on off) (R60V.encodeBool a on off) := by
  intro v payload told typed a' data
  rw [Vocabulary.encodeBool_word]
  cases told with
  | on word =>
    rw [if_pos word]
    exact agrees_at
  | off word =>
    have apart : ∀ word ∈ Vocabulary.offWords, word ∉ Vocabulary.onWords := by decide
    rw [if_neg (apart _ word)]
    exact agrees_at
  | option | time | celsius => exact absurd rfl typed

theorem agrees_enum (a : Nat) (options : List Text) :
    Agrees (encodeEnum a options) (R60V.encodeEnum a options) := by
  intro v payload told typed a' data
  cases told with
  | option =>
    simp only [encodeEnum, R60V.encodeEnum]
    cases options.findIdx? (· == payload) with
    | none => simp
    | some i => exact agrees_at
  | on | off | time | celsius => exact absurd rfl typed

theorem agrees_time (a : Nat) : Agrees (encodeTime a) (R60V.encodeTime a) := by
  intro v payload told typed a' data
  cases told with
  | time t clock =>
    rw [Vocabulary.encodeTime_of_clock clock]
    exact agrees_at
  | on | off | option | celsius => exact absurd rfl typed

theorem agrees_setpoint (c : ClimateDescription) :
    Agrees c.encodeSetpoint (R60V.encodeRanged c.setpointAddress c.rangeC) := by
  intro v payload told typed a' data
  cases told with
  | @celsius payload x read =>
    simp only [R60V.encodeRanged, toInteger, read]
    cases x with
    | nan | inf => simp [ClimateDescription.encodeSetpoint]
    | finite x =>
      simp only [ClimateDescription.encodeSetpoint]
      split
      · exact agrees_at
      · simp
  | on | off | option | time => exact absurd rfl typed

theorem writerOf_listed {key : String} {w : Writer} (found : writerOf key = some w) :
    w ∈ writers := by
  unfold writerOf at found
  split at found
  · rename_i entity
    obtain ⟨d, at_, writer⟩ := Option.bind_eq_some_iff.mp entity
    cases found
    exact List.mem_append_left _ (List.mem_append_left _
      (List.mem_filterMap.mpr ⟨d, List.mem_of_find?_eq_some at_, writer⟩))
  · obtain ⟨d, at_, rfl⟩ := Option.map_eq_some_iff.mp found
    exact List.mem_append_right _ (List.mem_map_of_mem (List.mem_of_find?_eq_some at_))

/-- Every control of the bridge has its counterpart. -/
theorem controls_twin : ∀ c ∈ controls, ∃ w, writerOf c.key = some w ∧
    Agrees w.encode c.encode := by
  intro c member
  simp only [controls, R60V.entities, R60V.climateEntities, Entity.control, Entity.readout,
    ClimateEntity.control, ClimateEntity.readout, List.filterMap_cons, Option.map_none,
    Option.map_some, List.filterMap_nil, List.map_cons, List.map_nil, List.mem_append,
    List.mem_cons, List.not_mem_nil, or_false] at member
  rcases member with (rfl | rfl | rfl | rfl | rfl | rfl | rfl | rfl) | (rfl | rfl)
  · exact ⟨_, rfl, agrees_bool _ _ _⟩
  · exact ⟨_, rfl, agrees_bool _ _ _⟩
  · exact ⟨_, rfl, agrees_enum _ _⟩
  · exact ⟨_, rfl, agrees_enum _ _⟩
  · exact ⟨_, rfl, agrees_enum _ _⟩
  · exact ⟨_, rfl, agrees_enum _ _⟩
  · exact ⟨_, rfl, agrees_time _⟩
  · exact ⟨_, rfl, agrees_time _⟩
  · exact ⟨_, rfl, agrees_setpoint .brewBoiler⟩
  · exact ⟨_, rfl, agrees_setpoint .steamBoiler⟩

/-- The front-end takes the frame of a write for that write. -/
theorem dispatch_write {a : Nat} {data : List Int}
    (inRange : (Call.write a data).InRange) : dispatch (Call.write a data).frame =
      [.submit (.frontend (Call.write a data).frame) (.write a data)] := by
  obtain ⟨f, parsed, enveloped, carried⟩ := Call.parsed inRange
  have command : f.command = .write := enveloped.command
  have address : f.address = a := enveloped.address
  have data_ : f.data = data := carried
  simp only [dispatch, parsed, command, address, data_]

/-- **All channels carry the same write.** A command of Home Assistant for an entity that the bridge
has as well, and a payload over MQTT that asks for the same: the integration refuses to encode the
one where the bridge refuses the other; and else the MQTT command, the write-intent of the push
channel, and the frame that the integration sends to the front-end while the push channel is down
come to the governor as one and the same write. -/
theorem channels_agree {c : R60V.Control} (listed : c ∈ controls) {v : Command} {payload : Text}
    (told : Says v payload) : ∃ w ∈ writers, writerOf c.key = some w ∧
      (w.encode v ≠ .error .otherType →
        ((∃ write, w.encode v = .ok write) ↔ ∃ write, c.encode payload = .ok write) ∧
        ∀ a data, w.encode v = .ok (a, data) →
          (∀ rest, (CommandLoop.take ⟨c.key, payload⟩ rest).2.2 =
            [.submit (.command ⟨c.key, payload⟩) (.write a data)]) ∧
          (∀ key frame, handleInbound (.ok (commandFrame a data key)) = .ok (some frame) →
            validate frame = some ⟨a, data⟩ ∧ ∀ loop attempt,
              (IntentLoop.submitWrite loop ⟨a, data⟩ attempt).2 =
                [.submit (.intent ⟨a, data⟩) (.write a data)]) ∧
          dispatch (Call.write a data).frame =
            [.submit (.frontend (Call.write a data).frame) (.write a data)]) := by
  obtain ⟨w, found, agrees⟩ := controls_twin c listed
  have member := writerOf_listed found
  refine ⟨w, member, found, fun typed => ⟨⟨?_, ?_⟩, fun a data encoded => ⟨fun rest => ?_, ?_, ?_⟩⟩⟩
  · rintro ⟨⟨a, data⟩, encoded⟩
    exact ⟨_, (agrees v payload told typed a data).mp encoded⟩
  · rintro ⟨⟨a, data⟩, encoded⟩
    obtain ⟨n, rfl, -⟩ := (controls_sound c listed).1 payload a data encoded
    exact ⟨_, (agrees v payload told typed n data).mpr encoded⟩
  · have accepted := (agrees v payload told typed a data).mp encoded
    simp only [CommandLoop.take, encodeCommand, (controls_accept c listed).1, Option.map_some,
      accepted]
  · intro key frame handed
    exact ⟨Sent.valid ⟨w, v, a, data, member, encoded⟩ handed, fun _ _ => rfl⟩
  · have writes := writers_sound w member v a data encoded
    have fits := writes.fits
    have size : settingsLen = 115 := rfl
    refine dispatch_write ⟨?_, ?_, fun b byte => ?_⟩
    · constructor <;> omega
    · constructor <;> omega
    · obtain ⟨low, high⟩ := writes.bytes b byte
      constructor <;> omega

/-- A setpoint in half degrees, as a number of Home Assistant and as a text. -/
theorem setpoint_channels : ∃ w, writerOf "brew_boiler" = some w ∧
    ((∃ write, w.encode (.celsius (.finite 100.5)) = .ok write) ↔
      ∃ write, R60V.encodeRanged Address.brewBoilerTemp Protocol.brewTempRangeC
        "100.5".toList = .ok write) := by
  have listed : (⟨⟨"brew_boiler", R60V.decodeByte Address.brewBoilerTemp⟩,
      R60V.encodeRanged Address.brewBoilerTemp Protocol.brewTempRangeC⟩ : R60V.Control) ∈
        controls := List.mem_append_right _ List.mem_cons_self
  have read : float "100.5".toList = some (.finite 100.5) := by decide +kernel
  obtain ⟨w, -, found, same⟩ := channels_agree listed (.celsius read)
  have boiler : writerOf "brew_boiler" = some ClimateDescription.brewBoiler.writer := rfl
  obtain rfl := Option.some.inj (boiler.symm.trans found)
  have typed : ClimateDescription.brewBoiler.writer.encode (.celsius (.finite 100.5)) ≠
      .error .otherType := by decide +kernel
  exact ⟨_, boiler, (same typed).1⟩

end R60V.Integration
