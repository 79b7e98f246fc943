import R60V.Integration.Entities

/-! The registry as a family of lenses on one settings block: each entity reads and writes its own
registers, and what does not share them is left alone. -/
namespace R60V.Integration

open Python (Text roundEven)
open Footprint (LooksAt Lens)
open Overlay (blit)

/-- Something an entity shows, and the registers of the settings that it is read from. -/
structure Facet where
  decode : Decode
  registers : List Nat

structure Writer extends Facet where
  encode : Encode

def registers : List (String × List Nat) :=
  [("total_coffee_count", [0x4D, 0x4E]), ("power", [0x4A]), ("service_boiler", [0x49]),
   ("active_profile", [0x47]), ("water_feed", [0x46]), ("temperature_unit", [0x00]),
   ("language", [0x01]), ("auto_on", [0x51, 0x52]), ("auto_off", [0x53, 0x54]),
   ("profile_a", List.range' 0x16 15), ("profile_b", List.range' 0x26 15),
   ("profile_c", List.range' 0x36 15), ("brew_boiler", [0x4A]), ("steam_boiler", [0x4A, 0x49])]

def registersOf (key : String) : List Nat := (registers.lookup key).getD []

def EntityDescription.facet (e : EntityDescription) : Facet := ⟨e.decode, registersOf e.key⟩

def EntityDescription.writer (e : EntityDescription) : Option Writer :=
  e.encode.map fun encode => ⟨e.facet, encode⟩

def TimerSwitchDescription.facet (sw : TimerSwitchDescription) : Facet :=
  ⟨fun s => some (showTime (sw.timerTime s)), [sw.hourAddress, sw.minuteAddress]⟩

/-- `encode_timer` at the description's address. -/
def TimerSwitchDescription.encode (sw : TimerSwitchDescription) : Encode
  | .timer t =>
    match encodeTimer sw.hourAddress (t.map TimeOfDay.toClockTime) with
    | .write _ data => .ok (sw.hourAddress, data)
    | .read _ _ => .error .otherType
  | _ => .error .otherType

def TimerSwitchDescription.writer (sw : TimerSwitchDescription) : Writer := ⟨sw.facet, sw.encode⟩

namespace ClimateDescription

def target (c : ClimateDescription) : Facet :=
  ⟨fun s => some (.number (c.targetC s)), [c.setpointAddress]⟩

def facets (c : ClimateDescription) : List Facet :=
  [c.target, ⟨fun s => some (.bool (c.isOn s)), registersOf c.key⟩,
    ⟨fun s => (c.currentC s).map .number, []⟩]

def writer (c : ClimateDescription) : Writer := ⟨c.target, c.encodeSetpoint⟩

end ClimateDescription

/-- Everything that the registry shows. -/
def facets : List Facet :=
  entities.map EntityDescription.facet ++ timerSwitches.map TimerSwitchDescription.facet ++
    climateEntities.flatMap ClimateDescription.facets

/-- Everything that it writes: the writable entities, the timer switches and the setpoints. -/
def writers : List Writer :=
  entities.filterMap EntityDescription.writer ++
    timerSwitches.map TimerSwitchDescription.writer ++ climateEntities.map ClimateDescription.writer

/-- What an entity shows after a value has been written: times without seconds, setpoints rounded,
profiles in their canonical spelling, a disabled timer as `None`. -/
def canonical : Command → Native
  | .bool on => .bool on
  | .option label => .text label
  | .time t => .time t.toClockTime.sharp
  | .profile line => .text (canonicalProfile line)
  | .timer t => showTime (t.map TimeOfDay.toClockTime)
  | .celsius (.finite x) => .number (roundEven x)
  | .celsius _ => .missing

/-- The snapshot after a write to the settings. -/
def StateSnapshot.stored (s : StateSnapshot Int) (a : Nat) (ds : List Int) : StateSnapshot Int :=
  { s with settings := blit a ds s.settings }

/-- The facet on the blocks that could be the settings of a snapshot. -/
def Facet.view (f : Facet) (s : StateSnapshot Int) (xs : List Int) : Option Native :=
  f.decode { s with settings := xs }

def Writer.lens (w : Writer) (s : StateSnapshot Int) : Lens Int Command (Option Native) where
  positions := w.registers
  decode := w.view s
  encode := fun v => (w.encode v).toOption
  canonical := fun v => some (canonical v)

/- What the decoders look at. -/

def Facet.Sees (f : Facet) : Prop := ∀ s, LooksAt (f.view s) f.registers

theorem settingsByte_congr (s : StateSnapshot Int) {xs ys : List Int} {a : Nat}
    (same : xs[a]? = ys[a]?) : StateSnapshot.settingsByte { s with settings := xs } a =
      StateSnapshot.settingsByte { s with settings := ys } a := by
  simp only [StateSnapshot.settingsByte, same]

/-- What the bytes of some registers determine. -/
theorem sees_bytes {f : Facet} (reads : ∀ s t : StateSnapshot Int, s.live = t.live →
    (∀ i ∈ f.registers, s.settingsByte i = t.settingsByte i) → f.decode s = f.decode t) :
    f.Sees :=
  fun s _ _ _ same => reads _ _ rfl fun i member => settingsByte_congr s (same i member)

theorem sees_bool (a : Nat) {regs : List Nat} (member : a ∈ regs) :
    Facet.Sees ⟨boolOnZero a, regs⟩ ∧ Facet.Sees ⟨boolOnNonzero a, regs⟩ := by
  constructor
  · refine sees_bytes fun s t _ same => ?_
    simp only [boolOnZero, same a member]
  · refine sees_bytes fun s t _ same => ?_
    simp only [boolOnNonzero, same a member]

theorem sees_enum (a : Nat) (options : List Text) {regs : List Nat} (member : a ∈ regs) :
    Facet.Sees ⟨enum a options, regs⟩ := by
  refine sees_bytes fun s t _ same => ?_
  simp only [enum, same a member]

theorem sees_time (a b : Nat) {regs : List Nat} (first : a ∈ regs) (second : b ∈ regs) :
    Facet.Sees ⟨time a b, regs⟩ := by
  refine sees_bytes fun s t _ same => ?_
  simp only [time, same a first, same b second]

theorem sees_live {decode : Decode} {regs : List Nat}
    (reads : ∀ s xs, decode { s with settings := xs } = decode s) : Facet.Sees ⟨decode, regs⟩ := by
  intro s xs ys _ _
  simp only [Facet.view, reads]

theorem settingsBlock_congr (s : StateSnapshot Int) {xs ys : List Int} {a n : Nat}
    (same : ∀ i ∈ List.range' a n, xs[i]? = ys[i]?) :
    StateSnapshot.settingsBlock { s with settings := xs } a n =
      StateSnapshot.settingsBlock { s with settings := ys } a n := by
  refine List.map_congr_left fun i member => settingsByte_congr s (same _ ?_)
  have := List.mem_range.mp member
  exact List.mem_range'_1.mpr ⟨by omega, by omega⟩

theorem sees_profile (key name : String) (address : Nat)
    (regs : registersOf key = List.range' address 15) :
    (EntityDescription.profile key name address).facet.Sees := by
  intro s xs ys _ same
  rw [EntityDescription.facet, EntityDescription.profile, regs] at same
  simp only [Facet.view, EntityDescription.facet, EntityDescription.profile, decodeProfileAt,
    profileLen, settingsBlock_congr s same]

theorem sees_coffee : EntityDescription.totalCoffeeCount.facet.Sees := by
  intro s xs ys _ same
  have low := same 0x4D (by decide)
  have high := same 0x4E (by decide)
  simp only [Facet.view, EntityDescription.facet, EntityDescription.totalCoffeeCount, le16,
    Address.totalCoffeeCount, low, high]

theorem entities_see : ∀ e ∈ entities, e.facet.Sees := by
  simp only [entities, List.forall_mem_cons]
  exact ⟨sees_live fun _ _ => rfl, sees_live fun _ _ => rfl, sees_coffee,
    (sees_bool Address.standby (by decide)).1,
    (sees_bool Address.serviceBoilerEnable (by decide)).2,
    sees_enum Address.activeProfile _ (by decide), sees_enum Address.waterFeed _ (by decide),
    sees_enum Address.temperatureUnit _ (by decide), sees_enum Address.language _ (by decide),
    sees_time Address.autoOnHour Address.autoOnMinute (by decide) (by decide),
    sees_time Address.autoOffHour Address.autoOffMinute (by decide) (by decide),
    sees_profile _ _ _ rfl, sees_profile _ _ _ rfl, sees_profile _ _ _ rfl, by simp⟩

theorem timerSwitch_sees (sw : TimerSwitchDescription) : sw.facet.Sees := by
  refine sees_bytes fun s t _ same => ?_
  have hour := same sw.hourAddress (by simp [TimerSwitchDescription.facet])
  have minute := same sw.minuteAddress (by simp [TimerSwitchDescription.facet])
  simp only [TimerSwitchDescription.facet, TimerSwitchDescription.timerTime, hour, minute]

theorem target_sees (c : ClimateDescription) : c.target.Sees := by
  refine sees_bytes fun s t _ same => ?_
  have setpoint := same c.setpointAddress (by simp [ClimateDescription.target])
  simp only [ClimateDescription.target, ClimateDescription.targetC, setpoint]

theorem climates_see : ∀ c ∈ climateEntities, ∀ f ∈ c.facets, f.Sees := by
  have brew : Facet.Sees ⟨fun s => some (.bool (ClimateDescription.brewBoiler.isOn s)),
      registersOf "brew_boiler"⟩ := by
    refine sees_bytes fun s t _ same => ?_
    simp only [ClimateDescription.brewBoiler, same Address.standby (by decide)]
  have steam : Facet.Sees ⟨fun s => some (.bool (ClimateDescription.steamBoiler.isOn s)),
      registersOf "steam_boiler"⟩ := by
    refine sees_bytes fun s t _ same => ?_
    simp only [ClimateDescription.steamBoiler, same Address.standby (by decide),
      same Address.serviceBoilerEnable (by decide)]
  have current : ∀ c : ClimateDescription,
      Facet.Sees ⟨fun s => (c.currentC s).map .number, []⟩ := fun c => sees_live fun _ _ => rfl
  intro c listed f among
  simp only [ClimateDescription.facets, List.mem_cons, List.not_mem_nil, or_false] at among
  simp only [climateEntities, List.mem_cons, List.not_mem_nil, or_false] at listed
  rcases among with rfl | rfl | rfl
  · exact target_sees c
  · rcases listed with rfl | rfl
    · exact brew
    · exact steam
  · exact current c

theorem facets_see : ∀ f ∈ facets, f.Sees := by
  intro f member
  simp only [facets, List.mem_append, List.mem_map, List.mem_flatMap] at member
  obtain (⟨e, listed, rfl⟩ | ⟨sw, -, rfl⟩) | ⟨c, listed, among⟩ := member
  · exact entities_see e listed
  · exact timerSwitch_sees sw
  · exact climates_see c listed f among

/- What the encoders write. -/

/-- A write lies in the block and in the writer's registers, in bytes, and decodes to the value. -/
structure Writer.Writes (w : Writer) (v : Command) (a : Nat) (ds : List Int) : Prop where
  fits : a + ds.length ≤ Protocol.settingsLen
  bytes : ∀ b ∈ ds, 0 ≤ b ∧ b ≤ 255
  own : ∀ k < ds.length, a + k ∈ w.registers
  returns : ∀ s : StateSnapshot Int, s.settings.length = Protocol.settingsLen →
    w.decode (s.stored a ds) = some (canonical v)

def Writer.Sound (w : Writer) : Prop := ∀ v a ds, w.encode v = .ok (a, ds) → w.Writes v a ds

theorem settingsByte_stored (s : StateSnapshot Int) {a : Nat} {ds : List Int}
    (fits : a + ds.length ≤ s.settings.length) (bytes : ∀ b ∈ ds, 0 ≤ b ∧ b ≤ 255) {k : Nat}
    {d : Int} (value : ds[k]? = some d) : (s.stored a ds).settingsByte (a + k) = d := by
  have here := (List.getElem?_eq_some_iff.mp value).1
  have byte := bytes d (List.mem_of_getElem? value)
  have hit : (blit a ds s.settings)[a + k]? = some d := (Overlay.blit_hit fits here).trans value
  rw [StateSnapshot.settingsByte, StateSnapshot.stored, hit, Option.getD_some]
  omega

/-- One byte, at an address of the block. -/
theorem writes_byte {w : Writer} {v : Command} {a : Nat} {b : Int} (fits : a < Protocol.settingsLen)
    (byte : 0 ≤ b ∧ b ≤ 255) (own : a ∈ w.registers)
    (reads : ∀ s : StateSnapshot Int, s.settingsByte a = b → w.decode s = some (canonical v)) :
    w.Writes v a [b] where
  fits := fits
  bytes := by simpa using byte
  own := fun k here => by
    obtain rfl : k = 0 := by simpa using here
    exact own
  returns := fun s full =>
    reads _ (settingsByte_stored s (k := 0) (by rw [full]; exact fits) (by simpa using byte) rfl)

theorem sound_bool {decode : Decode} {regs : List Nat} {a : Nat} {onValue offValue : Int}
    (fits : a < Protocol.settingsLen) (own : a ∈ regs) (onByte : 0 ≤ onValue ∧ onValue ≤ 255)
    (offByte : 0 ≤ offValue ∧ offValue ≤ 255)
    (on : ∀ s, s.settingsByte a = onValue → decode s = some (.bool true))
    (off : ∀ s, s.settingsByte a = offValue → decode s = some (.bool false)) :
    Writer.Sound ⟨⟨decode, regs⟩, encodeBool a onValue offValue⟩ := by
  intro v address ds encoded
  cases v with
  | bool value =>
    cases encoded
    cases value with
    | true => exact writes_byte fits onByte own on
    | false => exact writes_byte fits offByte own off
  | option _ | time _ | profile _ | timer _ | celsius _ => cases encoded

theorem sound_enum {regs : List Nat} {a : Nat} {options : List Text}
    (fits : a < Protocol.settingsLen) (own : a ∈ regs) (few : options.length ≤ 256) :
    Writer.Sound ⟨⟨enum a options, regs⟩, encodeEnum a options⟩ := by
  intro v address ds encoded
  cases v with
  | option label =>
    simp only [encodeEnum] at encoded
    split at encoded
    · rename_i i found
      cases encoded
      obtain ⟨inside, same, -⟩ := List.findIdx?_eq_some_iff_getElem.mp found
      have label_ : options[i]? = some label := by
        rw [List.getElem?_eq_getElem inside, eq_of_beq same]
      refine writes_byte fits ⟨by omega, by omega⟩ own fun s byte => ?_
      simp only [enum, byte, Int.toNat_natCast, label_, canonical]
    · cases encoded
  | bool _ | time _ | profile _ | timer _ | celsius _ => cases encoded

theorem sound_setpoint {c : ClimateDescription} (fits : c.setpointAddress < Protocol.settingsLen)
    (range : 0 ≤ c.rangeC.1 ∧ c.rangeC.2 ≤ 255) : c.writer.Sound := by
  intro v address ds encoded
  cases v with
  | celsius x =>
    cases x with
    | nan | inf _ => cases encoded
    | finite x =>
      simp only [ClimateDescription.writer, ClimateDescription.encodeSetpoint] at encoded
      split at encoded
      · rename_i inside
        cases encoded
        refine writes_byte fits ⟨by omega, by omega⟩ (List.mem_singleton_self _) fun s byte => ?_
        exact congrArg (fun n => some (Native.number n)) byte
      · cases encoded
  | bool _ | option _ | time _ | profile _ | timer _ => cases encoded

/-- An hour and the minute after it. -/
theorem writes_clock {w : Writer} {v : Command} {a : Nat} {hour minute : Int}
    (fits : a + 2 ≤ Protocol.settingsLen) (hours : 0 ≤ hour ∧ hour ≤ 255)
    (minutes : 0 ≤ minute ∧ minute ≤ 255) (own : a ∈ w.registers ∧ a + 1 ∈ w.registers)
    (reads : ∀ s : StateSnapshot Int, s.settingsByte a = hour → s.settingsByte (a + 1) = minute →
      w.decode s = some (canonical v)) : w.Writes v a [hour, minute] := by
  have bytes : ∀ b ∈ [hour, minute], 0 ≤ b ∧ b ≤ 255 := by simp [hours, minutes]
  refine ⟨fits, bytes, fun k here => ?_, fun s full => ?_⟩
  · have two : k = 0 ∨ k = 1 := by
      simp only [List.length_cons, List.length_nil] at here
      omega
    rcases two with rfl | rfl
    · exact own.1
    · exact own.2
  · have inside : a + [hour, minute].length ≤ s.settings.length := by rw [full]; exact fits
    exact reads _ (settingsByte_stored s inside bytes (k := 0) rfl)
      (settingsByte_stored s inside bytes (k := 1) rfl)

theorem clock_bytes (t : ClockTime) :
    (0 ≤ (t.hour.val : Int) ∧ (t.hour.val : Int) ≤ 255) ∧
      0 ≤ (t.minute.val : Int) ∧ (t.minute.val : Int) ≤ 255 := by
  have := t.hour.isLt
  have := t.minute.isLt
  omega

theorem sound_time {regs : List Nat} {a : Nat} (fits : a + 2 ≤ Protocol.settingsLen)
    (own : a ∈ regs ∧ a + 1 ∈ regs) :
    Writer.Sound ⟨⟨time a (a + 1), regs⟩, encodeTime a⟩ := by
  intro v address ds encoded
  cases v with
  | time t =>
    cases encoded
    have bytes := clock_bytes t.toClockTime
    refine writes_clock fits bytes.1 bytes.2 own fun s hour minute => ?_
    simp only [time, hour, minute, clockTime_val, showTime, canonical]
  | bool _ | option _ | profile _ | timer _ | celsius _ => cases encoded

theorem sound_timer {sw : TimerSwitchDescription}
    (fits : sw.hourAddress + 2 ≤ Protocol.settingsLen)
    (next : sw.minuteAddress = sw.hourAddress + 1) : sw.writer.Sound := by
  intro v address ds encoded
  have own : sw.hourAddress ∈ sw.facet.registers ∧ sw.hourAddress + 1 ∈ sw.facet.registers := by
    simp [TimerSwitchDescription.facet, next]
  cases v with
  | timer t =>
    cases t with
    | none =>
      cases encoded
      refine writes_clock fits (by decide) (by decide) own fun s hour minute => ?_
      simp only [TimerSwitchDescription.writer, TimerSwitchDescription.facet,
        TimerSwitchDescription.timerTime, next, hour, minute, canonical]
      rfl
    | some t =>
      cases encoded
      have bytes := clock_bytes t.toClockTime
      refine writes_clock fits bytes.1 bytes.2 own fun s hour minute => ?_
      simp only [TimerSwitchDescription.writer, TimerSwitchDescription.facet,
        TimerSwitchDescription.timerTime, next, hour, minute, clockTime_val, canonical,
        Option.map_some]
  | bool _ | option _ | time _ | profile _ | celsius _ => cases encoded

theorem settingsBlock_stored (s : StateSnapshot Int) {a : Nat} {ds : List Int}
    (fits : a + ds.length ≤ s.settings.length) (bytes : ∀ b ∈ ds, 0 ≤ b ∧ b ≤ 255) :
    (s.stored a ds).settingsBlock a ds.length = ds := by
  refine List.ext_getElem? fun k => ?_
  by_cases here : k < ds.length
  · rw [StateSnapshot.settingsBlock, List.getElem?_map, List.getElem?_range here, Option.map_some,
      settingsByte_stored s fits bytes (List.getElem?_eq_getElem here),
      List.getElem?_eq_getElem here]
  · rw [List.getElem?_eq_none (by simpa [StateSnapshot.settingsBlock] using here),
      List.getElem?_eq_none (by omega)]

theorem sound_profile {regs : List Nat} {a : Nat} (fits : a + profileLen ≤ Protocol.settingsLen)
    (own : ∀ k < profileLen, a + k ∈ regs) :
    Writer.Sound ⟨⟨decodeProfileAt a, regs⟩, encodeProfileAt a⟩ := by
  intro v address ds encoded
  cases v with
  | profile line =>
    simp only [encodeProfileAt] at encoded
    split at encoded
    · rename_i block coded
      cases encoded
      obtain ⟨length, bytes, decoded⟩ := decodeProfile_encoded coded
      refine ⟨by rw [length]; exact fits, bytes, fun k here => own k (length ▸ here), ?_⟩
      intro s full
      have inside : a + ds.length ≤ s.settings.length := by
        rw [full, length]
        exact fits
      have stored := settingsBlock_stored s inside bytes
      rw [length] at stored
      simp only [decodeProfileAt, stored, decoded, Option.map_some, canonical]
    · cases encoded
  | bool _ | option _ | time _ | timer _ | celsius _ => cases encoded

theorem sound_switches :
    Writer.Sound ⟨EntityDescription.power.facet, encodeBool Address.standby 0 1⟩ ∧
    Writer.Sound ⟨EntityDescription.serviceBoiler.facet,
      encodeBool Address.serviceBoilerEnable 1 0⟩ := by
  constructor
  · refine sound_bool (by decide) (by decide) (by decide) (by decide) ?_ ?_
    · intro s byte
      simp [EntityDescription.power, boolOnZero, byte]
    · intro s byte
      simp [EntityDescription.power, boolOnZero, byte]
  · refine sound_bool (by decide) (by decide) (by decide) (by decide) ?_ ?_
    · intro s byte
      simp [EntityDescription.serviceBoiler, boolOnNonzero, byte]
    · intro s byte
      simp [EntityDescription.serviceBoiler, boolOnNonzero, byte]

theorem entities_sound : ∀ e ∈ entities, ∀ w, e.writer = some w → w.Sound := by
  have none_ : ∀ e : EntityDescription, e.encode = none → ∀ w, e.writer = some w → w.Sound := by
    intro e readOnly w writer
    simp [EntityDescription.writer, readOnly] at writer
  have one : ∀ (e : EntityDescription) (encode : Encode), e.encode = some encode →
      Writer.Sound ⟨e.facet, encode⟩ → ∀ w, e.writer = some w → w.Sound := by
    intro e encode writable sound w writer
    rw [EntityDescription.writer, writable, Option.map_some] at writer
    exact Option.some.inj writer ▸ sound
  simp only [entities, List.forall_mem_cons]
  exact ⟨none_ _ rfl, none_ _ rfl, none_ _ rfl, one _ _ rfl sound_switches.1,
    one _ _ rfl sound_switches.2,
    one _ _ rfl (sound_enum (by decide) (by decide) (by decide)),
    one _ _ rfl (sound_enum (by decide) (by decide) (by decide)),
    one _ _ rfl (sound_enum (by decide) (by decide) (by decide)),
    one _ _ rfl (sound_enum (by decide) (by decide) (by decide)),
    one _ _ rfl (sound_time (a := Address.autoOnHour) (by decide) (by decide)),
    one _ _ rfl (sound_time (a := Address.autoOffHour) (by decide) (by decide)),
    one _ _ rfl (sound_profile (by decide) (by decide)),
    one _ _ rfl (sound_profile (by decide) (by decide)),
    one _ _ rfl (sound_profile (by decide) (by decide)), by simp⟩

theorem writers_sound : ∀ w ∈ writers, w.Sound := by
  intro w member
  simp only [writers, List.mem_append, List.mem_filterMap, List.mem_map] at member
  obtain (⟨e, listed, writer⟩ | ⟨sw, listed, rfl⟩) | ⟨c, listed, rfl⟩ := member
  · exact entities_sound e listed w writer
  · simp only [timerSwitches, List.mem_cons, List.not_mem_nil, or_false] at listed
    rcases listed with rfl | rfl <;> exact sound_timer (by decide) rfl
  · simp only [climateEntities, List.mem_cons, List.not_mem_nil, or_false] at listed
    rcases listed with rfl | rfl <;> exact sound_setpoint (by decide) (by decide)

theorem writers_see : ∀ w ∈ writers, w.toFacet.Sees := by
  intro w member
  simp only [writers, List.mem_append, List.mem_filterMap, List.mem_map] at member
  obtain (⟨e, listed, writer⟩ | ⟨sw, -, rfl⟩) | ⟨c, -, rfl⟩ := member
  · obtain ⟨encode, -, rfl⟩ := Option.map_eq_some_iff.mp writer
    exact entities_see e listed
  · exact timerSwitch_sees sw
  · exact target_sees c

/-- Every writer of the registry is a lawful lens, around any snapshot. -/
theorem writers_lawful {w : Writer} (listed : w ∈ writers) (s : StateSnapshot Int) :
    (w.lens s).Lawful Protocol.settingsLen fun b => 0 ≤ b ∧ b ≤ 255 := by
  have sound : ∀ {v a ds}, (w.lens s).encode v = some (a, ds) → w.Writes v a ds := by
    intro v a ds written
    apply writers_sound w listed v a ds
    cases encoded : w.encode v with
    | error e => simp [Writer.lens, encoded, Except.toOption] at written
    | ok r => simp_all [Writer.lens, Except.toOption]
  refine ⟨writers_see w listed s, fun written => ⟨(sound written).fits, (sound written).bytes⟩,
    fun written => (sound written).own, fun written xs full => ?_⟩
  exact (sound written).returns { s with settings := xs } full

/-- The registry is a family of independent lenses: what an encoder accepts is a write inside the
block, in bytes, which the entity's own decoder reads back in canonical form, and which changes
nothing that the registry shows from other registers. -/
theorem registry_lenses (s : StateSnapshot Int) (full : s.settings.length = Protocol.settingsLen)
    {w : Writer} (listed : w ∈ writers) {v : Command} {a : Nat} {ds : List Int}
    (encoded : w.encode v = .ok (a, ds)) :
    a + ds.length ≤ Protocol.settingsLen ∧ (∀ b ∈ ds, 0 ≤ b ∧ b ≤ 255) ∧
    w.decode (s.stored a ds) = some (canonical v) ∧
    ∀ f ∈ facets, (∀ i ∈ w.registers, i ∉ f.registers) →
      f.decode (s.stored a ds) = f.decode s := by
  have lawful := writers_lawful listed s
  have written : (w.lens s).encode v = some (a, ds) := by
    simp [Writer.lens, encoded, Except.toOption]
  obtain ⟨fits, bytes⟩ := lawful.inside written
  refine ⟨fits, bytes, lawful.returns written s.settings full, fun f shown disjoint => ?_⟩
  exact lawful.apart (facets_see f shown s) disjoint written s.settings

theorem registry_lenses_standby :
    let blank : StateSnapshot Int := StateSnapshot.unavailable
    let standby := blank.stored Address.standby [1]
    Address.standby + 1 ≤ Protocol.settingsLen ∧ (∀ b ∈ [(1 : Int)], 0 ≤ b ∧ b ≤ 255) ∧
    EntityDescription.power.decode standby = some (.bool false) ∧
    ∀ f ∈ facets, (∀ i ∈ [Address.standby], i ∉ f.registers) →
      f.decode standby = f.decode blank := by
  refine registry_lenses _ List.length_replicate
    (w := ⟨EntityDescription.power.facet, encodeBool Address.standby 0 1⟩) ?_ (v := .bool false) rfl
  exact List.mem_append_left _ (List.mem_append_left _ List.mem_cons_self)

end R60V.Integration
