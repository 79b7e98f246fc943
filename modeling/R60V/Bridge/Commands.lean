import R60V.Bridge.Segments
import R60V.Lib.Runs

/-! The two command channels: which writes a command can cause, and what an MQTT message can
do to the command loop. MQTT payloads go through the range-checked encoders of the
registry; a WebSocket frame names its own address and bytes. -/
namespace R60V

open Protocol (brewTempRangeC serviceTempRangeC)
open Runs (Run Move feed)

def SafeWrite (address : Int) (data : List Int) : Prop :=
  (∀ v, Overlay.cover address data Address.brewBoilerTemp = some v →
    brewTempRangeC.1 ≤ v ∧ v ≤ brewTempRangeC.2) ∧
  ∀ v, Overlay.cover address data Address.serviceBoilerTemp = some v →
    serviceTempRangeC.1 ≤ v ∧ v ≤ serviceTempRangeC.2

theorem SafeWrite.of_apart {address : Nat} {a : Int} {data : List Int} (at_ : a = address)
    (apart : address + data.length ≤ 2 ∨ 4 ≤ address) : SafeWrite a data := by
  subst at_
  constructor
  · intro v covers
    have bounds := Overlay.cover_eq_some covers
    simp only [Address.brewBoilerTemp] at bounds
    omega
  · intro v covers
    have bounds := Overlay.cover_eq_some covers
    simp only [Address.serviceBoilerTemp] at bounds
    omega

theorem entity_safe {e : Entity} (member : e ∈ entities) {encode : Encode}
    (writes : e.encode = some encode) {payload : Python.Text} {a : Int} {data : List Int}
    (h : encode payload = .ok (a, data)) : SafeWrite a data := by
  have of_bool : ∀ {address : Nat} {on off : Int},
      encodeBool address on off payload = .ok (a, data) → 4 ≤ address → SafeWrite a data :=
    fun h far => .of_apart (encodeBool_ok h).1 (Or.inr far)
  have of_enum : ∀ {address : Nat} {options : List Python.Text},
      encodeEnum address options payload = .ok (a, data) →
        address + 1 ≤ 2 ∨ 4 ≤ address → SafeWrite a data :=
    fun h apart => .of_apart (encodeEnum_ok h).1 ((encodeEnum_ok h).2 ▸ apart)
  have of_time : ∀ {hour : Nat}, encodeTime hour payload = .ok (a, data) → 4 ≤ hour →
      SafeWrite a data :=
    fun h far => .of_apart (encodeTime_ok h).1 (Or.inr far)
  simp only [entities, List.mem_cons, List.not_mem_nil, or_false] at member
  rcases member with rfl | rfl | rfl | rfl | rfl | rfl | rfl | rfl | rfl | rfl | rfl
  · cases writes
  · cases writes
  · cases writes
  · cases writes; exact of_bool h (by decide)
  · cases writes; exact of_bool h (by decide)
  · cases writes; exact of_enum h (by decide)
  · cases writes; exact of_enum h (by decide)
  · cases writes; exact of_enum h (by decide)
  · cases writes; exact of_enum h (by decide)
  · cases writes; exact of_time h (by decide)
  · cases writes; exact of_time h (by decide)

theorem climate_safe {c : ClimateEntity} (member : c ∈ climateEntities) {payload : Python.Text}
    {a : Int} {data : List Int} (h : c.encodeTarget payload = .ok (a, data)) :
    SafeWrite a data := by
  simp only [climateEntities, List.mem_cons, List.not_mem_nil, or_false] at member
  rcases member with rfl | rfl
  · obtain ⟨rfl, value, rfl, low, high⟩ := encodeRanged_ok h
    refine ⟨fun v covers => ?_, fun v covers => ?_⟩
    · obtain rfl : value = v := by simpa [Overlay.cover] using covers
      exact ⟨low, high⟩
    · simp [Overlay.cover, Address.brewBoilerTemp, Address.serviceBoilerTemp] at covers
  · obtain ⟨rfl, value, rfl, low, high⟩ := encodeRanged_ok h
    refine ⟨fun v covers => ?_, fun v covers => ?_⟩
    · simp [Overlay.cover, Address.brewBoilerTemp, Address.serviceBoilerTemp] at covers
    · obtain rfl : value = v := by simpa [Overlay.cover] using covers
      exact ⟨low, high⟩

theorem encoderOf_cases {key : String} {encode : Encode} (h : encoderOf key = some encode) :
    (∃ e ∈ entities, e.encode = some encode) ∨
      ∃ c ∈ climateEntities, climateByKey key = some c ∧ c.encodeTarget = encode := by
  unfold encoderOf at h
  split at h
  · rename_i found
    cases h
    obtain ⟨e, at_, writes⟩ := Option.bind_eq_some_iff.mp found
    exact Or.inl ⟨e, List.mem_of_find?_eq_some at_, writes⟩
  · obtain ⟨c, at_, writes⟩ := Option.map_eq_some_iff.mp h
    exact Or.inr ⟨c, List.mem_of_find?_eq_some at_, at_, writes⟩

theorem encodeCommand_safe {c : MqttCommand} {a : Int} {data : List Int}
    (h : encodeCommand c = some (.ok (a, data))) : SafeWrite a data := by
  obtain ⟨encode, encoder, encoded⟩ := Option.map_eq_some_iff.mp h
  rcases encoderOf_cases encoder with ⟨e, member, writes⟩ | ⟨t, member, _, rfl⟩
  · exact entity_safe member writes encoded
  · exact climate_safe member encoded

inductive UserCommand where
  | mqtt (c : MqttCommand)
  | ws (frame : WsFrame)

def UserCommand.causes : UserCommand → Source → Prop
  | .mqtt c, source => source = .command c
  | .ws frame, source => ∃ i, validate frame = some i ∧ source = .intent i

namespace Broker

variable {cfg : BrokerConfig} {b b' : Broker} {e : Event} {effects : List Effect}

/-- Every write that a command causes, in any run of any broker, is safe. -/
def KeepsSetpointsSafe (command : UserCommand) : Prop :=
  ∀ (cfg : BrokerConfig) (ms : List (Move Broker Event Effect)) (s : Broker),
    Run (step cfg) (start cfg) ms s → ∀ m ∈ ms, ∀ source address data,
      command.causes source → .submit source (.write address data) ∈ m.emits →
        SafeWrite address data

theorem admitted_submitted {frame : WsFrame} {i : Intent} (admitted : validate frame = some i) :
    ∃ ms s, Run (step pushConfig) (start pushConfig) ms s ∧
      ∃ m ∈ ms, .submit (.intent i) (.write i.address i.data) ∈ m.emits := by
  let reflected := (start pushConfig).device.store.applyOptimistic i.address i.data
  let accepted : Broker := { start pushConfig with
    device.store := reflected.2
    intents := ⟨[i], none⟩ }
  have received : step pushConfig (start pushConfig) (.wsCommand frame) =
      some (accepted, [.accepted i reflected.1, .broadcast reflected.2.rawSnapshot]) := by
    simp only [step, act, IntentLoop.onWsCommand, admitted]
    rfl
  have taken : step pushConfig accepted (.intent .take) =
      some ({ accepted with intents := ⟨[], some (i, .writing 0)⟩ },
        [.submit (.intent i) (.write i.address i.data)]) := rfl
  exact ⟨_, _, (Run.nil.snoc received).snoc taken, _,
    List.mem_append_right _ (List.mem_singleton_self _), List.mem_singleton_self _⟩

/-- **Boiler setpoints stay in their safe ranges** on the MQTT channel; on the push channel they do
exactly for the frames that are not admitted or already have safe bytes there. -/
theorem setpoints_safe_iff (command : UserCommand) :
    KeepsSetpointsSafe command ↔
      match command with
      | .mqtt _ => True
      | .ws frame => ∀ i, validate frame = some i → SafeWrite i.address i.data := by
  cases command with
  | mqtt c =>
    constructor
    · exact fun _ => trivial
    intro _ cfg ms s run m member source address data causes submitted
    obtain rfl : source = .command c := causes
    rcases step_justified (run.move_step member) submitted with read | ⟨_, _, encoded, same⟩
    · cases read
    · cases same
      exact encodeCommand_safe encoded
  | ws frame =>
    constructor
    · intro safe i admitted
      obtain ⟨ms, s, run, m, member, submitted⟩ := admitted_submitted admitted
      exact safe pushConfig ms s run m member _ _ _ ⟨i, admitted, rfl⟩ submitted
    · rintro safe cfg ms s run m member source address data ⟨i, admitted, rfl⟩ submitted
      rcases step_justified (run.move_step member) submitted with read | same
      · cases read
      · cases same
        exact safe i admitted

theorem overheating_frame_written : ¬ ∀ command, KeepsSetpointsSafe command := by
  intro all
  have admitted :
      validate [("address", .int 2), ("data", .list [.int 200])] = some ⟨2, [200]⟩ := rfl
  obtain ⟨ms, s, run, m, member, submitted⟩ := admitted_submitted admitted
  have hot := (all (.ws _) pushConfig ms s run m member _ _ _ ⟨_, admitted, rfl⟩ submitted).1 200
    rfl
  exact absurd hot.2 (by decide)

/- What an MQTT message can do to the command loop. -/

def Infinite (c : MqttCommand) : Prop :=
  (climateByKey c.key).isSome = true ∧ ∃ negative, Python.float c.payload = some (.inf negative)

theorem entity_error {e : Entity} (member : e ∈ entities) {encode : Encode}
    (writes : e.encode = some encode) {payload : Python.Text} {x : EncodeError}
    (h : encode payload = .error x) : x.isValueError = true := by
  simp only [entities, List.mem_cons, List.not_mem_nil, or_false] at member
  rcases member with rfl | rfl | rfl | rfl | rfl | rfl | rfl | rfl | rfl | rfl | rfl
  · cases writes
  · cases writes
  · cases writes
  · cases writes; cases h
  · cases writes; cases h
  · cases writes; exact encodeEnum_error h
  · cases writes; exact encodeEnum_error h
  · cases writes; exact encodeEnum_error h
  · cases writes; exact encodeEnum_error h
  · cases writes; exact encodeTime_error h
  · cases writes; exact encodeTime_error h

theorem climate_error {c : ClimateEntity} (member : c ∈ climateEntities) {payload : Python.Text} :
    (∃ x, c.encodeTarget payload = .error x ∧ x.isValueError = false) ↔
      ∃ negative, Python.float payload = some (.inf negative) := by
  have ranged : ∀ {address : Nat} {range : Int × Int},
      (∃ x, encodeRanged address range payload = .error x ∧ x.isValueError = false) ↔
        ∃ negative, Python.float payload = some (.inf negative) := by
    intro address range
    constructor
    · rintro ⟨x, failed, stray⟩
      exact (encodeRanged_error failed).mp stray
    · rintro ⟨negative, infinite⟩
      exact ⟨.infinity, by simp [encodeRanged, toInteger, infinite], rfl⟩
  simp only [climateEntities, List.mem_cons, List.not_mem_nil, or_false] at member
  rcases member with rfl | rfl
  · exact ranged
  · exact ranged

theorem climate_not_writable {key : String} {c : ClimateEntity} (h : climateByKey key = some c) :
    (entityByKey key).bind (·.encode) = none := by
  have apart : ∀ t ∈ climateEntities, entityByKey t.key = none := by decide
  unfold climateByKey at h
  have found := List.find?_some h
  simp only [beq_iff_eq] at found
  rw [← found, apart c (List.mem_of_find?_eq_some h)]
  rfl

theorem encodeCommand_stray (c : MqttCommand) :
    (∃ x, encodeCommand c = some (.error x) ∧ x.isValueError = false) ↔ Infinite c := by
  constructor
  · rintro ⟨x, failed, stray⟩
    obtain ⟨encode, encoder, refused⟩ := Option.map_eq_some_iff.mp failed
    rcases encoderOf_cases encoder with ⟨e, member, writes⟩ | ⟨t, member, at_, rfl⟩
    · rw [entity_error member writes refused] at stray
      cases stray
    · exact ⟨by rw [at_]; rfl, (climate_error member).mp ⟨x, refused, stray⟩⟩
  · rintro ⟨thermostat, infinite⟩
    obtain ⟨t, at_⟩ := Option.isSome_iff_exists.mp thermostat
    obtain ⟨x, refused, stray⟩ :=
      (climate_error (List.mem_of_find?_eq_some at_)).mpr infinite
    refine ⟨x, ?_, stray⟩
    simp [encodeCommand, encoderOf, climate_not_writable at_, at_, refused]

/-- A message of which nothing can escape `_apply_command`: its payload is no infinity for a
thermostat, and the governor raises connection errors only. -/
def Harmless (b : Broker) : Event → Prop
  | .command .take => ∀ c rest, b.commands.queue = c :: rest → ¬ Infinite c
  | .command (.write (.error x)) | .command (.read (.error x)) => x.isConnectionError = true
  | _ => True

def WritesAsEncoded (m : Move Broker Event Effect) : Prop :=
  match m.event with
  | .command .take => ∀ c rest, m.before.commands.queue = c :: rest →
    m.emits = match encodeCommand c with
      | some (.ok (address, data)) => [.submit (.command c) (.write address data)]
      | _ => []
  | .command _ => ∀ source address data, .submit source (.write address data) ∉ m.emits
  | _ => True

theorem command_crash {now : ℚ} {store : DeviceState} {loop : CommandLoop} {e : CommandEvent}
    {r : DeviceState × CommandLoop × Option Exc × List Effect}
    (h : loop.step now store e = some r) :
    r.2.2.1 = none ↔ match e with
      | .take => ∀ c rest, loop.queue = c :: rest → ¬ Infinite c
      | .write (.error x) | .read (.error x) => x.isConnectionError = true
      | _ => True := by
  have failed : ∀ x, (loop.failed store x).2.2.1 = none ↔ x.isConnectionError = true := by
    intro x
    unfold CommandLoop.failed
    split
    · rename_i connection; simp [connection]
    · rename_i other; simp [other]
  cases CommandLoop.step_stepped h with
  | @take c rest _ queue =>
    simp only [queue, List.cons.injEq, and_imp]
    rw [show (∀ c' rest', c = c' → rest = rest' → ¬ Infinite c') ↔ ¬ Infinite c from
      ⟨fun all => all c rest rfl rfl, fun not_ _ _ eq _ => eq ▸ not_⟩, ← encodeCommand_stray]
    unfold CommandLoop.take
    cases encoded : encodeCommand c with
    | none => simp
    | some result =>
      cases result with
      | ok r => simp
      | error x => cases kind : x.isValueError <;> simp [kind]
  | wrote | readBack => simp
  | writeFailed | readFailed => exact failed _

theorem step_crash (h : step cfg b e = some (b', effects)) :
    b'.crashed = none ↔ b.Harmless e := by
  obtain ⟨running, stepped⟩ := step_stepped h
  cases stepped with
  | @command e _ _ _ _ commanded =>
    apply (command_crash commanded).trans
    cases e with
    | take => rfl
    | write result => cases result <;> rfl
    | read result => cases result <;> rfl
  | poll | intent | advance | subscribe | unsubscribe | publish | mqttMessage | wsCommand
    | frontendFrame => simp [running, Harmless]

-- Taking a command submits what it encodes to; later segments submit no write.
theorem take_writes {now : ℚ} {store : DeviceState} {loop : CommandLoop} {c : MqttCommand}
    {rest : List MqttCommand} (queue : loop.queue = c :: rest)
    {r : DeviceState × CommandLoop × Option Exc × List Effect}
    (h : loop.step now store .take = some r) :
    r.2.2.2 = match encodeCommand c with
      | some (.ok (address, data)) => [.submit (.command c) (.write address data)]
      | _ => [] := by
  cases CommandLoop.step_stepped h with
  | take _ queue' =>
    obtain ⟨rfl, rfl⟩ := List.cons.inj (queue'.symm.trans queue)
    simp only [CommandLoop.take]
    split <;> rename_i encoded <;> simp [encoded]

theorem later_writes {now : ℚ} {store : DeviceState} {loop : CommandLoop} {e : CommandEvent}
    (later : e ≠ .take) {r : DeviceState × CommandLoop × Option Exc × List Effect}
    (h : loop.step now store e = some r) (source : Source) (address : Int) (data : List Int) :
    .submit source (.write address data) ∉ r.2.2.2 := by
  have failed : ∀ x, .submit source (.write address data) ∉ (loop.failed store x).2.2.2 := by
    intro x
    unfold CommandLoop.failed
    split <;> simp
  cases CommandLoop.step_stepped h with
  | take => exact absurd rfl later
  | wrote => simp [settingsCall]
  | writeFailed | readFailed => exact failed _
  | readBack =>
    unfold publish
    split <;> simp

theorem step_writes (h : step cfg b e = some (b', effects)) :
    WritesAsEncoded ⟨b, e, effects, b'⟩ := by
  cases (step_stepped h).2 with
  | @command e _ _ _ _ commanded =>
    by_cases taken : e = .take
    · subst taken
      intro c rest queue
      exact take_writes queue commanded
    · have later := later_writes taken commanded
      cases e with
      | take => exact absurd rfl taken
      | write | read => exact later
  | poll | intent | advance | subscribe | unsubscribe | publish | mqttMessage | wsCommand
    | frontendFrame => trivial

/-- **No MQTT message stops the command loop**, all along a run, exactly when every message is
harmless; each is written as it is encoded, once, or not at all. -/
theorem command_loop_survives_iff {ms : List (Move Broker Event Effect)} {s : Broker}
    (run : Run (step cfg) (start cfg) ms s) :
    (∀ m ∈ ms, m.after.crashed = none ∧ WritesAsEncoded m) ↔
      ∀ m ∈ ms, m.before.Harmless m.event :=
  run.moves_iff (fun _ => True) (fun m => m.after.crashed = none ∧ WritesAsEncoded m)
    Harmless trivial (fun _ _ _ _ _ _ => trivial) fun _ _ _ _ _ h =>
      ⟨fun good => (step_crash h).mp good.1, fun met => ⟨(step_crash h).mpr met, step_writes h⟩⟩

theorem infinite_payload_crashes :
    ¬ ∀ (cfg : BrokerConfig) (ms : List (Move Broker Event Effect)) (s : Broker),
      Run (step cfg) (start cfg) ms s → s.crashed = none := by
  intro all
  have fed : (feed (step mqttConfig) (start mqttConfig)
      [.mqttMessage ⟨"brew_boiler", "inf".toList⟩, .command .take]).any
      (fun r => r.1.crashed == some .overflow) = true := by
    decide +kernel
  obtain ⟨ms, s, run, _, crashed⟩ := Runs.feed_reaches fed
  rw [all mqttConfig ms s run] at crashed
  cases crashed

theorem command_loop_survives_refusal :
    ∃ ms s, Run (step mqttConfig) (start mqttConfig) ms s ∧
      s.commands.current = some (⟨"power", "OFF".toList⟩, .writing) ∧
      ∀ m ∈ ms, m.after.crashed = none ∧ WritesAsEncoded m := by
  have fed : (feed (step mqttConfig) (start mqttConfig)
      [.mqttMessage ⟨"brew_boiler", "nan".toList⟩, .mqttMessage ⟨"power", "OFF".toList⟩,
        .command .take, .command .take]).any
      (fun r => r.1.commands.current == some (⟨"power", "OFF".toList⟩, .writing) &&
        r.2.all fun m => m.after.crashed == none) = true := by
    decide +kernel
  obtain ⟨ms, s, run, _, reached⟩ := Runs.feed_reaches fed
  simp only [Bool.and_eq_true, beq_iff_eq, List.all_eq_true] at reached
  exact ⟨ms, s, run, reached.1, (command_loop_survives_iff run).mpr fun m member =>
    (step_crash (run.move_step member)).mp (reached.2 m member)⟩

end Broker

end R60V
