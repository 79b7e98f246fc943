import R60V.Bridge.Broker
import R60V.Bridge.Vocabulary
import R60V.Integration.Subscription
import R60V.Lib.Patterns
import R60V.Python.Numerals

/-! MQTT Discovery: the topics of the bridge, the documents with which it tells Home Assistant what
there is, what it publishes, and where a message on one of its topics goes. -/
namespace R60V

open Integration (dictSet)
open Integration.Subscription (lookup_dictSet lookup_entry)
open Patterns (Pattern)
open Python (Text float twoDigits)

/-- `Config`, as far as topics and documents go. -/
structure MqttConfig where
  mqttBaseTopic : Text
  discoveryPrefix : Text
  deviceId : Text
  deviceName : Text

namespace MqttConfig

variable (cfg : MqttConfig)

def default : MqttConfig where
  mqttBaseTopic := "rocket-r60v".toList
  discoveryPrefix := "homeassistant".toList
  deviceId := "rocket_r60v".toList
  deviceName := "Rocket R60V".toList

def availabilityTopic : Text := cfg.mqttBaseTopic ++ "/status".toList

def stateTopic (key : String) : Text := cfg.mqttBaseTopic ++ '/' :: key.toList ++ "/state".toList

def commandTopic (key : String) : Text := cfg.mqttBaseTopic ++ '/' :: key.toList ++ "/set".toList

def discoveryTopic (component key : String) : Text :=
  cfg.discoveryPrefix ++ '/' :: component.toList ++ '/' :: cfg.deviceId ++ '/' :: key.toList ++
    "/config".toList

def uniqueId (key : String) : Text := cfg.deviceId ++ '_' :: key.toList

def climateCurrentTopic (key : String) : Text :=
  cfg.mqttBaseTopic ++ '/' :: key.toList ++ "/current".toList

def climateTargetStateTopic (key : String) : Text :=
  cfg.mqttBaseTopic ++ '/' :: key.toList ++ "/target".toList

def climateTargetCommandTopic (key : String) : Text :=
  cfg.mqttBaseTopic ++ '/' :: key.toList ++ "/target/set".toList

def climateModeTopic (key : String) : Text :=
  cfg.mqttBaseTopic ++ '/' :: key.toList ++ "/mode".toList

end MqttConfig

structure DeviceInfo where
  identifiers : List Text
  name : Text
  manufacturer : Text
  model : Text
  swVersion : Option Text

inductive DocValue where
  | text (t : Text)
  | int (n : Int)
  | texts (ts : List Text)
  | regex (p : Pattern Char)
  | device (d : DeviceInfo)

/-- A dict, in the order of its keys. -/
abbrev Document := List (String × DocValue)

namespace Document

def update (d config : Document) : Document :=
  config.foldl (fun d entry => dictSet entry.1 entry.2 d) d

def field (d : Document) (key : String) : Option DocValue := d.lookup key

end Document

def isOneOf (cs : List Char) (c : Char) : Bool := cs.contains c

/-- `([01][0-9]|2[0-3]):[0-5][0-9]`, between `^` and `$`. -/
def clockPattern : Pattern Char :=
  let digit := isOneOf ['0', '1', '2', '3', '4', '5', '6', '7', '8', '9']
  .seq (.group 1 (.alt (.word [isOneOf ['0', '1'], digit])
      (.word [isOneOf ['2'], isOneOf ['0', '1', '2', '3']])))
    (.word [isOneOf [':'], isOneOf ['0', '1', '2', '3', '4', '5'], digit])

def textField (key : String) (value : String) : String × DocValue := (key, .text value.toList)

/-- The `config` of each of `ENTITIES`. -/
def entityConfigs : List (String × Document) :=
  [("current_pressure", [textField "unit_of_measurement" "bar", textField "device_class" "pressure",
      textField "state_class" "measurement", ("suggested_display_precision", .int 1),
      textField "icon" "mdi:gauge"]),
   ("display", [textField "icon" "mdi:card-text"]),
   ("total_coffee_count", [textField "state_class" "total_increasing",
      textField "icon" "mdi:counter"]),
   ("power", [textField "icon" "mdi:power"]),
   ("service_boiler", [textField "icon" "mdi:kettle-steam"]),
   ("active_profile", [("options", .texts profileOptions),
      textField "icon" "mdi:chart-bell-curve"]),
   ("water_feed", [("options", .texts waterFeedOptions), textField "icon" "mdi:water"]),
   ("temperature_unit", [("options", .texts tempUnitOptions),
      textField "icon" "mdi:temperature-celsius"]),
   ("language", [("options", .texts languageOptions), textField "icon" "mdi:translate"]),
   ("auto_on", [("pattern", .regex clockPattern), textField "icon" "mdi:clock-start"]),
   ("auto_off", [("pattern", .regex clockPattern), textField "icon" "mdi:clock-end"])]

def Entity.config (e : Entity) : Document := (entityConfigs.lookup e.key).getD []

def climateConfigs : List (String × Document) :=
  [("brew_boiler", [textField "icon" "mdi:coffee-maker"]),
   ("steam_boiler", [textField "icon" "mdi:kettle-steam"])]

def ClimateEntity.config (c : ClimateEntity) : Document := (climateConfigs.lookup c.key).getD []

def ClimateEntity.tempStep (_ : ClimateEntity) : Int := 1

namespace MqttConfig

variable (cfg : MqttConfig)

def device (swVersion : Text) : DocValue :=
  .device ⟨[cfg.deviceId], cfg.deviceName, "Rocket Espresso".toList, "R60V".toList,
    if swVersion = [] then none else some swVersion⟩

def buildDiscoveryPayload (e : Entity) (swVersion : Text) : Document :=
  let payload : Document :=
    [textField "name" e.name, ("unique_id", .text (cfg.uniqueId e.key)),
     ("object_id", .text (cfg.deviceId ++ '_' :: e.key.toList)),
     ("state_topic", .text (cfg.stateTopic e.key)),
     ("availability_topic", .text cfg.availabilityTopic), textField "payload_available" "online",
     textField "payload_not_available" "offline", ("device", cfg.device swVersion)]
  let payload := if e.component = "switch" then
      payload.update [textField "payload_on" "ON", textField "payload_off" "OFF"]
    else payload
  let payload := if e.writable then
      payload.update [("command_topic", .text (cfg.commandTopic e.key))]
    else payload
  payload.update e.config

def buildClimateDiscoveryPayload (c : ClimateEntity) (swVersion : Text) : Document :=
  let payload : Document :=
    [textField "name" c.name, ("unique_id", .text (cfg.uniqueId c.key)),
     ("object_id", .text (cfg.deviceId ++ '_' :: c.key.toList)),
     ("availability_topic", .text cfg.availabilityTopic), textField "payload_available" "online",
     textField "payload_not_available" "offline",
     ("current_temperature_topic", .text (cfg.climateCurrentTopic c.key)),
     ("temperature_state_topic", .text (cfg.climateTargetStateTopic c.key)),
     ("temperature_command_topic", .text (cfg.climateTargetCommandTopic c.key)),
     ("mode_state_topic", .text (cfg.climateModeTopic c.key)), ("modes", .texts ["heat".toList]),
     ("min_temp", .int c.minTemp), ("max_temp", .int c.maxTemp), ("temp_step", .int c.tempStep),
     textField "temperature_unit" "C", ("device", cfg.device swVersion)]
  payload.update c.config

/-- `publish_discovery`: what goes to which topic. -/
def publishDiscovery (swVersion : Text) : List (Text × Document) :=
  entities.map (fun e => (cfg.discoveryTopic e.component e.key,
    cfg.buildDiscoveryPayload e swVersion)) ++
  climateEntities.map fun c => (cfg.discoveryTopic "climate" c.key,
    cfg.buildClimateDiscoveryPayload c swVersion)

/-- What `_on_connect` subscribes to. -/
def subscriptions : List Text :=
  (entities.filter Entity.writable).map (fun e => cfg.commandTopic e.key) ++
    climateEntities.map fun c => cfg.climateTargetCommandTopic c.key

/-- `_on_message`: the command that is passed on, `none` for one on an unmapped topic. -/
def onMessage (topic payload : Text) : Option MqttCommand :=
  match entities.find? fun e => e.writable && topic == cfg.commandTopic e.key with
  | some e => some ⟨e.key, payload⟩
  | none =>
    (climateEntities.find? fun c => topic == cfg.climateTargetCommandTopic c.key).map fun c =>
      ⟨c.key, payload⟩

end MqttConfig

/-- `str`. A float prints its tenths as long as it needs no exponent. -/
def intText (n : Int) : Text :=
  if n < 0 then '-' :: Nat.toDigits 10 n.natAbs else Nat.toDigits 10 n.natAbs

def Value.str : Value → Text
  | .int n => intText n
  | .tenths n =>
    (if n < 0 then ['-'] else []) ++ Nat.toDigits 10 (n.natAbs / 10) ++
      '.' :: Nat.toDigits 10 (n.natAbs % 10)
  | .text t => t

namespace MqttConfig

variable (cfg : MqttConfig)

def publishState (key : String) (value : Value) : List (Text × Text) :=
  [(cfg.stateTopic key, value.str)]

def publishClimate (key : String) (current target : Value) : List (Text × Text) :=
  [(cfg.climateCurrentTopic key, current.str), (cfg.climateTargetStateTopic key, target.str),
   (cfg.climateModeTopic key, "heat".toList)]

/-- What `StatePublisher.publish` publishes of a snapshot. What does not decode is left out. -/
def publications (s : StateSnapshot) : List (Text × Text) :=
  entities.flatMap (fun e => ((e.decode s).map (cfg.publishState e.key)).getD []) ++
  climateEntities.flatMap fun c =>
    match c.current s, c.target s with
    | some current, some target => cfg.publishClimate c.key current target
    | _, _ => []

end MqttConfig

/- Two uses of a topic are never confused. -/

/-- What comes before the first separator, and what comes after it. -/
theorem first_level {a b x y : Text} (plain : '/' ∉ a) (plain' : '/' ∉ b)
    (same : a ++ '/' :: x = b ++ '/' :: y) : a = b ∧ x = y := by
  induction a generalizing b with
  | nil =>
    cases b with
    | nil => exact ⟨rfl, (List.cons.inj same).2⟩
    | cons c b =>
      have first : '/' = c := (List.cons.inj same).1
      exact absurd (first ▸ List.mem_cons_self) plain'
  | cons c a ih =>
    cases b with
    | nil =>
      have first : c = '/' := (List.cons.inj same).1
      exact absurd (first ▸ List.mem_cons_self) plain
    | cons c' b =>
      obtain ⟨first, rest⟩ := List.cons.inj same
      obtain ⟨more, after⟩ := ih (List.not_mem_of_not_mem_cons plain)
        (List.not_mem_of_not_mem_cons plain') rest
      exact ⟨by rw [first, more], after⟩

theorem last_level {a b x y : Text} (plain : '/' ∉ a) (plain' : '/' ∉ b)
    (same : x ++ '/' :: a = y ++ '/' :: b) : x = y ∧ a = b := by
  have reversed := congrArg List.reverse same
  simp only [List.reverse_append, List.reverse_cons, List.append_assoc, List.singleton_append]
    at reversed
  obtain ⟨last, front⟩ := first_level (by simpa using plain) (by simpa using plain') reversed
  exact ⟨List.reverse_injective front, List.reverse_injective last⟩

/-- What there is about a key. -/
inductive Facet where
  | state | set | current | target | targetSet | mode
  deriving DecidableEq

def Facet.text : Facet → Text
  | state => "/state".toList
  | set => "/set".toList
  | current => "/current".toList
  | target => "/target".toList
  | targetSet => "/target/set".toList
  | mode => "/mode".toList

/-- What a topic is for. -/
inductive Place where
  | status
  | facet (key : String) (facet : Facet)
  | config (component key : String)
  deriving DecidableEq

namespace Place

def topic (cfg : MqttConfig) : Place → Text
  | status => cfg.availabilityTopic
  | facet key f => cfg.mqttBaseTopic ++ '/' :: key.toList ++ f.text
  | config component key => cfg.discoveryTopic component key

/-- The names in it are single levels. -/
def Plain : Place → Prop
  | status => True
  | facet key _ => '/' ∉ key.toList
  | config component key => '/' ∉ component.toList ∧ '/' ∉ key.toList

instance : DecidablePred Plain
  | status => inferInstanceAs (Decidable True)
  | facet key _ => inferInstanceAs (Decidable ('/' ∉ key.toList))
  | config component key =>
    inferInstanceAs (Decidable ('/' ∉ component.toList ∧ '/' ∉ key.toList))

theorem facet_parts (f : Facet) : ∃ rest, f.text = '/' :: rest := by
  cases f <;> exact ⟨_, rfl⟩

theorem facet_inj : ∀ f g : Facet, f.text = g.text → f = g := by
  intro f g
  cases f <;> cases g <;> decide

/-- No topic about a key or about the bridge ends as the topics of the documents do. -/
theorem facet_last (f : Facet) (stem : Text) : ∃ front last, stem ++ f.text = front ++ '/' :: last ∧
    '/' ∉ last ∧ last ≠ "config".toList := by
  cases f with
  | targetSet =>
    have parts : Facet.text .targetSet = "/target".toList ++ '/' :: "set".toList := by decide
    exact ⟨stem ++ "/target".toList, "set".toList, by rw [parts, List.append_assoc], by decide,
      by decide⟩
  | state => exact ⟨stem, "state".toList, rfl, by decide, by decide⟩
  | set => exact ⟨stem, "set".toList, rfl, by decide, by decide⟩
  | current => exact ⟨stem, "current".toList, rfl, by decide, by decide⟩
  | target => exact ⟨stem, "target".toList, rfl, by decide, by decide⟩
  | mode => exact ⟨stem, "mode".toList, rfl, by decide, by decide⟩

/-- Whatever the base topic, the prefix and the device are called. -/
theorem topic_inj (cfg : MqttConfig) {p q : Place} (plain : p.Plain) (plain' : q.Plain)
    (same : p.topic cfg = q.topic cfg) : p = q := by
  have document : ∀ component key, ∃ stem, cfg.discoveryTopic component key =
      stem ++ '/' :: "config".toList := fun component key => ⟨_, rfl⟩
  have apart : ∀ component key (f : Facet) (stem : Text),
      stem ++ f.text ≠ cfg.discoveryTopic component key := by
    intro component key f stem same
    obtain ⟨stem', ends⟩ := document component key
    obtain ⟨front, last, split_, single, other⟩ := facet_last f stem
    rw [ends, split_] at same
    exact other (last_level single (by decide) same).2
  have status_apart : ∀ component key, cfg.availabilityTopic ≠
      cfg.discoveryTopic component key := by
    intro component key same
    obtain ⟨stem, ends⟩ := document component key
    rw [ends] at same
    have ends' := (last_level (a := "status".toList) (by decide) (by decide) same).2
    exact absurd ends' (by decide)
  have status_apart' : ∀ key (f : Facet), cfg.availabilityTopic ≠
      cfg.mqttBaseTopic ++ '/' :: key ++ f.text := by
    intro key f same
    obtain ⟨rest, parts⟩ := facet_parts f
    rw [MqttConfig.availabilityTopic, List.append_assoc] at same
    have ends := List.append_cancel_left same
    have inner : '/' ∈ "status".toList := by
      have tail : "status".toList = key ++ f.text := (List.cons.inj ends).2
      rw [tail, parts]
      simp
    exact absurd inner (by decide)
  cases p with
  | status =>
    cases q with
    | status => rfl
    | facet key f => exact absurd same (status_apart' _ f)
    | config component key => exact absurd same (status_apart component key)
  | facet key f =>
    cases q with
    | status => exact absurd same.symm (status_apart' _ f)
    | facet key' f' =>
      obtain ⟨rest, parts⟩ := facet_parts f
      obtain ⟨rest', parts'⟩ := facet_parts f'
      simp only [topic, List.append_assoc] at same
      have after := (List.cons.inj (List.append_cancel_left same)).2
      rw [parts, parts'] at after
      obtain ⟨keys, rests⟩ := first_level plain plain' after
      have facets : f = f' := facet_inj f f' (by rw [parts, parts', rests])
      rw [String.toList_injective keys, facets]
    | config component key' => exact absurd same (apart component key' f _)
  | config component key =>
    cases q with
    | status => exact absurd same.symm (status_apart component key)
    | facet key' f => exact absurd same.symm (apart component key f _)
    | config component' key' =>
      simp only [topic, MqttConfig.discoveryTopic] at same
      have front := List.append_cancel_right same
      obtain ⟨front, keys⟩ := last_level plain.2 plain'.2 front
      have front := List.append_cancel_right front
      obtain ⟨-, components⟩ := last_level plain.1 plain'.1 front
      rw [String.toList_injective keys, String.toList_injective components]

end Place

/- What a document says. -/

namespace Document

theorem field_update (d config : Document) (key : String) :
    (d.update config).field key = (config.reverse.lookup key).or (d.field key) := by
  induction config generalizing d with
  | nil => rfl
  | cons e config ih =>
    rw [update, List.foldl_cons, ← update, ih, field, lookup_dictSet, List.reverse_cons,
      List.lookup_append, Option.or_assoc, lookup_entry]
    congr 1
    by_cases same : key = e.1
    · rw [if_pos same, if_pos same]
      rfl
    · rw [if_neg same, if_neg same]
      rfl

/-- Where Home Assistant sends the commands of an entity. -/
def commandTopic (d : Document) : Option DocValue :=
  (d.field "command_topic").or (d.field "temperature_command_topic")

/-- Where it reads back what it has set. -/
def stateTopic (d : Document) : Option DocValue :=
  (d.field "state_topic").or (d.field "temperature_state_topic")

end Document

namespace MqttConfig

variable (cfg : MqttConfig) (swVersion : Text)

/-- What an entity declares does not override its topics. -/
theorem config_plain : (∀ e ∈ entities, ∀ key ∈ ["unique_id", "state_topic", "command_topic",
      "temperature_command_topic", "payload_on", "payload_off"],
      (e.config.reverse.lookup key).isNone = true) ∧
    ∀ c ∈ climateEntities, ∀ key ∈ ["unique_id", "state_topic", "temperature_state_topic",
      "command_topic", "temperature_command_topic", "min_temp", "max_temp"],
      (c.config.reverse.lookup key).isNone = true := by
  decide

theorem entity_topics {e : Entity} (listed : e ∈ entities) :
    (cfg.buildDiscoveryPayload e swVersion).field "unique_id" =
      some (.text (cfg.uniqueId e.key)) ∧
    (cfg.buildDiscoveryPayload e swVersion).stateTopic = some (.text (cfg.stateTopic e.key)) ∧
    (cfg.buildDiscoveryPayload e swVersion).commandTopic =
      if e.writable then some (.text (cfg.commandTopic e.key)) else none := by
  have plain : ∀ key ∈ ["unique_id", "state_topic", "command_topic", "temperature_command_topic",
      "payload_on", "payload_off"], e.config.reverse.lookup key = none := fun key member =>
    Option.isNone_iff_eq_none.mp (config_plain.1 e listed key member)
  refine ⟨?_, ?_, ?_⟩
  · rw [buildDiscoveryPayload, Document.field_update, plain _ (by simp), Option.none_or]
    split <;> split <;> rfl
  · rw [Document.stateTopic, buildDiscoveryPayload, Document.field_update,
      plain "state_topic" (by simp), Option.none_or]
    split <;> split <;> rfl
  · rw [Document.commandTopic, buildDiscoveryPayload, Document.field_update, Document.field_update,
      plain "command_topic" (by simp), plain "temperature_command_topic" (by simp),
      Option.none_or, Option.none_or]
    split <;> split <;> rfl

theorem climate_topics {c : ClimateEntity} (listed : c ∈ climateEntities) :
    (cfg.buildClimateDiscoveryPayload c swVersion).field "unique_id" =
      some (.text (cfg.uniqueId c.key)) ∧
    (cfg.buildClimateDiscoveryPayload c swVersion).stateTopic =
      some (.text (cfg.climateTargetStateTopic c.key)) ∧
    (cfg.buildClimateDiscoveryPayload c swVersion).commandTopic =
      some (.text (cfg.climateTargetCommandTopic c.key)) := by
  have plain : ∀ key ∈ ["unique_id", "state_topic", "temperature_state_topic", "command_topic",
      "temperature_command_topic", "min_temp", "max_temp"],
      c.config.reverse.lookup key = none := fun key member =>
    Option.isNone_iff_eq_none.mp (config_plain.2 c listed key member)
  refine ⟨?_, ?_, ?_⟩
  · rw [buildClimateDiscoveryPayload, Document.field_update, plain _ (by simp), Option.none_or]
    rfl
  · rw [Document.stateTopic, buildClimateDiscoveryPayload, Document.field_update,
      Document.field_update, plain "state_topic" (by simp),
      plain "temperature_state_topic" (by simp), Option.none_or, Option.none_or]
    rfl
  · rw [Document.commandTopic, buildClimateDiscoveryPayload, Document.field_update,
      Document.field_update, plain "command_topic" (by simp),
      plain "temperature_command_topic" (by simp), Option.none_or, Option.none_or]
    rfl

/-- Every topic on which the bridge speaks. -/
def announced : List Text :=
  cfg.availabilityTopic :: entities.map (fun e => cfg.stateTopic e.key) ++
    climateEntities.flatMap (fun c => [cfg.climateCurrentTopic c.key,
      cfg.climateTargetStateTopic c.key, cfg.climateModeTopic c.key]) ++
    (cfg.publishDiscovery swVersion).map Prod.fst

/-- What the topics are for on which the bridge speaks, and on which it listens. -/
def spoken : List Place :=
  .status :: entities.map (fun e => .facet e.key .state) ++
    climateEntities.flatMap (fun c => [.facet c.key .current, .facet c.key .target,
      .facet c.key .mode]) ++
    (entities.map (fun e => .config e.component e.key) ++
      climateEntities.map fun c => .config "climate" c.key)

def listened : List Place :=
  (entities.filter Entity.writable).map (fun e => .facet e.key .set) ++
    climateEntities.map fun c => .facet c.key .targetSet

theorem announced_eq : cfg.announced swVersion = spoken.map (Place.topic cfg) := by
  simp only [announced, spoken, publishDiscovery, List.map_append, List.map_cons, List.map_map,
    List.map_flatMap, List.map_nil]
  rfl

theorem subscriptions_eq : cfg.subscriptions = listened.map (Place.topic cfg) := by
  simp only [subscriptions, listened, List.map_append, List.map_map]
  rfl

theorem places_plain : (∀ p ∈ spoken ++ listened, p.Plain) ∧ (spoken ++ listened).Nodup := by
  decide

/-- A message is for the entity whose command topic it was sent to. -/
theorem onMessage_iff (topic payload : Text) (c : MqttCommand) :
    cfg.onMessage topic payload = some c ↔ c.payload = payload ∧
      ((∃ e ∈ entities, e.writable = true ∧ topic = cfg.commandTopic e.key ∧ c.key = e.key) ∨
        ∃ t ∈ climateEntities, topic = cfg.climateTargetCommandTopic t.key ∧ c.key = t.key) := by
  have plain : ∀ p ∈ listened, p.Plain := fun p member =>
    places_plain.1 p (List.mem_append_right _ member)
  have entityPlace : ∀ e ∈ entities, e.writable = true → Place.facet e.key .set ∈ listened :=
    fun e listed writable => List.mem_append_left _
      (List.mem_map_of_mem (List.mem_filter.mpr ⟨listed, writable⟩))
  have climatePlace : ∀ t ∈ climateEntities, Place.facet t.key .targetSet ∈ listened :=
    fun t listed => List.mem_append_right _ (List.mem_map_of_mem listed)
  have one : ∀ p ∈ listened, ∀ q ∈ listened, p.topic cfg = q.topic cfg → p = q :=
    fun p listed q listed' => Place.topic_inj cfg (plain p listed) (plain q listed')
  unfold onMessage
  constructor
  · intro routed
    split at routed
    · rename_i e found
      cases routed
      have hit := List.find?_some found
      simp only [Bool.and_eq_true, beq_iff_eq] at hit
      exact ⟨rfl, Or.inl ⟨e, List.mem_of_find?_eq_some found, hit.1, hit.2, rfl⟩⟩
    · obtain ⟨t, found, rfl⟩ := Option.map_eq_some_iff.mp routed
      have hit := List.find?_some found
      exact ⟨rfl, Or.inr ⟨t, List.mem_of_find?_eq_some found, beq_iff_eq.mp hit, rfl⟩⟩
  · obtain ⟨key, _⟩ := c
    rintro ⟨rfl, ⟨e, listed, writable, rfl, rfl⟩ | ⟨t, listed, rfl, rfl⟩⟩
    · cases found : entities.find? fun e' => e'.writable &&
          cfg.commandTopic e.key == cfg.commandTopic e'.key with
      | none =>
        have missed := List.find?_eq_none.mp found e listed
        simp [writable] at missed
      | some e' =>
        have hit := List.find?_some found
        simp only [Bool.and_eq_true, beq_iff_eq] at hit
        have same := one _ (entityPlace e listed writable) _
          (entityPlace e' (List.mem_of_find?_eq_some found) hit.1) hit.2
        rw [Place.facet.injEq] at same
        rw [same.1]
    · have none_ : entities.find? (fun e' => e'.writable &&
          cfg.climateTargetCommandTopic t.key == cfg.commandTopic e'.key) = none := by
        rw [List.find?_eq_none]
        intro e' listed' hit
        simp only [Bool.and_eq_true, beq_iff_eq] at hit
        have same := one _ (climatePlace t listed) _ (entityPlace e' listed' hit.1) hit.2
        rw [Place.facet.injEq] at same
        exact absurd same.2 (by decide)
      rw [none_]
      cases found : climateEntities.find? fun t' =>
          cfg.climateTargetCommandTopic t.key == cfg.climateTargetCommandTopic t'.key with
      | none =>
        have missed := List.find?_eq_none.mp found t listed
        simp at missed
      | some t' =>
        have hit := List.find?_some found
        have same := one _ (climatePlace t listed) _
          (climatePlace t' (List.mem_of_find?_eq_some found)) (beq_iff_eq.mp hit)
        rw [Place.facet.injEq] at same
        rw [same.1]
        rfl

theorem mem_publishDiscovery {e : Entity} (listed : e ∈ entities) :
    (cfg.discoveryTopic e.component e.key, cfg.buildDiscoveryPayload e swVersion) ∈
      cfg.publishDiscovery swVersion :=
  List.mem_append_left _ (List.mem_map_of_mem listed)

/-- The documents that name a command topic, and whose they are. -/
theorem documents_iff (topic : Text) (key : String) :
    (∃ p ∈ cfg.publishDiscovery swVersion, p.2.commandTopic = some (.text topic) ∧
      p.2.field "unique_id" = some (.text (cfg.uniqueId key))) ↔
    (∃ e ∈ entities, e.writable = true ∧ topic = cfg.commandTopic e.key ∧ key = e.key) ∨
      ∃ t ∈ climateEntities, topic = cfg.climateTargetCommandTopic t.key ∧ key = t.key := by
  have keys : ∀ key' : String, cfg.uniqueId key' = cfg.uniqueId key → key = key' := by
    intro key' same
    have tail := (List.cons.inj (List.append_cancel_left same)).2
    exact (String.toList_injective tail).symm
  constructor
  · rintro ⟨p, published, at_, own⟩
    rcases List.mem_append.mp published with member | member
    · obtain ⟨e, listed, rfl⟩ := List.mem_map.mp member
      obtain ⟨id, -, command⟩ := cfg.entity_topics swVersion listed
      rw [command] at at_
      rw [id, Option.some.injEq, DocValue.text.injEq] at own
      split at at_
      · rename_i writable
        rw [Option.some.injEq, DocValue.text.injEq] at at_
        exact Or.inl ⟨e, listed, writable, at_.symm, keys e.key own⟩
      · cases at_
    · obtain ⟨t, listed, rfl⟩ := List.mem_map.mp member
      obtain ⟨id, -, command⟩ := cfg.climate_topics swVersion listed
      rw [command, Option.some.injEq, DocValue.text.injEq] at at_
      rw [id, Option.some.injEq, DocValue.text.injEq] at own
      exact Or.inr ⟨t, listed, at_.symm, keys t.key own⟩
  · rintro (⟨e, listed, writable, rfl, rfl⟩ | ⟨t, listed, rfl, rfl⟩)
    · obtain ⟨id, -, command⟩ := cfg.entity_topics swVersion listed
      rw [if_pos writable] at command
      exact ⟨_, cfg.mem_publishDiscovery swVersion listed, command, id⟩
    · obtain ⟨id, -, command⟩ := cfg.climate_topics swVersion listed
      exact ⟨_, List.mem_append_right _ (List.mem_map_of_mem listed), command, id⟩

theorem publications_announced (s : StateSnapshot) :
    ∀ p ∈ cfg.publications s, p.1 ∈ cfg.announced swVersion := by
  intro p member
  simp only [announced, List.mem_append, List.mem_cons]
  rcases List.mem_append.mp member with member | member
  · obtain ⟨e, listed, member⟩ := List.mem_flatMap.mp member
    cases shown : e.decode s with
    | none => simp [shown] at member
    | some value =>
      simp only [shown, Option.map_some, Option.getD_some, publishState,
        List.mem_singleton] at member
      subst member
      exact Or.inl (Or.inl (Or.inr (List.mem_map_of_mem listed)))
  · obtain ⟨c, listed, member⟩ := List.mem_flatMap.mp member
    refine Or.inl (Or.inr (List.mem_flatMap.mpr ⟨c, listed, ?_⟩))
    split at member
    · simp only [publishClimate, List.mem_cons, List.not_mem_nil, or_false] at member
      rcases member with rfl | rfl | rfl <;> simp
    · cases member

/-- **Messages find their way.** Whatever the base topic, the prefix and the device are called: no
two things that the bridge says or listens to share a topic, so that it never hears itself; it
listens exactly where its documents tell Home Assistant to send commands; and a message is handled
exactly where it was sent to the command topic of a document, and is for the entity whose document
that is. -/
theorem messages_routed :
    (cfg.announced swVersion ++ cfg.subscriptions).Nodup ∧
    (∀ s, ∀ p ∈ cfg.publications s, p.1 ∈ cfg.announced swVersion) ∧
    (∀ topic, topic ∈ cfg.subscriptions ↔
      ∃ p ∈ cfg.publishDiscovery swVersion, p.2.commandTopic = some (.text topic)) ∧
    ∀ topic payload c, cfg.onMessage topic payload = some c ↔ c.payload = payload ∧
      ∃ p ∈ cfg.publishDiscovery swVersion, p.2.commandTopic = some (.text topic) ∧
        p.2.field "unique_id" = some (.text (cfg.uniqueId c.key)) := by
  refine ⟨?_, cfg.publications_announced swVersion, ?_, ?_⟩
  · rw [announced_eq, subscriptions_eq, ← List.map_append]
    refine List.Nodup.map_on (fun p listed q listed' same => ?_) places_plain.2
    exact Place.topic_inj cfg (places_plain.1 p listed) (places_plain.1 q listed') same
  · intro topic
    constructor
    · intro member
      rcases List.mem_append.mp member with member | member
      · obtain ⟨e, listed, rfl⟩ := List.mem_map.mp member
        obtain ⟨listed, writable⟩ := List.mem_filter.mp listed
        obtain ⟨p, published, at_, -⟩ := (cfg.documents_iff swVersion _ e.key).mpr
          (Or.inl ⟨e, listed, writable, rfl, rfl⟩)
        exact ⟨p, published, at_⟩
      · obtain ⟨t, listed, rfl⟩ := List.mem_map.mp member
        obtain ⟨p, published, at_, -⟩ := (cfg.documents_iff swVersion _ t.key).mpr
          (Or.inr ⟨t, listed, rfl, rfl⟩)
        exact ⟨p, published, at_⟩
    · rintro ⟨p, published, at_⟩
      have own : ∃ key : String, p.2.field "unique_id" = some (.text (cfg.uniqueId key)) := by
        rcases List.mem_append.mp published with member | member
        · obtain ⟨e, listed, rfl⟩ := List.mem_map.mp member
          exact ⟨e.key, (cfg.entity_topics swVersion listed).1⟩
        · obtain ⟨t, listed, rfl⟩ := List.mem_map.mp member
          exact ⟨t.key, (cfg.climate_topics swVersion listed).1⟩
      obtain ⟨key, own⟩ := own
      rcases (cfg.documents_iff swVersion topic key).mp ⟨p, published, at_, own⟩ with
        ⟨e, listed, writable, rfl, -⟩ | ⟨t, listed, rfl, -⟩
      · exact List.mem_append_left _ (List.mem_map_of_mem
          (List.mem_filter.mpr ⟨listed, writable⟩))
      · exact List.mem_append_right _ (List.mem_map_of_mem listed)
  · intro topic payload c
    rw [onMessage_iff, documents_iff]

end MqttConfig

/- What Home Assistant may send. -/

/-- A match between `^` and `$`, which is also before a newline at the end. -/
def FitsLine (p : Pattern Char) (text : Text) : Prop :=
  ∃ w ∈ p.ways text, w.2 = [] ∨ w.2 = ['\n']

/-- The payloads that a document offers for its commands: the two of a switch, the options of a
select, the texts that fit the pattern, and every numeral between the bounds of a thermostat. -/
inductive Document.Offers (d : Document) (component : String) (payload : Text) : Prop where
  | on (kind : component = "switch") (h : d.field "payload_on" = some (.text payload))
  | off (kind : component = "switch") (h : d.field "payload_off" = some (.text payload))
  | option {options : List Text} (kind : component = "select")
      (h : d.field "options" = some (.texts options)) (listed : payload ∈ options)
  | fits {p : Pattern Char} (kind : component = "text")
      (h : d.field "pattern" = some (.regex p)) (line : FitsLine p payload)
  | setpoint {low high : Int} {x : ℚ} (kind : component = "climate")
      (least : d.field "min_temp" = some (.int low)) (most : d.field "max_temp" = some (.int high))
      (read : float payload = some (.finite x)) (inside : low ≤ x ∧ x ≤ high)

/-- A pair of digits, each below a bound of its own, is the text of a number below a third. -/
theorem exists_below {t o bound : Nat} {tens ones : List Char}
    (first : (tens.all fun c => 48 ≤ c.toNat && c.toNat < 48 + t) = true)
    (second : (ones.all fun c => 48 ≤ c.toNat && c.toNat < 48 + o) = true)
    (fits : t ≤ 10 ∧ o ≤ 10 ∧ 10 * t + o ≤ bound + 10) {a b : Char}
    (ten : isOneOf tens a = true) (one : isOneOf ones b = true) :
    ∃ n : Fin bound, [a, b] = twoDigits n.val := by
  simp only [List.all_eq_true, Bool.and_eq_true, decide_eq_true_eq] at first second
  obtain ⟨low, high⟩ := first a (List.contains_iff_mem.mp ten)
  obtain ⟨low', high'⟩ := second b (List.contains_iff_mem.mp one)
  have text := Python.twoDigits_pair (d := a.toNat - 48) (e := b.toNat - 48) (by omega) (by omega)
  rw [Python.digitChar_toNat low (by omega), Python.digitChar_toNat low' (by omega)] at text
  exact ⟨⟨10 * (a.toNat - 48) + (b.toNat - 48), by omega⟩, text.symm⟩

/-- The pattern of the timers is that of a clock. -/
theorem clock_of_matches {front : Text} {captures : Patterns.Captures Char}
    (h : Pattern.Matches clockPattern front captures) : Vocabulary.IsClock front := by
  cases h with
  | seq left right =>
    rename_i start _ _ _
    have hour : ∃ hour : Fin 24, start = twoDigits hour.val := by
      cases left with
      | group inner =>
        cases inner with
        | left early =>
          rcases Pattern.matches_word early with _ | ⟨ten, _ | ⟨digit, _ | _⟩⟩
          exact exists_below (t := 2) (o := 10) (by decide) (by decide) (by decide) ten digit
        | right late =>
          rcases Pattern.matches_word late with _ | ⟨ten, _ | ⟨digit, _ | _⟩⟩
          exact exists_below (t := 3) (o := 4) (by decide) (by decide) (by decide) ten digit
    obtain ⟨hour, hour_⟩ := hour
    rcases Pattern.matches_word right with _ | ⟨colon, _ | ⟨ten, _ | ⟨digit, _ | _⟩⟩⟩
    obtain ⟨minute, minute_⟩ : ∃ minute : Fin 60, _ = twoDigits minute.val :=
      exists_below (t := 6) (o := 10) (by decide) (by decide) (by decide) ten digit
    have sep := List.mem_singleton.mp (List.contains_iff_mem.mp colon)
    exact ⟨hour, minute, by rw [hour_, sep, minute_]⟩

/-- The newline before which `$` matches is stripped with the other blanks. -/
theorem strip_line {front : Text} (clock : Vocabulary.IsClock front) {rest : Text}
    (line : rest = [] ∨ rest = ['\n']) : Python.strip (front ++ rest) = front := by
  obtain ⟨hour, minute, clock⟩ := clock
  have solid : ∀ c ∈ front, Python.isSpace c = false := by
    intro c member
    rw [clock, List.mem_append, List.mem_cons] at member
    rcases member with member | rfl | member
    · exact Python.isSpace_digit (Python.isDigit_twoDigits hour.val c member)
    · decide
    · exact Python.isSpace_digit (Python.isDigit_twoDigits minute.val c member)
  rcases line with rfl | rfl
  · rw [List.append_nil]
    exact Python.trim_none solid
  · have bare : (front ++ ['\n']).dropWhile Python.isSpace = front ++ ['\n'] := by
      rw [List.dropWhile_eq_self_iff]
      intro _
      have first : front ≠ [] := by
        rintro rfl
        exact absurd (congrArg List.length clock) (by simp)
      rw [List.getElem_append_left (List.length_pos_iff.mpr first), solid _ (List.getElem_mem _)]
      decide
    have ends := Python.trim_none solid
    rw [Python.strip, Python.trim, bare, List.rdropWhile_concat_pos _ _ _ (by decide),
      List.rdropWhile_eq_self_iff]
    intro some_
    rw [solid _ (List.getLast_mem some_)]
    decide

theorem byte_read : ∀ n : Fin 256, float (intText (n.val : Int)) = some (.finite n.val) := by
  decide +kernel

namespace Vocabulary

/-- The payloads that are offered of a vocabulary. -/
def Offered : Vocabulary → Text → Prop
  | switch, payload => payload = "ON".toList ∨ payload = "OFF".toList
  | select options, payload => payload ∈ options
  | timer, payload => FitsLine clockPattern payload
  | setpoint range, payload =>
    ∃ x : ℚ, float payload = some (.finite x) ∧ (range.1 : ℚ) ≤ x ∧ x ≤ range.2

/-- What is offered has a canonical form, which is offered as well. -/
theorem Offered.settles {v : Vocabulary} {payload : Text} (offered : v.Offered payload)
    (bytes : ∀ range, v = setpoint range → 0 ≤ range.1 ∧ range.2 ≤ 255) :
    v.Kept payload ∧ ∃ value, v.canonical payload = some value ∧ v.Offered value.str := by
  cases v with
  | switch =>
    rcases offered with rfl | rfl
    · exact ⟨Or.inl (by decide), .text "ON".toList, by decide, Or.inl rfl⟩
    · exact ⟨Or.inr (by decide), .text "OFF".toList, by decide, Or.inr rfl⟩
  | select options => exact ⟨trivial, .text payload, if_pos offered, offered⟩
  | timer =>
    obtain ⟨⟨captures, rest⟩, way, line⟩ := offered
    obtain ⟨front, rfl, matched⟩ := Pattern.mem_ways.mp way
    have clock := clock_of_matches matched
    have stripped := strip_line clock line
    refine ⟨fun _ => by rwa [stripped], .text front, ?_, (captures, []), ?_, Or.inl rfl⟩
    · rw [canonical, stripped, if_pos clock]
    · exact Pattern.mem_ways.mpr ⟨front, (List.append_nil front).symm, matched⟩
  | setpoint range =>
    obtain ⟨x, read, low, high⟩ := offered
    have least := Python.le_roundEven low
    have most := Python.roundEven_le high
    have bounds := bytes range rfl
    obtain ⟨n, byte⟩ := Int.eq_ofNat_of_zero_le (bounds.1.trans least)
    have back := byte_read ⟨n, by omega⟩
    refine ⟨fun negative infinite => ?_, .int (Python.roundEven x), ?_, (n : ℚ), ?_, ?_, ?_⟩
    · cases read.symm.trans infinite
    · simp only [canonical, read, if_pos (And.intro least most)]
    · rw [byte]
      exact back
    · rw [byte] at least
      exact_mod_cast least
    · rw [byte] at most
      exact_mod_cast most

end Vocabulary

/-- An encoder is found by its key, takes all of its vocabulary, and no setpoint is beyond a
byte. -/
theorem controls_accept : ∀ c ∈ controls, encoderOf c.key = some c.encode ∧
    (∀ range, vocabularyOf c.key = .setpoint range → 0 ≤ range.1 ∧ range.2 ≤ 255) ∧
    ∀ payload value, (vocabularyOf c.key).canonical payload = some value →
      ∃ write, c.encode payload = .ok write := by
  have select : ∀ a options payload value,
      (Vocabulary.select options).canonical payload = some value →
        ∃ write, encodeEnum a options payload = .ok write := by
    intro a options payload value meant
    cases found : options.findIdx? (· == payload) with
    | none =>
      have missed := List.findIdx?_eq_none_iff.mp found
      simp only [Vocabulary.canonical] at meant
      split at meant
      · rename_i listed
        exact absurd (missed payload listed) (by simp)
      · cases meant
    | some i => exact ⟨(a, [(i : Int)]), by simp only [encodeEnum, found]⟩
  have timer : ∀ a payload value, Vocabulary.timer.canonical payload = some value →
      ∃ write, encodeTime a payload = .ok write := by
    intro a payload value meant
    simp only [Vocabulary.canonical] at meant
    split at meant
    · rename_i clock
      obtain ⟨hour, minute, clock⟩ := clock
      exact ⟨_, Vocabulary.encodeTime_of_clock clock a⟩
    · cases meant
  have setpoint : ∀ a range payload value,
      (Vocabulary.setpoint range).canonical payload = some value →
        ∃ write, encodeRanged a range payload = .ok write := by
    intro a range payload value meant
    simp only [Vocabulary.canonical] at meant
    split at meant
    · rename_i x read
      split at meant
      · rename_i inside
        exact ⟨(a, [Python.roundEven x]), by
          simp only [encodeRanged, toInteger, read, if_pos inside]⟩
      · cases meant
    · cases meant
  intro c member
  simp only [controls, entities, climateEntities, Entity.control, Entity.readout,
    ClimateEntity.control, ClimateEntity.readout, List.filterMap_cons, Option.map_none,
    Option.map_some, List.filterMap_nil, List.map_cons, List.map_nil, List.mem_append,
    List.mem_cons, List.not_mem_nil, or_false] at member
  rcases member with (rfl | rfl | rfl | rfl | rfl | rfl | rfl | rfl) | (rfl | rfl)
  · exact ⟨rfl, (fun range kind => by cases kind), fun payload _ _ =>
      ⟨_, Vocabulary.encodeBool_word _ _ _ payload⟩⟩
  · exact ⟨rfl, (fun range kind => by cases kind), fun payload _ _ =>
      ⟨_, Vocabulary.encodeBool_word _ _ _ payload⟩⟩
  · exact ⟨rfl, (fun range kind => by cases kind), select _ _⟩
  · exact ⟨rfl, (fun range kind => by cases kind), select _ _⟩
  · exact ⟨rfl, (fun range kind => by cases kind), select _ _⟩
  · exact ⟨rfl, (fun range kind => by cases kind), select _ _⟩
  · exact ⟨rfl, (fun range kind => by cases kind), timer _⟩
  · exact ⟨rfl, (fun range kind => by cases kind), timer _⟩
  · exact ⟨rfl, (fun range kind => by cases kind; decide), setpoint _ _⟩
  · exact ⟨rfl, (fun range kind => by cases kind; decide), setpoint _ _⟩

/-- What is offered is taken, and shown afterwards. -/
theorem control_settles {c : Control} (listed : c ∈ controls) {payload : Text}
    (offered : (vocabularyOf c.key).Offered payload) :
    ∃ a data, c.encode payload = .ok (a, data) ∧
      ∃ value, (vocabularyOf c.key).canonical payload = some value ∧
        (vocabularyOf c.key).Offered value.str ∧
        ∀ s : StateSnapshot, s.settings.length = Protocol.settingsLen →
          c.decode (s.written a data) = some value := by
  obtain ⟨-, bytes, accept⟩ := controls_accept c listed
  obtain ⟨kept, value, meant, again⟩ := offered.settles bytes
  obtain ⟨⟨a, data⟩, accepted⟩ := accept payload value meant
  have spoken := ((controls_sound c listed).2 payload).mpr kept
  refine ⟨a, data, accepted, value, meant, again, fun s full => ?_⟩
  obtain ⟨value', meant', shown⟩ := spoken.returns a data accepted s full
  cases meant.symm.trans meant'
  exact shown

namespace MqttConfig

variable (cfg : MqttConfig) (swVersion : Text)

/-- The three kinds of writable entity, and what the `config` of each declares. -/
theorem entity_kinds : ∀ e ∈ entities, e.writable = true →
    (e.component = "switch" ∧ vocabularyOf e.key = .switch) ∨
    (e.component = "select" ∧ ∃ options, vocabularyOf e.key = .select options ∧
      e.config.reverse.lookup "options" = some (.texts options)) ∨
    (e.component = "text" ∧ vocabularyOf e.key = .timer ∧
      e.config.reverse.lookup "pattern" = some (.regex clockPattern)) := by
  intro e listed writable
  simp only [entities, List.mem_cons, List.not_mem_nil, or_false] at listed
  rcases listed with rfl | rfl | rfl | rfl | rfl | rfl | rfl | rfl | rfl | rfl | rfl
  · cases writable
  · cases writable
  · cases writable
  · exact Or.inl ⟨rfl, rfl⟩
  · exact Or.inl ⟨rfl, rfl⟩
  · exact Or.inr (Or.inl ⟨rfl, _, rfl, rfl⟩)
  · exact Or.inr (Or.inl ⟨rfl, _, rfl, rfl⟩)
  · exact Or.inr (Or.inl ⟨rfl, _, rfl, rfl⟩)
  · exact Or.inr (Or.inl ⟨rfl, _, rfl, rfl⟩)
  · exact Or.inr (Or.inr ⟨rfl, rfl, rfl⟩)
  · exact Or.inr (Or.inr ⟨rfl, rfl, rfl⟩)

/-- The document of an entity offers its vocabulary, of one that is not writable nothing. -/
theorem entity_offers {e : Entity} (listed : e ∈ entities) (payload : Text) :
    (cfg.buildDiscoveryPayload e swVersion).Offers e.component payload ↔
      e.writable = true ∧ (vocabularyOf e.key).Offered payload := by
  have words : e.component = "switch" →
      (cfg.buildDiscoveryPayload e swVersion).field "payload_on" = some (.text "ON".toList) ∧
      (cfg.buildDiscoveryPayload e swVersion).field "payload_off" =
        some (.text "OFF".toList) := by
    intro kind
    have plain : ∀ key ∈ ["unique_id", "state_topic", "command_topic", "temperature_command_topic",
        "payload_on", "payload_off"], e.config.reverse.lookup key = none := fun key member =>
      Option.isNone_iff_eq_none.mp (config_plain.1 e listed key member)
    constructor
    · rw [buildDiscoveryPayload, Document.field_update, plain _ (by simp), Option.none_or,
        if_pos kind]
      split <;> rfl
    · rw [buildDiscoveryPayload, Document.field_update, plain _ (by simp), Option.none_or,
        if_pos kind]
      split <;> rfl
  have own : ∀ key value, e.config.reverse.lookup key = some value →
      (cfg.buildDiscoveryPayload e swVersion).field key = some value := by
    intro key value declared
    rw [buildDiscoveryPayload, Document.field_update, declared, Option.some_or]
  have silent : ∀ e ∈ entities, e.writable = false → e.component = "sensor" := by decide
  cases writable : e.writable with
  | false =>
    have sensor := silent e listed writable
    refine iff_of_false ?_ (by simp)
    rintro (⟨kind, -⟩ | ⟨kind, -⟩ | ⟨kind, -⟩ | ⟨kind, -⟩ | ⟨kind, -⟩) <;>
      exact absurd (sensor.symm.trans kind) (by decide)
  | true =>
    rw [and_iff_right rfl]
    rcases entity_kinds e listed writable with ⟨kind, vocabulary⟩ |
      ⟨kind, options, vocabulary, declared⟩ | ⟨kind, vocabulary, declared⟩
    · rw [vocabulary]
      constructor
      · rintro (⟨-, h⟩ | ⟨-, h⟩ | ⟨kind', -⟩ | ⟨kind', -⟩ | ⟨kind', -⟩)
        · rw [(words kind).1, Option.some.injEq, DocValue.text.injEq] at h
          exact Or.inl h.symm
        · rw [(words kind).2, Option.some.injEq, DocValue.text.injEq] at h
          exact Or.inr h.symm
        all_goals exact absurd (kind.symm.trans kind') (by decide)
      · rintro (rfl | rfl)
        · exact .on kind (words kind).1
        · exact .off kind (words kind).2
    · rw [vocabulary]
      constructor
      · rintro (⟨kind', -⟩ | ⟨kind', -⟩ | ⟨-, h, chosen⟩ | ⟨kind', -⟩ | ⟨kind', -⟩)
        case option =>
          rw [own _ _ declared, Option.some.injEq, DocValue.texts.injEq] at h
          rw [h]
          exact chosen
        all_goals exact absurd (kind.symm.trans kind') (by decide)
      · exact fun chosen => .option kind (own _ _ declared) chosen
    · rw [vocabulary]
      constructor
      · rintro (⟨kind', -⟩ | ⟨kind', -⟩ | ⟨kind', -⟩ | ⟨-, h, line⟩ | ⟨kind', -⟩)
        case fits =>
          rw [own _ _ declared, Option.some.injEq, DocValue.regex.injEq] at h
          subst h
          exact line
        all_goals exact absurd (kind.symm.trans kind') (by decide)
      · exact fun line => .fits kind (own _ _ declared) line

theorem climate_reads : ∀ c ∈ climateEntities, ∀ s, ∃ current, c.current s = some current := by
  simp only [climateEntities, List.forall_mem_cons]
  exact ⟨fun _ => ⟨_, rfl⟩, fun _ => ⟨_, rfl⟩, by simp⟩

theorem climate_offers {c : ClimateEntity} (listed : c ∈ climateEntities) (payload : Text) :
    (cfg.buildClimateDiscoveryPayload c swVersion).Offers "climate" payload ↔
      (vocabularyOf c.key).Offered payload := by
  have bounds : vocabularyOf c.key = .setpoint (c.minTemp, c.maxTemp) := by
    simp only [climateEntities, List.mem_cons, List.not_mem_nil, or_false] at listed
    rcases listed with rfl | rfl <;> rfl
  have plain : ∀ key ∈ ["unique_id", "state_topic", "temperature_state_topic", "command_topic",
      "temperature_command_topic", "min_temp", "max_temp"],
      c.config.reverse.lookup key = none := fun key member =>
    Option.isNone_iff_eq_none.mp (config_plain.2 c listed key member)
  have least : (cfg.buildClimateDiscoveryPayload c swVersion).field "min_temp" =
      some (.int c.minTemp) := by
    rw [buildClimateDiscoveryPayload, Document.field_update, plain _ (by simp), Option.none_or]
    rfl
  have most : (cfg.buildClimateDiscoveryPayload c swVersion).field "max_temp" =
      some (.int c.maxTemp) := by
    rw [buildClimateDiscoveryPayload, Document.field_update, plain _ (by simp), Option.none_or]
    rfl
  rw [bounds]
  constructor
  · rintro (⟨kind, -⟩ | ⟨kind, -⟩ | ⟨kind, -⟩ | ⟨kind, -⟩ | ⟨-, least', most', read, inside⟩)
    case setpoint =>
      rw [least, Option.some.injEq, DocValue.int.injEq] at least'
      rw [most, Option.some.injEq, DocValue.int.injEq] at most'
      subst least' most'
      exact ⟨_, read, inside⟩
    all_goals exact absurd kind (by decide)
  · rintro ⟨x, read, inside⟩
    exact .setpoint rfl least most read inside

/-- The topics of two documents differ as their components or keys do. -/
theorem discoveryTopic_inj {component component' key key' : String}
    (plain : '/' ∉ component.toList) (plain' : '/' ∉ component'.toList)
    (same : cfg.discoveryTopic component key = cfg.discoveryTopic component' key') :
    component = component' ∧ key = key' := by
  simp only [discoveryTopic, List.append_assoc, List.cons_append] at same
  have after := (List.cons.inj (List.append_cancel_left same)).2
  obtain ⟨components, after⟩ := first_level plain plain' after
  have keys := (List.cons.inj (List.append_cancel_left after)).2
  exact ⟨String.toList_injective components,
    String.toList_injective (List.append_cancel_right keys)⟩

/-- **What is offered is done and shown.** Whatever the base topic, the prefix and the device are
called, and whatever Home Assistant sends of what a document offers, to the topic that the document
names: the bridge listens there, passes it on and encodes it; and once the machine has the write,
whatever else its settings are, the bridge publishes on the state topic of that document a value
that the vocabulary of its entity takes the payload for, and that the document offers as well. -/
theorem documents_honest {component key : String} {d : Document} {payload : Text}
    (published : (cfg.discoveryTopic component key, d) ∈ cfg.publishDiscovery swVersion)
    (offered : d.Offers component payload) :
    ∃ command state, d.commandTopic = some (.text command) ∧
      d.stateTopic = some (.text state) ∧ command ∈ cfg.subscriptions ∧
      ∃ a data, (cfg.onMessage command payload).bind encodeCommand = some (.ok (a, data)) ∧
        ∃ value, (vocabularyOf key).canonical payload = some value ∧
          d.Offers component value.str ∧
          ∀ s : StateSnapshot, s.settings.length = Protocol.settingsLen →
            (state, value.str) ∈ cfg.publications (s.written a data) := by
  have simple : '/' ∉ component.toList := by
    rcases offered with ⟨rfl, -⟩ | ⟨rfl, -⟩ | ⟨rfl, -⟩ | ⟨rfl, -⟩ | ⟨rfl, -⟩ <;> decide
  rcases List.mem_append.mp published with member | member
  · obtain ⟨e, listed, same⟩ := List.mem_map.mp member
    obtain ⟨topic, rfl⟩ := Prod.mk.inj same
    have plain : ∀ e ∈ entities, '/' ∉ e.component.toList := by decide
    obtain ⟨rfl, rfl⟩ := cfg.discoveryTopic_inj (plain e listed) simple topic
    obtain ⟨writable, offered⟩ := (cfg.entity_offers swVersion listed payload).mp offered
    obtain ⟨encode, writes⟩ := Option.isSome_iff_exists.mp writable
    have control : (⟨e.readout, encode⟩ : Control) ∈ controls := by
      refine List.mem_append_left _ (List.mem_filterMap.mpr ⟨e, listed, ?_⟩)
      rw [Entity.control, writes, Option.map_some]
    obtain ⟨a, data, accepted, value, meant, again, shown⟩ := control_settles control offered
    obtain ⟨-, state, command⟩ := cfg.entity_topics swVersion listed
    rw [if_pos writable] at command
    refine ⟨_, _, command, state, ?_, a, data, ?_, value,
      meant, (cfg.entity_offers swVersion listed _).mpr ⟨writable, again⟩,
      fun s full => ?_⟩
    · exact List.mem_append_left _ (List.mem_map_of_mem
        (List.mem_filter.mpr ⟨listed, writable⟩))
    · rw [(cfg.onMessage_iff _ payload ⟨e.key, payload⟩).mpr
        ⟨rfl, Or.inl ⟨e, listed, writable, rfl, rfl⟩⟩]
      have encoder : encoderOf e.key = some encode := (controls_accept _ control).1
      rw [Option.bind_some, encodeCommand, encoder, Option.map_some]
      exact congrArg some accepted
    · refine List.mem_append_left _ (List.mem_flatMap.mpr ⟨e, listed, ?_⟩)
      have decoded : e.decode (s.written a data) = some value := shown s full
      rw [decoded]
      exact List.mem_singleton_self _
  · obtain ⟨c, listed, same⟩ := List.mem_map.mp member
    obtain ⟨topic, rfl⟩ := Prod.mk.inj same
    obtain ⟨rfl, rfl⟩ := cfg.discoveryTopic_inj (by decide) simple topic
    have offered := (cfg.climate_offers swVersion listed payload).mp offered
    have control : c.control ∈ controls := List.mem_append_right _ (List.mem_map_of_mem listed)
    obtain ⟨a, data, accepted, value, meant, again, shown⟩ := control_settles control offered
    obtain ⟨-, state, command⟩ := cfg.climate_topics swVersion listed
    refine ⟨_, _, command, state, ?_, a, data, ?_, value, meant,
      (cfg.climate_offers swVersion listed _).mpr again, fun s full => ?_⟩
    · exact List.mem_append_right _ (List.mem_map_of_mem listed)
    · rw [(cfg.onMessage_iff _ payload ⟨c.key, payload⟩).mpr
        ⟨rfl, Or.inr ⟨c, listed, rfl, rfl⟩⟩]
      have encoder : encoderOf c.key = some c.encodeTarget := (controls_accept _ control).1
      rw [Option.bind_some, encodeCommand, encoder, Option.map_some]
      exact congrArg some accepted
    · refine List.mem_append_right _ (List.mem_flatMap.mpr ⟨c, listed, ?_⟩)
      have target : c.target (s.written a data) = some value := shown s full
      obtain ⟨current, reads⟩ := climate_reads c listed (s.written a data)
      rw [reads, target]
      exact List.mem_cons_of_mem _ List.mem_cons_self

theorem auto_on_honest : ∃ a data,
    (default.onMessage "rocket-r60v/auto_on/set".toList "07:05".toList).bind encodeCommand =
      some (.ok (a, data)) ∧
    ∀ s : StateSnapshot, s.settings.length = Protocol.settingsLen →
      ("rocket-r60v/auto_on/state".toList, "07:05".toList) ∈
        default.publications (s.written a data) := by
  have listed : entities[9] ∈ entities := List.getElem_mem _
  have published := default.mem_publishDiscovery [] listed
  have line : FitsLine clockPattern "07:05".toList :=
    ⟨([(1, "07".toList)], []), by decide, Or.inl rfl⟩
  have offered := (default.entity_offers [] listed _).mpr ⟨rfl, line⟩
  obtain ⟨command, state, to_, from_, -, a, data, encoded, value, meant, -, shown⟩ :=
    documents_honest default [] published offered
  obtain ⟨-, state_, command_⟩ := default.entity_topics [] listed
  have writable : entities[9].writable = true := rfl
  have sent : "rocket-r60v/auto_on/set".toList = default.commandTopic "auto_on" := by decide
  have back : "rocket-r60v/auto_on/state".toList = default.stateTopic "auto_on" := by decide
  have same : (vocabularyOf entities[9].key).canonical "07:05".toList =
      some (.text "07:05".toList) := by decide +kernel
  rw [if_pos writable] at command_
  rw [command_, Option.some.injEq, DocValue.text.injEq] at to_
  rw [state_, Option.some.injEq, DocValue.text.injEq] at from_
  rw [meant, Option.some.injEq] at same
  subst same
  rw [sent, back]
  exact ⟨a, data, to_ ▸ encoded, from_ ▸ shown⟩

end MqttConfig

end R60V
