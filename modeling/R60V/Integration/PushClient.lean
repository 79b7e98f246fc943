import R60V.Integration.Coordinator
import R60V.Lib.Runs
import R60V.Python.Text

/-! Push mode: the stream client, the coordinator that it feeds, and the refreshes that Home
Assistant asks of the coordinator in between. -/
namespace R60V.Integration

open Python (Text Float64)
open Runs (Run Move)

/-- What `json.loads` returns; a dict by its items. -/
inductive JsonValue where
  | null
  | bool (b : Bool)
  | int (n : Int)
  | float (x : Float64)
  | str (text : Text)
  | list (items : List JsonValue)
  | dict (items : List (Text × JsonValue))

inductive LoadsExc where
  -- `JSONDecodeError`, a `ValueError`.
  | value
  -- `RecursionError`, which is none.
  | recursion

namespace JsonValue

instance : Zero JsonValue := ⟨.int 0⟩

/-- `bool(value)`. -/
def truthy : JsonValue → Bool
  | .null => false
  | .bool b => b
  | .int n => n ≠ 0
  | .float x => x ≠ .finite 0
  | .str text => !text.isEmpty
  | .list items => !items.isEmpty
  | .dict items => !items.isEmpty

/-- `list(value)`, `none` for a `TypeError`. -/
def toList : JsonValue → Option (List JsonValue)
  | .str text => some (text.map fun c => .str [c])
  | .list items => some items
  | .dict items => some (items.map fun item => .str item.1)
  | .null | .bool _ | .int _ | .float _ => none

end JsonValue

-- `d[key] = value`.
def dictSet {κ α : Type} [DecidableEq κ] (key : κ) (value : α) : List (κ × α) → List (κ × α)
  | [] => [(key, value)]
  | item :: items =>
    if item.1 = key then (key, value) :: items else item :: dictSet key value items

inductive HandleExc where
  | recursion
  -- `AttributeError`: what is not a dict has no `items`.
  | attribute
  deriving DecidableEq

namespace PushFrame

/-- `data.get("live") or {}`, and its `items()`. -/
def liveItems : Option JsonValue → Except HandleExc (List (Text × JsonValue))
  | none => .ok []
  | some value =>
    if value.truthy then
      match value with
      | .dict items => .ok items
      | _ => .error .attribute
    else .ok []

-- The loop over the live registers; what is no register is left out.
def live (items : List (Text × JsonValue)) : List (Int × List JsonValue) :=
  items.foldl (fun live item =>
    match item.2.toList, Python.int 10 item.1 with
    | some value, some key => dictSet key value live
    | _, _ => live) []

def snapshot (items : List (Text × JsonValue)) (settings : List JsonValue) :
    Except HandleExc (StateSnapshot JsonValue) :=
  match liveItems (items.lookup "live".toList) with
  | .error e => .error e
  | .ok registers =>
    .ok ⟨settings, live registers, (items.lookup "available".toList).all JsonValue.truthy⟩

/-- `_handle`: the snapshot for the coordinator, `none` for a message that is ignored. -/
def handle : Except LoadsExc JsonValue → Except HandleExc (Option (StateSnapshot JsonValue))
  | .error .value => .ok none
  | .error .recursion => .error .recursion
  | .ok (.dict items) =>
    match items.lookup "type".toList, items.lookup "settings".toList with
    | some (.str kind), some (.list settings) =>
      if kind = "state".toList then (snapshot items settings).map some else .ok none
    | _, _ => .ok none
  | .ok _ => .ok none

end PushFrame

/-- Where `_run` is. -/
inductive Stream where
  -- Connecting, or asleep after a failure.
  | away
  -- Connected; with what the last state frame of this connection has said, if there was one.
  | connected (said : Option Bool)
  -- An exception has ended it.
  | dead
  deriving DecidableEq

structure Push where
  coordinator : Coordinator JsonValue
  stream : Stream

inductive PushEvent where
  -- An update on request returns.
  | refreshed (fetched : Option BridgeHealth)
  -- The timer, and the button.
  | healthRefreshed (fetched : Option BridgeHealth)
  | endCooldown
  | opened
  -- Opening fails, with one of the exceptions that `_run` catches or with another.
  | refused (caught : Bool)
  | message (raw : Except LoadsExc JsonValue)
  -- The stream ends, or breaks with an exception that `_run` catches.
  | dropped

namespace Push

/-- `_async_update_data` in push mode, and what Home Assistant makes of it. -/
def refresh (c : Coordinator JsonValue) (fetched : Option BridgeHealth) : Coordinator JsonValue :=
  let c := c.refreshBridgeHealth fetched
  c.setUpdatedData (c.data.getD .unavailable)

/-- The client starts when the first refresh has returned. -/
def start (bridgeHealthEnabled : Bool) (fetched : Option BridgeHealth) : Push :=
  ⟨refresh (.new true bridgeHealthEnabled) fetched, .away⟩

/-- A step, with the snapshot that the stream hands to the coordinator in it. -/
def step (s : Push) : PushEvent → Option (Push × List (StateSnapshot JsonValue))
  | .refreshed fetched => some ({ s with coordinator := refresh s.coordinator fetched }, [])
  | .healthRefreshed fetched =>
    some ({ s with coordinator := s.coordinator.refreshBridgeHealth fetched }, [])
  | .endCooldown => some ({ s with coordinator := s.coordinator.clearCooldown }, [])
  | .opened => if s.stream = .away then some ({ s with stream := .connected none }, []) else none
  | .refused caught =>
    if s.stream = .away then
      some (if caught then { s with coordinator := s.coordinator.setUpdateError }
        else { s with stream := .dead }, [])
    else none
  | .message raw =>
    match s.stream with
    | .connected _ =>
      match PushFrame.handle raw with
      | .ok (some snapshot) =>
        some (⟨s.coordinator.setUpdatedData snapshot, .connected (some snapshot.available)⟩,
          [snapshot])
      | .ok none => some (s, [])
      | .error _ => some ({ s with stream := .dead }, [])
    | _ => none
  | .dropped =>
    match s.stream with
    | .connected _ => some (⟨s.coordinator.setUpdateError, .away⟩, [])
    | _ => none

/-- What a step can do, with the guard that lets it. -/
inductive Stepped (s : Push) : PushEvent → Push → List (StateSnapshot JsonValue) → Prop where
  | refreshed {fetched : Option BridgeHealth} :
      Stepped s (.refreshed fetched) { s with coordinator := refresh s.coordinator fetched } []
  | healthRefreshed {fetched : Option BridgeHealth} : Stepped s (.healthRefreshed fetched)
      { s with coordinator := s.coordinator.refreshBridgeHealth fetched } []
  | endCooldown : Stepped s .endCooldown { s with coordinator := s.coordinator.clearCooldown } []
  | opened (away : s.stream = .away) : Stepped s .opened { s with stream := .connected none } []
  | refused (away : s.stream = .away) :
      Stepped s (.refused true) { s with coordinator := s.coordinator.setUpdateError } []
  | failed (away : s.stream = .away) : Stepped s (.refused false) { s with stream := .dead } []
  | state {raw : Except LoadsExc JsonValue} {snapshot : StateSnapshot JsonValue}
      {said : Option Bool} (connected : s.stream = .connected said)
      (handled : PushFrame.handle raw = .ok (some snapshot)) :
      Stepped s (.message raw)
        ⟨s.coordinator.setUpdatedData snapshot, .connected (some snapshot.available)⟩ [snapshot]
  | ignored {raw : Except LoadsExc JsonValue} {said : Option Bool}
      (connected : s.stream = .connected said) (handled : PushFrame.handle raw = .ok none) :
      Stepped s (.message raw) s []
  | raised {raw : Except LoadsExc JsonValue} {said : Option Bool} {x : HandleExc}
      (connected : s.stream = .connected said) (handled : PushFrame.handle raw = .error x) :
      Stepped s (.message raw) { s with stream := .dead } []
  | dropped {said : Option Bool} (connected : s.stream = .connected said) :
      Stepped s .dropped ⟨s.coordinator.setUpdateError, .away⟩ []

variable {s t : Push} {e : PushEvent} {handed : List (StateSnapshot JsonValue)}

theorem step_stepped (h : s.step e = some (t, handed)) : s.Stepped e t handed := by
  cases e with
  | refreshed fetched => cases h; exact .refreshed
  | healthRefreshed fetched => cases h; exact .healthRefreshed
  | endCooldown => cases h; exact .endCooldown
  | opened =>
    simp only [step] at h
    split at h
    · rename_i away
      cases h
      exact .opened away
    · cases h
  | refused caught =>
    simp only [step] at h
    split at h
    · rename_i away
      cases caught with
      | true => cases h; exact .refused away
      | false => cases h; exact .failed away
    · cases h
  | message raw =>
    simp only [step] at h
    split at h
    · rename_i connected
      split at h
      · rename_i handled
        cases h
        exact .state connected handled
      · rename_i handled
        cases h
        exact .ignored connected handled
      · rename_i handled
        cases h
        exact .raised connected handled
    · cases h
  | dropped =>
    simp only [step] at h
    split at h
    · rename_i connected
      cases h
      exact .dropped connected
    · cases h

/-- Nothing shows the machine as reachable but a stream whose last state frame says so. -/
def Honest (s : Push) : Prop :=
  ∀ now, s.coordinator.entityAvailable = true ∨ s.coordinator.connectionState now = .connected →
    s.stream = .connected (some true)

/-- The condition on a step: a refresh returns a snapshot that is not available, or the one that the
stream stands by; and no message ends the client while it stands by one. -/
def Backed (s : Push) : PushEvent → Prop
  | .refreshed _ =>
    s.coordinator.data.any (·.available) = true → s.stream = .connected (some true)
  | .message raw => ∀ x, PushFrame.handle raw = .error x → s.stream ≠ .connected (some true)
  | _ => True

/-- What holds in every state. -/
structure Loaded (s : Push) : Prop where
  push : s.coordinator.pushEnabled = true
  data : s.coordinator.data ≠ none
  stands : s.stream = .connected (some true) → s.coordinator.entityAvailable = true

theorem Loaded.honest_entity (loaded : Loaded s) :
    s.Honest ↔ (s.coordinator.entityAvailable = true → s.stream = .connected (some true)) := by
  constructor
  · exact fun honest available => honest 0 (Or.inl available)
  · rintro backed now (available | connected)
    · exact backed available
    · exact backed (Coordinator.available_of_connected loaded.push loaded.data connected)

@[simp] theorem entityAvailable_refresh (c : Coordinator JsonValue)
    (fetched : Option BridgeHealth) :
    (refresh c fetched).entityAvailable = c.data.any (·.available) := by
  simp only [refresh, Coordinator.entityAvailable_setUpdatedData,
    Coordinator.data_refreshBridgeHealth]
  cases c.data <;> rfl

theorem Loaded.start (bridgeHealthEnabled : Bool) (fetched : Option BridgeHealth) :
    Loaded (start bridgeHealthEnabled fetched) where
  push := Coordinator.pushEnabled_refreshBridgeHealth _ _
  data := Option.some_ne_none _
  stands := nofun

theorem step_loaded (loaded : Loaded s) (h : s.step e = some (t, handed)) : Loaded t := by
  obtain ⟨push, data, stands⟩ := loaded
  cases step_stepped h with
  | refreshed =>
    refine ⟨(Coordinator.pushEnabled_refreshBridgeHealth _ _).trans push, Option.some_ne_none _, ?_⟩
    intro connected
    have available := stands connected
    simp only [Coordinator.entityAvailable, Bool.and_eq_true] at available
    simpa using available.2
  | healthRefreshed => exact ⟨by simpa using push, by simpa using data, by simpa using stands⟩
  | endCooldown => exact ⟨push, data, stands⟩
  | opened _ => exact ⟨push, data, by simp⟩
  | refused away => exact ⟨push, data, fun connected => by simp [away] at connected⟩
  | failed _ | dropped _ => exact ⟨push, data, by simp⟩
  | state _ _ => exact ⟨push, Option.some_ne_none _, by simp⟩
  | ignored _ _ => exact ⟨push, data, stands⟩
  | raised _ _ => exact ⟨push, data, by simp⟩

theorem honest_start (bridgeHealthEnabled : Bool) (fetched : Option BridgeHealth) :
    (start bridgeHealthEnabled fetched).Honest := by
  rw [(Loaded.start bridgeHealthEnabled fetched).honest_entity]
  simp [start, Coordinator.new]

/-- A step from an honest state leads to one exactly if it is backed. -/
theorem step_honest (loaded : Loaded s) (honest : s.Honest) (h : s.step e = some (t, handed)) :
    t.Honest ↔ s.Backed e := by
  rw [(step_loaded loaded h).honest_entity]
  rw [loaded.honest_entity] at honest
  cases step_stepped h with
  | refreshed => simp [Backed]
  | healthRefreshed | endCooldown => simpa [Backed] using honest
  | opened away | failed away =>
    have gone := mt honest (by simp [away])
    simp [Backed, gone]
  | refused _ | dropped _ => simp [Backed]
  | state _ handled => simp [Backed, handled]
  | ignored _ handled => simpa [Backed, handled] using honest
  | raised _ handled =>
    have stands : s.coordinator.entityAvailable = true ↔ s.stream = .connected (some true) :=
      ⟨honest, loaded.stands⟩
    simp [Backed, handled, stands]

/-- **The push stream is what makes entities available**, in a run of the stream, of updates and of
the button, if and only if every step of it is backed. -/
theorem honest_iff {bridgeHealthEnabled : Bool} {fetched : Option BridgeHealth}
    {ms : List (Move Push PushEvent (StateSnapshot JsonValue))}
    (run : Run step (start bridgeHealthEnabled fetched) ms s) :
    (∀ m ∈ ms, m.after.Honest) ↔ ∀ m ∈ ms, m.before.Backed m.event :=
  run.states_iff Loaded Honest Honest Backed (.start _ _) (honest_start _ _) (fun _ => id)
    (fun _ _ _ _ => step_loaded)
    (fun _ _ _ _ loaded honest h => (step_honest loaded honest h).mpr)
    (fun _ _ _ _ loaded honest h => (step_honest loaded honest h).mp)

/-- A state frame of the bridge with one register. -/
def stateFrame (available : Bool) : Except LoadsExc JsonValue :=
  .ok (.dict [("type".toList, .str "state".toList), ("available".toList, .bool available),
    ("settings".toList, .list (List.replicate 115 (.int 0))),
    ("live".toList, .dict [("45056".toList, .list [.int 93])])])

/-- A refresh while the stream stands by its snapshot, a drop, and a machine that is off. -/
theorem honest_run : ∃ ms s, Run step (start false none) ms s ∧
    ms.map (·.after.coordinator.entityAvailable) = [false, true, true, false, false, false, false] ∧
    ∀ m ∈ ms, m.after.Honest := by
  have reached : (Runs.feed step (start false none) [.opened, .message (stateFrame true),
      .refreshed none, .dropped, .opened, .message (stateFrame false), .refreshed none]).any
      (fun r => r.2.map (·.after.coordinator.entityAvailable) ==
          [false, true, true, false, false, false, false] && r.2.all fun m =>
        match m.event with
        | .refreshed _ => !m.before.coordinator.data.any (·.available) ||
            m.before.stream == .connected (some true)
        | .message raw => match PushFrame.handle raw with
          | .ok _ => true
          | .error _ => false
        | _ => true) = true := by decide +kernel
  obtain ⟨ms, s, run, -, tested⟩ := Runs.feed_reaches reached
  simp only [Bool.and_eq_true, beq_iff_eq, List.all_eq_true] at tested
  refine ⟨ms, s, run, tested.1, (honest_iff run).mpr fun m member => ?_⟩
  have test := tested.2 m member
  unfold Backed
  split
  · rename_i refreshed
    rw [refreshed] at test
    simp only [Bool.or_eq_true, Bool.not_eq_true', beq_iff_eq] at test
    intro available
    rcases test with none_ | stands
    · rw [none_] at available
      cases available
    · exact stands
  · rename_i raw message
    rw [message] at test
    intro x raised
    simp [raised] at test
  · trivial

/-- The stream drops, and the button has the cached snapshot returned: the machine is shown as
reachable with no stream there. -/
theorem refreshed_after_drop : ¬ ∀ ms s, Run step (start false none) ms s →
    ∀ m ∈ ms, m.after.Honest := by
  have reached : (Runs.feed step (start false none) [.opened, .message (stateFrame true), .dropped,
      .endCooldown, .refreshed none]).any (fun r => r.2.any fun m =>
        m.after.coordinator.entityAvailable && m.after.stream == .away) = true := by decide +kernel
  intro honest
  obtain ⟨ms, s, run, -, tested⟩ := Runs.feed_reaches reached
  obtain ⟨m, member, test⟩ := List.any_eq_true.mp tested
  simp only [Bool.and_eq_true, beq_iff_eq] at test
  have stands := honest ms s run m member 0 (Or.inl test.1)
  rw [test.2] at stands
  cases stands

end Push

end R60V.Integration
