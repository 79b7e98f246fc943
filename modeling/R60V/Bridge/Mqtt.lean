import R60V.Bridge.Store
import R60V.Lib.Runs

/-! Availability on MQTT: the publisher that mirrors the store's verdict, the connection of the
MQTT client, and what the retained availability topic was told last. The discovery and state
topics say nothing about availability and are left out. -/
namespace R60V

open Runs (Run Move feed)

/-- `MqttBridge`, as far as availability goes. A publish without a connection is lost. -/
structure MqttBridge where
  -- `_client is not None`.
  created : Bool
  connected : Bool
  -- What the bridge published last on the availability topic, `true` for `online`.
  published : Option Bool

namespace MqttBridge

def publishAvailability (m : MqttBridge) (online : Bool) : MqttBridge :=
  if m.created && m.connected then { m with published := some online } else m

def connect (m : MqttBridge) : MqttBridge := { m with created := true }

/-- The callback that the client makes on each connection. -/
def onConnect (m : MqttBridge) : MqttBridge :=
  { m with connected := true }.publishAvailability true

def disconnect (m : MqttBridge) : MqttBridge :=
  if m.created then { m.publishAvailability false with connected := false } else m

end MqttBridge

structure StatePublisher where
  store : DeviceState
  lastPubAvailable : Option Bool
  mqtt : MqttBridge

namespace StatePublisher

/-- The name under which the publisher subscribes to the store. -/
def listener : Nat := 0

def new (store : DeviceState) : StatePublisher where
  store := store.subscribe listener
  lastPubAvailable := none
  mqtt := ⟨false, false, none⟩

def onStoreChange (p : StatePublisher) : StatePublisher :=
  if some p.store.available ≠ p.lastPubAvailable then
    { p with
      lastPubAvailable := some p.store.available
      mqtt := p.mqtt.publishAvailability p.store.available }
  else p

-- The listener runs once for every notification that names it.
def hear (p : StatePublisher) (heard : List Nat) : StatePublisher :=
  heard.foldl (fun p heard => if heard = listener then p.onStoreChange else p) p

/-- A store operation notifies last, so a listener sees the store as the operation leaves it. -/
def operate (p : StatePublisher) (op : StoreOp) : StatePublisher :=
  let store := op.run p.store
  { p with store := store }.hear (store.notified.drop p.store.notified.length)

inductive Event where
  | store (op : StoreOp)
  | connect
  | onConnect
  | lost
  | disconnect
  deriving DecidableEq

/-- Nobody but the publisher holds the handle that would unsubscribe it, and it drops it. -/
def step (p : StatePublisher) : Event → Option (StatePublisher × List Empty)
  | .store op => if op = .unsubscribe listener then none else some (p.operate op, [])
  | .connect => if p.mqtt.created then none else some ({ p with mqtt := p.mqtt.connect }, [])
  | .onConnect =>
    if p.mqtt.created && !p.mqtt.connected then some ({ p with mqtt := p.mqtt.onConnect }, [])
    else none
  | .lost =>
    if p.mqtt.connected then some ({ p with mqtt.connected := false }, []) else none
  | .disconnect => some ({ p with mqtt := p.mqtt.disconnect }, [])

def start (availabilityGrace : Nat) (staleAfter interpolateStep : ℚ) : StatePublisher :=
  new (.new availabilityGrace staleAfter interpolateStep)

/-- While MQTT is connected, the retained topic says `online` exactly when the store does. -/
def Mirrors (p : StatePublisher) : Prop :=
  p.mqtt.connected = true → ∀ online, p.mqtt.published = some online →
    (online = true ↔ p.store.available = true)

/-- What is so whenever the loop runs: the publisher listens, and it never remembers a verdict
that the store has left. -/
structure Wired (p : StatePublisher) : Prop where
  listens : listener ∈ p.store.listeners
  remembers : p.lastPubAvailable = none ∨ p.lastPubAvailable = some p.store.available
  exists_ : p.mqtt.connected = true → p.mqtt.created = true

/-- Connected, and the topic was told what the store says. -/
def Told (p : StatePublisher) : Prop :=
  p.mqtt.connected = true → p.mqtt.published = some p.store.available

theorem mirrors_of_told {p : StatePublisher} (told : p.Told) : p.Mirrors := by
  intro connected online published
  rw [told connected] at published
  rw [Option.some.inj published]

/-- What a call of the listener does not touch, and what it keeps. -/
structure Heard (p q : StatePublisher) : Prop where
  store : q.store = p.store
  created : q.mqtt.created = p.mqtt.created
  connected : q.mqtt.connected = p.mqtt.connected
  remembers : q.lastPubAvailable = p.lastPubAvailable ∨
    q.lastPubAvailable = some p.store.available
  told : p.Told → q.Told

theorem Heard.refl (p : StatePublisher) : Heard p p := ⟨rfl, rfl, rfl, Or.inl rfl, id⟩

theorem Heard.trans {p q r : StatePublisher} (first : Heard p q) (second : Heard q r) :
    Heard p r where
  store := second.store.trans first.store
  created := second.created.trans first.created
  connected := second.connected.trans first.connected
  remembers := by
    rcases second.remembers with same | fresh
    · exact same ▸ first.remembers
    · exact Or.inr (first.store ▸ fresh)
  told := second.told ∘ first.told

theorem publishAvailability_frame (m : MqttBridge) (online : Bool) :
    (m.publishAvailability online).created = m.created ∧
    (m.publishAvailability online).connected = m.connected ∧
    (m.created = true → m.connected = true →
      (m.publishAvailability online).published = some online) := by
  unfold MqttBridge.publishAvailability
  split
  · exact ⟨rfl, rfl, fun _ _ => rfl⟩
  · rename_i down
    refine ⟨rfl, rfl, fun created connected => absurd ?_ down⟩
    rw [created, connected]
    rfl

theorem publishAvailability_told (m : MqttBridge) {online : Bool}
    (told : m.connected = true → m.published = some online) :
    (m.publishAvailability online).connected = true →
      (m.publishAvailability online).published = some online := by
  unfold MqttBridge.publishAvailability
  split
  · exact fun _ => rfl
  · exact told

theorem onStoreChange_heard (p : StatePublisher) : Heard p p.onStoreChange := by
  unfold onStoreChange
  split
  · have frame := publishAvailability_frame p.mqtt p.store.available
    exact ⟨rfl, frame.1, frame.2.1, Or.inr rfl, publishAvailability_told p.mqtt⟩
  · exact .refl p

theorem onStoreChange_told {p : StatePublisher} (wired : p.mqtt.connected = true →
    p.mqtt.created = true) (news : p.lastPubAvailable ≠ some p.store.available) :
    p.onStoreChange.Told := by
  unfold onStoreChange
  rw [if_pos news.symm]
  intro connected
  have frame := publishAvailability_frame p.mqtt p.store.available
  have up : p.mqtt.connected = true := frame.2.1 ▸ connected
  exact frame.2.2 (wired up) up

theorem hear_heard (p : StatePublisher) (heard : List Nat) : Heard p (p.hear heard) := by
  induction heard generalizing p with
  | nil => exact .refl p
  | cons first rest ih =>
    simp only [hear, List.foldl_cons]
    split
    · exact (onStoreChange_heard p).trans (ih p.onStoreChange)
    · exact ih p

theorem hear_told {p : StatePublisher} (wired : p.mqtt.connected = true → p.mqtt.created = true)
    (news : p.lastPubAvailable ≠ some p.store.available) {heard : List Nat}
    (named : listener ∈ heard) : (p.hear heard).Told := by
  induction heard with
  | nil => cases named
  | cons first rest ih =>
    simp only [hear, List.foldl_cons]
    split
    · exact (hear_heard p.onStoreChange rest).told (onStoreChange_told wired news)
    · rename_i other
      exact ih ((List.mem_cons.mp named).resolve_left fun same => other same.symm)

theorem onStoreChange_remembers (p : StatePublisher) :
    p.onStoreChange.lastPubAvailable = some p.store.available := by
  unfold onStoreChange
  split
  · rfl
  · rename_i same
    exact (not_not.mp same).symm

theorem hear_remembers {p : StatePublisher} {heard : List Nat} (named : listener ∈ heard) :
    (p.hear heard).lastPubAvailable = some p.store.available := by
  induction heard with
  | nil => cases named
  | cons first rest ih =>
    simp only [hear, List.foldl_cons]
    split
    · have now := onStoreChange_remembers p
      rcases (hear_heard p.onStoreChange rest).remembers with kept | fresh
      · exact kept.trans now
      · exact fresh.trans (congrArg _ (congrArg _ (onStoreChange_heard p).store))
    · rename_i other
      exact ih ((List.mem_cons.mp named).resolve_left fun same => other same.symm)

theorem operate_wired {p : StatePublisher} (wired : p.Wired) {op : StoreOp}
    (stays : op ≠ .unsubscribe listener) :
    (p.operate op).Wired ∧ (p.Told → (p.operate op).Told) := by
  let q : StatePublisher := { p with store := op.run p.store }
  have heard : Heard q (p.operate op) := hear_heard q _
  have listens : listener ∈ (p.operate op).store.listeners :=
    heard.store ▸ StoreOp.run_listeners wired.listens stays
  have exists_ : (p.operate op).mqtt.connected = true → (p.operate op).mqtt.created = true := by
    rw [heard.connected, heard.created]
    exact wired.exists_
  by_cases same : q.store.available = p.store.available
  · have remembers : q.lastPubAvailable = none ∨ q.lastPubAvailable = some q.store.available :=
      same ▸ wired.remembers
    refine ⟨⟨listens, ?_, exists_⟩, fun told => heard.told fun connected => ?_⟩
    · rw [heard.store]
      rcases heard.remembers with kept | fresh
      · exact kept ▸ remembers
      · exact Or.inr fresh
    · exact same ▸ told connected
  · -- The verdict has changed: the listener runs, and what it remembers is out of date.
    have verdict : (op.run p.store).verdict ≠ p.store.verdict := by
      intro kept
      exact same (by simp only [q, DeviceState.available, kept])
    have named : listener ∈ q.store.notified.drop p.store.notified.length := by
      rw [StoreOp.run_heard p.store op verdict, List.drop_left]
      exact wired.listens
    have news : q.lastPubAvailable ≠ some q.store.available := by
      rcases wired.remembers with nothing | old
      · simp [q, nothing]
      · simpa [q, old] using Ne.symm same
    refine ⟨⟨listens, Or.inr ?_, exists_⟩, fun _ => hear_told (p := q) wired.exists_ news named⟩
    rw [heard.store]
    exact hear_remembers named

theorem step_wired {p q : StatePublisher} {e : Event} {out : List Empty} (wired : p.Wired)
    (h : p.step e = some (q, out)) : q.Wired := by
  cases e with
  | store op =>
    simp only [step] at h
    split at h
    · cases h
    · rename_i stays
      cases h
      exact (operate_wired wired stays).1
  | connect =>
    simp only [step] at h
    split at h
    · cases h
    · cases h
      exact ⟨wired.listens, wired.remembers, fun _ => rfl⟩
  | onConnect =>
    simp only [step] at h
    split at h
    · rename_i ready
      cases h
      simp only [Bool.and_eq_true] at ready
      have frame := publishAvailability_frame { p.mqtt with connected := true } true
      exact ⟨wired.listens, wired.remembers, fun _ => frame.1.trans ready.1⟩
    · cases h
  | lost =>
    simp only [step] at h
    split at h
    · cases h
      exact ⟨wired.listens, wired.remembers, nofun⟩
    · cases h
  | disconnect =>
    cases h
    refine ⟨wired.listens, wired.remembers, ?_⟩
    unfold MqttBridge.disconnect
    split
    · exact nofun
    · exact wired.exists_

/-- A connection tells the topic `online`, whatever the store says. -/
theorem onConnect_published {m : MqttBridge} (created : m.created = true) :
    m.onConnect.connected = true ∧ m.onConnect.published = some true := by
  have frame := publishAvailability_frame { m with connected := true } true
  exact ⟨frame.2.1, frame.2.2 created rfl⟩

theorem step_told {p q : StatePublisher} {e : Event} {out : List Empty} (wired : p.Wired)
    (told : p.Told) (h : p.step e = some (q, out))
    (meets : e = .onConnect → p.store.available = true) : q.Told := by
  cases e with
  | store op =>
    simp only [step] at h
    split at h
    · cases h
    · rename_i stays
      cases h
      exact (operate_wired wired stays).2 told
  | connect =>
    simp only [step] at h
    split at h
    · cases h
    · cases h
      exact told
  | onConnect =>
    simp only [step] at h
    split at h
    · rename_i ready
      cases h
      simp only [Bool.and_eq_true] at ready
      intro _
      rw [meets rfl]
      exact (onConnect_published ready.1).2
    · cases h
  | lost =>
    simp only [step] at h
    split at h
    · cases h
      exact nofun
    · cases h
  | disconnect =>
    cases h
    unfold MqttBridge.disconnect
    split
    · exact nofun
    · exact told

theorem step_mirrors {p q : StatePublisher} {e : Event} {out : List Empty}
    (h : p.step e = some (q, out)) (mirrors : q.Mirrors) :
    e = .onConnect → p.store.available = true := by
  rintro rfl
  simp only [step] at h
  split at h
  · rename_i ready
    cases h
    simp only [Bool.and_eq_true] at ready
    obtain ⟨connected, published⟩ := onConnect_published ready.1
    exact (mirrors connected true published).mp rfl
  · cases h

theorem start_wired (availabilityGrace : Nat) (staleAfter interpolateStep : ℚ) :
    (start availabilityGrace staleAfter interpolateStep).Wired :=
  ⟨List.mem_singleton_self _, Or.inl rfl, nofun⟩

/-- **Availability on MQTT mirrors the store**, all along a run, exactly when every connection is
made while the store is available: the connection announces `online` in any case. -/
theorem availability_mirrored_iff {availabilityGrace : Nat} {staleAfter interpolateStep : ℚ}
    {ms : List (Move StatePublisher Event Empty)} {p : StatePublisher}
    (run : Run step (start availabilityGrace staleAfter interpolateStep) ms p) :
    (∀ m ∈ ms, m.after.Mirrors) ↔
      ∀ m ∈ ms, m.event = .onConnect → m.before.store.available = true := by
  apply run.states_iff Wired Told Mirrors (fun p e => e = .onConnect → p.store.available = true)
  · exact start_wired availabilityGrace staleAfter interpolateStep
  · exact nofun
  · exact fun _ => mirrors_of_told
  · exact fun _ _ _ _ => step_wired
  · exact fun _ _ _ _ => step_told
  · exact fun _ _ _ _ _ _ => step_mirrors

def reconnection : List Event :=
  [.connect, .onConnect, .store .noteSuccess, .store .noteWedged, .lost, .onConnect]

theorem reconnection_announces_resting_machine :
    ¬ ∀ (availabilityGrace : Nat) (staleAfter interpolateStep : ℚ)
      (ms : List (Move StatePublisher Event Empty)) (p : StatePublisher),
      Run step (start availabilityGrace staleAfter interpolateStep) ms p → p.Mirrors := by
  intro all
  have fed : (feed step (start 4 12 1) reconnection).any (fun r =>
      r.1.mqtt.connected && r.1.mqtt.published == some true && !r.1.store.available) = true := by
    decide +kernel
  obtain ⟨ms, p, run, _, reached⟩ := Runs.feed_reaches fed
  simp only [Bool.and_eq_true, beq_iff_eq, Bool.not_eq_true'] at reached
  obtain ⟨⟨connected, published⟩, offline⟩ := reached
  have mirrors := (all 4 12 1 ms p run connected true published).mp rfl
  simp [offline] at mirrors

theorem availability_mirrored_once_connected :
    ∃ ms p, Run step (start 4 12 1) ms p ∧ p.mqtt.connected = true ∧
      p.store.available = false ∧ ∀ m ∈ ms, m.after.Mirrors := by
  have fed : (feed step (start 4 12 1) [.connect, .onConnect, .store .noteWedged]).any
      (fun r => r.1.mqtt.connected && !r.1.store.available &&
        r.2.all fun m => decide (m.event = .onConnect) → m.before.store.available) = true := by
    decide +kernel
  obtain ⟨ms, p, run, _, reached⟩ := Runs.feed_reaches fed
  simp only [Bool.and_eq_true, Bool.not_eq_true', List.all_eq_true, decide_eq_true_eq] at reached
  obtain ⟨⟨connected, offline⟩, met⟩ := reached
  exact ⟨ms, p, run, connected, offline, (availability_mirrored_iff run).mpr met⟩

end StatePublisher

end R60V
