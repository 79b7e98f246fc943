import R60V.Bridge.Broker
import R60V.Lib.Spacing

/-! How much of the machine the poll loop asks: when its turns come, which of them read the
settings, and how many jobs they submit. -/
namespace R60V

open Runs (Run Move outputs feed)

def isPoll : Effect → Bool
  | .submit .poll _ => true
  | _ => false

/-- How many jobs the poll loop has submitted. -/
def polls (effects : List Effect) : Nat := effects.countP isPoll

/-- A turn of the poll loop, from the moment when it wakes. -/
structure Cycle where
  time : ℚ
  -- How many turns before it found that data was wanted.
  number : Nat
  resumed : Bool
  wanted : Bool
  resting : Bool
  probing : Bool
  settings : Bool
  deriving DecidableEq

namespace Cycle

/-- It sweeps the live registers. -/
def full (c : Cycle) : Bool := c.wanted && !c.resting && !c.probing

/-- The jobs that it may submit. -/
def jobs (c : Cycle) : Nat := c.settings.toNat + if c.full then liveRegisters.length else 0

/-- It reads the settings though their turn has not come. -/
def extra (c : Cycle) : Bool := c.settings && (c.probing || c.resumed)

def regular (c : Cycle) : Bool := c.settings && !(c.probing || c.resumed)

/-- The place of a turn after the ones before it, and what follows from it for the settings: they
are read unless the machine rests, as a probe, where data is wanted again after it was not, and in
every so many of the turns that find it wanted. -/
structure Placed (cfg : BrokerConfig) (front : List Cycle) (c : Cycle) : Prop where
  number : c.number = front.countP Cycle.wanted
  resumed : c.resumed = front.getLast?.all fun before => !before.wanted
  settings : c.settings = (c.wanted && !c.resting &&
    (c.probing || c.resumed || c.number % cfg.settingsEvery == 0))

end Cycle

namespace Poller

variable (cfg : BrokerConfig) (now : ℚ)

def midway (p : Poller) : Bool :=
  match p.point with
  | .off | .sleeping _ => false
  | _ => true

/-- How many jobs are still to come in the turn. -/
def due (p : Poller) : Nat :=
  match p.point with
  | .settings => liveRegisters.length
  | .live _ _ rest => rest.length
  | _ => 0

/-- When the loop goes on. -/
def goesOnAt (p : Poller) : ℚ :=
  match p.point with
  | .sleeping wakeAt => wakeAt
  | _ => now

theorem goesOnAt_midway (p : Poller) (now : ℚ) (midway : p.midway = true) :
    p.goesOnAt now = now := by
  unfold Poller.midway at midway
  unfold Poller.goesOnAt
  split at midway <;> simp_all

/-- What a segment does within a turn, which may submit so many jobs. -/
structure Goes (allowance : Nat) (p p' : Poller) (effects : List Effect) : Prop where
  idle : p'.idle = p.idle
  ticks : (p'.midway = true ∧ p'.tick = p.tick) ∨
    (p'.point = .sleeping (now + cfg.interval) ∧ p'.tick = p.tick + 1)
  jobs : polls effects + p'.due ≤ allowance

variable {cfg now} {wants : Bool} {d : Device} {p : Poller} {e : PollEvent}
  {r : Device × Poller × List Effect}

theorem share_goes (cfg : BrokerConfig) (now : ℚ) (d : Device) (p : Poller) (allowance : Nat) :
    p.Goes cfg now allowance (p.share cfg now d).2.1 (p.share cfg now d).2.2 := by
  unfold share
  split
  · exact ⟨rfl, Or.inl ⟨rfl, rfl⟩, Nat.zero_le _⟩
  · exact ⟨rfl, Or.inr ⟨rfl, rfl⟩, Nat.zero_le _⟩

/-- What is no job of the loop goes beside the jobs. -/
theorem Goes.beside {allowance : Nat} {p p' : Poller} {effects : List Effect}
    (goes : p.Goes cfg now allowance p' effects) (others : List Effect) (quiet : polls others = 0) :
    p.Goes cfg now allowance p' (others ++ effects) :=
  ⟨goes.idle, goes.ticks, by
    have jobs := goes.jobs
    rwa [polls, List.countP_append, ← polls, ← polls, quiet, Nat.zero_add]⟩

theorem readLive_goes (cfg : BrokerConfig) (now : ℚ) (d : Device) (p : Poller)
    (registers : List (Nat × Nat)) :
    p.Goes cfg now registers.length (p.readLive cfg now d registers).2.1
      (p.readLive cfg now d registers).2.2 := by
  cases registers with
  | nil => exact (share_goes cfg now _ p 0).beside [.noted true] rfl
  | cons register rest =>
    refine ⟨rfl, Or.inl ⟨rfl, rfl⟩, ?_⟩
    exact (Nat.add_comm 1 rest.length).le

theorem failed_goes (cfg : BrokerConfig) (now : ℚ) (d : Device) (p : Poller) (allowance : Nat) :
    p.Goes cfg now allowance (p.failed cfg now d).2.1 (p.failed cfg now d).2.2 := by
  unfold failed
  dsimp only
  split
  · exact ⟨rfl, Or.inl ⟨rfl, rfl⟩, Nat.zero_le _⟩
  · exact (share_goes cfg now _ p allowance).beside [.noted false] rfl

theorem probed_goes (cfg : BrokerConfig) (now : ℚ) (d : Device) (p : Poller) (data : List Int)
    (allowance : Nat) :
    p.Goes cfg now allowance (p.probed cfg now d data).2.1 (p.probed cfg now d data).2.2 := by
  unfold probed
  dsimp only
  split
  · exact (share_goes cfg now _ p allowance).beside [.settingsRead data, .noted true] rfl
  · exact (share_goes cfg now _ p allowance).beside [.settingsRead data] rfl

/-- The jobs of a turn, by the turn that it is. -/
theorem turn_goes (cfg : BrokerConfig) (now : ℚ) (d : Device) (p : Poller) (readSettings : Bool) :
    let resting := d.wedge.inCooldown now
    let probing := d.wedge.awaitingProbe now
    let settings := !resting && (probing || readSettings)
    (p.turn cfg now d readSettings).2.2.contains (.submit .poll settingsCall) = settings ∧
    p.Goes cfg now (settings.toNat + if !resting && !probing then liveRegisters.length else 0)
      (p.turn cfg now d readSettings).2.1 (p.turn cfg now d readSettings).2.2 := by
  have asks : [Effect.submit .poll settingsCall].contains (.submit .poll settingsCall) = true := by
    decide
  have sweeps : [Effect.submit .poll (.read Address.currentBrewTemp 1)].contains
      (.submit .poll settingsCall) = false := by decide
  unfold turn pollOnce
  cases d.wedge.inCooldown now with
  | true => exact ⟨rfl, rfl, Or.inl ⟨rfl, rfl⟩, Nat.zero_le _⟩
  | false =>
    cases d.wedge.awaitingProbe now with
    | true => exact ⟨asks, rfl, Or.inl ⟨rfl, rfl⟩, le_rfl⟩
    | false =>
      cases readSettings with
      | true => exact ⟨asks, rfl, Or.inl ⟨rfl, rfl⟩, le_rfl⟩
      | false => exact ⟨sweeps, readLive_goes cfg now d p liveRegisters⟩

/-- What a segment of the loop can do to its turns. -/
inductive Turns (cfg : BrokerConfig) (now : ℚ) (wants : Bool) (d : Device) (p p' : Poller) :
    PollEvent → List Effect → Prop where
  | slept {wakeAt : ℚ} (point : p.point = .sleeping wakeAt) (due : wakeAt ≤ now)
      (unwanted : wants = false) (idle : p'.idle = true) (tick : p'.tick = p.tick)
      (again : p'.point = .sleeping (now + cfg.interval)) : Turns cfg now wants d p p' .wake []
  | woke {wakeAt : ℚ} {effects : List Effect} (point : p.point = .sleeping wakeAt)
      (due : wakeAt ≤ now) (wanted : wants = true)
      (reads : effects.contains (.submit .poll settingsCall) = (!d.wedge.inCooldown now &&
        (d.wedge.awaitingProbe now || (p.idle || p.tick % cfg.settingsEvery == 0))))
      (goes : ({ p with idle := false } : Poller).Goes cfg now
        ((effects.contains (.submit .poll settingsCall)).toNat +
          if !d.wedge.inCooldown now && !d.wedge.awaitingProbe now then liveRegisters.length else 0)
        p' effects) : Turns cfg now wants d p p' .wake effects
  | goes {e : PollEvent} {effects : List Effect} (other : e ≠ .wake) (midway : p.midway = true)
      (goes : p.Goes cfg now p.due p' effects) : Turns cfg now wants d p p' e effects

theorem step_turns (h : p.step cfg now wants d e = some r) :
    p.Turns cfg now wants d r.2.1 e r.2.2 := by
  have late : e = .wake → ∀ wakeAt, p.point = .sleeping wakeAt → wakeAt ≤ now := by
    rintro rfl wakeAt point
    simp only [step, point] at h
    split at h
    · cases h
    · rename_i due
      exact not_lt.mp due
  cases step_stepped h with
  | slept point idle => exact .slept point (late rfl _ point) idle rfl rfl rfl
  | turned point wanted =>
    obtain ⟨reads, goes⟩ := turn_goes cfg now d { p with idle := false }
      (p.idle || p.tick % cfg.settingsEvery == 0)
    exact .woke point (late rfl _ point) wanted reads (reads ▸ goes)
  | @probed data point _ =>
    exact .goes (by simp) (by simp [midway, point]) (probed_goes cfg now d p data _)
  | relapsed point =>
    exact .goes (by simp) (by simp [midway, point]) ⟨rfl, Or.inl ⟨rfl, rfl⟩, Nat.zero_le _⟩
  | @settings data point _ =>
    have goes := (readLive_goes cfg now ⟨d.store.updateSettings data, d.wedge⟩ p
      liveRegisters).beside [.settingsRead data] rfl
    have due : p.due = liveRegisters.length := by simp [due, point]
    exact .goes (by simp) (by simp [midway, point]) (due ▸ goes)
  | @live address _ rest data point _ =>
    have goes := readLive_goes cfg now ⟨d.store.updateLive now address data, d.wedge⟩ p rest
    have due : p.due = rest.length := by simp [due, point]
    exact .goes (by simp) (by simp [midway, point]) (due ▸ goes)
  | failed cycle =>
    refine .goes (by simp) ?_ (failed_goes cfg now d p _)
    unfold inCycle at cycle
    unfold midway
    split at cycle <;> simp_all
  | closed point =>
    exact .goes (by simp) (by simp [midway, point]) (share_goes cfg now d p _)
  | broadcast point =>
    exact .goes (by simp) (by simp [midway, point]) ⟨rfl, Or.inr ⟨rfl, rfl⟩, Nat.zero_le _⟩

end Poller

theorem publish_polls (now : ℚ) (store : DeviceState) : polls (publish now store).2 = 0 := by
  unfold publish
  split <;> rfl

theorem CommandLoop.step_polls {now : ℚ} {store : DeviceState} {loop : CommandLoop}
    {e : CommandEvent} {r : DeviceState × CommandLoop × Option Exc × List Effect}
    (h : loop.step now store e = some r) : polls r.2.2.2 = 0 := by
  cases step_stepped h with
  | @take c =>
    unfold take
    split <;> rfl
  | wrote => rfl
  | writeFailed | readFailed =>
    unfold failed
    split <;> rfl
  | readBack => exact publish_polls _ _

theorem IntentLoop.step_polls {now : ℚ} {wedge : WedgeRecovery} {store : DeviceState}
    {loop : IntentLoop} {e : IntentEvent} {r : DeviceState × IntentLoop × List Effect}
    (h : loop.step now wedge store e = some r) : polls r.2.2 = 0 := by
  have enters : ∀ (loop : IntentLoop) (i : Intent), polls (loop.enter now wedge i).2 = 0 := by
    intro loop i
    unfold enter
    split <;> rfl
  cases step_stepped h with
  | take | waited => exact enters _ _
  | @written i attempt result =>
    unfold written
    split
    · rfl
    · split
      · split <;> rfl
      · rfl
  | retried | readBack | readFailed | readLost | shared => rfl

namespace Broker

variable {cfg : BrokerConfig} {b b' : Broker} {e : Event} {effects : List Effect}

/-- The turn of the poll loop that a move begins. -/
def cycleOf (cfg : BrokerConfig) (m : Move Broker Event Effect) : Option Cycle :=
  match m.event with
  | .poll .wake => some
      { time := m.before.now
        number := m.before.poller.tick
        resumed := m.before.poller.idle
        wanted := m.before.wantsData cfg
        resting := m.before.device.wedge.inCooldown m.before.now
        probing := m.before.device.wedge.awaitingProbe m.before.now
        settings := m.emits.contains (.submit .poll settingsCall) }
  | _ => none

def cycles (cfg : BrokerConfig) (ms : List (Move Broker Event Effect)) : List Cycle :=
  ms.filterMap (cycleOf cfg)

theorem cycles_snoc (ms : List (Move Broker Event Effect)) (m : Move Broker Event Effect) :
    cycles cfg (ms ++ [m]) = cycles cfg ms ++ (cycleOf cfg m).toList := by
  rw [cycles, List.filterMap_append, ← cycles]
  cases one : cycleOf cfg m with
  | none => rw [List.filterMap_cons_none one, List.filterMap_nil, Option.toList_none]
  | some c => rw [List.filterMap_cons_some one, List.filterMap_nil, Option.toList_some]

/-- Only the poll loop submits its jobs. -/
theorem step_polls (h : step cfg b e = some (b', effects)) (other : ∀ e', e ≠ .poll e') :
    polls effects = 0 ∧ b'.poller = b.poller ∧ b.now ≤ b'.now := by
  cases (step_stepped h).2 with
  | poll => exact absurd rfl (other _)
  | advance forward => exact ⟨rfl, rfl, by simpa using forward⟩
  | subscribe | unsubscribe | mqttMessage => exact ⟨rfl, rfl, le_rfl⟩
  | publish => exact ⟨publish_polls b.now b.device.store, rfl, le_rfl⟩
  | command commanded => exact ⟨CommandLoop.step_polls commanded, rfl, le_rfl⟩
  | intent applied => exact ⟨IntentLoop.step_polls applied, rfl, le_rfl⟩
  | wsCommand _ received =>
    unfold IntentLoop.onWsCommand at received
    split at received
    · cases received
      exact ⟨rfl, rfl, le_rfl⟩
    · split at received
      · cases received
        exact ⟨rfl, rfl, le_rfl⟩
      · cases received
        exact ⟨rfl, rfl, le_rfl⟩
  | frontendFrame =>
    refine ⟨?_, rfl, le_rfl⟩
    unfold dispatch
    split
    · rfl
    · split <;> rfl

/-- The turns so far against the state of the loop. -/
structure OnCadence (cfg : BrokerConfig) (cs : List Cycle) (b : Broker) : Prop where
  begun : 0 ≤ b.now
  past : ∀ c ∈ cs, 0 ≤ c.time ∧ c.time ≤ b.now
  rested : ∀ wakeAt, b.poller.point = .sleeping wakeAt →
    ∀ c ∈ cs, c.time + cfg.interval ≤ wakeAt
  paced : ∀ c ∈ cs, c.wanted = true → c.number < b.poller.tick + b.poller.midway.toNat ∧
    c.time + ((b.poller.tick : ℚ) - c.number) * cfg.interval ≤ b.poller.goesOnAt b.now
  count : b.poller.tick + b.poller.midway.toNat = cs.countP Cycle.wanted
  idle : b.poller.idle = cs.getLast?.all fun c => !c.wanted

theorem interval_pos (cfg : BrokerConfig) : 0 < cfg.interval :=
  lt_of_lt_of_le (by norm_num) (le_max_left _ _)

theorem start_onCadence (cfg : BrokerConfig) : OnCadence cfg [] (start cfg) := by
  refine ⟨le_rfl, by simp, by simp, by simp, ?_, rfl⟩
  cases consumer : cfg.hasConsumer <;> simp [start, consumer, Poller.midway]

variable {cs : List Cycle} {d : Device} {p : Poller}

theorem OnCadence.stays (kept : OnCadence cfg cs b) (same : b'.poller = b.poller)
    (later : b.now ≤ b'.now) : OnCadence cfg cs b' := by
  refine ⟨kept.begun.trans later, fun c member => ?_, ?_, ?_, ?_, ?_⟩
  · obtain ⟨begun, past⟩ := kept.past c member
    exact ⟨begun, past.trans later⟩
  · rw [same]
    exact kept.rested
  · intro c member wanted
    obtain ⟨before, pace⟩ := kept.paced c member wanted
    rw [same]
    refine ⟨before, pace.trans ?_⟩
    unfold Poller.goesOnAt
    split
    · exact le_rfl
    · exact later
  · rw [same]
    exact kept.count
  · rw [same]
    exact kept.idle

/-- Within a turn. -/
theorem OnCadence.goes (kept : OnCadence cfg cs b) (midway : b.poller.midway = true)
    {allowance : Nat} (goes : b.poller.Goes cfg b.now allowance p effects) :
    OnCadence cfg cs { b with device := d, poller := p } := by
  have here := b.poller.goesOnAt_midway b.now midway
  have count := kept.count
  rw [midway, Bool.toNat_true] at count
  rcases goes.ticks with ⟨still, tick⟩ | ⟨point, tick⟩
  · have there := p.goesOnAt_midway b.now still
    refine ⟨kept.begun, kept.past, fun wakeAt point => ?_, fun c member wanted => ?_, ?_, ?_⟩
    · have asleep : p.midway = false := by simp [Poller.midway, show p.point = _ from point]
      cases still.symm.trans asleep
    · have paced := kept.paced c member wanted
      rw [midway, here, Bool.toNat_true] at paced
      dsimp only
      rwa [still, there, tick, Bool.toNat_true]
    · dsimp only
      rwa [still, tick, Bool.toNat_true]
    · exact goes.idle.trans kept.idle
  · have asleep : p.midway = false := by simp [Poller.midway, point]
    have there : p.goesOnAt b.now = b.now + cfg.interval := by simp [Poller.goesOnAt, point]
    refine ⟨kept.begun, kept.past, fun wakeAt point' => ?_, fun c member wanted => ?_, ?_, ?_⟩
    · cases point.symm.trans point'
      exact fun c member => by linarith [(kept.past c member).2]
    · obtain ⟨before, pace⟩ := kept.paced c member wanted
      rw [midway, Bool.toNat_true] at before
      rw [here] at pace
      dsimp only
      rw [there, asleep, tick, Bool.toNat_false]
      refine ⟨by omega, ?_⟩
      push_cast
      linarith
    · dsimp only
      rwa [asleep, tick, Bool.toNat_false]
    · exact goes.idle.trans kept.idle

/-- A turn comes after the others, in time and by its number. -/
structure After (cfg : BrokerConfig) (cs : List Cycle) (c : Cycle) : Prop where
  placed : c.Placed cfg cs
  rested : ∀ before ∈ cs, before.time + cfg.interval ≤ c.time
  paced : ∀ before ∈ cs, before.wanted = true → before.number < c.number ∧
    before.time + ((c.number : ℚ) - before.number) * cfg.interval ≤ c.time

/-- What the loop finds when it wakes. -/
structure Wakes (cfg : BrokerConfig) (b : Broker) (wakeAt : ℚ) (c : Cycle) : Prop where
  point : b.poller.point = .sleeping wakeAt
  due : wakeAt ≤ b.now
  time : c.time = b.now
  number : c.number = b.poller.tick
  resumed : c.resumed = b.poller.idle
  settings : c.settings = (c.wanted && !c.resting &&
    (c.probing || c.resumed || c.number % cfg.settingsEvery == 0))

variable {wakeAt : ℚ} {c : Cycle}

theorem Wakes.asleep (wakes : Wakes cfg b wakeAt c) :
    b.poller.midway = false ∧ b.poller.goesOnAt b.now = wakeAt := by
  simp [Poller.midway, Poller.goesOnAt, wakes.point]

theorem OnCadence.begins (kept : OnCadence cfg cs b) (wakes : Wakes cfg b wakeAt c) :
    After cfg cs c := by
  obtain ⟨asleep, there⟩ := wakes.asleep
  refine ⟨⟨?_, wakes.resumed.trans kept.idle, wakes.settings⟩, fun before member => ?_,
    fun before member wanted => ?_⟩
  · rw [wakes.number, ← kept.count, asleep, Bool.toNat_false, Nat.add_zero]
  · rw [wakes.time]
    exact (kept.rested wakeAt wakes.point before member).trans wakes.due
  · obtain ⟨less, pace⟩ := kept.paced before member wanted
    rw [asleep, Bool.toNat_false, Nat.add_zero] at less
    rw [there] at pace
    rw [wakes.time, wakes.number]
    exact ⟨less, pace.trans wakes.due⟩

theorem OnCadence.past_snoc (kept : OnCadence cfg cs b) (wakes : Wakes cfg b wakeAt c) :
    ∀ before ∈ cs ++ [c], 0 ≤ before.time ∧ before.time ≤ b.now := by
  intro before member
  rcases List.mem_append.mp member with member | member
  · exact kept.past before member
  · rw [List.mem_singleton.mp member, wakes.time]
    exact ⟨kept.begun, le_rfl⟩

/-- A turn that finds that no data is wanted. -/
theorem OnCadence.slept (kept : OnCadence cfg cs b) (wakes : Wakes cfg b wakeAt c)
    (unwanted : c.wanted = false) (idle : p.idle = true) (tick : p.tick = b.poller.tick)
    (again : p.point = .sleeping (b.now + cfg.interval)) :
    OnCadence cfg (cs ++ [c]) { b with device := d, poller := p } := by
  have positive := interval_pos cfg
  obtain ⟨asleep, here⟩ := wakes.asleep
  have asleep' : p.midway = false := by simp [Poller.midway, again]
  have there : p.goesOnAt b.now = b.now + cfg.interval := by simp [Poller.goesOnAt, again]
  refine ⟨kept.begun, kept.past_snoc wakes, fun wakeAt' point' => ?_,
    fun before member wanted => ?_, ?_, ?_⟩
  · cases again.symm.trans point'
    exact fun before member => by linarith [(kept.past_snoc wakes before member).2]
  · rcases List.mem_append.mp member with member | member
    · obtain ⟨less, pace⟩ := kept.paced before member wanted
      rw [here] at pace
      rw [asleep] at less
      dsimp only
      rw [asleep', there, tick]
      exact ⟨less, by linarith [wakes.due]⟩
    · rw [List.mem_singleton.mp member, unwanted] at wanted
      cases wanted
  · have count := kept.count
    rw [asleep] at count
    dsimp only
    rw [asleep', tick, count, List.countP_append]
    simp [unwanted]
  · simp [idle, unwanted]

/-- A turn that finds that data is wanted is under way. -/
theorem OnCadence.woke (kept : OnCadence cfg cs b) (wakes : Wakes cfg b wakeAt c)
    (wanted : c.wanted = true) (idle : p.idle = false) (tick : p.tick = b.poller.tick)
    (midway : p.midway = true) : OnCadence cfg (cs ++ [c]) { b with poller := p } := by
  obtain ⟨asleep, here⟩ := wakes.asleep
  have there := p.goesOnAt_midway b.now midway
  refine ⟨kept.begun, kept.past_snoc wakes, fun wakeAt' point' => ?_,
    fun before member wanted => ?_, ?_, ?_⟩
  · have asleep' : p.midway = false := by simp [Poller.midway, show p.point = _ from point']
    cases midway.symm.trans asleep'
  · dsimp only
    rw [midway, there, tick, Bool.toNat_true]
    rcases List.mem_append.mp member with member | member
    · obtain ⟨less, pace⟩ := kept.paced before member wanted
      rw [asleep, Bool.toNat_false] at less
      rw [here] at pace
      exact ⟨by omega, pace.trans wakes.due⟩
    · rw [List.mem_singleton.mp member, wakes.number, wakes.time]
      exact ⟨by omega, by simp⟩
  · have count := kept.count
    rw [asleep] at count
    dsimp only
    rw [midway, tick, List.countP_append, ← count]
    simp [wanted]
  · simp [idle, wanted]

theorem step_cadence (kept : OnCadence cfg cs b) (h : step cfg b e = some (b', effects)) :
    OnCadence cfg (cs ++ (cycleOf cfg ⟨b, e, effects, b'⟩).toList) b' ∧
    (∀ c, cycleOf cfg ⟨b, e, effects, b'⟩ = some c → After cfg cs c) ∧
    polls effects + b'.poller.due ≤
      b.poller.due + ((cycleOf cfg ⟨b, e, effects, b'⟩).map Cycle.jobs).getD 0 := by
  by_cases poll : ∃ e', e = .poll e'
  · obtain ⟨e', rfl⟩ := poll
    cases (step_stepped h).2 with
    | @poll _ d p _ polled =>
      cases Poller.step_turns polled with
      | @slept wakeAt point due unwanted idle tick again =>
        have wakes : Wakes cfg b wakeAt ⟨b.now, b.poller.tick, b.poller.idle, b.wantsData cfg,
            b.device.wedge.inCooldown b.now, b.device.wedge.awaitingProbe b.now, false⟩ :=
          ⟨point, due, rfl, rfl, rfl, by simp [unwanted]⟩
        refine ⟨kept.slept wakes unwanted idle tick again, fun c same => ?_, ?_⟩
        · cases same
          exact kept.begins wakes
        · have none_ : p.due = 0 := by simp [Poller.due, show p.point = _ from again]
          dsimp only
          rw [none_]
          exact Nat.zero_le _
      | @woke wakeAt _ point due wanted reads goes =>
        have wakes : Wakes cfg b wakeAt ⟨b.now, b.poller.tick, b.poller.idle, b.wantsData cfg,
            b.device.wedge.inCooldown b.now, b.device.wedge.awaitingProbe b.now,
            effects.contains (.submit .poll settingsCall)⟩ :=
          ⟨point, due, rfl, rfl, rfl, by simp only [reads, wanted, Bool.true_and, Bool.or_assoc]⟩
        have under := kept.woke (p := ⟨b.poller.tick, false, .closing⟩) wakes wanted rfl rfl rfl
        refine ⟨under.goes rfl ⟨goes.idle, goes.ticks, goes.jobs⟩, fun c same => ?_, ?_⟩
        · cases same
          exact kept.begins wakes
        · have none_ : b.poller.due = 0 := by simp [Poller.due, point]
          have jobs := goes.jobs
          rw [none_, Nat.zero_add]
          simpa only [cycleOf, Option.map_some, Option.getD_some, Cycle.jobs, Cycle.full, wanted,
            Bool.true_and] using jobs
      | goes other midway goes =>
        have none_ : cycleOf cfg ⟨b, .poll e', effects, { b with device := d, poller := p }⟩ =
            none := by
          cases e' with
          | wake => exact absurd rfl other
          | _ => rfl
        rw [none_]
        refine ⟨?_, by simp, goes.jobs⟩
        simpa using kept.goes midway goes
  · have other : ∀ e', e ≠ .poll e' := fun e' same => poll ⟨e', same⟩
    obtain ⟨quiet, same, later⟩ := step_polls h other
    have none_ : cycleOf cfg ⟨b, e, effects, b'⟩ = none := by
      cases e with
      | poll e' => exact absurd rfl (other e')
      | _ => rfl
    rw [none_, quiet, same]
    exact ⟨by simpa using kept.stays same later, by simp, by simp⟩

theorem sum_jobs (cs : List Cycle) : (cs.map Cycle.jobs).sum =
    cs.countP Cycle.settings + liveRegisters.length * cs.countP Cycle.full := by
  induction cs with
  | nil => rfl
  | cons c cs ih =>
    rw [List.map_cons, List.sum_cons, ih, List.countP_cons, List.countP_cons, Cycle.jobs, mul_add]
    cases c.settings <;> cases c.full <;> simp <;> omega

theorem count_settings (cs : List Cycle) :
    cs.countP Cycle.settings = (cs.filter Cycle.regular).length + cs.countP Cycle.extra := by
  induction cs with
  | nil => rfl
  | cons c cs ih =>
    rw [List.countP_cons, List.countP_cons, List.filter_cons, ih, Cycle.regular, Cycle.extra]
    cases c.settings <;> cases c.probing || c.resumed <;> simp <;> omega

/-- How far a turn is from an earlier one. -/
def Cycle.Later (cfg : BrokerConfig) (before c : Cycle) : Prop :=
  before.time + cfg.interval ≤ c.time ∧ (before.wanted = true → before.number < c.number ∧
    before.time + ((c.number : ℚ) - before.number) * cfg.interval ≤ c.time)

/-- The turns of a run. -/
theorem run_cadence {ms : List (Move Broker Event Effect)} (run : Run (step cfg) (start cfg) ms b) :
    OnCadence cfg (cycles cfg ms) b ∧
    Runs.Along (fun front m => ∀ c, cycleOf cfg m = some c → c.Placed cfg (cycles cfg front)) ms ∧
    (∀ c ∈ cycles cfg ms, ∃ front, c.Placed cfg front) ∧
    (cycles cfg ms).Pairwise (Cycle.Later cfg) ∧
    polls (outputs ms) + b.poller.due ≤ ((cycles cfg ms).map Cycle.jobs).sum := by
  induction run with
  | nil =>
    have along : Runs.Along (fun front (m : Move Broker Event Effect) => ∀ c,
        cycleOf cfg m = some c → c.Placed cfg (cycles cfg front)) [] := by
      intro front m back same
      simp at same
    refine ⟨start_onCadence cfg, along, by simp [cycles], .nil, ?_⟩
    cases consumer : cfg.hasConsumer <;> simp [start, consumer, Poller.due, polls]
  | @snoc ms b b' e effects _ h ih =>
    obtain ⟨kept, along, placed, spaced, jobs⟩ := ih
    obtain ⟨kept', after, more⟩ := step_cadence kept h
    rw [cycles_snoc, Runs.outputs_snoc, polls, List.countP_append, ← polls, ← polls]
    refine ⟨kept', Runs.along_snoc.mpr ⟨along, fun c new => (after c new).placed⟩, ?_, ?_, ?_⟩
    · intro c member
      rcases List.mem_append.mp member with member | member
      · exact placed c member
      · exact ⟨_, (after c (by simpa using member)).placed⟩
    · cases new : cycleOf cfg ⟨b, e, effects, b'⟩ with
      | none => simpa using spaced
      | some c =>
        have last := after c new
        refine List.pairwise_append.mpr ⟨spaced, List.pairwise_singleton _ _, ?_⟩
        intro before member c' same
        rw [List.mem_singleton.mp same]
        exact ⟨last.rested before member, last.paced before member⟩
    · rw [List.map_append, List.sum_append]
      have same : ((cycleOf cfg ⟨b, e, effects, b'⟩).toList.map Cycle.jobs).sum =
          ((cycleOf cfg ⟨b, e, effects, b'⟩).map Cycle.jobs).getD 0 := by
        cases cycleOf cfg ⟨b, e, effects, b'⟩ <;> simp
      change polls (outputs ms) + polls effects + b'.poller.due ≤ _
      omega

/-- So many turns of which every so many reads. -/
theorem regular_spaced {cs : List Cycle} (placed : ∀ c ∈ cs, ∃ front, c.Placed cfg front)
    (spaced : cs.Pairwise (Cycle.Later cfg)) : (cs.filter Cycle.regular).Pairwise fun c c' =>
      c.time + cfg.settingsEvery * cfg.interval ≤ c'.time := by
  have turns : ∀ c ∈ cs.filter Cycle.regular, c.wanted = true ∧ cfg.settingsEvery ∣ c.number := by
    intro c member
    obtain ⟨listed, regular⟩ := List.mem_filter.mp member
    obtain ⟨front, -, -, settings⟩ := placed c listed
    rw [Cycle.regular, settings] at regular
    simp only [Bool.and_eq_true, Bool.not_eq_true', Bool.or_eq_true, Bool.or_eq_false_iff,
      beq_iff_eq] at regular
    obtain ⟨⟨⟨wanted, -⟩, turn⟩, probing, resumed⟩ := regular
    rw [probing, resumed] at turn
    exact ⟨wanted, Nat.dvd_of_mod_eq_zero (by simpa using turn)⟩
  refine (spaced.filter _).imp_of_mem fun member member' later => ?_
  obtain ⟨wanted, turn⟩ := turns _ member
  obtain ⟨-, turn'⟩ := turns _ member'
  obtain ⟨less, pace⟩ := later.2 wanted
  have far : cfg.settingsEvery ≤ _ :=
    Nat.le_of_dvd (Nat.sub_pos_of_lt less) (Nat.dvd_sub turn' turn)
  have far' : (cfg.settingsEvery : ℚ) ≤ _ := Nat.cast_le.mpr far
  rw [Nat.cast_sub less.le] at far'
  have longer := mul_le_mul_of_nonneg_right far' (interval_pos cfg).le
  linarith

/-- **The machine is read on the cadence.** In every run: the turns of the poll loop keep the
interval; each of them reads the settings exactly where its place after the ones before it says
so; those that read them in their turn are `settingsEvery` intervals apart, so that in all the
settings are read no more often than that beyond the probes and the times when data is wanted again;
and with the settings and the sweeps of the live registers nothing else is asked for. -/
theorem polls_on_cadence {ms : List (Move Broker Event Effect)}
    (run : Run (step cfg) (start cfg) ms b) :
    (cycles cfg ms).Pairwise (fun c c' => c.time + cfg.interval ≤ c'.time) ∧
    Runs.Along (fun front m => ∀ c, cycleOf cfg m = some c → c.Placed cfg (cycles cfg front)) ms ∧
    ((cycles cfg ms).filter Cycle.regular).Pairwise (fun c c' =>
      c.time + cfg.settingsEvery * cfg.interval ≤ c'.time) ∧
    ((cycles cfg ms).countP Cycle.settings : ℚ) * (cfg.settingsEvery * cfg.interval) ≤
      b.now + (1 + (cycles cfg ms).countP Cycle.extra) * (cfg.settingsEvery * cfg.interval) ∧
    polls (outputs ms) ≤ (cycles cfg ms).countP Cycle.settings +
      liveRegisters.length * (cycles cfg ms).countP Cycle.full := by
  obtain ⟨kept, along, placed, spaced, jobs⟩ := run_cadence run
  have regular := regular_spaced placed spaced
  refine ⟨spaced.imp fun later => later.1, along, regular, ?_, ?_⟩
  · have spread : (((cycles cfg ms).filter Cycle.regular).map Cycle.time).Pairwise fun x y =>
        x + cfg.settingsEvery * cfg.interval ≤ y := List.pairwise_map.mpr regular
    have crowd := Spacing.crowd_le
      (mul_nonneg (Nat.cast_nonneg cfg.settingsEvery) (interval_pos cfg).le) spread kept.begun (by
        intro x member
        obtain ⟨c, listed, rfl⟩ := List.mem_map.mp member
        exact kept.past c (List.mem_filter.mp listed).1)
    rw [List.length_map] at crowd
    rw [count_settings]
    push_cast
    linarith
  · rw [sum_jobs] at jobs
    exact (Nat.le_add_right _ _).trans jobs

def sweep : List Event :=
  [.poll (.read (.ok [20])), .poll (.read (.ok [20])), .poll (.read (.ok [0])),
    .poll (.read (.ok (List.replicate 16 32)))]

/-- Of the first two turns the first reads the settings, and both sweep the live registers. -/
theorem two_turns_on_cadence :
    ∃ ms b, Run (step mqttConfig) (start mqttConfig) ms b ∧
      (cycles mqttConfig ms).map Cycle.settings = [true, false] ∧
      (cycles mqttConfig ms).Pairwise (fun c c' => c.time + mqttConfig.interval ≤ c'.time) ∧
      polls (outputs ms) ≤ (cycles mqttConfig ms).countP Cycle.settings +
        liveRegisters.length * (cycles mqttConfig ms).countP Cycle.full := by
  have fed : (feed (step mqttConfig) (start mqttConfig) ([.poll .wake,
      .poll (.read (.ok (List.replicate 115 0)))] ++ sweep ++
      [.advance 10, .poll .wake] ++ sweep)).any
      (fun r => (cycles mqttConfig r.2).map Cycle.settings == [true, false]) = true := by
    decide +kernel
  obtain ⟨ms, b, run, _, reads⟩ := Runs.feed_reaches fed
  have cadence := polls_on_cadence run
  exact ⟨ms, b, run, beq_iff_eq.mp reads, cadence.1, cadence.2.2.2.2⟩

end Broker

end R60V
