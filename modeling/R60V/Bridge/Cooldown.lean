import R60V.Bridge.Broker
import R60V.Lib.Runs

/-! Cooldowns: what the store shows while one lasts, and who submits during it. The
poll loop keeps both promises; the paths of the other tasks that break them are named,
and a run keeps the promise exactly when it does not take such a path. -/
namespace R60V

open Runs (Run Move feed)

/-- A cooldown that has not ended, waited out or not, goes with an offline verdict. -/
def Device.Offline (d : Device) : Prop :=
  d.wedge.cooldownUntil ≠ none → d.store.verdict = some false

namespace Poller

variable {cfg : BrokerConfig} {now : ℚ} {d : Device} {p : Poller}

/-- Where the poll loop is says something about the wedge, which no other task writes. -/
structure Fits (now : ℚ) (wedge : WedgeRecovery) (p : Poller) : Prop where
  cycle : p.inCycle = true → wedge.cooldownUntil = none
  probe : p.point = .probing → wedge.inCooldown now = false ∧ wedge.cooldownUntil ≠ none

structure Calm (now : ℚ) (d : Device) (r : Device × Poller × List Effect) : Prop where
  fits : r.2.1.Fits now r.1.wedge
  offline : d.Offline → r.1.Offline
  submits : ∀ source op, .submit source op ∈ r.2.2 → d.wedge.inCooldown now = false

theorem Calm.cons {r : Device × Poller × List Effect} (calm : Calm now d r) {e : Effect}
    (other : ∀ source op, e ≠ .submit source op) : Calm now d (r.1, r.2.1, e :: r.2.2) where
  fits := calm.fits
  offline := calm.offline
  submits source op member := by
    rcases List.mem_cons.mp member with here | there
    · exact absurd here.symm (other source op)
    · exact calm.submits source op there

theorem Calm.of_change {r : Device × Poller × List Effect} {d₁ : Device} (calm : Calm now d₁ r)
    (offline : d.Offline → d₁.Offline)
    (submits : ∀ source op, .submit source op ∈ r.2.2 → d.wedge.inCooldown now = false) :
    Calm now d r :=
  ⟨calm.fits, calm.offline ∘ offline, submits⟩

theorem Calm.of_same {r : Device × Poller × List Effect} {d₁ : Device} (calm : Calm now d₁ r)
    (wedge : d₁.wedge = d.wedge) (verdict : d₁.store.verdict = d.store.verdict) :
    Calm now d r := by
  refine calm.of_change (fun off h => ?_) fun source op member => ?_
  · rw [verdict]
    exact off (wedge ▸ h)
  · rw [← wedge]
    exact calm.submits source op member

theorem share_calm (cfg : BrokerConfig) (now : ℚ) (d : Device) (p : Poller) :
    Calm now d (p.share cfg now d) ∧ ∀ source op, .submit source op ∉ (p.share cfg now d).2.2 := by
  unfold share
  split
  · exact ⟨⟨⟨nofun, nofun⟩, id, by simp⟩, by simp⟩
  · exact ⟨⟨⟨nofun, nofun⟩, id, by simp⟩, by simp⟩

theorem rest_calm (now : ℚ) (d : Device) (p : Poller) : Calm now d (p.rest now d) where
  fits := ⟨nofun, nofun⟩
  offline _ _ := DeviceState.noteWedged_verdict _
  submits := by simp [rest]

theorem failed_calm (cfg : BrokerConfig) (now : ℚ) (p : Poller)
    (open_ : d.wedge.cooldownUntil = none) :
    Calm now d (p.failed cfg now d) := by
  let d₁ : Device := ⟨d.store.noteFailure, d.wedge.recordFailure now⟩
  have still : d₁.wedge.cooldownUntil = none := by simp [d₁, open_]
  have quiet := WedgeRecovery.inCooldown_none open_ now
  have either : Calm now d₁ (if d₁.wedge.wedged now && !d₁.wedge.inCooldown now then
      p.rest now d₁ else p.share cfg now d₁) := by
    split
    · exact rest_calm now d₁ p
    · exact (share_calm cfg now d₁ p).1
  exact (either.of_change (fun _ h => absurd still h) fun _ _ _ => quiet).cons nofun

theorem readLive_calm (cfg : BrokerConfig) (now : ℚ) (p : Poller)
    (open_ : d.wedge.cooldownUntil = none)
    (registers : List (Nat × Nat)) : Calm now d (p.readLive cfg now d registers) := by
  have quiet := WedgeRecovery.inCooldown_none open_ now
  cases registers with
  | nil =>
    let d₁ : Device := ⟨d.store.noteSuccess, d.wedge.recordSuccess⟩
    exact ((share_calm cfg now d₁ p).1.of_change (fun _ h => absurd rfl h)
      fun _ _ _ => quiet).cons nofun
  | cons register rest =>
    exact ⟨⟨fun _ => open_, nofun⟩, id, fun _ _ _ => quiet⟩

theorem turn_calm (cfg : BrokerConfig) (now : ℚ) (d : Device) (p : Poller) (readSettings : Bool) :
    Calm now d (p.turn cfg now d readSettings) := by
  unfold turn pollOnce
  split
  · exact ⟨⟨nofun, nofun⟩, id, by simp⟩
  · rename_i cool
    have quiet : d.wedge.inCooldown now = false := by simpa using cool
    split
    · rename_i probe
      exact ⟨⟨nofun, fun _ => ⟨quiet, (d.wedge.cooldown_iff now).mp (Or.inr probe)⟩⟩, id,
        fun _ _ _ => quiet⟩
    · rename_i probe
      have open_ : d.wedge.cooldownUntil = none := by
        by_contra h
        rcases (d.wedge.cooldown_iff now).mpr h with h | h
        · exact cool h
        · exact probe h
      split
      · exact ⟨⟨fun _ => open_, nofun⟩, id, fun _ _ _ => quiet⟩
      · exact readLive_calm cfg now p open_ liveRegisters

theorem probed_calm (cfg : BrokerConfig) (now : ℚ) (p : Poller) (data : List Int)
    (resting : d.wedge.cooldownUntil ≠ none) : Calm now d (p.probed cfg now d data) := by
  obtain ⟨whole, _⟩ := d.wedge.recordProbeSuccess_cooldownUntil now
  rcases outcome : d.wedge.recordProbeSuccess now with ⟨resumed, wedge⟩
  have silent := fun store => (share_calm cfg now ⟨store, wedge⟩ p).2
  simp only [probed, outcome]
  cases resumed with
  | true =>
    have open_ : wedge.cooldownUntil = none := by simpa [outcome] using whole
    let d₁ : Device := ⟨(d.store.updateSettings data).noteSuccess, wedge⟩
    have shared : Calm now d (p.share cfg now d₁) := (share_calm cfg now d₁ p).1.of_change
      (fun _ h => absurd open_ h) fun source op member => absurd member (silent _ source op)
    exact (shared.cons (e := .noted true) nofun).cons nofun
  | false =>
    let d₁ : Device := ⟨d.store.updateSettings data, wedge⟩
    have shared : Calm now d (p.share cfg now d₁) := (share_calm cfg now d₁ p).1.of_change
      (fun off _ => off resting) fun source op member => absurd member (silent _ source op)
    exact shared.cons nofun

theorem step_calm {wants : Bool} {e : PollEvent} {r : Device × Poller × List Effect}
    (fits : p.Fits now d.wedge) (h : p.step cfg now wants d e = some r) : Calm now d r := by
  have cycle := fits.cycle
  cases step_stepped h with
  | slept => exact ⟨⟨by simp [inCycle], by simp⟩, id, by simp⟩
  | turned => exact turn_calm cfg now d _ _
  | @probed data point => exact probed_calm cfg now p data (fits.probe point).2
  | relapsed => exact rest_calm now d p
  | @settings data point =>
    let d₁ : Device := { d with store := d.store.updateSettings data }
    have live : Calm now d (p.readLive cfg now d₁ liveRegisters) :=
      (readLive_calm (d := d₁) cfg now p (cycle (by simp [inCycle, point])) liveRegisters).of_same
        rfl rfl
    exact live.cons (by simp)
  | @live address length rest data point =>
    let d₁ : Device := { d with store := d.store.updateLive now address data }
    exact (readLive_calm (d := d₁) cfg now p (cycle (by simp [inCycle, point])) rest).of_same
      rfl rfl
  | failed inside => exact failed_calm cfg now p (cycle inside)
  | closed => exact (share_calm cfg now d p).1
  | broadcast => exact ⟨⟨by simp [inCycle, endCycle], by simp [endCycle]⟩, id, by simp⟩

theorem Fits.advance {wedge : WedgeRecovery} {later : ℚ} (fits : p.Fits now wedge)
    (le : now ≤ later) : p.Fits later wedge :=
  ⟨fits.cycle, fun h => ⟨WedgeRecovery.inCooldown_elapsed (fits.probe h).1 le, (fits.probe h).2⟩⟩

end Poller

namespace Broker

-- A settings read that reconciles an MQTT command or a write-intent answers.
def readsBack : Event → Bool
  | .command (.read (.ok _)) | .intent (.read (.ok _)) => true
  | _ => false

end Broker

namespace CommandLoop

variable {now : ℚ} {store : DeviceState} {loop : CommandLoop} {e : CommandEvent}
  {r : DeviceState × CommandLoop × Option Exc × List Effect}

theorem failed_offline {x : Exc} (off : store.verdict = some false) :
    (loop.failed store x).1.verdict = some false := by
  unfold failed
  split
  · exact store.noteFailure_offline off
  · exact off

theorem step_verdict (h : loop.step now store e = some r) :
    (Broker.readsBack (.command e) = true → r.1.verdict = some true) ∧
    (Broker.readsBack (.command e) = false → store.verdict = some false →
      r.1.verdict = some false) := by
  cases step_stepped h with
  | take => exact ⟨nofun, fun _ off => off⟩
  | wrote => exact ⟨nofun, fun _ off => off⟩
  | writeFailed => exact ⟨nofun, fun _ off => failed_offline off⟩
  | readFailed => exact ⟨nofun, fun _ off => failed_offline off⟩
  | readBack =>
    refine ⟨fun _ => ?_, nofun⟩
    unfold publish
    split
    · simp [(DeviceState.interpolateLiveTemps_frame _ _).1]
    · simp

end CommandLoop

namespace IntentLoop

variable {now : ℚ} {wedge : WedgeRecovery} {store : DeviceState} {loop : IntentLoop}
  {e : IntentEvent} {r : DeviceState × IntentLoop × List Effect}

theorem written_offline {i : Intent} {attempt : Nat} {result : Except Exc Unit}
    (off : store.verdict = some false) :
    (loop.written now store i attempt result).1.verdict = some false := by
  unfold written
  split
  · exact off
  · split
    · split
      · exact off
      · exact (store.reconcileClear i.address i.data).noteFailure_offline off
    · exact off

theorem step_verdict (h : loop.step now wedge store e = some r) :
    (Broker.readsBack (.intent e) = true → r.1.verdict = some true) ∧
    (Broker.readsBack (.intent e) = false → store.verdict = some false →
      r.1.verdict = some false) := by
  cases step_stepped h with
  | readBack => exact ⟨fun _ => by simp [share], nofun⟩
  | readFailed => exact ⟨nofun, fun _ off => store.noteFailure_offline off⟩
  | written => exact ⟨nofun, fun _ off => written_offline off⟩
  | take | waited | retried | readLost | shared => exact ⟨nofun, fun _ off => off⟩

theorem onWsCommand_verdict (store : DeviceState) (loop : IntentLoop) (frame : WsFrame) :
    (loop.onWsCommand store frame).1.verdict = store.verdict := by
  unfold onWsCommand
  split
  · rfl
  · rename_i i _
    split
    · exact store.applyOptimistic_verdict i.address i.data
    · rfl

end IntentLoop

namespace Broker

variable {cfg : BrokerConfig} {b b' : Broker} {e : Event} {effects : List Effect}

/-- Between `begin_cooldown` and the probe that ends it. -/
def Resting (b : Broker) : Prop :=
  b.device.wedge.inCooldown b.now = true ∨ b.device.wedge.awaitingProbe b.now = true

instance (b : Broker) : Decidable b.Resting := instDecidableOr

theorem offline_iff (b : Broker) :
    b.device.Offline ↔ (b.Resting → b.device.store.available = false) := by
  unfold Resting Device.Offline DeviceState.available
  rw [WedgeRecovery.cooldown_iff]
  cases b.device.store.verdict <;> simp

theorem start_fits (cfg : BrokerConfig) :
    (start cfg).poller.Fits (start cfg).now (start cfg).device.wedge := by
  cases consumer : cfg.hasConsumer with
  | false => constructor <;> simp [start, consumer, Poller.inCycle]
  | true => constructor <;> simp [start, consumer, Poller.inCycle]

theorem step_fits (fits : b.poller.Fits b.now b.device.wedge)
    (h : step cfg b e = some (b', effects)) : b'.poller.Fits b'.now b'.device.wedge := by
  cases (step_stepped h).2 with
  | advance forward => exact fits.advance (by linarith)
  | poll polled => exact (Poller.step_calm fits polled).fits
  | subscribe | unsubscribe | publish | mqttMessage | command | wsCommand | intent
    | frontendFrame => exact fits

theorem step_offline (fits : b.poller.Fits b.now b.device.wedge) (off : b.device.Offline)
    (h : step cfg b e = some (b', effects)) :
    b'.device.Offline ↔ (readsBack e = true → b.device.wedge.cooldownUntil = none) := by
  cases (step_stepped h).2 with
  | poll polled => simpa [readsBack] using (Poller.step_calm fits polled).offline off
  | @command e store loop escaped _ commanded =>
    have verdict := CommandLoop.step_verdict commanded
    cases back : readsBack (.command e) with
    | true =>
      have live : store.verdict = some true := verdict.1 back
      simp [Device.Offline, live]
    | false =>
      have kept : Device.Offline ⟨store, b.device.wedge⟩ := fun rests => verdict.2 back (off rests)
      simpa using kept
  | @intent e store loop _ applied =>
    have verdict := IntentLoop.step_verdict applied
    cases back : readsBack (.intent e) with
    | true =>
      have live : store.verdict = some true := verdict.1 back
      simp [Device.Offline, live]
    | false =>
      have kept : Device.Offline ⟨store, b.device.wedge⟩ := fun rests => verdict.2 back (off rests)
      simpa using kept
  | @wsCommand frame store loop _ _ received =>
    have same := b.intents.onWsCommand_verdict b.device.store frame
    rw [received] at same
    simpa [readsBack, Device.Offline, show store.verdict = _ from same] using off
  | publish =>
    have same : (R60V.publish b.now b.device.store).1.verdict = b.device.store.verdict := by
      unfold R60V.publish
      split
      · exact (DeviceState.interpolateLiveTemps_frame _ _).1
      · rfl
    simpa [readsBack, Device.Offline, same] using off
  | advance | subscribe | unsubscribe | mqttMessage | frontendFrame =>
    simpa [readsBack] using off

/-- **Cooling down means unavailable**, all along a run, exactly when no command or write-intent
is read back successfully between the start of a cooldown and the probe that ends it. -/
theorem unavailable_while_resting_iff {ms : List (Move Broker Event Effect)} {s : Broker}
    (run : Run (step cfg) (start cfg) ms s) :
    (∀ m ∈ ms, m.after.Resting → m.after.device.store.available = false) ↔
      ∀ m ∈ ms, readsBack m.event = true → ¬ m.before.Resting := by
  have iff := run.states_iff (fun b => b.poller.Fits b.now b.device.wedge)
    (fun b => b.device.Offline) (fun b => b.device.Offline)
    (fun b e => readsBack e = true → b.device.wedge.cooldownUntil = none)
    (start_fits cfg) (fun h => absurd rfl h) (fun _ => id) (fun _ _ _ _ => step_fits)
    (fun _ _ _ _ fits off h => (step_offline fits off h).mpr)
    (fun _ _ _ _ fits off h => (step_offline fits off h).mp)
  simp only [offline_iff] at iff
  rw [iff]
  simp only [Resting, WedgeRecovery.cooldown_iff, not_not]

def outage : List Event :=
  [.poll .wake, .poll (.read (.error refused)), .advance 45, .poll .wake,
    .poll (.read (.error refused))]

theorem command_revives_resting_store :
    ¬ ∀ (cfg : BrokerConfig) (ms : List (Move Broker Event Effect)) (s : Broker),
      Run (step cfg) (start cfg) ms s → s.Resting → s.device.store.available = false := by
  intro all
  have fed : (feed (step mqttConfig) (start mqttConfig) (outage ++
      [.mqttMessage ⟨"power", "OFF".toList⟩, .command .take, .command (.write (.ok ())),
        .command (.read (.ok (List.replicate 115 0)))])).any
      (fun r => decide r.1.Resting && r.1.device.store.available) = true := by
    decide +kernel
  obtain ⟨ms, s, run, _, reached⟩ := Runs.feed_reaches fed
  simp only [Bool.and_eq_true, decide_eq_true_eq] at reached
  simp [all mqttConfig ms s run reached.1] at reached

theorem unavailable_during_outage :
    ∃ ms s, Run (step mqttConfig) (start mqttConfig) ms s ∧ s.Resting ∧
      ∀ m ∈ ms, m.after.Resting → m.after.device.store.available = false := by
  have fed : (feed (step mqttConfig) (start mqttConfig) outage).any
      (fun r => decide r.1.Resting) = true := by
    decide +kernel
  obtain ⟨ms, s, run, events, resting⟩ := Runs.feed_reaches fed
  have quiet : outage.all (fun e => !readsBack e) = true := by decide
  refine ⟨ms, s, run, of_decide_eq_true resting,
    (unavailable_while_resting_iff run).mpr fun m member back => ?_⟩
  have other := Runs.event_mem events quiet member
  simp [back] at other

/- Who submits during a cooldown. -/

def encodable (c : MqttCommand) : Bool :=
  match encodeCommand c with
  | some (.ok _) => true
  | _ => false

/-- The segments that submit a job without having looked at the cooldown: a command and its
read-back, the retry and the read-back of a write-intent, and a front-end frame. -/
def submitsUnasked (b : Broker) : Event → Bool
  | .command .take => b.commands.queue.head?.any encodable
  | .command (.write (.ok _)) => true
  | .intent .wake =>
    match b.intents.current with
    | some (_, .backingOff _ _) => true
    | _ => false
  | .intent (.write (.ok _)) => true
  | .intent (.write (.error e)) =>
    match b.intents.current with
    | some (_, .writing attempt) => e.isConnectionError && writeRetries ≤ attempt
    | _ => false
  | .frontendFrame raw => (Protocol.parseFrame true raw).isOk
  | _ => false

def submits (effects : List Effect) : Bool :=
  effects.any fun e => match e with
    | .submit _ _ => true
    | _ => false

theorem submits_iff (effects : List Effect) :
    submits effects = true ↔ ∃ source op, Effect.submit source op ∈ effects := by
  unfold submits
  rw [List.any_eq_true]
  constructor
  · rintro ⟨e, member, is⟩
    split at is
    · exact ⟨_, _, member⟩
    · cases is
  · rintro ⟨source, op, member⟩
    exact ⟨_, member, rfl⟩

theorem command_submits {r : DeviceState × CommandLoop × Option Exc × List Effect}
    {e : CommandEvent} (h : b.commands.step b.now b.device.store e = some r) :
    submits r.2.2.2 = b.submitsUnasked (.command e) := by
  have failed : ∀ x, submits (b.commands.failed b.device.store x).2.2.2 = false := by
    intro x
    unfold CommandLoop.failed
    split <;> rfl
  cases CommandLoop.step_stepped h with
  | @take c rest _ queue =>
    simp only [CommandLoop.take, submitsUnasked, queue, List.head?_cons, Option.any_some, encodable]
    cases encodeCommand c with
    | none => rfl
    | some result => cases result <;> rfl
  | wrote => rfl
  | writeFailed | readFailed => exact failed _
  | readBack =>
    unfold publish
    split <;> rfl

theorem dispatch_submits (raw : Python.Text) :
    submits (dispatch raw) = (Protocol.parseFrame true raw).isOk := by
  unfold dispatch
  cases Protocol.parseFrame true raw with
  | error e => rfl
  | ok f =>
    dsimp only
    cases f.command <;> rfl

theorem intent_submits {r : DeviceState × IntentLoop × List Effect} {e : IntentEvent}
    (h : b.intents.step b.now b.device.wedge b.device.store e = some r) :
    (submits r.2.2 = true → b.device.wedge.inCooldown b.now = false) ↔
      (b.submitsUnasked (.intent e) = true → b.device.wedge.inCooldown b.now = false) := by
  have guarded : ∀ (loop : IntentLoop) (i : Intent),
      submits (loop.enter b.now b.device.wedge i).2 = true →
        b.device.wedge.inCooldown b.now = false := by
    intro loop i
    unfold IntentLoop.enter
    split
    · simp [submits]
    · rename_i cool
      simpa using fun _ => cool
  cases IntentLoop.step_stepped h with
  | take => simpa [submitsUnasked] using guarded _ _
  | waited current => simpa [submitsUnasked, current] using guarded _ _
  | retried current => simp [submitsUnasked, current, IntentLoop.submitWrite, submits]
  | @written i attempt result current =>
    cases result with
    | ok _ => simp [IntentLoop.written, IntentLoop.reconcile, submitsUnasked, submits]
    | error x =>
      simp only [IntentLoop.written, submitsUnasked, current]
      split
      · rename_i connection
        split
        · rename_i early
          simp [submits, Nat.not_le.mpr early]
        · rename_i late
          simp [IntentLoop.reconcile, submits, connection, Nat.not_lt.mp late]
      · rename_i other
        simp [submits, other]
  | readBack | readFailed => simp [IntentLoop.share, submits, submitsUnasked]
  | readLost | shared => simp [submits, submitsUnasked]

-- Only the poll loop needs to know that it fits: it asks, and then submits.
theorem step_submits (fits : b.poller.Fits b.now b.device.wedge)
    (h : step cfg b e = some (b', effects)) :
    (submits effects = true → b.device.wedge.inCooldown b.now = false) ↔
      (b.submitsUnasked e = true → b.device.wedge.inCooldown b.now = false) := by
  cases (step_stepped h).2 with
  | poll polled =>
    have calm := (Poller.step_calm fits polled).submits
    simp only [submitsUnasked, Bool.false_eq_true, false_implies, iff_true]
    intro submitted
    obtain ⟨source, op, member⟩ := (submits_iff _).mp submitted
    exact calm source op member
  | command commanded => rw [← command_submits commanded]
  | intent applied => exact intent_submits applied
  | frontendFrame => rw [dispatch_submits, submitsUnasked]
  | @wsCommand frame store loop _ _ received =>
    have quiet : submits (b.intents.onWsCommand b.device.store frame).2.2 = false := by
      unfold IntentLoop.onWsCommand
      split
      · rfl
      · split <;> simp [submits]
    rw [received] at quiet
    simp [submitsUnasked, show submits effects = false from quiet]
  | publish =>
    have quiet : submits (R60V.publish b.now b.device.store).2 = false := by
      unfold R60V.publish
      split <;> rfl
    simp [submitsUnasked, quiet]
  | advance | subscribe | unsubscribe | mqttMessage => simp [submits, submitsUnasked]

/-- **The machine is left alone during a cooldown**, all along a run, exactly when none of the
segments that do not ask about the cooldown runs during one. -/
theorem left_alone_iff {ms : List (Move Broker Event Effect)} {s : Broker}
    (run : Run (step cfg) (start cfg) ms s) :
    (∀ m ∈ ms, ∀ source op, .submit source op ∈ m.emits →
        m.before.device.wedge.inCooldown m.before.now = false) ↔
      ∀ m ∈ ms, m.before.submitsUnasked m.event = true →
        m.before.device.wedge.inCooldown m.before.now = false := by
  refine run.moves_iff (fun b => b.poller.Fits b.now b.device.wedge)
    (fun m => ∀ source op, .submit source op ∈ m.emits →
      m.before.device.wedge.inCooldown m.before.now = false)
    (fun b e => b.submitsUnasked e = true → b.device.wedge.inCooldown b.now = false)
    (start_fits cfg) (fun _ _ _ _ => step_fits) ?_
  intro b e b' effects fits h
  rw [← step_submits fits h, submits_iff]
  constructor
  · rintro all ⟨source, op, member⟩
    exact all source op member
  · intro quiet source op member
    exact quiet ⟨source, op, member⟩

theorem command_disturbs_resting_machine :
    ¬ ∀ (cfg : BrokerConfig) (ms : List (Move Broker Event Effect)) (s : Broker),
      Run (step cfg) (start cfg) ms s → ∀ m ∈ ms, ∀ source op, .submit source op ∈ m.emits →
        m.before.device.wedge.inCooldown m.before.now = false := by
  intro all
  have fed : (feed (step mqttConfig) (start mqttConfig)
      (outage ++ [.mqttMessage ⟨"power", "OFF".toList⟩])).any
      (fun r => r.1.device.wedge.inCooldown r.1.now &&
        (step mqttConfig r.1 (.command .take)).any fun t => submits t.2) = true := by
    decide +kernel
  obtain ⟨ms, s, run, _, reached⟩ := Runs.feed_reaches fed
  simp only [Bool.and_eq_true, Option.any_eq_true] at reached
  obtain ⟨cooling, t, taken, submitted⟩ := reached
  obtain ⟨source, op, member⟩ := (submits_iff _).mp submitted
  have quiet := all mqttConfig _ _ (run.snoc taken) ⟨s, .command .take, t.2, t.1⟩ (by simp)
    source op member
  simp [cooling] at quiet

theorem left_alone_during_outage :
    ∃ ms s, Run (step mqttConfig) (start mqttConfig) ms s ∧
      s.device.wedge.inCooldown s.now = true ∧
      ∀ m ∈ ms, ∀ source op, .submit source op ∈ m.emits →
        m.before.device.wedge.inCooldown m.before.now = false := by
  have fed : (feed (step mqttConfig) (start mqttConfig) outage).any
      (fun r => r.1.device.wedge.inCooldown r.1.now) = true := by
    decide +kernel
  obtain ⟨ms, s, run, events, cooling⟩ := Runs.feed_reaches fed
  refine ⟨ms, s, run, cooling, (left_alone_iff run).mpr fun m member unasked => ?_⟩
  have polled : outage.all (fun e => match e with
      | .poll _ | .advance _ => true
      | _ => false) = true := rfl
  have only := Runs.event_mem events polled member
  unfold submitsUnasked at unasked
  split at unasked <;> simp_all

end Broker

end R60V
