import R60V.Bridge.Recovery
import R60V.Integration.Polling

/-! The two cooldowns side by side: the bridge's wedge recovery, driven by its poll loop, and its
mirror in the integration's polling mode. Each is fed whole cycles, from just after both have
entered their first cooldown up to the cycle that resumes polling. -/
namespace R60V.Integration

open Protocol (settingsLen)

/-- A cycle of either: how long after the last one it comes, how long its probe takes, and what
comes back to each if it probes. -/
structure Cycle where
  wait : ℚ
  takes : ℚ
  -- For the bridge.
  readSettings : Bool
  answer : Except Exc (List Int)
  -- For the integration.
  fetched : Option BridgeHealth
  connected : Bool
  outcome : Except ReadExc Unit

inductive Did where
  | rested
  | confirmed
  | extended (duration : ℚ)
  | resumed
  | polled
  deriving DecidableEq

/-- What a cycle did, and how many good probes are counted after it. -/
structure Report where
  did : Did
  probeSuccesses : Nat
  deriving DecidableEq

def Report.resumes (r : Report) : Bool := r.did == .resumed

structure BridgeSide where
  device : Device
  poller : Poller
  now : ℚ

namespace BridgeSide

/-- What the answer to a probe made the loop call. -/
def didProbe : List WedgeCall → Did
  | [.beginCooldown step] => .extended step
  | [.recordProbeSuccess true] => .resumed
  | [.recordProbeSuccess false] => .confirmed
  | _ => .polled

/-- The body of `_poll_loop` for a loop that is wanted, up to its broadcast: the turn, and the
answer to the probe if the turn asks for one. -/
def cycle (cfg : BrokerConfig) (s : BridgeSide) (c : Cycle) : Option (BridgeSide × Report) :=
  let now := s.now + c.wait
  let (device, poller, _) := s.poller.turn cfg now s.device c.readSettings
  match poller.point with
  | .closing => some (⟨device, poller, now⟩, ⟨.rested, device.wedge.probeSuccesses⟩)
  | .probing =>
    let later := now + c.takes
    (poller.answered cfg later device c.answer).map fun (answered, poller', _) =>
      (⟨answered, poller', later⟩,
        ⟨didProbe (poller.wedgeCalls later device.wedge (.read c.answer)),
          answered.wedge.probeSuccesses⟩)
  | _ => some (⟨device, poller, now⟩, ⟨.polled, device.wedge.probeSuccesses⟩)

end BridgeSide

namespace Polling

/-- What the probe came to, by how it left the coordinator: it goes on to the full read, or stays on
its rung, or has climbed to the next. -/
def didProbe (index : Nat) (s : Polling) : Did :=
  if s.update = .snapshot then .resumed
  else if s.coordinator.cooldownIndex = index then .confirmed
  else .extended (s.coordinator.cooldownUntil.getD s.now - s.now)

/-- An update up to its full read, if it gets that far: the health report, the cooldown branch, and
the probe if it makes one. -/
def cycle (s : Polling) (c : Cycle) : Option (Polling × Report) :=
  if s.update ≠ .idle then none
  else
    let checked := ({ s with now := s.now + c.wait, update := .health }.healthFetched c.fetched
      c.connected).1
    match checked.update with
    | .probe =>
      let probed := ({ checked with now := checked.now + c.takes }.probed c.connected c.outcome).1
      let ended := probed.finish
      some (ended, ⟨didProbe s.coordinator.cooldownIndex ended, ended.coordinator.probeSuccesses⟩)
    | .snapshot => some (checked, ⟨.polled, checked.coordinator.probeSuccesses⟩)
    | _ => some (checked.finish, ⟨.rested, checked.finish.coordinator.probeSuccesses⟩)

end Polling

/-- The clock goes forward, the bridge does not block, and both probes come to the same. -/
structure Cycle.Alike (c : Cycle) : Prop where
  wait : 0 ≤ c.wait
  takes : 0 ≤ c.takes
  unblocked : c.fetched.any BridgeHealth.blocking = false
  outcome : (∃ data, c.answer = .ok data ∧ readReturns settingsLen data = true ∧
      c.outcome = .ok ()) ∨
    (∃ x e, c.answer = .error x ∧ c.outcome = .error e ∧ e.caught = true)

/-- How the two stay in step: on the same rung, with the same count, and with a deadline that is
the same or has passed for both. -/
structure InStep (s : BridgeSide) (t : Polling) : Prop where
  now : s.now = t.now
  idle : t.update = .idle
  unblocked : t.coordinator.bridgeBlocking = false
  steps : s.device.wedge.cooldownSteps = cooldownSteps
  probes : s.device.wedge.resumeAfterProbes = resumeAfterProbes
  index : s.device.wedge.cooldownIndex = t.coordinator.cooldownIndex
  climbing : 0 < t.coordinator.cooldownIndex
  successes : s.device.wedge.probeSuccesses = t.coordinator.probeSuccesses
  deadlines : ∃ x y, s.device.wedge.cooldownUntil = some x ∧
    t.coordinator.cooldownUntil = some y ∧ (x = y ∨ (x ≤ s.now ∧ y ≤ s.now))

namespace InStep

variable {cfg : BrokerConfig} {s : BridgeSide} {t : Polling} {c : Cycle}

/-- Whether the cooldown still lasts is the same question for both. -/
theorem cooling (inStep : InStep s t) (wait : 0 ≤ c.wait) :
    s.device.wedge.inCooldown (s.now + c.wait) = t.coordinator.inCooldown (t.now + c.wait) := by
  obtain ⟨x, y, bridge, integration, same | ⟨early, elapsed⟩⟩ := inStep.deadlines
  · simp [WedgeRecovery.inCooldown, Coordinator.inCooldown, bridge, integration, same, inStep.now]
  · have first : ¬ s.now + c.wait < x := by linarith
    have second : ¬ t.now + c.wait < y := by linarith [inStep.now]
    simp [WedgeRecovery.inCooldown, Coordinator.inCooldown, bridge, integration, first, second]

theorem step_eq (inStep : InStep s t) : s.device.wedge.step =
    cooldownSteps[min t.coordinator.cooldownIndex (cooldownSteps.length - 1)]?.getD 0 := by
  rw [WedgeRecovery.step, inStep.steps, inStep.index]

end InStep

namespace BridgeSide

variable {cfg : BrokerConfig} {s : BridgeSide} {c : Cycle}

theorem cycle_cooling (cooling : s.device.wedge.inCooldown (s.now + c.wait) = true) :
    s.cycle cfg c = some (⟨s.device, { s.poller with point := .closing }, s.now + c.wait⟩,
      ⟨.rested, s.device.wedge.probeSuccesses⟩) := by
  simp [cycle, Poller.turn, cooling]

theorem cycle_due (elapsed : s.device.wedge.inCooldown (s.now + c.wait) = false)
    (due : s.device.wedge.awaitingProbe (s.now + c.wait) = true) :
    s.cycle cfg c = ({ s.poller with point := .probing : Poller }.answered cfg
      (s.now + c.wait + c.takes) s.device c.answer).map fun r =>
        (⟨r.1, r.2.1, s.now + c.wait + c.takes⟩,
          ⟨didProbe ({ s.poller with point := .probing : Poller }.wedgeCalls
            (s.now + c.wait + c.takes) s.device.wedge (.read c.answer)),
            r.1.wedge.probeSuccesses⟩) := by
  simp [cycle, Poller.turn, elapsed, due]

/-- A whole answer to the probe is recorded, whatever else the loop makes of it. -/
theorem cycle_answered (elapsed : s.device.wedge.inCooldown (s.now + c.wait) = false)
    (due : s.device.wedge.awaitingProbe (s.now + c.wait) = true) {data : List Int}
    (answer : c.answer = .ok data) (whole : readReturns settingsLen data = true) :
    ∃ s', s.cycle cfg c = some (s', ⟨didProbe [.recordProbeSuccess
        (s.device.wedge.recordProbeSuccess (s.now + c.wait + c.takes)).1],
        s'.device.wedge.probeSuccesses⟩) ∧
      s'.device.wedge = (s.device.wedge.recordProbeSuccess (s.now + c.wait + c.takes)).2 ∧
      s'.now = s.now + c.wait + c.takes := by
  let probing : Poller := { s.poller with point := .probing }
  let answered := probing.probed cfg (s.now + c.wait + c.takes) s.device data
  refine ⟨⟨answered.1, answered.2.1, s.now + c.wait + c.takes⟩, ?_,
    Poller.probed_wedge cfg _ s.device probing data, rfl⟩
  rw [cycle_due elapsed due, answer]
  simp only [Poller.answered, whole, if_true, Option.map_some]
  rfl

end BridgeSide

namespace Polling

variable {s : Polling} {c : Cycle}

theorem close_finish (s : Polling) (connected cooldown : Bool) (why : UpdateFailed) :
    (s.close connected cooldown why).1.finish = (s.closed cooldown why).1 := by
  unfold close
  split <;> rfl

theorem close_update (s : Polling) (connected cooldown : Bool) (why : UpdateFailed) :
    (s.close connected cooldown why).1.update = .idle ∨
      (s.close connected cooldown why).1.update = .closing cooldown why := by
  unfold close
  split
  · exact Or.inr rfl
  · exact Or.inl rfl

/-- The state in which the cooldown branch decides. -/
def reported (s : Polling) (c : Cycle) : Polling where
  coordinator := s.coordinator.refreshBridgeHealth c.fetched
  update := .health
  now := s.now + c.wait

section Decides

variable (idle : s.update = .idle) (unblocked : s.coordinator.bridgeBlocking = false)
  (report : c.fetched.any BridgeHealth.blocking = false)
include idle unblocked report

theorem cycle_cooling (cooling : s.coordinator.inCooldown (s.now + c.wait) = true) :
    s.cycle c = some (((s.reported c).closed false .cooldownActive).1,
      ⟨.rested, s.coordinator.probeSuccesses⟩) := by
  obtain ⟨until_, -, successes⟩ := s.coordinator.cooldown_refreshBridgeHealth c.fetched
  have open_ := s.coordinator.unblocked_refreshBridgeHealth c.fetched unblocked report
  have still :
      (s.coordinator.refreshBridgeHealth c.fetched).inCooldown (s.now + c.wait) = true := by
    unfold Coordinator.inCooldown
    rw [until_]
    exact cooling
  have checked : ({ s with now := s.now + c.wait, update := .health }.healthFetched c.fetched
      c.connected) = (s.reported c).close c.connected false .cooldownActive := by
    simp [healthFetched, open_, still, reported]
  unfold cycle
  rw [if_neg (by simp [idle]), checked]
  have kept : ((s.reported c).closed false .cooldownActive).1.coordinator.probeSuccesses =
      s.coordinator.probeSuccesses := successes
  rcases close_update (s.reported c) c.connected false .cooldownActive with update | update <;>
    simp only [update, close_finish, kept]

/-- The state in which the probe is answered. -/
def asked (s : Polling) (c : Cycle) : Polling :=
  { s.reported c with update := .probe, now := s.now + c.wait + c.takes }

theorem cycle_due (elapsed : s.coordinator.inCooldown (s.now + c.wait) = false)
    (climbing : 0 < s.coordinator.cooldownIndex) :
    s.cycle c = some ((((s.asked c).probed c.connected c.outcome).1).finish,
      ⟨didProbe s.coordinator.cooldownIndex
          (((s.asked c).probed c.connected c.outcome).1).finish,
        (((s.asked c).probed c.connected c.outcome).1).finish.coordinator.probeSuccesses⟩) := by
  obtain ⟨until_, index, -⟩ := s.coordinator.cooldown_refreshBridgeHealth c.fetched
  have open_ := s.coordinator.unblocked_refreshBridgeHealth c.fetched unblocked report
  have rested :
      (s.coordinator.refreshBridgeHealth c.fetched).inCooldown (s.now + c.wait) = false := by
    unfold Coordinator.inCooldown
    rw [until_]
    exact elapsed
  have checked : ({ s with now := s.now + c.wait, update := .health }.healthFetched c.fetched
      c.connected).1 = { s.reported c with update := .probe } := by
    simp [healthFetched, open_, rested, index, climbing, reported]
  unfold cycle
  rw [if_neg (by simp [idle]), checked]
  rfl

end Decides

end Polling

namespace InStep

variable {cfg : BrokerConfig} {s : BridgeSide} {t : Polling} {c : Cycle}

theorem rests (inStep : InStep s t) (alike : c.Alike)
    (cooling : t.coordinator.inCooldown (t.now + c.wait) = true) :
    ∃ s' t' r, s.cycle cfg c = some (s', r) ∧ t.cycle c = some (t', r) ∧ InStep s' t' := by
  have same := inStep.cooling alike.wait
  rw [cooling] at same
  obtain ⟨until_, index, successes⟩ := t.coordinator.cooldown_refreshBridgeHealth c.fetched
  have integration := t.cycle_cooling inStep.idle inStep.unblocked alike.unblocked cooling
  rw [← inStep.successes] at integration
  refine ⟨_, _, _, BridgeSide.cycle_cooling same, integration, ?_⟩
  obtain ⟨x, y, bridge, deadline, either⟩ := inStep.deadlines
  have later : s.now ≤ s.now + c.wait := by linarith [alike.wait]
  exact
    { now := congrArg (· + c.wait) inStep.now
      idle := rfl
      unblocked :=
        t.coordinator.unblocked_refreshBridgeHealth c.fetched inStep.unblocked alike.unblocked
      steps := inStep.steps
      probes := inStep.probes
      index := inStep.index.trans index.symm
      climbing := index.symm ▸ inStep.climbing
      successes := inStep.successes.trans successes.symm
      deadlines := ⟨x, y, bridge, until_.trans deadline,
        either.imp_right fun passed => ⟨passed.1.trans later, passed.2.trans later⟩⟩ }

theorem due (inStep : InStep s t)
    (elapsed : s.device.wedge.inCooldown (s.now + c.wait) = false) :
    s.device.wedge.awaitingProbe (s.now + c.wait) = true := by
  obtain ⟨x, _, bridge, _⟩ := inStep.deadlines
  have set_ : s.device.wedge.cooldownUntil ≠ none := by simp [bridge]
  have either := (s.device.wedge.cooldown_iff (s.now + c.wait)).mpr set_
  rw [elapsed] at either
  exact either.resolve_left Bool.false_ne_true

/-- The last good probe that was missing ends both cooldowns. -/
theorem resumes (inStep : InStep s t) (alike : c.Alike)
    (elapsed : t.coordinator.inCooldown (t.now + c.wait) = false) {data : List Int}
    (answer : c.answer = .ok data) (whole : readReturns settingsLen data = true)
    (outcome : c.outcome = .ok ())
    (enough : s.device.wedge.resumeAfterProbes ≤ s.device.wedge.probeSuccesses + 1) :
    ∃ s' t', s.cycle cfg c = some (s', ⟨.resumed, 0⟩) ∧
      t.cycle c = some (t', ⟨.resumed, 0⟩) := by
  have same := inStep.cooling alike.wait
  rw [elapsed] at same
  obtain ⟨-, -, successes⟩ := t.coordinator.cooldown_refreshBridgeHealth c.fetched
  have counted : (t.asked c).coordinator.probeSuccesses = s.device.wedge.probeSuccesses :=
    successes.trans inStep.successes.symm
  obtain ⟨s', bridge, wedge, -⟩ := BridgeSide.cycle_answered same (inStep.due same) answer whole
  have integration :=
    t.cycle_due inStep.idle inStep.unblocked alike.unblocked elapsed inStep.climbing
  rcases s.device.wedge.recordProbeSuccess_cases (s.now + c.wait + c.takes) with
    ⟨-, eq⟩ | ⟨missing, -⟩
  · rw [wedge, eq] at bridge
    have resumed : (t.asked c).probed c.connected (.ok ()) = ({ t.asked c with
        coordinator := (t.asked c).coordinator.clearCooldown, update := .snapshot }, []) := by
      rw [inStep.probes] at enough
      simp only [Polling.probed, counted, enough, if_true]
    rw [outcome, resumed] at integration
    exact ⟨_, _, bridge, integration⟩
  · exact absurd enough (Nat.not_le.mpr missing)

/-- A good probe before the last one is counted by both, and each waits for the next. -/
theorem confirms (inStep : InStep s t) (alike : c.Alike)
    (elapsed : t.coordinator.inCooldown (t.now + c.wait) = false) {data : List Int}
    (answer : c.answer = .ok data) (whole : readReturns settingsLen data = true)
    (outcome : c.outcome = .ok ())
    (missing : s.device.wedge.probeSuccesses + 1 < s.device.wedge.resumeAfterProbes) :
    ∃ s' t', s.cycle cfg c = some (s', ⟨.confirmed, s.device.wedge.probeSuccesses + 1⟩) ∧
      t.cycle c = some (t', ⟨.confirmed, s.device.wedge.probeSuccesses + 1⟩) ∧ InStep s' t' := by
  have same := inStep.cooling alike.wait
  rw [elapsed] at same
  obtain ⟨until_, index, successes⟩ := t.coordinator.cooldown_refreshBridgeHealth c.fetched
  have counted : (t.asked c).coordinator.probeSuccesses = s.device.wedge.probeSuccesses :=
    successes.trans inStep.successes.symm
  obtain ⟨s', bridge, wedge, now⟩ := BridgeSide.cycle_answered same (inStep.due same) answer whole
  have integration :=
    t.cycle_due inStep.idle inStep.unblocked alike.unblocked elapsed inStep.climbing
  rcases s.device.wedge.recordProbeSuccess_cases (s.now + c.wait + c.takes) with
    ⟨enough, -⟩ | ⟨-, eq⟩
  · exact absurd enough (Nat.not_le.mpr missing)
  · rw [eq] at wedge
    rw [wedge, eq] at bridge
    let counting : Polling := { t.asked c with
      coordinator := { (t.asked c).coordinator with
        probeSuccesses := s.device.wedge.probeSuccesses + 1 } }
    let confirmed := counting.fails (.confirming (s.device.wedge.probeSuccesses + 1))
    have probed : (t.asked c).probed c.connected (.ok ()) = confirmed := by
      rw [inStep.probes] at missing
      simp only [Polling.probed, counted, Nat.not_le.mpr missing, if_false, confirmed, counting]
    have stays : Polling.didProbe t.coordinator.cooldownIndex confirmed.1.finish = .confirmed :=
      if_pos index
    rw [outcome, probed, stays] at integration
    refine ⟨_, _, bridge, integration, ?_⟩
    obtain ⟨_, y, _, deadline, _⟩ := inStep.deadlines
    have passed : y ≤ t.now + c.wait := by
      simpa [Coordinator.inCooldown, deadline] using elapsed
    exact
      { now := by rw [now, inStep.now]; rfl
        idle := rfl
        unblocked :=
          t.coordinator.unblocked_refreshBridgeHealth c.fetched inStep.unblocked alike.unblocked
        steps := wedge ▸ inStep.steps
        probes := wedge ▸ inStep.probes
        index := wedge ▸ inStep.index.trans index.symm
        climbing := index.symm ▸ inStep.climbing
        successes := wedge ▸ rfl
        deadlines := ⟨s.now + c.wait + c.takes, y, wedge ▸ rfl, until_.trans deadline,
          Or.inr ⟨now.ge, by linarith [alike.takes, inStep.now]⟩⟩ }

theorem escalates (inStep : InStep s t) (alike : c.Alike)
    (elapsed : t.coordinator.inCooldown (t.now + c.wait) = false) {x : Exc} {e : ReadExc}
    (answer : c.answer = .error x) (outcome : c.outcome = .error e) (caught : e.caught = true) :
    ∃ s' t' r, s.cycle cfg c = some (s', r) ∧ t.cycle c = some (t', r) ∧ InStep s' t' := by
  have same := inStep.cooling alike.wait
  rw [elapsed] at same
  obtain ⟨-, index, -⟩ := t.coordinator.cooldown_refreshBridgeHealth c.fetched
  let later := s.now + c.wait + c.takes
  let reset : Polling := ((t.asked c).closed true .stillWedged).1
  have clock : (t.asked c).now = later := by
    simp only [Polling.asked, later, inStep.now]
  have rung : reset.coordinator.cooldownUntil = some (later + s.device.wedge.step) ∧
      reset.coordinator.cooldownIndex = t.coordinator.cooldownIndex + 1 := by
    have asked : (t.asked c).coordinator.cooldownIndex = t.coordinator.cooldownIndex := index
    simp only [reset, Polling.closed, Polling.fails, if_true, Coordinator.setUpdateError,
      Coordinator.enterCooldown, asked, clock, inStep.step_eq, and_self]
  have bridge : s.cycle cfg c = some
      (⟨⟨s.device.store.noteWedged, (s.device.wedge.beginCooldown later).2⟩,
        { s.poller with point := .closing }, later⟩,
        ⟨.extended s.device.wedge.step, 0⟩) := by
    rw [BridgeSide.cycle_due same (inStep.due same), answer]
    rfl
  have integration : t.cycle c = some (reset, ⟨.extended s.device.wedge.step, 0⟩) := by
    rw [t.cycle_due inStep.idle inStep.unblocked alike.unblocked elapsed inStep.climbing, outcome]
    have probed : ((t.asked c).probed c.connected (.error e)).1.finish = reset := by
      simp only [Polling.probed, caught, if_true, Polling.close_finish, reset]
    have extended : Polling.didProbe t.coordinator.cooldownIndex reset =
        .extended s.device.wedge.step := by
      have idle : reset.update = .idle := rfl
      have now : reset.now = later := clock
      simp [Polling.didProbe, idle, rung, now]
    rw [probed, extended]
    rfl
  refine ⟨_, _, _, bridge, integration, ?_⟩
  exact
    { now := clock.symm
      idle := rfl
      unblocked :=
        t.coordinator.unblocked_refreshBridgeHealth c.fetched inStep.unblocked alike.unblocked
      steps := inStep.steps
      probes := inStep.probes
      index := (congrArg (· + 1) inStep.index).trans rung.2.symm
      climbing := rung.2 ▸ Nat.succ_pos _
      successes := rfl
      deadlines := ⟨_, _, rfl, rung.1, Or.inl rfl⟩ }

theorem cycle (inStep : InStep s t) (alike : c.Alike) : ∃ s' t' r,
    s.cycle cfg c = some (s', r) ∧ t.cycle c = some (t', r) ∧
      (r.resumes = false → InStep s' t') := by
  cases cooling : t.coordinator.inCooldown (t.now + c.wait) with
  | true =>
    obtain ⟨s', t', r, bridge, integration, still⟩ := @rests cfg s t c inStep alike cooling
    exact ⟨s', t', r, bridge, integration, fun _ => still⟩
  | false =>
    rcases alike.outcome with ⟨data, answer, whole, outcome⟩ | ⟨x, e, answer, outcome, caught⟩
    · rcases Nat.lt_or_ge (s.device.wedge.probeSuccesses + 1)
        s.device.wedge.resumeAfterProbes with missing | enough
      · obtain ⟨s', t', bridge, integration, still⟩ :=
          @confirms cfg s t c inStep alike cooling data answer whole outcome missing
        exact ⟨s', t', _, bridge, integration, fun _ => still⟩
      · obtain ⟨s', t', bridge, integration⟩ :=
          @resumes cfg s t c inStep alike cooling data answer whole outcome enough
        exact ⟨s', t', _, bridge, integration, fun busy => by cases busy⟩
    · obtain ⟨s', t', r, bridge, integration, still⟩ :=
        @escalates cfg s t c inStep alike cooling x e answer outcome caught
      exact ⟨s', t', r, bridge, integration, fun _ => still⟩

/-- Both have just entered their first cooldown, at the same time. -/
theorem entered {w : WedgeRecovery} {k : Coordinator Int} (store : DeviceState) (poller : Poller)
    (now : ℚ) (steps : w.cooldownSteps = cooldownSteps) (probes : w.resumeAfterProbes =
    resumeAfterProbes) (foot : w.cooldownIndex = 0) (foot' : k.cooldownIndex = 0)
    (unblocked : k.bridgeBlocking = false) :
    InStep ⟨⟨store, (w.beginCooldown now).2⟩, poller, now⟩ ⟨k.enterCooldown now, .idle, now⟩ where
  now := rfl
  idle := rfl
  unblocked := unblocked
  steps := steps
  probes := probes
  index := by simp [WedgeRecovery.beginCooldown, Coordinator.enterCooldown, foot, foot']
  climbing := Nat.succ_pos _
  successes := rfl
  deadlines := by
    refine ⟨now + w.step, _, rfl, rfl, Or.inl ?_⟩
    rw [WedgeRecovery.step, steps, foot, foot']

end InStep

/-- **The integration's cooldown is the bridge's**: from the first cooldown on, entered by both at
the same time, the two report the same for every cycle, up to the one that resumes polling. -/
theorem cooldowns_agree (cfg : BrokerConfig) (store : DeviceState) (poller : Poller)
    {w : WedgeRecovery} {k : Coordinator Int} (now : ℚ)
    (steps : w.cooldownSteps = cooldownSteps) (probes : w.resumeAfterProbes = resumeAfterProbes)
    (bridge : w.cooldownIndex = 0) (integration : k.cooldownIndex = 0)
    (unblocked : k.bridgeBlocking = false) {cs : List Cycle} (alike : ∀ c ∈ cs, c.Alike) :
    ∃ reports,
      Runs.outputsUntil (BridgeSide.cycle cfg) Report.resumes
        ⟨⟨store, (w.beginCooldown now).2⟩, poller, now⟩ cs = some reports ∧
      Runs.outputsUntil Polling.cycle Report.resumes ⟨k.enterCooldown now, .idle, now⟩ cs =
        some reports :=
  Runs.lockstep InStep Cycle.Alike (fun _ _ _ => InStep.cycle)
    (InStep.entered store poller now steps probes bridge integration unblocked) alike

def lostProbe (wait : ℚ) : Cycle :=
  ⟨wait, 1, false, .error Broker.refused, none, true, .error .connection⟩

def goodProbe (wait : ℚ) : Cycle :=
  ⟨wait, 1, false, .ok (List.replicate 115 0), none, true, .ok ()⟩

theorem lostProbe_alike {wait : ℚ} (forward : 0 ≤ wait) : (lostProbe wait).Alike :=
  ⟨forward, zero_le_one, rfl, Or.inr ⟨_, _, rfl, rfl, rfl⟩⟩

theorem goodProbe_alike {wait : ℚ} (forward : 0 ≤ wait) : (goodProbe wait).Alike :=
  ⟨forward, zero_le_one, rfl, Or.inl ⟨_, rfl, rfl, rfl⟩⟩

/-- A rest, a lost probe that extends it, a good probe, and the one that resumes polling. -/
def relapse : List Cycle := [lostProbe 10, lostProbe 300, goodProbe 610, goodProbe 10]

theorem relapse_alike : ∀ c ∈ relapse, c.Alike := by
  intro c member
  simp only [relapse, List.mem_cons, List.not_mem_nil, or_false] at member
  rcases member with rfl | rfl | rfl | rfl
  · exact lostProbe_alike (by decide)
  · exact lostProbe_alike (by decide)
  · exact goodProbe_alike (by decide)
  · exact goodProbe_alike (by decide)

theorem cooldowns_agree_after_relapse : ∃ reports,
    Runs.outputsUntil (BridgeSide.cycle Broker.mqttConfig) Report.resumes
      ⟨⟨.new 4 12 1, (WedgeRecovery.beginCooldown (.new 45 cooldownSteps (by decide) 2) 0).2⟩,
        ⟨0, false, .closing⟩, 0⟩ relapse = some reports ∧
    Runs.outputsUntil Polling.cycle Report.resumes
      ⟨(Coordinator.new false false).enterCooldown 0, .idle, 0⟩ relapse = some reports ∧
    reports = [⟨.rested, 0⟩, ⟨.extended 600, 0⟩, ⟨.confirmed, 1⟩, ⟨.resumed, 0⟩] := by
  obtain ⟨reports, bridge, integration⟩ := cooldowns_agree Broker.mqttConfig (.new 4 12 1)
    ⟨0, false, .closing⟩ (w := .new 45 cooldownSteps (by decide) 2) (k := .new false false) 0
    rfl rfl rfl rfl rfl relapse_alike
  have shown : Runs.outputsUntil Polling.cycle Report.resumes
      ⟨(Coordinator.new false false).enterCooldown 0, .idle, 0⟩ relapse =
        some [⟨.rested, 0⟩, ⟨.extended 600, 0⟩, ⟨.confirmed, 1⟩, ⟨.resumed, 0⟩] := by
    decide +kernel
  exact ⟨reports, bridge, integration, Option.some.inj (integration.symm.trans shown)⟩

end R60V.Integration
