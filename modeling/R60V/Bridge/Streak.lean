import R60V.Bridge.Recovery

/-! What a wedge is declared on. The streak of failures is one timestamp; the loop going idle and
the reads of the other tasks leave it alone, and a run measures sustained failure as long as
neither happens while a streak is open. -/
namespace R60V

open Runs (Run Move Along feed)

namespace Poller

variable {cfg : BrokerConfig} {now : ℚ} {wants : Bool} {d : Device} {p : Poller} {e : PollEvent}
  {r : Device × Poller × List Effect}

/-- The loop is idle only while it sleeps. -/
def Awake (p : Poller) : Prop :=
  p.idle = true → p.point = .off ∨ ∃ wakeAt, p.point = .sleeping wakeAt

theorem share_idle (cfg : BrokerConfig) (now : ℚ) (d : Device) (p : Poller) :
    (p.share cfg now d).2.1.idle = p.idle := by
  unfold share
  split <;> rfl

theorem readLive_idle (cfg : BrokerConfig) (now : ℚ) (d : Device) (p : Poller)
    (registers : List (Nat × Nat)) : (p.readLive cfg now d registers).2.1.idle = p.idle := by
  cases registers with
  | nil => exact share_idle cfg now _ p
  | cons register rest => rfl

theorem turn_idle (cfg : BrokerConfig) (now : ℚ) (d : Device) (p : Poller) (readSettings : Bool) :
    (p.turn cfg now d readSettings).2.1.idle = p.idle := by
  unfold turn pollOnce
  split
  · rfl
  · split
    · rfl
    · split
      · rfl
      · exact readLive_idle cfg now d p liveRegisters

/-- The loop finds out whether it is idle when it wakes. -/
theorem step_idle (h : p.step cfg now wants d e = some r) :
    (e = .wake ∧ p.inCycle = false ∧ wants = false ∧ ∃ wakeAt, r.2.1.point = .sleeping wakeAt) ∨
    (p.inCycle = false ∧ r.2.1.idle = false) ∨
    (p.point ≠ .off ∧ (∀ wakeAt, p.point ≠ .sleeping wakeAt) ∧ r.2.1.idle = p.idle) := by
  cases step_stepped h with
  | slept point idle => exact Or.inl ⟨rfl, by simp [inCycle, point], idle, _, rfl⟩
  | turned point =>
    exact Or.inr (Or.inl ⟨by simp [inCycle, point], turn_idle cfg now d _ _⟩)
  | probed point =>
    refine Or.inr (Or.inr ⟨by simp [point], by simp [point], ?_⟩)
    unfold probed
    dsimp only
    split <;> exact share_idle cfg now _ p
  | relapsed point | broadcast point =>
    exact Or.inr (Or.inr ⟨by simp [point], by simp [point], rfl⟩)
  | settings point | live point =>
    exact Or.inr (Or.inr ⟨by simp [point], by simp [point], readLive_idle cfg now _ p _⟩)
  | failed inside =>
    refine Or.inr (Or.inr ⟨?_, ?_, ?_⟩)
    · intro point
      simp [inCycle, point] at inside
    · intro wakeAt point
      simp [inCycle, point] at inside
    · unfold failed
      dsimp only
      split
      · rfl
      · exact share_idle cfg now _ p
  | closed point =>
    exact Or.inr (Or.inr ⟨by simp [point], by simp [point], share_idle cfg now d p⟩)

theorem step_awake (awake : p.Awake) (h : p.step cfg now wants d e = some r) : r.2.1.Awake := by
  intro idle
  rcases step_idle h with ⟨-, -, -, asleep⟩ | ⟨-, busy⟩ | ⟨on, active, same⟩
  · exact Or.inr asleep
  · simp [busy] at idle
  · obtain off | ⟨wakeAt, asleep⟩ := awake (same ▸ idle)
    · exact absurd off on
    · exact absurd asleep (active wakeAt)

/-- A success that the loop notes is one that the controller is told of. -/
theorem step_noted (h : p.step cfg now wants d e = some r) (noted : .noted true ∈ r.2.2) :
    .recordSuccess ∈ p.wedgeCalls now d.wedge e ∨
      .recordProbeSuccess true ∈ p.wedgeCalls now d.wedge e := by
  have silent : ∀ d', .noted true ∉ (p.share cfg now d').2.2 := by
    intro d'
    unfold share
    split <;> simp
  have ends : ∀ d' (p' : Poller) registers,
      .noted true ∈ (p'.readLive cfg now d' registers).2.2 → registers = [] := by
    intro d' p' registers member
    cases registers with
    | nil => rfl
    | cons register rest => simp [readLive] at member
  cases step_stepped h with
  | slept | broadcast => cases noted
  | turned =>
    unfold turn pollOnce at noted
    split at noted
    · simp at noted
    · split at noted
      · simp at noted
      · split at noted
        · simp at noted
        · exact absurd (ends _ _ _ noted) (by decide)
  | probed point =>
    unfold probed at noted
    dsimp only at noted
    split at noted
    · rename_i resumed
      exact Or.inr (by simp [wedgeCalls, point, resumed])
    · simp [silent] at noted
  | relapsed => simp [rest] at noted
  | settings => exact absurd (ends _ _ _ (by simpa using noted)) (by decide)
  | live point =>
    obtain rfl := ends _ _ _ noted
    exact Or.inl (by simp [wedgeCalls, point])
  | failed =>
    unfold failed at noted
    dsimp only at noted
    split at noted <;> simp [rest, silent] at noted
  | closed => exact absurd noted (silent d)

end Poller

theorem publish_silent (now : ℚ) (store : DeviceState) (ok : Bool) :
    .noted ok ∉ (publish now store).2 := by
  unfold publish
  split <;> simp

theorem CommandLoop.step_noted {now : ℚ} {store : DeviceState} {loop : CommandLoop}
    {e : CommandEvent} {r : DeviceState × CommandLoop × Option Exc × List Effect}
    (h : loop.step now store e = some r) (noted : .noted true ∈ r.2.2.2) :
    Broker.readsBack (.command e) = true := by
  cases step_stepped h with
  | take =>
    unfold take at noted
    split at noted <;> simp at noted
  | wrote => simp at noted
  | writeFailed | readFailed =>
    unfold failed at noted
    split at noted <;> simp at noted
  | readBack => rfl

theorem IntentLoop.step_noted {now : ℚ} {wedge : WedgeRecovery} {store : DeviceState}
    {loop : IntentLoop} {e : IntentEvent} {r : DeviceState × IntentLoop × List Effect}
    (h : loop.step now wedge store e = some r) (noted : .noted true ∈ r.2.2) :
    Broker.readsBack (.intent e) = true := by
  cases step_stepped h with
  | take | waited =>
    unfold enter at noted
    split at noted <;> simp [submitWrite] at noted
  | retried => simp [submitWrite] at noted
  | @written i attempt result =>
    cases result with
    | ok _ => simp [written, reconcile] at noted
    | error x =>
      simp only [written] at noted
      split at noted
      · split at noted
        · cases noted
        · simp [reconcile] at noted
      · cases noted
  | readBack => rfl
  | readFailed => simp [share] at noted
  | readLost | shared => cases noted

namespace Broker

variable {cfg : BrokerConfig} {b b' : Broker} {e : Event} {effects : List Effect}

/-- Apart from the poll loop, a success is noted by a reconcile read. -/
theorem step_noted (h : step cfg b e = some (b', effects)) (noted : .noted true ∈ effects) :
    readsBack e = true ∨ ∃ e', e = .poll e' := by
  cases (step_stepped h).2 with
  | poll => exact Or.inr ⟨_, rfl⟩
  | advance | subscribe | unsubscribe | mqttMessage => cases noted
  | publish => exact absurd noted (publish_silent _ _ _)
  | command commanded => exact Or.inl (CommandLoop.step_noted commanded noted)
  | wsCommand _ received =>
    unfold IntentLoop.onWsCommand at received
    split at received
    · cases received
      cases noted
    · split at received
      · cases received
        simp at noted
      · cases received
        cases noted
  | intent applied => exact Or.inl (IntentLoop.step_noted applied noted)
  | frontendFrame =>
    unfold dispatch at noted
    split at noted
    · cases noted
    · split at noted <;> simp at noted

/-- The loop goes idle, or a command or a write-intent is read back, while failures are counted
and no cooldown has begun. -/
def Interrupts (cfg : BrokerConfig) (b : Broker) (e : Event) : Prop :=
  (b.device.wedge.firstFailAt ≠ none ∧ b.device.wedge.cooldownUntil = none) ∧
    ((e = .poll .wake ∧ b.wantsData cfg = false) ∨ readsBack e = true)

/-- Active polling, and nothing that succeeds. -/
def Failing (ms : List (Move Broker Event Effect)) : Prop :=
  ∀ m ∈ ms, m.after.poller.idle = false ∧ .noted true ∉ m.emits

/-- The failures up to a move go back to at least `wedgeAfter` before it. -/
def Sustained (wedgeAfter : ℚ) (front : List (Move Broker Event Effect))
    (m : Move Broker Event Effect) : Prop :=
  ∃ earlier n later, front ++ [m] = earlier ++ n :: later ∧
    n.before.now + wedgeAfter ≤ m.before.now ∧ Failing (n :: later)

/-- `_poll_once` enters a cooldown. -/
def Declares (m : Move Broker Event Effect) : Prop :=
  m.before.poller.inCycle = true ∧ ∃ step, .beginCooldown step ∈ m.before.wedgeCalls m.event

/-- An open streak began at a failure from which on nothing has interrupted it. -/
structure Streak (ms : List (Move Broker Event Effect)) (b : Broker) : Prop where
  awake : b.poller.Awake
  since : b.device.wedge.cooldownUntil = none → ∀ since, b.device.wedge.firstFailAt = some since →
    b.poller.idle = false ∧ ∃ earlier n later, ms = earlier ++ n :: later ∧
      n.before.now = since ∧ Failing (n :: later)

theorem Failing.snoc {ms : List (Move Broker Event Effect)} {m : Move Broker Event Effect}
    (failing : Failing ms) (last : m.after.poller.idle = false ∧ .noted true ∉ m.emits) :
    Failing (ms ++ [m]) := Runs.forall_snoc.mpr ⟨failing, last⟩

theorem poll_idle {e : PollEvent} (h : step cfg b (.poll e) = some (b', effects))
    (busy : b.poller.idle = false)
    (wanted : b.poller.inCycle = false → e = .wake → b.wantsData cfg = true) :
    b'.poller.idle = false := by
  cases (step_stepped h).2 with
  | poll polled =>
    rcases Poller.step_idle polled with ⟨woken, outside, unwanted, -⟩ | ⟨-, active⟩ | ⟨-, -, same⟩
    · simp [wanted outside woken] at unwanted
    · exact active
    · exact same.trans busy

theorem step_awake (awake : b.poller.Awake) (h : step cfg b e = some (b', effects)) :
    b'.poller.Awake := by
  cases (step_stepped h).2 with
  | poll polled => exact Poller.step_awake awake polled
  | advance | subscribe | unsubscribe | publish | mqttMessage | command | wsCommand | intent
    | frontendFrame => exact awake

theorem poll_noted {e : PollEvent} (h : step cfg b (.poll e) = some (b', effects))
    (noted : .noted true ∈ effects) :
    .recordSuccess ∈ b.wedgeCalls (.poll e) ∨
      .recordProbeSuccess true ∈ b.wedgeCalls (.poll e) := by
  cases (step_stepped h).2 with
  | poll polled => exact Poller.step_noted polled noted

/-- A failed poll is where its streak begins, or one more in it. -/
theorem Streak.failure {ms : List (Move Broker Event Effect)} (streak : Streak ms b)
    (open_ : b.device.wedge.cooldownUntil = none) {m : Move Broker Event Effect}
    (before : m.before = b) (last : m.after.poller.idle = false ∧ .noted true ∉ m.emits) :
    ∃ earlier n later, ms ++ [m] = earlier ++ n :: later ∧
      n.before.now = b.device.wedge.firstFailAt.getD b.now ∧ Failing (n :: later) := by
  cases first : b.device.wedge.firstFailAt with
  | none =>
    refine ⟨ms, m, [], rfl, by rw [before, Option.getD_none], ?_⟩
    intro x member
    obtain rfl := List.mem_singleton.mp member
    exact last
  | some since =>
    obtain ⟨-, earlier, n, later, rfl, began, failing⟩ := streak.since open_ since first
    refine ⟨earlier, n, later ++ [m], by simp, began, ?_⟩
    rw [← List.cons_append]
    exact failing.snoc last

theorem inCycle_busy (awake : b.poller.Awake) (inside : b.poller.inCycle = true) :
    b.poller.idle = false := by
  by_contra idle
  obtain off | ⟨wakeAt, asleep⟩ := awake (by simpa using idle)
  · simp [Poller.inCycle, off] at inside
  · simp [Poller.inCycle, asleep] at inside

theorem step_streak {ms : List (Move Broker Event Effect)} (streak : Streak ms b)
    (fits : b.poller.Fits b.now b.device.wedge) (h : step cfg b e = some (b', effects))
    (calm : ¬ Interrupts cfg b e) : Streak (ms ++ [⟨b, e, effects, b'⟩]) b' := by
  refine ⟨step_awake streak.awake h, ?_⟩
  intro open_ since first
  -- A streak that was open before goes on: nothing in this step interrupts it.
  have goes_on : b'.device.wedge = b.device.wedge → (b.poller.idle = false →
      b'.poller.idle = false ∧ .noted true ∉ effects) → b'.poller.idle = false ∧
      ∃ earlier n later, ms ++ [⟨b, e, effects, b'⟩] = earlier ++ n :: later ∧
        n.before.now = since ∧ Failing (n :: later) := by
    intro same last
    rw [same] at open_ first
    have busy := (streak.since open_ since first).1
    obtain ⟨earlier, n, later, cut, began, failing⟩ :=
      streak.failure (m := ⟨b, e, effects, b'⟩) open_ rfl (last busy)
    exact ⟨(last busy).1, earlier, n, later, cut, by simpa [first] using began, failing⟩
  have uninterrupted : b.device.wedge.firstFailAt = some since →
      b.device.wedge.cooldownUntil = none →
      (e = .poll .wake → b.wantsData cfg = true) ∧ readsBack e = false := by
    intro running cool
    constructor
    · intro woken
      by_contra unwanted
      exact calm ⟨⟨by simp [running], cool⟩, Or.inl ⟨woken, by simpa using unwanted⟩⟩
    · by_contra back
      exact calm ⟨⟨by simp [running], cool⟩, Or.inr (by simpa using back)⟩
  rcases step_progress h with ⟨other, poller, wedge, -, -, -⟩ | ⟨e', rfl, -, progress⟩
  · rw [wedge] at open_ first
    refine goes_on wedge fun busy => ⟨poller ▸ busy, fun noted => ?_⟩
    rcases step_noted h noted with back | ⟨e', same⟩
    · simp [(uninterrupted first open_).2] at back
    · exact other e' same
  · generalize wedge' : b'.device.wedge = w' at progress
    generalize calls' : b.wedgeCalls (.poll e') = calls, b.probeOutcome (.poll e') = outcome
      at progress
    have silent : .recordSuccess ∉ calls → .recordProbeSuccess true ∉ calls →
        .noted true ∉ effects := by
      intro no none_ noted
      exact (poll_noted h noted).elim (calls' ▸ no) (calls' ▸ none_)
    cases progress with
    | waits | probes | starts | continues =>
      rw [wedge'] at open_ first
      refine goes_on wedge' fun busy => ⟨?_, silent (by simp) (by simp)⟩
      exact poll_idle h busy fun _ woken => (uninterrupted first open_).1 (by rw [woken])
    | completes => simp [wedge', WedgeRecovery.recordSuccess] at first
    | fails inside =>
      have busy : b.poller.idle = false := inCycle_busy streak.awake inside
      have active := poll_idle h busy fun outside => by simp [inside] at outside
      obtain ⟨earlier, n, later, cut, began, failing⟩ :=
        streak.failure (m := ⟨b, .poll e', effects, b'⟩) (fits.cycle inside) rfl
          ⟨active, silent (by simp) (by simp)⟩
      refine ⟨active, earlier, n, later, cut, ?_, failing⟩
      rw [wedge', WedgeRecovery.recordFailure_eq] at first
      exact began.trans (Option.some.inj first)
    | wedges | relapses => simp [wedge', WedgeRecovery.beginCooldown] at open_
    | confirms =>
      rcases b.device.wedge.recordProbeSuccess_cases b.now with ⟨_, eq⟩ | ⟨_, eq⟩
      · simp [wedge', eq, WedgeRecovery.recordSuccess] at first
      · simp [wedge', eq] at open_

theorem declared_sustained {wedgeAfter : ℚ} {cooldownSteps : List ℚ} {probes : Nat}
    {ms : List (Move Broker Event Effect)} (streak : Streak ms b)
    (fits : b.poller.Fits b.now b.device.wedge)
    (sound : Tuned wedgeAfter cooldownSteps probes b.device.wedge)
    (h : step cfg b e = some (b', effects)) (declares : Declares ⟨b, e, effects, b'⟩) :
    Sustained wedgeAfter ms ⟨b, e, effects, b'⟩ := by
  obtain ⟨inside, length, begun⟩ := declares
  dsimp only at inside begun
  rcases step_progress h with ⟨-, -, -, calls, -, -⟩ | ⟨e', rfl, -, progress⟩
  · simp [calls] at begun
  · generalize calls' : b.wedgeCalls (.poll e') = calls, b'.device.wedge = w',
      b.probeOutcome (.poll e') = outcome at progress begun
    cases progress with
    | waits | probes | starts | continues | completes | fails | confirms => simp at begun
    | relapses probing => simp [Poller.inCycle, probing] at inside
    | wedges _ _ wedged =>
      have silent : .noted true ∉ effects := by
        intro noted
        rcases poll_noted h noted with told | told <;> simp [calls'] at told
      have active := poll_idle h (inCycle_busy streak.awake inside)
        fun outside => by simp [inside] at outside
      obtain ⟨earlier, n, later, cut, began, failing⟩ := streak.failure
        (m := ⟨b, .poll e', effects, b'⟩) (fits.cycle inside) rfl ⟨active, silent⟩
      refine ⟨earlier, n, later, cut, ?_, failing⟩
      rw [WedgeRecovery.recordFailure_eq] at wedged
      simp only [WedgeRecovery.wedged, decide_eq_true_eq, sound.wedgeAfter] at wedged
      rw [began]
      linarith

/-- **A wedge is declared only after sustained failure** in every run in which the loop does not go
idle, and no command or write-intent is read back, while a streak of failures is open. -/
theorem wedge_declared_after_sustained_failure {wedgeAfter : ℚ} {cooldownSteps : List ℚ}
    {steps_ne : cooldownSteps ≠ []} {resumeAfterProbes : Int}
    {ms : List (Move Broker Event Effect)} {s : Broker}
    (run : Run (step cfg) (tuned cfg wedgeAfter cooldownSteps steps_ne resumeAfterProbes) ms s)
    (calm : ∀ m ∈ ms, ¬ m.before.Interrupts cfg m.event) :
    Along (fun front m => Declares m → Sustained wedgeAfter front m) ms := by
  have all : Along (fun front m => Declares m → Sustained wedgeAfter front m) ms ∧ Streak ms s ∧
      s.poller.Fits s.now s.device.wedge ∧
      Tuned wedgeAfter cooldownSteps (max 1 resumeAfterProbes).toNat s.device.wedge := by
    induction run with
    | nil =>
      refine ⟨by rintro ⟨⟩ _ _ ⟨⟩, ⟨fun _ => ?_, fun _ _ => nofun⟩, tuned_fits cfg, tuned_tuned cfg⟩
      cases consumer : cfg.hasConsumer with
      | false => exact Or.inl (by simp [tuned, start, consumer])
      | true => exact Or.inr ⟨0, by simp [tuned, start, consumer]⟩
    | snoc _ h ih =>
      obtain ⟨earlier, last⟩ := Runs.forall_snoc.mp calm
      obtain ⟨declared, streak, fits, sound⟩ := ih earlier
      exact ⟨Runs.along_snoc.mpr ⟨declared, declared_sustained streak fits sound h⟩,
        step_streak streak fits h last, step_fits fits h, step_tuned sound h⟩
  exact all.1

/-- Two failed polls with the subscriber away in between. -/
def absence : List Event :=
  [.subscribe, .poll .wake, .poll (.read (.error refused)), .poll .resume, .unsubscribe,
    .advance 10, .poll .wake, .advance 45, .subscribe, .poll .wake]

def sustains (wedgeAfter : ℚ) (ms : List (Move Broker Event Effect)) (now : ℚ) : Bool :=
  (List.range ms.length).any fun k =>
    (ms[k]?.any fun n => n.before.now + wedgeAfter ≤ now) &&
      (ms.drop k).all fun x => !x.after.poller.idle && !x.emits.contains (.noted true)

theorem sustains_of_sustained {wedgeAfter : ℚ} {front : List (Move Broker Event Effect)}
    {m : Move Broker Event Effect} (sustained : Sustained wedgeAfter front m) :
    sustains wedgeAfter (front ++ [m]) m.before.now = true := by
  obtain ⟨earlier, n, later, cut, began, failing⟩ := sustained
  rw [cut]
  refine List.any_eq_true.mpr ⟨earlier.length, List.mem_range.mpr (by simp), ?_⟩
  simp only [List.getElem?_append_right (Nat.le_refl _), Nat.sub_self, List.getElem?_cons_zero,
    Option.any_some, List.drop_left, Bool.and_eq_true, decide_eq_true_eq, List.all_eq_true]
  refine ⟨began, fun x member => ?_⟩
  simpa using failing x member

theorem wedge_declared_after_absence :
    ¬ ∀ (cfg : BrokerConfig) (ms : List (Move Broker Event Effect)) (s : Broker),
      Run (step cfg) (start cfg) ms s →
        Along (fun front m => Declares m → Sustained wedgeAfterDefault front m) ms := by
  intro all
  have fed : (feed (step pushConfig) (start pushConfig) absence).any (fun r =>
      r.1.poller.inCycle && (step pushConfig r.1 (.poll (.read (.error refused)))).any fun t =>
        (r.1.wedgeCalls (.poll (.read (.error refused)))).contains (.beginCooldown 300) &&
          !sustains wedgeAfterDefault
            (r.2 ++ [⟨r.1, .poll (.read (.error refused)), t.2, t.1⟩]) r.1.now) = true := by
    decide +kernel
  obtain ⟨ms, s, run, _, reached⟩ := Runs.feed_reaches fed
  simp only [Bool.and_eq_true, Option.any_eq_true, Bool.not_eq_true'] at reached
  obtain ⟨inside, ⟨t, effects⟩, failed, begun, interrupted⟩ := reached
  have sustained := all pushConfig _ _ (run.snoc failed) ms _ [] rfl
    ⟨inside, 300, List.contains_iff_mem.mp begun⟩
  have counted := sustains_of_sustained sustained
  simp [interrupted] at counted

theorem wedge_declared_in_outage :
    ∃ ms s, Run (step mqttConfig) (tuned mqttConfig 45 [300, 600] (by decide) 2) ms s ∧
      (∃ m ∈ ms, Declares m) ∧
      Along (fun front m => Declares m → Sustained 45 front m) ms := by
  have fed : (feed (step mqttConfig) (tuned mqttConfig 45 [300, 600] (by decide) 2) outage).any
      (fun r => r.2.any fun m =>
        m.before.poller.inCycle && (m.before.wedgeCalls m.event).contains (.beginCooldown 300)) =
        true := by
    decide +kernel
  obtain ⟨ms, s, run, events, reached⟩ := Runs.feed_reaches fed
  obtain ⟨m, member, declares⟩ := List.any_eq_true.mp reached
  simp only [Bool.and_eq_true] at declares
  refine ⟨ms, s, run, ⟨m, member, declares.1, 300, List.contains_iff_mem.mp declares.2⟩,
    wedge_declared_after_sustained_failure run ?_⟩
  rintro x inside ⟨-, ⟨-, unwanted⟩ | back⟩
  · simp [wantsData, mqttConfig] at unwanted
  · have quiet : outage.all (fun e => !readsBack e) = true := by decide
    have other := Runs.event_mem events quiet inside
    simp [back] at other

end Broker

end R60V
