import R60V.Bridge.Cooldown
import Mathlib.Data.List.DropRight

/-! Wedge recovery over whole runs of the broker: the rest after `begin_cooldown` is kept, the
cooldowns climb the ladder, and polling resumes after a run of good probes. The calls on the
controller are logged, and replaying the log gives the controller back. -/
namespace R60V

open Runs (Run Move Along feed)

/-- A call of the poll loop on the wedge controller, with what it returned. -/
inductive WedgeCall where
  | recordSuccess
  | recordFailure
  | recordProbeSuccess (resumed : Bool)
  | beginCooldown (step : ℚ)
  deriving DecidableEq

namespace WedgeCall

/-- The call on a controller, provided that it returns that. -/
def run (now : ℚ) (w : WedgeRecovery) : WedgeCall → Option WedgeRecovery
  | .recordSuccess => some w.recordSuccess
  | .recordFailure => some (w.recordFailure now)
  | .recordProbeSuccess resumed =>
    if (w.recordProbeSuccess now).1 = resumed then some (w.recordProbeSuccess now).2 else none
  | .beginCooldown step =>
    if (w.beginCooldown now).1 = step then some (w.beginCooldown now).2 else none

def begins : WedgeCall → Bool
  | .beginCooldown _ => true
  | _ => false

end WedgeCall

namespace Poller

def wedgeCalls (now : ℚ) (w : WedgeRecovery) (p : Poller) : PollEvent → List WedgeCall
  | .read result =>
    match p.point, result with
    | .probing, .ok _ => [.recordProbeSuccess (w.recordProbeSuccess now).1]
    | .probing, .error _ => [.beginCooldown w.step]
    | .settings, .error _ | .live _ _ _, .error _ =>
      let failed := w.recordFailure now
      if failed.wedged now && !failed.inCooldown now then
        [.recordFailure, .beginCooldown failed.step]
      else [.recordFailure]
    | .live _ _ [], .ok _ => [.recordSuccess]
    | _, _ => []
  | _ => []

/-- What came of a probe, if the segment is the answer to one. -/
def probeOutcome (p : Poller) : PollEvent → Option Bool
  | .read result => if p.point = .probing then some result.isOk else none
  | _ => none

/-- The loop waits for no read of its own. -/
def waiting (p : Poller) : Bool :=
  match p.point with
  | .probing | .settings | .live _ _ _ => false
  | _ => true

variable {cfg : BrokerConfig} {now : ℚ} {wants : Bool} {d : Device} {p : Poller} {e : PollEvent}
  {r : Device × Poller × List Effect}

/-- What a segment of the loop does to the controller, by where the loop is before and after,
with the outcome of the probe that it is the answer to. -/
inductive Progress (now : ℚ) (w : WedgeRecovery) (p p' : Poller) :
    List WedgeCall → Option Bool → WedgeRecovery → Prop where
  | waits (before : p.waiting = true) (after : p'.waiting = true) : Progress now w p p' [] none w
  | probes (before : p.waiting = true) (elapsed : w.inCooldown now = false)
      (due : w.cooldownUntil ≠ none) (after : p'.point = .probing) : Progress now w p p' [] none w
  | starts (before : p.waiting = true) (open_ : w.cooldownUntil = none)
      (after : p'.inCycle = true) : Progress now w p p' [] none w
  | continues (before : p.inCycle = true) (after : p'.inCycle = true) :
      Progress now w p p' [] none w
  | completes (before : p.inCycle = true) (after : p'.waiting = true) :
      Progress now w p p' [.recordSuccess] none w.recordSuccess
  | fails (before : p.inCycle = true) (after : p'.waiting = true) :
      Progress now w p p' [.recordFailure] none (w.recordFailure now)
  | wedges (before : p.inCycle = true) (after : p'.waiting = true)
      (wedged : (w.recordFailure now).wedged now = true) :
      Progress now w p p' [.recordFailure, .beginCooldown (w.recordFailure now).step] none
        ((w.recordFailure now).beginCooldown now).2
  | relapses (before : p.point = .probing) (after : p'.waiting = true) :
      Progress now w p p' [.beginCooldown w.step] (some false) (w.beginCooldown now).2
  | confirms (before : p.point = .probing) (after : p'.waiting = true) :
      Progress now w p p' [.recordProbeSuccess (w.recordProbeSuccess now).1] (some true)
        (w.recordProbeSuccess now).2

theorem share_waits (cfg : BrokerConfig) (now : ℚ) (d : Device) (p : Poller) :
    (p.share cfg now d).1 = d ∧ (p.share cfg now d).2.1.waiting = true := by
  unfold share
  split <;> exact ⟨rfl, rfl⟩

theorem turn_progress (cfg : BrokerConfig) (now : ℚ) (d : Device) {p₀ : Poller}
    (before : p₀.waiting = true) (p : Poller) (readSettings : Bool) :
    Progress now d.wedge p₀ (p.turn cfg now d readSettings).2.1 [] none
      (p.turn cfg now d readSettings).1.wedge := by
  unfold turn pollOnce
  split
  · exact .waits before rfl
  · rename_i elapsed
    split
    · rename_i due
      exact .probes before (by simpa using elapsed) ((d.wedge.cooldown_iff now).mp (Or.inr due)) rfl
    · rename_i early
      have open_ : d.wedge.cooldownUntil = none := by
        by_contra some_
        exact ((d.wedge.cooldown_iff now).mpr some_).elim elapsed early
      split
      · exact .starts before open_ rfl
      · exact .starts before open_ rfl

theorem readLive_progress (cfg : BrokerConfig) (now : ℚ) (d : Device) (before : p.inCycle = true)
    (registers : List (Nat × Nat)) :
    Progress now d.wedge p (p.readLive cfg now d registers).2.1
      (if registers = [] then [.recordSuccess] else []) none
      (p.readLive cfg now d registers).1.wedge := by
  cases registers with
  | nil =>
    obtain ⟨same, after⟩ := share_waits cfg now ⟨d.store.noteSuccess, d.wedge.recordSuccess⟩ p
    have wedge := congrArg Device.wedge same
    simp only [readLive, if_true]
    rw [wedge]
    exact .completes before after
  | cons register rest => exact .continues before rfl

theorem failed_progress (cfg : BrokerConfig) (now : ℚ) (d : Device) (before : p.inCycle = true) :
    Progress now d.wedge p (p.failed cfg now d).2.1
      (let failed := d.wedge.recordFailure now
        if failed.wedged now && !failed.inCooldown now then
          [.recordFailure, .beginCooldown failed.step]
        else [.recordFailure])
      none (p.failed cfg now d).1.wedge := by
  unfold failed
  dsimp only
  split
  · rename_i wedged
    simp only [Bool.and_eq_true] at wedged
    exact .wedges before rfl wedged.1
  · obtain ⟨same, after⟩ :=
      share_waits cfg now ⟨d.store.noteFailure, d.wedge.recordFailure now⟩ p
    have wedge := congrArg Device.wedge same
    rw [wedge]
    exact .fails before after

theorem probed_wedge (cfg : BrokerConfig) (now : ℚ) (d : Device) (p : Poller) (data : List Int) :
    (p.probed cfg now d data).1.wedge = (d.wedge.recordProbeSuccess now).2 := by
  have shared := fun store : DeviceState => congrArg Device.wedge
    (share_waits cfg now ⟨store, (d.wedge.recordProbeSuccess now).2⟩ p).1
  unfold probed
  dsimp only
  split <;> exact shared _

theorem probed_progress (cfg : BrokerConfig) (now : ℚ) (d : Device) (before : p.point = .probing)
    (data : List Int) :
    Progress now d.wedge p (p.probed cfg now d data).2.1
      [.recordProbeSuccess (d.wedge.recordProbeSuccess now).1] (some true)
      (p.probed cfg now d data).1.wedge := by
  have after : (p.probed cfg now d data).2.1.waiting = true := by
    unfold probed
    dsimp only
    split <;> exact (share_waits cfg now _ p).2
  rw [probed_wedge]
  exact .confirms before after

theorem step_progress (h : p.step cfg now wants d e = some r) :
    Progress now d.wedge p r.2.1 (p.wedgeCalls now d.wedge e) (p.probeOutcome e) r.1.wedge := by
  cases step_stepped h with
  | slept point => exact .waits (by simp [waiting, point]) rfl
  | turned point => exact turn_progress cfg now d (by simp [waiting, point]) _ _
  | probed point =>
    simp only [wedgeCalls, probeOutcome, point]
    exact probed_progress cfg now d point _
  | relapsed point =>
    simp only [wedgeCalls, probeOutcome, point]
    exact .relapses point rfl
  | settings point =>
    simp only [wedgeCalls, probeOutcome, point]
    exact readLive_progress cfg now ⟨_, d.wedge⟩ (by simp [inCycle, point]) liveRegisters
  | @live address length rest data point =>
    have inside := readLive_progress cfg now ⟨d.store.updateLive now address data, d.wedge⟩
      (p := p) (by simp [inCycle, point]) rest
    cases rest with
    | nil => simpa [wedgeCalls, probeOutcome, point] using inside
    | cons register rest => simpa [wedgeCalls, probeOutcome, point] using inside
  | failed inside =>
    have progress := failed_progress cfg now d inside
    unfold inCycle at inside
    split at inside
    · rename_i point
      simpa [wedgeCalls, probeOutcome, point] using progress
    · rename_i point
      simpa [wedgeCalls, probeOutcome, point] using progress
    · cases inside
  | closed point =>
    obtain ⟨same, after⟩ := share_waits cfg now d p
    simp only [wedgeCalls]
    rw [same]
    exact .waits (by simp [waiting, point]) after
  | broadcast point => exact .waits (by simp [waiting, point]) rfl

theorem outside_of_waiting (waiting : p.waiting = true) :
    p.inCycle = false ∧ p.point ≠ .probing := by
  unfold Poller.waiting at waiting
  unfold inCycle
  cases point : p.point <;> simp_all

/-- A loop that waits for nothing of its own leaves the controller alone, and asks for a read only
outside a cooldown. -/
theorem Progress.of_waiting {w w' : WedgeRecovery} {p' : Poller} {calls : List WedgeCall}
    {outcome : Option Bool} (progress : Progress now w p p' calls outcome w')
    (waiting : p.waiting = true) :
    calls = [] ∧ outcome = none ∧ w' = w ∧ (p'.waiting = false → w.inCooldown now = false) := by
  obtain ⟨outside, idle⟩ := outside_of_waiting waiting
  cases progress with
  | waits _ after => exact ⟨rfl, rfl, rfl, fun busy => absurd after (by simp [busy])⟩
  | probes _ elapsed => exact ⟨rfl, rfl, rfl, fun _ => elapsed⟩
  | starts _ open_ => exact ⟨rfl, rfl, rfl, fun _ => WedgeRecovery.inCooldown_none open_ now⟩
  | continues before | completes before | fails before | wedges before =>
    simp [outside] at before
  | relapses before | confirms before => exact absurd before idle

/-- The loop submits a read only when it then waits for one. -/
theorem step_submits (h : p.step cfg now wants d e = some r) {source : Source} {op : Call}
    (submitted : .submit source op ∈ r.2.2) : r.2.1.waiting = false := by
  have silent := fun d' => (share_calm cfg now d' p).2 source op
  have ends : ∀ d' registers, .submit source op ∈ (p.readLive cfg now d' registers).2.2 →
      (p.readLive cfg now d' registers).2.1.waiting = false := by
    intro d' registers member
    cases registers with
    | nil => simp [readLive, silent] at member
    | cons register rest => rfl
  cases step_stepped h with
  | slept | broadcast => cases submitted
  | turned =>
    unfold turn pollOnce at submitted ⊢
    split at submitted
    · simp at submitted
    · rename_i elapsed
      rw [if_neg elapsed]
      split at submitted
      · rename_i due
        rw [if_pos due]
        rfl
      · rename_i early
        rw [if_neg early]
        split
        · rfl
        · rfl
  | probed =>
    unfold probed at submitted
    dsimp only at submitted
    split at submitted <;> simp [silent] at submitted
  | relapsed => simp [rest] at submitted
  | settings => exact ends _ _ (by simpa using submitted)
  | live => exact ends _ _ submitted
  | failed =>
    unfold failed at submitted
    dsimp only at submitted
    split at submitted <;> simp [rest, silent] at submitted
  | closed => exact absurd submitted (silent d)

/-- The log tells what happened: its calls, one after the other, return what it says and leave
the controller as the segment does. -/
theorem Progress.replays {w w' : WedgeRecovery} {p' : Poller} {calls : List WedgeCall}
    {outcome : Option Bool} (progress : Progress now w p p' calls outcome w') :
    calls.foldlM (WedgeCall.run now) w = some w' := by
  cases progress <;> simp [WedgeCall.run, WedgeRecovery.beginCooldown]

end Poller

namespace Broker

variable {cfg : BrokerConfig} {b b' : Broker} {e : Event} {effects : List Effect}

def wedgeCalls (b : Broker) : Event → List WedgeCall
  | .poll e => b.poller.wedgeCalls b.now b.device.wedge e
  | _ => []

def probeOutcome (b : Broker) : Event → Option Bool
  | .poll e => b.poller.probeOutcome e
  | _ => none

def wedgeLog (ms : List (Move Broker Event Effect)) : List WedgeCall :=
  ms.flatMap fun m => m.before.wedgeCalls m.event

def probeOutcomes (ms : List (Move Broker Event Effect)) : List Bool :=
  ms.filterMap fun m => m.before.probeOutcome m.event

theorem probeOutcomes_snoc (ms : List (Move Broker Event Effect))
    (m : Move Broker Event Effect) :
    probeOutcomes (ms ++ [m]) = probeOutcomes ms ++ (m.before.probeOutcome m.event).toList := by
  unfold probeOutcomes
  rw [List.filterMap_append]
  cases outcome : m.before.probeOutcome m.event <;> simp [outcome]

theorem wedgeLog_snoc (ms : List (Move Broker Event Effect))
    (m : Move Broker Event Effect) :
    wedgeLog (ms ++ [m]) = wedgeLog ms ++ m.before.wedgeCalls m.event := by
  simp [wedgeLog]

/-- Only the poll loop touches the controller; the other tasks leave both as they are. -/
theorem step_progress (h : step cfg b e = some (b', effects)) :
    ((∀ e', e ≠ .poll e') ∧ b'.poller = b.poller ∧ b'.device.wedge = b.device.wedge ∧
      b.wedgeCalls e = [] ∧ b.probeOutcome e = none ∧ b.now ≤ b'.now) ∨
    (∃ e', e = .poll e' ∧ b'.now = b.now ∧ Poller.Progress b.now b.device.wedge b.poller b'.poller
      (b.wedgeCalls e) (b.probeOutcome e) b'.device.wedge) := by
  cases (step_stepped h).2 with
  | poll polled => exact Or.inr ⟨_, rfl, rfl, Poller.step_progress polled⟩
  | advance forward => exact Or.inl ⟨nofun, rfl, rfl, rfl, rfl, by simpa using forward⟩
  | subscribe | unsubscribe | publish | mqttMessage | command | wsCommand | intent
    | frontendFrame => exact Or.inl ⟨nofun, rfl, rfl, rfl, rfl, le_refl b.now⟩

/-- The calls in the log are the calls that are made: with these answers, and in this order, they
take the controller through every move. -/
def Logged (ms : List (Move Broker Event Effect)) : Prop :=
  ∀ m ∈ ms, (m.before.wedgeCalls m.event).foldlM (WedgeCall.run m.before.now)
    m.before.device.wedge = some m.after.device.wedge

theorem log_exact (h : step cfg b e = some (b', effects)) :
    (b.wedgeCalls e).foldlM (WedgeCall.run b.now) b.device.wedge = some b'.device.wedge := by
  rcases step_progress h with ⟨-, -, wedge, calls, -, -⟩ | ⟨_, -, -, progress⟩
  · rw [calls, wedge]
    rfl
  · exact progress.replays

/-- A broker whose controller is built with these settings. -/
def tuned (cfg : BrokerConfig) (wedgeAfter : ℚ) (cooldownSteps : List ℚ)
    (steps_ne : cooldownSteps ≠ []) (resumeAfterProbes : Int) : Broker :=
  { start cfg with
    device.wedge := .new wedgeAfter cooldownSteps steps_ne resumeAfterProbes.toNat }

/-- How the controller was built, and that the ladder is at its foot outside a cooldown. -/
structure Tuned (wedgeAfter : ℚ) (cooldownSteps : List ℚ) (probes : Nat) (w : WedgeRecovery) :
    Prop where
  wedgeAfter : w.wedgeAfter = wedgeAfter
  cooldownSteps : w.cooldownSteps = cooldownSteps
  resumeAfterProbes : w.resumeAfterProbes = probes
  foot : w.cooldownUntil = none → w.cooldownIndex = 0

variable {wedgeAfter : ℚ} {cooldownSteps : List ℚ} {steps_ne : cooldownSteps ≠ []}
  {resumeAfterProbes : Int} {probes : Nat}

theorem progress_tuned {now : ℚ} {w w' : WedgeRecovery} {p p' : Poller} {calls : List WedgeCall}
    {outcome : Option Bool} (tuned : Tuned wedgeAfter cooldownSteps probes w)
    (progress : Poller.Progress now w p p' calls outcome w') :
    Tuned wedgeAfter cooldownSteps probes w' := by
  obtain ⟨after, steps, needed, foot⟩ := tuned
  cases progress with
  | waits | probes | starts | continues => exact ⟨after, steps, needed, foot⟩
  | completes => exact ⟨after, steps, needed, fun _ => rfl⟩
  | fails =>
    rw [WedgeRecovery.recordFailure_eq]
    exact ⟨after, steps, needed, foot⟩
  | wedges =>
    rw [WedgeRecovery.recordFailure_eq]
    exact ⟨after, steps, needed, nofun⟩
  | relapses => exact ⟨after, steps, needed, nofun⟩
  | confirms =>
    rcases w.recordProbeSuccess_cases now with ⟨_, eq⟩ | ⟨_, eq⟩
    · rw [eq]
      exact ⟨after, steps, needed, fun _ => rfl⟩
    · rw [eq]
      exact ⟨after, steps, needed, nofun⟩

theorem step_tuned (sound : Tuned wedgeAfter cooldownSteps probes b.device.wedge)
    (h : step cfg b e = some (b', effects)) :
    Tuned wedgeAfter cooldownSteps probes b'.device.wedge := by
  rcases step_progress h with ⟨-, -, same, -, -, -⟩ | ⟨_, -, -, progress⟩
  · rw [same]
    exact sound
  · exact progress_tuned sound progress

theorem tuned_tuned (cfg : BrokerConfig) : Tuned wedgeAfter cooldownSteps
    (max 1 resumeAfterProbes).toNat
    (tuned cfg wedgeAfter cooldownSteps steps_ne resumeAfterProbes).device.wedge := by
  refine ⟨rfl, rfl, ?_, fun _ => rfl⟩
  show max 1 resumeAfterProbes.toNat = _
  omega

theorem tuned_fits (cfg : BrokerConfig) :
    (tuned cfg wedgeAfter cooldownSteps steps_ne resumeAfterProbes).poller.Fits
      (tuned cfg wedgeAfter cooldownSteps steps_ne resumeAfterProbes).now
      (tuned cfg wedgeAfter cooldownSteps steps_ne resumeAfterProbes).device.wedge := by
  have fits := start_fits cfg
  exact ⟨fun _ => rfl, fun probing => absurd rfl (fits.probe probing).2⟩

/- The rest. -/

/-- The deadline has passed, or the loop waits it out. -/
def RestedUntil (deadline : ℚ) (b : Broker) : Prop :=
  deadline ≤ b.now ∨ (b.device.wedge.cooldownUntil = some deadline ∧ b.poller.waiting = true)

/-- No read is submitted by the poll loop before the step of a cooldown has passed. -/
def Rests (ms : List (Move Broker Event Effect)) : Prop :=
  ∀ front m back, ms = front ++ m :: back →
    ∀ step, .beginCooldown step ∈ m.before.wedgeCalls m.event →
      ∀ n ∈ back, ∀ e source op, n.event = .poll e → .submit source op ∈ n.emits →
        m.before.now + step ≤ n.before.now

theorem step_restedUntil {deadline : ℚ} (rested : b.RestedUntil deadline)
    (h : step cfg b e = some (b', effects)) : b'.RestedUntil deadline := by
  rcases step_progress h with ⟨-, poller, wedge, -, -, later⟩ | ⟨_, -, now, progress⟩
  · rw [RestedUntil, poller, wedge]
    exact rested.imp_left fun passed => passed.trans later
  · rcases rested with passed | ⟨set_, waiting⟩
    · exact Or.inl (now ▸ passed)
    · obtain ⟨-, -, same, busy⟩ := progress.of_waiting waiting
      by_cases passed : deadline ≤ b.now
      · exact Or.inl (now ▸ passed)
      · have cooling : b.device.wedge.inCooldown b.now = true := by
          simpa [WedgeRecovery.inCooldown, set_] using passed
        refine Or.inr ⟨same ▸ set_, ?_⟩
        by_contra reads
        simp [busy (by simpa using reads)] at cooling

/-- `begin_cooldown` sets the deadline, and the loop waits for nothing after it. -/
theorem begun_restedUntil {step : ℚ} (begun : .beginCooldown step ∈ b.wedgeCalls e)
    (h : Broker.step cfg b e = some (b', effects)) : b'.RestedUntil (b.now + step) := by
  rcases step_progress h with ⟨-, -, -, calls, -, -⟩ | ⟨_, -, -, progress⟩
  · simp [calls] at begun
  · unfold RestedUntil
    generalize b.wedgeCalls e = calls, b.probeOutcome e = outcome, b'.device.wedge = w'
      at begun progress ⊢
    cases progress with
    | waits | probes | starts | continues | completes | fails | confirms => simp at begun
    | wedges _ after =>
      obtain rfl : step = (b.device.wedge.recordFailure b.now).step := by simpa using begun
      exact Or.inr ⟨rfl, after⟩
    | relapses _ after =>
      obtain rfl : step = b.device.wedge.step := by simpa using begun
      exact Or.inr ⟨rfl, after⟩

theorem poll_submits {e : PollEvent} (h : step cfg b (.poll e) = some (b', effects))
    {source : Source} {op : Call} (submitted : .submit source op ∈ effects) :
    b'.poller.waiting = false := by
  cases (step_stepped h).2 with
  | poll polled => exact Poller.step_submits polled submitted

theorem rests {start : Broker} {ms : List (Move Broker Event Effect)} {s : Broker}
    (run : Run (step cfg) start ms s) : Rests ms := by
  rintro front m back rfl length begun n member e source op event submitted
  have after := begun_restedUntil begun (run.move_step (by simp))
  have before : n.before.RestedUntil (m.before.now + length) :=
    run.after.invariant_before _ after (fun _ _ _ _ => step_restedUntil) member
  have moved := run.after.move_step member
  rcases before with passed | ⟨set_, waiting⟩
  · exact passed
  · have reading : n.after.poller.waiting = false := poll_submits (event ▸ moved) submitted
    rcases step_progress moved with ⟨-, same, -, -, -, -⟩ | ⟨_, -, -, progress⟩
    · rw [same, waiting] at reading
      cases reading
    · have elapsed := (progress.of_waiting waiting).2.2.2 reading
      simpa [WedgeRecovery.inCooldown, set_] using elapsed

/- The ladder. -/

/-- How many cooldowns have begun since polling was last resumed. -/
def begun (log : List WedgeCall) : Nat :=
  (log.rtakeWhile fun call => call ≠ .recordProbeSuccess true).countP WedgeCall.begins

theorem begun_concat (log : List WedgeCall) (call : WedgeCall) :
    begun (log ++ [call]) =
      if call = .recordProbeSuccess true then 0
      else begun log + if call.begins then 1 else 0 := by
  unfold begun
  rw [List.rtakeWhile_concat]
  by_cases resumed : call = .recordProbeSuccess true
  · simp [resumed]
  · simp [resumed, List.countP_append, List.countP_singleton]

/-- The cooldown that begins is the one that the ladder has for the number of them. -/
def Climbs (cooldownSteps : List ℚ) (ms : List (Move Broker Event Effect)) : Prop :=
  Along (fun front m => ∀ step, .beginCooldown step ∈ m.before.wedgeCalls m.event →
    cooldownSteps[min (begun (wedgeLog front)) (cooldownSteps.length - 1)]? = some step) ms

theorem step_index {log : List WedgeCall} (sound : Tuned wedgeAfter cooldownSteps probes
    b.device.wedge) (index : b.device.wedge.cooldownIndex = begun log) (fits : b.poller.Fits b.now
    b.device.wedge) (h : step cfg b e = some (b', effects)) :
    b'.device.wedge.cooldownIndex = begun (log ++ b.wedgeCalls e) := by
  rcases step_progress h with ⟨-, -, same, calls, -, -⟩ | ⟨_, -, -, progress⟩
  · rw [same, calls, List.append_nil]
    exact index
  · have foot := sound.foot
    have cycle := fits.cycle
    generalize b.wedgeCalls e = calls, b.probeOutcome e = outcome, b'.device.wedge = w'
      at progress ⊢
    cases progress with
    | waits | probes | starts | continues => rw [List.append_nil, index]
    | completes before =>
      rw [begun_concat, ← index, foot (cycle before)]
      rfl
    | fails =>
      rw [WedgeRecovery.recordFailure_eq, begun_concat, ← index]
      rfl
    | wedges =>
      rw [show ∀ a b : WedgeCall, log ++ [a, b] = (log ++ [a]) ++ [b] by simp, begun_concat,
        begun_concat, ← index, WedgeRecovery.recordFailure_eq]
      rfl
    | relapses =>
      rw [begun_concat, ← index]
      rfl
    | confirms =>
      rw [begun_concat]
      rcases b.device.wedge.recordProbeSuccess_cases b.now with ⟨_, eq⟩ | ⟨_, eq⟩
      · rw [eq]
        rfl
      · rw [eq, ← index]
        rfl

theorem begun_step {step : ℚ} (sound : Tuned wedgeAfter cooldownSteps probes b.device.wedge)
    (begun : .beginCooldown step ∈ b.wedgeCalls e)
    (h : Broker.step cfg b e = some (b', effects)) :
    cooldownSteps[min b.device.wedge.cooldownIndex (cooldownSteps.length - 1)]? = some step := by
  have rung : ∀ w : WedgeRecovery, w.cooldownSteps = cooldownSteps →
      cooldownSteps[min w.cooldownIndex (cooldownSteps.length - 1)]? = some w.step := by
    rintro w rfl
    have positive : 0 < w.cooldownSteps.length := List.length_pos_iff.mpr w.steps_ne
    have inside : min w.cooldownIndex (w.cooldownSteps.length - 1) < w.cooldownSteps.length := by
      omega
    rw [WedgeRecovery.step, List.getElem?_eq_getElem inside, Option.getD_some]
  rcases step_progress h with ⟨-, -, -, calls, -, -⟩ | ⟨_, -, -, progress⟩
  · simp [calls] at begun
  · generalize b.wedgeCalls e = calls, b.probeOutcome e = outcome, b'.device.wedge = w'
      at begun progress
    cases progress with
    | waits | probes | starts | continues | completes | fails | confirms => simp at begun
    | wedges =>
      obtain rfl : step = (b.device.wedge.recordFailure b.now).step := by simpa using begun
      have here := rung (b.device.wedge.recordFailure b.now)
      rw [WedgeRecovery.recordFailure_eq] at here ⊢
      exact here sound.cooldownSteps
    | relapses =>
      obtain rfl : step = b.device.wedge.step := by simpa using begun
      exact rung b.device.wedge sound.cooldownSteps

theorem climbs {start : Broker} (tuned : Tuned wedgeAfter cooldownSteps probes start.device.wedge)
    (foot : start.device.wedge.cooldownIndex = 0)
    (fits : start.poller.Fits start.now start.device.wedge)
    {ms : List (Move Broker Event Effect)} {s : Broker} (run : Run (step cfg) start ms s) :
    Climbs cooldownSteps ms := by
  have all : Climbs cooldownSteps ms ∧ Tuned wedgeAfter cooldownSteps probes s.device.wedge ∧
      s.poller.Fits s.now s.device.wedge ∧
      s.device.wedge.cooldownIndex = begun (wedgeLog ms) := by
    induction run with
    | nil => exact ⟨by rintro ⟨⟩ _ _ ⟨⟩, tuned, fits, foot⟩
    | snoc _ h ih =>
      obtain ⟨climbs, sound, fits, index⟩ := ih
      refine ⟨Runs.along_snoc.mpr ⟨climbs, ?_⟩, step_tuned sound h, step_fits fits h, ?_⟩
      · intro step begun
        rw [← index]
        exact begun_step sound begun h
      · rw [wedgeLog_snoc]
        exact step_index sound index fits h
  exact all.1

/- The grading. -/

def StartsCycle (m : Move Broker Event Effect) : Prop :=
  m.before.poller.inCycle = false ∧ m.after.poller.inCycle = true

/-- Between a `begin_cooldown` and the next normal poll cycle, the last probes, as many as it
takes, were all good. -/
def Graded (probes : Nat) (ms : List (Move Broker Event Effect)) : Prop :=
  ∀ front m mid n back, ms = front ++ m :: (mid ++ n :: back) →
    (∃ step, .beginCooldown step ∈ m.before.wedgeCalls m.event) → StartsCycle n →
    (∀ x ∈ mid, ¬ StartsCycle x) →
    ∃ earlier, probeOutcomes mid = earlier ++ List.replicate probes true

/-- Outside a poll cycle: probing is under way and its run of good probes is counted, or it is
over and the run was long enough. -/
structure Confirming (probes : Nat) (outcomes : List Bool) (b : Broker) : Prop where
  outside : b.poller.inCycle = false
  needed : b.device.wedge.resumeAfterProbes = probes
  counted : b.device.wedge.cooldownUntil ≠ none → ∃ earlier,
    outcomes = earlier ++ List.replicate b.device.wedge.probeSuccesses true
  confirmed : b.device.wedge.cooldownUntil = none → b.poller.point ≠ .probing ∧
    ∃ earlier, outcomes = earlier ++ List.replicate probes true

theorem step_confirming {outcomes : List Bool} (confirming : b.Confirming probes outcomes)
    (h : step cfg b e = some (b', effects)) (outside : ¬ StartsCycle ⟨b, e, effects, b'⟩) :
    b'.Confirming probes (outcomes ++ (b.probeOutcome e).toList) := by
  obtain ⟨before, needed, counted, confirmed⟩ := confirming
  rcases step_progress h with ⟨-, poller, wedge, -, outcome, -⟩ | ⟨_, -, -, progress⟩
  · rw [outcome, Option.toList_none, List.append_nil]
    constructor
    · rw [poller]
      exact before
    · rw [wedge]
      exact needed
    · rw [wedge]
      exact counted
    · rw [wedge, poller]
      exact confirmed
  · generalize wedge' : b'.device.wedge = w' at progress
    generalize b.wedgeCalls e = calls, b.probeOutcome e = outcome at progress ⊢
    cases progress with
    | waits _ after =>
      obtain ⟨quiet, idle⟩ := Poller.outside_of_waiting after
      rw [Option.toList_none, List.append_nil]
      exact ⟨quiet, wedge' ▸ needed, wedge' ▸ counted,
        fun rested => ⟨idle, (confirmed (wedge' ▸ rested)).2⟩⟩
    | probes _ _ due after =>
      rw [Option.toList_none, List.append_nil]
      exact ⟨by simp [Poller.inCycle, after], wedge' ▸ needed, wedge' ▸ counted,
        fun rested => absurd (wedge' ▸ rested) due⟩
    | starts _ _ after => exact absurd ⟨before, after⟩ outside
    | continues inside | completes inside | fails inside | wedges inside =>
      simp [before] at inside
    | relapses _ after =>
      obtain ⟨quiet, -⟩ := Poller.outside_of_waiting after
      refine ⟨quiet, wedge' ▸ needed, fun _ => ⟨outcomes ++ [false], ?_⟩, fun rested => ?_⟩
      · simp [wedge', WedgeRecovery.beginCooldown]
      · simp [wedge', WedgeRecovery.beginCooldown] at rested
    | confirms probing after =>
      obtain ⟨quiet, idle⟩ := Poller.outside_of_waiting after
      have resting : b.device.wedge.cooldownUntil ≠ none :=
        fun rested => (confirmed rested).1 probing
      obtain ⟨earlier, run⟩ := counted resting
      have longer : outcomes ++ (some true).toList =
          earlier ++ List.replicate (b.device.wedge.probeSuccesses + 1) true := by
        rw [run, List.replicate_succ', List.append_assoc]
        rfl
      rcases b.device.wedge.recordProbeSuccess_cases b.now with ⟨enough, eq⟩ | ⟨_, eq⟩
      · rw [eq] at wedge'
        refine ⟨quiet, wedge' ▸ needed, fun set_ => absurd (by rw [wedge']; rfl) set_, ?_⟩
        -- One good probe more than were counted is at least as many as it takes.
        intro _
        refine ⟨idle, earlier ++
          List.replicate (b.device.wedge.probeSuccesses + 1 - probes) true, ?_⟩
        rw [longer, List.append_assoc, List.replicate_append_replicate]
        congr 2
        omega
      · rw [eq] at wedge'
        refine ⟨quiet, wedge' ▸ needed, fun _ => ⟨earlier, ?_⟩, fun rested => ?_⟩
        · rw [longer, wedge']
        · simp [wedge'] at rested

theorem begun_confirming {step : ℚ} (sound : Tuned wedgeAfter cooldownSteps probes b.device.wedge)
    (begun : .beginCooldown step ∈ b.wedgeCalls e)
    (h : Broker.step cfg b e = some (b', effects)) : b'.Confirming probes [] := by
  have needed := (step_tuned sound h).resumeAfterProbes
  rcases step_progress h with ⟨-, -, -, calls, -, -⟩ | ⟨_, -, -, progress⟩
  · simp [calls] at begun
  · generalize wedge' : b'.device.wedge = w' at progress
    generalize b.wedgeCalls e = calls, b.probeOutcome e = outcome at begun progress
    cases progress with
    | waits | probes | starts | continues | completes | fails | confirms => simp at begun
    | wedges _ after | relapses _ after =>
      obtain ⟨quiet, -⟩ := Poller.outside_of_waiting after
      refine ⟨quiet, needed, fun _ => ⟨[], ?_⟩, fun rested => ?_⟩
      · simp [wedge', WedgeRecovery.beginCooldown]
      · simp [wedge', WedgeRecovery.beginCooldown] at rested

theorem starts_open (outside : StartsCycle ⟨b, e, effects, b'⟩)
    (h : step cfg b e = some (b', effects)) : b.device.wedge.cooldownUntil = none := by
  obtain ⟨before, after⟩ := outside
  dsimp only at before after
  rcases step_progress h with ⟨-, poller, -, -, -, -⟩ | ⟨_, -, -, progress⟩
  · simp [poller, before] at after
  · generalize b'.device.wedge = w', b.wedgeCalls e = calls, b.probeOutcome e = outcome at progress
    cases progress with
    | starts _ open_ => exact open_
    | probes _ _ _ probing => simp [Poller.inCycle, probing] at after
    | waits _ waiting | relapses _ waiting | confirms _ waiting =>
      simp [(Poller.outside_of_waiting waiting).1] at after
    | continues inside | completes inside | fails inside | wedges inside =>
      simp [before] at inside

theorem confirming_run {start : Broker} (first : start.Confirming probes [])
    {ms : List (Move Broker Event Effect)} {s : Broker} (run : Run (step cfg) start ms s)
    (quiet : ∀ m ∈ ms, ¬ StartsCycle m) : s.Confirming probes (probeOutcomes ms) := by
  induction run with
  | nil => exact first
  | snoc _ h ih =>
    obtain ⟨earlier, last⟩ := Runs.forall_snoc.mp quiet
    rw [probeOutcomes_snoc]
    exact step_confirming (ih earlier) h last

theorem graded {start : Broker}
    (tuned : Tuned wedgeAfter cooldownSteps probes start.device.wedge)
    {ms : List (Move Broker Event Effect)} {s : Broker} (run : Run (step cfg) start ms s) :
    Graded probes ms := by
  rintro front m mid n back rfl ⟨length, begun⟩ starts quiet
  have sound : Tuned wedgeAfter cooldownSteps probes m.before.device.wedge :=
    run.upto.invariant (fun b => Tuned wedgeAfter cooldownSteps probes b.device.wedge) tuned
      fun _ _ _ _ => step_tuned
  have first := begun_confirming sound begun (run.move_step (by simp))
  have between := confirming_run first run.after.upto quiet
  exact (between.confirmed (starts_open starts (run.move_step (by simp)))).2

/-- **Wedge recovery is rested, escalating and graded**, in every run of a broker, whatever the
ladder and the number of probes that it is built with: for the calls of the controller that the
poll loop makes in this run. -/
theorem recovery_rested_escalating_graded
    {ms : List (Move Broker Event Effect)} {s : Broker}
    (run : Run (step cfg) (tuned cfg wedgeAfter cooldownSteps steps_ne resumeAfterProbes) ms s) :
    Logged ms ∧ Rests ms ∧ Climbs cooldownSteps ms ∧
      Graded (max 1 resumeAfterProbes).toNat ms :=
  ⟨fun _ member => log_exact (run.move_step member), rests run,
    climbs (tuned_tuned cfg) rfl (tuned_fits cfg) run, graded (tuned_tuned cfg) run⟩

/-- Two cooldowns, a lost probe and two good ones, and polling again. -/
def relapse : List Event :=
  outage ++ [.poll .resume, .advance 310, .poll .wake, .poll (.read (.error refused)),
    .poll .resume, .advance 610, .poll .wake,
    .poll (.read (.ok (List.replicate 115 0))), .advance 10, .poll .wake,
    .poll (.read (.ok (List.replicate 115 0))), .advance 10, .poll .wake]

theorem recovery_after_relapse :
    ∃ ms s, Run (step mqttConfig) (tuned mqttConfig 45 [300, 600] (by decide) 2) ms s ∧
      (wedgeLog ms).filter WedgeCall.begins = [.beginCooldown 300, .beginCooldown 600] ∧
      probeOutcomes ms = [false, true, true] ∧ s.poller.inCycle = true ∧
      Logged ms ∧ Rests ms ∧ Climbs [300, 600] ms ∧ Graded 2 ms := by
  have fed : (feed (step mqttConfig) (tuned mqttConfig 45 [300, 600] (by decide) 2) relapse).any
      (fun r => (wedgeLog r.2).filter WedgeCall.begins ==
          [.beginCooldown 300, .beginCooldown 600] &&
        probeOutcomes r.2 == [false, true, true] && r.1.poller.inCycle) = true := by
    decide +kernel
  obtain ⟨ms, s, run, _, reached⟩ := Runs.feed_reaches fed
  simp only [Bool.and_eq_true, beq_iff_eq] at reached
  obtain ⟨⟨cooldowns, probes⟩, polling⟩ := reached
  exact ⟨ms, s, run, cooldowns, probes, polling, recovery_rested_escalating_graded run⟩

end Broker

end R60V
