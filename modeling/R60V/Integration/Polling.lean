import R60V.Integration.Coordinator
import R60V.Lib.Runs

/-! Polling mode: `_async_update_data`, suspended at its `await`s. Home Assistant runs one update at
a time; the clock, the button and the outcomes of what is awaited are events. -/
namespace R60V.Integration

open Runs (Run Move Along outputs along_snoc)

inductive ReadExc where
  -- `R60VConnectionError` and `ProtocolError`, which the coordinator catches.
  | connection
  | protocol
  | other
  deriving DecidableEq

def ReadExc.caught : ReadExc → Bool
  | .connection | .protocol => true
  | .other => false

/-- Why an update raises `UpdateFailed`. -/
inductive UpdateFailed where
  | bridgeLink (recovering : Bool)
  | cooldownActive
  | confirming (probes : Nat)
  | stillWedged
  | read (e : ReadExc)
  deriving DecidableEq

/-- The failure counter stands for the failed reads. -/
def UpdateFailed.counted : UpdateFailed → Bool
  | .read _ => true
  | .bridgeLink _ | .cooldownActive | .confirming _ | .stillWedged => false

/-- What an update awaits. -/
inductive Update where
  | idle
  | health
  | probe
  | snapshot
  -- `client.close()`, before it raises; it may enter a cooldown in between.
  | closing (cooldown : Bool) (why : UpdateFailed)
  deriving DecidableEq

structure Polling where
  coordinator : Coordinator Int
  update : Update
  now : ℚ

abbrev Registers := List Int × List (Int × List Int)

inductive PollEvent where
  | advance (seconds : ℚ)
  -- The button; the refresh that it requests is one of the others.
  | endCooldown
  | refresh
  -- The client is asked then whether it is connected.
  | healthFetched (fetched : Option BridgeHealth) (connected : Bool)
  | probed (outcome : Except ReadExc Unit) (connected : Bool)
  | snapshotRead (outcome : Except ReadExc Registers)
  | closed

inductive PollEffect where
  | began
  | read (snapshot : StateSnapshot Int)
  | returned (snapshot : StateSnapshot Int)
  | failed (why : UpdateFailed)
  -- An exception that the coordinator does not expect.
  | escaped
  deriving DecidableEq

namespace Polling

def start (bridgeHealthEnabled : Bool) (now : ℚ) : Polling :=
  ⟨.new false bridgeHealthEnabled, .idle, now⟩

/- The ends of an update, with what Home Assistant makes of them. -/

def returns (s : Polling) (snapshot : StateSnapshot Int) : Polling × List PollEffect :=
  ({ s with coordinator := s.coordinator.setUpdatedData snapshot, update := .idle },
    [.returned snapshot])

def fails (s : Polling) (why : UpdateFailed) : Polling × List PollEffect :=
  ({ s with coordinator := s.coordinator.setUpdateError, update := .idle }, [.failed why])

def escapes (s : Polling) : Polling × List PollEffect :=
  ({ s with coordinator := s.coordinator.setUpdateError, update := .idle }, [.escaped])

def closed (s : Polling) (cooldown : Bool) (why : UpdateFailed) : Polling × List PollEffect :=
  fails { s with
    coordinator := if cooldown then s.coordinator.enterCooldown s.now else s.coordinator } why

-- Closing a client that is not connected does not suspend.
def close (s : Polling) (connected cooldown : Bool) (why : UpdateFailed) :
    Polling × List PollEffect :=
  if connected then ({ s with update := .closing cooldown why }, []) else s.closed cooldown why

/-- The end of an update that has been closing the client. -/
def finish (s : Polling) : Polling :=
  match s.update with
  | .closing cooldown why => (s.closed cooldown why).1
  | _ => s

def healthFetched (s : Polling) (fetched : Option BridgeHealth) (connected : Bool) :
    Polling × List PollEffect :=
  let s := { s with coordinator := s.coordinator.refreshBridgeHealth fetched }
  if s.coordinator.bridgeBlocking then
    s.close connected false
      (.bridgeLink (s.coordinator.bridge.any BridgeHealth.diagnosticWindow))
  else if s.coordinator.inCooldown s.now then s.close connected false .cooldownActive
  else if 0 < s.coordinator.cooldownIndex then ({ s with update := .probe }, [])
  else ({ s with update := .snapshot }, [])

/-- `_probe_healthy` has read the settings, or failed to. -/
def probed (s : Polling) (connected : Bool) : Except ReadExc Unit → Polling × List PollEffect
  | .ok () =>
    let probes := s.coordinator.probeSuccesses + 1
    if resumeAfterProbes ≤ probes then
      ({ s with coordinator := s.coordinator.clearCooldown, update := .snapshot }, [])
    else fails { s with coordinator := { s.coordinator with probeSuccesses := probes } }
      (.confirming probes)
  | .error e => if e.caught then s.close connected true .stillWedged else s.escapes

/-- `_read_snapshot` has returned, or raised. -/
def snapshotRead (s : Polling) : Except ReadExc Registers → Polling × List PollEffect
  | .ok registers =>
    let snapshot : StateSnapshot Int := ⟨registers.1, registers.2, true⟩
    let next := returns { s with coordinator := s.coordinator.clearCooldown } snapshot
    (next.1, .read snapshot :: next.2)
  | .error e =>
    if e.caught then
      let failures := s.coordinator.consecutiveFailures + 1
      let s := { s with coordinator := { s.coordinator with consecutiveFailures := failures } }
      match s.coordinator.data with
      | none => s.fails (.read e)
      | some data =>
        if failures ≤ failureTolerance then s.returns data
        else ({ s with update := .closing true (.read e) }, [])
    else s.escapes

def step (s : Polling) : PollEvent → Option (Polling × List PollEffect)
  | .advance seconds => if 0 ≤ seconds then some ({ s with now := s.now + seconds }, []) else none
  | .endCooldown => some ({ s with coordinator := s.coordinator.clearCooldown }, [])
  | .refresh => if s.update = .idle then some ({ s with update := .health }, [.began]) else none
  | .healthFetched fetched connected =>
    if s.update = .health then some (s.healthFetched fetched connected) else none
  | .probed outcome connected =>
    if s.update = .probe then some (s.probed connected outcome) else none
  | .snapshotRead outcome =>
    if s.update = .snapshot then some (s.snapshotRead outcome) else none
  | .closed =>
    match s.update with
    | .closing cooldown why => some (s.closed cooldown why)
    | _ => none

abbrev Trace := List (Move Polling PollEvent PollEffect)

end Polling

namespace PollEffect

@[simp] def begins : PollEffect → Bool
  | .began => true
  | .read _ | .returned _ | .failed _ | .escaped => false

@[simp] def reads : PollEffect → Bool
  | .read _ => true
  | .began | .returned _ | .failed _ | .escaped => false

/-- With a snapshot in it. -/
@[simp] def brings : PollEffect → Bool
  | .read _ | .returned _ => true
  | .began | .failed _ | .escaped => false

theorem reads_of_not_brings {x : PollEffect} (quiet : x.brings = false) : x.reads = false := by
  cases x with
  | read _ => cases quiet
  | _ => rfl

/-- The end of an update that the failure counter does not show. -/
@[simp] def skips : PollEffect → Bool
  | .failed why => !why.counted
  | .escaped => true
  | .began | .read _ | .returned _ => false

end PollEffect

namespace Polling

/-- The snapshot was read in the last update of these, or in one of the tolerated number before. -/
def Recent (snapshot : StateSnapshot Int) (es : List PollEffect) : Prop :=
  ∃ before after, es = before ++ .read snapshot :: after ∧
    after.countP PollEffect.begins ≤ failureTolerance

/-- What an update returns has been read recently. -/
def Fresh (front : Trace) (m : Move Polling PollEvent PollEffect) : Prop :=
  ∀ snapshot, .returned snapshot ∈ m.emits → Recent snapshot (outputs front ++ m.emits)

def hide (n : Nat) (m : Move Polling PollEvent PollEffect) : Nat :=
  if m.emits.any PollEffect.reads then 0
  else n + m.emits.countP PollEffect.skips +
    (m.before.coordinator.consecutiveFailures - m.after.coordinator.consecutiveFailures)

/-- The updates since the last read that the failure counter does not show: those that ended in
another way than by a failed read, and failed reads that it was made to forget. -/
def hidden (ms : Trace) : Nat := ms.foldl hide 0

/-- Whether a failed read is one for which the cached snapshot is returned. -/
def Tolerates (s : Polling) (x : ReadExc) : Prop :=
  x.caught = true ∧ s.coordinator.data ≠ none ∧
    s.coordinator.consecutiveFailures + 1 ≤ failureTolerance

instance (s : Polling) (x : ReadExc) : Decidable (s.Tolerates x) :=
  inferInstanceAs (Decidable (_ ∧ _ ∧ _))

/-- The condition on a step: where a failed read is tolerated, so is the number of updates since the
last read that the counter does not show, together with its own. -/
def Counted (front : Trace) (m : Move Polling PollEvent PollEffect) : Prop :=
  ∀ x, m.event = .snapshotRead (.error x) → m.before.Tolerates x →
    hidden front + (m.before.coordinator.consecutiveFailures + 1) ≤ failureTolerance

/-- Whether the update that is under way is still to be counted. -/
def uncounted : Update → Nat
  | .idle => 0
  | .closing _ why => if why.counted then 0 else 1
  | .health | .probe | .snapshot => 1

/-- What a step does to the books: it reads, it returns what is cached, or every update that it
begins is accounted for. -/
inductive Books (s : Polling) : PollEvent → Polling → List PollEffect → Prop where
  | read {registers : Registers} {t : Polling}
      (data : t.coordinator.data = some ⟨registers.1, registers.2, true⟩)
      (failures : t.coordinator.consecutiveFailures = 0) (idle : t.update = .idle) :
      Books s (.snapshotRead (.ok registers)) t
        [.read ⟨registers.1, registers.2, true⟩, .returned ⟨registers.1, registers.2, true⟩]
  | tolerated {x : ReadExc} {snapshot : StateSnapshot Int} {t : Polling}
      (reading : s.update = .snapshot) (tolerates : s.Tolerates x)
      (loaded : s.coordinator.data = some snapshot) (data : t.coordinator.data = some snapshot)
      (failures : t.coordinator.consecutiveFailures = s.coordinator.consecutiveFailures + 1)
      (idle : t.update = .idle) : Books s (.snapshotRead (.error x)) t [.returned snapshot]
  | balanced {e : PollEvent} {t : Polling} {es : List PollEffect}
      (refused : ∀ x, e = .snapshotRead (.error x) → ¬ s.Tolerates x)
      (data : t.coordinator.data = s.coordinator.data) (quiet : ∀ x ∈ es, x.brings = false)
      (balance : uncounted t.update + t.coordinator.consecutiveFailures +
          es.countP PollEffect.skips +
          (s.coordinator.consecutiveFailures - t.coordinator.consecutiveFailures) =
        uncounted s.update + s.coordinator.consecutiveFailures + es.countP PollEffect.begins) :
      Books s e t es

variable {s t : Polling} {e : PollEvent} {effects : List PollEffect}

theorem Books.of_some {next : Polling × List PollEffect} (books : Books s e next.1 next.2)
    (h : some next = some (t, effects)) : Books s e t effects := by
  cases h
  exact books

section Ends

variable {c : Coordinator Int} {now : ℚ} {update : Update} {connected cooldown : Bool}
  {why : UpdateFailed} (refused : ∀ x, e = .snapshotRead (.error x) → ¬ s.Tolerates x)
  (data : c.data = s.coordinator.data)
  (failures : c.consecutiveFailures = s.coordinator.consecutiveFailures)
  (due : uncounted s.update = if why.counted then 0 else 1)
include refused data failures due

theorem fails_books :
    Books s e (fails ⟨c, update, now⟩ why).1 (fails ⟨c, update, now⟩ why).2 := by
  refine .balanced refused data (by simp [fails]) ?_
  simp only [fails, Coordinator.consecutiveFailures_setUpdateError, failures, due]
  cases counted : why.counted <;> simp [uncounted, counted]
  omega

theorem closed_books :
    Books s e (closed ⟨c, update, now⟩ cooldown why).1
      (closed ⟨c, update, now⟩ cooldown why).2 := by
  refine fails_books refused ?_ ?_ due
  · split <;> simpa using data
  · split <;> simpa using failures

theorem close_books :
    Books s e (close ⟨c, update, now⟩ connected cooldown why).1
      (close ⟨c, update, now⟩ connected cooldown why).2 := by
  unfold close
  split
  · exact .balanced refused data (by simp) (by rw [due]; simp [uncounted, failures])
  · exact closed_books refused data failures due

end Ends

theorem escapes_books (refused : ∀ x, e = .snapshotRead (.error x) → ¬ s.Tolerates x)
    (due : uncounted s.update = 1) : Books s e s.escapes.1 s.escapes.2 :=
  .balanced refused rfl (by simp [escapes]) (by rw [due]; simp [escapes, uncounted]; omega)

theorem healthFetched_books (health : s.update = .health) (fetched : Option BridgeHealth)
    (connected : Bool) : Books s (.healthFetched fetched connected)
      (s.healthFetched fetched connected).1 (s.healthFetched fetched connected).2 := by
  unfold healthFetched
  dsimp only
  split
  · exact close_books nofun (by simp) (by simp) (by rw [health]; rfl)
  split
  · exact close_books nofun (by simp) (by simp) (by rw [health]; rfl)
  split
  · exact .balanced nofun (by simp) (by simp) (by simp [uncounted, health])
  · exact .balanced nofun (by simp) (by simp) (by simp [uncounted, health])

theorem probed_books (probe : s.update = .probe) (connected : Bool)
    (outcome : Except ReadExc Unit) : Books s (.probed outcome connected)
      (s.probed connected outcome).1 (s.probed connected outcome).2 := by
  cases outcome with
  | ok _ =>
    simp only [probed]
    split
    · exact .balanced nofun rfl (by simp) (by simp [uncounted, probe])
    · exact fails_books nofun rfl rfl (by rw [probe]; rfl)
  | error x =>
    simp only [probed]
    split
    · exact close_books nofun rfl rfl (by rw [probe]; rfl)
    · exact escapes_books nofun (by rw [probe]; rfl)

theorem snapshotRead_books (reading : s.update = .snapshot) (outcome : Except ReadExc Registers) :
    Books s (.snapshotRead outcome) (s.snapshotRead outcome).1 (s.snapshotRead outcome).2 := by
  cases outcome with
  | ok registers => exact .read rfl rfl rfl
  | error x =>
    simp only [snapshotRead]
    split
    · rename_i caught
      split
      · rename_i unloaded
        refine .balanced ?_ rfl (by simp [fails]) ?_
        · rintro _ - ⟨-, loaded, -⟩
          exact loaded unloaded
        · simp [fails, uncounted, UpdateFailed.counted, reading]
          omega
      · rename_i snapshot loaded
        split
        · rename_i few
          exact .tolerated reading ⟨caught, by simp [loaded], few⟩ loaded rfl rfl rfl
        · rename_i many
          refine .balanced ?_ rfl (by simp) ?_
          · rintro _ - ⟨-, -, few⟩
            exact many few
          · simp [uncounted, UpdateFailed.counted, reading]
            omega
    · rename_i uncaught
      refine escapes_books ?_ (by rw [reading]; rfl)
      rintro _ ⟨⟩ ⟨caught, -⟩
      exact uncaught caught

theorem step_books (h : s.step e = some (t, effects)) : Books s e t effects := by
  cases e with
  | advance seconds =>
    simp only [step] at h
    split at h
    · cases h
      exact .balanced nofun rfl (by simp) (by simp)
    · cases h
  | endCooldown =>
    cases h
    exact .balanced nofun rfl (by simp) (by simp)
  | refresh =>
    simp only [step] at h
    split at h
    · rename_i idle
      cases h
      exact .balanced nofun rfl (by simp) (by simp [uncounted, idle]; omega)
    · cases h
  | healthFetched fetched connected =>
    simp only [step] at h
    split at h
    · rename_i health
      exact (healthFetched_books health fetched connected).of_some h
    · cases h
  | probed outcome connected =>
    simp only [step] at h
    split at h
    · rename_i probe
      exact (probed_books probe connected outcome).of_some h
    · cases h
  | snapshotRead outcome =>
    simp only [step] at h
    split at h
    · rename_i reading
      exact (snapshotRead_books reading outcome).of_some h
    · cases h
  | closed =>
    simp only [step] at h
    split at h
    · rename_i cooldown why closing
      have books : Books s .closed (s.closed cooldown why).1 (s.closed cooldown why).2 :=
        closed_books nofun rfl rfl (by rw [closing]; rfl)
      exact books.of_some h
    · cases h

variable {ms : Trace}

/-- The cached snapshot is the last one that was read; the updates since then are the hidden ones,
those that the counter stands for, and the one that is under way. -/
def Tracked (ms : Trace) (s : Polling) : Prop :=
  ∀ data, s.coordinator.data = some data → ∃ before after,
    outputs ms = before ++ .read data :: after ∧ (∀ x ∈ after, x.reads = false) ∧
    after.countP PollEffect.begins =
      hidden ms + s.coordinator.consecutiveFailures + uncounted s.update

theorem hidden_snoc (m : Move Polling PollEvent PollEffect) :
    hidden (ms ++ [m]) = hide (hidden ms) m := by
  simp [hidden, List.foldl_append]

theorem step_tracked (tracked : Tracked ms s) (h : s.step e = some (t, effects)) :
    Tracked (ms ++ [⟨s, e, effects, t⟩]) t := by
  intro data loaded
  rw [Runs.outputs_snoc, hidden_snoc]
  cases step_books h with
  | @read registers _ same failures idle =>
    obtain rfl := Option.some.inj (same.symm.trans loaded)
    exact ⟨outputs ms, [.returned ⟨registers.1, registers.2, true⟩], rfl, by simp,
      by simp [hide, failures, idle, uncounted]⟩
  | @tolerated x snapshot _ reading tolerates known same failures idle =>
    obtain rfl := Option.some.inj (same.symm.trans loaded)
    obtain ⟨before, after, split_, silent, count⟩ := tracked snapshot known
    rw [reading] at count
    refine ⟨before, after ++ [.returned snapshot], by simp [split_], ?_, ?_⟩
    · intro x member
      rcases List.mem_append.mp member with member | member
      · exact silent x member
      · rw [List.mem_singleton.mp member]
        rfl
    · simp [hide, count, failures, idle, uncounted]
      omega
  | balanced _ same quiet balance =>
    obtain ⟨before, after, split_, silent, count⟩ := tracked data (same.symm.trans loaded)
    have unread : ∀ x ∈ effects, x.reads = false := fun x member =>
      PollEffect.reads_of_not_brings (quiet x member)
    refine ⟨before, after ++ effects, by simp [split_], ?_, ?_⟩
    · intro x member
      rcases List.mem_append.mp member with member | member
      · exact silent x member
      · exact unread x member
    · have none_ : effects.any PollEffect.reads = false :=
        List.any_eq_false.mpr (by simpa using unread)
      simp only [hide, none_, Bool.false_eq_true, if_false, List.countP_append, count]
      omega

/-- The updates since a read are no fewer than those since the last one. -/
theorem countP_after {p : PollEffect → Bool} {before after before' after' : List PollEffect}
    {x y : PollEffect} (same : before ++ x :: after = before' ++ y :: after')
    (reads : x.reads = true) (silent : ∀ z ∈ after', z.reads = false) :
    after'.countP p ≤ after.countP p := by
  rcases List.append_eq_append_iff.mp same with ⟨more, -, rest⟩ | ⟨more, -, rest⟩
  · -- The last read comes later, or is the same.
    cases more with
    | nil =>
      obtain ⟨-, rfl⟩ := List.cons.inj rest
      exact le_rfl
    | cons z more =>
      obtain ⟨-, rfl⟩ := List.cons.inj rest
      have later : after' <:+ more ++ y :: after' := ⟨more ++ [y], by simp⟩
      exact later.sublist.countP_le
  · cases more with
    | nil =>
      obtain ⟨-, rfl⟩ := List.cons.inj rest
      exact le_rfl
    | cons z more =>
      obtain ⟨-, rfl⟩ := List.cons.inj rest
      have quiet := silent x (by simp)
      rw [reads] at quiet
      cases quiet

theorem tracked_recent {snapshot : StateSnapshot Int} {before after : List PollEffect}
    (silent : ∀ x ∈ after, x.reads = false) :
    Recent snapshot (before ++ .read snapshot :: after) ↔
      after.countP PollEffect.begins ≤ failureTolerance := by
  constructor
  · rintro ⟨before', after', same, few⟩
    exact (countP_after same.symm rfl silent).trans few
  · exact fun few => ⟨before, after, rfl, few⟩

theorem step_fresh (tracked : Tracked ms s) (h : s.step e = some (t, effects)) :
    Fresh ms ⟨s, e, effects, t⟩ ↔ Counted ms ⟨s, e, effects, t⟩ := by
  cases step_books h with
  | @read registers _ _ _ _ =>
    refine iff_of_true ?_ nofun
    intro snapshot returned
    obtain rfl : snapshot = ⟨registers.1, registers.2, true⟩ := by simpa using returned
    exact ⟨outputs ms, [.returned _], rfl, by simp⟩
  | @tolerated x snapshot _ reading tolerates loaded _ _ _ =>
    obtain ⟨before, after, split_, silent, count⟩ := tracked snapshot loaded
    rw [reading] at count
    have quiet : ∀ y ∈ after ++ [.returned snapshot], y.reads = false := by
      intro y member
      rcases List.mem_append.mp member with member | member
      · exact silent y member
      · rw [List.mem_singleton.mp member]
        rfl
    have since : (after ++ [PollEffect.returned snapshot]).countP PollEffect.begins =
        hidden ms + (s.coordinator.consecutiveFailures + 1) := by
      rw [List.countP_append, count]
      rfl
    have recent : Recent snapshot (outputs ms ++ [.returned snapshot]) ↔
        hidden ms + (s.coordinator.consecutiveFailures + 1) ≤ failureTolerance := by
      rw [split_, List.append_assoc, List.cons_append, tracked_recent quiet, since]
    constructor
    · rintro fresh _ - -
      exact recent.mp (fresh snapshot (List.mem_singleton_self _))
    · rintro counted other returned
      obtain rfl : other = snapshot := by simpa using returned
      exact recent.mpr (counted x rfl tolerates)
  | balanced refused _ quiet _ =>
    refine iff_of_true (fun snapshot returned => ?_) fun x same tolerates =>
      absurd tolerates (refused x same)
    cases quiet _ returned

/-- **Stale data is served only briefly**, in a run of updates, presses of the button and advances
of the clock, if and only if every tolerated failure is counted. -/
theorem fresh_iff {bridgeHealthEnabled : Bool} {now : ℚ}
    (run : Run step (start bridgeHealthEnabled now) ms s) : Along Fresh ms ↔ Along Counted ms :=
  run.along_iff Tracked Fresh Counted (fun data loaded => by cases loaded)
    (fun _ _ _ _ _ => step_tracked) (fun _ _ _ _ _ => step_fresh)

def registers (n : Int) : Registers := (List.replicate 115 n, [(0xB000, [93])])

def linkDown : BridgeHealth := ⟨true, some 1, false, false, false⟩

/-- An update that gets as far as its read, and one that the bridge blocks. -/
def reading (outcome : Except ReadExc Registers) : List PollEvent :=
  [.refresh, .healthFetched none true, .snapshotRead outcome]

def blocked : List PollEvent := [.refresh, .healthFetched (some linkDown) false]

def countedTest (front : Trace) (m : Move Polling PollEvent PollEffect) : Bool :=
  match m.event with
  | .snapshotRead (.error x) => !decide (m.before.Tolerates x) ||
      decide (hidden front + (m.before.coordinator.consecutiveFailures + 1) ≤ failureTolerance)
  | _ => true

theorem counted_of_test (front : Trace) (m : Move Polling PollEvent PollEffect)
    (tested : countedTest front m = true) : Counted front m := by
  intro x event tolerates
  simpa [countedTest, event, tolerates] using tested

/-- A read, two updates that the bridge blocks, and three failures: the last of them still returns
what the read brought. -/
theorem fresh_run : ∃ ms s, Run step (start true 0) ms s ∧
    (outputs ms).getLast? = some (.returned ⟨List.replicate 115 1, [(0xB000, [93])], true⟩) ∧
    Along Fresh ms := by
  have reached : (Runs.feed step (start true 0) (reading (.ok (registers 1)) ++ blocked ++
      blocked ++ reading (.error .protocol) ++ reading (.error .connection) ++
      reading (.error .connection))).any (fun r =>
        (outputs r.2).getLast? == some (.returned ⟨List.replicate 115 1, [(0xB000, [93])], true⟩) &&
        (List.range r.2.length).all fun k => r.2[k]?.all (countedTest (r.2.take k))) = true := by
    decide +kernel
  obtain ⟨ms, s, run, -, tested⟩ := Runs.feed_reaches reached
  simp only [Bool.and_eq_true, beq_iff_eq] at tested
  exact ⟨ms, s, run, tested.1, (fresh_iff run).mpr (Runs.along_of_test counted_of_test tested.2)⟩

/-- The effects of a read, of six updates that the bridge blocks, and of a failure. -/
def blockedEffects (snapshot : StateSnapshot Int) : List PollEffect :=
  .returned snapshot :: (List.replicate 6 [.began, .failed (.bridgeLink false)]).flatten ++
    [.began, .returned snapshot]

/-- After six updates that the bridge blocks, a failure returns what was read before them. -/
theorem blocked_then_failed : ¬ ∀ ms s, Run step (start true 0) ms s → Along Fresh ms := by
  have reached : (Runs.feed step (start true 0) (reading (.ok (registers 1)) ++
      (List.replicate 6 blocked).flatten ++ reading (.error .connection))).any (fun r =>
        outputs r.2 == [.began] ++ .read ⟨List.replicate 115 1, [(0xB000, [93])], true⟩ ::
          blockedEffects ⟨List.replicate 115 1, [(0xB000, [93])], true⟩ &&
        r.2.getLast?.any fun m =>
          m.emits == [.returned ⟨List.replicate 115 1, [(0xB000, [93])], true⟩]) = true := by
    decide +kernel
  intro fresh
  obtain ⟨ms, s, run, -, tested⟩ := Runs.feed_reaches reached
  simp only [Bool.and_eq_true, beq_iff_eq, Option.any_eq_true] at tested
  obtain ⟨all, m, last, returned⟩ := tested
  obtain ⟨front, rfl⟩ := List.getLast?_eq_some_iff.mp last
  have recent := fresh _ s run front m [] rfl _ (returned ▸ List.mem_singleton_self _)
  rw [← Runs.outputs_snoc, all, tracked_recent (by decide)] at recent
  exact absurd recent (by decide)

end Polling

end R60V.Integration
