import R60V.Bridge.Client
import R60V.Integration.Polling

/-! Who holds the integration's client in polling mode: the coordinator's updates, the entities that
write through `async_write`, and the clock sync. An output is a request that is issued on the
client; whether it waits there for another one is not its issuer's business. -/
namespace R60V.Integration

open Runs (Run Move)

/-- `LIVE_REGISTERS`, with the length to read of each. -/
def liveRegisters : List (Int × Int) := [(0xB000, 1), (0xB001, 1), (0xB002, 1), (0xB007, 16)]

/-- What `build_clock_payload` takes from the local time; Monday is the weekday 0. -/
structure LocalTime where
  minute : Int
  hour : Int
  weekday : Int
  day : Int
  month : Int
  year : Int

def buildClockPayload (now : LocalTime) : List Int :=
  [0, now.minute, now.hour, now.weekday + 1, now.day, now.month, now.year - 2000]

/-- `Address.DATE_TIME`. -/
def dateTime : Int := 0xA000

/-- Where `_read_snapshot` is suspended. -/
inductive Sweep where
  | settings
  | live (settings : List Int) (done : List (Int × List Int)) (address : Int)
      (rest : List (Int × Int))

structure Holders where
  polling : Polling
  -- Of the update that reads a snapshot, if one does.
  sweep : Sweep

inductive HolderEvent where
  | poll (e : PollEvent)
  -- What a read of the sweep returns or raises.
  | answered (outcome : Except ReadExc (List Int))
  -- The refresh that `async_write` requests is one of the others.
  | write (address : Int) (data : List Int)
  | pushClock (now : LocalTime)

namespace Holders

def start (bridgeHealthEnabled : Bool) (now : ℚ) : Holders :=
  ⟨.start bridgeHealthEnabled now, .settings⟩

def inCooldown (s : Holders) : Bool := s.polling.coordinator.inCooldown s.polling.now

/-- What an update issues first where it begins to await this. -/
def begins : Update → List Call
  | .probe | .snapshot => [.read Protocol.settingsBase Protocol.settingsLen]
  | .idle | .health | .closing _ _ => []

/-- The update goes on; what is issued is what it has come to await. -/
def goesOn (s : Holders) (next : Polling) : Holders × List Call :=
  if next.update = s.polling.update then ({ s with polling := next }, [])
  else (⟨next, .settings⟩, begins next.update)

/-- The sweep reads one register after the other, and what it raises ends it. -/
def answered (s : Holders) : Except ReadExc (List Int) → Holders × List Call
  | .error e => s.goesOn (s.polling.snapshotRead (.error e)).1
  | .ok data =>
    let (settings, done, rest) := match s.sweep with
      | .settings => (data, [], liveRegisters)
      | .live settings done address rest => (settings, done ++ [(address, data)], rest)
    match rest with
    | [] => s.goesOn (s.polling.snapshotRead (.ok (settings, done))).1
    | (address, length) :: rest =>
      ({ s with sweep := .live settings done address rest }, [.read address length])

/-- Neither a write nor the clock looks at the cooldown. -/
def step (s : Holders) : HolderEvent → Option (Holders × List Call)
  | .poll (.snapshotRead _) => none
  | .poll e => (s.polling.step e).map fun next => s.goesOn next.1
  | .answered outcome => if s.polling.update = .snapshot then some (s.answered outcome) else none
  | .write address data => some (s, [.write address data])
  | .pushClock now => some (s, [.write dateTime (buildClockPayload now)])

end Holders

/-- Whether it issues a request of its own accord, without the coordinator's guard. -/
def HolderEvent.unguarded : HolderEvent → Bool
  | .write _ _ | .pushClock _ => true
  | .poll _ | .answered _ => false

namespace Polling

/-- An update that is reading from the machine does so out of cooldown. -/
def Rested (s : Polling) : Prop :=
  s.update = .probe ∨ s.update = .snapshot → s.coordinator.inCooldown s.now = false

variable {s t : Polling} {e : PollEvent} {effects : List PollEffect}

theorem rested_of_idle (idle : s.update = .idle) : s.Rested := by
  rintro (reading | reading)
  · rw [idle] at reading
    cases reading
  · rw [idle] at reading
    cases reading

theorem close_rested (s : Polling) (connected cooldown : Bool) (why : UpdateFailed) :
    (s.close connected cooldown why).1.Rested := by
  unfold close
  split
  · rintro (reading | reading) <;> cases reading
  · exact rested_of_idle rfl

theorem healthFetched_rested (s : Polling) (fetched : Option BridgeHealth) (connected : Bool) :
    (s.healthFetched fetched connected).1.Rested := by
  unfold healthFetched
  dsimp only
  split
  · exact close_rested _ _ _ _
  split
  · exact close_rested _ _ _ _
  · rename_i rested
    split <;> exact fun _ => Bool.eq_false_of_not_eq_true rested

theorem probed_rested (s : Polling) (connected : Bool) (outcome : Except ReadExc Unit) :
    (s.probed connected outcome).1.Rested := by
  cases outcome with
  | ok _ =>
    simp only [probed]
    split
    · exact fun _ => rfl
    · exact rested_of_idle rfl
  | error x =>
    simp only [probed]
    split
    · exact close_rested _ _ _ _
    · exact rested_of_idle rfl

theorem snapshotRead_rested (s : Polling) (outcome : Except ReadExc Registers) :
    (s.snapshotRead outcome).1.Rested := by
  cases outcome with
  | ok registers => exact rested_of_idle rfl
  | error x =>
    simp only [snapshotRead]
    split
    · split
      · exact rested_of_idle rfl
      · split
        · exact rested_of_idle rfl
        · rintro (reading | reading) <;> cases reading
    · exact rested_of_idle rfl

theorem step_rested (rested : s.Rested) (h : s.step e = some (t, effects)) : t.Rested := by
  cases e with
  | advance seconds =>
    simp only [step] at h
    split at h
    · rename_i forward
      cases h
      intro reading
      have before := rested reading
      simp only [Coordinator.inCooldown, Option.any_eq_false_iff_get, decide_eq_false_iff_not,
        not_lt] at before ⊢
      intro set
      linarith [before set]
    · cases h
  | endCooldown =>
    cases h
    exact fun _ => rfl
  | refresh =>
    simp only [step] at h
    split at h
    · cases h
      rintro (reading | reading) <;> cases reading
    · cases h
  | healthFetched fetched connected =>
    simp only [step] at h
    split at h
    · obtain rfl := congrArg Prod.fst (Option.some.inj h)
      exact healthFetched_rested s fetched connected
    · cases h
  | probed outcome connected =>
    simp only [step] at h
    split at h
    · obtain rfl := congrArg Prod.fst (Option.some.inj h)
      exact probed_rested s connected outcome
    · cases h
  | snapshotRead outcome =>
    simp only [step] at h
    split at h
    · obtain rfl := congrArg Prod.fst (Option.some.inj h)
      exact snapshotRead_rested s outcome
    · cases h
  | closed =>
    simp only [step] at h
    split at h
    · cases h
      exact rested_of_idle rfl
    · cases h

end Polling

namespace Holders

/-- No request is issued in a cooldown. -/
def Quiet (m : Move Holders HolderEvent Call) : Prop :=
  m.emits ≠ [] → m.after.inCooldown = false

variable {s t : Holders} {e : HolderEvent} {calls : List Call}

@[simp] theorem polling_goesOn (s : Holders) (next : Polling) :
    (s.goesOn next).1.polling = next := by
  unfold goesOn
  split <;> rfl

theorem goesOn_quiet {next : Polling} (rested : next.Rested) (issued : (s.goesOn next).2 ≠ []) :
    (s.goesOn next).1.inCooldown = false := by
  have reading : next.update = .probe ∨ next.update = .snapshot := by
    unfold goesOn at issued
    split at issued
    · exact absurd rfl issued
    · cases update : next.update with
      | probe => exact .inl rfl
      | snapshot => exact .inr rfl
      | _ => simp [update, begins] at issued
  rw [inCooldown, polling_goesOn]
  exact rested reading

/-- A step of the coordinator's leaves it rested, and issues what it does out of cooldown. -/
theorem step_guarded (rested : s.polling.Rested) (h : s.step e = some (t, calls))
    (guarded : e.unguarded = false) : t.polling.Rested ∧ (calls ≠ [] → t.inCooldown = false) := by
  have through : ∀ {next : Polling}, next.Rested → s.goesOn next = (t, calls) →
      t.polling.Rested ∧ (calls ≠ [] → t.inCooldown = false) := by
    intro next still goes
    obtain rfl : (s.goesOn next).1 = t := congrArg Prod.fst goes
    obtain rfl : (s.goesOn next).2 = calls := congrArg Prod.snd goes
    exact ⟨(polling_goesOn s next).symm ▸ still, goesOn_quiet still⟩
  cases e with
  | write address data => cases guarded
  | pushClock now => cases guarded
  | poll e =>
    unfold step at h
    split at h
    · cases h
    · rename_i e' _ same
      cases same
      obtain ⟨⟨next, effects⟩, polled, goes⟩ := Option.map_eq_some_iff.mp h
      exact through (Polling.step_rested rested polled) goes
    · rename_i same
      cases same
    · rename_i same
      cases same
    · rename_i same
      cases same
  | answered outcome =>
    simp only [step] at h
    split at h
    · rename_i reading
      cases outcome with
      | error x =>
        exact through (Polling.snapshotRead_rested s.polling _) (Option.some.inj h)
      | ok data =>
        replace h := Option.some.inj h
        dsimp only [answered] at h
        split at h
        · exact through (Polling.snapshotRead_rested s.polling _) h
        · cases h
          exact ⟨rested, fun _ => rested (.inr reading)⟩
    · cases h

theorem step_unguarded (h : s.step e = some (t, calls)) (unguarded : e.unguarded = true) :
    t = s ∧ calls ≠ [] := by
  cases e with
  | write address data =>
    cases h
    exact ⟨rfl, by simp⟩
  | pushClock now =>
    cases h
    exact ⟨rfl, by simp⟩
  | _ => cases unguarded

theorem step_rested (rested : s.polling.Rested) (h : s.step e = some (t, calls)) :
    t.polling.Rested := by
  cases unguarded : e.unguarded with
  | false => exact (step_guarded rested h unguarded).1
  | true =>
    obtain ⟨rfl, -⟩ := step_unguarded h unguarded
    exact rested

theorem quiet_iff (rested : s.polling.Rested) (h : s.step e = some (t, calls)) :
    Quiet ⟨s, e, calls, t⟩ ↔ (e.unguarded = true → s.inCooldown = false) := by
  cases unguarded : e.unguarded with
  | false =>
    refine iff_of_true ?_ nofun
    exact (step_guarded rested h unguarded).2
  | true =>
    obtain ⟨rfl, issued⟩ := step_unguarded h unguarded
    constructor
    · exact fun quiet _ => quiet issued
    · exact fun out _ => out rfl

/-- **The machine is left alone in a cooldown** exactly along the runs in which no entity writes
and no clock is pushed in one: the coordinator keeps its own rest, and nothing else looks at it. -/
theorem rest_undisturbed_iff {enabled : Bool} {now : ℚ} {ms : List (Move Holders HolderEvent Call)}
    {s : Holders} (run : Run step (start enabled now) ms s) :
    (∀ m ∈ ms, Quiet m) ↔
      ∀ m ∈ ms, m.event.unguarded = true → m.before.inCooldown = false :=
  run.moves_iff (fun s => s.polling.Rested) Quiet
    (fun s e => e.unguarded = true → s.inCooldown = false) (Polling.rested_of_idle rfl)
    (fun _ _ _ _ rested h => step_rested rested h) fun _ _ _ _ rested h => quiet_iff rested h

-- An update that reads everything, one that fails with its first read, and what six of these end
-- in.
def sweeps : List HolderEvent :=
  [.poll .refresh, .poll (.healthFetched none true), .answered (.ok (List.replicate 115 1)),
    .answered (.ok [93]), .answered (.ok [115]), .answered (.ok [9]),
    .answered (.ok (List.replicate 16 32))]

def fails : List HolderEvent :=
  [.poll .refresh, .poll (.healthFetched none true), .answered (.error .connection)]

def wedges : List HolderEvent := sweeps ++ (List.replicate 6 fails).flatten ++ [.poll .closed]

theorem left_alone_until_elapsed : ∃ (ms : List (Move Holders HolderEvent Call)) (s : Holders),
    Run step (start false 0) ms s ∧ s.polling.coordinator.cooldownIndex = 1 ∧
      ∀ m ∈ ms, Quiet m := by
  have fed : (Runs.feed step (start false 0) (wedges ++
      [.poll .refresh, .poll (.healthFetched none false), .poll (.advance 300),
        .write 0x4A [1]])).any (fun r => r.1.polling.coordinator.cooldownIndex == 1 &&
          r.2.all fun m => !m.event.unguarded || !m.before.inCooldown) = true := by
    decide +kernel
  obtain ⟨ms, s, run, -, tested⟩ := Runs.feed_reaches fed
  simp only [Bool.and_eq_true, beq_iff_eq] at tested
  refine ⟨ms, s, run, tested.1, (rest_undisturbed_iff run).mpr ?_⟩
  intro m member unguarded
  simpa [unguarded] using List.all_eq_true.mp tested.2 m member

/-- The sixth failed read in a row begins a cooldown, and an entity writes in it. -/
theorem written_in_cooldown : ¬ ∀ (ms : List (Move Holders HolderEvent Call)) (s : Holders),
    Run step (start false 0) ms s → ∀ m ∈ ms, Quiet m := by
  have fed : (Runs.feed step (start false 0) (wedges ++ [.write 0x4A [1]])).any (fun r =>
      r.2.getLast?.any fun m => m.emits == [.write 0x4A [1]] && m.after.inCooldown) = true := by
    decide +kernel
  intro quiet
  obtain ⟨ms, s, run, -, tested⟩ := Runs.feed_reaches fed
  simp only [Option.any_eq_true, Bool.and_eq_true, beq_iff_eq] at tested
  obtain ⟨m, last, issued, cooling⟩ := tested
  have member : m ∈ ms := List.mem_of_getLast? last
  have rested := quiet ms s run m member (by rw [issued]; simp)
  rw [cooling] at rested
  cases rested

end Holders

end R60V.Integration
