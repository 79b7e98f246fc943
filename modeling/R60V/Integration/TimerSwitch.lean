import R60V.Bridge.Client
import R60V.Integration.Coordinator
import R60V.Lib.Runs
import R60V.Python.Numerals

/-! The switches of the machine's built-in timers: what a switch remembers of its timer while this
is off, and what it writes when it is turned on again. -/
namespace R60V.Integration

open Python (Text twoDigits)
open Runs (Run Move Along)

/-- A `time` of hours and minutes. -/
structure ClockTime where
  hour : Fin 24
  minute : Fin 60
  deriving DecidableEq

/-- `dt_time(hour=hour, minute=minute)`, `none` for the `ValueError`. -/
def clockTime (hour minute : Int) : Option ClockTime :=
  if h : (0 ≤ hour ∧ hour ≤ 23) ∧ 0 ≤ minute ∧ minute ≤ 59 then
    some ⟨⟨hour.toNat, by omega⟩, ⟨minute.toNat, by omega⟩⟩
  else none

/-- `TIMER_DISABLED`. -/
def timerDisabled : Int := 100

/-- `encode_timer`, as the write that it is for. -/
def encodeTimer (hourAddress : Nat) : Option ClockTime → Call
  | none => .write hourAddress [timerDisabled, timerDisabled]
  | some time => .write hourAddress [time.hour.val, time.minute.val]

def StateSnapshot.settingsByte (s : StateSnapshot Int) (address : Nat) : Int :=
  s.settings[address]?.getD 0 % 256

structure TimerSwitchDescription where
  hourAddress : Nat
  minuteAddress : Nat
  default : ClockTime

namespace TimerSwitchDescription

/- `TIMER_SWITCHES`. -/

def autoOn : TimerSwitchDescription := ⟨0x51, 0x52, ⟨6, 0⟩⟩

def autoOff : TimerSwitchDescription := ⟨0x53, 0x54, ⟨22, 0⟩⟩

/-- `timer_time`, at the description's addresses: `none` when the timer is disabled. -/
def timerTime (sw : TimerSwitchDescription) (s : StateSnapshot Int) : Option ClockTime :=
  clockTime (s.settingsByte sw.hourAddress) (s.settingsByte sw.minuteAddress)

end TimerSwitchDescription

/-- `HH:MM`: the attribute `configured_time`, as the switch shows it. -/
def shown (time : ClockTime) : Text :=
  twoDigits time.hour.val ++ ':' :: twoDigits time.minute.val

/-- What is made of the attribute of a restored state: `none` of a text that is no time. An hour or
minute too large for an `int` of C raises another exception there, and changes as little. -/
def configuredTime (stored : Text) : Option ClockTime :=
  match stored.splitOn ':' with
  | [hour, minute] =>
    match Python.int 10 hour, Python.int 10 minute with
    | some hour, some minute => clockTime hour minute
    | _, _ => none
  | _ => none

@[simp] theorem clockTime_val (time : ClockTime) :
    clockTime time.hour.val time.minute.val = some time := by
  have hours := time.hour.isLt
  have minutes := time.minute.isLt
  rw [clockTime, dif_pos (by omega)]
  rfl

/-- A switch restores what it has shown. -/
theorem configuredTime_shown (time : ClockTime) : configuredTime (shown time) = some time := by
  have hours := time.hour.isLt
  have minutes := time.minute.isLt
  have hour : Python.int 10 (twoDigits time.hour.val) = some (time.hour.val : Int) :=
    Python.int_twoDigits (by omega) (by omega)
  have minute : Python.int 10 (twoDigits time.minute.val) = some (time.minute.val : Int) :=
    Python.int_twoDigits (by omega) (by omega)
  simp only [configuredTime, shown, Python.splitOn_twoDigits, hour, minute]
  exact clockTime_val time

structure TimerSwitch where
  -- The coordinator's snapshot, and whether it has been read from the machine.
  data : StateSnapshot Int
  fromMachine : Bool
  -- `_configured`.
  configured : ClockTime
  added : Bool

inductive TimerEvent where
  -- Home Assistant starts: in polling mode with what the first update reads.
  | setUp (read : Option (StateSnapshot Int))
  | received (snapshot : StateSnapshot Int) (fromMachine : Bool)
  -- The listeners are called with the snapshot that is there.
  | notified
  -- With the text that the last state has as `configured_time`, if it has one.
  | added (last : Option Text)
  | turnOn
  | turnOff

namespace TimerSwitch

/-- In push mode the coordinator begins with a snapshot of its own. -/
def setUp (sw : TimerSwitchDescription) : Option (StateSnapshot Int) → TimerSwitch
  | some read => ⟨read, true, sw.default, false⟩
  | none => ⟨.unavailable, false, sw.default, false⟩

/-- `_handle_coordinator_update`. -/
def handleCoordinatorUpdate (sw : TimerSwitchDescription) (s : TimerSwitch) : TimerSwitch :=
  { s with configured := (sw.timerTime s.data).getD s.configured }

def addedToHass (sw : TimerSwitchDescription) (s : TimerSwitch) (last : Option Text) :
    TimerSwitch :=
  let configured := match sw.timerTime s.data with
    | some current => current
    | none => (last.bind configuredTime).getD s.configured
  { s with configured := configured, added := true }

-- The switch is a listener once it has been added.
def updateListeners (sw : TimerSwitchDescription) (s : TimerSwitch) : TimerSwitch :=
  if s.added then s.handleCoordinatorUpdate sw else s

def step (sw : TimerSwitchDescription) (s : TimerSwitch) :
    TimerEvent → Option (TimerSwitch × List Call)
  | .setUp read => some (setUp sw read, [])
  | .received snapshot fromMachine =>
    some ({ s with data := snapshot, fromMachine := fromMachine }.updateListeners sw, [])
  | .notified => some (s.updateListeners sw, [])
  | .added last => if s.added then none else some (s.addedToHass sw last, [])
  | .turnOn => if s.added then some (s, [encodeTimer sw.hourAddress (some s.configured)]) else none
  | .turnOff => if s.added then some (s, [encodeTimer sw.hourAddress none]) else none

abbrev Trace := List (Move TimerSwitch TimerEvent Call)

end TimerSwitch

/-- What a switch should go by: the time last seen enabled in a snapshot read from the machine since
start-up, and the time restored. -/
structure Due where
  seen : Option ClockTime
  restored : Option ClockTime

namespace Due

def setUp (sw : TimerSwitchDescription) (read : Option (StateSnapshot Int)) : Due :=
  ⟨read.bind sw.timerTime, none⟩

def after (sw : TimerSwitchDescription) (d : Due) : TimerEvent → Due
  | .setUp read => setUp sw read
  | .received snapshot fromMachine =>
    if fromMachine then { d with seen := (sw.timerTime snapshot).or d.seen } else d
  | .added last => { d with restored := last.bind configuredTime }
  | .notified | .turnOn | .turnOff => d

def time (sw : TimerSwitchDescription) (d : Due) : ClockTime :=
  d.seen.getD (d.restored.getD sw.default)

/-- Over a run from start-up. -/
def of (sw : TimerSwitchDescription) (read : Option (StateSnapshot Int))
    (ms : TimerSwitch.Trace) : Due :=
  (ms.map Move.event).foldl (after sw) (setUp sw read)

variable {sw : TimerSwitchDescription} {read : Option (StateSnapshot Int)}
  {ms : TimerSwitch.Trace}

@[simp] theorem of_nil : of sw read [] = setUp sw read := rfl

@[simp] theorem of_snoc {m : Move TimerSwitch TimerEvent Call} :
    of sw read (ms ++ [m]) = (of sw read ms).after sw m.event := by
  simp [of]

end Due

namespace TimerSwitch

variable {sw : TimerSwitchDescription} {read : Option (StateSnapshot Int)}

/-- Turning it on writes the time that is due. -/
def Restores (sw : TimerSwitchDescription) (read : Option (StateSnapshot Int)) (ms : Trace)
    (s : TimerSwitch) : Prop :=
  ∀ t calls, s.step sw .turnOn = some (t, calls) →
    calls = [encodeTimer sw.hourAddress (some ((Due.of sw read ms).time sw))]

/-- The condition on a step: a snapshot that has not been read from the machine shows the switch no
time, or the one that it remembers. When the switch is added, it is the one that is due to it; and
where the switch finds its timer disabled then, no snapshot before has shown another time. -/
def Fits (sw : TimerSwitchDescription) (d : Due) (s : TimerSwitch) : TimerEvent → Prop
  | .received snapshot fromMachine => s.added = true → fromMachine = false →
    ∀ time ∈ sw.timerTime snapshot, time = s.configured
  | .added last =>
    let otherwise := (last.bind configuredTime).getD sw.default
    (s.fromMachine = false → ∀ time ∈ sw.timerTime s.data, time = d.seen.getD otherwise) ∧
      (sw.timerTime s.data = none → ∀ time ∈ d.seen, time = otherwise)
  | .setUp _ | .notified | .turnOn | .turnOff => True

instance (d : Due) (s : TimerSwitch) : (e : TimerEvent) → Decidable (Fits sw d s e)
  | .received _ _ => inferInstanceAs (Decidable (_ → _ → _))
  | .added _ => inferInstanceAs (Decidable (_ ∧ _))
  | .setUp _ | .notified | .turnOn | .turnOff => .isTrue trivial

def Fitting (sw : TimerSwitchDescription) (read : Option (StateSnapshot Int)) (front : Trace)
    (m : Move TimerSwitch TimerEvent Call) : Prop :=
  Fits sw (Due.of sw read front) m.before m.event

instance (front : Trace) (m : Move TimerSwitch TimerEvent Call) :
    Decidable (Fitting sw read front m) :=
  inferInstanceAs (Decidable (Fits _ _ _ _))

/-- What holds after every step. -/
structure Keeps (sw : TimerSwitchDescription) (d : Due) (s : TimerSwitch) : Prop where
  genuine : s.fromMachine = true → ∀ time ∈ sw.timerTime s.data, d.seen = some time
  looked : s.added = true → ∀ time ∈ sw.timerTime s.data, s.configured = time
  fresh : s.added = false → s.configured = sw.default

variable {d : Due} {s t : TimerSwitch} {e : TimerEvent} {calls : List Call} {ms : Trace}

theorem encodeTimer_inj {hourAddress : Nat} {x y : ClockTime}
    (same : encodeTimer hourAddress (some x) = encodeTimer hourAddress (some y)) : x = y := by
  obtain ⟨hour, minute⟩ := x
  simp only [encodeTimer, Call.write.injEq, List.cons.injEq, Nat.cast_inj, and_true, true_and]
    at same
  cases y
  simp only [ClockTime.mk.injEq]
  exact ⟨Fin.ext same.1, Fin.ext same.2⟩

theorem restores_iff : s.Restores sw read ms ↔
    (s.added = true → s.configured = (Due.of sw read ms).time sw) := by
  simp only [Restores, step]
  constructor
  · intro writes added
    exact encodeTimer_inj (List.singleton_inj.mp (writes s _ (if_pos added)))
  · intro remembers t calls on
    split at on
    · rename_i added
      cases on
      rw [remembers added]
    · cases on

theorem keeps_setUp (read : Option (StateSnapshot Int)) :
    Keeps sw (.setUp sw read) (setUp sw read) := by
  cases read with
  | none => exact ⟨nofun, nofun, fun _ => rfl⟩
  | some read => exact ⟨fun _ _ member => member, nofun, fun _ => rfl⟩

section Listeners

variable (sw) (s : TimerSwitch)

@[simp] theorem updateListeners_data : (s.updateListeners sw).data = s.data := by
  unfold updateListeners
  split <;> rfl

@[simp] theorem updateListeners_fromMachine :
    (s.updateListeners sw).fromMachine = s.fromMachine := by
  unfold updateListeners
  split <;> rfl

@[simp] theorem updateListeners_added : (s.updateListeners sw).added = s.added := by
  unfold updateListeners
  split <;> rfl

theorem updateListeners_configured (added : s.added = true) :
    (s.updateListeners sw).configured = (sw.timerTime s.data).getD s.configured := by
  rw [updateListeners, if_pos added]
  rfl

theorem updateListeners_fresh (fresh : s.added = false) : s.updateListeners sw = s :=
  if_neg (Bool.eq_false_iff.mp fresh)

end Listeners

theorem updateListeners_keeps (genuine : s.fromMachine = true →
      ∀ time ∈ sw.timerTime s.data, d.seen = some time)
    (fresh : s.added = false → s.configured = sw.default) :
    Keeps sw d (s.updateListeners sw) := by
  refine ⟨by simpa using genuine, ?_, ?_⟩
  · intro added time member
    rw [updateListeners_added] at added
    rw [updateListeners_data] at member
    rw [updateListeners_configured sw s added, Option.mem_def.mp member]
    rfl
  · intro added
    rw [updateListeners_added] at added
    rw [updateListeners_fresh sw s added]
    exact fresh added

/-- Turning it on or off changes the machine, and the switch sees that in a snapshot. -/
theorem turned_same (h : s.step sw e = some (t, calls)) (turned : e = .turnOn ∨ e = .turnOff) :
    t = s := by
  rcases turned with rfl | rfl <;>
  · simp only [step] at h
    split at h
    · cases h
      rfl
    · cases h

theorem step_keeps (keeps : Keeps sw d s) (h : s.step sw e = some (t, calls)) :
    Keeps sw (d.after sw e) t := by
  cases e with
  | setUp read =>
    cases h
    exact keeps_setUp read
  | received snapshot fromMachine =>
    cases h
    refine updateListeners_keeps ?_ keeps.fresh
    rintro rfl time member
    simp [Due.after, Option.mem_def.mp member]
  | notified =>
    cases h
    exact updateListeners_keeps keeps.genuine keeps.fresh
  | added last =>
    simp only [step] at h
    split at h
    · cases h
    · cases h
      refine ⟨keeps.genuine, fun _ time member => ?_, nofun⟩
      have shows : sw.timerTime s.data = some time := member
      simp [addedToHass, shows]
  | turnOn | turnOff =>
    obtain rfl := turned_same h (by simp)
    exact keeps

/-- A switch that has been added takes a snapshot for one of the machine. -/
theorem received_restores (added : s.added = true) (due : s.configured = d.time sw)
    (snapshot : StateSnapshot Int) (fromMachine : Bool) :
    (({ s with data := snapshot, fromMachine := fromMachine } : TimerSwitch).updateListeners
        sw).configured = (d.after sw (.received snapshot fromMachine)).time sw ↔
      Fits sw d s (.received snapshot fromMachine) := by
  rw [updateListeners_configured sw { s with data := snapshot, fromMachine := fromMachine } added]
  cases shows : sw.timerTime snapshot with
  | none =>
    refine iff_of_true ?_ (by simp [Fits, shows])
    cases fromMachine <;> simpa [Due.after, shows] using due
  | some time =>
    cases fromMachine with
    | true => exact iff_of_true (by simp [Due.after, Due.time, shows]) (by simp [Fits])
    | false => simp [Due.after, Fits, shows, added, due]

/-- A switch that is added prefers what the snapshot shows to what has been restored. -/
theorem addedToHass_restores (keeps : Keeps sw d s) (fresh : s.added = false)
    (last : Option Text) :
    (s.addedToHass sw last).configured = (d.after sw (.added last)).time sw ↔
      Fits sw d s (.added last) := by
  have default := keeps.fresh fresh
  cases shows : sw.timerTime s.data with
  | none =>
    cases seen : d.seen with
    | none => simp [addedToHass, Due.after, Due.time, Fits, shows, seen, default]
    | some time =>
      simp only [addedToHass, Due.after, Due.time, Fits, shows, seen, default]
      simpa using eq_comm
  | some time =>
    cases genuine : s.fromMachine with
    | false => simp [addedToHass, Due.after, Due.time, Fits, shows, genuine]
    | true =>
      refine iff_of_true ?_ (by simp [Fits, shows, genuine])
      have seen := keeps.genuine genuine time shows
      simp [addedToHass, Due.after, Due.time, shows, seen]

/-- A step from where it remembers what is due leads to where it does so exactly if it fits. -/
theorem step_restores (keeps : Keeps sw d s)
    (remembers : s.added = true → s.configured = d.time sw)
    (h : s.step sw e = some (t, calls)) :
    (t.added = true → t.configured = (d.after sw e).time sw) ↔ Fits sw d s e := by
  cases e with
  | setUp read =>
    cases h
    refine iff_of_true ?_ trivial
    intro added
    cases read <;> cases added
  | received snapshot fromMachine =>
    cases h
    rw [updateListeners_added]
    by_cases added : s.added = true
    · rw [← received_restores added (remembers added) snapshot fromMachine]
      exact forall_prop_of_true added
    · exact iff_of_true (fun some_ => absurd some_ added) fun some_ => absurd some_ added
  | notified =>
    cases h
    rw [updateListeners_added]
    refine iff_of_true ?_ trivial
    intro added
    rw [updateListeners_configured sw s added]
    cases shows : sw.timerTime s.data with
    | none => exact remembers added
    | some time => exact (keeps.looked added time shows).symm.trans (remembers added)
  | added last =>
    simp only [step] at h
    split at h
    · cases h
    · rename_i fresh
      cases h
      rw [← addedToHass_restores keeps (Bool.eq_false_of_not_eq_true fresh) last]
      exact forall_prop_of_true rfl
  | turnOn | turnOff =>
    obtain rfl := turned_same h (by simp)
    exact iff_of_true remembers trivial

/-- **Turning a timer on restores the time that is due**, all along a run, exactly when every step
fits: no snapshot is taken for one of the machine that is not. -/
theorem restores_due_iff {ms : Trace} {s : TimerSwitch}
    (run : Run (step sw) (setUp sw read) ms s) :
    Along (fun front m => m.after.Restores sw read (front ++ [m])) ms ↔
      Along (Fitting sw read) ms := by
  refine run.along_states_iff (fun ms s => Keeps sw (.of sw read ms) s)
    (fun ms s => s.Restores sw read ms) (Fitting sw read) (keeps_setUp read) ?_ ?_ ?_
  · rw [restores_iff]
    intro added
    cases read <;> cases added
  · intro ms s e t calls keeps h
    rw [Due.of_snoc]
    exact step_keeps keeps h
  · intro ms s e t calls keeps restores h
    rw [restores_iff, Due.of_snoc]
    exact step_restores keeps (restores_iff.mp restores) h

-- A snapshot in which the timer that goes on is set like this.
def showing (hour minute : Int) : StateSnapshot Int :=
  ⟨List.replicate 0x51 0 ++ [hour, minute], [], true⟩

theorem restores_time_seen : ∃ ms s, Run (step .autoOn) (setUp .autoOn none) ms s ∧
    (∃ m ∈ ms, m.event = .turnOn ∧ m.emits = [.write 0x51 [6, 30]]) ∧
    Along (fun front m => m.after.Restores .autoOn none (front ++ [m])) ms := by
  have fed : (Runs.feed (step .autoOn) (setUp .autoOn none) [.received (showing 6 30) true,
      .added (some ['0', '7', ':', '1', '5']), .turnOff, .received (showing 100 100) true,
      .turnOn]).any (fun r =>
        (r.2.any fun m => m.emits == [.write 0x51 [6, 30]] && match m.event with
          | .turnOn => true
          | _ => false) &&
        (List.range r.2.length).all fun k => r.2[k]?.all fun m =>
          decide (Fitting .autoOn none (r.2.take k) m)) = true := by
    decide +kernel
  obtain ⟨ms, s, run, -, tested⟩ := Runs.feed_reaches fed
  simp only [Bool.and_eq_true] at tested
  refine ⟨ms, s, run, ?_, (restores_due_iff run).mpr ?_⟩
  · obtain ⟨m, member, writes⟩ := List.any_eq_true.mp tested.1
    simp only [Bool.and_eq_true, beq_iff_eq] at writes
    refine ⟨m, member, ?_, writes.1⟩
    cases event : m.event with
    | turnOn => rfl
    | _ => simp [event] at writes
  · exact Runs.along_of_test (fun front m fits => of_decide_eq_true fits) tested.2

/-- In push mode the snapshot that the coordinator begins with reads as midnight, and takes the
place of what is restored. -/
theorem midnight_restored : ¬ ∀ ms s, Run (step .autoOn) (setUp .autoOn none) ms s →
    Along (fun front m => m.after.Restores .autoOn none (front ++ [m])) ms := by
  have fed : (Runs.feed (step .autoOn) (setUp .autoOn none)
      [.added (some ['0', '7', ':', '1', '5'])]).any (fun r =>
        r.2.all fun m => m.after.added && m.after.configured == ⟨0, 0⟩) = true := by
    decide +kernel
  intro restores
  obtain ⟨ms, s, run, events, tested⟩ := Runs.feed_reaches fed
  obtain ⟨m, rfl, event⟩ := List.map_eq_singleton_iff.mp events
  simp only [List.all_cons, List.all_nil, Bool.and_true, Bool.and_eq_true, beq_iff_eq] at tested
  have remembers := restores_iff.mp (restores _ s run [] m [] rfl) tested.1
  have due : (Due.of .autoOn none ([] ++ [m])).time .autoOn = ⟨7, 15⟩ := by
    rw [Due.of_snoc, event]
    decide +kernel
  rw [due, tested.2] at remembers
  exact absurd remembers (by decide)

end TimerSwitch

end R60V.Integration
