import R60V.Bridge.State

/-! The device state store: last-known registers, the availability verdict with
its hysteresis, the overlay of optimistic writes, and change events. -/
namespace R60V

open Overlay (Dict patch putAll clearAll cover)
open Python (roundEven)

/-- The listener calls of `_notify` are kept as a trace in `notified`, oldest first. -/
structure DeviceState where
  availabilityGrace : Nat
  staleAfter : ℚ
  interpolateStep : ℚ
  snapshot : StateSnapshot
  haveData : Bool
  failStreak : Nat
  -- `_available`: no verdict before the first outcome.
  verdict : Option Bool
  lastLiveUpdateAt : ℚ
  listeners : List Nat
  -- `_pending`. Its keys are natural: `apply_optimistic` refuses a negative address.
  pending : Dict Int
  notified : List Nat

structure RawSnapshot where
  available : Bool
  settings : List Int
  live : List (String × List Int)
  deriving DecidableEq

namespace DeviceState

def new (availabilityGrace : Nat) (staleAfter interpolateStep : ℚ) : DeviceState where
  availabilityGrace := availabilityGrace
  staleAfter := staleAfter
  interpolateStep := interpolateStep
  snapshot := .blank
  haveData := false
  failStreak := 0
  verdict := none
  lastLiveUpdateAt := 0
  listeners := []
  pending := ∅
  notified := []

def subscribe (s : DeviceState) (listener : Nat) : DeviceState :=
  { s with listeners := s.listeners ++ [listener] }

def unsubscribe (s : DeviceState) (listener : Nat) : DeviceState :=
  { s with listeners := s.listeners.erase listener }

def notify (s : DeviceState) : DeviceState := { s with notified := s.notified ++ s.listeners }

/-- No verdict yet is treated as available. -/
def available (s : DeviceState) : Bool := s.verdict.getD true

def applyPending (s : DeviceState) : DeviceState :=
  { s with snapshot := { s.snapshot with settings := patch s.pending s.snapshot.settings } }

def updateSettings (s : DeviceState) (data : List Int) : DeviceState :=
  let s := { s with snapshot := { s.snapshot with settings := data } }.applyPending
  { s with haveData := true }.notify

def updateLive (s : DeviceState) (now : ℚ) (address : Nat) (data : List Int) : DeviceState :=
  { s with
    snapshot := { s.snapshot with live := s.snapshot.live.insert address data }
    lastLiveUpdateAt := now
    haveData := true }.notify

def setAvailable (s : DeviceState) (online : Bool) : DeviceState :=
  if s.verdict = some online then s else { s with verdict := some online }.notify

def noteSuccess (s : DeviceState) : DeviceState := { s with failStreak := 0 }.setAvailable true

def noteFailure (s : DeviceState) : DeviceState :=
  let s := { s with failStreak := s.failStreak + 1 }
  if s.availabilityGrace ≤ s.failStreak then s.setAvailable false else s

def noteWedged (s : DeviceState) : DeviceState :=
  { s with failStreak := max s.failStreak s.availabilityGrace }.setAvailable false

-- The guards of `apply_optimistic`.
def reflects (s : DeviceState) (address : Int) (data : List Int) : Bool :=
  s.haveData && !(address < 0 || data.isEmpty) &&
    address + data.length ≤ s.snapshot.settings.length &&
    !data.any (fun b => b < 0 || b > 0xFF)

def applyOptimistic (s : DeviceState) (address : Int) (data : List Int) : Bool × DeviceState :=
  if s.reflects address data then
    (true, ({ s with pending := putAll address.toNat data s.pending }.applyPending).notify)
  else (false, s)

/-- `reconcile_clear` of the bytes a write of `data` at `address` has set. -/
def reconcileClear (s : DeviceState) (address : Int) (data : List Int) : DeviceState :=
  { s with pending := clearAll address data s.pending }

def ease (s : DeviceState) (live setpoint : Nat) : DeviceState :=
  match (s.snapshot.live.lookup live).getD [] with
  | [] => s
  | current :: _ =>
    let gap := s.snapshot.settingsByte setpoint - current
    if gap = 0 then s
    else
      let step : ℚ := max (-s.interpolateStep) (min s.interpolateStep gap)
      { s with snapshot :=
        { s.snapshot with live := s.snapshot.live.insert live [roundEven (current + step)] } }

def interpolateLiveTemps (s : DeviceState) (now : ℚ) : DeviceState :=
  if !s.haveData then s
  else if now - s.lastLiveUpdateAt < s.staleAfter then s
  else if s.snapshot.settingsByte Address.standby ≠ 0 then s
  else
    let s := s.ease Address.currentBrewTemp Address.brewBoilerTemp
    if s.snapshot.settingsByte Address.serviceBoilerEnable ≠ 0 then
      s.ease Address.currentServiceTemp Address.serviceBoilerTemp
    else s

def rawSnapshot (s : DeviceState) : RawSnapshot where
  available := s.available
  settings := s.snapshot.settings
  live := s.snapshot.live.entries.map fun e => (Nat.repr e.1, e.2)

/- What each operation does to the parts that the broker's invariants talk about. -/

@[simp] theorem notify_verdict (s : DeviceState) : s.notify.verdict = s.verdict := rfl
@[simp] theorem notify_pending (s : DeviceState) : s.notify.pending = s.pending := rfl
@[simp] theorem notify_snapshot (s : DeviceState) : s.notify.snapshot = s.snapshot := rfl
@[simp] theorem notify_haveData (s : DeviceState) : s.notify.haveData = s.haveData := rfl
@[simp] theorem notify_failStreak (s : DeviceState) : s.notify.failStreak = s.failStreak := rfl
@[simp] theorem notify_availabilityGrace (s : DeviceState) :
    s.notify.availabilityGrace = s.availabilityGrace := rfl

@[simp] theorem setAvailable_verdict (s : DeviceState) (online : Bool) :
    (s.setAvailable online).verdict = some online := by
  unfold setAvailable
  split
  · assumption
  · rfl

theorem setAvailable_frame (s : DeviceState) (online : Bool) :
    (s.setAvailable online).pending = s.pending ∧
    (s.setAvailable online).snapshot = s.snapshot ∧
    (s.setAvailable online).haveData = s.haveData ∧
    (s.setAvailable online).failStreak = s.failStreak ∧
    (s.setAvailable online).availabilityGrace = s.availabilityGrace := by
  unfold setAvailable
  split <;> simp

@[simp] theorem noteSuccess_verdict (s : DeviceState) : s.noteSuccess.verdict = some true := by
  simp [noteSuccess]

@[simp] theorem noteWedged_verdict (s : DeviceState) : s.noteWedged.verdict = some false := by
  simp [noteWedged]

theorem noteFailure_verdict (s : DeviceState) :
    s.noteFailure.verdict = s.verdict ∨ s.noteFailure.verdict = some false := by
  simp only [noteFailure]
  split
  · exact Or.inr (setAvailable_verdict _ _)
  · exact Or.inl rfl

theorem noteFailure_offline (s : DeviceState) (h : s.verdict = some false) :
    s.noteFailure.verdict = some false := by
  rcases s.noteFailure_verdict with same | off
  · rw [same, h]
  · exact off

theorem noteFailure_counts (s : DeviceState) :
    s.noteFailure.availabilityGrace = s.availabilityGrace ∧
    s.noteFailure.failStreak = s.failStreak + 1 ∧
    (s.availabilityGrace ≤ s.failStreak + 1 → s.noteFailure.verdict = some false) := by
  have frame := setAvailable_frame { s with failStreak := s.failStreak + 1 } false
  simp only [noteFailure]
  split
  · exact ⟨frame.2.2.2.2, frame.2.2.2.1, fun _ => setAvailable_verdict _ _⟩
  · rename_i grace
    exact ⟨rfl, rfl, fun spent => absurd spent grace⟩

theorem noteWedged_counts (s : DeviceState) :
    s.noteWedged.availabilityGrace = s.availabilityGrace ∧
    s.failStreak ≤ s.noteWedged.failStreak := by
  have frame := setAvailable_frame
    { s with failStreak := max s.failStreak s.availabilityGrace } false
  exact ⟨frame.2.2.2.2, frame.2.2.2.1.symm ▸ Nat.le_max_left _ _⟩

@[simp] theorem updateSettings_verdict (s : DeviceState) (data : List Int) :
    (s.updateSettings data).verdict = s.verdict := rfl

@[simp] theorem updateLive_verdict (s : DeviceState) (now : ℚ) (address : Nat)
    (data : List Int) : (s.updateLive now address data).verdict = s.verdict := rfl

@[simp] theorem reconcileClear_verdict (s : DeviceState) (address : Int) (data : List Int) :
    (s.reconcileClear address data).verdict = s.verdict := rfl

theorem applyOptimistic_verdict (s : DeviceState) (address : Int) (data : List Int) :
    (s.applyOptimistic address data).2.verdict = s.verdict := by
  unfold applyOptimistic
  split <;> rfl

theorem reflects_inside {s : DeviceState} {address : Int} {data : List Int}
    (h : s.reflects address data = true) :
    0 ≤ address ∧ address + data.length ≤ s.snapshot.settings.length := by
  simp only [reflects, Bool.and_eq_true, Bool.not_eq_true', Bool.or_eq_false_iff,
    decide_eq_false_iff_not, not_lt, decide_eq_true_eq] at h
  exact ⟨h.1.1.2.1, h.1.2⟩

/-- A reflected write wins over the overlay it joins; a refused one changes nothing. -/
theorem lookup_applyOptimistic (s : DeviceState) (address : Int) (data : List Int) (x : Nat) :
    (s.applyOptimistic address data).2.pending.lookup x =
      if s.reflects address data then (cover address data x).or (s.pending.lookup x)
      else s.pending.lookup x := by
  unfold applyOptimistic
  split
  · rename_i reflected
    obtain ⟨k, rfl⟩ := Int.eq_ofNat_of_zero_le (reflects_inside reflected).1
    exact Overlay.lookup_putAll k data s.pending x
  · rfl

theorem settings_applyOptimistic (s : DeviceState) (address : Int) (data : List Int) :
    (s.applyOptimistic address data).2.snapshot.settings =
      if s.reflects address data then
        patch (s.applyOptimistic address data).2.pending s.snapshot.settings
      else s.snapshot.settings := by
  unfold applyOptimistic
  split <;> rfl

theorem note_frame (s : DeviceState) :
    (s.noteSuccess.pending = s.pending ∧ s.noteSuccess.snapshot = s.snapshot ∧
      s.noteSuccess.haveData = s.haveData) ∧
    (s.noteFailure.pending = s.pending ∧ s.noteFailure.snapshot = s.snapshot ∧
      s.noteFailure.haveData = s.haveData) ∧
    (s.noteWedged.pending = s.pending ∧ s.noteWedged.snapshot = s.snapshot ∧
      s.noteWedged.haveData = s.haveData) := by
  have frame := fun t => setAvailable_frame t
  refine ⟨?_, ?_, ?_⟩
  · have f := frame { s with failStreak := 0 } true
    exact ⟨f.1, f.2.1, f.2.2.1⟩
  · simp only [noteFailure]
    split
    · have f := frame { s with failStreak := s.failStreak + 1 } false
      exact ⟨f.1, f.2.1, f.2.2.1⟩
    · exact ⟨rfl, rfl, rfl⟩
  · have f := frame { s with failStreak := max s.failStreak s.availabilityGrace } false
    exact ⟨f.1, f.2.1, f.2.2.1⟩

/-- The store with other live readings. -/
def withLive (s : DeviceState) (live : Dict (List Int)) : DeviceState :=
  { s with snapshot := { s.snapshot with live := live } }

/-- One nudge touches one live register. -/
theorem ease_live (s : DeviceState) (live setpoint : Nat) :
    ∃ readings, s.ease live setpoint = s.withLive readings ∧
      ∀ x ≠ live, readings.lookup x = s.snapshot.live.lookup x := by
  unfold ease
  split
  · exact ⟨s.snapshot.live, rfl, fun _ _ => rfl⟩
  · dsimp only
    split
    · exact ⟨s.snapshot.live, rfl, fun _ _ => rfl⟩
    · exact ⟨_, rfl, fun _ other => AList.lookup_insert_ne other⟩

/-- The estimate touches the two boiler readings. -/
theorem interpolateLiveTemps_live (s : DeviceState) (now : ℚ) :
    ∃ readings, s.interpolateLiveTemps now = s.withLive readings ∧
      ∀ x, x ≠ Address.currentBrewTemp → x ≠ Address.currentServiceTemp →
        readings.lookup x = s.snapshot.live.lookup x := by
  have idle : ∃ readings, s = s.withLive readings ∧
      ∀ x, x ≠ Address.currentBrewTemp → x ≠ Address.currentServiceTemp →
        readings.lookup x = s.snapshot.live.lookup x :=
    ⟨s.snapshot.live, rfl, fun _ _ _ => rfl⟩
  obtain ⟨brew, first, brewOnly⟩ := s.ease_live Address.currentBrewTemp Address.brewBoilerTemp
  obtain ⟨both, second, serviceOnly⟩ := (s.withLive brew).ease_live Address.currentServiceTemp
    Address.serviceBoilerTemp
  unfold interpolateLiveTemps
  split
  · exact idle
  · split
    · exact idle
    · split
      · exact idle
      · rw [first]
        dsimp only
        split
        · exact ⟨both, second,
            fun x other other' => (serviceOnly x other').trans (brewOnly x other)⟩
        · exact ⟨brew, rfl, fun x other _ => brewOnly x other⟩

theorem interpolateLiveTemps_frame (s : DeviceState) (now : ℚ) :
    (s.interpolateLiveTemps now).verdict = s.verdict ∧
    (s.interpolateLiveTemps now).pending = s.pending ∧
    (s.interpolateLiveTemps now).snapshot.settings = s.snapshot.settings ∧
    (s.interpolateLiveTemps now).haveData = s.haveData := by
  obtain ⟨readings, eased, -⟩ := s.interpolateLiveTemps_live now
  rw [eased]
  exact ⟨rfl, rfl, rfl, rfl⟩

end DeviceState

/-- The calls through which a store changes. -/
inductive StoreOp where
  | subscribe (listener : Nat)
  | unsubscribe (listener : Nat)
  | updateSettings (data : List Int)
  | updateLive (now : ℚ) (address : Nat) (data : List Int)
  | noteSuccess
  | noteFailure
  | noteWedged
  | applyOptimistic (address : Int) (data : List Int)
  | reconcileClear (address : Int) (data : List Int)
  | interpolateLiveTemps (now : ℚ)
  deriving DecidableEq

def StoreOp.run (s : DeviceState) : StoreOp → DeviceState
  | .subscribe listener => s.subscribe listener
  | .unsubscribe listener => s.unsubscribe listener
  | .updateSettings data => s.updateSettings data
  | .updateLive now address data => s.updateLive now address data
  | .noteSuccess => s.noteSuccess
  | .noteFailure => s.noteFailure
  | .noteWedged => s.noteWedged
  | .applyOptimistic address data => (s.applyOptimistic address data).2
  | .reconcileClear address data => s.reconcileClear address data
  | .interpolateLiveTemps now => s.interpolateLiveTemps now

namespace DeviceState

theorem setAvailable_heard (s : DeviceState) (online : Bool) :
    (s.setAvailable online).listeners = s.listeners ∧
    ((s.setAvailable online).verdict ≠ s.verdict →
      (s.setAvailable online).notified = s.notified ++ s.listeners) := by
  unfold setAvailable
  split
  · exact ⟨rfl, fun changed => absurd rfl changed⟩
  · exact ⟨rfl, fun _ => rfl⟩

theorem noteFailure_heard (s : DeviceState) :
    s.noteFailure.listeners = s.listeners ∧
    (s.noteFailure.verdict ≠ s.verdict →
      s.noteFailure.notified = s.notified ++ s.listeners) := by
  simp only [noteFailure]
  split
  · exact setAvailable_heard { s with failStreak := s.failStreak + 1 } false
  · exact ⟨rfl, fun changed => absurd rfl changed⟩

theorem interpolateLiveTemps_listeners (s : DeviceState) (now : ℚ) :
    (s.interpolateLiveTemps now).listeners = s.listeners := by
  obtain ⟨readings, eased, -⟩ := s.interpolateLiveTemps_live now
  rw [eased]
  rfl

end DeviceState

namespace StoreOp

/-- A listener stays unless it is taken out itself. -/
theorem run_listeners {s : DeviceState} {listener : Nat} (member : listener ∈ s.listeners)
    {op : StoreOp} (stays : op ≠ .unsubscribe listener) : listener ∈ (op.run s).listeners := by
  cases op with
  | subscribe other => exact List.mem_append_left _ member
  | unsubscribe other =>
    have differs : listener ≠ other := fun same => stays (same ▸ rfl)
    exact (List.mem_erase_of_ne differs).mpr member
  | updateSettings _ | updateLive _ _ _ | reconcileClear _ _ => exact member
  | noteSuccess => exact (DeviceState.setAvailable_heard _ true).1.symm ▸ member
  | noteFailure => exact s.noteFailure_heard.1.symm ▸ member
  | noteWedged => exact (DeviceState.setAvailable_heard _ false).1.symm ▸ member
  | applyOptimistic address data =>
    simp only [run, DeviceState.applyOptimistic]
    split <;> exact member
  | interpolateLiveTemps now => exact (s.interpolateLiveTemps_listeners now).symm ▸ member

/-- A new verdict is heard by every listener. -/
theorem run_heard (s : DeviceState) (op : StoreOp) (changed : (op.run s).verdict ≠ s.verdict) :
    (op.run s).notified = s.notified ++ s.listeners := by
  cases op with
  | subscribe _ | unsubscribe _ | updateSettings _ | updateLive _ _ _ | reconcileClear _ _ =>
    exact absurd rfl changed
  | noteSuccess => exact (DeviceState.setAvailable_heard { s with failStreak := 0 } true).2 changed
  | noteFailure => exact s.noteFailure_heard.2 changed
  | noteWedged => exact (DeviceState.setAvailable_heard _ false).2 changed
  | applyOptimistic address data =>
    exact absurd (s.applyOptimistic_verdict address data) changed
  | interpolateLiveTemps now => exact absurd (s.interpolateLiveTemps_frame now).1 changed

end StoreOp

end R60V
