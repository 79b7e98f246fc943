import Mathlib.Data.List.DropRight
import R60V.Bridge.Store

/-! What the store says after any history of calls: the cached block against the overlay of
writes in flight, and the verdict against the outcomes since the last success. -/
namespace R60V

open Overlay (Dict patch putAll clearOne cover)

/-- `reconcile_clear` of any mapping from addresses to bytes. -/
def DeviceState.reconcileExpected (s : DeviceState) (expected : List (Int × Int)) : DeviceState :=
  { s with pending := expected.foldl (fun m e => clearOne e.1 e.2 m) s.pending }

inductive StoreCall where
  | op (o : StoreOp)
  | reconcileClear (expected : List (Int × Int))
  deriving DecidableEq

namespace StoreCall

def run (s : DeviceState) : StoreCall → DeviceState
  | .op o => o.run s
  | .reconcileClear expected => s.reconcileExpected expected

def runAll (s : DeviceState) (calls : List StoreCall) : DeviceState := calls.foldl run s

theorem runAll_snoc (s : DeviceState) (calls : List StoreCall) (call : StoreCall) :
    runAll s (calls ++ [call]) = call.run (runAll s calls) := by
  simp only [runAll, List.foldl_append, List.foldl_cons, List.foldl_nil]

/-- A full-length read, where the call is a settings read. -/
def Full : StoreCall → Prop
  | .op (.updateSettings data) => data.length = Protocol.settingsLen
  | _ => True

end StoreCall

namespace DeviceState

/-- The block has its length and shows every byte of the overlay. -/
structure Exact (s : DeviceState) : Prop where
  length : s.snapshot.settings.length = Protocol.settingsLen
  shows : ∀ x d, s.pending.lookup x = some d → s.snapshot.settings[x]? = some d

variable {s : DeviceState}

theorem Exact.inside (exact_ : s.Exact) {x : Nat} {d : Int} (h : s.pending.lookup x = some d) :
    x < Protocol.settingsLen := by
  have bound := (List.getElem?_eq_some_iff.mp (exact_.shows x d h)).1
  rwa [exact_.length] at bound

theorem Exact.of_same (exact_ : s.Exact) {t : DeviceState}
    (settings : t.snapshot.settings = s.snapshot.settings)
    (pending : ∀ x d, t.pending.lookup x = some d → s.pending.lookup x = some d) : t.Exact where
  length := settings ▸ exact_.length
  shows := fun x d h => settings ▸ exact_.shows x d (pending x d h)

theorem Exact.patched (length : s.snapshot.settings.length = Protocol.settingsLen)
    (inside : ∀ x d, s.pending.lookup x = some d → x < Protocol.settingsLen) :
    s.applyPending.Exact where
  length := (Overlay.length_patch _ _).trans length
  shows := fun x d h => Overlay.patch_hit (length ▸ inside x d h) h

/-- Where the block already shows the overlay, a reflected write changes its own bytes only. -/
theorem settings_reflected (exact_ : s.Exact) {address : Int} {data : List Int}
    (reflected : s.reflects address data = true) (x : Nat) :
    (s.applyOptimistic address data).2.snapshot.settings[x]? =
      (cover address data x).or s.snapshot.settings[x]? := by
  have inside := (reflects_inside reflected).2
  rw [settings_applyOptimistic, if_pos reflected, Overlay.getElem?_patch,
    lookup_applyOptimistic, if_pos reflected]
  cases written : cover address data x with
  | some d =>
    have bound : x < s.snapshot.settings.length := by
      have := Overlay.cover_eq_some written
      omega
    simp [List.getElem?_eq_getElem bound]
  | none =>
    cases pending : s.pending.lookup x with
    | none => simp
    | some d => simp [exact_.shows x d pending]

theorem exact_applyOptimistic (exact_ : s.Exact) (address : Int) (data : List Int) :
    (s.applyOptimistic address data).2.Exact := by
  by_cases reflected : s.reflects address data = true
  · have inside := (reflects_inside reflected).2
    refine ⟨?_, fun x d h => ?_⟩
    · rw [settings_applyOptimistic, if_pos reflected, Overlay.length_patch, exact_.length]
    · rw [lookup_applyOptimistic, if_pos reflected] at h
      rw [settings_reflected exact_ reflected]
      cases written : cover address data x with
      | some d' => simpa [written] using h
      | none => simpa [written] using exact_.shows x d (by simpa [written] using h)
  · simpa [applyOptimistic, reflected] using exact_

theorem exact_run (exact_ : s.Exact) (call : StoreCall) (full : call.Full) :
    (call.run s).Exact := by
  cases call with
  | reconcileClear expected =>
    exact exact_.of_same rfl fun x d h => Overlay.lookup_of_clearEach expected s.pending h
  | op o =>
    have note := s.note_frame
    cases o with
    | subscribe _ | unsubscribe _ | updateLive _ _ _ => exact exact_.of_same rfl fun _ _ h => h
    | updateSettings data =>
      exact (Exact.patched (s := { s with snapshot := { s.snapshot with settings := data } })
        full fun x d h => exact_.inside h).of_same rfl fun _ _ h => h
    | noteSuccess =>
      exact exact_.of_same (congrArg _ note.1.2.1) fun _ _ h => note.1.1 ▸ h
    | noteFailure =>
      exact exact_.of_same (congrArg _ note.2.1.2.1) fun _ _ h => note.2.1.1 ▸ h
    | noteWedged =>
      exact exact_.of_same (congrArg _ note.2.2.2.1) fun _ _ h => note.2.2.1 ▸ h
    | applyOptimistic address data => exact exact_applyOptimistic exact_ address data
    | reconcileClear address data =>
      refine exact_.of_same rfl fun x d h => ?_
      have kept := (Overlay.lookup_clearAll address data s.pending x).symm.trans h
      split at kept
      · cases kept
      · exact kept
    | interpolateLiveTemps now =>
      have frame := s.interpolateLiveTemps_frame now
      exact exact_.of_same frame.2.2.1 fun _ _ h => frame.2.1 ▸ h

theorem exact_new (availabilityGrace : Nat) (staleAfter interpolateStep : ℚ) :
    (new availabilityGrace staleAfter interpolateStep).Exact where
  length := List.length_replicate
  shows := fun x d h => by cases h

theorem exact_runAll (exact_ : s.Exact) {calls : List StoreCall}
    (full : ∀ call ∈ calls, call.Full) : (StoreCall.runAll s calls).Exact := by
  induction calls generalizing s with
  | nil => exact exact_
  | cons call calls ih =>
    exact ih (exact_run exact_ call (full call List.mem_cons_self))
      fun later member => full later (List.mem_cons_of_mem _ member)

/-- In every history of calls whose settings reads have full length, the cached block shows the
overlay; a settings read puts the overlay over what was read; a write that `apply_optimistic`
refuses leaves no trace, and one that it takes changes its own bytes and nothing else. -/
theorem overlay_exact (availabilityGrace : Nat) (staleAfter interpolateStep : ℚ)
    (calls : List StoreCall) (full : ∀ call ∈ calls, call.Full) :
    let s := StoreCall.runAll (new availabilityGrace staleAfter interpolateStep) calls
    (∀ x d, s.pending.lookup x = some d → s.snapshot.settings[x]? = some d) ∧
    (∀ data x, (s.updateSettings data).snapshot.settings[x]? =
      data[x]?.map fun b => (s.pending.lookup x).getD b) ∧
    ∀ address data,
      let r := s.applyOptimistic address data
      (r.1 = false → r.2 = s) ∧
      (r.1 = true →
        (∀ x, r.2.snapshot.settings[x]? = (cover address data x).or s.snapshot.settings[x]?) ∧
        (∀ k, (h : k < data.length) →
          r.2.snapshot.settings[address.toNat + k]? = some (data.get ⟨k, h⟩)) ∧
        r.2.snapshot.settings.length = s.snapshot.settings.length ∧
        r.2.snapshot.live = s.snapshot.live ∧ r.2.available = s.available ∧
        r.2.failStreak = s.failStreak) := by
  intro s
  have exact_ : s.Exact := exact_runAll (exact_new _ _ _) full
  refine ⟨exact_.shows, fun data x => Overlay.getElem?_patch s.pending data x, ?_⟩
  intro address data r
  by_cases reflected : s.reflects address data = true
  · have verdict : r.1 = true := by simp only [r, applyOptimistic, reflected, if_true]
    have settings := settings_reflected exact_ reflected
    refine ⟨fun refused => Bool.noConfusion (verdict.symm.trans refused),
      fun _ => ⟨settings, fun k h => ?_, ?_, ?_, ?_, ?_⟩⟩
    · obtain ⟨a, rfl⟩ := Int.eq_ofNat_of_zero_le (reflects_inside reflected).1
      have own : cover (a : Int) data (a + k) = some (data.get ⟨k, h⟩) := by
        unfold cover
        rw [if_pos (by omega), show (((a + k : Nat) : Int) - a).toNat = k by omega]
        exact List.getElem?_eq_getElem h
      simpa only [Int.toNat_natCast, own, Option.some_or] using settings (a + k)
    · exact (exact_applyOptimistic exact_ address data).length.trans exact_.length.symm
    all_goals simp only [r, applyOptimistic, reflected, if_true]; rfl
  · have verdict : r = (false, s) := by simp only [r, applyOptimistic, if_neg reflected]
    exact ⟨fun _ => congrArg Prod.snd verdict,
      fun taken => Bool.noConfusion ((congrArg Prod.fst verdict).symm.trans taken)⟩

/-- A poll comes in over a write in flight: the write's byte is shown, the rest is the poll's. -/
theorem overlay_exact_over_poll :
    let s := StoreCall.runAll (new 3 30 1)
      [.op (.updateSettings (List.replicate 115 7)), .op (.applyOptimistic 2 [100]),
        .op (.updateSettings (List.replicate 115 9))]
    s.pending.lookup 2 = some 100 ∧ s.snapshot.settings[2]? = some 100 ∧
      s.snapshot.settings[3]? = some 9 ∧ (s.applyOptimistic 114 [1, 2]).2 = s := by
  have law := overlay_exact 3 30 1
    [.op (.updateSettings (List.replicate 115 7)), .op (.applyOptimistic 2 [100]),
      .op (.updateSettings (List.replicate 115 9))] (by
      simp [StoreCall.Full, Protocol.settingsLen])
  have pending : (StoreCall.runAll (new 3 30 1)
      [.op (.updateSettings (List.replicate 115 7)), .op (.applyOptimistic 2 [100]),
        .op (.updateSettings (List.replicate 115 9))]).pending.lookup 2 = some 100 := by
    decide +kernel
  exact ⟨pending, law.1 2 100 pending, by decide +kernel,
    (law.2.2 114 [1, 2]).1 (by decide +kernel)⟩

end DeviceState

/-- The calls since the last `note_success`. -/
def sinceSuccess (calls : List StoreCall) : List StoreCall :=
  calls.rtakeWhile (· ≠ .op .noteSuccess)

theorem sinceSuccess_snoc (calls : List StoreCall) (call : StoreCall) :
    sinceSuccess (calls ++ [call]) =
      if call = .op .noteSuccess then [] else sinceSuccess calls ++ [call] := by
  unfold sinceSuccess
  rw [List.rtakeWhile_concat]
  by_cases success : call = .op .noteSuccess <;> simp [success]

/-- What the outcomes since the last success say. -/
def Offline (grace : Nat) (recent : List StoreCall) : Prop :=
  .op .noteWedged ∈ recent ∨ grace ≤ recent.count (.op .noteFailure)

theorem not_offline_nil {grace : Nat} (positive : 1 ≤ grace) : ¬ Offline grace [] := by
  rintro (wedged | early)
  · cases wedged
  · rw [List.count_nil] at early
    omega

namespace DeviceState

/-- The streak counts the failures since the last success, until a wedge pushes it up. -/
structure Standing (grace : Nat) (recent : List StoreCall) (s : DeviceState) : Prop where
  grace_eq : s.availabilityGrace = grace
  counted : .op .noteWedged ∉ recent → s.failStreak = recent.count (.op .noteFailure)
  spent : .op .noteWedged ∈ recent → grace ≤ s.failStreak
  offline : s.verdict = some false ↔ Offline grace recent

variable {grace : Nat} {recent calls : List StoreCall} {s : DeviceState}

/-- A call that notes no outcome. -/
theorem standing_of_same (standing : s.Standing grace recent) {t : DeviceState}
    (same : t.availabilityGrace = s.availabilityGrace ∧ t.failStreak = s.failStreak ∧
      t.verdict = s.verdict) {call : StoreCall} (failure : call ≠ .op .noteFailure)
    (wedge : call ≠ .op .noteWedged) : t.Standing grace (recent ++ [call]) := by
  have count : (recent ++ [call]).count (.op .noteFailure) = recent.count (.op .noteFailure) := by
    simp [List.count_append, failure]
  have wedged : .op .noteWedged ∈ recent ++ [call] ↔ .op .noteWedged ∈ recent := by
    simp [Ne.symm wedge]
  refine ⟨same.1.trans standing.grace_eq, fun none_ => ?_, fun some_ => ?_, ?_⟩
  · rw [same.2.1, count, standing.counted (mt wedged.mpr none_)]
  · exact same.2.1.symm ▸ standing.spent (wedged.mp some_)
  · rw [same.2.2, standing.offline, Offline, Offline, wedged, count]

theorem standing_noteSuccess (grace_eq : s.availabilityGrace = grace) (positive : 1 ≤ grace) :
    s.noteSuccess.Standing grace [] := by
  have frame := setAvailable_frame { s with failStreak := 0 } true
  refine ⟨frame.2.2.2.2.trans grace_eq, fun _ => frame.2.2.2.1,
    fun wedged => absurd wedged List.not_mem_nil, ?_⟩
  rw [noteSuccess_verdict]
  simp [not_offline_nil positive]

theorem standing_noteFailure (standing : s.Standing grace recent) :
    s.noteFailure.Standing grace (recent ++ [.op .noteFailure]) := by
  obtain ⟨grace_eq, streak, trips⟩ := s.noteFailure_counts
  have count : (recent ++ [StoreCall.op .noteFailure]).count (.op .noteFailure) =
      recent.count (.op .noteFailure) + 1 := by simp
  have wedged : .op .noteWedged ∈ recent ++ [.op .noteFailure] ↔ .op .noteWedged ∈ recent := by
    simp
  rw [standing.grace_eq] at trips
  refine ⟨grace_eq.trans standing.grace_eq, fun none_ => ?_, fun some_ => ?_, ?_⟩
  · rw [streak, count, standing.counted (mt wedged.mpr none_)]
  · have := standing.spent (wedged.mp some_)
    omega
  · rw [Offline, wedged, count]
    by_cases was : .op .noteWedged ∈ recent
    · have spent := standing.spent was
      simp [was, trips (by omega)]
    · have counted := standing.counted was
      by_cases reached : grace ≤ s.failStreak + 1
      · simp [trips reached, counted ▸ reached]
      · have short : s.noteFailure.verdict = s.verdict := by
          simp only [noteFailure, standing.grace_eq, if_neg reached]
        have before : ¬ Offline grace recent := by
          rintro (h | h)
          · exact was h
          · omega
        rw [short, standing.offline]
        simp only [before, was, false_or, false_iff]
        omega

theorem standing_noteWedged (standing : s.Standing grace recent) :
    s.noteWedged.Standing grace (recent ++ [.op .noteWedged]) := by
  have frame := setAvailable_frame
    { s with failStreak := max s.failStreak s.availabilityGrace } false
  have member : .op .noteWedged ∈ recent ++ [.op .noteWedged] := by simp
  refine ⟨frame.2.2.2.2.trans standing.grace_eq, fun none_ => absurd member none_, fun _ => ?_, ?_⟩
  · have streak : s.noteWedged.failStreak = max s.failStreak s.availabilityGrace := frame.2.2.2.1
    rw [streak, standing.grace_eq]
    exact Nat.le_max_right _ _
  · simp [Offline]

theorem run_same (s : DeviceState) {call : StoreCall} (success : call ≠ .op .noteSuccess)
    (failure : call ≠ .op .noteFailure) (wedge : call ≠ .op .noteWedged) :
    (call.run s).availabilityGrace = s.availabilityGrace ∧
    (call.run s).failStreak = s.failStreak ∧ (call.run s).verdict = s.verdict := by
  cases call with
  | reconcileClear expected => exact ⟨rfl, rfl, rfl⟩
  | op o =>
    cases o with
    | noteSuccess => exact absurd rfl success
    | noteFailure => exact absurd rfl failure
    | noteWedged => exact absurd rfl wedge
    | subscribe _ | unsubscribe _ | updateSettings _ | updateLive _ _ _ | reconcileClear _ _ =>
      exact ⟨rfl, rfl, rfl⟩
    | applyOptimistic address data =>
      simp only [StoreCall.run, StoreOp.run, applyOptimistic]
      split <;> exact ⟨rfl, rfl, rfl⟩
    | interpolateLiveTemps now =>
      obtain ⟨readings, eased, -⟩ := s.interpolateLiveTemps_live now
      simp only [StoreCall.run, StoreOp.run, eased]
      exact ⟨rfl, rfl, rfl⟩

theorem standing_run (standing : s.Standing grace (sinceSuccess calls)) (positive : 1 ≤ grace)
    (call : StoreCall) : (call.run s).Standing grace (sinceSuccess (calls ++ [call])) := by
  rw [sinceSuccess_snoc]
  by_cases success : call = .op .noteSuccess
  · rw [if_pos success, success]
    exact standing_noteSuccess standing.grace_eq positive
  · rw [if_neg success]
    by_cases failure : call = .op .noteFailure
    · rw [failure]
      exact standing_noteFailure standing
    · by_cases wedge : call = .op .noteWedged
      · rw [wedge]
        exact standing_noteWedged standing
      · exact standing_of_same standing (s.run_same success failure wedge) failure wedge

theorem standing_runAll (positive : 1 ≤ grace) (staleAfter interpolateStep : ℚ)
    (calls : List StoreCall) :
    (StoreCall.runAll (new grace staleAfter interpolateStep) calls).Standing grace
      (sinceSuccess calls) := by
  induction calls using List.reverseRecOn with
  | nil =>
    refine ⟨rfl, fun _ => rfl, fun wedged => absurd wedged List.not_mem_nil, ?_⟩
    constructor
    · intro offline
      cases offline
    · intro offline
      exact absurd offline (not_offline_nil positive)
  | append_singleton calls call ih =>
    rw [StoreCall.runAll_snoc]
    exact standing_run ih positive call

theorem available_verdict (s : DeviceState) : s.available = false ↔ s.verdict = some false := by
  unfold available
  cases s.verdict <;> simp

/-- The machine counts as unavailable exactly when, since the last success, a wedge was declared
or the failures reached the grace; and every listener hears a change. -/
theorem available_iff_history (grace : Nat) (positive : 1 ≤ grace)
    (staleAfter interpolateStep : ℚ) (calls : List StoreCall) :
    let s := StoreCall.runAll (new grace staleAfter interpolateStep) calls
    (s.available = false ↔ .op .noteWedged ∈ sinceSuccess calls ∨
      grace ≤ (sinceSuccess calls).count (.op .noteFailure)) ∧
    ∀ call : StoreCall, (call.run s).available ≠ s.available →
      (call.run s).notified = s.notified ++ s.listeners := by
  intro s
  refine ⟨s.available_verdict.trans (standing_runAll positive _ _ calls).offline, ?_⟩
  intro call changed
  have verdict : (call.run s).verdict ≠ s.verdict := fun same =>
    changed (by unfold available; rw [same])
  cases call with
  | reconcileClear expected => exact absurd rfl verdict
  | op o => exact StoreOp.run_heard s o verdict

/-- Two failures, a success and two failures again stay below a grace of three. -/
theorem available_iff_history_spread :
    (StoreCall.runAll (new 3 30 1) [.op .noteFailure, .op .noteFailure, .op .noteSuccess,
      .op .noteFailure, .op .noteFailure]).available = true := by
  have law := (available_iff_history 3 (by decide) 30 1 [.op .noteFailure, .op .noteFailure,
    .op .noteSuccess, .op .noteFailure, .op .noteFailure]).1
  exact eq_true_of_ne_false (mt law.mp (by decide))

end DeviceState

end R60V
