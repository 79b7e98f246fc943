import R60V.Bridge.Store
import R60V.Python.Numerals

/-! The estimated boiler temperatures. Between two readings every publish nudges the cached value
towards its setpoint; any number of nudges is one clamped move. -/
namespace R60V

open Python (roundEven)

/-- `n` nudges of at most `k` from `c` towards `t`. -/
def toward (k c t : Int) (n : Nat) : Int := c + max (-(k * n)) (min (k * n) (t - c))

theorem toward_zero (k c t : Int) : toward k c t 0 = c := by
  simp [toward]

theorem toward_succ {k : Int} (positive : 1 ≤ k) (c t : Int) (n : Nat) :
    toward k (toward k c t n) t 1 = toward k c t (n + 1) := by
  have further : k * ((n + 1 : Nat) : Int) = k * n + k := by push_cast; ring
  have reach : 0 ≤ k * (n : Int) := Int.mul_nonneg (by omega) (by omega)
  simp only [toward, further, Nat.cast_one, mul_one]
  generalize k * (n : Int) = m at reach
  omega

/-- Each nudge stays between where it starts and the setpoint. -/
theorem toward_between {k : Int} (positive : 1 ≤ k) (c t : Int) (n : Nat) :
    (toward k c t n ≤ toward k c t (n + 1) ∧ toward k c t (n + 1) ≤ t) ∨
      (t ≤ toward k c t (n + 1) ∧ toward k c t (n + 1) ≤ toward k c t n) := by
  rw [← toward_succ positive]
  generalize toward k c t n = v
  simp only [toward, Nat.cast_one, mul_one]
  omega

theorem toward_reaches {k : Int} {c t : Int} {n : Nat} (near : |t - c| ≤ k * n) :
    toward k c t n = t := by
  have bounds := abs_le.mp near
  simp only [toward]
  omega

namespace DeviceState

/-- The first value of a live register. -/
def reading (s : DeviceState) (live : Nat) : Option Int :=
  ((s.snapshot.live.lookup live).getD []).head?

def interpolateAll (s : DeviceState) (times : List ℚ) : DeviceState :=
  times.foldl interpolateLiveTemps s

/-- `time.monotonic() - self._last_live_update_at < self.stale_after` -/
def Fresh (s : DeviceState) (now : ℚ) : Prop := now - s.lastLiveUpdateAt < s.staleAfter

variable {s : DeviceState}

@[simp] theorem withLive_settingsByte (s : DeviceState) (readings : Overlay.Dict (List Int))
    (address : Nat) :
    (s.withLive readings).snapshot.settingsByte address = s.snapshot.settingsByte address := rfl

/-- In integers the clamped step is exact, and the rounding has nothing to do. -/
theorem reading_ease {k : Int} (positive : 1 ≤ k) (step : s.interpolateStep = k)
    {live : Nat} (setpoint : Nat) {c : Int} (h : s.reading live = some c) :
    (s.ease live setpoint).reading live =
      some (toward k c (s.snapshot.settingsByte setpoint) 1) := by
  unfold ease
  unfold reading at h
  split
  · rename_i empty
    rw [empty] at h
    cases h
  · rename_i current more found
    rw [found] at h
    obtain rfl : current = c := Option.some.inj h
    dsimp only
    split
    · rename_i arrived
      rw [reading, found, List.head?_cons, toward, arrived]
      congr 1
      omega
    · have exact_ : (current : ℚ) + max (-s.interpolateStep)
            (min s.interpolateStep ((s.snapshot.settingsByte setpoint - current : Int) : ℚ)) =
          ((toward k current (s.snapshot.settingsByte setpoint) 1 : Int) : ℚ) := by
        rw [step, toward]
        push_cast
        rw [mul_one]
      simp only [reading, AList.lookup_insert, Option.getD_some, List.head?_cons, exact_,
        Python.roundEven_intCast]

theorem reading_ease_other (s : DeviceState) {live x : Nat} (other : x ≠ live) (setpoint : Nat) :
    (s.ease live setpoint).reading x = s.reading x := by
  obtain ⟨readings, eased, same⟩ := s.ease_live live setpoint
  rw [eased, reading, reading, withLive, same x other]

theorem interpolateAll_snoc (s : DeviceState) (times : List ℚ) (now : ℚ) :
    s.interpolateAll (times ++ [now]) = (s.interpolateAll times).interpolateLiveTemps now := by
  simp only [interpolateAll, List.foldl_append, List.foldl_cons, List.foldl_nil]

/-- No number of nudges touches anything but the two boiler readings. -/
theorem interpolateAll_live (s : DeviceState) (times : List ℚ) :
    ∃ readings, s.interpolateAll times = s.withLive readings ∧
      ∀ x, x ≠ Address.currentBrewTemp → x ≠ Address.currentServiceTemp →
        readings.lookup x = s.snapshot.live.lookup x := by
  induction times using List.reverseRecOn with
  | nil => exact ⟨s.snapshot.live, rfl, fun _ _ _ => rfl⟩
  | append_singleton times now ih =>
    obtain ⟨readings, before, same⟩ := ih
    obtain ⟨readings', eased, same'⟩ := (s.withLive readings).interpolateLiveTemps_live now
    refine ⟨readings', ?_, fun x brew service => ?_⟩
    · rw [interpolateAll_snoc, before, eased]
      rfl
    · exact (same' x brew service).trans (same x brew service)

theorem interpolateLiveTemps_idle {now : ℚ} (idle : s.haveData = false ∨ s.Fresh now ∨
    s.snapshot.settingsByte Address.standby ≠ 0) : s.interpolateLiveTemps now = s := by
  unfold interpolateLiveTemps
  rcases idle with none_ | fresh | standby
  · simp [none_]
  · rw [Fresh] at fresh
    simp [fresh]
  · simp [standby]

theorem interpolateAll_idle {times : List ℚ} (idle : ∀ now ∈ times, s.haveData = false ∨
    s.Fresh now ∨ s.snapshot.settingsByte Address.standby ≠ 0) : s.interpolateAll times = s := by
  induction times with
  | nil => rfl
  | cons now times ih =>
    have first := interpolateLiveTemps_idle (idle now List.mem_cons_self)
    have rest := ih fun later member => idle later (List.mem_cons_of_mem _ member)
    simpa only [interpolateAll, List.foldl_cons, first] using rest

/-- The estimate runs. -/
structure Easing (s : DeviceState) (now : ℚ) : Prop where
  data : s.haveData = true
  stale : ¬ s.Fresh now
  on : s.snapshot.settingsByte Address.standby = 0

theorem interpolateLiveTemps_easing {now : ℚ} (easing : s.Easing now) :
    s.interpolateLiveTemps now =
      if s.snapshot.settingsByte Address.serviceBoilerEnable ≠ 0 then
        (s.ease Address.currentBrewTemp Address.brewBoilerTemp).ease Address.currentServiceTemp
          Address.serviceBoilerTemp
      else s.ease Address.currentBrewTemp Address.brewBoilerTemp := by
  obtain ⟨readings, eased, -⟩ := s.ease_live Address.currentBrewTemp Address.brewBoilerTemp
  have stale : ¬ now - s.lastLiveUpdateAt < s.staleAfter := easing.stale
  unfold interpolateLiveTemps
  rw [if_neg (by simp [easing.data]), if_neg stale, if_neg (by simp [easing.on]), eased]
  dsimp only
  rw [withLive_settingsByte]

theorem brew_step {k : Int} (positive : 1 ≤ k) (step : s.interpolateStep = k) {now : ℚ}
    (easing : s.Easing now) {c : Int} (h : s.reading Address.currentBrewTemp = some c) :
    (s.interpolateLiveTemps now).reading Address.currentBrewTemp =
      some (toward k c (s.snapshot.settingsByte Address.brewBoilerTemp) 1) := by
  rw [interpolateLiveTemps_easing easing]
  split
  · rw [reading_ease_other _ (by decide)]
    exact reading_ease positive step _ h
  · exact reading_ease positive step _ h

theorem service_step {k : Int} (positive : 1 ≤ k) (step : s.interpolateStep = k) {now : ℚ}
    (easing : s.Easing now) (enabled : s.snapshot.settingsByte Address.serviceBoilerEnable ≠ 0)
    {c : Int} (h : s.reading Address.currentServiceTemp = some c) :
    (s.interpolateLiveTemps now).reading Address.currentServiceTemp =
      some (toward k c (s.snapshot.settingsByte Address.serviceBoilerTemp) 1) := by
  obtain ⟨readings, eased, -⟩ := s.ease_live Address.currentBrewTemp Address.brewBoilerTemp
  have apart : Address.currentServiceTemp ≠ Address.currentBrewTemp := by decide
  have before := (s.reading_ease_other apart Address.brewBoilerTemp).trans h
  rw [interpolateLiveTemps_easing easing, if_pos enabled]
  have nudged := reading_ease positive (s := s.ease Address.currentBrewTemp Address.brewBoilerTemp)
    (by rw [eased]; exact step) Address.serviceBoilerTemp before
  rw [nudged, eased]
  rfl

/-- What one nudge does to a reading, iterated. -/
theorem reading_interpolateAll {k : Int} (positive : 1 ≤ k) {live : Nat} {t : Int}
    {times : List ℚ}
    (one : ∀ readings, ∀ now ∈ times, ∀ c, (s.withLive readings).reading live = some c →
      ((s.withLive readings).interpolateLiveTemps now).reading live = some (toward k c t 1))
    {c : Int} (h : s.reading live = some c) :
    (s.interpolateAll times).reading live = some (toward k c t times.length) := by
  induction times using List.reverseRecOn with
  | nil => exact h.trans (congrArg some (toward_zero k c t).symm)
  | append_singleton times now ih =>
    have before := ih fun readings now' member =>
      one readings now' (List.mem_append_left _ member)
    obtain ⟨readings, same, -⟩ := s.interpolateAll_live times
    rw [same] at before
    rw [interpolateAll_snoc, same, one readings now (by simp) _ before, toward_succ positive,
      List.length_append, List.length_singleton]

/-- Any number of nudges moves a boiler's reading by one clamped step: it nears the setpoint
without passing it, arrives and stays. In every state the nudges touch nothing but the two
readings, and nothing at all without data, while the last reading is fresh or in standby. -/
theorem interpolation_eases (s : DeviceState) (times : List ℚ) :
    (∀ k : Int, 1 ≤ k → s.interpolateStep = k → (∀ now ∈ times, s.Easing now) →
      (∀ c, s.reading Address.currentBrewTemp = some c →
        (s.interpolateAll times).reading Address.currentBrewTemp =
          some (toward k c (s.snapshot.settingsByte Address.brewBoilerTemp) times.length)) ∧
      (s.snapshot.settingsByte Address.serviceBoilerEnable ≠ 0 →
        ∀ c, s.reading Address.currentServiceTemp = some c →
        (s.interpolateAll times).reading Address.currentServiceTemp =
          some (toward k c (s.snapshot.settingsByte Address.serviceBoilerTemp) times.length)) ∧
      ∀ c t : Int, ∀ n : Nat,
        ((toward k c t n ≤ toward k c t (n + 1) ∧ toward k c t (n + 1) ≤ t) ∨
          (t ≤ toward k c t (n + 1) ∧ toward k c t (n + 1) ≤ toward k c t n)) ∧
        (|t - c| ≤ k * n → toward k c t n = t)) ∧
    (∃ readings, s.interpolateAll times = s.withLive readings ∧
      ∀ x, x ≠ Address.currentBrewTemp → x ≠ Address.currentServiceTemp →
        readings.lookup x = s.snapshot.live.lookup x) ∧
    ((∀ now ∈ times, s.haveData = false ∨ s.Fresh now ∨
      s.snapshot.settingsByte Address.standby ≠ 0) → s.interpolateAll times = s) := by
  refine ⟨?_, s.interpolateAll_live times, interpolateAll_idle⟩
  intro k positive step easing
  have runs : ∀ readings, ∀ now ∈ times, (s.withLive readings).Easing now := fun readings now
    member => ⟨(easing now member).data, (easing now member).stale, (easing now member).on⟩
  refine ⟨?_, ?_, fun c t n => ⟨toward_between positive c t n, toward_reaches⟩⟩
  · intro c h
    refine reading_interpolateAll positive (fun readings now member c' h' => ?_) h
    rw [brew_step (s := s.withLive readings) positive step (runs readings now member) h',
      withLive_settingsByte]
  · intro enabled c h
    refine reading_interpolateAll positive (fun readings now member c' h' => ?_) h
    rw [service_step (s := s.withLive readings) positive step (runs readings now member) enabled
      h', withLive_settingsByte]

/-- Three nudges of two degrees, from 90 towards 105. -/
theorem interpolation_eases_brewing :
    let s := ((new 3 30 2).updateSettings ((List.replicate 115 0).set 2 105)).updateLive 0
      Address.currentBrewTemp [90]
    (s.interpolateAll [40, 50, 60]).reading Address.currentBrewTemp = some 96 := by
  intro s
  have easing : ∀ now ∈ [(40 : ℚ), 50, 60], s.Easing now := by
    intro now member
    refine ⟨rfl, ?_, by decide +kernel⟩
    simp only [List.mem_cons, List.not_mem_nil, or_false] at member
    rcases member with rfl | rfl | rfl <;>
      norm_num [Fresh, s, updateLive, updateSettings, applyPending, notify, new]
  have law := ((interpolation_eases s [40, 50, 60]).1 2 (by decide) rfl easing).1 90
    (by decide +kernel)
  rw [law]
  decide +kernel

end DeviceState

end R60V
