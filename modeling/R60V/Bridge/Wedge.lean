import Mathlib.Data.Rat.Defs
import Mathlib.Tactic.Linarith
import Mathlib.Algebra.Order.Ring.Rat

/-! Wedge recovery: the bridge's own back-off when the listener wedges. The clock
is passed in: `now` is what `self._now()` returns. -/
namespace R60V

def wedgeAfterDefault : ℚ := 45

def cooldownStepsDefault : List ℚ := [300, 600, 1200, 1800]

def resumeAfterProbesDefault : Nat := 2

/-- The ladder of cooldowns is never empty, so indexing it cannot fail. -/
structure WedgeRecovery where
  wedgeAfter : ℚ
  cooldownSteps : List ℚ
  steps_ne : cooldownSteps ≠ []
  resumeAfterProbes : Nat
  firstFailAt : Option ℚ
  cooldownUntil : Option ℚ
  cooldownIndex : Nat
  probeSuccesses : Nat

namespace WedgeRecovery

def new (wedgeAfter : ℚ) (cooldownSteps : List ℚ) (steps_ne : cooldownSteps ≠ [])
    (resumeAfterProbes : Nat) : WedgeRecovery where
  wedgeAfter := wedgeAfter
  cooldownSteps := cooldownSteps
  steps_ne := steps_ne
  resumeAfterProbes := max 1 resumeAfterProbes
  firstFailAt := none
  cooldownUntil := none
  cooldownIndex := 0
  probeSuccesses := 0

def recordSuccess (w : WedgeRecovery) : WedgeRecovery :=
  { w with firstFailAt := none, cooldownUntil := none, cooldownIndex := 0, probeSuccesses := 0 }

def recordFailure (w : WedgeRecovery) (now : ℚ) : WedgeRecovery :=
  match w.firstFailAt with
  | none => { w with firstFailAt := some now }
  | some _ => w

def recordProbeSuccess (w : WedgeRecovery) (now : ℚ) : Bool × WedgeRecovery :=
  let w := { w with probeSuccesses := w.probeSuccesses + 1 }
  if w.resumeAfterProbes ≤ w.probeSuccesses then (true, w.recordSuccess)
  else (false, { w with cooldownUntil := some now })

/-- The length of the cooldown that is due: the ladder saturates at its last step. -/
def step (w : WedgeRecovery) : ℚ :=
  w.cooldownSteps[min w.cooldownIndex (w.cooldownSteps.length - 1)]?.getD 0

def beginCooldown (w : WedgeRecovery) (now : ℚ) : ℚ × WedgeRecovery :=
  (w.step, { w with
    cooldownUntil := some (now + w.step)
    cooldownIndex := w.cooldownIndex + 1
    probeSuccesses := 0 })

def wedged (w : WedgeRecovery) (now : ℚ) : Bool :=
  match w.firstFailAt with
  | none => false
  | some since => w.wedgeAfter ≤ now - since

def inCooldown (w : WedgeRecovery) (now : ℚ) : Bool :=
  match w.cooldownUntil with
  | none => false
  | some expiry => now < expiry

def awaitingProbe (w : WedgeRecovery) (now : ℚ) : Bool :=
  match w.cooldownUntil with
  | none => false
  | some expiry => expiry ≤ now

def cooldownRemaining (w : WedgeRecovery) (now : ℚ) : ℚ :=
  if !w.inCooldown now then 0 else max 0 (w.cooldownUntil.getD now - now)

theorem cooldown_iff (w : WedgeRecovery) (now : ℚ) :
    (w.inCooldown now = true ∨ w.awaitingProbe now = true) ↔ w.cooldownUntil ≠ none := by
  unfold inCooldown awaitingProbe
  cases w.cooldownUntil with
  | none => simp
  | some expiry => simpa using lt_or_ge now expiry

theorem inCooldown_none {w : WedgeRecovery} (h : w.cooldownUntil = none) (now : ℚ) :
    w.inCooldown now = false := by
  simp [inCooldown, h]

theorem inCooldown_elapsed {w : WedgeRecovery} {now later : ℚ} (h : w.inCooldown now = false)
    (le : now ≤ later) : w.inCooldown later = false := by
  unfold inCooldown at h ⊢
  cases hc : w.cooldownUntil with
  | none => rfl
  | some expiry =>
    simp only [hc, decide_eq_false_iff_not, not_lt] at h ⊢
    exact h.trans le

/-- A failure only starts the clock of the streak, if it does not run yet. -/
theorem recordFailure_eq (w : WedgeRecovery) (now : ℚ) :
    w.recordFailure now = { w with firstFailAt := some (w.firstFailAt.getD now) } := by
  unfold recordFailure
  split
  · rename_i unset
    rw [unset]
    rfl
  · rename_i since set_
    cases w
    simp_all

/-- A good probe is the last one that was missing, or one more of them. -/
theorem recordProbeSuccess_cases (w : WedgeRecovery) (now : ℚ) :
    (w.resumeAfterProbes ≤ w.probeSuccesses + 1 ∧
      w.recordProbeSuccess now = (true, w.recordSuccess)) ∨
    (w.probeSuccesses + 1 < w.resumeAfterProbes ∧
      w.recordProbeSuccess now = (false, { w with
        cooldownUntil := some now
        probeSuccesses := w.probeSuccesses + 1 })) := by
  unfold recordProbeSuccess
  dsimp only
  split
  · rename_i enough
    exact Or.inl ⟨enough, rfl⟩
  · rename_i missing
    exact Or.inr ⟨Nat.not_le.mp missing, rfl⟩

@[simp] theorem recordFailure_cooldownUntil (w : WedgeRecovery) (now : ℚ) :
    (w.recordFailure now).cooldownUntil = w.cooldownUntil := by
  unfold recordFailure
  split <;> rfl

theorem recordProbeSuccess_cooldownUntil (w : WedgeRecovery) (now : ℚ) :
    ((w.recordProbeSuccess now).1 = true → (w.recordProbeSuccess now).2.cooldownUntil = none) ∧
    ((w.recordProbeSuccess now).1 = false →
      (w.recordProbeSuccess now).2.cooldownUntil = some now) := by
  unfold recordProbeSuccess
  dsimp only
  split <;> simp [recordSuccess]

end WedgeRecovery

end R60V
