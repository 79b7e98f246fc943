import R60V.Lib.Runs
import Mathlib.Tactic.Linarith
import Mathlib.Algebra.Order.Ring.Rat

/-! Outputs that keep a distance in time. A system sleeps before it acts until a gap since its last
act is over, and remembers when it acted. -/
namespace Spacing

open Runs (Run Move outputs)

/-- When a sleep ends that waits out the rest of a gap since the last act. -/
def due (gap last now : ℚ) : ℚ :=
  if gap ≤ 0 then now else if now - last < gap then now + (gap - (now - last)) else now

theorem due_spec {gap last now : ℚ} (past : last ≤ now) : last + gap ≤ due gap last now := by
  unfold due
  split
  · linarith
  · split <;> linarith

/-- A sleep that waits out a gap is no longer than that. -/
theorem due_le (gap last now : ℚ) : due gap last now ≤ now ∨ due gap last now ≤ last + gap := by
  unfold due
  split
  · exact Or.inl le_rfl
  · split
    · right
      linarith
    · exact Or.inl le_rfl

/-- So many times that keep a distance fit into an interval. -/
theorem crowd_le {gap : ℚ} {times : List ℚ} (nonneg : 0 ≤ gap)
    (spaced : times.Pairwise fun x y => x + gap ≤ y) {a b : ℚ} (order : a ≤ b)
    (inside : ∀ x ∈ times, a ≤ x ∧ x ≤ b) : times.length * gap ≤ b - a + gap := by
  induction times generalizing a with
  | nil =>
    simp only [List.length_nil, Nat.cast_zero, zero_mul]
    linarith
  | cons x times ih =>
    obtain ⟨first, later⟩ := List.pairwise_cons.mp spaced
    obtain ⟨low, high⟩ := inside x List.mem_cons_self
    rw [List.length_cons, Nat.cast_succ, add_mul, one_mul]
    cases times with
    | nil =>
      simp only [List.length_nil, Nat.cast_zero, zero_mul]
      linarith
    | cons y times =>
      have after : x + gap ≤ b :=
        (first y List.mem_cons_self).trans (inside y (List.mem_cons_of_mem _ List.mem_cons_self)).2
      have rest := ih later after fun z member =>
        ⟨first z member, (inside z (List.mem_cons_of_mem _ member)).2⟩
      linarith

variable {S E O : Type} {step : S → E → Option (S × List O)} {start : S}

/-- The times of some outputs keep a distance, if the system remembers the last of them and has the
next one no earlier than the gap after it. -/
theorem Run.spaced (Inv : S → Prop) (last : S → ℚ) (time : O → Option ℚ) (gap : ℚ)
    (init : Inv start) (preserved : ∀ s e t os, Inv s → step s e = some (t, os) → Inv t)
    (spaces : ∀ s e t os, Inv s → step s e = some (t, os) →
      (os.filterMap time = [] ∧ last s ≤ last t) ∨
        (os.filterMap time = [last t] ∧ last s + gap ≤ last t ∧ last s ≤ last t))
    {ms : List (Move S E O)} {s : S} (run : Run step start ms s) :
    ((outputs ms).filterMap time).Pairwise fun x y => x + gap ≤ y := by
  have both : (((outputs ms).filterMap time).Pairwise fun x y => x + gap ≤ y) ∧
      ∀ x ∈ (outputs ms).filterMap time, x ≤ last s := by
    induction run with
    | nil => simp
    | snoc r h ih =>
      obtain ⟨spaced, below⟩ := ih
      rw [Runs.outputs_snoc, List.filterMap_append]
      rcases spaces _ _ _ _ (r.invariant Inv init preserved) h with
        ⟨none_, up⟩ | ⟨one, apart, up⟩
      · rw [none_, List.append_nil]
        exact ⟨spaced, fun x member => (below x member).trans up⟩
      · rw [one]
        constructor
        · refine List.pairwise_append.mpr ⟨spaced, List.pairwise_singleton _ _, ?_⟩
          intro x earlier y now
          rw [List.mem_singleton.mp now]
          linarith [below x earlier]
        · intro x member
          rcases List.mem_append.mp member with earlier | now
          · exact (below x earlier).trans up
          · exact (List.mem_singleton.mp now).le
  exact both.1

end Spacing
