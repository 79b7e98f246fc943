import Mathlib.Computability.StateTransition
import Mathlib.Tactic.Common

/-! Runs of a system given by a partial, labelled step function. A step takes an
event, may refuse it, and emits a list of outputs. Invariants, and conditions on
the steps of a run, are proved once here by induction on the run. -/
namespace Runs

variable {S E O : Type}

structure Move (S E O : Type) where
  before : S
  event : E
  emits : List O
  after : S

/-- The runs from a state, with the list of their moves, oldest first. -/
inductive Run (step : S → E → Option (S × List O)) (start : S) : List (Move S E O) → S → Prop where
  | nil : Run step start [] start
  | snoc {ms : List (Move S E O)} {s t : S} {e : E} {os : List O} :
      Run step start ms s → step s e = some (t, os) → Run step start (ms ++ [⟨s, e, os, t⟩]) t

def outputs (ms : List (Move S E O)) : List O := ms.flatMap Move.emits

@[simp] theorem outputs_nil : outputs ([] : List (Move S E O)) = [] := rfl

@[simp] theorem outputs_snoc (ms : List (Move S E O)) (m : Move S E O) :
    outputs (ms ++ [m]) = outputs ms ++ m.emits := by
  simp [outputs]

/-- Outputs of one kind, filtered for those of another. -/
theorem filterMap_silent {A B C : Type} {f : A → B} {g : B → Option C}
    (silent : ∀ a, g (f a) = none) (xs : List A) : (xs.map f).filterMap g = [] := by
  rw [List.filterMap_map]
  exact List.filterMap_eq_nil_iff.mpr fun a _ => silent a

variable {step : S → E → Option (S × List O)} {start : S}

theorem forall_snoc {P : Move S E O → Prop} {ms : List (Move S E O)} {m : Move S E O} :
    (∀ x ∈ ms ++ [m], P x) ↔ (∀ x ∈ ms, P x) ∧ P m := by
  simp only [List.mem_append, List.mem_singleton, or_imp, forall_and, forall_eq]

/-- Where a list that ends in an element can be cut before one of its elements. -/
theorem snoc_eq_split {α : Type} {xs front back : List α} {x y : α}
    (whole : xs ++ [x] = front ++ y :: back) :
    (front = xs ∧ y = x ∧ back = []) ∨ ∃ init, back = init ++ [x] ∧ xs = front ++ y :: init := by
  rcases List.eq_nil_or_concat back with rfl | ⟨init, z, rfl⟩
  · obtain ⟨rfl, same⟩ := List.append_inj' whole rfl
    exact Or.inl ⟨rfl, (List.cons.inj same).1.symm, rfl⟩
  · have cut : xs ++ [x] = (front ++ y :: init) ++ [z] := by simpa using whole
    obtain ⟨rfl, same⟩ := List.append_inj' cut rfl
    obtain rfl := (List.cons.inj same).1
    exact Or.inr ⟨init, List.concat_eq_append, rfl⟩

theorem Run.invariant (Inv : S → Prop) (init : Inv start)
    (preserved : ∀ s e t os, Inv s → step s e = some (t, os) → Inv t)
    {ms : List (Move S E O)} {s : S} (run : Run step start ms s) : Inv s := by
  induction run with
  | nil => exact init
  | snoc _ h ih => exact preserved _ _ _ _ ih h

/-- The part of a run before one of its moves is a run to where that move begins. -/
theorem Run.upto {front back : List (Move S E O)} {m : Move S E O} {s : S}
    (run : Run step start (front ++ m :: back) s) : Run step start front m.before := by
  generalize whole : front ++ m :: back = ms at run
  induction run generalizing back with
  | nil => simp at whole
  | @snoc ms s t e os r h ih =>
    rcases snoc_eq_split whole.symm with ⟨rfl, rfl, rfl⟩ | ⟨init, rfl, cut⟩
    · exact r
    · exact ih cut.symm

/-- The part of a run after one of its moves is a run from where that move ends. -/
theorem Run.after {front back : List (Move S E O)} {m : Move S E O} {s : S}
    (run : Run step start (front ++ m :: back) s) : Run step m.after back s := by
  generalize whole : front ++ m :: back = ms at run
  induction run generalizing back with
  | nil => simp at whole
  | @snoc ms s t e os r h ih =>
    rcases snoc_eq_split whole.symm with ⟨rfl, rfl, rfl⟩ | ⟨init, rfl, cut⟩
    · exact .nil
    · exact (ih cut.symm).snoc h

/-- A step, and a run from where it ends. -/
theorem Run.prepend {s t u : S} {e : E} {os : List O} (h : step s e = some (t, os))
    {ms : List (Move S E O)} (run : Run step t ms u) : Run step s (⟨s, e, os, t⟩ :: ms) u := by
  induction run with
  | nil => exact .snoc .nil h
  | snoc _ later ih => exact ih.snoc later

/-- Outputs never fall back in rank, if each has the level that the system has come to with its
step, and the level never falls. -/
theorem Run.outputs_rising {ι : Type} [Preorder ι] (Inv : S → Prop) (level : S → ι) (rank : O → ι)
    (init : Inv start) (preserved : ∀ s e t os, Inv s → step s e = some (t, os) → Inv t)
    (rises : ∀ s e t os, Inv s → step s e = some (t, os) →
      level s ≤ level t ∧ ∀ o ∈ os, rank o = level t)
    {ms : List (Move S E O)} {s : S} (run : Run step start ms s) :
    (outputs ms).Pairwise fun x y => rank x ≤ rank y := by
  have both : ((outputs ms).Pairwise fun x y => rank x ≤ rank y) ∧
      ∀ o ∈ outputs ms, rank o ≤ level s := by
    induction run with
    | nil => simp
    | snoc r h ih =>
      obtain ⟨sorted, below⟩ := ih
      obtain ⟨up, exact_⟩ := rises _ _ _ _ (r.invariant Inv init preserved) h
      rw [outputs_snoc]
      constructor
      · refine List.pairwise_append.mpr ⟨sorted, ?_, ?_⟩
        · exact List.pairwise_of_forall_mem_list fun x hx y hy =>
            ((exact_ x hx).trans (exact_ y hy).symm).le
        · exact fun x hx y hy => ((below x hx).trans up).trans (exact_ y hy).ge
      · intro o member
        rcases List.mem_append.mp member with old | new
        · exact (below o old).trans up
        · exact (exact_ o new).le
  exact both.1

theorem Run.states_of (Inv : S → Prop) (Meets : Move S E O → Prop) (init : Inv start)
    (preserved : ∀ s e t os, Inv s → Meets ⟨s, e, os, t⟩ → step s e = some (t, os) → Inv t)
    {ms : List (Move S E O)} {s : S} (run : Run step start ms s) (met : ∀ m ∈ ms, Meets m) :
    (∀ m ∈ ms, Inv m.after) ∧ Inv s := by
  induction run with
  | nil => exact ⟨by simp, init⟩
  | snoc _ h ih =>
    obtain ⟨earlier, last⟩ := forall_snoc.mp met
    have after := preserved _ _ _ _ (ih earlier).2 last h
    exact ⟨forall_snoc.mpr ⟨(ih earlier).1, after⟩, after⟩

theorem Run.move_step {ms : List (Move S E O)} {s : S} (run : Run step start ms s)
    {m : Move S E O} (h : m ∈ ms) : step m.before m.event = some (m.after, m.emits) := by
  induction run with
  | nil => cases h
  | snoc _ hs ih =>
    rcases List.mem_append.mp h with h | h
    · exact ih h
    · obtain rfl := List.mem_singleton.mp h
      exact hs

theorem Run.invariant_before (Inv : S → Prop) (init : Inv start)
    (preserved : ∀ s e t os, Inv s → step s e = some (t, os) → Inv t)
    {ms : List (Move S E O)} {s : S} (run : Run step start ms s)
    {m : Move S E O} (h : m ∈ ms) : Inv m.before := by
  induction run with
  | nil => cases h
  | snoc r hs ih =>
    rcases List.mem_append.mp h with h | h
    · exact ih h
    · obtain rfl := List.mem_singleton.mp h
      exact r.invariant Inv init preserved

/-- A property of single moves holds along a run exactly when a condition does, as soon as the
two agree on every step from a state that satisfies an invariant. -/
theorem Run.moves_iff (Inv : S → Prop) (Good : Move S E O → Prop) (Meets : S → E → Prop)
    (init : Inv start)
    (preserved : ∀ s e t os, Inv s → step s e = some (t, os) → Inv t)
    (agree : ∀ s e t os, Inv s → step s e = some (t, os) → (Good ⟨s, e, os, t⟩ ↔ Meets s e))
    {ms : List (Move S E O)} {s : S} (run : Run step start ms s) :
    (∀ m ∈ ms, Good m) ↔ ∀ m ∈ ms, Meets m.before m.event := by
  have each : ∀ m ∈ ms, (Good m ↔ Meets m.before m.event) := fun m h =>
    agree m.before m.event m.after m.emits (run.invariant_before Inv init preserved h)
      (run.move_step h)
  exact ⟨fun good m h => (each m h).mp (good m h), fun met m h => (each m h).mpr (met m h)⟩

/-- A property of states holds all along a run exactly when every step of it meets a condition,
as soon as a stronger one is kept by the steps that meet it, and lost visibly by the others. -/
theorem Run.states_iff (Inv Strong Good : S → Prop) (Meets : S → E → Prop) (init : Inv start)
    (strong : Strong start) (enough : ∀ s, Strong s → Good s)
    (preserved : ∀ s e t os, Inv s → step s e = some (t, os) → Inv t)
    (keeps : ∀ s e t os, Inv s → Strong s → step s e = some (t, os) → Meets s e → Strong t)
    (needs : ∀ s e t os, Inv s → Strong s → step s e = some (t, os) → Good t → Meets s e)
    {ms : List (Move S E O)} {s : S} (run : Run step start ms s) :
    (∀ m ∈ ms, Good m.after) ↔ ∀ m ∈ ms, Meets m.before m.event := by
  have both : ((∀ m ∈ ms, Good m.after) ↔ ∀ m ∈ ms, Meets m.before m.event) ∧
      ((∀ m ∈ ms, Meets m.before m.event) → Strong s) := by
    induction run with
    | nil => exact ⟨by simp, fun _ => strong⟩
    | snoc r h ih =>
      rw [forall_snoc, forall_snoc]
      have inv := r.invariant Inv init preserved
      refine ⟨⟨?_, ?_⟩, fun all => keeps _ _ _ _ inv (ih.2 all.1) h all.2⟩
      · rintro ⟨earlier, last⟩
        have before := ih.1.mp earlier
        exact ⟨before, needs _ _ _ _ inv (ih.2 before) h last⟩
      · rintro ⟨earlier, last⟩
        exact ⟨ih.1.mpr earlier, enough _ (keeps _ _ _ _ inv (ih.2 earlier) h last)⟩
  exact both.1

/-- A run of a system is one of its component: every step of the system is a step of the component,
with the outputs that are the component's, or leaves it alone. -/
theorem Run.project {S' E' O' : Type} {step' : S' → E' → Option (S' × List O')} {start' : S'}
    (state : S → S') (out : O → Option O') (Allowed : E' → Prop) (init : state start = start')
    (simulates : ∀ s e t os, step s e = some (t, os) →
      (state t = state s ∧ os.filterMap out = []) ∨
        ∃ e', Allowed e' ∧ step' (state s) e' = some (state t, os.filterMap out))
    {ms : List (Move S E O)} {s : S} (run : Run step start ms s) :
    ∃ ms', Run step' start' ms' (state s) ∧ outputs ms' = (outputs ms).filterMap out ∧
      ∀ m ∈ ms', Allowed m.event := by
  induction run with
  | nil => exact ⟨[], init ▸ .nil, rfl, by simp⟩
  | snoc _ h ih =>
    obtain ⟨ms', run', same, allowed⟩ := ih
    rcases simulates _ _ _ _ h with ⟨idle, quiet⟩ | ⟨e', fine, step⟩
    · exact ⟨ms', idle ▸ run', by simp [same, quiet], allowed⟩
    · exact ⟨_, run'.snoc step, by simp [same], forall_snoc.mpr ⟨allowed, fine⟩⟩

def Along (P : List (Move S E O) → Move S E O → Prop) (ms : List (Move S E O)) : Prop :=
  ∀ front m back, ms = front ++ m :: back → P front m

theorem along_snoc {P : List (Move S E O) → Move S E O → Prop} {ms : List (Move S E O)}
    {m : Move S E O} : Along P (ms ++ [m]) ↔ Along P ms ∧ P ms m := by
  constructor
  · intro all
    refine ⟨fun front x back eq => all front x (back ++ [m]) ?_, all ms m [] rfl⟩
    rw [eq, List.append_assoc, List.cons_append]
  · rintro ⟨earlier, last⟩ front x back eq
    rcases snoc_eq_split eq with ⟨rfl, rfl, rfl⟩ | ⟨init, rfl, cut⟩
    · exact last
    · exact earlier front x init cut

/-- A test of every move and its past. -/
theorem along_of_test {P : List (Move S E O) → Move S E O → Prop}
    {test : List (Move S E O) → Move S E O → Bool}
    (sound : ∀ front m, test front m = true → P front m) {ms : List (Move S E O)}
    (all : ((List.range ms.length).all fun k => ms[k]?.all (test (ms.take k))) = true) :
    Along P ms := by
  rintro front m back rfl
  have here := List.all_eq_true.mp all front.length (List.mem_range.mpr (by simp))
  apply sound front m
  simpa using here

/-- Two properties of moves and their past agree along a run as soon as they do so at every step
from a state that satisfies an invariant with that past. -/
theorem Run.along_iff (Inv : List (Move S E O) → S → Prop)
    (Good Meets : List (Move S E O) → Move S E O → Prop) (init : Inv [] start)
    (preserved : ∀ ms s e t os, Inv ms s → step s e = some (t, os) →
      Inv (ms ++ [⟨s, e, os, t⟩]) t)
    (agree : ∀ ms s e t os, Inv ms s → step s e = some (t, os) →
      (Good ms ⟨s, e, os, t⟩ ↔ Meets ms ⟨s, e, os, t⟩))
    {ms : List (Move S E O)} {s : S} (run : Run step start ms s) :
    Along Good ms ↔ Along Meets ms := by
  have both : (Along Good ms ↔ Along Meets ms) ∧ Inv ms s := by
    induction run with
    | nil => exact ⟨⟨fun _ => by rintro ⟨⟩ _ _ ⟨⟩, fun _ => by rintro ⟨⟩ _ _ ⟨⟩⟩, init⟩
    | snoc _ h ih =>
      rw [along_snoc, along_snoc, ih.1, agree _ _ _ _ _ ih.2 h]
      exact ⟨Iff.rfl, preserved _ _ _ _ _ ih.2 h⟩
  exact both.1

/-- A property of a state and its past holds all along a run exactly when every step of it meets a
condition, as soon as the two agree on every step that begins where the property holds. -/
theorem Run.along_states_iff (Inv Good : List (Move S E O) → S → Prop)
    (Meets : List (Move S E O) → Move S E O → Prop) (init : Inv [] start) (good : Good [] start)
    (preserved : ∀ ms s e t os, Inv ms s → step s e = some (t, os) →
      Inv (ms ++ [⟨s, e, os, t⟩]) t)
    (agree : ∀ ms s e t os, Inv ms s → Good ms s → step s e = some (t, os) →
      (Good (ms ++ [⟨s, e, os, t⟩]) t ↔ Meets ms ⟨s, e, os, t⟩))
    {ms : List (Move S E O)} {s : S} (run : Run step start ms s) :
    Along (fun front m => Good (front ++ [m]) m.after) ms ↔ Along Meets ms := by
  have both : (Along (fun front m => Good (front ++ [m]) m.after) ms ↔ Along Meets ms) ∧
      Inv ms s ∧ (Along Meets ms → Good ms s) := by
    induction run with
    | nil =>
      refine ⟨⟨fun _ => ?_, fun _ => ?_⟩, init, fun _ => good⟩
      · rintro ⟨⟩ _ _ ⟨⟩
      · rintro ⟨⟩ _ _ ⟨⟩
    | snoc _ h ih =>
      obtain ⟨same, inv, reached⟩ := ih
      rw [along_snoc, along_snoc, same]
      have last := fun met => agree _ _ _ _ _ inv (reached met) h
      refine ⟨and_congr_right last, preserved _ _ _ _ _ inv h, ?_⟩
      rintro ⟨met, meets⟩
      exact (last met).mpr meets
  exact both.1

def feed (step : S → E → Option (S × List O)) : S → List E → Option (S × List (Move S E O))
  | s, [] => some (s, [])
  | s, e :: es =>
    match step s e with
    | none => none
    | some (t, os) => (feed step t es).map fun r => (r.1, ⟨s, e, os, t⟩ :: r.2)

theorem feed_run {s t : S} {es : List E} {more : List (Move S E O)}
    (h : feed step s es = some (t, more)) {ms : List (Move S E O)} (run : Run step start ms s) :
    Run step start (ms ++ more) t ∧ more.map Move.event = es := by
  induction es generalizing s more ms with
  | nil =>
    obtain ⟨rfl, rfl⟩ := Prod.mk.inj (Option.some.inj h)
    exact ⟨by simpa using run, rfl⟩
  | cons e es ih =>
    simp only [feed] at h
    cases hs : step s e with
    | none => simp [hs] at h
    | some r =>
      obtain ⟨u, first⟩ := r
      simp only [hs, Option.map_eq_some_iff, Prod.mk.injEq] at h
      obtain ⟨⟨v, later⟩, hf, rfl, rfl⟩ := h
      obtain ⟨run', events⟩ := ih hf (run.snoc hs)
      exact ⟨by simpa using run', by simp [events]⟩

theorem feed_reaches {es : List E} {test : S × List (Move S E O) → Bool}
    (h : (feed step start es).any test = true) :
    ∃ ms s, Run step start ms s ∧ ms.map Move.event = es ∧ test (s, ms) = true := by
  cases hf : feed step start es with
  | none => simp [hf] at h
  | some r =>
    obtain ⟨s, ms⟩ := r
    obtain ⟨run, events⟩ := feed_run hf .nil
    exact ⟨ms, s, by simpa using run, events, by simpa [hf] using h⟩

theorem event_mem {es : List E} {ms : List (Move S E O)} (events : ms.map Move.event = es)
    {test : E → Bool} (all : es.all test = true) {m : Move S E O} (h : m ∈ ms) :
    test m.event = true :=
  List.all_eq_true.mp all _ (events ▸ List.mem_map_of_mem h)

/-- What a system puts out that is fed one input after the other, up to the first output that ends
it. -/
def outputsUntil (step : S → E → Option (S × O)) (ends : O → Bool) : S → List E → Option (List O)
  | _, [] => some []
  | s, e :: es =>
    match step s e with
    | none => none
    | some (t, o) => if ends o then some [o] else (outputsUntil step ends t es).map (o :: ·)

/-- Two systems that agree on one output as long as they are related, and stay related until the
output that ends them, agree on all of them. -/
theorem lockstep {S' : Type} {step : S → E → Option (S × O)} {step' : S' → E → Option (S' × O)}
    {ends : O → Bool} (Related : S → S' → Prop) (Allowed : E → Prop)
    (agree : ∀ s s' e, Related s s' → Allowed e → ∃ t t' o,
      step s e = some (t, o) ∧ step' s' e = some (t', o) ∧ (ends o = false → Related t t'))
    {s : S} {s' : S'} (related : Related s s') {es : List E} (allowed : ∀ e ∈ es, Allowed e) :
    ∃ os, outputsUntil step ends s es = some os ∧ outputsUntil step' ends s' es = some os := by
  induction es generalizing s s' with
  | nil => exact ⟨[], rfl, rfl⟩
  | cons e es ih =>
    obtain ⟨t, t', o, left, right, still⟩ := agree s s' e related (allowed e List.mem_cons_self)
    simp only [outputsUntil, left, right]
    cases ended : ends o with
    | true => exact ⟨[o], rfl, rfl⟩
    | false =>
      obtain ⟨os, first, second⟩ := ih (still ended) fun x later =>
        allowed x (List.mem_cons_of_mem e later)
      exact ⟨o :: os, by simp [first], by simp [second]⟩

/-- What gets on at every step but the idle ones is idle from some step on. -/
theorem eventually_idle {rank : Nat → Nat} {Idle : Nat → Prop}
    (still : ∀ n, Idle n → rank (n + 1) ≤ rank n)
    (falls : ∀ n, ¬ Idle n → rank (n + 1) < rank n) : ∃ n, ∀ m, n ≤ m → Idle m := by
  suffices later : ∀ k n, rank n = k → ∃ n', ∀ m, n' ≤ m → Idle m from later _ 0 rfl
  intro k
  induction k using Nat.strong_induction_on with
  | _ k ih =>
    intro n here
    by_cases idle : ∀ m, n ≤ m → Idle m
    · exact ⟨n, idle⟩
    · push Not at idle
      obtain ⟨m, after, busy⟩ := idle
      have settles : ∀ d, rank (n + d) ≤ rank n := by
        intro d
        induction d with
        | zero => exact le_rfl
        | succ d below =>
          by_cases idle : Idle (n + d)
          · exact (still _ idle).trans below
          · exact (falls _ idle).le.trans below
      obtain ⟨d, rfl⟩ := Nat.exists_eq_add_of_le after
      have less := (falls _ busy).trans_le (settles d)
      exact ih _ (here ▸ less) _ rfl

open StateTransition in
/-- A deterministic system that always gets on from one state with a property to another such
state never stops in between. -/
theorem diverges_of_progress {f : S → Option S} {I : S → Prop}
    (progress : ∀ a, I a → ∃ b, Reaches₁ f a b ∧ I b) {a : S} (start : I a) (final : S) :
    final ∉ eval f a := by
  intro stops
  have ahead : ∃ b, Reaches₁ f a b ∧ I b := progress a start
  clear start
  revert ahead
  refine evalInduction stops fun a stops ih ahead => ?_
  obtain ⟨b, path, inv⟩ := ahead
  obtain ⟨c, first, rest⟩ := Relation.TransGen.head'_iff.mp path
  apply ih c first
  rcases Relation.reflTransGen_iff_eq_or_transGen.mp rest with rfl | more
  · exact progress b inv
  · exact ⟨b, more, inv⟩

/-- Does a deterministic system pass a test in each of its states, and stop within so many steps? -/
def passes (f : S → Option S) (test : S → Bool) : Nat → S → Bool
  | 0, s => test s && (f s).isNone
  | n + 1, s => test s && (f s).all (passes f test n)

theorem passes_reaches {f : S → Option S} {test : S → Bool} {n : Nat} {a b : S}
    (all : passes f test n a = true) (path : StateTransition.Reaches f a b) : test b = true := by
  induction n generalizing a with
  | zero =>
    simp only [passes, Bool.and_eq_true, Option.isNone_iff_eq_none] at all
    rcases Relation.ReflTransGen.cases_head path with rfl | ⟨c, first, -⟩
    · exact all.1
    · cases all.2.symm.trans first
  | succ n ih =>
    simp only [passes, Bool.and_eq_true] at all
    rcases Relation.ReflTransGen.cases_head path with rfl | ⟨c, first, rest⟩
    · exact all.1
    · refine ih ?_ rest
      simpa [Option.mem_def.mp first] using all.2

end Runs
