import Mathlib.Data.List.Basic

/-! Actions that are asked for one after the other and performed any number of times each. Where
doing one again changes nothing, what is left is the effect of doing it once, in its turn. -/
namespace Retries

variable {M F : Type} (act : M → F → M)

def Idempotent (f : F) : Prop := ∀ m, act (act m f) f = act m f

def Silent (f : F) : Prop := ∀ m, act m f = m

/-- What has been performed, each action with the turn that it was for. -/
def perform (log : List (Nat × F)) (m : M) : M := log.foldl (fun m x => act m x.2) m

/-- The actions of a plan that were performed in their turn. -/
def done [DecidableEq F] : List F → Nat → List (Nat × F) → List F
  | [], _, _ => []
  | f :: plan, turn, log =>
    if (turn, f) ∈ log then f :: done plan (turn + 1) log else done plan (turn + 1) log

/-- A log keeps to a plan: turn after turn, and what is not the planned action changes nothing. -/
structure Follows (plan : List F) (turn : Nat) (log : List (Nat × F)) : Prop where
  order : log.Pairwise fun x y => x.1 ≤ y.1
  late : ∀ x ∈ log, turn ≤ x.1
  early : ∀ x ∈ log, x.1 < turn + plan.length
  planned : ∀ x ∈ log, plan[x.1 - turn]? = some x.2 ∨ Silent act x.2

variable {act} {m : M} {f : F} {plan : List F} {turn : Nat} {log : List (Nat × F)}

namespace Follows

theorem nil : Follows act plan turn [] := ⟨.nil, by simp, by simp, by simp⟩

theorem sublist {front : List (Nat × F)} (follows : Follows act plan turn log)
    (part : front.Sublist log) : Follows act plan turn front where
  order := follows.order.sublist part
  late := fun x member => follows.late x (part.subset member)
  early := fun x member => follows.early x (part.subset member)
  planned := fun x member => follows.planned x (part.subset member)

theorem extend (follows : Follows act plan turn log) (f : F) :
    Follows act (plan ++ [f]) turn log where
  order := follows.order
  late := follows.late
  early := fun x member => by
    have := follows.early x member
    rw [List.length_append]
    omega
  planned := fun x member => by
    have late := follows.late x member
    have early := follows.early x member
    have planned := follows.planned x member
    rwa [List.getElem?_append_left (by omega)]

/-- The last action of the plan, or one that changes nothing in its turn, is performed. -/
theorem snoc (follows : Follows act plan turn log) {g : F}
    (last : plan.getLast? = some f) (planned : g = f ∨ Silent act g) :
    Follows act plan turn (log ++ [(turn + plan.length - 1, g)]) := by
  have nonempty : 0 < plan.length := List.length_pos_of_ne_nil (by rintro rfl; cases last)
  refine ⟨?_, ?_, ?_, ?_⟩
  · refine List.pairwise_append.mpr ⟨follows.order, List.pairwise_singleton .., ?_⟩
    intro x member y new
    have early := follows.early x member
    rw [List.mem_singleton.mp new]
    exact Nat.le_sub_one_of_lt early
  · intro x member
    rcases List.mem_append.mp member with old | new
    · exact follows.late x old
    · rw [List.mem_singleton.mp new]
      exact Nat.le_sub_one_of_lt (by omega)
  · intro x member
    rcases List.mem_append.mp member with old | new
    · exact follows.early x old
    · rw [List.mem_singleton.mp new]
      exact Nat.sub_lt (by omega) Nat.one_pos
  · intro x member
    rcases List.mem_append.mp member with old | new
    · exact follows.planned x old
    · rw [List.mem_singleton.mp new]
      refine planned.imp_left fun same => ?_
      rw [List.getLast?_eq_getElem?] at last
      rw [same, ← last]
      congr 1
      omega

end Follows

theorem perform_append (front back : List (Nat × F)) (m : M) :
    perform act (front ++ back) m = perform act back (perform act front m) :=
  List.foldl_append

/-- A stretch of one action, among others that change nothing. -/
theorem perform_stretch [DecidableEq F] (again : Idempotent act f)
    (only : ∀ x ∈ log, x.2 = f ∨ Silent act x.2) :
    perform act log m = if f ∈ log.map Prod.snd then act m f else m := by
  induction log generalizing m with
  | nil => rfl
  | cons x log ih =>
    have rest := ih (m := act m x.2) fun y member => only y (List.mem_cons_of_mem _ member)
    rw [perform, List.foldl_cons, ← perform, rest]
    by_cases same : x.2 = f
    · subst same
      simp [again m]
    · have silent := (only x List.mem_cons_self).resolve_left same
      rw [silent m]
      simp only [List.map_cons, List.mem_cons, Ne.symm same, false_or]

/-- The first turn comes first. -/
theorem split_turn (order : log.Pairwise fun x y => x.1 ≤ y.1) (late : ∀ x ∈ log, turn ≤ x.1) :
    log = log.filter (·.1 == turn) ++ log.filter (·.1 != turn) := by
  induction log with
  | nil => rfl
  | cons x log ih =>
    obtain ⟨least, order⟩ := List.pairwise_cons.mp order
    by_cases same : x.1 = turn
    · have rest := ih order fun y member => late y (List.mem_cons_of_mem _ member)
      rw [List.filter_cons_of_pos (by simpa using same),
        List.filter_cons_of_neg (by simpa using same), List.cons_append, ← rest]
    · have above : ∀ y ∈ x :: log, y.1 ≠ turn := by
        intro y member
        have from_ := late x List.mem_cons_self
        rcases List.mem_cons.mp member with rfl | later
        · exact same
        · have := least y later
          omega
      have none_ : (x :: log).filter (·.1 == turn) = [] :=
        List.filter_eq_nil_iff.mpr fun y member => by simpa using above y member
      have all : (x :: log).filter (·.1 != turn) = x :: log :=
        List.filter_eq_self.mpr fun y member => by simpa using above y member
      rw [none_, all, List.nil_append]

/-- Only what is logged from a turn on counts from that turn on. -/
theorem done_congr [DecidableEq F] {log' : List (Nat × F)}
    (same : ∀ x, turn ≤ x.1 → (x ∈ log ↔ x ∈ log')) : done plan turn log = done plan turn log' := by
  induction plan generalizing turn with
  | nil => rfl
  | cons f plan ih =>
    rw [done, done, ih fun x later => same x (by omega)]
    simp only [same (turn, f) (Nat.le_refl turn)]

theorem perform_eq_done [DecidableEq F] (follows : Follows act plan turn log)
    (again : ∀ f ∈ plan, Idempotent act f) :
    perform act log m = (done plan turn log).foldl act m := by
  induction plan generalizing turn log m with
  | nil =>
    have empty : log = [] := List.eq_nil_iff_forall_not_mem.mpr fun x member => by
      have := follows.late x member
      have := follows.early x member
      simp only [List.length_nil] at this
      omega
    rw [empty]
    rfl
  | cons f plan ih =>
    have split_ := split_turn follows.order follows.late
    have here : ∀ x ∈ log.filter (·.1 == turn), x.2 = f ∨ Silent act x.2 := by
      intro x member
      obtain ⟨logged, now⟩ := List.mem_filter.mp member
      apply (follows.planned x logged).imp_left
      intro planned
      simpa [beq_iff_eq.mp now, eq_comm] using planned
    have later : Follows act plan (turn + 1) (log.filter (·.1 != turn)) := by
      have after : ∀ x ∈ log.filter (·.1 != turn), x ∈ log ∧ turn + 1 ≤ x.1 := by
        intro x member
        obtain ⟨logged, other⟩ := List.mem_filter.mp member
        have := follows.late x logged
        have : x.1 ≠ turn := by simpa using other
        exact ⟨logged, by omega⟩
      refine ⟨follows.order.filter _, fun x member => (after x member).2, fun x member => ?_,
        fun x member => ?_⟩
      · have := follows.early x (after x member).1
        simp only [List.length_cons] at this
        omega
      · obtain ⟨logged, next⟩ := after x member
        have planned := follows.planned x logged
        rwa [show x.1 - turn = x.1 - (turn + 1) + 1 by omega, List.getElem?_cons_succ] at planned
    have rest : done plan (turn + 1) log = done plan (turn + 1) (log.filter (·.1 != turn)) := by
      apply done_congr
      intro x next
      have other : x.1 ≠ turn := by omega
      simp [List.mem_filter, other]
    have stretch := perform_stretch (m := m) (again f List.mem_cons_self) here
    have mem : f ∈ (log.filter (·.1 == turn)).map Prod.snd ↔ (turn, f) ∈ log := by
      simp [List.mem_map, List.mem_filter]
    have goesOn := ih (m := perform act (log.filter (·.1 == turn)) m) later fun g member =>
      again g (List.mem_cons_of_mem _ member)
    calc perform act log m
        = perform act (log.filter (·.1 != turn)) (perform act (log.filter (·.1 == turn)) m) := by
          rw [← perform_append, ← split_]
      _ = (done plan (turn + 1) log).foldl act (perform act (log.filter (·.1 == turn)) m) := by
          rw [goesOn, rest]
      _ = (done (f :: plan) turn log).foldl act m := by
          rw [stretch, done]
          simp only [mem]
          split
          · rfl
          · rfl

end Retries
