import R60V.Lib.Overlay
import Mathlib.Data.List.Basic

/-! Writes of blocks of values to a list, one after the other, and a view of a list
through an overlay: what the view shows while the list itself is written to, by the owner
of the overlay and by others. -/
namespace Overlay

variable {α : Type}

/-- Write a block of values at consecutive positions, as far as the list has them. -/
def blit (a : Int) (ds xs : List α) : List α := xs.mapIdx fun k x => (cover a ds k).getD x

@[simp] theorem length_blit (a : Int) (ds xs : List α) : (blit a ds xs).length = xs.length :=
  List.length_mapIdx

theorem getElem?_blit (a : Int) (ds xs : List α) (k : Nat) :
    (blit a ds xs)[k]? = xs[k]?.map fun x => (cover a ds k).getD x :=
  List.getElem?_mapIdx

theorem blit_hit {a : Nat} {ds xs : List α} (fits : a + ds.length ≤ xs.length) {k : Nat}
    (here : k < ds.length) : (blit a ds xs)[a + k]? = ds[k]? := by
  rw [getElem?_blit, cover_add, List.getElem?_eq_getElem here,
    List.getElem?_eq_getElem (show a + k < xs.length by omega)]
  rfl

theorem blit_miss {a : Nat} {ds xs : List α} {i : Nat} (apart : ∀ k < ds.length, i ≠ a + k) :
    (blit a ds xs)[i]? = xs[i]? := by
  have beyond : cover (a : Int) ds i = none := by
    cases written : cover (a : Int) ds i with
    | none => rfl
    | some d =>
      have bounds := cover_eq_some written
      exact absurd (show i = a + (i - a) by omega) (apart (i - a) (by omega))
  rw [getElem?_blit, beyond]
  simp

/-- The value that the last of some writes to cover a position has there. -/
def newest : List (Int × List α) → Nat → Option α
  | [], _ => none
  | w :: ws, x => (newest ws x).or (cover w.1 w.2 x)

theorem newest_ne_none {ws : List (Int × List α)} {w : Int × List α} {x : Nat}
    (member : w ∈ ws) (hit : cover w.1 w.2 x ≠ none) : newest ws x ≠ none := by
  induction ws with
  | nil => cases member
  | cons first ws ih =>
    intro miss
    obtain ⟨later, here⟩ := Option.or_eq_none_iff.mp miss
    rcases List.mem_cons.mp member with rfl | member
    · exact hit here
    · exact ih member later

def replay (ws : List (Int × List α)) (xs : List α) : List α :=
  ws.foldl (fun ys w => blit w.1 w.2 ys) xs

@[simp] theorem replay_nil (xs : List α) : replay [] xs = xs := rfl

theorem replay_cons (w : Int × List α) (ws : List (Int × List α)) (xs : List α) :
    replay (w :: ws) xs = replay ws (blit w.1 w.2 xs) := rfl

theorem replay_append (ws more : List (Int × List α)) (xs : List α) :
    replay (ws ++ more) xs = replay more (replay ws xs) :=
  List.foldl_append

theorem replay_snoc (ws : List (Int × List α)) (w : Int × List α) (xs : List α) :
    replay (ws ++ [w]) xs = blit w.1 w.2 (replay ws xs) :=
  replay_append ws [w] xs

theorem getElem?_replay (ws : List (Int × List α)) (xs : List α) (x : Nat) :
    (replay ws xs)[x]? = xs[x]?.map fun v => (newest ws x).getD v := by
  induction ws generalizing xs with
  | nil => simp [newest]
  | cons w ws ih =>
    rw [replay_cons, ih, getElem?_blit, Option.map_map]
    congr 1
    funext v
    cases hit : newest ws x <;> simp [newest, hit]

@[simp] theorem length_replay (ws : List (Int × List α)) (xs : List α) :
    (replay ws xs).length = xs.length := by
  induction ws generalizing xs with
  | nil => rfl
  | cons w ws ih => rw [replay_cons, ih, length_blit]

/-- An overlay that has exactly the newest values shows the writes as done. -/
theorem patch_eq_replay {m : Dict α} {ws : List (Int × List α)}
    (same : ∀ x, m.lookup x = newest ws x) (xs : List α) : patch m xs = replay ws xs := by
  apply List.ext_getElem?
  intro x
  rw [getElem?_patch, getElem?_replay, same]

/-- A write that went only in part: each position it covers has the old value or the new one. -/
def Torn (a : Int) (ds xs ys : List α) : Prop :=
  ys.length = xs.length ∧ ∀ k < xs.length, ys[k]? = xs[k]? ∨ ys[k]? = cover a ds k

instance [DecidableEq α] (a : Int) (ds xs ys : List α) : Decidable (Torn a ds xs ys) :=
  inferInstanceAs (Decidable (_ ∧ _))

theorem torn_blit (a : Int) (ds xs : List α) : Torn a ds xs (blit a ds xs) := by
  refine ⟨length_blit a ds xs, fun k inside => ?_⟩
  rw [getElem?_blit, List.getElem?_eq_getElem inside]
  cases cover a ds k with
  | none => exact Or.inl rfl
  | some d => exact Or.inr rfl

theorem Torn.away {a : Int} {ds xs ys : List α} (torn : Torn a ds xs ys) {x : Nat}
    (other : cover a ds x = none) : ys[x]? = xs[x]? := by
  by_cases inside : x < xs.length
  · rcases torn.2 x inside with old | new
    · exact old
    · rw [other, List.getElem?_eq_none_iff, torn.1] at new
      omega
  · have beyond := not_lt.mp inside
    rw [List.getElem?_eq_none (torn.1 ▸ beyond), List.getElem?_eq_none beyond]

/-- What a torn write has left behind is gone once it is done again. -/
theorem replay_torn {w : Int × List α} {ws : List (Int × List α)} {xs ys : List α}
    (torn : Torn w.1 w.2 xs ys) : replay (w :: ws) ys = replay (w :: ws) xs := by
  apply List.ext_getElem?
  intro x
  rw [getElem?_replay, getElem?_replay]
  cases hit : newest (w :: ws) x with
  | none =>
    have both := Option.or_eq_none_iff.mp hit
    rw [torn.away both.2]
  | some v =>
    by_cases inside : x < xs.length
    · rw [List.getElem?_eq_getElem inside, List.getElem?_eq_getElem (torn.1 ▸ inside)]
      rfl
    · have beyond := not_lt.mp inside
      rw [List.getElem?_eq_none (torn.1 ▸ beyond), List.getElem?_eq_none beyond]

/- A view of a list through an overlay. -/

/-- The positions at which a list has gone away from what a view of it has last seen, after a step
that leaves one overlay for another and one list for another. Under the overlay the view shows
the overlay; where it is lifted the view goes on showing that, so the list has to have it too. -/
def drifted [DecidableEq α] (pending pending' : Dict α) (list list' : List α)
    (drift : Nat → Bool) (x : Nat) : Bool :=
  match pending'.lookup x, pending.lookup x with
  | some _, _ => false
  | none, some v => list'[x]? != some v
  | none, none => drift x || list'[x]? != list[x]?

/-- A view shows the overlay, and the list where it is not masked and has not drifted. -/
structure Tracks (shown list : List α) (pending : Dict α) (drift : Nat → Bool) : Prop where
  length : shown.length = list.length
  masked : ∀ x v, x < list.length → pending.lookup x = some v → shown[x]? = some v
  seen : ∀ x, pending.lookup x = none → drift x = false → shown[x]? = list[x]?

theorem Tracks.read (list : List α) (pending : Dict α) :
    Tracks (patch pending list) list pending fun _ => false where
  length := length_patch pending list
  masked _ _ inside hit := patch_hit inside hit
  seen _ miss _ := patch_miss miss

theorem Tracks.step [DecidableEq α] {shown shown' list list' : List α} {pending pending' : Dict α}
    {drift : Nat → Bool} (tracks : Tracks shown list pending drift)
    (length : list'.length = list.length) (length' : shown'.length = shown.length)
    (masked : ∀ x v, x < list.length → pending'.lookup x = some v → shown'[x]? = some v)
    (same : ∀ x, pending'.lookup x = none → shown'[x]? = shown[x]?) :
    Tracks shown' list' pending' (drifted pending pending' list list' drift) where
  length := by rw [length', tracks.length, length]
  masked x v inside := masked x v (length ▸ inside)
  seen x miss still := by
    rw [same x miss]
    cases before : pending.lookup x with
    | none =>
      simp only [drifted, miss, before, Bool.or_eq_false_iff, bne_eq_false_iff_eq] at still
      rw [tracks.seen x before still.1, still.2]
    | some v =>
      simp only [drifted, miss, before, bne_eq_false_iff_eq] at still
      by_cases inside : x < list.length
      · rw [tracks.masked x v inside before, still]
      · have beyond := not_lt.mp inside
        rw [List.getElem?_eq_none (tracks.length ▸ beyond),
          List.getElem?_eq_none (length ▸ beyond)]

/-- Without drift the view is the list under the overlay. -/
theorem Tracks.eq_patch {shown list : List α} {pending : Dict α}
    (tracks : Tracks shown list pending fun _ => false) : shown = patch pending list := by
  apply List.ext_getElem?
  intro x
  cases hit : pending.lookup x with
  | none => rw [patch_miss hit, tracks.seen x hit rfl]
  | some v =>
    by_cases inside : x < list.length
    · rw [patch_hit inside hit, tracks.masked x v inside hit]
    · have beyond := not_lt.mp inside
      rw [List.getElem?_eq_none (tracks.length ▸ beyond),
        List.getElem?_eq_none ((length_patch pending list).symm ▸ beyond)]

end Overlay
