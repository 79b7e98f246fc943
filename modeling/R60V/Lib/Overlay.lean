import Mathlib.Data.List.AList

/-! Finite maps from positions to values, laid over a list. Blocks of values are
added at consecutive positions and taken away again by value. -/
namespace Overlay

variable {α : Type}

abbrev Dict (α : Type) := AList (fun _ : Nat => α)

def cover (a : Int) (ds : List α) (x : Nat) : Option α :=
  if a ≤ x then ds[((x : Int) - a).toNat]? else none

theorem cover_cons (a : Int) (d : α) (ds : List α) (x : Nat) :
    cover a (d :: ds) x = if (x : Int) = a then some d else cover (a + 1) ds x := by
  unfold cover
  by_cases first : (x : Int) = a
  · simp [first]
  · rw [if_neg first]
    by_cases above : a ≤ x
    · have step : ((x : Int) - a).toNat = ((x : Int) - (a + 1)).toNat + 1 := by omega
      rw [if_pos above, if_pos (by omega), step, List.getElem?_cons_succ]
    · rw [if_neg above, if_neg (by omega)]

theorem cover_eq_some {a : Int} {ds : List α} {x : Nat} {d : α} (h : cover a ds x = some d) :
    a ≤ x ∧ (x : Int) < a + ds.length ∧ d ∈ ds := by
  unfold cover at h
  split at h
  · rename_i above
    have bound := (List.getElem?_eq_some_iff.mp h).1
    exact ⟨above, by omega, List.mem_of_getElem? h⟩
  · cases h

theorem cover_add (a : Nat) (ds : List α) (k : Nat) : cover (a : Int) ds (a + k) = ds[k]? := by
  unfold cover
  rw [if_pos (by omega), show (((a + k : Nat) : Int) - a).toNat = k by omega]

/-- Write the entries of a map over a list, at the positions the list has. -/
def patch (m : Dict α) (xs : List α) : List α :=
  m.entries.foldl (fun ys e => if e.1 < ys.length then ys.set e.1 e.2 else ys) xs

theorem patch_entries (es : List (Sigma fun _ : Nat => α)) (nodup : es.NodupKeys) (xs : List α) :
    let ys := es.foldl (fun ys e => if e.1 < ys.length then ys.set e.1 e.2 else ys) xs
    ys.length = xs.length ∧ ∀ i, ys[i]? = xs[i]?.map (fun x => (es.dlookup i).getD x) := by
  induction es generalizing xs with
  | nil => simp
  | cons e es ih =>
    obtain ⟨k, v⟩ := e
    have fresh := List.nodupKeys_cons.mp nodup
    have absent : es.dlookup k = none := List.dlookup_eq_none.mpr fresh.1
    by_cases inside : k < xs.length
    · obtain ⟨len, get⟩ := ih fresh.2 (xs.set k v)
      simp only [List.foldl_cons, if_pos inside]
      refine ⟨by simpa using len, fun i => ?_⟩
      rw [get i]
      by_cases hit : i = k
      · subst hit
        simp [absent, inside]
      · rw [List.getElem?_set_ne (Ne.symm hit), List.dlookup_cons_ne _ _ hit]
    · obtain ⟨len, get⟩ := ih fresh.2 xs
      simp only [List.foldl_cons, if_neg inside]
      refine ⟨len, fun i => ?_⟩
      rw [get i]
      by_cases hit : i = k
      · subst hit
        rw [List.getElem?_eq_none (by omega)]
        rfl
      · rw [List.dlookup_cons_ne _ _ hit]

@[simp] theorem length_patch (m : Dict α) (xs : List α) : (patch m xs).length = xs.length :=
  (patch_entries m.entries m.nodupKeys xs).1

theorem getElem?_patch (m : Dict α) (xs : List α) (i : Nat) :
    (patch m xs)[i]? = xs[i]?.map (fun x => (m.lookup i).getD x) :=
  (patch_entries m.entries m.nodupKeys xs).2 i

@[simp] theorem patch_empty (xs : List α) : patch (∅ : Dict α) xs = xs := rfl

theorem patch_hit {m : Dict α} {xs : List α} {i : Nat} {v : α} (inside : i < xs.length)
    (h : m.lookup i = some v) : (patch m xs)[i]? = some v := by
  rw [getElem?_patch, List.getElem?_eq_getElem inside, h]
  rfl

theorem patch_miss {m : Dict α} {xs : List α} {i : Nat} (h : m.lookup i = none) :
    (patch m xs)[i]? = xs[i]? := by
  rw [getElem?_patch, h]
  simp

def putAll : Nat → List α → Dict α → Dict α
  | _, [], m => m
  | a, d :: ds, m => putAll (a + 1) ds (m.insert a d)

theorem lookup_putAll (a : Nat) (ds : List α) (m : Dict α) (x : Nat) :
    (putAll a ds m).lookup x = (cover a ds x).or (m.lookup x) := by
  induction ds generalizing a m with
  | nil => simp [putAll, cover]
  | cons d ds ih =>
    rw [putAll, ih, cover_cons]
    by_cases hit : x = a
    · subst hit
      have beyond : cover ((x : Int) + 1) ds x = none := by
        unfold cover
        rw [if_neg (by omega)]
      simp [beyond]
    · have other : (x : Int) ≠ a := by omega
      rw [if_neg other, AList.lookup_insert_ne hit]
      rfl

/-- Take one position away, only while it still has the given value. -/
def clearOne [DecidableEq α] (a : Int) (d : α) (m : Dict α) : Dict α :=
  match a with
  | .ofNat k => if m.lookup k = some d then m.erase k else m
  | .negSucc _ => m

theorem lookup_clearOne [DecidableEq α] (a : Int) (d : α) (m : Dict α) (x : Nat) :
    (clearOne a d m).lookup x =
      if (x : Int) = a ∧ m.lookup x = some d then none else m.lookup x := by
  cases a with
  | negSucc k =>
    have apart : (x : Int) ≠ Int.negSucc k := by omega
    simp [clearOne, apart]
  | ofNat k =>
    by_cases hit : x = k
    · subst hit
      by_cases same : m.lookup x = some d
      · simp [clearOne, same]
      · simp [clearOne, same]
    · have apart : (x : Int) ≠ Int.ofNat k := fun h => hit (Int.ofNat.inj h)
      simp only [clearOne, apart, false_and, if_false]
      split
      · exact AList.lookup_erase_ne hit
      · rfl

theorem lookup_of_clearEach [DecidableEq α] (es : List (Int × α)) (m : Dict α) {x : Nat} {d : α}
    (h : (es.foldl (fun m e => clearOne e.1 e.2 m) m).lookup x = some d) :
    m.lookup x = some d := by
  induction es generalizing m with
  | nil => exact h
  | cons e es ih =>
    have kept := ih _ h
    rw [lookup_clearOne] at kept
    split at kept
    · cases kept
    · exact kept

def clearAll [DecidableEq α] : Int → List α → Dict α → Dict α
  | _, [], m => m
  | a, d :: ds, m => clearAll (a + 1) ds (clearOne a d m)

theorem lookup_clearAll [DecidableEq α] (a : Int) (ds : List α) (m : Dict α) (x : Nat) :
    (clearAll a ds m).lookup x = if cover a ds x = m.lookup x then none else m.lookup x := by
  induction ds generalizing a m with
  | nil =>
    by_cases absent : m.lookup x = none
    · simp [clearAll, absent]
    · rw [clearAll, if_neg (by simpa [cover] using Ne.symm absent)]
  | cons d ds ih =>
    rw [clearAll, ih, lookup_clearOne, cover_cons]
    by_cases first : (x : Int) = a
    · have beyond : cover (a + 1) ds x = none := by
        unfold cover
        rw [if_neg (by omega)]
      rw [if_pos first, beyond]
      by_cases same : m.lookup x = some d
      · simp [first, same]
      · have kept : ¬ ((x : Int) = a ∧ m.lookup x = some d) := fun h => same h.2
        have differs : ¬ some d = m.lookup x := fun h => same h.symm
        simp only [if_neg kept, if_neg differs, ite_eq_right_iff]
        exact fun h => h
    · have kept : ¬ ((x : Int) = a ∧ m.lookup x = some d) := fun h => first h.1
      simp only [if_neg kept, if_neg first]

end Overlay
