import Mathlib.Data.List.Infix

/-! Regular expressions as a backtracking matcher reads them: the ways in which a pattern matches at
the beginning of a list, in the order in which they are tried, against the language of the
pattern. Repetition is greedy and of one class. -/
namespace Patterns

variable {α : Type}

inductive Pattern (α : Type) where
  | empty
  | one (p : α → Bool)
  | seq (r s : Pattern α)
  -- The first is preferred.
  | alt (r s : Pattern α)
  | many (p : α → Bool)
  | group (n : Nat) (r : Pattern α)

/-- What the groups have captured, in the order in which they were closed. -/
abbrev Captures (α : Type) := List (Nat × List α)

namespace Pattern

/-- The suffixes that are left after a run of a class, the longest run first. -/
def runs (p : α → Bool) : List α → List (List α)
  | [] => [[]]
  | x :: xs => if p x then runs p xs ++ [x :: xs] else [x :: xs]

/-- The ways to match at the beginning of a list: the captures, and what is left. -/
def ways : Pattern α → List α → List (Captures α × List α)
  | empty, xs => [([], xs)]
  | one p, xs =>
    match xs with
    | [] => []
    | x :: xs => if p x then [([], xs)] else []
  | seq r s, xs =>
    (r.ways xs).flatMap fun w => (s.ways w.2).map fun v => (w.1 ++ v.1, v.2)
  | alt r s, xs => r.ways xs ++ s.ways xs
  | many p, xs => (runs p xs).map fun rest => ([], rest)
  | group n r, xs => (r.ways xs).map fun w => (w.1 ++ [(n, xs.take (xs.length - w.2.length))], w.2)

/-- The match at the beginning. -/
def first (r : Pattern α) (xs : List α) : Option (Captures α × List α) := (r.ways xs).head?

/-- The match at the first place where there is one. -/
def search (r : Pattern α) (xs : List α) : Option (Captures α × List α) :=
  xs.tails.findSome? r.first

/-- The language of a pattern, with what its groups capture. -/
inductive Matches : Pattern α → List α → Captures α → Prop where
  | empty : Matches empty [] []
  | one {p : α → Bool} {x : α} (hit : p x = true) : Matches (one p) [x] []
  | seq {r s : Pattern α} {xs ys : List α} {c d : Captures α} (left : Matches r xs c)
      (right : Matches s ys d) : Matches (seq r s) (xs ++ ys) (c ++ d)
  | left {r s : Pattern α} {xs : List α} {c : Captures α} (h : Matches r xs c) :
      Matches (alt r s) xs c
  | right {r s : Pattern α} {xs : List α} {c : Captures α} (h : Matches s xs c) :
      Matches (alt r s) xs c
  | many {p : α → Bool} {xs : List α} (all : ∀ x ∈ xs, p x = true) : Matches (many p) xs []
  | group {n : Nat} {r : Pattern α} {xs : List α} {c : Captures α} (h : Matches r xs c) :
      Matches (group n r) xs (c ++ [(n, xs)])

theorem mem_runs {p : α → Bool} {xs rest : List α} :
    rest ∈ runs p xs ↔ ∃ front, xs = front ++ rest ∧ ∀ x ∈ front, p x = true := by
  induction xs generalizing rest with
  | nil =>
    constructor
    · intro member
      rw [runs, List.mem_singleton] at member
      exact ⟨[], by rw [member]; rfl, by simp⟩
    · rintro ⟨front, same, -⟩
      simp [runs, (List.append_eq_nil_iff.mp same.symm).2]
  | cons x xs ih =>
    have whole : ∀ front, x :: xs = front ++ rest → front = [] ∨
        ∃ more, front = x :: more ∧ xs = more ++ rest := by
      intro front same
      cases front with
      | nil => exact Or.inl rfl
      | cons y more =>
        obtain ⟨rfl, later⟩ := List.cons.inj same
        exact Or.inr ⟨more, rfl, later⟩
    rw [runs]
    split
    · rename_i hit
      rw [List.mem_append, ih, List.mem_singleton]
      constructor
      · rintro (⟨front, rfl, all⟩ | rfl)
        · exact ⟨x :: front, rfl, List.forall_mem_cons.mpr ⟨hit, all⟩⟩
        · exact ⟨[], rfl, by simp⟩
      · rintro ⟨front, same, all⟩
        rcases whole front same with rfl | ⟨more, rfl, rfl⟩
        · exact Or.inr same.symm
        · exact Or.inl ⟨more, rfl, (List.forall_mem_cons.mp all).2⟩
    · rename_i miss
      rw [List.mem_singleton]
      constructor
      · rintro rfl
        exact ⟨[], rfl, by simp⟩
      · rintro ⟨front, same, all⟩
        rcases whole front same with rfl | ⟨more, rfl, -⟩
        · exact same.symm
        · exact absurd (all x List.mem_cons_self) miss

/-- A backtracking matcher finds exactly the language. -/
theorem mem_ways {r : Pattern α} {xs rest : List α} {c : Captures α} :
    (c, rest) ∈ r.ways xs ↔ ∃ front, xs = front ++ rest ∧ Matches r front c := by
  induction r generalizing xs rest c with
  | empty =>
    constructor
    · intro member
      cases List.mem_singleton.mp member
      exact ⟨[], rfl, .empty⟩
    · rintro ⟨front, rfl, h⟩
      cases h
      exact List.mem_singleton_self _
  | one p =>
    constructor
    · intro member
      cases xs with
      | nil => cases member
      | cons x xs =>
        simp only [ways] at member
        split at member
        · rename_i hit
          cases List.mem_singleton.mp member
          exact ⟨[x], rfl, .one hit⟩
        · cases member
    · rintro ⟨front, rfl, h⟩
      cases h with
      | one hit => simp [ways, hit]
  | seq r s ihr ihs =>
    simp only [ways, List.mem_flatMap, List.mem_map]
    constructor
    · rintro ⟨⟨c, mid⟩, left, ⟨d, rest⟩, right, same⟩
      cases same
      obtain ⟨front, rfl, hr⟩ := ihr.mp left
      obtain ⟨more, rfl, hs⟩ := ihs.mp right
      exact ⟨front ++ more, (List.append_assoc _ _ _).symm, .seq hr hs⟩
    · rintro ⟨_, rfl, h⟩
      cases h with
      | @seq _ _ front more c d hr hs =>
        exact ⟨(c, more ++ rest), ihr.mpr ⟨front, List.append_assoc _ _ _, hr⟩, (d, rest),
          ihs.mpr ⟨more, rfl, hs⟩, rfl⟩
  | alt r s ihr ihs =>
    rw [ways, List.mem_append, ihr, ihs]
    constructor
    · rintro (⟨front, same, h⟩ | ⟨front, same, h⟩)
      · exact ⟨front, same, .left h⟩
      · exact ⟨front, same, .right h⟩
    · rintro ⟨front, same, h⟩
      cases h with
      | left h => exact Or.inl ⟨front, same, h⟩
      | right h => exact Or.inr ⟨front, same, h⟩
  | many p =>
    simp only [ways, List.mem_map]
    constructor
    · rintro ⟨rest, member, same⟩
      cases same
      obtain ⟨front, rfl, all⟩ := mem_runs.mp member
      exact ⟨front, rfl, .many all⟩
    · rintro ⟨front, rfl, h⟩
      cases h with
      | many all => exact ⟨rest, mem_runs.mpr ⟨front, rfl, all⟩, rfl⟩
  | group n r ih =>
    simp only [ways, List.mem_map]
    have taken : ∀ front rest : List α,
        (front ++ rest).take ((front ++ rest).length - rest.length) = front := by
      intro front rest
      rw [List.length_append, Nat.add_sub_cancel, List.take_left' rfl]
    constructor
    · rintro ⟨⟨c, rest⟩, member, same⟩
      cases same
      obtain ⟨front, rfl, h⟩ := ih.mp member
      refine ⟨front, rfl, ?_⟩
      rw [taken front]
      exact .group h
    · rintro ⟨front, rfl, h⟩
      cases h with
      | @group _ _ _ c h =>
        refine ⟨(c, rest), ih.mpr ⟨front, rfl, h⟩, ?_⟩
        rw [taken front]

theorem first_eq_none {r : Pattern α} {xs : List α} :
    r.first xs = none ↔ ∀ front rest c, xs = front ++ rest → ¬ Matches r front c := by
  rw [first, List.head?_eq_none_iff, List.eq_nil_iff_forall_not_mem]
  constructor
  · intro nothing front rest c same h
    exact nothing (c, rest) (mem_ways.mpr ⟨front, same, h⟩)
  · rintro nothing ⟨c, rest⟩ member
    obtain ⟨front, same, h⟩ := mem_ways.mp member
    exact nothing front rest c same h

/-- A search fails where no part of the list is in the language. -/
theorem search_eq_none {r : Pattern α} {xs : List α} :
    r.search xs = none ↔ ∀ before front rest c, xs = before ++ (front ++ rest) →
      ¬ Matches r front c := by
  rw [search, List.findSome?_eq_none_iff]
  constructor
  · rintro nothing before front rest c rfl
    have tail := nothing _ ((List.mem_tails _ _).mpr (List.suffix_append _ _))
    exact first_eq_none.mp tail front rest c rfl
  · intro nothing tail member
    obtain ⟨before, rfl⟩ := (List.mem_tails _ _).mp member
    refine first_eq_none.mpr fun front rest c same => ?_
    exact nothing before front rest c (by rw [same])

/- What a matcher tries first is all that counts if it cannot go on from the rest. -/

theorem first_seq {r s : Pattern α} {xs rest : List α} {c : Captures α}
    {others : List (Captures α × List α)} (tried : r.ways xs = (c, rest) :: others)
    (dead : s.first rest = none → ∀ w ∈ others, s.first w.2 = none) :
    (seq r s).first xs = (s.first rest).map fun v => (c ++ v.1, v.2) := by
  have split_ : (seq r s).ways xs = (s.ways rest).map (fun v => (c ++ v.1, v.2)) ++
      others.flatMap fun w => (s.ways w.2).map fun v => (w.1 ++ v.1, v.2) := by
    rw [ways, tried, List.flatMap_cons]
  rw [first, split_, List.head?_append, List.head?_map, first]
  cases head : (s.ways rest).head? with
  | some v => rfl
  | none =>
    have nothing : (others.flatMap fun w => (s.ways w.2).map fun v => (w.1 ++ v.1, v.2)) = [] := by
      rw [List.flatMap_eq_nil_iff]
      intro w member
      have last := List.head?_eq_none_iff.mp (dead head w member)
      rw [last, List.map_nil]
    rw [nothing]
    rfl

/-- A pattern that cannot begin with what is in a class. -/
def Avoids (s : Pattern α) (p : α → Bool) : Prop := ∀ y ys, p y = true → s.first (y :: ys) = none

theorem first_dead {r s : Pattern α} {xs : List α} (dead : r.first xs = none) :
    (seq r s).first xs = none := by
  rw [first, ways, List.head?_eq_none_iff.mp dead]
  rfl

/-- Nothing is captured by what has no groups. -/
theorem map_nil_append (w : Option (Captures α × List α)) :
    (w.map fun v => (([] : Captures α) ++ v.1, v.2)) = w := by
  cases w <;> rfl

theorem first_alone {r s : Pattern α} {xs rest : List α} (only : r.ways xs = [([], rest)]) :
    (seq r s).first xs = s.first rest := by
  rw [first_seq only (by simp), map_nil_append]

theorem Avoids.seq {r s : Pattern α} {p : α → Bool} (avoids : r.Avoids p) : (seq r s).Avoids p :=
  fun y ys hit => first_dead (avoids y ys hit)

theorem avoids_one {p q : α → Bool} (apart : ∀ y, p y = true → q y = false) :
    (one q).Avoids p := by
  intro y ys hit
  simp [first, ways, apart y hit]

theorem Avoids.group {k : Nat} {r : Pattern α} {p : α → Bool} (avoids : r.Avoids p) :
    (group k r).Avoids p := by
  intro y ys hit
  rw [first, ways, List.head?_eq_none_iff.mp (avoids y ys hit)]
  rfl

theorem runs_eq (p : α → Bool) (xs : List α) : ∃ others, runs p xs = xs.dropWhile p :: others ∧
    ∀ rest ∈ others, rest.dropWhile p = xs.dropWhile p ∧ ∃ y ys, rest = y :: ys ∧ p y = true := by
  induction xs with
  | nil => exact ⟨[], rfl, by simp⟩
  | cons x xs ih =>
    cases hit : p x with
    | true =>
      obtain ⟨others, same, begin_⟩ := ih
      refine ⟨others ++ [x :: xs], ?_, ?_⟩
      · simp [runs, hit, same]
      · intro rest member
        rcases List.mem_append.mp member with earlier | last
        · simpa [List.dropWhile_cons, hit] using begin_ rest earlier
        · rw [List.mem_singleton.mp last]
          exact ⟨rfl, x, xs, rfl, hit⟩
    | false => exact ⟨[], by simp [runs, hit], by simp⟩

/-- A run is taken whole, if what follows does not match after part of it only. -/
theorem first_many {p : α → Bool} {s : Pattern α} {xs : List α}
    (dead : s.first (xs.dropWhile p) = none → ∀ y ys, p y = true →
      (y :: ys).dropWhile p = xs.dropWhile p → s.first (y :: ys) = none) :
    (seq (many p) s).first xs = s.first (xs.dropWhile p) := by
  obtain ⟨others, same, begin_⟩ := runs_eq p xs
  have tried : (many p).ways xs = ([], xs.dropWhile p) :: others.map fun rest => ([], rest) := by
    rw [ways, same, List.map_cons]
  rw [first_seq tried, map_nil_append]
  intro last w member
  obtain ⟨rest, listed, rfl⟩ := List.mem_map.mp member
  obtain ⟨left, y, ys, rfl, hit⟩ := begin_ rest listed
  exact dead last y ys hit left

theorem Avoids.many {p q : α → Bool} {s : Pattern α} (apart : ∀ y, p y = true → q y = false)
    (avoids : s.Avoids p) : (Pattern.seq (many q) s).Avoids p := by
  intro y ys hit
  have only : (Pattern.many q).ways (y :: ys) = [([], y :: ys)] := by
    simp [ways, runs, apart y hit]
  rw [first_alone only, avoids y ys hit]

/-- `p?`. -/
def opt (p : α → Bool) : Pattern α := alt (one p) empty

def skip (p : α → Bool) : List α → List α
  | [] => []
  | x :: xs => if p x then xs else x :: xs

theorem first_opt {p : α → Bool} {s : Pattern α} {xs : List α} (avoids : s.Avoids p) :
    (seq (opt p) s).first xs = s.first (skip p xs) := by
  cases xs with
  | nil => exact first_alone rfl
  | cons x xs =>
    cases hit : p x with
    | true =>
      have tried : (opt p).ways (x :: xs) = ([], xs) :: [([], x :: xs)] := by
        simp [opt, ways, hit]
      rw [first_seq tried, map_nil_append]
      · simp [skip, hit]
      · intro _ w member
        rw [List.mem_singleton.mp member]
        exact avoids x xs hit
    | false =>
      have only : (opt p).ways (x :: xs) = [([], x :: xs)] := by simp [opt, ways, hit]
      rw [first_alone only]
      simp [skip, hit]

theorem Avoids.opt {p q : α → Bool} {s : Pattern α} (apart : ∀ y, p y = true → q y = false)
    (avoids : s.Avoids p) : (Pattern.seq (opt q) s).Avoids p := by
  intro y ys hit
  have only : (Pattern.opt q).ways (y :: ys) = [([], y :: ys)] := by
    simp [Pattern.opt, ways, apart y hit]
  rw [first_alone only, avoids y ys hit]

/-- One element after the other. -/
def word : List (α → Bool) → Pattern α
  | [] => empty
  | p :: ps => seq (one p) (word ps)

theorem matches_word {ps : List (α → Bool)} {xs : List α} {c : Captures α}
    (h : Matches (word ps) xs c) : List.Forall₂ (fun p x => p x = true) ps xs := by
  induction ps generalizing xs c with
  | nil =>
    cases h
    exact .nil
  | cons p ps ih =>
    cases h with
    | seq left right =>
      cases left with
      | one hit => exact .cons hit (ih right)

def afterWord : List (α → Bool) → List α → Option (List α)
  | [], xs => some xs
  | _ :: _, [] => none
  | p :: ps, x :: xs => if p x then afterWord ps xs else none

theorem ways_word (ps : List (α → Bool)) (xs : List α) :
    (word ps).ways xs = (afterWord ps xs).toList.map fun rest => ([], rest) := by
  induction ps generalizing xs with
  | nil => rfl
  | cons p ps ih =>
    cases xs with
    | nil => rfl
    | cons x xs =>
      cases hit : p x with
      | true => simp [word, ways, afterWord, hit, ih]
      | false => simp [word, ways, afterWord, hit]

theorem first_word {ps : List (α → Bool)} {s : Pattern α} {xs : List α} :
    (seq (word ps) s).first xs = (afterWord ps xs).bind s.first := by
  cases after : afterWord ps xs with
  | none => exact first_dead (by rw [first, ways_word, after]; rfl)
  | some rest =>
    have only : (word ps).ways xs = [([], rest)] := by
      rw [ways_word, after]
      rfl
    rw [first_alone only]
    rfl

/-- `p{0,n}` and `p{1,n+1}`. -/
def upTo (p : α → Bool) : Nat → Pattern α
  | 0 => empty
  | n + 1 => alt (seq (one p) (upTo p n)) empty

def oneTo (p : α → Bool) (n : Nat) : Pattern α := seq (one p) (upTo p n)

theorem ways_upTo (p : α → Bool) (n : Nat) (xs : List α) : ∃ others,
    (upTo p n).ways xs = ([], xs.drop ((xs.takeWhile p).take n).length) :: others ∧
      ∀ w ∈ others, ∃ y ys, w.2 = y :: ys ∧ p y = true := by
  induction n generalizing xs with
  | zero => exact ⟨[], rfl, by simp⟩
  | succ n ih =>
    cases xs with
    | nil => exact ⟨[], rfl, by simp⟩
    | cons x xs =>
      cases hit : p x with
      | true =>
        obtain ⟨others, same, begin_⟩ := ih xs
        refine ⟨others ++ [([], x :: xs)], ?_, ?_⟩
        · simp [upTo, ways, hit, same]
        · intro w member
          rcases List.mem_append.mp member with earlier | last
          · exact begin_ w earlier
          · rw [List.mem_singleton.mp last]
            exact ⟨x, xs, rfl, hit⟩
      | false => exact ⟨[], by simp [upTo, ways, hit], by simp⟩

/-- A captured run of at most so many elements, before something that it cannot go on with. -/
theorem first_oneTo {p : α → Bool} {k n : Nat} {s : Pattern α} {xs : List α} (avoids : s.Avoids p) :
    (seq (group k (oneTo p n)) s).first xs =
      if (xs.takeWhile p).take (n + 1) = [] then none
      else (s.first (xs.drop ((xs.takeWhile p).take (n + 1)).length)).map fun v =>
        ((k, (xs.takeWhile p).take (n + 1)) :: v.1, v.2) := by
  cases xs with
  | nil => rfl
  | cons x xs =>
    cases hit : p x with
    | false =>
      rw [first_dead (by simp [first, ways, oneTo, hit])]
      simp [hit]
    | true =>
      obtain ⟨others, same, begin_⟩ := ways_upTo p n xs
      have run : ((x :: xs).takeWhile p).take (n + 1) = x :: (xs.takeWhile p).take n := by
        simp [hit]
      have front : (x :: xs).take ((x :: xs).length -
          (xs.drop ((xs.takeWhile p).take n).length).length) = x :: (xs.takeWhile p).take n := by
        obtain ⟨back, whole⟩ := (List.take_prefix n _).trans (List.takeWhile_prefix (l := xs) p)
        generalize (xs.takeWhile p).take n = taken at whole
        subst whole
        rw [List.drop_left, List.length_cons, List.length_append,
          show taken.length + back.length + 1 - back.length = taken.length + 1 by omega,
          List.take_succ_cons, List.take_left]
      have tried : (group k (oneTo p n)).ways (x :: xs) =
          ([(k, x :: (xs.takeWhile p).take n)], xs.drop ((xs.takeWhile p).take n).length) ::
            others.map fun w =>
              (w.1 ++ [(k, (x :: xs).take ((x :: xs).length - w.2.length))], w.2) := by
        simp only [ways, oneTo, hit, if_true, List.flatMap_cons, List.flatMap_nil,
          List.append_nil, same, List.map_cons, List.nil_append, front]
        simp
      rw [first_seq tried, run]
      · simp
      · intro _ w member
        obtain ⟨v, listed, rfl⟩ := List.mem_map.mp member
        obtain ⟨y, ys, begins, digit⟩ := begin_ v listed
        rw [begins]
        exact avoids y ys digit

end Pattern

end Patterns
