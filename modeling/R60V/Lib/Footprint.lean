import R60V.Lib.Writes

/-! Fields inside a list of values: what a function of the list looks at, and lenses that read and
write some of its positions. A write leaves alone whatever looks elsewhere. -/
namespace Footprint

open Overlay (blit)

variable {α β V W : Type}

/-- A function of a list whose value the given positions determine. -/
def LooksAt (f : List α → β) (positions : List Nat) : Prop :=
  ∀ xs ys : List α, xs.length = ys.length → (∀ i ∈ positions, xs[i]? = ys[i]?) → f xs = f ys

theorem LooksAt.blit_eq {f : List α → β} {positions : List Nat} (looks : LooksAt f positions)
    {a : Nat} {ds : List α} (apart : ∀ k < ds.length, a + k ∉ positions) (xs : List α) :
    f (blit a ds xs) = f xs := by
  refine looks _ _ (Overlay.length_blit a ds xs) fun i member =>
    Overlay.blit_miss fun k here same => ?_
  exact apart k here (same ▸ member)

/-- A field of a list: how it is read, how a value is written, and what then is to be read. -/
structure Lens (α V W : Type) where
  positions : List Nat
  decode : List α → W
  encode : V → Option (Nat × List α)
  canonical : V → W

/-- Over lists of length `n` with `valid` values: the field lies inside, is all that is written and
all that is read, and is read as what was written. -/
structure Lens.Lawful (n : Nat) (valid : α → Prop) (l : Lens α V W) : Prop where
  looks : LooksAt l.decode l.positions
  inside : ∀ {v a ds}, l.encode v = some (a, ds) → a + ds.length ≤ n ∧ ∀ d ∈ ds, valid d
  covers : ∀ {v a ds}, l.encode v = some (a, ds) → ∀ k < ds.length, a + k ∈ l.positions
  returns : ∀ {v a ds}, l.encode v = some (a, ds) → ∀ xs : List α, xs.length = n →
    l.decode (blit a ds xs) = l.canonical v

/-- What a write of one field does not touch. -/
theorem Lens.Lawful.apart {n : Nat} {valid : α → Prop} {l : Lens α V W} (lawful : l.Lawful n valid)
    {f : List α → β} {positions : List Nat} (looks : LooksAt f positions)
    (disjoint : ∀ i ∈ l.positions, i ∉ positions) {v : V} {a : Nat} {ds : List α}
    (written : l.encode v = some (a, ds)) (xs : List α) : f (blit a ds xs) = f xs :=
  looks.blit_eq (fun k here => disjoint _ (lawful.covers written k here)) xs

end Footprint
