import Mathlib.Tactic.Common

/-! Cutting a stream into pieces by a reader that takes one piece off its front. Pieces that the
reader finds again whatever follows them can be strung together and taken apart. -/
namespace Pieces

variable {α ε : Type}

abbrev Reader (α ε : Type) := List α → Except ε (List α × List α)

/-- All the pieces that a number of reads takes off, and the exception that ends them early. -/
def pieces (read : Reader α ε) : Nat → List α → List (List α) × Option ε
  | 0, _ => ([], none)
  | n + 1, stream =>
    match read stream with
    | .error e => ([], some e)
    | .ok (piece, rest) => (piece :: (pieces read n rest).1, (pieces read n rest).2)

/-- A piece ends by itself. -/
def Delimited (read : Reader α ε) (piece : List α) : Prop :=
  ∀ rest, read (piece ++ rest) = .ok (piece, rest)

variable {read : Reader α ε}

theorem pieces_flatten {ps : List (List α)} (delimited : ∀ p ∈ ps, Delimited read p) {e : ε}
    (empty : read [] = .error e) {n : Nat} (enough : ps.length < n) :
    pieces read n ps.flatten = (ps, some e) := by
  induction ps generalizing n with
  | nil =>
    cases n with
    | zero => cases enough
    | succ n => simp only [List.flatten_nil, pieces, empty]
  | cons p ps ih =>
    cases n with
    | zero => cases enough
    | succ n =>
      have later := ih (fun q member => delimited q (List.mem_cons_of_mem p member))
        (Nat.lt_of_succ_lt_succ enough)
      simp only [List.flatten_cons, pieces, delimited p List.mem_cons_self ps.flatten, later]

/-- Pieces that begin a string of pieces are the first ones of it. -/
theorem isPrefix_of_flatten {ps qs : List (List α)} {rest : List α}
    (first : ∀ p ∈ ps, Delimited read p) (second : ∀ q ∈ qs, Delimited read q) {e : ε}
    (empty : read [] = .error e) (same : qs.flatten = ps.flatten ++ rest) :
    ∃ more, qs = ps ++ more ∧ rest = more.flatten := by
  induction ps generalizing qs with
  | nil => exact ⟨qs, rfl, by simpa using same.symm⟩
  | cons p ps ih =>
    have reads := first p List.mem_cons_self (ps.flatten ++ rest)
    rw [← List.append_assoc, ← List.flatten_cons, ← same] at reads
    cases qs with
    | nil => simp [empty] at reads
    | cons q qs =>
      rw [List.flatten_cons, second q List.mem_cons_self] at reads
      obtain ⟨rfl, tail⟩ := Prod.mk.inj (Except.ok.inj reads)
      obtain ⟨more, rfl, ends⟩ := ih (fun p member => first p (List.mem_cons_of_mem _ member))
        (fun q member => second q (List.mem_cons_of_mem _ member)) tail
      exact ⟨more, rfl, ends⟩

end Pieces
