import R60V.Python.Text

/-! `str.split()`: the words of a text, with any blanks between and around them. -/
namespace R60V.Python

def words (text : Text) : List Text := (text.splitOnP isSpace).filter (· ≠ [])

theorem words_blank (front back : Text) {c : Char} (blank : isSpace c = true) :
    words (front ++ c :: back) = words front ++ words back := by
  rw [words, List.splitOnP_append_cons _ _ blank, List.filter_append, words, words]

theorem words_nil : words [] = [] := rfl

theorem words_single {word : Text} (ne : word ≠ []) (solid : ∀ c ∈ word, isSpace c = false) :
    words word = [word] := by
  rw [words, List.splitOnP_eq_singleton solid]
  simp [ne]

theorem words_dropWhile (text : Text) : words (text.dropWhile isSpace) = words text := by
  induction text with
  | nil => rfl
  | cons c rest ih =>
    by_cases blank : isSpace c = true
    · rw [List.dropWhile_cons_of_pos blank, ih]
      exact (words_blank [] rest blank).symm
    · rw [List.dropWhile_cons_of_neg blank]

theorem words_rdropWhile (text : Text) : words (text.rdropWhile isSpace) = words text := by
  induction text using List.reverseRecOn with
  | nil => rfl
  | append_singleton front c ih =>
    rw [List.rdropWhile_concat]
    split
    · rename_i blank
      rw [ih, words_blank front [] blank, words_nil, List.append_nil]
    · rfl

/-- The blanks around a text are between no words. -/
theorem words_strip (text : Text) : words (strip text) = words text := by
  rw [strip, trim, words_rdropWhile, words_dropWhile]

/-- The words that were joined with single blanks. -/
theorem words_intercalate {parts : List Text}
    (solid : ∀ part ∈ parts, part ≠ [] ∧ ∀ c ∈ part, isSpace c = false) :
    words ([' '].intercalate parts) = parts := by
  induction parts with
  | nil => rfl
  | cons part rest ih =>
    have first := solid part List.mem_cons_self
    have later := ih fun p member => solid p (List.mem_cons_of_mem _ member)
    cases rest with
    | nil => rw [List.intercalate_singleton, words_single first.1 first.2]
    | cons next rest =>
      rw [List.intercalate_cons_cons, List.append_assoc, List.singleton_append,
        words_blank part _ (by decide), later, words_single first.1 first.2]
      rfl

end R60V.Python
