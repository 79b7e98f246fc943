import R60V.Integration.Entities
import R60V.Integration.Stream
import R60V.Lib.Patterns
import R60V.Python.Numerals

/-! The brew temperature on the front panel: the pattern that finds it in a display text, and the
conversion of what is printed there to Celsius. -/
namespace R60V.Integration

open Patterns (Pattern Captures)
open Patterns.Pattern
open Python (Text roundEven)

/-- `re.IGNORECASE`. -/
def anyCase (w c : Char) : Bool := c.toUpper == w

def isUnit (c : Char) : Bool := anyCase 'C' c || anyCase 'F' c

/- `BREW\s*BOIL\.?\s*(\d{1,3})\s*\*?\s*([CF])`, from its end on. -/

def brewUnit : Pattern Char := seq (many Python.isSpace) (group 2 (one isUnit))

def brewStar : Pattern Char := seq (many Python.isSpace) (seq (opt (· == '*')) brewUnit)

def brewValue : Pattern Char :=
  seq (many Python.isSpace) (seq (group 1 (oneTo Char.isDigit 2)) brewStar)

/-- `_BREW_DISPLAY_RE`. -/
def brewDisplay : Pattern Char :=
  seq (word (['B', 'R', 'E', 'W'].map anyCase)) (seq (many Python.isSpace)
    (seq (word (['B', 'O', 'I', 'L'].map anyCase)) (seq (opt (· == '.')) brewValue)))

/-- `int(match.group(1))` and `match.group(2).upper() == "F"`. -/
def readGroups (captures : Captures Char) : Option (Int × Bool) :=
  match captures.lookup 1, captures.lookup 2 with
  | some digits, some unit =>
    some (Python.ofDigits 10 (Python.digitsOf digits), unit.map Char.toUpper == ['F'])
  | _, _ => none

theorem afterWord_eq (w text : Text) : afterWord (w.map anyCase) text = matchWord w text := by
  induction w generalizing text with
  | nil => simp [afterWord, matchWord]
  | cons c w ih =>
    cases text with
    | nil => simp [afterWord, matchWord]
    | cons d text =>
      have same := ih text
      unfold matchWord at same ⊢
      by_cases hit : d.toUpper = c
      · simpa [afterWord, anyCase, hit] using same
      · simp [afterWord, anyCase, hit]

theorem skip_eq (c : Char) (text : Text) : skip (· == c) text = skipOne c text := by
  cases text with
  | nil => rfl
  | cons d text => simp [skip, skipOne]

/- No part of the pattern can begin with what the part before it repeats. -/

theorem letter_apart {c : Char} (letter : c.isAlpha = true) :
    Python.isSpace c = false ∧ c.isDigit = false ∧ c ≠ '.' ∧ c ≠ '*' := by
  have table : ∀ n < 128, (Char.ofNat n).isAlpha = true → Python.isSpace (Char.ofNat n) = false ∧
      (Char.ofNat n).isDigit = false ∧ Char.ofNat n ≠ '.' ∧ Char.ofNat n ≠ '*' := by
    decide +kernel
  have ascii : c.toNat < 128 := by
    change (decide (c.val ≥ 'A'.val ∧ c.val ≤ 'Z'.val) || (c.val ≥ 'a'.val && c.val ≤ 'z'.val))
      = true at letter
    simp only [Bool.or_eq_true, Bool.and_eq_true, decide_eq_true_eq, ge_iff_le,
      UInt32.le_iff_toNat_le] at letter
    have bound : ('Z'.val.toNat < 128) ∧ 'z'.val.toNat < 128 := by decide
    change c.val.toNat < 128
    omega
  have row := table c.toNat ascii
  rw [Char.ofNat_toNat] at row
  exact row letter

theorem digit_apart {c : Char} (digit : c.isDigit = true) :
    Python.isSpace c = false ∧ c ≠ '.' ∧ c ≠ '*' := by
  refine ⟨Python.isSpace_digit digit, ?_, ?_⟩
  · rintro rfl
    cases digit
  · rintro rfl
    cases digit

theorem isAlpha_of_toUpper {c : Char} (letter : c.toUpper.isAlpha = true) :
    c.isAlpha = true := by
  unfold Char.toUpper at letter
  split at letter
  · rename_i lower
    have small : c.isLower = true := by
      change (c.val ≥ 'a'.val && c.val ≤ 'z'.val) = true
      simpa using lower
    exact Bool.or_eq_true_iff.mpr (Or.inr small)
  · exact letter

theorem anyCase_apart {w c : Char} (letter : w.isAlpha = true) (hit : anyCase w c = true) :
    Python.isSpace c = false ∧ c.isDigit = false ∧ c ≠ '.' ∧ c ≠ '*' := by
  apply letter_apart
  apply isAlpha_of_toUpper
  rw [eq_of_beq hit]
  exact letter

theorem isUnit_apart {c : Char} (hit : isUnit c = true) :
    Python.isSpace c = false ∧ c.isDigit = false ∧ c ≠ '.' ∧ c ≠ '*' := by
  rcases Bool.or_eq_true_iff.mp hit with celsius | fahrenheit
  · exact anyCase_apart (by decide) celsius
  · exact anyCase_apart (by decide) fahrenheit

theorem space_apart {c : Char} (space : Python.isSpace c = true) :
    c.isDigit = false ∧ isUnit c = false ∧ anyCase 'B' c = false ∧ (c == '*') = false ∧
      (c == '.') = false := by
  refine ⟨?_, ?_, ?_, ?_, ?_⟩
  · by_contra digit
    rw [(digit_apart (by simpa using digit)).1] at space
    cases space
  · by_contra unit
    rw [(isUnit_apart (by simpa using unit)).1] at space
    cases space
  · by_contra letter
    rw [(anyCase_apart (w := 'B') (by decide) (by simpa using letter)).1] at space
    cases space
  · rw [beq_eq_false_iff_ne]
    rintro rfl
    cases space
  · rw [beq_eq_false_iff_ne]
    rintro rfl
    cases space

/- The matcher goes through the pattern without ever turning back. -/

theorem first_unit (text : Text) : (group 2 (one isUnit)).first text =
    (text.head?.filter isUnit).map fun c => ([(2, [c])], text.tail) := by
  cases text with
  | nil => rfl
  | cons c text =>
    cases hit : isUnit c with
    | true =>
      simp [first, ways, hit, Option.filter]
    | false => simp [first, ways, hit, Option.filter]

theorem unit_avoids {p : Char → Bool} (apart : ∀ c, p c = true → isUnit c = false) :
    (group 2 (one isUnit)).Avoids p := Avoids.group (avoids_one apart)

theorem first_brewUnit (text : Text) :
    brewUnit.first text = (group 2 (one isUnit)).first (skipBlanks text) :=
  first_many fun _ y ys space _ => unit_avoids (fun _ space => (space_apart space).2.1) y ys space

theorem brewUnit_avoids {p : Char → Bool} (blank : ∀ c, p c = true → Python.isSpace c = false)
    (unit : ∀ c, p c = true → isUnit c = false) : brewUnit.Avoids p :=
  Avoids.many blank (unit_avoids unit)

theorem star_apart {c : Char} (star : (c == '*') = true) :
    Python.isSpace c = false ∧ isUnit c = false ∧ c.isDigit = false := by
  rw [eq_of_beq star]
  decide

theorem first_star (text : Text) : (seq (opt (· == '*')) brewUnit).first text =
    (group 2 (one isUnit)).first (skipBlanks (skipOne '*' text)) := by
  rw [first_opt (brewUnit_avoids (fun _ star => (star_apart star).1) fun _ star =>
    (star_apart star).2.1), first_brewUnit, skip_eq]

theorem skipBlanks_skipBlanks (text : Text) : skipBlanks (skipBlanks text) = skipBlanks text :=
  List.dropWhile_idempotent ..

/-- Where blanks may stand on both sides of a star that may be missing, it does not matter which
side takes them. -/
theorem first_brewStar (text : Text) : brewStar.first text =
    (group 2 (one isUnit)).first (skipBlanks (skipOne '*' (skipBlanks text))) := by
  rw [brewStar, first_many, ← skipBlanks, first_star]
  intro last y ys space same
  rw [first_star] at last ⊢
  rw [← skipBlanks, ← skipBlanks] at same
  have plain : skipOne '*' (y :: ys) = y :: ys := by
    have other := (space_apart space).2.2.2.1
    rw [beq_eq_false_iff_ne] at other
    simp [skipOne, other]
  rw [plain, same]
  rw [← skipBlanks] at last
  cases rest : skipBlanks text with
  | nil => rfl
  | cons c cs =>
    rw [rest] at last
    by_cases star : c = '*'
    · subst star
      rw [first_unit]
      rfl
    · have whole : skipBlanks (c :: cs) = c :: cs := by
        rw [← rest, skipBlanks_skipBlanks]
      simpa [skipOne, star, whole] using last

theorem brewStar_avoids : brewStar.Avoids Char.isDigit := by
  apply Avoids.many
  · exact fun c digit => (digit_apart digit).1
  · apply Avoids.opt
    · exact fun c digit => beq_eq_false_iff_ne.mpr (digit_apart digit).2.2
    · apply brewUnit_avoids
      · exact fun c digit => (digit_apart digit).1
      · intro c digit
        by_contra unit
        rw [(isUnit_apart (by simpa using unit)).2.1] at digit
        cases digit

theorem value_avoids {p : Char → Bool} (apart : ∀ c, p c = true → c.isDigit = false) :
    (seq (group 1 (oneTo Char.isDigit 2)) brewStar).Avoids p :=
  Avoids.seq (Avoids.group (Avoids.seq (avoids_one apart)))

theorem first_brewValue (text : Text) : brewValue.first text =
    (seq (group 1 (oneTo Char.isDigit 2)) brewStar).first (skipBlanks text) :=
  first_many fun _ y ys space _ => value_avoids (fun _ space => (space_apart space).1) y ys space

theorem brewValue_avoids : brewValue.Avoids (· == '.') := by
  apply Avoids.many
  · intro c point
    rw [eq_of_beq point]
    decide
  · apply value_avoids
    intro c point
    rw [eq_of_beq point]
    decide

theorem boil_avoids (s : Pattern Char) :
    (seq (word (['B', 'O', 'I', 'L'].map anyCase)) s).Avoids Python.isSpace :=
  Avoids.seq (Avoids.seq (avoids_one fun _ space => (space_apart space).2.2.1))

theorem first_brewDisplay (text : Text) : brewDisplay.first text =
    (matchWord ['B', 'R', 'E', 'W'] text).bind fun afterBrew =>
      (matchWord ['B', 'O', 'I', 'L'] (skipBlanks afterBrew)).bind fun afterBoil =>
        (seq (group 1 (oneTo Char.isDigit 2)) brewStar).first
          (skipBlanks (skipOne '.' afterBoil)) := by
  rw [brewDisplay, first_word, afterWord_eq]
  congr 1
  funext afterBrew
  rw [first_many fun _ y ys space _ => boil_avoids _ y ys space, first_word, afterWord_eq]
  congr 1
  funext afterBoil
  rw [first_opt brewValue_avoids, skip_eq, first_brewValue]

theorem isUnit_cases {c : Char} : isUnit c = true ↔ c.toUpper = 'C' ∨ c.toUpper = 'F' := by
  simp [isUnit, anyCase]

/-- What the groups capture is what the code reads. -/
theorem first_reads (text : Text) : (brewDisplay.first text).map (fun w => readGroups w.1) =
    (matchBrewTemp text).map some := by
  rw [first_brewDisplay]
  unfold matchBrewTemp
  cases matchWord ['B', 'R', 'E', 'W'] text with
  | none => rfl
  | some afterBrew =>
    dsimp only [Option.bind_eq_bind, Option.bind_some]
    cases matchWord ['B', 'O', 'I', 'L'] (skipBlanks afterBrew) with
    | none => rfl
    | some afterBoil =>
      dsimp only [Option.bind_some]
      generalize skipBlanks (skipOne '.' afterBoil) = numeral
      rw [first_oneTo brewStar_avoids]
      generalize (numeral.takeWhile Char.isDigit).take 3 = digits
      by_cases nothing : digits = []
      · rw [if_pos nothing, if_pos nothing]
        rfl
      · rw [if_neg nothing, if_neg nothing, first_brewStar, first_unit]
        cases skipBlanks (skipOne '*' (skipBlanks (numeral.drop digits.length))) with
        | nil => rfl
        | cons c rest =>
          cases hit : isUnit c with
          | true =>
            rcases isUnit_cases.mp hit with celsius | fahrenheit
            · simp [Option.filter, hit, celsius, readGroups, List.lookup_cons]
            · simp [Option.filter, hit, fahrenheit, readGroups, List.lookup_cons]
          | false =>
            have other : ¬ (c.toUpper = 'C' ∨ c.toUpper = 'F') := by
              rw [← isUnit_cases, hit]
              simp
            obtain ⟨celsius, fahrenheit⟩ := not_or.mp other
            simp only [Option.filter, List.head?_cons, hit, Option.map_some, Option.map_none,
              Bool.false_eq_true, if_false]
            split
            · rename_i same
              exact absurd (Option.some.inj same) celsius
            · rename_i same
              exact absurd (Option.some.inj same) fahrenheit
            · rfl

/-- The first place where a pattern matches, and what is read there. -/
theorem findSome_reads {A B C : Type} {f : A → Option B} {g : B → Option C} {h : A → Option C}
    (reads : ∀ a, (f a).map g = (h a).map some) (as : List A) :
    as.findSome? h = (as.findSome? f).bind g := by
  induction as with
  | nil => rfl
  | cons a as ih =>
    have here := reads a
    rw [List.findSome?_cons, List.findSome?_cons]
    cases found : f a with
    | none =>
      rw [found, Option.map_none, eq_comm, Option.map_eq_none_iff] at here
      rw [here]
      exact ih
    | some b =>
      rw [found, Option.map_some] at here
      cases seen : h a with
      | none =>
        rw [seen] at here
        cases here
      | some c =>
        rw [seen, Option.map_some] at here
        exact (Option.some.inj here).symm

theorem parse_eq_search (display : Text) : parseDisplayBrewTemp display =
    (brewDisplay.search display).bind fun w => readGroups w.1 :=
  findSome_reads first_reads display.tails

theorem parse_eq_none (display : Text) : parseDisplayBrewTemp display = none ↔
    ∀ before front rest c, display = before ++ (front ++ rest) →
      ¬ Matches brewDisplay front c := by
  rw [← search_eq_none, search, parseDisplayBrewTemp, List.findSome?_eq_none_iff,
    List.findSome?_eq_none_iff]
  refine forall_congr' fun tail => imp_congr_right fun _ => ?_
  rw [← Option.map_eq_none_iff (f := some), ← first_reads, Option.map_eq_none_iff]

/- What the panel prints. -/

/-- The machine prints the temperature in the unit that is chosen. -/
def panelValue (celsius : Nat) (fahrenheit : Bool) : Nat :=
  if fahrenheit then (roundEven (18 / 10 * celsius + 32)).toNat else celsius

/-- As in `BREW BOIL. 221*F`. -/
def panelText (celsius : Nat) (fahrenheit : Bool) : Text :=
  "BREW BOIL. ".toList ++ (Nat.toDigits 10 (panelValue celsius fahrenheit) ++
    ['*', if fahrenheit then 'F' else 'C'])

/-- A conversion to Fahrenheit and back, both rounded, is exact. -/
theorem machineToCelsius_panelValue (celsius : Nat) (fahrenheit : Bool) :
    machineToCelsius (panelValue celsius fahrenheit) fahrenheit = celsius := by
  cases fahrenheit with
  | false => rfl
  | true =>
    have near := Python.abs_roundEven_sub_le (18 / 10 * (celsius : ℚ) + 32)
    have up : 0 ≤ roundEven (18 / 10 * (celsius : ℚ) + 32) := by
      apply Python.le_roundEven
      push_cast
      positivity
    simp only [machineToCelsius, panelValue, if_true, Int.toNat_of_nonneg up]
    apply Python.roundEven_eq
    rw [abs_le] at near
    rw [abs_lt]
    constructor
    · push_cast
      linarith [near.1]
    · push_cast
      linarith [near.2]

theorem matchBrewTemp_panel {n : Nat} (short : n < 1000) (fahrenheit : Bool) (back : Text) :
    matchBrewTemp ("BREW BOIL. ".toList ++
      (Nat.toDigits 10 n ++ '*' :: (if fahrenheit then 'F' else 'C') :: back)) =
        some ((n : Int), fahrenheit) := by
  have digits := Python.isDigit_toDigits (n := n)
  have value : Python.ofDigits 10 (Python.digitsOf (Nat.toDigits 10 n)) = n := by
    rw [Python.digitsOf, Python.ofDigits_decimal, Nat.ofDigitChars_ten_toDigits]
  have few : (Nat.toDigits 10 n).length ≤ 3 :=
    (Nat.length_toDigits_le_iff (by decide) (by decide)).mpr short
  have some_ : Nat.toDigits 10 n ≠ [] := Nat.toDigits_ne_nil
  generalize Nat.toDigits 10 n = text at digits value few some_
  have brew : matchWord ['B', 'R', 'E', 'W'] ("BREW BOIL. ".toList ++
      (text ++ '*' :: (if fahrenheit then 'F' else 'C') :: back)) =
        some (" BOIL. ".toList ++ (text ++ '*' :: (if fahrenheit then 'F' else 'C') :: back)) := rfl
  have boil : matchWord ['B', 'O', 'I', 'L'] (skipBlanks (" BOIL. ".toList ++
      (text ++ '*' :: (if fahrenheit then 'F' else 'C') :: back))) =
        some (". ".toList ++ (text ++ '*' :: (if fahrenheit then 'F' else 'C') :: back)) := rfl
  have numeral : skipBlanks (skipOne '.' (". ".toList ++
      (text ++ '*' :: (if fahrenheit then 'F' else 'C') :: back))) =
        text ++ '*' :: (if fahrenheit then 'F' else 'C') :: back := by
    obtain ⟨c, rest, rfl⟩ := List.exists_cons_of_ne_nil some_
    have solid := (digit_apart (digits c List.mem_cons_self)).1
    change List.dropWhile Python.isSpace (c :: (rest ++ _)) = _
    rw [List.dropWhile_cons_of_neg (by simp [solid])]
    rfl
  have run : ((text ++ '*' :: (if fahrenheit then 'F' else 'C') :: back).takeWhile
      Char.isDigit).take 3 = text := by
    rw [List.takeWhile_append_of_pos digits]
    simpa [List.takeWhile_cons] using few
  unfold matchBrewTemp
  rw [brew]
  dsimp only [Option.bind_eq_bind, Option.bind_some]
  rw [boil]
  dsimp only [Option.bind_some]
  rw [numeral, run, if_neg some_, List.drop_left, value]
  cases fahrenheit with
  | true => rfl
  | false => rfl

theorem parse_front {front : Text} (apart : ∀ c ∈ front, c.toUpper ≠ 'B') (text : Text) :
    parseDisplayBrewTemp (front ++ text) = parseDisplayBrewTemp text := by
  induction front with
  | nil => rfl
  | cons c front ih =>
    have miss : matchBrewTemp (c :: (front ++ text)) = none := by
      have other := apart c List.mem_cons_self
      unfold matchBrewTemp
      have none_ : matchWord ['B', 'R', 'E', 'W'] (c :: (front ++ text)) = none := by
        simp [matchWord, other]
      rw [none_]
      rfl
    rw [List.cons_append, parseDisplayBrewTemp, List.tails_cons, List.findSome?_cons, miss]
    exact ih fun d member => apart d (List.mem_cons_of_mem c member)

theorem parse_here {text : Text} {r : Int × Bool} (here : matchBrewTemp text = some r) :
    parseDisplayBrewTemp text = some r := by
  unfold parseDisplayBrewTemp
  cases text with
  | nil => rw [List.tails, List.findSome?_cons, here]
  | cons c text => rw [List.tails_cons, List.findSome?_cons, here]

theorem currentC_panel {s : StateSnapshot Int} {front back : Text} {celsius : Nat}
    {fahrenheit : Bool}
    (shown : liveText Address.display s = some (front ++ panelText celsius fahrenheit ++ back))
    (apart : ∀ c ∈ front, c.toUpper ≠ 'B') (short : panelValue celsius fahrenheit < 1000) :
    ClimateDescription.brewBoiler.currentC s = some (celsius : Int) := by
  have printed : front ++ panelText celsius fahrenheit ++ back = front ++
      ("BREW BOIL. ".toList ++ (Nat.toDigits 10 (panelValue celsius fahrenheit) ++
        '*' :: (if fahrenheit then 'F' else 'C') :: back)) := by
    unfold panelText
    generalize "BREW BOIL. ".toList = label
    simp only [List.append_assoc, List.cons_append, List.nil_append]
  have read := (parse_front apart _).trans (parse_here (matchBrewTemp_panel short fahrenheit back))
  rw [← printed] at read
  simp only [ClimateDescription.currentC, ClimateDescription.brewBoiler, if_true, shown,
    Option.map_some, read, machineToCelsius_panelValue]

/-- **The panel is read as the pattern says.** For every display text, the brew temperature is what
the groups capture at the first place where a backtracking matcher finds the pattern, and is
missing exactly where no part of the text is in its language; and wherever the panel prints the
boiler's temperature, in either unit, the entity shows it in Celsius, without a rounding error. -/
theorem panel_read (s : StateSnapshot Int) {display : Text}
    (shown : liveText Address.display s = some display) :
    parseDisplayBrewTemp display =
      (brewDisplay.search display).bind (fun w => readGroups w.1) ∧
    (parseDisplayBrewTemp display = none ↔ ∀ before front rest c,
      display = before ++ (front ++ rest) → ¬ Matches brewDisplay front c) ∧
    (parseDisplayBrewTemp display = none → ClimateDescription.brewBoiler.currentC s =
      some (liveByte Address.currentBrewTemp s)) ∧
    ∀ front back celsius fahrenheit, display = front ++ panelText celsius fahrenheit ++ back →
      (∀ c ∈ front, c.toUpper ≠ 'B') → panelValue celsius fahrenheit < 1000 →
        ClimateDescription.brewBoiler.currentC s = some (celsius : Int) := by
  refine ⟨parse_eq_search display, parse_eq_none display, ?_, ?_⟩
  · intro nothing
    simp only [ClimateDescription.currentC, ClimateDescription.brewBoiler, if_true, shown,
      Option.map_some, nothing]
  · rintro front back celsius fahrenheit rfl apart short
    exact currentC_panel shown apart short

/-- A panel in Fahrenheit, on a machine whose live register mirrors the setpoint. -/
theorem fahrenheit_panel_read :
    let s : StateSnapshot Int := ⟨[], [((0xB000 : Int), [93]), ((Address.display : Int),
      "BREW BOIL. 221*F".toList.map fun c => (c.toNat : Int))], true⟩
    ClimateDescription.brewBoiler.currentC s = some 105 := by
  intro s
  have shown : liveText Address.display s = some "BREW BOIL. 221*F".toList := by decide +kernel
  exact (panel_read s shown).2.2.2 [] [] 105 true (by decide +kernel) (by simp) (by decide +kernel)

end R60V.Integration
