import R60V.Python.Text

/-! What is lost between a numeral and a rounded number. `round` moves a number by at most one
half, keeps the order of the integers around it and leaves an integer alone; a small number and its
`float` differ by less than any decimal the program knows. -/
namespace R60V.Python

theorem roundEven_cases (x : ℚ) :
    (roundEven x = ⌊x⌋ ∧ x - ⌊x⌋ ≤ 1 / 2) ∨ (roundEven x = ⌊x⌋ + 1 ∧ 1 / 2 ≤ x - ⌊x⌋) := by
  unfold roundEven
  dsimp only
  split
  · rename_i low
    exact Or.inl ⟨rfl, le_of_lt low⟩
  · rename_i notLow
    split
    · rename_i high
      exact Or.inr ⟨rfl, le_of_lt high⟩
    · rename_i notHigh
      split
      · exact Or.inl ⟨rfl, not_lt.mp notHigh⟩
      · exact Or.inr ⟨rfl, not_lt.mp notLow⟩

theorem abs_roundEven_sub_le (x : ℚ) : |(roundEven x : ℚ) - x| ≤ 1 / 2 := by
  have below := Int.floor_le x
  have above := Int.lt_floor_add_one x
  rcases roundEven_cases x with ⟨down, near⟩ | ⟨up, near⟩
  · rw [down, abs_le]
    constructor <;> linarith
  · rw [up, abs_le]
    push_cast
    constructor <;> linarith

theorem roundEven_le {x : ℚ} {n : Int} (h : x ≤ n) : roundEven x ≤ n := by
  have near := (abs_le.mp (abs_roundEven_sub_le x)).2
  have close : ((roundEven x : Int) : ℚ) < ((n + 1 : Int) : ℚ) := by
    push_cast
    linarith
  exact Int.lt_add_one_iff.mp (Int.cast_lt.mp close)

theorem le_roundEven {x : ℚ} {n : Int} (h : (n : ℚ) ≤ x) : n ≤ roundEven x := by
  have near := (abs_le.mp (abs_roundEven_sub_le x)).1
  have close : ((n - 1 : Int) : ℚ) < ((roundEven x : Int) : ℚ) := by
    push_cast
    linarith
  have := Int.cast_lt.mp close
  omega

@[simp] theorem roundEven_intCast (n : Int) : roundEven (n : ℚ) = n :=
  le_antisymm (roundEven_le le_rfl) (le_roundEven le_rfl)

/-- Whatever lies less than one half from an integer rounds to it. -/
theorem roundEven_eq {x : ℚ} {n : Int} (near : |x - n| < 1 / 2) : roundEven x = n := by
  have moved := abs_le.mp (abs_roundEven_sub_le x)
  have bounds := abs_lt.mp near
  have low : ((n - 1 : Int) : ℚ) < ((roundEven x : Int) : ℚ) := by
    push_cast
    linarith
  have high : ((roundEven x : Int) : ℚ) < ((n + 1 : Int) : ℚ) := by
    push_cast
    linarith
  have := Int.cast_lt.mp low
  have := Int.cast_lt.mp high
  omega

/-- The `float` of a number below 1024 is off by a few units of its last bit. -/
theorem toFloat64_small {x : ℚ} (small : |x| ≤ 1024) :
    ∃ y, toFloat64 x = .finite y ∧ |y - x| ≤ 2 ^ (-43 : Int) := by
  by_cases zero : x = 0
  · exact ⟨0, by rw [toFloat64, if_pos zero], by rw [zero]; norm_num⟩
  · have positive : 0 < |x| := abs_pos.mpr zero
    have log : Int.log 2 |x| ≤ 10 := by
      have := Int.log_mono_right (b := 2) positive small
      have power : (1024 : ℚ) = ((2 : ℕ) : ℚ) ^ (10 : Int) := by norm_num
      have ten : Int.log 2 (1024 : ℚ) = 10 := by
        rw [power]
        exact Int.log_zpow (by decide) 10
      omega
    have fine : (2 : ℚ) ^ max (Int.log 2 |x| - 52) (-1074) ≤ 2 ^ (-42 : Int) :=
      zpow_le_zpow_right₀ (by norm_num) (by omega)
    have ulp : (0 : ℚ) < 2 ^ max (Int.log 2 |x| - 52) (-1074) := zpow_pos (by norm_num) _
    generalize grid : (2 : ℚ) ^ max (Int.log 2 |x| - 52) (-1074) = u at fine ulp
    have near : |(roundEven (x / u) : ℚ) * u - x| ≤ 2 ^ (-43 : Int) := by
      have half := abs_roundEven_sub_le (x / u)
      have scaled : (roundEven (x / u) : ℚ) * u - x = ((roundEven (x / u) : ℚ) - x / u) * u := by
        rw [sub_mul, div_mul_cancel₀ x ulp.ne']
      rw [scaled, abs_mul, abs_of_pos ulp]
      calc |(roundEven (x / u) : ℚ) - x / u| * u ≤ 1 / 2 * 2 ^ (-42 : Int) :=
            mul_le_mul half fine ulp.le (by norm_num)
        _ = 2 ^ (-43 : Int) := by norm_num
    refine ⟨(roundEven (x / u) : ℚ) * u, ?_, near⟩
    have huge : (1026 : ℚ) ≤ 2 ^ 1024 := calc
      (1026 : ℚ) ≤ 2 ^ 11 := by norm_num
      _ ≤ 2 ^ 1024 := pow_le_pow_right₀ (by norm_num) (by norm_num)
    have bounded : ¬ (2 : ℚ) ^ 1024 ≤ |(roundEven (x / u) : ℚ) * u| := by
      have triangle := abs_sub_abs_le_abs_sub ((roundEven (x / u) : ℚ) * u) x
      have tiny : (2 : ℚ) ^ (-43 : Int) ≤ 1 := by norm_num
      intro over_
      generalize (2 : ℚ) ^ 1024 = limit at huge over_
      linarith
    rw [toFloat64, if_neg zero]
    simp only [grid, if_neg bounded]

theorem splitSign_plain {text : Text} (plain : ∀ c ∈ text, c ≠ '-' ∧ c ≠ '+') :
    splitSign text = (false, text) := by
  unfold splitSign
  split
  · exact absurd rfl (plain '-' List.mem_cons_self).1
  · exact absurd rfl (plain '+' List.mem_cons_self).2
  · rfl

theorem dropUnderscores_plain {text : Text} (plain : ∀ c ∈ text, c ≠ '_') {before : Char}
    (other : before ≠ '_') : dropUnderscores before text = some text := by
  induction text generalizing before with
  | nil => rw [dropUnderscores, if_neg other]
  | cons c rest ih =>
    have first := plain c List.mem_cons_self
    rw [dropUnderscores, if_neg first, if_neg (by simp [other]),
      ih (fun x member => plain x (List.mem_cons_of_mem _ member)) first]
    rfl

theorem exists_digit {c : Char} (digit : c.isDigit = true) : ∃ d < 10, c = Char.ofNat (48 + d) := by
  simp only [Char.isDigit, ge_iff_le, Bool.and_eq_true, decide_eq_true_eq,
    UInt32.le_iff_toNat_le] at digit
  have low : 48 ≤ c.toNat := digit.1
  have high : c.toNat ≤ 57 := digit.2
  exact ⟨c.toNat - 48, by omega, by rw [Nat.add_sub_cancel' low, Char.ofNat_toNat]⟩

theorem toNat_of_plain {c : Char} (plain : c.isDigit = true ∨ c = '.') : c.toNat < 58 := by
  have table : ∀ d < 10, (Char.ofNat (48 + d)).toNat < 58 := by decide
  rcases plain with digit | rfl
  · obtain ⟨d, small, rfl⟩ := exists_digit digit
    exact table d small
  · decide

/-- Digits and points only: `float` reads a decimal number and nothing else. -/
theorem float_plain {text : Text} (plain : ∀ c ∈ text, c.isDigit = true ∨ c = '.') :
    float text = (decimal text).map toFloat64 := by
  have facts : ∀ c : Char, c.isDigit = true ∨ c = '.' → toAscii c = c ∧ isBlank c = false ∧
      c ≠ '_' ∧ c ≠ '-' ∧ c ≠ '+' ∧ c.toLower ≠ 'i' ∧ c.toLower ≠ 'n' := by
    have table : ∀ n < 58, (Char.ofNat n).isDigit = true ∨ Char.ofNat n = '.' →
        toAscii (Char.ofNat n) = Char.ofNat n ∧ isBlank (Char.ofNat n) = false ∧
        Char.ofNat n ≠ '_' ∧ Char.ofNat n ≠ '-' ∧ Char.ofNat n ≠ '+' ∧
        (Char.ofNat n).toLower ≠ 'i' ∧ (Char.ofNat n).toLower ≠ 'n' := by decide +kernel
    intro c digit
    have row := table c.toNat (toNat_of_plain digit)
    rw [Char.ofNat_toNat] at row
    exact row digit
  have ascii : text.map toAscii = text :=
    (List.map_congr_left fun c member => (facts c (plain c member)).1).trans (List.map_id' text)
  have trimmed : trim isBlank text = text :=
    trim_none fun c member => (facts c (plain c member)).2.1
  have bare : dropUnderscores ' ' text = some text :=
    dropUnderscores_plain (fun c member => (facts c (plain c member)).2.2.1) (by decide)
  have unsigned : splitSign text = (false, text) := splitSign_plain fun c member =>
    ⟨(facts c (plain c member)).2.2.2.1, (facts c (plain c member)).2.2.2.2.1⟩
  have word : ∀ c rest, text.map Char.toLower = c :: rest → c ≠ 'i' ∧ c ≠ 'n' := by
    intro c rest lower
    obtain ⟨d, ds, rfl, rfl, -⟩ := List.map_eq_cons_iff.mp lower
    exact (facts d (plain d List.mem_cons_self)).2.2.2.2.2
  have notInf : ¬ (text.map Char.toLower = ['i', 'n', 'f'] ∨
      text.map Char.toLower = ['i', 'n', 'f', 'i', 'n', 'i', 't', 'y']) := by
    rintro (inf | inf) <;> exact (word _ _ inf).1 rfl
  have notNan : ¬ text.map Char.toLower = ['n', 'a', 'n'] := fun nan => (word _ _ nan).2 rfl
  simp only [float, ascii, trimmed, bare, unsigned, if_neg notInf, if_neg notNan,
    Bool.false_eq_true, if_false]

/- Decimal numerals. -/

theorem decimal_facts {c : Char} (digit : c.isDigit = true) :
    toAscii c = c ∧ isBlank c = false ∧ c ≠ '-' ∧ c ≠ '+' ∧ c ≠ '_' ∧
    digitValue c = some (c.toNat - 48) ∧ c.toNat - 48 < 10 := by
  have table : ∀ d < 10, toAscii (Char.ofNat (48 + d)) = Char.ofNat (48 + d) ∧
      isBlank (Char.ofNat (48 + d)) = false ∧ Char.ofNat (48 + d) ≠ '-' ∧
      Char.ofNat (48 + d) ≠ '+' ∧ Char.ofNat (48 + d) ≠ '_' ∧
      digitValue (Char.ofNat (48 + d)) = some ((Char.ofNat (48 + d)).toNat - 48) ∧
      (Char.ofNat (48 + d)).toNat - 48 < 10 := by decide
  obtain ⟨d, small, rfl⟩ := exists_digit digit
  exact table d small

theorem digitRun_decimal {text : Text} (digits : ∀ c ∈ text, c.isDigit = true) :
    digitRun 10 true text = some (text.map fun c => c.toNat - 48) := by
  induction text with
  | nil => rfl
  | cons c rest ih =>
    obtain ⟨-, -, -, -, plain, value, small⟩ := decimal_facts (digits c List.mem_cons_self)
    have later := ih fun x member => digits x (List.mem_cons_of_mem c member)
    simp [digitRun, plain, value, small, later]

theorem ofDigits_decimal (text : Text) :
    ofDigits 10 (text.map fun c => c.toNat - 48) = Nat.ofDigitChars 10 text 0 := by
  rw [ofDigits, List.foldl_map, Nat.ofDigitChars_eq_foldl]
  congr 1
  funext n c
  rw [Nat.mul_comm]
  rfl

/-- Digits only, and no more of them than the interpreter reads. -/
theorem int_decimal {text : Text} (some_ : text ≠ []) (digits : ∀ c ∈ text, c.isDigit = true)
    (short : text.length ≤ maxStrDigits) :
    int 10 text = some ((Nat.ofDigitChars 10 text 0 : Nat) : Int) := by
  have ascii : text.map toAscii = text :=
    (List.map_congr_left fun c member => (decimal_facts (digits c member)).1).trans
      (List.map_id' text)
  have trimmed : trim isBlank text = text :=
    trim_none fun c member => (decimal_facts (digits c member)).2.1
  have unsigned : splitSign text = (false, text) := splitSign_plain fun c member =>
    ⟨(decimal_facts (digits c member)).2.2.1, (decimal_facts (digits c member)).2.2.2.1⟩
  have run := digitRun_decimal digits
  have value := ofDigits_decimal text
  cases text with
  | nil => exact absurd rfl some_
  | cons c rest =>
    obtain ⟨-, -, -, -, plain, -, -⟩ := decimal_facts (digits c List.mem_cons_self)
    have start : digitRun 10 false (c :: rest) = digitRun 10 true (c :: rest) := by
      simp [digitRun, plain]
    have fits : ¬ maxStrDigits < ((c :: rest).map fun c => c.toNat - 48).length := by
      simpa using short
    rw [int, ascii, trimmed, unsigned]
    simp only [if_neg (show ¬ (10 : Nat) = 16 by decide), start, run, fits, value, and_false,
      if_false, Bool.false_eq_true]

theorem isDigit_toDigits {n : Nat} : ∀ c ∈ Nat.toDigits 10 n, c.isDigit = true := fun _ member =>
  Nat.isDigit_of_mem_toDigits (by decide) (by decide) member

/-- `int(str(n))`, where `str` does not refuse. -/
theorem int_toDigits {n : Nat} (short : (Nat.toDigits 10 n).length ≤ maxStrDigits) :
    int 10 (Nat.toDigits 10 n) = some (n : Int) := by
  rw [int_decimal Nat.toDigits_ne_nil isDigit_toDigits short, Nat.ofDigitChars_ten_toDigits]

theorem digitChar_toNat {c : Char} (low : 48 ≤ c.toNat) (high : c.toNat < 58) :
    Nat.digitChar (c.toNat - 48) = c := by
  apply Char.toNat_inj.mp
  rw [Nat.toNat_digitChar_of_lt_ten (by omega)]
  omega

theorem twoDigits_pair {d e : Nat} (ten : d < 10) (one : e < 10) :
    twoDigits ((10 * d + e : Nat) : Int) = [Nat.digitChar d, Nat.digitChar e] := by
  rw [twoDigits, Int.toNat_natCast]
  by_cases zero : d = 0
  · rw [zero, Nat.mul_zero, Nat.zero_add, Nat.toDigits_of_lt_base one]
    rfl
  · rw [← Nat.toDigits_append_toDigits (by decide) (Nat.pos_of_ne_zero zero) one,
      Nat.toDigits_of_lt_base ten, Nat.toDigits_of_lt_base one]
    rfl

theorem isDigit_twoDigits (n : Int) : ∀ c ∈ twoDigits n, c.isDigit = true := by
  intro c member
  rcases List.mem_append.mp member with zeros | digits
  · obtain rfl := List.eq_of_mem_replicate zeros
    rfl
  · exact isDigit_toDigits c digits

theorem int_twoDigits {n : Int} (low : 0 ≤ n) (high : n < 1000) :
    int 10 (twoDigits n) = some n := by
  have few : (Nat.toDigits 10 n.toNat).length ≤ 3 :=
    (Nat.length_toDigits_le_iff (by decide) (by decide)).mpr (by omega)
  have length : (twoDigits n).length = max 2 (Nat.toDigits 10 n.toNat).length :=
    List.length_leftpad
  have some_ : twoDigits n ≠ [] := List.length_pos_iff.mp (by omega)
  have short : (twoDigits n).length ≤ maxStrDigits := by
    rw [length, maxStrDigits]
    omega
  have value : Nat.ofDigitChars 10 (twoDigits n) 0 = n.toNat := by
    rw [twoDigits, List.leftpad, Nat.ofDigitChars_append, Nat.ofDigitChars_replicate_zero,
      Nat.mul_zero, Nat.ofDigitChars_ten_toDigits]
  rw [int_decimal some_ (isDigit_twoDigits n) short, value, Int.toNat_of_nonneg low]

/-- As in `HH:MM`. -/
theorem splitOn_twoDigits (hour minute : Int) :
    (twoDigits hour ++ ':' :: twoDigits minute).splitOn ':' =
      [twoDigits hour, twoDigits minute] := by
  have plain : ∀ n, ':' ∉ twoDigits n := fun n member =>
    absurd (isDigit_twoDigits n ':' member) (by decide)
  rw [List.splitOn_append_cons_self, List.splitOn_eq_singleton (plain hour),
    List.splitOn_eq_singleton (plain minute)]
  rfl

theorem isSpace_digit {c : Char} (digit : c.isDigit = true) : isSpace c = false := by
  have table : ∀ d < 10, isSpace (Char.ofNat (48 + d)) = false := by decide
  obtain ⟨d, small, rfl⟩ := exists_digit digit
  exact table d small

end R60V.Python
