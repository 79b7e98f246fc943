import Mathlib.Tactic.IntervalCases
import R60V.Python.Numerals
import R60V.Python.Words

/-! Pressure profiles: five steps of a time and a pressure, fifteen bytes on the machine and a
line of `seconds:bar` words in Home Assistant. Numbers are exact tenths, where the source has the
floats nearest to them. -/
namespace R60V.Integration

open Python (Text Float64 float roundEven words strip)

def profileLen : Nat := 15

def profileSteps : Nat := 5

/- In tenths. -/

def profileTimingRange : Int × Int := (0, 600)

def profilePressureRange : Int × Int := (0, 100)

/-- `round(x, 1)`, which leaves a NaN and an infinity alone. -/
inductive Rounded where
  | nan
  | inf (negative : Bool)
  | tenths (n : Int)
  deriving DecidableEq

def roundTenths : Float64 → Rounded
  | .nan => .nan
  | .inf negative => .inf negative
  | .finite x => .tenths (roundEven (10 * x))

/-- The tenths of a number that lies in a range. -/
def Rounded.within (range : Int × Int) : Rounded → Option Int
  | .tenths n => if range.1 ≤ n ∧ n ≤ range.2 then some n else none
  | .nan | .inf _ => none

/-- `_fmt_num` -/
def fmtNum (tenths : Int) : Text :=
  let digits := Nat.toDigits 10 (tenths.natAbs / 10) ++
    if tenths % 10 = 0 then [] else ['.', Nat.digitChar (tenths.natAbs % 10)]
  if tenths < 0 then '-' :: digits else digits

def fmtStep (step : Int × Int) : Text := fmtNum step.1 ++ ':' :: fmtNum step.2

def stepAt (block : List Int) (i : Nat) : Option (Int × Int) :=
  match block[i * 2]?, block[i * 2 + 1]?, block[10 + i]? with
  | some low, some high, some bar => some (low + high * 256, bar)
  | _, _, _ => none

/-- `none` is the `IndexError` of a block that is too short. -/
def decodeProfile (block : List Int) : Option Text :=
  ((List.range profileSteps).mapM (stepAt block)).map fun steps =>
    [' '].intercalate (steps.map fmtStep)

/-- The reasons of the `ValueError`. -/
inductive ProfileError where
  | tooManySteps (count : Nat)
  | notSecondsBar (step : Text)
  | nonNumeric (step : Text)
  | timeOutOfRange (seconds : Rounded)
  | pressureOutOfRange (bar : Rounded)
  deriving DecidableEq

def encodeStep (step : Text) : Except ProfileError (Int × Int) :=
  match step.splitOn ':' with
  | [first, second] =>
    match float first, float second with
    | some x, some y =>
      match (roundTenths x).within profileTimingRange with
      | none => .error (.timeOutOfRange (roundTenths x))
      | some seconds =>
        match (roundTenths y).within profilePressureRange with
        | none => .error (.pressureOutOfRange (roundTenths y))
        | some bar => .ok (seconds, bar)
    | _, _ => .error (.nonNumeric step)
  | _ => .error (.notSecondsBar step)

def encodeSteps : List Text → Except ProfileError (List (Int × Int))
  | [] => .ok []
  | step :: rest =>
    match encodeStep step with
    | .error e => .error e
    | .ok coded => (encodeSteps rest).map (coded :: ·)

/-- The times, low byte first, and after them the pressures; missing steps are zero. -/
def layOut (steps : List (Int × Int)) : List Int :=
  let filled := steps ++ List.replicate (profileSteps - steps.length) (0, 0)
  filled.flatMap (fun s => [s.1 % 256, s.1 / 256 % 256]) ++ filled.map Prod.snd

def encodeProfile (text : Text) : Except ProfileError (List Int) :=
  let steps := words (strip text)
  if profileSteps < steps.length then .error (.tooManySteps steps.length)
  else (encodeSteps steps).map layOut

/-- What a text says, in the spelling of `decode_profile`: each number in tenths, five steps. -/
def canonicalProfile (text : Text) : Text :=
  match encodeSteps (words text) with
  | .ok steps => [' '].intercalate
      ((steps ++ List.replicate (profileSteps - steps.length) (0, 0)).map fmtStep)
  | .error _ => []

/-- A step within the ranges. -/
structure ProfileStep where
  seconds : Nat
  bar : Nat
  seconds_le : seconds ≤ 600
  bar_le : bar ≤ 100

def ProfileStep.pair (s : ProfileStep) : Int × Int := (s.seconds, s.bar)

/-- A profile as such, of which the block and the line are two spellings. -/
structure Profile where
  steps : List ProfileStep
  five : steps.length = profileSteps

namespace Profile

def pairs (p : Profile) : List (Int × Int) := p.steps.map ProfileStep.pair

def block (p : Profile) : List Int := layOut p.pairs

def text (p : Profile) : Text := [' '].intercalate (p.pairs.map fmtStep)

end Profile

/-- A block as the machine has them: fifteen bytes, no time above 60 s, no pressure above 10 bar. -/
structure AdmissibleBlock (block : List Int) : Prop where
  length : block.length = profileLen
  bytes : ∀ b ∈ block, 0 ≤ b ∧ b ≤ 255
  steps : ∀ i < profileSteps, ∃ s, stepAt block i = some s ∧ s.1 ≤ 600 ∧ s.2 ≤ 100

theorem fmtNum_table : ∀ n : Fin 601, Python.decimal (fmtNum n.val) = some ((n.val : ℚ) / 10) ∧
    (fmtNum n.val).all (fun c => c.isDigit || c == '.') = true ∧ (fmtNum n.val).length ≤ 4 := by
  decide +kernel

theorem fmtNum_chars {n : Nat} (small : n ≤ 600) :
    ∀ c ∈ fmtNum n, c.isDigit = true ∨ c = '.' := by
  have row := (fmtNum_table ⟨n, by omega⟩).2.1
  simpa using row

/-- A number is written as what it is read as. -/
theorem float_fmtNum {n : Nat} (small : n ≤ 600) :
    ∃ x, float (fmtNum n) = some x ∧ roundTenths x = .tenths n := by
  have row := (fmtNum_table ⟨n, by omega⟩).1
  dsimp only at row
  have bound : (n : ℚ) ≤ 600 := by exact_mod_cast small
  have positive : (0 : ℚ) ≤ n := by positivity
  obtain ⟨y, near, close⟩ := Python.toFloat64_small (x := (n : ℚ) / 10) (by
    rw [abs_of_nonneg (by linarith)]
    linarith)
  refine ⟨.finite y, ?_, ?_⟩
  · rw [Python.float_plain (fmtNum_chars small), row, Option.map_some, near]
  · rw [roundTenths]
    congr 1
    apply Python.roundEven_eq
    have tiny : (2 : ℚ) ^ (-43 : Int) < 1 / 20 := by norm_num
    have bounds := abs_le.mp close
    push_cast
    rw [abs_lt]
    constructor <;> linarith

theorem solid_of_chars {text : Text} (chars : ∀ c ∈ text, c.isDigit = true ∨ c = '.') :
    ':' ∉ text ∧ ∀ c ∈ text, Python.isSpace c = false := by
  constructor
  · intro member
    rcases chars ':' member with digit | point
    · cases digit
    · cases point
  · intro c member
    have table : ∀ n < 58, (Char.ofNat n).isDigit = true ∨ Char.ofNat n = '.' →
        Python.isSpace (Char.ofNat n) = false := by decide +kernel
    have row := table c.toNat (Python.toNat_of_plain (chars c member))
    rw [Char.ofNat_toNat] at row
    exact row (chars c member)

theorem encodeStep_fmtStep (s : ProfileStep) : encodeStep (fmtStep s.pair) = .ok s.pair := by
  obtain ⟨x, first, seconds⟩ := float_fmtNum s.seconds_le
  obtain ⟨y, second, bar⟩ := float_fmtNum (Nat.le_trans s.bar_le (by decide))
  have parts : (fmtStep s.pair).splitOn ':' = [fmtNum s.seconds, fmtNum s.bar] := by
    rw [fmtStep, ProfileStep.pair, List.splitOn_append_cons_self,
      List.splitOn_eq_singleton (solid_of_chars (fmtNum_chars s.seconds_le)).1,
      List.splitOn_eq_singleton
        (solid_of_chars (fmtNum_chars (Nat.le_trans s.bar_le (by decide)))).1]
    rfl
  have timing : (Rounded.tenths s.seconds).within profileTimingRange = some (s.seconds : Int) := by
    have := s.seconds_le
    rw [Rounded.within, if_pos ⟨by simp [profileTimingRange], by simp [profileTimingRange]; omega⟩]
  have pressure : (Rounded.tenths s.bar).within profilePressureRange = some (s.bar : Int) := by
    have := s.bar_le
    rw [Rounded.within,
      if_pos ⟨by simp [profilePressureRange], by simp [profilePressureRange]; omega⟩]
  simp only [encodeStep, parts, first, second, seconds, bar, timing, pressure]
  rfl

theorem encodeSteps_pairs (steps : List ProfileStep) :
    encodeSteps ((steps.map ProfileStep.pair).map fmtStep) = .ok (steps.map ProfileStep.pair) := by
  induction steps with
  | nil => rfl
  | cons s steps ih =>
    simp only [List.map_cons, encodeSteps, encodeStep_fmtStep, ih, Except.map]

namespace Profile

variable (p : Profile)

theorem length_pairs : p.pairs.length = profileSteps := by
  rw [pairs, List.length_map, p.five]

theorem layOut_full {steps : List (Int × Int)} (five : steps.length = profileSteps) :
    layOut steps = steps.flatMap (fun s => [s.1 % 256, s.1 / 256 % 256]) ++ steps.map Prod.snd := by
  simp only [layOut, five, Nat.sub_self, List.replicate_zero, List.append_nil]

theorem five_steps : ∃ s₀ s₁ s₂ s₃ s₄, p.steps = [s₀, s₁, s₂, s₃, s₄] := by
  obtain ⟨steps, five⟩ := p
  rcases steps with _ | ⟨s₀, _ | ⟨s₁, _ | ⟨s₂, _ | ⟨s₃, _ | ⟨s₄, _ | ⟨s₅, rest⟩⟩⟩⟩⟩⟩ <;>
    simp [profileSteps] at five ⊢

theorem block_eq {s₀ s₁ s₂ s₃ s₄ : ProfileStep} (steps : p.steps = [s₀, s₁, s₂, s₃, s₄]) :
    p.block = [s₀, s₁, s₂, s₃, s₄].flatMap
      (fun s => [(s.seconds : Int) % 256, (s.seconds : Int) / 256 % 256]) ++
        [s₀, s₁, s₂, s₃, s₄].map fun s => (s.bar : Int) := by
  rw [block, layOut_full p.length_pairs, pairs, steps]
  rfl

/-- The two bytes of a time say the time again. -/
theorem low_high (s : ProfileStep) :
    (s.seconds : Int) % 256 + (s.seconds : Int) / 256 % 256 * 256 = s.seconds := by
  have := s.seconds_le
  omega

theorem decodeProfile_block : decodeProfile p.block = some p.text := by
  obtain ⟨s₀, s₁, s₂, s₃, s₄, steps⟩ := p.five_steps
  have read : (List.range profileSteps).mapM (stepAt p.block) = some p.pairs := by
    rw [p.block_eq steps, pairs, steps]
    simp [profileSteps, List.range_succ, stepAt, low_high, ProfileStep.pair]
  rw [decodeProfile, read]
  rfl

theorem encodeProfile_text : encodeProfile p.text = .ok p.block := by
  have solid : ∀ part ∈ p.pairs.map fmtStep,
      part ≠ [] ∧ ∀ c ∈ part, Python.isSpace c = false := by
    intro part member
    obtain ⟨s, -, rfl⟩ : ∃ s ∈ p.steps, fmtStep s.pair = part := by
      simpa [pairs] using member
    refine ⟨by simp [fmtStep], fun c member => ?_⟩
    rcases List.mem_append.mp member with first | rest
    · exact (solid_of_chars (fmtNum_chars s.seconds_le)).2 c first
    · rcases List.mem_cons.mp rest with rfl | second
      · decide
      · exact (solid_of_chars (fmtNum_chars (Nat.le_trans s.bar_le (by decide)))).2 c second
  have parts : words (strip p.text) = p.pairs.map fmtStep := by
    rw [Python.words_strip, text, Python.words_intercalate solid]
  have count : ¬ profileSteps < (p.pairs.map fmtStep).length := by
    rw [List.length_map, p.length_pairs]
    exact lt_irrefl _
  rw [encodeProfile, parts, if_neg count, pairs, encodeSteps_pairs]
  rfl

theorem length_text : p.text.length ≤ 64 := by
  obtain ⟨s₀, s₁, s₂, s₃, s₄, steps⟩ := p.five_steps
  have short : ∀ s : ProfileStep, (fmtStep s.pair).length ≤ 9 := by
    intro s
    have first := (fmtNum_table ⟨s.seconds, by have := s.seconds_le; omega⟩).2.2
    have second := (fmtNum_table ⟨s.bar, by have := s.bar_le; omega⟩).2.2
    simp only [fmtStep, ProfileStep.pair, List.length_append, List.length_cons]
    dsimp only at first second
    omega
  have h₀ := short s₀
  have h₁ := short s₁
  have h₂ := short s₂
  have h₃ := short s₃
  have h₄ := short s₄
  simp only [text, pairs, steps, List.map_cons, List.map_nil, List.intercalate_cons_cons,
    List.intercalate_singleton, List.length_append, List.length_singleton]
  omega

end Profile

theorem Profile.admissible (p : Profile) : AdmissibleBlock p.block := by
  obtain ⟨s₀, s₁, s₂, s₃, s₄, steps⟩ := p.five_steps
  have block := p.block_eq steps
  refine ⟨by rw [block]; rfl, fun b member => ?_, fun i small => ?_⟩
  · rw [block] at member
    have bytes : ∀ s : ProfileStep, (0 ≤ (s.seconds : Int) % 256 ∧ (s.seconds : Int) % 256 ≤ 255) ∧
        (0 ≤ (s.seconds : Int) / 256 % 256 ∧ (s.seconds : Int) / 256 % 256 ≤ 255) ∧
        0 ≤ (s.bar : Int) ∧ (s.bar : Int) ≤ 255 := by
      intro s
      have := s.seconds_le
      have := s.bar_le
      omega
    rcases List.mem_append.mp member with time | pressure
    · obtain ⟨s, -, this⟩ := List.mem_flatMap.mp time
      rcases List.mem_pair.mp this with rfl | rfl
      · exact (bytes s).1
      · exact (bytes s).2.1
    · obtain ⟨s, -, rfl⟩ := List.mem_map.mp pressure
      exact (bytes s).2.2
  · have read : ∀ s : ProfileStep,
        (s.seconds : Int) % 256 + (s.seconds : Int) / 256 % 256 * 256 ≤ 600 ∧
          (s.bar : Int) ≤ 100 := by
      intro s
      rw [Profile.low_high]
      exact ⟨by exact_mod_cast s.seconds_le, by exact_mod_cast s.bar_le⟩
    rw [block]
    simp only [profileSteps] at small
    interval_cases i
    exacts [⟨_, rfl, read s₀⟩, ⟨_, rfl, read s₁⟩, ⟨_, rfl, read s₂⟩, ⟨_, rfl, read s₃⟩,
      ⟨_, rfl, read s₄⟩]

/-- The step that the bytes of an admissible block say at one place. -/
theorem AdmissibleBlock.step {block : List Int} (admissible : AdmissibleBlock block) {i : Nat}
    (small : i < profileSteps) : ∃ s : ProfileStep,
      block[i * 2]? = some ((s.seconds : Int) % 256) ∧
      block[i * 2 + 1]? = some ((s.seconds : Int) / 256 % 256) ∧
      block[10 + i]? = some (s.bar : Int) := by
  obtain ⟨s, read, times, pressure⟩ := admissible.steps i small
  unfold stepAt at read
  split at read
  · rename_i low high bar first second third
    cases read
    have hl := admissible.bytes low (List.mem_of_getElem? first)
    have hh := admissible.bytes high (List.mem_of_getElem? second)
    have hb := admissible.bytes bar (List.mem_of_getElem? third)
    dsimp only at times pressure
    refine ⟨⟨(low + high * 256).toNat, bar.toNat, by omega, by omega⟩, ?_, ?_, ?_⟩
    · rw [first]
      congr 1
      dsimp only
      omega
    · rw [second]
      congr 1
      dsimp only
      omega
    · rw [third]
      congr 1
      dsimp only
      omega
  · cases read

/-- Every such block is that of a profile. -/
theorem AdmissibleBlock.exists_profile {block : List Int} (admissible : AdmissibleBlock block) :
    ∃ p : Profile, p.block = block := by
  obtain ⟨s₀, l₀, h₀, p₀⟩ := admissible.step (i := 0) (by decide)
  obtain ⟨s₁, l₁, h₁, p₁⟩ := admissible.step (i := 1) (by decide)
  obtain ⟨s₂, l₂, h₂, p₂⟩ := admissible.step (i := 2) (by decide)
  obtain ⟨s₃, l₃, h₃, p₃⟩ := admissible.step (i := 3) (by decide)
  obtain ⟨s₄, l₄, h₄, p₄⟩ := admissible.step (i := 4) (by decide)
  refine ⟨⟨[s₀, s₁, s₂, s₃, s₄], rfl⟩, ?_⟩
  rw [Profile.block_eq ⟨[s₀, s₁, s₂, s₃, s₄], rfl⟩ rfl]
  apply List.ext_getElem?
  intro j
  by_cases inside : j < 15
  · interval_cases j
    exacts [l₀.symm, h₀.symm, l₁.symm, h₁.symm, l₂.symm, h₂.symm, l₃.symm, h₃.symm, l₄.symm,
      h₄.symm, p₀.symm, p₁.symm, p₂.symm, p₃.symm, p₄.symm]
  · have length := admissible.length
    rw [profileLen] at length
    rw [List.getElem?_eq_none (l := block) (by omega)]
    exact List.getElem?_eq_none (Nat.le_of_not_lt inside)

/-- Why a word is no step: it is not two numerals with a colon between them, or a number is out
of range in tenths. -/
inductive RefusedStep (step : Text) : Prop where
  | shape (other : ∀ first second, step.splitOn ':' ≠ [first, second])
  | numeral {first second : Text} (parts : step.splitOn ':' = [first, second])
      (unread : float first = none ∨ float second = none)
  | range {first second : Text} {x y : Float64} (parts : step.splitOn ':' = [first, second])
      (seconds : float first = some x) (bar : float second = some y)
      (outside : (roundTenths x).within profileTimingRange = none ∨
        (roundTenths y).within profilePressureRange = none)

def RefusedProfile (text : Text) : Prop :=
  profileSteps < (words text).length ∨ ∃ step ∈ words text, RefusedStep step

theorem within_some {range : Int × Int} {x : Rounded} {n : Int}
    (h : x.within range = some n) : range.1 ≤ n ∧ n ≤ range.2 := by
  cases x with
  | nan | inf _ => cases h
  | tenths m =>
    simp only [Rounded.within] at h
    split at h
    · rename_i inside
      cases h
      exact inside
    · cases h

/-- A word is refused, or it is a step. -/
theorem encodeStep_cases (step : Text) :
    (RefusedStep step ∧ ∃ e, encodeStep step = .error e) ∨
      ∃ s : ProfileStep, encodeStep step = .ok s.pair := by
  unfold encodeStep
  split
  · rename_i first second parts
    split
    · rename_i x y readX readY
      split
      · rename_i outside
        exact Or.inl ⟨.range parts readX readY (Or.inl outside), _, rfl⟩
      · rename_i n seconds
        split
        · rename_i outside
          exact Or.inl ⟨.range parts readX readY (Or.inr outside), _, rfl⟩
        · rename_i m bar
          have first_ := within_some seconds
          have second_ := within_some bar
          simp only [profileTimingRange, profilePressureRange] at first_ second_
          refine Or.inr ⟨⟨n.toNat, m.toNat, by omega, by omega⟩, ?_⟩
          simp only [ProfileStep.pair, Int.toNat_of_nonneg first_.1, Int.toNat_of_nonneg second_.1]
    · rename_i unread
      refine Or.inl ⟨.numeral parts ?_, _, rfl⟩
      cases readX : float first with
      | none => exact Or.inl rfl
      | some x =>
        cases readY : float second with
        | none => exact Or.inr rfl
        | some y => exact absurd readY (unread x y readX)
  · rename_i other
    exact Or.inl ⟨.shape other, _, rfl⟩

theorem RefusedStep.error {step : Text} (refused : RefusedStep step) :
    ∃ e, encodeStep step = .error e := by
  rcases encodeStep_cases step with ⟨-, failed⟩ | ⟨s, coded⟩
  · exact failed
  · unfold encodeStep at coded
    cases refused with
    | shape other =>
      split at coded
      · rename_i parts
        exact absurd parts (other _ _)
      · cases coded
    | numeral parts unread => rcases unread with unread | unread <;> simp [parts, unread] at coded
    | range parts seconds bar outside =>
      rcases outside with outside | outside
      · simp [parts, seconds, bar, outside] at coded
      · simp only [parts, seconds, bar, outside] at coded
        split at coded <;> cases coded

theorem encodeSteps_cases (texts : List Text) :
    ((∃ step ∈ texts, RefusedStep step) ∧ ∃ e, encodeSteps texts = .error e) ∨
      ((∀ step ∈ texts, ¬ RefusedStep step) ∧ ∃ steps : List ProfileStep,
        steps.length = texts.length ∧
        encodeSteps texts = .ok (steps.map ProfileStep.pair)) := by
  induction texts with
  | nil => exact Or.inr ⟨by simp, [], rfl, rfl⟩
  | cons step texts ih =>
    rcases encodeStep_cases step with ⟨refused, e, failed⟩ | ⟨s, coded⟩
    · exact Or.inl ⟨⟨step, List.mem_cons_self, refused⟩, e, by simp only [encodeSteps, failed]⟩
    · have fine : ¬ RefusedStep step := by
        intro refused
        obtain ⟨e, failed⟩ := refused.error
        rw [coded] at failed
        cases failed
      rcases ih with ⟨⟨other, member, refused⟩, e, failed⟩ | ⟨fineAll, steps, count, codedAll⟩
      · refine Or.inl ⟨⟨other, List.mem_cons_of_mem _ member, refused⟩, e, ?_⟩
        simp only [encodeSteps, coded, failed, Except.map]
      · refine Or.inr ⟨?_, s :: steps, by simp [count], ?_⟩
        · simpa using ⟨fine, fineAll⟩
        · simp only [encodeSteps, coded, codedAll, Except.map, List.map_cons]

/-- Fewer than five steps, and zeros in place of the others. -/
def Profile.fill (steps : List ProfileStep) (few : steps.length ≤ profileSteps) : Profile where
  steps := steps ++ List.replicate (profileSteps - steps.length) ⟨0, 0, by decide, by decide⟩
  five := by
    rw [List.length_append, List.length_replicate]
    omega

theorem Profile.pairs_fill (steps : List ProfileStep) (few : steps.length ≤ profileSteps) :
    (Profile.fill steps few).pairs = steps.map ProfileStep.pair ++
      List.replicate (profileSteps - (steps.map ProfileStep.pair).length) (0, 0) := by
  have zeros : (List.replicate (profileSteps - steps.length)
      (⟨0, 0, by decide, by decide⟩ : ProfileStep)).map ProfileStep.pair =
        List.replicate (profileSteps - steps.length) ((0 : Int), (0 : Int)) := by
    rw [List.map_replicate]
    rfl
  rw [Profile.pairs, Profile.fill, List.map_append, zeros, List.length_map]

theorem Profile.block_fill (steps : List ProfileStep) (few : steps.length ≤ profileSteps) :
    (Profile.fill steps few).block = layOut (steps.map ProfileStep.pair) := by
  rw [Profile.block, Profile.layOut_full (Profile.length_pairs _), Profile.pairs_fill, layOut]

/-- A text is refused, or its block is that of a profile. -/
theorem encodeProfile_cases (text : Text) :
    (RefusedProfile text ∧ ∃ e, encodeProfile text = .error e) ∨
      (¬ RefusedProfile text ∧
        ∃ p : Profile, encodeProfile text = .ok p.block ∧ canonicalProfile text = p.text) := by
  unfold encodeProfile RefusedProfile
  rw [Python.words_strip]
  dsimp only
  by_cases many : profileSteps < (words text).length
  · exact Or.inl ⟨Or.inl many, _, by rw [if_pos many]⟩
  · rw [if_neg many]
    rcases encodeSteps_cases (words text) with ⟨refused, e, failed⟩ | ⟨fine, steps, count, coded⟩
    · exact Or.inl ⟨Or.inr refused, e, by rw [failed]; rfl⟩
    · refine Or.inr ⟨?_, Profile.fill steps (by omega), ?_, ?_⟩
      · rintro (tooMany | ⟨step, member, refused⟩)
        · exact many tooMany
        · exact fine step member refused
      · rw [coded, Profile.block_fill]
        rfl
      · rw [canonicalProfile, coded, Profile.text, Profile.pairs_fill]

/-- What is encoded decodes to the canonical spelling of the text. -/
theorem decodeProfile_encoded {text : Text} {coded : List Int}
    (encoded : encodeProfile text = .ok coded) :
    coded.length = profileLen ∧ (∀ b ∈ coded, 0 ≤ b ∧ b ≤ 255) ∧
      decodeProfile coded = some (canonicalProfile text) := by
  rcases encodeProfile_cases text with ⟨-, e, failed⟩ | ⟨-, p, same, canonical⟩
  · rw [failed] at encoded
    cases encoded
  · rw [same] at encoded
    cases encoded
    exact ⟨p.admissible.length, p.admissible.bytes, canonical ▸ p.decodeProfile_block⟩

/-- The text and the block of a profile are inverse: an admissible block is decoded to a line of
at most 64 characters, from which it is encoded again; and a text is refused exactly for its number
of words, for a word that is no step or for a number out of range, or its block is admissible and
decoding and encoding that gives it back. -/
theorem profile_codec (block : List Int) (text : Text) :
    (AdmissibleBlock block → ∃ line, decodeProfile block = some line ∧ line.length ≤ 64 ∧
      encodeProfile line = .ok block) ∧
    ((∃ e, encodeProfile text = .error e) ↔ RefusedProfile text) ∧
    ∀ coded, encodeProfile text = .ok coded → AdmissibleBlock coded ∧
      ∃ line, decodeProfile coded = some line ∧ encodeProfile line = .ok coded := by
  refine ⟨?_, ?_, ?_⟩
  · intro admissible
    obtain ⟨p, rfl⟩ := admissible.exists_profile
    exact ⟨p.text, p.decodeProfile_block, p.length_text, p.encodeProfile_text⟩
  · rcases encodeProfile_cases text with ⟨refused, failed⟩ | ⟨fine, p, coded, -⟩
    · exact iff_of_true failed refused
    · exact iff_of_false (by simp [coded]) fine
  · intro coded same
    rcases encodeProfile_cases text with ⟨-, e, failed⟩ | ⟨-, p, coded', -⟩
    · rw [failed] at same
      cases same
    · rw [coded'] at same
      cases same
      exact ⟨p.admissible, p.text, p.decodeProfile_block, p.encodeProfile_text⟩

/-- The block of `3:3 6:6 25:9 0:9 0:6`. -/
theorem profile_codec_lever :
    ∃ line, decodeProfile [30, 0, 60, 0, 250, 0, 0, 0, 0, 0, 30, 60, 90, 90, 60] = some line ∧
      encodeProfile line = .ok [30, 0, 60, 0, 250, 0, 0, 0, 0, 0, 30, 60, 90, 90, 60] := by
  have admissible : AdmissibleBlock [30, 0, 60, 0, 250, 0, 0, 0, 0, 0, 30, 60, 90, 90, 60] := by
    refine ⟨rfl, by decide, fun i small => ?_⟩
    simp only [profileSteps] at small
    interval_cases i <;> exact ⟨_, rfl, by decide, by decide⟩
  obtain ⟨line, decoded, -, encoded⟩ := (profile_codec _ []).1 admissible
  exact ⟨line, decoded, encoded⟩

end R60V.Integration
