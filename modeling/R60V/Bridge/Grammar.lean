import R60V.Bridge.Framing

/-! The documented grammar of a frame, and what `parse_frame` makes of it. A frame is cut at fixed
places, so everything depends on which texts `int(text, 16)` reads: hex digits, and also numerals
with signs, blanks, underscores and `0x`. -/
namespace R60V.Protocol

open Python (Text int)

def isHexDigit (c : Char) : Bool := (Python.digitValue c).any (· < 16)

def AllHex (text : Text) : Prop := ∀ c ∈ text, isHexDigit c = true

def hexValue (text : Text) : Nat := Python.ofDigits 16 (text.filterMap Python.digitValue)

-- What `int` lets pass in a numeral besides digits.
def isLoose (c : Char) : Bool := Python.isBlank c || ['+', '-', '_', 'x', 'X'].contains c

def Loose (text : Text) : Prop := ∃ c ∈ text, isLoose c = true

/-- What `decode("ascii", "replace")` makes of a byte. -/
def Decoded (c : Char) : Prop := c.toNat < 128 ∨ c = Char.ofNat 0xFFFD

instance (c : Char) : Decidable (Decoded c) := inferInstanceAs (Decidable (_ ∨ _))

instance (text : Text) : Decidable (AllHex text) := List.decidableBAll _ text

instance (text : Text) : Decidable (Loose text) := List.decidableBEx _ text

theorem toNat_of_isHexDigit {c : Char} (h : isHexDigit c = true) : c.toNat < 128 := by
  unfold isHexDigit Python.digitValue at h
  split at h
  · rename_i range
    have : c.toNat ≤ '9'.toNat := range.2
    exact lt_of_le_of_lt this (by decide)
  · split at h
    · rename_i range
      have : c.toNat ≤ 'z'.toNat := range.2
      exact lt_of_le_of_lt this (by decide)
    · split at h
      · rename_i range
        have : c.toNat ≤ 'Z'.toNat := range.2
        exact lt_of_le_of_lt this (by decide)
      · cases h

theorem isHexDigit_facts {c : Char} (h : isHexDigit c = true) :
    Python.toAscii c = c ∧ isLoose c = false ∧ c ≠ 'O' ∧
    ∃ d < 16, Python.digitValue c = some d ∧ c.toUpper = hexDigit d := by
  have table : ∀ n < 128, isHexDigit (Char.ofNat n) = true →
      Python.toAscii (Char.ofNat n) = Char.ofNat n ∧ isLoose (Char.ofNat n) = false ∧
      Char.ofNat n ≠ 'O' ∧ ∃ d < 16, Python.digitValue (Char.ofNat n) = some d ∧
        (Char.ofNat n).toUpper = hexDigit d := by
    decide +kernel
  have facts := table c.toNat (toNat_of_isHexDigit h)
  rw [Char.ofNat_toNat] at facts
  exact facts h

theorem isHexDigit_hexDigit {d : Nat} (h : d < 16) : isHexDigit (hexDigit d) = true := by
  rw [isHexDigit, (hexDigit_facts d h).2.2.2.2.2.2.2.2.2]
  simpa using h

theorem isLoose_false {c : Char} (h : isLoose c = false) : Python.isBlank c = false ∧ c ≠ '-' ∧
    c ≠ '+' ∧ c ≠ '_' ∧ c ≠ 'x' ∧ c ≠ 'X' := by
  simp only [isLoose, Bool.or_eq_false_iff, List.contains_eq_mem, decide_eq_false_iff_not,
    List.mem_cons, List.not_mem_nil, or_false, not_or] at h
  obtain ⟨blank, plus, minus, underscore, x, upperX⟩ := h
  exact ⟨blank, minus, plus, underscore, x, upperX⟩

/-- Where nothing loose is left, `int` is the plain digit reader. -/
theorem int_plain {text : Text} (ne : text ≠ []) (ascii : text.map Python.toAscii = text)
    (plain : ¬ Loose text) :
    int 16 text =
      (Python.digitRun 16 true text).map (fun ds => (Python.ofDigits 16 ds : Int)) := by
  have tight : ∀ c ∈ text, isLoose c = false := fun c member => by
    simpa using fun loose => plain ⟨c, member, loose⟩
  have facts := fun c member => isLoose_false (tight c member)
  have trimmed : Python.trim Python.isBlank text = text :=
    Python.trim_none (fun c member => (facts c member).1)
  cases text with
  | nil => exact absurd rfl ne
  | cons c rest =>
    obtain ⟨-, minus, plus, underscore, -, -⟩ := facts c List.mem_cons_self
    have unsigned : Python.splitSign (c :: rest) = (false, c :: rest) := by
      unfold Python.splitSign
      split
      · rename_i h; exact absurd (List.cons.inj h).1 minus
      · rename_i h; exact absurd (List.cons.inj h).1 plus
      · rfl
    have start : Python.digitRun 16 false (c :: rest) = Python.digitRun 16 true (c :: rest) := by
      simp [Python.digitRun, underscore]
    have bare := dropHexPrefix_id (fun c member => (facts c member).2.2.2.2)
    simp only [int, ascii, trimmed, unsigned, if_true, bare, start]
    cases Python.digitRun 16 true (c :: rest) <;> simp

theorem digitRun_plain {text : Text} (plain : ¬ Loose text) :
    Python.digitRun 16 true text =
      if AllHex text then some (text.filterMap Python.digitValue) else none := by
  induction text with
  | nil => rfl
  | cons c rest ih =>
    have underscore : c ≠ '_' := by
      rintro rfl
      exact plain ⟨'_', List.mem_cons_self, by decide⟩
    have ih := ih fun ⟨x, member, loose⟩ => plain ⟨x, List.mem_cons_of_mem c member, loose⟩
    have split : AllHex (c :: rest) ↔ isHexDigit c = true ∧ AllHex rest := List.forall_mem_cons
    rw [Python.digitRun, if_neg underscore]
    cases digit : Python.digitValue c with
    | none =>
      have : ¬ AllHex (c :: rest) := by simp [split, isHexDigit, digit]
      rw [if_neg this]
    | some d =>
      by_cases small : d < 16
      · have same : AllHex (c :: rest) ↔ AllHex rest := by simp [split, isHexDigit, digit, small]
        simp only [small, if_true, ih, same, List.filterMap_cons_some digit]
        split <;> rfl
      · have : ¬ AllHex (c :: rest) := by simp [split, isHexDigit, digit, small]
        simp only [small, if_false, if_neg this]

theorem plain_of_allHex {text : Text} (hex : AllHex text) : ¬ Loose text := by
  rintro ⟨c, member, loose⟩
  simp [(isHexDigit_facts (hex c member)).2.1] at loose

/-- `int` reads hex digits, of either case, as what they mean. -/
theorem int_allHex {text : Text} (ne : text ≠ []) (hex : AllHex text) :
    int 16 text = some (hexValue text : Int) := by
  have ascii : text.map Python.toAscii = text :=
    (List.map_congr_left fun c member => (isHexDigit_facts (hex c member)).1).trans
      (List.map_id' text)
  have plain := plain_of_allHex hex
  rw [int_plain ne ascii plain, digitRun_plain plain, if_pos hex, Option.map_some, hexValue]

theorem toAscii_decoded {c : Char} (decoded : Decoded c) :
    Python.toAscii c = c ∨ (Python.toAscii c = '?' ∧ isHexDigit c = false) := by
  rcases decoded with ascii | rfl
  · have table : ∀ n < 128, Python.toAscii (Char.ofNat n) = Char.ofNat n ∨
        (Python.toAscii (Char.ofNat n) = '?' ∧ isHexDigit (Char.ofNat n) = false) := by
      decide +kernel
    have facts := table c.toNat ascii
    rwa [Char.ofNat_toNat] at facts
  · decide +kernel

/-- A received text that `int` reads without its leniency is all hex digits. -/
theorem allHex_of_int {text : Text} {n : Int} (decoded : ∀ c ∈ text, Decoded c)
    (plain : ¬ Loose text) (read : int 16 text = some n) : text ≠ [] ∧ AllHex text := by
  have ne : text ≠ [] := by
    rintro rfl
    cases read
  refine ⟨ne, ?_⟩
  have still : (text.map Python.toAscii).map Python.toAscii = text.map Python.toAscii := by
    rw [List.map_map]
    apply List.map_congr_left
    intro c member
    rcases toAscii_decoded (decoded c member) with same | ⟨mark, -⟩
    · simp only [Function.comp, same]
    · simp only [Function.comp, mark]
      decide
  have plain' : ¬ Loose (text.map Python.toAscii) := by
    rintro ⟨_, mapped, loose⟩
    obtain ⟨c, member, rfl⟩ := List.mem_map.mp mapped
    rcases toAscii_decoded (decoded c member) with same | ⟨mark, -⟩
    · exact plain ⟨c, member, same ▸ loose⟩
    · rw [mark] at loose
      cases loose
  have same : int 16 text = int 16 (text.map Python.toAscii) := by simp only [int, still]
  rw [same, int_plain (by simpa using ne) still plain', digitRun_plain plain'] at read
  by_cases hex : AllHex (text.map Python.toAscii)
  · intro c member
    have digit := hex _ (List.mem_map_of_mem member)
    rcases toAscii_decoded (decoded c member) with kept | ⟨mark, -⟩
    · rwa [kept] at digit
    · rw [mark] at digit
      cases digit
  · rw [if_neg hex] at read
    cases read

theorem hexValue_lt {text : Text} (hex : AllHex text) : hexValue text < 16 ^ text.length := by
  have bound : ∀ (ds : List Nat) (k : Nat), (∀ d ∈ ds, d < 16) →
      ds.foldl (fun n d => n * 16 + d) k < (k + 1) * 16 ^ ds.length := by
    intro ds
    induction ds with
    | nil => intro k _; simp
    | cons d ds ih =>
      intro k small
      have first := small d List.mem_cons_self
      have step := ih (k * 16 + d) fun x member => small x (List.mem_cons_of_mem d member)
      calc ds.foldl (fun n d => n * 16 + d) (k * 16 + d)
          < (k * 16 + d + 1) * 16 ^ ds.length := step
        _ ≤ (k + 1) * 16 * 16 ^ ds.length := Nat.mul_le_mul_right _ (by omega)
        _ = (k + 1) * 16 ^ (d :: ds).length := by rw [List.length_cons, Nat.pow_succ]; ring
  have digits : ∀ d ∈ text.filterMap Python.digitValue, d < 16 := by
    intro d member
    obtain ⟨c, inText, value⟩ := List.mem_filterMap.mp member
    simpa [isHexDigit, value] using hex c inText
  have count : (text.filterMap Python.digitValue).length ≤ text.length :=
    List.length_filterMap_le _ _
  have value := bound _ 0 digits
  rw [Nat.zero_add, Nat.one_mul] at value
  exact lt_of_lt_of_le value (Nat.pow_le_pow_right (by decide) count)

-- The data that pairs of hex digits stand for.
def hexBytes : Text → List Int
  | a :: b :: rest => (hexValue [a, b] : Int) :: hexBytes rest
  | _ => []

theorem hexPairs_allHex {text : Text} (hex : AllHex text) (even : text.length % 2 = 0) :
    hexPairs text = some (hexBytes text) := by
  fun_induction hexBytes text with
  | case1 a b rest ih =>
    have pair : AllHex [a, b] := fun c member => hex c (List.mem_append_left rest member)
    have rest' : AllHex rest := fun c member => hex c (by simp [member])
    have even' : rest.length % 2 = 0 := by simp only [List.length_cons] at even; omega
    rw [hexPairs, int_allHex (by simp) pair, ih rest' even']
    rfl
  | case2 text other =>
    rcases text with _ | ⟨a, _ | ⟨b, rest⟩⟩
    · rfl
    · simp at even
    · exact absurd rfl (other a b rest)

theorem allHex_of_hexPairs {text : Text} {data : List Int} (decoded : ∀ c ∈ text, Decoded c)
    (plain : ¬ Loose text) (read : hexPairs text = some data) : AllHex text := by
  fun_induction hexPairs text generalizing data with
  | case1 => exact fun _ member => by cases member
  | case2 => cases read
  | case3 a b rest x number ih =>
    obtain ⟨tail, pairs, -⟩ := Option.map_eq_some_iff.mp read
    have plainPair : ¬ Loose [a, b] := by
      rintro ⟨c, member, loose⟩
      exact plain ⟨c, List.mem_append_left rest member, loose⟩
    have plainRest : ¬ Loose rest := by
      rintro ⟨c, member, loose⟩
      exact plain ⟨c, by simp [member], loose⟩
    have first := (allHex_of_int
      (fun c member => decoded c (List.mem_append_left rest member)) plainPair number).2
    have others := ih (fun c member => decoded c (by simp [member])) plainRest pairs
    intro c member
    rcases List.mem_append.mp (show c ∈ [a, b] ++ rest from member) with member | member
    · exact first c member
    · exact others c member
  | case4 => cases read

theorem bytes_hexBytes {text : Text} (hex : AllHex text) : ∀ b ∈ hexBytes text, Byte b := by
  fun_induction hexBytes text with
  | case1 a b rest ih =>
    intro x member
    rcases List.mem_cons.mp member with rfl | member
    · have pair : AllHex [a, b] := fun c member => hex c (List.mem_append_left rest member)
      have : hexValue [a, b] < 256 := hexValue_lt pair
      constructor <;> omega
    · exact ih (fun c member => hex c (by simp [member])) x member
  | case2 => exact fun _ member => by cases member

/-- The places at which a frame is cut, whatever is found there. -/
structure Cut where
  command : Command
  address : Text
  length : Text
  payload : Text
  checksum : Text
  address_four : address.length = 4
  length_four : length.length = 4
  checksum_two : checksum.length = 2

namespace Cut

def body (cut : Cut) : Text :=
  cut.command.char :: (cut.address ++ (cut.length ++ cut.payload))

def text (cut : Cut) : Text := cut.body ++ cut.checksum

theorem length_body (cut : Cut) : cut.body.length = cut.payload.length + 9 := by
  simp only [body, List.length_cons, List.length_append, cut.address_four, cut.length_four]
  omega

theorem length_text (cut : Cut) : cut.text.length = cut.body.length + 2 := by
  rw [text, List.length_append, cut.checksum_two]

theorem take_text (cut : Cut) : cut.text.take (cut.text.length - 2) = cut.body := by
  rw [length_text]
  exact List.take_left' (by omega)

theorem drop_text (cut : Cut) : cut.text.drop (cut.text.length - 2) = cut.checksum := by
  rw [length_text]
  exact List.drop_left' (by omega)

theorem slice_address (cut : Cut) : slice cut.text 1 5 = cut.address := by
  simp only [slice, text, body, List.cons_append, List.append_assoc, List.drop_succ_cons,
    List.drop_zero]
  exact List.take_left' cut.address_four

theorem slice_length (cut : Cut) : slice cut.text 5 9 = cut.length := by
  simp only [slice, text, body, List.cons_append, List.append_assoc, List.drop_succ_cons]
  rw [List.drop_left' cut.address_four]
  exact List.take_left' cut.length_four

theorem drop_body (cut : Cut) : cut.body.drop 9 = cut.payload := by
  simp only [body, List.drop_succ_cons]
  rw [← List.append_assoc]
  exact List.drop_left' (by simp [cut.address_four, cut.length_four])

theorem ext_body {cut other : Cut} (same : cut.body = other.body) :
    cut.command = other.command ∧ cut.address = other.address ∧ cut.length = other.length ∧
      cut.payload = other.payload := by
  have fields := List.cons.inj same
  have commands : cut.command = other.command := by
    have chars : cut.command.char = other.command.char := fields.1
    cases h : cut.command <;> cases h' : other.command <;> simp [h, h', Command.char] at chars ⊢
  obtain ⟨address, rest⟩ := List.append_inj fields.2
    (cut.address_four.trans other.address_four.symm)
  obtain ⟨length, payload⟩ := List.append_inj rest (cut.length_four.trans other.length_four.symm)
  exact ⟨commands, address, length, payload⟩

theorem ext_text {cut other : Cut} (same : cut.text = other.text) : cut = other := by
  obtain ⟨bodies, checksum⟩ := List.append_inj' same
    (cut.checksum_two.trans other.checksum_two.symm)
  obtain ⟨command, address, length, payload⟩ := ext_body bodies
  cases cut
  cases other
  simp_all

end Cut

theorem char_of_ofChar {c : Char} {command : Command} (h : Command.ofChar c = some command) :
    c = command.char := by
  unfold Command.ofChar at h
  split at h
  · rename_i same
    cases h
    exact same
  · split at h
    · rename_i same
      cases h
      exact same
    · cases h

theorem exists_cut {raw : Text} (long : ¬ raw.length < 11) {command : Command}
    (first : Command.ofChar (raw.headD ' ') = some command) :
    ∃ cut : Cut, cut.text = raw ∧ cut.command = command := by
  cases raw with
  | nil => simp at long
  | cons c rest =>
    simp only [List.length_cons, not_lt] at long
    have char : c = command.char := char_of_ofChar first
    refine ⟨⟨command, rest.take 4, (rest.drop 4).take 4, (rest.drop 8).take (rest.length - 10),
      rest.drop (rest.length - 2), by simp; omega, by simp; omega, by simp; omega⟩, ?_, rfl⟩
    have fields : rest.take 8 = rest.take 4 ++ (rest.drop 4).take 4 :=
      List.take_add (i := 4) (j := 4)
    have tail : rest.drop 8 =
        (rest.drop 8).take (rest.length - 10) ++ rest.drop (rest.length - 2) := by
      conv_lhs => rw [← List.take_append_drop (rest.length - 10) (rest.drop 8)]
      rw [List.drop_drop]
      congr 2
      omega
    simp only [Cut.text, Cut.body, char, List.cons_append, List.cons.injEq, true_and,
      List.append_assoc]
    rw [← tail, ← List.append_assoc, ← fields, List.take_append_drop]

/-- What `parse_frame` does, at the places where it cuts. -/
theorem parseFrame_cut (verify : Bool) (cut : Cut) : parseFrame verify cut.text =
    match int 16 cut.address, int 16 cut.length with
    | some address, some length =>
      match payloadData cut.payload with
      | .error e => .error e
      | .ok data =>
        if verify ∧ checksum cut.body ≠ cut.checksum.map Char.toUpper then
          .error (.checksumMismatch cut.text cut.checksum (checksum cut.body))
        else .ok ⟨cut.command, address, length, data, cut.checksum, cut.text⟩
    | _, _ => .error (.badEnvelope cut.text) := by
  have long : ¬ cut.text.length < 11 := by rw [cut.length_text, cut.length_body]; omega
  have head : Command.ofChar (cut.text.headD ' ') = some cut.command := by
    simp only [Cut.text, Cut.body, List.cons_append, List.headD_cons]
    cases cut.command <;> rfl
  have parsed := parseFrame.eq_1 verify cut.text
  simp only [if_neg long, head, cut.slice_address, cut.slice_length, cut.take_text,
    cut.drop_text, cut.drop_body] at parsed
  exact parsed

/-- What an accepted frame says at each place. -/
structure Cut.Reads (cut : Cut) (address length : Int) (data : List Int) : Prop where
  address : int 16 cut.address = some address
  length : int 16 cut.length = some length
  payload : payloadData cut.payload = .ok data
  checksum : Protocol.checksum cut.body = cut.checksum.map Char.toUpper

theorem parseFrame_ok_iff {raw : Text} {f : Frame} : parseFrame true raw = .ok f ↔
    ∃ cut : Cut, cut.text = raw ∧ cut.Reads f.address f.length f.data ∧
      f = ⟨cut.command, f.address, f.length, f.data, cut.checksum, raw⟩ := by
  constructor
  · intro parsed
    have shape := parsed
    unfold parseFrame at shape
    split at shape
    · cases shape
    · rename_i long
      split at shape
      · cases shape
      · rename_i command first
        obtain ⟨cut, rfl, -⟩ := exists_cut long first
        clear shape
        rw [parseFrame_cut] at parsed
        split at parsed
        · rename_i address length
          split at parsed
          · cases parsed
          · rename_i payload
            split at parsed
            · cases parsed
            · rename_i sum
              cases parsed
              exact ⟨cut, rfl, ⟨address, length, payload, by simpa using sum⟩, rfl⟩
        · cases parsed
  · rintro ⟨cut, rfl, reads, same⟩
    rw [parseFrame_cut, reads.address, reads.length]
    simp only [reads.payload, reads.checksum, ne_eq, not_true_eq_false, and_false, if_false]
    rw [← same]

theorem Cut.Reads.parsed {cut : Cut} {address length : Int} {data : List Int}
    (reads : cut.Reads address length data) : parseFrame true cut.text =
      .ok ⟨cut.command, address, length, data, cut.checksum, cut.text⟩ :=
  parseFrame_ok_iff.mpr ⟨cut, rfl, reads, rfl⟩

/-- The documented grammar: hex digits of either case, and a payload of `length` bytes, except
that a read may carry none and a write may carry `OK`. -/
structure Cut.Documented (cut : Cut) : Prop where
  address : AllHex cut.address
  length : AllHex cut.length
  payload : (AllHex cut.payload ∧ cut.payload.length = 2 * hexValue cut.length) ∨
    (cut.command = .read ∧ cut.payload = []) ∨ (cut.command = .write ∧ cut.payload = ack)
  checksum : AllHex cut.checksum
  sum : hexValue cut.checksum = (cut.body.map Char.toNat).sum % 256

def Documented (raw : Text) : Prop := ∃ cut : Cut, cut.text = raw ∧ cut.Documented

/-- The ways in which a frame that reads well leaves the grammar. -/
inductive Cut.Lenient (cut : Cut) (length : Int) : Prop where
  | address (loose : Loose cut.address)
  | length (loose : Loose cut.length)
  | data (loose : Loose cut.payload)
  | count (carries : cut.payload ≠ ack) (other : (cut.payload.length : Int) ≠ 2 * length)
      (some_ : ¬ (cut.command = .read ∧ cut.payload = []))
  | ack (isRead : cut.command = .read) (isAck : cut.payload = ack)

def Misread (raw : Text) : Prop :=
  ∃ (cut : Cut) (address length : Int) (data : List Int),
    cut.text = raw ∧ cut.Reads address length data ∧ cut.Lenient length

theorem byteSum_ascii {text : Text} (ascii : ∀ c ∈ text, c.toNat < 128) :
    byteSum text = (text.map Char.toNat).sum := by
  unfold byteSum
  congr 1
  apply List.map_congr_left
  intro c member
  have table : ∀ n < 128,
      ((String.utf8EncodeChar (Char.ofNat n)).map UInt8.toNat).sum = (Char.ofNat n).toNat := by
    decide +kernel
  have one := table c.toNat (ascii c member)
  rwa [Char.ofNat_toNat] at one

theorem digit_of_toUpper {c : Char} (decoded : Decoded c) {d : Nat} (small : d < 16)
    (upper : c.toUpper = hexDigit d) : Python.digitValue c = some d := by
  rcases decoded with ascii | rfl
  · have table : ∀ n < 128, ∀ d < 16, (Char.ofNat n).toUpper = hexDigit d →
        Python.digitValue (Char.ofNat n) = some d := by
      decide +kernel
    have digit := table c.toNat ascii d small
    rw [Char.ofNat_toNat] at digit
    exact digit upper
  · have table : ∀ d < 16, (Char.ofNat 0xFFFD).toUpper ≠ hexDigit d := by decide
    exact absurd upper (table d small)

/-- The two digits of a checksum say its value, in either case. -/
theorem checksum_upper_iff {message supplied : Text} (two : supplied.length = 2)
    (decoded : ∀ c ∈ supplied, Decoded c) :
    checksum message = supplied.map Char.toUpper ↔
      AllHex supplied ∧ hexValue supplied = byteSum message % 256 := by
  obtain ⟨high, low, rfl⟩ := List.length_eq_two.mp two
  have bound : byteSum message % 256 < 256 := Nat.mod_lt _ (by decide)
  rw [checksum_eq]
  generalize byteSum message % 256 = n at bound ⊢
  have words : hexWord 2 n = [hexDigit (n / 16), hexDigit (n % 16)] := by
    simp only [hexWord, List.nil_append, List.cons_append,
      Nat.mod_eq_of_lt (show n / 16 < 16 by omega)]
  rw [words]
  simp only [List.map_cons, List.map_nil, List.cons.injEq, and_true]
  constructor
  · rintro ⟨upper, lower⟩
    have first := digit_of_toUpper (decoded high (by simp)) (by omega) upper.symm
    have second := digit_of_toUpper (decoded low (by simp)) (by omega) lower.symm
    constructor
    · intro c member
      rcases List.mem_pair.mp member with rfl | rfl
      · simpa [isHexDigit, first] using (by omega : n / 16 < 16)
      · simpa [isHexDigit, second] using (by omega : n % 16 < 16)
    · simp only [hexValue, List.filterMap_cons_some first, List.filterMap_cons_some second,
        List.filterMap_nil, Python.ofDigits, List.foldl_cons, List.foldl_nil]
      omega
  · rintro ⟨hex, value⟩
    obtain ⟨-, -, -, d, small, first, upper⟩ := isHexDigit_facts (hex high (by simp))
    obtain ⟨-, -, -, d', small', second, lower⟩ := isHexDigit_facts (hex low (by simp))
    simp only [hexValue, List.filterMap_cons_some first, List.filterMap_cons_some second,
      List.filterMap_nil, Python.ofDigits, List.foldl_cons, List.foldl_nil] at value
    rw [upper, lower, show n / 16 = d by omega, show n % 16 = d' by omega]
    exact ⟨rfl, rfl⟩

namespace Cut

variable {cut : Cut} {address length : Int} {data : List Int}

theorem mem_text {c : Char} : c ∈ cut.text ↔ c = cut.command.char ∨ c ∈ cut.address ∨
    c ∈ cut.length ∨ c ∈ cut.payload ∨ c ∈ cut.checksum := by
  simp only [text, body, List.mem_append, List.mem_cons, or_assoc]

theorem ne_of_four {field : Text} (four : field.length = 4) : field ≠ [] := by
  rintro rfl
  cases four

theorem payloadData_hex (hex : AllHex cut.payload)
    (count : cut.payload.length = 2 * hexValue cut.length) :
    payloadData cut.payload = .ok (hexBytes cut.payload) := by
  have notAck : cut.payload ≠ ack := by
    intro same
    rw [same] at hex
    exact absurd (hex 'O' (by simp [ack])) (by decide)
  have even : cut.payload.length % 2 = 0 := by omega
  rw [payloadData, if_neg notAck, decodeData, if_neg (by simp [even]), hexPairs_allHex hex even]

/-- Everything in the grammar is accepted, with numbers in their ranges. -/
theorem Documented.reads (grammar : cut.Documented)
    (ascii : ∀ c ∈ cut.text, c.toNat < 128) :
    ∃ data, cut.Reads (hexValue cut.address) (hexValue cut.length) data ∧
      Word (hexValue cut.address) ∧ Word (hexValue cut.length) ∧ ∀ b ∈ data, Byte b := by
  have addressSmall := hexValue_lt grammar.address
  have lengthSmall := hexValue_lt grammar.length
  rw [cut.address_four] at addressSmall
  rw [cut.length_four] at lengthSmall
  have payload : ∃ data, payloadData cut.payload = .ok data ∧ ∀ b ∈ data, Byte b := by
    rcases grammar.payload with ⟨hex, count⟩ | ⟨-, empty⟩ | ⟨-, isAck⟩
    · exact ⟨_, payloadData_hex hex count, bytes_hexBytes hex⟩
    · exact ⟨[], by rw [empty]; rfl, by simp⟩
    · exact ⟨[], by rw [isAck]; rfl, by simp⟩
  obtain ⟨data, read, bytes⟩ := payload
  have inBody : ∀ c ∈ cut.body, c.toNat < 128 := fun c member =>
    ascii c (List.mem_append_left _ member)
  have inSum : ∀ c ∈ cut.checksum, Decoded c := fun c member =>
    Or.inl (ascii c (List.mem_append_right _ member))
  refine ⟨data, ⟨?_, ?_, read, ?_⟩, ⟨by omega, by omega⟩, ⟨by omega, by omega⟩, bytes⟩
  · exact int_allHex (ne_of_four cut.address_four) grammar.address
  · exact int_allHex (ne_of_four cut.length_four) grammar.length
  · rw [checksum_upper_iff cut.checksum_two inSum, byteSum_ascii inBody]
    exact ⟨grammar.checksum, grammar.sum⟩

theorem Reads.pairs (reads : cut.Reads address length data) (notAck : cut.payload ≠ ack) :
    hexPairs cut.payload = some data := by
  have payload := reads.payload
  rw [payloadData, if_neg notAck, decodeData] at payload
  split at payload
  · cases payload
  · split at payload
    · rename_i pairs
      cases payload
      exact pairs
    · cases payload

/-- What reads well without leniency is in the grammar. -/
theorem Reads.documented (reads : cut.Reads address length data) (strict : ¬ cut.Lenient length)
    (ascii : ∀ c ∈ cut.text, c.toNat < 128) : cut.Documented := by
  have decoded : ∀ c ∈ cut.text, Decoded c := fun c member => Or.inl (ascii c member)
  have addressHex := (allHex_of_int (fun c member => decoded c (mem_text.mpr (by simp [member])))
    (fun loose => strict (.address loose)) reads.address).2
  have lengthHex := (allHex_of_int (fun c member => decoded c (mem_text.mpr (by simp [member])))
    (fun loose => strict (.length loose)) reads.length).2
  have lengthValue : length = hexValue cut.length := by
    have := reads.length
    rw [int_allHex (ne_of_four cut.length_four) lengthHex] at this
    exact (Option.some.inj this).symm
  have inBody : ∀ c ∈ cut.body, c.toNat < 128 := fun c member =>
    ascii c (List.mem_append_left _ member)
  have inSum : ∀ c ∈ cut.checksum, Decoded c := fun c member =>
    decoded c (List.mem_append_right _ member)
  have sums := (checksum_upper_iff cut.checksum_two inSum).mp reads.checksum
  rw [byteSum_ascii inBody] at sums
  refine ⟨addressHex, lengthHex, ?_, sums.1, sums.2⟩
  by_cases isAck : cut.payload = ack
  · cases command : cut.command with
    | read => exact absurd (.ack command isAck) strict
    | write => exact Or.inr (Or.inr ⟨rfl, isAck⟩)
  · have payloadHex := allHex_of_hexPairs
      (fun c member => decoded c (mem_text.mpr (by simp [member])))
      (fun loose => strict (.data loose)) (reads.pairs isAck)
    by_cases empty : cut.command = .read ∧ cut.payload = []
    · exact Or.inr (Or.inl empty)
    · refine Or.inl ⟨payloadHex, ?_⟩
      by_contra other
      exact strict (.count isAck (by rw [lengthValue]; omega) empty)

theorem Documented.strict (grammar : cut.Documented) (reads : cut.Reads address length data) :
    ¬ cut.Lenient length := by
  have lengthValue : length = hexValue cut.length := by
    have := reads.length
    rw [int_allHex (ne_of_four cut.length_four) grammar.length] at this
    exact (Option.some.inj this).symm
  intro lenient
  cases lenient with
  | address loose => exact plain_of_allHex grammar.address loose
  | length loose => exact plain_of_allHex grammar.length loose
  | data loose =>
    rcases grammar.payload with ⟨hex, -⟩ | ⟨-, empty⟩ | ⟨-, isAck⟩
    · exact plain_of_allHex hex loose
    · rw [empty] at loose
      exact absurd loose (by decide)
    · rw [isAck] at loose
      exact absurd loose (by decide)
  | count carries other some_ =>
    rcases grammar.payload with ⟨-, count⟩ | empty | ⟨-, isAck⟩
    · exact other (by rw [lengthValue]; omega)
    · exact some_ empty
    · exact carries isAck
  | ack isRead isAck =>
    rcases grammar.payload with ⟨hex, -⟩ | ⟨-, empty⟩ | ⟨isWrite, -⟩
    · rw [isAck] at hex
      exact absurd (hex 'O' (by simp [Protocol.ack])) (by decide)
    · rw [isAck] at empty
      cases empty
    · rw [isRead] at isWrite
      cases isWrite

end Cut

def AcceptsGrammar (raw : Text) : Prop :=
  ((∃ f, parseFrame true raw = .ok f) ↔ Documented raw) ∧
  ∀ f, parseFrame true raw = .ok f → Word f.address ∧ Word f.length ∧ ∀ b ∈ f.data, Byte b

/-- **What `parse_frame` accepts is the documented grammar**, with all numbers in their ranges,
except on the frames that read well and leave it. -/
theorem acceptsGrammar_iff {raw : Text} (ascii : ∀ c ∈ raw, c.toNat < 128) :
    AcceptsGrammar raw ↔ ¬ Misread raw := by
  constructor
  · rintro ⟨exactly, -⟩ ⟨cut, address, length, data, rfl, reads, lenient⟩
    obtain ⟨same, text, grammar⟩ := exactly.mp ⟨_, reads.parsed⟩
    cases Cut.ext_text text
    exact grammar.strict reads lenient
  · intro strict
    have documented : ∀ f, parseFrame true raw = .ok f →
        ∃ cut : Cut, cut.text = raw ∧ cut.Reads f.address f.length f.data ∧ cut.Documented := by
      intro f parsed
      obtain ⟨cut, rfl, reads, -⟩ := parseFrame_ok_iff.mp parsed
      have plain : ¬ cut.Lenient f.length := fun lenient =>
        strict ⟨cut, _, _, _, rfl, reads, lenient⟩
      exact ⟨cut, rfl, reads, reads.documented plain ascii⟩
    refine ⟨⟨?_, ?_⟩, ?_⟩
    · rintro ⟨f, parsed⟩
      obtain ⟨cut, text, -, grammar⟩ := documented f parsed
      exact ⟨cut, text, grammar⟩
    · rintro ⟨cut, rfl, grammar⟩
      obtain ⟨data, reads, -⟩ := grammar.reads ascii
      exact ⟨_, reads.parsed⟩
    · intro f parsed
      obtain ⟨cut, rfl, reads, grammar⟩ := documented f parsed
      obtain ⟨data, again, address, length, bytes⟩ := grammar.reads ascii
      have sameAddress := Option.some.inj (reads.address.symm.trans again.address)
      have sameLength := Option.some.inj (reads.length.symm.trans again.length)
      have sameData : f.data = data := by
        have := reads.payload.symm.trans again.payload
        cases this
        rfl
      rw [sameAddress, sameLength, sameData]
      exact ⟨address, length, bytes⟩

/-- The documented example, a write of one zero to address 1. -/
theorem acceptsGrammar_language : AcceptsGrammar
    ['w', '0', '0', '0', '1', '0', '0', '0', '1', '0', '0', '5', '9'] := by
  let cut : Cut := ⟨.write, ['0', '0', '0', '1'], ['0', '0', '0', '1'], ['0', '0'], ['5', '9'],
    rfl, rfl, rfl⟩
  have grammar : cut.Documented :=
    ⟨by decide, by decide, Or.inl ⟨by decide, by decide⟩, by decide, by decide⟩
  apply (acceptsGrammar_iff (by simp)).mpr
  rintro ⟨other, address, length, data, text, reads, lenient⟩
  obtain rfl : other = cut := Cut.ext_text text
  exact grammar.strict reads lenient

/-- A read that announces two bytes and carries one. -/
theorem short_data_accepted : ¬ ∀ raw : Text, (∀ c ∈ raw, c.toNat < 128) →
    AcceptsGrammar raw := by
  intro all
  let cut : Cut := ⟨.read, ['0', '0', '0', '2'], ['0', '0', '0', '2'], ['6', '9'], ['6', '5'],
    rfl, rfl, rfl⟩
  have reads : cut.Reads 2 2 [0x69] := ⟨by decide, by decide, by decide, by decide⟩
  have ascii : ∀ c ∈ cut.text, c.toNat < 128 := by
    simp [cut, Cut.text, Cut.body, Command.char]
  obtain ⟨same, text, grammar⟩ := (all cut.text ascii).1.mp ⟨_, reads.parsed⟩
  obtain rfl : same = cut := Cut.ext_text text
  exact grammar.strict reads (.count (by decide) (by decide) (by decide))

end R60V.Protocol
