import R60V.Bridge.Protocol

/-! What the codec builds, it parses: the round trip of well-formed frames. -/
namespace R60V.Protocol

open Python (Text int)

def hexDigit (d : Nat) : Char := (Nat.digitChar d).toUpper

def hexWord : Nat → Nat → Text
  | 0, _ => []
  | w + 1, n => hexWord w (n / 16) ++ [hexDigit (n % 16)]

theorem hexDigit_facts : ∀ d < 16,
    Python.toAscii (hexDigit d) = hexDigit d ∧ Python.isBlank (hexDigit d) = false ∧
    hexDigit d ≠ '-' ∧ hexDigit d ≠ '+' ∧ hexDigit d ≠ '_' ∧ hexDigit d ≠ 'x' ∧
    hexDigit d ≠ 'X' ∧ hexDigit d ≠ 'O' ∧ (hexDigit d).toUpper = hexDigit d ∧
    Python.digitValue (hexDigit d) = some d := by decide

@[simp] theorem length_hexWord (w n : Nat) : (hexWord w n).length = w := by
  induction w generalizing n with
  | zero => rfl
  | succ w ih => simp [hexWord, ih]

theorem mem_hexWord {w n : Nat} {c : Char} (h : c ∈ hexWord w n) : ∃ d < 16, c = hexDigit d := by
  induction w generalizing n with
  | zero => simp [hexWord] at h
  | succ w ih =>
    rcases List.mem_append.mp h with h | h
    · exact ih h
    · exact ⟨n % 16, Nat.mod_lt _ (by decide), by simpa using h⟩

theorem hexWord_zero (w : Nat) : hexWord w 0 = List.replicate w '0' := by
  induction w with
  | zero => rfl
  | succ w ih =>
    have digit : hexDigit (0 % 16) = '0' := by decide
    simp only [hexWord, Nat.zero_div, ih, digit, List.replicate_succ']

theorem ascii_toDigits (n : Nat) : ∀ c ∈ (Nat.toDigits 16 n).map Char.toUpper, c.toNat < 128 := by
  have digit : ∀ d < 16, (Nat.digitChar d).toUpper.toNat < 128 := by decide
  induction n using Nat.strong_induction_on with
  | _ n ih =>
    by_cases small : n < 16
    · rw [Nat.toDigits_of_lt_base small]
      simpa using digit n small
    · rw [Nat.toDigits_of_base_le (by decide) (by omega), List.map_append]
      intro c member
      rcases List.mem_append.mp member with front | last
      · exact ih (n / 16) (by omega) c front
      · obtain rfl := List.mem_singleton.mp last
        exact digit (n % 16) (Nat.mod_lt n (by decide))

theorem ascii_formatHex (w : Nat) (x : Int) : ∀ c ∈ formatHex w x, c.toNat < 128 := by
  have padded : ∀ w, ∀ c ∈ ((Nat.toDigits 16 x.natAbs).map Char.toUpper).leftpad w '0',
      c.toNat < 128 := by
    intro w c member
    rcases List.mem_append.mp member with zeros | digits
    · obtain rfl := List.eq_of_mem_replicate zeros
      decide
    · exact ascii_toDigits x.natAbs c digits
  intro c member
  unfold formatHex at member
  split at member
  · exact padded w c member
  · rcases List.mem_cons.mp member with rfl | digits
    · decide
    · exact padded (w - 1) c digits

theorem ascii_encodeData (data : List Int) : ∀ c ∈ encodeData data, c.toNat < 128 := by
  intro c member
  obtain ⟨b, -, digits⟩ := List.mem_flatMap.mp member
  exact ascii_formatHex 2 (b % 256) c digits

theorem ascii_buildEnvelope (command : Command) (address length : Int) :
    ∀ c ∈ buildEnvelope command address length, c.toNat < 128 := by
  intro c member
  rcases List.mem_cons.mp member with rfl | field
  · cases command <;> decide
  · rcases List.mem_append.mp field with first | second
    · exact ascii_formatHex 4 address c first
    · exact ascii_formatHex 4 length c second

/-- Whatever the numbers in it, a frame can be encoded. -/
theorem isAscii_buildFrame (command : Command) (address length : Int) (data : List Int) :
    Python.isAscii (buildFrame command address length data) = true := by
  refine Python.isAscii_iff.mpr fun c member => ?_
  rcases List.mem_append.mp member with body | sum
  · rcases List.mem_append.mp body with front | payload
    · exact ascii_buildEnvelope command address length c front
    · exact ascii_encodeData data c payload
  · exact ascii_formatHex 2 _ c sum

theorem formatHex_eq_hexWord (w n : Nat) (fits : n < 16 ^ (w + 1)) :
    formatHex (w + 1) n = hexWord (w + 1) n := by
  have body : ∀ (w n : Nat), n < 16 ^ (w + 1) →
      ((Nat.toDigits 16 n).map Char.toUpper).leftpad (w + 1) '0' = hexWord (w + 1) n := by
    intro w
    induction w with
    | zero =>
      intro n fits
      rw [Nat.toDigits_of_lt_base (by simpa using fits)]
      simp [List.leftpad, hexWord, hexDigit, Nat.mod_eq_of_lt (show n < 16 by simpa using fits)]
    | succ w ih =>
      intro n fits
      by_cases small : n < 16
      · have quotient : n / 16 = 0 := by omega
        rw [Nat.toDigits_of_lt_base small, hexWord, quotient, hexWord_zero]
        simp [List.leftpad, hexDigit, Nat.mod_eq_of_lt small]
      · have smaller : n / 16 < 16 ^ (w + 1) := by
          rw [Nat.pow_succ] at fits
          omega
        rw [Nat.toDigits_of_base_le (by decide) (by omega), hexWord, ← ih (n / 16) smaller]
        simp [List.leftpad, hexDigit]
  simpa [formatHex] using body w n fits

theorem digitRun_hexWord (w n : Nat) : ∃ ds : List Nat,
    (∀ tail : Text, Python.digitRun 16 true (hexWord w n ++ tail) =
      (Python.digitRun 16 true tail).map (ds ++ ·)) ∧
    ∀ k, ds.foldl (fun a d => a * 16 + d) k = k * 16 ^ w + n % 16 ^ w := by
  induction w generalizing n with
  | zero => exact ⟨[], by simp [hexWord], by simp [Nat.mod_one]⟩
  | succ w ih =>
    obtain ⟨ds, run, value⟩ := ih (n / 16)
    have f := hexDigit_facts (n % 16) (Nat.mod_lt _ (by decide))
    refine ⟨ds ++ [n % 16], ?_, ?_⟩
    · intro tail
      rw [hexWord, List.append_assoc, run]
      simp only [List.cons_append, List.nil_append, Python.digitRun, f.2.2.2.2.1, if_false,
        f.2.2.2.2.2.2.2.2.2, Nat.mod_lt n (show 16 > 0 by decide), if_true, Option.map_map]
      congr 1
      funext rest
      simp
    · intro k
      have split : n % 16 ^ (w + 1) = (n / 16) % 16 ^ w * 16 + n % 16 := by
        rw [Nat.pow_succ, Nat.mul_comm (16 ^ w) 16, Nat.mod_mul]
        omega
      rw [List.foldl_append, value, split, Nat.pow_succ]
      simp only [List.foldl_cons, List.foldl_nil]
      ring

theorem dropHexPrefix_id {text : Text} (h : ∀ c ∈ text, c ≠ 'x' ∧ c ≠ 'X') :
    Python.dropHexPrefix text = text := by
  unfold Python.dropHexPrefix
  split
  · rename_i c rest
    have hc := h c (by simp)
    rw [if_neg (by rintro (rfl | rfl); exacts [hc.1 rfl, hc.2 rfl])]
  · rfl

/-- On a non-empty text of upper-case hex digits `int` is the plain digit reader. -/
theorem int_digits {text : Text} (ne : text ≠ []) (digits : ∀ c ∈ text, ∃ d < 16, c = hexDigit d) :
    int 16 text =
      (Python.digitRun 16 true text).map (fun ds => (Python.ofDigits 16 ds : Int)) := by
  have facts : ∀ c ∈ text, Python.toAscii c = c ∧ Python.isBlank c = false ∧ c ≠ '-' ∧ c ≠ '+' ∧
      c ≠ '_' ∧ c ≠ 'x' ∧ c ≠ 'X' := by
    intro c hc
    obtain ⟨d, hd, rfl⟩ := digits c hc
    have f := hexDigit_facts d hd
    exact ⟨f.1, f.2.1, f.2.2.1, f.2.2.2.1, f.2.2.2.2.1, f.2.2.2.2.2.1, f.2.2.2.2.2.2.1⟩
  have ascii : text.map Python.toAscii = text :=
    (List.map_congr_left (fun c hc => (facts c hc).1)).trans (List.map_id' text)
  have trimmed : Python.trim Python.isBlank text = text :=
    Python.trim_none (fun c hc => (facts c hc).2.1)
  cases text with
  | nil => exact absurd rfl ne
  | cons c rest =>
    have fc := facts c List.mem_cons_self
    have unsigned : Python.splitSign (c :: rest) = (false, c :: rest) := by
      unfold Python.splitSign
      split
      · rename_i h; exact absurd (List.cons.inj h).1 fc.2.2.1
      · rename_i h; exact absurd (List.cons.inj h).1 fc.2.2.2.1
      · rfl
    have start : Python.digitRun 16 false (c :: rest) = Python.digitRun 16 true (c :: rest) := by
      simp [Python.digitRun, fc.2.2.2.2.1]
    have bare := dropHexPrefix_id (fun c hc => (facts c hc).2.2.2.2.2)
    simp only [int, ascii, trimmed, unsigned, if_true, bare, start]
    cases Python.digitRun 16 true (c :: rest) <;> simp

theorem int_hexWord (w n : Nat) (fits : n < 16 ^ (w + 1)) :
    int 16 (hexWord (w + 1) n) = some (n : Int) := by
  have ne : hexWord (w + 1) n ≠ [] := by simp [hexWord]
  obtain ⟨ds, run, value⟩ := digitRun_hexWord (w + 1) n
  have all := run []
  simp only [List.append_nil, Python.digitRun, if_true, Option.map_some] at all
  rw [int_digits ne (fun c h => mem_hexWord h), all, Option.map_some, Python.ofDigits, value 0,
    Nat.zero_mul, Nat.zero_add, Nat.mod_eq_of_lt fits]

def Word (x : Int) : Prop := 0 ≤ x ∧ x < 0x10000

def Byte (x : Int) : Prop := 0 ≤ x ∧ x < 0x100

instance (x : Int) : Decidable (Word x) := inferInstanceAs (Decidable (0 ≤ x ∧ x < 0x10000))

instance (x : Int) : Decidable (Byte x) := inferInstanceAs (Decidable (0 ≤ x ∧ x < 0x100))

theorem formatHex_word {x : Int} (h : Word x) : formatHex 4 x = hexWord 4 x.toNat := by
  obtain ⟨n, rfl⟩ := Int.eq_ofNat_of_zero_le h.1
  exact formatHex_eq_hexWord 3 n (by have := h.2; omega)

theorem formatHex_byte (n : Nat) (h : n < 0x100) : formatHex 2 (n : Int) = hexWord 2 n :=
  formatHex_eq_hexWord 1 n (by omega)

theorem checksum_eq (message : Text) : checksum message = hexWord 2 (byteSum message % 256) :=
  formatHex_byte _ (Nat.mod_lt _ (by decide))

@[simp] theorem length_checksum (message : Text) : (checksum message).length = 2 := by
  rw [checksum_eq, length_hexWord]

theorem toUpper_checksum (message : Text) :
    (checksum message).map Char.toUpper = checksum message := by
  rw [checksum_eq]
  refine (List.map_congr_left ?_).trans (List.map_id _)
  intro c hc
  obtain ⟨d, hd, rfl⟩ := mem_hexWord hc
  exact (hexDigit_facts d hd).2.2.2.2.2.2.2.2.1

theorem encodeData_cons {b : Int} {rest : List Int} (hb : Byte b) :
    encodeData (b :: rest) = hexWord 2 b.toNat ++ encodeData rest := by
  obtain ⟨n, rfl⟩ := Int.eq_ofNat_of_zero_le hb.1
  have small : n < 0x100 := by have := hb.2; omega
  have keep : ((n : Int) % 256) = n := by omega
  rw [encodeData, List.flatMap_cons, keep, formatHex_byte n small]
  rfl

theorem length_encodeData {data : List Int} (h : ∀ b ∈ data, Byte b) :
    (encodeData data).length = 2 * data.length := by
  induction data with
  | nil => rfl
  | cons b rest ih =>
    rw [encodeData_cons (h b List.mem_cons_self), List.length_append, length_hexWord,
      ih (fun x hx => h x (List.mem_cons_of_mem _ hx)), List.length_cons]
    omega

theorem hexPairs_encodeData {data : List Int} (h : ∀ b ∈ data, Byte b) :
    hexPairs (encodeData data) = some data := by
  induction data with
  | nil => rfl
  | cons b rest ih =>
    have hb := h b List.mem_cons_self
    obtain ⟨n, rfl⟩ := Int.eq_ofNat_of_zero_le hb.1
    have small : n < 16 ^ 2 := by have := hb.2; omega
    have read := int_hexWord 1 n small
    rw [encodeData_cons hb, Int.toNat_natCast]
    simp only [hexWord, List.nil_append, List.cons_append] at read ⊢
    rw [hexPairs, read, ih (fun x hx => h x (List.mem_cons_of_mem _ hx))]
    rfl

theorem encodeData_ne_ack {data : List Int} (h : ∀ b ∈ data, Byte b) : encodeData data ≠ ack := by
  intro eq
  cases data with
  | nil => cases eq
  | cons b rest =>
    rw [encodeData_cons (h b List.mem_cons_self)] at eq
    have member : 'O' ∈ hexWord 2 b.toNat := by
      simp only [hexWord, List.nil_append, List.cons_append, ack, List.cons.injEq] at eq
      simp [hexWord, eq.1]
    obtain ⟨d, hd, letter⟩ := mem_hexWord member
    exact (hexDigit_facts d hd).2.2.2.2.2.2.2.1 letter.symm

theorem payloadData_encodeData {data : List Int} (h : ∀ b ∈ data, Byte b) :
    payloadData (encodeData data) = .ok data := by
  have even : (encodeData data).length % 2 = 0 := by rw [length_encodeData h]; omega
  simp [payloadData, encodeData_ne_ack h, decodeData, even, hexPairs_encodeData h]

theorem payloadData_ack : payloadData ack = .ok [] := rfl

theorem ofChar_char (command : Command) : Command.ofChar command.char = some command := by
  cases command <;> rfl

theorem buildEnvelope_eq (command : Command) {address length : Int} (ha : Word address)
    (hl : Word length) : buildEnvelope command address length =
      command.char :: (hexWord 4 address.toNat ++ hexWord 4 length.toNat) := by
  rw [buildEnvelope, formatHex_word ha, formatHex_word hl]

theorem length_buildEnvelope (command : Command) {address length : Int} (ha : Word address)
    (hl : Word length) : (buildEnvelope command address length).length = 9 := by
  simp [buildEnvelope_eq command ha hl]

theorem slice_fields (command : Command) {address length : Int} (ha : Word address)
    (hl : Word length) (rest : Text) :
    slice (buildEnvelope command address length ++ rest) 1 5 = hexWord 4 address.toNat ∧
    slice (buildEnvelope command address length ++ rest) 5 9 = hexWord 4 length.toNat := by
  simp only [buildEnvelope_eq command ha hl, slice, List.cons_append, List.append_assoc]
  refine ⟨List.take_left' (by simp), ?_⟩
  rw [List.drop_succ_cons, List.drop_left' (by simp)]
  exact List.take_left' (by simp)

theorem int_field {x : Int} (h : Word x) : int 16 (hexWord 4 x.toNat) = some x := by
  rw [int_hexWord 3 _ (by have := h.2; have := h.1; omega), Int.toNat_of_nonneg h.1]

theorem head_envelope (command : Command) (address length : Int) (rest : Text) :
    (buildEnvelope command address length ++ rest).head? = some command.char := rfl

/-- An envelope with any readable payload and its own checksum parses to exactly its parts. -/
theorem parseFrame_body (command : Command) {address length : Int} (ha : Word address)
    (hl : Word length) (verify : Bool) (payload : Text) (data : List Int)
    (read : payloadData payload = .ok data) :
    let body := buildEnvelope command address length ++ payload
    parseFrame verify (body ++ checksum body) =
      .ok ⟨command, address, length, data, checksum body, body ++ checksum body⟩ := by
  intro body
  have nine := length_buildEnvelope command ha hl
  have size : (body ++ checksum body).length = body.length + 2 := by simp
  have long : ¬ (body ++ checksum body).length < 11 := by
    rw [size]; simp only [body, List.length_append, nine]; omega
  have head : (body ++ checksum body).headD ' ' = command.char := rfl
  have fields := slice_fields command ha hl (payload ++ checksum body)
  rw [← List.append_assoc] at fields
  have init : (body ++ checksum body).take ((body ++ checksum body).length - 2) = body := by
    rw [size]; exact List.take_left' (by omega)
  have last : (body ++ checksum body).drop ((body ++ checksum body).length - 2) =
      checksum body := by
    rw [size]; exact List.drop_left' (by omega)
  have middle : body.drop 9 = payload := List.drop_left' nine
  simp only [parseFrame, if_neg long, head, ofChar_char, fields.1, fields.2, int_field ha,
    int_field hl, init, last, middle, read, toUpper_checksum, ne_eq, not_true_eq_false, and_false,
    if_false, body]

theorem length_of_hexPairs {text : Text} {data : List Int} (h : hexPairs text = some data) :
    text.length = 2 * data.length := by
  fun_induction hexPairs text generalizing data with
  | case1 => cases h; rfl
  | case2 => cases h
  | case3 a b rest x read ih =>
    obtain ⟨tail, ht, rfl⟩ := Option.map_eq_some_iff.mp h
    have := ih ht
    simp only [List.length_cons]
    omega
  | case4 => cases h

/-- What a frame carries is fixed by its size, an acknowledgement apart. -/
theorem parseFrame_data_length {verify : Bool} {raw : Text} {f : Frame} {n : Nat}
    (parsed : parseFrame verify raw = .ok f) (size : raw.length = 9 + n * 2 + 2) :
    f.data.length = n ∨ (n = 1 ∧ f.data = []) := by
  unfold parseFrame at parsed
  rw [if_neg (by omega)] at parsed
  have payload : ∀ {hex : Text} {data : List Int}, hex.length = 2 * n →
      payloadData hex = .ok data → data.length = n ∨ (n = 1 ∧ data = []) := by
    intro hex data length read
    unfold payloadData at read
    split at read
    · rename_i isAck
      cases read
      rw [isAck] at length
      exact Or.inr ⟨by simp [ack] at length; omega, rfl⟩
    · unfold decodeData at read
      split at read
      · cases read
      · split at read
        · rename_i pairs
          cases read
          have := length_of_hexPairs pairs
          exact Or.inl (by omega)
        · cases read
  split at parsed
  · cases parsed
  · split at parsed
    · dsimp only at parsed
      split at parsed
      · cases parsed
      · rename_i read
        split at parsed
        · cases parsed
        · cases parsed
          exact payload (by simp; omega) read
    · cases parsed

theorem parseFrame_buildFrame (command : Command) {address length : Int} (ha : Word address)
    (hl : Word length) (verify : Bool) {data : List Int} (h : ∀ b ∈ data, Byte b) :
    ∃ f, parseFrame verify (buildFrame command address length data) = .ok f ∧
      f.command = command ∧ f.address = address ∧ f.length = length ∧ f.data = data ∧
      f.raw = buildFrame command address length data :=
  ⟨_, parseFrame_body command ha hl verify _ data (payloadData_encodeData h),
    rfl, rfl, rfl, rfl, rfl⟩

theorem parseFrame_buildAck (command : Command) {address length : Int} (ha : Word address)
    (hl : Word length) (verify : Bool) :
    ∃ f, parseFrame verify (buildAck command address length) = .ok f ∧
      f.command = command ∧ f.address = address ∧ f.length = length ∧ f.data = [] ∧
      f.raw = buildAck command address length :=
  ⟨_, parseFrame_body command ha hl verify _ [] payloadData_ack, rfl, rfl, rfl, rfl, rfl⟩

end R60V.Protocol
