import R60V.Bridge.Grammar

/-! One damaged character. The checksum is a plain sum, so a change before it moves the sum by
less than a byte's range, and a change inside it can only be one of case. -/
namespace R60V.Protocol

open Python (Text int)

/-- The frames that the builders make, with what they carry. -/
inductive Built : Text → Command → Int → Int → List Int → Prop where
  | read {address length : Int} (ha : Word address) (hl : Word length) :
      Built (buildRead address length) .read address length []
  | write {address : Int} {data : List Int} (ha : Word address) (hl : Word data.length)
      (bytes : ∀ b ∈ data, Byte b) :
      Built (buildWrite address data) .write address data.length data
  | frame (command : Command) {address length : Int} {data : List Int} (ha : Word address)
      (hl : Word length) (bytes : ∀ b ∈ data, Byte b) :
      Built (buildFrame command address length data) command address length data
  | ack (command : Command) {address length : Int} (ha : Word address) (hl : Word length) :
      Built (buildAck command address length) command address length []

/-- Whatever a builder makes is an ASCII body with its checksum, and parses to what it carries. -/
theorem Built.shape {raw : Text} {command : Command} {address length : Int} {data : List Int}
    (built : Built raw command address length data) :
    ∃ body : Text, raw = body ++ checksum body ∧ (∀ c ∈ body, c.toNat < 128) ∧
      parseFrame true raw = .ok ⟨command, address, length, data, checksum body, raw⟩ := by
  have shape : ∀ (command : Command) {address length : Int} {payload : Text} {data : List Int},
      Word address → Word length → payloadData payload = .ok data →
      (∀ c ∈ payload, c.toNat < 128) →
      let body := buildEnvelope command address length ++ payload
      ∃ body' : Text, body ++ checksum body = body' ++ checksum body' ∧
        (∀ c ∈ body', c.toNat < 128) ∧ parseFrame true (body ++ checksum body) =
          .ok ⟨command, address, length, data, checksum body', body ++ checksum body⟩ := by
    intro command address length payload data ha hl reads ascii body
    refine ⟨body, rfl, fun c member => ?_, parseFrame_body command ha hl true payload data reads⟩
    rcases List.mem_append.mp member with first | second
    · exact ascii_buildEnvelope command address length c first
    · exact ascii c second
  cases built with
  | read ha hl =>
    exact shape .read ha hl (payloadData_encodeData (by simp)) (ascii_encodeData [])
  | write ha hl bytes =>
    exact shape .write ha hl (payloadData_encodeData bytes) (ascii_encodeData data)
  | frame command ha hl bytes =>
    exact shape command ha hl (payloadData_encodeData bytes) (ascii_encodeData data)
  | ack command ha hl =>
    have plain : ∀ c ∈ Protocol.ack, c.toNat < 128 := by simp [Protocol.ack]
    exact shape command ha hl payloadData_ack plain

theorem checksum_inj {message other : Text} (same : checksum message = checksum other) :
    byteSum message % 256 = byteSum other % 256 := by
  have read := congrArg (int 16) same
  have small : ∀ n : Nat, n % 256 < 16 ^ 2 := fun n => Nat.mod_lt n (by decide)
  rw [checksum_eq, checksum_eq, int_hexWord 1 _ (small _), int_hexWord 1 _ (small _)] at read
  exact Int.ofNat.inj (Option.some.inj read)

theorem sum_set {values : List Nat} {i : Nat} (inside : i < values.length) (v : Nat) :
    (values.set i v).sum + values.get ⟨i, inside⟩ = values.sum + v := by
  have changed := List.sum_set values i v
  have kept := List.sum_set values i (values.get ⟨i, inside⟩)
  rw [List.get_eq_getElem, List.set_getElem_self] at kept
  rw [if_pos inside] at changed kept
  rw [changed, List.get_eq_getElem]
  omega

/-- One other ASCII character is another checksum. -/
theorem checksum_set_ne {body : Text} (ascii : ∀ c ∈ body, c.toNat < 128) {i : Nat}
    (inside : i < body.length) {c : Char} (one : c.toNat < 128)
    (differs : body.get ⟨i, inside⟩ ≠ c) : checksum (body.set i c) ≠ checksum body := by
  intro same
  have sums := checksum_inj same
  have asciiSet : ∀ x ∈ body.set i c, x.toNat < 128 := by
    intro x member
    rcases List.mem_or_eq_of_mem_set member with old | rfl
    · exact ascii x old
    · exact one
  have inside' : i < (body.map Char.toNat).length := by simpa using inside
  have moved := sum_set inside' c.toNat
  rw [byteSum_ascii asciiSet, byteSum_ascii ascii, List.map_set] at sums
  have old : (body.get ⟨i, inside⟩).toNat < 128 := ascii _ (List.get_mem _ _)
  have numbers : (body.get ⟨i, inside⟩).toNat ≠ c.toNat := fun equal =>
    differs (Char.toNat_inj.mp equal)
  simp only [List.get_eq_getElem, List.getElem_map] at moved old numbers
  omega

/-- A changed body never passes. -/
theorem parseFrame_set_body {body : Text} (ascii : ∀ c ∈ body, c.toNat < 128) {i : Nat}
    (inside : i < body.length) {c : Char} (one : c.toNat < 128)
    (differs : body.get ⟨i, inside⟩ ≠ c) (f : Frame) :
    parseFrame true (body.set i c ++ checksum body) ≠ .ok f := by
  intro parsed
  obtain ⟨cut, text, reads, -⟩ := parseFrame_ok_iff.mp parsed
  obtain ⟨bodies, sums⟩ := List.append_inj' text
    (cut.checksum_two.trans (length_checksum body).symm)
  have same := reads.checksum
  rw [bodies, sums, toUpper_checksum] at same
  exact checksum_set_ne ascii inside one differs same

/-- What a frame says lies in its body; the checksum only lets it pass. -/
theorem parseFrame_same_body {body sum other : Text} {f g : Frame}
    (first : parseFrame true (body ++ sum) = .ok f)
    (second : parseFrame true (body ++ other) = .ok g) (two : sum.length = 2)
    (two' : other.length = 2) : g.command = f.command ∧ g.address = f.address ∧
      g.length = f.length ∧ g.data = f.data := by
  obtain ⟨cut, text, reads, same⟩ := parseFrame_ok_iff.mp first
  obtain ⟨cut', text', reads', same'⟩ := parseFrame_ok_iff.mp second
  have bodies : cut'.body = cut.body := by
    rw [(List.append_inj' text (cut.checksum_two.trans two.symm)).1,
      (List.append_inj' text' (cut'.checksum_two.trans two'.symm)).1]
  obtain ⟨command, address, length, payload⟩ := Cut.ext_body bodies
  have addresses := reads'.address
  have lengths := reads'.length
  have payloads := reads'.payload
  rw [address, reads.address] at addresses
  rw [length, reads.length] at lengths
  rw [payload, reads.payload] at payloads
  refine ⟨?_, (Option.some.inj addresses).symm, (Option.some.inj lengths).symm,
    (Except.ok.inj payloads).symm⟩
  rw [same, same', command]

/-- One character of a built frame replaced by another: the frame is refused, or it says what it
said. -/
theorem corruption_caught {raw : Text} {command : Command} {address length : Int}
    {data : List Int} (built : Built raw command address length data) {i : Nat}
    (inside : i < raw.length) {c : Char} (one : c.toNat < 128)
    (differs : raw.get ⟨i, inside⟩ ≠ c) :
    (∃ e, parseFrame true (raw.set i c) = .error e) ∨
      ∃ f, parseFrame true (raw.set i c) = .ok f ∧ f.command = command ∧ f.address = address ∧
        f.length = length ∧ f.data = data := by
  obtain ⟨body, rfl, ascii, original⟩ := built.shape
  cases parsed : parseFrame true ((body ++ checksum body).set i c) with
  | error e => exact Or.inl ⟨e, rfl⟩
  | ok f =>
    refine Or.inr ⟨f, rfl, ?_⟩
    by_cases early : i < body.length
    · rw [List.set_append_left _ _ early] at parsed
      have same : body.get ⟨i, early⟩ = (body ++ checksum body).get ⟨i, inside⟩ := by
        simp only [List.get_eq_getElem, List.getElem_append_left early]
      exact absurd parsed (parseFrame_set_body ascii early one (same ▸ differs) f)
    · rw [List.set_append_right _ _ (Nat.le_of_not_lt early)] at parsed
      exact parseFrame_same_body original parsed (length_checksum body) (by simp)

/-- The last checksum digit of a read request. -/
theorem corruption_caught_checksum :
    (∃ e, parseFrame true ((buildRead 0x0F 1).set 10 'B') = .error e) ∨
      ∃ f, parseFrame true ((buildRead 0x0F 1).set 10 'B') = .ok f ∧ f.command = .read ∧
        f.address = 0x0F ∧ f.length = 1 ∧ f.data = [] :=
  corruption_caught (.read (by decide) (by decide)) (by decide) (by decide) (by decide)

end R60V.Protocol
