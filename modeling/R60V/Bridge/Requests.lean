import R60V.Bridge.Conversation
import R60V.Bridge.Emulator
import R60V.Bridge.Grammar
import R60V.Lib.Pieces

/-! Requests on the wire. Two servers cut them off a client's stream, the front-end and the
emulator, and one client reckons how long their replies are; the frames that the codec builds are
cut the same by all of them. -/
namespace R60V

open Python (Text int)
open Protocol (parseFrame slice AllHex hexValue hexBytes Cut Word Byte)
open Pieces (Delimited pieces)

inductive ReadExc where
  -- `IncompleteReadError`: the peer has closed.
  | incomplete
  -- `readexactly` refuses a negative count.
  | value
  deriving DecidableEq

/-- `readexactly`, of a stream that ends where the text ends. -/
def readExactly (stream : Text) (count : Int) : Except ReadExc (Text × Text) :=
  if count < 0 then .error .value
  else if stream.length < count.toNat then .error .incomplete
  else .ok (stream.take count.toNat, stream.drop count.toNat)

namespace Frontend

def restLength (envelope : Text) : Int :=
  if envelope.head? = some Protocol.Command.write.char then
    match int 16 (slice envelope 5 9) with
    | none => 2
    | some length => length * 2 + 2
  else 2

def readRequest (stream : Text) : Except ReadExc (Text × Text) :=
  match readExactly stream 9 with
  | .error e => .error e
  | .ok (envelope, stream) =>
    match readExactly stream (restLength envelope) with
    | .error e => .error e
    | .ok (rest, stream) => .ok (envelope ++ rest, stream)

end Frontend

namespace Emulator

def readRest (envelope stream : Text) : Except ReadExc (Text × Text) :=
  if envelope.head? = some Protocol.Command.write.char then
    match int 16 (slice envelope 5 9) with
    | none => .ok ([], stream)
    | some length => readExactly stream (length * 2 + 2)
  else readExactly stream 2

def readRequest (stream : Text) : Except ReadExc (Text × Text) :=
  match readExactly stream 9 with
  | .error e => .error e
  | .ok (envelope, stream) =>
    match readRest envelope stream with
    | .error e => .error e
    | .ok (rest, stream) => .ok (envelope ++ rest, stream)

end Emulator

/-- A request is well-formed: hex digits of either case, no data in a read, exactly `length`
bytes in a write. It asks for one operation. -/
structure Protocol.Cut.Asks (cut : Cut) (op : Call) : Prop where
  address : AllHex cut.address
  length : AllHex cut.length
  payload : match cut.command with
    | .read => cut.payload = [] ∧ op = .read (hexValue cut.address) (hexValue cut.length)
    | .write => AllHex cut.payload ∧ cut.payload.length = 2 * hexValue cut.length ∧
      op = .write (hexValue cut.address) (hexBytes cut.payload)
  checksum : AllHex cut.checksum
  sum : hexValue cut.checksum = (cut.body.map Char.toNat).sum % 256

def Asks (raw : Text) (op : Call) : Prop := ∃ cut : Cut, cut.text = raw ∧ cut.Asks op

theorem readExactly_append {front rest : Text} {count : Int}
    (whole : (front.length : Int) = count) :
    readExactly (front ++ rest) count = .ok (front, rest) := by
  subst whole
  rw [readExactly, if_neg (by omega), if_neg (by simp), Int.toNat_natCast,
    List.take_left' rfl, List.drop_left' rfl]

namespace Protocol.Cut

def envelope (cut : Cut) : Text := cut.command.char :: (cut.address ++ cut.length)

theorem text_eq (cut : Cut) : cut.text = cut.envelope ++ (cut.payload ++ cut.checksum) := by
  simp [text, body, envelope]

theorem length_envelope (cut : Cut) : cut.envelope.length = 9 := by
  simp [envelope, cut.address_four, cut.length_four]

theorem take_envelope (cut : Cut) : cut.text.take 9 = cut.envelope := by
  rw [text_eq]
  exact List.take_left' cut.length_envelope

theorem slice_envelope (cut : Cut) : slice cut.envelope 5 9 = cut.length := by
  simp only [slice, envelope, List.drop_succ_cons]
  rw [List.drop_left' cut.address_four, List.take_of_length_le (by rw [cut.length_four])]

theorem length_hexBytes (hex : Text) : (hexBytes hex).length = hex.length / 2 := by
  fun_induction hexBytes hex with
  | case1 a b rest ih => simp only [List.length_cons, ih]; omega
  | case2 hex other =>
    rcases hex with _ | ⟨a, _ | ⟨b, rest⟩⟩
    · rfl
    · simp
    · exact absurd rfl (other a b rest)

variable {cut : Cut} {op : Call}

theorem Asks.documented (asks : cut.Asks op) : cut.Documented := by
  refine ⟨asks.address, asks.length, ?_, asks.checksum, asks.sum⟩
  have payload := asks.payload
  cases command : cut.command with
  | read =>
    rw [command] at payload
    exact Or.inr (Or.inl ⟨rfl, payload.1⟩)
  | write =>
    rw [command] at payload
    exact Or.inl ⟨payload.1, payload.2.1⟩

theorem Asks.payload_hex (asks : cut.Asks op) : AllHex cut.payload := by
  have payload := asks.payload
  cases command : cut.command with
  | read =>
    rw [command] at payload
    rw [payload.1]
    exact fun _ member => by cases member
  | write =>
    rw [command] at payload
    exact payload.1

theorem Asks.ascii (asks : cut.Asks op) : ∀ c ∈ cut.text, c.toNat < 128 := by
  intro c member
  rcases mem_text.mp member with rfl | member | member | member | member
  · cases cut.command <;> decide
  · exact toNat_of_isHexDigit (asks.address c member)
  · exact toNat_of_isHexDigit (asks.length c member)
  · exact toNat_of_isHexDigit (asks.payload_hex c member)
  · exact toNat_of_isHexDigit (asks.checksum c member)

/-- How many characters both servers read after the envelope of a well-formed request. -/
theorem Asks.length_rest (asks : cut.Asks op) :
    ((cut.payload ++ cut.checksum).length : Int) =
      match cut.command with
      | .read => 2
      | .write => (hexValue cut.length : Int) * 2 + 2 := by
  have payload := asks.payload
  rw [List.length_append, cut.checksum_two]
  cases command : cut.command with
  | read =>
    rw [command] at payload
    simp [payload.1]
  | write =>
    rw [command] at payload
    simp only [payload.2.1]
    push_cast
    ring

theorem head_envelope (cut : Cut) :
    cut.envelope.head? = some Command.write.char ↔ cut.command = .write := by
  simp only [envelope, List.head?_cons, Option.some.injEq]
  cases cut.command <;> decide

theorem Asks.delimited (asks : cut.Asks op) : Delimited Frontend.readRequest cut.text := by
  intro rest
  have value := int_allHex (ne_of_four cut.length_four) asks.length
  have whole := asks.length_rest
  rw [text_eq, List.append_assoc, Frontend.readRequest,
    readExactly_append (by rw [cut.length_envelope]; rfl)]
  have count : Frontend.restLength cut.envelope = ((cut.payload ++ cut.checksum).length : Int) := by
    rw [whole, Frontend.restLength, slice_envelope, value]
    cases command : cut.command with
    | read => rw [if_neg (by rw [head_envelope, command]; decide)]
    | write => rw [if_pos ((head_envelope cut).mpr command)]
  simp only [readExactly_append count.symm]

theorem Asks.delimited_emulator (asks : cut.Asks op) :
    Delimited Emulator.readRequest cut.text := by
  intro rest
  have value := int_allHex (ne_of_four cut.length_four) asks.length
  have whole := asks.length_rest
  rw [text_eq, List.append_assoc, Emulator.readRequest,
    readExactly_append (by rw [cut.length_envelope]; rfl)]
  have count : Emulator.readRest cut.envelope (cut.payload ++ cut.checksum ++ rest) =
      readExactly (cut.payload ++ cut.checksum ++ rest)
        ((cut.payload ++ cut.checksum).length : Int) := by
    rw [whole, Emulator.readRest, slice_envelope, value]
    cases command : cut.command with
    | read => rw [if_neg (by rw [head_envelope, command]; decide)]
    | write => rw [if_pos ((head_envelope cut).mpr command)]
  simp only [count, readExactly_append rfl]

end Protocol.Cut

namespace Call

/-- The requests that `build_read` and `build_write` are for. -/
def InRange : Call → Prop
  | .read address length => Word address ∧ Word length
  | .write address data => Word address ∧ Word data.length ∧ ∀ b ∈ data, Byte b

instance (op : Call) : Decidable op.InRange := by
  cases op <;> simp only [InRange] <;> infer_instance

theorem allHex_hexWord (w n : Nat) : AllHex (Protocol.hexWord w n) := by
  intro c member
  obtain ⟨d, small, rfl⟩ := Protocol.mem_hexWord member
  exact Protocol.isHexDigit_hexDigit small

theorem hexValue_hexWord {x : Int} (word : Word x) :
    (hexValue (Protocol.hexWord 4 x.toNat) : Int) = x := by
  have read := Protocol.int_allHex (Protocol.Cut.ne_of_four (by simp)) (allHex_hexWord 4 x.toNat)
  rw [Protocol.int_field word] at read
  exact (Option.some.inj read).symm

theorem allHex_encodeData {data : List Int} (bytes : ∀ b ∈ data, Byte b) :
    AllHex (Protocol.encodeData data) := by
  induction data with
  | nil => exact fun _ member => by cases member
  | cons b rest ih =>
    rw [Protocol.encodeData_cons (bytes b List.mem_cons_self)]
    intro c member
    rcases List.mem_append.mp member with member | member
    · exact allHex_hexWord 2 _ c member
    · exact ih (fun x later => bytes x (List.mem_cons_of_mem b later)) c member

theorem hexBytes_encodeData {data : List Int} (bytes : ∀ b ∈ data, Byte b) :
    hexBytes (Protocol.encodeData data) = data := by
  have even : (Protocol.encodeData data).length % 2 = 0 := by
    rw [Protocol.length_encodeData bytes]
    omega
  have pairs := Protocol.hexPairs_allHex (allHex_encodeData bytes) even
  rw [Protocol.hexPairs_encodeData bytes] at pairs
  exact (Option.some.inj pairs).symm

/-- Where a frame that the codec builds is cut. -/
def cutOf (command : Protocol.Command) (address length : Int) (payload : Text) : Cut where
  command := command
  address := Protocol.hexWord 4 address.toNat
  length := Protocol.hexWord 4 length.toNat
  payload := payload
  checksum := Protocol.checksum (command.char :: (Protocol.hexWord 4 address.toNat ++
    (Protocol.hexWord 4 length.toNat ++ payload)))
  address_four := by simp
  length_four := by simp
  checksum_two := by simp

variable {command : Protocol.Command} {address length : Int}

theorem cutOf_text (ha : Word address) (hl : Word length) (payload : Text) :
    (cutOf command address length payload).text =
      Protocol.buildEnvelope command address length ++ payload ++
        Protocol.checksum (Protocol.buildEnvelope command address length ++ payload) := by
  simp [cutOf, Cut.text, Cut.body, Protocol.buildEnvelope_eq command ha hl]

theorem cutOf_sum (command : Protocol.Command) (address length : Int) {payload : Text}
    (ascii : ∀ c ∈ payload, c.toNat < 128) :
    AllHex (cutOf command address length payload).checksum ∧
    hexValue (cutOf command address length payload).checksum =
      ((cutOf command address length payload).body.map Char.toNat).sum % 256 := by
  have hex : ∀ c ∈ Protocol.checksum (cutOf command address length payload).body,
      Protocol.isHexDigit c = true := by
    rw [Protocol.checksum_eq]
    exact allHex_hexWord 2 _
  have inBody : ∀ c ∈ (cutOf command address length payload).body, c.toNat < 128 := by
    intro c member
    simp only [Cut.body, List.mem_cons, List.mem_append] at member
    rcases member with rfl | member | member | member
    · show command.char.toNat < 128
      cases command <;> decide
    · exact Protocol.toNat_of_isHexDigit (allHex_hexWord 4 _ c member)
    · exact Protocol.toNat_of_isHexDigit (allHex_hexWord 4 _ c member)
    · exact ascii c member
  have decoded : ∀ c ∈ (cutOf command address length payload).checksum, Protocol.Decoded c :=
    fun c member => Or.inl (Protocol.toNat_of_isHexDigit (hex c member))
  have two : (cutOf command address length payload).checksum.length = 2 := by simp [cutOf]
  have sums := (Protocol.checksum_upper_iff two decoded).mp (Protocol.toUpper_checksum _).symm
  rw [← Protocol.byteSum_ascii inBody]
  exact sums

/-- What the codec builds is well-formed and asks for what it was built from. -/
theorem asks {op : Call} (inRange : op.InRange) : Asks op.frame op := by
  cases op with
  | read address length =>
    obtain ⟨ha, hl⟩ := inRange
    have sums := cutOf_sum .read address length (show ∀ c ∈ ([] : Text), c.toNat < 128 by simp)
    refine ⟨cutOf .read address length [], cutOf_text ha hl [],
      allHex_hexWord 4 _, allHex_hexWord 4 _, ⟨rfl, ?_⟩, sums.1, sums.2⟩
    simp only [cutOf, hexValue_hexWord ha, hexValue_hexWord hl]
  | write address data =>
    obtain ⟨ha, hl, bytes⟩ := inRange
    have hex := allHex_encodeData bytes
    have sums := cutOf_sum .write address data.length
      (fun c member => Protocol.toNat_of_isHexDigit (hex c member))
    have length := hexValue_hexWord hl
    refine ⟨cutOf .write address data.length (Protocol.encodeData data), cutOf_text ha hl _,
      allHex_hexWord 4 _, allHex_hexWord 4 _, ⟨hex, ?_, ?_⟩, sums.1, sums.2⟩
    · simp only [cutOf] at length ⊢
      rw [Protocol.length_encodeData bytes]
      omega
    · simp only [cutOf, hexValue_hexWord ha, hexBytes_encodeData bytes]

variable {op : Call}

theorem delimited (inRange : op.InRange) :
    Delimited Frontend.readRequest op.frame ∧ Delimited Emulator.readRequest op.frame := by
  obtain ⟨cut, text, asked⟩ := asks inRange
  rw [← text]
  exact ⟨asked.delimited, asked.delimited_emulator⟩

/-- The frame has the envelope of the operation, as text and as numbers. -/
structure Enveloped (op : Call) (f : Protocol.Frame) : Prop where
  command : f.command = match op with | .read _ _ => .read | .write _ _ => .write
  address : f.address = match op with | .read address _ => address | .write address _ => address
  length : f.length = match op with | .read _ length => length | .write _ data => data.length
  envelope : f.envelope = op.frame.take 9

/-- What the operation sends along. -/
def payload : Call → List Int
  | .read _ _ => []
  | .write _ data => data

theorem parsed (inRange : op.InRange) :
    ∃ f, parseFrame true op.frame = .ok f ∧ op.Enveloped f ∧ f.data = op.payload := by
  cases op with
  | read address length =>
    obtain ⟨ha, hl⟩ := inRange
    obtain ⟨f, parsed, command, address, length, data, raw⟩ :=
      Protocol.parseFrame_buildFrame .read ha hl true (show ∀ b ∈ ([] : List Int), Byte b by simp)
    exact ⟨f, parsed, ⟨command, address, length, congrArg (List.take 9) raw⟩, data⟩
  | write address data =>
    obtain ⟨ha, hl, bytes⟩ := inRange
    obtain ⟨f, parsed, command, address, length, data, raw⟩ :=
      Protocol.parseFrame_buildFrame .write ha hl true bytes
    exact ⟨f, parsed, ⟨command, address, length, congrArg (List.take 9) raw⟩, data⟩

/-- A matching reply: the bytes of a read, or the acknowledgement of a write. -/
def Matching (reply : Text) : Call → List Int → Prop
  | .read address length, data => data.length = length ∧ (∀ b ∈ data, Byte b) ∧
    reply = Protocol.buildFrame .read address length data
  | .write address bytes, data => data = [] ∧
    reply = Protocol.buildAck .write address bytes.length

theorem matching_length {reply : Text} {data : List Int} (inRange : op.InRange)
    (matching : Matching reply op data) :
    expectedResponseLen op.frame = .ok (reply.length : Int) := by
  suffices answers : op.reply data = some reply from reply_length answers
  cases op with
  | read address length =>
    obtain ⟨size, bytes, rfl⟩ := matching
    exact if_pos ⟨inRange.1, inRange.2, size, bytes⟩
  | write address written =>
    obtain ⟨-, rfl⟩ := matching
    exact if_pos ⟨inRange.1, inRange.2.1⟩

theorem matching_parsed {reply : Text} {data : List Int} (inRange : op.InRange)
    (matching : Matching reply op data) :
    ∃ f, parseFrame true reply = .ok f ∧ op.Enveloped f ∧ f.data = data ∧
      (f.isAck = true ↔ ∃ address bytes, op = .write address bytes) := by
  cases op with
  | read address length =>
    obtain ⟨size, bytes, rfl⟩ := matching
    obtain ⟨ha, hl⟩ := inRange
    obtain ⟨f, parsed, command, at_, long, carries, raw⟩ :=
      Protocol.parseFrame_buildFrame .read ha hl true bytes
    have nine := Protocol.length_buildEnvelope .read ha hl
    refine ⟨f, parsed, ⟨command, at_, long, ?_⟩, carries, ?_⟩
    · simp only [Protocol.Frame.envelope, raw, Call.frame, Protocol.buildRead,
        Protocol.buildFrame, List.append_assoc, List.take_left' nine]
    · refine iff_of_false ?_ (by simp)
      intro isAck
      simp only [Protocol.Frame.isAck, raw, Protocol.buildFrame, List.append_assoc,
        List.drop_left' nine, beq_iff_eq] at isAck
      have letter : 'O' ∈ Protocol.encodeData data ++ Protocol.checksum
          (Protocol.buildEnvelope .read address length ++ Protocol.encodeData data) :=
        List.mem_of_mem_take (i := 2) (by rw [isAck]; decide)
      have hex : AllHex (Protocol.encodeData data ++ Protocol.checksum
          (Protocol.buildEnvelope .read address length ++ Protocol.encodeData data)) := by
        intro c member
        rcases List.mem_append.mp member with member | member
        · exact allHex_encodeData bytes c member
        · rw [Protocol.checksum_eq] at member
          exact allHex_hexWord 2 _ c member
      exact absurd (hex 'O' letter) (by decide)
  | write address written =>
    obtain ⟨rfl, rfl⟩ := matching
    obtain ⟨ha, hl, -⟩ := inRange
    obtain ⟨f, parsed, command, at_, long, carries, raw⟩ :=
      Protocol.parseFrame_buildAck .write ha hl true
    have nine := Protocol.length_buildEnvelope .write ha hl
    refine ⟨f, parsed, ⟨command, at_, long, ?_⟩, carries, ?_⟩
    · simp only [Protocol.Frame.envelope, raw, Call.frame, Protocol.buildWrite,
        Protocol.buildFrame, Protocol.buildAck, List.append_assoc, List.take_left' nine]
    · refine iff_of_true ?_ ⟨_, _, rfl⟩
      simp [Protocol.Frame.isAck, raw, Protocol.buildAck, List.append_assoc,
        List.drop_left' nine, Protocol.ack]

end Call

/-- **Both ends frame the conversation identically.** Requests strung together are cut apart by the
front-end and by the emulator exactly as they were built, each is parsed to what it was built
from, and each matching reply has the length that the client reckons and parses to what it was
built from. -/
theorem both_ends_frame_alike {calls : List Call} (inRange : ∀ op ∈ calls, op.InRange) :
    (∀ n > calls.length,
      pieces Frontend.readRequest n (calls.map Call.frame).flatten =
        (calls.map Call.frame, some .incomplete) ∧
      pieces Emulator.readRequest n (calls.map Call.frame).flatten =
        (calls.map Call.frame, some .incomplete)) ∧
    ∀ op ∈ calls,
      (∃ f, parseFrame true op.frame = .ok f ∧ op.Enveloped f ∧ f.data = op.payload) ∧
      ∀ reply data, op.Matching reply data →
        expectedResponseLen op.frame = .ok (reply.length : Int) ∧
        ∃ f, parseFrame true reply = .ok f ∧ op.Enveloped f ∧ f.data = data ∧
          (f.isAck = true ↔ ∃ address bytes, op = .write address bytes) := by
  have each : ∀ frame ∈ calls.map Call.frame,
      Delimited Frontend.readRequest frame ∧ Delimited Emulator.readRequest frame := by
    intro frame member
    obtain ⟨op, listed, rfl⟩ := List.mem_map.mp member
    exact Call.delimited (inRange op listed)
  constructor
  · intro n enough
    have enough' : (calls.map Call.frame).length < n := by simpa using enough
    exact ⟨Pieces.pieces_flatten (fun frame member => (each frame member).1) rfl enough',
      Pieces.pieces_flatten (fun frame member => (each frame member).2) rfl enough'⟩
  · intro op listed
    refine ⟨Call.parsed (inRange op listed), fun reply data matching => ?_⟩
    exact ⟨Call.matching_length (inRange op listed) matching,
      Call.matching_parsed (inRange op listed) matching⟩

/-- The settings read and a write of a setpoint, on one stream. -/
theorem settings_and_setpoint_framed :
    pieces Frontend.readRequest 3 ((Call.read 0 115).frame ++ (Call.write 2 [105]).frame) =
      ([(Call.read 0 115).frame, (Call.write 2 [105]).frame], some .incomplete) :=
  ((@both_ends_frame_alike [.read 0 115, .write 2 [105]] (by decide)).1 3 (by decide)).1

end R60V
