import R60V.Bridge.Broker
import R60V.Bridge.Requests

/-! Which write-intents the push channel lets in, against what the wire can carry. The
validator bounds the bytes but not the address or the number of bytes, and a field of the
envelope has four digits at least, not at most. -/
namespace R60V

open Python (Text)
open Protocol (Cut AllHex Word Byte Frame parseFrame formatHex buildEnvelope encodeData checksum
  slice ack)

namespace Protocol

theorem length_leftpad_toDigits (w n : Nat) :
    (((Nat.toDigits 16 n).map Char.toUpper).leftpad w '0').length =
      max w (Nat.toDigits 16 n).length := by
  rw [List.length_leftpad, List.length_map]

theorem four_le_formatHex (x : Int) : 4 ≤ (formatHex 4 x).length := by
  unfold formatHex
  dsimp only
  split
  · rw [length_leftpad_toDigits]
    exact le_max_left _ _
  · rw [List.length_cons, length_leftpad_toDigits]
    have := le_max_left 3 (Nat.toDigits 16 x.natAbs).length
    omega

/-- The width is a minimum: only a word fills four digits and no more. -/
theorem word_of_formatHex {x : Int} (four : (formatHex 4 x).length = 4)
    (hex : AllHex (formatHex 4 x)) : Word x := by
  unfold formatHex at four hex
  dsimp only at four hex
  split at four
  · rename_i nonnegative
    rw [length_leftpad_toDigits] at four
    have digits : (Nat.toDigits 16 x.natAbs).length ≤ 4 := four ▸ le_max_right _ _
    have small := (Nat.length_toDigits_le_iff (by decide) (by decide)).mp digits
    constructor <;> omega
  · rename_i negative
    rw [if_neg negative] at hex
    have sign : isHexDigit '-' = true := hex '-' List.mem_cons_self
    simp [isHexDigit, Python.digitValue] at sign

end Protocol

/-- The frame that `R60VClient.write` sends is cut into two fields of four hex digits, and it
decodes to a write of exactly this. -/
structure Intent.WrittenBy (i : Intent) (cut : Cut) : Prop where
  text : cut.text = (Call.write i.address i.data).frame
  address : AllHex cut.address
  length : AllHex cut.length
  decodes : ∃ f, parseFrame true cut.text = .ok f ∧ f.command = .write ∧
    f.address = i.address ∧ f.data = i.data

def Intent.WellWritten (i : Intent) : Prop := ∃ cut : Cut, i.WrittenBy cut

namespace Intent

variable {i : Intent}

theorem wellWritten_of_words (bytes : ∀ b ∈ i.data, Byte b) (address : Word i.address)
    (length : Word i.data.length) : i.WellWritten := by
  have text := @Call.cutOf_text .write _ _ address length (encodeData i.data)
  obtain ⟨f, parsed, command, same, _, data, _⟩ :=
    Protocol.parseFrame_buildFrame .write address length true bytes
  refine ⟨Call.cutOf .write i.address i.data.length (encodeData i.data), text,
    Call.allHex_hexWord 4 _, Call.allHex_hexWord 4 _, f, ?_, command, same, data⟩
  rw [text]
  exact parsed

/-- The payload is as long as its bytes say, so neither field may be longer than four digits. -/
theorem WrittenBy.fields {cut : Cut} (written : i.WrittenBy cut) (some_ : i.data ≠ [])
    (bytes : ∀ b ∈ i.data, Byte b) :
    cut.address = formatHex 4 i.address ∧ cut.length = formatHex 4 i.data.length := by
  obtain ⟨f, parsed, -, -, data⟩ := written.decodes
  obtain ⟨cut', same, reads, -⟩ := Protocol.parseFrame_ok_iff.mp parsed
  obtain rfl := Cut.ext_text same
  have notAck : cut'.payload ≠ Protocol.ack := by
    intro isAck
    have payload := reads.payload
    rw [isAck, Protocol.payloadData_ack] at payload
    exact some_ (data ▸ (Except.ok.inj payload).symm)
  have payload := Protocol.length_of_hexPairs (Protocol.Cut.Reads.pairs reads notAck)
  rw [data] at payload
  have text : cut'.text = (buildEnvelope .write i.address i.data.length ++ encodeData i.data) ++
      checksum (buildEnvelope .write i.address i.data.length ++ encodeData i.data) := written.text
  have size := congrArg List.length text
  simp only [cut'.length_text, cut'.length_body, buildEnvelope, List.length_append,
    List.length_cons, Protocol.length_checksum, Protocol.length_encodeData bytes] at size
  have widthA := Protocol.four_le_formatHex i.address
  have widthL := Protocol.four_le_formatHex i.data.length
  have fourA : (formatHex 4 i.address).length = 4 := by omega
  have fourL : (formatHex 4 (i.data.length : Int)).length = 4 := by omega
  rw [← cut'.slice_address, ← cut'.slice_length, text]
  simp only [slice, buildEnvelope, List.cons_append, List.append_assoc, List.drop_succ_cons,
    List.drop_zero]
  constructor
  · exact List.take_left' fourA
  · rw [List.drop_left' fourA]
    exact List.take_left' fourL

theorem wellWritten_iff (some_ : i.data ≠ []) (bytes : ∀ b ∈ i.data, Byte b) :
    i.WellWritten ↔ Word i.address ∧ Word i.data.length := by
  constructor
  · rintro ⟨cut, written⟩
    obtain ⟨address, length⟩ := written.fields some_ bytes
    constructor
    · apply Protocol.word_of_formatHex
      · rw [← address, cut.address_four]
      · exact address ▸ written.address
    · apply Protocol.word_of_formatHex
      · rw [← length, cut.length_four]
      · exact length ▸ written.length
  · rintro ⟨address, length⟩
    exact wellWritten_of_words bytes address length

end Intent

/-- One item of `data`, as the validator takes it. -/
def jsonByte (b : Json) : Option Int := b.asInt.filter fun n => 0 ≤ n && n ≤ 0xFF

theorem bytes_of_mapM {items : List Json} {data : List Int}
    (converted : items.mapM jsonByte = some data) :
    data.length = items.length ∧ ∀ b ∈ data, Byte b := by
  induction items generalizing data with
  | nil =>
    obtain rfl : data = [] := by simpa using converted.symm
    simp
  | cons item items ih =>
    simp only [List.mapM_cons, Option.pure_def, Option.bind_eq_bind, Option.bind_eq_some_iff,
      Option.some.injEq] at converted
    obtain ⟨b, first, rest, later, rfl⟩ := converted
    obtain ⟨length, bytes⟩ := ih later
    obtain ⟨_, inside⟩ := Option.filter_eq_some_iff.mp first
    simp only [Bool.and_eq_true, decide_eq_true_eq] at inside
    refine ⟨by simp [length], ?_⟩
    intro x member
    rcases List.mem_cons.mp member with rfl | member
    · exact ⟨inside.1, by omega⟩
    · exact bytes x member

theorem validate_data {frame : WsFrame} {i : Intent} (valid : validate frame = some i) :
    i.data ≠ [] ∧ ∀ b ∈ i.data, Byte b := by
  unfold validate at valid
  split at valid
  · obtain ⟨data, converted, rfl⟩ := Option.map_eq_some_iff.mp valid
    obtain ⟨length, bytes⟩ := bytes_of_mapM converted
    exact ⟨List.ne_nil_of_length_eq_add_one length, bytes⟩
  · cases valid

namespace IntentLoop

variable (store : DeviceState) (loop : IntentLoop) (frame : WsFrame)

def Admits (i : Intent) : Prop :=
  (loop.onWsCommand store frame).2.1.queue = loop.queue ++ [i]

/-- What is let in becomes a write of exactly itself, and what is not leaves no trace. -/
def AdmitsExactly : Prop :=
  (∀ i, loop.Admits store frame i → i.WellWritten) ∧
  ((∀ i, ¬ loop.Admits store frame i) →
    (loop.onWsCommand store frame).1 = store ∧ (loop.onWsCommand store frame).2.1 = loop)

variable {store : DeviceState} {loop : IntentLoop} {frame : WsFrame}

theorem admits_iff {i : Intent} : loop.Admits store frame i ↔
    validate frame = some i ∧ loop.queue.length < intentQueueMax := by
  unfold Admits onWsCommand
  split
  · rename_i invalid
    simp [invalid]
  · rename_i j valid
    split
    · rename_i room
      simp [valid, room]
    · rename_i full
      simp [full]

theorem onWsCommand_ignored (ignored : ∀ i, ¬ loop.Admits store frame i) :
    (loop.onWsCommand store frame).1 = store ∧ (loop.onWsCommand store frame).2.1 = loop := by
  unfold onWsCommand
  split
  · exact ⟨rfl, rfl⟩
  · rename_i i valid
    rw [if_neg fun room => ignored i (admits_iff.mpr ⟨valid, room⟩)]
    exact ⟨rfl, rfl⟩

/-- **An admitted write-intent is written as it is** exactly when its address and the number of
its bytes fit the words of the envelope, which the validator does not look at. -/
theorem admitsExactly_iff (store : DeviceState) (loop : IntentLoop) (frame : WsFrame) :
    loop.AdmitsExactly store frame ↔
      ∀ i, validate frame = some i → loop.queue.length < intentQueueMax →
        (0 ≤ i.address ∧ i.address ≤ 0xFFFF) ∧ i.data.length ≤ 0xFFFF := by
  have each : ∀ i, validate frame = some i →
      (i.WellWritten ↔ (0 ≤ i.address ∧ i.address ≤ 0xFFFF) ∧ i.data.length ≤ 0xFFFF) := by
    intro i valid
    obtain ⟨some_, bytes⟩ := validate_data valid
    rw [Intent.wellWritten_iff some_ bytes, Word, Word]
    omega
  constructor
  · rintro ⟨written, -⟩ i valid room
    exact (each i valid).mp (written i (admits_iff.mpr ⟨valid, room⟩))
  · intro fits
    refine ⟨?_, onWsCommand_ignored⟩
    intro i admitted
    obtain ⟨valid, room⟩ := admits_iff.mp admitted
    exact (each i valid).mpr (fits i valid room)

/-- The address is one more than a word holds, and the frame is one character too long. -/
theorem wide_address_admitted : ¬ ∀ (store : DeviceState) (loop : IntentLoop) (frame : WsFrame),
    loop.AdmitsExactly store frame := by
  intro all
  have written := (all (.new 4 12 1) ⟨[], none⟩
    [("address", .int 0x10000), ("data", .list [.int 1])]).1 ⟨0x10000, [1]⟩ rfl
  have words := (Intent.wellWritten_iff (by decide) (by decide)).mp written
  exact absurd words.1 (by decide)

end IntentLoop

end R60V
