import R60V.Bridge.Grammar

/-! The integration's own copy of the wire codec. It differs from the bridge's in one place:
`decode_data` lets the `ValueError` of a pair that is no numeral through. -/
namespace R60V.Integration

open Python (Text int decodeAscii)
open Protocol (Command Frame ProtocolError Cut checksum hexPairs slice)

inductive CodecExc where
  | protocol (e : ProtocolError)
  | value
  deriving DecidableEq

def decodeData (hex : Text) : Except CodecExc (List Int) :=
  if hex.length % 2 ≠ 0 then .error (.protocol (.oddLength hex))
  else match hexPairs hex with
    | some data => .ok data
    | none => .error .value

def payloadData (payload : Text) : Except CodecExc (List Int) :=
  if payload = Protocol.ack then .ok [] else decodeData payload

def parseFrame (verify : Bool) (raw : Text) : Except CodecExc Frame :=
  if raw.length < 11 then .error (.protocol (.tooShort raw))
  else match Command.ofChar (raw.headD ' ') with
    | none => .error (.protocol (.invalidCommand raw))
    | some command =>
      match int 16 (slice raw 1 5), int 16 (slice raw 5 9) with
      | some address, some length =>
        let supplied := raw.drop (raw.length - 2)
        let body := raw.take (raw.length - 2)
        match payloadData (body.drop 9) with
        | .error e => .error e
        | .ok data =>
          if verify ∧ checksum body ≠ supplied.map Char.toUpper then
            .error (.protocol (.checksumMismatch raw supplied (checksum body)))
          else .ok ⟨command, address, length, data, supplied, raw⟩
      | _, _ => .error (.protocol (.badEnvelope raw))

/-- A payload of pairs one of which is no numeral. -/
def Garbled (payload : Text) : Prop :=
  payload ≠ Protocol.ack ∧ payload.length % 2 = 0 ∧
    ∃ i < payload.length / 2, int 16 (slice payload (2 * i) (2 * i + 2)) = none

instance (payload : Text) : Decidable (Garbled payload) := inferInstanceAs (Decidable (_ ∧ _))

/-- A frame in which only the payload is garbled, or the payload and the checksum. -/
def GarbledFrame (raw : Text) : Prop :=
  ∃ cut : Cut, cut.text = raw ∧ (int 16 cut.address).isSome ∧ (int 16 cut.length).isSome ∧
    Garbled cut.payload

theorem hexPairs_eq_none {hex : Text} (even : hex.length % 2 = 0) : hexPairs hex = none ↔
    ∃ i < hex.length / 2, int 16 (slice hex (2 * i) (2 * i + 2)) = none := by
  fun_induction hexPairs hex with
  | case1 => simp
  | case2 => simp at even
  | case3 a b rest x number ih =>
    have even' : rest.length % 2 = 0 := by simp only [List.length_cons] at even; omega
    have half : (a :: b :: rest).length / 2 = rest.length / 2 + 1 := by
      simp only [List.length_cons]; omega
    have later : ∀ i, slice (a :: b :: rest) (2 * (i + 1)) (2 * (i + 1) + 2) =
        slice rest (2 * i) (2 * i + 2) := fun i => by
      simp only [slice, show 2 * (i + 1) = 2 * i + 2 by omega, List.drop_succ_cons]
      congr 1
      omega
    rw [Option.map_eq_none_iff, ih even', half]
    constructor
    · rintro ⟨i, lt, none_⟩
      exact ⟨i + 1, by omega, by rw [later, none_]⟩
    · rintro ⟨i, lt, none_⟩
      cases i with
      | zero =>
        have first : int 16 [a, b] = none := none_
        rw [number] at first
        cases first
      | succ i => exact ⟨i, by omega, by rw [← later, none_]⟩
  | case4 a b rest unread =>
    refine iff_of_true rfl ⟨0, by simp only [List.length_cons]; omega, ?_⟩
    exact unread

-- What the bridge raises where the integration raises this.
def CodecExc.asBridge (payload : Text) : CodecExc → ProtocolError
  | .protocol e => e
  | .value => .nonHex payload

theorem payloadData_bridge (payload : Text) :
    Protocol.payloadData payload = (payloadData payload).mapError (CodecExc.asBridge payload) := by
  unfold Protocol.payloadData payloadData Protocol.decodeData decodeData
  split
  · rfl
  · split
    · rfl
    · cases hexPairs payload <;> rfl

theorem payloadData_value (payload : Text) :
    payloadData payload = .error .value ↔ Garbled payload := by
  unfold payloadData decodeData Garbled
  by_cases isAck : payload = Protocol.ack
  · simp [isAck]
  · by_cases even : payload.length % 2 = 0
    · rw [← hexPairs_eq_none even]
      cases hexPairs payload <;> simp [isAck, even]
    · simp [isAck, even]

theorem parseFrame_cut (verify : Bool) (cut : Cut) : parseFrame verify cut.text =
    match int 16 cut.address, int 16 cut.length with
    | some address, some length =>
      match payloadData cut.payload with
      | .error e => .error e
      | .ok data =>
        if verify ∧ checksum cut.body ≠ cut.checksum.map Char.toUpper then
          .error (.protocol (.checksumMismatch cut.text cut.checksum (checksum cut.body)))
        else .ok ⟨cut.command, address, length, data, cut.checksum, cut.text⟩
    | _, _ => .error (.protocol (.badEnvelope cut.text)) := by
  have long : ¬ cut.text.length < 11 := by rw [cut.length_text, cut.length_body]; omega
  have head : Command.ofChar (cut.text.headD ' ') = some cut.command :=
    Protocol.ofChar_char cut.command
  simp only [parseFrame, if_neg long, head, cut.slice_address, cut.slice_length, cut.take_text,
    cut.drop_text, cut.drop_body]

theorem garbledFrame_text (cut : Cut) : GarbledFrame cut.text ↔
    (int 16 cut.address).isSome ∧ (int 16 cut.length).isSome ∧ Garbled cut.payload := by
  constructor
  · rintro ⟨same, text, garbled⟩
    rwa [Cut.ext_text text] at garbled
  · exact fun garbled => ⟨cut, rfl, garbled⟩

/-- A garbled frame is one as far as its length and its command go. -/
theorem GarbledFrame.framed {raw : Text} (garbled : GarbledFrame raw) :
    ¬ raw.length < 11 ∧ Command.ofChar (raw.headD ' ') ≠ none := by
  obtain ⟨cut, rfl, -⟩ := garbled
  constructor
  · rw [cut.length_text, cut.length_body]
    omega
  · have head : Command.ofChar (cut.text.headD ' ') = some cut.command :=
      Protocol.ofChar_char cut.command
    rw [head]
    exact Option.some_ne_none _

theorem parseFrame_value_cut (verify : Bool) (cut : Cut) :
    parseFrame verify cut.text = .error .value ↔ GarbledFrame cut.text := by
  rw [garbledFrame_text, parseFrame_cut, ← payloadData_value]
  cases int 16 cut.address with
  | none => simp
  | some address =>
    cases int 16 cut.length with
    | none => simp
    | some length =>
      cases payloadData cut.payload with
      | ok data =>
        simp only [Option.isSome_some, true_and, reduceCtorEq, iff_false]
        split <;> simp
      | error e => simp

/-- The `ValueError` gets out of a garbled frame only. -/
theorem parseFrame_value_iff (verify : Bool) (raw : Text) :
    parseFrame verify raw = .error .value ↔ GarbledFrame raw := by
  by_cases short : raw.length < 11
  · refine iff_of_false ?_ fun garbled => garbled.framed.1 short
    rw [parseFrame, if_pos short]
    simp
  · cases first : Command.ofChar (raw.headD ' ') with
    | none =>
      refine iff_of_false ?_ fun garbled => garbled.framed.2 first
      simp only [parseFrame, if_neg short, first]
      simp
    | some command =>
      obtain ⟨cut, rfl, -⟩ := Protocol.exists_cut short first
      exact parseFrame_value_cut verify cut

/-- The two results of one frame: both hand it back alike, or both raise `ProtocolError`. -/
inductive SameOutcome : Except ProtocolError Frame → Except CodecExc Frame → Prop where
  | frames {f g : Frame} (command : f.command = g.command) (address : f.address = g.address)
      (length : f.length = g.length) (data : f.data = g.data) (checksum : f.checksum = g.checksum) :
      SameOutcome (.ok f) (.ok g)
  | errors {e e' : ProtocolError} : SameOutcome (.error e) (.error (.protocol e'))

theorem sameOutcome_cut (verify : Bool) (cut : Cut) :
    SameOutcome (Protocol.parseFrame verify cut.text) (parseFrame verify cut.text) ↔
      ¬ GarbledFrame cut.text := by
  rw [garbledFrame_text, parseFrame_cut, Protocol.parseFrame_cut]
  cases int 16 cut.address with
  | none => exact iff_of_true .errors (by simp)
  | some address =>
    cases int 16 cut.length with
    | none => exact iff_of_true .errors (by simp)
    | some length =>
      simp only [Option.isSome_some, true_and, ← payloadData_value, payloadData_bridge]
      cases payloadData cut.payload with
      | ok data =>
        refine iff_of_true ?_ (by simp)
        simp only [Except.mapError]
        split
        · exact .errors
        · exact .frames rfl rfl rfl rfl rfl
      | error e =>
        cases e with
        | protocol e => exact iff_of_true .errors (by simp)
        | value =>
          refine iff_of_false ?_ (by simp)
          rintro ⟨⟩

theorem sameOutcome_iff (verify : Bool) (raw : Text) :
    SameOutcome (Protocol.parseFrame verify raw) (parseFrame verify raw) ↔ ¬ GarbledFrame raw := by
  by_cases short : raw.length < 11
  · refine iff_of_true ?_ fun garbled => garbled.framed.1 short
    rw [Protocol.parseFrame, parseFrame, if_pos short, if_pos short]
    exact .errors
  · cases first : Command.ofChar (raw.headD ' ') with
    | none =>
      refine iff_of_true ?_ fun garbled => garbled.framed.2 first
      simp only [Protocol.parseFrame, parseFrame, if_neg short, first]
      exact .errors
    | some command =>
      obtain ⟨cut, rfl, -⟩ := Protocol.exists_cut short first
      exact sameOutcome_cut verify cut

/-- **The two codecs agree** on everything that is received, except on a frame of which an
otherwise readable payload has a pair that is no numeral. -/
theorem codecs_agree_iff (received : List UInt8) :
    SameOutcome (Protocol.parseFrame true (decodeAscii received))
      (parseFrame true (decodeAscii received)) ↔ ¬ GarbledFrame (decodeAscii received) :=
  sameOutcome_iff true (decodeAscii received)

/-- The reply to a read with its data garbled: `r00020001G0` and a checksum. -/
theorem garbled_reply_differs : ¬ ∀ received : List UInt8,
    SameOutcome (Protocol.parseFrame true (decodeAscii received))
      (parseFrame true (decodeAscii received)) := by
  intro all
  have agreed := all [114, 48, 48, 48, 50, 48, 48, 48, 49, 71, 48, 48, 48]
  have raises : parseFrame true (decodeAscii
      [114, 48, 48, 48, 50, 48, 48, 48, 49, 71, 48, 48, 48]) = .error .value := by decide
  rw [raises] at agreed
  cases agreed

end R60V.Integration
