import R60V.Bridge.Requests

/-! The front-end's handler of one LAN client, suspended at the `await`s of `_handle_client`. What
arrives, how the governor answers and whether the client takes what is written are events. -/
namespace R60V

open Python (Text int decodeAscii)
open Protocol (parseFrame Cut AllHex Loose hexValue hexBytes Decoded buildFrame buildAck)
open Runs (Run Move Along outputs forall_snoc along_snoc)

/-- How a connection came to be closed. -/
inductive Closing where
  | endOfStream
  -- Connection loss: the `OSError`s that `_handle_client` catches.
  | lost
  | malformed
  | failed
  | escaped (e : Exc)
  deriving DecidableEq

inductive HandlerPhase where
  | greeting
  | reading
  | awaiting (raw : Text) (f : Protocol.Frame)
  | replying
  | closed (how : Closing)
  deriving DecidableEq

structure Handler where
  phase : HandlerPhase
  -- What has arrived and is not read.
  buffer : Text
  ended : Bool

inductive HandlerEvent where
  | arrive (received : List UInt8)
  | endOfStream
  -- The stream holds all that the reads of one request ask for, or can never hold it.
  | read
  | lost
  | answered (result : Except Exc (List Int))
  | drained (ok : Bool)

inductive HandlerEffect where
  | submit (raw : Text) (op : Call)
  | reply (text : Text)
  deriving DecidableEq

def HandlerEvent.arrived : HandlerEvent → Text
  | .arrive bytes => decodeAscii bytes
  | _ => []

def HandlerEffect.submitted : HandlerEffect → Option (Text × Call)
  | .submit raw op => some (raw, op)
  | .reply _ => none

def opOf (f : Protocol.Frame) : Call :=
  match f.command with
  | .read => .read f.address f.length
  | .write => .write f.address f.data

-- The reply of `_dispatch` once the governor has answered.
def replyTo (f : Protocol.Frame) (data : List Int) : Text :=
  match f.command with
  | .read => buildFrame .read f.address f.length data
  | .write => buildAck .write f.address f.length

namespace Handler

def start : Handler := ⟨.greeting, [], false⟩

def close (s : Handler) (how : Closing) : Handler := { s with phase := .closed how }

/-- `_dispatch` up to its `await`. -/
def dispatch (s : Handler) (raw : Text) : Handler × List HandlerEffect :=
  match parseFrame true raw with
  | .error _ => (s.close .malformed, [])
  | .ok f => ({ s with phase := .awaiting raw f }, [.submit raw (opOf f)])

def read (s : Handler) : Option (Handler × List HandlerEffect) :=
  match Frontend.readRequest s.buffer with
  | .ok (raw, rest) => some ({ s with buffer := rest }.dispatch raw)
  | .error .value => some (s.close (.escaped .value), [])
  | .error .incomplete => if s.ended then some (s.close .endOfStream, []) else none

def answered (s : Handler) (f : Protocol.Frame) :
    Except Exc (List Int) → Handler × List HandlerEffect
  | .ok data => ({ s with phase := .replying }, [.reply (replyTo f data)])
  | .error e => (s.close (if e.isConnectionError then .failed else .escaped e), [])

def step (s : Handler) : HandlerEvent → Option (Handler × List HandlerEffect)
  | .arrive received =>
    match s.phase, s.ended with
    | .closed _, _ | _, true => none
    | _, false => some ({ s with buffer := s.buffer ++ decodeAscii received }, [])
  | .endOfStream =>
    match s.phase with
    | .closed _ => none
    | _ => some ({ s with ended := true }, [])
  | .read => if s.phase = .reading then s.read else none
  | .lost => if s.phase = .reading then some (s.close .lost, []) else none
  | .answered result =>
    match s.phase with
    | .awaiting _ f => some (s.answered f result)
    | _ => none
  | .drained ok =>
    if s.phase = .greeting ∨ s.phase = .replying then
      some (if ok then { s with phase := .reading } else s.close .lost, [])
    else none

/-- What a step can do, with the guard that lets it. -/
inductive Stepped (s : Handler) : HandlerEvent → Handler → List HandlerEffect → Prop where
  | arrive {received : List UInt8} (opened : ∀ how, s.phase ≠ .closed how)
      (more : s.ended = false) :
      Stepped s (.arrive received) { s with buffer := s.buffer ++ decodeAscii received } []
  | endOfStream (opened : ∀ how, s.phase ≠ .closed how) :
      Stepped s .endOfStream { s with ended := true } []
  | malformed {raw rest : Text} {e : Protocol.ProtocolError} (reading : s.phase = .reading)
      (cut : Frontend.readRequest s.buffer = .ok (raw, rest))
      (rejected : parseFrame true raw = .error e) :
      Stepped s .read ({ s with buffer := rest }.close .malformed) []
  | submit {raw rest : Text} {f : Protocol.Frame} (reading : s.phase = .reading)
      (cut : Frontend.readRequest s.buffer = .ok (raw, rest))
      (parsed : parseFrame true raw = .ok f) :
      Stepped s .read { s with buffer := rest, phase := .awaiting raw f } [.submit raw (opOf f)]
  | negative (reading : s.phase = .reading) (cut : Frontend.readRequest s.buffer = .error .value) :
      Stepped s .read (s.close (.escaped .value)) []
  | finished (reading : s.phase = .reading)
      (cut : Frontend.readRequest s.buffer = .error .incomplete) (over_ : s.ended = true) :
      Stepped s .read (s.close .endOfStream) []
  | lost (reading : s.phase = .reading) : Stepped s .lost (s.close .lost) []
  | replied {raw : Text} {f : Protocol.Frame} {data : List Int}
      (waiting : s.phase = .awaiting raw f) :
      Stepped s (.answered (.ok data)) { s with phase := .replying } [.reply (replyTo f data)]
  | failed {raw : Text} {f : Protocol.Frame} {e : Exc} (waiting : s.phase = .awaiting raw f) :
      Stepped s (.answered (.error e))
        (s.close (if e.isConnectionError then .failed else .escaped e)) []
  | drained (writing : s.phase = .greeting ∨ s.phase = .replying) :
      Stepped s (.drained true) { s with phase := .reading } []
  | undrained (writing : s.phase = .greeting ∨ s.phase = .replying) :
      Stepped s (.drained false) (s.close .lost) []

variable {s t : Handler} {e : HandlerEvent} {effects : List HandlerEffect}

theorem step_stepped (h : s.step e = some (t, effects)) : s.Stepped e t effects := by
  cases e with
  | arrive received =>
    simp only [step] at h
    split at h
    · cases h
    · cases h
    · rename_i more opened
      cases h
      exact .arrive opened more
  | endOfStream =>
    simp only [step] at h
    split at h
    · cases h
    · rename_i opened
      cases h
      exact .endOfStream opened
  | read =>
    simp only [step] at h
    split at h
    · rename_i reading
      unfold read at h
      split at h
      · rename_i raw rest cut
        unfold dispatch at h
        split at h
        · rename_i rejected
          cases h
          exact .malformed reading cut rejected
        · rename_i parsed
          cases h
          exact .submit reading cut parsed
      · rename_i cut
        cases h
        exact .negative reading cut
      · rename_i cut
        split at h
        · rename_i over_
          cases h
          exact .finished reading cut over_
        · cases h
    · cases h
  | lost =>
    simp only [step] at h
    split at h
    · rename_i reading
      cases h
      exact .lost reading
    · cases h
  | answered result =>
    simp only [step] at h
    split at h
    · rename_i waiting
      cases result with
      | ok data => cases h; exact .replied waiting
      | error e => cases h; exact .failed waiting
    · cases h
  | drained ok =>
    simp only [step] at h
    split at h
    · rename_i writing
      cases ok with
      | true => cases h; exact .drained writing
      | false => cases h; exact .undrained writing
    · cases h

/-- `int` reads nothing leniently in the frame, and it is no acknowledgement. -/
def StrictFrame (raw : Text) : Prop :=
  ∀ cut : Cut, cut.text = raw → ¬ Loose cut.address ∧ ¬ Loose cut.length ∧ ¬ Loose cut.payload ∧
    cut.payload ≠ Protocol.ack

theorem readExactly_ok {stream front rest : Text} {count : Int}
    (h : readExactly stream count = .ok (front, rest)) :
    stream = front ++ rest ∧ (front.length : Int) = count := by
  unfold readExactly at h
  split at h
  · cases h
  · rename_i nonneg
    split at h
    · cases h
    · rename_i enough
      cases h
      refine ⟨(List.take_append_drop _ stream).symm, ?_⟩
      rw [List.length_take]
      omega

/-- A request is cut off after as many characters as its own length field says. -/
theorem readRequest_ok {stream raw rest : Text}
    (h : Frontend.readRequest stream = .ok (raw, rest)) :
    stream = raw ++ rest ∧
      (raw.length : Int) = 9 + Frontend.restLength (raw.take 9) := by
  unfold Frontend.readRequest at h
  cases first : readExactly stream 9 with
  | error e => simp [first] at h
  | ok r =>
    obtain ⟨envelope, after⟩ := r
    simp only [first] at h
    cases second : readExactly after (Frontend.restLength envelope) with
    | error e => simp [second] at h
    | ok r =>
      obtain ⟨payload, tail⟩ := r
      simp only [second, Except.ok.injEq, Prod.mk.injEq] at h
      obtain ⟨rfl, rfl⟩ := h
      obtain ⟨rfl, nine⟩ := readExactly_ok first
      obtain ⟨rfl, count⟩ := readExactly_ok second
      have envelope_nine : envelope.length = 9 := by exact_mod_cast nine
      refine ⟨by simp, ?_⟩
      rw [List.take_left' envelope_nine, List.length_append, ← count]
      push_cast
      omega

/-- What follows a request, or a negative length, changes nothing about how it is read. -/
theorem readRequest_append {stream raw rest : Text}
    (h : Frontend.readRequest stream = .ok (raw, rest)) (more : Text) :
    Frontend.readRequest (stream ++ more) = .ok (raw, rest ++ more) := by
  unfold Frontend.readRequest at h ⊢
  cases first : readExactly stream 9 with
  | error e => simp [first] at h
  | ok r =>
    obtain ⟨envelope, after⟩ := r
    simp only [first] at h
    cases second : readExactly after (Frontend.restLength envelope) with
    | error e => simp [second] at h
    | ok r =>
      obtain ⟨payload, tail⟩ := r
      simp only [second, Except.ok.injEq, Prod.mk.injEq] at h
      obtain ⟨rfl, rfl⟩ := h
      obtain ⟨rfl, nine⟩ := readExactly_ok first
      obtain ⟨rfl, count⟩ := readExactly_ok second
      simp only [List.append_assoc, readExactly_append nine, readExactly_append count]

theorem readRequest_value {stream : Text} (h : Frontend.readRequest stream = .error .value)
    (more : Text) : Frontend.readRequest (stream ++ more) = .error .value := by
  unfold Frontend.readRequest at h ⊢
  cases first : readExactly stream 9 with
  | error e =>
    simp only [first, Except.error.injEq] at h
    simp only [readExactly] at first
    split at first
    · omega
    · split at first
      · cases first
        cases h
      · cases first
  | ok r =>
    obtain ⟨envelope, after⟩ := r
    simp only [first] at h
    obtain ⟨rfl, nine⟩ := readExactly_ok first
    simp only [List.append_assoc, readExactly_append nine]
    have negative : Frontend.restLength envelope < 0 := by
      by_contra nonneg
      simp only [readExactly, if_neg nonneg] at h
      by_cases short : after.length < (Frontend.restLength envelope).toNat
      · simp only [if_pos short] at h
        cases h
      · simp only [if_neg short] at h
        cases h
    simp only [readExactly, if_pos negative]

theorem opOf_frame {command : Protocol.Command} {address length : Int} {data : List Int}
    {supplied raw : Text} : opOf ⟨command, address, length, data, supplied, raw⟩ =
      match command with
      | .read => .read address length
      | .write => .write address data := by
  cases command <;> rfl

/-- The payload of a frame that the handler has cut is as long as the frame says. -/
theorem payload_count {stream rest : Text} {cut : Cut} {address length : Int} {data : List Int}
    (taken : Frontend.readRequest stream = .ok (cut.text, rest))
    (reads : cut.Reads address length data) :
    match cut.command with
    | .read => cut.payload = []
    | .write => (cut.payload.length : Int) = 2 * length := by
  have count := (readRequest_ok taken).2
  rw [cut.take_envelope, cut.length_text, cut.length_body, Frontend.restLength,
    cut.slice_envelope, reads.length] at count
  cases command : cut.command with
  | read =>
    rw [if_neg (by rw [cut.head_envelope, command]; decide)] at count
    exact List.eq_nil_of_length_eq_zero (by omega)
  | write =>
    rw [if_pos (cut.head_envelope.mpr command)] at count
    simp only at count ⊢
    omega

/-- Of what the handler has cut and parsed, the strict frames are the well-formed requests. -/
theorem strictFrame_iff {stream raw rest : Text} {f : Protocol.Frame}
    (decoded : ∀ c ∈ raw, Decoded c) (taken : Frontend.readRequest stream = .ok (raw, rest))
    (parsed : parseFrame true raw = .ok f) : StrictFrame raw ↔ Asks raw (opOf f) := by
  obtain ⟨cut, rfl, reads, same⟩ := Protocol.parseFrame_ok_iff.mp parsed
  constructor
  · intro strict
    obtain ⟨address, length, payload, notAck⟩ := strict cut rfl
    have part : ∀ {field : Text}, (∀ c ∈ field, c ∈ cut.text) → ∀ c ∈ field, Decoded c :=
      fun within c member => decoded c (within c member)
    have addressHex := (Protocol.allHex_of_int
      (part fun c member => Cut.mem_text.mpr (by simp [member])) address reads.address).2
    have lengthHex := (Protocol.allHex_of_int
      (part fun c member => Cut.mem_text.mpr (by simp [member])) length reads.length).2
    have addressValue := reads.address
    rw [Protocol.int_allHex (Cut.ne_of_four cut.address_four) addressHex] at addressValue
    have lengthValue := reads.length
    rw [Protocol.int_allHex (Cut.ne_of_four cut.length_four) lengthHex] at lengthValue
    have sums := (Protocol.checksum_upper_iff cut.checksum_two
      (part fun c member => Cut.mem_text.mpr (by simp [member]))).mp reads.checksum
    have count := payload_count taken reads
    have pairs : Protocol.hexPairs cut.payload = some f.data := reads.pairs notAck
    have payloadHex := Protocol.allHex_of_hexPairs
      (part fun c member => Cut.mem_text.mpr (by simp [member])) payload pairs
    have inBody : ∀ c ∈ cut.body, c.toNat < 128 := by
      intro c member
      simp only [Cut.body, List.mem_cons, List.mem_append] at member
      rcases member with rfl | member | member | member
      · cases cut.command <;> decide
      · exact Protocol.toNat_of_isHexDigit (addressHex c member)
      · exact Protocol.toNat_of_isHexDigit (lengthHex c member)
      · exact Protocol.toNat_of_isHexDigit (payloadHex c member)
    rw [Protocol.byteSum_ascii inBody] at sums
    refine ⟨cut, rfl, addressHex, lengthHex, ?_, sums.1, sums.2⟩
    rw [same, opOf_frame, ← Option.some.inj addressValue, ← Option.some.inj lengthValue]
    cases command : cut.command with
    | read =>
      rw [command] at count
      exact ⟨count, rfl⟩
    | write =>
      rw [command] at count
      simp only [← Option.some.inj lengthValue] at count
      refine ⟨payloadHex, by omega, ?_⟩
      have even : cut.payload.length % 2 = 0 := by omega
      rw [Protocol.hexPairs_allHex payloadHex even] at pairs
      rw [Option.some.inj pairs]
  · rintro ⟨asked, text, asks⟩ cut' text'
    obtain rfl : asked = cut := Cut.ext_text text
    obtain rfl : cut' = asked := Cut.ext_text text'
    have payloadHex := asks.payload_hex
    refine ⟨Protocol.plain_of_allHex asks.address, Protocol.plain_of_allHex asks.length,
      Protocol.plain_of_allHex payloadHex, fun isAck => ?_⟩
    rw [isAck] at payloadHex
    exact absurd (payloadHex 'O' (by decide)) (by decide)

/-- Everything the client has sent, and the operations that were submitted because of it. -/
def received (ms : List (Move Handler HandlerEvent HandlerEffect)) : Text :=
  ms.flatMap fun m => m.event.arrived

def submissions (ms : List (Move Handler HandlerEvent HandlerEffect)) : List (Text × Call) :=
  (outputs ms).filterMap HandlerEffect.submitted

/-- The reply to an operation that has succeeded: a write is acknowledged with as many bytes as were
written. -/
def Settles (text : Text) (data : List Int) : Call → Prop
  | .read address length => text = buildFrame .read address length data
  | .write address written => text = buildAck .write address written.length

/-- What the handler next reads is no well-formed request. -/
def NoRequest (stream : Text) : Prop := ∀ raw rest op, Asks raw op → stream ≠ raw ++ rest

/-- The front-end forwards exactly what the client asked. -/
structure Faithful (ms : List (Move Handler HandlerEvent HandlerEffect)) (s : Handler) : Prop where
  -- The submissions are the well-formed requests that the stream begins with, up to where the
  -- handler is. It ends by itself only where no further one follows.
  forwards : ∃ rest, received ms = ((submissions ms).map (·.1)).flatten ++ rest ∧
    (∀ r ∈ submissions ms, Asks r.1 r.2) ∧
    (s.phase = .closed .endOfStream ∨ s.phase = .closed .malformed → NoRequest rest)
  -- Each reply settles the last submission, which has succeeded.
  settles : Along (fun front m => ∀ text, .reply text ∈ m.emits →
    ∃ data r, m.event = .answered (.ok data) ∧ (submissions front).getLast? = some r ∧
      Settles text data r.2) ms
  -- A malformed or failed request closes the connection, and nothing happens on a closed one.
  stops : ∀ m ∈ ms, (m.event = .read ∧ NoRequest m.before.buffer ∨
    ∃ e, m.event = .answered (.error e)) → m.emits = [] ∧ ∃ how, m.after.phase = .closed how
  rests : ∀ m ∈ ms, ∀ how, m.before.phase ≠ .closed how
  escapes : ∀ e, s.phase ≠ .closed (.escaped e)

/-- The condition on a step: no frame is read leniently, no length is negative, and operations fail
only with `R60VConnectionError`. -/
def Strict (s : Handler) : HandlerEvent → Prop
  | .read => (∀ raw rest, Frontend.readRequest s.buffer = .ok (raw, rest) →
      (∃ f, parseFrame true raw = .ok f) → StrictFrame raw) ∧
    Frontend.readRequest s.buffer ≠ .error .value
  | .answered (.error e) => e.isConnectionError = true
  | _ => True

theorem asks_parsed {raw : Text} {op : Call} {f : Protocol.Frame} (asks : Asks raw op)
    (parsed : parseFrame true raw = .ok f) : opOf f = op := by
  obtain ⟨cut, rfl, asks⟩ := asks
  obtain ⟨same, text, reads, eq⟩ := Protocol.parseFrame_ok_iff.mp parsed
  obtain rfl : same = cut := Cut.ext_text text
  have address := reads.address
  rw [Protocol.int_allHex (Cut.ne_of_four same.address_four) asks.address] at address
  have length := reads.length
  rw [Protocol.int_allHex (Cut.ne_of_four same.length_four) asks.length] at length
  have payload := asks.payload
  rw [eq, opOf_frame, ← Option.some.inj address, ← Option.some.inj length]
  cases command : same.command with
  | read =>
    rw [command] at payload
    exact payload.2.symm
  | write =>
    rw [command] at payload
    have data := reads.payload
    rw [Cut.payloadData_hex payload.1 payload.2.1] at data
    simp only
    rw [← Except.ok.inj data, payload.2.2]

theorem asks_accepted {raw : Text} {op : Call} (asks : Asks raw op) :
    ∃ f, parseFrame true raw = .ok f := by
  obtain ⟨cut, rfl, asks⟩ := asks
  obtain ⟨data, reads, -⟩ := asks.documented.reads asks.ascii
  exact ⟨_, reads.parsed⟩

theorem noRequest_of_read {stream raw rest : Text}
    (taken : Frontend.readRequest stream = .ok (raw, rest)) (other : ∀ op, ¬ Asks raw op) :
    NoRequest stream := by
  rintro asked tail op ⟨cut, rfl, asks⟩ rfl
  rw [asks.delimited tail] at taken
  cases taken
  exact other op ⟨cut, rfl, asks⟩

theorem noRequest_of_incomplete {stream : Text} {e : ReadExc}
    (taken : Frontend.readRequest stream = .error e) : NoRequest stream := by
  rintro asked tail op ⟨cut, rfl, asks⟩ rfl
  rw [asks.delimited tail] at taken
  cases taken

theorem decoded_ascii (bytes : List UInt8) : ∀ c ∈ decodeAscii bytes, Decoded c := by
  intro c member
  obtain ⟨byte, -, rfl⟩ := List.mem_map.mp member
  have table : ∀ n < 128, (Char.ofNat n).toNat < 128 := by decide
  split
  · rename_i ascii
    exact Or.inl (table byte.toNat ascii)
  · exact Or.inr rfl

variable {ms : List (Move Handler HandlerEvent HandlerEffect)}

theorem step_decoded (decoded : ∀ c ∈ s.buffer, Decoded c) (h : s.step e = some (t, effects)) :
    ∀ c ∈ t.buffer, Decoded c := by
  have cut : ∀ {raw rest : Text}, Frontend.readRequest s.buffer = .ok (raw, rest) →
      ∀ c ∈ rest, Decoded c := fun taken c member =>
    decoded c ((readRequest_ok taken).1 ▸ List.mem_append_right _ member)
  cases step_stepped h with
  | arrive =>
    intro c member
    rcases List.mem_append.mp member with member | member
    · exact decoded c member
    · exact decoded_ascii _ c member
  | malformed _ taken _ => exact cut taken
  | submit _ taken _ => exact cut taken
  | _ => exact decoded

theorem decoded_buffer (run : Run step start ms s) : ∀ c ∈ s.buffer, Decoded c :=
  run.invariant (fun s => ∀ c ∈ s.buffer, Decoded c) (fun _ member => by cases member)
    (fun _ _ _ _ => step_decoded)

theorem step_opened (h : s.step e = some (t, effects)) (how : Closing) :
    s.phase ≠ .closed how := by
  cases step_stepped h with
  | arrive opened | endOfStream opened => exact opened how
  | malformed reading | submit reading | negative reading | finished reading | lost reading =>
    rw [reading]
    simp
  | replied waiting | failed waiting =>
    rw [waiting]
    simp
  | drained writing | undrained writing =>
    rcases writing with writing | writing <;>
    · rw [writing]
      simp

-- A connection that has been closed stays as it is.
theorem closed_last (run : Run step start ms s)
    {m : Move Handler HandlerEvent HandlerEffect} (member : m ∈ ms) {how : Closing}
    (closed : m.after.phase = .closed how) : s = m.after := by
  induction run with
  | nil => cases member
  | snoc _ h ih =>
    rcases List.mem_append.mp member with member | member
    · have same := ih member
      exact absurd (same ▸ closed) (step_opened h how)
    · rw [List.mem_singleton.mp member]

@[simp] theorem received_snoc (m : Move Handler HandlerEvent HandlerEffect) :
    received (ms ++ [m]) = received ms ++ m.event.arrived := by
  simp [received]

@[simp] theorem submissions_snoc (m : Move Handler HandlerEvent HandlerEffect) :
    submissions (ms ++ [m]) = submissions ms ++ m.emits.filterMap HandlerEffect.submitted := by
  simp [submissions]

theorem settles_of_asks {raw : Text} {f : Protocol.Frame} (parsed : parseFrame true raw = .ok f)
    (asks : Asks raw (opOf f)) (data : List Int) : Settles (replyTo f data) data (opOf f) := by
  obtain ⟨cut, rfl, asks⟩ := asks
  obtain ⟨same, text, reads, eq⟩ := Protocol.parseFrame_ok_iff.mp parsed
  obtain rfl : same = cut := Cut.ext_text text
  have length := reads.length
  rw [Protocol.int_allHex (Cut.ne_of_four same.length_four) asks.length] at length
  have payload := asks.payload
  rw [eq, opOf_frame, replyTo]
  rw [eq, opOf_frame] at payload
  cases command : same.command with
  | read => rfl
  | write =>
    simp only [command, Call.write.injEq] at payload ⊢
    have count : f.length = f.data.length := by
      rw [payload.2.2.2, Cut.length_hexBytes, payload.2.1, ← Option.some.inj length]
      omega
    rw [Settles, count]

/-- What holds of the handler after steps that all meet the condition. -/
structure Sound (ms : List (Move Handler HandlerEvent HandlerEffect)) (s : Handler) : Prop where
  faithful : Faithful ms s
  opened : (∀ how, s.phase ≠ .closed how) →
    received ms = ((submissions ms).map (·.1)).flatten ++ s.buffer
  waiting : ∀ raw f, s.phase = .awaiting raw f → (submissions ms).getLast? = some (raw, opOf f) ∧
    parseFrame true raw = .ok f ∧ Asks raw (opOf f)

theorem sound_start : Sound [] start where
  faithful :=
    { forwards := ⟨[], rfl, by simp [submissions], by simp [start]⟩
      settles := by rintro ⟨⟩ _ _ ⟨⟩
      stops := by simp
      rests := by simp
      escapes := by simp [start] }
  opened := fun _ => rfl
  waiting := by simp [start]

/-- A step that submits nothing. -/
theorem Sound.quiet (sound : Sound ms s) (h : s.step e = some (t, effects))
    (silent : effects.filterMap HandlerEffect.submitted = [])
    (buffer : (∀ how, t.phase ≠ .closed how) → t.buffer = s.buffer ++ e.arrived)
    (over_ : t.phase = .closed .endOfStream ∨ t.phase = .closed .malformed →
      NoRequest (s.buffer ++ e.arrived))
    (settles : ∀ text, .reply text ∈ effects → ∃ data r, e = .answered (.ok data) ∧
      (submissions ms).getLast? = some r ∧ Settles text data r.2)
    (stops : (e = .read ∧ NoRequest s.buffer ∨ ∃ x, e = .answered (.error x)) →
      effects = [] ∧ ∃ how, t.phase = .closed how)
    (escapes : ∀ x, t.phase ≠ .closed (.escaped x))
    (waiting : ∀ raw f, t.phase = .awaiting raw f → s.phase = .awaiting raw f) :
    Sound (ms ++ [⟨s, e, effects, t⟩]) t := by
  have opened := sound.opened (step_opened h)
  obtain ⟨-, -, asked, -⟩ := sound.faithful.forwards
  have same : submissions (ms ++ [⟨s, e, effects, t⟩]) = submissions ms := by simp [silent]
  have more : received (ms ++ [⟨s, e, effects, t⟩]) =
      ((submissions ms).map (·.1)).flatten ++ (s.buffer ++ e.arrived) := by simp [opened]
  refine ⟨⟨⟨_, ?_, ?_, over_⟩, ?_, ?_, ?_, escapes⟩, ?_, ?_⟩
  · rw [same, more]
  · rwa [same]
  · exact along_snoc.mpr ⟨sound.faithful.settles, settles⟩
  · exact forall_snoc.mpr ⟨sound.faithful.stops, stops⟩
  · exact forall_snoc.mpr ⟨sound.faithful.rests, step_opened h⟩
  · intro open_
    rw [same, more, buffer open_]
  · intro raw f now
    rw [same]
    exact sound.waiting raw f (waiting raw f now)

theorem step_sound (sound : Sound ms s) (decoded : ∀ c ∈ s.buffer, Decoded c)
    (h : s.step e = some (t, effects)) (strict : s.Strict e) :
    Sound (ms ++ [⟨s, e, effects, t⟩]) t := by
  cases step_stepped h with
  | arrive opened more =>
    exact sound.quiet h rfl (fun _ => rfl) (by simp [opened]) (by simp) (by simp) (by simp [opened])
      (fun _ _ => id)
  | endOfStream opened =>
    exact sound.quiet h rfl (fun _ => by simp [HandlerEvent.arrived]) (by simp [opened]) (by simp)
      (by simp) (by simp [opened]) (fun _ _ => id)
  | @malformed raw rest x reading taken rejected =>
    have other : ∀ op, ¬ Asks raw op := by
      intro op asks
      obtain ⟨f, parsed⟩ := asks_accepted asks
      rw [rejected] at parsed
      cases parsed
    exact sound.quiet h rfl (fun open_ => absurd rfl (open_ _))
      (fun _ => by simpa [HandlerEvent.arrived] using noRequest_of_read taken other) (by simp)
      (fun _ => ⟨rfl, _, rfl⟩) (by simp [close]) (by simp [close])
  | @submit raw rest f reading taken parsed =>
    have asks : Asks raw (opOf f) :=
      (strictFrame_iff (fun c member => decoded c ((readRequest_ok taken).1 ▸
        List.mem_append_left _ member)) taken parsed).mp (strict.1 raw rest taken ⟨f, parsed⟩)
    have opened := sound.opened (step_opened h)
    obtain ⟨-, -, asked, -⟩ := sound.faithful.forwards
    have more : submissions (ms ++ [⟨s, .read, [.submit raw (opOf f)],
        { s with buffer := rest, phase := .awaiting raw f }⟩]) =
        submissions ms ++ [(raw, opOf f)] := by simp [HandlerEffect.submitted]
    have whole : received (ms ++ [⟨s, .read, [.submit raw (opOf f)],
        { s with buffer := rest, phase := .awaiting raw f }⟩]) =
        (((submissions ms ++ [(raw, opOf f)]).map (·.1)).flatten) ++ rest := by
      simp [opened, HandlerEvent.arrived, (readRequest_ok taken).1]
    refine ⟨⟨⟨rest, ?_, ?_, by simp⟩, ?_, ?_, ?_, by simp⟩, ?_, ?_⟩
    · rw [more, whole]
    · rw [more]
      intro r member
      rcases List.mem_append.mp member with member | member
      · exact asked r member
      · rw [List.mem_singleton.mp member]
        exact asks
    · exact along_snoc.mpr ⟨sound.faithful.settles, by simp⟩
    · refine forall_snoc.mpr ⟨sound.faithful.stops, ?_⟩
      rintro (⟨-, none_⟩ | ⟨x, ⟨⟩⟩)
      exact absurd (readRequest_ok taken).1 (none_ raw rest _ asks)
    · exact forall_snoc.mpr ⟨sound.faithful.rests, step_opened h⟩
    · intro _
      rw [more, whole]
    · intro raw' f' now
      cases now
      rw [more]
      exact ⟨List.getLast?_concat .., parsed, asks⟩
  | negative reading taken => exact absurd taken strict.2
  | finished reading taken ended =>
    exact sound.quiet h rfl (fun open_ => absurd rfl (open_ _))
      (fun _ => by simpa [HandlerEvent.arrived] using noRequest_of_incomplete taken) (by simp)
      (fun _ => ⟨rfl, _, rfl⟩) (by simp [close]) (by simp [close])
  | lost reading =>
    exact sound.quiet h rfl (fun open_ => absurd rfl (open_ _)) (by simp [close]) (by simp)
      (by simp) (by simp [close]) (by simp [close])
  | @replied raw f data waiting =>
    obtain ⟨last, parsed, asks⟩ := sound.waiting raw f waiting
    refine sound.quiet h rfl (fun _ => by simp [HandlerEvent.arrived]) (by simp) ?_ (by simp)
      (by simp) (by simp)
    intro text sent
    obtain rfl : text = replyTo f data := by simpa using sent
    exact ⟨data, _, rfl, last, settles_of_asks parsed asks data⟩
  | @failed raw f x waiting =>
    have connection : x.isConnectionError = true := strict
    simp only [connection, if_true] at h ⊢
    exact sound.quiet h rfl (fun open_ => absurd rfl (open_ _)) (by simp [close]) (by simp)
      (fun _ => ⟨rfl, _, rfl⟩) (by simp [close]) (by simp [close])
  | drained writing =>
    exact sound.quiet h rfl (fun _ => by simp [HandlerEvent.arrived]) (by simp) (by simp) (by simp)
      (by simp) (by simp)
  | undrained writing =>
    exact sound.quiet h rfl (fun open_ => absurd rfl (open_ _)) (by simp [close]) (by simp)
      (by simp) (by simp [close]) (by simp [close])

theorem strict_of_faithful (run : Run step start ms s) (faithful : Faithful ms s)
    {m : Move Handler HandlerEvent HandlerEffect} (member : m ∈ ms) : m.before.Strict m.event := by
  have h := run.move_step member
  have decoded := run.invariant_before (fun s => ∀ c ∈ s.buffer, Decoded c)
    (fun _ member => by cases member) (fun _ _ _ _ => step_decoded) member
  obtain ⟨s₀, e, effects, t⟩ := m
  simp only at h decoded ⊢
  have sane : ∀ x, t.phase ≠ .closed (.escaped x) := by
    intro x closed
    have last := closed_last run member closed
    exact faithful.escapes x (last ▸ closed)
  cases step_stepped h with
  | malformed reading taken rejected =>
    refine ⟨fun raw rest again ⟨f, parsed⟩ => ?_, by simp [taken]⟩
    rw [taken] at again
    cases again
    rw [rejected] at parsed
    cases parsed
  | @submit raw rest f reading taken parsed =>
    refine ⟨fun raw' rest' again _ => ?_, by simp [taken]⟩
    rw [taken] at again
    cases again
    rw [strictFrame_iff (fun c inRaw => decoded c ((readRequest_ok taken).1 ▸
      List.mem_append_left _ inRaw)) taken parsed]
    by_contra other
    have none_ : ∀ op, ¬ Asks raw op := by
      intro op asks
      rw [← asks_parsed asks parsed] at asks
      exact other asks
    have silent := (faithful.stops _ member (Or.inl ⟨rfl, noRequest_of_read taken none_⟩)).1
    cases silent
  | negative reading taken => exact absurd rfl (sane .value)
  | finished reading taken ended => exact ⟨by simp [taken], by simp [taken]⟩
  | @failed raw f x waiting =>
    by_contra other
    have stray : x.isConnectionError = false := by simpa [Strict] using other
    exact sane x (by simp [close, stray])
  | _ => trivial

/-- **The front-end forwards exactly what clients asked**, in a run of a handler on whatever its
client sends, if and only if no frame of it is read leniently, no length field is below -1 and the
governed operations fail only with `R60VConnectionError`. -/
theorem forwards_faithfully_iff (run : Run step start ms s) :
    Faithful ms s ↔ ∀ m ∈ ms, m.before.Strict m.event := by
  constructor
  · exact fun faithful m => strict_of_faithful run faithful
  · intro strict
    have sound : Sound ms s := by
      induction run with
      | nil => exact sound_start
      | snoc earlier h ih =>
        obtain ⟨before, last⟩ := forall_snoc.mp strict
        exact step_sound (ih before) (decoded_buffer earlier) h last
    exact sound.faithful

theorem tail_text (cut : Cut) :
    cut.text.tail = cut.address ++ (cut.length ++ (cut.payload ++ cut.checksum)) := by
  simp [Cut.text, Cut.body]

theorem strictFrame_of_hex {raw : Text} (hex : AllHex raw.tail) : StrictFrame raw := by
  rintro cut rfl
  rw [tail_text] at hex
  have address : AllHex cut.address := fun c member => hex c (by simp [member])
  have length : AllHex cut.length := fun c member => hex c (by simp [member])
  have payload : AllHex cut.payload := fun c member => hex c (by simp [member])
  refine ⟨Protocol.plain_of_allHex address, Protocol.plain_of_allHex length,
    Protocol.plain_of_allHex payload, fun isAck => ?_⟩
  exact absurd (payload 'O' (by rw [isAck]; decide)) (by decide)

theorem hex_of_asks {raw : Text} {op : Call} (asks : Asks raw op) : AllHex raw.tail := by
  obtain ⟨cut, rfl, asks⟩ := asks
  rw [tail_text]
  intro c member
  simp only [List.mem_append] at member
  rcases member with member | member | member | member
  · exact asks.address c member
  · exact asks.length c member
  · exact asks.payload_hex c member
  · exact asks.checksum c member

def sent (text : Text) : HandlerEvent := .arrive (text.map fun c => c.toNat.toUInt8)

/-- A client writes a setpoint, reads it back over a link that fails, and is dropped. -/
theorem setpoint_forwarded : ∃ ms s, Run step start ms s ∧
    (submissions ms).map (·.2) = [.write 2 [105], .read 2 1] ∧ Faithful ms s := by
  have reached : (Runs.feed step start [.drained true, sent (Call.write 2 [105]).frame, .read,
      .answered (.ok []), .drained true, sent (Call.read 2 1).frame, .read,
      .answered (.error (.requestFailed [] .osError))]).any (fun r =>
      (submissions r.2).map (·.2) == [.write 2 [105], .read 2 1] && r.2.all fun m =>
        match m.event with
        | .read => match Frontend.readRequest m.before.buffer with
          | .ok (raw, _) => decide (AllHex raw.tail)
          | .error _ => false
        | .answered (.error e) => e.isConnectionError
        | _ => true) = true := by decide +kernel
  obtain ⟨ms, s, run, -, tested⟩ := Runs.feed_reaches reached
  simp only [Bool.and_eq_true, beq_iff_eq, List.all_eq_true] at tested
  refine ⟨ms, s, run, tested.1, (forwards_faithfully_iff run).mpr fun m member => ?_⟩
  have test := tested.2 m member
  unfold Strict
  split
  · rename_i isRead
    rw [isRead] at test
    constructor
    · intro raw rest taken _
      simp only [taken, decide_eq_true_eq] at test
      exact strictFrame_of_hex test
    · intro taken
      simp [taken] at test
  · rename_i e failed
    simpa [failed] using test
  · trivial

/-- A client sends the acknowledgement of a write of one byte. The handler forwards a write of no
bytes and acknowledges it as one of one byte. -/
theorem ack_forwarded : ¬ ∀ ms s, Run step start ms s → Faithful ms s := by
  have reached : (Runs.feed step start
      [.drained true, sent (buildAck .write 2 1), .read, .answered (.ok []), .drained true]).any
      (fun r => submissions r.2 == [(buildAck .write 2 1, .write 2 [])]) = true := by decide +kernel
  intro faithful
  obtain ⟨ms, s, run, -, tested⟩ := Runs.feed_reaches reached
  obtain ⟨rest, -, asked, -⟩ := (faithful ms s run).forwards
  rw [beq_iff_eq.mp tested] at asked
  have hex := hex_of_asks (asked _ (List.mem_singleton_self _))
  exact absurd (hex 'O' (by decide +kernel)) (by decide)

end Handler

end R60V
