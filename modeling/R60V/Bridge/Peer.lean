import R60V.Bridge.Frontend
import R60V.Bridge.Upstream

/-! A machine that answers at once: the emulator's memory at the other end of the client's link.
While it does, an operation of the client has the effect and the result of the memory's own. -/
namespace R60V

open Python (Text)
open Protocol (parseFrame Word Byte buildFrame buildAck)

/-- The bytes of the settings. -/
structure MachineModel.Sound (m : MachineModel) : Prop where
  size : m.settings.length = 0x100
  bytes : ∀ b ∈ m.settings, Byte b

theorem MachineModel.initial_sound : MachineModel.initial.Sound :=
  ⟨by decide +kernel, by decide +kernel⟩

/-- Where the registers that the operation is about end. -/
def Call.reach : Call → Int
  | .read address length => address + length
  | .write address data => address + data.length

/-- The reply to an operation, with the bytes that a read has read. -/
def Call.answer (op : Call) (data : List Int) : Text :=
  match op with
  | .read address length => buildFrame .read address length data
  | .write address written => buildAck .write address written.length

/-- An operation on the memory itself. -/
def MachineModel.serve (m : MachineModel) : Call → MachineModel × List Int
  | .read address length =>
    match m.read [] address length with
    | .ok data => (m, data)
    | .error _ => (m, [])
  | .write address data => ((m.write address data).1, [])

/-- In range and within the settings. -/
structure Call.OnSettings (op : Call) : Prop where
  inRange : op.InRange
  reach : op.reach ≤ 0x100

theorem asks_inRange {raw : Text} {op : Call} (asks : Asks raw op) : op.InRange := by
  obtain ⟨cut, rfl, asks⟩ := asks
  obtain ⟨data, reads, address, length, bytes⟩ := asks.documented.reads asks.ascii
  have payload := asks.payload
  cases command : cut.command with
  | read =>
    rw [command] at payload
    rw [payload.2]
    exact ⟨address, length⟩
  | write =>
    rw [command] at payload
    have same := reads.payload
    rw [Protocol.Cut.payloadData_hex payload.1 payload.2.1] at same
    have count := Protocol.Cut.length_hexBytes cut.payload
    rw [payload.2.2]
    refine ⟨address, ?_, fun b member => bytes b (Except.ok.inj same ▸ member)⟩
    rw [count, payload.2.1]
    simpa using length

namespace MachineModel

variable {m : MachineModel}

theorem length_ljust {xs : List Int} {width : Int} (short : (xs.length : Int) ≤ width) :
    ((ljust xs width 0).length : Int) = width := by
  simp only [ljust, List.length_append, List.length_replicate]
  omega

theorem mem_ljust {xs : List Int} {width b : Int} (bytes : ∀ b ∈ xs, Byte b)
    (member : b ∈ ljust xs width 0) : Byte b := by
  rcases List.mem_append.mp member with member | member
  · exact bytes b member
  · rw [(List.mem_replicate.mp member).2]
    decide

theorem length_sliceOf_le (xs : List Int) {i j : Int} (first : 0 ≤ i) (second : i ≤ j) :
    ((sliceOf xs i j).length : Int) ≤ j - i := by
  simp only [sliceOf, slicePosition, List.length_drop, List.length_take]
  split <;> split <;> omega

theorem mem_sliceOf {xs : List Int} {i j b : Int} (member : b ∈ sliceOf xs i j) : b ∈ xs :=
  List.mem_of_mem_take (List.mem_of_mem_drop member)

/-- A read within the settings gives as many bytes as were asked for, whatever the time is. -/
theorem read_settings (sound : m.Sound) {address length : Int} (here : 0 ≤ address)
    (long : 0 ≤ length) (reach : address + length ≤ 0x100) (now : List Int) :
    m.read now address length = .ok (m.serve (.read address length)).2 ∧
      ((m.serve (.read address length)).2.length : Int) = length ∧
      ∀ b ∈ (m.serve (.read address length)).2, Byte b := by
  by_cases settings : address < 0x100
  · have slice := length_sliceOf_le m.settings here (show address ≤ address + length by omega)
    simp only [serve, read, if_pos settings]
    refine ⟨trivial, length_ljust (by omega), fun b member => ?_⟩
    exact mem_ljust (fun b member => sound.bytes b (mem_sliceOf member)) member
  · -- Nothing at the end of the settings, which is no live register either.
    obtain rfl : address = 0x100 := by omega
    obtain rfl : length = 0 := by omega
    simp [serve, read, readLive, zeroBytes]

theorem writeFrom_sound (sound : m.Sound) {address : Int} {data : List Int} (here : 0 ≤ address)
    (reach : address + data.length ≤ 0x100) :
    (m.writeFrom address data).2 = none ∧ (m.writeFrom address data).1.Sound := by
  induction data generalizing m address with
  | nil => exact ⟨rfl, sound⟩
  | cons value rest ih =>
    have size := sound.size
    simp only [List.length_cons] at reach
    have index : indexOf m.settings address = some address.toNat := by
      have inside : 0 ≤ address ∧ address < (m.settings.length : Int) := by omega
      simp only [indexOf, if_neg (show ¬ address < 0 by omega), if_pos inside]
    simp only [writeFrom, index]
    refine ih ⟨by simpa using size, fun b member => ?_⟩ (by omega) (by push_cast at reach; omega)
    rcases List.mem_or_eq_of_mem_set member with member | rfl
    · exact sound.bytes b member
    · exact ⟨Int.emod_nonneg _ (by decide), Int.emod_lt_of_pos _ (by decide)⟩

theorem write_settings (sound : m.Sound) {address : Int} {data : List Int} (here : 0 ≤ address)
    (reach : address + data.length ≤ 0x100) :
    (m.write address data).2 = none ∧ (m.write address data).1.Sound := by
  unfold write
  split
  · exact ⟨rfl, sound⟩
  · exact writeFrom_sound sound here reach

theorem serve_sound (sound : m.Sound) {op : Call} (on : op.OnSettings) : (m.serve op).1.Sound := by
  cases op with
  | read address length =>
    simp only [serve]
    split <;> exact sound
  | write address data => exact (write_settings sound on.inRange.1.1 on.reach).2

end MachineModel

theorem settles_iff {text : Text} {data : List Int} {op : Call} :
    Handler.Settles text data op ↔ text = op.answer data := by
  cases op <;> rfl

/-- A well-formed read, in whatever way it is spelt, is a read of the memory. -/
theorem process_read {raw : Text} {address length : Int} (asks : Asks raw (.read address length))
    (m : MachineModel) (now : List Int) : Emulator.process m now raw =
      (m, (m.read now address length).map fun data =>
        some (buildFrame .read address length data)) := by
  obtain ⟨f, parsed⟩ := Handler.asks_accepted asks
  have same := Handler.asks_parsed asks parsed
  simp only [Emulator.process, parsed]
  cases command : f.command with
  | read =>
    simp only [opOf, command, Call.read.injEq] at same
    rw [same.1, same.2]
  | write =>
    simp only [opOf, command] at same
    cases same

/-- A well-formed write is a write to the memory, acknowledged where that goes through. -/
theorem process_write {raw : Text} {address : Int} {data : List Int}
    (asks : Asks raw (.write address data)) (m : MachineModel) (now : List Int) :
    Emulator.process m now raw = ((m.write address data).1,
      (m.write address data).2.elim (.ok (some (buildAck .write address data.length))) .error) := by
  obtain ⟨f, parsed⟩ := Handler.asks_accepted asks
  have same := Handler.asks_parsed asks parsed
  have settles := settles_iff.mp (Handler.settles_of_asks parsed (same ▸ asks) [])
  rw [same] at settles
  simp only [Emulator.process, parsed]
  cases command : f.command with
  | read =>
    simp only [opOf, command] at same
    cases same
  | write =>
    simp only [opOf, command, Call.write.injEq] at same
    simp only [replyTo, command, Call.answer] at settles
    have plain : f.data.all (fun b => 0 ≤ b && b < 256) = true := by
      rw [List.all_eq_true]
      intro b member
      obtain ⟨low, high⟩ := (asks_inRange asks).2.2 b (same.2 ▸ member)
      simp [low, high]
    rw [← settles, same.1, same.2]
    rw [same.2] at plain
    generalize m.write address data = after
    obtain ⟨m', failure⟩ := after
    cases failure with
    | some e => rfl
    | none => simp only [plain, if_true, Option.elim_none]

/-- The emulator serves every well-formed request for settings, in whatever way it is spelt. -/
theorem process_asks {m : MachineModel} (sound : m.Sound) {raw : Text} {op : Call}
    (asks : Asks raw op) (on : op.OnSettings) (now : List Int) :
    Emulator.process m now raw = ((m.serve op).1, .ok (some (op.answer (m.serve op).2))) := by
  cases op with
  | read address length =>
    obtain ⟨read, -, -⟩ := MachineModel.read_settings sound on.inRange.1.1 on.inRange.2.1 on.reach
      now
    have memory : (m.serve (.read address length)).1 = m := by
      simp only [MachineModel.serve]
      split <;> rfl
    rw [process_read asks, read, memory]
    rfl
  | write address data =>
    obtain ⟨written, -⟩ := MachineModel.write_settings sound on.inRange.1.1 on.reach
    rw [process_write asks, written]
    rfl

/-- The reply fits the request: the client knows its length and gets the data out of it. -/
theorem answer_matching {m : MachineModel} (sound : m.Sound) {op : Call} (on : op.OnSettings) :
    op.Matching (op.answer (m.serve op).2) (m.serve op).2 := by
  cases op with
  | read address length =>
    obtain ⟨-, size, bytes⟩ := MachineModel.read_settings sound on.inRange.1.1 on.inRange.2.1
      on.reach []
    exact ⟨size, bytes, rfl⟩
  | write address data => exact ⟨rfl, rfl⟩

/-- The machine, and what it has sent on the connection and the client has not read. -/
structure Peer where
  machine : MachineModel
  line : Text

/-- A link that has not been closed. -/
def Up (link : Option Link) : Prop := ∃ l, link = some l ∧ l.closing = false

namespace Peer

def deliver (p : Peer) (count : Nat) : Option (Answer × Peer) :=
  if p.line.length < count then none
  else some (.bytes (p.line.take count), { p with line := p.line.drop count })

/-- The answer to what the client awaits, `none` where it goes on waiting. -/
def answer (p : Peer) (r : Request) : Option (Answer × Peer) :=
  match r.point with
  | .opening _ => some (.opened, { p with line := Protocol.hello })
  | .greeting _ => p.deliver Protocol.hello.length
  | .exchange use _ .reply =>
    match expectedResponseLen (Client.frameOf r use) with
    | .error _ => none
    | .ok want => p.deliver want.toNat
  | .dropOld _ | .backingOff _ | .dropFailed _ | .exchange _ _ .pace | .exchange _ _ .drain =>
    some (.done, p)

/-- A frame reaches the machine whole, and is processed at once. -/
def hear (now : List Int) (p : Peer) : Act → Peer
  | .send _ frame =>
    match Emulator.process p.machine now frame with
    | (machine, .ok (some reply)) => ⟨machine, p.line ++ reply⟩
    | (machine, _) => { p with machine := machine }
  | .hangUp _ => { p with line := [] }
  | .dial _ => p

/-- Between two operations. -/
structure Rests (m : MachineModel) (link : Option Link) (p : Peer) : Prop where
  link : link = none ∨ Up link
  peer : p = ⟨m, []⟩

/-- In an operation on the memory `m`: what has been served where, and what is on the line. -/
def Talks (op : Call) (m : MachineModel) (link : Option Link) (p : Peer) : Point → Prop
  | .opening _ => link = none ∧ p = ⟨m, []⟩
  | .greeting _ => Up link ∧ p = ⟨m, Protocol.hello⟩
  | .exchange _ 0 .pace => Up link ∧ p = ⟨m, []⟩
  | .exchange use 0 .drain | .exchange use 0 .reply =>
    Up link ∧ p = ⟨(m.serve (use.call op)).1, (use.call op).answer (m.serve (use.call op)).2⟩
  | _ => False

variable {cfg : ClientConfig} {c : Client} {r : Request} {op : Call} {m : MachineModel}
  {p p' : Peer} {a : Answer} {next : Client × List Act}

/-- The operation goes on, or has succeeded with the data of the memory. -/
def Progress (op : Call) (m : MachineModel) (now : List Int) (p : Peer)
    (next : Client × List Act) : Prop :=
  (∃ r, next.1.task = .running r ∧ r.frame = op.frame ∧
    Talks op m next.1.link (next.2.foldl (hear now) p) r.point) ∨
  ∃ f, next.1.task = .ended op.frame (.ok f) ∧ f.data = (m.serve op).2 ∧
    Rests (m.serve op).1 next.1.link (next.2.foldl (hear now) p)

theorem settingsCall_on : settingsCall.OnSettings := ⟨by decide, by decide⟩

theorem call_on (use : Use) (on : op.OnSettings) : (use.call op).OnSettings := by
  cases use with
  | warmUp _ => exact settingsCall_on
  | main => exact on

theorem frameOf_call (use : Use) (frame : r.frame = op.frame) :
    Client.frameOf r use = (use.call op).frame := by
  cases use with
  | warmUp _ => rfl
  | main => exact frame

theorem serve_settings (m : MachineModel) : (m.serve settingsCall).1 = m := by
  simp only [MachineModel.serve, settingsCall]
  split <;> rfl

/-- The reply to the frame of an exchange is what the client waits for. -/
theorem reply_length (sound : m.Sound) (on : op.OnSettings) (use : Use)
    (frame : r.frame = op.frame) : expectedResponseLen (Client.frameOf r use) =
      .ok ((use.call op).answer (m.serve (use.call op)).2).length := by
  rw [frameOf_call use frame]
  exact Call.matching_length (call_on use on).inRange (answer_matching sound (call_on use on))

theorem beginExchange_progress (sound : m.Sound) (on : op.OnSettings) (use : Use)
    (frame : r.frame = op.frame) (up : Up c.link) (now : List Int) :
    Progress op m now ⟨m, []⟩ (c.beginExchange r use) := by
  obtain ⟨l, linked, open_⟩ := up
  have length := reply_length sound on use frame
  refine Or.inl ⟨{ r with point := .exchange use 0 .pace }, ?_, frame, ?_⟩
  · simp only [Client.beginExchange, linked, length, Client.suspend]
  · simp only [Client.beginExchange, linked, length, Client.suspend]
    exact ⟨⟨l, rfl, open_⟩, rfl⟩

theorem Rests.progress (rests : Rests m c.link p) (sound : m.Sound) (on : op.OnSettings)
    (h : c.request cfg op.frame = some next) (now : List Int) : Progress op m now p next := by
  obtain ⟨link, rfl⟩ := rests
  unfold Client.request at h
  split at h
  · cases h
  · cases h
    rcases link with gone | ⟨l, linked, open_⟩
    · have off := Client.connected_of_link gone
      refine Or.inl ⟨⟨op.frame, 0, .opening cfg.backoffInitial⟩, ?_, rfl, ?_⟩
      · simp [Client.ensureConnected, off, Client.connect, Client.drop, gone, Client.suspend]
      · simp [Client.ensureConnected, off, Client.connect, Client.drop, gone, Client.suspend,
          hear, Talks]
    · have on_ : c.connected = true := by simp [Client.connected, linked, open_]
      simp only [Client.ensureConnected, on_, if_true]
      exact beginExchange_progress sound on .main rfl ⟨l, linked, open_⟩ now

theorem deliver_all {line : Text} (h : (⟨m, line⟩ : Peer).deliver line.length = some (a, p)) :
    a = .bytes line ∧ p = ⟨m, []⟩ := by
  simp only [deliver, lt_irrefl, if_false, List.take_length, List.drop_length] at h
  cases h
  exact ⟨rfl, rfl⟩

theorem exchange_progress (sound : m.Sound) (on : op.OnSettings) {use : Use} {phase : Phase}
    (running : c.task = .running r) (here : r.point = .exchange use 0 phase)
    (frame : r.frame = op.frame) (talks : Talks op m c.link p (.exchange use 0 phase))
    (answered : p.answer r = some (a, p')) (h : c.resume cfg a = some next) (now : List Int) :
    Progress op m now p' next := by
  have length := reply_length sound on use frame
  cases phase with
  | pace =>
    obtain ⟨⟨l, linked, open_⟩, rfl⟩ := talks
    simp only [answer, here] at answered
    cases answered
    have ascii : Python.isAscii (Client.frameOf r use) = true :=
      frameOf_call use frame ▸ Call.isAscii_frame _
    simp only [Client.resume, running, here, Client.resumeExchange, linked, ascii, if_true] at h
    cases h
    have asks := Call.asks (call_on use on).inRange
    refine Or.inl ⟨{ r with point := .exchange use 0 .drain }, rfl, frame, ?_⟩
    simp only [List.foldl_cons, List.foldl_nil, hear, frameOf_call use frame,
      process_asks sound asks (call_on use on), List.nil_append]
    exact ⟨⟨_, rfl, open_⟩, rfl⟩
  | drain =>
    obtain ⟨⟨l, linked, open_⟩, rfl⟩ := talks
    simp only [answer, here] at answered
    cases answered
    simp only [Client.resume, running, here, Client.resumeExchange, linked, length] at h
    rw [if_neg (by omega)] at h
    cases h
    exact Or.inl ⟨{ r with point := .exchange use 0 .reply }, rfl, frame, ⟨l, linked, open_⟩, rfl⟩
  | reply =>
    obtain ⟨⟨l, linked, open_⟩, rfl⟩ := talks
    simp only [answer, here, length, Int.toNat_natCast] at answered
    obtain ⟨rfl, rfl⟩ := deliver_all answered
    have matching := answer_matching sound (call_on use on)
    obtain ⟨f, parsed, -, data, -⟩ := Call.matching_parsed (call_on use on).inRange matching
    simp only [Client.resume, running, here, Client.resumeExchange, length, parsed, if_true] at h
    cases h
    cases use with
    | warmUp backoff =>
      rw [show (m.serve ((Use.warmUp backoff).call op)).1 = m from serve_settings m]
      exact beginExchange_progress sound on .main frame ⟨l, linked, open_⟩ now
    | main =>
      refine Or.inr ⟨f, by rw [← frame]; rfl, data, Or.inr ⟨l, linked, open_⟩, rfl⟩

/-- While the machine answers at once, an operation makes progress at every answer. -/
theorem Talks.progress (talks : Talks op m c.link p r.point) (sound : m.Sound)
    (on : op.OnSettings) (running : c.task = .running r) (frame : r.frame = op.frame)
    (answered : p.answer r = some (a, p')) (h : c.resume cfg a = some next) (now : List Int) :
    Progress op m now p' next := by
  match here : r.point with
  | .dropOld _ | .backingOff _ | .dropFailed _ =>
    rw [here] at talks
    exact talks.elim
  | .opening backoff =>
    rw [here] at talks
    obtain ⟨gone, rfl⟩ := talks
    simp only [answer, here] at answered
    cases answered
    simp only [Client.resume, running, here] at h
    cases h
    exact Or.inl ⟨{ r with point := .greeting backoff }, rfl, frame, ⟨_, rfl, rfl⟩, rfl⟩
  | .greeting backoff =>
    rw [here] at talks
    obtain ⟨up, rfl⟩ := talks
    simp only [answer, here] at answered
    obtain ⟨rfl, rfl⟩ := deliver_all answered
    simp only [Client.resume, running, here, if_true] at h
    cases h
    exact beginExchange_progress sound on _ frame up now
  | .exchange use 0 phase =>
    rw [here] at talks
    exact exchange_progress sound on running here frame talks answered h now
  | .exchange use (attempt + 1) phase =>
    rw [here] at talks
    cases phase <;> exact talks.elim

/-- Where an operation is under way the machine has an answer, which the client takes. -/
theorem Talks.answered (talks : Talks op m c.link p r.point) (sound : m.Sound)
    (on : op.OnSettings) (running : c.task = .running r) (frame : r.frame = op.frame) :
    ∃ a p', p.answer r = some (a, p') ∧ (c.resume cfg a).isSome = true := by
  match here : r.point with
  | .dropOld _ | .backingOff _ | .dropFailed _ =>
    rw [here] at talks
    exact talks.elim
  | .opening backoff =>
    refine ⟨.opened, { p with line := Protocol.hello }, by simp only [answer, here], ?_⟩
    simp only [Client.resume, running, here, Option.isSome_some]
  | .greeting backoff =>
    rw [here] at talks
    obtain ⟨up, rfl⟩ := talks
    refine ⟨.bytes Protocol.hello, ⟨m, []⟩, by simp only [answer, here]; rfl, ?_⟩
    simp only [Client.resume, running, here, if_true, Option.isSome_some]
  | .exchange use (attempt + 1) phase =>
    rw [here] at talks
    cases phase <;> exact talks.elim
  | .exchange use 0 .pace =>
    rw [here] at talks
    obtain ⟨⟨l, linked, -⟩, -⟩ := talks
    have ascii : Python.isAscii (Client.frameOf r use) = true :=
      frameOf_call use frame ▸ Call.isAscii_frame _
    refine ⟨.done, p, by simp only [answer, here], ?_⟩
    simp only [Client.resume, running, here, Client.resumeExchange, linked, ascii, if_true,
      Option.isSome_some]
  | .exchange use 0 .drain =>
    rw [here] at talks
    obtain ⟨⟨l, linked, -⟩, -⟩ := talks
    refine ⟨.done, p, by simp only [answer, here], ?_⟩
    simp only [Client.resume, running, here, Client.resumeExchange, linked,
      reply_length sound on use frame]
    split <;> rfl
  | .exchange use 0 .reply =>
    rw [here] at talks
    obtain ⟨-, rfl⟩ := talks
    have length := reply_length sound on use frame
    have matching := answer_matching sound (call_on use on)
    obtain ⟨f, parsed, -⟩ := Call.matching_parsed (call_on use on).inRange matching
    refine ⟨.bytes ((use.call op).answer (m.serve (use.call op)).2),
      ⟨(m.serve (use.call op)).1, []⟩, ?_, ?_⟩
    · simp [answer, here, length, deliver]
    · simp only [Client.resume, running, here, Client.resumeExchange, length, parsed, if_true,
        Option.isSome_some]

end Peer

end R60V
