import R60V.Bridge.Peer
import R60V.Python.Numerals

/-! The emulator's memory under any requests. Reads take a slice, which may run past the end of
the settings; writes store byte by byte, which may not. -/
namespace R60V

open Python (Text roundEven)
open Protocol (parseFrame Word Byte buildFrame buildAck)
open Overlay (cover)

namespace MachineModel

-- `_step` at its default rate.
def drift (current target : ℚ) : ℚ := (target - current) * (15 / 100)

def settingsByte (m : MachineModel) (address : Nat) : Int := m.settings[address]?.getD 0

def tick (m : MachineModel) : MachineModel :=
  let on := m.settingsByte Address.standby = 0
  let brewTarget : ℚ := if on then m.settingsByte Address.brewBoilerTemp else 20
  let serviceTarget : ℚ :=
    if m.settingsByte Address.serviceBoilerEnable ≠ 0 ∧ on then
      m.settingsByte Address.serviceBoilerTemp
    else 20
  { m with
    currentBrewTemp := m.currentBrewTemp + drift m.currentBrewTemp brewTarget
    currentServiceTemp := m.currentServiceTemp + drift m.currentServiceTemp serviceTarget }

/-- What the live registers show fits a byte. -/
structure Fits (m : MachineModel) : Prop where
  brew : 0 ≤ m.currentBrewTemp ∧ m.currentBrewTemp ≤ 255
  service : 0 ≤ m.currentServiceTemp ∧ m.currentServiceTemp ≤ 255
  pressure : m.currentPressure = 0

variable {m : MachineModel}

theorem Sound.settingsByte (sound : m.Sound) (address : Nat) :
    (0 : ℚ) ≤ m.settingsByte address ∧ (m.settingsByte address : ℚ) ≤ 255 := by
  have byte : Byte (m.settingsByte address) := by
    unfold MachineModel.settingsByte
    cases found : m.settings[address]? with
    | none => exact ⟨by decide, by decide⟩
    | some b => exact sound.bytes b (List.mem_of_getElem? found)
  exact ⟨by exact_mod_cast byte.1, by exact_mod_cast Int.lt_add_one_iff.mp byte.2⟩

theorem drift_between {t target : ℚ} (temp : 0 ≤ t ∧ t ≤ 255)
    (goal : 0 ≤ target ∧ target ≤ 255) : 0 ≤ t + drift t target ∧ t + drift t target ≤ 255 := by
  unfold drift
  constructor <;> linarith

/-- Temperatures drift between the bytes they are drawn to. -/
theorem tick_fits (sound : m.Sound) (fits : m.Fits) : m.tick.Fits := by
  have ambient : (0 : ℚ) ≤ 20 ∧ (20 : ℚ) ≤ 255 := by norm_num
  refine ⟨drift_between fits.brew ?_, drift_between fits.service ?_, fits.pressure⟩
  · split
    · exact sound.settingsByte _
    · exact ambient
  · split
    · exact sound.settingsByte _
    · exact ambient

theorem initial_fits : MachineModel.initial.Fits :=
  ⟨⟨by norm_num [initial], by norm_num [initial]⟩, ⟨by norm_num [initial], by norm_num [initial]⟩,
    rfl⟩

/-- A reading of at most 255 has room in any number of bytes. -/
theorem intBytes_ok {value length : Int} (small : value ≤ 255) (long : 0 ≤ length) :
    ∃ data, intBytes value length = .ok data := by
  obtain ⟨width, wide⟩ : ∃ width : Nat, (max length 1).toNat = width + 1 :=
    ⟨(max length 1).toNat - 1, by omega⟩
  have room : ¬ (256 : Int) ^ (max length 1).toNat ≤ max 0 value := by
    have power : (1 : Int) ≤ 256 ^ width := one_le_pow₀ (by decide)
    rw [wide, pow_succ]
    omega
  unfold intBytes
  dsimp only
  rw [if_neg room]
  split
  · exact ⟨_, by rw [zeroBytes, if_neg (by omega)]⟩
  · exact ⟨_, rfl⟩

theorem readLive_ok (fits : m.Fits) {length : Int} (long : 0 ≤ length) (now : List Int)
    (address : Int) : ∃ data, m.readLive now address length = .ok data := by
  have rounds : ∀ t : ℚ, t ≤ 255 → roundEven t ≤ 255 := fun t small =>
    Python.roundEven_le (by exact_mod_cast small)
  unfold readLive
  split
  · exact intBytes_ok (rounds _ fits.brew.2) long
  · split
    · exact intBytes_ok (rounds _ fits.service.2) long
    · split
      · exact intBytes_ok (rounds _ (by rw [fits.pressure]; norm_num)) long
      · split
        · exact ⟨_, rfl⟩
        · split
          · exact ⟨_, rfl⟩
          · exact ⟨_, by rw [zeroBytes, if_neg (by omega)]⟩

theorem length_writeFrom (address : Int) (data : List Int) :
    (m.writeFrom address data).1.settings.length = m.settings.length := by
  induction data generalizing m address with
  | nil => rfl
  | cons value rest ih =>
    unfold writeFrom
    split
    · rfl
    · exact (ih _).trans (List.length_set ..)

theorem length_write (address : Int) (data : List Int) :
    (m.write address data).1.settings.length = m.settings.length := by
  unfold write
  split
  · rfl
  · exact length_writeFrom address data

theorem indexOf_settings (size : m.settings.length = 0x100) (a : Nat) :
    indexOf m.settings a = if a < 0x100 then some a else none := by
  have cast : ((a : Int) < (m.settings.length : Int)) ↔ a < 0x100 := by rw [size]; omega
  simp only [indexOf, if_neg (show ¬ (a : Int) < 0 by omega), Int.toNat_natCast, cast,
    show (0 : Int) ≤ a by omega, true_and]

/-- A write that ends inside the settings stores all of its bytes and nothing else. -/
theorem writeFrom_whole (size : m.settings.length = 0x100) {a : Nat} {data : List Int}
    (bytes : ∀ b ∈ data, Byte b) (reach : a + data.length ≤ 0x100) :
    (m.writeFrom a data).2 = none ∧
    (∃ settings, (m.writeFrom a data).1 = { m with settings := settings }) ∧
    ∀ x, (m.writeFrom a data).1.settings[x]? = (cover a data x).or m.settings[x]? := by
  induction data generalizing m a with
  | nil => exact ⟨rfl, ⟨m.settings, rfl⟩, fun x => by simp [writeFrom, cover]⟩
  | cons value rest ih =>
    rw [List.length_cons] at reach
    have byte := bytes value List.mem_cons_self
    have kept : value % 256 = value := Int.emod_eq_of_lt byte.1 byte.2
    simp only [writeFrom, indexOf_settings size, if_pos (show a < 0x100 by omega), kept]
    obtain ⟨ok, ⟨settings, same⟩, stored⟩ := ih (m := { m with settings := m.settings.set a value })
      (a := a + 1) (by simpa using size) (fun b member => bytes b (List.mem_cons_of_mem _ member))
      (by omega)
    push_cast at ok same stored
    refine ⟨ok, ⟨settings, same⟩, fun x => ?_⟩
    rw [stored, Overlay.cover_cons]
    by_cases first : x = a
    · subst first
      have beyond : cover ((x : Int) + 1) rest x = none := by
        unfold cover
        rw [if_neg (by omega)]
      simp [beyond, List.getElem?_set_self (show x < m.settings.length by omega)]
    · rw [if_neg (by omega), List.getElem?_set_ne (Ne.symm first)]

/-- One that runs past their end is given up at the first byte outside. -/
theorem writeFrom_past (size : m.settings.length = 0x100) {a : Nat} {data : List Int}
    (first : a ≤ 0x100) (past : 0x100 < a + data.length) :
    (m.writeFrom a data).2 = some .index := by
  induction data generalizing m a with
  | nil => simp only [List.length_nil] at past; omega
  | cons value rest ih =>
    rw [List.length_cons] at past
    rw [writeFrom, indexOf_settings size]
    by_cases inside : a < 0x100
    · rw [if_pos inside]
      have later := ih (m := { m with settings := m.settings.set a (value % 256) }) (a := a + 1)
        (by simpa using size) (by omega) (by omega)
      exact_mod_cast later
    · rw [if_neg inside]

/-- A read that begins in the settings gives their bytes, and zeros after their end. -/
theorem read_values (sound : m.Sound) {a n : Nat} (inside : a < 0x100) (now : List Int) :
    ∃ data, m.read now a n = .ok data ∧ data.length = n ∧ (∀ b ∈ data, Byte b) ∧
      ∀ k < n, a + k < 0x100 → data[k]? = m.settings[a + k]? := by
  have size := sound.size
  have first : slicePosition m.settings (a : Int) = a := by
    simp only [slicePosition, if_neg (show ¬ (a : Int) < 0 by omega)]
    omega
  have last : slicePosition m.settings ((a : Int) + n) = min 0x100 (a + n) := by
    simp only [slicePosition, if_neg (show ¬ (a : Int) + n < 0 by omega)]
    omega
  have slice : sliceOf m.settings (a : Int) (a + n) =
      (m.settings.take (min 0x100 (a + n))).drop a := by
    rw [sliceOf, first, last]
  have count : (sliceOf m.settings (a : Int) (a + n)).length = min 0x100 (a + n) - a := by
    rw [slice, List.length_drop, List.length_take]
    omega
  refine ⟨_, by rw [read, if_pos (by omega)], ?_, fun b member => ?_, fun k short here => ?_⟩
  · have short : ((sliceOf m.settings (a : Int) (a + n)).length : Int) ≤ n := by omega
    exact_mod_cast length_ljust short
  · exact mem_ljust (fun b member => sound.bytes b (mem_sliceOf member)) member
  · rw [ljust, List.getElem?_append_left (by omega), slice, List.getElem?_drop,
      List.getElem?_take_of_lt (by omega)]

end MachineModel

/-- What happens to the emulator: its clock ticks, or a request arrives that asks for an operation.
`now` is what the date register would show. -/
inductive MemoryEvent where
  | tick
  | request (op : Call) (raw : Text) (now : List Int)

namespace MemoryEvent

def WellFormed : MemoryEvent → Prop
  | .tick => True
  | .request op raw _ => Asks raw op

def run (m : MachineModel) : MemoryEvent → MachineModel
  | .tick => m.tick
  | .request _ raw now => (Emulator.process m now raw).1

/-- The byte that an event writes to a register of the settings. -/
def written : MemoryEvent → Nat → Option Int
  | .request (.write address data) _ _, x => cover address data x
  | _, _ => none

end MemoryEvent

namespace Emulator

def after (events : List MemoryEvent) : MachineModel := events.foldl MemoryEvent.run .initial

/-- The byte last written to a register, or its default. -/
def lastWritten (events : List MemoryEvent) (x : Nat) : Int :=
  events.foldl (fun b e => (e.written x).getD b) (MachineModel.initial.settingsByte x)

/-- The answer to one request, after the events of `history`. -/
structure Answers (history : List MemoryEvent) (op : Call)
    (r : MachineModel × Except EmulatorExc (Option Text)) : Prop where
  reply : ∃ text, r.2 = .ok (some text) ∧ text.take 9 = op.frame.take 9
  read : ∀ address length, op = .read address length → address < 0x100 → ∃ text f,
    r.2 = .ok (some text) ∧ parseFrame true text = .ok f ∧ f.command = .read ∧
    f.address = address ∧ f.length = length ∧ (f.data.length : Int) = length ∧
    ∀ k < f.data.length, address.toNat + k < 0x100 →
      f.data[k]? = some (lastWritten history (address.toNat + k))
  write : ∀ address data, op = .write address data → address < 0x100 →
    (∀ x : Nat, r.1.settings[x]? = (cover address data x).or (after history).settings[x]?) ∨
      r.1.settings = (after history).settings

/-- Every request of a history is answered well, whatever has happened before it. -/
def FaithfulMemory (events : List MemoryEvent) : Prop :=
  ∀ earlier op raw now later, events = earlier ++ .request op raw now :: later →
    Answers earlier op (process (after earlier) now raw)

/-- No write begins in the settings and ends outside. -/
def WithinSettings (events : List MemoryEvent) : Prop :=
  ∀ (address : Int) (data : List Int) (raw : Text) (now : List Int),
    .request (.write address data) raw now ∈ events → address < 0x100 →
      address + data.length ≤ 0x100

theorem after_snoc (events : List MemoryEvent) (e : MemoryEvent) :
    after (events ++ [e]) = e.run (after events) := by
  simp only [after, List.foldl_append, List.foldl_cons, List.foldl_nil]

theorem lastWritten_snoc (events : List MemoryEvent) (e : MemoryEvent) (x : Nat) :
    lastWritten (events ++ [e]) x = (e.written x).getD (lastWritten events x) := by
  simp only [lastWritten, List.foldl_append, List.foldl_cons, List.foldl_nil]

theorem take_envelope (command : Protocol.Command) {address length : Int} (ha : Word address)
    (hl : Word length) (rest : Text) :
    (Protocol.buildEnvelope command address length ++ rest).take 9 =
      Protocol.buildEnvelope command address length :=
  List.take_left' (Protocol.length_buildEnvelope command ha hl)

theorem take_buildFrame (command : Protocol.Command) {address length : Int} (ha : Word address)
    (hl : Word length) (data : List Int) : (buildFrame command address length data).take 9 =
      Protocol.buildEnvelope command address length := by
  simp only [buildFrame, List.append_assoc, take_envelope command ha hl]

theorem take_buildAck (command : Protocol.Command) {address length : Int} (ha : Word address)
    (hl : Word length) : (buildAck command address length).take 9 =
      Protocol.buildEnvelope command address length := by
  simp only [buildAck, List.append_assoc, take_envelope command ha hl]

theorem size_after (events : List MemoryEvent) (well : ∀ e ∈ events, e.WellFormed) :
    (after events).settings.length = 0x100 := by
  induction events using List.reverseRecOn with
  | nil => exact MachineModel.initial_sound.size
  | append_singleton events e ih =>
    have before := ih fun e' member => well e' (List.mem_append_left _ member)
    have asks := well e (by simp)
    rw [after_snoc]
    cases e with
    | tick => exact before
    | request op raw now =>
      cases op with
      | read address length => rw [MemoryEvent.run, process_read asks, before]
      | write address data =>
        rw [MemoryEvent.run, process_write asks]
        exact (MachineModel.length_write _ _).trans before

/-- The memory after a history: well-formed, and with the last byte written to each register. -/
structure Remembers (history : List MemoryEvent) (m : MachineModel) : Prop where
  sound : m.Sound
  fits : m.Fits
  bytes : ∀ x < 0x100, m.settings[x]? = some (lastWritten history x)

theorem remembers_initial : Remembers [] MachineModel.initial := by
  refine ⟨MachineModel.initial_sound, MachineModel.initial_fits, fun x inside => ?_⟩
  have here : x < MachineModel.initial.settings.length := by
    rw [MachineModel.initial_sound.size]
    exact inside
  simp only [lastWritten, List.foldl_nil, MachineModel.settingsByte,
    List.getElem?_eq_getElem here, Option.getD_some]

variable {history : List MemoryEvent} {m : MachineModel} {raw : Text}

theorem Remembers.tick (remembers : Remembers history m) :
    Remembers (history ++ [.tick]) m.tick where
  sound := ⟨remembers.sound.size, remembers.sound.bytes⟩
  fits := MachineModel.tick_fits remembers.sound remembers.fits
  bytes := fun x inside => by
    rw [lastWritten_snoc]
    exact remembers.bytes x inside

theorem Remembers.read (remembers : Remembers history m) (op : Call) (now : List Int)
    (isRead : ∃ address length, op = .read address length) :
    Remembers (history ++ [.request op raw now]) m where
  sound := remembers.sound
  fits := remembers.fits
  bytes := fun x inside => by
    obtain ⟨address, length, rfl⟩ := isRead
    rw [lastWritten_snoc]
    exact remembers.bytes x inside

theorem Remembers.write (remembers : Remembers history m) {address : Int} {data : List Int}
    (asks : Asks raw (.write address data)) (now : List Int)
    (within : address < 0x100 → address + data.length ≤ 0x100) :
    (m.write address data).2 = none ∧
    Remembers (history ++ [.request (.write address data) raw now]) (m.write address data).1 ∧
    ((∀ x : Nat, (m.write address data).1.settings[x]? =
      (cover address data x).or m.settings[x]?) ∨
        (m.write address data).1.settings = m.settings) := by
  obtain ⟨⟨low, -⟩, -, bytes⟩ := asks_inRange asks
  obtain ⟨a, rfl⟩ := Int.eq_ofNat_of_zero_le low
  by_cases outside : 0x100 ≤ (a : Int)
  · simp only [MachineModel.write, if_pos outside]
    refine ⟨trivial, ⟨remembers.sound, remembers.fits, fun x inside => ?_⟩, by simp⟩
    have beyond : cover (a : Int) data x = none := by
      unfold cover
      rw [if_neg (by omega)]
    rw [lastWritten_snoc, MemoryEvent.written, beyond]
    exact remembers.bytes x inside
  · have reach := within (by omega)
    obtain ⟨ok, ⟨settings, same⟩, stored⟩ := MachineModel.writeFrom_whole remembers.sound.size
      bytes (a := a) (by omega)
    have sound := (MachineModel.writeFrom_sound remembers.sound low reach).2
    simp only [MachineModel.write, if_neg outside]
    refine ⟨ok, ⟨sound, ?_, fun x inside => ?_⟩, Or.inl stored⟩
    · rw [same]
      exact ⟨remembers.fits.brew, remembers.fits.service, remembers.fits.pressure⟩
    · rw [stored, lastWritten_snoc, MemoryEvent.written, remembers.bytes x inside]
      cases cover (a : Int) data x <;> rfl

/- Both replies begin with the envelope of their request. -/

theorem echo_read {address length : Int} (ha : Word address) (hl : Word length) (data : List Int) :
    (buildFrame .read address length data).take 9 = (Call.read address length).frame.take 9 := by
  rw [take_buildFrame .read ha hl, Call.frame, Protocol.buildRead, take_buildFrame .read ha hl]

theorem echo_write {address : Int} {data : List Int} (ha : Word address)
    (hl : Word (data.length : Int)) : (buildAck .write address data.length).take 9 =
      (Call.write address data).frame.take 9 := by
  rw [take_buildAck .write ha hl, Call.frame, Protocol.buildWrite, take_buildFrame .write ha hl]

/-- A read is answered from what is remembered, or from the live registers. -/
theorem Remembers.answers_read (remembers : Remembers history (after history))
    {address length : Int} (asks : Asks raw (.read address length)) (now : List Int) :
    Answers history (.read address length) (process (after history) now raw) := by
  obtain ⟨ha, hl⟩ := asks_inRange asks
  obtain ⟨a, rfl⟩ := Int.eq_ofNat_of_zero_le ha.1
  obtain ⟨n, rfl⟩ := Int.eq_ofNat_of_zero_le hl.1
  rw [process_read asks]
  by_cases inside : a < 0x100
  · obtain ⟨data, read, size, bytes, values⟩ := MachineModel.read_values remembers.sound
      (n := n) inside now
    rw [read]
    refine ⟨⟨_, rfl, echo_read ha hl data⟩, fun address length same _ => ?_,
      fun _ _ same => (by cases same)⟩
    cases same
    obtain ⟨f, parsed, command, address, length, fdata, -⟩ :=
      Protocol.parseFrame_buildFrame .read ha hl true bytes
    refine ⟨_, f, rfl, parsed, command, address, length, ?_, fun k short here => ?_⟩
    · rw [fdata, size]
    · rw [fdata] at short ⊢
      rw [Int.toNat_natCast] at here ⊢
      rw [values k (by omega) here, remembers.bytes _ here]
  · obtain ⟨data, read⟩ := MachineModel.readLive_ok remembers.fits hl.1 now a
    rw [MachineModel.read, if_neg (by omega), read]
    refine ⟨⟨_, rfl, echo_read ha hl data⟩, fun address length same here => ?_,
      fun _ _ same => (by cases same)⟩
    cases same
    omega

/-- A request that stays within the settings, or outside of them, is answered and remembered. -/
theorem Remembers.request (remembers : Remembers history (after history)) {op : Call}
    (asks : Asks raw op) (now : List Int)
    (within : ∀ address data, op = .write address data → address < 0x100 →
      address + data.length ≤ 0x100) :
    Answers history op (process (after history) now raw) ∧
    Remembers (history ++ [.request op raw now]) (process (after history) now raw).1 := by
  cases op with
  | read address length =>
    refine ⟨remembers.answers_read asks now, ?_⟩
    rw [process_read asks]
    exact remembers.read _ now ⟨_, _, rfl⟩
  | write address data =>
    obtain ⟨ha, hl, -⟩ := asks_inRange asks
    obtain ⟨ok, remembered, whole⟩ := remembers.write asks now (within address data rfl)
    rw [process_write asks, ok]
    refine ⟨⟨⟨_, rfl, echo_write ha hl⟩, fun _ _ same => (by cases same),
      fun address' data' same _ => ?_⟩, remembered⟩
    cases same
    exact whole

/-- A write across the end of the settings is not answered. -/
theorem process_past (size : m.settings.length = 0x100) {address : Int} {data : List Int}
    (asks : Asks raw (.write address data)) (inside : address < 0x100)
    (past : 0x100 < address + data.length) (now : List Int) :
    (process m now raw).2 = .error .index := by
  obtain ⟨a, rfl⟩ := Int.eq_ofNat_of_zero_le (asks_inRange asks).1.1
  have first : a ≤ 0x100 := by omega
  have beyond : 0x100 < a + data.length := by omega
  have fails := MachineModel.writeFrom_past size first beyond
  rw [process_write asks, MachineModel.write, if_neg (by omega), fails]
  rfl

theorem remembers_after {events : List MemoryEvent} (well : ∀ e ∈ events, e.WellFormed)
    (within : WithinSettings events) : Remembers events (after events) := by
  induction events using List.reverseRecOn with
  | nil => exact remembers_initial
  | append_singleton events e ih =>
    have before := ih (fun e' member => well e' (List.mem_append_left _ member))
      fun address data raw now member => within address data raw now (List.mem_append_left _ member)
    rw [after_snoc]
    cases e with
    | tick => exact before.tick
    | request op raw now =>
      refine (before.request (well (.request op raw now) (by simp)) now ?_).2
      intro address data same here
      exact within address data raw now (by simp [same]) here

/-- **The emulator is a faithful memory exactly without a write across the end of the settings.**
In a history of well-formed requests, between any ticks of its clock, every request is answered
under its own envelope, a read in the settings gives what was last written, and a write is applied
whole or not at all, if and only if no write begins in the settings and ends outside: such a write
fails with an `IndexError` half-way. -/
theorem faithfulMemory_iff {events : List MemoryEvent} (well : ∀ e ∈ events, e.WellFormed) :
    FaithfulMemory events ↔ WithinSettings events := by
  constructor
  · intro faithful address data raw now member inside
    obtain ⟨earlier, later, rfl⟩ := List.append_of_mem member
    obtain ⟨text, replied, -⟩ := (faithful earlier _ raw now later rfl).reply
    have asks : Asks raw (.write address data) := well _ member
    have size := size_after earlier fun e front => well e (List.mem_append_left _ front)
    by_contra past
    rw [process_past size asks inside (by omega) now] at replied
    cases replied
  · intro within earlier op raw now later same
    subst same
    have front : ∀ e ∈ earlier, e.WellFormed := fun e member =>
      well e (List.mem_append_left _ member)
    have before := remembers_after front fun address data raw' now' member =>
      within address data raw' now' (List.mem_append_left _ member)
    refine (before.request (well (.request op raw now) (by simp)) now ?_).1
    intro address data same here
    exact within address data raw now (by simp [same]) here

/-- A setpoint written, a tick, and the setpoint read back. -/
theorem faithfulMemory_setpoint : FaithfulMemory
    [.request (.write 2 [110]) (Call.write 2 [110]).frame [], .tick,
      .request (.read 2 1) (Call.read 2 1).frame []] := by
  refine (faithfulMemory_iff ?_).mpr ?_
  · simp only [List.forall_mem_cons]
    exact ⟨Call.asks (by decide), trivial, Call.asks (by decide), by simp⟩
  · intro address data raw now member inside
    simp only [List.mem_cons, List.not_mem_nil, or_false, MemoryEvent.request.injEq,
      Call.write.injEq, reduceCtorEq, false_and] at member
    obtain ⟨⟨rfl, rfl⟩, -⟩ := member
    decide

/-- Two bytes at the last register: the first is stored, the second fails. -/
theorem write_across_end_fails : ¬ ∀ events : List MemoryEvent,
    (∀ e ∈ events, e.WellFormed) → FaithfulMemory events := by
  intro all
  have asks : Asks (Call.write 0xFF [1, 2]).frame (.write 0xFF [1, 2]) := Call.asks (by decide)
  have faithful := all [.request (.write 0xFF [1, 2]) (Call.write 0xFF [1, 2]).frame []]
    fun e member => by
      rw [List.mem_singleton.mp member]
      exact asks
  obtain ⟨text, replied, -⟩ := (faithful [] _ _ _ [] rfl).reply
  have fails := process_past (m := after []) MachineModel.initial_sound.size asks (by decide)
    (by decide) []
  rw [fails] at replied
  cases replied

end Emulator

end R60V
