import R60V.Bridge.Intents
import R60V.Bridge.Memory
import R60V.Lib.Writes

/-! The bridge together with the settings registers of its machine. The governor hands out one
operation after the other, so an operation of the bridge is done by the machine when its answer
arrives: a settings read answers the registers, a write that is acknowledged is done, one
that fails may have gone in part. Between any two steps someone else may change the registers:
the machine's own panel, a client of the front-end, another controller. -/
namespace R60V

open Overlay (Dict patch cover blit Torn drifted Tracks)
open Protocol (settingsLen Byte)
open Runs (Run Move feed)

/- The settings block that an event hands to the task it resumes. -/

def Poller.settingsAnswer (p : Poller) : PollEvent → Option (List Int)
  | .read (.ok data) =>
    match p.point with
    | .live _ _ _ => none
    | _ => some data
  | _ => none

def CommandEvent.settingsAnswer : CommandEvent → Option (List Int)
  | .read (.ok data) => some data
  | _ => none

def IntentEvent.settingsAnswer : IntentEvent → Option (List Int)
  | .read (.ok data) => some data
  | _ => none

/-- The write that an intent asks for. -/
def writeOf (i : Intent) : Int × List Int := (i.address, i.data)

/-- The settings blocks that go out, to the push clients or to MQTT. -/
def carried (effects : List Effect) : List (List Int) :=
  effects.filterMap fun
    | .broadcast shown => some shown.settings
    | .publish shown => some shown.settings
    | _ => none

theorem mem_carried {effects : List Effect} {block : List Int} (h : block ∈ carried effects) :
    (∃ shown, .broadcast shown ∈ effects ∧ shown.settings = block) ∨
      ∃ shown, .publish shown ∈ effects ∧ shown.settings = block := by
  obtain ⟨e, member, same⟩ := List.mem_filterMap.mp h
  cases e with
  | broadcast shown => exact Or.inl ⟨shown, member, Option.some.inj same⟩
  | publish shown => exact Or.inr ⟨shown, member, Option.some.inj same⟩
  | submit | closeLink | settingsRead | noted | accepted => cases same

namespace Broker

def settingsAnswer (b : Broker) : Event → Option (List Int)
  | .poll e => b.poller.settingsAnswer e
  | .command e => e.settingsAnswer
  | .intent e => e.settingsAnswer
  | _ => none

/-- The write that an event answers, and if it was acknowledged. -/
def writeAnswer (b : Broker) : Event → Option ((Int × List Int) × Bool)
  | .command (.write result) =>
    match b.commands.current with
    | some (c, _) =>
      match encodeCommand c with
      | some (.ok w) => some (w, result.isOk)
      | _ => none
    | none => none
  | .intent (.write result) => b.intents.current.map fun c => (writeOf c.1, result.isOk)
  | _ => none

/-- The registers before and after an event fit with what it says of the machine. -/
def serves (b : Broker) (e : Event) (block block' : List Int) : Bool :=
  match b.writeAnswer e with
  | some (w, true) => block' = blit w.1 w.2 block
  | some (w, false) => Torn w.1 w.2 block block'
  | none => block' = block && (b.settingsAnswer e).all (· = block)

end Broker

structure World where
  broker : Broker
  -- The settings registers of the machine.
  block : List Int
  -- The registers that have changed on the machine since the store has last seen them, and those
  -- that an overlay has been lifted from while the machine did not have its byte.
  drift : Nat → Bool

inductive WorldEvent where
  | others (block : List Int)
  | broker (e : Event) (block : List Int)

namespace World

def start (cfg : BrokerConfig) (block : List Int) : World := ⟨.start cfg, block, fun _ => true⟩

def pending (w : World) : Dict Int := w.broker.device.store.pending

def shown (w : World) : List Int := w.broker.device.store.rawSnapshot.settings

def step (cfg : BrokerConfig) (w : World) : WorldEvent → Option (World × List Effect)
  | .others block =>
    if block.length = w.block.length then
      some ({ w with
        block := block
        drift := drifted w.pending w.pending w.block block w.drift }, [])
    else none
  | .broker e block =>
    if w.broker.serves e w.block block then
      (w.broker.step cfg e).map fun (b, effects) =>
        ({ broker := b
           block := block
           drift := if (w.broker.settingsAnswer e).isSome then fun _ => false
             else drifted w.pending b.device.store.pending w.block block w.drift }, effects)
    else none

inductive Stepped (cfg : BrokerConfig) (w : World) : WorldEvent → World → List Effect → Prop where
  | others {block : List Int} (size : block.length = w.block.length) :
      Stepped cfg w (.others block)
        ⟨w.broker, block, drifted w.pending w.pending w.block block w.drift⟩ []
  | broker {e : Event} {block : List Int} {b : Broker} {effects : List Effect}
      (serves : w.broker.serves e w.block block = true)
      (stepped : w.broker.step cfg e = some (b, effects)) :
      Stepped cfg w (.broker e block)
        ⟨b, block, if (w.broker.settingsAnswer e).isSome then fun _ => false
          else drifted w.pending b.device.store.pending w.block block w.drift⟩ effects

theorem step_stepped {cfg : BrokerConfig} {w w' : World} {e : WorldEvent} {effects : List Effect}
    (h : step cfg w e = some (w', effects)) : Stepped cfg w e w' effects := by
  cases e with
  | others block =>
    simp only [step] at h
    split at h
    · rename_i size
      cases h
      exact .others size
    · cases h
  | broker e block =>
    simp only [step] at h
    split at h
    · rename_i serves
      obtain ⟨⟨b, _⟩, stepped, same⟩ := Option.map_eq_some_iff.mp h
      cases same
      exact .broker serves stepped
    · cases h

end World

/- What the store is handed. -/

namespace Poller

variable {cfg : BrokerConfig} {now : ℚ} {d : Device} {p : Poller} {data : List Int}

theorem share_reads : .settingsRead data ∉ (p.share cfg now d).2.2 := by
  unfold share
  split <;> simp

theorem failed_reads : .settingsRead data ∉ (p.failed cfg now d).2.2 := by
  simp only [failed, List.mem_cons, reduceCtorEq, false_or]
  split
  · simp [rest]
  · exact share_reads

theorem readLive_reads {registers : List (Nat × Nat)} :
    .settingsRead data ∉ (p.readLive cfg now d registers).2.2 := by
  cases registers with
  | nil =>
    simp only [readLive, List.mem_cons, reduceCtorEq, false_or]
    exact share_reads
  | cons register rest => simp [readLive]

theorem turn_reads {readSettings : Bool} :
    .settingsRead data ∉ (p.turn cfg now d readSettings).2.2 := by
  unfold turn pollOnce
  split
  · simp
  · split
    · simp
    · split
      · simp
      · exact readLive_reads

theorem probed_reads {got : List Int} :
    .settingsRead data ∈ (p.probed cfg now d got).2.2 ↔ got = data := by
  rcases outcome : d.wedge.recordProbeSuccess now with ⟨resumed, wedge⟩
  cases resumed with
  | true => simp [probed, outcome, share_reads, eq_comm]
  | false => simp [probed, outcome, share_reads, eq_comm]

theorem settingsRead_iff {wants : Bool} {e : PollEvent} {r : Device × Poller × List Effect}
    (h : p.step cfg now wants d e = some r) :
    .settingsRead data ∈ r.2.2 ↔ p.settingsAnswer e = some data := by
  cases step_stepped h with
  | slept | broadcast => simp [settingsAnswer]
  | turned => simp [settingsAnswer, turn_reads]
  | probed point => simp [settingsAnswer, point, probed_reads]
  | relapsed => simp [settingsAnswer, rest]
  | settings point => simp [settingsAnswer, point, readLive_reads, eq_comm]
  | live point => simp [settingsAnswer, point, readLive_reads]
  | failed => simp [settingsAnswer, failed_reads]
  | closed => simp [settingsAnswer, share_reads]

end Poller

theorem publish_reads {now : ℚ} {store : DeviceState} {data : List Int} :
    .settingsRead data ∉ (publish now store).2 := by
  unfold publish
  split <;> simp

theorem CommandLoop.settingsRead_iff {now : ℚ} {store : DeviceState} {loop : CommandLoop}
    {e : CommandEvent} {r : DeviceState × CommandLoop × Option Exc × List Effect}
    (h : loop.step now store e = some r) (data : List Int) :
    .settingsRead data ∈ r.2.2.2 ↔ e.settingsAnswer = some data := by
  have failed_reads : ∀ x, .settingsRead data ∉ (loop.failed store x).2.2.2 := by
    intro x
    unfold failed
    split <;> simp
  cases step_stepped h with
  | take =>
    unfold take
    split <;> simp [CommandEvent.settingsAnswer]
  | wrote => simp [CommandEvent.settingsAnswer]
  | writeFailed | readFailed => simp [CommandEvent.settingsAnswer, failed_reads]
  | readBack => simp [CommandEvent.settingsAnswer, publish_reads, eq_comm]

namespace IntentLoop

variable {now : ℚ} {wedge : WedgeRecovery} {store : DeviceState} {loop : IntentLoop}

theorem enter_reads {i : Intent} {data : List Int} :
    .settingsRead data ∉ (loop.enter now wedge i).2 := by
  unfold enter
  split <;> simp [submitWrite]

theorem written_reads {i : Intent} {attempt : Nat} {result : Except Exc Unit} {data : List Int} :
    .settingsRead data ∉ (loop.written now store i attempt result).2.2 := by
  cases result with
  | ok => simp [written, reconcile]
  | error x =>
    simp only [written]
    split
    · split
      · simp
      · simp [reconcile]
    · simp

theorem settingsRead_iff {e : IntentEvent} {r : DeviceState × IntentLoop × List Effect}
    (h : loop.step now wedge store e = some r) (data : List Int) :
    .settingsRead data ∈ r.2.2 ↔ e.settingsAnswer = some data := by
  cases step_stepped h with
  | take | waited => simp [IntentEvent.settingsAnswer, enter_reads]
  | retried => simp [IntentEvent.settingsAnswer, submitWrite]
  | written => simp [IntentEvent.settingsAnswer, written_reads]
  | readBack => simp [IntentEvent.settingsAnswer, share, eq_comm]
  | readFailed => simp [IntentEvent.settingsAnswer, share]
  | readLost | shared => simp [IntentEvent.settingsAnswer]

end IntentLoop

namespace Broker

variable {cfg : BrokerConfig} {b b' : Broker} {e : Event} {effects : List Effect}

/-- The store is handed exactly the settings block that the event answers. -/
theorem settingsRead_iff (h : step cfg b e = some (b', effects)) (data : List Int) :
    .settingsRead data ∈ effects ↔ b.settingsAnswer e = some data := by
  cases (step_stepped h).2 with
  | poll polled => exact Poller.settingsRead_iff polled
  | publish => simp [settingsAnswer, publish_reads]
  | command commanded => exact CommandLoop.settingsRead_iff commanded data
  | intent applied => exact IntentLoop.settingsRead_iff applied data
  | wsCommand push received =>
    unfold IntentLoop.onWsCommand at received
    split at received
    · cases received
      simp [settingsAnswer]
    · split at received
      · cases received
        simp [settingsAnswer]
      · cases received
        simp [settingsAnswer]
  | frontendFrame =>
    unfold dispatch
    split
    · simp [settingsAnswer]
    · split <;> simp [settingsAnswer]
  | advance | subscribe | unsubscribe | mqttMessage => simp [settingsAnswer]

theorem serves_length {block block' : List Int} (h : b.serves e block block' = true) :
    block'.length = block.length := by
  unfold serves at h
  split at h
  · rw [of_decide_eq_true h, Overlay.length_blit]
  · exact (of_decide_eq_true h).1
  · rw [of_decide_eq_true (Bool.and_eq_true_iff.mp h).1]

theorem serves_read {block block' data : List Int} (h : b.serves e block block' = true)
    (read : b.settingsAnswer e = some data) : data = block' := by
  have noWrite : b.writeAnswer e = none := by
    cases e with
    | command e => cases e <;> first | rfl | cases read
    | intent e => cases e <;> first | rfl | cases read
    | _ => rfl
  simp only [serves, noWrite, read, Option.all_some, Bool.and_eq_true, decide_eq_true_eq] at h
  exact h.2.trans h.1.symm

/-- A step that hands the store no settings block changes the shown one only under the overlay. -/
theorem shown_unread (h : step cfg b e = some (b', effects)) (unread : b.settingsAnswer e = none)
    {size : Nat} (len : b.device.store.snapshot.settings.length = size)
    (masked : ∀ x v, x < size → b.device.store.pending.lookup x = some v →
      b.device.store.snapshot.settings[x]? = some v) :
    b'.device.store.snapshot.settings.length = size ∧
    (∀ x v, x < size → b'.device.store.pending.lookup x = some v →
      b'.device.store.snapshot.settings[x]? = some v) ∧
    ∀ x, b'.device.store.pending.lookup x = none →
      b'.device.store.snapshot.settings[x]? = b.device.store.snapshot.settings[x]? := by
  have none_ : ∀ data, .settingsRead data ∉ effects := fun data member => by
    rw [settingsRead_iff h, unread] at member
    cases member
  cases step_changes h with
  | segment segment _ =>
    rcases segment.block with ⟨same, _⟩ | ⟨data, member, _⟩
    · rw [same, segment.pending]
      exact ⟨len, masked, fun _ _ => rfl⟩
    · exact absurd member (none_ data)
  | accepted _ _ store _ =>
    rename_i i
    rw [store, DeviceState.settings_applyOptimistic]
    split
    · refine ⟨by rw [Overlay.length_patch, len], fun x v inside hit => ?_, fun x miss => ?_⟩
      · exact Overlay.patch_hit (len ▸ inside) hit
      · exact Overlay.patch_miss miss
    · rename_i refused
      refine ⟨len, fun x v inside hit => masked x v inside ?_, fun _ _ => rfl⟩
      rwa [DeviceState.lookup_applyOptimistic, if_neg refused] at hit
  | written current finished segment _ =>
    rename_i i attempt result
    rcases segment.block with ⟨same, _⟩ | ⟨data, member, _⟩
    · rw [same, segment.pending]
      refine ⟨len, fun x v inside hit => masked x v inside ?_, fun _ _ => rfl⟩
      rw [lookup_reconcileClear] at hit
      split at hit
      · cases hit
      · exact hit
    · exact absurd member (none_ data)
  | lost _ _ store _ =>
    rw [store]
    exact ⟨len, masked, fun _ _ => rfl⟩

/-- A step that hands the store the settings shows them under the overlay, which stays. -/
theorem shown_read (h : step cfg b e = some (b', effects)) {data : List Int}
    (read : b.settingsAnswer e = some data) :
    b'.device.store.pending = b.device.store.pending ∧
    b'.device.store.snapshot.settings = patch b.device.store.pending data := by
  have member := (settingsRead_iff h data).mpr read
  cases step_changes h with
  | segment segment _ =>
    rcases segment.block with ⟨_, none_⟩ | ⟨other, found, _, patched⟩
    · exact absurd member (none_ data)
    · rw [settingsRead_iff h, read] at found
      cases found
      exact ⟨segment.pending, patched⟩
  | accepted _ _ _ _ => simp at member
  | written _ _ _ _ | lost _ _ _ _ => cases read

/-- Whatever a step presents is what the store then shows. -/
theorem carried_shown (h : step cfg b e = some (b', effects)) {block : List Int}
    (presented : block ∈ carried effects) : block = b'.device.store.snapshot.settings := by
  cases step_changes h with
  | segment segment _ | written _ _ segment _ =>
    rcases mem_carried presented with ⟨shown, member, rfl⟩ | ⟨shown, member, rfl⟩
    · exact segment.broadcast shown member
    · exact segment.publish shown member
  | accepted _ _ _ _ =>
    have same : block = b'.device.store.rawSnapshot.settings := by simpa [carried] using presented
    exact same
  | lost _ _ _ _ => cases presented

theorem serves_intent {i : Intent} {attempt : Nat} {result : Except Exc Unit}
    {block block' : List Int} (current : b.intents.current = some (i, .writing attempt))
    (h : b.serves (.intent (.write result)) block block' = true) :
    Torn (writeOf i).1 (writeOf i).2 block block' ∧
      (result.isOk = true → block' = blit (writeOf i).1 (writeOf i).2 block) := by
  simp only [serves, writeAnswer, current, Option.map_some] at h
  cases ok : result.isOk with
  | true =>
    simp only [ok, decide_eq_true_eq] at h
    exact ⟨h ▸ Overlay.torn_blit _ _ _, fun _ => h⟩
  | false =>
    simp only [ok, decide_eq_true_eq] at h
    exact ⟨h, fun same => by cases same⟩

/-- An event that answers no write leaves the registers. -/
theorem serves_quiet {block block' : List Int} (h : b.serves e block block' = true)
    (command : ∀ result, e ≠ .command (.write result))
    (intent : ∀ result, e ≠ .intent (.write result)) : block' = block := by
  have noWrite : b.writeAnswer e = none := by
    cases e with
    | command e =>
      cases e with
      | write result => exact absurd rfl (command result)
      | _ => rfl
    | intent e =>
      cases e with
      | write result => exact absurd rfl (intent result)
      | _ => rfl
    | _ => rfl
  simp only [serves, noWrite, Bool.and_eq_true, decide_eq_true_eq] at h
  exact h.1

end Broker

namespace World

variable {cfg : BrokerConfig} {w w' : World} {e : WorldEvent} {effects : List Effect}

/-- What the bridge shows against what the machine has. -/
def Tracked (w : World) : Prop := Tracks w.shown w.block w.pending w.drift

theorem start_tracked (cfg : BrokerConfig) {block : List Int} (size : block.length = settingsLen) :
    (start cfg block).Tracked where
  length := size.symm
  masked x v _ hit := by cases hit
  seen x _ still := by cases still

theorem step_tracked (inv : w.Tracked) (h : step cfg w e = some (w', effects)) : w'.Tracked := by
  cases step_stepped h with
  | others size => exact inv.step size rfl inv.masked fun _ _ => rfl
  | @broker e block b _ serves stepped =>
    have size := Broker.serves_length serves
    cases answer : w.broker.settingsAnswer e with
    | none =>
      obtain ⟨len, masked, same⟩ := Broker.shown_unread stepped answer inv.length inv.masked
      simp only [Tracked, Option.isSome_none, Bool.false_eq_true, if_false]
      exact inv.step size (len.trans inv.length.symm) masked same
    | some data =>
      obtain ⟨pending, shown⟩ := Broker.shown_read stepped answer
      cases Broker.serves_read serves answer
      simp only [Tracked, Option.isSome_some, if_true]
      have view := Tracks.read block w.broker.device.store.pending
      rw [← shown, ← pending] at view
      exact view

theorem step_carried (h : step cfg w e = some (w', effects)) {block : List Int}
    (presented : block ∈ carried effects) : block = w'.shown := by
  cases step_stepped h with
  | others => cases presented
  | broker _ stepped => exact Broker.carried_shown stepped presented

/-- **Snapshots track the machine**: in every run of the bridge, whoever else writes to the machine
and whatever fails, each snapshot that it presents has at every register the byte of the overlay,
or else the register that the machine has, unless that has changed since the store has seen it, or
was given up by an overlay whose byte has not got there. -/
theorem snapshots_track {block : List Int} (size : block.length = settingsLen)
    {ms : List (Move World WorldEvent Effect)} {w : World}
    (run : Run (step cfg) (start cfg block) ms w) :
    ∀ m ∈ ms, ∀ shown ∈ carried m.emits,
      Tracks shown m.after.block m.after.pending m.after.drift := by
  intro m member shown presented
  have before := run.invariant_before Tracked (start_tracked cfg size)
    (fun _ _ _ _ inv h => step_tracked inv h) member
  have moved := run.move_step member
  rw [step_carried moved presented]
  exact step_tracked before moved

def zeros : List Int := List.replicate settingsLen 0

/-- The service boiler is set at the machine's own panel, then the coffee boiler from afar. -/
theorem panel_change_tracked :
    ∃ ms w, Run (step Broker.pushConfig) (start Broker.pushConfig zeros) ms w ∧
      ∃ m ∈ ms, ∃ shown ∈ carried m.emits, shown[2]? = some 100 ∧ m.after.drift 3 = true ∧
        Tracks shown m.after.block m.after.pending m.after.drift := by
  have fed : (feed (step Broker.pushConfig) (start Broker.pushConfig zeros)
      [.broker .subscribe zeros, .broker (.poll .wake) zeros,
        .broker (.poll (.read (.ok zeros))) zeros, .others (zeros.set 3 120),
        .broker (.wsCommand [("address", .int 2), ("data", .list [.int 100])])
          (zeros.set 3 120)]).any
      (fun r => r.2.any fun m => m.after.drift 3 &&
        (carried m.emits).any fun shown => shown[2]? == some 100) = true := by
    decide +kernel
  obtain ⟨ms, w, run, _, reached⟩ := Runs.feed_reaches fed
  simp only [List.any_eq_true, Bool.and_eq_true, beq_iff_eq] at reached
  obtain ⟨m, member, drifts, shown, presented, set⟩ := reached
  exact ⟨ms, w, run, m, member, shown, presented, set, drifts,
    snapshots_track List.length_replicate run m member shown presented⟩

end World

/- The emulator as the machine. -/

namespace MachineModel

variable {m : MachineModel}

def registers (m : MachineModel) : List Int := m.settings.take settingsLen

theorem getElem?_registers (m : MachineModel) {k : Nat} (inside : k < settingsLen) :
    m.registers[k]? = m.settings[k]? :=
  List.getElem?_take_of_lt inside

theorem length_registers (size : m.settings.length = 0x100) :
    m.registers.length = settingsLen := by
  rw [registers, List.length_take, size]
  rfl

/-- The loop of a write leaves each register as it was, or as the write has it. -/
theorem writeFrom_torn (size : m.settings.length = 0x100) (a : Nat) {data : List Int}
    (bytes : ∀ b ∈ data, Byte b) (k : Nat) :
    (m.writeFrom a data).1.settings[k]? = m.settings[k]? ∨
      (m.writeFrom a data).1.settings[k]? = cover a data k := by
  induction data generalizing m a with
  | nil => exact Or.inl rfl
  | cons value rest ih =>
    by_cases inside : a < 0x100
    · have byte := bytes value List.mem_cons_self
      have kept : value % 256 = value := Int.emod_eq_of_lt byte.1 byte.2
      simp only [writeFrom, indexOf_settings size, if_pos inside, kept]
      have later := ih (m := { m with settings := m.settings.set a value })
        (by simpa using size) (a + 1) fun b member => bytes b (List.mem_cons_of_mem _ member)
      push_cast at later
      rw [Overlay.cover_cons]
      by_cases first : k = a
      · subst first
        have beyond : cover ((k : Int) + 1) rest k = none := by
          unfold cover
          rw [if_neg (by omega)]
        rw [beyond, List.getElem?_set_self (by omega)] at later
        rw [if_pos rfl]
        rcases later with stored | gone
        · exact Or.inr stored
        · rw [List.getElem?_eq_none_iff, length_writeFrom, List.length_set, size] at gone
          omega
      · rw [if_neg (by omega)]
        rwa [List.getElem?_set_ne (Ne.symm first)] at later
    · simp only [writeFrom, indexOf_settings size, if_neg inside]
      exact Or.inl trivial

/-- A write that comes through has stored all it covers. -/
theorem write_whole (size : m.settings.length = 0x100) (a : Nat) {data : List Int}
    (bytes : ∀ b ∈ data, Byte b) (ok : (m.write a data).2 = none) {k : Nat} (inside : k < 0x100) :
    (m.write a data).1.settings[k]? = (cover a data k).or m.settings[k]? := by
  unfold write at ok ⊢
  by_cases outside : 0x100 ≤ (a : Int)
  · have beyond : cover (a : Int) data k = none := by
      unfold cover
      rw [if_neg (by omega)]
    rw [if_pos outside, beyond, Option.none_or]
  · rw [if_neg outside] at ok ⊢
    have reach : a + data.length ≤ 0x100 := by
      by_contra past
      have fails := writeFrom_past size (show a ≤ 0x100 by omega) (not_le.mp past)
      rw [fails] at ok
      cases ok
    exact (writeFrom_whole size bytes reach).2.2 k

/-- A write that succeeds is done, and one that fails has torn the registers. -/
theorem write_serves (size : m.settings.length = 0x100) (a : Nat) {data : List Int}
    (bytes : ∀ b ∈ data, Byte b) :
    Torn a data m.registers (m.write a data).1.registers ∧
      ((m.write a data).2 = none → (m.write a data).1.registers = blit a data m.registers) := by
  have size' := (length_write (m := m) a data).trans size
  have torn : ∀ k : Nat, (m.write a data).1.settings[k]? = m.settings[k]? ∨
      (m.write a data).1.settings[k]? = cover a data k := by
    intro k
    unfold write
    split
    · exact Or.inl rfl
    · exact writeFrom_torn size a bytes k
  refine ⟨⟨by rw [length_registers size, length_registers size'], fun k inside => ?_⟩, fun ok => ?_⟩
  · rw [length_registers size] at inside
    rw [getElem?_registers _ inside, getElem?_registers _ inside]
    exact torn k
  · apply List.ext_getElem?
    intro k
    rw [Overlay.getElem?_blit]
    by_cases inside : k < settingsLen
    · rw [getElem?_registers _ inside, getElem?_registers _ inside]
      have whole := inside.trans (show settingsLen < 0x100 by decide)
      rw [write_whole size a bytes ok whole, List.getElem?_eq_getElem (size ▸ whole)]
      cases cover (a : Int) data k <;> rfl
    · have beyond := not_lt.mp inside
      rw [List.getElem?_eq_none (by rw [length_registers size']; exact beyond),
        List.getElem?_eq_none (by rw [length_registers size]; exact beyond)]
      rfl

theorem read_registers (sound : m.Sound) (now : List Int) :
    m.read now 0 settingsLen = .ok m.registers := by
  obtain ⟨data, read, size, -, values⟩ := read_values sound (show (0 : Nat) < 0x100 by decide)
    (n := settingsLen) now
  rw [show ((0 : Nat) : Int) = 0 from rfl] at read
  rw [read]
  refine congrArg Except.ok (List.ext_getElem? fun k => ?_)
  by_cases inside : k < settingsLen
  · have whole := inside.trans (show settingsLen < 0x100 by decide)
    rw [values k inside (by omega), getElem?_registers _ inside, Nat.zero_add]
  · have beyond := not_lt.mp inside
    rw [List.getElem?_eq_none (by rw [size]; exact beyond),
      List.getElem?_eq_none (by rw [length_registers sound.size]; exact beyond)]

end MachineModel

/-- An emulator whose memory is the block answers the bridge as its machine does. -/
theorem Emulator.serves (b : Broker) {e : Event} {m : MachineModel} (sound : m.Sound) :
    (∀ (a : Nat) (data : List Int), (∀ x ∈ data, Byte x) →
      b.writeAnswer e = some (((a : Int), data), (m.write a data).2.isNone) →
        b.serves e m.registers (m.write a data).1.registers = true) ∧
    (∀ now, b.writeAnswer e = none →
      (∀ data, b.settingsAnswer e = some data → m.read now 0 settingsLen = .ok data) →
        b.serves e m.registers m.registers = true) := by
  constructor
  · intro a data bytes answer
    obtain ⟨torn, whole⟩ := MachineModel.write_serves sound.size a bytes
    unfold Broker.serves
    rw [answer]
    cases ok : (m.write a data).2 with
    | none => simpa using whole ok
    | some x => simpa using torn
  · intro now answer reads
    unfold Broker.serves
    rw [answer]
    cases read : b.settingsAnswer e with
    | none => simp
    | some data =>
      have same := (MachineModel.read_registers sound now).symm.trans (reads data read)
      cases same
      simp

end R60V
