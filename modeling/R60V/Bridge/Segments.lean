import R60V.Bridge.Broker

/-! What one step of the broker does to the cached settings block, to its overlay and to
the write-intents, and what it submits: said once here, for the results about them. -/
namespace R60V

open Overlay (patch putAll clearAll)
open Protocol (settingsLen)

/-- Why a job is submitted: the poll loop reads, a command writes what it encodes to, a
write-intent writes itself, and both read back; the front-end forwards a frame. -/
def Justified : Source → Call → Prop
  | .poll, op => ∃ address length, op = .read address length
  | .command c, op => op = settingsCall ∨
    ∃ address data, encodeCommand c = some (.ok (address, data)) ∧ op = .write address data
  | .intent i, op => op = settingsCall ∨ op = .write i.address i.data
  | .frontend raw, op => ∃ f, Protocol.parseFrame true raw = .ok f ∧
    (op = .read f.address f.length ∨ op = .write f.address f.data)

/-- A segment of a task that takes no command: it leaves the overlay alone, changes the block
only by a settings read, and shows the block as it leaves it. -/
structure Segment (store store' : DeviceState) (effects : List Effect) : Prop where
  pending : store'.pending = store.pending
  block : (store'.snapshot.settings = store.snapshot.settings ∧
      ∀ data, .settingsRead data ∉ effects) ∨
    ∃ data, .settingsRead data ∈ effects ∧ data.length = settingsLen ∧
      store'.snapshot.settings = patch store.pending data
  read : ∀ data, .settingsRead data ∈ effects → data.length = settingsLen
  accepted : ∀ i reflected, .accepted i reflected ∉ effects
  broadcast : ∀ shown, .broadcast shown ∈ effects →
    shown.settings = store'.snapshot.settings
  publish : ∀ shown, .publish shown ∈ effects → shown.settings = store'.snapshot.settings
  submits : ∀ source op, .submit source op ∈ effects → Justified source op

namespace Segment

variable {store store₁ store' : DeviceState} {effects : List Effect}

theorem nil (pending : store'.pending = store.pending)
    (settings : store'.snapshot.settings = store.snapshot.settings) : Segment store store' [] where
  pending := pending
  block := Or.inl ⟨settings, by simp⟩
  read := by simp
  accepted := by simp
  broadcast := by simp
  publish := by simp
  submits := by simp

theorem of_same (segment : Segment store₁ store' effects)
    (pending : store₁.pending = store.pending)
    (settings : store₁.snapshot.settings = store.snapshot.settings) :
    Segment store store' effects where
  pending := segment.pending.trans pending
  block := by
    rw [← pending, ← settings]
    exact segment.block
  read := segment.read
  accepted := segment.accepted
  broadcast := segment.broadcast
  publish := segment.publish
  submits := segment.submits

def Minor : Effect → Prop
  | .submit source op => Justified source op
  | .closeLink | .noted _ => True
  | _ => False

theorem cons (segment : Segment store store' effects) {e : Effect} (minor : Minor e) :
    Segment store store' (e :: effects) where
  pending := segment.pending
  block := by
    rcases segment.block with ⟨same, none_⟩ | ⟨data, member, rest⟩
    · refine Or.inl ⟨same, fun data member => ?_⟩
      rcases List.mem_cons.mp member with rfl | member
      · cases minor
      · exact none_ data member
    · exact Or.inr ⟨data, List.mem_cons_of_mem _ member, rest⟩
  read data member := by
    rcases List.mem_cons.mp member with rfl | member
    · cases minor
    · exact segment.read data member
  accepted i reflected member := by
    rcases List.mem_cons.mp member with rfl | member
    · cases minor
    · exact segment.accepted i reflected member
  broadcast shown member := by
    rcases List.mem_cons.mp member with rfl | member
    · cases minor
    · exact segment.broadcast shown member
  publish shown member := by
    rcases List.mem_cons.mp member with rfl | member
    · cases minor
    · exact segment.publish shown member
  submits source op member := by
    rcases List.mem_cons.mp member with rfl | member
    · exact minor
    · exact segment.submits source op member

theorem of_read {data : List Int} (len : data.length = settingsLen)
    (segment : Segment (store.updateSettings data) store' effects) :
    Segment store store' (.settingsRead data :: effects) where
  pending := segment.pending
  block := by
    rcases segment.block with ⟨same, _⟩ | ⟨later, member, rest⟩
    · exact Or.inr ⟨data, List.mem_cons_self, len, same⟩
    · exact Or.inr ⟨later, List.mem_cons_of_mem _ member, rest⟩
  read later member := by
    rcases List.mem_cons.mp member with same | member
    · cases same; exact len
    · exact segment.read later member
  accepted i reflected member := by
    rcases List.mem_cons.mp member with same | member
    · cases same
    · exact segment.accepted i reflected member
  broadcast shown member := by
    rcases List.mem_cons.mp member with same | member
    · cases same
    · exact segment.broadcast shown member
  publish shown member := by
    rcases List.mem_cons.mp member with same | member
    · cases same
    · exact segment.publish shown member
  submits source op member := by
    rcases List.mem_cons.mp member with same | member
    · cases same
    · exact segment.submits source op member

theorem of_broadcast (store : DeviceState) :
    Segment store store [.broadcast store.rawSnapshot] where
  pending := rfl
  block := Or.inl ⟨rfl, by simp⟩
  read := by simp
  accepted := by simp
  broadcast shown member := by
    cases List.mem_singleton.mp member
    rfl
  publish := by simp
  submits := by simp

end Segment

theorem length_of_readReturns {data : List Int} (h : readReturns settingsLen data = true) :
    data.length = settingsLen := by
  simpa [readReturns, show settingsLen ≠ 1 by decide] using h

namespace Poller

variable {cfg : BrokerConfig} {now : ℚ} {d : Device} {p : Poller}

theorem share_segment (cfg : BrokerConfig) (now : ℚ) (d : Device) (p : Poller) :
    Segment d.store (p.share cfg now d).1.store (p.share cfg now d).2.2 := by
  unfold share
  split
  · exact .of_broadcast d.store
  · exact .nil rfl rfl

theorem rest_segment (now : ℚ) (d : Device) (p : Poller) :
    Segment d.store (p.rest now d).1.store (p.rest now d).2.2 := by
  obtain ⟨pending, snapshot, _⟩ := d.store.note_frame.2.2
  exact (Segment.nil pending (by rw [snapshot])).cons trivial

theorem failed_segment (cfg : BrokerConfig) (now : ℚ) (d : Device) (p : Poller) :
    Segment d.store (p.failed cfg now d).1.store (p.failed cfg now d).2.2 := by
  let d₁ : Device := ⟨d.store.noteFailure, d.wedge.recordFailure now⟩
  let after := if d₁.wedge.wedged now && !d₁.wedge.inCooldown now then p.rest now d₁
    else p.share cfg now d₁
  obtain ⟨pending, snapshot, _⟩ := d.store.note_frame.2.1
  have either : Segment d₁.store after.1.store after.2.2 := by
    unfold after
    split
    · exact rest_segment now d₁ p
    · exact share_segment cfg now d₁ p
  exact (either.of_same pending (by rw [← snapshot])).cons trivial

theorem readLive_segment (cfg : BrokerConfig) (now : ℚ) (d : Device) (p : Poller)
    (registers : List (Nat × Nat)) :
    Segment d.store (p.readLive cfg now d registers).1.store
      (p.readLive cfg now d registers).2.2 := by
  cases registers with
  | nil =>
    obtain ⟨pending, snapshot, _⟩ := d.store.note_frame.1
    exact ((share_segment cfg now ⟨d.store.noteSuccess, d.wedge.recordSuccess⟩ p).of_same pending
      (by rw [← snapshot])).cons trivial
  | cons register rest => exact (Segment.nil rfl rfl).cons ⟨_, _, rfl⟩

theorem turn_segment (cfg : BrokerConfig) (now : ℚ) (d : Device) (p : Poller)
    (readSettings : Bool) :
    Segment d.store (p.turn cfg now d readSettings).1.store
      (p.turn cfg now d readSettings).2.2 := by
  unfold turn pollOnce
  split
  · exact (Segment.nil rfl rfl).cons trivial
  · split
    · exact (Segment.nil rfl rfl).cons ⟨_, _, rfl⟩
    · split
      · exact (Segment.nil rfl rfl).cons ⟨_, _, rfl⟩
      · exact readLive_segment cfg now d p liveRegisters

theorem probed_segment (cfg : BrokerConfig) (now : ℚ) (d : Device) (p : Poller)
    {data : List Int} (len : data.length = settingsLen) :
    Segment d.store (p.probed cfg now d data).1.store (p.probed cfg now d data).2.2 := by
  obtain ⟨pending, snapshot, _⟩ := (d.store.updateSettings data).note_frame.1
  rcases outcome : d.wedge.recordProbeSuccess now with ⟨resumed, wedge⟩
  simp only [probed, outcome]
  cases resumed with
  | true =>
    let d₁ : Device := ⟨(d.store.updateSettings data).noteSuccess, wedge⟩
    exact .of_read len (((share_segment cfg now d₁ p).of_same pending (by rw [← snapshot])).cons
      trivial)
  | false => exact .of_read len (share_segment cfg now ⟨d.store.updateSettings data, wedge⟩ p)

theorem step_segment {wants : Bool} {e : PollEvent} {r : Device × Poller × List Effect}
    (h : p.step cfg now wants d e = some r) : Segment d.store r.1.store r.2.2 := by
  cases step_stepped h with
  | slept | broadcast => exact .nil rfl rfl
  | turned => exact turn_segment cfg now d _ _
  | probed _ whole => exact probed_segment cfg now d p (length_of_readReturns whole)
  | relapsed => exact rest_segment now d p
  | settings _ whole =>
    exact .of_read (length_of_readReturns whole) (readLive_segment cfg now ⟨_, d.wedge⟩ p _)
  | live => exact (readLive_segment cfg now ⟨_, d.wedge⟩ p _).of_same rfl rfl
  | failed => exact failed_segment cfg now d p
  | closed => exact share_segment cfg now d p

end Poller

theorem publish_segment (now : ℚ) (store : DeviceState) :
    Segment store (publish now store).1 (publish now store).2 := by
  obtain ⟨_, pending, settings, _⟩ := store.interpolateLiveTemps_frame now
  unfold publish
  split
  · exact {
      pending := pending
      block := Or.inl ⟨settings, by simp⟩
      read := by simp
      accepted := by simp
      broadcast := by simp
      publish := fun shown member => by cases List.mem_singleton.mp member; rfl
      submits := by simp }
  · exact .nil rfl rfl

namespace CommandLoop

theorem failed_segment (store : DeviceState) (loop : CommandLoop) (x : Exc) :
    Segment store (loop.failed store x).1 (loop.failed store x).2.2.2 := by
  obtain ⟨pending, snapshot, _⟩ := store.note_frame.2.1
  unfold failed
  split
  · exact (Segment.nil pending (by rw [snapshot])).cons trivial
  · exact .nil rfl rfl

theorem step_segment {now : ℚ} {store : DeviceState} {loop : CommandLoop} {e : CommandEvent}
    {r : DeviceState × CommandLoop × Option Exc × List Effect}
    (h : loop.step now store e = some r) : Segment store r.1 r.2.2.2 := by
  cases step_stepped h with
  | take =>
    unfold take
    split
    · exact .nil rfl rfl
    · rename_i encoded
      exact (Segment.nil rfl rfl).cons (Or.inr ⟨_, _, encoded, rfl⟩)
    · exact .nil rfl rfl
  | wrote => exact (Segment.nil rfl rfl).cons (Or.inl rfl)
  | writeFailed | readFailed => exact failed_segment store loop _
  | @readBack c data _ whole =>
    obtain ⟨pending, snapshot, _⟩ := (store.updateSettings data).note_frame.1
    exact .of_read (length_of_readReturns whole)
      (((publish_segment now _).of_same pending (by rw [snapshot])).cons trivial)

end CommandLoop

namespace IntentLoop

def outstanding (loop : IntentLoop) : List Intent :=
  match loop.current with
  | some (i, .coolingDown _) | some (i, .writing _) | some (i, .backingOff _ _) =>
    i :: loop.queue
  | _ => loop.queue

def owners (loop : IntentLoop) : List Intent := (loop.current.map (·.1)).toList ++ loop.queue

theorem outstanding_subset (loop : IntentLoop) : loop.outstanding ⊆ loop.owners := by
  unfold outstanding owners
  split
  all_goals rename_i current
  all_goals simp_all

variable {now : ℚ} {wedge : WedgeRecovery} {store : DeviceState} {loop : IntentLoop}

/-- What a step of the write-intent loop does to the overlay and to what is outstanding. -/
inductive Spends (store : DeviceState) (loop : IntentLoop) (e : IntentEvent) :
    DeviceState × IntentLoop × List Effect → Prop where
  | segment {r : DeviceState × IntentLoop × List Effect} (segment : Segment store r.1 r.2.2)
      (outstanding : r.2.1.outstanding = loop.outstanding) : Spends store loop e r
  | written {r : DeviceState × IntentLoop × List Effect} {i : Intent} {attempt : Nat}
      {result : Except Exc Unit} (event : e = .write result)
      (current : loop.current = some (i, .writing attempt))
      (finished : ∀ x, result = .error x → x.isConnectionError = true ∧ writeRetries ≤ attempt)
      (segment : Segment (store.reconcileClear i.address i.data) r.1 r.2.2)
      (outstanding : r.2.1.outstanding = loop.queue) : Spends store loop e r
  | lost {i : Intent} {attempt : Nat} {x : Exc} (event : e = .write (.error x))
      (current : loop.current = some (i, .writing attempt))
      (stray : x.isConnectionError = false) :
      Spends store loop e (store, { loop with current := none }, [])

theorem enter_outstanding (now : ℚ) (wedge : WedgeRecovery) (loop : IntentLoop) (i : Intent) :
    (loop.enter now wedge i).1.outstanding = i :: loop.queue := by
  unfold enter
  split <;> rfl

theorem enter_segment (now : ℚ) (wedge : WedgeRecovery) (store : DeviceState)
    (loop : IntentLoop) (i : Intent) : Segment store store (loop.enter now wedge i).2 := by
  unfold enter
  split
  · exact .nil rfl rfl
  · exact (Segment.nil rfl rfl).cons (Or.inr rfl)

theorem share_segment (store : DeviceState) (loop : IntentLoop) (i : Intent) (ok : Bool) :
    Segment store (loop.share store i ok).1 (loop.share store i ok).2.2 :=
  (Segment.of_broadcast store).cons trivial

theorem reconcile_segment (store : DeviceState) (loop : IntentLoop) (i : Intent) (wrote : Bool) :
    Segment (store.reconcileClear i.address i.data) (loop.reconcile store i wrote).1
      (loop.reconcile store i wrote).2.2 := by
  cases wrote with
  | true => exact (Segment.nil rfl rfl).cons (Or.inl rfl)
  | false =>
    obtain ⟨pending, snapshot, _⟩ := (store.reconcileClear i.address i.data).note_frame.2.1
    have readBack : Justified (.intent i) settingsCall := Or.inl rfl
    exact ((Segment.nil pending (by rw [← snapshot])).cons
      (e := .submit (.intent i) settingsCall) readBack).cons trivial

theorem step_spends {e : IntentEvent} {r : DeviceState × IntentLoop × List Effect}
    (h : loop.step now wedge store e = some r) : Spends store loop e r := by
  cases step_stepped h with
  | take free queue =>
    refine .segment (enter_segment now wedge store _ _) ?_
    rw [enter_outstanding]
    simp [outstanding, free, queue]
  | waited current =>
    refine .segment (enter_segment now wedge store _ _) ?_
    rw [enter_outstanding]
    simp [outstanding, current]
  | retried current =>
    exact .segment ((Segment.nil rfl rfl).cons (Or.inr rfl))
      (by simp [submitWrite, outstanding, current])
  | @written i attempt result current =>
    cases result with
    | ok _ => exact .written rfl current nofun (reconcile_segment store loop i true) rfl
    | error x =>
      cases connection : x.isConnectionError with
      | false => simpa [written, connection] using Spends.lost rfl current connection
      | true =>
        by_cases early : attempt < writeRetries
        · simp only [written, connection, if_true, early]
          exact .segment (.nil rfl rfl) (by simp [outstanding, current])
        · simp only [written, connection, if_true, early, if_false]
          exact .written rfl current
            (fun y eq => by cases eq; exact ⟨connection, Nat.not_lt.mp early⟩)
            (reconcile_segment store loop i false) rfl
  | @readBack i data current whole =>
    obtain ⟨pending, snapshot, _⟩ := (store.updateSettings data).note_frame.1
    have shared := share_segment (store.updateSettings data).noteSuccess loop i true
    refine .segment (.of_read (length_of_readReturns whole)
      (shared.of_same pending (congrArg _ snapshot))) ?_
    simp [share, outstanding, current]
  | @readFailed i _ current =>
    obtain ⟨pending, snapshot, _⟩ := store.note_frame.2.1
    refine .segment ((share_segment store.noteFailure loop i false).of_same pending
      (congrArg _ snapshot)) ?_
    simp [share, outstanding, current]
  | readLost current => exact .segment (.nil rfl rfl) (by simp [outstanding, current])
  | shared current => exact .segment (.nil rfl rfl) (by simp [outstanding, current])

end IntentLoop

namespace Broker

/-- What one step of the broker does to the cached block, the overlay and the write-intents. -/
inductive Changes (b : Broker) : Event → Broker → List Effect → Prop where
  | segment {e : Event} {b' : Broker} {effects : List Effect}
      (segment : Segment b.device.store b'.device.store effects)
      (outstanding : b'.intents.outstanding = b.intents.outstanding) : Changes b e b' effects
  | accepted {frame : WsFrame} {i : Intent} {b' : Broker} (admitted : validate frame = some i)
      (room : b.intents.queue.length < intentQueueMax)
      (store : b'.device.store = (b.device.store.applyOptimistic i.address i.data).2)
      (intents : b'.intents = { b.intents with queue := b.intents.queue ++ [i] }) :
      Changes b (.wsCommand frame) b'
        [.accepted i (b.device.store.applyOptimistic i.address i.data).1,
          .broadcast b'.device.store.rawSnapshot]
  | written {i : Intent} {attempt : Nat} {result : Except Exc Unit} {b' : Broker}
      {effects : List Effect} (current : b.intents.current = some (i, .writing attempt))
      (finished : ∀ x, result = .error x → x.isConnectionError = true ∧ writeRetries ≤ attempt)
      (segment : Segment (b.device.store.reconcileClear i.address i.data) b'.device.store effects)
      (outstanding : b'.intents.outstanding = b.intents.queue) :
      Changes b (.intent (.write result)) b' effects
  | lost {i : Intent} {attempt : Nat} {x : Exc} {b' : Broker}
      (current : b.intents.current = some (i, .writing attempt))
      (stray : x.isConnectionError = false) (store : b'.device.store = b.device.store)
      (intents : b'.intents = { b.intents with current := none }) :
      Changes b (.intent (.write (.error x))) b' []

variable {cfg : BrokerConfig} {b b' : Broker} {e : Event} {effects : List Effect}

theorem step_changes (h : step cfg b e = some (b', effects)) : b.Changes e b' effects := by
  cases (step_stepped h).2 with
  | poll polled => exact .segment (Poller.step_segment polled) rfl
  | command commanded => exact .segment (CommandLoop.step_segment commanded) rfl
  | intent applied =>
    cases IntentLoop.step_spends applied with
    | segment segment outstanding => exact .segment segment outstanding
    | written event current finished segment outstanding =>
      subst event
      exact .written current finished segment outstanding
    | lost event current stray =>
      subst event
      exact .lost current stray rfl rfl
  | @wsCommand frame _ _ _ _ received =>
    cases admitted : validate frame with
    | none =>
      simp only [IntentLoop.onWsCommand, admitted] at received
      cases received
      exact .segment (.nil rfl rfl) rfl
    | some i =>
      by_cases room : b.intents.queue.length < intentQueueMax
      · simp only [IntentLoop.onWsCommand, admitted, if_pos room] at received
        cases received
        exact .accepted admitted room rfl rfl
      · simp only [IntentLoop.onWsCommand, admitted, if_neg room] at received
        cases received
        exact .segment (.nil rfl rfl) rfl
  | publish => exact .segment (publish_segment b.now b.device.store) rfl
  | frontendFrame =>
    refine .segment ?_ rfl
    unfold dispatch
    split
    · exact .nil rfl rfl
    · rename_i parsed
      split
      · exact (Segment.nil rfl rfl).cons ⟨_, parsed, Or.inl rfl⟩
      · exact (Segment.nil rfl rfl).cons ⟨_, parsed, Or.inr rfl⟩
  | advance | subscribe | unsubscribe | mqttMessage => exact .segment (.nil rfl rfl) rfl

theorem step_justified (h : step cfg b e = some (b', effects)) {source : Source} {op : Call}
    (member : .submit source op ∈ effects) : Justified source op := by
  cases step_changes h with
  | segment segment _ => exact segment.submits source op member
  | accepted _ _ _ _ => simp at member
  | written _ _ segment _ => exact segment.submits source op member
  | lost _ _ _ _ => cases member

end Broker

end R60V
