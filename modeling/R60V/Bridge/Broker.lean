import R60V.Bridge.Store
import R60V.Bridge.Wedge
import R60V.Bridge.Client

/-! The broker daemon: the poll loop, the MQTT command loop, the write-intent loop,
the publish loop and the front-end as tasks that interleave at their `await`s. What the
governor answers is part of the event that resumes a task, so nothing is assumed
about the order in which it serves the jobs. Times are exact rationals, and a segment
between two `await`s takes no time. -/
namespace R60V

open Python (Text roundEven)
open Protocol (Frame parseFrame settingsBase settingsLen)

def writeRetries : Nat := 2

def writeRetryBackoff : ℚ := 1 / 2

def intentQueueMax : Nat := 32

structure BrokerConfig where
  mqttEnabled : Bool
  pushEnabled : Bool
  frontendEnabled : Bool
  settingsInterval : ℚ
  liveInterval : ℚ
  publishInterval : ℚ

namespace BrokerConfig

def hasConsumer (cfg : BrokerConfig) : Bool := cfg.mqttEnabled || cfg.pushEnabled

def interval (cfg : BrokerConfig) : ℚ := max (1 / 5) cfg.liveInterval

def settingsEvery (cfg : BrokerConfig) : Nat :=
  max 1 (roundEven (cfg.settingsInterval / cfg.interval)).toNat

def publishEvery (cfg : BrokerConfig) : ℚ := max (1 / 2) cfg.publishInterval

end BrokerConfig

/-- A JSON value, as far as `isinstance` tells it: a boolean is an `int` in Python, and null,
a fractional number, a string and an object are neither `int` nor `list`. -/
inductive Json where
  | other
  | bool (b : Bool)
  | int (n : Int)
  | list (items : List Json)

def Json.asInt : Json → Option Int
  | .int n => some n
  | .bool b => some (if b then 1 else 0)
  | _ => none

abbrev WsFrame := List (String × Json)

def WsFrame.field (frame : WsFrame) (key : String) : Json :=
  ((frame.reverse.find? (·.1 == key)).map (·.2)).getD .other

structure Intent where
  address : Int
  data : List Int
  deriving DecidableEq

def Intent.byte (i : Intent) (x : Nat) : Option Int := Overlay.cover i.address i.data x

structure MqttCommand where
  key : String
  payload : Text
  deriving DecidableEq

inductive Source where
  | poll
  | command (c : MqttCommand)
  | intent (i : Intent)
  | frontend (raw : Text)
  deriving DecidableEq

/-- What the broker does that others see: jobs for the governor, snapshots for the push channel
and MQTT, and the calls that the store gets. -/
inductive Effect where
  | submit (source : Source) (op : Call)
  | closeLink
  | settingsRead (data : List Int)
  | noted (ok : Bool)
  | accepted (i : Intent) (reflected : Bool)
  | broadcast (snapshot : RawSnapshot)
  | publish (snapshot : StateSnapshot)
  deriving DecidableEq

def settingsCall : Call := .read settingsBase settingsLen

/-- What a successful read of `length` bytes hands back: that many values, or none when an
acknowledgement of the same length of frame was taken for the reply. -/
def readReturns (length : Nat) (data : List Int) : Bool :=
  data.length = length || (length = 1 && data = [])

structure Device where
  store : DeviceState
  wedge : WedgeRecovery

inductive PollPoint where
  | off
  | sleeping (wakeAt : ℚ)
  | probing
  | settings
  | live (address length : Nat) (rest : List (Nat × Nat))
  | closing
  | broadcasting
  deriving DecidableEq

structure Poller where
  tick : Nat
  idle : Bool
  point : PollPoint

inductive PollEvent where
  | wake
  | read (result : Except Exc (List Int))
  | resume

namespace Poller

variable (cfg : BrokerConfig) (now : ℚ)

def endCycle (p : Poller) : Poller :=
  { p with tick := p.tick + 1, point := .sleeping (now + cfg.interval) }

-- The broadcast that ends every active turn, when there is a push server.
def share (d : Device) (p : Poller) : Device × Poller × List Effect :=
  if cfg.pushEnabled then
    (d, { p with point := .broadcasting }, [.broadcast d.store.rawSnapshot])
  else (d, p.endCycle cfg now, [])

/-- `note_wedged`, then `close_link`. -/
def rest (d : Device) (p : Poller) : Device × Poller × List Effect :=
  ({ d with wedge := (d.wedge.beginCooldown now).2, store := d.store.noteWedged },
    { p with point := .closing }, [.closeLink])

/-- `_poll_once` without `ok`. -/
def failed (d : Device) (p : Poller) : Device × Poller × List Effect :=
  let d := { d with store := d.store.noteFailure, wedge := d.wedge.recordFailure now }
  let (d, p, effects) :=
    if d.wedge.wedged now && !d.wedge.inCooldown now then p.rest now d else p.share cfg now d
  (d, p, .noted false :: effects)

-- The rest of the loop over the live registers, and the success that follows it.
def readLive (d : Device) (p : Poller) : List (Nat × Nat) → Device × Poller × List Effect
  | (address, length) :: rest =>
    (d, { p with point := .live address length rest }, [.submit .poll (.read address length)])
  | [] =>
    let (d, p, effects) := p.share cfg now
      { d with store := d.store.noteSuccess, wedge := d.wedge.recordSuccess }
    (d, p, .noted true :: effects)

def pollOnce (d : Device) (p : Poller) (readSettings : Bool) : Device × Poller × List Effect :=
  if readSettings then (d, { p with point := .settings }, [.submit .poll settingsCall])
  else p.readLive cfg now d liveRegisters

def turn (d : Device) (p : Poller) (readSettings : Bool) : Device × Poller × List Effect :=
  if d.wedge.inCooldown now then (d, { p with point := .closing }, [.closeLink])
  else if d.wedge.awaitingProbe now then
    (d, { p with point := .probing }, [.submit .poll settingsCall])
  else p.pollOnce cfg now d readSettings

-- A good probe feeds the store; a run of them resumes polling.
def probed (d : Device) (p : Poller) (data : List Int) : Device × Poller × List Effect :=
  let store := d.store.updateSettings data
  let (resumed, wedge) := d.wedge.recordProbeSuccess now
  if resumed then
    let (d, p, effects) := p.share cfg now ⟨store.noteSuccess, wedge⟩
    (d, p, .settingsRead data :: .noted true :: effects)
  else
    let (d, p, effects) := p.share cfg now ⟨store, wedge⟩
    (d, p, .settingsRead data :: effects)

/-- The answer to the read that the loop waits for. -/
def answered (d : Device) (p : Poller) (result : Except Exc (List Int)) :
    Option (Device × Poller × List Effect) :=
  match p.point, result with
  | .probing, .ok data =>
    if readReturns settingsLen data then some (p.probed cfg now d data) else none
  | .probing, .error _ => some (p.rest now d)
  | .settings, .ok data =>
    if readReturns settingsLen data then
      let (d, p, effects) := p.readLive cfg now
        { d with store := d.store.updateSettings data } liveRegisters
      some (d, p, .settingsRead data :: effects)
    else none
  | .live address length rest, .ok data =>
    if readReturns length data then
      some (p.readLive cfg now { d with store := d.store.updateLive now address data } rest)
    else none
  | .settings, .error _ | .live _ _ _, .error _ => some (p.failed cfg now d)
  | _, _ => none

def step (wantsData : Bool) (d : Device) (p : Poller) :
    PollEvent → Option (Device × Poller × List Effect)
  | .wake =>
    match p.point with
    | .sleeping wakeAt =>
      if now < wakeAt then none
      else if wantsData then
        some ({ p with idle := false }.turn cfg now d
          (p.idle || p.tick % cfg.settingsEvery == 0))
      else some (d, { p with idle := true, point := .sleeping (now + cfg.interval) }, [])
    | _ => none
  | .read result => p.answered cfg now d result
  | .resume =>
    match p.point with
    | .closing => some (p.share cfg now d)
    | .broadcasting => some (d, p.endCycle cfg now, [])
    | _ => none

/-- `_poll_once` waits for a read. -/
def inCycle (p : Poller) : Bool :=
  match p.point with
  | .settings | .live _ _ _ => true
  | _ => false

/-- What a segment of the poll loop can do, with the guard that lets it. -/
inductive Stepped (wantsData : Bool) (d : Device) (p : Poller) :
    PollEvent → Device × Poller × List Effect → Prop where
  | slept {wakeAt : ℚ} (point : p.point = .sleeping wakeAt) (idle : wantsData = false) :
      Stepped wantsData d p .wake
        (d, { p with idle := true, point := .sleeping (now + cfg.interval) }, [])
  | turned {wakeAt : ℚ} (point : p.point = .sleeping wakeAt) (wanted : wantsData = true) :
      Stepped wantsData d p .wake
        ({ p with idle := false }.turn cfg now d (p.idle || p.tick % cfg.settingsEvery == 0))
  | probed {data : List Int} (point : p.point = .probing)
      (whole : readReturns settingsLen data = true) :
      Stepped wantsData d p (.read (.ok data)) (p.probed cfg now d data)
  | relapsed {x : Exc} (point : p.point = .probing) :
      Stepped wantsData d p (.read (.error x)) (p.rest now d)
  | settings {data : List Int} (point : p.point = .settings)
      (whole : readReturns settingsLen data = true) :
      Stepped wantsData d p (.read (.ok data))
        ((p.readLive cfg now ⟨d.store.updateSettings data, d.wedge⟩ liveRegisters).1,
          (p.readLive cfg now ⟨d.store.updateSettings data, d.wedge⟩ liveRegisters).2.1,
          .settingsRead data ::
            (p.readLive cfg now ⟨d.store.updateSettings data, d.wedge⟩ liveRegisters).2.2)
  | live {address length : Nat} {rest : List (Nat × Nat)} {data : List Int}
      (point : p.point = .live address length rest) (whole : readReturns length data = true) :
      Stepped wantsData d p (.read (.ok data))
        (p.readLive cfg now ⟨d.store.updateLive now address data, d.wedge⟩ rest)
  | failed {x : Exc} (cycle : p.inCycle = true) :
      Stepped wantsData d p (.read (.error x)) (p.failed cfg now d)
  | closed (point : p.point = .closing) :
      Stepped wantsData d p .resume (p.share cfg now d)
  | broadcast (point : p.point = .broadcasting) :
      Stepped wantsData d p .resume (d, p.endCycle cfg now, [])

variable {cfg : BrokerConfig} {now : ℚ} {wantsData : Bool} {d : Device} {p : Poller}

theorem answered_stepped {result : Except Exc (List Int)} {r : Device × Poller × List Effect}
    (h : p.answered cfg now d result = some r) :
    p.Stepped cfg now wantsData d (.read result) r := by
  unfold answered at h
  split at h
  · rename_i point
    split at h
    · rename_i whole
      cases h
      exact .probed point whole
    · cases h
  · rename_i point
    cases h
    exact .relapsed point
  · rename_i point
    split at h
    · rename_i whole
      cases h
      exact .settings point whole
    · cases h
  · rename_i point
    split at h
    · rename_i whole
      cases h
      exact .live point whole
    · cases h
  · rename_i point
    cases h
    exact .failed (by simp [inCycle, point])
  · rename_i point
    cases h
    exact .failed (by simp [inCycle, point])
  · cases h

theorem step_stepped {e : PollEvent} {r : Device × Poller × List Effect}
    (h : p.step cfg now wantsData d e = some r) : p.Stepped cfg now wantsData d e r := by
  cases e with
  | wake =>
    simp only [step] at h
    split at h
    · rename_i point
      split at h
      · cases h
      · split at h
        · rename_i wanted
          cases h
          exact .turned point wanted
        · rename_i idle
          cases h
          exact .slept point (by simpa using idle)
    · cases h
  | read result => exact answered_stepped h
  | resume =>
    simp only [step] at h
    split at h
    · rename_i point
      cases h
      exact .closed point
    · rename_i point
      cases h
      exact .broadcast point
    · cases h

end Poller

/-- `StatePublisher.publish`: every entity and climate is decoded from the one snapshot. -/
def publish (now : ℚ) (store : DeviceState) : DeviceState × List Effect :=
  if store.haveData then
    let store := store.interpolateLiveTemps now
    (store, [.publish store.snapshot])
  else (store, [])

inductive CommandPhase where
  | writing | reading
  deriving DecidableEq

structure CommandLoop where
  queue : List MqttCommand
  current : Option (MqttCommand × CommandPhase)

inductive CommandEvent where
  | take
  | write (result : Except Exc Unit)
  | read (result : Except Exc (List Int))

-- How `_apply_command` resolves a key.
def encoderOf (key : String) : Option Encode :=
  match (entityByKey key).bind (·.encode) with
  | some encode => some encode
  | none => (climateByKey key).map (·.encodeTarget)

def encodeCommand (c : MqttCommand) : Option (Except EncodeError (Int × List Int)) :=
  (encoderOf c.key).map fun encode => encode c.payload

namespace CommandLoop

/-- `_apply_command` up to its first `await`. The only exception an encoder raises that is no
`ValueError` is the overflow of an infinity. -/
def take (c : MqttCommand) (rest : List MqttCommand) : CommandLoop × Option Exc × List Effect :=
  match encodeCommand c with
  | none => (⟨rest, none⟩, none, [])
  | some (.ok (address, data)) =>
    (⟨rest, some (c, .writing)⟩, none, [.submit (.command c) (.write address data)])
  | some (.error e) => (⟨rest, none⟩, if e.isValueError then none else some .overflow, [])

-- The `except` clause of `_apply_command`, with what escapes it.
def failed (store : DeviceState) (loop : CommandLoop) (e : Exc) :
    DeviceState × CommandLoop × Option Exc × List Effect :=
  if e.isConnectionError then
    (store.noteFailure, { loop with current := none }, none, [.noted false])
  else (store, { loop with current := none }, some e, [])

def step (now : ℚ) (store : DeviceState) (loop : CommandLoop) :
    CommandEvent → Option (DeviceState × CommandLoop × Option Exc × List Effect)
  | .take =>
    match loop.current, loop.queue with
    | none, c :: rest => some (store, take c rest)
    | _, _ => none
  | .write result =>
    match loop.current, result with
    | some (c, .writing), .ok _ =>
      some (store, { loop with current := some (c, .reading) }, none,
        [.submit (.command c) settingsCall])
    | some (_, .writing), .error e => some (loop.failed store e)
    | _, _ => none
  | .read result =>
    match loop.current, result with
    | some (_, .reading), .ok data =>
      if readReturns settingsLen data then
        let (store, effects) := publish now (store.updateSettings data).noteSuccess
        some (store, { loop with current := none }, none,
          .settingsRead data :: .noted true :: effects)
      else none
    | some (_, .reading), .error e => some (loop.failed store e)
    | _, _ => none

inductive Stepped (now : ℚ) (store : DeviceState) (loop : CommandLoop) :
    CommandEvent → DeviceState × CommandLoop × Option Exc × List Effect → Prop where
  | take {c : MqttCommand} {rest : List MqttCommand} (free : loop.current = none)
      (queue : loop.queue = c :: rest) : Stepped now store loop .take (store, take c rest)
  | wrote {c : MqttCommand} {u : Unit} (current : loop.current = some (c, .writing)) :
      Stepped now store loop (.write (.ok u))
        (store, { loop with current := some (c, .reading) }, none,
          [.submit (.command c) settingsCall])
  | writeFailed {c : MqttCommand} {x : Exc} (current : loop.current = some (c, .writing)) :
      Stepped now store loop (.write (.error x)) (loop.failed store x)
  | readBack {c : MqttCommand} {data : List Int} (current : loop.current = some (c, .reading))
      (whole : readReturns settingsLen data = true) :
      Stepped now store loop (.read (.ok data))
        ((publish now (store.updateSettings data).noteSuccess).1,
          { loop with current := none }, none, .settingsRead data :: .noted true ::
            (publish now (store.updateSettings data).noteSuccess).2)
  | readFailed {c : MqttCommand} {x : Exc} (current : loop.current = some (c, .reading)) :
      Stepped now store loop (.read (.error x)) (loop.failed store x)

theorem step_stepped {now : ℚ} {store : DeviceState} {loop : CommandLoop} {e : CommandEvent}
    {r : DeviceState × CommandLoop × Option Exc × List Effect}
    (h : loop.step now store e = some r) : loop.Stepped now store e r := by
  cases e with
  | take =>
    simp only [step] at h
    split at h
    · rename_i free queue
      cases h
      exact .take free queue
    · cases h
  | write result =>
    simp only [step] at h
    split at h
    · rename_i current
      cases h
      exact .wrote current
    · rename_i current
      cases h
      exact .writeFailed current
    · cases h
  | read result =>
    simp only [step] at h
    split at h
    · rename_i current
      split at h
      · rename_i whole
        cases h
        exact .readBack current whole
      · cases h
    · rename_i current
      cases h
      exact .readFailed current
    · cases h

end CommandLoop

inductive IntentPhase where
  | coolingDown (wakeAt : ℚ)
  | writing (attempt : Nat)
  | backingOff (attempt : Nat) (wakeAt : ℚ)
  | reading
  | broadcasting
  deriving DecidableEq

structure IntentLoop where
  queue : List Intent
  current : Option (Intent × IntentPhase)

inductive IntentEvent where
  | take
  | wake
  | write (result : Except Exc Unit)
  | read (result : Except Exc (List Int))
  | resume

-- What `_on_ws_command` makes sure of before it takes a frame.
def validate (frame : WsFrame) : Option Intent :=
  match (frame.field "address").asInt, frame.field "data" with
  | some address, .list (item :: items) =>
    ((item :: items).mapM fun b : Json => b.asInt.filter fun n => 0 ≤ n && n ≤ 0xFF).map
      fun data => ⟨address, data⟩
  | _, _ => none

namespace IntentLoop

def onWsCommand (store : DeviceState) (loop : IntentLoop) (frame : WsFrame) :
    DeviceState × IntentLoop × List Effect :=
  match validate frame with
  | none => (store, loop, [])
  | some i =>
    if loop.queue.length < intentQueueMax then
      let (reflected, store) := store.applyOptimistic i.address i.data
      (store, { loop with queue := loop.queue ++ [i] },
        [.accepted i reflected, .broadcast store.rawSnapshot])
    else (store, loop, [])

def submitWrite (loop : IntentLoop) (i : Intent) (attempt : Nat) : IntentLoop × List Effect :=
  ({ loop with current := some (i, .writing attempt) },
    [.submit (.intent i) (.write i.address i.data)])

-- The test of the `while` that waits out a cooldown, and what follows it.
def enter (now : ℚ) (wedge : WedgeRecovery) (loop : IntentLoop) (i : Intent) :
    IntentLoop × List Effect :=
  if wedge.inCooldown now then
    let wakeAt := now + min (wedge.cooldownRemaining now + 1 / 20) 5
    ({ loop with current := some (i, .coolingDown wakeAt) }, [])
  else loop.submitWrite i 0

-- The optimism is spent: clear it and submit the reconcile read.
def reconcile (store : DeviceState) (loop : IntentLoop) (i : Intent) (wrote : Bool) :
    DeviceState × IntentLoop × List Effect :=
  let store := store.reconcileClear i.address i.data
  (if wrote then store else store.noteFailure, { loop with current := some (i, .reading) },
    (if wrote then [] else [.noted false]) ++ [.submit (.intent i) settingsCall])

/-- The answer to the governed write. An exception that is no connection error leaves
`_write_and_reconcile` at once; the loop around it logs that and goes on. -/
def written (now : ℚ) (store : DeviceState) (loop : IntentLoop) (i : Intent) (attempt : Nat) :
    Except Exc Unit → DeviceState × IntentLoop × List Effect
  | .ok _ => loop.reconcile store i true
  | .error e =>
    if e.isConnectionError then
      if attempt < writeRetries then
        let wakeAt := now + writeRetryBackoff
        (store, { loop with current := some (i, .backingOff attempt wakeAt) }, [])
      else loop.reconcile store i false
    else (store, { loop with current := none }, [])

def share (store : DeviceState) (loop : IntentLoop) (i : Intent) (ok : Bool) :
    DeviceState × IntentLoop × List Effect :=
  (store, { loop with current := some (i, .broadcasting) },
    [.noted ok, .broadcast store.rawSnapshot])

def step (now : ℚ) (wedge : WedgeRecovery) (store : DeviceState) (loop : IntentLoop) :
    IntentEvent → Option (DeviceState × IntentLoop × List Effect)
  | .take =>
    match loop.current, loop.queue with
    | none, i :: rest => some (store, { loop with queue := rest }.enter now wedge i)
    | _, _ => none
  | .wake =>
    match loop.current with
    | some (i, .coolingDown wakeAt) =>
      if now < wakeAt then none else some (store, loop.enter now wedge i)
    | some (i, .backingOff attempt wakeAt) =>
      if now < wakeAt then none else some (store, loop.submitWrite i (attempt + 1))
    | _ => none
  | .write result =>
    match loop.current with
    | some (i, .writing attempt) => some (loop.written now store i attempt result)
    | _ => none
  | .read result =>
    match loop.current, result with
    | some (i, .reading), .ok data =>
      if readReturns settingsLen data then
        let (store, loop, effects) := loop.share (store.updateSettings data).noteSuccess i true
        some (store, loop, .settingsRead data :: effects)
      else none
    | some (i, .reading), .error e =>
      if e.isConnectionError then some (loop.share store.noteFailure i false)
      else some (store, { loop with current := none }, [])
    | _, _ => none
  | .resume =>
    match loop.current with
    | some (_, .broadcasting) => some (store, { loop with current := none }, [])
    | _ => none

inductive Stepped (now : ℚ) (wedge : WedgeRecovery) (store : DeviceState) (loop : IntentLoop) :
    IntentEvent → DeviceState × IntentLoop × List Effect → Prop where
  | take {i : Intent} {rest : List Intent} (free : loop.current = none)
      (queue : loop.queue = i :: rest) :
      Stepped now wedge store loop .take (store, { loop with queue := rest }.enter now wedge i)
  | waited {i : Intent} {wakeAt : ℚ} (current : loop.current = some (i, .coolingDown wakeAt))
      (due : ¬ now < wakeAt) :
      Stepped now wedge store loop .wake (store, loop.enter now wedge i)
  | retried {i : Intent} {attempt : Nat} {wakeAt : ℚ}
      (current : loop.current = some (i, .backingOff attempt wakeAt)) (due : ¬ now < wakeAt) :
      Stepped now wedge store loop .wake (store, loop.submitWrite i (attempt + 1))
  | written {i : Intent} {attempt : Nat} {result : Except Exc Unit}
      (current : loop.current = some (i, .writing attempt)) :
      Stepped now wedge store loop (.write result) (loop.written now store i attempt result)
  | readBack {i : Intent} {data : List Int} (current : loop.current = some (i, .reading))
      (whole : readReturns settingsLen data = true) :
      Stepped now wedge store loop (.read (.ok data))
        ((loop.share (store.updateSettings data).noteSuccess i true).1,
          (loop.share (store.updateSettings data).noteSuccess i true).2.1,
          .settingsRead data :: (loop.share (store.updateSettings data).noteSuccess i true).2.2)
  | readFailed {i : Intent} {x : Exc} (current : loop.current = some (i, .reading))
      (connection : x.isConnectionError = true) :
      Stepped now wedge store loop (.read (.error x)) (loop.share store.noteFailure i false)
  | readLost {i : Intent} {x : Exc} (current : loop.current = some (i, .reading))
      (stray : ¬ x.isConnectionError = true) :
      Stepped now wedge store loop (.read (.error x)) (store, { loop with current := none }, [])
  | shared {i : Intent} (current : loop.current = some (i, .broadcasting)) :
      Stepped now wedge store loop .resume (store, { loop with current := none }, [])

theorem step_stepped {now : ℚ} {wedge : WedgeRecovery} {store : DeviceState} {loop : IntentLoop}
    {e : IntentEvent} {r : DeviceState × IntentLoop × List Effect}
    (h : loop.step now wedge store e = some r) : loop.Stepped now wedge store e r := by
  cases e with
  | take =>
    simp only [step] at h
    split at h
    · rename_i free queue
      cases h
      exact .take free queue
    · cases h
  | wake =>
    simp only [step] at h
    split at h
    · rename_i current
      split at h
      · cases h
      · rename_i due
        cases h
        exact .waited current due
    · rename_i current
      split at h
      · cases h
      · rename_i due
        cases h
        exact .retried current due
    · cases h
  | write result =>
    simp only [step] at h
    split at h
    · rename_i current
      cases h
      exact .written current
    · cases h
  | read result =>
    simp only [step] at h
    split at h
    · rename_i current
      split at h
      · rename_i whole
        cases h
        exact .readBack current whole
      · cases h
    · rename_i current
      split at h
      · rename_i connection
        cases h
        exact .readFailed current connection
      · rename_i stray
        cases h
        exact .readLost current stray
    · cases h
  | resume =>
    simp only [step] at h
    split at h
    · rename_i current
      cases h
      exact .shared current
    · cases h

end IntentLoop

/-- `R60VFrontend._dispatch` up to its `await`. A client waits for its reply before it sends
again, but there may be any number of clients. -/
def dispatch (raw : Text) : List Effect :=
  match parseFrame true raw with
  | .error _ => []
  | .ok f =>
    match f.command with
    | .read => [.submit (.frontend raw) (.read f.address f.length)]
    | .write => [.submit (.frontend raw) (.write f.address f.data)]

structure Broker where
  now : ℚ
  -- `push.client_count`.
  subscribers : Nat
  device : Device
  poller : Poller
  commands : CommandLoop
  intents : IntentLoop
  -- When the publish loop wakes.
  publishAt : ℚ
  -- The exception that a task let out, which unwinds the `gather`.
  crashed : Option Exc

inductive Event where
  | advance (seconds : ℚ)
  | subscribe
  | unsubscribe
  | poll (e : PollEvent)
  | publish
  | mqttMessage (c : MqttCommand)
  | command (e : CommandEvent)
  | wsCommand (frame : WsFrame)
  | intent (e : IntentEvent)
  | frontendFrame (raw : Text)

namespace Broker

def start (cfg : BrokerConfig) : Broker where
  now := 0
  subscribers := 0
  device :=
    { store := .new 4 12 1
      wedge := .new wedgeAfterDefault cooldownStepsDefault (by decide) resumeAfterProbesDefault }
  poller := ⟨0, true, if cfg.hasConsumer then .sleeping 0 else .off⟩
  commands := ⟨[], none⟩
  intents := ⟨[], none⟩
  publishAt := 0
  crashed := none

def wantsData (cfg : BrokerConfig) (b : Broker) : Bool :=
  cfg.mqttEnabled || (cfg.pushEnabled && 0 < b.subscribers)

def act (cfg : BrokerConfig) (b : Broker) : Event → Option (Broker × List Effect)
  | .advance seconds =>
    if 0 ≤ seconds then some ({ b with now := b.now + seconds }, []) else none
  | .subscribe =>
    if cfg.pushEnabled then some ({ b with subscribers := b.subscribers + 1 }, []) else none
  | .unsubscribe =>
    if 0 < b.subscribers then some ({ b with subscribers := b.subscribers - 1 }, []) else none
  | .poll e =>
    (b.poller.step cfg b.now (b.wantsData cfg) b.device e).map fun (device, poller, effects) =>
      ({ b with device := device, poller := poller }, effects)
  | .publish =>
    if cfg.mqttEnabled && b.publishAt ≤ b.now then
      let (store, effects) := R60V.publish b.now b.device.store
      some ({ b with device.store := store, publishAt := b.now + cfg.publishEvery }, effects)
    else none
  | .mqttMessage c =>
    if cfg.mqttEnabled then
      some ({ b with commands.queue := b.commands.queue ++ [c] }, [])
    else none
  | .command e =>
    (b.commands.step b.now b.device.store e).map fun (store, commands, crashed, effects) =>
      ({ b with device.store := store, commands := commands, crashed := crashed }, effects)
  | .wsCommand frame =>
    if cfg.pushEnabled then
      let (store, intents, effects) := b.intents.onWsCommand b.device.store frame
      some ({ b with device.store := store, intents := intents }, effects)
    else none
  | .intent e =>
    (b.intents.step b.now b.device.wedge b.device.store e).map fun (store, intents, effects) =>
      ({ b with device.store := store, intents := intents }, effects)
  | .frontendFrame raw => if cfg.frontendEnabled then some (b, dispatch raw) else none

/-- Nothing runs any more once a task has crashed. -/
def step (cfg : BrokerConfig) (b : Broker) (e : Event) : Option (Broker × List Effect) :=
  if b.crashed = none then b.act cfg e else none

/-- What a step can do, with the guard that lets it. -/
inductive Stepped (cfg : BrokerConfig) (b : Broker) : Event → Broker → List Effect → Prop where
  | advance {seconds : ℚ} (forward : 0 ≤ seconds) :
      Stepped cfg b (.advance seconds) { b with now := b.now + seconds } []
  | subscribe (push : cfg.pushEnabled = true) :
      Stepped cfg b .subscribe { b with subscribers := b.subscribers + 1 } []
  | unsubscribe (some_ : 0 < b.subscribers) :
      Stepped cfg b .unsubscribe { b with subscribers := b.subscribers - 1 } []
  | poll {e : PollEvent} {d : Device} {p : Poller} {effects : List Effect}
      (polled : b.poller.step cfg b.now (b.wantsData cfg) b.device e = some (d, p, effects)) :
      Stepped cfg b (.poll e) { b with device := d, poller := p } effects
  | publish (due : (cfg.mqttEnabled && b.publishAt ≤ b.now) = true) :
      Stepped cfg b .publish
        { b with
          device.store := (R60V.publish b.now b.device.store).1
          publishAt := b.now + cfg.publishEvery }
        (R60V.publish b.now b.device.store).2
  | mqttMessage {c : MqttCommand} (mqtt : cfg.mqttEnabled = true) :
      Stepped cfg b (.mqttMessage c) { b with commands.queue := b.commands.queue ++ [c] } []
  | command {e : CommandEvent} {store : DeviceState} {loop : CommandLoop} {escaped : Option Exc}
      {effects : List Effect}
      (commanded : b.commands.step b.now b.device.store e = some (store, loop, escaped, effects)) :
      Stepped cfg b (.command e)
        { b with device.store := store, commands := loop, crashed := escaped } effects
  | wsCommand {frame : WsFrame} {store : DeviceState} {loop : IntentLoop} {effects : List Effect}
      (push : cfg.pushEnabled = true)
      (received : b.intents.onWsCommand b.device.store frame = (store, loop, effects)) :
      Stepped cfg b (.wsCommand frame) { b with device.store := store, intents := loop } effects
  | intent {e : IntentEvent} {store : DeviceState} {loop : IntentLoop} {effects : List Effect}
      (applied : b.intents.step b.now b.device.wedge b.device.store e =
        some (store, loop, effects)) :
      Stepped cfg b (.intent e) { b with device.store := store, intents := loop } effects
  | frontendFrame {raw : Text} (frontend : cfg.frontendEnabled = true) :
      Stepped cfg b (.frontendFrame raw) b (dispatch raw)

theorem step_stepped {cfg : BrokerConfig} {b b' : Broker} {e : Event} {effects : List Effect}
    (h : step cfg b e = some (b', effects)) : b.crashed = none ∧ Stepped cfg b e b' effects := by
  unfold step at h
  split at h
  · rename_i running
    refine ⟨running, ?_⟩
    cases e with
    | poll e | command e | intent e =>
      obtain ⟨r, stepped, same⟩ := Option.map_eq_some_iff.mp h
      cases same
      constructor
      exact stepped
    | advance _ | subscribe | unsubscribe | publish | mqttMessage _ | wsCommand _
      | frontendFrame _ =>
      simp only [act] at h
      split at h
      · cases h
        constructor <;> first | assumption | rfl
      · cases h
  · cases h

/- Two configurations with the default intervals, and a failure, for runs on fixed events. -/

def mqttConfig : BrokerConfig := ⟨true, false, false, 60, 10, 5⟩

def pushConfig : BrokerConfig := ⟨false, true, false, 60, 10, 5⟩

def refused : Exc := .requestFailed settingsCall.frame .osError

end Broker

end R60V
