import Mathlib.Algebra.Order.Ring.Rat
import R60V.Bridge.Protocol

/-! The integration's coordinator: what it keeps between updates, and what Home Assistant's
`DataUpdateCoordinator` keeps for it. A snapshot's registers hold integers when the coordinator
polls, and whatever a frame brings when the bridge pushes. -/
namespace R60V.Integration

structure StateSnapshot (β : Type) where
  settings : List β
  live : List (Int × List β)
  available : Bool
  deriving DecidableEq

/-- `StateSnapshot(available=False)`. -/
def StateSnapshot.unavailable {β : Type} [Zero β] : StateSnapshot β :=
  ⟨List.replicate Protocol.settingsLen 0, [], false⟩

/-- What the coordinator reads of the bridge's report about its link. -/
structure BridgeHealth where
  available : Bool
  schema : Option Int
  linkUp : Bool
  diagnosticWindow : Bool
  stale : Bool

namespace BridgeHealth

def supportedSchemas : List Int := [1]

def usable (health : BridgeHealth) : Bool :=
  health.available && health.schema.any (supportedSchemas.contains ·) && !health.stale

def blocking (health : BridgeHealth) : Bool :=
  health.usable && (health.diagnosticWindow || !health.linkUp)

end BridgeHealth

def failureTolerance : Nat := 5

/-- In seconds. -/
def cooldownSteps : List ℚ := [300, 600, 1200, 1800]

def resumeAfterProbes : Nat := 2

inductive ConnectionState where
  | connected
  | reconnecting
  | cooldown
  | machineUnavailable
  | bridgeDown
  | bridgeRecovering
  deriving DecidableEq

structure Coordinator (β : Type) where
  pushEnabled : Bool
  bridgeHealthEnabled : Bool
  consecutiveFailures : Nat
  cooldownUntil : Option ℚ
  cooldownIndex : Nat
  probeSuccesses : Nat
  bridge : Option BridgeHealth
  -- Of `DataUpdateCoordinator`.
  data : Option (StateSnapshot β)
  lastUpdateSuccess : Bool

namespace Coordinator

variable {β : Type}

def new (pushEnabled bridgeHealthEnabled : Bool) : Coordinator β where
  pushEnabled := pushEnabled
  bridgeHealthEnabled := bridgeHealthEnabled
  consecutiveFailures := 0
  cooldownUntil := none
  cooldownIndex := 0
  probeSuccesses := 0
  bridge := none
  data := none
  lastUpdateSuccess := true

/-- With what the health fetcher has returned, `none` also where it has raised. -/
def refreshBridgeHealth (c : Coordinator β) (fetched : Option BridgeHealth) : Coordinator β :=
  if c.bridgeHealthEnabled then { c with bridge := fetched } else c

def bridgeBlocking (c : Coordinator β) : Bool := c.bridge.any BridgeHealth.blocking

def inCooldown (c : Coordinator β) (now : ℚ) : Bool := c.cooldownUntil.any (now < ·)

def connectionState (c : Coordinator β) (now : ℚ) : ConnectionState :=
  if c.bridgeBlocking then
    if c.bridge.any BridgeHealth.diagnosticWindow then .bridgeRecovering else .bridgeDown
  else if c.inCooldown now then .cooldown
  else if !c.lastUpdateSuccess then .reconnecting
  else if c.pushEnabled && c.data.any (!·.available) then .machineUnavailable
  else .connected

/-- `R60VEntity.available`. -/
def entityAvailable (c : Coordinator β) : Bool := c.lastUpdateSuccess && c.data.any (·.available)

def enterCooldown (c : Coordinator β) (now : ℚ) : Coordinator β :=
  let step := cooldownSteps[min c.cooldownIndex (cooldownSteps.length - 1)]?.getD 0
  { c with
    cooldownUntil := some (now + step)
    cooldownIndex := c.cooldownIndex + 1
    probeSuccesses := 0 }

def clearCooldown (c : Coordinator β) : Coordinator β :=
  { c with
    cooldownUntil := none
    cooldownIndex := 0
    consecutiveFailures := 0
    probeSuccesses := 0 }

/- What Home Assistant does with a snapshot that an update returns or the stream brings, and with an
update that raises or a stream that is lost. -/

def setUpdatedData (c : Coordinator β) (snapshot : StateSnapshot β) : Coordinator β :=
  { c with data := some snapshot, lastUpdateSuccess := true }

def setUpdateError (c : Coordinator β) : Coordinator β := { c with lastUpdateSuccess := false }

section Fields

variable (c : Coordinator β) (snapshot : StateSnapshot β) (fetched : Option BridgeHealth) (now : ℚ)

@[simp] theorem data_refreshBridgeHealth : (c.refreshBridgeHealth fetched).data = c.data := by
  unfold refreshBridgeHealth
  split <;> rfl

@[simp] theorem consecutiveFailures_refreshBridgeHealth :
    (c.refreshBridgeHealth fetched).consecutiveFailures = c.consecutiveFailures := by
  unfold refreshBridgeHealth
  split <;> rfl

@[simp] theorem pushEnabled_refreshBridgeHealth :
    (c.refreshBridgeHealth fetched).pushEnabled = c.pushEnabled := by
  unfold refreshBridgeHealth
  split <;> rfl

@[simp] theorem entityAvailable_refreshBridgeHealth :
    (c.refreshBridgeHealth fetched).entityAvailable = c.entityAvailable := by
  unfold refreshBridgeHealth
  split <;> rfl

/-- The health report touches nothing that the cooldown is about. -/
theorem cooldown_refreshBridgeHealth :
    (c.refreshBridgeHealth fetched).cooldownUntil = c.cooldownUntil ∧
    (c.refreshBridgeHealth fetched).cooldownIndex = c.cooldownIndex ∧
    (c.refreshBridgeHealth fetched).probeSuccesses = c.probeSuccesses := by
  unfold refreshBridgeHealth
  split <;> exact ⟨rfl, rfl, rfl⟩

theorem unblocked_refreshBridgeHealth (before : c.bridgeBlocking = false)
    (now : fetched.any BridgeHealth.blocking = false) :
    (c.refreshBridgeHealth fetched).bridgeBlocking = false := by
  unfold refreshBridgeHealth
  split
  · exact now
  · exact before

@[simp] theorem data_enterCooldown : (c.enterCooldown now).data = c.data := rfl

@[simp] theorem consecutiveFailures_enterCooldown :
    (c.enterCooldown now).consecutiveFailures = c.consecutiveFailures := rfl

@[simp] theorem data_clearCooldown : c.clearCooldown.data = c.data := rfl

@[simp] theorem consecutiveFailures_clearCooldown : c.clearCooldown.consecutiveFailures = 0 := rfl

@[simp] theorem entityAvailable_clearCooldown :
    c.clearCooldown.entityAvailable = c.entityAvailable := rfl

@[simp] theorem data_setUpdatedData : (c.setUpdatedData snapshot).data = some snapshot := rfl

@[simp] theorem consecutiveFailures_setUpdatedData :
    (c.setUpdatedData snapshot).consecutiveFailures = c.consecutiveFailures := rfl

@[simp] theorem entityAvailable_setUpdatedData :
    (c.setUpdatedData snapshot).entityAvailable = snapshot.available := by
  simp [entityAvailable, setUpdatedData]

@[simp] theorem data_setUpdateError : c.setUpdateError.data = c.data := rfl

@[simp] theorem consecutiveFailures_setUpdateError :
    c.setUpdateError.consecutiveFailures = c.consecutiveFailures := rfl

@[simp] theorem entityAvailable_setUpdateError : c.setUpdateError.entityAvailable = false := rfl

end Fields

/-- In push mode the connection reads `connected` only where the entities are available. -/
theorem available_of_connected {c : Coordinator β} {now : ℚ} (push : c.pushEnabled = true)
    (loaded : c.data ≠ none) (connected : c.connectionState now = .connected) :
    c.entityAvailable = true := by
  obtain ⟨d, data⟩ := Option.ne_none_iff_exists'.mp loaded
  unfold connectionState at connected
  split at connected
  · split at connected <;> cases connected
  split at connected
  · cases connected
  split at connected
  · cases connected
  split at connected
  · cases connected
  rename_i succeeded unavailable
  simp_all [entityAvailable]

end Coordinator

end R60V.Integration
