import R60V.Bridge.Segments
import R60V.Lib.Runs

/-! The optimistic overlay against the write-intents: whose byte it holds, and that the
latest intent is the one that shows. The overlay is cleared by value and not by
command, and one exception path does not clear it; the conditions below are about these. -/
namespace R60V

open Overlay (Dict patch cover)
open Protocol (settingsLen)
open Runs (Run Move feed)

def latest : List Intent → Nat → Option Int
  | [], _ => none
  | i :: is, x => (latest is x).or (i.byte x)

theorem latest_append (is : List Intent) (i : Intent) (x : Nat) :
    latest (is ++ [i]) x = (i.byte x).or (latest is x) := by
  induction is with
  | nil => simp [latest]
  | cons j is ih => simp [latest, ih, Option.or_assoc]

/-- Every pair of the overlay belongs to one of these intents. -/
def OwnedBy (is : List Intent) (pending : Dict Int) : Prop :=
  ∀ x v, pending.lookup x = some v → ∃ i ∈ is, i.byte x = some v

theorem OwnedBy.mono {is js : List Intent} {pending : Dict Int} (owned : OwnedBy is pending)
    (sub : is ⊆ js) : OwnedBy js pending := by
  intro x v found
  obtain ⟨i, member, byte⟩ := owned x v found
  exact ⟨i, sub member, byte⟩

theorem OwnedBy.empty {pending : Dict Int} (owned : OwnedBy [] pending) : pending = ∅ := by
  refine AList.ext (List.eq_nil_iff_forall_not_mem.mpr fun ⟨x, v⟩ member => ?_)
  obtain ⟨i, none_, _⟩ := owned x v (AList.mem_lookup_iff.mpr member)
  cases none_

theorem IntentLoop.outstanding_append (loop : IntentLoop) (i : Intent) :
    { loop with queue := loop.queue ++ [i] : IntentLoop }.outstanding =
      loop.outstanding ++ [i] := by
  unfold IntentLoop.outstanding
  dsimp only
  split <;> simp

theorem IntentLoop.outstanding_writing {loop : IntentLoop} {i : Intent} {attempt : Nat}
    (current : loop.current = some (i, .writing attempt)) :
    loop.outstanding = i :: loop.queue := by
  simp [IntentLoop.outstanding, current]

theorem lookup_reconcileClear (s : DeviceState) (i : Intent) (x : Nat) :
    (s.reconcileClear i.address i.data).pending.lookup x =
      if i.byte x = s.pending.lookup x then none else s.pending.lookup x :=
  Overlay.lookup_clearAll i.address i.data s.pending x

namespace Broker

variable {cfg : BrokerConfig} {b b' : Broker} {e : Event} {effects : List Effect}

def Owned (b : Broker) : Prop := OwnedBy b.intents.outstanding b.device.store.pending

/-- A write that fails with an exception of another kind than the client's own leaves nothing
behind: what the failing intent still has in the overlay is also set by a queued one. -/
def strandsNothing (b : Broker) : Event → Prop
  | .intent (.write (.error x)) => x.isConnectionError = false →
    ∀ i attempt, b.intents.current = some (i, .writing attempt) →
      ∀ a v, b.device.store.pending.lookup a = some v → i.byte a = some v →
        ∃ j ∈ b.intents.queue, j.byte a = some v
  | _ => True

theorem step_owned (owned : b.Owned) (h : step cfg b e = some (b', effects))
    (met : b.strandsNothing e) : b'.Owned := by
  unfold Owned at owned ⊢
  cases step_changes h with
  | segment segment outstanding => rwa [segment.pending, outstanding]
  | accepted admitted room store intents =>
    rename_i i
    rw [intents, IntentLoop.outstanding_append, store]
    intro x v found
    rw [DeviceState.lookup_applyOptimistic] at found
    have old : b.device.store.pending.lookup x = some v →
        ∃ j ∈ b.intents.outstanding ++ [i], j.byte x = some v := fun found => by
      obtain ⟨j, member, byte⟩ := owned x v found
      exact ⟨j, List.mem_append_left _ member, byte⟩
    split at found
    · rcases Option.or_eq_some_iff.mp found with byte | ⟨_, found⟩
      · exact ⟨i, by simp, byte⟩
      · exact old found
    · exact old found
  | written current finished segment outstanding =>
    rename_i i attempt result
    rw [outstanding, segment.pending]
    intro x v found
    rw [lookup_reconcileClear] at found
    split at found
    · cases found
    · rename_i other
      obtain ⟨j, member, byte⟩ := owned x v found
      rw [IntentLoop.outstanding_writing current] at member
      rcases List.mem_cons.mp member with rfl | queued
      · exact absurd (byte.trans found.symm) other
      · exact ⟨j, queued, byte⟩
  | lost current stray store intents =>
    rename_i i attempt x
    rw [store, intents]
    intro a v found
    obtain ⟨j, member, byte⟩ := owned a v found
    rw [IntentLoop.outstanding_writing current] at member
    rcases List.mem_cons.mp member with rfl | queued
    · exact met stray j attempt current a v found byte
    · exact ⟨j, queued, byte⟩

/-- What an ownerless overlay byte would break: with no intent about, the overlay is empty and a
settings read shows the machine's own bytes. -/
def NothingMasked (b : Broker) : Prop :=
  OwnedBy b.intents.owners b.device.store.pending ∧
    (b.intents.owners = [] → b.device.store.pending = ∅ ∧
      ∀ data, (b.device.store.updateSettings data).snapshot.settings = data)

theorem Owned.nothingMasked (owned : b.Owned) : b.NothingMasked := by
  have whole := OwnedBy.mono owned b.intents.outstanding_subset
  refine ⟨whole, fun idle => ?_⟩
  have none_ : b.device.store.pending = ∅ := OwnedBy.empty (idle ▸ whole)
  refine ⟨none_, fun data => ?_⟩
  show patch b.device.store.pending data = data
  rw [none_, Overlay.patch_empty]

theorem strandsNothing_of_masked (h : step cfg b e = some (b', effects))
    (after : b'.NothingMasked) : b.strandsNothing e := by
  unfold strandsNothing
  split
  · rename_i x
    intro stray i attempt current a v found byte
    cases (step_stepped h).2 with
    | intent applied =>
      simp only [IntentLoop.step, current, IntentLoop.written, stray, Bool.false_eq_true,
        if_false, Option.some.injEq, Prod.mk.injEq] at applied
      obtain ⟨rfl, rfl, _⟩ := applied
      simpa [IntentLoop.owners] using after.1 a v found
  · trivial

/-- **Every optimistic byte has an owner**, all along a run, exactly when no governed write fails
with a foreign exception while its intent alone has a byte in the overlay. -/
theorem overlay_owned_iff {ms : List (Move Broker Event Effect)} {s : Broker}
    (run : Run (step cfg) (start cfg) ms s) :
    (∀ m ∈ ms, m.after.NothingMasked) ↔ ∀ m ∈ ms, m.before.strandsNothing m.event :=
  run.states_iff (fun _ => True) Owned NothingMasked strandsNothing trivial
    (fun x v found => by cases found) (fun _ => Owned.nothingMasked) (fun _ _ _ _ _ _ => trivial)
    (fun _ _ _ _ _ => step_owned) (fun _ _ _ _ _ _ => strandsNothing_of_masked)

def setpoints (values : List Int) : List Event :=
  [.subscribe, .poll .wake, .poll (.read (.ok (List.replicate 115 0)))] ++
    values.map fun v => .wsCommand [("address", .int 2), ("data", .list [.int v])]

theorem stray_failure_masks_byte :
    ¬ ∀ (cfg : BrokerConfig) (ms : List (Move Broker Event Effect)) (s : Broker),
      Run (step cfg) (start cfg) ms s → OwnedBy s.intents.owners s.device.store.pending := by
  intro all
  have fed : (feed (step pushConfig) (start pushConfig) (setpoints [100] ++
      [.intent .take, .intent (.write (.error .attribute))])).any
      (fun r => r.1.intents.owners.isEmpty && r.1.device.store.pending.lookup 2 == some 100) =
        true := by
    decide +kernel
  obtain ⟨ms, s, run, _, reached⟩ := Runs.feed_reaches fed
  simp only [Bool.and_eq_true, List.isEmpty_iff, beq_iff_eq] at reached
  obtain ⟨i, member, _⟩ := all pushConfig ms s run 2 100 reached.2
  rw [reached.1] at member
  cases member

theorem overlay_owned_after_write :
    ∃ ms s, Run (step pushConfig) (start pushConfig) ms s ∧
      s.device.store.snapshot.settings[2]? = some 100 ∧ ∀ m ∈ ms, m.after.NothingMasked := by
  let events := setpoints [100] ++ [.intent .take, .intent (.write (.ok ()))]
  have fed : (feed (step pushConfig) (start pushConfig) events).any
      (fun r => r.1.device.store.snapshot.settings[2]? == some 100) = true := by
    decide +kernel
  obtain ⟨ms, s, run, fedEvents, shown⟩ := Runs.feed_reaches fed
  have clean : events.all (fun e => match e with
      | .intent (.write (.error _)) => false
      | _ => true) = true := rfl
  refine ⟨ms, s, run, by simpa using shown, (overlay_owned_iff run).mpr fun m member => ?_⟩
  have only := Runs.event_mem fedEvents clean member
  unfold strandsNothing
  split
  · rename_i failed
    simp [failed] at only
  · trivial

/- The latest intent is the one that shows. -/

structure Latest (b : Broker) : Prop where
  length : b.device.store.snapshot.settings.length = settingsLen
  shows : ∀ x v, latest b.intents.outstanding x = some v → x < settingsLen ∧
    b.device.store.pending.lookup x = some v ∧ b.device.store.snapshot.settings[x]? = some v

/-- The write of an intent that ends clears the overlay by value: it spares the queued commands
when none of them is the latest at an address and has the same byte there. -/
def sparesQueued (b : Broker) : Event → Prop
  | .intent (.write result) => ∀ i attempt, b.intents.current = some (i, .writing attempt) →
    (∀ e, result = .error e → e.isConnectionError = true ∧ writeRetries ≤ attempt) →
      ∀ x v, latest b.intents.queue x = some v → i.byte x ≠ some v
  | _ => True

theorem shown_of_segment {store store' : DeviceState} {x : Nat} {v : Int}
    (segment : Segment store store' effects) (inside : x < settingsLen)
    (pending : store.pending.lookup x = some v)
    (shown : store.snapshot.settings[x]? = some v) :
    store'.pending.lookup x = some v ∧ store'.snapshot.settings[x]? = some v := by
  refine ⟨by rw [segment.pending, pending], ?_⟩
  rcases segment.block with ⟨same, _⟩ | ⟨data, _, len, patched⟩
  · rw [same, shown]
  · rw [patched, Overlay.patch_hit (len ▸ inside) pending]

theorem length_of_segment {store store' : DeviceState}
    (segment : Segment store store' effects)
    (len : store.snapshot.settings.length = settingsLen) :
    store'.snapshot.settings.length = settingsLen := by
  rcases segment.block with ⟨same, _⟩ | ⟨data, _, read, patched⟩
  · rw [same, len]
  · rw [patched, Overlay.length_patch, read]

theorem step_latest (inv : b.Latest) (h : step cfg b e = some (b', effects))
    (applied : ∀ i, .accepted i false ∉ effects) (spares : b.sparesQueued e) : b'.Latest := by
  cases step_changes h with
  | segment segment outstanding =>
    refine ⟨length_of_segment segment inv.length, fun x v newest => ?_⟩
    rw [outstanding] at newest
    obtain ⟨inside, pending, shown⟩ := inv.shows x v newest
    exact ⟨inside, shown_of_segment segment inside pending shown⟩
  | accepted admitted room store intents =>
    rename_i i
    have reflects : b.device.store.reflects i.address i.data = true := by
      by_contra refused
      exact applied i (by simp [DeviceState.applyOptimistic, refused])
    have settings : b'.device.store.snapshot.settings =
        patch b'.device.store.pending b.device.store.snapshot.settings := by
      rw [store, DeviceState.settings_applyOptimistic, if_pos reflects]
    obtain ⟨low, high⟩ := DeviceState.reflects_inside reflects
    refine ⟨by rw [settings, Overlay.length_patch, inv.length], fun x v newest => ?_⟩
    rw [intents, IntentLoop.outstanding_append, latest_append] at newest
    have inside : x < settingsLen := by
      rcases Option.or_eq_some_iff.mp newest with byte | ⟨_, old⟩
      · have bound := (Overlay.cover_eq_some byte).2.1
        rw [inv.length] at high
        omega
      · exact (inv.shows x v old).1
    have pending : b'.device.store.pending.lookup x = some v := by
      rw [store, DeviceState.lookup_applyOptimistic, if_pos reflects]
      rcases Option.or_eq_some_iff.mp newest with byte | ⟨none_, old⟩
      · exact Option.or_eq_some_iff.mpr (Or.inl byte)
      · exact Option.or_eq_some_iff.mpr (Or.inr ⟨none_, (inv.shows x v old).2.1⟩)
    exact ⟨inside, pending, by rw [settings, Overlay.patch_hit (inv.length ▸ inside) pending]⟩
  | written current finished segment outstanding =>
    rename_i i attempt result
    refine ⟨length_of_segment segment inv.length, fun x v newest => ?_⟩
    rw [outstanding] at newest
    have before : latest b.intents.outstanding x = some v := by
      rw [IntentLoop.outstanding_writing current, latest, newest, Option.some_or]
    obtain ⟨inside, pending, shown⟩ := inv.shows x v before
    have kept : (b.device.store.reconcileClear i.address i.data).pending.lookup x = some v := by
      rw [lookup_reconcileClear, pending, if_neg (spares i attempt current finished x v newest)]
    exact ⟨inside, shown_of_segment segment inside kept shown⟩
  | lost current stray store intents =>
    refine ⟨by rw [store, inv.length], fun x v newest => ?_⟩
    have before : latest b.intents.outstanding x = some v := by
      rw [IntentLoop.outstanding_writing current, latest]
      rw [intents] at newest
      rw [show latest b.intents.queue x = some v from newest, Option.some_or]
    rw [store]
    exact inv.shows x v before

/-- **The latest user intent shows**: while a command that covers an address is queued or being
written, the snapshot has the byte of the newest such command there, in every run of
reflected commands whose ended writes spare the queued ones. -/
theorem latest_intent_shows {ms : List (Move Broker Event Effect)} {s : Broker}
    (run : Run (step cfg) (start cfg) ms s)
    (applied : ∀ m ∈ ms, ∀ i, .accepted i false ∉ m.emits)
    (spares : ∀ m ∈ ms, m.before.sparesQueued m.event) :
    ∀ m ∈ ms, ∀ x v, latest m.after.intents.outstanding x = some v →
      m.after.device.store.rawSnapshot.settings[x]? = some v := by
  have inv := (run.states_of Latest
    (fun m => (∀ i, .accepted i false ∉ m.emits) ∧ m.before.sparesQueued m.event)
    ⟨List.length_replicate, fun x v newest => by cases newest⟩
    (fun _ _ _ _ inv met h => step_latest inv h met.1 met.2)
    fun m member => ⟨applied m member, spares m member⟩).1
  exact fun m member x v newest => ((inv m member).shows x v newest).2.2

def reflectsAll (m : Move Broker Event Effect) : Bool :=
  m.emits.all fun e => match e with
    | .accepted _ reflected => reflected
    | _ => true

theorem reflectsAll_iff {m : Move Broker Event Effect} (h : reflectsAll m = true) (i : Intent) :
    .accepted i false ∉ m.emits := fun member => by
  cases List.all_eq_true.mp h _ member

theorem repeated_setpoint_reverts :
    ¬ ∀ (cfg : BrokerConfig) (ms : List (Move Broker Event Effect)) (s : Broker),
      Run (step cfg) (start cfg) ms s → (∀ m ∈ ms, ∀ i, .accepted i false ∉ m.emits) →
        ∀ x v, latest s.intents.outstanding x = some v →
          s.device.store.rawSnapshot.settings[x]? = some v := by
  intro all
  have fed : (feed (step pushConfig) (start pushConfig) (setpoints [100, 90, 100] ++
      [.intent .take, .intent (.write (.ok ())),
        .intent (.read (.ok ((List.replicate 115 0).set 2 100))), .intent .resume,
        .intent .take, .intent (.write (.ok ())),
        .intent (.read (.ok ((List.replicate 115 0).set 2 90)))])).any
      (fun r => latest r.1.intents.outstanding 2 == some 100 &&
        r.1.device.store.rawSnapshot.settings[2]? == some 90 && r.2.all reflectsAll) = true := by
    decide +kernel
  obtain ⟨ms, s, run, _, reached⟩ := Runs.feed_reaches fed
  simp only [Bool.and_eq_true, beq_iff_eq, List.all_eq_true] at reached
  obtain ⟨⟨newest, shown⟩, reflected⟩ := reached
  have claimed := all pushConfig ms s run (fun m member => reflectsAll_iff (reflected m member))
    2 100 newest
  rw [shown] at claimed
  cases claimed

theorem latest_setpoint_shows :
    ∃ ms s, Run (step pushConfig) (start pushConfig) ms s ∧
      s.intents.outstanding = [⟨2, [90]⟩] ∧ ∀ m ∈ ms, ∀ x v,
        latest m.after.intents.outstanding x = some v →
          m.after.device.store.rawSnapshot.settings[x]? = some v := by
  have fed : (feed (step pushConfig) (start pushConfig) (setpoints [100, 90] ++
      [.intent .take, .intent (.write (.ok ()))])).any
      (fun r => r.1.intents.outstanding == [⟨2, [90]⟩] && r.2.all fun m =>
        reflectsAll m && match m.event with
          | .intent (.write _) => m.before.intents.queue == [⟨2, [90]⟩] &&
            m.before.intents.current.all fun c => c.1 == ⟨2, [100]⟩
          | _ => true) = true := by
    decide +kernel
  obtain ⟨ms, s, run, _, reached⟩ := Runs.feed_reaches fed
  simp only [Bool.and_eq_true, beq_iff_eq, List.all_eq_true] at reached
  refine ⟨ms, s, run, reached.1, latest_intent_shows run
    (fun m member => reflectsAll_iff (reached.2 m member).1) fun m member => ?_⟩
  have second := (reached.2 m member).2
  unfold sparesQueued
  split
  · rename_i event
    simp only [event, Bool.and_eq_true, beq_iff_eq] at second
    obtain ⟨queue, first⟩ := second
    intro i attempt current _ x v newest same
    rw [current, Option.all_some, beq_iff_eq] at first
    subst first
    simp only [queue, latest, Option.none_or] at newest
    have is90 := (Overlay.cover_eq_some newest).2.2
    have is100 := (Overlay.cover_eq_some same).2.2
    simp only [List.mem_singleton] at is90 is100
    omega
  · trivial

end Broker

end R60V
