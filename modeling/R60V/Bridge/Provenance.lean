import R60V.Bridge.Segments
import R60V.Lib.Runs

/-! Where the settings that the bridge shows come from: a governed read, a reflected
write-intent, or nowhere but the block of zeros that the store starts with. -/
namespace R60V

open Overlay (patch)
open Protocol (settingsLen)
open Runs (Run Move feed outputs Along)

/-- A byte that a settings read returned or a reflected write-intent set. -/
def Sourced (past : List Effect) (x : Nat) (v : Int) : Prop :=
  (∃ data, .settingsRead data ∈ past ∧ data[x]? = some v) ∨
    ∃ i, .accepted i true ∈ past ∧ i.byte x = some v

def Genuine (past : List Effect) (block : List Int) : Prop :=
  ∀ x < settingsLen, ∃ v, block[x]? = some v ∧ Sourced past x v

def Covered (past : List Effect) (x : Nat) : Prop :=
  (∃ data, .settingsRead data ∈ past) ∨ ∃ i v, .accepted i true ∈ past ∧ i.byte x = some v

/-- A settings read has succeeded, or the reflected write-intents make up a whole block. -/
def Filled (past : List Effect) : Prop := ∀ x < settingsLen, Covered past x

/-- A block that goes out as live: in an available broadcast, or in what MQTT publishes. -/
def Shows (effects : List Effect) (block : List Int) : Prop :=
  (∃ shown, .broadcast shown ∈ effects ∧ shown.available = true ∧ shown.settings = block) ∨
    ∃ shown, .publish shown ∈ effects ∧ shown.settings = block

theorem Sourced.covered {past : List Effect} {x : Nat} {v : Int} (h : Sourced past x v) :
    Covered past x := by
  rcases h with ⟨data, read, _⟩ | ⟨i, accepted, byte⟩
  · exact Or.inl ⟨data, read⟩
  · exact Or.inr ⟨i, v, accepted, byte⟩

theorem Sourced.append {past : List Effect} {x : Nat} {v : Int} (h : Sourced past x v)
    (more : List Effect) : Sourced (past ++ more) x v := by
  rcases h with ⟨data, read, byte⟩ | ⟨i, accepted, byte⟩
  · exact Or.inl ⟨data, List.mem_append_left _ read, byte⟩
  · exact Or.inr ⟨i, List.mem_append_left _ accepted, byte⟩

/-- The store against the past: the overlay holds reflected bytes, and so does the block, or read
ones, wherever there is a source at all. -/
structure Stocked (past : List Effect) (store : DeviceState) : Prop where
  length : store.snapshot.settings.length = settingsLen
  overlay : ∀ x v, store.pending.lookup x = some v →
    ∃ i, .accepted i true ∈ past ∧ i.byte x = some v
  block : ∀ x < settingsLen, Covered past x →
    ∃ v, store.snapshot.settings[x]? = some v ∧ Sourced past x v

namespace Stocked

variable {past effects : List Effect} {store store' : DeviceState}

theorem blank (store : DeviceState) (fresh : store.snapshot = .blank) (none_ : store.pending = ∅) :
    Stocked [] store where
  length := by rw [fresh]; exact List.length_replicate
  overlay x v found := by rw [none_] at found; cases found
  block x _ covered := by
    rcases covered with ⟨_, ⟨⟩⟩ | ⟨_, _, ⟨⟩, _⟩

theorem patched {xs : List Int} {x : Nat} (len : xs.length = settingsLen) (inside : x < settingsLen)
    (overlay : ∀ v, store.pending.lookup x = some v →
      ∃ i, .accepted i true ∈ past ∧ i.byte x = some v)
    (under : store.pending.lookup x = none → ∃ v, xs[x]? = some v ∧ Sourced past x v) :
    ∃ v, (patch store.pending xs)[x]? = some v ∧ Sourced past x v := by
  cases found : store.pending.lookup x with
  | some v => exact ⟨v, Overlay.patch_hit (len ▸ inside) found, Or.inr (overlay v found)⟩
  | none =>
    obtain ⟨v, at_, sourced⟩ := under found
    exact ⟨v, by rw [Overlay.patch_miss found, at_], sourced⟩

theorem segment (stocked : Stocked past store) (segment : Segment store store' effects) :
    Stocked (past ++ effects) store' := by
  have overlay : ∀ x v, store.pending.lookup x = some v →
      ∃ i, .accepted i true ∈ past ++ effects ∧ i.byte x = some v := fun x v found => by
    obtain ⟨i, accepted, byte⟩ := stocked.overlay x v found
    exact ⟨i, List.mem_append_left _ accepted, byte⟩
  rcases segment.block with ⟨same, unread⟩ | ⟨data, read, len, patch_⟩
  · refine ⟨by rw [same, stocked.length], by rwa [segment.pending], fun x inside covered => ?_⟩
    have before : Covered past x := by
      rcases covered with ⟨data, member⟩ | ⟨i, v, member, byte⟩
      · rcases List.mem_append.mp member with old | new
        · exact Or.inl ⟨data, old⟩
        · exact absurd new (unread data)
      · rcases List.mem_append.mp member with old | new
        · exact Or.inr ⟨i, v, old, byte⟩
        · exact absurd new (segment.accepted i true)
    obtain ⟨v, at_, sourced⟩ := stocked.block x inside before
    exact ⟨v, by rw [same, at_], sourced.append effects⟩
  · refine ⟨by rw [patch_, Overlay.length_patch, len], by rwa [segment.pending],
      fun x inside _ => ?_⟩
    rw [patch_]
    apply patched len inside (overlay x)
    intro _
    have at_ := List.getElem?_eq_getElem (len ▸ inside : x < data.length)
    exact ⟨_, at_, Or.inl ⟨data, List.mem_append_right _ read, at_⟩⟩

theorem reconcileClear (stocked : Stocked past store) (i : Intent) :
    Stocked past (store.reconcileClear i.address i.data) where
  length := stocked.length
  overlay x v found := by
    apply stocked.overlay x v
    have cleared := Overlay.lookup_clearAll i.address i.data store.pending x
    rw [show (store.reconcileClear i.address i.data).pending =
      Overlay.clearAll i.address i.data store.pending from rfl, cleared] at found
    split at found
    · cases found
    · exact found
  block := stocked.block

theorem applyOptimistic (stocked : Stocked past store) (i : Intent) (shown : RawSnapshot) :
    Stocked (past ++ [.accepted i (store.applyOptimistic i.address i.data).1, .broadcast shown])
      (store.applyOptimistic i.address i.data).2 := by
  cases reflects : store.reflects i.address i.data with
  | false =>
    have refused : store.applyOptimistic i.address i.data = (false, store) := by
      simp [DeviceState.applyOptimistic, reflects]
    rw [refused]
    refine ⟨stocked.length, fun x v found => ?_, fun x inside covered => ?_⟩
    · obtain ⟨j, accepted, byte⟩ := stocked.overlay x v found
      exact ⟨j, List.mem_append_left _ accepted, byte⟩
    · have before : Covered past x := by
        rcases covered with ⟨data, member⟩ | ⟨j, v, member, byte⟩
        · exact Or.inl ⟨data, by simpa using member⟩
        · exact Or.inr ⟨j, v, by simpa using member, byte⟩
      obtain ⟨v, at_, sourced⟩ := stocked.block x inside before
      exact ⟨v, at_, sourced.append _⟩
  | true =>
    have accepted : (store.applyOptimistic i.address i.data).1 = true := by
      simp [DeviceState.applyOptimistic, reflects]
    have lookup := store.lookup_applyOptimistic i.address i.data
    have settings := store.settings_applyOptimistic i.address i.data
    simp only [reflects, if_true] at lookup settings
    rw [accepted]
    have overlay : ∀ x v, (store.applyOptimistic i.address i.data).2.pending.lookup x = some v →
        ∃ j, .accepted j true ∈ past ++ [.accepted i true, .broadcast shown] ∧
          j.byte x = some v := by
      intro x v found
      rw [lookup] at found
      rcases Option.or_eq_some_iff.mp found with byte | ⟨_, old⟩
      · exact ⟨i, by simp, byte⟩
      · obtain ⟨j, member, byte⟩ := stocked.overlay x v old
        exact ⟨j, List.mem_append_left _ member, byte⟩
    refine ⟨by rw [settings, Overlay.length_patch, stocked.length], overlay,
      fun x inside covered => ?_⟩
    rw [settings]
    apply patched stocked.length inside (overlay x)
    intro missed
    rw [lookup, Option.or_eq_none_iff] at missed
    have before : Covered past x := by
      rcases covered with ⟨data, member⟩ | ⟨j, v, member, byte⟩
      · exact Or.inl ⟨data, by simpa using member⟩
      · rcases List.mem_append.mp member with old | new
        · exact Or.inr ⟨j, v, old, byte⟩
        · have same : j = i := by simpa using new
          rw [same, Intent.byte, missed.1] at byte
          cases byte
    obtain ⟨v, at_, sourced⟩ := stocked.block x inside before
    exact ⟨v, at_, sourced.append _⟩

end Stocked

theorem Stocked.genuine_iff {past : List Effect} {store : DeviceState}
    (stocked : Stocked past store) : Genuine past store.snapshot.settings ↔ Filled past := by
  constructor
  · intro genuine x inside
    obtain ⟨v, _, sourced⟩ := genuine x inside
    exact sourced.covered
  · exact fun filled x inside => stocked.block x inside (filled x inside)

namespace Broker

variable {cfg : BrokerConfig} {b b' : Broker} {e : Event} {effects : List Effect}

theorem step_stocked {past : List Effect} (stocked : Stocked past b.device.store)
    (h : step cfg b e = some (b', effects)) : Stocked (past ++ effects) b'.device.store := by
  cases step_changes h with
  | segment segment _ => exact stocked.segment segment
  | accepted _ _ store _ =>
    rw [store]
    exact stocked.applyOptimistic _ _
  | written _ _ segment _ => exact (stocked.reconcileClear _).segment segment
  | lost _ _ store _ => simpa [store] using stocked

theorem step_shows {block : List Int} (h : step cfg b e = some (b', effects))
    (shows_ : Shows effects block) : block = b'.device.store.snapshot.settings := by
  have of_segment : ∀ {store store' : DeviceState}, Segment store store' effects →
      block = store'.snapshot.settings := fun segment => by
    rcases shows_ with ⟨shown, member, _, rfl⟩ | ⟨shown, member, rfl⟩
    · exact segment.broadcast shown member
    · exact segment.publish shown member
  cases step_changes h with
  | segment segment _ => exact of_segment segment
  | accepted _ _ _ _ =>
    rcases shows_ with ⟨shown, member, _, rfl⟩ | ⟨shown, member, rfl⟩
    · obtain rfl : shown = _ := by simpa using member
      rfl
    · simp at member
  | written _ _ segment _ => exact of_segment segment
  | lost _ _ _ _ => rcases shows_ with ⟨_, ⟨⟩, _⟩ | ⟨_, ⟨⟩, _⟩

/-- **No made-up settings are presented as live**, all along a run, exactly when nothing is
presented as live before a settings read has succeeded, or the reflected write-intents have
covered the whole block. -/
theorem shown_settings_genuine_iff {ms : List (Move Broker Event Effect)} {s : Broker}
    (run : Run (step cfg) (start cfg) ms s) :
    Along (fun front m => ∀ block, Shows m.emits block →
        Genuine (outputs (front ++ [m])) block) ms ↔
      Along (fun front m => (∃ block, Shows m.emits block) →
        Filled (outputs (front ++ [m]))) ms := by
  refine run.along_iff (fun ms b => Stocked (outputs ms) b.device.store) _ _ ?_ ?_ ?_
  · exact Stocked.blank _ rfl rfl
  · intro ms b e b' effects stocked h
    rw [Runs.outputs_snoc]
    exact step_stocked stocked h
  · intro ms b e b' effects stocked h
    rw [Runs.outputs_snoc]
    have iff := (step_stocked stocked h).genuine_iff
    constructor
    · rintro genuine ⟨block, shows_⟩
      exact iff.mp (step_shows h shows_ ▸ genuine block shows_)
    · intro filled block shows_
      rw [step_shows h shows_]
      exact iff.mpr (filled ⟨block, shows_⟩)

def fills : Effect → Bool
  | .settingsRead _ | .accepted _ _ => true
  | _ => false

def presents : Effect → Bool
  | .broadcast shown => shown.available
  | .publish _ => true
  | _ => false

theorem presents_iff (effects : List Effect) :
    effects.any presents = true ↔ ∃ block, Shows effects block := by
  rw [List.any_eq_true]
  constructor
  · rintro ⟨e, member, presented⟩
    cases e with
    | broadcast shown => exact ⟨_, Or.inl ⟨shown, member, presented, rfl⟩⟩
    | publish shown => exact ⟨_, Or.inr ⟨shown, member, rfl⟩⟩
    | submit | closeLink | settingsRead | noted | accepted => cases presented
  · rintro ⟨block, ⟨shown, member, live, _⟩ | ⟨shown, member, _⟩⟩
    · exact ⟨_, member, live⟩
    · exact ⟨_, member, rfl⟩

/-- The first settings read fails and the next cycle reads the live registers only: MQTT then
publishes the zeros of a block that was never read. -/
theorem unread_settings_published :
    ¬ ∀ (cfg : BrokerConfig) (ms : List (Move Broker Event Effect)) (s : Broker),
      Run (step cfg) (start cfg) ms s →
        Along (fun front m => ∀ block, Shows m.emits block →
          Genuine (outputs (front ++ [m])) block) ms := by
  intro all
  have fed : (feed (step mqttConfig) (start mqttConfig) [.poll .wake,
      .poll (.read (.error refused)), .advance 10, .poll .wake, .poll (.read (.ok [93])),
      .poll (.read (.ok [120])), .poll (.read (.ok [0])),
      .poll (.read (.ok (List.replicate 16 32))), .publish]).any
      (fun r => !(outputs r.2).any fills && (outputs r.2).any presents) = true := by
    decide +kernel
  obtain ⟨ms, s, run, _, reached⟩ := Runs.feed_reaches fed
  simp only [Bool.and_eq_true, Bool.not_eq_true', List.any_eq_false] at reached
  obtain ⟨empty, shown⟩ := reached
  obtain ⟨e, member, presented⟩ := List.any_eq_true.mp shown
  obtain ⟨m, moved, emitted⟩ := List.mem_flatMap.mp member
  obtain ⟨front, back, rfl⟩ := List.append_of_mem moved
  obtain ⟨block, shows_⟩ := (presents_iff m.emits).mp (List.any_eq_true.mpr ⟨e, emitted, presented⟩)
  have earlier : ∀ x ∈ outputs (front ++ [m]), ¬ fills x = true := by
    intro x early
    apply empty x
    simp only [Runs.outputs, List.flatMap_append, List.flatMap_cons, List.flatMap_nil,
      List.append_nil, List.mem_append] at early ⊢
    tauto
  have genuine := all mqttConfig _ _ run front m back rfl block shows_
  obtain ⟨v, _, sourced⟩ := genuine 0 (by decide)
  rcases sourced with ⟨data, read, _⟩ | ⟨i, set, _⟩
  · exact earlier _ read rfl
  · exact earlier _ set rfl

theorem read_settings_shown :
    ∃ ms s, Run (step pushConfig) (start pushConfig) ms s ∧
      (∃ m ∈ ms, ∃ block, Shows m.emits block) ∧
      Along (fun front m => ∀ block, Shows m.emits block →
        Genuine (outputs (front ++ [m])) block) ms := by
  have fed : (feed (step pushConfig) (start pushConfig) [.subscribe, .poll .wake,
      .poll (.read (.ok (List.replicate 115 1))), .poll (.read (.ok [93])),
      .poll (.read (.ok [120])), .poll (.read (.ok [0]))]).any
      (fun r => (outputs r.2).contains (.settingsRead (List.replicate 115 1)) &&
        !(outputs r.2).any presents &&
        (step pushConfig r.1 (.poll (.read (.ok (List.replicate 16 32))))).any fun t =>
          t.2.any presents) = true := by
    decide +kernel
  obtain ⟨ms, s, run, _, reached⟩ := Runs.feed_reaches fed
  simp only [Bool.and_eq_true, Bool.not_eq_true', Option.any_eq_true,
    List.contains_iff_mem] at reached
  obtain ⟨⟨filled, quiet⟩, ⟨t, emits⟩, shared, presented⟩ := reached
  have whole := run.snoc shared
  refine ⟨_, _, whole, ⟨_, List.mem_append_right ms (List.mem_singleton_self _),
    (presents_iff emits).mp presented⟩,
    (shown_settings_genuine_iff whole).mpr (Runs.along_snoc.mpr ⟨?_, ?_⟩)⟩
  · rintro front m back rfl shows_
    obtain ⟨e, member, live⟩ := List.any_eq_true.mp ((presents_iff m.emits).mpr shows_)
    have out : e ∈ outputs (front ++ m :: back) :=
      List.mem_flatMap.mpr ⟨m, List.mem_append_right _ List.mem_cons_self, member⟩
    exact absurd live (List.any_eq_false.mp quiet e out)
  · rintro _ x _
    exact Or.inl ⟨_, by rw [Runs.outputs_snoc]; exact List.mem_append_left _ filled⟩

end Broker

end R60V
