import R60V.Integration.PushClient

/-! The background task behind the push stream: `_run` with its retries, the messages that it takes
and `stop`, and what a message can do to it. Home Assistant's coordinator calls its listeners one
after the other and lets their exceptions out; which listeners there are is not the client's. -/
namespace R60V.Integration

open Python (Text)
open Runs (Run Move)

/-- A listener of the coordinator, by whether it raises at what it finds there. -/
abbrev Listener := Coordinator JsonValue → Bool

inductive Raised where
  | handle (x : HandleExc)
  | listener
  deriving DecidableEq

/-- Where `_run` is. -/
inductive RunState where
  | connecting
  | receiving
  | sleeping (seconds : Nat)
  -- The loop is left, or the task cancelled.
  | finished
  | dead (x : Raised)
  deriving DecidableEq

def RunState.alive : RunState → Bool
  | connecting | receiving | sleeping _ => true
  | finished | dead _ => false

structure Subscription where
  coordinator : Coordinator JsonValue
  phase : RunState
  -- In seconds.
  backoff : Nat
  closing : Bool

inductive SubscriptionEvent where
  | opened
  -- Opening fails with an exception that `_run` catches.
  | refused (listeners : List Listener)
  | text (raw : Except LoadsExc JsonValue) (listeners : List Listener)
  -- A message that is neither text nor the end.
  | other
  -- The stream ends, or breaks with an exception that `_run` catches.
  | ended (listeners : List Listener)
  | woken
  -- `stop` sets the flag and cancels the task, which the task hears of later.
  | stop
  | cancelled

namespace Subscription

def backoffStart : Nat := 1

def backoffMax : Nat := 30

def start (c : Coordinator JsonValue) : Subscription := ⟨c, .connecting, backoffStart, false⟩

/-- `_handle`: the coordinator after it, and the exception that it lets out. -/
def handle (listeners : List Listener) (c : Coordinator JsonValue)
    (raw : Except LoadsExc JsonValue) : Coordinator JsonValue × Option Raised :=
  match PushFrame.handle raw with
  | .error x => (c, some (.handle x))
  | .ok none => (c, none)
  | .ok (some snapshot) =>
    let c := c.setUpdatedData snapshot
    (c, if listeners.any (· c) then some .listener else none)

/-- `async_set_update_error` tells the listeners where the last update had succeeded. -/
def lose (s : Subscription) (listeners : List Listener) : Subscription :=
  if s.closing then { s with phase := .finished }
  else
    let c := s.coordinator.setUpdateError
    if s.coordinator.lastUpdateSuccess && listeners.any (· c) then
      { s with coordinator := c, phase := .dead .listener }
    else { s with coordinator := c, phase := .sleeping (min s.backoff backoffMax) }

def step (s : Subscription) : SubscriptionEvent → Option (Subscription × List Empty)
  | .opened =>
    if s.phase = .connecting then
      some ({ s with phase := .receiving, backoff := backoffStart }, [])
    else none
  | .refused listeners => if s.phase = .connecting then some (s.lose listeners, []) else none
  | .text raw listeners =>
    if s.phase = .receiving then
      let handled := handle listeners s.coordinator raw
      some ({ s with
        coordinator := handled.1
        phase := handled.2.elim .receiving .dead }, [])
    else none
  | .other => if s.phase = .receiving then some (s, []) else none
  | .ended listeners => if s.phase = .receiving then some (s.lose listeners, []) else none
  | .woken =>
    match s.phase with
    | .sleeping _ =>
      some ({ s with
        phase := if s.closing then .finished else .connecting
        backoff := min (s.backoff * 2) backoffMax }, [])
    | _ => none
  | .stop => some ({ s with closing := true }, [])
  | .cancelled =>
    if s.closing && s.phase.alive then some ({ s with phase := .finished }, []) else none

/- What a message is to do. -/

/-- An object of type `state` with a list of settings. -/
structure StateFrame (raw : Except LoadsExc JsonValue) (items : List (Text × JsonValue))
    (settings : List JsonValue) : Prop where
  loads : raw = .ok (.dict items)
  kind : items.lookup "type".toList = some (.str "state".toList)
  settings : items.lookup "settings".toList = some (.list settings)

def liveEntries (items : List (Text × JsonValue)) : List (Text × JsonValue) :=
  match items.lookup "live".toList with
  | some (.dict registers) => registers
  | _ => []

/-- An entry of the live part that is a register: a number and its values. -/
def register (item : Text × JsonValue) : Option (Int × List JsonValue) :=
  match item.2.toList, Python.int 10 item.1 with
  | some value, some key => some (key, value)
  | _, _ => none

/-- The snapshot that a state frame shows. Where several entries are of one register, the last
counts. -/
structure Depicts (items : List (Text × JsonValue)) (settings : List JsonValue)
    (snapshot : StateSnapshot JsonValue) : Prop where
  settings : snapshot.settings = settings
  live : ∀ key, snapshot.live.lookup key =
    ((liveEntries items).filterMap register).reverse.lookup key
  available : snapshot.available = (items.lookup "available".toList).all JsonValue.truthy

/-- `_handle` returns, and the coordinator is left alone or updated once from the message. -/
def Handled (listeners : List Listener) (c : Coordinator JsonValue)
    (raw : Except LoadsExc JsonValue) : Prop :=
  (handle listeners c raw).2 = none ∧
    ((handle listeners c raw).1 = c ∨
      ∃ items settings snapshot, StateFrame raw items settings ∧ Depicts items settings snapshot ∧
        (handle listeners c raw).1 = c.setUpdatedData snapshot)

/-- The live part, where it says something, is an object. -/
def Legible (items : List (Text × JsonValue)) : Prop :=
  ∀ live, items.lookup "live".toList = some live → live.truthy = true →
    ∃ registers, live = .dict registers

/-- The messages that do no harm: not nested too deep and, for a state frame, with a legible live
part and a snapshot that no listener raises at. -/
def Digestible (listeners : List Listener) (c : Coordinator JsonValue)
    (raw : Except LoadsExc JsonValue) : Prop :=
  raw ≠ .error .recursion ∧ ∀ items settings, StateFrame raw items settings →
    Legible items ∧ ∀ snapshot, PushFrame.snapshot items settings = .ok snapshot →
      ∀ listener ∈ listeners, listener (c.setUpdatedData snapshot) = false

/-- Receiving or about to reconnect, until `stop` is called. -/
def Subscribed (s : Subscription) : Prop :=
  s.closing = true ∨ s.phase = .connecting ∨ s.phase = .receiving ∨
    ∃ seconds ≤ backoffMax, s.phase = .sleeping seconds

/-- The condition on a step before `stop`. -/
def Harmless (s : Subscription) (e : SubscriptionEvent) : Prop :=
  s.closing = true ∨
    match e with
    | .text raw listeners => Digestible listeners s.coordinator raw
    | .refused listeners | .ended listeners => s.coordinator.lastUpdateSuccess = true →
        ∀ listener ∈ listeners, listener s.coordinator.setUpdateError = false
    | _ => True

/- What `_handle` makes of a message. -/

variable {raw : Except LoadsExc JsonValue} {items : List (Text × JsonValue)}
  {settings : List JsonValue} {c : Coordinator JsonValue} {listeners : List Listener}

theorem lookup_entry {κ α : Type} [DecidableEq κ] (entry : κ × α) (d : List (κ × α)) (key : κ) :
    (entry :: d).lookup key = if key = entry.1 then some entry.2 else d.lookup key := by
  rw [List.lookup_cons]
  by_cases here : key = entry.1
  · rw [if_pos here, beq_iff_eq.mpr here]
  · rw [if_neg here, beq_false_of_ne here]

theorem lookup_dictSet {κ α : Type} [DecidableEq κ] (key : κ) (value : α) (d : List (κ × α))
    (other : κ) :
    (dictSet key value d).lookup other = if other = key then some value else d.lookup other := by
  induction d with
  | nil => rw [dictSet, lookup_entry]
  | cons entry d ih =>
    rw [dictSet]
    by_cases here : entry.1 = key
    · rw [if_pos here, lookup_entry, lookup_entry, here]
      split <;> rfl
    · rw [if_neg here, lookup_entry, lookup_entry, ih]
      by_cases first : other = entry.1
      · rw [if_pos first, if_neg (first ▸ here), if_pos first]
      · rw [if_neg first, if_neg first]

/-- A dict filled from a list keeps the last entry of each key. -/
theorem lookup_filled {κ α : Type} [DecidableEq κ] (entries : List (κ × α)) (key : κ) :
    (entries.foldl (fun d entry => dictSet entry.1 entry.2 d) []).lookup key =
      entries.reverse.lookup key := by
  induction entries using List.reverseRecOn with
  | nil => rfl
  | append_singleton entries entry ih =>
    rw [List.foldl_concat, lookup_dictSet, ih, List.reverse_concat, lookup_entry]

theorem live_filled (items : List (Text × JsonValue)) :
    PushFrame.live items =
      (items.filterMap register).foldl (fun d entry => dictSet entry.1 entry.2 d) [] := by
  rw [List.foldl_filterMap]
  unfold PushFrame.live
  congr
  funext d item
  unfold register
  cases item.2.toList with
  | none => rfl
  | some value =>
    cases Python.int 10 item.1 with
    | none => rfl
    | some key => rfl

/-- The live part is read where it is legible, and raises elsewhere. -/
theorem liveItems_cases (items : List (Text × JsonValue)) :
    (Legible items ∧ PushFrame.liveItems (items.lookup "live".toList) = .ok (liveEntries items)) ∨
    (¬ Legible items ∧ PushFrame.liveItems (items.lookup "live".toList) = .error .attribute) := by
  unfold Legible liveEntries
  cases items.lookup "live".toList with
  | none => simp [PushFrame.liveItems]
  | some live =>
    cases live with
    | dict registers =>
      cases registers with
      | nil => simp [PushFrame.liveItems, JsonValue.truthy]
      | cons r rs => simp [PushFrame.liveItems, JsonValue.truthy]
    | null | bool b | int n | float x | str text | list values =>
      simp only [PushFrame.liveItems]
      split <;> simp_all

theorem snapshot_cases (items : List (Text × JsonValue)) (settings : List JsonValue) :
    (Legible items ∧ ∃ snapshot, PushFrame.snapshot items settings = .ok snapshot ∧
      Depicts items settings snapshot) ∨
    (¬ Legible items ∧ PushFrame.snapshot items settings = .error .attribute) := by
  rcases liveItems_cases items with ⟨legible, read⟩ | ⟨illegible, raised⟩
  · have built : PushFrame.snapshot items settings = .ok ⟨settings,
        PushFrame.live (liveEntries items),
        (items.lookup "available".toList).all JsonValue.truthy⟩ := by
      simp only [PushFrame.snapshot, read]
    refine Or.inl ⟨legible, _, built, rfl, fun key => ?_, rfl⟩
    rw [live_filled, lookup_filled]
  · refine Or.inr ⟨illegible, ?_⟩
    simp only [PushFrame.snapshot, raised]

theorem handle_state (frame : StateFrame raw items settings) :
    PushFrame.handle raw = (PushFrame.snapshot items settings).map some := by
  obtain ⟨rfl, kind, list⟩ := frame
  simp only [PushFrame.handle, kind, list, if_true]

theorem handle_other (read : raw ≠ .error .recursion)
    (other : ∀ items settings, ¬ StateFrame raw items settings) :
    PushFrame.handle raw = .ok none := by
  unfold PushFrame.handle
  split
  · rfl
  · exact absurd rfl read
  · rename_i items
    split
    · rename_i kind settings hasKind hasSettings
      split
      · rename_i state
        exact absurd ⟨rfl, state ▸ hasKind, hasSettings⟩ (other items settings)
      · rfl
    · rfl
  · rfl

/-- The snapshot of a state frame, and the listeners' answer to it. -/
theorem handle_built (listeners : List Listener) (c : Coordinator JsonValue)
    {snapshot : StateSnapshot JsonValue} (frame : StateFrame raw items settings)
    (built : PushFrame.snapshot items settings = .ok snapshot) :
    handle listeners c raw = (c.setUpdatedData snapshot,
      if listeners.any (· (c.setUpdatedData snapshot)) then some .listener else none) := by
  simp only [handle, handle_state frame, built, Except.map]

theorem StateFrame.unique {items' : List (Text × JsonValue)} {settings' : List JsonValue}
    (frame : StateFrame raw items settings) (frame' : StateFrame raw items' settings') :
    items' = items ∧ settings' = settings := by
  cases frame.loads.symm.trans frame'.loads
  cases frame.settings.symm.trans frame'.settings
  exact ⟨rfl, rfl⟩

/-- What is digestible is handled as it is to be, and the rest raises. -/
theorem handle_outcome (listeners : List Listener) (c : Coordinator JsonValue)
    (raw : Except LoadsExc JsonValue) :
    (Digestible listeners c raw ∧ Handled listeners c raw) ∨
      (¬ Digestible listeners c raw ∧ (handle listeners c raw).2 ≠ none) := by
  by_cases read : raw = .error .recursion
  · subst read
    exact Or.inr ⟨fun digestible => digestible.1 rfl, fun returned => by cases returned⟩
  by_cases state : ∃ items settings, StateFrame raw items settings
  · obtain ⟨items, settings, frame⟩ := state
    rcases snapshot_cases items settings with ⟨legible, snapshot, built, shown⟩ | ⟨blurred, raised⟩
    · have outcome := handle_built listeners c frame built
      by_cases quiet : ∀ listener ∈ listeners, listener (c.setUpdatedData snapshot) = false
      · refine Or.inl ⟨⟨read, fun items' settings' frame' => ?_⟩, ?_, Or.inr ?_⟩
        · obtain ⟨rfl, rfl⟩ := frame.unique frame'
          refine ⟨legible, fun snapshot' built' => ?_⟩
          cases built.symm.trans built'
          exact quiet
        · simpa [outcome] using quiet
        · exact ⟨items, settings, snapshot, frame, shown, by rw [outcome]⟩
      · refine Or.inr ⟨fun digestible => ?_, ?_⟩
        · exact quiet ((digestible.2 items settings frame).2 snapshot built)
        · simpa [outcome] using quiet
    · have outcome : (handle listeners c raw).2 = some (.handle .attribute) := by
        simp only [handle, handle_state frame, raised, Except.map]
      refine Or.inr ⟨fun digestible => ?_, by simp [outcome]⟩
      exact blurred (digestible.2 items settings frame).1
  · have other : ∀ items settings, ¬ StateFrame raw items settings :=
      fun items settings frame => state ⟨items, settings, frame⟩
    have outcome : handle listeners c raw = (c, none) := by
      simp only [handle, handle_other read other]
    have digestible : Digestible listeners c raw :=
      ⟨read, fun items settings frame => absurd frame (other items settings)⟩
    exact Or.inl ⟨digestible, by rw [outcome], Or.inl (by rw [outcome])⟩

theorem handled_iff : Handled listeners c raw ↔ Digestible listeners c raw := by
  rcases handle_outcome listeners c raw with ⟨digestible, handled⟩ | ⟨harmful, raised⟩
  · exact iff_of_true handled digestible
  · exact iff_of_false (fun handled => raised handled.1) harmful

theorem returns_iff : (handle listeners c raw).2 = none ↔ Digestible listeners c raw := by
  rcases handle_outcome listeners c raw with ⟨digestible, handled⟩ | ⟨harmful, raised⟩
  · exact iff_of_true handled.1 digestible
  · exact iff_of_false raised harmful

/- What a step makes of the task. -/

variable {s t : Subscription} {e : SubscriptionEvent} {out : List Empty}

theorem lose_subscribed (s : Subscription) (listeners : List Listener) (open_ : s.closing = false) :
    (s.lose listeners).Subscribed ↔ (s.coordinator.lastUpdateSuccess = true →
      ∀ listener ∈ listeners, listener s.coordinator.setUpdateError = false) := by
  unfold lose
  simp only [open_, Bool.false_eq_true, if_false]
  split
  · rename_i raised
    simp only [Bool.and_eq_true, List.any_eq_true] at raised
    obtain ⟨told, listener, member, raises⟩ := raised
    refine iff_of_false ?_ fun quiet => ?_
    · simp [Subscribed]
    · exact absurd raises (by simp [quiet told listener member])
  · rename_i quiet
    refine iff_of_true ?_ fun told listener member => ?_
    · exact Or.inr (Or.inr (Or.inr ⟨_, Nat.min_le_right _ _, rfl⟩))
    · by_contra raises
      apply quiet
      simp only [told, Bool.true_and, List.any_eq_true]
      exact ⟨listener, member, by simpa using raises⟩

theorem closing_lose (s : Subscription) (listeners : List Listener) :
    (s.lose listeners).closing = s.closing := by
  unfold lose
  split
  · rfl
  · dsimp only
    split <;> rfl

theorem step_closing (closing : s.closing = true) (h : s.step e = some (t, out)) :
    t.closing = true := by
  cases e with
  | stop =>
    cases h
    rfl
  | refused listeners | ended listeners =>
    obtain ⟨-, h⟩ := Option.ite_none_right_eq_some.mp h
    cases h
    exact (closing_lose s listeners).trans closing
  | opened | text raw listeners | other | cancelled =>
    obtain ⟨-, h⟩ := Option.ite_none_right_eq_some.mp h
    cases h
    exact closing
  | woken =>
    simp only [step] at h
    split at h
    · cases h
      exact closing
    · cases h

/-- A step keeps the task going exactly if it is harmless. -/
theorem step_subscribed (h : s.step e = some (t, out)) : t.Subscribed ↔ s.Harmless e := by
  by_cases closing : s.closing = true
  · exact iff_of_true (Or.inl (step_closing closing h)) (Or.inl closing)
  · have open_ : s.closing = false := by simpa using closing
    cases e with
    | opened =>
      obtain ⟨-, h⟩ := Option.ite_none_right_eq_some.mp h
      cases h
      exact iff_of_true (Or.inr (Or.inr (Or.inl rfl))) (Or.inr trivial)
    | refused listeners | ended listeners =>
      obtain ⟨-, h⟩ := Option.ite_none_right_eq_some.mp h
      cases h
      exact (lose_subscribed s listeners open_).trans (or_iff_right closing).symm
    | text raw listeners =>
      obtain ⟨-, h⟩ := Option.ite_none_right_eq_some.mp h
      cases h
      refine Iff.trans ?_ (returns_iff.trans (or_iff_right closing).symm)
      cases outcome : (handle listeners s.coordinator raw).2 with
      | none => simp [Subscribed]
      | some x => simpa [Subscribed] using open_
    | other =>
      obtain ⟨receiving, h⟩ := Option.ite_none_right_eq_some.mp h
      cases h
      exact iff_of_true (Or.inr (Or.inr (Or.inl receiving))) (Or.inr trivial)
    | woken =>
      simp only [step] at h
      split at h
      · cases h
        refine iff_of_true (Or.inr (Or.inl ?_)) (Or.inr trivial)
        simp [open_]
      · cases h
    | stop =>
      cases h
      exact iff_of_true (Or.inl rfl) (Or.inr trivial)
    | cancelled => simp [step, open_] at h

/-- Before `stop`, the end of the sleep and a connection are all that a living task waits for. -/
theorem subscribed_receives (open_ : s.closing = false) (subscribed : s.Subscribed) :
    ∃ ms u, Run step s ms u ∧ (∀ m ∈ ms, m.event = .woken ∨ m.event = .opened) ∧
      u.phase = .receiving ∧ u.coordinator = s.coordinator := by
  obtain ⟨c, phase, backoff, closing⟩ := s
  obtain rfl : closing = false := open_
  let received : Subscription := ⟨c, .receiving, backoffStart, false⟩
  rcases subscribed with closed | rfl | rfl | ⟨seconds, -, rfl⟩
  · cases closed
  · have run : Run step ⟨c, .connecting, backoff, false⟩ [⟨_, .opened, [], received⟩] received :=
      .snoc .nil rfl
    exact ⟨_, _, run, by simp, rfl, rfl⟩
  · exact ⟨[], _, .nil, by simp, rfl, rfl⟩
  · let woken : Subscription := ⟨c, .connecting, min (backoff * 2) backoffMax, false⟩
    have run : Run step ⟨c, .sleeping seconds, backoff, false⟩
        [⟨_, .woken, [], woken⟩, ⟨woken, .opened, [], received⟩] received :=
      .snoc (.snoc .nil rfl) rfl
    exact ⟨_, _, run, by simp, rfl, rfl⟩

/- The task and the stream of push mode, which knows no listeners, no sleep and no `stop`. -/

def Mirrors (s : Subscription) (p : Push) : Prop :=
  p.coordinator = s.coordinator ∧
    match s.phase with
    | .connecting | .sleeping _ => p.stream = .away
    | .receiving => ∃ said, p.stream = .connected said
    | .finished | .dead _ => p.stream = .dead

/-- No listener raises. -/
def Quiet : SubscriptionEvent → Prop
  | .text _ listeners | .refused listeners | .ended listeners =>
    ∀ listener ∈ listeners, ∀ c, listener c = false
  | _ => True

theorem handle_quiet (quiet : ∀ listener ∈ listeners, ∀ c, listener c = false)
    (c : Coordinator JsonValue) (raw : Except LoadsExc JsonValue) :
    handle listeners c raw = handle [] c raw := by
  have silent : ∀ c, listeners.any (· c) = false := fun c =>
    List.any_eq_false.mpr fun listener member => by simp [quiet listener member c]
  unfold handle
  simp only [silent]
  rfl

theorem lose_quiet (quiet : ∀ listener ∈ listeners, ∀ c, listener c = false)
    (open_ : s.closing = false) : s.lose listeners = { s with
      coordinator := s.coordinator.setUpdateError
      phase := .sleeping (min s.backoff backoffMax) } := by
  have silent : ∀ c, listeners.any (· c) = false := fun c =>
    List.any_eq_false.mpr fun listener member => by simp [quiet listener member c]
  simp only [lose, open_, silent, Bool.and_false, Bool.false_eq_true, if_false]

/-- A message moves the stream as it moves the task. -/
theorem text_mirrors {p : Push} (same : p.coordinator = s.coordinator)
    (receiving : s.phase = .receiving) (connected : ∃ said, p.stream = .connected said)
    (quiet : ∀ listener ∈ listeners, ∀ c, listener c = false)
    (h : s.step (.text raw listeners) = some (t, out)) :
    t.Mirrors p ∨ ∃ q handed, p.step (.message raw) = some (q, handed) ∧ t.Mirrors q := by
  obtain ⟨said, connected⟩ := connected
  rw [step, if_pos receiving, handle_quiet quiet] at h
  cases h
  cases outcome : PushFrame.handle raw with
  | error x =>
    simp only [handle, outcome]
    refine Or.inr ⟨{ p with stream := .dead }, [], ?_, same, rfl⟩
    simp only [Push.step, connected, outcome]
  | ok shown =>
    cases shown with
    | none =>
      simp only [handle, outcome]
      exact Or.inl ⟨same, said, connected⟩
    | some snapshot =>
      simp only [handle, outcome, List.any_nil, Bool.false_eq_true, if_false]
      refine Or.inr ⟨⟨p.coordinator.setUpdatedData snapshot,
        .connected (some snapshot.available)⟩, [snapshot], ?_, ?_, _, rfl⟩
      · simp only [Push.step, connected, outcome]
      · exact congrArg (·.setUpdatedData snapshot) same

/-- While no listener raises and nobody calls `stop`, the task does what the stream does. -/
theorem step_mirrors {p : Push} (open_ : s.closing = false) (mirrors : s.Mirrors p)
    (quiet : Quiet e) (h : s.step e = some (t, out)) :
    t.Mirrors p ∨ ∃ e' q handed, p.step e' = some (q, handed) ∧ t.Mirrors q := by
  obtain ⟨same, stream⟩ := mirrors
  cases e with
  | opened =>
    obtain ⟨connecting, h⟩ := Option.ite_none_right_eq_some.mp h
    cases h
    rw [connecting] at stream
    exact Or.inr ⟨.opened, _, _, if_pos stream, same, none, rfl⟩
  | refused listeners =>
    obtain ⟨connecting, h⟩ := Option.ite_none_right_eq_some.mp h
    cases h
    rw [connecting] at stream
    rw [lose_quiet quiet open_]
    refine Or.inr ⟨.refused true, _, _, if_pos stream, ?_, stream⟩
    simp [same]
  | text raw listeners =>
    have receiving := (Option.ite_none_right_eq_some.mp h).1
    rw [receiving] at stream
    rcases text_mirrors same receiving stream quiet h with kept | ⟨q, handed, moved, mirrors⟩
    · exact Or.inl kept
    · exact Or.inr ⟨_, q, handed, moved, mirrors⟩
  | other =>
    obtain ⟨-, h⟩ := Option.ite_none_right_eq_some.mp h
    cases h
    exact Or.inl ⟨same, stream⟩
  | ended listeners =>
    obtain ⟨receiving, h⟩ := Option.ite_none_right_eq_some.mp h
    cases h
    rw [receiving] at stream
    obtain ⟨said, connected⟩ := stream
    rw [lose_quiet quiet open_]
    refine Or.inr ⟨.dropped, ⟨p.coordinator.setUpdateError, .away⟩, [], ?_, ?_, rfl⟩
    · simp only [Push.step, connected]
    · exact congrArg Coordinator.setUpdateError same
  | woken =>
    simp only [step] at h
    split at h
    · rename_i asleep
      cases h
      rw [asleep] at stream
      refine Or.inl ⟨same, ?_⟩
      simpa [open_] using stream
    · cases h
  | stop =>
    cases h
    exact Or.inl ⟨same, stream⟩
  | cancelled => simp [step, open_] at h

/-- **No message ends the subscription** that is digestible: on the others `_handle` raises, and the
background task is over before anyone has called `stop`. -/
theorem subscription_iff (first : Coordinator JsonValue) :
    (∀ listeners c raw, Handled listeners c raw ↔ Digestible listeners c raw) ∧
    ∀ {ms : List (Move Subscription SubscriptionEvent Empty)} {s : Subscription},
      Run step (start first) ms s →
      ((∀ m ∈ ms, m.after.Subscribed) ↔ ∀ m ∈ ms, m.before.Harmless m.event) :=
  ⟨fun _ _ _ => handled_iff, fun run => run.moves_iff (fun _ => True)
    (fun m => m.after.Subscribed) Harmless trivial (fun _ _ _ _ _ _ => trivial)
    fun _ _ _ _ _ => step_subscribed⟩

/-- A frame with no live part, a word that is no JSON, a drop, a retry and `stop`. -/
theorem subscription_run : ∃ ms s, Run step (start (.new true false)) ms s ∧
    s.phase = .finished ∧ ∀ m ∈ ms, m.after.Subscribed := by
  let nobody : Listener := fun _ => false
  have reached : (Runs.feed step (start (.new true false)) [.opened,
      .text (Push.stateFrame true) [nobody], .text (.error .value) [], .ended [nobody], .woken,
      .opened, .stop, .cancelled]).any (fun r => r.1.phase == .finished) = true := by
    decide +kernel
  obtain ⟨ms, s, run, events, finished⟩ := Runs.feed_reaches reached
  refine ⟨ms, s, run, by simpa using finished, ((subscription_iff _).2 run).mpr fun m member => ?_⟩
  have event : m.event ∈ ms.map Move.event := List.mem_map_of_mem member
  rw [events] at event
  simp only [List.mem_cons, List.not_mem_nil, or_false] at event
  rcases event with eq | eq | eq | eq | eq | eq | eq | eq <;> rw [eq]
  · exact Or.inr trivial
  · exact Or.inr (returns_iff.mp rfl)
  · exact Or.inr (returns_iff.mp rfl)
  · exact Or.inr fun _ => by simp [nobody]
  · exact Or.inr trivial
  · exact Or.inr trivial
  · exact Or.inr trivial
  · exact Or.inr trivial

/-- A list in the place of the live registers. -/
def listFrame : Except LoadsExc JsonValue :=
  .ok (.dict [("type".toList, .str "state".toList), ("settings".toList, .list []),
    ("live".toList, .list [.int 1])])

/-- `_handle` raises at a list of registers, with no listener around, and the task is dead. -/
theorem list_frame_kills :
    (¬ ∀ listeners c raw, Handled listeners c raw) ∧
    ¬ ∀ ms s, Run step (start (.new true false)) ms s → ∀ m ∈ ms, m.after.Subscribed := by
  refine ⟨fun handled => ?_, fun subscribed => ?_⟩
  · cases (handled [] (.new true false) listFrame).1
  · have dies : Run step (start (.new true false)) _
        ⟨.new true false, .dead (.handle .attribute), backoffStart, false⟩ :=
      .snoc (.snoc .nil (e := .opened) rfl) (e := .text listFrame []) rfl
    have alive := subscribed _ _ dies _ (List.mem_append_right _ (List.mem_singleton_self _))
    simp [Subscribed] at alive

end Subscription

end R60V.Integration
