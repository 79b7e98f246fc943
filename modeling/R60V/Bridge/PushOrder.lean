import R60V.Bridge.PushServer
import R60V.Bridge.Store

/-! In which order subscribers see the store: snapshots are captured before the broadcast lock is
taken, and wait for it in the order of their capture. -/
namespace R60V

open Runs (Run Move outputs feed)

namespace PushServer

variable {σ : Type} (rank : σ → Nat) {s t : PushServer σ} {e : PushEvent σ}
  {effects : List (PushEffect σ)}

/-- What the server shows and what waits for the lock, oldest first. Nothing waits for a lock that
is free. -/
structure Ordered (s : PushServer σ) : Prop where
  sorted : (s.latest :: s.queued).Pairwise fun x y => rank x ≤ rank y
  waits : s.sending = none → s.queued = []

/-- What one step does to the order: the server goes on to something that it has shown or that has
waited, or that comes in, and sends that alone. -/
structure Advances (s : PushServer σ) (e : PushEvent σ) (t : PushServer σ)
    (effects : List (PushEffect σ)) : Prop where
  ordered : Ordered rank t
  rises : rank s.latest ≤ rank t.latest
  sends : ∀ id state, .send id state ∈ effects → state = t.latest
  known : ∀ x ∈ t.latest :: t.queued, x ∈ s.latest :: s.queued ∨ e = .broadcast x

variable {rank}

theorem beginBroadcast_order (s : PushServer σ) (state : σ) :
    (s.beginBroadcast state).1.latest = state ∧ (s.beginBroadcast state).1.queued = s.queued ∧
    (s.sending = none → (s.beginBroadcast state).1.sending = none → s.clients = []) ∧
    ∀ id x, .send id x ∈ (s.beginBroadcast state).2 → x = state := by
  unfold beginBroadcast
  split
  · rename_i nobody
    exact ⟨rfl, rfl, fun _ _ => nobody, by simp⟩
  · refine ⟨rfl, rfl, ?_, ?_⟩
    · intro _ none_
      cases none_
    · intro id x sent
      obtain ⟨_, _, same⟩ := List.mem_map.mp sent
      cases same
      rfl

theorem takeLock_order {states : List σ} (free : s.sending = none)
    (sorted : (s.latest :: states).Pairwise fun x y => rank x ≤ rank y) :
    Ordered rank (s.takeLock states).1 ∧ rank s.latest ≤ rank (s.takeLock states).1.latest ∧
    (∀ id x, .send id x ∈ (s.takeLock states).2 → x = (s.takeLock states).1.latest) ∧
    ∀ x ∈ (s.takeLock states).1.latest :: (s.takeLock states).1.queued,
      x ∈ s.latest :: states := by
  induction states generalizing s with
  | nil =>
    refine ⟨⟨by simp [takeLock], fun _ => rfl⟩, le_rfl, by simp [takeLock], ?_⟩
    simp [takeLock]
  | cons state rest ih =>
    obtain ⟨first, later⟩ := List.pairwise_cons.mp sorted
    have up := first state List.mem_cons_self
    rw [takeLock]
    split
    · obtain ⟨ordered, rises, sends, known⟩ := ih (s := { s with latest := state }) free later
      refine ⟨ordered, up.trans rises, sends, ?_⟩
      exact fun x member => List.mem_cons_of_mem _ (known x member)
    · rename_i some_
      obtain ⟨latest, queued, busy, sends⟩ :=
        beginBroadcast_order { s with queued := rest } state
      refine ⟨⟨?_, fun none_ => absurd (busy free none_) some_⟩, ?_, ?_, ?_⟩
      · rw [latest, queued]
        exact later
      · rw [latest]
        exact up
      · rw [latest]
        exact sends
      · rw [latest, queued]
        exact fun x member => List.mem_cons_of_mem _ member

/-- A step that touches neither what is shown nor what waits, and sends what is shown or nothing. -/
theorem Advances.still (ordered : Ordered rank s) (latest : t.latest = s.latest)
    (queued : t.queued = s.queued) (sending : t.sending = none → s.sending = none)
    (sends : ∀ id state, .send id state ∈ effects → state = s.latest) :
    Advances rank s e t effects where
  ordered := ⟨by rw [latest, queued]; exact ordered.sorted, fun none_ => by
    rw [queued]
    exact ordered.waits (sending none_)⟩
  rises := by rw [latest]
  sends := by rw [latest]; exact sends
  known := by rw [latest, queued]; exact fun x member => .inl member

/-- Something that comes in goes to the end of what waits. -/
theorem Ordered.waits_behind (ordered : Ordered rank s) {state : σ} {sending : Sending}
    (busy : s.sending = some sending) (above : ∀ x ∈ s.latest :: s.queued, rank x ≤ rank state) :
    Ordered rank { s with queued := s.queued ++ [state] } where
  sorted := by
    rw [← List.cons_append]
    refine List.pairwise_append.mpr ⟨ordered.sorted, List.pairwise_singleton _ _, ?_⟩
    intro x member y same
    rw [List.mem_singleton.mp same]
    exact above x member
  waits none_ := by
    rw [busy] at none_
    cases none_

theorem step_advances (ordered : Ordered rank s)
    (new : ∀ state, e = .broadcast state → ∀ x ∈ s.latest :: s.queued, rank x ≤ rank state)
    (h : s.step e = some (t, effects)) : Advances rank s e t effects := by
  cases step_stepped h with
  | connected => exact .still ordered rfl rfl id (by simp)
  | greeted | refused | inbound | dispatched | socketClosed | left =>
    exact .still ordered rfl rfl id (by simp)
  | settled => exact .still ordered rfl rfl (by simp) (by simp)
  | @begins state free =>
    obtain ⟨latest, queued, busy, sends⟩ := s.beginBroadcast_order state
    rw [ordered.waits free] at queued
    refine ⟨⟨by simp [queued], fun _ => queued⟩, ?_, by rwa [latest], ?_⟩
    · rw [latest]
      exact new state rfl _ List.mem_cons_self
    · rw [latest, queued]
      intro x member
      obtain rfl := List.mem_singleton.mp member
      exact .inr rfl
  | @waits state _ busy =>
    refine ⟨ordered.waits_behind busy (new state rfl), le_rfl, by simp, ?_⟩
    intro x member
    rw [← List.cons_append] at member
    rcases List.mem_append.mp member with old | fresh
    · exact .inl old
    · exact .inr (by rw [List.mem_singleton.mp fresh])
  | @completed dead =>
    obtain ⟨taken, rises, sends, known⟩ :=
      takeLock_order (s := s.released dead) rfl ordered.sorted
    exact ⟨taken, rises, sends, fun x member => .inl (known x member)⟩

end PushServer

/-- A snapshot of the store, and when it was captured. The server begins with one that is none, from
before everything else. -/
structure Capture where
  moment : Nat
  state : Option RawSnapshot
  deriving DecidableEq

/-- The store and the push server that the broker's tasks share. -/
structure PushFeed where
  store : DeviceState
  server : PushServer Capture
  now : Nat

inductive FeedEvent where
  | store (op : StoreOp)
  -- `push.broadcast(store.raw_snapshot())`, of any task.
  | broadcast
  | server (e : PushEvent Capture)

namespace PushFeed

def start (store : DeviceState) : PushFeed := ⟨store, .start ⟨0, none⟩, 1⟩

/-- A moment is a step: what is captured in it is what the store is then. -/
def step (s : PushFeed) : FeedEvent → Option (PushFeed × List (PushEffect Capture))
  | .store op => some (⟨op.run s.store, s.server, s.now + 1⟩, [])
  | .broadcast =>
    (s.server.step (.broadcast ⟨s.now, some s.store.rawSnapshot⟩)).map fun next =>
      (⟨s.store, next.1, s.now + 1⟩, next.2)
  | .server (.broadcast _) => none
  | .server e => (s.server.step e).map fun next => (⟨s.store, next.1, s.now + 1⟩, next.2)

abbrev Trace := List (Move PushFeed FeedEvent (PushEffect Capture))

/-- What has been sent to a subscriber, in this order. -/
def sentTo (id : Nat) (ms : Trace) : List Capture :=
  (outputs ms).filterMap fun
    | .send client state => if client = id then some state else none

/-- Everything that is shown or waits was captured before now. -/
structure Timely (s : PushFeed) : Prop where
  ordered : s.server.Ordered Capture.moment
  past : ∀ x ∈ s.server.latest :: s.server.queued, x.moment < s.now

variable {s t : PushFeed} {e : FeedEvent} {effects : List (PushEffect Capture)}

theorem timely_start (store : DeviceState) : (start store).Timely where
  ordered := ⟨List.pairwise_singleton _ _, fun _ => rfl⟩
  past := by simp [start, PushServer.start]

/-- The server's step is one of the order, and captures are older than the next moment. -/
theorem step_server (timely : s.Timely) {e' : PushEvent Capture}
    {next : PushServer Capture × List (PushEffect Capture)} (moved : s.server.step e' = some next)
    (captured : ∀ x, e' = .broadcast x → x.moment = s.now) :
    PushServer.Advances Capture.moment s.server e' next.1 next.2 ∧
      ∀ x ∈ next.1.latest :: next.1.queued, x.moment < s.now + 1 := by
  have later : ∀ x, e' = .broadcast x → ∀ y ∈ s.server.latest :: s.server.queued,
      y.moment ≤ x.moment := by
    intro x comes y member
    rw [captured x comes]
    exact (timely.past y member).le
  have advances : PushServer.Advances Capture.moment s.server e' next.1 next.2 :=
    PushServer.step_advances timely.ordered later moved
  refine ⟨advances, fun x member => ?_⟩
  rcases advances.known x member with old | new
  · exact Nat.lt_succ_of_lt (timely.past x old)
  · exact Nat.lt_succ_of_le (captured x new).le

/-- What a step of the feed makes of the order: it stays timely, what is shown gets no older, and
nothing else is sent. -/
theorem step_timely (timely : s.Timely) (h : s.step e = some (t, effects)) :
    t.Timely ∧ s.server.latest.moment ≤ t.server.latest.moment ∧
      ∀ id state, .send id state ∈ effects → state = t.server.latest := by
  cases e with
  | store op =>
    cases h
    exact ⟨⟨timely.ordered, fun x member => Nat.lt_succ_of_lt (timely.past x member)⟩, le_rfl,
      by simp⟩
  | broadcast =>
    obtain ⟨next, moved, same⟩ := Option.map_eq_some_iff.mp h
    cases same
    obtain ⟨advances, past⟩ := step_server timely moved fun x comes => by cases comes; rfl
    exact ⟨⟨advances.ordered, past⟩, advances.rises, advances.sends⟩
  | server e' =>
    have other : ∀ x, e' ≠ .broadcast x := by
      rintro x rfl
      cases h
    have moves : (s.server.step e').map (fun next =>
        ((⟨s.store, next.1, s.now + 1⟩ : PushFeed), next.2)) = some (t, effects) := by
      cases e' with
      | broadcast x => exact absurd rfl (other x)
      | _ => exact h
    obtain ⟨next, moved, same⟩ := Option.map_eq_some_iff.mp moves
    cases same
    obtain ⟨advances, past⟩ := step_server timely moved fun x comes => absurd comes (other x)
    exact ⟨⟨advances.ordered, past⟩, advances.rises, advances.sends⟩

/-- **Subscribers never go back in time**: whatever reaches one of what it is sent, which comes in
the order of sending, has been captured in that order. -/
theorem subscriber_never_goes_back {store : DeviceState} {ms : Trace} {s : PushFeed}
    (run : Run step (start store) ms s) (id : Nat) {received : List Capture}
    (delivered : received.Sublist (sentTo id ms)) :
    received.Pairwise fun x y => x.moment ≤ y.moment := by
  have rising : (outputs ms).Pairwise fun x y : PushEffect Capture =>
      (match x with | .send _ state => state.moment) ≤
        match y with | .send _ state => state.moment := by
    refine run.outputs_rising Timely (fun s => s.server.latest.moment)
      (fun | .send _ state => state.moment) (timely_start store) ?_ ?_
    · exact fun _ _ _ _ timely h => (step_timely timely h).1
    · intro s e t os timely h
      obtain ⟨-, rises, sends⟩ := step_timely timely h
      refine ⟨rises, ?_⟩
      rintro ⟨client, state⟩ member
      rw [sends client state member]
  refine List.Pairwise.sublist delivered (rising.filterMap _ ?_)
  rintro ⟨client, state⟩ ⟨client', state'⟩ le x first y second
  simp only [Option.ite_none_right_eq_some, Option.some.injEq] at first second
  rw [← first.2, ← second.2]
  exact le

/-- Two snapshots wait for the lock, and a client that comes meanwhile begins with what is being
sent. -/
theorem subscriber_catches_up : ∃ ms s, Run step (start (.new 4 12 1)) ms s ∧
    (sentTo 0 ms).map Capture.moment = [0, 3, 5, 7] ∧
    (sentTo 1 ms).map Capture.moment = [3, 5, 7] ∧
    ∀ received : List Capture, received.Sublist (sentTo 1 ms) →
      received.Pairwise fun x y => x.moment ≤ y.moment := by
  have fed : (feed step (start (.new 4 12 1)) [.server .connect, .server (.greeted 0 .delivered),
      .broadcast, .store (.updateSettings [1]), .broadcast, .store .noteFailure, .broadcast,
      .server .connect, .server (.sent 0 .delivered), .server .broadcastDone,
      .server (.sent 1 .delivered), .server (.sent 0 .delivered), .server .broadcastDone]).any
      (fun r => (sentTo 0 r.2).map Capture.moment == [0, 3, 5, 7] &&
        (sentTo 1 r.2).map Capture.moment == [3, 5, 7]) = true := by
    decide +kernel
  obtain ⟨ms, s, run, -, tested⟩ := Runs.feed_reaches fed
  simp only [Bool.and_eq_true, beq_iff_eq] at tested
  exact ⟨ms, s, run, tested.1, tested.2, fun received delivered =>
    subscriber_never_goes_back run 1 delivered⟩

end PushFeed

end R60V
