import R60V.Lib.Runs

/-! The WebSocket push server: the set of clients, which the handlers and the broadcaster both
change. What is sent is left open; how a send ends, when a socket closes and when a client
talks is up to the events. -/
namespace R60V

open Runs (Run Move feed)

inductive SendOutcome where
  | delivered | closed | osError | timeout
  deriving DecidableEq

inductive HandlerPoint where
  | greeting | receiving | dispatching
  deriving DecidableEq

structure Sending where
  waiting : List Nat
  dead : List Nat

/-- `WsPushServer`. The connections are numbered in the order they arrive. -/
structure PushServer (σ : Type) where
  next : Nat
  handlers : List (Nat × HandlerPoint)
  -- The sockets that are open.
  opened : List Nat
  clients : List Nat
  latest : σ
  -- The broadcast under `_broadcast_lock`, and those that wait for the lock.
  sending : Option Sending
  queued : List σ

inductive PushEvent (σ : Type) where
  | connect
  | greeted (id : Nat) (outcome : SendOutcome)
  | inbound (id : Nat)
  | dispatched (id : Nat)
  | socketClosed (id : Nat)
  | leave (id : Nat)
  | broadcast (state : σ)
  | sent (id : Nat) (outcome : SendOutcome)
  | broadcastDone

inductive PushEffect (σ : Type) where
  | send (id : Nat) (state : σ)
  deriving DecidableEq

namespace PushServer

variable {σ : Type}

def start (latest : σ) : PushServer σ := ⟨0, [], [], [], latest, none, []⟩

def clientCount (s : PushServer σ) : Nat := s.clients.length

def discard (clients : List Nat) (id : Nat) : List Nat := clients.filter (· ≠ id)

def pointOf (s : PushServer σ) (id : Nat) : Option HandlerPoint :=
  (s.handlers.find? (·.1 == id)).map (·.2)

def moveHandler (s : PushServer σ) (id : Nat) (point : HandlerPoint) : PushServer σ :=
  { s with handlers := s.handlers.map fun h => if h.1 = id then (id, point) else h }

-- The `finally` of `_handler`; the library closes the socket of a handler that returns.
def endHandler (s : PushServer σ) (id : Nat) : PushServer σ :=
  { s with
    handlers := s.handlers.filter (·.1 ≠ id)
    opened := discard s.opened id
    clients := discard s.clients id }

def beginBroadcast (s : PushServer σ) (state : σ) : PushServer σ × List (PushEffect σ) :=
  if s.clients = [] then ({ s with latest := state }, [])
  else ({ s with latest := state, sending := some ⟨s.clients, []⟩ },
    s.clients.map fun id => .send id state)

/-- A broadcast that finds the lock free goes on with the next one that waits for it. -/
def takeLock (s : PushServer σ) : List σ → PushServer σ × List (PushEffect σ)
  | [] => ({ s with queued := [] }, [])
  | state :: rest =>
    if s.clients = [] then { s with latest := state }.takeLock rest
    else { s with queued := rest }.beginBroadcast state

/-- A send ends, and `_safe_send` keeps a client that it failed for. -/
def settle (sending : Sending) (id : Nat) (outcome : SendOutcome) : Sending :=
  ⟨sending.waiting.erase id,
    if outcome = .delivered then sending.dead else sending.dead ++ [id]⟩

def step (s : PushServer σ) : PushEvent σ → Option (PushServer σ × List (PushEffect σ))
  | .connect =>
    some ({ s with
      next := s.next + 1
      handlers := s.handlers ++ [(s.next, .greeting)]
      opened := s.opened ++ [s.next]
      clients := s.clients ++ [s.next] }, [.send s.next s.latest])
  | .greeted id outcome =>
    if s.pointOf id = some .greeting ∧ outcome ≠ .timeout then
      if outcome = .delivered then some (s.moveHandler id .receiving, [])
      else some (s.endHandler id, [])
    else none
  | .inbound id =>
    if s.pointOf id = some .receiving then some (s.moveHandler id .dispatching, []) else none
  | .dispatched id =>
    if s.pointOf id = some .dispatching then some (s.moveHandler id .receiving, []) else none
  | .socketClosed id => some ({ s with opened := discard s.opened id }, [])
  | .leave id =>
    if s.pointOf id = some .receiving ∧ id ∉ s.opened then some (s.endHandler id, []) else none
  | .broadcast state =>
    match s.sending with
    | none => some (s.beginBroadcast state)
    | some _ => some ({ s with queued := s.queued ++ [state] }, [])
  | .sent id outcome =>
    match s.sending with
    | some sending =>
      if id ∈ sending.waiting ∧ (outcome = .closed → id ∉ s.opened) then
        some ({ s with sending := some (settle sending id outcome) }, [])
      else none
    | none => none
  | .broadcastDone =>
    match s.sending with
    | some ⟨[], dead⟩ =>
      some ({ s with clients := dead.foldl discard s.clients, sending := none }.takeLock s.queued)
    | _ => none

-- The broadcast gives the lock back, with its `dead` clients let go.
def released (s : PushServer σ) (dead : List Nat) : PushServer σ :=
  { s with clients := dead.foldl discard s.clients, sending := none }

/-- What a step can do, with the guard that lets it. -/
inductive Stepped (s : PushServer σ) :
    PushEvent σ → PushServer σ → List (PushEffect σ) → Prop where
  | connected : Stepped s .connect
      { s with
        next := s.next + 1
        handlers := s.handlers ++ [(s.next, .greeting)]
        opened := s.opened ++ [s.next]
        clients := s.clients ++ [s.next] } [.send s.next s.latest]
  | greeted {id : Nat} (here : s.pointOf id = some .greeting) :
      Stepped s (.greeted id .delivered) (s.moveHandler id .receiving) []
  | refused {id : Nat} {outcome : SendOutcome} (here : s.pointOf id = some .greeting)
      (fails : outcome = .closed ∨ outcome = .osError) :
      Stepped s (.greeted id outcome) (s.endHandler id) []
  | inbound {id : Nat} (here : s.pointOf id = some .receiving) :
      Stepped s (.inbound id) (s.moveHandler id .dispatching) []
  | dispatched {id : Nat} (here : s.pointOf id = some .dispatching) :
      Stepped s (.dispatched id) (s.moveHandler id .receiving) []
  | socketClosed {id : Nat} :
      Stepped s (.socketClosed id) { s with opened := discard s.opened id } []
  | left {id : Nat} (here : s.pointOf id = some .receiving) (closed : id ∉ s.opened) :
      Stepped s (.leave id) (s.endHandler id) []
  | begins {state : σ} (free : s.sending = none) : Stepped s (.broadcast state)
      (s.beginBroadcast state).1 (s.beginBroadcast state).2
  | waits {state : σ} {sending : Sending} (busy : s.sending = some sending) :
      Stepped s (.broadcast state) { s with queued := s.queued ++ [state] } []
  | settled {id : Nat} {outcome : SendOutcome} {sending : Sending}
      (busy : s.sending = some sending) (waiting : id ∈ sending.waiting)
      (closed : outcome = .closed → id ∉ s.opened) :
      Stepped s (.sent id outcome) { s with sending := some (settle sending id outcome) } []
  | completed {dead : List Nat} (busy : s.sending = some ⟨[], dead⟩) : Stepped s .broadcastDone
      ((s.released dead).takeLock s.queued).1 ((s.released dead).takeLock s.queued).2

theorem step_stepped {s t : PushServer σ} {e : PushEvent σ} {effects : List (PushEffect σ)}
    (h : s.step e = some (t, effects)) : Stepped s e t effects := by
  cases e with
  | connect =>
    cases h
    exact .connected
  | greeted id outcome =>
    simp only [step] at h
    split at h
    · rename_i guard
      split at h
      · rename_i delivered
        cases h
        exact delivered ▸ .greeted guard.1
      · rename_i lost
        cases h
        refine .refused guard.1 ?_
        cases outcome <;> simp_all
    · cases h
  | inbound id =>
    simp only [step] at h
    split at h
    · rename_i here
      cases h
      exact .inbound here
    · cases h
  | dispatched id =>
    simp only [step] at h
    split at h
    · rename_i here
      cases h
      exact .dispatched here
    · cases h
  | socketClosed id =>
    cases h
    exact .socketClosed
  | leave id =>
    simp only [step] at h
    split at h
    · rename_i guard
      cases h
      exact .left guard.1 guard.2
    · cases h
  | broadcast state =>
    simp only [step] at h
    split at h
    · rename_i free
      obtain ⟨rfl, rfl⟩ := Prod.mk.inj (Option.some.inj h)
      exact .begins free
    · rename_i busy
      cases h
      exact .waits busy
  | sent id outcome =>
    simp only [step] at h
    split at h
    · rename_i busy
      split at h
      · rename_i guard
        cases h
        exact .settled busy guard.1 guard.2
      · cases h
    · cases h
  | broadcastDone =>
    simp only [step] at h
    split at h
    · rename_i busy
      obtain ⟨rfl, rfl⟩ := Prod.mk.inj (Option.some.inj h)
      exact .completed busy
    · cases h

def Connected (s : PushServer σ) (id : Nat) : Prop :=
  (∃ point, (id, point) ∈ s.handlers) ∧ id ∈ s.opened

def NobodyCutOff (s : PushServer σ) : Prop :=
  ∀ id, s.Connected id → id ∈ s.clients ∧
    ∀ state, .send id state ∈ (s.beginBroadcast state).2

/-- A broadcast that ends has no connected client on its `dead` list. -/
def DeadAreGone (s : PushServer σ) : PushEvent σ → Prop
  | .broadcastDone => ∀ sending, s.sending = some sending → ∀ id ∈ sending.dead,
    ¬ s.Connected id
  | _ => True

theorem mem_discard {clients : List Nat} {id x : Nat} :
    x ∈ discard clients id ↔ x ∈ clients ∧ x ≠ id := by
  simp [discard]

theorem mem_discard_all {dead clients : List Nat} {x : Nat} :
    x ∈ dead.foldl discard clients ↔ x ∈ clients ∧ x ∉ dead := by
  induction dead generalizing clients with
  | nil => simp
  | cons id dead ih =>
    rw [List.foldl_cons, ih, mem_discard, List.mem_cons, not_or, and_assoc]

theorem nobodyCutOff_iff (s : PushServer σ) :
    s.NobodyCutOff ↔ ∀ id, s.Connected id → id ∈ s.clients := by
  constructor
  · exact fun h id connected => (h id connected).1
  · intro h id connected
    have member := h id connected
    refine ⟨member, fun state => ?_⟩
    have some_ : s.clients ≠ [] := List.ne_nil_of_mem member
    rw [beginBroadcast, if_neg some_]
    exact List.mem_map.mpr ⟨id, member, rfl⟩

theorem beginBroadcast_frame (s : PushServer σ) (state : σ) :
    (s.beginBroadcast state).1.handlers = s.handlers ∧
    (s.beginBroadcast state).1.opened = s.opened ∧
    (s.beginBroadcast state).1.clients = s.clients := by
  unfold beginBroadcast
  split <;> exact ⟨rfl, rfl, rfl⟩

theorem takeLock_frame (s : PushServer σ) (states : List σ) :
    (s.takeLock states).1.handlers = s.handlers ∧ (s.takeLock states).1.opened = s.opened ∧
    (s.takeLock states).1.clients = s.clients := by
  induction states generalizing s with
  | nil => exact ⟨rfl, rfl, rfl⟩
  | cons state rest ih =>
    rw [takeLock]
    split
    · exact ih { s with latest := state }
    · exact beginBroadcast_frame { s with queued := rest } state

theorem connected_moveHandler {s : PushServer σ} {id x : Nat} {point : HandlerPoint}
    (h : (s.moveHandler id point).Connected x) : s.Connected x := by
  obtain ⟨⟨at_, member⟩, opened⟩ := h
  refine ⟨?_, opened⟩
  obtain ⟨⟨y, was⟩, old, moved⟩ := List.mem_map.mp member
  split at moved
  · rename_i same
    cases moved
    exact ⟨was, by rw [← same]; exact old⟩
  · cases moved
    exact ⟨at_, old⟩

theorem connected_endHandler {s : PushServer σ} {id x : Nat}
    (h : (s.endHandler id).Connected x) : s.Connected x ∧ x ≠ id := by
  obtain ⟨⟨at_, member⟩, opened⟩ := h
  obtain ⟨old, other⟩ := List.mem_filter.mp member
  exact ⟨⟨⟨at_, old⟩, (mem_discard.mp opened).1⟩, by simpa using other⟩

variable {s t : PushServer σ} {e : PushEvent σ} {effects : List (PushEffect σ)}

def Counted (s : PushServer σ) : Prop := ∀ id, s.Connected id → id ∈ s.clients

theorem Counted.endHandler (counted : s.Counted) (id : Nat) : (s.endHandler id).Counted := by
  intro x connected
  obtain ⟨before, other⟩ := connected_endHandler connected
  exact mem_discard.mpr ⟨counted x before, other⟩

theorem Counted.connected (counted : s.Counted) (h : s.step .connect = some (t, effects)) :
    t.Counted := by
  cases h
  rintro x ⟨⟨point, member⟩, opened⟩
  rcases List.mem_append.mp opened with old | new
  · rcases List.mem_append.mp member with running | fresh
    · exact List.mem_append_left _ (counted x ⟨⟨point, running⟩, old⟩)
    · cases List.mem_singleton.mp fresh
      exact List.mem_append_right _ (List.mem_singleton_self _)
  · exact List.mem_append_right _ new

theorem step_counted (counted : s.Counted) (h : s.step e = some (t, effects)) :
    t.Counted ↔ s.DeadAreGone e := by
  cases step_stepped h with
  | connected => exact iff_of_true (counted.connected h) trivial
  | greeted | inbound | dispatched =>
    exact iff_of_true (fun x connected => counted x (connected_moveHandler connected)) trivial
  | refused | left => exact iff_of_true (counted.endHandler _) trivial
  | socketClosed =>
    refine iff_of_true ?_ trivial
    rintro x ⟨running, opened⟩
    exact counted x ⟨running, (mem_discard.mp opened).1⟩
  | @begins state _ =>
    obtain ⟨handlers, opened, clients⟩ := s.beginBroadcast_frame state
    refine iff_of_true ?_ trivial
    unfold Counted Connected
    rwa [handlers, opened, clients]
  | waits | settled => exact iff_of_true counted trivial
  | @completed dead busy =>
    obtain ⟨handlers, opened, clients⟩ := takeLock_frame (s.released dead) s.queued
    have kept : ∀ id, id ∈ ((s.released dead).takeLock s.queued).1.clients ↔
        id ∈ s.clients ∧ id ∉ dead := by
      intro id
      rw [clients]
      exact mem_discard_all
    have running : ((s.released dead).takeLock s.queued).1.handlers = s.handlers := handlers
    have open_ : ((s.released dead).takeLock s.queued).1.opened = s.opened := opened
    simp only [Counted, Connected, running, open_, kept, DeadAreGone, busy, Option.some.injEq,
      forall_eq']
    exact ⟨fun after id cut connected => (after id connected).2 cut,
      fun gone id connected => ⟨counted id connected, fun cut => gone id cut connected⟩⟩

/-- **No subscriber is silently cut off**, all along a run, exactly when no broadcast ends with a
client on its `dead` list whose handler still runs on an open socket. -/
theorem nobody_cut_off_iff {latest : σ}
    {ms : List (Move (PushServer σ) (PushEvent σ) (PushEffect σ))} {s : PushServer σ}
    (run : Run step (start latest) ms s) :
    (∀ m ∈ ms, m.after.NobodyCutOff) ↔ ∀ m ∈ ms, m.before.DeadAreGone m.event := by
  simp only [nobodyCutOff_iff]
  exact run.states_iff (fun _ => True) Counted Counted DeadAreGone trivial
    (fun id ⟨⟨_, none_⟩, _⟩ => by cases none_) (fun _ => id) (fun _ _ _ _ _ _ => trivial)
    (fun _ _ _ _ _ counted h => (step_counted counted h).mpr)
    (fun _ _ _ _ _ counted h => (step_counted counted h).mp)

theorem slow_client_cut_off :
    ¬ ∀ (ms : List (Move (PushServer Nat) (PushEvent Nat) (PushEffect Nat))) (s : PushServer Nat),
      Run step (start 0) ms s → ∀ id, s.Connected id → id ∈ s.clients := by
  intro all
  have fed : (feed step (start 0) [.connect, .greeted 0 .delivered, .broadcast 1,
      .sent 0 .timeout, .broadcastDone]).any (fun r => r.1.handlers == [(0, .receiving)] &&
        r.1.opened == [0] && r.1.clients == []) = true := by
    decide
  obtain ⟨ms, s, run, _, reached⟩ := Runs.feed_reaches fed
  simp only [Bool.and_eq_true, beq_iff_eq] at reached
  obtain ⟨⟨running, opened⟩, clients⟩ := reached
  have claimed := all ms s run 0 ⟨⟨.receiving, by simp [running]⟩, by simp [opened]⟩
  rw [clients] at claimed
  cases claimed

theorem nobody_cut_off_by_hang_up :
    ∃ ms s, Run step (start 0) ms s ∧ s.clients = [1] ∧ ∀ m ∈ ms, m.after.NobodyCutOff := by
  have fed : (feed step (start 0) [.connect, .connect, .greeted 0 .delivered,
      .greeted 1 .delivered, .broadcast 1, .socketClosed 0, .sent 0 .closed, .sent 1 .delivered,
      .broadcastDone]).any (fun r => r.1.clients == [1] && r.2.all fun m =>
        m.before.sending.all fun sending =>
          sending.dead.all fun id => m.before.opened.all (· ≠ id)) = true := by
    decide
  obtain ⟨ms, s, run, _, reached⟩ := Runs.feed_reaches fed
  simp only [Bool.and_eq_true, beq_iff_eq, List.all_eq_true] at reached
  refine ⟨ms, s, run, reached.1, (nobody_cut_off_iff run).mpr fun m member => ?_⟩
  have gone := reached.2 m member
  unfold DeadAreGone
  split
  · intro sending is id dead connected
    rw [is, Option.all_some] at gone
    have apart := List.all_eq_true.mp (List.all_eq_true.mp gone id dead) id connected.2
    simp at apart
  · trivial

end PushServer

end R60V
