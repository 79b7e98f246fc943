import R60V.Bridge.Peer

/-! The LAN clients, their handlers, the governor and the client, in front of a machine that answers
at once. Requests are served one after the other, in the order in which the governor begins them. -/
namespace R60V

open Python (Text decodeAscii)
open Runs (Run Move outputs)

/-- A LAN client and the handler of its connection. -/
structure Caller where
  handler : Handler
  -- What the client has sent and has not arrived.
  wire : List UInt8
  -- The submission that the handler awaits.
  ticket : Option Nat

structure Serving where
  callers : List Caller
  upstream : Upstream
  peer : Peer

inductive ServingEvent where
  | connect
  | send (i : Nat) (raw : Text)
  | arrive (i count : Nat)
  | handle (i : Nat) (e : HandlerEvent)
  | resolve (i : Nat)
  -- The worker and the client; the time is that of the machine.
  | work (e : UpstreamEvent) (now : List Int)

inductive ServingEffect where
  | sent (i : Nat) (raw : Text)
  | handled (i : Nat) (effect : HandlerEffect)
  | upstream (effect : UpstreamEffect)

def Caller.fresh : Caller := ⟨.start, [], none⟩

def encodeAscii (text : Text) : List UInt8 := text.map fun c => c.toNat.toUInt8

-- The default priorities of `governor.read` and `governor.write`.
def Call.priority : Call → Int
  | .read _ _ => priorityPoll
  | .write _ _ => priorityCommand

/-- What `_dispatch` gets from the governor. -/
def returned : Outcome → Except Exc (List Int)
  | .ok (.data data) => .ok data
  | .ok (.ack _) => .ok []
  | .error e => .error e

/-- The steps of a handler that are nobody else's. -/
def HandlerEvent.own : HandlerEvent → Bool
  | .read | .lost | .endOfStream | .drained _ => true
  | .arrive _ | .answered _ => false

def Peer.after (now : List Int) (p : Peer) : UpstreamEffect → Peer
  | .act act => p.hear now act
  | .governed _ | .opened _ | .broke _ => p

namespace Serving

def start (m : MachineModel) : Serving := ⟨[], .start, m, []⟩

/-- What the worker and the client do of themselves; what they await, the machine answers. -/
def forced (s : Serving) : UpstreamEvent → Option Peer
  | .take | .throttled | .acquire _ => some s.peer
  | .resume i a =>
    match s.upstream.calls[i]? with
    | some ⟨_, .holding r⟩ =>
      match s.peer.answer r with
      | some (a', peer) => if a = a' then some peer else none
      | none => none
    | _ => none
  | .submit _ _ | .cancel _ | .closeLink | .lost => none

/-- A handler has done something; what it submits goes to the governor. -/
def handled (cfg : ClientConfig) (s : Serving) (i : Nat) (c : Caller) :
    List HandlerEffect → Option (Serving × List ServingEffect)
  | [.submit raw op] =>
    (s.upstream.step cfg (.submit op.priority op)).map fun next =>
      ({ s with
        callers := s.callers.set i { c with ticket := some s.upstream.governor.counter }
        upstream := next.1 }, .handled i (.submit raw op) :: next.2.map .upstream)
  | effects => some ({ s with callers := s.callers.set i c }, effects.map (.handled i))

def step (cfg : ClientConfig) (s : Serving) :
    ServingEvent → Option (Serving × List ServingEffect)
  | .connect => some ({ s with callers := s.callers ++ [.fresh] }, [])
  | .send i raw => s.callers[i]?.map fun c =>
      ({ s with callers := s.callers.set i { c with wire := c.wire ++ encodeAscii raw } },
        [.sent i raw])
  | .arrive i count => s.callers[i]?.bind fun c =>
      (c.handler.step (.arrive (c.wire.take count))).bind fun next =>
        s.handled cfg i { c with handler := next.1, wire := c.wire.drop count } next.2
  | .handle i e => s.callers[i]?.bind fun c =>
      if e.own then
        (c.handler.step e).bind fun next => s.handled cfg i { c with handler := next.1 } next.2
      else none
  | .resolve i => s.callers[i]?.bind fun c =>
      match c.ticket.bind fun seq => s.upstream.governor.futures[seq]? with
      | some (.resolved outcome) =>
        (c.handler.step (.answered (returned outcome))).bind fun next =>
          s.handled cfg i { c with handler := next.1, ticket := none } next.2
      | _ => none
  | .work e now => (s.forced e).bind fun peer =>
      (s.upstream.step cfg e).map fun next =>
        ({ s with upstream := next.1, peer := next.2.foldl (Peer.after now) peer },
          next.2.map .upstream)

/-- What a step can do, with the guard that lets it. -/
inductive Stepped (cfg : ClientConfig) (s : Serving) :
    ServingEvent → Serving → List ServingEffect → Prop where
  | connected : Stepped cfg s .connect { s with callers := s.callers ++ [.fresh] } []
  | sent {i : Nat} {c : Caller} {raw : Text} (here : s.callers[i]? = some c) :
      Stepped cfg s (.send i raw)
        { s with callers := s.callers.set i { c with wire := c.wire ++ encodeAscii raw } }
        [.sent i raw]
  | handled {e : ServingEvent} {i : Nat} {c : Caller} {he : HandlerEvent} {handler : Handler}
      {wire : List UInt8} (here : s.callers[i]? = some c)
      (h : c.handler.step he = some (handler, [])) (own : ∀ result, he ≠ .answered result)
      (text : he.arrived ++ decodeAscii wire = decodeAscii c.wire)
      (quiet : ∀ i raw, e ≠ .send i raw) : Stepped cfg s e
        { s with callers := s.callers.set i { c with handler := handler, wire := wire } } []
  | submitted {i : Nat} {c : Caller} {raw : Text} {op : Call} {handler : Handler}
      {next : Upstream × List UpstreamEffect} (here : s.callers[i]? = some c)
      (h : c.handler.step .read = some (handler, [.submit raw op]))
      (up : s.upstream.step cfg (.submit op.priority op) = some next) :
      Stepped cfg s (.handle i .read)
        { s with
          callers := s.callers.set i
            { c with handler := handler, ticket := some s.upstream.governor.counter }
          upstream := next.1 } (.handled i (.submit raw op) :: next.2.map .upstream)
  | resolved {i : Nat} {c : Caller} {seq : Nat} {outcome : Outcome} {handler : Handler}
      {effects : List HandlerEffect} (here : s.callers[i]? = some c) (ticket : c.ticket = some seq)
      (future : s.upstream.governor.futures[seq]? = some (.resolved outcome))
      (h : c.handler.step (.answered (returned outcome)) = some (handler, effects)) :
      Stepped cfg s (.resolve i)
        { s with callers := s.callers.set i { c with handler := handler, ticket := none } }
        (effects.map (.handled i))
  | worked {e : UpstreamEvent} {now : List Int} {peer : Peer}
      {next : Upstream × List UpstreamEffect} (forced : s.forced e = some peer)
      (up : s.upstream.step cfg e = some next) :
      Stepped cfg s (.work e now)
        { s with upstream := next.1, peer := next.2.foldl (Peer.after now) peer }
        (next.2.map .upstream)

variable {cfg : ClientConfig} {s t : Serving} {e : ServingEvent} {effects : List ServingEffect}

theorem handler_effects {h h' : Handler} {he : HandlerEvent} {effects : List HandlerEffect}
    (step : h.step he = some (h', effects)) :
    effects = [] ∨ (he = .read ∧ ∃ raw op, effects = [.submit raw op]) ∨
      ∃ result text, he = .answered result ∧ effects = [.reply text] := by
  cases Handler.step_stepped step with
  | submit _ _ _ => exact Or.inr (Or.inl ⟨rfl, _, _, rfl⟩)
  | replied _ => exact Or.inr (Or.inr ⟨_, _, rfl, rfl⟩)
  -- Nothing else has effects.
  | _ => exact Or.inl rfl

theorem step_stepped (h : s.step cfg e = some (t, effects)) : Stepped cfg s e t effects := by
  cases e with
  | connect =>
    cases h
    exact .connected
  | send i raw =>
    obtain ⟨c, here, same⟩ := Option.map_eq_some_iff.mp h
    cases same
    exact .sent here
  | arrive i count =>
    obtain ⟨c, here, h⟩ := Option.bind_eq_some_iff.mp h
    obtain ⟨⟨handler, acts⟩, step, h⟩ := Option.bind_eq_some_iff.mp h
    have text : decodeAscii (c.wire.take count) ++ decodeAscii (c.wire.drop count) =
        decodeAscii c.wire := by
      rw [decodeAscii, decodeAscii, ← List.map_append, List.take_append_drop]
      rfl
    rcases handler_effects step with rfl | ⟨⟨⟩, _⟩ | ⟨_, _, ⟨⟩, _⟩
    cases h
    exact .handled here step nofun text nofun
  | handle i e =>
    obtain ⟨c, here, h⟩ := Option.bind_eq_some_iff.mp h
    split at h
    · rename_i own
      obtain ⟨⟨handler, acts⟩, step, h⟩ := Option.bind_eq_some_iff.mp h
      have quiet : e.arrived = [] := by cases e <;> first | rfl | cases own
      have other : ∀ result, e ≠ .answered result := by
        rintro result rfl
        cases own
      rcases handler_effects step with rfl | ⟨rfl, raw, op, rfl⟩ | ⟨result, text, rfl, rfl⟩
      · cases h
        exact .handled here step other (by rw [quiet, List.nil_append]) nofun
      · simp only [Serving.handled] at h
        obtain ⟨next, up, same⟩ := Option.map_eq_some_iff.mp h
        cases same
        exact .submitted here step up
      · exact absurd rfl (other result)
    · cases h
  | resolve i =>
    obtain ⟨c, here, h⟩ := Option.bind_eq_some_iff.mp h
    split at h
    · rename_i outcome future
      obtain ⟨seq, ticket, future⟩ := Option.bind_eq_some_iff.mp future
      obtain ⟨⟨handler, acts⟩, step, h⟩ := Option.bind_eq_some_iff.mp h
      rcases handler_effects step with rfl | ⟨⟨⟩, _⟩ | ⟨result, text, same, rfl⟩
      · cases h
        exact .resolved here ticket future step
      · cases h
        exact .resolved here ticket future step
    · cases h
  | work e now =>
    obtain ⟨peer, forced, h⟩ := Option.bind_eq_some_iff.mp h
    obtain ⟨next, up, same⟩ := Option.map_eq_some_iff.mp h
    cases same
    exact .worked forced up

@[simp] def upstreamEffect : ServingEffect → Option UpstreamEffect
  | .upstream effect => some effect
  | .sent _ _ | .handled _ _ => none

@[simp] def governedEffect : ServingEffect → Option GovernorEffect
  | .upstream (.governed effect) => some effect
  | .upstream _ | .sent _ _ | .handled _ _ => none

theorem upstreamEffect_upstream (effects : List UpstreamEffect) :
    (effects.map ServingEffect.upstream).filterMap upstreamEffect = effects := by
  rw [List.filterMap_map]
  exact List.filterMap_some

theorem governedEffect_upstream (effects : List UpstreamEffect) :
    (effects.map ServingEffect.upstream).filterMap governedEffect =
      effects.filterMap Upstream.governedEffect := by
  rw [List.filterMap_map]
  apply List.filterMap_congr
  intro effect _
  cases effect <;> rfl

theorem upstreamEffect_handled (i : Nat) (effects : List HandlerEffect) :
    (effects.map (ServingEffect.handled i)).filterMap upstreamEffect = [] :=
  Runs.filterMap_silent (fun _ => rfl) effects

theorem forced_event {e : UpstreamEvent} {peer : Peer} (forced : s.forced e = some peer)
    (seq : Nat) : e ≠ .cancel seq := by
  rintro rfl
  cases forced

/-- What a step is to the way upstream: nothing, or one step of its own, which cancels nothing. -/
theorem step_upstream (h : s.step cfg e = some (t, effects)) :
    (t.upstream = s.upstream ∧ effects.filterMap upstreamEffect = []) ∨
      ∃ ue, (∀ seq, ue ≠ .cancel seq) ∧
        s.upstream.step cfg ue = some (t.upstream, effects.filterMap upstreamEffect) := by
  cases step_stepped h with
  | connected | sent _ | handled _ _ _ _ _ => exact Or.inl ⟨rfl, rfl⟩
  | @submitted i c raw op handler next here h up =>
    refine Or.inr ⟨.submit op.priority op, nofun, ?_⟩
    rw [List.filterMap_cons, upstreamEffect, upstreamEffect_upstream]
    exact up
  | resolved _ _ _ _ => exact Or.inl ⟨rfl, upstreamEffect_handled _ _⟩
  | worked forced up =>
    refine Or.inr ⟨_, forced_event forced, ?_⟩
    rw [upstreamEffect_upstream]
    exact up

theorem governed_upstream (effects : List ServingEffect) :
    (effects.filterMap upstreamEffect).filterMap Upstream.governedEffect =
      effects.filterMap governedEffect := by
  rw [List.filterMap_filterMap]
  apply List.filterMap_congr
  intro effect _
  match effect with
  | .upstream (.governed _) | .upstream (.act _) | .upstream (.opened _) | .upstream (.broke _)
  | .sent _ _ | .handled _ _ => rfl

end Serving

end R60V
