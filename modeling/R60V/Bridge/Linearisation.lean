import R60V.Bridge.Serving

/-! One order of all the requests of all the clients: the order in which the governor begins them.
Executed on the memory in that order, they give the replies that the clients get. -/
namespace R60V

open Python (Text decodeAscii)
open Protocol (parseFrame)
open Runs (Run Move outputs forall_snoc)

namespace Serving

@[simp] def sentBy (i : Nat) : ServingEffect → Option Text
  | .sent j raw => if j = i then some raw else none
  | .handled _ _ | .upstream _ => none

@[simp] def asks : ServingEffect → Option (Nat × Text × Call)
  | .handled i (.submit raw op) => some (i, raw, op)
  | .handled _ (.reply _) | .sent _ _ | .upstream _ => none

@[simp] def repliedTo (i : Nat) : ServingEffect → Option Text
  | .handled j (.reply text) => if j = i then some text else none
  | .handled _ (.submit _ _) | .sent _ _ | .upstream _ => none

/-- What a client has sent, what has been submitted in all, and what a client has been replied. -/
def sent (i : Nat) (es : List ServingEffect) : List Text := es.filterMap (sentBy i)
def asked (es : List ServingEffect) : List (Nat × Text × Call) := es.filterMap asks
def replies (i : Nat) (es : List ServingEffect) : List Text := es.filterMap (repliedTo i)

def governed (es : List ServingEffect) : List GovernorEffect := es.filterMap governedEffect
def jobs (es : List ServingEffect) : List Job :=
  (governed es).filterMap GovernorEffect.submittedJob
def begun (es : List ServingEffect) : List Job := (governed es).filterMap GovernorEffect.begunJob

def ofClient {α : Type} (i : Nat) (xs : List (Nat × α)) : List α :=
  xs.filterMap fun x => if x.1 = i then some x.2 else none

/-- The requests in the order in which the governor has begun them, each with its client. -/
def order (es : List ServingEffect) : List (Nat × Text) :=
  (begun es).filterMap fun job => (asked es)[job.seq]?.map fun a => (a.1, a.2.1)

/-- One request executed on the memory alone. -/
def execute (done : MachineModel × List (Nat × Text)) (r : Nat × Text) :
    MachineModel × List (Nat × Text) :=
  match Emulator.process done.1 [] r.2 with
  | (m, .ok (some reply)) => (m, done.2 ++ [(r.1, reply)])
  | (m, _) => (m, done.2)

/-- One request after the other. -/
def replay (m : MachineModel) (requests : List (Nat × Text)) :
    MachineModel × List (Nat × Text) :=
  requests.foldl execute (m, [])

/-- The clients see one sequential conversation. -/
structure Linearised (m : MachineModel) (es : List ServingEffect) (s : Serving) : Prop where
  -- The order is that of the governor, and consistent with each client's own.
  executed : List.Forall₂ (fun job r => Asks r.2 job.op) (begun es) (order es)
  consistent : ∀ i, ofClient i (order es) <+: sent i es
  -- What a client is replied is what the memory replies; nothing is missing when nothing is owed.
  replied : ∀ i, replies i es <+: ofClient i (replay m (order es)).2
  settled : ∀ i c, s.callers[i]? = some c → (∀ raw f, c.handler.phase ≠ .awaiting raw f) →
    replies i es = ofClient i (replay m (order es)).2
  -- A handler that has read all that its client has sent has had all of it executed.
  complete : ∀ i c, s.callers[i]? = some c → c.handler.phase = .reading → c.handler.buffer = [] →
    c.wire = [] → ofClient i (order es) = sent i es
  -- No connection is closed but by its client.
  served : ∀ c ∈ s.callers, ∀ how, c.handler.phase = .closed how → how = .lost ∨ how = .endOfStream

section Effects

variable (i : Nat) (es more : List ServingEffect) (ups : List UpstreamEffect)

@[simp] theorem sent_append : sent i (es ++ more) = sent i es ++ sent i more :=
  List.filterMap_append

@[simp] theorem asked_append : asked (es ++ more) = asked es ++ asked more :=
  List.filterMap_append

@[simp] theorem replies_append : replies i (es ++ more) = replies i es ++ replies i more :=
  List.filterMap_append

@[simp] theorem jobs_append : jobs (es ++ more) = jobs es ++ jobs more := by
  simp [jobs, governed]

@[simp] theorem begun_append : begun (es ++ more) = begun es ++ begun more := by
  simp [begun, governed]

@[simp] theorem sent_upstream : sent i (ups.map .upstream) = [] :=
  Runs.filterMap_silent (fun _ => rfl) ups

@[simp] theorem asked_upstream : asked (ups.map .upstream) = [] :=
  Runs.filterMap_silent (fun _ => rfl) ups

@[simp] theorem replies_upstream : replies i (ups.map .upstream) = [] :=
  Runs.filterMap_silent (fun _ => rfl) ups

@[simp] theorem jobs_upstream : jobs (ups.map .upstream) =
    (ups.filterMap Upstream.governedEffect).filterMap GovernorEffect.submittedJob := by
  rw [jobs, governed, governedEffect_upstream]

@[simp] theorem begun_upstream : begun (ups.map .upstream) =
    (ups.filterMap Upstream.governedEffect).filterMap GovernorEffect.begunJob := by
  rw [begun, governed, governedEffect_upstream]

@[simp] theorem ofClient_append {α : Type} (xs ys : List (Nat × α)) :
    ofClient i (xs ++ ys) = ofClient i xs ++ ofClient i ys := List.filterMap_append

theorem mem_ofClient {α : Type} {i : Nat} {xs : List (Nat × α)} {x : α} :
    x ∈ ofClient i xs ↔ (i, x) ∈ xs := by
  simp only [ofClient, List.mem_filterMap]
  constructor
  · rintro ⟨⟨j, y⟩, member, same⟩
    split at same
    · rename_i here
      cases same
      exact here ▸ member
    · cases same
  · intro member
    exact ⟨(i, x), member, by simp⟩

end Effects

/-- The client with a number; one that has not connected has done nothing. -/
def caller (s : Serving) (i : Nat) : Caller := s.callers[i]?.getD .fresh

theorem caller_of {s : Serving} {i : Nat} {c : Caller} (here : s.callers[i]? = some c) :
    s.caller i = c := by simp [caller, here]

theorem caller_set {s : Serving} {i : Nat} {c : Caller} (here : s.callers[i]? = some c)
    (c' : Caller) (upstream : Upstream) (peer : Peer) (j : Nat) :
    (⟨s.callers.set i c', upstream, peer⟩ : Serving).caller j =
      if j = i then c' else s.caller j := by
  have inside := (List.getElem?_eq_some_iff.mp here).1
  unfold caller
  by_cases same : j = i
  · subst same
    simp [inside]
  · rw [if_neg same, List.getElem?_set_ne (Ne.symm same)]

theorem caller_connect (s : Serving) (j : Nat) :
    ({ s with callers := s.callers ++ [.fresh] } : Serving).caller j = s.caller j := by
  unfold caller
  rcases Nat.lt_trichotomy j s.callers.length with inside | rfl | beyond
  · rw [List.getElem?_append_left inside]
  · simp
  · rw [List.getElem?_eq_none (by simp; omega), List.getElem?_eq_none (by omega)]

/-- What the governor and the way upstream are known to keep. -/
structure Below (es : List ServingEffect) (s : Serving) : Prop where
  numbers : (jobs es).map Job.seq = List.range s.upstream.governor.counter
  begun_jobs : ∀ job ∈ begun es, job ∈ jobs es
  throttled : ∀ job, s.upstream.governor.worker = .throttling job →
    job ∈ jobs es ∧ ∀ other ∈ begun es, other.seq ≠ job.seq
  executing : ∀ job, s.upstream.governor.worker = .executing job → job ∈ begun es
  resolved : ∀ seq outcome, s.upstream.governor.futures[seq]? = some (.resolved outcome) →
    ∃ job ∈ begun es, job.seq = seq
  pending : ∀ job, s.upstream.governor.worker = .executing job →
    s.upstream.governor.futures[job.seq]? = some .pending
  working : s.upstream.calls.map Pending.job = s.upstream.governor.worker.executed.toList

variable {cfg : ClientConfig} {m : MachineModel} {s t : Serving} {e : ServingEvent}
  {effects es : List ServingEffect} {ms : List (Move Serving ServingEvent ServingEffect)}

theorem run_below (run : Run (step cfg) (start m) ms s) : Below (outputs ms) s := by
  have upstream : ∃ ums, Run (Upstream.step cfg) .start ums s.upstream ∧
      outputs ums = (outputs ms).filterMap upstreamEffect ∧ ∀ um ∈ ums, True :=
    run.project Serving.upstream upstreamEffect (fun _ => True) rfl fun s e t os h =>
      (step_upstream h).imp_right fun ⟨ue, _, step⟩ => ⟨ue, trivial, step⟩
  have governor : ∃ gms, Run Governor.step .start gms s.upstream.governor ∧
      outputs gms = governed (outputs ms) ∧ ∀ gm ∈ gms, ∀ seq, gm.event ≠ .cancel seq := by
    refine run.project (fun s => s.upstream.governor) governedEffect
      (fun e => ∀ seq, e ≠ GovernorEvent.cancel seq) rfl fun s e t os h => ?_
    rcases step_upstream h with ⟨idle, quiet⟩ | ⟨ue, other, step⟩
    · refine Or.inl ⟨by rw [idle], ?_⟩
      rw [← governed_upstream, quiet]
      rfl
    · rw [← governed_upstream]
      refine (Upstream.step_governed step).imp_right fun ⟨ge, same, step⟩ => ⟨ge, ?_, step⟩
      rintro seq rfl
      exact other seq (same seq rfl)
  obtain ⟨ums, upRun, -, -⟩ := upstream
  obtain ⟨gms, govRun, same, uncancelled⟩ := governor
  have kept := Governor.run_kept govRun
  have jobs_eq : Governor.submitted gms = jobs (outputs ms) := congrArg _ same
  have begun_eq : Governor.begun gms = begun (outputs ms) := congrArg _ same
  exact
    { numbers := jobs_eq ▸ kept.placed.numbers
      begun_jobs := jobs_eq ▸ begun_eq ▸ fun _ => kept.placed.begun_submitted
      throttled := jobs_eq ▸ begun_eq ▸ fun _ => kept.placed.throttled
      executing := begun_eq ▸ fun _ => kept.placed.executing
      resolved := begun_eq ▸ fun _ _ => kept.resolved_begun
      pending := fun _ => kept.pending uncancelled
      working := (Upstream.run_sound upRun).working }

/-- The handler has served a part of what its client has sent. -/
def Heard (es : List ServingEffect) (i : Nat) (c : Caller) : Prop :=
  ∃ hms, Run Handler.step .start hms c.handler ∧ Handler.Sound hms c.handler ∧
    Handler.submissions hms = ofClient i (asked es) ∧
    (sent i es).flatten = Handler.received hms ++ decodeAscii c.wire

def answers (m : MachineModel) (i : Nat) (es : List ServingEffect) : List Text :=
  ofClient i (replay m (order es)).2

/-- The operation of a ticket is executed, or has been; the reply will be, or is, this text. -/
inductive Underway (m : MachineModel) (es : List ServingEffect) (s : Serving) (i seq : Nat)
    (f : Protocol.Frame) (text : Text) : Prop where
  | running {job : Job} (runs : s.upstream.governor.worker = .executing job) (own : job.seq = seq)
      (last : (replay m (order es)).2.getLast? = some (i, text))
  | done {outcome : Outcome} {data : List Int}
      (future : s.upstream.governor.futures[seq]? = some (.resolved outcome))
      (ok : returned outcome = .ok data) (same : text = replyTo f data)

/-- A request that is awaited waits to be begun, or is the last of its client's that has been. -/
inductive Standing (m : MachineModel) (es : List ServingEffect) (s : Serving) (i seq : Nat)
    (raw : Text) (f : Protocol.Frame) : Prop where
  | queued (unbegun : ∀ job ∈ begun es, job.seq ≠ seq) (replied : answers m i es = replies i es)
      (requests : ofClient i (order es) ++ [raw] = (ofClient i (asked es)).map Prod.fst)
  | begun {text : Text} (replied : answers m i es = replies i es ++ [text])
      (requests : ofClient i (order es) = (ofClient i (asked es)).map Prod.fst)
      (underway : Underway m es s i seq f text)

structure CallerKept (m : MachineModel) (es : List ServingEffect) (s : Serving) (i : Nat)
    (c : Caller) : Prop where
  heard : Heard es i c
  free : (∀ raw f, c.handler.phase ≠ .awaiting raw f) → answers m i es = replies i es ∧
    ofClient i (order es) = (ofClient i (asked es)).map Prod.fst
  awaits : ∀ raw f, c.handler.phase = .awaiting raw f → ∃ seq, c.ticket = some seq ∧
    (asked es)[seq]? = some (i, raw, opOf f) ∧ Standing m es s i seq raw f
  closed : ∀ how, c.handler.phase = .closed how → how = .lost ∨ how = .endOfStream

/-- A step that leaves what is owed to a client as it is. -/
structure Unseen (m : MachineModel) (es es' : List ServingEffect) (s t : Serving) (j : Nat) :
    Prop where
  numbered : ∀ (seq : Nat) a, (asked es)[seq]? = some a → (asked es')[seq]? = some a
  own : ofClient j (asked es') = ofClient j (asked es)
  got : replies j es' = replies j es
  due : answers m j es' = answers m j es
  turn : ofClient j (order es') = ofClient j (order es)
  others : ∀ job ∈ begun es', job ∈ begun es ∨
    ∃ a, (asked es)[job.seq]? = some a ∧ a.1 ≠ j
  underway : ∀ (seq : Nat) raw f text, (asked es)[seq]? = some (j, raw, opOf f) →
    parseFrame true raw = .ok f → Asks raw (opOf f) → Underway m es s j seq f text →
    Underway m es' t j seq f text

theorem CallerKept.frame {es' : List ServingEffect} {j : Nat} {c c' : Caller}
    (kept : CallerKept m es s j c) (unseen : Unseen m es es' s t j) (heard : Heard es' j c')
    (phase : ∀ raw f, c'.handler.phase = .awaiting raw f ↔ c.handler.phase = .awaiting raw f)
    (ticket : c'.ticket = c.ticket)
    (closed : ∀ how, c'.handler.phase = .closed how → how = .lost ∨ how = .endOfStream) :
    CallerKept m es' t j c' := by
  obtain ⟨hms, -, sound, -, -⟩ := kept.heard
  refine ⟨heard, ?_, ?_, closed⟩
  · intro free
    rw [unseen.due, unseen.turn, unseen.own, unseen.got]
    exact kept.free fun raw f awaiting => free raw f ((phase raw f).mpr awaiting)
  · intro raw f awaiting
    have awaiting := (phase raw f).mp awaiting
    obtain ⟨-, parsed, asks⟩ := sound.waiting raw f awaiting
    obtain ⟨seq, same, mine, standing⟩ := kept.awaits raw f awaiting
    refine ⟨seq, ticket.trans same, unseen.numbered seq _ mine, ?_⟩
    cases standing with
    | queued unbegun replied requests =>
      refine .queued ?_ (by rw [unseen.due, replied, unseen.got])
        (by rw [unseen.turn, requests, unseen.own])
      intro job member same
      rcases unseen.others job member with member | ⟨a, theirs, other⟩
      · exact unbegun job member same
      · rw [same, mine] at theirs
        cases theirs
        exact other rfl
    | begun replied requests underway =>
      exact .begun (by rw [unseen.due, replied, unseen.got])
        (by rw [unseen.turn, requests, unseen.own])
        (unseen.underway seq raw f _ mine parsed asks underway)

theorem Heard.frame {es' : List ServingEffect} {j : Nat} {c : Caller} (heard : Heard es j c)
    (stream : sent j es' = sent j es) (own : ofClient j (asked es') = ofClient j (asked es)) :
    Heard es' j c := by
  obtain ⟨hms, run, sound, submissions, flat⟩ := heard
  exact ⟨hms, run, sound, by rw [own, submissions], by rw [stream, flat]⟩

/-- A step in which a client has no part. -/
theorem CallerKept.stay {es' : List ServingEffect} {j : Nat} {c : Caller}
    (kept : CallerKept m es s j c) (unseen : Unseen m es es' s t j)
    (stream : sent j es' = sent j es) : CallerKept m es' t j c :=
  kept.frame unseen (kept.heard.frame stream unseen.own) (fun _ _ => Iff.rfl) rfl kept.closed

/-- Where an operation that the worker executes has got to. -/
inductive Stands (op : Call) (m : MachineModel) (link : Option Link) (p : Peer) : Stage → Prop where
  | waiting (rests : Peer.Rests m link p) : Stands op m link p .waiting
  | holding {r : Request} (frame : r.frame = op.frame) (talks : Peer.Talks op m link p r.point) :
      Stands op m link p (.holding r)

/-- The operation that is executed is the last one of the order. -/
structure Executing (m : MachineModel) (es : List ServingEffect) (s : Serving) (job : Job)
    (before : MachineModel) : Prop where
  sound : before.Sound
  on : job.op.OnSettings
  memory : (replay m (order es)).1 = (before.serve job.op).1
  last : ∃ i, (replay m (order es)).2.getLast? = some (i, job.op.answer (before.serve job.op).2)
  stands : ∃ stage, s.upstream.calls = [⟨job, stage⟩] ∧
    Stands job.op before s.upstream.link s.peer stage

structure Kept (m : MachineModel) (es : List ServingEffect) (s : Serving) : Prop where
  callers : ∀ i, CallerKept m es s i (s.caller i)
  -- What has not been begun is awaited by the client that has asked for it.
  owner : ∀ (seq : Nat) i raw op, (asked es)[seq]? = some (i, raw, op) →
    (∀ job ∈ begun es, job.seq ≠ seq) →
    ∃ f, (s.caller i).handler.phase = .awaiting raw f ∧ (s.caller i).ticket = some seq
  ops : (jobs es).map Job.op = (asked es).map fun a => a.2.2
  wellFormed : ∀ i, ∀ raw ∈ sent i es, ∃ op, Asks raw op ∧ op.reach ≤ 0x100
  executed : List.Forall₂ (fun job r => Asks r.2 job.op) (begun es) (order es)
  memory : (replay m (order es)).1.Sound
  resting : s.upstream.governor.worker.executed = none →
    Peer.Rests (replay m (order es)).1 s.upstream.link s.peer
  executing : ∀ job, s.upstream.governor.worker = .executing job →
    ∃ before, Executing m es s job before

variable {i : Nat} {c : Caller}

theorem Kept.caller (kept : Kept m es s) (here : s.callers[i]? = some c) :
    CallerKept m es s i c := caller_of here ▸ kept.callers i

/-- Where the order, the way upstream and the machine are the same, so is what is executed. -/
theorem Executing.same {es' : List ServingEffect} {job : Job} {before : MachineModel}
    (executing : Executing m es s job before) (order_ : order es' = order es)
    (calls : t.upstream.calls = s.upstream.calls) (link : t.upstream.link = s.upstream.link)
    (peer : t.peer = s.peer) : Executing m es' t job before where
  sound := executing.sound
  on := executing.on
  memory := by rw [order_]; exact executing.memory
  last := by rw [order_]; exact executing.last
  stands := by rw [calls, link, peer]; exact executing.stands

theorem delimited_of_asks {raws : List Text} (all : ∀ raw ∈ raws, ∃ op, Asks raw op) :
    ∀ raw ∈ raws, Pieces.Delimited Frontend.readRequest raw := by
  intro raw member
  obtain ⟨op, cut, rfl, asks⟩ := all raw member
  exact asks.delimited

/-- The requests submitted for a client are the first ones that it has sent. -/
theorem Heard.requests (heard : Heard es i c) (well : ∀ raw ∈ sent i es, ∃ op, Asks raw op) :
    ∃ more, sent i es = (ofClient i (asked es)).map Prod.fst ++ more ∧
      ((∀ how, c.handler.phase ≠ .closed how) →
        c.handler.buffer ++ decodeAscii c.wire = more.flatten) := by
  obtain ⟨hms, run, sound, submissions, flat⟩ := heard
  obtain ⟨rest, stream, forwarded, -⟩ := sound.faithful.forwards
  have asked_ : ∀ raw ∈ (ofClient i (asked es)).map Prod.fst, ∃ op, Asks raw op := by
    intro raw member
    obtain ⟨a, listed, rfl⟩ := List.mem_map.mp member
    exact ⟨a.2, forwarded a (submissions ▸ listed)⟩
  rw [stream, submissions, List.append_assoc] at flat
  obtain ⟨more, same, ends⟩ := Pieces.isPrefix_of_flatten (delimited_of_asks asked_)
    (delimited_of_asks well) rfl flat
  refine ⟨more, same, fun opened => ?_⟩
  have read := sound.opened opened
  rw [stream, submissions] at read
  rw [← ends, ← List.append_cancel_left read]

/-- What a client that sends well-formed requests only has sent next is one of them. -/
theorem Heard.next (heard : Heard es i c) (well : ∀ raw ∈ sent i es, ∃ op, Asks raw op)
    (reading : c.handler.phase = .reading) :
    (∀ raw rest, Frontend.readRequest c.handler.buffer = .ok (raw, rest) → ∃ op, Asks raw op) ∧
      Frontend.readRequest c.handler.buffer ≠ .error .value := by
  obtain ⟨more, same, ends⟩ := heard.requests well
  have left := ends (by simp [reading])
  have asked_ : ∀ raw ∈ more, ∃ op, Asks raw op := fun raw member =>
    well raw (by simp [same, member])
  have delimited := delimited_of_asks asked_
  constructor
  · intro raw rest taken
    have whole := Handler.readRequest_append taken (decodeAscii c.wire)
    rw [left] at whole
    cases more with
    | nil => cases whole
    | cons first more =>
      rw [List.flatten_cons, delimited first List.mem_cons_self] at whole
      obtain ⟨rfl, -⟩ := Prod.mk.inj (Except.ok.inj whole)
      exact asked_ _ List.mem_cons_self
  · intro taken
    have whole := Handler.readRequest_value taken (decodeAscii c.wire)
    rw [left] at whole
    cases more with
    | nil => cases whole
    | cons first more =>
      rw [List.flatten_cons, delimited first List.mem_cons_self] at whole
      cases whole

/-- So it is read strictly, and nothing of it is malformed. -/
theorem Heard.strict (heard : Heard es i c) (well : ∀ raw ∈ sent i es, ∃ op, Asks raw op)
    (reading : c.handler.phase = .reading) : c.handler.Strict .read := by
  obtain ⟨asks_, whole⟩ := heard.next well reading
  obtain ⟨hms, run, -, -, -⟩ := heard
  refine ⟨fun raw rest taken ⟨f, parsed⟩ => ?_, whole⟩
  obtain ⟨op, asks⟩ := asks_ raw rest taken
  have decoded := Handler.decoded_buffer run
  refine (Handler.strictFrame_iff (fun c member => decoded c ?_) taken parsed).mpr ?_
  · rw [(Handler.readRequest_ok taken).1]
    exact List.mem_append_left _ member
  · rw [Handler.asks_parsed asks parsed]
    exact asks

theorem Heard.accepted (heard : Heard es i c) (well : ∀ raw ∈ sent i es, ∃ op, Asks raw op)
    (reading : c.handler.phase = .reading) {raw rest : Text}
    (taken : Frontend.readRequest c.handler.buffer = .ok (raw, rest)) :
    ∃ f, parseFrame true raw = .ok f := by
  obtain ⟨op, asks⟩ := (heard.next well reading).1 raw rest taken
  exact Handler.asks_accepted asks

/-- A step of a handler with a strict event is heard. -/
theorem Heard.step (heard : Heard es i c) {he : HandlerEvent} {h' : Handler}
    {acts : List HandlerEffect} {more : List ServingEffect} {wire : List UInt8}
    {ticket : Option Nat} (h : c.handler.step he = some (h', acts))
    (strict : c.handler.Strict he)
    (submits : ofClient i (asked more) = acts.filterMap HandlerEffect.submitted)
    (nothing : sent i more = [])
    (text : he.arrived ++ decodeAscii wire = decodeAscii c.wire) :
    Heard (es ++ more) i ⟨h', wire, ticket⟩ := by
  obtain ⟨hms, run, sound, submissions, flat⟩ := heard
  refine ⟨_, run.snoc h, Handler.step_sound sound (Handler.decoded_buffer run) h strict, ?_, ?_⟩
  · rw [Handler.submissions_snoc, submissions, asked_append, ofClient_append, submits]
  · rw [sent_append, nothing, List.append_nil, flat, Handler.received_snoc, List.append_assoc, text]

variable {more : List ServingEffect}

theorem order_quiet (es : List ServingEffect) (noAsk : asked more = [])
    (noBegun : begun more = []) : order (es ++ more) = order es := by
  simp [order, noAsk, noBegun]

/-- What is under way stays so while the worker goes on with what it executes. -/
theorem Underway.stay {seq j : Nat} {f : Protocol.Frame} {text : Text}
    (underway : Underway m es s j seq f text) (same : order (es ++ more) = order es)
    (running : ∀ job, s.upstream.governor.worker = .executing job →
      t.upstream.governor.worker = .executing job)
    (futures : ∀ (seq : Nat) outcome, s.upstream.governor.futures[seq]? = some (.resolved outcome) →
      t.upstream.governor.futures[seq]? = some (.resolved outcome)) :
    Underway m (es ++ more) t j seq f text := by
  cases underway with
  | running runs own last => exact .running (running _ runs) own (by rw [same]; exact last)
  | done future ok text => exact .done (futures _ _ future) ok text

/-- A step that begins no operation, and neither asks for another client's nor answers it. -/
theorem unseen_of {j : Nat} (same : order (es ++ more) = order es) (noBegun : begun more = [])
    (noAsk : ofClient j (asked more) = []) (noReply : replies j more = [])
    (underway : ∀ (seq : Nat) raw f text, (asked es)[seq]? = some (j, raw, opOf f) →
      parseFrame true raw = .ok f → Asks raw (opOf f) → Underway m es s j seq f text →
      Underway m (es ++ more) t j seq f text) :
    Unseen m es (es ++ more) s t j where
  numbered := fun seq a known => by
    rw [asked_append, List.getElem?_append_left (List.getElem?_eq_some_iff.mp known).1, known]
  own := by simp [noAsk]
  got := by simp [noReply]
  due := by rw [answers, answers, same]
  turn := by rw [same]
  others := fun job member => Or.inl (by simpa [noBegun] using member)
  underway := underway

theorem unseen_idle {j : Nat} (same : t.upstream = s.upstream) (noAsk : asked more = [])
    (noBegun : begun more = []) (noReply : replies j more = []) :
    Unseen m es (es ++ more) s t j := by
  have quiet := order_quiet es noAsk noBegun
  apply unseen_of quiet noBegun (by rw [noAsk]; rfl) noReply
  intro _ _ _ _ _ _ _ underway
  exact underway.stay quiet (fun _ runs => by rw [same]; exact runs)
    (fun _ _ future => by rw [same]; exact future)

/-- A step of one client that asks for nothing. -/
theorem Kept.touch (kept : Kept m es s) (here : s.callers[i]? = some c) {c' : Caller}
    (noAsk : asked more = []) (noGovern : governed more = [])
    (elsewhere : ∀ j ≠ i, sent j more = [] ∧ replies j more = [])
    (mine : CallerKept m (es ++ more) { s with callers := s.callers.set i c' } i c')
    (owner : ∀ raw f seq, c.handler.phase = .awaiting raw f → c.ticket = some seq →
      (∀ job ∈ begun es, job.seq ≠ seq) →
      c'.handler.phase = .awaiting raw f ∧ c'.ticket = some seq)
    (well : ∀ raw ∈ sent i more, ∃ op, Asks raw op ∧ op.reach ≤ 0x100) :
    Kept m (es ++ more) { s with callers := s.callers.set i c' } := by
  have noBegun : begun more = [] := by simp [begun, noGovern]
  have noJobs : jobs more = [] := by simp [jobs, noGovern]
  have order_ := order_quiet es noAsk noBegun
  have updated := caller_set here c' s.upstream s.peer
  refine ⟨?_, ?_, by simpa [noJobs, noAsk] using kept.ops, ?_,
    by simpa [order_, noBegun] using kept.executed, by rw [order_]; exact kept.memory,
    by rw [order_]; exact kept.resting, ?_⟩
  · intro j
    rw [updated j]
    split
    · rename_i same
      exact same ▸ mine
    · rename_i other
      obtain ⟨noSent, noReply⟩ := elsewhere j other
      exact (kept.callers j).stay (unseen_idle rfl noAsk noBegun noReply) (by simp [noSent])
  · intro seq j raw op known unbegun
    rw [updated j]
    obtain ⟨f, awaiting, ticket⟩ := kept.owner seq j raw op (by simpa [noAsk] using known)
      (by simpa [noBegun] using unbegun)
    split
    · rename_i same
      rw [same, caller_of here] at awaiting ticket
      exact ⟨f, owner raw f seq awaiting ticket (by simpa [noBegun] using unbegun)⟩
    · exact ⟨f, awaiting, ticket⟩
  · intro j raw member
    rw [sent_append] at member
    rcases List.mem_append.mp member with old | new
    · exact kept.wellFormed j raw old
    · by_cases same : j = i
      · exact well raw (same ▸ new)
      · rw [(elsewhere j same).1] at new
        cases new
  · intro job runs
    obtain ⟨before, executing⟩ := kept.executing job runs
    exact ⟨before, executing.same order_ rfl rfl rfl⟩

theorem decodeAscii_encode {text : Text} (ascii : ∀ c ∈ text, c.toNat < 128) :
    decodeAscii (encodeAscii text) = text := by
  rw [decodeAscii, encodeAscii, List.map_map]
  refine (List.map_congr_left fun c member => ?_).trans (List.map_id text)
  have small := ascii c member
  have value : c.toNat.toUInt8.toNat = c.toNat := by
    simp only [Nat.toUInt8, UInt8.toNat_ofNat']
    omega
  have less : c.toNat.toUInt8 < 128 := by
    rw [UInt8.lt_iff_toNat_lt, value]
    exact small
  simp [less, value, Char.ofNat_toNat]

theorem sent_kept (kept : Kept m es s) (here : s.callers[i]? = some c) {raw : Text}
    (well : ∃ op, Asks raw op ∧ op.reach ≤ 0x100) :
    Kept m (es ++ [.sent i raw])
      { s with callers := s.callers.set i { c with wire := c.wire ++ encodeAscii raw } } := by
  have mine := kept.caller here
  have elsewhere : ∀ j ≠ i, sent j [.sent i raw] = [] ∧ replies j [.sent i raw] = [] := by
    intro j other
    simp [sent, replies, List.filterMap_cons, Ne.symm other]
  have more : sent i [.sent i raw] = [raw] := by simp [sent]
  have ascii : ∀ c ∈ raw, c.toNat < 128 := by
    obtain ⟨op, ⟨cut, rfl, asks⟩, -⟩ := well
    exact asks.ascii
  refine kept.touch here rfl rfl elsewhere ?_
    (fun raw f seq awaiting ticket _ => ⟨awaiting, ticket⟩) (by simpa [more] using well)
  obtain ⟨hms, run, sound, submissions, flat⟩ := mine.heard
  refine mine.frame (unseen_idle rfl rfl rfl rfl) ⟨hms, run, sound, ?_, ?_⟩ (fun _ _ => Iff.rfl)
    rfl mine.closed
  · rw [submissions, asked_append]
    exact (congrArg _ (List.append_nil _)).symm
  · rw [sent_append, more, List.flatten_append, flat, decodeAscii, decodeAscii, List.map_append,
      ← decodeAscii, ← decodeAscii, decodeAscii_encode ascii]
    simp

/-- A handler that has nothing to say awaits what it awaited, and closes only after its client. -/
theorem handler_phase {h h' : Handler} {he : HandlerEvent} (step : h.step he = some (h', []))
    (own : ∀ result, he ≠ .answered result) (strict : h.Strict he)
    (accepted : h.phase = .reading → ∀ raw rest, Frontend.readRequest h.buffer = .ok (raw, rest) →
      ∃ f, parseFrame true raw = .ok f) :
    (∀ raw f, h'.phase = .awaiting raw f ↔ h.phase = .awaiting raw f) ∧
      ∀ how, h'.phase = .closed how → how = .lost ∨ how = .endOfStream := by
  cases Handler.step_stepped step with
  | arrive opened _ | endOfStream opened =>
    exact ⟨fun _ _ => Iff.rfl, fun how closed => absurd closed (opened how)⟩
  | malformed reading taken rejected =>
    obtain ⟨f, parsed⟩ := accepted reading _ _ taken
    rw [rejected] at parsed
    cases parsed
  | negative _ taken => exact absurd taken strict.2
  | finished reading _ _ | lost reading => simp [Handler.close, reading]
  | failed _ => exact absurd rfl (own _)
  | drained writing | undrained writing =>
    rcases writing with writing | writing <;> simp [Handler.close, writing]

theorem Heard.strict_step (heard : Heard es i c) (well : ∀ raw ∈ sent i es, ∃ op, Asks raw op)
    {he : HandlerEvent} {h' : Handler} {acts : List HandlerEffect}
    (h : c.handler.step he = some (h', acts)) (own : ∀ result, he ≠ .answered result) :
    c.handler.Strict he := by
  cases he with
  | read =>
    apply heard.strict well
    simp only [Handler.step] at h
    split at h
    · assumption
    · cases h
  | answered result => exact absurd rfl (own result)
  | _ => trivial

theorem Kept.asked_well (kept : Kept m es s) (i : Nat) : ∀ raw ∈ sent i es, ∃ op, Asks raw op :=
  fun raw member =>
    let ⟨op, asks, _⟩ := kept.wellFormed i raw member
    ⟨op, asks⟩

theorem handled_kept (kept : Kept m es s) (here : s.callers[i]? = some c) {he : HandlerEvent}
    {handler : Handler} {wire : List UInt8} (h : c.handler.step he = some (handler, []))
    (own : ∀ result, he ≠ .answered result)
    (text : he.arrived ++ decodeAscii wire = decodeAscii c.wire) :
    Kept m (es ++ [])
      { s with callers := s.callers.set i { c with handler := handler, wire := wire } } := by
  have mine := kept.caller here
  have well := kept.asked_well i
  have strict := mine.heard.strict_step well h own
  obtain ⟨phase, closed⟩ := handler_phase h own strict fun reading raw rest taken =>
    mine.heard.accepted well reading taken
  refine kept.touch here rfl rfl (fun _ _ => ⟨rfl, rfl⟩) ?_ ?_ nofun
  · exact mine.frame (unseen_idle rfl rfl rfl rfl) (mine.heard.step h strict rfl rfl text) phase rfl
      closed
  · exact fun raw f seq awaiting ticket _ => ⟨(phase raw f).mpr awaiting, ticket⟩

theorem resolved_kept (below : Below es s) (kept : Kept m es s) (here : s.callers[i]? = some c)
    {seq : Nat} {outcome : Outcome} {handler : Handler} {acts : List HandlerEffect}
    (ticket : c.ticket = some seq)
    (future : s.upstream.governor.futures[seq]? = some (.resolved outcome))
    (h : c.handler.step (.answered (returned outcome)) = some (handler, acts)) :
    Kept m (es ++ acts.map (.handled i))
      { s with callers := s.callers.set i { c with handler := handler, ticket := none } } := by
  have mine := kept.caller here
  obtain ⟨before, begun_, number⟩ := below.resolved seq outcome future
  have unawaited : ∀ raw f seq', c.handler.phase = .awaiting raw f → c.ticket = some seq' →
      ¬ ∀ job ∈ begun es, job.seq ≠ seq' := by
    intro raw f seq' _ same unbegun
    rw [ticket] at same
    cases same
    exact unbegun before begun_ number
  obtain ⟨raw, f, awaiting⟩ : ∃ raw f, c.handler.phase = .awaiting raw f := by
    simp only [Handler.step] at h
    split at h
    · exact ⟨_, _, ‹_›⟩
    · cases h
  obtain ⟨seq', same, mineAsked, standing⟩ := mine.awaits raw f awaiting
  rw [ticket] at same
  cases same
  cases standing with
  | queued unbegun _ _ => exact absurd number (unbegun before begun_)
  | @begun text replied requests underway =>
    cases underway with
    | running runs own _ =>
      have pending := below.pending _ runs
      rw [own, future] at pending
      cases pending
    | @done outcome' data future' ok same =>
      rw [future] at future'
      cases future'
      subst same
      simp only [Handler.step, awaiting, ok, Handler.answered] at h
      cases h
      have others : ∀ j ≠ i, replies j [.handled i (.reply (replyTo f data))] = [] := by
        intro j other
        simp [replies, Ne.symm other]
      have answer : replies i [.handled i (.reply (replyTo f data))] = [replyTo f data] := by
        simp [replies]
      refine kept.touch here rfl rfl (fun j other => ⟨rfl, others j other⟩) ?_
        (fun raw f seq waits same unbegun => absurd unbegun (unawaited raw f seq waits same))
        (by simp [sent])
      have step : c.handler.step (.answered (.ok data)) =
          some ({ c.handler with phase := .replying }, [.reply (replyTo f data)]) := by
        simp only [Handler.step, awaiting, Handler.answered]
      refine ⟨mine.heard.step step trivial rfl rfl rfl, fun _ => ?_, by simp, by simp⟩
      have silent : asked [ServingEffect.handled i (.reply (replyTo f data))] = [] := rfl
      have quiet := order_quiet es silent rfl
      rw [answers, List.map_singleton, quiet, replies_append, answer, ← replied, asked_append,
        silent, List.append_nil]
      exact ⟨rfl, requests⟩

section Numbers

variable (below : Below es s) (kept : Kept m es s)
include below kept

theorem asked_length : (asked es).length = s.upstream.governor.counter := by
  have ops := congrArg List.length kept.ops
  have numbers := congrArg List.length below.numbers
  simp only [List.length_map, List.length_range] at ops numbers
  omega

/-- A job is the operation of the submission with its number. -/
theorem asked_of_job {job : Job} (member : job ∈ jobs es) :
    ∃ i raw, (asked es)[job.seq]? = some (i, raw, job.op) := by
  obtain ⟨k, inside, same⟩ := List.mem_iff_getElem.mp member
  have number : job.seq = k := by
    have at_ := congrArg (fun xs => xs[k]?) below.numbers
    simp only [List.getElem?_map, List.getElem?_eq_getElem inside, Option.map_some, same] at at_
    have short : k < (List.range s.upstream.governor.counter).length := by
      rw [← below.numbers, List.length_map]
      exact inside
    rw [List.getElem?_eq_getElem short, List.getElem_range] at at_
    exact Option.some.inj at_
  have op := congrArg (fun xs => xs[k]?) kept.ops
  simp only [List.getElem?_map, List.getElem?_eq_getElem inside, Option.map_some, same] at op
  obtain ⟨⟨i, raw, op'⟩, here, rfl⟩ := Option.map_eq_some_iff.mp op.symm
  exact ⟨i, raw, by rw [number, here]⟩

theorem begun_lt {job : Job} (member : job ∈ begun es) : job.seq < (asked es).length := by
  obtain ⟨i, raw, here⟩ := asked_of_job below kept (below.begun_jobs job member)
  exact (List.getElem?_eq_some_iff.mp here).1

/-- What is asked for later changes nothing about the order so far. -/
theorem order_asked (noBegun : begun more = []) : order (es ++ more) = order es := by
  rw [order, begun_append, noBegun, List.append_nil]
  apply List.filterMap_congr
  intro job member
  rw [asked_append, List.getElem?_append_left (begun_lt below kept member)]

end Numbers

/-- The client whose request has just been numbered waits for its turn. -/
theorem asking_kept {more : List ServingEffect} {raw : Text} {f : Protocol.Frame}
    (heard : Heard (es ++ more) i c) (awaiting : c.handler.phase = .awaiting raw f)
    (ticket : c.ticket = some (asked es).length) (order_ : order (es ++ more) = order es)
    (asks : asked more = [(i, raw, opOf f)]) (noBegun : begun more = [])
    (noReply : replies i more = []) (unbegun : ∀ job ∈ begun es, job.seq ≠ (asked es).length)
    (replied : answers m i es = replies i es)
    (requests : ofClient i (order es) = (ofClient i (asked es)).map Prod.fst) :
    CallerKept m (es ++ more) t i c := by
  refine ⟨heard, fun free => absurd awaiting (free raw f), ?_, by simp [awaiting]⟩
  intro raw' f' again
  obtain ⟨rfl, rfl⟩ := HandlerPhase.awaiting.inj (awaiting.symm.trans again)
  refine ⟨_, ticket, by rw [asked_append, asks, List.getElem?_concat_length], ?_⟩
  refine .queued ?_ ?_ ?_
  · intro job member
    rw [begun_append, noBegun, List.append_nil] at member
    exact unbegun job member
  · rw [answers, order_, replies_append, noReply, List.append_nil, ← replied]
    rfl
  · have own : ofClient i (asked more) = [(raw, opOf f)] := by simp [asks, ofClient]
    rw [order_, requests, asked_append, ofClient_append, own, List.map_append]
    rfl

theorem submitted_kept (below : Below es s) (kept : Kept m es s) (here : s.callers[i]? = some c)
    {raw : Text} {op : Call} {handler : Handler} {next : Upstream × List UpstreamEffect}
    (h : c.handler.step .read = some (handler, [.submit raw op]))
    (up : s.upstream.step cfg (.submit op.priority op) = some next) :
    Kept m (es ++ .handled i (.submit raw op) :: next.2.map .upstream)
      { s with
        callers := s.callers.set i
          { c with handler := handler, ticket := some s.upstream.governor.counter }
        upstream := next.1 } := by
  rw [Upstream.step_submit] at up
  cases up
  have mine := kept.caller here
  have strict := mine.heard.strict_step (kept.asked_well i) h nofun
  have updated := caller_set here { c with
    handler := handler, ticket := some s.upstream.governor.counter }
  set more : List ServingEffect := [.handled i (.submit raw op),
    .upstream (.governed (.submitted ⟨op.priority, s.upstream.governor.counter, op⟩))] with more_eq
  have number := asked_length below kept
  have order_ : order (es ++ more) = order es := order_asked below kept rfl
  have asks_ : asked more = [(i, raw, op)] := rfl
  have reading : c.handler.phase = .reading := by
    cases Handler.step_stepped h with
    | submit reading _ _ => exact reading
  obtain ⟨f, awaiting, rfl⟩ : ∃ f, handler.phase = .awaiting raw f ∧ op = opOf f := by
    cases Handler.step_stepped h with
    | submit _ _ _ => exact ⟨_, rfl, rfl⟩
  obtain ⟨replied, requests⟩ := mine.free (by simp [reading])
  have own : ofClient i (asked more) = [(raw, opOf f)] := by simp [asks_, ofClient]
  change Kept m (es ++ more) _
  refine ⟨?_, ?_, ?_, ?_, ?_, by rw [order_]; exact kept.memory, by rw [order_]; exact kept.resting,
    ?_⟩
  · intro j
    rw [updated _ _ j]
    split
    · rename_i same
      subst same
      exact asking_kept (mine.heard.step h strict own rfl rfl) awaiting (by rw [number]) order_
        asks_ rfl rfl (fun job member => (begun_lt below kept member).ne) replied requests
    · rename_i other
      have noAsk : ofClient j (asked more) = [] := by simp [asks_, ofClient, Ne.symm other]
      refine (kept.callers j).stay (unseen_of order_ rfl noAsk rfl ?_) (by simp [more_eq, sent])
      refine fun _ _ _ _ _ _ _ underway => underway.stay order_ (fun _ => id) ?_
      intro seq outcome future
      have inside := (List.getElem?_eq_some_iff.mp future).1
      simpa [Governor.submit, List.getElem?_append_left inside] using future
  · intro seq j raw' op' known unbegun
    rw [updated _ _ j]
    rw [asked_append, asks_] at known
    rcases Nat.lt_or_ge seq (asked es).length with old | new
    · rw [List.getElem?_append_left old] at known
      obtain ⟨f', awaits, ticket⟩ := kept.owner seq j raw' op' known fun job member =>
        unbegun job (by simp [member])
      split
      · rename_i same
        rw [same, caller_of here, reading] at awaits
        cases awaits
      · exact ⟨f', awaits, ticket⟩
    · have last : seq = (asked es).length := by
        have inside := (List.getElem?_eq_some_iff.mp known).1
        simp only [List.length_append, List.length_singleton] at inside
        omega
      rw [last, List.getElem?_concat_length] at known
      cases known
      exact ⟨f, by simp [awaiting], by simp [last, number]⟩
  · have job : jobs more = [⟨(opOf f).priority, s.upstream.governor.counter, opOf f⟩] := rfl
    rw [jobs_append, asked_append, List.map_append, List.map_append, kept.ops, job, asks_]
    rfl
  · intro j raw' member
    rw [sent_append, show sent j more = [] from rfl, List.append_nil] at member
    exact kept.wellFormed j raw' member
  · rw [order_, begun_append, show begun more = [] from rfl, List.append_nil]
    exact kept.executed
  · intro job runs
    obtain ⟨before, executing⟩ := kept.executing job runs
    exact ⟨before, executing.same order_ rfl rfl rfl⟩

/-- The worker and the client have done something that no client sees. -/
theorem Kept.tend (kept : Kept m es s) {upstream : Upstream} {peer : Peer}
    {ups : List UpstreamEffect} (noBegun : begun (ups.map .upstream) = [])
    (noJobs : jobs (ups.map .upstream) = [])
    (underway : ∀ (seq j : Nat) raw f text, (asked es)[seq]? = some (j, raw, opOf f) →
      parseFrame true raw = .ok f → Asks raw (opOf f) → Underway m es s j seq f text →
      Underway m (es ++ ups.map .upstream) { s with upstream := upstream, peer := peer } j seq f
        text)
    (resting : upstream.governor.worker.executed = none →
      Peer.Rests (replay m (order es)).1 upstream.link peer)
    (executing : ∀ job, upstream.governor.worker = .executing job →
      ∃ before, Executing m es { s with upstream := upstream, peer := peer } job before) :
    Kept m (es ++ ups.map .upstream) { s with upstream := upstream, peer := peer } := by
  have order_ : order (es ++ ups.map .upstream) = order es := order_quiet es (by simp) noBegun
  refine ⟨fun j => ?_, ?_, by simpa [noJobs] using kept.ops, by simpa using kept.wellFormed,
    by simpa [order_, noBegun] using kept.executed, by rw [order_]; exact kept.memory,
    by rw [order_]; exact resting, ?_⟩
  · refine (kept.callers j).stay ?_ (by simp)
    exact unseen_of order_ noBegun (by simp [ofClient]) (by simp) fun seq => underway seq j
  · intro seq j raw op known unbegun
    exact kept.owner seq j raw op (by simpa using known) (by simpa [noBegun] using unbegun)
  · intro job runs
    obtain ⟨before, now⟩ := executing job runs
    exact ⟨before, now.same order_ rfl rfl rfl⟩

/-- The client of a job awaits it, and has been replied to all else that it has asked for. -/
structure Waits (m : MachineModel) (es : List ServingEffect) (s : Serving) (job : Job) (i : Nat)
    (raw : Text) (f : Protocol.Frame) : Prop where
  known : (asked es)[job.seq]? = some (i, raw, job.op)
  on : job.op.OnSettings
  asks : Asks raw job.op
  awaiting : (s.caller i).handler.phase = .awaiting raw f
  ticket : (s.caller i).ticket = some job.seq
  op : job.op = opOf f
  replied : answers m i es = replies i es
  requests : ofClient i (order es) ++ [raw] = (ofClient i (asked es)).map Prod.fst

theorem throttled_waits (below : Below es s) (kept : Kept m es s) {job : Job}
    (waits : s.upstream.governor.worker = .throttling job) :
    ∃ i raw f, Waits m es s job i raw f := by
  obtain ⟨listed, unbegun⟩ := below.throttled job waits
  obtain ⟨i, raw, known⟩ := asked_of_job below kept listed
  obtain ⟨f, awaiting, ticket⟩ := kept.owner job.seq i raw job.op known unbegun
  have mine := kept.callers i
  obtain ⟨seq, same, own, standing⟩ := mine.awaits raw f awaiting
  obtain rfl : seq = job.seq := Option.some.inj (same.symm.trans ticket)
  have op : job.op = opOf f :=
    congrArg (fun a => a.2.2) (Option.some.inj (known.symm.trans own))
  -- It is one of the well-formed requests that its client has sent.
  obtain ⟨more, stream, -⟩ := mine.heard.requests (kept.asked_well i)
  have sent_ : raw ∈ sent i es := by
    rw [stream]
    refine List.mem_append_left _ (List.mem_map.mpr ⟨(raw, job.op), ?_, rfl⟩)
    exact mem_ofClient.mpr (List.mem_of_getElem? known)
  obtain ⟨op', asks, reach⟩ := kept.wellFormed i raw sent_
  obtain ⟨hms, -, sound, -, -⟩ := mine.heard
  obtain rfl : job.op = op' :=
    op.trans (Handler.asks_parsed asks (sound.waiting raw f awaiting).2.1)
  -- And not begun, as no job with its number has been.
  cases standing with
  | queued _ replied requests =>
    exact ⟨i, raw, f, known, ⟨asks_inRange asks, reach⟩, asks, awaiting, ticket, op, replied,
      requests⟩
  | begun _ _ underway =>
    cases underway with
    | running runs _ _ =>
      rw [waits] at runs
      cases runs
    | done future _ _ =>
      obtain ⟨other, begun_, number⟩ := below.resolved _ _ future
      exact absurd number (unbegun other begun_)

theorem order_begun {job : Job} {i : Nat} {raw : Text}
    (known : (asked es)[job.seq]? = some (i, raw, job.op)) :
    order (es ++ [.upstream (.governed (.began job))]) = order es ++ [(i, raw)] := by
  have begun_ : begun [.upstream (.governed (.began job))] = [job] := rfl
  have silent : asked [.upstream (.governed (.began job))] = [] := rfl
  rw [order, begun_append, asked_append, begun_, silent, List.append_nil, List.filterMap_append]
  simp [order, known]

/-- The next request is executed on the memory. -/
theorem replay_next {requests : List (Nat × Text)} {i : Nat} {raw : Text} {op : Call}
    (sound : (replay m requests).1.Sound) (asks : Asks raw op) (on : op.OnSettings) :
    replay m (requests ++ [(i, raw)]) = (((replay m requests).1.serve op).1,
      (replay m requests).2 ++ [(i, op.answer ((replay m requests).1.serve op).2)]) := by
  rw [replay, List.foldl_append, ← replay]
  simp only [List.foldl_cons, List.foldl_nil, execute, process_asks sound asks on]

theorem begun_kept (below : Below es s) (kept : Kept m es s) {job : Job}
    (waits : s.upstream.governor.worker = .throttling job) :
    Kept m (es ++ [.upstream (.governed (.began job))])
      { s with upstream := { s.upstream with
          governor := { s.upstream.governor with worker := .executing job }
          calls := [⟨job, .waiting⟩] } } := by
  obtain ⟨i, raw, f, turn⟩ := throttled_waits below kept waits
  set more : List ServingEffect := [.upstream (.governed (.began job))]
  have order_ : order (es ++ more) = order es ++ [(i, raw)] := order_begun turn.known
  have next := replay_next (i := i) kept.memory turn.asks turn.on
  have begun_ : begun more = [job] := rfl
  have silent : asked more = [] := rfl
  have asked_ : asked (es ++ more) = asked es := by simp [silent]
  obtain ⟨listed, unbegun⟩ := below.throttled job waits
  refine ⟨?_, ?_, ?_, by simpa [more, sent] using kept.wellFormed, ?_, ?_, nofun, ?_⟩
  · intro j
    have mine := kept.callers j
    have heard : Heard (es ++ more) j (s.caller j) := mine.heard.frame (by simp [more, sent])
      (by rw [asked_])
    by_cases own : j = i
    · subst own
      refine ⟨heard, fun free => absurd turn.awaiting (free raw f), ?_, mine.closed⟩
      intro raw' f' again
      obtain ⟨rfl, rfl⟩ := HandlerPhase.awaiting.inj (turn.awaiting.symm.trans again)
      refine ⟨job.seq, turn.ticket, by rw [asked_, turn.known, turn.op], ?_⟩
      have due : answers m j (es ++ more) = replies j (es ++ more) ++
          [job.op.answer ((replay m (order es)).1.serve job.op).2] := by
        rw [answers, order_, next, ofClient_append, ← answers, turn.replied]
        simp [ofClient, more, replies]
      refine .begun due ?_ (.running rfl rfl ?_)
      · rw [order_, ofClient_append, asked_, ← turn.requests]
        simp [ofClient]
      · rw [order_, next]
        simp
    · refine mine.stay ?_ (by simp [more, sent])
      constructor
      · exact fun seq a known => by rw [asked_, known]
      · rw [asked_]
      · simp [more, replies]
      · rw [answers, order_, next, ofClient_append, ← answers]
        simp [ofClient, Ne.symm own]
      · rw [order_, ofClient_append]
        simp [ofClient, Ne.symm own]
      · intro other member
        rw [begun_append, begun_] at member
        apply (List.mem_append.mp member).imp_right
        intro new
        rw [List.mem_singleton.mp new]
        exact ⟨_, turn.known, Ne.symm own⟩
      · intro seq raw' f' text _ _ _ underway
        cases underway with
        | running runs _ _ =>
          rw [waits] at runs
          cases runs
        | done future ok text => exact .done future ok text
  · intro seq j raw' op' known unbegun'
    exact kept.owner seq j raw' op' (by rwa [asked_] at known) fun other member =>
      unbegun' other (by simp [member])
  · rw [jobs_append, asked_, show jobs more = [] from rfl, List.append_nil]
    exact kept.ops
  · rw [order_, begun_append, begun_]
    exact List.rel_append kept.executed (.cons turn.asks .nil)
  · rw [order_, next]
    exact MachineModel.serve_sound kept.memory turn.on
  · rintro _ ⟨⟩
    have free : s.upstream.governor.worker.executed = none := by rw [waits]; rfl
    exact ⟨(replay m (order es)).1, kept.memory, turn.on, by rw [order_, next],
      ⟨i, by rw [order_, next, List.getLast?_concat]⟩, _, rfl, .waiting (kept.resting free)⟩

section Advance

variable {ue : UpstreamEvent} {k : Nat} {job : Job} {next : Client × List Act}
  {news : List UpstreamEffect} {peer : Peer}

theorem peer_after (advances : Upstream.Advances cfg s.upstream ue k job next news)
    (now : List Int) (peer : Peer) :
    (news ++ next.2.map UpstreamEffect.act).foldl (Peer.after now) peer =
      next.2.foldl (Peer.hear now) peer := by
  have quiet : news.foldl (Peer.after now) peer = peer := by
    cases advances with
    | acquired _ _ _ => rfl
    | resumed _ _ =>
      unfold Upstream.opening
      split <;> rfl
  rw [List.foldl_append, quiet, List.foldl_map]
  rfl

/-- The client goes on with the operation that is executed, and the machine answers it. -/
theorem advances_progress (below : Below es s) (kept : Kept m es s)
    (advances : Upstream.Advances cfg s.upstream ue k job next news)
    (forced : s.forced ue = some peer) (now : List Int) :
    s.upstream.governor.worker = .executing job ∧
      ∃ before, Executing m es s job before ∧ k = 0 ∧
        Peer.Progress job.op before now peer next := by
  obtain ⟨stage, here⟩ := advances.here
  have runs : s.upstream.governor.worker = .executing job := by
    have member := List.mem_map_of_mem (f := Pending.job) (List.mem_of_getElem? here)
    rw [below.working, Option.mem_toList] at member
    cases worker : s.upstream.governor.worker with
    | executing other =>
      rw [worker] at member
      cases member
      rfl
    | getting | throttling _ =>
      rw [worker] at member
      cases member
  obtain ⟨before, executing⟩ := kept.executing job runs
  refine ⟨runs, before, executing, ?_⟩
  obtain ⟨stage', calls, stands⟩ := executing.stands
  obtain ⟨rfl, same⟩ : k = 0 ∧ stage' = stage := by
    rw [calls] at here
    obtain ⟨inside, same⟩ := List.getElem?_eq_some_iff.mp here
    obtain rfl : k = 0 := by simpa using inside
    cases same
    exact ⟨rfl, rfl⟩
  subst same
  refine ⟨rfl, ?_⟩
  cases advances with
  | acquired waiting _ request =>
    rw [here] at waiting
    cases waiting
    cases forced
    cases stands with
    | waiting rests => exact Peer.Rests.progress rests executing.sound executing.on request now
  | @resumed _ _ r a _ holding resumed =>
    rw [here] at holding
    cases holding
    simp only [Serving.forced, here] at forced
    cases stands with
    | holding frame talks =>
      split at forced
      · rename_i a' p' answered
        split at forced
        · rename_i same
          cases forced
          subst same
          exact Peer.Talks.progress (c := s.upstream.view (.running r)) talks executing.sound
            executing.on rfl frame answered resumed now
        · cases forced
      · cases forced

theorem goesOn_kept (below : Below es s) (kept : Kept m es s) {r : Request}
    (advances : Upstream.Advances cfg s.upstream ue k job next news)
    (forced : s.forced ue = some peer) (running : next.1.task = .running r) (now : List Int) :
    Kept m (es ++ (news ++ next.2.map UpstreamEffect.act).map .upstream)
      { s with
        upstream := { s.upstream with
          link := next.1.link
          opens := next.1.opens
          calls := s.upstream.calls.set k ⟨job, .holding r⟩ }
        peer := (news ++ next.2.map UpstreamEffect.act).foldl (Peer.after now) peer } := by
  obtain ⟨runs, before, executing, rfl, progress⟩ :=
    advances_progress below kept advances forced now
  obtain ⟨stage, calls, -⟩ := executing.stands
  have quiet : (news ++ next.2.map UpstreamEffect.act).filterMap Upstream.governedEffect = [] := by
    rw [List.filterMap_append, advances.news_quiet, Upstream.governedEffect_acts, List.append_nil]
  have noBegun : begun ((news ++ next.2.map UpstreamEffect.act).map .upstream) = [] := by
    rw [begun_upstream, quiet]
    rfl
  rw [peer_after advances]
  refine kept.tend noBegun (by rw [jobs_upstream, quiet]; rfl) ?_ ?_ ?_
  · intro seq j raw f text _ _ _ underway
    exact underway.stay (order_quiet es (asked_upstream _) noBegun) (fun _ => id) (fun _ _ => id)
  · intro free
    rw [runs] at free
    cases free
  · rintro other again
    obtain rfl : job = other := Worker.executing.inj (runs.symm.trans again)
    refine ⟨before, executing.sound, executing.on, executing.memory, executing.last, _,
      by rw [calls]; rfl, ?_⟩
    rcases progress with ⟨r', running', frame, talks⟩ | ⟨_, ended, _⟩
    · rw [running] at running'
      cases running'
      exact .holding frame talks
    · rw [running] at ended
      cases ended

theorem returned_outcome {op : Call} {f : Protocol.Frame} {before : MachineModel}
    (data : f.data = (before.serve op).2) :
    returned (op.outcome (.ok f)) = .ok (before.serve op).2 := by
  cases op with
  | read address length => simp only [Call.outcome, returned, data]
  | write address written => rfl

/-- What is under way is done when the worker's operation returns. -/
theorem Underway.settle (below : Below es s) (kept : Kept m es s) {before : MachineModel}
    (executing : Executing m es s job before)
    (runs : s.upstream.governor.worker = .executing job) {reply f : Protocol.Frame}
    (data : reply.data = (before.serve job.op).2) {seq j : Nat} {raw text : Text}
    (own : (asked es)[seq]? = some (j, raw, opOf f)) (parsed : parseFrame true raw = .ok f)
    (asks : Asks raw (opOf f)) (underway : Underway m es s j seq f text)
    (settled : ∀ k, t.upstream.governor.futures[k]? = if job.seq = k
      then some (.resolved (job.op.outcome (.ok reply)))
      else s.upstream.governor.futures[k]?) :
    Underway m (es ++ more) t j seq f text := by
  cases underway with
  | @running other runs' number last =>
    obtain rfl : job = other := Worker.executing.inj (runs.symm.trans runs')
    subst number
    have op : job.op = opOf f := by
      obtain ⟨j', raw', known⟩ :=
        asked_of_job below kept (below.begun_jobs job (below.executing job runs))
      exact congrArg (fun a => a.2.2) (Option.some.inj (known.symm.trans own))
    obtain ⟨j', last'⟩ := executing.last
    rw [last] at last'
    have same : text = job.op.answer (before.serve job.op).2 :=
      congrArg Prod.snd (Option.some.inj last')
    refine .done (by rw [settled, if_pos rfl]) (returned_outcome data) ?_
    rw [same, op]
    exact (settles_iff.mp (Handler.settles_of_asks parsed asks _)).symm
  | done future ok same =>
    refine .done ?_ ok same
    have other : job.seq ≠ seq := by
      rintro rfl
      rw [below.pending job runs] at future
      cases future
    rw [settled, if_neg other, future]

theorem returns_kept (below : Below es s) (kept : Kept m es s) {frame : Text}
    {result : Except Exc Protocol.Frame} {after : Governor × List GovernorEffect}
    (advances : Upstream.Advances cfg s.upstream ue k job next news)
    (forced : s.forced ue = some peer) (ended : next.1.task = .ended frame result)
    (h : s.upstream.governor.step (.done (job.op.outcome result)) = some after) (now : List Int) :
    Kept m (es ++ (news ++ (next.2.map UpstreamEffect.act ++
        after.2.map UpstreamEffect.governed)).map .upstream)
      { s with
        upstream :=
          { governor := after.1
            link := next.1.link
            opens := next.1.opens
            calls := s.upstream.calls.eraseIdx k }
        peer := (news ++ (next.2.map UpstreamEffect.act ++
          after.2.map UpstreamEffect.governed)).foldl (Peer.after now) peer } := by
  obtain ⟨runs, before, executing, rfl, progress⟩ :=
    advances_progress below kept advances forced now
  rcases progress with ⟨r, running, -⟩ | ⟨reply, ended', data, rests⟩
  · rw [ended] at running
    cases running
  rw [ended] at ended'
  cases ended'
  have pending := below.pending job runs
  rw [Governor.done_settled runs pending] at h
  cases h
  set effects := news ++ (next.2.map UpstreamEffect.act ++
    [UpstreamEffect.governed (.ended job (job.op.outcome (.ok reply))),
      .governed (.resolved job.seq (job.op.outcome (.ok reply)))]) with effects_eq
  have governed_ : effects.filterMap Upstream.governedEffect =
      [.ended job (job.op.outcome (.ok reply)),
        .resolved job.seq (job.op.outcome (.ok reply))] := by
    rw [effects_eq, List.filterMap_append, List.filterMap_append, advances.news_quiet,
      Upstream.governedEffect_acts]
    rfl
  have peer_ : effects.foldl (Peer.after now) peer = next.2.foldl (Peer.hear now) peer := by
    rw [effects_eq, ← List.append_assoc, List.foldl_append, peer_after advances]
    rfl
  have noBegun : begun (effects.map .upstream) = [] := by
    rw [begun_upstream, governed_]
    rfl
  change Kept m (es ++ effects.map .upstream) { s with
    upstream := _, peer := effects.foldl (Peer.after now) peer }
  rw [peer_]
  refine kept.tend noBegun (by rw [jobs_upstream, governed_]; rfl) ?_ ?_ nofun
  · intro seq j raw f text own parsed asks underway
    apply underway.settle below kept executing runs data own parsed asks
    intro k
    have inside := (List.getElem?_eq_some_iff.mp pending).1
    rw [List.getElem?_set, if_pos inside]
  · intro _
    rw [executing.memory]
    exact rests

end Advance

theorem worked_kept (below : Below es s) (kept : Kept m es s) {ue : UpstreamEvent} {peer : Peer}
    {next : Upstream × List UpstreamEffect} (forced : s.forced ue = some peer)
    (up : s.upstream.step cfg ue = some next) (now : List Int) :
    Kept m (es ++ next.2.map .upstream)
      { s with upstream := next.1, peer := next.2.foldl (Peer.after now) peer } := by
  obtain ⟨upstream, ups⟩ := next
  cases Upstream.step_stepped up with
  | @governed _ ge next of step =>
    obtain ⟨governor, effects⟩ := next
    cases ue with
    | take =>
      cases of
      cases forced
      cases Governor.step_stepped step with
      | take free first =>
        have rests := kept.resting (by rw [free]; rfl)
        refine kept.tend rfl rfl ?_ (fun _ => rests) nofun
        intro seq j raw f text _ _ _ underway
        refine underway.stay (order_quiet es rfl rfl) (fun job runs => ?_) (fun _ _ => id)
        rw [free] at runs
        cases runs
    | throttled =>
      cases of
      cases forced
      cases Governor.step_stepped step with
      | throttled waits =>
        have idle : s.upstream.calls = [] := by
          have none_ := below.working
          rw [waits] at none_
          exact List.map_eq_nil_iff.mp none_
        have begun_ := begun_kept below kept waits
        simpa [idle, Peer.after] using begun_
    | acquire _ | resume _ _ => cases of
    | submit _ _ | cancel _ | closeLink | lost => cases forced
  | goesOn advances running => exact goesOn_kept below kept advances forced running now
  | returns advances ended step => exact returns_kept below kept advances forced ended step now
  | closed | lost _ _ => cases forced

theorem connected_kept (kept : Kept m es s) :
    Kept m (es ++ []) { s with callers := s.callers ++ [.fresh] } := by
  have same := caller_connect s
  rw [List.append_nil]
  refine ⟨fun i => ?_, ?_, kept.ops, kept.wellFormed, kept.executed, kept.memory, kept.resting, ?_⟩
  · rw [same]
    have unseen : Unseen m es (es ++ []) s { s with callers := s.callers ++ [.fresh] } i :=
      unseen_idle rfl rfl rfl rfl
    rw [List.append_nil] at unseen
    exact (kept.callers i).stay unseen rfl
  · intro seq i raw op known unbegun
    rw [same]
    exact kept.owner seq i raw op known unbegun
  · intro job runs
    obtain ⟨before, executing⟩ := kept.executing job runs
    exact ⟨before, executing.same rfl rfl rfl rfl⟩

theorem step_kept (below : Below es s) (kept : Kept m es s) (h : s.step cfg e = some (t, effects))
    (well : ∀ i raw, e = .send i raw → ∃ op, Asks raw op ∧ op.reach ≤ 0x100) :
    Kept m (es ++ effects) t := by
  cases step_stepped h with
  | connected => exact connected_kept kept
  | sent here => exact sent_kept kept here (well _ _ rfl)
  | handled here step own text _ => exact handled_kept kept here step own text
  | submitted here step up => exact submitted_kept below kept here step up
  | resolved here ticket future step => exact resolved_kept below kept here ticket future step
  | worked forced up => exact worked_kept below kept forced up _

theorem start_kept (sound : m.Sound) : Kept m [] (start m) where
  callers := fun _ =>
    { heard := ⟨[], .nil, Handler.sound_start, rfl, rfl⟩
      free := fun _ => ⟨rfl, rfl⟩
      awaits := nofun
      closed := nofun }
  owner := nofun
  ops := rfl
  wellFormed := nofun
  executed := .nil
  memory := sound
  resting := fun _ => ⟨Or.inl rfl, rfl⟩
  executing := nofun

theorem run_kept (sound : m.Sound) (run : Run (step cfg) (start m) ms s)
    (well : ∀ mv ∈ ms, ∀ i raw, mv.event = .send i raw → ∃ op, Asks raw op ∧ op.reach ≤ 0x100) :
    Kept m (outputs ms) s := by
  induction run with
  | nil => exact start_kept sound
  | snoc earlier h ih =>
    obtain ⟨before, last⟩ := forall_snoc.mp well
    rw [Runs.outputs_snoc]
    exact step_kept (run_below earlier) (ih before) h last

/-- What is begun is some of what was asked for, and what is replied some of what is due. -/
theorem CallerKept.owed (kept : CallerKept m es s i c) :
    ofClient i (order es) <+: (ofClient i (asked es)).map Prod.fst ∧
      replies i es <+: answers m i es := by
  by_cases awaits : ∃ raw f, c.handler.phase = .awaiting raw f
  · obtain ⟨raw, f, awaiting⟩ := awaits
    obtain ⟨seq, -, -, standing⟩ := kept.awaits raw f awaiting
    cases standing with
    | queued _ replied requests =>
      rw [← requests, replied]
      exact ⟨List.prefix_append _ _, List.prefix_rfl⟩
    | begun replied requests _ =>
      rw [requests, replied]
      exact ⟨List.prefix_rfl, List.prefix_append _ _⟩
  · obtain ⟨replied, requests⟩ := kept.free fun raw f awaiting => awaits ⟨raw, f, awaiting⟩
    rw [replied, requests]
    exact ⟨List.prefix_rfl, List.prefix_rfl⟩

theorem Kept.one_order (kept : Kept m es s) : Linearised m es s where
  executed := kept.executed
  consistent := fun i => by
    obtain ⟨more, stream, -⟩ := (kept.callers i).heard.requests (kept.asked_well i)
    rw [stream]
    exact (kept.callers i).owed.1.trans (List.prefix_append _ _)
  replied := fun i => (kept.callers i).owed.2
  settled := fun _ _ here free => ((kept.caller here).free free).1.symm
  complete := fun i c here reading read arrived => by
    have mine := kept.caller here
    have well := kept.asked_well i
    obtain ⟨more, stream, ends⟩ := mine.heard.requests well
    have left := ends (by simp [reading])
    rw [read, arrived] at left
    have delimited := delimited_of_asks fun raw (member : raw ∈ more) =>
      well raw (stream ▸ List.mem_append_right _ member)
    have none_ : ∃ rest, [] = more ++ rest ∧ ([] : Text) = rest.flatten :=
      Pieces.isPrefix_of_flatten delimited nofun rfl (left.trans (List.append_nil _).symm)
    obtain ⟨rest, none_, -⟩ := none_
    obtain ⟨rfl, -⟩ := List.append_eq_nil_iff.mp none_.symm
    rw [stream, List.append_nil]
    exact (mine.free (by simp [reading])).2
  served := fun c member how closed => by
    obtain ⟨i, inside, same⟩ := List.mem_iff_getElem.mp member
    have here : s.callers[i]? = some c := List.getElem?_eq_some_iff.mpr ⟨inside, same⟩
    exact (kept.caller here).closed how closed

/-- **N clients behave as one sequential conversation.** -/
theorem linearised (cfg : ClientConfig) (sound : m.Sound) (run : Run (step cfg) (start m) ms s)
    (well : ∀ mv ∈ ms, ∀ i raw, mv.event = .send i raw → ∃ op, Asks raw op ∧ op.reach ≤ 0x100) :
    Linearised m (outputs ms) s :=
  (run_kept sound run well).one_order

def setpointWrite : Call := .write 2 [104]
def setpointRead : Call := .read 2 1

theorem setpoints_asked {raw : Text}
    (either : raw = setpointWrite.frame ∨ raw = setpointRead.frame) :
    ∃ op, Asks raw op ∧ op.reach ≤ 0x100 := by
  rcases either with rfl | rfl
  · exact ⟨setpointWrite, Call.asks (by decide), by decide⟩
  · exact ⟨setpointRead, Call.asks (by decide), by decide⟩

/-- What one client reads is what the other, whose command overtakes it, has just written. -/
theorem command_linearised : ∃ ms s, Run (step ⟨1, 30, false, 3⟩) (start .initial) ms s ∧
    order (outputs ms) = [(1, setpointWrite.frame), (0, setpointRead.frame)] ∧
    replies 0 (outputs ms) = [setpointRead.answer [104]] ∧ Linearised .initial (outputs ms) s := by
  have reached : (Runs.feed (step ⟨1, 30, false, 3⟩) (start .initial) [.connect, .connect,
      .handle 0 (.drained true), .handle 1 (.drained true), .send 0 setpointRead.frame,
      .send 1 setpointWrite.frame, .arrive 0 20, .arrive 1 7, .handle 0 .read, .arrive 1 20,
      .handle 1 .read, .work .take [], .work .throttled [], .work (.acquire 0) [],
      .work (.resume 0 .opened) [], .work (.resume 0 (.bytes Protocol.hello)) [],
      .work (.resume 0 .done) [], .work (.resume 0 .done) [],
      .work (.resume 0 (.bytes (setpointWrite.answer []))) [], .resolve 1, .work .take [],
      .work .throttled [], .work (.acquire 0) [], .work (.resume 0 .done) [],
      .work (.resume 0 .done) [], .work (.resume 0 (.bytes (setpointRead.answer [104]))) [],
      .resolve 0]).any (fun r =>
        order (outputs r.2) == [(1, setpointWrite.frame), (0, setpointRead.frame)] &&
        replies 0 (outputs r.2) == [setpointRead.answer [104]] && r.2.all fun mv =>
          match mv.event with
          | .send _ raw => raw == setpointWrite.frame || raw == setpointRead.frame
          | _ => true) = true := by decide +kernel
  obtain ⟨ms, s, run, -, tested⟩ := Runs.feed_reaches reached
  simp only [Bool.and_eq_true, beq_iff_eq, List.all_eq_true] at tested
  obtain ⟨⟨order_, answer⟩, sends⟩ := tested
  refine ⟨ms, s, run, order_, answer, linearised _ MachineModel.initial_sound run ?_⟩
  intro mv member i raw event
  have test := sends mv member
  simp only [event, Bool.or_eq_true, beq_iff_eq] at test
  exact setpoints_asked test

end Serving

end R60V
