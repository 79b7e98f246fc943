import R60V.Bridge.Governor
import R60V.Bridge.Link

/-! The way upstream: the governor, the operations that its worker has passed to the client, the
client's lock, and the link that they share. `close_link` and the loss of the connection may come
at any time. -/
namespace R60V

open Runs (Run Move outputs forall_snoc)

inductive Stage where
  -- At `async with self._lock`.
  | waiting
  | holding (r : Request)
  deriving DecidableEq

/-- An operation of the governor in `client.read` or `client.write`. -/
structure Pending where
  job : Job
  stage : Stage
  deriving DecidableEq

def Pending.holds (p : Pending) : Bool :=
  match p.stage with
  | .waiting => false
  | .holding _ => true

def Pending.exchanging (p : Pending) : Bool :=
  match p.stage with
  | .waiting => false
  | .holding r => r.point matches .exchange _ _ _

structure Upstream where
  governor : Governor
  link : Option Link
  opens : Nat
  calls : List Pending

inductive UpstreamEvent where
  | submit (priority : Int) (op : Call)
  | cancel (seq : Nat)
  | take
  | throttled
  | acquire (i : Nat)
  | resume (i : Nat) (a : Answer)
  | closeLink
  | lost

inductive UpstreamEffect where
  | governed (effect : GovernorEffect)
  | act (act : Act)
  | opened (id : Nat)
  -- The connection ended without a `close`.
  | broke (id : Nat)

def UpstreamEvent.governed : UpstreamEvent → Option GovernorEvent
  | .submit priority op => some (.submit priority op)
  | .cancel seq => some (.cancel seq)
  | .take => some .take
  | .throttled => some .throttled
  | .acquire _ | .resume _ _ | .closeLink | .lost => none

/-- What `client.read` and `client.write` make of the reply. -/
def Call.outcome (op : Call) : Except Exc Protocol.Frame → Outcome
  | .error e => .error e
  | .ok f =>
    match op with
    | .read _ _ => .ok (.data f.data)
    | .write _ _ => .ok (.ack f)

namespace Upstream

def start : Upstream := ⟨.start, none, 0, []⟩

def view (s : Upstream) (task : Task) : Client := ⟨s.link, s.opens, task⟩

def locked (s : Upstream) : Bool := s.calls.any Pending.holds

-- A job that the worker begins goes on in the client.
def govern (s : Upstream) (e : GovernorEvent) : Option (Upstream × List UpstreamEffect) :=
  (s.governor.step e).map fun next =>
    ({ s with
      governor := next.1
      calls := s.calls ++ (next.2.filterMap GovernorEffect.begunJob).map (⟨·, .waiting⟩) },
      next.2.map .governed)

/-- The operation goes on, or returns to the worker with the lock released. -/
def absorb (s : Upstream) (i : Nat) (job : Job) (next : Client × List Act) :
    Option (Upstream × List UpstreamEffect) :=
  let s := { s with link := next.1.link, opens := next.1.opens }
  match next.1.task with
  | .idle => none
  | .running r => some ({ s with calls := s.calls.set i ⟨job, .holding r⟩ }, next.2.map .act)
  | .ended _ result =>
    let s := { s with calls := s.calls.eraseIdx i }
    (s.govern (.done (job.op.outcome result))).map fun after =>
      (after.1, next.2.map .act ++ after.2)

-- A connection that is opened by an answer.
def opening (s : Upstream) (a : Answer) : List UpstreamEffect :=
  if a = .opened then [.opened s.opens] else []

def step (cfg : ClientConfig) (s : Upstream) :
    UpstreamEvent → Option (Upstream × List UpstreamEffect)
  | .submit priority op => s.govern (.submit priority op)
  | .cancel seq => s.govern (.cancel seq)
  | .take => s.govern .take
  | .throttled => s.govern .throttled
  | .acquire i =>
    match s.calls[i]? with
    | some ⟨job, .waiting⟩ =>
      if s.locked then none
      else ((s.view .idle).request cfg job.op.frame).bind (s.absorb i job)
    | _ => none
  | .resume i a =>
    match s.calls[i]? with
    | some ⟨job, .holding r⟩ =>
      (((s.view (.running r)).resume cfg a).bind (s.absorb i job)).map fun after =>
        (after.1, s.opening a ++ after.2)
    | _ => none
  | .closeLink =>
    let next := (s.view .idle).close
    some ({ s with link := next.1.link }, next.2.map .act)
  | .lost =>
    match s.link with
    | some l => if l.closing then none
      else some ({ s with link := some { l with closing := true } }, [.broke l.id])
    | none => none

/-- The client takes an operation on, for the first time or with an answer. -/
inductive Advances (cfg : ClientConfig) (s : Upstream) :
    UpstreamEvent → Nat → Job → Client × List Act → List UpstreamEffect → Prop where
  | acquired {i : Nat} {job : Job} {next : Client × List Act}
      (here : s.calls[i]? = some ⟨job, .waiting⟩) (free : s.locked = false)
      (h : (s.view .idle).request cfg job.op.frame = some next) :
      Advances cfg s (.acquire i) i job next []
  | resumed {i : Nat} {job : Job} {r : Request} {a : Answer} {next : Client × List Act}
      (here : s.calls[i]? = some ⟨job, .holding r⟩)
      (h : (s.view (.running r)).resume cfg a = some next) :
      Advances cfg s (.resume i a) i job next (s.opening a)

/-- What a step can do, with the guard that lets it. -/
inductive Stepped (cfg : ClientConfig) (s : Upstream) :
    UpstreamEvent → Upstream → List UpstreamEffect → Prop where
  | governed {e : UpstreamEvent} {ge : GovernorEvent} {next : Governor × List GovernorEffect}
      (of : e.governed = some ge) (h : s.governor.step ge = some next) :
      Stepped cfg s e
        { s with
          governor := next.1
          calls := s.calls ++ (next.2.filterMap GovernorEffect.begunJob).map (⟨·, .waiting⟩) }
        (next.2.map .governed)
  | goesOn {e : UpstreamEvent} {i : Nat} {job : Job} {next : Client × List Act}
      {news : List UpstreamEffect} {r : Request} (advances : Advances cfg s e i job next news)
      (running : next.1.task = .running r) :
      Stepped cfg s e
        { s with
          link := next.1.link
          opens := next.1.opens
          calls := s.calls.set i ⟨job, .holding r⟩ } (news ++ next.2.map .act)
  | returns {e : UpstreamEvent} {i : Nat} {job : Job} {next : Client × List Act}
      {news : List UpstreamEffect} {frame : Python.Text} {result : Except Exc Protocol.Frame}
      {after : Governor × List GovernorEffect} (advances : Advances cfg s e i job next news)
      (ended : next.1.task = .ended frame result)
      (h : s.governor.step (.done (job.op.outcome result)) = some after) :
      Stepped cfg s e
        { governor := after.1
          link := next.1.link
          opens := next.1.opens
          calls := s.calls.eraseIdx i }
        (news ++ (next.2.map .act ++ after.2.map .governed))
  | closed :
      Stepped cfg s .closeLink { s with link := (s.view .idle).close.1.link }
        ((s.view .idle).close.2.map .act)
  | lost {l : Link} (linked : s.link = some l) (up : l.closing = false) :
      Stepped cfg s .lost { s with link := some { l with closing := true } } [.broke l.id]

variable {cfg : ClientConfig} {s t : Upstream} {e : UpstreamEvent} {effects : List UpstreamEffect}

theorem govern_stepped {ge : GovernorEvent} (of : e.governed = some ge)
    (h : s.govern ge = some (t, effects)) : Stepped cfg s e t effects := by
  obtain ⟨next, step, same⟩ := Option.map_eq_some_iff.mp h
  cases same
  exact .governed of step

theorem absorb_stepped {i : Nat} {job : Job} {next : Client × List Act}
    {news : List UpstreamEffect} (advances : Advances cfg s e i job next news)
    (h : s.absorb i job next = some (t, effects)) : Stepped cfg s e t (news ++ effects) := by
  unfold absorb at h
  dsimp only at h
  split at h
  · cases h
  · rename_i running
    cases h
    exact .goesOn advances running
  · rename_i ended
    obtain ⟨after, governed, same⟩ := Option.map_eq_some_iff.mp h
    obtain ⟨next', step, rfl⟩ := Option.map_eq_some_iff.mp governed
    cases same
    have quiet := (Governor.step_done step).2.2
    simp only [quiet, List.map_nil, List.append_nil]
    exact .returns advances ended step

theorem step_stepped (h : s.step cfg e = some (t, effects)) : Stepped cfg s e t effects := by
  cases e with
  | submit priority op | cancel seq | take | throttled => exact govern_stepped rfl h
  | acquire i =>
    simp only [step] at h
    split at h
    · rename_i here
      split at h
      · cases h
      · rename_i free
        obtain ⟨next, request, absorbs⟩ := Option.bind_eq_some_iff.mp h
        exact absorb_stepped (.acquired here (by simpa using free) request) absorbs
    · cases h
  | resume i a =>
    simp only [step] at h
    split at h
    · rename_i here
      obtain ⟨after, bound, same⟩ := Option.map_eq_some_iff.mp h
      obtain ⟨next, resume, absorbs⟩ := Option.bind_eq_some_iff.mp bound
      cases same
      exact absorb_stepped (.resumed here resume) absorbs
    · cases h
  | closeLink =>
    cases h
    exact .closed
  | lost =>
    simp only [step] at h
    split at h
    · rename_i l linked
      split at h
      · cases h
      · rename_i up
        cases h
        exact .lost linked (by simpa using up)
    · cases h

theorem step_submit (cfg : ClientConfig) (s : Upstream) (priority : Int) (op : Call) :
    s.step cfg (.submit priority op) =
      some ({ s with governor := (s.governor.submit priority op).1 },
        [.governed (.submitted ⟨priority, s.governor.counter, op⟩)]) := by
  simp [step, govern, Governor.step, Governor.submit]

abbrev Trace := List (Move Upstream UpstreamEvent UpstreamEffect)

def isOpen (ids : List Nat) : UpstreamEffect → List Nat
  | .opened id => ids ++ [id]
  | .act act => ids.filter fun id => !act.shuts id
  | .broke id => ids.filter (· ≠ id)
  | .governed _ => ids

/-- The connections that have been opened and neither closed nor lost, in the order of events. -/
def sockets (ms : Trace) : List Nat := (outputs ms).foldl isOpen []

@[simp] def openedId : UpstreamEffect → Option Nat
  | .opened id => some id
  | .act _ | .broke _ | .governed _ => none

@[simp] def closedId : UpstreamEffect → Option Nat
  | .act (.hangUp id) | .broke id => some id
  | .act (.dial _) | .act (.send _ _) | .opened _ | .governed _ => none

def opened (ms : Trace) : List Nat := (outputs ms).filterMap openedId

def closed (ms : Trace) : List Nat := (outputs ms).filterMap closedId

/-- The machine sees one client. -/
structure OneClient (ms : Trace) (s : Upstream) : Prop where
  distinct : (opened ms).Nodup
  single : (sockets ms).length ≤ 1
  current : ∀ id ∈ opened ms, (∃ l, s.link = some l ∧ l.id = id) ∨ id ∈ closed ms
  exchange : (s.calls.filter Pending.exchanging).length ≤ 1

@[simp] def governedEffect : UpstreamEffect → Option GovernorEffect
  | .governed effect => some effect
  | .act _ | .opened _ | .broke _ => none

section Effects

variable (ids : List Nat)

theorem isOpen_acts (acts : List Act) :
    (acts.map UpstreamEffect.act).foldl isOpen ids = Client.stillOpen acts ids := by
  induction acts generalizing ids with
  | nil => exact (Client.stillOpen_nil ids).symm
  | cons act acts ih =>
    simp only [List.map_cons, List.foldl_cons, isOpen, ih, Client.stillOpen, List.filter_filter,
      List.all_cons, Bool.and_comm]

theorem isOpen_governed (effects : List GovernorEffect) :
    (effects.map UpstreamEffect.governed).foldl isOpen ids = ids := by
  induction effects with
  | nil => rfl
  | cons effect effects ih => exact ih

theorem openedId_acts (acts : List Act) :
    (acts.map UpstreamEffect.act).filterMap openedId = [] :=
  Runs.filterMap_silent (fun _ => rfl) acts

theorem openedId_governed (effects : List GovernorEffect) :
    (effects.map UpstreamEffect.governed).filterMap openedId = [] :=
  Runs.filterMap_silent (fun _ => rfl) effects

theorem governedEffect_acts (acts : List Act) :
    (acts.map UpstreamEffect.act).filterMap governedEffect = [] :=
  Runs.filterMap_silent (fun _ => rfl) acts

theorem governedEffect_governed (effects : List GovernorEffect) :
    (effects.map UpstreamEffect.governed).filterMap governedEffect = effects := by
  rw [List.filterMap_map]
  exact List.filterMap_some

/-- Whatever has been opened is open still or has been closed. -/
theorem open_or_closed {effects : List UpstreamEffect} {id : Nat}
    (known : id ∈ ids ∨ id ∈ effects.filterMap openedId) :
    id ∈ effects.foldl isOpen ids ∨ id ∈ effects.filterMap closedId := by
  induction effects generalizing ids with
  | nil => simpa using known
  | cons effect effects ih =>
    have later : id ∈ isOpen ids effect ∨ id ∈ effects.filterMap openedId →
        id ∈ (effect :: effects).foldl isOpen ids ∨
          id ∈ (effect :: effects).filterMap closedId := by
      intro known
      apply (ih (isOpen ids effect) known).imp_right
      intro shut
      simp only [List.mem_filterMap] at shut ⊢
      obtain ⟨x, member, same⟩ := shut
      exact ⟨x, List.mem_cons_of_mem _ member, same⟩
    have shutNow : closedId effect = some id →
        id ∈ (effect :: effects).filterMap closedId := fun same =>
      List.mem_filterMap.mpr ⟨effect, List.mem_cons_self, same⟩
    cases effect with
    | opened n =>
      apply later
      simpa [isOpen, List.filterMap_cons, or_assoc] using known
    | governed effect => exact later (by simpa [List.filterMap_cons, isOpen] using known)
    | broke n =>
      by_cases same : id = n
      · subst same
        exact Or.inr (shutNow rfl)
      · exact later (by simpa [List.filterMap_cons, isOpen, same] using known)
    | act act =>
      cases act with
      | hangUp n =>
        by_cases same : id = n
        · subst same
          exact Or.inr (shutNow rfl)
        · exact later (by
            simpa [List.filterMap_cons, isOpen, Act.shuts, same, Ne.symm same] using known)
      | dial n => exact later (by simpa [List.filterMap_cons, isOpen, Act.shuts] using known)
      | send n frame =>
        exact later (by simpa [List.filterMap_cons, isOpen, Act.shuts] using known)

end Effects

/-- The operations in the client are the one that the worker executes, and what is open is the
link. -/
structure Sound (ms : Trace) (s : Upstream) : Prop where
  working : s.calls.map Pending.job = s.governor.worker.executed.toList
  detached : ∀ p ∈ s.calls, ∀ r, p.stage = .holding r → (s.view (.running r)).Detached
  sockets : Upstream.sockets ms = (s.view .idle).live
  fresh : ∀ id ∈ opened ms, id < s.opens
  distinct : (opened ms).Nodup

theorem Sound.start : Sound [] start where
  working := rfl
  detached := nofun
  sockets := rfl
  fresh := nofun
  distinct := List.nodup_nil

variable {ms : Trace} {i : Nat} {job : Job} {next : Client × List Act}
  {news : List UpstreamEffect}

theorem Sound.calls_le (sound : Sound ms s) : s.calls.length ≤ 1 := by
  have same := congrArg List.length sound.working
  rw [List.length_map] at same
  rw [same]
  cases s.governor.worker.executed <;> simp

theorem Sound.calls_eq (sound : Sound ms s) {p : Pending} (here : s.calls[i]? = some p) :
    i = 0 ∧ s.calls = [p] := by
  have short := sound.calls_le
  obtain ⟨inside, same⟩ := List.getElem?_eq_some_iff.mp here
  obtain rfl : i = 0 := by omega
  obtain ⟨q, only⟩ := List.length_eq_one_iff.mp (by omega : s.calls.length = 1)
  refine ⟨rfl, ?_⟩
  simp only [only, List.getElem_cons_zero] at same
  rw [only, same]

/-- What the client has done to its connections by then. -/
structure Linked (s : Upstream) (next : Client × List Act) (news : List UpstreamEffect) : Prop where
  detached : next.1.Detached
  live : (news ++ next.2.map UpstreamEffect.act).foldl isOpen (s.view .idle).live = next.1.live
  gains : (news ++ next.2.map UpstreamEffect.act).filterMap openedId = [] ∨
    (news ++ next.2.map UpstreamEffect.act).filterMap openedId = [s.opens] ∧
      s.opens < next.1.opens
  opens : s.opens ≤ next.1.opens

theorem linked_of_maintained {task : Task} (kept : (s.view task).Maintained next) :
    s.Linked next [] where
  detached := kept.detached
  live := by
    rw [List.nil_append, isOpen_acts]
    exact kept.live.symm
  gains := Or.inl (openedId_acts _)
  opens := kept.opens

theorem Advances.linked (advances : Advances cfg s e i job next news) (sound : Sound ms s) :
    s.Linked next news := by
  cases advances with
  | acquired here free h => exact linked_of_maintained (Client.request_kept h).maintained
  | @resumed _ _ r a _ here h =>
    have detached := sound.detached _ (List.mem_of_getElem? here) r rfl
    by_cases opened : a = .opened
    · subst opened
      have opens := Client.resume_opened detached h
      have shut : (s.view .idle).live = [] := opens.shut
      have live : next.1.live = [s.opens] := opens.live
      have more : next.1.opens = s.opens + 1 := opens.opens
      refine ⟨opens.detached, ?_, Or.inr ⟨?_, by omega⟩, by omega⟩
      · simp [opens.acts, opening, isOpen, shut, live]
      · simp [opens.acts, opening]
    · rw [opening, if_neg opened]
      exact linked_of_maintained (Client.resume_maintained detached opened h)

theorem sockets_snoc (m : Move Upstream UpstreamEvent UpstreamEffect) :
    sockets (ms ++ [m]) = m.emits.foldl isOpen (sockets ms) := by
  simp [sockets, List.foldl_append]

theorem opened_snoc (m : Move Upstream UpstreamEvent UpstreamEffect) :
    opened (ms ++ [m]) = opened ms ++ m.emits.filterMap openedId := by
  simp [opened]

/-- The ledger of connections goes on with the client. -/
theorem Linked.ledger (linked : s.Linked next news) (sound : Sound ms s)
    (governed : List GovernorEffect) (link : t.link = next.1.link)
    (opens : t.opens = next.1.opens)
    (emits : effects = news ++ next.2.map UpstreamEffect.act ++ governed.map .governed) :
    Upstream.sockets (ms ++ [⟨s, e, effects, t⟩]) = (t.view .idle).live ∧
      (∀ id ∈ opened (ms ++ [⟨s, e, effects, t⟩]), id < t.opens) ∧
      (opened (ms ++ [⟨s, e, effects, t⟩])).Nodup := by
  have live : (t.view .idle).live = next.1.live := by simp only [Client.live, view, link]
  have news_ : effects.filterMap openedId =
      (news ++ next.2.map UpstreamEffect.act).filterMap openedId := by
    rw [emits, List.filterMap_append, openedId_governed, List.append_nil]
  rw [sockets_snoc, opened_snoc, live, news_, opens]
  constructor
  · rw [emits, List.foldl_append, isOpen_governed, sound.sockets]
    exact linked.live
  · rcases linked.gains with none_ | ⟨one, less⟩
    · rw [none_, List.append_nil]
      exact ⟨fun id member => lt_of_lt_of_le (sound.fresh id member) linked.opens, sound.distinct⟩
    · rw [one]
      constructor
      · intro id member
        rcases List.mem_append.mp member with member | member
        · exact lt_of_lt_of_le (sound.fresh id member) linked.opens
        · rw [List.mem_singleton.mp member]
          exact less
      · refine List.nodup_append.mpr ⟨sound.distinct, List.nodup_singleton _, ?_⟩
        intro a old b new same
        rw [List.mem_singleton.mp new] at same
        exact absurd (sound.fresh a old) (by omega)

theorem Advances.here (advances : Advances cfg s e i job next news) :
    ∃ stage, s.calls[i]? = some ⟨job, stage⟩ := by
  cases advances with
  | acquired here _ _ | resumed here _ => exact ⟨_, here⟩

/-- A step that leaves the client alone keeps the ledger. -/
theorem governed_ledger (sound : Sound ms s) (effects : List GovernorEffect)
    (link : t.link = s.link) (opens : t.opens = s.opens) :
    sockets (ms ++ [⟨s, e, effects.map .governed, t⟩]) = (t.view .idle).live ∧
      (∀ id ∈ opened (ms ++ [⟨s, e, effects.map .governed, t⟩]), id < t.opens) ∧
      (opened (ms ++ [⟨s, e, effects.map .governed, t⟩])).Nodup := by
  have live : (t.view .idle).live = (s.view .idle).live := by simp only [Client.live, view, link]
  rw [sockets_snoc, opened_snoc, live, isOpen_governed, openedId_governed, List.append_nil, opens]
  exact ⟨sound.sockets, sound.fresh, sound.distinct⟩

theorem governed_goesOn {ge : GovernorEvent} (of : e.governed = some ge) (outcome : Outcome) :
    ge ≠ .done outcome := by
  rintro rfl
  cases e <;> simp [UpstreamEvent.governed] at of

theorem step_sound (sound : Sound ms s) (h : s.step cfg e = some (t, effects)) :
    Sound (ms ++ [⟨s, e, effects, t⟩]) t := by
  cases step_stepped h with
  | @governed e ge next of step =>
    obtain ⟨sockets, fresh, distinct⟩ := governed_ledger sound (e := e) (t := { s with
      governor := next.1
      calls := s.calls ++ (next.2.filterMap GovernorEffect.begunJob).map (⟨·, .waiting⟩) })
      next.2 rfl rfl
    refine ⟨?_, ?_, sockets, fresh, distinct⟩
    · have begins := Governor.step_begun step (governed_goesOn of)
      rw [begins, ← sound.working, List.map_append, List.map_map]
      exact congrArg _ (List.map_id _)
    · intro p member r stage
      rcases List.mem_append.mp member with old | new
      · exact sound.detached p old r stage
      · obtain ⟨job, -, rfl⟩ := List.mem_map.mp new
        cases stage
  | @goesOn e i job next news r advances running =>
    have linked := advances.linked sound
    obtain ⟨stage, here⟩ := advances.here
    obtain ⟨rfl, only⟩ := sound.calls_eq here
    obtain ⟨sockets, fresh, distinct⟩ := linked.ledger (e := e) (t := { s with
      link := next.1.link
      opens := next.1.opens
      calls := s.calls.set 0 ⟨job, .holding r⟩ }) sound [] rfl rfl (List.append_nil _).symm
    have working := sound.working
    refine ⟨?_, ?_, sockets, fresh, distinct⟩
    · simpa [only] using working
    · intro p member q same
      simp only [only, List.set_cons_zero, List.mem_singleton] at member
      subst member
      cases same
      intro q' same' at_
      cases same'
      exact linked.detached r running at_
  | @returns e i job next news frame result after advances ended step =>
    have linked := advances.linked sound
    obtain ⟨stage, here⟩ := advances.here
    obtain ⟨rfl, only⟩ := sound.calls_eq here
    obtain ⟨sockets, fresh, distinct⟩ := linked.ledger (e := e) (t :=
      ⟨after.1, next.1.link, next.1.opens, s.calls.eraseIdx 0⟩) sound after.2 rfl rfl
      (List.append_assoc _ _ _).symm
    obtain ⟨-, free, -⟩ := Governor.step_done step
    refine ⟨?_, ?_, sockets, fresh, distinct⟩
    · simp [only, free]
    · simp [only]
  | closed =>
    have kept := Client.close_kept (c := s.view .idle)
    obtain ⟨sockets, fresh, distinct⟩ := (linked_of_maintained kept.maintained).ledger
      (e := .closeLink) (t := { s with link := (s.view .idle).close.1.link }) sound [] rfl
      kept.opens.symm (List.append_nil _).symm
    refine ⟨sound.working, ?_, by simpa using sockets, by simpa using fresh,
      by simpa using distinct⟩
    intro p member r stage q same at_
    exact Client.drop_link _
  | @lost l linked up =>
    have live : (s.view .idle).live = [l.id] := by simp [Client.live, view, linked, up]
    refine ⟨sound.working, ?_, ?_, by simpa [opened_snoc, List.filterMap_cons] using sound.fresh,
      by simpa [opened_snoc, List.filterMap_cons] using sound.distinct⟩
    · intro p member r stage q same at_
      have gone := sound.detached p member r stage q same at_
      simp [view, linked] at gone
    · rw [sockets_snoc, sound.sockets, live]
      simp [isOpen, Client.live, view]

theorem Advances.news_quiet (advances : Advances cfg s e i job next news) :
    news.filterMap governedEffect = [] := by
  cases advances with
  | acquired _ _ _ => rfl
  | resumed _ _ =>
    unfold opening
    split <;> rfl

/-- What a step is to the governor: nothing, or one step of its own. -/
theorem step_governed (h : s.step cfg e = some (t, effects)) :
    (t.governor = s.governor ∧ effects.filterMap governedEffect = []) ∨
      ∃ ge, (∀ seq, ge = .cancel seq → e = .cancel seq) ∧
        s.governor.step ge = some (t.governor, effects.filterMap governedEffect) := by
  cases step_stepped h with
  | @governed e ge next of step =>
    refine Or.inr ⟨ge, ?_, by rw [governedEffect_governed]; exact step⟩
    rintro seq rfl
    cases e <;> simp_all [UpstreamEvent.governed]
  | goesOn advances _ =>
    refine Or.inl ⟨rfl, ?_⟩
    rw [List.filterMap_append, advances.news_quiet, governedEffect_acts, List.append_nil]
  | @returns e i job next news frame result after advances ended step =>
    refine Or.inr ⟨.done (job.op.outcome result), by simp, ?_⟩
    rw [List.filterMap_append, List.filterMap_append, advances.news_quiet, governedEffect_acts,
      governedEffect_governed]
    exact step
  | closed => exact Or.inl ⟨rfl, governedEffect_acts _⟩
  | lost _ _ => exact Or.inl ⟨rfl, rfl⟩

theorem run_sound (run : Run (step cfg) start ms s) : Sound ms s := by
  induction run with
  | nil => exact .start
  | snoc _ h ih => exact step_sound ih h

/-- In every run the machine sees at most one client, which runs at most one exchange. -/
theorem one_client (cfg : ClientConfig) (run : Run (step cfg) start ms s) : OneClient ms s := by
  have sound := run_sound run
  refine ⟨sound.distinct, ?_, ?_, ?_⟩
  · rw [sound.sockets]
    exact Client.live_length_le _
  · intro id member
    apply (open_or_closed [] (Or.inr member)).imp_left
    intro isOpen_
    rw [← sockets, sound.sockets] at isOpen_
    unfold Client.live at isOpen_
    split at isOpen_
    · rename_i l linked
      split at isOpen_
      · cases isOpen_
      · exact ⟨l, linked, (List.mem_singleton.mp isOpen_).symm⟩
    · cases isOpen_
  · exact (List.length_filter_le _ _).trans sound.calls_le

/-- A poll whose connection is closed before the greeting dials again, and opens a second one. -/
theorem one_client_after_close : ∃ ms s, Run (step .default) start ms s ∧
    opened ms = [0, 1] ∧ OneClient ms s := by
  have reached : (Runs.feed (step .default) start [.submit 10 (.read 0 1), .take, .throttled,
      .acquire 0, .resume 0 .opened, .closeLink, .resume 0 (.eof []), .resume 0 .done,
      .resume 0 .opened]).any (fun r => opened r.2 == [0, 1]) = true := by decide +kernel
  obtain ⟨ms, s, run, -, tested⟩ := Runs.feed_reaches reached
  exact ⟨ms, s, run, beq_iff_eq.mp tested, one_client .default run⟩

end Upstream

end R60V
