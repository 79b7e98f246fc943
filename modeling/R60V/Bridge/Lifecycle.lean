import R60V.Bridge.Upstream

/-! The life of the governor: `start`, and `stop`, which cancels the worker wherever it awaits
something, waits for its end and closes the client. A cancellation is thrown in where the task is
suspended. All of the client lets it through but `_drop`, which takes it for the end of its wait.
One `stop` at a time; nobody cancels that one. -/
namespace R60V

open Runs (Run Move Along outputs outputs_snoc along_snoc)

/-- `self._worker`. -/
inductive WorkerTask where
  | none
  | live
  -- `cancel()` has been called, and the task not been resumed since.
  | cancelling
  | done
  deriving DecidableEq

/-- What a `stop` awaits. -/
inductive Stopping where
  | idle
  | worker
  | closing
  deriving DecidableEq

structure Lifecycle where
  upstream : Upstream
  task : WorkerTask
  stopping : Stopping

inductive LifecycleEvent where
  | start
  | stop
  -- The worker is resumed with the cancellation.
  | interrupt
  -- `stop` is resumed by the end of the worker, or of the connection.
  | joined
  | hungUp
  | upstream (e : UpstreamEvent)

def LifecycleEvent.isStop : LifecycleEvent → Bool
  | .stop => true
  | .start | .interrupt | .joined | .hungUp | .upstream _ => false

inductive LifecycleEffect where
  | upstream (effect : UpstreamEffect)
  -- The worker ends, with the job that it held.
  | interrupted (held : Option Job)
  | swallowed
  | stopped

/-- The steps that the worker takes. -/
def UpstreamEvent.ofWorker : UpstreamEvent → Bool
  | .take | .throttled | .acquire _ | .resume _ _ => true
  | .submit _ _ | .cancel _ | .closeLink | .lost => false

/-- At the `wait_closed` of a `_drop`. -/
def Point.hangsUp : Point → Bool
  | .dropOld _ | .dropFailed _ => true
  | .opening _ | .greeting _ | .backingOff _ | .exchange _ _ _ => false

def Pending.hangsUp (p : Pending) : Bool :=
  match p.stage with
  | .waiting => false
  | .holding r => r.point.hangsUp

namespace Upstream

def hangsUp (s : Upstream) : Bool := s.calls.any Pending.hangsUp

/-- The cancellation goes through the client, which releases its lock, and ends the worker. -/
def abandon (s : Upstream) : Upstream :=
  { s with governor := { s.governor with worker := .getting }, calls := [] }

end Upstream

def WorkerTask.cancel : WorkerTask → WorkerTask
  | .live => .cancelling
  | task => task

namespace Lifecycle

def init : Lifecycle := ⟨.start, .none, .idle⟩

-- The last line of `stop`.
def close (l : Lifecycle) : Lifecycle × List LifecycleEffect :=
  let (client, acts, waits) := (l.upstream.view .idle).drop
  let upstream := { l.upstream with link := client.link }
  let acts := acts.map fun act => .upstream (.act act)
  if waits then ({ l with upstream, stopping := .closing }, acts)
  else ({ l with upstream, stopping := .idle }, acts ++ [.stopped])

def interrupt (cfg : ClientConfig) (l : Lifecycle) : Option (Lifecycle × List LifecycleEffect) :=
  if l.upstream.hangsUp then
    (l.upstream.step cfg (.resume (l.upstream.calls.findIdx Pending.hangsUp) .done)).map
      fun next => ({ l with upstream := next.1, task := .live },
        .swallowed :: next.2.map .upstream)
  else some ({ l with upstream := l.upstream.abandon, task := .done },
    [.interrupted l.upstream.governor.worker.job])

def step (cfg : ClientConfig) (l : Lifecycle) :
    LifecycleEvent → Option (Lifecycle × List LifecycleEffect)
  | .start => some (if l.task = .none then { l with task := .live } else l, [])
  | .stop =>
    if l.stopping ≠ .idle then none
    else if l.task = .none then some l.close
    else some ({ l with task := l.task.cancel, stopping := .worker }, [])
  | .interrupt => if l.task = .cancelling then l.interrupt cfg else none
  | .joined =>
    if l.stopping = .worker ∧ l.task = .done then some ({ l with task := .none }.close) else none
  | .hungUp =>
    if l.stopping = .closing then some ({ l with stopping := .idle }, [.stopped]) else none
  | .upstream e =>
    if e.ofWorker = true ∧ l.task ≠ .live then none
    else (l.upstream.step cfg e).map fun next =>
      ({ l with upstream := next.1 }, next.2.map .upstream)

/-- What a step can do, with the guard that lets it. -/
inductive Stepped (cfg : ClientConfig) (l : Lifecycle) :
    LifecycleEvent → Lifecycle → List LifecycleEffect → Prop where
  | started (unstarted : l.task = .none) : Stepped cfg l .start { l with task := .live } []
  | running (task : l.task ≠ .none) : Stepped cfg l .start l []
  | closes {t : Lifecycle} {effects : List LifecycleEffect} (free : l.stopping = .idle)
      (unstarted : l.task = .none) (h : l.close = (t, effects)) : Stepped cfg l .stop t effects
  | cancels (free : l.stopping = .idle) (task : l.task ≠ .none) :
      Stepped cfg l .stop { l with task := l.task.cancel, stopping := .worker } []
  | interrupted (asked : l.task = .cancelling) (through : l.upstream.hangsUp = false) :
      Stepped cfg l .interrupt { l with upstream := l.upstream.abandon, task := .done }
        [.interrupted l.upstream.governor.worker.job]
  | swallowed {next : Upstream × List UpstreamEffect} (asked : l.task = .cancelling)
      (kept : l.upstream.hangsUp = true)
      (h : l.upstream.step cfg
        (.resume (l.upstream.calls.findIdx Pending.hangsUp) .done) = some next) :
      Stepped cfg l .interrupt { l with upstream := next.1, task := .live }
        (.swallowed :: next.2.map .upstream)
  | joined {t : Lifecycle} {effects : List LifecycleEffect} (awaits : l.stopping = .worker)
      (ended : l.task = .done) (h : { l with task := .none }.close = (t, effects)) :
      Stepped cfg l .joined t effects
  | hungUp (closing : l.stopping = .closing) :
      Stepped cfg l .hungUp { l with stopping := .idle } [.stopped]
  | works {e : UpstreamEvent} {next : Upstream × List UpstreamEffect} (live : l.task = .live)
      (own : e.ofWorker = true) (h : l.upstream.step cfg e = some next) :
      Stepped cfg l (.upstream e) { l with upstream := next.1 } (next.2.map .upstream)
  | aside {e : UpstreamEvent} {next : Upstream × List UpstreamEffect}
      (others : e.ofWorker = false) (h : l.upstream.step cfg e = some next) :
      Stepped cfg l (.upstream e) { l with upstream := next.1 } (next.2.map .upstream)

variable {cfg : ClientConfig} {l t : Lifecycle} {e : LifecycleEvent}
  {effects : List LifecycleEffect}

theorem step_stepped (h : l.step cfg e = some (t, effects)) : Stepped cfg l e t effects := by
  cases e with
  | start =>
    simp only [step] at h
    split at h
    · cases h
      exact .started ‹_›
    · cases h
      exact .running ‹_›
  | stop =>
    simp only [step] at h
    split at h
    · cases h
    · rename_i free
      split at h
      · exact .closes (not_not.mp free) ‹_› (Option.some.inj h)
      · cases h
        exact .cancels (not_not.mp free) ‹_›
  | interrupt =>
    simp only [step, interrupt] at h
    split at h
    · split at h
      · obtain ⟨next, resumes, same⟩ := Option.map_eq_some_iff.mp h
        cases same
        exact .swallowed ‹_› ‹_› resumes
      · rename_i through
        cases h
        exact .interrupted ‹_› (by simpa using through)
    · cases h
  | joined =>
    simp only [step] at h
    split at h
    · rename_i both
      exact .joined both.1 both.2 (Option.some.inj h)
    · cases h
  | hungUp =>
    simp only [step] at h
    split at h
    · cases h
      exact .hungUp ‹_›
    · cases h
  | upstream e =>
    simp only [step] at h
    split at h
    · cases h
    · rename_i may
      obtain ⟨next, steps, same⟩ := Option.map_eq_some_iff.mp h
      cases same
      cases own : e.ofWorker with
      | false => exact .aside own steps
      | true =>
        rw [own] at may
        exact .works (by simpa using may) own steps

end Lifecycle

namespace Governor

/-- Where every job is, and what every future is, with the jobs that were lost with their worker. -/
structure Accounts (submitted begun : List Job) (ended : List (Job × Outcome)) (lost : List Job)
    (g : Governor) : Prop where
  numbers : submitted.map Job.seq = List.range g.counter
  slots : g.futures.length = g.counter
  conserved : submitted.Perm (ended.map Prod.fst ++ lost ++ g.worker.job.toList ++ g.queue)
  once : (begun.map Job.seq).Nodup
  past : ∀ job ∈ begun, job ∈ ended.map Prod.fst ∨ job ∈ lost ∨ g.worker.executed = some job
  resolved : ∀ seq outcome, g.futures[seq]? = some (.resolved outcome) →
    ∃ job, (job, outcome) ∈ ended ∧ job.seq = seq
  own : ∀ r ∈ ended, g.futures[r.1.seq]? = some (.resolved r.2) ∨
    g.futures[r.1.seq]? = some .cancelled

namespace Accounts

variable {submitted begun lost : List Job} {ended : List (Job × Outcome)} {g t : Governor}
  {e : GovernorEvent} {effects : List GovernorEffect} {job : Job}

theorem start : Accounts [] [] [] [] .start where
  numbers := rfl
  slots := rfl
  conserved := .nil
  once := .nil
  past := by simp
  resolved := by simp [Governor.start]
  own := by simp

theorem apart (kept : Accounts submitted begun ended lost g) :
    ((ended.map Prod.fst ++ lost ++ g.worker.job.toList ++ g.queue).map Job.seq).Nodup := by
  have numbered : (submitted.map Job.seq).Nodup := by
    rw [kept.numbers]
    exact List.nodup_range
  exact (kept.conserved.map Job.seq).nodup_iff.mp numbered

theorem below (kept : Accounts submitted begun ended lost g)
    (listed : job ∈ ended.map Prod.fst ++ lost ++ g.worker.job.toList ++ g.queue) :
    job.seq < g.counter := by
  have numbered : job.seq ∈ submitted.map Job.seq :=
    List.mem_map_of_mem (kept.conserved.mem_iff.mpr listed)
  rw [kept.numbers] at numbered
  exact List.mem_range.mp numbered

/-- The worker's job is none of those that are over. -/
theorem held_apart (kept : Accounts submitted begun ended lost g)
    (held : g.worker.job = some job) {other : Job}
    (listed : other ∈ ended.map Prod.fst ++ lost) : other.seq ≠ job.seq := by
  have apart := kept.apart
  rw [held, List.append_assoc, List.map_append, List.nodup_append] at apart
  exact apart.2.2 _ (List.mem_map_of_mem listed) _ (by simp)

theorem lost_apart (kept : Accounts submitted begun ended lost g) (member : job ∈ lost)
    {other : Job} (listed : other ∈ ended.map Prod.fst) : other.seq ≠ job.seq := by
  have apart := kept.apart
  rw [List.append_assoc, List.append_assoc, List.map_append, List.nodup_append] at apart
  exact apart.2.2 _ (List.mem_map_of_mem listed) _
    (List.mem_map_of_mem (List.mem_append_left _ member))

theorem unanswered (kept : Accounts submitted begun ended lost g) (member : job ∈ lost)
    (outcome : Outcome) : g.futures[job.seq]? ≠ some (.resolved outcome) := by
  intro answered
  obtain ⟨other, listed, same⟩ := kept.resolved _ _ answered
  exact kept.lost_apart member (List.mem_map_of_mem listed) same

/-- The worker's job is to be answered, unless its caller has given up. -/
theorem held_future (kept : Accounts submitted begun ended lost g)
    (held : g.worker.job = some job) :
    g.futures[job.seq]? = some .pending ∨ g.futures[job.seq]? = some .cancelled := by
  have inside : job.seq < g.futures.length := by
    rw [kept.slots]
    exact kept.below (List.mem_append_left _ (List.mem_append_right _ (by rw [held]; simp)))
  have future := List.getElem?_eq_getElem inside
  cases state : g.futures[job.seq] with
  | pending => exact Or.inl (future.trans (congrArg some state))
  | cancelled => exact Or.inr (future.trans (congrArg some state))
  | resolved outcome =>
    rw [state] at future
    obtain ⟨other, listed, same⟩ := kept.resolved _ _ future
    exact absurd same (kept.held_apart held
      (List.mem_append_left _ (List.mem_map_of_mem listed)))

/-- The job that the worker held goes to those that have ended. -/
theorem moved (before lost : List Job) (job : Job) (queue : List Job) :
    (before ++ lost ++ [job] ++ queue).Perm (before ++ [job] ++ lost ++ [] ++ queue) := by
  simp only [List.append_assoc, List.nil_append]
  exact (List.perm_append_comm_assoc lost [job] queue).append_left before

theorem begun_apart (kept : Accounts submitted begun ended lost g)
    (waits : g.worker = .throttling job) : job.seq ∉ begun.map Job.seq := by
  intro again
  obtain ⟨other, listed, same⟩ := List.mem_map.mp again
  refine kept.held_apart (by rw [waits]; rfl) ?_ same
  rcases kept.past other listed with ended_ | lost_ | executed
  · exact List.mem_append_left _ ended_
  · exact List.mem_append_right _ lost_
  · rw [waits] at executed
    cases executed

/-- The operation that the worker executes ends, and its caller has the outcome or is gone. -/
theorem finished (kept : Accounts submitted begun ended lost g)
    (runs : g.worker = .executing job) {futures : List FutureState} {outcome : Outcome}
    (slots : futures.length = g.counter)
    (elsewhere : ∀ seq, seq ≠ job.seq → futures[seq]? = g.futures[seq]?)
    (answered : futures[job.seq]? = some (.resolved outcome) ∨
      futures[job.seq]? = some .cancelled) :
    Accounts submitted begun (ended ++ [(job, outcome)]) lost
      { g with worker := .getting, futures } := by
  have held : g.worker.job = some job := by rw [runs]; rfl
  have conserved := kept.conserved
  rw [held] at conserved
  refine ⟨kept.numbers, slots, ?_, kept.once, ?_, ?_, ?_⟩
  · simpa using conserved.trans (moved (ended.map Prod.fst) lost job g.queue)
  · intro other member
    rw [List.map_append]
    rcases kept.past other member with ended_ | lost_ | executed
    · exact Or.inl (List.mem_append_left _ ended_)
    · exact Or.inr (Or.inl lost_)
    · rw [runs] at executed
      cases executed
      exact Or.inl (List.mem_append_right _ (List.mem_singleton_self _))
  · intro seq answer here
    by_cases same : seq = job.seq
    · subst same
      rcases answered with answered | answered
      · cases here.symm.trans answered
        exact ⟨job, by simp, rfl⟩
      · cases here.symm.trans answered
    · rw [elsewhere seq same] at here
      obtain ⟨other, listed, number⟩ := kept.resolved seq answer here
      exact ⟨other, List.mem_append_left _ listed, number⟩
  · intro r member
    rcases List.mem_append.mp member with member | member
    · have other := kept.held_apart held (List.mem_append_left _ (List.mem_map_of_mem member))
      rw [elsewhere _ other]
      exact kept.own r member
    · rw [List.mem_singleton.mp member]
      exact answered

/-- The worker ends by a cancellation, and its job is lost. -/
theorem interrupted (kept : Accounts submitted begun ended lost g) :
    Accounts submitted begun ended (lost ++ g.worker.job.toList)
      { g with worker := .getting } := by
  refine ⟨kept.numbers, kept.slots, ?_, kept.once, ?_, kept.resolved, kept.own⟩
  · simpa using kept.conserved
  · intro other member
    rcases kept.past other member with ended_ | lost_ | executed
    · exact Or.inl ended_
    · exact Or.inr (Or.inl (List.mem_append_left _ lost_))
    · refine Or.inr (Or.inl (List.mem_append_right _ ?_))
      cases worker : g.worker with
      | executing job =>
        rw [worker] at executed
        cases executed
        exact List.mem_singleton_self _
      | getting | throttling _ =>
        rw [worker] at executed
        cases executed

theorem submit (kept : Accounts submitted begun ended lost g) (priority : Int) (op : Call) :
    Accounts (submitted ++ [⟨priority, g.counter, op⟩]) begun ended lost { g with
      queue := g.queue ++ [⟨priority, g.counter, op⟩]
      counter := g.counter + 1
      futures := g.futures ++ [.pending] } := by
  refine ⟨?_, by simp [kept.slots], ?_, kept.once, kept.past, ?_, ?_⟩
  · simp [kept.numbers, List.range_succ]
  · simpa using kept.conserved.append_right [⟨priority, g.counter, op⟩]
  · intro seq outcome answered
    rw [List.getElem?_append] at answered
    split at answered
    · exact kept.resolved seq outcome answered
    · cases new : seq - g.futures.length with
      | zero => simp [new] at answered
      | succ n => simp [new] at answered
  · intro r member
    have inside : r.1.seq < g.futures.length := by
      rcases kept.own r member with future | future <;>
        exact (List.getElem?_eq_some_iff.mp future).1
    rw [List.getElem?_append_left inside]
    exact kept.own r member

/-- A caller gives up. -/
theorem cancel (kept : Accounts submitted begun ended lost g) {seq : Nat}
    (pending : g.futures[seq]? = some .pending) : Accounts submitted begun ended lost
      { g with futures := g.futures.set seq .cancelled } := by
  have inside := (List.getElem?_eq_some_iff.mp pending).1
  refine ⟨kept.numbers, by simp [kept.slots], kept.conserved, kept.once, kept.past, ?_, ?_⟩
  · intro other outcome answered
    by_cases same : seq = other
    · subst same
      rw [List.getElem?_set_self inside] at answered
      cases answered
    · rw [List.getElem?_set_ne same] at answered
      exact kept.resolved other outcome answered
  · intro r member
    by_cases same : seq = r.1.seq
    · right
      rw [← same, List.getElem?_set_self inside]
    · rw [List.getElem?_set_ne same]
      exact kept.own r member

theorem take (kept : Accounts submitted begun ended lost g) (free : g.worker = .getting)
    (first : least g.queue = some job) : Accounts submitted begun ended lost
      { g with queue := g.queue.erase job, worker := .throttling job } := by
  have ⟨numbers, slots, conserved, once, past, resolved, own⟩ := kept
  rw [free] at conserved past
  refine ⟨numbers, slots, ?_, once, past, resolved, own⟩
  have front : g.queue.Perm (job :: g.queue.erase job) := List.perm_cons_erase (least_mem first)
  simpa using conserved.trans (front.append_left (ended.map Prod.fst ++ lost ++ []))

/-- The throttle has slept, and the worker executes its job. -/
theorem begins (kept : Accounts submitted begun ended lost g)
    (waits : g.worker = .throttling job) : Accounts submitted (begun ++ [job]) ended lost
      { g with worker := .executing job } := by
  have conserved := kept.conserved
  rw [waits] at conserved
  refine ⟨kept.numbers, kept.slots, conserved, ?_, ?_, kept.resolved, kept.own⟩
  · rw [List.map_append]
    exact List.nodup_append.mpr ⟨kept.once, List.nodup_singleton _, fun a old b new same =>
      kept.begun_apart waits (List.mem_singleton.mp new ▸ same ▸ old)⟩
  · intro other member
    rcases List.mem_append.mp member with member | member
    · rcases kept.past other member with ended_ | lost_ | executed
      · exact Or.inl ended_
      · exact Or.inr (Or.inl lost_)
      · rw [waits] at executed
        cases executed
    · rw [List.mem_singleton.mp member]
      exact Or.inr (Or.inr rfl)

-- A filter over the effects of one step reduces.
attribute [local simp] List.filterMap_cons

/-- The governor's own steps. -/
theorem step (kept : Accounts submitted begun ended lost g)
    (h : g.step e = some (t, effects)) :
    Accounts (submitted ++ effects.filterMap GovernorEffect.submittedJob)
      (begun ++ effects.filterMap GovernorEffect.begunJob)
      (ended ++ effects.filterMap GovernorEffect.endedJob) lost t := by
  cases step_stepped h with
  | @submit priority op => simpa using kept.submit priority op
  | cancel pending => simpa using kept.cancel pending
  | take free first => simpa using kept.take free first
  | throttled waits => simpa using kept.begins waits
  | @settled job outcome runs pending =>
    have inside := (List.getElem?_eq_some_iff.mp pending).1
    have ends : Accounts submitted begun (ended ++ [(job, outcome)]) lost { g with
        worker := .getting
        futures := g.futures.set job.seq (.resolved outcome) } :=
      kept.finished runs (by simp [kept.slots]) (fun seq other => List.getElem?_set_ne other.symm)
        (Or.inl (List.getElem?_set_self inside))
    simpa using ends
  | @abandoned job outcome runs gone =>
    have held : g.worker.job = some job := by rw [runs]; rfl
    have ends : Accounts submitted begun (ended ++ [(job, outcome)]) lost
        { g with worker := .getting, futures := g.futures } :=
      kept.finished runs kept.slots (fun _ _ => rfl)
        (Or.inr ((kept.held_future held).resolve_left gone))
    simpa using ends

end Accounts

end Governor

/-- What only the worker does. -/
@[simp] def UpstreamEffect.busy : UpstreamEffect → Bool
  | .act (.dial _) | .act (.send _ _) | .opened _ => true
  | .act (.hangUp _) | .broke _ | .governed (.submitted _) => false
  | .governed (.taken _) | .governed (.began _) => true
  | .governed (.ended _ _) | .governed (.resolved _ _) => true

/-- A `_drop` hangs up, and does no more. -/
theorem Client.drop_idle (c : Client) : ∀ act ∈ c.drop.2.1,
    (UpstreamEffect.act act).busy = false := by
  unfold drop
  split
  · simp
  · split <;> simp

namespace Upstream

@[simp] def submittedBy (us : List UpstreamEffect) : List Job :=
  (us.filterMap governedEffect).filterMap GovernorEffect.submittedJob

@[simp] def begunBy (us : List UpstreamEffect) : List Job :=
  (us.filterMap governedEffect).filterMap GovernorEffect.begunJob

@[simp] def endedBy (us : List UpstreamEffect) : List (Job × Outcome) :=
  (us.filterMap governedEffect).filterMap GovernorEffect.endedJob

/-- The books of what has happened upstream. -/
structure Ledger (us : List UpstreamEffect) (lost : List Job) (s : Upstream) : Prop where
  accounts : s.governor.Accounts (submittedBy us) (begunBy us) (endedBy us) lost
  sound : ∃ ms, outputs ms = us ∧ Sound ms s

variable {cfg : ClientConfig} {s t : Upstream} {e : UpstreamEvent}
  {us effects : List UpstreamEffect} {lost : List Job}

theorem Ledger.start : Ledger [] [] .start := ⟨.start, [], rfl, .start⟩

theorem Ledger.step (ledger : Ledger us lost s) (h : s.step cfg e = some (t, effects)) :
    Ledger (us ++ effects) lost t := by
  obtain ⟨ms, same, sound⟩ := ledger.sound
  refine ⟨?_, _, by rw [outputs_snoc, same], step_sound sound h⟩
  have accounts := ledger.accounts
  simp only [submittedBy, begunBy, endedBy, List.filterMap_append]
  rcases step_governed h with ⟨alone, quiet⟩ | ⟨ge, -, governs⟩
  · simpa [alone, quiet] using accounts
  · exact accounts.step governs

theorem Ledger.abandon (ledger : Ledger us lost s) :
    Ledger us (lost ++ s.governor.worker.job.toList) s.abandon := by
  obtain ⟨ms, rfl, sound⟩ := ledger.sound
  refine ⟨ledger.accounts.interrupted, ms, rfl, ?_⟩
  exact ⟨rfl, by simp [Upstream.abandon], sound.sockets, sound.fresh, sound.distinct⟩

theorem Ledger.sockets_eq (ledger : Ledger us lost s) :
    us.foldl isOpen [] = (s.view .idle).live := by
  obtain ⟨ms, rfl, sound⟩ := ledger.sound
  exact sound.sockets

/-- A step of the others leaves the worker where it is. -/
theorem step_aside (others : e.ofWorker = false) (h : s.step cfg e = some (t, effects)) :
    t.calls = s.calls ∧ t.governor.worker = s.governor.worker ∧
      (s.link = none → t.link = none) ∧ ∀ x ∈ effects, x.busy = false := by
  cases e with
  | submit priority op =>
    rw [step_submit] at h
    cases h
    exact ⟨rfl, rfl, id, by simp⟩
  | cancel seq =>
    obtain ⟨⟨g, emits⟩, steps, same⟩ := Option.map_eq_some_iff.mp h
    cases same
    cases Governor.step_stepped steps with
    | cancel _ => exact ⟨List.append_nil _, rfl, id, by simp⟩
  | closeLink =>
    cases h
    refine ⟨rfl, rfl, fun _ => Client.drop_link _, fun x member => ?_⟩
    obtain ⟨act, dropped, rfl⟩ := List.mem_map.mp member
    exact Client.drop_idle _ act dropped
  | lost =>
    simp only [Upstream.step] at h
    split at h
    · rename_i l linked
      split at h
      · cases h
      · cases h
        exact ⟨rfl, rfl, fun gone => by simp [linked] at gone, by simp⟩
    · cases h
  | take | throttled | acquire _ | resume _ _ => cases others

end Upstream

namespace Lifecycle

abbrev Trace := List (Move Lifecycle LifecycleEvent LifecycleEffect)

@[simp] def upstreamEffect : LifecycleEffect → Option UpstreamEffect
  | .upstream effect => some effect
  | .interrupted _ | .swallowed | .stopped => none

@[simp] def lostJob : LifecycleEffect → Option Job
  | .interrupted held => held
  | .upstream _ | .swallowed | .stopped => none

@[simp] def busy : LifecycleEffect → Bool
  | .upstream effect => effect.busy
  | .interrupted _ | .swallowed | .stopped => false

def upstreamOutputs (ms : Trace) : List UpstreamEffect := (outputs ms).filterMap upstreamEffect

def submitted (ms : Trace) : List Job := Upstream.submittedBy (upstreamOutputs ms)
def begun (ms : Trace) : List Job := Upstream.begunBy (upstreamOutputs ms)
def ended (ms : Trace) : List (Job × Outcome) := Upstream.endedBy (upstreamOutputs ms)
def lost (ms : Trace) : List Job := (outputs ms).filterMap lostJob

def sockets (ms : Trace) : List Nat := (upstreamOutputs ms).foldl Upstream.isOpen []

def stops (ms : Trace) : Nat := ms.countP fun m => m.event.isStop

/-- There is no worker, or it has ended. -/
def Unmanned (l : Lifecycle) : Prop := l.task = .none ∨ l.task = .done

/-- The `stop` that is under way is sure to return: its cancellation has got through, or will. -/
def Returning (l : Lifecycle) : Prop :=
  l.stopping = .closing ∨ l.stopping = .worker ∧
    (l.task = .done ∨ l.task = .cancelling ∧ l.upstream.hangsUp = false)

/-- The cancellation was swallowed, or will be. -/
def Stuck (l : Lifecycle) : Prop :=
  l.stopping = .worker ∧ (l.task = .live ∨ l.task = .cancelling ∧ l.upstream.hangsUp = true)

/-- What the last line of `stop` does. -/
structure Closes (cfg : ClientConfig) (l t : Lifecycle) (effects : List LifecycleEffect) :
    Prop where
  closeLink : ∃ acts, l.upstream.step cfg .closeLink = some (t.upstream, acts) ∧
    effects.filterMap upstreamEffect = acts
  task : t.task = l.task
  gone : t.upstream.link = none
  losesNone : effects.filterMap lostJob = []
  quiet : ∀ x ∈ effects, busy x = false
  returns : .stopped ∈ effects ∨ t.stopping = .closing
  leaves : t.stopping ≠ .worker

variable {cfg : ClientConfig} {l t : Lifecycle} {e : LifecycleEvent}
  {effects : List LifecycleEffect} {ms : Trace}

theorem close_closes (cfg : ClientConfig) (h : l.close = (t, effects)) :
    Closes cfg l t effects := by
  have quiet := Client.drop_idle (l.upstream.view .idle)
  have gone := Client.drop_link (l.upstream.view .idle)
  unfold close at h
  dsimp only at h
  generalize dropped : (l.upstream.view .idle).drop = d at h quiet gone
  obtain ⟨client, acts, waits⟩ := d
  have closeLink : l.upstream.step cfg .closeLink = some
      ({ l.upstream with link := client.link }, acts.map .act) := by
    simp only [Upstream.step, Client.close, dropped]
  have shown : (acts.map fun act => LifecycleEffect.upstream (.act act)).filterMap
      upstreamEffect = acts.map .act := by
    rw [List.filterMap_map]
    exact congrFun List.filterMap_eq_map acts
  have none_ : (acts.map fun act => LifecycleEffect.upstream (.act act)).filterMap
      lostJob = [] := Runs.filterMap_silent (fun _ => rfl) acts
  have still : ∀ x ∈ acts.map fun act => LifecycleEffect.upstream (.act act),
      busy x = false := by
    simpa using quiet
  cases waits with
  | true =>
    cases h
    exact ⟨⟨_, closeLink, shown⟩, rfl, gone, none_, still, Or.inr rfl, by simp⟩
  | false =>
    cases h
    refine ⟨⟨_, closeLink, by rw [List.filterMap_append, shown]; exact List.append_nil _⟩, rfl,
      gone, by rw [List.filterMap_append, none_]; rfl, ?_, Or.inl (by simp), by simp⟩
    intro x member
    rcases List.mem_append.mp member with member | member
    · exact still x member
    · rw [List.mem_singleton.mp member]
      rfl

/-- What a run keeps. -/
structure Kept (ms : Trace) (l : Lifecycle) : Prop where
  ledger : Upstream.Ledger (upstreamOutputs ms) (lost ms) l.upstream
  idle : l.Unmanned → l.upstream.governor.worker = .getting
  alone : l.task = .none → l.upstream.link = none
  few : (lost ms).length + (if l.task = .cancelling then 1 else 0) ≤ stops ms
  awaits : l.stopping = .worker → l.task ≠ .none

theorem Kept.init : Kept [] .init where
  ledger := .start
  idle _ := rfl
  alone _ := rfl
  few := Nat.le_refl _
  awaits := by simp [Lifecycle.init]

section Snoc

variable (ms : Trace) (m : Move Lifecycle LifecycleEvent LifecycleEffect)

@[simp] theorem upstreamOutputs_snoc : upstreamOutputs (ms ++ [m]) =
    upstreamOutputs ms ++ m.emits.filterMap upstreamEffect := by simp [upstreamOutputs]

@[simp] theorem lost_snoc : lost (ms ++ [m]) = lost ms ++ m.emits.filterMap lostJob := by
  simp [lost]

@[simp] theorem stops_snoc : stops (ms ++ [m]) = stops ms + m.event.isStop.toNat := by
  cases stop : m.event.isStop <;> simp [stops, List.countP_append, stop]

end Snoc

theorem shown (us : List UpstreamEffect) :
    (us.map LifecycleEffect.upstream).filterMap upstreamEffect = us := by
  rw [List.filterMap_map]
  exact List.filterMap_some

theorem loses_none (us : List UpstreamEffect) :
    (us.map LifecycleEffect.upstream).filterMap lostJob = [] :=
  Runs.filterMap_silent (fun _ => rfl) us

theorem step_ledger (ledger : Upstream.Ledger (upstreamOutputs ms) (lost ms) l.upstream)
    (h : Stepped cfg l e t effects) :
    Upstream.Ledger (upstreamOutputs ms ++ effects.filterMap upstreamEffect)
      (lost ms ++ effects.filterMap lostJob) t.upstream := by
  cases h with
  | started _ | running _ | cancels _ _ => simpa using ledger
  | hungUp _ => simpa [List.filterMap_cons] using ledger
  | closes _ _ closed =>
    have closes := close_closes cfg closed
    obtain ⟨acts, link, same⟩ := closes.closeLink
    rw [same, closes.losesNone, List.append_nil]
    exact ledger.step link
  | joined _ _ closed =>
    have closes := close_closes cfg closed
    obtain ⟨acts, link, same⟩ := closes.closeLink
    rw [same, closes.losesNone, List.append_nil]
    exact ledger.step link
  | interrupted _ _ =>
    have held : [LifecycleEffect.interrupted l.upstream.governor.worker.job].filterMap lostJob =
        l.upstream.governor.worker.job.toList := by
      cases l.upstream.governor.worker.job <;> rfl
    have silent : [LifecycleEffect.interrupted l.upstream.governor.worker.job].filterMap
        upstreamEffect = [] := rfl
    rw [held, silent, List.append_nil]
    exact ledger.abandon
  | swallowed _ _ steps =>
    simp only [List.filterMap_cons, upstreamEffect, lostJob, shown, loses_none, List.append_nil]
    exact ledger.step steps
  | works _ _ steps | aside _ steps =>
    simp only [shown, loses_none, List.append_nil]
    exact ledger.step steps

theorem Closes.worker (closes : Closes cfg l t effects) :
    t.upstream.governor.worker = l.upstream.governor.worker := by
  obtain ⟨acts, link, -⟩ := closes.closeLink
  exact (Upstream.step_aside rfl link).2.1

theorem cancel_eq_none {task : WorkerTask} : task.cancel = .none ↔ task = .none := by
  cases task <;> simp [WorkerTask.cancel]

theorem cancel_eq_done {task : WorkerTask} : task.cancel = .done ↔ task = .done := by
  cases task <;> simp [WorkerTask.cancel]

theorem step_idle (kept : Kept ms l) (h : Stepped cfg l e t effects) (unmanned : t.Unmanned) :
    t.upstream.governor.worker = .getting := by
  cases h with
  | started _ | swallowed _ _ _ => rcases unmanned with task | task <;> cases task
  | running _ | hungUp _ => exact kept.idle unmanned
  | closes _ unstarted closed =>
    rw [(close_closes cfg closed).worker]
    exact kept.idle (Or.inl unstarted)
  | cancels _ _ => exact kept.idle (unmanned.imp cancel_eq_none.mp cancel_eq_done.mp)
  | interrupted _ _ => rfl
  | joined _ ended closed =>
    exact (close_closes cfg closed).worker.trans (kept.idle (Or.inr ended))
  | works live _ _ => rcases unmanned with task | task <;> cases live.symm.trans task
  | aside others steps =>
    rw [(Upstream.step_aside others steps).2.1]
    exact kept.idle unmanned

theorem step_alone (kept : Kept ms l) (h : Stepped cfg l e t effects) (task : t.task = .none) :
    t.upstream.link = none := by
  cases h with
  | started _ | swallowed _ _ _ | interrupted _ _ => cases task
  | running _ | hungUp _ => exact kept.alone task
  | closes _ _ closed | joined _ _ closed => exact (close_closes cfg closed).gone
  | cancels _ started => exact absurd (cancel_eq_none.mp task) started
  | works live _ _ => cases live.symm.trans task
  | aside others steps => exact (Upstream.step_aside others steps).2.2.1 (kept.alone task)

theorem step_few (kept : Kept ms l) (h : Stepped cfg l e t effects) :
    (lost ms ++ effects.filterMap lostJob).length + (if t.task = .cancelling then 1 else 0) ≤
      stops ms + e.isStop.toNat := by
  have few := kept.few
  rw [List.length_append]
  cases h with
  | started _ | swallowed _ _ _ =>
    simp only [List.filterMap_cons, lostJob, loses_none, List.filterMap_nil, List.length_nil]
    simp only [reduceCtorEq, if_false]
    omega
  | running _ => simpa [LifecycleEvent.isStop] using few
  | hungUp _ => simpa [LifecycleEvent.isStop, List.filterMap_cons] using few
  | closes _ unstarted closed =>
    have closes := close_closes cfg closed
    rw [closes.losesNone, closes.task]
    exact few.trans (Nat.le_add_right _ _)
  | cancels _ _ =>
    have most : (if l.task.cancel = .cancelling then 1 else 0) ≤ 1 := by split <;> omega
    simp only [List.filterMap_nil, List.length_nil, LifecycleEvent.isStop, Bool.toNat_true]
    omega
  | interrupted asked _ =>
    rw [if_pos asked] at few
    have one : ([LifecycleEffect.interrupted l.upstream.governor.worker.job].filterMap
        lostJob).length ≤ 1 := List.length_filterMap_le _ _
    simp only [reduceCtorEq, if_false]
    omega
  | joined _ ended closed =>
    have closes := close_closes cfg closed
    rw [closes.losesNone, closes.task]
    simp only [List.length_nil, reduceCtorEq, if_false]
    omega
  | works _ _ _ | aside _ _ =>
    rw [loses_none]
    exact few.trans (Nat.le_add_right _ _)

theorem step_awaits (kept : Kept ms l) (h : Stepped cfg l e t effects)
    (awaits : t.stopping = .worker) : t.task ≠ .none := by
  cases h with
  | started _ | swallowed _ _ _ | interrupted _ _ => simp
  | running _ | works _ _ _ | aside _ _ => exact kept.awaits awaits
  | closes _ _ closed | joined _ _ closed => exact absurd awaits (close_closes cfg closed).leaves
  | cancels _ started => exact cancel_eq_none.not.mpr started
  | hungUp _ => cases awaits

theorem step_kept (kept : Kept ms l) (h : l.step cfg e = some (t, effects)) :
    Kept (ms ++ [⟨l, e, effects, t⟩]) t := by
  have stepped := step_stepped h
  refine ⟨?_, step_idle kept stepped, step_alone kept stepped, ?_, step_awaits kept stepped⟩
  · simpa using step_ledger kept.ledger stepped
  · rw [lost_snoc, stops_snoc]
    exact step_few kept stepped

theorem run_kept (run : Run (step cfg) init ms l) : Kept ms l := by
  induction run with
  | nil => exact .init
  | snoc _ h ih => exact step_kept ih h

/-- Without a worker nothing is taken, begun, dialled or written. -/
theorem step_rest (unmanned : l.Unmanned) (h : Stepped cfg l e t effects) :
    ∀ x ∈ effects, busy x = false := by
  cases h with
  | started _ | running _ | cancels _ _ => simp
  | hungUp _ | interrupted _ _ => simp
  | closes _ _ closed | joined _ _ closed => exact (close_closes cfg closed).quiet
  | swallowed asked _ _ => rcases unmanned with task | task <;> cases asked.symm.trans task
  | works live _ _ => rcases unmanned with task | task <;> cases live.symm.trans task
  | aside others steps =>
    intro x member
    obtain ⟨effect, emitted, rfl⟩ := List.mem_map.mp member
    exact (Upstream.step_aside others steps).2.2.2 effect emitted

theorem hangsUp_aside {e : UpstreamEvent} {next : Upstream × List UpstreamEffect}
    (others : e.ofWorker = false) (h : l.upstream.step cfg e = some next) :
    next.1.hangsUp = l.upstream.hangsUp := by
  rw [Upstream.hangsUp, (Upstream.step_aside others h).1, Upstream.hangsUp]

theorem Returning.closing (returning : l.Returning) (running : l.task ≠ .done)
    (unasked : l.task ≠ .cancelling) : l.stopping = .closing := by
  rcases returning with closing | ⟨-, task | ⟨task, -⟩⟩
  · exact closing
  · exact absurd task running
  · exact absurd task unasked

theorem Stuck.manned (stuck : l.Stuck) : ¬ l.Unmanned := by
  obtain ⟨-, task | ⟨task, -⟩⟩ := stuck <;> simp [Unmanned, task]

/-- Nobody keeps a `stop` from returning whose cancellation gets through. -/
theorem step_returning (returning : l.Returning) (h : Stepped cfg l e t effects) :
    .stopped ∈ effects ∨ t.Returning := by
  cases h with
  | started unstarted =>
    exact Or.inr (Or.inl (returning.closing (by simp [unstarted]) (by simp [unstarted])))
  | running _ => exact Or.inr returning
  | closes free _ _ | cancels free _ =>
    rcases returning with closing | ⟨awaits, -⟩
    · cases free.symm.trans closing
    · cases free.symm.trans awaits
  | interrupted _ _ =>
    exact Or.inr (returning.imp_right fun both => ⟨both.1, Or.inl rfl⟩)
  | swallowed asked kept _ =>
    rcases returning with closing | ⟨-, task | ⟨-, through⟩⟩
    · exact Or.inr (Or.inl closing)
    · cases asked.symm.trans task
    · cases kept.symm.trans through
  | joined _ _ closed => exact (close_closes cfg closed).returns.imp_right Or.inl
  | hungUp _ => exact Or.inl (List.mem_singleton_self _)
  | works live _ _ =>
    exact Or.inr (Or.inl (returning.closing (by simp [live]) (by simp [live])))
  | aside others steps =>
    refine Or.inr (returning.imp_right fun both => ⟨both.1, both.2.imp_right fun both => ?_⟩)
    exact ⟨both.1, (hangsUp_aside others steps).trans both.2⟩

/-- A `stop` whose cancellation is swallowed awaits the worker for ever. -/
theorem step_stuck (stuck : l.Stuck) (h : Stepped cfg l e t effects) :
    .stopped ∉ effects ∧ t.Stuck := by
  have ⟨awaits, task⟩ := stuck
  cases h with
  | started unstarted => exact absurd (Or.inl unstarted) stuck.manned
  | running _ => exact ⟨by simp, awaits, task⟩
  | closes free _ _ | cancels free _ => cases free.symm.trans awaits
  | interrupted asked through =>
    rcases task with task | ⟨-, kept⟩
    · cases asked.symm.trans task
    · cases kept.symm.trans through
  | swallowed _ _ _ => exact ⟨by simp, awaits, Or.inl rfl⟩
  | joined _ ended _ => exact absurd (Or.inr ended) stuck.manned
  | hungUp closing => cases awaits.symm.trans closing
  | works _ _ _ => exact ⟨by simp, awaits, Or.inl (by assumption)⟩
  | aside others steps =>
    refine ⟨by simp, awaits, task.imp_right fun both => ?_⟩
    exact ⟨both.1, (hangsUp_aside others steps).trans both.2⟩

theorem run_stuck (stuck : l.Stuck) (run : Run (step cfg) l ms t) :
    .stopped ∉ outputs ms ∧ t.Stuck := by
  induction run with
  | nil => exact ⟨by simp, stuck⟩
  | snoc _ h ih =>
    obtain ⟨quiet, stuck⟩ := ih
    obtain ⟨silent, stuck⟩ := step_stuck stuck (step_stepped h)
    rw [outputs_snoc, List.mem_append]
    exact ⟨not_or.mpr ⟨quiet, silent⟩, stuck⟩

/-- At most three steps of its own end a `stop`: the worker's end, and its own two. -/
def EndsWithin (cfg : ClientConfig) (n : Nat) (l : Lifecycle) : Prop :=
  ∃ more t, Run (step cfg) l more t ∧ .stopped ∈ outputs more ∧ more.length ≤ n

theorem EndsWithin.mono {m n : Nat} (ends : EndsWithin cfg m l) (less : m ≤ n) :
    EndsWithin cfg n l := by
  obtain ⟨more, t, run, stopped, few⟩ := ends
  exact ⟨more, t, run, stopped, few.trans less⟩

theorem endsWithin_closing (closing : l.stopping = .closing) : EndsWithin cfg 1 l := by
  have h : l.step cfg .hungUp = some ({ l with stopping := .idle }, [.stopped]) := by
    simp only [step, closing, if_true]
  exact ⟨_, _, .snoc .nil h, by simp [outputs], by simp⟩

theorem EndsWithin.before {n : Nat} (h : l.step cfg e = some (t, effects))
    (ends : EndsWithin cfg n t) : EndsWithin cfg (n + 1) l := by
  obtain ⟨more, u, run, stopped, few⟩ := ends
  refine ⟨⟨l, e, effects, t⟩ :: more, u, run.prepend h, ?_, by simpa using few⟩
  simp only [outputs, List.flatMap_cons, List.mem_append]
  exact Or.inr stopped

theorem endsWithin_done (awaits : l.stopping = .worker) (ended : l.task = .done) :
    EndsWithin cfg 2 l := by
  obtain ⟨t, effects, closed⟩ : ∃ t effects, { l with task := .none }.close = (t, effects) :=
    ⟨_, _, rfl⟩
  have h : l.step cfg .joined = some (t, effects) := by
    simp only [step, ended, and_self, if_true, ← closed, awaits]
  rcases (close_closes cfg closed).returns with stopped | closing
  · exact ⟨_, _, .snoc .nil h, by simpa [outputs] using stopped, by simp⟩
  · exact (endsWithin_closing closing).before h

theorem returning_ends (returning : l.Returning) : EndsWithin cfg 3 l := by
  rcases returning with closing | ⟨awaits, ended | ⟨asked, through⟩⟩
  · exact (endsWithin_closing closing).mono (by omega)
  · exact (endsWithin_done awaits ended).mono (by omega)
  · have h : l.step cfg .interrupt = some ({ l with upstream := l.upstream.abandon, task := .done },
        [.interrupted l.upstream.governor.worker.job]) := by
      simp only [step, asked, if_true, interrupt, through, Bool.false_eq_true, if_false]
    exact (endsWithin_done (l := { l with upstream := l.upstream.abandon, task := .done })
      awaits rfl).before h

/-- The governor through all its starts and stops. -/
structure Orderly (cfg : ClientConfig) (ms : Trace) (l : Lifecycle) : Prop where
  -- Every job waits, is with the worker, has ended, or was lost with a worker that held it; a stop
  -- loses one at most, and none is begun twice, by whatever worker.
  accounted : (submitted ms).Perm ((ended ms).map Prod.fst ++ lost ms ++
    l.upstream.governor.worker.job.toList ++ l.upstream.governor.queue)
  few : (lost ms).length ≤ stops ms
  once : ((begun ms).map Job.seq).Nodup
  -- The caller of a job that has ended has its outcome or is gone; that of a lost one has none.
  own : ∀ r ∈ ended ms, l.upstream.governor.futures[r.1.seq]? = some (.resolved r.2) ∨
    l.upstream.governor.futures[r.1.seq]? = some .cancelled
  unanswered : ∀ job ∈ lost ms, ∀ outcome,
    l.upstream.governor.futures[job.seq]? ≠ some (.resolved outcome)
  -- Without a worker the machine is left alone, whatever the callers do; and nothing is open when
  -- `stop` has closed the client, until the next `start`.
  idle : l.Unmanned → l.upstream.governor.worker = .getting
  rest : ∀ m ∈ ms, m.before.Unmanned → ∀ x ∈ m.emits, busy x = false
  alone : l.task = .none → sockets ms = []
  -- A stop returns exactly if its cancellation does not find the worker at a hang-up; then nothing
  -- that others do keeps it from returning, by at most three steps.
  returns : l.stopping = .worker →
    ((∃ more t, Run (step cfg) l more t ∧ .stopped ∈ outputs more) ↔ l.Returning)
  surely : l.Returning → EndsWithin cfg 3 l ∧ ∀ e t effects,
    l.step cfg e = some (t, effects) → .stopped ∈ effects ∨ t.Returning

theorem stuck_of_not_returning (kept : Kept ms l) (awaits : l.stopping = .worker)
    (other : ¬ l.Returning) : l.Stuck := by
  refine ⟨awaits, ?_⟩
  cases task : l.task with
  | none => exact absurd task (kept.awaits awaits)
  | live => exact Or.inl rfl
  | cancelling =>
    cases through : l.upstream.hangsUp with
    | false => exact absurd (Or.inr ⟨awaits, Or.inr ⟨task, through⟩⟩) other
    | true => exact Or.inr ⟨rfl, rfl⟩
  | done => exact absurd (Or.inr ⟨awaits, Or.inl task⟩) other

/-- A poll whose connection is closed before the greeting, up to the hang-up before the next. -/
def greetless : List LifecycleEvent :=
  [.start, .upstream (.submit 10 (.read 0xB000 1)), .upstream .take, .upstream .throttled,
    .upstream (.acquire 0), .upstream (.resume 0 .opened), .upstream (.resume 0 (.eof [])),
    .upstream (.resume 0 .done)]

/-- **The governor starts and stops in order.** In every run of its callers, its worker, the client
and any starts and stops: no job is lost but the one that a stopped worker held, or is begun twice;
the machine is left alone while there is no worker; and a stop returns exactly if its cancellation
does not come while the client hangs up, which swallows it. -/
theorem started_and_stopped (run : Run (step cfg) init ms l) : Orderly cfg ms l := by
  have kept := run_kept run
  have accounts := kept.ledger.accounts
  refine ⟨accounts.conserved, (Nat.le_add_right _ _).trans kept.few, accounts.once, accounts.own,
    fun job member => accounts.unanswered member, kept.idle, ?_, ?_, ?_, ?_⟩
  · intro m member unmanned
    exact step_rest unmanned (step_stepped (run.move_step member))
  · intro task
    exact kept.ledger.sockets_eq.trans (Client.live_of_link (kept.alone task))
  · intro awaits
    constructor
    · rintro ⟨more, t, later, stopped⟩
      by_contra other
      exact (run_stuck (stuck_of_not_returning kept awaits other) later).1 stopped
    · intro returning
      obtain ⟨more, t, later, stopped, -⟩ := returning_ends returning
      exact ⟨more, t, later, stopped⟩
  · intro returning
    exact ⟨returning_ends returning, fun e t effects h =>
      step_returning returning (step_stepped h)⟩

/-- The greeting fails, so the client hangs up before it dials again; a stop that comes then does
not return, while one that comes at the second greeting loses the job and does. -/
theorem swallowed_cancellation :
    (∃ ms l, Run (step .default) init ms l ∧ Orderly .default ms l ∧
      ∀ more t, Run (step .default) l more t → .stopped ∉ outputs more) ∧
    ∃ ms l, Run (step .default) init ms l ∧ Orderly .default ms l ∧
      lost ms = [⟨10, 0, .read 0xB000 1⟩] ∧ sockets ms = [] := by
  have hangsUp : (Runs.feed (step .default) init (greetless ++ [.stop])).any
      (fun r => r.1.stopping == .worker && r.1.task == .cancelling && r.1.upstream.hangsUp) =
        true := by decide +kernel
  have loses : (Runs.feed (step .default) init (greetless ++ [.upstream (.resume 0 .done),
      .upstream (.resume 0 .opened), .stop, .interrupt, .joined, .hungUp])).any
      (fun r => r.1.task == .none && lost r.2 == [⟨10, 0, .read 0xB000 1⟩]) = true := by
    decide +kernel
  obtain ⟨ms, l, run, -, stuck⟩ := Runs.feed_reaches hangsUp
  obtain ⟨ms', l', run', -, ended_⟩ := Runs.feed_reaches loses
  simp only [Bool.and_eq_true, beq_iff_eq] at stuck ended_
  have orderly := started_and_stopped run
  have orderly' := started_and_stopped run'
  refine ⟨⟨ms, l, run, orderly, fun more t later stopped => ?_⟩,
    ms', l', run', orderly', ended_.2, orderly'.alone ended_.1⟩
  obtain ⟨⟨awaits, asked⟩, kept⟩ := stuck
  rcases (orderly.returns awaits).mp ⟨more, t, later, stopped⟩ with closing | ⟨-, done | through⟩
  · cases awaits.symm.trans closing
  · cases asked.symm.trans done
  · cases kept.symm.trans through.2

end Lifecycle

end R60V
