import Mathlib.Data.Prod.Lex
import R60V.Bridge.Client
import R60V.Lib.Runs

/-! The governor: a priority queue of jobs and the one worker that drains it. Callers submit at any
time and may give up; what the client makes of an operation is part of the event that ends it. -/
namespace R60V

open Protocol (Frame)
open Runs (Run Move Along outputs forall_snoc along_snoc)

def priorityCommand : Int := 0
def priorityPoll : Int := 10

structure Job where
  priority : Int
  seq : Nat
  op : Call
  deriving DecidableEq

def Job.rank (job : Job) : Int ×ₗ Nat := toLex (job.priority, job.seq)

theorem Job.rank_le {a b : Job} : a.rank ≤ b.rank ↔
    a.priority < b.priority ∨ a.priority = b.priority ∧ a.seq ≤ b.seq :=
  Prod.Lex.toLex_le_toLex

instance (a b : Job) : Decidable (a.rank ≤ b.rank) := decidable_of_iff' _ Job.rank_le

/-- What `client.read` and `client.write` return. -/
inductive OpResult where
  | data (bytes : List Int)
  | ack (f : Frame)
  deriving DecidableEq

abbrev Outcome := Except Exc OpResult

inductive FutureState where
  | pending
  | resolved (outcome : Outcome)
  | cancelled

inductive Worker where
  | getting
  | throttling (job : Job)
  | executing (job : Job)
  deriving DecidableEq

@[simp] def Worker.job : Worker → Option Job
  | .getting => none
  | .throttling job | .executing job => some job

@[simp] def Worker.executed : Worker → Option Job
  | .executing job => some job
  | .getting | .throttling _ => none

structure Governor where
  queue : List Job
  counter : Nat
  worker : Worker
  -- By submission number.
  futures : List FutureState

inductive GovernorEvent where
  | submit (priority : Int) (op : Call)
  | cancel (seq : Nat)
  | take
  | throttled
  | done (outcome : Outcome)

inductive GovernorEffect where
  | submitted (job : Job)
  | taken (job : Job)
  | began (job : Job)
  | ended (job : Job) (outcome : Outcome)
  | resolved (seq : Nat) (outcome : Outcome)

namespace GovernorEffect

@[simp] def submittedJob : GovernorEffect → Option Job
  | .submitted job => some job
  | .taken _ | .began _ | .ended _ _ | .resolved _ _ => none

@[simp] def takenJob : GovernorEffect → Option Job
  | .taken job => some job
  | .submitted _ | .began _ | .ended _ _ | .resolved _ _ => none

@[simp] def begunJob : GovernorEffect → Option Job
  | .began job => some job
  | .submitted _ | .taken _ | .ended _ _ | .resolved _ _ => none

@[simp] def endedJob : GovernorEffect → Option (Job × Outcome)
  | .ended job outcome => some (job, outcome)
  | .submitted _ | .taken _ | .began _ | .resolved _ _ => none

@[simp] def resolution : GovernorEffect → Option (Nat × Outcome)
  | .resolved seq outcome => some (seq, outcome)
  | .submitted _ | .taken _ | .began _ | .ended _ _ => none

end GovernorEffect

namespace Governor

def start : Governor := ⟨[], 0, .getting, []⟩

-- `queue.get_nowait()`: the first of the tuples in their order.
def least : List Job → Option Job
  | [] => none
  | job :: queue =>
    match least queue with
    | none => some job
    | some other => if job.rank ≤ other.rank then some job else some other

def submit (g : Governor) (priority : Int) (op : Call) : Governor × List GovernorEffect :=
  let job : Job := ⟨priority, g.counter, op⟩
  ({ g with
    queue := g.queue ++ [job]
    counter := g.counter + 1
    futures := g.futures ++ [.pending] }, [.submitted job])

/-- The end of `_run`'s loop: a future that is not done gets the outcome, result or exception. -/
def settle (g : Governor) (job : Job) (outcome : Outcome) : Governor × List GovernorEffect :=
  match g.futures[job.seq]? with
  | some .pending =>
    ({ g with worker := .getting, futures := g.futures.set job.seq (.resolved outcome) },
      [.ended job outcome, .resolved job.seq outcome])
  | _ => ({ g with worker := .getting }, [.ended job outcome])

def step (g : Governor) : GovernorEvent → Option (Governor × List GovernorEffect)
  | .submit priority op => some (g.submit priority op)
  | .cancel seq =>
    match g.futures[seq]? with
    | some .pending => some ({ g with futures := g.futures.set seq .cancelled }, [])
    | _ => none
  | .take =>
    match g.worker, least g.queue with
    | .getting, some job =>
      some ({ g with queue := g.queue.erase job, worker := .throttling job }, [.taken job])
    | _, _ => none
  | .throttled =>
    match g.worker with
    | .throttling job => some ({ g with worker := .executing job }, [.began job])
    | _ => none
  | .done outcome =>
    match g.worker with
    | .executing job => some (g.settle job outcome)
    | _ => none

/-- What a step can do, with the guard that lets it. -/
inductive Stepped (g : Governor) : GovernorEvent → Governor → List GovernorEffect → Prop where
  | submit {priority : Int} {op : Call} :
      Stepped g (.submit priority op)
        { g with
          queue := g.queue ++ [⟨priority, g.counter, op⟩]
          counter := g.counter + 1
          futures := g.futures ++ [.pending] } [.submitted ⟨priority, g.counter, op⟩]
  | cancel {seq : Nat} (pending : g.futures[seq]? = some .pending) :
      Stepped g (.cancel seq) { g with futures := g.futures.set seq .cancelled } []
  | take {job : Job} (free : g.worker = .getting) (first : least g.queue = some job) :
      Stepped g .take { g with queue := g.queue.erase job, worker := .throttling job } [.taken job]
  | throttled {job : Job} (waits : g.worker = .throttling job) :
      Stepped g .throttled { g with worker := .executing job } [.began job]
  | settled {job : Job} {outcome : Outcome} (runs : g.worker = .executing job)
      (pending : g.futures[job.seq]? = some .pending) :
      Stepped g (.done outcome)
        { g with worker := .getting, futures := g.futures.set job.seq (.resolved outcome) }
        [.ended job outcome, .resolved job.seq outcome]
  | abandoned {job : Job} {outcome : Outcome} (runs : g.worker = .executing job)
      (gone : g.futures[job.seq]? ≠ some .pending) :
      Stepped g (.done outcome) { g with worker := .getting } [.ended job outcome]

variable {g t : Governor} {e : GovernorEvent} {effects : List GovernorEffect}

theorem step_stepped (h : g.step e = some (t, effects)) : g.Stepped e t effects := by
  cases e with
  | submit priority op =>
    cases h
    exact .submit
  | cancel seq =>
    simp only [step] at h
    split at h
    · rename_i pending
      cases h
      exact .cancel pending
    · cases h
  | take =>
    simp only [step] at h
    split at h
    · rename_i free first
      cases h
      exact .take free first
    · cases h
  | throttled =>
    simp only [step] at h
    split at h
    · rename_i waits
      cases h
      exact .throttled waits
    · cases h
  | done outcome =>
    simp only [step] at h
    split at h
    · rename_i job runs
      unfold settle at h
      split at h
      · rename_i pending
        cases h
        exact .settled runs pending
      · rename_i gone
        cases h
        exact .abandoned runs gone
    · cases h

/-- Only the end of an operation takes it from the worker, and it begins no other. -/
theorem step_begun (h : g.step e = some (t, effects)) (goesOn : ∀ outcome, e ≠ .done outcome) :
    t.worker.executed.toList =
      g.worker.executed.toList ++ effects.filterMap GovernorEffect.begunJob := by
  cases step_stepped h with
  | submit | cancel _ => simp [List.filterMap_cons]
  | take free _ => simp [List.filterMap_cons, free]
  | throttled waits => simp [waits]
  | settled _ _ | abandoned _ _ => exact absurd rfl (goesOn _)

theorem step_done {outcome : Outcome} (h : g.step (.done outcome) = some (t, effects)) :
    (∃ job, g.worker = .executing job) ∧ t.worker = .getting ∧
      effects.filterMap GovernorEffect.begunJob = [] := by
  cases step_stepped h with
  | settled runs _ | abandoned runs _ => exact ⟨⟨_, runs⟩, rfl, rfl⟩

theorem done_settled {job : Job} {outcome : Outcome} (runs : g.worker = .executing job)
    (pending : g.futures[job.seq]? = some .pending) :
    g.step (.done outcome) = some
      ({ g with worker := .getting, futures := g.futures.set job.seq (.resolved outcome) },
        [.ended job outcome, .resolved job.seq outcome]) := by
  simp only [step, runs, settle, pending]

theorem least_eq_none {queue : List Job} : least queue = none ↔ queue = [] := by
  cases queue with
  | nil => exact iff_of_true rfl rfl
  | cons job queue =>
    refine iff_of_false ?_ (List.cons_ne_nil _ _)
    simp only [least]
    split
    · simp
    · split <;> simp

theorem least_mem {queue : List Job} {job : Job} (first : least queue = some job) :
    job ∈ queue := by
  fun_induction least queue with
  | case1 => cases first
  | case2 only queue none_ =>
    cases first
    exact List.mem_cons_self
  | case3 front queue other rest before =>
    cases first
    exact List.mem_cons_self
  | case4 front queue other rest after ih =>
    cases first
    exact List.mem_cons_of_mem _ (ih rest)

theorem least_le {queue : List Job} {job other : Job} (first : least queue = some job)
    (member : other ∈ queue) : job.rank ≤ other.rank := by
  fun_induction least queue generalizing job with
  | case1 => cases first
  | case2 only queue none_ =>
    cases first
    rw [least_eq_none.mp none_] at member
    rw [List.mem_singleton.mp member]
  | case3 front queue best rest before ih =>
    cases first
    rcases List.mem_cons.mp member with rfl | member
    · exact le_rfl
    · exact before.trans (ih rest member)
  | case4 front queue best rest after ih =>
    cases first
    rcases List.mem_cons.mp member with rfl | member
    · exact (lt_of_not_ge after).le
    · exact ih rest member

end Governor

-- What the worker does of itself; the outcomes are those that an oracle gives.
def Worker.Goes (answer : Job → Outcome) : Worker → GovernorEvent → Prop
  | .getting, .take => True
  | .throttling _, .throttled => True
  | .executing job, .done outcome => outcome = answer job
  | _, _ => False

namespace Governor

abbrev Trace := List (Move Governor GovernorEvent GovernorEffect)

def submitted (ms : Trace) : List Job := (outputs ms).filterMap GovernorEffect.submittedJob
def taken (ms : Trace) : List Job := (outputs ms).filterMap GovernorEffect.takenJob
def begun (ms : Trace) : List Job := (outputs ms).filterMap GovernorEffect.begunJob
def ended (ms : Trace) : List (Job × Outcome) := (outputs ms).filterMap GovernorEffect.endedJob
def resolutions (ms : Trace) : List (Nat × Outcome) :=
  (outputs ms).filterMap GovernorEffect.resolution

/-- The governor serialises without loss. -/
structure Serialises (ms : Trace) (g : Governor) : Prop where
  -- What is begun and not ended is at most one operation, what is taken and not begun too.
  single : ∃ running next : Option Job, begun ms = (ended ms).map Prod.fst ++ running.toList ∧
    taken ms = begun ms ++ next.toList
  -- Every job is waiting or has been taken, once.
  distinct : ((submitted ms).map Job.seq).Nodup
  conserved : (submitted ms).Perm (taken ms ++ g.queue)
  -- A job that is taken comes first among those that have been submitted and not been taken.
  first : Along (fun front m => ∀ job, .taken job ∈ m.emits →
    ∀ other ∈ submitted front, other ∉ taken front → job.rank ≤ other.rank) ms
  preempts : Along (fun front m => ∀ job, .taken job ∈ m.emits → job.priority = priorityPoll →
    ∀ other ∈ submitted front, other ∉ taken front → other.priority ≠ priorityCommand) ms
  inOrder : (taken ms).Pairwise fun a b => a.priority = b.priority → a.seq < b.seq
  -- An outcome goes to the future of its own job, unless that was cancelled; and only once.
  own : ∀ r ∈ ended ms, (g.futures[r.1.seq]? = some (.resolved r.2) ∧
      (r.1.seq, r.2) ∈ resolutions ms) ∨
    (g.futures[r.1.seq]? = some .cancelled ∧ ∃ m ∈ ms, m.event = .cancel r.1.seq)
  once : ((resolutions ms).map Prod.fst).Nodup
  -- No outcome stops the worker, and left to itself it executes all that has been submitted.
  goesOn : ∀ job, g.worker = .executing job → ∀ outcome, ∃ t effects,
    g.step (.done outcome) = some (t, effects) ∧ t.worker = .getting
  drains : ∀ answer : Job → Outcome, ∃ more t, Run step start (ms ++ more) t ∧
    (∀ m ∈ more, m.before.worker.Goes answer m.event) ∧ t.worker = .getting ∧
    (submitted ms).Perm ((ended (ms ++ more)).map Prod.fst)

section Snoc

variable (ms : Trace) (m : Move Governor GovernorEvent GovernorEffect)

@[simp] theorem submitted_snoc : submitted (ms ++ [m]) =
    submitted ms ++ m.emits.filterMap GovernorEffect.submittedJob := by simp [submitted]

@[simp] theorem taken_snoc : taken (ms ++ [m]) =
    taken ms ++ m.emits.filterMap GovernorEffect.takenJob := by simp [taken]

@[simp] theorem begun_snoc : begun (ms ++ [m]) =
    begun ms ++ m.emits.filterMap GovernorEffect.begunJob := by simp [begun]

@[simp] theorem ended_snoc : ended (ms ++ [m]) =
    ended ms ++ m.emits.filterMap GovernorEffect.endedJob := by simp [ended]

@[simp] theorem resolutions_snoc : resolutions (ms ++ [m]) =
    resolutions ms ++ m.emits.filterMap GovernorEffect.resolution := by simp [resolutions]

end Snoc

/-- Where every job is. -/
structure Placed (ms : Trace) (g : Governor) : Prop where
  numbers : (submitted ms).map Job.seq = List.range g.counter
  taken_eq : taken ms = (ended ms).map Prod.fst ++ g.worker.job.toList
  begun_eq : begun ms = (ended ms).map Prod.fst ++ g.worker.executed.toList
  conserved : (submitted ms).Perm (taken ms ++ g.queue)

/-- What every future is. -/
structure Answered (ms : Trace) (g : Governor) : Prop where
  slots : g.futures.length = g.counter
  pending : ∀ r ∈ ended ms, g.futures[r.1.seq]? ≠ some .pending
  resolved : ∀ seq outcome, g.futures[seq]? = some (.resolved outcome) ↔
    (seq, outcome) ∈ resolutions ms
  fromEnded : ∀ r ∈ resolutions ms, ∃ job, (job, r.2) ∈ ended ms ∧ job.seq = r.1
  cancelled : ∀ seq, g.futures[seq]? = some .cancelled → ∃ m ∈ ms, m.event = .cancel seq
  once : ((resolutions ms).map Prod.fst).Nodup

-- A filter over the effects of one step reduces.
attribute [local simp] List.filterMap_cons

variable {ms : Trace} {g t : Governor} {e : GovernorEvent} {effects : List GovernorEffect}

theorem step_placed (placed : Placed ms g) (h : g.step e = some (t, effects)) :
    Placed (ms ++ [⟨g, e, effects, t⟩]) t := by
  obtain ⟨numbers, taken_eq, begun_eq, conserved⟩ := placed
  cases step_stepped h with
  | @submit priority op =>
    refine ⟨?_, by simpa using taken_eq, by simpa using begun_eq, ?_⟩
    · simp [numbers, List.range_succ]
    · simpa using conserved.append_right [⟨priority, g.counter, op⟩]
  | cancel _ => exact ⟨by simpa using numbers, by simpa using taken_eq, by simpa using begun_eq,
      by simpa using conserved⟩
  | @take job free first =>
    rw [free] at taken_eq begun_eq
    simp only [Worker.job, Option.toList_none, List.append_nil] at taken_eq
    simp only [Worker.executed, Option.toList_none, List.append_nil] at begun_eq
    refine ⟨by simpa using numbers, by simp [taken_eq], by simp [begun_eq], ?_⟩
    have front : g.queue.Perm (job :: g.queue.erase job) := List.perm_cons_erase (least_mem first)
    simpa using conserved.trans (front.append_left (taken ms))
  | @throttled job waits =>
    rw [waits] at taken_eq begun_eq
    simp only [Worker.job] at taken_eq
    simp only [Worker.executed, Option.toList_none, List.append_nil] at begun_eq
    exact ⟨by simpa using numbers, by simpa using taken_eq, by simp [begun_eq],
      by simpa using conserved⟩
  | @settled job outcome runs _ | @abandoned job outcome runs _ =>
    rw [runs] at taken_eq begun_eq
    simp only [Worker.job, Worker.executed] at taken_eq begun_eq
    exact ⟨by simpa using numbers, by simp [taken_eq], by simp [begun_eq],
      by simpa using conserved⟩

theorem Placed.start : Placed [] start := ⟨rfl, rfl, rfl, .nil⟩

theorem Placed.distinct (placed : Placed ms g) : ((submitted ms).map Job.seq).Nodup := by
  rw [placed.numbers]
  exact List.nodup_range

theorem Placed.seq_lt (placed : Placed ms g) {job : Job} (member : job ∈ submitted ms) :
    job.seq < g.counter := by
  have listed := List.mem_map_of_mem (f := Job.seq) member
  rw [placed.numbers] at listed
  exact List.mem_range.mp listed

theorem Placed.seq_inj (placed : Placed ms g) {a b : Job} (left : a ∈ submitted ms)
    (right : b ∈ submitted ms) (same : a.seq = b.seq) : a = b :=
  List.inj_on_of_nodup_map placed.distinct left right same

theorem Placed.nodup (placed : Placed ms g) : (taken ms ++ g.queue).Nodup :=
  placed.conserved.nodup_iff.mp (List.Nodup.of_map _ placed.distinct)

theorem Placed.taken_nodup (placed : Placed ms g) : (taken ms).Nodup :=
  (List.nodup_append.mp placed.nodup).1

theorem Placed.taken_submitted (placed : Placed ms g) {job : Job} (took : job ∈ taken ms) :
    job ∈ submitted ms :=
  placed.conserved.mem_iff.mpr (List.mem_append_left _ took)

/-- What the worker holds has been taken, and has not ended. -/
theorem Placed.held (placed : Placed ms g) {job : Job} (holds : g.worker.job = some job) :
    job ∈ submitted ms ∧ ∀ r ∈ ended ms, r.1 ≠ job := by
  have takes := placed.taken_nodup
  have taken_eq := placed.taken_eq
  rw [holds] at taken_eq
  constructor
  · exact placed.taken_submitted (by simp [taken_eq])
  · intro r member
    rw [taken_eq] at takes
    exact (List.nodup_append.mp takes).2.2 _ (List.mem_map_of_mem member) _ (by simp)

theorem Placed.mem_queue (placed : Placed ms g) {job : Job} :
    job ∈ g.queue ↔ job ∈ submitted ms ∧ job ∉ taken ms := by
  rw [placed.conserved.mem_iff, List.mem_append]
  constructor
  · intro queued
    exact ⟨Or.inr queued, fun took => (List.nodup_append.mp placed.nodup).2.2 _ took _ queued rfl⟩
  · exact fun ⟨somewhere, untaken⟩ => somewhere.resolve_left untaken

theorem Placed.ended_submitted (placed : Placed ms g) {r : Job × Outcome} (member : r ∈ ended ms) :
    r.1 ∈ submitted ms := by
  apply placed.taken_submitted
  rw [placed.taken_eq]
  exact List.mem_append_left _ (List.mem_map_of_mem member)

theorem Placed.ended_inj (placed : Placed ms g) {r r' : Job × Outcome} (left : r ∈ ended ms)
    (right : r' ∈ ended ms) (same : r.1 = r'.1) : r = r' := by
  have once : ((ended ms).map Prod.fst).Nodup := by
    have takes := placed.taken_nodup
    rw [placed.taken_eq] at takes
    exact (List.nodup_append.mp takes).1
  exact List.inj_on_of_nodup_map once left right same

/-- The jobs of one priority that are taken come before those that wait. -/
structure Ordered (ms : Trace) (g : Governor) : Prop where
  before : ∀ a ∈ taken ms, ∀ b ∈ g.queue, a.priority = b.priority → a.seq < b.seq
  among : (taken ms).Pairwise fun a b => a.priority = b.priority → a.seq < b.seq

theorem step_ordered (placed : Placed ms g) (ordered : Ordered ms g)
    (h : g.step e = some (t, effects)) : Ordered (ms ++ [⟨g, e, effects, t⟩]) t := by
  obtain ⟨before, among⟩ := ordered
  cases step_stepped h with
  | @submit priority op =>
    refine ⟨?_, by simpa using among⟩
    intro a took b queued _
    have took : a ∈ taken ms := by simpa using took
    rcases List.mem_append.mp queued with queued | new
    · exact before a took b queued ‹_›
    · rw [List.mem_singleton.mp new]
      exact placed.seq_lt (placed.taken_submitted took)
  | @take job free first =>
    have inQueue := least_mem first
    have nodup := (List.nodup_append.mp placed.nodup).2.1
    constructor
    · intro a took b queued same
      have inBefore := List.mem_of_mem_erase queued
      have took : a ∈ taken ms ∨ a = job := by simpa using took
      rcases took with took | rfl
      · exact before a took b inBefore same
      · have other : b ≠ a := (nodup.mem_erase_iff.mp queued).1
        rcases Job.rank_le.mp (least_le first inBefore) with less | ⟨-, le⟩
        · omega
        · refine lt_of_le_of_ne le fun equal => other ?_
          exact placed.seq_inj (placed.mem_queue.mp inBefore).1 (placed.mem_queue.mp inQueue).1
            equal.symm
    · simp only [taken_snoc, List.filterMap_cons, GovernorEffect.takenJob, List.filterMap_nil]
      rw [List.pairwise_append]
      exact ⟨among, List.pairwise_singleton _ _, fun a took b new => by
        rw [List.mem_singleton.mp new]
        exact before a took job inQueue⟩
  | cancel _ => exact ⟨by simpa using before, by simpa using among⟩
  | throttled _ | settled _ _ | abandoned _ _ =>
    exact ⟨by simpa using before,
      by simpa using among⟩

theorem Answered.start : Answered [] start where
  slots := rfl
  pending := by simp [ended]
  resolved := by simp [Governor.start, resolutions]
  fromEnded := by simp [resolutions]
  cancelled := by simp [Governor.start]
  once := by simp [resolutions]

/-- A future that waits is the only one that an answer to it changes. -/
theorem getElem?_answered {futures : List FutureState} {seq x : Nat} {new state : FutureState}
    (isPending : futures[seq]? = some .pending) : (futures.set seq new)[x]? = some state ↔
      x = seq ∧ state = new ∨ x ≠ seq ∧ futures[x]? = some state := by
  have inside := (List.getElem?_eq_some_iff.mp isPending).1
  by_cases same : x = seq
  · subst same
    simp [inside, eq_comm]
  · rw [List.getElem?_set_ne (Ne.symm same)]
    simp [same]

/-- A new future waits, and the others stay as they are. -/
theorem getElem?_submitted {futures : List FutureState} {x : Nat} {state : FutureState}
    (answered : state ≠ .pending) :
    (futures ++ [FutureState.pending])[x]? = some state ↔ futures[x]? = some state := by
  rcases Nat.lt_trichotomy x futures.length with inside | rfl | beyond
  · rw [List.getElem?_append_left inside]
  · simp [answered.symm]
  · rw [List.getElem?_eq_none (by simp; omega), List.getElem?_eq_none (by omega)]

namespace Answered

theorem fresh (answered : Answered ms g) {seq : Nat} (isPending : g.futures[seq]? = some .pending)
    (outcome : Outcome) : (seq, outcome) ∉ resolutions ms := by
  rw [← answered.resolved, isPending]
  simp

theorem cancelled_later (answered : Answered ms g) {seq : Nat}
    (state : g.futures[seq]? = some .cancelled) (m : Move Governor GovernorEvent GovernorEffect) :
    ∃ m' ∈ ms ++ [m], m'.event = .cancel seq := by
  obtain ⟨m', member, event⟩ := answered.cancelled seq state
  exact ⟨m', List.mem_append_left _ member, event⟩

/-- What an answer to a waiting future leaves as it was. -/
theorem resolved_other (answered : Answered ms g) {seq : Nat} {new : FutureState}
    (isPending : g.futures[seq]? = some .pending) (x : Nat) (outcome : Outcome) :
    (g.futures.set seq new)[x]? = some (.resolved outcome) ↔
      x = seq ∧ .resolved outcome = new ∨ (x, outcome) ∈ resolutions ms := by
  rw [getElem?_answered isPending, answered.resolved]
  by_cases same : x = seq
  · subst same
    simp [answered.fresh isPending]
  · simp [same]

theorem submit (placed : Placed ms g) (answered : Answered ms g)
    {priority : Int} {op : Call}
    (h : g.step (.submit priority op) = some (t, effects)) :
    Answered (ms ++ [⟨g, .submit priority op, effects, t⟩]) t := by
  cases step_stepped h
  refine ⟨by simp [answered.slots], ?_, ?_, by simpa using answered.fromEnded, ?_,
    by simpa using answered.once⟩
  · intro r member
    have member : r ∈ ended ms := by simpa using member
    have inside := placed.seq_lt (placed.ended_submitted member)
    rw [List.getElem?_append_left (by rw [answered.slots]; exact inside)]
    exact answered.pending r member
  · intro seq outcome
    rw [getElem?_submitted (by simp), answered.resolved]
    simp
  · intro seq state
    exact answered.cancelled_later ((getElem?_submitted (by simp)).mp state) _

theorem cancel (answered : Answered ms g) {seq : Nat}
    (h : g.step (.cancel seq) = some (t, effects)) :
    Answered (ms ++ [⟨g, .cancel seq, effects, t⟩]) t := by
  cases step_stepped h with
  | cancel isPending =>
    refine ⟨by simpa using answered.slots, ?_, ?_, by simpa using answered.fromEnded, ?_,
      by simpa using answered.once⟩
    · intro r member state
      rcases (getElem?_answered isPending).mp state with ⟨-, new⟩ | ⟨-, old⟩
      · cases new
      · exact answered.pending r (by simpa using member) old
    · intro other outcome
      rw [answered.resolved_other isPending]
      simp
    · intro other state
      rcases (getElem?_answered isPending).mp state with ⟨rfl, -⟩ | ⟨-, old⟩
      · exact ⟨_, List.mem_append_right _ (List.mem_singleton_self _), rfl⟩
      · exact answered.cancelled_later old _

/-- The worker ends a job whose caller still waits. -/
theorem settle (answered : Answered ms g) {job : Job} {outcome : Outcome}
    (isPending : g.futures[job.seq]? = some .pending) :
    Answered (ms ++ [⟨g, .done outcome, [.ended job outcome, .resolved job.seq outcome],
      { g with worker := .getting, futures := g.futures.set job.seq (.resolved outcome) }⟩])
      { g with worker := .getting, futures := g.futures.set job.seq (.resolved outcome) } := by
  refine ⟨by simpa using answered.slots, ?_, ?_, ?_, ?_, ?_⟩
  · intro r member state
    have member : r ∈ ended ms ∨ r = (job, outcome) := by simpa using member
    rcases (getElem?_answered isPending).mp state with ⟨-, new⟩ | ⟨apart, old⟩
    · cases new
    · rcases member with member | rfl
      · exact answered.pending r member old
      · exact absurd rfl apart
  · intro seq other
    rw [answered.resolved_other isPending]
    simp [or_comm]
  · intro r member
    have member : r ∈ resolutions ms ∨ r = (job.seq, outcome) := by simpa using member
    rcases member with member | rfl
    · obtain ⟨before, listed, same⟩ := answered.fromEnded r member
      exact ⟨before, by simp [listed], same⟩
    · exact ⟨job, by simp, rfl⟩
  · intro seq state
    rcases (getElem?_answered isPending).mp state with ⟨-, new⟩ | ⟨-, old⟩
    · cases new
    · exact answered.cancelled_later old _
  · simp only [resolutions_snoc, List.filterMap_cons, GovernorEffect.resolution,
      List.filterMap_nil, List.map_append, List.map_cons, List.map_nil]
    refine List.nodup_append.mpr ⟨answered.once, List.nodup_singleton _, ?_⟩
    intro a listed b new same
    obtain ⟨r, member, rfl⟩ := List.mem_map.mp listed
    rw [List.mem_singleton.mp new] at same
    exact answered.fresh isPending r.2 (same ▸ member)

/-- The worker ends a job whose caller has gone. -/
theorem abandon (answered : Answered ms g) {job : Job} {outcome : Outcome}
    (gone : g.futures[job.seq]? ≠ some .pending) :
    Answered (ms ++ [⟨g, .done outcome, [.ended job outcome], { g with worker := .getting }⟩])
      { g with worker := .getting } := by
  refine ⟨answered.slots, ?_, by simpa using answered.resolved, ?_,
    fun seq state => answered.cancelled_later state _, by simpa using answered.once⟩
  · intro r member
    have member : r ∈ ended ms ∨ r = (job, outcome) := by simpa using member
    rcases member with member | rfl
    · exact answered.pending r member
    · exact gone
  · intro r member
    have member : r ∈ resolutions ms := by simpa using member
    obtain ⟨before, listed, same⟩ := answered.fromEnded r member
    exact ⟨before, by simp [listed], same⟩

end Answered

theorem step_answered (placed : Placed ms g) (answered : Answered ms g)
    (h : g.step e = some (t, effects)) : Answered (ms ++ [⟨g, e, effects, t⟩]) t := by
  cases step_stepped h with
  | submit => exact answered.submit placed h
  | cancel isPending => exact answered.cancel h
  | take _ _ | throttled _ =>
    exact ⟨answered.slots, by simpa using answered.pending, by simpa using answered.resolved,
      by simpa using answered.fromEnded, fun seq state => answered.cancelled_later state _,
      by simpa using answered.once⟩
  | settled runs isPending => exact answered.settle isPending
  | abandoned runs gone => exact answered.abandon gone

/-- All three, and what they say of the jobs taken so far. -/
structure Kept (ms : Trace) (g : Governor) : Prop where
  placed : Placed ms g
  ordered : Ordered ms g
  answered : Answered ms g
  first : Along (fun front m => ∀ job, .taken job ∈ m.emits →
    ∀ other ∈ submitted front, other ∉ taken front → job.rank ≤ other.rank) ms

theorem step_first (placed : Placed ms g) (h : g.step e = some (t, effects)) :
    ∀ job, .taken job ∈ effects →
      ∀ other ∈ submitted ms, other ∉ taken ms → job.rank ≤ other.rank := by
  intro job took other known waiting
  cases step_stepped h with
  | take _ first =>
    cases List.mem_singleton.mp took
    exact least_le first (placed.mem_queue.mpr ⟨known, waiting⟩)
  | submit | cancel _ | throttled _ | settled _ _ | abandoned _ _ => simp at took

theorem run_kept (run : Run step start ms g) : Kept ms g := by
  induction run with
  | nil =>
    exact ⟨.start, ⟨by simp [taken], by simp [taken]⟩, .start, by rintro ⟨⟩ _ _ ⟨⟩⟩
  | snoc _ h ih =>
    exact ⟨step_placed ih.placed h, step_ordered ih.placed ih.ordered h,
      step_answered ih.placed ih.answered h, along_snoc.mpr ⟨ih.first, step_first ih.placed h⟩⟩

theorem Kept.own (kept : Kept ms g) {r : Job × Outcome} (member : r ∈ ended ms) :
    (g.futures[r.1.seq]? = some (.resolved r.2) ∧ (r.1.seq, r.2) ∈ resolutions ms) ∨
      (g.futures[r.1.seq]? = some .cancelled ∧ ∃ m ∈ ms, m.event = .cancel r.1.seq) := by
  have inside : r.1.seq < g.futures.length := by
    rw [kept.answered.slots]
    exact kept.placed.seq_lt (kept.placed.ended_submitted member)
  have state := List.getElem?_eq_getElem inside
  cases future : g.futures[r.1.seq] with
  | pending => exact absurd (state.trans (congrArg some future)) (kept.answered.pending r member)
  | cancelled =>
    rw [future] at state
    exact Or.inr ⟨state, kept.answered.cancelled _ state⟩
  | resolved outcome =>
    rw [future] at state
    have listed := (kept.answered.resolved _ _).mp state
    obtain ⟨job, fromJob, same⟩ := kept.answered.fromEnded _ listed
    -- The outcome that was set is that of the one job with this number.
    have sameJob : job = r.1 := kept.placed.seq_inj (kept.placed.ended_submitted fromJob)
      (kept.placed.ended_submitted member) same
    have sameOutcome : outcome = r.2 :=
      congrArg Prod.snd (kept.placed.ended_inj fromJob member sameJob)
    subst sameOutcome
    exact Or.inl ⟨state, listed⟩

theorem Placed.begun_submitted (placed : Placed ms g) {job : Job} (member : job ∈ begun ms) :
    job ∈ submitted ms := by
  apply placed.taken_submitted
  rw [placed.begun_eq] at member
  rw [placed.taken_eq]
  rcases List.mem_append.mp member with member | member
  · exact List.mem_append_left _ member
  · apply List.mem_append_right
    cases worker : g.worker with
    | executing other =>
      rw [worker] at member
      exact member
    | getting | throttling _ => simp [worker] at member

theorem Placed.executing (placed : Placed ms g) {job : Job} (runs : g.worker = .executing job) :
    job ∈ begun ms := by
  rw [placed.begun_eq, runs]
  exact List.mem_append_right _ (List.mem_singleton_self job)

theorem Placed.throttled (placed : Placed ms g) {job : Job} (waits : g.worker = .throttling job) :
    job ∈ submitted ms ∧ ∀ other ∈ begun ms, other.seq ≠ job.seq := by
  obtain ⟨listed, unended⟩ := placed.held (by rw [waits]; rfl)
  refine ⟨listed, fun other member same => ?_⟩
  obtain rfl : other = job := placed.seq_inj (placed.begun_submitted member) listed same
  rw [placed.begun_eq, waits] at member
  simp only [Worker.executed, Option.toList_none, List.append_nil] at member
  obtain ⟨r, ended_, same⟩ := List.mem_map.mp member
  exact unended r ended_ same

theorem Kept.resolved_begun (kept : Kept ms g) {seq : Nat} {outcome : Outcome}
    (future : g.futures[seq]? = some (.resolved outcome)) : ∃ job ∈ begun ms, job.seq = seq := by
  have listed := (kept.answered.resolved _ _).mp future
  obtain ⟨job, fromJob, same⟩ := kept.answered.fromEnded _ listed
  refine ⟨job, ?_, same⟩
  rw [kept.placed.begun_eq]
  exact List.mem_append_left _ (List.mem_map_of_mem fromJob)

/-- Where nobody gives up, the operation that is executed is awaited. -/
theorem Kept.pending (kept : Kept ms g) (awaited : ∀ m ∈ ms, ∀ seq, m.event ≠ .cancel seq)
    {job : Job} (runs : g.worker = .executing job) : g.futures[job.seq]? = some .pending := by
  obtain ⟨placed, -, answered, -⟩ := kept
  obtain ⟨listed, unended⟩ := placed.held (by rw [runs]; rfl)
  have inside : job.seq < g.futures.length := by
    rw [answered.slots]
    exact placed.seq_lt listed
  have state := List.getElem?_eq_getElem inside
  cases future : g.futures[job.seq] with
  | pending => rw [state, future]
  | cancelled =>
    rw [future] at state
    obtain ⟨m, member, event⟩ := answered.cancelled _ state
    exact absurd event (awaited m member _)
  | resolved outcome =>
    rw [future] at state
    obtain ⟨other, fromJob, same⟩ := answered.fromEnded _ ((answered.resolved _ _).mp state)
    exact absurd (placed.seq_inj (placed.ended_submitted fromJob) listed same)
      (unended _ fromJob)

theorem Kept.preempts (kept : Kept ms g) :
    Along (fun front m => ∀ job, .taken job ∈ m.emits → job.priority = priorityPoll →
      ∀ other ∈ submitted front, other ∉ taken front → other.priority ≠ priorityCommand) ms := by
  intro front m back eq job took poll other known waiting command
  have least_ := Job.rank_le.mp (kept.first front m back eq job took other known waiting)
  rw [poll, command] at least_
  simp [priorityPoll, priorityCommand] at least_

theorem Kept.single (kept : Kept ms g) : ∃ running next : Option Job,
    begun ms = (ended ms).map Prod.fst ++ running.toList ∧
      taken ms = begun ms ++ next.toList := by
  obtain ⟨-, taken_eq, begun_eq, -⟩ := kept.placed
  cases worker : g.worker with
  | getting =>
    rw [worker] at taken_eq begun_eq
    exact ⟨none, none, begun_eq, by simp_all [Worker.job, Worker.executed]⟩
  | throttling job =>
    rw [worker] at taken_eq begun_eq
    exact ⟨none, some job, begun_eq, by simp_all [Worker.job, Worker.executed]⟩
  | executing job =>
    rw [worker] at taken_eq begun_eq
    exact ⟨some job, none, begun_eq, by simp_all [Worker.job, Worker.executed]⟩

theorem done_goesOn {job : Job} (runs : g.worker = .executing job) (outcome : Outcome) :
    ∃ t effects, g.step (.done outcome) = some (t, effects) ∧ t.worker = .getting ∧
      t.queue = g.queue ∧ effects.filterMap GovernorEffect.submittedJob = [] := by
  by_cases pending : g.futures[job.seq]? = some .pending
  · refine ⟨{ g with worker := .getting, futures := g.futures.set job.seq (.resolved outcome) },
      [.ended job outcome, .resolved job.seq outcome], ?_, rfl, rfl, rfl⟩
    exact done_settled runs pending
  · refine ⟨{ g with worker := .getting }, [.ended job outcome], ?_, rfl, rfl, rfl⟩
    simp only [step, runs, settle]

/-- How many steps the worker still has to take for the jobs that are there. -/
def work (g : Governor) : Nat :=
  3 * g.queue.length + match g.worker with
    | .getting => 0
    | .executing _ => 1
    | .throttling _ => 2

theorem worker_goes (answer : Job → Outcome) (left : g.work ≠ 0) :
    ∃ e t effects, g.step e = some (t, effects) ∧ g.worker.Goes answer e ∧ t.work < g.work ∧
      effects.filterMap GovernorEffect.submittedJob = [] := by
  cases worker : g.worker with
  | getting =>
    have waits : g.queue ≠ [] := by
      intro empty
      simp [work, worker, empty] at left
    obtain ⟨job, first⟩ := Option.ne_none_iff_exists'.mp (least_eq_none.not.mpr waits)
    have shorter := List.length_erase_of_mem (least_mem first)
    have some_ := List.length_pos_iff.mpr waits
    refine ⟨.take, { g with queue := g.queue.erase job, worker := .throttling job },
      [.taken job], by simp only [step, worker, first], trivial, ?_, rfl⟩
    simp only [work, worker, shorter]
    omega
  | throttling job =>
    refine ⟨.throttled, { g with worker := .executing job }, [.began job],
      by simp only [step, worker], trivial, ?_, rfl⟩
    simp [work, worker]
  | executing job =>
    obtain ⟨t, effects, h, free, queue, quiet⟩ := done_goesOn worker (answer job)
    refine ⟨.done (answer job), t, effects, h, rfl, ?_, quiet⟩
    simp [work, worker, free, queue]

theorem worker_drains (answer : Job → Outcome) (run : Run step start ms g) :
    ∃ more t, Run step start (ms ++ more) t ∧
      (∀ m ∈ more, m.before.worker.Goes answer m.event) ∧ t.work = 0 ∧
      submitted (ms ++ more) = submitted ms := by
  induction size : g.work using Nat.strong_induction_on generalizing ms g with
  | _ n ih =>
    by_cases left : g.work = 0
    · exact ⟨[], g, by simpa using run, by simp, left, by simp⟩
    · obtain ⟨e, t, effects, h, goes, less, quiet⟩ := worker_goes answer left
      obtain ⟨more, u, later, all, done_, same⟩ := ih _ (size ▸ less) (run.snoc h) rfl
      refine ⟨⟨g, e, effects, t⟩ :: more, u, by simpa using later, ?_, done_, ?_⟩
      · exact List.forall_mem_cons.mpr ⟨goes, all⟩
      · simpa [quiet] using same

theorem drains (answer : Job → Outcome) (run : Run step start ms g) :
    ∃ more t, Run step start (ms ++ more) t ∧
      (∀ m ∈ more, m.before.worker.Goes answer m.event) ∧ t.worker = .getting ∧
      (submitted ms).Perm ((ended (ms ++ more)).map Prod.fst) := by
  obtain ⟨more, t, later, all, done_, same⟩ := worker_drains answer run
  obtain ⟨-, taken_eq, -, conserved⟩ := (run_kept later).placed
  have free : t.worker = .getting := by
    unfold work at done_
    split at done_
    · assumption
    · omega
    · omega
  have empty : t.queue = [] := by
    have short : t.queue.length = 0 := by
      unfold work at done_
      omega
    exact List.length_eq_zero_iff.mp short
  refine ⟨more, t, later, all, free, ?_⟩
  rw [← same]
  simpa [taken_eq, free, empty] using conserved

/-- The governor serialises every run of its callers and its worker without loss. -/
theorem serialises (run : Run step start ms g) : Serialises ms g :=
  have kept := run_kept run
  { single := kept.single
    distinct := kept.placed.distinct
    conserved := kept.placed.conserved
    first := kept.first
    preempts := kept.preempts
    inOrder := kept.ordered.among
    own := fun _ member => kept.own member
    once := kept.answered.once
    goesOn := fun _ runs outcome =>
      let ⟨t, effects, h, free, _⟩ := done_goesOn runs outcome
      ⟨t, effects, h, free⟩
    drains := fun answer => drains answer run }

/-- A command overtakes the second of two polls, the first of which fails with its caller gone. -/
theorem command_serialised : ∃ ms g, Run step start ms g ∧ taken ms =
    [⟨10, 0, .read 0xB000 1⟩, ⟨0, 2, .write 0 [1]⟩, ⟨10, 1, .read 0 2⟩] ∧ Serialises ms g := by
  have reached : (Runs.feed step start [.submit 10 (.read 0xB000 1), .take,
      .submit 10 (.read 0 2), .submit 0 (.write 0 [1]), .cancel 0, .throttled,
      .done (.error .value), .take, .throttled, .done (.ok (.data [])), .take]).any
      (fun r => taken r.2 ==
        [⟨10, 0, .read 0xB000 1⟩, ⟨0, 2, .write 0 [1]⟩, ⟨10, 1, .read 0 2⟩]) = true := by
    decide +kernel
  obtain ⟨ms, g, run, -, tested⟩ := Runs.feed_reaches reached
  exact ⟨ms, g, run, beq_iff_eq.mp tested, serialises run⟩

end Governor

end R60V
