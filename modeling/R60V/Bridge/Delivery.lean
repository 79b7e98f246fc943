import R60V.Bridge.Conversation
import R60V.Bridge.Memory
import R60V.Bridge.Pacing
import R60V.Lib.Retries

/-! What the machine makes of the frames that the client writes. It takes the frames of a connection
in their order, executes or loses each, and is done with a connection when it greets the next. As
the client writes a frame again that it has no reply to, a frame may be executed more than once. -/
namespace R60V

open Python (Text)
open Retries (Follows perform done)
open Runs (Run Move outputs)

/-- What a frame does to a machine's memory. -/
structure Executor (M : Type) where
  execute : M → Text → M
  -- To execute a frame again changes nothing.
  again : ∀ frame, Retries.Idempotent execute frame
  -- The frames of reads change nothing.
  reads : ∀ address length, Retries.Silent execute (Protocol.buildRead address length)

/-- The way upstream with the machine at its end. -/
structure Delivery (M : Type) where
  upstream : Upstream
  -- The operations that have been begun.
  begun : List Job
  -- The frames that are on their way to the machine, each with the turn of its operation.
  inbox : List (Nat × Text)
  -- The frames that the machine has executed.
  executed : List (Nat × Text)
  -- What the machine has sent on the connection and the client has not read.
  line : Text
  memory : M

inductive DeliveryEvent where
  | upstream (e : UpstreamEvent)
  -- The machine executes the next frame, and what it replies gets through.
  | execute (reply : Text)
  -- The next frame is lost.
  | lose

namespace Delivery

variable {M : Type}

def start (memory : M) : Delivery M := ⟨.start, [], [], [], [], memory⟩

/-- The turn of the operation that was begun last. -/
def turn (d : Delivery M) : Nat := d.begun.length - 1

/-- What reaches the other end of a step upstream. -/
def hear (d : Delivery M) : UpstreamEffect → Delivery M
  | .governed (.began job) => { d with begun := d.begun ++ [job] }
  | .opened _ => { d with inbox := [], line := Protocol.hello }
  | .act (.send _ frame) => { d with inbox := d.inbox ++ [(d.turn, frame)] }
  | .act (.dial _) | .act (.hangUp _) | .broke _ | .governed _ => d

-- What the client reads it takes from the line.
def unread (d : Delivery M) : UpstreamEvent → Option Text
  | .resume _ (.bytes data) =>
    if d.line.take data.length = data then some (d.line.drop data.length) else none
  | _ => some d.line

def step (cfg : ClientConfig) (machine : Executor M) (d : Delivery M) :
    DeliveryEvent → Option (Delivery M × List UpstreamEffect)
  | .upstream e =>
    match d.unread e, d.upstream.step cfg e with
    | some line, some (upstream, effects) =>
      some (effects.foldl hear { d with upstream := upstream, line := line }, effects)
    | _, _ => none
  | .execute reply =>
    match d.inbox with
    | [] => none
    | x :: inbox =>
      some ({ d with
        inbox := inbox
        executed := d.executed ++ [x]
        line := d.line ++ reply
        memory := machine.execute d.memory x.2 }, [])
  | .lose =>
    match d.inbox with
    | [] => none
    | _ :: inbox => some ({ d with inbox := inbox }, [])

/-- What a step can do. -/
inductive Stepped (cfg : ClientConfig) (machine : Executor M) (d : Delivery M) :
    DeliveryEvent → Delivery M → List UpstreamEffect → Prop where
  | upstream {e : UpstreamEvent} {line : Text} {s : Upstream} {effects : List UpstreamEffect}
      (reads : d.unread e = some line) (h : d.upstream.step cfg e = some (s, effects)) :
      Stepped cfg machine d (.upstream e)
        (effects.foldl hear { d with upstream := s, line := line }) effects
  | execute {reply : Text} {x : Nat × Text} {inbox : List (Nat × Text)}
      (next : d.inbox = x :: inbox) :
      Stepped cfg machine d (.execute reply)
        { d with
          inbox := inbox
          executed := d.executed ++ [x]
          line := d.line ++ reply
          memory := machine.execute d.memory x.2 } []
  | lose {x : Nat × Text} {inbox : List (Nat × Text)} (next : d.inbox = x :: inbox) :
      Stepped cfg machine d .lose { d with inbox := inbox } []

variable {cfg : ClientConfig} {machine : Executor M} {d d' : Delivery M} {e : DeliveryEvent}
  {effects : List UpstreamEffect}

theorem step_stepped (h : d.step cfg machine e = some (d', effects)) :
    Stepped cfg machine d e d' effects := by
  cases e with
  | upstream e =>
    simp only [step] at h
    split at h
    · rename_i reads stepped
      cases h
      exact .upstream reads stepped
    · cases h
  | execute reply =>
    simp only [step] at h
    split at h
    · cases h
    · rename_i next
      cases h
      exact .execute next
  | lose =>
    simp only [step] at h
    split at h
    · cases h
    · rename_i next
      cases h
      exact .lose next

/- What is heard of a step. -/

theorem hear_begun (effects : List UpstreamEffect) (d : Delivery M) :
    (effects.foldl hear d).begun = d.begun ++
      (effects.filterMap Upstream.governedEffect).filterMap GovernorEffect.begunJob := by
  induction effects generalizing d with
  | nil => simp
  | cons effect effects ih =>
    rw [List.foldl_cons, ih]
    cases effect with
    | governed effect => cases effect <;> simp [hear, List.filterMap_cons]
    | act act => cases act <;> simp [hear, List.filterMap_cons]
    | opened _ | broke _ => simp [hear, List.filterMap_cons]

theorem hear_governed (effects : List GovernorEffect) (d : Delivery M) :
    (effects.map UpstreamEffect.governed).foldl hear d =
      { d with begun := d.begun ++ effects.filterMap GovernorEffect.begunJob } := by
  induction effects generalizing d with
  | nil => simp
  | cons effect effects ih =>
    rw [List.map_cons, List.foldl_cons, ih]
    cases effect <;> simp [hear, List.filterMap_cons]

theorem hear_ended {effects : List GovernorEffect}
    (none_ : effects.filterMap GovernorEffect.begunJob = []) (d : Delivery M) :
    (effects.map UpstreamEffect.governed).foldl hear d = d := by
  rw [hear_governed, none_, List.append_nil]

theorem hear_quiet {acts : List Act} (quiet : Quiet acts) (d : Delivery M) :
    (acts.map UpstreamEffect.act).foldl hear d = d := by
  induction acts with
  | nil => rfl
  | cons act acts ih =>
    have rest := ih fun id frame member => quiet id frame (List.mem_cons_of_mem _ member)
    cases act with
    | send id frame => exact absurd List.mem_cons_self (quiet id frame)
    | dial _ | hangUp _ => exact rest

/-- Whatever is heard, no frame is executed by it. -/
theorem hear_executed (effects : List UpstreamEffect) (d : Delivery M) :
    (effects.foldl hear d).executed = d.executed ∧ (effects.foldl hear d).memory = d.memory ∧
      (effects.foldl hear d).upstream = d.upstream := by
  induction effects generalizing d with
  | nil => exact ⟨rfl, rfl, rfl⟩
  | cons effect effects ih =>
    have same : (d.hear effect).executed = d.executed ∧ (d.hear effect).memory = d.memory ∧
        (d.hear effect).upstream = d.upstream := by
      unfold hear
      split <;> exact ⟨rfl, rfl, rfl⟩
    obtain ⟨executed, memory, upstream⟩ := ih (d.hear effect)
    exact ⟨executed.trans same.1, memory.trans same.2.1, upstream.trans same.2.2⟩

end Delivery

/- What the client takes on goes on with its own frame. -/

namespace Client

variable {cfg : ClientConfig} {c : Client} {r r' : Request} {a : Answer}
  {next : Client × List Act}

/-- An exchange waits for a reply to the frame that it has just written, or goes on waiting. -/
theorem resume_waits (running : c.task = .running r) (h : c.resume cfg a = some next)
    (goesOn : next.1.task = .running r') {use : Use} {attempt : Nat} {phase : Phase}
    (at_ : r'.point = .exchange use attempt phase) (late : phase ≠ .pace) :
    a = .done ∧ ((∃ id, r.point = .exchange use attempt .pace ∧
        next.2 = [.send id (frameOf r use)]) ∨
      (r.point = .exchange use attempt .drain ∧ next.2 = [])) := by
  have outside : ¬ next.1.Between r.frame := fun between =>
    late ((between.frame goesOn).2 _ _ _ at_)
  cases resume_resumes running h with
  | dropped _ | ungreeted _ _ => exact absurd (suspend_between c r (by simp)) outside
  | opened _ | refused _ _ => exact absurd (suspend_between _ r (by simp)) outside
  | greeted _ _ => exact absurd (beginExchange_between c r _) outside
  | retried _ => exact absurd (connect_between c r _) outside
  | redone _ => exact absurd (nextAttempt_between cfg c r _) outside
  | @exchanged use _ _ _ _ here exchanges =>
    cases exchanges with
    | issued _ _ =>
      cases goesOn
      cases at_
      exact ⟨rfl, Or.inl ⟨_, here, rfl⟩⟩
    | drained _ _ _ =>
      cases goesOn
      cases at_
      exact ⟨rfl, Or.inr ⟨here, rfl⟩⟩
    | swallowed _ =>
      cases goesOn
      cases at_
      exact absurd rfl late
    | unlinked _ | unencoded _ _ | readerless _ | unreadable _ _ | negative _ _ _ =>
      cases goesOn
    | replied _ _ =>
      cases use with
      | warmUp _ => exact absurd (beginExchange_between c r .main) outside
      | main => cases goesOn
    | undrained | garbled _ _ | silent _ | short | broken =>
      exact absurd (exchangeFailed_between cfg c r use _) outside

end Client

namespace Delivery

variable {M : Type} {cfg : ClientConfig} {machine : Executor M} {initial : M} {d d' : Delivery M}
  {e : DeliveryEvent} {effects : List UpstreamEffect} {s : Upstream} {ue : UpstreamEvent} {i : Nat}
  {job : Job} {next : Client × List Act} {news : List UpstreamEffect}

/-- What is heard where the client takes an operation on: nothing, a new connection, or one
frame. -/
inductive Heard (s : Upstream) (i : Nat) (job : Job) (d : Delivery M) : Delivery M → Prop where
  | nothing : Heard s i job d d
  | opened : Heard s i job d { d with inbox := [], line := Protocol.hello }
  | wrote {r : Request} {use : Use} {attempt : Nat}
      (here : s.calls[i]? = some ⟨job, .holding r⟩) (at_ : r.point = .exchange use attempt .pace) :
      Heard s i job d { d with inbox := d.inbox ++ [(d.turn, Client.frameOf r use)] }

theorem heard (advances : s.Advances cfg ue i job next news) (d : Delivery M) :
    Heard s i job d ((news ++ next.2.map UpstreamEffect.act).foldl hear d) := by
  cases advances with
  | acquired here free h =>
    rw [List.nil_append, hear_quiet (Client.request_quiet h)]
    exact .nothing
  | @resumed _ _ r a _ here h =>
    rw [List.foldl_append]
    rcases Client.resume_sends rfl h with quiet | ⟨rfl, use, attempt, id, at_, acts⟩
    · rw [hear_quiet quiet]
      unfold Upstream.opening
      split
      · exact .opened
      · exact .nothing
    · rw [acts]
      exact .wrote here at_

/-- The machine comes to the frames in the order in which their operations were begun. -/
structure Kept (machine : Executor M) (initial : M) (d : Delivery M) : Prop where
  sound : ∃ ms, Upstream.Sound ms d.upstream
  current : ∀ p ∈ d.upstream.calls, d.begun.getLast? = some p.job ∧
    ∀ r, p.stage = .holding r → r.frame = p.job.op.frame
  follows : Follows machine.execute (d.begun.map (·.op.frame)) 0 (d.executed ++ d.inbox)
  memory : d.memory = perform machine.execute d.executed initial

theorem kept_start (memory : M) : Kept machine memory (start memory) where
  sound := ⟨[], .start⟩
  current := by simp [start, Upstream.start]
  follows := .nil
  memory := rfl

/-- A frame is that of the operation under way, or the one that warms a connection up. -/
theorem Kept.planned (kept : Kept machine initial d) {r : Request}
    (here : d.upstream.calls[i]? = some ⟨job, .holding r⟩) (use : Use) :
    Client.frameOf r use = job.op.frame ∨
      Retries.Silent machine.execute (Client.frameOf r use) := by
  cases use with
  | warmUp backoff => exact Or.inr (machine.reads _ _)
  | main => exact Or.inl ((kept.current _ (List.mem_of_getElem? here)).2 r rfl)

theorem Heard.follows (kept : Kept machine initial d) {line : Text}
    (heard : Heard d.upstream i job { d with upstream := s, line := line } d') :
    Follows machine.execute (d'.begun.map (·.op.frame)) 0 (d'.executed ++ d'.inbox) := by
  cases heard with
  | nothing => exact kept.follows
  | opened => exact kept.follows.sublist (by simp)
  | @wrote r use attempt here at_ =>
    have last := (kept.current _ (List.mem_of_getElem? here)).1
    have planned := kept.planned here use
    have longer := kept.follows.snoc (by rw [List.getLast?_map, last]; rfl) planned
    rw [Nat.zero_add, List.length_map, List.append_assoc] at longer
    exact longer

theorem Heard.begun (heard : Heard s i job d d') : d'.begun = d.begun := by
  cases heard <;> rfl

/-- What is begun in a step is begun when nothing else is under way. -/
theorem begun_alone {begun : List Job} {t : Upstream} {ms : Upstream.Trace}
    (sound : Upstream.Sound ms t)
    (calls : t.calls = s.calls ++ begun.map (⟨·, .waiting⟩)) :
    begun = [] ∨ ∃ job, begun = [job] ∧ s.calls = [] := by
  have short := sound.calls_le
  rw [calls, List.length_append, List.length_map] at short
  match begun with
  | [] => exact Or.inl rfl
  | [job] => exact Or.inr ⟨job, rfl, List.length_eq_zero_iff.mp (by simpa using short)⟩
  | _ :: _ :: _ =>
    simp only [List.length_cons] at short
    omega

/-- An operation that the client has taken on goes on with the frame that it was begun with. -/
theorem Kept.goesOn (kept : Kept machine initial d)
    (advances : d.upstream.Advances cfg ue i job next news) {r : Request}
    (running : next.1.task = .running r) :
    d.begun.getLast? = some job ∧ r.frame = job.op.frame := by
  cases advances with
  | acquired here free h =>
    exact ⟨(kept.current _ (List.mem_of_getElem? here)).1,
      ((Client.request_between h).frame running).1⟩
  | @resumed _ _ r' a _ here h =>
    obtain ⟨last, frame⟩ := kept.current _ (List.mem_of_getElem? here)
    exact ⟨last, (Client.resume_frame rfl h running).trans (frame r' rfl)⟩

/-- What a step upstream changes of the plan and of the log. -/
theorem Kept.upstream (kept : Kept machine initial d) {ms : Upstream.Trace}
    (sound : Upstream.Sound ms d.upstream) (stepped : d.upstream.step cfg ue = some (s, effects))
    (line : Text) (after : effects.foldl hear { d with upstream := s, line := line } = d') :
    (∀ p ∈ s.calls, d'.begun.getLast? = some p.job ∧
      ∀ r, p.stage = .holding r → r.frame = p.job.op.frame) ∧
    Follows machine.execute (d'.begun.map (·.op.frame)) 0 (d'.executed ++ d'.inbox) := by
  have later := Upstream.step_sound sound stepped
  cases Upstream.step_stepped stepped with
  | governed of governs =>
    rw [hear_governed] at after
    subst after
    rcases begun_alone later rfl with none_ | ⟨job, one, free⟩
    · simp only [none_, List.map_nil, List.append_nil]
      exact ⟨kept.current, kept.follows⟩
    · simp only [one, free, List.nil_append, List.map_append, List.map_cons, List.map_nil]
      refine ⟨?_, kept.follows.extend _⟩
      intro p member
      rw [List.mem_singleton.mp member]
      exact ⟨List.getLast?_concat .., fun r stage => by cases stage⟩
  | @goesOn _ i job next news r advances running =>
    have heard : Heard d.upstream i job _ d' := after ▸ heard advances _
    refine ⟨?_, heard.follows kept⟩
    obtain ⟨stage, here⟩ := advances.here
    obtain ⟨rfl, only⟩ := sound.calls_eq here
    obtain ⟨last, frame⟩ := kept.goesOn advances running
    intro p member
    simp only [only, List.set_cons_zero, List.mem_singleton] at member
    rw [member, heard.begun]
    refine ⟨last, fun r' stage => ?_⟩
    cases stage
    exact frame
  | @returns _ i job next news frame result governor advances ended governs =>
    rw [← List.append_assoc, List.foldl_append, hear_ended (Governor.step_done governs).2.2]
      at after
    have heard : Heard d.upstream i job _ d' := after ▸ heard advances _
    obtain ⟨stage, here⟩ := advances.here
    obtain ⟨rfl, only⟩ := sound.calls_eq here
    exact ⟨by simp [only], heard.follows kept⟩
  | closed =>
    have quiet : Quiet (d.upstream.view .idle).close.2 := Client.drop_quiet
    rw [hear_quiet quiet] at after
    subst after
    exact ⟨kept.current, kept.follows⟩
  | lost linked up =>
    subst after
    exact ⟨kept.current, kept.follows⟩

theorem step_kept (kept : Kept machine initial d)
    (h : d.step cfg machine e = some (d', effects)) : Kept machine initial d' := by
  obtain ⟨ms, sound⟩ := kept.sound
  cases step_stepped h with
  | execute next =>
    refine ⟨kept.sound, kept.current, ?_, ?_⟩
    · simpa [next] using kept.follows
    · rw [Retries.perform_append, ← kept.memory]
      rfl
  | lose next =>
    refine ⟨kept.sound, kept.current, kept.follows.sublist ?_, kept.memory⟩
    rw [next]
    exact (List.sublist_cons_self _ _).append_left _
  | @upstream e line s _ reads stepped =>
    obtain ⟨executed, memory, same⟩ := hear_executed effects { d with upstream := s, line := line }
    obtain ⟨current, follows⟩ := kept.upstream sound stepped line rfl
    refine ⟨⟨ms ++ [⟨d.upstream, e, effects, s⟩], ?_⟩, ?_, follows, ?_⟩
    · rw [same]
      exact Upstream.step_sound sound stepped
    · rw [same]
      exact current
    · rw [memory, executed]
      exact kept.memory

/- Replies. -/

/-- A frame is written when nothing of an earlier one is outstanding on the connection. -/
def Prompt (m : Move (Delivery M) DeliveryEvent UpstreamEffect) : Prop :=
  ∀ id frame, .act (.send id frame) ∈ m.emits → m.before.inbox = [] ∧ m.before.line = []

/-- While the client waits for a reply, only the frame that it has written is on its way, and only
that frame can have been replied to. -/
def Attended (d : Delivery M) : Prop :=
  ∀ p ∈ d.upstream.calls, ∀ r use attempt phase, p.stage = .holding r →
    r.point = .exchange use attempt phase → phase ≠ .pace →
      (∀ x ∈ d.inbox, x = (d.turn, Client.frameOf r use)) ∧
        (d.line ≠ [] → (d.turn, Client.frameOf r use) ∈ d.executed)

theorem unread_nil {line : Text} (reads : d.unread ue = some line) (empty : d.line = []) :
    line = [] := by
  unfold unread at reads
  split at reads
  · split at reads
    · cases reads
      rw [empty, List.drop_nil]
    · cases reads
  · cases reads
    exact empty

theorem Attended.upstream (attended : d.Attended) {ms : Upstream.Trace}
    (sound : Upstream.Sound ms d.upstream) {line : Text} (reads : d.unread ue = some line)
    (stepped : d.upstream.step cfg ue = some (s, effects))
    (prompt : ∀ id frame, .act (.send id frame) ∈ effects → d.inbox = [] ∧ d.line = [])
    (after : effects.foldl hear { d with upstream := s, line := line } = d')
    (moved : d'.upstream = s) : d'.Attended := by
  have later := Upstream.step_sound sound stepped
  have unread : line ≠ [] → d.line ≠ [] := mt (unread_nil reads)
  cases Upstream.step_stepped stepped with
  | governed of governs =>
    rw [hear_governed] at after
    subst after
    intro p member r use attempt phase stage
    rcases begun_alone later rfl with none_ | ⟨job, one, free⟩
    · simp only [none_, List.map_nil, List.append_nil] at member ⊢
      intro at_ late
      obtain ⟨inbox, replied⟩ := attended p member r use attempt phase stage at_ late
      exact ⟨by simpa [turn] using inbox, fun some_ => replied (unread some_)⟩
    · simp only [one, free, List.nil_append, List.map_cons, List.map_nil,
        List.mem_singleton] at member
      subst member
      cases stage
  | @goesOn _ i job next news r advances running =>
    obtain ⟨stage, here⟩ := advances.here
    obtain ⟨rfl, only⟩ := sound.calls_eq here
    intro p member q use attempt phase stage at_ late
    rw [moved] at member
    simp only [only, List.set_cons_zero, List.mem_singleton] at member
    subst member
    cases stage
    cases advances with
    | acquired here free h =>
      exact absurd (((Client.request_between h).frame running).2 _ _ _ at_) late
    | @resumed _ _ r' a _ here h =>
      have frame : Client.frameOf r use = Client.frameOf r' use := by
        cases use with
        | warmUp _ => rfl
        | main => exact Client.resume_frame rfl h running
      obtain ⟨rfl, ⟨id, -, acts⟩ | ⟨before, acts⟩⟩ :=
        Client.resume_waits rfl h running at_ late
      · have sent : UpstreamEffect.act (.send id (Client.frameOf r' use)) ∈
            d.upstream.opening .done ++ next.2.map .act := by simp [acts]
        obtain ⟨inbox, empty⟩ := prompt _ _ sent
        have none_ := unread_nil reads empty
        rw [acts] at after
        subst after
        rw [frame]
        constructor
        · simp [Upstream.opening, hear, inbox, turn]
        · simp [Upstream.opening, hear, none_]
      · rw [acts] at after
        subst after
        rw [frame]
        obtain ⟨inbox, replied⟩ := attended _ (List.mem_of_getElem? here) r' use attempt .drain
          rfl before (by simp)
        exact ⟨inbox, fun some_ => replied (unread some_)⟩
  | @returns _ i job next news frame result governor advances ended governs =>
    obtain ⟨stage, here⟩ := advances.here
    obtain ⟨rfl, only⟩ := sound.calls_eq here
    intro p member
    rw [moved] at member
    simp [only] at member
  | closed =>
    have quiet : Quiet (d.upstream.view .idle).close.2 := Client.drop_quiet
    rw [hear_quiet quiet] at after
    subst after
    intro p member r use attempt phase stage at_ late
    obtain ⟨inbox, replied⟩ := attended p member r use attempt phase stage at_ late
    exact ⟨inbox, fun some_ => replied (unread some_)⟩
  | lost linked up =>
    subst after
    intro p member r use attempt phase stage at_ late
    obtain ⟨inbox, replied⟩ := attended p member r use attempt phase stage at_ late
    exact ⟨inbox, fun some_ => replied (unread some_)⟩

theorem step_attended (kept : Kept machine initial d) (attended : d.Attended)
    (h : d.step cfg machine e = some (d', effects)) (prompt : Prompt ⟨d, e, effects, d'⟩) :
    d'.Attended := by
  obtain ⟨ms, sound⟩ := kept.sound
  cases step_stepped h with
  | @execute reply x inbox next =>
    intro p member r use attempt phase stage at_ late
    obtain ⟨only, replied⟩ := attended p member r use attempt phase stage at_ late
    obtain rfl : x = (d.turn, Client.frameOf r use) := only x (next ▸ List.mem_cons_self)
    refine ⟨fun y later => only y (next ▸ List.mem_cons_of_mem _ later), fun _ => ?_⟩
    exact List.mem_append_right _ List.mem_cons_self
  | lose next =>
    intro p member r use attempt phase stage at_ late
    obtain ⟨only, replied⟩ := attended p member r use attempt phase stage at_ late
    exact ⟨fun y later => only y (next ▸ List.mem_cons_of_mem _ later), replied⟩
  | upstream reads stepped =>
    exact attended.upstream sound reads stepped prompt rfl (hear_executed effects _).2.2

/-- The frame of an operation has been executed in the turn of the operation. -/
def Performed (d : Delivery M) (job : Job) : Prop :=
  ∃ k : Nat, d.begun[k]? = some job ∧ (k, job.op.frame) ∈ d.executed

theorem Performed.step {job : Job} (performed : d.Performed job)
    (h : d.step cfg machine e = some (d', effects)) : d'.Performed job := by
  obtain ⟨k, turn, executed⟩ := performed
  cases step_stepped h with
  | execute _ => exact ⟨k, turn, List.mem_append_left _ executed⟩
  | lose _ => exact ⟨k, turn, executed⟩
  | @upstream e line s _ _ _ =>
    refine ⟨k, ?_, ?_⟩
    · rw [hear_begun]
      have inside := (List.getElem?_eq_some_iff.mp turn).1
      rwa [List.getElem?_append_left inside]
    · rw [(hear_executed effects { d with upstream := s, line := line }).1]
      exact executed

/-- Where an operation has succeeded, the client has read a reply. -/
theorem succeeded {ms : Upstream.Trace} (sound : Upstream.Sound ms d.upstream)
    (stepped : d.upstream.step cfg ue = some (s, effects)) {job : Job} {value : OpResult}
    (ended : UpstreamEffect.governed (.ended job (.ok value)) ∈ effects) :
    ∃ p ∈ d.upstream.calls, ∃ r attempt data, p = ⟨job, .holding r⟩ ∧ data ≠ [] ∧
      r.point = .exchange .main attempt .reply ∧ ∃ i, ue = .resume i (.bytes data) := by
  have quiet : ∀ acts : List Act, UpstreamEffect.governed (.ended job (.ok value)) ∉
      acts.map UpstreamEffect.act := by simp
  have quiet' : ∀ a, UpstreamEffect.governed (.ended job (.ok value)) ∉ d.upstream.opening a := by
    intro a new
    unfold Upstream.opening at new
    split at new <;> simp at new
  cases Upstream.step_stepped stepped with
  | @governed _ ge next of governs =>
    obtain ⟨g, more⟩ := next
    simp only [List.mem_map, UpstreamEffect.governed.injEq, exists_eq_right] at ended
    cases Governor.step_stepped governs with
    | submit | cancel _ | take _ _ | throttled _ => simp at ended
    | settled _ _ | abandoned _ _ => cases ue <;> simp [UpstreamEvent.governed] at of
  | goesOn advances _ =>
    rcases List.mem_append.mp ended with new | old
    · cases advances with
      | acquired _ _ _ => cases new
      | resumed _ _ => exact absurd new (quiet' _)
    · exact absurd old (quiet _)
  | @returns _ i job' next news frame result governor advances finished governs =>
    obtain ⟨stage, here⟩ := advances.here
    obtain ⟨rfl, only⟩ := sound.calls_eq here
    obtain ⟨rfl, outcome⟩ : job' = job ∧ job'.op.outcome result = .ok value := by
      have last : GovernorEffect.ended job (.ok value) ∈ governor.2 := by
        rcases List.mem_append.mp ended with new | later
        · cases advances with
          | acquired _ _ _ => cases new
          | resumed _ _ => exact absurd new (quiet' _)
        · rcases List.mem_append.mp later with old | last
          · exact absurd old (quiet _)
          · simpa using last
      have working := sound.working
      obtain ⟨g, more⟩ := governor
      cases Governor.step_stepped governs with
      | settled runs _ | abandoned runs _ =>
        simp only [only, runs, List.map_cons, List.map_nil, Worker.executed, Option.toList_some,
          List.cons.injEq, and_true] at working
        subst working
        simp only [List.mem_cons, GovernorEffect.ended.injEq, reduceCtorEq, List.not_mem_nil,
          or_false] at last
        exact ⟨last.1.symm, last.2.symm⟩
    cases result with
    | error x => cases outcome
    | ok f =>
      cases advances with
      | acquired _ _ h =>
        rcases Client.request_between h with ⟨r, running, -⟩ | ⟨x, error⟩
        · cases running.symm.trans finished
        · cases error.symm.trans finished
      | @resumed _ _ r a _ here h =>
        cases Client.resume_resumed rfl h with
        | goesOn _ _ running => cases running.symm.trans finished
        | @returns attempt data _ _ at_ _ parsed _ =>
          refine ⟨_, List.mem_of_getElem? here, r, attempt, data, rfl, ?_, at_, 0, rfl⟩
          rintro rfl
          cases parsed
        | between between =>
          rcases between with ⟨r, running, -⟩ | ⟨x, error⟩
          · cases running.symm.trans finished
          · cases error.symm.trans finished
  | closed => exact absurd ended (quiet _)
  | lost _ _ => simp at ended

/-- An operation that has succeeded has been executed. -/
theorem acknowledged (kept : Kept machine initial d) (attended : d.Attended)
    (h : d.step cfg machine e = some (d', effects)) {job : Job} {value : OpResult}
    (ended : UpstreamEffect.governed (.ended job (.ok value)) ∈ effects) : d'.Performed job := by
  apply Performed.step _ h
  obtain ⟨ms, sound⟩ := kept.sound
  cases step_stepped h with
  | execute _ | lose _ => cases ended
  | @upstream ue line s _ reads stepped =>
    obtain ⟨p, member, r, attempt, data, rfl, some_, at_, i, rfl⟩ := succeeded sound stepped ended
    obtain ⟨last, frame⟩ := kept.current _ member
    have there : d.line ≠ [] := by
      intro empty
      simp only [unread, empty, List.take_nil] at reads
      split at reads
      · rename_i same
        exact some_ same.symm
      · cases reads
    have replied := (attended _ member r .main attempt .reply rfl at_ (by simp)).2 there
    have own : Client.frameOf r .main = job.op.frame := frame r rfl
    rw [own] at replied
    refine ⟨d.turn, ?_, replied⟩
    rw [turn, ← List.getLast?_eq_getElem?]
    exact last

variable {ms : List (Move (Delivery M) DeliveryEvent UpstreamEffect)}

/-- **Retries have the effect of one delivery.** In every run, whatever is lost, written again,
reconnected, closed, cancelled or given up, the memory of the machine is that after some of the
operations that have been begun, each performed once and in the order in which they were begun;
and as long as no reply outlives the wait for it, every operation that has succeeded is one of
them. -/
theorem delivered_once (run : Run (step cfg machine) (start initial) ms d) :
    d.begun = ((outputs ms).filterMap Upstream.governedEffect).filterMap GovernorEffect.begunJob ∧
    d.memory = (done (d.begun.map (·.op.frame)) 0 d.executed).foldl machine.execute initial ∧
    ((∀ m ∈ ms, Prompt m) → ∀ job value,
      UpstreamEffect.governed (.ended job (.ok value)) ∈ outputs ms → d.Performed job) := by
  have preserved : ∀ d e d' os, Kept machine initial d → step cfg machine d e = some (d', os) →
      Kept machine initial d' := fun _ _ _ _ kept h => step_kept kept h
  refine ⟨?_, ?_, ?_⟩
  · induction run with
    | nil => rfl
    | snoc _ h ih =>
      rw [Runs.outputs_snoc, List.filterMap_append, List.filterMap_append, ← ih]
      cases step_stepped h with
      | upstream _ _ => exact hear_begun _ _
      | execute _ | lose _ => exact (List.append_nil _).symm
  · have kept := run.invariant (Kept machine initial) (kept_start initial) preserved
    have follows := kept.follows.sublist (List.sublist_append_left d.executed d.inbox)
    rw [kept.memory, Retries.perform_eq_done follows fun f _ => machine.again f]
  · intro prompt
    suffices h : d.Attended ∧ ∀ job value,
        UpstreamEffect.governed (.ended job (.ok value)) ∈ outputs ms → d.Performed job from h.2
    induction run with
    | nil => exact ⟨by simp [Attended, start, Upstream.start], by simp⟩
    | snoc run h ih =>
      obtain ⟨attended, performed⟩ := ih fun m member => prompt m (List.mem_append_left _ member)
      have kept := run.invariant (Kept machine initial) (kept_start initial) preserved
      refine ⟨step_attended kept attended h (prompt _ (by simp)), fun job value ended => ?_⟩
      rw [Runs.outputs_snoc] at ended
      rcases List.mem_append.mp ended with old | new
      · exact (performed job value old).step h
      · exact acknowledged kept attended h new

end Delivery

/- The emulator is such a machine. -/

namespace MachineModel

theorem indexOf_congr {m n : MachineModel} (same : m.settings.length = n.settings.length)
    (a : Int) : indexOf m.settings a = indexOf n.settings a := by
  simp only [indexOf, same]

theorem indexOf_inside {xs : List Int} {a : Int} {i : Nat} (position : indexOf xs a = some i) :
    i < xs.length := by
  obtain ⟨bounds, same⟩ := Option.ite_none_right_eq_some.mp position
  rw [Option.some.injEq] at same
  rw [← same]
  exact (Int.toNat_lt bounds.1).mpr bounds.2

/-- A write overwrites with the same bytes, whatever was there before. -/
theorem writeFrom_patch (n : MachineModel) (a : Int) (data : List Int) :
    ∃ patch : Nat → Option Int, ∀ m : MachineModel, m.settings.length = n.settings.length →
      ∃ settings, (m.writeFrom a data).1 = { m with settings := settings } ∧
        ∀ x, settings[x]? = (patch x).or m.settings[x]? := by
  induction data generalizing a with
  | nil => exact ⟨fun _ => none, fun m _ => ⟨m.settings, rfl, fun x => rfl⟩⟩
  | cons value rest ih =>
    cases position : indexOf n.settings a with
    | none =>
      refine ⟨fun _ => none, fun m size => ⟨m.settings, ?_, fun x => rfl⟩⟩
      simp only [writeFrom, indexOf_congr size, position]
    | some i =>
      obtain ⟨patch, patched⟩ := ih (a + 1)
      refine ⟨fun x => (patch x).or (if x = i then some (value % 256) else none), fun m size => ?_⟩
      obtain ⟨settings, same, at_⟩ := patched { m with settings := m.settings.set i (value % 256) }
        (by simpa using size)
      refine ⟨settings, ?_, fun x => ?_⟩
      · simp only [writeFrom, indexOf_congr size, position, same]
      · have inside := indexOf_inside ((indexOf_congr size a).trans position)
        rw [at_ x, List.getElem?_set, Option.or_assoc]
        congr 1
        by_cases here : i = x
        · subst here
          simp [inside]
        · simp [here, Ne.symm here]

theorem write_again (m : MachineModel) (a : Int) (data : List Int) :
    ((m.write a data).1.write a data).1 = (m.write a data).1 := by
  unfold write
  split
  · rfl
  · obtain ⟨patch, patched⟩ := writeFrom_patch m a data
    obtain ⟨once, same, at_⟩ := patched m rfl
    obtain ⟨twice, same', at_'⟩ := patched (m.writeFrom a data).1 (length_writeFrom a data)
    rw [same', same]
    simp only [same] at at_'
    congr 1
    apply List.ext_getElem?
    intro x
    rw [at_' x, at_ x, ← Option.or_assoc, Option.or_self]

end MachineModel

namespace Emulator

theorem command_of_head {raw : Text} {f : Protocol.Frame}
    (parsed : Protocol.parseFrame true raw = .ok f) :
    Protocol.Command.ofChar (raw.headD ' ') = some f.command := by
  unfold Protocol.parseFrame at parsed
  split at parsed
  · cases parsed
  · split at parsed
    · cases parsed
    · rename_i head
      rw [head]
      split at parsed
      · dsimp only at parsed
        split at parsed
        · cases parsed
        · split at parsed
          · cases parsed
          · cases parsed
            rfl
      · cases parsed

def execute (now : List Int) (m : MachineModel) (frame : Text) : MachineModel :=
  (process m now frame).1

/-- What a frame does to the memory, whatever it is answered with. -/
theorem execute_eq (now : List Int) (m : MachineModel) (frame : Text) :
    execute now m frame = match Protocol.parseFrame true frame with
      | .error _ => m
      | .ok f => match f.command with
        | .read => m
        | .write => (m.write f.address f.data).1 := by
  unfold execute process
  cases Protocol.parseFrame true frame with
  | error e => rfl
  | ok f =>
    dsimp only
    cases f.command with
    | read => rfl
    | write =>
      dsimp only
      generalize m.write f.address f.data = after
      obtain ⟨m', failure⟩ := after
      cases failure with
      | some e => rfl
      | none =>
        dsimp only
        split <;> rfl

theorem execute_again (now : List Int) (frame : Text) :
    Retries.Idempotent (execute now) frame := by
  intro m
  simp only [execute_eq]
  cases Protocol.parseFrame true frame with
  | error e => rfl
  | ok f =>
    dsimp only
    cases f.command with
    | read => rfl
    | write => exact m.write_again f.address f.data

theorem execute_read (now : List Int) (address length : Int) :
    Retries.Silent (execute now) (Protocol.buildRead address length) := by
  intro m
  rw [execute_eq]
  cases parsed : Protocol.parseFrame true (Protocol.buildRead address length) with
  | error e => rfl
  | ok f =>
    have command := command_of_head parsed
    have head : Protocol.Command.ofChar ((Protocol.buildRead address length).headD ' ') =
        some .read := rfl
    rw [head, Option.some.injEq] at command
    simp only [← command]

def executor (now : List Int) : Executor MachineModel where
  execute := execute now
  again := execute_again now
  reads := execute_read now

end Emulator

namespace Delivery

def promptTest (m : Move (Delivery MachineModel) DeliveryEvent UpstreamEffect) : Bool :=
  !m.emits.any UpstreamEffect.isSend || m.before.inbox.isEmpty && m.before.line.isEmpty

theorem promptTest_sound {m : Move (Delivery MachineModel) DeliveryEvent UpstreamEffect}
    (test : promptTest m = true) : Prompt m := by
  intro id frame sent
  have sends : m.emits.any UpstreamEffect.isSend = true := List.any_eq_true.mpr ⟨_, sent, rfl⟩
  simpa [promptTest, sends] using test

def succeeds (op : Call) : UpstreamEffect → Bool
  | .governed (.ended job (.ok _)) => job.op == op
  | _ => false

/-- A setpoint on a new connection; the first acknowledgement gets lost. -/
def setpointTwice : List DeliveryEvent :=
  let settings := Protocol.buildFrame .read Protocol.settingsBase Protocol.settingsLen
    (MachineModel.initial.settings.take Protocol.settingsLen)
  let acknowledged := Protocol.buildAck .write 2 1
  [.upstream (.submit 0 (.write 2 [100])), .upstream .take, .upstream .throttled,
    .upstream (.acquire 0), .upstream (.resume 0 .opened),
    .upstream (.resume 0 (.bytes Protocol.hello)), .upstream (.resume 0 .done), .execute settings,
    .upstream (.resume 0 .done), .upstream (.resume 0 (.bytes settings)),
    .upstream (.resume 0 .done), .execute [], .upstream (.resume 0 .done),
    .upstream (.resume 0 .timeout), .upstream (.resume 0 .done), .execute acknowledged,
    .upstream (.resume 0 .done), .upstream (.resume 0 (.bytes acknowledged))]

/-- The setpoint is executed twice, and set once. -/
theorem setpoint_delivered_once :
    ∃ ms d, Run (step .default (Emulator.executor [])) (start MachineModel.initial) ms d ∧
      (d.executed.filter (·.2 == (Call.write 2 [100]).frame)).length = 2 ∧
      d.memory = (Emulator.executor []).execute MachineModel.initial (Call.write 2 [100]).frame ∧
      ∃ job, job.op = .write 2 [100] ∧ d.Performed job := by
  have fed : (Runs.feed (step .default (Emulator.executor [])) (start MachineModel.initial)
      setpointTwice).any (fun r =>
        (r.1.executed.filter (·.2 == (Call.write 2 [100]).frame)).length == 2 &&
        done (r.1.begun.map (·.op.frame)) 0 r.1.executed == [(Call.write 2 [100]).frame] &&
        (outputs r.2).any (succeeds (.write 2 [100])) && r.2.all promptTest) = true := by
    decide +kernel
  obtain ⟨ms, d, run, -, reached⟩ := Runs.feed_reaches fed
  simp only [Bool.and_eq_true, beq_iff_eq, List.all_eq_true, List.any_eq_true] at reached
  obtain ⟨⟨⟨twice, once⟩, x, emitted, success⟩, prompt⟩ := reached
  obtain ⟨-, memory, performed⟩ := delivered_once run
  rw [once, List.foldl_cons, List.foldl_nil] at memory
  refine ⟨ms, d, run, twice, memory, ?_⟩
  unfold succeeds at success
  split at success
  · rename_i job value
    refine ⟨job, beq_iff_eq.mp success, ?_⟩
    exact performed (fun m member => promptTest_sound (prompt m member)) job value emitted
  · cases success

end Delivery

end R60V
