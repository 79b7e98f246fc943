import R60V.Bridge.Interruption
import R60V.Bridge.Reconnect

/-! Why a request gives a connection up: what its frames have come to on it is a fault of the
connection, or as many tries without a reply as the client allows. -/
namespace R60V

open Python (Text)
open Protocol (parseFrame Frame)
open Runs (Run Move Along)

/-- What a connection shows of a request: the frames that are written, and what comes of waiting for
the greeting, for a write to go out and for a reply. -/
inductive Seen where
  | sent (id : Nat) (frame : Text)
  | greeting (id : Nat) (a : Answer)
  | unflushed (id : Nat)
  | reply (id : Nat) (frame : Text) (a : Answer)

namespace Seen

def ofAct : Act → Option Seen
  | .send id frame => some (.sent id frame)
  | .dial _ | .hangUp _ => none

/-- What a request waits for on a connection, when it is resumed with an answer. -/
def ofAnswer (id : Nat) (r : Request) (a : Answer) : List Seen :=
  match r.point, a with
  | .greeting _, a => [.greeting id a]
  | .exchange _ _ .drain, .osError => [.unflushed id]
  | .exchange use _ .reply, a => [.reply id (Client.frameOf r use) a]
  | _, _ => []

def ofMove (m : Move Client Interruption Act) : List Seen :=
  (match m.event, m.before.task, m.before.link with
    | .resume a, .running r, some l => ofAnswer l.id r a
    | _, _, _ => []) ++ m.emits.filterMap ofAct

def trace (ms : List (Move Client Interruption Act)) : List Seen := ms.flatMap ofMove

/-- A frame that has been written so many times and got no reply in time. -/
def unanswered (id : Nat) (frame : Text) (n : Nat) : List Seen :=
  (List.replicate n [.sent id frame, .reply id frame .timeout]).flatten

/-- What a connection may be given up for: the last that it has shown. -/
inductive Fault (cfg : ClientConfig) (id : Nat) (frame : Text) : List Seen → Prop where
  | noGreeting {t : List Seen} {a : Answer} (missing : ∀ data, a ≠ .bytes data) :
      Fault cfg id frame (t ++ [.greeting id a])
  | write {t : List Seen} : Fault cfg id frame (t ++ [.unflushed id])
  | read {t : List Seen} {asked : Text} : Fault cfg id frame (t ++ [.reply id asked .osError])
  | short {t : List Seen} {asked got : Text} :
      Fault cfg id frame (t ++ [.reply id asked (.eof got)])
  | garbled {t : List Seen} {asked data : Text} {e : Protocol.ProtocolError}
      (unparsable : parseFrame true data = .error e) :
      Fault cfg id frame (t ++ [.reply id asked (.bytes data)])
  | silent {t : List Seen} : Fault cfg id frame (t ++ unanswered id frame (cfg.maxRetries + 1))

end Seen

open Seen

theorem unanswered_succ (id : Nat) (frame : Text) (n : Nat) : unanswered id frame (n + 1) =
    unanswered id frame n ++ [.sent id frame, .reply id frame .timeout] := by
  rw [unanswered, List.replicate_succ', List.flatten_concat]
  rfl

/-- What the trace says of a client with a link: the tries of its exchange are on it, or the fault
for which it is about to connect again. -/
structure Explained (cfg : ClientConfig) (t : List Seen) (c : Client) : Prop where
  tries : ∀ r l use attempt phase, c.task = .running r → c.link = some l →
    r.point = .exchange use attempt phase → attempt ≤ cfg.maxRetries ∧
      ∃ t₀, t = t₀ ++ unanswered l.id (Client.frameOf r use) attempt ++
        if phase = .pace then [] else [.sent l.id (Client.frameOf r use)]
  fault : ∀ r l backoff, c.task = .running r → c.link = some l → r.point = .backingOff backoff →
    Fault cfg l.id r.frame t

/-- A step leaves an explanation, also of what it has hung up. -/
structure Accounts (cfg : ClientConfig) (t : List Seen) (frame : Text) (next : Client × List Act) :
    Prop where
  explained : Explained cfg t next.1
  hangUp : ∀ id, .hangUp id ∈ next.2 → Fault cfg id frame t

/-- And one that writes no frame. -/
structure Settles (cfg : ClientConfig) (t : List Seen) (frame : Text) (next : Client × List Act) :
    Prop extends Accounts cfg t frame next where
  unsent : next.2.filterMap ofAct = []

variable {cfg : ClientConfig} {t : List Seen} {c : Client} {r : Request} {acts : List Act}
  {frame : Text}

theorem Explained.unlinked (gone : c.link = none) : Explained cfg t c := by
  constructor
  · intro r l use attempt phase _ linked
    cases gone.symm.trans linked
  · intro r l backoff _ linked
    cases gone.symm.trans linked

theorem finish_explained (result : Except Exc Frame) : Explained cfg t (c.finish r result) := by
  constructor
  · intro q l use attempt phase running
    cases running
  · intro q l backoff running
    cases running

theorem suspend_explained {p : Point}
    (outside : ∀ use attempt phase, p ≠ .exchange use attempt phase)
    (active : ∀ backoff, p ≠ .backingOff backoff) : Explained cfg t (c.suspend r p) := by
  constructor
  · intro q l use attempt phase running _ here
    cases running
    exact absurd here (outside use attempt phase)
  · intro q l backoff running _ here
    cases running
    exact absurd here (active backoff)

theorem suspend_tries {use : Use} {attempt : Nat} {phase : Phase}
    (tries : ∀ l, c.link = some l → attempt ≤ cfg.maxRetries ∧
      ∃ t₀, t = t₀ ++ unanswered l.id (Client.frameOf r use) attempt ++
        if phase = .pace then [] else [.sent l.id (Client.frameOf r use)]) :
    Explained cfg t (c.suspend r (.exchange use attempt phase)) := by
  constructor
  · intro q l use' attempt' phase' running linked here
    cases running
    cases here
    rw [Client.frameOf_point]
    exact tries l linked
  · intro q l backoff running _ here
    cases running
    cases here

theorem suspend_fault {backoff : ℚ} (fault : ∀ l, c.link = some l → Fault cfg l.id r.frame t) :
    Explained cfg t (c.suspend r (.backingOff backoff)) := by
  constructor
  · intro q l use attempt phase running _ here
    cases running
    cases here
  · intro q l backoff running linked _
    cases running
    exact fault l linked

theorem quiet_settles (explained : Explained cfg t c) : Settles cfg t frame (c, []) where
  explained := explained
  hangUp := fun _ member => by cases member
  unsent := rfl

theorem beginExchange_settles (use : Use) : Settles cfg t frame (c.beginExchange r use) := by
  unfold Client.beginExchange
  split
  · exact quiet_settles (finish_explained _)
  · split
    · exact quiet_settles (finish_explained _)
    · exact quiet_settles (suspend_tries fun l _ => ⟨Nat.zero_le _, t, by simp [unanswered]⟩)

theorem drop_cases (c : Client) :
    c.drop.2.1 = [] ∨ ∃ l, c.link = some l ∧ c.drop.2.1 = [.hangUp l.id] := by
  unfold Client.drop
  split
  · exact Or.inl rfl
  · rename_i l linked
    split
    · exact Or.inl rfl
    · exact Or.inr ⟨l, linked, rfl⟩

/-- What follows a `_drop` of a link that is there for a fault. -/
theorem drop_settles (fault : ∀ l, c.link = some l → Fault cfg l.id frame t)
    {next : Client × List Act} (settles : Settles cfg t frame next) :
    Settles cfg t frame (next.1, c.drop.2.1 ++ next.2) := by
  rcases drop_cases c with none_ | ⟨l, linked, hungUp⟩
  · simpa only [none_, List.nil_append] using settles
  · rw [hungUp]
    refine ⟨⟨settles.explained, fun id member => ?_⟩, ?_⟩
    · rcases List.mem_cons.mp member with same | later
      · cases same
        exact fault l linked
      · exact settles.hangUp id later
    · simpa [ofAct] using settles.unsent

/-- Connecting hangs up the link that is there, if it is there for a fault. -/
theorem connect_settles (fault : ∀ l, c.link = some l → Fault cfg l.id frame t) (backoff : ℚ) :
    Settles cfg t frame (c.connect r backoff) := by
  have gone := Client.drop_link c
  unfold Client.connect
  dsimp only
  split
  · have quiet : Settles cfg t frame (c.drop.1.suspend r (.dropOld backoff), []) :=
      quiet_settles (.unlinked gone)
    simpa using drop_settles fault quiet
  · have dials : Settles cfg t frame (c.drop.1.suspend r (.opening backoff),
        [.dial c.drop.1.opens]) :=
      ⟨⟨.unlinked gone, fun id member => by simp at member⟩, rfl⟩
    exact drop_settles fault dials

theorem nextAttempt_settles (gone : c.link = none) (e : Exc) :
    Settles cfg t frame (c.nextAttempt cfg r e) := by
  unfold Client.nextAttempt
  split
  · simp only [Client.ensureConnected, Client.connected_of_link gone, Bool.false_eq_true, if_false]
    exact connect_settles (fun l linked => by cases gone.symm.trans linked) _
  · exact quiet_settles (finish_explained _)

/-- The request drops the link after a fault; the warm-up leaves only an OS error to the connect
loop around it. -/
theorem exchangeFailed_settles {use : Use} {e : Exc}
    (fault : ∀ l, c.link = some l → use = .main ∨ e = .osError → Fault cfg l.id r.frame t) :
    Settles cfg t r.frame (c.exchangeFailed cfg r use e) := by
  cases use with
  | warmUp backoff =>
    simp only [Client.exchangeFailed]
    split
    · rename_i osError
      exact quiet_settles (suspend_fault fun l linked => fault l linked (Or.inr osError))
    · split
      · exact beginExchange_settles .main
      · exact quiet_settles (finish_explained _)
  | main =>
    have gone := Client.drop_link c
    have faulty : ∀ l, c.link = some l → Fault cfg l.id r.frame t :=
      fun l linked => fault l linked (Or.inl rfl)
    simp only [Client.exchangeFailed]
    split
    · split
      · have quiet : Settles cfg t r.frame (c.drop.1.suspend r (.dropFailed e), []) :=
          quiet_settles (.unlinked gone)
        simpa using drop_settles faulty quiet
      · exact drop_settles faulty (nextAttempt_settles gone e)
    · exact quiet_settles (finish_explained _)

theorem exchangeDone_settles (use : Use) (f : Frame) :
    Settles cfg t frame (c.exchangeDone r use f) := by
  cases use with
  | warmUp backoff => exact beginExchange_settles .main
  | main => exact quiet_settles (finish_explained _)

/-- The trace once a request has been resumed with an answer, before what it then does. -/
def answered (t : List Seen) (c : Client) (r : Request) (a : Answer) : List Seen :=
  t ++ c.link.elim [] fun l => ofAnswer l.id r a

theorem answered_linked {a : Answer} {l : Link} (linked : c.link = some l) :
    answered t c r a = t ++ ofAnswer l.id r a := by
  rw [answered, linked]
  rfl

theorem ofMove_resume {a : Answer} {next : Client × List Act} (running : c.task = .running r) :
    t ++ ofMove ⟨c, .resume a, next.2, next.1⟩ =
      answered t c r a ++ next.2.filterMap ofAct := by
  cases linked : c.link <;> simp [ofMove, answered, running, linked]

/-- An exchange fails with what has come in place of the reply. -/
theorem reply_settles {use : Use} {attempt : Nat} {e : Exc} {a : Answer}
    (here : r.point = .exchange use attempt .reply)
    (fault : ∀ id t, Fault cfg id r.frame (t ++ [.reply id (Client.frameOf r use) a])) :
    Settles cfg (answered t c r a) r.frame (c.exchangeFailed cfg r use e) := by
  apply exchangeFailed_settles
  intro l linked _
  rw [answered_linked linked]
  simp only [ofAnswer, here]
  exact fault l.id t

/-- Inside an exchange: the frame is written, or nothing is. -/
theorem exchanges_accounts {use : Use} {attempt : Nat} {phase : Phase} {a : Answer}
    {next : Client × List Act} (explained : Explained cfg t c) (running : c.task = .running r)
    (here : r.point = .exchange use attempt phase)
    (h : Client.Exchanges cfg c r use attempt phase a next) :
    Settles cfg (answered t c r a) r.frame next ∨
      ∃ l : Link, next.2 = [.send l.id (Client.frameOf r use)] ∧
        Explained cfg (answered t c r a ++ [.sent l.id (Client.frameOf r use)]) next.1 := by
  have tries := fun l linked => explained.tries r l use attempt phase running linked here
  cases h with
  | unlinked _ | unencoded _ _ | readerless _ | unreadable _ _ | negative _ _ _ =>
    exact Or.inl (quiet_settles (finish_explained _))
  | @issued l linked _ =>
    obtain ⟨bound, t₀, same⟩ := tries l linked
    refine Or.inr ⟨l, rfl, suspend_tries fun l' linked' => ⟨bound, t₀, ?_⟩⟩
    cases linked'
    rw [answered_linked linked, same]
    simp [ofAnswer, here]
  | @drained l want linked len nonneg =>
    obtain ⟨bound, t₀, same⟩ := tries l linked
    refine Or.inl (quiet_settles (suspend_tries fun l' linked' => ⟨bound, t₀, ?_⟩))
    cases linked.symm.trans linked'
    rw [answered_linked linked, same]
    simp [ofAnswer, here]
  | undrained =>
    refine Or.inl (exchangeFailed_settles fun l linked _ => ?_)
    rw [answered_linked linked]
    simp only [ofAnswer, here]
    exact .write
  | replied whole parsed => exact Or.inl (exchangeDone_settles use _)
  | garbled whole unparsable =>
    exact Or.inl (reply_settles here fun _ _ => .garbled unparsable)
  | swallowed more =>
    refine Or.inl (quiet_settles (suspend_tries fun l linked => ?_))
    obtain ⟨-, t₀, same⟩ := tries l linked
    refine ⟨more, t₀, ?_⟩
    rw [answered_linked linked, same, unanswered_succ]
    simp [ofAnswer, here]
  | silent last =>
    refine Or.inl (exchangeFailed_settles fun l linked gives => ?_)
    obtain ⟨bound, t₀, same⟩ := tries l linked
    obtain rfl : use = .main := gives.resolve_right (by simp)
    obtain rfl : attempt = cfg.maxRetries := by omega
    have whole : answered t c r .timeout = t₀ ++ unanswered l.id r.frame (cfg.maxRetries + 1) := by
      rw [answered_linked linked, same, unanswered_succ]
      simp [ofAnswer, here, Client.frameOf]
    rw [whole]
    exact .silent
  | short =>
    exact Or.inl (reply_settles here fun _ _ => .short)
  | broken =>
    exact Or.inl (reply_settles here fun _ _ => .read)

theorem resume_accounts {a : Answer} {next : Client × List Act} (detached : c.Detached)
    (explained : Explained cfg t c) (running : c.task = .running r)
    (h : c.resume cfg a = some next) :
    Accounts cfg (t ++ ofMove ⟨c, .resume a, next.2, next.1⟩) r.frame next := by
  rw [ofMove_resume running]
  have of_settles : Settles cfg (answered t c r a) r.frame next →
      Accounts cfg (answered t c r a ++ next.2.filterMap ofAct) r.frame next := by
    intro settles
    rw [settles.unsent, List.append_nil]
    exact settles.toAccounts
  have gone : r.point.detached = true → c.link = none := detached r running
  cases Client.resume_resumes running h with
  | dropped here =>
    exact of_settles ⟨⟨.unlinked (gone (by rw [here]; rfl)), by simp⟩, rfl⟩
  | opened here =>
    exact of_settles (quiet_settles (suspend_explained (by simp) (by simp)))
  | refused here _ =>
    exact of_settles (quiet_settles (.unlinked (gone (by rw [here]; rfl))))
  | greeted here _ => exact of_settles (beginExchange_settles _)
  | ungreeted here failed =>
    refine of_settles (quiet_settles (suspend_fault fun l linked => ?_))
    rw [answered_linked linked]
    simp only [ofAnswer, here]
    refine .noGreeting fun data same => ?_
    rcases failed with rfl | ⟨got, rfl⟩ | rfl <;> cases same
  | retried here =>
    refine of_settles (connect_settles (fun l linked => ?_) _)
    rw [answered_linked linked]
    simp only [ofAnswer, here, List.append_nil]
    exact explained.fault r l _ running linked here
  | exchanged here exchanges =>
    rcases exchanges_accounts explained running here exchanges with settles | ⟨l, sent, tries⟩
    · exact of_settles settles
    · rw [sent]
      exact ⟨tries, fun id member => by rw [sent] at member; simp at member⟩
  | redone here => exact of_settles (nextAttempt_settles (gone (by rw [here]; rfl)) _)

/-- Connecting from a link that is closing, or from none, hangs nothing up. -/
theorem connect_down (down : c.connected = false) (backoff : ℚ) :
    (c.connect r backoff).1.link = none ∧ (c.connect r backoff).2 = [.dial c.opens] := by
  obtain ⟨link, n, task⟩ := c
  cases link with
  | none => exact ⟨rfl, rfl⟩
  | some l =>
    have closing : l.closing = true := by simpa [Client.connected] using down
    simp [Client.connect, Client.drop, closing, Client.suspend]

theorem request_accounts {next : Client × List Act} {asked : Text}
    (h : c.request cfg asked = some next) :
    Explained cfg t next.1 ∧ (∀ id, .hangUp id ∉ next.2) ∧ next.2.filterMap ofAct = [] := by
  have begins : ∀ r : Request, Explained cfg t (c.ensureConnected cfg r).1 ∧
      (∀ id, .hangUp id ∉ (c.ensureConnected cfg r).2) ∧
      (c.ensureConnected cfg r).2.filterMap ofAct = [] := by
    intro r
    unfold Client.ensureConnected
    split
    · have quiet : (c.beginExchange r .main).2 = [] := by
        unfold Client.beginExchange
        split
        · rfl
        · split <;> rfl
      have settles : Settles cfg t r.frame (c.beginExchange r .main) := beginExchange_settles .main
      exact ⟨settles.explained, by simp [quiet], settles.unsent⟩
    · rename_i off
      obtain ⟨gone, dials⟩ := connect_down (r := r) (by simpa using off) cfg.backoffInitial
      exact ⟨.unlinked gone, by simp [dials], by simp [dials, ofAct]⟩
  unfold Client.request at h
  split at h
  · cases h
  · cases h
    exact begins _

theorem Explained.lose (explained : Explained cfg t c) : Explained cfg t c.lose := by
  constructor
  · intro r l use attempt phase running linked here
    obtain ⟨l', linked', rfl⟩ := Option.map_eq_some_iff.mp linked
    exact explained.tries r l' use attempt phase running linked' here
  · intro r l backoff running linked here
    obtain ⟨l', linked', rfl⟩ := Option.map_eq_some_iff.mp linked
    exact explained.fault r l' backoff running linked' here

theorem Explained.idle (free : c.busy = false) : Explained cfg t c := by
  have running : ∀ r, c.task ≠ .running r := by
    intro r running
    simp [Client.busy, running] at free
  exact ⟨fun r _ _ _ _ now => absurd now (running r), fun r _ _ now => absurd now (running r)⟩

namespace Interruption

/-- Nobody closes the client while a request is running. -/
def Undisturbed (m : Move Client Interruption Act) : Prop :=
  m.event = .close → m.before.busy = false

theorem step_accounts {e : Interruption} {next : Client × List Act} (detached : c.Detached)
    (explained : Explained cfg t c) (undisturbed : e = .close → c.busy = false)
    (h : step cfg c e = some next) :
    Explained cfg (t ++ ofMove ⟨c, e, next.2, next.1⟩) next.1 ∧
      (e ≠ .close → ∀ id, .hangUp id ∈ next.2 → ∃ r, c.task = .running r ∧
        Fault cfg id r.frame (t ++ ofMove ⟨c, e, next.2, next.1⟩)) := by
  cases e with
  | call op =>
    obtain ⟨explained', quiet, unsent⟩ := request_accounts h
    exact ⟨explained', fun _ id member => absurd member (quiet id)⟩
  | resume a =>
    obtain ⟨r, running⟩ := Client.resume_running h
    have accounts := resume_accounts detached explained running h
    exact ⟨accounts.explained, fun _ id member => ⟨r, running, accounts.hangUp id member⟩⟩
  | close =>
    have free : next.1.busy = false := by
      cases h
      simpa only [Client.busy, close_task] using undisturbed rfl
    exact ⟨.idle free, fun other => absurd rfl other⟩
  | lost =>
    cases h
    refine ⟨?_, fun _ id member => by cases member⟩
    simpa [ofMove] using explained.lose

/-- What is hung up, other than by `close`, is hung up by a request and after a fault. -/
def Justified (cfg : ClientConfig) (front : List (Move Client Interruption Act))
    (m : Move Client Interruption Act) : Prop :=
  m.event ≠ .close → ∀ id, .hangUp id ∈ m.emits →
    ∃ r, m.before.task = .running r ∧ Fault cfg id r.frame (trace (front ++ [m]))

/-- A request gives up a live connection only for a fault. -/
theorem hangUps_justified {ms : List (Move Client Interruption Act)}
    (run : Run (step cfg) .fresh ms c) (undisturbed : ∀ m ∈ ms, Undisturbed m) :
    Along (Justified cfg) ms := by
  suffices both : Along (Justified cfg) ms ∧ Explained cfg (trace ms) c ∧ c.Detached from both.1
  induction run with
  | nil =>
    refine ⟨?_, .idle rfl, ?_⟩
    · rintro front m back eq
      simp at eq
    · intro r running
      cases running
  | @snoc ms c c' e acts run h ih =>
    obtain ⟨earlier, last⟩ := Runs.forall_snoc.mp undisturbed
    obtain ⟨along, explained, detached⟩ := ih earlier
    have whole : trace (ms ++ [⟨c, e, acts, c'⟩]) = trace ms ++ ofMove ⟨c, e, acts, c'⟩ := by
      simp [trace]
    obtain ⟨explained', hungUp⟩ := step_accounts detached explained last h
    rw [Runs.along_snoc, Justified, whole]
    exact ⟨⟨along, hungUp⟩, explained', step_detached detached h⟩

end Interruption

end R60V
