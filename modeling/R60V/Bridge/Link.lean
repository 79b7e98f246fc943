import R60V.Bridge.Client

/-! The link of the client: when it is there, and how it is opened and hung up. -/
namespace R60V

open Protocol (Frame)

/-- The awaits that follow a `_drop`, up to the connection attempt. -/
def Point.detached : Point → Bool
  | .dropOld _ | .opening _ | .dropFailed _ => true
  | .greeting _ | .backingOff _ | .exchange _ _ _ => false

/-- A connection that has been hung up is not open any longer. -/
def Act.shuts : Act → Nat → Bool
  | .hangUp id, n => id = n
  | .dial _, _ | .send _ _, _ => false

namespace Client

/-- The connection that the client holds and that nobody has closed. -/
def live (c : Client) : List Nat :=
  match c.link with
  | some l => if l.closing then [] else [l.id]
  | none => []

/-- The transport breaks off, or the peer ends it; `is_closing()` says so from then on. -/
def lose (c : Client) : Client := { c with link := c.link.map fun l => { l with closing := true } }

def stillOpen (acts : List Act) (ids : List Nat) : List Nat :=
  ids.filter fun id => acts.all (!·.shuts id)

def Detached (c : Client) : Prop :=
  ∀ r, c.task = .running r → r.point.detached = true → c.link = none

/-- What is left open is the link, less what has been hung up. -/
structure Kept (c : Client) (next : Client × List Act) : Prop where
  detached : next.1.Detached
  live : next.1.live = stillOpen next.2 c.live
  opens : next.1.opens = c.opens

theorem live_length_le (c : Client) : c.live.length ≤ 1 := by
  unfold live
  split
  · split <;> simp
  · simp

theorem live_of_link {c : Client} (gone : c.link = none) : c.live = [] := by simp [live, gone]

theorem connected_of_link {c : Client} (gone : c.link = none) : c.connected = false := by
  simp [connected, gone]

@[simp] theorem stillOpen_nil (ids : List Nat) : stillOpen [] ids = ids := by simp [stillOpen]

@[simp] theorem stillOpen_append (some_ more : List Act) (ids : List Nat) :
    stillOpen (some_ ++ more) ids = stillOpen more (stillOpen some_ ids) := by
  simp [stillOpen, List.filter_filter, Bool.and_comm]

@[simp] theorem stillOpen_none (acts : List Act) : stillOpen acts [] = [] := rfl

variable {cfg : ClientConfig} {c : Client} {r : Request}

theorem stillOpen_of_quiet {acts : List Act} (quiet : ∀ id, .hangUp id ∉ acts) (ids : List Nat) :
    stillOpen acts ids = ids := by
  refine List.filter_eq_self.mpr fun n _ => List.all_eq_true.mpr fun act member => ?_
  cases act with
  | hangUp id => exact absurd member (quiet id)
  | dial _ | send _ _ => rfl

theorem finish_detached (result : Except Exc Frame) : (c.finish r result).Detached := nofun

theorem suspend_detached {p : Point} (link : p.detached = true → c.link = none) :
    (c.suspend r p).Detached := by
  intro q running
  cases running
  exact link

theorem drop_link (c : Client) : c.drop.1.link = none := by
  unfold drop
  split
  · assumption
  · split <;> rfl

theorem drop_opens (c : Client) : c.drop.1.opens = c.opens := by
  unfold drop
  split
  · rfl
  · split <;> rfl

theorem drop_open (c : Client) : stillOpen c.drop.2.1 c.live = [] := by
  unfold drop live
  split
  · rename_i gone
    simp [gone]
  · rename_i l linked
    cases closing : l.closing <;> simp [linked, closing, stillOpen, Act.shuts]

/-- A client without a link, as `_drop` leaves it, has nothing open. -/
theorem kept_of_dropped {next : Client × List Act} (detached : next.1.Detached)
    (gone : next.1.link = none) (opens : next.1.opens = c.drop.1.opens) {more : List Act}
    (acts : next.2 = c.drop.2.1 ++ more) : c.Kept next :=
  ⟨detached, by rw [acts, stillOpen_append, drop_open, stillOpen_none, live_of_link gone],
    opens.trans (drop_opens c)⟩

theorem close_kept : c.Kept c.close := by
  refine kept_of_dropped ?_ (drop_link c) rfl (List.append_nil _).symm
  intro r running here
  exact drop_link c

theorem lose_detached (detached : c.Detached) : c.lose.Detached := by
  intro r running here
  simp [lose, detached r running here]

theorem finish_kept (result : Except Exc Frame) : c.Kept (c.finish r result, []) :=
  ⟨finish_detached result, (stillOpen_nil _).symm, rfl⟩

theorem suspend_kept {p : Point} (link : p.detached = true → c.link = none) :
    c.Kept (c.suspend r p, []) :=
  ⟨suspend_detached link, (stillOpen_nil _).symm, rfl⟩

theorem beginExchange_kept (use : Use) : c.Kept (c.beginExchange r use) := by
  unfold beginExchange
  split
  · exact finish_kept _
  · split
    · exact finish_kept _
    · exact suspend_kept nofun

theorem connect_kept (backoff : ℚ) : c.Kept (c.connect r backoff) := by
  unfold connect
  dsimp only
  split
  · exact kept_of_dropped (suspend_detached fun _ => drop_link c) (drop_link c) rfl
      (List.append_nil _).symm
  · exact kept_of_dropped (suspend_detached fun _ => drop_link c) (drop_link c) rfl rfl

theorem ensureConnected_kept : c.Kept (c.ensureConnected cfg r) := by
  unfold ensureConnected
  split
  · exact beginExchange_kept .main
  · exact connect_kept _

theorem nextAttempt_kept (e : Exc) : c.Kept (c.nextAttempt cfg r e) := by
  unfold nextAttempt
  split
  · exact ensureConnected_kept
  · exact finish_kept _

/-- The acts of a `_drop` come before those of what follows it. -/
theorem Kept.after_drop {next : Client × List Act} (kept : c.drop.1.Kept next) :
    c.Kept (next.1, c.drop.2.1 ++ next.2) :=
  ⟨kept.detached, by rw [stillOpen_append, drop_open, kept.live, live_of_link (drop_link c)],
    kept.opens.trans (drop_opens c)⟩

theorem exchangeFailed_kept (use : Use) (e : Exc) : c.Kept (c.exchangeFailed cfg r use e) := by
  cases use with
  | warmUp backoff =>
    simp only [exchangeFailed]
    split
    · exact suspend_kept nofun
    · split
      · exact beginExchange_kept .main
      · exact finish_kept _
  | main =>
    simp only [exchangeFailed]
    split
    · split
      · exact kept_of_dropped (suspend_detached fun _ => drop_link c) (drop_link c) rfl
          (List.append_nil _).symm
      · exact (nextAttempt_kept e).after_drop
    · exact finish_kept _

theorem exchangeDone_kept (use : Use) (f : Frame) : c.Kept (c.exchangeDone r use f) := by
  cases use with
  | warmUp backoff => exact beginExchange_kept .main
  | main => exact finish_kept _

theorem exchanges_kept {use : Use} {attempt : Nat} {phase : Phase} {a : Answer}
    {next : Client × List Act} (h : Exchanges cfg c r use attempt phase a next) : c.Kept next := by
  cases h with
  | unlinked _ | unencoded _ _ | readerless _ | unreadable _ _ | negative _ _ _ =>
    exact finish_kept _
  | @issued l linked _ =>
    refine ⟨suspend_detached nofun, ?_, rfl⟩
    rw [stillOpen_of_quiet (by simp)]
    simp [live, suspend, linked]
  | drained _ _ _ | swallowed _ => exact suspend_kept nofun
  | replied _ _ => exact exchangeDone_kept use _
  | undrained | garbled _ _ | silent _ | short | broken => exact exchangeFailed_kept use _

theorem request_kept {frame : Python.Text} {next : Client × List Act}
    (h : c.request cfg frame = some next) : c.Kept next := by
  unfold request at h
  split at h
  · cases h
  · cases h
    exact ensureConnected_kept

/-- Resuming a request opens a connection when there is none, or keeps to what `Kept` says. -/
structure Reopened (c : Client) (next : Client × List Act) : Prop where
  detached : next.1.Detached
  shut : c.live = []
  live : next.1.live = [c.opens]
  opens : next.1.opens = c.opens + 1
  acts : next.2 = []

structure Maintained (c : Client) (next : Client × List Act) : Prop where
  detached : next.1.Detached
  live : next.1.live = stillOpen next.2 c.live
  opens : c.opens ≤ next.1.opens

theorem Kept.maintained {next : Client × List Act} (kept : c.Kept next) : c.Maintained next :=
  ⟨kept.detached, kept.live, kept.opens.ge⟩

theorem resume_opened {next : Client × List Act} (detached : c.Detached)
    (h : c.resume cfg .opened = some next) : c.Reopened next := by
  obtain ⟨r, running⟩ := resume_running h
  cases resume_resumes running h with
  | opened here =>
    have gone := detached r running (by rw [here]; rfl)
    exact ⟨suspend_detached nofun, live_of_link gone, rfl, rfl, rfl⟩
  | refused _ failed => simp at failed
  | ungreeted _ failed => simp at failed
  | exchanged _ exchanges => cases exchanges

theorem resume_maintained {a : Answer} {next : Client × List Act} (detached : c.Detached)
    (other : a ≠ .opened) (h : c.resume cfg a = some next) : c.Maintained next := by
  obtain ⟨r, running⟩ := resume_running h
  cases resume_resumes running h with
  | dropped here =>
    have gone := detached r running (by rw [here]; rfl)
    refine ⟨suspend_detached fun _ => gone, ?_, le_rfl⟩
    rw [stillOpen_of_quiet (by simp)]
    rfl
  | opened _ => exact absurd rfl other
  | refused _ _ => exact ⟨suspend_detached nofun, (stillOpen_nil _).symm, Nat.le_succ _⟩
  | greeted _ _ => exact (beginExchange_kept _).maintained
  | ungreeted _ _ => exact ⟨suspend_detached nofun, (stillOpen_nil _).symm, le_rfl⟩
  | retried _ => exact (connect_kept _).maintained
  | exchanged _ exchanges => exact (exchanges_kept exchanges).maintained
  | redone _ => exact (nextAttempt_kept _).maintained

theorem resume_detached {a : Answer} {next : Client × List Act} (detached : c.Detached)
    (h : c.resume cfg a = some next) : next.1.Detached := by
  by_cases opened : a = .opened
  · subst opened
    exact (resume_opened detached h).detached
  · exact (resume_maintained detached opened h).detached

end Client

end R60V
