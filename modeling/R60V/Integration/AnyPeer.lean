import R60V.Integration.Client
import R60V.Integration.Polling

/-! The integration's client against any peer: how often a request dials, whether it ends, with
what, and what the coordinator makes of it. -/
namespace R60V.Integration

open Python (Text)
open Protocol (Frame)

/-- How `_probe_healthy` and `_async_update_data` see what a read raises. -/
def ClientExc.asRead : ClientExc → ReadExc
  | .protocol _ => .protocol
  | e => if e.isConnectionError then .connection else .other

/-- The failure of a full read is counted, and that of a probe starts the next cooldown. -/
structure ClientExc.Noticed (e : ClientExc) : Prop where
  counted : ∀ s : Polling, (s.snapshotRead (.error e.asRead)).1.coordinator.consecutiveFailures =
    s.coordinator.consecutiveFailures + 1
  escalates : ∀ (s : Polling) (connected : Bool),
    (s.probed connected (.error e.asRead)).1.finish.coordinator =
      (s.coordinator.enterCooldown s.now).setUpdateError

theorem ClientExc.noticed_of_connectionError {e : ClientExc} (own : e.isConnectionError = true) :
    e.Noticed := by
  have read : e.asRead = .connection := by
    cases e <;> simp [isConnectionError] at own <;> rfl
  constructor
  · intro s
    rw [read]
    simp only [Polling.snapshotRead, ReadExc.caught, if_true]
    split
    · rfl
    · split <;> rfl
  · intro s connected
    rw [read]
    cases connected <;> rfl

/-- The length of the reply can be read off the frame, and `readexactly` takes it. -/
def Sized (frame : Text) : Prop := ∃ want, expectedResponseLen frame = .ok want

def Awaited (frame : Text) : Prop := ∃ want, expectedResponseLen frame = .ok want ∧ ¬ want < 0

namespace Client

/-- No exception but the client's own gets out. -/
def Clean (c : Client) : Prop :=
  ∀ e, c.task = .ended (.error e) → e.isConnectionError = true

/-- No socket is held when a request raises, nor between two of its attempts. -/
def Dropped (c : Client) : Prop :=
  match c.task with
  | .running ⟨_, _, .opening⟩ | .running ⟨_, _, .dropFailed _⟩ => c.link = .down
  | .running _ => True
  | .ended (.error _) => c.link = .down
  | .ended (.ok _) => True

/-- The answer is one that the await can have. -/
def Fits (cfg : ClientConfig) (c : Client) (a : Answer) : Prop := (c.step cfg a).isSome

/-- A chunk comes while the client drains. -/
def Drains (c : Client) (a : Answer) : Prop :=
  ∃ r use attempt chunk, c.task = .running r ∧ r.point = .exchange use attempt .drain ∧
    a = .bytes chunk

/-- The condition on a step of a request: no reply is garbled in its data, the exchange of the
request itself begins only where the length of its reply can be read off it, and is not waited for
where that is negative. -/
def SafeAt (cfg : ClientConfig) (r : Request) : Point → Answer → Prop
  | .greeting, .bytes _ => cfg.warmup = false → Sized r.frame
  | .exchange use _ .flush, .done => Awaited (r.frameOf use)
  | .exchange use _ .reply, .bytes data => ¬ GarbledFrame data ∧ (use = .warmUp → Sized r.frame)
  | .exchange .warmUp attempt .reply, .timeout => attempt < cfg.maxRetries ∨ Sized r.frame
  | .exchange .warmUp _ .reply, .eof _ => Sized r.frame
  | _, _ => True

variable {cfg : ClientConfig} {c t : Client} {r : Request} {a : Answer}

section Clean

theorem finish_clean {result : Except ClientExc Frame} : (c.finish result).Clean ↔
    ∀ e, result = .error e → e.isConnectionError = true := by
  constructor
  · rintro clean e rfl
    exact clean e rfl
  · rintro all e ⟨⟩
    exact all e rfl

theorem suspend_clean (p : Point) : (c.suspend r p).Clean := nofun

theorem expectedResponseLen_error {frame : Text} {e : ClientExc}
    (len : expectedResponseLen frame = .error e) :
    e.isConnectionError = false ∧ e.caught = false ∧ e.warms = false := by
  unfold expectedResponseLen at len
  split at len
  · cases len
    exact ⟨rfl, rfl, rfl⟩
  · split at len
    · cases len
      exact ⟨rfl, rfl, rfl⟩
    · cases len

theorem not_sized {frame : Text} {e : ClientExc} (len : expectedResponseLen frame = .error e) :
    ¬ Sized frame := by
  rintro ⟨want, other⟩
  cases len.symm.trans other

theorem beginExchange_clean {use : Use} :
    (c.beginExchange r use).Clean ↔ Sized (r.frameOf use) := by
  unfold beginExchange
  split
  · rename_i e len
    simp [finish_clean, not_sized len, (expectedResponseLen_error len).1]
  · rename_i want len
    exact iff_of_true (suspend_clean _) ⟨want, len⟩

theorem begin_clean : (c.begin r).Clean ↔ (c.link = .up → Sized r.frame) := by
  unfold begin
  split
  · rename_i up
    simp [beginExchange_clean, up, Request.frameOf]
  · rename_i off
    exact iff_of_true (suspend_clean _) fun up => absurd up off

theorem nextAttempt_clean (off : c.link ≠ .up) (e : ClientExc) : (c.nextAttempt r e).Clean := by
  unfold nextAttempt
  split
  · exact begin_clean.mpr fun up => absurd up off
  · exact finish_clean.mpr (by rintro e ⟨⟩; rfl)

theorem failed_clean (e : ClientExc) : (c.failed r e).Clean := by
  unfold failed
  split
  · rename_i down
    exact nextAttempt_clean (by simp [down]) e
  · exact suspend_clean _

theorem warmUp_sized : Sized warmUpFrame ∧ Awaited warmUpFrame :=
  ⟨⟨241, by decide⟩, ⟨241, by decide, by decide⟩⟩

theorem caught_of_own {e : ClientExc} (own : e.isConnectionError = true) : e.caught = true := by
  cases e <;> first | exact own | rfl

theorem caught_of_warms {e : ClientExc} (warms : e.warms = true) : e.caught = true := by
  cases e <;> first | exact warms | rfl

theorem raised_clean {use : Use} {e : ClientExc} : (c.raised r use e).Clean ↔
    e.caught = true ∧ (use = .warmUp → e.warms = true → Sized r.frame) := by
  unfold raised
  split
  · rename_i warms
    simp [beginExchange_clean, Request.frameOf, warms.1, warms.2, caught_of_warms warms.2]
  · rename_i cold
    split
    · rename_i caught
      exact iff_of_true (failed_clean e) ⟨caught, fun warmUp warms => absurd ⟨warmUp, warms⟩ cold⟩
    · rename_i uncaught
      refine iff_of_false ?_ fun both => uncaught both.1
      intro clean
      exact uncaught (caught_of_own (finish_clean.mp clean e rfl))

theorem exchangeDone_clean {use : Use} (f : Frame) :
    (c.exchangeDone r f use).Clean ↔ (use = .warmUp → Sized r.frame) := by
  cases use with
  | warmUp => simp [exchangeDone, beginExchange_clean, Request.frameOf]
  | main => simp [exchangeDone, finish_clean]

theorem replied_clean {use : Use} (data : Text) : (c.replied r use data).Clean ↔
    ¬ GarbledFrame data ∧ (use = .warmUp → Sized r.frame) := by
  rw [← parseFrame_value_iff true]
  unfold replied
  split
  · rename_i f parsed
    simp [exchangeDone_clean, parsed]
  · rename_i e parsed
    simp [raised_clean, parsed, ClientExc.caught, ClientExc.warms]
  · rename_i parsed
    simp [raised_clean, parsed, ClientExc.caught, ClientExc.isConnectionError]

end Clean

/-- A request is as far as its attempts have come, and holds no link between two of them. -/
structure Placed (c : Client) : Prop where
  dials : c.dials ≤ attempts
  running : ∀ r, c.task = .running r → r.attempt < attempts ∧ c.dials ≤ r.attempt + 1
  between : ∀ r, c.task = .running r → r.point = .opening ∨ (∃ e, r.point = .dropFailed e) →
    c.link = .down
  ended : ∀ e, c.task = .ended (.error e) → e.isConnectionError = true → c.link = .down

section Placed

theorem finish_placed {result : Except ClientExc Frame} (dials : c.dials ≤ attempts)
    (own : ∀ e, result = .error e → e.isConnectionError = true → c.link = .down) :
    (c.finish result).Placed where
  dials := dials
  running := nofun
  between := nofun
  ended e ended := own e (by cases ended; rfl)

theorem suspend_placed {p : Point} (more : r.attempt < attempts) (dials : c.dials ≤ r.attempt + 1)
    (between : p = .opening ∨ (∃ e, p = .dropFailed e) → c.link = .down) :
    (c.suspend r p).Placed where
  dials := dials.trans more
  running _ running := by cases running; exact ⟨more, dials⟩
  between _ running here := by cases running; exact between here
  ended := nofun

theorem beginExchange_placed (use : Use) (more : r.attempt < attempts)
    (dials : c.dials ≤ r.attempt + 1) : (c.beginExchange r use).Placed := by
  unfold beginExchange
  split
  · rename_i e len
    apply finish_placed (dials.trans more)
    rintro _ ⟨⟩ own
    rw [(expectedResponseLen_error len).1] at own
    cases own
  · exact suspend_placed more dials (by simp)

theorem begin_placed (more : r.attempt < attempts) (dials : c.dials ≤ r.attempt) :
    (c.begin r).Placed := by
  unfold begin
  split
  · exact beginExchange_placed .main more (Nat.le_succ_of_le dials)
  · exact suspend_placed more (Nat.succ_le_succ dials) fun _ => rfl

theorem nextAttempt_placed (e : ClientExc) (more : r.attempt < attempts)
    (dials : c.dials ≤ r.attempt + 1) (down : c.link = .down) : (c.nextAttempt r e).Placed := by
  unfold nextAttempt
  split
  · rename_i again
    exact begin_placed again dials
  · exact finish_placed (dials.trans more) fun _ _ _ => down

theorem failed_placed (e : ClientExc) (more : r.attempt < attempts)
    (dials : c.dials ≤ r.attempt + 1) : (c.failed r e).Placed := by
  unfold failed
  split
  · rename_i down
    exact nextAttempt_placed e more dials down
  · exact suspend_placed more dials fun _ => rfl

theorem raised_placed (use : Use) (e : ClientExc) (more : r.attempt < attempts)
    (dials : c.dials ≤ r.attempt + 1) : (c.raised r use e).Placed := by
  unfold raised
  split
  · exact beginExchange_placed .main more dials
  split
  · exact failed_placed e more dials
  · rename_i uncaught
    apply finish_placed (dials.trans more)
    rintro _ ⟨⟩ own
    exact absurd (caught_of_own own) uncaught

theorem replied_placed (use : Use) (data : Text) (more : r.attempt < attempts)
    (dials : c.dials ≤ r.attempt + 1) : (c.replied r use data).Placed := by
  unfold replied
  split
  · cases use with
    | warmUp => exact beginExchange_placed .main more dials
    | main => exact finish_placed (dials.trans more) nofun
  · exact raised_placed use _ more dials
  · exact raised_placed use _ more dials

end Placed

/-- What resuming a request can do, with the await and the answer that lead there. -/
inductive Turns (cfg : ClientConfig) (c : Client) (r : Request) : Answer → Client → Prop where
  | opened (here : r.point = .opening) :
      Turns cfg c r .opened ({ c with link := .up }.suspend r .greeting)
  | unopened {e : ClientExc} {a : Answer} (here : r.point = .opening)
      (failed : a = .osError ∨ a = .timeout) : Turns cfg c r a (c.failed r e)
  | greeted {data : Text} (here : r.point = .greeting) :
      Turns cfg c r (.bytes data) (c.beginExchange r (if cfg.warmup then .warmUp else .main))
  | ungreeted {e : ClientExc} {a : Answer} (here : r.point = .greeting)
      (failed : a = .osError ∨ a = .timeout ∨ ∃ got, a = .eof got) : Turns cfg c r a (c.failed r e)
  | drained {use : Use} {attempt : Nat} {chunk : Text}
      (here : r.point = .exchange use attempt .drain) :
      Turns cfg c r (.bytes chunk) (c.suspend r (.exchange use attempt .drain))
  | cleared {use : Use} {attempt : Nat} {a : Answer} (here : r.point = .exchange use attempt .drain)
      (nothing : a = .timeout ∨ ∃ got, a = .eof got) :
      Turns cfg c r a (c.suspend r (.exchange use attempt .pace))
  | paced {use : Use} {attempt : Nat} (here : r.point = .exchange use attempt .pace) :
      Turns cfg c r .done (c.suspend r (.exchange use attempt .flush))
  | unsized {use : Use} {attempt : Nat} {e : ClientExc}
      (here : r.point = .exchange use attempt .flush)
      (len : expectedResponseLen (r.frameOf use) = .error e) :
      Turns cfg c r .done (c.raised r use e)
  | negative {use : Use} {attempt : Nat} {want : Int}
      (here : r.point = .exchange use attempt .flush)
      (len : expectedResponseLen (r.frameOf use) = .ok want) (less : want < 0) :
      Turns cfg c r .done (c.raised r use .value)
  | flushed {use : Use} {attempt : Nat} {want : Int}
      (here : r.point = .exchange use attempt .flush)
      (len : expectedResponseLen (r.frameOf use) = .ok want) (nonneg : ¬ want < 0) :
      Turns cfg c r .done (c.suspend r (.exchange use attempt .reply))
  | replied {use : Use} {attempt : Nat} {data : Text}
      (here : r.point = .exchange use attempt .reply) :
      Turns cfg c r (.bytes data) (c.replied r use data)
  | swallowed {use : Use} {attempt : Nat} (here : r.point = .exchange use attempt .reply)
      (more : attempt < cfg.maxRetries) :
      Turns cfg c r .timeout (c.suspend r (.exchange use (attempt + 1) .drain))
  | silent {use : Use} {attempt : Nat} (here : r.point = .exchange use attempt .reply)
      (last : ¬ attempt < cfg.maxRetries) :
      Turns cfg c r .timeout (c.raised r use (.noReply (r.frameOf use) (cfg.maxRetries + 1)))
  | short {use : Use} {attempt : Nat} {got : Text} (here : r.point = .exchange use attempt .reply) :
      Turns cfg c r (.eof got) (c.raised r use (.shortRead (r.frameOf use) got))
  | broken {use : Use} {attempt : Nat} {phase : Phase}
      (here : r.point = .exchange use attempt phase) :
      Turns cfg c r .osError (c.raised r use .osError)
  | redone {e : ClientExc} (here : r.point = .dropFailed e) :
      Turns cfg c r .done (c.nextAttempt r e)

theorem resumeExchange_turns {use : Use} {attempt : Nat} {phase : Phase}
    (here : r.point = .exchange use attempt phase)
    (h : c.resumeExchange cfg r use attempt phase a = some t) : Turns cfg c r a t := by
  unfold resumeExchange at h
  split at h
  · split at h
    · cases h
      exact .drained here
    · cases h
  · cases h
    exact .cleared here (.inl rfl)
  · cases h
    exact .cleared here (.inr ⟨_, rfl⟩)
  · cases h
    exact .broken here
  · cases h
    exact .paced here
  · split at h
    · cases h
      exact .unsized here ‹_›
    · split at h
      · cases h
        exact .negative here ‹_› ‹_›
      · cases h
        exact .flushed here ‹_› ‹_›
  · cases h
    exact .broken here
  · split at h
    · cases h
      exact .replied here
    · cases h
  · split at h
    · cases h
      exact .swallowed here ‹_›
    · cases h
      exact .silent here ‹_›
  · cases h
    exact .short here
  · cases h
    exact .broken here
  · cases h

theorem resume_turns (h : c.resume cfg r a = some t) : Turns cfg c r a t := by
  unfold resume at h
  split at h
  · cases h
    exact .opened ‹_›
  · cases h
    exact .unopened ‹_› (.inl rfl)
  · cases h
    exact .unopened ‹_› (.inr rfl)
  · split at h
    · cases h
      exact .greeted ‹_›
    · cases h
  · cases h
    exact .ungreeted ‹_› (.inr (.inl rfl))
  · cases h
    exact .ungreeted ‹_› (.inr (.inr ⟨_, rfl⟩))
  · cases h
    exact .ungreeted ‹_› (.inl rfl)
  · exact resumeExchange_turns ‹_› h
  · cases h
    exact .redone ‹_›
  · cases h

theorem turns_placed (placed : c.Placed) (running : c.task = .running r)
    (turns : Turns cfg c r a t) : t.Placed := by
  obtain ⟨more, dials⟩ := placed.running r running
  cases turns with
  | opened _ => exact suspend_placed more dials (by simp)
  | unopened _ _ | ungreeted _ _ => exact failed_placed _ more dials
  | greeted _ => exact beginExchange_placed _ more dials
  | drained _ | cleared _ _ | paced _ | flushed _ _ _ | swallowed _ _ =>
    exact suspend_placed more dials (by simp)
  | unsized _ _ | negative _ _ _ | silent _ _ | short _ | broken _ =>
    exact raised_placed _ _ more dials
  | replied _ => exact replied_placed _ _ more dials
  | redone here =>
    exact nextAttempt_placed _ more dials (placed.between r running (.inr ⟨_, here⟩))

/-- A turn leaves a request clean exactly if it is safe. -/
theorem turns_clean (placed : c.Placed) (running : c.task = .running r)
    (turns : Turns cfg c r a t) : t.Clean ↔ SafeAt cfg r r.point a := by
  cases turns with
  | opened here | paced here =>
    rw [here]
    exact iff_of_true (suspend_clean _) trivial
  | drained here =>
    rw [here]
    exact iff_of_true (suspend_clean _) trivial
  | cleared here nothing =>
    rw [here]
    apply iff_of_true (suspend_clean _)
    rcases nothing with rfl | ⟨got, rfl⟩ <;> trivial
  | unopened here failed =>
    rw [here]
    apply iff_of_true (failed_clean _)
    rcases failed with rfl | rfl <;> trivial
  | ungreeted here failed =>
    rw [here]
    apply iff_of_true (failed_clean _)
    rcases failed with rfl | rfl | ⟨got, rfl⟩ <;> trivial
  | greeted here =>
    rw [here, beginExchange_clean]
    cases warmup : cfg.warmup with
    | true => simp [SafeAt, warmup, Request.frameOf, warmUp_sized]
    | false => simp [SafeAt, warmup, Request.frameOf]
  | unsized here len =>
    rw [here, raised_clean]
    refine iff_of_false ?_ ?_
    · simp [(expectedResponseLen_error len).2.1]
    · rintro ⟨want, other, -⟩
      cases len.symm.trans other
  | negative here len less =>
    rw [here, raised_clean]
    apply iff_of_false (by simp [ClientExc.caught, ClientExc.isConnectionError])
    rintro ⟨want, other, nonneg⟩
    exact nonneg (Except.ok.inj (len.symm.trans other) ▸ less)
  | flushed here len nonneg =>
    rw [here]
    exact iff_of_true (suspend_clean _) ⟨_, len, nonneg⟩
  | replied here =>
    rw [here]
    exact replied_clean _
  | @swallowed use attempt here more =>
    rw [here]
    apply iff_of_true (suspend_clean _)
    cases use with
    | warmUp => exact .inl more
    | main => trivial
  | @silent use attempt here last =>
    rw [here, raised_clean]
    cases use <;>
      simp [SafeAt, last, ClientExc.caught, ClientExc.isConnectionError, ClientExc.warms]
  | @short use attempt got here =>
    rw [here, raised_clean]
    cases use <;> simp [SafeAt, ClientExc.caught, ClientExc.isConnectionError, ClientExc.warms]
  | @broken use attempt phase here =>
    rw [here, raised_clean]
    cases phase <;>
      simp [SafeAt, ClientExc.caught, ClientExc.isConnectionError, ClientExc.warms]
  | redone here =>
    have down := placed.between r running (.inr ⟨_, here⟩)
    rw [here]
    exact iff_of_true (nextAttempt_clean (by simp [down]) _) trivial

end Client

/- How much is left of a request, counted so that every answer but a drained chunk takes something
off: the awaits of an exchange and its retries, the warm-up before it, and the attempts. -/

def Phase.rank : Phase → Nat
  | .drain => 4
  | .pace => 3
  | .flush => 2
  | .reply => 1

def Point.rank (cfg : ClientConfig) : Point → Nat
  | .dropFailed _ => 1
  | .exchange .main attempt phase => 4 * (cfg.maxRetries - attempt) + phase.rank + 1
  | .exchange .warmUp attempt phase =>
    4 * cfg.maxRetries + 4 * (cfg.maxRetries - attempt) + phase.rank + 6
  | .greeting => 8 * cfg.maxRetries + 12
  | .opening => 8 * cfg.maxRetries + 13

def Request.ahead (cfg : ClientConfig) (r : Request) : Nat :=
  (attempts - r.attempt) * (8 * cfg.maxRetries + 14)

def Client.rank (cfg : ClientConfig) (c : Client) : Nat :=
  match c.task with
  | .running r => r.ahead cfg + r.point.rank cfg
  | .ended _ => 0

namespace Client

variable {cfg : ClientConfig} {c t : Client} {r : Request} {a : Answer}

@[simp] theorem suspend_rank (p : Point) :
    (c.suspend r p).rank cfg = r.ahead cfg + p.rank cfg := rfl

@[simp] theorem finish_rank (result : Except ClientExc Frame) :
    (c.finish result).rank cfg = 0 := rfl

theorem beginExchange_rank (use : Use) :
    (c.beginExchange r use).rank cfg ≤ r.ahead cfg + (Point.exchange use 0 .drain).rank cfg := by
  unfold beginExchange
  split
  · exact Nat.zero_le _
  · exact le_rfl

theorem begin_rank : (c.begin r).rank cfg ≤ r.ahead cfg + Point.opening.rank cfg := by
  unfold begin
  split
  · have first : (c.beginExchange r .main).rank cfg ≤
        r.ahead cfg + (Point.exchange .main 0 .drain).rank cfg := beginExchange_rank .main
    simp only [Point.rank, Phase.rank] at first ⊢
    omega
  · exact le_rfl

theorem nextAttempt_rank (e : ClientExc) :
    (c.nextAttempt r e).rank cfg < r.ahead cfg + 1 := by
  unfold nextAttempt
  split
  · rename_i again
    have next : (c.begin { r with attempt := r.attempt + 1 }).rank cfg ≤
        (attempts - (r.attempt + 1)) * (8 * cfg.maxRetries + 14) + (8 * cfg.maxRetries + 13) :=
      begin_rank
    have one : attempts - r.attempt = attempts - (r.attempt + 1) + 1 := by omega
    simp only [Request.ahead, one, Nat.add_mul, Nat.one_mul]
    omega
  · exact Nat.succ_pos _

theorem failed_rank (e : ClientExc) :
    (c.failed r e).rank cfg ≤ r.ahead cfg + 1 := by
  unfold failed
  split
  · exact (nextAttempt_rank e).le
  · exact le_rfl

/-- An exchange that fails leaves less than any of its awaits had left. -/
theorem raised_rank (use : Use) (attempt : Nat) (phase : Phase) (e : ClientExc) :
    (c.raised r use e).rank cfg <
      r.ahead cfg + (Point.exchange use attempt phase).rank cfg := by
  have some_ : 1 ≤ phase.rank := by cases phase <;> decide
  unfold raised
  split
  · rename_i warms
    have main : (c.beginExchange r .main).rank cfg ≤
        r.ahead cfg + (Point.exchange .main 0 .drain).rank cfg := beginExchange_rank .main
    simp only [warms.1, Point.rank, Phase.rank] at main ⊢
    omega
  split
  · have drop : (c.failed r e).rank cfg ≤ r.ahead cfg + 1 := failed_rank e
    cases use <;> simp only [Point.rank] <;> omega
  · rw [finish_rank]
    cases use <;> simp only [Point.rank] <;> omega

theorem replied_rank (use : Use) (attempt : Nat) (data : Text) :
    (c.replied r use data).rank cfg <
      r.ahead cfg + (Point.exchange use attempt .reply).rank cfg := by
  unfold replied
  split
  · cases use with
    | warmUp =>
      have main : (c.beginExchange r .main).rank cfg ≤
          r.ahead cfg + (Point.exchange .main 0 .drain).rank cfg := beginExchange_rank .main
      simp only [exchangeDone, Point.rank, Phase.rank] at main ⊢
      omega
    | main =>
      simp only [exchangeDone, finish_rank, Point.rank]
      omega
  · exact raised_rank use attempt .reply _
  · exact raised_rank use attempt .reply _

/-- Every answer gets a request on, but for a chunk that is drained. -/
theorem turns_rank (running : c.task = .running r) (turns : Turns cfg c r a t) :
    (c.Drains a ∧ t.rank cfg = c.rank cfg) ∨ t.rank cfg < c.rank cfg := by
  have here_rank : c.rank cfg = r.ahead cfg + r.point.rank cfg := by rw [rank, running]
  cases turns with
  | drained here =>
    refine .inl ⟨⟨r, _, _, _, running, here, rfl⟩, ?_⟩
    rw [here_rank, here, suspend_rank]
  | opened here =>
    right
    rw [here_rank, here, suspend_rank]
    simp only [Point.rank]
    omega
  | unopened here _ | ungreeted here _ =>
    right
    rw [here_rank, here]
    apply (failed_rank _).trans_lt
    simp only [Point.rank]
    omega
  | greeted here =>
    right
    rw [here_rank, here]
    apply (beginExchange_rank _).trans_lt
    split <;> simp only [Point.rank, Phase.rank] <;> omega
  | @cleared use _ _ here _ | @paced use _ here | @flushed use _ _ here _ _
  | @swallowed use _ here _ =>
    right
    rw [here_rank, here, suspend_rank]
    cases use <;> simp only [Point.rank, Phase.rank] <;> omega
  | unsized here _ | negative here _ _ | silent here _ | short here | broken here =>
    right
    rw [here_rank, here]
    exact raised_rank _ _ _ _
  | replied here =>
    right
    rw [here_rank, here]
    exact replied_rank _ _ _
  | redone here =>
    right
    rw [here_rank, here]
    exact nextAttempt_rank _

end Client

/-- A request, over the states it goes through: it dials three times at most, and ends with a frame
or with the client's own exception, which the coordinator notices; and no socket that has failed is
kept. -/
structure FailsCleanly (states : Nat → Client) : Prop where
  ends : ∃ n result, (states n).task = .ended result
  dials : ∀ n, (states n).dials ≤ 3
  raises : ∀ n e, (states n).task = .ended (.error e) → e.isConnectionError = true
  dropped : ∀ n, (states n).Dropped
  noticed : ∀ n e, (states n).task = .ended (.error e) → e.Noticed

/-- The condition on a peer: it leaves every step of the request safe, and it does not send without
a pause for ever while the client drains. -/
structure Orderly (cfg : ClientConfig) (link : Link) (frame : Text) (peer : Nat → Answer) :
    Prop where
  sized : link = .up → Sized frame
  safe : ∀ n r, ((Client.request link frame).after cfg peer n).task = .running r →
    Client.SafeAt cfg r r.point (peer n)
  pauses : ∀ n, ∃ m, n ≤ m ∧ ¬ ((Client.request link frame).after cfg peer m).Drains (peer m)

namespace Client

variable {cfg : ClientConfig} {c : Client} {peer : Nat → Answer}

theorem after_succ {n : Nat} (fits : (c.after cfg peer n).Fits cfg (peer n)) :
    (c.after cfg peer n).step cfg (peer n) = some (c.after cfg peer (n + 1)) := by
  obtain ⟨t, stepped⟩ := Option.isSome_iff_exists.mp fits
  rw [after, stepped]
  rfl

theorem after_ended {n m : Nat} {result : Except ClientExc Frame} (later : n ≤ m)
    (ended : (c.after cfg peer n).task = .ended result) :
    (c.after cfg peer m).task = .ended result := by
  induction m, later using Nat.le_induction with
  | base => exact ended
  | succ m _ ih =>
    rw [after, step, ih]
    exact ih

/-- A step of the request is a turn, or it has ended. -/
theorem step_cases {t : Client} {a : Answer} (h : c.step cfg a = some t) :
    (∃ r, c.task = .running r ∧ Turns cfg c r a t) ∨
      ∃ result, c.task = .ended result ∧ t = c := by
  unfold step at h
  split at h
  · rename_i r running
    exact .inl ⟨r, running, resume_turns h⟩
  · rename_i result ended
    exact .inr ⟨result, ended, (Option.some.inj h).symm⟩

variable {link : Link} {frame : Text}

theorem after_placed (fits : ∀ n, ((request link frame).after cfg peer n).Fits cfg (peer n))
    (n : Nat) : ((request link frame).after cfg peer n).Placed := by
  induction n with
  | zero => exact begin_placed (Nat.succ_pos _) le_rfl
  | succ n ih =>
    rcases step_cases (after_succ (fits n)) with ⟨r, running, turns⟩ | ⟨_, _, same⟩
    · exact turns_placed ih running turns
    · rw [same]
      exact ih

/-- It is clean up to some answer exactly if it begins safely and every answer before is safe. -/
theorem after_clean (fits : ∀ n, ((request link frame).after cfg peer n).Fits cfg (peer n)) :
    (∀ n, ((request link frame).after cfg peer n).Clean) ↔
      (link = .up → Sized frame) ∧
      ∀ n r, ((request link frame).after cfg peer n).task = .running r →
        SafeAt cfg r r.point (peer n) := by
  constructor
  · intro clean
    refine ⟨begin_clean.mp (clean 0), fun n r running => ?_⟩
    rcases step_cases (after_succ (fits n)) with ⟨r', running', turns⟩ | ⟨_, ended, _⟩
    · cases running.symm.trans running'
      exact (turns_clean (after_placed fits n) running turns).mp (clean (n + 1))
    · cases running.symm.trans ended
  · rintro ⟨sized, safe⟩ n
    induction n with
    | zero => exact begin_clean.mpr sized
    | succ n ih =>
      rcases step_cases (after_succ (fits n)) with ⟨r, running, turns⟩ | ⟨_, _, same⟩
      · exact (turns_clean (after_placed fits n) running turns).mpr (safe n r running)
      · rw [same]
        exact ih

/-- A request that never ends drains from some point on. -/
theorem drains_of_endless (fits : ∀ n, ((request link frame).after cfg peer n).Fits cfg (peer n))
    (endless : ∀ n result, ((request link frame).after cfg peer n).task ≠ .ended result) :
    ∃ n, ∀ m, n ≤ m → ((request link frame).after cfg peer m).Drains (peer m) := by
  let left : Nat → Nat := fun n => ((request link frame).after cfg peer n).rank cfg
  have gets_on : ∀ n, (((request link frame).after cfg peer n).Drains (peer n) ∧
      left (n + 1) = left n) ∨ left (n + 1) < left n := by
    intro n
    rcases step_cases (after_succ (fits n)) with ⟨r, running, turns⟩ | ⟨_, ended, _⟩
    · exact turns_rank running turns
    · exact absurd ended (endless n _)
  have still : ∀ n, ((request link frame).after cfg peer n).Drains (peer n) →
      left (n + 1) ≤ left n := by
    intro n _
    rcases gets_on n with ⟨-, same⟩ | less
    · exact same.le
    · exact less.le
  apply Runs.eventually_idle still
  intro n busy
  rcases gets_on n with ⟨drains, -⟩ | less
  · exact absurd drains busy
  · exact less

theorem not_drains_of_ended {a : Answer} {result : Except ClientExc Frame}
    (ended : c.task = .ended result) : ¬ c.Drains a := by
  rintro ⟨r, _, _, _, running, -⟩
  cases ended.symm.trans running

theorem dropped_of_placed (placed : c.Placed) (clean : c.Clean) : c.Dropped := by
  unfold Dropped
  split
  · rename_i running
    exact placed.between _ running (.inl rfl)
  · rename_i running
    exact placed.between _ running (.inr ⟨_, rfl⟩)
  · trivial
  · rename_i e ended
    exact placed.ended e ended (clean e ended)
  · trivial

end Client

/-- **The client fails cleanly on a peer** exactly if this is orderly: it never sends a reply of
which the data is garbled, and it does not talk without a pause. -/
theorem fails_cleanly_iff (cfg : ClientConfig) (link : Link) (op : Call) (peer : Nat → Answer)
    (fits : ∀ n, ((Client.request link op.frame).after cfg peer n).Fits cfg (peer n)) :
    FailsCleanly ((Client.request link op.frame).after cfg peer) ↔
      Orderly cfg link op.frame peer := by
  have placed := Client.after_placed fits
  have cleanly := Client.after_clean fits
  constructor
  · intro fails
    obtain ⟨sized, safe⟩ := cleanly.mp fails.raises
    refine ⟨sized, safe, fun n => ?_⟩
    obtain ⟨end_, result, ended⟩ := fails.ends
    have settled := Client.after_ended (le_max_right n end_) ended
    exact ⟨max n end_, le_max_left n end_, Client.not_drains_of_ended settled⟩
  · rintro ⟨sized, safe, pauses⟩
    have clean := cleanly.mpr ⟨sized, safe⟩
    refine ⟨?_, fun n => (placed n).dials, clean, ?_, ?_⟩
    · by_contra endless
      push Not at endless
      obtain ⟨n, drains⟩ := Client.drains_of_endless fits endless
      obtain ⟨m, later, pause⟩ := pauses n
      exact pause (drains m later)
    · exact fun n => Client.dropped_of_placed (placed n) (clean n)
    · exact fun n e ended => ClientExc.noticed_of_connectionError (clean n e ended)

namespace Client

/-- What has ended takes any answer. -/
theorem fits_of_ended {cfg : ClientConfig} {c : Client} {peer : Nat → Answer} {k : Nat}
    {result : Except ClientExc Frame} (ended : (c.after cfg peer k).task = .ended result)
    (before : ∀ n < k, ((c.after cfg peer n).step cfg (peer n)).isSome = true) (n : Nat) :
    (c.after cfg peer n).Fits cfg (peer n) := by
  rcases Nat.lt_or_ge n k with early | late
  · exact before n early
  · have settled := after_ended late ended
    simp [Fits, step, settled]

/-- A peer that answers like this, one await after the other. -/
def scripted (answers : List Answer) (n : Nat) : Answer := answers[n]?.getD .done

end Client

-- The first attempt is refused, the second one not greeted; the third one has its warm-up
-- swallowed, and drains a byte before it writes.
def patient : Nat → Answer := Client.scripted
  [.osError, .opened, .eof [], .done, .opened, .bytes Protocol.hello, .timeout, .done, .done,
    .eof [], .bytes ['0'], .timeout, .done, .done, .bytes (Protocol.buildAck .write 0x4A 1)]

theorem third_attempt_succeeds : ∃ n f,
    ((Client.request .lost (Call.write 0x4A [1]).frame).after .default patient n).task =
      .ended (.ok f) ∧
    ((Client.request .lost (Call.write 0x4A [1]).frame).after .default patient n).dials = 3 ∧
    FailsCleanly ((Client.request .lost (Call.write 0x4A [1]).frame).after .default patient) := by
  let reply : Protocol.Frame :=
    ⟨.write, 0x4A, 1, [], "A7".toList, "w004A0001OKA7".toList⟩
  have ended : ((Client.request .lost (Call.write 0x4A [1]).frame).after .default
      patient 15).task = .ended (.ok reply) := by decide +kernel
  have fits := Client.fits_of_ended ended (by decide +kernel)
  have clean : ∀ n, ((Client.request .lost (Call.write 0x4A [1]).frame).after .default
      patient n).Clean := by
    intro n e raised
    have settled := Client.after_ended (le_max_left n 15) raised
    cases settled.symm.trans (Client.after_ended (le_max_right n 15) ended)
  obtain ⟨sized, safe⟩ := (Client.after_clean fits).mp clean
  refine ⟨15, reply, ended, by decide +kernel,
    (fails_cleanly_iff .default .lost (.write 0x4A [1]) patient fits).mpr ⟨sized, safe, ?_⟩⟩
  intro n
  exact ⟨max n 15, le_max_left n 15,
    Client.not_drains_of_ended (Client.after_ended (le_max_right n 15) ended)⟩

/-- The reply to the read of a register with `G0` for data: the parser's `ValueError` gets out, and
the socket stays. -/
theorem garbled_reply_escapes : ¬ ∀ (link : Link) (op : Call) (peer : Nat → Answer),
    (∀ n, ((Client.request link op.frame).after .default peer n).Fits .default (peer n)) →
      FailsCleanly ((Client.request link op.frame).after .default peer) := by
  intro all
  let peer := Client.scripted [.timeout, .done, .done, .bytes "rB0000001G000".toList]
  have raised : ((Client.request .up (Call.read 0xB000 1).frame).after .default peer 4).task =
      .ended (.error .value) := by decide +kernel
  have fits := Client.fits_of_ended raised (by decide +kernel)
  have own := (all .up (.read 0xB000 1) peer fits).raises 4 .value raised
  cases own

end R60V.Integration
