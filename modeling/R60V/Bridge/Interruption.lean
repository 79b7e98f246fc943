import R60V.Bridge.Conversation
import R60V.Bridge.Link

/-! Requests, one at a time, while other tasks close the link. `close` takes no lock and clears the
reader and the writer that a request goes back to after each of its awaits. -/
namespace R60V

open Python (Text)
open Protocol (Frame)
open Runs (Run Move outputs)

namespace Client

/-- What a request ends with is a frame or the client's own exception. -/
def Clean (c : Client) : Prop :=
  ∀ frame e, c.task = .ended frame (.error e) → e.isConnectionError = true

/-- The length of the reply can be read off the frame. -/
def Sized (frame : Text) : Prop := ∃ want, expectedResponseLen frame = .ok want

instance (frame : Text) : Decidable (Sized frame) :=
  match len : expectedResponseLen frame with
  | .ok want => .isTrue ⟨want, len⟩
  | .error _ => .isFalse fun ⟨_, other⟩ => nomatch len.symm.trans other

-- It can be written, and the length of its reply is one that `readexactly` takes.
def Awaited (frame : Text) : Prop :=
  Python.isAscii frame = true ∧ ∃ want, expectedResponseLen frame = .ok want ∧ ¬ want < 0

instance (frame : Text) : Decidable (Awaited frame) :=
  if ascii : Python.isAscii frame = true then
    match len : expectedResponseLen frame with
    | .ok want =>
      if less : want < 0 then .isFalse fun ⟨_, _, other, nonneg⟩ =>
        nonneg (Except.ok.inj (len.symm.trans other) ▸ less)
      else .isTrue ⟨ascii, want, len, less⟩
    | .error _ => .isFalse fun ⟨_, _, other, _⟩ => nomatch len.symm.trans other
  else .isFalse fun ⟨other, _⟩ => ascii other

/-- What a running request writes can be encoded. -/
def Plain (c : Client) : Prop := ∀ r, c.task = .running r → Python.isAscii r.frame = true

def Ready (c : Client) (frame : Text) : Prop := c.link ≠ none ∧ Sized frame

variable {cfg : ClientConfig} {c : Client} {r : Request}

theorem finish_clean {result : Except Exc Frame} : (c.finish r result).Clean ↔
    ∀ e, result = .error e → e.isConnectionError = true := by
  constructor
  · rintro clean e rfl
    exact clean r.frame e rfl
  · intro all frame e ended
    cases ended
    exact all e rfl

theorem suspend_clean (p : Point) : (c.suspend r p).Clean := nofun

theorem sized_error {frame : Text} {e : Exc} (h : expectedResponseLen frame = .error e) :
    e.isConnectionError = false := by
  unfold expectedResponseLen at h
  split at h
  · cases h; rfl
  · split at h
    · cases h; rfl
    · cases h

theorem not_sized {frame : Text} {e : Exc} (h : expectedResponseLen frame = .error e) :
    ¬ Sized frame := by
  rintro ⟨want, len⟩
  cases h.symm.trans len

theorem beginExchange_clean {use : Use} :
    (c.beginExchange r use).1.Clean ↔ c.Ready (frameOf r use) := by
  unfold beginExchange
  split
  · rename_i gone
    simp [finish_clean, Ready, gone, Exc.isConnectionError]
  · rename_i l linked
    split
    · rename_i e len
      simp [finish_clean, Ready, not_sized len, sized_error len]
    · rename_i want len
      exact iff_of_true (suspend_clean _) ⟨by simp [linked], want, len⟩

theorem connect_clean (backoff : ℚ) : (c.connect r backoff).1.Clean := by
  unfold connect
  dsimp only
  split <;> exact suspend_clean _

theorem ensureConnected_clean :
    (c.ensureConnected cfg r).1.Clean ↔ (c.connected = true → Sized r.frame) := by
  unfold ensureConnected
  split
  · rename_i on
    have linked : c.link ≠ none := by
      intro gone
      simp [connected, gone] at on
    simp [beginExchange_clean, Ready, linked, on, frameOf]
  · rename_i off
    exact iff_of_true (connect_clean _) fun on => absurd on off

theorem nextAttempt_clean (gone : c.link = none) (e : Exc) : (c.nextAttempt cfg r e).1.Clean := by
  unfold nextAttempt
  split
  · exact ensureConnected_clean.mpr fun on => by simp [connected_of_link gone] at on
  · exact finish_clean.mpr (by rintro e ⟨⟩; rfl)

theorem exchangeFailed_main_clean {e : Exc} (caught : e.caught = true) :
    (c.exchangeFailed cfg r .main e).1.Clean := by
  simp only [exchangeFailed, caught, if_true]
  split
  · exact suspend_clean _
  · exact nextAttempt_clean (drop_link c) e

theorem exchangeFailed_warmUp_clean {backoff : ℚ} {e : Exc} (caught : e.caught = true) :
    (c.exchangeFailed cfg r (.warmUp backoff) e).1.Clean ↔ (e = .osError ∨ c.Ready r.frame) := by
  simp only [exchangeFailed, caught, if_true]
  split
  · exact iff_of_true (suspend_clean _) (Or.inl ‹_›)
  · rename_i other
    simp [beginExchange_clean, other, frameOf]

end Client

/-- What happens to the client: a call, the answer to an await of it, `close`, and the end of the
transport. -/
inductive Interruption where
  | call (op : Call)
  | resume (a : Answer)
  | close
  | lost

namespace Interruption

open Client (Sized Awaited frameOf)

def step (cfg : ClientConfig) (c : Client) : Interruption → Option (Client × List Act)
  | .call op => c.request cfg op.frame
  | .resume a => c.resume cfg a
  | .close => some c.close
  | .lost => some (c.lose, [])

/-- Resumed where it goes back to the link, the request finds one, and a frame with a length. -/
def SafeAt (cfg : ClientConfig) (c : Client) (r : Request) : Point → Answer → Prop
  | .greeting backoff, .bytes _ =>
    c.Ready (frameOf r (if cfg.warmup then .warmUp backoff else .main))
  | .exchange _ _ .pace, .done => c.link ≠ none
  | .exchange use _ .drain, .done => c.link ≠ none ∧ Awaited (frameOf r use)
  | .exchange (.warmUp _) _ .reply, .bytes _ | .exchange (.warmUp _) _ .reply, .eof _ =>
    c.Ready r.frame
  | .exchange (.warmUp _) attempt .reply, .timeout => attempt < cfg.maxRetries ∨ c.Ready r.frame
  | _, _ => True

def Safe (cfg : ClientConfig) (c : Client) : Interruption → Prop
  | .call op => c.connected = true → Sized op.frame
  | .resume a => ∀ r, c.task = .running r → SafeAt cfg c r r.point a
  | .close | .lost => True

variable {cfg : ClientConfig} {c : Client} {r : Request}

theorem exchanges_clean {use : Use} {attempt : Nat} {phase : Phase} {a : Answer}
    {next : Client × List Act} (plain : Python.isAscii r.frame = true)
    (h : Client.Exchanges cfg c r use attempt phase a next) :
    next.1.Clean ↔ SafeAt cfg c r (.exchange use attempt phase) a := by
  cases h with
  | unlinked gone | readerless gone =>
    simp [Client.finish_clean, SafeAt, gone, Exc.isConnectionError]
  | unencoded linked foreign => cases foreign.symm.trans (Client.frameOf_ascii plain use)
  | issued linked _ => simp [Client.suspend_clean, SafeAt, linked]
  | unreadable linked len =>
    have unsized : ¬ Awaited (frameOf r use) := fun ⟨_, want, other, _⟩ =>
      nomatch len.symm.trans other
    simp [Client.finish_clean, SafeAt, unsized, Client.sized_error len]
  | negative linked len less =>
    have unsized : ¬ Awaited (frameOf r use) := fun ⟨_, want, other, nonneg⟩ =>
      nonneg (Except.ok.inj (len.symm.trans other) ▸ less)
    simp [Client.finish_clean, SafeAt, unsized, Exc.isConnectionError]
  | @drained l want linked len nonneg =>
    have awaited : Awaited (frameOf r use) :=
      ⟨Client.frameOf_ascii plain use, want, len, nonneg⟩
    simp [Client.suspend_clean, SafeAt, linked, awaited]
  | swallowed more =>
    cases use <;> simp [Client.suspend_clean, SafeAt, more]
  | replied whole parsed =>
    cases use with
    | warmUp backoff => exact Client.beginExchange_clean
    | main => exact iff_of_true (Client.finish_clean.mpr nofun) trivial
  | undrained | broken =>
    cases use with
    | warmUp backoff =>
      exact (Client.exchangeFailed_warmUp_clean rfl).trans (iff_of_true (Or.inl rfl) trivial)
    | main => exact iff_of_true (Client.exchangeFailed_main_clean rfl) trivial
  | garbled _ _ | short =>
    cases use with
    | warmUp backoff =>
      exact (Client.exchangeFailed_warmUp_clean rfl).trans (or_iff_right nofun)
    | main => exact iff_of_true (Client.exchangeFailed_main_clean rfl) trivial
  | silent last =>
    cases use with
    | warmUp backoff =>
      exact (Client.exchangeFailed_warmUp_clean rfl).trans (by simp [SafeAt, last])
    | main => exact iff_of_true (Client.exchangeFailed_main_clean rfl) trivial

theorem resume_clean {a : Answer} {next : Client × List Act} (detached : c.Detached)
    (plain : Python.isAscii r.frame = true) (running : c.task = .running r)
    (h : c.resume cfg a = some next) : next.1.Clean ↔ SafeAt cfg c r r.point a := by
  cases Client.resume_resumes running h with
  | dropped here | opened here =>
    rw [here]
    exact iff_of_true (Client.suspend_clean _) trivial
  | refused here failed =>
    rw [here]
    exact iff_of_true (Client.suspend_clean _) (by rcases failed with rfl | rfl <;> trivial)
  | greeted here whole =>
    rw [here]
    exact Client.beginExchange_clean
  | ungreeted here failed =>
    rw [here]
    exact iff_of_true (Client.suspend_clean _)
      (by rcases failed with rfl | ⟨got, rfl⟩ | rfl <;> trivial)
  | retried here =>
    rw [here]
    exact iff_of_true (Client.connect_clean _) trivial
  | exchanged here exchanges =>
    rw [here]
    exact exchanges_clean plain exchanges
  | redone here =>
    have gone := detached r running (by rw [here]; rfl)
    rw [here]
    exact iff_of_true (Client.nextAttempt_clean gone _) trivial

theorem step_detached {e : Interruption} {next : Client × List Act} (detached : c.Detached)
    (h : step cfg c e = some next) : next.1.Detached := by
  cases e with
  | call op => exact (Client.request_kept h).detached
  | resume a => exact Client.resume_detached detached h
  | close =>
    cases h
    exact Client.close_kept.detached
  | lost =>
    cases h
    exact Client.lose_detached detached

theorem close_task (c : Client) : c.close.1.task = c.task := by
  simp only [Client.close, Client.drop]
  split
  · rfl
  · split <;> rfl

/-- What a call asks for can be encoded, and a request keeps its frame. -/
theorem step_plain {e : Interruption} {next : Client × List Act} (plain : c.Plain)
    (h : step cfg c e = some next) : next.1.Plain := by
  intro r goesOn
  cases e with
  | call op =>
    obtain ⟨same, -⟩ := (Client.request_between h).frame goesOn
    exact same ▸ Call.isAscii_frame op
  | resume a =>
    obtain ⟨q, running⟩ := Client.resume_running h
    exact Client.resume_frame running h goesOn ▸ plain q running
  | close =>
    cases h
    exact plain r (close_task c ▸ goesOn)
  | lost =>
    cases h
    exact plain r goesOn

theorem step_clean {e : Interruption} {next : Client × List Act} (detached : c.Detached)
    (plain : c.Plain) (clean : c.Clean) (h : step cfg c e = some next) :
    next.1.Clean ↔ Safe cfg c e := by
  cases e with
  | call op =>
    simp only [step, Client.request] at h
    split at h
    · cases h
    · cases h
      exact Client.ensureConnected_clean
  | resume a =>
    obtain ⟨r, running⟩ := Client.resume_running h
    rw [resume_clean detached (plain r running) running h]
    exact ⟨fun safe q same => by cases running.symm.trans same; exact safe,
      fun all => all r running⟩
  | close =>
    cases h
    exact iff_of_true (by simpa only [Client.Clean, close_task] using clean) trivial
  | lost =>
    cases h
    exact iff_of_true clean trivial

/-! Every request ends, or dials for ever: how many resumptions are left before the next dial. -/

def phaseLeft : Phase → Nat
  | .pace => 3
  | .drain => 2
  | .reply => 1

def pointLeft (cfg : ClientConfig) : Point → Nat
  | .dropOld _ | .dropFailed _ => 1
  | .backingOff _ => 2
  | .exchange .main attempt phase => 3 * (cfg.maxRetries - attempt) + phaseLeft phase + 1
  -- The exchange of the request itself follows the warm-up.
  | .exchange (.warmUp _) attempt phase =>
    3 * (cfg.maxRetries - attempt) + phaseLeft phase + 3 * cfg.maxRetries + 4
  | .greeting _ => 6 * cfg.maxRetries + 8
  | .opening _ => 6 * cfg.maxRetries + 9

def left (cfg : ClientConfig) (c : Client) : Nat :=
  match c.task with
  | .running r => pointLeft cfg r.point
  | .idle | .ended _ _ => 0

def span (cfg : ClientConfig) : Nat := 6 * cfg.maxRetries + 9

def dials (acts : List Act) : Nat :=
  acts.countP fun act => match act with
    | .dial _ => true
    | .send _ _ | .hangUp _ => false

/-- A dial buys a whole new span. -/
def Spends (cfg : ClientConfig) (n : Nat) (next : Client × List Act) : Prop :=
  left cfg next.1 ≤ n + span cfg * dials next.2

@[simp] theorem dials_append (acts more : List Act) :
    dials (acts ++ more) = dials acts + dials more := List.countP_append

theorem Spends.mono {n m : Nat} {next : Client × List Act} (spends : Spends cfg n next)
    (le : n ≤ m) : Spends cfg m next := by
  unfold Spends at *
  omega

theorem finish_spends (result : Except Exc Frame) (acts : List Act) :
    Spends cfg 0 (c.finish r result, acts) := Nat.zero_le _

theorem suspend_spends (p : Point) (acts : List Act) :
    Spends cfg (pointLeft cfg p) (c.suspend r p, acts) := Nat.le_add_right _ _

theorem dial_spends {backoff : ℚ} {id : Nat} (acts : List Act) :
    Spends cfg 0 (c.suspend r (.opening backoff), acts ++ [.dial id]) := by
  have one : dials [.dial id] = 1 := rfl
  simp only [Spends, left, Client.suspend, pointLeft, span, dials_append, one, Nat.mul_add]
  omega

theorem beginExchange_spends (use : Use) :
    Spends cfg (pointLeft cfg (.exchange use 0 .pace)) (c.beginExchange r use) := by
  unfold Client.beginExchange
  split
  · exact (finish_spends _ _).mono (Nat.zero_le _)
  · split
    · exact (finish_spends _ _).mono (Nat.zero_le _)
    · exact suspend_spends _ _

theorem connect_spends (backoff : ℚ) : Spends cfg 1 (c.connect r backoff) := by
  unfold Client.connect
  dsimp only
  split
  · exact suspend_spends _ _
  · exact (dial_spends _).mono (Nat.zero_le _)

theorem ensureConnected_spends :
    Spends cfg (pointLeft cfg (.exchange .main 0 .pace)) (c.ensureConnected cfg r) := by
  unfold Client.ensureConnected
  split
  · exact beginExchange_spends .main
  · exact (connect_spends _).mono (by simp [pointLeft])

/-- Without a link the second attempt dials at once. -/
theorem nextAttempt_spends (gone : c.link = none) (e : Exc) :
    Spends cfg 0 (c.nextAttempt cfg r e) := by
  unfold Client.nextAttempt
  split
  · simp only [Client.ensureConnected, Client.connected_of_link gone, Bool.false_eq_true, if_false,
      Client.connect, Client.drop, gone]
    exact dial_spends _
  · exact finish_spends _ _

theorem exchangeFailed_main_spends (e : Exc) :
    Spends cfg 1 (c.exchangeFailed cfg r .main e) := by
  simp only [Client.exchangeFailed]
  split
  · split
    · exact suspend_spends _ _
    · have spends : Spends cfg 0 (c.drop.1.nextAttempt cfg r e) :=
        nextAttempt_spends (Client.drop_link c) e
      simp only [Spends, dials_append, Nat.mul_add] at spends ⊢
      omega
  · exact (finish_spends _ _).mono (Nat.zero_le _)

theorem exchangeFailed_warmUp_spends (backoff : ℚ) (e : Exc) :
    Spends cfg (pointLeft cfg (.exchange .main 0 .pace))
      (c.exchangeFailed cfg r (.warmUp backoff) e) := by
  simp only [Client.exchangeFailed]
  split
  · exact (suspend_spends _ _).mono (by simp only [pointLeft, phaseLeft]; omega)
  · split
    · exact beginExchange_spends .main
    · exact (finish_spends _ _).mono (Nat.zero_le _)

theorem exchangeFailed_spends {use : Use} {attempt : Nat} {phase : Phase} (e : Exc) :
    Spends cfg (pointLeft cfg (.exchange use attempt phase) - 1)
      (c.exchangeFailed cfg r use e) := by
  have some_ : 1 ≤ phaseLeft phase := by cases phase <;> simp [phaseLeft]
  cases use with
  | main => exact (exchangeFailed_main_spends e).mono (by simp only [pointLeft]; omega)
  | warmUp backoff =>
    have whole : phaseLeft .pace = 3 := rfl
    apply (exchangeFailed_warmUp_spends backoff e).mono
    simp only [pointLeft, whole]
    omega

theorem exchanges_spends {use : Use} {attempt : Nat} {phase : Phase} {a : Answer}
    {next : Client × List Act} (h : Client.Exchanges cfg c r use attempt phase a next) :
    Spends cfg (pointLeft cfg (.exchange use attempt phase) - 1) next := by
  cases h with
  | unlinked _ | unencoded _ _ | readerless _ | unreadable _ _ | negative _ _ _ =>
    exact (finish_spends _ _).mono (Nat.zero_le _)
  | issued _ _ | drained _ _ _ =>
    apply (suspend_spends _ _).mono
    cases use <;> simp only [pointLeft, phaseLeft] <;> omega
  | swallowed more =>
    apply (suspend_spends _ _).mono
    cases use <;> simp only [pointLeft, phaseLeft] <;> omega
  | replied _ _ =>
    cases use with
    | main => exact (finish_spends _ _).mono (Nat.zero_le _)
    | warmUp backoff =>
      apply (beginExchange_spends .main).mono
      simp only [pointLeft, phaseLeft]
      omega
  | undrained | garbled _ _ | silent _ | short | broken => exact exchangeFailed_spends _

theorem resume_spends {a : Answer} {next : Client × List Act} (detached : c.Detached)
    (running : c.task = .running r) (h : c.resume cfg a = some next) :
    Spends cfg (left cfg c - 1) next := by
  simp only [left, running]
  cases Client.resume_resumes running h with
  | dropped here => exact (dial_spends []).mono (Nat.zero_le _)
  | opened here =>
    rw [here]
    exact suspend_spends _ _
  | refused here _ =>
    rw [here]
    exact (suspend_spends _ _).mono (by simp only [pointLeft]; omega)
  | greeted here _ =>
    rw [here]
    apply (beginExchange_spends _).mono
    split <;> simp only [pointLeft, phaseLeft] <;> omega
  | ungreeted here _ =>
    rw [here]
    exact (suspend_spends _ _).mono (by simp only [pointLeft]; omega)
  | retried here =>
    rw [here]
    exact connect_spends _
  | exchanged here exchanges =>
    rw [here]
    exact exchanges_spends exchanges
  | redone here =>
    have gone := detached r running (by rw [here]; rfl)
    rw [here]
    exact nextAttempt_spends gone _

theorem left_pos (running : c.task = .running r) : 0 < left cfg c := by
  simp only [left, running]
  match r.point with
  | .dropOld _ | .dropFailed _ | .backingOff _ | .greeting _ | .opening _ => simp [pointLeft]
  | .exchange .main _ _ | .exchange (.warmUp _) _ _ => simp [pointLeft]

/-- Whatever a request awaits has some answer. -/
theorem resumable (running : c.task = .running r) : ∃ a next, c.resume cfg a = some next := by
  match here : r.point with
  | .dropOld _ | .backingOff _ | .dropFailed _ =>
    exact ⟨.done, _, by simp only [Client.resume, running, here]; rfl⟩
  | .opening _ | .greeting _ =>
    exact ⟨.timeout, _, by simp only [Client.resume, running, here]; rfl⟩
  | .exchange use attempt .drain | .exchange use attempt .reply =>
    exact ⟨.osError, _, by simp only [Client.resume, running, here]; rfl⟩
  | .exchange use attempt .pace =>
    simp only [Client.resume, running, here]
    cases link : c.link with
    | none => exact ⟨.done, _, by simp only [Client.resumeExchange, link]; rfl⟩
    | some l =>
      cases ascii : Python.isAscii (frameOf r use) <;>
        exact ⟨.done, _, by simp only [Client.resumeExchange, link, ascii]; rfl⟩

abbrev Trace := List (Move Client Interruption Act)

def calls (ms : Trace) : Nat :=
  ms.countP fun m => match m.event with
    | .call _ => true
    | .resume _ | .close | .lost => false

def resumptions (ms : Trace) : Nat :=
  ms.countP fun m => match m.event with
    | .resume _ => true
    | .call _ | .close | .lost => false

def Bounded (cfg : ClientConfig) (ms : Trace) (c : Client) : Prop :=
  resumptions ms + left cfg c ≤ span cfg * (calls ms + dials (outputs ms))

theorem step_bounded {ms : Trace} {e : Interruption} {next : Client × List Act}
    (detached : c.Detached) (bounded : Bounded cfg ms c) (h : step cfg c e = some next) :
    Bounded cfg (ms ++ [⟨c, e, next.2, next.1⟩]) next.1 := by
  simp only [Bounded, calls, resumptions, List.countP_append, Runs.outputs_snoc, dials_append,
    List.countP_singleton, Nat.mul_add] at bounded ⊢
  cases e with
  | call op =>
    have spends : Spends cfg (span cfg) next := by
      simp only [step, Client.request] at h
      split at h
      · cases h
      · cases h
        exact ensureConnected_spends.mono (by simp only [pointLeft, phaseLeft, span]; omega)
    simp only [Spends] at spends
    simp
    omega
  | resume a =>
    obtain ⟨r, running⟩ := Client.resume_running h
    have spends := resume_spends detached running h
    have some_ : 0 < left cfg c := left_pos running
    simp only [Spends] at spends
    simp
    omega
  | close =>
    cases h
    have same : left cfg c.close.1 = left cfg c := by simp only [left, close_task]
    simp only [same]
    simp
    omega
  | lost =>
    cases h
    have same : left cfg c.lose = left cfg c := rfl
    simp only [same]
    simp
    omega

theorem run_bounded {ms : Trace} (run : Run (step cfg) .fresh ms c) :
    c.Detached ∧ Bounded cfg ms c := by
  induction run with
  | nil => exact ⟨nofun, Nat.zero_le _⟩
  | snoc _ h ih => exact ⟨step_detached ih.1 h, step_bounded ih.1 ih.2 h⟩

/-- Among requests that others cut in on, the clean ones are those resumed safely throughout; and
a request is never stuck, so that one without an end dials without an end. -/
theorem ends_cleanly_iff (cfg : ClientConfig) {ms : Trace} {c : Client}
    (run : Run (step cfg) .fresh ms c) :
    ((∀ m ∈ ms, m.after.Clean) ↔ ∀ m ∈ ms, Safe cfg m.before m.event) ∧
      (∀ r, c.task = .running r → ∃ a next, c.resume cfg a = some next) ∧
      resumptions ms ≤ span cfg * (calls ms + dials (outputs ms)) := by
  have fresh : Client.Detached .fresh ∧ Client.Plain .fresh := ⟨nofun, nofun⟩
  refine ⟨run.states_iff (fun c => c.Detached ∧ c.Plain) Client.Clean Client.Clean (Safe cfg) fresh
    nofun (fun _ clean => clean) ?_ ?_ ?_, fun r running => resumable running, ?_⟩
  · exact fun c e d acts inv h => ⟨step_detached inv.1 h, step_plain inv.2 h⟩
  · exact fun c e d acts inv clean h safe => (step_clean inv.1 inv.2 clean h).mpr safe
  · exact fun c e d acts inv clean h after => (step_clean inv.1 inv.2 clean h).mp after
  · exact le_trans (Nat.le_add_right _ _) (run_bounded run).2

instance (cfg : ClientConfig) (c : Client) (r : Request) (p : Point) (a : Answer) :
    Decidable (SafeAt cfg c r p a) := by
  unfold SafeAt Client.Ready
  split <;> infer_instance

def safe (cfg : ClientConfig) (c : Client) : Interruption → Bool
  | .call op => !c.connected || decide (Sized op.frame)
  | .resume a =>
    match c.task with
    | .running r => decide (SafeAt cfg c r r.point a)
    | .idle | .ended _ _ => true
  | .close | .lost => true

theorem safe_of_test {e : Interruption} (h : safe cfg c e = true) : Safe cfg c e := by
  cases e with
  | call op => simpa [safe, Safe, Bool.or_eq_true, or_iff_not_imp_left] using h
  | resume a =>
    intro r running
    simpa [safe, running] using h
  | close | lost => trivial

def returned (c : Client) : Option (List Int) :=
  match c.task with
  | .ended _ (.ok f) => some f.data
  | _ => none

/-- Without a warm-up: the link is closed while a reply is awaited, and the request dials again. -/
theorem clean_after_close : ∃ ms c, Run (step ⟨1, 30, false, 3⟩) .fresh ms c ∧
    returned c = some [7] ∧ ∀ m ∈ ms, m.after.Clean := by
  have reached : (Runs.feed (step ⟨1, 30, false, 3⟩) .fresh [.call (.read 0 1), .resume .opened,
      .resume (.bytes Protocol.hello), .resume .done, .resume .done, .close, .resume (.eof []),
      .resume .opened, .resume (.bytes Protocol.hello), .resume .done, .resume .done,
      .resume (.bytes (Protocol.buildFrame .read 0 1 [7]))]).any (fun r =>
        returned r.1 == some [7] && r.2.all fun m => safe ⟨1, 30, false, 3⟩ m.before m.event) =
      true := by decide +kernel
  obtain ⟨ms, c, run, -, tested⟩ := Runs.feed_reaches reached
  simp only [Bool.and_eq_true, beq_iff_eq, List.all_eq_true] at tested
  exact ⟨ms, c, run, tested.1,
    (ends_cleanly_iff _ run).1.mpr fun m member => safe_of_test (tested.2 m member)⟩

def raised (c : Client) : Option Exc :=
  match c.task with
  | .ended _ (.error e) => some e
  | _ => none

theorem not_clean_of_raised {c : Client} {e : Exc} (raises : raised c = some e)
    (foreign : e.isConnectionError = false) : ¬ c.Clean := by
  intro clean
  unfold raised at raises
  split at raises
  · rename_i frame e' ended
    cases raises
    exact absurd (clean frame e ended) (by simp [foreign])
  · cases raises

/-- Closed while its warm-up awaits a reply, a request fails on the assertion of the exchange that
follows. -/
theorem assertion_escapes : ¬ ∀ ms c, Run (step .default) .fresh ms c →
    ∀ m ∈ ms, m.after.Clean := by
  have reached : (Runs.feed (step .default) .fresh [.call (.read 0 1), .resume .opened,
      .resume (.bytes Protocol.hello), .resume .done, .resume .done, .close,
      .resume (.eof [])]).any (fun r => r.2.any fun m => raised m.after == some .assertion) =
      true := by decide +kernel
  obtain ⟨ms, c, run, -, tested⟩ := Runs.feed_reaches reached
  obtain ⟨m, member, test⟩ := List.any_eq_true.mp tested
  intro clean
  exact not_clean_of_raised (beq_iff_eq.mp test) rfl (clean ms c run m member)

end Interruption

end R60V
