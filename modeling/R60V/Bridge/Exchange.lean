import Mathlib.Computability.StateTransition
import R60V.Bridge.Client

/-! One exchange of the client against a machine that behaves in any way. On a connection that takes
its frames it always ends, by its bounded retries, and how it ends depends on the first frame that
is not swallowed. -/
namespace R60V

open Python (Text)
open Protocol (parseFrame Frame ProtocolError)
open StateTransition (Reaches₁)

inductive Reading where
  | bytes (stream : Nat → Char)
  | timeout
  | eof (got : Text)
  | osError

def Reading.answer (length : Nat) : Reading → Answer
  | .bytes stream => .bytes ((List.range length).map stream)
  | .timeout => .timeout
  | .eof got => .eof got
  | .osError => .osError

inductive Dial where
  | accepted | refused | timeout
  deriving DecidableEq

def Dial.answer : Dial → Answer
  | .accepted => .opened
  | .refused => .osError
  | .timeout => .timeout

/-- What waiting for `drain` comes to. No timeout is set for it: while the peer does not read and
too much has been written, it does not end. -/
inductive Drain where
  | done | osError | never
  deriving DecidableEq

def Drain.answer : Drain → Option Answer
  | .done => some .done
  | .osError => some .osError
  | .never => none

/-- A behaviour of the machine: what it does on each attempt to connect, with each frame written on
a connection, and with each connection that is hung up. A request meets every one of these at most
once, so whatever a peer may do during a request, and where the source sets no timeout also fail
to do for ever, is what some such machine does. -/
structure Machine where
  accept : Nat → Dial
  greet : Nat → Reading
  -- What `drain` comes to after the k-th frame on a connection.
  flush : Nat → Nat → Drain
  reply : Nat → Nat → Reading
  -- Does `wait_closed` end, when it is waited for after so many attempts to connect?
  closes : Nat → Bool

def wantOf (frame : Text) : Nat :=
  match expectedResponseLen frame with
  | .ok want => want.toNat
  | .error _ => 0

namespace Machine

variable (m : Machine)

/-- What the await of a request is answered with, if it ever is. -/
def answer (c : Client) : Option Answer :=
  match c.task with
  | .running r =>
    match r.point, c.link with
    | .opening _, _ => some (m.accept c.opens).answer
    | .greeting _, some l => some ((m.greet l.id).answer Protocol.hello.length)
    | .exchange _ _ .drain, some l => (m.flush l.id (l.issued - 1)).answer
    | .exchange use _ .reply, some l =>
      some ((m.reply l.id (l.issued - 1)).answer (wantOf (Client.frameOf r use)))
    | .dropOld _, _ | .dropFailed _, _ => if m.closes c.opens then some .done else none
    | _, _ => some .done
  | _ => some .done

def tick (cfg : ClientConfig) (c : Client) : Option Client :=
  ((m.answer c).bind (c.resume cfg)).map (·.1)

/-- The machine takes the frame and says nothing. -/
def Swallows (id k : Nat) : Prop := m.flush id k = .done ∧ m.reply id k = .timeout

def Takes (id : Nat) : Prop := ∀ k, m.flush id k ≠ .never

/-- What comes of the `issued`-th frame on a connection that takes it; `none` when it is
swallowed. -/
def issue (frame : Text) (want : Int) (id issued : Nat) : Option (Except Exc Frame) :=
  if m.flush id issued = .osError then some (.error .osError)
  else if want < 0 then some (.error .value)
  else match m.reply id issued with
    | .bytes stream =>
      match parseFrame true ((List.range want.toNat).map stream) with
      | .ok f => some (.ok f)
      | .error e => some (.error (.protocol e))
    | .timeout => none
    | .eof got => some (.error (.shortRead frame got))
    | .osError => some (.error .osError)

/-- What `_exchange` returns or raises, with so many tries left, and how many frames have then
been issued on the connection. -/
def converse (cfg : ClientConfig) (frame : Text) (want : Int) (id issued : Nat) :
    Nat → Except Exc Frame × Nat
  | 0 => ((m.issue frame want id issued).getD (.error (.noReply frame (cfg.maxRetries + 1))),
      issued + 1)
  | left + 1 =>
    match m.issue frame want id issued with
    | some result => (result, issued + 1)
    | none => converse cfg frame want id (issued + 1) left

theorem issue_ok {frame : Text} {want : Int} {id issued : Nat} {f : Frame}
    (h : m.issue frame want id issued = some (.ok f)) :
    0 ≤ want ∧ ∃ stream, m.reply id issued = .bytes stream ∧
      parseFrame true ((List.range want.toNat).map stream) = .ok f := by
  unfold issue at h
  split at h
  · cases h
  · split at h
    · cases h
    · rename_i nonneg
      refine ⟨not_lt.mp nonneg, ?_⟩
      split at h
      · rename_i stream reading
        cases parsed : parseFrame true ((List.range want.toNat).map stream) with
        | ok g =>
          simp only [parsed, Option.some.injEq, Except.ok.injEq] at h
          exact ⟨stream, reading, h ▸ parsed⟩
        | error e => simp [parsed] at h
      · cases h
      · cases h
      · cases h

theorem issue_error {frame : Text} {want : Int} {id issued : Nat} {e : Exc}
    (reads : 0 ≤ want ∨ m.flush id issued = .osError)
    (h : m.issue frame want id issued = some (.error e)) : e.caught = true := by
  unfold issue at h
  split at h
  · cases h; rfl
  · rename_i flushed
    split at h
    · rename_i negative
      exact absurd negative (not_lt.mpr (reads.resolve_right flushed))
    · split at h
      · split at h
        · cases h
        · cases h; rfl
      · cases h
      · cases h; rfl
      · cases h; rfl

/-- What comes of a frame that is taken, when the length of its reply can be read. -/
inductive Issued (frame : Text) (want : Int) (id k : Nat) : Option (Except Exc Frame) → Prop where
  | undrained (flushed : m.flush id k = .osError) : Issued frame want id k (some (.error .osError))
  | replied {stream : Nat → Char} {f : Frame} (flushed : m.flush id k = .done)
      (reply : m.reply id k = .bytes stream)
      (parsed : parseFrame true ((List.range want.toNat).map stream) = .ok f) :
      Issued frame want id k (some (.ok f))
  | unparsable {stream : Nat → Char} {e : ProtocolError} (flushed : m.flush id k = .done)
      (reply : m.reply id k = .bytes stream)
      (parsed : parseFrame true ((List.range want.toNat).map stream) = .error e) :
      Issued frame want id k (some (.error (.protocol e)))
  | swallowed (flushed : m.flush id k = .done) (reply : m.reply id k = .timeout) :
      Issued frame want id k none
  | ended {got : Text} (flushed : m.flush id k = .done) (reply : m.reply id k = .eof got) :
      Issued frame want id k (some (.error (.shortRead frame got)))
  | broken (flushed : m.flush id k = .done) (reply : m.reply id k = .osError) :
      Issued frame want id k (some (.error .osError))

-- The frame that ends an exchange with an OS error, and the one that ends it with a reply.
def Breaks (id k : Nat) : Prop :=
  m.flush id k = .osError ∨ m.flush id k = .done ∧ m.reply id k = .osError

def Replies (want : Int) (id k : Nat) : Prop :=
  m.flush id k = .done ∧ ∃ stream f, m.reply id k = .bytes stream ∧
    parseFrame true ((List.range want.toNat).map stream) = .ok f

section
variable {want : Int} {id issued : Nat} (takes : m.flush id issued ≠ .never) (nonneg : 0 ≤ want)
include takes nonneg

theorem issue_issued (frame : Text) :
    m.Issued frame want id issued (m.issue frame want id issued) := by
  unfold issue
  rw [if_neg (not_lt.mpr nonneg)]
  cases flushed : m.flush id issued with
  | osError => exact .undrained flushed
  | never => exact absurd flushed takes
  | done =>
    rw [if_neg (by simp)]
    cases reply : m.reply id issued with
    | timeout => exact .swallowed flushed reply
    | eof got => exact .ended flushed reply
    | osError => exact .broken flushed reply
    | bytes stream =>
      cases parsed : parseFrame true ((List.range want.toNat).map stream) with
      | ok f => simpa only [parsed] using .replied flushed reply parsed
      | error e => simpa only [parsed] using .unparsable flushed reply parsed

theorem issue_swallowed (frame : Text) :
    m.issue frame want id issued = none ↔ m.Swallows id issued := by
  have outcome := m.issue_issued takes nonneg frame
  generalize m.issue frame want id issued = result at outcome
  cases outcome <;> simp [Swallows, *]

theorem issue_osError (frame : Text) :
    m.issue frame want id issued = some (.error .osError) ↔ m.Breaks id issued := by
  have outcome := m.issue_issued takes nonneg frame
  generalize m.issue frame want id issued = result at outcome
  cases outcome <;> simp [Breaks, *]

theorem issue_replies (frame : Text) :
    (∃ f, m.issue frame want id issued = some (.ok f)) ↔ m.Replies want id issued := by
  have outcome := m.issue_issued takes nonneg frame
  generalize m.issue frame want id issued = result at outcome
  cases outcome <;> simp [Replies, *]

end

variable {cfg : ClientConfig} {frame : Text} {want : Int} {id issued left : Nat}

theorem converse_ok {f : Frame} (h : (m.converse cfg frame want id issued left).1 = .ok f) :
    0 ≤ want ∧ ∃ k stream, m.reply id k = .bytes stream ∧
      parseFrame true ((List.range want.toNat).map stream) = .ok f := by
  induction left generalizing issued with
  | zero =>
    cases hi : m.issue frame want id issued with
    | none => simp [converse, hi] at h
    | some result =>
      simp only [converse, hi, Option.getD_some] at h
      obtain ⟨nonneg, stream, reading, parsed⟩ := issue_ok m (h ▸ hi)
      exact ⟨nonneg, issued, stream, reading, parsed⟩
  | succ left ih =>
    cases hi : m.issue frame want id issued with
    | none => simp only [converse, hi] at h; exact ih h
    | some result =>
      simp only [converse, hi] at h
      obtain ⟨nonneg, stream, reading, parsed⟩ := issue_ok m (h ▸ hi)
      exact ⟨nonneg, issued, stream, reading, parsed⟩

theorem converse_error {e : Exc} (reads : 0 ≤ want ∨ ∀ id k, m.flush id k = .osError)
    (h : (m.converse cfg frame want id issued left).1 = .error e) : e.caught = true := by
  have reads' : ∀ k, 0 ≤ want ∨ m.flush id k = .osError :=
    fun k => reads.imp_right fun all => all id k
  induction left generalizing issued with
  | zero =>
    cases hi : m.issue frame want id issued with
    | none => simp only [converse, hi, Option.getD_none] at h; cases h; rfl
    | some result =>
      simp only [converse, hi, Option.getD_some] at h
      exact issue_error m (reads' issued) (h ▸ hi)
  | succ left ih =>
    cases hi : m.issue frame want id issued with
    | none => simp only [converse, hi] at h; exact ih h
    | some result =>
      simp only [converse, hi] at h
      exact issue_error m (reads' issued) (h ▸ hi)

/-- Of so many tries and one more, the first frame that is not swallowed has a property. -/
def Heard (P : Nat → Prop) (id issued left : Nat) : Prop :=
  ∃ k ≤ left, (∀ j < k, m.Swallows id (issued + j)) ∧ P (issued + k)

theorem heard_zero {P : Nat → Prop} : m.Heard P id issued 0 ↔ P issued := by
  constructor
  · rintro ⟨k, le, _, here⟩
    obtain rfl := Nat.le_zero.mp le
    exact here
  · exact fun here => ⟨0, Nat.le_refl 0, by simp, here⟩

theorem heard_succ {P : Nat → Prop} : m.Heard P id issued (left + 1) ↔
    P issued ∨ m.Swallows id issued ∧ m.Heard P id (issued + 1) left := by
  constructor
  · rintro ⟨k, le, swallowed, here⟩
    cases k with
    | zero => exact Or.inl here
    | succ k =>
      refine Or.inr ⟨swallowed 0 (Nat.succ_pos k), k, by omega, fun j lt => ?_, ?_⟩
      · have := swallowed (j + 1) (by omega)
        rwa [show issued + (j + 1) = issued + 1 + j by omega] at this
      · rwa [show issued + (k + 1) = issued + 1 + k by omega] at here
  · rintro (here | ⟨first, k, le, swallowed, here⟩)
    · exact ⟨0, by omega, by simp, here⟩
    · refine ⟨k + 1, by omega, fun j lt => ?_, ?_⟩
      · cases j with
        | zero => exact first
        | succ j =>
          rw [show issued + (j + 1) = issued + 1 + j by omega]
          exact swallowed j (by omega)
      · rwa [show issued + (k + 1) = issued + 1 + k by omega]

/-- How an exchange ends is how the first frame does that is not swallowed. -/
theorem converse_heard {P : Nat → Prop} {Q : Except Exc Frame → Prop} (takes : m.Takes id)
    (nonneg : 0 ≤ want) (silent : ¬ Q (.error (.noReply frame (cfg.maxRetries + 1))))
    (each : ∀ k, (∃ result, m.issue frame want id k = some result ∧ Q result) ↔ P k) :
    Q (m.converse cfg frame want id issued left).1 ↔ m.Heard P id issued left := by
  induction left generalizing issued with
  | zero =>
    rw [heard_zero, ← each]
    cases hi : m.issue frame want id issued <;> simp [converse, hi, silent]
  | succ left ih =>
    rw [heard_succ, ← ih, ← each, ← issue_swallowed m (takes issued) nonneg frame]
    cases hi : m.issue frame want id issued <;> simp [converse, hi]

-- Does an OS error end an exchange? Does a reply?
def Cut (id issued left : Nat) : Prop := m.Heard (m.Breaks id) id issued left

def Answered (want : Int) (id issued left : Nat) : Prop :=
  m.Heard (m.Replies want id) id issued left

theorem converse_osError (takes : m.Takes id) (nonneg : 0 ≤ want) :
    (m.converse cfg frame want id issued left).1 = .error .osError ↔ m.Cut id issued left := by
  refine converse_heard (Q := (· = .error .osError)) m takes nonneg (by simp) fun k => ?_
  rw [← issue_osError m (takes k) nonneg frame]
  simp

theorem converse_answered (takes : m.Takes id) (nonneg : 0 ≤ want) :
    (∃ f, (m.converse cfg frame want id issued left).1 = .ok f) ↔
      m.Answered want id issued left := by
  refine converse_heard (Q := fun result => ∃ f, result = .ok f) m takes nonneg (by simp)
    fun k => ?_
  rw [← issue_replies m (takes k) nonneg frame]
  simp

/-- And it fails when there is none. -/
theorem converse_fails (takes : m.Takes id) (reads : 0 ≤ want ∨ ∀ id k, m.flush id k = .osError) :
    (∃ e, (m.converse cfg frame want id issued left).1 = .error e) ↔
      ¬ m.Answered want id issued left := by
  have answered : (∃ f, (m.converse cfg frame want id issued left).1 = .ok f) ↔
      m.Answered want id issued left := by
    by_cases nonneg : 0 ≤ want
    · exact converse_answered m takes nonneg
    · have broken := reads.resolve_left nonneg
      refine iff_of_false ?_ ?_
      · rintro ⟨f, replied⟩
        exact nonneg (m.converse_ok replied).1
      · rintro ⟨k, -, -, flushed, -⟩
        cases (broken id (issued + k)).symm.trans flushed
  rw [← answered]
  cases (m.converse cfg frame want id issued left).1 <;> simp

end Machine

namespace Client

variable {m : Machine} {cfg : ClientConfig}

def dialling (n : Nat) (r : Request) (backoff : ℚ) : Client :=
  ⟨none, n, .running { r with point := .opening backoff }⟩

def conversing (id issued n : Nat) (r : Request) (use : Use) (attempt : Nat) : Client :=
  ⟨some ⟨id, issued, false⟩, n, .running { r with point := .exchange use attempt .pace }⟩

def exchangeEnd (cfg : ClientConfig) (id issued n : Nat) (r : Request) (use : Use) :
    Except Exc Frame → Client
  | .ok f => ((⟨some ⟨id, issued, false⟩, n, .idle⟩ : Client).exchangeDone r use f).1
  | .error e => ((⟨some ⟨id, issued, false⟩, n, .idle⟩ : Client).exchangeFailed cfg r use e).1

variable {id issued n : Nat} {t : Task} {r : Request} {p : Point} {use : Use}

theorem exchangeDone_eq {f : Frame} :
    ((⟨some ⟨id, issued, false⟩, n, t⟩ : Client).exchangeDone { r with point := p } use f).1 =
      exchangeEnd cfg id issued n r use (.ok f) := by
  cases use with
  | main => rfl
  | warmUp backoff =>
    simp only [exchangeEnd, exchangeDone, beginExchange, frameOf]
    cases expectedResponseLen r.frame <;> rfl

theorem exchangeFailed_eq {e : Exc} :
    ((⟨some ⟨id, issued, false⟩, n, t⟩ : Client).exchangeFailed cfg { r with point := p } use
      e).1 = exchangeEnd cfg id issued n r use (.error e) := by
  cases use with
  | main =>
    simp only [exchangeEnd, exchangeFailed]
    split <;> rfl
  | warmUp backoff =>
    simp only [exchangeEnd, exchangeFailed]
    split
    · rfl
    · split
      · simp only [beginExchange, frameOf]
        cases expectedResponseLen r.frame <;> rfl
      · rfl

theorem frameOf_point (use : Use) (r : Request) (p : Point) :
    frameOf { r with point := p } use = frameOf r use := by
  cases use <;> rfl

def awaiting (id issued n : Nat) (r : Request) (use : Use) (attempt : Nat) (phase : Phase) :
    Client :=
  ⟨some ⟨id, issued + 1, false⟩, n, .running { r with point := .exchange use attempt phase }⟩

theorem tick_pace {attempt : Nat} (ascii : Python.isAscii (frameOf r use) = true) :
    m.tick cfg (conversing id issued n r use attempt) =
      some (awaiting id issued n r use attempt .drain) := by
  simp [Machine.tick, Machine.answer, conversing, awaiting, resume, resumeExchange, frameOf_point,
    ascii, suspend]

theorem tick_foreign {attempt : Nat} (foreign : Python.isAscii (frameOf r use) = false) :
    m.tick cfg (conversing id issued n r use attempt) =
      some ⟨some ⟨id, issued, false⟩, n, .ended r.frame (.error .value)⟩ := by
  simp [Machine.tick, Machine.answer, conversing, resume, resumeExchange, frameOf_point, foreign,
    finish]

/-- A frame that is not taken holds the request up for ever. -/
theorem tick_stalled {attempt : Nat} (stalled : m.flush id issued = .never) :
    m.tick cfg (awaiting id issued n r use attempt .drain) = none := by
  simp [Machine.tick, Machine.answer, awaiting, stalled, Drain.answer]

theorem tick_drain {want : Int} {attempt : Nat}
    (len : expectedResponseLen (frameOf r use) = .ok want) (takes : m.flush id issued ≠ .never) :
    m.tick cfg (awaiting id issued n r use attempt .drain) = some
      (if m.flush id issued = .osError then
        exchangeEnd cfg id (issued + 1) n r use (.error .osError)
      else if want < 0 then exchangeEnd cfg id (issued + 1) n r use (.error .value)
      else awaiting id issued n r use attempt .reply) := by
  cases flushed : m.flush id issued with
  | never => exact absurd flushed takes
  | osError =>
    simp [Machine.tick, Machine.answer, awaiting, flushed, Drain.answer, resume, resumeExchange,
      exchangeFailed_eq]
  | done =>
    have ended : exchangeEnd cfg id (issued + 1) n r use (.error .value) =
        (⟨some ⟨id, issued + 1, false⟩, n, .idle⟩ : Client).finish r (.error .value) := by
      cases use <;> rfl
    by_cases negative : want < 0
    · simp [Machine.tick, Machine.answer, awaiting, flushed, Drain.answer, resume, resumeExchange,
        frameOf_point, len, negative, ended, finish]
    · simp [Machine.tick, Machine.answer, awaiting, flushed, Drain.answer, resume, resumeExchange,
        frameOf_point, len, negative, suspend]

theorem tick_reply {want : Int} {attempt : Nat}
    (len : expectedResponseLen (frameOf r use) = .ok want) (nonneg : 0 ≤ want) :
    m.tick cfg (awaiting id issued n r use attempt .reply) = some
      (match m.reply id issued with
      | .bytes stream =>
        match parseFrame true ((List.range want.toNat).map stream) with
        | .ok f => exchangeEnd cfg id (issued + 1) n r use (.ok f)
        | .error e => exchangeEnd cfg id (issued + 1) n r use (.error (.protocol e))
      | .timeout =>
        if attempt < cfg.maxRetries then conversing id (issued + 1) n r use (attempt + 1)
        else exchangeEnd cfg id (issued + 1) n r use
          (.error (.noReply (frameOf r use) (cfg.maxRetries + 1)))
      | .eof got =>
        exchangeEnd cfg id (issued + 1) n r use (.error (.shortRead (frameOf r use) got))
      | .osError => exchangeEnd cfg id (issued + 1) n r use (.error .osError)) := by
  have length : wantOf (frameOf r use) = want.toNat := by simp [wantOf, len]
  cases reading : m.reply id issued with
  | bytes stream =>
    cases parsed : parseFrame true ((List.range want.toNat).map stream) with
    | ok f =>
      simp [Machine.tick, Machine.answer, awaiting, reading, Reading.answer, resume,
        resumeExchange, frameOf_point, length, len, nonneg, parsed]
      exact exchangeDone_eq
    | error e =>
      simp [Machine.tick, Machine.answer, awaiting, reading, Reading.answer, resume,
        resumeExchange, frameOf_point, length, len, nonneg, parsed, exchangeFailed_eq]
  | timeout =>
    by_cases again : attempt < cfg.maxRetries
    · simp [Machine.tick, Machine.answer, awaiting, reading, Reading.answer, resume,
        resumeExchange, again, suspend, conversing]
    · simp [Machine.tick, Machine.answer, awaiting, reading, Reading.answer, resume,
        resumeExchange, again, frameOf_point, exchangeFailed_eq]
  | eof got =>
    simp [Machine.tick, Machine.answer, awaiting, reading, Reading.answer, resume,
      resumeExchange, frameOf_point, exchangeFailed_eq]
  | osError =>
    simp [Machine.tick, Machine.answer, awaiting, reading, Reading.answer, resume,
      resumeExchange, exchangeFailed_eq]

theorem issue_reaches {want : Int} {attempt : Nat}
    (ascii : Python.isAscii (frameOf r use) = true)
    (len : expectedResponseLen (frameOf r use) = .ok want) (takes : m.flush id issued ≠ .never) :
    Reaches₁ (m.tick cfg) (conversing id issued n r use attempt)
      (match m.issue (frameOf r use) want id issued with
      | some result => exchangeEnd cfg id (issued + 1) n r use result
      | none =>
        if attempt < cfg.maxRetries then conversing id (issued + 1) n r use (attempt + 1)
        else exchangeEnd cfg id (issued + 1) n r use
          (.error (.noReply (frameOf r use) (cfg.maxRetries + 1)))) := by
  have drained : m.tick cfg (awaiting id issued n r use attempt .drain) = some _ :=
    tick_drain len takes
  refine Relation.TransGen.head (tick_pace ascii) ?_
  by_cases broken : m.flush id issued = .osError
  · rw [if_pos broken] at drained
    simp only [Machine.issue, if_pos broken]
    exact Relation.TransGen.single drained
  · rw [if_neg broken] at drained
    by_cases negative : want < 0
    · rw [if_pos negative] at drained
      simp only [Machine.issue, if_neg broken, if_pos negative]
      exact Relation.TransGen.single drained
    · rw [if_neg negative] at drained
      refine Relation.TransGen.head drained (Relation.TransGen.single ?_)
      have replied : m.tick cfg (awaiting id issued n r use attempt .reply) = some _ :=
        tick_reply len (not_lt.mp negative)
      rw [Option.mem_def, replied]
      simp only [Machine.issue, if_neg broken, if_neg negative]
      cases m.reply id issued with
      | bytes stream =>
        cases parsed : parseFrame true ((List.range want.toNat).map stream) <;> simp only [parsed]
      | timeout => rfl
      | eof got => rfl
      | osError => rfl

/-- An exchange ends on a connection that takes its frames: its tries are used up one by one. -/
theorem exchange_reaches {want : Int} (ascii : Python.isAscii (frameOf r use) = true)
    (len : expectedResponseLen (frameOf r use) = .ok want) (takes : m.Takes id)
    {attempt left : Nat} (tries : attempt + left = cfg.maxRetries) :
    Reaches₁ (m.tick cfg) (conversing id issued n r use attempt)
      (exchangeEnd cfg id (m.converse cfg (frameOf r use) want id issued left).2 n r use
        (m.converse cfg (frameOf r use) want id issued left).1) := by
  induction left generalizing issued attempt with
  | zero =>
    have issue : Reaches₁ (m.tick cfg) (conversing id issued n r use attempt) _ :=
      issue_reaches ascii len (takes issued)
    have last : ¬ attempt < cfg.maxRetries := by omega
    rw [if_neg last] at issue
    unfold Machine.converse
    cases hi : m.issue (frameOf r use) want id issued <;>
      · simp only [hi] at issue ⊢
        exact issue
  | succ left ih =>
    have issue : Reaches₁ (m.tick cfg) (conversing id issued n r use attempt) _ :=
      issue_reaches ascii len (takes issued)
    have more : attempt < cfg.maxRetries := by omega
    rw [if_pos more] at issue
    unfold Machine.converse
    cases hi : m.issue (frameOf r use) want id issued with
    | some result => simpa only [hi] using issue
    | none =>
      simp only [hi] at issue ⊢
      exact issue.trans (ih (by omega))

end Client

end R60V
