import R60V.Bridge.Framing
import Mathlib.Algebra.Order.Ring.Rat

/-! The persistent half-duplex client. One `request` at a time runs under the
lock; it is a machine that is suspended at the `await`s of the source and is
resumed by what the awaited operation answers. A sleep that is not due returns
at once, so `_pace` is always a suspension here; timeouts are answers, not clocks. -/
namespace R60V

open Python (Text int)
open Protocol (Frame ProtocolError parseFrame buildRead buildWrite)

/-- The exceptions that the client raises or lets through, with what their texts carry. -/
inductive Exc where
  | osError
  | protocol (e : ProtocolError)
  | shortRead (frame got : Text)
  | noReply (frame : Text) (tries : Nat)
  | requestFailed (frame : Text) (last : Exc)
  | assertion
  | attribute
  | value
  | index
  | overflow
  deriving DecidableEq

def Exc.isConnectionError : Exc → Bool
  | .shortRead _ _ | .noReply _ _ | .requestFailed _ _ => true
  | _ => false

def Exc.caught : Exc → Bool
  | .osError | .protocol _ => true
  | e => e.isConnectionError

def expectedResponseLen (request : Text) : Except Exc Int :=
  match request.head? with
  | none => .error .index
  | some command =>
    match int 16 (Protocol.slice request 5 9) with
    | none => .error .value
    | some length =>
      .ok (if command = Protocol.Command.read.char then 9 + length * 2 + 2
        else 9 + Protocol.ack.length + 2)

structure ClientConfig where
  backoffInitial : ℚ
  backoffMax : ℚ
  warmup : Bool
  maxRetries : Nat

def ClientConfig.default : ClientConfig := ⟨1, 30, true, 3⟩

/-- `self._reader` and `self._writer`, which are always set and cleared together. -/
structure Link where
  -- Which connection attempt opened it.
  id : Nat
  -- How many frames have been written on it.
  issued : Nat
  -- `writer.is_closing()`.
  closing : Bool
  deriving DecidableEq

/-- Who runs an exchange: the warm-up of a connect (which remembers the back-off of the
connect loop around it) or the request itself. -/
inductive Use where
  | warmUp (backoff : ℚ)
  | main
  deriving DecidableEq

inductive Phase where
  | pace | drain | reply
  deriving DecidableEq

inductive Point where
  | dropOld (backoff : ℚ)
  | opening (backoff : ℚ)
  | greeting (backoff : ℚ)
  | backingOff (backoff : ℚ)
  | exchange (use : Use) (attempt : Nat) (phase : Phase)
  | dropFailed (exc : Exc)
  deriving DecidableEq

structure Request where
  frame : Text
  attempt : Nat
  point : Point
  deriving DecidableEq

inductive Task where
  | idle
  | running (r : Request)
  | ended (frame : Text) (result : Except Exc Frame)

structure Client where
  link : Option Link
  -- How many connection attempts have been decided.
  opens : Nat
  task : Task

inductive Answer where
  | done
  | opened
  | bytes (data : Text)
  | timeout
  | eof (got : Text)
  | osError
  deriving DecidableEq

inductive Act where
  | dial (id : Nat)
  | send (id : Nat) (frame : Text)
  | hangUp (id : Nat)
  deriving DecidableEq

namespace Client

def fresh : Client := ⟨none, 0, .idle⟩

def connected (c : Client) : Bool := c.link.any (!·.closing)

def warmUpFrame : Text := buildRead Protocol.settingsBase Protocol.settingsLen

def frameOf (r : Request) : Use → Text
  | .warmUp _ => warmUpFrame
  | .main => r.frame

def suspend (c : Client) (r : Request) (p : Point) : Client :=
  { c with task := .running { r with point := p } }

def finish (c : Client) (r : Request) (result : Except Exc Frame) : Client :=
  { c with task := .ended r.frame result }

-- `_drop`: the flag says that there is a `wait_closed` to wait for.
def drop (c : Client) : Client × List Act × Bool :=
  match c.link with
  | none => (c, [], false)
  | some l =>
    if l.closing then ({ c with link := none }, [], false)
    else ({ c with link := none }, [.hangUp l.id], true)

def close (c : Client) : Client × List Act := (c.drop.1, c.drop.2.1)

/-- The start of `_exchange`. Its assertion and the length of the reply are evaluated before
anything is awaited; neither failure is caught anywhere in the client. -/
def beginExchange (c : Client) (r : Request) (use : Use) : Client × List Act :=
  match c.link with
  | none => (c.finish r (.error .assertion), [])
  | some _ =>
    match expectedResponseLen (frameOf r use) with
    | .error e => (c.finish r (.error e), [])
    | .ok _ => (c.suspend r (.exchange use 0 .pace), [])

def connect (c : Client) (r : Request) (backoff : ℚ) : Client × List Act :=
  let (c, acts, waits) := c.drop
  if waits then (c.suspend r (.dropOld backoff), acts)
  else (c.suspend r (.opening backoff), acts ++ [.dial c.opens])

def ensureConnected (cfg : ClientConfig) (c : Client) (r : Request) : Client × List Act :=
  if c.connected then c.beginExchange r .main else c.connect r cfg.backoffInitial

-- The next turn of `for attempt in range(2)`, or the error after the last one.
def nextAttempt (cfg : ClientConfig) (c : Client) (r : Request) (e : Exc) : Client × List Act :=
  if r.attempt = 0 then c.ensureConnected cfg { r with attempt := 1 }
  else (c.finish r (.error (.requestFailed r.frame e)), [])

/-- An exception leaves `_exchange`. The warm-up swallows the protocol's own, its connect loop
the rest of what it lists; the request drops the link. -/
def exchangeFailed (cfg : ClientConfig) (c : Client) (r : Request) (use : Use) (e : Exc) :
    Client × List Act :=
  match use with
  | .warmUp backoff =>
    if e = .osError then (c.suspend r (.backingOff backoff), [])
    else if e.caught then c.beginExchange r .main
    else (c.finish r (.error e), [])
  | .main =>
    if e.caught then
      let (c, acts, waits) := c.drop
      if waits then (c.suspend r (.dropFailed e), acts)
      else
        let (c, more) := c.nextAttempt cfg r e
        (c, acts ++ more)
    else (c.finish r (.error e), [])

def exchangeDone (c : Client) (r : Request) (use : Use) (f : Frame) : Client × List Act :=
  match use with
  | .warmUp _ => c.beginExchange r .main
  | .main => (c.finish r (.ok f), [])

def resumeExchange (cfg : ClientConfig) (c : Client) (r : Request) (use : Use) (attempt : Nat) :
    Phase → Answer → Option (Client × List Act)
  | .pace, .done =>
    match c.link with
    | none => some (c.finish r (.error .attribute), [])
    | some l =>
      -- `encode("ascii")` raises a `ValueError` of its own.
      if Python.isAscii (frameOf r use) then
        some ({ c with link := some { l with issued := l.issued + 1 } }.suspend r
          (.exchange use attempt .drain), [.send l.id (frameOf r use)])
      else some (c.finish r (.error .value), [])
  | .drain, .done =>
    match c.link, expectedResponseLen (frameOf r use) with
    | none, _ => some (c.finish r (.error .attribute), [])
    | _, .error e => some (c.finish r (.error e), [])
    | some _, .ok want =>
      if want < 0 then some (c.finish r (.error .value), [])
      else some (c.suspend r (.exchange use attempt .reply), [])
  | .drain, .osError => some (c.exchangeFailed cfg r use .osError)
  | .reply, .bytes data =>
    if expectedResponseLen (frameOf r use) = .ok (data.length : Int) then
      match parseFrame true data with
      | .ok f => some (c.exchangeDone r use f)
      | .error e => some (c.exchangeFailed cfg r use (.protocol e))
    else none
  | .reply, .timeout =>
    if attempt < cfg.maxRetries then
      some (c.suspend r (.exchange use (attempt + 1) .pace), [])
    else some (c.exchangeFailed cfg r use (.noReply (frameOf r use) (cfg.maxRetries + 1)))
  | .reply, .eof got => some (c.exchangeFailed cfg r use (.shortRead (frameOf r use) got))
  | .reply, .osError => some (c.exchangeFailed cfg r use .osError)
  | _, _ => none

/-- Resuming a request with the answer to what it awaits; `none` when the answer does not fit. -/
def resume (cfg : ClientConfig) (c : Client) (a : Answer) : Option (Client × List Act) :=
  match c.task with
  | .running r =>
    match r.point, a with
    | .dropOld backoff, .done => some (c.suspend r (.opening backoff), [.dial c.opens])
    | .opening backoff, .opened =>
      some ({ c with link := some ⟨c.opens, 0, false⟩, opens := c.opens + 1 }.suspend r
        (.greeting backoff), [])
    | .opening backoff, .osError | .opening backoff, .timeout =>
      some ({ c with opens := c.opens + 1 }.suspend r (.backingOff backoff), [])
    | .greeting backoff, .bytes data =>
      if data.length = Protocol.hello.length then
        some (c.beginExchange r (if cfg.warmup then .warmUp backoff else .main))
      else none
    | .greeting backoff, .timeout | .greeting backoff, .eof _ | .greeting backoff, .osError =>
      some (c.suspend r (.backingOff backoff), [])
    | .backingOff backoff, .done => some (c.connect r (min (backoff * 2) cfg.backoffMax))
    | .exchange use attempt phase, a => c.resumeExchange cfg r use attempt phase a
    | .dropFailed e, .done => some (c.nextAttempt cfg r e)
    | _, _ => none
  | _ => none

def request (cfg : ClientConfig) (c : Client) (frame : Text) : Option (Client × List Act) :=
  match c.task with
  | .running _ => none
  | _ => some (c.ensureConnected cfg ⟨frame, 0, .opening cfg.backoffInitial⟩)

variable {cfg : ClientConfig} {c : Client} {r : Request} {a : Answer} {next : Client × List Act}

/-- What resuming an exchange can do, with the answer and the state of the link that lead there. -/
inductive Exchanges (cfg : ClientConfig) (c : Client) (r : Request) (use : Use) (attempt : Nat) :
    Phase → Answer → Client × List Act → Prop where
  | unlinked (gone : c.link = none) :
      Exchanges cfg c r use attempt .pace .done (c.finish r (.error .attribute), [])
  | unencoded {l : Link} (linked : c.link = some l)
      (foreign : Python.isAscii (frameOf r use) = false) :
      Exchanges cfg c r use attempt .pace .done (c.finish r (.error .value), [])
  | issued {l : Link} (linked : c.link = some l)
      (ascii : Python.isAscii (frameOf r use) = true) :
      Exchanges cfg c r use attempt .pace .done
        ({ c with link := some { l with issued := l.issued + 1 } }.suspend r
          (.exchange use attempt .drain), [.send l.id (frameOf r use)])
  | readerless (gone : c.link = none) :
      Exchanges cfg c r use attempt .drain .done (c.finish r (.error .attribute), [])
  | unreadable {l : Link} {e : Exc} (linked : c.link = some l)
      (len : expectedResponseLen (frameOf r use) = .error e) :
      Exchanges cfg c r use attempt .drain .done (c.finish r (.error e), [])
  | negative {l : Link} {want : Int} (linked : c.link = some l)
      (len : expectedResponseLen (frameOf r use) = .ok want) (less : want < 0) :
      Exchanges cfg c r use attempt .drain .done (c.finish r (.error .value), [])
  | drained {l : Link} {want : Int} (linked : c.link = some l)
      (len : expectedResponseLen (frameOf r use) = .ok want) (nonneg : ¬ want < 0) :
      Exchanges cfg c r use attempt .drain .done
        (c.suspend r (.exchange use attempt .reply), [])
  | undrained :
      Exchanges cfg c r use attempt .drain .osError (c.exchangeFailed cfg r use .osError)
  | replied {data : Text} {f : Frame}
      (whole : expectedResponseLen (frameOf r use) = .ok (data.length : Int))
      (parsed : parseFrame true data = .ok f) :
      Exchanges cfg c r use attempt .reply (.bytes data) (c.exchangeDone r use f)
  | garbled {data : Text} {e : ProtocolError}
      (whole : expectedResponseLen (frameOf r use) = .ok (data.length : Int))
      (parsed : parseFrame true data = .error e) :
      Exchanges cfg c r use attempt .reply (.bytes data) (c.exchangeFailed cfg r use (.protocol e))
  | swallowed (more : attempt < cfg.maxRetries) :
      Exchanges cfg c r use attempt .reply .timeout
        (c.suspend r (.exchange use (attempt + 1) .pace), [])
  | silent (last : ¬ attempt < cfg.maxRetries) :
      Exchanges cfg c r use attempt .reply .timeout
        (c.exchangeFailed cfg r use (.noReply (frameOf r use) (cfg.maxRetries + 1)))
  | short {got : Text} :
      Exchanges cfg c r use attempt .reply (.eof got)
        (c.exchangeFailed cfg r use (.shortRead (frameOf r use) got))
  | broken :
      Exchanges cfg c r use attempt .reply .osError (c.exchangeFailed cfg r use .osError)

theorem resumeExchange_exchanges {use : Use} {attempt : Nat} {phase : Phase}
    (h : c.resumeExchange cfg r use attempt phase a = some next) :
    Exchanges cfg c r use attempt phase a next := by
  unfold resumeExchange at h
  split at h
  · split at h
    · rename_i gone
      cases h; exact .unlinked gone
    · rename_i l linked
      split at h
      · cases h; exact .issued linked ‹_›
      · rename_i foreign
        cases h; exact .unencoded linked (Bool.not_eq_true _ ▸ foreign)
  · split at h
    · rename_i gone
      cases h; exact .readerless gone
    · rename_i link e len notNone
      cases h
      cases linked : c.link with
      | none => exact absurd linked notNone
      | some l => exact .unreadable linked len
    · rename_i l want linked len
      split at h
      · cases h; exact .negative linked len ‹_›
      · cases h; exact .drained linked len ‹_›
  · cases h; exact .undrained
  · split at h
    · rename_i whole
      split at h
      · cases h; exact .replied whole ‹_›
      · cases h; exact .garbled whole ‹_›
    · cases h
  · split at h
    · cases h; exact .swallowed ‹_›
    · cases h; exact .silent ‹_›
  · cases h; exact .short
  · cases h; exact .broken
  · cases h

/-- What resuming a request can do. -/
inductive Resumes (cfg : ClientConfig) (c : Client) (r : Request) :
    Answer → Client × List Act → Prop where
  | dropped {backoff : ℚ} (here : r.point = .dropOld backoff) :
      Resumes cfg c r .done (c.suspend r (.opening backoff), [.dial c.opens])
  | opened {backoff : ℚ} (here : r.point = .opening backoff) :
      Resumes cfg c r .opened
        ({ c with link := some ⟨c.opens, 0, false⟩, opens := c.opens + 1 }.suspend r
          (.greeting backoff), [])
  | refused {backoff : ℚ} {a : Answer} (here : r.point = .opening backoff)
      (failed : a = .osError ∨ a = .timeout) :
      Resumes cfg c r a ({ c with opens := c.opens + 1 }.suspend r (.backingOff backoff), [])
  | greeted {backoff : ℚ} {data : Text} (here : r.point = .greeting backoff)
      (whole : data.length = Protocol.hello.length) :
      Resumes cfg c r (.bytes data)
        (c.beginExchange r (if cfg.warmup then .warmUp backoff else .main))
  | ungreeted {backoff : ℚ} {a : Answer} (here : r.point = .greeting backoff)
      (failed : a = .timeout ∨ (∃ got, a = .eof got) ∨ a = .osError) :
      Resumes cfg c r a (c.suspend r (.backingOff backoff), [])
  | retried {backoff : ℚ} (here : r.point = .backingOff backoff) :
      Resumes cfg c r .done (c.connect r (min (backoff * 2) cfg.backoffMax))
  | exchanged {use : Use} {attempt : Nat} {phase : Phase} {a : Answer} {next : Client × List Act}
      (here : r.point = .exchange use attempt phase)
      (exchanges : Exchanges cfg c r use attempt phase a next) : Resumes cfg c r a next
  | redone {e : Exc} (here : r.point = .dropFailed e) :
      Resumes cfg c r .done (c.nextAttempt cfg r e)

theorem resume_resumes (running : c.task = .running r) (h : c.resume cfg a = some next) :
    Resumes cfg c r a next := by
  simp only [resume, running] at h
  split at h
  · cases h; exact .dropped ‹_›
  · cases h; exact .opened ‹_›
  · cases h; exact .refused ‹_› (Or.inl rfl)
  · cases h; exact .refused ‹_› (Or.inr rfl)
  · split at h
    · cases h; exact .greeted ‹_› ‹_›
    · cases h
  · cases h; exact .ungreeted ‹_› (Or.inl rfl)
  · cases h; exact .ungreeted ‹_› (Or.inr (Or.inl ⟨_, rfl⟩))
  · cases h; exact .ungreeted ‹_› (Or.inr (Or.inr rfl))
  · cases h; exact .retried ‹_›
  · exact .exchanged ‹_› (resumeExchange_exchanges h)
  · cases h; exact .redone ‹_›
  · cases h

theorem warmUp_ascii : Python.isAscii warmUpFrame = true := Protocol.isAscii_buildFrame _ _ _ _

theorem frameOf_ascii (ascii : Python.isAscii r.frame = true) (use : Use) :
    Python.isAscii (frameOf r use) = true := by
  cases use with
  | main => exact ascii
  | warmUp backoff => exact warmUp_ascii

theorem resume_running (h : c.resume cfg a = some next) : ∃ r, c.task = .running r := by
  unfold resume at h
  split at h
  · exact ⟨_, by assumption⟩
  · cases h

end Client

inductive Call where
  | read (address length : Int)
  | write (address : Int) (data : List Int)
  deriving DecidableEq

def Call.frame : Call → Text
  | .read address length => buildRead address length
  | .write address data => buildWrite address data

theorem Call.isAscii_frame (op : Call) : Python.isAscii op.frame = true := by
  cases op <;> exact Protocol.isAscii_buildFrame _ _ _ _

theorem expectedResponseLen_frame (command : Protocol.Command) {address length : Int}
    (ha : Protocol.Word address) (hl : Protocol.Word length) (data : List Int) :
    expectedResponseLen (Protocol.buildFrame command address length data) =
      .ok (if command = .read then 9 + length * 2 + 2 else 13) := by
  have fields := Protocol.slice_fields command ha hl (Protocol.encodeData data ++
    Protocol.checksum (Protocol.buildEnvelope command address length ++ Protocol.encodeData data))
  rw [← List.append_assoc] at fields
  have value := Protocol.int_field hl
  simp only [expectedResponseLen, Protocol.buildFrame, List.append_assoc, Protocol.head_envelope]
  rw [← List.append_assoc, fields.2, value]
  cases command <;> simp [Protocol.Command.char, Protocol.ack]

end R60V
