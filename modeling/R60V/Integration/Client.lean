import R60V.Bridge.Client
import R60V.Integration.Protocol

/-! The integration's client. Its `request` is a machine like the bridge's, suspended at its
`await`s and resumed by what the peer does; but it dials three times at most, and it drains what is
pending before it sends. Nobody else touches the link meanwhile. -/
namespace R60V.Integration

open Python (Text int)
open Protocol (Frame ProtocolError)

inductive ClientExc where
  | osError
  -- `TimeoutError`, of a connection attempt.
  | timeout
  | protocol (e : ProtocolError)
  | noGreeting
  | shortRead (frame got : Text)
  | noReply (frame : Text) (tries : Nat)
  | requestFailed (frame : Text) (last : ClientExc)
  | value
  | index
  deriving DecidableEq

namespace ClientExc

/-- Whether it is the client's own `R60VConnectionError`. -/
def isConnectionError : ClientExc → Bool
  | .noGreeting | .shortRead _ _ | .noReply _ _ | .requestFailed _ _ => true
  | .osError | .timeout | .protocol _ | .value | .index => false

/-- What `request` catches, of a connection attempt as of an exchange. -/
def caught : ClientExc → Bool
  | .osError | .timeout | .protocol _ => true
  | e => e.isConnectionError

/-- What `_warm_up` catches. -/
def warms : ClientExc → Bool
  | .protocol _ => true
  | e => e.isConnectionError

end ClientExc

def expectedResponseLen (request : Text) : Except ClientExc Int :=
  match request.head? with
  | none => .error .index
  | some command =>
    match int 16 (Protocol.slice request 5 9) with
    | none => .error .value
    | some length =>
      .ok (if command = Protocol.Command.read.char then 9 + length * 2 + 2
        else 9 + Protocol.ack.length + 2)

structure ClientConfig where
  warmup : Bool
  maxRetries : Nat

def ClientConfig.default : ClientConfig := ⟨true, 3⟩

/-- `self._reader` and `self._writer`: not set, set, or set with a transport that is closing. -/
inductive Link where
  | down | up | lost
  deriving DecidableEq

inductive Use where
  | warmUp | main
  deriving DecidableEq

inductive Phase where
  -- `_drain`, `_pace`, the `drain` of the writer, and the reply.
  | drain | pace | flush | reply
  deriving DecidableEq

inductive Point where
  | opening
  | greeting
  | exchange (use : Use) (attempt : Nat) (phase : Phase)
  -- The `wait_closed` of `_drop`, after this.
  | dropFailed (e : ClientExc)
  deriving DecidableEq

structure Request where
  frame : Text
  attempt : Nat
  point : Point
  deriving DecidableEq

inductive Task where
  | running (r : Request)
  | ended (result : Except ClientExc Frame)
  deriving DecidableEq

structure Client where
  link : Link
  -- The connection attempts of this request.
  dials : Nat
  task : Task

/-- What the peer does about an await; silence is a timeout. -/
inductive Answer where
  | done
  | opened
  | bytes (data : Text)
  | timeout
  | eof (got : Text)
  | osError
  deriving DecidableEq

def warmUpFrame : Text := Protocol.buildRead Protocol.settingsBase Protocol.settingsLen

def Request.frameOf (r : Request) : Use → Text
  | .warmUp => warmUpFrame
  | .main => r.frame

/-- `range(3)`. -/
def attempts : Nat := 3

def drainChunk : Nat := 1024

namespace Client

def suspend (c : Client) (r : Request) (p : Point) : Client :=
  { c with task := .running { r with point := p } }

def finish (c : Client) (result : Except ClientExc Frame) : Client :=
  { c with task := .ended result }

/-- The start of `_exchange`; it fails before anything is awaited where the length of the reply
cannot be read off the frame, and nothing catches that. -/
def beginExchange (c : Client) (r : Request) (use : Use) : Client :=
  match expectedResponseLen (r.frameOf use) with
  | .error e => c.finish (.error e)
  | .ok _ => c.suspend r (.exchange use 0 .drain)

/-- A turn of the loop. A link that is lost is let go without waiting for it. -/
def begin (c : Client) (r : Request) : Client :=
  if c.link = .up then c.beginExchange r .main
  else { c with link := .down, dials := c.dials + 1 }.suspend r .opening

/-- The next turn, or the error after the last one. -/
def nextAttempt (c : Client) (r : Request) (e : ClientExc) : Client :=
  if r.attempt + 1 < attempts then c.begin { r with attempt := r.attempt + 1 }
  else c.finish (.error (.requestFailed r.frame e))

/-- An exception that `request` catches: it drops the link, if there is one. -/
def failed (c : Client) (r : Request) (e : ClientExc) : Client :=
  if c.link = .down then c.nextAttempt r e
  else { c with link := .down }.suspend r (.dropFailed e)

/-- An exception leaves `_exchange`. -/
def raised (c : Client) (r : Request) (use : Use) (e : ClientExc) : Client :=
  if use = .warmUp ∧ e.warms then c.beginExchange r .main
  else if e.caught then c.failed r e
  else c.finish (.error e)

def exchangeDone (c : Client) (r : Request) (f : Frame) : Use → Client
  | .warmUp => c.beginExchange r .main
  | .main => c.finish (.ok f)

/-- A reply of the expected length has come. -/
def replied (c : Client) (r : Request) (use : Use) (data : Text) : Client :=
  match parseFrame true data with
  | .ok f => c.exchangeDone r f use
  | .error (.protocol e) => c.raised r use (.protocol e)
  | .error .value => c.raised r use .value

def resumeExchange (cfg : ClientConfig) (c : Client) (r : Request) (use : Use) (attempt : Nat) :
    Phase → Answer → Option Client
  | .drain, .bytes chunk =>
    if chunk ≠ [] ∧ chunk.length ≤ drainChunk then
      some (c.suspend r (.exchange use attempt .drain))
    else none
  | .drain, .timeout | .drain, .eof _ => some (c.suspend r (.exchange use attempt .pace))
  | .drain, .osError => some (c.raised r use .osError)
  | .pace, .done => some (c.suspend r (.exchange use attempt .flush))
  | .flush, .done =>
    match expectedResponseLen (r.frameOf use) with
    | .error e => some (c.raised r use e)
    | .ok want =>
      -- `readexactly` refuses a negative number.
      if want < 0 then some (c.raised r use .value)
      else some (c.suspend r (.exchange use attempt .reply))
  | .flush, .osError => some (c.raised r use .osError)
  | .reply, .bytes data =>
    if expectedResponseLen (r.frameOf use) = .ok (data.length : Int) then
      some (c.replied r use data)
    else none
  | .reply, .timeout =>
    if attempt < cfg.maxRetries then some (c.suspend r (.exchange use (attempt + 1) .drain))
    else some (c.raised r use (.noReply (r.frameOf use) (cfg.maxRetries + 1)))
  | .reply, .eof got => some (c.raised r use (.shortRead (r.frameOf use) got))
  | .reply, .osError => some (c.raised r use .osError)
  | _, _ => none

/-- Resuming a request; `none` when the answer does not fit what it awaits. A greeting that is not
the expected one is only logged. -/
def resume (cfg : ClientConfig) (c : Client) (r : Request) : Answer → Option Client := fun a =>
  match r.point, a with
  | .opening, .opened => some ({ c with link := .up }.suspend r .greeting)
  | .opening, .osError => some (c.failed r .osError)
  | .opening, .timeout => some (c.failed r .timeout)
  | .greeting, .bytes data =>
    if data.length = Protocol.hello.length then
      some (c.beginExchange r (if cfg.warmup then .warmUp else .main))
    else none
  | .greeting, .timeout | .greeting, .eof _ => some (c.failed r .noGreeting)
  | .greeting, .osError => some (c.failed r .osError)
  | .exchange use attempt phase, a => c.resumeExchange cfg r use attempt phase a
  | .dropFailed e, .done => some (c.nextAttempt r e)
  | _, _ => none

/-- `request`, under the lock, of a client that has this link. -/
def request (link : Link) (frame : Text) : Client :=
  let r : Request := ⟨frame, 0, .opening⟩
  Client.begin ⟨link, 0, .running r⟩ r

def step (cfg : ClientConfig) (c : Client) (a : Answer) : Option Client :=
  match c.task with
  | .running r => c.resume cfg r a
  -- What ends stays as it is.
  | .ended _ => some c

/-- The client after the first answers of a peer; it stays where an answer does not fit. -/
def after (cfg : ClientConfig) (c : Client) (peer : Nat → Answer) : Nat → Client
  | 0 => c
  | n + 1 => ((c.after cfg peer n).step cfg (peer n)).getD (c.after cfg peer n)

end Client

end R60V.Integration
