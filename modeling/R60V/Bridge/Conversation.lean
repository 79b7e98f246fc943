import R60V.Bridge.Broker
import R60V.Lib.Runs

/-! The client in conversation with a machine that answers correctly but in its own time. A reply
is taken for the answer to whatever is asked when it is read, so what a call returns is its own
only as long as no reply outlives the exchange that asked for it. -/
namespace R60V

open Python (Text)
open Protocol (parseFrame Frame Word Byte)

/-- The correct reply of the machine to a request, with the bytes that a read is answered with. -/
def Call.reply : Call → List Int → Option Text
  | .read address length, data =>
    if Word address ∧ Word length ∧ data.length = length ∧ ∀ b ∈ data, Byte b then
      some (Protocol.buildFrame .read address length data)
    else none
  | .write address data, _ =>
    if Word address ∧ Word data.length then some (Protocol.buildAck .write address data.length)
    else none

namespace Call

def Fits (f : Frame) : Call → Prop
  | .read _ length => (f.data.length : Int) = length
  | .write _ _ => f.isAck = true

theorem reply_length {op : Call} {data : List Int} {text : Text} (h : op.reply data = some text) :
    expectedResponseLen op.frame = .ok (text.length : Int) := by
  cases op with
  | read address length =>
    obtain ⟨⟨ha, hl, size, bytes⟩, same⟩ := Option.ite_none_right_eq_some.mp h
    cases same
    have nine := Protocol.length_buildEnvelope .read ha hl
    have payload := Protocol.length_encodeData bytes
    have want := expectedResponseLen_frame .read ha hl []
    simp only [if_true] at want
    rw [Call.frame, Protocol.buildRead, want]
    simp only [Protocol.buildFrame, List.length_append, Protocol.length_checksum, nine, payload,
      Except.ok.injEq]
    omega
  | write address bytes =>
    obtain ⟨⟨ha, hl⟩, same⟩ := Option.ite_none_right_eq_some.mp h
    cases same
    have nine := Protocol.length_buildEnvelope .write ha hl
    have want := expectedResponseLen_frame .write ha hl bytes
    rw [Call.frame, Protocol.buildWrite, want]
    simp [Protocol.buildAck, nine, Protocol.ack]

theorem reply_parsed {op : Call} {data : List Int} {text : Text} (h : op.reply data = some text)
    {f : Frame} (parsed : parseFrame true text = .ok f) :
    f.raw = text ∧ f.envelope = op.frame.take 9 ∧ op.Fits f := by
  cases op with
  | read address length =>
    obtain ⟨⟨ha, hl, size, bytes⟩, same⟩ := Option.ite_none_right_eq_some.mp h
    cases same
    obtain ⟨g, reads, -, -, -, carries, raw⟩ :=
      Protocol.parseFrame_buildFrame .read ha hl true bytes
    rw [parsed] at reads
    cases reads
    have nine := Protocol.length_buildEnvelope .read ha hl
    refine ⟨raw, ?_, by rw [Fits, carries, size]⟩
    simp only [Frame.envelope, raw, Call.frame, Protocol.buildRead, Protocol.buildFrame,
      List.append_assoc, List.take_left' nine]
  | write address bytes =>
    obtain ⟨⟨ha, hl⟩, same⟩ := Option.ite_none_right_eq_some.mp h
    cases same
    obtain ⟨g, reads, -, -, -, -, raw⟩ := Protocol.parseFrame_buildAck .write ha hl true
    rw [parsed] at reads
    cases reads
    have nine := Protocol.length_buildEnvelope .write ha hl
    refine ⟨raw, ?_, ?_⟩
    · simp only [Frame.envelope, raw, Call.frame, Protocol.buildWrite, Protocol.buildFrame,
        Protocol.buildAck, List.append_assoc, List.take_left' nine]
    · simp [Fits, Frame.isAck, raw, Protocol.buildAck, List.append_assoc, List.drop_left' nine,
        Protocol.ack]

end Call

def Use.call (op : Call) : Use → Call
  | .warmUp _ => settingsCall
  | .main => op

structure Issue where
  call : Nat
  exchange : Nat
  op : Call
  deriving DecidableEq

structure Conversation where
  client : Client
  -- How many calls have been made.
  call : Nat
  -- The last of them; a placeholder before the first.
  op : Call
  -- How many exchanges have issued a frame.
  exchange : Nat
  -- The frames that the machine has not answered, nor passed over, on this connection.
  issues : List Issue
  -- What the machine has sent and the client's end has not received.
  wire : Text
  -- What has been received and not read.
  buffer : Text
  -- Every reply generated so far.
  answered : List (Issue × Text)

inductive Turn where
  | call (op : Call)
  | resume (a : Answer)
  -- The machine passes over some frames and answers the next one.
  | answer (skipped : Nat) (data : List Int)
  | arrive (length : Nat)

namespace Client

def Between (frame : Text) (c : Client) : Prop :=
  (∃ r, c.task = .running r ∧ r.frame = frame ∧
    ∀ use attempt phase, r.point = .exchange use attempt phase → attempt = 0 ∧ phase = .pace) ∨
  ∃ e, c.task = .ended frame (.error e)

variable (cfg : ClientConfig) (c : Client) (r : Request)

theorem beginExchange_between (use : Use) : (c.beginExchange r use).1.Between r.frame := by
  unfold beginExchange
  split
  · exact Or.inr ⟨_, rfl⟩
  · split
    · exact Or.inr ⟨_, rfl⟩
    · refine Or.inl ⟨_, rfl, rfl, fun use attempt phase same => ?_⟩
      cases same
      exact ⟨rfl, rfl⟩

theorem suspend_between {p : Point}
    (outside : ∀ use attempt phase, p ≠ .exchange use attempt phase) :
    (c.suspend r p).Between r.frame :=
  Or.inl ⟨_, rfl, rfl, fun use attempt phase same => absurd same (outside use attempt phase)⟩

theorem connect_between (backoff : ℚ) : (c.connect r backoff).1.Between r.frame := by
  unfold connect
  dsimp only
  split <;> exact suspend_between _ r (by simp)

theorem ensureConnected_between : (c.ensureConnected cfg r).1.Between r.frame := by
  unfold ensureConnected
  split
  · exact beginExchange_between c r .main
  · exact connect_between c r cfg.backoffInitial

theorem nextAttempt_between (e : Exc) : (c.nextAttempt cfg r e).1.Between r.frame := by
  unfold nextAttempt
  split
  · exact ensureConnected_between cfg c { r with attempt := 1 }
  · exact Or.inr ⟨_, rfl⟩

theorem exchangeFailed_between (use : Use) (e : Exc) :
    (c.exchangeFailed cfg r use e).1.Between r.frame := by
  cases use with
  | warmUp backoff =>
    simp only [exchangeFailed]
    split
    · exact suspend_between c r (by simp)
    · split
      · exact beginExchange_between c r .main
      · exact Or.inr ⟨_, rfl⟩
  | main =>
    simp only [exchangeFailed]
    split
    · split
      · exact suspend_between _ r (by simp)
      · exact nextAttempt_between cfg _ r e
    · exact Or.inr ⟨_, rfl⟩

variable {cfg c r}

/-- Inside an exchange a resumption goes on with the same exchange, or returns the reply that it
is resumed with; everything else leaves the client between exchanges. -/
inductive Resumed (r : Request) : Answer → Client → Prop where
  | goesOn {use : Use} {attempt attempt' : Nat} {phase phase' : Phase} {a : Answer} {c : Client} :
      r.point = .exchange use attempt phase → a = .done ∨ a = .timeout →
      c.task = .running { r with point := .exchange use attempt' phase' } → Resumed r a c
  | returns {attempt : Nat} {data : Text} {f : Frame} {c : Client} :
      r.point = .exchange .main attempt .reply →
      expectedResponseLen r.frame = .ok (data.length : Int) → parseFrame true data = .ok f →
      c.task = .ended r.frame (.ok f) → Resumed r (.bytes data) c
  | between {a : Answer} {c : Client} : c.Between r.frame → Resumed r a c

theorem exchanges_resumed {use : Use} {attempt : Nat} {phase : Phase} {a : Answer}
    {next : Client × List Act} (here : r.point = .exchange use attempt phase)
    (h : Exchanges cfg c r use attempt phase a next) : Resumed r a next.1 := by
  cases h with
  | unlinked _ | unencoded _ _ | readerless _ | unreadable _ _ | negative _ _ _ =>
    exact .between (Or.inr ⟨_, rfl⟩)
  | issued _ _ | drained _ _ _ => exact .goesOn here (Or.inl rfl) rfl
  | swallowed _ => exact .goesOn here (Or.inr rfl) rfl
  | replied whole parsed =>
    cases use with
    | warmUp backoff => exact .between (beginExchange_between c r .main)
    | main => exact .returns here whole parsed rfl
  | undrained | garbled _ _ | silent _ | short | broken =>
    exact .between (exchangeFailed_between cfg c r use _)

theorem resume_resumed {a : Answer} {next : Client × List Act}
    (run : c.task = .running r) (h : c.resume cfg a = some next) : Resumed r a next.1 := by
  cases resume_resumes run h with
  | dropped _ | ungreeted _ _ => exact .between (suspend_between c r (by simp))
  | opened _ | refused _ _ => exact .between (suspend_between _ r (by simp))
  | greeted _ _ => exact .between (beginExchange_between c r _)
  | retried _ => exact .between (connect_between c r _)
  | exchanged here exchanges => exact exchanges_resumed here exchanges
  | redone _ => exact .between (nextAttempt_between cfg c r _)

theorem Between.frame {frame : Text} (between : c.Between frame) (running : c.task = .running r) :
    r.frame = frame ∧
      ∀ use attempt phase, r.point = .exchange use attempt phase → phase = .pace := by
  rcases between with ⟨r', same, frame, point⟩ | ⟨e, same⟩
  · rw [running] at same
    cases same
    exact ⟨frame, fun use attempt phase at_ => (point use attempt phase at_).2⟩
  · rw [running] at same
    cases same

theorem request_between {frame : Text} (h : c.request cfg frame = some next) :
    next.1.Between frame := by
  unfold request at h
  split at h
  · cases h
  · cases h
    exact ensureConnected_between cfg c _

theorem resume_frame (running : c.task = .running r) (h : c.resume cfg a = some next)
    (goesOn : next.1.task = .running r') : r'.frame = r.frame := by
  cases resume_resumed running h with
  | goesOn _ _ same =>
    rw [goesOn] at same
    cases same
    rfl
  | returns _ _ _ ended =>
    rw [goesOn] at ended
    cases ended
  | between between => exact (between.frame goesOn).1

end Client

namespace Conversation

def start : Conversation := ⟨.fresh, 0, settingsCall, 0, [], [], [], []⟩

/-- What stays in the stream reader once an awaited operation has answered. A read that times
out leaves what it has seen. -/
def unread (s : Conversation) : Answer → Option Text
  | .bytes data =>
    if s.buffer.take data.length = data then some (s.buffer.drop data.length) else none
  | .eof got => if got = s.buffer then some [] else none
  | _ => some s.buffer

-- The request whose frame the next resumption issues, and whether an exchange begins so.
def pacing (s : Conversation) : Option (Call × Bool) :=
  match s.client.task with
  | .running ⟨_, _, .exchange use attempt .pace⟩ => some (use.call s.op, attempt == 0)
  | _ => none

def issue (s : Conversation) : Conversation :=
  match s.pacing with
  | some (op, begins) =>
    let exchange := if begins then s.exchange + 1 else s.exchange
    { s with exchange := exchange, issues := s.issues ++ [⟨s.call, exchange, op⟩] }
  | none => s

def greet (s : Conversation) : Conversation :=
  { s with issues := [], wire := Protocol.hello, buffer := [] }

def step (cfg : ClientConfig) (s : Conversation) : Turn → Option (Conversation × List Act)
  | .call op =>
    (s.client.request cfg op.frame).map fun (client, acts) =>
      ({ s with client := client, call := s.call + 1, op := op }, acts)
  | .resume a =>
    match s.client.resume cfg a, s.unread a with
    | some (client, acts), some buffer =>
      if a = .opened then some ({ s.greet with client := client }, acts)
      else some ({ s.issue with client := client, buffer := buffer }, acts)
    | _, _ => none
  | .answer skipped data =>
    match s.issues[skipped]? with
    | some i =>
      (i.op.reply data).map fun text =>
        ({ s with
          issues := s.issues.drop (skipped + 1)
          wire := s.wire ++ text
          answered := (i, text) :: s.answered }, [])
    | none => none
  | .arrive length =>
    some ({ s with wire := s.wire.drop length, buffer := s.buffer ++ s.wire.take length }, [])

/-- What a call has returned is a reply to a frame of its own, issued during the call. -/
def Genuine (s : Conversation) : Prop :=
  ∀ frame f, s.client.task = .ended frame (.ok f) →
    frame = s.op.frame ∧ (∃ i, (i, f.raw) ∈ s.answered ∧ i.call = s.call ∧ i.op = s.op) ∧
    f.envelope = frame.take 9 ∧ s.op.Fits f

/-- The machine answers a frame before the next exchange begins, and one begins with nothing
left to read. -/
def Prompt (s : Conversation) : Turn → Prop
  | .answer skipped _ => ∀ i ∈ s.issues[skipped]?, i.exchange = s.exchange
  | .resume _ => s.pacing.any (·.2) = true → s.wire = [] ∧ s.buffer = []
  | .call _ | .arrive _ => True

instance (s : Conversation) (e : Turn) : Decidable (Prompt s e) := by
  cases e <;> simp only [Prompt] <;> infer_instance

/-- Everything that can still be read, and everything that can still be answered in the exchange
in progress, belongs to one request of the current call. -/
structure Own (s : Conversation) (op : Call) : Prop where
  unread : ∃ replies : List Text, s.buffer ++ s.wire = replies.flatten ∧
    ∀ text ∈ replies, ∃ i data, (i, text) ∈ s.answered ∧ i.call = s.call ∧ i.op = op ∧
      op.reply data = some text
  issues : ∀ i ∈ s.issues, i.exchange = s.exchange → i.call = s.call ∧ i.op = op

structure Inv (s : Conversation) : Prop where
  named : ∀ r, s.client.task = .running r → r.frame = s.op.frame
  issued : ∀ i ∈ s.issues, i.exchange ≤ s.exchange
  own : ∀ r use attempt phase, s.client.task = .running r → r.point = .exchange use attempt phase →
    attempt ≠ 0 ∨ phase ≠ .pace → Own s (use.call s.op)
  genuine : s.Genuine

variable {cfg : ClientConfig} {s t : Conversation} {acts : List Act}

theorem Inv.of_between (between : s.client.Between s.op.frame)
    (issued : ∀ i ∈ s.issues, i.exchange ≤ s.exchange) : Inv s := by
  rcases between with ⟨r, run, named, outside⟩ | ⟨e, failed⟩
  · refine ⟨?_, issued, ?_, ?_⟩
    · intro r' run'
      cases run.symm.trans run'
      exact named
    · intro r' use attempt phase run' here begun
      cases run.symm.trans run'
      obtain ⟨rfl, rfl⟩ := outside use attempt phase here
      simp at begun
    · intro frame f ended
      cases run.symm.trans ended
  · refine ⟨?_, issued, ?_, ?_⟩
    · intro r run
      cases failed.symm.trans run
    · intro r use attempt phase run
      cases failed.symm.trans run
    · intro frame f ended
      cases failed.symm.trans ended

theorem start_inv : Inv start :=
  ⟨by simp [start, Client.fresh], by simp [start], by simp [start, Client.fresh],
    by simp [Genuine, start, Client.fresh]⟩

theorem call_inv {op : Call} (inv : Inv s) (h : step cfg s (.call op) = some (t, acts)) :
    Inv t := by
  obtain ⟨⟨client, acts'⟩, begun, same⟩ := Option.map_eq_some_iff.mp h
  cases same
  refine .of_between ?_ inv.issued
  unfold Client.request at begun
  split at begun
  · cases begun
  · have between := Client.ensureConnected_between cfg s.client
      ⟨op.frame, 0, .opening cfg.backoffInitial⟩
    rw [Option.some.inj begun] at between
    exact between

theorem arrive_inv {length : Nat} (inv : Inv s) (h : step cfg s (.arrive length) = some (t, acts)) :
    Inv t := by
  cases h
  refine ⟨inv.named, inv.issued, fun r use attempt phase run here begun => ?_, inv.genuine⟩
  obtain ⟨⟨replies, unread, own⟩, issues⟩ := inv.own r use attempt phase run here begun
  refine ⟨⟨replies, ?_, own⟩, issues⟩
  rw [← unread, List.append_assoc, List.take_append_drop]

theorem answer_inv {skipped : Nat} {data : List Int} (inv : Inv s)
    (prompt : Prompt s (.answer skipped data))
    (h : step cfg s (.answer skipped data) = some (t, acts)) : Inv t := by
  simp only [step] at h
  split at h
  · rename_i i answers
    obtain ⟨text, correct, same⟩ := Option.map_eq_some_iff.mp h
    cases same
    have kept : ∀ j ∈ s.issues.drop (skipped + 1), j ∈ s.issues := fun j => List.mem_of_mem_drop
    refine ⟨inv.named, fun j hj => inv.issued j (kept j hj),
      fun r use attempt phase run here begun => ?_, fun frame f ended => ?_⟩
    · obtain ⟨⟨replies, unread, own⟩, issues⟩ := inv.own r use attempt phase run here begun
      obtain ⟨call, op⟩ := issues i (List.mem_of_getElem? answers) (prompt i answers)
      refine ⟨⟨replies ++ [text], ?_, ?_⟩, fun j hj => issues j (kept j hj)⟩
      · simp [← unread]
      · intro other member
        rcases List.mem_append.mp member with earlier | last
        · obtain ⟨j, bytes, logged, rest⟩ := own other earlier
          exact ⟨j, bytes, List.mem_cons_of_mem _ logged, rest⟩
        · obtain rfl := List.mem_singleton.mp last
          exact ⟨i, data, List.mem_cons_self, call, op, op ▸ correct⟩
    · obtain ⟨same, ⟨j, logged, own⟩, rest⟩ := inv.genuine frame f ended
      exact ⟨same, ⟨j, List.mem_cons_of_mem _ logged, own⟩, rest⟩
  · cases h

theorem issue_frame (s : Conversation) : s.issue.client = s.client ∧ s.issue.call = s.call ∧
    s.issue.op = s.op ∧ s.issue.wire = s.wire ∧ s.issue.buffer = s.buffer ∧
    s.issue.answered = s.answered := by
  unfold issue
  split <;> simp

theorem issue_issued (issued : ∀ i ∈ s.issues, i.exchange ≤ s.exchange) :
    ∀ i ∈ s.issue.issues, i.exchange ≤ s.issue.exchange := by
  unfold issue
  split
  · rename_i op begins _
    intro i member
    rcases List.mem_append.mp member with earlier | new
    · have := issued i earlier
      cases begins <;> simp <;> omega
    · obtain rfl := List.mem_singleton.mp new
      exact Nat.le_refl _
  · exact issued

theorem issue_own (inv : Inv s) {a : Answer} (prompt : Prompt s (.resume a)) {r : Request}
    {use : Use} {attempt : Nat} {phase : Phase} (run : s.client.task = .running r)
    (here : r.point = .exchange use attempt phase) : Own s.issue (use.call s.op) := by
  by_cases pace : phase = .pace
  · obtain ⟨frame, turn, point⟩ := r
    cases here
    cases pace
    have pacing : s.pacing = some (use.call s.op, attempt == 0) := by
      simp [Conversation.pacing, run]
    cases attempt with
    | zero =>
      obtain ⟨wire, buffer⟩ := prompt (by simp [pacing])
      have issued : s.issue = { s with
          exchange := s.exchange + 1
          issues := s.issues ++ [⟨s.call, s.exchange + 1, use.call s.op⟩] } := by
        simp [issue, pacing]
      rw [issued]
      refine ⟨⟨[], by simp [wire, buffer], by simp⟩, fun i member current => ?_⟩
      rcases List.mem_append.mp member with earlier | new
      · have bound := inv.issued i earlier
        simp only at current
        omega
      · obtain rfl := List.mem_singleton.mp new
        exact ⟨rfl, rfl⟩
    | succ attempt =>
      have own := inv.own _ _ _ _ run rfl (Or.inl (Nat.succ_ne_zero attempt))
      have issued : s.issue = { s with
          issues := s.issues ++ [⟨s.call, s.exchange, use.call s.op⟩] } := by
        simp [issue, pacing]
      rw [issued]
      refine ⟨own.unread, fun i member current => ?_⟩
      rcases List.mem_append.mp member with earlier | new
      · exact own.issues i earlier current
      · obtain rfl := List.mem_singleton.mp new
        exact ⟨rfl, rfl⟩
  · have idle : s.pacing = none := by
      obtain ⟨frame, turn, point⟩ := r
      cases here
      cases phase with
      | pace => exact absurd rfl pace
      | drain | reply => simp [Conversation.pacing, run]
    have same : s.issue = s := by simp [issue, idle]
    rw [same]
    exact inv.own r use attempt phase run here (Or.inr pace)

theorem own_first {op : Call} (own : Own s op) {data : Text} {f : Frame}
    (read : s.buffer.take data.length = data)
    (len : expectedResponseLen op.frame = .ok (data.length : Int))
    (parsed : parseFrame true data = .ok f) : ∃ i bytes, (i, data) ∈ s.answered ∧
      i.call = s.call ∧ i.op = op ∧ op.reply bytes = some data := by
  obtain ⟨replies, unread, each⟩ := own.unread
  have taken : (s.buffer ++ s.wire).take data.length = data := by
    have enough : data.length ≤ s.buffer.length := by
      have := congrArg List.length read
      rw [List.length_take] at this
      omega
    rw [List.take_append_of_le_length enough, read]
  rw [unread] at taken
  cases replies with
  | nil =>
    obtain rfl : data = [] := by simpa using taken.symm
    simp [parseFrame] at parsed
  | cons text rest =>
    obtain ⟨i, bytes, logged, call, same, correct⟩ := each text List.mem_cons_self
    have size := Call.reply_length correct
    rw [len] at size
    have equal : data.length = text.length := by
      have := Except.ok.inj size
      omega
    have first : text = data := by
      rw [← taken, List.flatten_cons, equal, List.take_left']
      rfl
    exact ⟨i, bytes, first ▸ logged, call, same, first ▸ correct⟩

theorem resume_inv {a : Answer} (inv : Inv s) (prompt : Prompt s (.resume a))
    (h : step cfg s (.resume a) = some (t, acts)) : Inv t := by
  simp only [step] at h
  split at h
  · rename_i client acts' buffer resumed left
    obtain ⟨r, run⟩ := Client.resume_running resumed
    have named := inv.named r run
    have frame := s.issue_frame
    have cases := Client.resume_resumed run resumed
    split at h
    · rename_i opened
      cases h
      cases cases with
      | goesOn _ answers _ => rcases answers with rfl | rfl <;> cases opened
      | returns => cases opened
      | between between =>
        exact .of_between (by simpa [greet, named] using between) (by simp [greet])
    · cases h
      have issued := issue_issued inv.issued
      cases cases with
      | goesOn here answers run' =>
        have same : buffer = s.issue.buffer := by
          rw [frame.2.2.2.2.1]
          rcases answers with rfl | rfl <;> exact (Option.some.inj left).symm
        have own := issue_own inv prompt run here
        refine ⟨?_, issued, ?_, ?_⟩
        · intro q running
          cases run'.symm.trans running
          exact named.trans (congrArg Call.frame frame.2.2.1.symm)
        · intro q use attempt phase running point _
          cases run'.symm.trans running
          cases point
          rw [show ({ s.issue with client := client, buffer := buffer } : Conversation).op = s.op
            from frame.2.2.1]
          exact ⟨same ▸ own.unread, own.issues⟩
        · intro frame f ended
          cases run'.symm.trans ended
      | @returns attempt data f client here len parsed ended =>
        refine ⟨?_, issued, ?_, ?_⟩
        · intro q running
          cases ended.symm.trans running
        · intro q use attempt phase running
          cases ended.symm.trans running
        · intro text g finished
          cases ended.symm.trans finished
          have own := inv.own r _ _ _ run here (Or.inr (by simp))
          have read : s.buffer.take data.length = data := by
            simp only [unread] at left
            split at left
            · assumption
            · cases left
          obtain ⟨i, bytes, logged, call, same, correct⟩ := own_first own read (named ▸ len) parsed
          obtain ⟨raw, envelope, shape⟩ := Call.reply_parsed correct parsed
          refine ⟨named.trans (congrArg Call.frame frame.2.2.1.symm), ⟨i, ?_, ?_, ?_⟩, ?_, ?_⟩
          · simpa only [frame.2.2.2.2.2, raw] using logged
          · exact call.trans frame.2.1.symm
          · exact same.trans frame.2.2.1.symm
          · exact envelope.trans (congrArg (List.take 9) named.symm)
          · exact (congrArg (Call.Fits f) frame.2.2.1).mpr shape
      | between between =>
        exact .of_between (by simpa [frame.2.2.1, named] using between) issued
  · cases h

theorem step_inv {e : Turn} (inv : Inv s) (prompt : Prompt s e)
    (h : step cfg s e = some (t, acts)) : Inv t := by
  cases e with
  | call op => exact call_inv inv h
  | resume a => exact resume_inv inv prompt h
  | answer skipped data => exact answer_inv inv prompt h
  | arrive length => exact arrive_inv inv h

/-- In every run on a machine that is prompt, whatever a call returns is its own reply. -/
theorem genuine_of_prompt (cfg : ClientConfig) {ms : List (Runs.Move Conversation Turn Act)}
    {s : Conversation} (run : Runs.Run (step cfg) start ms s)
    (prompt : ∀ m ∈ ms, Prompt m.before m.event) :
    (∀ m ∈ ms, m.after.Genuine) ∧ s.Genuine := by
  have all := run.states_of Inv (fun m => Prompt m.before m.event) start_inv
    (fun _ _ _ _ inv prompt h => step_inv inv prompt h) prompt
  exact ⟨fun m member => (all.1 m member).genuine, all.2.genuine⟩

def connects (op : Call) (warm : List Int) : List Turn :=
  [.call op, .resume .opened, .arrive 7, .resume (.bytes Protocol.hello), .resume .done,
    .resume .done, .answer 0 warm, .arrive 241,
    .resume (.bytes (Protocol.buildFrame .read 0 115 warm)), .resume .done, .resume .done]

theorem genuine_first_read : ∃ ms s,
    Runs.Run (step .default) start ms s ∧
    (s.client.task matches .ended _ (.ok _)) ∧ (∀ m ∈ ms, m.after.Genuine) ∧ s.Genuine := by
  have reached : (Runs.feed (step .default) start (connects (.read 2 1) (List.replicate 115 0) ++
      [.answer 0 [105], .arrive 13, .resume (.bytes (Protocol.buildFrame .read 2 1 [105]))])).any
      (fun r => (r.1.client.task matches .ended _ (.ok _)) &&
        r.2.all fun m => Prompt m.before m.event) = true := by decide +kernel
  obtain ⟨ms, s, run, -, tested⟩ := Runs.feed_reaches reached
  simp only [Bool.and_eq_true, List.all_eq_true, decide_eq_true_eq] at tested
  exact ⟨ms, s, run, tested.1, genuine_of_prompt .default run tested.2⟩

/-- The machine answers a read after the client has issued its frame again, and then that frame
too. The second reply is what the next read returns, whatever it has asked for. -/
theorem late_reply_misread :
    ¬ ∀ ms s, Runs.Run (step .default) start ms s → s.Genuine := by
  have reached : (Runs.feed (step .default) start (connects (.read 2 1) (List.replicate 115 0) ++
      [.resume .timeout, .resume .done, .resume .done, .answer 0 [105], .answer 0 [105],
        .arrive 26, .resume (.bytes (Protocol.buildFrame .read 2 1 [105])),
        .call (.read 3 1), .resume .done, .resume .done,
        .resume (.bytes (Protocol.buildFrame .read 2 1 [105]))])).any
      (fun r => match r.1.client.task with
        | .ended frame (.ok f) => f.envelope != frame.take 9
        | _ => false) = true := by decide +kernel
  intro genuine
  obtain ⟨ms, s, run, -, tested⟩ := Runs.feed_reaches reached
  split at tested
  · rename_i frame f ended
    simp [(genuine ms s run frame f ended).2.2.1] at tested
  · cases tested

end Conversation

end R60V
