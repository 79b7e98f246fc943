import R60V.Bridge.Reconnect

/-! One cycle of `_poll_once` over the client and a machine: the availability of the store rests
on every cycle coming to a verdict, and that on every request coming to an end. -/
namespace R60V

open Python (Text)
open Protocol (Frame buildRead Word)
open StateTransition (Reaches Reaches₁ eval mem_eval)

structure PollCycle where
  client : Client
  device : Device
  poller : Poller
  noted : Option Bool

namespace PollCycle

section
variable (m : Machine) (ccfg : ClientConfig) (cfg : BrokerConfig)

/-- What an effect of the poll loop does to the client, when nobody else uses it. After a read that
has failed there is no link left to close, and nothing to wait for. -/
def obey (c : Client) : Effect → Client
  | .submit _ op => ((c.request ccfg op.frame).map (·.1)).getD c
  | .closeLink => c.close.1
  | _ => c

def notedBy : Effect → Option Bool
  | .noted ok => some ok
  | _ => none

def after (c : Client) : Device × Poller × List Effect → PollCycle
  | (d, p, effects) => ⟨effects.foldl (obey ccfg) c, d, p, effects.findSome? notedBy⟩

/-- The answer to each read comes at a time of its own. -/
def start (clock : PollPoint → ℚ) (c : Client) (d : Device) (p : Poller) (readSettings : Bool) :
    PollCycle :=
  after ccfg c (p.pollOnce cfg (clock p.point) d readSettings)

def tick (clock : PollPoint → ℚ) (s : PollCycle) : Option PollCycle :=
  if s.noted.isSome then none
  else match s.client.task with
    | .ended _ result =>
      (s.poller.answered cfg (clock s.poller.point) s.device (result.map Frame.data)).map
        (after ccfg s.client)
    | _ => (m.tick ccfg s.client).map fun c => { s with client := c }

def Notes (clock : PollPoint → ℚ) (s t : PollCycle) : Prop :=
  Reaches (tick m ccfg cfg clock) s t ∧ t.noted.isSome = true

/-- What a number of cycles, one after another, makes of the device. Each of them finds the
client as others have left it. -/
inductive Cycles : Nat → Device → Device → Prop where
  | zero (d : Device) : Cycles 0 d d
  | succ {k : Nat} {d d' : Device} {clock : PollPoint → ℚ} {c : Client} {p : Poller}
      {readSettings : Bool} {t : PollCycle} : Cycles k d d' → c.busy = false →
      Notes m ccfg cfg clock (start ccfg cfg clock c d' p readSettings) t →
      Cycles (k + 1) d t.device

end

variable {m : Machine} {ccfg : ClientConfig} {cfg : BrokerConfig} {clock : PollPoint → ℚ}

theorem tick_running {c c' : Client} {d : Device} {p : Poller} (h : m.tick ccfg c = some c') :
    tick m ccfg cfg clock ⟨c, d, p, none⟩ = some ⟨c', d, p, none⟩ := by
  cases ht : c.task with
  | idle => simp [Machine.tick, Client.resume, ht] at h
  | running r => simp [tick, ht, h]
  | ended frame result => simp [Machine.tick, Client.resume, ht] at h

theorem client_reaches {c c' : Client} {d : Device} {p : Poller}
    (path : Reaches (m.tick ccfg) c c') :
    Reaches (tick m ccfg cfg clock) ⟨c, d, p, none⟩ ⟨c', d, p, none⟩ := by
  induction path with
  | refl => exact Relation.ReflTransGen.refl
  | tail _ h ih => exact ih.tail (tick_running h)

theorem notes_unique {s t t' : PollCycle} (h : Notes m ccfg cfg clock s t)
    (h' : Notes m ccfg cfg clock s t') : t = t' := by
  have stops : ∀ {u}, Notes m ccfg cfg clock s u → u ∈ eval (tick m ccfg cfg clock) s := fun h =>
    mem_eval.mpr ⟨h.1, by simp [tick, h.2]⟩
  exact Part.mem_unique (stops h) (stops h')

theorem awaitable_read {address length : Int} (ha : Word address) (hl : Word length) :
    m.Awaitable (buildRead address length) := by
  refine ⟨Protocol.isAscii_buildFrame _ _ _ _, _, expectedResponseLen_frame .read ha hl [],
    Or.inl ?_⟩
  have := hl.1
  simp only [if_true]
  omega

theorem readReturns_of_replied {address : Int} {length : Nat} {f : Frame} (ha : Word address)
    (hl : Word length) (h : m.Replied (buildRead address length) f) :
    readReturns length f.data = true := by
  obtain ⟨want, id, k, stream, len, nonneg, -, parsed⟩ := h
  have fixed := expectedResponseLen_frame .read ha hl []
  rw [show Protocol.buildFrame .read address length [] = buildRead address length from rfl,
    len] at fixed
  cases fixed
  have size : (((List.range (9 + (length : Int) * 2 + 2).toNat).map stream)).length =
      9 + length * 2 + 2 := by
    simp only [List.length_map, List.length_range]
    omega
  rcases Protocol.parseFrame_data_length parsed size with same | ⟨one, none⟩
  · simp [readReturns, same]
  · simp [readReturns, one, none]

theorem not_busy {c : Client} {frame : Text} {result : Except Exc Frame}
    (ended : c.task = .ended frame result) : c.busy = false := by
  simp [Client.busy, ended]

theorem submitted_eq {address : Int} {length : Nat} {c : Client} (free : c.busy = false)
    (d : Device) (p : Poller) : after ccfg c (d, p, [.submit .poll (.read address length)]) =
      ⟨(c.ensureConnected ccfg
        ⟨buildRead address length, 0, .opening ccfg.backoffInitial⟩).1, d, p, none⟩ := by
  simp [after, obey, notedBy, Client.request_eq free, Call.frame]

theorem read_reaches (cfg : BrokerConfig) (clock : PollPoint → ℚ) (recovers : m.Recovers ccfg)
    {address : Int} {length : Nat} (ha : Word address) (hl : Word length)
    (releases : m.Releases ccfg (buildRead address length)) {c : Client}
    (free : c.busy = false) (d : Device) (p : Poller) : ∃ result final,
      Reaches (tick m ccfg cfg clock)
        (after ccfg c (d, p, [.submit .poll (.read address length)])) ⟨final, d, p, none⟩ ∧
      final.busy = false ∧ m.Outcome (buildRead address length) result ∧
      tick m ccfg cfg clock ⟨final, d, p, none⟩ =
        (p.answered cfg (clock p.point) d (result.map Frame.data)).map (after ccfg final) := by
  obtain ⟨result, final, path, ended, outcome⟩ :=
    Client.request_ends recovers releases (awaitable_read ha hl) c
  refine ⟨result, final, ?_, not_busy ended, outcome, by simp [tick, ended]⟩
  rw [submitted_eq free]
  exact client_reaches path

theorem failed_noted (now : ℚ) (c : Client) (d : Device) (p : Poller) :
    (after ccfg c (p.failed cfg now d)).noted = some false := rfl

theorem live_notes (recovers : m.Recovers ccfg) {registers : List (Nat × Nat)}
    (words : ∀ r ∈ registers, Word r.1 ∧ Word r.2)
    (releases : ∀ r ∈ registers, m.Releases ccfg (buildRead r.1 r.2)) {c : Client}
    (free : c.busy = false) (now : ℚ) (d : Device) (p : Poller) :
    ∃ t, Notes m ccfg cfg clock (after ccfg c (p.readLive cfg now d registers)) t := by
  induction registers generalizing c now d p with
  | nil => exact ⟨_, Relation.ReflTransGen.refl, rfl⟩
  | cons register rest ih =>
    obtain ⟨address, length⟩ := register
    obtain ⟨ha, hl⟩ := words _ List.mem_cons_self
    have released := releases (address, length) List.mem_cons_self
    obtain ⟨result, final, path, free', outcome, answer⟩ := read_reaches cfg clock recovers ha hl
      released free d { p with point := .live address length rest }
    cases result with
    | ok f =>
      have whole : readReturns length f.data = true := readReturns_of_replied ha hl outcome
      simp only [Except.map, Poller.answered, whole, if_true, Option.map_some] at answer
      have words' : ∀ r ∈ rest, Word r.1 ∧ Word r.2 := fun r h => words r (List.mem_cons_of_mem _ h)
      have releases' : ∀ r ∈ rest, m.Releases ccfg (buildRead r.1 r.2) := fun r h =>
        releases r (List.mem_cons_of_mem _ h)
      obtain ⟨t, more, noted⟩ := ih words' releases' free' (clock (.live address length rest))
        { d with store := d.store.updateLive (clock (.live address length rest)) address f.data }
        { p with point := .live address length rest }
      exact ⟨t, path.trans (Relation.ReflTransGen.head answer more), noted⟩
    | error e =>
      simp only [Except.map, Poller.answered, Option.map_some] at answer
      exact ⟨_, path.tail answer, by rw [failed_noted]; rfl⟩

theorem words_live : ∀ r ∈ liveRegisters, Word r.1 ∧ Word r.2 := by decide

theorem words_settings : Word Protocol.settingsBase ∧ Word Protocol.settingsLen := by decide

/-- The frames that a poll cycle writes. -/
def pollFrames : List Text :=
  buildRead Protocol.settingsBase Protocol.settingsLen ::
    liveRegisters.map fun r => buildRead r.1 r.2

theorem releases_settings (releases : ∀ f ∈ pollFrames, m.Releases ccfg f) :
    m.Releases ccfg (buildRead Protocol.settingsBase Protocol.settingsLen) := by
  apply releases
  unfold pollFrames
  exact List.mem_cons_self

theorem releases_live (releases : ∀ f ∈ pollFrames, m.Releases ccfg f) :
    ∀ r ∈ liveRegisters, m.Releases ccfg (buildRead r.1 r.2) := fun _ member =>
  releases _ (List.mem_cons_of_mem _ (List.mem_map_of_mem member))

theorem cycle_notes (recovers : m.Recovers ccfg) (releases : ∀ f ∈ pollFrames, m.Releases ccfg f)
    {c : Client} (free : c.busy = false) (d : Device) (p : Poller) (readSettings : Bool) :
    ∃ t, Notes m ccfg cfg clock (start ccfg cfg clock c d p readSettings) t := by
  cases readSettings with
  | false => exact live_notes recovers words_live (releases_live releases) free (clock p.point) d p
  | true =>
    obtain ⟨result, final, path, free', outcome, answer⟩ := read_reaches cfg clock recovers
      words_settings.1 words_settings.2 (releases_settings releases) free d
      { p with point := .settings }
    cases result with
    | ok f =>
      have whole : readReturns Protocol.settingsLen f.data = true :=
        readReturns_of_replied words_settings.1 words_settings.2 outcome
      simp only [Except.map, Poller.answered, whole, if_true, Option.map_some] at answer
      obtain ⟨t, more, noted⟩ := live_notes recovers words_live (releases_live releases) free'
        (clock .settings)
        { d with store := d.store.updateSettings f.data } { p with point := .settings }
      exact ⟨t, path.trans (Relation.ReflTransGen.head answer more), noted⟩
    | error e =>
      simp only [Except.map, Poller.answered, Option.map_some] at answer
      exact ⟨_, path.tail answer, by rw [failed_noted]; rfl⟩

def Fails (s s' : DeviceState) : Prop :=
  s'.availabilityGrace = s.availabilityGrace ∧ s.failStreak + 1 ≤ s'.failStreak ∧
    (s.availabilityGrace ≤ s.failStreak + 1 → s'.verdict = some false)

theorem failed_fails (now : ℚ) (d : Device) (p : Poller) :
    Fails d.store (p.failed cfg now d).1.store := by
  have failure := d.store.noteFailure_counts
  have wedged := d.store.noteFailure.noteWedged_counts
  unfold Poller.failed
  dsimp only
  split
  · exact ⟨wedged.1.trans failure.1, failure.2.1 ▸ wedged.2, fun _ => by simp [Poller.rest]⟩
  · unfold Poller.share
    split <;> exact ⟨failure.1, failure.2.1.ge, failure.2.2⟩

theorem read_fails (recovers : m.Recovers ccfg) (silent : m.Unreachable) {address : Int}
    {length : Nat} (ha : Word address) (hl : Word length)
    (releases : m.Releases ccfg (buildRead address length)) {c : Client} (free : c.busy = false)
    {d : Device} {p : Poller} (answers : ∀ now e, p.answered cfg now d (.error e) =
      some (p.failed cfg now d)) : ∃ t,
      Notes m ccfg cfg clock (after ccfg c (d, p, [.submit .poll (.read address length)])) t ∧
      Fails d.store t.device.store := by
  obtain ⟨result, final, path, -, outcome, answer⟩ := read_reaches cfg clock recovers ha hl releases
    free d p
  cases result with
  | ok f =>
    obtain ⟨_, id, k, stream, _, _, reading, _⟩ := outcome
    exact absurd reading (silent id k stream)
  | error e =>
    simp only [Except.map, answers, Option.map_some] at answer
    exact ⟨_, ⟨path.tail answer, by rw [failed_noted]; rfl⟩, failed_fails _ d p⟩

theorem cycle_fails (recovers : m.Recovers ccfg) (releases : ∀ f ∈ pollFrames, m.Releases ccfg f)
    (silent : m.Unreachable) {c : Client} (free : c.busy = false) {d : Device} {p : Poller}
    {readSettings : Bool} {t : PollCycle}
    (notes : Notes m ccfg cfg clock (start ccfg cfg clock c d p readSettings) t) :
    Fails d.store t.device.store := by
  have failing : ∃ u, Notes m ccfg cfg clock (start ccfg cfg clock c d p readSettings) u ∧
      Fails d.store u.device.store := by
    cases readSettings with
    | true =>
      exact read_fails recovers silent words_settings.1 words_settings.2
        (releases_settings releases) free fun _ _ => rfl
    | false =>
      have words := words_live (0xB000, 1) (by decide)
      have released := releases_live releases (0xB000, 1) (by decide)
      exact read_fails recovers silent words.1 words.2 released free fun _ _ => rfl
  obtain ⟨u, notes', fails⟩ := failing
  exact notes_unique notes notes' ▸ fails

theorem cycles_exist (recovers : m.Recovers ccfg) (releases : ∀ f ∈ pollFrames, m.Releases ccfg f)
    (k : Nat) (d : Device) :
    ∃ d', Cycles m ccfg cfg k d d' := by
  induction k with
  | zero => exact ⟨d, .zero d⟩
  | succ k ih =>
    obtain ⟨d', cycles⟩ := ih
    have free : Client.fresh.busy = false := rfl
    obtain ⟨t, notes⟩ : ∃ t, Notes m ccfg cfg (fun _ => 0) _ t :=
      cycle_notes recovers releases free d' ⟨0, true, .off⟩ true
    exact ⟨t.device, .succ cycles free notes⟩

theorem cycles_fail (recovers : m.Recovers ccfg) (releases : ∀ f ∈ pollFrames, m.Releases ccfg f)
    (silent : m.Unreachable) {k : Nat} {d d' : Device} (cycles : Cycles m ccfg cfg k d d') :
    d'.store.availabilityGrace = d.store.availabilityGrace ∧ k ≤ d'.store.failStreak ∧
    (0 < k → d.store.availabilityGrace ≤ k → d'.store.verdict = some false) := by
  induction cycles with
  | zero => exact ⟨rfl, Nat.zero_le _, fun positive => absurd positive (Nat.lt_irrefl 0)⟩
  | succ _ free notes ih =>
    obtain ⟨grace, streak, offline⟩ := cycle_fails recovers releases silent free notes
    exact ⟨grace.trans ih.1, by omega, fun _ le => offline (by omega)⟩

def RequestsEnd (m : Machine) (ccfg : ClientConfig) (frame : Text) : Prop :=
  ∀ c : Client, c.busy = false → ∃ started acts result final,
    c.request ccfg frame = some (started, acts) ∧ Reaches (m.tick ccfg) started final ∧
    final.task = .ended frame result ∧ ∀ e, result = .error e → e.isConnectionError = true

def NeverHangs (m : Machine) (ccfg : ClientConfig) (frame : Text) : Prop :=
  ∀ c : Client, c.busy = false →
    ¬ Client.Hangs m ccfg (c.ensureConnected ccfg ⟨frame, 0, .opening ccfg.backoffInitial⟩).1

theorem neverHangs_of_requestsEnd {frame : Text} (h : RequestsEnd m ccfg frame) :
    NeverHangs m ccfg frame := by
  intro c free hangs
  obtain ⟨started, acts, result, final, begun, path, ended, -⟩ := h c free
  rw [Client.request_eq free] at begun
  rw [Option.some.inj begun] at hangs
  exact Client.hangs_not_ends hangs path (not_busy ended)

theorem neverHangs_of_notes {address : Int} {length : Nat} {d : Device} {p : Poller}
    (h : ∀ c : Client, c.busy = false → ∃ t, Notes m ccfg cfg clock
      (after ccfg c (d, p, [.submit .poll (.read address length)])) t) :
    NeverHangs m ccfg (buildRead address length) := by
  intro c free hangs
  obtain ⟨t, path, noted⟩ := h c free
  rw [submitted_eq free] at path
  obtain ⟨stuck, way, stops, waits⟩ := hangs
  have here : tick m ccfg cfg clock ⟨stuck, d, p, none⟩ = none := by
    cases task : stuck.task with
    | running r => simp [tick, task, stops]
    | idle => simp [Client.busy, task] at waits
    | ended frame result => simp [Client.busy, task] at waits
  have same : t = ⟨stuck, d, p, none⟩ := Part.mem_unique
    (mem_eval.mpr ⟨path, by simp [tick, noted]⟩) (mem_eval.mpr ⟨client_reaches way, here⟩)
  rw [same] at noted
  cases noted

theorem takes_of_neverHangs {frame : Text} {want : Int} (h : NeverHangs m ccfg frame)
    (ascii : Python.isAscii frame = true) (len : expectedResponseLen frame = .ok want) (id : Nat) :
    m.Takes id := by
  intro k stalled
  apply h ⟨some ⟨id, k, false⟩, 0, .idle⟩ rfl
  rw [Client.ensureConnected_live]
  have hangs : Client.Hangs m ccfg
      (Client.entering id k 0 ⟨frame, 0, .opening ccfg.backoffInitial⟩) :=
    Client.entering_stalls ascii len stalled
  exact hangs

theorem releases_of_neverHangs {frame : Text} (h : NeverHangs m ccfg frame)
    (awaits : m.Awaitable frame) : m.Releases ccfg frame := by
  obtain ⟨ascii, want, len, reads⟩ := awaits
  have takes := takes_of_neverHangs h ascii len
  refine ⟨takes, fun n hangsUp => ?_⟩
  by_contra held
  rw [Bool.not_eq_true] at held
  rcases hangsUp with ⟨id, issued, want', len', failed⟩ | ⟨k, rfl, accepts, unusable⟩
  · obtain rfl : want' = want := Except.ok.inj (len'.symm.trans len)
    apply h ⟨some ⟨id, issued, false⟩, n, .idle⟩ rfl
    rw [Client.ensureConnected_live]
    have hangs : Client.Hangs m ccfg
        (Client.entering id issued n ⟨frame, 0, .opening ccfg.backoffInitial⟩) :=
      Client.entering_unclosed ascii len (takes id) reads failed held
    exact hangs
  · exact h ⟨none, k, .idle⟩ rfl (Client.dialling_unclosed (takes k) _ unusable accepts held)

theorem recovers_of_requestsEnd {frame : Text} (h : RequestsEnd m ccfg frame)
    (releases : m.Releases ccfg frame) : m.Recovers ccfg := by
  intro n
  by_contra dead
  obtain ⟨started, acts, result, final, begun, path, ended, -⟩ := h ⟨none, n, .idle⟩ rfl
  cases begun
  refine Client.dialling_diverges releases (fun k le usable => dead ⟨k, le, usable⟩)
    ccfg.backoffInitial final (mem_eval.mpr ⟨path, ?_⟩)
  simp [Machine.tick, Client.resume, ended]

theorem awaitable_of_requestsEnd {frame : Text} (h : RequestsEnd m ccfg frame) :
    m.Awaitable frame := by
  let r : Request := ⟨frame, 0, .opening ccfg.backoffInitial⟩
  have stops : ∀ {c : Client} {result}, c.task = .ended frame result → m.tick ccfg c = none :=
    fun ended => by simp [Machine.tick, Client.resume, ended]
  have declared : ∀ id issued e final, Reaches (m.tick ccfg) (Client.entering id issued 0 r) final →
      final.task = .ended frame (.error e) → e.isConnectionError = true := by
    intro id issued e final path ended
    obtain ⟨started, acts, result, last, begun, path', ended', good⟩ :=
      h ⟨some ⟨id, issued, false⟩, 0, .idle⟩ rfl
    have entered : Client.entering id issued 0 r = started :=
      congrArg Prod.fst (Option.some.inj begun)
    rw [← entered] at path'
    have same : last = final := Part.mem_unique (mem_eval.mpr ⟨path', stops ended'⟩)
      (mem_eval.mpr ⟨path, stops ended⟩)
    rw [same, ended] at ended'
    cases ended'
    exact good e rfl
  cases len : expectedResponseLen frame with
  | error e =>
    have raised : Client.entering 0 0 0 r = ⟨some ⟨0, 0, false⟩, 0, .ended frame (.error e)⟩ := by
      simp [Client.entering, Client.beginExchange, Client.frameOf, r, len, Client.finish]
    have connection := declared 0 0 e _ Relation.ReflTransGen.refl (by rw [raised])
    have kinds : e = .index ∨ e = .value := by
      unfold expectedResponseLen at len
      split at len
      · cases len; exact Or.inl rfl
      · split at len <;> cases len
        exact Or.inr rfl
    rcases kinds with rfl | rfl <;> cases connection
  | ok want =>
    have conversation : ∀ id issued,
        Client.entering id issued 0 r = Client.conversing id issued 0 r .main 0 := fun id issued =>
      Client.entering_conversing len
    have main : expectedResponseLen (Client.frameOf r .main) = .ok want := len
    have ascii : Python.isAscii (Client.frameOf r .main) = true := by
      by_contra foreign
      rw [Bool.not_eq_true] at foreign
      have raises : m.tick ccfg (Client.conversing 0 0 0 r .main 0) = some _ :=
        Client.tick_foreign foreign
      rw [← conversation] at raises
      cases declared 0 0 .value _ (Relation.ReflTransGen.single raises) rfl
    have takes := takes_of_neverHangs (neverHangs_of_requestsEnd h) ascii len
    refine ⟨ascii, want, len, ?_⟩
    by_contra unreadable
    simp only [not_or, not_le, not_forall] at unreadable
    obtain ⟨negative, id, issued, unbroken⟩ := unreadable
    have issue : Reaches₁ (m.tick ccfg) (Client.conversing id issued 0 r .main 0) _ :=
      Client.issue_reaches ascii main (takes id issued)
    have raises : m.issue (Client.frameOf r .main) want id issued = some (.error .value) := by
      simp [Machine.issue, unbroken, negative]
    rw [raises, ← conversation] at issue
    cases declared id issued .value _ issue.to_reflTransGen rfl

/-- Requests end, poll cycles end with a verdict, also from any of their reads on and whatever
client that read finds, and so a machine that falls silent is taken offline. -/
structure Dependable (m : Machine) (ccfg : ClientConfig) (cfg : BrokerConfig) (frame : Text) :
    Prop where
  ends : RequestsEnd m ccfg frame
  notes : ∀ clock c d p readSettings, c.busy = false →
    ∃ t, Notes m ccfg cfg clock (start ccfg cfg clock c d p readSettings) t
  notesOn : ∀ clock c d (p : Poller) registers, c.busy = false → registers <:+ liveRegisters →
    ∃ t, Notes m ccfg cfg clock (after ccfg c (p.readLive cfg (clock p.point) d registers)) t
  offline : m.Unreachable → ∀ d, ∃ enough, ∀ k ≥ enough,
    (∃ d', Cycles m ccfg cfg k d d') ∧
    ∀ d', Cycles m ccfg cfg k d d' → d'.store.available = false

theorem releases_of_dependable {frame : Text} (h : Dependable m ccfg cfg frame) :
    ∀ f ∈ frame :: pollFrames, m.Releases ccfg f := by
  intro f member
  rcases List.mem_cons.mp member with rfl | polled
  · exact releases_of_neverHangs (neverHangs_of_requestsEnd h.ends)
      (awaitable_of_requestsEnd h.ends)
  · rcases List.mem_cons.mp polled with rfl | live
    · exact releases_of_neverHangs (neverHangs_of_notes fun c free =>
        h.notes (fun _ => 0) c (Broker.start cfg).device ⟨0, true, .off⟩ true free)
        (awaitable_read words_settings.1 words_settings.2)
    · obtain ⟨⟨address, length⟩, register, rfl⟩ := List.mem_map.mp live
      obtain ⟨front, back, cut⟩ := List.append_of_mem register
      have words := words_live _ register
      exact releases_of_neverHangs (neverHangs_of_notes fun c free =>
        h.notesOn (fun _ => 0) c (Broker.start cfg).device ⟨0, true, .off⟩ _ free ⟨front, cut.symm⟩)
        (awaitable_read words.1 words.2)

/-- All of that holds exactly of a machine that never stops letting some attempt to connect
through, that takes what is written and lets go of what is hung up, and of frames whose replies can
be awaited. -/
theorem dependable_iff (m : Machine) (ccfg : ClientConfig) (cfg : BrokerConfig) (frame : Text) :
    Dependable m ccfg cfg frame ↔ m.Recovers ccfg ∧ m.Awaitable frame ∧
      ∀ f ∈ frame :: pollFrames, m.Releases ccfg f := by
  constructor
  · intro h
    have releases := releases_of_dependable h
    exact ⟨recovers_of_requestsEnd h.ends (releases frame List.mem_cons_self),
      awaitable_of_requestsEnd h.ends, releases⟩
  · rintro ⟨recovers, awaits, all⟩
    have own := all frame List.mem_cons_self
    have releases : ∀ f ∈ pollFrames, m.Releases ccfg f := fun f member =>
      all f (List.mem_cons_of_mem _ member)
    constructor
    · intro c free
      obtain ⟨result, final, path, ended, outcome⟩ := Client.request_ends recovers own awaits c
      refine ⟨_, _, result, final, Client.request_eq free frame, path, ended, ?_⟩
      rintro e rfl
      exact outcome
    · exact fun _ _ d p readSettings free => cycle_notes recovers releases free d p readSettings
    · intro clock c d p registers free rest
      have inside : ∀ r ∈ registers, r ∈ liveRegisters := fun r member => rest.subset member
      exact live_notes recovers (fun r member => words_live r (inside r member))
        (fun r member => releases_live releases r (inside r member)) free _ d p
    · intro silent d
      refine ⟨max 1 d.store.availabilityGrace,
        fun k le => ⟨cycles_exist recovers releases k d, ?_⟩⟩
      intro d' cycles
      have offline := (cycles_fail recovers releases silent cycles).2.2 (by omega) (by omega)
      simp [DeviceState.available, offline]

def refusing : Machine where
  accept _ := .refused
  greet _ := .osError
  flush _ _ := .osError
  reply _ _ := .osError
  closes _ := true

theorem refusing_reaches {r : Request} {n : Nat} {backoff : ℚ} {d : Device} {p : Poller}
    {t : PollCycle} (path : Reaches (tick refusing ccfg cfg clock)
      ⟨Client.dialling n r backoff, d, p, none⟩ t) :
    t.noted = none ∧ t.device = d ∧ ∃ n backoff, t.client = Client.dialling n r backoff ∨
      t.client = Client.backing none n r backoff := by
  induction path with
  | refl => exact ⟨rfl, rfl, n, backoff, Or.inl rfl⟩
  | @tail s t _ h ih =>
    obtain ⟨client, device, poller, noted⟩ := s
    obtain ⟨rfl, rfl, k, wait, rfl | rfl⟩ := ih
    · obtain rfl := Option.some.inj h
      exact ⟨rfl, rfl, k, wait, Or.inr rfl⟩
    · obtain rfl := Option.some.inj h
      exact ⟨rfl, rfl, k + 1, _, Or.inl rfl⟩

/-- So no request ends, and the first poll cycle keeps the store available for ever. -/
theorem refusing_hangs :
    ¬ Dependable refusing .default Broker.mqttConfig settingsCall.frame ∧
    ∀ t, Reaches (tick refusing .default Broker.mqttConfig fun _ => 0)
      (start .default Broker.mqttConfig (fun _ => 0) .fresh
        (Broker.start Broker.mqttConfig).device (Broker.start Broker.mqttConfig).poller true) t →
      t.noted = none ∧ t.device.store.available = true := by
  constructor
  · intro dependable
    obtain ⟨k, -, accepts, -⟩ := recovers_of_requestsEnd dependable.ends
      (releases_of_dependable dependable _ List.mem_cons_self) 0
    cases accepts
  · intro t path
    obtain ⟨silent, same, -⟩ := refusing_reaches path
    exact ⟨silent, by rw [same]; rfl⟩

end PollCycle

end R60V
