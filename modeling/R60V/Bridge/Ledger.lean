import R60V.Bridge.Intents

/-! What becomes of the write-intents: an account, for every run, of the ones that have been
admitted, against the jobs that the write-intent loop has had done for them. -/
namespace R60V

open Runs (Run Move outputs feed)

/-- The intents that the bridge has taken, in their order. -/
def admitted (effects : List Effect) : List Intent :=
  effects.filterMap fun
    | .accepted i _ => some i
    | _ => none

/-- The jobs that the write-intent loop has submitted, and for which intent. -/
def conversation (effects : List Effect) : List (Intent × Call) :=
  effects.filterMap fun
    | .submit (.intent i) op => some (i, op)
    | _ => none

@[simp] theorem admitted_append (effects more : List Effect) :
    admitted (effects ++ more) = admitted effects ++ admitted more :=
  List.filterMap_append

@[simp] theorem conversation_append (effects more : List Effect) :
    conversation (effects ++ more) = conversation effects ++ conversation more :=
  List.filterMap_append

theorem admitted_nil {effects : List Effect}
    (none_ : ∀ i reflected, .accepted i reflected ∉ effects) : admitted effects = [] := by
  refine List.filterMap_eq_nil_iff.mpr fun effect member => ?_
  cases effect with
  | accepted i reflected => exact absurd member (none_ i reflected)
  | _ => rfl

def Intent.writes (i : Intent) (tries : Nat) : List (Intent × Call) :=
  List.replicate tries (i, .write i.address i.data)

/-- An intent that the loop is through with: how often its write was tried, and if the settings
were read back after it. -/
structure Settled where
  intent : Intent
  tries : Nat
  readBack : Bool

def Settled.jobs (s : Settled) : List (Intent × Call) :=
  s.intent.writes s.tries ++ if s.readBack then [(s.intent, settingsCall)] else []

/-- What the loop has had done so far for the intent it is at. -/
inductive Underway : Option (Intent × IntentPhase) → List (Intent × Call) → Prop where
  | idle : Underway none []
  | coolingDown {i : Intent} {wakeAt : ℚ} : Underway (some (i, .coolingDown wakeAt)) []
  | writing {i : Intent} {attempt : Nat} (retries : attempt ≤ writeRetries) :
      Underway (some (i, .writing attempt)) (i.writes (attempt + 1))
  | backingOff {i : Intent} {attempt : Nat} {wakeAt : ℚ} (retries : attempt < writeRetries) :
      Underway (some (i, .backingOff attempt wakeAt)) (i.writes (attempt + 1))
  | reading {i : Intent} {attempt : Nat} (retries : attempt ≤ writeRetries) :
      Underway (some (i, .reading)) (i.writes (attempt + 1) ++ [(i, settingsCall)])
  | broadcasting {i : Intent} {attempt : Nat} (retries : attempt ≤ writeRetries) :
      Underway (some (i, .broadcasting)) (i.writes (attempt + 1) ++ [(i, settingsCall)])

/-- A step settles one intent more at most, and that one is read back or excused. -/
inductive Grows (Excused : Settled → Prop) (settled : List Settled) : List Settled → Prop where
  | kept : Grows Excused settled settled
  | one {d : Settled} (last : d.readBack = true ∨ Excused d) :
      Grows Excused settled (settled ++ [d])

theorem Grows.imp {Excused Excused' : Settled → Prop} {settled settled' : List Settled}
    (weaker : ∀ d, Excused d → Excused' d) (grows : Grows Excused settled settled') :
    Grows Excused' settled settled' := by
  cases grows with
  | kept => exact .kept
  | one last => exact .one (last.imp_right (weaker _))

/-- The admitted intents are those that are settled, the one under way and the queue, in this order,
and the jobs are those of the settled ones, one after the other, and of the one under way. -/
structure Account (past : List Effect) (loop : IntentLoop) (settled : List Settled) : Prop where
  taken : admitted past = settled.map Settled.intent ++ loop.owners
  jobs : ∃ current, Underway loop.current current ∧
    conversation past = settled.flatMap Settled.jobs ++ current
  tries : ∀ s ∈ settled, 1 ≤ s.tries ∧ s.tries ≤ writeRetries + 1
  bounded : loop.queue.length ≤ intentQueueMax

namespace Account

variable {loop loop' : IntentLoop} {past effects : List Effect} {settled : List Settled}

theorem start : Account [] ⟨[], none⟩ [] where
  taken := rfl
  jobs := ⟨[], .idle, rfl⟩
  tries s member := by cases member
  bounded := Nat.zero_le _

/-- A step that admits nothing and settles nothing. -/
theorem goes_on (account : Account past loop settled) (quiet : admitted effects = [])
    (owners : loop'.owners = loop.owners) (shorter : loop'.queue.length ≤ loop.queue.length)
    (underway : ∀ current, Underway loop.current current →
      Underway loop'.current (current ++ conversation effects)) :
    Account (past ++ effects) loop' settled := by
  obtain ⟨current, at_, jobs⟩ := account.jobs
  refine ⟨?_, ⟨_, underway current at_, ?_⟩, account.tries, shorter.trans account.bounded⟩
  · rw [admitted_append, quiet, List.append_nil, owners, account.taken]
  · rw [conversation_append, jobs, List.append_assoc]

/-- A step that gets the loop free of its intent. -/
theorem settles (account : Account past loop settled) {i : Intent} {phase : IntentPhase}
    (at_ : loop.current = some (i, phase)) {P : Settled → Prop}
    (spent : ∀ current, Underway (some (i, phase)) current → ∃ s : Settled, s.intent = i ∧
      (1 ≤ s.tries ∧ s.tries ≤ writeRetries + 1) ∧ current = s.jobs ∧ P s) :
    ∃ s : Settled, s.intent = i ∧ P s ∧
      Account past { loop with current := none } (settled ++ [s]) := by
  obtain ⟨current, underway, jobs⟩ := account.jobs
  rw [at_] at underway
  obtain ⟨s, rfl, tries, rfl, holds⟩ := spent current underway
  refine ⟨s, rfl, holds, ?_, ⟨[], .idle, ?_⟩, ?_, account.bounded⟩
  · simp [account.taken, IntentLoop.owners, at_]
  · simp [jobs]
  · intro t member
    rcases List.mem_append.mp member with earlier | last
    · exact account.tries t earlier
    · rw [List.mem_singleton.mp last]
      exact tries

theorem admits (account : Account past loop settled) {i : Intent}
    (room : loop.queue.length < intentQueueMax) (one : admitted effects = [i])
    (quiet : conversation effects = []) :
    Account (past ++ effects) { loop with queue := loop.queue ++ [i] } settled where
  taken := by
    rw [admitted_append, one, account.taken]
    simp [IntentLoop.owners]
  jobs := by
    obtain ⟨current, at_, jobs⟩ := account.jobs
    exact ⟨current, at_, by rw [conversation_append, quiet, List.append_nil, jobs]⟩
  tries := account.tries
  bounded := by
    rw [List.length_append]
    exact room

end Account

namespace IntentLoop

variable {now : ℚ} {wedge : WedgeRecovery} {store : DeviceState} {loop : IntentLoop}
  {past : List Effect} {settled : List Settled}

/-- The write of the intent under way fails with an exception that is none of the client's own, and
this intent is settled with nothing read back. -/
def Strays (loop : IntentLoop) (e : IntentEvent) (d : Settled) : Prop :=
  ∃ x i attempt, e = .write (.error x) ∧ x.isConnectionError = false ∧
    loop.current = some (i, .writing attempt) ∧ d = ⟨i, attempt + 1, false⟩

theorem enter_goes_on {i : Intent} (now : ℚ) (wedge : WedgeRecovery) (loop : IntentLoop) :
    admitted (loop.enter now wedge i).2 = [] ∧
    (loop.enter now wedge i).1.owners = i :: loop.queue ∧
    (loop.enter now wedge i).1.queue = loop.queue ∧
    Underway (loop.enter now wedge i).1.current (conversation (loop.enter now wedge i).2) := by
  unfold enter
  split
  · exact ⟨rfl, rfl, rfl, .coolingDown⟩
  · exact ⟨rfl, rfl, rfl, .writing (Nat.zero_le _)⟩

theorem settles_read (account : Account past loop settled) {i : Intent} {phase : IntentPhase}
    (at_ : loop.current = some (i, phase))
    (read : ∀ current, Underway (some (i, phase)) current →
      ∃ attempt, attempt ≤ writeRetries ∧
        current = i.writes (attempt + 1) ++ [(i, settingsCall)]) :
    ∃ s : Settled, s.readBack = true ∧
      Account past { loop with current := none } (settled ++ [s]) := by
  obtain ⟨s, -, back, after⟩ := account.settles at_ (P := fun s => s.readBack = true)
    fun current underway => by
      obtain ⟨attempt, retries, same⟩ := read current underway
      exact ⟨⟨i, attempt + 1, true⟩, rfl,
        ⟨Nat.succ_pos attempt, Nat.succ_le_succ retries⟩, same, rfl⟩
  exact ⟨s, back, after⟩

/-- The answer to a write: another try, the read that follows the last one, or nothing more. -/
theorem written_accounts (account : Account past loop settled) {i : Intent} {attempt : Nat}
    {result : Except Exc Unit} (at_ : loop.current = some (i, .writing attempt)) :
    ∃ settled', Account (past ++ (loop.written now store i attempt result).2.2)
        (loop.written now store i attempt result).2.1 settled' ∧
      Grows (loop.Strays (.write result)) settled settled' := by
  have reads : ∀ wrote, Account (past ++ (loop.reconcile store i wrote).2.2)
      (loop.reconcile store i wrote).2.1 settled := by
    intro wrote
    have said : conversation (loop.reconcile store i wrote).2.2 = [(i, settingsCall)] := by
      cases wrote <;> rfl
    refine account.goes_on (by cases wrote <;> rfl) (by simp [reconcile, owners, at_]) le_rfl ?_
    intro current underway
    rw [at_] at underway
    rw [said]
    cases underway with
    | writing retries => exact .reading retries
  cases result with
  | ok => exact ⟨settled, reads true, .kept⟩
  | error x =>
    simp only [written]
    split
    · rename_i connection
      split
      · rename_i early
        refine ⟨settled, account.goes_on rfl (by simp [owners, at_]) le_rfl ?_, .kept⟩
        intro current underway
        rw [at_] at underway
        rw [show conversation [] = [] from rfl, List.append_nil]
        cases underway with
        | writing => exact .backingOff early
      · exact ⟨settled, reads false, .kept⟩
    · rename_i stray
      obtain ⟨s, -, same, after⟩ := account.settles at_ (P := fun s => s = ⟨i, attempt + 1, false⟩)
        fun _ underway => by
          cases underway with
          | writing retries =>
            exact ⟨⟨i, attempt + 1, false⟩, rfl,
              ⟨Nat.succ_pos attempt, Nat.succ_le_succ retries⟩, by simp [Settled.jobs], rfl⟩
      refine ⟨settled ++ [s], by rwa [List.append_nil], .one (Or.inr ?_)⟩
      exact ⟨x, i, attempt, rfl, by simpa using stray, at_, same⟩

theorem step_accounts (account : Account past loop settled) {e : IntentEvent}
    {r : DeviceState × IntentLoop × List Effect} (h : loop.step now wedge store e = some r) :
    ∃ settled', Account (past ++ r.2.2) r.2.1 settled' ∧
      Grows (loop.Strays e) settled settled' := by
  cases step_stepped h with
  | @take i rest free queue =>
    obtain ⟨quiet, owned, same, first⟩ := enter_goes_on (i := i) now wedge
      { loop with queue := rest }
    refine ⟨settled, account.goes_on quiet ?_ ?_ ?_, .kept⟩
    · rw [owned]
      simp [owners, free, queue]
    · simp [same, queue]
    · intro current underway
      rw [free] at underway
      cases underway with
      | idle => exact first
  | @waited i wakeAt at_ =>
    obtain ⟨quiet, owned, same, first⟩ := enter_goes_on (i := i) now wedge loop
    refine ⟨settled, account.goes_on quiet ?_ (congrArg List.length same).le ?_, .kept⟩
    · rw [owned]
      simp [owners, at_]
    · intro current underway
      rw [at_] at underway
      cases underway with
      | coolingDown => exact first
  | @retried i attempt wakeAt at_ =>
    refine ⟨settled, account.goes_on rfl (by simp [submitWrite, owners, at_]) le_rfl ?_, .kept⟩
    intro current underway
    rw [at_] at underway
    cases underway with
    | backingOff retries =>
      have again : i.writes (attempt + 1) ++ [(i, .write i.address i.data)] =
          i.writes (attempt + 1 + 1) := List.replicate_succ'.symm
      show Underway (some (i, .writing (attempt + 1))) (i.writes (attempt + 1) ++ _)
      rw [show conversation _ = [(i, Call.write i.address i.data)] from rfl, again]
      exact .writing retries
  | written at_ => exact written_accounts account at_
  | @readBack i data at_ =>
    refine ⟨settled, account.goes_on rfl (by simp [share, owners, at_]) le_rfl ?_, .kept⟩
    intro current underway
    rw [at_] at underway
    rw [show conversation _ = [] from rfl, List.append_nil]
    cases underway with
    | reading retries => exact .broadcasting retries
  | @readFailed i x at_ =>
    refine ⟨settled, account.goes_on rfl (by simp [share, owners, at_]) le_rfl ?_, .kept⟩
    intro current underway
    rw [at_] at underway
    rw [show conversation _ = [] from rfl, List.append_nil]
    cases underway with
    | reading retries => exact .broadcasting retries
  | @readLost i x at_ =>
    obtain ⟨s, read, after⟩ := settles_read account at_ fun current underway => by
      cases underway with
      | reading retries => exact ⟨_, retries, rfl⟩
    exact ⟨settled ++ [s], by rwa [List.append_nil], Grows.one (Or.inl read)⟩
  | @shared i at_ =>
    obtain ⟨s, read, after⟩ := settles_read account at_ fun current underway => by
      cases underway with
      | broadcasting retries => exact ⟨_, retries, rfl⟩
    exact ⟨settled ++ [s], by rwa [List.append_nil], Grows.one (Or.inl read)⟩

end IntentLoop

/- The other tasks say nothing for an intent. -/

namespace Poller

variable {cfg : BrokerConfig} {now : ℚ} {d : Device} {p : Poller}

theorem share_silent : conversation (p.share cfg now d).2.2 = [] := by
  unfold share
  split <;> rfl

theorem failed_silent : conversation (p.failed cfg now d).2.2 = [] := by
  simp only [failed]
  split
  · rfl
  · exact share_silent

theorem readLive_silent {registers : List (Nat × Nat)} :
    conversation (p.readLive cfg now d registers).2.2 = [] := by
  cases registers with
  | nil => exact share_silent
  | cons register rest => rfl

theorem turn_silent {readSettings : Bool} :
    conversation (p.turn cfg now d readSettings).2.2 = [] := by
  unfold turn pollOnce
  split
  · rfl
  · split
    · rfl
    · split
      · rfl
      · exact readLive_silent

theorem probed_silent {data : List Int} : conversation (p.probed cfg now d data).2.2 = [] := by
  rcases outcome : d.wedge.recordProbeSuccess now with ⟨resumed, wedge⟩
  simp only [probed, outcome]
  cases resumed <;> exact share_silent

theorem step_silent {wants : Bool} {e : PollEvent} {r : Device × Poller × List Effect}
    (h : p.step cfg now wants d e = some r) : conversation r.2.2 = [] := by
  cases step_stepped h with
  | slept | broadcast | relapsed => rfl
  | turned => exact turn_silent
  | probed => exact probed_silent
  | settings | live => exact readLive_silent
  | failed => exact failed_silent
  | closed => exact share_silent

end Poller

theorem publish_unspoken (now : ℚ) (store : DeviceState) :
    conversation (publish now store).2 = [] := by
  unfold publish
  split <;> rfl

theorem CommandLoop.step_silent {now : ℚ} {store : DeviceState} {loop : CommandLoop}
    {e : CommandEvent} {r : DeviceState × CommandLoop × Option Exc × List Effect}
    (h : loop.step now store e = some r) : conversation r.2.2.2 = [] := by
  have failed : ∀ x, conversation (loop.failed store x).2.2.2 = [] := by
    intro x
    unfold CommandLoop.failed
    split <;> rfl
  cases step_stepped h with
  | take =>
    unfold take
    split <;> rfl
  | wrote => rfl
  | writeFailed | readFailed => exact failed _
  | readBack => exact publish_unspoken now _

theorem dispatch_silent (raw : Python.Text) : conversation (dispatch raw) = [] := by
  unfold dispatch
  split
  · rfl
  · split <;> rfl

namespace Broker

variable {cfg : BrokerConfig} {b b' : Broker} {e : Event} {effects : List Effect}

/-- What a step of the broker is for the write-intents: one of their loop, an admission, or none. -/
inductive Concerns (b : Broker) : Event → Broker → List Effect → Prop where
  | intent {e : IntentEvent} {store : DeviceState} {loop : IntentLoop} {b' : Broker}
      {effects : List Effect} (same : b'.intents = loop)
      (stepped : b.intents.step b.now b.device.wedge b.device.store e =
        some (store, loop, effects)) : Concerns b (.intent e) b' effects
  | admits {frame : WsFrame} {i : Intent} {b' : Broker} {effects : List Effect}
      (admitted : validate frame = some i) (room : b.intents.queue.length < intentQueueMax)
      (one : R60V.admitted effects = [i]) (silent : conversation effects = [])
      (same : b'.intents = { b.intents with queue := b.intents.queue ++ [i] }) :
      Concerns b (.wsCommand frame) b' effects
  | none {e : Event} {b' : Broker} {effects : List Effect}
      (quiet : R60V.admitted effects = []) (silent : conversation effects = [])
      (same : b'.intents = b.intents) : Concerns b e b' effects

theorem step_concerns (h : step cfg b e = some (b', effects)) : b.Concerns e b' effects := by
  have quiet : (∀ frame, e ≠ .wsCommand frame) → R60V.admitted effects = [] := by
    intro other
    cases step_changes h with
    | segment segment _ => exact admitted_nil segment.accepted
    | written _ _ segment _ => exact admitted_nil segment.accepted
    | lost _ _ _ _ => rfl
    | accepted _ _ _ _ => exact absurd rfl (other _)
  cases (step_stepped h).2 with
  | poll polled => exact .none (quiet (by simp)) (Poller.step_silent polled) rfl
  | publish => exact .none (quiet (by simp)) (publish_unspoken b.now b.device.store) rfl
  | command commanded => exact .none (quiet (by simp)) (CommandLoop.step_silent commanded) rfl
  | intent applied => exact .intent rfl applied
  | frontendFrame => exact .none (quiet (by simp)) (dispatch_silent _) rfl
  | advance | subscribe | unsubscribe | mqttMessage => exact .none (quiet (by simp)) rfl rfl
  | @wsCommand frame _ _ _ _ received =>
    unfold IntentLoop.onWsCommand at received
    split at received
    · cases received
      exact .none rfl rfl rfl
    · rename_i admitted
      split at received
      · rename_i room
        cases received
        exact .admits admitted room rfl rfl rfl
      · cases received
        exact .none rfl rfl rfl

theorem step_accounts {past : List Effect} {settled : List Settled}
    (account : Account past b.intents settled) (h : step cfg b e = some (b', effects)) :
    ∃ settled', Account (past ++ effects) b'.intents settled' ∧
      Grows (fun d => ∃ e', e = .intent e' ∧ b.intents.Strays e' d) settled settled' := by
  cases step_concerns h with
  | intent same stepped =>
    obtain ⟨settled', after, grows⟩ := IntentLoop.step_accounts account stepped
    exact ⟨settled', same ▸ after, grows.imp fun d strays => ⟨_, rfl, strays⟩⟩
  | admits _ room one silent same =>
    exact ⟨settled, same ▸ account.admits room one silent, .kept⟩
  | none quiet silent same =>
    refine ⟨settled, account.goes_on quiet (by rw [same]) (by rw [same]) ?_, .kept⟩
    intro current underway
    rwa [silent, List.append_nil, same]

/-- In a run, the loop strays at this intent, when the ones before it have been settled. -/
def Abandons (ms : List (Move Broker Event Effect)) (earlier : List Settled) (d : Settled) : Prop :=
  ∃ front m back, ms = front ++ m :: back ∧
    Account (outputs front) m.before.intents earlier ∧
    ∃ e, m.event = .intent e ∧ m.before.intents.Strays e d

theorem Abandons.snoc {ms : List (Move Broker Event Effect)} {earlier : List Settled} {d : Settled}
    (abandons : Abandons ms earlier d) (m : Move Broker Event Effect) :
    Abandons (ms ++ [m]) earlier d := by
  obtain ⟨front, m', back, rfl, account, strays⟩ := abandons
  exact ⟨front, m', back ++ [m], by simp, account, strays⟩

/-- **Every intent is settled in its turn**: in every run the admitted intents are those that are
settled, the one under way and those that wait, in the order of their admission, of which there
are never more than `intentQueueMax`; the jobs of one come after those of the one before, its write
is tried once and at most `writeRetries` times more, and then the settings are read back once,
unless this very write has failed with an exception that is none of the client's own: then they
are not. -/
theorem intents_settled_in_turn {ms : List (Move Broker Event Effect)} {s : Broker}
    (run : Run (step cfg) (start cfg) ms s) :
    ∃ settled, Account (outputs ms) s.intents settled ∧
      ∀ earlier d later, settled = earlier ++ d :: later →
        d.readBack = true ∨ Abandons ms earlier d := by
  induction run with
  | nil => exact ⟨[], .start, by simp⟩
  | @snoc ms b b' e effects _ h ih =>
    obtain ⟨settled, account, each⟩ := ih
    have old : ∀ earlier d later, settled = earlier ++ d :: later → d.readBack = true ∨
        Abandons (ms ++ [⟨b, e, effects, b'⟩]) earlier d := fun earlier d later whole =>
      (each earlier d later whole).imp_right fun abandons => abandons.snoc _
    obtain ⟨settled', after, grows⟩ := step_accounts account h
    refine ⟨settled', by rwa [Runs.outputs_snoc], ?_⟩
    cases grows with
    | kept => exact old
    | @one last reason =>
      intro earlier d later whole
      rcases Runs.snoc_eq_split whole with ⟨rfl, rfl, rfl⟩ | ⟨init, rfl, cut⟩
      · exact reason.imp_right fun strays => ⟨ms, _, [], rfl, account, strays⟩
      · exact old earlier d init cut

/-- The first setpoint is settled, the second waits. -/
theorem first_setpoint_settled :
    ∃ ms s, Run (step pushConfig) (start pushConfig) ms s ∧ s.intents.owners = [⟨2, [90]⟩] ∧
      ∃ settled, Account (outputs ms) s.intents settled ∧
        ∀ earlier d later, settled = earlier ++ d :: later →
          d.readBack = true ∨ Abandons ms earlier d := by
  have fed : (feed (step pushConfig) (start pushConfig) (setpoints [100, 90] ++
      [.intent .take, .intent (.write (.error refused)), .advance 1, .intent .wake,
        .intent (.write (.ok ())), .intent (.read (.ok (List.replicate 115 0))),
        .intent .resume])).any (fun r => r.1.intents.owners == [⟨2, [90]⟩]) = true := by
    decide +kernel
  obtain ⟨ms, s, run, _, waits⟩ := Runs.feed_reaches fed
  exact ⟨ms, s, run, beq_iff_eq.mp waits, intents_settled_in_turn run⟩

end Broker

end R60V
