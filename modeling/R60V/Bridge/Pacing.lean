import R60V.Bridge.Upstream
import R60V.Lib.Spacing

/-! The way upstream on a clock. The governor throttles its operations and the client paces its
frames, each by a sleep that waits out a gap since it last acted; a sleep does not end early. -/
namespace R60V

open Runs (Run Move outputs)
open Spacing (due)

structure PaceConfig where
  -- `DeviceGovernor.min_interval` and `R60VClient.request_gap`.
  minInterval : ℚ
  requestGap : ℚ

/-- The way upstream, `time.monotonic()` and what is remembered of it. -/
structure Clocked where
  upstream : Upstream
  now : ℚ
  lastRequestAt : ℚ
  lastOpAt : ℚ
  -- When the sleeps end that began last.
  paceUntil : ℚ
  throttleUntil : ℚ

inductive ClockedEvent where
  | advance (d : ℚ)
  | upstream (e : UpstreamEvent)

/-- An operation that sleeps in `_pace`. -/
def Pending.pacing (p : Pending) : Bool :=
  match p.stage with
  | .waiting => false
  | .holding r => r.point matches .exchange _ _ .pace

@[simp] def UpstreamEffect.isSend : UpstreamEffect → Bool
  | .act (.send _ _) => true
  | _ => false

@[simp] def UpstreamEffect.isBegin : UpstreamEffect → Bool
  | .governed (.began _) => true
  | _ => false

namespace Upstream

def paces (s : Upstream) (i : Nat) : Bool := s.calls[i]?.any Pending.pacing

/-- The event ends a sleep of `_pace`. -/
def wakes (s : Upstream) : UpstreamEvent → Bool
  | .resume i .done => s.paces i
  | _ => false

/-- The operation that the event takes on sleeps in `_pace` after it. -/
def settlesDown (after : Upstream) : UpstreamEvent → Bool
  | .acquire i | .resume i _ => after.paces i
  | _ => false

end Upstream

namespace Clocked

-- Both times are `0.0` at first.
def start (boot : ℚ) : Clocked := ⟨.start, boot, 0, 0, boot, boot⟩

-- The event would end a sleep that is not over.
def early (c : Clocked) (e : UpstreamEvent) : Bool :=
  c.upstream.wakes e && c.now < c.paceUntil ||
    e matches .throttled && c.now < c.throttleUntil

/-- `_pace` and `_throttle` read the clock when they begin to sleep; what they wait for is
remembered when they have slept. -/
def after (pace : PaceConfig) (c : Clocked) (e : UpstreamEvent) (upstream : Upstream) : Clocked :=
  let lastRequestAt := if c.upstream.wakes e then c.now else c.lastRequestAt
  { upstream
    now := c.now
    lastRequestAt
    lastOpAt := if e matches .throttled then c.now else c.lastOpAt
    paceUntil :=
      if upstream.settlesDown e then due pace.requestGap lastRequestAt c.now else c.paceUntil
    throttleUntil :=
      if e matches .take then due pace.minInterval c.lastOpAt c.now else c.throttleUntil }

def step (cfg : ClientConfig) (pace : PaceConfig) (c : Clocked) :
    ClockedEvent → Option (Clocked × List (ℚ × UpstreamEffect))
  | .advance d => if 0 ≤ d then some ({ c with now := c.now + d }, []) else none
  | .upstream e =>
    if c.early e then none
    else (c.upstream.step cfg e).map fun next =>
      (c.after pace e next.1, next.2.map (c.now, ·))

abbrev Trace := List (Move Clocked ClockedEvent (ℚ × UpstreamEffect))

def stamp (p : UpstreamEffect → Bool) (o : ℚ × UpstreamEffect) : Option ℚ :=
  if p o.2 then some o.1 else none

/-- When frames have been written, and when the worker has begun operations. -/
def sendTimes (ms : Trace) : List ℚ := (outputs ms).filterMap (stamp UpstreamEffect.isSend)

def beginTimes (ms : Trace) : List ℚ := (outputs ms).filterMap (stamp UpstreamEffect.isBegin)

/-- What a step can do: time goes by, or the way upstream takes a step that is not early. -/
inductive Stepped (cfg : ClientConfig) (pace : PaceConfig) (c : Clocked) :
    ClockedEvent → Clocked → List (ℚ × UpstreamEffect) → Prop where
  | advance {d : ℚ} (forward : 0 ≤ d) :
      Stepped cfg pace c (.advance d) { c with now := c.now + d } []
  | upstream {e : UpstreamEvent} {t : Upstream} {effects : List UpstreamEffect}
      (onTime : c.early e = false) (h : c.upstream.step cfg e = some (t, effects)) :
      Stepped cfg pace c (.upstream e) (c.after pace e t) (effects.map (c.now, ·))

variable {cfg : ClientConfig} {pace : PaceConfig} {c d : Clocked} {e : ClockedEvent}
  {effects : List (ℚ × UpstreamEffect)}

theorem step_stepped (h : c.step cfg pace e = some (d, effects)) :
    Stepped cfg pace c e d effects := by
  cases e with
  | advance d =>
    simp only [step] at h
    split at h
    · rename_i forward
      cases h
      exact .advance forward
    · cases h
  | upstream e =>
    simp only [step] at h
    split at h
    · cases h
    · rename_i onTime
      obtain ⟨next, stepped, same⟩ := Option.map_eq_some_iff.mp h
      cases same
      exact .upstream (by simpa using onTime) stepped

end Clocked

/- Frames go out where a sleep of `_pace` ends, and nowhere else. -/

def Quiet (acts : List Act) : Prop := ∀ id frame, .send id frame ∉ acts

namespace Client

variable {cfg : ClientConfig} {c : Client} {r : Request}

theorem drop_quiet : Quiet c.drop.2.1 := by
  intro id frame member
  unfold drop at member
  split at member
  · cases member
  · split at member <;> simp at member

theorem beginExchange_quiet (use : Use) : Quiet (c.beginExchange r use).2 := by
  intro id frame member
  unfold beginExchange at member
  split at member
  · cases member
  · split at member <;> cases member

theorem connect_quiet (backoff : ℚ) : Quiet (c.connect r backoff).2 := by
  intro id frame member
  unfold connect at member
  dsimp only at member
  split at member
  · exact drop_quiet id frame member
  · rcases List.mem_append.mp member with dropped | dials
    · exact drop_quiet id frame dropped
    · simp at dials

theorem ensureConnected_quiet : Quiet (c.ensureConnected cfg r).2 := by
  unfold ensureConnected
  split
  · exact beginExchange_quiet .main
  · exact connect_quiet _

theorem nextAttempt_quiet (e : Exc) : Quiet (c.nextAttempt cfg r e).2 := by
  unfold nextAttempt
  split
  · exact ensureConnected_quiet
  · simp [Quiet]

theorem exchangeFailed_quiet (use : Use) (e : Exc) : Quiet (c.exchangeFailed cfg r use e).2 := by
  cases use with
  | warmUp backoff =>
    simp only [exchangeFailed]
    split
    · simp [Quiet]
    · split
      · exact beginExchange_quiet .main
      · simp [Quiet]
  | main =>
    simp only [exchangeFailed]
    split
    · split
      · exact drop_quiet
      · intro id frame member
        rcases List.mem_append.mp member with dropped | later
        · exact drop_quiet id frame dropped
        · exact nextAttempt_quiet e id frame later
    · simp [Quiet]

theorem exchangeDone_quiet (use : Use) (f : Protocol.Frame) :
    Quiet (c.exchangeDone r use f).2 := by
  cases use with
  | warmUp backoff => exact beginExchange_quiet .main
  | main => simp [exchangeDone, Quiet]

/-- A request writes nothing when it is taken on, and one frame where a sleep of `_pace` ends. -/
theorem request_quiet {frame : Python.Text} {next : Client × List Act}
    (h : c.request cfg frame = some next) : Quiet next.2 := by
  unfold request at h
  split at h
  · cases h
  · cases h
    exact ensureConnected_quiet

theorem resume_sends {a : Answer} {next : Client × List Act} (running : c.task = .running r)
    (h : c.resume cfg a = some next) :
    Quiet next.2 ∨ (a = .done ∧ ∃ use attempt id, r.point = .exchange use attempt .pace ∧
      next.2 = [.send id (frameOf r use)]) := by
  cases resume_resumes running h with
  | dropped _ => exact Or.inl (by simp [Quiet])
  | opened _ | refused _ _ | ungreeted _ _ => exact Or.inl (by simp [Quiet])
  | greeted _ _ => exact Or.inl (beginExchange_quiet _)
  | retried _ => exact Or.inl (connect_quiet _)
  | redone _ => exact Or.inl (nextAttempt_quiet _)
  | exchanged here exchanges =>
    cases exchanges with
    | issued _ _ => exact Or.inr ⟨rfl, _, _, _, here, rfl⟩
    | unlinked _ | unencoded _ _ | readerless _ | unreadable _ _ | negative _ _ _ | drained _ _ _
    | swallowed _ =>
      exact Or.inl (by simp [Quiet])
    | replied _ _ => exact Or.inl (exchangeDone_quiet _ _)
    | undrained | garbled _ _ | silent _ | short | broken => exact Or.inl (exchangeFailed_quiet _ _)

end Client

namespace Upstream

variable {cfg : ClientConfig} {s t : Upstream} {e : UpstreamEvent} {effects : List UpstreamEffect}

theorem filter_quiet {acts : List Act} (quiet : Quiet acts) :
    (acts.map UpstreamEffect.act).filter UpstreamEffect.isSend = [] := by
  refine List.filter_eq_nil_iff.mpr fun effect member => ?_
  obtain ⟨act, here, rfl⟩ := List.mem_map.mp member
  cases act with
  | send id frame => exact absurd here (quiet id frame)
  | dial _ | hangUp _ => simp

theorem filter_governed (effects : List GovernorEffect) :
    (effects.map UpstreamEffect.governed).filter UpstreamEffect.isSend = [] := by
  refine List.filter_eq_nil_iff.mpr fun effect member => ?_
  obtain ⟨_, -, rfl⟩ := List.mem_map.mp member
  simp

theorem filter_acts (acts : List Act) :
    (acts.map UpstreamEffect.act).filter UpstreamEffect.isBegin = [] := by
  refine List.filter_eq_nil_iff.mpr fun effect member => ?_
  obtain ⟨_, -, rfl⟩ := List.mem_map.mp member
  simp

theorem filter_opening (s : Upstream) (a : Answer) (p : UpstreamEffect → Bool)
    (no : ∀ id, p (.opened id) = false) : (s.opening a).filter p = [] := by
  unfold opening
  split
  · simp [no]
  · rfl

theorem Advances.begins {i : Nat} {job : Job} {next : Client × List Act}
    {news : List UpstreamEffect} (advances : Advances cfg s e i job next news) :
    news.filter UpstreamEffect.isBegin = [] := by
  cases advances with
  | acquired _ _ _ => rfl
  | resumed _ _ => exact filter_opening s _ _ fun _ => rfl

/-- What the client has written when it takes an operation on. -/
theorem Advances.sends {i : Nat} {job : Job} {next : Client × List Act}
    {news : List UpstreamEffect} (advances : Advances cfg s e i job next news) :
    (news ++ next.2.map UpstreamEffect.act).filter UpstreamEffect.isSend = [] ∨
      s.wakes e = true ∧ ∃ id frame,
        (news ++ next.2.map UpstreamEffect.act).filter UpstreamEffect.isSend =
          [.act (.send id frame)] := by
  cases advances with
  | acquired here free h => exact Or.inl (filter_quiet (Client.request_quiet h))
  | @resumed _ _ r a _ here h =>
    rw [List.filter_append, filter_opening s a _ fun _ => rfl, List.nil_append]
    rcases Client.resume_sends rfl h with quiet | ⟨rfl, use, attempt, id, at_, acts⟩
    · exact Or.inl (filter_quiet quiet)
    · refine Or.inr ⟨?_, id, _, by rw [acts]; rfl⟩
      simp [wakes, paces, here, Pending.pacing, at_]

/-- A step writes nothing, or ends a sleep of `_pace` and writes one frame. -/
theorem step_sends (h : s.step cfg e = some (t, effects)) :
    effects.filter UpstreamEffect.isSend = [] ∨
      s.wakes e = true ∧ ∃ id frame,
        effects.filter UpstreamEffect.isSend = [.act (.send id frame)] := by
  cases step_stepped h with
  | governed _ _ => exact Or.inl (filter_governed _)
  | goesOn advances _ => exact advances.sends
  | returns advances _ _ =>
    rw [← List.append_assoc, List.filter_append, filter_governed, List.append_nil]
    exact advances.sends
  | closed =>
    refine Or.inl (filter_quiet ?_)
    exact Client.drop_quiet
  | lost _ _ => exact Or.inl rfl

/-- The worker begins an operation where its throttle ends, and nowhere else. -/
theorem step_begins (h : s.step cfg e = some (t, effects)) :
    effects.filter UpstreamEffect.isBegin = [] ∨
      e = .throttled ∧ ∃ job, s.governor.worker = .throttling job ∧
        effects.filter UpstreamEffect.isBegin = [.governed (.began job)] := by
  cases step_stepped h with
  | @governed e ge next of began =>
    obtain ⟨g, more⟩ := next
    cases Governor.step_stepped began with
    | submit | cancel _ | take _ _ | settled _ _ | abandoned _ _ => exact Or.inl rfl
    | throttled waits =>
      refine Or.inr ⟨?_, _, waits, rfl⟩
      cases e <;> simp_all [UpstreamEvent.governed]
  | goesOn advances _ =>
    left
    rw [List.filter_append, filter_acts, advances.begins]
    rfl
  | @returns e i job next news frame result after advances _ ended =>
    left
    rw [List.filter_append, List.filter_append, filter_acts, advances.begins]
    obtain ⟨g, more⟩ := after
    cases Governor.step_stepped ended with
    | settled _ _ | abandoned _ _ => rfl
  | closed => exact Or.inl (filter_acts _)
  | lost _ _ => exact Or.inl rfl

/-- An operation that sleeps in `_pace` has begun to with this step, or has slept before it. -/
theorem step_pacing {ms : Trace} (sound : Sound ms s) (h : s.step cfg e = some (t, effects))
    {p : Pending} (member : p ∈ t.calls) (pacing : p.pacing = true) :
    t.settlesDown e = true ∨ t.settlesDown e = false ∧ s.wakes e = false ∧ p ∈ s.calls := by
  cases step_stepped h with
  | @governed e ge next of _ =>
    right
    have old : p ∈ s.calls := by
      rcases List.mem_append.mp member with old | new
      · exact old
      · obtain ⟨job, -, rfl⟩ := List.mem_map.mp new
        cases pacing
    cases e with
    | submit _ _ | cancel _ | take | throttled => exact ⟨rfl, rfl, old⟩
    | acquire _ | resume _ _ | closeLink | lost => cases of
  | @goesOn e i job next news r advances _ =>
    left
    obtain ⟨stage, here⟩ := advances.here
    obtain ⟨rfl, only⟩ := sound.calls_eq here
    simp only [only, List.set_cons_zero, List.mem_singleton] at member
    subst member
    cases advances with
    | acquired _ _ _ | resumed _ _ => simpa [settlesDown, paces, only] using pacing
  | @returns e i job next news frame result after advances _ _ =>
    obtain ⟨stage, here⟩ := advances.here
    obtain ⟨rfl, only⟩ := sound.calls_eq here
    simp [only] at member
  | closed => exact Or.inr ⟨rfl, rfl, member⟩
  | lost _ _ => exact Or.inr ⟨rfl, rfl, member⟩

/-- A worker that is in its throttle has just taken its job, or was there before. -/
theorem step_throttling (h : s.step cfg e = some (t, effects)) {job : Job}
    (waits : t.governor.worker = .throttling job) :
    e = .take ∨ e ≠ .throttled ∧ e ≠ .take ∧ s.governor.worker = .throttling job := by
  cases step_stepped h with
  | @governed e ge next of stepped =>
    obtain ⟨g, more⟩ := next
    cases Governor.step_stepped stepped with
    | take _ _ =>
      left
      cases e <;> simp_all [UpstreamEvent.governed]
    | submit | cancel _ =>
      right
      refine ⟨?_, ?_, waits⟩ <;> rintro rfl <;> cases of
    | throttled _ | settled _ _ | abandoned _ _ => cases waits
  | goesOn advances _ =>
    right
    cases advances with
    | acquired _ _ _ | resumed _ _ => exact ⟨by simp, by simp, waits⟩
  | returns advances _ ended =>
    obtain ⟨-, free, -⟩ := Governor.step_done ended
    rw [free] at waits
    cases waits
  | closed | lost _ _ => exact Or.inr ⟨by simp, by simp, waits⟩

theorem wakes_pacing (wakes : s.wakes e = true) : ∃ p ∈ s.calls, p.pacing = true := by
  unfold Upstream.wakes at wakes
  split at wakes
  · obtain ⟨p, here, pacing⟩ := (Option.any_eq_true _ _).mp wakes
    exact ⟨p, List.mem_of_getElem? here, pacing⟩
  · cases wakes

end Upstream

namespace Clocked

variable {cfg : ClientConfig} {pace : PaceConfig} {c d : Clocked} {e : ClockedEvent}
  {effects : List (ℚ × UpstreamEffect)}

/-- Who sleeps does so until its gap is over, and no longer. -/
structure Kept (pace : PaceConfig) (c : Clocked) : Prop where
  sound : ∃ ms, Upstream.Sound ms c.upstream
  requested : c.lastRequestAt ≤ c.now
  operated : c.lastOpAt ≤ c.now
  paced : ∀ p ∈ c.upstream.calls, p.pacing = true →
    c.lastRequestAt + pace.requestGap ≤ c.paceUntil
  throttled : ∀ job, c.upstream.governor.worker = .throttling job →
    c.lastOpAt + pace.minInterval ≤ c.throttleUntil
  prompt : (c.paceUntil ≤ c.now ∨ c.paceUntil ≤ c.lastRequestAt + pace.requestGap) ∧
    (c.throttleUntil ≤ c.now ∨ c.throttleUntil ≤ c.lastOpAt + pace.minInterval)

theorem kept_start {boot : ℚ} (up : 0 ≤ boot) : Kept pace (start boot) where
  sound := ⟨[], .start⟩
  requested := up
  operated := up
  paced := by simp [start, Upstream.start]
  throttled := by simp [start, Upstream.start, Governor.start]
  prompt := ⟨Or.inl le_rfl, Or.inl le_rfl⟩

theorem woken {u : UpstreamEvent} (onTime : c.early u = false)
    (wakes : c.upstream.wakes u = true) : c.paceUntil ≤ c.now := by
  simpa [early, wakes] using (Bool.or_eq_false_iff.mp onTime).1

theorem released (onTime : c.early .throttled = false) : c.throttleUntil ≤ c.now := by
  simpa [early] using (Bool.or_eq_false_iff.mp onTime).2

theorem step_kept (kept : Kept pace c) (h : c.step cfg pace e = some (d, effects)) :
    Kept pace d := by
  obtain ⟨ms, sound⟩ := kept.sound
  cases step_stepped h with
  | @advance d forward =>
    refine ⟨kept.sound, ?_, ?_, kept.paced, kept.throttled, ?_, ?_⟩
    · exact kept.requested.trans (le_add_of_nonneg_right forward)
    · exact kept.operated.trans (le_add_of_nonneg_right forward)
    · exact kept.prompt.1.imp_left fun past => past.trans (le_add_of_nonneg_right forward)
    · exact kept.prompt.2.imp_left fun past => past.trans (le_add_of_nonneg_right forward)
  | @upstream u t effects onTime stepped =>
    have requested : (c.after pace u t).lastRequestAt ≤ c.now := by
      simp only [after]
      split
      · exact le_rfl
      · exact kept.requested
    refine ⟨⟨_, Upstream.step_sound sound stepped⟩, requested, ?_, ?_, ?_, ?_, ?_⟩
    · simp only [after]
      split
      · exact le_rfl
      · exact kept.operated
    · intro p member pacing
      rcases Upstream.step_pacing sound stepped member pacing with
        settles | ⟨settled, asleep, old⟩
      · simp only [after, settles, if_true] at requested ⊢
        exact Spacing.due_spec requested
      · simp only [after, settled, asleep]
        exact kept.paced p old pacing
    · intro job waits
      rcases Upstream.step_throttling stepped waits with rfl | ⟨other, later, old⟩
      · exact Spacing.due_spec kept.operated
      · have same : (c.after pace u t).lastOpAt = c.lastOpAt ∧
            (c.after pace u t).throttleUntil = c.throttleUntil := by
          cases u <;> simp_all [after]
        rw [same.1, same.2]
        exact kept.throttled job old
    · simp only [after]
      split
      · exact Spacing.due_le _ _ _
      · split
        · rename_i wakes
          exact Or.inl (woken onTime wakes)
        · exact kept.prompt.1
    · cases u with
      | take => exact Spacing.due_le _ _ _
      | throttled => exact Or.inl (released onTime)
      | submit _ _ | cancel _ | acquire _ | resume _ _ | closeLink | lost => exact kept.prompt.2

theorem stamped (p : UpstreamEffect → Bool) (now : ℚ) (effects : List UpstreamEffect) :
    (effects.map (now, ·)).filterMap (stamp p) = (effects.filter p).map fun _ => now := by
  induction effects with
  | nil => rfl
  | cons effect effects ih =>
    rw [List.map_cons, List.filterMap_cons, List.filter_cons]
    cases counts : p effect with
    | true => simp [stamp, counts, ih]
    | false => simp [stamp, counts, ih]

theorem step_spaces_requests (kept : Kept pace c) (h : c.step cfg pace e = some (d, effects)) :
    (effects.filterMap (stamp UpstreamEffect.isSend) = [] ∧
        c.lastRequestAt ≤ d.lastRequestAt) ∨
      (effects.filterMap (stamp UpstreamEffect.isSend) = [d.lastRequestAt] ∧
        c.lastRequestAt + pace.requestGap ≤ d.lastRequestAt ∧
          c.lastRequestAt ≤ d.lastRequestAt) := by
  cases step_stepped h with
  | advance _ => exact Or.inl ⟨rfl, le_rfl⟩
  | @upstream u t effects onTime stepped =>
    have up : c.lastRequestAt ≤ (c.after pace u t).lastRequestAt := by
      simp only [after]
      split
      · exact kept.requested
      · exact le_rfl
    rw [stamped]
    rcases Upstream.step_sends stepped with quiet | ⟨wakes, id, frame, one⟩
    · rw [quiet]
      exact Or.inl ⟨rfl, up⟩
    · obtain ⟨p, member, pacing⟩ := Upstream.wakes_pacing wakes
      have same : (c.after pace u t).lastRequestAt = c.now := by simp only [after, wakes, if_true]
      rw [one, same]
      exact Or.inr ⟨rfl, (kept.paced p member pacing).trans (woken onTime wakes),
        kept.requested⟩

theorem step_spaces_operations (kept : Kept pace c) (h : c.step cfg pace e = some (d, effects)) :
    (effects.filterMap (stamp UpstreamEffect.isBegin) = [] ∧ c.lastOpAt ≤ d.lastOpAt) ∨
      (effects.filterMap (stamp UpstreamEffect.isBegin) = [d.lastOpAt] ∧
        c.lastOpAt + pace.minInterval ≤ d.lastOpAt ∧ c.lastOpAt ≤ d.lastOpAt) := by
  cases step_stepped h with
  | advance _ => exact Or.inl ⟨rfl, le_rfl⟩
  | @upstream u t effects onTime stepped =>
    rw [stamped]
    rcases Upstream.step_begins stepped with quiet | ⟨rfl, job, waits, one⟩
    · rw [quiet]
      refine Or.inl ⟨rfl, ?_⟩
      simp only [after]
      split
      · exact kept.operated
      · exact le_rfl
    · rw [one]
      exact Or.inr ⟨rfl, (kept.throttled job waits).trans (released onTime), kept.operated⟩

/-- The frames and the operations of a run keep their distance, so that only so many of them fall
into an interval; and nobody sleeps longer than that takes. -/
structure Spaced (pace : PaceConfig) (ms : Trace) (c : Clocked) : Prop where
  requests : (sendTimes ms).Pairwise fun x y => x + pace.requestGap ≤ y
  operations : (beginTimes ms).Pairwise fun x y => x + pace.minInterval ≤ y
  crowd : ∀ a b, a ≤ b → 0 ≤ pace.requestGap →
    ((sendTimes ms).filter fun x => a ≤ x ∧ x ≤ b).length * pace.requestGap ≤
      b - a + pace.requestGap
  prompt : (c.paceUntil ≤ c.now ∨ c.paceUntil ≤ c.lastRequestAt + pace.requestGap) ∧
    (c.throttleUntil ≤ c.now ∨ c.throttleUntil ≤ c.lastOpAt + pace.minInterval)

/-- Whatever is retried, reconnected, warmed up, closed or lost in a run, no two frames are
written and no two operations are begun at a shorter distance than is configured. -/
theorem frames_spaced {boot : ℚ} (up : 0 ≤ boot) {ms : Trace}
    (run : Run (step cfg pace) (start boot) ms c) : Spaced pace ms c := by
  have preserved : ∀ s e t os, Kept pace s → step cfg pace s e = some (t, os) → Kept pace t :=
    fun _ _ _ _ kept h => step_kept kept h
  have requests := Spacing.Run.spaced (Kept pace) lastRequestAt (stamp UpstreamEffect.isSend)
    pace.requestGap (kept_start up) preserved
    (fun _ _ _ _ kept h => step_spaces_requests kept h) run
  have operations := Spacing.Run.spaced (Kept pace) lastOpAt (stamp UpstreamEffect.isBegin)
    pace.minInterval (kept_start up) preserved
    (fun _ _ _ _ kept h => step_spaces_operations kept h) run
  refine ⟨requests, operations, fun a b order nonneg => ?_,
    (run.invariant (Kept pace) (kept_start up) preserved).prompt⟩
  apply Spacing.crowd_le nonneg (requests.sublist List.filter_sublist) order
  intro x member
  simpa using (List.mem_filter.mp member).2

/-- The warm-up of a first connection is swallowed after 0.1 s and written again after 0.2 s. -/
theorem swallowed_warmUp_spaced : ∃ ms c, Run (step .default ⟨0, 1 / 5⟩) (start 100) ms c ∧
    sendTimes ms = [100, 100 + 1 / 5] ∧ Spaced ⟨0, 1 / 5⟩ ms c := by
  have reached : (Runs.feed (step .default ⟨0, 1 / 5⟩) (start 100) [
      .upstream (.submit 10 (.read 0 1)), .upstream .take, .upstream .throttled,
      .upstream (.acquire 0), .upstream (.resume 0 .opened),
      .upstream (.resume 0 (.bytes Protocol.hello)), .upstream (.resume 0 .done),
      .upstream (.resume 0 .done), .advance (1 / 10), .upstream (.resume 0 .timeout),
      .advance (1 / 10), .upstream (.resume 0 .done)]).any
      (fun r => sendTimes r.2 == [100, 100 + 1 / 5]) = true := by decide +kernel
  obtain ⟨ms, c, run, -, tested⟩ := Runs.feed_reaches reached
  exact ⟨ms, c, run, beq_iff_eq.mp tested, frames_spaced (by norm_num) run⟩

end Clocked

end R60V
