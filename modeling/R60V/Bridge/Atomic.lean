import R60V.Bridge.Ledger
import R60V.Bridge.World

/-! With the push channel as its only writer, the bridge is an atomic block of registers: a
write-intent takes effect when it is admitted, as far as any snapshot shows, while the machine gets
its write later, perhaps in part and several times. -/
namespace R60V

open Overlay (Dict cover blit replay newest Torn drifted Tracks)
open Protocol (settingsLen)
open Runs (Run Move Along outputs feed)

namespace IntentLoop

variable {now : ℚ} {store : DeviceState} {loop : IntentLoop}

/-- What the answer to a write leaves outstanding: its intent is done, or will be tried again. -/
theorem written_outstanding {i : Intent} {attempt : Nat} {result : Except Exc Unit}
    (current : loop.current = some (i, .writing attempt)) :
    (result.isOk = true →
      (loop.written now store i attempt result).2.1.outstanding = loop.queue) ∧
    ∀ x, result = .error x → x.isConnectionError = true → attempt < writeRetries →
      (loop.written now store i attempt result).2.1.outstanding = loop.outstanding := by
  cases result with
  | ok => exact ⟨fun _ => rfl, fun x failed => by cases failed⟩
  | error x =>
    refine ⟨fun ok => (by cases ok), fun y failed connection early => ?_⟩
    cases failed
    simp only [written, connection, if_true, early]
    rw [outstanding_writing current]
    rfl

end IntentLoop

namespace Broker

variable {cfg : BrokerConfig} {b b' : Broker} {e : Event} {effects : List Effect}

theorem step_admits (h : step cfg b e = some (b', effects)) :
    (∃ frame i, e = .wsCommand frame ∧ admitted effects = [i] ∧
      b'.intents.outstanding = b.intents.outstanding ++ [i]) ∨
    (admitted effects = [] ∧ ((∀ result, e ≠ .intent (.write result)) →
      b'.intents.outstanding = b.intents.outstanding)) := by
  cases step_changes h with
  | segment segment outstanding =>
    exact Or.inr ⟨admitted_nil segment.accepted, fun _ => outstanding⟩
  | @written _ _ result _ _ _ _ segment _ =>
    exact Or.inr ⟨admitted_nil segment.accepted, fun other => absurd rfl (other result)⟩
  | @lost _ _ x _ _ _ _ _ => exact Or.inr ⟨rfl, fun other => absurd rfl (other (.error x))⟩
  | @accepted frame i _ _ _ _ intents =>
    refine Or.inl ⟨frame, i, rfl, rfl, ?_⟩
    rw [intents, IntentLoop.outstanding_append]

/-- What the answer to the write of an intent leaves outstanding. -/
theorem intent_written {result : Except Exc Unit}
    (h : step cfg b (.intent (.write result)) = some (b', effects)) :
    ∃ i attempt, b.intents.current = some (i, .writing attempt) ∧
      (result.isOk = true → b'.intents.outstanding = b.intents.queue) ∧
      ∀ x, result = .error x → x.isConnectionError = true → attempt < writeRetries →
        b'.intents.outstanding = b.intents.outstanding := by
  cases (step_stepped h).2 with
  | intent applied =>
    generalize left : (_, _, _) = r at applied
    cases IntentLoop.step_stepped applied with
    | written current =>
      have left' := congrArg (·.2.1) left
      have outstanding := @IntentLoop.written_outstanding b.now b.device.store _ _ _ result current
      rw [← left'] at outstanding
      exact ⟨_, _, current, outstanding⟩

end Broker

namespace World

variable {cfg : BrokerConfig} {w w' : World} {e : WorldEvent} {effects : List Effect}

theorem latest_eq_newest (is : List Intent) (x : Nat) :
    latest is x = newest (is.map writeOf) x := by
  induction is with
  | nil => rfl
  | cons i is ih => rw [latest, ih]; rfl

/-- The writes that the admitted intents ask for, in the order of their admission. -/
def requested (ms : List (Move World WorldEvent Effect)) : List (Int × List Int) :=
  (admitted (outputs ms)).map writeOf

def outstanding (w : World) : List (Int × List Int) :=
  w.broker.intents.outstanding.map writeOf

/-- A move in which nobody but the push channel writes, the store reflects what is accepted, a
failed write has a retry left, and one that ends spares the queued intents. -/
structure Sole (m : Move World WorldEvent Effect) : Prop where
  mine : ∀ block, m.event ≠ .others block
  push : ∀ result block, m.event ≠ .broker (.command (.write result)) block
  reflected : ∀ i, .accepted i false ∉ m.emits
  retried : ∀ x block i attempt, m.event = .broker (.intent (.write (.error x))) block →
    m.before.broker.intents.current = some (i, .writing attempt) →
      x.isConnectionError = true ∧ attempt < writeRetries
  spares : ∀ e block, m.event = .broker e block → m.before.broker.sparesQueued e

/-- The overlay has exactly the newest bytes of the intents that are outstanding, and these make
of the machine's registers what all admitted ones make of those at the start. -/
structure Atomic (block : List Int) (ms : List (Move World WorldEvent Effect)) (w : World) :
    Prop where
  tracked : w.Tracked
  owned : w.broker.Owned
  latest : w.broker.Latest
  replayed : replay w.outstanding w.block = replay (requested ms) block
  seen : (∃ data, .settingsRead data ∈ outputs ms) → w.drift = fun _ => false

section Sole

variable {block : List Int} {ms : List (Move World WorldEvent Effect)}

theorem Atomic.pending_eq (atomic : Atomic block ms w) (x : Nat) :
    w.pending.lookup x = newest w.outstanding x := by
  rw [outstanding, ← latest_eq_newest]
  cases newer : R60V.latest w.broker.intents.outstanding x with
  | some v => exact (atomic.latest.shows x v newer).2.1
  | none =>
    cases hit : w.pending.lookup x with
    | none => rfl
    | some v =>
      obtain ⟨i, member, byte⟩ := atomic.owned x v hit
      rw [latest_eq_newest] at newer
      have covers : cover (writeOf i).1 (writeOf i).2 x ≠ none := by
        rw [show cover (writeOf i).1 (writeOf i).2 x = some v from byte]
        exact Option.some_ne_none v
      exact absurd newer (Overlay.newest_ne_none (List.mem_map_of_mem member) covers)

theorem Atomic.shown_eq (atomic : Atomic block ms w)
    (read : ∃ data, .settingsRead data ∈ outputs ms) :
    w.shown = replay (requested ms) block := by
  have view := atomic.tracked
  rw [Tracked, atomic.seen read] at view
  rw [view.eq_patch, Overlay.patch_eq_replay atomic.pending_eq, atomic.replayed]

theorem Sole.strandsNothing {e : Event} {block : List Int}
    (sole : Sole ⟨w, .broker e block, effects, w'⟩) : w.broker.strandsNothing e := by
  unfold Broker.strandsNothing
  split
  · rename_i x
    intro stray i attempt current
    have failed := (sole.retried x block i attempt rfl current).1
    rw [stray] at failed
    cases failed
  · trivial

/-- Where no intent is outstanding the registers stay. -/
theorem Sole.unmasked {e : Event} {b : Broker} {block' : List Int}
    (sole : Sole ⟨w, .broker e block', effects, w'⟩)
    (serves : w.broker.serves e w.block block' = true)
    (stepped : w.broker.step cfg e = some (b, effects)) {x : Nat}
    (free : newest w.outstanding x = none) : block'[x]? = w.block[x]? := by
  by_cases written : ∃ result, e = .intent (.write result)
  · obtain ⟨result, rfl⟩ := written
    obtain ⟨i, attempt, current, -⟩ := Broker.intent_written stepped
    have member : writeOf i ∈ w.outstanding := by
      rw [outstanding, IntentLoop.outstanding_writing current]
      exact List.mem_map_of_mem List.mem_cons_self
    have away : cover (writeOf i).1 (writeOf i).2 x = none := by
      by_contra hit
      exact Overlay.newest_ne_none member hit free
    exact (Broker.serves_intent current serves).1.away away
  · have quiet := Broker.serves_quiet serves
      (fun result same => sole.push result block' (same ▸ rfl))
      fun result same => written ⟨result, same⟩
    rw [quiet]

theorem Sole.replays {e : Event} {b : Broker} {block' : List Int}
    (sole : Sole ⟨w, .broker e block', effects, w'⟩)
    (serves : w.broker.serves e w.block block' = true)
    (stepped : w.broker.step cfg e = some (b, effects)) :
    replay (b.intents.outstanding.map writeOf) block' =
      replay ((admitted effects).map writeOf) (replay w.outstanding w.block) := by
  by_cases written : ∃ result, e = .intent (.write result)
  · obtain ⟨result, rfl⟩ := written
    have none_ : admitted effects = [] := by
      rcases Broker.step_admits stepped with ⟨_, _, other, _⟩ | ⟨none_, _⟩
      · cases other
      · exact none_
    obtain ⟨i, attempt, current, done, again⟩ := Broker.intent_written stepped
    obtain ⟨torn, whole⟩ := Broker.serves_intent current serves
    have before : w.outstanding = writeOf i :: w.broker.intents.queue.map writeOf := by
      rw [outstanding, IntentLoop.outstanding_writing current, List.map_cons]
    rw [none_, List.map_nil, Overlay.replay_nil]
    cases result with
    | ok u => rw [done rfl, whole rfl, before, Overlay.replay_cons]
    | error x =>
      obtain ⟨connection, early⟩ := sole.retried x block' i attempt rfl current
      rw [again x rfl connection early, ← outstanding, before, Overlay.replay_torn torn]
  · have quiet := Broker.serves_quiet serves
      (fun result same => sole.push result block' (same ▸ rfl))
      fun result same => written ⟨result, same⟩
    rw [quiet]
    rcases Broker.step_admits stepped with ⟨_, i, -, one, more⟩ | ⟨none_, same⟩
    · rw [one, more, List.map_append]
      exact Overlay.replay_snoc _ _ _
    · rw [none_, same fun result same => written ⟨result, same⟩]
      rfl

/-- Where the overlay is lifted, a write has been done that has its byte. -/
theorem Sole.lifted {e : Event} {b : Broker} {block' : List Int}
    (sole : Sole ⟨w, .broker e block', effects, w'⟩)
    (serves : w.broker.serves e w.block block' = true)
    (stepped : w.broker.step cfg e = some (b, effects)) {x : Nat} {v : Int}
    (lifted : b.device.store.pending.lookup x = none) (hit : w.pending.lookup x = some v) :
    ∃ i, cover (writeOf i).1 (writeOf i).2 x = some v ∧
      block' = blit (writeOf i).1 (writeOf i).2 w.block := by
  have stays : b.device.store.pending ≠ w.pending := fun same => by
    rw [same, hit] at lifted
    cases lifted
  cases Broker.step_changes stepped with
  | segment segment _ => exact absurd segment.pending stays
  | accepted _ _ store _ =>
    rw [store, DeviceState.lookup_applyOptimistic] at lifted
    split at lifted
    · have below := (Option.or_eq_none_iff.mp lifted).2
      cases hit.symm.trans below
    · cases hit.symm.trans lifted
  | @written i attempt result _ _ current finished segment _ =>
    rw [segment.pending, lookup_reconcileClear] at lifted
    split at lifted
    · rename_i byte
      refine ⟨i, byte.trans hit, (Broker.serves_intent current serves).2 ?_⟩
      cases result with
      | ok => rfl
      | error y =>
        have late := (finished y rfl).2
        have early := (sole.retried y block' i attempt rfl current).2
        exact absurd early (not_lt.mpr late)
    · cases hit.symm.trans lifted
  | lost _ _ store _ => exact absurd (congrArg _ store) stays

/-- A step hands the store no settings, and leaves no register behind that it has seen. -/
theorem Sole.stays_seen {e : Event} {b : Broker} {block' : List Int}
    (sole : Sole ⟨w, .broker e block', effects, w'⟩) (atomic : Atomic block ms w)
    (serves : w.broker.serves e w.block block' = true)
    (stepped : w.broker.step cfg e = some (b, effects)) (x : Nat) :
    drifted w.pending b.device.store.pending w.block block' (fun _ => false) x = false := by
  have unmasked : w.pending.lookup x = none → block'[x]? = w.block[x]? := fun free =>
    sole.unmasked serves stepped (atomic.pending_eq x ▸ free)
  unfold drifted
  split
  · rfl
  · rename_i v lifted hit
    rw [bne_eq_false_iff_eq]
    obtain ⟨i, byte, whole⟩ := sole.lifted serves stepped lifted hit
    have newer := (atomic.pending_eq x).symm.trans hit
    rw [outstanding, ← latest_eq_newest] at newer
    have inside : x < w.block.length := by
      rw [← atomic.tracked.length]
      exact (atomic.latest.length.symm ▸ (atomic.latest.shows x v newer).1 : _)
    rw [whole, Overlay.getElem?_blit, List.getElem?_eq_getElem inside, Option.map_some, byte]
    rfl
  · rename_i free
    rw [Bool.false_or, bne_eq_false_iff_eq]
    exact unmasked free

theorem step_atomic (atomic : Atomic block ms w) (h : step cfg w e = some (w', effects))
    (sole : Sole ⟨w, e, effects, w'⟩) : Atomic block (ms ++ [⟨w, e, effects, w'⟩]) w' := by
  have tracked := step_tracked atomic.tracked h
  cases step_stepped h with
  | others => exact absurd rfl (sole.mine _)
  | @broker e block' b _ serves stepped =>
    refine ⟨tracked, ?_, ?_, ?_, ?_⟩
    · exact Broker.step_owned atomic.owned stepped sole.strandsNothing
    · exact Broker.step_latest atomic.latest stepped sole.reflected (sole.spares e block' rfl)
    · rw [requested, Runs.outputs_snoc, admitted_append, List.map_append, Overlay.replay_append,
        ← requested, ← atomic.replayed]
      exact sole.replays serves stepped
    · rintro ⟨data, member⟩
      rw [Runs.outputs_snoc, List.mem_append, Broker.settingsRead_iff stepped] at member
      funext x
      dsimp only
      split
      · rfl
      · rename_i unread
        rcases member with earlier | now
        · rw [atomic.seen ⟨data, earlier⟩]
          exact sole.stays_seen atomic serves stepped x
        · rw [now] at unread
          exact absurd rfl unread

theorem run_atomic (size : block.length = settingsLen)
    (run : Run (step cfg) (start cfg block) ms w) (sole : ∀ m ∈ ms, Sole m) :
    Atomic block ms w := by
  induction run with
  | nil =>
    exact {
      tracked := start_tracked cfg size
      owned := fun x v hit => by cases hit
      latest := ⟨List.length_replicate, fun x v newer => by cases newer⟩
      replayed := rfl
      seen := fun read => by
        obtain ⟨data, member⟩ := read
        cases member }
  | snoc _ h ih =>
    obtain ⟨earlier, last⟩ := Runs.forall_snoc.mp sole
    exact step_atomic (ih earlier) h last

/-- **The bridge is an atomic block of registers.** With the push channel as the only writer, and
writes that go through within their retries, every snapshot that is presented after the first
settings read is the block at the start with all intents admitted so far written to it, in
the order of their admission, whatever the tasks of the bridge and the machine have done of them;
and the machine has these registers itself once no intent is outstanding. -/
theorem atomic_block (size : block.length = settingsLen)
    (run : Run (step cfg) (start cfg block) ms w) (sole : ∀ m ∈ ms, Sole m) :
    Along (fun front m => (∃ data, .settingsRead data ∈ outputs (front ++ [m])) →
      ∀ shown ∈ carried m.emits, shown = replay (requested (front ++ [m])) block) ms ∧
    (w.broker.intents.outstanding = [] → w.block = replay (requested ms) block) := by
  constructor
  · rintro front m back rfl read shown presented
    have moved := run.move_step (List.mem_append_right front List.mem_cons_self)
    have upto := run.upto.snoc moved
    have atomic := run_atomic size upto fun m' member => by
      apply sole m'
      simp only [List.mem_append, List.mem_cons, List.not_mem_nil, or_false] at member ⊢
      tauto
    rw [step_carried moved presented]
    exact atomic.shown_eq read
  · intro idle
    rw [← (run_atomic size run sole).replayed, outstanding, idle]
    rfl

end Sole

def soleTest (m : Move World WorldEvent Effect) : Bool :=
  (m.emits.all fun e => match e with
    | .accepted _ reflected => reflected
    | _ => true) &&
  match m.event with
  | .others _ | .broker (.command _) _ => false
  | .broker (.intent (.write result)) _ =>
    m.before.broker.intents.queue.isEmpty && match result, m.before.broker.intents.current with
    | .error x, some (_, .writing attempt) => x.isConnectionError && attempt < writeRetries
    | _, _ => true
  | _ => true

theorem soleTest_sound {m : Move World WorldEvent Effect} (h : soleTest m = true) : Sole m := by
  obtain ⟨reflected, alone⟩ := Bool.and_eq_true_iff.mp h
  constructor
  · intro block same
    rw [same] at alone
    cases alone
  · intro result block same
    rw [same] at alone
    cases alone
  · intro i member
    cases List.all_eq_true.mp reflected _ member
  · intro x block i attempt same current
    simp only [same, current, Bool.and_eq_true, decide_eq_true_eq] at alone
    exact alone.2
  · intro e block same
    unfold Broker.sparesQueued
    split
    · simp only [same, Bool.and_eq_true, List.isEmpty_iff] at alone
      intro i attempt _ _ x v newer
      rw [alone.1] at newer
      cases newer
    · trivial

/-- A setpoint whose write fails half-way, is tried again, and is read back. -/
theorem torn_setpoint_atomic :
    ∃ ms w, Run (step Broker.pushConfig) (start Broker.pushConfig zeros) ms w ∧
      w.block = replay (requested ms) zeros ∧ w.block[2]? = some 100 ∧
      Along (fun front m => (∃ data, .settingsRead data ∈ outputs (front ++ [m])) →
        ∀ shown ∈ carried m.emits,
          shown = replay (requested (front ++ [m])) zeros) ms := by
  have fed : (feed (step Broker.pushConfig) (start Broker.pushConfig zeros)
      [.broker .subscribe zeros, .broker (.poll .wake) zeros,
        .broker (.poll (.read (.ok zeros))) zeros,
        .broker (.wsCommand [("address", .int 2), ("data", .list [.int 100, .int 120])]) zeros,
        .broker (.intent .take) zeros,
        .broker (.intent (.write (.error Broker.refused))) (zeros.set 2 100),
        .broker (.advance 1) (zeros.set 2 100), .broker (.intent .wake) (zeros.set 2 100),
        .broker (.intent (.write (.ok ()))) ((zeros.set 2 100).set 3 120),
        .broker (.intent (.read (.ok ((zeros.set 2 100).set 3 120))))
          ((zeros.set 2 100).set 3 120)]).any
      (fun r => r.1.broker.intents.outstanding.isEmpty && r.1.block[2]? == some 100 &&
        r.2.all soleTest) = true := by
    decide +kernel
  obtain ⟨ms, w, run, _, reached⟩ := Runs.feed_reaches fed
  simp only [Bool.and_eq_true, List.isEmpty_iff, beq_iff_eq, List.all_eq_true] at reached
  obtain ⟨⟨idle, set⟩, alone⟩ := reached
  have whole : zeros.length = settingsLen := List.length_replicate
  obtain ⟨shown, settled⟩ := atomic_block whole run fun m member => soleTest_sound (alone m member)
  exact ⟨ms, w, run, settled idle, set, shown⟩

end World

end R60V
