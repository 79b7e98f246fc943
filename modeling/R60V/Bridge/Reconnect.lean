import R60V.Bridge.Exchange
import R60V.Bridge.Broker
import R60V.Lib.Runs

/-! When a request comes to an end, and what that means for the poll cycle above it. An exchange
has a bounded number of tries and `request` two of those, but the loop that connects in front
of each has no bound: it ends with the first attempt that the machine lets through. And two awaits
have no timeout, that of `drain` and that of `wait_closed`. -/
namespace R60V

open Python (Text)
open Protocol (parseFrame Frame)
open StateTransition (Reaches Reaches₁ eval mem_eval)

namespace Machine

variable (m : Machine) (cfg : ClientConfig)

/-- Does an attempt get through `connect`? It is accepted and greeted, and no OS error cuts the
warm-up short, the one failure of the warm-up that is not swallowed. -/
def Usable (n : Nat) : Prop :=
  m.accept n = .accepted ∧ (∃ stream, m.greet n = .bytes stream) ∧
    (cfg.warmup = true → ¬ m.Cut n 0 cfg.maxRetries)

def Recovers : Prop := ∀ n, ∃ k ≥ n, m.Usable cfg k

/-- The frame can be encoded and fixes the length of its reply, which is one that can be read, or no
frame ever gets as far as the read. -/
def Awaitable (frame : Text) : Prop :=
  Python.isAscii frame = true ∧
    ∃ want, expectedResponseLen frame = .ok want ∧ (0 ≤ want ∨ ∀ id k, m.flush id k = .osError)

/-- Is there anything to hang up after so many attempts to connect? An exchange of the frame that
fails on some connection, or an attempt that got as far as a connection and no further. -/
def HangsUp (frame : Text) (n : Nat) : Prop :=
  (∃ id issued want, expectedResponseLen frame = .ok want ∧
    ¬ m.Answered want id issued cfg.maxRetries) ∨
  ∃ k, n = k + 1 ∧ m.accept k = .accepted ∧ ¬ m.Usable cfg k

/-- The machine takes what is written to it, and lets go of what is hung up: nothing that a request
awaits without a timeout is held up for ever. -/
structure Releases (frame : Text) : Prop where
  takes : ∀ id, m.Takes id
  closes : ∀ n, m.HangsUp cfg frame n → m.closes n = true

def Unreachable : Prop := ∀ id k stream, m.reply id k ≠ .bytes stream

def Replied (frame : Text) (f : Frame) : Prop :=
  ∃ want id k stream, expectedResponseLen frame = .ok want ∧ 0 ≤ want ∧
    m.reply id k = .bytes stream ∧ parseFrame true ((List.range want.toNat).map stream) = .ok f

/-- What `request` may come to: a reply, or the one error it declares. -/
def Outcome (frame : Text) : Except Exc Frame → Prop
  | .ok f => m.Replied frame f
  | .error e => e.isConnectionError = true

variable {m cfg} in
theorem Releases.retried {frame : Text} (releases : m.Releases cfg frame) {n : Nat}
    (unusable : ¬ m.Usable cfg n) (accepts : m.accept n = .accepted) : m.closes (n + 1) = true :=
  releases.closes (n + 1) (Or.inr ⟨n, rfl, accepts, unusable⟩)

end Machine

namespace Client

variable {m : Machine} {cfg : ClientConfig} {n : Nat} {r : Request}

def entering (id issued n : Nat) (r : Request) : Client :=
  ((⟨some ⟨id, issued, false⟩, n, .idle⟩ : Client).beginExchange r .main).1

theorem beginExchange_main {id issued n : Nat} {t : Task} {p : Point} :
    ((⟨some ⟨id, issued, false⟩, n, t⟩ : Client).beginExchange { r with point := p } .main).1 =
      entering id issued n r := by
  simp only [entering, beginExchange, frameOf]
  cases expectedResponseLen r.frame <;> rfl

def backing (link : Option Nat) (n : Nat) (r : Request) (backoff : ℚ) : Client :=
  ⟨link.map fun issued => ⟨n, issued, false⟩, n + 1,
    .running { r with point := .backingOff backoff }⟩

/-- The next attempt begins with the end of the connection of the last. -/
def dropping (n : Nat) (r : Request) (backoff : ℚ) : Client :=
  ⟨none, n, .running { r with point := .dropOld backoff }⟩

theorem backing_linked (issued : Nat) (backoff : ℚ) :
    m.tick cfg (backing (some issued) n r backoff) =
      some (dropping (n + 1) r (min (backoff * 2) cfg.backoffMax)) := rfl

theorem backing_reaches {link : Option Nat} (backoff : ℚ)
    (closes : link.isSome = true → m.closes (n + 1) = true) :
    Reaches₁ (m.tick cfg) (backing link n r backoff)
      (dialling (n + 1) r (min (backoff * 2) cfg.backoffMax)) := by
  cases link with
  | none => exact Relation.TransGen.single rfl
  | some issued =>
    refine Relation.TransGen.tail (Relation.TransGen.single (backing_linked issued backoff)) ?_
    simp [Machine.tick, Machine.answer, dropping, closes rfl, resume, suspend, dialling]

def greeted (cfg : ClientConfig) (n : Nat) (r : Request) (backoff : ℚ) : Client :=
  if cfg.warmup then conversing n 0 (n + 1) r (.warmUp backoff) 0 else entering n 0 (n + 1) r

theorem warmUp_len : expectedResponseLen warmUpFrame = .ok 241 := by decide

theorem greeted_reaches (cfg : ClientConfig) (r : Request) (backoff : ℚ)
    {stream : Nat → Char} (accepts : m.accept n = .accepted)
    (greets : m.greet n = .bytes stream) :
    Reaches₁ (m.tick cfg) (dialling n r backoff) (greeted cfg n r backoff) := by
  have opened : m.tick cfg (dialling n r backoff) = some ⟨some ⟨n, 0, false⟩, n + 1,
      .running { r with point := .greeting backoff }⟩ := by
    simp [Machine.tick, Machine.answer, dialling, accepts, Dial.answer, resume, suspend]
  have welcomed : m.tick cfg ⟨some ⟨n, 0, false⟩, n + 1,
      .running { r with point := .greeting backoff }⟩ = some (greeted cfg n r backoff) := by
    have warm := warmUp_len
    simp only [Machine.tick, Machine.answer, greets, Reading.answer, Option.bind_some, resume,
      List.length_map, List.length_range, if_true, Option.map_some, greeted]
    split
    · simp [beginExchange, frameOf, warm, suspend, conversing]
    · rw [beginExchange_main]
  exact Relation.TransGen.tail (Relation.TransGen.single opened) welcomed

/-- How the warm-up ends: an OS error fails the attempt, anything else is swallowed. -/
theorem warmUp_end {issued : Nat} {backoff : ℚ} {result : Except Exc Frame}
    (caught : ∀ e, result = .error e → e.caught = true) :
    (result = .error .osError → exchangeEnd cfg n issued (n + 1) r (.warmUp backoff) result =
      backing (some issued) n r backoff) ∧
    (result ≠ .error .osError → exchangeEnd cfg n issued (n + 1) r (.warmUp backoff) result =
      entering n issued (n + 1) r) := by
  constructor
  · rintro rfl
    rfl
  · intro smooth
    cases result with
    | ok f => rfl
    | error e =>
      have other : e ≠ .osError := fun eq => smooth (eq ▸ rfl)
      simp only [exchangeEnd, exchangeFailed, if_neg other, caught e rfl, if_true]
      rfl

theorem warmUp_reaches (takes : m.Takes n) (backoff : ℚ) :
    (¬ m.Cut n 0 cfg.maxRetries → ∃ issued, Reaches₁ (m.tick cfg)
      (conversing n 0 (n + 1) r (.warmUp backoff) 0) (entering n issued (n + 1) r)) ∧
    (m.Cut n 0 cfg.maxRetries → ∃ issued, Reaches₁ (m.tick cfg)
      (conversing n 0 (n + 1) r (.warmUp backoff) 0) (backing (some issued) n r backoff)) := by
  let ended := m.converse cfg warmUpFrame 241 n 0 cfg.maxRetries
  have exchange : Reaches₁ (m.tick cfg) (conversing n 0 (n + 1) r (.warmUp backoff) 0)
      (exchangeEnd cfg n ended.2 (n + 1) r (.warmUp backoff) ended.1) :=
    have ascii : Python.isAscii (frameOf r (.warmUp backoff)) = true := warmUp_ascii
    have len : expectedResponseLen (frameOf r (.warmUp backoff)) = .ok 241 := warmUp_len
    exchange_reaches ascii len takes (Nat.zero_add _)
  have cut : ended.1 = .error .osError ↔ m.Cut n 0 cfg.maxRetries :=
    m.converse_osError takes (by decide)
  have caught : ∀ e, ended.1 = .error e → e.caught = true :=
    fun e => m.converse_error (Or.inl (by decide))
  constructor
  · intro smooth
    refine ⟨ended.2, ?_⟩
    rw [← (warmUp_end caught).2 (mt cut.mp smooth)]
    exact exchange
  · intro broken
    refine ⟨ended.2, ?_⟩
    rw [← (warmUp_end caught).1 (cut.mpr broken)]
    exact exchange

theorem connect_reaches (takes : m.Takes n) (backoff : ℚ) (usable : m.Usable cfg n) :
    ∃ issued, Reaches₁ (m.tick cfg) (dialling n r backoff) (entering n issued (n + 1) r) := by
  obtain ⟨accepts, ⟨stream, greets⟩, smooth⟩ := usable
  have start := greeted_reaches cfg r backoff accepts greets
  unfold greeted at start
  split at start
  · rename_i warmup
    obtain ⟨issued, path⟩ := (warmUp_reaches takes backoff).1 (smooth warmup)
    exact ⟨issued, start.trans path⟩
  · exact ⟨0, start⟩

/-- An attempt that fails is over with the back-off, and leaves a connection if it was accepted. -/
theorem attempt_fails (takes : m.Takes n) (backoff : ℚ) (unusable : ¬ m.Usable cfg n) :
    ∃ link, (link.isSome = true ↔ m.accept n = .accepted) ∧
      Reaches₁ (m.tick cfg) (dialling n r backoff) (backing link n r backoff) := by
  by_cases accepts : m.accept n = .accepted
  · by_cases greets : ∃ stream, m.greet n = .bytes stream
    · obtain ⟨stream, greets⟩ := greets
      have start := greeted_reaches cfg r backoff accepts greets
      have cut : cfg.warmup = true ∧ m.Cut n 0 cfg.maxRetries := by
        by_contra smooth
        exact unusable ⟨accepts, ⟨stream, greets⟩, fun warmup broken => smooth ⟨warmup, broken⟩⟩
      rw [greeted, if_pos cut.1] at start
      obtain ⟨issued, path⟩ := (warmUp_reaches takes backoff).2 cut.2
      exact ⟨some issued, by simp [accepts], start.trans path⟩
    · have opened : m.tick cfg (dialling n r backoff) = some ⟨some ⟨n, 0, false⟩, n + 1,
          .running { r with point := .greeting backoff }⟩ := by
        simp [Machine.tick, Machine.answer, dialling, accepts, Dial.answer, resume, suspend]
      refine ⟨some 0, by simp [accepts],
        Relation.TransGen.tail (Relation.TransGen.single opened) ?_⟩
      cases reading : m.greet n with
      | bytes stream => exact absurd ⟨stream, reading⟩ greets
      | timeout | eof got | osError =>
        simp [Machine.tick, Machine.answer, reading, Reading.answer, resume, suspend, backing]
  · refine ⟨none, by simp [accepts], Relation.TransGen.single ?_⟩
    cases dial : m.accept n with
    | accepted => exact absurd dial accepts
    | refused | timeout =>
      simp [Machine.tick, Machine.answer, dialling, dial, Dial.answer, resume, suspend, backing]

theorem retry_reaches (takes : m.Takes n) (backoff : ℚ) (unusable : ¬ m.Usable cfg n)
    (closes : m.accept n = .accepted → m.closes (n + 1) = true) :
    Reaches₁ (m.tick cfg) (dialling n r backoff)
      (dialling (n + 1) r (min (backoff * 2) cfg.backoffMax)) := by
  obtain ⟨link, linked, path⟩ := attempt_fails (r := r) takes backoff unusable
  exact path.trans (backing_reaches backoff fun up => closes (linked.mp up))

theorem dialling_reaches (recovers : m.Recovers cfg) {frame : Text}
    (releases : m.Releases cfg frame) (backoff : ℚ) : ∃ k ≥ n, ∃ issued,
    Reaches₁ (m.tick cfg) (dialling n r backoff) (entering k issued (k + 1) r) := by
  obtain ⟨k, le, usable⟩ := recovers n
  obtain ⟨gap, rfl⟩ := Nat.exists_eq_add_of_le le
  clear le
  induction gap generalizing n backoff with
  | zero =>
    obtain ⟨issued, path⟩ := connect_reaches (r := r) (releases.takes n) backoff usable
    exact ⟨n, Nat.le_refl n, issued, path⟩
  | succ gap ih =>
    by_cases now : m.Usable cfg n
    · obtain ⟨issued, path⟩ := connect_reaches (r := r) (releases.takes n) backoff now
      exact ⟨n, Nat.le_refl n, issued, path⟩
    · have usable' : m.Usable cfg (n + 1 + gap) := by
        rwa [show n + 1 + gap = n + (gap + 1) by omega]
      obtain ⟨k, le, issued, path⟩ := ih (n := n + 1) (min (backoff * 2) cfg.backoffMax) usable'
      have retry : Reaches₁ (m.tick cfg) (dialling n r backoff) _ :=
        retry_reaches (releases.takes n) backoff now (releases.retried now)
      exact ⟨k, by omega, issued, retry.trans path⟩

/-- It never ends on a machine that lets no further attempt through. -/
theorem dialling_diverges {frame : Text} (releases : m.Releases cfg frame)
    (dead : ∀ k ≥ n, ¬ m.Usable cfg k) (backoff : ℚ) (final : Client) :
    final ∉ eval (m.tick cfg) (dialling n r backoff) :=
  Runs.diverges_of_progress (I := fun c => ∃ k ≥ n, ∃ backoff, c = dialling k r backoff)
    (by
      rintro _ ⟨k, le, backoff, rfl⟩
      exact ⟨_, retry_reaches (releases.takes k) backoff (dead k le) (releases.retried (dead k le)),
        k + 1, by omega, _, rfl⟩)
    ⟨n, Nat.le_refl n, backoff, rfl⟩ final

def Ends (m : Machine) (cfg : ClientConfig) (frame : Text) (c : Client) : Prop :=
  ∃ result final, Reaches (m.tick cfg) c final ∧ final.task = .ended frame result ∧
    m.Outcome frame result

theorem Ends.of_reaches {frame : Text} {c d : Client} (path : Reaches₁ (m.tick cfg) c d)
    (ends : Ends m cfg frame d) : Ends m cfg frame c := by
  obtain ⟨result, final, rest, ended, outcome⟩ := ends
  exact ⟨result, final, path.to_reflTransGen.trans rest, ended, outcome⟩

def droppingFailed (n : Nat) (r : Request) (e : Exc) : Client :=
  ⟨none, n, .running { r with point := .dropFailed e }⟩

theorem exchangeEnd_dropped {id issued : Nat} {e : Exc} (caught : e.caught = true) :
    exchangeEnd cfg id issued n r .main (.error e) = droppingFailed n r e := by
  simp only [exchangeEnd, exchangeFailed, caught, if_true]
  rfl

theorem dropFailed_reaches (e : Exc) (closes : m.closes n = true) :
    (r.attempt = 0 → Reaches₁ (m.tick cfg) (droppingFailed n r e)
      (dialling n { r with attempt := 1 } cfg.backoffInitial)) ∧
    (r.attempt ≠ 0 → Reaches₁ (m.tick cfg) (droppingFailed n r e)
      ⟨none, n, .ended r.frame (.error (.requestFailed r.frame e))⟩) := by
  constructor
  · intro first
    apply Relation.TransGen.single
    simp only [Machine.tick, Machine.answer, droppingFailed, closes, if_true, Option.bind_some,
      resume, nextAttempt, first]
    rfl
  · intro second
    apply Relation.TransGen.single
    simp only [Machine.tick, Machine.answer, droppingFailed, closes, if_true, Option.bind_some,
      resume, nextAttempt, second, if_false]
    rfl

theorem entering_conversing {id issued : Nat} {want : Int}
    (len : expectedResponseLen r.frame = .ok want) :
    entering id issued n r = conversing id issued n r .main 0 := by
  simp only [entering, beginExchange, frameOf, len]
  rfl

/-- The request's own exchange, from its start to its end. -/
theorem entering_reaches {id issued : Nat} {want : Int} (ascii : Python.isAscii r.frame = true)
    (len : expectedResponseLen r.frame = .ok want) (takes : m.Takes id) : ∃ last,
    Reaches₁ (m.tick cfg) (entering id issued n r) (exchangeEnd cfg id last n r .main
      (m.converse cfg r.frame want id issued cfg.maxRetries).1) := by
  have main : Python.isAscii (frameOf r .main) = true := ascii
  have size : expectedResponseLen (frameOf r .main) = .ok want := len
  rw [entering_conversing len]
  exact ⟨_, exchange_reaches main size takes (Nat.zero_add _)⟩

theorem entering_ends {id issued : Nat} (releases : m.Releases cfg r.frame)
    (awaits : m.Awaitable r.frame)
    (retry : r.attempt = 0 →
      Ends m cfg r.frame (dialling n { r with attempt := 1 } cfg.backoffInitial)) :
    Ends m cfg r.frame (entering id issued n r) := by
  obtain ⟨ascii, want, len, reads⟩ := awaits
  obtain ⟨last, exchange⟩ : ∃ last, Reaches₁ (m.tick cfg) (entering id issued n r) (exchangeEnd cfg
      id last n r .main (m.converse cfg r.frame want id issued cfg.maxRetries).1) :=
    entering_reaches ascii len (releases.takes id)
  apply Ends.of_reaches exchange
  cases result : (m.converse cfg r.frame want id issued cfg.maxRetries).1 with
  | ok f =>
    obtain ⟨nonneg, k, stream, reading, parsed⟩ := m.converse_ok result
    exact ⟨.ok f, _, Relation.ReflTransGen.refl, rfl, want, id, k, stream, len, nonneg, reading,
      parsed⟩
  | error e =>
    have caught : e.caught = true := m.converse_error reads result
    have failed := (m.converse_fails (releases.takes id) reads).mp ⟨e, result⟩
    have closes := releases.closes n (Or.inl ⟨id, issued, want, len, failed⟩)
    rw [exchangeEnd_dropped caught]
    by_cases first : r.attempt = 0
    · exact Ends.of_reaches ((dropFailed_reaches e closes).1 first) (retry first)
    · exact Ends.of_reaches ((dropFailed_reaches e closes).2 first)
        ⟨_, _, Relation.ReflTransGen.refl, rfl, rfl⟩

theorem dialling_ends (recovers : m.Recovers cfg) (releases : m.Releases cfg r.frame)
    (awaits : m.Awaitable r.frame) (backoff : ℚ) :
    Ends m cfg r.frame (dialling n r backoff) := by
  have second : ∀ {n r backoff}, m.Releases cfg r.frame → m.Awaitable r.frame → r.attempt ≠ 0 →
      Ends m cfg r.frame (dialling n r backoff) := by
    intro n r backoff releases awaits last
    obtain ⟨k, -, issued, path⟩ := dialling_reaches (r := r) (n := n) recovers releases backoff
    exact Ends.of_reaches path (entering_ends releases awaits fun first => absurd first last)
  obtain ⟨k, -, issued, path⟩ := dialling_reaches (r := r) (n := n) recovers releases backoff
  refine Ends.of_reaches path (entering_ends releases awaits fun _ => ?_)
  have again : Ends m cfg r.frame (dialling (k + 1) { r with attempt := 1 } cfg.backoffInitial) :=
    second releases awaits Nat.one_ne_zero
  exact again

def busy (c : Client) : Bool :=
  match c.task with
  | .running _ => true
  | _ => false

theorem request_eq {c : Client} (free : c.busy = false) (frame : Text) :
    c.request cfg frame = some (c.ensureConnected cfg ⟨frame, 0, .opening cfg.backoffInitial⟩) := by
  unfold request
  unfold busy at free
  split
  · rename_i running
    simp [running] at free
  · rfl

theorem ensureConnected_live (id issued n : Nat) (t : Task) (frame : Text) :
    ((⟨some ⟨id, issued, false⟩, n, t⟩ : Client).ensureConnected cfg
      ⟨frame, 0, .opening cfg.backoffInitial⟩).1 =
      entering id issued n ⟨frame, 0, .opening cfg.backoffInitial⟩ :=
  beginExchange_main (r := ⟨frame, 0, .opening cfg.backoffInitial⟩)

/-- Every request on a machine that recovers and releases comes to its end. -/
theorem request_ends (recovers : m.Recovers cfg) {frame : Text} (releases : m.Releases cfg frame)
    (awaits : m.Awaitable frame) (c : Client) : Ends m cfg frame
      (c.ensureConnected cfg ⟨frame, 0, .opening cfg.backoffInitial⟩).1 := by
  have dials : ∀ n, Ends m cfg frame
      (dialling n ⟨frame, 0, .opening cfg.backoffInitial⟩ cfg.backoffInitial) := fun n =>
    have ends : Ends m cfg _ (dialling n ⟨frame, 0, .opening cfg.backoffInitial⟩ _) :=
      dialling_ends recovers releases awaits _
    ends
  obtain ⟨_ | ⟨id, issued, closing⟩, n, t⟩ := c
  · exact dials n
  · cases closing with
    | true => exact dials n
    | false =>
      rw [ensureConnected_live]
      have ends : Ends m cfg _ (entering id issued n ⟨frame, 0, .opening cfg.backoffInitial⟩) :=
        entering_ends releases awaits fun _ =>
          have again : Ends m cfg _ (dialling n ⟨frame, 1, .opening cfg.backoffInitial⟩ _) :=
            dialling_ends recovers releases awaits _
          again
      exact ends

/-- A request waits for ever, without getting on. -/
def Hangs (m : Machine) (cfg : ClientConfig) (c : Client) : Prop :=
  ∃ stuck, Reaches (m.tick cfg) c stuck ∧ m.tick cfg stuck = none ∧ stuck.busy = true

theorem hangs_not_ends {c final : Client} (hangs : Hangs m cfg c)
    (path : Reaches (m.tick cfg) c final) (free : final.busy = false) : False := by
  obtain ⟨stuck, way, stops, waits⟩ := hangs
  have halts : m.tick cfg final = none := by
    cases task : final.task with
    | idle => simp [Machine.tick, Client.resume, task]
    | running r => simp [busy, task] at free
    | ended frame result => simp [Machine.tick, Client.resume, task]
  have same : stuck = final := Part.mem_unique (mem_eval.mpr ⟨way, stops⟩)
    (mem_eval.mpr ⟨path, halts⟩)
  rw [same, free] at waits
  cases waits

theorem entering_stalls {id issued : Nat} {want : Int} (ascii : Python.isAscii r.frame = true)
    (len : expectedResponseLen r.frame = .ok want) (stalled : m.flush id issued = .never) :
    Hangs m cfg (entering id issued n r) := by
  have main : Python.isAscii (frameOf r .main) = true := ascii
  rw [entering_conversing len]
  exact ⟨_, Relation.ReflTransGen.single (tick_pace main), tick_stalled stalled, rfl⟩

theorem entering_unclosed {id issued : Nat} {want : Int} (ascii : Python.isAscii r.frame = true)
    (len : expectedResponseLen r.frame = .ok want) (takes : m.Takes id)
    (reads : 0 ≤ want ∨ ∀ id k, m.flush id k = .osError)
    (failed : ¬ m.Answered want id issued cfg.maxRetries) (held : m.closes n = false) :
    Hangs m cfg (entering id issued n r) := by
  obtain ⟨e, result⟩ : ∃ e, (m.converse cfg r.frame want id issued cfg.maxRetries).1 = .error e :=
    (m.converse_fails takes reads).mpr failed
  obtain ⟨last, exchange⟩ : ∃ last, Reaches₁ (m.tick cfg) (entering id issued n r) (exchangeEnd cfg
      id last n r .main (m.converse cfg r.frame want id issued cfg.maxRetries).1) :=
    entering_reaches ascii len takes
  rw [result, exchangeEnd_dropped (m.converse_error reads result)] at exchange
  refine ⟨_, exchange.to_reflTransGen, ?_, rfl⟩
  simp [Machine.tick, Machine.answer, droppingFailed, held]

theorem dialling_unclosed (takes : m.Takes n) (backoff : ℚ) (unusable : ¬ m.Usable cfg n)
    (accepts : m.accept n = .accepted) (held : m.closes (n + 1) = false) :
    Hangs m cfg (dialling n r backoff) := by
  obtain ⟨link, linked, path⟩ := attempt_fails (r := r) takes backoff unusable
  obtain ⟨issued, rfl⟩ := Option.isSome_iff_exists.mp (linked.mpr accepts)
  refine ⟨_, (path.tail (backing_linked issued backoff)).to_reflTransGen, ?_, rfl⟩
  simp [Machine.tick, Machine.answer, dropping, held]

end Client

end R60V
