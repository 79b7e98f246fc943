import R60V.Bridge.Conversation
import R60V.Bridge.Faults
import R60V.Bridge.Reconnect

/-! Swallowed requests. The machine leaves a frame unanswered now and then, and the client issues it
again on the same connection. -/
namespace R60V

open Python (Text)
open Protocol (parseFrame Frame)
open StateTransition (Reaches Reaches₁)
open Runs (Run Move Along)

namespace Machine

variable (m : Machine)

/-- A correct reply, in time. -/
def Answers (id k : Nat) (frame text : Text) : Prop :=
  m.flush id k = .done ∧ ∃ call data stream, m.reply id k = .bytes stream ∧
    Call.frame call = frame ∧ call.reply data = some text ∧
    (List.range text.length).map stream = text

/-- In the course of a request from a state on, a frame is written as the `k`-th of a connection. -/
def Writes (cfg : ClientConfig) (start : Client) (id k : Nat) (frame : Text) : Prop :=
  ∃ c l next, Reaches (m.tick cfg) start c ∧ (m.answer c).bind (c.resume cfg) = some next ∧
    c.link = some l ∧ l.id = id ∧ l.issued = k ∧ .send id frame ∈ next.2

/-- Of the frames written on a connection no more than `max_retries` in a row are swallowed, and
the others are answered. -/
structure Attends (cfg : ClientConfig) (start : Client) (id : Nat) : Prop where
  answers : ∀ k frame, m.Writes cfg start id k frame →
    m.Swallows id k ∨ ∃ text, m.Answers id k frame text
  patient : ∀ k, (∀ j ≤ cfg.maxRetries, ∃ frame, m.Writes cfg start id (k + j) frame) →
    ∃ j ≤ cfg.maxRetries, ¬ m.Swallows id (k + j)

/-- An attempt to connect comes to nothing, and what there is of it to hang up is let go. -/
structure Fails (cfg : ClientConfig) (i : Nat) : Prop where
  unusable : ¬ m.Usable cfg i
  takes : m.Takes i
  closes : m.accept i = .accepted → m.closes (i + 1) = true

/-- The connection that a request finds, or the first that it can set up, with the number of
attempts to connect that there have been by then. -/
inductive Meets (cfg : ClientConfig) : Client → Nat → Nat → Prop where
  | live {id issued n : Nat} {t : Task} : Meets cfg ⟨some ⟨id, issued, false⟩, n, t⟩ id n
  | dialled {c : Client} {id : Nat} {stream : Nat → Char} (down : c.connected = false)
      (later : c.opens ≤ id) (first : ∀ i, c.opens ≤ i → i < id → m.Fails cfg i)
      (accepts : m.accept id = .accepted) (greets : m.greet id = .bytes stream) :
      Meets cfg c id (id + 1)

end Machine

theorem Call.reply_parses {op : Call} {data : List Int} {text : Text}
    (h : op.reply data = some text) : ∃ f, parseFrame true text = .ok f := by
  cases op with
  | read address length =>
    obtain ⟨⟨ha, hl, -, bytes⟩, same⟩ := Option.ite_none_right_eq_some.mp h
    cases same
    obtain ⟨f, parsed, -⟩ := Protocol.parseFrame_buildFrame .read ha hl true bytes
    exact ⟨f, parsed⟩
  | write address bytes =>
    obtain ⟨⟨ha, hl⟩, same⟩ := Option.ite_none_right_eq_some.mp h
    cases same
    obtain ⟨f, parsed, -⟩ := Protocol.parseFrame_buildAck .write ha hl true
    exact ⟨f, parsed⟩

/-- What comes of a frame that the machine answers. -/
theorem Machine.issue_answers {m : Machine} {id k : Nat} {frame text : Text} {want : Int}
    (answers : m.Answers id k frame text) (len : expectedResponseLen frame = .ok want) :
    ∃ f, m.issue frame want id k = some (.ok f) ∧ parseFrame true text = .ok f := by
  obtain ⟨flushed, call, data, stream, reads, rfl, correct, same⟩ := answers
  obtain ⟨f, parsed⟩ := Call.reply_parses correct
  have size : want = text.length := Except.ok.inj (len.symm.trans (Call.reply_length correct))
  refine ⟨f, ?_, parsed⟩
  subst size
  simp only [Machine.issue, flushed, reads, Int.toNat_natCast, same, parsed]
  rw [if_neg (by simp), if_neg (by omega)]

namespace Client

variable {m : Machine} {cfg : ClientConfig} {start : Client} {id issued n : Nat} {r : Request}
  {use : Use}

/-- A request returns the answer to a frame of its own, and the connection has then carried no more
of its frames than the tries allow. -/
def ReturnsOver (m : Machine) (cfg : ClientConfig) (start : Client) (frame : Text)
    (id opens : Nat) : Prop :=
  ∃ first r j text f, j ≤ cfg.maxRetries ∧ r.frame = frame ∧
    Reaches (m.tick cfg) start (conversing id first opens r .main 0) ∧
    Reaches (m.tick cfg) (conversing id first opens r .main 0)
      ⟨some ⟨id, first + j + 1, false⟩, opens, .ended frame (.ok f)⟩ ∧
    m.Answers id (first + j) frame text ∧ parseFrame true text = .ok f

theorem writes_conversing {attempt : Nat} (ascii : Python.isAscii (frameOf r use) = true)
    (here : Reaches (m.tick cfg) start (conversing id issued n r use attempt)) :
    m.Writes cfg start id issued (frameOf r use) := by
  have writes : (m.answer (conversing id issued n r use attempt)).bind
      ((conversing id issued n r use attempt).resume cfg) =
        some (awaiting id issued n r use attempt .drain, [.send id (frameOf r use)]) := by
    simp [Machine.answer, conversing, awaiting, resume, resumeExchange, frameOf_point, ascii,
      suspend]
  exact ⟨_, ⟨id, issued, false⟩, _, here, writes, rfl, rfl, rfl, List.mem_singleton_self _⟩

/-- As long as the machine swallows, an exchange goes on with its next try. -/
theorem swallowed_reaches {want : Int} (ascii : Python.isAscii (frameOf r use) = true)
    (len : expectedResponseLen (frameOf r use) = .ok want) (nonneg : 0 ≤ want) {j : Nat}
    (tries : j ≤ cfg.maxRetries) (swallowed : ∀ i < j, m.Swallows id (issued + i)) :
    Reaches (m.tick cfg) (conversing id issued n r use 0)
      (conversing id (issued + j) n r use j) := by
  induction j with
  | zero => exact Relation.ReflTransGen.refl
  | succ j ih =>
    have before := ih (by omega) fun i less => swallowed i (by omega)
    have now := swallowed j (by omega)
    have takes : m.flush id (issued + j) ≠ .never := by simp [now.1]
    have silent := (m.issue_swallowed takes nonneg (frameOf r use)).mpr now
    have next : Reaches₁ (m.tick cfg) (conversing id (issued + j) n r use j) _ :=
      issue_reaches ascii len takes
    simp only [silent] at next
    rw [if_pos (by omega)] at next
    exact before.trans next.to_reflTransGen

/-- An exchange with a machine that attends to the connection ends with an answer. -/
theorem attended_reaches (attends : m.Attends cfg start id)
    (here : Reaches (m.tick cfg) start (conversing id issued n r use 0))
    (awaited : Awaited (frameOf r use)) :
    ∃ j text f, j ≤ cfg.maxRetries ∧ m.Answers id (issued + j) (frameOf r use) text ∧
      parseFrame true text = .ok f ∧
      Reaches (m.tick cfg) (conversing id issued n r use 0)
        (exchangeEnd cfg id (issued + j + 1) n r use (.ok f)) := by
  obtain ⟨ascii, want, len, less⟩ := awaited
  have nonneg : 0 ≤ want := not_lt.mp less
  have written : ∀ j ≤ cfg.maxRetries, (∀ i < j, m.Swallows id (issued + i)) →
      m.Writes cfg start id (issued + j) (frameOf r use) := fun j tries swallowed =>
    writes_conversing ascii (here.trans (swallowed_reaches ascii len nonneg tries swallowed))
  have heard : ∃ j, j ≤ cfg.maxRetries ∧ ¬ m.Swallows id (issued + j) := by
    by_contra deaf
    have swallowed : ∀ i ≤ cfg.maxRetries, m.Swallows id (issued + i) := fun i tries => by
      by_contra heard
      exact deaf ⟨i, tries, heard⟩
    obtain ⟨j, tries, heard⟩ := attends.patient issued fun j tries =>
      ⟨_, written j tries fun i less => swallowed i (by omega)⟩
    exact heard (swallowed j tries)
  obtain ⟨j, tries, audible, swallowed⟩ : ∃ j ≤ cfg.maxRetries, ¬ m.Swallows id (issued + j) ∧
      ∀ i < j, m.Swallows id (issued + i) := by
    classical
    refine ⟨Nat.find heard, (Nat.find_spec heard).1, (Nat.find_spec heard).2, fun i less => ?_⟩
    by_contra sooner
    have := (Nat.find_spec heard).1
    exact Nat.find_min heard less ⟨by omega, sooner⟩
  have before := swallowed_reaches (n := n) ascii len nonneg tries swallowed
  obtain ⟨text, answers⟩ := (attends.answers _ _ (written j tries swallowed)).resolve_left audible
  obtain ⟨f, issue, parsed⟩ := Machine.issue_answers answers len
  have takes : m.flush id (issued + j) ≠ .never := by simp [answers.1]
  have last : Reaches₁ (m.tick cfg) (conversing id (issued + j) n r use j) _ :=
    issue_reaches ascii len takes
  simp only [issue] at last
  exact ⟨j, text, f, tries, answers, parsed, before.trans last.to_reflTransGen⟩

/-- The request's own exchange, on a connection that is up. -/
theorem entering_returns (attends : m.Attends cfg start id) (awaited : Awaited r.frame)
    (here : Reaches (m.tick cfg) start (entering id issued n r)) :
    ReturnsOver m cfg start r.frame id n := by
  obtain ⟨ascii, want, len, less⟩ := awaited
  rw [entering_conversing len] at here
  have waits : Awaited (frameOf r .main) := ⟨ascii, want, len, less⟩
  obtain ⟨j, text, f, tries, answers, parsed, path⟩ := attended_reaches attends here waits
  exact ⟨issued, r, j, text, f, tries, rfl, here, path, answers, parsed⟩

/-- The attempts before the first that can be set up lead to it. -/
theorem dialling_first (gap : Nat) (fails : ∀ i, n ≤ i → i < n + gap → m.Fails cfg i)
    (backoff : ℚ) : ∃ backoff', Reaches (m.tick cfg) (dialling n r backoff)
      (dialling (n + gap) r backoff') := by
  induction gap generalizing n backoff with
  | zero => exact ⟨backoff, Relation.ReflTransGen.refl⟩
  | succ gap ih =>
    obtain ⟨backoff', path⟩ := ih (n := n + 1) (fun i le less => fails i (by omega) (by omega))
      (min (backoff * 2) cfg.backoffMax)
    have now := fails n le_rfl (by omega)
    have retry := retry_reaches (r := r) now.takes backoff now.unusable now.closes
    rw [show n + 1 + gap = n + (gap + 1) by omega] at path
    exact ⟨backoff', retry.to_reflTransGen.trans path⟩

theorem dialled_returns {stream : Nat → Char} {backoff : ℚ}
    (attends : m.Attends cfg start id) (awaited : Awaited r.frame)
    (here : Reaches (m.tick cfg) start (dialling id r backoff))
    (accepts : m.accept id = .accepted) (greets : m.greet id = .bytes stream) :
    ReturnsOver m cfg start r.frame id (id + 1) := by
  have greeted_ := here.trans (greeted_reaches cfg r backoff accepts greets).to_reflTransGen
  unfold greeted at greeted_
  split at greeted_
  · have warm : Awaited (frameOf r (.warmUp backoff)) :=
      ⟨warmUp_ascii, 241, warmUp_len, by decide⟩
    obtain ⟨j, text, f, -, -, -, path⟩ := attended_reaches attends greeted_ warm
    exact entering_returns attends awaited (greeted_.trans path)
  · exact entering_returns attends awaited greeted_

/-- The first half: swallowed requests are retried in place. -/
theorem request_returns {c : Client} {frame : Text} {acts : List Act} {opens : Nat}
    (awaited : Awaited frame) (requested : c.request cfg frame = some (start, acts))
    (meets : m.Meets cfg c id opens) (attends : m.Attends cfg start id) :
    ReturnsOver m cfg start frame id opens := by
  have begun : start = (c.ensureConnected cfg ⟨frame, 0, .opening cfg.backoffInitial⟩).1 := by
    unfold request at requested
    split at requested
    · cases requested
    · exact congrArg Prod.fst (Option.some.inj requested).symm
  cases meets with
  | @live _ issued _ t =>
    have enters : start = entering id issued opens ⟨frame, 0, .opening cfg.backoffInitial⟩ :=
      begun.trans (beginExchange_main (r := ⟨frame, 0, .opening cfg.backoffInitial⟩))
    have here : Reaches (m.tick cfg) start
        (entering id issued opens ⟨frame, 0, .opening cfg.backoffInitial⟩) := by
      rw [enters]
      exact Relation.ReflTransGen.refl
    exact entering_returns (r := ⟨frame, 0, .opening cfg.backoffInitial⟩) attends awaited here
  | dialled down later first accepts greets =>
    have dials : start = dialling c.opens ⟨frame, 0, .opening cfg.backoffInitial⟩
        cfg.backoffInitial := by
      rw [begun]
      obtain ⟨link, n, t⟩ := c
      cases link with
      | none => rfl
      | some l =>
        have closing : l.closing = true := by simpa [connected] using down
        simp only [ensureConnected, down, connect, drop, closing, dialling, suspend, if_true,
          Bool.false_eq_true, if_false]
    obtain ⟨gap, rfl⟩ := Nat.exists_eq_add_of_le later
    obtain ⟨backoff, path⟩ := dialling_first (r := ⟨frame, 0, .opening cfg.backoffInitial⟩) gap
      first cfg.backoffInitial
    rw [← dials] at path
    exact dialled_returns (r := ⟨frame, 0, .opening cfg.backoffInitial⟩) attends awaited path
      accepts greets

/-- **Swallowed requests are retried in place.** On a connection whose machine swallows no more
frames in a row than there are retries, a request comes back with the answer to one of its tries;
and with any machine it gives a connection up only for a fault. -/
theorem swallowed_retried_in_place (cfg : ClientConfig) :
    (∀ (m : Machine) (c start : Client) (frame : Text) (acts : List Act) (id opens : Nat),
      Awaited frame → c.request cfg frame = some (start, acts) → m.Meets cfg c id opens →
      m.Attends cfg start id → ReturnsOver m cfg start frame id opens) ∧
    ∀ (ms : List (Move Client Interruption Act)) (c : Client),
      Run (Interruption.step cfg) .fresh ms c → (∀ m ∈ ms, Interruption.Undisturbed m) →
      Along (Interruption.Justified cfg) ms :=
  ⟨fun _ _ _ _ _ _ _ awaited requested meets attends =>
    request_returns awaited requested meets attends,
    fun _ _ run undisturbed => Interruption.hangUps_justified run undisturbed⟩

def brewTemp : Call := .read 0xB000 1

def ofText (text : Text) : Reading := .bytes fun i => text.getD i ' '

theorem ofText_take (text : Text) :
    (List.range text.length).map (fun i => text.getD i ' ') = text := by
  refine List.ext_getElem (by simp) fun i here here' => ?_
  simp [here']

/-- It swallows the first frame after the greeting and the first after that has been answered. -/
def drowsy : Machine where
  accept := fun _ => .accepted
  greet := fun _ => ofText Protocol.hello
  flush := fun _ _ => .done
  reply := fun _ k =>
    if k = 0 ∨ k = 2 then .timeout
    else if k = 1 then ofText (Protocol.buildFrame .read 0 115 (List.replicate 115 0))
    else ofText (Protocol.buildFrame .read 0xB000 1 [93])
  closes := fun _ => true

/-- The frames that a request for the temperature writes to it. -/
theorem drowsy_hears {k id : Nat} {frame : Text}
    (writes : drowsy.Writes .default (dialling 0 ⟨brewTemp.frame, 0, .opening 1⟩ 1) id k frame) :
    frame = if k ≤ 1 then warmUpFrame else brewTemp.frame := by
  obtain ⟨c, l, next, path, resumed, linked, -, rfl, sent⟩ := writes
  have each : Runs.passes (drowsy.tick .default) (fun c =>
      c.link.all fun l => ((drowsy.answer c).bind (c.resume .default)).all fun next =>
        next.2.all fun act => act == .send l.id (if l.issued ≤ 1 then warmUpFrame
          else brewTemp.frame) || (Seen.ofAct act).isNone) 16
      (dialling 0 ⟨brewTemp.frame, 0, .opening 1⟩ 1) = true := by decide +kernel
  have here := Runs.passes_reaches each path
  simp only [linked, resumed, Option.all_some, List.all_eq_true] at here
  have heard : id = l.id ∧ frame = if l.issued ≤ 1 then warmUpFrame else brewTemp.frame := by
    simpa [Seen.ofAct] using here _ sent
  exact heard.2

theorem drowsy_answers {k : Nat} (audible : ¬ (k = 0 ∨ k = 2)) :
    ∃ text, drowsy.Answers 0 k (if k ≤ 1 then warmUpFrame else brewTemp.frame) text := by
  by_cases first : k = 1
  · subst first
    refine ⟨_, rfl, settingsCall, List.replicate 115 0, _, rfl, rfl, ?_, ofText_take _⟩
    decide +kernel
  · have later : ¬ k ≤ 1 := by omega
    refine ⟨Protocol.buildFrame .read 0xB000 1 [93], rfl, brewTemp, [93], fun i => _, ?_, ?_, ?_,
      ofText_take _⟩
    · simp only [drowsy, if_neg audible, if_neg first]
      rfl
    · rw [if_neg later]
    · decide +kernel

theorem drowsy_attends :
    drowsy.Attends .default (dialling 0 ⟨brewTemp.frame, 0, .opening 1⟩ 1) 0 := by
  constructor
  · intro k frame writes
    obtain rfl := drowsy_hears writes
    by_cases silent : k = 0 ∨ k = 2
    · exact Or.inl ⟨rfl, if_pos silent⟩
    · exact Or.inr (drowsy_answers silent)
  · intro k _
    by_cases silent : k = 0 ∨ k = 2
    · refine ⟨1, by decide, fun swallows => ?_⟩
      rcases silent with rfl | rfl <;> cases swallows.2
    · refine ⟨0, by decide, fun swallows => ?_⟩
      have timeout : drowsy.reply 0 k = .timeout := swallows.2
      simp only [drowsy, if_neg silent] at timeout
      split at timeout <;> cases timeout

/-- A request that dials, and one that the machine leaves without an answer four times. -/
theorem swallowed_retried_on_drowsy :
    ReturnsOver drowsy .default (dialling 0 ⟨brewTemp.frame, 0, .opening 1⟩ 1) brewTemp.frame 0 1 ∧
    ∃ ms c, Run (Interruption.step .default) .fresh ms c ∧
      ms.any (fun m => decide (.hangUp 0 ∈ m.emits)) = true ∧
      Along (Interruption.Justified .default) ms := by
  constructor
  · refine (swallowed_retried_in_place .default).1 drowsy .fresh _ brewTemp.frame _ 0 1
      (by decide) rfl ?_ drowsy_attends
    exact .dialled rfl le_rfl (fun i _ less => by omega) rfl rfl
  · have reached : (Runs.feed (Interruption.step .default) .fresh ([.call brewTemp,
        .resume .opened, .resume (.bytes Protocol.hello)] ++
        (List.replicate 8 [.resume .done, .resume .done, .resume .timeout]).flatten)).any
        (fun r => r.2.any fun m => decide (.hangUp 0 ∈ m.emits)) = true := by decide +kernel
    obtain ⟨ms, c, run, events, tested⟩ := Runs.feed_reaches reached
    refine ⟨ms, c, run, tested, (swallowed_retried_in_place .default).2 ms c run ?_⟩
    intro m member closing
    have event := List.mem_map_of_mem (f := Move.event) member
    rw [events, closing] at event
    simp at event

end Client

end R60V
