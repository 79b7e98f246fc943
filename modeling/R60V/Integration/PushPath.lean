import R60V.Bridge.Admission
import R60V.Bridge.Atomic
import R60V.Integration.Registry
import R60V.Integration.Stream

/-! A command on its way from Home Assistant and back: the frame that carries it to the bridge, the
write-intent that the bridge makes of it, and what the entities show of the state frames that the
bridge broadcasts from then on. -/
namespace R60V.Integration

open Python (Text Float64)
open Overlay (blit replay)
open Protocol (settingsLen)
open Runs (Run Move Along outputs feed)

/-- The frame of `async_send_command`. -/
def commandFrame (address : Nat) (data : List Int) (key : Option Text) : JsonValue :=
  .dict ([("type".toList, .str "command".toList), ("address".toList, .int address),
    ("data".toList, .list (data.map .int))] ++ (key.map fun k => ("key".toList, .str k)).toList)

/-- What the validator of the bridge tells apart. -/
def JsonValue.kind : JsonValue → Json
  | .bool b => .bool b
  | .int n => .int n
  | .list items => .list (items.map JsonValue.kind)
  | .null | .float _ | .str _ | .dict _ => .other

/-- `_handle_inbound`: the frame for the broker, `none` for a message that is ignored. -/
def handleInbound : Except LoadsExc JsonValue → Except HandleExc (Option WsFrame)
  | .error .value => .ok none
  | .error .recursion => .error .recursion
  | .ok (.dict items) =>
    match items.lookup "type".toList with
    | some (.str kind) =>
      if kind = "command".toList then
        .ok (some (items.map fun item => (String.ofList item.1, item.2.kind)))
      else .ok none
    | _ => .ok none
  | .ok _ => .ok none

/-- The state frame for a snapshot of the store. -/
def broadcastFrame (ts : Float64) (shown : RawSnapshot) : JsonValue :=
  wrap ts [("available".toList, .bool shown.available),
    ("settings".toList, .list (shown.settings.map .int)),
    ("live".toList, .dict (shown.live.map fun e => (e.1.toList, .list (e.2.map .int))))]

/-- A snapshot of integers, as JSON has it. -/
def StateSnapshot.json (t : StateSnapshot Int) : StateSnapshot JsonValue :=
  ⟨t.settings.map .int, t.live.map fun e => (e.1, e.2.map .int), t.available⟩

/-- A value that an entity has taken, encoded for the machine. -/
structure Sent where
  writer : Writer
  value : Command
  address : Nat
  data : List Int
  listed : writer ∈ writers
  encoded : writer.encode value = .ok (address, data)

namespace Sent

def frame (c : Sent) (key : Option Text) : JsonValue := commandFrame c.address c.data key

def intent (c : Sent) : Intent := ⟨c.address, c.data⟩

theorem writes (c : Sent) : c.writer.Writes c.value c.address c.data :=
  writers_sound c.writer c.listed c.value c.address c.data c.encoded

end Sent

/-- What the entities show after some commands: each what it was told last, if no later command
wrote to its registers, and the machine's own settings where no command wrote at all. -/
structure Reflects (cs : List Sent) (block : List Int) (t : StateSnapshot Int) : Prop where
  told : ∀ front c back, cs = front ++ c :: back →
    (∀ d ∈ back, ∀ i ∈ d.writer.registers, i ∉ c.writer.registers) →
      c.writer.decode t = some (canonical c.value)
  untold : ∀ f ∈ facets, (∀ c ∈ cs, ∀ i ∈ c.writer.registers, i ∉ f.registers) →
    f.decode t = f.decode { t with settings := block }

/- On the way to the bridge. -/

theorem mapM_ints {data : List Int} (bytes : ∀ b ∈ data, 0 ≤ b ∧ b ≤ 255) :
    (data.map Json.int).mapM jsonByte = some data := by
  induction data with
  | nil => rfl
  | cons b data ih =>
    have byte := bytes b List.mem_cons_self
    have later := ih fun x member => bytes x (List.mem_cons_of_mem b member)
    have first : jsonByte (.int b) = some b := by simp [jsonByte, Json.asInt, Option.filter, byte]
    simp [first, later]

theorem frame_fields {address : Nat} {data : List Int} {key : Option Text} {frame : WsFrame}
    (handed : handleInbound (.ok (commandFrame address data key)) = .ok (some frame)) :
    frame.field "address" = .int address ∧ frame.field "data" = .list (data.map .int) := by
  cases key with
  | none | some key =>
    cases handed
    constructor <;> simp [WsFrame.field, JsonValue.kind]

/- On the way back. -/

theorem dictSet_json (key : Int) (value : List Int) (live : List (Int × List Int)) :
    dictSet key (value.map .int) (live.map fun e => (e.1, e.2.map JsonValue.int)) =
      (dictSet key value live).map fun e => (e.1, e.2.map .int) := by
  induction live with
  | nil => rfl
  | cons e live ih =>
    rw [List.map_cons, dictSet, dictSet]
    split
    · rfl
    · rw [ih, List.map_cons]

theorem live_json (entries : List (String × List Int)) : ∃ live : List (Int × List Int),
    PushFrame.live (entries.map fun e => (e.1.toList, .list (e.2.map .int))) =
      live.map fun e => (e.1, e.2.map .int) := by
  induction entries using List.reverseRecOn with
  | nil => exact ⟨[], rfl⟩
  | append_singleton entries e ih =>
    obtain ⟨live, same⟩ := ih
    rw [List.map_append, List.map_singleton]
    cases numeral : Python.int 10 e.1.toList with
    | none =>
      refine ⟨live, ?_⟩
      rw [← same]
      simp [PushFrame.live, JsonValue.toList, numeral]
    | some key => exact ⟨dictSet key e.2 live, by rw [live_snoc numeral, same, dictSet_json]⟩

/-- The snapshot that the integration makes of a broadcast. -/
theorem handle_broadcastFrame (ts : Float64) (shown : RawSnapshot) : ∃ t : StateSnapshot Int,
    PushFrame.handle (.ok (broadcastFrame ts shown)) = .ok (some t.json) ∧
      t.settings = shown.settings ∧ t.available = shown.available := by
  obtain ⟨live, same⟩ := live_json shown.live
  refine ⟨⟨shown.settings, live, shown.available⟩, ?_, rfl, rfl⟩
  rw [broadcastFrame, handle_wrap, same]
  rfl

/- What commands leave in a block. -/

section Block

variable {s : StateSnapshot Int} {cs : List Sent}

theorem view_replay {f : Facet} (sees : f.Sees)
    (apart : ∀ c ∈ cs, ∀ i ∈ c.writer.registers, i ∉ f.registers) (block : List Int) :
    f.view s (replay (cs.map fun c => writeOf c.intent) block) = f.view s block := by
  induction cs generalizing block with
  | nil => rfl
  | cons c cs ih =>
    rw [List.map_cons, Overlay.replay_cons,
      ih fun d member => apart d (List.mem_cons_of_mem c member)]
    exact (sees s).blit_eq (fun k here =>
      apart c List.mem_cons_self _ (c.writes.own k here)) block

theorem reflects_replay (cs : List Sent) {block : List Int} (size : block.length = settingsLen)
    {t : StateSnapshot Int}
    (same : t.settings = replay (cs.map fun c => writeOf c.intent) block) :
    Reflects cs block t := by
  have settings : ∀ f : Facet, f.decode t =
      f.view t (replay (cs.map fun c => writeOf c.intent) block) := fun f => by
    rw [← same]
    rfl
  constructor
  · rintro front c back rfl apart
    rw [settings, List.map_append, List.map_cons, Overlay.replay_append, Overlay.replay_cons,
      view_replay (writers_see c.writer c.listed) apart]
    exact c.writes.returns { t with settings := _ } ((Overlay.length_replay _ _).trans size)
  · intro f shown apart
    rw [settings, view_replay (facets_see f shown) apart]
    rfl

end Block

/- No command is empty, so that the bridge takes each for which there is room. -/

theorem bool_ne_nil {a : Nat} {on off : Int} {v : Command} {r : Nat × List Int}
    (encoded : encodeBool a on off v = .ok r) : r.2 ≠ [] := by
  cases v with
  | bool value =>
    cases encoded
    simp
  | option _ | time _ | profile _ | timer _ | celsius _ => cases encoded

theorem enum_ne_nil {a : Nat} {options : List Text} {v : Command} {r : Nat × List Int}
    (encoded : encodeEnum a options v = .ok r) : r.2 ≠ [] := by
  cases v with
  | option label =>
    simp only [encodeEnum] at encoded
    split at encoded
    · cases encoded
      simp
    · cases encoded
  | bool _ | time _ | profile _ | timer _ | celsius _ => cases encoded

theorem time_ne_nil {a : Nat} {v : Command} {r : Nat × List Int}
    (encoded : encodeTime a v = .ok r) : r.2 ≠ [] := by
  cases v with
  | time t =>
    cases encoded
    simp
  | bool _ | option _ | profile _ | timer _ | celsius _ => cases encoded

theorem profile_ne_nil {a : Nat} {v : Command} {r : Nat × List Int}
    (encoded : encodeProfileAt a v = .ok r) : r.2 ≠ [] := by
  cases v with
  | profile line =>
    simp only [encodeProfileAt] at encoded
    split at encoded
    · rename_i block coded
      cases encoded
      have length := (decodeProfile_encoded coded).1
      exact List.ne_nil_of_length_eq_add_one length
    · cases encoded
  | bool _ | option _ | time _ | timer _ | celsius _ => cases encoded

theorem timer_ne_nil {sw : TimerSwitchDescription} {v : Command} {r : Nat × List Int}
    (encoded : sw.encode v = .ok r) : r.2 ≠ [] := by
  cases v with
  | timer t =>
    cases t with
    | none | some _ =>
      cases encoded
      simp
  | bool _ | option _ | time _ | profile _ | celsius _ => cases encoded

theorem setpoint_ne_nil {c : ClimateDescription} {v : Command} {r : Nat × List Int}
    (encoded : c.encodeSetpoint v = .ok r) : r.2 ≠ [] := by
  cases v with
  | celsius x =>
    cases x with
    | nan | inf _ => cases encoded
    | finite x =>
      simp only [ClimateDescription.encodeSetpoint] at encoded
      split at encoded
      · cases encoded
        simp
      · cases encoded
  | bool _ | option _ | time _ | profile _ | timer _ => cases encoded

theorem entities_ne_nil : ∀ e ∈ entities, ∀ encode, e.encode = some encode →
    ∀ v r, encode v = .ok r → r.2 ≠ [] := by
  simp only [entities, List.forall_mem_cons]
  refine ⟨?_, ?_, ?_, ?_, ?_, ?_, ?_, ?_, ?_, ?_, ?_, ?_, ?_, ?_, by simp⟩
  all_goals
    rintro encode ⟨⟩ v r encoded
  · exact bool_ne_nil encoded
  · exact bool_ne_nil encoded
  · exact enum_ne_nil encoded
  · exact enum_ne_nil encoded
  · exact enum_ne_nil encoded
  · exact enum_ne_nil encoded
  · exact time_ne_nil encoded
  · exact time_ne_nil encoded
  · exact profile_ne_nil encoded
  · exact profile_ne_nil encoded
  · exact profile_ne_nil encoded

theorem Sent.data_ne_nil (c : Sent) : c.data ≠ [] := by
  have listed := c.listed
  simp only [writers, List.mem_append, List.mem_filterMap, List.mem_map] at listed
  obtain (⟨e, member, writer⟩ | ⟨sw, -, writer⟩) | ⟨climate, -, writer⟩ := listed
  · obtain ⟨encode, known, same⟩ := Option.map_eq_some_iff.mp writer
    have encoded := c.encoded
    rw [← same] at encoded
    exact entities_ne_nil e member encode known c.value _ encoded
  · have encoded := c.encoded
    rw [← writer] at encoded
    exact timer_ne_nil encoded
  · have encoded := c.encoded
    rw [← writer] at encoded
    exact setpoint_ne_nil encoded

theorem Sent.handed (c : Sent) (key : Option Text) :
    ∃ frame, handleInbound (.ok (c.frame key)) = .ok (some frame) := by
  cases key with
  | none => exact ⟨_, rfl⟩
  | some key => exact ⟨_, rfl⟩

/-- The bridge reads the frame of a command as its write-intent. -/
theorem Sent.valid (c : Sent) {key : Option Text} {frame : WsFrame}
    (handed : handleInbound (.ok (c.frame key)) = .ok (some frame)) :
    validate frame = some c.intent := by
  obtain ⟨b, data, some_⟩ := List.exists_cons_of_ne_nil c.data_ne_nil
  have converted := mapM_ints c.writes.bytes
  obtain ⟨address, items⟩ := frame_fields handed
  rw [some_, List.map_cons] at items converted
  rw [validate, address, items, intent, some_]
  exact congrArg (Option.map _) converted

/- Runs of the bridge and its machine in which the integration sends the commands. -/

section Runs

variable {cfg : BrokerConfig} {block : List Int} {w : World}
  {ms : List (Move World WorldEvent Effect)} {m : Move World WorldEvent Effect}

/-- Every frame that arrives is that of a command. -/
def Commanded (m : Move World WorldEvent Effect) : Prop :=
  ∀ frame block, m.event = .broker (.wsCommand frame) block → ∃ (c : Sent) (key : Option Text),
    handleInbound (.ok (c.frame key)) = .ok (some frame)

theorem admitted_sent (run : Run (World.step cfg) (World.start cfg block) ms w)
    (commanded : ∀ m ∈ ms, Commanded m) :
    ∃ cs : List Sent, admitted (outputs ms) = cs.map Sent.intent := by
  induction run with
  | nil => exact ⟨[], rfl⟩
  | @snoc ms w w' e effects run h ih =>
    obtain ⟨earlier, last⟩ := Runs.forall_snoc.mp commanded
    obtain ⟨cs, same⟩ := ih earlier
    rw [Runs.outputs_snoc, admitted_append, same]
    have quiet : admitted effects = [] → ∃ cs' : List Sent,
        cs.map Sent.intent ++ admitted effects = cs'.map Sent.intent := fun nothing =>
      ⟨cs, by rw [nothing, List.append_nil]⟩
    cases World.step_stepped h with
    | others => exact quiet rfl
    | @broker e block' b _ serves stepped =>
      cases Broker.step_changes stepped with
      | segment segment _ | written _ _ segment _ => exact quiet (admitted_nil segment.accepted)
      | lost _ _ _ _ => exact quiet rfl
      | @accepted frame i _ valid room store intents =>
        obtain ⟨c, key, handed⟩ := last frame block' rfl
        obtain rfl := Option.some.inj (valid.symm.trans (c.valid handed))
        exact ⟨cs ++ [c], by rw [List.map_append]; rfl⟩

theorem admitted_room {w' : World} {frame : WsFrame} {block' : List Int} {effects : List Effect}
    (h : w.step cfg (.broker (.wsCommand frame) block') = some (w', effects))
    (room : w.broker.intents.queue.length < intentQueueMax) {i : Intent}
    (valid : validate frame = some i) : admitted effects = [i] := by
  cases World.step_stepped h with
  | broker _ stepped =>
    cases (Broker.step_stepped stepped).2 with
    | wsCommand _ received =>
      simp only [IntentLoop.onWsCommand, valid, if_pos room] at received
      cases received
      rfl

/-- **What is commanded is shown.** Every command passes the checks of the bridge, and if it arrives
with room in the queue it is admitted as its own write. While the integration is the only one that
writes, and writes go through within their retries, each state frame that the bridge broadcasts
after its first settings read makes the integration show, for every writer, the value that it was
told last, in canonical form, unless a later command wrote to the same registers; and what no
command wrote to as the machine had it. -/
theorem commands_shown (size : block.length = settingsLen)
    (run : Run (World.step cfg) (World.start cfg block) ms w) :
    (∀ (c : Sent) (key : Option Text), ∃ frame,
      handleInbound (.ok (c.frame key)) = .ok (some frame) ∧ validate frame = some c.intent) ∧
    (∀ m ∈ ms, ∀ frame block', m.event = .broker (.wsCommand frame) block' →
      m.before.broker.intents.queue.length < intentQueueMax → ∀ (c : Sent) (key : Option Text),
        handleInbound (.ok (c.frame key)) = .ok (some frame) → admitted m.emits = [c.intent]) ∧
    ((∀ m ∈ ms, World.Sole m) → (∀ m ∈ ms, Commanded m) →
      Along (fun front m => (∃ data, .settingsRead data ∈ outputs (front ++ [m])) →
        ∃ cs : List Sent, admitted (outputs (front ++ [m])) = cs.map Sent.intent ∧
          ∀ shown ts, .broadcast shown ∈ m.emits → ∃ t : StateSnapshot Int,
            PushFrame.handle (.ok (broadcastFrame ts shown)) = .ok (some t.json) ∧
            t.available = shown.available ∧ Reflects cs block t) ms) := by
  refine ⟨?_, ?_, ?_⟩
  · intro c key
    obtain ⟨frame, handed⟩ := c.handed key
    exact ⟨frame, handed, c.valid handed⟩
  · intro m member frame block' arrives room c key handed
    exact admitted_room (arrives ▸ run.move_step member) room (c.valid handed)
  · rintro sole commanded front m back rfl read
    have member := List.mem_append_right front (List.mem_cons_self (a := m) (l := back))
    have upto := run.upto.snoc (run.move_step member)
    obtain ⟨cs, same⟩ := admitted_sent upto fun m' among => by
      apply commanded m'
      simp only [List.mem_append, List.mem_cons, List.not_mem_nil, or_false] at among ⊢
      tauto
    refine ⟨cs, same, fun shown ts sent => ?_⟩
    obtain ⟨t, handled, settings, available⟩ := handle_broadcastFrame ts shown
    have carried_ : shown.settings ∈ carried m.emits :=
      List.mem_filterMap.mpr ⟨.broadcast shown, sent, rfl⟩
    have block_ := (World.atomic_block size run sole).1 front m back rfl read _ carried_
    refine ⟨t, handled, available, reflects_replay cs size ?_⟩
    rw [settings, block_, World.requested, same, List.map_map]
    rfl

end Runs

/-- A coffee setpoint, as Home Assistant sends it. -/
def warmer : Sent where
  writer := ClimateDescription.brewBoiler.writer
  value := .celsius (.finite 100)
  address := 2
  data := [100]
  listed := List.mem_append_right _ List.mem_cons_self
  encoded := by decide +kernel

def warmerFrame : WsFrame :=
  [("type", .other), ("address", .int 2), ("data", .list [.int 100])]

/-- The setpoint arrives after the first poll, and its write has to be repeated. -/
theorem warmer_shown :
    ∃ ms w, Run (World.step Broker.pushConfig) (World.start Broker.pushConfig World.zeros) ms w ∧
      admitted (outputs ms) = [warmer.intent] ∧
      Along (fun front m => (∃ data, .settingsRead data ∈ outputs (front ++ [m])) →
        ∃ cs : List Sent, admitted (outputs (front ++ [m])) = cs.map Sent.intent ∧
          ∀ shown ts, .broadcast shown ∈ m.emits → ∃ t : StateSnapshot Int,
            PushFrame.handle (.ok (broadcastFrame ts shown)) = .ok (some t.json) ∧
            t.available = shown.available ∧ Reflects cs World.zeros t) ms := by
  have fed : (feed (World.step Broker.pushConfig) (World.start Broker.pushConfig World.zeros)
      [.broker .subscribe World.zeros, .broker (.poll .wake) World.zeros,
        .broker (.poll (.read (.ok World.zeros))) World.zeros,
        .broker (.wsCommand warmerFrame) World.zeros, .broker (.intent .take) World.zeros,
        .broker (.intent (.write (.error Broker.refused))) World.zeros,
        .broker (.advance 1) World.zeros, .broker (.intent .wake) World.zeros,
        .broker (.intent (.write (.ok ()))) (World.zeros.set 2 100),
        .broker (.intent (.read (.ok (World.zeros.set 2 100)))) (World.zeros.set 2 100)]).any
      (fun r => admitted (outputs r.2) == [warmer.intent] && r.2.all World.soleTest) = true := by
    decide +kernel
  obtain ⟨ms, w, run, events, reached⟩ := Runs.feed_reaches fed
  simp only [Bool.and_eq_true, beq_iff_eq, List.all_eq_true] at reached
  have commanded : ∀ m ∈ ms, Commanded m := by
    intro m member frame block' arrives
    have listed := arrives ▸ events ▸ List.mem_map_of_mem member
    refine ⟨warmer, none, ?_⟩
    simp only [List.mem_cons, WorldEvent.broker.injEq, reduceCtorEq, false_and, or_false,
      false_or, Event.wsCommand.injEq, List.not_mem_nil] at listed
    obtain ⟨rfl, -⟩ := listed
    simp [warmer, Sent.frame, commandFrame, handleInbound, warmerFrame, JsonValue.kind]
  have whole : World.zeros.length = settingsLen := List.length_replicate
  have shown := (commands_shown whole run).2.2
    (fun m member => World.soleTest_sound (reached.2 m member)) commanded
  exact ⟨ms, w, run, reached.1, shown⟩

end R60V.Integration
