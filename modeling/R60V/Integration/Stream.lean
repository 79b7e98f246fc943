import R60V.Bridge.Framing
import R60V.Bridge.Store
import R60V.Integration.PushClient
import R60V.Python.Numerals

/-! The two ends of the push channel: what the bridge broadcasts for its store, read by the stream
client. The addresses of the live registers travel as decimal strings. -/
namespace R60V.Integration

open Python (Text Float64 maxStrDigits)

/-- `raw_snapshot`, as the dict that it is; `none` for the `ValueError` of `str` at an address with
more digits than the interpreter writes. -/
def rawDict (s : DeviceState) : Option (List (Text × JsonValue)) :=
  let raw := s.rawSnapshot
  if raw.live.all fun e => e.1.toList.length ≤ maxStrDigits then
    some [("available".toList, .bool raw.available),
      ("settings".toList, .list (raw.settings.map .int)),
      ("live".toList, .dict (raw.live.map fun e => (e.1.toList, .list (e.2.map .int))))]
  else none

/-- `_wrap`: the fields of the state are laid over those of the envelope. -/
def wrap (ts : Float64) (state : List (Text × JsonValue)) : JsonValue :=
  .dict (state.foldl (fun d item => dictSet item.1 item.2 d)
    [("type".toList, .str "state".toList), ("schema".toList, .int 1), ("ts".toList, .float ts)])

/-- The snapshot that a store stands for, in the integration's terms. -/
def mirrored (s : DeviceState) : StateSnapshot JsonValue where
  settings := s.snapshot.settings.map .int
  live := s.snapshot.live.entries.map fun e => ((e.1 : Int), e.2.map .int)
  available := s.available

theorem dictSet_fresh {κ α : Type} [DecidableEq κ] {key : κ} {value : α} {items : List (κ × α)}
    (fresh : ∀ item ∈ items, item.1 ≠ key) :
    dictSet key value items = items ++ [(key, value)] := by
  induction items with
  | nil => rfl
  | cons item items ih =>
    rw [dictSet, if_neg (fresh item List.mem_cons_self),
      ih fun other member => fresh other (List.mem_cons_of_mem item member)]
    rfl

theorem live_snoc {items : List (Text × JsonValue)} {key : Text} {value : List JsonValue}
    {address : Int} (numeral : Python.int 10 key = some address) :
    PushFrame.live (items ++ [(key, .list value)]) =
      dictSet address value (PushFrame.live items) := by
  simp [PushFrame.live, JsonValue.toList, numeral]

/-- Registers with different addresses are all kept, in their order. -/
theorem live_entries {entries : List (Sigma fun _ : Nat => List Int)}
    (apart : entries.Pairwise fun e e' => e.1 ≠ e'.1)
    (short : ∀ e ∈ entries, (Nat.toDigits 10 e.1).length ≤ maxStrDigits) :
    PushFrame.live (entries.map fun e => ((Nat.repr e.1).toList, .list (e.2.map .int))) =
      entries.map fun e => ((e.1 : Int), e.2.map .int) := by
  induction entries using List.reverseRecOn with
  | nil => rfl
  | append_singleton entries e ih =>
    obtain ⟨earlier, -, others⟩ := List.pairwise_append.mp apart
    have before := ih earlier fun x member => short x (List.mem_append_left _ member)
    have numeral : Python.int 10 (Nat.repr e.1).toList = some (e.1 : Int) := by
      rw [Nat.toList_repr]
      exact Python.int_toDigits (short e (List.mem_append_right _ (List.mem_singleton_self e)))
    rw [List.map_append, List.map_append, List.map_singleton, live_snoc numeral, before,
      dictSet_fresh]
    · rfl
    · intro item member
      obtain ⟨other, listed, rfl⟩ := List.mem_map.mp member
      have differs := others other listed e (List.mem_singleton_self e)
      simpa using differs

theorem liveItems_dict (items : List (Text × JsonValue)) :
    PushFrame.liveItems (some (.dict items)) = .ok items := by
  cases items <;> rfl

/-- No field of the state meets one of the envelope, and the client finds each of them. -/
theorem handle_wrap (ts : Float64) (available : Bool) (settings : List JsonValue)
    (registers : List (Text × JsonValue)) :
    PushFrame.handle (.ok (wrap ts [("available".toList, .bool available),
      ("settings".toList, .list settings), ("live".toList, .dict registers)])) =
    .ok (some ⟨settings, PushFrame.live registers, available⟩) := by
  simp [wrap, dictSet, PushFrame.handle, PushFrame.snapshot, List.lookup_cons,
    liveItems_dict, JsonValue.truthy, Except.map]

/-- **The push channel transports a store as it is**: its settings, its registers under their
addresses, and its verdict. What is assumed is that decoding undoes the encoding of the frame. -/
theorem handle_broadcast (s : DeviceState) (ts : Float64) (state : List (Text × JsonValue))
    (raw : rawDict s = some state) (dumps : JsonValue → Text)
    (loads : Text → Except LoadsExc JsonValue)
    (inverse : loads (dumps (wrap ts state)) = .ok (wrap ts state)) :
    PushFrame.handle (loads (dumps (wrap ts state))) = .ok (some (mirrored s)) := by
  rw [inverse]
  unfold rawDict at raw
  dsimp only at raw
  split at raw
  · rename_i short
    cases raw
    have registers := live_entries (List.nodupKeys_iff_pairwise.mp s.snapshot.live.nodupKeys)
      (by simpa [DeviceState.rawSnapshot] using short)
    have same : (s.rawSnapshot.live.map fun e =>
        (e.1.toList, JsonValue.list (e.2.map .int))) = s.snapshot.live.entries.map fun e =>
          ((Nat.repr e.1).toList, .list (e.2.map .int)) := List.map_map
    rw [handle_wrap, same, registers]
    rfl
  · cases raw

theorem handle_broadcast_register :
    let store := ((DeviceState.new 4 12 1).updateSettings [1, 105]).updateLive 0 0xB000 [93]
    let state := [("available".toList, .bool true),
      ("settings".toList, .list [.int 1, .int 105]),
      ("live".toList, .dict [("45056".toList, .list [.int 93])])]
    let text := ("\x7b\"type\": \"state\", \"schema\": 1, \"ts\": 0.0, \"available\": true, " ++
      "\"settings\": [1, 105], \"live\": \x7b\"45056\": [93]\x7d\x7d").toList
    ∃ (dumps : JsonValue → Text) (loads : Text → Except LoadsExc JsonValue),
      dumps (wrap (.finite 0) state) = text ∧ loads text = .ok (wrap (.finite 0) state) ∧
      PushFrame.handle (loads (dumps (wrap (.finite 0) state))) = .ok (some (mirrored store)) := by
  intro store state text
  have raw : rawDict store = some state := rfl
  let loads : Text → Except LoadsExc JsonValue := fun t =>
    if t = text then .ok (wrap (.finite 0) state) else .error .value
  have decoded : loads text = .ok (wrap (.finite 0) state) := if_pos rfl
  exact ⟨fun _ => text, loads, rfl, decoded,
    handle_broadcast store (.finite 0) state raw (fun _ => text) loads decoded⟩

end R60V.Integration
