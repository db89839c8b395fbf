import Mathlib.Data.List.Nodup
import StreamScript.Builtin.Call
import StreamScript.Proofs.Effects
import StreamScript.Proofs.JsonText
import StreamScript.Proofs.WholeNumbers

/-!
# Values to JSON and back

Not every value has a JSON of its own. Keys become the names of members, and
are texts when they come back; a number with a fraction is rounded to the
digits that are written, and the negative zero is written with one; what is no
number becomes `null`. What is left (`Value.FitsJson`) is written as a text
that is read back as the value itself (`toJson_parseJson`), provided that it
nests no deeper than the reader allows.
-/

namespace StreamScript

namespace Value

mutual

/-- **How deep the arrays and maps of a value nest.** -/
def nesting : Value → Nat
  | .array items => nestingOfItems items + 1
  | .map entries => nestingOfEntries entries + 1
  | _ => 0

/-- The deepest nesting among the items of an array. -/
def nestingOfItems : List Value → Nat
  | [] => 0
  | v :: vs => max v.nesting (nestingOfItems vs)

/-- The deepest nesting among the entries of a map. -/
def nestingOfEntries : List (Key × Value) → Nat
  | [] => 0
  | (_, v) :: rest => max v.nesting (nestingOfEntries rest)

end

/-- **A value that JSON can hold as it is**: the keys of its maps are texts,
each of them once, and its numbers are integers of less than 53 bits other than
the negative zero. -/
inductive FitsJson : Value → Prop
  | text (s : String) : FitsJson (.text s)
  | truth (b : Bool) : FitsJson (.truth b)
  | number {x : Float} {n : Int} (whole : Number.toInt? x = some n)
      (small : n.natAbs < 2 ^ 53) (signed : x ≠ -0.0) : FitsJson (.number x)
  | array {items : List Value} (each : ∀ v ∈ items, FitsJson v) :
      FitsJson (.array items)
  | map {entries : List (Key × Value)}
      (texts : ∀ k ∈ Table.keys entries, ∃ s, k = .text s)
      (distinct : (Table.keys entries).Nodup)
      (each : ∀ e ∈ entries, FitsJson e.2) :
      FitsJson (.map entries)

/-! ## The way there

A value that fits JSON becomes one whose text shows it exactly. Its integers
are written as integers, and the keys of a map become names, which are
different because the keys are. So no two members fall together, and the JSON
nests as deep as the value does. -/

theorem listToJson_eq_map (items : List Value) :
    listToJson items = items.map toJson := by
  induction items with
  | nil => rfl
  | cons v vs ih => rw [listToJson, ih, List.map_cons]

theorem entriesToJson_eq_map (entries : List (Key × Value)) :
    entriesToJson entries = entries.map fun e => (e.1.display, e.2.toJson) := by
  induction entries with
  | nil => rfl
  | cons e rest ih =>
    obtain ⟨k, v⟩ := e
    rw [entriesToJson, ih, List.map_cons]

/-- A small integer is an integer in JSON. -/
theorem numberToJson_of_whole {x : Float} {n : Int}
    (whole : Number.toInt? x = some n) (small : n.natAbs < 2 ^ 53) :
    numberToJson x = .integer n := by
  rw [numberToJson, whole]
  exact if_pos small

/-- The names of the members are the texts that the keys are. -/
theorem nodup_entriesToJson {entries : List (Key × Value)}
    (texts : ∀ k ∈ Table.keys entries, ∃ s, k = .text s)
    (distinct : (Table.keys entries).Nodup) :
    ((entriesToJson entries).map Prod.fst).Nodup := by
  rw [entriesToJson_eq_map, List.map_map]
  show (entries.map (Key.display ∘ Prod.fst)).Nodup
  rw [← List.map_map]
  refine distinct.map_on fun k hk k' hk' heq => ?_
  obtain ⟨s, rfl⟩ := texts k hk
  obtain ⟨s', rfl⟩ := texts k' hk'
  exact congrArg Key.text heq

/-- No two members fall together: binding the members one after the other
leaves them as they stand. -/
theorem toJson_map {entries : List (Key × Value)}
    (texts : ∀ k ∈ Table.keys entries, ∃ s, k = .text s)
    (distinct : (Table.keys entries).Nodup) :
    toJson (.map entries) = .object (entriesToJson entries) := by
  rw [toJson, Bindings.setAll_of_nodup (nodup_entriesToJson texts distinct),
    List.nil_append]

/-- What fits JSON is shown by its text exactly. -/
theorem FitsJson.exact_toJson {v : Value} (h : v.FitsJson) :
    v.toJson.Exact := by
  induction h with
  | text s => exact .string s
  | truth b => exact .bool b
  | number whole small signed =>
    obtain ⟨hof, hfinite⟩ := Number.ofInt_of_toInt? whole small signed
    rw [toJson, numberToJson_of_whole whole small]
    exact .integer (hof ▸ hfinite)
  | array _ ih =>
    rw [toJson, listToJson_eq_map]
    refine .array fun j hj => ?_
    obtain ⟨v, hv, rfl⟩ := List.mem_map.1 hj
    exact ih v hv
  | map texts distinct _ ih =>
    rw [toJson_map texts distinct]
    refine .object (nodup_entriesToJson texts distinct) fun m hm => ?_
    rw [entriesToJson_eq_map] at hm
    obtain ⟨e, he, rfl⟩ := List.mem_map.1 hm
    exact ih e he

theorem nestingOfItems_listToJson {items : List Value}
    (h : ∀ v ∈ items, v.toJson.nesting = v.nesting) :
    Json.nestingOfItems (listToJson items) = nestingOfItems items := by
  induction items with
  | nil => rfl
  | cons v vs ih =>
    rw [listToJson, Json.nestingOfItems, nestingOfItems, h v List.mem_cons_self,
      ih fun w hw => h w (List.mem_cons_of_mem v hw)]

theorem nestingOfMembers_entriesToJson {entries : List (Key × Value)}
    (h : ∀ e ∈ entries, e.2.toJson.nesting = e.2.nesting) :
    Json.nestingOfMembers (entriesToJson entries)
    = nestingOfEntries entries := by
  induction entries with
  | nil => rfl
  | cons e rest ih =>
    obtain ⟨k, v⟩ := e
    rw [entriesToJson, Json.nestingOfMembers, nestingOfEntries,
      h (k, v) List.mem_cons_self,
      ih fun e he => h e (List.mem_cons_of_mem (k, v) he)]

/-- The JSON of a value nests as deep as the value. -/
theorem FitsJson.nesting_toJson {v : Value} (h : v.FitsJson) :
    v.toJson.nesting = v.nesting := by
  induction h with
  | text s => rfl
  | truth b => rfl
  | number whole small _ =>
    rw [toJson, numberToJson_of_whole whole small]
    rfl
  | array _ ih =>
    rw [toJson, Json.nesting, nesting, nestingOfItems_listToJson ih]
  | map texts distinct _ ih =>
    rw [toJson_map texts distinct, Json.nesting, nesting,
      nestingOfMembers_entriesToJson ih]

/-! ## The way back

Names become keys that are texts, and these are the keys that were there
before. What comes back is therefore the value, and all that remains is whether
its text is read at all, which is a question of how deep it nests. -/

theorem listOfJson_listToJson {items : List Value}
    (h : ∀ v ∈ items, ofJson v.toJson = v) :
    listOfJson (listToJson items) = items := by
  induction items with
  | nil => rfl
  | cons v vs ih =>
    rw [listToJson, listOfJson, h v List.mem_cons_self,
      ih fun w hw => h w (List.mem_cons_of_mem v hw)]

theorem entriesOfJson_entriesToJson {entries : List (Key × Value)}
    (texts : ∀ k ∈ Table.keys entries, ∃ s, k = .text s)
    (h : ∀ e ∈ entries, ofJson e.2.toJson = e.2) :
    entriesOfJson (entriesToJson entries) = entries := by
  induction entries with
  | nil => rfl
  | cons e rest ih =>
    obtain ⟨k, v⟩ := e
    obtain ⟨s, rfl⟩ := texts k List.mem_cons_self
    rw [entriesToJson, entriesOfJson, h (.text s, v) List.mem_cons_self,
      ih (fun k hk => texts k (List.mem_cons_of_mem _ hk))
        fun e he => h e (List.mem_cons_of_mem (.text s, v) he)]
    rfl

/-- **What fits JSON comes back from it.** -/
theorem FitsJson.ofJson_toJson {v : Value} (h : v.FitsJson) :
    ofJson v.toJson = v := by
  induction h with
  | text s => rfl
  | truth b => rfl
  | number whole small signed =>
    rw [toJson, numberToJson_of_whole whole small, ofJson,
      (Number.ofInt_of_toInt? whole small signed).1]
  | array _ ih => rw [toJson, ofJson, listOfJson_listToJson ih]
  | map texts distinct _ ih =>
    rw [toJson_map texts distinct, ofJson, entriesOfJson_entriesToJson texts ih]

end Value

namespace Builtin

/-- A text is read as JSON as a whole. -/
theorem readJson_text (s : String) :
    readJson (.text s) = ((Json.ofChars? s.toList).map Value.ofJson).elim
      (.error .json) .ok := by
  simp only [readJson, Value.asText, bind, Except.bind]
  cases Json.ofChars? s.toList with
  | some j => rfl
  | none => rfl

/-- What is read of the text of a value that fits JSON: the value, if it nests
no deeper than 127 levels. -/
theorem readJson_jsonText {v : Value} (h : v.FitsJson) :
    readJson (.text v.jsonText) = if v.nesting ≤ 127 then .ok v
      else .error .json := by
  rw [readJson_text, Value.jsonText, String.toList_ofList,
    Json.ofChars?_compact h.exact_toJson, h.nesting_toJson]
  show ((if v.nesting ≤ 127 then some v.toJson else none).map Value.ofJson).elim
      _ _ = _
  by_cases hdeep : v.nesting ≤ 127
  · rw [if_pos hdeep, if_pos hdeep, Option.map_some, h.ofJson_toJson]
    rfl
  · rw [if_neg hdeep, if_neg hdeep]
    rfl

/-- **A value that fits JSON is written, and read back as itself** unless it
nests too deep; then the text is refused. -/
theorem toJson_parseJson {v : Value} (h : v.FitsJson) {σ : Type} (host : Host σ)
    (w : World σ) :
    ∃ text, (Builtin.call host .toJson v []).exec w = (.ok (.text text), w) ∧
      (Builtin.call host .parseJson (.text text) []).exec w =
        (if v.nesting ≤ 127 then .ok v else .error .json, w) := by
  refine ⟨v.jsonText, rfl, ?_⟩
  show (liftM (readJson (.text v.jsonText)) : Act σ Value).exec w = _
  rw [Act.exec_lift, readJson_jsonText h]

/-- A document with arrays, maps, numbers and truth values, and with texts that
need escapes. -/
def sampleDocument : Value :=
  .map [(.text "say \"\\\"",
      .array [.number (-7), .text "tab\tbell\x07é", .map []]),
    (.text "", .truth false)]

theorem fitsJson_sampleDocument : sampleDocument.FitsJson := by
  have hnumber : Value.FitsJson (.number (-7)) :=
    .number (n := -7) (by decide +kernel) (by decide) (by decide +kernel)
  have hempty : Value.FitsJson (.map []) :=
    .map (by simp [Table.keys]) .nil (by simp)
  have harray :
      Value.FitsJson
      (.array [.number (-7), .text "tab\tbell\x07é", .map []]) := by
    refine .array ?_
    simp only [List.forall_mem_cons, List.not_mem_nil, false_implies,
      implies_true, and_true]
    exact ⟨hnumber, .text _, hempty⟩
  refine .map ?_ (by decide) ?_
  · simp [Table.keys]
  · simp only [List.forall_mem_cons, List.not_mem_nil, false_implies,
      implies_true, and_true]
    exact ⟨harray, .truth false⟩

theorem sampleDocument_comes_back :
    sampleDocument.FitsJson ∧
      ∃ text, (Builtin.call (Host.none Unit) .toJson sampleDocument []).exec
          { host := () } = (.ok (.text text), { host := () }) ∧
        (Builtin.call (Host.none Unit) .parseJson (.text text) []).exec
          { host := () } = (if sampleDocument.nesting ≤ 127
            then .ok sampleDocument else .error .json,
            { host := () }) :=
  ⟨fitsJson_sampleDocument, toJson_parseJson fitsJson_sampleDocument _ _⟩

end Builtin

end StreamScript
