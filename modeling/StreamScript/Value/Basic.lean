import StreamScript.Table
import StreamScript.Fault
import StreamScript.Json.Printer
import StreamScript.Bindings

/-!
# Values

What flows through a script is one value at a time: a text, a number, a truth
value, an array, or a map whose keys are of the first three kinds.

Casts only go up. Numbers and truth values become texts, and each of the two
serves where the other is wanted; nothing becomes an array or a map, and a text
becomes nothing else.

A value is shown as text in two ways that meet in one function: texts, numbers
and truth values stand for themselves, arrays and maps are written as compact
JSON. On the way to JSON the values JSON cannot hold are replaced – a number
without a value becomes `null` – and keys become their texts, so that two keys
may fall together; the entry then stays where the first was and takes the value
of the last. `toJson` and `ofJson` are that road and its way back.
-/

namespace StreamScript

/-- **A value of the language.** -/
inductive Value where
  | text (s : String)
  | number (x : Float)
  | truth (b : Bool)
  | array (items : List Value)
  | map (entries : List (Key × Value))
deriving Inhabited

/-- The text of a truth value. -/
def truthText (b : Bool) : String :=
  if b then "true" else "false"

namespace Key

/-- The text of a key. -/
def display : Key → String
  | .text s => s
  | .number x => Number.toText x
  | .truth b => truthText b

/-- A key as a value. -/
def toValue : Key → Value
  | .text s => .text s
  | .number x => .number x
  | .truth b => .truth b

end Key

namespace Value

/-- The kind of a value. -/
def kind : Value → Kind
  | .text _ => .text
  | .number _ => .number
  | .truth _ => .truth
  | .array _ => .array
  | .map _ => .map

/-- The empty text, which stands in where there is no value. -/
def empty : Value := .text ""

/-- The key that a value is, if it is one. -/
def toKey? : Value → Option Key
  | .text s => some (.text s)
  | .number x => some (.number x)
  | .truth b => some (.truth b)
  | .array _ | .map _ => none

/-- A value used as a key. -/
def toKey (v : Value) : Except RunError Key :=
  match v.toKey? with
  | some k => .ok k
  | none => .error (.notAKey v.kind)

/-- A key and its value are the same key again. -/
theorem toKey?_toValue (k : Key) : k.toValue.toKey? = some k := by
  cases k <;> rfl

/-- An entry of a map, by the value of its key. Arrays and maps have none. -/
def entry? (entries : Table Value) (key : Value) : Option Value :=
  key.toKey?.bind entries.get?

/-- Sets an entry of a map, by the value of its key. -/
def setEntry (entries : Table Value) (key v : Value) :
    Except RunError (Table Value) :=
  key.toKey.map fun k => entries.insert k v

/-- **Adds a value to the group of a key**: the group is an array, which begins
with the first value added. An entry that is no group becomes the first member
of one. -/
def addToGroup (entries : Table Value) (key v : Value) :
    Except RunError (Table Value) :=
  key.toKey.map fun k => Table.alter join k entries
where
  /-- The group with the value in it. -/
  join : Option Value → Value
    | none => .array [v]
    | some (.array items) => .array (items ++ [v])
    | some other => .array [other, v]

/-! ## JSON -/

/-- A number in JSON: an integer while it is one that floats count exactly, and
`null` if it has no value. -/
def numberToJson (x : Float) : Json :=
  match Number.toInt? x with
  | some n => if n.natAbs < 9007199254740992 then .integer n else .decimal x
  | none => if x.isFinite then .decimal x else .null

mutual

/-- **A value as JSON.** -/
def toJson : Value → Json
  | .text s => .string s
  | .number x => numberToJson x
  | .truth b => .bool b
  | .array items => .array (listToJson items)
  | .map entries => .object (Bindings.setAll [] (entriesToJson entries))

/-- The items of an array as JSON. -/
def listToJson : List Value → List Json
  | [] => []
  | v :: vs => v.toJson :: listToJson vs

/-- The entries of a map as members, before those of one name are merged. -/
def entriesToJson : List (Key × Value) → List (String × Json)
  | [] => []
  | (k, v) :: rest => (k.display, v.toJson) :: entriesToJson rest

end

mutual

/-- **The value of a JSON text.** `null` is the empty text. -/
def ofJson : Json → Value
  | .null => empty
  | .bool b => .truth b
  | .integer n => .number (Float.ofInt n)
  | .decimal x => .number x
  | .string s => .text s
  | .array items => .array (listOfJson items)
  | .object members => .map (entriesOfJson members)

/-- The items of a JSON array. -/
def listOfJson : List Json → List Value
  | [] => []
  | j :: js => ofJson j :: listOfJson js

/-- The members of a JSON object, whose names become keys. -/
def entriesOfJson : List (String × Json) → List (Key × Value)
  | [] => []
  | (name, j) :: rest => (.text name, ofJson j) :: entriesOfJson rest

end

/-- The compact JSON text of a value. -/
def jsonText (v : Value) : String :=
  String.ofList v.toJson.compact

/-- **The text that shows a value.** -/
def display : Value → String
  | .text s => s
  | .number x => Number.toText x
  | .truth b => truthText b
  | v => v.jsonText

/-- A key shows as the value it is. -/
theorem display_toValue (k : Key) : k.toValue.display = k.display := by
  cases k <;> rfl

/-! ## Casts -/

/-- A value used as a text. -/
def asText : Value → Except RunError String
  | .text s => .ok s
  | .number x => .ok (Number.toText x)
  | .truth b => .ok (truthText b)
  | v => .error (.cast v.kind .text)

/-- A value used as a number. -/
def asNumber : Value → Except RunError Float
  | .number x => .ok x
  | .truth b => .ok (if b then 1 else 0)
  | v => .error (.cast v.kind .number)

/-- A value used as a truth value: a number is true unless it is zero. -/
def asTruth : Value → Except RunError Bool
  | .truth b => .ok b
  | .number x => .ok (x != 0)
  | v => .error (.cast v.kind .truth)

end Value

end StreamScript
