import StreamScript.Proofs.Groups
import StreamScript.Proofs.JsonRoundTrip

/-!
# What JSON makes of a value

A value that is written as JSON and read again need not be the same value. What
it is then is said here without JSON, by recursion on the value
(`Value.normal`): the keys of its maps are the texts that show them, and where
two show alike the entries are one, with the place of the first and the value
of the last; the negative zero is the zero; and what is no finite number is the
empty text. Nothing else changes, however large a number is or how many digits
it has.

A normal value loses nothing (`Value.Lossless`), so that a second time changes
nothing, and only the values that lose nothing stay as they are.
-/

namespace StreamScript

/-! ## Names that come again

A name that is bound again stays where it is and changes what it is bound to.
Bound one after the other, entries with names that come again end as each name
once, in the order of first use, with its last value. `merged` says this
without binding anything. -/

namespace Bindings

variable {α β : Type}

/-- **Names with what they are bound to last**, each at the place where it
comes first. This is how an object is read in which a name comes several times.
-/
def merged (entries : List (String × α)) : Bindings α :=
  (entries.map Prod.fst).eraseDups.filterMap fun name =>
    (entries.reverse.lookup name).map fun v => (name, v)

/-- Bindings of different names are their names with what these are bound to.
So two of them are equal if they have the same names in the same order and bind
them alike. -/
theorem eq_filterMap_get? {b : Bindings α} (h : (b.map Prod.fst).Nodup) :
    b = (b.map Prod.fst).filterMap fun name => (b.get? name).map fun v =>
      (name, v) := by
  induction b with
  | nil => rfl
  | cons entry b ih =>
    obtain ⟨name, v⟩ := entry
    obtain ⟨hname, hb⟩ := List.nodup_cons.1 h
    have hself : get? ((name, v) :: b) name = some v := List.lookup_cons_self
    have hrest : ∀ n ∈ b.map Prod.fst, get? ((name, v) :: b) n = get? b n := by
      intro n hn
      have hne : (n == name) = false :=
        beq_eq_false_iff_ne.2 fun heq => hname (heq ▸ hn)
      rw [get?, List.lookup_cons, hne]
      rfl
    rw [List.map_cons, List.filterMap_cons]
    simp only [hself, Option.map_some]
    refine congrArg _ ((ih hb).trans (List.filterMap_congr fun n hn => ?_))
    rw [hrest n hn]

theorem setAll_concat (b : Bindings α) (entries : List (String × α))
    (name : String) (v : α) :
    b.setAll (entries ++ [(name, v)]) = set name v (b.setAll entries) := by
  rw [setAll, List.foldl_append]
  rfl

/-- The names come as they first did. -/
theorem map_fst_setAll (entries : List (String × α)) :
    (setAll [] entries).map Prod.fst = (entries.map Prod.fst).eraseDups := by
  induction entries using List.reverseRecOn with
  | nil => rfl
  | append_singleton entries entry ih =>
    rw [setAll_concat, map_fst_set, ih, List.map_append, List.eraseDups_append]
    simp only [List.mem_eraseDups, List.map_singleton, List.removeAll,
      List.filter_singleton]
    by_cases hmem : entry.1 ∈ entries.map Prod.fst
    · simp [hmem]
    · simp [hmem, List.eraseDups_cons]

/-- A name is bound to what it was bound to last. -/
theorem get?_setAll (entries : List (String × α)) (name : String) :
    (setAll [] entries).get? name = entries.reverse.lookup name := by
  induction entries using List.reverseRecOn with
  | nil => rfl
  | append_singleton entries entry ih =>
    rw [setAll_concat, get?_set, ih, List.reverse_append]
    show _ = List.lookup name (entry :: entries.reverse)
    rw [List.lookup_cons]
    by_cases hname : name = entry.1
    · simp [hname]
    · rw [if_neg hname, beq_eq_false_iff_ne.2 hname]

/-- **Binding names one after the other** merges those that come again. Binding
a name anew changes its value in place, which is why the places are those where
the names come first. -/
theorem setAll_eq_merged (entries : List (String × α)) :
    setAll [] entries = merged entries := by
  have hnodup : ((setAll [] entries).map Prod.fst).Nodup := nodup_setAll .nil
  rw [eq_filterMap_get? hnodup, map_fst_setAll, merged]
  simp only [get?_setAll]

/-- Merging does not look at what the names are bound to. -/
theorem merged_map (f : α → β) (entries : List (String × α)) :
    merged (entries.map fun e => (e.1, f e.2)) = (merged entries).map fun e =>
      (e.1, f e.2) := by
  have hlookup : ∀ (l : List (String × α)) (name : String),
      (l.map fun e => (e.1, f e.2)).lookup name = (l.lookup name).map f := by
    intro l name
    induction l with
    | nil => rfl
    | cons e l ih =>
      rw [List.map_cons, List.lookup_cons, List.lookup_cons, ih]
      cases name == e.1 <;> rfl
  rw [merged, merged, List.map_map, List.map_filterMap, ← List.map_reverse]
  refine List.filterMap_congr fun name _ => ?_
  rw [hlookup, Option.map_map, Option.map_map]
  rfl

end Bindings

/-! ## Numbers

JSON writes an integer of less than 53 bits as one, and any other finite number
with its digits. The two forms are no longer told apart when they are read. The
negative zero is an integer that is written without its sign, and what is not
finite has no number in JSON. -/

/-- A number is finite, infinite or none. -/
theorem Number.isFinite_eq (x : Float) :
    x.isFinite = !(x.isNaN || x.isInf) := by
  show x.toModel.unpack.isFinite
      = !(x.toModel.unpack.isNaN || x.toModel.unpack.isInf)
  cases x.toModel.unpack <;> rfl

namespace Value

/-- What JSON makes of a number. -/
def normalNumber (x : Float) : Value :=
  if x.isNaN || x.isInf then empty else .number (if x = -0.0 then 0.0 else x)

theorem normalNumber_of_finite {x : Float} (hfinite : x.isFinite = true)
    (hsigned : x ≠ -0.0) :
    normalNumber x = .number x := by
  rw [Number.isFinite_eq, Bool.not_eq_true'] at hfinite
  rw [normalNumber, hfinite, if_neg Bool.false_ne_true, if_neg hsigned]

/-- **A number that is written and read again**, be it one of JSON's integers
or not. A whole number is written as an integer and read as one, and the two
zeros are one integer. What has no text in JSON is written as `null`, and that
is read as the empty text. -/
theorem ofJson_numberToJson (x : Float) :
    ofJson (numberToJson x) = normalNumber x := by
  obtain rfl | hsigned := eq_or_ne x (-0.0)
  · have hzero : Number.toInt? (-0.0) = some 0 := by decide +kernel
    have hof : Float.ofInt 0 = 0.0 := by decide +kernel
    have hfinite : ((-0.0 : Float).isNaN || (-0.0 : Float).isInf) = false := by
      decide +kernel
    rw [numberToJson_of_whole hzero (by decide), normalNumber, hfinite,
      if_neg Bool.false_ne_true, if_pos rfl, ofJson, hof]
  cases hwhole : Number.toInt? x with
  | some n =>
    by_cases hsmall : n.natAbs < 2 ^ 53
    · obtain ⟨hof, hfinite⟩ := Number.ofInt_of_toInt? hwhole hsmall hsigned
      rw [numberToJson_of_whole hwhole hsmall,
        normalNumber_of_finite hfinite hsigned, ofJson, hof]
    · have hfinite := Number.isFinite_of_toInt? hwhole
      have hdecimal : numberToJson x = .decimal x := by
        rw [numberToJson, hwhole]
        exact if_neg hsmall
      rw [hdecimal, normalNumber_of_finite hfinite hsigned, ofJson]
  | none =>
    rw [numberToJson, hwhole]
    cases hfinite : x.isFinite with
    | true => exact (normalNumber_of_finite hfinite hsigned).symm
    | false =>
      rw [Number.isFinite_eq, Bool.not_eq_false'] at hfinite
      exact (if_pos hfinite).symm

/-! ## Values

The recursion goes through a value once. A map is normal when its entries are,
and then those of one name are merged. Merging does not look at the values, so
it makes no difference that writing merges first and makes normal what is left.
-/

mutual

/-- **What JSON makes of a value.** It is written without mentioning JSON, by
recursion on the value, so that the theorem about it says something: keys
become texts, entries whose keys show alike are merged, and numbers lose what
JSON cannot hold. -/
def normal : Value → Value
  | .text s => .text s
  | .number x => normalNumber x
  | .truth b => .truth b
  | .array items => .array (normalItems items)
  | .map entries =>
    .map ((Bindings.merged (normalEntries entries)).map fun (name, v) =>
      (.text name, v))

/-- What it makes of the items of an array. -/
def normalItems : List Value → List Value
  | [] => []
  | v :: vs => v.normal :: normalItems vs

/-- What it makes of the entries of a map, before those of one name are
merged. -/
def normalEntries : List (Key × Value) → List (String × Value)
  | [] => []
  | (k, v) :: rest => (k.display, v.normal) :: normalEntries rest

end

/-- The members of an object as entries of a map. -/
theorem entriesOfJson_setAll (members : List (String × Json)) :
    entriesOfJson (Bindings.setAll [] members) =
      (Bindings.merged (members.map fun m => (m.1, ofJson m.2))).map
        fun (name, v) => (.text name, v) := by
  rw [Bindings.merged_map, entriesOfJson_eq_map, Bindings.setAll_eq_merged,
    List.map_map]
  rfl

mutual

/-- **A value that is written and read again is normal.** The three theorems go
along with the three functions that write a value, and use each other for its
parts. -/
theorem ofJson_toJson_eq_normal : ∀ v : Value, ofJson v.toJson = v.normal
  | .text _ => rfl
  | .number x => ofJson_numberToJson x
  | .truth _ => rfl
  | .array items => by
    rw [toJson, ofJson, normal, listOfJson_listToJson_eq_normal items]
  | .map entries => by
    rw [toJson, ofJson, entriesOfJson_setAll, normal,
      entriesToJson_eq_normal entries]

theorem listOfJson_listToJson_eq_normal :
    ∀ items : List Value, listOfJson (listToJson items) = normalItems items
  | [] => rfl
  | v :: vs => by
    rw [listToJson, listOfJson, normalItems, ofJson_toJson_eq_normal v,
      listOfJson_listToJson_eq_normal vs]

theorem entriesToJson_eq_normal :
    ∀ entries : List (Key × Value),
      (entriesToJson entries).map (fun m => (m.1, ofJson m.2))
        = normalEntries entries
  | [] => rfl
  | (k, v) :: rest => by
    rw [entriesToJson, List.map_cons, normalEntries, ofJson_toJson_eq_normal v,
      entriesToJson_eq_normal rest]

end

/-! ## What stays

A value that loses nothing and holds no key twice is its own normal value, and
normal values are of this kind. From these two facts the rest follows: a second
time changes nothing, and if the first time changes nothing the value is normal
already. -/

/-- **A value that loses nothing**: the keys of its maps are texts, and its
numbers are finite and not the negative zero. These are the three things that
JSON has no way to write; what else a value is made of comes back as it was. -/
inductive Lossless : Value → Prop
  | text (s : String) : Lossless (.text s)
  | truth (b : Bool) : Lossless (.truth b)
  | number {x : Float} (hnumber : x.isNaN = false) (hfinite : x.isInf = false)
      (hsigned : x ≠ -0.0) : Lossless (.number x)
  | array {items : List Value} (each : ∀ v ∈ items, v.Lossless) :
      Lossless (.array items)
  | map {entries : Table Value} (texts : ∀ k ∈ entries.keys, ∃ s, k = .text s)
      (each : ∀ e ∈ entries, e.2.Lossless) : Lossless (.map entries)

theorem normalItems_eq_map (items : List Value) :
    normalItems items = items.map normal := by
  induction items with
  | nil => rfl
  | cons v vs ih => rw [normalItems, ih, List.map_cons]

theorem normalEntries_eq_map (entries : List (Key × Value)) :
    normalEntries entries = entries.map fun e => (e.1.display, e.2.normal) := by
  induction entries with
  | nil => rfl
  | cons e rest ih =>
    obtain ⟨k, v⟩ := e
    rw [normalEntries, ih, List.map_cons]

/-- **Nothing that loses nothing changes**, if its keys are different. The
induction is on the derivation that it loses nothing. The keys have to be
different because an object read back has no name twice. -/
theorem Lossless.normal_eq {v : Value} (h : v.Lossless) (hform : v.WellFormed) :
    v.normal = v := by
  induction h with
  | text s => rfl
  | truth b => rfl
  | @number x hnumber hfinite hsigned =>
    rw [normal, normalNumber, hnumber, hfinite, Bool.or_false,
      if_neg Bool.false_ne_true, if_neg hsigned]
  | @array items _ ih =>
    rw [normal, normalItems_eq_map,
      List.map_congr_left fun v hv => ih v hv (hform.items v hv), List.map_id']
  | @map entries texts _ ih =>
    have hentries :
        normalEntries entries = entries.map fun e => (e.1.display, e.2) := by
      rw [normalEntries_eq_map]
      refine List.map_congr_left fun e he => ?_
      rw [ih e he (hform.entries e he)]
    have hdistinct : ((normalEntries entries).map Prod.fst).Nodup := by
      rw [hentries, List.map_map]
      refine List.pairwise_map.2
        (hform.distinct.imp_of_mem fun {a b} ha hb hsame heq => ?_)
      obtain ⟨s, hs⟩ := texts a.1 (List.mem_map_of_mem ha)
      obtain ⟨s', hs'⟩ := texts b.1 (List.mem_map_of_mem hb)
      have hshown : a.1.display = b.1.display := heq
      rw [hs, hs'] at hsame hshown
      exact beq_eq_false_iff_ne.1 hsame hshown
    rw [normal, ← Bindings.setAll_eq_merged, Bindings.setAll_of_nodup hdistinct,
      List.nil_append, hentries, List.map_map]
    refine congrArg Value.map
      ((List.map_congr_left fun e he => ?_).trans entries.map_id')
    obtain ⟨s, hs⟩ := texts e.1 (List.mem_map_of_mem he)
    refine Prod.ext ?_ rfl
    show Key.text e.1.display = e.1
    rw [hs]
    rfl

theorem lossless_normalNumber (x : Float) : (normalNumber x).Lossless := by
  unfold normalNumber
  cases hfinite : x.isNaN || x.isInf with
  | true => exact .text ""
  | false =>
    rw [if_neg Bool.false_ne_true]
    split
    · exact .number (by decide +kernel) (by decide +kernel) (by decide +kernel)
    · next hsigned =>
      obtain ⟨hnumber, hinf⟩ := Bool.or_eq_false_iff.1 hfinite
      exact .number hnumber hinf hsigned

/-- The entries of a normal map have different texts for keys, and values of
those before. -/
theorem of_normalEntries {P : Value → Prop} {entries : List (Key × Value)}
    (h : ∀ e ∈ normalEntries entries, P e.2) :
    ∀ e ∈ (Bindings.merged (normalEntries entries)).map fun (name, v) =>
      (Key.text name, v),
      P e.2 := by
  rw [← Bindings.setAll_eq_merged]
  exact List.forall_mem_map.2 (Bindings.forall_mem_setAll h nofun)

mutual

/-- **What is normal loses nothing.** So making a value normal twice is the
same as making it normal once. -/
theorem lossless_normal : ∀ v : Value, v.normal.Lossless
  | .text s => .text s
  | .number x => lossless_normalNumber x
  | .truth b => .truth b
  | .array items => .array (lossless_normalItems items)
  | .map entries => by
    refine .map (fun k hk => ?_)
      (of_normalEntries (lossless_normalEntries entries))
    obtain ⟨e, he, rfl⟩ := List.mem_map.1 hk
    obtain ⟨⟨name, v⟩, -, rfl⟩ := List.mem_map.1 he
    exact ⟨name, rfl⟩

theorem lossless_normalItems :
    ∀ items : List Value, ∀ v ∈ normalItems items, v.Lossless
  | [] => nofun
  | v :: vs =>
    List.forall_mem_cons.2 ⟨lossless_normal v, lossless_normalItems vs⟩

theorem lossless_normalEntries :
    ∀ entries : List (Key × Value), ∀ e ∈ normalEntries entries, e.2.Lossless
  | [] => nofun
  | (_, v) :: rest =>
    List.forall_mem_cons.2 ⟨lossless_normal v, lossless_normalEntries rest⟩

end

mutual

/-- **What is normal is well formed**, whatever it was before: keys that show
alike have been merged. There may be keys in a map that are no number, each in
an entry of its own; as texts they are all alike. -/
theorem wellFormed_normal : ∀ v : Value, v.normal.WellFormed
  | .text s => .text s
  | .number x => by
    unfold normal normalNumber
    split
    · exact .text ""
    · exact .number _
  | .truth b => .truth b
  | .array items => .array (wellFormed_normalItems items)
  | .map entries => by
    refine .map ?_ (of_normalEntries (wellFormed_normalEntries entries))
    rw [← Bindings.setAll_eq_merged]
    have hnames :
        ((Bindings.setAll [] (normalEntries entries)).map Prod.fst).Nodup :=
      Bindings.nodup_setAll .nil
    refine List.pairwise_map.2 ((List.pairwise_map.1 hnames).imp fun hne => ?_)
    exact beq_eq_false_iff_ne.2 hne

theorem wellFormed_normalItems :
    ∀ items : List Value, ∀ v ∈ normalItems items, v.WellFormed
  | [] => nofun
  | v :: vs =>
    List.forall_mem_cons.2 ⟨wellFormed_normal v, wellFormed_normalItems vs⟩

theorem wellFormed_normalEntries :
    ∀ entries : List (Key × Value), ∀ e ∈ normalEntries entries, e.2.WellFormed
  | [] => nofun
  | (_, v) :: rest =>
    List.forall_mem_cons.2 ⟨wellFormed_normal v, wellFormed_normalEntries rest⟩

end

/-- **JSON makes values normal.** What is written and read again is the normal
value; a second time changes nothing; and a value stays as it is exactly if it
loses nothing and no map in it holds a key twice. -/
theorem json_normalises (v : Value) :
    ofJson v.toJson = v.normal ∧
    ofJson (ofJson v.toJson).toJson = ofJson v.toJson ∧
    (ofJson v.toJson = v ↔ v.WellFormed ∧ v.Lossless) := by
  rw [ofJson_toJson_eq_normal, ofJson_toJson_eq_normal]
  refine ⟨rfl, (lossless_normal v).normal_eq (wellFormed_normal v), fun h => ?_,
    fun ⟨hform, hlossless⟩ => hlossless.normal_eq hform⟩
  rw [← h]
  exact ⟨wellFormed_normal v, lossless_normal v⟩

/-- Keys of three kinds that show alike, and numbers that do not stay. -/
example : normal (.map [(.truth true, .number (-0.0)), (.number 1, .text "one"),
      (.text "true", .array [.number (0.0 / 0.0), .number 0.5]),
      (.text "1", .truth false)]) =
    .map [(.text "true", .array [.text "", .number 0.5]),
      (.text "1", .truth false)] := by
  rfl

end Value

end StreamScript
