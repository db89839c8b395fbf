import StreamScript.Proofs.Keeping

/-!
# Well-formed values

A map is a list of entries, and nothing in its type keeps a key from standing
in it twice. A value is well formed if no map in it, at any depth, holds one
key in two entries. Keys are one if they are of one kind and equal: the two
zeros are one number, and what is not a number is no key but its own, so that a
well-formed map may hold it again and again.

Maps come about in two ways. One is entry by entry, by the two changes that a
map knows (`MapChange`): both look for the key first. The other is all at once,
from an object of JSON, whose names are distinct since a name that comes again
takes the place of the first.
-/

namespace StreamScript

/-! ## Keys

To be one key is to be of one kind and equal there. For texts and truth values
that is identity. For numbers it is the comparison of floats, which takes the
two zeros for equal and does not take what is no number for equal to itself; so
to be one key goes both ways, and is not true of every key and itself. -/

open Float.Model (UnpackedFloat) in
/-- Floats compared from the other side. -/
theorem compare_eq_swap (a b : UnpackedFloat) :
    a.compare b = (b.compare a).map Ordering.swap := by
  have sign : ∀ s s' : UnpackedFloat.Sign,
      compare s s' = (compare s' s).swap := by
    intro s s'
    cases s <;> cases s' <;> rfl
  have magnitude : ∀ (m m' : Nat) (e e' : Int),
      (compare e e').then (compare m m')
      = ((compare e' e).then (compare m' m)).swap := by
    intro m m' e e'
    rw [Ordering.swap_then, ← Std.OrientedOrd.eq_swap,
      ← Std.OrientedOrd.eq_swap]
  rcases a with s | _ | _ | ⟨_ | _, m, e, _⟩ <;> rcases b with s' | _ | _ |
      ⟨_ | _, m', e', _⟩
  case infinity.infinity => exact congrArg some (sign s s')
  case finite.negative.finite.negative =>
    exact congrArg some (congrArg Ordering.swap (magnitude m m' e e'))
  case finite.positive.finite.positive =>
    exact congrArg some (magnitude m m' e e')
  all_goals first | rfl | (cases s <;> rfl) | (cases s' <;> rfl)

/-- **To be one key** goes both ways. Numbers are compared as floats, and for
these it has to be shown; everything else is compared by being equal. -/
theorem Key.same_comm (a b : Key) : a.same b = b.same a := by
  cases a <;> cases b
  case number.number x y =>
    show (x.toModel.unpack.compare y.toModel.unpack == some Ordering.eq) =
      (y.toModel.unpack.compare x.toModel.unpack == some Ordering.eq)
    rw [compare_eq_swap]
    rcases y.toModel.unpack.compare x.toModel.unpack with _ | _ | _ | _ <;> rfl
  all_goals first | rfl | exact Bool.beq_comm

namespace Table

variable {V : Type}

/-- **A map in which no two entries have one key.** What is no number is not
the same key as itself, so there may be several entries with such keys. -/
def Distinct (t : Table V) : Prop :=
  t.Pairwise fun a b => a.1.same b.1 = false

/-- What is in a map after a change. -/
theorem mem_alter {change : Option V → V} {k : Key} {t : Table V}
    {entry : Key × V} (h : entry ∈ alter change k t) :
    entry ∈ t ∨ entry = (k, change none) ∨ ∃ old ∈ t,
    entry = (old.1, change (some old.2)) := by
  induction t with
  | nil => exact .inr (.inl (List.mem_singleton.1 h))
  | cons old t ih =>
    obtain ⟨k', v⟩ := old
    unfold alter at h
    split at h
    · rcases List.mem_cons.1 h with rfl | h
      · exact .inr (.inr ⟨(k', v), List.mem_cons_self, rfl⟩)
      · exact .inl (List.mem_cons_of_mem _ h)
    · rcases List.mem_cons.1 h with rfl | h
      · exact .inl List.mem_cons_self
      · rcases ih h with h | h | ⟨old, hold, h⟩
        · exact .inl (List.mem_cons_of_mem _ h)
        · exact .inr (.inl h)
        · exact .inr (.inr ⟨old, List.mem_cons_of_mem _ hold, h⟩)

/-- **A change makes no second entry of a key.** The entry is looked for first,
and one is added only where no entry has the key. So whatever the operations on
maps are made of, a map that begins empty keeps its keys apart. -/
theorem Distinct.alter {t : Table V} (h : t.Distinct) (change : Option V → V)
    (k : Key) :
    (Table.alter change k t).Distinct := by
  induction t with
  | nil => exact List.pairwise_singleton _ _
  | cons old t ih =>
    obtain ⟨k', v⟩ := old
    obtain ⟨hold, ht⟩ := List.pairwise_cons.1 h
    unfold Table.alter
    split
    · exact List.pairwise_cons.2 ⟨hold, ht⟩
    · next hk =>
      refine List.pairwise_cons.2 ⟨fun entry hentry => ?_, ih ht⟩
      rcases mem_alter hentry with hmem | rfl | ⟨old, hmem, rfl⟩
      · exact hold entry hmem
      · exact Bool.eq_false_iff.2 hk
      · exact hold old hmem

end Table

/-! ## Values

A value is a tree, and what is asked of its maps is asked at every depth. The
lemmas say how a value that is well formed comes to another: by an element or
an entry of it, by a change of a map, by a member that is added to a group. -/

namespace Value

/-- **A well-formed value**: in every map inside it, at any depth, each key has
one entry. That keys are texts, numbers or truth values is in their type, so
there is nothing to be said about it. -/
inductive WellFormed : Value → Prop
  | text (s : String) : WellFormed (.text s)
  | number (x : Float) : WellFormed (.number x)
  | truth (b : Bool) : WellFormed (.truth b)
  | array {items : List Value} : (∀ v ∈ items, v.WellFormed) →
      WellFormed (.array items)
  | map {entries : Table Value} : entries.Distinct →
    (∀ entry ∈ entries, entry.2.WellFormed) →
    WellFormed (.map entries)

namespace WellFormed

theorem items {items : List Value} (h : WellFormed (.array items)) :
    ∀ v ∈ items, v.WellFormed := by
  cases h with
  | array h => exact h

theorem distinct {entries : Table Value} (h : WellFormed (.map entries)) :
    entries.Distinct := by
  cases h with
  | map hdistinct _ => exact hdistinct

theorem entries {entries : Table Value} (h : WellFormed (.map entries)) :
    ∀ entry ∈ entries, entry.2.WellFormed := by
  cases h with
  | map _ hentries => exact hentries

/-- A key is well formed as a value. -/
theorem toValue (k : Key) : k.toValue.WellFormed := by
  cases k with
  | text s => exact .text s
  | number x => exact .number x
  | truth b => exact .truth b

/-- A map after one of its values is changed. -/
theorem alter {entries : Table Value} (h : WellFormed (.map entries))
    {change : Option Value → Value} (hnone : (change none).WellFormed)
    (hsome : ∀ v, v.WellFormed → (change (some v)).WellFormed) (k : Key) :
    WellFormed (.map (Table.alter change k entries)) := by
  refine .map (h.distinct.alter change k) fun entry hentry => ?_
  rcases Table.mem_alter hentry with hmem | rfl | ⟨old, hmem, rfl⟩
  · exact h.entries entry hmem
  · exact hnone
  · exact hsome old.2 (h.entries old hmem)

/-- A group with one more member. -/
theorem join {v : Value} (hv : v.WellFormed) {group : Option Value}
    (h : ∀ g ∈ group, g.WellFormed) : (addToGroup.join v group).WellFormed := by
  unfold addToGroup.join
  split
  · exact .array (List.forall_mem_singleton.2 hv)
  · exact .array
      (List.forall_mem_append.2 ⟨(h _ rfl).items, List.forall_mem_singleton.2 hv⟩)
  · exact .array
      (List.forall_mem_cons.2 ⟨h _ rfl, List.forall_mem_singleton.2 hv⟩)

end WellFormed

end Value

/-! ## Changes of a map

While a script runs a map is changed in two ways only, and both are changes of
the value of one key. A list of changes is a history of a map, and `applyAll`
is what the history comes to. What a history leaves is the subject of a module
of its own; here it is only that nothing in it makes a map that is not well
formed. -/

/-- **A change of a map**, by the value of a key. There are two ways in which
the program changes a map, and every map it makes is made by a row of them. -/
inductive MapChange where
  /-- The key is bound to the value. -/
  | set (key v : Value)
  /-- The value is added to the group of the key. -/
  | add (key v : Value)

namespace MapChange

/-- The value that a change brings. -/
def value : MapChange → Value
  | set _ v | add _ v => v

/-- A map after a change, which fails if its key is none. -/
def apply (entries : Table Value) : MapChange → Except RunError (Table Value)
  | set key v => Value.setEntry entries key v
  | add key v => Value.addToGroup entries key v

/-- **What changes make of the empty map**, one after the other. One that fails
leaves the map as it is, as a scope does that has failed on a key. So a
statement about all rows of changes is one about all maps that a `pivot` or a
member of JSON can have come from. -/
def applyAll (changes : List MapChange) : Table Value :=
  changes.foldl
    (fun entries change => (change.apply entries).toOption.getD entries) []

/-- **A change keeps maps well formed.** The value that is added has to be well
formed, and the key makes no difference, as keys hold no maps. -/
theorem gives_apply {entries : Table Value} (h : (Value.map entries).WellFormed)
    {change : MapChange} (hv : change.value.WellFormed) :
    Gives (fun entries => (Value.map entries).WellFormed)
    (change.apply entries) := by
  have hkey : ∀ key : Value, Gives (fun _ => True) key.toKey :=
    fun _ _ _ => trivial
  cases change with
  | set key v => exact (hkey key).map fun k _ => h.alter hv (fun _ _ => hv) k
  | add key v =>
    exact (hkey key).map fun k _ => h.alter (.join hv nofun)
      (fun w hw => .join hv (by rintro _ ⟨⟩; exact hw)) k

/-- Whatever changes are made, the map is well formed if their values are. -/
theorem wellFormed_applyAll {changes : List MapChange}
    (h : ∀ change ∈ changes, change.value.WellFormed) :
    (Value.map (applyAll changes)).WellFormed := by
  suffices ∀ entries : Table Value, (Value.map entries).WellFormed →
      (Value.map (changes.foldl (fun entries change =>
        (change.apply entries).toOption.getD entries) entries)).WellFormed from
    this [] (.map .nil nofun)
  induction changes with
  | nil => exact fun _ h => h
  | cons change changes ih =>
    obtain ⟨hchange, hrest⟩ := List.forall_mem_cons.1 h
    intro entries hentries
    rw [List.foldl_cons]
    refine ih hrest _ ?_
    have hgives := gives_apply hentries hchange
    cases happly : change.apply entries with
    | error e => exact hentries
    | ok entries' => exact hgives entries' happly

end MapChange

/-! ## Objects of JSON

An object is read as a list of members, and the members are then bound one
after the other. A name that comes again takes the place of the former. That
makes names distinct at every depth, whatever the text is, and so the value
that is made of it is well formed. -/

/-- Names that are bound one after the other come once each. -/
theorem Bindings.nodup_setAll {α : Type} {b more : Bindings α}
    (h : (b.map Prod.fst).Nodup) :
    ((b.setAll more).map Prod.fst).Nodup := by
  induction more generalizing b with
  | nil => exact h
  | cons entry more ih =>
    refine ih (b := b.set entry.1 entry.2) ?_
    rw [map_fst_set]
    split
    · exact h
    · next hnew =>
      refine List.nodup_append.2 ⟨h, List.pairwise_singleton _ _, ?_⟩
      rintro _ hmem _ hname rfl
      exact hnew (List.mem_singleton.1 hname ▸ hmem)

namespace Json

/-- **A JSON value whose objects, at any depth, have distinct names.** This is
asked of the objects, as a name that came twice would be read as the same key
twice. -/
inductive Distinct : Json → Prop
  | null : Distinct .null
  | bool (b : Bool) : Distinct (.bool b)
  | integer (n : Int) : Distinct (.integer n)
  | decimal (x : Float) : Distinct (.decimal x)
  | string (s : String) : Distinct (.string s)
  | array {items : List Json} : (∀ j ∈ items, j.Distinct) →
      Distinct (.array items)
  | object {members : List (String × Json)} : (members.map Prod.fst).Nodup →
    (∀ m ∈ members, m.2.Distinct) → Distinct (.object members)

variable {α : Type} {P : α → Prop} {item : Reader α} {close : Char}

/-- What has been read up to a bracket has been read item by item. -/
theorem forall_mem_of_elements (hitem : ∀ cs x rest, item cs = some (x, rest) →
    P x) {most : Nat} {done : List α} (hdone : ∀ x ∈ done, P x)
    {cs rest : List Char} {xs : List α}
    (h : elements item close most done cs = some (xs, rest)) :
    ∀ x ∈ xs, P x := by
  induction most generalizing done cs with
  | zero => cases h
  | succ most ih =>
    unfold elements at h
    cases hx : item cs with
    | none =>
      rw [hx] at h
      cases h
    | some found =>
      obtain ⟨x, left⟩ := found
      have hmore : ∀ y ∈ x :: done, P y :=
        List.forall_mem_cons.2 ⟨hitem cs x left hx, hdone⟩
      rw [hx] at h
      dsimp only at h
      split at h
      · cases h
      · split at h
        · obtain ⟨rfl, -⟩ := Prod.mk.inj (Option.some.inj h)
          exact fun y hy => hmore y (List.mem_reverse.1 hy)
        · split at h
          · exact ih hmore h
          · cases h

/-- The same for a list with its brackets. -/
theorem forall_mem_of_bracketed (hitem : ∀ cs x rest, item cs = some (x, rest) →
    P x) {most : Nat} {cs rest : List Char} {xs : List α}
    (h : bracketed item close most cs = some (xs, rest)) :
    ∀ x ∈ xs, P x := by
  unfold bracketed at h
  split at h
  · split at h
    · obtain ⟨rfl, -⟩ := Prod.mk.inj (Option.some.inj h)
      exact nofun
    · exact forall_mem_of_elements hitem (List.forall_mem_nil P) h
  · cases h

/-- What is read as a member is a name with what is read as a value. -/
theorem of_member {value : Reader Json} {Q : Json → Prop}
    (hvalue : ∀ cs j rest, value cs = some (j, rest) → Q j)
    {cs rest : List Char} {m : String × Json}
    (h : member value cs = some (m, rest)) : Q m.2 := by
  unfold member at h
  split at h
  · split at h
    · next left _ =>
      obtain ⟨⟨j, left'⟩, hj, hm⟩ := Option.map_eq_some_iff.1 h
      obtain ⟨rfl, -⟩ := Prod.mk.inj hm
      exact hvalue left j left' hj
    · cases h
  · cases h

/-- What is read as a number is one. -/
theorem distinct_of_numberValue {negative : Bool} {whole fraction : List Char}
    {exponent : Option Int} {j : Json}
    (h : numberValue negative whole fraction exponent = some j) :
    j.Distinct := by
  unfold numberValue at h
  dsimp only at h
  split at h
  · split at h
    · obtain rfl := Option.some.inj h
      exact .integer _
    · cases h
  · split at h
    · obtain rfl := Option.some.inj h
      exact .decimal _
    · cases h

theorem distinct_of_number {cs rest : List Char} {j : Json}
    (h : number cs = some (j, rest)) :
    j.Distinct := by
  unfold number at h
  simp only [bind, Option.bind_eq_some_iff] at h
  obtain ⟨_, _, _, _, _, _, value, hvalue, hj⟩ := h
  obtain ⟨rfl, -⟩ := Prod.mk.inj (Option.some.inj hj)
  exact distinct_of_numberValue hvalue

/-- **What is read has distinct names** in all its objects. A reader binds the
members one after the other and keeps one binding for each name, so the names
it hands back are distinct, whatever the text says. -/
theorem distinct_of_value {most levels : Nat} {cs rest : List Char} {j : Json}
    (h : value most levels cs = some (j, rest)) : j.Distinct := by
  induction levels using Nat.strongRecOn generalizing cs rest j with
  | _ levels ih =>
    unfold value at h
    split at h
    · obtain ⟨rfl, -⟩ := Prod.mk.inj (Option.some.inj h)
      exact .null
    · obtain ⟨rfl, -⟩ := Prod.mk.inj (Option.some.inj h)
      exact .bool true
    · obtain ⟨rfl, -⟩ := Prod.mk.inj (Option.some.inj h)
      exact .bool false
    · obtain ⟨⟨s, left⟩, -, hj⟩ := Option.map_eq_some_iff.1 h
      obtain ⟨rfl, -⟩ := Prod.mk.inj hj
      exact .string s
    · cases levels with
      | zero => cases h
      | succ inner =>
        obtain ⟨⟨items, left⟩, hitems, hj⟩ := Option.map_eq_some_iff.1 h
        obtain ⟨rfl, -⟩ := Prod.mk.inj hj
        exact .array
          (forall_mem_of_bracketed
            (fun _ _ _ hread => ih inner inner.lt_succ_self hread) hitems)
    · cases levels with
      | zero => cases h
      | succ inner =>
        obtain ⟨⟨members, left⟩, hmembers, hj⟩ := Option.map_eq_some_iff.1 h
        obtain ⟨rfl, -⟩ := Prod.mk.inj hj
        have hvalues : ∀ m ∈ members, m.2.Distinct :=
          forall_mem_of_bracketed (fun _ _ _ hread =>
            of_member (fun _ _ _ hread => ih inner inner.lt_succ_self hread)
              hread) hmembers
        exact .object (Bindings.nodup_setAll .nil)
          (Bindings.forall_mem_setAll hvalues nofun)
    · exact distinct_of_number h

/-- A whole text holds one value, with blanks around it. -/
theorem distinct_of_ofChars? {cs : List Char} {j : Json}
    (h : ofChars? cs = some j) :
    j.Distinct := by
  unfold ofChars? at h
  split at h
  · next found =>
    split at h
    · obtain rfl := Option.some.inj h
      exact distinct_of_value found
    · cases h
  · cases h

end Json

namespace Value

theorem listOfJson_eq_map (items : List Json) :
    listOfJson items = items.map ofJson := by
  induction items with
  | nil => rfl
  | cons j items ih => rw [listOfJson, ih, List.map_cons]

theorem entriesOfJson_eq_map (members : List (String × Json)) :
    entriesOfJson members = members.map fun m => (.text m.1, ofJson m.2) := by
  induction members with
  | nil => rfl
  | cons m members ih =>
    obtain ⟨name, j⟩ := m
    rw [entriesOfJson, ih, List.map_cons]

/-- **The value of a JSON text is well formed** if the names in its objects are
distinct. All keys of the maps in it are texts, and the texts are the names. -/
theorem wellFormed_ofJson {j : Json} (h : j.Distinct) :
    (ofJson j).WellFormed := by
  induction h with
  | null => exact .text ""
  | bool b => exact .truth b
  | integer n => exact .number _
  | decimal x => exact .number x
  | string s => exact .text s
  | array _ ih =>
    rw [ofJson, listOfJson_eq_map]
    exact .array (List.forall_mem_map.2 ih)
  | @object members hnames _ ih =>
    rw [ofJson, entriesOfJson_eq_map]
    refine .map ?_ (List.forall_mem_map.2 ih)
    refine List.pairwise_map.2 ((List.pairwise_map.1 hnames).imp fun hne => ?_)
    exact beq_eq_false_iff_ne.2 hne

end Value

end StreamScript
