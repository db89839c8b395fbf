import Mathlib.Data.List.Basic
import Mathlib.Data.List.Induction
import StreamScript.Proofs.Groups

/-!
# What a map remembers of its changes

Two kinds of changes share one list of entries, and they may come in any order:
one binds a key to a value, the other adds a value to the group of a key, which
makes a group of whatever stood there before. What a map holds in the end is
said here without its entries, from the changes alone (`MapChange.Remembers`).
The keys come as they were first used. Under a key is the value that it was
bound to last, with everything behind it that was added since; if it was never
bound, the group of all that was added.

Only the changes of one key matter to its value. A change whose key is an array
or a map is no change at all, and one whose key is NaN makes an entry that no
key finds, itself included.
-/

namespace StreamScript

namespace Value

/-! ## Keys, groups and histories

A value is a key if it is a text, a number or a truth value, and two keys are
one if they are of one kind and equal. To add a value to a key whose value is
no group makes a group of both, with the old value in front. The definitions
say what a key is bound to after a history of such changes, without looking at
any map. -/

/-- Whether two values are one key. -/
def sameKey (a b : Value) : Bool :=
  match a.toKey?, b.toKey? with
  | some k, some k' => k.same k'
  | _, _ => false

/-- What stands first in the group that a value becomes. -/
def members : Value → List Value
  | .array items => items
  | v => [v]

/-- A value with others added behind it. It becomes a group with the first of
them. -/
def withAdded (v : Value) : List Value → Value
  | [] => v
  | added => .array (v.members ++ added)

/-- The group of the values that were added. There is none before the first. -/
def groupOf : List Value → Option Value
  | [] => none
  | added => some (.array added)

/-- Which value a key is. -/
theorem eq_toValue_of_toKey? {v : Value} {k : Key} (h : v.toKey? = some k) :
    v = k.toValue := by
  cases v with
  | text s | number x | truth b => exact Option.some.inj h ▸ rfl
  | array items | map entries => cases h

/-- One more value is added behind the others. -/
theorem join_withAdded (v w : Value) (added : List Value) :
    addToGroup.join w (some (v.withAdded added))
      = v.withAdded (added ++ [w]) := by
  cases added with
  | nil => cases v <;> rfl
  | cons first added =>
    show Value.array (v.members ++ first :: added ++ [w]) =
      .array (v.members ++ (first :: added ++ [w]))
    rw [List.append_assoc]

/-- and how it comes about by adding one. -/
theorem join_groupOf (w : Value) (added : List Value) :
    addToGroup.join w (groupOf added) = .array (added ++ [w]) := by
  cases added <;> rfl

/-- A group with one more member, -/
theorem groupOf_concat (w : Value) (added : List Value) :
    groupOf (added ++ [w]) = some (.array (added ++ [w])) := by
  cases added <;> rfl

theorem entry?_toValue (entries : Table Value) (k : Key) :
    entry? entries k.toValue = entries.get? k := by
  unfold entry?
  rw [toKey?_toValue, Option.bind_some]

end Value

theorem Key.mem_of_mem_firsts {k : Key} {ks : List Key} (h : k ∈ firsts ks) :
    k ∈ ks := by
  obtain ⟨⟨k', i⟩, hmem, rfl⟩ := List.mem_map.1 h
  exact List.fst_mem_of_mem_zipIdx (List.mem_filter.1 hmem).1

/-- A number that is none is not one with any key. -/
theorem Key.same_eq_false_of_isNaN {x : Float} (hx : x.isNaN = true) (k : Key) :
    k.same (.number x) = false := by
  cases k with
  | number y =>
    refine Bool.eq_false_iff.2 fun hsame => ?_
    have hnumber := (Key.same_number_iff.1 hsame).2.1
    rw [hx] at hnumber
    cases hnumber
  | _ => rfl

/-- It gets an entry of its own. -/
theorem Table.alter_of_isNaN {V : Type} {x : Float} (hx : x.isNaN = true)
    (change : Option V → V) (t : Table V) :
    alter change (.number x) t = t ++ [(.number x, change none)] := by
  induction t with
  | nil => rfl
  | cons entry t ih =>
    rw [alter, if_neg (Bool.eq_false_iff.1
      (Key.same_eq_false_of_isNaN hx entry.1)), ih, List.cons_append]

namespace MapChange

open Value

/-- The key of a change, as a value. -/
def key : MapChange → Value
  | set key _ | add key _ => key

/-- Whether a change is one of this key. -/
def isOf (key : Value) (change : MapChange) : Bool :=
  change.key.sameKey key

/-- Whether a change binds this key. -/
def binds (key : Value) : MapChange → Bool
  | set k _ => k.sameKey key
  | add _ _ => false

/-- **The values that are added to the group of a key**, in the order in which
they come. -/
def addedTo (key : Value) (changes : List MapChange) : List Value :=
  changes.filterMap fun
    | set _ _ => none
    | add k v => if k.sameKey key then some v else none

/-- What a change makes of the value of its key. -/
def change : MapChange → Option Value → Value
  | set _ v => fun _ => v
  | add _ v => Value.addToGroup.join v

/-- **What a map holds after some changes.** -/
structure Remembers (entries : Table Value) (changes : List MapChange) :
    Prop where
  /-- The keys come as they were first used. -/
  order : entries.keys = Key.firsts (changes.filterMap (·.key.toKey?))
  /-- Each of them has one entry. -/
  distinct : entries.Distinct
  /-- A key has the value that it was bound to last, and what was added
  since. -/
  bound : ∀ {before after : List MapChange} {k v key : Value},
    changes = before ++ set k v :: after → k.sameKey key = true →
    (∀ c ∈ after, c.binds key = false) →
    entry? entries key = some (v.withAdded (addedTo key after))
  /-- A key that was never bound has the group of what was added. -/
  grouped : ∀ {key : Value}, (∀ c ∈ changes, c.binds key = false) →
    entry? entries key = Value.groupOf (addedTo key changes)
  /-- Only a key that was never used has no value. -/
  absent : ∀ key : Value,
    entry? entries key = none ↔ ∀ c ∈ changes, c.isOf key = false

variable {entries entries' : Table Value} {changes : List MapChange}
    {c : MapChange} {key : Value}

/-! ## One change

A change is made at the entry of its key, or fails because its key is none.
Under the same key the new value is seen afterwards, and under all others what
was there before. A number that is none is not one with any key, not even with
itself, so a change of it is never seen under a key. -/

/-- Both changes are made at the entry of the key. -/
theorem apply_eq (entries : Table Value) (c : MapChange) :
    c.apply entries = c.key.toKey.map fun k =>
      Table.alter c.change k entries := by
  cases c <;> rfl

theorem apply_of_key {k : Key} (hk : c.key.toKey? = some k)
    (entries : Table Value) :
    c.apply entries = .ok (Table.alter c.change k entries) := by
  rw [apply_eq, Value.toKey, hk]
  rfl

/-- **A change whose key is none** fails. -/
theorem apply_of_no_key (hk : c.key.toKey? = none) (entries : Table Value) :
    c.apply entries = .error (.notAKey c.key.kind) := by
  rw [apply_eq, Value.toKey, hk]
  rfl

/-- One more change is made of what the others have left. -/
theorem applyAll_concat (changes : List MapChange) (c : MapChange) :
    applyAll (changes ++ [c]) = (c.apply (applyAll changes)).toOption.getD
      (applyAll changes) := by
  rw [applyAll, List.foldl_append]
  rfl

theorem applyAll_concat_of_key {k : Key} (hk : c.key.toKey? = some k)
    (changes : List MapChange) :
    applyAll (changes ++ [c]) = Table.alter c.change k (applyAll changes) := by
  rw [applyAll_concat, apply_of_key hk]
  rfl

theorem applyAll_concat_of_no_key (hk : c.key.toKey? = none)
    (changes : List MapChange) :
    applyAll (changes ++ [c]) = applyAll changes := by
  rw [applyAll_concat, apply_of_no_key hk]
  rfl

theorem isOf_eq_false_of_no_key (hk : c.key.toKey? = none) (key : Value) :
    c.isOf key = false := by
  unfold isOf Value.sameKey
  rw [hk]

theorem isOf_toValue (c : MapChange) (k : Key) :
    c.isOf k.toValue = c.key.toKey?.any (·.same k) := by
  unfold isOf Value.sameKey
  rw [Value.toKey?_toValue]
  cases c.key.toKey? <;> rfl

/-- **A change of a key** is seen under this key. -/
theorem entry?_alter_of_isOf {k : Key} (hk : c.key.toKey? = some k)
    (h : c.isOf key = true) (entries : Table Value) :
    entry? (Table.alter c.change k entries) key =
      some (c.change <| entry? entries key) := by
  unfold isOf Value.sameKey at h
  unfold entry?
  rw [hk] at h
  cases hkey : key.toKey? with
  | none =>
    rw [hkey] at h
    cases h
  | some k' =>
    rw [hkey] at h
    exact Table.get?_alter_of_same h

/-- **It is not seen under any other.** -/
theorem entry?_alter_of_not_isOf {k : Key} (hk : c.key.toKey? = some k)
    (h : c.isOf key = false) (entries : Table Value) :
    entry? (Table.alter c.change k entries) key = entry? entries key := by
  unfold isOf Value.sameKey at h
  unfold entry?
  rw [hk] at h
  cases hkey : key.toKey? with
  | none => rfl
  | some k' =>
    rw [hkey] at h
    exact Table.get?_alter_of_not_same (Bool.eq_false_iff.1 h)

/-- A change of one key leaves the values of the others, also if it fails. -/
theorem entry?_applyAll_concat (h : c.isOf key = false)
    (changes : List MapChange) :
    entry? (applyAll (changes ++ [c])) key = entry? (applyAll changes) key := by
  cases hk : c.key.toKey? with
  | none => rw [applyAll_concat_of_no_key hk]
  | some k => rw [applyAll_concat_of_key hk, entry?_alter_of_not_isOf hk h]

theorem entry?_applyAll_concat_of_isOf (h : c.isOf key = true)
    (changes : List MapChange) :
    entry? (applyAll (changes ++ [c])) key =
      some (c.change <| entry? (applyAll changes) key) := by
  cases hk : c.key.toKey? with
  | none =>
    rw [isOf_eq_false_of_no_key hk] at h
    cases h
  | some k => rw [applyAll_concat_of_key hk, entry?_alter_of_isOf hk h]

theorem addedTo_concat (key : Value) (changes : List MapChange)
    (c : MapChange) :
    addedTo key (changes ++ [c]) = addedTo key changes ++ addedTo key [c] :=
  List.filterMap_append

theorem addedTo_eq_nil (h : c.isOf key = false) : addedTo key [c] = [] := by
  cases c with
  | set k v => rfl
  | add k v =>
    show List.filterMap _ [add k v] = []
    change k.sameKey key = false at h
    simp [h]

theorem addedTo_add {k : Value} (h : k.sameKey key = true) (v : Value) :
    addedTo key [add k v] = [v] := by
  show List.filterMap _ [add k v] = _
  simp [h]

namespace Remembers

theorem nil : Remembers [] [] where
  order := rfl
  distinct := .nil
  bound h := by simp at h
  grouped {key} _ := by cases key <;> rfl
  absent key := by cases key <;> exact iff_of_true rfl nofun

/-! ## All changes

By induction on the history, one change at the end. All parts of what a map
remembers go through the induction together, because the order of the keys
depends on whether a key has an entry already. -/

/-- A key has an entry exactly if it was used. -/
theorem contains_eq (h : Remembers entries changes) (k : Key) :
    entries.contains k = (changes.filterMap (·.key.toKey?)).any (·.same k) := by
  have habsent : entries.get? k = none ↔ ∀ c ∈ changes,
      c.key.toKey?.any (·.same k) = false := by
    simp only [← isOf_toValue, ← h.absent k.toValue, Value.entry?_toValue]
  have hany : (changes.filterMap (·.key.toKey?)).any (·.same k) = false ↔
      ∀ c ∈ changes, c.key.toKey?.any (·.same k) = false := by
    simp only [List.any_eq_false, List.mem_filterMap, Option.any_eq_false]
    grind
  rw [Table.contains, Bool.eq_iff_iff, ← not_iff_not, Bool.not_eq_true,
    Bool.not_eq_true, hany, ← habsent, Option.isSome_eq_false_iff,
    Option.isNone_iff_eq_none]

/-- **One more change** is remembered. -/
theorem concat (h : Remembers (applyAll changes) changes) (c : MapChange) :
    Remembers (applyAll (changes ++ [c])) (changes ++ [c]) := by
  have hkeys : (changes ++ [c]).filterMap (·.key.toKey?) =
      changes.filterMap (·.key.toKey?) ++ c.key.toKey?.toList := by
    rw [List.filterMap_append]
    cases hk : c.key.toKey? <;> simp [hk]
  refine ⟨?_, ?_, ?_, ?_, ?_⟩
  · rw [hkeys]
    cases hk : c.key.toKey? with
    | none =>
      rw [applyAll_concat_of_no_key hk, Option.toList_none, List.append_nil,
        h.order]
    | some k =>
      rw [applyAll_concat_of_key hk, Option.toList_some, Table.keys_alter,
        h.contains_eq, Key.firsts_concat, h.order]
  · cases hk : c.key.toKey? with
    | none =>
      rw [applyAll_concat_of_no_key hk]
      exact h.distinct
    | some k =>
      rw [applyAll_concat_of_key hk]
      exact h.distinct.alter _ k
  · intro before after k v key hsplit hsame hafter
    obtain rfl | ⟨after, c', rfl⟩ := after.eq_nil_or_concat'
    -- The change itself is the last binding.
    · obtain ⟨rfl, hc⟩ := List.append_inj' hsplit rfl
      obtain rfl := List.singleton_inj.1 hc
      have hof : (set k v).isOf key = true := hsame
      rw [entry?_applyAll_concat_of_isOf hof]
      rfl
    · rw [← List.cons_append, ← List.append_assoc] at hsplit
      obtain ⟨rfl, hc⟩ := List.append_inj' hsplit rfl
      obtain rfl := List.singleton_inj.1 hc
      obtain ⟨hafter, hlast⟩ := List.forall_mem_append.1 hafter
      have hbound := h.bound rfl hsame hafter
      rw [addedTo_concat]
      cases hof : c.isOf key with
      | false =>
        rw [entry?_applyAll_concat hof, hbound, addedTo_eq_nil hof,
          List.append_nil]
      | true =>
        obtain ⟨k', w⟩ | ⟨k', w⟩ := c
        · have hbinds := hlast _ (List.mem_singleton.2 rfl)
          exact absurd hof (Bool.eq_false_iff.1 hbinds)
        · rw [entry?_applyAll_concat_of_isOf hof, hbound,
            addedTo_add (k := k') hof]
          exact congrArg some (Value.join_withAdded v w _)
  · intro key hnever
    obtain ⟨hbefore, hlast⟩ := List.forall_mem_append.1 hnever
    rw [addedTo_concat]
    cases hof : c.isOf key with
    | false =>
      rw [entry?_applyAll_concat hof, h.grouped hbefore, addedTo_eq_nil hof,
        List.append_nil]
    | true =>
      obtain ⟨k', w⟩ | ⟨k', w⟩ := c
      · have hbinds := hlast _ (List.mem_singleton.2 rfl)
        exact absurd hof (Bool.eq_false_iff.1 hbinds)
      · rw [entry?_applyAll_concat_of_isOf hof, h.grouped hbefore,
          addedTo_add (k := k') hof, Value.groupOf_concat]
        exact congrArg some (Value.join_groupOf w _)
  · intro key
    rw [List.forall_mem_append, List.forall_mem_singleton]
    cases hof : c.isOf key with
    | false => rw [entry?_applyAll_concat hof, h.absent, and_iff_left rfl]
    | true =>
      rw [entry?_applyAll_concat_of_isOf hof]
      exact iff_of_false nofun fun hnone => Bool.false_ne_true hnone.2.symm

/-- **A map remembers its changes**, however many there are. -/
theorem ofAll (changes : List MapChange) :
    Remembers (applyAll changes) changes := by
  induction changes using List.reverseRecOn with
  | nil => exact nil
  | append_singleton changes c ih => exact ih.concat c

/-- Under a key that is equal to itself stands the value of its entry. -/
theorem entry?_of_mem (h : Remembers entries changes) {entry : Key × Value}
    (hmem : entry ∈ entries)
    (hself : ∀ x, entry.1 = .number x → x.isNaN = false) :
    entry? entries entry.1.toValue = some entry.2 := by
  rw [Value.entry?_toValue]
  exact h.distinct.get?_of_mem hmem (Key.same_self hself)

/-- **The values stand as their keys do**, if all keys are equal to
themselves. -/
theorem values_eq (h : Remembers entries changes)
    (hself : ∀ x, Key.number x ∈ entries.keys → x.isNaN = false) :
    entries.values.map some = entries.keys.map fun k =>
    entry? entries k.toValue := by
  unfold Table.values Table.keys
  rw [List.map_map, List.map_map]
  refine List.map_congr_left fun entry hmem => ?_
  refine (h.entry?_of_mem hmem fun x hx => hself x ?_).symm
  exact hx ▸ List.mem_map_of_mem hmem

end Remembers

/-- **A map remembers its changes.** Whatever they are, it is the map of the
keys in the order of their first use, each with the value it was bound to last
and what was added since, if it was. So a key has an entry exactly if it was
used, and the values stand as the keys do. One more change with an array or a
map for its key fails, and with it only, and leaves all entries; one with
another key leaves the values of the others; and one with a number that is none
makes an entry behind them. -/
theorem applyAll_remembers (changes : List MapChange) :
    Remembers (applyAll changes) changes ∧
    (∀ key, (Option.isSome <| entry? (applyAll changes) key)
      = changes.any (isOf key)) ∧
    (applyAll changes).length
      = (Key.firsts (changes.filterMap (·.key.toKey?))).length ∧
    ((∀ c ∈ changes, ∀ x, c.key = .number x → x.isNaN = false) →
      (applyAll changes).values.map some
        = (Key.firsts (changes.filterMap (·.key.toKey?))).map fun k =>
        entry? (applyAll changes) k.toValue) ∧
    ∀ c : MapChange,
      (c.key.kind = .array ∨ c.key.kind = .map →
        c.apply (applyAll changes) = .error (.notAKey c.key.kind) ∧
        applyAll (changes ++ [c]) = applyAll changes) ∧
      (¬ (c.key.kind = .array ∨ c.key.kind = .map) →
        c.apply (applyAll changes) = .ok (applyAll (changes ++ [c]))) ∧
      (∀ key, c.isOf key = false →
        entry? (applyAll (changes ++ [c])) key = entry? (applyAll changes) key)
        ∧
      ∀ x, c.key = .number x → x.isNaN = true →
        applyAll (changes ++ [c])
        = applyAll changes ++ [(.number x, c.change none)] := by
  have h := Remembers.ofAll changes
  refine ⟨h, fun key => ?_, ?_, fun hself => ?_,
    fun c => ⟨fun hkind => ?_, fun hkind => ?_,
      fun key hof => entry?_applyAll_concat hof changes, fun x hkey hx => ?_⟩⟩
  · rw [Bool.eq_iff_iff, ← not_iff_not, Bool.not_eq_true, Bool.not_eq_true,
      Option.isSome_eq_false_iff, Option.isNone_iff_eq_none, h.absent,
      List.any_eq_false]
    simp only [Bool.not_eq_true]
  · rw [← h.order, Table.keys, List.length_map]
  · rw [← h.order]
    refine h.values_eq fun x hx => ?_
    rw [h.order] at hx
    obtain ⟨c, hc, hkey⟩ := List.mem_filterMap.1 (Key.mem_of_mem_firsts hx)
    exact hself c hc x (Value.eq_toValue_of_toKey? hkey)
  · rw [← Value.toKey?_eq_none_iff] at hkind
    exact ⟨apply_of_no_key hkind _, applyAll_concat_of_no_key hkind _⟩
  · rw [← Value.toKey?_eq_none_iff] at hkind
    obtain ⟨k, hk⟩ := Option.ne_none_iff_exists'.1 hkind
    rw [apply_of_key hk, applyAll_concat_of_key hk]
  · have hk : c.key.toKey? = some (.number x) := by
      rw [hkey]
      rfl
    rw [applyAll_concat_of_key hk, Table.alter_of_isNaN hx]

example :
      applyAll [.set (.number 0) (.text "a"), .add (.text "0") (.truth true),
        .add (.number (-0)) (.text "b"), .set (.array []) (.text "c")] =
    [(.number 0, .array [.text "a", .text "b"]),
      (.text "0", .array [.truth true])] := by
  rfl

end MapChange

end StreamScript
