import StreamScript.Proofs.ValueOrder

/-!
# Groups take their elements apart

A scope that groups puts every element into the group of its result. The groups
are entries of a map, made and enlarged one element at a time, and it takes an
invariant to say what they are in the end: each holds the elements whose
results are its key, in the order in which they came, and the keys come as they
first did (`Partitions`).

Two things could go wrong. A group is an array, and so may an element be, so
that the first element of a group might be taken for the group. It never is,
for an entry is made as an array of one element; here the groups are lists, and
become arrays in the end (`Value.ofGroups`). And keys need not be equal to
themselves: a number that is none opens a group each time it comes, which no
key finds again. The groups found by their keys are therefore described for all
keys at once, these included.
-/

namespace StreamScript

/-! ## Keys

Two numbers are one key if they have the same place among the numbers; one that
is none is one with nothing. So to be one key is symmetric and transitive, but
not reflexive, and each statement about keys has to say which of its keys are
equal to themselves. -/

/-- Numbers are equal exactly if both are ones and have the same place. -/
theorem Number.compare_eq_some_eq_iff {a b : Float.Model.UnpackedFloat} :
    a.compare b = some .eq ↔
      a.isNaN = false ∧ b.isNaN = false ∧ comparePlaces (place a) (place b)
      = .eq := by
  cases ha : a.isNaN with
  | true => simp [compare_eq_none ha]
  | false =>
    cases hb : b.isNaN with
    | true => simp [compare_eq_swap a, compare_eq_none hb]
    | false => simp [compare_eq_comparePlaces ha hb]

namespace Key

/-- Numbers are one key exactly if both are ones and have the same place. -/
theorem same_number_iff {x y : Float} : (number x).same (number y) = true ↔
    x.isNaN = false ∧ y.isNaN = false ∧
      Number.comparePlaces (Number.place x.toModel.unpack)
      (Number.place y.toModel.unpack) = .eq := by
  show (x.toModel.unpack.compare y.toModel.unpack == some .eq) = true ↔ _
  rw [beq_iff_eq, Number.compare_eq_some_eq_iff]
  rfl

/-- Keys that are one with the same key are one. -/
theorem same_trans {a b c : Key} (hab : a.same b = true)
    (hbc : b.same c = true) :
    a.same c = true := by
  cases b <;> cases a <;> cases c
  case number.number.number y x z =>
    rw [same_number_iff] at hab hbc ⊢
    obtain ⟨hx, -, hxy⟩ := hab
    obtain ⟨-, hz, hyz⟩ := hbc
    have hplaces := Number.chained_comparePlaces (Number.place x.toModel.unpack)
      (Number.place y.toModel.unpack) (Number.place z.toModel.unpack)
    rw [hxy, hyz] at hplaces
    exact ⟨hx, hz, hplaces.outer_eq nofun nofun⟩
  all_goals simp_all [same]

/-- A key is one with itself, unless it is no number. -/
theorem same_self {k : Key} (h : ∀ x, k = .number x → x.isNaN = false) :
    k.same k = true := by
  cases k with
  | text s | truth s => exact beq_self_eq_true s
  | number x =>
    have hplaces (p : Int × Int × Int) : Number.comparePlaces p p = .eq := by
      simp [Number.comparePlaces]
    exact same_number_iff.2 ⟨h x rfl, h x rfl, hplaces _⟩

/-- **The keys that come first**: those that are one with none before them. -/
def firsts (ks : List Key) : List Key :=
  (ks.zipIdx.filter fun k => !(ks.take k.2).any (·.same k.1)).map Prod.fst

/-- One more key comes first if none before it is the same. -/
theorem firsts_concat (ks : List Key) (k : Key) :
    firsts (ks ++ [k]) = if ks.any (·.same k) then firsts ks
      else firsts ks ++ [k] := by
  have hbefore :
      (ks.zipIdx.filter fun k' => !((ks ++ [k]).take k'.2).any (·.same k'.1))
      = ks.zipIdx.filter fun k' => !(ks.take k'.2).any (·.same k'.1) := by
    refine List.filter_congr fun k' hk' => ?_
    rw [List.take_append_of_le_length
      (Nat.le_of_lt (List.snd_lt_of_mem_zipIdx hk'))]
  rw [firsts, List.zipIdx_append, List.filter_append, hbefore, List.map_append,
    ← firsts]
  simp only [List.zipIdx_singleton, Nat.zero_add]
  cases hany : ks.any (·.same k) <;> simp [hany]

end Key

/-! ## Changes of a map

A change looks for the entry of its key from the front. If there is one it is
changed and keeps its key; if there is none an entry is put behind the others.
-/

namespace Table

variable {V W : Type} {change : Option V → V} {k k' : Key} {t : Table V}

/-- A changed key reads as the change of what it was, by whichever key it is
found. -/
theorem get?_alter_of_same (h : k.same k' = true) :
    get? (alter change k t) k' = some (change (get? t k')) := by
  induction t with
  | nil => simp [alter, get?, h]
  | cons entry rest ih =>
    obtain ⟨e, v⟩ := entry
    by_cases he : e.same k = true
    · simp [alter, get?, he, Key.same_trans he h]
    · have he' : ¬ e.same k' = true := fun he' =>
        he (Key.same_trans he' (by rwa [Key.same_comm]))
      simp only [alter, he, if_false, Bool.false_eq_true]
      simpa [get?, he'] using ih

/-- Any other key reads as before. -/
theorem get?_alter_of_not_same (h : ¬ k.same k' = true) :
    get? (alter change k t) k' = get? t k' := by
  induction t with
  | nil => simp [alter, get?, h]
  | cons entry rest ih =>
    obtain ⟨e, v⟩ := entry
    by_cases he : e.same k = true
    · have he' : ¬ e.same k' = true := fun he' =>
        h (Key.same_trans (by rwa [Key.same_comm]) he')
      simp [alter, get?, he, he']
    · simp only [alter, he, if_false, Bool.false_eq_true]
      by_cases he' : e.same k' = true
      · simp [get?, he']
      · simpa [get?, he'] using ih

/-- An entry is found by its key, if that is equal to itself. -/
theorem Distinct.get?_of_mem (ht : t.Distinct) {entry : Key × V}
    (hmem : entry ∈ t) (hself : entry.1.same entry.1 = true) :
    t.get? entry.1 = some entry.2 := by
  induction t with
  | nil => cases hmem
  | cons old t ih =>
    obtain ⟨hold, ht⟩ := List.pairwise_cons.1 ht
    rcases List.mem_cons.1 hmem with rfl | hmem
    · simp [get?, hself]
    · simpa [get?, hold entry hmem] using ih ht hmem

/-- Changing values that stand for others. -/
theorem alter_map {f : V → W} {change' : Option W → W}
    (h : ∀ v, change' (v.map f) = f (change v)) :
    alter change' k (t.map (Prod.map id f))
    = (alter change k t).map (Prod.map id f) := by
  induction t with
  | nil => exact congrArg (fun v => [(k, v)]) (h none)
  | cons entry rest ih =>
    obtain ⟨e, v⟩ := entry
    by_cases he : e.same k = true
    · simpa [alter, he] using h (some v)
    · simpa [alter, he] using ih

end Table

/-! ## Groups

The groups are followed while elements are put into them one by one. What is
kept is `Partitions`, of the groups so far and the elements so far. That the
groups are lists in this, and arrays on the machine, is bridged by
`Value.ofGroups`. -/

namespace Yield

/-- Whether the result of an element is a key. -/
def hasKey (k : Key) (y : Yield) : Bool :=
  y.result.toKey?.any (·.same k)

/-- **The elements whose results are a key**, in the order in which they
came. -/
def withKey (yields : List Yield) (k : Key) : List Value :=
  (yields.filter (hasKey k)).map origin

/-- The keys that results are. -/
def keys (yields : List Yield) : List Key :=
  yields.filterMap (·.result.toKey?)

/-- No element has a key that is none of their keys. -/
theorem withKey_eq_nil_iff {yields : List Yield} {k : Key} :
    withKey yields k = [] ↔ (keys yields).any (·.same k) = false := by
  simp only [withKey, keys, List.map_eq_nil_iff, List.filter_eq_nil_iff,
    List.any_eq_false, List.mem_filterMap, hasKey, Option.any_eq_true]
  grind

end Yield

/-- **Groups that take elements apart** by their results. -/
structure Partitions (groups : Table (List Value)) (yields : List Yield) :
    Prop where
  /-- Each key has one group. -/
  distinct : groups.Distinct
  nonempty : ∀ g ∈ groups, g.2 ≠ []
  /-- Taken together, the groups hold every element once. -/
  once : groups.values.flatten.Perm (yields.map Yield.origin)
  /-- The keys come as they first did. -/
  order : groups.keys = Key.firsts (Yield.keys yields)
  /-- Under a key are the elements with this key. -/
  under : ∀ k, (groups.get? k).getD [] = Yield.withKey yields k
  /-- The group of a key holds the elements with this key, unless it is no
  number. -/
  group : ∀ g ∈ groups, (∀ x, g.1 = .number x → x.isNaN = false) →
    g.2 = Yield.withKey yields g.1

/-- A group with one more member. -/
def withMember (v : Value) (group : Option (List Value)) : List Value :=
  group.getD [] ++ [v]

/-- The new member comes to those that are there. -/
theorem flatten_values_alter (v : Value) (k : Key)
    (groups : Table (List Value)) :
    (Table.alter (withMember v) k groups).values.flatten.Perm
    (groups.values.flatten ++ [v]) := by
  induction groups with
  | nil => exact .refl _
  | cons g groups ih =>
    obtain ⟨e, members⟩ := g
    unfold Table.alter
    split
    · show (members ++ [v] ++ (Table.values groups).flatten).Perm
        (members ++ (Table.values groups).flatten ++ [v])
      rw [List.append_assoc, List.append_assoc]
      exact List.perm_append_comm.append_left members
    · show (members ++ (Table.alter (withMember v) k groups).values.flatten).Perm
        (members ++ (Table.values groups).flatten ++ [v])
      rw [List.append_assoc]
      exact ih.append_left members

/-- Groups as a map of arrays. -/
def Value.ofGroups (groups : Table (List Value)) : Table Value :=
  groups.map (Prod.map id .array)

namespace Partitions

variable {groups : Table (List Value)} {yields : List Yield} {y : Yield}
    {k : Key}

/-- Without elements there are no groups. -/
theorem nil : Partitions [] [] where
  distinct := .nil
  nonempty := nofun
  once := .nil
  order := rfl
  under _ := rfl
  group := nofun

/-- A key has a group exactly if it is the key of an element. -/
theorem contains_eq (h : Partitions groups yields) (k : Key) :
    groups.contains k = (Yield.keys yields).any (·.same k) := by
  have hunder := h.under k
  unfold Table.contains
  cases hget : groups.get? k with
  | none =>
    rw [hget, Option.getD_none] at hunder
    exact (Yield.withKey_eq_nil_iff.1 hunder.symm).symm
  | some group =>
    obtain ⟨g, hfound, rfl⟩ := Option.map_eq_some_iff.1 hget
    rw [hget, Option.getD_some] at hunder
    refine (eq_true_of_ne_false fun hany => ?_).symm
    exact h.nonempty g (List.mem_of_find?_eq_some hfound)
      (hunder.trans (Yield.withKey_eq_nil_iff.2 hany))

/-- **One more element** keeps the groups apart. -/
theorem concat (h : Partitions groups yields) (hk : y.result.toKey? = some k) :
    Partitions (Table.alter (withMember y.origin) k groups)
      (yields ++ [y]) := by
  have hkeys : Yield.keys (yields ++ [y]) = Yield.keys yields ++ [k] := by
    simp [Yield.keys, List.filterMap_append, hk]
  have hdistinct := h.distinct.alter (withMember y.origin) k
  have hunder :
      ∀ k', ((Table.alter (withMember y.origin) k groups).get? k').getD []
        = Yield.withKey (yields ++ [y]) k' := by
    intro k'
    rw [Yield.withKey, List.filter_append, List.map_append, ← Yield.withKey,
      ← h.under k']
    by_cases hsame : k.same k' = true
    · rw [Table.get?_alter_of_same hsame]
      simp [Yield.hasKey, hk, hsame, withMember]
    · rw [Table.get?_alter_of_not_same hsame]
      simp [Yield.hasKey, hk, hsame]
  refine ⟨hdistinct, ?_, ?_, ?_, hunder, ?_⟩
  · intro g hg
    rcases Table.mem_alter hg with hg | rfl | ⟨old, -, rfl⟩
    · exact h.nonempty g hg
    · exact List.cons_ne_nil _ _
    · exact List.append_ne_nil_of_right_ne_nil _ (List.cons_ne_nil _ _)
  · rw [List.map_append]
    exact (flatten_values_alter y.origin k groups).trans (h.once.append_right _)
  · rw [Table.keys_alter, h.contains_eq, hkeys, Key.firsts_concat, h.order]
  · intro g hg hone
    rw [← hunder, hdistinct.get?_of_mem hg (Key.same_self hone),
      Option.getD_some]

end Partitions

/-- Adding to a group makes it longer, and no group of its own. -/
theorem Value.addToGroup_ofGroups {key v : Value} {k : Key}
    (hk : key.toKey? = some k) (groups : Table (List Value)) :
    addToGroup (ofGroups groups) key v
    = .ok (ofGroups (Table.alter (withMember v) k groups)) := by
  have hjoin : ∀ group : Option (List Value),
      addToGroup.join v (group.map .array) = .array (withMember v group) := by
    intro group
    cases group <;> rfl
  rw [addToGroup, toKey, hk]
  exact congrArg Except.ok (Table.alter_map hjoin)

/-- **Elements whose results are keys** are all put into groups, behind those
that are there. -/
theorem Partitions.addAll {groups : Table (List Value)}
    {done yields : List Yield} (h : Partitions groups done)
    (hkeys : ∀ y ∈ yields, ∃ k, y.result.toKey? = some k) :
    ∃ groups',
        yields.foldlM (fun groups y => Value.addToGroup groups y.result
          y.origin) (Value.ofGroups groups) = .ok (Value.ofGroups groups') ∧
      Partitions groups' (done ++ yields) := by
  induction yields generalizing groups done with
  | nil => exact ⟨groups, rfl, (List.append_nil done).symm ▸ h⟩
  | cons y yields ih =>
    obtain ⟨⟨k, hk⟩, hrest⟩ := List.forall_mem_cons.1 hkeys
    obtain ⟨groups', hgroups', hpartitions⟩ := ih (h.concat hk) hrest
    refine ⟨groups', ?_, by rwa [List.append_assoc] at hpartitions⟩
    rw [List.foldlM_cons, Value.addToGroup_ofGroups hk]
    exact hgroups'

/-- Only arrays and maps are no keys. -/
theorem Value.toKey?_eq_none_iff {v : Value} :
    v.toKey? = none ↔ v.kind = .array ∨ v.kind = .map := by
  cases v <;> simp [toKey?, kind]

/-- **The first result that is no key** is what grouping fails with. -/
theorem groupByResult_eq_error {yields : List Yield} {y : Yield}
    (h : yields.find? (·.result.toKey?.isNone) = some y) :
    groupByResult yields = .error (.notAKey y.result.kind) := by
  unfold groupByResult
  generalize ([] : Table Value) = groups
  induction yields generalizing groups with
  | nil => cases h
  | cons first yields ih =>
    rw [List.foldlM_cons, Value.addToGroup, Value.toKey]
    cases hk : first.result.toKey? with
    | none =>
      rw [List.find?_cons_of_pos (by rw [hk]; rfl)] at h
      obtain rfl := Option.some.inj h
      rfl
    | some k =>
      rw [List.find?_cons_of_neg (by rw [hk]; exact Bool.false_ne_true)] at h
      exact ih h _

/-- **Grouping takes the elements of a scope apart.** It fails exactly if a
result is an array or a map, and with no other error. Otherwise it yields
groups that hold every element once, each under its key. -/
theorem pivot_partitions (yields : List Yield) :
    ((∃ kind, ScopeKind.pivot.fold yields = .error (.notAKey kind)) ↔
      ∃ y ∈ yields, y.result.kind = .array ∨ y.result.kind = .map) ∧
    ((∃ y ∈ yields,
        ScopeKind.pivot.fold yields = .error (.notAKey y.result.kind)) ∨
      ∃ groups,
        ScopeKind.pivot.fold yields = .ok (.map (Value.ofGroups groups)) ∧
        Partitions groups yields) := by
  simp only [← Value.toKey?_eq_none_iff]
  cases hfind : yields.find? (·.result.toKey?.isNone) with
  | some y =>
    have hmem := List.mem_of_find?_eq_some hfind
    have hnone : y.result.toKey?.isNone = true :=
      List.find?_some (p := fun y : Yield => y.result.toKey?.isNone) hfind
    have herror :
        ScopeKind.pivot.fold yields = .error (.notAKey y.result.kind) := by
      rw [ScopeKind.fold, groupByResult_eq_error hfind]
      rfl
    exact ⟨⟨fun _ => ⟨y, hmem, Option.isNone_iff_eq_none.1 hnone⟩,
      fun _ => ⟨_, herror⟩⟩, .inl ⟨y, hmem, herror⟩⟩
  | none =>
    have hkeys : ∀ y ∈ yields, ∃ k, y.result.toKey? = some k := fun y hy =>
      Option.ne_none_iff_exists'.1 fun hnone =>
        List.find?_eq_none.1 hfind y hy (Option.isNone_iff_eq_none.2 hnone)
    obtain ⟨groups, hgroups, hpartitions⟩ := Partitions.nil.addAll hkeys
    have hok :
        ScopeKind.pivot.fold yields = .ok (.map (Value.ofGroups groups)) := by
      rw [ScopeKind.fold, groupByResult]
      exact congrArg (Except.map Value.map) hgroups
    refine ⟨⟨fun ⟨kind, herror⟩ => ?_, fun ⟨y, hy, hnone⟩ => ?_⟩,
      .inr ⟨groups, hok, hpartitions⟩⟩
    · cases hok.symm.trans herror
    · obtain ⟨k, hk⟩ := hkeys y hy
      cases hnone.symm.trans hk

example :
      ScopeKind.pivot.fold [⟨.number 0, .array []⟩, ⟨.truth false, .text "a"⟩,
        ⟨.number (-0), .text "b"⟩] =
    .ok (.map [(.number 0, .array [.array [], .text "b"]),
      (.truth false, .array [.text "a"])]) := by
  rfl

end StreamScript
