import JavaDiagram.Proofs.Ingestion

/-!
# The closed form of an ingested model

A model that is ingested from nothing is determined by its committed declarations. Entities and
method records come from the last declaration of a name, relations are unions over all of them, and
every table lists its names in the order in which they first contributed.
-/

namespace JavaDiagram

/-! ### What classes relate to -/

/-- Whether a class uses a type: that of a field, or one that a method with a body constructs.
Constructors do not count, and no class uses itself. -/
def Java.ClassSyntax.UsesType (decl : Java.ClassSyntax) (type : String) : Prop :=
  type ≠ decl.name ∧
    ((∃ field ∈ decl.fields, TypeName.normalize field.typeText = type) ∨
      ∃ method ∈ decl.methods, ∃ body, method.body = some body ∧
        ∃ text line, .creation text line ∈ body.sites ∧ TypeName.normalize text = type)

/-- Whether a class names a type in one of its clauses. -/
def Java.ClassSyntax.NamesType (clause : Java.ClassSyntax → List String)
    (decl : Java.ClassSyntax) (type : String) : Prop :=
  ∃ text ∈ clause decl, TypeName.normalize text = type

/-- The classes that have a clause. -/
def withClause (clause : Java.ClassSyntax → List String) (decls : List Java.ClassSyntax) :
    List Java.ClassSyntax :=
  decls.filter fun decl => !(clause decl).isEmpty

theorem withClause_append (clause : Java.ClassSyntax → List String)
    (front back : List Java.ClassSyntax) :
    withClause clause (front ++ back) = withClause clause front ++ withClause clause back :=
  List.filter_append front back

theorem Java.MethodSyntax.mem_constructed {method : Java.MethodSyntax} {type : String} :
    type ∈ method.sites.filterMap constructedType ↔
      ∃ body, method.body = some body ∧
        ∃ text line, .creation text line ∈ body.sites ∧ TypeName.normalize text = type := by
  unfold Java.MethodSyntax.sites
  cases method.body with
  | none => simp
  | some body =>
    rw [List.mem_filterMap]
    constructor
    · rintro ⟨site, member, constructed⟩
      cases site with
      | call receiver name line => cases constructed
      | creation text line => exact ⟨body, rfl, text, line, member, Option.some.inj constructed⟩
    · rintro ⟨_, same, text, line, member, rfl⟩
      obtain rfl := Option.some.inj same
      exact ⟨_, member, rfl⟩

theorem Java.ClassSyntax.mem_uses {decl : Java.ClassSyntax} {type : String} :
    type ∈ decl.uses ↔ decl.UsesType type := by
  unfold Java.ClassSyntax.uses Java.ClassSyntax.UsesType
  simp only [NameSet.mem_insertAll, List.not_mem_nil, or_false, List.mem_filter, List.mem_append,
    List.mem_map, List.mem_flatMap, Java.MethodSyntax.mem_constructed, bne_iff_ne]
  exact and_comm

/-! ### Tables in closed form -/

/-- A table that holds for each name the value of its last item. -/
structure HoldsLast {α β : Type} (name : β → String) (value : β → α) (items : List β)
    (table : Table α) : Prop where
  names : table.keys = (items.map name).eraseDups
  last : ∀ key, table.get? key = (items.filter (name · = key)).getLast?.map value

/-- A table that holds for each class all names that a class of that name is related to. -/
structure HoldsUnion (related : Java.ClassSyntax → String → Prop)
    (decls : List Java.ClassSyntax) (table : Table NameSet) : Prop where
  names : table.keys = (decls.map (·.name)).eraseDups
  sorted : ∀ key set, table.get? key = some set → NameSet.Sorted set
  members : ∀ key set, table.get? key = some set →
    ∀ target, target ∈ set ↔ ∃ decl ∈ decls, decl.name = key ∧ related decl target

/-- A held value comes from an item of its name. -/
theorem HoldsLast.exists_item {α β : Type} {name : β → String} {value : β → α} {items : List β}
    {table : Table α} (holds : HoldsLast name value items table) {key : String} {held : α}
    (found : table.get? key = some held) : ∃ item ∈ items, name item = key ∧ value item = held := by
  rw [holds.last] at found
  obtain ⟨item, chosen, same⟩ := Option.map_eq_some_iff.mp found
  obtain ⟨member, named⟩ := List.mem_filter.mp (List.mem_of_getLast? chosen)
  exact ⟨item, member, of_decide_eq_true named, same⟩

theorem HoldsLast.nodup_keys {α β : Type} {name : β → String} {value : β → α} {items : List β}
    {table : Table α} (holds : HoldsLast name value items table) : table.keys.Nodup := by
  rw [holds.names]
  exact nodup_eraseDups _

theorem HoldsLast.unique {α β : Type} {name : β → String} {value : β → α} {items : List β}
    {table other : Table α} (first : HoldsLast name value items table)
    (second : HoldsLast name value items other) : table = other := by
  apply Table.eq_of_keys_of_get?
  · exact first.nodup_keys
  · rw [first.names, second.names]
  · intro key
    rw [first.last, second.last]

theorem HoldsLast.mem_keys_iff {α β : Type} {name : β → String} {value : β → α} {items : List β}
    {table : Table α} (holds : HoldsLast name value items table) (key : String) :
    key ∈ table.keys ↔ key ∈ items.map name := by
  rw [holds.names, List.mem_eraseDups]

theorem HoldsUnion.nodup_keys {related : Java.ClassSyntax → String → Prop}
    {decls : List Java.ClassSyntax} {table : Table NameSet}
    (holds : HoldsUnion related decls table) : table.keys.Nodup := by
  rw [holds.names]
  exact nodup_eraseDups _

theorem HoldsUnion.mem_keys_iff {related : Java.ClassSyntax → String → Prop}
    {decls : List Java.ClassSyntax} {table : Table NameSet}
    (holds : HoldsUnion related decls table) (key : String) :
    key ∈ table.keys ↔ key ∈ decls.map (·.name) := by
  rw [holds.names, List.mem_eraseDups]

/-- The set under a name does not depend on the order of the classes, nor on repetitions. -/
theorem HoldsUnion.get?_eq {related : Java.ClassSyntax → String → Prop}
    {decls decls' : List Java.ClassSyntax} {table other : Table NameSet}
    (first : HoldsUnion related decls table) (second : HoldsUnion related decls' other)
    (same : ∀ decl, decl ∈ decls ↔ decl ∈ decls') (key : String) :
    table.get? key = other.get? key := by
  have names : key ∈ table.keys ↔ key ∈ other.keys := by
    rw [first.mem_keys_iff, second.mem_keys_iff, List.mem_map, List.mem_map]
    simp only [same]
  by_cases known : key ∈ table.keys
  · obtain ⟨set, found⟩ := Table.mem_keys_iff.mp known
    obtain ⟨set', found'⟩ := Table.mem_keys_iff.mp (names.mp known)
    have equal : set = set' := by
      apply (first.sorted key set found).eq_of_mem_iff (second.sorted key set' found')
      intro target
      rw [first.members key set found, second.members key set' found']
      simp only [same]
    rw [found, found', equal]
  · rw [Table.get?_eq_none_iff.mpr known, Table.get?_eq_none_iff.mpr (mt names.mpr known)]

theorem HoldsUnion.unique {related : Java.ClassSyntax → String → Prop}
    {decls : List Java.ClassSyntax} {table other : Table NameSet}
    (first : HoldsUnion related decls table) (second : HoldsUnion related decls other) :
    table = other := by
  apply Table.eq_of_keys_of_get?
  · exact first.nodup_keys
  · rw [first.names, second.names]
  · exact first.get?_eq second fun _ => Iff.rfl

/-- A run of replacements forgets the old value and all items but the last. -/
theorem Table.get?_reviseAll_replacing {α β : Type} (t : Table α) (name : β → String)
    (value : β → α) (items : List β) (key : String) :
    (t.reviseAll (items.map fun item => replacing (name item) (value item))).get? key =
      ((items.filter (name · = key)).getLast?.map value).or (t.get? key) := by
  rw [get?_reviseAll, List.filter_map, List.foldl_map]
  have outcome (chosen : List β) (start : Option α) :
      chosen.foldl (fun _ item => some (value item)) start =
        (chosen.getLast?.map value).or start := by
    induction chosen using List.reverseRecOn with
    | nil => rfl
    | append_singleton chosen last _ => simp
  exact outcome _ _

/-- Replacing values one after the other leaves the last one under each name. -/
theorem holdsLast_replacing {α β : Type} (name : β → String) (value : β → α) (items : List β) :
    HoldsLast name value items
      (({} : Table α).reviseAll (items.map fun item => replacing (name item) (value item))) := by
  constructor
  · rw [Table.keys_reviseAll, List.map_map]
    rfl
  · intro key
    rw [Table.get?_reviseAll_replacing]
    exact Option.or_none

theorem foldl_adding (pairs : List (String × List String)) (start : Option NameSet)
    (sorted : NameSet.Sorted (start.getD [])) (set : NameSet)
    (outcome : pairs.foldl (fun old pair => some (NameSet.insertAll pair.2 (old.getD []))) start =
      some set) :
    NameSet.Sorted set ∧
      ∀ target, target ∈ set ↔ target ∈ start.getD [] ∨ ∃ pair ∈ pairs, target ∈ pair.2 := by
  induction pairs generalizing start with
  | nil =>
    rw [List.foldl_nil] at outcome
    subst outcome
    exact ⟨sorted, by simp⟩
  | cons pair rest ih =>
    obtain ⟨sorted', members⟩ :=
      ih (some (NameSet.insertAll pair.2 (start.getD [])))
        (NameSet.sorted_insertAll pair.2 sorted) outcome
    refine ⟨sorted', fun target => (members target).trans ?_⟩
    simp only [Option.getD_some, NameSet.mem_insertAll, List.mem_cons, exists_eq_or_imp]
    rw [← or_assoc, or_comm (a := target ∈ pair.2)]

/-- Adding names to sets one after the other collects the union under each name. -/
theorem holdsUnion_adding (related : Java.ClassSyntax → String → Prop)
    (decls : List Java.ClassSyntax) (pairs : List (String × List String))
    (names : (pairs.map (·.1)).eraseDups = (decls.map (·.name)).eraseDups)
    (members : ∀ key target, (∃ pair ∈ pairs, pair.1 = key ∧ target ∈ pair.2) ↔
      ∃ decl ∈ decls, decl.name = key ∧ related decl target) :
    HoldsUnion related decls
      (({} : Table NameSet).reviseAll (pairs.map fun pair => adding pair.1 pair.2)) := by
  -- What is found under a name is what the pairs of that name have added to nothing.
  have outcome (key : String) (set : NameSet)
      (found : (({} : Table NameSet).reviseAll
        (pairs.map fun pair => adding pair.1 pair.2)).get? key = some set) :=
    foldl_adding (pairs.filter (·.1 = key)) none List.Pairwise.nil set (by
      rw [Table.get?_reviseAll, List.filter_map, List.foldl_map] at found
      exact found)
  constructor
  · rw [Table.keys_reviseAll, List.map_map]
    exact names
  · exact fun key set found => (outcome key set found).1
  · intro key set found target
    rw [(outcome key set found).2 target, ← members key target]
    simp [and_assoc]

/-- The used types of all classes, collected under the names of the classes. -/
theorem holdsUnion_uses (decls : List Java.ClassSyntax) :
    HoldsUnion Java.ClassSyntax.UsesType decls
      (({} : Table NameSet).reviseAll (decls.map fun decl => adding decl.name decl.uses)) := by
  have collected := holdsUnion_adding Java.ClassSyntax.UsesType decls
    (decls.map fun decl => (decl.name, decl.uses)) (by rw [List.map_map]; rfl) (by
      intro key target
      simp only [List.mem_map, exists_exists_and_eq_and, Java.ClassSyntax.mem_uses])
  rw [List.map_map] at collected
  exact collected

/-! ### Clauses -/

theorem eraseDups_append_replicate (values : List String) (value : String) (count : Nat) :
    (values ++ List.replicate count value).eraseDups =
      if count = 0 then values.eraseDups else (values ++ [value]).eraseDups := by
  induction count with
  | zero => simp
  | succ count ih =>
    rw [List.replicate_succ', ← List.append_assoc, eraseDups_append_singleton, ih]
    by_cases empty : count = 0
    · subst empty
      simp [eraseDups_append_singleton]
    · simp [empty]

/-- Names repeated for each type of a clause are the names of the classes that have it. -/
theorem eraseDups_clause_names (clause : Java.ClassSyntax → List String)
    (decls : List Java.ClassSyntax) :
    (decls.flatMap fun decl => (clause decl).map fun _ => decl.name).eraseDups =
      ((withClause clause decls).map (·.name)).eraseDups := by
  induction decls using List.reverseRecOn with
  | nil => rfl
  | append_singleton decls last ih =>
    -- The last class repeats its name once for each type of the clause, perhaps not at all.
    have member : last.name ∈ (decls.flatMap fun decl => (clause decl).map fun _ => decl.name) ↔
        last.name ∈ (withClause clause decls).map (·.name) := by
      rw [← List.mem_eraseDups, ih, List.mem_eraseDups]
    rw [List.flatMap_append, List.flatMap_singleton, List.map_const', eraseDups_append_replicate,
      eraseDups_append_singleton, ih, withClause_append, List.map_append]
    cases kept : clause last with
    | nil =>
      have single : withClause clause [last] = [] := by simp [withClause, kept]
      rw [single, List.map_nil, List.append_nil, List.length_nil, if_pos rfl]
    | cons type types =>
      have single : withClause clause [last] = [last] := by simp [withClause, kept]
      rw [single, List.map_singleton, eraseDups_append_singleton, List.length_cons,
        if_neg (Nat.succ_ne_zero _)]
      simp only [member]

/-- The types in one clause of all classes, collected under the names of the classes. -/
theorem holdsUnion_relating (clause : Java.ClassSyntax → List String)
    (decls : List Java.ClassSyntax) :
    HoldsUnion (Java.ClassSyntax.NamesType clause) (withClause clause decls)
      (({} : Table NameSet).reviseAll (decls.flatMap (relating clause))) := by
  have collected := holdsUnion_adding (Java.ClassSyntax.NamesType clause) (withClause clause decls)
    (decls.flatMap fun decl =>
      (clause decl).map fun type => (decl.name, [TypeName.normalize type])) (by
        rw [List.map_flatMap, ← eraseDups_clause_names]
        simp only [List.map_map]
        rfl) (by
      intro key target
      simp only [List.mem_flatMap, List.mem_map]
      -- A class that names a type has the clause, so filtering by the clause loses no name.
      constructor
      · rintro ⟨_, ⟨decl, member, type, named, rfl⟩, rfl, single⟩
        refine ⟨decl, List.mem_filter.mpr ⟨member, ?_⟩, rfl, type, named, ?_⟩
        · simpa using List.ne_nil_of_mem named
        · exact (List.mem_singleton.mp single).symm
      · rintro ⟨decl, member, rfl, type, named, rfl⟩
        exact ⟨_, ⟨decl, (List.mem_filter.mp member).1, type, named, rfl⟩, rfl,
          List.mem_singleton_self _⟩)
  rw [List.map_flatMap] at collected
  simp only [List.map_map] at collected
  exact collected

/-! ### The closed form -/

/-- The six tables of a model, each told from the committed declarations alone. -/
structure ClosedForm (decls : List Java.Declaration) (model : CodeModel) : Prop where
  classes : HoldsLast (·.name) (·.entity) (classesOf decls) model.classes
  enums : HoldsLast (·.name) (·.entity) (enumsOf decls) model.enums
  methods : HoldsLast (·.name) (·.records) decls model.methods
  uses : HoldsUnion Java.ClassSyntax.UsesType (classesOf decls) model.uses
  inherits : HoldsUnion (Java.ClassSyntax.NamesType (·.superTypes))
    (withClause (·.superTypes) (classesOf decls)) model.inherits
  implements : HoldsUnion (Java.ClassSyntax.NamesType (·.interfaces))
    (withClause (·.interfaces) (classesOf decls)) model.implements

theorem ClosedForm.unique {decls : List Java.Declaration} {model other : CodeModel}
    (first : ClosedForm decls model) (second : ClosedForm decls other) : model = other := by
  cases model
  cases other
  congr
  · exact first.classes.unique second.classes
  · exact first.enums.unique second.enums
  · exact first.uses.unique second.uses
  · exact first.inherits.unique second.inherits
  · exact first.implements.unique second.implements
  · exact first.methods.unique second.methods

/-- Committing declarations to the empty model gives a model in closed form. -/
theorem closedForm_commitAll (decls : List Java.Declaration) :
    ClosedForm decls (({} : CodeModel).commitAll decls) := by
  rw [CodeModel.commitAll_eq]
  constructor
  · exact holdsLast_replacing _ _ _
  · exact holdsLast_replacing _ _ _
  · exact holdsLast_replacing _ _ _
  · exact holdsUnion_uses _
  · exact holdsUnion_relating _ _
  · exact holdsUnion_relating _ _

/-- The model that several units give, ingested in order from nothing, is the one model in the
closed form of their committed declarations. -/
theorem closedForm_iff_ingestAll (units : List Java.SyntaxUnit) (model : CodeModel) :
    ClosedForm (committedDeclarations units) model ↔
      model = (({} : CodeModel).ingestAll units).1 := by
  rw [CodeModel.ingestAll_model]
  constructor
  · exact fun closed => closed.unique (closedForm_commitAll _)
  · rintro rfl
    exact closedForm_commitAll _

end JavaDiagram
