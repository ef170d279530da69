import JavaDiagram.Proofs.FailedDeclarations
import JavaDiagram.Proofs.TableInvariants

/-!
# Units ingested again

Within a unit a later declaration may take the place of an earlier one, so a second pass over the
unit brings back older values for a while. It ends where the first pass ended: the last declaration
of each name is the same, a union that has all its names gains nothing, and every name keeps the
place that it has. The second report differs from the first in one respect: every name that is
ingested again is a collision.
-/

namespace JavaDiagram

namespace Table

variable {α : Type}

/-! ### Replacing again -/

/-- Revisions made again change nothing, if they give each name the value that it has. -/
theorem reviseAll_again {t : Table α} (nodup : t.keys.Nodup) {revisions : List (Revision α)}
    (settled : ∀ name, ((t.reviseAll revisions).reviseAll revisions).get? name =
      (t.reviseAll revisions).get? name) :
    (t.reviseAll revisions).reviseAll revisions = t.reviseAll revisions := by
  have first := keys_reviseAll_of_nodup nodup revisions
  have nodup_first : (t.reviseAll revisions).keys.Nodup := by
    rw [first]
    exact nodup_eraseDups _
  -- Every revised name is listed after the first pass, so the second one lists no other.
  have listed : revisions.map (·.name) ⊆ (t.reviseAll revisions).keys := by
    intro name member
    rw [first, List.mem_eraseDups]
    exact List.mem_append_right _ member
  have names : ((t.reviseAll revisions).reviseAll revisions).keys =
      (t.reviseAll revisions).keys := by
    rw [keys_reviseAll_of_nodup nodup_first, eraseDups_append_of_subset listed,
      eraseDups_of_nodup nodup_first]
  apply eq_of_keys_of_get?
  · rw [names]
    exact nodup_first
  · exact names
  · exact settled

theorem reviseAll_replacing_again {β : Type} {t : Table α} (nodup : t.keys.Nodup)
    (name : β → String) (value : β → α) (items : List β) :
    let revisions := items.map fun item => replacing (name item) (value item)
    (t.reviseAll revisions).reviseAll revisions = t.reviseAll revisions := by
  apply reviseAll_again nodup
  intro key
  -- The last item of a name decides in both passes; without one both leave what was there.
  simp only [get?_reviseAll_replacing]
  rw [← Option.or_assoc, Option.or_self]

theorem contains_reviseAll_replacing {β : Type} {t : Table α} {name : β → String} {value : β → α}
    {items : List β} {key : String} :
    (t.reviseAll (items.map fun item => replacing (name item) (value item))).contains key = true ↔
      (∃ item ∈ items, name item = key) ∨ t.contains key = true := by
  rw [contains, get?_reviseAll_replacing, Option.isSome_or, Bool.or_eq_true, Option.isSome_map,
    List.getLast?_isSome]
  simp [contains]

/-! ### Adding again -/

/-- Revisions change nothing, if each of them leaves the value that it finds. -/
theorem reviseAll_of_unchanged {t : Table α} {revisions : List (Revision α)}
    (unchanged : ∀ revision ∈ revisions, ∃ value, t.get? revision.name = some value ∧
      revision.revised (some value) = value) : t.reviseAll revisions = t := by
  induction revisions with
  | nil => rfl
  | cons revision rest ih =>
    obtain ⟨value, found, same⟩ := unchanged revision (by simp)
    have first : t.revise revision = t := by
      rw [revise, found, same, put_of_get? found]
    rw [reviseAll, List.foldl_cons, first]
    exact ih fun other member => unchanged other (by simp [member])

/-- Adding names to one set leaves no set without a name that it had. -/
theorem subset_of_adding {t : Table NameSet} {revisions : List (Revision NameSet)}
    (adds : ∀ revision ∈ revisions, ∃ name targets, revision = adding name targets)
    {key : String} {set : NameSet} (found : t.get? key = some set) :
    ∃ larger, (t.reviseAll revisions).get? key = some larger ∧ set ⊆ larger := by
  induction revisions generalizing t set with
  | nil => exact ⟨set, found, List.Subset.refl set⟩
  | cons revision rest ih =>
    obtain ⟨name, targets, rfl⟩ := adds revision (by simp)
    have step : ∃ larger, (t.revise (adding name targets)).get? key = some larger ∧
        set ⊆ larger := by
      rw [get?_revise, found]
      by_cases same : name = key
      · refine ⟨set.insertAll targets, by simp [adding, same], fun target member => ?_⟩
        exact NameSet.mem_insertAll.mpr (Or.inr member)
      · exact ⟨set, by simp [adding, same], List.Subset.refl set⟩
    obtain ⟨between, found_between, grown⟩ := step
    obtain ⟨larger, found_larger, grown_again⟩ :=
      ih (fun other member => adds other (by simp [member])) found_between
    exact ⟨larger, found_larger, List.Subset.trans grown grown_again⟩

/-- After names were added to sets, each set has the names that were added to it. -/
theorem exists_of_mem_adding {t : Table NameSet} {revisions : List (Revision NameSet)}
    (adds : ∀ revision ∈ revisions, ∃ name targets, revision = adding name targets)
    {name : String} {targets : List String} (member : adding name targets ∈ revisions) :
    ∃ set, (t.reviseAll revisions).get? name = some set ∧ targets ⊆ set := by
  obtain ⟨front, back, rfl⟩ := List.append_of_mem member
  have added : ∃ set, ((t.reviseAll front).revise (adding name targets)).get? name = some set ∧
      targets ⊆ set := by
    rw [get?_revise]
    refine ⟨_, if_pos rfl, fun target listed => ?_⟩
    exact NameSet.mem_insertAll.mpr (Or.inl listed)
  -- What comes after the addition only makes the set larger.
  have later : ∀ other ∈ back, ∃ name targets, other = adding name targets :=
    fun other listed => adds other (by simp [listed])
  obtain ⟨set, found, listed⟩ := added
  obtain ⟨larger, found_larger, grown⟩ := subset_of_adding later found
  refine ⟨larger, ?_, List.Subset.trans listed grown⟩
  rw [reviseAll, List.foldl_append, List.foldl_cons]
  exact found_larger

theorem reviseAll_adding_again {t : Table NameSet} {revisions : List (Revision NameSet)}
    (adds : ∀ revision ∈ revisions, ∃ name targets, revision = adding name targets)
    (sorted : t.Holds fun _ set => NameSet.Sorted set) :
    (t.reviseAll revisions).reviseAll revisions = t.reviseAll revisions := by
  apply reviseAll_of_unchanged
  intro revision member
  obtain ⟨name, targets, rfl⟩ := adds revision member
  obtain ⟨set, found, listed⟩ := exists_of_mem_adding adds member
  have holds : (t.reviseAll revisions).Holds fun _ set => NameSet.Sorted set := by
    apply sorted.reviseAll
    intro other later
    obtain ⟨name, targets, rfl⟩ := adds other later
    exact keeps_adding name targets
  have sorted_set : NameSet.Sorted set := holds.of_get? found
  refine ⟨set, found, ?_⟩
  -- The set has all the names already, and as a sorted set it is told by its names.
  apply (NameSet.sorted_insertAll targets sorted_set).eq_of_mem_iff sorted_set
  intro target
  rw [NameSet.mem_insertAll]
  exact or_iff_right_of_imp fun old => listed old

end Table

/-! ### Models -/

namespace CodeModel

theorem adding_of_mem_relating {clause : Java.ClassSyntax → List String}
    {decls : List Java.ClassSyntax} :
    ∀ revision ∈ decls.flatMap (relating clause),
      ∃ name targets, revision = adding name targets := by
  intro revision member
  obtain ⟨decl, _, member⟩ := List.mem_flatMap.mp member
  obtain ⟨type, _, rfl⟩ := List.mem_map.mp member
  exact ⟨decl.name, [TypeName.normalize type], rfl⟩

/-- Committing declarations a second time changes no table of a model that is well kept. -/
theorem commitAll_again {model : CodeModel} (kept : WellKept model)
    (decls : List Java.Declaration) :
    (model.commitAll decls).commitAll decls = model.commitAll decls := by
  have sorted_of {table : Table NameSet}
      (holds : table.Holds fun _ set => NameSet.Sorted set ∧ set ≠ []) :
      table.Holds fun _ set => NameSet.Sorted set :=
    ⟨holds.names, fun name set member => (holds.values name set member).1⟩
  rw [commitAll_eq (model.commitAll decls), commitAll_eq model]
  congr 1
  · exact Table.reviseAll_replacing_again kept.classes.names _ _ (classesOf decls)
  · exact Table.reviseAll_replacing_again kept.enums.names _ _ (enumsOf decls)
  · apply Table.reviseAll_adding_again _ kept.uses
    exact List.forall_mem_map.mpr fun decl _ => ⟨decl.name, decl.uses, rfl⟩
  · exact Table.reviseAll_adding_again adding_of_mem_relating (sorted_of kept.inherits)
  · exact Table.reviseAll_adding_again adding_of_mem_relating (sorted_of kept.implements)
  · exact Table.reviseAll_replacing_again kept.methods.names _ _ decls

/-! ### Reports -/

/-- A declaration replaces an entity once it has been committed, and it goes on doing so. -/
theorem replaces_commitAll {model : CodeModel} {decls : List Java.Declaration}
    {decl : Java.Declaration} (known : decl ∈ decls ∨ model.replaces decl.built = true) :
    (model.commitAll decls).replaces decl.built = true := by
  rw [commitAll_eq]
  -- The entity is looked up in the table of its sort, which has the names it had and the new ones.
  cases decl with
  | ofClass decl =>
    apply Table.contains_reviseAll_replacing.mpr
    rcases known with member | old
    · exact Or.inl ⟨decl, List.mem_filterMap.mpr ⟨_, member, rfl⟩, rfl⟩
    · exact Or.inr old
  | ofEnum decl =>
    apply Table.contains_reviseAll_replacing.mpr
    rcases known with member | old
    · exact Or.inl ⟨decl, List.mem_filterMap.mpr ⟨_, member, rfl⟩, rfl⟩
    · exact Or.inr old

theorem replacedNames_of_replaces {model : CodeModel} {decls : List Java.Declaration}
    (known : ∀ decl ∈ decls, model.replaces decl.built = true) :
    replacedNames model decls = decls.map (·.name) := by
  induction decls generalizing model with
  | nil => rfl
  | cons decl rest ih =>
    -- What was there before stays there while the first declaration is committed.
    have still : ∀ other ∈ rest, (model.commitAll [decl]).replaces other.built = true :=
      fun other member => replaces_commitAll (Or.inr (known other (by simp [member])))
    have names := ih still
    rw [replacedNames, if_pos (known decl (by simp))]
    exact congrArg (decl.name :: ·) names

/-- A unit that is ingested again leaves the model as it is, down to the order of every table, and
its second report is the first one with all ingested names as collisions. -/
theorem ingest_again (changes : List Change) (unit : Java.SyntaxUnit) :
    let first := (grown changes).ingest unit
    first.1.ingest unit = (first.1, { first.2 with collisions := first.2.ingested }) := by
  intro first
  have model : first.1 = (grown changes).commitAll unit.committed := ingest_model _ unit
  have report : first.2 = _ := ingest_report _ unit
  apply Prod.ext
  · rw [ingest_model, model]
    exact commitAll_again (wellKept_grown changes) unit.committed
  · have collisions : replacedNames first.1 unit.committed = unit.committed.map (·.name) := by
      apply replacedNames_of_replaces
      intro decl member
      rw [model]
      exact replaces_commitAll (Or.inl member)
    rw [ingest_report, collisions, report]

end CodeModel

/-- A name that is declared as a class, then as an enum and then as a class again. -/
example :
    let unit : Java.SyntaxUnit :=
      ⟨"a", [.ok (.ofClass tone), .ok (.ofEnum toneEnum), .ok (.ofClass { name := "Tone" })]⟩
    let first := ({} : CodeModel).ingest unit
    first.2.collisions = ["Tone"] ∧
      first.1.ingest unit =
        (first.1, { first.2 with collisions := ["Tone", "Tone", "Tone"] }) := by
  decide

end JavaDiagram
