import JavaDiagram.Proofs.Ingestion

/-!
# Growing a model

A model is grown from nothing by ingesting units and by adding single facts. Whatever the order of
the changes, they revise the tables one by one, and a revision puts a value that fits the name it is
stored under. So no table of a grown model lists a name twice or under a value that does not fit it.
In particular a method record is stored under its own owner, and the pair of owner and name by which
the walk tells methods apart is the pair by which it looks them up.
-/

namespace JavaDiagram

/-- One change to a model. -/
inductive Change where
  | ingest (unit : Java.SyntaxUnit)
  | insertClass (entity : ClassEntity)
  | insertEnum (entity : EnumEntity)
  | addUses (source target : String)
  | addExtends (sub sup : String)
  | addImplements (sub sup : String)
  | addMethod (method : MethodRecord)

namespace CodeModel

/-- Makes one change. -/
def apply (model : CodeModel) : Change → CodeModel
  | .ingest unit => (model.ingest unit).1
  | .insertClass entity => model.insertClass entity
  | .insertEnum entity => model.insertEnum entity
  | .addUses source target => model.addUses source target
  | .addExtends sub sup => model.addExtends sub sup
  | .addImplements sub sup => model.addImplements sub sup
  | .addMethod method => model.addMethod method

/-- The model after several changes to the empty one. -/
def grown (changes : List Change) : CodeModel :=
  changes.foldl apply {}

/-- What holds of the empty model and is kept by every change holds of every grown model. -/
theorem grown_invariant (invariant : CodeModel → Prop) (initial : invariant {})
    (kept : ∀ model step, invariant model → invariant (model.apply step))
    (changes : List Change) : invariant (grown changes) := by
  have run (model : CodeModel) (start : invariant model) :
      invariant (changes.foldl apply model) := by
    induction changes generalizing model with
    | nil => exact start
    | cons step rest ih => exact ih (model.apply step) (kept model step start)
  exact run {} initial

end CodeModel

theorem Java.Declaration.owner_of_mem_records {decl : Java.Declaration} {method : MethodRecord}
    (member : method ∈ decl.records) : method.owner = decl.name := by
  cases decl with
  | ofClass decl =>
    rcases List.mem_append.mp member with member | member
    · obtain ⟨_, _, rfl⟩ := List.mem_map.mp member
      rfl
    · obtain ⟨_, _, rfl⟩ := List.mem_map.mp member
      rfl
  | ofEnum decl =>
    obtain ⟨_, _, rfl⟩ := List.mem_map.mp member
    rfl

/-! ### Revisions that fit -/

theorem keeps_replacing {α : Type} {fits : String → α → Prop} {name : String} {value : α}
    (fit : fits name value) : (replacing name value).Keeps fits :=
  fun _ _ => fit

/-- Adding names to a sorted set gives a sorted set. -/
theorem keeps_adding (name : String) (targets : List String) :
    (adding name targets).Keeps fun _ set => NameSet.Sorted set := by
  intro old sorted
  cases old with
  | none => exact NameSet.sorted_insertAll targets List.Pairwise.nil
  | some set => exact NameSet.sorted_insertAll targets (sorted set rfl)

/-- One added name is enough for a set not to be empty. -/
theorem keeps_adding_some (name target : String) :
    (adding name [target]).Keeps fun _ set => NameSet.Sorted set ∧ set ≠ [] := by
  intro old kept
  have sorted := keeps_adding name [target] old fun set found => (kept set found).1
  have added : target ∈ (adding name [target]).revised old :=
    NameSet.mem_insertAll.mpr (Or.inl (by simp))
  exact ⟨sorted, List.ne_nil_of_mem added⟩

theorem keeps_relating {clause : Java.ClassSyntax → List String} {decls : List Java.ClassSyntax} :
    ∀ revision ∈ decls.flatMap (relating clause),
      revision.Keeps fun _ set => NameSet.Sorted set ∧ set ≠ [] := by
  intro revision member
  obtain ⟨decl, _, member⟩ := List.mem_flatMap.mp member
  obtain ⟨type, _, rfl⟩ := List.mem_map.mp member
  exact keeps_adding_some decl.name (TypeName.normalize type)

namespace CodeModel

/-! ### Well-kept tables -/

/-- Whether every table lists each name once: entities under their own names, method records under
their owners, related names in increasing order, and no clause without a name. -/
structure WellKept (model : CodeModel) : Prop where
  classes : model.classes.Holds fun name entity => entity.name = name
  enums : model.enums.Holds fun name entity => entity.name = name
  uses : model.uses.Holds fun _ targets => NameSet.Sorted targets
  inherits : model.inherits.Holds fun _ targets => NameSet.Sorted targets ∧ targets ≠ []
  implements : model.implements.Holds fun _ targets => NameSet.Sorted targets ∧ targets ≠ []
  methods : model.methods.Holds fun owner records => ∀ method ∈ records, method.owner = owner

/-- Every method record is stored under its own owner. -/
def Owned (methods : Table (List MethodRecord)) : Prop :=
  ∀ owner, ∀ method ∈ (methods.get? owner).getD [], method.owner = owner

theorem WellKept.owned {model : CodeModel} (kept : WellKept model) : Owned model.methods := by
  intro owner method member
  cases found : model.methods.get? owner with
  | none => simp [found] at member
  | some records => exact kept.methods.of_get? found method (by simpa [found] using member)

theorem WellKept.empty : WellKept {} :=
  ⟨.empty, .empty, .empty, .empty, .empty, .empty⟩

theorem WellKept.commitAll {model : CodeModel} (kept : WellKept model)
    (decls : List Java.Declaration) : WellKept (model.commitAll decls) := by
  rw [commitAll_eq]
  -- Table by table, each revision that a declaration makes gives a value that fits.
  constructor
  · apply kept.classes.reviseAll
    exact List.forall_mem_map.mpr fun decl _ => keeps_replacing rfl
  · apply kept.enums.reviseAll
    exact List.forall_mem_map.mpr fun decl _ => keeps_replacing rfl
  · apply kept.uses.reviseAll
    exact List.forall_mem_map.mpr fun decl _ => keeps_adding decl.name decl.uses
  · exact kept.inherits.reviseAll keeps_relating
  · exact kept.implements.reviseAll keeps_relating
  · apply kept.methods.reviseAll
    exact List.forall_mem_map.mpr fun decl _ =>
      keeps_replacing fun _ => Java.Declaration.owner_of_mem_records

/-- Every change leaves the tables well kept. -/
theorem WellKept.apply {model : CodeModel} (kept : WellKept model) (change : Change) :
    WellKept (model.apply change) := by
  cases change with
  | ingest unit =>
    rw [CodeModel.apply, ingest_model]
    exact kept.commitAll unit.committed
  | insertClass entity => exact { kept with classes := kept.classes.put rfl }
  | insertEnum entity => exact { kept with enums := kept.enums.put rfl }
  | addUses source target =>
    exact { kept with uses := kept.uses.revise (keeps_adding source [target]) }
  | addExtends sub sup =>
    exact { kept with inherits := kept.inherits.revise (keeps_adding_some sub sup) }
  | addImplements sub sup =>
    exact { kept with implements := kept.implements.revise (keeps_adding_some sub sup) }
  | addMethod method =>
    -- The record comes after those of its owner, which have the same owner.
    refine { kept with methods := kept.methods.put fun other member => ?_ }
    rcases List.mem_append.mp member with old | new
    · exact kept.owned method.owner other old
    · rw [List.mem_singleton.mp new]

/-- In a grown model every table is well kept. -/
theorem wellKept_grown (changes : List Change) : WellKept (grown changes) :=
  grown_invariant WellKept WellKept.empty (fun _ step kept => kept.apply step) changes

/-- In a grown model every method record is stored under its own owner. -/
theorem owned_grown (changes : List Change) : Owned (grown changes).methods :=
  (wellKept_grown changes).owned

/-- So does a model that is ingested from nothing. -/
theorem owned_ingestAll (units : List Java.SyntaxUnit) :
    Owned (({} : CodeModel).ingestAll units).1.methods := by
  rw [ingestAll_model]
  exact (WellKept.empty.commitAll (committedDeclarations units)).owned

/-- A method that is found has the owner and the name that were looked up. -/
theorem findMethod_eq {model : CodeModel} (owned : Owned model.methods) {owner name : String}
    {method : MethodRecord} (found : model.findMethod owner name = some method) :
    method.owner = owner ∧ method.name = name := by
  refine ⟨owned owner method (List.mem_of_find?_eq_some found), ?_⟩
  simpa using List.find?_some found

end CodeModel

end JavaDiagram
