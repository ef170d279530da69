import JavaDiagram.Analysis
import JavaDiagram.Proofs.ClosedForm
import JavaDiagram.Proofs.LoadedSources

/-!
# Units with the same text

Of units with equal content only the first is kept. A later copy would commit the same declarations
once more. If nobody has declared one of their names since, that changes none of the six tables:
every name has its place already, the last declaration of each name stays the same, and a union
gains nothing.
-/

namespace JavaDiagram

/-! ### Declarations committed again -/

/-- Items written again, after others that write different names, are still the last ones. -/
theorem HoldsLast.repeated {α β : Type} {name : β → String} {value : β → α} {table : Table α}
    {front again between : List β} (holds : HoldsLast name value (front ++ again ++ between) table)
    (apart : ∀ item ∈ again, ∀ other ∈ between, name other ≠ name item) :
    HoldsLast name value (front ++ again ++ between ++ again) table := by
  constructor
  · have listed : again ⊆ front ++ again ++ between := by
      intro item member
      simp [member]
    have names : (front ++ again ++ between ++ again).map name =
        (front ++ again ++ between).map name ++ again.map name := List.map_append
    rw [holds.names, names, eraseDups_append_of_subset (List.map_subset name listed)]
  · intro key
    rw [holds.last]
    cases written : again.filter (name · = key) with
    | nil => simp [written]
    | cons item rest =>
      -- A name that is written again has not been written in between.
      have silent : between.filter (name · = key) = [] := by
        apply List.filter_eq_nil_iff.mpr
        intro other member same
        have known : item ∈ again.filter (name · = key) := by rw [written]; simp
        obtain ⟨member', same'⟩ := List.mem_filter.mp known
        apply apart item member' other member
        rw [of_decide_eq_true same, of_decide_eq_true same']
      simp only [List.filter_append, written, silent, List.append_nil]
      rw [List.getLast?_append_of_ne_nil _ (List.cons_ne_nil item rest),
        List.getLast?_append_of_ne_nil _ (List.cons_ne_nil item rest)]

/-- Classes that are related again add nothing to the union. -/
theorem HoldsUnion.repeated {related : Java.ClassSyntax → String → Prop}
    {decls again : List Java.ClassSyntax} {table : Table NameSet}
    (holds : HoldsUnion related decls table) (known : again ⊆ decls) :
    HoldsUnion related (decls ++ again) table := by
  have member (decl : Java.ClassSyntax) : decl ∈ decls ++ again ↔ decl ∈ decls := by
    rw [List.mem_append]
    exact or_iff_left_of_imp fun listed => known listed
  constructor
  · rw [holds.names, List.map_append, eraseDups_append_of_subset (List.map_subset _ known)]
  · exact holds.sorted
  · intro key set found target
    rw [holds.members key set found]
    simp only [member]

/-- Items read off declarations have the names of those, so they are apart if those are. -/
theorem apart_filterMap {β : Type} (part : Java.Declaration → Option β) (label : β → String)
    (agree : ∀ decl item, part decl = some item → label item = decl.name)
    {again between : List Java.Declaration}
    (apart : ∀ decl ∈ again, ∀ other ∈ between, other.name ≠ decl.name) :
    ∀ item ∈ again.filterMap part, ∀ other ∈ between.filterMap part, label other ≠ label item := by
  intro item member other member'
  obtain ⟨decl, listed, kept⟩ := List.mem_filterMap.mp member
  obtain ⟨decl', listed', kept'⟩ := List.mem_filterMap.mp member'
  rw [agree decl item kept, agree decl' other kept']
  exact apart decl listed decl' listed'

theorem classesOf_append (front back : List Java.Declaration) :
    classesOf (front ++ back) = classesOf front ++ classesOf back :=
  List.filterMap_append

theorem enumsOf_append (front back : List Java.Declaration) :
    enumsOf (front ++ back) = enumsOf front ++ enumsOf back :=
  List.filterMap_append

/-- Committing declarations again changes no table, if no other declaration of one of their names
has been committed since. -/
theorem ClosedForm.repeated {front again between : List Java.Declaration} {model : CodeModel}
    (closed : ClosedForm (front ++ again ++ between) model)
    (apart : ∀ decl ∈ again, ∀ other ∈ between, other.name ≠ decl.name) :
    ClosedForm (front ++ again ++ between ++ again) model := by
  have classes_apart := apart_filterMap (·.class?) (·.name)
    (fun decl item kept => by cases decl <;> cases kept; rfl) apart
  have enums_apart := apart_filterMap (·.enum?) (·.name)
    (fun decl item kept => by cases decl <;> cases kept; rfl) apart
  have known : classesOf again ⊆ classesOf (front ++ again ++ between) := by
    rw [classesOf_append, classesOf_append, List.append_assoc]
    exact List.subset_append_of_subset_right _ (List.subset_append_left _ _)
  -- Entities and records are told by the last of their name, relations by all together.
  constructor
  · have classes := closed.classes
    simp only [classesOf_append] at classes ⊢
    exact classes.repeated classes_apart
  · have enums := closed.enums
    simp only [enumsOf_append] at enums ⊢
    exact enums.repeated enums_apart
  · exact closed.methods.repeated apart
  · rw [classesOf_append]
    exact closed.uses.repeated known
  · rw [classesOf_append, withClause_append]
    exact closed.inherits.repeated (List.filter_subset _ known)
  · rw [classesOf_append, withClause_append]
    exact closed.implements.repeated (List.filter_subset _ known)

theorem CodeModel.commitAll_repeated {front again between : List Java.Declaration}
    (apart : ∀ decl ∈ again, ∀ other ∈ between, other.name ≠ decl.name) :
    ({} : CodeModel).commitAll (front ++ again ++ between ++ again) =
      ({} : CodeModel).commitAll (front ++ again ++ between) :=
  (closedForm_commitAll _).unique ((closedForm_commitAll _).repeated apart)

/-! ### Texts and their declarations -/

/-- The origin of a source is told in errors only. -/
theorem Java.committed?_declarationOf (source : Java.SourceText) (origin other : String)
    (before : List Java.Node) (node : Java.Node) (kind : Java.DeclarationKind) :
    Java.committed? (node.declarationOf source origin before kind) =
      Java.committed? (node.declarationOf source other before kind) := by
  unfold Java.Node.declarationOf
  dsimp only
  split_ifs
  · rfl
  · rfl
  · rfl

theorem Java.SyntaxUnit.committed_ofTree (origin other : String) (cs : List Char)
    (tree : Java.Node) :
    (Java.SyntaxUnit.ofTree origin cs tree).committed =
      (Java.SyntaxUnit.ofTree other cs tree).committed := by
  unfold Java.SyntaxUnit.ofTree Java.SyntaxUnit.committed Java.Node.declarations
  rw [List.filterMap_filterMap, List.filterMap_filterMap]
  apply List.filterMap_congr
  rintro ⟨before, node⟩ _
  dsimp only
  cases node.declarationKind? with
  | none => rfl
  | some kind => exact Java.committed?_declarationOf _ origin other before node kind

/-- Equal texts have equal declarations, wherever they come from. -/
theorem Java.Parser.read_of_origin {parser : Java.Parser} {origin text : String}
    {parsed : Java.SyntaxUnit} (other : String) (read : parser.read origin text = .ok parsed) :
    ∃ parsed', parser.read other text = .ok parsed' ∧ parsed'.committed = parsed.committed := by
  unfold Java.Parser.read at read ⊢
  split at read
  next => cases read
  next =>
    split at read
    next tree parsed =>
      cases read
      exact ⟨_, rfl, Java.SyntaxUnit.committed_ofTree other origin text.toList tree⟩
    next => cases read

/-- The declarations of a source that reach the model; none if it cannot be parsed. -/
def SourceUnit.committed (parser : Java.Parser) (unit : SourceUnit) : List Java.Declaration :=
  match parser.read unit.origin unit.text with
  | .ok parsed => parsed.committed
  | .error _ => []

/-- The names that a source declares. -/
def SourceUnit.declaredNames (parser : Java.Parser) (unit : SourceUnit) : List String :=
  (unit.committed parser).map (·.name)

/-- The model of sources. -/
def modelOf (parser : Java.Parser) (units : List SourceUnit) : Except Java.TreeError CodeModel :=
  (Analysis.ofSources parser units).map (·.model)

variable {parser : Java.Parser}

theorem SourceUnit.committed_of_read {unit : SourceUnit} {parsed : Java.SyntaxUnit}
    (read : parser.read unit.origin unit.text = .ok parsed) :
    unit.committed parser = parsed.committed := by
  rw [SourceUnit.committed, read]

/-- A last source is taken into the model of those before it. -/
theorem modelOf_append_singleton (units : List SourceUnit) (last : SourceUnit) :
    modelOf parser (units ++ [last]) = do
      let model ← modelOf parser units
      let parsed ← parser.read last.origin last.text
      return model.commitAll parsed.committed := by
  unfold modelOf Analysis.ofSources
  rw [List.mapM_append]
  cases units.mapM fun unit => parser.read unit.origin unit.text with
  | error cause => rfl
  | ok parsed =>
    rw [List.mapM_cons, List.mapM_nil]
    cases parser.read last.origin last.text with
    | error cause => rfl
    | ok more =>
      apply congrArg Except.ok
      change (CodeModel.ingestAll {} (parsed ++ [more])).1 =
        (CodeModel.ingestAll {} parsed).1.commitAll more.committed
      rw [CodeModel.ingestAll_model, CodeModel.ingestAll_model, ← CodeModel.commitAll_append]
      simp [committedDeclarations]

/-- A model of sources is there if all of them can be parsed, and holds what they declare. -/
theorem of_modelOf_eq_ok {units : List SourceUnit} {model : CodeModel}
    (made : modelOf parser units = .ok model) :
    (∀ unit ∈ units, ∃ parsed, parser.read unit.origin unit.text = .ok parsed) ∧
      model = ({} : CodeModel).commitAll (units.flatMap (·.committed parser)) := by
  induction units using List.reverseRecOn generalizing model with
  | nil =>
    cases made
    exact ⟨fun _ listed => absurd listed List.not_mem_nil, rfl⟩
  | append_singleton units last ih =>
    rw [modelOf_append_singleton] at made
    cases before : modelOf parser units with
    | error cause => simp [before, bind, Except.bind] at made
    | ok first =>
      cases read : parser.read last.origin last.text with
      | error cause => simp [before, read, bind, Except.bind] at made
      | ok parsed =>
        simp only [before, read, bind, Except.bind, pure, Except.pure, Except.ok.injEq] at made
        obtain ⟨each, rfl⟩ := ih before
        refine ⟨List.forall_mem_append.mpr ⟨each, by simpa using ⟨parsed, read⟩⟩, ?_⟩
        rw [← made, ← SourceUnit.committed_of_read read, ← CodeModel.commitAll_append,
          List.flatMap_append, List.flatMap_singleton]

/-! ### Units kept and dropped -/

/-- A last unit is kept unless its hash came up before. -/
theorem dedupUnits_append_singleton (units : List SourceUnit) (last : SourceUnit) :
    dedupUnits (units ++ [last]) =
      dedupUnits units ++
        if last.contentHash ∈ units.map (·.contentHash) then [] else [last] := by
  rw [dedupUnits, dedupFrom_append, List.append_nil]
  rfl

/-- Whether no unit stands between two of one text, has another text and declares one of their
names. -/
def Undisturbed (parser : Java.Parser) (units : List SourceUnit) : Prop :=
  ∀ first between again, [first, between, again].Sublist units → again.text = first.text →
    between.text ≠ first.text →
      ∀ name ∈ first.declaredNames parser, name ∉ between.declaredNames parser

theorem Undisturbed.of_sublist {units kept : List SourceUnit}
    (undisturbed : Undisturbed parser units) (sublist : kept.Sublist units) :
    Undisturbed parser kept :=
  fun first between again within => undisturbed first between again (within.trans sublist)

theorem exists_last_split {α : Type} {holds : α → Prop} {values : List α}
    (some_value : ∃ value ∈ values, holds value) :
    ∃ front value back, values = front ++ value :: back ∧ holds value ∧
      ∀ other ∈ back, ¬ holds other := by
  induction values with
  | nil => simp at some_value
  | cons head rest ih =>
    by_cases later : ∃ value ∈ rest, holds value
    · obtain ⟨front, value, back, rfl, here, none_after⟩ := ih later
      exact ⟨head :: front, value, back, rfl, here, none_after⟩
    · obtain ⟨value, member, here⟩ := some_value
      rcases List.mem_cons.mp member with rfl | member
      · exact ⟨[], value, rest, rfl, here, fun other listed holds => later ⟨other, listed, holds⟩⟩
      · exact absurd ⟨value, member, here⟩ later

/-- A last unit whose text came up before adds nothing to the model. -/
theorem modelOf_append_copy {units : List SourceUnit} {last : SourceUnit}
    (undisturbed : Undisturbed parser (units ++ [last]))
    (copy : ∃ unit ∈ units, unit.text = last.text) :
    modelOf parser (units ++ [last]) = modelOf parser units := by
  rw [modelOf_append_singleton]
  cases made : modelOf parser units with
  | error cause => rfl
  | ok model =>
    obtain ⟨each, rfl⟩ := of_modelOf_eq_ok made
    -- Between the last unit and the nearest one of its text, all units have another text.
    obtain ⟨front, first, between, rfl, same, others⟩ := exists_last_split copy
    obtain ⟨parsed, read⟩ := each first (by simp)
    obtain ⟨again, read', alike⟩ := Java.Parser.read_of_origin last.origin read
    have apart : ∀ decl ∈ first.committed parser, ∀ other ∈ between.flatMap (·.committed parser),
        other.name ≠ decl.name := by
      intro decl member other member' clash
      obtain ⟨unit, listed, declared⟩ := List.mem_flatMap.mp member'
      have within : [first, unit, last].Sublist (front ++ first :: between ++ [last]) := by
        rw [List.append_assoc, List.cons_append]
        apply List.Sublist.trans _ (List.sublist_append_right front _)
        exact ((List.singleton_sublist.mpr listed).append (.refl [last])).cons_cons first
      have different : unit.text ≠ first.text := same ▸ others unit listed
      apply undisturbed first unit last within same.symm different decl.name
      · exact List.mem_map.mpr ⟨decl, member, rfl⟩
      · exact List.mem_map.mpr ⟨other, declared, clash⟩
    rw [same] at read'
    simp only [bind, Except.bind, read', pure, Except.pure, Except.ok.injEq]
    rw [alike, ← SourceUnit.committed_of_read read, ← CodeModel.commitAll_append,
      List.flatMap_append, List.flatMap_cons, ← List.append_assoc]
    exact CodeModel.commitAll_repeated apart

/-- The kept units give the same model as all of them, if no two texts have the same hash. -/
theorem modelOf_dedupUnits {units : List SourceUnit}
    (told_apart : ∀ unit ∈ units, ∀ other ∈ units, unit.contentHash = other.contentHash →
      unit.text = other.text)
    (undisturbed : Undisturbed parser units) :
    modelOf parser (dedupUnits units) = modelOf parser units := by
  induction units using List.reverseRecOn with
  | nil => rfl
  | append_singleton units last ih =>
    have front := ih
      (fun unit member other member' =>
        told_apart unit (List.mem_append_left _ member) other (List.mem_append_left _ member'))
      (undisturbed.of_sublist (List.sublist_append_left units [last]))
    rw [dedupUnits_append_singleton]
    split
    next old =>
      obtain ⟨unit, member, same⟩ := List.mem_map.mp old
      have copy : unit.text = last.text :=
        told_apart unit (List.mem_append_left _ member) last (by simp) same
      rw [List.append_nil, front, modelOf_append_copy undisturbed ⟨unit, member, copy⟩]
    next =>
      rw [modelOf_append_singleton, modelOf_append_singleton, front]

/-- Loading each content once leaves the model as it would be with all copies, down to the order of
every table, as long as no two texts have the same digest and no other unit comes between two copies
to declare one of their names. If the sources cannot all be parsed, the failure is the same. -/
theorem model_of_kept_units (parser : Java.Parser) {units : List SourceUnit}
    (hashed : ∀ unit ∈ units, unit.contentHash = Sha256.hexDigest unit.text)
    (no_collision : ∀ unit ∈ units, ∀ other ∈ units,
      Sha256.hexDigest unit.text = Sha256.hexDigest other.text → unit.text = other.text)
    (undisturbed : Undisturbed parser units) :
    modelOf parser (dedupUnits units) = modelOf parser units := by
  apply modelOf_dedupUnits _ undisturbed
  intro unit member other member' same
  apply no_collision unit member other member'
  rw [← hashed unit member, ← hashed other member', same]

/-- A class, another class, and a copy of the first one under another path. -/
def copiedTone : List SourceUnit :=
  [.ofText "a/Tone.java" "class Tone { Bell bell; }", .ofText "b/Bell.java" "class Bell { }",
    .ofText "c/Tone.java" "class Tone { Bell bell; }"]

theorem copiedTone_kept_units :
    (∀ unit ∈ copiedTone, unit.contentHash = Sha256.hexDigest unit.text) ∧
      (∀ unit ∈ copiedTone, ∀ other ∈ copiedTone,
        Sha256.hexDigest unit.text = Sha256.hexDigest other.text → unit.text = other.text) ∧
      Undisturbed {} copiedTone ∧ (∃ model, modelOf {} copiedTone = .ok model) ∧
      modelOf {} (dedupUnits copiedTone) = modelOf {} copiedTone := by
  have hashed : ∀ unit ∈ copiedTone, unit.contentHash = Sha256.hexDigest unit.text := by
    simp [copiedTone, SourceUnit.ofText]
  have distinct : Sha256.hexDigest "class Tone { Bell bell; }" ≠
      Sha256.hexDigest "class Bell { }" := by
    decide +kernel
  have no_collision : ∀ unit ∈ copiedTone, ∀ other ∈ copiedTone,
      Sha256.hexDigest unit.text = Sha256.hexDigest other.text → unit.text = other.text := by
    simp [copiedTone, SourceUnit.ofText, distinct, distinct.symm]
  have undisturbed : Undisturbed {} copiedTone := by
    -- Three units in a row of three are these three units.
    intro first between again within _ _
    have whole := within.eq_of_length rfl
    simp only [copiedTone, List.cons.injEq] at whole
    obtain ⟨rfl, rfl, -⟩ := whole
    decide +kernel
  have made := congrArg (Except.map Analysis.model) (Analysis.ofSources_grammar copiedTone)
  exact ⟨hashed, no_collision, undisturbed, ⟨_, made⟩,
    model_of_kept_units {} hashed no_collision undisturbed⟩

end JavaDiagram
