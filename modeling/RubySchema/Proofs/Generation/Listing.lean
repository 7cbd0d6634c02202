import RubySchema.Proofs.Generation.Correspondence
import RubySchema.Proofs.Generation.Order

/-!
The count of a run is the number of its signatures, and the list holds its fields in order when no
type has two fields of one name. Every field that is kept is counted and listed, and is written over
an entry of its name.
-/

namespace RubySchema

open Text

/-- A field that is kept is listed under its name, with the names of all its arguments. -/
def Field.entry (subject : Subject) (field : Field) : String × Option String :=
  (subject.mapping.schemaName ++ "." ++ field.name.display,
    if field.arguments.isEmpty then none
    else
      some ("(" ++ ", ".intercalate (field.arguments.map fun argument => argument.name.display)
        ++ ")"))

def Subject.entries (subject : Subject) : Table (Option String) :=
  subject.keptFields.map (Field.entry subject)

/-- The entries of a type with a usual name and usual fields stay in their lines. -/
theorem Subject.IsPlain.isUnbroken_entries {settings : Settings} {subject : Subject}
    (plain : subject.IsPlain settings)
    : ∀ entry ∈ subject.entries,
        Statement.IsUnbroken (entry.1 ++ entry.2.getD "").toList := by
  intro entry member
  obtain ⟨field, kept, rfl⟩ := List.mem_map.mp member
  obtain ⟨plainField, arguments⟩ := plain.fields field (List.mem_of_mem_filter kept)
  let shown := field.arguments.map fun argument => argument.name.display
  have names : Statement.IsUnbroken (", ".intercalate shown).toList := by
    intro c within
    rcases mem_intercalate within with between | ⟨name, among, within⟩
    · have signs : Statement.IsUnbroken ", ".toList := by decide
      exact signs c between
    · obtain ⟨argument, given, rfl⟩ := List.mem_map.mp among
      exact (arguments argument given).name.isGraphQL.isUnbroken c within
  unfold Field.entry
  simp only [String.toList_append]
  refine ((plain.name.isUnbroken.append (by decide)).append
    plainField.name.isGraphQL.isUnbroken).append ?_
  split
  · exact fun _ member => nomatch member
  · rw [Option.getD_some, String.toList_append, String.toList_append]
    exact (Statement.IsUnbroken.append (by decide) names).append (by decide)

/-- The list of fields has a line for each entry, by induction on the entries. -/
theorem Page.lines_fieldListText {entries : Table (Option String)}
    (unbroken
      : ∀ entry ∈ entries, Statement.IsUnbroken (entry.1 ++ entry.2.getD "").toList)
    : lines (fieldListText entries).toList
      = entries.map fun entry => ("1. [ ] " ++ entry.1 ++ entry.2.getD "").toList := by
  unfold fieldListText
  induction entries with
  | nil => rfl
  | cons entry rest ih =>
      obtain ⟨here, later⟩ := List.forall_mem_cons.mp unbroken
      have line : Statement.IsUnbroken ("1. [ ] " ++ entry.1 ++ entry.2.getD "").toList := by
        rw [String.append_assoc, String.toList_append]
        exact .append (by decide) here
      have feed : "\n".toList = ['\n'] := rfl
      rw [List.map_cons, List.map_cons, ← ih later]
      show lines (("1. [ ] " ++ entry.1 ++ entry.2.getD "") ++ "\n" ++ concat _).toList = _
      generalize "1. [ ] " ++ entry.1 ++ entry.2.getD "" = shown at line ⊢
      rw [String.toList_append, String.toList_append, feed, List.append_assoc,
        List.singleton_append, Statement.lines_line line]

namespace Steps

def entries (steps : Steps) : Table (Option String) :=
  (steps.filterMap Except.toOption).filterMap Contribution.listed?

variable {first second steps : Steps}

@[simp]
theorem entries_append : entries (first ++ second) = entries first ++ entries second := by
  unfold entries
  rw [List.filterMap_append, List.filterMap_append]

theorem All.entries_eq {holds : Contribution → Prop} (all : All holds steps)
    (unlisted : ∀ {contribution}, holds contribution → contribution.listed? = none)
    : entries steps = [] := by
  unfold entries
  rw [List.filterMap_eq_nil_iff]
  intro contribution member
  obtain ⟨step, among, same⟩ := List.mem_filterMap.mp member
  cases step with
  | error cause => cases same
  | ok made => exact Option.some.inj same ▸ unlisted (all made among)

end Steps

namespace Contribution

variable {plan : Plan} {subject : Subject} {field : Field} {isShown : Bool}

theorem listing_eq (plain : field.IsPlain)
    (arguments : ∀ argument ∈ field.arguments, argument.IsPlain)
    : listing subject field
      = .ok (.listed (field.entry subject).1 (field.entry subject).2) := by
  have names
      : (field.arguments.mapM fun argument => argument.name.asText)
        = .ok (field.arguments.map fun argument => argument.name.display) :=
    mapM_eq_ok fun argument member => (arguments argument member).name.asText_eq
  unfold listing Field.entry
  rw [plain.name.asText_eq, names]
  cases field.arguments.isEmpty <;> rfl

/-- A field that is kept is listed once. -/
theorem entries_ofKeptField (plain : field.IsPlain)
    (arguments : ∀ argument ∈ field.arguments, argument.IsPlain)
    (made : (ofKeptField plan subject isShown field).AreMade)
    : (ofKeptField plan subject isShown field).entries = [field.entry subject] := by
  have fragments {kind : DocumentKind} {text : Except Error String}
      : Steps.entries (subject.fragment kind .fields text) = [] := by
    have line : Steps.All IsLine (subject.fragment kind .fields text) :=
      Steps.all_fragment fun _ => rfl
    exact line.entries_eq IsLine.listed?_eq_none
  obtain ⟨resolved, text, name, names, -, -, listed, parts⟩ := ofKeptField_of_areMade made
  rw [listing_eq plain arguments] at listed
  obtain ⟨rfl, rfl⟩ := Contribution.listed.inj (Except.ok.inj listed)
  have inner
      : Steps.entries (field.arguments.flatMap (ofArgument plan subject 2 resolved.isConnection))
        = [] := by
    have lines
        : Steps.All IsLine
            (field.arguments.flatMap (ofArgument plan subject 2 resolved.isConnection)) :=
      Steps.all_flatMap fun argument _ => isLine_ofArgument 2 _ argument
    exact lines.entries_eq IsLine.listed?_eq_none
  have opening
      : Steps.entries (.ok (.reference resolved.targetName)
          :: subject.fragment .schema .fields (.ok text))
        = [] :=
    fragments
  rw [parts]
  simp only [Steps.entries_append, opening, fragments, inner]
  rfl

/-- The fields that are kept are listed in order. -/
theorem entries_fields {fields : List Field} {start : Nat}
    (plain : ∀ field ∈ fields, field.IsPlain ∧ ∀ argument ∈ field.arguments, argument.IsPlain)
    (made
      : Steps.AreMade ((fields.zipIdx start).flatMap fun entry =>
          ofField plan subject entry.1 entry.2))
    : Steps.entries
          ((fields.zipIdx start).flatMap fun entry => ofField plan subject entry.1 entry.2)
        = (fields.filter fun field => !isFieldLeftOut subject field).map (Field.entry subject) := by
  rw [List.map_eq_flatMap]
  refine read_fields rfl (fun _ _ => Steps.entries_append) ?_ made
  intro field member isShown here
  obtain ⟨plainHere, arguments⟩ := plain field member
  exact entries_ofKeptField plainHere arguments here

end Contribution

/-- A type lists the fields that are kept, in order. -/
theorem Plan.listedBy_eq {plan : Plan} {subject : Subject} (standard : plan.templates = [])
    (paths : plan.HasPaths) (plain : subject.IsPlain plan.settings)
    (whole : Contribution.IsWhole plan subject) : plan.listedBy subject = subject.entries := by
  obtain ⟨front, back, parts, quietFront, quietBack⟩ :=
    Contribution.exists_quiet_around_fields standard paths plain
  unfold Contribution.IsWhole at whole
  show Steps.entries (Contribution.ofSubject plan subject) = _
  rw [parts] at whole ⊢
  obtain ⟨made, -⟩ := List.forall_mem_append.mp whole
  obtain ⟨-, made⟩ := List.forall_mem_append.mp made
  rw [Steps.entries_append, Steps.entries_append,
    quietFront.entries_eq Contribution.IsQuiet.listed?_eq_none,
    quietBack.entries_eq Contribution.IsQuiet.listed?_eq_none, List.nil_append, List.append_nil,
    Subject.entries, subject.keptFields_eq]
  exact Contribution.entries_fields plain.fields made

section
variable {plan : Plan} {subjects : List Subject}
variable (lists : ∀ subject ∈ subjects, plan.listedBy subject = subject.entries)
include lists

theorem Plan.entries_script
    : (subjects.flatMap (Contribution.script plan)).filterMap Contribution.listed?
      = subjects.flatMap Subject.entries := by
  rw [List.filterMap_flatMap]
  exact List.flatMap_congr lists

/-- There are as many entries as signatures. -/
theorem Plan.length_entries
    : ((subjects.flatMap (Contribution.script plan)).filterMap Contribution.listed?).length
      = (subjects.flatMap Subject.signatures).length := by
  rw [Plan.entries_script lists, List.length_flatMap, List.length_flatMap]
  simp [Subject.entries, Subject.signatures]

/-- The list holds all fields in order when no type has two of one name, and no two types have one
name.
-/
theorem Plan.fieldList_eq
    (apart : (subjects.map fun subject => subject.mapping.schemaName).Nodup)
    (noStops : ∀ subject ∈ subjects, '.' ∉ subject.mapping.schemaName.toList)
    (distinct : ∀ subject ∈ subjects, (subject.signatures.map Signature.name).Nodup)
    : (subjects.flatMap (Contribution.script plan)).foldl listAfter []
      = subjects.flatMap Subject.entries := by
  have names (subject : Subject)
      : subject.entries.names
        = (subject.signatures.map Signature.name).map fun name =>
            subject.mapping.schemaName ++ "." ++ name := by
    simp [Subject.entries, Subject.signatures, Table.names, Field.entry, Field.signature,
      Function.comp_def]
  have unique : (Table.names ([] ++ subjects.flatMap Subject.entries)).Nodup := by
    rw [List.nil_append, Table.names, List.map_flatMap, List.nodup_flatMap]
    constructor
    · intro subject member
      show subject.entries.names.Nodup
      rw [names]
      apply (distinct subject member).map
      intro first second same
      exact (String.append_right_inj _).mp same
    · apply (List.pairwise_map.mp apart).imp_of_mem
      intro first second firstMember secondMember different name inFirst inSecond
      change name ∈ first.entries.names at inFirst
      change name ∈ second.entries.names at inSecond
      rw [names] at inFirst inSecond
      obtain ⟨field, -, rfl⟩ := List.mem_map.mp inFirst
      obtain ⟨other, -, same⟩ := List.mem_map.mp inSecond
      exact different
        (eq_of_append_stop (noStops first firstMember) (noStops second secondMember) same.symm)
  rw [foldl_listAfter, Plan.entries_script lists, Table.foldl_put_of_nodup unique,
    List.nil_append]

end

end RubySchema
