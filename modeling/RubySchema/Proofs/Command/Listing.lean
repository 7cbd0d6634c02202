import RubySchema.Proofs.Command.Generation
import RubySchema.Proofs.Generation.Encoding
import RubySchema.Proofs.Generation.Manifest
import RubySchema.Proofs.Generation.Mappings

/-!
The listing of types tells the truth about generation. With the files of a generation that has come
to its end, and that had no filter, the listing prints a line for each schema definition in the
result of the generation: the name of its type, the generated name and the base class, in the order
of the names. Two things set this text apart from the lines that reach the reader. The console
leaves out control sequences, and it cannot take half of a surrogate pair, where the listing ends.
The second happens only under a header of one's own, which may leave out the names of the
definition: the text of the package has them, so that a file with such a name could not have been
written.
-/

namespace RubySchema.Command

open Text

namespace Run

variable {workspace : Workspace} {options : TypesOptions} {settings : Settings} {schema : Schema}
  {classified : Classified} {session : Session}

def linesFor (mappings : List NameMapping) : List String :=
  mappings.map fun mapping => typeLine mapping.schemaName mapping

/-- A listing says a line for each of the mappings that carry their names, by induction on the
names.
-/
theorem forIn_names_eq (named : classified.IsNamed) (names : List String)
    : (do
        for name in names do
          match classified.get? name with
          | some mapping => if !mapping.isBuiltin then say (typeLine name mapping)
          | none => pure () : Run Unit)
      = (linesFor (names.filterMap classified.own?)).forM say := by
  induction names with
  | nil => rfl
  | cons name rest ih =>
      rw [List.forIn_cons, List.filterMap_cons]
      cases found : classified.get? name with
      | none =>
          have none : classified.own? name = none := by rw [Classified.own?, found]; rfl
          rw [none, ← ih, pure_bind]
      | some mapping =>
          cases builtin : mapping.isBuiltin with
          | true =>
              have none : classified.own? name = none := by
                rw [Classified.own?, found]
                simp [builtin]
              rw [none, ← ih]
              simp [builtin]
          | false =>
              have own : classified.own? name = some mapping :=
                Classified.own?_eq_some_iff.mpr ⟨found, builtin⟩
              rw [own, linesFor, List.map_cons, List.forM, named name mapping own]
              change _ = (do say (typeLine name mapping); (linesFor _).forM say)
              rw [← ih]
              simp [builtin]

def listedReference (workspace : Workspace) (options : TypesOptions) : Reference :=
  reference workspace ((workspace.find? options.reference).getD [])
    (Path.ofText options.reference)

/-- A listing classifies the types of its schema, and then says their lines. -/
theorem types_eq (workspace : Workspace) (options : TypesOptions)
    : types workspace options
      = (do
        let settings ← Run.settings workspace options.config []
        let schema ← Run.schema workspace options.schema
        let classified ← carry (Job.classify (listedReference workspace options) settings schema)
        for name in sortTexts classified.mappings.names do
          match classified.get? name with
          | some mapping => if !mapping.isBuiltin then say (typeLine name mapping)
          | none => pure ()) :=
  rfl

/-- A listing with settings and a schema comes to what saying its lines comes to, or says nothing
when the types cannot be classified.
-/
theorem exists_ending_types (session : Session)
    (given : settingsFrom? workspace options.config [] = some settings)
    (holds : HoldsSchema workspace options.schema schema)
    : ∃ between : Session,
        between.lines = session.lines
        ∧ (types workspace options).ending session
          = match (Job.classify (listedReference workspace options) settings schema).outcome with
            | .ok classified => ((linesFor classified.listed).forM say).ending between
            | .error cause => { session := between, stop := some (.cause cause) } := by
  obtain ⟨read, done, same⟩ := exists_schema_of_holds session holds
  let step := Job.classify (listedReference workspace options) settings schema
  refine ⟨{ read with notes := read.notes ++ step.notes }, same, ?_⟩
  rw [types_eq, ending_bind_of_ok (settings_of_some given), ending_bind_of_ok done]
  cases classifies : step.outcome with
  | ok classified =>
      rw [ending_bind_of_ok (carry_of_ok classifies),
        forIn_names_eq (Job.isNamed_of_classify classifies)]
      rfl
  | error cause => rw [ending_bind_of_error (carry_of_error classifies)]

/-- A listing whose settings are not in order says nothing. -/
theorem ending_types_of_none (missing : settingsFrom? workspace options.config [] = none)
    : (types workspace options).ending session = { session, stop := some .usage } := by
  have stopped : Run.settings workspace options.config [] session = .error .usage session := by
    unfold Run.settings
    rw [missing]
    rfl
  rw [types_eq, ending_bind_of_error stopped]

/-- Lines that are said in the end are what a command prints, and one that cannot be printed is its
failure.
-/
theorem ending_say_eq {between : Session} (lines : List String)
    : (((lines.forM say).ending between).outputLines = between.lines ++ printed lines)
      ∧ ((lines.forM say).ending between).exitCode
        = if lines.all isPrintable then 0 else 1 := by
  obtain ⟨said, stops, causes⟩ := ending_forM_say lines between
  refine ⟨said, ?_⟩
  unfold Outcome.exitCode
  cases stop : ((lines.forM say).ending between).stop with
  | none => rw [if_pos (List.all_eq_true.mpr (stops.mp stop))]
  | some other =>
      obtain ⟨cause, rfl⟩ := causes other stop
      rw [if_neg]
      intro all
      rw [stops.mpr (List.all_eq_true.mp all)] at stop
      cases stop

/-- What a listing prints, and how it ends, when its types can be classified. -/
theorem ending_types_of_classify (session : Session)
    (given : settingsFrom? workspace options.config [] = some settings)
    (holds : HoldsSchema workspace options.schema schema)
    (classifies
      : (Job.classify (listedReference workspace options) settings schema).outcome
        = .ok classified)
    : ((types workspace options).ending session).outputLines
          = session.lines ++ printed (linesFor classified.listed)
      ∧ ((types workspace options).ending session).exitCode
        = if (linesFor classified.listed).all isPrintable then 0 else 1 := by
  obtain ⟨between, before, ended⟩ := exists_ending_types session given holds
  rw [classifies] at ended
  rw [ended, ← before]
  exact ending_say_eq _

/-- What a listing prints, and how it ends, does not depend on the order of types in its schema, if
their names differ.
-/
theorem ending_types_of_perm {others : TypesOptions} {second : Schema}
    (sameReference : others.reference = options.reference)
    (sameConfig : others.config = options.config)
    (holds : HoldsSchema workspace options.schema schema)
    (otherHolds : HoldsSchema workspace others.schema second)
    (perm : schema.types.Perm second.types) (distinct : (schema.types.map TypeDef.name).Nodup)
    : ((types workspace options).ending session).outputLines
          = ((types workspace others).ending session).outputLines
      ∧ ((types workspace options).ending session).exitCode
        = ((types workspace others).ending session).exitCode := by
  have reference : listedReference workspace others = listedReference workspace options := by
    unfold listedReference
    rw [sameReference]
  cases given : settingsFrom? workspace options.config [] with
  | none =>
      rw [ending_types_of_none given, ending_types_of_none (sameConfig ▸ given)]
      exact ⟨rfl, rfl⟩
  | some settings =>
      have otherGiven : settingsFrom? workspace others.config [] = some settings :=
        sameConfig ▸ given
      cases classifies
          : (Job.classify (listedReference workspace options) settings schema).outcome with
      | ok classified =>
          obtain ⟨other, otherClassifies, same⟩ :=
            Job.exists_classify_of_perm perm distinct classifies
          rw [← reference] at otherClassifies
          obtain ⟨lines, code⟩ := ending_types_of_classify session given holds classifies
          obtain ⟨otherLines, otherCode⟩ :=
            ending_types_of_classify session otherGiven otherHolds otherClassifies
          rw [lines, otherLines, code, otherCode, same]
          exact ⟨rfl, rfl⟩
      | error cause =>
          -- the other order cannot be classified either, or this one could
          obtain ⟨otherCause, otherFails⟩
              : ∃ cause,
                  (Job.classify (listedReference workspace others) settings second).outcome
                    = .error cause := by
            cases otherClassifies
                : (Job.classify (listedReference workspace others) settings second).outcome with
            | error cause => exact ⟨cause, rfl⟩
            | ok other =>
                rw [reference] at otherClassifies
                obtain ⟨classified, made, -⟩ := Job.exists_classify_of_perm perm.symm
                  ((perm.map TypeDef.name).nodup_iff.mp distinct) otherClassifies
                rw [classifies] at made
                cases made
          obtain ⟨between, before, ended⟩ := exists_ending_types session given holds
          obtain ⟨otherBetween, otherBefore, otherEnded⟩ :=
            exists_ending_types session otherGiven otherHolds
          rw [classifies] at ended
          rw [otherFails] at otherEnded
          rw [ended, otherEnded]
          exact ⟨before.trans otherBefore.symm, rfl⟩

/-- Lines without halves are all printed, if none has both a control sequence and a mark. -/
theorem printed_of_whole {lines : List String} (whole : ∀ line ∈ lines, hasHalf line = false)
    (plain : ∀ line ∈ lines, '\x1b' ∉ line.toList ∨ mark ∉ line.toList)
    : lines.all isPrintable = true ∧ printed lines = lines.map withoutControls := by
  have all : ∀ line ∈ lines, isPrintable line = true := by
    intro line member
    unfold isPrintable
    rw [hasHalf_withoutControls (whole line member) (plain line member)]
    rfl
  rw [printed, List.takeWhile_eq_self_iff.mpr all]
  exact ⟨List.all_eq_true.mpr all, rfl⟩

/-- A line has the halves of the names in it. -/
theorem hasHalf_typeLine {name : String} {mapping : NameMapping} (named : hasHalf name = false)
    (target : hasHalf mapping.targetName = false)
    (base : hasHalf (mapping.baseType.getD "None") = false)
    : hasHalf (typeLine name mapping) = false := by
  have shown : hasHalf (mapping.baseType.getD "") = false := by
    cases based : mapping.baseType with
    | none => decide
    | some text => rwa [based] at base
  unfold typeLine
  rw [hasHalf_append_append (by decide) (by decide), hasHalf_append_append (by decide) (by decide),
    named, target, shown]
  rfl

/-- A listing of mappings, made for a schema for which a run with these templates has come to files.
-/
structure IsListing (templates : Table String) (mappings : List NameMapping) (outcome : Outcome)
    : Prop where
  /-- A line is printed for each mapping, up to the first line that cannot be printed. -/
  prints : outcome.outputLines = printed (linesFor mappings)
  /-- Such a line is the only failure. -/
  ends : outcome.exitCode = if (linesFor mappings).all isPrintable then 0 else 1
  /-- There is none when definitions have the header of the package. -/
  succeeds
    : Table.get? templates "schema_header.rb.j2" = none →
        (∀ line ∈ linesFor mappings, '\x1b' ∉ line.toList ∨ mark ∉ line.toList) →
          outcome.exitCode = 0 ∧ outcome.outputLines = (linesFor mappings).map withoutControls
  /-- Without escape characters the lines are then printed as they are. -/
  exact
    : Table.get? templates "schema_header.rb.j2" = none →
        (∀ line ∈ linesFor mappings, '\x1b' ∉ line.toList) →
          outcome.exitCode = 0 ∧ outcome.outputLines = linesFor mappings

theorem isListing_of_eq {templates : Table String} {mappings : List NameMapping}
    {outcome : Outcome} (prints : outcome.outputLines = printed (linesFor mappings))
    (ends : outcome.exitCode = if (linesFor mappings).all isPrintable then 0 else 1)
    (whole
      : Table.get? templates "schema_header.rb.j2" = none →
          ∀ line ∈ linesFor mappings, hasHalf line = false)
    : IsListing templates mappings outcome := by
  have succeeds (standard : Table.get? templates "schema_header.rb.j2" = none)
      (plain : ∀ line ∈ linesFor mappings, '\x1b' ∉ line.toList ∨ mark ∉ line.toList)
      : outcome.exitCode = 0
        ∧ outcome.outputLines = (linesFor mappings).map withoutControls := by
    obtain ⟨all, shown⟩ := printed_of_whole (whole standard) plain
    rw [ends, if_pos all, prints, shown]
    exact ⟨rfl, rfl⟩
  refine ⟨prints, ends, succeeds, fun standard free => ?_⟩
  obtain ⟨ended, shown⟩ := succeeds standard fun line member => .inl (free line member)
  refine ⟨ended, shown.trans ?_⟩
  exact (List.map_congr_left fun line member => withoutControls_of_not_mem (free line member)).trans
    (List.map_id' _)

/-- The listing of the files of a generation without a filter tells of its result. -/
theorem Generated.exists_tells {options : GenerateOptions} {job : Job} {generation : Generation}
    (session : Session) (generated : Generated workspace options job generation)
    (unfiltered : options.excludePrefix = none) (unprinted : session.lines = [])
    : ∃ draft mappings,
        job.draft.outcome = .ok draft
        ∧ job.Tells draft generation mappings
        ∧ IsListing job.templates mappings
          ((types workspace
            {
              schema := options.schema
              reference := options.reference
              config := options.config
            }).ending session) := by
  obtain ⟨draft, drafted, -⟩ := Job.exists_draft_of_build generated.built
  have stages := Job.draft_eq_ok_iff.mp drafted
  have noFilters : job.hooks.filters = [] := by
    rw [generated.hooks, hooksOf, unfiltered]
    rfl
  have tells := Job.tells_of_build noFilters drafted generated.built
  obtain ⟨place, checkout, reference⟩ := generated.reference
  obtain ⟨plain, given, namespaceSame, overridesSame⟩ := exists_settingsFrom?_nil generated.settings
  -- the place of the checkout is the same, though it is given by another text
  let wanted : TypesOptions :=
    { schema := options.schema, reference := options.reference, config := options.config }
  have listed : listedReference workspace wanted
      = { job.reference with root := (Path.ofText options.reference).text } := by
    rw [listedReference, checkout.found, reference]
    rfl
  have classifies
      : (Job.classify (listedReference workspace wanted) plain job.schema).outcome
        = .ok draft.plan.classified := by
    have classified := stages.classified
    rw [stages.schema_eq_of_unfiltered noFilters] at classified
    rw [listed]
    exact Job.classify_of_root _ namespaceSame overridesSame classified
  obtain ⟨prints, ends⟩ :=
    ending_types_of_classify session given generated.schema classifies
  rw [unprinted, List.nil_append] at prints
  refine ⟨draft, _, drafted, tells, isListing_of_eq prints ends fun standard line member => ?_⟩
  obtain ⟨mapping, among, rfl⟩ := List.mem_map.mp member
  obtain ⟨named, target, base⟩ := tells.hasHalf_eq stages.templates standard
    (Output.hasHalf_of_writeFiles generated.written) among
  exact hasHalf_typeLine named target base

end Run

namespace Request

variable {workspace : Workspace} {generating listing : List String} {given wanted other : Given}

/-- Command lines for a generation with a checkout and without a filter, and for a listing of the
same files.
-/
structure Correspond (workspace : Workspace) (generating listing : List String)
    (given wanted : Given) : Prop where
  generate : ofArguments? generating = some (.generate given)
  types : ofArguments? listing = some (.types wanted)
  sameFiles : HaveSameFiles given wanted
  checkout
    : ∀ text, Table.get? given "--reference" = some text →
        ∃ place, workspace.HoldsCheckout text place
  unfiltered : Table.get? given "--exclude-prefix" = none

theorem exitCode_eq_zero_iff {outcome : Outcome} : outcome.exitCode = 0 ↔ outcome.stop = none := by
  unfold Outcome.exitCode
  cases outcome.stop with
  | none => simp
  | some stop => cases stop <;> simp

/-- The listing that corresponds to a generation has options of the same values. -/
theorem HaveSameFiles.optioned (same : HaveSameFiles given wanted) {options : GenerateOptions}
    (optioned : GenerateOptions.ofGiven? given = some options)
    : TypesOptions.ofGiven? wanted
          = some
            { schema := options.schema, reference := options.reference, config := options.config }
      ∧ Table.get? given "--reference" = some options.reference
      ∧ options.excludePrefix = Table.get? given "--exclude-prefix" := by
  unfold GenerateOptions.ofGiven? at optioned
  obtain ⟨schema, hasSchema, optioned⟩ := Option.bind_eq_some_iff.mp optioned
  obtain ⟨reference, hasReference, optioned⟩ := Option.bind_eq_some_iff.mp optioned
  cases optioned
  refine ⟨?_, hasReference, rfl⟩
  unfold TypesOptions.ofGiven?
  rw [same "--schema" (by decide), same "--reference" (by decide), same "--config" (by decide),
    hasSchema, hasReference]
  rfl

/-- A listing of the files of a generation is carried out when the generation has come to its end.
-/
theorem Correspond.exists_options (same : Correspond workspace generating listing given wanted)
    (done : ((Request.generate given).perform workspace).exitCode = 0)
    : ∃ options place after,
        GenerateOptions.ofGiven? given = some options
        ∧ options.excludePrefix = none
        ∧ workspace.HoldsCheckout options.reference place
        ∧ Run.generate workspace options workspace.session = .ok () after
        ∧ (Request.types wanted).perform workspace
          = (Run.types workspace
              {
                schema := options.schema
                reference := options.reference
                config := options.config
              }).ending workspace.session := by
  obtain ⟨met, options, after, optioned, ran⟩ :=
    exists_generate_of_perform (exitCode_eq_zero_iff.mp done)
  obtain ⟨listed, reference, excluded⟩ := same.sameFiles.optioned optioned
  obtain ⟨place, checkout⟩ := same.checkout _ reference
  refine ⟨options, place, after, optioned, excluded.trans same.unfiltered, checkout, ran, ?_⟩
  refine perform_types (areMet_types met (nodup_of_types same.types) same.sameFiles ?_) listed
  intro text given
  obtain ⟨place, found⟩ := same.checkout text given
  rw [Workspace.isDirectory, found.found]
  exact found.isDirectory

/-- A listing tells the truth about generation. When a generation with a checkout and without a
filter comes to its end, then the listing of its files prints, in the order of their names, a line
for each type that has a schema definition in the result, and for no other, with the generated name
and the base of that definition. Control sequences are left out of the lines, and the listing stops
early only at a line with half of a surrogate pair, which there is only under a header of one's own.
For a schema of distinct names, what is printed and the exit code do not depend on the order of the
types.
-/
theorem listing_tells_of_generation (workspace : Workspace)
    : (∀ (generating listing : List String) (given wanted : Given),
        Correspond workspace generating listing given wanted →
        ((Request.generate given).perform workspace).exitCode = 0 →
          ∃ options job draft generation mappings,
            GenerateOptions.ofGiven? given = some options
            ∧ Run.Generated workspace options job generation
            ∧ job.draft.outcome = .ok draft
            ∧ job.Tells draft generation mappings
            ∧ Run.IsListing job.templates mappings ((Request.types wanted).perform workspace))
      ∧ ∀ (wanted other : Given) (options others : TypesOptions) (first second : Schema),
          AreMet workspace (.types wanted) → AreMet workspace (.types other) →
          TypesOptions.ofGiven? wanted = some options → TypesOptions.ofGiven? other = some others →
          others.reference = options.reference → others.config = options.config →
          Run.HoldsSchema workspace options.schema first →
          Run.HoldsSchema workspace others.schema second →
          first.types.Perm second.types → (first.types.map TypeDef.name).Nodup →
            ((Request.types wanted).perform workspace).outputLines
                = ((Request.types other).perform workspace).outputLines
              ∧ ((Request.types wanted).perform workspace).exitCode
                = ((Request.types other).perform workspace).exitCode := by
  refine ⟨?_, ?_⟩
  · intro generating listing given wanted same done
    obtain ⟨options, place, after, optioned, unfiltered, checkout, ran, listed⟩ :=
      same.exists_options done
    obtain ⟨job, generation, generated⟩ := Run.exists_generated checkout ran
    obtain ⟨draft, mappings, drafted, tells, isListing⟩ :=
      generated.exists_tells workspace.session unfiltered rfl
    exact ⟨options, job, draft, generation, mappings, optioned, generated, drafted, tells,
      listed ▸ isListing⟩
  · intro wanted other options others first second met otherMet optioned otherOptioned reference
      config holds otherHolds perm distinct
    rw [perform_types met optioned, perform_types otherMet otherOptioned]
    exact Run.ending_types_of_perm reference config holds otherHolds perm distinct

def templateNames : List String :=
  [
    "schema.rb.j2", "base_type.rb.j2", "user_module.rb.j2", "schema_header.rb.j2",
    "implementation_header.rb.j2", "spec_header.rb.j2", "field_method.rb.j2", "field_spec.rb.j2",
    "file_list.rb.j2", "field_list.md.j2"
  ]

/-- A workspace with three schemas. The first has a root whose name has a control sequence, and an
input object whose name has half of a surrogate pair; the others have the same two types in
different orders. All templates are empty.
-/
def oddNames : Workspace :=
  {
    home := ["/"]
    scratch := ["/", "x"]
    tree :=
      {
        files :=
          [
            (["/", "s"],
              "\x7b\"queryType\":\x7b\"name\":\"Q\\u001b[m\"\x7d,"
                ++ "\"mutationType\":\x7b\"name\":\"Q\\u001b[m\"\x7d,\"types\":["
                ++ "\x7b\"name\":\"Q\\u001b[m\",\"kind\":\"OBJECT\"\x7d,"
                ++ "\x7b\"name\":\"R\\udc80\",\"kind\":\"INPUT_OBJECT\"\x7d]\x7d"),
            (["/", "u"],
              "\x7b\"types\":[\x7b\"name\":\"A\",\"kind\":\"ENUM\"\x7d,"
                ++ "\x7b\"name\":\"B\",\"kind\":\"ENUM\"\x7d]\x7d"),
            (["/", "v"],
              "\x7b\"types\":[\x7b\"name\":\"B\",\"kind\":\"ENUM\"\x7d,"
                ++ "\x7b\"name\":\"A\",\"kind\":\"ENUM\"\x7d]\x7d"),
            (["/", "c"],
              "\x7b\"lib_dir\":\"l\",\"spec_dir\":\"p\",\"template_dir\":\"t\"\x7d"),
            (["/", "r", "lib", "graphql", "types", "id.rb"], "class ID <")
          ]
            ++ templateNames.map fun name => (["/", "t", name], "")
      }
    archives := []
  }

/-- The values of options that name a schema, and the same checkout and settings for each. -/
def filesWith (schema : String) : Given :=
  [("--schema", schema), ("--reference", "r"), ("--config", "c")]

def bareType (name : String) (kind : TypeKind) : TypeDef :=
  { Job.plainType name kind [] with fields := none }

def bareSchema (root : Json) (types : List TypeDef) : Schema :=
  {
    queryType := root
    mutationType := root
    subscriptionType := .null
    directives := []
    types
    description := .null
  }

def brokenName : String :=
  ofPoints ['R'.toNat, 0xdc80]

def oddTypes : List TypeDef :=
  [bareType "Q\x1b[m" .object, bareType brokenName .inputObject]

def bareDocument (name kind : String) : Json :=
  .object [("name", .string name), ("kind", .string kind)]

theorem holdsSchema_oddNames
    : Run.HoldsSchema oddNames "s" (bareSchema (.string "Q\x1b[m") oddTypes) := by
  let root : Json := .object [("name", .string "Q\x1b[m")]
  have documented
      : Schema.documentOfFile "s" ((oddNames.read? "s").getD "")
        = .ok (.object [
          ("queryType", root), ("mutationType", root),
          ("types", .array [
            bareDocument "Q\x1b[m" "OBJECT", bareDocument brokenName "INPUT_OBJECT"])]) := by
    decide +kernel
  exact Run.holdsSchema_of_document rfl documented rfl

theorem holdsSchema_reordered
    : Run.HoldsSchema oddNames "u" (bareSchema .null [bareType "A" .enum, bareType "B" .enum])
      ∧ Run.HoldsSchema oddNames "v"
          (bareSchema .null [bareType "B" .enum, bareType "A" .enum]) := by
  have first
      : Schema.documentOfFile "u" ((oddNames.read? "u").getD "")
        = .ok (.object [
          ("types", .array [bareDocument "A" "ENUM", bareDocument "B" "ENUM"])]) := by
    decide +kernel
  have second
      : Schema.documentOfFile "v" ((oddNames.read? "v").getD "")
        = .ok (.object [
          ("types", .array [bareDocument "B" "ENUM", bareDocument "A" "ENUM"])]) := by
    decide +kernel
  exact ⟨Run.holdsSchema_of_document rfl first rfl, Run.holdsSchema_of_document rfl second rfl⟩

def oddOptions : GenerateOptions :=
  {
    (default : GenerateOptions) with
    schema := "s"
    reference := "r"
    output := "."
    config := some "c"
  }

def oddSettings : Settings :=
  { Settings.standard with libDir := "l", specDir := "p", templateDir := some "t" }

theorem checkout_oddNames : oddNames.HoldsCheckout "r" ["/", "r"] :=
  ⟨by decide, by decide, by decide⟩

theorem settings_oddNames : Run.settingsFrom? oddNames (some "c") [] = some oddSettings := by
  decide +kernel

def oddJob : Job :=
  {
    schema := bareSchema (.string "Q\x1b[m") oddTypes
    reference := Run.reference oddNames ["/", "r"] ["/", "r"]
    settings := oddSettings
    hooks := Hooks.none
    templates := templateNames.map fun name => (name, "")
  }

/-- The run on the schema of odd names has a result, whose files can be written. -/
theorem exists_generated_oddNames
    : ∃ generation,
        Run.Generated oddNames oddOptions oddJob generation
        ∧ generation.unsupported = []
        ∧ generation.total = 0 := by
  have built
      : ∃ generation,
          oddJob.build.outcome = .ok generation
          ∧ ((Output.start oddNames.tree).writeFiles ["/"] true generation.files).2 = none
          ∧ generation.unsupported = []
          ∧ generation.total = 0 := by
    decide +kernel
  obtain ⟨generation, built, written, supported, total⟩ := built
  exact ⟨generation,
    {
      settings := settings_oddNames
      reference := ⟨_, checkout_oddNames, rfl⟩
      schema := holdsSchema_oddNames
      templates := by decide +kernel
      hooks := rfl
      first := rfl
      built
      written
    }, supported, total⟩

/-- What the requests demand of the files is met. -/
theorem areMet_oddNames
    : AreMet oddNames (.generate (filesWith "s"))
      ∧ ∀ schema ∈ ["s", "u", "v"], AreMet oddNames (.types (filesWith schema)) := by
  unfold AreMet
  decide +kernel

theorem exitCode_generate_oddNames
    : ((Request.generate (filesWith "s")).perform oddNames).exitCode = 0 := by
  have optioned : GenerateOptions.ofGiven? (filesWith "s") = some oddOptions := rfl
  obtain ⟨generation, generated, supported, total⟩ := exists_generated_oddNames
  rw [perform_generate areMet_oddNames.1 optioned, exitCode_eq_zero_iff,
    Run.stop_ending_eq_none_iff]
  apply generated.exists_after rfl rfl supported
  rw [total]
  decide

def oddLines : List String :=
  [
    "Q\x1b[m -> Types::Q\x1b[m < Types::BaseObject",
    brokenName ++ " -> Inputs::" ++ brokenName ++ " < Inputs::BaseInput"
  ]

theorem exists_classified_oddNames
    : ∃ classified,
        (Job.classify (Run.listedReference oddNames ⟨"s", "r", some "c"⟩) oddSettings
          oddJob.schema).outcome = .ok classified
        ∧ Run.linesFor classified.listed = oddLines := by
  have named
      : ∃ classified,
          (Job.classify (Run.listedReference oddNames ⟨"s", "r", some "c"⟩) oddSettings
            oddJob.schema).outcome = .ok classified
          ∧ classified.mappings.names = ["ID", "Q\x1b[m", brokenName] := by
    decide +kernel
  have lined
      : ∃ classified,
          (Job.classify (Run.listedReference oddNames ⟨"s", "r", some "c"⟩) oddSettings
            oddJob.schema).outcome = .ok classified
          ∧ Run.linesFor (["ID", "Q\x1b[m", brokenName].filterMap classified.own?) = oddLines := by
    decide +kernel
  have sorted : ["ID", "Q\x1b[m", brokenName].Pairwise fun first second => textLe first second := by
    decide
  obtain ⟨classified, classifies, same⟩ := named
  obtain ⟨again, classifiesAgain, lines⟩ := lined
  cases classifies.symm.trans classifiesAgain
  rw [← same] at sorted lines
  exact ⟨classified, classifies, Classified.listed_of_pairwise sorted ▸ lines⟩

/-- The listing of odd names leaves out a control sequence and stops at half of a surrogate pair. -/
theorem types_oddNames
    : ((Request.types (filesWith "s")).perform oddNames).outputLines
          = ["Q -> Types::Q < Types::BaseObject"]
      ∧ ((Request.types (filesWith "s")).perform oddNames).exitCode = 1 := by
  let options : TypesOptions := ⟨"s", "r", some "c"⟩
  have met := areMet_oddNames.2 "s" (by simp)
  have optioned : TypesOptions.ofGiven? (filesWith "s") = some options := rfl
  have given : Run.settingsFrom? oddNames options.config [] = some oddSettings :=
    settings_oddNames
  have shown : Run.printed oddLines = ["Q -> Types::Q < Types::BaseObject"] := by
    decide
  have broken : oddLines.all Run.isPrintable = false := by
    decide
  obtain ⟨classified, classifies, same⟩ := exists_classified_oddNames
  obtain ⟨lines, code⟩ :=
    Run.ending_types_of_classify oddNames.session given holdsSchema_oddNames classifies
  rw [same, shown] at lines
  rw [same, broken] at code
  rw [perform_types met optioned]
  exact ⟨lines, code⟩

theorem correspond_oddNames
    : Correspond oddNames ["generate", "-s", "s", "-r", "r", "-c", "c"]
        ["types", "-s", "s", "-r", "r", "-c", "c"] (filesWith "s") (filesWith "s") := by
  refine ⟨rfl, rfl, fun _ _ => rfl, fun text given => ?_, rfl⟩
  cases given
  exact ⟨_, checkout_oddNames⟩

/-- The listing tells of the generation for odd names, and of the two schemas with the same types.
-/
theorem listing_tells_of_oddNames
    : (∃ options job draft generation mappings,
        GenerateOptions.ofGiven? (filesWith "s") = some options
        ∧ Run.Generated oddNames options job generation
        ∧ job.draft.outcome = .ok draft
        ∧ job.Tells draft generation mappings
        ∧ Run.IsListing job.templates mappings
          ((Request.types (filesWith "s")).perform oddNames))
      ∧ ((Request.types (filesWith "u")).perform oddNames).outputLines
          = ((Request.types (filesWith "v")).perform oddNames).outputLines
      ∧ ((Request.types (filesWith "u")).perform oddNames).exitCode
          = ((Request.types (filesWith "v")).perform oddNames).exitCode := by
  obtain ⟨tells, stays⟩ := listing_tells_of_generation oddNames
  refine ⟨tells _ _ _ _ correspond_oddNames exitCode_generate_oddNames, ?_⟩
  obtain ⟨first, second⟩ := holdsSchema_reordered
  exact stays (filesWith "u") (filesWith "v") ⟨"u", "r", some "c"⟩ ⟨"v", "r", some "c"⟩ _ _
    (areMet_oddNames.2 "u" (by simp)) (areMet_oddNames.2 "v" (by simp)) rfl rfl rfl rfl first second
    (.swap _ _ _) (by decide)

/-- A listing can stop where the generation on its files does not, and it can print names that no
type of the schema has.
-/
theorem listing_is_not_exact
    : (¬∀ (workspace : Workspace) (generating listing : List String) (given wanted : Given),
        Correspond workspace generating listing given wanted
        → ((Request.generate given).perform workspace).exitCode = 0
        → ((Request.types wanted).perform workspace).exitCode = 0)
      ∧ ¬∀ (workspace : Workspace) (generating listing : List String) (given wanted : Given),
          Correspond workspace generating listing given wanted
          → ((Request.generate given).perform workspace).exitCode = 0
          → ∀ path schema,
              Table.get? wanted "--schema" = some path
              → Run.HoldsSchema workspace path schema
              → ∀ line ∈ ((Request.types wanted).perform workspace).outputLines,
                  ∃ type ∈ schema.types,
                    ∃ name,
                      type.name = .string name ∧ startsWith line (name ++ " -> ") = true := by
  obtain ⟨lines, code⟩ := types_oddNames
  refine ⟨fun succeeds => ?_, fun shows => ?_⟩
  · have done := succeeds _ _ _ _ _ correspond_oddNames exitCode_generate_oddNames
    rw [code] at done
    cases done
  · have shown := shows _ _ _ _ _ correspond_oddNames exitCode_generate_oddNames "s" _ rfl
      holdsSchema_oddNames "Q -> Types::Q < Types::BaseObject"
      (by rw [lines]; exact List.mem_singleton_self _)
    obtain ⟨type, member, name, named, starts⟩ := shown
    have none : ∀ type ∈ oddTypes, ∀ name, type.name = .string name →
        startsWith "Q -> Types::Q < Types::BaseObject" (name ++ " -> ") = false := by
      intro type member name named
      rcases List.mem_cons.mp member with rfl | member
      · cases named
        decide
      · cases List.mem_singleton.mp member
        cases named
        decide
    rw [none type member name named] at starts
    cases starts

end Request

end RubySchema.Command

