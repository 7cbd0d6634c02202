import Mathlib.Data.List.Infix
import RubySchema.Generation.Output
import RubySchema.Proofs.Writing

/-!
Along straight paths a file that users may edit is kept by any number of runs that do not overwrite,
and a run writes exactly what it does not keep. Runs write their files into one tree, each over what
the ones before have left and what users have made of it. Behind a step up the file may not be
found, and then it is written over.
-/

namespace RubySchema

/-- What a run writes, where, and whether over files that users may have edited. -/
structure Regeneration where
  directory : Path
  overwrite : Bool
  files : List GeneratedFile
  deriving DecidableEq, Repr, Inhabited

namespace Regeneration

/-- The path of a file: an absolute one is not in the directory of the run. -/
def path (run : Regeneration) (file : GeneratedFile) : Path :=
  if (Path.ofText file.path).isAbsolute then Path.ofText file.path
  else run.directory ++ Path.ofText file.path

def place (run : Regeneration) (file : GeneratedFile) : Path :=
  (run.path file).foldl Path.step []

def outcome (run : Regeneration) (tree : FileTree) : Output × Option Error :=
  (Output.start tree).writeFiles run.directory run.overwrite run.files

def after (tree : FileTree) (run : Regeneration) : FileTree :=
  (run.outcome tree).1.tree

def afterAll (tree : FileTree) (runs : List Regeneration) : FileTree :=
  runs.foldl after tree

/-- A file stays as it is: users may edit it, it is not to be overwritten, and something stands at
its place.
-/
def keeps (run : Regeneration) (tree : FileTree) (file : GeneratedFile) : Bool :=
  file.isEditable && !run.overwrite && tree.has (run.path file)

/-- A run leads to a place at most along a straight path, with a file that users may edit and that
is not to be overwritten.
-/
def Spares (run : Regeneration) (place : Path) : Prop :=
  ∀ file ∈ run.files, run.place file = place →
    (run.path file).IsStraight ∧ file.isEditable = true ∧ run.overwrite = false

/-- Paths that are straight, none of which is another or above another. -/
structure IsApart (run : Regeneration) : Prop where
  straight : ∀ file ∈ run.files, (run.path file).IsStraight
  apart
    : run.files.Pairwise fun first second =>
        ¬run.path first <+: run.path second ∧ ¬run.path second <+: run.path first

/-- A run has written the files that it does not keep, in order, and nothing else. -/
structure IsExact (run : Regeneration) (tree : FileTree) (output : Output) : Prop where
  written
    : output.written
      = (run.files.filter (!run.keeps tree ·)).map GeneratedFile.path
  skipped : output.skipped = (run.files.filter (run.keeps tree)).map GeneratedFile.path
  contents
    : ∀ file ∈ run.files, run.keeps tree file = false →
        output.tree.read? (run.path file) = some file.content
  others
    : ∀ place, (∀ file ∈ run.files, run.keeps tree file = false → run.path file ≠ place) →
        output.tree.read? place = tree.read? place

/-- Nothing stops at the path of a file, and if it is not kept then its text can be written there:
the path is not too deep, no file is in the way, and there is no directory at its place.
-/
structure CanWrite (run : Regeneration) (tree : FileTree) (file : GeneratedFile) : Prop where
  filled : run.path file ≠ []
  passes : ∀ front, front <+: run.path file → front ≠ [] → Path.stop? front = none
  encodes : run.keeps tree file = false → Text.unencodable? Text.isHalf file.content = none
  short : run.keeps tree file = false → (run.path file).length ≤ Path.maxMissing + 1
  free
    : run.keeps tree file = false →
        ∀ front, front <+: run.path file → front ≠ run.path file → tree.isFile front = false
  noDirectory : run.keeps tree file = false → tree.isDirectory (run.path file) = false

/-- Whether a text can be written at a path can be found out from the beginnings of the path. -/
instance (run : Regeneration) (tree : FileTree) : DecidablePred (run.CanWrite tree) := fun file =>
  decidable_of_iff
    (run.path file ≠ []
      ∧ (∀ front ∈ (run.path file).inits, front ≠ [] → Path.stop? front = none)
      ∧ (run.keeps tree file = false → Text.unencodable? Text.isHalf file.content = none)
      ∧ (run.keeps tree file = false → (run.path file).length ≤ Path.maxMissing + 1)
      ∧ (run.keeps tree file = false →
          ∀ front ∈ (run.path file).inits, front ≠ run.path file → tree.isFile front = false)
      ∧ (run.keeps tree file = false → tree.isDirectory (run.path file) = false))
    (by
      simp only [List.mem_inits]
      exact ⟨fun ⟨filled, passes, encodes, short, free, noDirectory⟩ =>
          ⟨filled, passes, encodes, short, free, noDirectory⟩,
        fun ⟨filled, passes, encodes, short, free, noDirectory⟩ =>
          ⟨filled, passes, encodes, short, free, noDirectory⟩⟩)

-----------------------------------------------------------------------------------------
-- One file
-----------------------------------------------------------------------------------------

section
variable {run : Regeneration} {output next : Output} {file : GeneratedFile} {place : Path}
  {text : String} {tree after : FileTree}

def writeFile (run : Regeneration) (output : Output) (file : GeneratedFile)
    : Output × Option Error :=
  output.writeFile run.directory run.overwrite file

theorem writeFile_of_kept
    (kept : Output.isKept run.overwrite output.tree (run.path file) file = true)
    : run.writeFile output file
      = ({ output with skipped := output.skipped ++ [file.path] }, none) :=
  if_pos kept

theorem writeFile_of_not_kept
    (changed : Output.isKept run.overwrite output.tree (run.path file) file = false)
    : run.writeFile output file
      = match output.tree.write (run.path file)
            (if (Text.unencodable? Text.isHalf file.content).isSome then "" else file.content) with
        | (tree, some cause) => ({ output with tree }, some cause)
        | (tree, none) =>
            if (Text.unencodable? Text.isHalf file.content).isSome then
              ({ output with tree }, Text.unencodable? Text.isHalf file.content)
            else ({ output with tree, written := output.written ++ [file.path] }, none) :=
  if_neg (Bool.eq_false_iff.mp changed)

/-- What stands at the end of a straight path is kept if it may be and nothing stops on the way. -/
theorem isKept_of_keeps (straight : (run.path file).IsStraight) (filled : run.path file ≠ [])
    (passed : ∀ front, front <+: run.path file → front ≠ [] → Path.stop? front = none)
    (keeps : run.keeps output.tree file = true)
    : Output.isKept run.overwrite output.tree (run.path file) file = true := by
  obtain ⟨spared, has⟩ := Bool.and_eq_true_iff.mp keeps
  exact Bool.and_eq_true_iff.mpr ⟨spared, FileTree.reaches_of_has straight passed filled has⟩

/-- What is kept at the end of a straight path stands there. -/
theorem keeps_of_isKept (straight : (run.path file).IsStraight)
    (kept : Output.isKept run.overwrite output.tree (run.path file) file = true)
    : run.keeps output.tree file = true := by
  obtain ⟨spared, reached⟩ := Bool.and_eq_true_iff.mp kept
  exact Bool.and_eq_true_iff.mpr ⟨spared, FileTree.has_of_reaches straight reached⟩

/-- A file that stays as it is, or one that has been written. -/
inductive Handles (run : Regeneration) (output : Output) (file : GeneratedFile)
    : Output → Prop where
  | kept (keeps : run.keeps output.tree file = true)
      : run.Handles output file { output with skipped := output.skipped ++ [file.path] }
  | written {after : FileTree} (changes : run.keeps output.tree file = false)
      (wrote : output.tree.Wrote after (run.path file) file.content)
      : run.Handles output file
          { output with tree := after, written := output.written ++ [file.path] }

/-- On a straight path a file that does not stop the run is kept or written. -/
theorem handles_of_writeFile (straight : (run.path file).IsStraight)
    (done : run.writeFile output file = (next, none)) : run.Handles output file next := by
  cases kept : Output.isKept run.overwrite output.tree (run.path file) file with
  | true =>
      rw [writeFile_of_kept kept] at done
      cases done
      exact .kept (keeps_of_isKept straight kept)
  | false =>
      rw [writeFile_of_not_kept kept] at done
      split at done
      · cases done
      case h_2 after written =>
        split at done
        case isTrue bad =>
          rw [(Prod.mk.inj done).2] at bad
          cases bad
        case isFalse good =>
          rw [if_neg good] at written
          cases done
          have wrote := FileTree.wrote_of_write straight written
          refine .written (Bool.eq_false_iff.mpr fun keeps => ?_) wrote
          rw [isKept_of_keeps straight wrote.filled wrote.passed keeps] at kept
          cases kept

/-- A file whose text can be written does not stop the run. -/
theorem exists_writeFile (straight : (run.path file).IsStraight)
    (can : run.CanWrite output.tree file) : ∃ next, run.writeFile output file = (next, none) := by
  cases keeps : run.keeps output.tree file with
  | true =>
      have kept := isKept_of_keeps straight can.filled can.passes keeps
      exact ⟨_, writeFile_of_kept kept⟩
  | false =>
      have changed : Output.isKept run.overwrite output.tree (run.path file) file = false := by
        refine Bool.eq_false_iff.mpr fun kept => ?_
        rw [keeps_of_isKept straight kept] at keeps
        cases keeps
      obtain ⟨after, written⟩ := FileTree.exists_wrote straight can.filled can.passes
        (can.short keeps) (can.free keeps) (can.noDirectory keeps) file.content
      rw [writeFile_of_not_kept changed, can.encodes keeps]
      dsimp only [Option.isSome_none]
      rw [if_neg Bool.false_ne_true, written]
      exact ⟨_, rfl⟩

/-- A run leaves a file as it is that it does not lead to, or leads to at most to keep it. -/
theorem read?_writeFile (held : output.tree.read? place = some text)
    (spared
      : run.place file = place →
          (run.path file).IsStraight ∧ file.isEditable = true ∧ run.overwrite = false)
    : (run.writeFile output file).1.tree.read? place = some text := by
  cases kept : Output.isKept run.overwrite output.tree (run.path file) file with
  | true =>
      rw [writeFile_of_kept kept]
      exact held
  | false =>
      have same (content : String)
          : (output.tree.write (run.path file) content).1.read? place = some text := by
        by_cases here : run.place file = place
        · obtain ⟨straight, editable, spare⟩ := spared here
          obtain rfl : run.path file = place := straight.symm.trans here
          cases written : output.tree.write (run.path file) content with
          | mk after failure =>
              cases failure with
              | some cause =>
                  show after.read? _ = _
                  rw [FileTree.read?, FileTree.files_of_write written]
                  exact held
              | none =>
                  -- nothing has stopped on the way, so the file would have been found and kept
                  have wrote := FileTree.wrote_of_write straight written
                  have has : output.tree.has (run.path file) = true :=
                    Bool.or_eq_true_iff.mpr (.inl (by rw [FileTree.isFile, held]; rfl))
                  have keeps : run.keeps output.tree file = true := by
                    rw [Regeneration.keeps, editable, spare, has]
                    rfl
                  rw [isKept_of_keeps straight wrote.filled wrote.passed keeps] at kept
                  cases kept
        · rw [FileTree.read?_write_of_ne (Ne.symm here)]
          exact held
      rw [writeFile_of_not_kept kept]
      have reached := same
        (if (Text.unencodable? Text.isHalf file.content).isSome then "" else file.content)
      split
      case h_1 after cause written =>
        rw [written] at reached
        exact reached
      case h_2 after written =>
        rw [written] at reached
        split
        · exact reached
        · exact reached

end

-----------------------------------------------------------------------------------------
-- One run
-----------------------------------------------------------------------------------------

section
variable {run : Regeneration} {output next : Output} {files : List GeneratedFile}

def writeFiles (run : Regeneration) (output : Output) (files : List GeneratedFile)
    : Output × Option Error :=
  output.writeFiles run.directory run.overwrite files

theorem writeFiles_cons (run : Regeneration) (output : Output) (file : GeneratedFile)
    (rest : List GeneratedFile)
    : run.writeFiles output (file :: rest)
      = match run.writeFile output file with
        | (next, none) => run.writeFiles next rest
        | (next, some cause) => (next, some cause) :=
  rfl

/-- A run leaves a file as it is that it spares, by induction on the files of the run. -/
theorem read?_writeFiles (output : Output) {place : Path} {text : String}
    (held : output.tree.read? place = some text)
    (spared
      : ∀ file ∈ files, run.place file = place →
          (run.path file).IsStraight ∧ file.isEditable = true ∧ run.overwrite = false)
    : (run.writeFiles output files).1.tree.read? place = some text := by
  induction files generalizing output with
  | nil => exact held
  | cons file rest ih =>
      obtain ⟨here, later⟩ := List.forall_mem_cons.mp spared
      have kept := read?_writeFile held here
      rw [writeFiles_cons]
      split
      case h_1 next written =>
        rw [written] at kept
        exact ih _ kept later
      case h_2 next cause written =>
        rw [written] at kept
        exact kept

/-- After a file has been written there stands at a place what stood there, the file, or a directory
above it.
-/
theorem has_of_wrote {before after : FileTree} {path : Path} {text : String}
    (wrote : before.Wrote after path text) (other : Path)
    : after.has other = true ↔ before.has other = true ∨ other <+: path := by
  rw [FileTree.has, FileTree.has, Bool.or_eq_true, Bool.or_eq_true, wrote.files, wrote.directories]
  constructor
  · rintro ((file | rfl) | directory | ⟨above, -⟩)
    · exact .inl (.inl file)
    · exact .inr (List.prefix_refl other)
    · exact .inl (.inr directory)
    · exact .inr above
  · rintro ((file | directory) | above)
    · exact .inl (.inl file)
    · exact .inr (.inl directory)
    · by_cases same : other = path
      · exact .inl (.inr same)
      · exact .inr (.inr ⟨above, same⟩)

/-- A file that has been written does not decide whether another file is kept, which is neither
above nor below it.
-/
theorem keeps_of_wrote {before after : FileTree} {path : Path} {text : String}
    (wrote : before.Wrote after path text) {file : GeneratedFile}
    (apart : ¬run.path file <+: path) : run.keeps after file = run.keeps before file := by
  have same : after.has (run.path file) = before.has (run.path file) := by
    rw [Bool.eq_iff_iff, has_of_wrote wrote, or_iff_left apart]
  rw [keeps, keeps, same]

/-- Files on straight paths apart from each other, none of which stops the run: the run writes those
that it does not keep. By induction on the files; one that has been written changes neither what is
kept later nor what has been written before.
-/
theorem exact_of_writeFiles (straight : ∀ file ∈ files, (run.path file).IsStraight)
    (apart
      : files.Pairwise fun first second =>
          ¬run.path first <+: run.path second ∧ ¬run.path second <+: run.path first)
    (done : run.writeFiles output files = (next, none))
    : next.written
          = output.written
            ++ (files.filter (!run.keeps output.tree ·)).map GeneratedFile.path
      ∧ next.skipped
          = output.skipped
            ++ (files.filter (run.keeps output.tree)).map GeneratedFile.path
      ∧ (∀ file ∈ files, run.keeps output.tree file = false →
          next.tree.read? (run.path file) = some file.content)
      ∧ ∀ place, (∀ file ∈ files, run.keeps output.tree file = false → run.path file ≠ place) →
          next.tree.read? place = output.tree.read? place := by
  induction files generalizing output with
  | nil =>
      cases done
      exact ⟨(List.append_nil _).symm, (List.append_nil _).symm, fun _ member => (nomatch member),
        fun _ _ => rfl⟩
  | cons file rest ih =>
      obtain ⟨here, later⟩ := List.forall_mem_cons.mp straight
      obtain ⟨others, apart⟩ := List.pairwise_cons.mp apart
      rw [writeFiles_cons] at done
      split at done
      case h_2 => cases done
      case h_1 middle handled =>
      cases handles_of_writeFile here handled with
      | kept keeps =>
          obtain ⟨written, skipped, contents, unchanged⟩ := ih later apart done
          refine ⟨?_, ?_, ?_, ?_⟩
          · rw [List.filter_cons_of_neg (by simp [keeps])]
            exact written
          · rw [List.filter_cons_of_pos keeps, List.map_cons, skipped, List.append_assoc,
              List.singleton_append]
          · intro other member changes
            rcases List.mem_cons.mp member with rfl | member
            · rw [keeps] at changes
              cases changes
            · exact contents other member changes
          · exact fun place free => unchanged place
              fun other member => free other (List.mem_cons_of_mem file member)
      | @written after changes wrote =>
          have same : ∀ other ∈ rest, run.keeps after other = run.keeps output.tree other :=
            fun other member => keeps_of_wrote wrote (others other member).2
          obtain ⟨written, skipped, contents, unchanged⟩ := ih later apart done
          rw [List.filter_congr fun other member => congrArg (!·) (same other member)] at written
          rw [List.filter_congr same] at skipped
          refine ⟨?_, ?_, ?_, ?_⟩
          · rw [List.filter_cons_of_pos (by simp [changes]), List.map_cons, written,
              List.append_assoc, List.singleton_append]
          · rw [List.filter_cons_of_neg (by simp [changes])]
            exact skipped
          · intro other member changes
            rcases List.mem_cons.mp member with rfl | member
            · rw [unchanged]
              · exact wrote.text
              · intro another among _ meets
                exact (others another among).1 (meets ▸ List.prefix_refl _)
            · exact contents other member ((same other member).trans changes)
          · intro place free
            have elsewhere := free file List.mem_cons_self changes
            rw [unchanged place fun other member kept =>
              free other (List.mem_cons_of_mem file member) ((same other member).symm.trans kept)]
            exact wrote.others place elsewhere.symm

/-- A file that has been written leaves room for another, which is neither above nor below it. -/
theorem CanWrite.of_wrote {before after : FileTree} {path : Path} {text : String}
    {file : GeneratedFile} (can : run.CanWrite before file)
    (wrote : before.Wrote after path text)
    (apart : ¬path <+: run.path file ∧ ¬run.path file <+: path) : run.CanWrite after file := by
  have same : run.keeps after file = run.keeps before file := keeps_of_wrote wrote apart.2
  refine ⟨can.filled, can.passes, same ▸ can.encodes, same ▸ can.short, ?_, ?_⟩
  · intro changes front above different
    rw [Bool.eq_false_iff, Ne, wrote.files, not_or]
    refine ⟨?_, ?_⟩
    · rw [can.free (same ▸ changes) front above different]
      exact Bool.false_ne_true
    · rintro rfl
      exact apart.1 above
  · intro changes
    rw [Bool.eq_false_iff, Ne, wrote.directories, not_or]
    refine ⟨?_, fun ⟨above, _⟩ => apart.2 above⟩
    rw [can.noDirectory (same ▸ changes)]
    exact Bool.false_ne_true

/-- Files that can all be written do not stop the run, by induction on the files. -/
theorem exists_writeFiles (output : Output)
    (straight : ∀ file ∈ files, (run.path file).IsStraight)
    (apart
      : files.Pairwise fun first second =>
          ¬run.path first <+: run.path second ∧ ¬run.path second <+: run.path first)
    (can : ∀ file ∈ files, run.CanWrite output.tree file)
    : ∃ next, run.writeFiles output files = (next, none) := by
  induction files generalizing output with
  | nil => exact ⟨output, rfl⟩
  | cons file rest ih =>
      obtain ⟨here, later⟩ := List.forall_mem_cons.mp straight
      obtain ⟨others, apart⟩ := List.pairwise_cons.mp apart
      obtain ⟨canHere, canLater⟩ := List.forall_mem_cons.mp can
      obtain ⟨middle, handled⟩ := exists_writeFile here canHere
      rw [writeFiles_cons, handled]
      apply ih _ later apart
      cases handles_of_writeFile here handled with
      | kept => exact canLater
      | written changes wrote =>
          exact fun other member => (canLater other member).of_wrote wrote (others other member)

end

-----------------------------------------------------------------------------------------
-- Any number of runs
-----------------------------------------------------------------------------------------

/-- A file is kept by any number of runs that spare it, by induction on the runs. -/
theorem read?_afterAll {tree : FileTree} {runs : List Regeneration} {place : Path} {text : String}
    (held : tree.read? place = some text) (spared : ∀ run ∈ runs, run.Spares place)
    : (afterAll tree runs).read? place = some text := by
  induction runs generalizing tree with
  | nil => exact held
  | cons run rest ih =>
      obtain ⟨here, later⟩ := List.forall_mem_cons.mp spared
      exact ih (read?_writeFiles (Output.start tree) held here) later

/-- What users have made survives regeneration along straight paths. A file at a place keeps its
text through any number of runs that do not lead there, or lead there only along straight paths with
files that users may edit and that are not to be overwritten, even if a run is stopped. Of a run
whose paths are straight and apart from each other, what is written and what is skipped are the
paths of its files in order, the skipped ones being those that users may edit and where something
stood, if nothing is to be overwritten; every file that is written ends up with its text, and all
other files are unchanged. Such a run is not stopped when each file is kept or can be written.
-/
theorem edits_survive (tree : FileTree)
    : (∀ (runs : List Regeneration) (place : Path) (text : String),
        tree.read? place = some text → (∀ run ∈ runs, run.Spares place) →
          (afterAll tree runs).read? place = some text)
      ∧ ∀ run : Regeneration, run.IsApart →
          (∀ output, run.outcome tree = (output, none) → run.IsExact tree output)
          ∧ ((∀ file ∈ run.files, run.CanWrite tree file) →
              ∃ output, run.outcome tree = (output, none)) := by
  refine ⟨fun _ _ _ => read?_afterAll, fun run apart => ⟨fun output done => ?_, ?_⟩⟩
  · obtain ⟨written, skipped, contents, others⟩ :=
      exact_of_writeFiles apart.straight apart.apart done
    exact ⟨written, skipped, contents, others⟩
  · exact exists_writeFiles (Output.start tree) apart.straight apart.apart

/-- A run that has a definition, a stub and a spec to write, and overwrites nothing of the user. -/
def careful : Regeneration :=
  {
    directory := ["out"]
    overwrite := false
    files :=
      [
        ⟨"schema/types/query.rb", "class Query\nend\n", false⟩,
        ⟨"types/query.rb", "module Query\nend\n", true⟩,
        ⟨"spec/types/query_spec.rb", "describe 'Query'\n", true⟩
      ]
  }

def filledIn : FileTree :=
  { files := [(["out", "types", "query.rb"], "# filled in\n")] }

/-- Three careful runs keep the stub that has been filled in, and the first one writes the rest. -/
theorem edits_survive_careful
    : (afterAll filledIn [careful, careful, careful]).read? ["out", "types", "query.rb"]
          = some "# filled in\n"
      ∧ ∃ output,
          careful.outcome filledIn = (output, none)
          ∧ output.written = ["schema/types/query.rb", "spec/types/query_spec.rb"]
          ∧ output.skipped = ["types/query.rb"]
          ∧ output.tree.read? ["out", "spec", "types", "query_spec.rb"]
            = some "describe 'Query'\n" := by
  have spared : ∀ run ∈ [careful, careful, careful], run.Spares ["out", "types", "query.rb"] := by
    unfold Spares
    decide +kernel
  have apart : careful.IsApart := ⟨by decide +kernel, by decide +kernel⟩
  have can : ∀ file ∈ careful.files, careful.CanWrite filledIn file := by
    decide +kernel
  obtain ⟨survives, single⟩ := edits_survive filledIn
  obtain ⟨isExact, succeeds⟩ := single careful apart
  obtain ⟨output, done⟩ := succeeds can
  obtain ⟨written, skipped, contents, -⟩ := isExact output done
  refine ⟨survives _ _ _ (by decide +kernel) spared, output, done, ?_, ?_, ?_⟩
  · rw [written]
    decide +kernel
  · rw [skipped]
    decide +kernel
  · exact contents ⟨"spec/types/query_spec.rb", "describe 'Query'\n", true⟩ (by decide)
      (by decide +kernel)

/-- A run whose only path leads through a directory that is not there yet, and back out of it. -/
def roundabout : Regeneration :=
  {
    directory := ["out"]
    overwrite := false
    files := [⟨"new/../spec/types/query_spec.rb", "describe 'Query'\n", true⟩]
  }

/-- A file that users may edit is not found, and so is lost, behind a step up from a directory that
is made only for writing.
-/
theorem loses_edit_behind_missing_directory
    : ¬∀ (tree : FileTree) (runs : List Regeneration) (place : Path) (text : String),
        tree.read? place = some text
        → (∀ run ∈ runs, ∀ file ∈ run.files, run.place file = place →
            file.isEditable = true ∧ run.overwrite = false)
        → (afterAll tree runs).read? place = some text := by
  intro survives
  let place : Path := ["out", "spec", "types", "query_spec.rb"]
  have kept := survives { files := [(place, "# filled in\n")] } [roundabout] place "# filled in\n"
    (by decide +kernel) (by decide +kernel)
  revert kept
  decide +kernel

end Regeneration

end RubySchema
