import Mathlib.Data.List.Induction
import RubySchema.Proofs.Files
import RubySchema.Proofs.Outcome

/-!
A file that is written stands at its place with its text, above it there are directories, and all
else is as before; and what is written over could have been found. A straight path names its own
place, and a tree is told by its files and its directories.
-/

namespace RubySchema

-----------------------------------------------------------------------------------------
-- Straight paths
-----------------------------------------------------------------------------------------

namespace Path

/-- A path that is its own place: no step up stands behind a name or a root. -/
def IsStraight (path : Path) : Prop :=
  path.foldl step [] = path

instance (path : Path) : Decidable path.IsStraight :=
  inferInstanceAs (Decidable (_ = _))

variable {path front rest : Path} {name : String}

theorem length_step_le (base : Path) (component : String)
    : (step base component).length ≤ base.length + 1 := by
  unfold step
  split
  · split
    · exact Nat.le_add_left 1 base.length
    · simp
    · split
      · exact Nat.le_succ base.length
      · rw [List.length_dropLast]
        omega
  · simp

theorem length_foldl_step_le (path base : Path)
    : (path.foldl step base).length ≤ base.length + path.length := by
  induction path generalizing base with
  | nil => exact Nat.le_refl base.length
  | cons component more ih =>
      have first := length_step_le base component
      have later := ih (step base component)
      rw [List.foldl_cons, List.length_cons]
      omega

/-- What stands in front of the last component of a straight path is straight, and the component is
a step further down: any other step makes the path shorter.
-/
theorem IsStraight.of_concat (straight : IsStraight (front ++ [name]))
    : IsStraight front ∧ step front name = front ++ [name] := by
  have short : (front.foldl step []).length ≤ front.length := by
    have bound := length_foldl_step_le front []
    simpa using bound
  have last : step (front.foldl step []) name = front ++ [name] := by
    rw [IsStraight, List.foldl_append] at straight
    exact straight
  have same : front.foldl step [] = front := by
    generalize front.foldl step [] = place at short last
    have long := congrArg List.length last
    rw [List.length_append, List.length_singleton] at long
    unfold step at last long
    split at last
    case isTrue up =>
      rw [if_pos up] at long
      split at last
      case h_1 empty =>
        rw [empty] at long
        have none : front.length = 0 := by simpa using long.symm
        rw [List.getLast?_eq_none_iff.mp empty, List.length_eq_zero_iff.mp none]
      case h_2 => exact List.append_inj_left' last rfl
      case h_3 final _ found =>
        -- the step leads up, or stays at the root, so it cannot have made the path longer
        split at last
        · rw [last, List.length_append, List.length_singleton] at short
          omega
        · have dropped := congrArg List.length last
          rw [List.length_dropLast, List.length_append, List.length_singleton] at dropped
          omega
    case isFalse => exact List.append_cancel_right last
  rw [same] at last
  exact ⟨same, last⟩

/-- The beginning of a straight path is straight, by induction on what is left out at the end. -/
theorem IsStraight.of_append (straight : IsStraight (front ++ rest)) : IsStraight front := by
  induction rest using List.reverseRecOn with
  | nil => rwa [List.append_nil] at straight
  | append_singleton more name ih =>
      rw [← List.append_assoc] at straight
      exact ih straight.of_concat.1

/-- A straight path goes down at each component. -/
theorem IsStraight.step_eq (straight : IsStraight (front ++ name :: rest))
    : step front name = front ++ [name] := by
  have here : IsStraight (front ++ [name]) := by
    rw [← List.singleton_append, ← List.append_assoc] at straight
    exact straight.of_append
  exact here.of_concat.2

end Path

namespace FileTree

-----------------------------------------------------------------------------------------
-- Files and directories
-----------------------------------------------------------------------------------------

variable {tree made after : FileTree} {path front rest place other : Path} {text : String}

theorem isFile_iff : tree.isFile path = true ↔ path ∈ tree.files.map Prod.fst := by
  rw [isFile, read?, Option.isSome_map, List.find?_isSome, List.mem_map]
  simp

/-- A directory is above all names, or is the root, or was made, or has something below. -/
theorem isDirectory_iff
    : tree.isDirectory path = true
      ↔ (∀ name ∈ path, name = "..")
        ∨ path = ["/"]
        ∨ (∃ directory ∈ tree.directories, path <+: directory)
        ∨ ∃ file, tree.isFile file = true ∧ path <+: file ∧ path ≠ file := by
  have below
      : (∃ file, tree.isFile file = true ∧ path <+: file ∧ path ≠ file)
        ↔ ∃ file ∈ tree.files, path <+: file.1 ∧ path ≠ file.1 := by
    simp only [isFile_iff, List.mem_map]
    constructor
    · rintro ⟨_, ⟨file, member, rfl⟩, here⟩
      exact ⟨file, member, here⟩
    · rintro ⟨file, member, here⟩
      exact ⟨file.1, ⟨file, member, rfl⟩, here⟩
  rw [below, isDirectory]
  simp [or_assoc]

/-- What stands above a directory is one. -/
theorem isDirectory_of_prefix (above : front <+: path) (directory : tree.isDirectory path = true)
    : tree.isDirectory front = true := by
  rw [isDirectory_iff] at directory ⊢
  rcases directory with ups | rfl | ⟨made, member, below⟩ | ⟨file, isFile, below, different⟩
  · exact .inl fun name member => ups name (above.subset member)
  · rcases List.prefix_cons_iff.mp above with rfl | ⟨more, rfl, empty⟩
    · exact .inl fun name member => nomatch member
    · exact .inr (.inl (congrArg ("/" :: ·) (List.prefix_nil.mp empty)))
  · exact .inr (.inr (.inl ⟨made, member, above.trans below⟩))
  · refine .inr (.inr (.inr ⟨file, isFile, above.trans below, ?_⟩))
    rintro rfl
    exact different (below.eq_of_length_le above.length_le)

/-- What stands above something is a directory. -/
theorem isDirectory_of_has (above : front <+: path) (different : front ≠ path)
    (has : tree.has path = true) : tree.isDirectory front = true := by
  rcases Bool.or_eq_true_iff.mp has with file | directory
  · exact isDirectory_iff.mpr (.inr (.inr (.inr ⟨path, file, above, different⟩)))
  · exact isDirectory_of_prefix above directory

theorem mem_putFile (place other : Path) (text : String) (files : List (Path × String))
    : other ∈ (putFile place text files).map Prod.fst
      ↔ other ∈ files.map Prod.fst ∨ other = place := by
  induction files with
  | nil => simp [putFile]
  | cons file rest ih =>
      rw [putFile]
      split
      case isTrue same =>
        rw [List.map_cons, List.map_cons, List.mem_cons, List.mem_cons, ← same]
        tauto
      case isFalse =>
        rw [List.map_cons, List.map_cons, List.mem_cons, List.mem_cons, ih, or_assoc]

theorem isFile_put
    : (tree.put place text).isFile other = true ↔ tree.isFile other = true ∨ other = place := by
  rw [isFile_iff, isFile_iff]
  exact mem_putFile place other text tree.files

theorem isDirectory_put
    : (tree.put place text).isDirectory other = true
      ↔ tree.isDirectory other = true ∨ (other <+: place ∧ other ≠ place) := by
  rw [isDirectory_iff, isDirectory_iff]
  simp only [isFile_put]
  constructor
  · rintro (ups | root | made | ⟨file, isFile | rfl, below, different⟩)
    · exact .inl (.inl ups)
    · exact .inl (.inr (.inl root))
    · exact .inl (.inr (.inr (.inl made)))
    · exact .inl (.inr (.inr (.inr ⟨file, isFile, below, different⟩)))
    · exact .inr ⟨below, different⟩
  · rintro ((ups | root | made | ⟨file, isFile, below, different⟩) | ⟨below, different⟩)
    · exact .inl ups
    · exact .inr (.inl root)
    · exact .inr (.inr (.inl made))
    · exact .inr (.inr (.inr ⟨file, .inl isFile, below, different⟩))
    · exact .inr (.inr (.inr ⟨place, .inr rfl, below, different⟩))

theorem read?_put (tree : FileTree) (place : Path) (text : String)
    : (tree.put place text).read? place = some text := by
  rw [read?, put]
  induction tree.files with
  | nil => simp [putFile]
  | cons file rest ih =>
      rw [putFile]
      split
      · simp
      case isFalse other =>
        rw [List.find?_cons_of_neg (by simpa using other)]
        exact ih

/-- A file that is made in a directory changes neither what other files hold nor where they are. -/
theorem isFile_of_files (same : made.files = tree.files) (path : Path)
    : made.isFile path = tree.isFile path := by
  rw [isFile, isFile, read?, read?, same]

-----------------------------------------------------------------------------------------
-- Making directories
-----------------------------------------------------------------------------------------

theorem isDirectory_append
    : ({ tree with directories := tree.directories ++ [place] } : FileTree).isDirectory other = true
      ↔ tree.isDirectory other = true ∨ other <+: place := by
  have file (path : Path)
      : ({ tree with directories := tree.directories ++ [place] } : FileTree).isFile path
        = tree.isFile path :=
    isFile_of_files rfl path
  rw [isDirectory_iff, isDirectory_iff]
  simp only [file, List.mem_append, List.mem_singleton]
  constructor
  · rintro (ups | root | ⟨directory, member | rfl, below⟩ | beneath)
    · exact .inl (.inl ups)
    · exact .inl (.inr (.inl root))
    · exact .inl (.inr (.inr (.inl ⟨directory, member, below⟩)))
    · exact .inr below
    · exact .inl (.inr (.inr (.inr beneath)))
  · rintro ((ups | root | ⟨directory, member, below⟩ | beneath) | below)
    · exact .inl ups
    · exact .inr (.inl root)
    · exact .inr (.inr (.inl ⟨directory, .inl member, below⟩))
    · exact .inr (.inr (.inr beneath))
    · exact .inr (.inr (.inl ⟨place, .inr rfl, below⟩))

/-- One more component of a straight path: its end is looked at, and made if nothing is there. -/
theorem makeDirectories_cons {name : String} {more : Path}
    (straight : (front ++ name :: more).IsStraight)
    : tree.makeDirectories front front (name :: more)
      = match Path.stop? (front ++ [name]) with
        | some cause => (tree, .error cause)
        | none =>
            if tree.isDirectory (front ++ [name]) then
              tree.makeDirectories (front ++ [name]) (front ++ [name]) more
            else if tree.isFile (front ++ [name]) then (tree, .error .fileSystem)
            else
              { tree with directories := tree.directories ++ [front ++ [name]] }.makeDirectories
                (front ++ [name]) (front ++ [name]) more := by
  cases stopped : Path.stop? (front ++ [name]) with
  | none => simp only [makeDirectories, stopped, straight.step_eq]
  | some cause => simp only [makeDirectories, stopped]

/-- Directories on a straight path that have been made: the path leads to its own end, nothing stops
on the way, and all that is above the end is a directory. By induction on the path.
-/
theorem makeDirectories_eq_ok (front : Path) (straight : (front ++ rest).IsStraight)
    (there : tree.isDirectory front = true)
    (done : tree.makeDirectories front front rest = (made, .ok place))
    : place = front ++ rest
      ∧ (∀ part, part <+: rest → part ≠ [] → Path.stop? (front ++ part) = none)
      ∧ ∀ other,
          made.isDirectory other = true
          ↔ tree.isDirectory other = true ∨ other <+: front ++ rest := by
  induction rest generalizing tree front with
  | nil =>
      cases done
      refine ⟨(List.append_nil _).symm, ?_, fun other => ⟨.inl, ?_⟩⟩
      · exact fun part above filled => absurd (List.prefix_nil.mp above) filled
      · rintro (directory | above)
        · exact directory
        · exact isDirectory_of_prefix (List.append_nil place ▸ above) there
  | cons name more ih =>
      have parted : front ++ name :: more = front ++ [name] ++ more := by simp
      rw [makeDirectories_cons straight] at done
      rw [parted] at straight ⊢
      split at done
      · cases done
      case h_2 passed =>
      have finish {next : FileTree}
          (same
            : ∀ other,
                next.isDirectory other = true
                ↔ tree.isDirectory other = true ∨ other <+: front ++ [name])
          (done
            : next.makeDirectories (front ++ [name]) (front ++ [name]) more = (made, .ok place))
          : place = front ++ [name] ++ more
            ∧ (∀ part,
                part <+: name :: more → part ≠ [] → Path.stop? (front ++ part) = none)
            ∧ ∀ other,
                made.isDirectory other = true
                ↔ tree.isDirectory other = true ∨ other <+: front ++ [name] ++ more := by
        obtain ⟨ends, later, directories⟩ :=
          ih _ straight ((same _).mpr (.inr (List.prefix_refl _))) done
        refine ⟨ends, ?_, fun other => ?_⟩
        · intro part above filled
          rcases List.prefix_cons_iff.mp above with rfl | ⟨rest, rfl, below⟩
          · exact absurd rfl filled
          · cases rest with
            | nil => exact passed
            | cons next others =>
                have found := later (next :: others) below (List.cons_ne_nil _ _)
                rwa [List.append_assoc] at found
        · rw [directories, same, or_assoc]
          refine or_congr_right ⟨?_, .inr⟩
          rintro (above | above)
          · exact above.trans (List.prefix_append _ _)
          · exact above
      split at done
      case isTrue known =>
        refine finish (fun other => ⟨.inl, ?_⟩) done
        rintro (directory | above)
        · exact directory
        · exact isDirectory_of_prefix above known
      case isFalse =>
        split at done
        · cases done
        · exact finish (fun _ => isDirectory_append) done

/-- Directories on a straight path can be made where nothing stops and no file is in the way, by
induction on the path.
-/
theorem succeeds_makeDirectories (front : Path) (straight : (front ++ rest).IsStraight)
    (passes : ∀ part, part <+: rest → part ≠ [] → Path.stop? (front ++ part) = none)
    (free : ∀ part, part <+: rest → part ≠ [] → tree.isFile (front ++ part) = false)
    : ∃ made, tree.makeDirectories front front rest = (made, .ok (front ++ rest)) := by
  induction rest generalizing tree front with
  | nil => exact ⟨tree, by rw [makeDirectories, List.append_nil]⟩
  | cons name more ih =>
      have parted : front ++ name :: more = front ++ [name] ++ more := by simp
      have here : [name] <+: name :: more := List.prefix_append [name] more
      have beyond {part : Path} (above : part <+: more) : name :: part <+: name :: more :=
        List.cons_prefix_cons.mpr ⟨rfl, above⟩
      have later {next : FileTree} (same : next.files = tree.files)
          : ∃ made,
              next.makeDirectories (front ++ [name]) (front ++ [name]) more
              = (made, .ok (front ++ name :: more)) := by
        rw [parted]
        refine ih _ (parted ▸ straight) ?_ ?_
        · intro part above _
          have found := passes _ (beyond above) (List.cons_ne_nil _ _)
          rwa [← List.append_cons]
        · intro part above _
          have found := free _ (beyond above) (List.cons_ne_nil _ _)
          rwa [← List.append_cons, isFile_of_files same]
      rw [makeDirectories_cons straight, passes _ here (List.cons_ne_nil _ _)]
      dsimp only
      split
      · exact later rfl
      · rw [if_neg (by rw [free _ here (List.cons_ne_nil _ _)]; exact Bool.false_ne_true)]
        exact later rfl

/-- No more components can be missing than there are. -/
theorem missing_le (tree : FileTree) (directory path : Path)
    : tree.missing directory path ≤ path.length := by
  induction path generalizing directory with
  | nil => exact Nat.le_refl 0
  | cons name rest ih =>
      have later := ih (Path.step directory name)
      rw [missing, List.length_cons]
      split
      · omega
      · omega

-----------------------------------------------------------------------------------------
-- Writing a file
-----------------------------------------------------------------------------------------

/-- A file has been written: nothing has stopped on the way, the file is there with its text and
below directories, and all else is as before.
-/
structure Wrote (before after : FileTree) (path : Path) (text : String) : Prop where
  filled : path ≠ []
  passed : ∀ front, front <+: path → front ≠ [] → Path.stop? front = none
  text : after.read? path = some text
  others : ∀ other, other ≠ path → after.read? other = before.read? other
  files : ∀ other, after.isFile other = true ↔ before.isFile other = true ∨ other = path
  directories
    : ∀ other,
        after.isDirectory other = true
        ↔ before.isDirectory other = true ∨ (other <+: path ∧ other ≠ path)

theorem prefix_concat_ne_iff {name : String}
    : (other <+: front ++ [name] ∧ other ≠ front ++ [name]) ↔ other <+: front := by
  rw [List.prefix_concat_iff]
  constructor
  · rintro ⟨same | above, different⟩
    · exact absurd same different
    · exact above
  · intro above
    refine ⟨.inr above, ?_⟩
    rintro rfl
    have long := above.length_le
    rw [List.length_append, List.length_singleton] at long
    omega

/-- A file on a straight path has been written when nothing has stopped it. -/
theorem wrote_of_write (straight : path.IsStraight)
    (done : tree.write path text = (after, none)) : Wrote tree after path text := by
  have files := files_makeDirectories tree [] [] path.dropLast
  unfold write at done
  split at done
  · cases done
  split at done
  · cases done
  case h_2 made directory found =>
  rw [found] at files
  unfold writeIn at done
  split at done
  · cases done
  · cases done
  case h_3 name passed last =>
  obtain ⟨front, rfl⟩ := List.getLast?_eq_some_iff.mp last
  obtain ⟨straightFront, stepped⟩ := straight.of_concat
  rw [List.dropLast_concat] at found
  obtain ⟨rfl, passedFront, directories⟩ := makeDirectories_eq_ok [] straightFront
    (isDirectory_iff.mpr (.inl fun _ member => nomatch member)) found
  dsimp only at done
  rw [stepped] at done
  split at done
  · cases done
  cases done
  have file (path : Path) : made.isFile path = tree.isFile path := isFile_of_files files path
  refine ⟨by simp, ?_, read?_put made _ text, ?_, ?_, ?_⟩
  · intro part above filled
    rcases List.prefix_concat_iff.mp above with rfl | above
    · exact passed
    · exact passedFront part above filled
  · intro other different
    rw [read?_put_of_ne different, read?, read?, files]
  · intro other
    rw [isFile_put, file]
  · intro other
    rw [isDirectory_put, directories, prefix_concat_ne_iff, List.nil_append, or_assoc, or_self]

/-- A file can be written on a straight path that is not too deep, where nothing stops, no file is
in the way and no directory stands at the end.
-/
theorem exists_wrote (straight : path.IsStraight) (filled : path ≠ [])
    (passes : ∀ front, front <+: path → front ≠ [] → Path.stop? front = none)
    (short : path.length ≤ Path.maxMissing + 1)
    (free : ∀ front, front <+: path → front ≠ path → tree.isFile front = false)
    (noDirectory : tree.isDirectory path = false) (text : String)
    : ∃ after, tree.write path text = (after, none) := by
  obtain ⟨front, name, rfl⟩ : ∃ front name, path = front ++ [name] :=
    ⟨path.dropLast, path.getLast filled, (List.dropLast_concat_getLast filled).symm⟩
  obtain ⟨straightFront, stepped⟩ := straight.of_concat
  have within {part : Path} (above : part <+: front)
      : part <+: front ++ [name] ∧ part ≠ front ++ [name] :=
    prefix_concat_ne_iff.mpr above
  obtain ⟨made, found⟩ := succeeds_makeDirectories [] straightFront
    (fun part above filled => passes part (within above).1 filled)
    (fun part above _ => free part (within above).1 (within above).2)
  have top : tree.isDirectory [] = true := isDirectory_iff.mpr (.inl fun _ member => nomatch member)
  obtain ⟨-, -, directories⟩ := makeDirectories_eq_ok [] straightFront top found
  have noneMade : made.isDirectory (front ++ [name]) = false := by
    rw [Bool.eq_false_iff]
    intro directory
    rcases (directories _).mp directory with known | above
    · rw [noDirectory] at known
      cases known
    · exact (within above).2 rfl
  have depth := missing_le tree [] front
  rw [List.length_append, List.length_singleton] at short
  refine ⟨made.put (front ++ [name]) text, ?_⟩
  unfold write
  rw [List.dropLast_concat, if_neg (by omega), found]
  dsimp only
  unfold writeIn
  rw [passes _ (List.prefix_refl _) filled, List.getLast?_concat]
  dsimp only
  rw [List.nil_append, stepped, noneMade, if_neg Bool.false_ne_true]

/-- Where writing is stopped no file has changed. -/
theorem files_of_write {cause : Error} (stopped : tree.write path text = (after, some cause))
    : after.files = tree.files := by
  have files := files_makeDirectories tree [] [] path.dropLast
  unfold write at stopped
  split at stopped
  · cases stopped
    rfl
  split at stopped
  case h_1 found =>
    rw [found] at files
    cases stopped
    exact files
  case h_2 made directory found =>
    rw [found] at files
    unfold writeIn at stopped
    split at stopped
    · cases stopped
      exact files
    · cases stopped
      exact files
    · dsimp only at stopped
      split at stopped
      · cases stopped
        exact files
      · cases stopped

-----------------------------------------------------------------------------------------
-- Finding what stands at a place
-----------------------------------------------------------------------------------------

/-- A path that is followed to its end leads where its steps do, by induction on the path. -/
theorem eq_of_locate {directory : Path} (found : tree.locate directory path = .ok (some place))
    : place = path.foldl Path.step directory := by
  induction path generalizing directory with
  | nil => exact (Option.some.inj (Except.ok.inj found)).symm
  | cons name rest ih =>
      unfold locate at found
      split at found
      · cases found
      split at found
      · cases found
      · exact ih found

/-- What is reached on a straight path stands at its end. -/
theorem has_of_reaches (straight : path.IsStraight) (reached : tree.reaches [] path = true)
    : tree.has path = true := by
  unfold reaches at reached
  split at reached
  case h_1 place found =>
    unfold lookUp at found
    split at found
    · cases found
    split at found
    · cases found
    obtain ⟨other, located, same⟩ := bind_eq_ok.mp found
    obtain ⟨rfl, has⟩ := Option.filter_eq_some_iff.mp (Except.ok.inj same)
    rw [eq_of_locate located, straight] at has
    exact has
  case h_2 => cases reached

/-- A straight path below directories can be followed to its end when no name on it is too long, by
induction on the path.
-/
theorem locate_eq_ok (front : Path) (straight : (front ++ rest).IsStraight)
    (above : ∀ part, part <+: rest → part ≠ rest → tree.isDirectory (front ++ part) = true)
    (short : ∀ name ∈ rest, Path.nameBytes name ≤ Path.maxNameBytes)
    : tree.locate front rest = .ok (some (front ++ rest)) := by
  induction rest generalizing front with
  | nil => rw [locate, List.append_nil]
  | cons name more ih =>
      have parted : front ++ name :: more = front ++ [name] ++ more := by simp
      have here : tree.isDirectory front = true := by
        have found := above [] List.nil_prefix (List.cons_ne_nil _ _).symm
        rwa [List.append_nil] at found
      obtain ⟨named, shorter⟩ := List.forall_mem_cons.mp short
      unfold locate
      rw [here, straight.step_eq, if_neg (by simp), if_neg (by omega)]
      rw [parted] at straight ⊢
      refine ih _ straight ?_ shorter
      intro part below different
      have found := above (name :: part) (List.cons_prefix_cons.mpr ⟨rfl, below⟩)
        fun same => different (List.cons.inj same).2
      rwa [← List.append_cons]

/-- What stands at the end of a straight path can be reached when nothing stops on the way. -/
theorem reaches_of_has (straight : path.IsStraight)
    (passed : ∀ front, front <+: path → front ≠ [] → Path.stop? front = none)
    (filled : path ≠ []) (has : tree.has path = true) : tree.reaches [] path = true := by
  have bounds {front : Path} (above : front <+: path) (filled : front ≠ [])
      : Path.fault? front = none
        ∧ front.bytes ≤ Path.maxBytes
        ∧ Path.nameBytes (front.getLastD "") ≤ Path.maxNameBytes := by
    have none := passed front above filled
    unfold Path.stop? at none
    split at none
    · cases none
    case h_2 faultless =>
      split at none
      · cases none
      case isFalse fits =>
        rw [Bool.or_eq_true, decide_eq_true_iff, decide_eq_true_iff, not_or] at fits
        exact ⟨faultless, Nat.le_of_not_lt fits.1, Nat.le_of_not_lt fits.2⟩
  have short : ∀ name ∈ path, Path.nameBytes name ≤ Path.maxNameBytes := by
    intro name member
    obtain ⟨front, rest, rfl⟩ := List.append_of_mem member
    have above : front ++ [name] <+: front ++ name :: rest := ⟨rest, by simp⟩
    have found := (bounds above (by simp)).2.2
    rwa [List.getLastD_concat] at found
  have located : tree.locate [] path = .ok (some path) :=
    locate_eq_ok [] straight
      (fun part above different => isDirectory_of_has above different has) short
  obtain ⟨faultless, fits, -⟩ := bounds (List.prefix_refl path) filled
  unfold reaches lookUp
  rw [faultless, if_neg (by simp), if_neg (by omega), located, ok_bind, Option.filter_some,
    if_pos has]
  rfl

end FileTree

end RubySchema
