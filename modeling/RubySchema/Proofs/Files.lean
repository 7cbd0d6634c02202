import RubySchema.Files
import RubySchema.Proofs.Splitting
import RubySchema.Text.Affix

/-!
Files below a directory. A text that spells a relative path without a step up leads, from any
directory, to a place beneath that directory, and writing there changes no other file.
-/

namespace RubySchema

open Text

namespace Path

-----------------------------------------------------------------------------------------
-- Paths that stay below where they start
-----------------------------------------------------------------------------------------

/-- A text spells a path that leads up somewhere. -/
def GoesUp (text : String) : Prop :=
  ".." ∈ ofText text

instance (text : String) : Decidable (GoesUp text) :=
  inferInstanceAs (Decidable (_ ∈ _))

/-- A text spells a relative path that leads up nowhere. -/
def IsInner (text : String) : Prop :=
  startsWith text "/" = false ∧ ¬GoesUp text

instance (text : String) : Decidable (IsInner text) :=
  inferInstanceAs (Decidable (_ ∧ _))

structure IsName (name : String) : Prop where
  filled : name ≠ ""
  notHere : name ≠ "."
  notUp : name ≠ ".."
  single : '/' ∉ name.toList

/-- A place that is reached from a directory by going down, one name at least. -/
def IsBeneath (directory place : Path) : Prop :=
  ∃ names, names ≠ [] ∧ (∀ name ∈ names, IsName name) ∧ place = directory ++ names

/-- The names that a text spells, whether its path is absolute or not. -/
def names (text : String) : Path :=
  ((splitOn '/' text.toList).map String.ofList).filter fun part => part != "" && part != "."

variable {text name first rest : String} {path base : Path}

theorem ofText_eq (text : String) : ofText text = (root? text.toList).toList ++ names text :=
  rfl

/-- Only a slash in front makes a path absolute. -/
theorem root?_eq_none (relative : text.toList.head? ≠ some '/') : root? text.toList = none := by
  unfold root?
  split
  case h_1 spelled => exact absurd (by rw [spelled, List.head?_cons]) relative
  case h_2 spelled => exact absurd (by rw [spelled, List.head?_cons]) relative
  case h_3 spelled => exact absurd (by rw [spelled, List.head?_cons]) relative
  case h_4 => rfl

theorem startsWith_slash_eq_false
    : startsWith text "/" = false ↔ text.toList.head? ≠ some '/' := by
  show ['/'].isPrefixOf text.toList = false ↔ _
  cases text.toList with
  | nil => simp
  | cons c more =>
      rw [List.isPrefixOf, List.isPrefixOf, Bool.and_true, beq_eq_false_iff_ne, List.head?_cons,
        Ne, Ne, Option.some_inj, eq_comm]

theorem goesUp_iff : GoesUp text ↔ ".." ∈ names text := by
  have roots : ".." ∉ (root? text.toList).toList := by
    unfold root?
    split <;> decide
  rw [GoesUp, ofText_eq, List.mem_append, or_iff_right roots]

/-- Texts with a slash between them spell the names of either. -/
theorem names_append_slash (first rest : String)
    : names (first ++ "/" ++ rest) = names first ++ names rest := by
  have spelled : (first ++ "/" ++ rest).toList = first.toList ++ '/' :: rest.toList := by
    simp
  rw [names, spelled, splitOn_append, List.map_append, List.filter_append]
  rfl

theorem goesUp_append_slash : GoesUp (first ++ "/" ++ rest) ↔ GoesUp first ∨ GoesUp rest := by
  rw [goesUp_iff, goesUp_iff, goesUp_iff, names_append_slash, List.mem_append]

/-- A text without slashes leads up only when it is the step up. -/
theorem goesUp_of_single (single : '/' ∉ text.toList) : GoesUp text ↔ text = ".." := by
  rw [goesUp_iff, names, splitOn_of_not_mem single, List.map_singleton, String.ofList_toList,
    List.mem_filter, List.mem_singleton]
  constructor
  · exact fun member => member.1.symm
  · rintro rfl
    decide

/-- A text in a directory is inner when the directory has a name and both are. -/
theorem isInner_append_slash
    : IsInner (first ++ "/" ++ rest) ↔ first ≠ "" ∧ IsInner first ∧ ¬GoesUp rest := by
  have relative
      : startsWith (first ++ "/" ++ rest) "/" = false
        ↔ first ≠ "" ∧ startsWith first "/" = false := by
    have filled : first ≠ "" ↔ first.toList ≠ [] := not_congr String.toList_inj.symm
    rw [startsWith_slash_eq_false, startsWith_slash_eq_false, filled, String.toList_append,
      String.toList_append, List.append_assoc]
    cases first.toList <;> simp
  rw [IsInner, IsInner, relative, goesUp_append_slash, not_or, and_assoc, and_assoc]

/-- An inner text spells names and nothing else. -/
theorem IsInner.ofText_eq_names (inner : IsInner text) : ofText text = names text := by
  rw [ofText_eq, root?_eq_none (startsWith_slash_eq_false.mp inner.1)]
  rfl

theorem IsInner.isName (inner : IsInner text) (member : name ∈ ofText text) : IsName name := by
  have notUp : name ≠ ".." := by
    rintro rfl
    exact inner.2 member
  rw [inner.ofText_eq_names] at member
  obtain ⟨among, kept⟩ := List.mem_filter.mp member
  rw [Bool.and_eq_true, bne_iff_ne, bne_iff_ne] at kept
  obtain ⟨part, isPart, rfl⟩ := List.mem_map.mp among
  refine ⟨kept.1, kept.2, notUp, ?_⟩
  rw [String.toList_ofList]
  exact not_mem_of_mem_splitOn isPart

theorem isAbsolute_of_isName (isNames : ∀ name ∈ path, IsName name)
    : isAbsolute path = false := by
  have notRoot (root : String) (slash : '/' ∈ root.toList) : path.head? ≠ some root := by
    intro same
    exact (isNames root (List.mem_of_head? same)).single slash
  unfold isAbsolute
  rw [Bool.or_eq_false_iff, beq_eq_false_iff_ne, beq_eq_false_iff_ne]
  exact ⟨notRoot "/" (by decide), notRoot "//" (by decide)⟩

/-- Names are followed one below the other, by induction on them. -/
theorem foldl_step_of_isName (isNames : ∀ name ∈ path, IsName name)
    : path.foldl step base = base ++ path := by
  induction path generalizing base with
  | nil => exact (List.append_nil base).symm
  | cons name rest ih =>
      obtain ⟨here, later⟩ := List.forall_mem_cons.mp isNames
      have down : step base name = base ++ [name] := by
        rw [step, if_neg (by simp [here.notUp])]
      rw [List.foldl_cons, down, ih later, List.append_assoc, List.singleton_append]

end Path

namespace FileTree

-----------------------------------------------------------------------------------------
-- What writing leaves as it is
-----------------------------------------------------------------------------------------

variable {tree made : FileTree} {place other : Path}

/-- A file that is put changes no other file, by induction on the files. -/
theorem find?_putFile_of_ne (different : other ≠ place) (text : String)
    (files : List (Path × String))
    : (putFile place text files).find? (fun file => file.1 == other)
      = files.find? fun file => file.1 == other := by
  have new : ((place, text).1 == other) = false := beq_eq_false_iff_ne.mpr different.symm
  induction files with
  | nil => rw [putFile, List.find?_cons_of_neg (by simp [new])]
  | cons file rest ih =>
      rw [putFile]
      split
      case isTrue same =>
        have old : (file.1 == other) = false := same ▸ new
        rw [List.find?_cons_of_neg (by simp [new]), List.find?_cons_of_neg (by simp [old])]
      case isFalse => rw [List.find?_cons, List.find?_cons, ih]

theorem read?_put_of_ne (different : other ≠ place) (text : String)
    : (tree.put place text).read? other = tree.read? other := by
  rw [read?, read?, put, find?_putFile_of_ne different]

/-- Making directories changes no file, by induction on the path. -/
theorem files_makeDirectories (tree : FileTree) (walked directory path : Path)
    : (tree.makeDirectories walked directory path).1.files = tree.files := by
  fun_induction makeDirectories tree walked directory path with
  | case1 | case2 | case4 => rfl
  | case3 => assumption
  | case5 tree walked directory name rest path place passed notThere noFile ih => exact ih

/-- Directories that could be made lead where the path does, by induction on the path. -/
theorem eq_of_makeDirectories {walked directory path : Path}
    (done : (tree.makeDirectories walked directory path).2 = .ok place)
    : place = path.foldl Path.step directory := by
  fun_induction makeDirectories tree walked directory path with
  | case1 => exact (Except.ok.inj done).symm
  | case2 | case4 => cases done
  | case3 tree walked directory name rest path place passed there ih => exact ih done
  | case5 tree walked directory name rest path place passed notThere noFile ih => exact ih done

/-- Writing a file changes no file but the one where the path leads. -/
theorem read?_write_of_ne {path : Path} (different : other ≠ path.foldl Path.step [])
    (text : String) : (tree.write path text).1.read? other = tree.read? other := by
  have kept := files_makeDirectories tree [] [] path.dropLast
  have read {made : FileTree} (same : made.files = tree.files)
      : made.read? other = tree.read? other := by
    rw [read?, read?, same]
  unfold write
  split
  · rfl
  split
  case h_1 made cause found =>
    rw [found] at kept
    exact read kept
  case h_2 made directory found =>
    rw [found] at kept
    have lead : directory = path.dropLast.foldl Path.step [] :=
      eq_of_makeDirectories (congrArg Prod.snd found)
    unfold writeIn
    split
    · exact read kept
    · exact read kept
    case h_3 name _ last =>
      dsimp only
      split
      · exact read kept
      · obtain ⟨front, rfl⟩ := List.getLast?_eq_some_iff.mp last
        rw [List.foldl_append, List.foldl_cons, List.foldl_nil] at different
        rw [List.dropLast_concat] at lead
        rw [lead, read?_put_of_ne different, read kept]

end FileTree

end RubySchema
