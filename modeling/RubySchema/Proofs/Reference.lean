import Mathlib.Data.List.Infix
import Mathlib.Data.List.TakeWhile
import RubySchema.Proofs.Files
import RubySchema.Proofs.Outcome
import RubySchema.Reference

/-!
Looking up directives. The file of a directive carries its name, so a directive whose name takes too
many characters cannot be looked up.
-/

namespace RubySchema

open Text

/-- A name of characters that stand for themselves in a path: ASCII characters other than null and
the slash.
-/
def Path.IsPlain (name : String) : Prop :=
  ∀ c ∈ name.toList, c.toNat < 0x80 ∧ c ≠ '\x00' ∧ c ≠ '/'

instance : DecidablePred Path.IsPlain := fun name =>
  decidable_of_iff (name.toList.all fun c => c.toNat < 0x80 && c != '\x00' && c != '/') <| by
    simp [Path.IsPlain, List.all_eq_true, and_assoc]

/-- The characters of joined texts are those of the texts and of the separator, by induction on the
texts.
-/
theorem Text.mem_intercalate {c : Char} {separator : String} {texts : List String}
    (member : c ∈ (separator.intercalate texts).toList)
    : c ∈ separator.toList ∨ ∃ text ∈ texts, c ∈ text.toList := by
  induction texts with
  | nil => cases member
  | cons text rest ih =>
      cases rest with
      | nil => exact .inr ⟨text, List.mem_cons_self, by simpa using member⟩
      | cons second more =>
          rw [String.intercalate_cons_cons, String.toList_append, String.toList_append,
            List.mem_append, List.mem_append] at member
          rcases member with (here | between) | later
          · exact .inr ⟨text, List.mem_cons_self, here⟩
          · exact .inl between
          · rcases ih later with between | ⟨other, among, found⟩
            · exact .inl between
            · exact .inr ⟨other, List.mem_cons_of_mem text among, found⟩

/-- ASCII characters stand for themselves, by induction on the characters. -/
theorem Text.codePoints_of_ascii {chars : List Char} (ascii : ∀ c ∈ chars, c.toNat < 0x80)
    : codePoints chars = chars.map Char.toNat := by
  induction chars with
  | nil => rfl
  | cons c rest ih =>
      have here := ascii c List.mem_cons_self
      have other : c ≠ mark := by
        rintro rfl
        exact absurd here (by decide)
      have unmarked : isMarked c.toNat = false := by
        unfold isMarked
        simp only [Bool.and_eq_false_iff, decide_eq_false_iff_not]
        omega
      rw [codePoints_cons other, unmarkedPoint, unmarked,
        ih fun d member => ascii d (List.mem_cons_of_mem c member)]
      rfl

/-- A text of ASCII characters can be encoded. -/
theorem Text.unencodable?_of_ascii {text : String} (ascii : ∀ c ∈ text.toList, c.toNat < 0x80)
    : unencodable? Path.isForeignHalf text = none := by
  have none_foreign : ∀ point ∈ points text, Path.isForeignHalf point = false := by
    intro point member
    rw [points, codePoints_of_ascii ascii] at member
    obtain ⟨c, among, rfl⟩ := List.mem_map.mp member
    have here := ascii c among
    unfold Path.isForeignHalf isHalf
    simp only [Bool.and_eq_false_iff, decide_eq_false_iff_not]
    omega
  -- all code points stand before the first one that cannot be encoded
  have all : (points text).takeWhile (fun point => !Path.isForeignHalf point) = points text := by
    rw [List.takeWhile_eq_self_iff]
    intro point member
    rw [none_foreign point member]
    rfl
  unfold unencodable?
  dsimp only
  rw [all, List.drop_length]
  rfl

namespace Path

variable {name : String} {path : Path}

/-- An ASCII name has as many bytes as characters, by induction on the characters. -/
theorem nameBytes_of_ascii (ascii : ∀ c ∈ name.toList, c.toNat < 0x80)
    : nameBytes name = name.toList.length := by
  rw [nameBytes, points, codePoints_of_ascii ascii]
  generalize name.toList = chars at ascii
  induction chars with
  | nil => rfl
  | cons c rest ih =>
      have here : pointBytes c.toNat = 1 := by
        simp [pointBytes, ascii c List.mem_cons_self]
      rw [List.map_cons, List.foldr_cons, here, List.length_cons,
        ih fun d member => ascii d (List.mem_cons_of_mem c member), Nat.add_comm]

theorem ofText_of_plain (plain : IsPlain name) (filled : name ≠ "")
    (other : name ≠ ".") : ofText name = [name] := by
  have slashless : '/' ∉ name.toList := fun member => (plain '/' member).2.2 rfl
  have relative : root? name.toList = none :=
    root?_eq_none fun slash => slashless (List.mem_of_head? slash)
  unfold ofText
  rw [relative, splitOn_of_not_mem slashless]
  simp [filled, other]

theorem isAbsolute_of_plain (plain : ∀ name ∈ path, IsPlain name)
    : path.isAbsolute = false := by
  cases path with
  | nil => rfl
  | cons first rest =>
      have other {root : String} (slash : '/' ∈ root.toList) : first ≠ root := by
        rintro rfl
        exact (plain first List.mem_cons_self '/' slash).2.2 rfl
      have single : first ≠ "/" := other (by decide)
      have double : first ≠ "//" := other (by decide)
      simp [isAbsolute, single, double]

/-- The text of a path of plain characters is all ASCII: what joins the names is, too. -/
theorem ascii_of_plain (plain : ∀ name ∈ path, IsPlain name)
    : ∀ c ∈ path.text.toList, c.toNat < 0x80 := by
  intro c member
  unfold text at member
  cases path with
  | nil =>
      obtain rfl : c = '.' := by simpa using member
      decide
  | cons first rest =>
      simp only [isAbsolute_of_plain plain, Bool.false_eq_true, if_false] at member
      rcases Text.mem_intercalate member with slash | ⟨name, among, found⟩
      · obtain rfl := List.mem_singleton.mp slash
        decide
      · exact (plain name among c found).1

theorem fault?_of_plain (plain : ∀ name ∈ path, IsPlain name)
    : fault? path = none := by
  have noNull : path.any (fun name => name.toList.contains '\x00') = false := by
    rw [List.any_eq_false]
    intro name among null
    exact (plain name among '\x00' (List.contains_iff_mem.mp null)).2.1 rfl
  unfold fault?
  rw [unencodable?_of_ascii (ascii_of_plain plain)]
  dsimp only
  rw [noNull]
  rfl

end Path

/-- A name that is too long cannot be looked up at the end of a path that leads through directories,
by induction on the path.
-/
theorem FileTree.locate_of_long (tree : FileTree) {name : String}
    (long : Path.maxNameBytes < Path.nameBytes name) {path directory : Path}
    (there : ∀ walked ∈ path.inits, tree.isDirectory (walked.foldl Path.step directory) = true)
    : tree.locate directory (path ++ [name]) = .error .fileSystem := by
  induction path generalizing directory with
  | nil =>
      have here : tree.isDirectory directory = true := there [] (by simp)
      rw [List.nil_append, locate, here, if_pos long]
      rfl
  | cons first rest ih =>
      have here : tree.isDirectory directory = true := there [] (by simp)
      have later
          : ∀ walked ∈ rest.inits,
              tree.isDirectory (walked.foldl Path.step (Path.step directory first)) = true := by
        intro walked member
        apply there (first :: walked)
        rw [List.mem_inits] at member ⊢
        exact (List.cons_prefix_cons).mpr ⟨rfl, member⟩
      rw [List.cons_append, locate, here]
      show (if Path.maxNameBytes < Path.nameBytes first then Except.error Error.fileSystem
        else tree.locate (Path.step directory first) (rest ++ [name])) = _
      split
      · rfl
      · exact ih later

/-- The file of a directive whose name has plain characters only is looked up in the directory of
directives.
-/
theorem Reference.supportsDirective_of_plain (reference : Reference) {name : String}
    (plain : Path.IsPlain (name ++ "_directive.rb"))
    (longer : 1 < (name ++ "_directive.rb").toList.length)
    : reference.supportsDirective (.string name)
      = (do
        let whole := reference.place ++ directiveDirectory ++ [name ++ "_directive.rb"]
        return (← reference.tree.lookUp [] whole).any reference.tree.isFile) := by
  have path : Path.ofText (name ++ "_directive.rb") = [name ++ "_directive.rb"] := by
    apply Path.ofText_of_plain plain
    · intro same
      rw [same] at longer
      exact absurd longer (by decide)
    · intro same
      rw [same] at longer
      exact absurd longer (by decide)
  have relative : Path.isAbsolute [name ++ "_directive.rb"] = false := by
    apply Path.isAbsolute_of_plain
    intro component member
    rw [List.mem_singleton.mp member]
    exact plain
  unfold supportsDirective
  show ((reference.tree.lookUp [] (if Path.isAbsolute (Path.ofText (name ++ "_directive.rb")) then _
    else reference.place ++ directiveDirectory ++ Path.ofText (name ++ "_directive.rb"))) >>= _) = _
  rw [path, relative]
  rfl

/-- A directive with a name of too many plain characters cannot be looked up when the checkout has
the directory of directives.
-/
theorem Reference.supportsDirective_of_long (reference : Reference) {name : String}
    (plain : Path.IsPlain name)
    (long : Path.maxNameBytes < (name ++ "_directive.rb").toList.length)
    (place : ∀ component ∈ reference.place ++ directiveDirectory, Path.IsPlain component)
    (there
      : ∀ walked ∈ (reference.place ++ directiveDirectory).inits,
          reference.tree.isDirectory (walked.foldl Path.step []) = true)
    : reference.supportsDirective (.string name) = .error .fileSystem := by
  have filePlain : Path.IsPlain (name ++ "_directive.rb") := by
    intro c member
    rw [String.toList_append, List.mem_append] at member
    rcases member with here | ending
    · exact plain c here
    · have each : Path.IsPlain "_directive.rb" := by
        decide +kernel
      exact each c ending
  have whole
      : ∀ component ∈ reference.place ++ directiveDirectory ++ [name ++ "_directive.rb"],
          Path.IsPlain component := by
    intro component member
    rcases List.mem_append.mp member with member | member
    · exact place component member
    · rw [List.mem_singleton.mp member]
      exact filePlain
  have bytes : Path.nameBytes (name ++ "_directive.rb") = (name ++ "_directive.rb").toList.length :=
    Path.nameBytes_of_ascii fun c member => (filePlain c member).1
  have located := FileTree.locate_of_long reference.tree (bytes ▸ long) there
  have longer : 1 < (name ++ "_directive.rb").toList.length :=
    Nat.lt_trans (by decide) long
  rw [supportsDirective_of_plain reference filePlain longer]
  dsimp only
  unfold FileTree.lookUp
  -- the path has no fault, so that it is refused for its size or on the way
  rw [Path.fault?_of_plain whole, located]
  split
  · contradiction
  · split
    · rfl
    · rfl

end RubySchema
