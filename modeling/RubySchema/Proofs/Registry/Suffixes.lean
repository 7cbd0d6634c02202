import RubySchema.Proofs.Halves
import RubySchema.Proofs.Reference
import RubySchema.Proofs.Registry.Names
import RubySchema.Proofs.Runs

/-!
The place of a type with a usual name is told by its kind and by the word that its name ends in, by
the first of a few rules that applies. A word stands at the end of a name, or in front of a version
there.
-/

namespace RubySchema

open Text

-----------------------------------------------------------------------------------------
-- Ends of texts
-----------------------------------------------------------------------------------------

theorem Text.beforeEnd?_eq_none_iff {final text : List Char}
    : beforeEnd? final text = none ↔ ∀ rest, text ≠ rest ++ final := by
  rw [Option.eq_none_iff_forall_ne_some]
  simp only [ne_eq, beforeEnd?_eq_some_iff]

/-- Texts end in a text when their characters do. -/
theorem Text.exists_eq_append_iff {text final : String}
    : (∃ front, text = front ++ final) ↔ final.toList <:+ text.toList := by
  constructor
  · rintro ⟨front, rfl⟩
    rw [String.toList_append]
    exact List.suffix_append _ _
  · rintro ⟨front, same⟩
    refine ⟨String.ofList front, String.toList_injective ?_⟩
    rw [String.toList_append, String.toList_ofList, same]

theorem Text.beforeEnd?_append (front final : String)
    : beforeEnd? final.toList (front ++ final).toList = some front.toList :=
  beforeEnd?_eq_some_iff.mpr String.toList_append

theorem Text.beforeEnd?_of_ne {text final : String} (other : ∀ front, text ≠ front ++ final)
    : beforeEnd? final.toList text.toList = none := by
  rw [beforeEnd?_eq_none_iff]
  intro front same
  have ends : final.toList <:+ text.toList := same ▸ List.suffix_append front final.toList
  obtain ⟨front, same⟩ := exists_eq_append_iff.mpr ends
  exact other front same

/-- Code points are compared at an end; in ASCII they are those of the characters. -/
theorem Text.endsWith_iff {text final : String} (ascii : IsAscii text)
    (asciiFinal : IsAscii final)
    : endsWith text final = true ↔ ∃ front, text = front ++ final := by
  have injective : Function.Injective Char.toNat := fun _ _ => Char.toNat_inj.mp
  rw [endsWith, List.isSuffixOf_iff_suffix, points, points, codePoints_of_ascii ascii,
    codePoints_of_ascii asciiFinal, List.suffix_map_iff_of_injective injective,
    exists_eq_append_iff]

theorem Text.startsWith_iff {text start : String}
    : startsWith text start = true ↔ ∃ rest, text = start ++ rest := by
  rw [startsWith, List.isPrefixOf_iff_prefix]
  constructor
  · rintro ⟨rest, same⟩
    refine ⟨String.ofList rest, String.toList_injective ?_⟩
    rw [String.toList_append, String.toList_ofList, same]
  · rintro ⟨rest, rfl⟩
    rw [String.toList_append]
    exact List.prefix_append _ _

/-- Among usual characters the decimal digits are the ten of ASCII. -/
theorem Text.isDecimal_of_usual {c : Char}
    (usual : (isCapital c || isSmall c || isAsciiDigit c || c == '_') = true)
    : isDecimal c = isAsciiDigit c := by
  rw [isDecimal, if_pos (toNat_lt_of_usual usual)]

theorem Naming.stripConnection_append (stem : String)
    : stripConnection (stem ++ "Connection") = (stem, true) := by
  rw [stripConnection, beforeEnd?_append]
  simp

/-- A name that has no `Connection` at its end stays as it is. -/
theorem Naming.stripConnection_of_ne {name : String} (other : ∀ stem, name ≠ stem ++ "Connection")
    : stripConnection name = (name, false) := by
  rw [stripConnection, beforeEnd?_of_ne other]

/-- A name is without one `Connection` at its end, or had none there. -/
inductive Naming.Strips (name : String) : String → Bool → Prop where
  | connection {stem : String} (ends : name = stem ++ "Connection") : Strips name stem true
  | plain (other : ∀ stem, name ≠ stem ++ "Connection") : Strips name name false

theorem Naming.strips_iff {name stem : String} {isConnection : Bool}
    : Strips name stem isConnection ↔ stripConnection name = (stem, isConnection) := by
  constructor
  · intro strips
    cases strips with
    | connection ends => rw [ends, stripConnection_append]
    | plain other => exact stripConnection_of_ne other
  · intro same
    by_cases ends : ∃ front, name = front ++ "Connection"
    · obtain ⟨front, ends⟩ := ends
      rw [ends, stripConnection_append] at same
      obtain ⟨rfl, rfl⟩ := Prod.mk.inj same
      exact .connection ends
    · rw [stripConnection_of_ne (not_exists.mp ends)] at same
      obtain ⟨rfl, rfl⟩ := Prod.mk.inj same
      exact .plain (not_exists.mp ends)

namespace TypeName

-----------------------------------------------------------------------------------------
-- Words in front of versions
-----------------------------------------------------------------------------------------

/-- A version of a type: none, or a `V` and a number. -/
inductive IsVersion : List Char → Prop where
  | unnumbered : IsVersion []
  | numbered {digits : List Char} (some : digits ≠ [])
      (decimal : ∀ c ∈ digits, isAsciiDigit c = true)
    : IsVersion ('V' :: digits)

/-- A name ends in a word and a version, and the stem is what is left of it without the word. -/
def EndsIn (word name stem : String) : Prop :=
  ∃ front version,
    IsVersion version
    ∧ name.toList = front ++ word.toList ++ version
    ∧ stem.toList = front ++ version

section
variable {name stem word : List Char}

theorem splitFinalBreak_of_not_mem (unbroken : '\n' ∉ name) : splitFinalBreak name = (name, []) :=
  by
  unfold splitFinalBreak
  split
  case h_1 rest found =>
    rw [beforeEnd?_eq_some_iff] at found
    exact absurd (found ▸ List.mem_append_right rest List.mem_cons_self) unbroken
  case h_2 => rfl

/-- All digits at the end of a name belong to its version. -/
theorem splitVersion_append {digits : List Char} (some : digits ≠ [])
    (decimal : ∀ c ∈ digits, isDecimal c = true) (front : List Char)
    : splitVersion (front ++ 'V' :: digits) = (front, 'V' :: digits) := by
  have back : (front ++ 'V' :: digits).reverse = digits.reverse ++ 'V' :: front.reverse := by simp
  have all : ∀ c ∈ digits.reverse, isDecimal c = true := fun c member =>
    decimal c (List.mem_reverse.mp member)
  have ends : StopsRun isDecimal ('V' :: front.reverse) := stopsRun_cons.mpr (by decide)
  obtain ⟨run, behind⟩ := takeWhile_dropWhile_eq_iff.mpr ⟨all, ends, back⟩
  have taken : ((front ++ 'V' :: digits).reverse.takeWhile isDecimal).reverse = digits := by
    rw [run, List.reverse_reverse]
  have left : trimEnd isDecimal (front ++ 'V' :: digits) = front ++ ['V'] := by
    rw [trimEnd, behind]
    simp
  have cut : beforeEnd? ['V'] (front ++ ['V']) = Option.some front := beforeEnd?_eq_some_iff.mpr rfl
  rw [splitVersion, taken, left, cut]
  cases digits with
  | nil => exact absurd rfl some
  | cons digit rest => rfl

/-- A name is split into what stands in front of its version, and the version. -/
theorem splitVersion_spec (usual : ∀ c ∈ name, isDecimal c = isAsciiDigit c)
    : name = (splitVersion name).1 ++ (splitVersion name).2 ∧ IsVersion (splitVersion name).2 := by
  have whole : name = trimEnd isDecimal name ++ (name.reverse.takeWhile isDecimal).reverse := by
    rw [trimEnd, ← List.reverse_append, List.takeWhile_append_dropWhile, List.reverse_reverse]
  unfold splitVersion
  dsimp only
  split
  case h_1 => exact ⟨(List.append_nil name).symm, .unnumbered⟩
  case h_2 digits stem found some =>
    rw [beforeEnd?_eq_some_iff] at found
    refine ⟨?_, .numbered (fun none => some none) ?_⟩
    · conv => lhs; rw [whole, found]
      simp
    · intro c member
      have decimal := List.mem_takeWhile_imp (List.mem_reverse.mp member)
      have among : c ∈ name := by
        rw [whole]
        exact List.mem_append_right _ member
      rw [← usual c among]
      exact decimal
  case h_3 => exact ⟨(List.append_nil name).symm, .unnumbered⟩

/-- A usual name is without a word at its end exactly when it ends in the word and a version. The
word ends in a letter, so that it does not end where a number does.
-/
theorem withoutWord?_eq_some_iff {init : List Char} {letter : Char}
    (unbroken : '\n' ∉ name) (usual : ∀ c ∈ name, isDecimal c = isAsciiDigit c)
    (ends : word = init ++ [letter]) (notDigit : isDecimal letter = false)
    : withoutWord? word name = some stem
      ↔ ∃ front version, IsVersion version ∧ name = front ++ word ++ version
          ∧ stem = front ++ version := by
  rw [withoutWord?, splitFinalBreak_of_not_mem unbroken]
  dsimp only
  constructor
  · intro found
    split at found
    case h_1 front here =>
      rw [beforeEnd?_eq_some_iff] at here
      cases found
      exact ⟨front, [], .unnumbered, by simpa using here, rfl⟩
    case h_2 =>
      obtain ⟨whole, version⟩ := splitVersion_spec usual
      obtain ⟨front, before, rfl⟩ := Option.map_eq_some_iff.mp found
      rw [beforeEnd?_eq_some_iff] at before
      refine ⟨front, (splitVersion name).2, version, ?_, by simp⟩
      rw [← before]
      exact whole
  · rintro ⟨front, version, isVersion, rfl, rfl⟩
    cases isVersion with
    | unnumbered =>
        have here : beforeEnd? word (front ++ word ++ []) = some front :=
          beforeEnd?_eq_some_iff.mpr (by simp)
        rw [here]
    | @numbered digits some decimal =>
        have all : ∀ c ∈ digits, isDecimal c = true := by
          intro c member
          rw [usual c (by simp [member])]
          exact decimal c member
        -- the name ends in a digit, and the word does not
        have elsewhere : beforeEnd? word (front ++ word ++ 'V' :: digits) = none := by
          rw [beforeEnd?_eq_none_iff]
          intro rest same
          obtain ⟨body, digit, rfl⟩ := (List.eq_nil_or_concat' digits).resolve_left some
          have last : (front ++ word ++ 'V' :: body) ++ [digit] = (rest ++ init) ++ [letter] := by
            rw [ends] at same ⊢
            simpa using same
          have equal : digit = letter := by simpa using (List.append_inj' last rfl).2
          rw [← equal, all digit (by simp)] at notDigit
          cases notDigit
        have before : beforeEnd? word (front ++ word) = Option.some front :=
          beforeEnd?_eq_some_iff.mpr rfl
        rw [elsewhere]
        dsimp only
        rw [splitVersion_append some all, before]
        simp

end

-----------------------------------------------------------------------------------------
-- Rules for places
-----------------------------------------------------------------------------------------

/-- A rule gives a type its category and its name within it. A rule applies when those before it do
not.
-/
inductive HasPlace (kind : TypeKind) (name : String) : Category → String → Prop where
  | interfaceWord {stem : String} (isInterface : kind = .interface)
      (ends : name = stem ++ "Interface")
    : HasPlace kind name .interfaces stem
  | interfaceKind (isInterface : kind = .interface) (noWord : ∀ stem, name ≠ stem ++ "Interface")
    : HasPlace kind name .interfaces name
  | inputWord {stem : String} (noInterface : kind ≠ .interface) (ends : EndsIn "Input" name stem)
    : HasPlace kind name .inputs stem
  | inputKind (isInput : kind = .inputObject) (noWord : ∀ stem, ¬EndsIn "Input" name stem)
    : HasPlace kind name .inputs name
  | payloadWord {stem : String} (noInterface : kind ≠ .interface) (noInput : kind ≠ .inputObject)
      (noWord : ∀ stem, ¬EndsIn "Input" name stem) (ends : EndsIn "Payload" name stem)
    : HasPlace kind name .payloads stem
  | otherwise (noInterface : kind ≠ .interface) (noInput : kind ≠ .inputObject)
      (noInputWord : ∀ stem, ¬EndsIn "Input" name stem)
      (noPayloadWord : ∀ stem, ¬EndsIn "Payload" name stem)
    : HasPlace kind name .types name

section
variable {kind : TypeKind} {category : Category} {name stem word : String}

theorem IsGraphQL.not_mem_break (usual : IsGraphQL name) : '\n' ∉ name.toList :=
  fun member => absurd (usual '\n' member) (by decide)

theorem IsGraphQL.endsIn_iff (usual : IsGraphQL name) (init : List Char) (letter : Char)
    (ends : word.toList = init ++ [letter]) (notDigit : isDecimal letter = false)
    : EndsIn word name stem
      ↔ (withoutWord? word.toList name.toList).map String.ofList = some stem := by
  have decimal : ∀ c ∈ name.toList, isDecimal c = isAsciiDigit c :=
    fun c member => isDecimal_of_usual (usual c member)
  have exact := @withoutWord?_eq_some_iff _ stem.toList _ _ _ usual.not_mem_break decimal ends
    notDigit
  rw [EndsIn, ← exact]
  constructor
  · intro found
    rw [found, Option.map_some, String.ofList_toList]
  · intro found
    obtain ⟨rest, cut, rfl⟩ := Option.map_eq_some_iff.mp found
    rw [cut, String.toList_ofList]

theorem IsGraphQL.endsIn_input_iff (usual : IsGraphQL name)
    : EndsIn "Input" name stem
      ↔ (withoutWord? "Input".toList name.toList).map String.ofList = some stem :=
  usual.endsIn_iff "Inpu".toList 't' rfl (by decide)

theorem IsGraphQL.endsIn_payload_iff (usual : IsGraphQL name)
    : EndsIn "Payload" name stem
      ↔ (withoutWord? "Payload".toList name.toList).map String.ofList = some stem :=
  usual.endsIn_iff "Payloa".toList 'd' rfl (by decide)

/-- A name that does not end in a word is not cut in front of it. -/
theorem IsGraphQL.withoutWord?_of_not_endsIn (usual : IsGraphQL name)
    (known : word = "Input" ∨ word = "Payload") (noWord : ∀ stem, ¬EndsIn word name stem)
    : withoutWord? word.toList name.toList = none := by
  cases cut : withoutWord? word.toList name.toList with
  | none => rfl
  | some rest =>
      refine absurd ?_ (noWord (String.ofList rest))
      rcases known with rfl | rfl
      · exact usual.endsIn_input_iff.mpr (congrArg _ cut)
      · exact usual.endsIn_payload_iff.mpr (congrArg _ cut)

theorem IsGraphQL.withoutInterface_append (usual : IsGraphQL (stem ++ "Interface"))
    : String.ofList (withoutInterface (stem ++ "Interface").toList) = stem := by
  simp only [withoutInterface, splitFinalBreak_of_not_mem usual.not_mem_break, beforeEnd?_append,
    List.append_nil, String.ofList_toList]

theorem IsGraphQL.withoutInterface_of_ne (usual : IsGraphQL name)
    (noWord : ∀ stem, name ≠ stem ++ "Interface")
    : String.ofList (withoutInterface name.toList) = name := by
  simp only [withoutInterface, splitFinalBreak_of_not_mem usual.not_mem_break,
    beforeEnd?_of_ne noWord, String.ofList_toList]

/-- The place of a type with a usual name is the one that the rules give, by cases on the rule. -/
theorem HasPlace.categorize_eq (usual : IsGraphQL name)
    (shown : ∀ stem, name ≠ stem ++ "Connection") (place : HasPlace kind name category stem)
    : categorize kind name = (category, stem) := by
  unfold categorize
  dsimp only
  cases place with
  | interfaceWord isInterface ends =>
      subst ends
      rw [if_pos (beq_iff_eq.mpr isInterface), usual.withoutInterface_append]
  | interfaceKind isInterface noWord =>
      rw [if_pos (beq_iff_eq.mpr isInterface), usual.withoutInterface_of_ne noWord]
  | inputWord noInterface ends =>
      obtain ⟨rest, cut, rfl⟩ := Option.map_eq_some_iff.mp (usual.endsIn_input_iff.mp ends)
      rw [if_neg (mt beq_iff_eq.mp noInterface), cut]
  | inputKind isInput noWord =>
      rw [isInput, usual.withoutWord?_of_not_endsIn (.inl rfl) noWord]
      rfl
  | payloadWord noInterface noInput noWord ends =>
      obtain ⟨rest, cut, rfl⟩ := Option.map_eq_some_iff.mp (usual.endsIn_payload_iff.mp ends)
      rw [if_neg (mt beq_iff_eq.mp noInterface),
        usual.withoutWord?_of_not_endsIn (.inl rfl) noWord]
      dsimp only
      rw [if_neg (mt beq_iff_eq.mp noInput), cut]
  | otherwise noInterface noInput noInputWord noPayloadWord =>
      rw [if_neg (mt beq_iff_eq.mp noInterface),
        usual.withoutWord?_of_not_endsIn (.inl rfl) noInputWord]
      dsimp only
      rw [if_neg (mt beq_iff_eq.mp noInput),
        usual.withoutWord?_of_not_endsIn (.inr rfl) noPayloadWord]
      dsimp only
      rw [Naming.stripConnection_of_ne shown]

/-- One of the rules applies to every type. -/
theorem exists_hasPlace (kind : TypeKind) (name : String)
    : ∃ category stem, HasPlace kind name category stem := by
  by_cases isInterface : kind = .interface
  · by_cases word : ∃ stem, name = stem ++ "Interface"
    · obtain ⟨stem, ends⟩ := word
      exact ⟨_, _, .interfaceWord isInterface ends⟩
    · exact ⟨_, _, .interfaceKind isInterface (not_exists.mp word)⟩
  by_cases input : ∃ stem, EndsIn "Input" name stem
  · obtain ⟨stem, ends⟩ := input
    exact ⟨_, _, .inputWord isInterface ends⟩
  by_cases isInput : kind = .inputObject
  · exact ⟨_, _, .inputKind isInput (not_exists.mp input)⟩
  by_cases payload : ∃ stem, EndsIn "Payload" name stem
  · obtain ⟨stem, ends⟩ := payload
    exact ⟨_, _, .payloadWord isInterface isInput (not_exists.mp input) ends⟩
  exact ⟨_, _, .otherwise isInterface isInput (not_exists.mp input) (not_exists.mp payload)⟩

/-- A type whose name is usual, and not that of a connection, has the place that the rules give. -/
theorem IsGraphQL.hasPlace_iff (usual : IsGraphQL name)
    (shown : ∀ stem, name ≠ stem ++ "Connection")
    : HasPlace kind name category stem ↔ categorize kind name = (category, stem) := by
  constructor
  · exact HasPlace.categorize_eq usual shown
  · intro same
    obtain ⟨otherCategory, other, place⟩ := exists_hasPlace kind name
    obtain ⟨rfl, rfl⟩ := Prod.mk.inj ((place.categorize_eq usual shown).symm.trans same)
    exact place

end

end TypeName

end RubySchema
