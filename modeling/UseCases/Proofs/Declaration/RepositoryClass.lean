/-
The class that a repository name is taken from.

A class declaration starts a line: white space, the keyword `abstract` and one modifier where they
stand, the keyword `class`, the word that names it, and what follows.  No two of the keywords start
with the same letter, so the reader of a declaration never has to go back, and it reads each text
that is spelled like this.

The name that is returned is not the word but the longest start of it that ends in the suffix and
that no word character follows.  A dollar sign is no word character, and yet it goes on an
identifier.  Where a word goes on with one behind the suffix, the name that is returned may be that
of no class in the source.  This is the one exception: every other name is the whole word of its
class, no class with a repository's name stands before that one, and where there is such a class a
name is returned.
-/
import UseCases.Proofs.Dart.Spelling
import UseCases.Proofs.Declaration.RepositoryName

namespace UseCases.Declaration

open Dart Text

variable {x y name word : List Char} {key : String}

/-! ### Keywords -/

/-- White space, and some of it. -/
abbrev SomeBlanks := {text : List Char // text ≠ [] ∧ ∀ c ∈ text, isBlank c = true}

theorem skipSomeBlanks?_eq_some_iff : skipSomeBlanks? x = some y ↔
    ∃ gap : SomeBlanks, x = gap.val ++ y ∧ StartsVisible y := by
  constructor
  · intro h
    obtain ⟨gap, hne, hgap, hx⟩ := skipSomeBlanks?_split h
    refine ⟨⟨gap, hne, hgap⟩, hx, fun c hc => ?_⟩
    cases x with
    | nil => cases h
    | cons d ds =>
        rw [skipSomeBlanks?] at h
        split at h
        · obtain rfl := Option.some.inj h
          exact isBlank_of_head_skipBlanks hc
        · cases h
  · rintro ⟨⟨gap, hne, hgap⟩, rfl, hvisible⟩
    obtain ⟨d, ds, rfl⟩ := List.exists_cons_of_ne_nil hne
    have hskip := skipBlanks_blanks ⟨ds, fun c hc => hgap c (List.mem_cons_of_mem d hc)⟩ hvisible
    rw [List.cons_append, skipSomeBlanks?, if_pos (hgap d List.mem_cons_self), hskip]

/-- **A keyword is read** with all the white space behind it, of which there has to be some. -/
theorem afterKeyword?_eq_some_iff : afterKeyword? key x = some y ↔
    ∃ gap : SomeBlanks, x = key.toList ++ (gap.val ++ y) ∧ StartsVisible y := by
  rw [afterKeyword?, Option.bind_eq_some_iff]
  constructor
  · rintro ⟨after, hafter, hrest⟩
    obtain ⟨gap, rfl, hvisible⟩ := skipSomeBlanks?_eq_some_iff.mp hrest
    exact ⟨gap, after?_eq_some.mp hafter, hvisible⟩
  · rintro ⟨gap, rfl, hvisible⟩
    exact ⟨_, after?_append _ _, skipSomeBlanks?_eq_some_iff.mpr ⟨gap, rfl, hvisible⟩⟩

theorem afterKeyword?_gap (key : String) (gap : SomeBlanks) (hy : StartsVisible y) :
    afterKeyword? key ((key.toList ++ gap.val) ++ y) = some y :=
  afterKeyword?_eq_some_iff.mpr ⟨gap, List.append_assoc _ _ _, hy⟩

/-- A text that starts with another letter does not start with the keyword. -/
theorem afterKeyword?_of_letter {c p : Char} (hp : key.toList.head? = some p)
    (hx : x.head? = some c) (hne : c ≠ p) : afterKeyword? key x = none := by
  have hother : x.head? ≠ some p := fun h => hne (Option.some.inj (hx.symm.trans h))
  rw [afterKeyword?, after?_of_head hp hother]
  rfl

/-! ### Class declarations -/

/-- What kind of class a declaration says it is. -/
inductive ClassModifier
  | interface
  | base
  | sealed

/-- How a modifier is written. -/
def ClassModifier.keyword : ClassModifier → String
  | interface => "interface"
  | base => "base"
  | sealed => "sealed"

/-- Where a class modifier is dropped, one was read. -/
theorem dropClassModifier_eq (x : List Char) : dropClassModifier x = x ∨
    ∃ m : ClassModifier, afterKeyword? m.keyword x = some (dropClassModifier x) := by
  unfold dropClassModifier
  cases hinterface : afterKeyword? "interface" x with
  | some rest => exact Or.inr ⟨.interface, hinterface⟩
  | none =>
      cases hbase : afterKeyword? "base" x with
      | some rest => exact Or.inr ⟨.base, hbase⟩
      | none =>
          cases hsealed : afterKeyword? "sealed" x with
          | some rest => exact Or.inr ⟨.sealed, hsealed⟩
          | none => exact Or.inl rfl

/-- A text that starts with a class declaration: its parts, as they are spelled. -/
structure ClassStart where
  lead : Blanks
  abstract? : Option SomeBlanks
  modifier? : Option (ClassModifier × SomeBlanks)
  gap : SomeBlanks
  word : Identifier
  rest : List Char
  stop : ∀ c, rest.head? = some c → isIdentifierChar c = false

namespace ClassStart

variable (s : ClassStart)

def abstractText : List Char :=
  match s.abstract? with
  | none => []
  | some gap => "abstract".toList ++ gap.val

def modifierText : List Char :=
  match s.modifier? with
  | none => []
  | some (modifier, gap) => modifier.keyword.toList ++ gap.val

/-- The text from the keyword `class` on. -/
def classText : List Char :=
  "class".toList ++ (s.gap.val ++ (s.word.val ++ s.rest))

def text : List Char :=
  s.lead.val ++ (s.abstractText ++ (s.modifierText ++ s.classText))

theorem startsVisible_classText : StartsVisible s.classText :=
  startsVisible_cons (by decide) _

/-- A modifier or the keyword `class` comes next. -/
theorem head?_modifierText : ∃ c, (s.modifierText ++ s.classText).head? = some c ∧
    isBlank c = false ∧ c ≠ 'a' := by
  unfold modifierText
  rcases s.modifier? with - | ⟨⟨⟩, gap⟩
  · exact ⟨'c', rfl, by decide, by decide⟩
  · exact ⟨'i', rfl, by decide, by decide⟩
  · exact ⟨'b', rfl, by decide, by decide⟩
  · exact ⟨'s', rfl, by decide, by decide⟩

theorem startsVisible_modifierText : StartsVisible (s.modifierText ++ s.classText) := by
  obtain ⟨c, hhead, hvisible, -⟩ := s.head?_modifierText
  intro d hd
  obtain rfl := Option.some.inj (hhead.symm.trans hd)
  exact hvisible

theorem startsVisible_abstractText :
    StartsVisible (s.abstractText ++ (s.modifierText ++ s.classText)) := by
  unfold abstractText
  cases s.abstract? with
  | none => exact s.startsVisible_modifierText
  | some gap => exact startsVisible_cons (by decide) _

theorem dropKeyword_abstractText :
    dropKeyword "abstract" (s.abstractText ++ (s.modifierText ++ s.classText))
      = s.modifierText ++ s.classText := by
  rw [dropKeyword, abstractText]
  cases s.abstract? with
  | none =>
      obtain ⟨c, hhead, -, hc⟩ := s.head?_modifierText
      rw [List.nil_append, afterKeyword?_of_letter rfl hhead hc, Option.getD_none]
  | some gap =>
      rw [afterKeyword?_gap "abstract" gap s.startsVisible_modifierText, Option.getD_some]

theorem dropClassModifier_modifierText :
    dropClassModifier (s.modifierText ++ s.classText) = s.classText := by
  have hread := fun key gap => afterKeyword?_gap key gap s.startsVisible_classText
  rw [modifierText, dropClassModifier]
  rcases s.modifier? with - | ⟨_ | _ | _, gap⟩
  · rw [List.nil_append, afterKeyword?_of_letter (c := 'c') (p := 'i') rfl rfl (by decide),
      afterKeyword?_of_letter (c := 'c') (p := 'b') rfl rfl (by decide),
      afterKeyword?_of_letter (c := 'c') (p := 's') rfl rfl (by decide)]
    rfl
  · simp only [ClassModifier.keyword]
    rw [hread]
    rfl
  · simp only [ClassModifier.keyword]
    rw [afterKeyword?_of_letter (c := 'b') (p := 'i') rfl rfl (by decide), hread]
    rfl
  · simp only [ClassModifier.keyword]
    rw [afterKeyword?_of_letter (c := 's') (p := 'i') rfl rfl (by decide),
      afterKeyword?_of_letter (c := 's') (p := 'b') rfl rfl (by decide), hread]
    rfl

end ClassStart

/-- The word of the class declaration that a text starts with, and what follows it. -/
def readClass? (x : List Char) : Option Lexeme :=
  (afterKeyword? "class" (dropClassModifier (dropKeyword "abstract" (skipBlanks x)))).bind
    readIdentifier?

theorem readRepository?_eq (x : List Char) : readRepository? x =
    (readClass? x).bind fun word => shortenName? word.token.reverse word.rest :=
  (Option.bind_assoc _ _ _).symm

theorem readClass?_text (s : ClassStart) : readClass? s.text = some ⟨s.word.val, s.rest⟩ := by
  have hclass : afterKeyword? "class" s.classText = some (s.word.val ++ s.rest) :=
    afterKeyword?_eq_some_iff.mpr ⟨s.gap, rfl, startsVisible_name s.word.property s.rest⟩
  rw [readClass?, ClassStart.text, skipBlanks_blanks s.lead s.startsVisible_abstractText,
    s.dropKeyword_abstractText, s.dropClassModifier_modifierText, hclass]
  exact readIdentifier?_append s.word.property s.stop

theorem exists_abstract (x : List Char) : ∃ abstract? : Option SomeBlanks,
    x = (match abstract? with
      | none => []
      | some gap => "abstract".toList ++ gap.val) ++ dropKeyword "abstract" x := by
  unfold dropKeyword
  cases hread : afterKeyword? "abstract" x with
  | none => exact ⟨none, rfl⟩
  | some rest =>
      obtain ⟨gap, hx, -⟩ := afterKeyword?_eq_some_iff.mp hread
      exact ⟨some gap, by rw [hx]; exact (List.append_assoc _ _ _).symm⟩

theorem exists_modifier (x : List Char) : ∃ modifier? : Option (ClassModifier × SomeBlanks),
    x = (match modifier? with
      | none => []
      | some (modifier, gap) => modifier.keyword.toList ++ gap.val) ++ dropClassModifier x := by
  rcases dropClassModifier_eq x with hsame | ⟨modifier, hread⟩
  · exact ⟨none, hsame.symm⟩
  · obtain ⟨gap, hx, -⟩ := afterKeyword?_eq_some_iff.mp hread
    exact ⟨some (modifier, gap), by rw [List.append_assoc]; exact hx⟩

/-- **A class declaration is read** exactly where one is spelled. -/
theorem readClass?_eq_some_iff {lexeme : Lexeme} : readClass? x = some lexeme ↔
    ∃ s : ClassStart, x = s.text ∧ lexeme = ⟨s.word.val, s.rest⟩ := by
  constructor
  · intro h
    obtain ⟨after, hclass, hread⟩ := Option.bind_eq_some_iff.mp h
    obtain ⟨lead, hlead⟩ := exists_blanks x
    obtain ⟨abstract?, habstract⟩ := exists_abstract (skipBlanks x)
    obtain ⟨modifier?, hmodifier⟩ := exists_modifier (dropKeyword "abstract" (skipBlanks x))
    obtain ⟨gap, hgap, -⟩ := afterKeyword?_eq_some_iff.mp hclass
    obtain ⟨word, hafter, htoken, hstop⟩ := readIdentifier?_eq_some_iff.mp hread
    refine ⟨⟨lead, abstract?, modifier?, gap, word, lexeme.rest, hstop⟩, ?_, by rw [← htoken]⟩
    rw [hafter] at hgap
    rw [hgap] at hmodifier
    rw [hmodifier] at habstract
    exact hlead.trans (congrArg (lead.val ++ ·) habstract)
  · rintro ⟨s, rfl, rfl⟩
    exact readClass?_text s

/-! ### The name in a word -/

/-- A repository name that a word starts with: it is the word, or a dollar sign goes on with it. -/
structure StartsWord (name word : List Char) : Prop where
  suffix : repositorySuffix <:+ name
  longer : repositorySuffix.length < name.length
  whole : word = name ∨ name ++ ['$'] <+: word

theorem StartsWord.start (h : StartsWord name word) : name <+: word := by
  rcases h.whole with rfl | hdollar
  · exact List.prefix_refl _
  · exact (List.prefix_append _ _).trans hdollar

/-- A start of a word is a name there exactly if no word character follows it. -/
theorem isRepositoryName_append_iff {tail rest : List Char}
    (hword : ∀ c ∈ tail, isIdentifierChar c = true)
    (hstop : ∀ c, rest.head? = some c → isIdentifierChar c = false) :
    isRepositoryName name (tail ++ rest) = true ↔ StartsWord name (name ++ tail) := by
  have hends : (∀ c, (tail ++ rest).head? = some c → isWord c = false) ↔
      name ++ tail = name ∨ name ++ ['$'] <+: name ++ tail := by
    cases tail with
    | nil =>
        refine iff_of_true (fun c hc => ?_) (Or.inl (List.append_nil name))
        exact (Bool.or_eq_false_iff.mp (hstop c hc)).1
    | cons d ds =>
        have hd := hword d List.mem_cons_self
        rw [List.prefix_append_right_inj, List.cons_prefix_cons]
        constructor
        · intro hends
          rw [isIdentifierChar, hends d rfl, Bool.false_or, beq_iff_eq] at hd
          exact Or.inr ⟨hd.symm, List.nil_prefix⟩
        · rintro (hnil | ⟨rfl, -⟩) c hc
          · simp at hnil
          · obtain rfl := Option.some.inj hc
            decide
  rw [isRepositoryName_iff, hends]
  constructor
  · rintro ⟨hsuffix, hlonger, hwhole⟩
    exact ⟨hsuffix, hlonger, hwhole⟩
  · intro h
    exact ⟨h.suffix, h.longer, h.whole⟩

/-- The name in a word: the longest repository name that the word starts with. -/
structure IsNameIn (name word : List Char) : Prop where
  starts : StartsWord name word
  longest : ∀ other, StartsWord other word → other.length ≤ name.length

/-- **The name that is read in a word** is the longest that it starts with. -/
theorem shortenName?_word (word : Identifier) {rest : List Char}
    (hstop : ∀ c, rest.head? = some c → isIdentifierChar c = false) :
    shortenName? word.val.reverse rest = some name ↔ IsNameIn name word.val := by
  have hstarts : ∀ other more, word.val = other ++ more →
      (isRepositoryName other (more ++ rest) = true ↔ StartsWord other word.val) := by
    intro other more hsplit
    have hchars := forall_mem_identifier word.property
    rw [hsplit] at hchars ⊢
    exact isRepositoryName_append_iff (fun c hc => hchars c (List.mem_append_right other hc)) hstop
  rw [shortenName?_eq_some_iff, List.reverse_reverse]
  constructor
  · rintro ⟨tail, hsplit, hname, hlongest⟩
    refine ⟨(hstarts name tail hsplit).mp hname, fun other hother => ?_⟩
    obtain ⟨more, hmore⟩ := hother.start
    exact hlongest other more hmore.symm ((hstarts other more hmore.symm).mpr hother)
  · rintro ⟨hname, hlongest⟩
    obtain ⟨tail, htail⟩ := hname.start
    exact ⟨tail, htail.symm, (hstarts name tail htail.symm).mpr hname,
      fun other more hsplit hother => hlongest other ((hstarts other more hsplit).mp hother)⟩

theorem readRepository?_eq_some_iff : readRepository? x = some name ↔
    ∃ s : ClassStart, x = s.text ∧ IsNameIn name s.word.val := by
  rw [readRepository?_eq, Option.bind_eq_some_iff]
  constructor
  · rintro ⟨lexeme, hread, hname⟩
    obtain ⟨s, rfl, rfl⟩ := readClass?_eq_some_iff.mp hread
    exact ⟨s, rfl, (shortenName?_word s.word s.stop).mp hname⟩
  · rintro ⟨s, rfl, hname⟩
    exact ⟨_, readClass?_text s, (shortenName?_word s.word s.stop).mpr hname⟩

/-- A word that is the name of a repository class names it. -/
theorem isNameIn_whole (h : IsRepository word) : IsNameIn word word :=
  ⟨⟨h.suffix, h.longer, Or.inl rfl⟩, fun _ hother => hother.start.length_le⟩

/-! ### The first class -/

/-- The text declares a class at the start of a line, behind the text `before`. -/
structure DeclaresClass (text before : List Char) (s : ClassStart) : Prop where
  whole : text = before ++ s.text
  line : ∀ c, before.getLast? = some c → c = '\n'

theorem DeclaresClass.endsLine {text before : List Char} {s : ClassStart}
    (h : DeclaresClass text before s) : EndsLine true before :=
  ⟨fun _ => rfl, h.line⟩

theorem repositoryName?_eq_some_iff {source name : String} :
    repositoryName? source = some name ↔
      firstRepository? true (stripComments source.toList) = some name.toList := by
  rw [repositoryName?, Option.map_eq_some_iff]
  constructor
  · rintro ⟨first, hfirst, rfl⟩
    rw [String.toList_ofList, hfirst]
  · intro h
    exact ⟨name.toList, h, String.ofList_toList⟩

/-- **The first class with a name in its word** is the one whose name is returned. -/
theorem repositoryName?_eq_some_iff_declares {source name : String} :
    repositoryName? source = some name ↔
      ∃ before s, DeclaresClass (stripComments source.toList) before s ∧
        IsNameIn name.toList s.word.val ∧
        ∀ earlier other start, DeclaresClass (stripComments source.toList) earlier other →
          IsNameIn start other.word.val → before.length ≤ earlier.length := by
  rw [repositoryName?_eq_some_iff, firstRepository?_eq_some_iff]
  constructor
  · rintro ⟨before, rest, hwhole, hline, hread, hleast⟩
    obtain ⟨s, rfl, hname⟩ := readRepository?_eq_some_iff.mp hread
    refine ⟨before, s, ⟨hwhole, hline.newline⟩, hname, fun earlier other start hother hstart => ?_⟩
    have hmore := readRepository?_eq_some_iff.mpr ⟨other, rfl, hstart⟩
    exact hleast earlier other.text hother.whole hother.endsLine (by rw [hmore]; rfl)
  · rintro ⟨before, s, hs, hname, hleast⟩
    refine ⟨before, s.text, hs.whole, hs.endsLine, readRepository?_eq_some_iff.mpr ⟨s, rfl, hname⟩,
      fun earlier more hwhole hline hmore => ?_⟩
    obtain ⟨start, hread⟩ := Option.isSome_iff_exists.mp hmore
    obtain ⟨other, rfl, hstart⟩ := readRepository?_eq_some_iff.mp hread
    exact hleast earlier other start ⟨hwhole, hline.newline⟩ hstart

/--
**The name of the first repository class.**  What is returned is the name in the word of the first
class declaration that has one.  It is a repository's name, and it is the whole word of that class
unless a dollar sign goes on with it; no class that has a repository's name for its whole word is
declared earlier.  If any is declared, a name is returned.
-/
theorem repositoryName?_names_first_class (source : String) :
    (∀ name : String, repositoryName? source = some name ↔
      ∃ before s, DeclaresClass (stripComments source.toList) before s ∧
        IsNameIn name.toList s.word.val ∧
        ∀ earlier other start, DeclaresClass (stripComments source.toList) earlier other →
          IsNameIn start other.word.val → before.length ≤ earlier.length) ∧
    (∀ name : String, repositoryName? source = some name →
      IsRepository name.toList ∧
        ∃ before s, DeclaresClass (stripComments source.toList) before s ∧
          (s.word.val = name.toList ∨ name.toList ++ ['$'] <+: s.word.val) ∧
          ∀ earlier other, DeclaresClass (stripComments source.toList) earlier other →
            IsRepository other.word.val → before.length ≤ earlier.length) ∧
    (∀ before s, DeclaresClass (stripComments source.toList) before s →
      IsRepository s.word.val → ∃ name, repositoryName? source = some name) := by
  refine ⟨fun name => repositoryName?_eq_some_iff_declares, fun name h => ?_,
    fun before s hs hrepository => ?_⟩
  · obtain ⟨before, s, hs, hname, hleast⟩ := repositoryName?_eq_some_iff_declares.mp h
    exact ⟨isRepository_of_repositoryName? h, before, s, hs, hname.starts.whole,
      fun earlier other hother hwhole => hleast earlier other _ hother (isNameIn_whole hwhole)⟩
  · have hread := readRepository?_eq_some_iff.mpr ⟨s, rfl, isNameIn_whole hrepository⟩
    obtain ⟨first, hfirst⟩ := exists_firstRepository? hs.endsLine hread
    rw [← hs.whole] at hfirst
    refine ⟨String.ofList first, repositoryName?_eq_some_iff.mpr ?_⟩
    rw [hfirst, String.toList_ofList]

/-- The second class of a source, which is an interface with a type parameter. -/
def orderClass : ClassStart where
  lead := ⟨"  ".toList, List.all_eq_true.mp (by decide)⟩
  abstract? := none
  modifier? := some (.interface, ⟨" ".toList, by decide, List.all_eq_true.mp (by decide)⟩)
  gap := ⟨" ".toList, by decide, List.all_eq_true.mp (by decide)⟩
  word := ⟨"OrderRepository".toList, by decide⟩
  rest := "<T> {}\n".toList
  stop := by
    rintro c ⟨rfl⟩
    decide

/-- A longer name and a comment before a class do not keep it from being found. -/
theorem orderClass_is_named :
    DeclaresClass (stripComments
        "class OrderRepositoryImpl {} // on\n  interface class OrderRepository<T> {}\n".toList)
        "class OrderRepositoryImpl {} \n".toList orderClass ∧
      IsRepository orderClass.word.val ∧
      ∃ name, repositoryName?
        "class OrderRepositoryImpl {} // on\n  interface class OrderRepository<T> {}\n"
          = some name := by
  have hclass : DeclaresClass (stripComments
      "class OrderRepositoryImpl {} // on\n  interface class OrderRepository<T> {}\n".toList)
      "class OrderRepositoryImpl {} \n".toList orderClass := by
    refine ⟨by decide, ?_⟩
    rintro c ⟨rfl⟩
    rfl
  have hname : IsRepository orderClass.word.val :=
    ⟨orderClass.word.property, List.isSuffixOf_iff_suffix.mp (by decide), by decide⟩
  exact ⟨hclass, hname, (repositoryName?_names_first_class _).2.2 _ _ hclass hname⟩

/-- **A dollar sign goes on with the name**: there is one class in the source, and it is not the one
whose name is returned. -/
theorem repositoryName?_of_dollar :
    repositoryName? "abstract class UserRepository$Impl {}\n" = some "UserRepository" ∧
      ∀ before s, DeclaresClass (stripComments "abstract class UserRepository$Impl {}\n".toList)
        before s → s.word.val = "UserRepository$Impl".toList := by
  refine ⟨by decide, fun before s hs => ?_⟩
  have hread : ∀ lexeme ∈ List.filterMap readClass?
      (stripComments "abstract class UserRepository$Impl {}\n".toList).tails,
      lexeme.token = "UserRepository$Impl".toList := by decide
  exact hread _ (List.mem_filterMap.mpr
    ⟨s.text, (List.mem_tails _ _).mpr ⟨before, hs.whole.symm⟩, readClass?_text s⟩)

end UseCases.Declaration
