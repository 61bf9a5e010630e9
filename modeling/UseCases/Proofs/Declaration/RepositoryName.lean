/-
The repository class that is found.

The search stops at the leftmost line start where a name is read.  The name is the start of a word
that was read as an identifier, the longest one that ends in the suffix and that no word character
follows.  So it is an identifier, whatever stands around it.
-/
import UseCases.Declaration.Repository
import UseCases.Proofs.Dart.Reading

namespace UseCases.Declaration

open Dart Text

variable {name rest text : List Char}

/-! ### Shortened names -/

theorem isRepositoryName_iff {rest : List Char} : isRepositoryName name rest = true ↔
    repositorySuffix <:+ name ∧ repositorySuffix.length < name.length ∧
      ∀ c, rest.head? = some c → isWord c = false := by
  unfold isRepositoryName
  rw [Bool.and_eq_true, Bool.and_eq_true, decide_eq_true_eq, endsWith,
    List.isSuffixOf_iff_suffix, and_assoc]
  cases rest with
  | nil => simp
  | cons c cs => simp

/-- The last character of a text is the last one of its second half, unless that is empty. -/
theorem eq_nil_or_concat_of_append {a b cs : List Char} {c : Char} (h : cs ++ [c] = a ++ b) :
    b = [] ∨ ∃ front, b = front ++ [c] ∧ cs = a ++ front := by
  rcases List.eq_nil_or_concat b with hnil | ⟨front, d, rfl⟩
  · exact Or.inl hnil
  · rw [List.concat_eq_append, ← List.append_assoc] at h
    obtain ⟨hcs, hlast⟩ := List.append_inj' h rfl
    exact Or.inr ⟨front, by rw [List.concat_eq_append, hlast], hcs⟩

/-- **What is left of a name** is the longest start of it that may be one. -/
theorem shortenName?_eq_some_iff {reversed rest : List Char} :
    shortenName? reversed rest = some name ↔
      ∃ tail, reversed.reverse = name ++ tail ∧ isRepositoryName name (tail ++ rest) = true ∧
        ∀ other more, reversed.reverse = other ++ more →
          isRepositoryName other (more ++ rest) = true → other.length ≤ name.length := by
  induction reversed generalizing rest with
  | nil =>
      refine iff_of_false (fun h => by cases h) ?_
      rintro ⟨tail, hempty, hname, -⟩
      obtain ⟨rfl, -⟩ := List.append_eq_nil_iff.mp hempty.symm
      exact absurd (isRepositoryName_iff.mp hname).2.1 (by decide)
  | cons c cs ih =>
      rw [shortenName?, List.reverse_cons]
      by_cases hwhole : isRepositoryName (cs.reverse ++ [c]) rest = true
      · rw [if_pos hwhole]
        constructor
        · intro h
          obtain rfl := Option.some.inj h
          refine ⟨[], (List.append_nil _).symm, hwhole, fun other more hsplit _ => ?_⟩
          rw [hsplit, List.length_append]
          exact Nat.le_add_right _ _
        · rintro ⟨tail, hsplit, -, hlongest⟩
          have hle := hlongest _ [] (List.append_nil _).symm hwhole
          rw [hsplit, List.length_append] at hle
          obtain rfl : tail = [] := List.eq_nil_of_length_eq_zero (by omega)
          rw [hsplit, List.append_nil]
      · rw [if_neg hwhole, ih]
        -- The whole word is no name, so each name in it leaves its last character over.
        have hshorter : ∀ other more, cs.reverse ++ [c] = other ++ more →
            isRepositoryName other (more ++ rest) = true →
              ∃ front, more = front ++ [c] ∧ cs.reverse = other ++ front := by
          intro other more hsplit hother
          rcases eq_nil_or_concat_of_append hsplit with rfl | hfront
          · rw [List.append_nil] at hsplit
            exact absurd (hsplit ▸ hother) hwhole
          · exact hfront
        constructor
        · rintro ⟨tail, hsplit, hname, hlongest⟩
          refine ⟨tail ++ [c], by rw [hsplit, List.append_assoc],
            by rw [List.append_assoc]; exact hname, fun other more hmore hother => ?_⟩
          obtain ⟨front, rfl, hfront⟩ := hshorter other more hmore hother
          rw [List.append_assoc] at hother
          exact hlongest other front hfront hother
        · rintro ⟨tail, hsplit, hname, hlongest⟩
          obtain ⟨front, rfl, hfront⟩ := hshorter name tail hsplit hname
          rw [List.append_assoc] at hname
          refine ⟨front, hfront, hname, fun other more hmore hother => ?_⟩
          refine hlongest other (more ++ [c]) (by rw [hmore, List.append_assoc]) ?_
          rw [List.append_assoc]
          exact hother

theorem shortenName?_eq_some {reversed : List Char} (h : shortenName? reversed rest = some name) :
    name <+: reversed.reverse ∧ repositorySuffix <:+ name ∧
      repositorySuffix.length < name.length := by
  obtain ⟨tail, hsplit, hname, -⟩ := shortenName?_eq_some_iff.mp h
  obtain ⟨hsuffix, hlonger, -⟩ := isRepositoryName_iff.mp hname
  exact ⟨⟨tail, hsplit.symm⟩, hsuffix, hlonger⟩

/-- A start of an identifier is an identifier, unless it is empty. -/
theorem isIdentifier_start (h : isIdentifier text = true) (hstart : name <+: text)
    (hne : name ≠ []) : isIdentifier name = true := by
  obtain ⟨c, cs, rfl, hhead, hrest⟩ := exists_of_isName h
  obtain ⟨d, ds, rfl⟩ := List.exists_cons_of_ne_nil hne
  obtain ⟨rfl, hds⟩ := List.cons_prefix_cons.mp hstart
  rw [isIdentifier, isName, hhead, Bool.true_and, List.all_eq_true]
  exact fun e he => hrest e (hds.subset he)

/-- A name of a repository class: an identifier that ends in the suffix after something else. -/
structure IsRepository (name : List Char) : Prop where
  identifier : isIdentifier name = true
  suffix : repositorySuffix <:+ name
  longer : repositorySuffix.length < name.length

theorem isRepository_of_readRepository? (h : readRepository? text = some name) :
    IsRepository name := by
  rw [readRepository?] at h
  obtain ⟨after, -, h⟩ := Option.bind_eq_some_iff.mp h
  obtain ⟨word, hword, h⟩ := Option.bind_eq_some_iff.mp h
  obtain ⟨hstart, hsuffix, hlonger⟩ := shortenName?_eq_some h
  rw [List.reverse_reverse] at hstart
  refine ⟨isIdentifier_start (isIdentifier_of_readIdentifier? hword) hstart ?_, hsuffix, hlonger⟩
  rintro rfl
  cases hlonger

/-! ### The search -/

/-- A line starts behind this text, which stands at the start of one itself if `lineStart` holds. -/
structure EndsLine (lineStart : Bool) (before : List Char) : Prop where
  empty : before = [] → lineStart = true
  newline : ∀ c, before.getLast? = some c → c = '\n'

theorem endsLine_nil {lineStart : Bool} : EndsLine lineStart [] ↔ lineStart = true :=
  ⟨fun h => h.empty rfl, fun h => ⟨fun _ => h, fun _ hc => by cases hc⟩⟩

theorem endsLine_cons {lineStart : Bool} {c : Char} {cs : List Char} :
    EndsLine lineStart (c :: cs) ↔ EndsLine (c == '\n') cs := by
  have hne : ∀ d ds, (d :: ds : List Char) ≠ [] := List.cons_ne_nil
  cases cs with
  | nil =>
      rw [endsLine_nil, beq_iff_eq]
      refine ⟨fun h => h.newline c rfl, fun h => ⟨fun hnil => absurd hnil (hne _ _), ?_⟩⟩
      rintro d ⟨rfl⟩
      exact h
  | cons d ds =>
      constructor
      · intro h
        refine ⟨fun hnil => absurd hnil (hne _ _), fun e he => h.newline e ?_⟩
        rw [List.getLast?_cons_cons, he]
      · intro h
        refine ⟨fun hnil => absurd hnil (hne _ _), fun e he => h.newline e ?_⟩
        rwa [List.getLast?_cons_cons] at he

/-- **The class that is found** is the one at the leftmost line start where a name is read. -/
theorem firstRepository?_eq_some_iff {lineStart : Bool} :
    firstRepository? lineStart text = some name ↔
      ∃ before rest, text = before ++ rest ∧ EndsLine lineStart before ∧
        readRepository? rest = some name ∧
        ∀ earlier more, text = earlier ++ more → EndsLine lineStart earlier →
          (readRepository? more).isSome = true → before.length ≤ earlier.length := by
  induction text generalizing lineStart with
  | nil =>
      refine iff_of_false (fun h => by cases h) ?_
      rintro ⟨before, rest, hnil, -, hread, -⟩
      obtain ⟨-, rfl⟩ := List.append_eq_nil_iff.mp hnil.symm
      cases hread
  | cons c cs ih =>
      rw [firstRepository?, Option.or_eq_some_iff, ih]
      constructor
      · rintro (hhere | ⟨hnone, before, rest, rfl, hline, hread, hleast⟩)
        · split at hhere
          · rename_i hline
            exact ⟨[], c :: cs, rfl, endsLine_nil.mpr hline, hhere, fun _ _ _ _ _ => Nat.zero_le _⟩
          · cases hhere
        · refine ⟨c :: before, rest, rfl, endsLine_cons.mpr hline, hread, ?_⟩
          intro earlier more hsplit hearlier hmore
          cases earlier with
          | nil =>
              obtain rfl : c :: (before ++ rest) = more := hsplit
              rw [if_pos (endsLine_nil.mp hearlier)] at hnone
              rw [hnone] at hmore
              cases hmore
          | cons d ds =>
              obtain ⟨rfl, hcs⟩ := List.cons_eq_cons.mp hsplit
              exact Nat.succ_le_succ (hleast ds more hcs (endsLine_cons.mp hearlier) hmore)
      · rintro ⟨before, rest, hsplit, hline, hread, hleast⟩
        cases before with
        | nil =>
            obtain rfl : c :: cs = rest := hsplit
            exact Or.inl (by rw [if_pos (endsLine_nil.mp hline)]; exact hread)
        | cons d ds =>
            obtain ⟨rfl, rfl⟩ := List.cons_eq_cons.mp hsplit
            refine Or.inr ⟨?_, ds, rest, rfl, endsLine_cons.mp hline, hread, ?_⟩
            · split
              · rename_i hstart
                rw [← Option.not_isSome_iff_eq_none]
                intro hhere
                exact Nat.not_succ_le_zero _ (hleast [] _ rfl (endsLine_nil.mpr hstart) hhere)
              · rfl
            · intro earlier more hmore hearlier hsome
              exact Nat.le_of_succ_le_succ (hleast (c :: earlier) more (by rw [hmore]; rfl)
                (endsLine_cons.mpr hearlier) hsome)

theorem exists_firstRepository? {lineStart : Bool} {before rest : List Char}
    (hline : EndsLine lineStart before) (h : readRepository? rest = some name) :
    ∃ first, firstRepository? lineStart (before ++ rest) = some first := by
  induction before generalizing lineStart with
  | nil =>
      cases rest with
      | nil => cases h
      | cons c cs =>
          refine ⟨name, ?_⟩
          rw [List.nil_append, firstRepository?, if_pos (endsLine_nil.mp hline), h]
          rfl
  | cons c cs ih =>
      obtain ⟨first, hfirst⟩ := ih (endsLine_cons.mp hline)
      rw [List.cons_append, firstRepository?, hfirst]
      exact Option.isSome_iff_exists.mp (by rw [Option.isSome_or, Option.isSome_some, Bool.or_true])

theorem isRepository_of_firstRepository? {lineStart : Bool}
    (h : firstRepository? lineStart text = some name) : IsRepository name := by
  obtain ⟨before, rest, -, -, hread, -⟩ := firstRepository?_eq_some_iff.mp h
  exact isRepository_of_readRepository? hread

/-- **The repository class that is found has the name of one.** -/
theorem isRepository_of_repositoryName? {source repository : String}
    (h : repositoryName? source = some repository) : IsRepository repository.toList := by
  obtain ⟨name, hname, rfl⟩ := Option.map_eq_some_iff.mp h
  rw [String.toList_ofList]
  exact isRepository_of_firstRepository? hname

end UseCases.Declaration
