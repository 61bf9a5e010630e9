/-
Sources that differ in their comments.

What is extracted of a source, and the repository class that is found in it, are read from the source
without its comments.  A closed block comment leaves its newlines there and a line comment the end
of its line, so the text in such comments may be exchanged for any other that keeps the newlines:
quotes, escapes, halves of markers and whole declarations in it are not read.

The reader has to stand in code before the comment.  Just after a slash it does not: that slash
and the one of `/*` are a line comment.
-/
import UseCases.Declaration.Extraction
import UseCases.Declaration.Repository
import UseCases.Proofs.Dart.BlockComment

namespace UseCases.Declaration

open Dart

/-- The sources differ in the text of some closed block comments and of some line comments that end
with their line, and have the same newlines there. -/
inductive Recommented : List Char → List Char → Prop
  | same (source : List Char) : Recommented source source
  | block {a c c' b b' : List Char} (code : Region.code.after a = .code)
      (comment : IsBlockComment c) (comment' : IsBlockComment c')
      (newlines : c.count '\n' = c'.count '\n') (rest : Recommented b b') :
      Recommented (a ++ c ++ b) (a ++ c' ++ b')
  | line {a t t' b b' : List Char} (code : Region.code.after a = .code) (text : '\n' ∉ t)
      (text' : '\n' ∉ t') (rest : Recommented b b') :
      Recommented (a ++ '/' :: '/' :: (t ++ '\n' :: b)) (a ++ '/' :: '/' :: (t' ++ '\n' :: b'))

variable {a b c t source source' : List Char}

theorem stripComments_around_block (h : Region.code.after a = .code) (hc : IsBlockComment c)
    (b : List Char) :
    stripComments (a ++ c ++ b)
      = stripComments a ++ List.replicate (c.count '\n') '\n' ++ stripComments b := by
  rw [List.append_assoc, stripComments_append h, stripComments_blockComment hc, List.filter_beq,
    List.append_assoc]

theorem stripComments_around_line (h : Region.code.after a = .code) (ht : '\n' ∉ t)
    (b : List Char) :
    stripComments (a ++ '/' :: '/' :: (t ++ '\n' :: b))
      = stripComments a ++ '\n' :: stripComments b := by
  rw [stripComments_append h, stripComments_lineComment ht]

/-- **Sources that differ in their comments only are the same without them.** -/
theorem Recommented.stripComments_eq (h : Recommented source source') :
    stripComments source = stripComments source' := by
  induction h with
  | same source => rfl
  | block code comment comment' newlines rest ih =>
      rw [stripComments_around_block code comment, stripComments_around_block code comment',
        newlines, ih]
  | line code text text' rest ih =>
      rw [stripComments_around_line code text, stripComments_around_line code text', ih]

/--
**The text of comments never matters.**  A block comment that its reader meets in code leaves its
newlines, whatever it contains, and a line comment leaves the end of its line; what stands
before and after is stripped as if it stood alone.  So sources that differ in the text of such
comments, and have the same newlines in it, have the same methods, remarks and log, and the same
repository class.
-/
theorem extract_ignores_comments :
    (∀ a b c : List Char, Region.code.after a = .code → IsBlockComment c →
      stripComments (a ++ c ++ b)
        = stripComments a ++ List.replicate (c.count '\n') '\n' ++ stripComments b) ∧
    (∀ a b t : List Char, Region.code.after a = .code → '\n' ∉ t →
      stripComments (a ++ '/' :: '/' :: (t ++ '\n' :: b))
        = stripComments a ++ '\n' :: stripComments b) ∧
    ∀ source source' : String, Recommented source.toList source'.toList →
      extract source = extract source' ∧ repositoryName? source = repositoryName? source' := by
  refine ⟨fun a b c h hc => stripComments_around_block h hc b,
    fun a b t h ht => stripComments_around_line h ht b, fun source source' h => ?_⟩
  rw [extract, extract, repositoryName?, repositoryName?, h.stripComments_eq]
  exact ⟨rfl, rfl⟩

/-- A comment with halves of markers, quotes and a comment in it. -/
def knottedComment : List Char :=
  "/*/ ' /*/\"*/*\n*/".toList

/-- A comment that would declare a method and a class. -/
def declaringComment : List Char :=
  "/*Stream<int>a();\nclass ARepository*/".toList

theorem isBlockComment_knottedComment : IsBlockComment knottedComment := by
  have hinside : Closes "/\"*/".toList := by
    repeat (first | exact .close | refine .char (by decide) (by decide) ?_)
  have hafter : Closes "*\n*/".toList := by
    repeat (first | exact .close | refine .char (by decide) (by decide) ?_)
  refine ⟨"/ ' /*/\"*/*\n*/".toList, rfl, ?_⟩
  iterate 4 refine .char (by decide) (by decide) ?_
  exact .nested hinside hafter

theorem isBlockComment_declaringComment : IsBlockComment declaringComment := by
  refine ⟨"Stream<int>a();\nclass ARepository*/".toList, rfl, ?_⟩
  repeat (first | exact .close | refine .char (by decide) (by decide) ?_)

theorem knottedComment_is_ignored :
    Region.code.after "x ".toList = .code ∧ IsBlockComment knottedComment ∧
      IsBlockComment declaringComment ∧ '\n' ∉ " it's".toList ∧
      stripComments ("x ".toList ++ knottedComment ++ "y".toList) = "x \ny".toList ∧
      stripComments ("x ".toList ++ '/' :: '/' :: (" it's".toList ++ '\n' :: "y".toList))
        = "x \ny".toList ∧
      let knotted := String.ofList ("x ".toList ++ knottedComment ++ "y".toList)
      let declaring := String.ofList ("x ".toList ++ declaringComment ++ "y".toList)
      extract knotted = extract declaring ∧
        repositoryName? knotted = repositoryName? declaring := by
  have hcode : Region.code.after "x ".toList = .code := by decide
  have htext : '\n' ∉ " it's".toList := by decide
  obtain ⟨hblock, hline, hsame⟩ := extract_ignores_comments
  refine ⟨hcode, isBlockComment_knottedComment, isBlockComment_declaringComment, htext, ?_, ?_,
    hsame _ _ ?_⟩
  · rw [hblock _ _ _ hcode isBlockComment_knottedComment]
    decide
  · rw [hline _ _ _ hcode htext]
    decide
  · rw [String.toList_ofList, String.toList_ofList]
    exact .block hcode isBlockComment_knottedComment isBlockComment_declaringComment (by decide)
      (.same _)

end UseCases.Declaration
