/-
String literals inside one declaration.

Once the comments are gone, a cut in a declaration must not fall inside a literal. Here a
literal ends at its quote only: a declaration is on one line, so no newline can end it.
-/
import UseCases.Dart.Comment

namespace UseCases.Dart

/-- Where a reader of a declaration stands with respect to string literals. -/
inductive Literal where
  | outside
  /-- Inside a literal that `quote` closes. -/
  | inside (quote : Char)
  /-- Inside such a literal, just after a backslash. -/
  | escaped (quote : Char)
deriving Repr, DecidableEq

namespace Literal

/-- The state after one more character. -/
def next : Literal → Char → Literal
  | .outside, c => if isQuote c then .inside c else .outside
  | .inside q, c => if c = '\\' then .escaped q else if c = q then .outside else .inside q
  | .escaped q, _ => .inside q

/-- The character read from this state is code: neither inside a literal nor a quote. -/
def isCode : Literal → Char → Bool
  | .outside, c => !isQuote c
  | .inside _, _ | .escaped _, _ => false

end Literal

/-- Each character of the text with whether it is code. -/
def markCode (state : Literal) : List Char → List (Char × Bool)
  | [] => []
  | c :: cs => (c, state.isCode c) :: markCode (state.next c) cs

end UseCases.Dart
