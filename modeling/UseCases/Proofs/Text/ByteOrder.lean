/-
The order of texts by their bytes.

Texts compare by their characters and names on a disk by their bytes, and the two orders are one.
The encoding of a character starts with a byte that tells how many bytes follow, and each of those
carries six bits of the character.  So a greater character has a greater first byte, or the same one
and a greater remainder, which is written in digits of six bits, the most significant first.
-/
import Mathlib.Algebra.Order.Group.Nat
import Mathlib.Data.String.Basic

namespace UseCases.Text

variable {m n : Nat} {x y : List UInt8} {c d : Char}

/-- The bytes of a text in UTF-8. -/
def bytes (text : List Char) : List UInt8 :=
  text.flatMap String.utf8EncodeChar

end UseCases.Text
