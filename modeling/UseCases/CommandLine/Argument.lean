/-
Arguments: what the words of a command line say.

An argument that starts with a hyphen names switches: one by its long name after two
hyphens, or several by their letters after one. The value of an option follows in the same
argument, after an equals sign if need be, or is the next argument. All other arguments are
operands, and after two hyphens alone there are only operands.
-/
import UseCases.CommandLine.Switch

namespace UseCases.CommandLine

/-- One thing that an argument says. -/
inductive Item where
  /-- A switch is given, with an empty value if it is a flag. -/
  | given (s : Switch) (value : String)
  | operand (text : String)
  /-- There is no such switch, or its value is missing or misplaced. -/
  | mistake
deriving Repr, DecidableEq

/-- What an argument says by itself. -/
inductive Meaning where
  | complete (said : List Item)
  /-- Some items, and an option whose value is the next argument. -/
  | awaits (said : List Item) (s : Switch)
  /-- All further arguments are operands. -/
  | separator
deriving Repr, DecidableEq

/-- The meaning with one more item in front. -/
def Meaning.after (item : Item) : Meaning → Meaning
  | .complete said => .complete (item :: said)
  | .awaits said s => .awaits (item :: said) s
  | .separator => .separator

/-- The argument names switches. A hyphen alone is an operand. -/
def namesSwitch (arg : String) : Bool :=
  match arg.toList with
  | '-' :: _ :: _ => true
  | _ => false

/-- The text without an equals sign in front. -/
def withoutEquals : List Char → List Char
  | '=' :: cs => cs
  | cs => cs

/-- What letters after one hyphen say. -/
def lettersMeaning (known : List Switch) : List Char → Meaning
  | [] => .complete []
  | c :: cs =>
    match known.find? fun s => s.short? == some c with
    | none => .complete [.mistake]
    | some s =>
      if !s.takesValue then (lettersMeaning known cs).after (.given s "")
      else if cs.isEmpty then .awaits [] s
      else .complete [.given s (String.ofList (withoutEquals cs))]

/-- What the text after two hyphens says. -/
def wordMeaning (known : List Switch) (text : List Char) : Meaning :=
  let name := text.takeWhile (· != '=')
  let attached := text.drop name.length
  match known.find? fun s => s.long.toList == name with
  | none => .complete [.mistake]
  | some s =>
    match s.takesValue, attached.isEmpty with
    | true, true => .awaits [] s
    | true, false => .complete [.given s (String.ofList (withoutEquals attached))]
    | false, true => .complete [.given s ""]
    | false, false => .complete [.mistake]

/-- What an argument says, when these switches are known. -/
def meaning (known : List Switch) (arg : String) : Meaning :=
  match arg.toList with
  | ['-', '-'] => .separator
  | '-' :: '-' :: text => wordMeaning known text
  | ['-'] => .complete [.operand arg]
  | '-' :: letters => lettersMeaning known letters
  | _ => .complete [.operand arg]

/-- What some arguments say. The value of an option names no switches. -/
def items (known : List Switch) : List String → List Item
  | [] => []
  | arg :: rest =>
    match meaning known arg with
    | .separator => rest.map .operand
    | .complete first => first ++ items known rest
    | .awaits first s =>
      match rest with
      | [] => first ++ [.mistake]
      | value :: rest =>
        if namesSwitch value then first ++ [.mistake]
        else first ++ .given s value :: items known rest

end UseCases.CommandLine
