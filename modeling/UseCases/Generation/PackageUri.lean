/-
Package URIs of Dart files.

A file inside the `lib` directory of a package is imported as `package:<name>/<path>`,
where the path starts after that directory. Both kinds of slashes separate the parts of a
path, and a URI always ends in `.dart`.
-/
import UseCases.Dart.Library

namespace UseCases.Generation

open Text

/-- The extension of a Dart file. -/
def dartExtension : List Char := ".dart".toList

/-- The path with every backslash turned into a slash. -/
def forwardSlashes (path : List Char) : List Char :=
  path.map fun c => if c = '\\' then '/' else c

/-- The part of a path after its first `lib` directory. -/
def afterLib? (path : List Char) : Option (List Char) :=
  (after? "lib/".toList path).or (afterFirst? "/lib/".toList path)

/-- The part of a path that a package URI names. Outside a `lib` directory it is the whole
path, without leading `./` and slashes. -/
def libraryPath (path : List Char) : List Char :=
  let path := forwardSlashes path
  (afterLib? path).getD ((dropCopies "./".toList path).dropWhile (· == '/'))

/-- The URI, ending in `.dart`. -/
def withExtension (uri : List Char) : List Char :=
  if endsWith dartExtension uri then uri else uri ++ dartExtension

/-- The package URI of a file. -/
def packageUri (package path : String) : String :=
  let head := "package:" ++ package ++ "/"
  String.ofList (withExtension (head.toList ++ libraryPath path.toList))

/-- Where a repository lives, and where its `Failure` type does. -/
structure ImportContext where
  /-- The name of the package. -/
  package : String
  /-- The file that declares the repository. -/
  declaration : String
  /-- The file of the `Failure` type, inside `lib`. -/
  failure : String
deriving Repr, DecidableEq

namespace ImportContext

/-- The import of the repository's file. -/
def declarationImport (c : ImportContext) : Dart.Import :=
  ⟨packageUri c.package c.declaration⟩

/-- The import of the `Failure` type. -/
def failureImport (c : ImportContext) : Dart.Import :=
  ⟨packageUri c.package c.failure⟩

end ImportContext

end UseCases.Generation
