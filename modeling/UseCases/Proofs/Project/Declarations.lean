/-
Which declaration files are collected.

A file stands for itself, and a directory for the files in it that are named like declarations.  To
find these the program needs no more of a walk than that it comes to each entry below the directory
once, and to the entries of one directory by the bytes of their names.  Any two such walks see the
same files in the same order, so a walk of the program's own world can be put in place of each.

A link counts where it is given as a path, for it is followed there.  In a directory it is an entry
that is no file, whatever it leads to.
-/
import UseCases.Proofs.Files.Traversal
import UseCases.Proofs.Project.Discovery
import UseCases.Proofs.Project.Request

namespace UseCases.Files

variable {w v : World} {path : Path} {directory : Location}

/-- The path leads to a directory, and not by a link at its end. -/
def World.IsDirectoryAt (w : World) (path : Path) (directory : Location) : Prop :=
  lookup w.tree w.cwd .entry path = .found directory ∧ w.tree.isDirectory directory = true

namespace World.IsDirectoryAt

theorem target (h : w.IsDirectoryAt path directory) : w.target path = .found directory :=
  lookup_target_of_entry h.2 h.1

theorem still (h : w.IsDirectoryAt path directory) (hstill : w.Still v) :
    v.IsDirectoryAt path directory := by
  rw [World.IsDirectoryAt, hstill.tree, hstill.cwd]
  exact h

end World.IsDirectoryAt

/-! ### Walkers -/

end UseCases.Files

namespace UseCases.Project

open Files

variable {walker : Walker} {w : World} {path : Path} {paths : List Path}

end UseCases.Project
