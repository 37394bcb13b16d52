import Calculator.FileTree.Basic
import Calculator.Text.Split

/-!
# Resolving paths

A path is a sequence of names, each looked up in the directory reached so far: an empty name and `.`
stay there, `..` goes up, and a link puts the names of its target in front of those that remain. At
most forty links are followed. The place that is reached has no link on the way to it.
-/

namespace Calculator

inductive FileFault where
  | notFound
  | notDirectory
  | isDirectory
  | nameTooLong
  | tooManyLinks
  | nulInName
deriving DecidableEq, Repr

def FileFault.message : FileFault → String
  | .notFound => "No such file or directory (os error 2)"
  | .notDirectory => "Not a directory (os error 20)"
  | .isDirectory => "Is a directory (os error 21)"
  | .nameTooLong => "File name too long (os error 36)"
  | .tooManyLinks => "Too many levels of symbolic links (os error 40)"
  | .nulInName => "file name contained an unexpected NUL byte"

namespace FileTree

def nameLimit : Nat := 255

/-- Number of bytes that a path with its end mark may have. -/
def pathLimit : Nat := 4096

def linkLimit : Nat := 40

def names (path : String) : List String :=
  (Text.split '/' path.toList).map String.ofList

def isAbsolute (path : String) : Bool :=
  path.toList.head? == some '/'

def byteLength (s : String) : Nat :=
  Text.byteCount s.toList

/-- Follows names from a directory. Where a link is met, `follow` goes on from the directory and
with the names that its target asks for. The last name of a path may be a link that is not followed:
then the entry is looked up and its place is not spelled out, so that only the names are limited. -/
def walkWith (tree : FileTree) (followLast : Bool)
    (follow : Location → List String → Except FileFault Location) :
    (here : Location) → (pending : List String) → Except FileFault Location
  | here, [] => .ok here
  | here, name :: rest =>
    match tree.node? here with
    | some (.directory entries) =>
      if name = "" ∨ name = "." then walkWith tree followLast follow here rest
      else if name = ".." then walkWith tree followLast follow here.dropLast rest
      else if nameLimit < byteLength name ∨
          followLast = true ∧ pathLimit ≤ byteLength (here ++ [name] : Location).path then
        .error .nameTooLong
      else
        match (Node.directory entries).child? name with
        | none => .error .notFound
        | some (.link target) =>
          if followLast = false ∧ rest = [] then .ok (here ++ [name])
          else follow (if isAbsolute target then [] else here) (names target ++ rest)
        | some _ => walkWith tree followLast follow (here ++ [name]) rest
    | _ => .error .notDirectory

def walk (tree : FileTree) (followLast : Bool) :
    (links : Nat) → (here : Location) → (pending : List String) → Except FileFault Location
  | 0 => walkWith tree followLast fun _ _ => .error .tooManyLinks
  | links + 1 => walkWith tree followLast (walk tree followLast links)

theorem walk_nil (tree : FileTree) (followLast : Bool) (links : Nat) (here : Location) :
    tree.walk followLast links here [] = .ok here := by
  cases links <;> rfl

def resolveWith (tree : FileTree) (followLast : Bool) (path : String) : Except FileFault Location :=
  if path.toList.contains '\x00' then .error .nulInName
  else if path = "" then .error .notFound
  else tree.walk followLast linkLimit (if isAbsolute path then [] else tree.current) (names path)

def resolve (tree : FileTree) (path : String) : Except FileFault Location :=
  tree.resolveWith true path

/-- Whether the path itself names a link. -/
def isLink (tree : FileTree) (path : String) : Bool :=
  if pathLimit ≤ byteLength path then false
  else
    match tree.resolveWith false path with
    | .ok place => match tree.node? place with
      | some (.link _) => true
      | _ => false
    | .error _ => false

def open? (tree : FileTree) (path : String) : Except FileFault Node :=
  if pathLimit ≤ byteLength path then .error .nameTooLong
  else do
    let place ← tree.resolve path
    match tree.node? place with
    | some node => .ok node
    | none => .error .notFound

def read (tree : FileTree) (path : String) : Except FileFault Bytes := do
  match ← tree.open? path with
  | .file content => .ok content
  | _ => .error .isDirectory

end FileTree

end Calculator
