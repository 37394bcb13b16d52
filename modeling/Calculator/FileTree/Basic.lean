import Calculator.Text.Utf8

/-!
# File trees

Directories, regular files and symbolic links, and the place of each in the tree as the list of
names that leads to it from the root. A tree also knows the directory that relative paths start
from.
-/

namespace Calculator

abbrev Location := List String

inductive Node where
  | file (content : Bytes)
  | directory (entries : List (String × Node))
  | link (target : String)

namespace Node

def empty : Node := .directory []

def child? (name : String) : Node → Option Node
  | .directory entries => (entries.find? (·.1 == name)).map (·.2)
  | _ => none

def at? (node : Node) : Location → Option Node
  | [] => some node
  | name :: rest => (node.child? name).bind (·.at? rest)

def setEntry (name : String) (node : Option Node) : List (String × Node) → List (String × Node)
  | [] => match node with
    | some n => [(name, n)]
    | none => []
  | (k, v) :: rest =>
    if k = name then
      match node with
      | some n => (k, n) :: rest
      | none => rest
    else (k, v) :: setEntry name node rest

def set (replacement : Option Node) : Location → Node → Node
  | [], node => replacement.getD node
  | name :: rest, .directory entries =>
    let below := (Node.directory entries).child? name
    let after := match rest with
      | [] => replacement
      | _ => some (set replacement rest (below.getD empty))
    .directory (setEntry name after entries)
  | _ :: _, node => node

end Node

def IsPlainName (name : String) : Prop :=
  name ≠ "" ∧ name ≠ "." ∧ name ≠ ".." ∧ '/' ∉ name.toList

instance (name : String) : Decidable (IsPlainName name) :=
  inferInstanceAs (Decidable (_ ∧ _ ∧ _ ∧ _))

structure FileTree where
  root : Node
  current : Location
  current_plain : ∀ name ∈ current, IsPlainName name := by decide

namespace FileTree

def empty : FileTree where
  root := .empty
  current := []

def node? (tree : FileTree) (place : Location) : Option Node :=
  tree.root.at? place

def set (tree : FileTree) (place : Location) (node : Option Node) : FileTree :=
  { tree with root := tree.root.set node place }

end FileTree

namespace Location

def path (place : Location) : String :=
  match place with
  | [] => "/"
  | _ => String.join (place.map ("/" ++ ·))

def isWithin (place outer : Location) : Bool :=
  outer.isPrefixOf place

end Location

end Calculator
