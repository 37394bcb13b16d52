import Calculator.FileTree.Resolve

/-!
# Changing a file tree

Files, directories and links are made and removed by path. The directories that lead to a new entry
are made when they are missing, and links among them are followed.
-/

namespace Calculator.FileTree

def enter (tree : FileTree) (here : Location) : List String → FileTree × Location
  | [] => (tree, here)
  | name :: rest =>
    match tree.walk true linkLimit here [name] with
    | .ok place => enter tree place rest
    | .error _ => enter (tree.set (here ++ [name]) (some .empty)) (here ++ [name]) rest

def start (tree : FileTree) (path : String) : Location :=
  if isAbsolute path then [] else tree.current

def enterParent (tree : FileTree) (path : String) : FileTree × Location × String :=
  let all := (names path).filter (· ≠ "")
  let (tree, parent) := tree.enter (tree.start path) all.dropLast
  (tree, parent, all.getLastD "")

def makeDirectory (tree : FileTree) (path : String) : FileTree :=
  (tree.enter (tree.start path) ((names path).filter (· ≠ ""))).1

def write (tree : FileTree) (path : String) (content : Bytes) : FileTree :=
  let (tree, parent, name) := tree.enterParent path
  let place := match tree.walk true linkLimit parent [name] with
    | .ok place => place
    | .error _ => parent ++ [name]
  tree.set place (some (.file content))

def makeLink (tree : FileTree) (path target : String) : FileTree :=
  let (tree, parent, name) := tree.enterParent path
  tree.set (parent ++ [name]) (some (.link target))

def remove (tree : FileTree) (path : String) : FileTree :=
  match tree.walk false linkLimit (tree.start path) ((names path).filter (· ≠ "")) with
  | .ok place => tree.set place none
  | .error _ => tree

end Calculator.FileTree
