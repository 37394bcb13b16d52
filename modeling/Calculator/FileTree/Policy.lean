import Calculator.FileTree.Resolve
import Calculator.Settings.Basic

/-!
# Which paths may be read

A path that names a link may be refused as such. Otherwise the place that the path leads to counts:
it must lie in the root directory, if one is set, whatever way the path takes.
-/

namespace Calculator

inductive PathRefusal where
  | outsideRoot (place root : Location)
  | linkNotAllowed (path : String)
  | cannotResolve (path : String) (fault : FileFault)
  | notFound (path : String)
  | rootFault (root : String) (fault : FileFault)
deriving DecidableEq, Repr

def PathRefusal.message : PathRefusal → String
  | .outsideRoot place root =>
    s!"Path '{place.path}' is outside allowed root directory '{root.path}'"
  | .linkNotAllowed path => s!"Symlinks are not allowed: '{path}'"
  | .cannotResolve path fault => s!"Cannot canonicalize path '{path}': {fault.message}"
  | .notFound path => s!"Path does not exist: '{path}'"
  | .rootFault root fault => s!"IO error for path '{root}': {fault.message}"

namespace FilePolicy

def resolve (tree : FileTree) (path : String) : Except PathRefusal Location :=
  match tree.resolve path with
  | .ok place => .ok place
  | .error .notFound => .error (.notFound path)
  | .error fault => .error (.cannotResolve path fault)

def resolveRoot (tree : FileTree) (root : String) : Except PathRefusal Location :=
  match tree.resolve root with
  | .ok place => .ok place
  | .error fault => .error (.rootFault root fault)

def permit (policy : FilePolicy) (tree : FileTree) (path : String) : Except PathRefusal Location :=
  if tree.isLink path ∧ policy.allowSymlinks = false then .error (.linkNotAllowed path)
  else do
    let place ← resolve tree path
    match policy.rootPath with
    | none => .ok place
    | some root =>
      let outer ← resolveRoot tree root
      if place.isWithin outer then .ok place else .error (.outsideRoot place outer)

end FilePolicy

end Calculator
