import Spreadsheet.Document

/-! Directories and files held in memory, and where paths lead among them.
What a run does to files can be stated in such a tree. Main statement: a write changes what its own
path leads to, and nothing else. -/
namespace Spreadsheet

/-- The names on the way down to a place, the last one first. The root has none. -/
abbrev Place := List String

inductive Node
  | directory
  | file (content : ByteArray)

def Node.isDirectory : Node → Bool
  | directory => true
  | file _ => false

structure FileTree where
  nodes : List (Place × Node) := []
  workingDirectory : Place := []
  refusal : String

namespace FileTree

def maxNameSize : Nat := 255

def maxPathSize : Nat := 4095

variable (tree : FileTree)

/-- What stands at a place. The working directory and all directories above it are always there. -/
def node? (p : Place) : Option Node :=
  if p.isSuffixOf tree.workingDirectory then some .directory else tree.nodes.lookup p

def isDirectory (p : Place) : Bool :=
  (tree.node? p).any Node.isDirectory

def insert (p : Place) (node : Node) : FileTree :=
  { tree with nodes := (p, node) :: tree.nodes }

def start (path : String) : Place :=
  if path.startsWith "/" then [] else tree.workingDirectory

/-- Where a name leads from a place. A place that is no directory cannot be left, not even upwards,
but the place that is reached need not be there. -/
def enter (p : Place) (name : String) : Option Place :=
  if !tree.isDirectory p then none
  else if name = "" ∨ name = "." then some p
  else if name = ".." then some p.tail
  else if name.utf8ByteSize ≤ maxNameSize then some (name :: p)
  else none

/-- The place that a path leads to, where only the last name may be missing. -/
def locate? (path : String) : Option Place :=
  if path = "" ∨ maxPathSize < path.utf8ByteSize ∨ path.contains '\x00' then none
  else (path.splitOn "/").foldlM tree.enter (tree.start path)

def entry : Node → FileEntry
  | .directory => ⟨false, .error ⟨false, tree.refusal⟩⟩
  | .file content => ⟨true, .ok content⟩

def view : FileView := fun path =>
  (tree.locate? path).bind fun p => (tree.node? p).map tree.entry

def write (path : String) (content : ByteArray) : Except String FileTree :=
  match tree.locate? path with
  | none => .error tree.refusal
  | some p =>
    if tree.isDirectory p then .error tree.refusal else .ok (tree.insert p (.file content))

variable {tree}

theorem node?_insert {p : Place} (node : Node) (q : Place) (h : tree.isDirectory p = false) :
    (tree.insert p node).node? q = if q = p then some node else tree.node? q := by
  have outside : p.isSuffixOf tree.workingDirectory = false := by
    refine Bool.eq_false_iff.2 fun inside => ?_
    simp [isDirectory, node?, inside, Node.isDirectory] at h
  simp only [node?, insert, List.lookup_cons]
  by_cases hq : q = p
  · subst hq
    simp [outside]
  · simp [beq_eq_false_iff_ne.2 hq, hq]

theorem locate?_insert_file {p : Place} (content : ByteArray) (h : tree.isDirectory p = false) :
    (tree.insert p (.file content)).locate? = tree.locate? := by
  have same : (tree.insert p (.file content)).isDirectory = tree.isDirectory := by
    funext q
    rw [isDirectory, node?_insert _ _ h]
    split
    · next hq =>
      rw [hq, h]
      rfl
    · rfl
  have enters : (tree.insert p (.file content)).enter = tree.enter := by
    funext q name
    simp only [enter, same]
  funext path
  rw [locate?, enters]
  rfl

/-- After a write its path leads to what was written, and so does every other path to this place.
All other paths lead to what they led to before. -/
theorem view_of_write {after : FileTree} {path : String} {content : ByteArray}
    (h : tree.write path content = .ok after) (other : String) :
    after.view other =
      if tree.locate? other = tree.locate? path then some ⟨true, .ok content⟩
      else tree.view other := by
  unfold write at h
  split at h
  · contradiction
  · next p hp =>
    split at h
    · contradiction
    · next hd =>
      obtain rfl := Except.ok.inj h
      have hd := Bool.eq_false_iff.2 hd
      rw [view, locate?_insert_file content hd, hp, view]
      cases tree.locate? other with
      | none => rfl
      | some q =>
        simp only [Option.bind_some, node?_insert _ _ hd, Option.some.injEq]
        split <;> rfl

end FileTree

end Spreadsheet
