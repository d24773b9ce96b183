import CodeView.Location
import CodeView.SourceModule
import Std.Data.HashMap

/-!
# Resolver

Questions about a list of source modules: which line produced the code at an offset, and where
the code of a line begins. An offset is looked up by walking the modules in order. A line is
looked up through an index of the files by name, which is made for the first such question and
kept for the later ones.
-/

namespace CodeView

/-- The files of each name. -/
structure NameIndex where
  /-- the files of a name, the latest first -/
  byName : Std.HashMap String (List SourceFile)

namespace NameIndex

/-- Adds a file after those that are there. -/
def add (index : NameIndex) (file : SourceFile) : NameIndex :=
  ⟨index.byName.insert file.name (file :: index.byName.getD file.name [])⟩

/-- The index of a list of files. -/
def ofFiles (files : List SourceFile) : NameIndex :=
  files.foldl add ⟨∅⟩

/-- The files of a name, in order. -/
def find (index : NameIndex) (name : String) : List SourceFile :=
  (index.byName.getD name []).reverse

theorem find_add (index : NameIndex) (file : SourceFile) (name : String) :
    (index.add file).find name =
      index.find name ++ if file.name == name then [file] else [] := by
  simp only [find, add, Std.HashMap.getD_insert]
  split
  case isTrue h => simp [eq_of_beq h]
  case isFalse => simp

/-- The index finds what walking over the files finds. -/
theorem find_ofFiles (files : List SourceFile) (name : String) :
    (ofFiles files).find name = files.filter fun file => file.name == name := by
  suffices h : ∀ index : NameIndex, (files.foldl add index).find name =
      index.find name ++ files.filter fun file => file.name == name by
    simpa [ofFiles, find] using h ⟨∅⟩
  induction files with
  | nil => simp
  | cons file rest ih =>
    intro index
    rw [List.foldl_cons, ih, find_add, List.append_assoc, List.filter_cons]
    split <;> simp

end NameIndex

/-- A view of source modules that answers questions. -/
structure Resolver where
  modules : List SourceModule
  /-- the index of their files, once a question has needed it -/
  index? : Option NameIndex

/-- What can be asked of a resolver. -/
inductive Query
  /-- the source of a code offset -/
  | address (offset : UInt32)
  /-- the code offset of a line of a file -/
  | line (file : String) (line : UInt16)
  deriving DecidableEq, Repr

/-- What a resolver answers. -/
inductive Answer
  | location (location? : Option Location)
  | offset (offset? : Option UInt32)
  deriving DecidableEq, Repr

namespace Resolver

/-- A resolver over modules, which are searched in the order given. -/
def ofModules (modules : List SourceModule) : Resolver := ⟨modules, none⟩

/-- Every file, module by module. -/
def files (r : Resolver) : List SourceFile :=
  r.modules.flatMap (·.files)

/-- The location of a code offset as one line table has it. -/
def locate? (file : SourceFile) (offset : UInt32) (table : LineTable) : Option Location :=
  if table.contains offset then
    (table.lineAt? offset).map fun line => ⟨file.name, line, table.segment⟩
  else none

/-- The source of a code offset, by the first line table that claims the offset and is not
empty. Code that no table claims has none. -/
def resolveAddress (r : Resolver) (offset : UInt32) : Option Location :=
  r.files.findSome? fun file => file.tables.findSome? (locate? file offset)

/-- The index of the files, made now if it was not yet there. -/
def index (r : Resolver) : NameIndex :=
  r.index?.getD (.ofFiles r.files)

/-- The resolver with its index in place. -/
def indexed (r : Resolver) : Resolver :=
  { r with index? := some r.index }

/-- The code offset where a line of a file begins: that of the first pair with the line. The
name must be exactly the recorded one. -/
def resolveLine (r : Resolver) (file : String) (line : UInt16) : Option UInt32 × Resolver :=
  let r := r.indexed
  ((r.index.find file).findSome? fun f => f.tables.findSome? (·.offsetOf? line), r)

/-- Answers one question. -/
def ask (r : Resolver) : Query → Answer × Resolver
  | .address offset => (.location (r.resolveAddress offset), r)
  | .line file line =>
    let (offset?, r) := r.resolveLine file line
    (.offset offset?, r)

/-- Answers questions one after the other. -/
def askAll (r : Resolver) : List Query → List Answer × Resolver
  | [] => ([], r)
  | query :: rest =>
    let (answer, r) := r.ask query
    let (answers, r) := r.askAll rest
    (answer :: answers, r)

end Resolver

end CodeView
