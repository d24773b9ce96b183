import CodeView.Cursor

/-!
# Operations on cursors

What can be asked of a cursor, as data, and runs of such operations. A run begins with one cursor
at the start of a source. Windows and copies join it, and any cursor may be asked next, also after
a failure.
-/

namespace CodeView.Cursor

/-- A width of integers, in bytes. -/
inductive Width
  | one
  | two
  | four
  | eight
  deriving DecidableEq, Repr

/-- The integers of a width. -/
def Width.Integer : Width → Type
  | one => UInt8
  | two => UInt16
  | four => UInt32
  | eight => UInt64

instance : (width : Width) → Word width.Integer
  | .one => inferInstanceAs (Word UInt8)
  | .two => inferInstanceAs (Word UInt16)
  | .four => inferInstanceAs (Word UInt32)
  | .eight => inferInstanceAs (Word UInt64)

/-- What can be asked of a cursor. -/
inductive Operation
  /-- another cursor, in a window of the source -/
  | window (start length : Nat) (what : String)
  /-- another cursor in the same window and at the same position -/
  | copy
  | seek (target : Nat)
  | seekFrom (base : Nat) (offset : UInt32)
  | ensure (count size : Nat)
  | bytes (length : Nat)
  | word (width : Width)
  | words (width : Width) (count : Nat)
  | prefixedName
  | terminatedName
  deriving DecidableEq, Repr

/-- What a cursor answers. -/
inductive Value
  /-- nothing but that it is done -/
  | done
  | cursor (made : Cursor)
  | bytes (read : List UInt8)
  | number (n : Nat)
  | numbers (ns : List Nat)
  | name (text : String)

/-- The answer of a cursor, and where it stands afterwards. -/
def Operation.perform : Operation → Read Value
  | window start length what => fun c =>
    match c.window start length what with
    | .ok made => .ok (.cursor made) c
    | .error e => .error e c
  | copy => fun c => .ok (.cursor c) c
  | seek target => do
    Read.seek target
    return .done
  | seekFrom base offset => do
    Read.seekFrom base offset
    return .done
  | ensure count size => do
    Read.ensure count size
    return .done
  | bytes length => do
    let read ← Read.bytes length
    return .bytes read
  | word width => do
    let n ← Read.word width.Integer
    return .number (Word.toNat n)
  | words width count => do
    let ns ← Read.words width.Integer count
    return .numbers (ns.toList.map Word.toNat)
  | prefixedName => do
    let text ← Read.prefixedName
    return .name text
  | terminatedName => do
    let text ← Read.terminatedName
    return .name text

/-- An operation on one of several cursors. -/
structure Step where
  /-- the number of the cursor, counted from zero -/
  number : Nat
  operation : Operation
  deriving DecidableEq, Repr

/-- The cursors after a step. One that was made joins the others; asking one that does not exist
changes nothing. -/
def step (cursors : List Cursor) (s : Step) : List Cursor :=
  match cursors[s.number]? with
  | none => cursors
  | some c =>
    match s.operation.perform c with
    | .ok (.cursor made) c' => cursors.set s.number c' ++ [made]
    | .ok _ c' => cursors.set s.number c'
    | .error _ c' => cursors.set s.number c'

/-- All cursors over a source after some steps. -/
def run (source : ByteArray) (steps : List Step) : List Cursor :=
  steps.foldl step [ofBytes source]

end CodeView.Cursor
