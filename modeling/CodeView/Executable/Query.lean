import CodeView.Executable

/-!
# Questions in virtual addresses

What can be asked of the debug information of an executable, as data. A resolver in virtual
addresses answers one question after the other and keeps the index of its files; the executable
answers each question with a resolver made for it alone.
-/

namespace CodeView

/-- What can be asked of a resolver that works in virtual addresses. -/
inductive VirtualQuery
  /-- the source of the code at an address -/
  | address (address : Address)
  /-- the address of a line of a file -/
  | line (file : String) (line : UInt16)
  /-- what can be asked of the resolver in code offsets underneath -/
  | code (query : Query)
  deriving DecidableEq, Repr

/-- What a resolver that works in virtual addresses answers. -/
inductive VirtualAnswer
  | location (location? : Option Location)
  | address (address? : Option Address)
  | code (answer : Answer)
  deriving DecidableEq, Repr

namespace VirtualResolver

/-- Answers one question. -/
def ask (r : VirtualResolver) : VirtualQuery → VirtualAnswer × VirtualResolver
  | .address address => (.location (r.resolve address), r)
  | .line file line =>
    let (address?, r) := r.addressOf file line
    (.address address?, r)
  | .code query =>
    let (answer, resolver) := r.resolver.ask query
    (.code answer, { r with resolver := resolver })

/-- Answers questions one after the other. -/
def askAll (r : VirtualResolver) : List VirtualQuery → List VirtualAnswer × VirtualResolver
  | [] => ([], r)
  | query :: rest =>
    let (answer, r) := r.ask query
    let (answers, r) := r.askAll rest
    (answer :: answers, r)

end VirtualResolver

/-- Answers one question by itself. -/
def Executable.ask (exe : Executable) : VirtualQuery → VirtualAnswer
  | .address address => .location (exe.resolve address)
  | .line file line => .address (exe.addressOf file line)
  | .code query => .code (exe.resolver.ask query).1

end CodeView
