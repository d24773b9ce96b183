import CodeView.Text.Blank
import CodeView.Text.Number

/-!
# Addresses

Virtual addresses of a loaded image, which are kept apart from code offsets, and their text.
-/

namespace CodeView

/-- An address of 64 bits. -/
structure Address where
  value : UInt64
  deriving DecidableEq, Repr

namespace Address

/-- The address `n` bytes further on, if there is one. -/
def add? (a : Address) (n : UInt64) : Option Address :=
  if a.value.toNat + n.toNat < UInt64.size then some ⟨a.value + n⟩ else none

/-- The address `n` bytes before, if there is one. -/
def sub? (a : Address) (n : UInt64) : Option Address :=
  if n ≤ a.value then some ⟨a.value - n⟩ else none

/-- An address in reports: at least eight hexadecimal digits. -/
def text (a : Address) : String :=
  Text.hexWide 8 a.value.toNat

/-- Reads an address: hexadecimal after `0x` or `0X`, decimal otherwise, white space around it
aside. -/
def ofText (text : String) : Except Text.NumberError Address :=
  let limit := UInt64.size - 1
  let number :=
    match Text.trim text.toList with
    | '0' :: 'x' :: digits => Text.readUnsigned 16 limit digits
    | '0' :: 'X' :: digits => Text.readUnsigned 16 limit digits
    | digits => Text.readUnsigned 10 limit digits
  number.map fun n => ⟨UInt64.ofNat n⟩

end Address

end CodeView
