import CodeView.Cursor

/-!
# Global symbols

The header before the global symbol records. The records themselves are not decoded.
-/

namespace CodeView

/-- The hash functions in use and the sizes of the three parts. -/
structure GlobalSymbols where
  /-- number of the symbol hash function, zero for none -/
  symbolHash : UInt16
  /-- number of the address hash function, zero for none -/
  addressHash : UInt16
  /-- bytes of symbol records -/
  symbolsSize : UInt32
  /-- bytes of the symbol hash table -/
  symbolHashSize : UInt32
  /-- bytes of the address hash table -/
  addressHashSize : UInt32
  deriving DecidableEq, Repr

/-- Reads the header, field by field. -/
def GlobalSymbols.read : Read GlobalSymbols := do
  let symbolHash ← Read.word UInt16
  let addressHash ← Read.word UInt16
  let symbolsSize ← Read.word UInt32
  let symbolHashSize ← Read.word UInt32
  let addressHashSize ← Read.word UInt32
  return ⟨symbolHash, addressHash, symbolsSize, symbolHashSize, addressHashSize⟩

end CodeView
