/-
# Bindery.Unit.Constants -- the byte-length constants of a unit.

Every unit declares the lengths of the public key, the secret key and the signature of its parameter
set, under names that start with the variant's symbol stem.  Reference headers define constants of
the same names.
-/
import Bindery.Catalog.Parameters

namespace Bindery

/-- A named byte length. -/
structure Constant where
  name : String
  value : Nat
deriving Repr, DecidableEq

/-- The three byte lengths of a unit. -/
structure ByteLengths where
  publicKey : Constant
  secretKey : Constant
  signature : Constant
deriving Repr, DecidableEq

/-- The constants in the order in which they are declared and checked. -/
def ByteLengths.all (b : ByteLengths) : List Constant :=
  [b.publicKey, b.secretKey, b.signature]

/-- The byte lengths of a variant. -/
def Variant.byteLengths (v : Variant) : ByteLengths where
  publicKey := ⟨v.symbolStem ++ "CRYPTO_PUBLICKEYBYTES", v.parameters.publicKeyBytes⟩
  secretKey := ⟨v.symbolStem ++ "CRYPTO_SECRETKEYBYTES", v.parameters.secretKeyBytes⟩
  signature := ⟨v.symbolStem ++ "CRYPTO_BYTES", v.parameters.signatureBytes⟩

end Bindery
