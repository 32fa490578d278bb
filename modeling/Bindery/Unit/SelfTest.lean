/-
# Bindery.Unit.SelfTest -- the self-test of a unit.

A unit can test itself: it generates a key pair, signs a message and verifies the signature, through
its own raw declarations. The arguments of the three calls are bound by name to values that the
calls share; a pointer of any other name gets a buffer of its own, filled with one byte, and a value
of any other name gets its default.
-/
import Bindery.Unit.Constants
import Bindery.Wrapper.Signature

namespace Bindery

/-! ## Fixtures -/

/-- What a call of the self-test passes for a pointer. -/
inductive PointerFixture where
  | publicKey
  | secretKey
  | signature
  | signatureLength
  | message
  /-- A buffer of the pointee's type, filled with one byte. -/
  | filler
deriving Repr, DecidableEq

/-- The fixture for a pointer of a name. -/
def PointerFixture.named : String → PointerFixture
  | "pk" => .publicKey
  | "sk" => .secretKey
  | "sig" => .signature
  | "siglen" => .signatureLength
  | "m" | "msg" => .message
  | _ => .filler

/-- What a call of the self-test passes for a value. -/
inductive ValueFixture where
  | signatureLength
  | messageLength
  /-- The default of the type. -/
  | default
deriving Repr, DecidableEq

/-- The fixture for a value of a name. -/
def ValueFixture.named : String → ValueFixture
  | "siglen" => .signatureLength
  | "mlen" | "msglen" => .messageLength
  | _ => .default

/-- What is passed for a parameter, with the parameter's type. -/
inductive Fixture where
  | pointer (access : Access) (pointee : String) (fixture : PointerFixture)
  | value (text : String) (fixture : ValueFixture)
deriving Repr, DecidableEq

/-- **`Fixture.of name t`** -- what is passed for a parameter of this name and type. -/
def Fixture.of (name : String) : ForeignType → Fixture
  | .pointer access pointee => .pointer access pointee (.named name)
  | .value text => .value text (.named name)

/-- The type of the parameter. -/
def Fixture.type : Fixture → ForeignType
  | .pointer access pointee _ => .pointer access pointee
  | .value text _ => .value text

/-- A parameter keeps its type. -/
@[simp] theorem Fixture.type_of (name : String) (t : ForeignType) :
    (Fixture.of name t).type = t := by
  cases t <;> rfl

/-! ## Calls -/

/-- A raw call of the self-test. -/
structure TestCall where
  /-- The function's name in the catalog. -/
  function : String
  symbol : String
  /-- The parameters by name, with what is passed for them. -/
  arguments : List (String × Fixture)
deriving Repr, DecidableEq

/-! ## Plans -/

/-- The self-test of one unit. -/
structure SelfTest where
  /-- The predicates under which the test is built. -/
  predicates : List String
  message : String
  /-- The names of the constants that give the lengths of the buffers. -/
  publicKeyBytes : String
  secretKeyBytes : String
  signatureBytes : String
  keypair : TestCall
  sign : TestCall
  verify : TestCall
deriving Repr, DecidableEq

namespace SelfTest

/-- The message that is signed unless another is configured. -/
def defaultMessage : String := "hello world"

/-- The function that generates a key pair. -/
def keypairFunction : String := "crypto_sign_keypair"

/-- The function that signs. -/
def signFunction : String := "crypto_sign_signature"

/-- The function that verifies. -/
def verifyFunction : String := "crypto_sign_verify"

/-- The call of a function that is declared with a return value. -/
def call? (stem : String) (declarations : List Declaration) (function : String) : Option TestCall :=
  match declarations.find? fun d => d.symbol == stem ++ function with
  | some d =>
    if d.returns.isSome then
      some ⟨function, d.symbol, d.params.map fun p => (p.1, .of p.1 p.2)⟩
    else none
  | none => none

/-- **`plan? v ds message`** -- the self-test of a unit with these declarations, or nothing if one
of the three functions is not declared with a return value. -/
def plan? (v : Variant) (declarations : List Declaration) (message : String) : Option SelfTest := do
  let keypair ← call? v.symbolStem declarations keypairFunction
  let sign ← call? v.symbolStem declarations signFunction
  let verify ← call? v.symbolStem declarations verifyFunction
  let lengths := v.byteLengths
  return {
    predicates := "test" :: v.backend.testPredicates
    message := message
    publicKeyBytes := lengths.publicKey.name
    secretKeyBytes := lengths.secretKey.name
    signatureBytes := lengths.signature.name
    keypair := keypair
    sign := sign
    verify := verify }

end SelfTest

end Bindery
