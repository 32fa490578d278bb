/-
# Bindery.Unit.TestBody -- the statements of a self-test.

The test binds the message, the two keys, the signature and its length once, and its calls share
them.  Before each call stand the buffers that the call alone needs, each filled with one byte;
after it stands the check that its raw value is zero.  The statements come in paragraphs, one for
the shared variables and one for each call; how they are spelled is decided elsewhere.
-/
import Bindery.Unit.SelfTest

namespace Bindery

/-! ## Statements -/

/-- What is written for an argument of a call. -/
inductive Operand where
  /-- A pointer to the start of an array or a buffer that may be written. -/
  | start (storage : String) (access : Access)
  /-- A pointer to a variable. -/
  | address (name : String) (access : Access)
  /-- A pointer to the start of the message, which is only read. -/
  | text (storage : String) (access : Access)
  /-- The value of a variable, in the parameter's type. -/
  | content (name : String)
  /-- The length of the message, in the parameter's type. -/
  | textLength (storage : String)
  /-- The default of the parameter's type. -/
  | default
deriving Repr, DecidableEq

/-- A statement of the test. -/
inductive TestStatement where
  /-- Binds the message. -/
  | text (name message : String)
  /-- Declares an array of zero bytes whose length is a constant. -/
  | array (name length : String)
  /-- Declares a length of zero. -/
  | counter (name : String)
  /-- Declares an uninitialised buffer. -/
  | buffer (name type : String)
  /-- Fills a buffer with one byte. -/
  | fill (name : String)
  /-- Calls a foreign function and keeps its raw value. -/
  | call (symbol : String) (operands : List Operand)
  /-- Demands that the raw value of the call before is zero. -/
  | expectZero (function failure : String)
deriving Repr, DecidableEq

/-! ## Bodies -/

/-- The operand for a parameter. -/
def Fixture.operand (name : String) : Fixture → Operand
  | .pointer access _ .publicKey => .start "pk" access
  | .pointer access _ .secretKey => .start "sk" access
  | .pointer access _ .signature => .start "sig" access
  | .pointer access _ .signatureLength => .address "siglen" access
  | .pointer access _ .message => .text "msg" access
  | .pointer access _ .filler => .start name access
  | .value _ .signatureLength => .content "siglen"
  | .value _ .messageLength => .textLength "msg"
  | .value _ .default => .default

/-- The statements that set up a buffer of a parameter's own, if it needs one. -/
def Fixture.setUp (name : String) : Fixture → List TestStatement
  | .pointer _ pointee .filler => [.buffer name pointee, .fill name]
  | _ => []

/-- The statements of a call: its buffers, the call itself and the check of its raw value. -/
def TestCall.statements (c : TestCall) (failure : String) : List TestStatement :=
  (c.arguments.flatMap fun a => a.2.setUp a.1) ++
    [.call c.symbol (c.arguments.map fun a => a.2.operand a.1), .expectZero c.function failure]

/-- **`paragraphs t`** -- the statements of the test, paragraph by paragraph. -/
def SelfTest.paragraphs (t : SelfTest) : List (List TestStatement) :=
  [[.text "msg" t.message],
   [.array "pk" t.publicKeyBytes, .array "sk" t.secretKeyBytes, .array "sig" t.signatureBytes,
     .counter "siglen"],
   t.keypair.statements "key generation failed",
   t.sign.statements "signing failed",
   t.verify.statements "signature rejected"]

end Bindery
