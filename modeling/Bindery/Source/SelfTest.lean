/-
# Bindery.Source.SelfTest -- the source of a self-test.

The test is a module of its own, built for tests alone.  Its paragraphs are separated by empty
lines.
-/
import Bindery.Source.Attribute
import Bindery.Source.Wrapper
import Bindery.Text.Literal
import Bindery.Unit.TestBody

namespace Bindery

open Source

/-! ## Operands -/

/-- What is written for an argument of a call. -/
def Operand.render : Operand → String
  | .start storage .shared => storage ++ ".as_ptr()" ++ Access.shared.pointerCast
  | .start storage .exclusive => storage ++ ".as_mut_ptr()" ++ Access.exclusive.pointerCast
  | .address name .shared => "core::ptr::addr_of!(" ++ name ++ ")" ++ Access.shared.pointerCast
  | .address name .exclusive =>
    "core::ptr::addr_of_mut!(" ++ name ++ ")" ++ Access.exclusive.pointerCast
  | .text storage access => storage ++ ".as_ptr()" ++ access.pointerCast
  | .content name => name ++ " as _"
  | .textLength storage => storage ++ ".len() as _"
  | .default => "Default::default()"

/-! ## Statements -/

/-- The byte that fills a buffer.  It is fixed, so that the test can be repeated. -/
def Source.fillerByte : String := "0xA5"

/-- The name to which the test binds the raw value of a call. -/
def Source.rawValue : String := "res"

/-- The lines of a statement. -/
def TestStatement.lines : TestStatement → List String
  | .text name message => [line 2 (binding name ++ "b\"" ++ Text.byteLiteral message ++ "\";")]
  | .array name length => [line 2 ("let mut " ++ name ++ " = [0u8; " ++ length ++ "];")]
  | .counter name => [line 2 ("let mut " ++ name ++ ": usize = 0;")]
  | .buffer name type =>
    [line 2 ("let mut " ++ name ++ " = core::mem::MaybeUninit::<" ++ type ++ ">::uninit();")]
  | .fill name =>
    [line 2 ("unsafe \x7b core::ptr::write_bytes(" ++ name ++ ".as_mut_ptr(), " ++ fillerByte ++
    ", 1) \x7d;")]
  | .call symbol operands =>
    (callListing 2 (binding rawValue) symbol (operands.map Operand.render)).lines
  | .expectZero function failure =>
    [line 2 ("assert_eq!(" ++ rawValue ++ ", 0, \"" ++ function ++ ": " ++ failure ++ "\");")]

/-! ## Tests -/

/-- **`lines t`** -- the lines of a self-test. -/
def SelfTest.lines (t : SelfTest) : List String :=
  [gateLine t.predicates, "mod tests \x7b", line 1 "use super::*;", "", line 1 "#[test]",
    line 1 "fn test_sign_verify() \x7b"] ++
    [""].intercalate (t.paragraphs.map fun paragraph => paragraph.flatMap TestStatement.lines) ++
    [line 1 "\x7d", "\x7d"]

end Bindery
