/-
# Bindery.Source.Wrapper -- the source of declarations and wrappers.

A declaration is one listing inside the block of foreign functions.  A wrapper is its description as
documentation, its signature, and its statements.  The raw value of the call is bound to a name that
no parameter and no storage of the wrapper has.
-/
import Bindery.Source.Layout
import Bindery.Text.Blank
import Bindery.Unit.Assembly

namespace Bindery

open Source

/-! ## Declarations -/

/-- A parameter with its type. -/
def Source.typed (name type : String) : String :=
  name ++ ": " ++ type

/-- The mark of a return type, if there is one. -/
def Source.arrow : Option String → String
  | some type => " -> " ++ type
  | none => ""

/-- The listing of a declaration. -/
def Declaration.listing (d : Declaration) : Listing where
  level := 1
  block := none
  opening := "pub fn " ++ d.symbol ++ "("
  items := d.params.map fun p => typed p.1 p.2.render
  closing := ")" ++ arrow (d.returns.map ForeignType.render) ++ ";"

/-! ## Signatures -/

/-- The documentation line of a line of a description. -/
def Source.docLine (text : String) : String :=
  if text.isEmpty then "///" else "/// " ++ text

/-- The documentation of a description. -/
def Source.docLines (description : String) : List String :=
  (Text.lines description.toList).map fun l => docLine (String.ofList l)

/-- One item stands for itself; any other number of items makes a tuple. -/
def Source.tuple : List String → String
  | [item] => item
  | items => "(" ++ ", ".intercalate items ++ ")"

/-- The return type of a wrapper. -/
def ReturnShape.render? : ReturnShape → Option String
  | .unit => none
  | .raw type => some type.render
  | .outputs types => some (tuple types)
  | .result types _ => some ("Result<" ++ tuple types ++ ", ()>")

/-- The listing of a signature, up to the brace that opens the body. -/
def Signature.listing (s : Signature) : Listing where
  level := 0
  block := none
  opening := "pub fn " ++ s.name ++ "("
  items := s.params.map fun p => typed p.1 p.2.render
  closing := ")" ++ arrow s.returns.render? ++ " \x7b"

/-! ## Calls -/

/-- The listing of a call, whose value is bound as `binding` says. -/
def Source.callListing (level : Nat) (binding symbol : String) (operands : List String) :
    Listing where
  level := level
  block := some ⟨binding ++ "unsafe \x7b", "\x7d;"⟩
  opening := symbol ++ "("
  items := operands
  closing := ")"

/-- The start of a statement that binds a name. -/
def Source.binding (name : String) : String :=
  "let " ++ name ++ " = "

/-- The pointer that a reference or an array gives. -/
def Access.pointerCast : Access → String
  | .shared => " as *const _"
  | .exclusive => " as *mut _"

/-- An argument of the call of a wrapper. -/
def CallArgument.render (a : CallArgument) : String :=
  let pointer := match a.passing with
    | .value => a.storage
    | .borrow access => a.storage ++ access.pointerCast
    | .uninit => a.storage ++ ".as_mut_ptr()"
  match a.cast with
  | some type => pointer ++ " as " ++ type.render
  | none => pointer

/-! ## The name of the raw value -/

/-- The candidates for the name of the raw value. -/
def Source.resultName (underscores : Nat) : String :=
  "res" ++ String.ofList (List.replicate underscores '_')

/-- **`freshName taken`** -- the shortest candidate that is not taken.  One more candidate than
there are taken names is enough. -/
def Source.freshName (taken : List String) : String :=
  resultName (((List.range (taken.length + 1)).find? fun n =>
    !taken.contains (resultName n)).getD 0)

/-- The storages that a statement hands to the call. -/
def Statement.storages : Statement → List String
  | .call _ arguments _ => arguments.map (·.storage)
  | _ => []

/-- The name to which a wrapper binds the raw value. -/
def Wrapper.resultName (w : Wrapper) : String :=
  freshName (w.body.flatMap Statement.storages ++ w.signature.params.map (·.1))

/-! ## Wrappers -/

/-- The lines of a statement, where the raw value is called `result`. -/
def Statement.lines (result : String) : Statement → List String
  | .allocate name type =>
    [line 1 ("let mut " ++ name ++ " = MaybeUninit::<" ++ type ++ ">::uninit();")]
  | .call symbol arguments captured =>
    (callListing 1 (if captured then binding result else "") symbol
    (arguments.map CallArgument.render)).lines
  | .failUnlessZero =>
    [line 1 ("if " ++ result ++ " != 0 \x7b"), line 2 "return Err(());", line 1 "\x7d"]
  | .assumeInit name => [line 1 (binding name ++ "unsafe \x7b " ++ name ++ ".assume_init() \x7d;")]
  | .finish .raw => [line 1 result]
  | .finish (.outputs names) => [line 1 (tuple names)]
  | .finish (.success names) => [line 1 ("Ok(" ++ tuple names ++ ")")]

/-- The documentation of a wrapper. -/
def Wrapper.docs (w : Wrapper) : List String :=
  match w.signature.description with
  | some description => docLines description
  | none => []

/-- The lines of a wrapper below its documentation. -/
def Wrapper.code (w : Wrapper) : List String :=
  w.signature.listing.lines ++ w.body.flatMap (Statement.lines w.resultName) ++ ["\x7d"]

/-- **`lines w`** -- the lines of a wrapper. -/
def Wrapper.lines (w : Wrapper) : List String :=
  w.docs ++ w.code

end Bindery
