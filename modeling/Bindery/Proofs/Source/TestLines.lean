/-
# Bindery.Proofs.Source.TestLines -- the lines of a self-test.

What the statements of a self-test bind, fill, call and check is said by lines of the unit.
`Operand.IsWritten` and `TestStatement.IsWritten` give the text of an operand and the lines of a
statement, letter by letter; `AreWritten` strings statements together, with empty lines anywhere in
between.  The body of the test in a unit is written so: it holds the statements of the test, all of
them, in their order and nothing else.
-/
import Bindery.Proofs.Source.Layouts
import Bindery.Source.Unit
import Mathlib.Data.List.Forall2

namespace Bindery

open Source

/-! ## Texts of statements -/

/-- **`x.IsWritten text`** -- the text is the expression that an operand stands for. -/
inductive Operand.IsWritten : Operand → String → Prop
  | start (storage : String) :
      IsWritten (.start storage .shared) (storage ++ ".as_ptr() as *const _")
  | startMut (storage : String) :
      IsWritten (.start storage .exclusive) (storage ++ ".as_mut_ptr() as *mut _")
  | address (name : String) :
      IsWritten (.address name .shared) ("core::ptr::addr_of!(" ++ name ++ ") as *const _")
  | addressMut (name : String) :
      IsWritten (.address name .exclusive) ("core::ptr::addr_of_mut!(" ++ name ++ ") as *mut _")
  | text (storage : String) :
      IsWritten (.text storage .shared) (storage ++ ".as_ptr() as *const _")
  | textMut (storage : String) :
      IsWritten (.text storage .exclusive) (storage ++ ".as_ptr() as *mut _")
  | content (name : String) : IsWritten (.content name) (name ++ " as _")
  | textLength (storage : String) : IsWritten (.textLength storage) (storage ++ ".len() as _")
  | default : IsWritten .default "Default::default()"

/-- **`s.IsWritten lines`** -- the lines are a statement of a test.  A call stands on one line, or
on several if that would have more than a hundred bytes. -/
inductive TestStatement.IsWritten : TestStatement → List String → Prop
  | text (name message : String) : IsWritten (.text name message)
      ["        let " ++ name ++ " = b\"" ++ Text.byteLiteral message ++ "\";"]
  | array (name length : String) : IsWritten (.array name length)
      ["        let mut " ++ name ++ " = [0u8; " ++ length ++ "];"]
  | counter (name : String) : IsWritten (.counter name)
      ["        let mut " ++ name ++ ": usize = 0;"]
  | buffer (name type : String) : IsWritten (.buffer name type)
      ["        let mut " ++ name ++ " = core::mem::MaybeUninit::<" ++ type ++ ">::uninit();"]
  | fill (name : String) : IsWritten (.fill name)
      ["        unsafe \x7b core::ptr::write_bytes(" ++ name ++ ".as_mut_ptr(), 0xA5, 1) \x7d;"]
  | call {symbol : String} {operands : List Operand} {texts : List String} :
      List.Forall₂ Operand.IsWritten operands texts →
      (callText "        let res = " symbol texts).utf8ByteSize ≤ 100 →
      IsWritten (.call symbol operands) [callText "        let res = " symbol texts]
  | wideCall {symbol : String} {operands : List Operand} {texts : List String} :
      List.Forall₂ Operand.IsWritten operands texts →
      100 < (callText "        let res = " symbol texts).utf8ByteSize →
      IsWritten (.call symbol operands)
        (["        let res = unsafe \x7b", "            " ++ symbol ++ "("] ++
          texts.map (fun text => "                " ++ text ++ ",") ++
          ["            )", "        \x7d;"])
  | expectZero (function failure : String) : IsWritten (.expectZero function failure)
      ["        assert_eq!(res, 0, \"" ++ function ++ ": " ++ failure ++ "\");"]

/-- **`AreWritten statements lines`** -- the lines are the statements in their order, and empty
lines before, between and behind them. -/
inductive AreWritten : List TestStatement → List String → Prop
  | nil : AreWritten [] []
  | empty {statements : List TestStatement} {lines : List String} :
      AreWritten statements lines → AreWritten statements ("" :: lines)
  | statement {s : TestStatement} {statements : List TestStatement} {written lines : List String} :
      s.IsWritten written → AreWritten statements lines →
      AreWritten (s :: statements) (written ++ lines)

/-! ## Statements -/

/-- An operand is rendered as it is to be written. -/
theorem Operand.isWritten_render (x : Operand) : x.IsWritten x.render := by
  have htail : ∀ {x : Operand} {front call cast : String}, x.IsWritten (front ++ (call ++ cast)) →
      x.IsWritten (front ++ call ++ cast) := by
    intro x front call cast h
    rwa [String.append_assoc]
  cases x with
  | start storage access =>
    cases access with
    | shared => exact htail (.start storage)
    | exclusive => exact htail (.startMut storage)
  | address name access =>
    cases access with
    | shared => exact htail (.address name)
    | exclusive => exact htail (.addressMut name)
  | text storage access =>
    cases access with
    | shared => exact htail (.text storage)
    | exclusive => exact htail (.textMut storage)
  | content name => exact .content name
  | textLength storage => exact .textLength storage
  | default => exact .default

/-- The lines of a statement are as they are to be written. -/
theorem TestStatement.isWritten_lines (s : TestStatement) : s.IsWritten s.lines := by
  have hmargin : ∀ text, line 2 text = "        " ++ text := by
    have hindent : indent 2 = "        " := by decide
    intro text
    rw [line, hindent]
  have hsingle : ∀ {s : TestStatement} {text written : String},
      s.IsWritten [written] → "        " ++ text = written → s.IsWritten [line 2 text] := by
    intro s text written h htext
    rwa [hmargin, htext]
  cases s with
  | text name message => exact hsingle (.text name message) (by simp [binding, ← String.toList_inj])
  | array name length => exact hsingle (.array name length) (by simp [← String.toList_inj])
  | counter name => exact hsingle (.counter name) (by simp [← String.toList_inj])
  | buffer name type => exact hsingle (.buffer name type) (by simp [← String.toList_inj])
  | fill name => exact hsingle (.fill name) (by simp [fillerByte, ← String.toList_inj])
  | expectZero function failure =>
    exact hsingle (.expectZero function failure) (by simp [rawValue, ← String.toList_inj])
  | call symbol operands =>
    have htexts : List.Forall₂ Operand.IsWritten operands (operands.map Operand.render) := by
      rw [List.forall₂_map_right_iff, List.forall₂_same]
      exact fun x _ => x.isWritten_render
    have hfront : line 2 (binding rawValue) = "        let res = " := by decide
    have hone := oneLine_callListing 2 (binding rawValue) symbol (operands.map Operand.render)
    rw [hfront] at hone
    rw [lines, Listing.lines, hone, maxWidth]
    split
    · rename_i hwidth
      exact .call htexts hwidth
    · rename_i hwidth
      have hindents : indent 2 = "        " ∧ indent 3 = "            " ∧
          indent 4 = "                " := by decide
      have hstacked :
          (callListing 2 (binding rawValue) symbol (operands.map Operand.render)).stacked =
            ["        let res = unsafe \x7b", "            " ++ symbol ++ "("] ++
              (operands.map Operand.render).map (fun text => "                " ++ text ++ ",") ++
              ["            )", "        \x7d;"] := by
        simp [callListing, Listing.stacked, Listing.stackedAt, line, hindents, binding, rawValue,
          ← String.toList_inj]
      rw [hstacked]
      exact .wideCall htexts (Nat.lt_of_not_le hwidth)

/-! ## Bodies -/

section Bodies

variable {statements others : List TestStatement} {lines written : List String}

theorem AreWritten.append (h : AreWritten statements lines) (hothers : AreWritten others written) :
    AreWritten (statements ++ others) (lines ++ written) := by
  induction h with
  | nil => exact hothers
  | empty _ ih => exact .empty ih
  | statement hs _ ih =>
    rw [List.append_assoc]
    exact .statement hs ih

/-- The lines of some statements are as they are to be written. -/
theorem areWritten_flatMap (statements : List TestStatement) :
    AreWritten statements (statements.flatMap TestStatement.lines) := by
  induction statements with
  | nil => exact .nil
  | cons s statements ih => exact .statement s.isWritten_lines ih

/-- Paragraphs are separated by empty lines. -/
theorem areWritten_intercalate (paragraphs : List (List TestStatement)) :
    AreWritten paragraphs.flatten
      ([""].intercalate (paragraphs.map fun paragraph =>
          paragraph.flatMap TestStatement.lines)) := by
  induction paragraphs with
  | nil => exact .nil
  | cons first others ih =>
    cases others with
    | nil => simpa using areWritten_flatMap first
    | cons second others =>
      have hfirst := (areWritten_flatMap first).append (.empty ih)
      simpa [List.intercalate] using hfirst

end Bodies

/-- The statements of a self-test in their order. -/
def SelfTest.statements (test : SelfTest) : List TestStatement := test.paragraphs.flatten

/-- **The body of the test of a unit holds the statements of the test**, all of them, in their order
and nothing else.  It stands at the end of the unit. -/
theorem SourceUnit.exists_test_body {u : SourceUnit} {test : SelfTest} (h : test ∈ u.selfTest) :
    ∃ front body, u.lines = front ++
        ["mod tests \x7b", "    use super::*;", "", "    #[test]",
          "    fn test_sign_verify() \x7b"] ++
        body ++ ["    \x7d", "\x7d"] ∧
      AreWritten test.statements body := by
  have hlines : test.lines = [gateLine test.predicates] ++
      ["mod tests \x7b", "    use super::*;", "", "    #[test]",
        "    fn test_sign_verify() \x7b"] ++
      [""].intercalate (test.paragraphs.map fun paragraph =>
        paragraph.flatMap TestStatement.lines) ++
      ["    \x7d", "\x7d"] := rfl
  obtain ⟨front, hfront⟩ : ∃ front, u.lines = front ++ test.lines := by
    rw [Option.mem_def] at h
    rw [SourceUnit.lines, h, Option.toList_some, List.flatMap_singleton, List.append_cons]
    exact ⟨_, rfl⟩
  refine ⟨front ++ [gateLine test.predicates], _, ?_, areWritten_intercalate test.paragraphs⟩
  rw [hfront, hlines]
  simp only [List.append_assoc]

end Bindery
