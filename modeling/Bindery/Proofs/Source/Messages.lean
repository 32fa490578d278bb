/-
# Bindery.Proofs.Source.Messages -- the message of a self-test can be read off its source.

A configured message may hold anything.  It is written into the source of the self-test as a byte
literal, and this literal denotes the bytes of the message and ends where it is closed, so nothing
of the message is read as code.  What stands before the literal is the same in all tests but for the
first line, which gates the test; so two tests with one text sign one message.
-/
import Bindery.Proofs.Text.ByteLiteral
import Bindery.Proofs.Text.Cuts
import Bindery.Proofs.Unit.Drafts
import Bindery.Source.SelfTest

namespace Bindery

open Source

namespace SelfTest

/-! ## Planned tests -/

variable {v v' : Variant} {declarations declarations' : List Declaration}
  {message message' : String} {t t' : SelfTest}

/-- A planned test signs the message that it was planned for, under the predicates of its backend.
-/
theorem fields_of_plan? (h : plan? v declarations message = some t) :
    t.message = message ∧ t.predicates = "test" :: v.backend.testPredicates := by
  simp only [plan?, Option.bind_eq_bind, Option.bind_eq_some_iff] at h
  obtain ⟨keypair, -, sign, -, verify, -, htest⟩ := h
  cases htest
  exact ⟨rfl, rfl⟩

/-- The gate of a planned test stands on one line. -/
theorem lineFeed_notMem_gateLine (h : plan? v declarations message = some t) :
    '\n' ∉ (gateLine t.predicates).toList := by
  rw [(fields_of_plan? h).2]
  cases v.backend <;> decide

/-! ## Texts of tests -/

/-- What stands between the gate of a test and its message. -/
def preamble : List Char :=
  (ofLines ["mod tests \x7b", line 1 "use super::*;", "", line 1 "#[test]",
    line 1 "fn test_sign_verify() \x7b"] ++ indent 2).toList

/-- The text of a test up to the quote that ends its message. -/
theorem exists_toList_lines (t : SelfTest) : ∃ rest, (ofLines t.lines).toList =
    (gateLine t.predicates).toList ++ '\n' ::
      (preamble ++
          ("let msg = b\"".toList ++ ((Text.byteLiteral t.message).toList ++ '"' :: rest))) := by
  -- the message is the one line of the first paragraph
  obtain ⟨others, hlines⟩ : ∃ others, t.lines = [gateLine t.predicates, "mod tests \x7b",
    line 1 "use super::*;", "", line 1 "#[test]",
      line 1 "fn test_sign_verify() \x7b",
          line 2 (binding "msg" ++ "b\"" ++ Text.byteLiteral t.message ++ "\";")] ++ others := by
    simp [lines, paragraphs, TestStatement.lines]
  refine ⟨';' :: '\n' :: (ofLines others).toList, ?_⟩
  rw [hlines]
  simp [preamble, line, binding]

/-- Tests with one text sign one message. -/
theorem message_of_lines (h : plan? v declarations message = some t)
    (h' : plan? v' declarations' message' = some t')
    (hsame : ofLines t.lines = ofLines t'.lines) : message = message' := by
  obtain ⟨rest, htext⟩ := t.exists_toList_lines
  obtain ⟨rest', htext'⟩ := t'.exists_toList_lines
  rw [← hsame, htext] at htext'
  obtain ⟨-, htail⟩ :=
    Text.append_separator_inj htext' (lineFeed_notMem_gateLine h) (lineFeed_notMem_gateLine h')
  rw [← (fields_of_plan? h).1, ← (fields_of_plan? h').1]
  exact (Text.byteLiteral_quote_inj (List.append_cancel_left (List.append_cancel_left htail))).1

/-- A planned test binds a literal that is read as its message. -/
theorem exists_literal_of_plan? (h : plan? v declarations message = some t) : ∃ before literal rest,
    (ofLines t.lines).toList = before ++ ("let msg = b\"".toList ++ literal) ∧
      Text.readBytes? literal = some (message.toUTF8.data.toList, rest) := by
  obtain ⟨rest, htext⟩ := t.exists_toList_lines
  rw [(fields_of_plan? h).1] at htext
  refine ⟨(gateLine t.predicates).toList ++ '\n' :: preamble, (Text.byteLiteral message).toList ++
    '"' :: rest, rest, ?_, ?_⟩
  · rw [htext, List.append_assoc, List.cons_append]
  · exact Text.readBytes?_byteLiteral message rest

end SelfTest

/-- **The message of a self-test survives in its source.** The body of the literal that is written
for a message is printable ASCII; it consists of pieces, one for every byte of the message, which
are escapes or characters that are neither quotes nor backslashes; and the literal is read as the
bytes of the message and ends at the quote that closes it, whatever follows.  A planned test binds
such a literal. So tests for different messages have different texts, whatever variants and
declarations they are planned for. -/
theorem messages_read_back :
    (∀ message : String,
      (∀ c ∈ (Text.byteLiteral message).toList, 0x20 ≤ c.toNat ∧ c.toNat ≤ 0x7E) ∧
      (∃ pieces, (Text.byteLiteral message).toList = pieces.flatten ∧
        List.Forall₂ Text.IsPiece pieces message.toUTF8.data.toList) ∧
      ∀ rest, Text.readBytes? ((Text.byteLiteral message).toList ++ '"' :: rest) =
        some (message.toUTF8.data.toList, rest)) ∧
    (∀ (v : Variant) (declarations : List Declaration) (message : String) (t : SelfTest),
      SelfTest.plan? v declarations message = some t → ∃ before literal rest,
        (ofLines t.lines).toList = before ++ ("let msg = b\"".toList ++ literal) ∧
          Text.readBytes? literal = some (message.toUTF8.data.toList, rest)) ∧
    ∀ (v v' : Variant) (declarations declarations' : List Declaration) (message message' : String)
      (t t' : SelfTest),
      SelfTest.plan? v declarations message = some t →
        SelfTest.plan? v' declarations' message' = some t' →
      message ≠ message' → ofLines t.lines ≠ ofLines t'.lines := by
  refine ⟨?_, fun _ _ _ _ h => SelfTest.exists_literal_of_plan? h, ?_⟩
  · intro message
    refine ⟨fun c hc => Text.isPlain_iff.mp (Text.isPlain_of_mem_byteLiteral hc), ?_,
      Text.readBytes?_byteLiteral message⟩
    rw [← Text.utf8Bytes_eq]
    exact Text.exists_pieces_byteLiteral message
  · intro v v' declarations declarations' message message' t t' h h' hdiffer hsame
    exact hdiffer (SelfTest.message_of_lines h h' hsame)

/-- Declarations of the three functions that a self-test calls, for the portable variant of the
sample. -/
def testableDeclarations : List Declaration :=
  [SelfTest.keypairFunction, SelfTest.signFunction, SelfTest.verifyFunction].map fun name =>
    ⟨sampleVariant.symbolStem ++ name, [], some (.value "int")⟩

/-- A message that is a quote, and one that is written like the escape of a quote, are told apart.
-/
theorem quote_and_escape_told_apart : ∃ t t' : SelfTest,
    SelfTest.plan? sampleVariant testableDeclarations "\"" = some t ∧
      SelfTest.plan? sampleVariant testableDeclarations "\\\"" = some t' ∧
      ofLines t.lines ≠ ofLines t'.lines := by
  obtain ⟨t, ht⟩ : ∃ t, SelfTest.plan? sampleVariant testableDeclarations "\"" = some t :=
    Option.isSome_iff_exists.mp (by decide +kernel)
  obtain ⟨t', ht'⟩ : ∃ t, SelfTest.plan? sampleVariant testableDeclarations "\\\"" = some t :=
    Option.isSome_iff_exists.mp (by decide +kernel)
  exact ⟨t, t', ht, ht', messages_read_back.2.2 _ _ _ _ _ _ _ _ ht ht' (by decide)⟩

end Bindery
