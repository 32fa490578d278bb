/-
# Bindery.Text.Literal -- the bodies of quoted literals.

Generated source holds two kinds of quoted text: byte literals, which spell the UTF-8 bytes of a
message, and string literals, which spell a file name.  Both write printable ASCII as itself, six
characters with a short escape, and everything else as a hexadecimal escape: `\xNN` for a byte, `\u`
with braces for a character.  A body therefore consists of printable ASCII, and a quote or a
backslash occurs in it only as a part of an escape.
-/

namespace Bindery.Text

/-! ## Escapes -/

/-- The letter that stands after a backslash for a character with a short escape. -/
def shortEscape? : Char → Option Char
  | '\t' => some 't'
  | '\r' => some 'r'
  | '\n' => some 'n'
  | '\'' => some '\''
  | '"' => some '"'
  | '\\' => some '\\'
  | _ => none

/-- Printable ASCII, the space included. -/
def isPlain (c : Char) : Bool :=
  0x20 ≤ c.toNat && c.toNat ≤ 0x7E

/-- **`escapeByte b`** -- one byte in a byte literal. -/
def escapeByte (b : UInt8) : List Char :=
  let c := Char.ofNat b.toNat
  match shortEscape? c with
  | some letter => ['\\', letter]
  | none =>
    if isPlain c then [c] else ['\\', 'x', Nat.digitChar (b.toNat / 16),
      Nat.digitChar (b.toNat % 16)]

/-- **`escapeChar c`** -- one character in a string literal. -/
def escapeChar (c : Char) : List Char :=
  match shortEscape? c with
  | some letter => ['\\', letter]
  | none => if isPlain c then [c] else ['\\', 'u', '\x7b'] ++ Nat.toDigits 16 c.toNat ++ ['\x7d']

/-! ## Bodies -/

/-- The UTF-8 bytes of a text. -/
def utf8Bytes (s : String) : List UInt8 :=
  s.toList.flatMap String.utf8EncodeChar

/-- **`byteLiteral s`** -- the body of the byte literal that denotes the UTF-8 bytes of `s`. -/
def byteLiteral (s : String) : String :=
  String.ofList ((utf8Bytes s).flatMap escapeByte)

/-- **`stringLiteral s`** -- the body of the string literal that denotes `s`. -/
def stringLiteral (s : String) : String :=
  String.ofList (s.toList.flatMap escapeChar)

example : byteLiteral "a\"é\n" = "a\\\"\\xc3\\xa9\\n" := by decide +kernel

example : stringLiteral "a\"é\n" = "a\\\"\\u\x7be9\x7d\\n" := by decide +kernel

end Bindery.Text
