/-
# Bindery.Json.Token -- the tokens of a JSON text.

A text is cut into brackets, separators, literals, numbers and strings; blanks between them are the
four that the format allows. A string is kept as the pieces that spell it, because an escape may
denote half of a surrogate pair: such a string is well formed, but it denotes a text only if its
halves pair up.  Control characters, unknown escapes and malformed numbers end the reading.
-/
import Bindery.Text.Digits

namespace Bindery.Json

/-! ## Strings -/

/-- A piece of a string: a character, or a 16-bit unit that an escape spells. -/
inductive Piece where
  | char (c : Char)
  | unit (code : Nat)
deriving Repr, DecidableEq

/-- The character of a one-letter escape. -/
def shortEscape? : Char → Option Char
  | '"' => some '"'
  | '\\' => some '\\'
  | '/' => some '/'
  | 'b' => some '\x08'
  | 'f' => some '\x0c'
  | 'n' => some '\n'
  | 'r' => some '\r'
  | 't' => some '\t'
  | _ => none

/-- Reads a string after its opening quote: its pieces, and what follows the closing quote. -/
def scanString (done : List Piece) : List Char → Option (List Piece × List Char)
  | [] => none
  | '"' :: rest => some (done.reverse, rest)
  | '\\' :: 'u' :: a :: b :: c :: d :: rest =>
    match Text.number? 16 [a, b, c, d] with
    | some code => scanString (.unit code :: done) rest
    | none => none
  | '\\' :: letter :: rest =>
    match shortEscape? letter with
    | some c => scanString (.char c :: done) rest
    | none => none
  | c :: rest => if c.toNat < 0x20 || c == '\\' then none else scanString (.char c :: done) rest

/-- What follows a string is shorter than the string. -/
theorem length_of_scanString {done pieces : List Piece} {s rest : List Char}
    (h : scanString done s = some (pieces, rest)) : rest.length < s.length := by
  fun_induction scanString done s with
  | case1 => simp at h
  | case2 done r =>
    simp only [Option.some.injEq, Prod.mk.injEq] at h
    simp [h.2]
  | case3 done a b c d r code _ ih =>
    have := ih h
    simp only [List.length_cons]
    omega
  | case4 => simp at h
  | case5 done letter r _ c _ ih =>
    have := ih h
    simp only [List.length_cons]
    omega
  | case6 => simp at h
  | case7 => simp at h
  | case8 done c r _ _ _ _ ih =>
    have := ih h
    simp only [List.length_cons]
    omega

/-- **`denote ps`** -- the characters that the pieces of a string denote.  A high half must be
followed by a low half, and a low half must follow a high one. -/
def denote : List Piece → Option (List Char)
  | [] => some []
  | .char c :: rest => (denote rest).map (c :: ·)
  | .unit high :: .unit low :: rest =>
    if 0xD800 ≤ high ∧ high < 0xDC00 then
      if 0xDC00 ≤ low ∧ low < 0xE000 then
        (denote rest).map (Char.ofNat (0x10000 + (high - 0xD800) * 0x400 + (low - 0xDC00)) :: ·)
      else none
    else if 0xDC00 ≤ high ∧ high < 0xE000 then none
    else (denote (.unit low :: rest)).map (Char.ofNat high :: ·)
  | .unit code :: rest =>
    if 0xD800 ≤ code ∧ code < 0xE000 then none else (denote rest).map (Char.ofNat code :: ·)

/-! ## Numbers -/

/-- The characters that a number is made of. -/
def isNumberChar (c : Char) : Bool :=
  c.isDigit || c == '-' || c == '+' || c == '.' || c == 'e' || c == 'E'

/-- At least one digit, and nothing else. -/
def isDigits (s : List Char) : Bool :=
  !s.isEmpty && s.all Char.isDigit

/-- An integer part: zero alone, or digits that do not start with zero. -/
def isIntegerPart (s : List Char) : Bool :=
  isDigits s && (s.head? != some '0' || s.length == 1)

/-- An exponent, its mark and sign included, or nothing. -/
def isExponent : List Char → Bool
  | [] => true
  | mark :: rest =>
    (mark == 'e' || mark == 'E') &&
      match rest with
      | '+' :: digits => isDigits digits
      | '-' :: digits => isDigits digits
      | digits => isDigits digits

/-- **`isNumber s`** -- a text is a number when it is an optional sign, an integer part, an optional
fraction and an optional exponent. -/
def isNumber (s : List Char) : Bool :=
  let unsigned := if s.head? = some '-' then s.drop 1 else s
  let whole := unsigned.takeWhile Char.isDigit
  let tail := unsigned.dropWhile Char.isDigit
  isIntegerPart whole &&
    match tail with
    | '.' :: rest =>
      isDigits (rest.takeWhile Char.isDigit) && isExponent (rest.dropWhile Char.isDigit)
    | rest => isExponent rest

/-! ## Tokens -/

/-- A token of a JSON text. -/
inductive Token where
  | openArray
  | closeArray
  | openObject
  | closeObject
  | comma
  | colon
  | null
  | bool (value : Bool)
  | number (text : List Char)
  | string (pieces : List Piece)
deriving Repr, DecidableEq

/-- What dropping from the front leaves is not longer. -/
theorem length_dropWhile_le (p : Char → Bool) (s : List Char) : (s.dropWhile p).length ≤ s.length :=
  (List.dropWhile_suffix p).length_le

/-- Reads tokens from the front of a text; `done` holds the tokens before it, the last one first. -/
def scanTokens (done : List Token) (s : List Char) : Option (List Token) :=
  match s with
  | [] => some done.reverse
  | '[' :: rest => scanTokens (.openArray :: done) rest
  | ']' :: rest => scanTokens (.closeArray :: done) rest
  | '\x7b' :: rest => scanTokens (.openObject :: done) rest
  | '\x7d' :: rest => scanTokens (.closeObject :: done) rest
  | ',' :: rest => scanTokens (.comma :: done) rest
  | ':' :: rest => scanTokens (.colon :: done) rest
  | 'n' :: 'u' :: 'l' :: 'l' :: rest => scanTokens (.null :: done) rest
  | 't' :: 'r' :: 'u' :: 'e' :: rest => scanTokens (.bool true :: done) rest
  | 'f' :: 'a' :: 'l' :: 's' :: 'e' :: rest => scanTokens (.bool false :: done) rest
  | '"' :: rest =>
    match h : scanString [] rest with
    | some (pieces, after) =>
      have : after.length < rest.length + 1 := Nat.lt_succ_of_lt (length_of_scanString h)
      scanTokens (.string pieces :: done) after
    | none => none
  | c :: rest =>
    if c == ' ' || c == '\t' || c == '\n' || c == '\r' then scanTokens done rest
    else
      let text := c :: rest.takeWhile isNumberChar
      if isNumber text then
        have := length_dropWhile_le isNumberChar rest
        scanTokens (.number text :: done) (rest.dropWhile isNumberChar)
      else none
termination_by s.length

/-- **`tokens s`** -- the tokens of a text, or nothing if it is no sequence of tokens. -/
def tokens (s : List Char) : Option (List Token) :=
  scanTokens [] s

end Bindery.Json
