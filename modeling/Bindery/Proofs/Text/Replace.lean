/-
# Bindery.Proofs.Text.Replace -- which text a replacement leaves alone.

A replacement goes over a text from left to right.  It takes every occurrence that it meets, and
copies everything else; an occurrence starts with the first character of what is looked for, so a
text without this character is copied.  Marks in braces are told apart by the names in them: where
one mark stands, no other one starts.
-/
import Bindery.Proofs.Text.Cuts
import Bindery.Text.Replace

namespace Bindery.Text

/-! ## Steps -/

section Steps

variable {old new : List Char}

/-- What has been replaced already is passed over. -/
theorem replaceFrom_length (s rest : List Char) :
    replaceFrom old new s.length (s ++ rest) = replaceFrom old new 0 rest := by
  induction s with
  | nil => rfl
  | cons c s ih => exact ih

/-- An occurrence is replaced, and the search goes on behind it. -/
theorem replaceFrom_append (h : old ≠ []) (rest : List Char) :
    replaceFrom old new 0 (old ++ rest) = new ++ replaceFrom old new 0 rest := by
  obtain ⟨first, others, rfl⟩ := List.exists_cons_of_ne_nil h
  have hprefix : (first :: others).isPrefixOf (first :: (others ++ rest)) = true :=
    List.isPrefixOf_iff_prefix.mpr (List.prefix_append (first :: others) rest)
  rw [List.cons_append, replaceFrom, if_pos hprefix]
  exact congrArg (new ++ ·) (replaceFrom_length others rest)

/-- A character with which no occurrence starts is copied. -/
theorem replaceFrom_cons {c : Char} {rest : List Char} (h : ¬ old <+: c :: rest) :
    replaceFrom old new 0 (c :: rest) = c :: replaceFrom old new 0 rest := by
  rw [replaceFrom, if_neg (mt List.isPrefixOf_iff_prefix.mp h)]

/-- **A text without the first character of what is looked for is copied.** -/
theorem replaceFrom_append_of_notMem {first : Char} {others s : List Char} (h : first ∉ s)
    (rest : List Char) :
    replaceFrom (first :: others) new 0 (s ++ rest) = s ++ replaceFrom (first :: others)
        new 0 rest := by
  induction s with
  | nil => rfl
  | cons c s ih =>
    rw [List.mem_cons, not_or] at h
    have hstart : ¬ first :: others <+: c :: (s ++ rest) :=
      fun hprefix => h.1 (List.cons_prefix_cons.mp hprefix).1
    rw [List.cons_append, replaceFrom_cons hstart, ih h.2, List.cons_append]

end Steps

/-! ## Marks -/

/-- The mark of a name: the name in braces. -/
def braced (name : List Char) : List Char :=
  '\x7b' :: (name ++ ['\x7d'])

/-- Where a mark stands, no mark of another name starts. -/
theorem braced_apart {name name' : List Char} (hne : name ≠ name') (h : '\x7d' ∉ name)
    (h' : '\x7d' ∉ name') (rest : List Char) :
    ¬ braced name <+: braced name' ++ rest := by
  rintro ⟨others, hsame⟩
  simp only [braced, List.cons_append, List.append_assoc, List.nil_append] at hsame
  exact hne (append_separator_inj (List.cons.inj hsame).2 h h').1

/-- **A mark of another name is copied.** -/
theorem replaceFrom_braced_append {name name' new : List Char} (hne : name ≠ name')
    (hname : '\x7d' ∉ name) (hname' : '\x7d' ∉ name')
    (hopen : '\x7b' ∉ name') (rest : List Char) :
    replaceFrom (braced name) new 0 (braced name' ++ rest) = braced name' ++
        replaceFrom (braced name) new 0 rest := by
  -- behind its opening brace, the mark holds nothing that a mark could start with
  have hclose : '\x7b' ∉ name' ++ ['\x7d'] := by simp [hopen]
  calc replaceFrom (braced name) new 0 (braced name' ++ rest)
      = '\x7b' :: replaceFrom (braced name) new 0 ((name' ++ ['\x7d']) ++ rest) :=
        replaceFrom_cons (braced_apart hne hname hname' rest)
    _ = braced name' ++ replaceFrom (braced name) new 0 rest := by
        rw [braced, replaceFrom_append_of_notMem hclose]
        rfl

end Bindery.Text
