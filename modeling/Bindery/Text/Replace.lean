/-
# Bindery.Text.Replace -- replacing every occurrence of a text.

Occurrences are found from left to right and do not overlap: after an occurrence the search goes on
behind it, and what has been inserted is not searched again.
-/

namespace Bindery.Text

/-- The search behind the first `skip` characters, which belong to an occurrence that has been
replaced already. -/
def replaceFrom (old new : List Char) : Nat → List Char → List Char
  | _, [] => []
  | skip + 1, _ :: rest => replaceFrom old new skip rest
  | 0, c :: rest =>
    if old.isPrefixOf (c :: rest) then new ++ replaceFrom old new (old.length - 1) rest
    else c :: replaceFrom old new 0 rest

/-- **`replaceAll old new s`** -- the text `s` with `new` for every occurrence of `old`, which is
not empty. -/
def replaceAll (old new s : String) : String :=
  String.ofList (replaceFrom old.toList new.toList 0 s.toList)

example : replaceAll "aa" "b" "aaaaa" = "bba" := by decide +kernel

end Bindery.Text
