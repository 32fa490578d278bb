/-
# Bindery.Proofs.Catalog.TypeGrammar -- the texts that spell a type.

What a text spells depends on its words alone.  `ForeignType.Grammar` is the grammar of type
expressions over words: a pointer is an access keyword and the words of what it points to, and
anything else that does not start with a star is a value type.  The reader does not cut a text into
words first; it trims it, looks for a keyword that a blank follows, and collapses what is left.
Both come to the same, since a trimmed text starts with its first word and ends with its last one.
-/
import Bindery.ForeignType
import Bindery.Proofs.Text.Words

namespace Bindery

/-- The keywords are words. -/
theorem Access.isToken_keyword (access : Access) : Text.IsToken access.keyword := by
  have hfree : access.keyword.all (fun c => !Text.isBlank c) = true := by
    cases access <;> decide
  refine ⟨by cases access <;> decide, fun c hc => ?_⟩
  simpa using List.all_eq_true.mp hfree c hc

theorem Access.keyword_inj {access access' : Access} (h : access.keyword = access'.keyword) :
    access = access' := by
  cases access <;> cases access' <;> first | rfl | exact absurd h (by decide)

/-- The keywords start with a star. -/
theorem Access.head?_keyword (access : Access) : access.keyword.head? = some '*' := by
  cases access <;> rfl

namespace ForeignType

/-! ## The grammar -/

/-- Words joined by single spaces. -/
def joined (tokens : List (List Char)) : String :=
  String.ofList ([' '].intercalate tokens)

/-- **`Grammar tokens t`** -- the words spell the type. -/
inductive Grammar : List (List Char) → ForeignType → Prop
  /-- A value type is any words of which the first does not start with a star. -/
  | value {first : List Char} {others : List (List Char)} : first.head? ≠ some '*' →
      Grammar (first :: others) (.value (joined (first :: others)))
  /-- A pointer is the keyword of its access and the words of what it points to, of which there is
  one at least. -/
  | pointer (access : Access) {others : List (List Char)} : others ≠ [] →
      Grammar (access.keyword :: others) (.pointer access (joined others))

/-- Words that are joined can be told apart again. -/
theorem joined_inj {tokens tokens' : List (List Char)} (h : ∀ token ∈ tokens, Text.IsToken token)
    (h' : ∀ token ∈ tokens', Text.IsToken token) (hjoined : joined tokens = joined tokens') :
    tokens = tokens' := by
  have hchars := congrArg String.toList hjoined
  rw [joined, joined, String.toList_ofList, String.toList_ofList] at hchars
  rw [← Text.words_intercalate h, hchars, Text.words_intercalate h']

namespace Grammar

variable {tokens tokens' : List (List Char)} {t t' : ForeignType}

/-- Words that start with a star and spell a type are a keyword with others behind it. -/
theorem of_star {first : List Char} {others : List (List Char)} (h : Grammar (first :: others) t)
    (hstar : first.head? = some '*') :
    ∃ access, first = Access.keyword access ∧ others ≠ [] ∧
        t = .pointer access (joined others) := by
  cases h with
  | value hother => exact absurd hstar hother
  | pointer access hothers => exact ⟨access, rfl, hothers, rfl⟩

/-- Words spell one type. -/
theorem unique (h : Grammar tokens t) (h' : Grammar tokens t') : t = t' := by
  cases h with
  | value hother =>
    cases h' with
    | value _ => rfl
    | pointer access _ => exact absurd (Access.head?_keyword access) hother
  | pointer access _ =>
    obtain ⟨access', hkeyword, -, rfl⟩ := h'.of_star (Access.head?_keyword access)
    rw [Access.keyword_inj hkeyword]

/-- A type is spelled by one sequence of words. -/
theorem tokens_unique (h : Grammar tokens t) (h' : Grammar tokens' t)
    (hwords : ∀ token ∈ tokens, Text.IsToken token)
    (hwords' : ∀ token ∈ tokens', Text.IsToken token) : tokens = tokens' := by
  cases h with
  | value _ =>
    generalize htext : ForeignType.value _ = t at h'
    cases h' with
    | value _ => exact joined_inj hwords hwords' (ForeignType.value.inj htext)
    | pointer _ _ => cases htext
  | pointer _ _ =>
    generalize htext : ForeignType.pointer _ _ = t at h'
    cases h' with
    | value _ => cases htext
    | pointer _ _ =>
      obtain ⟨rfl, hpointee⟩ := ForeignType.pointer.inj htext
      rw [List.forall_mem_cons] at hwords hwords'
      rw [joined_inj hwords.2 hwords'.2 hpointee]

/-- Words that spell a type. -/
theorem exists_iff : (∃ t, Grammar tokens t) ↔ ∃ first others, tokens = first :: others ∧
    (first.head? ≠ some '*' ∨ (first = "*const".toList ∨ first = "*mut".toList) ∧ others ≠ []) := by
  constructor
  · rintro ⟨t, h⟩
    cases h with
    | value hother => exact ⟨_, _, rfl, Or.inl hother⟩
    | pointer access hothers =>
      refine ⟨_, _, rfl, Or.inr ⟨?_, hothers⟩⟩
      cases access with
      | shared => exact Or.inl rfl
      | exclusive => exact Or.inr rfl
  · rintro ⟨first, others, rfl, hother | ⟨rfl | rfl, hothers⟩⟩
    · exact ⟨_, .value hother⟩
    · exact ⟨_, .pointer .shared hothers⟩
    · exact ⟨_, .pointer .exclusive hothers⟩

end Grammar

/-! ## The reader -/

variable {s : String}

/-- A pointer is read if words are left for what it points to. -/
theorem ofPointee_eq {whole rest : List Char} (access : Access) (h : Text.words rest ≠ []) :
    ofPointee access whole rest = .ok (.pointer access (joined (Text.words rest))) := by
  have hne : (Text.collapse rest).isEmpty = false := by
    rw [List.isEmpty_eq_false_iff]
    intro hnil
    apply h
    rw [← Text.words_intercalate fun word hword => Text.isToken_of_mem_words hword, ← Text.collapse,
      hnil]
    rfl
  rw [ofPointee, hne]
  rfl

/-- A text without words is refused as empty. -/
theorem parse_of_words_nil (h : Text.words s.toList = []) : parse s = .error .empty := by
  rw [← Text.words_trim, Text.words_eq_nil_iff_eq_nil (Text.isBlank_ends_trim _).2] at h
  rw [parse, h]
  rfl

/-- What is read off the words of any other text. -/
theorem parse_of_words_cons {first : List Char} {others : List (List Char)}
    (h : Text.words s.toList = first :: others) :
    parse s = if first = Access.keyword .shared ∧
      others ≠ [] then .ok (.pointer .shared (joined others))
      else if first = Access.keyword .exclusive ∧
        others ≠ [] then .ok (.pointer .exclusive (joined others))
      else if first.head? = some '*' then
        .error (.accessMissing (String.ofList (Text.trim s.toList)))
      else .ok (.value (joined (first :: others))) := by
  obtain ⟨rest, rfl, hstrip⟩ := Text.exists_stripKeyword?_trim h
  obtain ⟨behind, htrim, -⟩ := Text.trim_of_words h
  have hfirst : first ≠ [] := (Text.isToken_of_mem_words (h ▸ List.mem_cons_self)).ne_nil
  have hsome : (Text.trim s.toList).isEmpty = false := by
    rw [htrim, List.isEmpty_eq_false_iff]
    exact List.append_ne_nil_of_left_ne_nil hfirst behind
  have hhead : (Text.trim s.toList).head? = first.head? := by
    rw [htrim, List.head?_append_of_ne_nil first hfirst]
  have hcollapse : Text.collapse (Text.trim s.toList) = [' '].intercalate
      (first :: Text.words rest) := by
    rw [Text.collapse, Text.words_trim, h]
  simp only [parse, hsome, hhead, hcollapse, hstrip _ (Access.isToken_keyword _),
    Bool.false_eq_true, if_false]
  by_cases hshared : first = Access.keyword .shared ∧ Text.words rest ≠ []
  · rw [if_pos hshared, if_pos hshared]
    exact ofPointee_eq .shared hshared.2
  · rw [if_neg hshared, if_neg hshared]
    by_cases hexclusive : first = Access.keyword .exclusive ∧ Text.words rest ≠ []
    · rw [if_pos hexclusive, if_pos hexclusive]
      exact ofPointee_eq .exclusive hexclusive.2
    · rw [if_neg hexclusive, if_neg hexclusive]
      rfl

/-- A text spells a type, or has no words, or its words start with a star and spell none. -/
theorem parse_cases (s : String) :
    (Text.words s.toList = [] ∧ parse s = .error .empty) ∨
    (∃ t, Grammar (Text.words s.toList) t ∧ parse s = .ok t) ∨
    (Text.words s.toList ≠ [] ∧ (¬ ∃ t, Grammar (Text.words s.toList) t) ∧
      parse s = .error (.accessMissing (String.ofList (Text.trim s.toList)))) := by
  cases hwords : Text.words s.toList with
  | nil => exact Or.inl ⟨rfl, parse_of_words_nil hwords⟩
  | cons first others =>
    right
    have hparse := parse_of_words_cons hwords
    split at hparse
    · rename_i hshared
      obtain ⟨rfl, hothers⟩ := hshared
      exact Or.inl ⟨_, .pointer .shared hothers, hparse⟩
    · rename_i hshared
      split at hparse
      · rename_i hexclusive
        obtain ⟨rfl, hothers⟩ := hexclusive
        exact Or.inl ⟨_, .pointer .exclusive hothers, hparse⟩
      · rename_i hexclusive
        split at hparse
        · rename_i hstar
          refine Or.inr ⟨by simp, ?_, hparse⟩
          rintro ⟨t, hgrammar⟩
          obtain ⟨access, rfl, hothers, -⟩ := hgrammar.of_star hstar
          cases access with
          | shared => exact hshared ⟨rfl, hothers⟩
          | exclusive => exact hexclusive ⟨rfl, hothers⟩
        · rename_i hother
          exact Or.inl ⟨_, .value hother, hparse⟩

/-- What is read is what the words spell. -/
theorem parse_eq_ok_iff {t : ForeignType} : parse s = .ok t ↔ Grammar (Text.words s.toList) t := by
  rcases parse_cases s with ⟨hnil, hparse⟩ | ⟨t', hgrammar, hparse⟩ | ⟨-, hnone, hparse⟩
  · rw [hparse, hnil]
    exact ⟨nofun, nofun⟩
  · rw [hparse]
    constructor
    · rintro ⟨⟩
      exact hgrammar
    · intro h
      rw [hgrammar.unique h]
  · rw [hparse]
    exact ⟨nofun, fun h => absurd ⟨t, h⟩ hnone⟩

/-- A text is refused as empty if it has no words. -/
theorem parse_eq_empty_iff : parse s = .error .empty ↔ Text.words s.toList = [] := by
  rcases parse_cases s with ⟨hnil, hparse⟩ | ⟨t, hgrammar, hparse⟩ | ⟨hsome, -, hparse⟩
  · simp [hnil, hparse]
  · have hsome : Text.words s.toList ≠ [] := by
      intro hnil
      rw [hnil] at hgrammar
      cases hgrammar
    simp [hsome, hparse]
  · simp [hsome, hparse]

/-- There are two ways to be refused. -/
theorem parse_eq_error {e : TypeError} (h : parse s = .error e) :
    e = if Text.words s.toList = [] then .empty else .accessMissing
        (String.ofList (Text.trim s.toList)) := by
  rcases parse_cases s with ⟨hnil, hparse⟩ | ⟨t, -, hparse⟩ | ⟨hsome, -, hparse⟩
  · rw [if_pos hnil]
    exact (Except.error.inj (hparse.symm.trans h)).symm
  · rw [hparse] at h
    cases h
  · rw [if_neg hsome]
    exact (Except.error.inj (hparse.symm.trans h)).symm

/-- Two texts give one type if and only if they have the same words. -/
theorem eq_iff_words_eq {s' : String} {t t' : ForeignType} (h : parse s = .ok t)
    (h' : parse s' = .ok t') :
    t = t' ↔ Text.words s.toList = Text.words s'.toList := by
  rw [parse_eq_ok_iff] at h h'
  constructor
  · rintro rfl
    exact h.tokens_unique h' (fun _ htoken => Text.isToken_of_mem_words htoken) fun _ htoken =>
      Text.isToken_of_mem_words htoken
  · intro hwords
    rw [← hwords] at h'
    exact h.unique h'

/-- **The reader accepts exactly the grammar of types.** Every text has one sequence of words, and
what is read off the text is the type that they spell.  They spell one if there are words and the
first does not start with a star, or is an access keyword with others behind it; and two texts that
are accepted give the same type if and only if they have the same words.  A text is refused as empty
if and only if it has no words, and any other text that is refused lacks the access of a pointer: a
pointee is never missing. -/
theorem parse_accepts_exactly_grammar (s : String) :
    ∃ tokens, (∀ other, Text.Runs s.toList other ↔ other = tokens) ∧
      (∀ t, parse s = .ok t ↔ Grammar tokens t) ∧
      ((∃ t, parse s = .ok t) ↔ ∃ first others, tokens = first :: others ∧
        (first.head? ≠ some '*' ∨ (first = "*const".toList ∨ first = "*mut".toList) ∧
          others ≠ [])) ∧
      (parse s = .error .empty ↔ tokens = []) ∧
      (∀ e, parse s = .error e → e = if tokens = [] then .empty else .accessMissing
        (String.ofList (Text.trim s.toList))) ∧
      ∀ s' tokens' t t', Text.Runs s'.toList tokens' → parse s = .ok t → parse s' = .ok t' →
          (t = t' ↔ tokens = tokens') := by
  refine ⟨Text.words s.toList, fun other => Text.runs_iff.trans eq_comm, fun t => parse_eq_ok_iff,
    ?_, parse_eq_empty_iff, fun e he => parse_eq_error he, ?_⟩
  · rw [← Grammar.exists_iff]
    exact exists_congr fun t => parse_eq_ok_iff
  · intro s' tokens' t t' hruns ht ht'
    rw [← hruns.words_eq]
    exact eq_iff_words_eq ht ht'

/-- Other blanks spell the same type, because the words are the same. -/
theorem parse_other_blanks :
    parse "  *const\t[u8;\u00a04]\n" = .ok (.pointer .shared "[u8; 4]") ∧ parse "*const [u8; 4]" =
      .ok (.pointer .shared "[u8; 4]") ∧
      Text.Runs "  *const\t[u8;\u00a04]\n".toList ["*const".toList, "[u8;".toList,
          "4]".toList] := by
  have hodd : parse "  *const\t[u8;\u00a04]\n" =
    .ok (.pointer .shared "[u8; 4]") := by decide +kernel
  have hplain : parse "*const [u8; 4]" = .ok (.pointer .shared "[u8; 4]") := by decide +kernel
  have hruns : Text.Runs "*const [u8; 4]".toList ["*const".toList, "[u8;".toList, "4]".toList] :=
    Text.runs_iff.mpr (by decide +kernel)
  obtain ⟨tokens, htokens, -, -, -, -, hsame⟩ :=
    parse_accepts_exactly_grammar "  *const\t[u8;\u00a04]\n"
  refine ⟨hodd, hplain, (htokens _).mpr ?_⟩
  exact ((hsame _ _ _ _ hruns hodd hplain).mp rfl).symm

end ForeignType

end Bindery
