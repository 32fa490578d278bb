/-
# Bindery.Proofs.Text.Words -- the words of a text.

The words are found by cutting at every blank and leaving out what is empty.  `Runs` says what they
are without any cutting: runs of characters that are not blank, each of them as long as possible,
with nothing but blanks before and between them.  All of it rests on one equation,
`words_append_blank`: a blank separates the words before it from those behind it.
-/
import Bindery.Proofs.Text.Blank

namespace Bindery.Text

/-! ## Runs -/

/-- What can be a word: it is not empty and holds no blank. -/
structure IsToken (word : List Char) : Prop where
  ne_nil : word ≠ []
  free : ∀ c ∈ word, isBlank c = false

/-- **`Runs s ws`** -- `ws` are the maximal runs of characters of `s` that are not blank, in their
order. -/
inductive Runs : List Char → List (List Char) → Prop
  /-- Blanks alone hold none. -/
  | blank {s : List Char} : (∀ c ∈ s, isBlank c = true) → Runs s []
  /-- The first one starts after the blanks in front and goes on until a blank or the end. -/
  | word (blanks word rest : List Char) {ws : List (List Char)} : (∀ c ∈ blanks, isBlank c = true) →
      IsToken word →
      (∀ c ∈ rest.head?, isBlank c = true) → Runs rest ws →
        Runs (blanks ++ (word ++ rest)) (word :: ws)

/-! ## Cuts -/

/-- **A blank separates the words before it from those behind it.** -/
theorem words_append_blank {c : Char} (h : isBlank c = true) (s t : List Char) :
    words (s ++ c :: t) = words s ++ words t := by
  rw [words, List.splitOnP_append_cons s t h, List.filter_append]
  rfl

/-- A blank in front belongs to no word. -/
theorem words_cons_of_isBlank {c : Char} (h : isBlank c = true) (s : List Char) :
    words (c :: s) = words s :=
  words_append_blank h [] s

/-- Nor do many. -/
theorem words_blanks_append {blanks : List Char} (h : ∀ c ∈ blanks, isBlank c = true)
    (s : List Char) :
    words (blanks ++ s) = words s := by
  induction blanks with
  | nil => rfl
  | cons c rest ih =>
    rw [List.forall_mem_cons] at h
    rw [List.cons_append, words_cons_of_isBlank h.1, ih h.2]

/-- A text of blanks has no words. -/
theorem words_eq_nil {s : List Char} (h : ∀ c ∈ s, isBlank c = true) : words s = [] := by
  have hnil := words_blanks_append h []
  rwa [List.append_nil] at hnil

/-- Blanks behind belong to no word either. -/
theorem words_append_blanks {blanks : List Char} (h : ∀ c ∈ blanks, isBlank c = true)
    (s : List Char) :
    words (s ++ blanks) = words s := by
  cases blanks with
  | nil => rw [List.append_nil]
  | cons c rest =>
    rw [List.forall_mem_cons] at h
    rw [words_append_blank h.1, words_eq_nil h.2, List.append_nil]

/-- A word is its only word. -/
theorem IsToken.words_eq {word : List Char} (h : IsToken word) : words word = [word] := by
  rw [words, List.splitOnP_eq_singleton h.free]
  simp [h.ne_nil]

/-- A word that ends at a blank or with the text comes before the words that follow. -/
theorem IsToken.words_append {word rest : List Char} (h : IsToken word)
    (hrest : ∀ c ∈ rest.head?, isBlank c = true) :
    words (word ++ rest) = word :: words rest := by
  cases rest with
  | nil => rw [List.append_nil, h.words_eq, words_eq_nil (by simp)]
  | cons c rest =>
    have hblank : isBlank c = true := hrest c rfl
    rw [words_append_blank hblank, words_cons_of_isBlank hblank, h.words_eq]
    rfl

/-- What the cuts leave are words. -/
theorem isToken_of_mem_words {s word : List Char} (h : word ∈ words s) : IsToken word := by
  simp only [words, List.mem_filter, Bool.not_eq_true', List.isEmpty_eq_false_iff] at h
  exact ⟨h.2, splitOnP_free _ _ _ h.1⟩

/-! ## The words are the runs -/

theorem Runs.words_eq {s : List Char} {ws : List (List Char)} (h : Runs s ws) : words s = ws := by
  induction h with
  | blank hblank => exact words_eq_nil hblank
  | word _ _ _ hblanks hword hrest _ ih =>
    rw [words_blanks_append hblanks, hword.words_append hrest, ih]

/-- Every text has its runs. -/
theorem exists_runs (s : List Char) : ∃ ws, Runs s ws := by
  induction s with
  | nil => exact ⟨[], .blank nofun⟩
  | cons c s ih =>
    obtain ⟨ws, hruns⟩ := ih
    cases hc : isBlank c with
    | true =>
      -- the blanks in front are one more
      cases hruns with
      | blank hblank => exact ⟨[], .blank (List.forall_mem_cons.mpr ⟨hc, hblank⟩)⟩
      | word blanks word rest hblanks hword hrest hruns =>
        exact ⟨_, .word (c :: blanks) word rest (List.forall_mem_cons.mpr ⟨hc, hblanks⟩)
          hword hrest hruns⟩
    | false =>
      have hsingle : IsToken [c] := ⟨by simp, by simpa using hc⟩
      cases hruns with
      | blank hblank =>
        refine ⟨[[c]], .word [] [c] s nofun hsingle (fun d hd => ?_) (.blank hblank)⟩
        exact hblank d (List.mem_of_mem_head? hd)
      | @word blanks word rest others hblanks hword hrest hruns =>
        cases blanks with
        | nil =>
          -- the character starts the word that follows
          have hlonger : IsToken (c :: word) := ⟨by simp, List.forall_mem_cons.mpr ⟨hc, hword.free⟩⟩
          exact ⟨_, .word [] (c :: word) rest nofun hlonger hrest hruns⟩
        | cons b blanks =>
          refine ⟨[c] :: word :: others,
            .word [] [c] _ nofun hsingle ?_ (.word (b :: blanks) word rest hblanks hword hrest
              hruns)⟩
          rintro _ ⟨⟩
          exact hblanks b List.mem_cons_self

/-- **The words of a text are its runs.** -/
theorem runs_iff {s : List Char} {ws : List (List Char)} : Runs s ws ↔ words s = ws := by
  constructor
  · exact Runs.words_eq
  · rintro rfl
    obtain ⟨ws, hruns⟩ := exists_runs s
    rwa [hruns.words_eq]

/-! ## Words joined and trimmed texts -/

/-- Words that are joined by spaces are the words of the joined text. -/
theorem words_intercalate {ws : List (List Char)} (h : ∀ word ∈ ws, IsToken word) :
    words ([' '].intercalate ws) = ws := by
  induction ws with
  | nil => rfl
  | cons word rest ih =>
    rw [List.forall_mem_cons] at h
    cases rest with
    | nil => rw [List.intercalate_singleton, h.1.words_eq]
    | cons next others =>
      have hspace : words (word ++ ' ' :: [' '].intercalate (next :: others)) =
          word :: next :: others := by
        rw [words_append_blank (by decide), h.1.words_eq, ih h.2]
        rfl
      rwa [List.intercalate_cons_cons, List.append_assoc]

/-- What stands in joined parts stands between them or in one of them. -/
theorem mem_of_mem_intercalate {c : Char} {between : List Char} {parts : List (List Char)}
    (h : c ∈ between.intercalate parts) :
    c ∈ between ∨ ∃ part ∈ parts, c ∈ part := by
  induction parts with
  | nil => cases h
  | cons part rest ih =>
    cases rest with
    | nil =>
      rw [List.intercalate_singleton] at h
      exact Or.inr ⟨part, List.mem_cons_self, h⟩
    | cons next others =>
      rw [List.intercalate_cons_cons, List.mem_append, List.mem_append] at h
      rcases h with (h | h) | h
      · exact Or.inr ⟨part, List.mem_cons_self, h⟩
      · exact Or.inl h
      · rcases ih h with h | ⟨other, hother, h⟩
        · exact Or.inl h
        · exact Or.inr ⟨other, List.mem_cons_of_mem part hother, h⟩

/-- Joined words start like the first of them. -/
theorem head?_intercalate {word : List Char} {ws : List (List Char)} (h : IsToken word) :
    ([' '].intercalate (word :: ws)).head? = word.head? := by
  cases ws with
  | nil => rw [List.intercalate_singleton]
  | cons next others =>
    rw [List.intercalate_cons_cons, List.append_assoc, List.head?_append_of_ne_nil word h.ne_nil]

/-- Words that are joined by spaces stand on one line. -/
theorem lineFeed_notMem_intercalate {ws : List (List Char)} (h : ∀ word ∈ ws, IsToken word) :
    '\n' ∉ [' '].intercalate ws := by
  intro hmem
  rcases mem_of_mem_intercalate hmem with hmem | ⟨word, hword, hmem⟩
  · exact absurd hmem (by decide)
  · exact absurd ((h word hword).free '\n' hmem) (by decide)

/-- Trimming leaves the words as they are. -/
theorem words_trim (s : List Char) : words (trim s) = words s := by
  obtain ⟨before, after, hs, hbefore, hafter⟩ := exists_trim_frame s
  calc words (trim s)
      = words (before ++ (trim s ++ after)) := by
        rw [words_blanks_append hbefore, words_append_blanks hafter]
    _ = words s := by rw [← hs]

/-- A text has no words if and only if it is blank. -/
theorem words_eq_nil_iff {s : List Char} : words s = [] ↔ ∀ c ∈ s, isBlank c = true := by
  refine ⟨fun h => ?_, words_eq_nil⟩
  cases runs_iff.mpr h with
  | blank hblank => exact hblank

/-- What does not end with a blank has words unless it is empty. -/
theorem words_eq_nil_iff_eq_nil {s : List Char} (hlast : ∀ c ∈ s.getLast?, isBlank c = false) :
    words s = [] ↔ s = [] := by
  rw [words_eq_nil_iff]
  constructor
  · intro hblank
    rw [← List.getLast?_eq_none_iff, Option.eq_none_iff_forall_not_mem]
    intro c hc
    exact Bool.false_ne_true ((hlast c hc).symm.trans (hblank c (List.mem_of_mem_getLast? hc)))
  · rintro rfl
    simp

/-- The first word of a text stands at the front of the trimmed text.  The other words are those of
what follows, which is either empty, or starts with a blank and holds a word. -/
theorem trim_of_words {s first : List Char} {others : List (List Char)}
    (h : words s = first :: others) :
    ∃ rest, trim s = first ++ rest ∧ words rest = others ∧ (∀ c ∈ rest.head?, isBlank c = true) ∧
      (rest = [] ↔ others = []) := by
  obtain ⟨hhead, hlast⟩ := isBlank_ends_trim s
  have hruns : Runs (trim s) (first :: others) := runs_iff.mpr ((words_trim s).trans h)
  generalize trim s = text at hruns hhead hlast
  cases hruns with
  | @word blanks word rest ws hblanks hword hrest hruns =>
    cases blanks with
    | cons b blanks =>
      have hb : isBlank b = false := hhead b rfl
      rw [hblanks b List.mem_cons_self] at hb
      cases hb
    | nil =>
      refine ⟨rest, rfl, hruns.words_eq, hrest, ?_⟩
      rw [← hruns.words_eq, words_eq_nil_iff_eq_nil]
      intro c hc
      apply hlast
      rw [List.nil_append, List.getLast?_append, Option.mem_def.mp hc]
      rfl

/-! ## Keywords -/

/-- A keyword is stripped off a text that starts with it and goes on with a blank. -/
theorem stripKeyword?_eq_some_iff {keyword s rest : List Char} :
    stripKeyword? keyword s = some rest ↔ s = keyword ++ rest ∧ ∃ c ∈ rest.head?,
        isBlank c = true := by
  unfold stripKeyword?
  constructor
  · intro h
    split at h
    · rename_i c behind hprefix
      split at h
      · rename_i hblank
        cases h
        exact ⟨(List.isPrefixOf?_eq_some_iff_append_eq.mp hprefix).symm, c, rfl, hblank⟩
      · cases h
    · cases h
  · rintro ⟨rfl, c, hc, hblank⟩
    obtain ⟨behind, rfl⟩ := List.head?_eq_some_iff.mp hc
    rw [List.isPrefixOf?_eq_some_iff_append_eq.mpr rfl]
    exact if_pos hblank

/-- From a trimmed text a keyword is stripped off if it is the first word and not the only one. -/
theorem exists_stripKeyword?_trim {s first : List Char} {others : List (List Char)}
    (h : words s = first :: others) :
    ∃ rest, words rest = others ∧ ∀ keyword, IsToken keyword →
      stripKeyword? keyword (trim s) = if first = keyword ∧
          others ≠ [] then some rest else none := by
  obtain ⟨rest, htrim, hwords, hblank, hnil⟩ := trim_of_words h
  refine ⟨rest, hwords, fun keyword hkeyword => ?_⟩
  split
  · rename_i hfirst
    obtain ⟨rfl, hothers⟩ := hfirst
    rw [ne_eq, ← hnil] at hothers
    obtain ⟨c, behind, rfl⟩ := List.exists_cons_of_ne_nil hothers
    exact stripKeyword?_eq_some_iff.mpr ⟨htrim, c, rfl, hblank c rfl⟩
  · rename_i hother
    rw [Option.eq_none_iff_forall_ne_some]
    intro rest' hstrip
    apply hother
    obtain ⟨hcut, c, hc, hc'⟩ := stripKeyword?_eq_some_iff.mp hstrip
    -- the keyword would end at a blank, so it would be the first word, and another word would
    -- follow the blank
    have hfirst : first :: others = keyword :: words rest' := by
      rw [← h, ← words_trim, hcut]
      refine hkeyword.words_append fun d hd => ?_
      rwa [Option.mem_unique hd hc]
    obtain ⟨rfl, -⟩ := List.cons_eq_cons.mp hfirst
    obtain rfl := List.append_cancel_left (htrim.symm.trans hcut)
    refine ⟨rfl, ?_⟩
    rw [ne_eq, ← hnil]
    rintro rfl
    cases hc

end Bindery.Text
