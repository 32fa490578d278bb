/-
# Bindery.Proofs.Header.Directives -- which lines are read as definitions.

A line is read as a definition if it is a `#define` directive of a name, written with any blanks,
and what stands right behind the letters, digits and underscores of the name is no parameter list.
`definition?_eq_some_iff` says so, in both directions.

A compiler is stricter in two respects.  It knows four blanks inside a line where the reader knows
all of Unicode's, and it goes on with a name at a dollar sign or a letter beyond ASCII where the
reader stops.  `DefinesMacro` is what a compiler sees, `Misread` are the lines that are taken for
definitions although they are none, or define another name; there are no other lines that are read
as definitions.
-/
import Bindery.Proofs.Header.Definitions
import Bindery.Proofs.Text.Blank

namespace Bindery

open Text

namespace Header

/-! ## The grammar -/

/-- A name of a macro. -/
structure IsName (name : String) : Prop where
  ne_empty : name ≠ ""
  chars : ∀ c ∈ name.toList, isNameChar c = true

/-- **`Directive blank name tail l`** -- the line is a `#define` directive of the name, with `tail`
right behind the name.  Blanks of the given kind stand around the mark and behind the keyword. -/
inductive Directive (blank : Char → Bool) (name : String) (tail : List Char) : List Char → Prop
  | mk {margin inner between : List Char} : (∀ c ∈ margin, blank c = true) →
      (∀ c ∈ inner, blank c = true) → (∀ c ∈ between, blank c = true) → between ≠ [] →
      Directive blank name tail
        (margin ++ '#' :: (inner ++ ("define".toList ++ (between ++ (name.toList ++ tail)))))

/-- What stands behind a name ends it and is no parameter list. -/
def EndsName (continues : Char → Bool) (tail : List Char) : Prop :=
  ∀ c ∈ tail.head?, continues c = false ∧ c ≠ '('

/-- The blanks that a compiler knows inside a line: space, tab, vertical tab and form feed. -/
def isSpace (c : Char) : Bool :=
  c == ' ' || c == '\t' || c == '\x0b' || c == '\x0c'

/-- A character with which a compiler may go on in a name: beside letters, digits and underscores
these are the dollar sign and what lies beyond ASCII. -/
def continuesName (c : Char) : Bool :=
  isNameChar c || c == '$' || decide (128 ≤ c.toNat)

/-- **`DefinesMacro name l`** -- for a compiler the line defines the name, as a macro without
parameters. -/
def DefinesMacro (name : String) (l : List Char) : Prop :=
  ∃ tail, Directive isSpace name tail l ∧ EndsName continuesName tail

/-- **`Misread name tail l`** -- the line resembles a definition of the name, with `tail` behind it,
but there the name goes on, or one of the blanks is none for a compiler. -/
inductive Misread (name : String) : List Char → List Char → Prop
  | longerName {c : Char} {rest l : List Char} : Directive isBlank name (c :: rest) l →
      c = '$' ∨ 128 ≤ c.toNat → Misread name (c :: rest) l
  | otherBlank {tail l : List Char} : Directive isBlank name tail l → EndsName isNameChar tail →
      ¬ Directive isSpace name tail l → Misread name tail l

/-- The text that is read behind a name. -/
def valueText (tail : List Char) : String :=
  String.ofList (trim (beforeComment tail))

/-! ## Characters -/

theorem isBlank_of_isSpace {c : Char} (h : isSpace c = true) : isBlank c = true := by
  simp only [isSpace, Bool.or_eq_true, beq_iff_eq] at h
  rcases h with ((rfl | rfl) | rfl) | rfl <;> decide

theorem continuesName_of_isNameChar {c : Char} (h : isNameChar c = true) :
    continuesName c = true := by
  simp [continuesName, h]

theorem EndsName.of_continuesName {tail : List Char} (h : EndsName continuesName tail) :
    EndsName isNameChar tail := by
  intro c hc
  obtain ⟨hcontinues, hparenthesis⟩ := h c hc
  refine ⟨?_, hparenthesis⟩
  rw [← Bool.not_eq_true] at hcontinues ⊢
  exact mt continuesName_of_isNameChar hcontinues

section Lines

variable {name text : String} {tail l : List Char}

theorem Directive.mono {blank other : Char → Bool} (h : Directive blank name tail l)
    (hblank : ∀ c, blank c = true → other c = true) : Directive other name tail l := by
  obtain ⟨hmargin, hinner, hbetween, hne⟩ := h
  exact ⟨fun c hc => hblank c (hmargin c hc), fun c hc => hblank c (hinner c hc),
    fun c hc => hblank c (hbetween c hc), hne⟩

/-! ## Comments -/

/-- A line without backslash in front of its comment is not continued. -/
theorem getLast?_ne_of_notMem (h : '\\' ∉ beforeComment l) :
    (trim (beforeComment l)).getLast? ≠ some '\\' := by
  intro hlast
  obtain ⟨before, after, hframe, -, -⟩ := exists_trim_frame (beforeComment l)
  refine h ?_
  rw [hframe]
  exact List.mem_append_right _ (List.mem_append_left _ (List.mem_of_getLast? hlast))

/-! ## Parts of a directive -/

/-- What follows the keyword, in a directive as it is read. -/
theorem directive?_eq_some_iff {s rest : List Char} :
    directive? s = some rest ↔ ∃ inner, (∀ c ∈ inner, isBlank c = true) ∧
      (∃ c more, rest = c :: more ∧ isBlank c = true) ∧
      s = '#' :: (inner ++ ("define".toList ++ rest)) := by
  constructor
  · intro h
    unfold directive? at h
    split at h
    · rename_i behind
      rw [stripKeyword?] at h
      split at h
      · rename_i c more hprefix
        split at h
        · rename_i hblank
          cases h
          refine ⟨behind.takeWhile isBlank, fun c hc => List.mem_takeWhile_imp hc,
            ⟨c, more, rfl, hblank⟩, ?_⟩
          have hkeyword := List.isPrefixOf?_eq_some_iff_append_eq.mp hprefix
          rw [hkeyword, trimStart, List.takeWhile_append_dropWhile]
        · cases h
      · cases h
    · cases h
  · rintro ⟨inner, hinner, ⟨c, more, rfl, hblank⟩, rfl⟩
    have hkeyword : trimStart (inner ++ ("define".toList ++ c :: more)) =
        "define".toList ++ c :: more := by
      refine trimStart_append hinner ?_
      rintro _ ⟨⟩
      decide
    have hprefix : "define".toList.isPrefixOf? ("define".toList ++ c :: more) =
        some (c :: more) := rfl
    rw [directive?, hkeyword, stripKeyword?, hprefix]
    exact if_pos hblank

/-- The name and the value behind the keyword, as they are read. -/
theorem nameAndValue?_eq_some_iff {rest : List Char} :
    nameAndValue? rest = some (name, text) ↔ IsName name ∧ ∃ value,
      rest = name.toList ++ value ∧ EndsName isNameChar value ∧
        text = String.ofList (trim value) := by
  constructor
  · intro h
    rw [nameAndValue?] at h
    split at h
    · cases h
    · rename_i hrest
      rw [Bool.or_eq_true, not_or, beq_iff_eq, List.isEmpty_iff] at hrest
      cases h
      refine ⟨⟨?_, ?_⟩, rest.dropWhile isNameChar, ?_, ?_, rfl⟩
      · rw [ne_eq, ← String.toList_eq_nil_iff, String.toList_ofList]
        exact hrest.1
      · rw [String.toList_ofList]
        exact fun c hc => List.mem_takeWhile_imp hc
      · rw [String.toList_ofList, List.takeWhile_append_dropWhile]
      · intro c hc
        refine ⟨?_, fun hparenthesis => hrest.2 (hparenthesis ▸ hc)⟩
        have hhead := List.head?_dropWhile_not isNameChar rest
        rw [Option.mem_def.mp hc] at hhead
        simpa using hhead
  · rintro ⟨⟨hne, hchars⟩, value, rfl, hends, rfl⟩
    have htake : (name.toList ++ value).takeWhile isNameChar = name.toList := by
      rw [List.takeWhile_append_of_pos hchars]
      cases value with
      | nil => rw [List.takeWhile_nil, List.append_nil]
      | cons c rest =>
        rw [List.takeWhile_cons_of_neg (by simp [(hends c rfl).1]), List.append_nil]
    have hdrop : (name.toList ++ value).dropWhile isNameChar = value := by
      rw [List.dropWhile_append_of_pos hchars]
      cases value with
      | nil => rfl
      | cons c rest => rw [List.dropWhile_cons_of_neg (by simp [(hends c rfl).1])]
    have hempty : name.toList.isEmpty = false := by
      rw [List.isEmpty_eq_false_iff, ne_eq, String.toList_eq_nil_iff]
      exact hne
    have hhead : (value.head? == some '(') = false := by
      rw [beq_eq_false_iff_ne]
      exact fun hparenthesis => (hends '(' hparenthesis).2 rfl
    rw [nameAndValue?, htake, hdrop, hempty, hhead, String.ofList_toList]
    rfl

/-! ## Lines -/

/-- What a name ends with ends it also where less follows. -/
theorem EndsName.of_prefix {continues : Char → Bool} {front : List Char}
    (h : EndsName continues tail) (hfront : front <+: tail) : EndsName continues front := by
  obtain ⟨rest, rfl⟩ := hfront
  intro c hc
  exact h c (List.mem_head?_append_of_mem_head? hc)

/-- Blanks and a comment end a name as well. -/
theorem EndsName.append_blanks {value after comment : List Char} (h : EndsName isNameChar value)
    (hafter : ∀ c ∈ after, isBlank c = true) (hcomment : ∀ c ∈ comment.head?, c = '/') :
    EndsName isNameChar (value ++ (after ++ comment)) := by
  cases value with
  | cons c rest =>
    rintro _ ⟨⟩
    exact h c rfl
  | nil =>
    cases after with
    | cons c rest =>
      rintro _ ⟨⟩
      have hblank : isBlank c = true := hafter c List.mem_cons_self
      refine ⟨?_, ?_⟩
      · rw [← Bool.not_eq_true]
        intro hname
        rw [isBlank_of_isNameChar hname] at hblank
        cases hblank
      · rintro rfl
        exact absurd hblank (by decide)
    | nil =>
      intro c hc
      rw [hcomment c hc]
      decide

section Parts

variable {margin inner between : List Char}

/-- Up to the end of the name, a directive holds no slash. -/
theorem beforeComment_directive (hmargin : ∀ c ∈ margin, isBlank c = true)
    (hinner : ∀ c ∈ inner, isBlank c = true) (hbetween : ∀ c ∈ between, isBlank c = true)
    (hname : IsName name) (tail : List Char) :
    beforeComment
        (margin ++ '#' :: (inner ++ ("define".toList ++ (between ++ (name.toList ++ tail))))) =
      margin ++
        '#' ::
            (inner ++ ("define".toList ++ (between ++ (name.toList ++ beforeComment tail)))) := by
  have hfree : ∀ {gap : List Char}, (∀ c ∈ gap, isBlank c = true) → '/' ∉ gap :=
    fun hgap hmem => absurd (hgap _ hmem) (by decide)
  have hslash : '/' ∉
      margin ++ '#' :: (inner ++ ("define".toList ++ (between ++ name.toList))) := by
    simp only [List.mem_append, List.mem_cons, not_or]
    exact ⟨hfree hmargin, by decide, hfree hinner, by decide, hfree hbetween,
      fun hmem => absurd (hname.chars _ hmem) (by decide)⟩
  simpa only [List.append_assoc, List.cons_append] using beforeComment_append hslash tail

/-- Trimming takes the margin off a directive, and blanks off its end. -/
theorem trim_directive (hmargin : ∀ c ∈ margin, isBlank c = true) (hname : IsName name)
    (tail : List Char) :
    trim (margin ++ '#' :: (inner ++ ("define".toList ++ (between ++ (name.toList ++ tail))))) =
      '#' :: (inner ++ ("define".toList ++ (between ++ (name.toList ++ trimEnd tail)))) := by
  have hne : name.toList ≠ [] := mt String.toList_eq_nil_iff.mp hname.ne_empty
  have hlast : ∀ c ∈ ('#' :: (inner ++ ("define".toList ++ (between ++ name.toList)))).getLast?,
      isBlank c = false := by
    intro c hc
    simp only [← List.cons_append, ← List.append_assoc, List.getLast?_append_of_ne_nil _ hne] at hc
    exact isBlank_of_isNameChar (hname.chars c (List.mem_of_mem_getLast? hc))
  have hend := trimEnd_append_of_getLast? (List.cons_ne_nil _ _) hlast tail
  simp only [List.append_assoc, List.cons_append] at hend
  rw [trim, trimStart_append hmargin, hend]
  rintro _ ⟨⟩
  decide

end Parts

/-- A line that is read as a definition is a directive. -/
theorem exists_directive_of_definition? (h : definition? l = some (name, text)) : IsName name ∧
    (∃ tail, Directive isBlank name tail l ∧ EndsName isNameChar tail ∧ text = valueText tail) ∧
      (trim (beforeComment l)).getLast? ≠ some '\\' := by
  rw [definition?] at h
  split at h
  · rename_i rest hdirective
    split at h
    · cases h
    · rename_i hlast
      obtain ⟨hname, value, hvalue, hends, rfl⟩ := nameAndValue?_eq_some_iff.mp h
      obtain ⟨inner, hinner, ⟨c, more, hrest, hblank⟩, htext⟩ :=
        directive?_eq_some_iff.mp hdirective
      have hbetween : ∃ between, (∀ c ∈ between, isBlank c = true) ∧ between ≠ [] ∧
          rest = between ++ (name.toList ++ value) := by
        refine ⟨rest.takeWhile isBlank, fun c hc => List.mem_takeWhile_imp hc, ?_, ?_⟩
        · rw [hrest, List.takeWhile_cons_of_pos hblank]
          exact List.cons_ne_nil _ _
        · rw [← hvalue, trimStart, List.takeWhile_append_dropWhile]
      obtain ⟨between, hbetween, hne, rfl⟩ := hbetween
      -- the blanks around the line and its comment belong to what stands around the name
      obtain ⟨margin, after, hframe, hmargin, hafter⟩ := exists_trim_frame (beforeComment l)
      obtain ⟨comment, hl, hcomment⟩ := exists_eq_beforeComment_append l
      have hline : l = margin ++ '#' :: (inner ++ ("define".toList ++
          (between ++ (name.toList ++ (value ++ (after ++ comment)))))) := by
        rw [hl, hframe, htext]
        simp only [List.append_assoc, List.cons_append]
      have hcut : beforeComment (value ++ (after ++ comment)) = value ++ after := by
        have hwhole := beforeComment_directive hmargin hinner hbetween hname
          (value ++ (after ++ comment))
        rw [← hline, hframe, htext] at hwhole
        simpa using hwhole.symm
      refine ⟨hname, ⟨value ++ (after ++ comment), ?_, hends.append_blanks hafter hcomment, ?_⟩,
        hlast⟩
      · rw [hline]
        exact .mk hmargin hinner hbetween hne
      · rw [valueText, hcut, trim_append_blanks hafter]
  · cases h

/-- A directive whose line is not continued is read as a definition. -/
theorem definition?_of_directive (hname : IsName name) (hdirective : Directive isBlank name tail l)
    (hends : EndsName isNameChar tail) (hlast : (trim (beforeComment l)).getLast? ≠ some '\\') :
    definition? l = some (name, valueText tail) := by
  obtain ⟨hmargin, hinner, hbetween, hne⟩ := hdirective
  rename_i margin inner between
  have htrim : trim (beforeComment (margin ++ '#' :: (inner ++ ("define".toList ++
      (between ++ (name.toList ++ tail)))))) =
      '#' :: (inner ++ ("define".toList ++
        (between ++ (name.toList ++ trimEnd (beforeComment tail))))) := by
    rw [beforeComment_directive hmargin hinner hbetween hname, trim_directive hmargin hname]
  rw [definition?]
  generalize trim (beforeComment _) = whole at htrim hlast ⊢
  have hread : directive? whole =
      some (between ++ (name.toList ++ trimEnd (beforeComment tail))) := by
    obtain ⟨c, gap, rfl⟩ := List.exists_cons_of_ne_nil hne
    exact directive?_eq_some_iff.mpr
      ⟨inner, hinner, ⟨c, _, rfl, hbetween c List.mem_cons_self⟩, htrim⟩
  have hstart : trimStart (between ++ (name.toList ++ trimEnd (beforeComment tail))) =
      name.toList ++ trimEnd (beforeComment tail) := by
    refine trimStart_append hbetween fun c hc => isBlank_of_isNameChar (hname.chars c ?_)
    rw [List.head?_append_of_ne_nil _ (mt String.toList_eq_nil_iff.mp hname.ne_empty)] at hc
    exact List.mem_of_mem_head? hc
  have hvalue : EndsName isNameChar (trimEnd (beforeComment tail)) := by
    obtain ⟨comment, htail, -⟩ := exists_eq_beforeComment_append tail
    have hkept : trimEnd (beforeComment tail) <+: beforeComment tail := trimEnd_prefix _
    exact hends.of_prefix (hkept.trans ⟨comment, htail.symm⟩)
  simp only [hread, if_neg hlast, hstart]
  exact nameAndValue?_eq_some_iff.mpr ⟨hname, _, rfl, hvalue, by rw [valueText, trim_trimEnd]⟩

/-- **Which lines are read as definitions**: directives of a name that ends where its letters,
digits and underscores do, without parameters, whose line is not continued. -/
theorem definition?_eq_some_iff : definition? l = some (name, text) ↔ IsName name ∧
    (∃ tail, Directive isBlank name tail l ∧ EndsName isNameChar tail ∧ text = valueText tail) ∧
      (trim (beforeComment l)).getLast? ≠ some '\\' := by
  refine ⟨exists_directive_of_definition?, ?_⟩
  rintro ⟨hname, ⟨tail, hdirective, hends, rfl⟩, hlast⟩
  exact definition?_of_directive hname hdirective hends hlast

/-! ## Compilers -/

/-- What is beyond ASCII, or a dollar sign, is no character of a name as it is read. -/
theorem endsName_of_longerName {c : Char} {rest : List Char} (h : c = '$' ∨ 128 ≤ c.toNat) :
    EndsName isNameChar (c :: rest) := by
  rintro _ ⟨⟩
  rcases h with rfl | hlarge
  · decide
  · refine ⟨?_, ?_⟩
    · rw [← Bool.not_eq_true]
      intro hname
      exact absurd hlarge (Nat.not_le_of_lt (toNat_lt_of_isNameChar hname))
    · rintro rfl
      exact absurd hlarge (by decide)

theorem Misread.directive (h : Misread name tail l) :
    Directive isBlank name tail l ∧ EndsName isNameChar tail := by
  cases h with
  | longerName hdirective hc => exact ⟨hdirective, endsName_of_longerName hc⟩
  | otherBlank hdirective hends _ => exact ⟨hdirective, hends⟩

/-- A directive as it is read is one for a compiler, or it is misread. -/
theorem Directive.definesMacro_or_misread (hdirective : Directive isBlank name tail l)
    (hends : EndsName isNameChar tail) :
    Directive isSpace name tail l ∧ EndsName continuesName tail ∨ Misread name tail l := by
  by_cases hspace : Directive isSpace name tail l
  · by_cases hcontinues : EndsName continuesName tail
    · exact Or.inl ⟨hspace, hcontinues⟩
    · -- the character behind the name ends it as it is read, and not for a compiler
      rw [EndsName] at hcontinues
      push Not at hcontinues
      obtain ⟨c, hc, hcontinues⟩ := hcontinues
      obtain ⟨rest, rfl⟩ := List.head?_eq_some_iff.mp hc
      obtain ⟨hname, hparenthesis⟩ := hends c hc
      have hgoes : continuesName c = true := by
        rw [← Bool.not_eq_false]
        exact fun hstops => hparenthesis (hcontinues hstops)
      refine Or.inr (.longerName hdirective ?_)
      simpa [continuesName, hname] using hgoes
  · exact Or.inr (.otherBlank hdirective hends hspace)

/-- **A line without backslash is read as a definition exactly if it defines the name for a compiler
or resembles such a line.** -/
theorem definition?_eq_some_iff_of_notMem (hplain : '\\' ∉ l) :
    definition? l = some (name, text) ↔ IsName name ∧ ∃ tail, text = valueText tail ∧
      (Directive isSpace name tail l ∧ EndsName continuesName tail ∨ Misread name tail l) := by
  have hlast := getLast?_ne_of_notMem (mt mem_of_mem_beforeComment hplain)
  rw [definition?_eq_some_iff, and_iff_left hlast]
  refine and_congr_right fun hname => exists_congr fun tail => ?_
  constructor
  · rintro ⟨hdirective, hends, rfl⟩
    exact ⟨rfl, hdirective.definesMacro_or_misread hends⟩
  · rintro ⟨rfl, ⟨hspace, hcontinues⟩ | hmisread⟩
    · exact ⟨hspace.mono fun _ => isBlank_of_isSpace, hcontinues.of_continuesName, rfl⟩
    · exact ⟨hmisread.directive.1, hmisread.directive.2, rfl⟩

/-- A line that defines a name for a compiler is read as a definition of it. -/
theorem DefinesMacro.exists_definition? (h : DefinesMacro name l) (hname : IsName name)
    (hplain : '\\' ∉ beforeComment l) : ∃ text, definition? l = some (name, text) := by
  obtain ⟨tail, hdirective, hends⟩ := h
  have hread : Directive isBlank name tail l := hdirective.mono fun _ => isBlank_of_isSpace
  exact ⟨valueText tail, definition?_of_directive hname hread hends.of_continuesName
    (getLast?_ne_of_notMem hplain)⟩

/-- A line is misread only where it holds a dollar sign, a character beyond ASCII or a blank that a
compiler does not know. -/
theorem not_misread_of_plain
    (h : ∀ c ∈ l, c ≠ '$' ∧ c.toNat < 128 ∧ (isBlank c = true → isSpace c = true)) :
    ¬ Misread name tail l := by
  rintro (⟨⟨-, -, -, -⟩, hc⟩ | ⟨hdirective, -, hspace⟩)
  · rename_i c rest margin inner between
    obtain ⟨hdollar, hsmall, -⟩ := h c (by simp)
    rcases hc with rfl | hlarge
    · exact hdollar rfl
    · exact absurd hlarge (Nat.not_le_of_lt hsmall)
  · obtain ⟨hmargin, hinner, hbetween, hne⟩ := hdirective
    simp only [List.forall_mem_append, List.forall_mem_cons] at h
    obtain ⟨hmargin', -, hinner', -, hbetween', -⟩ := h
    exact hspace (.mk (fun c hc => (hmargin' c hc).2.2 (hmargin c hc))
      (fun c hc => (hinner' c hc).2.2 (hinner c hc))
      (fun c hc => (hbetween' c hc).2.2 (hbetween c hc)) hne)

/-! ## Uniqueness -/

/-- The name and what stands behind it are what is left without margin, mark and keyword. -/
theorem Directive.append_eq (hname : IsName name) (h : Directive isBlank name tail l) :
    name.toList ++ tail = trimStart ((trimStart ((trimStart l).drop 1)).drop 6) := by
  obtain ⟨hmargin, hinner, hbetween, -⟩ := h
  rename_i margin inner between
  have hhead : ∀ c ∈ (name.toList ++ tail).head?, isBlank c = false := by
    intro c hc
    rw [List.head?_append_of_ne_nil _ (mt String.toList_eq_nil_iff.mp hname.ne_empty)] at hc
    exact isBlank_of_isNameChar (hname.chars c (List.mem_of_mem_head? hc))
  have hkeyword : ∀ rest : List Char, trimStart (inner ++ ("define".toList ++ rest)) =
      "define".toList ++ rest := by
    intro rest
    refine trimStart_append hinner ?_
    rintro _ ⟨⟩
    decide
  have hmark : ∀ rest : List Char, trimStart (margin ++ '#' :: rest) = '#' :: rest := by
    intro rest
    refine trimStart_append hmargin ?_
    rintro _ ⟨⟩
    decide
  rw [hmark, List.drop_succ_cons, List.drop_zero, hkeyword]
  exact (trimStart_append hbetween hhead).symm

/-- **A line is a directive of one name with one text behind it.** -/
theorem Directive.unique {other : String} {rest : List Char} (hname : IsName name)
    (hother : IsName other) (h : Directive isBlank name tail l)
    (h' : Directive isBlank other rest l) (hends : EndsName isNameChar tail)
    (hends' : EndsName isNameChar rest) : name = other ∧ tail = rest := by
  have hsame := (h.append_eq hname).trans (h'.append_eq hother).symm
  have hcut : ∀ {name : String} {tail : List Char}, IsName name → EndsName isNameChar tail →
      nameAndValue? (name.toList ++ tail) = some (name, String.ofList (trim tail)) :=
    fun hname hends => nameAndValue?_eq_some_iff.mpr ⟨hname, _, rfl, hends, rfl⟩
  have hread := hcut hname hends
  rw [hsame, hcut hother hends'] at hread
  obtain rfl := (Prod.mk.inj (Option.some.inj hread)).1
  exact ⟨rfl, List.append_cancel_left hsame⟩

/-- A line that is misread defines no name for a compiler. -/
theorem Misread.not_definesMacro {other : String} (h : Misread name tail l) (hname : IsName name)
    (hother : IsName other) : ¬ DefinesMacro other l := by
  rintro ⟨rest, hdirective, hends⟩
  obtain ⟨rfl, rfl⟩ := h.directive.1.unique hname hother
    (hdirective.mono fun _ => isBlank_of_isSpace) h.directive.2 hends.of_continuesName
  cases h with
  | longerName _ hc =>
    have hcontinues := (hends _ rfl).1
    rcases hc with rfl | hlarge
    · exact absurd hcontinues (by decide)
    · simp [continuesName, hlarge] at hcontinues
  | otherBlank _ _ hspace => exact hspace hdirective

end Lines

end Header

end Bindery
