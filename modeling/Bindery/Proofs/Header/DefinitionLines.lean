/-
# Bindery.Proofs.Header.DefinitionLines -- lines that define a name by an integer literal.

Such a line is a `#define` directive of a name, a value that is a literal in any number of
parentheses, and perhaps a comment.  `DefinesLiteral` is the grammar of these lines.  For a compiler
each of them defines its name, and it is read as a definition by a text that is read as the value of
its literal.
-/
import Bindery.Proofs.Header.Directives
import Bindery.Proofs.Header.Integers

namespace Bindery

open Text

namespace Header

/-! ## The grammar -/

/-- **`IsLiteral value text`** -- the text is the value in decimal without leading zeros or in
hexadecimal, and any letters of a suffix behind it.  The digit of zero is its decimal numeral,
although a compiler counts it as an octal one. -/
def IsLiteral (value : Nat) (text : List Char) : Prop :=
  ∃ base digits numeral suffix, Numeral base digits numeral ∧ (base = .octal → digits = ['0']) ∧
    (∀ c ∈ suffix, isSuffixLetter c = true) ∧ text = numeral ++ suffix ∧
      value = valueOf base.radix digits

/-- A text of nothing but blanks that a compiler knows. -/
def IsSpacing (s : List Char) : Prop :=
  ∀ c ∈ s, isSpace c = true

instance (s : List Char) : Decidable (IsSpacing s) :=
  decidable_of_iff (s.all isSpace = true) List.all_eq_true

/-- Spacing that keeps apart what stands before and behind it. -/
structure IsSeparator (s : List Char) : Prop where
  spacing : IsSpacing s
  ne_nil : s ≠ []

/-- What may stand behind a value: nothing, a comment up to the end of the line, or a comment that
is closed on the line. -/
inductive IsRemark : List Char → Prop
  | nothing : IsRemark []
  | line (text : List Char) : IsRemark ('/' :: '/' :: text)
  | block (text after : List Char) : ¬ "*/".toList <:+: text → IsGap after →
      IsRemark ('/' :: '*' :: (text ++ "*/".toList ++ after))

/-- **`DefinesLiteral name value l`** -- the line is a directive that defines the name by a literal
of the value. -/
inductive DefinesLiteral (name : String) (value : Nat) : List Char → Prop
  | directive {margin inner between behind literal text remark : List Char} :
      IsSpacing margin → IsSpacing inner → IsSeparator between → IsSeparator behind →
      IsLiteral value literal → Enclosed literal text → IsRemark remark →
      DefinesLiteral name value (margin ++ '#' :: (inner ++ ("define".toList ++
        (between ++ (name.toList ++ (behind ++ (text ++ remark)))))))

/-! ## Characters -/

/-- A character that a directive without its remark may hold. -/
def isDirectiveChar (c : Char) : Bool :=
  isBlank c || isNameChar c || c == '#' || c == '(' || c == ')'

theorem isDirectiveChar_of_isBlank {c : Char} (h : isBlank c = true) :
    isDirectiveChar c = true := by
  simp [isDirectiveChar, h]

theorem isDirectiveChar_of_isNameChar {c : Char} (h : isNameChar c = true) :
    isDirectiveChar c = true := by
  simp [isDirectiveChar, h]

theorem IsSpacing.isGap {s : List Char} (h : IsSpacing s) : IsGap s :=
  fun c hc => isBlank_of_isSpace (h c hc)

theorem IsRemark.beforeComment {remark : List Char} (h : IsRemark remark) :
    Header.beforeComment remark = [] := by
  cases h <;> rfl

/-- A value as it is defined: there are no blanks around it, and neither a comment nor a backslash
in it. -/
structure IsValue (s : List Char) : Prop where
  ne_nil : s ≠ []
  first : ∀ c ∈ s.head?, isBlank c = false
  last : ∀ c ∈ s.getLast?, isBlank c = false
  chars : ∀ c ∈ s, isDirectiveChar c = true

/-! ## Literals -/

section Literals

variable {name : String} {value : Nat} {core text l : List Char}

/-- A literal consists of characters of names. -/
theorem IsLiteral.isNameChar (h : IsLiteral value text) :
    text ≠ [] ∧ ∀ c ∈ text, Header.isNameChar c = true := by
  obtain ⟨base, digits, numeral, suffix, hnumeral, -, hsuffix, rfl, -⟩ := h
  obtain ⟨hne, front, hfront⟩ := hnumeral.exists_eq
  refine ⟨by simp [hfront, hne], ?_⟩
  exact List.forall_mem_append.mpr ⟨hnumeral.isNameChar, fun c hc =>
    isNameChar_of_isSuffixLetter (hsuffix c hc)⟩

/-- A literal in parentheses is read as its value, if that fits. -/
theorem IsLiteral.integer? (h : IsLiteral value core) {text : String}
    (htext : Enclosed core text.toList) :
    Header.integer? text = if value ≤ maxValue then some value else none := by
  obtain ⟨base, digits, numeral, suffix, hnumeral, hzero, hsuffix, rfl, rfl⟩ := h
  have hsame : valueOf base.readIn digits = valueOf base.radix digits := by
    cases base with
    | decimal => rfl
    | octal => rw [hzero rfl]; rfl
    | hexadecimal => rfl
  rw [hnumeral.integer?_of_enclosed hsuffix htext, hsame]

/-- Parentheses and blanks are characters of directives. -/
theorem Enclosed.isDirectiveChar (h : Enclosed core text)
    (hcore : ∀ c ∈ core, Header.isNameChar c = true) :
    ∀ c ∈ text, Header.isDirectiveChar c = true := by
  have hblanks : ∀ {gap : List Char}, IsGap gap → ∀ c ∈ gap, Header.isDirectiveChar c = true :=
    fun hgap c hc => isDirectiveChar_of_isBlank (hgap c hc)
  induction h with
  | bare before after hbefore hafter =>
    simp only [List.forall_mem_append]
    exact ⟨⟨hblanks hbefore, fun c hc => isDirectiveChar_of_isNameChar (hcore c hc)⟩,
      hblanks hafter⟩
  | parentheses before after hbefore hafter _ ih =>
    simp only [List.forall_mem_append, List.forall_mem_cons]
    exact ⟨⟨hblanks hbefore, by decide, ih, by decide, by simp⟩, hblanks hafter⟩

/-- Without the blanks around it, a text in parentheses is a value. -/
theorem Enclosed.exists_value (h : Enclosed core text) (hne : core ≠ [])
    (hcore : ∀ c ∈ core, Header.isNameChar c = true) :
    ∃ before value after, text = before ++ (value ++ after) ∧ IsGap before ∧ IsGap after ∧
        IsValue value ∧ Enclosed core value := by
  have hchars := h.isDirectiveChar hcore
  cases h with
  | bare before after hbefore hafter =>
    refine ⟨before, core, after, List.append_assoc .., hbefore, hafter, ⟨hne, ?_, ?_, ?_⟩, ?_⟩
    · exact fun c hc => isBlank_of_isNameChar (hcore c (List.mem_of_mem_head? hc))
    · exact fun c hc => isBlank_of_isNameChar (hcore c (List.mem_of_mem_getLast? hc))
    · exact fun c hc => isDirectiveChar_of_isNameChar (hcore c hc)
    · simpa using @Enclosed.bare core [] [] nofun nofun
  | @parentheses before after inner hbefore hafter hinner =>
    refine ⟨before, '(' :: (inner ++ [')']), after, List.append_assoc .., hbefore, hafter,
      ⟨by simp, ?_, ?_, ?_⟩, ?_⟩
    · rintro _ ⟨⟩
      decide
    · rw [← List.cons_append, List.getLast?_concat]
      rintro _ ⟨⟩
      decide
    · exact fun c hc => hchars c (List.mem_append_left _ (List.mem_append_right _ hc))
    · simpa using Enclosed.parentheses [] [] nofun nofun hinner

/-- For a compiler, a line of the grammar defines its name. -/
theorem DefinesLiteral.exists_directive (h : DefinesLiteral name value l) (hname : IsName name) :
    ∃ tail, Directive isSpace name tail l ∧ EndsName continuesName tail ∧
      '\\' ∉ Header.beforeComment l ∧
      Header.integer? (valueText tail) = if value ≤ maxValue then some value else none := by
  cases h with
  | @directive margin inner between behind literal text remark hmargin hinner hbetween hbehind
      hliteral henclosed hremark =>
    obtain ⟨hne, hcore⟩ := hliteral.isNameChar
    have hblanks : ∀ {gap : List Char}, IsSpacing gap → ∀ c ∈ gap,
        Header.isDirectiveChar c = true :=
      fun hgap c hc => isDirectiveChar_of_isBlank (hgap.isGap c hc)
    have hchars : ∀ c ∈ behind ++ text, Header.isDirectiveChar c = true :=
      List.forall_mem_append.mpr ⟨hblanks hbehind.spacing, henclosed.isDirectiveChar hcore⟩
    have hcut : Header.beforeComment (behind ++ (text ++ remark)) = behind ++ text := by
      have hslash : '/' ∉ behind ++ text := fun hmem => absurd (hchars _ hmem) (by decide)
      rw [← List.append_assoc, beforeComment_append hslash, hremark.beforeComment, List.append_nil]
    refine ⟨behind ++ (text ++ remark), .mk hmargin hinner hbetween.spacing hbetween.ne_nil,
      ?_, ?_, ?_⟩
    · obtain ⟨c, gap, rfl⟩ := List.exists_cons_of_ne_nil hbehind.ne_nil
      have hspace : ∀ c, isSpace c = true → continuesName c = false ∧ c ≠ '(' := by
        intro c hc
        simp only [isSpace, Bool.or_eq_true, beq_iff_eq] at hc
        rcases hc with ((rfl | rfl) | rfl) | rfl <;> decide
      rintro _ ⟨⟩
      exact hspace c (hbehind.spacing c List.mem_cons_self)
    · have hwhole : ∀ c ∈ margin ++ '#' ::
          (inner ++ ("define".toList ++ (between ++ (name.toList ++ (behind ++ text))))),
          Header.isDirectiveChar c = true := by
        rw [List.forall_mem_append, List.forall_mem_cons, List.forall_mem_append,
          List.forall_mem_append, List.forall_mem_append, List.forall_mem_append]
        exact ⟨hblanks hmargin, by decide, hblanks hinner, List.all_eq_true.mp (by decide),
          hblanks hbetween.spacing, fun c hc => isDirectiveChar_of_isNameChar (hname.chars c hc),
          hchars⟩
      rw [beforeComment_directive hmargin.isGap hinner.isGap hbetween.spacing.isGap hname, hcut]
      exact fun hmem => absurd (hwhole _ hmem) (by decide)
    · -- the blanks around the value belong to the gaps around it
      obtain ⟨before, trimmed, after, rfl, hbefore, hafter, hvalue, htrimmed⟩ :=
        henclosed.exists_value hne hcore
      have htrim : trim (behind ++ (before ++ (trimmed ++ after))) = trimmed := by
        have hgap : IsGap (behind ++ before) :=
          List.forall_mem_append.mpr ⟨hbehind.spacing.isGap, hbefore⟩
        have hframe := trim_frame hgap hafter hvalue.ne_nil hvalue.first hvalue.last
        simpa only [List.append_assoc] using hframe
      rw [valueText, hcut, htrim]
      exact hliteral.integer? (by rwa [String.toList_ofList])

/-- **A line of the grammar is read as a definition of its name, by a text that is read as the value
of its literal.** -/
theorem DefinesLiteral.exists_definition? (h : DefinesLiteral name value l) (hname : IsName name) :
    ∃ text, definition? l = some (name, text) ∧
      Header.integer? text = if value ≤ maxValue then some value else none := by
  obtain ⟨tail, hdirective, hends, hplain, hvalue⟩ := h.exists_directive hname
  have hread : Directive isBlank name tail l := hdirective.mono fun _ => isBlank_of_isSpace
  exact ⟨valueText tail, definition?_of_directive hname hread hends.of_continuesName
    (getLast?_ne_of_notMem hplain), hvalue⟩

end Literals

end Header

end Bindery
