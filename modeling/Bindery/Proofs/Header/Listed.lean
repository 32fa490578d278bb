/-
# Bindery.Proofs.Header.Listed -- headers that list the constants of a variant.

A reference header gives each constant of its variant by one line, in any order and between any
lines that, for a compiler, define none of them.  The names of the constants are read off these
lines exactly, although one may start with another, and what is compared is the value of the
literal, however it is decorated.  So such a header is accepted exactly if its literals are the
values of the constants, and otherwise the first constant whose literal differs is blamed.

There is one exception.  A line between them can be misread as a definition of a constant, and if it
stands behind the line that gives the constant then it counts instead.
-/
import Mathlib.Data.Bool.AllAny
import Bindery.Proofs.Catalog.Variants
import Bindery.Proofs.Header.Agreement
import Bindery.Proofs.Header.DefinitionLines

namespace Bindery

/-! ## Names of constants -/

namespace Header

/-- Upper-casing keeps the characters of names. -/
theorem isNameChar_upper {s : String} (h : ∀ c ∈ s.toList, isNameChar c = true) :
    ∀ c ∈ (Text.upper s).toList, isNameChar c = true := by
  have hall : ∀ n < 128, isNameChar (Char.ofNat n) = true →
      (Text.upperChar (Char.ofNat n)).all isNameChar = true := by
    decide +kernel
  rw [Text.upper, String.toList_ofList]
  intro d hd
  obtain ⟨c, hc, hd⟩ := List.mem_flatMap.mp hd
  obtain ⟨n, hn, rfl⟩ := exists_ofNat_of_isNameChar (h c hc)
  exact List.all_eq_true.mp (hall n hn (h _ hc)) d hd

end Header

namespace Variant

variable {v : Variant}

/-- A stem holds characters of names alone where the scheme and the name space do. -/
theorem isNameChar_symbolStem (hscheme : ∀ c ∈ v.scheme.toList, Header.isNameChar c = true)
    (hlibrary : ∀ c ∈ v.library.toList, Header.isNameChar c = true) :
    ∀ c ∈ v.symbolStem.toList, Header.isNameChar c = true := by
  have hlevel : ∀ c ∈ v.levelText.toList, Header.isNameChar c = true := by
    intro c hc
    simp [Header.isNameChar, Char.isAlphanum, isDigit_of_mem_levelText hc]
  have hbackend : (Text.upper v.backend.name).toList.all Header.isNameChar = true := by
    cases v.backend <;> decide +kernel
  have hunderscore : ∀ c ∈ "_".toList, Header.isNameChar c = true := List.all_eq_true.mp (by decide)
  simp only [symbolStem, String.toList_append, List.forall_mem_append]
  exact ⟨⟨⟨⟨⟨⟨Header.isNameChar_upper hlibrary, hunderscore⟩, Header.isNameChar_upper hscheme⟩,
    hlevel⟩, hunderscore⟩, List.all_eq_true.mp hbackend⟩, hunderscore⟩

/-- The constants of such a variant have names of macros. -/
theorem isName_byteLengths (hscheme : ∀ c ∈ v.scheme.toList, Header.isNameChar c = true)
    (hlibrary : ∀ c ∈ v.library.toList, Header.isNameChar c = true) :
    ∀ c ∈ v.byteLengths.all, Header.IsName c.name := by
  have hname : ∀ ending ∈ ["CRYPTO_PUBLICKEYBYTES", "CRYPTO_SECRETKEYBYTES", "CRYPTO_BYTES"],
      Header.IsName (v.symbolStem ++ ending) := by
    intro ending hending
    have hchars : ending ≠ "" ∧ ending.toList.all Header.isNameChar = true := by
      revert ending
      decide
    refine ⟨by simp [String.append_eq_empty_iff, hchars.1], ?_⟩
    rw [String.toList_append, List.forall_mem_append]
    exact ⟨isNameChar_symbolStem hscheme hlibrary, List.all_eq_true.mp hchars.2⟩
  simpa [ByteLengths.all, byteLengths] using hname

/-- The constants of a variant differ in their names. -/
theorem nodup_byteLengths (v : Variant) : (v.byteLengths.all.map (·.name)).Nodup := by
  simp [ByteLengths.all, byteLengths, String.append_right_inj]

end Variant

/-! ## Lines of a listing -/

namespace Header

/-- **`Foreign names l`** -- the line starts no comment that goes on in the next line and is not
continued there itself, and for a compiler it defines none of the names. -/
structure Foreign (names : List String) (l : List Char) : Prop where
  comment : ¬ "/*".toList <:+: l
  backslash : '\\' ∉ l
  undefined : ∀ name ∈ names, ¬ DefinesMacro name l

/-- **`Lists names listed lines`** -- of the lines, those that define some of the names give them by
literals of the listed values, in the listed order. -/
inductive Lists (names : List String) : List (String × Nat) → List (List Char) → Prop
  | nil : Lists names [] []
  | other {listed : List (String × Nat)} {l : List Char} {lines : List (List Char)} :
      Foreign names l → Lists names listed lines → Lists names listed (l :: lines)
  | definition {listed : List (String × Nat)} {name : String} {value : Nat} {l : List Char}
      {lines : List (List Char)} :
      DefinesLiteral name value l → Lists names listed lines →
      Lists names ((name, value) :: listed) (l :: lines)

/-- **`Overridden name tail lines`** -- the last of the lines that define the name or are misread as
a definition of it is misread, with `tail` behind the name. -/
def Overridden (name : String) (tail : List Char) (lines : List (List Char)) : Prop :=
  ∃ earlier l later, lines = earlier ++ l :: later ∧ Misread name tail l ∧
    ∀ other ∈ later, ¬ DefinesMacro name other ∧ ∀ rest, ¬ Misread name rest other

/-- **`CountsAs name literal lines number`** -- what counts for the name among the lines is the
number, if it is one: the literal that gives the name, or the text that overrides it. -/
inductive CountsAs (name : String) (literal : Nat) (lines : List (List Char)) : Option Nat → Prop
  | literal : (∀ tail, ¬ Overridden name tail lines) → CountsAs name literal lines (some literal)
  | misread {tail : List Char} : Overridden name tail lines →
      CountsAs name literal lines (integer? (valueText tail))

/-- Where nothing overrides the literal of a name, the literal counts. -/
theorem countsAs_iff_of_clear {name : String} {literal : Nat} {lines : List (List Char)}
    (hclear : ∀ tail, ¬ Overridden name tail lines) {number : Option Nat} :
    CountsAs name literal lines number ↔ some literal = number := by
  constructor
  · rintro (- | hoverridden)
    · rfl
    · exact absurd hoverridden (hclear _)
  · rintro rfl
    exact .literal hclear

section Lines

variable {names : List String} {listed : List (String × Nat)} {lines : List (List Char)}
  {name text : String} {value : Nat} {tail l : List Char}

/-- A line between the definitions is read as one exactly if it is misread. -/
theorem Foreign.definition?_eq_some_iff (h : Foreign names l) (hname : name ∈ names) :
    definition? l = some (name, text) ↔
      IsName name ∧ ∃ tail, text = valueText tail ∧ Misread name tail l := by
  rw [definition?_eq_some_iff_of_notMem h.backslash]
  refine and_congr_right fun _ => exists_congr fun tail => and_congr_right fun _ => ?_
  exact or_iff_right fun hdefines => h.undefined name hname ⟨tail, hdefines⟩

/-- A line that gives a name by a literal defines it. -/
theorem DefinesLiteral.definesMacro (h : DefinesLiteral name value l) (hname : IsName name) :
    DefinesMacro name l := by
  obtain ⟨tail, hdirective, hends, -⟩ := h.exists_directive hname
  exact ⟨tail, hdirective, hends⟩

/-- A line of a listing is one of the definitions or stands between them. -/
theorem Lists.foreign_or_definesLiteral (h : Lists names listed lines) :
    ∀ l ∈ lines, Foreign names l ∨ ∃ entry ∈ listed, DefinesLiteral entry.1 entry.2 l := by
  induction h with
  | nil => nofun
  | other hl _ ih => exact List.forall_mem_cons.mpr ⟨Or.inl hl, ih⟩
  | definition hl _ ih =>
    refine List.forall_mem_cons.mpr ⟨Or.inr ⟨_, List.mem_cons_self, hl⟩, fun l hmem => ?_⟩
    refine (ih l hmem).imp_right ?_
    rintro ⟨entry, hentry, hdefines⟩
    exact ⟨entry, List.mem_cons_of_mem _ hentry, hdefines⟩

/-- What is listed is given by a line. -/
theorem Lists.exists_definesLiteral (h : Lists names listed lines) (hmem : (name, value) ∈ listed) :
    ∃ l ∈ lines, DefinesLiteral name value l := by
  induction h with
  | nil => cases hmem
  | other _ _ ih =>
    obtain ⟨l, hl, hdefines⟩ := ih hmem
    exact ⟨l, List.mem_cons_of_mem _ hl, hdefines⟩
  | definition hl _ ih =>
    rcases List.mem_cons.mp hmem with hsame | hmem
    · cases hsame
      exact ⟨_, List.mem_cons_self, hl⟩
    · obtain ⟨l, hl, hdefines⟩ := ih hmem
      exact ⟨l, List.mem_cons_of_mem _ hl, hdefines⟩

section Listed

variable (h : Lists names listed lines)
  (hlisted : ∀ entry ∈ listed, entry.1 ∈ names ∧ IsName entry.1) (hname : IsName name)
include h hlisted hname

/-- A misread line is read as a definition. -/
theorem Lists.definition?_of_misread (hmem : name ∈ names) (hl : l ∈ lines)
    (hmisread : Misread name tail l) : definition? l = some (name, valueText tail) := by
  rcases h.foreign_or_definesLiteral l hl with hforeign | ⟨entry, hentry, hdefines⟩
  · exact (hforeign.definition?_eq_some_iff hmem).mpr ⟨hname, tail, rfl, hmisread⟩
  · have hother := (hlisted entry hentry).2
    exact absurd (hdefines.definesMacro hother) (hmisread.not_definesMacro hname hother)

/-- A line that is read as a definition of a name gives it by a listed literal, or is misread. -/
theorem Lists.of_definition? (hmem : name ∈ names) (hl : l ∈ lines)
    (hdefinition : definition? l = some (name, text)) :
    (∃ value, (name, value) ∈ listed ∧ DefinesMacro name l ∧
      integer? text = if value ≤ maxValue then some value else none) ∨
    ∃ tail, text = valueText tail ∧ Misread name tail l := by
  rcases h.foreign_or_definesLiteral l hl with hforeign | ⟨⟨other, value⟩, hentry, hdefines⟩
  · obtain ⟨-, hmisread⟩ := (hforeign.definition?_eq_some_iff hmem).mp hdefinition
    exact Or.inr hmisread
  · have hother : IsName other := (hlisted _ hentry).2
    obtain ⟨read, hread, hvalue⟩ := hdefines.exists_definition? hother
    rw [hdefinition] at hread
    cases hread
    exact Or.inl ⟨value, hentry, hdefines.definesMacro hother, hvalue⟩

/-- A line that defines a name is read as a definition. -/
theorem Lists.definition?_of_definesMacro (hmem : name ∈ names) (hl : l ∈ lines)
    (hdefines : DefinesMacro name l) : ∃ text, definition? l = some (name, text) := by
  rcases h.foreign_or_definesLiteral l hl with hforeign | ⟨⟨other, value⟩, hentry, hliteral⟩
  · exact absurd hdefines (hforeign.undefined name hmem)
  · obtain ⟨-, -, -, hplain, -⟩ := hliteral.exists_directive (hlisted _ hentry).2
    exact hdefines.exists_definition? hname hplain

/-- **What is read for a listed name**: what stands behind it on a misread line, if the last line
that counts is one, and otherwise a text that is read as the listed value. -/
theorem Lists.defines {header : String} (hlines : Text.lines header.toList = lines)
    (hnodup : (listed.map (·.1)).Nodup) (hmem : (name, value) ∈ listed) :
    (∀ tail, Overridden name tail lines → Defines header name (valueText tail)) ∧
    ((∀ tail, ¬ Overridden name tail lines) → ∃ text, Defines header name text ∧
      integer? text = if value ≤ maxValue then some value else none) := by
  subst hlines
  have hin : name ∈ names := (hlisted _ hmem).1
  constructor
  · rintro tail ⟨earlier, l, later, hsplit, hmisread, hlater⟩
    have hmemLines : ∀ other ∈ l :: later, other ∈ Text.lines header.toList := by
      intro other hother
      rw [hsplit]
      exact List.mem_append_right _ hother
    refine ⟨earlier, l, later, hsplit,
      h.definition?_of_misread hlisted hname hin (hmemLines l List.mem_cons_self) hmisread, ?_⟩
    intro other hother text hdefinition
    obtain ⟨hundefined, hclear⟩ := hlater other hother
    rcases h.of_definition? hlisted hname hin (hmemLines other (List.mem_cons_of_mem _ hother))
      hdefinition with ⟨-, -, hdefines, -⟩ | ⟨rest, -, hrest⟩
    · exact hundefined hdefines
    · exact hclear rest hrest
  · intro hclear
    obtain ⟨l, hl, hliteral⟩ := h.exists_definesLiteral hmem
    obtain ⟨text, htext, -⟩ := hliteral.exists_definition? hname
    have hsome : (definitions header).find? name ≠ none := by
      rw [ne_eq, find?_definitions_eq_none_iff]
      exact fun hnone => hnone l hl text htext
    obtain ⟨found, hfound⟩ := Option.ne_none_iff_exists'.mp hsome
    rw [find?_definitions_eq_some_iff] at hfound
    refine ⟨found, hfound, ?_⟩
    obtain ⟨earlier, last, later, hsplit, hlast, hlater⟩ := hfound
    have hmemLines : ∀ other ∈ last :: later, other ∈ Text.lines header.toList := by
      intro other hother
      rw [hsplit]
      exact List.mem_append_right _ hother
    rcases h.of_definition? hlisted hname hin (hmemLines last List.mem_cons_self) hlast with
      ⟨found, hlistedValue, -, hvalue⟩ | ⟨tail, -, hmisread⟩
    · -- the name is listed once
      cases List.inj_on_of_nodup_map hnodup hlistedValue hmem rfl
      exact hvalue
    · -- nothing behind the misread line is read for the name, so that line overrides the literal
      refine absurd ⟨earlier, last, later, hsplit, hmisread, fun other hother => ⟨?_, ?_⟩⟩
        (hclear tail)
      · intro hdefines
        obtain ⟨read, hread⟩ := h.definition?_of_definesMacro hlisted hname hin
          (hmemLines other (List.mem_cons_of_mem _ hother)) hdefines
        exact hlater other hother read hread
      · intro rest hrest
        exact hlater other hother _ (h.definition?_of_misread hlisted hname hin
          (hmemLines other (List.mem_cons_of_mem _ hother)) hrest)

/-- What counts for a listed name is what its definition in the header is read as. -/
theorem Lists.countsAs_iff {header : String} (hlines : Text.lines header.toList = lines)
    (hnodup : (listed.map (·.1)).Nodup) (hmem : (name, value) ∈ listed) (hfits : value ≤ maxValue)
    {number : Option Nat} :
    CountsAs name value lines number ↔ ∃ text, Defines header name text ∧
        integer? text = number := by
  obtain ⟨hmisread, hliteral⟩ := h.defines hlisted hname hlines hnodup hmem
  rw [if_pos hfits] at hliteral
  constructor
  · rintro (hclear | hoverridden)
    · exact hliteral hclear
    · exact ⟨_, hmisread _ hoverridden, rfl⟩
  · rintro ⟨text, hdefines, rfl⟩
    have hsame : ∀ {other}, Defines header name other → other = text := fun hother =>
      Option.some.inj (hother.find?.symm.trans hdefines.find?)
    by_cases hoverridden : ∃ tail, Overridden name tail lines
    · obtain ⟨tail, hoverridden⟩ := hoverridden
      rw [← hsame (hmisread tail hoverridden)]
      exact .misread hoverridden
    · rw [not_exists] at hoverridden
      obtain ⟨other, hother, hread⟩ := hliteral hoverridden
      rw [← hsame hother, hread]
      exact .literal hoverridden

end Listed

end Lines

end Header

/-! ## Checks -/

/-- What counts for a constant of a listed variant is what its definition in the header is read as,
and what overrides its literal is its definition. -/
theorem Header.Lists.of_variant {v : Variant}
    (hscheme : ∀ c ∈ v.scheme.toList, Header.isNameChar c = true)
    (hlibrary : ∀ c ∈ v.library.toList, Header.isNameChar c = true) {header : String}
    {literal : Constant → Nat} {listed : List (String × Nat)} {lines : List (List Char)}
    (hlines : Text.lines header.toList = lines)
    (hlists : Header.Lists (v.byteLengths.all.map (·.name)) listed lines)
    (horder : listed.Perm (v.byteLengths.all.map fun c => (c.name, literal c)))
    (hfits : ∀ c ∈ v.byteLengths.all, literal c < 2 ^ 64) :
    ∀ c ∈ v.byteLengths.all,
      (∀ number, Header.CountsAs c.name (literal c) lines number ↔
        ∃ text, Header.Defines header c.name text ∧ Header.integer? text = number) ∧
      ∀ tail, Header.Overridden c.name tail lines →
        Header.Defines header c.name (Header.valueText tail) := by
  have hkeys : (v.byteLengths.all.map fun c => (c.name, literal c)).map (·.1) =
      v.byteLengths.all.map (·.name) := by
    rw [List.map_map]
    rfl
  have hnodup : (listed.map (·.1)).Nodup := by
    rw [(horder.map _).nodup_iff, hkeys]
    exact v.nodup_byteLengths
  have hlisted : ∀ entry ∈ listed,
      entry.1 ∈ v.byteLengths.all.map (·.name) ∧ Header.IsName entry.1 := by
    intro entry hentry
    obtain ⟨c, hc, rfl⟩ := List.mem_map.mp (horder.mem_iff.mp hentry)
    exact ⟨List.mem_map_of_mem hc, v.isName_byteLengths hscheme hlibrary c hc⟩
  intro c hc
  have hname : Header.IsName c.name := v.isName_byteLengths hscheme hlibrary c hc
  have hmem : (c.name, literal c) ∈ listed := horder.mem_iff.mpr (List.mem_map_of_mem hc)
  have hfit : literal c ≤ Header.maxValue := Nat.le_pred_of_lt (hfits c hc)
  exact ⟨fun _ => hlists.countsAs_iff hlisted hname hlines hnodup hmem hfit,
    (hlists.defines hlisted hname hlines hnodup hmem).1⟩

/-- **A header that lists the constants of a variant by literals is accepted exactly if what counts
for each constant is its value.**  Otherwise the first constant for which something else counts
decides the fault.  If no line is misread as a definition that overrides a literal, the literals are
what counts, so that the fault names the first one that differs. -/
theorem listed_constants_compared {v : Variant}
    (hscheme : ∀ c ∈ v.scheme.toList, Header.isNameChar c = true)
    (hlibrary : ∀ c ∈ v.library.toList, Header.isNameChar c = true) {header : String}
    {literal : Constant → Nat} {listed : List (String × Nat)} {lines : List (List Char)}
    (hlines : Text.lines header.toList = lines)
    (hlists : Header.Lists (v.byteLengths.all.map (·.name)) listed lines)
    (horder : listed.Perm (v.byteLengths.all.map fun c => (c.name, literal c)))
    (hfits : ∀ c ∈ v.byteLengths.all, literal c < 2 ^ 64) :
    (v.checkHeader header = .ok () ↔
      ∀ c ∈ v.byteLengths.all, Header.CountsAs c.name (literal c) lines (some c.value)) ∧
    (∀ before c after, v.byteLengths.all = before ++ c :: after →
      (∀ b ∈ before, Header.CountsAs b.name (literal b) lines (some b.value)) →
      (∀ value, Header.CountsAs c.name (literal c) lines (some value) → value ≠ c.value →
        v.checkHeader header = .error (.differs v.label c.name c.value value)) ∧
      ∀ tail, Header.Overridden c.name tail lines →
        Header.integer? (Header.valueText tail) = none →
        v.checkHeader header = .error (.notInteger v.label c.name (Header.valueText tail))) ∧
    ((∀ c ∈ v.byteLengths.all, ∀ tail, ¬ Header.Overridden c.name tail lines) →
      (v.checkHeader header = .ok () ↔ ∀ c ∈ v.byteLengths.all, literal c = c.value) ∧
      ∀ before c after, v.byteLengths.all = before ++ c :: after →
        (∀ b ∈ before, literal b = b.value) → literal c ≠ c.value →
        v.checkHeader header = .error (.differs v.label c.name c.value (literal c))) := by
  have hcounts := Header.Lists.of_variant hscheme hlibrary hlines hlists horder hfits
  have hagrees : ∀ c ∈ v.byteLengths.all,
      (c.AgreesWith header ↔ Header.CountsAs c.name (literal c) lines (some c.value)) :=
    fun c hc => ((hcounts c hc).1 _).symm
  have hbefore : ∀ {before c after}, v.byteLengths.all = before ++ c :: after →
      (∀ b ∈ before, Header.CountsAs b.name (literal b) lines (some b.value)) →
      c ∈ v.byteLengths.all ∧ ∀ b ∈ before, b.AgreesWith header := by
    intro before c after hsplit hbefore
    rw [hsplit] at hagrees
    refine ⟨hsplit ▸ List.mem_append_right _ List.mem_cons_self, fun b hb => ?_⟩
    exact (hagrees b (List.mem_append_left _ hb)).mpr (hbefore b hb)
  have haccepted : v.checkHeader header = .ok () ↔
      ∀ c ∈ v.byteLengths.all, Header.CountsAs c.name (literal c) lines (some c.value) := by
    rw [Variant.checkHeader_eq_ok_iff]
    exact forall₂_congr hagrees
  have hdiffers : ∀ before c after, v.byteLengths.all = before ++ c :: after →
      (∀ b ∈ before, Header.CountsAs b.name (literal b) lines (some b.value)) →
      ∀ value, Header.CountsAs c.name (literal c) lines (some value) → value ≠ c.value →
        v.checkHeader header = .error (.differs v.label c.name c.value value) := by
    intro before c after hsplit hearlier value hvalue hne
    obtain ⟨hc, hagree⟩ := hbefore hsplit hearlier
    obtain ⟨text, hdefines, hread⟩ := ((hcounts c hc).1 _).mp hvalue
    exact Variant.checkHeader_eq_error_iff.mpr
      ⟨before, c, after, hsplit, hagree, .differs hdefines hread hne⟩
  refine ⟨haccepted, fun before c after hsplit hearlier => ⟨?_, ?_⟩, fun hclear => ?_⟩
  · exact hdiffers before c after hsplit hearlier
  · intro tail hoverridden hnone
    obtain ⟨hc, hagree⟩ := hbefore hsplit hearlier
    exact Variant.checkHeader_eq_error_iff.mpr
      ⟨before, c, after, hsplit, hagree, .notInteger ((hcounts c hc).2 tail hoverridden) hnone⟩
  · -- the literals are what counts
    have hliteral : ∀ c ∈ v.byteLengths.all, ∀ {value},
        Header.CountsAs c.name (literal c) lines (some value) ↔ literal c = value :=
      fun c hc _ => (Header.countsAs_iff_of_clear (hclear c hc)).trans Option.some_inj
    refine ⟨haccepted.trans (forall₂_congr fun c hc => hliteral c hc), ?_⟩
    intro before c after hsplit hearlier hne
    rw [hsplit] at hliteral
    refine hdiffers before c after hsplit (fun b hb => ?_) _ ?_ hne
    · exact (hliteral b (List.mem_append_left _ hb)).mpr (hearlier b hb)
    · exact (hliteral c (List.mem_append_right _ List.mem_cons_self)).mpr rfl

/-! ## Samples -/

/-- The names of the constants of `headerVariant`. -/
def sampleNames : List String :=
  headerVariant.byteLengths.all.map (·.name)

/-- The lines of a header that gives the constants of `headerVariant` in another order than they are
declared, beside a constant whose name starts with that of another one. -/
def listedLines : List (List Char) :=
  ["#\tdefine N_S2_CLEAN_CRYPTO_BYTES ((0x15uL)) // signature".toList,
    "#define N_S2_CLEAN_CRYPTO_BYTES_MAX 7".toList,
    "#define N_S2_CLEAN_CRYPTO_SECRETKEYBYTES 1/* secret */".toList,
    " # define N_S2_CLEAN_CRYPTO_PUBLICKEYBYTES\t(1U)".toList]

/-- The literals of the sample: that of the signature's length differs. -/
def sampleLiteral (c : Constant) : Nat :=
  if c.name = signatureName then 21 else 1

theorem isName_of_mem_sampleNames {name : String} (h : name ∈ sampleNames) :
    Header.IsName name := by
  obtain ⟨c, hc, rfl⟩ := List.mem_map.mp h
  exact headerVariant.isName_byteLengths (List.all_eq_true.mp (by decide))
    (List.all_eq_true.mp (by decide)) c hc

/-- A line that is read as a definition of another name is a foreign line. -/
theorem Header.foreign_of_definition? {l : List Char} {other text : String}
    (hcomment : ¬ "/*".toList <:+: l) (hbackslash : '\\' ∉ l)
    (hdefinition : Header.definition? l = some (other, text)) (hother : other ∉ sampleNames) :
    Header.Foreign sampleNames l := by
  refine ⟨hcomment, hbackslash, fun name hname hdefines => ?_⟩
  obtain ⟨read, hread⟩ := hdefines.exists_definition? (isName_of_mem_sampleNames hname)
    (mt Header.mem_of_mem_beforeComment hbackslash)
  rw [hdefinition] at hread
  cases hread
  exact hother hname

/-- The sample lists the three constants. -/
theorem lists_listedLines : Header.Lists sampleNames
    [(signatureName, 21), ("N_S2_CLEAN_CRYPTO_SECRETKEYBYTES", 1),
      ("N_S2_CLEAN_CRYPTO_PUBLICKEYBYTES", 1)] listedLines := by
  have hsignature : Header.DefinesLiteral signatureName 21
      "#\tdefine N_S2_CLEAN_CRYPTO_BYTES ((0x15uL)) // signature".toList :=
    @Header.DefinesLiteral.directive _ _ [] ['\t'] [' '] [' '] "0x15uL".toList
      "((0x15uL)) ".toList _ nofun (by decide) ⟨by decide, nofun⟩ ⟨by decide, nofun⟩
      ⟨.hexadecimal, "15".toList, "0x15".toList, "uL".toList,
        .hexadecimal (.inl rfl) (by decide) (List.all_eq_true.mp (by decide)), nofun,
        List.all_eq_true.mp (by decide), rfl, by decide⟩
      (.parentheses [] [' '] nofun (by decide)
        (.parentheses [] [] nofun nofun (.bare [] [] nofun nofun)))
      (.line " signature".toList)
  have hother : Header.Foreign sampleNames "#define N_S2_CLEAN_CRYPTO_BYTES_MAX 7".toList :=
    @Header.foreign_of_definition? _ "N_S2_CLEAN_CRYPTO_BYTES_MAX" "7"
      (by decide +kernel) (by decide) (by decide +kernel) (by decide +kernel)
  have hsecret : Header.DefinesLiteral "N_S2_CLEAN_CRYPTO_SECRETKEYBYTES" 1
      "#define N_S2_CLEAN_CRYPTO_SECRETKEYBYTES 1/* secret */".toList :=
    @Header.DefinesLiteral.directive _ _ [] [] [' '] [' '] ['1'] ['1'] _ nofun nofun
      ⟨by decide, nofun⟩ ⟨by decide, nofun⟩
      ⟨.decimal, ['1'], ['1'], [], .decimal (by decide) (List.all_eq_true.mp (by decide)),
        nofun, nofun, rfl, by decide⟩
      (.bare [] [] nofun nofun) (.block " secret ".toList [] (by decide +kernel) nofun)
  have hpublic : Header.DefinesLiteral "N_S2_CLEAN_CRYPTO_PUBLICKEYBYTES" 1
      " # define N_S2_CLEAN_CRYPTO_PUBLICKEYBYTES\t(1U)".toList :=
    @Header.DefinesLiteral.directive _ _ [' '] [' '] [' '] ['\t'] ['1', 'U'] "(1U)".toList _
      (by decide) (by decide) ⟨by decide, nofun⟩ ⟨by decide, nofun⟩
      ⟨.decimal, ['1'], ['1'], ['U'], .decimal (by decide) (List.all_eq_true.mp (by decide)),
        nofun, List.all_eq_true.mp (by decide), rfl, by decide⟩
      (.parentheses [] [] nofun nofun (.bare [] [] nofun nofun)) .nothing
  exact .definition hsignature (.other hother (.definition hsecret (.definition hpublic .nil)))

/-- No line of the sample is misread. -/
theorem not_overridden_listedLines (name : String) (tail : List Char) :
    ¬ Header.Overridden name tail listedLines := by
  rintro ⟨earlier, l, later, hlines, hmisread, -⟩
  have hall : ∀ l ∈ listedLines, (l.all fun c => c ≠ '$' ∧ c.toNat < 128 ∧
      (Text.isBlank c = true → Header.isSpace c = true)) = true := by
    decide +kernel
  have hplain : ∀ l ∈ listedLines, ∀ c ∈ l,
      c ≠ '$' ∧ c.toNat < 128 ∧ (Text.isBlank c = true → Header.isSpace c = true) :=
    fun l hl => List.all_iff_forall_prop.mp (hall l hl)
  have hl : l ∈ listedLines := hlines ▸ List.mem_append_right _ List.mem_cons_self
  exact Header.not_misread_of_plain (hplain l hl) hmisread

/-- In the sample no literal is overridden, those of the keys are those of the catalog, and the
signature's literal is blamed. -/
theorem differing_literal_blamed :
    Text.lines (String.ofList (['\n'].intercalate listedLines)).toList = listedLines ∧
      headerVariant.checkHeader (String.ofList (['\n'].intercalate listedLines)) =
        .error (.differs "s2/clean" signatureName 20 21) := by
  have hlines : Text.lines (String.ofList (['\n'].intercalate listedLines)).toList =
      listedLines := by
    rw [String.toList_ofList]
    decide +kernel
  have horder : [(signatureName, 21), ("N_S2_CLEAN_CRYPTO_SECRETKEYBYTES", 1),
      ("N_S2_CLEAN_CRYPTO_PUBLICKEYBYTES", 1)].Perm
      (headerVariant.byteLengths.all.map fun c => (c.name, sampleLiteral c)) := by
    decide +kernel
  obtain ⟨-, -, hclear⟩ := @listed_constants_compared headerVariant
    (List.all_eq_true.mp (by decide)) (List.all_eq_true.mp (by decide)) _ sampleLiteral _ _ hlines
    lists_listedLines horder (by decide +kernel)
  obtain ⟨-, hblamed⟩ := hclear fun c _ tail => not_overridden_listedLines c.name tail
  exact ⟨hlines, hblamed
    [headerVariant.byteLengths.publicKey, headerVariant.byteLengths.secretKey]
    headerVariant.byteLengths.signature [] rfl (by decide +kernel) (by decide +kernel)⟩

/-- A decimal literal behind a name, with one space where spacing has to be. -/
theorem Header.definesLiteral_decimal {name : String} {first : Char} {rest : List Char}
    (hfirst : first ≠ '0') (hdigits : ∀ c ∈ first :: rest, Text.isDigitOf 10 c = true) :
    Header.DefinesLiteral name (Text.valueOf 10 (first :: rest))
      ("#define ".toList ++ (name.toList ++ ' ' :: first :: rest)) := by
  have hline := @Header.DefinesLiteral.directive name (Text.valueOf 10 (first :: rest)) [] [] [' ']
    [' '] (first :: rest) (first :: rest) [] nofun nofun ⟨by decide, nofun⟩ ⟨by decide, nofun⟩
    ⟨.decimal, _, _, [], .decimal hfirst hdigits, nofun, nofun, (List.append_nil _).symm, rfl⟩
    (by simpa using Header.Enclosed.bare [] [] nofun nofun) .nothing
  simpa using hline

/-- A line that defines, for a compiler, a name that starts with that of the signature's length. -/
def longerLine (mark : Char) : String :=
  String.ofList ("#define N_S2_CLEAN_CRYPTO_BYTES".toList ++ mark :: "MAX 99".toList)

/-- The header that gives each constant of `headerVariant` by its value lists them also where such a
line stands behind. -/
theorem lists_longerLine {mark : Char} (hmark : mark ∈ ['$', 'é']) :
    Header.Lists sampleNames (headerVariant.byteLengths.all.map fun c => (c.name, c.value))
      (Text.lines (headerWith "20" ++ longerLine mark).toList) := by
  have hlisted : (headerVariant.byteLengths.all.map fun c => (c.name, c.value)) =
      [("N_S2_CLEAN_CRYPTO_PUBLICKEYBYTES", 1), ("N_S2_CLEAN_CRYPTO_SECRETKEYBYTES", 1),
        (signatureName, 20)] := by
    decide +kernel
  have hlines : ∀ mark ∈ ['$', 'é'], Text.lines (headerWith "20" ++ longerLine mark).toList =
      ["#define N_S2_CLEAN_CRYPTO_PUBLICKEYBYTES 1".toList,
        "#define N_S2_CLEAN_CRYPTO_SECRETKEYBYTES 1".toList,
        "#define N_S2_CLEAN_CRYPTO_BYTES 20".toList, (longerLine mark).toList] :=
    List.all_iff_forall_prop.mp (by decide +kernel)
  have hplain : ∀ mark ∈ ['$', 'é'],
      ¬ "/*".toList <:+: (longerLine mark).toList ∧ '\\' ∉ (longerLine mark).toList :=
    List.all_iff_forall_prop.mp (by decide +kernel)
  have hdirective : ∀ mark ∈ ['$', 'é'], (longerLine mark).toList = [] ++ '#' :: ([] ++
      ("define".toList ++ ([' '] ++ (signatureName.toList ++ mark :: "MAX 99".toList)))) :=
    List.all_iff_forall_prop.mp (by decide +kernel)
  have hmisread : Header.Misread signatureName (mark :: "MAX 99".toList)
      (longerLine mark).toList := by
    have hgoes : ∀ mark ∈ ['$', 'é'], mark = '$' ∨ 128 ≤ mark.toNat :=
      List.all_iff_forall_prop.mp (by decide)
    refine .longerName ?_ (hgoes mark hmark)
    rw [hdirective mark hmark]
    exact .mk nofun nofun (List.all_eq_true.mp (by decide)) nofun
  have hforeign : Header.Foreign sampleNames (longerLine mark).toList :=
    ⟨(hplain mark hmark).1, (hplain mark hmark).2, fun name hname =>
      hmisread.not_definesMacro (isName_of_mem_sampleNames (by decide +kernel))
        (isName_of_mem_sampleNames hname)⟩
  have hone : ∀ c ∈ ['1'], Text.isDigitOf 10 c = true := List.all_eq_true.mp (by decide)
  have htwenty : ∀ c ∈ ['2', '0'], Text.isDigitOf 10 c = true := List.all_eq_true.mp (by decide)
  rw [hlisted, hlines mark hmark]
  exact .definition (@Header.definesLiteral_decimal _ '1' [] (by decide) hone)
    (.definition (@Header.definesLiteral_decimal _ '1' [] (by decide) hone)
      (.definition (@Header.definesLiteral_decimal _ '2' ['0'] (by decide) htwenty)
        (.other hforeign .nil)))

/-- **The macro of a longer name is taken for the constant.**  A header that gives each constant of
`headerVariant` by its value is refused where the name of another macro is that of a constant, a
dollar sign or a letter beyond ASCII, and more. -/
theorem longer_name_taken_for_constant :
    (Header.Lists sampleNames (headerVariant.byteLengths.all.map fun c => (c.name, c.value))
        (Text.lines (headerWith "20" ++ longerLine '$').toList) ∧
      headerVariant.checkHeader (headerWith "20" ++ longerLine '$') =
        .error (.notInteger "s2/clean" signatureName "$MAX 99")) ∧
    (Header.Lists sampleNames (headerVariant.byteLengths.all.map fun c => (c.name, c.value))
        (Text.lines (headerWith "20" ++ longerLine 'é').toList) ∧
      headerVariant.checkHeader (headerWith "20" ++ longerLine 'é') =
        .error (.notInteger "s2/clean" signatureName "éMAX 99")) :=
  ⟨⟨lists_longerLine (by decide), by decide +kernel⟩, ⟨lists_longerLine (by decide),
    by decide +kernel⟩⟩

end Bindery
