/-
# Bindery.Proofs.Catalog.Acceptance -- exactly which function catalogs are accepted.

`FunctionEntry.Accepted` lists the rules for an entry without any order of checks.  A check that
fails stops at the first rule that is broken, and `FunctionEntry.Refused` says of each cause which
rule that is and that everything checked before is in order.  Both are exact, so a catalog is
accepted exactly if all entries follow the rules and have distinct names, and what is refused is the
first entry that does not.
-/
import Bindery.Proofs.Catalog.Accepted

namespace Bindery

/-! ## Parts of an entry -/

/-- The convention of a wrapping, if it gives one, is known. -/
def WrappingEntry.KnownConvention (e : WrappingEntry) : Prop :=
  ∀ tag ∈ e.conventionTag, tag = "0 is Ok"

namespace FunctionEntry

/-- Arguments have distinct names, and their types are accepted. -/
structure ArgumentsAccepted (entries : List (String × String)) : Prop where
  distinct : (entries.map (·.1)).Nodup
  types : ∀ entry ∈ entries, ∃ t, ForeignType.parse entry.2 = .ok t

/-- A return type is accepted, unless it is blank. -/
def ReturnAccepted (text : Option String) : Prop :=
  ∀ s ∈ text, ¬ Text.Blank s → ∃ t, ForeignType.parse s = .ok t

/-- Every wrapping that an entry writes down, in either form. -/
def writtenWrappings (e : FunctionEntry) : List WrappingEntry :=
  e.wrapping.toList ++ e.wrappings.getD []

/-- **`e.Accepted`** -- the entry follows every rule for entries. -/
structure Accepted (e : FunctionEntry) : Prop where
  named : e.name ≠ ""
  arguments : ArgumentsAccepted e.arguments
  returns : ReturnAccepted e.returns
  /-- Not both forms of wrappings are used. -/
  oneForm : e.wrapping = none ∨ e.wrappings = none
  conventions : ∀ w ∈ e.writtenWrappings, w.KnownConvention

/-- **`e.Refused cause`** -- the entry breaks the rule that the cause stands for, and none that is
checked before it. -/
inductive Refused (e : FunctionEntry) : CatalogError → Prop
  | unnamed : e.name = "" → Refused e .unnamedFunction
  | repeatedArgument {before after : List (String × String)} {entry : String × String} :
      e.name ≠ "" → e.arguments = before ++ entry :: after → ArgumentsAccepted before →
        entry.1 ∈ before.map (·.1) →
      Refused e (.duplicateArgument e.name entry.1)
  | argumentType {before after : List (String × String)} {entry : String × String}
      {cause : TypeError} :
      e.name ≠ "" → e.arguments = before ++ entry :: after → ArgumentsAccepted before →
        entry.1 ∉ before.map (·.1) →
      ForeignType.parse entry.2 = .error cause → Refused e (.argumentType e.name entry.1 cause)
  | returnType {text : String} {cause : TypeError} :
      e.name ≠ "" → ArgumentsAccepted e.arguments → e.returns = some text → ¬ Text.Blank text →
      ForeignType.parse text = .error cause → Refused e (.returnType e.name cause)
  | bothForms {single : WrappingEntry} {list : List WrappingEntry} :
      e.name ≠ "" → ArgumentsAccepted e.arguments → ReturnAccepted e.returns →
        e.wrapping = some single →
      e.wrappings = some list → Refused e (.bothWrappingForms e.name)
  | unknownConvention {before after : List WrappingEntry} {w : WrappingEntry} {tag : String} :
      e.name ≠ "" → ArgumentsAccepted e.arguments → ReturnAccepted e.returns →
        e.Gives (before ++ w :: after) →
      (∀ earlier ∈ before, earlier.KnownConvention) → w.conventionTag = some tag → tag ≠ "0 is Ok" →
      Refused e (.unknownConvention e.name tag)

end FunctionEntry

/-! ## Which parts are accepted -/

section Parts

variable {function : String} {cause : CatalogError}

/-- The wrapping with every default has no convention. -/
theorem WrappingEntry.knownConvention_default : ({} : WrappingEntry).KnownConvention := by
  intro tag htag
  cases htag

theorem WrappingEntry.exists_check_iff {e : WrappingEntry} : (∃ w, e.check function = .ok w) ↔
    e.KnownConvention := by
  rw [KnownConvention]
  cases htag : e.conventionTag with
  | none => simp [check, htag]
  | some tag =>
    simp only [check_eq_of_tag htag, bind_eq_ok_iff, need_eq_ok_iff, pure_eq_ok_iff,
      ResultConvention.ofTag?_eq_some_iff, Option.mem_some_iff, forall_eq']
    constructor
    · rintro ⟨w, ⟨⟩, rfl, -⟩
      rfl
    · rintro rfl
      exact ⟨_, .zeroIsOk, rfl, rfl⟩

theorem WrappingEntry.check_eq_error_iff {e : WrappingEntry} :
    e.check function = .error cause ↔
      ∃ tag, e.conventionTag = some tag ∧ tag ≠ "0 is Ok" ∧
          .unknownConvention function tag = cause := by
  cases htag : e.conventionTag with
  | none => simp [check, htag]
  | some tag =>
    have hunknown : ResultConvention.ofTag? tag = none ↔ tag ≠ "0 is Ok" := by
      rw [ResultConvention.ofTag?, ite_eq_right_iff]
      exact forall_congr' fun _ => iff_of_false (Option.some_ne_none _) id
    simp only [check_eq_of_tag htag, bind_eq_error_iff, need_eq_error_iff, pure_ne_error, and_false,
      exists_false, or_false, hunknown, Option.some.injEq, exists_eq_left']

namespace FunctionEntry

variable {entries : List (String × String)} {text : Option String} {e : FunctionEntry}

theorem exists_readArgument_iff {entry : String × String} :
    (∃ a, readArgument function entry = .ok a) ↔ ∃ t, ForeignType.parse entry.2 = .ok t := by
  simp only [readArgument_eq_ok_iff, Argument.Reads]
  constructor
  · rintro ⟨a, -, htype⟩
    exact ⟨a.type, htype⟩
  · rintro ⟨t, ht⟩
    exact ⟨⟨entry.1, t⟩, rfl, ht⟩

theorem readArgument_eq_error_iff {entry : String × String} :
    readArgument function entry = .error cause ↔
      ∃ fault, ForeignType.parse entry.2 = .error fault ∧
          .argumentType function entry.1 fault = cause := by
  simp only [readArgument, bind_eq_error_iff, mapError_eq_error_iff, pure_ne_error, and_false,
    exists_false, or_false]

theorem exists_readArguments_iff : (∃ args, readArguments function [] entries = .ok args) ↔
    ArgumentsAccepted entries := by
  simp only [readArguments_eq, checkDistinct_eq_ok_iff, List.disjoint_nil_right, true_and,
    exists_and_left, ← mapM_eq_ok_iff, exists_mapM_eq_ok_iff, exists_readArgument_iff]
  exact ⟨fun h => ⟨h.1, h.2⟩, fun h => ⟨h.distinct, h.types⟩⟩

/-- Reading arguments fails over the first one that repeats a name or has no type. -/
theorem readArguments_eq_error_iff : readArguments function [] entries = .error cause ↔
    ∃ before entry after, entries = before ++ entry :: after ∧ ArgumentsAccepted before ∧
      (entry.1 ∈ before.map (·.1) ∧ .duplicateArgument function entry.1 = cause ∨
        entry.1 ∉ before.map (·.1) ∧ ∃ fault, ForeignType.parse entry.2 = .error fault ∧
          .argumentType function entry.1 fault = cause) := by
  simp only [readArguments_eq, checkDistinct_eq_error_iff, List.disjoint_nil_right, and_true,
    List.not_mem_nil, or_false, exists_readArgument_iff, readArgument_eq_error_iff]
  constructor
  · rintro ⟨before, entry, after, rfl, hdistinct, htypes, h⟩
    exact ⟨before, entry, after, rfl, ⟨hdistinct, htypes⟩, h⟩
  · rintro ⟨before, entry, after, rfl, ⟨hdistinct, htypes⟩, h⟩
    exact ⟨before, entry, after, rfl, hdistinct, htypes, h⟩

theorem exists_readReturn_iff : (∃ returns, readReturn function text = .ok returns) ↔
    ReturnAccepted text := by
  simp only [readReturn_eq_ok_iff, ReturnAccepted]
  constructor
  · rintro ⟨returns, h⟩ s rfl hblank
    cases h with
    | blank h => exact absurd h hblank
    | type _ ht => exact ⟨_, ht⟩
  · intro h
    cases text with
    | none => exact ⟨none, .absent⟩
    | some s =>
      by_cases hblank : Text.Blank s
      · exact ⟨none, .blank hblank⟩
      · obtain ⟨t, ht⟩ := h s rfl hblank
        exact ⟨some t, .type hblank ht⟩

theorem readReturn_eq_error_iff : readReturn function text = .error cause ↔
    ∃ s, text = some s ∧ ¬ Text.Blank s ∧ ∃ fault, ForeignType.parse s = .error fault ∧
        .returnType function fault = cause := by
  cases text with
  | none => simp [readReturn]
  | some s =>
    by_cases hblank : Text.Blank s
    · simp [readReturn_of_blank hblank, hblank]
    · simp only [readReturn_some_eq hblank, bind_eq_error_iff, mapError_eq_error_iff, pure_ne_error,
        and_false, exists_false, or_false, Option.some.injEq, exists_eq_left', hblank,
        not_false_eq_true, true_and]

theorem givenWrappings_eq_error_iff : e.givenWrappings = .error cause ↔
    ∃ single list, e.wrapping = some single ∧ e.wrappings = some list ∧
        .bothWrappingForms e.name = cause := by
  constructor
  · intro h
    unfold givenWrappings at h
    split at h <;> cases h
    exact ⟨_, _, ‹_›, ‹_›, rfl⟩
  · rintro ⟨single, list, hsingle, hlist, rfl⟩
    rw [givenWrappings, hsingle, hlist]

/-- The wrappings of an entry are those that it writes down, and one with every default. -/
theorem Gives.forall_iff {given : List WrappingEntry} {p : WrappingEntry → Prop} (h : e.Gives given)
    (hdefault : p {}) :
    (∀ w ∈ given, p w) ↔ ∀ w ∈ e.writtenWrappings, p w := by
  rw [writtenWrappings]
  cases h with
  | single hsingle hlist => simp [hsingle, hlist]
  | list hsingle hlist => simp [hsingle, hlist]
  | default hsingle hlist => simp [hsingle, hlist, hdefault]

/-- An entry gives wrappings unless it uses both forms. -/
theorem exists_gives_iff : (∃ given, e.Gives given) ↔ e.wrapping = none ∨ e.wrappings = none := by
  constructor
  · rintro ⟨given, ⟨-, hlist⟩ | ⟨hsingle, -⟩ | ⟨hsingle, -⟩⟩
    · exact Or.inr hlist
    · exact Or.inl hsingle
    · exact Or.inl hsingle
  · intro h
    simp only [← givenWrappings_eq_ok_iff]
    apply exists_eq_ok
    intro cause hcause
    obtain ⟨single, list, hsingle, hlist, -⟩ := givenWrappings_eq_error_iff.mp hcause
    simp [hsingle, hlist] at h

end FunctionEntry

end Parts

/-! ## Which entries are accepted -/

namespace FunctionEntry

variable {e : FunctionEntry} {cause : CatalogError}

/-- **The rules for entries are exact.** -/
theorem exists_describes_iff : (∃ f, e.Describes f) ↔ e.Accepted := by
  simp only [← check_eq_ok_iff, check_eq, bind_eq_ok_iff, reject_eq_ok_iff, pure_eq_ok_iff,
    givenWrappings_eq_ok_iff, String.isEmpty_iff]
  constructor
  · rintro ⟨f, _, hnamed, args, hargs, returns, hreturns, given, hgiven, wrappings, hwrappings, -⟩
    have hknown := exists_mapM_eq_ok_iff.mp ⟨wrappings, hwrappings⟩
    simp only [WrappingEntry.exists_check_iff] at hknown
    exact ⟨hnamed, exists_readArguments_iff.mp ⟨args, hargs⟩,
      exists_readReturn_iff.mp ⟨returns, hreturns⟩, exists_gives_iff.mp ⟨given, hgiven⟩,
      (hgiven.forall_iff WrappingEntry.knownConvention_default).mp hknown⟩
  · rintro ⟨hnamed, hargs, hreturns, hform, hknown⟩
    obtain ⟨args, hargs⟩ := exists_readArguments_iff.mpr hargs
    obtain ⟨returns, hreturns⟩ := exists_readReturn_iff.mpr hreturns
    obtain ⟨given, hgiven⟩ := exists_gives_iff.mpr hform
    have hchecks : ∀ w ∈ given, ∃ wrapping, w.check e.name = .ok wrapping := fun w hw =>
      WrappingEntry.exists_check_iff.mpr
        ((hgiven.forall_iff WrappingEntry.knownConvention_default).mpr hknown w hw)
    obtain ⟨wrappings, hwrappings⟩ := exists_mapM_eq_ok_iff.mpr hchecks
    exact ⟨_, (), hnamed, args, hargs, returns, hreturns, given, hgiven, wrappings, hwrappings, rfl⟩

/-- **An entry is refused over the first rule that it breaks.** -/
theorem check_eq_error_iff : e.check = .error cause ↔ e.Refused cause := by
  simp only [check_eq, bind_eq_error_iff, reject_eq_error_iff, reject_eq_ok_iff,
    readArguments_eq_error_iff, readReturn_eq_error_iff, givenWrappings_eq_error_iff,
    givenWrappings_eq_ok_iff, mapM_eq_error_iff, WrappingEntry.exists_check_iff,
    WrappingEntry.check_eq_error_iff, pure_ne_error, and_false, exists_false, or_false,
    String.isEmpty_iff]
  constructor
  · rintro (⟨hname, rfl⟩ | ⟨_, hname, ⟨before, entry, after, hsplit, hbefore, hentry⟩ |
      ⟨args, hargs, h⟩⟩)
    · exact .unnamed hname
    · rcases hentry with ⟨hmem, rfl⟩ | ⟨hnew, fault, hfault, rfl⟩
      · exact .repeatedArgument hname hsplit hbefore hmem
      · exact .argumentType hname hsplit hbefore hnew hfault
    · -- a step that has a value tells that its part follows the rules
      have hargs := exists_readArguments_iff.mp ⟨args, hargs⟩
      rcases h with ⟨text, htext, hblank, fault, hfault, rfl⟩ | ⟨returns, hreturns, h⟩
      · exact .returnType hname hargs htext hblank hfault
      · have hreturns := exists_readReturn_iff.mp ⟨returns, hreturns⟩
        rcases h with ⟨single, list, hsingle, hlist, rfl⟩ | ⟨given, hgiven, before, w, after, rfl,
          hbefore, tag, htag, hne, rfl⟩
        · exact .bothForms hname hargs hreturns hsingle hlist
        · exact .unknownConvention hname hargs hreturns hgiven hbefore htag hne
  · intro h
    cases h with
    | unnamed hname => exact Or.inl ⟨hname, rfl⟩
    | repeatedArgument hname hsplit hbefore hmem =>
      exact Or.inr ⟨(), hname, Or.inl ⟨_, _, _, hsplit, hbefore, Or.inl ⟨hmem, rfl⟩⟩⟩
    | argumentType hname hsplit hbefore hnew hfault =>
      exact Or.inr ⟨(), hname, Or.inl ⟨_, _, _, hsplit, hbefore, Or.inr ⟨hnew, _, hfault, rfl⟩⟩⟩
    | returnType hname hargs htext hblank hfault =>
      obtain ⟨args, hargs⟩ := exists_readArguments_iff.mpr hargs
      exact Or.inr ⟨(), hname, Or.inr ⟨args, hargs, Or.inl ⟨_, htext, hblank, _, hfault, rfl⟩⟩⟩
    | bothForms hname hargs hreturns hsingle hlist =>
      obtain ⟨args, hargs⟩ := exists_readArguments_iff.mpr hargs
      obtain ⟨returns, hreturns⟩ := exists_readReturn_iff.mpr hreturns
      exact Or.inr ⟨(), hname,
        Or.inr ⟨args, hargs, Or.inr ⟨returns, hreturns, Or.inl ⟨_, _, hsingle, hlist, rfl⟩⟩⟩⟩
    | unknownConvention hname hargs hreturns hgiven hbefore htag hne =>
      obtain ⟨args, hargs⟩ := exists_readArguments_iff.mpr hargs
      obtain ⟨returns, hreturns⟩ := exists_readReturn_iff.mpr hreturns
      exact Or.inr ⟨(), hname,
        Or.inr ⟨args, hargs,
          Or.inr ⟨returns, hreturns, Or.inr ⟨_, hgiven, _, _, _, rfl, hbefore, _, htag, hne, rfl⟩⟩⟩⟩

end FunctionEntry

/-! ## Which catalogs are accepted -/

namespace FunctionCatalog

variable {entries : List FunctionEntry} {cause : CatalogError}

theorem exists_ofEntries_iff :
    (∃ c, ofEntries entries = .ok c) ↔ (entries.map (·.name)).Nodup ∧ ∀ e ∈ entries,
        e.Accepted := by
  simp only [ofEntries, bind_eq_ok_iff, pure_eq_ok_iff, checkEntries_eq, checkDistinct_eq_ok_iff,
    List.disjoint_nil_right, true_and, ← mapM_eq_ok_iff]
  have hentries : (∃ functions, entries.mapM FunctionEntry.check = .ok functions) ↔ ∀ e ∈ entries,
      e.Accepted := by
    simp only [exists_mapM_eq_ok_iff, FunctionEntry.check_eq_ok_iff,
      FunctionEntry.exists_describes_iff]
  rw [← hentries]
  constructor
  · rintro ⟨c, functions, ⟨hdistinct, hfunctions⟩, -⟩
    exact ⟨hdistinct, functions, hfunctions⟩
  · rintro ⟨hdistinct, functions, hfunctions⟩
    exact ⟨_, functions, ⟨hdistinct, hfunctions⟩, rfl⟩

/-- Entries are refused over the first one that repeats a name or is refused by itself. -/
theorem ofEntries_eq_error_iff : ofEntries entries = .error cause ↔
    ∃ before e after, entries = before ++ e :: after ∧ (before.map (·.name)).Nodup ∧
      (∀ earlier ∈ before, earlier.Accepted) ∧
      (e.name ∈ before.map (·.name) ∧ .duplicateFunction e.name = cause ∨
          e.name ∉ before.map (·.name) ∧ e.Refused cause) := by
  simp only [ofEntries, bind_eq_error_iff, pure_ne_error, and_false, exists_false, or_false,
    checkEntries_eq, checkDistinct_eq_error_iff, List.disjoint_nil_right, and_true,
    List.not_mem_nil, FunctionEntry.check_eq_ok_iff, FunctionEntry.exists_describes_iff,
    FunctionEntry.check_eq_error_iff]

/-- **A function catalog is accepted exactly if its entries have distinct names and each of them
follows the rules.** It then holds what the entries describe, one function for each and in their
order, and every function has a wrapping.  Else the cause is that of the first entry that repeats a
name or breaks a rule. -/
theorem catalog_accepted_exactly {text : String} {entries : List FunctionEntry}
    (hdecoded : (Json.parse text >>= entriesShape) = some entries) :
    ((∃ c, parse text = .ok c) ↔ (entries.map (·.name)).Nodup ∧ ∀ e ∈ entries, e.Accepted) ∧
    (∀ c, parse text = .ok c → List.Forall₂ FunctionEntry.Describes entries c.functions ∧
    ∀ f ∈ c.functions, f.wrappings ≠ []) ∧
    ∀ cause, parse text = .error cause ↔
      ∃ before e after, entries = before ++ e :: after ∧ (before.map (·.name)).Nodup ∧
        (∀ earlier ∈ before, earlier.Accepted) ∧
        (e.name ∈ before.map (·.name) ∧ .duplicateFunction e.name = cause ∨
            e.name ∉ before.map (·.name) ∧ e.Refused cause) := by
  have hparse : parse text = ofEntries entries := by rw [parse, hdecoded]
  refine ⟨?_, fun c hc => ⟨?_, fun f hf => wrappings_ne_nil hc hf⟩, fun cause => ?_⟩
  · rw [hparse]
    exact exists_ofEntries_iff
  · rw [hparse] at hc
    exact (ofEntries_eq_ok_iff.mp hc).2
  · rw [hparse]
    exact ofEntries_eq_error_iff

/-! ## A sample -/

/-- A catalog whose second entry has a convention that is not known, and whose third entry repeats a
name. -/
def refusedText : String :=
  "[[[\"open\",[[\"m\",\"*mut  Buf\"]],\" \"]," ++
    "[\"seal\",[],null,null,null,[[\"\"],[\"_at\",\x7b\x7d,[],\"1 is Ok\"]]]," ++
    "[\"open\",[]]]]"

/-- The entries of the sample. -/
def refusedEntries : List FunctionEntry :=
  [{ name := "open", arguments := [("m", "*mut  Buf")], returns := some " " },
    { name := "seal", arguments := [],
      wrappings := some [{}, { suffix := "_at", conventionTag := some "1 is Ok" }] },
    { name := "open", arguments := [] }]

/-- The sample is refused over its second entry, and the entry before it follows the rules.  The
text of the other sample, which is accepted, has entries that do so. -/
theorem refused_sample_blames_second_entry :
    (Json.parse refusedText >>= entriesShape) = some refusedEntries ∧
      parse refusedText = .error (.unknownConvention "seal" "1 is Ok") ∧
      (∃ before e after, refusedEntries = before ++ e :: after ∧
        (∀ earlier ∈ before, earlier.Accepted) ∧
        e.name ∉ before.map (·.name) ∧ e.Refused (.unknownConvention "seal" "1 is Ok")) ∧
      parse sampleText = .ok sampleCatalog ∧
      ∃ entries : List FunctionEntry, (Json.parse sampleText >>= entriesShape) = some entries ∧
        (entries.map (·.name)).Nodup ∧ (∀ e ∈ entries, e.Accepted) ∧
        List.Forall₂ FunctionEntry.Describes entries sampleCatalog.functions := by
  have hdecoded : (Json.parse refusedText >>= entriesShape) =
    some refusedEntries := by decide +kernel
  have hrefused : parse refusedText = .error (.unknownConvention "seal" "1 is Ok") := by
    decide +kernel
  obtain ⟨before, e, after, hsplit, -, hbefore, ⟨-, hcause⟩ | ⟨hnew, he⟩⟩ :=
    ((catalog_accepted_exactly hdecoded).2.2 _).mp hrefused
  · cases hcause
  have hsample : ((Json.parse sampleText >>= entriesShape).isSome) = true := by decide +kernel
  obtain ⟨entries, hentries⟩ := Option.isSome_iff_exists.mp hsample
  obtain ⟨hiff, hdescribes, -⟩ := catalog_accepted_exactly hentries
  obtain ⟨hdistinct, haccepted⟩ := hiff.mp ⟨_, parse_sampleText⟩
  exact ⟨hdecoded, hrefused, ⟨before, e, after, hsplit, hbefore, hnew, he⟩, parse_sampleText,
    entries, hentries, hdistinct, haccepted, (hdescribes _ parse_sampleText).1⟩

end FunctionCatalog

end Bindery
