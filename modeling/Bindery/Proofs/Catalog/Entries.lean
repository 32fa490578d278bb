/-
# Bindery.Proofs.Catalog.Entries -- which function an entry of a catalog describes.

An entry is checked by a chain of steps that may fail.  `FunctionEntry.Describes` says what a check
that succeeds has to do with its entry, part by part: arguments are read in order, a blank return
type is none, and the wrappings of the function, written as entries again, are those that the entry
gives.  An entry describes at most one function, and a catalog is accepted exactly if its names are
distinct and each of its entries describes the function at its position.
-/
import Bindery.Catalog.Functions
import Bindery.Proofs.Checks
import Bindery.Proofs.Text.Blank

namespace Bindery

/-! ## Arguments -/

/-- **`a.Reads entry`** -- the argument has the name of the entry and the type that it spells. -/
def Argument.Reads (a : Argument) (entry : String × String) : Prop :=
  a.name = entry.1 ∧ ForeignType.parse entry.2 = .ok a.type

namespace FunctionEntry

variable {function : String} {seen : List String} {entry : String × String}
  {entries : List (String × String)}
  {args : List Argument}

/-- Reads one argument. -/
def readArgument (function : String) (entry : String × String) : Except CatalogError Argument := do
  let type ← (ForeignType.parse entry.2).mapError (.argumentType function entry.1)
  return ⟨entry.1, type⟩

theorem readArgument_eq_ok_iff {a : Argument} : readArgument function entry = .ok a ↔
    a.Reads entry := by
  simp only [readArgument, bind_eq_ok_iff, mapError_eq_ok_iff, pure_eq_ok_iff, Argument.Reads]
  constructor
  · rintro ⟨type, htype, rfl⟩
    exact ⟨rfl, htype⟩
  · rintro ⟨hname, htype⟩
    exact ⟨a.type, htype, by rw [← hname]⟩

/-- Arguments are read as a list with distinct keys. -/
theorem readArguments_eq : readArguments function seen entries =
    checkDistinct (·.1) (fun entry => .duplicateArgument function entry.1) (readArgument function)
        seen entries := by
  induction entries generalizing seen with
  | nil => rfl
  | cons entry rest ih =>
    rw [readArguments, checkDistinct, reject]
    split
    · rfl
    · rw [ih, readArgument]
      cases ForeignType.parse entry.2 <;> rfl

theorem readArguments_eq_ok_iff : readArguments function [] entries = .ok args ↔
    (entries.map (·.1)).Nodup ∧ List.Forall₂ (fun entry a => Argument.Reads a entry)
        entries args := by
  simp only [readArguments_eq, checkDistinct_eq_ok_iff, readArgument_eq_ok_iff,
    List.disjoint_nil_right, true_and]

end FunctionEntry

/-! ## Return types -/

/-- **`ReturnReads text returns`** -- what a return type that may be absent stands for. -/
inductive ReturnReads : Option String → Option ForeignType → Prop
  | absent : ReturnReads none none
  | blank {text : String} : Text.Blank text → ReturnReads (some text) none
  | type {text : String} {t : ForeignType} : ¬ Text.Blank text → ForeignType.parse text = .ok t →
      ReturnReads (some text) (some t)

namespace FunctionEntry

/-- A return type as a chain of checks. -/
theorem readReturn_some_eq {function text : String} (h : ¬ Text.Blank text) :
    readReturn function (some text) = (do
      let t ← (ForeignType.parse text).mapError (.returnType function)
      return some t) := by
  rw [readReturn, if_neg (mt Text.isEmpty_trim_iff.mp h)]
  cases ForeignType.parse text <;> rfl

theorem readReturn_of_blank {function text : String} (h : Text.Blank text) :
    readReturn function (some text) = .ok none := by
  rw [readReturn, if_pos (Text.isEmpty_trim_iff.mpr h)]

theorem readReturn_eq_ok_iff {function : String} {text : Option String}
    {returns : Option ForeignType} :
    readReturn function text = .ok returns ↔ ReturnReads text returns := by
  constructor
  · intro h
    cases text with
    | none =>
      cases h
      exact .absent
    | some text =>
      by_cases hblank : Text.Blank text
      · rw [readReturn_of_blank hblank] at h
        cases h
        exact .blank hblank
      · simp only [readReturn_some_eq hblank, bind_eq_ok_iff, mapError_eq_ok_iff,
          pure_eq_ok_iff] at h
        obtain ⟨t, ht, rfl⟩ := h
        exact .type hblank ht
  · rintro (_ | hblank | ⟨hblank, ht⟩)
    · rfl
    · exact readReturn_of_blank hblank
    · simp only [readReturn_some_eq hblank, bind_eq_ok_iff, mapError_eq_ok_iff, pure_eq_ok_iff]
      exact ⟨_, ht, rfl⟩

end FunctionEntry

/-! ## Wrappings -/

/-- The entry that gives a wrapping. -/
def Wrapping.entry (w : Wrapping) : WrappingEntry :=
  ⟨w.suffix, w.sources, w.outputs, w.convention.map ResultConvention.tag, w.pointees, w.description⟩

/-- A tag that is known is that of a convention. -/
theorem ResultConvention.ofTag?_eq_some_iff {tag : String} {convention : ResultConvention} :
    ofTag? tag = some convention ↔ tag = convention.tag := by
  cases convention
  simp [ofTag?]

namespace WrappingEntry

variable {function : String} {e : WrappingEntry} {w : Wrapping}

/-- The check of a wrapping as a chain of checks. -/
theorem check_eq_of_tag {tag : String} (h : e.conventionTag = some tag) : e.check function = (do
    let convention ← need (ResultConvention.ofTag? tag) (.unknownConvention function tag)
    return ⟨e.suffix, e.sources, e.outputs, some convention, e.pointees, e.description⟩) := by
  unfold check need
  rw [h]
  dsimp only
  cases ResultConvention.ofTag? tag <;> rfl

/-- **A wrapping keeps all that its entry says.** -/
theorem check_eq_ok_iff : e.check function = .ok w ↔ w.entry = e := by
  cases htag : e.conventionTag with
  | none =>
    rw [check, htag]
    constructor
    · rintro ⟨⟩
      rw [Wrapping.entry, Option.map_none, ← htag]
    · rintro rfl
      have hnone : w.convention = none := Option.map_eq_none_iff.mp htag
      rw [← hnone]
      rfl
  | some tag =>
    simp only [check_eq_of_tag htag, bind_eq_ok_iff, need_eq_ok_iff, pure_eq_ok_iff,
      ResultConvention.ofTag?_eq_some_iff]
    constructor
    · rintro ⟨convention, rfl, rfl⟩
      rw [Wrapping.entry, Option.map_some, ← htag]
    · rintro rfl
      obtain ⟨convention, hsome, htag⟩ := Option.map_eq_some_iff.mp htag
      exact ⟨convention, htag.symm, by rw [← hsome]; rfl⟩

/-- A list of wrappings keeps all that its entries say. -/
theorem mapM_check_eq_ok_iff {given : List WrappingEntry} {wrappings : List Wrapping} :
    given.mapM (check function) = .ok wrappings ↔ wrappings.map Wrapping.entry = given := by
  simp only [mapM_eq_ok_iff, check_eq_ok_iff]
  rw [← List.forall₂_eq_eq_eq, List.forall₂_map_left_iff]
  exact ⟨List.Forall₂.flip, List.Forall₂.flip⟩

end WrappingEntry

namespace FunctionEntry

/-- **`e.Gives given`** -- the wrappings of an entry: a single one, or the members of a list that is
not empty, or else one with every default. -/
inductive Gives (e : FunctionEntry) : List WrappingEntry → Prop
  | single {w : WrappingEntry} : e.wrapping = some w → e.wrappings = none → Gives e [w]
  | list {ws : List WrappingEntry} : e.wrapping = none → e.wrappings = some ws →
      ws ≠ [] → Gives e ws
  | default : e.wrapping = none → e.wrappings.getD [] = [] → Gives e [{}]

variable {e : FunctionEntry} {given : List WrappingEntry}

theorem givenWrappings_eq_ok_iff : e.givenWrappings = .ok given ↔ e.Gives given := by
  constructor
  · intro h
    unfold givenWrappings at h
    split at h <;> cases h
    case h_2 hsingle hlist => exact .single hsingle hlist
    case h_3 first others hsingle hlist => exact .list hsingle hlist (List.cons_ne_nil _ _)
    case h_4 hsingle hlist =>
      -- neither form is left but no list or an empty one
      refine .default hsingle ?_
      cases hlist' : e.wrappings with
      | none => rfl
      | some ws =>
        cases ws with
        | nil => rfl
        | cons first others => exact absurd hlist' (hlist first others)
  · rintro (⟨hsingle, hlist⟩ | ⟨hsingle, hlist, hne⟩ | ⟨hsingle, hlist⟩)
    · rw [givenWrappings, hsingle, hlist]
    · obtain ⟨first, others, rfl⟩ := List.exists_cons_of_ne_nil hne
      rw [givenWrappings, hsingle, hlist]
    · rw [givenWrappings, hsingle]
      cases hlist' : e.wrappings with
      | none => rfl
      | some ws =>
        rw [hlist', Option.getD_some] at hlist
        rw [hlist]

/-- An entry gives at least one wrapping, whichever form it takes. -/
theorem Gives.ne_nil (h : e.Gives given) : given ≠ [] := by
  cases h with
  | single => exact List.cons_ne_nil _ _
  | list _ _ hne => exact hne
  | default => exact List.cons_ne_nil _ _

end FunctionEntry

/-! ## Functions -/

namespace FunctionEntry

/-- **`e.Describes f`** -- the function is what the entry describes. -/
structure Describes (e : FunctionEntry) (f : ForeignFunction) : Prop where
  named : e.name ≠ ""
  distinct : (e.arguments.map (·.1)).Nodup
  name : f.name = e.name
  /-- The arguments are those of the entry, in their order. -/
  arguments : List.Forall₂ (fun entry a => Argument.Reads a entry) e.arguments f.arguments
  returns : ReturnReads e.returns f.returns
  backends : f.backends = e.backends
  /-- The wrappings are those that the entry gives, in their order and with all that it says of
  them. -/
  wrappings : e.Gives (f.wrappings.map Wrapping.entry)

variable {e : FunctionEntry} {f : ForeignFunction}

/-- The check of an entry as a chain of checks. -/
theorem check_eq (e : FunctionEntry) : e.check = (do
    reject (e.name.isEmpty = true) .unnamedFunction
    let args ← readArguments e.name [] e.arguments
    let returns ← readReturn e.name e.returns
    let given ← e.givenWrappings
    let wrappings ← given.mapM (WrappingEntry.check e.name)
    return ⟨e.name, args, returns, e.backends, wrappings⟩) := by
  unfold check reject
  by_cases h : e.name.isEmpty = true
  · rw [if_pos h, if_pos h]
    rfl
  · rw [if_neg h, if_neg h]
    rfl

/-- **An entry passes its check with the function that it describes.** -/
theorem check_eq_ok_iff : e.check = .ok f ↔ e.Describes f := by
  simp only [check_eq, bind_eq_ok_iff, reject_eq_ok_iff, pure_eq_ok_iff, readArguments_eq_ok_iff,
    readReturn_eq_ok_iff, givenWrappings_eq_ok_iff, WrappingEntry.mapM_check_eq_ok_iff,
    String.isEmpty_iff]
  constructor
  · rintro ⟨_, hnamed, args, ⟨hdistinct, hargs⟩, returns, hreturns, given, hgiven,
      wrappings, rfl, rfl⟩
    exact ⟨hnamed, hdistinct, rfl, hargs, hreturns, rfl, hgiven⟩
  · rintro ⟨hnamed, hdistinct, hname, hargs, hreturns, hbackends, hgiven⟩
    refine ⟨(), hnamed, f.arguments, ⟨hdistinct, hargs⟩, f.returns, hreturns, _, hgiven,
      f.wrappings, rfl, ?_⟩
    rw [← hname, ← hbackends]

namespace Describes

/-- The arguments of a function have distinct names. -/
theorem nodup_arguments (h : e.Describes f) : (f.arguments.map (·.name)).Nodup := by
  have hnames : e.arguments.map (·.1) = f.arguments.map (·.name) :=
    map_eq_map_of_forall₂ h.arguments fun _ _ hreads => hreads.1.symm
  rw [← hnames]
  exact h.distinct

/-- A function has at least one wrapping. -/
theorem wrappings_ne_nil (h : e.Describes f) : f.wrappings ≠ [] :=
  mt List.map_eq_nil_iff.mpr h.wrappings.ne_nil

end Describes

end FunctionEntry

/-! ## Catalogs -/

namespace FunctionCatalog

variable {entries : List FunctionEntry} {seen : List String}

/-- Entries are checked as a list with distinct keys. -/
theorem checkEntries_eq : checkEntries seen entries =
    checkDistinct (·.name) (fun e => .duplicateFunction e.name) FunctionEntry.check
        seen entries := by
  induction entries generalizing seen with
  | nil => rfl
  | cons e rest ih =>
    rw [checkEntries, checkDistinct, reject]
    split
    · rfl
    · rw [ih]
      rfl

/-- **The catalog of some entries has the functions that they describe, in their order.** -/
theorem ofEntries_eq_ok_iff {c : FunctionCatalog} : ofEntries entries = .ok c ↔
    (entries.map (·.name)).Nodup ∧ List.Forall₂ FunctionEntry.Describes entries c.functions := by
  simp only [ofEntries, bind_eq_ok_iff, pure_eq_ok_iff, checkEntries_eq, checkDistinct_eq_ok_iff,
    FunctionEntry.check_eq_ok_iff, List.disjoint_nil_right, true_and]
  constructor
  · rintro ⟨functions, hfunctions, rfl⟩
    exact hfunctions
  · intro hfunctions
    exact ⟨c.functions, hfunctions, rfl⟩

end FunctionCatalog

end Bindery
