/-
# Bindery.Proofs.Project.References -- what a check against reference headers covers.

Every variant of the parameter catalog has its header below one directory, and the variants are
compared one after another.  What a comparison says follows from the tree alone, so the whole check
is a list of checks: it succeeds exactly if the header of every parameter set and backend can be
read and agrees, whatever the manifest skips, and it fails exactly over the first variant whose
header cannot be read or disagrees.
-/
import Bindery.Project.References
import Bindery.Proofs.Header.Agreement
import Bindery.Proofs.Project.Loading

namespace Bindery

variable {t after : FileTree}

/-! ## One variant -/

namespace Variant

/-- **`v.AgreesBelow t directory`** -- the header of the variant below the directory can be read and
agrees with it. -/
def AgreesBelow (t : FileTree) (directory : Path) (v : Variant) : Prop :=
  t.Holds (v.headerPath directory) v.AgreesWith

/-- **`v.FailsBelow t directory e`** -- the header of the variant cannot be read, or it disagrees.
-/
inductive FailsBelow (t : FileTree) (directory : Path) (v : Variant) : ReferenceError → Prop
  | unreadable {cause : FileError} : t.read (v.headerPath directory) = .error cause →
      FailsBelow t directory v (.unreadable (v.headerPath directory) cause)
  | disagrees {header : String} {fault : HeaderFault} : t.read (v.headerPath directory) =
      .ok header → v.Disagrees header fault →
      FailsBelow t directory v (.disagrees fault)

/-- What the comparison of a variant with its header says. -/
def compareBelow (t : FileTree) (directory : Path) (v : Variant) : Except ReferenceError Unit := do
  let header ← (t.read (v.headerPath directory)).mapError (.unreadable (v.headerPath directory))
  (v.checkHeader header).mapError .disagrees

variable {directory : Path} {v : Variant}

theorem compareBelow_eq_ok_iff :
    v.compareBelow t directory = .ok () ↔ v.AgreesBelow t directory := by
  simp only [compareBelow, bind_eq_ok_iff, mapError_eq_ok_iff, checkHeader_eq_ok_iff, AgreesBelow,
    FileTree.Holds]

theorem compareBelow_eq_error_iff {e : ReferenceError} :
    v.compareBelow t directory = .error e ↔ v.FailsBelow t directory e := by
  simp only [compareBelow, bind_eq_error_iff, mapError_eq_ok_iff, mapError_eq_error_iff,
    checkHeader_eq_error_iff]
  constructor
  · rintro (⟨cause, hread, rfl⟩ | ⟨header, hread, fault, hfault, rfl⟩)
    · exact .unreadable hread
    · exact .disagrees hread hfault
  · rintro (hread | ⟨hread, hfault⟩)
    · exact Or.inl ⟨_, hread, rfl⟩
    · exact Or.inr ⟨_, hread, _, hfault, rfl⟩

end Variant

/-! ## All variants -/

namespace ParameterCatalog

/-- Every variant is a backend of one of the parameter sets. -/
theorem forall_mem_variants {p : ParameterCatalog} {q : Variant → Prop} :
    (∀ v ∈ p.variants, q v) ↔ ∀ set ∈ p.sets, ∀ backend ∈ set.backends,
        q ⟨p.scheme, p.library, set, backend⟩ := by
  simp only [variants, List.forall_mem_flatMap, List.forall_mem_map]

/-- There are as many variants as backends in all parameter sets. -/
theorem length_variants (p : ParameterCatalog) :
    p.variants.length = (p.sets.flatMap (·.backends)).length := by
  simp only [variants, List.length_flatMap, List.length_map]

/-- **`p.FailsBelow t directory e`** -- the failure is that of the first variant whose header cannot
be read or disagrees. -/
def FailsBelow (t : FileTree) (directory : Path) (p : ParameterCatalog) (e : ReferenceError) :
    Prop :=
  ∃ before v later, p.variants = before ++ v :: later ∧
    (∀ earlier ∈ before, earlier.AgreesBelow t directory) ∧
    v.FailsBelow t directory e

end ParameterCatalog

namespace Project

open Program

variable {directory : Path}

/-- What the comparison of a variant says is how the program for it ends. -/
theorem checkVariant_ends_iff {v : Variant} {result : Except Failure Unit} :
    (checkVariant directory v).Ends t result after ↔
      result = (v.compareBelow t directory).mapError .reference ∧ after = t := by
  -- no step changes the tree, so the next one reads what the comparison reads
  rw [checkVariant, bind_ends_iff_of_ok (readText_ends_iff.mpr ⟨rfl, rfl⟩), Variant.compareBelow]
  cases t.read (v.headerPath directory) with
  | error cause => exact bind_ends_iff_of_error (orFail_ends_iff.mpr ⟨rfl, rfl⟩)
  | ok header =>
    rw [bind_ends_iff_of_ok (orFail_ends_iff.mpr ⟨rfl, rfl⟩)]
    show _ ↔ result = ((v.checkHeader header).mapError .disagrees).mapError .reference ∧ _
    cases v.checkHeader header with
    | error fault => exact bind_ends_iff_of_error (orFail_ends_iff.mpr ⟨rfl, rfl⟩)
    | ok _ =>
      rw [bind_ends_iff_of_ok (orFail_ends_iff.mpr ⟨rfl, rfl⟩)]
      exact report_ends_iff

/-- **Variants are compared as a list of checks**, and nothing is changed. -/
theorem checkVariants_ends_iff {variants : List Variant} {result : Except Failure Unit} :
    (checkVariants directory variants).Ends t result after ↔
      result = (variants.forM (Variant.compareBelow t directory)).mapError .reference ∧
          after = t := by
  induction variants with
  | nil => exact pure_ends_iff
  | cons v rest ih =>
    rw [checkVariants, List.forM_eq_forM, List.forM_cons]
    cases hfirst : v.compareBelow t directory with
    | error e => exact bind_ends_iff_of_error (checkVariant_ends_iff.mpr ⟨by rw [hfirst]; rfl, rfl⟩)
    | ok _ =>
      rw [bind_ends_iff_of_ok (checkVariant_ends_iff.mpr ⟨by rw [hfirst]; rfl, rfl⟩)]
      exact ih

/-- A check succeeds with the number of variants if every header agrees. -/
theorem checkHeaders_ends_ok_iff {p : ParameterCatalog} {n : Nat} :
    (checkHeaders p directory).Ends t (.ok n) after ↔
      (n = p.variants.length ∧ ∀ v ∈ p.variants, v.AgreesBelow t directory) ∧ after = t := by
  simp only [checkHeaders, bind_ends_ok_iff, checkVariants_ends_iff, pure_ends_iff]
  constructor
  · rintro ⟨_, _, ⟨hverdict, rfl⟩, hcount, rfl⟩
    have hall := forM_eq_ok_iff.mp (mapError_eq_ok_iff.mp hverdict.symm)
    exact ⟨⟨Except.ok.inj hcount, fun v hv => Variant.compareBelow_eq_ok_iff.mp (hall v hv)⟩, rfl⟩
  · rintro ⟨⟨rfl, hall⟩, rfl⟩
    have hverdict := forM_eq_ok_iff.mpr fun v hv => Variant.compareBelow_eq_ok_iff.mpr (hall v hv)
    exact ⟨(), after, ⟨by rw [hverdict]; rfl, rfl⟩, rfl, rfl⟩

theorem checkHeaders_ends_error_iff {p : ParameterCatalog} {f : Failure} :
    (checkHeaders p directory).Ends t (.error f) after ↔
        (∃ e, p.FailsBelow t directory e ∧ f = .reference e) ∧ after = t := by
  simp only [checkHeaders, bind_ends_error_iff, checkVariants_ends_iff, pure_ends_iff, reduceCtorEq,
    false_and, and_false, exists_false, or_false]
  refine and_congr_left fun _ => ?_
  rw [eq_comm, mapError_eq_error_iff]
  simp only [forM_eq_error_iff, Variant.compareBelow_eq_ok_iff, Variant.compareBelow_eq_error_iff,
    ParameterCatalog.FailsBelow]
  exact exists_congr fun e => and_congr_right fun _ => eq_comm

/-! ## Commands -/

/-- The tree of headers that a check of a project looks at. -/
def headersOf (project : Located) : Option String → Path
  | some given => project.root / given
  | none => project.manifest.headersPath project.root

theorem checkConstants_eq (project : Located) (given : Option String) :
    checkConstants project given = (do
    let parameters ← loadWith ParameterCatalog.parse
      (project.manifest.parametersPath project.root) .headerCheck
    if (← kindOf (headersOf project given)) = some .directory then
      let count ← checkHeaders parameters (headersOf project given)
      say ("Constants of " ++ count.repr ++ " variants match the headers in " ++
        (headersOf project given).text ++ "\n")
    else fail (.noHeaders (headersOf project given))) := by
  cases given <;> rfl

/-- **`LooksInto t project given p`** -- the parameter catalog of the project is accepted, and its
tree of headers is there. -/
def LooksInto (t : FileTree) (project : Located) (given : Option String) (p : ParameterCatalog) :
    Prop :=
  t.Holds (project.manifest.parametersPath project.root) (fun text =>
    ParameterCatalog.parse text = .ok p) ∧
    t.kind? (headersOf project given) = some .directory

/-- The accepted catalog is one. -/
theorem LooksInto.unique {project : Located} {given : Option String} {p q : ParameterCatalog}
    (hp : LooksInto t project given p)
    (hq : LooksInto t project given q) : p = q := by
  obtain ⟨⟨text, hread, hparse⟩, -⟩ := hp
  obtain ⟨⟨text', hread', hparse'⟩, -⟩ := hq
  cases hread.symm.trans hread'
  exact Except.ok.inj (hparse.symm.trans hparse')

theorem checkConstants_ends_ok_iff {project : Located} {given : Option String} {u : Unit} :
    (checkConstants project given).Ends t (.ok u) after ↔
      (∃ p, LooksInto t project given p ∧ ∀ v ∈ p.variants,
          v.AgreesBelow t (headersOf project given)) ∧ after = t := by
  simp only [checkConstants_eq, bind_ends_ok_iff, loadWith_ends_ok_iff, kindOf_ends_iff]
  constructor
  · rintro ⟨p, _, ⟨hholds, rfl⟩, kind, _, ⟨hkind, rfl⟩, h⟩
    cases hkind
    split at h
    · rename_i hdirectory
      obtain ⟨count, _, hheaders, hsay⟩ := bind_ends_ok_iff.mp h
      obtain ⟨⟨-, hall⟩, rfl⟩ := checkHeaders_ends_ok_iff.mp hheaders
      exact ⟨⟨p, ⟨hholds, hdirectory⟩, hall⟩, (say_ends_iff.mp hsay).2⟩
    · cases (fail_ends_iff.mp h).1
  · rintro ⟨⟨p, ⟨hholds, hdirectory⟩, hall⟩, rfl⟩
    refine ⟨p, after, ⟨hholds, rfl⟩, _, after, ⟨rfl, rfl⟩, ?_⟩
    rw [if_pos hdirectory]
    exact bind_ends_ok_iff.mpr ⟨_, after, checkHeaders_ends_ok_iff.mpr ⟨⟨rfl, hall⟩, rfl⟩,
      say_ends_iff.mpr ⟨rfl, rfl⟩⟩

theorem checkConstants_ends_reference_iff {project : Located} {given : Option String}
    {e : ReferenceError} :
    (checkConstants project given).Ends t (.error (.reference e)) after ↔
      (∃ p, LooksInto t project given p ∧ p.FailsBelow t (headersOf project given) e) ∧
          after = t := by
  simp only [checkConstants_eq, bind_ends_error_iff, loadWith_ends_ok_iff, kindOf_ends_iff]
  constructor
  · rintro (hload | ⟨p, _, ⟨hholds, rfl⟩, ⟨hkind, -⟩ | ⟨kind, _, ⟨hkind, rfl⟩, h⟩⟩)
    · -- what goes wrong with a catalog is no matter of a header
      cases (loadWith_looks _ _ _).failure_of_ends hload
    · cases hkind
    · cases hkind
      split at h
      · rename_i hdirectory
        rcases bind_ends_error_iff.mp h with hheaders | ⟨count, _, -, hsay⟩
        · obtain ⟨⟨e', hfails, he⟩, rfl⟩ := checkHeaders_ends_error_iff.mp hheaders
          cases he
          exact ⟨⟨p, ⟨hholds, hdirectory⟩, hfails⟩, rfl⟩
        · cases (say_ends_iff.mp hsay).1
      · cases (fail_ends_iff.mp h).1
  · rintro ⟨⟨p, ⟨hholds, hdirectory⟩, hfails⟩, rfl⟩
    refine Or.inr ⟨p, after, ⟨hholds, rfl⟩, Or.inr ⟨_, after, ⟨rfl, rfl⟩, ?_⟩⟩
    rw [if_pos hdirectory]
    exact bind_ends_error_iff.mpr (Or.inl (checkHeaders_ends_error_iff.mpr ⟨⟨e, hfails, rfl⟩, rfl⟩))

/-! ## Coverage -/

/-- **A check covers every backend of every parameter set, and reports the first that fails.** It
counts the backends if and only if each of their headers is a text that gives each of the three
constants, by the last definition of its name, an integer of the value in the catalog.  Else it
fails over the first backend that has no such header, and within a header over the first such
constant.  So does the check of a project, whose manifest leaves no backend out of it. -/
theorem headers_checked_exactly (p : ParameterCatalog) (directory : Path) (t : FileTree) :
    (∀ n after, (checkHeaders p directory).Ends t (.ok n) after ↔
      (n = (p.sets.flatMap (·.backends)).length ∧ ∀ set ∈ p.sets, ∀ backend ∈ set.backends,
        t.Holds (directory / (p.scheme ++ set.level.repr) / backend.name / "api.h") fun header =>
          ∀ c ∈ (Variant.byteLengths ⟨p.scheme, p.library, set, backend⟩).all,
            ∃ text, Header.Defines header c.name text ∧ Header.integer? text = some c.value) ∧
              after = t) ∧
    (∀ f after, (checkHeaders p directory).Ends t (.error f) after ↔
      (∃ e, p.FailsBelow t directory e ∧ f = .reference e) ∧ after = t) ∧
    ∀ project given, LooksInto t project given p →
      (∀ u after, (checkConstants project given).Ends t (.ok u) after ↔
        (∀ v ∈ p.variants, v.AgreesBelow t (headersOf project given)) ∧ after = t) ∧
      ∀ e after, (checkConstants project given).Ends t (.error (.reference e)) after ↔
        p.FailsBelow t (headersOf project given) e ∧ after = t := by
  refine ⟨fun n after => ?_, fun f after => checkHeaders_ends_error_iff, fun project given hlooks =>
    ⟨fun u after => ?_, fun e after => ?_⟩⟩
  · rw [checkHeaders_ends_ok_iff, ParameterCatalog.forall_mem_variants,
      ParameterCatalog.length_variants]
    rfl
  · rw [checkConstants_ends_ok_iff]
    refine and_congr_left fun _ => ⟨?_, fun hall => ⟨p, hlooks, hall⟩⟩
    rintro ⟨other, hother, hall⟩
    rwa [hlooks.unique hother]
  · rw [checkConstants_ends_reference_iff]
    refine and_congr_left fun _ => ⟨?_, fun hfails => ⟨p, hlooks, hfails⟩⟩
    rintro ⟨other, hother, hfails⟩
    rwa [hlooks.unique hother]

/-! ## A sample -/

/-- A project that generates nothing for one of the backends of its catalog. -/
def skippingProject : Located :=
  ⟨⟨"/p"⟩, { catalog := ⟨"api", "sets"⟩, output := { skip := [.avx2] }, headers := "h" }⟩

/-- The catalog of that project. -/
def twoBackends : ParameterCatalog := ⟨"sig", "lib", [⟨2, 1, 1, 1, [.clean, .avx2]⟩]⟩

/-- A tree that holds the catalog and the header of the other backend. -/
def oneHeaderTree : FileTree :=
  let header := "#define LIB_SIG2_CLEAN_CRYPTO_PUBLICKEYBYTES 1\n" ++
    "#define LIB_SIG2_CLEAN_CRYPTO_SECRETKEYBYTES 1\n" ++
    "#define LIB_SIG2_CLEAN_CRYPTO_BYTES (0x1u)\n"
  ⟨[("p", .directory [
      ("sets", .file "[\"sig\",\"lib\",[[2,1,1,1,[\"clean\",\"avx2\"]]]]".toUTF8),
      ("h",
        .directory
        [("sig2", .directory [("clean", .directory [("api.h", .file header.toUTF8)])])])])]⟩

/-- The check of the sample fails over the backend that is skipped, whose header is not there. -/
theorem skipped_backend_is_checked :
    LooksInto oneHeaderTree skippingProject none twoBackends ∧
      twoBackends.FailsBelow oneHeaderTree ⟨"/p/h"⟩
        (.unreadable ⟨"/p/h/sig2/avx2/api.h"⟩ .notFound) ∧
      (checkConstants skippingProject none).Ends oneHeaderTree
        (.error (.reference (.unreadable ⟨"/p/h/sig2/avx2/api.h"⟩ .notFound))) oneHeaderTree := by
  have hlooks : LooksInto oneHeaderTree skippingProject none twoBackends :=
    ⟨⟨_, rfl, by decide +kernel⟩, by decide +kernel⟩
  have hclean : Variant.AgreesBelow oneHeaderTree ⟨"/p/h"⟩ ⟨"sig", "lib",
      ⟨2, 1, 1, 1, [.clean, .avx2]⟩, .clean⟩ :=
    Variant.compareBelow_eq_ok_iff.mp (by decide +kernel)
  have hfails : twoBackends.FailsBelow oneHeaderTree ⟨"/p/h"⟩
      (.unreadable ⟨"/p/h/sig2/avx2/api.h"⟩ .notFound) :=
    ⟨[_], _, [], rfl, List.forall_mem_singleton.mpr hclean, Variant.compareBelow_eq_error_iff.mp
      (by decide +kernel)⟩
  obtain ⟨-, herror⟩ :=
    (headers_checked_exactly twoBackends ⟨"/p/h"⟩ oneHeaderTree).2.2 skippingProject none hlooks
  exact ⟨hlooks, hfails, (herror _ _).mpr ⟨hfails, rfl⟩⟩

end Project

end Bindery
