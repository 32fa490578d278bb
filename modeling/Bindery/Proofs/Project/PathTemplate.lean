/-
# Bindery.Proofs.Project.PathTemplate -- the placeholders of a template are filled as if at once.

Placeholders are replaced one after another on a text that grows, so what an earlier replacement has
brought in could be taken for a later placeholder, alone or together with what stands beside it.  It
is not if no opening brace comes in: then every brace of the text opens a placeholder of the
template, and a replacement finds exactly the placeholders that it looks for.  Of the values only
the scheme is free; the others are made of it, of digits and of the fixed names of backends.
-/
import Bindery.Proofs.Catalog.Variants
import Bindery.Proofs.Text.Replace
import Bindery.Proofs.Unit.Drafts
import Bindery.Project.Manifest

namespace Bindery

/-! ## Placeholders -/

/-- What a placeholder stands for. -/
inductive Slot where
  | module
  | scheme
  | level
  | backend
deriving Repr, DecidableEq

namespace Slot

/-- The name in the braces. -/
def name : Slot → String
  | .module => "module"
  | .scheme => "scheme"
  | .level => "level"
  | .backend => "impl"

/-- The placeholder as it stands in a template. -/
def mark (s : Slot) : String :=
  "\x7b" ++ s.name ++ "\x7d"

/-- What a variant puts in its place. -/
def value (v : Variant) : Slot → String
  | .module => v.moduleName
  | .scheme => v.scheme
  | .level => v.levelText
  | .backend => v.backend.name

/-- The slots in the order in which they are filled. -/
def all : List Slot := [.module, .scheme, .level, .backend]

theorem mem_all (s : Slot) : s ∈ all := by
  cases s <;> decide

theorem toList_mark (s : Slot) : s.mark.toList = Text.braced s.name.toList := by
  simp [mark, Text.braced]

theorem name_injective : Function.Injective name := by
  intro s t h
  cases s <;> cases t <;> first | rfl | exact absurd h (by decide)

theorem brace_notMem_name (s : Slot) : '\x7b' ∉ s.name.toList ∧ '\x7d' ∉ s.name.toList := by
  cases s <;> decide

/-- No value brings in an opening brace if the scheme does not. -/
theorem brace_notMem_value {v : Variant} (h : '\x7b' ∉ v.scheme.toList) (s : Slot) :
    '\x7b' ∉ (s.value v).toList := by
  have hlevel : '\x7b' ∉ v.levelText.toList :=
    fun hmem => absurd (Variant.isDigit_of_mem_levelText hmem) (by decide)
  have hbackend : '\x7b' ∉ v.backend.name.toList := by cases v.backend <;> decide
  cases s with
  | module =>
    simp [value, Variant.moduleName, Variant.linkName, Variant.feature, h, hlevel, hbackend]
  | scheme => exact h
  | level => exact hlevel
  | backend => exact hbackend

/-- **`fill v slots text`** -- the text after the slots have been replaced, one after another. -/
def fill (v : Variant) (slots : List Slot) (text : String) : String :=
  slots.foldl (fun text s => Text.replaceAll s.mark (s.value v) text) text

theorem fillTemplate_eq (template : String) (v : Variant) :
    fillTemplate template v = fill v all template := by
  have hmarks : Placeholder.all = all.map fun s => ⟨s.mark, fun v => s.value v⟩ := by
    have hnames : all.map mark = ["\x7bmodule\x7d", "\x7bscheme\x7d", "\x7blevel\x7d",
      "\x7bimpl\x7d"] := by decide
    simp only [all, List.map_cons, List.map_nil, List.cons.injEq] at hnames ⊢
    rw [hnames.1, hnames.2.1, hnames.2.2.1, hnames.2.2.2.1]
    rfl
  rw [fillTemplate, hmarks, List.foldl_map, fill]

end Slot

/-! ## Templates -/

/-- A part of a template: a text without an opening brace, or a placeholder. -/
inductive TemplatePart where
  | literal (text : String) (plain : '\x7b' ∉ text.toList)
  | slot (s : Slot)

namespace TemplatePart

/-- The part as it stands in the template. -/
def written : TemplatePart → String
  | .literal text _ => text
  | .slot s => s.mark

/-- The part as it stands in the name of the file. -/
def filled (v : Variant) : TemplatePart → String
  | .literal text _ => text
  | .slot s => s.value v

/-- The part where only some slots are filled. -/
def filledAt (v : Variant) (slots : List Slot) : TemplatePart → String
  | .literal text _ => text
  | .slot s => if s ∈ slots then s.value v else s.mark

theorem filledAt_nil (v : Variant) (p : TemplatePart) : p.filledAt v [] = p.written := by
  cases p <;> simp [filledAt, written]

theorem filledAt_of_forall_mem (v : Variant) {slots : List Slot} (h : ∀ s, s ∈ slots)
    (p : TemplatePart) :
    p.filledAt v slots = p.filled v := by
  cases p <;> simp [filledAt, filled, h]

variable {v : Variant}

/-- A replacement fills a part that holds its slot and copies any other. -/
theorem replaceFrom_filledAt (h : '\x7b' ∉ v.scheme.toList) (done : List Slot) (s : Slot)
    (p : TemplatePart) (rest : List Char) :
    Text.replaceFrom s.mark.toList (s.value v).toList 0 ((p.filledAt v done).toList ++ rest) =
      (p.filledAt v (done ++ [s])).toList ++ Text.replaceFrom s.mark.toList
          (s.value v).toList 0 rest := by
  have hcopied : ∀ {text : List Char}, '\x7b' ∉ text →
      Text.replaceFrom s.mark.toList (s.value v).toList 0 (text ++ rest) =
        text ++ Text.replaceFrom s.mark.toList (s.value v).toList 0 rest := by
    intro text htext
    rw [s.toList_mark]
    exact Text.replaceFrom_append_of_notMem htext rest
  cases p with
  | literal text plain => exact hcopied plain
  | slot t =>
    by_cases hdone : t ∈ done
    · -- what an earlier replacement has put here stays
      have hfilled : t ∈ done ++ [s] := List.mem_append_left [s] hdone
      simp only [filledAt, if_pos hdone, if_pos hfilled]
      exact hcopied (t.brace_notMem_value h)
    · by_cases hsame : t = s
      · subst hsame
        have hfilled : t ∈ done ++ [t] := by simp
        simp only [filledAt, if_neg hdone, if_pos hfilled]
        exact Text.replaceFrom_append (by simp [t.toList_mark, Text.braced]) rest
      · have hlater : t ∉ done ++ [s] := by simp [hdone, hsame]
        have hnames : s.name.toList ≠ t.name.toList :=
          fun hname => hsame (Slot.name_injective (String.toList_inj.mp hname)).symm
        simp only [filledAt, if_neg hdone, if_neg hlater, Slot.toList_mark]
        exact Text.replaceFrom_braced_append hnames s.brace_notMem_name.2 t.brace_notMem_name.2
          t.brace_notMem_name.1 rest

/-- One replacement fills the parts that hold its slot. -/
theorem replaceAll_join (h : '\x7b' ∉ v.scheme.toList) (done : List Slot) (s : Slot)
    (parts : List TemplatePart) :
    Text.replaceAll s.mark (s.value v) (String.join (parts.map (filledAt v done))) =
      String.join (parts.map (filledAt v (done ++ [s]))) := by
  rw [← String.toList_inj, Text.replaceAll, String.toList_ofList]
  induction parts with
  | nil => rfl
  | cons p parts ih =>
    rw [List.map_cons, List.map_cons, String.join_cons, String.join_cons, String.toList_append,
      String.toList_append, replaceFrom_filledAt h, ih]

/-- **Replacements one after another fill the parts that hold their slots.** -/
theorem fill_join (h : '\x7b' ∉ v.scheme.toList) (parts : List TemplatePart) (slots : List Slot) :
    Slot.fill v slots (String.join (parts.map written)) =
        String.join (parts.map (filledAt v slots)) := by
  -- the induction is on the replacements to come, over any that have been made
  have hrun : ∀ done, Slot.fill v slots (String.join (parts.map (filledAt v done))) =
      String.join (parts.map (filledAt v (done ++ slots))) := by
    induction slots with
    | nil => simp [Slot.fill]
    | cons s slots ih =>
      intro done
      have hstep := ih (done ++ [s])
      rw [List.append_assoc, List.singleton_append, ← replaceAll_join h] at hstep
      exact hstep
  have hstart : parts.map written = parts.map (filledAt v []) :=
    List.map_congr_left fun p _ => (p.filledAt_nil v).symm
  rw [hstart]
  exact hrun []

end TemplatePart

/-- **A template is filled as if at once.** Where a template is made of texts without opening braces
and of placeholders, in any number and order, and the scheme of a variant has no opening brace, the
file of the variant's unit is made of the same texts and of the values of the placeholders.  On the
way, after the replacement of any slots in any order, exactly the placeholders of these slots are
filled and the others stand as they stood, so nothing is rewritten; and every order of the four
replacements gives the same file. -/
theorem template_filled_at_once (m : Manifest) (v : Variant) (parts : List TemplatePart)
    (htemplate : m.output.template = String.join (parts.map TemplatePart.written))
    (hscheme : '\x7b' ∉ v.scheme.toList) :
    m.unitFile v = String.join (parts.map (TemplatePart.filled v)) ∧
      (∀ slots, Slot.fill v slots m.output.template =
        String.join (parts.map (TemplatePart.filledAt v slots))) ∧
      ∀ order, order.Perm Slot.all → Slot.fill v order m.output.template = m.unitFile v := by
  have hstages : ∀ slots, Slot.fill v slots m.output.template =
      String.join (parts.map (TemplatePart.filledAt v slots)) := by
    intro slots
    rw [htemplate]
    exact TemplatePart.fill_join hscheme parts slots
  have hfilled : ∀ slots : List Slot, (∀ s, s ∈ slots) →
      Slot.fill v slots m.output.template = String.join (parts.map (TemplatePart.filled v)) := by
    intro slots hall
    rw [hstages, List.map_congr_left fun p _ => p.filledAt_of_forall_mem v hall]
  have hunit : m.unitFile v = String.join (parts.map (TemplatePart.filled v)) := by
    rw [Manifest.unitFile, Slot.fillTemplate_eq]
    exact hfilled Slot.all Slot.mem_all
  refine ⟨hunit, hstages, ?_⟩
  intro order horder
  rw [hunit]
  exact hfilled order fun s => horder.mem_iff.mpr s.mem_all

/-- The parts of a template that names the level twice, with a closing brace behind it. -/
def nestedParts : List TemplatePart :=
  [.slot .scheme, .slot .level, .literal "/level" (by decide), .slot .level,
    .literal "\x7d_" (by decide), .slot .backend,
    .literal ".rs" (by decide)]

/-- A manifest with this template. -/
def nestedManifest : Manifest where
  catalog := ⟨"functions.json", "parameters.json"⟩
  output := { template := "\x7bscheme\x7d\x7blevel\x7d/level\x7blevel\x7d\x7d_\x7bimpl\x7d.rs" }

/-- The level is filled in twice, and the brace behind it stays, also if the placeholders are filled
from the last to the first. -/
theorem nestedManifest_unitFile :
    nestedManifest.unitFile sampleVariant = "dilithium2/level2\x7d_clean.rs" ∧
      Slot.fill sampleVariant [.backend, .level, .scheme, .module] nestedManifest.output.template =
          "dilithium2/level2\x7d_clean.rs" := by
  have hfilled :=
    template_filled_at_once nestedManifest sampleVariant nestedParts (by decide +kernel) (by decide)
  have hvalue : String.join (nestedParts.map (TemplatePart.filled sampleVariant)) =
    "dilithium2/level2\x7d_clean.rs" := by decide +kernel
  refine ⟨hfilled.1.trans hvalue, ?_⟩
  rw [hfilled.2.2 _ (by decide), hfilled.1, hvalue]

/-- With an opening brace in the scheme, a later replacement takes up what an earlier one has put
there. -/
example : fillTemplate "\x7bscheme\x7d.rs" { sampleVariant with scheme := "\x7blevel\x7d" } =
    "2.rs" := by decide +kernel

end Bindery
