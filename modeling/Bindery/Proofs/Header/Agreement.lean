/-
# Bindery.Proofs.Header.Agreement -- when a header agrees with the constants of a variant.

A constant agrees with a header if the last definition of its name is an integer of its value.  It
disagrees in one of three ways: no line defines the name, its last definition is no integer, or the
integer is another one.  A header is compared constant by constant, and the first one that disagrees
decides the fault.
-/
import Bindery.Header.Check
import Bindery.Proofs.Checks
import Bindery.Proofs.Header.Definitions

namespace Bindery

/-! ## One constant -/

namespace Constant

/-- **`c.AgreesWith header`** -- the last definition of the constant's name in the header is an
integer of its value. -/
def AgreesWith (c : Constant) (header : String) : Prop :=
  ∃ text, Header.Defines header c.name text ∧ Header.integer? text = some c.value

/-- **`c.Disagrees unit header fault`** -- what the fault says of a constant of the unit is so. -/
inductive Disagrees (c : Constant) (unit header : String) : HeaderFault → Prop
  | missing : (∀ l ∈ Text.lines header.toList, ∀ value, Header.definition? l ≠
      some (c.name, value)) →
      Disagrees c unit header (.missing unit c.name)
  | notInteger {text : String} : Header.Defines header c.name text → Header.integer? text = none →
      Disagrees c unit header (.notInteger unit c.name text)
  | differs {text : String} {reference : Nat} : Header.Defines header c.name text →
      Header.integer? text = some reference →
      reference ≠ c.value → Disagrees c unit header (.differs unit c.name c.value reference)

variable {c : Constant} {unit header : String} {definitions : NameMap}

/-- The comparison of a constant as a chain of checks. -/
theorem check_eq : c.check unit definitions = (do
    let text ← need (definitions.find? c.name) (.missing unit c.name)
    let reference ← need (Header.integer? text) (.notInteger unit c.name text)
    reject (reference ≠ c.value) (.differs unit c.name c.value reference)) := by
  unfold check need reject
  cases definitions.find? c.name with
  | none => rfl
  | some text =>
    simp only [bind, Except.bind]
    cases Header.integer? text with
    | none => rfl
    | some reference => simp only [ite_not]

theorem check_eq_ok_iff : c.check unit (Header.definitions header) = .ok () ↔
    c.AgreesWith header := by
  simp only [check_eq, bind_eq_ok_iff, need_eq_ok_iff, reject_eq_ok_iff, not_not,
    Header.find?_definitions_eq_some_iff, AgreesWith, exists_eq_right]

theorem check_eq_error_iff {fault : HeaderFault} :
    c.check unit (Header.definitions header) = .error fault ↔ c.Disagrees unit header fault := by
  simp only [check_eq, bind_eq_error_iff, need_eq_error_iff, need_eq_ok_iff, reject_eq_error_iff,
    Header.find?_definitions_eq_some_iff, Header.find?_definitions_eq_none_iff]
  constructor
  · rintro (⟨hnone, rfl⟩ | ⟨text, hdefines, ⟨hnone, rfl⟩ | ⟨reference, hread, hne, rfl⟩⟩)
    · exact .missing hnone
    · exact .notInteger hdefines hnone
    · exact .differs hdefines hread hne
  · rintro (hnone | ⟨hdefines, hnone⟩ | ⟨hdefines, hread, hne⟩)
    · exact Or.inl ⟨hnone, rfl⟩
    · exact Or.inr ⟨_, hdefines, Or.inl ⟨hnone, rfl⟩⟩
    · exact Or.inr ⟨_, hdefines, Or.inr ⟨_, hread, hne, rfl⟩⟩

end Constant

/-! ## Headers -/

namespace Variant

variable {v : Variant} {header : String}

/-- **`v.AgreesWith header`** -- every constant of the variant agrees with the header. -/
def AgreesWith (v : Variant) (header : String) : Prop :=
  ∀ c ∈ v.byteLengths.all, c.AgreesWith header

/-- **`v.Disagrees header fault`** -- the fault is that of the first constant that disagrees with
the header. -/
def Disagrees (v : Variant) (header : String) (fault : HeaderFault) : Prop :=
  ∃ before c after, v.byteLengths.all = before ++ c :: after ∧ (∀ b ∈ before, b.AgreesWith header) ∧
    c.Disagrees v.label header fault

theorem checkHeader_eq_ok_iff : v.checkHeader header = .ok () ↔ v.AgreesWith header := by
  simp only [checkHeader, forM_eq_ok_iff, Constant.check_eq_ok_iff, AgreesWith]

/-- **A header is refused with the fault of the first constant that disagrees with it.** -/
theorem checkHeader_eq_error_iff {fault : HeaderFault} : v.checkHeader header = .error fault ↔
    v.Disagrees header fault := by
  simp only [checkHeader, forM_eq_error_iff, Constant.check_eq_ok_iff,
    Constant.check_eq_error_iff, Disagrees]

end Variant

end Bindery
