/-
# Bindery.Proofs.Unit.TestOperands -- what the names in a self-test refer to, and what is passed.

The calls of a self-test share five variables, and a call binds a buffer for every other pointer
that it passes, under the name of the parameter.  Such names come from a catalog and may be
anything; they are compared as they are spelled.  `bound?` says what a name refers to at a point of
the test: the last statement before that binds it.  `Passes` says which operand is passed for a
parameter: that follows from its name and type, and whether it is a pointer, and of which access,
from the type alone.
-/
import Bindery.Proofs.Source.TestLines

namespace Bindery

/-! ## Names -/

/-- The names of the variables that all calls of a self-test share. -/
def SelfTest.sharedNames : List String := ["msg", "pk", "sk", "sig", "siglen"]

/-- The statements that bind these variables. -/
def SelfTest.opening (test : SelfTest) : List TestStatement :=
  [.text "msg" test.message, .array "pk" test.publicKeyBytes, .array "sk" test.secretKeyBytes,
    .array "sig" test.signatureBytes,
    .counter "siglen"]

/-- The name that a statement binds. -/
def TestStatement.binds? : TestStatement → Option String
  | .text name _ => some name
  | .array name _ => some name
  | .counter name => some name
  | .buffer name _ => some name
  | .fill _ => none
  | .call _ _ => some Source.rawValue
  | .expectZero _ _ => none

/-- **`bound? before name`** -- what a name refers to after some statements: the last of them that
binds it. -/
def bound? (before : List TestStatement) (name : String) : Option TestStatement :=
  before.findRev? fun s => s.binds? == some name

/-- Later statements hide earlier ones. -/
theorem bound?_append (before after : List TestStatement) (name : String) :
    bound? (before ++ after) name = (bound? after name).or (bound? before name) := by
  simp only [bound?, List.findRev?_eq_find?_reverse, List.reverse_append, List.find?_append]

/-- A name refers to nothing exactly if no statement binds it. -/
theorem bound?_eq_none_iff {before : List TestStatement} {name : String} :
    bound? before name = none ↔ ∀ s ∈ before, s.binds? ≠ some name := by
  simp only [bound?, List.findRev?_eq_find?_reverse, List.find?_eq_none, List.mem_reverse,
    beq_iff_eq, ne_eq]

/-- A name refers to one of the statements, and that binds it. -/
theorem mem_of_bound?_eq_some {before : List TestStatement} {name : String} {s : TestStatement}
    (h : bound? before name = some s) : s ∈ before ∧ s.binds? = some name := by
  rw [bound?, List.findRev?_eq_find?_reverse] at h
  have hbinds := List.find?_some h
  exact ⟨List.mem_reverse.mp (List.mem_of_find?_eq_some h), eq_of_beq hbinds⟩

/-- Statements that do not bind a name leave what it refers to. -/
theorem bound?_append_of_unbound {before after : List TestStatement} {name : String}
    (h : ∀ s ∈ after, s.binds? ≠ some name) :
    bound? (before ++ after) name = bound? before name := by
  rw [bound?_append, bound?_eq_none_iff.mpr h, Option.none_or]

/-- A name refers to the statement that has just bound it. -/
theorem bound?_concat {before : List TestStatement} {s : TestStatement} {name : String}
    (h : s.binds? = some name) :
    bound? (before ++ [s]) name = some s := by
  simp [bound?, List.findRev?_eq_find?_reverse, h]

/-! ## Operands -/

/-- The variable that an operand is formed from. -/
def Operand.uses? : Operand → Option String
  | .start storage _ => some storage
  | .address name _ => some name
  | .text storage _ => some storage
  | .content name => some name
  | .textLength storage => some storage
  | .default => none

/-- **`x.Suits t`** -- the operand is an expression for a parameter of the type: a pointer of the
same access for a pointer, and a value for a value. -/
inductive Operand.Suits : Operand → ForeignType → Prop
  | start {storage pointee : String} {access : Access} :
      Suits (.start storage access) (.pointer access pointee)
  | address {name pointee : String} {access : Access} :
      Suits (.address name access) (.pointer access pointee)
  | text {storage pointee : String} {access : Access} :
      Suits (.text storage access) (.pointer access pointee)
  | content {name type : String} : Suits (.content name) (.value type)
  | textLength {storage type : String} : Suits (.textLength storage) (.value type)
  | default {type : String} : Suits .default (.value type)

/-- **`t.IsGiven text`** -- the text ends with a cast to a pointer of the type's access, or for a
value type it is the default or ends with a cast to that type. -/
def ForeignType.IsGiven : ForeignType → String → Prop
  | .pointer .shared _, text => " as *const _".toList <:+ text.toList
  | .pointer .exclusive _, text => " as *mut _".toList <:+ text.toList
  | .value _, text => text = "Default::default()" ∨ " as _".toList <:+ text.toList

/-- What suits a type is written as an expression for it. -/
theorem Operand.Suits.isGiven {x : Operand} {t : ForeignType} {text : String} (h : x.Suits t)
    (hwritten : x.IsWritten text) : t.IsGiven text := by
  have hends : ∀ {front call : String} {cast : List Char}, cast <:+ call.toList →
      cast <:+ (front ++ call).toList := by
    intro front call cast hcall
    rw [String.toList_append]
    exact hcall.trans (List.suffix_append _ _)
  cases hwritten <;> cases h
  case start => exact hends (by decide)
  case startMut => exact hends (by decide)
  case address => exact hends (by decide)
  case addressMut => exact hends (by decide)
  case text => exact hends (by decide)
  case textMut => exact hends (by decide)
  case content => exact Or.inr (hends (by decide))
  case textLength => exact Or.inr (hends (by decide))
  case default => exact Or.inl rfl

/-- **`s.Provides x`** -- the operand is formed as variables of the kind that the statement binds
allow it. -/
inductive TestStatement.Provides : TestStatement → Operand → Prop
  | text {name message : String} {access : Access} :
      Provides (.text name message) (.text name access)
  | textLength {name message : String} : Provides (.text name message) (.textLength name)
  | array {name length : String} {access : Access} :
      Provides (.array name length) (.start name access)
  | address {name : String} {access : Access} : Provides (.counter name) (.address name access)
  | content {name : String} : Provides (.counter name) (.content name)
  | buffer {name type : String} {access : Access} :
      Provides (.buffer name type) (.start name access)

/-- **`Passes p x`** -- the operand is what a test passes for a parameter of the name and the type.
The shared variables are known by name, the message by a second name as well; for any other pointer
the start of a variable of its own name is passed, and for any other value the default. -/
inductive Passes : String × ForeignType → Operand → Prop
  | array {name pointee : String} {access : Access} : name ∈ ["pk", "sk", "sig"] →
      Passes (name, .pointer access pointee) (.start name access)
  | signatureLength {pointee : String} {access : Access} :
      Passes ("siglen", .pointer access pointee) (.address "siglen" access)
  | message {name pointee : String} {access : Access} : name ∈ ["m", "msg"] →
      Passes (name, .pointer access pointee) (.text "msg" access)
  | buffer {name pointee : String} {access : Access} : name ∉ "m" :: SelfTest.sharedNames →
      Passes (name, .pointer access pointee) (.start name access)
  | signatureLengthValue {type : String} : Passes ("siglen", .value type) (.content "siglen")
  | messageLength {name type : String} : name ∈ ["mlen", "msglen"] →
      Passes (name, .value type) (.textLength "msg")
  | default {name type : String} : name ∉ ["siglen", "mlen", "msglen"] →
      Passes (name, .value type) .default

/-! ## Fixtures -/

/-- A pointer has a buffer of its own unless it is named like a shared variable; the message has a
second name. -/
theorem PointerFixture.named_eq_filler_iff {name : String} :
    PointerFixture.named name = .filler ↔ name ∉ SelfTest.sharedNames ∧ name ≠ "m" := by
  unfold PointerFixture.named
  split <;> simp_all [SelfTest.sharedNames]

namespace Fixture

variable {name : String} {t : ForeignType}

/-- The kind of an operand follows from the type of its parameter, whatever the name is. -/
theorem operand_suits : ((Fixture.of name t).operand name).Suits t := by
  cases t with
  | pointer access pointee =>
    rw [Fixture.of]
    cases PointerFixture.named name <;> constructor
  | value text =>
    rw [Fixture.of]
    cases ValueFixture.named name <;> constructor

/-- What is passed follows from the name and the type. -/
theorem passes_operand : Passes (name, t) ((Fixture.of name t).operand name) := by
  cases t with
  | pointer access pointee =>
    rw [Fixture.of]
    unfold PointerFixture.named
    split
    · exact .array (by decide)
    · exact .array (by decide)
    · exact .array (by decide)
    · exact .signatureLength
    · exact .message (by decide)
    · exact .message (by decide)
    · exact .buffer (by simp_all [SelfTest.sharedNames])
  | value text =>
    rw [Fixture.of]
    unfold ValueFixture.named
    split
    · exact .signatureLengthValue
    · exact .messageLength (by decide)
    · exact .messageLength (by decide)
    · exact .default (by simp_all)

/-- A pointer is formed from the variable of its parameter's name. -/
theorem operand_uses? {access : Access} {pointee : String} :
    ((Fixture.of name (.pointer access pointee)).operand name).uses? =
      some (if name = "m" then "msg" else name) := by
  rw [Fixture.of]
  unfold PointerFixture.named
  split <;> simp_all [operand, Operand.uses?]

/-- A value is formed from shared variables alone. -/
theorem operand_uses?_shared {text x : String}
    (hx : x ∈ ((Fixture.of name (.value text)).operand name).uses?) :
    x ∈ SelfTest.sharedNames := by
  rw [Fixture.of] at hx
  cases hfixture : ValueFixture.named name <;> rw [hfixture] at hx <;>
    simp_all [operand, Operand.uses?, SelfTest.sharedNames]

/-- A pointer that has a buffer of its own declares and fills it, and no other pointer sets up
anything. -/
theorem setUp_pointer {access : Access} {pointee : String} {fixture : PointerFixture} :
    (Fixture.pointer access pointee fixture).setUp name =
      if fixture = .filler then [.buffer name pointee, .fill name] else [] := by
  cases fixture <;> rfl

/-- What sets up a parameter binds and fills a buffer of its name, which no shared variable has. -/
theorem mem_setUp {s : TestStatement} (hs : s ∈ (Fixture.of name t).setUp name) :
    name ∉ SelfTest.sharedNames ∧ ∃ type, s = .buffer name type ∨ s = .fill name := by
  cases t with
  | value text => cases hs
  | pointer access pointee =>
    rw [Fixture.of, setUp_pointer] at hs
    split at hs
    · rename_i hfixture
      exact ⟨(PointerFixture.named_eq_filler_iff.mp hfixture).1, pointee, by simpa using hs⟩
    · cases hs

/-- A parameter that uses a variable of its own sets it up as a buffer of the type that it points
to. -/
theorem setUp_of_unshared {x : String} (hx : x ∈ ((Fixture.of name t).operand name).uses?)
    (hunshared : x ∉ SelfTest.sharedNames) :
    x = name ∧ ∃ access pointee, t = .pointer access pointee ∧ (Fixture.of name t).setUp name =
      [.buffer name pointee, .fill name] ∧
      (Fixture.of name t).operand name = .start name access := by
  cases t with
  | value text => exact absurd (operand_uses?_shared hx) hunshared
  | pointer access pointee =>
    rw [operand_uses?, Option.mem_some_iff] at hx
    split at hx
    · exact absurd (hx ▸ by decide) hunshared
    · rename_i hm
      subst hx
      have hfixture : PointerFixture.named name = .filler :=
        PointerFixture.named_eq_filler_iff.mpr ⟨hunshared, hm⟩
      refine ⟨rfl, access, pointee, rfl, ?_, ?_⟩
      · rw [Fixture.of, setUp_pointer, if_pos hfixture]
      · rw [Fixture.of, hfixture, operand]

/-- An operand that uses a shared variable is formed as the variable allows it. -/
theorem exists_provides {test : SelfTest} {x : String}
    (hx : x ∈ ((Fixture.of name t).operand name).uses?)
    (hshared : x ∈ SelfTest.sharedNames) :
    ∃ s, bound? test.opening x = some s ∧ s.Provides ((Fixture.of name t).operand name) := by
  cases t with
  | value text =>
    rw [Fixture.of] at hx ⊢
    cases hfixture : ValueFixture.named name <;> rw [hfixture] at hx
    case signatureLength => cases hx; exact ⟨_, rfl, .content⟩
    case messageLength => cases hx; exact ⟨_, rfl, .textLength⟩
    case default => cases hx
  | pointer access pointee =>
    rw [Fixture.of] at hx ⊢
    cases hfixture : PointerFixture.named name <;> rw [hfixture] at hx
    case publicKey => cases hx; exact ⟨_, rfl, .array⟩
    case secretKey => cases hx; exact ⟨_, rfl, .array⟩
    case signature => cases hx; exact ⟨_, rfl, .array⟩
    case signatureLength => cases hx; exact ⟨_, rfl, .address⟩
    case message => cases hx; exact ⟨_, rfl, .text⟩
    case filler =>
      cases hx
      exact absurd hshared (PointerFixture.named_eq_filler_iff.mp hfixture).1

end Fixture

end Bindery
