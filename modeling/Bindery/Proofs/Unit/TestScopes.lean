/-
# Bindery.Proofs.Unit.TestScopes -- a self-test is well scoped.

A parameter that is named like a shared variable gets no buffer, so the shared variables are bound
once, ahead of all calls; and between the buffers of a call and the call itself stand other buffers
alone.  So every operand of a call refers to what it is meant for, and what is checked after a call
is its raw value.

One kind of name is not kept apart.  A pointer that is named like the symbol of a called function
gets a buffer of that name, and from there on the symbol refers to the buffer.
-/
import Bindery.Proofs.Unit.Modules
import Bindery.Proofs.Unit.SelfTests
import Bindery.Proofs.Unit.TestOperands

namespace Bindery

/-! ## Lists of blocks -/

/-- A member of two lists put together stands in one of them. -/
theorem split_of_append_eq_append_cons {α : Type} {l rest before after : List α} {x : α}
    (h : l ++ rest = before ++ x :: after) :
    (∃ between, before = l ++ between ∧ rest = between ++ x :: after) ∨
      ∃ between, l = before ++ x :: between ∧ after = between ++ rest := by
  rcases List.append_eq_append_iff.mp h with hrest | ⟨between, hl, hrest⟩
  · exact Or.inl hrest
  · cases between with
    | nil =>
      -- the first list ends where the member follows, which so is the first of the second
      refine Or.inl ⟨[], ?_, hrest.symm⟩
      rw [hl, List.append_nil, List.append_nil]
    | cons y between =>
      obtain ⟨rfl, hafter⟩ := List.cons.inj hrest
      exact Or.inr ⟨between, hl, hafter⟩

/-- A member of a list of blocks stands in one of the blocks. -/
theorem exists_of_flatMap_eq_append_cons {α β : Type} {f : α → List β} {x : β} {after : List β} :
    ∀ {l : List α} {before : List β}, l.flatMap f = before ++ x :: after →
      ∃ earlier a later left right, l = earlier ++ a :: later ∧ f a = left ++ x :: right ∧
        before = earlier.flatMap f ++ left ∧ after = right ++ later.flatMap f := by
  intro l
  induction l with
  | nil =>
    intro before h
    simp at h
  | cons a l ih =>
    intro before h
    rw [List.flatMap_cons] at h
    rcases split_of_append_eq_append_cons h with ⟨between, rfl, hrest⟩ | ⟨between, hblock, rfl⟩
    · obtain ⟨earlier, b, later, left, right, rfl, hb, rfl, rfl⟩ := ih hrest
      exact ⟨a :: earlier, b, later, left, right, rfl, hb, by simp, rfl⟩
    · exact ⟨[], a, l, before, between, rfl, hblock, rfl, rfl⟩

/-! ## Calls -/

/-- The call that a self-test makes of a declared function. -/
def Declaration.testCall (d : Declaration) (function : String) : TestCall :=
  ⟨function, d.symbol, d.params.map fun p => (p.1, .of p.1 p.2)⟩

/-- The statements that set up a call of a declared function. -/
def Declaration.setUp (d : Declaration) : List TestStatement :=
  d.params.flatMap fun p => (Fixture.of p.1 p.2).setUp p.1

/-- The operands of a call of a declared function. -/
def Declaration.operands (d : Declaration) : List Operand :=
  d.params.map fun p => (Fixture.of p.1 p.2).operand p.1

namespace Declaration

variable {d : Declaration} {function failure : String} {s : TestStatement}

theorem testCall_statements : (d.testCall function).statements failure =
    d.setUp ++ [.call d.symbol d.operands, .expectZero function failure] := by
  simp only [TestCall.statements, testCall, setUp, operands, List.flatMap_map, List.map_map,
    Function.comp_def]

theorem mem_setUp (hs : s ∈ d.setUp) :
    ∃ p ∈ d.params, p.1 ∉ SelfTest.sharedNames ∧ ∃ type, s = .buffer p.1 type ∨ s = .fill p.1 := by
  obtain ⟨p, hp, hs⟩ := List.mem_flatMap.mp hs
  exact ⟨p, hp, Fixture.mem_setUp hs⟩

/-- What sets up a call and binds a name is the buffer of a pointer of that name. -/
theorem exists_param_of_mem_setUp {name : String} (hs : s ∈ d.setUp)
    (hbinds : s.binds? = some name) :
    ∃ access pointee, (name, .pointer access pointee) ∈ d.params ∧ s = .buffer name pointee := by
  obtain ⟨⟨own, t⟩, hp, hs⟩ := List.mem_flatMap.mp hs
  cases t with
  | value text => cases hs
  | pointer access pointee =>
    rw [Fixture.of, Fixture.setUp_pointer] at hs
    split at hs
    · rw [List.mem_cons, List.mem_singleton] at hs
      rcases hs with rfl | rfl
      · cases hbinds
        exact ⟨access, pointee, hp, rfl⟩
      · cases hbinds
    · cases hs

/-- A pointer that is not known by its name has a buffer. -/
theorem buffer_mem_setUp {name pointee : String} {access : Access}
    (hp : (name, .pointer access pointee) ∈ d.params) (hname : name ∉ "m" :: SelfTest.sharedNames) :
    .buffer name pointee ∈ d.setUp := by
  rw [List.mem_cons, not_or] at hname
  refine List.mem_flatMap.mpr ⟨_, hp, ?_⟩
  rw [Fixture.of, Fixture.setUp_pointer,
    if_pos (PointerFixture.named_eq_filler_iff.mpr ⟨hname.2, hname.1⟩)]
  exact List.mem_cons_self

/-- What neither declares nor fills a buffer sets up no call. -/
theorem notMem_setUp (hbuffer : ∀ name type, s ≠ .buffer name type)
    (hfill : ∀ name, s ≠ .fill name) : s ∉ d.setUp := by
  intro hs
  obtain ⟨p, -, -, type, hs | hs⟩ := mem_setUp hs
  · exact hbuffer p.1 type hs
  · exact hfill p.1 hs

/-- The buffers of a call are no shared variables. -/
theorem binds?_setUp {name : String} (hname : name ∈ SelfTest.sharedNames) (hs : s ∈ d.setUp) :
    s.binds? ≠ some name := by
  obtain ⟨p, -, hunshared, type, rfl | rfl⟩ := mem_setUp hs
  · intro hbinds
    exact hunshared (Option.some.inj hbinds ▸ hname)
  · exact nofun

/-- A call binds no shared variable. -/
theorem binds?_testCall {name : String} (hname : name ∈ SelfTest.sharedNames)
    (hs : s ∈ (d.testCall function).statements failure) :
    s.binds? ≠ some name := by
  rw [testCall_statements, List.mem_append, List.mem_cons, List.mem_singleton] at hs
  rcases hs with hs | rfl | rfl
  · exact binds?_setUp hname hs
  · rintro ⟨⟩
    exact absurd hname (by decide)
  · exact nofun

end Declaration

/-! ## Passing -/

/-- **`Prepared before name type`** -- a buffer of the name and the type has been declared and
filled, and nothing has been done since but to declare and fill buffers of other names. -/
def Prepared (before : List TestStatement) (name type : String) : Prop :=
  ∃ earlier between, before = earlier ++ .buffer name type :: .fill name :: between ∧
    ∀ s ∈ between, ∃ other otherType, other ≠ name ∧ (s = .buffer other otherType ∨ s = .fill other)

/-- A name refers to the buffer that has been prepared under it. -/
theorem Prepared.bound? {before : List TestStatement} {name type : String}
    (h : Prepared before name type) :
    bound? before name = some (.buffer name type) := by
  obtain ⟨earlier, between, rfl, hbetween⟩ := h
  have hunbound : ∀ s ∈ .fill name :: between, s.binds? ≠ some name := by
    intro s hs
    rcases List.mem_cons.mp hs with rfl | hs
    · exact nofun
    · obtain ⟨other, otherType, hother, rfl | rfl⟩ := hbetween s hs
      · exact fun hbinds => hother (Option.some.inj hbinds)
      · exact nofun
  rw [List.append_cons, bound?_append_of_unbound hunbound, bound?_concat rfl]

/-- **`Passed before p x`** -- after the statements `before`, the operand `x` is what a call passes
for the parameter `p`. -/
structure Passed (before : List TestStatement) (p : String × ForeignType) (x : Operand) : Prop where
  passes : Passes p x
  /-- It is a pointer of the parameter's access, or a value. -/
  suits : x.Suits p.2
  /-- However it is written, that is an expression for such a parameter. -/
  given : ∀ text, x.IsWritten text → p.2.IsGiven text
  /-- The variable that it is formed from is bound, as one of its kind. -/
  bound : ∀ name ∈ x.uses?, ∃ s, bound? before name = some s ∧ s.Provides x
  /-- If it is not a shared variable then it is a buffer of the type that is pointed to, prepared
  for this call. -/
  prepared : ∀ name ∈ x.uses?, name ∉ SelfTest.sharedNames →
    ∃ access pointee, p = (name, .pointer access pointee) ∧ x = .start name access ∧
      Prepared before name pointee

namespace Declaration

variable {d : Declaration}

/-- The buffers that a call sets up stand ready for it. -/
theorem prepared_setUp (hnodup : (d.params.map (·.1)).Nodup) {p : String × ForeignType}
    (hp : p ∈ d.params) {type : String}
    (hown : (Fixture.of p.1 p.2).setUp p.1 = [.buffer p.1 type, .fill p.1])
    (before : List TestStatement) :
    Prepared (before ++ d.setUp) p.1 type := by
  obtain ⟨earlier, later, hparams⟩ := List.append_of_mem hp
  refine ⟨before ++ earlier.flatMap fun q => (Fixture.of q.1 q.2).setUp q.1,
    later.flatMap fun q => (Fixture.of q.1 q.2).setUp q.1, ?_, ?_⟩
  · rw [setUp, hparams, List.flatMap_append, List.flatMap_cons, hown, List.append_assoc]
    rfl
  · intro s hs
    obtain ⟨q, hq, hs⟩ := List.mem_flatMap.mp hs
    obtain ⟨-, otherType, hs⟩ := Fixture.mem_setUp hs
    refine ⟨q.1, otherType, ?_, hs⟩
    rw [hparams, List.map_append, List.map_cons, List.nodup_middle, List.nodup_cons] at hnodup
    intro hsame
    exact hnodup.1 (List.mem_append_right _ (hsame ▸ List.mem_map_of_mem hq))

/-- What is passed in a call of a declared function, if the shared names still refer to the shared
variables. -/
theorem passed_operands (hnodup : (d.params.map (·.1)).Nodup) {test : SelfTest}
    {before : List TestStatement}
    (hshared : ∀ name ∈ SelfTest.sharedNames, bound? before name = bound? test.opening name) :
    List.Forall₂ (Passed (before ++ d.setUp)) d.params d.operands := by
  rw [operands, List.forall₂_map_right_iff, List.forall₂_same]
  intro p hp
  have hprepared : ∀ name ∈ ((Fixture.of p.1 p.2).operand p.1).uses?, name ∉ SelfTest.sharedNames →
      ∃ access pointee, p = (name, .pointer access pointee) ∧ (Fixture.of p.1 p.2).operand p.1 =
        .start name access ∧
        Prepared (before ++ d.setUp) name pointee := by
    intro name hname hunshared
    obtain ⟨rfl, access, pointee, htype, hown, hoperand⟩ :=
      Fixture.setUp_of_unshared hname hunshared
    exact ⟨access, pointee, Prod.ext rfl htype, hoperand, prepared_setUp hnodup hp hown before⟩
  refine ⟨Fixture.passes_operand, Fixture.operand_suits,
    fun _ hwritten => Fixture.operand_suits.isGiven hwritten, ?_, hprepared⟩
  intro name hname
  by_cases hmem : name ∈ SelfTest.sharedNames
  · rw [bound?_append_of_unbound fun s hs => binds?_setUp hmem hs, hshared name hmem]
    exact Fixture.exists_provides hname hmem
  · obtain ⟨access, pointee, -, hoperand, hprepared⟩ := hprepared name hname hmem
    exact ⟨_, hprepared.bound?, hoperand ▸ .buffer⟩

end Declaration

/-! ## Self-tests -/

namespace SelfTest

/-- The calls of a self-test, each with what is reported if it fails. -/
def checkedCalls (test : SelfTest) : List (TestCall × String) :=
  [(test.keypair, "key generation failed"), (test.sign, "signing failed"),
    (test.verify, "signature rejected")]

/-- The shared variables are bound first, and the calls follow. -/
theorem statements_eq (test : SelfTest) :
    test.statements = test.opening ++ test.checkedCalls.flatMap fun call =>
        call.1.statements call.2 :=
  rfl

theorem fst_mem_calls {test : SelfTest} {call : TestCall × String} (h : call ∈ test.checkedCalls) :
    call.1 ∈ test.calls :=
  List.mem_map_of_mem (f := Prod.fst) h

/-- The statements of a test that stand ahead of a call: the shared variables and earlier calls. -/
def ahead (test : SelfTest) (calls : List (TestCall × String)) : List TestStatement :=
  test.opening ++ calls.flatMap fun call => call.1.statements call.2

/-- The first statements of a test bind the shared names. -/
theorem exists_binds?_of_mem_opening {test : SelfTest} {s : TestStatement} (hs : s ∈ test.opening) :
    ∃ name ∈ sharedNames, s.binds? = some name := by
  simp only [opening, List.mem_cons, List.not_mem_nil, or_false] at hs
  rcases hs with rfl | rfl | rfl | rfl | rfl <;> exact ⟨_, by decide, rfl⟩

/-- **`test.Calls stem ds`** -- the calls of the test are calls of declared functions, whose
parameters have distinct names. -/
def Calls (stem : String) (declarations : List Declaration) (test : SelfTest) : Prop :=
  ∀ call ∈ test.calls, ∃ d ∈ declarations, ∃ function ∈ functions, (d.params.map (·.1)).Nodup ∧
    d.symbol = stem ++ function ∧ d.testCall function = call

namespace Calls

variable {stem : String} {declarations : List Declaration} {test : SelfTest}
  {before after : List TestStatement}

/-- The calls bind no shared variable. -/
theorem unbound (h : test.Calls stem declarations) {calls : List (TestCall × String)}
    (hcalls : ∀ call ∈ calls, call.1 ∈ test.calls) {name : String} (hname : name ∈ sharedNames) :
    ∀ s ∈ calls.flatMap fun call => call.1.statements call.2, s.binds? ≠ some name := by
  intro s hs
  obtain ⟨⟨call, failure⟩, hcall, hs⟩ := List.mem_flatMap.mp hs
  obtain ⟨d, -, function, -, -, -, rfl⟩ := h call (hcalls _ hcall)
  exact Declaration.binds?_testCall hname hs

/-- Ahead of a call, the shared names refer to the shared variables. -/
theorem bound?_ahead (h : test.Calls stem declarations) {calls : List (TestCall × String)}
    (hcalls : ∀ call ∈ calls, call.1 ∈ test.calls) {name : String} (hname : name ∈ sharedNames) :
    bound? (test.ahead calls) name = bound? test.opening name :=
  bound?_append_of_unbound (h.unbound hcalls hname)

/-- A statement that binds no shared variable stands in one of the calls. -/
theorem exists_call (h : test.Calls stem declarations) {s : TestStatement} (hs : s ∉ test.opening)
    (hsplit : test.statements = before ++ s :: after) :
    ∃ calls, (∀ call ∈ calls, call.1 ∈ test.calls) ∧
      ∃ d ∈ declarations, ∃ function ∈ functions, (d.params.map (·.1)).Nodup ∧
        d.symbol = stem ++ function ∧ ∃ failure left right later,
          (d.testCall function).statements failure = left ++ s :: right ∧
          before = test.ahead calls ++ left ∧ after = right ++ later := by
  rw [statements_eq] at hsplit
  rcases split_of_append_eq_append_cons hsplit with ⟨between, rfl, hcalls⟩ | ⟨between, hopening, -⟩
  · obtain ⟨earlier, ⟨call, failure⟩, later, left, right, hchecked, hcall, rfl, rfl⟩ :=
      exists_of_flatMap_eq_append_cons hcalls
    have hmem : ∀ other ∈ earlier ++ (call, failure) :: later, other.1 ∈ test.calls := by
      intro other hother
      exact fst_mem_calls (hchecked ▸ hother)
    obtain ⟨d, hd, function, hfunction, hnodup, hsymbol, rfl⟩ :=
      h call (hmem (call, failure) (by simp))
    exact ⟨earlier, fun other hother => hmem other (List.mem_append_left _ hother), d, hd, function,
      hfunction, hnodup, hsymbol, failure, left, right, _, hcall, (List.append_assoc ..).symm, rfl⟩
  · exact absurd (hopening ▸ by simp) hs

/-- A foreign function is called after its buffers, and its raw value is checked right after. -/
theorem split_call (h : test.Calls stem declarations) {symbol : String} {operands : List Operand}
    (hsplit : test.statements = before ++ .call symbol operands :: after) :
    ∃ calls, (∀ call ∈ calls, call.1 ∈ test.calls) ∧
      ∃ d ∈ declarations, d.symbol = symbol ∧ before = test.ahead calls ++ d.setUp ∧
        List.Forall₂ (Passed before) d.params operands ∧ ∃ function ∈ functions,
          d.symbol = stem ++ function ∧
          ∃ failure later, after = .expectZero function failure :: later := by
  obtain ⟨calls, hcalls, d, hd, function, hfunction, hnodup, hsymbol, failure, left, right, later,
    hstatements, rfl, rfl⟩ := h.exists_call (by simp [opening]) hsplit
  rw [Declaration.testCall_statements] at hstatements
  have hleft : TestStatement.call symbol operands ∉ d.setUp := Declaration.notMem_setUp nofun nofun
  obtain ⟨rfl, hcall, rfl⟩ := (List.append_cons_inj_of_notMem hleft (by simp)).mp hstatements
  cases hcall
  exact ⟨calls, hcalls, d, hd, rfl, rfl,
    Declaration.passed_operands hnodup fun _ hname => h.bound?_ahead hcalls hname,
    function, hfunction, hsymbol, failure, later, rfl⟩

/-- What is checked is the raw value of the call right before. -/
theorem split_check (h : test.Calls stem declarations) {function failure : String}
    (hsplit : test.statements = before ++ .expectZero function failure :: after) :
    ∃ operands earlier, before = earlier ++ [.call (stem ++ function) operands] := by
  obtain ⟨calls, -, d, hd, called, -, -, hsymbol, _, left, right, later, hstatements, rfl, rfl⟩ :=
    h.exists_call (by simp [opening]) hsplit
  rw [Declaration.testCall_statements, List.append_cons] at hstatements
  have hleft : TestStatement.expectZero function failure ∉
      d.setUp ++ [.call d.symbol d.operands] := by
    rw [List.mem_append, not_or]
    exact ⟨Declaration.notMem_setUp nofun nofun, by simp⟩
  obtain ⟨rfl, hcheck, -⟩ := (List.append_cons_inj_of_notMem hleft List.not_mem_nil).mp hstatements
  cases hcheck
  exact ⟨d.operands, test.ahead calls ++ d.setUp, by rw [hsymbol, List.append_assoc]⟩

/-! ### Called functions -/

section Callees

variable {calls : List (TestCall × String)} {d e : Declaration} {name : String}

/-- Ahead of a call, a name that is not that of a shared variable or the raw value is bound by
buffers alone, for pointers of this call or of earlier ones. -/
theorem exists_param_of_binds? (h : test.Calls stem declarations)
    (hcalls : ∀ call ∈ calls, call.1 ∈ test.calls) (hd : d ∈ declarations) {s : TestStatement}
    (hs : s ∈ test.ahead calls ++ d.setUp) (hbinds : s.binds? = some name)
    (hname : name ∉ Source.rawValue :: sharedNames) :
    ∃ e ∈ declarations,
      (e = d ∨ ∃ operands, .call e.symbol operands ∈ test.ahead calls ++ d.setUp) ∧
      ∃ access pointee, (name, .pointer access pointee) ∈ e.params ∧ s = .buffer name pointee := by
  rw [List.mem_cons, not_or] at hname
  rw [ahead, List.mem_append, List.mem_append] at hs
  rcases hs with (hs | hs) | hs
  · obtain ⟨shared, hshared, hs⟩ := exists_binds?_of_mem_opening hs
    cases hbinds.symm.trans hs
    exact absurd hshared hname.2
  · obtain ⟨⟨call, failure⟩, hcall, hs⟩ := List.mem_flatMap.mp hs
    obtain ⟨e, he, function, -, -, -, rfl⟩ := h call (hcalls _ hcall)
    have hmem : ∀ s ∈ (e.testCall function).statements failure, s ∈ test.ahead calls ++ d.setUp :=
      fun s hs => List.mem_append_left _
        (List.mem_append_right _ (List.mem_flatMap.mpr ⟨_, hcall, hs⟩))
    rw [Declaration.testCall_statements] at hs hmem
    rw [List.mem_append, List.mem_cons, List.mem_singleton] at hs
    rcases hs with hs | rfl | rfl
    · exact ⟨e, he, Or.inr ⟨e.operands, hmem _ (by simp)⟩,
        Declaration.exists_param_of_mem_setUp hs hbinds⟩
    · exact absurd (Option.some.inj hbinds).symm hname.1
    · cases hbinds
  · exact ⟨d, hd, Or.inl rfl, Declaration.exists_param_of_mem_setUp hs hbinds⟩

/-- The buffers of this call and of earlier ones stand ahead of it. -/
theorem buffer_mem (h : test.Calls stem declarations)
    (hunique : (declarations.map (·.symbol)).Nodup) (hcalls : ∀ call ∈ calls, call.1 ∈ test.calls)
    (he : e ∈ declarations)
    (hcalled : e = d ∨ ∃ operands, .call e.symbol operands ∈ test.ahead calls ++ d.setUp)
    {pointee : String} {access : Access} (hparam : (name, .pointer access pointee) ∈ e.params)
    (hname : name ∉ "m" :: sharedNames) :
    .buffer name pointee ∈ test.ahead calls ++ d.setUp := by
  have hown := Declaration.buffer_mem_setUp hparam hname
  rcases hcalled with rfl | ⟨operands, hcall⟩
  · exact List.mem_append_right _ hown
  · refine List.mem_append_left _ ?_
    rw [ahead, List.mem_append, List.mem_append] at hcall
    rcases hcall with (hcall | hcall) | hcall
    · simp [opening] at hcall
    · obtain ⟨⟨call, failure⟩, hmem, hcall⟩ := List.mem_flatMap.mp hcall
      obtain ⟨other, hother, function, -, -, -, rfl⟩ := h call (hcalls _ hmem)
      have hsymbol : e.symbol = other.symbol := by
        rw [Declaration.testCall_statements, List.mem_append] at hcall
        rcases hcall with hcall | hcall
        · exact absurd hcall (Declaration.notMem_setUp nofun nofun)
        · simp only [List.mem_cons, TestStatement.call.injEq, reduceCtorEq, List.not_mem_nil,
            or_false] at hcall
          exact hcall.1
      -- symbols are distinct, so the call is one of this declaration
      obtain rfl := List.inj_on_of_nodup_map hunique he hother hsymbol
      refine List.mem_append_right _ (List.mem_flatMap.mpr ⟨_, hmem, ?_⟩)
      rw [Declaration.testCall_statements]
      exact List.mem_append_left _ hown
    · exact absurd hcall (Declaration.notMem_setUp nofun nofun)

end Callees

/-- The statements that bind a shared name stand ahead of all calls. -/
theorem filter_shared (h : test.Calls stem declarations) {name : String}
    (hname : name ∈ sharedNames) :
    test.statements.filter (·.binds? == some name) = test.opening.filter
        (·.binds? == some name) := by
  rw [statements_eq, List.filter_append, List.append_right_eq_self, List.filter_eq_nil_iff]
  intro s hs
  rw [beq_iff_eq]
  exact h.unbound (fun _ => fst_mem_calls) hname s hs

/-- Arrays are shared variables. -/
theorem split_array (h : test.Calls stem declarations) {name length : String}
    (hsplit : test.statements = before ++ .array name length :: after) :
    ∃ later, test.opening = before ++ .array name length :: later := by
  have hcalls : .array name length ∉ test.checkedCalls.flatMap fun call =>
      call.1.statements call.2 := by
    intro hmem
    obtain ⟨⟨call, failure⟩, hcall, hmem⟩ := List.mem_flatMap.mp hmem
    obtain ⟨d, -, function, -, -, -, rfl⟩ := h call (fst_mem_calls hcall)
    rw [Declaration.testCall_statements, List.mem_append] at hmem
    rcases hmem with hmem | hmem
    · exact absurd hmem (Declaration.notMem_setUp nofun nofun)
    · simp at hmem
  rw [statements_eq] at hsplit
  rcases split_of_append_eq_append_cons hsplit with ⟨between, -, hrest⟩ | ⟨between, hopening, -⟩
  · exact absurd (hrest ▸ by simp) hcalls
  · exact ⟨between, hopening⟩

end Calls

end SelfTest

/-- No length is named like a shared variable. -/
theorem Variant.byteLengths_unshared (v : Variant) :
    ∀ k ∈ v.byteLengths.all, k.name ∉ SelfTest.sharedNames := by
  intro k hk hshared
  have hshort : ∀ name ∈ SelfTest.sharedNames, name.length ≤ 6 := by decide
  have hlong : 12 ≤ k.name.length := by
    simp only [ByteLengths.all, byteLengths, List.mem_cons, List.not_mem_nil, or_false] at hk
    rcases hk with rfl | rfl | rfl <;>
      (rw [String.length_append]; exact Nat.le_add_left_of_le (by decide))
  have := hshort _ hshared
  omega

section Units

variable {text : String} {c : FunctionCatalog} {o : Options} {v : Variant} {u : SourceUnit}

/-- A declaration has a parameter for every argument of its function, under the same name. -/
theorem Declaration.Declares.names {d : Declaration} {stem : String} {f : ForeignFunction}
    (h : d.Declares stem f)
    (hne : f.wrappings ≠ []) : d.params.map (·.1) = f.arguments.map (·.name) := by
  obtain ⟨w, hw⟩ := List.exists_mem_of_ne_nil _ hne
  obtain ⟨t, htable, rfl⟩ := h w hw
  rw [ArgumentTable.declaration, List.map_map]
  exact (table_fits htable).rows.names

/-- The calls of the self-test of a unit are calls of functions that the unit declares. -/
theorem SelfTest.calls_of_mem (hparse : FunctionCatalog.parse text = .ok c)
    (hunit : c.assemble o v = .ok u) {test : SelfTest}
    (htest : test ∈ u.selfTest) : test.Calls v.symbolStem u.declarations := by
  intro call hcall
  obtain ⟨-, hplan⟩ := (mem_selfTest_iff hunit).mp htest
  obtain ⟨name, hname, h⟩ := exists_left_of_forall₂ (calls_of_plan? hplan) hcall
  obtain ⟨d, hfind, -, rfl⟩ := call?_eq_some_iff.mp h
  obtain ⟨hd, hsymbol⟩ := mem_of_find?_key_eq_some hfind
  obtain ⟨f, hf, -, hdeclares⟩ :=
    (FunctionCatalog.find?_declarations_eq_some_iff hparse hunit).mp hfind
  have hmem : f ∈ c.functions := FunctionCatalog.mem_of_mem_forBackend hf
  refine ⟨d, hd, name, hname, ?_, hsymbol, rfl⟩
  rw [hdeclares.names (FunctionCatalog.wrappings_ne_nil hparse hmem)]
  exact FunctionCatalog.nodup_arguments hparse hmem

/-- The lengths of the arrays are the byte lengths of the unit. -/
theorem SelfTest.opening_of_plan? {declarations : List Declaration} {message : String}
    {test : SelfTest}
    (h : plan? v declarations message = some test) :
    test.opening = [.text "msg" message, .array "pk" v.byteLengths.publicKey.name,
      .array "sk" v.byteLengths.secretKey.name,
      .array "sig" v.byteLengths.signature.name, .counter "siglen"] := by
  simp only [plan?, Option.bind_eq_bind, Option.bind_eq_some_iff] at h
  obtain ⟨keypair, -, sign, -, verify, -, htest⟩ := h
  cases htest
  rfl

/-- The byte lengths of a unit are constants of its source. -/
theorem Constant.line_mem_lines {k : Constant} (hk : k ∈ u.variant.byteLengths.all) :
    k.line ∈ u.lines := by
  have hconstants : k.line ∈ u.variant.byteLengths.all.map Constant.line := List.mem_map_of_mem hk
  have hupper : k.line ∈ u.variant.headerLines ++ Source.useLines u.uses ++
      u.variant.byteLengths.all.map Constant.line :=
    List.mem_append_right _ hconstants
  rw [SourceUnit.lines, List.append_assoc, List.append_assoc, List.append_assoc]
  exact List.mem_append_left _ hupper

/-- The length of an array is a constant of the unit, and no variable of the test hides it. -/
theorem SelfTest.exists_length_of_split (hparse : FunctionCatalog.parse text = .ok c)
    (hunit : c.assemble o v = .ok u)
    {test : SelfTest} (htest : test ∈ u.selfTest) {before after : List TestStatement}
    {name length : String}
    (hsplit : test.statements = before ++ .array name length :: after) :
    ∃ k, (name, k) ∈ [("pk", v.byteLengths.publicKey), ("sk", v.byteLengths.secretKey),
      ("sig", v.byteLengths.signature)] ∧
      k.name = length ∧ k.line ∈ u.lines ∧ bound? before length = none := by
  obtain ⟨later, hbefore⟩ := (calls_of_mem hparse hunit htest).split_array hsplit
  obtain ⟨k, hpair, rfl⟩ : ∃ k, (name, k) ∈
      [("pk", v.byteLengths.publicKey), ("sk", v.byteLengths.secretKey),
          ("sig", v.byteLengths.signature)] ∧ k.name = length := by
    have hmem : .array name length ∈ test.opening := hbefore ▸ by simp
    rw [opening_of_plan? ((mem_selfTest_iff hunit).mp htest).2] at hmem
    simp only [List.mem_cons, List.not_mem_nil, or_false, reduceCtorEq, false_or,
      TestStatement.array.injEq] at hmem
    rcases hmem with ⟨rfl, rfl⟩ | ⟨rfl, rfl⟩ | ⟨rfl, rfl⟩ <;> exact ⟨_, by simp, rfl⟩
  have hk : k ∈ v.byteLengths.all := List.mem_map_of_mem (f := Prod.snd) hpair
  refine ⟨k, hpair, rfl, ?_, bound?_eq_none_iff.mpr ?_⟩
  · obtain rfl := FunctionCatalog.assemble_variant hunit
    exact Constant.line_mem_lines hk
  · intro s hs hbinds
    obtain ⟨shared, hshared, hs⟩ :=
      exists_binds?_of_mem_opening (hbefore ▸ List.mem_append_left _ hs)
    exact v.byteLengths_unshared k hk (Option.some.inj (hbinds.symm.trans hs) ▸ hshared)

/-- The symbol of a function that a test calls is no name that the test chooses itself. -/
theorem SelfTest.symbol_notMem {stem function : String} (h : function ∈ functions) :
    stem ++ function ∉ "m" :: Source.rawValue :: sharedNames := by
  have hshort : ∀ name ∈ "m" :: Source.rawValue :: sharedNames, name.length ≤ 6 := by decide
  have hlong : ∀ name ∈ functions, 18 ≤ name.length := by decide
  intro hmem
  have := hshort _ hmem
  have := hlong _ h
  rw [String.length_append] at *
  omega

/-- **When a symbol refers to its function**: unless a pointer of this call or of an earlier one is
named like it, and then it refers to the buffer of that pointer. -/
theorem SelfTest.bound?_symbol (hparse : FunctionCatalog.parse text = .ok c)
    (hunit : c.assemble o v = .ok u) {test : SelfTest} (htest : test ∈ u.selfTest)
    {calls : List (TestCall × String)} (hmem : ∀ call ∈ calls, call.1 ∈ test.calls)
    {d : Declaration} (hd : d ∈ u.declarations) {function : String}
    (hfunction : function ∈ functions)
    (hsymbol : d.symbol = v.symbolStem ++ function) :
    (bound? (test.ahead calls ++ d.setUp) d.symbol = none ↔ ∀ e ∈ u.declarations,
      (e.symbol = d.symbol ∨
        ∃ operands, .call e.symbol operands ∈ test.ahead calls ++ d.setUp) →
      ∀ access pointee, (d.symbol, .pointer access pointee) ∉ e.params) ∧
    ∀ s ∈ bound? (test.ahead calls ++ d.setUp) d.symbol, ∃ type, s = .buffer d.symbol type := by
  have hcalls := calls_of_mem hparse hunit htest
  have hunique := (FunctionCatalog.assemble_taken hunit).symbols
  have hname : d.symbol ∉ "m" :: Source.rawValue :: sharedNames := hsymbol ▸ symbol_notMem hfunction
  rw [List.mem_cons, List.mem_cons, not_or, not_or] at hname
  obtain ⟨hm, hraw, hshared⟩ := hname
  have hbuffer : ∀ s ∈ test.ahead calls ++ d.setUp, s.binds? = some d.symbol → _ :=
    fun s hs hbinds => hcalls.exists_param_of_binds? hmem hd hs hbinds
      (List.not_mem_cons_of_ne_of_not_mem hraw hshared)
  refine ⟨?_, ?_⟩
  · rw [bound?_eq_none_iff]
    constructor
    · intro hnone e he hcalled access pointee hparam
      have hcalled : e = d ∨ ∃ operands, .call e.symbol operands ∈ test.ahead calls ++ d.setUp :=
        hcalled.imp_left (List.inj_on_of_nodup_map hunique he hd)
      exact hnone _ (hcalls.buffer_mem hunique hmem he hcalled hparam
        (List.not_mem_cons_of_ne_of_not_mem hm hshared)) rfl
    · intro hfree s hs hbinds
      obtain ⟨e, he, hcalled, access, pointee, hparam, -⟩ := hbuffer s hs hbinds
      exact hfree e he (hcalled.imp_left (congrArg _)) access pointee hparam
  · intro s hs
    obtain ⟨hmem, hbinds⟩ := mem_of_bound?_eq_some hs
    obtain ⟨e, -, -, access, pointee, -, hsame⟩ := hbuffer s hmem hbinds
    exact ⟨pointee, hsame⟩

end Units

/-- **A self-test is well scoped, but for the names of its functions, and every operand is of the
kind that its parameter asks for**, whatever the parameters of the three functions are named and of
whatever types they are.

Its statements are the lines of the test, in their order.  Each shared name is bound by one
statement of the whole test, which stands before all calls, so what one call writes through the name
is what a later call reads through it.  The lengths of the arrays are constants of the unit.  The
value that is checked after a call is the raw value of that call.  Every call passes to a
declaration of the unit, for each of its parameters, what `Passed` says.  The symbol of this
declaration refers to the function itself exactly if no pointer of this call or of an earlier one is
named like it; otherwise it refers to the buffer of such a pointer. -/
theorem self_test_well_scoped {text : String} {c : FunctionCatalog}
    (hparse : FunctionCatalog.parse text = .ok c) {o : Options} {v : Variant} {u : SourceUnit}
    (hunit : c.assemble o v = .ok u) {test : SelfTest} (htest : test ∈ u.selfTest) :
    (∃ front body, u.lines = front ++
        ["mod tests \x7b", "    use super::*;", "", "    #[test]",
          "    fn test_sign_verify() \x7b"] ++
        body ++ ["    \x7d", "\x7d"] ∧
      AreWritten test.statements body) ∧
    (∀ name ∈ ["msg", "pk", "sk", "sig", "siglen"], ∃ s ∈ test.opening,
      test.statements.filter (·.binds? == some name) = [s]) ∧
    (∀ before name length after, test.statements = before ++ .array name length :: after →
      ∃ k, (name, k) ∈ [("pk", v.byteLengths.publicKey), ("sk", v.byteLengths.secretKey),
          ("sig", v.byteLengths.signature)] ∧
        k.name = length ∧ k.line ∈ u.lines ∧ bound? before length = none) ∧
    (∀ before function failure after,
      test.statements = before ++ .expectZero function failure :: after →
      ∃ operands, before.getLast? = some (.call (v.symbolStem ++ function) operands) ∧
        bound? before Source.rawValue = some (.call (v.symbolStem ++ function) operands)) ∧
    ∀ before symbol operands after, test.statements = before ++ .call symbol operands :: after →
      (∃ d ∈ u.declarations, d.symbol = symbol ∧ List.Forall₂ (Passed before) d.params operands ∧
        ∃ function failure, d.symbol = v.symbolStem ++ function ∧
          after.head? = some (.expectZero function failure)) ∧
      (bound? before symbol = none ↔ ∀ e ∈ u.declarations,
        (e.symbol = symbol ∨ ∃ others, .call e.symbol others ∈ before) →
        ∀ access pointee, (symbol, .pointer access pointee) ∉ e.params) ∧
      ∀ s ∈ bound? before symbol, ∃ type, s = .buffer symbol type := by
  have hcalls := SelfTest.calls_of_mem hparse hunit htest
  obtain ⟨-, hplan⟩ := (SelfTest.mem_selfTest_iff hunit).mp htest
  have hopening := SelfTest.opening_of_plan? hplan
  refine ⟨SourceUnit.exists_test_body htest, ?_, ?_, ?_, ?_⟩
  · intro name hname
    rw [hcalls.filter_shared hname, hopening]
    simp only [List.mem_cons, List.not_mem_nil, or_false] at hname
    rcases hname with rfl | rfl | rfl | rfl | rfl <;> exact ⟨_, by simp, rfl⟩
  · intro before name length after hsplit
    exact SelfTest.exists_length_of_split hparse hunit htest hsplit
  · intro before function failure after hsplit
    obtain ⟨operands, earlier, rfl⟩ := hcalls.split_check hsplit
    exact ⟨operands, List.getLast?_concat, bound?_concat rfl⟩
  · intro before symbol operands after hsplit
    obtain ⟨calls, hmem, d, hd, rfl, rfl, hpassed, function, hfunction, hsymbol, failure, later,
      rfl⟩ := hcalls.split_call hsplit
    exact ⟨⟨d, hd, rfl, hpassed, function, failure, hsymbol, rfl⟩,
      SelfTest.bound?_symbol hparse hunit htest hmem hd hfunction hsymbol⟩

/-! ## Samples -/

/-- A wrapping that changes nothing. -/
def plainWrapping : Wrapping :=
  ⟨"", ⟨[]⟩, [], none, .identical, none⟩

/-- A catalog of the three functions.  Keys are generated from a seed, and signing writes a record
that is named like the variable of the raw values. -/
def seededText : String :=
  "[[[\"crypto_sign_keypair\",[[\"pk\",\"*mut u8\"],[\"seed\",\"*const Seed\"]],\"int\"]," ++
    "[\"crypto_sign_signature\",[[\"siglen\",\"*mut u8\"],[\"res\",\"*mut Log\"]],\"int\"]," ++
    "[\"crypto_sign_verify\",[[\"siglen\",\"u8\"]],\"int\"]]]"

/-- The catalog that the text of the sample holds. -/
def seededCatalog : FunctionCatalog :=
  ⟨[⟨"crypto_sign_keypair", [⟨"pk", .pointer .exclusive "u8"⟩, ⟨"seed", .pointer .shared "Seed"⟩],
      some (.value "int"), none, [plainWrapping]⟩,
    ⟨"crypto_sign_signature",
      [⟨"siglen", .pointer .exclusive "u8"⟩, ⟨"res", .pointer .exclusive "Log"⟩],
      some (.value "int"), none, [plainWrapping]⟩,
    ⟨"crypto_sign_verify", [⟨"siglen", .value "u8"⟩], some (.value "int"), none, [plainWrapping]⟩]⟩

/-- The unit of the portable variant for the catalog of the sample. -/
def seededUnit : SourceUnit :=
  FunctionCatalog.finish sampleVariant {} (seededCatalog.draft sampleVariant).1

/-- What the test of the sample has done when it signs. -/
def seededSigning : List TestStatement :=
  [.text "msg" "hello world", .array "pk" "PQCLEAN_DILITHIUM2_CLEAN_CRYPTO_PUBLICKEYBYTES",
    .array "sk" "PQCLEAN_DILITHIUM2_CLEAN_CRYPTO_SECRETKEYBYTES",
    .array "sig" "PQCLEAN_DILITHIUM2_CLEAN_CRYPTO_BYTES", .counter "siglen",
    .buffer "seed" "Seed", .fill "seed",
    .call "PQCLEAN_DILITHIUM2_CLEAN_crypto_sign_keypair"
      [.start "pk" .exclusive, .start "seed" .shared],
    .expectZero "crypto_sign_keypair" "key generation failed", .buffer "res" "Log", .fill "res"]

/-- Signing gets the length of the signature and a record of its own, which hides the raw value of
the call before; the symbol refers to the function. -/
theorem seeded_test_well_scoped :
    FunctionCatalog.parse seededText = .ok seededCatalog ∧
      seededCatalog.assemble {} sampleVariant = .ok seededUnit ∧
      ∃ test ∈ seededUnit.selfTest, ∃ after, test.statements = seededSigning ++
          .call "PQCLEAN_DILITHIUM2_CLEAN_crypto_sign_signature"
            [.address "siglen" .exclusive, .start "res" .exclusive] :: after ∧
        (∃ d ∈ seededUnit.declarations,
          d.symbol = "PQCLEAN_DILITHIUM2_CLEAN_crypto_sign_signature" ∧
          List.Forall₂ (Passed seededSigning) d.params
            [.address "siglen" .exclusive, .start "res" .exclusive]) ∧
        bound? seededSigning "PQCLEAN_DILITHIUM2_CLEAN_crypto_sign_signature" = none := by
  have hparse : FunctionCatalog.parse seededText = .ok seededCatalog := by decide +kernel
  have hunit : seededCatalog.assemble {} sampleVariant = .ok seededUnit := by decide +kernel
  have hplanned : seededUnit.selfTest.isSome := by decide +kernel
  have hsplit : ∀ test ∈ seededUnit.selfTest, test.statements = seededSigning ++
      .call "PQCLEAN_DILITHIUM2_CLEAN_crypto_sign_signature"
        [.address "siglen" .exclusive, .start "res" .exclusive] :: test.statements.drop 12 := by
    decide +kernel
  have hfree : ∀ e ∈ seededUnit.declarations, ∀ p ∈ e.params,
      p.1 ≠ "PQCLEAN_DILITHIUM2_CLEAN_crypto_sign_signature" := by
    decide +kernel
  obtain ⟨test, htest⟩ := Option.isSome_iff_exists.mp hplanned
  obtain ⟨-, -, -, -, hcalls⟩ := self_test_well_scoped hparse hunit htest
  obtain ⟨⟨d, hd, hsymbol, hpassed, -⟩, hreached, -⟩ := hcalls _ _ _ _ (hsplit test htest)
  refine ⟨hparse, hunit, test, htest, _, hsplit test htest, ⟨d, hd, hsymbol, hpassed⟩, ?_⟩
  exact hreached.mpr fun e he _ _ _ hparam => hfree e he _ hparam rfl

/-- The symbol of the function that signs, in the portable variant of the sample. -/
def hiddenSymbol : String := "PQCLEAN_DILITHIUM2_CLEAN_crypto_sign_signature"

/-- A catalog of the three functions, in which keys are written through a pointer that is named like
this symbol. -/
def hidingText : String :=
  "[[[\"crypto_sign_keypair\"," ++
    "[[\"PQCLEAN_DILITHIUM2_CLEAN_crypto_sign_signature\",\"*mut u8\"]],\"int\"]," ++
    "[\"crypto_sign_signature\",[],\"int\"],[\"crypto_sign_verify\",[],\"int\"]]]"

/-- The catalog that this text holds. -/
def hidingCatalog : FunctionCatalog :=
  ⟨[⟨"crypto_sign_keypair", [⟨hiddenSymbol, .pointer .exclusive "u8"⟩], some (.value "int"), none,
      [plainWrapping]⟩,
    ⟨"crypto_sign_signature", [], some (.value "int"), none, [plainWrapping]⟩,
    ⟨"crypto_sign_verify", [], some (.value "int"), none, [plainWrapping]⟩]⟩

/-- The unit of the portable variant for this catalog. -/
def hidingUnit : SourceUnit :=
  FunctionCatalog.finish sampleVariant {} (hidingCatalog.draft sampleVariant).1

/-- **A buffer may hide a function that is called.**  Where the test signs, the symbol of the
function refers to a buffer of the call before. -/
theorem called_function_hidden :
    FunctionCatalog.parse hidingText = .ok hidingCatalog ∧
      hidingCatalog.assemble {} sampleVariant = .ok hidingUnit ∧
      ∃ test ∈ hidingUnit.selfTest, ∃ before after,
        test.statements = before ++ .call hiddenSymbol [] :: after ∧
        bound? before hiddenSymbol = some (.buffer hiddenSymbol "u8") := by
  have hplanned : hidingUnit.selfTest.isSome := by decide +kernel
  have hsplit : ∀ test ∈ hidingUnit.selfTest, test.statements =
      test.statements.take 9 ++ .call hiddenSymbol [] :: test.statements.drop 10 := by
    decide +kernel
  have hhidden : ∀ test ∈ hidingUnit.selfTest,
      bound? (test.statements.take 9) hiddenSymbol = some (.buffer hiddenSymbol "u8") := by
    decide +kernel
  obtain ⟨test, htest⟩ := Option.isSome_iff_exists.mp hplanned
  exact ⟨by decide +kernel, by decide +kernel, test, htest, _, _, hsplit test htest,
    hhidden test htest⟩

end Bindery
