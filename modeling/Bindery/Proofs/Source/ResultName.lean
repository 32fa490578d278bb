/-
# Bindery.Proofs.Source.ResultName -- the name of the raw value.

The raw value of a call is bound to a name of its own.  The search for it starts at `res` and adds
underscores as long as the name is that of a parameter or of a storage of the call.  These are
finitely many, and no two candidates are alike, so it ends, at the shortest candidate that is free.

That is enough for the names of a wrapper not to get in each other's way.  An output is no
parameter, but it is handed to the call under its own name; so every variable of the body is a
parameter or a storage, and the raw value hides none of them.  What a name refers to at a point of
the body is the last statement before that binds it.
-/
import Mathlib.Data.List.Perm.Subperm
import Mathlib.Data.Option.Basic
import Bindery.Proofs.Unit.Calls
import Bindery.Source.Wrapper

namespace Bindery

open Source

/-! ## Candidates -/

namespace Source

/-- A longer candidate has one underscore more. -/
theorem resultName_succ (n : Nat) : resultName (n + 1) = resultName n ++ "_" := by
  rw [← String.toList_inj]
  simp [resultName, List.replicate_succ']

/-- No two candidates are alike. -/
theorem resultName_injective : Function.Injective resultName := by
  intro m n hsame
  have hlength := congrArg (fun name => name.toList.length) hsame
  simpa [resultName] using hlength

/-- Among one more candidates than there are taken names, one is free. -/
theorem exists_resultName_notMem (taken : List String) :
    ∃ n ∈ List.range (taken.length + 1), resultName n ∉ taken := by
  by_contra hnone
  push Not at hnone
  have hnodup : ((List.range (taken.length + 1)).map resultName).Nodup :=
    List.nodup_range.map resultName_injective
  have hsubset : (List.range (taken.length + 1)).map resultName ⊆ taken :=
    List.forall_mem_map.mpr hnone
  have hlength := (hnodup.subperm hsubset).length_le
  rw [List.length_map, List.length_range] at hlength
  omega

/-- The name is the shortest candidate that is free. -/
theorem exists_freshName_eq (taken : List String) :
    ∃ n, freshName taken = resultName n ∧ resultName n ∉ taken ∧ ∀ m < n, resultName m ∈ taken := by
  obtain ⟨free, hfree, hnotMem⟩ := exists_resultName_notMem taken
  rw [freshName]
  cases hfind : (List.range (taken.length + 1)).find? fun n => !taken.contains (resultName n) with
  | none => exact absurd (List.find?_eq_none.mp hfind free hfree) (by simpa using hnotMem)
  | some n =>
    refine ⟨n, rfl, by simpa using List.find?_some hfind, fun m hm => ?_⟩
    obtain ⟨-, -, hbefore⟩ := List.find?_range_eq_some.mp hfind
    simpa using hbefore m hm

/-! ## The search -/

/-- **`Search taken name found`** -- the search that has come to `name` ends at `found`: it stops at
a name that is free, and goes on with one underscore more at one that is taken. -/
inductive Search (taken : String → Prop) : String → String → Prop
  | stop {name : String} : ¬ taken name → Search taken name name
  | push {name found : String} : taken name → Search taken (name ++ "_") found →
      Search taken name found

variable {taken : String → Prop}

/-- A search ends at one name. -/
theorem Search.unique {name found other : String} (h : Search taken name found)
    (hother : Search taken name other) : found = other := by
  induction h with
  | stop hfree =>
    cases hother with
    | stop _ => rfl
    | push htaken _ => exact absurd htaken hfree
  | push htaken _ ih =>
    cases hother with
    | stop hfree => exact absurd htaken hfree
    | push _ hrest => exact ih hrest

/-- The search passes the candidates that are taken. -/
theorem search_resultName (count : Nat) :
    ∀ {start n : Nat}, start + count = n → ¬ taken (resultName n) →
      (∀ m < n, taken (resultName m)) →
      Search taken (resultName start) (resultName n) := by
  induction count with
  | zero =>
    rintro start n rfl hfree _
    exact .stop hfree
  | succ count ih =>
    intro start n hn hfree htaken
    refine .push (htaken start (by omega)) ?_
    rw [← resultName_succ]
    exact ih (by omega) hfree htaken

end Source

/-! ## Names of a wrapper -/

/-- The names among which the raw value must not be: those of the parameters and of the storages of
the call. -/
def Wrapper.IsTaken (w : Wrapper) (name : String) : Prop :=
  (∃ symbol arguments captured, Statement.call symbol arguments captured ∈ w.body ∧ ∃ a ∈ arguments,
    a.storage = name) ∨
    ∃ p ∈ w.signature.params, p.1 = name

theorem Wrapper.isTaken_iff {w : Wrapper} {name : String} :
    w.IsTaken name ↔ name ∈ w.body.flatMap Statement.storages ++ w.signature.params.map (·.1) := by
  rw [IsTaken, List.mem_append, List.mem_flatMap, List.mem_map]
  refine or_congr ?_ Iff.rfl
  constructor
  · rintro ⟨symbol, arguments, captured, hmem, a, ha, rfl⟩
    exact ⟨_, hmem, List.mem_map_of_mem ha⟩
  · rintro ⟨s, hs, hname⟩
    cases s with
    | call symbol arguments captured =>
      exact ⟨symbol, arguments, captured, hs, List.mem_map.mp hname⟩
    | allocate _ _ => cases hname
    | failUnlessZero => cases hname
    | assumeInit _ => cases hname
    | finish _ => cases hname

/-- The name of the raw value is the shortest candidate that is not taken. -/
theorem Wrapper.exists_resultName_eq (w : Wrapper) :
    ∃ n, w.resultName = Source.resultName n ∧ ¬ w.IsTaken (Source.resultName n) ∧ ∀ m < n,
        w.IsTaken (Source.resultName m) := by
  simp only [isTaken_iff]
  exact exists_freshName_eq _

/-- The search for a name of the raw value ends at its name. -/
theorem Wrapper.search_resultName (w : Wrapper) : Search w.IsTaken "res" w.resultName := by
  obtain ⟨n, hname, hfree, htaken⟩ := w.exists_resultName_eq
  have hstart : "res" = Source.resultName 0 := by decide
  rw [hname, hstart]
  exact Source.search_resultName n (Nat.zero_add n) hfree htaken

/-! ## Variables -/

namespace Statement

/-- The variables that a statement mentions, but for the raw value. -/
def mentions : Statement → List String
  | .allocate name _ => [name]
  | .call _ arguments _ => arguments.map (·.storage)
  | .failUnlessZero => []
  | .assumeInit name => [name]
  | .finish .raw => []
  | .finish (.outputs names) => names
  | .finish (.success names) => names

/-- The variable that a statement binds, where the raw value is called `result`. -/
def binds? (result : String) : Statement → Option String
  | .allocate name _ => some name
  | .call _ _ captured => if captured then some result else none
  | .failUnlessZero => none
  | .assumeInit name => some name
  | .finish _ => none

/-- **`referent? result before name`** -- what a name refers to after some statements: the last of
them that binds it, or a parameter if none of them does. -/
def referent? (result : String) (before : List Statement) (name : String) : Option Statement :=
  before.findRev? fun s => s.binds? result == some name

/-- **`s.Resolves result params before`** -- after the statements `before`, every name that the
statement uses refers to what it is meant for.  What the call passes is a buffer where a buffer is
passed, and otherwise a parameter.  The check of the raw value and its return refer to the call, and
outputs to what has been made of their buffers. -/
def Resolves (result : String) (params : List (String × ParamType)) (before : List Statement) :
    Statement → Prop
  | .allocate _ _ => True
  | .call _ arguments _ => ∀ a ∈ arguments,
    if a.passing = .uninit then ∃ type, referent? result before a.storage =
      some (.allocate a.storage type)
    else referent? result before a.storage = none ∧ ∃ type, (a.storage, type) ∈ params
  | .failUnlessZero =>
    ∃ symbol arguments, referent? result before result = some (.call symbol arguments true)
  | .assumeInit name => ∃ type, referent? result before name = some (.allocate name type)
  | .finish .raw =>
    ∃ symbol arguments, referent? result before result = some (.call symbol arguments true)
  | .finish (.outputs names) =>
    ∀ name ∈ names, referent? result before name = some (.assumeInit name)
  | .finish (.success names) =>
    ∀ name ∈ names, referent? result before name = some (.assumeInit name)

/-- Statement after statement resolves. -/
def AllResolve (result : String) (params : List (String × ParamType)) :
    List Statement → List Statement → Prop
  | _, [] => True
  | before, s :: rest =>
    s.Resolves result params before ∧ AllResolve result params (before ++ [s]) rest

variable {result name : String} {params : List (String × ParamType)} {before after : List Statement}
  {s : Statement}

/-! ## Referents -/

/-- Later statements hide earlier ones. -/
theorem referent?_append :
    referent? result (before ++ after) name = (referent? result after name).or
    (referent? result before name) := by
  simp only [referent?, List.findRev?_eq_find?_reverse, List.reverse_append, List.find?_append]

theorem referent?_eq_none (h : ∀ s ∈ before, s.binds? result ≠ some name) :
    referent? result before name = none := by
  rw [referent?, List.findRev?_eq_find?_reverse, List.find?_eq_none]
  intro s hs hbinds
  exact h s (List.mem_reverse.mp hs) (eq_of_beq hbinds)

/-- Statements that do not bind a name leave what it refers to. -/
theorem referent?_append_of_unbound (h : ∀ s ∈ after, s.binds? result ≠ some name) :
    referent? result (before ++ after) name = referent? result before name := by
  rw [referent?_append, referent?_eq_none h, Option.none_or]

/-- A name refers to the statement that has just bound it. -/
theorem referent?_concat (h : s.binds? result = some name) :
    referent? result (before ++ [s]) name = some s := by
  simp [referent?, List.findRev?_eq_find?_reverse, h]

/-- Where no two statements bind one name, it refers to the one that binds it. -/
theorem referent?_of_nodup {statements : List Statement}
    (hnodup : (statements.map (binds? result)).Nodup) (hs : s ∈ statements)
    (hbinds : s.binds? result = some name) :
    referent? result (before ++ statements) name = some s := by
  obtain ⟨earlier, later, rfl⟩ := List.append_of_mem hs
  rw [List.map_append, List.map_cons, List.nodup_append] at hnodup
  obtain ⟨-, hlater, -⟩ := hnodup
  rw [List.append_cons, ← List.append_assoc, referent?_append_of_unbound, ← List.append_assoc,
    referent?_concat hbinds]
  intro other hother hsame
  exact (List.nodup_cons.mp hlater).1 (List.mem_map.mpr ⟨other, hother, hsame.trans hbinds.symm⟩)

/-! ## Stretches -/

theorem allResolve_append {first second : List Statement}
    (hfirst : AllResolve result params before first)
    (hsecond : AllResolve result params (before ++ first) second) :
    AllResolve result params before (first ++ second) := by
  induction first generalizing before with
  | nil => simpa using hsecond
  | cons s rest ih =>
    refine ⟨hfirst.1, ih hfirst.2 ?_⟩
    simpa using hsecond

/-- Where every statement resolves, so does the one at any split. -/
theorem AllResolve.resolves_of_split {earlier : List Statement}
    (h : AllResolve result params before (earlier ++ s :: after)) :
    s.Resolves result params (before ++ earlier) := by
  induction earlier generalizing before with
  | nil => simpa using h.1
  | cons first rest ih => simpa using ih h.2

/-- Buffers need nothing. -/
theorem allResolve_allocations (buffers : List (String × String)) :
    AllResolve result params before (buffers.map fun b => .allocate b.1 b.2) := by
  induction buffers generalizing before with
  | nil => trivial
  | cons b rest ih => exact ⟨trivial, ih⟩

/-- Distinct names that refer to their buffers can be marked as initialised one after another. -/
theorem allResolve_assumptions {names : List String} (hnodup : names.Nodup)
    (h : ∀ name ∈ names, ∃ type, referent? result before name = some (.allocate name type)) :
    AllResolve result params before (names.map .assumeInit) := by
  induction names generalizing before with
  | nil => trivial
  | cons name rest ih =>
    obtain ⟨hnew, hrest⟩ := List.nodup_cons.mp hnodup
    obtain ⟨hname, hothers⟩ := List.forall_mem_cons.mp h
    refine ⟨hname, ih hrest fun other hother => ?_⟩
    obtain ⟨type, htype⟩ := hothers other hother
    refine ⟨type, ?_⟩
    rw [referent?_append_of_unbound, htype]
    rw [List.forall_mem_singleton]
    rintro ⟨⟩
    exact hnew hother

end Statement

/-! ## Bodies -/

namespace ArgumentTable

variable {t : ArgumentTable} {symbol result name : String} {returns : ReturnShape}
  {names : List String} {s : Statement}

/-- What follows a call mentions outputs alone. -/
theorem mentions_after_call
    (hs : s ∈ checks returns ++ names.map .assumeInit ++ endings names returns)
    (hname : name ∈ s.mentions) :
    name ∈ names := by
  rw [List.append_assoc, List.mem_append, List.mem_append] at hs
  rcases hs with hs | hs | hs
  · cases returns with
    | result types convention =>
      cases convention
      obtain rfl := List.mem_singleton.mp hs
      cases hname
    | unit => cases hs
    | raw type => cases hs
    | outputs types => cases hs
  · obtain ⟨output, houtput, rfl⟩ := List.mem_map.mp hs
    rwa [List.mem_singleton.mp hname]
  · cases returns with
    | unit => cases hs
    | raw type =>
      obtain rfl := List.mem_singleton.mp hs
      cases hname
    | outputs types =>
      obtain rfl := List.mem_singleton.mp hs
      exact hname
    | result types convention =>
      obtain rfl := List.mem_singleton.mp hs
      exact hname

/-- The raw value is checked only after a call that keeps it. -/
theorem checks_resolve {params : List (String × ParamType)} {before : List Statement}
    (h : captures returns = true → ∃ callee arguments, Statement.referent? result before result =
    some (.call callee arguments true)) :
    Statement.AllResolve result params before (checks returns) := by
  cases returns with
  | result types convention =>
    cases convention
    exact ⟨h rfl, trivial⟩
  | unit => trivial
  | raw type => trivial
  | outputs types => trivial

/-- A check binds nothing. -/
theorem binds?_checks (hs : s ∈ checks returns) : s.binds? result = none := by
  cases returns with
  | result types convention =>
    cases convention
    rw [List.mem_singleton.mp hs]
    rfl
  | unit => cases hs
  | raw type => cases hs
  | outputs types => cases hs

/-- A raw value is returned only after a call that keeps it, and outputs once they are initialised.
-/
theorem endings_resolve {params : List (String × ParamType)} {before : List Statement}
    (hraw : captures returns = true → ∃ callee arguments, Statement.referent? result before result =
    some (.call callee arguments true))
    (houtputs : ∀ name ∈ names, Statement.referent? result before name = some (.assumeInit name)) :
    Statement.AllResolve result params before (endings names returns) := by
  cases returns with
  | unit => trivial
  | raw type => exact ⟨hraw rfl, trivial⟩
  | outputs types => exact ⟨houtputs, trivial⟩
  | result types convention => exact ⟨houtputs, trivial⟩

/-- What follows a call resolves if the outputs refer to their buffers and the raw value, where it
is kept, to the call. -/
theorem after_call_resolves {params : List (String × ParamType)} {before : List Statement}
    (hnodup : names.Nodup)
    (hresult : result ∉ names)
    (hbuffers : ∀ name ∈ names, ∃ type, Statement.referent? result before name =
      some (.allocate name type))
    (hraw : captures returns = true → ∃ callee arguments, Statement.referent? result before result =
    some (.call callee arguments true)) :
    Statement.AllResolve result params before (checks returns ++ names.map .assumeInit ++
        endings names returns) := by
  have hchecks : ∀ name : String, ∀ s ∈ checks returns, s.binds? result ≠ some name := by
    intro name s hs
    rw [binds?_checks hs]
    exact nofun
  have hassumes : ∀ s ∈ names.map Statement.assumeInit, s.binds? result ≠ some result := by
    rw [List.forall_mem_map]
    rintro name hname ⟨⟩
    exact hresult hname
  refine Statement.allResolve_append (Statement.allResolve_append (checks_resolve hraw) ?_)
    (endings_resolve ?_ ?_)
  · apply Statement.allResolve_assumptions hnodup
    intro name hname
    rw [Statement.referent?_append_of_unbound (hchecks name)]
    exact hbuffers name hname
  -- neither checks nor outputs hide the raw value
  · rw [← List.append_assoc, Statement.referent?_append_of_unbound hassumes,
      Statement.referent?_append_of_unbound (hchecks result)]
    exact hraw
  · intro name hname
    rw [← List.append_assoc]
    refine Statement.referent?_of_nodup ?_ (List.mem_map_of_mem hname) rfl
    rw [List.map_map]
    exact hnodup.map (Option.some_injective String)

end ArgumentTable

namespace TableFits

variable {f : ForeignFunction} {w : Wrapping} {t : ArgumentTable} {symbol result name : String}
  {returns : ReturnShape} {s : Statement}

/-- Every output is handed to the call under its own name. -/
theorem storage_of_output (h : TableFits f w t) (hnodup : (f.arguments.map (·.name)).Nodup)
    (hname : name ∈ w.outputs) :
    ∃ a ∈ t.rows.map t.callArgument, a.storage = name := by
  obtain ⟨r, _, -, hr, rfl, hrole, -⟩ := h.row_of_output hnodup hname
  have hstorage : t.storage r = r := ArgumentTable.storage_of_unmapped (by rw [Row.isMapped, hrole])
  exact ⟨t.callArgument r, List.mem_map_of_mem hr, (passing_of_output hstorage hrole).1⟩

/-- Every variable that a body mentions is a storage of its call. -/
theorem storage_of_mentions (h : TableFits f w t) (hnodup : (f.arguments.map (·.name)).Nodup)
    (hs : s ∈ t.body symbol returns)
    (hname : name ∈ s.mentions) : ∃ a ∈ t.rows.map t.callArgument, a.storage = name := by
  rw [t.body_eq, List.mem_append, List.mem_cons] at hs
  rcases hs with hs | rfl | hs
  · obtain ⟨b, hb, rfl⟩ := List.mem_map.mp hs
    apply h.storage_of_output hnodup
    rw [List.mem_singleton.mp hname, ← h.buffers_names hnodup]
    exact List.mem_map_of_mem hb
  · exact List.mem_map.mp hname
  · apply h.storage_of_output hnodup
    rw [← h.outputs_names hnodup]
    exact ArgumentTable.mentions_after_call hs hname

/-- Behind the allocations an output refers to its buffer. -/
theorem referent?_of_buffer (h : TableFits f w t) (hnodup : (f.arguments.map (·.name)).Nodup)
    {b : String × String}
    (hb : b ∈ t.buffers) :
    Statement.referent? result (t.buffers.map fun b => .allocate b.1 b.2) b.1 =
        some (.allocate b.1 b.2) := by
  rw [← List.nil_append (t.buffers.map _)]
  refine Statement.referent?_of_nodup ?_ (List.mem_map_of_mem hb) rfl
  have hbinds : (t.buffers.map fun b => Statement.allocate b.1 b.2).map (Statement.binds? result) =
      (t.buffers.map (·.1)).map some := by
    rw [List.map_map, List.map_map]
    rfl
  rw [hbinds]
  exact (h.nodup_buffers hnodup).map (Option.some_injective String)

/-- Behind the allocations a parameter is still one. -/
theorem referent?_of_param (h : TableFits f w t) (hnodup : (f.arguments.map (·.name)).Nodup)
    {type : ParamType}
    (hparam : t.wrapperParams.lookup name = some type) :
    Statement.referent? result (t.buffers.map fun b => .allocate b.1 b.2) name = none := by
  apply Statement.referent?_eq_none
  intro s hs hbinds
  obtain ⟨b, hb, rfl⟩ := List.mem_map.mp hs
  obtain rfl := Option.some.inj hbinds
  have houtput : b.1 ∈ w.outputs := by
    rw [← h.buffers_names hnodup]
    exact List.mem_map_of_mem hb
  rw [h.lookup_param_of_output hnodup houtput] at hparam
  cases hparam

/-- The call finds the storage of every argument. -/
theorem call_resolves (h : TableFits f w t) (hnodup : (f.arguments.map (·.name)).Nodup)
    {captured : Bool} :
    (Statement.call symbol (t.rows.map t.callArgument) captured).Resolves result t.wrapperParams
      (t.buffers.map fun b => .allocate b.1 b.2) := by
  rw [Statement.Resolves, List.forall_mem_map]
  intro r hr
  have hfits := h.storageFits hnodup hr
  rw [CallArgument.StorageFits] at hfits
  cases hpassing : (t.callArgument r).passing with
  | uninit =>
    rw [hpassing] at hfits
    obtain ⟨_, type, -, hbuffer, -⟩ := hfits
    rw [if_pos rfl]
    exact ⟨type, h.referent?_of_buffer hnodup (mem_of_lookup_eq_some hbuffer)⟩
  | value =>
    rw [hpassing] at hfits
    obtain ⟨_, -, hparam⟩ := hfits
    rw [if_neg (by simp)]
    exact ⟨h.referent?_of_param hnodup hparam, _, mem_of_lookup_eq_some hparam⟩
  | borrow access =>
    rw [hpassing] at hfits
    obtain ⟨_, _, _, -, hparam, -⟩ := hfits
    rw [if_neg (by simp)]
    exact ⟨h.referent?_of_param hnodup hparam, _, mem_of_lookup_eq_some hparam⟩

/-- **Every name of a body refers to what it is meant for**, where the raw value has a name that is
no output. -/
theorem body_resolves (h : TableFits f w t) (hnodup : (f.arguments.map (·.name)).Nodup)
    (hresult : result ∉ w.outputs) :
    Statement.AllResolve result t.wrapperParams [] (t.body symbol returns) := by
  have hbuffers : ∀ name ∈ w.outputs, ∃ b ∈ t.buffers, b.1 = name := by
    rw [← h.buffers_names hnodup]
    exact fun _ => List.mem_map.mp
  rw [t.body_eq, h.outputs_names hnodup, List.append_cons]
  refine Statement.allResolve_append (Statement.allResolve_append ?_ ?_)
    (ArgumentTable.after_call_resolves ?_ hresult ?_ ?_)
  · exact Statement.allResolve_allocations _
  · exact ⟨h.call_resolves hnodup, trivial⟩
  · exact h.names.outputs_nodup
  -- the call binds at most the raw value, which is no output
  · intro name hname
    obtain ⟨b, hb, rfl⟩ := hbuffers name hname
    refine ⟨b.2, ?_⟩
    rw [List.nil_append, Statement.referent?_append_of_unbound]
    · exact h.referent?_of_buffer hnodup hb
    · rw [List.forall_mem_singleton, Statement.binds?]
      split
      · rintro ⟨⟩
        exact hresult hname
      · exact nofun
  · intro hcaptures
    rw [List.nil_append, hcaptures]
    exact ⟨_, _, Statement.referent?_concat rfl⟩

end TableFits

/-! ## Lines -/

/-- **`w.SpellsResult name`** -- the lines of the wrapper call the raw value by the name: where the
call binds it, where it is checked, and where it is returned. -/
structure Wrapper.SpellsResult (w : Wrapper) (name : String) : Prop where
  call : ∀ symbol arguments, .call symbol arguments true ∈ w.body → ∃ rest, "    let " ++ name ++
    " = unsafe \x7b" ++ rest ∈ w.lines
  check : .failUnlessZero ∈ w.body → "    if " ++ name ++ " != 0 \x7b" ∈ w.lines
  raw : .finish .raw ∈ w.body → "    " ++ name ∈ w.lines

/-- The first line of a call that keeps the raw value. -/
theorem Statement.exists_line_call (name symbol : String) (arguments : List CallArgument) :
    ∃ rest, "    let " ++ name ++ " = unsafe \x7b" ++
        rest ∈ (Statement.call symbol arguments true).lines name := by
  rw [lines, if_pos rfl, Listing.lines]
  split
  · refine ⟨" " ++
      (callListing 1 (binding name) symbol (arguments.map CallArgument.render)).inner ++ " \x7d;",
      ?_⟩
    rw [List.mem_singleton, ← String.toList_inj]
    simp [Listing.oneLine, callListing, line, indent, binding]
  · refine ⟨"", List.mem_append_left _ (List.mem_append_left _ (List.mem_singleton.mpr ?_))⟩
    rw [← String.toList_inj]
    simp [callListing, line, indent, binding]

/-- The lines of a statement are lines of its wrapper. -/
theorem Wrapper.mem_lines_of_mem_body {w : Wrapper} {s : Statement} {l : String} (hs : s ∈ w.body)
    (hl : l ∈ s.lines w.resultName) :
    l ∈ w.lines := by
  rw [lines, code, List.mem_append, List.mem_append, List.mem_append]
  exact Or.inr (Or.inl (Or.inr (List.mem_flatMap.mpr ⟨s, hs, hl⟩)))

theorem Wrapper.spellsResult (w : Wrapper) : w.SpellsResult w.resultName where
  call symbol arguments hmem := by
    obtain ⟨rest, hline⟩ := Statement.exists_line_call w.resultName symbol arguments
    exact ⟨rest, mem_lines_of_mem_body hmem hline⟩
  check hmem := by
    apply mem_lines_of_mem_body hmem
    rw [Statement.lines, List.mem_cons, ← String.toList_inj]
    simp [line, indent]
  raw hmem := by
    apply mem_lines_of_mem_body hmem
    rw [Statement.lines, List.mem_singleton, ← String.toList_inj]
    simp [line, indent]

/-! ## Wrappers -/

section Pairs

variable {f : ForeignFunction} {w : Wrapping} {stem : String} {d : Declaration} {wrapper : Wrapper}

/-- The raw value has the name of no variable that the wrapper of a pair mentions. -/
theorem Wrapping.resultName_notMem_mentions (hnodup : (f.arguments.map (·.name)).Nodup)
    (h : w.derive stem f = .ok (d, wrapper))
    {s : Statement} (hs : s ∈ wrapper.body) : wrapper.resultName ∉ s.mentions := by
  obtain ⟨n, hname, hfree, -⟩ := wrapper.exists_resultName_eq
  obtain ⟨t, signature, htable, -, -, rfl⟩ := derive_eq_ok_iff.mp h
  intro hmem
  have hcall : Statement.call (stem ++ f.name) (t.rows.map t.callArgument)
    (ArgumentTable.captures signature.returns) ∈
      t.body (stem ++ f.name) signature.returns := by
    rw [t.body_eq]
    exact List.mem_append_right _ List.mem_cons_self
  rw [← hname] at hfree
  exact hfree (Or.inl ⟨_, _, _, hcall, (table_fits htable).storage_of_mentions hnodup hs hmem⟩)

/-- Every name in the wrapper of a pair refers to what it is meant for. -/
theorem Wrapping.resolves_of_derive (hnodup : (f.arguments.map (·.name)).Nodup)
    (h : w.derive stem f = .ok (d, wrapper)) :
    Statement.AllResolve wrapper.resultName wrapper.signature.params [] wrapper.body := by
  have hfresh := fun s hs => resultName_notMem_mentions hnodup h (s := s) hs
  obtain ⟨t, signature, htable, hsignature, -, rfl⟩ := derive_eq_ok_iff.mp h
  have hfits := table_fits htable
  obtain ⟨-, hparams, -⟩ := ArgumentTable.signature_eq_ok hsignature
  rw [hparams]
  apply hfits.body_resolves hnodup
  -- an output is mentioned where its buffer is declared
  rw [← hfits.buffers_names hnodup]
  intro hmem
  obtain ⟨b, hb, hname⟩ := List.mem_map.mp hmem
  have hallocate : Statement.allocate b.1 b.2 ∈ t.body (stem ++ f.name) signature.returns := by
    rw [t.body_eq]
    exact List.mem_append_left _ (List.mem_map_of_mem hb)
  exact hfresh _ hallocate (List.mem_singleton.mpr hname.symm)

end Pairs

/-- **The name of the raw value is always fresh.** For every wrapper of a unit the search for it
ends, at its name and nowhere else: `res` with the least number of underscores that makes it no
parameter and no storage of the call.  No statement mentions a variable of this name.  Names are
compared as they are spelled.  The lines call the raw value by it; and at every point of the body,
what is passed refers to a parameter or a buffer, an output to its buffer and then to its content,
and the check and the return of the raw value to the call. -/
theorem raw_value_name_is_fresh {text : String} {c : FunctionCatalog}
    (hparse : FunctionCatalog.parse text = .ok c) {o : Options}
    {v : Variant} {u : SourceUnit} (hunit : c.assemble o v = .ok u) {w : Wrapper}
    (hw : w ∈ u.wrappers) :
    Search w.IsTaken "res" w.resultName ∧ (∀ name, Search w.IsTaken "res" name →
      name = w.resultName) ∧
      (∃ n, w.resultName = "res" ++ String.ofList (List.replicate n '_') ∧
        ¬ w.IsTaken w.resultName ∧
        ∀ m < n, w.IsTaken ("res" ++ String.ofList (List.replicate m '_'))) ∧
      (∀ p ∈ w.signature.params, p.1 ≠ w.resultName) ∧ (∀ s ∈ w.body, w.resultName ∉ s.mentions) ∧
      w.SpellsResult w.resultName ∧
      ∀ before s after, w.body = before ++ s :: after →
          s.Resolves w.resultName w.signature.params before := by
  obtain ⟨⟨f, wrapping⟩, hpair, d, -, hderive⟩ :=
    (FunctionCatalog.assemble_taken hunit).pair_of_wrapper hw
  have hnodup :=
    FunctionCatalog.nodup_arguments hparse (FunctionCatalog.mem_of_mem_forBackend
      (mem_wrappingPairs_iff.mp hpair).1)
  obtain ⟨n, hname, hfree, htaken⟩ := w.exists_resultName_eq
  rw [← hname] at hfree
  refine ⟨w.search_resultName, fun name h => h.unique w.search_resultName,
    ⟨n, hname, hfree, htaken⟩, ?_, ?_, w.spellsResult, ?_⟩
  · exact fun p hp hsame => hfree (Or.inr ⟨p, hp, hsame⟩)
  · exact fun s hs => Wrapping.resultName_notMem_mentions hnodup hderive hs
  · intro before s after hsplit
    have hresolves := Wrapping.resolves_of_derive hnodup hderive
    rw [hsplit] at hresolves
    exact hresolves.resolves_of_split

/-- A catalog with a function whose output and whose plain argument have the first two candidates as
names. -/
def crowdedText : String :=
  "[[[\"sum\",[[\"res\",\"*mut u8\"],[\"res_\",\"u8\"]]," ++
    "\"int\",null,[\"\",\x7b\x7d,[\"res\"],\"0 is Ok\"]]]]"

/-- The catalog that this text holds. -/
def crowdedCatalog : FunctionCatalog :=
  ⟨[⟨"sum", [⟨"res", .pointer .exclusive "u8"⟩, ⟨"res_", .value "u8"⟩], some (.value "int"), none,
    [⟨"", ⟨[]⟩, ["res"], some .zeroIsOk, .identical, none⟩]⟩]⟩

/-- The wrapper of its function. -/
def crowdedWrapper : Wrapper where
  signature := ⟨"sum", none, [("res_", .value "u8")], .result ["u8"] .zeroIsOk⟩
  body :=
    [.allocate "res" "u8", .call "PQCLEAN_DILITHIUM2_CLEAN_sum" [⟨"res", .uninit, none⟩,
      ⟨"res_", .value, none⟩] true,
    .failUnlessZero, .assumeInit "res", .finish (.success ["res"])]

/-- The raw value gets the third candidate, and the check refers to it and not to the output or the
argument. -/
theorem crowded_raw_value_name :
    FunctionCatalog.parse crowdedText = .ok crowdedCatalog ∧
      (∃ u, crowdedCatalog.assemble {} sampleVariant = .ok u ∧ crowdedWrapper ∈ u.wrappers) ∧
      crowdedWrapper.resultName = "res__" ∧ Search crowdedWrapper.IsTaken "res" "res__" ∧
      Statement.Resolves "res__" [("res_", .value "u8")] (crowdedWrapper.body.take 2)
          .failUnlessZero := by
  have hparse : FunctionCatalog.parse crowdedText = .ok crowdedCatalog := by decide +kernel
  have hunit : crowdedCatalog.assemble {} sampleVariant =
      .ok (FunctionCatalog.finish sampleVariant {} (crowdedCatalog.draft sampleVariant).1) := by
        decide +kernel
  have hwrapper :
      crowdedWrapper ∈ (FunctionCatalog.finish sampleVariant {}
        (crowdedCatalog.draft sampleVariant).1).wrappers := by
    decide +kernel
  have hname : crowdedWrapper.resultName = "res__" := by decide +kernel
  obtain ⟨hsearch, -, -, -, -, -, hresolves⟩ := raw_value_name_is_fresh hparse hunit hwrapper
  rw [hname] at hsearch hresolves
  exact ⟨hparse, ⟨_, hunit, hwrapper⟩, hname, hsearch, hresolves _ _ _ rfl⟩

end Bindery
