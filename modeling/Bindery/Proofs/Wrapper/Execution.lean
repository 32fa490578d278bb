/-
# Bindery.Proofs.Wrapper.Execution -- what the statements of a wrapper do.

A frame holds the parameters of a wrapper, the buffers declared so far and what is in them.  A
statement makes the next frame or ends the wrapper with an outcome; where it would read what is not
there it does neither, and the wrapper is stuck.  In particular a buffer can be returned only after
it has been written and then assumed to be initialised, and a raw value can be looked at only if the
call has kept it.  What the foreign function does is a parameter: a raw value, and something written
into every buffer that it is given.

`Frame.Sound` is what every statement preserves, whatever the statements are: a run never declares a
buffer twice, calls at most once, and assumes nothing that has not been written.  The last section
runs the stretches that bodies are made of: declarations of buffers, the call, assumptions, and the
ending.
-/
import Bindery.Wrapper.Body

namespace Bindery

variable {V : Type}

/-! ## Frames -/

/-- What a call of the foreign function leaves: its raw value, and what it writes into the buffers
that it is given. -/
structure ForeignEffect (V : Type) where
  raw : Int
  contents : String → V

/-- What is under a name. -/
inductive Content (V : Type) where
  /-- No buffer. -/
  | undeclared
  | uninitialised
  /-- What the foreign function has written. -/
  | written (value : V)

/-- A returned output: the buffer that it was in, the type of the buffer, and the value. -/
structure Component (V : Type) where
  buffer : String
  type : String
  value : V
deriving Repr, DecidableEq

/-- How a wrapper ends. -/
inductive Returned (V : Type) where
  | nothing
  | raw (value : Int)
  | outputs (components : List (Component V))
  | success (components : List (Component V))
  | failure
deriving Repr, DecidableEq

/-- The state of a wrapper between two statements. -/
structure Frame (V : Type) where
  params : List (String × ParamType)
  /-- The buffers with their types, in the order in which they were declared. -/
  buffers : List (String × String)
  content : String → Content V
  /-- How often the foreign function has been called. -/
  calls : Nat
  /-- The raw value, if the call has kept it. -/
  raw : Option Int
  /-- The buffers that are assumed to be initialised, in the order of the assumptions. -/
  assumed : List String

/-- What a statement leads to. -/
inductive Progress (V : Type) where
  | next (frame : Frame V)
  | stop (outcome : Returned V)

namespace Frame

/-- The frame in which a wrapper starts. -/
def entry (params : List (String × ParamType)) : Frame V :=
  ⟨params, [], fun _ => .undeclared, 0, none, []⟩

/-! ### Statements -/

/-- The frame after the declarations of some buffers. -/
def declare (frame : Frame V) (buffers : List (String × String)) : Frame V :=
  { frame with
    buffers := frame.buffers ++ buffers
    content := fun name => if name ∈ buffers.map (·.1) then .uninitialised else frame.content name }

/-- Declares a buffer under a name that is free, before any call. -/
def allocate (frame : Frame V) (name type : String) : Option (Frame V) :=
  match frame.content name, frame.params.lookup name with
  | .undeclared, none => if frame.calls = 0 then some (frame.declare [(name, type)]) else none
  | _, _ => none

/-- Whether the storage of an argument is there: a parameter of the right kind, which is not written
through unless it is an exclusive reference, or a buffer that nothing has been written to. -/
def accepts (frame : Frame V) (a : CallArgument) : Bool :=
  match a.passing with
  | .value =>
    match frame.params.lookup a.storage with
    | some (.value _) => true
    | _ => false
  | .borrow access =>
    match frame.params.lookup a.storage with
    | some (.reference own _) => access = .exclusive → own = .exclusive
    | _ => false
  | .uninit =>
    match frame.content a.storage with
    | .uninitialised => true
    | _ => false

/-- The buffers that a call hands over. -/
def handedOver (arguments : List CallArgument) : List String :=
  (arguments.filter (·.passing == .uninit)).map (·.storage)

/-- The frame after the foreign function has written into some buffers and returned a raw value,
which may be kept. -/
def answer (frame : Frame V) (effect : ForeignEffect V) (names : List String) (captured : Bool) :
    Frame V :=
  { frame with
    content :=
      fun name => if name ∈ names then .written (effect.contents name) else frame.content name
    calls := frame.calls + 1
    raw := if captured then some effect.raw else none }

/-- Calls the foreign function, which may happen once. -/
def call (frame : Frame V) (effect : ForeignEffect V) (arguments : List CallArgument)
    (captured : Bool) : Option (Frame V) :=
  if frame.calls = 0 ∧ arguments.all frame.accepts then
    some (frame.answer effect (handedOver arguments) captured) else none

/-- The frame after some buffers have been assumed to be initialised. -/
def assume (frame : Frame V) (names : List String) : Frame V :=
  { frame with assumed := frame.assumed ++ names }

/-- Takes a buffer that has been written for initialised. -/
def assumeInit (frame : Frame V) (name : String) : Option (Frame V) :=
  match frame.content name with
  | .written _ => if name ∈ frame.assumed then none else some (frame.assume [name])
  | _ => none

/-- The content of a buffer that is assumed to be initialised, with the type of the buffer. -/
def component (frame : Frame V) (name : String) : Option (Component V) :=
  match frame.content name, frame.buffers.lookup name with
  | .written value, some type => if name ∈ frame.assumed then some ⟨name, type, value⟩ else none
  | _, _ => none

/-- Ends the wrapper. -/
def finish (frame : Frame V) : Ending → Option (Returned V)
  | .raw => frame.raw.map .raw
  | .outputs names => (names.mapM frame.component).map .outputs
  | .success names => (names.mapM frame.component).map .success

end Frame

/-! ## Runs -/

/-- **`s.exec effect frame`** -- what a statement does in a frame; nothing if it is stuck. -/
def Statement.exec (effect : ForeignEffect V) (frame : Frame V) : Statement → Option (Progress V)
  | .allocate name type => (frame.allocate name type).map .next
  | .call _ arguments captured => (frame.call effect arguments captured).map .next
  | .failUnlessZero => frame.raw.map fun raw => if raw = 0 then .next frame else .stop .failure
  | .assumeInit name => (frame.assumeInit name).map .next
  | .finish ending => (frame.finish ending).map .stop

/-- **`run effect frame statements`** -- the frame and the outcome with which the statements end;
nothing if one is stuck. -/
def run (effect : ForeignEffect V) : Frame V → List Statement → Option (Frame V × Returned V)
  | frame, [] => some (frame, .nothing)
  | frame, s :: rest =>
    match s.exec effect frame with
    | none => none
    | some (.next frame) => run effect frame rest
    | some (.stop outcome) => some (frame, outcome)

/-! ## Safety -/

/-- What holds between any two statements: buffers are declared once each and are written by the one
call alone, a raw value is kept from that call, and what is assumed to be initialised has been
written. -/
structure Frame.Sound (frame : Frame V) : Prop where
  undeclared_iff : ∀ name, frame.content name = .undeclared ↔ name ∉ frame.buffers.map (·.1)
  distinct : (frame.buffers.map (·.1)).Nodup
  calls_le_one : frame.calls ≤ 1
  called_of_written : ∀ name value, frame.content name = .written value → frame.calls = 1
  called_of_raw : ∀ value, frame.raw = some value → frame.calls = 1
  written_of_assumed : ∀ name ∈ frame.assumed, ∃ value, frame.content name = .written value

namespace Frame

variable {effect : ForeignEffect V} {frame next : Frame V}

theorem sound_entry (params : List (String × ParamType)) : (entry params : Frame V).Sound :=
  ⟨by simp [entry],
    List.nodup_nil, by simp [entry], by simp [entry], by simp [entry], by simp [entry]⟩

theorem Sound.allocate {name type : String} (h : frame.Sound)
    (hnext : frame.allocate name type = some next) : next.Sound := by
  unfold Frame.allocate at hnext
  split at hnext
  · rename_i hundeclared _
    split at hnext
    · cases hnext
      have hnew := (h.undeclared_iff name).mp hundeclared
      have hcontent : ∀ other value, frame.content other = .written value →
          (frame.declare [(name, type)]).content other = .written value := by
        intro other value hwritten
        have hne : other ∉ [(name, type)].map (·.1) := by
          rw [List.map_singleton, List.mem_singleton]
          rintro rfl
          rw [hundeclared] at hwritten
          cases hwritten
        exact (if_neg hne).trans hwritten
      refine ⟨?_, ?_, h.calls_le_one, ?_, h.called_of_raw, ?_⟩
      · intro other
        by_cases hother : other = name
        · simp [declare, hother]
        · simp [declare, hother, h.undeclared_iff other]
      · show ((frame.buffers ++ [(name, type)]).map (·.1)).Nodup
        rw [List.map_append, List.nodup_append]
        refine ⟨h.distinct, by simp, ?_⟩
        intro other hother name' hname' hsame
        rw [List.map_singleton, List.mem_singleton] at hname'
        rw [hsame, hname'] at hother
        exact hnew hother
      · intro other value hwritten
        by_cases hother : other = name
        · simp [declare, hother] at hwritten
        · exact h.called_of_written other value (by simpa [declare, hother] using hwritten)
      · intro other hassumed
        obtain ⟨value, hwritten⟩ := h.written_of_assumed other hassumed
        exact ⟨value, hcontent other value hwritten⟩
    · cases hnext
  · cases hnext

/-- A buffer that an accepted call hands over has not been written. -/
theorem content_of_handedOver {arguments : List CallArgument}
    (haccepts : arguments.all frame.accepts = true) {name : String}
    (hname : name ∈ handedOver arguments) : frame.content name = .uninitialised := by
  obtain ⟨a, ha, rfl⟩ := List.mem_map.mp hname
  obtain ⟨ha, hpassing⟩ := List.mem_filter.mp ha
  have haccept := List.all_eq_true.mp haccepts a ha
  rw [accepts, eq_of_beq hpassing] at haccept
  dsimp only at haccept
  split at haccept
  · rename_i huninitialised
    exact huninitialised
  · cases haccept

theorem Sound.call {arguments : List CallArgument} {captured : Bool} (h : frame.Sound)
    (hnext : frame.call effect arguments captured = some next) : next.Sound := by
  unfold Frame.call at hnext
  split at hnext
  · rename_i hcall
    obtain ⟨hcalls, haccepts⟩ := hcall
    cases hnext
    have hone : frame.calls + 1 = 1 := by omega
    refine ⟨?_, h.distinct, Nat.le_of_eq hone, fun _ _ _ => hone, fun _ _ => hone, ?_⟩
    · intro name
      show _ ↔ name ∉ frame.buffers.map (·.1)
      rw [← h.undeclared_iff name]
      by_cases hname : name ∈ handedOver arguments
      · simp [answer, hname, content_of_handedOver haccepts hname]
      · simp [answer, hname]
    · intro name hassumed
      -- before the call nothing has been written, so nothing is assumed
      obtain ⟨value, hwritten⟩ := h.written_of_assumed name hassumed
      have hcalled := h.called_of_written name value hwritten
      omega
  · cases hnext

theorem Sound.assumeInit {name : String} (h : frame.Sound)
    (hnext : frame.assumeInit name = some next) : next.Sound := by
  unfold Frame.assumeInit at hnext
  split at hnext
  · rename_i value hwritten
    split at hnext
    · cases hnext
    · cases hnext
      refine ⟨h.undeclared_iff, h.distinct, h.calls_le_one, h.called_of_written,
        h.called_of_raw, ?_⟩
      intro other hassumed
      rcases List.mem_append.mp hassumed with hassumed | hassumed
      · exact h.written_of_assumed other hassumed
      · rw [List.mem_singleton] at hassumed
        exact ⟨value, hassumed ▸ hwritten⟩
  · cases hnext

end Frame

section Safety

variable {effect : ForeignEffect V} {frame next : Frame V}

/-- One statement keeps a frame sound. -/
theorem Statement.exec_sound {s : Statement} (h : frame.Sound)
    (hnext : s.exec effect frame = some (.next next)) :
    next.Sound := by
  cases s with
  | allocate name type =>
    obtain ⟨_, hallocate, heq⟩ := Option.map_eq_some_iff.mp hnext
    cases heq
    exact h.allocate hallocate
  | call symbol arguments captured =>
    obtain ⟨_, hcall, heq⟩ := Option.map_eq_some_iff.mp hnext
    cases heq
    exact h.call hcall
  | failUnlessZero =>
    obtain ⟨raw, -, heq⟩ := Option.map_eq_some_iff.mp hnext
    split at heq
    · cases heq
      exact h
    · cases heq
  | assumeInit name =>
    obtain ⟨_, hassume, heq⟩ := Option.map_eq_some_iff.mp hnext
    cases heq
    exact h.assumeInit hassume
  | finish ending =>
    obtain ⟨_, -, heq⟩ := Option.map_eq_some_iff.mp hnext
    cases heq

/-- A run of any statements keeps a frame sound. -/
theorem run_sound {statements : List Statement} {outcome : Returned V} {final : Frame V}
    (h : frame.Sound)
    (hrun : run effect frame statements = some (final, outcome)) : final.Sound := by
  induction statements generalizing frame with
  | nil =>
    cases hrun
    exact h
  | cons s rest ih =>
    rw [run] at hrun
    split at hrun
    · cases hrun
    · rename_i next hnext
      exact ih (Statement.exec_sound h hnext) hrun
    · cases hrun
      exact h

end Safety

/-! ## What a signature announces -/

namespace ReturnShape

/-- The contents of the outputs, each under its type. -/
def components (effect : ForeignEffect V) (outputs types : List String) : List (Component V) :=
  List.zipWith (fun name type => ⟨name, type, effect.contents name⟩) outputs types

/-- **`returns.announced effect outputs`** -- what a wrapper with this return shape says it returns.
-/
def announced (effect : ForeignEffect V) (outputs : List String) : ReturnShape → Returned V
  | .unit => .nothing
  | .raw _ => .raw effect.raw
  | .outputs types => .outputs (components effect outputs types)
  | .result types .zeroIsOk =>
    if effect.raw = 0 then .success (components effect outputs types) else .failure

end ReturnShape

/-! ## Stretches -/

section Stretches

variable {effect : ForeignEffect V} {frame next : Frame V} {s : Statement} {rest : List Statement}

theorem run_next (h : s.exec effect frame = some (.next next)) :
    run effect frame (s :: rest) = run effect next rest := by
  rw [run, h]

theorem run_stop {outcome : Returned V} (h : s.exec effect frame = some (.stop outcome)) :
    run effect frame (s :: rest) = some (frame, outcome) := by
  rw [run, h]

theorem Frame.declare_nil : frame.declare [] = frame := by
  simp [declare]

theorem Frame.declare_cons {b : String × String} {buffers : List (String × String)} :
    (frame.declare [b]).declare buffers = frame.declare (b :: buffers) := by
  simp only [declare, List.map_cons, List.map_nil, List.mem_cons, List.not_mem_nil, or_false,
    List.append_assoc, List.singleton_append]
  congr 1
  funext name
  by_cases hmem : name ∈ buffers.map (·.1)
  · rw [if_pos hmem, if_pos (Or.inr hmem)]
  · rw [if_neg hmem]
    by_cases hname : name = b.1
    · rw [if_pos hname, if_pos (Or.inl hname)]
    · rw [if_neg hname, if_neg (by rintro (h | h) <;> contradiction)]

/-- Buffers with free, distinct names are declared one after another. -/
theorem run_allocations :
    ∀ {buffers : List (String × String)} {frame : Frame V}, frame.calls = 0 →
      (buffers.map (·.1)).Nodup →
      (∀ b ∈ buffers, frame.content b.1 = .undeclared ∧ frame.params.lookup b.1 = none) →
      run effect frame ((buffers.map fun b => .allocate b.1 b.2) ++ rest) =
          run effect (frame.declare buffers) rest := by
  intro buffers
  induction buffers with
  | nil =>
    intro frame _ _ _
    rw [List.map_nil, List.nil_append, Frame.declare_nil]
  | cons b buffers ih =>
    intro frame hcalls hnodup hfree
    rw [List.map_cons, List.nodup_cons] at hnodup
    rw [List.forall_mem_cons] at hfree
    obtain ⟨⟨hcontent, hparam⟩, hfree⟩ := hfree
    have hstep : (Statement.allocate b.1 b.2).exec effect frame =
        some (.next (frame.declare [b])) := by
      rw [Statement.exec, Frame.allocate, hcontent, hparam]
      dsimp only
      rw [if_pos hcalls]
      rfl
    have hcalls' : (frame.declare [b]).calls = 0 := hcalls
    rw [List.map_cons, List.cons_append, run_next hstep, ih hcalls' hnodup.2, Frame.declare_cons]
    -- the names that are left are still free, since none of them is the one just declared
    intro other hother
    obtain ⟨hundeclared, hnone⟩ := hfree other hother
    have hne : other.1 ∉ [b].map (·.1) := by
      rw [List.map_singleton, List.mem_singleton]
      intro hsame
      exact hnodup.1 (List.mem_map.mpr ⟨other, hother, hsame⟩)
    exact ⟨(if_neg hne).trans hundeclared, hnone⟩

/-- Buffers that have been written are assumed to be initialised one after another. -/
theorem run_assumptions :
    ∀ {names : List String} {frame : Frame V}, names.Nodup →
      (∀ name ∈ names, name ∉ frame.assumed) →
      (∀ name ∈ names, ∃ value, frame.content name = .written value) →
      run effect frame (names.map .assumeInit ++ rest) = run effect (frame.assume names) rest := by
  intro names
  induction names with
  | nil =>
    intro frame _ _ _
    rw [List.map_nil, List.nil_append, Frame.assume, List.append_nil]
  | cons name names ih =>
    intro frame hnodup hnew hwritten
    rw [List.nodup_cons] at hnodup
    rw [List.forall_mem_cons] at hnew hwritten
    obtain ⟨⟨value, hvalue⟩, hwritten⟩ := hwritten
    have hstep : (Statement.assumeInit name).exec effect frame =
        some (.next (frame.assume [name])) := by
      rw [Statement.exec, Frame.assumeInit, hvalue]
      dsimp only
      rw [if_neg hnew.1]
      rfl
    rw [List.map_cons, List.cons_append, run_next hstep, ih hnodup.2]
    · simp only [Frame.assume, List.append_assoc, List.singleton_append]
    · intro other hother hmem
      -- what is assumed now was assumed before or is `name`, which does not come again
      rcases List.mem_append.mp hmem with hmem | hmem
      · exact hnew.2 other hother hmem
      · rw [List.mem_singleton] at hmem
        exact hnodup.1 (hmem ▸ hother)
    · exact hwritten

/-- Buffers that are assumed to be initialised can all be returned. -/
theorem Frame.mapM_component {value : String → V} :
    ∀ {buffers : List (String × String)},
      (∀ b ∈ buffers, frame.content b.1 = .written (value b.1) ∧
        frame.buffers.lookup b.1 = some b.2 ∧
        b.1 ∈ frame.assumed) →
      (buffers.map (·.1)).mapM frame.component = some (buffers.map fun b =>
          ⟨b.1, b.2, value b.1⟩) := by
  intro buffers
  induction buffers with
  | nil =>
    intro _
    rfl
  | cons b buffers ih =>
    intro h
    rw [List.forall_mem_cons] at h
    obtain ⟨⟨hcontent, hlookup, hassumed⟩, hrest⟩ := h
    have hcomponent : frame.component b.1 = some ⟨b.1, b.2, value b.1⟩ := by
      rw [component, hcontent, hlookup]
      dsimp only
      rw [if_pos hassumed]
    rw [List.map_cons, List.mapM_cons, hcomponent, ih hrest]
    rfl

end Stretches

end Bindery
