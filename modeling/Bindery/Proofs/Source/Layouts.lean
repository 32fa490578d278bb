/-
# Bindery.Proofs.Source.Layouts -- a listing says the same on one line and on several.

A listing that is too wide is broken over lines, and its items get a comma each.  This changes
nothing but blanks and the comma behind the last item: without them, the lines spell the listing as
it stands on one line.  The items then have lines of their own, so a line that holds two of them is
one that was not broken, and not too wide.  Declarations, signatures and raw calls are listings, and
the laws below hold of all of them, whatever texts they are made of, as long as these hold no line
feed.
-/
import Bindery.Proofs.Text.Words
import Bindery.Source.SelfTest
import Mathlib.Data.List.ModifyLast

namespace Bindery

namespace Source

/-! ## Layouts -/

/-- The text without its spaces and line feeds. -/
def squeeze (text : String) : List Char :=
  text.toList.filter fun c => c != ' ' && c != '\n'

/-- The lines of some items, each with a comma behind it. -/
def itemLines (level : Nat) (items : List String) : List String :=
  items.map fun item => line level (item ++ ",")

/-- The lines with the last of them cut short by one character, which on the line of an item is its
comma. -/
def withoutLastComma (lines : List String) : List String :=
  lines.modifyLast fun l => String.ofList l.toList.dropLast

/-- **`Holds l items`** -- the items stand on the line side by side. -/
def Holds (l : String) (items : List String) : Prop :=
  ∃ before after, l = before ++ ", ".intercalate items ++ after

/-- **`IsLayout single items lines`** -- the lines lay out what the text `single` says on one line,
which lists these items. -/
structure IsLayout (single : String) (items lines : List String) : Prop where
  /-- No line is broken. -/
  lineFeed_notMem : ∀ l ∈ lines, '\n' ∉ l.toList
  /-- There is one line exactly if it has at most a hundred bytes. -/
  length_eq_one_iff : lines.length = 1 ↔ single.utf8ByteSize ≤ 100
  eq_singleton : single.utf8ByteSize ≤ 100 → lines = [single]
  /-- Otherwise every item has a line of its own, and but for blanks and the last comma the lines
  spell the text. -/
  eq_itemLines : 100 < single.utf8ByteSize → ∃ before level after,
    lines = before ++ itemLines level items ++ after ∧
      squeeze (ofLines (before ++ withoutLastComma (itemLines level items) ++ after)) =
        single.toList.filter (· != ' ')
  /-- The items are distributed over the lines in their order, and a line with two of them has at
  most a hundred bytes. -/
  narrow : ∃ rows : List (String × List String),
    rows.map Prod.fst = lines ∧ rows.flatMap Prod.snd = items ∧
      ∀ row ∈ rows, Holds row.1 row.2 ∧ (2 ≤ row.2.length → row.1.utf8ByteSize ≤ 100)

/-! ## Texts without blanks -/

@[simp] theorem squeeze_append (s t : String) : squeeze (s ++ t) = squeeze s ++ squeeze t := by
  simp [squeeze]

@[simp] theorem squeeze_line (level : Nat) (text : String) :
    squeeze (line level text) = squeeze text := by
  have hindent : squeeze (indent level) = [] := by simp [squeeze, indent]
  rw [line, squeeze_append, hindent, List.nil_append]

/-- The ends of lines leave nothing. -/
@[simp] theorem squeeze_ofLines (lines : List String) :
    squeeze (ofLines lines) = lines.flatMap squeeze := by
  induction lines with
  | nil => rfl
  | cons first others ih =>
    have hlineFeed : squeeze "\n" = [] := by decide
    simp [ih, hlineFeed]

/-- Where there is no line feed, there are only spaces to leave out. -/
theorem squeeze_eq_filter {text : String} (h : '\n' ∉ text.toList) :
    squeeze text = text.toList.filter (· != ' ') := by
  refine List.filter_congr ?_
  intro c hc
  have hne : c ≠ '\n' := fun hsame => h (hsame ▸ hc)
  simp [hne]

/-- Only the comma of the last item is left out. -/
theorem withoutLastComma_itemLines_concat (level : Nat) (items : List String) (last : String) :
    withoutLastComma (itemLines level (items ++ [last])) = itemLines level items ++
        [line level last] := by
  rw [withoutLastComma, itemLines, List.map_append, List.map_singleton, List.modifyLast_concat]
  simp [itemLines, line, String.ofList_append]

/-- Without blanks, lines of items with no comma behind the last one are the items separated by
commas. -/
theorem flatMap_squeeze_itemLines (level : Nat) (items : List String) :
    (withoutLastComma (itemLines level items)).flatMap squeeze =
        squeeze (", ".intercalate items) := by
  have hcomma : squeeze "," = [','] := by decide
  have hbetween : squeeze ", " = [','] := by decide
  rcases List.eq_nil_or_concat' items with rfl | ⟨items, last, rfl⟩
  · rfl
  · rw [withoutLastComma_itemLines_concat, List.flatMap_append,
      List.flatMap_singleton, squeeze_line]
    induction items with
    | nil => simp [itemLines]
    | cons first others ih =>
      rw [List.cons_append, String.intercalate_cons_of_ne_nil (by simp)]
      simp [itemLines, hcomma, hbetween, ← ih]

/-- A margin holds no line feed. -/
@[simp] theorem lineFeed_mem_line_iff {level : Nat} {text : String} :
    '\n' ∈ (line level text).toList ↔ '\n' ∈ text.toList := by
  simp [line, indent]

/-- Joined items hold no line feed if none of them does. -/
theorem lineFeed_notMem_items {items : List String} (h : ∀ item ∈ items, '\n' ∉ item.toList) :
    '\n' ∉ (", ".intercalate items).toList := by
  intro hmem
  rw [String.toList_intercalate] at hmem
  rcases Text.mem_of_mem_intercalate hmem with hbetween | ⟨part, hpart, hc⟩
  · exact absurd hbetween (by decide)
  · obtain ⟨item, hitem, rfl⟩ := List.mem_map.mp hpart
    exact h item hitem hc

/-! ## Listings -/

namespace Listing

/-- The lines in front of the items where these have lines of their own. -/
def before (l : Listing) : List String :=
  match l.block with
  | none => [line l.level l.opening]
  | some block => [line l.level block.opening, line (l.level + 1) l.opening]

/-- The level of these items. -/
def itemLevel (l : Listing) : Nat :=
  if l.block.isSome then l.level + 2 else l.level + 1

/-- The lines behind these items. -/
def after (l : Listing) : List String :=
  match l.block with
  | none => [line l.level l.closing]
  | some block => [line (l.level + 1) l.closing, line l.level block.closing]

theorem stacked_eq (l : Listing) :
    l.stacked = l.before ++ itemLines l.itemLevel l.items ++ l.after := by
  cases hblock : l.block <;> simp [stacked, stackedAt, before, itemLevel, after, itemLines, hblock]

/-- **`l.Unbroken`** -- no text of the listing holds a line feed. -/
structure Unbroken (l : Listing) : Prop where
  opening : '\n' ∉ l.opening.toList
  items : ∀ item ∈ l.items, '\n' ∉ item.toList
  closing : '\n' ∉ l.closing.toList
  block : ∀ block ∈ l.block, '\n' ∉ block.opening.toList ∧ '\n' ∉ block.closing.toList

variable {l : Listing}

theorem Unbroken.lineFeed_notMem_oneLine (h : l.Unbroken) : '\n' ∉ l.oneLine.toList := by
  have hinner : '\n' ∉ l.inner.toList := by
    rw [inner, String.toList_append, String.toList_append, List.mem_append, List.mem_append]
    exact not_or.mpr ⟨not_or.mpr ⟨h.opening, lineFeed_notMem_items h.items⟩, h.closing⟩
  rw [oneLine, lineFeed_mem_line_iff]
  cases hblock : l.block with
  | none => exact hinner
  | some block => simp [h.block block hblock, hinner]

theorem Unbroken.lineFeed_notMem_stacked (h : l.Unbroken) :
    ∀ text ∈ l.stacked, '\n' ∉ text.toList := by
  have hbefore : ∀ text ∈ l.before, '\n' ∉ text.toList := by
    cases hblock : l.block with
    | none => simp [before, hblock, h.opening]
    | some block => simp [before, hblock, h.opening, h.block block hblock]
  have hitems : ∀ text ∈ itemLines l.itemLevel l.items, '\n' ∉ text.toList := by
    intro text htext
    obtain ⟨item, hitem, rfl⟩ := List.mem_map.mp htext
    simp [h.items item hitem]
  have hafter : ∀ text ∈ l.after, '\n' ∉ text.toList := by
    cases hblock : l.block with
    | none => simp [after, hblock, h.closing]
    | some block => simp [after, hblock, h.closing, h.block block hblock]
  rw [stacked_eq, List.forall_mem_append, List.forall_mem_append]
  exact ⟨⟨hbefore, hitems⟩, hafter⟩

/-- Without blanks, the lines with no comma behind the last item are the line. -/
theorem squeeze_stacked (l : Listing) :
    squeeze (ofLines (l.before ++ withoutLastComma (itemLines l.itemLevel l.items) ++ l.after)) =
        squeeze l.oneLine := by
  have hspace : squeeze " " = [] := by decide
  rw [squeeze_ofLines, List.flatMap_append, List.flatMap_append, flatMap_squeeze_itemLines]
  cases hblock : l.block <;> simp [before, after, oneLine, inner, hblock, hspace]

/-- The line holds all items. -/
theorem holds_oneLine (l : Listing) : Holds l.oneLine l.items := by
  cases hblock : l.block with
  | none =>
    exact ⟨indent l.level ++ l.opening,
      l.closing, by simp [oneLine, line, inner, hblock, String.append_assoc]⟩
  | some block =>
    exact ⟨indent l.level ++ block.opening ++ " " ++ l.opening, l.closing ++ " " ++ block.closing,
      by simp [oneLine, line, inner, hblock, String.append_assoc]⟩

/-- The lines with what they hold, where the items have lines of their own. -/
def rows (l : Listing) : List (String × List String) :=
  l.before.map (·, []) ++ l.items.map (fun item => (line l.itemLevel (item ++ ","), [item])) ++
    l.after.map (·, [])

theorem map_fst_rows (l : Listing) : l.rows.map Prod.fst = l.stacked := by
  simp [rows, stacked_eq, itemLines, Function.comp_def]

theorem flatMap_snd_rows (l : Listing) : l.rows.flatMap Prod.snd = l.items := by
  have hframe : ∀ texts : List String, (texts.map fun text => (text, ([] : List String))).flatMap
    Prod.snd = [] := by simp
  rw [rows, List.flatMap_append, List.flatMap_append, hframe, hframe]
  simp [List.flatMap_map]

/-- A row holds at most one item. -/
theorem holds_of_mem_rows {row : String × List String} (h : row ∈ l.rows) :
    Holds row.1 row.2 ∧ row.2.length ≤ 1 := by
  have hframe : ∀ texts : List String, row ∈ texts.map (·, []) → Holds row.1 row.2 ∧
      row.2.length ≤ 1 := by
    intro texts hrow
    obtain ⟨text, -, rfl⟩ := List.mem_map.mp hrow
    exact ⟨⟨text, "", by simp⟩, by simp⟩
  rw [rows, List.mem_append, List.mem_append] at h
  rcases h with (h | h) | h
  · exact hframe _ h
  · obtain ⟨item, -, rfl⟩ := List.mem_map.mp h
    exact ⟨⟨indent l.itemLevel, ",", by simp [line, String.append_assoc]⟩, by simp⟩
  · exact hframe _ h

/-- **A listing is laid out as its text on one line says.** -/
theorem Unbroken.isLayout (h : l.Unbroken) : IsLayout l.oneLine l.items l.lines := by
  by_cases hwidth : l.oneLine.utf8ByteSize ≤ 100
  · have hlines : l.lines = [l.oneLine] := if_pos hwidth
    rw [hlines]
    exact {
      lineFeed_notMem := List.forall_mem_singleton.mpr h.lineFeed_notMem_oneLine
      length_eq_one_iff := by simp [hwidth]
      eq_singleton := fun _ => rfl
      eq_itemLines := fun hwide => absurd hwidth (by omega)
      narrow := ⟨[(l.oneLine, l.items)], rfl, by simp, by simp [l.holds_oneLine, hwidth]⟩ }
  · have hlines : l.lines = l.stacked := if_neg hwidth
    have hlength : 2 ≤ l.stacked.length := by
      cases hblock : l.block <;> simp [stacked, stackedAt, hblock]
    rw [hlines]
    exact {
      lineFeed_notMem := h.lineFeed_notMem_stacked
      length_eq_one_iff := by omega
      eq_singleton := fun hnarrow => absurd hnarrow hwidth
      eq_itemLines := fun _ => by
        refine ⟨l.before, l.itemLevel, l.after, l.stacked_eq, ?_⟩
        rw [squeeze_stacked, squeeze_eq_filter h.lineFeed_notMem_oneLine]
      narrow := by
        refine ⟨l.rows, l.map_fst_rows, l.flatMap_snd_rows, fun row hrow => ?_⟩
        obtain ⟨hholds, hone⟩ := holds_of_mem_rows hrow
        exact ⟨hholds, fun htwo => by omega⟩ }

end Listing

end Source

open Source

/-! ## Constructs -/

/-- A declaration on one line. -/
def Declaration.single (d : Declaration) : String :=
  "    pub fn " ++ d.symbol ++ "(" ++ ", ".intercalate (d.params.map fun p =>
    typed p.1 p.2.render) ++ ")" ++
    arrow (d.returns.map ForeignType.render) ++ ";"

/-- The header of a wrapper on one line. -/
def Signature.single (s : Signature) : String :=
  "pub fn " ++ s.name ++ "(" ++ ", ".intercalate (s.params.map fun p => typed p.1 p.2.render) ++
    ")" ++
    arrow s.returns.render? ++ " \x7b"

/-- A raw call on one line, behind a margin and what binds its value. -/
def Source.callText (front symbol : String) (operands : List String) : String :=
  front ++ "unsafe \x7b " ++ symbol ++ "(" ++ ", ".intercalate operands ++ ") \x7d;"

theorem Source.toList_indent_one : (indent 1).toList = "    ".toList := by
  decide

theorem Declaration.single_eq (d : Declaration) : d.single = d.listing.oneLine := by
  rw [← String.toList_inj]
  unfold single
  simp [listing, Listing.oneLine, Listing.inner, line, toList_indent_one]

theorem Signature.single_eq (s : Signature) : s.single = s.listing.oneLine := by
  have hmargin : (indent 0).toList = [] := by decide
  rw [← String.toList_inj]
  unfold single
  simp [listing, Listing.oneLine, Listing.inner, line, hmargin]

theorem Source.oneLine_callListing (level : Nat) (binding symbol : String)
    (operands : List String) :
    (callListing level binding symbol operands).oneLine = callText (line level binding) symbol
        operands := by
  rw [← String.toList_inj]
  unfold callText
  simp [callListing, Listing.oneLine, Listing.inner, line]

/-- What is broken over lines where it is too wide. -/
inductive Construct where
  | declaration (d : Declaration)
  /-- The signature of a wrapper. -/
  | header (s : Signature)
  /-- A raw call in the body of a wrapper. -/
  | call (w : Wrapper) (symbol : String) (arguments : List CallArgument) (captured : Bool)
  /-- A raw call in a self-test. -/
  | testCall (symbol : String) (operands : List Operand)

namespace Construct

/-- The lines that are written. -/
def lines : Construct → List String
  | .declaration d => d.listing.lines
  | .header s => s.listing.lines
  | .call w symbol arguments captured =>
    Statement.lines w.resultName (.call symbol arguments captured)
  | .testCall symbol operands => TestStatement.lines (.call symbol operands)

/-- The construct on one line. -/
def single : Construct → String
  | .declaration d => d.single
  | .header s => s.single
  | .call w symbol arguments captured =>
    callText (if captured then "    let " ++ w.resultName ++ " = " else "    ") symbol
      (arguments.map CallArgument.render)
  | .testCall symbol operands => callText "        let res = " symbol (operands.map Operand.render)

/-- The parameters or arguments. -/
def items : Construct → List String
  | .declaration d => d.params.map fun p => typed p.1 p.2.render
  | .header s => s.params.map fun p => typed p.1 p.2.render
  | .call _ _ arguments _ => arguments.map CallArgument.render
  | .testCall _ operands => operands.map Operand.render

/-- The name or symbol and the return type. -/
def frame : Construct → List String
  | .declaration d => d.symbol :: (d.returns.map ForeignType.render).toList
  | .header s => s.name :: s.returns.render?.toList
  | .call _ symbol _ _ => [symbol]
  | .testCall symbol _ => [symbol]

/-- The listing of the construct. -/
def listing : Construct → Listing
  | .declaration d => d.listing
  | .header s => s.listing
  | .call w symbol arguments captured =>
    callListing 1 (if captured then binding w.resultName else "") symbol
      (arguments.map CallArgument.render)
  | .testCall symbol operands =>
    callListing 2 (binding rawValue) symbol (operands.map Operand.render)

theorem lines_eq (c : Construct) : c.lines = c.listing.lines := by
  cases c <;> rfl

theorem items_eq (c : Construct) : c.items = c.listing.items := by
  cases c <;> rfl

theorem single_eq (c : Construct) : c.single = c.listing.oneLine := by
  cases c with
  | declaration d => exact d.single_eq
  | header s => exact s.single_eq
  | call w symbol arguments captured =>
    have hfront : (if captured then "    let " ++ w.resultName ++ " = " else "    ") =
        line 1 (if captured then binding w.resultName else "") := by
      rw [← String.toList_inj]
      cases captured <;> simp [line, toList_indent_one, binding]
    exact (congrArg (callText · symbol _) hfront).trans (oneLine_callListing 1 _ symbol _).symm
  | testCall symbol operands =>
    have hfront : "        let res = " = line 2 (binding rawValue) := by decide
    exact (congrArg (callText · symbol _) hfront).trans (oneLine_callListing 2 _ symbol _).symm

/-- The mark of a return type holds no line feed if the type does not. -/
theorem lineFeed_notMem_arrow {returns : Option String}
    (h : ∀ text ∈ returns.toList, '\n' ∉ text.toList) :
    '\n' ∉ (arrow returns).toList := by
  cases returns with
  | none => simp [arrow]
  | some type =>
    have htype : '\n' ∉ type.toList := h type (by simp)
    simp [arrow, htype]

/-- The name of a raw value holds no line feed. -/
theorem lineFeed_notMem_resultName (w : Wrapper) : '\n' ∉ w.resultName.toList := by
  simp [Wrapper.resultName, freshName, Source.resultName]

/-- Where the texts of a construct hold no line feed, its listing has none. -/
theorem unbroken_listing {c : Construct} (h : ∀ text ∈ c.frame ++ c.items, '\n' ∉ text.toList) :
    c.listing.Unbroken := by
  obtain ⟨hframe, hitems⟩ := List.forall_mem_append.mp h
  cases c with
  | declaration d =>
    obtain ⟨hsymbol, hreturns⟩ := List.forall_mem_cons.mp hframe
    exact ⟨by simp [listing, Declaration.listing, hsymbol], hitems,
      by simp [listing, Declaration.listing, lineFeed_notMem_arrow hreturns], by
        simp [listing, Declaration.listing]⟩
  | header s =>
    obtain ⟨hname, hreturns⟩ := List.forall_mem_cons.mp hframe
    exact ⟨by simp [listing, Signature.listing, hname], hitems,
      by
        simp [listing, Signature.listing, lineFeed_notMem_arrow hreturns], by
          simp [listing, Signature.listing]⟩
  | call w symbol arguments captured =>
    have hsymbol : '\n' ∉ symbol.toList := hframe symbol (by simp [frame])
    have hresult := lineFeed_notMem_resultName w
    refine ⟨by simp [listing, callListing, hsymbol], hitems, by simp [listing, callListing], ?_⟩
    cases captured <;> simp [listing, callListing, binding, hresult]
  | testCall symbol operands =>
    have hsymbol : '\n' ∉ symbol.toList := hframe symbol (by simp [frame])
    exact ⟨by simp [listing, callListing, hsymbol], hitems, by simp [listing, callListing],
      by simp [listing, callListing, binding, rawValue]⟩

end Construct

/-- **Every construct is laid out as its text on one line says**, whatever texts it is made of, as
long as they hold no line feed.  It stands on one line exactly if that has at most a hundred bytes.
Otherwise each parameter or argument has a line of its own, in order; without blanks, and without
the comma behind the last item, the lines spell the line; and a line with two items on it has at
most a hundred bytes. -/
theorem constructs_laid_out (c : Construct) (h : ∀ text ∈ c.frame ++ c.items, '\n' ∉ text.toList) :
    IsLayout c.single c.items c.lines := by
  rw [c.single_eq, c.items_eq, c.lines_eq]
  exact (Construct.unbroken_listing h).isLayout

/-- A declaration of a hundred characters and one byte more. -/
def wideDeclaration : Construct :=
  .declaration ⟨"PQCLEAN_DILITHIUM2_CLEAN_derive",
    [("länge", .value "usize"), ("label", .pointer .shared "Tag"),
    ("digest", .pointer .exclusive "Key")], some (.value "u8")⟩

/-- Bytes are counted, and not characters: the declaration is one byte too wide and is broken over
five lines. -/
theorem wideDeclaration_laid_out :
    wideDeclaration.single.length = 100 ∧ wideDeclaration.single.utf8ByteSize = 101 ∧
      wideDeclaration.lines.length = 5 ∧
      IsLayout wideDeclaration.single wideDeclaration.items wideDeclaration.lines := by
  refine ⟨by decide +kernel, by decide +kernel, by decide +kernel, ?_⟩
  exact constructs_laid_out wideDeclaration (by decide +kernel)

end Bindery
