/-
# Bindery.Proofs.Source.Declarations -- the text of a block tells its declarations.

The block of foreign functions can be read back.  A declaration's symbol ends at its parenthesis,
what follows it tells whether the parameters stand on one line or on lines of their own, a
parameter's name ends at its colon and its type at the next comma or closing parenthesis, and a
return type ends with its line.  So declarations cut off, and a block is a list of them that ends at
its brace.
-/
import Bindery.Proofs.Catalog.Types
import Bindery.Proofs.Text.Cuts
import Bindery.Source.Unit

namespace Bindery

open Source Text

/-! ## Plain names and types -/

/-- **`IsWord name`** -- a run of letters, digits and underscores, of which there is at least one.
-/
def Source.IsWord (name : String) : Prop :=
  name ≠ "" ∧ ∀ c ∈ name.toList, c.isAlphanum = true ∨ c = '_'

/-- **`t.Plain`** -- the text of the type holds no comma and no parenthesis. -/
def ForeignType.Plain (t : ForeignType) : Prop :=
  ∀ c ∈ t.render.toList, c ≠ ',' ∧ c ≠ '(' ∧ c ≠ ')'

/-- **`f.Plain`** -- the names of the function are words and its types are plain. -/
structure ForeignFunction.Plain (f : ForeignFunction) : Prop where
  name : IsWord f.name
  arguments : ∀ a ∈ f.arguments, IsWord a.name ∧ a.type.Plain
  returns : ∀ t ∈ f.returns, t.Plain

instance (name : String) : Decidable (IsWord name) :=
  decidable_of_iff (name ≠ "" ∧ (name.toList.all fun c => c.isAlphanum || c == '_') = true)
    (by simp [IsWord])

instance (t : ForeignType) : Decidable t.Plain :=
  decidable_of_iff ((t.render.toList.all fun c => c != ',' && c != '(' && c != ')') = true)
    (by simp [ForeignType.Plain, and_assoc])

instance (f : ForeignFunction) : Decidable f.Plain :=
  decidable_of_iff
    (IsWord f.name ∧ (∀ a ∈ f.arguments, IsWord a.name ∧ a.type.Plain) ∧
    ∀ t ∈ f.returns.toList, t.Plain)
    ⟨fun ⟨hname, harguments, hreturns⟩ =>
      ⟨hname, harguments, fun t ht => hreturns t (Option.mem_toList.mpr ht)⟩, fun h =>
        ⟨h.name, h.arguments, fun t ht => h.returns t (Option.mem_toList.mp ht)⟩⟩

/-- No character of a word is a mark of a listing. -/
theorem Source.IsWord.notMem {name : String} (h : IsWord name) {c : Char}
    (hc : c.isAlphanum = false) (hunderscore : c ≠ '_') :
    c ∉ name.toList := by
  intro hmem
  rcases h.2 c hmem with halphanum | hsame
  · rw [hc] at halphanum
    cases halphanum
  · exact hunderscore hsame

/-- A word starts with one of its characters. -/
theorem Source.IsWord.exists_cons {name : String} (h : IsWord name) :
    ∃ first rest, name.toList = first :: rest ∧ first ∈ name.toList := by
  cases hname : name.toList with
  | nil => exact absurd (String.toList_eq_nil_iff.mp hname) h.1
  | cons first rest => exact ⟨first, rest, rfl, List.mem_cons_self⟩

/-! ## Parameters -/

/-- A parameter as it is written. -/
def Source.paramText (p : String × ForeignType) : List Char :=
  (typed p.1 p.2.render).toList

/-- **`IsPlainParam p`** -- the parameter can be told from what is written for it. -/
def Source.IsPlainParam (p : String × ForeignType) : Prop :=
  IsWord p.1 ∧ p.2.Spelled ∧ p.2.Plain

theorem Source.paramText_eq (p : String × ForeignType) :
    paramText p = p.1.toList ++ ':' :: ' ' :: p.2.render.toList := by
  simp [paramText, typed]

/-- A name ends at its colon, and a type ends at a comma or a closing parenthesis. -/
theorem Source.cutsAt_paramText : CutsAt IsPlainParam paramText fun c => c = ',' ∨ c = ')' := by
  rintro ⟨name, type⟩ ⟨name', type'⟩ x x' rest rest' ⟨hword, hspelled, hplain⟩ ⟨hword', hspelled',
    hplain'⟩ hx hx' hsame
  simp only [paramText_eq, List.append_assoc, List.cons_append] at hsame
  have hends : ∀ {type : ForeignType}, type.Plain → ∀ c ∈ type.render.toList,
      ¬ (c = ',' ∨ c = ')') := by
    rintro type hplain c hc (rfl | rfl)
    · exact (hplain _ hc).1 rfl
    · exact (hplain _ hc).2.2 rfl
  obtain ⟨hname, htail⟩ :=
    append_separator_inj hsame (hword.notMem (by decide) (by decide))
      (hword'.notMem (by decide) (by decide))
  obtain ⟨htype, hmark, hrest⟩ :=
    append_stop_inj (fun c => c = ',' ∨ c = ')') (List.cons.inj htail).2 hx hx' (hends hplain)
      (hends hplain')
  refine ⟨?_, hmark, hrest⟩
  rw [Prod.mk.injEq]
  exact ⟨String.toList_inj.mp hname, hspelled.render_inj hspelled' (String.toList_inj.mp htype)⟩

/-- No parameter starts with a character that a word does not have. -/
theorem Source.opensApart_paramText {c : Char} (hc : c.isAlphanum = false) (hunderscore : c ≠ '_') :
    OpensApart IsPlainParam paramText c := by
  rintro ⟨name, type⟩ ⟨hword, -, -⟩
  obtain ⟨first, others, hname, hfirst⟩ := hword.exists_cons
  refine ⟨first,
    others ++ ':' :: ' ' :: type.render.toList, by rw [paramText_eq, hname, List.cons_append], ?_⟩
  rintro rfl
  exact hword.notMem hc hunderscore hfirst

/-! ## Lists of parameters -/

/-- The margin of a declaration. -/
def Source.margin : List Char :=
  (indent 1).toList

/-- A parameter on a line of its own, up to the margin of the next line. -/
def Source.stackedParam (p : String × ForeignType) : List Char :=
  margin ++ (paramText p ++ ',' :: '\n' :: margin)

/-- **`paramsText stacked params`** -- what stands between the opening parenthesis and the return
type: the parameters on one line, or each on a line of its own. -/
def Source.paramsText (stacked : Bool) (params : List (String × ForeignType)) : List Char :=
  if stacked then '\n' :: (margin ++ closedBy stackedParam ')' params) else separatedBy paramText
    ',' [' '] ')' params

theorem Source.cutsOff_stackedParam : CutsOff IsPlainParam stackedParam := by
  intro p p' rest rest' hp hp' hsame
  simp only [stackedParam, List.append_assoc, List.cons_append] at hsame
  obtain ⟨rfl, -, htail⟩ :=
    cutsAt_paramText hp hp' (Or.inl rfl) (Or.inl rfl) (List.append_cancel_left hsame)
  exact ⟨rfl, List.append_cancel_left (List.cons.inj htail).2⟩

/-- On one line, a list of parameters opens with a name or is closed at once. -/
theorem Source.paramsText_false_ne (params : List (String × ForeignType))
    (hparams : ∀ p ∈ params, IsPlainParam p)
    (rest rest' : List Char) : paramsText false params ++ rest ≠ '\n' :: rest' := by
  cases params with
  | nil => simp [paramsText, separatedBy]
  | cons p params =>
    obtain ⟨first, others, hwrite, hne⟩ :=
      opensApart_paramText (c := '\n') (by decide) (by decide) p (hparams p List.mem_cons_self)
    intro hsame
    simp only [paramsText, separatedBy, List.map_cons, hwrite, List.intercalate_cons_cons_left]
      at hsame
    exact hne (List.cons.inj hsame).1

/-- **A list of parameters can be taken off the front of a text**, whichever way it stands there. -/
theorem Source.paramsText_inj {stacked stacked' : Bool}
    {params params' : List (String × ForeignType)} {rest rest' : List Char}
    (hparams : ∀ p ∈ params, IsPlainParam p) (hparams' : ∀ p ∈ params', IsPlainParam p)
    (h : paramsText stacked params ++ rest = paramsText stacked' params' ++ rest') :
    params = params' ∧ rest = rest' := by
  -- a line feed at the front tells that the parameters stand on lines of their own
  cases stacked with
  | false =>
    cases stacked' with
    | false =>
      exact cutsAt_paramText.separatedBy (opensApart_paramText (by decide) (by decide)) (by decide)
        hparams hparams' h
    | true => exact absurd h (paramsText_false_ne params hparams rest _)
  | true =>
    cases stacked' with
    | false => exact absurd h.symm (paramsText_false_ne params' hparams' rest' _)
    | true =>
      simp only [paramsText, if_true, List.cons_append, List.append_assoc] at h
      have hopens : OpensApart IsPlainParam stackedParam ')' := fun p _ => ⟨' ', _, rfl, by decide⟩
      exact cutsOff_stackedParam.closedBy hopens hparams hparams'
        (List.append_cancel_left (List.cons.inj h).2)

/-! ## Return types -/

/-- What stands behind the parameters of a declaration: its return type and the end of its line. -/
def Source.returnText (returns : Option ForeignType) : List Char :=
  (arrow (returns.map ForeignType.render) ++ ";\n").toList

theorem Source.cutsOff_returnText :
    CutsOff (fun returns => ∀ t ∈ returns, t.Spelled) returnText := by
  intro returns returns' rest rest' hreturns hreturns' h
  cases returns with
  | none =>
    cases returns' with
    | none => exact ⟨rfl, List.append_cancel_left h⟩
    | some t' => simp [returnText, arrow] at h
  | some t =>
    cases returns' with
    | none => simp [returnText, arrow] at h
    | some t' =>
      -- the type is read up to the end of the line, and then without its semicolon
      have hline : ∀ {t : ForeignType}, t.Spelled → '\n' ∉ t.render.toList ++ [';'] := by
        intro t hspelled hmem
        rcases List.mem_append.mp hmem with hmem | hmem
        · exact hspelled.lineFeed_notMem_render hmem
        · exact absurd hmem (by decide)
      have hlines : (t.render.toList ++ [';']) ++ '\n' :: rest = (t'.render.toList ++ [';']) ++
          '\n' :: rest' := by
        simpa [returnText, arrow] using h
      obtain ⟨htype, hrest⟩ :=
        append_separator_inj hlines (hline (hreturns t rfl)) (hline (hreturns' t' rfl))
      have hrender : t.render = t'.render := String.toList_inj.mp (List.append_cancel_right htype)
      rw [(hreturns t rfl).render_inj (hreturns' t' rfl) hrender]
      exact ⟨rfl, hrest⟩

/-! ## Declarations -/

/-- **`d.Plain stem`** -- the declaration can be told from its text: its symbol is a word behind the
stem, and its types are spelled. -/
structure Declaration.Plain (stem : String) (d : Declaration) : Prop where
  symbol : ∃ name, IsWord name ∧ d.symbol = stem ++ name
  params : ∀ p ∈ d.params, IsPlainParam p
  returns : ∀ t ∈ d.returns, t.Spelled

/-- The text of a declaration. -/
def Declaration.text (d : Declaration) : List Char :=
  (ofLines d.listing.lines).toList

/-- Parameters on lines of their own, with the margin of what closes them: a margin is followed by
items that end with one. -/
theorem Source.toList_stackedParams (params : List (String × ForeignType)) :
    (ofLines (params.map fun p => line 2 (typed p.1 p.2.render ++ ","))).toList ++ margin =
      margin ++ params.flatMap stackedParam := by
  induction params with
  | nil => simp
  | cons p params ih =>
    -- of the two margins in front of an item, the first one closes what stands before it
    have hmargins : (indent 2).toList = margin ++ margin := by decide
    rw [List.map_cons, List.flatMap_cons, ofLines_cons]
    simp only [line, String.toList_append, hmargins, List.append_assoc] at ih ⊢
    rw [ih]
    simp [stackedParam, paramText]

/-- A declaration stands on one line or on several: what differs is how its parameters are listed.
-/
theorem Declaration.exists_text_eq (d : Declaration) : ∃ stacked,
    d.text = margin ++
        ("pub fn ".toList ++
          (d.symbol.toList ++ '(' :: (paramsText stacked d.params ++ returnText d.returns))) := by
  rw [text, Listing.lines]
  split
  · refine ⟨false, ?_⟩
    have hitems : (d.params.map fun p => (typed p.1 p.2.render).toList) = d.params.map paramText :=
      rfl
    simp [Listing.oneLine, Listing.inner, listing, line, paramsText, separatedBy, returnText,
      margin, Function.comp_def, hitems]
  · refine ⟨true, ?_⟩
    have hlines : d.listing.stacked =
        [line 1 ("pub fn " ++ d.symbol ++ "(")] ++ (d.params.map fun p =>
          line 2 (typed p.1 p.2.render ++ ",")) ++
          [line 1 (")" ++ arrow (d.returns.map ForeignType.render) ++ ";")] := by
      simp [Listing.stacked, Listing.stackedAt, listing, Function.comp_def]
    have hparams := congrArg (· ++ ')' :: returnText d.returns) (toList_stackedParams d.params)
    simp only [List.append_assoc] at hparams
    rw [hlines]
    simpa [paramsText, closedBy, line, returnText, margin] using hparams

/-- **A declaration can be taken off the front of a text.** -/
theorem Declaration.cutsOff_text (stem : String) : CutsOff (Declaration.Plain stem) text := by
  intro d d' rest rest' hd hd' h
  obtain ⟨stacked, htext⟩ := d.exists_text_eq
  obtain ⟨stacked', htext'⟩ := d'.exists_text_eq
  obtain ⟨name, hname, hsymbol⟩ := hd.symbol
  obtain ⟨name', hname', hsymbol'⟩ := hd'.symbol
  rw [htext, htext', hsymbol, hsymbol'] at h
  simp only [String.toList_append, List.append_assoc, List.append_cancel_left_eq,
    List.cons_append] at h
  -- the symbol goes up to its parenthesis; the parameters and the return type are taken off behind
  -- it
  obtain ⟨hsame, htail⟩ :=
    append_separator_inj h (hname.notMem (by decide) (by decide))
      (hname'.notMem (by decide) (by decide))
  obtain ⟨hparams, htail⟩ := paramsText_inj hd.params hd'.params htail
  obtain ⟨hreturns, hrest⟩ := cutsOff_returnText hd.returns hd'.returns htail
  refine ⟨?_, hrest⟩
  rw [Declaration.mk.injEq, hsymbol, hsymbol', String.toList_inj.mp hsame]
  exact ⟨rfl, hparams, hreturns⟩

/-! ## Blocks -/

/-- Blocks of lines with an empty line between them. -/
theorem Source.toList_intercalate (blocks : List (List String)) :
    (ofLines ([""].intercalate blocks)).toList = ['\n'].intercalate (blocks.map fun lines =>
        (ofLines lines).toList) := by
  induction blocks with
  | nil => rfl
  | cons lines blocks ih =>
    cases blocks with
    | nil => simp
    | cons next blocks =>
      rw [List.map_cons] at ih ⊢
      simp [ih]

/-- The declarations of a unit up to the brace that closes their block. -/
def Source.blockText (declarations : List Declaration) : List Char :=
  separatedBy Declaration.text '\n' [] '\x7d' declarations

/-- **A block of declarations can be taken off the front of a text.** -/
theorem Source.cutsOff_blockText (stem : String) :
    CutsOff (fun declarations => ∀ d ∈ declarations, d.Plain stem) blockText := by
  refine ((Declaration.cutsOff_text stem).cutsAt _).separatedBy ?_ (by decide)
  intro d _
  obtain ⟨stacked, htext⟩ := d.exists_text_eq
  exact ⟨' ', _, htext, by decide⟩

theorem SourceUnit.toList_foreignLines (u : SourceUnit) :
    (ofLines u.foreignLines).toList =
      (ofLines ["#[link(name = \"" ++ u.variant.linkName ++ "\")]", "extern \"C\" \x7b"]).toList ++
        (blockText u.declarations ++ ['\n']) := by
  have htexts : (u.declarations.map fun d => (ofLines d.listing.lines).toList) =
    u.declarations.map Declaration.text := rfl
  simp [foreignLines, toList_intercalate, blockText, separatedBy, Function.comp_def, htexts]

end Bindery
