/-
# Bindery.Proofs.Files.Ancestors -- names below the paths that a path lies in.

A path and the paths that it lies in have segments in common: those of the outer path are first
segments of the inner path.  So where a path leads to a directory, each of the others does, and the
way to a name below any of them is there.
-/
import Bindery.Proofs.Files.Locations
import Bindery.Text.Blank

namespace Bindery

namespace Path

variable {p : Path} {name : String}

/-! ## Joining -/

/-- A text that can stand as a name below a path: it is not empty and has no slash. -/
structure IsName (name : String) : Prop where
  nonempty : name ≠ ""
  noSlash : '/' ∉ name.toList

theorem IsName.isAbsolute_eq_false (h : IsName name) : isAbsolute name = false := by
  rw [isAbsolute, beq_eq_false_iff_ne]
  intro hhead
  exact h.noSlash (List.mem_of_mem_head? hhead)

/-- A text that ends with a slash, cut at its slashes, has the pieces before that slash and an empty
one. -/
theorem splitOn_of_getLast? {chars : List Char} (h : chars.getLast? = some '/') (name : List Char) :
    ∃ before, chars.splitOn '/' = before ++ [[]] ∧ (chars ++ name).splitOn '/' = before ++
        name.splitOn '/' := by
  obtain ⟨front, rfl⟩ := List.getLast?_eq_some_iff.mp h
  refine ⟨front.splitOn '/', ?_, ?_⟩
  · rw [List.splitOn_append_cons_self, List.splitOn_nil]
  · rw [List.append_assoc, List.singleton_append, List.splitOn_append_cons_self]

/-- The segments of a name below a path are those of the path, but for an empty one at its end, and
the name. -/
theorem segments_join (p : Path) (h : IsName name) :
    ∃ base, (p.segments = base ∨ p.segments = base ++ [""]) ∧ (p / name).segments =
        base ++ [name] := by
  have hname : name.toList.splitOn '/' = [name.toList] := List.splitOn_eq_singleton h.noSlash
  have hdiv : p / name = p.join name := rfl
  rw [hdiv, join, if_neg (by simp [h.isAbsolute_eq_false])]
  split
  · rename_i hopen
    rcases Bool.or_eq_true_iff.mp hopen with hempty | hends
    · -- nothing stands before the name
      rw [segments, segments, String.isEmpty_iff.mp hempty, String.empty_append, hname]
      exact ⟨[], Or.inr rfl, by simp⟩
    · obtain ⟨before, hbefore, hjoined⟩ := splitOn_of_getLast? (beq_iff_eq.mp hends) name.toList
      refine ⟨before.map String.ofList, Or.inr ?_, ?_⟩
      · rw [segments, hbefore, List.map_append]
        rfl
      · rw [segments, String.toList_append, hjoined, hname]
        simp
  · refine ⟨p.segments, Or.inl rfl, ?_⟩
    have hslash : (p.text ++ "/" ++ name).toList = p.text.toList ++ '/' :: name.toList := by simp
    rw [segments, hslash, List.splitOn_append_cons_self, hname, List.map_append, segments]
    simp

/-- The segments of a name below a path are some first segments of the path, and the name. -/
theorem exists_segments_join (p : Path) (h : IsName name) :
    ∃ base, base <+: p.segments ∧ (p / name).segments = base ++ [name] := by
  obtain ⟨base, hbase | hbase, hsegments⟩ := p.segments_join h
  · exact ⟨base, hbase ▸ List.prefix_rfl, hsegments⟩
  · exact ⟨base, hbase ▸ List.prefix_append _ _, hsegments⟩

theorem lastSegment_join (p : Path) (h : IsName name) : (p / name).lastSegment = name := by
  obtain ⟨base, -, hsegments⟩ := p.exists_segments_join h
  simp [lastSegment, hsegments]

/-- Joining a text that is no absolute path. -/
theorem div_eq {text : String} (h : isAbsolute text = false) :
    p / text = if p.text.isEmpty || endsOpen p.text then ⟨p.text ++ text⟩ else
        ⟨p.text ++ "/" ++ text⟩ := by
  have hdiv : p / text = p.join text := rfl
  rw [hdiv, join, if_neg (by simp [h])]

/-- A text that ends with a name is not empty and has no slash at its end. -/
theorem IsName.isClosed (h : IsName name) (text : String) :
    ((text ++ name).isEmpty || endsOpen (text ++ name)) = false := by
  have hne : name.toList ≠ [] := mt String.toList_eq_nil_iff.mp h.nonempty
  have hlast : (text ++ name).toList.getLast? ≠ some '/' := by
    rw [String.toList_append, List.getLast?_append_of_ne_nil _ hne]
    exact fun hslash => h.noSlash (List.mem_of_getLast? hslash)
  rw [Bool.or_eq_false_iff, endsOpen, beq_eq_false_iff_ne]
  exact ⟨by simp [h.nonempty], hlast⟩

/-- What stands below a name below a path. -/
theorem join_join {rest : String} (h : IsName name) (hrest : isAbsolute rest = false) :
    p / (name ++ "/" ++ rest) = p / name / rest := by
  have hfirst : isAbsolute (name ++ "/" ++ rest) = false := by
    obtain ⟨c, others, hname⟩ :=
      List.exists_cons_of_ne_nil (mt String.toList_eq_nil_iff.mp h.nonempty)
    have hslash : c ≠ '/' := fun hsame => h.noSlash (hname ▸ hsame ▸ List.mem_cons_self)
    simp [isAbsolute, hname, hslash]
  rw [div_eq hfirst, div_eq hrest, div_eq h.isAbsolute_eq_false]
  cases p.text.isEmpty || endsOpen p.text with
  | true =>
    simp only [if_true, h.isClosed]
    simp [String.append_assoc]
  | false =>
    simp only [Bool.false_eq_true, if_false, h.isClosed]
    simp [String.append_assoc]

/-! ## Ancestors -/

/-- No segment has a slash. -/
theorem noSlash_of_mem_segments {segment : String} (h : segment ∈ p.segments) :
    '/' ∉ segment.toList := by
  obtain ⟨piece, hpiece, rfl⟩ := List.mem_map.mp h
  rw [String.toList_ofList]
  intro hslash
  have hfree := Text.splitOnP_free (· == '/') p.text.toList piece hpiece '/' hslash
  simp at hfree

/-- Texts without slashes, put together with slashes, are the segments of the result. -/
theorem segments_intercalate {segments : List String} (hne : segments ≠ [])
    (hslash : ∀ segment ∈ segments, '/' ∉ segment.toList) :
    (⟨"/".intercalate segments⟩ : Path).segments = segments := by
  rw [Path.segments, String.toList_intercalate]
  have hsep : "/".toList = ['/'] := rfl
  rw [hsep, List.splitOn_intercalate '/' (List.forall_mem_map.mpr hslash) (by simpa using hne),
    List.map_map]
  have hid : (String.ofList ∘ String.toList) = id := funext fun s => String.ofList_toList
  rw [hid, List.map_id]

/-- What comes before a named segment are first segments. -/
theorem reverse_prefix_of_mem_beforeNamed {segments before : List String}
    (h : before ∈ beforeNamed segments) :
    before.reverse <+: segments.reverse := by
  induction segments with
  | nil => cases h
  | cons segment rest ih =>
    have hrest : rest.reverse <+: (segment :: rest).reverse := by
      rw [List.reverse_cons]
      exact List.prefix_append _ _
    rw [beforeNamed] at h
    split at h
    · rcases List.mem_cons.mp h with rfl | h
      · exact hrest
      · exact (ih h).trans hrest
    · exact (ih h).trans hrest

/-- The segments of a path in which another path lies are first segments of that path, unless it is
the root. -/
theorem segments_of_mem_parents {outer : Path} (h : outer ∈ p.parents) :
    outer.segments <+: p.segments ∨ outer.segments = ["", ""] := by
  obtain ⟨before, hbefore, rfl⟩ := List.mem_map.mp h
  have hprefix : before.reverse <+: p.segments := by
    simpa using reverse_prefix_of_mem_beforeNamed hbefore
  have hkept : (before.dropWhile (!isNamed ·)).reverse <+: p.segments := by
    refine List.IsPrefix.trans ?_ hprefix
    exact List.reverse_prefix.mpr (List.dropWhile_suffix _)
  unfold ofReversed
  split
  · right
    decide
  · rename_i kept hne
    left
    rw [segments_intercalate (by simpa using hne)]
    · exact hkept
    · intro segment hsegment
      exact noSlash_of_mem_segments (hkept.subset hsegment)

/-- A name below a path that ends with a name lies in a path with the same segments. -/
theorem exists_parent?_join (h : isNamed p.lastSegment = true) (hname : IsName name)
    (hnamed : isNamed name = true) :
    ∃ outer, (p / name).parent? = some outer ∧ outer.segments = p.segments := by
  have hlast := p.dropLast_segments
  obtain ⟨base, hbase | hbase, hsegments⟩ := p.segments_join hname
  · refine ⟨⟨"/".intercalate p.segments⟩, ?_, segments_intercalate p.segments_ne_nil fun _ =>
      noSlash_of_mem_segments⟩
    have hreverse : (p / name).segments.reverse = name :: p.lastSegment ::
        p.segments.dropLast.reverse := by
      rw [hsegments, ← hbase, ← hlast]
      simp
    rw [parent?, segmentsAbove, hreverse, beforeNamed, if_pos hnamed, List.head?_cons,
      Option.map_some, ofReversed, List.dropWhile_cons_of_neg (by simp [h])]
    simp [hlast]
  · -- the last segment is named, so it is not empty
    rw [lastSegment, hbase, List.getLast?_concat] at h
    cases h

end Path

namespace FileTree

variable {t : FileTree} {here directory : Path} {name : String}

/-- Where a path leads to a directory, so does each path in which it lies. -/
theorem Leads.of_mem_parents (h : t.Leads [] here.segments)
    (hdirectory : directory ∈ here :: here.parents) :
    t.Leads [] directory.segments := by
  rcases List.mem_cons.mp hdirectory with rfl | hparent
  · exact h
  · rcases Path.segments_of_mem_parents hparent with hprefix | hroot
    · exact h.of_prefix hprefix
    · rw [hroot]
      exact ⟨Or.inl rfl, Or.inl rfl, trivial⟩

/-- Below a directory, a path with a name reaches that name, unless the text of the path is refused.
-/
theorem reaches_join_iff (h : t.Leads [] directory.segments) (hname : Path.IsName name)
    (hdots : isDots name = false)
    (hlength : checkName name = .ok ()) :
    t.Reaches (directory / name) ↔ checkText (directory / name) = .ok () := by
  constructor
  · intro hreaches
    exact hreaches.text
  · intro htext
    obtain ⟨base, hprefix, hsegments⟩ := directory.exists_segments_join hname
    have hlast := directory.lastSegment_join hname
    refine ⟨htext, ?_, by rw [hlast, hdots], by rw [hlast, hlength]⟩
    rw [hsegments, List.dropLast_concat]
    exact h.of_prefix hprefix

end FileTree

end Bindery
