/-
# Bindery.Source.Unit -- the source of a unit.

A unit opens with a header, its imports, its constants and the block of its foreign functions; its
wrappers and its self-test follow.  Sections are separated by empty lines.  The text depends on
nothing but the unit.
-/
import Bindery.Source.SelfTest

namespace Bindery

open Source

/-! ## Sections -/

/-- The comment at the top of a unit. -/
def Variant.headerLines (v : Variant) : List String :=
  ["//! FFI bindings and safe wrappers for " ++ v.feature ++ " (" ++ v.backend.name ++ ").", "//!",
    "//! Generated by wrapgen. Do not edit manually.", ""]

/-- The import lines and the empty line after them. -/
def Source.useLines (uses : List String) : List String :=
  if uses.isEmpty then [] else uses ++ [""]

/-- The declaration of a constant. -/
def Constant.line (c : Constant) : String :=
  "pub const " ++ c.name ++ ": usize = " ++ c.value.repr ++ ";"

/-- The block of the foreign functions. -/
def SourceUnit.foreignLines (u : SourceUnit) : List String :=
  ["#[link(name = \"" ++ u.variant.linkName ++ "\")]", "extern \"C\" \x7b"] ++
    [""].intercalate (u.declarations.map fun d => d.listing.lines) ++ ["\x7d"]

/-! ## Units -/

/-- The lines of a unit. -/
def SourceUnit.lines (u : SourceUnit) : List String :=
  u.variant.headerLines ++ useLines u.uses ++ u.variant.byteLengths.all.map Constant.line ++ [""] ++
    u.foreignLines ++
    (u.wrappers.flatMap fun w => "" :: w.lines) ++ (u.selfTest.toList.flatMap fun t =>
    "" :: t.lines)

/-- **`render u`** -- the source text of a unit. -/
def SourceUnit.render (u : SourceUnit) : String :=
  ofLines u.lines

end Bindery
