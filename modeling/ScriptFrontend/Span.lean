import ScriptFrontend.Text.Bytes

/-!
# Spans and extents

A `Span` names a stretch of source text by its two byte offsets, half open; nothing forces the
first to come first. An `Extent` names one by its first byte and its length, so it cannot be
inverted: an inverted span becomes the empty extent at its start.

Extents are the places that the library of reports, `miette`, keeps. What it does with a range of
offsets is not defined here but assumed, in `Span.extent`.
-/

namespace ScriptFrontend

/-- Byte offsets of the first byte and of the byte after the last. -/
structure Span where
  start : Nat
  stop : Nat
  deriving DecidableEq, Repr

/-- A first byte and a number of bytes: what a `miette` report keeps of a place. -/
structure Extent where
  offset : Nat
  length : Nat
  deriving DecidableEq, Repr

namespace Span

/-- The span that stands for no place: nothing, at the first byte. -/
def zero : Span := ⟨0, 0⟩

/-- An inverted span has length zero. -/
def length (s : Span) : Nat := s.stop - s.start

def isEmpty (s : Span) : Bool := s.length == 0

/-- The place made from the range between the ends. `miette` is assumed to keep of a range its
start, as the offset, and its length, which is zero if the range is inverted. -/
def extent (s : Span) : Extent := ⟨s.start, s.length⟩

/-- The text between the ends of the span, if both are ends of characters and in order. -/
def textIn? (s : Span) (source : String) : Option String :=
  if s.start ≤ s.stop then Text.slice? source s.start s.stop else none

end Span

def Extent.span (e : Extent) : Span := ⟨e.offset, e.offset + e.length⟩

theorem Extent.length_span (e : Extent) : e.span.length = e.length := by
  simp only [Extent.span, Span.length]; omega

theorem Span.span_extent (s : Span) : s.extent.span = ⟨s.start, max s.start s.stop⟩ := by
  simp only [Span.extent, Extent.span, Span.length, Span.mk.injEq, true_and]; omega

end ScriptFrontend
