import Lox.TextBytes

/-!
# Byte ranges of a source text

A span names the bytes from its start up to, but not including, its stop.
Nothing forces the two ends into order or into a text: a span may be reversed,
reach past the text it is applied to, or fall inside a character of it.
-/

namespace Lox

/-- The bytes from `start` up to, but not including, `stop`. -/
structure Span where
  start : Nat
  stop : Nat
  deriving DecidableEq

namespace Span

/-- Number of bytes in a span.  A reversed span has no length. -/
def length? (span : Span) : Option Nat :=
  if span.start ≤ span.stop then
    some (span.stop - span.start)
  else
    none

/-- A span is empty when its ends coincide, whatever text it is applied to. -/
def isEmpty (span : Span) : Bool :=
  span.start == span.stop

/-- The part of a source that a span covers.  There is none when the span is
reversed, reaches past the source, or has an end inside a character. -/
def slice? (span : Span) (source : String) : Option String := do
  let length ← span.length?
  let (_, behind) ← TextBytes.cutAt? span.start source.toList
  let (covered, _) ← TextBytes.cutAt? length behind
  return String.ofList covered

theorem length?_eq_some_iff (span : Span) (length : Nat) :
    span.length? = some length ↔ span.start + length = span.stop := by
  unfold length?
  split
  next ordered =>
    rw [Option.some.injEq]
    omega
  next reversed =>
    simp only [reduceCtorEq, false_iff]
    omega

theorem isEmpty_iff (span : Span) :
    span.isEmpty = true ↔ span.start = span.stop := by
  simp [isEmpty]

end Span
end Lox
