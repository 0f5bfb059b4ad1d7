import Lox.Proofs.TokenStream

/-!
# Slices of a source

A span slices a source exactly when the source falls into three parts there: what
is before the span, what it covers, and what is behind it.  This file proves that,
and that nothing else stands in the way of a slice than ends in the wrong order, an
end past the source, or an end inside a character.
-/

namespace Lox

namespace TextBytes

/-- Whether a byte offset falls between the first and the last byte of a character
of a text. -/
def InsideCharacter (offset : Nat) (text : List Char) : Prop :=
  ∃ before character behind, text = before ++ character :: behind ∧
    byteLength before < offset ∧
    offset < byteLength before + character.utf8Size

theorem InsideCharacter.append {offset : Nat} {text : List Char}
    (inside : InsideCharacter offset text) (before : List Char) :
    InsideCharacter (byteLength before + offset) (before ++ text) := by
  obtain ⟨start, character, behind, rfl, above, below⟩ := inside
  refine ⟨before ++ start, character, behind, by simp, ?_, ?_⟩ <;>
    rw [byteLength_append] <;> omega

/-- Where a text can be cut, no character of it is. -/
theorem not_insideCharacter_byteLength (first second : List Char) :
    ¬ InsideCharacter (byteLength first) (first ++ second) := by
  rintro ⟨before, character, behind, parts, above, below⟩
  rcases List.append_eq_append_iff.mp parts with
    ⟨more, rfl, -⟩ | ⟨more, rfl, tail⟩
  · rw [byteLength_append] at above
    omega
  · cases more with
    | nil => simp at above
    | cons next more =>
        obtain ⟨rfl, -⟩ := List.cons.inj tail
        rw [byteLength_append, byteLength_cons] at below
        omega

/-- An offset that is neither past a text nor inside a character cuts it. -/
theorem exists_cutAt? {offset : Nat} {text : List Char}
    (within : offset ≤ byteLength text)
    (outside : ¬ InsideCharacter offset text) :
    ∃ parts, cutAt? offset text = some parts := by
  induction text generalizing offset with
  | nil =>
      obtain rfl : offset = 0 := Nat.le_zero.mp within
      exact ⟨_, rfl⟩
  | cons character text ih =>
      by_cases reaches : character.utf8Size ≤ offset
      · obtain ⟨more, rfl⟩ := Nat.exists_eq_add_of_le reaches
        have withinRest : more ≤ byteLength text := by
          rw [byteLength_cons] at within
          omega
        have outsideRest : ¬ InsideCharacter more text := by
          intro inside
          exact outside (by simpa using inside.append [character])
        obtain ⟨⟨first, second⟩, cut⟩ := ih withinRest outsideRest
        obtain ⟨rfl, rfl⟩ := eq_append_of_cutAt? cut
        exact ⟨_, cutAt?_append (character :: first) second⟩
      · cases offset with
        | zero => exact ⟨_, rfl⟩
        | succ offset =>
            refine absurd ⟨[], character, text, rfl, ?_, ?_⟩ outside
            · exact Nat.succ_pos offset
            · rw [byteLength_nil]
              omega

end TextBytes

namespace Span

open TextBytes

theorem length?_eq_none_iff (span : Span) :
    span.length? = none ↔ span.stop < span.start := by
  simp [length?]

/-- A slice is what stands between a beginning and an end of the source that leave
the bytes of the span over. -/
theorem slice?_eq_some_iff (span : Span) (source covered : String) :
    span.slice? source = some covered ↔
      ∃ before behind : String, source = before ++ covered ++ behind ∧
        before.utf8ByteSize = span.start ∧
        before.utf8ByteSize + covered.utf8ByteSize = span.stop := by
  constructor
  · intro sliced
    simp only [slice?, Option.bind_eq_bind, Option.bind_eq_some_iff, Prod.exists,
      Option.pure_def, Option.some.injEq] at sliced
    obtain ⟨length, lengthEq, before, rest, first, inner, behind, second, rfl⟩ :=
      sliced
    obtain ⟨sourceEq, starts⟩ := eq_append_of_cutAt? first
    obtain ⟨rfl, bytes⟩ := eq_append_of_cutAt? second
    refine ⟨String.ofList before, String.ofList behind, ?_, ?_, ?_⟩
    · rw [← String.toList_inj, sourceEq]
      simp
    · rw [← byteLength_toList, String.toList_ofList, starts]
    · rw [← byteLength_toList, ← byteLength_toList, String.toList_ofList,
        String.toList_ofList, starts, bytes]
      exact (span.length?_eq_some_iff length).mp lengthEq
  · rintro ⟨before, behind, rfl, starts, stops⟩
    have sliced := slice?_append before.toList covered.toList behind.toList
    rw [byteLength_toList, byteLength_toList, starts] at sliced
    rw [starts] at stops
    simpa [stops, String.ofList_append, ← String.append_assoc] using sliced

/-- There is no slice when the ends of a span are in the wrong order, past the
source, or inside a character of it. -/
theorem slice?_eq_none_iff (span : Span) (source : String) :
    span.slice? source = none ↔
      span.stop < span.start ∨ source.utf8ByteSize < span.stop ∨
        InsideCharacter span.start source.toList ∨
        InsideCharacter span.stop source.toList := by
  constructor
  · contrapose!
    rintro ⟨ordered, within, startOutside, stopOutside⟩
    rw [← byteLength_toList] at within
    obtain ⟨⟨before, rest⟩, first⟩ :=
      exists_cutAt? (ordered.trans within) startOutside
    obtain ⟨length, lengthEq⟩ := Nat.exists_eq_add_of_le ordered
    obtain ⟨sourceEq, starts⟩ := eq_append_of_cutAt? first
    -- The second cut is made in what the first one leaves.
    rw [sourceEq, lengthEq, ← starts] at stopOutside within
    have lengthWithin : length ≤ byteLength rest := by
      rw [byteLength_append] at within
      omega
    obtain ⟨⟨covered, behind⟩, second⟩ := exists_cutAt? lengthWithin
      fun inside => stopOutside (inside.append before)
    have hasLength : span.length? = some length :=
      (span.length?_eq_some_iff length).mpr lengthEq.symm
    simp [slice?, hasLength, first, second]
  · intro amiss
    rw [Option.eq_none_iff_forall_ne_some]
    intro covered sliced
    obtain ⟨before, behind, rfl, starts, stops⟩ :=
      (span.slice?_eq_some_iff source covered).mp sliced
    have startOutside := not_insideCharacter_byteLength before.toList
      (covered ++ behind).toList
    have stopOutside := not_insideCharacter_byteLength (before ++ covered).toList
      behind.toList
    rw [byteLength_toList, starts, ← String.toList_append,
      ← String.append_assoc] at startOutside
    rw [byteLength_toList, String.utf8ByteSize_append, stops,
      ← String.toList_append] at stopOutside
    rw [String.utf8ByteSize_append, String.utf8ByteSize_append, stops] at amiss
    rcases amiss with reversed | past | inside | inside
    · omega
    · omega
    · exact startOutside inside
    · exact stopOutside inside

/-- A span slices any source exactly: it finds the one part that its bytes name, of
its own length, and fails only where they name none. -/
theorem slicing_exact (span : Span) (source : String) :
    (∀ covered, span.slice? source = some covered ↔
      ∃ before behind : String, source = before ++ covered ++ behind ∧
        before.utf8ByteSize = span.start ∧
        before.utf8ByteSize + covered.utf8ByteSize = span.stop) ∧
    (span.slice? source = none ↔
      span.stop < span.start ∨ source.utf8ByteSize < span.stop ∨
        InsideCharacter span.start source.toList ∨
        InsideCharacter span.stop source.toList) ∧
    (∀ covered, span.slice? source = some covered →
      span.length? = some covered.utf8ByteSize ∧
        (span.isEmpty = true ↔ covered = "")) ∧
    (span.length? = none ↔ span.stop < span.start) := by
  refine ⟨span.slice?_eq_some_iff source, span.slice?_eq_none_iff source, ?_,
    span.length?_eq_none_iff⟩
  intro covered sliced
  obtain ⟨before, behind, -, starts, stops⟩ :=
    (span.slice?_eq_some_iff source covered).mp sliced
  rw [starts] at stops
  refine ⟨(span.length?_eq_some_iff _).mpr stops, ?_⟩
  rw [isEmpty_iff, ← String.utf8ByteSize_eq_zero_iff]
  omega

/-- Of a character of two bytes there is a slice as a whole, and none that ends
between the two. -/
example :
    slice? ⟨0, 2⟩ "é" = some "é" ∧ slice? ⟨0, 1⟩ "é" = none ∧
      slice? ⟨1, 2⟩ "é" = none := by
  decide

end Span
end Lox
