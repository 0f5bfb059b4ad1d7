/-!
# Text measured in bytes

A text is a list of characters.  Offsets into it count the bytes of its UTF-8
form, one to four for each character.  This file defines that measure and the
cut of a text at a byte offset, and proves that a cut succeeds exactly at the
ends of characters.
-/

namespace Lox
namespace TextBytes

/-- Number of bytes that a text takes in UTF-8. -/
def byteLength : List Char → Nat
  | [] => 0
  | first :: rest => first.utf8Size + byteLength rest

/-- Cut a text at a byte offset.  There is no cut past the end of the text, nor
inside a character. -/
def cutAt? : Nat → List Char → Option (List Char × List Char)
  | 0, text => some ([], text)
  | _ + 1, [] => none
  | offset + 1, first :: rest =>
      if first.utf8Size ≤ offset + 1 then
        (cutAt? (offset + 1 - first.utf8Size) rest).map fun parts =>
          (first :: parts.1, parts.2)
      else
        none

@[simp]
theorem byteLength_nil : byteLength [] = 0 := rfl

@[simp]
theorem byteLength_cons (first : Char) (rest : List Char) :
    byteLength (first :: rest) = first.utf8Size + byteLength rest := rfl

@[simp]
theorem byteLength_append (first second : List Char) :
    byteLength (first ++ second) = byteLength first + byteLength second := by
  induction first with
  | nil => simp
  | cons character first ih =>
      simp [ih, Nat.add_assoc]

theorem length_le_byteLength (text : List Char) :
    text.length ≤ byteLength text := by
  induction text with
  | nil => simp
  | cons character text ih =>
      have positive := character.utf8Size_pos
      simp only [List.length_cons, byteLength_cons]
      omega

@[simp]
theorem byteLength_eq_zero (text : List Char) :
    byteLength text = 0 ↔ text = [] := by
  constructor
  · intro zero
    have bound := length_le_byteLength text
    exact List.eq_nil_of_length_eq_zero (by omega)
  · rintro rfl
    rfl

/-- Cutting behind a given beginning gives that beginning and what follows. -/
theorem cutAt?_append (first second : List Char) :
    cutAt? (byteLength first) (first ++ second) = some (first, second) := by
  induction first with
  | nil =>
      cases second <;> rfl
  | cons character first ih =>
      have positive := character.utf8Size_pos
      obtain ⟨offset, offsetEq⟩ :
          ∃ offset, byteLength (character :: first) = offset + 1 :=
        ⟨byteLength (character :: first) - 1, by
          simp only [byteLength_cons]
          omega⟩
      have within : character.utf8Size ≤ offset + 1 := by
        rw [← offsetEq, byteLength_cons]
        omega
      have remaining : offset + 1 - character.utf8Size = byteLength first := by
        rw [← offsetEq, byteLength_cons]
        omega
      rw [offsetEq, List.cons_append, cutAt?, if_pos within, remaining, ih]
      rfl

/-- Both parts of a cut together are the text, and the first part has as many
bytes as the offset says. -/
theorem eq_append_of_cutAt? {offset : Nat} {text first second : List Char}
    (cut : cutAt? offset text = some (first, second)) :
    text = first ++ second ∧ byteLength first = offset := by
  induction text generalizing offset first second with
  | nil =>
      cases offset with
      | zero =>
          simp only [cutAt?, Option.some.injEq, Prod.mk.injEq] at cut
          obtain ⟨rfl, rfl⟩ := cut
          simp
      | succ offset => simp [cutAt?] at cut
  | cons character text ih =>
      cases offset with
      | zero =>
          simp only [cutAt?, Option.some.injEq, Prod.mk.injEq] at cut
          obtain ⟨rfl, rfl⟩ := cut
          simp
      | succ offset =>
          simp only [cutAt?] at cut
          split at cut
          next within =>
            obtain ⟨⟨before, after⟩, inner, parts⟩ :=
              Option.map_eq_some_iff.mp cut
            simp only [Prod.mk.injEq] at parts
            obtain ⟨rfl, rfl⟩ := parts
            obtain ⟨rfl, bytes⟩ := ih inner
            refine ⟨rfl, ?_⟩
            rw [byteLength_cons, bytes]
            omega
          next => simp at cut

theorem cutAt?_eq_some_iff {offset : Nat} {text first second : List Char} :
    cutAt? offset text = some (first, second) ↔
      text = first ++ second ∧ byteLength first = offset := by
  constructor
  · exact eq_append_of_cutAt?
  · rintro ⟨rfl, rfl⟩
    exact cutAt?_append first second

/-- A text is cut at a byte offset in one way only. -/
theorem append_inj {first second otherFirst otherSecond : List Char}
    (same : first ++ second = otherFirst ++ otherSecond)
    (bytes : byteLength first = byteLength otherFirst) :
    first = otherFirst ∧ second = otherSecond := by
  have cut := cutAt?_append first second
  rw [same, bytes, cutAt?_append, Option.some.injEq, Prod.mk.injEq] at cut
  exact ⟨cut.1.symm, cut.2.symm⟩

end TextBytes
end Lox
