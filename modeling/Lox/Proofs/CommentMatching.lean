import Lox.Proofs.Boundaries

/-!
# Comments found by a pattern

A reader may leave it to a matcher of patterns to find comments, with the pattern
`^//.*`.  Such a matcher comes from elsewhere, and all that is assumed of it is what
the pattern means: that it is held to the beginning of the text, that its dot is any
character but a newline, and that it takes as much as it can.  This file proves that
a match then ends where the line ends, so whichever matcher finds the comments, what
begins with a slash is read in the same way.
-/

namespace Lox

/-- The texts that `//.*` describes. -/
def IsLineComment (text : List Char) : Prop :=
  ∃ body, text = '/' :: '/' :: body ∧ '\n' ∉ body

/-- What `^//.*` matches in a text: of the texts that stand at its beginning and are
described, the longest. -/
structure MatchedComment (text comment : List Char) : Prop where
  begins : comment <+: text
  described : IsLineComment comment
  longest : ∀ other, other <+: text → IsLineComment other →
    other.length ≤ comment.length

/-- A matcher for `^//.*`, which says behind how many bytes of a text the match
ends, if there is one. -/
structure CommentMatcher where
  matchEnd? : List Char → Option Nat
  matchEnd?_eq_some_iff : ∀ text stop, matchEnd? text = some stop ↔
    ∃ comment, MatchedComment text comment ∧
      TextBytes.byteLength comment = stop

/-- Only a text that begins with two slashes has a match, and the match ends where
the line ends. -/
theorem matchedComment_iff {text comment : List Char} :
    MatchedComment text comment ↔
      ∃ rest, text = '/' :: '/' :: rest ∧
        comment = '/' :: '/' :: Piece.lineOf rest := by
  constructor
  · rintro ⟨⟨behind, rfl⟩, ⟨body, rfl, inside⟩, longest⟩
    obtain ⟨line, -⟩ := Piece.lineOf_append inside behind
    -- The whole line would be a match too, so it is no longer than this one.
    have whole := longest ('/' :: '/' :: Piece.lineOf (body ++ behind))
      ⟨Piece.behindLine (body ++ behind), by simp⟩
      ⟨_, rfl, Piece.newline_notMem_lineOf _⟩
    have nothing : Piece.lineOf behind = [] := by
      rw [line] at whole
      simp only [List.length_cons, List.length_append] at whole
      exact List.eq_nil_of_length_eq_zero (by omega)
    exact ⟨body ++ behind, rfl, by rw [line, nothing, List.append_nil]⟩
  · rintro ⟨rest, rfl, rfl⟩
    refine ⟨⟨Piece.behindLine rest, by simp⟩,
      ⟨_, rfl, Piece.newline_notMem_lineOf rest⟩, ?_⟩
    rintro other ⟨behind, parts⟩ ⟨body, rfl, inside⟩
    obtain rfl : body ++ behind = rest := by simpa using parts
    rw [(Piece.lineOf_append inside behind).1]
    simp

namespace CommentMatcher

/-- There is such a matcher: it looks for two slashes, and then for the end of the
line. -/
def byLine : CommentMatcher where
  matchEnd?
    | '/' :: '/' :: rest =>
        some (TextBytes.byteLength ('/' :: '/' :: Piece.lineOf rest))
    | _ => none
  matchEnd?_eq_some_iff text stop := by
    simp only [matchedComment_iff]
    constructor
    · intro found
      split at found
      next rest => exact ⟨_, ⟨rest, rfl, rfl⟩, Option.some.inj found⟩
      next => simp at found
    · rintro ⟨_, ⟨rest, rfl, rfl⟩, rfl⟩
      rfl

variable (matcher : CommentMatcher)

theorem matchEnd?_comment (rest : List Char) :
    matcher.matchEnd? ('/' :: '/' :: rest) =
      some (TextBytes.byteLength ('/' :: '/' :: Piece.lineOf rest)) := by
  rw [matcher.matchEnd?_eq_some_iff]
  exact ⟨_, matchedComment_iff.mpr ⟨rest, rfl, rfl⟩, rfl⟩

theorem matchEnd?_eq_none {text : List Char}
    (noComment : ∀ rest, text ≠ '/' :: '/' :: rest) :
    matcher.matchEnd? text = none := by
  rw [Option.eq_none_iff_forall_ne_some]
  intro stop found
  obtain ⟨_, isMatch, -⟩ := (matcher.matchEnd?_eq_some_iff text stop).mp found
  obtain ⟨rest, begins, -⟩ := matchedComment_iff.mp isMatch
  exact noComment rest begins

/-- Read behind a slash as the matcher finds: skip the match that begins with the
slash, or read the slash alone where there is none.  Nothing is read when the match
does not end at the end of a character. -/
def readSlash (rest : List Char) : Option (Piece × List Char) :=
  match matcher.matchEnd? ('/' :: rest) with
  | some stop => do
      let (comment, behind) ← TextBytes.cutAt? stop ('/' :: rest)
      return (.comment (comment.drop 2), behind)
  | none => some (.symbol .slash, rest)

/-- Whichever matcher finds the comments, the same is read. -/
theorem readSlash_eq (rest : List Char) :
    matcher.readSlash rest = some (Piece.readSlash rest) := by
  unfold Piece.readSlash
  split
  next rest =>
    have parts := TextBytes.cutAt?_append ('/' :: '/' :: Piece.lineOf rest)
      (Piece.behindLine rest)
    have whole : '/' :: '/' :: Piece.lineOf rest ++ Piece.behindLine rest =
        '/' :: '/' :: rest := by simp
    rw [whole] at parts
    rw [readSlash, matcher.matchEnd?_comment]
    simp only [parts]
    rfl
  next notSlash =>
    have noComment : ∀ more, '/' :: rest ≠ '/' :: '/' :: more := by
      intro more begins
      exact notSlash more (List.cons.inj begins).2
    rw [readSlash, matcher.matchEnd?_eq_none noComment]

end CommentMatcher
end Lox
