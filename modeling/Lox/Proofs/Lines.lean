import Lox.Proofs.Boundaries
import Mathlib.Data.List.DropRight
import Mathlib.Data.List.Infix

/-!
# Lines and comments

No piece reaches over a newline, so a text is cut line by line.  Within a line
the first two adjacent slashes begin the comment: no symbol before them takes
the first one with it.  In particular, a text ends inside a comment exactly when
its last line has two adjacent slashes.
-/

namespace Lox
namespace Piece

/-- The part of a text behind its last newline. -/
def lastLine (text : List Char) : List Char :=
  text.rtakeWhile fun character => character != '\n'

theorem not_continuedBy_newline (piece : Piece) : ¬ piece.ContinuedBy '\n' := by
  cases piece with
  | symbol sign => cases sign <;> simp [ContinuedBy, Symbol.continuation?]
  | comment body => exact not_not.mpr rfl
  | _ => exact id

theorem cut_append_of_newline (first : List Char) {second : List Char}
    (line : ∀ next, second.head? = some next → next = '\n') :
    cut (first ++ second) = cut first ++ cut second := by
  apply cut_append_of_apart
  intro last _ next head
  rw [line next head]
  exact last.not_continuedBy_newline

theorem cut_newline_cons (text : List Char) :
    cut ('\n' :: text) = newline :: cut text := by
  rw [cut_cons]
  rfl

theorem cut_append_newline_cons (before line : List Char) :
    cut (before ++ '\n' :: line) = cut before ++ newline :: cut line := by
  rw [cut_append_of_newline before (by simp), cut_newline_cons]

theorem cut_append_lineOf (before text : List Char) :
    cut (before ++ text) =
      cut (before ++ lineOf text) ++ cut (behindLine text) := by
  rw [← cut_append_of_newline _ fun _ => head?_behindLine, List.append_assoc,
    lineOf_append_behindLine]

/-- Texts are built by putting a line and its newline in front of a text. -/
@[elab_as_elim]
theorem lineInduction {motive : List Char → Prop}
    (line : ∀ line, '\n' ∉ line → motive line)
    (newline : ∀ line rest, '\n' ∉ line → motive rest →
      motive (line ++ '\n' :: rest))
    (text : List Char) : motive text := by
  have inside := newline_notMem_lineOf text
  cases behind : behindLine text with
  | nil =>
      have whole := lineOf_append_behindLine text
      rw [behind, List.append_nil] at whole
      exact line text (whole ▸ inside)
  | cons next rest =>
      obtain rfl : next = '\n' := head?_behindLine (by rw [behind]; rfl)
      have whole := lineOf_append_behindLine text
      rw [behind] at whole
      have shorter : rest.length < text.length := by
        have lengths := congrArg List.length whole
        simp only [List.length_append, List.length_cons] at lengths
        omega
      rw [← whole]
      exact newline _ rest inside (lineInduction line newline rest)
termination_by text.length

/-- A text with each of its lines changed on its own. -/
def mapLines (change : List Char → List Char) (text : List Char) : List Char :=
  ['\n'].intercalate ((text.splitOn '\n').map change)

theorem mapLines_line (change : List Char → List Char) {line : List Char}
    (inside : '\n' ∉ line) : mapLines change line = change line := by
  simp [mapLines, List.splitOn_eq_singleton inside]

theorem mapLines_line_append (change : List Char → List Char)
    {line : List Char} (inside : '\n' ∉ line) (rest : List Char) :
    mapLines change (line ++ '\n' :: rest) =
      change line ++ '\n' :: mapLines change rest := by
  have more : (rest.splitOn '\n').map change ≠ [] := by simp
  simp [mapLines, List.splitOn_append_cons_self_of_not_mem inside,
    List.intercalate_cons_of_ne_nil more]

/-- What is made of the pieces of a text is made line by line, if newlines are
kept. -/
theorem flatMap_cut_eq_mapLines {textOf : Piece → List Char}
    {change : List Char → List Char} (keeps : textOf newline = ['\n'])
    (onLines : ∀ line, '\n' ∉ line → (cut line).flatMap textOf = change line)
    (text : List Char) : (cut text).flatMap textOf = mapLines change text := by
  induction text using lineInduction with
  | line line inside => rw [onLines line inside, mapLines_line change inside]
  | newline line rest inside ih =>
      rw [cut_append_newline_cons, List.flatMap_append, List.flatMap_cons,
        onLines line inside, keeps, ih, mapLines_line_append change inside,
        List.singleton_append]

theorem newline_notMem_lastLine (text : List Char) : '\n' ∉ lastLine text := by
  intro member
  have kept := List.mem_rtakeWhile_imp member
  simp at kept

theorem lastLine_append (before : List Char) {line : List Char}
    (inside : '\n' ∉ line) :
    lastLine (before ++ line) = lastLine before ++ line := by
  rw [← List.mem_reverse] at inside
  have kept := ne_newline_of_notMem inside
  simp [lastLine, List.rtakeWhile, List.takeWhile_append_of_pos kept]

theorem exists_append_lastLine (text : List Char) :
    lastLine text = text ∨ ∃ before, text = before ++ '\n' :: lastLine text := by
  induction text using List.reverseRecOn with
  | nil => exact .inl rfl
  | append_singleton text character ih =>
      unfold lastLine at ih ⊢
      by_cases line : character = '\n'
      · refine .inr ⟨text, ?_⟩
        rw [List.rtakeWhile_concat_neg _ _ _ (by simp [line]), line]
      · rw [List.rtakeWhile_concat_pos _ _ _ (by simpa using line)]
        rcases ih with whole | ⟨before, split⟩
        · exact .inl (by rw [whole])
        · refine .inr ⟨before, ?_⟩
          rw [← List.cons_append, ← List.append_assoc, ← split]

theorem eq_slash_of_mem_text {piece : Piece} (wellFormed : piece.WellFormed)
    (noComment : ∀ body, piece ≠ comment body) (slash : '/' ∈ piece.text) :
    piece = symbol .slash := by
  cases piece with
  | symbol sign => cases sign <;> first | rfl | simp [text, Symbol.spelling] at slash
  | comment body => exact absurd rfl (noComment body)
  | blank character =>
      obtain rfl : '/' = character := by simpa [text] using slash
      simp [WellFormed, isBlank] at wellFormed
  | newline => simp [text] at slash
  | stray character =>
      obtain rfl : '/' = character := by simpa [text] using slash
      exact absurd wellFormed (by simp [WellFormed, isUnexpected, Symbol.alphabet])

theorem eq_newline_of_head? {piece : Piece} (wellFormed : piece.WellFormed)
    (head : piece.text.head? = some '\n') : piece = newline := by
  cases piece with
  | symbol sign => cases sign <;> simp [text, Symbol.spelling] at head
  | comment body => simp [text] at head
  | blank character =>
      obtain rfl : character = '\n' := Option.some.inj head
      simp [WellFormed, isBlank] at wellFormed
  | newline => rfl
  | stray character =>
      obtain rfl : character = '\n' := Option.some.inj head
      exact absurd wellFormed (by simp [WellFormed, isUnexpected, spaces])

/-- No two adjacent slashes begin in a piece that is not a comment. -/
theorem StandsBefore.slash_apart {piece : Piece} {rest : List Char}
    (stands : piece.StandsBefore rest)
    (noComment : ∀ body, piece ≠ comment body) {before behind : List Char}
    (parts : piece.text = before ++ '/' :: behind) :
    (behind ++ rest).head? ≠ some '/' := by
  have slash : '/' ∈ piece.text := by simp [parts]
  obtain rfl := eq_slash_of_mem_text stands.wellFormed noComment slash
  have lengths := congrArg List.length parts
  have nothing : behind = [] := by
    apply List.eq_nil_of_length_eq_zero
    simp [text, Symbol.spelling] at lengths
    omega
  intro head
  rw [nothing, List.nil_append] at head
  exact stands.ends '/' head rfl

theorem slashes_infix_append_iff {first rest : List Char}
    (apart : ∀ before behind, first = before ++ '/' :: behind →
      (behind ++ rest).head? ≠ some '/') :
    ['/', '/'] <:+: first ++ rest ↔ ['/', '/'] <:+: rest := by
  induction first with
  | nil => rfl
  | cons character first ih =>
      have later : ∀ before behind, first = before ++ '/' :: behind →
          (behind ++ rest).head? ≠ some '/' := by
        intro before behind parts
        exact apart (character :: before) behind (by rw [parts]; rfl)
      rw [List.cons_append, List.infix_cons_iff, ih later, or_iff_right_iff_imp]
      rintro ⟨behind, starts⟩
      obtain ⟨rfl, tail⟩ := List.cons.inj starts
      exact absurd (by rw [← tail]; rfl) (apart [] first rfl)

theorem slashes_infix_append_cons_iff (first : List Char) {character : Char}
    (noSlash : character ≠ '/') (rest : List Char) :
    ['/', '/'] <:+: first ++ character :: rest ↔
      ['/', '/'] <:+: first ∨ ['/', '/'] <:+: rest := by
  induction first with
  | nil =>
      have apart : ¬ ['/', '/'] <+: character :: rest := by
        rintro ⟨tail, starts⟩
        exact noSlash (List.cons.inj starts).1.symm
      simp [List.infix_cons_iff, apart]
  | cons head first ih =>
      have here : ['/', '/'] <+: head :: (first ++ character :: rest) ↔
          ['/', '/'] <+: head :: first := by
        cases first <;> simp [noSlash.symm]
      rw [List.cons_append, List.infix_cons_iff, List.infix_cons_iff, ih, here,
        or_assoc]

theorem StandsBefore.rest_eq_nil_of_comment {body rest : List Char}
    (stands : (comment body).StandsBefore rest) (inside : '\n' ∉ rest) :
    rest = [] := by
  cases rest with
  | nil => rfl
  | cons next rest =>
      have line := stands.eq_newline_of_comment rfl
      exact absurd (by simp [line]) inside

/-- Lines are built by putting pieces that are no comments in front of a comment,
or of nothing. -/
@[elab_as_elim]
theorem cutLineInduction {motive : List Char → Prop} (nil : motive [])
    (comment : ∀ body, (Piece.comment body).WellFormed →
      motive (Piece.comment body).text)
    (piece : ∀ (piece : Piece) (rest : List Char), piece.StandsBefore rest →
      (∀ body, piece ≠ .comment body) → motive rest →
        motive (piece.text ++ rest))
    (line : List Char) (inside : '\n' ∉ line) : motive line := by
  induction line using cutInduction with
  | nil => exact nil
  | piece first rest stands ih =>
      have restInside : '\n' ∉ rest := fun member =>
        inside (List.mem_append_right _ member)
      rcases first.exists_comment_or_ne with ⟨body, rfl⟩ | noComment
      · rw [stands.rest_eq_nil_of_comment restInside, List.append_nil]
        exact comment body stands.wellFormed
      · exact piece first rest stands noComment (ih restInside)

/-- A line ends inside a comment when it has two adjacent slashes. -/
theorem getLast?_cut_line {line : List Char} (inside : '\n' ∉ line) :
    (∃ body, (cut line).getLast? = some (comment body)) ↔
      ['/', '/'] <:+: line := by
  refine cutLineInduction ?_ ?_ ?_ line inside
  · simp
  · intro body formed
    have opened : ['/', '/'] <:+: (comment body).text :=
      List.IsPrefix.isInfix ⟨body, rfl⟩
    simpa [cut_text formed] using opened
  · intro piece rest stands noComment ih
    rw [cut_text_append stands, slashes_infix_append_iff fun before behind =>
      stands.slash_apart noComment, ← ih]
    cases later : (cut rest).getLast? with
    | none => simp [List.getLast?_cons, later, noComment]
    | some last => simp [List.getLast?_cons, later]

/-- A text ends inside a comment when its last line has two adjacent slashes. -/
theorem getLast?_cut_eq_comment_iff (source : List Char) :
    (∃ body, (cut source).getLast? = some (comment body)) ↔
      ['/', '/'] <:+: lastLine source := by
  rw [← getLast?_cut_line (newline_notMem_lastLine source)]
  rcases exists_append_lastLine source with whole | ⟨before, parts⟩
  · rw [whole]
  · conv_lhs => rw [parts, cut_append_newline_cons]
    cases later : (cut (lastLine source)).getLast? with
    | none => simp [List.getLast?_append, List.getLast?_cons, later]
    | some last => simp [List.getLast?_append, List.getLast?_cons, later]

end Piece
end Lox
