import Lox.Piece
import Mathlib.Data.List.Basic
import Mathlib.Data.List.TakeWhile
import Mathlib.Tactic.Tauto

/-!
# Where pieces end

A piece ends where the next character would not have been read as part of it.
This file states that condition without the reader, and proves that it
characterizes reading: a well-formed piece in front of a text that does not
continue it is exactly what is read off, and everything that is read off is of
that kind.  Lists of pieces are cut off one by one under the same condition.
-/

namespace Lox

namespace Symbol

def punctuationMarks : List Char :=
  ['(', ')', '{', '}', ',', '.', '-', '+', ';', '*']

def comparisonMarks : List Char :=
  ['!', '=', '<', '>']

def alphabet : List Char :=
  punctuationMarks ++ comparisonMarks ++ ['/']

/-- The character that would be read together with a symbol if it followed
directly.  A second slash makes a comment of the first. -/
def continuation? : Symbol → Option Char
  | bang | equal | greater | less => some '='
  | slash => some '/'
  | _ => none

theorem punctuation?_eq_none_iff (character : Char) :
    punctuation? character = none ↔ character ∉ punctuationMarks := by
  unfold punctuation?
  split <;> simp_all [punctuationMarks]

theorem comparison?_eq_none_iff (character : Char) :
    comparison? character = none ↔ character ∉ comparisonMarks := by
  unfold comparison?
  split <;> simp_all [comparisonMarks]

theorem exists_punctuation? {mark : Char} (listed : mark ∈ punctuationMarks) :
    ∃ sign, punctuation? mark = some sign := by
  apply Option.ne_none_iff_exists'.mp
  rw [ne_eq, punctuation?_eq_none_iff, not_not]
  exact listed

theorem exists_comparison? {mark : Char} (listed : mark ∈ comparisonMarks) :
    ∃ alone extended, comparison? mark = some (alone, extended) := by
  have known : comparison? mark ≠ none := by
    rw [ne_eq, comparison?_eq_none_iff, not_not]
    exact listed
  obtain ⟨⟨alone, extended⟩, found⟩ := Option.ne_none_iff_exists'.mp known
  exact ⟨alone, extended, found⟩

theorem continuation?_eq_some_iff {sign : Symbol} {next : Char} :
    sign.continuation? = some next ↔
      (sign ∈ [bang, equal, less, greater] ∧ next = '=') ∨
        (sign = slash ∧ next = '/') := by
  cases sign <;> simp [continuation?, eq_comm]

theorem continuation?_of_punctuation? {mark : Char} {sign : Symbol}
    (found : punctuation? mark = some sign) : sign.continuation? = none := by
  unfold punctuation? at found
  split at found <;> cases found <;> rfl

theorem continuation?_of_comparison? {mark : Char} {alone extended : Symbol}
    (found : comparison? mark = some (alone, extended)) :
    alone.continuation? = some '=' ∧ extended.continuation? = none := by
  unfold comparison? at found
  split at found <;> cases found <;> exact ⟨rfl, rfl⟩

end Symbol

namespace Piece

/-- The characters that stand between symbols without a diagnostic. -/
def spaces : List Char :=
  [' ', '\r', '\t', '\n']

/-- Whether the language has no use for a character. -/
def isUnexpected (character : Char) : Bool :=
  decide (character ∉ Symbol.alphabet ∧ character ∉ spaces)

/-- Whether a character is read as part of a piece that it directly follows. -/
def ContinuedBy : Piece → Char → Prop
  | symbol sign, next => sign.continuation? = some next
  | comment _, next => next ≠ '\n'
  | _, _ => False

/-- Whether a piece can be read at all, whatever follows it. -/
def WellFormed : Piece → Prop
  | symbol _ => True
  | comment body => '\n' ∉ body
  | blank character => isBlank character = true
  | newline => True
  | stray character => isUnexpected character = true

/-- Whether a piece is what is read off in front of a text. -/
structure StandsBefore (piece : Piece) (rest : List Char) : Prop where
  wellFormed : piece.WellFormed
  ends : ∀ next, rest.head? = some next → ¬ piece.ContinuedBy next

theorem exists_comment_or_ne (piece : Piece) :
    (∃ body, piece = comment body) ∨ ∀ body, piece ≠ comment body := by
  cases piece <;> simp

theorem exists_stray_or_ne (piece : Piece) :
    (∃ character, piece = stray character) ∨
      ∀ character, piece ≠ stray character := by
  cases piece <;> simp

theorem byteLength_pos (piece : Piece) : 0 < piece.byteLength := by
  apply Nat.pos_of_ne_zero
  rw [byteLength, ne_eq, TextBytes.byteLength_eq_zero]
  exact piece.text_ne_nil

theorem isBlank_iff (character : Char) :
    isBlank character = true ↔ character ∈ [' ', '\r', '\t'] := by
  simp [isBlank, or_assoc]

theorem mem_spaces_iff (character : Char) :
    character ∈ spaces ↔ isBlank character = true ∨ character = '\n' := by
  simp [spaces, isBlank, or_assoc]

theorem notMem_alphabet_of_mem_spaces {character : Char}
    (space : character ∈ spaces) : character ∉ Symbol.alphabet := by
  simp only [spaces, List.mem_cons, List.not_mem_nil, or_false] at space
  rcases space with rfl | rfl | rfl | rfl <;> decide

theorem isUnexpected_iff (character : Char) :
    isUnexpected character = true ↔
      Symbol.punctuation? character = none ∧
        Symbol.comparison? character = none ∧
        character ≠ '/' ∧ character ≠ '\n' ∧ isBlank character = false := by
  rw [Symbol.punctuation?_eq_none_iff, Symbol.comparison?_eq_none_iff]
  simp only [isUnexpected, Symbol.alphabet, spaces, isBlank, decide_eq_true_eq,
    List.mem_append, List.mem_cons, List.not_mem_nil, Bool.or_eq_false_iff,
    beq_eq_false_iff_ne]
  tauto

/-- Only the first character behind a piece decides where it ends. -/
theorem StandsBefore.of_head? {piece : Piece} {first second : List Char}
    (stands : piece.StandsBefore first)
    (heads : ∀ next, second.head? = some next → first.head? = some next) :
    piece.StandsBefore second :=
  ⟨stands.wellFormed, fun next head => stands.ends next (heads next head)⟩

theorem StandsBefore.eq_newline_of_comment {body rest : List Char} {next : Char}
    (stands : (comment body).StandsBefore rest)
    (head : rest.head? = some next) : next = '\n' :=
  not_not.mp (stands.ends next head)

theorem standsBefore_nil {piece : Piece} :
    piece.StandsBefore [] ↔ piece.WellFormed := by
  constructor
  · exact StandsBefore.wellFormed
  · intro wellFormed
    exact ⟨wellFormed, by simp⟩

theorem ne_newline_of_notMem {line : List Char} (inside : '\n' ∉ line) :
    ∀ character ∈ line, (character != '\n') = true := by
  intro character member
  have different : character ≠ '\n' := by
    rintro rfl
    exact inside member
  simpa using different

theorem lineOf_append {line : List Char} (inside : '\n' ∉ line)
    (text : List Char) :
    lineOf (line ++ text) = line ++ lineOf text ∧
      behindLine (line ++ text) = behindLine text := by
  have kept := ne_newline_of_notMem inside
  exact ⟨List.takeWhile_append_of_pos kept, List.dropWhile_append_of_pos kept⟩

theorem lineOf_behindLine_of_ends {body rest : List Char}
    (inside : '\n' ∉ body)
    (ends : ∀ next, rest.head? = some next → next = '\n') :
    lineOf (body ++ rest) = body ∧ behindLine (body ++ rest) = rest := by
  obtain ⟨line, behind⟩ := lineOf_append inside rest
  rw [line, behind]
  cases rest with
  | nil => simp [lineOf, behindLine]
  | cons next rest =>
      have newline : next = '\n' := ends next rfl
      simp [lineOf, behindLine, newline]

theorem newline_notMem_lineOf (text : List Char) : '\n' ∉ lineOf text := by
  intro member
  have kept := List.mem_takeWhile_imp member
  simp at kept

theorem head?_behindLine {text : List Char} {next : Char}
    (head : (behindLine text).head? = some next) : next = '\n' := by
  have dropped := List.head?_dropWhile_not (fun character => character != '\n') text
  unfold behindLine at head
  rw [head] at dropped
  simpa using dropped

theorem readComparison_of_ends {alone extended : Symbol} {rest : List Char}
    (ends : rest.head? ≠ some '=') :
    readComparison alone extended rest = (symbol alone, rest) := by
  unfold readComparison
  split
  · simp at ends
  · rfl

theorem readSlash_of_ends {rest : List Char} (ends : rest.head? ≠ some '/') :
    readSlash rest = (symbol .slash, rest) := by
  unfold readSlash
  split
  · simp at ends
  · rfl

theorem read_symbol {sign : Symbol} {first : Char} {rest tail : List Char}
    (ends : ∀ next, rest.head? = some next → sign.continuation? ≠ some next)
    (starts : sign.spelling ++ rest = first :: tail) :
    read first tail = (symbol sign, rest) := by
  have notContinued : ∀ next, sign.continuation? = some next →
      rest.head? ≠ some next := by
    intro next continuation head
    exact ends next head continuation
  cases sign
  case bang | equal | greater | less =>
    obtain ⟨rfl, rfl⟩ := List.cons.inj starts
    exact readComparison_of_ends (notContinued '=' rfl)
  case slash =>
    obtain ⟨rfl, rfl⟩ := List.cons.inj starts
    exact readSlash_of_ends (notContinued '/' rfl)
  all_goals
    obtain ⟨rfl, rfl⟩ := List.cons.inj starts
    rfl

theorem read_of_isUnexpected {character : Char}
    (unexpected : isUnexpected character = true) (rest : List Char) :
    read character rest = (stray character, rest) := by
  obtain ⟨noMark, noComparison, notSlash, notLine, notBlank⟩ :=
    (isUnexpected_iff character).mp unexpected
  simp [read, noMark, noComparison, notSlash, notLine, notBlank]

theorem read_of_isBlank {character : Char}
    (space : isBlank character = true) (rest : List Char) :
    read character rest = (blank character, rest) := by
  have listed := (isBlank_iff character).mp space
  simp only [List.mem_cons, List.not_mem_nil, or_false] at listed
  rcases listed with rfl | rfl | rfl <;> rfl

theorem read_eq_of_standsBefore {piece : Piece} {first : Char}
    {rest tail : List Char} (stands : piece.StandsBefore rest)
    (starts : piece.text ++ rest = first :: tail) :
    read first tail = (piece, rest) := by
  cases piece with
  | symbol sign => exact read_symbol stands.ends starts
  | comment body =>
      obtain ⟨rfl, rfl⟩ := List.cons.inj starts
      have line := lineOf_behindLine_of_ends stands.wellFormed
        fun next head => stands.eq_newline_of_comment head
      change (comment (lineOf (body ++ rest)), behindLine (body ++ rest)) =
        (comment body, rest)
      rw [line.1, line.2]
  | blank character =>
      obtain ⟨rfl, rfl⟩ := List.cons.inj starts
      exact read_of_isBlank stands.wellFormed rest
  | newline =>
      obtain ⟨rfl, rfl⟩ := List.cons.inj starts
      rfl
  | stray character =>
      obtain ⟨rfl, rfl⟩ := List.cons.inj starts
      exact read_of_isUnexpected stands.wellFormed rest

theorem standsBefore_readComparison {mark : Char} {alone extended : Symbol}
    (found : Symbol.comparison? mark = some (alone, extended))
    (rest : List Char) :
    (readComparison alone extended rest).1.StandsBefore
      (readComparison alone extended rest).2 := by
  obtain ⟨aloneNext, extendedNext⟩ :=
    Symbol.continuation?_of_comparison? found
  unfold readComparison
  split
  next =>
    exact ⟨trivial, fun next _ => by simp [ContinuedBy, extendedNext]⟩
  next notEqual =>
    refine ⟨trivial, ?_⟩
    intro next head
    change alone.continuation? ≠ some next
    rw [aloneNext]
    rintro ⟨rfl⟩
    cases rest with
    | nil => simp at head
    | cons first rest =>
        obtain rfl : first = '=' := Option.some.inj head
        exact notEqual rest rfl

theorem standsBefore_readSlash (rest : List Char) :
    (readSlash rest).1.StandsBefore (readSlash rest).2 := by
  unfold readSlash
  split
  next rest =>
    refine ⟨newline_notMem_lineOf rest, ?_⟩
    intro next head
    exact not_not.mpr (head?_behindLine head)
  next notSlash =>
    refine ⟨trivial, ?_⟩
    rintro next head ⟨rfl⟩
    cases rest with
    | nil => simp at head
    | cons first rest =>
        obtain rfl : first = '/' := Option.some.inj head
        exact notSlash rest rfl

theorem standsBefore_read (first : Char) (rest : List Char) :
    (read first rest).1.StandsBefore (read first rest).2 := by
  unfold read
  split
  next mark _ found =>
    have noNext := Symbol.continuation?_of_punctuation? found
    exact ⟨trivial, fun next _ => by simp [ContinuedBy, noNext]⟩
  next alone extended _ found =>
    exact standsBefore_readComparison found rest
  next noMark noComparison =>
    split
    next => exact standsBefore_readSlash rest
    next notSlash =>
      split
      next => exact ⟨trivial, fun _ _ => id⟩
      next notLine =>
        split
        next space => exact ⟨space, fun _ _ => id⟩
        next noSpace =>
          refine ⟨(isUnexpected_iff first).mpr ?_, fun _ _ => id⟩
          exact ⟨noMark, noComparison, notSlash, notLine, by simpa using noSpace⟩

theorem cut_text_append {piece : Piece} {rest : List Char}
    (stands : piece.StandsBefore rest) :
    cut (piece.text ++ rest) = piece :: cut rest := by
  cases starts : piece.text ++ rest with
  | nil => exact absurd (List.append_eq_nil_iff.mp starts).1 piece.text_ne_nil
  | cons first tail =>
      rw [cut_cons, read_eq_of_standsBefore stands starts]

theorem cut_text {piece : Piece} (wellFormed : piece.WellFormed) :
    cut piece.text = [piece] := by
  have alone := cut_text_append (standsBefore_nil.mpr wellFormed)
  rwa [List.append_nil, cut_nil] at alone

theorem exists_piece_of_ne_nil {text : List Char} (nonempty : text ≠ []) :
    ∃ piece rest, StandsBefore piece rest ∧ text = piece.text ++ rest := by
  obtain ⟨first, rest, rfl⟩ := List.exists_cons_of_ne_nil nonempty
  exact ⟨_, _, standsBefore_read first rest, (text_read first rest).symm⟩

/-- Texts are built by putting a piece in front of a text that does not continue
it. -/
@[elab_as_elim]
theorem cutInduction {motive : List Char → Prop} (nil : motive [])
    (piece : ∀ (piece : Piece) (rest : List Char), piece.StandsBefore rest →
      motive rest → motive (piece.text ++ rest))
    (source : List Char) : motive source := by
  fun_induction cut source with
  | case1 => exact nil
  | case2 first rest reading ih =>
      rw [← text_read first rest]
      exact piece _ _ (standsBefore_read first rest) ih

theorem eq_of_text_eq {first second : Piece} (firstFormed : first.WellFormed)
    (secondFormed : second.WellFormed) (same : first.text = second.text) :
    first = second := by
  have firstCut := cut_text firstFormed
  have secondCut := cut_text secondFormed
  rw [same, secondCut] at firstCut
  exact (List.cons.inj firstCut).1.symm

/-- Whether pieces are read off one by one in front of a text. -/
def Fit : List Piece → List Char → Prop
  | [], _ => True
  | piece :: pieces, rest =>
      piece.StandsBefore (pieces.flatMap text ++ rest) ∧ Fit pieces rest

theorem fit_append {first second : List Piece} {rest : List Char} :
    Fit (first ++ second) rest ↔
      Fit first (second.flatMap text ++ rest) ∧ Fit second rest := by
  induction first with
  | nil => simp [Fit]
  | cons piece first ih =>
      simp only [List.cons_append, Fit, ih, List.flatMap_append,
        List.append_assoc]
      exact and_assoc.symm

theorem fit_cut (source : List Char) : Fit (cut source) [] := by
  fun_induction cut source with
  | case1 => trivial
  | case2 first rest reading ih =>
      refine ⟨?_, ih⟩
      rw [flatMap_text_cut, List.append_nil]
      exact standsBefore_read first rest

theorem Fit.wellFormed {pieces : List Piece} {rest : List Char}
    (fit : Fit pieces rest) : ∀ piece ∈ pieces, piece.WellFormed := by
  induction pieces with
  | nil => simp
  | cons piece pieces ih =>
      intro member membership
      rcases List.mem_cons.mp membership with rfl | later
      · exact fit.1.wellFormed
      · exact ih fit.2 member later

theorem wellFormed_of_mem_cut {source : List Char} {piece : Piece}
    (member : piece ∈ cut source) : piece.WellFormed :=
  (fit_cut source).wellFormed piece member

/-- Pieces that fit in front of a text are cut off it, and what is behind them
is cut as if it stood alone. -/
theorem cut_append_of_fit {pieces : List Piece} {rest : List Char}
    (fit : Fit pieces rest) :
    cut (pieces.flatMap text ++ rest) = pieces ++ cut rest := by
  induction pieces with
  | nil => rfl
  | cons piece pieces ih =>
      rw [List.flatMap_cons, List.append_assoc, cut_text_append fit.1,
        ih fit.2, List.cons_append]

theorem Fit.of_head? {pieces : List Piece} {first second : List Char}
    (fit : Fit pieces first)
    (heads : ∀ next, second.head? = some next → first.head? = some next) :
    Fit pieces second := by
  induction pieces with
  | nil => trivial
  | cons piece pieces ih =>
      refine ⟨fit.1.of_head? ?_, ih fit.2⟩
      cases pieces.flatMap text with
      | nil => exact heads
      | cons character others => exact fun _ => id

/-- Of the pieces of a text, only the last can be read otherwise when another
text follows. -/
theorem cut_append_of_cut_eq {first : List Char} {pieces : List Piece}
    {last : Piece} (cutEq : cut first = pieces ++ [last]) (second : List Char) :
    cut (first ++ second) = pieces ++ cut (last.text ++ second) := by
  have fit := fit_cut first
  rw [cutEq, fit_append] at fit
  have fitBefore : Fit pieces (last.text ++ second) := by
    apply fit.1.of_head?
    obtain ⟨character, others, starts⟩ :=
      List.exists_cons_of_ne_nil last.text_ne_nil
    intro next head
    rw [starts] at head
    simpa [starts] using head
  have whole := flatMap_text_cut first
  rw [cutEq] at whole
  rw [← cut_append_of_fit fitBefore, ← whole]
  simp

/-- Whether a text does not continue the last piece of another. -/
def Apart (first second : List Char) : Prop :=
  ∀ last ∈ (cut first).getLast?, ∀ next, second.head? = some next →
    ¬ last.ContinuedBy next

/-- Texts that are apart are cut apart. -/
theorem cut_append_of_apart {first second : List Char}
    (apart : Apart first second) :
    cut (first ++ second) = cut first ++ cut second := by
  rcases List.eq_nil_or_concat' (cut first) with nothing | ⟨pieces, last, cutEq⟩
  · have empty := flatMap_text_cut first
    rw [nothing] at empty
    simp [← empty]
  · have formed : last.WellFormed := wellFormed_of_mem_cut (by rw [cutEq]; simp)
    rw [cut_append_of_cut_eq cutEq, cutEq,
      cut_text_append ⟨formed, apart last (by simp [cutEq])⟩]
    simp

/-- A text that is apart from what stands before it is built by putting a piece
in front of a text that is apart from what then stands before it. -/
@[elab_as_elim]
theorem apartInduction {motive : List Char → List Char → Prop}
    (nil : ∀ before, motive before [])
    (piece : ∀ (before : List Char) (piece : Piece) (rest : List Char),
      piece.StandsBefore rest → Apart before (piece.text ++ rest) →
        motive (before ++ piece.text) rest →
          motive before (piece.text ++ rest))
    (before text : List Char) (apart : Apart before text) :
    motive before text := by
  induction text using cutInduction generalizing before with
  | nil => exact nil before
  | piece first rest stands ih =>
      have firstApart : Apart before first.text := by
        intro last isLast next head
        exact apart last isLast next (by simp [head])
      -- Behind the piece, the piece itself is the last that was read.
      have restApart : Apart (before ++ first.text) rest := by
        intro last isLast next head
        rw [cut_append_of_apart firstApart, cut_text stands.wellFormed,
          List.getLast?_concat, Option.mem_some_iff] at isLast
        rw [← isLast]
        exact stands.ends next head
      exact piece before first rest stands apart (ih _ restApart)

end Piece
end Lox
