import Lox.Proofs.AppendedText
import Lox.Proofs.Concatenation
import Lox.Proofs.Layout

/-!
# Two texts with blanks between them

The pieces of two texts that are written one after the other stay as they are when
blanks come between the texts, but for a comment that the blanks make longer, unless
the last symbol of the first text and the beginning of the second are read as one.
This file says when that is so, and proves what becomes of the tokens and diagnostics
in either case.
-/

namespace Lox

/-- One or more blanks. -/
structure Padding where
  text : String
  nonempty : text ≠ ""
  blank : ∀ character ∈ text.toList, Piece.isBlank character = true

namespace Position

theorem after_injective {piece : Piece} {first second : Position}
    (same : first.after piece = second.after piece) : first = second := by
  obtain ⟨firstOffset, firstLine⟩ := first
  obtain ⟨secondOffset, secondLine⟩ := second
  cases piece <;> simpa [after] using same

theorem afterAll_injective {pieces : List Piece} {first second : Position}
    (same : first.afterAll pieces = second.afterAll pieces) : first = second := by
  induction pieces generalizing first second with
  | nil => exact same
  | cons piece pieces ih => exact after_injective (ih same)

end Position

namespace Padding

def carriageReturn : Padding where
  text := "\r"
  nonempty := by decide
  blank character member := by
    obtain rfl : character = '\r' := by simpa using member
    rfl

variable (padding : Padding)

theorem toList_ne_nil : padding.text.toList ≠ [] := by
  simpa using padding.nonempty

theorem newline_notMem : '\n' ∉ padding.text.toList := by
  intro member
  exact absurd (padding.blank '\n' member) (by decide)

def gap : Gap where
  text := padding.text.toList
  spaces character member :=
    (Piece.mem_spaces_iff character).mpr (.inl (padding.blank character member))

/-- A text with blanks in front begins with a space. -/
theorem head?_append {text : List Char} {next : Char}
    (head : (padding.text.toList ++ text).head? = some next) :
    next ∈ Piece.spaces := by
  rw [List.head?_append_of_ne_nil _ padding.toList_ne_nil] at head
  exact padding.gap.spaces next (List.mem_of_head? head)

/-- Blanks lead no further than their bytes. -/
theorem behind_append (first second : List Char) :
    Position.behind (first ++ (padding.text.toList ++ second)) =
      (Position.behind (first ++ second)).moved
        (TextBytes.byteLength padding.text.toList) 0 := by
  have noLine := List.count_eq_zero.mpr padding.newline_notMem
  simp [Position.behind, Position.moved, noLine]
  omega

end Padding

/-- What a token says, apart from the bytes that it covers. -/
def Token.reading (token : Token) : Kind × String × Nat :=
  (token.kind, token.lexeme, token.line)

/-- A token of a source after bytes were put in at an offset. -/
def Token.madeRoom (token : Token) (offset bytes : Nat) : Token :=
  if token.span.stop ≤ offset then token else token.moved bytes 0

@[simp]
theorem Token.reading_madeRoom (token : Token) (offset bytes : Nat) :
    (token.madeRoom offset bytes).reading = token.reading := by
  unfold madeRoom
  split <;> rfl

namespace Piece

def isSymbol : Piece → Bool
  | symbol _ => true
  | _ => false

/-- The last symbol of a text and the beginning of another are read as one. -/
inductive Fused (first second : List Char) : Prop
  | comparison {pieces : List Piece} {sign longer : Symbol} {rest : List Char}
      (cutEq : cut first = pieces ++ [symbol sign])
      (extended : sign.withEqual? = some longer) (next : second = '=' :: rest)
  | slashes {pieces : List Piece} {rest : List Char}
      (cutEq : cut first = pieces ++ [symbol .slash])
      (next : second = '/' :: rest)

theorem fused_of_continued {first second : List Char} {pieces : List Piece}
    {sign : Symbol} {next : Char} (cutEq : cut first = pieces ++ [symbol sign])
    (head : second.head? = some next)
    (continued : sign.continuation? = some next) : Fused first second := by
  obtain ⟨rest, rfl⟩ := List.head?_eq_some_iff.mp head
  rcases Symbol.continuation?_eq_some_iff.mp continued with
    ⟨listed, rfl⟩ | ⟨rfl, rfl⟩
  · obtain ⟨longer, extended⟩ := Symbol.exists_withEqual? listed
    exact .comparison cutEq extended rfl
  · exact .slashes cutEq rfl

theorem cut_append_equal {first rest : List Char} {pieces : List Piece}
    {sign longer : Symbol} (cutEq : cut first = pieces ++ [symbol sign])
    (extended : sign.withEqual? = some longer) :
    cut (first ++ '=' :: rest) = pieces ++ symbol longer :: cut rest := by
  obtain ⟨-, noNext, spelled⟩ := Symbol.of_withEqual? extended
  have stands : (symbol longer).StandsBefore rest :=
    ⟨trivial, fun next _ => by simp [ContinuedBy, noNext]⟩
  rw [cut_append_of_cut_eq cutEq, ← cut_text_append stands, text, text, spelled,
    List.append_assoc, List.singleton_append]

theorem cut_append_slash {first rest : List Char} {pieces : List Piece}
    (cutEq : cut first = pieces ++ [symbol .slash]) :
    cut (first ++ '/' :: rest) =
      pieces ++ comment (lineOf rest) :: cut (behindLine rest) := by
  rw [cut_append_of_cut_eq cutEq]
  change pieces ++ cut ('/' :: '/' :: rest) = _
  rw [cut_cons]
  rfl

/-- Texts are cut apart when no comment is open between them and no symbol. -/
theorem apart_of_not_fused {first second : List Char}
    (closed : ∀ body, (cut first).getLast? ≠ some (comment body))
    (separate : ¬ Fused first second) : Apart first second := by
  intro last isLast next head continued
  obtain ⟨pieces, cutEq⟩ := List.getLast?_eq_some_iff.mp isLast
  cases last with
  | symbol sign => exact separate (fused_of_continued cutEq head continued)
  | comment body => exact closed body isLast
  | _ => exact continued

theorem not_fused_padding (padding : Padding) (first second : List Char) :
    ¬ Fused first (padding.text.toList ++ second) := by
  have noSpace : ∀ {next : Char} {rest : List Char},
      padding.text.toList ++ second = next :: rest → next ∈ Piece.spaces := by
    intro next rest starts
    exact padding.head?_append (by rw [starts]; rfl)
  rintro (⟨-, -, starts⟩ | ⟨-, starts⟩)
  · exact absurd (noSpace starts) (by decide)
  · exact absurd (noSpace starts) (by decide)

/-- Blanks behind a text that is not in a comment are read as blanks. -/
theorem cut_append_padding_append (padding : Padding) {first : List Char}
    (closed : ∀ body, (cut first).getLast? ≠ some (comment body))
    (second : List Char) :
    cut (first ++ (padding.text.toList ++ second)) =
      cut first ++ padding.text.toList.map Layout.spacePiece ++ cut second := by
  have apart := apart_of_not_fused closed (not_fused_padding padding first second)
  rw [cut_append_of_apart apart, List.append_assoc]
  exact congrArg _ (Layout.cut_gap_append padding.gap second)

end Piece

namespace PlacedPiece

/-- Pieces that show nothing, wherever they stand. -/
def Silent (pieces : List Piece) : Prop :=
  ∀ position, tokensFrom position pieces = [] ∧
    diagnosticsFrom position pieces = []

theorem silent_comment (body : List Char) : Silent [.comment body] :=
  fun _ => ⟨rfl, rfl⟩

/-- How the pieces of two texts stay the same when blanks come between the texts:
only some that show nothing give way to others. -/
structure MakesRoom (padding : Padding) (first second : List Char)
    (before between wider behind : List Piece) : Prop where
  cut : Piece.cut (first ++ second) = before ++ between ++ behind
  cutPadded : Piece.cut (first ++ (padding.text.toList ++ second)) =
    before ++ wider ++ behind
  silent : Silent between
  widerSilent : Silent wider
  ends : (Position.origin.afterAll before).offset ≤
    TextBytes.byteLength first
  starts : TextBytes.byteLength first ≤
    (Position.origin.afterAll (before ++ between)).offset

theorem exists_makesRoom_of_closed (padding : Padding) {first second : List Char}
    (closed : ∀ body, (Piece.cut first).getLast? ≠ some (.comment body))
    (separate : ¬ Piece.Fused first second) :
    ∃ before between wider behind,
      MakesRoom padding first second before between wider behind := by
  have apart := Piece.apart_of_not_fused closed separate
  have reached : (Position.origin.afterAll (Piece.cut first)).offset =
      TextBytes.byteLength first := by
    rw [Position.afterAll_origin_cut]
    rfl
  refine ⟨Piece.cut first, [], padding.text.toList.map Layout.spacePiece,
    Piece.cut second, ?_, ?_, fun _ => ⟨rfl, rfl⟩, ?_, reached.le, ?_⟩
  · rw [Piece.cut_append_of_apart apart, List.append_nil]
  · exact Piece.cut_append_padding_append padding closed second
  · exact fun position => Layout.nothing_of_spacePieces position _
  · rw [List.append_nil]
    exact reached.ge

/-- Behind an open comment, blanks belong to the comment. -/
theorem exists_makesRoom_of_comment (padding : Padding) {first : List Char}
    {pieces : List Piece} {body : List Char}
    (cutEq : Piece.cut first = pieces ++ [.comment body]) (second : List Char) :
    ∃ before between wider behind,
      MakesRoom padding first second before between wider behind := by
  obtain ⟨line, behind⟩ := Piece.lineOf_append padding.newline_notMem second
  have inside := Piece.newline_notMem_lineOf second
  have insidePadded : '\n' ∉ padding.text.toList ++ Piece.lineOf second := by
    simp [padding.newline_notMem, inside]
  have reached := offset_after_of_cut_eq cutEq
  refine ⟨pieces, [.comment (body ++ Piece.lineOf second)],
    [.comment (body ++ (padding.text.toList ++ Piece.lineOf second))],
    Piece.cut (Piece.behindLine second), ?_, ?_, silent_comment _,
    silent_comment _, ?_, ?_⟩
  · rw [Piece.cut_append_lineOf, cut_comment_append cutEq inside]
  · rw [Piece.cut_append_lineOf, line, behind,
      cut_comment_append cutEq insidePadded]
  · rw [← reached]
    exact (Position.offset_lt_after _ _).le
  · rw [← reached, Position.afterAll_append]
    simp [Position.afterAll, Position.after, Piece.byteLength, Piece.text]

theorem exists_makesRoom (padding : Padding) {first second : List Char}
    (separate : ¬ Piece.Fused first second) :
    ∃ before between wider behind,
      MakesRoom padding first second before between wider behind := by
  by_cases opened : ∃ body, (Piece.cut first).getLast? = some (.comment body)
  · obtain ⟨body, isLast⟩ := opened
    obtain ⟨pieces, cutEq⟩ := List.getLast?_eq_some_iff.mp isLast
    exact exists_makesRoom_of_comment padding cutEq second
  · rw [not_exists] at opened
    exact exists_makesRoom_of_closed padding opened separate

namespace MakesRoom

variable {padding : Padding} {first second : List Char}
  {before between wider behind : List Piece}

/-- What stands behind the blanks is moved by the bytes that they take. -/
theorem afterAll_wider
    (room : MakesRoom padding first second before between wider behind) :
    Position.origin.afterAll (before ++ wider) =
      (Position.origin.afterAll (before ++ between)).moved
        (TextBytes.byteLength padding.text.toList) 0 := by
  have whole := Position.afterAll_origin_cut (first ++ second)
  have wholePadded := Position.afterAll_origin_cut
    (first ++ (padding.text.toList ++ second))
  -- The pieces behind lead from either place to the end of the text.
  rw [room.cut, Position.afterAll_append] at whole
  rw [room.cutPadded, Position.afterAll_append, padding.behind_append, ← whole,
    ← Position.moved_afterAll] at wholePadded
  exact Position.afterAll_injective wholePadded

/-- No token reaches over the place where the blanks come. -/
theorem stop_le_or_le_start
    (room : MakesRoom padding first second before between wider behind)
    {token : Token}
    (member : token ∈ tokensFrom .origin (Piece.cut (first ++ second))) :
    token.span.stop ≤ TextBytes.byteLength first ∨
      TextBytes.byteLength first ≤ token.span.start := by
  rw [room.cut, tokensFrom_append, tokensFrom_append, (room.silent _).1,
    List.append_nil, List.mem_append] at member
  rcases member with early | late
  · exact .inl ((bounds_of_mem_tokensFrom early).2.2.trans room.ends)
  · exact .inr (room.starts.trans (bounds_of_mem_tokensFrom late).1)

/-- Tokens that end before the blanks stay, and all others are moved. -/
theorem tokensFrom_cutPadded
    (room : MakesRoom padding first second before between wider behind) :
    tokensFrom .origin
        (Piece.cut (first ++ (padding.text.toList ++ second))) =
      (tokensFrom .origin (Piece.cut (first ++ second))).map fun token =>
        token.madeRoom (TextBytes.byteLength first)
          (TextBytes.byteLength padding.text.toList) := by
  rw [room.cut, room.cutPadded, tokensFrom_append, tokensFrom_append,
    tokensFrom_append, tokensFrom_append, (room.silent _).1,
    (room.widerSilent _).1, room.afterAll_wider, tokensFrom_moved,
    List.append_nil, List.map_append]
  congr 1
  · have stay : ∀ token ∈ tokensFrom .origin before,
        token.madeRoom (TextBytes.byteLength first)
          (TextBytes.byteLength padding.text.toList) = token := by
      intro token member
      have bounds := bounds_of_mem_tokensFrom member
      exact if_pos (bounds.2.2.trans room.ends)
    rw [List.map_congr_left stay, List.map_id']
  · apply List.map_congr_left
    intro token member
    have bounds := bounds_of_mem_tokensFrom member
    have starts := room.starts
    rw [Token.madeRoom, if_neg (by omega)]

theorem diagnosticsFrom_cutPadded
    (room : MakesRoom padding first second before between wider behind) :
    diagnosticsFrom .origin
        (Piece.cut (first ++ (padding.text.toList ++ second))) =
      diagnosticsFrom .origin (Piece.cut (first ++ second)) := by
  rw [room.cut, room.cutPadded, diagnosticsFrom_append, diagnosticsFrom_append,
    diagnosticsFrom_append, diagnosticsFrom_append, (room.silent _).2,
    (room.widerSilent _).2, room.afterAll_wider, diagnosticsFrom_moved]
  congr 1
  exact List.map_id _

end MakesRoom

/-! ## Blanks between characters that are read as one -/

theorem exists_token_of_symbol (position : Position) (pieces : List Piece)
    (sign : Symbol) (others : List Piece) :
    ∃ token rest, tokensFrom position (pieces ++ .symbol sign :: others) =
        tokensFrom position pieces ++ token :: rest ∧
      token.kind = .symbol sign := by
  obtain ⟨token, found⟩ : ∃ token,
      token? ⟨.symbol sign, position.afterAll pieces⟩ = some token := ⟨_, rfl⟩
  refine ⟨token, _, by rw [tokensFrom_append, tokensFrom_cons, found]; rfl, ?_⟩
  obtain rfl := Option.some.inj found
  rfl

/-- A scan returns as many tokens as there are symbols, wherever they stand. -/
theorem length_tokensFrom (position : Position) (pieces : List Piece) :
    (tokensFrom position pieces).length = pieces.countP Piece.isSymbol := by
  induction pieces generalizing position with
  | nil => rfl
  | cons piece pieces ih =>
      rw [tokensFrom_cons, List.length_append, ih, List.countP_cons]
      cases piece <;> simp [token?, Piece.isSymbol, Nat.add_comm]

/-- Without the blanks, a comparison is read in place of its first character. -/
theorem readings_ne_of_comparison (padding : Padding)
    {first rest : List Char} {pieces : List Piece} {sign longer : Symbol}
    (cutEq : Piece.cut first = pieces ++ [.symbol sign])
    (extended : sign.withEqual? = some longer) :
    (tokensFrom .origin (Piece.cut
        (first ++ (padding.text.toList ++ '=' :: rest)))).map Token.reading ≠
      (tokensFrom .origin (Piece.cut (first ++ '=' :: rest))).map
        Token.reading := by
  intro same
  have closed : ∀ body, (Piece.cut first).getLast? ≠ some (.comment body) := by
    simp [cutEq]
  rw [Piece.cut_append_padding_append padding closed,
    Piece.cut_append_equal cutEq extended, cutEq, List.append_assoc,
    List.append_assoc, List.singleton_append] at same
  obtain ⟨alone, others, aloneEq, aloneKind⟩ := exists_token_of_symbol
    .origin pieces sign
      (padding.text.toList.map Layout.spacePiece ++ Piece.cut ('=' :: rest))
  obtain ⟨joined, behind, joinedEq, joinedKind⟩ := exists_token_of_symbol
    .origin pieces longer (Piece.cut rest)
  rw [aloneEq, joinedEq, List.map_append, List.map_append,
    List.append_cancel_left_eq, List.map_cons, List.map_cons] at same
  have sameKind : alone.kind = joined.kind :=
    congrArg Prod.fst (List.cons.inj same).1
  rw [aloneKind, joinedKind, Kind.symbol.injEq] at sameKind
  obtain ⟨continued, noNext, -⟩ := Symbol.of_withEqual? extended
  rw [sameKind, noNext] at continued
  exact Option.some_ne_none _ continued.symm

/-- Without the blanks, a comment is read in place of a slash. -/
theorem readings_ne_of_slashes (padding : Padding)
    {first rest : List Char} {pieces : List Piece}
    (cutEq : Piece.cut first = pieces ++ [.symbol .slash]) :
    (tokensFrom .origin (Piece.cut
        (first ++ (padding.text.toList ++ '/' :: rest)))).map Token.reading ≠
      (tokensFrom .origin (Piece.cut (first ++ '/' :: rest))).map
        Token.reading := by
  intro same
  have closed : ∀ body, (Piece.cut first).getLast? ≠ some (.comment body) := by
    simp [cutEq]
  have apart : Piece.cut ('/' :: rest) =
      Piece.cut ('/' :: Piece.lineOf rest) ++
        Piece.cut (Piece.behindLine rest) :=
    Piece.cut_append_lineOf ['/'] rest
  -- The tokens behind the line are the same ones, so the slash is one too many.
  have lengths := congrArg List.length same
  rw [Piece.cut_append_padding_append padding closed,
    Piece.cut_append_slash cutEq, cutEq, apart, List.length_map,
    List.length_map, length_tokensFrom, length_tokensFrom] at lengths
  simp [List.countP_cons, Piece.isSymbol] at lengths
  omega

theorem readings_ne_of_fused (padding : Padding) {first second : List Char}
    (fused : Piece.Fused first second) :
    (tokensFrom .origin (Piece.cut
        (first ++ (padding.text.toList ++ second)))).map Token.reading ≠
      (tokensFrom .origin (Piece.cut (first ++ second))).map Token.reading := by
  cases fused with
  | comparison cutEq extended next =>
      rw [next]
      exact readings_ne_of_comparison padding cutEq extended
  | slashes cutEq next =>
      rw [next]
      exact readings_ne_of_slashes padding cutEq

end PlacedPiece
end Lox
