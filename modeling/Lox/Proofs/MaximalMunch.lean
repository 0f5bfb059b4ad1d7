import Lox.Proofs.Placement

/-!
# Maximal munch

Cutting a source into pieces can be described without reading it from left to
right: every part must be of one of the forms below, and no symbol or comment
may stop short of a character that belongs to it.  This file proves that every
source has exactly one such cutting, and that the tokens of a scan are the
symbols of that cutting.
-/

namespace Lox

namespace Symbol

def ofSpelling? (text : List Char) : Option Symbol :=
  all.find? fun sign => sign.spelling == text

theorem ofSpelling?_spelling (sign : Symbol) :
    ofSpelling? sign.spelling = some sign := by
  cases sign <;> rfl

theorem ofSpelling?_eq_some_iff {text : List Char} {sign : Symbol} :
    ofSpelling? text = some sign ↔ sign.spelling = text := by
  constructor
  · intro found
    simpa using List.find?_some found
  · rintro rfl
    exact ofSpelling?_spelling sign

end Symbol

namespace Cutting

inductive SymbolText : List Char → Prop
  | punctuation {mark : Char} (listed : mark ∈ Symbol.punctuationMarks) :
      SymbolText [mark]
  | comparison {mark : Char} (listed : mark ∈ Symbol.comparisonMarks) :
      SymbolText [mark]
  | extended {mark : Char} (listed : mark ∈ Symbol.comparisonMarks) :
      SymbolText [mark, '=']
  | slash : SymbolText ['/']

/-- The parts of a source that the language has a use for. -/
inductive RegularText : List Char → Prop
  | symbol {text : List Char} (spelled : SymbolText text) : RegularText text
  | comment {body : List Char} (inside : '\n' ∉ body) :
      RegularText ('/' :: '/' :: body)
  | blank {character : Char} (listed : character ∈ [' ', '\r', '\t']) :
      RegularText [character]
  | newline : RegularText ['\n']

/-- The parts of a source.  A character that begins nothing else is a part of
its own. -/
inductive PieceText : List Char → Prop
  | regular {text : List Char} (regular : RegularText text) : PieceText text
  | stray {character : Char}
      (startsNothing : ∀ text, RegularText text →
        text.head? ≠ some character) :
      PieceText [character]

/-- No character that belongs to a part is left to what follows it. -/
structure Complete (text rest : List Char) : Prop where
  comparison : ∀ mark ∈ Symbol.comparisonMarks, text = [mark] →
    rest.head? ≠ some '='
  slash : text = ['/'] → rest.head? ≠ some '/'
  comment : ∀ body, text = '/' :: '/' :: body →
    rest = [] ∨ rest.head? = some '\n'

/-- A source cut into consecutive parts, each as long as it can be. -/
structure CutsUp (source : List Char) (texts : List (List Char)) : Prop where
  joined : texts.flatten = source
  nonempty : ∀ text ∈ texts, text ≠ []
  forms : ∀ text ∈ texts, PieceText text
  complete : ∀ before text behind, texts = before ++ text :: behind →
    Complete text behind.flatten

theorem symbolText_iff {text : List Char} :
    SymbolText text ↔ ∃ sign : Symbol, sign.spelling = text := by
  constructor
  · rintro (listed | listed | listed | _)
    · obtain ⟨sign, found⟩ := Symbol.exists_punctuation? listed
      exact ⟨sign, Symbol.spelling_of_punctuation? found⟩
    · obtain ⟨alone, _, found⟩ := Symbol.exists_comparison? listed
      exact ⟨alone, (Symbol.spelling_of_comparison? found).1⟩
    · obtain ⟨_, extended, found⟩ := Symbol.exists_comparison? listed
      exact ⟨extended, (Symbol.spelling_of_comparison? found).2⟩
    · exact ⟨.slash, rfl⟩
  · rintro ⟨sign, rfl⟩
    cases sign
    case slash => exact .slash
    case bang | equal | greater | less => exact .comparison (by decide)
    case bangEqual | equalEqual | greaterEqual | lessEqual =>
      exact .extended (by decide)
    all_goals exact .punctuation (by decide)

theorem head?_of_regularText {text : List Char} {character : Char}
    (regular : RegularText text) (head : text.head? = some character) :
    character ∈ Symbol.alphabet ∨ character ∈ Piece.spaces := by
  rcases regular with (listed | listed | listed | _) | inside | listed | _ <;>
    obtain rfl := Option.some.inj head
  · exact .inl (by simp [Symbol.alphabet, listed])
  · exact .inl (by simp [Symbol.alphabet, listed])
  · exact .inl (by simp [Symbol.alphabet, listed])
  · exact .inl (by decide)
  · exact .inl (by decide)
  · have space := (Piece.isBlank_iff _).mpr listed
    exact .inr ((Piece.mem_spaces_iff _).mpr (.inl space))
  · exact .inr (by decide)

theorem exists_regularText_of_not_isUnexpected {character : Char}
    (expected : Piece.isUnexpected character = false) :
    ∃ text, RegularText text ∧ text.head? = some character := by
  have used : character ∈ Symbol.alphabet ∨ character ∈ Piece.spaces := by
    by_contra neither
    rw [not_or] at neither
    simp [Piece.isUnexpected, neither] at expected
  rcases used with letter | space
  · have letters : character ∈ Symbol.punctuationMarks ∨
        character ∈ Symbol.comparisonMarks ∨ character = '/' := by
      simpa [Symbol.alphabet] using letter
    rcases letters with mark | mark | rfl
    · exact ⟨[character], .symbol (.punctuation mark), rfl⟩
    · exact ⟨[character], .symbol (.comparison mark), rfl⟩
    · exact ⟨['/'], .symbol .slash, rfl⟩
  · rcases (Piece.mem_spaces_iff character).mp space with blank | rfl
    · exact ⟨_, .blank ((Piece.isBlank_iff character).mp blank), rfl⟩
    · exact ⟨_, .newline, rfl⟩

theorem stray_iff {character : Char} :
    (∀ text, RegularText text → text.head? ≠ some character) ↔
      Piece.isUnexpected character = true := by
  constructor
  · intro startsNothing
    by_contra expected
    obtain ⟨text, regular, head⟩ :=
      exists_regularText_of_not_isUnexpected (by simpa using expected)
    exact startsNothing text regular head
  · intro unexpected text regular head
    have neither := of_decide_eq_true unexpected
    rcases head?_of_regularText regular head with letter | space
    · exact neither.1 letter
    · exact neither.2 space

theorem pieceText_text {piece : Piece} (wellFormed : piece.WellFormed) :
    PieceText piece.text := by
  cases piece with
  | symbol sign => exact .regular (.symbol (symbolText_iff.mpr ⟨sign, rfl⟩))
  | comment body => exact .regular (.comment wellFormed)
  | blank character =>
      exact .regular (.blank ((Piece.isBlank_iff character).mp wellFormed))
  | newline => exact .regular .newline
  | stray character => exact .stray (stray_iff.mpr wellFormed)

theorem exists_piece_of_pieceText {text : List Char} (form : PieceText text) :
    ∃ piece : Piece, piece.WellFormed ∧ piece.text = text := by
  rcases form with (spelled | inside | listed | _) | startsNothing
  · obtain ⟨sign, rfl⟩ := symbolText_iff.mp spelled
    exact ⟨.symbol sign, trivial, rfl⟩
  · exact ⟨.comment _, inside, rfl⟩
  · exact ⟨.blank _, (Piece.isBlank_iff _).mpr listed, rfl⟩
  · exact ⟨.newline, trivial, rfl⟩
  · exact ⟨.stray _, stray_iff.mp startsNothing, rfl⟩

theorem continuation?_eq_equal_iff {sign : Symbol} :
    sign.continuation? = some '=' ↔
      ∃ mark ∈ Symbol.comparisonMarks, sign.spelling = [mark] := by
  cases sign <;>
    simp [Symbol.continuation?, Symbol.comparisonMarks, Symbol.spelling]

theorem standsBefore_of_complete {piece : Piece} {rest : List Char}
    (wellFormed : piece.WellFormed) (complete : Complete piece.text rest) :
    piece.StandsBefore rest := by
  refine ⟨wellFormed, ?_⟩
  intro next head continued
  cases piece with
  | symbol sign =>
      rcases Symbol.continuation?_eq_some_iff.mp continued with
        ⟨_, rfl⟩ | ⟨rfl, rfl⟩
      · obtain ⟨mark, listed, spelled⟩ := continuation?_eq_equal_iff.mp continued
        exact complete.comparison mark listed spelled head
      · exact complete.slash rfl head
  | comment body =>
      rcases complete.comment body rfl with rfl | line
      · simp at head
      · exact continued (Option.some.inj (head.symm.trans line))
  | blank character => exact continued
  | newline => exact continued
  | stray character => exact continued

theorem complete_of_standsBefore {piece : Piece} {rest : List Char}
    (stands : piece.StandsBefore rest) : Complete piece.text rest := by
  refine ⟨?_, ?_, ?_⟩
  · intro mark listed isMark head
    obtain ⟨sign, spelled⟩ := symbolText_iff.mp (.comparison listed)
    obtain rfl : piece = .symbol sign :=
      Piece.eq_of_text_eq stands.wellFormed trivial (isMark.trans spelled.symm)
    exact stands.ends '=' head
      (continuation?_eq_equal_iff.mpr ⟨mark, listed, spelled⟩)
  · intro isSlash head
    obtain rfl : piece = .symbol .slash :=
      Piece.eq_of_text_eq stands.wellFormed trivial isSlash
    exact stands.ends '/' head rfl
  · intro body isComment
    cases piece with
    | symbol sign => cases sign <;> simp [Piece.text, Symbol.spelling] at isComment
    | comment other =>
        cases rest with
        | nil => exact .inl rfl
        | cons next rest =>
            have line := stands.eq_newline_of_comment rfl
            exact .inr (by rw [line]; rfl)
    | blank character => simp [Piece.text] at isComment
    | newline => simp [Piece.text] at isComment
    | stray character => simp [Piece.text] at isComment

theorem CutsUp.tail {source text : List Char} {texts : List (List Char)}
    (cutting : CutsUp source (text :: texts)) :
    CutsUp texts.flatten texts where
  joined := rfl
  nonempty member membership :=
    cutting.nonempty member (List.mem_cons_of_mem text membership)
  forms member membership :=
    cutting.forms member (List.mem_cons_of_mem text membership)
  complete before member behind parts :=
    cutting.complete (text :: before) member behind (by rw [parts]; rfl)

/-- Parts that make up a cutting are the texts of pieces that fit. -/
theorem CutsUp.exists_pieces {source : List Char} {texts : List (List Char)}
    (cutting : CutsUp source texts) :
    ∃ pieces : List Piece, pieces.map Piece.text = texts ∧
      Piece.Fit pieces [] := by
  induction texts generalizing source with
  | nil => exact ⟨[], rfl, trivial⟩
  | cons text texts ih =>
      obtain ⟨pieces, rfl, fit⟩ := ih cutting.tail
      obtain ⟨piece, wellFormed, rfl⟩ :=
        exists_piece_of_pieceText (cutting.forms text List.mem_cons_self)
      have complete := cutting.complete [] piece.text (pieces.map Piece.text) rfl
      have stands := standsBefore_of_complete wellFormed complete
      refine ⟨piece :: pieces, rfl, ?_, fit⟩
      rw [List.append_nil, List.flatMap_def]
      exact stands

theorem CutsUp.eq_cut {source : List Char} {texts : List (List Char)}
    (cutting : CutsUp source texts) :
    texts = (Piece.cut source).map Piece.text := by
  obtain ⟨pieces, rfl, fit⟩ := cutting.exists_pieces
  have cutEq := Piece.cut_append_of_fit fit
  rw [List.append_nil, Piece.cut_nil, List.append_nil, List.flatMap_def,
    cutting.joined] at cutEq
  rw [cutEq]

theorem cutsUp_cut (source : List Char) :
    CutsUp source ((Piece.cut source).map Piece.text) where
  joined := by rw [← List.flatMap_def, Piece.flatMap_text_cut]
  nonempty := by
    intro text member
    obtain ⟨piece, _, rfl⟩ := List.mem_map.mp member
    exact piece.text_ne_nil
  forms := by
    intro text member
    obtain ⟨piece, cutMember, rfl⟩ := List.mem_map.mp member
    exact pieceText_text (Piece.wellFormed_of_mem_cut cutMember)
  complete := by
    intro before text behind parts
    obtain ⟨first, second, cutEq, rfl, secondTexts⟩ := List.map_eq_append_iff.mp parts
    obtain ⟨piece, others, rfl, rfl, rfl⟩ := List.map_eq_cons_iff.mp secondTexts
    have fit := Piece.fit_cut source
    rw [cutEq, Piece.fit_append] at fit
    have stands := fit.2.1
    rw [List.append_nil, List.flatMap_def] at stands
    exact complete_of_standsBefore stands

/-- The kind and the lexeme of the token that a part is read as. -/
def readingOf? (text : List Char) : Option (Kind × String) :=
  (Symbol.ofSpelling? text).map fun sign =>
    (Kind.symbol sign, String.ofList text)

theorem readingOf?_eq_none_iff (text : List Char) :
    readingOf? text = none ↔ ¬ SymbolText text := by
  rw [readingOf?, Option.map_eq_none_iff, symbolText_iff,
    Option.eq_none_iff_forall_ne_some]
  simp only [ne_eq, Symbol.ofSpelling?_eq_some_iff, not_exists]

theorem not_symbolText_text {piece : Piece} (wellFormed : piece.WellFormed)
    (noSymbol : ∀ sign, piece ≠ .symbol sign) : ¬ SymbolText piece.text := by
  intro spelled
  obtain ⟨sign, same⟩ := symbolText_iff.mp spelled
  exact noSymbol sign (Piece.eq_of_text_eq wellFormed trivial same.symm)

theorem readingOf?_text {piece : Piece} (wellFormed : piece.WellFormed)
    (position : Position) :
    readingOf? piece.text =
      (PlacedPiece.token? ⟨piece, position⟩).map fun token =>
        (token.kind, token.lexeme) := by
  cases piece with
  | symbol sign =>
      simp [readingOf?, Piece.text, Symbol.ofSpelling?_spelling,
        PlacedPiece.token?]
  | _ =>
      exact (readingOf?_eq_none_iff _).mpr
        (not_symbolText_text wellFormed (by simp))

theorem readings_tokensFrom {pieces : List Piece}
    (wellFormed : ∀ piece ∈ pieces, piece.WellFormed) (position : Position) :
    (PlacedPiece.tokensFrom position pieces).map
        (fun token => (token.kind, token.lexeme)) =
      (pieces.map Piece.text).filterMap readingOf? := by
  induction pieces generalizing position with
  | nil => rfl
  | cons piece pieces ih =>
      have formed := List.forall_mem_cons.mp wellFormed
      rw [PlacedPiece.tokensFrom_cons, List.map_append, ih formed.2,
        List.map_cons, List.filterMap_cons, readingOf?_text formed.1 position]
      cases PlacedPiece.token? ⟨piece, position⟩ <;> rfl

/-- Every source has exactly one cutting, and whatever log a scan reports to,
its tokens are the symbols of that cutting. -/
theorem maximalMunch (log : DiagnosticLog) (source : String) :
    ∃ texts, CutsUp source.toList texts ∧
      (∀ other, CutsUp source.toList other → other = texts) ∧
      (log.content source).map (fun token => (token.kind, token.lexeme)) =
        texts.filterMap readingOf? := by
  refine ⟨_, cutsUp_cut source.toList, ?_, ?_⟩
  · intro other cutting
    exact cutting.eq_cut
  · rw [DiagnosticLog.content_eq]
    exact readings_tokensFrom (fun _ => Piece.wellFormed_of_mem_cut) .origin

end Cutting
end Lox
