import Lox.Proofs.Placement

/-!
# The stream of tokens

Every token of a scan but the last covers a part of the source that is its
lexeme, and each ends before the next one starts.  The last token covers
nothing and marks the end.
-/

namespace Lox

theorem Span.slice?_append (before covered behind : List Char) :
    slice? ⟨TextBytes.byteLength before,
        TextBytes.byteLength before + TextBytes.byteLength covered⟩
        (String.ofList (before ++ (covered ++ behind))) =
      some (String.ofList covered) := by
  have length : length? ⟨TextBytes.byteLength before,
      TextBytes.byteLength before + TextBytes.byteLength covered⟩ =
        some (TextBytes.byteLength covered) :=
    (length?_eq_some_iff _ _).mpr rfl
  simp [slice?, length, TextBytes.cutAt?_append]

namespace PlacedPiece

theorem span_of_token? {piece : Piece} {position : Position} {token : Token}
    (found : token? ⟨piece, position⟩ = some token) :
    token.span = ⟨position.offset, (position.after piece).offset⟩ := by
  cases piece with
  | symbol sign =>
      obtain rfl := Option.some.inj found
      rfl
  | _ => simp [token?] at found

/-- Tokens cover something, and only bytes of the pieces they come from. -/
theorem bounds_of_mem_tokensFrom {position : Position} {pieces : List Piece}
    {token : Token} (member : token ∈ tokensFrom position pieces) :
    position.offset ≤ token.span.start ∧
      token.span.start < token.span.stop ∧
      token.span.stop ≤ (position.afterAll pieces).offset := by
  obtain ⟨before, piece, behind, rfl, found⟩ := mem_tokensFrom.mp member
  rw [span_of_token? found, Position.afterAll_append]
  refine ⟨Position.offset_le_afterAll position before,
    Position.offset_lt_after _ piece, ?_⟩
  exact Position.offset_le_afterAll _ behind

/-- Tokens of some pieces end where the first of the pieces does, or later. -/
theorem stop_of_mem_tokensFrom_cons {position : Position} {piece : Piece}
    {pieces : List Piece} {token : Token}
    (member : token ∈ tokensFrom position (piece :: pieces)) :
    (position.after piece).offset ≤ token.span.stop := by
  rw [tokensFrom_cons, List.mem_append, Option.mem_toList] at member
  rcases member with here | later
  · rw [span_of_token? here]
  · have bounds := bounds_of_mem_tokensFrom later
    exact bounds.1.trans bounds.2.1.le

/-- Of the tokens placed one behind the other, each ends before the next. -/
theorem pairwise_tokensFrom (position : Position) (pieces : List Piece) :
    (tokensFrom position pieces).Pairwise fun first second =>
      first.span.stop ≤ second.span.start := by
  induction pieces generalizing position with
  | nil => exact .nil
  | cons piece pieces ih =>
      rw [tokensFrom_cons, List.pairwise_append]
      refine ⟨?_, ih _, ?_⟩
      · cases token? ⟨piece, position⟩ <;> simp
      · intro first here second later
        rw [span_of_token? (Option.mem_toList.mp here)]
        exact (bounds_of_mem_tokensFrom later).1

end PlacedPiece

/-- What holds of a token that was read from a source. -/
structure Token.ReadFrom (token : Token) (source : String) : Prop where
  notEnd : token.kind ≠ .endOfInput
  literal : token.literal = none
  nonempty : token.span.start < token.span.stop
  within : token.span.stop ≤ source.utf8ByteSize
  slice : token.span.slice? source = some token.lexeme
  length : token.span.length? = some token.lexeme.utf8ByteSize
  startValid : String.Pos.Raw.IsValid source ⟨token.span.start⟩
  stopValid : String.Pos.Raw.IsValid source ⟨token.span.stop⟩

namespace TextBytes

theorem isValid_byteLength (before behind : List Char) :
    String.Pos.Raw.IsValid (String.ofList (before ++ behind))
      ⟨byteLength before⟩ := by
  rw [String.Pos.Raw.isValid_iff_exists_append]
  refine ⟨String.ofList before, String.ofList behind, String.ofList_append, ?_⟩
  rw [String.Pos.Raw.ext_iff, String.byteIdx_rawEndPos, ← byteLength_toList,
    String.toList_ofList]

end TextBytes

/-- A token of a source is a symbol that is spelled there and ends there, on the
line and at the bytes that the text before it leads to. -/
theorem PlacedPiece.exists_symbol_of_mem_tokensFrom_cut {text : List Char}
    {token : Token} (member : token ∈ tokensFrom .origin (Piece.cut text)) :
    ∃ before sign behind,
      text = before ++ (Symbol.spelling sign ++ behind) ∧
      (Piece.symbol sign).StandsBefore behind ∧
      token = {
        kind := .symbol sign
        lexeme := String.ofList sign.spelling
        literal := none
        line := 1 + before.count '\n'
        span := ⟨TextBytes.byteLength before,
          TextBytes.byteLength before + TextBytes.byteLength sign.spelling⟩
      } := by
  obtain ⟨before, piece, behind, cutEq, found⟩ := mem_tokensFrom.mp member
  have fit := Piece.fit_cut text
  rw [cutEq, Piece.fit_append] at fit
  have reached : Position.origin.afterAll before =
      .behind (before.flatMap Piece.text) :=
    Position.afterAll_behind [] fit.1.wellFormed
  rw [reached] at found
  have whole := Piece.flatMap_text_cut text
  rw [cutEq, List.flatMap_append, List.flatMap_cons] at whole
  have stands := fit.2.1
  rw [List.append_nil] at stands
  cases piece with
  | symbol sign =>
      exact ⟨_, sign, _, whole.symm, stands, (Option.some.inj found).symm⟩
  | _ => simp [token?] at found

theorem PlacedPiece.eq_of_mem_tokensFrom_cut {text : List Char} {token : Token}
    (member : token ∈ tokensFrom .origin (Piece.cut text)) :
    ∃ before sign behind,
      text = before ++ (Symbol.spelling sign ++ behind) ∧
      token = {
        kind := .symbol sign
        lexeme := String.ofList sign.spelling
        literal := none
        line := 1 + before.count '\n'
        span := ⟨TextBytes.byteLength before,
          TextBytes.byteLength before + TextBytes.byteLength sign.spelling⟩
      } := by
  obtain ⟨before, sign, behind, parts, -, tokenEq⟩ :=
    exists_symbol_of_mem_tokensFrom_cut member
  exact ⟨before, sign, behind, parts, tokenEq⟩

theorem Token.readFrom_of_mem_tokensFrom {source : String} {token : Token}
    (member : token ∈
      PlacedPiece.tokensFrom .origin (Piece.cut source.toList)) :
    token.ReadFrom source := by
  obtain ⟨before, sign, behind, parts, rfl⟩ :=
    PlacedPiece.eq_of_mem_tokensFrom_cut member
  have sourceEq : source = String.ofList (before ++ (sign.spelling ++ behind)) := by
    rw [← parts, String.ofList_toList]
  have positive : 0 < TextBytes.byteLength sign.spelling :=
    (Piece.symbol sign).byteLength_pos
  refine ⟨by simp, rfl, Nat.lt_add_of_pos_right positive, ?_, ?_, ?_, ?_, ?_⟩
  · rw [← TextBytes.byteLength_toList, parts]
    simp only [TextBytes.byteLength_append]
    omega
  · rw [sourceEq]
    exact Span.slice?_append before sign.spelling behind
  · rw [Span.length?_eq_some_iff, ← TextBytes.byteLength_toList,
      String.toList_ofList]
  · rw [sourceEq]
    exact TextBytes.isValid_byteLength before _
  · rw [sourceEq, ← List.append_assoc, ← TextBytes.byteLength_append]
    exact TextBytes.isValid_byteLength _ behind

/-- Whatever log a scan reports to, it returns the tokens that it reads from the
source in order, and behind them one token for the end. -/
theorem DiagnosticLog.scan_stream (log : DiagnosticLog) (source : String) :
    ∃ content endToken,
      (log.scan source).1 = content ++ [endToken] ∧
      (∀ token ∈ content, token.ReadFrom source) ∧
      (content ++ [endToken]).Pairwise (fun first second =>
        first.span.stop ≤ second.span.start) ∧
      endToken.kind = .endOfInput ∧ endToken.lexeme = "" ∧
      endToken.literal = none ∧
      endToken.span = ⟨source.utf8ByteSize, source.utf8ByteSize⟩ := by
  have ends : (Position.origin.afterAll (Piece.cut source.toList)).offset =
      source.utf8ByteSize := by
    rw [Position.afterAll_cut, TextBytes.byteLength_toList]
    exact Nat.zero_add _
  refine ⟨PlacedPiece.tokensFrom .origin (Piece.cut source.toList), _, rfl,
    ?_, ?_, rfl, rfl, rfl, ?_⟩
  · intro token member
    exact Token.readFrom_of_mem_tokensFrom member
  · rw [List.pairwise_append]
    refine ⟨PlacedPiece.pairwise_tokensFrom _ _, List.pairwise_singleton _ _, ?_⟩
    intro first member second last
    obtain rfl := List.mem_singleton.mp last
    change first.span.stop ≤
      (Position.origin.afterAll (Piece.cut source.toList)).offset
    rw [ends]
    exact (Token.readFrom_of_mem_tokensFrom member).within
  · exact congrArg₂ Span.mk ends ends

end Lox
