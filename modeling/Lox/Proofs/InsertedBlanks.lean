import Lox.Proofs.FusedTexts

/-!
# Blanks that are put into a source

Blanks can be put in anywhere without a change to what is read, and to where it is
but for the bytes that they take, unless they come between two characters that are
read as one: the two of a comparison with an equal sign, or the two slashes that
begin a comment.  This file proves that there they always make a difference, and
nowhere else.  In particular, carriage returns at the ends of lines make none.
-/

namespace Lox

/-- A token without the bytes that it covers. -/
def Token.unplaced (token : Token) : Token :=
  { token with span := ⟨0, 0⟩ }

/-- A comparison takes one character, and one more with its equal sign. -/
theorem Symbol.lengths_of_withEqual? {sign longer : Symbol}
    (found : sign.withEqual? = some longer) :
    TextBytes.byteLength longer.spelling =
        TextBytes.byteLength sign.spelling + 1 ∧
      longer.spelling.length = 2 := by
  cases sign
  case bang | equal | less | greater =>
    obtain rfl := Option.some.inj found
    exact ⟨rfl, rfl⟩
  all_goals simp [withEqual?] at found

/-- A slash at the end of a text that does not end in a comment is a symbol. -/
theorem Piece.exists_cut_eq_of_getLast?_slash {text : List Char}
    (closed : ¬ ['/', '/'] <:+: lastLine text)
    (last : text.getLast? = some '/') :
    ∃ pieces, cut text = pieces ++ [symbol .slash] := by
  have whole := flatMap_text_cut text
  rcases List.eq_nil_or_concat' (cut text) with nothing | ⟨pieces, piece, cutEq⟩
  · rw [nothing] at whole
    simp [← whole] at last
  · rw [cutEq, List.flatMap_append, List.flatMap_singleton] at whole
    rw [← whole, List.getLast?_append_of_ne_nil _ piece.text_ne_nil] at last
    have formed : piece.WellFormed := wellFormed_of_mem_cut (by rw [cutEq]; simp)
    have noComment : ∀ body, piece ≠ comment body := by
      rintro body rfl
      rw [← getLast?_cut_eq_comment_iff] at closed
      exact closed ⟨body, by rw [cutEq, List.getLast?_concat]⟩
    have isSlash := eq_slash_of_mem_text formed noComment
      (List.mem_of_getLast? last)
    exact ⟨pieces, by rw [cutEq, isSlash]⟩

namespace DiagnosticLog

/-- Two sources are read alike: all tokens say the same, and the same is recorded. -/
def ReadsAlike (log : DiagnosticLog) (source other : String) : Prop :=
  (log.scan source).1.map Token.reading = (log.scan other).1.map Token.reading ∧
    log.recorded source = log.recorded other

/-- The place between two texts lies within what is read there as one: a token of
two characters, or the first two slashes of a line. -/
inductive Divides (log : DiagnosticLog) (first second : String) : Prop
  | token {token : Token} (member : token ∈ log.content (first ++ second))
      (two : token.lexeme.length = 2)
      (starts : token.span.start < first.utf8ByteSize)
      (stops : first.utf8ByteSize < token.span.stop)
  | slashes (closed : ¬ ['/', '/'] <:+: Piece.lastLine first.toList)
      (last : first.toList.getLast? = some '/')
      (next : second.toList.head? = some '/')

theorem fused_of_divides {sink : Sink} {first second : String}
    (divides : (onSink sink).Divides first second) :
    Piece.Fused first.toList second.toList := by
  cases divides with
  | token member two starts stops =>
      by_contra separate
      -- Texts that are not fused make room for any blanks, whatever they are.
      obtain ⟨_, _, _, _, room⟩ :=
        PlacedPiece.exists_makesRoom .carriageReturn separate
      rw [content_eq, String.toList_append] at member
      rw [← TextBytes.byteLength_toList] at starts stops
      rcases room.stop_le_or_le_start member with before | behind <;> omega
  | slashes closed last next =>
      obtain ⟨rest, nextEq⟩ := List.head?_eq_some_iff.mp next
      obtain ⟨pieces, cutEq⟩ := Piece.exists_cut_eq_of_getLast?_slash closed last
      exact .slashes cutEq nextEq

theorem divides_of_fused {sink : Sink} {first second : String}
    (fused : Piece.Fused first.toList second.toList) :
    (onSink sink).Divides first second := by
  cases fused with
  | @comparison pieces sign longer rest cutEq extended next =>
      obtain ⟨token, found⟩ : ∃ token, PlacedPiece.token?
          ⟨.symbol longer, Position.origin.afterAll pieces⟩ = some token :=
        ⟨_, rfl⟩
      have member : token ∈ (onSink sink).content (first ++ second) := by
        rw [content_eq, String.toList_append, next,
          Piece.cut_append_equal cutEq extended]
        exact PlacedPiece.mem_tokensFrom.mpr ⟨pieces, _, _, rfl, found⟩
      have reached := PlacedPiece.offset_after_of_cut_eq cutEq
      obtain ⟨oneMore, twoLong⟩ := Symbol.lengths_of_withEqual? extended
      rw [TextBytes.byteLength_toList] at reached
      refine .token member ?_ ?_ ?_
      · obtain rfl := Option.some.inj found
        rw [String.length_ofList, twoLong]
      · rw [PlacedPiece.span_of_token? found, ← reached]
        exact Position.offset_lt_after _ _
      · rw [PlacedPiece.span_of_token? found, ← reached]
        simp only [Position.after, Piece.byteLength, Piece.text, oneMore]
        omega
  | @slashes pieces rest cutEq next =>
      have whole := Piece.flatMap_text_cut first.toList
      rw [cutEq, List.flatMap_append, List.flatMap_singleton] at whole
      refine .slashes ?_ ?_ (by rw [next]; rfl)
      · rw [← Piece.getLast?_cut_eq_comment_iff, cutEq]
        simp
      · rw [← whole, Piece.text, Symbol.spelling]
        exact List.getLast?_concat

theorem divides_iff_fused (sink : Sink) (first second : String) :
    (onSink sink).Divides first second ↔
      Piece.Fused first.toList second.toList :=
  ⟨fused_of_divides, divides_of_fused⟩

theorem readings_scan (log : DiagnosticLog) (source : String) :
    (log.scan source).1.map Token.reading =
      (PlacedPiece.tokensFrom .origin (Piece.cut source.toList)).map
          Token.reading ++
        [(.endOfInput, "", 1 + source.toList.count '\n')] := by
  rw [scan_tokens_eq, List.map_append, Position.afterAll_origin_cut]
  rfl

/-- No token of a scan has a literal, so there is nothing to it but what it says and
the bytes that it covers. -/
theorem unplaced_of_mem_scan {log : DiagnosticLog} {source : String}
    {token : Token} (member : token ∈ (log.scan source).1) :
    token.unplaced =
      ⟨token.reading.1, token.reading.2.1, none, token.reading.2.2, ⟨0, 0⟩⟩ := by
  rw [scan_tokens_eq, List.mem_append, List.mem_singleton] at member
  rcases member with content | rfl
  · obtain ⟨_, piece, _, -, found⟩ := PlacedPiece.mem_tokensFrom.mp content
    cases piece with
    | symbol sign =>
        obtain rfl := Option.some.inj found
        rfl
    | _ => simp [PlacedPiece.token?] at found
  · rfl

theorem toList_padded (padding : Padding) (first second : String) :
    (first ++ padding.text ++ second).toList =
      first.toList ++ (padding.text.toList ++ second.toList) := by
  simp

/-- The end of a source is moved by the bytes of the blanks, wherever they are. -/
theorem exists_end_scan_padding (log : DiagnosticLog) (first second : String)
    (padding : Padding) :
    ∃ token : Token, token.isEndOfInput ∧
      (log.scan (first ++ second)).1.getLast? = some token ∧
      (log.scan (first ++ padding.text ++ second)).1.getLast? =
        some (token.moved padding.text.utf8ByteSize 0) := by
  refine ⟨_, rfl, by rw [scan_tokens_eq, List.getLast?_concat], ?_⟩
  rw [scan_tokens_eq, List.getLast?_concat, Position.afterAll_origin_cut,
    Position.afterAll_origin_cut, toList_padded, String.toList_append,
    padding.behind_append, TextBytes.byteLength_toList]
  rfl

theorem content_padding {first second : String} (padding : Padding)
    (separate : ¬ Piece.Fused first.toList second.toList)
    (log : DiagnosticLog) :
    log.content (first ++ padding.text ++ second) =
      (log.content (first ++ second)).map fun token =>
        token.madeRoom first.utf8ByteSize padding.text.utf8ByteSize := by
  obtain ⟨_, _, _, _, room⟩ := PlacedPiece.exists_makesRoom padding separate
  rw [content_eq, content_eq, toList_padded, String.toList_append,
    room.tokensFrom_cutPadded, TextBytes.byteLength_toList,
    TextBytes.byteLength_toList]

theorem recorded_padding {first second : String} (padding : Padding)
    (separate : ¬ Piece.Fused first.toList second.toList) (sink : Sink) :
    (onSink sink).recorded (first ++ padding.text ++ second) =
      (onSink sink).recorded (first ++ second) := by
  obtain ⟨_, _, _, _, room⟩ := PlacedPiece.exists_makesRoom padding separate
  rw [recorded_onSink, recorded_onSink, toList_padded, String.toList_append,
    room.diagnosticsFrom_cutPadded]

/-- Blanks leave the line of the end of the input as it is, so whether the scans say
the same depends on the other tokens only. -/
theorem readings_scan_padding_iff (log : DiagnosticLog) (first second : String)
    (padding : Padding) :
    (log.scan (first ++ padding.text ++ second)).1.map Token.reading =
        (log.scan (first ++ second)).1.map Token.reading ↔
      (log.content (first ++ padding.text ++ second)).map Token.reading =
        (log.content (first ++ second)).map Token.reading := by
  have noLine := List.count_eq_zero.mpr padding.newline_notMem
  have lines : (first ++ padding.text ++ second).toList.count '\n' =
      (first ++ second).toList.count '\n' := by
    simp [noLine]
  rw [readings_scan, readings_scan, lines, List.append_cancel_right_eq,
    content_eq, content_eq]

theorem readsAlike_padding_iff (sink : Sink) (first second : String)
    (padding : Padding) :
    (onSink sink).ReadsAlike (first ++ padding.text ++ second)
        (first ++ second) ↔
      ¬ Piece.Fused first.toList second.toList := by
  constructor
  · intro alike fused
    have same := (readings_scan_padding_iff _ _ _ padding).mp alike.1
    rw [content_eq, content_eq, toList_padded, String.toList_append] at same
    exact PlacedPiece.readings_ne_of_fused padding fused same
  · intro separate
    refine ⟨(readings_scan_padding_iff _ _ _ padding).mpr ?_,
      recorded_padding padding separate sink⟩
    rw [content_padding padding separate, List.map_map]
    exact List.map_congr_left fun token _ => token.reading_madeRoom _ _

/-! ## Carriage returns at the ends of lines -/

/-- One line of a source gets a carriage return before the newline that ends it. -/
inductive GainsReturn : String → String → Prop
  | intro (first second : String) :
      GainsReturn (first ++ "\n" ++ second) (first ++ "\r\n" ++ second)

theorem readsAlike_equivalence (log : DiagnosticLog) :
    Equivalence log.ReadsAlike where
  refl _ := ⟨rfl, rfl⟩
  symm alike := ⟨alike.1.symm, alike.2.symm⟩
  trans first second := ⟨first.1.trans second.1, first.2.trans second.2⟩

/-- Sources that are read alike have the same tokens but for the bytes that these
cover, and leave the same log. -/
theorem ReadsAlike.unplaced {sink : Sink} {source other : String}
    (alike : (onSink sink).ReadsAlike source other) :
    ((onSink sink).scan source).1.map Token.unplaced =
        ((onSink sink).scan other).1.map Token.unplaced ∧
      ((onSink sink).scan source).2 = ((onSink sink).scan other).2 := by
  obtain ⟨readings, recorded⟩ := alike
  constructor
  · have fromReadings (text : String) :
        ((onSink sink).scan text).1.map Token.unplaced =
          (((onSink sink).scan text).1.map Token.reading).map fun reading =>
            ⟨reading.1, reading.2.1, none, reading.2.2, ⟨0, 0⟩⟩ := by
      rw [List.map_map]
      exact List.map_congr_left fun _ member => unplaced_of_mem_scan member
    rw [fromReadings, fromReadings, readings]
  · rw [recorded_onSink, recorded_onSink] at recorded
    exact congrArg (onSink sink).recordAll recorded

theorem readsAlike_of_gainsReturn (sink : Sink) {source other : String}
    (gains : GainsReturn source other) :
    (onSink sink).ReadsAlike source other := by
  obtain ⟨first, second⟩ := gains
  have separate : ¬ Piece.Fused first.toList ("\n" ++ second).toList := by
    -- No two characters with a newline among them are read as one.
    rintro (⟨-, -, next⟩ | ⟨-, next⟩) <;> simp at next
  have written : first ++ "\r\n" ++ second =
      first ++ Padding.carriageReturn.text ++ ("\n" ++ second) := by
    apply String.ext
    simp [Padding.carriageReturn]
  have source : first ++ "\n" ++ second = first ++ ("\n" ++ second) :=
    String.append_assoc
  rw [written, source]
  exact (readsAlike_equivalence _).symm
    ((readsAlike_padding_iff sink first _ .carriageReturn).mpr separate)

/-- Blanks change what is read exactly where they divide what is read as one.
Anywhere else they only move the tokens behind them, as they always move the end of
the input.  So only the places of tokens depend on which of the lines end with a
carriage return. -/
theorem scan_padding (sink : Sink) :
    (∀ (first second : String) (padding : Padding),
      let padded := first ++ padding.text ++ second
      ((onSink sink).ReadsAlike padded (first ++ second) ↔
          ¬ (onSink sink).Divides first second) ∧
        (¬ (onSink sink).Divides first second →
          (onSink sink).content padded =
            ((onSink sink).content (first ++ second)).map fun token =>
              token.madeRoom first.utf8ByteSize padding.text.utf8ByteSize) ∧
        ∃ token : Token, token.isEndOfInput ∧
          ((onSink sink).scan (first ++ second)).1.getLast? = some token ∧
          ((onSink sink).scan padded).1.getLast? =
            some (token.moved padding.text.utf8ByteSize 0)) ∧
      ∀ source other, Relation.EqvGen GainsReturn source other →
        ((onSink sink).scan source).1.map Token.unplaced =
            ((onSink sink).scan other).1.map Token.unplaced ∧
          ((onSink sink).scan source).2 = ((onSink sink).scan other).2 := by
  constructor
  · intro first second padding padded
    have divides := divides_iff_fused sink first second
    refine ⟨?_, ?_, exists_end_scan_padding _ first second padding⟩
    · rw [divides]
      exact readsAlike_padding_iff sink first second padding
    · intro undivided
      rw [divides] at undivided
      exact content_padding padding undivided _
  · intro source other linked
    apply ReadsAlike.unplaced
    apply (readsAlike_equivalence _).eqvGen_iff.mp
    exact linked.mono fun _ _ => readsAlike_of_gainsReturn sink

end DiagnosticLog
end Lox
