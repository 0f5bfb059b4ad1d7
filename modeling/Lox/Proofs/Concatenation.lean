import Lox.Proofs.Lines
import Lox.Proofs.TokenStream

/-!
# Scanning texts one behind the other

Two texts can be scanned apart, and the results put together, unless something
reaches from one into the other: a comparison that an equal sign extends, a
slash that another makes a comment, or a comment that hides what the second text
begins with.  This file proves that nothing else can get in the way, and that
each of these does.
-/

namespace Lox

namespace PlacedPiece

/-- Whether pieces placed at the beginning of a source show the same, tokens and
diagnostics, as others do. -/
def SameResults (first second : List Piece) : Prop :=
  tokensFrom .origin first = tokensFrom .origin second ∧
    diagnosticsFrom .origin first = diagnosticsFrom .origin second

theorem sameResults_append_iff {first second : List Piece}
    (positions : Position.origin.afterAll first =
      Position.origin.afterAll second) (common : List Piece) :
    SameResults (first ++ common) (second ++ common) ↔
      SameResults first second := by
  simp only [SameResults, tokensFrom_append, diagnosticsFrom_append, positions,
    List.append_cancel_right_eq]

theorem afterAll_cut_append (first second : List Char) :
    Position.origin.afterAll (Piece.cut (first ++ second)) =
      Position.origin.afterAll (Piece.cut first ++ Piece.cut second) := by
  rw [Position.afterAll_append, Position.afterAll_cut, Position.afterAll_cut,
    Position.afterAll_cut]
  simp [Position.moved, Nat.add_assoc]

theorem exists_longer_piece {sign : Symbol} {next : Char}
    (continued : sign.continuation? = some next) (rest : List Char) :
    ∃ longer pieces,
      Piece.cut (sign.spelling ++ next :: rest) = longer :: pieces ∧
      (Piece.symbol sign).byteLength < longer.byteLength := by
  cases sign
  case bang | equal | greater | less | slash =>
    obtain rfl := Option.some.inj continued
    refine ⟨_, _, Piece.cut_cons _ _, ?_⟩
    simp only [Piece.byteLength, TextBytes.byteLength_cons, Piece.text,
      Symbol.spelling]
    exact Nat.lt_add_of_pos_right (Nat.add_pos_left (Char.utf8Size_pos _) _)
  all_goals simp [Symbol.continuation?] at continued

/-- A symbol that is read together with what follows it loses its token: nothing
read there instead ends where that token did. -/
theorem not_sameResults_of_continued {first second : List Char}
    {pieces : List Piece} {sign : Symbol} {next : Char}
    (cutEq : Piece.cut first = pieces ++ [.symbol sign])
    (head : second.head? = some next)
    (continued : sign.continuation? = some next) :
    ¬ SameResults (Piece.cut (first ++ second))
      (Piece.cut first ++ Piece.cut second) := by
  rintro ⟨sameTokens, -⟩
  obtain ⟨rest, rfl⟩ := List.head?_eq_some_iff.mp head
  obtain ⟨longer, others, longerEq, isLonger⟩ :=
    exists_longer_piece continued rest
  rw [Piece.cut_append_of_cut_eq cutEq, cutEq, Piece.text, longerEq,
    List.append_assoc, tokensFrom_append, tokensFrom_append,
    List.append_cancel_left_eq] at sameTokens
  generalize Position.origin.afterAll pieces = position at sameTokens
  obtain ⟨token, found⟩ :
      ∃ token, token? ⟨.symbol sign, position⟩ = some token := ⟨_, rfl⟩
  have member : token ∈ tokensFrom position
      (.symbol sign :: Piece.cut (next :: rest)) := by
    rw [tokensFrom_cons, found]
    exact List.mem_cons_self
  rw [← List.singleton_append, ← sameTokens] at member
  have stops := stop_of_mem_tokensFrom_cons member
  rw [span_of_token? found] at stops
  simp only [Position.after] at stops
  omega

theorem cut_comment_append {first line : List Char} {pieces : List Piece}
    {body : List Char} (cutEq : Piece.cut first = pieces ++ [.comment body])
    (inside : '\n' ∉ line) :
    Piece.cut (first ++ line) = pieces ++ [.comment (body ++ line)] := by
  have member : Piece.comment body ∈ Piece.cut first := by simp [cutEq]
  have bodyInside : '\n' ∉ body := Piece.wellFormed_of_mem_cut member
  have formed : (Piece.comment (body ++ line)).WellFormed := by
    simp [Piece.WellFormed, bodyInside, inside]
  rw [Piece.cut_append_of_cut_eq cutEq, ← Piece.cut_text formed]
  rfl

/-- Behind an open comment, the line that it hides has to show nothing. -/
theorem sameResults_of_comment_iff {first second : List Char}
    {pieces : List Piece} {body : List Char}
    (cutEq : Piece.cut first = pieces ++ [.comment body]) :
    SameResults (Piece.cut (first ++ second))
        (Piece.cut first ++ Piece.cut second) ↔
      tokensFrom .origin (Piece.cut (Piece.lineOf second)) = [] ∧
        diagnosticsFrom .origin (Piece.cut (Piece.lineOf second)) = [] := by
  have apart : Piece.cut second =
      Piece.cut (Piece.lineOf second) ++ Piece.cut (Piece.behindLine second) :=
    Piece.cut_append_lineOf [] second
  rw [Piece.cut_append_lineOf, apart, ← List.append_assoc,
    sameResults_append_iff (afterAll_cut_append first (Piece.lineOf second)),
    cut_comment_append cutEq (Piece.newline_notMem_lineOf second)]
  -- Both sides agree up to the comment, which shows nothing itself.
  have sameBefore : SameResults (pieces ++ [.comment (body ++ Piece.lineOf second)])
      (Piece.cut first) := by
    rw [cutEq]
    exact ⟨by simp only [tokensFrom_append]; rfl,
      by simp only [diagnosticsFrom_append]; rfl⟩
  rw [SameResults, sameBefore.1, sameBefore.2, tokensFrom_append,
    diagnosticsFrom_append, Position.afterAll_cut, tokensFrom_moved,
    diagnosticsFrom_moved]
  simp only [List.self_eq_append_right, List.map_eq_nil_iff]

/-- The last token of a text is its last piece if it reaches to the end. -/
theorem exists_cut_eq_of_getLast? {text : List Char} {token : Token}
    (last : (tokensFrom .origin (Piece.cut text)).getLast? = some token)
    (stop : token.span.stop = TextBytes.byteLength text) :
    ∃ pieces sign, Piece.cut text = pieces ++ [.symbol sign] ∧
      token.kind = .symbol sign := by
  have ends : token.span.stop =
      (Position.origin.afterAll (Piece.cut text)).offset := by
    rw [stop, Position.afterAll_cut]
    exact (Nat.zero_add _).symm
  rcases List.eq_nil_or_concat' (Piece.cut text) with nothing | ⟨pieces, piece, cutEq⟩
  · simp [nothing] at last
  · rw [cutEq] at last ends
    rw [tokensFrom_append, tokensFrom_cons, tokensFrom_nil, List.append_nil]
      at last
    cases found : token? ⟨piece, Position.origin.afterAll pieces⟩ with
    | none =>
        -- A piece without a token leaves the last token short of the end.
        rw [found, Option.toList_none, List.append_nil] at last
        have bounds := bounds_of_mem_tokensFrom (List.mem_of_getLast? last)
        have further := Position.offset_lt_after
          (Position.origin.afterAll pieces) piece
        rw [Position.afterAll_append] at ends
        exact absurd (ends ▸ bounds.2.2) (Nat.not_le.mpr further)
    | some lastToken =>
        rw [found, Option.toList_some, List.getLast?_concat] at last
        obtain rfl := Option.some.inj last
        cases piece with
        | symbol sign =>
            refine ⟨pieces, sign, cutEq, ?_⟩
            obtain rfl := Option.some.inj found
            rfl
        | _ => simp [token?] at found

theorem exists_getLast?_of_cut_eq {text : List Char} {pieces : List Piece}
    {sign : Symbol} (cutEq : Piece.cut text = pieces ++ [.symbol sign]) :
    ∃ token, (tokensFrom .origin (Piece.cut text)).getLast? = some token ∧
      token.kind = .symbol sign ∧
      token.span.stop = TextBytes.byteLength text := by
  have ends := congrArg Position.offset (Position.afterAll_cut .origin text)
  rw [cutEq, Position.afterAll_append] at ends
  obtain ⟨token, found⟩ : ∃ token,
      token? ⟨.symbol sign, Position.origin.afterAll pieces⟩ = some token :=
    ⟨_, rfl⟩
  refine ⟨token, ?_, ?_, ?_⟩
  · rw [cutEq, tokensFrom_append, tokensFrom_cons, found]
    exact List.getLast?_concat
  · obtain rfl := Option.some.inj found
    rfl
  · rw [span_of_token? found]
    exact ends.trans (Nat.zero_add _)

end PlacedPiece

namespace DiagnosticLog

/-- Scanning two texts one behind the other gives what scanning them apart gives,
the second result moved behind the first text. -/
def ScansApart (log : DiagnosticLog) (first second : String) : Prop :=
  log.content (first ++ second) =
      log.content first ++ (log.content second).map (fun token =>
        token.moved first.utf8ByteSize (first.toList.count '\n')) ∧
    log.recorded (first ++ second) =
      log.recorded first ++ (log.recorded second).map (fun diagnostic =>
        diagnostic.moved (first.toList.count '\n'))

/-- What the first of two texts begins reaches into the second. -/
inductive Reaches (log : DiagnosticLog) (first second : String) : Prop
  | comparison {token : Token} {sign : Symbol}
      (last : (log.content first).getLast? = some token)
      (kind : token.kind = .symbol sign)
      (listed : sign ∈ [.bang, .equal, .less, .greater])
      (stop : token.span.stop = first.utf8ByteSize)
      (next : second.toList.head? = some '=')
  | slash {token : Token}
      (last : (log.content first).getLast? = some token)
      (kind : token.kind = .symbol .slash)
      (stop : token.span.stop = first.utf8ByteSize)
      (next : second.toList.head? = some '/')
  | comment
      (opened : ['/', '/'] <:+: Piece.lastLine first.toList)
      (shown :
        log.content (String.ofList (Piece.lineOf second.toList)) ≠ [] ∨
          log.recorded (String.ofList (Piece.lineOf second.toList)) ≠ [])

theorem scansApart_iff (sink : Sink) (first second : String) :
    (onSink sink).ScansApart first second ↔
      PlacedPiece.SameResults (Piece.cut (first.toList ++ second.toList))
        (Piece.cut first.toList ++ Piece.cut second.toList) := by
  unfold ScansApart PlacedPiece.SameResults
  simp only [content_eq, recorded_onSink, String.toList_append,
    PlacedPiece.tokensFrom_append, PlacedPiece.diagnosticsFrom_append,
    Position.afterAll_cut, PlacedPiece.tokensFrom_moved,
    PlacedPiece.diagnosticsFrom_moved, TextBytes.byteLength_toList]

theorem reaches_of_continued {log : DiagnosticLog} {first second : String}
    {pieces : List Piece} {sign : Symbol} {next : Char}
    (cutEq : Piece.cut first.toList = pieces ++ [.symbol sign])
    (head : second.toList.head? = some next)
    (continued : sign.continuation? = some next) :
    log.Reaches first second := by
  obtain ⟨token, last, kind, stop⟩ := PlacedPiece.exists_getLast?_of_cut_eq cutEq
  rw [← log.content_eq] at last
  rw [TextBytes.byteLength_toList] at stop
  rcases Symbol.continuation?_eq_some_iff.mp continued with
    ⟨listed, rfl⟩ | ⟨rfl, rfl⟩
  · exact .comparison last kind listed stop head
  · exact .slash last kind stop head

theorem scansApart_of_cut_append {sink : Sink} {first second : String}
    (apart : Piece.cut (first.toList ++ second.toList) =
      Piece.cut first.toList ++ Piece.cut second.toList) :
    (onSink sink).ScansApart first second := by
  rw [scansApart_iff, apart]
  exact ⟨rfl, rfl⟩

theorem scansApart_iff_of_comment {sink : Sink} {first second : String}
    {pieces : List Piece} {body : List Char}
    (cutEq : Piece.cut first.toList = pieces ++ [.comment body]) :
    (onSink sink).ScansApart first second ↔
      (onSink sink).content (String.ofList (Piece.lineOf second.toList)) = [] ∧
        (onSink sink).recorded (String.ofList (Piece.lineOf second.toList)) =
          [] := by
  rw [scansApart_iff, PlacedPiece.sameResults_of_comment_iff cutEq, content_eq,
    recorded_onSink, String.toList_ofList]

theorem scansApart_of_not_reaches {sink : Sink} {first second : String}
    (separate : ¬ (onSink sink).Reaches first second) :
    (onSink sink).ScansApart first second := by
  by_cases ends : ∀ last ∈ (Piece.cut first.toList).getLast?, ∀ next,
      second.toList.head? = some next → ¬ last.ContinuedBy next
  · exact scansApart_of_cut_append (Piece.cut_append_of_apart ends)
  · push Not at ends
    obtain ⟨last, isLast, next, head, continued⟩ := ends
    obtain ⟨pieces, cutEq⟩ := List.getLast?_eq_some_iff.mp isLast
    cases last with
    | symbol sign =>
        exact absurd (reaches_of_continued cutEq head continued) separate
    | comment body =>
        have opened := (Piece.getLast?_cut_eq_comment_iff first.toList).mp
          ⟨body, isLast⟩
        rw [scansApart_iff_of_comment cutEq]
        by_contra shown
        exact separate (.comment opened (Decidable.not_and_iff_or_not.mp shown))
    | _ => exact continued.elim

theorem not_scansApart_of_last {sink : Sink} {first second : String}
    {token : Token} {sign : Symbol} {next : Char}
    (last : ((onSink sink).content first).getLast? = some token)
    (kind : token.kind = .symbol sign)
    (stop : token.span.stop = first.utf8ByteSize)
    (head : second.toList.head? = some next)
    (continued : sign.continuation? = some next) :
    ¬ (onSink sink).ScansApart first second := by
  rw [content_eq] at last
  rw [← TextBytes.byteLength_toList] at stop
  obtain ⟨pieces, lastSign, cutEq, lastKind⟩ :=
    PlacedPiece.exists_cut_eq_of_getLast? last stop
  obtain rfl : lastSign = sign := Kind.symbol.inj (lastKind.symm.trans kind)
  rw [scansApart_iff]
  exact PlacedPiece.not_sameResults_of_continued cutEq head continued

theorem not_scansApart_of_reaches {sink : Sink} {first second : String}
    (reaches : (onSink sink).Reaches first second) :
    ¬ (onSink sink).ScansApart first second := by
  cases reaches with
  | comparison last kind listed stop next =>
      exact not_scansApart_of_last last kind stop next
        (Symbol.continuation?_eq_some_iff.mpr (.inl ⟨listed, rfl⟩))
  | slash last kind stop next =>
      exact not_scansApart_of_last last kind stop next rfl
  | comment opened shown =>
      obtain ⟨body, isLast⟩ :=
        (Piece.getLast?_cut_eq_comment_iff first.toList).mpr opened
      obtain ⟨pieces, cutEq⟩ := List.getLast?_eq_some_iff.mp isLast
      rw [scansApart_iff_of_comment cutEq]
      rintro ⟨noContent, nothingRecorded⟩
      rcases shown with content | recorded
      · exact content noContent
      · exact recorded nothingRecorded

/-- Two texts can be scanned apart exactly when the first does not reach into
the second.  Neither side of a newline reaches over it. -/
theorem scansApart_iff_not_reaches (sink : Sink) (first second : String) :
    ((onSink sink).ScansApart first second ↔
        ¬ (onSink sink).Reaches first second) ∧
      (onSink sink).ScansApart first ("\n" ++ second) ∧
      (onSink sink).ScansApart (first ++ "\n") second := by
  refine ⟨⟨?_, scansApart_of_not_reaches⟩, ?_, ?_⟩
  · intro apart reaches
    exact not_scansApart_of_reaches reaches apart
  · apply scansApart_of_cut_append
    exact Piece.cut_append_of_newline _ (by simp)
  · apply scansApart_of_cut_append
    have newlineCut := Piece.cut_append_newline_cons first.toList []
    have wholeCut := Piece.cut_append_newline_cons first.toList second.toList
    simp [newlineCut, wholeCut]

end DiagnosticLog
end Lox
