import Lox.Proofs.TokenStream

/-!
# Text that is appended to a source

What a scan has found in a text stays found when more text is appended to it.
Only the last piece can be read differently, since it may take a beginning of
the new text with it.  This file lists what can become of that piece, and proves
which tokens and diagnostics a caller may keep.
-/

namespace Lox

namespace Symbol

/-- The symbol that a comparison becomes with an equal sign directly behind
it. -/
def withEqual? : Symbol → Option Symbol
  | bang => some bangEqual
  | equal => some equalEqual
  | less => some lessEqual
  | greater => some greaterEqual
  | _ => none

theorem exists_withEqual? {sign : Symbol}
    (listed : sign ∈ [bang, equal, less, greater]) :
    ∃ longer, sign.withEqual? = some longer := by
  cases sign
  case bang | equal | less | greater => exact ⟨_, rfl⟩
  all_goals simp at listed

theorem of_withEqual? {sign longer : Symbol}
    (found : sign.withEqual? = some longer) :
    sign.continuation? = some '=' ∧ longer.continuation? = none ∧
      longer.spelling = sign.spelling ++ ['='] := by
  cases sign
  case bang | equal | less | greater =>
    obtain rfl := Option.some.inj found
    exact ⟨rfl, rfl, rfl⟩
  all_goals simp [withEqual?] at found

end Symbol

/-- What becomes of a token when a character follows it directly: a comparison
takes an equal sign, and a second slash makes a comment of the first. -/
def Token.followedBy? (token : Token) (next : Option Char) : Option Token :=
  match token.kind, next with
  | .symbol .slash, some '/' => none
  | .symbol sign, some '=' =>
      match sign.withEqual? with
      | some longer =>
          some { token with
            kind := .symbol longer
            lexeme := token.lexeme ++ "="
            span := ⟨token.span.start, token.span.stop + 1⟩ }
      | none => some token
  | _, _ => some token

theorem Token.followedBy?_of_ends {token : Token} {sign : Symbol}
    {next : Option Char} (kind : token.kind = .symbol sign)
    (ends : ∀ character, next = some character →
      sign.continuation? ≠ some character) :
    token.followedBy? next = some token := by
  unfold followedBy?
  split
  next isSlash =>
    obtain rfl : sign = .slash := Kind.symbol.inj (kind.symm.trans isSlash)
    exact absurd rfl (ends '/' rfl)
  next other isOther =>
    obtain rfl : sign = other := Kind.symbol.inj (kind.symm.trans isOther)
    split
    next longer found =>
      exact absurd (Symbol.of_withEqual? found).1 (ends '=' rfl)
    next => rfl
  next => rfl

namespace Piece

/-- What the last piece of a text can become when another text follows, given
the first character of that text. -/
inductive Becomes : Piece → Option Char → Piece → Prop
  | same {piece : Piece} {next : Option Char}
      (ends : ∀ character, next = some character →
        ¬ piece.ContinuedBy character) :
      Becomes piece next piece
  | extended {sign longer : Symbol} (found : sign.withEqual? = some longer) :
      Becomes (symbol sign) (some '=') (symbol longer)
  | opened {body : List Char} :
      Becomes (symbol .slash) (some '/') (comment body)
  | prolonged {body more : List Char} {next : Option Char} :
      Becomes (comment body) next (comment (body ++ more))

theorem exists_becomes {last : Piece} (formed : last.WellFormed)
    (second : List Char) :
    ∃ piece others, cut (last.text ++ second) = piece :: others ∧
      last.Becomes second.head? piece := by
  by_cases ends : ∀ next, second.head? = some next → ¬ last.ContinuedBy next
  · exact ⟨last, _, cut_text_append ⟨formed, ends⟩, .same ends⟩
  · push Not at ends
    obtain ⟨next, head, continued⟩ := ends
    obtain ⟨rest, rfl⟩ := List.head?_eq_some_iff.mp head
    cases last with
    | symbol sign =>
        rcases Symbol.continuation?_eq_some_iff.mp continued with
          ⟨listed, rfl⟩ | ⟨rfl, rfl⟩
        · obtain ⟨longer, found⟩ := Symbol.exists_withEqual? listed
          obtain ⟨-, noNext, spelled⟩ := Symbol.of_withEqual? found
          have stands : (symbol longer).StandsBefore rest :=
            ⟨trivial, fun next _ => by simp [ContinuedBy, noNext]⟩
          have longerCut := cut_text_append stands
          rw [text, spelled, List.append_assoc] at longerCut
          exact ⟨_, _, longerCut, .extended found⟩
        · exact ⟨_, _, cut_cons _ _, .opened⟩
    | comment body =>
        have stands : (comment (body ++ lineOf (next :: rest))).StandsBefore
            (behindLine (next :: rest)) := by
          refine ⟨?_, fun _ => not_not.mpr ∘ head?_behindLine⟩
          have bodyInside : '\n' ∉ body := formed
          simp [WellFormed, bodyInside, newline_notMem_lineOf]
        have prolongedCut := cut_text_append stands
        simp only [text, List.cons_append, List.append_assoc,
          lineOf_append_behindLine] at prolongedCut
        exact ⟨_, _, prolongedCut, .prolonged⟩
    | _ => exact continued.elim

theorem Becomes.byteLength_le {piece later : Piece} {next : Option Char}
    (becomes : piece.Becomes next later) :
    piece.byteLength ≤ later.byteLength := by
  cases becomes with
  | same ends => exact Nat.le_refl _
  | extended found =>
      simp [Piece.byteLength, text, (Symbol.of_withEqual? found).2.2]
  | opened => simp [Piece.byteLength, text, Symbol.spelling]
  | prolonged => simp [Piece.byteLength, text]

end Piece

namespace PlacedPiece

theorem diagnostic?_of_becomes {piece later : Piece} {next : Option Char}
    (becomes : piece.Becomes next later) (position : Position) :
    diagnostic? ⟨later, position⟩ = diagnostic? ⟨piece, position⟩ := by
  cases becomes <;> rfl

theorem token?_of_becomes {piece later : Piece} {next : Option Char}
    (becomes : piece.Becomes next later) (position : Position) :
    token? ⟨later, position⟩ =
      (token? ⟨piece, position⟩).bind fun token => token.followedBy? next := by
  cases becomes with
  | same ends =>
      cases piece with
      | symbol sign => exact (Token.followedBy?_of_ends rfl ends).symm
      | _ => rfl
  | extended found =>
      have spelled := (Symbol.of_withEqual? found).2.2
      have oneByte : Char.utf8Size '=' = 1 := rfl
      simp [token?, Token.followedBy?, found, spelled, span, Position.after,
        Piece.byteLength, Piece.text, String.ofList_append, oneByte,
        Nat.add_assoc]
  | opened => rfl
  | prolonged => rfl

/-- Only the first of some pieces has a token that starts where they do. -/
theorem filter_start_tokensFrom_cons (position : Position) (piece : Piece)
    (pieces : List Piece) :
    (tokensFrom position (piece :: pieces)).filter
        (fun token => decide (token.span.start = position.offset)) =
      (token? ⟨piece, position⟩).toList := by
  have here : ∀ token ∈ (token? ⟨piece, position⟩).toList,
      decide (token.span.start = position.offset) = true := by
    intro token member
    rw [span_of_token? (Option.mem_toList.mp member)]
    exact decide_eq_true rfl
  have later : ∀ token ∈ tokensFrom (position.after piece) pieces,
      ¬ decide (token.span.start = position.offset) = true := by
    intro token member same
    have bounds := (bounds_of_mem_tokensFrom member).1
    rw [of_decide_eq_true same] at bounds
    exact absurd (position.offset_lt_after piece) (Nat.not_lt.mpr bounds)
  rw [tokensFrom_cons, List.filter_append, List.filter_eq_self.mpr here,
    List.filter_eq_nil_iff.mpr later, List.append_nil]

/-- The pieces of a text, and those of the text with another appended to it: all
but the last are the same. -/
structure Appended (first second : List Char) (pieces : List Piece)
    (last later : Piece) (others : List Piece) : Prop where
  cut : Piece.cut first = pieces ++ [last]
  cutAppend : Piece.cut (first ++ second) = pieces ++ later :: others
  becomes : last.Becomes second.head? later

theorem exists_appended {first : List Char} (nonempty : first ≠ [])
    (second : List Char) :
    ∃ pieces last later others,
      Appended first second pieces last later others := by
  rcases List.eq_nil_or_concat' (Piece.cut first) with nothing | ⟨pieces, last, cutEq⟩
  · have empty := Piece.flatMap_text_cut first
    rw [nothing] at empty
    exact absurd empty.symm nonempty
  · have formed : last.WellFormed :=
      Piece.wellFormed_of_mem_cut (by rw [cutEq]; simp)
    obtain ⟨later, others, laterCut, becomes⟩ :=
      Piece.exists_becomes formed second
    refine ⟨pieces, last, later, others, cutEq, ?_, becomes⟩
    rw [Piece.cut_append_of_cut_eq cutEq, laterCut]

section

variable {first second : List Char} {pieces others : List Piece}
  {last later : Piece}

theorem offset_after_of_cut_eq (cutEq : Piece.cut first = pieces ++ [last]) :
    ((Position.origin.afterAll pieces).after last).offset =
      TextBytes.byteLength first := by
  have ends := congrArg Position.offset (Position.afterAll_origin_cut first)
  rwa [cutEq, Position.afterAll_append] at ends

theorem stop_lt_of_mem_tokensFrom (cutEq : Piece.cut first = pieces ++ [last])
    {token : Token} (member : token ∈ tokensFrom .origin pieces) :
    token.span.stop < TextBytes.byteLength first := by
  have bounds := bounds_of_mem_tokensFrom member
  rw [← offset_after_of_cut_eq cutEq]
  exact bounds.2.2.trans_lt (Position.offset_lt_after _ last)

/-- Tokens that end before a text does come from all pieces of it but the last,
whatever that is read as. -/
theorem filter_stop_tokensFrom (cutEq : Piece.cut first = pieces ++ [last])
    (reaches : last.byteLength ≤ later.byteLength) (others : List Piece) :
    (tokensFrom .origin (pieces ++ later :: others)).filter (fun token =>
        decide (token.span.stop < TextBytes.byteLength first)) =
      tokensFrom .origin pieces := by
  have before : ∀ token ∈ tokensFrom .origin pieces,
      decide (token.span.stop < TextBytes.byteLength first) = true := by
    intro token member
    exact decide_eq_true (stop_lt_of_mem_tokensFrom cutEq member)
  have behind : ∀ token ∈
      tokensFrom (Position.origin.afterAll pieces) (later :: others),
      ¬ decide (token.span.stop < TextBytes.byteLength first) = true := by
    intro token member short
    have stops := stop_of_mem_tokensFrom_cons member
    have ends := offset_after_of_cut_eq cutEq
    have isShort := of_decide_eq_true short
    simp only [Position.after] at stops ends
    omega
  rw [tokensFrom_append, List.filter_append, List.filter_eq_self.mpr before,
    List.filter_eq_nil_iff.mpr behind, List.append_nil]

theorem token?_eq_of_stop_eq (cutEq : Piece.cut first = pieces ++ [last])
    {token : Token} (member : token ∈ tokensFrom .origin (Piece.cut first))
    (stop : token.span.stop = TextBytes.byteLength first) :
    token? ⟨last, Position.origin.afterAll pieces⟩ = some token := by
  rw [cutEq, tokensFrom_append, List.mem_append] at member
  rcases member with earlier | atEnd
  · exact absurd stop (stop_lt_of_mem_tokensFrom cutEq earlier).ne
  · simpa [tokensFrom_cons] using atEnd

theorem Appended.diagnostics_prefix
    (appended : Appended first second pieces last later others) :
    diagnosticsFrom .origin (Piece.cut first) <+:
      diagnosticsFrom .origin (Piece.cut (first ++ second)) := by
  rw [appended.cut, appended.cutAppend, diagnosticsFrom_append,
    diagnosticsFrom_append, diagnosticsFrom_cons, diagnosticsFrom_cons,
    diagnostic?_of_becomes appended.becomes, diagnosticsFrom_nil,
    List.append_nil, ← List.append_assoc]
  exact List.prefix_append _ _

theorem Appended.filter_stop
    (appended : Appended first second pieces last later others) :
    (tokensFrom .origin (Piece.cut (first ++ second))).filter (fun token =>
        decide (token.span.stop < TextBytes.byteLength first)) =
      (tokensFrom .origin (Piece.cut first)).filter fun token =>
        decide (token.span.stop < TextBytes.byteLength first) := by
  have kept := filter_stop_tokensFrom appended.cut
    (Nat.le_refl last.byteLength) []
  have keptAppend := filter_stop_tokensFrom appended.cut
    appended.becomes.byteLength_le others
  rw [← appended.cut] at kept
  rw [appended.cutAppend, kept, keptAppend]

theorem Appended.filter_start
    (appended : Appended first second pieces last later others) {token : Token}
    (found : token? ⟨last, Position.origin.afterAll pieces⟩ = some token) :
    (tokensFrom .origin (Piece.cut (first ++ second))).filter (fun other =>
        decide (other.span.start = token.span.start)) =
      (token.followedBy? second.head?).toList := by
  have start : token.span.start = (Position.origin.afterAll pieces).offset := by
    rw [span_of_token? found]
  have before : ∀ other ∈ tokensFrom .origin pieces,
      ¬ decide (other.span.start = token.span.start) = true := by
    intro other member same
    have bounds := bounds_of_mem_tokensFrom member
    have isSame := of_decide_eq_true same
    omega
  rw [appended.cutAppend, tokensFrom_append, List.filter_append,
    List.filter_eq_nil_iff.mpr before, List.nil_append, start,
    filter_start_tokensFrom_cons, token?_of_becomes appended.becomes, found,
    Option.bind_some]

end

end PlacedPiece

namespace DiagnosticLog

/-- With more text behind it, a source keeps its diagnostics and every token that
ends before it does.  A token at its very end is kept as well, unless the new
text continues it. -/
theorem scan_append (sink : Sink) (first second : String) :
    (onSink sink).recorded first <+: (onSink sink).recorded (first ++ second) ∧
    ((onSink sink).content (first ++ second)).filter (fun token =>
        decide (token.span.stop < first.utf8ByteSize)) =
      ((onSink sink).content first).filter (fun token =>
        decide (token.span.stop < first.utf8ByteSize)) ∧
    ∀ token ∈ (onSink sink).content first,
      token.span.stop = first.utf8ByteSize →
        ((onSink sink).content (first ++ second)).filter (fun other =>
            decide (other.span.start = token.span.start)) =
          (token.followedBy? second.toList.head?).toList := by
  simp only [content_eq, recorded_onSink, String.toList_append,
    ← TextBytes.byteLength_toList]
  by_cases empty : first.toList = []
  · simp [empty]
  · obtain ⟨pieces, last, later, others, appended⟩ :=
      PlacedPiece.exists_appended empty second.toList
    refine ⟨appended.diagnostics_prefix, appended.filter_stop, ?_⟩
    intro token member stop
    exact appended.filter_start
      (PlacedPiece.token?_eq_of_stop_eq appended.cut member stop)

end DiagnosticLog
end Lox
