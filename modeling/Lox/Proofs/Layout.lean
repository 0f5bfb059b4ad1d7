import Lox.Proofs.TokenStream
import Mathlib.Data.List.Chain

/-!
# Symbols laid out in a source

A list of symbols can be written down with any spaces between them, or none.
This file proves that scanning what is written gives the symbols back, each where
it was put, exactly when no two symbols that touch are read as something else.
-/

namespace Lox

/-- Text that stands between symbols. -/
structure Gap where
  text : List Char
  spaces : ∀ character ∈ text, character ∈ Piece.spaces

/-- Symbols in the order in which they are written, each with the gap behind it,
and the gap in front of them all. -/
structure Layout where
  lead : Gap
  items : List (Symbol × Gap)

namespace Layout

def itemsText (items : List (Symbol × Gap)) : List Char :=
  items.flatMap fun item => item.1.spelling ++ item.2.text

def source (layout : Layout) : String :=
  String.ofList (layout.lead.text ++ itemsText layout.items)

/-- The tokens of symbols that are written behind a text, each at the bytes and
on the line that all that is written before it leads to. -/
def tokensBehind : List Char → List (Symbol × Gap) → List Token
  | _, [] => []
  | before, (sign, gap) :: items =>
      { kind := .symbol sign
        lexeme := String.ofList sign.spelling
        literal := none
        line := 1 + before.count '\n'
        span := ⟨TextBytes.byteLength before,
          TextBytes.byteLength before +
            TextBytes.byteLength sign.spelling⟩ } ::
        tokensBehind (before ++ sign.spelling ++ gap.text) items

def tokens (layout : Layout) : List Token :=
  tokensBehind layout.lead.text layout.items

/-- Whether two symbols that touch are not read as these two symbols. -/
def Fuse (first second : Symbol) : Prop :=
  (first ∈ [.bang, .equal, .less, .greater] ∧
      second ∈ [.equal, .equalEqual]) ∨
    (first = .slash ∧ second = .slash)

/-- Whether a symbol has a gap behind it if the next one would fuse with it. -/
def KeptApart (first second : Symbol × Gap) : Prop :=
  first.2.text = [] → ¬ Fuse first.1 second.1

def Separated (layout : Layout) : Prop :=
  layout.items.IsChain KeptApart

instance (first second : Symbol) : Decidable (Fuse first second) :=
  inferInstanceAs (Decidable (_ ∨ _))

instance (first second : Symbol × Gap) : Decidable (KeptApart first second) :=
  inferInstanceAs (Decidable (_ → _))

instance (layout : Layout) : Decidable layout.Separated :=
  inferInstanceAs (Decidable (layout.items.IsChain KeptApart))

theorem head?_spelling_eq_equal_iff (sign : Symbol) :
    sign.spelling.head? = some '=' ↔ sign ∈ [.equal, .equalEqual] := by
  cases sign <;> decide

theorem head?_spelling_eq_slash_iff (sign : Symbol) :
    sign.spelling.head? = some '/' ↔ sign = .slash := by
  cases sign <;> decide

/-- Symbols fuse when the second begins with what continues the first. -/
theorem fuse_iff {first second : Symbol} :
    Fuse first second ↔ ∃ next, second.spelling.head? = some next ∧
      first.continuation? = some next := by
  constructor
  · rintro (⟨listed, begins⟩ | ⟨rfl, rfl⟩)
    · exact ⟨'=', (head?_spelling_eq_equal_iff second).mpr begins,
        Symbol.continuation?_eq_some_iff.mpr (.inl ⟨listed, rfl⟩)⟩
    · exact ⟨'/', rfl, rfl⟩
  · rintro ⟨next, head, continued⟩
    rcases Symbol.continuation?_eq_some_iff.mp continued with
      ⟨listed, rfl⟩ | ⟨rfl, rfl⟩
    · exact .inl ⟨listed, (head?_spelling_eq_equal_iff second).mp head⟩
    · exact .inr ⟨rfl, (head?_spelling_eq_slash_iff second).mp head⟩

theorem continuation?_notMem_spaces {sign : Symbol} {next : Char}
    (continued : sign.continuation? = some next) : next ∉ Piece.spaces := by
  rcases Symbol.continuation?_eq_some_iff.mp continued with
    ⟨_, rfl⟩ | ⟨_, rfl⟩ <;> decide

/-- The piece that a single space is. -/
def spacePiece (character : Char) : Piece :=
  if character = '\n' then .newline else .blank character

theorem wellFormed_spacePiece {character : Char}
    (space : character ∈ Piece.spaces) : (spacePiece character).WellFormed := by
  unfold spacePiece
  split
  next => trivial
  next notLine =>
    exact ((Piece.mem_spaces_iff character).mp space).resolve_right notLine

theorem text_spacePiece (character : Char) :
    (spacePiece character).text = [character] := by
  unfold spacePiece
  split
  next line => rw [line]; rfl
  next => rfl

theorem cut_gap_append (gap : Gap) (rest : List Char) :
    Piece.cut (gap.text ++ rest) = gap.text.map spacePiece ++ Piece.cut rest := by
  obtain ⟨text, spaces⟩ := gap
  induction text with
  | nil => rfl
  | cons character text ih =>
      obtain ⟨space, others⟩ := List.forall_mem_cons.mp spaces
      have stands : (spacePiece character).StandsBefore (text ++ rest) := by
        refine ⟨wellFormed_spacePiece space, fun next _ => ?_⟩
        unfold spacePiece
        split <;> exact id
      have first := Piece.cut_text_append stands
      rw [text_spacePiece] at first
      exact first.trans (congrArg _ (ih others))

theorem nothing_of_spacePieces (position : Position) (text : List Char) :
    PlacedPiece.tokensFrom position (text.map spacePiece) = [] ∧
      PlacedPiece.diagnosticsFrom position (text.map spacePiece) = [] := by
  induction text generalizing position with
  | nil => exact ⟨rfl, rfl⟩
  | cons character text ih =>
      have here : PlacedPiece.token? ⟨spacePiece character, position⟩ = none ∧
          PlacedPiece.diagnostic? ⟨spacePiece character, position⟩ = none := by
        unfold spacePiece
        split <;> exact ⟨rfl, rfl⟩
      rw [List.map_cons, PlacedPiece.tokensFrom_cons,
        PlacedPiece.diagnosticsFrom_cons, here.1, here.2]
      exact ih _

/-- The pieces that written symbols are, if none of them fuse. -/
def pieces (items : List (Symbol × Gap)) : List Piece :=
  items.flatMap fun item => .symbol item.1 :: item.2.text.map spacePiece

theorem standsBefore_of_isChain {sign : Symbol} {gap : Gap}
    {items : List (Symbol × Gap)}
    (separated : ((sign, gap) :: items).IsChain KeptApart) :
    (Piece.symbol sign).StandsBefore (gap.text ++ itemsText items) := by
  refine ⟨trivial, ?_⟩
  intro next head continued
  cases gapEq : gap.text with
  | cons character text =>
      rw [gapEq] at head
      obtain rfl : character = next := Option.some.inj head
      have space := gap.spaces character (by simp [gapEq])
      exact continuation?_notMem_spaces continued space
  | nil =>
      rw [gapEq, List.nil_append] at head
      cases items with
      | nil => simp [itemsText] at head
      | cons second items =>
          have apart := (List.isChain_cons_cons.mp separated).1 gapEq
          apply apart (fuse_iff.mpr ⟨next, ?_, continued⟩)
          have begins := second.1.spelling_ne_nil
          simpa [itemsText, List.head?_append_of_ne_nil, begins] using head

theorem cut_itemsText {items : List (Symbol × Gap)}
    (separated : items.IsChain KeptApart) :
    Piece.cut (itemsText items) = pieces items := by
  induction items with
  | nil => exact Piece.cut_nil
  | cons item items ih =>
      obtain ⟨sign, gap⟩ := item
      have first := Piece.cut_text_append (standsBefore_of_isChain separated)
      rw [cut_gap_append, ih separated.tail] at first
      simpa [itemsText, pieces, Piece.text] using first

theorem flatMap_text_spacePieces (text : List Char) :
    (text.map spacePiece).flatMap Piece.text = text := by
  simp [List.flatMap_map, text_spacePiece]

theorem afterAll_gap (before : List Char) (gap : Gap) :
    (Position.behind before).afterAll (gap.text.map spacePiece) =
      .behind (before ++ gap.text) := by
  rw [Position.afterAll_behind before, flatMap_text_spacePieces]
  simp only [List.forall_mem_map]
  intro character member
  exact wellFormed_spacePiece (gap.spaces character member)

theorem tokensFrom_pieces (before : List Char) (items : List (Symbol × Gap)) :
    PlacedPiece.tokensFrom (.behind before) (pieces items) =
      tokensBehind before items := by
  induction items generalizing before with
  | nil => rfl
  | cons item items ih =>
      obtain ⟨sign, gap⟩ := item
      have formed : (Piece.symbol sign).WellFormed := trivial
      rw [pieces, List.flatMap_cons, List.cons_append,
        PlacedPiece.tokensFrom_cons, PlacedPiece.tokensFrom_append,
        (nothing_of_spacePieces _ gap.text).1, List.nil_append,
        Position.after_behind before formed, afterAll_gap]
      exact congrArg₂ List.cons rfl (ih _)

theorem diagnosticsFrom_pieces (position : Position)
    (items : List (Symbol × Gap)) :
    PlacedPiece.diagnosticsFrom position (pieces items) = [] := by
  induction items generalizing position with
  | nil => rfl
  | cons item items ih =>
      obtain ⟨sign, gap⟩ := item
      rw [pieces, List.flatMap_cons, List.cons_append,
        PlacedPiece.diagnosticsFrom_cons, PlacedPiece.diagnosticsFrom_append,
        (nothing_of_spacePieces _ gap.text).2]
      exact ih _

theorem cut_source {layout : Layout} (separated : layout.Separated) :
    Piece.cut layout.source.toList =
      layout.lead.text.map spacePiece ++ pieces layout.items := by
  rw [source, String.toList_ofList, cut_gap_append, cut_itemsText separated]

theorem scan_of_separated (sink : Sink) {layout : Layout}
    (separated : layout.Separated) :
    (DiagnosticLog.onSink sink).content layout.source = layout.tokens ∧
      (DiagnosticLog.onSink sink).recorded layout.source = [] := by
  have reached : Position.origin.afterAll (layout.lead.text.map spacePiece) =
      .behind layout.lead.text :=
    afterAll_gap [] layout.lead
  rw [DiagnosticLog.content_eq, DiagnosticLog.recorded_onSink,
    cut_source separated, PlacedPiece.tokensFrom_append,
    PlacedPiece.diagnosticsFrom_append, reached, tokensFrom_pieces,
    diagnosticsFrom_pieces, (nothing_of_spacePieces _ _).1,
    (nothing_of_spacePieces _ _).2]
  exact ⟨rfl, rfl⟩

theorem standsBefore_of_mem_tokensFrom_cut {before behind : List Char}
    {sign : Symbol} {token : Token}
    (member : token ∈ PlacedPiece.tokensFrom .origin
      (Piece.cut (before ++ (sign.spelling ++ behind))))
    (kind : token.kind = .symbol sign)
    (start : token.span.start = TextBytes.byteLength before) :
    (Piece.symbol sign).StandsBefore behind := by
  obtain ⟨otherBefore, other, otherBehind, parts, stands, rfl⟩ :=
    PlacedPiece.exists_symbol_of_mem_tokensFrom_cut member
  obtain rfl : other = sign := Kind.symbol.inj kind
  obtain ⟨-, rest⟩ := TextBytes.append_inj parts start.symm
  obtain rfl := List.append_cancel_left rest
  exact stands

/-- Symbols whose tokens are all read where they were written are separated. -/
theorem isChain_of_mem_tokensFrom_cut {before : List Char}
    {items : List (Symbol × Gap)}
    (allRead : ∀ token ∈ tokensBehind before items,
      token ∈ PlacedPiece.tokensFrom .origin
        (Piece.cut (before ++ itemsText items))) :
    items.IsChain KeptApart := by
  induction items generalizing before with
  | nil => exact .nil
  | cons item items ih =>
      obtain ⟨sign, gap⟩ := item
      have text : before ++ itemsText ((sign, gap) :: items) =
          before ++ (sign.spelling ++ (gap.text ++ itemsText items)) := by
        simp [itemsText]
      rw [text] at allRead
      obtain ⟨firstRead, othersRead⟩ := List.forall_mem_cons.mp allRead
      have later : ∀ token ∈
          tokensBehind (before ++ sign.spelling ++ gap.text) items,
          token ∈ PlacedPiece.tokensFrom .origin (Piece.cut
            (before ++ sign.spelling ++ gap.text ++ itemsText items)) := by
        simpa using othersRead
      refine List.isChain_cons.mpr ⟨?_, ih later⟩
      -- A symbol that was read where it was written ends before whatever
      -- continues it, so a symbol that touches it cannot begin with that.
      intro second isSecond noGap fuse
      obtain ⟨next, head, continued⟩ := fuse_iff.mp fuse
      obtain ⟨others, rfl⟩ := List.head?_eq_some_iff.mp isSecond
      have stands := standsBefore_of_mem_tokensFrom_cut firstRead rfl rfl
      have touches : gap.text = [] := noGap
      refine stands.ends next ?_ continued
      simp [touches, itemsText, List.head?_append, head]

/-- Scanning what is written gives the symbols back where they were put, and
nothing else, exactly when gaps keep all symbols apart that would fuse. -/
theorem scan_source_iff_separated (sink : Sink) (layout : Layout) :
    (DiagnosticLog.onSink sink).content layout.source = layout.tokens ∧
        (DiagnosticLog.onSink sink).recorded layout.source = [] ↔
      layout.Separated := by
  constructor
  · rintro ⟨tokens, -⟩
    rw [DiagnosticLog.content_eq, source, String.toList_ofList] at tokens
    apply isChain_of_mem_tokensFrom_cut
    intro token member
    rw [tokens]
    exact member
  · exact scan_of_separated sink

/-- An equal sign fuses with a double one that touches it, and a gap keeps the two
apart. -/
example :
    ¬ (⟨⟨[], by simp⟩, [(.equal, ⟨[], by simp⟩), (.equalEqual, ⟨[], by simp⟩)]⟩ :
        Layout).Separated ∧
      (⟨⟨[], by simp⟩,
        [(.equal, ⟨[' '], by simp [Piece.spaces]⟩), (.equalEqual, ⟨[], by simp⟩)]⟩ :
        Layout).Separated := by
  decide

end Layout
end Lox
