import Lox.Proofs.CommentStripping
import Lox.Proofs.TokenStream

/-!
# Line numbers

A place in a source is on the line that the newlines before it lead to.  This
file proves that every token is on the line that its first byte is on, and every
diagnostic on the line of its own unexpected character.  Which characters those
are is said without cutting the source: the ones outside comments that the
language has no use for.
-/

namespace Lox

/-- The line that a byte offset of a text is on, if no character is cut there.
Every newline before it ends a line. -/
def TextBytes.lineAt? (offset : Nat) (text : List Char) : Option Nat :=
  (cutAt? offset text).map fun parts => 1 + parts.1.count '\n'

theorem TextBytes.lineAt?_append (before behind : List Char) :
    lineAt? (byteLength before) (before ++ behind) =
      some (1 + before.count '\n') := by
  rw [lineAt?, cutAt?_append, Option.map_some]

/-- A character of a text, with all that stands before and behind it. -/
structure Occurrence where
  before : List Char
  character : Char
  behind : List Char
  deriving DecidableEq

namespace Occurrence

/-- The characters of a text in order, with the text that it follows. -/
def allBehind : List Char → List Char → List Occurrence
  | _, [] => []
  | before, character :: behind =>
      ⟨before, character, behind⟩ :: allBehind (before ++ [character]) behind

def all (text : List Char) : List Occurrence :=
  allBehind [] text

def line (occurrence : Occurrence) : Nat :=
  1 + occurrence.before.count '\n'

/-- Whether a character belongs to a comment, which runs from the first two
adjacent slashes of a line to the end of that line. -/
def inComment (occurrence : Occurrence) : Bool :=
  decide (occurrence.character ≠ '\n' ∧
    ['/', '/'] <:+: Piece.lastLine occurrence.before ++
      occurrence.character :: occurrence.behind.take 1)

/-- Whether a scan has to report a character. -/
def isReported (occurrence : Occurrence) : Bool :=
  !occurrence.inComment && Piece.isUnexpected occurrence.character

def diagnostic (occurrence : Occurrence) : Diagnostic :=
  .onLine occurrence.line (.unexpectedCharacter occurrence.character)

/-- What a scan has to report of a text that follows another one. -/
def reports (before text : List Char) : List Diagnostic :=
  ((allBehind before text).filter isReported).map diagnostic

theorem allBehind_append (before first second : List Char) :
    allBehind before (first ++ second) =
      (allBehind before first).map
          (fun occurrence =>
            { occurrence with behind := occurrence.behind ++ second }) ++
        allBehind (before ++ first) second := by
  induction first generalizing before with
  | nil => simp [allBehind]
  | cons character first ih => simp [allBehind, ih]

theorem mem_allBehind {before text : List Char} {occurrence : Occurrence}
    (member : occurrence ∈ allBehind before text) :
    ∃ start, occurrence.before = before ++ start ∧
      text = start ++ occurrence.character :: occurrence.behind := by
  induction text generalizing before with
  | nil => simp [allBehind] at member
  | cons character text ih =>
      rcases List.mem_cons.mp member with rfl | later
      · exact ⟨[], by simp, rfl⟩
      · obtain ⟨start, beforeEq, textEq⟩ := ih later
        exact ⟨character :: start, by simp [beforeEq], by simp [textEq]⟩

theorem inComment_of_mem_comment {before body rest : List Char}
    (inside : '\n' ∉ body) {occurrence : Occurrence}
    (member : occurrence ∈ allBehind before ('/' :: '/' :: body)) :
    inComment { occurrence with behind := occurrence.behind ++ rest } = true := by
  obtain ⟨start, beforeEq, parts⟩ := mem_allBehind member
  have noNewline : '\n' ∉ start ++ occurrence.character :: occurrence.behind := by
    simp [← parts, inside]
  simp only [List.mem_append, List.mem_cons, not_or] at noNewline
  refine decide_eq_true ⟨Ne.symm noNewline.2.1, ?_⟩
  rw [beforeEq, Piece.lastLine_append before noNewline.1, List.append_assoc]
  -- The two slashes that begin the comment stand at the character or before it.
  have opened : ['/', '/'] <+:
      start ++ occurrence.character :: (occurrence.behind ++ rest).take 1 := by
    rcases start with _ | ⟨first, _ | ⟨second, start⟩⟩ <;>
      simp only [List.nil_append, List.cons_append, List.cons.injEq] at parts
    · simp [← parts.1, ← parts.2]
    · simp [← parts.1, ← parts.2.1]
    · simp [← parts.1, ← parts.2.1]
  exact opened.isInfix.trans (List.suffix_append _ _).isInfix

theorem inComment_eq_false_of_ends {before rest : List Char} {character : Char}
    (noSlash : character ≠ '/') (notLine : character ≠ '\n')
    (ends : ∀ last ∈ (Piece.cut before).getLast?, ¬ last.ContinuedBy character) :
    inComment ⟨before, character, rest⟩ = false := by
  have short : ¬ ['/', '/'] <:+: rest.take 1 := by
    intro found
    have bound := found.length_le.trans (List.length_take_le 1 rest)
    exact absurd bound (by decide)
  have closed : ¬ ['/', '/'] <:+: Piece.lastLine before := by
    rw [← Piece.getLast?_cut_eq_comment_iff]
    rintro ⟨body, last⟩
    exact ends _ last notLine
  simp [inComment, Piece.slashes_infix_append_cons_iff _ noSlash, short, closed]

theorem reports_append (before first second : List Char) :
    reports before (first ++ second) =
      (((allBehind before first).map fun occurrence =>
          { occurrence with behind := occurrence.behind ++ second }).filter
            isReported).map diagnostic ++
        reports (before ++ first) second := by
  rw [reports, allBehind_append, List.filter_append, List.map_append]
  rfl

theorem not_isReported_of_mem_piece {before rest : List Char} {piece : Piece}
    (wellFormed : piece.WellFormed) (noStray : ∀ character, piece ≠ .stray character)
    {occurrence : Occurrence} (member : occurrence ∈ allBehind before piece.text) :
    isReported { occurrence with behind := occurrence.behind ++ rest } = false := by
  rcases piece.exists_comment_or_ne with ⟨body, rfl⟩ | noComment
  · rw [isReported, inComment_of_mem_comment wellFormed member]
    rfl
  · have noDiagnostic : piece.text.filter Piece.isUnexpected = [] := by
      rw [← Piece.plainText_of_ne noComment,
        Fate.filter_isUnexpected_plainText wellFormed]
      cases piece with
      | stray character => exact absurd rfl (noStray character)
      | _ => rfl
    obtain ⟨start, -, parts⟩ := mem_allBehind member
    have expected := List.filter_eq_nil_iff.mp noDiagnostic occurrence.character
      (by simp [parts])
    simp [isReported, expected]

/-- A stray character is reported where it is read. -/
theorem isReported_of_stray {before rest : List Char} {character : Char}
    (unexpected : Piece.isUnexpected character = true)
    (apart : Piece.Apart before (character :: rest)) :
    isReported ⟨before, character, rest⟩ = true := by
  have roles := (Piece.isUnexpected_iff character).mp unexpected
  have outside : inComment ⟨before, character, rest⟩ = false :=
    inComment_eq_false_of_ends roles.2.2.1 roles.2.2.2.1 fun last isLast =>
      apart last isLast character rfl
  simp [isReported, outside, unexpected]

/-- Of the characters of a piece, only a stray one is reported. -/
theorem reports_text_append {before rest : List Char} {piece : Piece}
    (stands : piece.StandsBefore rest)
    (apart : Piece.Apart before (piece.text ++ rest)) :
    reports before (piece.text ++ rest) =
      (PlacedPiece.diagnostic? ⟨piece, .behind before⟩).toList ++
        reports (before ++ piece.text) rest := by
  rw [reports_append, List.append_cancel_right_eq]
  rcases piece.exists_stray_or_ne with ⟨character, rfl⟩ | noStray
  · have reported : isReported ⟨before, character, rest⟩ = true :=
      isReported_of_stray stands.wellFormed apart
    simp [Piece.text, allBehind, reported, diagnostic, Occurrence.line,
      Position.behind, PlacedPiece.diagnostic?]
  · have noDiagnostic :
        PlacedPiece.diagnostic? ⟨piece, .behind before⟩ = none := by
      cases piece with
      | stray character => exact absurd rfl (noStray character)
      | _ => rfl
    rw [noDiagnostic, Option.toList_none, List.map_eq_nil_iff,
      List.filter_eq_nil_iff, List.forall_mem_map]
    intro occurrence member
    simp [not_isReported_of_mem_piece stands.wellFormed noStray member]

/-- What has to be reported of a text is what its pieces call for, unless the
text before it reaches into it. -/
theorem reports_eq_diagnosticsFrom (before text : List Char)
    (apart : Piece.Apart before text) :
    reports before text =
      PlacedPiece.diagnosticsFrom (.behind before) (Piece.cut text) := by
  refine Piece.apartInduction ?_ ?_ before text apart
  · intro before
    simp [reports, allBehind]
  · intro before piece rest stands apart ih
    rw [reports_text_append stands apart, ih, Piece.cut_text_append stands,
      PlacedPiece.diagnosticsFrom_cons,
      Position.after_behind before stands.wellFormed]

end Occurrence

namespace DiagnosticLog

theorem lineAt?_of_mem_scan {log : DiagnosticLog} {source : String}
    {token : Token} (member : token ∈ (log.scan source).1) :
    TextBytes.lineAt? token.span.start source.toList = some token.line := by
  rw [scan_tokens_eq, List.mem_append, List.mem_singleton] at member
  rcases member with content | rfl
  · obtain ⟨before, sign, behind, parts, rfl⟩ :=
      PlacedPiece.eq_of_mem_tokensFrom_cut content
    rw [parts]
    exact TextBytes.lineAt?_append before _
  · have whole := TextBytes.lineAt?_append source.toList []
    rw [List.append_nil] at whole
    rw [Position.afterAll_origin_cut]
    exact whole

theorem moved_suffix_scan (log : DiagnosticLog) (first second : String) :
    ((log.scan second).1.map fun token =>
        token.moved (first.utf8ByteSize + 1) (first.toList.count '\n' + 1)) <:+
      (log.scan (first ++ "\n" ++ second)).1 := by
  have apart : Piece.cut (first ++ "\n" ++ second).toList =
      (Piece.cut first.toList ++ [.newline]) ++ Piece.cut second.toList := by
    simp [← Piece.cut_append_newline_cons]
  have reached : Position.origin.afterAll (Piece.cut first.toList ++ [.newline]) =
      Position.origin.moved (first.utf8ByteSize + 1)
        (first.toList.count '\n' + 1) := by
    rw [Position.afterAll_append, Position.afterAll_cut,
      TextBytes.byteLength_toList]
    rfl
  have ends : Position.origin.afterAll (Piece.cut (first ++ "\n" ++ second).toList) =
      (Position.origin.afterAll (Piece.cut second.toList)).moved
        (first.utf8ByteSize + 1) (first.toList.count '\n' + 1) := by
    rw [apart, Position.afterAll_append, reached, Position.moved_afterAll]
  rw [scan_tokens_eq, scan_tokens_eq, ends, apart, PlacedPiece.tokensFrom_append,
    reached, PlacedPiece.tokensFrom_moved, List.map_append, List.append_assoc]
  exact List.suffix_append _ _

/-- Tokens and diagnostics are on the lines that the newlines before them lead
to, whatever log a scan reports to.  A newline counts once for all that is behind
it, also one that ends a comment, and nothing else counts. -/
theorem scan_lines (log : DiagnosticLog) (source : String) :
    (∀ token ∈ (log.scan source).1,
      TextBytes.lineAt? token.span.start source.toList = some token.line) ∧
    (log.scan source).2.diagnostics.toList =
      log.diagnostics.toList ++
        ((Occurrence.all source.toList).filter fun occurrence =>
            !occurrence.inComment &&
              Piece.isUnexpected occurrence.character).map
          (fun occurrence => .onLine (1 + occurrence.before.count '\n')
            (.unexpectedCharacter occurrence.character)) ∧
    ∀ first second : String, source = first ++ "\n" ++ second →
      ((log.scan second).1.map fun token =>
          token.moved (first.utf8ByteSize + 1) (first.toList.count '\n' + 1)) <:+
        (log.scan source).1 := by
  refine ⟨fun token => lineAt?_of_mem_scan, ?_, ?_⟩
  · have reported := Occurrence.reports_eq_diagnosticsFrom [] source.toList
      (by simp [Piece.Apart])
    rw [diagnostics_scan]
    exact congrArg (log.diagnostics.toList ++ ·) reported.symm
  · rintro first second rfl
    exact log.moved_suffix_scan first second

end DiagnosticLog
end Lox
