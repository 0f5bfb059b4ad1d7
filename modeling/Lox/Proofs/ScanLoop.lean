import Lox.Proofs.CursorWalk
import Lox.Proofs.TokenStream
import Mathlib.Logic.Function.Iterate

/-!
# A scan piece by piece

A scan can be watched as a loop: each turn reads the piece that the cursor stands in
front of, and does one thing with it.  This file proves that the loop comes to the
results of the scan, that every turn of it moves on and has exactly one of four
effects, and that wherever the cursor has been taken before, all offsets stay at the
ends of characters of the source.
-/

namespace Lox

/-- A scan under way: its cursor, where the piece began that was read last, the
tokens so far, and the log that it reports to. -/
structure ScanState where
  cursor : Cursor
  start : Nat
  tokens : List Token
  log : DiagnosticLog

namespace ScanState

def ofSource (source : String) (log : DiagnosticLog) : ScanState :=
  ⟨.ofSource source, 0, [], log⟩

def offset (state : ScanState) : Nat :=
  state.cursor.position.offset

def line (state : ScanState) : Nat :=
  state.cursor.line

/-- The text that the scan has not come to yet. -/
def rest (state : ScanState) : List Char :=
  state.cursor.rest

/-- Step behind the next character by hand. -/
def advance (state : ScanState) : ScanState :=
  { state with cursor := state.cursor.advance.2 }

/-- One turn of the loop: read a piece, and keep the token or the diagnostic that it
calls for. -/
def iterate (state : ScanState) : ScanState :=
  match state.rest with
  | [] => state
  | first :: others =>
      let (piece, behind) := Piece.read first others
      let placed : PlacedPiece := ⟨piece, state.cursor.position⟩
      { cursor := ⟨state.cursor.position.after piece, behind⟩
        start := state.offset
        tokens := state.tokens ++ placed.token?.toList
        log := state.log.recordAll placed.diagnostic?.toList }

/-- What a scan returns, and the log it leaves, when it stops in a state. -/
def finish (state : ScanState) : List Token × DiagnosticLog :=
  (state.tokens ++ [Scan.endTokenAt state.cursor.position], state.log)

/-- The states that any steps of the cursor and turns of the loop can lead to. -/
inductive Reachable (source : String) : ScanState → Prop
  | start (log : DiagnosticLog) : Reachable source (ofSource source log)
  | advance {state : ScanState} (reachable : Reachable source state) :
      Reachable source state.advance
  | iterate {state : ScanState} (reachable : Reachable source state)
      (more : state.cursor.atEnd = false) : Reachable source state.iterate

theorem atEnd_eq_false_iff (state : ScanState) :
    state.cursor.atEnd = false ↔ state.rest ≠ [] := by
  simp [Cursor.atEnd, rest]

/-- A turn of the loop takes the piece that stands first in what remains. -/
theorem iterate_of_standsBefore {state : ScanState} {piece : Piece}
    {behind : List Char} (stands : piece.StandsBefore behind)
    (restEq : state.rest = piece.text ++ behind) :
    state.iterate =
      { cursor := ⟨state.cursor.position.after piece, behind⟩
        start := state.offset
        tokens := state.tokens ++
          (PlacedPiece.token? ⟨piece, state.cursor.position⟩).toList
        log := state.log.recordAll
          (PlacedPiece.diagnostic? ⟨piece, state.cursor.position⟩).toList } := by
  obtain ⟨first, others, starts⟩ : ∃ first others,
      piece.text ++ behind = first :: others :=
    List.exists_cons_of_ne_nil (by simp [piece.text_ne_nil])
  rw [iterate, restEq, starts]
  simp only [Piece.read_eq_of_standsBefore stands starts]

/-! ## Where the loop stands -/

/-- How a state lies in the source: what was read last stands behind what was passed
before, and what remains behind both.  No more lines were counted than characters
were passed. -/
structure LiesIn (state : ScanState) (source : String)
    (before covered : List Char) : Prop where
  text : source.toList = before ++ (covered ++ state.rest)
  start : state.start = TextBytes.byteLength before
  offset : state.offset = TextBytes.byteLength (before ++ covered)
  line : state.line ≤ 1 + (before ++ covered).length

theorem liesIn_ofSource (source : String) (log : DiagnosticLog) :
    (ofSource source log).LiesIn source [] [] :=
  ⟨rfl, rfl, rfl, Nat.le_refl 1⟩

theorem LiesIn.advance {state : ScanState} {source : String}
    {before covered : List Char} (lies : state.LiesIn source before covered) :
    ∃ more, state.advance.LiesIn source before (covered ++ more) := by
  cases restEq : state.rest with
  | nil =>
      have stays : state.advance = state := by
        have nothing : state.cursor.rest = [] := restEq
        rw [ScanState.advance, Cursor.advance, nothing]
      rw [stays]
      exact ⟨[], by rwa [List.append_nil]⟩
  | cons next others =>
      have moved : state.advance =
          { state with cursor :=
            { position :=
                { state.cursor.position with
                  offset := state.offset + next.utf8Size }
              rest := others } } := by
        have ahead : state.cursor.rest = next :: others := restEq
        rw [ScanState.advance, Cursor.advance, ahead]
        rfl
      refine ⟨[next], ?_, ?_, ?_, ?_⟩ <;> rw [moved]
      · rw [lies.text, restEq]
        simp [rest]
      · exact lies.start
      · change state.offset + next.utf8Size = _
        rw [lies.offset]
        simp [Nat.add_assoc]
      · change state.line ≤ _
        refine lies.line.trans ?_
        simp

theorem LiesIn.iterate {state : ScanState} {source : String}
    {before covered : List Char} (lies : state.LiesIn source before covered)
    {piece : Piece} {behind : List Char} (stands : piece.StandsBefore behind)
    (restEq : state.rest = piece.text ++ behind) :
    state.iterate.LiesIn source (before ++ covered) piece.text := by
  have moved := Position.after_eq_moved state.cursor.position stands.wellFormed
  rw [iterate_of_standsBefore stands restEq]
  refine ⟨?_, lies.offset, ?_, ?_⟩
  · rw [lies.text, restEq, List.append_assoc]
    rfl
  · change (state.cursor.position.after piece).offset = _
    rw [moved, TextBytes.byteLength_append, ← lies.offset]
    rfl
  · change (state.cursor.position.after piece).line ≤ _
    have counted : piece.text.count '\n' ≤ piece.text.length :=
      List.count_le_length
    have lineLe : state.cursor.position.line ≤ 1 + (before ++ covered).length :=
      lies.line
    rw [moved, Position.moved, List.length_append]
    simp only
    omega

theorem Reachable.exists_liesIn {source : String} {state : ScanState}
    (reachable : Reachable source state) :
    ∃ before covered, state.LiesIn source before covered := by
  induction reachable with
  | start log => exact ⟨[], [], liesIn_ofSource source log⟩
  | advance _ ih =>
      obtain ⟨before, covered, lies⟩ := ih
      obtain ⟨more, advanced⟩ := lies.advance
      exact ⟨before, covered ++ more, advanced⟩
  | @iterate state _ more ih =>
      obtain ⟨before, covered, lies⟩ := ih
      obtain ⟨piece, behind, stands, restEq⟩ :=
        Piece.exists_piece_of_ne_nil (state.atEnd_eq_false_iff.mp more)
      exact ⟨_, _, lies.iterate stands restEq⟩

/-- All that a scan takes out of its source in a state can be taken out of it. -/
structure InBounds (state : ScanState) (source : String) : Prop where
  startLe : state.start ≤ state.offset
  within : state.offset ≤ source.utf8ByteSize
  boundary : String.Pos.Raw.IsValid source ⟨state.offset⟩
  remainder : Span.slice? ⟨state.offset, source.utf8ByteSize⟩ source =
    some state.cursor.remainder
  covered : ∃ text, Span.slice? ⟨state.start, state.offset⟩ source = some text
  nothing : Span.slice? ⟨state.offset, state.offset⟩ source = some ""
  line : state.line ≤ 1 + source.utf8ByteSize

theorem LiesIn.byteSize {state : ScanState} {source : String}
    {before covered : List Char} (lies : state.LiesIn source before covered) :
    source.utf8ByteSize =
      state.offset + TextBytes.byteLength state.rest := by
  rw [← TextBytes.byteLength_toList, lies.text, lies.offset]
  simp [Nat.add_assoc]

theorem LiesIn.eq_ofList {state : ScanState} {source : String}
    {before covered : List Char} (lies : state.LiesIn source before covered) :
    source = String.ofList (before ++ (covered ++ state.rest)) := by
  rw [← lies.text, String.ofList_toList]

theorem LiesIn.slice?_covered {state : ScanState} {source : String}
    {before covered : List Char} (lies : state.LiesIn source before covered) :
    Span.slice? ⟨state.start, state.offset⟩ source =
      some (String.ofList covered) := by
  rw [lies.start, lies.offset, lies.eq_ofList, TextBytes.byteLength_append]
  exact Span.slice?_append before covered state.rest

theorem LiesIn.inBounds {state : ScanState} {source : String}
    {before covered : List Char} (lies : state.LiesIn source before covered) :
    state.InBounds source where
  startLe := by
    rw [lies.start, lies.offset, TextBytes.byteLength_append]
    exact Nat.le_add_right _ _
  within := by
    rw [lies.byteSize]
    exact Nat.le_add_right _ _
  boundary := by
    rw [lies.offset, lies.eq_ofList, ← List.append_assoc]
    exact TextBytes.isValid_byteLength (before ++ covered) state.rest
  remainder := by
    have sliced := Span.slice?_append (before ++ covered) state.rest []
    rw [← lies.offset, ← lies.byteSize, List.append_nil, List.append_assoc,
      ← lies.eq_ofList] at sliced
    exact sliced
  covered := ⟨_, lies.slice?_covered⟩
  nothing := by
    have sliced := Span.slice?_append (before ++ covered) [] state.rest
    rw [TextBytes.byteLength_nil, Nat.add_zero, List.nil_append,
      ← lies.offset, List.append_assoc, ← lies.eq_ofList] at sliced
    exact sliced
  line := by
    have lines := lies.line
    have characters := TextBytes.length_le_byteLength (before ++ covered)
    have bytes := lies.byteSize
    rw [← lies.offset] at characters
    omega

/-! ## What a turn does -/

/-- The four things that a turn of the loop can do. -/
inductive Effect
  | addsToken
  | reports
  | endsLine
  | skips
  deriving DecidableEq

/-- Whether a turn that reads a text and leads from one state to another has an
effect.  Each effect comes with all that is left as it was. -/
def Effect.Happens (text : List Char) (state next : ScanState) : Effect → Prop
  | addsToken =>
      (∃ token : Token, next.tokens = state.tokens ++ [token] ∧
        token.span = ⟨state.offset, next.offset⟩ ∧
        token.lexeme = String.ofList text) ∧
      next.line = state.line ∧ next.log = state.log
  | reports =>
      (∃ character, text = [character] ∧
        next.log = state.log.record
          (.onLine state.line (.unexpectedCharacter character))) ∧
      next.line = state.line ∧ next.tokens = state.tokens
  | endsLine =>
      text = ['\n'] ∧ next.line = state.line + 1 ∧
      next.tokens = state.tokens ∧ next.log = state.log
  | skips =>
      ((∃ character, text = [character] ∧ Piece.isBlank character = true) ∨
        ∃ body, text = '/' :: '/' :: body ∧ '\n' ∉ body ∧
          ∀ character, next.rest.head? = some character → character = '\n') ∧
      next.line = state.line ∧ next.tokens = state.tokens ∧
      next.log = state.log

/-- How many tokens, diagnostics and lines an effect adds. -/
def Effect.adds : Effect → Nat × Nat × Nat
  | addsToken => (1, 0, 0)
  | reports => (0, 1, 0)
  | endsLine => (0, 0, 1)
  | skips => (0, 0, 0)

theorem Effect.adds_injective {first second : Effect}
    (same : first.adds = second.adds) : first = second := by
  revert same
  cases first <;> cases second <;> decide

theorem Effect.Happens.counts {text : List Char} {state next : ScanState}
    {effect : Effect} (happens : effect.Happens text state next) :
    (next.tokens.length, next.log.diagnostics.size, next.line) =
      (state.tokens.length + effect.adds.1,
        state.log.diagnostics.size + effect.adds.2.1,
        state.line + effect.adds.2.2) := by
  cases effect with
  | addsToken =>
      obtain ⟨⟨token, tokens, -⟩, line, log⟩ := happens
      simp [tokens, line, log, adds]
  | reports =>
      obtain ⟨⟨character, -, log⟩, line, tokens⟩ := happens
      simp [tokens, line, log, adds, DiagnosticLog.record]
  | endsLine =>
      obtain ⟨-, line, tokens, log⟩ := happens
      simp [tokens, line, log, adds]
  | skips =>
      obtain ⟨-, line, tokens, log⟩ := happens
      simp [tokens, line, log, adds]

/-- No two effects happen together. -/
theorem Effect.Happens.unique {text : List Char} {state next : ScanState}
    {first second : Effect} (happens : first.Happens text state next)
    (other : second.Happens text state next) : first = second := by
  have same := happens.counts.symm.trans other.counts
  simp only [Prod.mk.injEq, Nat.add_left_cancel_iff] at same
  apply adds_injective
  exact Prod.ext same.1 (Prod.ext same.2.1 same.2.2)

theorem exists_effect {state : ScanState} {piece : Piece} {behind : List Char}
    (stands : piece.StandsBefore behind)
    (restEq : state.rest = piece.text ++ behind) :
    ∃ effect : Effect, effect.Happens piece.text state state.iterate := by
  rw [iterate_of_standsBefore stands restEq]
  cases piece with
  | symbol sign => exact ⟨.addsToken, ⟨_, rfl, rfl, rfl⟩, rfl, rfl⟩
  | comment body =>
      refine ⟨.skips, .inr ⟨body, rfl, stands.wellFormed, ?_⟩, rfl, ?_, rfl⟩
      · intro character head
        exact stands.eq_newline_of_comment head
      · exact List.append_nil _
  | blank character =>
      refine ⟨.skips, .inl ⟨character, rfl, stands.wellFormed⟩, rfl, ?_, rfl⟩
      exact List.append_nil _
  | newline => exact ⟨.endsLine, rfl, rfl, List.append_nil _, rfl⟩
  | stray character =>
      exact ⟨.reports, ⟨character, rfl, rfl⟩, rfl, List.append_nil _⟩

/-- A turn of the loop moves on by the text that it reads, ends at the end of a
character, and does one of the four things.  To decide which, it may look behind the
first character of that text. -/
structure Progress (state next : ScanState) (source : String) : Prop where
  start : next.start = state.offset
  looksAhead : state.advance.InBounds source
  forward : state.offset < next.offset
  within : next.offset ≤ source.utf8ByteSize
  boundary : String.Pos.Raw.IsValid source ⟨next.offset⟩
  reads : ∃ text, state.rest = text ++ next.rest ∧
    Span.slice? ⟨state.offset, next.offset⟩ source = some (String.ofList text) ∧
    ∃! effect : Effect, effect.Happens text state next

theorem LiesIn.progress {state : ScanState} {source : String}
    {before covered : List Char} (lies : state.LiesIn source before covered)
    (more : state.rest ≠ []) : state.Progress state.iterate source := by
  obtain ⟨piece, behind, stands, restEq⟩ := Piece.exists_piece_of_ne_nil more
  have reached := lies.iterate stands restEq
  have taken := iterate_of_standsBefore stands restEq
  have startEq : state.iterate.start = state.offset := by rw [taken]
  obtain ⟨passed, advanced⟩ := lies.advance
  refine ⟨startEq, advanced.inBounds, ?_, reached.inBounds.within,
    reached.inBounds.boundary, piece.text, ?_, ?_, ?_⟩
  · rw [taken]
    exact state.cursor.position.offset_lt_after piece
  · rw [restEq, taken]
    rfl
  · rw [← startEq]
    exact reached.slice?_covered
  · obtain ⟨effect, happens⟩ := exists_effect stands restEq
    exact ⟨effect, happens, fun other otherHappens => otherHappens.unique happens⟩

/-! ## The whole loop -/

/-- A loop that stops after a number of turns, and not before. -/
structure StopsAfter (state : ScanState) (turns : Nat) : Prop where
  stops : (iterate^[turns] state).cursor.atEnd = true
  goesOn : ∀ fewer < turns, (iterate^[fewer] state).cursor.atEnd = false

theorem length_cut_le (text : List Char) :
    (Piece.cut text).length ≤ text.length := by
  induction text using Piece.cutInduction with
  | nil => simp
  | piece piece rest stands ih =>
      have positive := List.length_pos_iff.mpr piece.text_ne_nil
      rw [Piece.cut_text_append stands, List.length_cons, List.length_append]
      omega

theorem stopsAfter_zero {state : ScanState} (nothing : state.rest = []) :
    state.StopsAfter 0 := by
  refine ⟨?_, fun fewer less => absurd less (Nat.not_lt_zero fewer)⟩
  exact List.isEmpty_iff.mpr nothing

theorem StopsAfter.succ {state : ScanState} {turns : Nat}
    (later : state.iterate.StopsAfter turns) (more : state.rest ≠ []) :
    state.StopsAfter (turns + 1) := by
  refine ⟨later.stops, ?_⟩
  intro fewer less
  cases fewer with
  | zero => exact state.atEnd_eq_false_iff.mpr more
  | succ fewer => exact later.goesOn fewer (Nat.lt_of_succ_lt_succ less)

theorem finish_of_rest_eq_nil {state : ScanState} (nothing : state.rest = []) :
    state.finish = (state.tokens ++ state.cursor.scan.tokens,
      state.log.recordAll state.cursor.scan.diagnostics) := by
  have empty : state.cursor.rest = [] := nothing
  rw [Cursor.scan, empty, Scan.tokens_fromPosition, Scan.fromPosition,
    Piece.cut_nil]
  rfl

/-- After a turn, the scan of what remains goes on where the scan before stood. -/
theorem scan_iterate {state : ScanState} (more : state.rest ≠ []) :
    state.iterate.tokens ++ state.iterate.cursor.scan.tokens =
        state.tokens ++ state.cursor.scan.tokens ∧
      state.iterate.log.recordAll state.iterate.cursor.scan.diagnostics =
        state.log.recordAll state.cursor.scan.diagnostics := by
  obtain ⟨piece, behind, stands, restEq⟩ := Piece.exists_piece_of_ne_nil more
  have ahead : state.cursor.rest = piece.text ++ behind := restEq
  rw [iterate_of_standsBefore stands restEq, Cursor.scan, Cursor.scan, ahead,
    Scan.tokens_fromPosition, Scan.tokens_fromPosition, Scan.fromPosition,
    Scan.fromPosition, Scan.ofPieces_eq, Scan.ofPieces_eq,
    Piece.cut_text_append stands, PlacedPiece.tokensFrom_cons,
    PlacedPiece.diagnosticsFrom_cons, DiagnosticLog.recordAll_append]
  simp [Position.afterAll]

/-- The loop takes one turn for each piece that remains, and comes to the results of
the scan from its cursor. -/
theorem loop_eq_scan (state : ScanState) :
    state.StopsAfter (Piece.cut state.rest).length ∧
      (iterate^[(Piece.cut state.rest).length] state).finish =
        (state.tokens ++ state.cursor.scan.tokens,
          state.log.recordAll state.cursor.scan.diagnostics) := by
  generalize restEq : state.rest = text
  induction text using Piece.cutInduction generalizing state with
  | nil =>
      rw [Piece.cut_nil]
      exact ⟨stopsAfter_zero restEq, finish_of_rest_eq_nil restEq⟩
  | piece piece behind stands ih =>
      have more : state.rest ≠ [] := by simp [restEq, piece.text_ne_nil]
      have restAfter : state.iterate.rest = behind := by
        rw [iterate_of_standsBefore stands restEq]
        rfl
      obtain ⟨stops, results⟩ := ih state.iterate restAfter
      obtain ⟨tokens, log⟩ := scan_iterate more
      rw [Piece.cut_text_append stands, List.length_cons]
      refine ⟨stops.succ more, ?_⟩
      rw [Function.iterate_succ_apply, results, tokens, log]

/-- Wherever steps of the cursor and turns of the loop have led, the scan takes only
what its source has.  As long as something remains, the next turn moves on to the end
of a character and does exactly one of the four things; so there are at most as many
turns as characters, and what they come to is the result of the scan. -/
theorem reachable_progress {source : String} {state : ScanState}
    (reachable : Reachable source state) :
    state.InBounds source ∧
    (state.offset < source.utf8ByteSize →
      state.Progress state.iterate source) ∧
    ∃ turns ≤ state.rest.length, state.StopsAfter turns ∧
      (iterate^[turns] state).finish =
        (state.tokens ++ state.cursor.scan.tokens,
          state.log.recordAll state.cursor.scan.diagnostics) := by
  obtain ⟨before, covered, lies⟩ := reachable.exists_liesIn
  refine ⟨lies.inBounds, ?_, _, length_cut_le state.rest, loop_eq_scan state⟩
  intro more
  apply lies.progress
  intro nothing
  have bytes := lies.byteSize
  rw [nothing, TextBytes.byteLength_nil] at bytes
  omega

/-- A turn reads both characters of a comparison behind a slash that a step of the
cursor has passed, and the next one reports a character of two bytes. -/
theorem reachable_progress_behind_comparison :
    let source := "/!=é\n"
    let state := (ofSource source (.onSink .unlimited)).advance.iterate
    Reachable source state ∧ state.offset < source.utf8ByteSize ∧
      state.InBounds source ∧ state.Progress state.iterate source := by
  intro source state
  have reachable : Reachable source state :=
    .iterate (.advance (.start _)) (by decide)
  have more : state.offset < source.utf8ByteSize := by decide
  obtain ⟨inBounds, progress, -⟩ := reachable_progress reachable
  exact ⟨reachable, more, inBounds, progress more⟩

end ScanState
end Lox
