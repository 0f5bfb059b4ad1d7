import Lox.Proofs.Blanking
import Lox.Proofs.LineNumbers

/-!
# Recovery from unexpected characters

A source is mended by writing spaces over every character that a scan reports, as
many as it has bytes.  This file proves that the mended source has exactly the
tokens of the source and nothing to report: unexpected characters have no influence
on any token.
-/

namespace Lox

namespace Occurrence

/-- What stands in the place of a character when reported ones are mended. -/
def mended (occurrence : Occurrence) : List Char :=
  if occurrence.isReported then
    (Gap.ofBytes occurrence.character.utf8Size).text
  else
    [occurrence.character]

/-- A text that follows another one, with spaces over all that is reported. -/
def mendBehind (before text : List Char) : List Char :=
  (allBehind before text).flatMap mended

def mend (text : List Char) : List Char :=
  mendBehind [] text

end Occurrence

namespace Blanking

/-- Stray characters are written over, and nothing else. -/
def strays : Blanking where
  hides
    | .stray _ => true
    | _ => false
  keepsSymbols _ := rfl
  keepsNewlines := rfl

theorem textOf_strays_of_ne {piece : Piece}
    (noStray : ∀ character, piece ≠ .stray character) :
    strays.textOf piece = piece.text := by
  cases piece with
  | stray character => exact absurd rfl (noStray character)
  | _ => rfl

theorem diagnostic?_strays (placed : PlacedPiece) :
    strays.diagnostic? placed = none := by
  obtain ⟨piece, position⟩ := placed
  cases piece <;> rfl

end Blanking

namespace Occurrence

theorem flatMap_character_allBehind (before text : List Char) :
    (allBehind before text).flatMap (fun occurrence => [occurrence.character]) =
      text := by
  induction text generalizing before with
  | nil => rfl
  | cons character text ih =>
      rw [allBehind, List.flatMap_cons, ih]
      rfl

/-- Of the characters of a piece, only a stray one is mended. -/
theorem mendBehind_text_append {before rest : List Char} {piece : Piece}
    (stands : piece.StandsBefore rest)
    (apart : Piece.Apart before (piece.text ++ rest)) :
    mendBehind before (piece.text ++ rest) =
      Blanking.strays.textOf piece ++ mendBehind (before ++ piece.text) rest := by
  rw [mendBehind, allBehind_append, List.flatMap_append, List.flatMap_map,
    ← mendBehind, List.append_cancel_right_eq]
  rcases piece.exists_stray_or_ne with ⟨character, rfl⟩ | noStray
  · have reported : isReported ⟨before, character, rest⟩ = true :=
      isReported_of_stray stands.wellFormed apart
    simp [Piece.text, allBehind, mended, reported, Blanking.textOf,
      Blanking.strays, Piece.byteLength]
  · rw [Blanking.textOf_strays_of_ne noStray]
    refine Eq.trans (List.flatMap_congr ?_)
      (flatMap_character_allBehind before piece.text)
    intro occurrence member
    simp [mended, not_isReported_of_mem_piece stands.wellFormed noStray member]

/-- What a scan reports are the stray characters that are read. -/
theorem mendBehind_eq_apply (before text : List Char)
    (apart : Piece.Apart before text) :
    mendBehind before text = Blanking.strays.apply text := by
  refine Piece.apartInduction ?_ ?_ before text apart
  · intro before
    simp [mendBehind, allBehind]
  · intro before piece rest stands apart ih
    rw [mendBehind_text_append stands apart, ih,
      Blanking.strays.apply_text_append stands]

theorem mend_eq_apply (text : List Char) :
    mend text = Blanking.strays.apply text :=
  mendBehind_eq_apply [] text (by simp [Piece.Apart])

end Occurrence

namespace DiagnosticLog

theorem ofSource_mend (source : String) :
    Scan.ofSource (String.ofList (Occurrence.mend source.toList)) =
      { Scan.ofSource source with diagnostics := [] } := by
  rw [Occurrence.mend_eq_apply, Blanking.ofSource_apply]
  simp [Blanking.diagnostic?_strays]

/-- Writing spaces over the characters that a scan reports leaves all of its tokens
and nothing to report.  The characters are those that the diagnostics name, one for
one. -/
theorem scan_mend (log : DiagnosticLog) (sink : Sink) (source : String) :
    log.scan (String.ofList (Occurrence.mend source.toList)) =
        ((log.scan source).1, log) ∧
      ((onSink sink).scan
        (String.ofList (Occurrence.mend source.toList))).2.flagged = false ∧
      (onSink sink).recorded
        (String.ofList (Occurrence.mend source.toList)) = [] ∧
      (onSink sink).recorded source =
        ((Occurrence.all source.toList).filter Occurrence.isReported).map
          Occurrence.diagnostic := by
  have unharmed (any : DiagnosticLog) :
      any.scan (String.ofList (Occurrence.mend source.toList)) =
        ((any.scan source).1, any) := by
    rw [scan, ofSource_mend]
    rfl
  refine ⟨unharmed log, ?_, ?_, ?_⟩
  · rw [unharmed]
    rfl
  · rw [recorded, unharmed]
    rfl
  · rw [recorded_onSink]
    exact (Occurrence.reports_eq_diagnosticsFrom [] source.toList
      (by simp [Piece.Apart])).symm

/-- Slashes that a stray character keeps apart do not meet when it is mended. -/
example : Occurrence.mend ['/', 'é', '/'] = ['/', ' ', ' ', '/'] := by
  decide

end DiagnosticLog
end Lox
