import Lox.Scan

/-!
# Walking a source by hand

A cursor stands between two characters of a source.  It can look at the next
one, step behind it, and hand what remains over to a scan.  Steps do not count
lines: wherever the cursor has been taken, a scan from it starts on the line the
cursor began with, while its spans refer to the whole source.
-/

namespace Lox

/-- A place in a source, and the text that remains from there on. -/
structure Cursor where
  position : Position
  rest : List Char

namespace Cursor

def ofSource (source : String) : Cursor :=
  ⟨.origin, source.toList⟩

def atEnd (cursor : Cursor) : Bool :=
  cursor.rest.isEmpty

/-- The line that a scan from the cursor would start on. -/
def line (cursor : Cursor) : Nat :=
  cursor.position.line

def remainder (cursor : Cursor) : String :=
  String.ofList cursor.rest

def bytesLeft (cursor : Cursor) : Nat :=
  TextBytes.byteLength cursor.rest

def peek (cursor : Cursor) : Option Char :=
  cursor.rest.head?

/-- Step behind the next character and return it.  At the end of the source the
cursor stays where it is. -/
def advance (cursor : Cursor) : Option Char × Cursor :=
  match cursor.rest with
  | [] => (none, cursor)
  | next :: rest =>
      (some next,
        { position :=
            { cursor.position with
              offset := cursor.position.offset + next.utf8Size }
          rest })

/-- Take a number of steps, and return what each of them passed. -/
def advanceBy : Cursor → Nat → List (Option Char) × Cursor
  | cursor, 0 => ([], cursor)
  | cursor, steps + 1 =>
      let (passed, moved) := cursor.advance
      let (others, reached) := advanceBy moved steps
      (passed :: others, reached)

def scan (cursor : Cursor) : Scan :=
  .fromPosition cursor.position cursor.rest

/-- A question to a cursor, or an order to move it. -/
inductive Call
  | advance
  | advanceBy (steps : Nat)
  | peek
  | atEnd
  | line
  | remainder
  deriving DecidableEq

inductive Reading
  | character (next : Option Char)
  | characters (passed : List (Option Char))
  | truth (value : Bool)
  | count (value : Nat)
  | text (value : String)
  deriving DecidableEq

def perform (cursor : Cursor) : Call → Reading × Cursor
  | .advance => cursor.advance.map .character id
  | .advanceBy steps => (cursor.advanceBy steps).map .characters id
  | .peek => (.character cursor.peek, cursor)
  | .atEnd => (.truth cursor.atEnd, cursor)
  | .line => (.count cursor.line, cursor)
  | .remainder => (.text cursor.remainder, cursor)

/-- Carry out calls in order.  Each is listed with its answer and with the
cursor as it stands after the call. -/
def performAll : Cursor → List Call → List (Reading × Cursor)
  | _, [] => []
  | cursor, call :: calls =>
      let result := cursor.perform call
      result :: performAll result.2 calls

def afterAll (cursor : Cursor) (calls : List Call) : Cursor :=
  calls.foldl (fun reached call => (reached.perform call).2) cursor

end Cursor
end Lox
