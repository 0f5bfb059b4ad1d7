/-!
# Sinks for written text

A sink takes text as UTF-8 bytes.  It may have room for a limited number of
them: then it keeps bytes as long as there is room, even if that cuts a
character, and loses all later ones.  Nobody is told whether a text was kept.
-/

namespace Lox

/-- The bytes a sink holds, and how many more it has room for, if that is
limited. -/
structure Sink where
  room : Option Nat
  held : ByteArray

namespace Sink

def unlimited : Sink := ⟨none, .empty⟩

/-- An empty sink that keeps a number of bytes. -/
def limited (room : Nat) : Sink := ⟨some room, .empty⟩

def bytes (sink : Sink) : List UInt8 :=
  sink.held.data.toList

def encode (text : String) : List UInt8 :=
  text.toUTF8.data.toList

/-- Write a text: keep as many of its bytes as there is room for. -/
def write (sink : Sink) (text : String) : Sink :=
  let encoded := text.toUTF8
  match sink.room with
  | none => { sink with held := sink.held ++ encoded }
  | some room =>
      { room := some (room - encoded.size)
        held := sink.held ++ encoded.extract 0 room }

/-- The bytes that a sink holds beyond a number of first ones. -/
def writtenSince (sink : Sink) (size : Nat) : ByteArray :=
  sink.held.extract size sink.held.size

/-- Bytes as a text, unless they are cut inside a character. -/
def decode? (encoded : ByteArray) : Option String :=
  String.fromUTF8? encoded

@[simp]
theorem bytes_unlimited : unlimited.bytes = [] := rfl

@[simp]
theorem bytes_limited (room : Nat) : (limited room).bytes = [] := rfl

@[simp]
theorem encode_append (first second : String) :
    encode (first ++ second) = encode first ++ encode second := by
  simp [encode]

theorem bytes_write_of_unlimited {sink : Sink} (all : sink.room = none)
    (text : String) :
    (sink.write text).bytes = sink.bytes ++ encode text ∧
      (sink.write text).room = none := by
  simp [write, bytes, encode, all]

/-- With a limit the first bytes are kept, up to the room there is. -/
theorem bytes_write_of_limited {sink : Sink} {room : Nat}
    (roomEq : sink.room = some room) (text : String) :
    (sink.write text).bytes = sink.bytes ++ (encode text).take room ∧
      (sink.write text).room = some (room - (encode text).length) := by
  simp [write, bytes, encode, roomEq]

end Sink
end Lox
