import Cpp2Sky.Outcome

/-! `absl::string_view`: a place and a length in a larger buffer. A text made of a
view is read byte by byte, and the places that were read are kept beside it. -/

namespace Cpp2Sky

structure StringView where
  buffer : Bytes
  position : Nat
  length : Nat
  inside : position + length ≤ buffer.length

structure Copied where
  text : Bytes
  places : List Nat
  deriving DecidableEq

/-- As many bytes as asked for, from some place on. -/
def copyBytes : Bytes → Nat → Nat → Outcome Copied
  | _, _, 0 => return { text := [], places := [] }
  | [], _, _ + 1 => throw .outOfBounds
  | byte :: rest, place, count + 1 => do
    let copied ← copyBytes rest (place + 1) count
    return { text := byte :: copied.text, places := place :: copied.places }

/-- The bytes before the first NUL, which is read as well. -/
def copyCString : Bytes → Nat → Outcome Copied
  | [], _ => throw .outOfBounds
  | byte :: rest, place =>
    if byte = 0 then return { text := [], places := [place] }
    else do
      let copied ← copyCString rest (place + 1)
      return { text := byte :: copied.text, places := place :: copied.places }

namespace StringView

def chars (view : StringView) : Bytes := (view.buffer.drop view.position).take view.length

/-- `std::string(view)`, or its data together with its length. -/
def toStdString (view : StringView) : Outcome Copied :=
  copyBytes (view.buffer.drop view.position) view.position view.length

/-- `view.data()` where a text is expected: the length of the view is lost. -/
def data (view : StringView) : Outcome Copied := copyCString (view.buffer.drop view.position) view.position

/-- All of a terminated string. -/
def literal (text : Bytes) : StringView where
  buffer := text ++ [0]
  position := 0
  length := text.length
  inside := by simp

end StringView

end Cpp2Sky
