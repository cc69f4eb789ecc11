import Cpp2Sky.Outcome

/-! source/utils/random_generator.cc. What `randomBuffer` puts in the buffer each
time is a parameter, and a character of `uuid` that is not written yet is `none`. -/

namespace Cpp2Sky.RandomGenerator

def bufferSize : Nat := 2048

def uuidLength : Nat := 36

def hex : List Char := ['0', '1', '2', '3', '4', '5', '6', '7', '8', '9', 'a', 'b', 'c', 'd', 'e', 'f']

/-- `hex[digit]`, where the text ends in a NUL. -/
def hexChar (digit : UInt8) : UInt8 := (hex.getD digit.toNat (Char.ofNat 0)).toUInt8

def dash : UInt8 := '-'.toUInt8

structure Buffer where
  bytes : Bytes
  size : bytes.length = bufferSize

def Buffer.charAt (buffered : Buffer) (index : Nat) : Outcome UInt8 :=
  match buffered.bytes[index]? with
  | none => .error .outOfBounds
  | some char => .ok char

def Buffer.put (buffered : Buffer) (index : Nat) (char : UInt8) : Outcome Buffer :=
  if index < bufferSize then
    .ok { bytes := buffered.bytes.set index char, size := List.length_set.trans buffered.size }
  else .error .outOfBounds

abbrev Text := List (Option UInt8)

def putText (uuid : Text) (index : Nat) (char : UInt8) : Outcome Text :=
  if index < uuid.length then .ok (uuid.set index (some char)) else .error .outOfBounds

/-- The variables of a thread, and how often `randomBuffer` was called. -/
structure State where
  buffered : Buffer
  bufferedIdx : Nat
  refills : Nat

def initial : State :=
  { buffered := { bytes := List.replicate bufferSize 0, size := List.length_replicate }
    bufferedIdx := bufferSize
    refills := 0 }

/-- A loop that writes the digits of the bytes from `first` to before `last`, each
`offset` places behind those of the bytes before it. -/
def writeDigits (buffered : Buffer) (rand first last offset : Nat) (uuid : Text) : Outcome Text :=
  (List.range' first (last - first)).foldlM (fun uuid i => do
    let d ← buffered.charAt (rand + i)
    let uuid ← putText uuid (2 * i + offset) (hexChar (d >>> 4))
    putText uuid (2 * i + offset + 1) (hexChar (d &&& 0x0f))) uuid

section Generator
variable (fillings : Nat → Buffer)

def randomBuffer (state : State) : State :=
  { state with buffered := fillings state.refills, refills := state.refills + 1 }

/-- Whether the next call of `uuid` begins with a call of `randomBuffer`. -/
def State.UsedUp (state : State) : Prop := bufferSize < state.bufferedIdx + 16

instance (state : State) : Decidable state.UsedUp := inferInstanceAs (Decidable (_ < _))

def uuid (state : State) : Outcome (Text × State) := do
  let state := if state.UsedUp then { randomBuffer fillings state with bufferedIdx := 0 } else state
  if ¬ state.bufferedIdx + 16 ≤ bufferSize then throw .assertion
  let rand := state.bufferedIdx
  let bufferedIdx := state.bufferedIdx + 16
  let buffered ← state.buffered.put (rand + 6) ((← state.buffered.charAt (rand + 6)) &&& 0x0f ||| 0x40)
  let buffered ← buffered.put (rand + 8) ((← buffered.charAt (rand + 8)) &&& 0x3f ||| 0x80)
  let uuid := List.replicate uuidLength none
  let uuid ← writeDigits buffered rand 0 4 0 uuid
  let uuid ← putText uuid 8 dash
  let uuid ← writeDigits buffered rand 4 6 1 uuid
  let uuid ← putText uuid 13 dash
  let uuid ← writeDigits buffered rand 6 8 2 uuid
  let uuid ← putText uuid 18 dash
  let uuid ← writeDigits buffered rand 8 10 3 uuid
  let uuid ← putText uuid 23 dash
  let uuid ← writeDigits buffered rand 10 16 4 uuid
  return (uuid, { state with buffered, bufferedIdx })

/-- The results of `count` calls on one thread. -/
def uuids : Nat → State → Outcome (List Text × State)
  | 0, state => .ok ([], state)
  | count + 1, state => do
    let (text, state) ← uuid fillings state
    let (texts, state) ← uuids count state
    return (text :: texts, state)

end Generator

end Cpp2Sky.RandomGenerator
