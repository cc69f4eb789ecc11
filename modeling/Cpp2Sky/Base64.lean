import Cpp2Sky.Outcome

/-! source/utils/base64.h, one character at a time as the source goes. -/

namespace Cpp2Sky.Base64

def charTable : List Char := [
    'A', 'B', 'C', 'D', 'E', 'F', 'G', 'H', 'I', 'J', 'K', 'L', 'M',
    'N', 'O', 'P', 'Q', 'R', 'S', 'T', 'U', 'V', 'W', 'X', 'Y', 'Z',
    'a', 'b', 'c', 'd', 'e', 'f', 'g', 'h', 'i', 'j', 'k', 'l', 'm',
    'n', 'o', 'p', 'q', 'r', 's', 't', 'u', 'v', 'w', 'x', 'y', 'z',
    '0', '1', '2', '3', '4', '5', '6', '7', '8', '9', '+', '/']

def reverseLookupTable : List UInt8 := [
    64, 64, 64, 64, 64, 64, 64, 64, 64, 64, 64, 64, 64, 64, 64, 64, 64, 64, 64, 64, 64, 64, 64, 64,
    64, 64, 64, 64, 64, 64, 64, 64, 64, 64, 64, 64, 64, 64, 64, 64, 64, 64, 64, 62, 64, 64, 64, 63,
    52, 53, 54, 55, 56, 57, 58, 59, 60, 61, 64, 64, 64, 64, 64, 64, 64, 0, 1, 2, 3, 4, 5, 6,
    7, 8, 9, 10, 11, 12, 13, 14, 15, 16, 17, 18, 19, 20, 21, 22, 23, 24, 25, 64, 64, 64, 64, 64,
    64, 26, 27, 28, 29, 30, 31, 32, 33, 34, 35, 36, 37, 38, 39, 40, 41, 42, 43, 44, 45, 46, 47, 48,
    49, 50, 51, 64, 64, 64, 64, 64, 64, 64, 64, 64, 64, 64, 64, 64, 64, 64, 64, 64, 64, 64, 64, 64,
    64, 64, 64, 64, 64, 64, 64, 64, 64, 64, 64, 64, 64, 64, 64, 64, 64, 64, 64, 64, 64, 64, 64, 64,
    64, 64, 64, 64, 64, 64, 64, 64, 64, 64, 64, 64, 64, 64, 64, 64, 64, 64, 64, 64, 64, 64, 64, 64,
    64, 64, 64, 64, 64, 64, 64, 64, 64, 64, 64, 64, 64, 64, 64, 64, 64, 64, 64, 64, 64, 64, 64, 64,
    64, 64, 64, 64, 64, 64, 64, 64, 64, 64, 64, 64, 64, 64, 64, 64, 64, 64, 64, 64, 64, 64, 64, 64,
    64, 64, 64, 64, 64, 64, 64, 64, 64, 64, 64, 64, 64, 64, 64, 64]

/-- `char_table[index]`, where the table ends in a NUL. -/
def tableChar (index : UInt8) : UInt8 := (charTable.getD index.toNat (Char.ofNat 0)).toUInt8

/-- `reverse_lookup_table[cur_char]`: the table has an entry for every byte. -/
def reverseLookup (curChar : UInt8) : UInt8 := reverseLookupTable.getD curChar.toNat 64

def pad : UInt8 := '='.toUInt8

/-- The next `next_c`, and `ret` with the characters pushed. -/
def encodeBase (curChar : UInt8) (pos : Nat) (nextC : UInt8) (ret : Bytes) : UInt8 × Bytes :=
  match pos % 3 with
  | 0 => ((curChar &&& 0x03) <<< 4, ret ++ [tableChar (curChar >>> 2)])
  | 1 => ((curChar &&& 0x0f) <<< 2, ret ++ [tableChar (nextC ||| curChar >>> 4)])
  | _ => (0, ret ++ [tableChar (nextC ||| curChar >>> 6), tableChar (curChar &&& 0x3f)])

def encodeLast (pos : Nat) (lastChar : UInt8) (ret : Bytes) (addPadding : Bool) : Bytes :=
  match pos % 3 with
  | 1 => ret ++ [tableChar lastChar] ++ if addPadding then [pad, pad] else []
  | 2 => ret ++ [tableChar lastChar] ++ if addPadding then [pad] else []
  | _ => ret

/-- The loop of `encode` over what is left of the input. -/
def encodeLoop (addPadding : Bool) : Bytes → Nat → UInt8 → Bytes → Bytes
  | [], pos, nextC, ret => encodeLast pos nextC ret addPadding
  | curChar :: rest, pos, nextC, ret =>
    let (nextC, ret) := encodeBase curChar pos nextC ret
    encodeLoop addPadding rest (pos + 1) nextC ret

def encode (input : Bytes) (addPadding : Bool := true) : Bytes := encodeLoop addPadding input 0 0 []

def orBack (ret : Bytes) (bits : UInt8) : Outcome Bytes :=
  match ret.getLast? with
  | none => .error .empty
  | some last => .ok (ret.dropLast ++ [last ||| bits])

/-- `none` where the source returns false. -/
def decodeBase (curChar : UInt8) (pos : Nat) (ret : Bytes) : Outcome (Option Bytes) :=
  let c := reverseLookup curChar
  if c = 64 then .ok none
  else match pos % 4 with
    | 0 => .ok (some (ret ++ [c <<< 2]))
    | 1 => do
      let ret ← orBack ret (c >>> 4)
      return some (ret ++ [c <<< 4])
    | 2 => do
      let ret ← orBack ret (c >>> 2)
      return some (ret ++ [c <<< 6])
    | _ => do
      let ret ← orBack ret c
      return some ret

def decodeLast (curChar : UInt8) (pos : Nat) (ret : Bytes) : Outcome (Option Bytes) :=
  let c := reverseLookup curChar
  if c = 64 then .ok none
  else match pos % 4 with
    | 0 => .ok none
    | 1 => do
      let ret ← orBack ret (c >>> 4)
      return if c &&& 0b1111 = 0 then some ret else none
    | 2 => do
      let ret ← orBack ret (c >>> 2)
      return if c &&& 0b11 = 0 then some ret else none
    | _ => do
      let ret ← orBack ret c
      return some ret

/-- The loop of `decodeWithoutPadding` from position `i`, given the input from
there, and the call of `decodeLast` behind it. -/
def decodeLoop (last : Nat) : Bytes → Nat → Bytes → Outcome (Option Bytes)
  | [], _, _ => .error .outOfBounds
  | curChar :: rest, i, ret =>
    if i < last then do
      match ← decodeBase curChar i ret with
      | none => return none
      | some ret => decodeLoop last rest (i + 1) ret
    else decodeLast curChar last ret

/-- The length without the at most two padding characters at the end. -/
def unpaddedLength (input : Bytes) : Nat :=
  let n := input.length
  if input[n - 1]? = some pad then
    let n := n - 1
    if 0 < n ∧ input[n - 1]? = some pad then n - 1 else n
  else n

/-- `n - 1` in unsigned 64-bit arithmetic. -/
def lastPosition (n : Nat) : Nat := if n = 0 then UInt64.size - 1 else n - 1

def maxLength (n : Nat) : Nat :=
  (n + 3) / 4 * 3 - (if n % 4 = 3 then 1 else 0) - (if n % 4 = 2 then 2 else 0)

def decodeWithoutPadding (input : Bytes) : Outcome Bytes :=
  if input = [] then .ok []
  else do
    let n := unpaddedLength input
    match ← decodeLoop (lastPosition n) input 0 [] with
    | none => return []
    | some ret => if ret.length = maxLength n then return ret else throw .assertion

/-! The same decoder with its positions, where each read of the input is checked. -/

namespace Indexed

def charAt (input : Bytes) (index : Nat) : Outcome UInt8 :=
  match input[index]? with
  | none => .error .outOfBounds
  | some curChar => .ok curChar

/-- `n` after the two tests for padding, for an input that is not empty. -/
def unpaddedLength (input : Bytes) : Outcome Nat := do
  let n := input.length
  if (← charAt input (n - 1)) = pad then
    let n := n - 1
    if 0 < n then
      if (← charAt input (n - 1)) = pad then return n - 1 else return n
    else return n
  else return n

/-- The loop from position `i`, and the call of `decodeLast` behind it. -/
def decodeLoop (input : Bytes) (last i : Nat) (ret : Bytes) : Outcome (Option Bytes) :=
  if i < last then do
    match ← decodeBase (← charAt input i) i ret with
    | none => return none
    | some ret => decodeLoop input last (i + 1) ret
  else do decodeLast (← charAt input last) last ret
termination_by last - i

def decodeWithoutPadding (input : Bytes) : Outcome Bytes :=
  if input = [] then .ok []
  else do
    let n ← unpaddedLength input
    match ← decodeLoop input (lastPosition n) 0 [] with
    | none => return []
    | some ret => if ret.length = maxLength n then return ret else throw .assertion

end Indexed

end Cpp2Sky.Base64
