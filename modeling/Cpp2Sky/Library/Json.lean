import Mathlib.Data.List.Forall2
import Mathlib.Data.Prod.Basic

/-! JSON as it is read from bytes, and texts that were put between quotes as they are.
Such a text is read back exactly if it is plain. -/

namespace Cpp2Sky.Json

inductive Value where
  | null
  | bool (value : Bool)
  /-- A number as it is written. -/
  | number (digits : List UInt8)
  | string (text : List UInt8)
  | array (elements : List Value)
  | object (members : List (List UInt8 × Value))

def quote : UInt8 := 0x22
def backslash : UInt8 := 0x5C
def space : UInt8 := 0x20
def comma : UInt8 := 0x2C
def colon : UInt8 := 0x3A
def openBracket : UInt8 := 0x5B
def closeBracket : UInt8 := 0x5D
def openBrace : UInt8 := 0x7B
def closeBrace : UInt8 := 0x7D

def blank (char : UInt8) : Bool := char ∈ [space, 0x09, 0x0A, 0x0D]

def skipSpace (input : List UInt8) : List UInt8 := input.dropWhile blank

def expect (char : UInt8) (input : List UInt8) : Option (List UInt8) :=
  match skipSpace input with
  | [] => none
  | first :: rest => if first = char then some rest else none

def hexValue (char : UInt8) : Option Nat :=
  if '0'.toUInt8 ≤ char ∧ char ≤ '9'.toUInt8 then some (char.toNat - '0'.toNat)
  else if 'a'.toUInt8 ≤ char ∧ char ≤ 'f'.toUInt8 then some (char.toNat - 'a'.toNat + 10)
  else if 'A'.toUInt8 ≤ char ∧ char ≤ 'F'.toUInt8 then some (char.toNat - 'A'.toNat + 10)
  else none

def codeUnit : List UInt8 → Option (Nat × List UInt8)
  | a :: b :: c :: d :: rest => do
    let unit := ((← hexValue a) * 16 + (← hexValue b)) * 256 + ((← hexValue c) * 16 + (← hexValue d))
    return (unit, rest)
  | _ => none

/-- A code unit with its own backslash. -/
def escapedUnit : List UInt8 → Option (Nat × List UInt8)
  | slash :: letter :: rest => if slash = backslash ∧ letter = 'u'.toUInt8 then codeUnit rest else none
  | _ => none

/-- The character of two surrogates. -/
def surrogatePair (high low : Nat) : Char := Char.ofNat (0x10000 + (high - 0xD800) * 0x400 + (low - 0xDC00))

/-- The bytes of a code unit, or of the pair of surrogates that it begins. -/
def unicode (input : List UInt8) : Option (List UInt8 × List UInt8) := do
  let (unit, rest) ← codeUnit input
  if unit < 0xD800 ∨ 0xE000 ≤ unit then return (String.utf8EncodeChar (Char.ofNat unit), rest)
  else if 0xDC00 ≤ unit then none
  else do
    let (low, rest) ← escapedUnit rest
    if low < 0xDC00 ∨ 0xE000 ≤ low then none
    else return (String.utf8EncodeChar (surrogatePair unit low), rest)

def simpleEscapes : List (UInt8 × UInt8) :=
  [(quote, quote), (backslash, backslash), ('/'.toUInt8, '/'.toUInt8), ('b'.toUInt8, 0x08), ('f'.toUInt8, 0x0C),
    ('n'.toUInt8, 0x0A), ('r'.toUInt8, 0x0D), ('t'.toUInt8, 0x09)]

/-- What an escape stands for, its backslash being read already. -/
def escape : List UInt8 → Option (List UInt8 × List UInt8)
  | [] => none
  | char :: rest =>
    match simpleEscapes.lookup char with
    | some byte => some ([byte], rest)
    | none => if char = 'u'.toUInt8 then unicode rest else none

/-- Up to the closing quote, which is dropped. -/
def stringBody : Nat → List UInt8 → Option (List UInt8 × List UInt8)
  | 0, _ => none
  | _ + 1, [] => none
  | fuel + 1, char :: rest =>
    if char = quote then some ([], rest)
    else if char = backslash then do
      let (bytes, rest) ← escape rest
      let (text, rest) ← stringBody fuel rest
      return (bytes ++ text, rest)
    else if char < space then none
    else do
      let (text, rest) ← stringBody fuel rest
      return (char :: text, rest)

/-- The opening quote is read already. -/
def string (input : List UInt8) : Option (List UInt8 × List UInt8) := do
  let (text, rest) ← stringBody input.length input
  if text.toByteArray.validateUTF8 then return (text, rest) else none

def digit (char : UInt8) : Bool := '0'.toUInt8 ≤ char ∧ char ≤ '9'.toUInt8

def digits : List UInt8 → Option (List UInt8)
  | [] => none
  | char :: rest => if digit char then some (rest.dropWhile digit) else none

def integer : List UInt8 → Option (List UInt8)
  | [] => none
  | char :: rest => if char = '0'.toUInt8 then some rest else digits (char :: rest)

def fraction : List UInt8 → Option (List UInt8)
  | [] => some []
  | char :: rest => if char = '.'.toUInt8 then digits rest else some (char :: rest)

def exponent : List UInt8 → Option (List UInt8)
  | [] => some []
  | char :: rest =>
    if char ≠ 'e'.toUInt8 ∧ char ≠ 'E'.toUInt8 then some (char :: rest)
    else
      match rest with
      | [] => none
      | sign :: rest => if sign = '+'.toUInt8 ∨ sign = '-'.toUInt8 then digits rest else digits (sign :: rest)

def number (input : List UInt8) : Option (Value × List UInt8) := do
  let unsigned := if input.head? = some '-'.toUInt8 then input.tail else input
  let rest ← exponent (← fraction (← integer unsigned))
  return (.number (input.take (input.length - rest.length)), rest)

def keyword (word : String) (value : Value) (input : List UInt8) : Option (Value × List UInt8) :=
  let chars := word.toList.map Char.toUInt8
  if chars.isPrefixOf input then some (value, input.drop chars.length) else none

/-- After an item: is there another one, or was it the last? -/
def separator (close : UInt8) (input : List UInt8) : Option (Bool × List UInt8) :=
  match skipSpace input with
  | [] => none
  | char :: rest =>
    if char = comma then some (true, rest)
    else if char = close then some (false, rest)
    else none

/-- An item and those behind it, up to the end. -/
def continued {α : Type} (close : UInt8) (others : List UInt8 → Option (List α × List UInt8)) (first : α)
    (input : List UInt8) : Option (List α × List UInt8) := do
  let (more, rest) ← separator close input
  if more then do
    let (items, rest) ← others rest
    return (first :: items, rest)
  else return ([first], rest)

mutual

def value : Nat → List UInt8 → Option (Value × List UInt8)
  | 0, _ => none
  | fuel + 1, input =>
    match skipSpace input with
    | [] => none
    | char :: rest =>
      if char = quote then do
        let (text, rest) ← string rest
        return (.string text, rest)
      else if char = openBracket then
        match expect closeBracket rest with
        | some rest => some (.array [], rest)
        | none => do
          let (items, rest) ← elements fuel rest
          return (.array items, rest)
      else if char = openBrace then
        match expect closeBrace rest with
        | some rest => some (.object [], rest)
        | none => do
          let (items, rest) ← members fuel rest
          return (.object items, rest)
      else if char = 't'.toUInt8 then keyword "true" (.bool true) (char :: rest)
      else if char = 'f'.toUInt8 then keyword "false" (.bool false) (char :: rest)
      else if char = 'n'.toUInt8 then keyword "null" .null (char :: rest)
      else number (char :: rest)

def elements : Nat → List UInt8 → Option (List Value × List UInt8)
  | 0, _ => none
  | fuel + 1, input => do
    let (first, rest) ← value fuel input
    continued closeBracket (elements fuel) first rest

def members : Nat → List UInt8 → Option (List (List UInt8 × Value) × List UInt8)
  | 0, _ => none
  | fuel + 1, input => do
    let rest ← expect quote input
    let (key, rest) ← string rest
    let rest ← expect colon rest
    let (first, rest) ← value fuel rest
    continued closeBrace (members fuel) (key, first) rest

end

/-- Each byte of the input starts at most two calls. -/
def parse (input : List UInt8) : Option Value := do
  let (parsed, rest) ← value (2 * input.length + 1) input
  if skipSpace rest = [] then return parsed else none

def Unescaped (byte : UInt8) : Prop := byte ≠ quote ∧ byte ≠ backslash ∧ space ≤ byte

/-- The texts that can stand between quotes as they are. -/
structure Plain (text : List UInt8) : Prop where
  unescaped : ∀ byte ∈ text, Unescaped byte
  encoded : text.toByteArray.IsValidUTF8

theorem hexValue_quote : hexValue quote = none := by decide

/-- A code unit is four digits, none of them a quote. -/
theorem codeUnit_used {input rest : List UInt8} {unit : Nat} (read : codeUnit input = some (unit, rest)) :
    ∃ used, input = used ++ rest ∧ used.length = 4 ∧ quote ∉ used := by
  match input, read with
  | a :: b :: c :: d :: tail, read =>
    simp only [codeUnit, Option.bind_eq_bind, Option.bind_eq_some_iff, Option.pure_def, Option.some.injEq,
      Prod.mk.injEq] at read
    obtain ⟨_, first, _, second, _, third, _, fourth, _, rfl⟩ := read
    refine ⟨[a, b, c, d], rfl, rfl, ?_⟩
    intro member
    have digit {char : UInt8} {value : Nat} (hex : hexValue char = some value) : quote ≠ char := by
      rintro rfl
      cases hexValue_quote.symm.trans hex
    simp only [List.mem_cons, List.not_mem_nil, or_false] at member
    rcases member with same | same | same | same
    · exact digit first same
    · exact digit second same
    · exact digit third same
    · exact digit fourth same

theorem utf8EncodeChar_short (char : Char) : (String.utf8EncodeChar char).length ≤ 4 := by
  rw [String.length_utf8EncodeChar]
  exact char.utf8Size_le_four

theorem escapedUnit_used {input rest : List UInt8} {unit : Nat} (read : escapedUnit input = some (unit, rest)) :
    ∃ used, input = used ++ rest ∧ quote ∉ used := by
  match input, read with
  | slash :: letter :: tail, read =>
    simp only [escapedUnit] at read
    split at read
    · rename_i mark
      obtain ⟨rfl, rfl⟩ := mark
      obtain ⟨used, rfl, _, free⟩ := codeUnit_used read
      refine ⟨backslash :: 'u'.toUInt8 :: used, rfl, ?_⟩
      simp only [List.mem_cons, not_or]
      exact ⟨by decide, by decide, free⟩
    · cases read

theorem unicode_used {input bytes rest : List UInt8} (read : unicode input = some (bytes, rest)) :
    ∃ used, input = used ++ rest ∧ bytes.length ≤ used.length ∧ quote ∉ used := by
  obtain ⟨⟨unit, after⟩, first, decoded⟩ := Option.bind_eq_some_iff.mp read
  obtain ⟨used, rfl, length, free⟩ := codeUnit_used first
  dsimp only at decoded
  split at decoded
  · cases decoded
    exact ⟨used, rfl, length ▸ utf8EncodeChar_short _, free⟩
  · split at decoded
    · cases decoded
    · obtain ⟨⟨low, after⟩, second, paired⟩ := Option.bind_eq_some_iff.mp decoded
      obtain ⟨others, rfl, free'⟩ := escapedUnit_used second
      dsimp only at paired
      split at paired
      · cases paired
      · obtain ⟨rfl, rfl⟩ := Prod.mk.inj (Option.some.inj paired)
        refine ⟨used ++ others, (List.append_assoc ..).symm, ?_, ?_⟩
        · rw [List.length_append, length]
          exact Nat.le_add_right_of_le (utf8EncodeChar_short _)
        · intro member
          rcases List.mem_append.mp member with inside | inside
          · exact free inside
          · exact free' inside

/-- No escape makes more bytes than it is written with, and a quote is in none but its own. -/
theorem escape_used {input bytes rest : List UInt8} (read : escape input = some (bytes, rest)) :
    ∃ used, input = used ++ rest ∧ bytes.length ≤ used.length ∧ (quote ∈ used → used = [quote] ∧ bytes = [quote]) := by
  match input, read with
  | char :: tail, read =>
    simp only [escape] at read
    split at read
    · rename_i byte found
      cases read
      refine ⟨[char], rfl, Nat.le_refl 1, ?_⟩
      intro member
      obtain rfl := List.mem_singleton.mp member
      obtain rfl : quote = byte := Option.some.inj found
      exact ⟨rfl, rfl⟩
    · split at read
      · rename_i letter
        obtain ⟨used, rfl, short, free⟩ := unicode_used read
        refine ⟨char :: used, rfl, Nat.le_succ_of_le short, ?_⟩
        intro member
        rcases List.mem_cons.mp member with same | inside
        · rw [letter] at same
          cases same
        · exact absurd inside free
      · cases read

/-- Read before a quote, an escape ends in front of it or is the escape of the quote itself. -/
theorem escape_before {text after bytes rest : List UInt8} (read : escape (text ++ quote :: after) = some (bytes, rest)) :
    (∃ used left, text = used ++ left ∧ rest = left ++ quote :: after ∧ bytes.length ≤ used.length) ∨
      text = [] ∧ bytes = [quote] ∧ rest = after := by
  obtain ⟨used, split, short, own⟩ := escape_used read
  rcases List.append_eq_append_iff.mp split with ⟨left, inside, behind⟩ | ⟨left, inside, behind⟩
  · cases left with
    | nil => exact .inl ⟨text, [], by simp, by simpa using behind.symm, by simpa [inside] using short⟩
    | cons char left =>
      obtain ⟨rfl, tail⟩ := List.cons.inj behind
      obtain ⟨alone, single⟩ := own (by simp [inside])
      have same := inside.symm.trans alone
      obtain ⟨rfl, rfl⟩ : text = [] ∧ left = [] := by
        cases text with
        | nil => exact ⟨rfl, (List.cons.inj same).2⟩
        | cons char text => simp at same
      exact .inr ⟨rfl, single, tail.symm⟩
  · exact .inl ⟨used, left, inside, behind, short⟩

theorem Unescaped.ordinary {byte : UInt8} (unescaped : Unescaped byte) (fuel : Nat) (rest : List UInt8) :
    stringBody (fuel + 1) (byte :: rest) = (stringBody fuel rest).map fun read => (byte :: read.1, read.2) := by
  obtain ⟨noQuote, noSlash, printable⟩ := unescaped
  simp only [stringBody, noQuote, noSlash, UInt8.not_lt.mpr printable, ite_false]
  cases stringBody fuel rest <;> rfl

theorem stringBody_quote (fuel : Nat) (rest : List UInt8) : stringBody (fuel + 1) (quote :: rest) = some ([], rest) := rfl

/-- A text without anything special is read as it is, once there is enough fuel. -/
theorem stringBody_unescaped {text : List UInt8} (unescaped : ∀ byte ∈ text, Unescaped byte) {fuel : Nat}
    (enough : text.length < fuel) (rest : List UInt8) :
    stringBody fuel (text ++ quote :: rest) = some (text, rest) := by
  induction text generalizing fuel with
  | nil =>
    obtain ⟨fuel, rfl⟩ := Nat.exists_eq_add_of_lt enough
    rw [List.nil_append, stringBody_quote]
  | cons byte text ih =>
    obtain ⟨first, others⟩ := List.forall_mem_cons.mp unescaped
    cases fuel with
    | zero => cases enough
    | succ fuel =>
      rw [List.cons_append, first.ordinary, ih others (Nat.lt_of_succ_lt_succ enough)]
      rfl

/-- With less fuel it is read so or not at all. -/
theorem stringBody_eq {text rest decoded remaining : List UInt8} (unescaped : ∀ byte ∈ text, Unescaped byte) {fuel : Nat}
    (read : stringBody fuel (text ++ quote :: rest) = some (decoded, remaining)) :
    decoded = text ∧ remaining = rest := by
  induction text generalizing fuel decoded with
  | nil =>
    cases fuel with
    | zero => cases read
    | succ fuel =>
      cases read
      exact ⟨rfl, rfl⟩
  | cons byte text ih =>
    obtain ⟨first, others⟩ := List.forall_mem_cons.mp unescaped
    cases fuel with
    | zero => cases read
    | succ fuel =>
      rw [List.cons_append, first.ordinary] at read
      obtain ⟨⟨tail, left⟩, later, same⟩ := Option.map_eq_some_iff.mp read
      cases same
      obtain ⟨rfl, rfl⟩ := ih others later
      exact ⟨rfl, rfl⟩

/-- What reading a text before its quote can come to. -/
inductive Reading (text after decoded rest : List UInt8) : Prop where
  | exact (unescaped : ∀ byte ∈ text, Unescaped byte) (same : decoded = text) (left : rest = after)
  | shorter (less : decoded.length < text.length)
  /-- The last byte escapes the quote, and the string goes on behind it. -/
  | beyond {front read more : List UInt8} {fuel : Nat} (last : text = front ++ [backslash])
      (joined : decoded = read ++ quote :: more) (short : read.length ≤ front.length)
      (later : stringBody fuel after = some (more, rest))

theorem stringBody_reading {fuel : Nat} {text after decoded rest : List UInt8}
    (read : stringBody fuel (text ++ quote :: after) = some (decoded, rest)) : Reading text after decoded rest := by
  induction fuel generalizing text decoded with
  | zero => cases read
  | succ fuel ih =>
    cases text with
    | nil =>
      cases read
      exact .exact (by simp) rfl rfl
    | cons char text =>
      simp only [List.cons_append, stringBody] at read
      split at read
      · cases read
        exact .shorter (by simp)
      · rename_i noQuote
        split at read
        · rename_i slash
          obtain ⟨⟨bytes, tail⟩, escaped, read⟩ := Option.bind_eq_some_iff.mp read
          obtain ⟨⟨others, tail'⟩, later, same⟩ := Option.bind_eq_some_iff.mp read
          cases same
          rcases escape_before escaped with ⟨used, left, rfl, rfl, short⟩ | ⟨rfl, rfl, rfl⟩
          · cases ih later with
            | exact unescaped same left => exact .shorter (by simp [same]; omega)
            | shorter less => exact .shorter (by simp; omega)
            | beyond last joined shorter later =>
              rename_i front read more fuel
              have ends : char :: (used ++ left) = char :: (used ++ front) ++ [backslash] := by simp [last]
              have reads : bytes ++ others = bytes ++ read ++ quote :: more := by rw [joined, List.append_assoc]
              have within : (bytes ++ read).length ≤ (char :: (used ++ front)).length := by
                simp only [List.length_append, List.length_cons]
                omega
              exact .beyond ends reads within later
          · have ends : [char] = [] ++ [backslash] := by rw [slash, List.nil_append]
            have reads : [quote] ++ others = [] ++ quote :: others := rfl
            exact .beyond ends reads (Nat.le_refl 0) later
        · rename_i noSlash
          split at read
          · cases read
          · rename_i printable
            obtain ⟨⟨others, tail'⟩, later, same⟩ := Option.bind_eq_some_iff.mp read
            cases same
            cases ih later with
            | exact unescaped same left =>
              exact .exact (List.forall_mem_cons.mpr ⟨⟨noQuote, noSlash, UInt8.not_lt.mp printable⟩, unescaped⟩) (by rw [same]) left
            | shorter less => exact .shorter (Nat.succ_lt_succ less)
            | beyond last joined shorter later =>
              rename_i front read more fuel
              have ends : char :: text = char :: front ++ [backslash] := by rw [last, List.cons_append]
              have reads : char :: others = char :: read ++ quote :: more := by rw [joined, List.cons_append]
              exact .beyond ends reads (Nat.succ_le_succ shorter) later

theorem Plain.string {text : List UInt8} (plain : Plain text) (rest : List UInt8) :
    string (text ++ quote :: rest) = some (text, rest) := by
  have enough : text.length < (text ++ quote :: rest).length := by simp
  rw [Json.string, stringBody_unescaped plain.unescaped enough rest]
  exact if_pos (ByteArray.validateUTF8_eq_true_iff.mpr plain.encoded)

theorem string_parts {input text rest : List UInt8} :
    string input = some (text, rest) ↔ stringBody input.length input = some (text, rest) ∧ text.toByteArray.IsValidUTF8 := by
  rw [string, ← ByteArray.validateUTF8_eq_true_iff]
  cases stringBody input.length input with
  | none => simp
  | some read =>
    by_cases valid : read.1.toByteArray.validateUTF8 = true
    · simp only [Option.bind_eq_bind, Option.bind_some, valid]
      constructor
      · intro same
        cases same
        exact ⟨rfl, valid⟩
      · exact fun same => same.1
    · simp only [Option.bind_eq_bind, Option.bind_some, valid]
      constructor
      · intro same
        cases same
      · intro ⟨same, valid'⟩
        cases same
        exact absurd valid' valid

/-- A text that begins what is read from between its quotes is all of it, and plain. -/
theorem string_exact {text middle tail read rest : List UInt8} (between : ∀ byte ∈ middle, Unescaped byte)
    (begins : text <+: read) :
    string (text ++ quote :: (middle ++ quote :: tail)) = some (read, rest) ↔
      (Plain text ∧ read = text) ∧ rest = middle ++ quote :: tail := by
  constructor
  · intro found
    obtain ⟨body, encoded⟩ := string_parts.mp found
    cases stringBody_reading body with
    | exact unescaped same left =>
      subst same
      exact ⟨⟨⟨unescaped, encoded⟩, rfl⟩, left⟩
    | shorter less => exact absurd begins.length_le (Nat.not_le_of_lt less)
    | beyond last joined short later =>
      rename_i front before more fuel
      obtain ⟨rfl, _⟩ := stringBody_eq between later
      obtain ⟨extra, rfl⟩ := begins
      rw [last, List.append_assoc] at joined
      rcases List.append_eq_append_iff.mp joined with ⟨left, same, behind⟩ | ⟨left, same, behind⟩
      · obtain rfl : left = [] := List.eq_nil_of_length_eq_zero (by
          rw [same, List.length_append] at short
          omega)
        exact absurd (List.cons.inj behind).1 (by decide)
      · -- the backslash stands in what is read behind the quote
        have member : backslash ∈ quote :: more := by simp [behind]
        rcases List.mem_cons.mp member with same | inside
        · exact absurd same (by decide)
        · exact absurd rfl (between _ inside).2.1
  · rintro ⟨⟨plain, rfl⟩, rfl⟩
    exact plain.string _

/-- A text put between quotes as it is. -/
def quoted (text : List UInt8) : List UInt8 := quote :: (text ++ [quote])

theorem quoted_append (text rest : List UInt8) : quoted text ++ rest = quote :: (text ++ quote :: rest) := by
  simp [quoted]

/-- Texts with commas between them. -/
def listed (texts : List (List UInt8)) (last : List UInt8) : List UInt8 :=
  texts.flatMap (fun text => quoted text ++ [comma]) ++ quoted last

theorem listed_head (texts : List (List UInt8)) (last rest : List UInt8) :
    ∃ input, listed texts last ++ rest = quote :: input := by
  cases texts with
  | nil => exact ⟨_, quoted_append last rest⟩
  | cons text texts => exact ⟨_, by simp [listed, quoted]; rfl⟩

theorem value_string (fuel : Nat) (input : List UInt8) :
    value (fuel + 1) (quote :: input) = (string input).map fun read => (.string read.1, read.2) := by
  rw [Option.map_eq_bind]
  rfl

theorem value_array (fuel : Nat) (input : List UInt8) :
    value (fuel + 1) (openBracket :: quote :: input) =
      (elements fuel (quote :: input)).map fun read => (.array read.1, read.2) := by
  rw [Option.map_eq_bind]
  rfl

theorem value_object (fuel : Nat) (input : List UInt8) :
    value (fuel + 1) (openBrace :: quote :: input) =
      (members fuel (quote :: input)).map fun read => (.object read.1, read.2) := by
  rw [Option.map_eq_bind]
  rfl

theorem value_space (fuel : Nat) (input : List UInt8) : value fuel (space :: input) = value fuel input := by
  cases fuel <;> rfl

theorem members_space (fuel : Nat) (input : List UInt8) : members fuel (space :: input) = members fuel input := by
  cases fuel <;> rfl

section Continued
variable {α β : Type} {close : UInt8} {others : List UInt8 → Option (List α × List UInt8)} {first : α} {items : List α}
  {input left rest : List UInt8}

theorem continued_more (next : separator close input = some (true, left)) :
    continued close others first input = some (first :: items, rest) ↔ others left = some (items, rest) := by
  have shape : continued close others first input = (others left).map fun read => (first :: read.1, read.2) := by
    rw [continued, next, Option.map_eq_bind]
    rfl
  rw [shape, Option.map_eq_some_iff]
  constructor
  · intro ⟨⟨read, after⟩, found, same⟩
    cases same
    exact found
  · exact fun found => ⟨_, found, rfl⟩

theorem continued_last (final : separator close input = some (false, left)) :
    continued close others first input = some ([first], rest) ↔ rest = left := by
  rw [continued, final]
  constructor
  · intro same
    cases same
    rfl
  · rintro rfl
    rfl

/-- The first item is the one that was read, whatever follows it. -/
theorem continued_head {head : α} (read : continued close others first input = some (head :: items, rest)) : head = first := by
  obtain ⟨⟨more, left⟩, _, read⟩ := Option.bind_eq_some_iff.mp read
  cases more with
  | false =>
    cases read
    rfl
  | true =>
    obtain ⟨found, _, same⟩ := Option.bind_eq_some_iff.mp read
    cases same
    rfl

theorem bind_continued {make : β → α} (injective : Function.Injective make) {read : Option (β × List UInt8)} {item : β}
    {condition : Prop} (exact : ∀ left, read = some (item, left) ↔ condition ∧ left = input) :
    (read >>= fun (first, left) => continued close others (make first) left) = some (make item :: items, rest) ↔
      condition ∧ continued close others (make item) input = some (make item :: items, rest) := by
  rw [Option.bind_eq_bind, Option.bind_eq_some_iff]
  constructor
  · intro ⟨⟨first, left⟩, one, behind⟩
    obtain rfl := injective (continued_head behind)
    obtain ⟨holds, rfl⟩ := (exact left).mp one
    exact ⟨holds, behind⟩
  · intro ⟨holds, behind⟩
    exact ⟨_, (exact input).mpr ⟨holds, rfl⟩, behind⟩

end Continued

theorem members_key {key : List UInt8} (plain : Plain key) (fuel : Nat) (input : List UInt8) :
    members (fuel + 1) (quoted key ++ colon :: space :: input) =
      value fuel input >>= fun (first, rest) => continued closeBrace (members fuel) (key, first) rest := by
  have opened (input : List UInt8) : expect quote (quote :: input) = some input := rfl
  have marked (input : List UInt8) : expect colon (colon :: input) = some input := rfl
  simp only [quoted_append, members, opened, plain.string, marked, value_space, Option.bind_eq_bind, Option.bind_some]

theorem unescaped_comma : Unescaped comma := ⟨by decide, by decide, by decide⟩

theorem value_exact {text middle tail read rest : List UInt8} (between : ∀ byte ∈ middle, Unescaped byte)
    (begins : text <+: read) (fuel : Nat) :
    value (fuel + 1) (quoted text ++ (middle ++ quote :: tail)) = some (.string read, rest) ↔
      (Plain text ∧ read = text) ∧ rest = middle ++ quote :: tail := by
  rw [quoted_append, value_string, ← string_exact between begins, Option.map_eq_some_iff]
  constructor
  · intro ⟨⟨read, left⟩, found, same⟩
    cases same
    exact found
  · exact fun found => ⟨_, found, rfl⟩

theorem elements_cons {text tail rest : List UInt8} {others : List Value} {fuel : Nat} :
    elements (fuel + 2) (quoted text ++ comma :: quote :: tail) = some (.string text :: others, rest) ↔
      Plain text ∧ elements (fuel + 1) (quote :: tail) = some (others, rest) := by
  have between : ∀ byte ∈ [comma], Unescaped byte := List.forall_mem_singleton.mpr unescaped_comma
  have next : separator closeBracket (comma :: quote :: tail) = some (true, quote :: tail) := rfl
  have exact (left : List UInt8) : value (fuel + 1) (quoted text ++ comma :: quote :: tail) = some (.string text, left) ↔
      (Plain text ∧ text = text) ∧ left = comma :: quote :: tail := value_exact between List.prefix_rfl fuel
  rw [elements, ← continued_more next, ← and_iff_left (a := Plain text) rfl, ← bind_continued Function.injective_id exact]
  rfl

theorem value_plain {text : List UInt8} (plain : Plain text) (fuel : Nat) (rest : List UInt8) :
    value (fuel + 1) (quoted text ++ rest) = some (.string text, rest) := by
  rw [quoted_append, value_string, plain.string]
  rfl

theorem elements_last {last : List UInt8} (plain : Plain last) (fuel : Nat) (tail : List UInt8) :
    elements (fuel + 2) (quoted last ++ closeBracket :: tail) = some ([.string last], tail) := by
  rw [elements, value_plain plain]
  rfl

/-- A list of texts is read back if they are plain. Of the last one it is known. -/
theorem elements_listed {texts : List (List UInt8)} {last : List UInt8} (plain : Plain last) {fuel : Nat}
    (enough : texts.length + 2 ≤ fuel) {tail rest : List UInt8} :
    elements fuel (listed texts last ++ closeBracket :: tail) = some ((texts ++ [last]).map .string, rest) ↔
      (∀ text ∈ texts, Plain text) ∧ rest = tail := by
  obtain ⟨fuel, rfl⟩ := Nat.exists_eq_add_of_le' enough
  induction texts with
  | nil =>
    rw [show listed [] last = quoted last from rfl, List.length_nil, Nat.zero_add, elements_last plain]
    simp [eq_comm]
  | cons text texts ih =>
    have behind := ih (Nat.le_add_left ..)
    obtain ⟨input, shape⟩ := listed_head texts last (closeBracket :: tail)
    have whole : listed (text :: texts) last ++ closeBracket :: tail = quoted text ++ comma :: quote :: input := by
      rw [← shape]
      simp [listed]
    have count : fuel + ((text :: texts).length + 2) = fuel + (texts.length + 1) + 2 := by
      simp only [List.length_cons]
      omega
    rw [whole, count, List.cons_append, List.map_cons, elements_cons, ← shape, List.forall_mem_cons, and_assoc]
    exact and_congr_right fun _ => behind

/-- A member whose value is a text, with another one behind it. -/
theorem members_cons {key text tail read rest : List UInt8} (plain : Plain key) (begins : text <+: read)
    {others : List (List UInt8 × Value)} {fuel : Nat} :
    members (fuel + 2) (quoted key ++ colon :: space :: (quoted text ++ comma :: space :: quote :: tail)) =
        some ((key, .string read) :: others, rest) ↔
      (Plain text ∧ read = text) ∧ members (fuel + 1) (quote :: tail) = some (others, rest) := by
  have between : ∀ byte ∈ [comma, space], Unescaped byte := by
    refine List.forall_mem_cons.mpr ⟨unescaped_comma, List.forall_mem_singleton.mpr ?_⟩
    exact ⟨by decide, by decide, by decide⟩
  have next : separator closeBrace (comma :: space :: quote :: tail) = some (true, space :: quote :: tail) := rfl
  have exact (left : List UInt8) :
      value (fuel + 1) (quoted text ++ comma :: space :: quote :: tail) = some (.string read, left) ↔
        (Plain text ∧ read = text) ∧ left = comma :: space :: quote :: tail := value_exact between begins fuel
  rw [members_key plain, ← members_space, ← continued_more next, ← bind_continued (Prod.mk_right_injective key) exact]

/-- A last member whose value is a list of texts. -/
theorem members_listed {key last : List UInt8} {texts : List (List UInt8)} (plain : Plain key) (known : Plain last)
    {fuel : Nat} (enough : texts.length + 2 ≤ fuel) {tail rest : List UInt8} :
    members (fuel + 2) (quoted key ++ colon :: space :: openBracket :: (listed texts last ++ closeBracket :: closeBrace :: tail)) =
        some ([(key, .array ((texts ++ [last]).map .string))], rest) ↔
      (∀ text ∈ texts, Plain text) ∧ rest = tail := by
  have final : separator closeBrace (closeBrace :: tail) = some (false, tail) := rfl
  have exact (left : List UInt8) :
      value (fuel + 1) (openBracket :: (listed texts last ++ closeBracket :: closeBrace :: tail)) =
          some (.array ((texts ++ [last]).map .string), left) ↔
        (∀ text ∈ texts, Plain text) ∧ left = closeBrace :: tail := by
    obtain ⟨input, shape⟩ := listed_head texts last (closeBracket :: closeBrace :: tail)
    rw [← elements_listed known enough, shape, value_array, Option.map_eq_some_iff]
    constructor
    · intro ⟨⟨read, left⟩, found, same⟩
      cases same
      exact found
    · exact fun found => ⟨_, found, rfl⟩
  rw [members_key plain, ← continued_last final, ← bind_continued (Prod.mk_right_injective key) exact]

instance : DecidablePred Unescaped := fun _ => inferInstanceAs (Decidable (_ ∧ _ ∧ _))

/-- A text of seven bit characters is encoded as it is. -/
theorem encoded_ascii {text : List UInt8} (small : ∀ byte ∈ text, byte < 0x80) : text.toByteArray.IsValidUTF8 := by
  induction text with
  | nil => exact ByteArray.isValidUTF8_empty
  | cons byte text ih =>
    obtain ⟨first, others⟩ := List.forall_mem_cons.mp small
    have bound : byte.toNat < 128 := UInt8.lt_iff_toNat_lt.mp first
    have code : (Char.ofNat byte.toNat).val.toNat = byte.toNat := by
      rw [Char.ofNat, dif_pos (.inl (by omega))]
      rfl
    have alone : String.utf8EncodeChar (Char.ofNat byte.toNat) = [byte] := by
      rw [String.utf8EncodeChar, code]
      simp [Nat.le_of_lt_succ bound]
    rw [← List.singleton_append, List.toByteArray_append, ← alone, ← List.utf8Encode_singleton]
    exact ByteArray.isValidUTF8_utf8Encode.append (ih others)

theorem plain_ascii {text : List UInt8} (printable : ∀ byte ∈ text, Unescaped byte ∧ byte < 0x80) : Plain text :=
  ⟨fun byte member => (printable byte member).1, encoded_ascii fun byte member => (printable byte member).2⟩

/-- A given text is checked byte by byte. -/
theorem plain_printable {text : List UInt8} (printable : (text.all fun byte => decide (Unescaped byte ∧ byte < 0x80)) = true) :
    Plain text := by
  apply plain_ascii
  intro byte member
  exact of_decide_eq_true (List.all_eq_true.mp printable byte member)

theorem parse_eq_some {input : List UInt8} {parsed : Value} :
    parse input = some parsed ↔ ∃ rest, value (2 * input.length + 1) input = some (parsed, rest) ∧ skipSpace rest = [] := by
  rw [parse, Option.bind_eq_bind, Option.bind_eq_some_iff]
  constructor
  · intro ⟨⟨read, rest⟩, found, more⟩
    dsimp only at more
    split at more
    · rename_i ended
      cases more
      exact ⟨rest, found, ended⟩
    · cases more
  · intro ⟨rest, found, ended⟩
    exact ⟨_, found, if_pos ended⟩

/-- Members whose values are texts, in front of the others. -/
def pasted (texts : List (List UInt8 × List UInt8)) (others : List UInt8) : List UInt8 :=
  texts.foldr (fun (key, text) rest => quoted key ++ colon :: space :: (quoted text ++ comma :: space :: rest)) others

theorem pasted_head (texts : List (List UInt8 × List UInt8)) (tail : List UInt8) :
    ∃ input, pasted texts (quote :: tail) = quote :: input := by
  cases texts with
  | nil => exact ⟨tail, rfl⟩
  | cons text texts => exact ⟨_, quoted_append ..⟩

theorem members_pasted {texts : List (List UInt8 × List UInt8)} {reads : List (List UInt8)}
    (begins : List.Forall₂ (fun text read => text.2 <+: read) texts reads) (keys : ∀ text ∈ texts, Plain text.1)
    {others : List (List UInt8 × Value)} {tail rest : List UInt8} {fuel : Nat} :
    members (fuel + 1 + texts.length) (pasted texts (quote :: tail)) =
        some (List.zipWith (fun text read => (text.1, .string read)) texts reads ++ others, rest) ↔
      (∀ text ∈ texts, Plain text.2) ∧ reads = texts.map Prod.snd ∧
        members (fuel + 1) (quote :: tail) = some (others, rest) := by
  induction begins with
  | nil => simp [pasted]
  | @cons text read texts reads first _ ih =>
    obtain ⟨known, keys⟩ := List.forall_mem_cons.mp keys
    obtain ⟨input, shape⟩ := pasted_head texts tail
    have whole : pasted (text :: texts) (quote :: tail) =
        quoted text.1 ++ colon :: space :: (quoted text.2 ++ comma :: space :: quote :: input) := by
      rw [← shape]
      rfl
    have count : fuel + 1 + (text :: texts).length = fuel + texts.length + 2 := by
      simp only [List.length_cons]
      omega
    have step : fuel + texts.length + 1 = fuel + 1 + texts.length := by omega
    rw [whole, count, List.zipWith_cons_cons, List.cons_append, members_cons known first, ← shape, step, ih keys,
      List.forall_mem_cons, List.map_cons, List.cons.injEq]
    constructor
    · intro ⟨⟨plain, same⟩, others, sames, behind⟩
      exact ⟨⟨plain, others⟩, ⟨same, sames⟩, behind⟩
    · intro ⟨⟨plain, others⟩, ⟨same, sames⟩, behind⟩
      exact ⟨⟨plain, same⟩, others, sames, behind⟩

theorem listed_length (texts : List (List UInt8)) (last : List UInt8) : texts.length + 2 ≤ (listed texts last).length := by
  induction texts with
  | nil => simp [listed, quoted]
  | cons text texts ih =>
    rw [show listed (text :: texts) last = quoted text ++ [comma] ++ listed texts last by simp [listed]]
    simp only [List.length_append, List.length_cons]
    omega

theorem pasted_length (texts : List (List UInt8 × List UInt8)) (others : List UInt8) :
    texts.length + others.length ≤ (pasted texts others).length := by
  induction texts with
  | nil => simp [pasted]
  | cons text texts ih =>
    rw [show pasted (text :: texts) others =
      quoted text.1 ++ colon :: space :: (quoted text.2 ++ comma :: space :: pasted texts others) from rfl]
    simp only [List.length_append, List.length_cons]
    omega

/-- An object of pasted texts, the last member a list of them, is read back as texts that begin with these if they are
plain and all that is read. -/
theorem parse_pasted {texts : List (List UInt8 × List UInt8)} {reads : List (List UInt8)}
    (begins : List.Forall₂ (fun text read => text.2 <+: read) texts reads) (keys : ∀ text ∈ texts, Plain text.1)
    {key last : List UInt8} (known : Plain key) (plain : Plain last) {names : List (List UInt8)} :
    parse (openBrace :: pasted texts (quoted key ++ colon :: space :: openBracket ::
        (listed names last ++ [closeBracket, closeBrace]))) =
      some (.object (List.zipWith (fun text read => (text.1, .string read)) texts reads ++
        [(key, .array ((names ++ [last]).map .string))])) ↔
      (∀ text ∈ texts, Plain text.2) ∧ reads = texts.map Prod.snd ∧ ∀ name ∈ names, Plain name := by
  obtain ⟨tail, shape⟩ : ∃ tail, quoted key ++ colon :: space :: openBracket ::
    (listed names last ++ [closeBracket, closeBrace]) = quote :: tail := ⟨_, quoted_append ..⟩
  obtain ⟨input, whole⟩ := pasted_head texts tail
  obtain ⟨fuel, enough, count⟩ : ∃ fuel, names.length + 2 ≤ fuel ∧
      2 * (openBrace :: pasted texts (quote :: tail)).length + 1 = fuel + 1 + 1 + texts.length + 1 := by
    have short := listed_length names last
    have long := pasted_length texts (quote :: tail)
    refine ⟨2 * (pasted texts (quote :: tail)).length - texts.length, ?_, ?_⟩
    · have tailed := congrArg List.length shape
      simp only [List.length_append, List.length_cons] at tailed long
      omega
    · simp only [List.length_cons]
      omega
  rw [parse_eq_some, shape, count, whole, value_object, ← whole]
  have members_iff {rest : List UInt8} :
      members (fuel + 1 + 1 + texts.length) (pasted texts (quote :: tail)) =
          some (List.zipWith (fun text read => (text.1, .string read)) texts reads ++
            [(key, .array ((names ++ [last]).map .string))], rest) ↔
        (∀ text ∈ texts, Plain text.2) ∧ reads = texts.map Prod.snd ∧ (∀ name ∈ names, Plain name) ∧ rest = [] := by
    rw [members_pasted begins keys, ← shape, members_listed known plain enough]
  constructor
  · intro ⟨rest, found, _⟩
    obtain ⟨⟨items, left⟩, read, same⟩ := Option.map_eq_some_iff.mp found
    cases same
    obtain ⟨texts, same, names, _⟩ := members_iff.mp read
    exact ⟨texts, same, names⟩
  · intro ⟨texts, same, names⟩
    exact ⟨[], Option.map_eq_some_iff.mpr ⟨_, members_iff.mpr ⟨texts, same, names, rfl⟩, rfl⟩, rfl⟩

end Cpp2Sky.Json
