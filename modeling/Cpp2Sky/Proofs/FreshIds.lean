import Mathlib.Data.List.GetD
import Cpp2Sky.RandomGenerator
import Cpp2Sky.TracingContext
import Cpp2Sky.Library.Places
import Cpp2Sky.Library.Sextets

/-! Every call of `uuid` takes the next sixteen bytes that the buffer was filled
with, and its text has all of them but the six bits that are fixed. -/

namespace Cpp2Sky.RandomGenerator
open Places

/-- The bytes of a buffer from a position on. -/
def chunk (buffered : Buffer) (rand : Nat) : Nat → UInt8 := fun j => buffered.bytes.getD (rand + j) 0

/-- The fixed bits of byte 6 and byte 8. -/
def stamp (j : Nat) (byte : UInt8) : UInt8 :=
  if j = 6 then byte &&& 0x0f ||| 0x40 else if j = 8 then byte &&& 0x3f ||| 0x80 else byte

def digits (byte : UInt8) : Bytes := [hexChar (byte >>> 4), hexChar (byte &&& 0x0f)]

def group (bytes : Nat → UInt8) (first last : Nat) : Bytes :=
  (List.range' first (last - first)).flatMap fun j => digits (bytes j)

def textOf (bytes : Nat → UInt8) : Bytes :=
  group bytes 0 4 ++ [dash] ++ group bytes 4 6 ++ [dash] ++ group bytes 6 8 ++ [dash] ++ group bytes 8 10 ++ [dash] ++
    group bytes 10 16

def identifier (bytes : Nat → UInt8) : Bytes := textOf fun j => stamp j (bytes j)

section Writing
variable {buffered : Buffer} {rand : Nat} {written : Bytes}

private theorem charAt_chunk {j : Nat} (inside : rand + j < bufferSize) :
    buffered.charAt (rand + j) = .ok (chunk buffered rand j) := by
  have bound : rand + j < buffered.bytes.length := by rwa [buffered.size]
  rw [Buffer.charAt, List.getElem?_eq_getElem bound, chunk, List.getD_eq_getElem _ _ bound]

private theorem putText_next {index : Nat} (here : written.length = index) (room : index < uuidLength) (char : UInt8) :
    putText (filled uuidLength written) index char = .ok (filled uuidLength (written ++ [char])) := by
  subst here
  rw [putText, if_pos (by rwa [filled_length (Nat.le_of_lt room)]), filled_set room]

private theorem group_length (bytes : Nat → UInt8) (first last : Nat) : (group bytes first last).length = 2 * (last - first) := by
  simp [group, digits, List.length_flatMap, Nat.mul_comm]

/-- A loop writes on behind what is written. -/
private theorem writeDigits_next {first last offset : Nat} (inside : rand + last ≤ bufferSize)
    (here : written.length = 2 * first + offset) (room : 2 * last + offset ≤ uuidLength) :
    writeDigits buffered rand first last offset (filled uuidLength written) =
      .ok (filled uuidLength (written ++ group (chunk buffered rand) first last)) := by
  unfold writeDigits group
  generalize rounds : last - first = left
  induction left generalizing first written with
  | zero => simp
  | succ left ih =>
    have read := @charAt_chunk buffered rand first (by omega)
    rw [List.range'_succ, List.foldlM_cons, read, Outcome.ok_bind, putText_next here (by omega), Outcome.ok_bind,
      putText_next (by simp [here]) (by omega), Outcome.ok_bind, ih (by simp [here]; omega) (by omega)]
    simp [digits]

end Writing

section Texts
variable {one two : Nat → UInt8}

private theorem high_small : ∀ byte : UInt8, byte >>> 4 < 16 := by decide +kernel

private theorem low_small : ∀ byte : UInt8, byte &&& 0x0f < 16 := by decide +kernel

private theorem hexChar_digit : ∀ digit : UInt8, digit < 16 →
    hexChar digit ∈ ascii hex ∧ UInt8.ofNat ((ascii hex).idxOf (hexChar digit)) = digit := by decide +kernel

private theorem hexChar_inj {a b : UInt8} (left : a < 16) (right : b < 16) (same : hexChar a = hexChar b) : a = b := by
  rw [← (hexChar_digit a left).2, same, (hexChar_digit b right).2]

private theorem digits_inj {a b : UInt8} (same : digits a = digits b) : a = b := by
  have back : ∀ byte : UInt8, (byte >>> 4) <<< 4 ||| (byte &&& 0x0f) = byte := by decide +kernel
  obtain ⟨first, rest⟩ := List.cons.inj same
  obtain ⟨second, _⟩ := List.cons.inj rest
  have high := hexChar_inj (high_small a) (high_small b) first
  have low := hexChar_inj (low_small a) (low_small b) second
  rw [← back a, high, low, back b]

private theorem group_eq_iff (first last : Nat) :
    group one first last = group two first last ↔ ∀ j, first ≤ j → j < last → one j = two j := by
  unfold group
  constructor
  · generalize rounds : last - first = left
    induction left generalizing first with
    | zero =>
      intro _ j above below
      omega
    | succ left ih =>
      intro same j above below
      rw [List.range'_succ, List.flatMap_cons, List.flatMap_cons] at same
      obtain ⟨front, others⟩ := List.append_inj same rfl
      by_cases here : j = first
      · subst here
        exact digits_inj front
      · exact ih (first + 1) (by omega) others j (by omega) below
  · intro same
    apply List.flatMap_congr
    intro j member
    obtain ⟨above, below⟩ := List.mem_range'_1.mp member
    rw [same j above (by omega)]

private theorem textOf_eq_iff : textOf one = textOf two ↔ ∀ j, j < 16 → one j = two j := by
  constructor
  · intro same j small
    obtain ⟨same, fifth⟩ := List.append_inj' same (by rw [group_length, group_length])
    obtain ⟨same, _⟩ := List.append_inj' same rfl
    obtain ⟨same, fourth⟩ := List.append_inj' same (by rw [group_length, group_length])
    obtain ⟨same, _⟩ := List.append_inj' same rfl
    obtain ⟨same, third⟩ := List.append_inj' same (by rw [group_length, group_length])
    obtain ⟨same, _⟩ := List.append_inj' same rfl
    obtain ⟨same, second⟩ := List.append_inj' same (by rw [group_length, group_length])
    obtain ⟨first, _⟩ := List.append_inj' same rfl
    rw [group_eq_iff] at first second third fourth fifth
    have groups : j < 4 ∨ 4 ≤ j ∧ j < 6 ∨ 6 ≤ j ∧ j < 8 ∨ 8 ≤ j ∧ j < 10 ∨ 10 ≤ j := by omega
    rcases groups with below | ⟨above, below⟩ | ⟨above, below⟩ | ⟨above, below⟩ | above
    · exact first j (Nat.zero_le j) below
    · exact second j above below
    · exact third j above below
    · exact fourth j above below
    · exact fifth j above small
  · intro same
    have equal (first last : Nat) (bound : last ≤ 16) : group one first last = group two first last := by
      rw [group_eq_iff]
      intro j _ below
      exact same j (Nat.lt_of_lt_of_le below bound)
    unfold textOf
    rw [equal 0 4 (by decide), equal 4 6 (by decide), equal 6 8 (by decide), equal 8 10 (by decide), equal 10 16 (by decide)]

/-- Equal but for the bits that are fixed. -/
def Agree (j : Nat) (one two : UInt8) : Prop :=
  if j = 6 then one &&& 0x0f = two &&& 0x0f
  else if j = 8 then one &&& 0x3f = two &&& 0x3f
  else one = two

private theorem stamp_eq_iff (j : Nat) (one two : UInt8) : stamp j one = stamp j two ↔ Agree j one two := by
  have low : ∀ byte : UInt8, (byte &&& 0x0f ||| 0x40) &&& 0x0f = byte &&& 0x0f := by decide +kernel
  have rest : ∀ byte : UInt8, (byte &&& 0x3f ||| 0x80) &&& 0x3f = byte &&& 0x3f := by decide +kernel
  unfold stamp Agree
  split
  next =>
    constructor
    · intro same
      rw [← low one, same, low]
    · intro same
      rw [same]
  next =>
    split
    next =>
      constructor
      · intro same
        rw [← rest one, same, rest]
      · intro same
        rw [same]
    next => rfl

theorem identifier_eq_iff : identifier one = identifier two ↔ ∀ j, j < 16 → Agree j (one j) (two j) := by
  unfold identifier
  rw [textOf_eq_iff]
  exact forall₂_congr fun j _ => stamp_eq_iff j (one j) (two j)

/-- The layout of a version 4 identifier: what each place of the text may hold. -/
def Layout (place : Nat) (char : UInt8) : Prop :=
  if place = 8 ∨ place = 13 ∨ place = 18 ∨ place = 23 then char = dash
  else if place = 14 then char = '4'.toUInt8
  else if place = 19 then char ∈ ascii ['8', '9', 'a', 'b']
  else char ∈ ascii hex

theorem identifier_layout (bytes : Nat → UInt8) : ∀ char ∈ (identifier bytes).zipIdx, Layout char.2 char.1 := by
  have high (byte : UInt8) : hexChar (byte >>> 4) ∈ ascii hex := (hexChar_digit _ (high_small byte)).1
  have low (byte : UInt8) : hexChar (byte &&& 0x0f) ∈ ascii hex := (hexChar_digit _ (low_small byte)).1
  have four : ∀ byte : UInt8, (byte &&& 0x0f ||| 0x40) >>> 4 = 4 := by decide +kernel
  have eight : ∀ byte : UInt8, (byte &&& 0x3f ||| 0x80) >>> 4 = 8 ∨ (byte &&& 0x3f ||| 0x80) >>> 4 = 9 ∨
      (byte &&& 0x3f ||| 0x80) >>> 4 = 10 ∨ (byte &&& 0x3f ||| 0x80) >>> 4 = 11 := by decide +kernel
  have version (byte : UInt8) : hexChar ((byte &&& 0x0f ||| 0x40) >>> 4) = '4'.toUInt8 := by
    rw [four]
    rfl
  have variant (byte : UInt8) : hexChar ((byte &&& 0x3f ||| 0x80) >>> 4) ∈ ascii ['8', '9', 'a', 'b'] := by
    rcases eight byte with same | same | same | same
    all_goals
      rw [same]
      decide
  simp [identifier, textOf, group, digits, List.range', List.zipIdx_cons, Layout, stamp, high, low, version, variant]

end Texts

section Call
variable {fillings : Nat → Buffer}

private theorem chunk_put {buffered : Buffer} {rand place : Nat} {char : UInt8} (inside : rand + place < bufferSize) :
    ∃ next, buffered.put (rand + place) char = .ok next ∧
      ∀ index, next.bytes.getD index 0 = if index = rand + place then char else buffered.bytes.getD index 0 := by
  refine ⟨_, if_pos inside, ?_⟩
  intro index
  have bound : rand + place < buffered.bytes.length := by rwa [buffered.size]
  simp only [List.getD_eq_getElem?_getD, List.getElem?_set, bound]
  by_cases same : index = rand + place
  · simp [same]
  · simp [same, Ne.symm same]

/-- What is left of a call where sixteen bytes are left: it stamps them, writes
their text and leaves the bytes behind them. -/
private theorem uuid_next {state start : State}
    (begun : (if state.UsedUp then { randomBuffer fillings state with bufferedIdx := 0 } else state) = start)
    (inside : start.bufferedIdx + 16 ≤ bufferSize) :
    ∃ buffered, uuid fillings state = .ok ((identifier (chunk start.buffered start.bufferedIdx)).map some,
        { start with buffered, bufferedIdx := start.bufferedIdx + 16 }) ∧
      ∀ index, start.bufferedIdx + 16 ≤ index → buffered.bytes.getD index 0 = start.buffered.bytes.getD index 0 := by
  obtain ⟨first, versioned, sixth⟩ := @chunk_put start.buffered start.bufferedIdx 6
    (chunk start.buffered start.bufferedIdx 6 &&& 0x0f ||| 0x40) (by omega)
  obtain ⟨second, variant, eighth⟩ := @chunk_put first start.bufferedIdx 8
    (chunk first start.bufferedIdx 8 &&& 0x3f ||| 0x80) (by omega)
  have stamped : chunk second start.bufferedIdx = fun j => stamp j (chunk start.buffered start.bufferedIdx j) := by
    funext j
    simp only [chunk, stamp, sixth, eighth, Nat.add_left_cancel_iff]
    by_cases version : j = 6
    · simp [version]
    · by_cases variant : j = 8
      · simp [variant]
      · simp [version, variant]
  refine ⟨second, ?_, ?_⟩
  · unfold uuid
    rw [begun]
    have blank : (List.replicate uuidLength none : Text) = filled uuidLength [] := (filled_nil uuidLength).symm
    have assertion : ¬ ¬ start.bufferedIdx + 16 ≤ bufferSize := not_not.mpr inside
    simp only [assertion, ite_false, Outcome.pure_eq]
    rw [charAt_chunk (by omega), Outcome.ok_bind, versioned, Outcome.ok_bind, charAt_chunk (by omega), Outcome.ok_bind,
      variant, Outcome.ok_bind, blank]
    -- Each write goes on where the one before it has ended.
    have length := fun first last => group_length (chunk second start.bufferedIdx) first last
    rw [writeDigits_next (by omega) rfl (by decide), Outcome.ok_bind, putText_next (by simp [length]) (by decide),
      Outcome.ok_bind, writeDigits_next (by omega) (by simp [length]) (by decide), Outcome.ok_bind,
      putText_next (by simp [length]) (by decide), Outcome.ok_bind,
      writeDigits_next (by omega) (by simp [length]) (by decide), Outcome.ok_bind,
      putText_next (by simp [length]) (by decide), Outcome.ok_bind,
      writeDigits_next (by omega) (by simp [length]) (by decide), Outcome.ok_bind,
      putText_next (by simp [length]) (by decide), Outcome.ok_bind,
      writeDigits_next (by omega) (by simp [length]) (by decide), Outcome.ok_bind,
      filled_all (by simp [length, uuidLength])]
    rw [List.nil_append, identifier, ← stamped]
    rfl
  · intro index behind
    rw [eighth, sixth, if_neg (by omega), if_neg (by omega)]

/-- Where the variables of a thread stand after a number of calls. What is behind
`bufferedIdx` is as the last call of `randomBuffer` left it. -/
structure Used (fillings : Nat → Buffer) (calls : Nat) (state : State) : Prop where
  index : state.bufferedIdx = 16 * ((calls + 127) % 128 + 1)
  refills : state.refills = (calls + 127) / 128
  unused : ∀ index, state.bufferedIdx ≤ index → index < bufferSize →
    state.buffered.bytes.getD index 0 = (fillings (state.refills - 1)).bytes.getD index 0

theorem used_initial : Used fillings 0 initial :=
  ⟨rfl, rfl, fun _ above below => absurd below (Nat.not_lt.mpr above)⟩

theorem Used.usedUp_iff {calls : Nat} {state : State} (used : Used fillings calls state) :
    state.UsedUp ↔ calls % 128 = 0 := by
  have index := used.index
  unfold State.UsedUp bufferSize
  omega

def identifierOf (fillings : Nat → Buffer) (call : Nat) : Bytes :=
  identifier (chunk (fillings (call / 128)) (16 * (call % 128)))

/-- The state that a call works on: the buffer is filled again where it is used up,
and the next sixteen bytes of the filling are untouched. -/
private theorem Used.begins {calls : Nat} {state : State} (used : Used fillings calls state) :
    ∃ start : State, (if state.UsedUp then { randomBuffer fillings state with bufferedIdx := 0 } else state) = start ∧
      start.bufferedIdx = 16 * (calls % 128) ∧ start.refills = calls / 128 + 1 ∧
      ∀ index, start.bufferedIdx ≤ index → index < bufferSize →
        start.buffered.bytes.getD index 0 = (fillings (calls / 128)).bytes.getD index 0 := by
  have index := used.index
  have refills := used.refills
  by_cases usedUp : state.UsedUp
  · have whole := used.usedUp_iff.mp usedUp
    have filling : state.refills = calls / 128 := by omega
    refine ⟨_, if_pos usedUp, ?_, ?_, ?_⟩
    · show 0 = 16 * (calls % 128)
      omega
    · show state.refills + 1 = calls / 128 + 1
      omega
    · intro index _ _
      show (fillings state.refills).bytes.getD index 0 = _
      rw [filling]
  · have partly := mt used.usedUp_iff.mpr usedUp
    have filling : state.refills - 1 = calls / 128 := by omega
    refine ⟨_, if_neg usedUp, by omega, by omega, ?_⟩
    rw [← filling]
    exact used.unused

private theorem uuid_step {calls : Nat} {state : State} (used : Used fillings calls state) :
    ∃ next, uuid fillings state = .ok ((identifierOf fillings calls).map some, next) ∧ Used fillings (calls + 1) next := by
  obtain ⟨start, begun, index, refills, unused⟩ := used.begins
  obtain ⟨buffered, returns, behind⟩ := uuid_next begun (by rw [index, bufferSize]; omega)
  have bytes : identifier (chunk start.buffered start.bufferedIdx) = identifierOf fillings calls := by
    apply textOf_eq_iff.mpr
    intro j small
    have same := unused (start.bufferedIdx + j) (by omega) (by rw [index, bufferSize]; omega)
    rw [chunk, chunk, same, index]
  refine ⟨_, by rw [returns, bytes], ?_, ?_, ?_⟩
  · show start.bufferedIdx + 16 = 16 * ((calls + 1 + 127) % 128 + 1)
    omega
  · show start.refills = (calls + 1 + 127) / 128
    omega
  · intro place above below
    show buffered.bytes.getD place 0 = (fillings (start.refills - 1)).bytes.getD place 0
    rw [behind place above, unused place (Nat.le_trans (Nat.le_add_right _ _) above) below, refills, Nat.add_sub_cancel]

private theorem uuids_run (count calls : Nat) {state : State} (used : Used fillings calls state) :
    ∃ next, uuids fillings count state =
        .ok ((List.range' calls count).map fun call => (identifierOf fillings call).map some, next) ∧
      Used fillings (calls + count) next := by
  induction count generalizing calls state with
  | zero => exact ⟨state, rfl, used⟩
  | succ count ih =>
    obtain ⟨middle, first, moved⟩ := uuid_step used
    obtain ⟨next, others, final⟩ := ih (calls + 1) moved
    refine ⟨next, ?_, ?_⟩
    · rw [uuids, first, Outcome.ok_bind]
      simp only [others, Outcome.ok_bind]
      rfl
    · rwa [Nat.add_right_comm] at final

/-- `random.uuid()` as the constructor of a context calls it. -/
def nextId (fillings : Nat → Buffer) (state : State) : Bytes × State :=
  match uuid fillings state with
  | .error _ => ([], state)
  | .ok (text, state) => (text.filterMap id, state)

private theorem nextId_step {calls : Nat} {state : State} (used : Used fillings calls state) :
    ∃ next, nextId fillings state = (identifierOf fillings calls, next) ∧ Used fillings (calls + 1) next := by
  obtain ⟨next, returns, moved⟩ := uuid_step used
  refine ⟨next, ?_, moved⟩
  simp only [nextId, returns, List.filterMap_map, Function.comp_def, id, List.filterMap_some]

/-- A context takes the next identifiers of its thread, its trace id only where there
is no parent to take it from. -/
theorem context_ids {calls : Nat} {state : State} (used : Used fillings calls state) (serviceName instanceName : Bytes)
    (parent : Option SpanContextImpl) (extension : Option SpanContextExtensionImpl) :
    ∃ context next, TracingContextImpl.new (nextId fillings) serviceName instanceName parent extension state = (context, next) ∧
      match parent with
      | none =>
        context.segmentStore.traceId = identifierOf fillings calls ∧
          context.segmentStore.traceSegmentId = identifierOf fillings (calls + 1) ∧ Used fillings (calls + 2) next
      | some parent =>
        context.segmentStore.traceId = parent.traceId ∧
          context.segmentStore.traceSegmentId = identifierOf fillings calls ∧ Used fillings (calls + 1) next := by
  obtain ⟨middle, first, moved⟩ := nextId_step used
  cases parent with
  | none =>
    obtain ⟨next, second, final⟩ := nextId_step moved
    simp only [TracingContextImpl.new, first, second]
    exact ⟨_, next, rfl, rfl, rfl, final⟩
  | some parent =>
    simp only [TracingContextImpl.new, first]
    exact ⟨_, middle, rfl, rfl, rfl, moved⟩

/-- A run from the start of a thread. -/
private theorem uuids_initial (fillings : Nat → Buffer) (calls : Nat) :
    ∃ state, uuids fillings calls initial =
        .ok ((List.range calls).map fun call => (identifierOf fillings call).map some, state) ∧
      Used fillings calls state := by
  have started : Used fillings 0 initial := used_initial
  obtain ⟨state, executed, used⟩ := uuids_run calls 0 started
  rw [Nat.zero_add] at used
  rw [← List.range_eq_range'] at executed
  exact ⟨state, executed, used⟩

/-- What a call of a thread returns. -/
def returned (fillings : Nat → Buffer) (call : Nat) : Option Text :=
  match uuids fillings (call + 1) initial with
  | .error _ => none
  | .ok (texts, _) => texts[call]?

private theorem returned_eq (fillings : Nat → Buffer) (call : Nat) :
    returned fillings call = some ((identifierOf fillings call).map some) := by
  obtain ⟨state, executed, _⟩ := uuids_initial fillings (call + 1)
  simp [returned, executed]

/-- Another value of that byte alone may change what the call returns. -/
def Contributes (fillings : Nat → Buffer) (filling offset call : Nat) : Prop :=
  ∃ others : Nat → Buffer,
    (∀ index place, (index, place) ≠ (filling, offset) →
      (others index).bytes.getD place 0 = (fillings index).bytes.getD place 0) ∧
    returned others call ≠ returned fillings call

private theorem contributes_place {filling offset call : Nat} (contributes : Contributes fillings filling offset call) :
    ∃ j, j < 16 ∧ call / 128 = filling ∧ 16 * (call % 128) + j = offset := by
  obtain ⟨others, elsewhere, changed⟩ := contributes
  by_contra outside
  apply changed
  rw [returned_eq, returned_eq]
  have same : identifierOf others call = identifierOf fillings call := by
    apply textOf_eq_iff.mpr
    intro j small
    have byte := elsewhere (call / 128) (16 * (call % 128) + j) ?_
    · rw [chunk, chunk, byte]
    · intro place
      obtain ⟨index, rest⟩ := Prod.mk.inj place
      exact outside ⟨j, small, index, rest⟩
  rw [same]

/-- What holds of a thread and the texts that it has made after a number of calls. -/
structure Fresh (fillings : Nat → Buffer) (calls : Nat) (texts : List Text) (state : State) : Prop where
  aligned : state.bufferedIdx % 16 = 0
  inside : state.bufferedIdx ≤ bufferSize
  refills : state.refills = (calls + 127) / 128
  usedUp : state.UsedUp ↔ calls % 128 = 0
  made : texts = (List.range calls).map fun call => (identifierOf fillings call).map some
  layout : ∀ text ∈ texts, text.length = uuidLength ∧
    ∀ place, place < uuidLength → ∃ char, text[place]? = some (some char) ∧ Layout place char

private theorem text_layout (bytes : Nat → UInt8) :
    ((identifier bytes).map some).length = uuidLength ∧
      ∀ place, place < uuidLength → ∃ char, ((identifier bytes).map some)[place]? = some (some char) ∧ Layout place char := by
  have length : (identifier bytes).length = uuidLength := by simp [identifier, textOf, group_length, uuidLength]
  refine ⟨by rwa [List.length_map], ?_⟩
  intro place inside
  rw [← length] at inside
  refine ⟨(identifier bytes)[place], by rw [List.getElem?_map, List.getElem?_eq_getElem inside]; rfl, ?_⟩
  apply identifier_layout bytes ((identifier bytes)[place], place)
  exact List.mk_mem_zipIdx_iff_getElem?.mpr (List.getElem?_eq_getElem inside)

theorem identifiers_fresh (fillings : Nat → Buffer) :
    (∀ calls, ∃ texts state, uuids fillings calls initial = .ok (texts, state) ∧ Fresh fillings calls texts state) ∧
    (∀ filling offset one two, Contributes fillings filling offset one → Contributes fillings filling offset two →
      one = two) ∧
    ∀ one two, identifier one = identifier two ↔ ∀ j, j < 16 → Agree j (one j) (two j) := by
  refine ⟨?_, ?_, fun _ _ => identifier_eq_iff⟩
  · intro calls
    obtain ⟨state, executed, used⟩ := uuids_initial fillings calls
    have index := used.index
    refine ⟨_, state, executed, by omega, by rw [index, bufferSize]; omega, used.refills, used.usedUp_iff, rfl, ?_⟩
    intro text member
    obtain ⟨call, _, rfl⟩ := List.mem_map.mp member
    exact text_layout _
  · intro filling offset one two first second
    obtain ⟨j, small, rfl, rfl⟩ := contributes_place first
    obtain ⟨k, few, filling, place⟩ := contributes_place second
    omega

end Call

end Cpp2Sky.RandomGenerator
