import Mathlib.Data.List.Forall2
import Cpp2Sky.Proofs.HeaderRoundTrip
import Cpp2Sky.TracingApi

/-! Which entry points honour the length of a view. Those that copy a view read it
and nothing else; those that pass its data on read up to a NUL. -/

namespace Cpp2Sky

/-- The text of a view, read from no other place. -/
structure Faithful (view : StringView) (copied : Copied) : Prop where
  text : copied.text = view.chars
  places : ∀ place ∈ copied.places, view.position ≤ place ∧ place < view.position + view.length

namespace TextCall

def texts {τ : Type} : TextCall τ → List τ
  | .addTag _ key value | .addLog _ key value _ => [key, value]
  | .startSpan _ single _ | .setPeer _ single | .setOperationName _ single | .createSW8HeaderValue single
  | .logMessage single | .startEntrySpan single _ | .startExitSpan _ single _ => [single]

/-- The call works on the characters of its views, reads nothing around them, and
cannot tell apart views of the same characters. -/
structure Honoured (call : TextCall StringView) : Prop where
  faithful : ∃ copied, call.convert = .ok copied ∧ copied.map Copied.text = call.map StringView.chars ∧
    List.Forall₂ Faithful call.texts copied.texts
  same : ∀ context (other : TextCall StringView), other.map StringView.chars = call.map StringView.chars →
    other.run context = call.run context

/-- The entry points that do not go through `data()`. -/
def direct {τ : Type} : TextCall τ → Bool
  | .logMessage _ | .startEntrySpan _ _ | .startExitSpan _ _ _ => false
  | .startSpan _ _ _ | .addTag _ _ _ | .addLog _ _ _ _ | .setPeer _ _ | .setOperationName _ _
  | .createSW8HeaderValue _ => true

end TextCall

theorem copyBytes_eq {bytes : Bytes} {count : Nat} (enough : count ≤ bytes.length) (place : Nat) :
    copyBytes bytes place count = .ok { text := bytes.take count, places := List.range' place count } := by
  induction count generalizing bytes place with
  | zero => cases bytes <;> rfl
  | succ count ih =>
    cases bytes with
    | nil => cases enough
    | cons byte rest =>
      simp only [copyBytes, ih (Nat.le_of_succ_le_succ enough) (place + 1), Outcome.ok_bind]
      rfl

theorem copyCString_eq {text : Bytes} (whole : 0 ∉ text) (rest : Bytes) (place : Nat) :
    copyCString (text ++ 0 :: rest) place = .ok { text, places := List.range' place (text.length + 1) } := by
  induction text generalizing place with
  | nil => rfl
  | cons byte text ih =>
    obtain ⟨first, others⟩ := not_or.mp (mt List.mem_cons.mpr whole)
    simp only [List.cons_append, copyCString, Ne.symm first, ite_false, ih others (place + 1), Outcome.ok_bind]
    rfl

theorem copyCString_shape {bytes : Bytes} {place : Nat} {copied : Copied}
    (read : copyCString bytes place = .ok copied) : ∃ rest, bytes = copied.text ++ 0 :: rest ∧ 0 ∉ copied.text := by
  induction bytes generalizing place copied with
  | nil => cases read
  | cons byte bytes ih =>
    by_cases terminator : byte = 0
    · simp only [copyCString, terminator, ite_true] at read
      cases read
      exact ⟨bytes, by rw [terminator]; rfl, List.not_mem_nil⟩
    · simp only [copyCString, terminator, ite_false] at read
      obtain ⟨others, later, rest⟩ := Outcome.bind_eq_ok.mp read
      cases rest
      obtain ⟨rest, split, whole⟩ := ih later
      refine ⟨rest, by rw [split]; rfl, ?_⟩
      intro member
      rcases List.mem_cons.mp member with first | inside
      · exact terminator first.symm
      · exact whole inside

/-- A text read to its NUL covers one place more than it has characters. -/
theorem copyCString_places {bytes : Bytes} {place : Nat} {copied : Copied}
    (read : copyCString bytes place = .ok copied) : copied.places = List.range' place (copied.text.length + 1) := by
  obtain ⟨rest, split, whole⟩ := copyCString_shape read
  rw [split, copyCString_eq whole] at read
  exact congrArg Copied.places (Except.ok.inj read).symm

namespace StringView

theorem chars_length (view : StringView) : view.chars.length = view.length := by
  have inside := view.inside
  simp only [chars, List.length_take, List.length_drop]
  omega

/-- The copy that takes the view as it is. -/
def whole (view : StringView) : Copied where
  text := view.chars
  places := List.range' view.position view.length

theorem toStdString_eq (view : StringView) : view.toStdString = .ok view.whole := by
  have inside := view.inside
  exact copyBytes_eq (by rw [List.length_drop]; omega) view.position

theorem whole_faithful (view : StringView) : Faithful view view.whole :=
  ⟨rfl, fun _ member => List.mem_range'_1.mp member⟩

/-- A NUL stands right behind the view and none within it. -/
def Terminated (view : StringView) : Prop := 0 ∉ view.chars ∧ view.buffer[view.position + view.length]? = some 0

/-- Where the text is right, the NUL behind the view was read. -/
theorem data_unfaithful {view : StringView} {copied : Copied} (read : view.data = .ok copied) :
    ¬ Faithful view copied := by
  intro faithful
  have last : view.position + view.length ∈ copied.places := by
    rw [copyCString_places read, List.mem_range'_1, faithful.text, chars_length]
    omega
  have bound := (faithful.places _ last).2
  omega

theorem data_text_iff (view : StringView) :
    (∃ copied, view.data = .ok copied ∧ copied.text = view.chars) ↔ view.Terminated := by
  have split : view.buffer.drop view.position = view.chars ++ view.buffer.drop (view.position + view.length) := by
    rw [← List.drop_drop, chars, List.take_append_drop]
  constructor
  · intro ⟨copied, read, exact⟩
    obtain ⟨rest, same, whole⟩ := copyCString_shape read
    rw [exact] at same whole
    refine ⟨whole, ?_⟩
    have behind := List.append_cancel_left (split.symm.trans same)
    have first := congrArg List.head? behind
    rwa [List.head?_drop] at first
  · intro ⟨whole, next⟩
    have inside := (List.getElem?_eq_some_iff.mp next).1
    have behind := List.drop_eq_getElem_cons inside
    rw [(List.getElem?_eq_some_iff.mp next).2] at behind
    have read := copyCString_eq whole (view.buffer.drop (view.position + view.length + 1)) view.position
    rw [← behind, ← split] at read
    exact ⟨_, read, rfl⟩

end StringView

namespace TextCall

theorem texts_map {τ υ : Type} (f : τ → υ) (call : TextCall τ) : (call.map f).texts = call.texts.map f := by
  cases call <;> rfl

theorem map_map {τ υ φ : Type} (f : τ → υ) (g : υ → φ) (call : TextCall τ) : (call.map f).map g = call.map (g ∘ f) := by
  cases call <;> rfl

theorem map_congr {τ υ : Type} {f g : τ → υ} {call : TextCall τ} :
    call.map f = call.map g ↔ ∀ text ∈ call.texts, f text = g text := by
  cases call <;> simp [map, texts]

theorem direct_map {τ υ : Type} (f : τ → υ) (call : TextCall τ) : (call.map f).direct = call.direct := by
  cases call <;> rfl

theorem convert_direct {call : TextCall StringView} (direct : call.direct = true) :
    call.convert = .ok (call.map StringView.whole) := by
  cases call with
  | logMessage | startEntrySpan | startExitSpan => cases direct
  | startSpan | addTag | addLog | setPeer | setOperationName | createSW8HeaderValue =>
    simp only [convert, map, StringView.toStdString_eq, Outcome.ok_bind, Outcome.pure_eq]

theorem run_direct {call : TextCall StringView} (direct : call.direct = true) (context : TracingContextImpl) :
    call.run context = (call.map StringView.chars).perform context := by
  rw [run, convert_direct direct, Outcome.ok_bind, map_map]
  rfl

/-- A call that goes through the data of its only view. -/
theorem convert_data {call : TextCall StringView} (indirect : call.direct = false) :
    ∃ view, call.texts = [view] ∧ call.convert = view.data >>= fun copied => .ok (call.map fun _ => copied) := by
  cases call with
  | logMessage | startEntrySpan | startExitSpan => exact ⟨_, rfl, rfl⟩
  | startSpan | addTag | addLog | setPeer | setOperationName | createSW8HeaderValue => cases indirect

theorem honoured_iff (call : TextCall StringView) : call.Honoured ↔ call.direct = true := by
  constructor
  · intro honoured
    obtain ⟨copied, converted, exact, faithful⟩ := honoured.faithful
    by_contra indirect
    obtain ⟨view, single, converts⟩ := convert_data (Bool.eq_false_iff.mpr indirect)
    obtain ⟨text, read, same⟩ := Outcome.bind_eq_ok.mp (converts.symm.trans converted)
    cases same
    rw [texts_map, single] at faithful
    exact StringView.data_unfaithful read (List.forall₂_cons.mp faithful).1
  · intro direct
    refine ⟨⟨_, convert_direct direct, map_map _ _ _, ?_⟩, ?_⟩
    · rw [texts_map, List.forall₂_map_right_iff]
      exact List.forall₂_same.mpr fun view _ => view.whole_faithful
    · intro context other same
      have also : other.direct = true := by rw [← direct_map StringView.chars, same, direct_map, direct]
      rw [run_direct direct, run_direct also, same]

/-- The characters themselves come out right in one further case. -/
theorem exact_iff (call : TextCall StringView) :
    (∃ copied, call.convert = .ok copied ∧ copied.map Copied.text = call.map StringView.chars) ↔
      call.direct = true ∨ ∀ view ∈ call.texts, view.Terminated := by
  cases direct : call.direct with
  | true => exact ⟨fun _ => .inl rfl, fun _ => ⟨_, convert_direct direct, map_map _ _ _⟩⟩
  | false =>
    obtain ⟨view, single, converts⟩ := convert_data direct
    have agrees (copied : Copied) :
        (call.map fun _ => copied).map Copied.text = call.map StringView.chars ↔ copied.text = view.chars := by
      rw [map_map, map_congr, single, List.forall_mem_singleton]
      rfl
    rw [single, List.forall_mem_singleton, ← view.data_text_iff, converts]
    constructor
    · intro ⟨copied, converted, exact⟩
      obtain ⟨text, read, same⟩ := Outcome.bind_eq_ok.mp converted
      cases same
      exact .inr ⟨text, read, (agrees text).mp exact⟩
    · rintro (direct | ⟨text, read, exact⟩)
      · cases direct
      · exact ⟨_, by rw [read]; rfl, (agrees text).mpr exact⟩

end TextCall

theorem views_honoured_iff (call : TextCall StringView) :
    (call.Honoured ↔ call.direct = true) ∧
      ((∃ copied, call.convert = .ok copied ∧ copied.map Copied.text = call.map StringView.chars) ↔
        call.direct = true ∨ ∀ view ∈ call.texts, view.Terminated) :=
  ⟨call.honoured_iff, call.exact_iff⟩

/-- The first three characters of a longer text. -/
def substringView : StringView where
  buffer := asciiOf "GETxxxx" ++ [0]
  position := 0
  length := 3
  inside := by decide

/-- The same characters with nothing behind them. -/
def bareView : StringView where
  buffer := asciiOf "GET"
  position := 0
  length := 3
  inside := by decide

theorem view_length_lost :
    substringView.chars = asciiOf "GET" ∧ bareView.chars = asciiOf "GET" ∧
      ((TextCall.startEntrySpan substringView 1).run outgoingStart).toOption.map
          (fun result => result.1.segmentStore.spans.map SpanObject.operationName) = some [asciiOf "GETxxxx"] ∧
      (TextCall.startEntrySpan bareView 1).run outgoingStart = .error .outOfBounds ∧
      (TextCall.logMessage substringView).run outgoingStart ≠
        (TextCall.logMessage (StringView.literal (asciiOf "GET"))).run outgoingStart := by
  refine ⟨rfl, rfl, rfl, rfl, ?_⟩
  decide

end Cpp2Sky
