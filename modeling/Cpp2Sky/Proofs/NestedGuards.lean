import Cpp2Sky.Proofs.ApiDefined

/-! Programs whose guards are scopes. A guard is destroyed where its scope ends, so
the last one that was opened ends first, and its span is the one that it made. -/

namespace Cpp2Sky
open Runs

/-- A call in the body of a scope: one of the API, or one on a span that the program holds. -/
inductive ProgramCall where
  | api (call : ApiCall)
  | onSpan (span : Nat) (call : SpanCall)
  deriving DecidableEq

def ProgramCall.run (session : Session) : ProgramCall → Outcome Session
  | .api call => do
    let (session, _) ← call.run session
    return session
  | .onSpan span call => session.onSpan span fun span => call.run span

def Session.act (session : Session) (call : ProgramCall) : Option Session := (call.run session).toOption

/-- The body of a scope: other calls, and scopes of exit guards. -/
inductive Scopes where
  | done
  | also (call : ProgramCall) (rest : Scopes)
  | scope (parentSpan : Nat) (operationName : Bytes) (started ended : Int64) (body rest : Scopes)

namespace Scopes

def count : Scopes → Nat
  | .done => 0
  | .also _ rest => rest.count
  | .scope _ _ _ _ body rest => 1 + body.count + rest.count

/-- The calls of a body with so many guards open around it. -/
def calls (depth : Nat) : Scopes → List ProgramCall
  | .done => []
  | .also call rest => call :: rest.calls depth
  | .scope parentSpan operationName started ended body rest =>
    .api (.startExitSpan parentSpan operationName started) :: body.calls (depth + 1) ++
      .api (.endGuard depth ended) :: rest.calls depth

end Scopes

/-- Neither a creation nor an end. A call that asserts that its span is not finished
is one on the span of a guard that is still open. -/
def ProgramCall.Inner (opened : Nat) (guards : List Nat) : ProgramCall → Prop
  | .onSpan span call => call.finishes = false ∧ span < opened ∧ (call.guarded = true → span ∈ guards)
  | .api (.createSW8HeaderValue _) | .api .readyToSend | .api (.logMessage _) => True
  | .api _ => False

/-- Each exit guard is given the span of a guard that was opened before it. -/
def Scopes.Nested : Nat → List Nat → Scopes → Prop
  | _, _, .done => True
  | opened, guards, .also call rest => call.Inner opened guards ∧ rest.Nested opened guards
  | opened, guards, .scope parentSpan _ _ _ body rest =>
    parentSpan < opened ∧ body.Nested (opened + 1) (guards ++ [opened]) ∧ rest.Nested (opened + 1 + body.count) guards

/-- One entry guard around a body. -/
structure GuardProgram where
  operationName : Bytes
  started : Int64
  ended : Int64
  body : Scopes
  nested : body.Nested 1 [0]

def GuardProgram.calls (program : GuardProgram) : List ProgramCall :=
  .api (.startEntrySpan program.operationName program.started) :: program.body.calls 1 ++ [.api (.endGuard 0 program.ended)]

def GuardProgram.count (program : GuardProgram) : Nat := 1 + program.body.count

/-- The call opens a guard under that name. -/
def ProgramCall.Opens (operationName : Bytes) : ProgramCall → Prop
  | .api (.startEntrySpan name _) | .api (.startExitSpan _ name _) => name = operationName
  | _ => False

/-- With a guard open the segment is not ready. A guard that is opened adds its own
span behind the others, and one that is destroyed finds its span unfinished. -/
structure Proper (session : Session) (call : ProgramCall) : Prop where
  unready : session.guards ≠ [] → session.context.readyToSend = false
  opens : ∀ operationName, call.Opens operationName → ∃ next span, session.act call = some next ∧
    next.context.view = session.context.view ++ [span] ∧ next.guards = session.guards ++ [session.context.view.length] ∧
    span.spanStore.operationName = operationName ∧ span.finished = false
  ends : ∀ guard time, call = .api (.endGuard guard time) → ∃ place span, session.guards[guard]? = some place ∧
    session.spans[place]? = some (.own place) ∧ session.context.span place = .ok span ∧ span.finished = false

/-- The spans of a program up to some call: which of them are finished, and which
are those of open guards. -/
structure Holds (session : Session) (flags : List Bool) (guards : List Nat) : Prop where
  linked : Linked session.context
  finished : session.context.view.map TracingSpanImpl.finished = flags
  own : session.spans = (List.range flags.length).map ParentSpan.own
  opened : session.guards = guards
  unfinished : ∀ place ∈ guards, flags[place]? = some false

namespace Holds
variable {session : Session} {flags : List Bool} {guards : List Nat} (holds : Holds session flags guards)
include holds

theorem length : session.context.view.length = flags.length := by
  rw [← holds.finished, List.length_map]

theorem span {place : Nat} (inside : place < flags.length) :
    ∃ span, session.context.span place = .ok span ∧ session.spans[place]? = some (.own place) ∧
      flags[place]? = some span.finished := by
  obtain ⟨span, found, _⟩ := holds.linked.span_lt (show place < session.context.spans.length by
    rwa [← holds.linked.view_length, holds.length])
  refine ⟨span, found, by simp [holds.own, inside], ?_⟩
  rw [← holds.finished, List.getElem?_map, holds.linked.span_iff.mp found]
  rfl

theorem unready (some : guards ≠ []) : session.context.readyToSend = false := by
  obtain ⟨place, member⟩ := List.exists_mem_of_ne_nil guards some
  have unfinished := holds.unfinished place member
  rw [holds.linked.readyToSend_eq, List.all_eq_false]
  rw [← holds.finished, List.getElem?_map, Option.map_eq_some_iff] at unfinished
  obtain ⟨span, present, unfinished⟩ := unfinished
  exact ⟨span, List.mem_of_getElem? present, by rw [unfinished]; exact Bool.false_ne_true⟩

/-- A guard is opened with a new span. -/
theorem push {span : TracingSpanImpl} (number : span.spanStore.spanId = Int32.ofNat session.context.spans.length)
    (unfinished : span.finished = false) :
    Holds (session.created (session.context.pushBack span) session.context.spans.length).guarded (flags ++ [false])
      (guards ++ [flags.length]) := by
  have length := holds.length
  refine ⟨holds.linked.pushBack number, ?_, ?_, ?_, ?_⟩
  · simp [Session.guarded, Session.created, holds.linked.view_pushBack, holds.finished, unfinished]
  · simp [Session.guarded, Session.created, holds.own, List.range_succ, ← holds.linked.view_length, length]
  · simp [Session.guarded, Session.created, holds.own, holds.opened]
  · intro place member
    rcases List.mem_append.mp member with old | new
    · have before := holds.unfinished place old
      rwa [List.getElem?_append_left (List.getElem?_eq_some_iff.mp before).1]
    · rw [List.mem_singleton.mp new]
      simp

theorem lt {place : Nat} (member : place ∈ guards) : place < flags.length :=
  (List.getElem?_eq_some_iff.mp (holds.unfinished place member)).1

/-- A call on a span changes at most its own flag. -/
theorem onSpan {place : Nat} {span changed : TracingSpanImpl} {call : SpanCall}
    (found : session.context.span place = .ok span) (ran : call.run span = .ok changed) {after : List Nat}
    (fewer : ∀ guard ∈ after, guard ∈ guards) (kept : call.finishes = true → place ∉ after) :
    Holds { session with context := session.context.setSpan place changed, guards := after }
      (flags.set place changed.finished) after := by
  refine ⟨holds.linked.changed found ran, ?_, ?_, rfl, ?_⟩
  · simp only [holds.linked.view_setSpan found, List.map_set, holds.finished]
  · simp only [List.length_set, holds.own]
  · intro guard member
    have before := holds.unfinished guard (fewer guard member)
    by_cases same : place = guard
    · subst same
      have open_ : call.finishes = false := by
        by_contra finishes
        exact kept (Bool.not_eq_false _ ▸ finishes) member
      have flag : flags[place]? = some span.finished := by
        rw [← holds.finished, List.getElem?_map, holds.linked.span_iff.mp found]
        rfl
      have unfinished : changed.finished = false := by
        rw [(run_ok ran).2, open_, Bool.or_false]
        exact Option.some.inj (flag.symm.trans before)
      rw [List.getElem?_set_self (holds.lt (fewer place member)), unfinished]
    · rwa [List.getElem?_set_ne same]

/-- A call on a span that it does not end leaves all flags. -/
theorem work {place : Nat} {call : SpanCall} (inner : (ProgramCall.onSpan place call).Inner flags.length guards) :
    ∃ next, session.act (.onSpan place call) = some next ∧ Holds next flags guards := by
  obtain ⟨unending, inside, asserts⟩ := inner
  obtain ⟨span, found, own, flag⟩ := holds.span inside
  have allowed : (call.guarded && span.finished) = false := by
    cases guarded : call.guarded with
    | false => rfl
    | true => exact Option.some.inj (flag.symm.trans (holds.unfinished place (asserts guarded)))
  let changed : TracingSpanImpl := { finished := span.finished || call.finishes, spanStore := call.write span.spanStore }
  have ran : call.run span = .ok changed := by
    rw [run_eq, allowed]
    rfl
  have kept := holds.onSpan found ran (fun _ => id) (fun ends => absurd ends (Bool.eq_false_iff.mp unending))
  have same : flags.set place changed.finished = flags := by
    have flag : changed.finished = flags[place] := by
      rw [List.getElem?_eq_getElem inside] at flag
      rw [Option.some.inj flag]
      simp only [changed, unending, Bool.or_false]
    rw [flag, List.set_getElem_self]
  rw [same] at kept
  refine ⟨{ session with context := session.context.setSpan place changed }, ?_, ?_⟩
  · simp only [Session.act, ProgramCall.run, Session.onSpan, own, TracingContextImpl.onSpan, found, ran, Outcome.ok_bind]
    rfl
  · have opened := holds.opened
    subst opened
    exact kept

theorem spans_ne_nil (within : guards ≠ []) : session.context.spans ≠ [] := by
  obtain ⟨place, member⟩ := List.exists_mem_of_ne_nil guards within
  have inside := holds.lt member
  apply List.ne_nil_of_length_pos
  rw [← holds.linked.view_length, holds.length]
  exact Nat.zero_lt_of_lt inside

theorem inner (within : guards ≠ []) {call : ProgramCall} (inner : call.Inner flags.length guards) :
    ∃ next, session.act call = some next ∧ Holds next flags guards := by
  cases call with
  | onSpan place call => exact holds.work inner
  | api call =>
    refine ⟨session, ?_, holds⟩
    cases call with
    | readyToSend => rfl
    | logMessage message =>
      simp only [Session.act, ProgramCall.run, ApiCall.run, holds.linked.logMessage_eq, Outcome.ok_bind]
      rfl
    | createSW8HeaderValue targetAddress =>
      obtain ⟨header, returns, _⟩ := holds.linked.createSW8HeaderValue (holds.spans_ne_nil within) targetAddress
      simp only [Session.act, ProgramCall.run, ApiCall.run, returns, Outcome.ok_bind]
      rfl
    | _ => exact inner.elim

/-- The destructor of the last guard ends that guard's span. -/
theorem close {front : List Nat} {place : Nat} (last : guards = front ++ [place]) (new : place ∉ front) (time : Int64) :
    ∃ next span, session.act (.api (.endGuard front.length time)) = some next ∧
      session.guards[front.length]? = some place ∧ session.spans[place]? = some (.own place) ∧
      session.context.span place = .ok span ∧ span.finished = false ∧ Holds next (flags.set place true) front := by
  subst last
  have member : place ∈ front ++ [place] := by simp
  obtain ⟨span, found, own, flag⟩ := holds.span (holds.lt member)
  have unfinished : span.finished = false := Option.some.inj (flag.symm.trans (holds.unfinished place member))
  have guard : session.guards[front.length]? = some place := by simp [holds.opened]
  let changed : TracingSpanImpl := { finished := true, spanStore := { span.spanStore with endTime := time } }
  have ran : (SpanCall.endSpan time).run span = .ok changed := by
    rw [run_eq, unfinished]
    rfl
  have ends : span.endSpanImpl time = .ok changed := ran
  have kept := holds.onSpan found ran (fun _ inside => List.mem_append_left _ inside) (fun _ => new)
  refine ⟨_, span, ?_, guard, own, found, unfinished, kept⟩
  have erased : session.guards.eraseIdx front.length = front := by
    rw [holds.opened, List.eraseIdx_append_of_length_le (Nat.le_refl _), Nat.sub_self]
    simp
  simp only [Session.act, ProgramCall.run, ApiCall.run, guard, Session.onSpan, own, TracingContextImpl.onSpan, found, ends,
    Outcome.ok_bind, Outcome.pure_eq, erased]
  rfl

end Holds

section Steps
variable {session : Session} {flags : List Bool} {guards : List Nat} (holds : Holds session flags guards)
include holds

private theorem open_step (within : guards ≠ []) {parentSpan : Nat} (inside : parentSpan < flags.length) (operationName : Bytes)
    (time : Int64) :
    Proper session (.api (.startExitSpan parentSpan operationName time)) ∧
    ∃ next, session.act (.api (.startExitSpan parentSpan operationName time)) = some next ∧
      Holds next (flags ++ [false]) (guards ++ [flags.length]) := by
  obtain ⟨parent, found, own, _⟩ := holds.span inside
  let span := (session.context.exitSpan parent.spanStore.spanId).startSpanImpl operationName time
  have moved : session.act (.api (.startExitSpan parentSpan operationName time)) =
      some (session.created (session.context.pushBack span) session.context.spans.length).guarded := by
    simp only [Session.act, ProgramCall.run, ApiCall.run, Session.parent, own, ParentSpan.read, found, startExitSpan_eq,
      Outcome.ok_bind]
    rfl
  have kept : Holds (session.created (session.context.pushBack span) session.context.spans.length).guarded (flags ++ [false])
      (guards ++ [flags.length]) := holds.push rfl rfl
  refine ⟨⟨fun _ => holds.unready within, ?_, ?_⟩, _, moved, kept⟩
  · intro name opens
    obtain rfl : operationName = name := opens
    refine ⟨_, span, moved, holds.linked.view_pushBack span, ?_, rfl, rfl⟩
    rw [kept.opened, holds.opened, holds.length]
  · intro guard time same
    cases same

private theorem inner_step (within : guards ≠ []) {call : ProgramCall} (inner : call.Inner flags.length guards) :
    Proper session call ∧ ∃ next, session.act call = some next ∧ Holds next flags guards := by
  refine ⟨⟨fun _ => holds.unready within, ?_, ?_⟩, holds.inner within inner⟩
  · intro name opens
    cases call with
    | onSpan => exact opens.elim
    | api call => cases call <;> first | exact opens.elim | exact inner.elim
  · intro guard time same
    subst same
    exact inner.elim

private theorem close_step {front : List Nat} {place : Nat} (last : guards = front ++ [place]) (new : place ∉ front)
    (time : Int64) :
    Proper session (.api (.endGuard front.length time)) ∧
    ∃ next, session.act (.api (.endGuard front.length time)) = some next ∧ Holds next (flags.set place true) front := by
  obtain ⟨next, span, moved, guard, own, found, unfinished, kept⟩ := holds.close last new time
  refine ⟨⟨fun _ => holds.unready (by simp [last]), fun _ opens => opens.elim, ?_⟩, next, moved, kept⟩
  intro index other same
  cases same
  exact ⟨place, span, guard, own, found, unfinished⟩

end Steps

private theorem flags_closed (flags : List Bool) (count : Nat) :
    ((flags ++ [false]) ++ List.replicate count true).set flags.length true = flags ++ List.replicate (1 + count) true := by
  simp [Nat.add_comm 1, List.replicate_succ]

/-- A body leaves the guards around it as they are, and only finished spans behind. -/
private theorem scopes_run (scopes : Scopes) {session : Session} {flags : List Bool} {guards : List Nat}
    (holds : Holds session flags guards) (open_ : guards ≠ []) (nested : scopes.Nested flags.length guards) :
    ∃ next, exec Session.act session (scopes.calls guards.length) = some next ∧
      Along Session.act Proper session (scopes.calls guards.length) ∧
      Holds next (flags ++ List.replicate scopes.count true) guards := by
  induction scopes generalizing session flags guards with
  | done => exact ⟨session, rfl, True.intro, by simpa [Scopes.count] using holds⟩
  | also call rest ih =>
    obtain ⟨inner, others⟩ := nested
    obtain ⟨proper, next, moved, kept⟩ := inner_step holds open_ inner
    obtain ⟨final, executed, along, after⟩ := ih kept open_ others
    refine ⟨final, ?_, (Along.cons_some moved).mpr ⟨proper, along⟩, after⟩
    rw [Scopes.calls, exec_cons, moved]
    exact executed
  | scope parentSpan operationName started ended body rest inside outside =>
    obtain ⟨earlier, within, behind⟩ := nested
    obtain ⟨starts, opened, moved, first⟩ := open_step holds open_ earlier operationName started
    -- The new span lies behind those of the guards around it, so its end touches none of them.
    have new : flags.length ∉ guards := fun member => Nat.lt_irrefl _ (holds.lt member)
    obtain ⟨filled, executed, along, second⟩ := inside first (by simp) (by simpa using within)
    obtain ⟨ends, closed, erased, third⟩ := close_step second rfl new ended
    rw [flags_closed] at third
    obtain ⟨final, others, later, last⟩ := outside third open_ (by simpa [Nat.add_assoc] using behind)
    have deeper : (guards ++ [flags.length]).length = guards.length + 1 := by simp
    rw [deeper] at executed along
    refine ⟨final, ?_, ?_, ?_⟩
    · rw [Scopes.calls, List.cons_append, exec_cons, moved, Option.bind_some, exec_append, executed, Option.bind_some,
        exec_cons, erased]
      exact others
    · apply (Along.cons_some moved).mpr
      exact ⟨starts, along.append executed ((Along.cons_some erased).mpr ⟨ends, later⟩)⟩
    · rw [Scopes.count, List.replicate_add, ← List.append_assoc]
      exact last

/-- The entry guard is opened where there is no span yet. -/
private theorem entry_step {start : TracingContextImpl} (linked : Linked start) (fresh : start.spans = [])
    (operationName : Bytes) (time : Int64) :
    Proper { context := start } (.api (.startEntrySpan operationName time)) ∧
    ∃ next, Session.act { context := start } (.api (.startEntrySpan operationName time)) = some next ∧
      Holds next [false] [0] := by
  have nothing : start.view = [] := linked.view_eq_nil.mpr fresh
  have initial : Holds { context := start } [] [] :=
    ⟨linked, by simp [nothing], rfl, rfl, fun _ member => by cases member⟩
  let entry := start.entrySpan.startSpanImpl operationName time
  have moved : Session.act { context := start } (.api (.startEntrySpan operationName time)) =
      some (Session.created { context := start } (start.pushBack entry) start.spans.length).guarded := by
    simp only [Session.act, ProgramCall.run, ApiCall.run, startEntrySpan_first fresh, Outcome.ok_bind]
    rfl
  have opened : Holds (Session.created { context := start } (start.pushBack entry) start.spans.length).guarded [false] [0] :=
    initial.push rfl rfl
  refine ⟨⟨fun open_ => absurd rfl open_, ?_, ?_⟩, _, moved, opened⟩
  · intro name opens
    obtain rfl : operationName = name := opens
    refine ⟨_, entry, moved, linked.view_pushBack entry, ?_, rfl, rfl⟩
    rw [opened.opened, nothing]
    rfl
  · intro guard time same
    cases same

/-- Every guard closes its own span, in whatever tree the scopes lie. -/
theorem guards_close_spans {ρ : Type} {uuid : ρ → Bytes × ρ} {factory rest : TracingContextFactory ρ} {made : FactoryCall}
    {start : TracingContextImpl} (created : made.run uuid factory = .ok (start, rest)) (program : GuardProgram) :
    ∃ final, exec Session.act { context := start } program.calls = some final ∧
      Along Session.act Proper { context := start } program.calls ∧ final.guards = [] ∧
      final.context.view.length = program.count ∧
      (∀ index span, final.context.view[index]? = some span →
        span.spanStore.spanId = Int32.ofNat index ∧ span.finished = true) ∧
      final.context.readyToSend = true := by
  obtain ⟨linked, fresh, _⟩ := factory_made created
  obtain ⟨begins, opened, moved, first⟩ := entry_step linked fresh program.operationName program.started
  obtain ⟨filled, executed, along, inside⟩ := scopes_run program.body first (List.cons_ne_nil 0 []) program.nested
  have alone : (0 : Nat) ∉ ([] : List Nat) := List.not_mem_nil
  obtain ⟨ends, final, erased, closed⟩ := close_step inside (List.nil_append [0]).symm alone program.ended
  have flags : ([false] ++ List.replicate program.body.count true).set 0 true = List.replicate program.count true := by
    rw [GuardProgram.count, Nat.add_comm, List.replicate_succ]
    rfl
  rw [flags] at closed
  have finished : ∀ span ∈ final.context.view, span.finished = true := by
    intro span member
    have flag := List.mem_map_of_mem (f := TracingSpanImpl.finished) member
    rw [closed.finished] at flag
    exact List.eq_of_mem_replicate flag
  refine ⟨final, ?_, ?_, closed.opened, ?_, ?_, ?_⟩
  · rw [GuardProgram.calls, List.cons_append, exec_cons, moved, Option.bind_some]
    exact exec_concat.mpr ⟨filled, executed, erased⟩
  · apply (Along.cons_some moved).mpr
    exact ⟨begins, along.append executed ((Along.cons_some erased).mpr ⟨ends, True.intro⟩)⟩
  · rw [closed.length, List.length_replicate]
  · intro index span present
    have object := closed.linked.object (closed.linked.span_iff.mpr present)
    exact ⟨closed.linked.number index _ object, finished span (List.mem_of_getElem? present)⟩
  · rw [closed.linked.readyToSend_eq, List.all_eq_true]
    exact finished

/-- Scopes one in another and side by side, the last with a span as parent that has ended. -/
def nestedProgram : GuardProgram where
  operationName := ascii ['/', 'a']
  started := 1
  ended := 8
  body :=
    .scope 0 (ascii ['/', 'b']) 2 5
      (.also (.onSpan 0 (.addTag (ascii ['k']) (ascii ['v']))) (.scope 1 (ascii ['/', 'c']) 3 4 .done .done))
      (.also (.api (.createSW8HeaderValue [])) (.scope 2 (ascii ['/', 'd']) 6 7 .done .done))
  nested := by simp [Scopes.Nested, Scopes.count, ProgramCall.Inner, SpanCall.finishes]

theorem guards_close_spans_nested :
    ∃ final, exec Session.act { context := plainContext } nestedProgram.calls = some final ∧
      final.context.view.length = 4 ∧ final.context.readyToSend = true := by
  obtain ⟨final, executed, _, _, count, _, ready⟩ := guards_close_spans plain_created nestedProgram
  exact ⟨final, executed, count, ready⟩

end Cpp2Sky
