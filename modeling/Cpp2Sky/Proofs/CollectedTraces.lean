import Cpp2Sky.Deployment
import Cpp2Sky.Library.Observation
import Cpp2Sky.Proofs.MeshTraces
import Cpp2Sky.Proofs.SegmentDelivery

/-! What the collector receives. Services with their tracers and reporters refine
the contexts alone, and the messages that they write are segments of these, so
that the traces are what the contexts make them. -/

namespace Cpp2Sky
open Runs

variable {ρ : Type} {uuid : ρ → Bytes × ρ} {simpleAtoi : Bytes → Option Int32}

section Tracers
variable {before after : Tracer ρ} {index : Nat} {header : Option Nat} {tracked : Tracked}

private theorem Tracer.node_found (found : before.contexts[index]? = some tracked) :
    before.node index header = some { header, context := tracked.context, collected := before.collected index } := by
  rw [Tracer.node, found, Option.map_some]

private theorem collected_none (unreported : ¬ before.reported index) : before.collected index = none := by
  rw [Tracer.collected, Option.map_eq_none_iff, List.find?_eq_none]
  intro handed member same
  exact unreported (List.mem_map.mpr ⟨handed, member, of_decide_eq_true same⟩)

private theorem collected_some {handed : Handed} (once : (before.handed.map Handed.index).Nodup) (member : handed ∈ before.handed) :
    before.collected handed.index = some handed.segment := by
  cases first : before.handed.find? fun other => other.index = handed.index with
  | none => simpa using List.find?_eq_none.mp first handed member
  | some other =>
    have same : other.index = handed.index := by simpa using List.find?_some first
    obtain rfl := List.inj_on_of_nodup_map once (List.mem_of_find?_eq_some first) member same
    rw [Tracer.collected, first, Option.map_some]

private theorem collected_append {handed : Handed} (appended : after.handed = before.handed ++ [handed])
    (unreported : ¬ before.reported handed.index) (other : Nat) :
    after.collected other = if handed.index = other then some handed.segment else before.collected other := by
  rw [Tracer.collected, appended, List.find?_append]
  by_cases same : handed.index = other
  · subst same
    have none := Option.map_eq_none_iff.mp (collected_none unreported)
    rw [if_pos rfl, none]
    simp
  · simp [same, Tracer.collected]

private theorem Tracer.node_set {new : Tracked} (found : before.contexts[index]? = some tracked)
    (contexts : after.contexts = before.contexts.set index new) (other : Nat) :
    after.node other header = if index = other then
        some { header, context := new.context, collected := after.collected other }
      else before.contexts[other]?.map fun tracked => { header, context := tracked.context, collected := after.collected other } := by
  rw [Tracer.node, contexts]
  by_cases same : index = other
  · subst same
    rw [List.getElem?_set_self (List.getElem?_eq_some_iff.mp found).1, if_pos rfl, Option.map_some]
  · rw [List.getElem?_set_ne same, if_neg same]

end Tracers

namespace Deployment
variable {deployment before after : Deployment ρ} {service context place : Nat} {origin : Origin} {tracerImpl moved : TracerImpl ρ}

/-- The context has not been reported. -/
def live (deployment : Deployment ρ) (service context : Nat) : Bool :=
  deployment.services[service]?.all fun tracerImpl => !decide (tracerImpl.tracer.reported context)

/-- As for contexts alone: none is used after its report, and parent ids, types
and references are left to the creation of spans. -/
def Orderly (deployment : Deployment ρ) : DeploymentCall ρ → Prop
  | .createInsecureGrpcTracer _ _ | .newContext _ _ => True
  | .createSW8HeaderValue service context _ => deployment.live service context ∧
    (deployment.services[service]?.bind fun tracerImpl => tracerImpl.tracer.contexts[context]?).all fun tracked =>
      tracked.context.spans.length < 2 ^ 31
  | .tracer service (.context context call) => deployment.live service context ∧ call.plain ∧ call.shaped
  | .tracer service (.report _ (some context)) => deployment.live service context
  | .tracer _ (.newContext _) | .tracer _ (.report _ none) | .tracer _ .destructor | .tracer _ (.reporter _) => True

instance (deployment : Deployment ρ) : (call : DeploymentCall ρ) → Decidable (deployment.Orderly call)
  | .createInsecureGrpcTracer _ _ | .newContext _ _ => .isTrue True.intro
  | .createSW8HeaderValue _ _ _ | .tracer _ (.context _ _) => inferInstanceAs (Decidable (_ ∧ _))
  | .tracer _ (.report _ (some _)) => inferInstanceAs (Decidable (_ = true))
  | .tracer _ (.newContext _) | .tracer _ (.report _ none) | .tracer _ .destructor | .tracer _ (.reporter _) => .isTrue True.intro

/-- Each context has one place in the order of creation, and each service is as
its own calls have left it. -/
structure Valid (deployment : Deployment ρ) : Prop where
  present : ∀ origin ∈ deployment.origins, (deployment.node origin).isSome
  once : (deployment.origins.map Origin.key).Nodup
  every : ∀ service tracerImpl, deployment.services[service]? = some tracerImpl →
    ∀ context < tracerImpl.tracer.contexts.length, (service, context) ∈ deployment.origins.map Origin.key
  joined : ∀ tracerImpl ∈ deployment.services, tracerImpl.Joined
  honest : ∀ tracerImpl ∈ deployment.services, tracerImpl.tracer.Honest

private theorem filterMap_present {α β : Type} {f : α → Option β} {items : List α} (present : ∀ item ∈ items, (f item).isSome) :
    (items.filterMap f).map some = items.map f := by
  induction items with
  | nil => rfl
  | cons item rest ih =>
    obtain ⟨first, others⟩ := List.forall_mem_cons.mp present
    obtain ⟨made, same⟩ := Option.isSome_iff_exists.mp first
    rw [List.filterMap_cons_some same, List.map_cons, List.map_cons, ih others, same]

private theorem nodes_map (present : ∀ origin ∈ deployment.origins, (deployment.node origin).isSome) :
    deployment.mesh.nodes.map some = deployment.origins.map deployment.node := filterMap_present present

theorem Valid.node_at (valid : deployment.Valid) (found : deployment.origins[place]? = some origin) :
    deployment.mesh.nodes[place]? = deployment.node origin := by
  have same := congrArg (fun nodes : List (Option Node) => nodes[place]?) (nodes_map valid.present)
  simp only [List.getElem?_map, found, Option.map_some] at same
  obtain ⟨node, there, names⟩ := Option.map_eq_some_iff.mp same
  rw [there, names]

theorem Valid.placed (valid : deployment.Valid) (found : deployment.services[service]? = some tracerImpl)
    (inside : context < tracerImpl.tracer.contexts.length) :
    ∃ origin, deployment.origins[deployment.place service context]? = some origin ∧ origin.key = (service, context) := by
  obtain ⟨origin, member, key⟩ := List.mem_map.mp (valid.every service tracerImpl found context inside)
  have present : ∃ origin ∈ deployment.origins, decide (origin.key = (service, context)) = true :=
    ⟨origin, member, decide_eq_true key⟩
  have first := List.findIdx_getElem?_eq_getElem_of_exists present
  exact ⟨_, first, by simpa using List.findIdx_of_getElem?_eq_some first⟩

private theorem node_isSome : (deployment.node origin).isSome ↔
    ∃ tracerImpl, deployment.services[origin.service]? = some tracerImpl ∧ origin.context < tracerImpl.tracer.contexts.length := by
  cases found : deployment.services[origin.service]? with
  | none => simp [node, found]
  | some tracerImpl => simp [node, found, Tracer.node]

private theorem mesh_same (origins : after.origins = before.origins) (headers : after.headers = before.headers)
    (nodes : ∀ origin ∈ before.origins, after.node origin = before.node origin) : after.mesh = before.mesh := by
  have same : before.origins.filterMap after.node = before.origins.filterMap before.node := List.filterMap_congr nodes
  rw [mesh, mesh, origins, headers, same]

/-- Where one context changes, one node does. -/
private theorem mesh_set {new : Node} (valid : before.Valid) (origins : after.origins = before.origins)
    (headers : after.headers = before.headers) (found : before.origins[place]? = some origin)
    (others : ∀ other ∈ before.origins, other.key ≠ origin.key → after.node other = before.node other)
    (changed : after.node origin = some new) :
    after.mesh = { before.mesh with nodes := before.mesh.nodes.set place new } := by
  have inside := (List.getElem?_eq_some_iff.mp found).1
  have lists : after.origins.map after.node = (before.origins.map before.node).set place (some new) := by
    rw [origins]
    apply List.ext_getElem?
    intro spot
    rw [List.getElem?_map, List.getElem?_set, List.length_map, List.getElem?_map]
    by_cases same : place = spot
    · subst same
      rw [found, if_pos rfl, if_pos inside, Option.map_some, changed]
    · rw [if_neg same]
      cases there : before.origins[spot]? with
      | none => rfl
      | some other =>
        apply congrArg some
        apply others other (List.mem_of_getElem? there)
        intro key
        have keys : (before.origins.map Origin.key)[place]? = (before.origins.map Origin.key)[spot]? := by
          rw [List.getElem?_map, List.getElem?_map, found, there, Option.map_some, Option.map_some, key]
        exact same ((List.getElem?_inj (by simpa using inside) valid.once).mp keys)
  have present : ∀ other ∈ after.origins, (after.node other).isSome := by
    rw [origins]
    intro other member
    by_cases key : other.key = origin.key
    · obtain rfl := List.inj_on_of_nodup_map valid.once member (List.mem_of_getElem? found) key
      rw [changed]
      rfl
    · rw [others other member key]
      exact valid.present other member
  have nodes : after.mesh.nodes = before.mesh.nodes.set place new := by
    apply List.map_injective_iff.mpr (Option.some_injective _)
    rw [nodes_map present, lists, ← nodes_map valid.present, List.map_set]
  rw [← nodes]
  exact congrArg (Mesh.mk after.mesh.nodes) headers

private theorem node_update (found : before.services[service]? = some tracerImpl)
    (services : after.services = before.services.set service moved) (other : Origin) :
    after.node other = if other.service = service then moved.tracer.node other.context other.header else before.node other := by
  rw [node, services]
  by_cases same : other.service = service
  · rw [if_pos same, same, List.getElem?_set_self (List.getElem?_eq_some_iff.mp found).1]
    rfl
  · rw [if_neg same, List.getElem?_set_ne fun eq => same eq.symm]
    rfl

private theorem Valid.moves (valid : before.Valid) (joined : moved.Joined) (honest : moved.tracer.Honest) :
    (∀ other ∈ before.services.set service moved, other.Joined) ∧
      ∀ other ∈ before.services.set service moved, other.tracer.Honest := by
  constructor
  · intro other member
    rcases List.mem_or_eq_of_mem_set member with old | rfl
    · exact valid.joined other old
    · exact joined
  · intro other member
    rcases List.mem_or_eq_of_mem_set member with old | rfl
    · exact valid.honest other old
    · exact honest

/-- A call on a service that creates no context. -/
private theorem Valid.called (valid : before.Valid) (found : before.services[service]? = some tracerImpl)
    (joined : moved.Joined) (honest : moved.tracer.Honest)
    (length : moved.tracer.contexts.length = tracerImpl.tracer.contexts.length) :
    Valid { before with services := before.services.set service moved } := by
  have inside := (List.getElem?_eq_some_iff.mp found).1
  obtain ⟨every, all⟩ := valid.moves joined honest
  refine ⟨?_, valid.once, ?_, every, all⟩
  · intro origin member
    obtain ⟨other, there, within⟩ := node_isSome.mp (valid.present origin member)
    apply node_isSome.mpr
    by_cases same : service = origin.service
    · subst same
      obtain rfl : tracerImpl = other := Option.some.inj (found.symm.trans there)
      exact ⟨moved, List.getElem?_set_self inside, by omega⟩
    · exact ⟨other, by rw [List.getElem?_set_ne same]; exact there, within⟩
  · intro other there present context within
    by_cases same : service = other
    · subst same
      obtain rfl : moved = there := Option.some.inj ((List.getElem?_set_self inside).symm.trans present)
      exact valid.every service tracerImpl found context (by omega)
    · rw [List.getElem?_set_ne same] at present
      exact valid.every other there present context within

/-- The calls on contexts alone that a call of a deployment is. -/
def matching (deployment : Deployment ρ) : DeploymentCall ρ → List (MeshCall ρ)
  | .createInsecureGrpcTracer _ _ => []
  | .newContext service header => deployment.services[service]?.toList.map fun tracerImpl =>
    .create tracerImpl.tracer.serviceName tracerImpl.tracer.instanceName header tracerImpl.tracer.randomGenerator
  | .createSW8HeaderValue service context targetAddress =>
    [.createSW8HeaderValue (deployment.place service context) targetAddress]
  | .tracer service (.context context call) => [.context (deployment.place service context) call]
  | .tracer service (.report _ (some context)) => deployment.services[service]?.toList.map fun tracerImpl =>
    .report (deployment.place service context) tracerImpl.tracer.ignoreMatcher
  | .tracer _ (.newContext _) | .tracer _ (.report _ none) | .tracer _ .destructor | .tracer _ (.reporter _) => []

/-- What is shown of each step, and of a run. -/
structure Matches (uuid : ρ → Bytes × ρ) (simpleAtoi : Bytes → Option Int32) (before : Deployment ρ) (calls : List (MeshCall ρ))
    (after : Deployment ρ) : Prop where
  executed : exec (Mesh.step uuid simpleAtoi) before.mesh calls = some after.mesh
  orderly : Along (Mesh.step uuid simpleAtoi) Cpp2Sky.Orderly before.mesh calls
  valid : after.Valid

private theorem matches_none (same : after.mesh = before.mesh) (valid : after.Valid) : Matches uuid simpleAtoi before [] after :=
  ⟨congrArg some same.symm, True.intro, valid⟩

private theorem matches_one {call : MeshCall ρ} (moved : before.mesh.step uuid simpleAtoi call = some after.mesh)
    (orderly : Cpp2Sky.Orderly before.mesh call) (valid : after.Valid) : Matches uuid simpleAtoi before [call] after := by
  refine ⟨?_, ⟨orderly, fun _ _ => True.intro⟩, valid⟩
  rw [exec_cons, moved]
  rfl

private theorem live_unreported (found : before.services[service]? = some tracerImpl) (live : before.live service context = true) :
    ¬ tracerImpl.tracer.reported context := by
  simpa [Deployment.live, found] using live

/-- Where a live context stands among all of them. -/
private theorem Valid.standing (valid : before.Valid) {tracked : Tracked} (found : before.services[service]? = some tracerImpl)
    (there : tracerImpl.tracer.contexts[context]? = some tracked) (live : before.live service context = true) :
    ∃ origin, before.origins[before.place service context]? = some origin ∧ origin.key = (service, context) ∧
      ¬ tracerImpl.tracer.reported context ∧ before.mesh.nodes[before.place service context]? =
        some { header := origin.header, context := tracked.context, collected := none } := by
  obtain ⟨origin, placed, key⟩ := valid.placed found (List.getElem?_eq_some_iff.mp there).1
  obtain ⟨rfl, rfl⟩ := Prod.mk.inj key
  have unreported := live_unreported found live
  refine ⟨origin, placed, rfl, unreported, ?_⟩
  have stands := valid.node_at placed
  rw [node, found] at stands
  rw [stands, ← collected_none unreported]
  exact Tracer.node_found there

section Steps
variable (valid : before.Valid) (found : before.services[service]? = some tracerImpl)
include valid found

/-- A service keeps its own invariants with each of its calls. -/
private theorem Valid.kept {call : TracerImplCall} (stepped : tracerImpl.step uuid call = some moved)
    (new : tracerImpl.ReportsNew call) : moved.Joined ∧ moved.tracer.Honest := by
  have member := List.mem_of_getElem? found
  have moves := tracerImpl_step_cases stepped
  exact ⟨moves.joined (valid.joined tracerImpl member), moves.honest new (valid.honest tracerImpl member)⟩

/-- The reporter moves, or a call leaves every context and every segment where it is. -/
private theorem Valid.still (joined : moved.Joined) (honest : moved.tracer.Honest)
    (contexts : moved.tracer.contexts = tracerImpl.tracer.contexts) (handed : moved.tracer.handed = tracerImpl.tracer.handed) :
    Matches uuid simpleAtoi before [] { before with services := before.services.set service moved } := by
  apply matches_none
  · refine mesh_same rfl rfl ?_
    intro origin member
    rw [node_update found rfl]
    by_cases same : origin.service = service
    · rw [if_pos same, node, same, found]
      show moved.tracer.node origin.context origin.header = tracerImpl.tracer.node origin.context origin.header
      rw [Tracer.node, Tracer.node, contexts]
      simp only [Tracer.collected, handed]
    · rw [if_neg same]
  · exact valid.called found joined honest (congrArg List.length contexts)

/-- One context changes, and no other has its segment handed over. -/
private theorem Valid.changed {tracked new : Tracked} {call : MeshCall ρ} {collected : Option SegmentObject}
    (joined : moved.Joined) (honest : moved.tracer.Honest)
    (there : tracerImpl.tracer.contexts[context]? = some tracked) (live : before.live service context = true)
    (contexts : moved.tracer.contexts = tracerImpl.tracer.contexts.set context new)
    (others : ∀ other, other ≠ context → moved.tracer.collected other = tracerImpl.tracer.collected other)
    (here : moved.tracer.collected context = collected)
    (stepped : ∀ header, before.mesh.nodes[before.place service context]? =
        some { header, context := tracked.context, collected := none } →
      Cpp2Sky.Orderly before.mesh call ∧ before.mesh.step uuid simpleAtoi call = some { before.mesh with
        nodes := before.mesh.nodes.set (before.place service context) { header, context := new.context, collected } }) :
    Matches uuid simpleAtoi before [call] { before with services := before.services.set service moved } := by
  obtain ⟨origin, placed, key, unreported, stands⟩ := valid.standing found there live
  obtain ⟨rfl, rfl⟩ := Prod.mk.inj key
  obtain ⟨orderly, executed⟩ := stepped origin.header stands
  have node (other : Origin) : node { before with services := before.services.set origin.service moved } other =
      if other.service = origin.service then moved.tracer.node other.context other.header else before.node other :=
    node_update found rfl other
  refine matches_one ?_ orderly (valid.called found joined honest (by rw [contexts, List.length_set]))
  rw [executed]
  apply congrArg some
  symm
  refine mesh_set valid rfl rfl placed ?_ ?_
  · intro other member differs
    rw [node]
    by_cases same : other.service = origin.service
    · have elsewhere : origin.context ≠ other.context := fun eq => differs (Prod.ext same eq.symm)
      rw [if_pos same, Tracer.node_set there contexts, if_neg elsewhere, Deployment.node, same, found,
        others other.context elsewhere.symm]
      rfl
    · rw [if_neg same]
  · rw [node, if_pos rfl, Tracer.node_set there contexts, if_pos rfl, here]

section Created
variable {tracked : Tracked} {header : Option Nat}
  (contexts : moved.tracer.contexts = tracerImpl.tracer.contexts ++ [tracked])
  (handed : moved.tracer.handed = tracerImpl.tracer.handed)
  (services : after.services = before.services.set service moved)
  (origins : after.origins = before.origins ++ [{ service, context := tracerImpl.tracer.contexts.length, header }])
include contexts handed services

private theorem Valid.created_old : ∀ origin ∈ before.origins, after.node origin = before.node origin := by
  intro origin member
  rw [node_update found services]
  by_cases same : origin.service = service
  · obtain ⟨there, present, within⟩ := node_isSome.mp (valid.present origin member)
    rw [same, found] at present
    obtain rfl := Option.some.inj present
    rw [if_pos same, node, same, found]
    show moved.tracer.node origin.context origin.header = tracerImpl.tracer.node origin.context origin.header
    rw [Tracer.node, Tracer.node, contexts, List.getElem?_append_left within]
    simp only [Tracer.collected, handed]
  · rw [if_neg same]

private theorem Valid.created_new : after.node { service, context := tracerImpl.tracer.contexts.length, header } =
    some { header, context := tracked.context } := by
  have unreported : ¬ moved.tracer.reported tracerImpl.tracer.contexts.length := by
    intro reported
    rw [Tracer.reported, handed] at reported
    exact Nat.lt_irrefl _ ((valid.honest tracerImpl (List.mem_of_getElem? found)).inside _ reported)
  rw [node_update found services, if_pos rfl, Tracer.node, contexts, List.getElem?_concat_length, Option.map_some,
    collected_none unreported]

include origins

/-- A new context is the last of its service and the last of all. -/
private theorem Valid.created_mesh (headers : after.headers = before.headers) :
    after.mesh = { before.mesh with nodes := before.mesh.nodes ++ [{ header, context := tracked.context }] } := by
  have old := valid.created_old found contexts handed services
  have new : after.node { service, context := tracerImpl.tracer.contexts.length, header } = some { header, context := tracked.context } :=
    valid.created_new found contexts handed services
  have nodes : after.mesh.nodes = before.mesh.nodes ++ [{ header, context := tracked.context }] := by
    rw [mesh, origins, List.filterMap_append, List.filterMap_congr old, List.filterMap_cons_some new]
    rfl
  rw [← nodes]
  exact congrArg (Mesh.mk after.mesh.nodes) headers

private theorem Valid.created (joined : moved.Joined) (honest : moved.tracer.Honest) : after.Valid := by
  have inside := (List.getElem?_eq_some_iff.mp found).1
  obtain ⟨joined, honest⟩ := valid.moves joined honest
  refine ⟨?_, ?_, ?_, services ▸ joined, services ▸ honest⟩
  · rw [origins]
    intro origin member
    rcases List.mem_append.mp member with there | last
    · rw [valid.created_old found contexts handed services origin there]
      exact valid.present origin there
    · rw [List.mem_singleton.mp last, valid.created_new found contexts handed services]
      rfl
  · rw [origins, List.map_append, List.map_singleton]
    refine List.nodup_append.mpr ⟨valid.once, List.pairwise_singleton _ _, ?_⟩
    intro key there last fresh same
    rw [List.mem_singleton.mp fresh] at same
    obtain ⟨origin, member, rfl⟩ := List.mem_map.mp there
    obtain ⟨holder, present, within⟩ := node_isSome.mp (valid.present origin member)
    obtain ⟨rfl, length⟩ := Prod.mk.inj same
    obtain rfl := Option.some.inj (found.symm.trans present)
    rw [length] at within
    exact Nat.lt_irrefl _ within
  · intro other there present context within
    rw [origins, List.map_append, List.mem_append]
    rw [services] at present
    by_cases same : service = other
    · subst same
      obtain rfl : moved = there := Option.some.inj ((List.getElem?_set_self inside).symm.trans present)
      rw [contexts, List.length_append, List.length_singleton] at within
      by_cases last : context < tracerImpl.tracer.contexts.length
      · exact .inl (valid.every service tracerImpl found context last)
      · obtain rfl : context = tracerImpl.tracer.contexts.length := by omega
        exact .inr (List.mem_singleton_self _)
    · rw [List.getElem?_set_ne same] at present
      exact .inl (valid.every other there present context within)

end Created

end Steps

private theorem new_contexts {config : TracerConfig} {random : ρ} (made : TracerImpl.new config none random = .ok tracerImpl) :
    tracerImpl.tracer.contexts = [] := by
  by_cases protocol : config.protocol ≠ .grpc
  · rw [TracerImpl.new, TracerImpl.init, if_pos protocol] at made
    cases made
  · rw [TracerImpl.new, TracerImpl.init, if_neg protocol] at made
    cases made
    rfl

private theorem toOption_some {α : Type} {outcome : Outcome α} {value : α} (returned : outcome.toOption = some value) :
    outcome = .ok value := by
  cases outcome with
  | error stop => cases returned
  | ok other => exact congrArg Except.ok (Option.some.inj returned)

private theorem Valid.started {config : TracerConfig} {random : ρ} (valid : before.Valid)
    (made : TracerImpl.new config none random = .ok tracerImpl) :
    Matches uuid simpleAtoi before [] { before with services := before.services ++ [tracerImpl] } := by
  obtain ⟨joined, honest⟩ := TracerImpl.constructed made
  have same : ∀ origin ∈ before.origins,
      node { before with services := before.services ++ [tracerImpl] } origin = before.node origin := by
    intro origin member
    obtain ⟨there, present, _⟩ := node_isSome.mp (valid.present origin member)
    rw [node, node, List.getElem?_append_left (List.getElem?_eq_some_iff.mp present).1]
  apply matches_none
  · exact mesh_same rfl rfl same
  · refine ⟨?_, valid.once, ?_, ?_, ?_⟩
    · intro origin member
      rw [same origin member]
      exact valid.present origin member
    · intro service other present context within
      rcases getElem?_last present with old | ⟨_, rfl⟩
      · exact valid.every service other old context within
      · rw [new_contexts made] at within
        exact absurd within (Nat.not_lt_zero _)
    · exact List.forall_mem_append.mpr ⟨valid.joined, List.forall_mem_singleton.mpr joined⟩
    · exact List.forall_mem_append.mpr ⟨valid.honest, List.forall_mem_singleton.mpr honest⟩

/-- The header that a context returned is known by its place. -/
private theorem Valid.sent {targetAddress : Bytes} {tracked : Tracked} {header : Option Bytes} (valid : before.Valid)
    (found : before.services[service]? = some tracerImpl) (there : tracerImpl.tracer.contexts[context]? = some tracked)
    (returned : (tracked.context.createSW8HeaderValue targetAddress).toOption = some header)
    (orderly : before.Orderly (.createSW8HeaderValue service context targetAddress)) :
    Matches uuid simpleAtoi before [.createSW8HeaderValue (before.place service context) targetAddress] { before with
      headers := before.headers ++ header.toList.map fun text => { text, node := before.place service context } } := by
  obtain ⟨live, few⟩ := orderly
  obtain ⟨origin, placed, key, unreported, stands⟩ := valid.standing found there live
  refine matches_one ?_ ⟨?_, ?_⟩ ⟨valid.present, valid.once, valid.every, valid.joined, valid.honest⟩
  · exact Option.bind_eq_some_iff.mpr ⟨_, stands, Option.bind_eq_some_iff.mpr ⟨_, returned, rfl⟩⟩
  · rw [Mesh.live, stands]
    rfl
  · rw [found, Option.bind_some, there] at few
    rw [stands]
    exact few

private theorem newContext_last {span : Option SpanContextImpl}
    (stepped : tracerImpl.step uuid (.newContext span) = some moved) :
    ∃ tracked, moved.tracer.contexts = tracerImpl.tracer.contexts ++ [tracked] ∧
      moved.tracer.handed = tracerImpl.tracer.handed ∧
      tracked.context = (TracingContextImpl.new uuid tracerImpl.tracer.serviceName tracerImpl.tracer.instanceName span none
        tracerImpl.tracer.randomGenerator).1 := by
  cases stepped
  exact ⟨_, rfl, rfl, rfl⟩

private theorem Valid.opened {header : Option Nat} {span : Option SpanContextImpl} (valid : before.Valid)
    (found : before.services[service]? = some tracerImpl) (received : before.receive simpleAtoi header = some span)
    (stepped : tracerImpl.step uuid (.newContext span) = some moved) :
    Matches uuid simpleAtoi before
      [.create tracerImpl.tracer.serviceName tracerImpl.tracer.instanceName header tracerImpl.tracer.randomGenerator]
      { before with
        services := before.services.set service moved
        origins := before.origins ++ [{ service, context := tracerImpl.tracer.contexts.length, header }] } := by
  obtain ⟨joined, honest⟩ := valid.kept found stepped True.intro
  obtain ⟨tracked, contexts, handed, created⟩ := newContext_last stepped
  refine matches_one ?_ True.intro (valid.created found contexts handed rfl rfl joined honest)
  refine Eq.trans ?_ (congrArg some (Eq.symm (valid.created_mesh found contexts handed rfl rfl rfl)))
  rw [created]
  cases header with
  | none =>
    cases received
    rfl
  | some header =>
    obtain ⟨sent, present, rest⟩ := Option.bind_eq_some_iff.mp received
    obtain ⟨parent, read, rest⟩ := Option.bind_eq_some_iff.mp rest
    cases rest
    exact Option.bind_eq_some_iff.mpr ⟨parent, Option.bind_eq_some_iff.mpr ⟨sent, present, read⟩, rfl⟩

private theorem Valid.ran {call : ContextCall} (valid : before.Valid) (found : before.services[service]? = some tracerImpl)
    (stepped : tracerImpl.step uuid (.context context call) = some moved)
    (orderly : before.Orderly (.tracer service (.context context call))) :
    Matches uuid simpleAtoi before [.context (before.place service context) call]
      { before with services := before.services.set service moved } := by
  obtain ⟨live, plain, shaped⟩ := orderly
  have unreported := live_unreported found live
  obtain ⟨joined, honest⟩ := valid.kept found stepped True.intro
  obtain ⟨tracer, called, rest⟩ := Option.bind_eq_some_iff.mp stepped
  cases rest
  obtain ⟨tracked, there, called⟩ := Option.bind_eq_some_iff.mp called
  obtain ⟨changed, ran, called⟩ := Option.bind_eq_some_iff.mp called
  cases called
  refine valid.changed found joined honest there live rfl (fun _ _ => rfl) (collected_none unreported) ?_
  intro header stands
  refine ⟨⟨?_, plain, shaped⟩, ?_⟩
  · rw [Mesh.live, stands]
    rfl
  · exact Option.bind_eq_some_iff.mpr ⟨_, stands, Option.bind_eq_some_iff.mpr ⟨_, ran, rfl⟩⟩

private theorem Valid.reported {thread : Nat} (valid : before.Valid) (found : before.services[service]? = some tracerImpl)
    (stepped : tracerImpl.step uuid (.report thread (some context)) = some moved) (live : before.live service context = true) :
    Matches uuid simpleAtoi before [.report (before.place service context) tracerImpl.tracer.ignoreMatcher]
      { before with services := before.services.set service moved } := by
  have unreported := live_unreported found live
  obtain ⟨joined, honest⟩ := valid.kept found stepped fun reported => absurd reported unreported
  obtain ⟨tracer, called, rest⟩ := Option.bind_eq_some_iff.mp stepped
  obtain ⟨tracked, there, called⟩ := Option.bind_eq_some_iff.mp called
  obtain ⟨⟨result, sent⟩, returned, called⟩ := Option.bind_eq_some_iff.mp called
  rcases report_cases (toOption_some returned) with ⟨_, rfl, rfl⟩ | ⟨_, rfl, rfl⟩
  · cases called
    simp only [Option.toList_none, List.map_nil, List.append_nil, List.getElem?_length] at rest
    cases rest
    have contexts : tracerImpl.tracer.contexts.set context tracked = tracerImpl.tracer.contexts := by
      obtain ⟨inside, rfl⟩ := List.getElem?_eq_some_iff.mp there
      exact List.set_getElem_self inside
    have still : Matches uuid simpleAtoi before [] _ := valid.still found joined honest contexts rfl
    obtain ⟨origin, placed, key, _, stands⟩ := valid.standing found there live
    refine matches_one ?_ ?_ still.valid
    · rw [← Option.some.inj still.executed]
      exact Option.bind_eq_some_iff.mpr ⟨_, stands, Option.bind_eq_some_iff.mpr ⟨_, returned, rfl⟩⟩
    · rw [Cpp2Sky.Orderly, Mesh.live, stands]
      rfl
  · cases called
    simp only [Option.toList_some, List.map_cons, List.map_nil, List.getElem?_concat_length] at rest
    obtain ⟨asyncClient, accepted, rest⟩ := Option.bind_eq_some_iff.mp rest
    cases rest
    refine valid.changed found joined honest there live rfl ?_ ((collected_append rfl unreported context).trans (if_pos rfl)) ?_
    · intro other differs
      exact (collected_append rfl unreported other).trans (if_neg differs.symm)
    · intro header stands
      constructor
      · rw [Cpp2Sky.Orderly, Mesh.live, stands]
        rfl
      · exact Option.bind_eq_some_iff.mpr ⟨_, stands, Option.bind_eq_some_iff.mpr ⟨_, returned, rfl⟩⟩

theorem Valid.step {call : DeploymentCall ρ} (valid : before.Valid) (orderly : before.Orderly call)
    (executed : before.step uuid simpleAtoi call = some after) :
    Matches uuid simpleAtoi before (before.matching call) after := by
  cases call with
  | createInsecureGrpcTracer config random =>
    obtain ⟨tracerImpl, made, rest⟩ := Option.bind_eq_some_iff.mp executed
    cases rest
    exact valid.started (toOption_some made)
  | newContext service header =>
    obtain ⟨tracerImpl, found, rest⟩ := Option.bind_eq_some_iff.mp executed
    obtain ⟨span, received, rest⟩ := Option.bind_eq_some_iff.mp rest
    obtain ⟨moved, stepped, rest⟩ := Option.bind_eq_some_iff.mp rest
    cases rest
    rw [matching, found]
    exact valid.opened found received stepped
  | createSW8HeaderValue service context targetAddress =>
    obtain ⟨tracerImpl, found, rest⟩ := Option.bind_eq_some_iff.mp executed
    obtain ⟨tracked, there, rest⟩ := Option.bind_eq_some_iff.mp rest
    obtain ⟨header, returned, rest⟩ := Option.bind_eq_some_iff.mp rest
    cases rest
    exact valid.sent found there returned orderly
  | tracer service call =>
    cases call with
    | newContext => cases executed
    | context context call =>
      obtain ⟨tracerImpl, found, rest⟩ := Option.bind_eq_some_iff.mp executed
      obtain ⟨moved, stepped, rest⟩ := Option.bind_eq_some_iff.mp rest
      cases rest
      exact valid.ran found stepped orderly
    | report thread context =>
      obtain ⟨tracerImpl, found, rest⟩ := Option.bind_eq_some_iff.mp executed
      obtain ⟨moved, stepped, rest⟩ := Option.bind_eq_some_iff.mp rest
      cases rest
      cases context with
      | none =>
        obtain ⟨joined, honest⟩ := valid.kept found stepped True.intro
        have same : moved.tracer.contexts = tracerImpl.tracer.contexts ∧ moved.tracer.handed = tracerImpl.tracer.handed := by
          rw [TracerImpl.step] at stepped
          obtain ⟨tracer, called, rest⟩ := Option.bind_eq_some_iff.mp stepped
          cases called
          simp only [List.getElem?_length] at rest
          cases rest
          exact ⟨rfl, rfl⟩
        exact valid.still found joined honest same.1 same.2
      | some context =>
        rw [matching, found]
        exact valid.reported found stepped orderly
    | destructor =>
      obtain ⟨tracerImpl, found, rest⟩ := Option.bind_eq_some_iff.mp executed
      obtain ⟨moved, stepped, rest⟩ := Option.bind_eq_some_iff.mp rest
      cases rest
      obtain ⟨joined, honest⟩ := valid.kept found stepped True.intro
      obtain ⟨asyncClient, _, rest⟩ := Option.bind_eq_some_iff.mp stepped
      cases rest
      exact valid.still found joined honest rfl rfl
    | reporter action =>
      obtain ⟨tracerImpl, found, rest⟩ := Option.bind_eq_some_iff.mp executed
      obtain ⟨moved, stepped, rest⟩ := Option.bind_eq_some_iff.mp rest
      cases rest
      obtain ⟨joined, honest⟩ := valid.kept found stepped True.intro
      have same : moved.tracer = tracerImpl.tracer := by
        cases action with
        | call | reset => cases stepped
        | _ =>
          obtain ⟨asyncClient, _, rest⟩ := Option.bind_eq_some_iff.mp stepped
          cases rest
          rfl
      exact valid.still found joined honest (congrArg Tracer.contexts same) (congrArg Tracer.handed same)

/-- Each message that a service has written is the segment of a context of that
service, which has left it, and no two are of one context. -/
structure Delivers (deployment : Deployment ρ) (service : Nat) (tracerImpl : TracerImpl ρ) (places : List Nat) : Prop where
  own : ∀ place ∈ places, ∃ origin, deployment.origins[place]? = some origin ∧ origin.service = service
  once : places.Nodup
  segments : (places.map fun place => deployment.mesh.nodes[place]?.bind Node.collected).Perm
    (tracerImpl.asyncClient.written.map fun written => some written.2)

private theorem Valid.delivers (valid : deployment.Valid) (found : deployment.services[service]? = some tracerImpl) :
    ∃ places, deployment.Delivers service tracerImpl places := by
  have member := List.mem_of_getElem? found
  have honest := valid.honest tracerImpl member
  obtain ⟨delivered, sublist, same⟩ := (valid.joined tracerImpl member).delivers.written
  have places : ∀ handed ∈ delivered, ∃ origin,
      deployment.origins[deployment.place service handed.index]? = some origin ∧ origin.key = (service, handed.index) ∧
        (deployment.mesh.nodes[deployment.place service handed.index]?.bind Node.collected) = some handed.segment := by
    intro handed inside
    have there := sublist.subset inside
    have within := honest.inside handed.index (List.mem_map.mpr ⟨handed, there, rfl⟩)
    obtain ⟨origin, placed, key⟩ := valid.placed found within
    obtain ⟨rfl, index⟩ := Prod.mk.inj key
    refine ⟨origin, placed, key, ?_⟩
    have tracked := List.getElem?_eq_getElem (index ▸ within : origin.context < tracerImpl.tracer.contexts.length)
    rw [valid.node_at placed, node, found]
    show (tracerImpl.tracer.node origin.context origin.header).bind Node.collected = _
    rw [Tracer.node_found tracked, Option.bind_some]
    show tracerImpl.tracer.collected origin.context = some handed.segment
    rw [index, collected_some honest.once there]
  refine ⟨delivered.map fun handed => deployment.place service handed.index, ?_, ?_, ?_⟩
  · intro place inside
    obtain ⟨handed, there, rfl⟩ := List.mem_map.mp inside
    obtain ⟨origin, placed, key, _⟩ := places handed there
    exact ⟨origin, placed, congrArg Prod.fst key⟩
  · have indices : (delivered.map Handed.index).Nodup := honest.once.sublist (sublist.map _)
    apply List.Nodup.map_on ?_ indices.of_map
    intro one first two second equal
    obtain ⟨origin, placed, key, _⟩ := places one first
    obtain ⟨other, placed', key', _⟩ := places two second
    rw [equal, placed'] at placed
    obtain rfl := Option.some.inj placed
    exact List.inj_on_of_nodup_map indices first second (congrArg Prod.snd (key.symm.trans key'))
  · have segments : (delivered.map fun handed => deployment.place service handed.index).map
        (fun place => deployment.mesh.nodes[place]?.bind Node.collected) = delivered.map fun handed => some handed.segment := by
      rw [List.map_map]
      apply List.map_congr_left
      intro handed there
      obtain ⟨_, _, _, collected⟩ := places handed there
      exact collected
    rw [segments]
    have wrapped := same.map some
    rwa [List.map_map, List.map_map] at wrapped

/-- The traces of the contexts, and the segments of them that were written. -/
structure Collected (deployment : Deployment ρ) : Prop where
  traced : deployment.mesh.Traced
  separated : deployment.mesh.Distinct → deployment.mesh.Separated
  delivered : ∀ service tracerImpl, deployment.services[service]? = some tracerImpl →
    ∃ places, deployment.Delivers service tracerImpl places
  references : ∀ tracerImpl ∈ deployment.services, ∀ written ∈ tracerImpl.asyncClient.written,
    ∀ store ∈ written.2.spans, ∀ reference ∈ store.refs, ∃ parent, deployment.mesh.Refers reference parent

private theorem Valid.references (valid : deployment.Valid) (traced : deployment.mesh.Traced) (member : tracerImpl ∈ deployment.services)
    {written : Nat × SegmentObject} (wrote : written ∈ tracerImpl.asyncClient.written) {store : SpanObject}
    (inside : store ∈ written.2.spans) {reference : SegmentReference} (refers : reference ∈ store.refs) :
    ∃ parent, deployment.mesh.Refers reference parent := by
  obtain ⟨service, found⟩ := List.getElem?_of_mem member
  obtain ⟨places, delivers⟩ := valid.delivers found
  have collected := delivers.segments.mem_iff.mpr (List.mem_map.mpr ⟨written, wrote, rfl⟩)
  obtain ⟨place, _, same⟩ := List.mem_map.mp collected
  obtain ⟨node, there, segment⟩ := Option.bind_eq_some_iff.mp same
  obtain ⟨index, present⟩ := List.getElem?_of_mem inside
  have whole : node.segment = written.2 := by rw [Node.segment, segment, Option.getD_some]
  have object : deployment.mesh.object (place, index) = some store := object_of_found there (by rw [whole]; exact present)
  obtain ⟨parent, _, names⟩ := traced.resolves (place, index) store reference object refers
  exact ⟨parent, names⟩

theorem collected_traces {calls : List (DeploymentCall ρ)} (reads : ReadsBack simpleAtoi)
    (orderly : Along (step uuid simpleAtoi) Orderly {} calls)
    (executed : exec (step uuid simpleAtoi) {} calls = some deployment) :
    exec (Mesh.step uuid simpleAtoi) {} (shown (step uuid simpleAtoi) matching {} calls) = some deployment.mesh ∧
      deployment.Collected := by
  have initial : Valid ({} : Deployment ρ) := by
    refine ⟨?_, List.nodup_nil, ?_, ?_, ?_⟩
    · exact fun _ member => absurd member List.not_mem_nil
    · intro service tracerImpl found
      cases found
    · exact fun _ member => absurd member List.not_mem_nil
    · exact fun _ member => absurd member List.not_mem_nil
  have matched : ∀ (before : Deployment ρ) call after, before.Valid → before.Orderly call →
      before.step uuid simpleAtoi call = some after →
      exec (Mesh.step uuid simpleAtoi) before.mesh (before.matching call) = some after.mesh ∧
        Along (Mesh.step uuid simpleAtoi) Cpp2Sky.Orderly before.mesh (before.matching call) ∧ after.Valid := by
    intro before call after valid orderly stepped
    have matches' := valid.step orderly stepped
    exact ⟨matches'.executed, matches'.orderly, matches'.valid⟩
  obtain ⟨ran, along, valid⟩ := refines matched initial orderly executed
  have whole := whole_run reads along ran
  exact ⟨ran, whole.traced, whole.separated, fun _ _ found => valid.delivers found,
    fun _ member _ wrote _ inside _ names => valid.references whole.traced member wrote inside names⟩

end Deployment

/-- The second service joins the trace of the first and reports before it. -/
def deployedCalls : List (DeploymentCall Nat) :=
  [.createInsecureGrpcTracer meshConfig 10, .createInsecureGrpcTracer meshConfig 20, .newContext 0 none,
    .tracer 0 (.context 0 .createEntrySpan), .tracer 0 (.context 0 (.createExitSpan (.own 0))), .createSW8HeaderValue 0 0 [7],
    .tracer 1 (.reporter .spawn), .newContext 1 (some 0), .tracer 1 (.context 0 .createEntrySpan),
    .tracer 1 (.reporter (.deliver 0 true)), .tracer 1 (.reporter .loop), .tracer 1 (.reporter .loop),
    .tracer 1 (.context 0 (.span 0 (.endSpan 5))), .tracer 1 (.report 0 (some 0)), .tracer 1 (.reporter (.sender 0)),
    .tracer 1 (.reporter (.sender 0)), .tracer 1 (.reporter (.sender 0)), .tracer 1 (.reporter (.sender 0)),
    .tracer 1 (.reporter (.sender 0)), .tracer 1 (.reporter (.sender 0)), .tracer 1 (.reporter (.sender 0))]

def deployed : Deployment Nat := (exec (Deployment.step countUp readDecimal) {} deployedCalls).getD {}

theorem collected_traces_deployed : deployed.Collected ∧
    deployed.services.map (fun tracerImpl => tracerImpl.asyncClient.written.length) = [0, 1] := by
  have executed : exec (Deployment.step countUp readDecimal) {} deployedCalls = some deployed := rfl
  have orderly : Along (Deployment.step countUp readDecimal) Deployment.Orderly {} deployedCalls := by decide
  exact ⟨(Deployment.collected_traces readDecimal_reads orderly executed).2, rfl⟩

end Cpp2Sky
