import PortGraph.Proofs.Graph.Consistent
import PortGraph.Proofs.Graph.Traits

/-!
# Refused requests

A graph that refuses a request is the graph it was before, and none of its nodes was called
(`Request.spared`).  The two requests that call nodes before they know whether they succeed are the
exceptions.  Executing keeps what was reached when a node failed; and when a node fails to get ready,
compiling gives up what was compiled before: all nodes are released, their outputs are empty, and the
rest is what it was but for what the nodes did to themselves (`Graph.Relinquished`).

`Lifecycle.Reverts` lists what a node may do to itself when it gets ready and when it gives back
what it took.
-/

set_option autoImplicit false

namespace PortGraph

/-! ## Replies to requests -/

namespace Request

variable {β : Type}

/-- Do what is asked, and say what comes of it and which graph is left. -/
def reply (life : Lifecycle β) (make : FactorySet → NodeDescription → Attempt (Node β)) :
    Request β → Graph β → Act (Reply GraphError (Graph β) Unit)
  | .addNode n, g => g.addNode n
  | .createNode d, g => g.createNode (make g.factories) d
  | .removeNode name, g => return Prod.map (·.map fun _ ↦ ()) id (← g.removeNode life name)
  | .renameNode old new, g => return g.renameNode old new
  | .addLink source target, g => return Prod.map (·.map fun _ ↦ ()) id (← g.addLink source target)
  | .removeLink target, g => return Prod.map (·.map fun _ ↦ ()) id (← g.removeLink target)
  | .removeLinkById link, g =>
    return Prod.map (·.map fun _ ↦ ()) id (← g.removeLinkById link)
  | .setInput place packet, g => return g.setInput place packet
  | .setProtected b, g => return (.ok (), g.setProtected b)
  | .addFactory factory, g =>
    return ((g.addFactory factory).map fun _ ↦ (), (g.addFactory factory).toOption.getD g)
  | .compile, g => g.compile life
  | .execute, g => g.execute life
  | .release, g => return (.ok (), ← g.release life)
  | .clear, g => g.clear life

/-- What happens while the node is made that a request asks for.  The factories make it, and do not
know the graph. -/
def making (make : FactorySet → NodeDescription → Attempt (Node β)) (g : Graph β) (stamp : Nat) :
    Request β → List Event
  | .createNode d => ((make g.factories d).run stamp).events
  | _ => []

variable {life : Lifecycle β} {make : FactorySet → NodeDescription → Attempt (Node β)}
  {g : Graph β} {stamp : Nat}

/-- The graph that is left is the one that comes with the reply. -/
theorem perform_eq_reply (r : Request β) : (r.perform life make g stamp).result =
    (r.reply life make g stamp).result.2 := by
  cases r <;> rfl

end Request

/-! ## Operations that refuse -/

/-- Whether something that happened is more than a log line: a node was called or thrown away, or did
something. -/
def Event.isDeed : Event → Bool
  | .log _ => false
  | _ => true

namespace Graph

variable {β α : Type} {life : Lifecycle β} {g : Graph β} {stamp : Nat} {e : GraphError}

/-- The graph is left as it was, and all that was done is to write log lines. -/
structure Spared (g : Graph β) (o : Outcome (Reply GraphError (Graph β) α)) : Prop where
  /-- It is the same graph. -/
  same : o.result.2 = g
  /-- No node was called or thrown away. -/
  uncalled : o.events.filter Event.isDeed = []

theorem spared_addNode {n : Node β} (he : (g.addNode n stamp).result.1 = .error e) :
    g.Spared (g.addNode n stamp) := by
  rw [addNode] at he ⊢
  split at he
  · rename_i h
    rw [if_pos h]
    exact ⟨rfl, rfl⟩
  · exact absurd he (by simp)

theorem spared_removeLinkById {id : LinkId}
    (he : (g.removeLinkById id stamp).result.1 = .error e) :
    g.Spared (g.removeLinkById id stamp) := by
  rw [removeLinkById] at he ⊢
  split at he
  · rename_i h
    rw [if_pos h]
    exact ⟨rfl, rfl⟩
  · rename_i h
    rw [if_neg h]
    cases hl : g.link? id with
    | none => exact ⟨rfl, rfl⟩
    | some l =>
      rw [hl] at he
      exact absurd he (by simp)

theorem spared_removeLink {target : Endpoint}
    (he : (g.removeLink target stamp).result.1 = .error e) :
    g.Spared (g.removeLink target stamp) := by
  rw [removeLink] at he ⊢
  cases hl : g.linkTo? target with
  | none => exact ⟨rfl, rfl⟩
  | some l =>
    rw [hl] at he
    exact spared_removeLinkById he

theorem spared_addLink {source target : Endpoint}
    (he : (g.addLink source target stamp).result.1 = .error e) :
    g.Spared (g.addLink source target stamp) := by
  rw [addLink] at he ⊢
  cases ht : g.linkType source target with
  | error cause => exact ⟨rfl, rfl⟩
  | ok t =>
    rw [ht] at he
    exact absurd (show Except.ok _ = Except.error e from he) (by simp)

/-- A node that is not there is noticed before anything is changed for good. -/
theorem spared_removeNode {name : String}
    (he : (g.removeNode life name stamp).result.1 = .error e) :
    g.Spared (g.removeNode life name stamp) := by
  rw [removeNode] at he ⊢
  split at he
  · rename_i h
    rw [if_pos h]
    exact ⟨rfl, rfl⟩
  · rename_i h
    rw [if_neg h]
    dsimp only at he ⊢
    cases hn : (g.dropLinksOf name).node? name with
    | none => exact ⟨rfl, rfl⟩
    | some n =>
      rw [hn] at he
      exact absurd (show Except.ok _ = Except.error e from he) (by simp)

theorem renameNode_of_error {old new : String} (he : (g.renameNode old new).1 = .error e) :
    (g.renameNode old new).2 = g := by
  rw [renameNode] at he ⊢
  split
  · rfl
  · split
    · rfl
    · split
      · rfl
      · simp_all

theorem setInput_of_error {place : Endpoint} {packet : Packet}
    (he : (g.setInput place packet).1 = .error e) : (g.setInput place packet).2 = g := by
  rw [setInput] at he ⊢
  cases hn : g.node place.node with
  | error cause => rfl
  | ok n =>
    rw [hn] at he
    dsimp only at he ⊢
    cases hp : n.panel.inject place.port packet with
    | error cause => rfl
    | ok panel =>
      rw [hp] at he
      exact absurd he (by simp)

theorem spared_clear (he : (g.clear life stamp).result.1 = .error e) :
    g.Spared (g.clear life stamp) := by
  rw [clear] at he ⊢
  split at he
  · rename_i h
    rw [if_pos h]
    exact ⟨rfl, rfl⟩
  · exact absurd (show Except.ok _ = Except.error e from he) (by simp)

/-- Compiling fails before a node is called, or because one of them failed. -/
theorem spared_compile (he : (g.compile life stamp).result.1 = .error e)
    (hinit : ∀ name cause, e ≠ .initFailed name cause) :
    (g.compile life stamp).result.2 = g ∧
      (g.compile life stamp).events.filter Event.isDeed = [] := by
  obtain ⟨hr, ⟨hp, hsame⟩ | ⟨_, _, _, -, hinitAll⟩⟩ := compile_eq_error (Prod.ext he rfl)
  · refine ⟨hsame, ?_⟩
    rw [compile, if_neg (by simp [hr]), hp]
    cases e <;> rfl
  · obtain ⟨⟨name, cause, rfl⟩, -⟩ := initAll_error hinitAll
    exact absurd rfl (hinit name cause)

end Graph

namespace Request

variable {β : Type} {life : Lifecycle β} {make : FactorySet → NodeDescription → Attempt (Node β)}
  {g : Graph β} {stamp : Nat} {e : GraphError}

/-- A node that cannot be made, or has the name of another one, is not added. -/
theorem spared_createNode {d : NodeDescription}
    (he : (g.createNode (make g.factories) d stamp).result.1 = .error e) :
    (g.createNode (make g.factories) d stamp).result.2 = g ∧
      (g.createNode (make g.factories) d stamp).events.filter Event.isDeed =
        (Request.making make g stamp (.createNode d)).filter Event.isDeed := by
  rw [Graph.createNode, making] at *
  simp only [Act.bind_apply, List.filter_append] at he ⊢
  cases hn : ((make g.factories d).run stamp).result with
  | error cause =>
    exact ⟨rfl, List.append_nil _⟩
  | ok n =>
    simp only [hn] at he ⊢
    obtain ⟨hsame, hcalls⟩ := Graph.spared_addNode he
    exact ⟨hsame, by rw [hcalls, List.append_nil]⟩

/-- **A request that is refused leaves the graph alone**, unless nodes were called for it. -/
theorem spared {r : Request β} (hr : r ≠ .execute)
    (he : (r.reply life make g stamp).result.1 = .error e)
    (hinit : r = .compile → ∀ name cause, e ≠ .initFailed name cause) :
    (r.reply life make g stamp).result.2 = g ∧
      (r.reply life make g stamp).events.filter Event.isDeed =
        (r.making make g stamp).filter Event.isDeed := by
  have hmap : ∀ {α : Type} {x : Except GraphError α}, (x.map fun _ ↦ ()) = .error e →
      x = .error e := by
    intro α x hx
    cases x with
    | error cause => exact congrArg Except.error (Except.error.inj hx)
    | ok a => exact absurd hx (by simp [Except.map])
  -- a request that is not about nodes to be made has no other deeds than those of the graph
  have hspared : ∀ {α : Type} {o : Outcome (Reply GraphError (Graph β) α)}, g.Spared o →
      o.result.2 = g ∧ (o.events ++ []).filter Event.isDeed = [] :=
    fun h ↦ ⟨h.same, by rw [List.append_nil, h.uncalled]⟩
  cases r with
  | addNode n => exact ⟨(Graph.spared_addNode he).same, (Graph.spared_addNode he).uncalled⟩
  | createNode d => exact spared_createNode he
  | removeNode name => exact hspared (Graph.spared_removeNode (hmap he))
  | renameNode old new => exact ⟨Graph.renameNode_of_error he, rfl⟩
  | addLink source target => exact hspared (Graph.spared_addLink (hmap he))
  | removeLink target => exact hspared (Graph.spared_removeLink (hmap he))
  | removeLinkById link => exact hspared (Graph.spared_removeLinkById (hmap he))
  | setInput place packet => exact ⟨Graph.setInput_of_error he, rfl⟩
  | setProtected b => exact absurd he (by simp [reply])
  | addFactory factory =>
    have herr : g.addFactory factory = .error e := hmap he
    refine ⟨?_, rfl⟩
    change (g.addFactory factory).toOption.getD g = g
    rw [herr]
    rfl
  | compile => exact Graph.spared_compile he (hinit rfl)
  | execute => exact absurd rfl hr
  | release => exact absurd he (by simp [reply])
  | clear => exact ⟨(Graph.spared_clear he).same, (Graph.spared_clear he).uncalled⟩

end Request

/-! ## Nodes that fail to get ready -/

/-- What a node may have become by getting ready and giving back what it took, time and again. -/
inductive Lifecycle.Reverts {β : Type} (life : Lifecycle β) (n : Node β) : Node β → Prop
  /-- It was not called. -/
  | refl : Reverts life n n
  /-- It got ready, or failed to. -/
  | init {m : Node β} (stamp : Nat) (h : Reverts life n m) :
      Reverts life n (life.init m stamp).result.2
  /-- It gave back what it took. -/
  | destroy {m : Node β} (stamp : Nat) (h : Reverts life n m) :
      Reverts life n (life.destroy m stamp).result
  /-- Its graph noted whether it is initialised. -/
  | noted {m : Node β} (b : Bool) (h : Reverts life n m) : Reverts life n (m.setInitialized b)

/-- Getting ready and giving back leave the values on the ports of a node alone. -/
structure Lifecycle.KeepsPorts {β : Type} (life : Lifecycle β) : Prop where
  /-- Getting ready does. -/
  init : ∀ n stamp side, (life.init n stamp).result.2.panel.ports side = n.panel.ports side
  /-- Giving back does. -/
  destroy : ∀ n stamp side, (life.destroy n stamp).result.panel.ports side = n.panel.ports side

namespace Lifecycle

variable {β : Type} {life : Lifecycle β} {n m o : Node β}

theorem Reverts.trans (h : life.Reverts n m) (h' : life.Reverts m o) : life.Reverts n o := by
  induction h' with
  | refl => exact h
  | init stamp _ ih => exact ih.init stamp
  | destroy stamp _ ih => exact ih.destroy stamp
  | noted b _ ih => exact ih.noted b

theorem reverts_release (life : Lifecycle β) (n : Node β) (stamp : Nat) :
    life.Reverts n (life.release n stamp).result := by
  rw [Lifecycle.release]
  split
  · exact (Reverts.refl.destroy stamp).noted false
  · exact .refl

theorem Reverts.ports_eq (h : life.Reverts n m) (hk : life.KeepsPorts) (side : Direction) :
    m.panel.ports side = n.panel.ports side := by
  induction h with
  | refl => rfl
  | init stamp _ ih => exact (hk.init _ stamp side).trans ih
  | destroy stamp _ ih => exact (hk.destroy _ stamp side).trans ih
  | @noted m b _ ih =>
    have hports : (m.setInitialized b).panel.ports side = m.panel.ports side := by
      cases side <;> rfl
    exact hports.trans ih

end Lifecycle

namespace Graph

variable {β : Type} {life : Lifecycle β} {g k : Graph β}

/-- The nodes keep their places, and each is related to what stands in its place. -/
def Pairs (R : Node β → Node β → Prop) (g k : Graph β) : Prop :=
  List.Forall₂ (fun s s' ↦ s'.key = s.key ∧ R s.node s'.node) g.slots k.slots

theorem Pairs.mono {R S : Node β → Node β → Prop} (h : g.Pairs R k) (hrs : ∀ n m, R n m → S n m) :
    g.Pairs S k :=
  h.imp fun _ _ hs ↦ ⟨hs.1, hrs _ _ hs.2⟩

theorem Pairs.trans {R S : Node β → Node β → Prop} {j : Graph β} (h : g.Pairs R j)
    (h' : j.Pairs S k) : g.Pairs (fun n m ↦ ∃ o, R n o ∧ S o m) k := by
  have hall : ∀ {l l' l'' : List (Slot β)},
      List.Forall₂ (fun s s' ↦ s'.key = s.key ∧ R s.node s'.node) l l' →
      List.Forall₂ (fun s s' ↦ s'.key = s.key ∧ S s.node s'.node) l' l'' →
      List.Forall₂ (fun s s' ↦ s'.key = s.key ∧ ∃ o, R s.node o ∧ S o s'.node) l l'' := by
    intro l l' l'' hl
    induction hl generalizing l'' with
    | nil =>
      rintro ⟨⟩
      exact .nil
    | cons hab _ ih =>
      rintro (_ | ⟨hbc, hrest⟩)
      exact .cons ⟨hbc.1.trans hab.1, _, hab.2, hbc.2⟩ (ih hrest)
  exact hall h h'

theorem pairs_setNodeAt {R : Node β → Node β → Prop} (hrefl : ∀ n, R n n) {i : Nat} {s : Slot β}
    (hs : g.slots[i]? = some s) {n : Node β} (hn : R s.node n) : g.Pairs R (g.setNodeAt i n) := by
  refine List.forall₂_iff_get.mpr ⟨(List.length_modify _ _ _).symm, fun j hj hj' ↦ ?_⟩
  have hsame : (g.setNodeAt i n).slots[j]? = if i = j then some ⟨s.key, n⟩ else g.slots[j]? :=
    getElem?_setNodeAt hs n j
  have hget : g.slots[j]? = some g.slots[j] := List.getElem?_eq_getElem hj
  rw [List.getElem?_eq_getElem hj', hget] at hsame
  rw [List.get_eq_getElem, List.get_eq_getElem]
  split at hsame
  · rename_i hij
    subst hij
    rw [Option.some.inj hsame, Option.some.inj (hget.symm.trans hs)]
    exact ⟨rfl, hn⟩
  · rw [Option.some.inj hsame]
    exact ⟨rfl, hrefl _⟩

theorem Pairs.reverts_trans {j : Graph β} (h : g.Pairs life.Reverts j)
    (h' : j.Pairs life.Reverts k) : g.Pairs life.Reverts k :=
  (h.trans h').mono fun _ _ ⟨_, ho, ho'⟩ ↦ ho.trans ho'

theorem pairs_release (life : Lifecycle β) (g : Graph β) (stamp : Nat) :
    g.Pairs life.Reverts (g.release life stamp).result :=
  life.forall₂_releaseAll life.reverts_release g.slots stamp

theorem pairs_resetOutputs (g : Graph β) :
    g.Pairs (fun n m ↦ m = n.mapPanel Panel.resetOutputs) g.resetOutputs :=
  List.forall₂_map_right_iff.mpr (List.forall₂_same.mpr fun _ _ ↦ ⟨rfl, rfl⟩)

/-- What becomes of nodes that are initialised is up to them, also if it ends with their release. -/
theorem pairs_initAll (life : Lifecycle β) (is : List Nat) (g : Graph β) (stamp : Nat) :
    g.Pairs life.Reverts (initAll life is g stamp).result.2 := by
  induction is generalizing g stamp with
  | nil => exact List.forall₂_same.mpr fun s _ ↦ ⟨rfl, .refl⟩
  | cons i is ih =>
    rcases initAll_cons life i is g stamp with ⟨-, h⟩ | ⟨s, hs, ⟨-, stamp', h⟩ | ⟨e, stamp', -, h⟩⟩
    · rw [h]
      exact ih g stamp
    · rw [h]
      have hready := ((Lifecycle.Reverts.refl : life.Reverts s.node s.node).init stamp).noted true
      exact (pairs_setNodeAt (fun _ ↦ .refl) hs hready).reverts_trans (ih _ stamp')
    · rw [h]
      have hfailed := (Lifecycle.Reverts.refl : life.Reverts s.node s.node).init stamp
      exact (pairs_setNodeAt (fun _ ↦ .refl) hs hfailed).reverts_trans (pairs_release life _ stamp')

/-- **A graph gave up what was compiled before**, as one of its nodes failed to get ready: it is not
ready, no node is initialised, and all outputs were emptied.  All else is left alone, but for what the
nodes do to themselves when they get ready and give back what they took. -/
structure Relinquished (life : Lifecycle β) (g k : Graph β) : Prop where
  /-- The names, the ports with their link counts, and the links are what they were. -/
  skeleton : k.skeleton = g.skeleton
  /-- So are the name of the graph and its factories, and whether it is to be saved and protected. -/
  settings : k.settings = g.settings
  /-- It is not ready, and has no schedule. -/
  dormant : k.isReady = false ∧ k.schedule = []
  /-- No node is initialised. -/
  released : ∀ s ∈ k.slots, s.node.panel.isInitialized = false
  /-- The outputs of each node were emptied after it had given back what it took, and before it got
  ready. -/
  nodes : g.Pairs (fun n m ↦ ∃ o, life.Reverts n o ∧
    life.Reverts (o.mapPanel Panel.resetOutputs) m) k
  /-- If nodes do not write on their ports meanwhile, the inputs hold what they held, and the outputs
  hold nothing. -/
  values : life.KeepsPorts → g.Pairs (fun n m ↦ m.panel.inputs = n.panel.inputs ∧
    m.panel.outputs = n.panel.outputs.map (·.store none)) k

/-- No node fails while a graph is planned. -/
theorem WellLinked.ne_initFailed_of_plan (hg : g.WellLinked) {e : GraphError}
    (hp : g.plan = .error e) (name : String) (cause : NodeError) : e ≠ .initFailed name cause := by
  rcases hg.plan_eq_error_iff.mp hp with hsorted | ⟨-, place, -, rfl⟩
  · obtain ⟨-, nodes, rfl, -⟩ := hg.sorted_eq_error_iff.mp hsorted
    simp
  · simp

/-- **If a node fails to get ready, the graph gives up what was compiled before.** -/
theorem relinquished_compile (hk : life.KeepsOutline) (hg : g.WellLinked) {stamp : Nat}
    {name : String} {cause : NodeError}
    (he : (g.compile life stamp).result.1 = .error (.initFailed name cause)) :
    g.Relinquished life (g.compile life stamp).result.2 := by
  obtain ⟨-, ⟨hp, -⟩ | ⟨schedule, stamp₁, stamp₂, -, hinit⟩⟩ := compile_eq_error (Prod.ext he rfl)
  · exact absurd rfl (hg.ne_initFailed_of_plan hp name cause)
  · obtain ⟨-, hready, hschedule, hflags⟩ := initAll_error hinit
    have hpairs := pairs_initAll life (schedule.map Step.node)
      (g.release life stamp₁).result.resetOutputs stamp₂
    rw [hinit] at hpairs
    have hnodes := ((pairs_release life g stamp₁).trans (pairs_resetOutputs _)).trans hpairs
    refine ⟨skeleton_compile hk g stamp, settings_compile life g stamp, ⟨hready, hschedule⟩,
      List.forall_mem_map.mp hflags, hnodes.mono ?_, fun hports ↦ hnodes.mono ?_⟩
    · rintro n m ⟨_, ⟨o, ho, rfl⟩, hm⟩
      exact ⟨o, ho, hm⟩
    · rintro n m ⟨_, ⟨o, ho, rfl⟩, hm⟩
      have hinputs := (hm.ports_eq hports .input).trans (ho.ports_eq hports .input)
      have houtputs : o.panel.outputs = n.panel.outputs := ho.ports_eq hports .output
      have hempty : m.panel.outputs = o.panel.outputs.map (·.store none) :=
        hm.ports_eq hports .output
      exact ⟨hinputs, houtputs ▸ hempty⟩

/-- **A refusal leaves no trace.**  If a graph refuses a request other than to execute, it is the
graph it was, and none of its nodes was called or thrown away, unless one of them failed when they were
to get ready.  In that case they were all released, and the graph gave up what was compiled before. -/
theorem Reachable.left_of_refusal (h : g.Reachable) (hk : life.KeepsOutline)
    {make : FactorySet → NodeDescription → Attempt (Node β)} {r : Request β} (hr : r ≠ .execute)
    {stamp : Nat} {e : GraphError} (he : (r.reply life make g stamp).result.1 = .error e) :
    ((r = .compile → ∀ name cause, e ≠ .initFailed name cause) →
      (r.reply life make g stamp).result.2 = g ∧
        (r.reply life make g stamp).events.filter Event.isDeed =
          (r.making make g stamp).filter Event.isDeed) ∧
    (r = .compile → ∀ name cause, e = .initFailed name cause →
      g.Relinquished life (r.reply life make g stamp).result.2) := by
  refine ⟨Request.spared hr he, ?_⟩
  rintro rfl name cause rfl
  exact relinquished_compile hk h.wellLinked he

/-! ## A graph of two nodes that refuses -/

/-- Nodes of which `b` does not get ready. -/
def reluctant : Lifecycle Unit where
  init n := return (if n.name = "b" then .error (.failed "not ready") else .ok (), n)
  execute n := return (.ok (), n)
  destroy n := return n
  discard _ := return ()

theorem keepsOutline_reluctant : reluctant.KeepsOutline :=
  ⟨fun _ _ ↦ rfl, fun _ _ ↦ rfl, fun _ _ ↦ rfl⟩

theorem exists_error_of_isOk {α : Type} {x : Except GraphError α} (h : x.isOk = false) :
    ∃ e, x = .error e := by
  cases x with
  | error e => exact ⟨e, rfl⟩
  | ok a => exact absurd h (by simp [Except.isOk, Except.toBool])

theorem left_of_refusal_sample :
    sampleReady.isReady = true ∧
    ((Request.addLink ⟨"a", "out"⟩ ⟨"b", "in"⟩).reply .idle makeNone sampleReady 0).result.1.isOk =
      false ∧
    ((Request.addLink ⟨"a", "out"⟩ ⟨"b", "in"⟩).reply .idle makeNone sampleReady 0).result.2 =
      sampleReady ∧
    (Request.compile.reply reluctant makeNone sample 0).result.1.isOk = false ∧
    sample.Relinquished reluctant (Request.compile.reply reluctant makeNone sample 0).result.2 := by
  have hlink : ((Request.addLink ⟨"a", "out"⟩ ⟨"b", "in"⟩).reply .idle makeNone sampleReady
      0).result.1.isOk = false := by decide +kernel
  have hcompile : (Request.compile.reply reluctant makeNone sample 0).result.1.isOk = false := by
    decide +kernel
  obtain ⟨e, he⟩ := exists_error_of_isOk hlink
  obtain ⟨e', he'⟩ := exists_error_of_isOk hcompile
  have hfailed : ∃ name cause, e' = .initFailed name cause := by
    have hkind : (match (Request.compile.reply reluctant makeNone sample 0).result.1 with
        | .error (.initFailed ..) => true
        | .error _ | .ok _ => false) = true := by decide +kernel
    rw [he'] at hkind
    cases e' with
    | initFailed name cause => exact ⟨name, cause, rfl⟩
    | _ => exact absurd hkind (by simp)
  obtain ⟨name, cause, rfl⟩ := hfailed
  have hsame := reachable_sampleReady.left_of_refusal keepsOutline_idle (by simp) he
  have hleft := reachable_sample.left_of_refusal keepsOutline_reluctant (by simp) he'
  exact ⟨by decide +kernel, hlink, (hsame.1 (by simp)).1, hcompile, hleft.2 rfl name cause rfl⟩

end Graph
end PortGraph
