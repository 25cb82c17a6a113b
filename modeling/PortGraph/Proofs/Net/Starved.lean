import PortGraph.Proofs.Net.Compute
import PortGraph.Proofs.Net.Required

/-!
# Operators that links are to supply

A node that maps or folds has an operator of its own, which another one on an input may replace.  If a
link ends at that input, then it is up to the link: nothing there is an error, and what the node was made
with is not used (`Operation.publication_of_isStarved`, `Panel.supplied?_ne_none`).

So it is for all nodes of all nets that a pass gets to, however deep: no pass gets by a node at whose
input a link brings nothing, and if it fails there, it says so (`Net.Reachable.noData_of_isStarved`).
But what counts is a link of the net that the node is in.  If the input is fed by the node around, then
what the node was made with is used as soon as nothing is fed, even if a link ends at the node around
and brings nothing (`execute_sampleMuted`).
-/

set_option autoImplicit false

namespace PortGraph

open PortGraph.Graph
open PortGraph.Net (coherent_iff)

/-! ## Optional inputs -/

namespace Panel

variable {panel : Panel} {name : String} {k : Kind} {e : GraphError}

theorem place?_missing (panel : Panel) (side : Direction) (name : String) :
    (panel.missing side name).place? = some (panel.endpoint name) := by
  rw [missing]
  split <;> rfl

theorem place?_of_readAs (h : panel.readAs .input name k = .error e) :
    e.place? = some (panel.endpoint name) := by
  cases hp : panel.port? .input name with
  | none =>
    rw [readAs, read, port, hp] at h
    obtain rfl := Except.error.inj h
    exact panel.place?_missing .input name
  | some p =>
    rw [readAs_eq hp] at h
    split at h
    · obtain rfl := Except.error.inj h
      rfl
    · split at h
      · exact absurd h (by simp)
      · obtain rfl := Except.error.inj h
        rfl

/-- **An optional input is refused for what is on it**, and for lack of anything only if a link should have
brought it. -/
theorem place?_of_supplied? (h : panel.supplied? name k = .error e) :
    e.place? = some (panel.endpoint name) ∧
      (e = .noData (panel.endpoint name) → panel.isStarved name = true) := by
  cases hp : panel.port? .input name with
  | none =>
    have hread : panel.readAs .input name k = .error (panel.missing .input name) := by
      rw [readAs, read, port, hp]
    have hpresent : (panel.missing .input name).missingData?.isSome = false := by
      rw [missing]
      split <;> rfl
    rw [supplied?, hp, readAs?, hread, if_neg (by simp)] at h
    dsimp only at h
    rw [hpresent] at h
    obtain rfl := Except.error.inj h
    refine ⟨panel.place?_missing .input name, fun he ↦ ?_⟩
    rw [he] at hpresent
    exact absurd hpresent (by simp [GraphError.missingData?])
  | some p =>
    rw [supplied?_eq hp] at h
    split at h
    · rename_i hstarved
      obtain rfl := Except.error.inj h
      exact ⟨rfl, fun _ ↦ hstarved⟩
    · split at h
      · exact absurd h (by simp)
      · split at h
        · exact absurd h (by simp)
        · obtain rfl := Except.error.inj h
          exact ⟨rfl, fun he ↦ absurd he (by simp)⟩

theorem supplied?_of_isStarved (h : panel.isStarved name = true) (k : Kind) :
    panel.supplied? name k = .error (.noData (panel.endpoint name)) := by
  obtain ⟨p, hp, -⟩ := (Option.any_eq_true _ _).mp h
  rw [supplied?_eq hp, if_pos h]

/-- **If a link ends at an optional input, something is on it or it is refused.** -/
theorem supplied?_ne_none (h : (panel.port? .input name).any Port.isLinked = true) (k : Kind) :
    panel.supplied? name k ≠ .ok none := by
  rw [supplied?, if_pos h]
  cases panel.readAs .input name k with
  | error e => simp [Except.map]
  | ok x => simp [Except.map]

end Panel

namespace Operation

/-- The inputs that replace what a node was made with. -/
def optionals : Operation → List String
  | .mapping .. => ["f"]
  | .folding .. => ["f", "init"]
  | _ => []

variable {op : Operation} {panel : Panel} {name : String}

/-- **A node is refused if a link brings nothing to one of these inputs.**  The operator is looked at
first. -/
theorem publication_of_isStarved (hname : name ∈ op.optionals)
    (h : panel.isStarved name = true) :
    op.publication panel = .error (.noData (panel.endpoint name)) ∨
      name = "init" ∧ ∃ e, op.publication panel = .error e ∧
        e.place? = some (panel.endpoint "f") := by
  cases op with
  | mapping e operator =>
    obtain rfl := List.mem_singleton.mp hname
    refine .inl ?_
    rw [publication, Panel.supplied?_of_isStarved h]
    rfl
  | folding e operator init =>
    rcases List.mem_pair.mp hname with rfl | rfl
    · refine .inl ?_
      rw [publication, Panel.supplied?_of_isStarved h]
      rfl
    · cases hf : panel.supplied? "f" (.folding e) with
      | error cause =>
        refine .inr ⟨rfl, cause, ?_, (Panel.place?_of_supplied? hf).1⟩
        rw [publication, hf]
        rfl
      | ok f =>
        refine .inl ?_
        rw [publication, hf, Panel.supplied?_of_isStarved h]
        rfl
  | _ => exact absurd hname (by simp [optionals])

/-- It is refused for lack of anything on such an input only if a link should have brought it. -/
theorem isStarved_of_publication (hname : name ∈ op.optionals)
    (h : op.publication panel = .error (.noData (panel.endpoint name))) :
    panel.isStarved name = true := by
  -- a refusal is about the input that was looked at
  have hplace : ∀ {other : String},
      (GraphError.noData (panel.endpoint name)).place? = some (panel.endpoint other) →
        name = other :=
    fun he ↦ congrArg Endpoint.port (Option.some.inj he)
  have hoptional : ∀ {other : String} {k : Kind},
      panel.supplied? other k = .error (.noData (panel.endpoint name)) →
        panel.isStarved name = true := fun hs ↦ by
    obtain ⟨he, hstarved⟩ := Panel.place?_of_supplied? hs
    obtain rfl := hplace he
    exact hstarved rfl
  cases op with
  | mapping e operator =>
    rcases bind_eq_error h with hs | ⟨_, -, h⟩
    · exact hoptional hs
    rcases bind_eq_error h with hr | ⟨_, -, h⟩
    · obtain rfl := hplace (Panel.place?_of_readAs hr)
      exact absurd hname (by simp [optionals])
    · cases h
  | folding e operator init =>
    rcases bind_eq_error h with hs | ⟨_, -, h⟩
    · exact hoptional hs
    rcases bind_eq_error h with hs | ⟨_, -, h⟩
    · exact hoptional hs
    rcases bind_eq_error h with hr | ⟨_, -, h⟩
    · obtain rfl := hplace (Panel.place?_of_readAs hr)
      exact absurd hname (by simp [optionals])
    · cases h
  | _ => exact absurd hname (by simp [optionals])

/-- Two operations differ in no more than what they were made with for the want of an input. -/
inductive Differ : String → Operation → Operation → Prop
  /-- The operators of nodes that map. -/
  | mapping (e : Element) (f f' : e.Carrier → e.Carrier) : Differ "f" (mapping e f) (mapping e f')
  /-- The operators of nodes that fold. -/
  | folding (e : Element) (f f' : e.Carrier → e.Carrier → e.Carrier) (init : e.Carrier) :
    Differ "f" (folding e f init) (folding e f' init)
  /-- The initial values of nodes that fold. -/
  | initial (e : Element) (f : e.Carrier → e.Carrier → e.Carrier) (init init' : e.Carrier) :
    Differ "init" (folding e f init) (folding e f init')

/-- **What a node was made with does not matter where a link ends.** -/
theorem execute_eq_of_differ {op' : Operation} (h : Differ name op op')
    (hl : (panel.port? .input name).any Port.isLinked = true) (stamp : Nat) :
    op'.execute panel stamp = op.execute panel stamp := by
  have hsome := Panel.supplied?_ne_none hl
  have hpublication : op'.publication panel = op.publication panel := by
    cases h with
    | mapping e f f' =>
      rw [publication, publication]
      rcases hs : panel.supplied? "f" (.mapping e) with cause | _ | g
      · rfl
      · exact absurd hs (hsome _)
      · rfl
    | folding e f f' init =>
      rw [publication, publication]
      rcases hs : panel.supplied? "f" (.folding e) with cause | _ | g
      · rfl
      · exact absurd hs (hsome _)
      · rfl
    | initial e f init init' =>
      rw [publication, publication]
      rcases panel.supplied? "f" (.folding e) with cause | g
      · rfl
      · rcases hs : panel.supplied? "init" (.scalar e) with cause | _ | start
        · rfl
        · exact absurd hs (hsome _)
        · rfl
  rw [execute, execute, hpublication]
  cases h <;> rfl

/-- A node is refused for lack of anything before it publishes. -/
theorem publication_of_execute {place : Endpoint} {stamp : Nat}
    (h : (op.execute panel stamp).result.1 = .error (.graph (.noData place))) :
    op.publication panel = .error (.noData place) := by
  rw [execute] at h
  cases hp : op.publication panel with
  | error e =>
    rw [hp] at h
    exact congrArg Except.error (NodeError.graph.inj (Except.error.inj h))
  | ok pub =>
    simp only [hp, Act.bind_apply, Panel.publish, Panel.port] at h
    cases ho : panel.port? .output op.output.name with
    | some p =>
      simp only [ho] at h
      exact absurd h (by simp)
    | none =>
      simp only [ho] at h
      have hmissing := NodeError.graph.inj (Except.error.inj h)
      rw [Panel.missing] at hmissing
      split at hmissing
      · exact absurd hmissing (by simp)
      · exact absurd hmissing (by simp)

theorem execute_of_publication {e : GraphError} (h : op.publication panel = .error e) (stamp : Nat) :
    (op.execute panel stamp).result.1 = .error (.graph e) := by
  rw [execute, h]
  rfl

end Operation

/-! ## What a pass leaves -/

/-- A link ends at an input, and nothing is at its source. -/
def Graph.IsStarved {β : Type} (g : Graph β) (e : Endpoint) : Prop :=
  ∃ l ∈ g.links, l.target = e ∧ g.held l.source = none

/-- Where nothing arrives at a node. -/
theorem Graph.WellLinked.isStarved_supplied_iff {β : Type} {g : Graph β} (h : g.WellLinked)
    {s : Slot β} (hs : s ∈ g.slots) (read : Endpoint → Option Packet) (name : String) :
    (s.supplied g.links read).panel.isStarved name = true ↔
      ∃ l ∈ g.links, l.target = ⟨s.key, name⟩ ∧ read l.source = none := by
  rw [Panel.isStarved, Slot.port?_supplied, Option.any_map]
  constructor
  · intro hany
    obtain ⟨p, hp, hstarved⟩ := (Option.any_eq_true _ _).mp hany
    obtain ⟨hmem, rfl⟩ := Port.mem_of_named? hp
    rw [Port.isStarved] at hstarved
    rcases h.supplied_cases hs hmem read with ⟨hlinked, l, hl, ht, -, heq⟩ | ⟨hlinked, heq⟩
    · rw [heq, Port.data_store_of_isLinked hlinked] at hstarved
      exact ⟨l, hl, ht, by simpa using (Bool.and_eq_true_iff.mp hstarved).2⟩
    · rw [heq, hlinked] at hstarved
      exact absurd hstarved (by simp)
  · rintro ⟨l, hl, ht, hnone⟩
    obtain ⟨p, hp, -, hlinked⟩ := h.exists_target hl
    rw [ht, port?, h.node?_of_mem hs] at hp
    have hport : s.node.panel.port? .input name = some p := hp
    obtain ⟨-, rfl⟩ := Port.mem_of_named? hport
    rw [hport, Option.any_some, Port.supplied_of_mem (h.once _) hl ht, Port.isStarved,
      Port.data_store_of_isLinked hlinked, hnone]
    exact Bool.and_eq_true_iff.mpr ⟨hlinked, rfl⟩

namespace Net

/-- **What the node of a name replied in its turn**, as the result of a pass tells: that it is done, if
all are, or why it failed, if it did. -/
inductive Replied : Except GraphError Unit → String → Except NodeError Unit → Prop
  /-- All nodes are done. -/
  | done (name : String) : Replied (.ok ()) name (.ok ())
  /-- It failed. -/
  | failed (name typeName : String) (cause : NodeError) :
    Replied (.error (.executionFailed name typeName cause)) name (.error cause)

/-- **The results of passes over nets inside**, as the result of a pass over the net around them tells. -/
inductive ResultAt (result : Except GraphError Unit) : List String → Except GraphError Unit → Prop
  /-- The net itself. -/
  | here : ResultAt result [] result
  /-- A node replies what comes of the net in it. -/
  | inside {path : List String} {outer inner : Except GraphError Unit} {name : String}
      (h : ResultAt result path outer) (hr : Replied outer name (inner.mapError .graph)) :
      ResultAt result (name :: path) inner

/-- If a pass succeeds, so do those over all nets inside. -/
theorem resultAt_ok (path : List String) : ResultAt (.ok ()) path (.ok ()) := by
  induction path with
  | nil => exact .here
  | cons name path ih => exact .inside ih (.done name)

/-- A net is left by a pass with a result, over a net that was ready. -/
def LeftBy (result : Except GraphError Unit) (k : Net) : Prop :=
  ∃ level g stamp, Net.Coherent g ∧ g.isReady = true ∧ Behaviour.slotsDepth g.slots ≤ level ∧
    (Graph.execute (Behaviour.life (level + 1)) g stamp).result = (result, k)

theorem mapError_graph_inj {x y : Except GraphError Unit}
    (h : x.mapError NodeError.graph = y.mapError NodeError.graph) : x = y := by
  cases x with
  | error e =>
    cases y with
    | error e' => exact congrArg Except.error (NodeError.graph.inj (Except.error.inj h))
    | ok _ => exact absurd h (by simp [Except.mapError])
  | ok _ =>
    cases y with
    | error e' => exact absurd h (by simp [Except.mapError])
    | ok _ => rfl

variable {result inner : Except GraphError Unit} {reply : Except NodeError Unit} {k j : Net}
  {s : Slot Behaviour}

/-- A node whose reply the result of a pass tells was called once, with what its links had brought. -/
theorem Replied.exists_turn {life : Lifecycle Behaviour} {g : Net} {stamp : Nat}
    (hr : Replied result s.key reply) (hg : g.WellLinked) (hc : g.Cached) (hready : g.isReady = true)
    (hk : life.KeepsOutline) (hrun : (Graph.execute life g stamp).result = (result, k))
    (hs : s ∈ k.slots) :
    ∃ r ∈ g.slots, r.key = s.key ∧ ∃ stamp',
      (life.execute (r.supplied g.links k.held) stamp').result = (reply, s.node) := by
  have hskeleton := (agrees_execute hk g stamp).skeleton
  rw [hrun] at hskeleton
  have hkwell := hg.of_skeleton_eq hskeleton
  cases hr with
  | done =>
    have hname : s.key ∈ g.nodeNames :=
      nodeNames_of_skeleton_eq hskeleton ▸ List.mem_map_of_mem hs
    obtain ⟨r, hr, hkey⟩ := List.mem_map.mp hname
    obtain ⟨stamp', n, heq, hn⟩ := hg.settled_of_ok (hc.plan hready) hready hk hrun hr
    rw [hkey, hkwell.node?_of_mem hs] at hn
    obtain rfl := Option.some.inj hn
    exact ⟨r, hr, hkey, stamp', heq⟩
  | failed name typeName cause =>
    obtain ⟨runs, hpassed, -⟩ := hg.passed_execute (hc.plan hready) hready hk stamp
    rw [hrun] at hpassed
    dsimp only at hpassed
    generalize hresult : Except.error (GraphError.executionFailed s.key typeName cause) = result
      at hpassed
    cases hpassed with
    | complete => exact absurd hresult (by simp)
    | @broken before after t runs r s' e _ _ hs' hnode herr hput _ =>
      obtain ⟨hkey, -, rfl⟩ := GraphError.executionFailed.inj (Except.error.inj hresult)
      refine ⟨s', List.mem_of_getElem? hs', hkey.symm, r.stamp, ?_⟩
      rw [hkwell.node_inj hs (List.mem_of_getElem? hput) hkey, ← hnode]
      exact Prod.ext herr rfl

/-- **A node that had its turn**: how it was handed over, and that it replied what the result tells. -/
theorem LeftBy.exists_call (h : LeftBy result k) (hs : s ∈ k.slots)
    (hr : Replied result s.key reply) :
    ∃ level n stamp, n.name = s.key ∧ n.behaviour.SoundAt level true ∧
      (∀ name, n.panel.isStarved name = true ↔ k.IsStarved ⟨s.key, name⟩) ∧
      ((Behaviour.life (level + 1)).execute n stamp).result = (reply, s.node) := by
  obtain ⟨level, g, stamp, hg, hready, hdepth, hrun⟩ := h
  obtain ⟨hwell, hcached, -⟩ := coherent_iff.mp hg
  have hk := keepsOutline_life (level + 1)
  obtain ⟨r, hmem, hkey, stamp', heq⟩ := hr.exists_turn hwell hcached hready hk hrun hs
  refine ⟨level, _, stamp', ?_, ?_, fun name ↦ ?_, heq⟩
  · rw [Slot.name_supplied, (hwell.regular r hmem).name_eq, hkey]
  · have hsound := hg.everyAt hdepth r hmem
    rw [forall_initialized_iff.mpr (hcached.flags hready) r hmem] at hsound
    rw [Slot.behaviour_supplied]
    exact hsound
  · have hskeleton := (agrees_execute hk g stamp).skeleton
    rw [hrun] at hskeleton
    rw [hwell.isStarved_supplied_iff hmem, hkey, IsStarved, links_of_skeleton_eq hskeleton]

/-- A node that holds a net replies what comes of the pass over it. -/
theorem LeftBy.inside (h : LeftBy result k) (hs : s ∈ k.slots) {inputs outputs : List Endpoint}
    (hb : s.node.behaviour = .nested j inputs outputs)
    (hr : Replied result s.key (inner.mapError .graph)) {name : String}
    (hinner : Replied inner name reply) : LeftBy inner j := by
  obtain ⟨level, n, stamp, -, hsound, -, heq⟩ := h.exists_call hs hr
  have hform := (Behaviour.keepsTrait_form (level + 1)).execute n stamp
  rw [heq, hb] at hform
  obtain ⟨g, hn, -⟩ := Behaviour.eq_nested_of_form_eq hform.symm
  rw [hn] at hsound
  obtain ⟨level, rfl⟩ : ∃ level', level = level' + 1 := by
    cases level with
    | zero => exact absurd hsound.1 (by simp [Behaviour.depth])
    | succ level => exact ⟨level, rfl⟩
  obtain ⟨hg, hdepth, hready⟩ := hsound.of_nested
  obtain ⟨hfed, hfeddepth⟩ := hg.feedAll hdepth (n.panel.inputs.zip inputs)
  rw [Behaviour.execute_nested hn] at heq
  rcases Behaviour.executeNested_eq (Behaviour.life (level + 1)) n g inputs outputs stamp with
    ⟨e, hfeed, heq', -⟩ | ⟨-, heq', hb'⟩
  · -- nothing is wrong with the inputs if the net inside was executed
    rw [heq] at heq'
    cases hinner with
    | done => exact absurd heq' (by simp [Except.mapError])
    | failed name typeName cause =>
      obtain rfl := NodeError.graph.inj (Except.error.inj heq')
      rcases feedAll_eq_error hfeed with ⟨_, he⟩ | ⟨_, he⟩ | ⟨_, _, he⟩
      · exact absurd he (by simp)
      · exact absurd he (by simp)
      · exact absurd he (by simp)
  · rw [heq] at heq' hb'
    rw [hb] at hb'
    obtain ⟨rfl, -, -⟩ := Behaviour.nested.inj hb'
    exact ⟨level, _, stamp, hfed, (feedAll_agrees _ g).isReady.trans (hready rfl), hfeddepth,
      Prod.ext (mapError_graph_inj heq').symm rfl⟩

/-- **The nets inside a net that a pass left are left by passes**, with the results that its own tells. -/
theorem LeftBy.within (h : LeftBy result k) {path : List String} (hat : ResultAt result path inner)
    {name : String} (hinner : Replied inner name reply) (hw : k.Within path j) : LeftBy inner j := by
  induction hat generalizing j name reply with
  | here =>
    cases hw
    exact h
  | inside _ hr ih =>
    cases hw with
    | step hw hs hb => exact (ih hr hw).inside hs hb hr hinner

/-- A net that is ready is left by the pass that it is asked for. -/
theorem Reachable.leftBy {g : Net} (h : g.Reachable) (hr : g.isReady = true) (stamp : Nat) :
    LeftBy (g.execute stamp).result.1 (g.execute stamp).result.2 :=
  ⟨Behaviour.slotsDepth g.slots, g, stamp, h.coherent, hr, Nat.le_refl _, rfl⟩

/-- **What an operation replies where a link brings nothing.** -/
theorem LeftBy.reply_operation (h : LeftBy result k) (hs : s ∈ k.slots)
    (hr : Replied result s.key reply) {op : Operation} (hb : s.node.behaviour = .operation op)
    {input : String} (hinput : input ∈ op.optionals) :
    (k.IsStarved ⟨s.key, input⟩ → reply = .error (.graph (.noData ⟨s.key, input⟩)) ∨
      input = "init" ∧ ∃ e, reply = .error (.graph e) ∧ e.place? = some ⟨s.key, "f"⟩) ∧
    (reply = .error (.graph (.noData ⟨s.key, input⟩)) → k.IsStarved ⟨s.key, input⟩) := by
  obtain ⟨level, n, stamp, hname, -, hstarved, heq⟩ := h.exists_call hs hr
  have hform := (Behaviour.keepsTrait_form (level + 1)).execute n stamp
  rw [heq, hb] at hform
  rw [Behaviour.execute_operation (Behaviour.eq_operation_of_form_eq hform.symm)] at heq
  have hreply : (op.execute n.panel stamp).result.1 = reply := congrArg Prod.fst heq
  have hplace : ∀ port, n.panel.endpoint port = ⟨s.key, port⟩ := fun port ↦ by
    rw [Panel.endpoint, show n.panel.name = s.key from hname]
  rw [← hstarved input, ← hreply, ← hplace input, ← hplace "f"]
  refine ⟨fun hempty ↦ ?_, fun hnone ↦ ?_⟩
  · rcases Operation.publication_of_isStarved hinput hempty with hp | ⟨hinit, e, hp, hf⟩
    · exact .inl (Operation.execute_of_publication hp stamp)
    · exact .inr ⟨hinit, e, Operation.execute_of_publication hp stamp, hf⟩
  · exact Operation.isStarved_of_publication hinput (Operation.publication_of_execute hnone)

end Net

/-- **A link that brings nothing is an error at every depth**, if it is a link of the net that the node is
in.  A node that had its turn in a pass, however deep, failed for want of an operator or an initial value
exactly if a link was to bring one and nothing was at its source; for the initial value, unless it failed
for the operator before.  So no pass that succeeds gets by such a link; and what a node was made with is of
no account where a link ends. -/
theorem Net.Reachable.noData_of_isStarved {g : Net} (h : g.Reachable) (hready : g.isReady = true)
    (stamp : Nat) :
    (∀ path j inner, Net.Within (g.execute stamp).result.2 path j →
      Net.ResultAt (g.execute stamp).result.1 path inner →
      ∀ s ∈ j.slots, ∀ op, s.node.behaviour = .operation op →
      ∀ reply, Net.Replied inner s.key reply → ∀ input ∈ op.optionals,
        (j.IsStarved ⟨s.key, input⟩ → reply = .error (.graph (.noData ⟨s.key, input⟩)) ∨
          input = "init" ∧ ∃ e, reply = .error (.graph e) ∧ e.place? = some ⟨s.key, "f"⟩) ∧
        (reply = .error (.graph (.noData ⟨s.key, input⟩)) → j.IsStarved ⟨s.key, input⟩)) ∧
    ((g.execute stamp).result.1 = .ok () →
      ∀ path j, Net.Within (g.execute stamp).result.2 path j → ∀ s ∈ j.slots, ∀ op,
        s.node.behaviour = .operation op → ∀ input ∈ op.optionals, ¬ j.IsStarved ⟨s.key, input⟩) ∧
    ∀ (panel : Panel) (input : String) (op op' : Operation), Operation.Differ input op op' →
      (panel.port? .input input).any Port.isLinked = true →
      op'.execute panel stamp = op.execute panel stamp := by
  refine ⟨fun path j inner hw hat s hs op hb reply hr input hinput ↦ ?_,
    fun hok path j hw s hs op hb input hinput hempty ↦ ?_,
    fun panel input op op' hd hl ↦ Operation.execute_eq_of_differ hd hl stamp⟩
  · exact ((h.leftBy hready stamp).within hat hr hw).reply_operation hs hr hb hinput
  · have hleft := h.leftBy hready stamp
    rw [hok] at hleft
    have hj := hleft.within (Net.resultAt_ok path) (.done s.key) hw
    rcases (hj.reply_operation hs (.done s.key) hb hinput).1 hempty with he | ⟨-, e, he, -⟩
    · exact absurd he (by simp)
    · exact absurd he (by simp)

/-! ## An operator that does not arrive -/

/-- A node that adds one to each number of a collection. -/
def sampleMap : Node Behaviour := ((Operation.mapping .int (· + 1)).node "map" 0).result

/-- A node that publishes a collection. -/
def sampleNumbers : Node Behaviour :=
  ((Operation.source (.list .int) [1, 2, 3]).node "numbers" 0).result

/-- A node that is to publish an operator, and publishes nothing. -/
def sampleSilent : Node Behaviour where
  panel :=
    { name := "silent"
      typeName := "Silent"
      outputs := [{ name := "out", direction := .output,
                    dataType := (Kind.mapping .int).dataType }] }
  behaviour := .probe { isSilent := true }

/-- A net with two nodes and a link. -/
def Net.ofPair (name : String) (n m : Node Behaviour) (source target : Endpoint) : Net :=
  [.addNode n, .addNode m, .addLink source target].foldl Net.ask { name }

/-- A net in which no operator arrives at the node inside that adds, from another node inside. -/
def sampleMuffled : Net :=
  Net.ask (Net.ofPair "outer" sampleNumbers
    (Net.ofPair "inner" sampleSilent sampleMap ⟨"silent", "out"⟩ ⟨"map", "f"⟩).boxed
    ⟨"numbers", "to"⟩ ⟨"box", "in"⟩) .compile

/-- A net in which no operator arrives at the node around the one that adds, which is to feed it. -/
def sampleMuted : Net :=
  Net.ask (Net.ofPair "outer" sampleSilent
    (Net.ofPair "inner" sampleNumbers sampleMap ⟨"numbers", "to"⟩ ⟨"map", "in"⟩).boxed
    ⟨"silent", "out"⟩ ⟨"box", "f"⟩) .compile

theorem account_sampleMap : sampleMap.Account fun _ ↦ none :=
  .plain ((Operation.mapping .int (· + 1)).isNew_panel "map" 0) rfl

theorem account_sampleNumbers : sampleNumbers.Account fun _ ↦ none :=
  .plain ((Operation.source (.list .int) [1, 2, 3]).isNew_panel "numbers" 0) rfl

theorem account_sampleSilent : sampleSilent.Account fun _ ↦ none := by
  refine .plain ⟨fun side ↦ ?_, fun side ↦ ?_, rfl⟩ rfl
  · cases side <;> simp [sampleSilent, Panel.ports]
  · cases side with
    | input => simp [sampleSilent, Panel.ports]
    | output =>
      intro p hp
      rw [List.mem_singleton.mp hp]
      exact ⟨rfl, rfl, rfl, rfl⟩

theorem Net.account_ofPair {n m : Node Behaviour} (hn : n.Account fun _ ↦ none)
    (hm : m.Account fun _ ↦ none) (name : String) (source target : Endpoint)
    (hlinks : ([.addNode n, .addNode m].foldl Net.ask { name }).links = []) :
    ∃ l, (Net.ofPair name n m source target).Account l := by
  obtain ⟨_, h⟩ := (Net.Account.empty name {}).add hn
  obtain ⟨_, h⟩ := h.add hm
  exact h.ask (.addLink source target) (by simp) fun _ _ _ ↦ hlinks

theorem account_sampleMuffled : ∃ l, sampleMuffled.Account l := by
  obtain ⟨_, hinner⟩ := Net.account_ofPair account_sampleSilent account_sampleMap "inner"
    ⟨"silent", "out"⟩ ⟨"map", "f"⟩ (by decide +kernel)
  obtain ⟨_, houter⟩ := Net.account_ofPair account_sampleNumbers
    (Net.account_boxed hinner (by decide +kernel)) "outer" ⟨"numbers", "to"⟩ ⟨"box", "in"⟩
    (by decide +kernel)
  exact houter.ask .compile (by simp) (by simp)

theorem account_sampleMuted : ∃ l, sampleMuted.Account l := by
  obtain ⟨_, hinner⟩ := Net.account_ofPair account_sampleNumbers account_sampleMap "inner"
    ⟨"numbers", "to"⟩ ⟨"map", "in"⟩ (by decide +kernel)
  obtain ⟨_, houter⟩ := Net.account_ofPair account_sampleSilent
    (Net.account_boxed hinner (by decide +kernel)) "outer" ⟨"silent", "out"⟩ ⟨"box", "f"⟩
    (by decide +kernel)
  exact houter.ask .compile (by simp) (by simp)

/-- Whether a node "map" that maps is in a net in a node "box". -/
def Net.hasMapper (g : Net) : Bool :=
  g.slots.any fun s ↦ s.key = "box" && s.node.inner?.any fun j ↦ j.slots.any fun r ↦
    r.key = "map" && r.node.behaviour matches .operation (.mapping ..)

theorem Net.exists_mapper {g : Net} (h : g.hasMapper = true) :
    ∃ s j r, s ∈ g.slots ∧ s.key = "box" ∧
      (∃ inputs outputs, s.node.behaviour = .nested j inputs outputs) ∧ r ∈ j.slots ∧
      r.key = "map" ∧ ∃ e f, r.node.behaviour = .operation (.mapping e f) := by
  simp only [hasMapper, List.any_eq_true, Option.any_eq_true, Bool.and_eq_true,
    decide_eq_true_eq] at h
  obtain ⟨s, hs, hbox, j, hj, r, hr, hmap, hop⟩ := h
  refine ⟨s, j, r, hs, hbox, Node.behaviour_of_inner? hj, hr, hmap, ?_⟩
  split at hop
  · rename_i e f hb
    exact ⟨e, f, hb⟩
  · exact absurd hop (by simp)

theorem isOk_execute_sampleMuted : (sampleMuted.execute 0).result.1 = .ok () := by
  have hok : (sampleMuted.execute 0).result.1.isOk = true := by decide +kernel
  obtain ⟨_, h⟩ := exists_ok_of_isOk hok
  exact h

/-- The panel of a node with a link to its operator. -/
def samplePanel : Panel where
  name := "map"
  typeName := "IntTransform"
  inputs := [{ name := "f", direction := .input, dataType := (Kind.mapping .int).dataType,
               linkCount := 1 }]

/-- Whether nothing was at an input of a node in a node that was to execute. -/
def isEmptyInside (outer inner : String) (place : Endpoint) : Except GraphError Unit → Bool
  | .error (.executionFailed a _ (.graph (.executionFailed b _ (.graph (.noData e))))) =>
    decide (a = outer ∧ b = inner ∧ e = place)
  | _ => false

theorem exists_noData {outer inner : String} {place : Endpoint} {x : Except GraphError Unit}
    (h : isEmptyInside outer inner place x = true) : ∃ typeName typeName',
      x = .error (.executionFailed outer typeName
        (.graph (.executionFailed inner typeName' (.graph (.noData place))))) := by
  unfold isEmptyInside at h
  split at h
  · obtain ⟨rfl, rfl, rfl⟩ := of_decide_eq_true h
    exact ⟨_, _, rfl⟩
  · exact absurd h (by simp)

theorem Net.noData_of_isStarved_samples :
    (sampleMuffled.isReady = true ∧
      ∃ j, Net.Within (sampleMuffled.execute 0).result.2 ["box"] j ∧ j.IsStarved ⟨"map", "f"⟩) ∧
    (sampleMuted.isReady = true ∧
      ∃ j, Net.Within (sampleMuted.execute 0).result.2 ["box"] j ∧ ¬ j.IsStarved ⟨"map", "f"⟩) ∧
    (Operation.mapping .int (· + 2)).execute samplePanel 0 =
      (Operation.mapping .int (· + 1)).execute samplePanel 0 := by
  obtain ⟨_, hmuffled⟩ := account_sampleMuffled
  obtain ⟨_, hmuted⟩ := account_sampleMuted
  have hready : sampleMuffled.isReady = true := by decide +kernel
  have hready' : sampleMuted.isReady = true := by decide +kernel
  obtain ⟨hfails, -, hsame⟩ := hmuffled.reachable.noData_of_isStarved hready 0
  obtain ⟨-, hpasses, -⟩ := hmuted.reachable.noData_of_isStarved hready' 0
  refine ⟨⟨hready, ?_⟩, ⟨hready', ?_⟩, hsame samplePanel "f" _ _ (.mapping .int _ _) (by decide)⟩
  · obtain ⟨s, j, r, hs, hbox, ⟨_, _, hb⟩, hr, hmap, e, f, hop⟩ :=
      Net.exists_mapper (g := (sampleMuffled.execute 0).result.2) (by decide +kernel)
    obtain ⟨typeName, typeName', he⟩ : ∃ typeName typeName', (sampleMuffled.execute 0).result.1 =
        .error (.executionFailed "box" typeName
          (.graph (.executionFailed "map" typeName' (.graph (.noData ⟨"map", "f"⟩))))) :=
      exists_noData (by decide +kernel)
    have hw : Net.Within (sampleMuffled.execute 0).result.2 ["box"] j :=
      hbox ▸ .step .here hs hb
    have hat : Net.ResultAt (sampleMuffled.execute 0).result.1 ["box"]
        (.error (.executionFailed "map" typeName' (.graph (.noData ⟨"map", "f"⟩)))) := by
      rw [he]
      exact .inside .here (.failed "box" typeName _)
    have hreplied : Net.Replied (.error (.executionFailed "map" typeName'
        (.graph (.noData ⟨"map", "f"⟩)))) r.key (.error (.graph (.noData ⟨"map", "f"⟩))) := by
      rw [hmap]
      exact .failed "map" typeName' _
    have hreply := hfails ["box"] j _ hw hat r hr _ hop _ hreplied "f" (List.mem_singleton_self "f")
    rw [hmap] at hreply
    exact ⟨j, hw, hreply.2 rfl⟩
  · obtain ⟨s, j, r, hs, hbox, ⟨_, _, hb⟩, hr, hmap, e, f, hop⟩ :=
      Net.exists_mapper (g := (sampleMuted.execute 0).result.2) (by decide +kernel)
    have hw : Net.Within (sampleMuted.execute 0).result.2 ["box"] j := hbox ▸ .step .here hs hb
    have hfed := hpasses isOk_execute_sampleMuted ["box"] j hw r hr _ hop "f"
      (List.mem_singleton_self "f")
    rw [hmap] at hfed
    exact ⟨j, hw, hfed⟩

/-- **What a node was made with is used although a link was to bring an operator**, if the link ends at
the node around. -/
theorem execute_sampleMuted :
    (∃ l, sampleMuted.Account l) ∧ sampleMuted.isReady = true ∧
    (sampleMuted.execute 0).result.1 = .ok () ∧
    Graph.IsStarved (sampleMuted.execute 0).result.2 ⟨"box", "f"⟩ ∧
    (∃ s j r, s ∈ (sampleMuted.execute 0).result.2.slots ∧ s.key = "box" ∧
      (∃ inputs outputs, s.node.behaviour = .nested j inputs outputs) ∧ r ∈ j.slots ∧
      r.key = "map" ∧ ∃ e f, r.node.behaviour = .operation (.mapping e f)) ∧
    ((sampleMuted.execute 0).result.2.node? "box").bind (·.binding? .input "f") =
      some ⟨"map", "f"⟩ ∧
    (Graph.held (sampleMuted.execute 0).result.2 ⟨"box", "out"⟩).bind
      (·.value.as? (.list .int)) = some [2, 3, 4] := by
  have hlinks : ((sampleMuted.execute 0).result.2.links.any fun l ↦
      l.target = ⟨"box", "f"⟩ && (Graph.held (sampleMuted.execute 0).result.2 l.source).isNone) =
        true := by decide +kernel
  obtain ⟨l, hl, hempty⟩ := List.any_eq_true.mp hlinks
  simp only [Bool.and_eq_true, decide_eq_true_eq, Option.isNone_iff_eq_none] at hempty
  exact ⟨account_sampleMuted, by decide +kernel, isOk_execute_sampleMuted, ⟨l, hl, hempty⟩,
    Net.exists_mapper (by decide +kernel), by decide +kernel, by decide +kernel⟩

end PortGraph
