import PortGraph.Proofs.Net.Cold
import PortGraph.Proofs.Net.Hosted
import PortGraph.Proofs.Net.Required

/-!
# Types are resolved alike at every depth

A node that holds a net is made by rebuilding the net, whose nodes are made by the same set, and so on,
with whatever creators a host registered (`FactorySet.hosted`).  So if these keep to what a creator is for
(`Creators.Complies`), an unknown type is one that the set does not know, be it that of the node or that of
a node inside (`FactorySet.exists_meets_of_unknownType`), and all nets inside get the same set.  Together
with what is known of the order of the factories that is `FactorySet.Resolves`.
-/

set_option autoImplicit false

namespace PortGraph

open PortGraph.Graph

/-! ## Who does not know a type -/

section Unknown

variable {β : Type} {t : String} {stamp : Nat}

theorem pure_ne_error {α ε : Type} {a : α} {e : ε} : (pure a : Except ε α) ≠ .error e := by
  simp [pure, Except.pure]

/-- What neither step fails with, both in a row do not fail with. -/
theorem bind_ne_error {α β ε : Type} {x : Except ε α} {f : α → Except ε β} {e : ε} (hx : x ≠ .error e)
    (hf : ∀ a, f a ≠ .error e) : x >>= f ≠ .error e := by
  intro h
  obtain h | ⟨a, -, h⟩ := bind_eq_error h
  · exact hx h
  · exact hf a h

theorem Attempt.bind_ne_error {α β : Type} {x : Attempt α} {f : α → Attempt β} {e : GraphError}
    (hx : (x.run stamp).result ≠ .error e) (hf : ∀ a stamp, ((f a).run stamp).result ≠ .error e) :
    ((x >>= f).run stamp).result ≠ .error e := by
  intro h
  obtain h | ⟨a, -, h⟩ := Attempt.of_bind_eq_error h
  · exact hx h
  · exact hf a _ h

/-- An action does not fail. -/
theorem Attempt.run_lift_ne_error {α : Type} {x : Act α} {e : GraphError} :
    ((liftM x : Attempt α).run stamp).result ≠ .error e :=
  fun h ↦ absurd (show Except.ok (x stamp).result = .error e from h) (by simp)

theorem Panel.addPort_ne_unknownType {panel : Panel} {side : Direction} {p : Port} :
    panel.addPort side p ≠ .error (.unknownType t) := by
  rw [addPort]
  split
  · simp
  · split <;> simp

theorem Panel.port_ne_unknownType {panel : Panel} {side : Direction} {name : String} :
    panel.port side name ≠ .error (.unknownType t) := by
  rw [port]
  split
  · simp
  · rw [missing]
    split <;> simp

theorem Panel.addPlanned_ne_unknownType {side : Direction} {plans : List PortPlan} {panel : Panel} :
    ((addPlanned side plans panel).run stamp).result ≠ .error (.unknownType t) := by
  induction plans generalizing panel stamp with
  | nil => exact fun h ↦ absurd h (by simp [addPlanned])
  | cons plan plans ih =>
    rw [addPlanned]
    refine Attempt.bind_ne_error Attempt.run_lift_ne_error fun p _ ↦ ?_
    exact Attempt.bind_ne_error (fun h ↦ addPort_ne_unknownType h) fun _ _ ↦ ih

theorem ProbePlan.node_ne_unknownType {plan : ProbePlan} {name : String} :
    ((plan.node name).run stamp).result ≠ .error (.unknownType t) := by
  rw [node]
  refine Attempt.bind_ne_error ?_ fun _ _ ↦ by simp
  rw [panel]
  exact Attempt.bind_ne_error Panel.addPlanned_ne_unknownType fun _ _ ↦
    Panel.addPlanned_ne_unknownType

theorem Node.configured_ne_unknownType {n : Node Behaviour} {d : NodeDescription} :
    ((n.configured d).run stamp).result ≠ .error (.unknownType t) := by
  rw [configured]
  split
  · simp
  · split <;> simp

namespace Graph

variable {g : Graph β}

theorem attempt_eq_error {α : Type} {op : Graph β → Act (Reply GraphError (Graph β) α)}
    {e : GraphError} (h : ((attempt op g).run stamp).result = .error e) :
    (op g stamp).result.1 = .error e := by
  simp only [attempt, ExceptT.run_mk, Act.bind_apply] at h
  rcases hr : (op g stamp).result with ⟨cause | a, k⟩
  · rw [hr] at h
    exact congrArg Except.error (Except.error.inj h)
  · rw [hr] at h
    exact absurd h (by simp)

theorem addNode_ne_unknownType {n : Node β} :
    (g.addNode n stamp).result.1 ≠ .error (.unknownType t) := by
  rw [addNode]
  split <;> simp

theorem node_ne_unknownType {name : String} : g.node name ≠ .error (.unknownType t) := by
  rw [node]
  split <;> simp

theorem linkType_ne_unknownType {source target : Endpoint} :
    g.linkType source target ≠ .error (.unknownType t) := by
  rw [linkType]
  refine bind_ne_error node_ne_unknownType fun _ ↦ bind_ne_error node_ne_unknownType fun _ ↦ ?_
  refine bind_ne_error Panel.port_ne_unknownType fun _ ↦ ?_
  refine bind_ne_error Panel.port_ne_unknownType fun _ ↦ ?_
  split
  · simp [throw, throwThe, MonadExceptOf.throw]
  · split
    · simp [throw, throwThe, MonadExceptOf.throw]
    · exact pure_ne_error

theorem addLink_ne_unknownType {source target : Endpoint} :
    (g.addLink source target stamp).result.1 ≠ .error (.unknownType t) := by
  intro h
  rw [addLink] at h
  cases hlink : g.linkType source target with
  | error e =>
    rw [hlink] at h
    exact linkType_ne_unknownType (hlink.trans (congrArg Except.error (Except.error.inj h)))
  | ok dataType =>
    rw [hlink] at h
    exact absurd (show (Except.ok _ : Except GraphError LinkId) = .error _ from h) (by simp)

theorem linkDescribed_ne_unknownType {ds : List LinkDescription} :
    ((linkDescribed ds g).run stamp).result ≠ .error (.unknownType t) := by
  induction ds generalizing g stamp with
  | nil => exact fun h ↦ absurd h (by simp [linkDescribed])
  | cons d ds ih =>
    rw [linkDescribed]
    exact Attempt.bind_ne_error (fun h ↦ addLink_ne_unknownType (attempt_eq_error h)) fun _ _ ↦ ih

variable {create : NodeDescription → Attempt (Node β)}

theorem addDescribed_eq_unknownType {ds : List NodeDescription}
    (h : ((addDescribed create ds g).run stamp).result = .error (.unknownType t)) :
    ∃ d ∈ ds, ∃ stamp', ((create d).run stamp').result = .error (.unknownType t) := by
  induction ds generalizing g stamp with
  | nil => exact absurd h (by simp [addDescribed])
  | cons d ds ih =>
    rw [addDescribed] at h
    rcases Attempt.of_bind_eq_error h with h | ⟨n, -, h⟩
    · exact ⟨d, List.mem_cons_self, stamp, h⟩
    · rcases Attempt.of_bind_eq_error h with h | ⟨_, -, h⟩
      · exact absurd (attempt_eq_error h) addNode_ne_unknownType
      · obtain ⟨d', hd', stamp', h⟩ := ih h
        exact ⟨d', List.mem_cons_of_mem _ hd', stamp', h⟩

/-- **A graph that is rebuilt misses a type only if one of its nodes does.** -/
theorem ofDescription_eq_unknownType {factories : FactorySet} {d : GraphDescription}
    (h : ((ofDescription create factories d).run stamp).result = .error (.unknownType t)) :
    ∃ n ∈ d.nodes, ∃ stamp', ((create n).run stamp').result = .error (.unknownType t) := by
  rw [ofDescription] at h
  rcases Attempt.of_bind_eq_error h with h | ⟨g, -, h⟩
  · exact addDescribed_eq_unknownType h
  · rcases Attempt.of_bind_eq_error h with h | ⟨_, -, h⟩
    · exact absurd h linkDescribed_ne_unknownType
    · exact absurd h (by simp)

/-- All nodes of a graph that is rebuilt are made. -/
theorem makes_of_ofDescription {factories : FactorySet} {d : GraphDescription}
    (h : ((ofDescription create factories d).run stamp).result = .ok g) :
    ∀ n ∈ d.nodes, ∃ m, n.Makes create m := by
  obtain ⟨j, -, hj, -⟩ := ofDescription_eq_ok_iff.mp h
  obtain ⟨-, -, -, slots, -, hall⟩ := addDescribed_eq_ok nodup_blank hj
  intro n hn
  obtain ⟨s, -, -, hmade⟩ := exists_of_forall₂ (List.Forall₂.flip (R := flip _) hall) n hn
  exact ⟨s.node, hmade⟩

end Graph

namespace Net

theorem expose_ne_unknownType {g : Net} {place : Endpoint} : g.expose place ≠ .error (.unknownType t) := by
  intro h
  rw [expose, changeInput] at h
  cases hn : g.node place.node with
  | error e =>
    rw [hn] at h
    exact node_ne_unknownType (hn.trans (congrArg Except.error (Except.error.inj h)))
  | ok n =>
    rw [hn] at h
    dsimp only at h
    cases hp : n.panel.port .input place.port with
    | error e =>
      rw [hp] at h
      exact Panel.port_ne_unknownType (hp.trans (congrArg Except.error (Except.error.inj h)))
    | ok p =>
      rw [hp] at h
      exact absurd h (by simp [Except.map])

theorem addOuterInputs_ne_unknownType {setters : List Accessor} {panel : Panel} {g : Net} :
    addOuterInputs setters panel g ≠ .error (.unknownType t) := by
  induction setters generalizing panel g with
  | nil => exact pure_ne_error
  | cons inner rest ih =>
    rw [addOuterInputs]
    refine bind_ne_error ?_ fun _ ↦ ih
    rw [addOuterInput]
    refine bind_ne_error Panel.addPort_ne_unknownType fun _ ↦ ?_
    exact bind_ne_error expose_ne_unknownType fun _ ↦ pure_ne_error

theorem addOuterOutputs_ne_unknownType {getters : List Accessor} {panel : Panel} :
    addOuterOutputs getters panel ≠ .error (.unknownType t) := by
  induction getters generalizing panel with
  | nil => exact pure_ne_error
  | cons inner rest ih =>
    rw [addOuterOutputs]
    exact bind_ne_error Panel.addPort_ne_unknownType fun _ ↦ ih

/-- **A net is not refused for an unknown type when it is put in a node**, whatever nodes are in it. -/
theorem wrap_ne_unknownType {name : String} {g : Net} :
    ((wrap name g).run stamp).result ≠ .error (.unknownType t) := by
  have hwrapped : wrapped? name g ≠ .error (.unknownType t) := by
    rw [wrapped?]
    refine bind_ne_error addOuterInputs_ne_unknownType fun _ ↦ ?_
    exact bind_ne_error addOuterOutputs_ne_unknownType fun _ ↦ pure_ne_error
  rw [wrap]
  refine Attempt.bind_ne_error (fun h ↦ hwrapped h) fun _ _ ↦ ?_
  exact Attempt.bind_ne_error Attempt.run_lift_ne_error fun _ _ ↦ by simp

end Net

/-- What a maker says of an unknown type it has from the net that it rebuilds. -/
theorem Maker.make_eq_unknownType {maker : Maker} {factories : FactorySet}
    {rebuild : GraphDescription → Attempt Net} {d : NodeDescription}
    (h : ((maker.make factories rebuild d).run stamp).result = .error (.unknownType t)) :
    maker = .nested ∧ ∃ inner, d.Holds inner ∧
      ∃ stamp', ((rebuild inner).run stamp').result = .error (.unknownType t) := by
  cases hop : maker.operation? with
  | some op =>
    rw [Maker.make_of_operation hop] at h
    rcases Attempt.of_bind_eq_error h with h | ⟨_, -, h⟩
    · exact absurd h Attempt.run_lift_ne_error
    · exact absurd h Node.configured_ne_unknownType
  | none =>
    cases maker with
    | nested =>
      refine ⟨rfl, ?_⟩
      rw [make] at h
      cases hc : d.config with
      | none =>
        rw [hc] at h
        exact absurd h Net.wrap_ne_unknownType
      | some config =>
        rw [hc] at h
        dsimp only at h
        cases hread : GraphDescription.ofJson config with
        | error e =>
          rw [hread] at h
          exact absurd h (by simp)
        | ok inner =>
          rw [hread] at h
          rcases Attempt.of_bind_eq_error h with h | ⟨_, -, h⟩
          · exact ⟨inner, ⟨config, hc, hread⟩, stamp, h⟩
          · exact absurd h Net.wrap_ne_unknownType
    | probe name plan =>
      rw [make] at h
      rcases Attempt.of_bind_eq_error h with h | ⟨_, -, h⟩
      · exact absurd h ProbePlan.node_ne_unknownType
      · exact absurd h Node.configured_ne_unknownType
    | _ => exact absurd hop (by simp [operation?])

/-- A node that holds a net is made by rebuilding the net. -/
theorem Maker.exists_rebuilt_of_make {factories : FactorySet}
    {rebuild : GraphDescription → Attempt Net} {d : NodeDescription} {n : Node Behaviour}
    (h : ((Maker.nested.make factories rebuild d).run stamp).result = .ok n)
    {inner : GraphDescription} (hinner : d.Holds inner) :
    ∃ g, ((rebuild inner).run stamp).result = .ok g := by
  obtain ⟨config, hc, hread⟩ := hinner
  rw [make, hc] at h
  dsimp only at h
  rw [hread] at h
  obtain ⟨g, hg, -⟩ := Attempt.of_bind_eq_ok h
  exact ⟨g, hg⟩

end Unknown

/-! ## The factories of nets inside -/

section Factories

variable {β : Type} {g k : Graph β} {stamp : Nat}

theorem Graph.factories_addDescribed {create : NodeDescription → Attempt (Node β)}
    {ds : List NodeDescription} (h : ((addDescribed create ds g).run stamp).result = .ok k) :
    k.factories = g.factories := by
  induction ds generalizing g stamp with
  | nil => exact congrArg Graph.factories (Except.ok.inj h).symm
  | cons d ds ih =>
    obtain ⟨n, -, -, h⟩ := addDescribed_cons_eq_ok_iff.mp h
    have hk := ih h
    exact hk

theorem Graph.factories_linkDescribed {ds : List LinkDescription}
    (h : ((linkDescribed ds g).run stamp).result = .ok k) : k.factories = g.factories := by
  induction ds generalizing g stamp with
  | nil => exact congrArg Graph.factories (Except.ok.inj h).symm
  | cons d ds ih =>
    obtain ⟨t, -, h⟩ := linkDescribed_cons_eq_ok_iff.mp h
    have hk := ih h
    exact hk

theorem Graph.factories_ofDescription {create : NodeDescription → Attempt (Node β)}
    {factories : FactorySet} {d : GraphDescription}
    (h : ((ofDescription create factories d).run stamp).result = .ok g) : g.factories = factories := by
  obtain ⟨j, k, hj, hk, rfl⟩ := ofDescription_eq_ok_iff.mp h
  exact (factories_linkDescribed hk).trans (factories_addDescribed hj)

end Factories

namespace Net

variable {g k : Net}

theorem factories_addOuterInputs {setters : List Accessor} {panel panel' : Panel}
    (h : addOuterInputs setters panel g = .ok (panel', k)) : k.factories = g.factories := by
  induction setters generalizing panel g with
  | nil => exact congrArg Graph.factories (Prod.mk.inj (Except.ok.inj h)).2.symm
  | cons inner rest ih =>
    rw [addOuterInputs] at h
    obtain ⟨⟨panel₁, g₁⟩, hadd, h⟩ := bind_eq_ok h
    obtain rfl := expose_eq_ok (addOuterInput_eq_ok hadd).1
    have hk := ih h
    exact hk

/-- A net inside is the net itself, or inside the net of one of its nodes. -/
theorem Within.cases_outer {path : List String} (h : g.Within path k) : k = g ∨
    ∃ s ∈ g.slots, ∃ j inputs outputs, s.node.behaviour = .nested j inputs outputs ∧
      ∃ path', Within j path' k := by
  induction h with
  | here => exact .inl rfl
  | @step _ _ j s inputs outputs _ hs hb ih =>
    rcases ih with rfl | ⟨r, hr, i, _, _, hi, path', hpath⟩
    · exact .inr ⟨s, hs, j, inputs, outputs, hb, [], .here⟩
    · exact .inr ⟨r, hr, i, _, _, hi, _, hpath.step hs hb⟩

end Net

/-- **All nets in a node have the same factories.** -/
def Behaviour.IsFurnished (set : FactorySet) (b : Behaviour) : Prop :=
  ∀ g inputs outputs, b = .nested g inputs outputs →
    ∀ path (k : Net), Net.Within g path k → k.factories = set

theorem Behaviour.isFurnished_nested {set : FactorySet} {g : Net} (hg : g.factories = set)
    (hall : g.Every fun b _ ↦ b.IsFurnished set) (inputs outputs : List Endpoint) :
    (Behaviour.nested g inputs outputs).IsFurnished set := by
  rintro g' _ _ hb path k hk
  obtain ⟨rfl, -, -⟩ := Behaviour.nested.inj hb
  rcases hk.cases_outer with rfl | ⟨s, hs, j, inputs, outputs, hj, path', hpath⟩
  · exact hg
  · exact hall s hs j inputs outputs hj path' k hpath

theorem Net.isFurnished_of_wrap {set : FactorySet} {g : Net} (hg : g.factories = set)
    (hall : g.Every fun b _ ↦ b.IsFurnished set) {name : String} {n : Node Behaviour} {stamp : Nat}
    (hn : ((wrap name g).run stamp).result = .ok n) : n.behaviour.IsFurnished set := by
  obtain ⟨_, _, k, hinputs, -, rfl⟩ := parts_of_wrap hn
  exact Behaviour.isFurnished_nested ((factories_addOuterInputs hinputs).trans hg)
    (every_of_cores_eq (cores_addOuterInputs hinputs) hall) _ _

/-- A net that is rebuilt hands its set on if its nodes do. -/
theorem isFurnished_of_ofDescription {set : FactorySet}
    {create : NodeDescription → Attempt (Node Behaviour)}
    (hcreate : ∀ d stamp n, ((create d).run stamp).result = .ok n → n.behaviour.IsFurnished set)
    {d : GraphDescription} {stamp : Nat} {g : Net}
    (hg : ((Graph.ofDescription create set d).run stamp).result = .ok g) :
    g.factories = set ∧ g.Every fun b _ ↦ b.IsFurnished set := by
  refine ⟨factories_ofDescription hg, ?_⟩
  obtain ⟨k, hk, rfl⟩ := assembled_ofDescription hcreate hg
  have hall : k.Every fun b _ ↦ b.IsFurnished set := by
    clear hg
    induction hk with
    | empty => exact fun s hs ↦ absurd hs (by simp)
    | push _ hn _ ih => exact ih.pushNode hn
    | insert _ _ _ ih => exact ih.insertLink _
  exact hall

/-! ## What a host keeps to -/

/-- **Creators keep to what they are for**: they call a type unknown only if the set that they were handed
does not know it, and if they make nets, these get that set. -/
structure Creators.Complies (host : Creators) (set : FactorySet) : Prop where
  /-- A type is called unknown only if no factory knows it. -/
  honest : ∀ (f : Factory) (entry : FactoryEntry) (d : NodeDescription) stamp t, entry.maker ≠ .nested →
    ((host f entry d set).run stamp).result = .error (.unknownType t) → set.contains t = false
  /-- Nets have the set that was handed over. -/
  furnished : ∀ (f : Factory) (entry : FactoryEntry) (d : NodeDescription) stamp n,
    entry.maker ≠ .nested → ((host f entry d set).run stamp).result = .ok n → n.behaviour.IsFurnished set

theorem Node.isFurnished_of_inner?_eq_none {set : FactorySet} {n : Node Behaviour} (h : n.inner? = none) :
    n.behaviour.IsFurnished set := by
  rintro g inputs outputs hb
  rw [inner?, hb] at h
  exact absurd h (by simp)

/-- Only one maker makes nodes that hold nets. -/
theorem Maker.inner?_of_make {maker : Maker} {factories : FactorySet}
    {rebuild : GraphDescription → Attempt Net} {d : NodeDescription} {n : Node Behaviour} {stamp : Nat}
    (hmaker : maker ≠ .nested)
    (h : ((maker.make factories rebuild d).run stamp).result = .ok n) : n.inner? = none := by
  cases made_of_make h with
  | operation _ hn => exact (Node.configured_eq_ok rfl hn).2
  | probe hm hn => exact (Node.configured_eq_ok (ProbePlan.isNew_of_node hm).2 hn).2
  | empty _ _ => exact absurd rfl hmaker
  | rebuilt _ _ _ _ => exact absurd rfl hmaker

/-- The creators of the library call no type unknown, and make no nets. -/
theorem Creators.complies_library (set : FactorySet) : library.Complies set where
  honest _ _ _ _ _ hmaker h := absurd (Maker.make_eq_unknownType h).1 hmaker
  furnished _ _ _ _ _ hmaker h :=
    Node.isFurnished_of_inner?_eq_none (Maker.inner?_of_make hmaker h)

/-! ## What is met when a node is made -/

namespace FactorySet

variable {set : FactorySet} {host : Creators} {d d' : NodeDescription} {t : String} {stamp : Nat}

/-- **The descriptions that a set meets** when it makes a node: its own, and those of the nodes of the
net that the node is to hold, and so on. -/
inductive Meets (set : FactorySet) : NodeDescription → NodeDescription → Prop
  /-- Its own description. -/
  | self (d : NodeDescription) : Meets set d d
  /-- One that is met when a node of the net in it is made. -/
  | inner {d n d' : NodeDescription} {entry : FactoryEntry} {inner : GraphDescription}
      (hentry : set.find? d.model = some entry) (hmaker : entry.maker = .nested)
      (hinner : d.Holds inner) (hn : n ∈ inner.nodes) (h : Meets set n d') : Meets set d d'

/-- How a node was made. -/
theorem createBy_eq_ok {make : Factory → FactoryEntry → NodeDescription → Attempt (Node Behaviour)}
    {n : Node Behaviour} (h : ((set.createBy make d).run stamp).result = .ok n) :
    ∃ f entry m, set.provider? d.model = some f ∧ f.find? d.model = some entry ∧
      ((make f entry d).run stamp).result = .ok m ∧ n = m.labelled d := by
  rcases set.provider?_cases d.model with hno | ⟨f, entry, hf, hentry⟩
  · rw [createBy_of_not_contains hno] at h
    exact absurd h (by simp)
  · rw [createBy_of_provider? hf hentry] at h
    obtain ⟨m, hm, h⟩ := Attempt.of_bind_eq_ok h
    exact ⟨f, entry, m, hf, hentry, hm, (Except.ok.inj h).symm⟩

/-- A node is made of a type that is known. -/
theorem contains_of_makes {n : Node Behaviour} (h : d.Makes (set.hosted host) n) :
    set.contains d.model = true := by
  obtain ⟨stamp, h⟩ := h
  rw [hosted_eq] at h
  obtain ⟨f, _, _, hf, -⟩ := createBy_eq_ok h
  rw [← isSome_provider?, hf]
  rfl

/-- **Whoever makes a node makes all nodes in it.** -/
theorem Meets.makes (h : set.Meets d d') {n : Node Behaviour} (hn : d.Makes (set.hosted host) n) :
    ∃ n', d'.Makes (set.hosted host) n' := by
  induction h generalizing n with
  | self d => exact ⟨n, hn⟩
  | inner hentry hmaker hinner hmem _ ih =>
    obtain ⟨stamp, hn⟩ := hn
    rw [hosted_eq] at hn
    obtain ⟨f, entry', m, hf, hentry', hm, -⟩ := createBy_eq_ok hn
    obtain rfl := Option.some.inj (hentry.symm.trans (find?_of_provider? hf hentry'))
    rw [Creators.make, hmaker] at hm
    obtain ⟨g, hg⟩ := Maker.exists_rebuilt_of_make hm hinner
    obtain ⟨n', hn'⟩ := makes_of_ofDescription hg _ hmem
    exact ih hn'

/-- A creator of a host called a type unknown. -/
def Denies (set : FactorySet) (host : Creators) (d : NodeDescription) (t : String) : Prop :=
  ∃ f entry stamp, set.provider? d.model = some f ∧ f.find? d.model = some entry ∧
    entry.maker ≠ .nested ∧ ((host f entry d set).run stamp).result = .error (.unknownType t)

theorem Denies.not_contains (h : set.Denies host d t) (hset : host.Complies set) :
    set.contains t = false := by
  obtain ⟨f, entry, stamp, -, -, hmaker, hdenied⟩ := h
  exact hset.honest f entry d stamp t hmaker hdenied

/-- **If a type is called unknown**, it is that of a description that is met, and the set does not know it,
or the creator of such a description calls it so. -/
theorem exists_meets_of_unknownType (d : NodeDescription) : ∀ {stamp : Nat},
    ((set.hosted host d).run stamp).result = .error (.unknownType t) →
      ∃ d', set.Meets d d' ∧
        (d'.model = t ∧ set.contains t = false ∨ set.Denies host d' t) := by
  induction d using NodeDescription.inner_induction with
  | step d ih =>
    intro stamp h
    rw [hosted_eq] at h
    rcases set.provider?_cases d.model with hno | ⟨f, entry, hf, hentry⟩
    · rw [createBy_of_not_contains hno] at h
      obtain rfl : d.model = t := GraphError.unknownType.inj (Except.error.inj h)
      exact ⟨d, .self d, .inl ⟨rfl, hno⟩⟩
    · rw [createBy_of_provider? hf hentry] at h
      rcases Attempt.of_bind_eq_error h with h | ⟨_, -, h⟩
      · by_cases hmaker : entry.maker = .nested
        · rw [Creators.make, hmaker] at h
          obtain ⟨-, inner, hinner, stamp', h⟩ := Maker.make_eq_unknownType h
          obtain ⟨n, hn, stamp', h⟩ := ofDescription_eq_unknownType h
          obtain ⟨d', hd', hmodel⟩ := ih inner hinner n hn h
          exact ⟨d', .inner (find?_of_provider? hf hentry) hmaker hinner hn hd', hmodel⟩
        · rw [Creators.make_of_ne hmaker] at h
          exact ⟨d, .self d, .inr ⟨f, entry, stamp, hf, hentry, hmaker, h⟩⟩
      · exact absurd h (by simp)

/-- **A node is refused for its own type just when no factory knows it**, if creators are honest. -/
theorem hosted_eq_unknownType_iff (h : host.Complies set) (d : NodeDescription) (stamp : Nat) :
    ((set.hosted host d).run stamp).result = .error (.unknownType d.model) ↔
      set.contains d.model = false := by
  constructor
  · intro hunknown
    obtain ⟨_, -, ⟨-, hno⟩ | hdenied⟩ := exists_meets_of_unknownType d hunknown
    · exact hno
    · exact hdenied.not_contains h
  · intro hno
    rw [hosted_eq, createBy_of_not_contains hno]
    rfl

/-- A set hands itself on to a node if it does to the nets that are rebuilt. -/
theorem isFurnished_of_make (hset : host.Complies set) {rebuild : GraphDescription → Attempt Net}
    (hrebuild : ∀ d stamp g, ((rebuild d).run stamp).result = .ok g →
      g.factories = set ∧ g.Every fun b _ ↦ b.IsFurnished set)
    {f : Factory} {entry : FactoryEntry} {n : Node Behaviour}
    (h : ((host.make set rebuild f entry d).run stamp).result = .ok n) :
    n.behaviour.IsFurnished set := by
  by_cases hmaker : entry.maker = .nested
  · rw [Creators.make, hmaker] at h
    cases Maker.made_of_make h with
    | operation hop _ => exact absurd hop (by simp [Maker.operation?])
    | empty _ hn => exact Net.isFurnished_of_wrap rfl (fun s hs ↦ absurd hs (by simp)) hn
    | rebuilt _ _ hg hn =>
      obtain ⟨hfactories, hall⟩ := hrebuild _ _ _ hg
      exact Net.isFurnished_of_wrap hfactories hall hn
  · rw [Creators.make_of_ne hmaker] at h
    exact hset.furnished f entry d stamp n hmaker h

/-- **A set hands itself on to the nets in the nodes that it makes**, if creators do.  By induction on the
levels of nesting. -/
theorem isFurnished_of_hostedWithin (hset : host.Complies set) (level : Nat) {n : Node Behaviour}
    (h : ((set.hostedWithin host level d).run stamp).result = .ok n) : n.behaviour.IsFurnished set := by
  induction level generalizing d n stamp with
  | zero =>
    obtain ⟨f, entry, m, -, -, hm, rfl⟩ := createBy_eq_ok h
    have hmade : m.behaviour.IsFurnished set := by
      refine isFurnished_of_make hset (fun _ stamp g hg ↦ ?_) hm
      exact absurd hg (by simp)
    exact hmade
  | succ level ih =>
    obtain ⟨f, entry, m, -, -, hm, rfl⟩ := createBy_eq_ok h
    have hmade : m.behaviour.IsFurnished set :=
      isFurnished_of_make hset (fun _ _ _ ↦ isFurnished_of_ofDescription fun _ _ _ ↦ ih) hm
    exact hmade

end FactorySet

/-! ## Priority -/

/-- **A set that some changes made goes by the order of its factories**, for a node and for all nodes in
it, whatever creators are registered. -/
structure FactorySet.Resolves (changes : List FactoryChange) (set : FactorySet) (host : Creators) :
    Prop where
  /-- No two factories have one name. -/
  names : (set.factories.map Factory.name).Nodup
  /-- The factories are those that stay, in the order in which they were added. -/
  ordered : ∃ dated : List (Nat × Factory), dated.map Prod.snd = set.factories ∧
    dated.Pairwise (fun x y ↦ x.1 < y.1) ∧ ∀ i f, (i, f) ∈ dated ↔ Stays changes i f
  /-- A type is provided by the earliest-added of them that knows it. -/
  provided : ∀ t f, set.provider? t = some f ↔ ∃ i, Stays changes i f ∧ f.contains t = true ∧
    ∀ j g, Stays changes j g → g.contains t = true → i ≤ j
  /-- A node of a known type is made by the creator that the provider has, and the net in it with the whole
  set. -/
  created : ∀ d, set.contains d.model = true → ∃ f entry, set.provider? d.model = some f ∧
    f.find? d.model = some entry ∧ set.hosted host d = (do
      let n ← host.make set (Graph.ofDescription (set.hosted host) set) f entry d
      return n.labelled d)
  /-- The creators of the library make what the library makes. -/
  library : set.hosted .library = set.createNode
  /-- A node is refused for its own type just when it is not known. -/
  refused : ∀ d stamp, ((set.hosted host d).run stamp).result = .error (.unknownType d.model) ↔
    set.contains d.model = false
  /-- The known types are listed, each once, by their first places. -/
  listed : set.typeNames.Nodup ∧ (∀ t, t ∈ set.typeNames ↔ set.contains t = true) ∧
    ∃ places : List (Nat × Nat), List.Forall₂ (IsFirstPlace changes) set.typeNames places ∧
      places.Pairwise Precedes
  /-- A factory that is offered takes no type over. -/
  added : ∀ f t, set.contains t = true → (set.perform (.add f)).provider? t = set.provider? t
  /-- One that is taken out leaves the types alone that it did not provide. -/
  erased : ∀ name t, (∀ f, set.provider? t = some f → f.name ≠ name) →
    (set.perform (.erase name)).provider? t = set.provider? t
  /-- For those that it did it uncovers the next one behind it that knows them. -/
  uncovered : ∀ f t before rest, set.factories = before ++ f :: rest → set.provider? t = some f →
    (set.perform (.erase f.name)).provider? t = rest.find? (·.contains t)
  /-- All that is met when a node is made is made by the set. -/
  met : ∀ (d : NodeDescription) n, d.Makes (set.hosted host) n → ∀ d', set.Meets d d' →
    set.contains d'.model = true ∧ ∃ n', d'.Makes (set.hosted host) n'
  /-- What is called unknown is a type that the set does not know, and that of a description that is met,
  unless the creator of such a description is who calls it so. -/
  blamed : ∀ d stamp t, ((set.hosted host d).run stamp).result = .error (.unknownType t) →
    set.contains t = false ∧ ∃ d', set.Meets d d' ∧ (d'.model = t ∨ set.Denies host d' t)
  /-- All nets in a node have the set. -/
  handed : ∀ (d : NodeDescription) n, d.Makes (set.hosted host) n → n.behaviour.IsFurnished set

/-- **Whatever factories are offered and taken out, types are resolved by priority at every depth.**  The
creators of the host may be any functions that keep to what they are for. -/
theorem FactorySet.resolves_after (changes : List FactoryChange) {host : Creators}
    (h : host.Complies (after changes)) : Resolves changes (after changes) host where
  names := hasNames_after changes
  ordered := exists_dated changes
  provided _ _ := provider?_after_iff
  created d hknown := by
    obtain ⟨f, entry, hf, hentry⟩ := exists_find?_of_contains hknown
    refine ⟨f, entry, hf, hentry, ?_⟩
    conv_lhs => rw [hosted_eq]
    exact createBy_of_provider? hf hentry
  library := hosted_library _
  refused := hosted_eq_unknownType_iff h
  listed := ⟨(typeNames_after changes).1, fun _ ↦ mem_typeNames_iff, (typeNames_after changes).2⟩
  added f _ hknown := provider?_add hknown f
  erased _ _ hother := (hasNames_after changes).provider?_erase hother
  uncovered _ _ _ _ hsplit hf := (hasNames_after changes).provider?_erase_self hsplit hf
  met _ _ hn _ hd' := by
    obtain ⟨n', hn'⟩ := hd'.makes hn
    exact ⟨contains_of_makes hn', n', hn'⟩
  blamed d stamp t hunknown := by
    obtain ⟨d', hd', ⟨hmodel, hno⟩ | hdenied⟩ := exists_meets_of_unknownType d hunknown
    · exact ⟨hno, d', hd', .inl hmodel⟩
    · exact ⟨hdenied.not_contains h, d', hd', .inr hdenied⟩
  handed _ _ hn := by
    obtain ⟨_, hn⟩ := hn
    exact isFurnished_of_hostedWithin h _ hn

/-! ## A host with creators of its own -/

/-- Two factories that know the same type; the second one also knows the type of nodes that hold nets. -/
def sampleFactories : List FactoryChange :=
  [.add ⟨"first", [⟨"Thing", "Things", .increment⟩]⟩,
    .add ⟨"second", [⟨"Thing", "Things", .increment⟩, ⟨nestedType, "Graphs", .nested⟩]⟩]

/-- Creators that do not make what the entries say: the things of the first factory hold nets. -/
def sampleCreators : Creators := fun f _ d set ↦
  if f.name = "first" then Net.wrap d.instanceName { name := "own", factories := set }
  else liftM ((Operation.sink (.scalar .int)).node d.instanceName)

theorem complies_sampleCreators (set : FactorySet) : sampleCreators.Complies set where
  honest f _ _ _ _ _ h := by
    rw [sampleCreators] at h
    split at h
    · exact absurd h Net.wrap_ne_unknownType
    · exact absurd h Attempt.run_lift_ne_error
  furnished f _ _ _ _ _ h := by
    rw [sampleCreators] at h
    split at h
    · exact Net.isFurnished_of_wrap rfl (fun s hs ↦ absurd hs (by simp)) h
    · obtain rfl := Except.ok.inj h
      exact Node.isFurnished_of_inner?_eq_none rfl

/-- A node with a net with a thing in it. -/
def sampleThings : NodeDescription where
  instanceName := "box"
  model := nestedType
  config := some ({ name := "inner", nodes := [{ instanceName := "thing", model := "Thing" }] } :
    GraphDescription).toConfig

/-- **A thing deep inside is made by the first factory**, and its net has the whole set.  The second factory
makes things once the first one is gone, and what is unknown is refused. -/
theorem resolves_after_sampleFactories :
    sampleCreators.Complies (FactorySet.after sampleFactories) ∧
    (∃ n, sampleThings.Makes ((FactorySet.after sampleFactories).hosted sampleCreators) n ∧
      n.behaviour.IsFurnished (FactorySet.after sampleFactories) ∧
      n.inner?.any (·.slots.any (·.node.inner?.isSome)) = true) ∧
    (((FactorySet.after sampleFactories).perform (.erase "first")).provider? "Thing").map
      Factory.name = some "second" ∧
    (((FactorySet.after sampleFactories).hosted sampleCreators
      { instanceName := "x", model := "Other" }).run 0).result = .error (.unknownType "Other") := by
  have hset := complies_sampleCreators (FactorySet.after sampleFactories)
  have h := FactorySet.resolves_after sampleFactories hset
  refine ⟨hset, ?_, ?_, (h.refused _ 0).mpr (by decide)⟩
  · obtain ⟨n, hn⟩ := exists_ok_of_isOk
      (x := (((FactorySet.after sampleFactories).hosted sampleCreators sampleThings).run 0).result)
      (by decide +kernel)
    have hinner : (((FactorySet.after sampleFactories).hosted sampleCreators
        sampleThings).run 0).result.toOption.any
          (·.inner?.any (·.slots.any (·.node.inner?.isSome))) = true := by decide +kernel
    rw [hn] at hinner
    exact ⟨n, ⟨0, hn⟩, h.handed _ n ⟨0, hn⟩, hinner⟩
  · have huncovered := h.uncovered ⟨"first", [⟨"Thing", "Things", .increment⟩]⟩ "Thing" []
      [⟨"second", [⟨"Thing", "Things", .increment⟩, ⟨nestedType, "Graphs", .nested⟩]⟩] rfl rfl
    exact congrArg (Option.map Factory.name) huncovered

end PortGraph
