import PortGraph.Proofs.Graph.Refusals
import PortGraph.Proofs.Net.Candid

/-!
# Required inputs are supplied at every depth

The net around everything answers for the required inputs of all nets in it.  If it is ready, then
from each of them a chain of bindings leads outwards, over inputs that are required as well, to one at
which a link ends (`Net.Supplied`).  If it is not, and its links do not lead round in a cycle, then it
compiles unless an input of its own nodes is in the way; nets inside are never to blame
(`supplied_of_account`).
-/

set_option autoImplicit false

namespace PortGraph

open PortGraph.Graph
open PortGraph.Net (coherent_iff)

/-! ## Nets inside, and what supplies them -/

namespace Net

/-- The nets inside a net, with the names of the nodes around each, the innermost first. -/
inductive Within (g : Net) : List String → Net → Prop
  /-- Around the net itself there is no node. -/
  | here : Within g [] g
  /-- A node of a net inside holds a net. -/
  | step {path : List String} {k j : Net} {s : Slot Behaviour} {inputs outputs : List Endpoint}
      (h : Within g path k) (hs : s ∈ k.slots) (hb : s.node.behaviour = .nested j inputs outputs) :
      Within g (s.key :: path) j

/-- **An input of a net inside is supplied**: a link ends there, or it is exposed, and the input that
stands for it on the node around is required and supplied. -/
inductive Supplied (g : Net) : List String → Endpoint → Prop
  /-- A link of its own net ends there. -/
  | linked {path : List String} {k : Net} {l : Link} (h : Within g path k) (hl : l ∈ k.links) :
      Supplied g path l.target
  /-- The node around feeds it, from an input that is required and supplied. -/
  | fed {path : List String} {k j : Net} {s : Slot Behaviour} {inputs outputs : List Endpoint}
      {e : Endpoint} {p q : Port} (h : Within g path k) (hs : s ∈ k.slots)
      (hb : s.node.behaviour = .nested j inputs outputs) (hp : j.port? .input e = some p)
      (hexposed : p.isExposed = true) (hq : q ∈ s.node.panel.inputs) (hrequired : q.isRequired = true)
      (hbinding : s.node.binding? .input q.name = some e) (outer : Supplied g path ⟨s.key, q.name⟩) :
      Supplied g (s.key :: path) e

/-- The nets inside a coherent net of candid nodes are such nets again. -/
theorem Within.coherent {g : Net} (hg : g.Coherent) (hc : ∀ s ∈ g.slots, s.node.IsCandid)
    {path : List String} {k : Net} (h : g.Within path k) :
    k.Coherent ∧ ∀ s ∈ k.slots, s.node.IsCandid := by
  induction h with
  | here => exact ⟨hg, hc⟩
  | step _ hs hb ih =>
    refine ⟨((coherent_iff.mp ih.1).2.2 _ hs _ _ _ hb).1, ?_⟩
    cases ih.2 _ hs with
    | leaf hleaf =>
      rw [Node.inner?, hb] at hleaf
      exact absurd hleaf (by simp)
    | nested hb' _ inner =>
      obtain ⟨rfl, -, -⟩ := Behaviour.nested.inj (hb.symm.trans hb')
      exact inner

end Net

/-- The panel of a candid node discloses what the net in it requires. -/
theorem Node.IsCandid.discloses {n : Node Behaviour} {g : Net} {inputs outputs : List Endpoint}
    (h : n.IsCandid) (hb : n.behaviour = .nested g inputs outputs) :
    n.panel.Discloses g inputs ∧ ∀ s ∈ g.slots, s.node.IsCandid := by
  cases h with
  | leaf hleaf =>
    rw [inner?, hb] at hleaf
    exact absurd hleaf (by simp)
  | nested hb' hd inner =>
    obtain ⟨rfl, rfl, -⟩ := Behaviour.nested.inj (hb.symm.trans hb')
    exact ⟨hd, inner⟩

/-- **In a ready net of candid nodes, all that nets inside require is supplied.**  By induction from the
net outwards in: what a net requires and does not link, the panel around it requires. -/
theorem Net.Within.supplied {g : Net} (hg : g.Coherent) (hr : g.isReady = true)
    (hl : ∀ s ∈ g.slots, s.node.IsLoose) {path : List String} {k : Net} (h : g.Within path k) :
    ∀ s ∈ k.slots, ∀ p ∈ s.node.panel.inputs, p.isRequired = true →
      g.Supplied path ⟨s.key, p.name⟩ := by
  have hc : ∀ s ∈ g.slots, s.node.IsCandid := fun s hs ↦ (hl s hs).candid
  induction h with
  | here =>
    intro s hs p hp hreq
    obtain ⟨hwell, hcached, -⟩ := coherent_iff.mp hg
    have hprepared := hwell.isPrepared hcached (keepsOutline_life 0) hr
    rcases hprepared.supplied s hs p hp hreq with ⟨l, hm, ht⟩ | hexposed
    · exact ht ▸ .linked .here hm
    · exact absurd ((hl s hs).unfed p hp) (by simp [hexposed])
  | @step path k j s inputs outputs h hs hb ih =>
    intro r hr p hp hreq
    obtain ⟨hk, hkc⟩ := h.coherent hg hc
    have hj := (coherent_iff.mp ((h.step hs hb).coherent hg hc).1).1
    have hport : j.port? .input ⟨r.key, p.name⟩ = some p := hj.port?_of_mem hr hp
    cases hfree : p.isLinked with
    | true =>
      obtain ⟨l, hm, ht⟩ := (hj.isLinked_iff hport).mp hfree
      have hlinked := Supplied.linked (h.step hs hb) hm
      rwa [show l.target = _ from ht] at hlinked
    | false =>
      obtain ⟨hexposed, hopen⟩ := ((hkc s hs).discloses hb).1 r hr p hp hfree
      obtain ⟨i, hi, hrequires⟩ := hopen hreq
      obtain ⟨q, hq, hqreq⟩ := (Option.any_eq_true _ _).mp hrequires
      have hnd := ((coherent_iff.mp hk).1.regular s hs).ports_nodup .input
      have hqm := List.mem_of_getElem? hq
      have hbinding : s.node.binding? .input q.name = inputs[i]? :=
        Node.binding?_of_getElem? (fun side ↦ side.casesOn inputs outputs) hb hnd hq
      exact .fed h hs hb hport hexposed hqm hqreq (hbinding.trans hi) (ih s hs q hqm hqreq)

/-! ## Who is to blame -/

mutual

/-- Whether a refusal goes back to a required input that nothing supplies. -/
def GraphError.isUnsatisfied : GraphError → Bool
  | .unsatisfiedInput _ => true
  | .initFailed _ cause => cause.isUnsatisfied
  | .executionFailed _ _ cause => cause.isUnsatisfied
  | .persistence _ cause => cause.isUnsatisfied
  | _ => false

/-- Whether a failure goes back to a required input that nothing supplies. -/
def NodeError.isUnsatisfied : NodeError → Bool
  | .graph e => e.isUnsatisfied
  | _ => false

end

theorem NodeError.isUnsatisfied_of_isOwn {e : NodeError} (h : e.isOwn = true) :
    e.isUnsatisfied = false := by
  cases e with
  | graph e =>
    cases e with
    | unsatisfiedInput | initFailed | executionFailed | persistence =>
      exact absurd h (by simp [isOwn])
    | _ => rfl
  | _ => rfl

/-- **A net in which every input is linked or exposed lacks a plan for no other reason than a cycle**, and
so does any net of its form. -/
theorem Graph.WellLinked.isCyclic_of_plan {g k : Net} (hg : g.WellLinked)
    (hs : ∀ s ∈ g.slots, ∀ p ∈ s.node.panel.inputs, p.isSatisfied = true)
    (hk : Net.through .form k = Net.through .form g) {e : GraphError} (h : k.plan = .error e) :
    g.IsCyclic ∧ ∃ names, e = .cyclicGraph names ∧ ∀ v, v ∈ names ↔ g.Tangled v := by
  have hnone : g.unsatisfied? = none :=
    unsatisfied?_eq_none_iff.mpr fun s hm p hp _ ↦ hs s hm p hp
  have hshape : Net.through .shape k = Net.through .shape g := by
    have hafter := Net.through_after_eq (b := .shape) hk
    rwa [Lens.shape_after_form] at hafter
  rw [Net.plan_congr hshape, hg.plan_eq_error_iff, hg.sorted_eq_error_iff, hnone] at h
  rcases h with ⟨hcyclic, names, rfl, -, hnames⟩ | ⟨-, place, hplace, -⟩
  · exact ⟨hcyclic, names, rfl, hnames⟩
  · exact absurd hplace (by simp)

/-- A panel discloses what a net requires only if each input of the net is linked or exposed. -/
theorem Panel.Discloses.isSatisfied {panel : Panel} {g : Net} {places : List Endpoint}
    (hd : panel.Discloses g places) :
    ∀ s ∈ g.slots, ∀ p ∈ s.node.panel.inputs, p.isSatisfied = true := fun s hs p hp ↦ by
  cases hfree : p.isLinked with
  | true => rw [Port.isSatisfied, hfree]; rfl
  | false => rw [Port.isSatisfied, (hd s hs p hp hfree).1, Bool.or_true]

/-- If the nodes of a net do not fail for what the nets in them require, then neither does the net that
is in a candid node. -/
theorem Net.Coherent.isUnsatisfied_compile {level : Nat}
    (hinit : ∀ {n m : Node Behaviour}, n.IsCandid → n.behaviour.Sound false →
      m.behaviour.through .form = n.behaviour.through .form → ∀ {stamp : Nat} {e : NodeError},
        ((Behaviour.life level).init m stamp).result.1 = .error e → e.isUnsatisfied = false)
    {g k : Net} (hg : g.Coherent) {panel : Panel} {places : List Endpoint}
    (hd : panel.Discloses g places) (hc : ∀ s ∈ g.slots, s.node.IsCandid)
    (hk : through .form k = through .form g) {stamp : Nat} {e : GraphError}
    (he : (Graph.compile (Behaviour.life level) k stamp).result.1 = .error e) :
    e.isUnsatisfied = false := by
  rcases compile_cause (keepsOutline_life level) (Behaviour.keepsTrait_form level) he with
    hp | ⟨s, hs, m, stamp', cause, ⟨-, hform⟩, hcause, rfl⟩
  · obtain ⟨-, _, rfl, -⟩ := (coherent_iff.mp hg).1.isCyclic_of_plan hd.isSatisfied hk hp
    rfl
  · obtain ⟨r, hr, -, heq⟩ := exists_slot_of_form_eq hk hs
    have hblameless := hinit (hc r hr) (hg.sound_of_mem hr)
      (hform.trans (Node.through_eq_iff.mp heq).2.symm) hcause
    exact hblameless

/-- **A candid node does not fail for what the net in it requires**, in whatever state the net is.  By
induction on the levels of nesting. -/
theorem Node.IsCandid.isUnsatisfied_init (level : Nat) {n m : Node Behaviour} (h : n.IsCandid)
    (hs : n.behaviour.Sound false) (hb : m.behaviour.through .form = n.behaviour.through .form)
    {stamp : Nat} {e : NodeError}
    (he : ((Behaviour.life level).init m stamp).result.1 = .error e) : e.isUnsatisfied = false := by
  induction level generalizing n m stamp e with
  | zero => exact absurd he (by simp [Behaviour.life, Lifecycle.idle])
  | succ level ih =>
    obtain hm | ⟨k, inputs, outputs, hm⟩ := m.behaviour.isLeaf_or_nested
    · exact NodeError.isUnsatisfied_of_isOwn (hm.isOwn_init he)
    · obtain ⟨g, hn, hg⟩ := Behaviour.eq_nested_of_form_eq (hb.symm.trans (congrArg _ hm))
      obtain ⟨hd, hinner⟩ := h.discloses hn
      rw [Behaviour.init_nested hm] at he
      cases hr : (Graph.compile (Behaviour.life level) k stamp).result.1 with
      | ok _ =>
        rw [Behaviour.reply, hr] at he
        exact absurd he (by simp [Except.mapError])
      | error cause =>
        rw [Behaviour.reply, hr] at he
        obtain rfl := Except.error.inj he
        have hblameless := (hs g _ _ hn).1.isUnsatisfied_compile ih hd hinner hg.symm hr
        exact hblameless

/-- A net inside is compiled without complaint about what it requires. -/
theorem Net.Within.isUnsatisfied_compile {g : Net} (hg : g.Coherent)
    (hc : ∀ s ∈ g.slots, s.node.IsCandid) {path : List String} {k : Net} (h : g.Within path k)
    (hpath : path ≠ []) {level stamp : Nat} {e : GraphError}
    (he : (Graph.compile (Behaviour.life level) k stamp).result.1 = .error e) :
    e.isUnsatisfied = false := by
  cases h with
  | here => exact absurd rfl hpath
  | step h hs hb =>
    obtain ⟨hk, hkc⟩ := h.coherent hg hc
    obtain ⟨hd, hinner⟩ := (hkc _ hs).discloses hb
    exact ((coherent_iff.mp hk).2.2 _ hs _ _ _ hb).1.isUnsatisfied_compile
      (Node.IsCandid.isUnsatisfied_init level) hd hinner rfl he

/-- A net that does not compile because a node fails does not fail for what nets inside require. -/
theorem Net.Account.isUnsatisfied_cause {g : Net} {l : Ledger} (h : g.Account l) {stamp : Nat}
    {name : String} {cause : NodeError}
    (he : (g.compile stamp).result.1 = .error (.initFailed name cause)) :
    cause.isUnsatisfied = false := by
  have hg := h.reachable.coherent
  rcases compile_cause (keepsOutline_life _) (Behaviour.keepsTrait_form _) he with
    hp | ⟨s, hs, m, stamp', cause', ⟨-, hform⟩, hcause, heq⟩
  · exact absurd rfl ((coherent_iff.mp hg).1.ne_initFailed_of_plan hp name cause)
  · obtain ⟨-, rfl⟩ := GraphError.initFailed.inj heq
    exact (h.isLoose s hs).candid.isUnsatisfied_init _ (hg.sound_of_mem hs) hform hcause

/-- A net of loose nodes lacks a plan for a required input exactly if it has one without a link, unless
it is cyclic. -/
theorem Net.Coherent.exists_unsatisfied_iff {g : Net} (hg : g.Coherent)
    (hl : ∀ s ∈ g.slots, s.node.IsLoose) (hcyclic : ¬ g.IsCyclic) :
    (∃ place, g.plan = .error (.unsatisfiedInput place)) ↔
      ∃ s ∈ g.slots, ∃ p ∈ s.node.panel.inputs, p.isRequired = true ∧
        ∀ m ∈ g.links, m.target ≠ ⟨s.key, p.name⟩ := by
  have hwell := (coherent_iff.mp hg).1
  -- an input that nothing feeds is supplied by a link or not at all
  have hsatisfied : ∀ s ∈ g.slots, ∀ p ∈ s.node.panel.inputs,
      p.isSatisfied = true ↔ ∃ m ∈ g.links, m.target = ⟨s.key, p.name⟩ := by
    intro s hs p hp
    rw [Port.isSatisfied, (hl s hs).unfed p hp, Bool.or_false]
    have hport : g.port? .input ⟨s.key, p.name⟩ = some p := hwell.port?_of_mem hs hp
    exact hwell.isLinked_iff hport
  have hplan := hwell.exists_plan_iff
  constructor
  · rintro ⟨place, hp⟩
    by_contra hno
    push Not at hno
    obtain ⟨schedule, hok⟩ := hplan.mpr ⟨hcyclic, fun s hs p hm hreq ↦
      (hsatisfied s hs p hm).mpr (hno s hs p hm hreq)⟩
    rw [hok] at hp
    exact absurd hp (by simp)
  · rintro ⟨s, hs, p, hm, hreq, hno⟩
    cases hp : g.plan with
    | ok schedule =>
      obtain ⟨m, hmem, ht⟩ := (hsatisfied s hs p hm).mp ((hplan.mp ⟨_, hp⟩).2 s hs p hm hreq)
      exact absurd ht (hno m hmem)
    | error e =>
      rcases hwell.plan_eq_error_iff.mp hp with hs | ⟨-, place, -, rfl⟩
      · exact absurd (hwell.sorted_eq_error_iff.mp hs).1 hcyclic
      · exact ⟨place, rfl⟩

/-- **What is required is supplied, at every depth.**  In a net that is ready, every required input of
every net in it has a link, or is exposed and traced back over required inputs of the nodes around to
one that has.  A net that is not ready and not cyclic is refused for an unsatisfied input exactly if one
of its own required inputs has no link; for the nets in its nodes it is never refused so.

The nets are those of `Net.Account`, in which a host adds ports to a node while the node is in its hands.
It does not add any to a node of a graph; there a required port could come in that no node around stands
for. -/
theorem supplied_of_account :
    (∀ (g : Net) (l : Ledger), g.Account l → g.isReady = true → ∀ path k, g.Within path k →
      ∀ s ∈ k.slots, ∀ p ∈ s.node.panel.inputs, p.isRequired = true →
        g.Supplied path ⟨s.key, p.name⟩) ∧
    (∀ (g : Net) (l : Ledger), g.Account l → g.isReady = false → ¬ g.IsCyclic → ∀ stamp,
      ((∃ place, (g.compile stamp).result.1 = .error (.unsatisfiedInput place)) ↔
        ∃ s ∈ g.slots, ∃ p ∈ s.node.panel.inputs, p.isRequired = true ∧
          ∀ m ∈ g.links, m.target ≠ ⟨s.key, p.name⟩)) ∧
    (∀ (g : Net) (l : Ledger), g.Account l →
      (∀ path k, g.Within path k → path ≠ [] → ∀ level stamp e,
        (Graph.compile (Behaviour.life level) k stamp).result.1 = .error e →
          e.isUnsatisfied = false) ∧
      ∀ stamp name cause, (g.compile stamp).result.1 = .error (.initFailed name cause) →
        cause.isUnsatisfied = false) ∧
    ∀ (n : Node Behaviour) (new : String → Option Packet), n.Account new → ∀ stamp e,
      (n.life.init n stamp).result.1 = .error e → e.isUnsatisfied = false := by
  refine ⟨fun g l h hr path k hk ↦ hk.supplied h.reachable.coherent hr h.isLoose,
    fun g l h hr hcyclic stamp ↦ ?_, fun g l h ↦ ⟨fun path k hk hpath level stamp e ↦ ?_,
      fun stamp name cause ↦ h.isUnsatisfied_cause⟩, fun n new h stamp e ↦ ?_⟩
  · rw [← h.reachable.coherent.exists_unsatisfied_iff h.isLoose hcyclic]
    exact exists_congr fun place ↦ compile_eq_error_iff hr (by simp) stamp
  · exact hk.isUnsatisfied_compile h.reachable.coherent (fun s hs ↦ (h.isLoose s hs).candid) hpath
  · exact h.isLoose.candid.isUnsatisfied_init _ h.offered.isFresh.sound rfl

/-! ## A required input two nets deep -/

/-- A node that requires a number. -/
def sampleSink : Node Behaviour := ((Operation.sink (.scalar .int)).node "sink" 0).result

/-- A node that fails to get ready. -/
def sampleFuse : Node Behaviour where
  panel := { name := "fuse", typeName := "Fuse" }
  behaviour := .probe { failsInit := true }

/-- A node that holds a net. -/
def Net.boxed (g : Net) : Node Behaviour :=
  ((wrap "box" g).run 0).result.toOption.getD sampleSource

/-- A net with a node. -/
def Node.alone (n : Node Behaviour) : Net := Net.ask { name := "inner" } (.addNode n)

/-- A net with a source, and with a node inside a node. -/
def Net.withBoxed (n : Node Behaviour) : Net :=
  [.addNode sampleSource, .addNode n.alone.boxed].foldl Net.ask { name := "outer" }

/-- A net in which the boxed node is supplied, and compiled. -/
def sampleSupplied : Net :=
  [.addLink ⟨"source", "to"⟩ ⟨"box", "from"⟩, .compile].foldl Net.ask (Net.withBoxed sampleSink)

theorem account_sampleSink : sampleSink.Account fun _ ↦ none :=
  .plain ((Operation.sink (.scalar .int)).isNew_panel "sink" 0) rfl

theorem account_sampleFuse : sampleFuse.Account fun _ ↦ none :=
  .plain (Panel.isNew_bare "fuse" "Fuse") rfl

theorem Net.account_boxed {g : Net} {l : Ledger} (h : g.Account l)
    (hok : ((wrap "box" g).run 0).result.isOk = true) : g.boxed.Account fun _ ↦ none := by
  obtain ⟨n, hn⟩ := exists_ok_of_isOk hok
  rw [boxed, hn]
  exact .wrapped h hn

theorem Net.account_withBoxed {n : Node Behaviour} (h : n.Account fun _ ↦ none)
    (hok : ((wrap "box" n.alone).run 0).result.isOk = true) : ∃ l, (withBoxed n).Account l := by
  obtain ⟨_, hinner⟩ := (Net.Account.empty "inner" {}).add h
  obtain ⟨_, houter⟩ := (Net.Account.empty "outer" {}).add account_sampleSource
  exact houter.add (account_boxed hinner hok)

theorem account_sampleSupplied : (∃ l, (Net.withBoxed sampleSink).Account l) ∧
    (∃ l, sampleSupplied.Account l) ∧ ∃ l, (Net.withBoxed sampleFuse).Account l := by
  obtain ⟨l, h⟩ := Net.account_withBoxed account_sampleSink (by decide +kernel)
  refine ⟨⟨l, h⟩, ?_, Net.account_withBoxed account_sampleFuse (by decide +kernel)⟩
  obtain ⟨_, h⟩ := h.ask (.addLink ⟨"source", "to"⟩ ⟨"box", "from"⟩) (by simp)
    fun _ _ _ ↦ by decide +kernel
  exact h.ask .compile (by simp) (by simp)

/-- Whether a node failed to get ready. -/
def isInitFailure : Except GraphError Unit → Bool
  | .error (.initFailed _ _) => true
  | _ => false

theorem exists_initFailed {x : Except GraphError Unit} (h : isInitFailure x = true) :
    ∃ name cause, x = .error (.initFailed name cause) := by
  unfold isInitFailure at h
  split at h
  · exact ⟨_, _, rfl⟩
  · exact absurd h (by simp)

theorem supplied_of_account_sampleSupplied :
    sampleSupplied.isReady = true ∧ sampleSupplied.Supplied ["box"] ⟨"sink", "from"⟩ ∧
    (Net.withBoxed sampleSink).isReady = false ∧
    (∃ place, ((Net.withBoxed sampleSink).compile 0).result.1 = .error (.unsatisfiedInput place)) ∧
    ∃ name cause, ((Net.withBoxed sampleFuse).compile 0).result.1 = .error (.initFailed name cause) ∧
      cause.isUnsatisfied = false := by
  obtain ⟨⟨_, hopen⟩, ⟨_, hsupplied⟩, ⟨_, hfuse⟩⟩ := account_sampleSupplied
  obtain ⟨hready, hunready, hblameless, -⟩ := supplied_of_account
  have hr : sampleSupplied.isReady = true := by decide +kernel
  have hu : (Net.withBoxed sampleSink).isReady = false := by decide +kernel
  have hlinks : (Net.withBoxed sampleSink).links = [] := by decide +kernel
  refine ⟨hr, ?_, hu, ?_, ?_⟩
  · have hinner : (sampleSupplied.slots.any fun s ↦ s.key = "box" && s.node.inner?.any fun k ↦
        k.slots.any fun r ↦ r.key = "sink" && r.node.panel.inputs.any fun p ↦
          p.name = "from" && p.isRequired) = true := by decide +kernel
    simp only [List.any_eq_true, Option.any_eq_true, Bool.and_eq_true, decide_eq_true_eq] at hinner
    obtain ⟨s, hs, hbox, k, hk, r, hr', hsink, p, hp, hfrom, hreq⟩ := hinner
    obtain ⟨inputs, outputs, hb⟩ := Node.behaviour_of_inner? hk
    have hsupplied := hready _ _ hsupplied hr _ _ (.step .here hs hb) r hr' p hp hreq
    rwa [hbox, hsink, hfrom] at hsupplied
  · have hrequired : ((Net.withBoxed sampleSink).slots.any fun s ↦
        s.node.panel.inputs.any Port.isRequired) = true := by decide +kernel
    simp only [List.any_eq_true] at hrequired
    obtain ⟨s, hs, p, hp, hreq⟩ := hrequired
    have hacyclic : ¬ (Net.withBoxed sampleSink).IsCyclic := by
      rintro ⟨v, hv⟩
      obtain ⟨_, ⟨m, hm, -⟩, -⟩ := Relation.TransGen.head'_iff.mp hv
      exact absurd (hlinks ▸ hm) (by simp)
    exact (hunready _ _ hopen hu hacyclic 0).mpr ⟨s, hs, p, hp, hreq, by simp [hlinks]⟩
  · obtain ⟨name, cause, he⟩ : ∃ name cause, ((Net.withBoxed sampleFuse).compile 0).result.1 =
        .error (.initFailed name cause) := exists_initFailed (by decide +kernel)
    exact ⟨name, cause, he, (hblameless _ _ hfuse).2 0 name cause he⟩

end PortGraph
