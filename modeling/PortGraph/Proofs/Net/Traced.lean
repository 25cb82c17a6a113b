import PortGraph.Proofs.Net.Starved
import PortGraph.Proofs.Net.Wired

/-!
# Where a failure comes from

A net that fails reports the node that it failed for, together with what that node failed for; and if
this was a net in the node, it does the same.  So unwrapping an error leads from the outside in, and
`Net.Traced` says that it leads along nodes that hold one another, to one that fails on its own account.

Two things might come in between.  A node might be unable to feed the net in it; but it is wired to
inputs that are there (`Net.feedAll_eq_ok`).  And that net might not be ready; but it is, unless a host
called the node behind the back of the net around (`traced_of_failure`).
-/

set_option autoImplicit false

namespace PortGraph

open PortGraph.Graph
open PortGraph.Net (coherent_iff)

/-! ## Unwrapping errors -/

mutual

/-- The nodes that an error names, from the outside in. -/
def GraphError.trail : GraphError → List String
  | .initFailed name cause => name :: cause.trail
  | .executionFailed name _ cause => name :: cause.trail
  | _ => []

/-- The nodes that a failure names further in. -/
def NodeError.trail : NodeError → List String
  | .graph e => e.trail
  | _ => []

end

mutual

/-- What the innermost node that an error names failed for. -/
def GraphError.root : GraphError → NodeError
  | .initFailed _ cause => cause.root
  | .executionFailed _ _ cause => cause.root
  | e => .graph e

/-- What the innermost node that a failure names failed for; the failure itself if it names none. -/
def NodeError.root : NodeError → NodeError
  | .graph e => e.root
  | e => e

end

/-- A failure that is a node's own names no other node. -/
theorem NodeError.trail_of_isOwn {e : NodeError} (h : e.isOwn = true) :
    e.trail = [] ∧ e.root = e := by
  cases e with
  | graph e =>
    cases e with
    | initFailed | executionFailed => exact absurd h (by simp [isOwn])
    | _ => exact ⟨rfl, rfl⟩
  | _ => exact ⟨rfl, rfl⟩

/-! ## Traces -/

/-- The report of a net that a node failed to execute. -/
def Slot.executionFailed (s : Slot Behaviour) (cause : NodeError) : GraphError :=
  .executionFailed s.key s.node.typeName cause

/-- The report of a net that a node failed to initialise. -/
def Slot.initFailed (s : Slot Behaviour) (cause : NodeError) : GraphError := .initFailed s.key cause

/-- **An error is traced to a node**: the net reports a node of its own, which fails by itself, or holds
a net whose error is traced on.  The names are those of the nodes on the way there, from the outside in,
and the last one is that of the node itself. -/
inductive Net.Traced (report : Slot Behaviour → NodeError → GraphError)
    (Fails : Slot Behaviour → NodeError → Prop) :
    Net → GraphError → List String → NodeError → Prop
  /-- A node of the net fails by itself. -/
  | here {g : Net} {s : Slot Behaviour} {cause : NodeError} (hs : s ∈ g.slots) (h : Fails s cause) :
      Traced report Fails g (report s cause) [s.key] cause
  /-- The net in a node of the net fails. -/
  | inside {g j : Net} {s : Slot Behaviour} {inputs outputs : List Endpoint} {e : GraphError}
      {names : List String} {root : NodeError} (hs : s ∈ g.slots)
      (hb : s.node.behaviour = .nested j inputs outputs) (h : Traced report Fails j e names root) :
      Traced report Fails g (report s (.graph e)) (s.key :: names) root

theorem Net.Traced.imp {report : Slot Behaviour → NodeError → GraphError}
    {Fails Fails' : Slot Behaviour → NodeError → Prop} {g : Net} {e : GraphError}
    {names : List String} {root : NodeError} (h : g.Traced report Fails e names root)
    (himp : ∀ j, Relation.ReflTransGen Net.Holds g j → ∀ s ∈ j.slots, ∀ cause,
      Fails s cause → Fails' s cause) : g.Traced report Fails' e names root := by
  induction h with
  | here hs h => exact .here hs (himp _ .refl _ hs _ h)
  | inside hs hb _ ih =>
    exact .inside hs hb (ih fun j hj ↦ himp j (.head ⟨_, hs, _, _, hb⟩ hj))

/-- A trace ends where a node fails on its own account. -/
theorem Net.Traced.of_isOwn {report : Slot Behaviour → NodeError → GraphError}
    {Fails : Slot Behaviour → NodeError → Prop} {g : Net} {s : Slot Behaviour} {cause : NodeError}
    (hreport : (report s cause).trail = s.key :: cause.trail ∧ (report s cause).root = cause.root)
    (hs : s ∈ g.slots) (hown : cause.isOwn = true) (h : Fails s cause) :
    g.Traced report Fails (report s cause) (report s cause).trail (report s cause).root := by
  obtain ⟨htrail, hroot⟩ := NodeError.trail_of_isOwn hown
  rw [hreport.1, hreport.2, htrail, hroot]
  exact .here hs h

namespace Slot

variable (s : Slot Behaviour) (cause : NodeError)

/-- **A node that holds no net was executed and failed**, and it was left like that. -/
def Failed : Prop :=
  s.node.inner? = none ∧ ∃ (n : Node Behaviour) (stamp : Nat),
    (n.life.execute n stamp).result = (.error cause, s.node)

/-- A node holds a net that is not ready, and refuses to execute. -/
def IsUnready : Prop :=
  ∃ j inputs outputs, s.node.behaviour = .nested j inputs outputs ∧ j.isReady = false ∧
    cause = .graph (.notCompiled j.name)

/-- **A node that holds no net fails when it is initialised**, whatever stands on its ports. -/
def FailsInit : Prop :=
  s.node.inner? = none ∧ ∃ (n : Node Behaviour) (stamp : Nat),
    n.through .form = s.node.through .form ∧ (n.life.init n stamp).result.1 = .error cause

/-- A node holds a net whose links lead round in a cycle, and the nodes on it or behind it are named. -/
def HoldsCycle : Prop :=
  ∃ j inputs outputs names, s.node.behaviour = .nested j inputs outputs ∧ j.IsCyclic ∧
    (∀ v, v ∈ names ↔ j.Tangled v) ∧ cause = .graph (.cyclicGraph names)

end Slot

/-! ## Calls of nodes that hold no net -/

namespace Node

variable {n : Node Behaviour} {stamp : Nat} {e : NodeError}

/-- Such a node does the same at all levels of nesting. -/
theorem life_of_leaf (hn : n.inner? = none) (level : Nat) :
    (Behaviour.life (level + 1)).execute n = n.life.execute n ∧
      (Behaviour.life (level + 1)).init n = n.life.init n := by
  obtain ⟨panel, b⟩ := n
  rw [life, Behaviour.life, Behaviour.life, Lifecycle.around, Lifecycle.around]
  cases b with
  | nested g inputs outputs => exact absurd rfl (Behaviour.isLeaf_of_inner? hn g inputs outputs)
  | _ => exact ⟨rfl, rfl⟩

end Node

/-! ## Passes that fail -/

/-- **A pass that fails reports a node that is left as it failed.** -/
theorem Graph.exists_slot_of_executeSteps {β : Type} {life : Lifecycle β} {turns : List Step}
    {g k : Graph β} {stamp : Nat} {e : GraphError}
    (h : (executeSteps life turns g stamp).result = (.error e, k)) :
    ∃ s ∈ k.slots, ∃ n stamp' cause, (life.execute n stamp').result = (.error cause, s.node) ∧
      e = .executionFailed s.key s.node.typeName cause := by
  obtain ⟨j, i, s, n, stamp', cause, -, hs, hcall, rfl, rfl⟩ := executeSteps_eq_error h
  have hput : (j.setNodeAt i n).slots[i]? = some ⟨s.key, n⟩ := by
    rw [getElem?_setNodeAt hs, if_pos rfl]
  exact ⟨⟨s.key, n⟩, List.mem_of_getElem? hput, s.node, stamp', cause, hcall, rfl⟩

/-- A node whose net can be fed fails to execute only if that net does. -/
theorem Behaviour.execute_nested_error {level stamp : Nat} {n m : Node Behaviour} {j : Net}
    {inputs outputs : List Endpoint} {cause : NodeError}
    (h : ((life (level + 1)).execute n stamp).result = (.error cause, m))
    (hb : m.behaviour = .nested j inputs outputs)
    (hbound : ∀ e ∈ inputs, ∃ p, j.port? .input e = some p) :
    ∃ g e stamp', cause = .graph e ∧
      (Graph.execute (life level) g stamp').result = (.error e, j) := by
  have hform := (keepsTrait_form (level + 1)).execute n stamp
  rw [h, hb] at hform
  obtain ⟨g, hn, hg⟩ := eq_nested_of_form_eq hform.symm
  have hfed : (feedAll (n.panel.inputs.zip inputs) g).1 = .ok () :=
    Net.feedAll_eq_ok fun o ho ↦ by
      obtain ⟨p, hp⟩ := hbound o.2 (List.of_mem_zip ho).2
      have hport := Net.port?_form_eq hg .input o.2
      rw [hp] at hport
      exact (Option.map_eq_some_iff.mp hport).imp fun _ hq ↦ hq.1
  rw [execute_nested hn] at h
  rcases executeNested_fed (life level) hfed stamp with ⟨e, k, hrun, heq⟩ | ⟨k, -, heq⟩
  · obtain ⟨hcause, rfl⟩ := Prod.mk.inj (heq.symm.trans h)
    obtain ⟨rfl, -, -⟩ := nested.inj hb
    exact ⟨_, e, stamp, (Except.error.inj hcause).symm, hrun⟩
  · exact absurd (congrArg Prod.fst (heq.symm.trans h)) (by simp)

/-- **Where a wired node failed.**  By induction on the nets that it holds. -/
theorem Node.IsWired.traced_execute {m : Node Behaviour} (hm : m.IsWired) {k : Net}
    {s : Slot Behaviour} (hs : s ∈ k.slots) (hnode : s.node = m) {level stamp : Nat}
    {n : Node Behaviour} {cause : NodeError}
    (h : ((Behaviour.life level).execute n stamp).result = (.error cause, m)) :
    k.Traced Slot.executionFailed (fun s cause ↦ s.Failed cause ∨ s.IsUnready cause)
      (s.executionFailed cause) (s.executionFailed cause).trail (s.executionFailed cause).root := by
  obtain ⟨level, rfl⟩ : ∃ level', level = level' + 1 := by
    cases level with
    | zero => exact absurd (congrArg Prod.fst h) (by simp [Behaviour.life, Lifecycle.idle])
    | succ level => exact ⟨level, rfl⟩
  induction hm generalizing k s level stamp n cause with
  | leaf hleaf =>
    have hform := (Behaviour.keepsTrait_form (level + 1)).execute n stamp
    rw [h] at hform
    have hn : n.inner? = none := inner?_of_form_eq hleaf hform.symm
    have hown := (Behaviour.isLeaf_of_inner? hn).isOwn_execute (congrArg Prod.fst h)
    rw [(life_of_leaf hn level).1] at h
    exact .of_isOwn ⟨rfl, rfl⟩ hs hown
      (.inl ⟨hnode ▸ hleaf, n, stamp, hnode ▸ h⟩)
  | nested hb _ _ hbound _ ih =>
    obtain ⟨g, e, stamp', rfl, hrun⟩ := Behaviour.execute_nested_error h hb hbound
    cases hr : g.isReady with
    | false =>
      rw [Graph.execute, hr, if_neg (by simp)] at hrun
      obtain ⟨he, rfl⟩ := Prod.mk.inj hrun
      obtain rfl := Except.error.inj he
      exact .here hs (.inr ⟨g, _, _, hnode ▸ hb, hr, rfl⟩)
    | true =>
      rw [Graph.execute, if_pos hr] at hrun
      obtain ⟨r, hmem, n', stamp'', cause, hcall, rfl⟩ := exists_slot_of_executeSteps hrun
      cases level with
      | zero => exact absurd (congrArg Prod.fst hcall) (by simp [Behaviour.life, Lifecycle.idle])
      | succ level => exact .inside hs (hnode ▸ hb) (ih r hmem hmem rfl level hcall)

/-- **Where a net of wired nodes failed to execute.** -/
theorem Net.traced_execute {g k : Net} (hw : ∀ s ∈ g.slots, s.node.IsWired) (hr : g.isReady = true)
    {stamp : Nat} {e : GraphError} (h : (g.execute stamp).result = (.error e, k)) :
    k.Traced Slot.executionFailed (fun s cause ↦ s.Failed cause ∨ s.IsUnready cause) e e.trail
      e.root := by
  have hleft : (Graph.execute (Behaviour.life (Behaviour.slotsDepth g.slots + 1)) g stamp).result.2 =
      k := congrArg Prod.snd h
  have hform : through .form k = through .form g := hleft ▸ form_execute _ g stamp
  rw [Net.execute, Graph.execute, if_pos hr] at h
  obtain ⟨s, hs, n, stamp', cause, hcall, rfl⟩ := exists_slot_of_executeSteps h
  exact (isWired_of_form_eq hw hform s hs).traced_execute hs rfl hcall

/-! ## Compilations that fail -/

/-- Nets of one form have links between the same nodes. -/
theorem Net.feeds_form_eq {g k : Net} (h : through .form k = through .form g) :
    k.Feeds = g.Feeds := by
  have hseen : ∀ (j : Net) (u v : String), j.Feeds u v ↔
      ∃ ends ∈ j.links.map fun l ↦ (l.source, l.target), ends.1.node = u ∧ ends.2.node = v := by
    intro j u v
    rw [Feeds]
    simp
  funext u v
  rw [propext (hseen k u v), propext (hseen g u v), map_ends_form_eq h]

/-- The net in a wired node lacks a plan for no other reason than a cycle, in whatever state it is. -/
theorem Net.IsFormed.isCyclic_of_plan {g k : Net} (h : g.IsFormed)
    (hcovered : ∀ s ∈ g.slots, ∀ p ∈ s.node.panel.inputs, p.isSatisfied = true)
    (hk : through .form k = through .form g) {e : GraphError} (he : k.plan = .error e) :
    g.IsCyclic ∧ ∃ names, e = .cyclicGraph names ∧ ∀ v, v ∈ names ↔ g.Tangled v := by
  obtain ⟨j, hj, hform⟩ := h
  have hcyclic := hj.isCyclic_of_plan (fun s hs p hp ↦ by
    obtain ⟨r, hr, -, q, hq, hqp⟩ := exists_port_of_form_eq hform.symm hs .input hp
    have hsatisfied := congrArg Port.isSatisfied hqp
    exact hsatisfied.symm.trans (hcovered r hr q hq)) (hk.trans hform) he
  simp only [Graph.IsCyclic, Tangled] at hcyclic ⊢
  rwa [feeds_form_eq hform]

/-- If a net does not compile, it has no plan, or a node of the form of one of its own failed. -/
theorem Net.compile_cause {level stamp : Nat} {g : Net} {e : GraphError}
    (he : (Graph.compile (Behaviour.life level) g stamp).result.1 = .error e) :
    g.plan = .error e ∨ ∃ s ∈ g.slots, ∃ n stamp' cause, n.through .form = s.node.through .form ∧
      ((Behaviour.life level).init n stamp').result.1 = .error cause ∧ e = s.initFailed cause := by
  rcases Graph.compile_cause (keepsOutline_life level) (Behaviour.keepsTrait_form level) he with
    hp | ⟨s, hs, n, stamp', cause, ⟨hbare, hform⟩, hcause, rfl⟩
  · exact .inl hp
  · refine .inr ⟨s, hs, n, stamp', cause, Node.through_eq_iff.mpr ⟨?_, hform⟩, hcause, rfl⟩
    rw [← Panel.form_bare, hbare, Panel.form_bare]

/-- **Where a wired node failed to initialise**, in whatever state it was.  By induction on the nets that
it holds. -/
theorem Node.IsWired.traced_init {n : Node Behaviour} (hn : n.IsWired) {g : Net}
    {s : Slot Behaviour} (hs : s ∈ g.slots) (hnode : s.node = n) {level stamp : Nat}
    {m : Node Behaviour} {cause : NodeError} (hform : m.through .form = n.through .form)
    (h : ((Behaviour.life level).init m stamp).result.1 = .error cause) :
    g.Traced Slot.initFailed (fun s cause ↦ s.FailsInit cause ∨ s.HoldsCycle cause)
      (s.initFailed cause) (s.initFailed cause).trail (s.initFailed cause).root := by
  obtain ⟨level, rfl⟩ : ∃ level', level = level' + 1 := by
    cases level with
    | zero => exact absurd h (by simp [Behaviour.life, Lifecycle.idle])
    | succ level => exact ⟨level, rfl⟩
  induction hn generalizing g s level stamp m cause with
  | leaf hleaf =>
    have hm : m.inner? = none := inner?_of_form_eq hleaf (Node.through_eq_iff.mp hform).2
    have hown := (Behaviour.isLeaf_of_inner? hm).isOwn_init h
    rw [(life_of_leaf hm level).2] at h
    exact .of_isOwn ⟨rfl, rfl⟩ hs hown (.inl ⟨hnode ▸ hleaf, m, stamp, hnode ▸ hform, h⟩)
  | @nested n j inputs outputs hb formed covered _ _ ih =>
    have hbehaviour := (Node.through_eq_iff.mp hform).2
    rw [hb] at hbehaviour
    obtain ⟨k, hm, hk⟩ := Behaviour.eq_nested_of_form_eq hbehaviour
    rw [Behaviour.init_nested hm] at h
    cases hr : (Graph.compile (Behaviour.life level) k stamp).result.1 with
    | ok _ =>
      rw [Behaviour.reply, hr] at h
      exact absurd h (by simp [Except.mapError])
    | error e =>
      rw [Behaviour.reply, hr] at h
      obtain rfl := Except.error.inj h
      rcases Net.compile_cause hr with hp | ⟨r, hmem, m', stamp', cause, hform', hcause, rfl⟩
      · obtain ⟨hcyclic, names, rfl, hnames⟩ := formed.isCyclic_of_plan covered hk hp
        exact .here hs (.inr ⟨j, _, _, names, hnode ▸ hb, hcyclic, hnames, rfl⟩)
      · obtain ⟨r', hmem', hkey, heq⟩ := Net.exists_slot_of_form_eq hk hmem
        cases level with
        | zero => exact absurd hcause (by simp [Behaviour.life, Lifecycle.idle])
        | succ level =>
          have htraced := ih r' hmem' hmem' rfl (hform'.trans heq.symm) level hcause
          rw [Slot.initFailed, hkey] at htraced
          exact .inside hs (hnode ▸ hb) htraced

/-! ## Nets that come about -/

mutual

/-- **The nodes of the nets that come about are wired.** -/
theorem Net.Reachable.isWired : ∀ {g : Net}, g.Reachable → ∀ s ∈ g.slots, s.node.IsWired
  | _, .empty name factories => fun s hs ↦ absurd hs (by simp)
  | _, .described h => fun s hs ↦ (Net.isAtHand_of_ofDescription h s hs).wired
  | _, .step _ h hnode _ =>
    Node.told_isWired.perform (FactorySet.isWired_of_createWithin _ _)
      (coherent_iff.mp h.coherent).1 h.isWired fun n hr ↦ (hnode n hr).isWired
  | _, .saved path stamp h => h.isWired
  | _, .inner h hs hb => ((h.isWired _ hs).inner hb).2
  | _, .fed h hk => by
    obtain rfl := feed_eq_ok hk
    exact Net.isWired_of_form_eq h.isWired (Net.through_modifyPort_store .form _ _ _)

/-- **The nodes that a host has to add are wired.** -/
theorem Node.Offered.isWired : ∀ {n : Node Behaviour}, n.Offered → n.IsWired
  | _, .plain _ hn => .leaf hn
  | _, .wrapped h hn => Net.isWired_of_wrap (coherent_iff.mp h.coherent).1 h.isWired hn
  | _, .created hn => FactorySet.isWired_of_createWithin _ _ hn
  | _, .removed h hn => Node.told_isWired.of_removeNode h.isWired (keepsOutline_life _)
    (Behaviour.keepsTrait_form _) hn
  | _, .written h _ hb => h.isWired.congr (congrArg _ hb)

end

/-- **Errors lead to the node that failed**, at every depth.

If a pass over a ready net fails, then the nodes that the error names are those around the node that
failed, from the outside in, and that node itself, which holds no net; and what the error goes back to is
what that node replied when it was executed.

If a net does not compile because a node fails to initialise, then the error leads in the same way to a
node that holds no net and fails by itself, or to one that holds a net with a cycle.

These are the nets of `Net.Reachable`, in which a host leaves it to a graph to get its nodes ready, to
execute and to destroy them.  Where it called nodes of the net itself (`Net.Built`), a net inside may not be
ready although the net around is, and refuses to execute; that is all that may come in between. -/
theorem traced_of_failure :
    (∀ g : Net, g.Reachable → g.isReady = true → ∀ stamp e k,
      (g.execute stamp).result = (.error e, k) →
        k.Traced Slot.executionFailed Slot.Failed e e.trail e.root) ∧
    (∀ g : Net, g.Reachable ∨ g.Built → ∀ stamp name cause,
      (g.compile stamp).result.1 = .error (.initFailed name cause) →
        g.Traced Slot.initFailed (fun s cause ↦ s.FailsInit cause ∨ s.HoldsCycle cause)
          (.initFailed name cause) (name :: cause.trail) cause.root) ∧
    ∀ g : Net, g.Built → g.isReady = true → ∀ stamp e k,
      (g.execute stamp).result = (.error e, k) →
        k.Traced Slot.executionFailed (fun s cause ↦ s.Failed cause ∨ s.IsUnready cause) e e.trail
          e.root := by
  refine ⟨fun g h hr stamp e k hrun ↦ ?_, fun g h stamp name cause he ↦ ?_,
    fun g h hr stamp e k hrun ↦ Net.traced_execute (fun s hs ↦ (h.isAtHand s hs).wired) hr hrun⟩
  · have hleft : (Graph.execute (Behaviour.life (Behaviour.slotsDepth g.slots + 1)) g stamp).result.2 =
        k := congrArg Prod.snd hrun
    have hcoherent : k.Coherent :=
      hleft ▸ (h.coherent.executeWith (Behaviour.keeps_life _) (Nat.le_succ _) stamp).1
    have hready : k.isReady = true :=
      hleft ▸ (agrees_execute (keepsOutline_life _) g stamp).isReady.trans hr
    refine (Net.traced_execute h.isWired hr hrun).imp fun j hj s hs cause hfails ↦ ?_
    rcases hfails with hfailed | ⟨i, inputs, outputs, hb, hunready, -⟩
    · exact hfailed
    · have hinner := (hcoherent.isReady_of_holds hready (hj.tail ⟨s, hs, inputs, outputs, hb⟩)).2
      exact absurd hinner (by simp [hunready])
  · obtain ⟨hwell, hwired⟩ : g.WellLinked ∧ ∀ s ∈ g.slots, s.node.IsWired := by
      rcases h with h | h
      · exact ⟨(coherent_iff.mp h.coherent).1, h.isWired⟩
      · exact ⟨h.orderly.wellLinked, fun s hs ↦ (h.isAtHand s hs).wired⟩
    rcases Net.compile_cause he with hp | ⟨s, hs, n, stamp', cause', hform, hcause, heq⟩
    · exact absurd rfl (hwell.ne_initFailed_of_plan hp name cause)
    · have htraced := (hwired s hs).traced_init hs rfl hform hcause
      rw [← heq] at htraced
      exact htraced

/-! ## Failures two nets deep -/

/-- The nodes that an error names. -/
def trailOf : Except GraphError Unit → List String
  | .error e => e.trail
  | .ok _ => []

theorem exists_error_of_trailOf {x : Except GraphError Unit} {name : String} {names : List String}
    (h : trailOf x = name :: names) : ∃ e, x = .error e ∧ e.trail = name :: names := by
  cases x with
  | error e => exact ⟨e, rfl, h⟩
  | ok _ => exact absurd h (by simp [trailOf])

/-- A net of which a host called a node to give back what it took. -/
def Net.undone (g : Net) (name : String) : Net :=
  match g.node? name with
  | some n => g.modifyNode name fun _ ↦ (n.life.destroy n 0).result
  | none => g

theorem Net.Built.undone {g : Net} (h : g.Built) (name : String) : (g.undone name).Built := by
  rw [Net.undone]
  cases hn : g.node? name with
  | some n => exact .handled h hn (.destroyed 0)
  | none => exact h

/-- A net that is ready, and in it one that is not any more. -/
def sampleUndone : Net := ((Net.withNode "outer" sampleTwins.boxed).ask .compile).undone "box"

theorem built_sampleUndone : sampleUndone.Built := by
  have houter : (Net.withNode "outer" sampleTwins.boxed).Built :=
    .step _ (.empty "outer" {}) (fun n hn ↦ Request.addNode.inj hn ▸ built_sampleTwins.boxed.1)
      fun _ _ hr ↦ absurd hr (by simp)
  exact (houter.ask .compile (by simp) (by simp)).undone "box"

theorem traced_of_failure_samples :
    (∃ e k, (sampleMuffled.execute 0).result = (.error e, k) ∧ e.trail = ["box", "map"] ∧
      k.Traced Slot.executionFailed Slot.Failed e ["box", "map"] e.root) ∧
    (∃ name cause, ((Net.withBoxed sampleFuse).compile 0).result.1 = .error (.initFailed name cause) ∧
      (Net.withBoxed sampleFuse).Traced Slot.initFailed
        (fun s cause ↦ s.FailsInit cause ∨ s.HoldsCycle cause) (.initFailed name cause)
        ["box", "fuse"] cause.root) ∧
    ∃ e k, (sampleUndone.execute 0).result = (.error e, k) ∧ e.trail = ["box"] ∧
      k.Traced Slot.executionFailed (fun s cause ↦ s.Failed cause ∨ s.IsUnready cause) e ["box"]
        e.root := by
  obtain ⟨_, hmuffled⟩ := account_sampleMuffled
  obtain ⟨-, -, _, hfuse⟩ := account_sampleSupplied
  obtain ⟨hexecute, hcompile, hcalled⟩ := traced_of_failure
  refine ⟨?_, ?_, ?_⟩
  · obtain ⟨e, he, htrail⟩ := exists_error_of_trailOf (x := (sampleMuffled.execute 0).result.1)
      (show trailOf _ = ["box", "map"] by decide +kernel)
    exact ⟨e, _, Prod.ext he rfl, htrail, htrail ▸ hexecute _ hmuffled.reachable
      (by decide +kernel) 0 e _ (Prod.ext he rfl)⟩
  · obtain ⟨name, cause, he⟩ : ∃ name cause, ((Net.withBoxed sampleFuse).compile 0).result.1 =
        .error (.initFailed name cause) := exists_initFailed (by decide +kernel)
    have htrail : trailOf ((Net.withBoxed sampleFuse).compile 0).result.1 = ["box", "fuse"] := by
      decide +kernel
    rw [he] at htrail
    exact ⟨name, cause, he, htrail ▸ hcompile _ (.inl hfuse.reachable) 0 name cause he⟩
  · obtain ⟨e, he, htrail⟩ := exists_error_of_trailOf (x := (sampleUndone.execute 0).result.1)
      (show trailOf _ = ["box"] by decide +kernel)
    exact ⟨e, _, Prod.ext he rfl, htrail, htrail ▸ hcalled _ built_sampleUndone
      (by decide +kernel) 0 e _ (Prod.ext he rfl)⟩

end PortGraph
