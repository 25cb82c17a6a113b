import PortGraph.Proofs.Net.Live

/-!
# What compiling comes to

Whether a net compiles, and what is reported if it does not, is decided before any node is called:
`Net.verdict` says it of the net as it stands, and `Net.Coherent.compile_verdict` that compiling it
comes to that.  It is a matter of the shape alone (`Net.verdict_congr`).
-/

set_option autoImplicit false

namespace PortGraph

open PortGraph.Graph

/-! ## The plan of a shape -/

theorem Panel.position?_shape (panel : Panel) (side : Direction) (name : String) :
    (panel.through .shape).position? side name = panel.position? side name := by
  cases side <;> exact Port.position?_map Port.form_name

namespace Net

theorem nodeNames_through (lens : Lens) (g : Net) :
    Graph.nodeNames (through lens g) = g.nodeNames := by
  rw [through, nodeNames, List.map_map]
  rfl

theorem position_through (lens : Lens) (g : Net) (name : String) :
    Graph.position (through lens g) name = g.position name := by
  rw [position, position, through, List.findIdx?_map]
  rfl

theorem sorted_through (lens : Lens) (g : Net) : Graph.sorted (through lens g) = g.sorted := by
  have hedge : ∀ l : Link, Graph.edge (through lens g) l.unnumbered = g.edge l := by
    intro l
    rw [edge, edge, position_through, position_through]
    rfl
  have hnames : Graph.namesAt (through lens g) = g.namesAt := by
    funext positions
    rw [namesAt_eq, namesAt_eq, nodeNames_through]
  have hlinks : (through lens g).links.mapM (Graph.edge (through lens g)) = g.links.mapM g.edge := by
    rw [show (through lens g).links = g.links.map Link.unnumbered from rfl, List.mapM_map]
    exact congrArg (g.links.mapM ·) (funext hedge)
  rw [sorted, sorted, hlinks, hnames, through, List.length_map]

/-- **The plan is a matter of the shape.** -/
theorem plan_shape (g : Net) : Graph.plan (through .shape g) = g.plan := by
  have hsupplied : Graph.unsatisfied? (through .shape g) = g.unsatisfied? := by
    rw [unsatisfied?, through, List.findSome?_map, unsatisfied?]
    refine congrArg (List.findSome? · g.slots) (funext fun s ↦ ?_)
    rw [Function.comp_apply, Node.through, Panel.through, List.find?_map, Option.map_map]
    rfl
  have hposition : ∀ node side e,
      Graph.portPosition (through .shape g) node side e = g.portPosition node side e := by
    intro node side e
    rw [portPosition, portPosition, through, List.getElem?_map, Option.bind_map]
    simp only [Function.comp_def, Node.through, Panel.position?_shape]
  have hpull : ∀ l : Link, Graph.pull (through .shape g) l.unnumbered = g.pull l := by
    intro l
    simp only [pull, edge, position_through, hposition]
    rfl
  have hlinks : (through .shape g).links.mapM (Graph.pull (through .shape g)) =
      g.links.mapM g.pull := by
    rw [show (through .shape g).links = g.links.map Link.unnumbered from rfl, List.mapM_map]
    exact congrArg (g.links.mapM ·) (funext hpull)
  rw [plan, plan, sorted_through, hsupplied, hlinks]

theorem plan_congr {g k : Net} (h : through .shape k = through .shape g) : k.plan = g.plan := by
  rw [← plan_shape k, h, plan_shape]

end Net

/-! ## Verdicts -/

/-- What initialising the node at a position comes to, given the verdicts on all nodes. -/
def Graph.verdictAt {β : Type} (g : Graph β) (verdicts : List (Except NodeError Unit)) (i : Nat) :
    Except GraphError Unit :=
  match g.nodeNames[i]?, verdicts[i]? with
  | some name, some verdict => verdict.mapError (.initFailed name)
  | _, _ => .ok ()

/-- What initialising planned nodes comes to: the first of them that fails is reported. -/
def Graph.verdictWith {β : Type} (g : Graph β) (verdicts : List (Except NodeError Unit)) :
    Except GraphError Unit := do
  let schedule ← g.plan
  (schedule.map Step.node).forM (g.verdictAt verdicts)

namespace Behaviour

mutual

/-- What initialising a node comes to, unless the host made it for something. -/
def verdict : Behaviour → Except NodeError Unit
  | .operation _ => .ok ()
  | .probe p => if p.failsInit then .error (.failed "init refused") else .ok ()
  | .nested g _ _ => (g.verdictWith (verdicts g.slots)).mapError .graph

/-- What initialising nodes comes to. -/
def verdicts : List (Slot Behaviour) → List (Except NodeError Unit)
  | [] => []
  | s :: rest => verdict s.node.behaviour :: verdicts rest

end

theorem verdicts_eq_map (slots : List (Slot Behaviour)) :
    verdicts slots = slots.map fun s ↦ s.node.behaviour.verdict := by
  induction slots with
  | nil => rfl
  | cons s slots ih => rw [verdicts, ih, List.map_cons]

end Behaviour

/-- **What compiling a net comes to.** -/
def Net.verdict (g : Net) : Except GraphError Unit := g.verdictWith (Behaviour.verdicts g.slots)

theorem Graph.verdictWith_congr {β γ : Type} {g : Graph β} {k : Graph γ} (hp : k.plan = g.plan)
    (hn : k.nodeNames = g.nodeNames) (verdicts : List (Except NodeError Unit)) :
    k.verdictWith verdicts = g.verdictWith verdicts := by
  have hat : k.verdictAt verdicts = g.verdictAt verdicts := by
    funext i
    rw [verdictAt, verdictAt, hn]
  rw [verdictWith, verdictWith, hp, hat]

namespace Behaviour

mutual

/-- The verdict on a node is a matter of its shape. -/
theorem verdict_shape : ∀ b : Behaviour, (b.through .shape).verdict = b.verdict
  | .operation _ => rfl
  | .probe _ => rfl
  | .nested g inputs outputs => by
    have hplan := Net.plan_shape g
    have hnames := Net.nodeNames_through .shape g
    have hslots := verdicts_shape g.slots
    rw [slotsThrough_eq_map] at hslots
    rw [through_nested, verdict, verdict, verdictWith_congr hplan hnames]
    exact congrArg (fun vs ↦ (g.verdictWith vs).mapError NodeError.graph) hslots

theorem verdicts_shape : ∀ slots : List (Slot Behaviour),
    verdicts (slotsThrough .shape slots) = verdicts slots
  | [] => rfl
  | s :: rest => by
    rw [slotsThrough, verdicts, verdicts, verdict_shape s.node.behaviour, verdicts_shape rest]

end

theorem verdict_congr {b c : Behaviour} (h : c.through .shape = b.through .shape) :
    c.verdict = b.verdict := by
  rw [← verdict_shape c, h, verdict_shape]

end Behaviour

/-- **The verdict on a net is a matter of its shape.** -/
theorem Net.verdict_congr {g k : Net} (h : through .shape k = through .shape g) :
    k.verdict = g.verdict := by
  have hshape : ∀ j : Net, (through .shape j).verdict = j.verdict := by
    intro j
    have hslots := Behaviour.verdicts_shape j.slots
    rw [Behaviour.slotsThrough_eq_map] at hslots
    rw [verdict, verdict, verdictWith_congr (plan_shape j) (nodeNames_through .shape j)]
    exact congrArg j.verdictWith hslots
  rw [← hshape k, h, hshape]

/-! ## Favourable verdicts -/

theorem forM_eq_ok_iff {α ε : Type} {f : α → Except ε Unit} {as : List α} :
    as.forM f = .ok () ↔ ∀ a ∈ as, f a = .ok () := by
  induction as with
  | nil => exact ⟨fun _ a ha ↦ absurd ha (by simp), fun _ ↦ rfl⟩
  | cons a as ih =>
    change (f a >>= fun _ ↦ as.forM f) = .ok () ↔ _
    rw [List.forall_mem_cons, ← ih]
    cases f a with
    | error e => exact ⟨fun h ↦ absurd h (by simp [bind, Except.bind]), fun h ↦ absurd h.1 (by simp)⟩
    | ok _ => exact ⟨fun h ↦ ⟨rfl, h⟩, fun h ↦ h.2⟩

/-- A verdict is favourable if there is a plan and the verdicts on all nodes are. -/
theorem Graph.WellLinked.verdictWith_eq_ok_iff {β : Type} {g : Graph β} (h : g.WellLinked)
    {verdicts : List (Except NodeError Unit)} (hl : verdicts.length = g.slots.length) :
    g.verdictWith verdicts = .ok () ↔
      (∃ schedule, g.plan = .ok schedule) ∧ ∀ v ∈ verdicts, v = .ok () := by
  rw [verdictWith]
  cases hp : g.plan with
  | error e => exact ⟨fun h ↦ absurd h (by simp [bind, Except.bind]), fun h ↦ absurd h.1 (by simp)⟩
  | ok schedule =>
    have hnames : g.nodeNames.length = g.slots.length := List.length_map _
    refine forM_eq_ok_iff.trans ⟨fun hall ↦ ⟨⟨schedule, rfl⟩, fun v hv ↦ ?_⟩, fun hall i _ ↦ ?_⟩
    · obtain ⟨i, hi⟩ := List.mem_iff_getElem?.mp hv
      have hlt := hl ▸ (List.getElem?_eq_some_iff.mp hi).1
      have hok := hall i ((h.map_node_of_plan hp).2.symm.subset (List.mem_range.mpr hlt))
      rw [verdictAt, hi, List.getElem?_eq_getElem (hnames ▸ hlt)] at hok
      cases v with
      | ok _ => rfl
      | error e => exact absurd hok (by simp [Except.mapError])
    · rw [verdictAt]
      split
      · rename_i name v _ hv
        rw [hall.2 v (List.mem_of_getElem? hv)]
        rfl
      · rfl

theorem Net.verdict_eq_ok_iff {g : Net} (h : g.WellLinked) : g.verdict = .ok () ↔
    (∃ schedule, g.plan = .ok schedule) ∧
      ∀ s ∈ g.slots, s.node.behaviour.verdict = .ok () := by
  rw [verdict, Behaviour.verdicts_eq_map, h.verdictWith_eq_ok_iff (List.length_map _),
    List.forall_mem_map]

/-- **The verdict on a net that is ready is favourable**, unless a probe in it fails. -/
theorem Net.Coherent.verdict_of_isReady {g : Net} (h : g.Coherent) (hr : g.isReady = true)
    (hb : g.IsBuiltin) : g.verdict = .ok () := by
  induction h with
  | @intro g wellLinked cached inner ready ih =>
    refine (Net.verdict_eq_ok_iff wellLinked).mpr ⟨⟨_, cached.plan hr⟩, fun s hs ↦ ?_⟩
    cases hb s hs with
    | operation hn _ =>
      rw [hn]
      rfl
    | nested hn _ hbuiltin =>
      have hinit := forall_initialized_iff.mpr (cached.flags hr) s hs
      have hok := ih s hs _ _ _ hn (ready s hs _ _ _ hn hinit) hbuiltin
      rw [hn, Behaviour.verdict]
      exact congrArg (Except.mapError NodeError.graph) hok

/-! ## Initialising -/

/-- Initialising nodes at different positions reports the first of them that fails. -/
theorem Graph.initAll_eq {β : Type} {life : Lifecycle β} {is : List Nat} (hnd : is.Nodup)
    {verdicts : List (Except NodeError Unit)} {g : Graph β}
    (h : ∀ i ∈ is, ∀ s, g.slots[i]? = some s →
      ∃ v, verdicts[i]? = some v ∧ ∀ stamp, (life.init s.node stamp).result.1 = v) (stamp : Nat) :
    (initAll life is g stamp).result.1 = is.forM (g.verdictAt verdicts) := by
  induction is generalizing g stamp with
  | nil => rfl
  | cons i is ih =>
    rw [List.nodup_cons] at hnd
    obtain ⟨hi, his⟩ := List.forall_mem_cons.mp h
    change _ = (g.verdictAt verdicts i >>= fun _ ↦ is.forM (g.verdictAt verdicts))
    rcases initAll_cons life i is g stamp with
      ⟨hs, heq⟩ | ⟨s, hs, ⟨hok, stamp', heq⟩ | ⟨e, stamp', herr, heq⟩⟩
    · have hname : g.nodeNames[i]? = none := by
        rw [nodeNames, List.getElem?_map, hs, Option.map_none]
      rw [heq, ih hnd.2 his stamp, verdictAt, hname]
      rfl
    · obtain ⟨v, hv, hinit⟩ := hi s hs
      have hname : g.nodeNames[i]? = some s.key := getElem?_nodeNames hs
      obtain ⟨k, hk⟩ : ∃ k, k = g.setNodeAt i
        ((life.init s.node stamp).result.2.setInitialized true) := ⟨_, rfl⟩
      -- the nodes at the other positions are still there
      have hrest : ∀ j ∈ is, ∀ r, k.slots[j]? = some r →
          ∃ v, verdicts[j]? = some v ∧ ∀ stamp, (life.init r.node stamp).result.1 = v := by
        intro j hj r hr
        rw [hk, getElem?_setNodeAt hs, if_neg fun hij : i = j ↦ hnd.1 (hij ▸ hj)] at hr
        exact his j hj r hr
      have hat : k.verdictAt verdicts = g.verdictAt verdicts := by
        have hnames : k.nodeNames = g.nodeNames := hk ▸ map_modify_of_eq fun _ _ ↦ rfl
        funext j
        rw [verdictAt, verdictAt, hnames]
      rw [heq, ← hk, ih hnd.2 hrest stamp', hat, verdictAt, hname, hv, ← hinit stamp, hok]
      rfl
    · obtain ⟨v, hv, hinit⟩ := hi s hs
      have hname : g.nodeNames[i]? = some s.key := getElem?_nodeNames hs
      rw [heq, verdictAt, hname, hv, ← hinit stamp, herr]
      rfl

namespace Net

/-- The verdicts on the nodes of nets of one form. -/
theorem verdicts_of_form_eq {g k : Net} (h : through .form k = through .form g) :
    Behaviour.verdicts k.slots = Behaviour.verdicts g.slots := by
  have hshape : ∀ b : Behaviour, (b.through .form).verdict = b.verdict := by
    intro b
    rw [← Behaviour.verdict_shape, Behaviour.through_through, Lens.shape_after_form,
      Behaviour.verdict_shape]
  have hslots := congrArg (fun j : Net ↦ j.slots.map fun s ↦ s.node.behaviour.verdict) h
  simp only [through, List.map_map, Function.comp_def, Node.through, hshape] at hslots
  rwa [Behaviour.verdicts_eq_map, Behaviour.verdicts_eq_map]

/-- The nodes of a net that was cleared for a compilation come to their verdicts when they are
initialised, if all nodes of their depth do. -/
theorem exists_verdict_of_form_eq {level : Nat} {g k : Net}
    (hinit : ∀ n : Node Behaviour, n.IsBuiltin → n.behaviour.depth ≤ level →
      n.behaviour.Sound false → ∀ stamp,
        ((Behaviour.life (level + 1)).init n stamp).result.1 = n.behaviour.verdict)
    (hb : g.IsBuiltin) (hl : Behaviour.slotsDepth g.slots ≤ level)
    (hform : through .form k = through .form g) (hsound : k.Every (Behaviour.SoundAt (level + 1)))
    {i : Nat} {s : Slot Behaviour} (hs : k.slots[i]? = some s) :
    ∃ v, (Behaviour.verdicts g.slots)[i]? = some v ∧ ∀ stamp,
      ((Behaviour.life (level + 1)).init s.node stamp).result.1 = v := by
  have hmem := List.mem_of_getElem? hs
  refine ⟨s.node.behaviour.verdict, ?_, hinit s.node (hb.congr hform s hmem) ?_ ?_⟩
  · rw [← verdicts_of_form_eq hform, Behaviour.verdicts_eq_map, List.getElem?_map, hs,
      Option.map_some]
  · rw [← slotsDepth_eq_of_form_eq hform] at hl
    exact Behaviour.slotsDepth_le_iff.mp hl s hmem
  · exact fun j inputs outputs hn ↦
      ⟨((hsound s hmem).2 j inputs outputs hn).1, fun hf ↦ absurd hf (by simp)⟩

/-- **Compiling a net comes to the verdict** if initialising the nodes in it comes to theirs. -/
theorem Coherent.compile_eq_verdict {level : Nat} {g : Net}
    (hinit : ∀ n : Node Behaviour, n.IsBuiltin → n.behaviour.depth ≤ level →
      n.behaviour.Sound false → ∀ stamp,
        ((Behaviour.life (level + 1)).init n stamp).result.1 = n.behaviour.verdict)
    (h : g.Coherent) (hb : g.IsBuiltin) (hl : Behaviour.slotsDepth g.slots ≤ level) (stamp : Nat) :
    (Graph.compile (Behaviour.life (level + 1)) g stamp).result.1 = g.verdict := by
  have hg := (coherent_iff.mp h).1
  have hk := keepsOutline_life (level + 1)
  cases hr : g.isReady with
  | true => rw [compile_of_ready hr, h.verdict_of_isReady hr hb]
  | false =>
    cases hp : g.plan with
    | error e =>
      rw [compile_of_error hr hp, verdict, verdictWith, hp]
      rfl
    | ok schedule =>
      obtain ⟨stamp₁, stamp₂, heq⟩ := compile_of_plan (Behaviour.life (level + 1)) hr hp stamp
      obtain ⟨j, hj⟩ : ∃ j, j =
        (Graph.release (Behaviour.life (level + 1)) g stamp₁).result.resetOutputs := ⟨_, rfl⟩
      have himage : Graph.image (Behaviour.through .form) j =
          Graph.image (Behaviour.through .form) g := by
        rw [hj, image_resetOutputs]
        exact image_release hk (Behaviour.keepsTrait_form _) g stamp₁
      -- nothing is initialised any more, so each node is one that the verdict is about
      have hsound : j.Every (Behaviour.SoundAt (level + 1)) := by
        rw [hj]
        exact ((h.everyAt (Nat.le_succ_of_le hl)).release (Behaviour.keeps_life _) stamp₁).resetOutputs
      have hnd : (schedule.map Step.node).Nodup :=
        (hg.map_node_of_plan hp).2.nodup_iff.mpr List.nodup_range
      have hall := initAll_eq hnd (fun i _ s hs ↦
        exists_verdict_of_form_eq hinit hb hl (form_eq_of_image_eq himage) hsound hs) stamp₂
      have hfirst : (Graph.compile (Behaviour.life (level + 1)) g stamp).result.1 =
          (initAll (Behaviour.life (level + 1)) (schedule.map Step.node) j stamp₂).result.1 := by
        rw [heq, ← hj]
        rcases (initAll (Behaviour.life (level + 1)) (schedule.map Step.node) j stamp₂).result
          with ⟨e | _, k⟩ <;> rfl
      have hat : j.verdictAt (Behaviour.verdicts g.slots) =
          g.verdictAt (Behaviour.verdicts g.slots) := by
        funext i
        rw [verdictAt, verdictAt, nodeNames_of_skeleton_eq (skeleton_of_image_eq himage)]
      rw [hfirst, hall, hat, verdict, verdictWith, hp]
      rfl

end Net

/-- **Initialising a node comes to the verdict on it**, down to any level. -/
theorem Behaviour.init_eq_verdict (level : Nat) {n : Node Behaviour} (hb : n.IsBuiltin)
    (hl : n.behaviour.depth ≤ level) (hs : n.behaviour.Sound false) (stamp : Nat) :
    ((life (level + 1)).init n stamp).result.1 = n.behaviour.verdict := by
  induction level generalizing n stamp with
  | zero =>
    cases hb with
    | operation hn _ =>
      rw [init_operation hn, hn]
      rfl
    | nested hn _ _ => exact absurd hl (by simp [hn, depth])
  | succ level ih =>
    cases hb with
    | operation hn _ =>
      rw [init_operation hn, hn]
      rfl
    | @nested _ g inputs outputs hn _ hbuiltin =>
      rw [hn, depth, Nat.succ_le_succ_iff] at hl
      have hcompile := (hs g inputs outputs hn).1.compile_eq_verdict
        (fun n hb hl hs stamp ↦ ih hb hl hs stamp) hbuiltin hl stamp
      rw [init_nested hn, hn, verdict]
      exact congrArg (Except.mapError NodeError.graph) hcompile

namespace Net

/-- **Compiling a net comes to the verdict on it.** -/
theorem Coherent.compile_verdict {g : Net} (h : g.Coherent) (hb : g.IsBuiltin) {level : Nat}
    (hl : Behaviour.slotsDepth g.slots ≤ level) (stamp : Nat) :
    (Graph.compile (Behaviour.life (level + 1)) g stamp).result.1 = g.verdict :=
  h.compile_eq_verdict (fun _ ↦ Behaviour.init_eq_verdict level) hb hl stamp

end Net

end PortGraph
