import PortGraph.Proofs.Graph.Refusals
import PortGraph.Proofs.Net.Fits
import PortGraph.Proofs.Net.Required

/-!
# What a release reaches

A net is cold (`Net.IsCold`) if nothing in it holds resources, however deep.  A release destroys the
nodes that are initialised, and a node hands it on to the net that it holds; nodes that are not
initialised are passed over, with all that is in them.  So a release leaves a cold net behind exactly if
what these hold was cold before (`Net.IsTidy`), and nothing that is asked of a net takes that away
(`Net.Coherent.isTidy_perform`).

What does is to wrap up a net that was compiled: its nodes stay initialised in a node that is not
(`Net.Coherent.tidy_wrap_iff`), and neither a release nor a failed compilation of the net around ever
gets to them (`not_isCold_behindFuse`).  A host that wraps up cold nets only can rely on both
(`Net.Reachable.cold_of_tidy`).
-/

set_option autoImplicit false

namespace PortGraph

open PortGraph.Graph
open PortGraph.Net (coherent_iff)

/-! ## Cold nets -/

/-- **Nothing in a net holds resources**: neither it nor a net in it, however deep, is ready or has a
node that is initialised. -/
def Net.IsCold (g : Net) : Prop :=
  ∀ k, Relation.ReflTransGen Net.Holds g k →
    k.isReady = false ∧ ∀ s ∈ k.slots, s.node.panel.isInitialized = false

/-- A node that is not initialised holds a cold net, if any. -/
def Behaviour.Tidy (b : Behaviour) (flag : Bool) : Prop :=
  flag = false → ∀ k inputs outputs, b = .nested k inputs outputs → Net.IsCold k

/-- **A net is tidy**: what a release of it passes over is cold. -/
def Net.IsTidy (g : Net) : Prop := g.Every Behaviour.Tidy

/-- What is known of the nodes that a lifecycle reaches. -/
def Behaviour.TidyAt (level : Nat) (b : Behaviour) (flag : Bool) : Prop :=
  b.SoundAt level flag ∧ b.Tidy flag

namespace Net

variable {g k : Net}

/-- A net is cold if its own nodes are not initialised and what they hold is cold. -/
theorem isCold_iff : g.IsCold ↔
    g.isReady = false ∧ g.Every fun b flag ↦ flag = false ∧ b.Tidy flag := by
  constructor
  · intro h
    obtain ⟨hready, hidle⟩ := h g .refl
    exact ⟨hready, fun s hs ↦ ⟨hidle s hs, fun _ k inputs outputs hb j hj ↦
      h j (.head ⟨s, hs, inputs, outputs, hb⟩ hj)⟩⟩
  · rintro ⟨hready, hall⟩ k hk
    rcases Relation.ReflTransGen.cases_head hk with rfl | ⟨j, ⟨s, hs, inputs, outputs, hb⟩, hj⟩
    · exact ⟨hready, fun s hs ↦ (hall s hs).1⟩
    · exact (hall s hs).2 (hall s hs).1 j inputs outputs hb k hj

theorem IsCold.isTidy (h : g.IsCold) : g.IsTidy := fun s hs ↦ ((isCold_iff.mp h).2 s hs).2

theorem isCold_of_isTidy (hready : g.isReady = false)
    (hidle : ∀ s ∈ g.slots, s.node.panel.isInitialized = false) (h : g.IsTidy) : g.IsCold :=
  isCold_iff.mpr ⟨hready, fun s hs ↦ ⟨hidle s hs, h s hs⟩⟩

/-- In a net that is ready no node is passed over. -/
theorem Coherent.isTidy_of_isReady (h : g.Coherent) (hr : g.isReady = true) : g.IsTidy := by
  intro s hs hidle
  rw [forall_initialized_iff.mpr ((coherent_iff.mp h).2.1.flags hr) s hs] at hidle
  exact absurd hidle (by simp)

theorem Coherent.everyTidyAt {level : Nat} (h : g.Coherent)
    (hl : Behaviour.slotsDepth g.slots ≤ level) (ht : g.IsTidy) :
    g.Every (Behaviour.TidyAt level) := fun s hs ↦ ⟨h.everyAt hl s hs, ht s hs⟩

/-! ## Calls -/

section Calls

variable {level stamp : Nat} {E : NodeError → Prop}

/-- **A release leaves a cold net behind**, if it is asked of a tidy one. -/
theorem Coherent.isCold_release (hq : (Behaviour.life level).Keeps (Behaviour.TidyAt level) E)
    (h : g.Coherent) (hl : Behaviour.slotsDepth g.slots ≤ level) (ht : g.IsTidy) :
    IsCold (Graph.release (Behaviour.life level) g stamp).result :=
  isCold_of_isTidy rfl (List.forall_mem_map.mp (flags_release _ g stamp)) fun s hs ↦
    ((h.everyTidyAt hl ht).release hq stamp s hs).2

/-- **So does a compilation in which a node fails.** -/
theorem Coherent.isCold_compile (hq : (Behaviour.life level).Keeps (Behaviour.TidyAt level) E)
    (h : g.Coherent) (hl : Behaviour.slotsDepth g.slots ≤ level) (ht : g.IsTidy) {name : String}
    {cause : NodeError} (he : (Graph.compile (Behaviour.life level) g stamp).result.1 =
      .error (.initFailed name cause)) :
    IsCold (Graph.compile (Behaviour.life level) g stamp).result.2 := by
  have hk := keepsOutline_life level
  obtain ⟨hg, -, -⟩ := coherent_iff.mp h
  have hleft := relinquished_compile hk hg he
  exact isCold_of_isTidy hleft.dormant.1 hleft.released fun s hs ↦
    ((h.everyTidyAt hl ht).compile hk hq hg stamp s hs).2

/-- A cold net that does not compile, for whatever reason, stays cold. -/
theorem IsCold.compile_of_error (hq : (Behaviour.life level).Keeps (Behaviour.TidyAt level) E)
    (hc : g.IsCold) (h : g.Coherent) (hl : Behaviour.slotsDepth g.slots ≤ level) {e : GraphError}
    (he : (Graph.compile (Behaviour.life level) g stamp).result.1 = .error e) :
    IsCold (Graph.compile (Behaviour.life level) g stamp).result.2 := by
  rcases compile_cases (keepsOutline_life level) (coherent_iff.mp h).1 (isCold_iff.mp hc).1 stamp with
    ⟨_, -, heq⟩ | ⟨-, ⟨_, -, hok, -⟩ | ⟨name, cause, hfailed, -⟩⟩
  · rw [heq]
    exact hc
  · rw [hok] at he
    exact absurd he (by simp)
  · exact h.isCold_compile hq hl hc.isTidy hfailed

theorem IsCold.feedAll (h : g.IsCold) (ports : List (Port × Endpoint)) :
    IsCold (Behaviour.feedAll ports g).2 :=
  isCold_iff.mpr ⟨(feedAll_agrees ports g).isReady.trans (isCold_iff.mp h).1,
    feedAll_every ports (isCold_iff.mp h).2⟩

/-- A cold net is not ready, and nothing in it is called when it is to execute. -/
theorem IsCold.execute (h : g.IsCold) (life : Lifecycle Behaviour) :
    IsCold (Graph.execute life g stamp).result.2 := by
  rw [Graph.execute, if_neg (by simp [(isCold_iff.mp h).1])]
  exact h

end Calls

end Net

namespace Behaviour

theorem tidy_nested {g : Net} {inputs outputs : List Endpoint} {flag : Bool}
    (h : flag = false → g.IsCold) : (nested g inputs outputs).Tidy flag := by
  rintro hidle k _ _ heq
  obtain ⟨rfl, -, -⟩ := nested.inj heq
  exact h hidle

/-- A node that holds no net is tidy. -/
theorem tidy_of_inner?_eq_none {n : Node Behaviour} (h : n.inner? = none) (flag : Bool) :
    n.behaviour.Tidy flag := by
  intro _ k inputs outputs hb
  rw [Node.inner?, hb] at h
  exact absurd h (by simp)

/-- A call makes no net where there was none, so only nodes that held one are to be looked at. -/
theorem tidy_of_form_eq {n m : Node Behaviour} {flag : Bool}
    (hform : m.behaviour.through .form = n.behaviour.through .form)
    (h : ∀ g inputs outputs, n.behaviour = .nested g inputs outputs → m.behaviour.Tidy flag) :
    m.behaviour.Tidy flag := by
  cases hn : n.inner? with
  | none => exact tidy_of_inner?_eq_none (Node.inner?_of_form_eq hn hform) flag
  | some g =>
    obtain ⟨inputs, outputs, hb⟩ := Node.behaviour_of_inner? hn
    exact h g inputs outputs hb

/-- What is kept at one level of nesting is kept at the next. -/
theorem keeps_tidy_succ {level : Nat} (hq : (life level).Keeps (TidyAt level) fun _ ↦ True) :
    (life (level + 1)).Keeps (TidyAt (level + 1)) fun _ ↦ True := by
  have hsound := keeps_life (level + 1)
  have hform := keepsTrait_form (level + 1)
  constructor
  case init =>
    intro n stamp h
    refine ⟨hsound.init n stamp h.1, tidy_of_form_eq (hform.init n stamp) fun g inputs outputs hb ↦ ?_⟩
    rw [hb] at h
    obtain ⟨hc, hl, -⟩ := h.1.of_nested
    rw [init_nested hb]
    -- a net that compiled is in a node that is initialised
    refine tidy_nested fun hfailed ↦ ?_
    cases hr : (Graph.compile (life level) g stamp).result.1 with
    | ok _ =>
      rw [reply, hr] at hfailed
      exact absurd hfailed (by simp [Except.mapError, Except.isOk, Except.toBool])
    | error e => exact (h.2 rfl g _ _ rfl).compile_of_error hq hc hl hr
  case execute =>
    intro n stamp h
    refine ⟨hsound.execute n stamp h.1,
      tidy_of_form_eq (hform.execute n stamp) fun g inputs outputs hb ↦ ?_⟩
    rw [hb] at h
    rw [execute_nested hb]
    rcases executeNested_eq (life level) n g inputs outputs stamp with
      ⟨e, -, -, heq⟩ | ⟨-, -, heq⟩
    · rw [heq]
      exact tidy_nested fun hidle ↦ (h.2 hidle g _ _ rfl).feedAll _
    · rw [heq]
      exact tidy_nested fun hidle ↦ ((h.2 hidle g _ _ rfl).feedAll _).execute _
  case fails => exact fun _ _ _ _ _ ↦ trivial
  case destroy =>
    intro n stamp h
    refine ⟨hsound.destroy n stamp h.1,
      tidy_of_form_eq (hform.destroy n stamp) fun g inputs outputs hb ↦ ?_⟩
    rw [hb] at h
    obtain ⟨hc, hl, hready⟩ := h.1.of_nested
    rw [destroy_nested hb]
    exact tidy_nested fun _ ↦ hc.isCold_release hq hl (hc.isTidy_of_isReady (hready rfl))

/-- **Calling the nodes of a net leaves cold what is in those that are not initialised.** -/
theorem keeps_tidy (level : Nat) : (life level).Keeps (TidyAt level) fun _ ↦ True := by
  induction level with
  | zero =>
    have hleaf : ∀ (n : Node Behaviour) flag flag', n.behaviour.TidyAt 0 flag →
        n.behaviour.Tidy flag' := by
      intro n flag flag' h _ k inputs outputs hb
      have hdepth := h.1.1
      rw [hb] at hdepth
      exact absurd hdepth (by simp [depth])
    have hsound := keeps_life 0
    exact ⟨fun n stamp h ↦ ⟨hsound.init n stamp h.1, hleaf n _ _ h⟩,
      fun n stamp h ↦ ⟨hsound.execute n stamp h.1, hleaf n _ _ h⟩, fun _ _ _ _ _ ↦ trivial,
      fun n stamp h ↦ ⟨hsound.destroy n stamp h.1, hleaf n _ _ h⟩⟩
  | succ level ih => exact keeps_tidy_succ ih

end Behaviour

/-! ## What is asked of a net -/

namespace Net

variable {g k : Net} {stamp : Nat}

/-- A net that was put together of tidy nodes is cold. -/
theorem isCold_of_assembled
    (h : Graph.Assembled (fun n : Node Behaviour ↦ n.IsFresh ∧ n.behaviour.Tidy false) g) :
    g.IsCold := by
  refine isCold_iff.mpr ⟨by cases h <;> rfl, ?_⟩
  induction h with
  | empty => exact fun s hs ↦ absurd hs (by simp)
  | push _ hn _ ih => exact ih.pushNode ⟨hn.1.idle, hn.1.idle ▸ hn.2⟩
  | insert _ _ _ ih => exact ih.insertLink _

theorem every_of_cores_eq {Q : Behaviour → Bool → Prop}
    (h : k.slots.map Slot.core = g.slots.map Slot.core) (hg : g.Every Q) : k.Every Q := by
  intro s hs
  have hmem : s.core ∈ g.slots.map Slot.core := h ▸ List.mem_map_of_mem hs
  obtain ⟨r, hr, heq⟩ := List.mem_map.mp hmem
  have hflag : r.node.panel.isInitialized = s.node.panel.isInitialized := congrArg (·.2.1) heq
  have hb : r.node.behaviour = s.node.behaviour := congrArg (·.2.2) heq
  rw [← hflag, ← hb]
  exact hg r hr

/-- A net is not ready any more as soon as an input of it is exposed. -/
theorem eq_of_addOuterInputs {setters : List Accessor} {panel panel' : Panel}
    (h : addOuterInputs setters panel g = .ok (panel', k)) :
    setters = [] ∧ k = g ∨ k.isReady = false := by
  induction setters generalizing panel g with
  | nil => exact .inl ⟨rfl, (Prod.mk.inj (Except.ok.inj h)).2.symm⟩
  | cons inner rest ih =>
    rw [addOuterInputs] at h
    obtain ⟨⟨panel₁, g₁⟩, hadd, h⟩ := bind_eq_ok h
    obtain rfl := expose_eq_ok (addOuterInput_eq_ok hadd).1
    rcases ih h with ⟨-, rfl⟩ | hready
    · exact .inr rfl
    · exact .inr hready

/-- **Wrapping up does not release**: what is in the node is cold if the net was cold before.  If the net
was ready and is empty, it is even ready still. -/
theorem Coherent.tidy_wrap_iff (h : g.Coherent) {name : String} {n : Node Behaviour}
    (hn : ((wrap name g).run stamp).result = .ok n) : n.behaviour.Tidy false ↔ g.IsCold := by
  obtain ⟨_, _, k, hinputs, -, rfl⟩ := parts_of_wrap hn
  have hcores := cores_addOuterInputs hinputs
  have hcold : (Behaviour.nested k (g.setters.map Accessor.place)
      (k.getters.map Accessor.place)).Tidy false ↔ k.IsCold :=
    ⟨fun ht ↦ ht rfl k _ _ rfl, fun hk ↦ Behaviour.tidy_nested fun _ ↦ hk⟩
  refine hcold.trans ?_
  rcases eq_of_addOuterInputs hinputs with ⟨-, rfl⟩ | hunready
  · exact .rfl
  · rw [isCold_iff, isCold_iff]
    refine ⟨fun ⟨_, hall⟩ ↦ ?_, fun ⟨_, hall⟩ ↦ ⟨hunready, every_of_cores_eq hcores hall⟩⟩
    have hidle := every_of_cores_eq hcores.symm hall
    refine ⟨?_, hidle⟩
    -- all nodes of a net that is ready are initialised, so it has none, and nothing was exposed
    by_contra hready
    have hready : g.isReady = true := by simpa using hready
    have hempty : g.slots = [] := List.eq_nil_iff_forall_not_mem.mpr fun s hs ↦ by
      have hflag := forall_initialized_iff.mpr ((coherent_iff.mp h).2.1.flags hready) s hs
      rw [(hidle s hs).1] at hflag
      exact absurd hflag (by simp)
    rw [setters, accessors, hempty] at hinputs
    rw [← (Prod.mk.inj (Except.ok.inj hinputs)).2, hready] at hunready
    exact absurd hunready (by simp)

end Net

/-- Every node that a factory makes holds a cold net, if any. -/
theorem FactorySet.tidy_of_createWithin (set : FactorySet) (level : Nat) {d : NodeDescription}
    {n : Node Behaviour} {stamp : Nat} (h : ((set.createWithin level d).run stamp).result = .ok n) :
    n.behaviour.Tidy false := by
  refine createWithin_induction_of_isFresh (P := fun n ↦ n.behaviour.Tidy false) (R := Net.IsCold)
    (fun hcreate d stamp g hg ↦ ?_) (fun _ hrebuild hm ↦ ?_) level h
  · obtain ⟨k, hk, rfl⟩ := assembled_ofDescription hcreate hg
    obtain ⟨hready, hall⟩ := Net.isCold_iff.mp (Net.isCold_of_assembled hk)
    exact Net.isCold_iff.mpr ⟨hready, hall⟩
  · rcases Maker.make_cases hm with ⟨-, hnone⟩ | ⟨g, _, _, hwrap, rfl | ⟨_, _, hg⟩⟩
    · exact Behaviour.tidy_of_inner?_eq_none hnone false
    · exact ((coherent_of_assembled (.empty _ _)).tidy_wrap_iff hwrap).mpr
        (Net.isCold_of_assembled (.empty _ _))
    · exact ((hrebuild _ _ g hg).1.tidy_wrap_iff hwrap).mpr (hrebuild _ _ g hg).2

namespace Net

variable {g : Net} {stamp : Nat}

/-- **Whatever is asked of a tidy net, it stays tidy**, if the nodes that are added hold cold nets. -/
theorem Coherent.isTidy_perform (h : g.Coherent) (ht : g.IsTidy) {r : Request Behaviour}
    (hnode : ∀ n, r = .addNode n → n.IsFresh ∧ n.behaviour.Tidy false) :
    IsTidy (r.perform g.life FactorySet.createNode g stamp).result := by
  have hbrings : ∀ n, r.Brings FactorySet.createNode g n → n.IsFresh ∧ n.behaviour.Tidy false := by
    intro n hn
    cases r with
    | addNode m => exact hnode n (congrArg Request.addNode hn.symm)
    | createNode d =>
      obtain ⟨_, hd⟩ := hn
      exact ⟨g.factories.isFresh_of_createWithin _ hd, g.factories.tidy_of_createWithin _ hd⟩
    | _ => exact hn.elim
  exact (h.everyTidyAt (Nat.le_succ _) ht).of_mayLeave (fun _ _ hb ↦ hb.2) (coherent_iff.mp h).1
    (keepsOutline_life _) (Behaviour.keeps_tidy _)
    (fun n hn ↦ (hbrings n hn).1.idle ▸ (hbrings n hn).2) r.perform_mayLeave

/-- A node that is taken out of a tidy net holds a cold net, if any. -/
theorem Coherent.tidy_removeNode (h : g.Coherent) (ht : g.IsTidy) {name : String}
    {n : Node Behaviour} (hn : (g.removeNode name stamp).result.1 = .ok n) :
    n.behaviour.Tidy false := by
  obtain ⟨m, -, hm, rfl, -⟩ := removeNode_eq_ok hn
  have hall := (h.everyTidyAt (Nat.le_succ _) ht).dropLinksOf name
  exact ((Behaviour.keeps_tidy _).release (hall _ (mem_of_node? hm)) stamp).2

/-- **A release passes over what is in nodes that are not initialised**: what it leaves is cold exactly if
that is. -/
theorem Coherent.isCold_release_iff (h : g.Coherent) :
    IsCold (g.release stamp).result ↔ g.IsTidy := by
  refine ⟨fun hc ↦ ?_, h.isCold_release (Behaviour.keeps_tidy _) (Nat.le_succ _)⟩
  have hall := g.life.forall₂_releaseAll (R := fun n m ↦
    m.behaviour.Tidy m.panel.isInitialized → n.behaviour.Tidy n.panel.isInitialized)
    (fun n stamp hm ↦ ?_) g.slots stamp
  · exact forall_of_forall₂ (hall.flip.imp fun _ _ hs ↦ hs.2) hc.isTidy
  · rw [Lifecycle.release] at hm
    split at hm
    · rename_i hready
      exact fun hidle ↦ absurd (hready.symm.trans hidle) (by simp)
    · exact hm

end Net

/-! ## Hosts that wrap up cold nets only -/

mutual

/-- The nets of a host that wraps up cold nets only. -/
inductive Net.Tended : Net → Prop
  /-- A new net is empty. -/
  | empty (name : String) (factories : FactorySet) : Net.Tended { name, factories }
  /-- A net was made of a description. -/
  | described {factories : FactorySet} {d : GraphDescription} {stamp : Nat} {g : Net}
      (h : ((Net.ofDescription factories d).run stamp).result = .ok g) : Net.Tended g
  /-- The host asked for something.  The id of a link is new. -/
  | step {g : Net} {stamp : Nat} (r : Request Behaviour) (h : Net.Tended g)
      (hnode : ∀ n, r = .addNode n → Node.Tended n)
      (hfresh : ∀ source target, r = .addLink source target →
        ∀ l ∈ g.links, l.id ≠ (Act.newLinkId stamp).result) :
      Net.Tended (r.perform g.life FactorySet.createNode g stamp).result
  /-- The net was saved. -/
  | saved {g : Net} (path : String) (stamp : Nat) (h : Net.Tended g) :
      Net.Tended (g.markSaved path stamp).result

/-- The nodes that such a host has to add. -/
inductive Node.Tended : Node Behaviour → Prop
  /-- A new node that holds no net. -/
  | plain {n : Node Behaviour} (hp : n.panel.IsFresh) (hn : n.inner? = none) : Node.Tended n
  /-- A node that holds a net, which was cold. -/
  | wrapped {g : Net} {name : String} {stamp : Nat} {n : Node Behaviour} (h : Net.Tended g)
      (hc : g.IsCold) (hn : ((Net.wrap name g).run stamp).result = .ok n) : Node.Tended n
  /-- A node that was made by factories. -/
  | created {factories : FactorySet} {d : NodeDescription} {stamp : Nat} {n : Node Behaviour}
      (hn : ((factories.createNode d).run stamp).result = .ok n) : Node.Tended n
  /-- A node that was taken out of a net. -/
  | removed {g : Net} {name : String} {stamp : Nat} {n : Node Behaviour} (h : Net.Tended g)
      (hn : (g.removeNode name stamp).result.1 = .ok n) : Node.Tended n
  /-- Such a node, whatever else the host wrote on its panel. -/
  | written {n m : Node Behaviour} (h : Node.Tended n) (hp : m.panel.IsFresh)
      (hb : m.behaviour = n.behaviour) : Node.Tended m

end

mutual

/-- Such nets come about. -/
theorem Net.Tended.reachable : ∀ {g : Net}, g.Tended → g.Reachable
  | _, .empty name factories => .empty name factories
  | _, .described h => .described h
  | _, .step r h hnode hfresh => .step r h.reachable (fun n hr ↦ (hnode n hr).offered) hfresh
  | _, .saved path stamp h => .saved path stamp h.reachable

/-- Such nodes are offered. -/
theorem Node.Tended.offered : ∀ {n : Node Behaviour}, n.Tended → n.Offered
  | _, .plain hp hn => .plain hp hn
  | _, .wrapped h _ hn => .wrapped h.reachable hn
  | _, .created hn => .created hn
  | _, .removed h hn => .removed h.reachable hn
  | _, .written h hp hb => .written h.offered hp hb

end

mutual

/-- **The nets of a host that wraps up cold nets only are tidy.** -/
theorem Net.Tended.isTidy : ∀ {g : Net}, g.Tended → g.IsTidy
  | _, .empty name factories => (Net.isCold_of_assembled (.empty name factories)).isTidy
  | _, .described h => by
    obtain ⟨k, hk, rfl⟩ : ∃ k, Graph.Assembled (fun n ↦ n.IsFresh ∧ n.behaviour.Tidy false) k ∧
        _ = { k with isModified := false } :=
      assembled_ofDescription (fun _ _ _ hn ↦ ⟨FactorySet.isFresh_of_createWithin _ _ hn,
        FactorySet.tidy_of_createWithin _ _ hn⟩) h
    exact (Net.isCold_of_assembled hk).isTidy
  | _, .step _ h hnode _ => h.reachable.coherent.isTidy_perform h.isTidy fun n hr ↦
    ⟨(hnode n hr).offered.isFresh, (hnode n hr).tidy⟩
  | _, .saved _ _ h => h.isTidy

/-- The nodes that it has to add hold cold nets, if any. -/
theorem Node.Tended.tidy : ∀ {n : Node Behaviour}, n.Tended → n.behaviour.Tidy false
  | _, .plain _ hn => Behaviour.tidy_of_inner?_eq_none hn false
  | _, .wrapped h hc hn => (h.reachable.coherent.tidy_wrap_iff hn).mpr hc
  | _, .created hn => FactorySet.tidy_of_createWithin _ _ hn
  | _, .removed h hn => h.reachable.coherent.tidy_removeNode h.isTidy hn
  | _, .written h _ hb => hb ▸ h.tidy

end

/-- **A release reaches every depth, unless a net was wrapped up that held resources.**  It leaves a cold
net exactly if the net is tidy, and so does a compilation in which a node fails, if the net is.  All nets
of a host that wraps up cold nets only are tidy; and a node that a net was wrapped up in is tidy exactly
if the net was cold. -/
theorem Net.Reachable.cold_of_tidy {g : Net} (h : g.Reachable) (stamp : Nat) :
    (Net.IsCold (g.release stamp).result ↔ g.IsTidy) ∧
    (g.IsTidy → ∀ name cause, (g.compile stamp).result.1 = .error (.initFailed name cause) →
      Net.IsCold (g.compile stamp).result.2) ∧
    (g.Tended → g.IsTidy) ∧
    ∀ name n, ((Net.wrap name g).run stamp).result = .ok n →
      (n.behaviour.Tidy false ↔ g.IsCold) := by
  refine ⟨h.coherent.isCold_release_iff, fun ht name cause he ↦ ?_, Net.Tended.isTidy,
    fun name n ↦ h.coherent.tidy_wrap_iff⟩
  exact h.coherent.isCold_compile (Behaviour.keeps_tidy _) (Nat.le_succ _) ht he

/-! ## A net in which nothing stays initialised -/

theorem Net.Tended.add {g : Net} (h : g.Tended) {n : Node Behaviour} (hn : n.Tended) :
    (Net.ask g (.addNode n)).Tended := by
  rw [Net.ask, ← Request.perform_eq_reply]
  exact .step (.addNode n) h (fun _ hr ↦ Request.addNode.inj hr ▸ hn) (by simp)

theorem Net.tended_withBoxed {n : Node Behaviour} (hp : n.panel.IsFresh) (hn : n.inner? = none)
    (hidle : (n.alone.slots.all fun s ↦ !s.node.panel.isInitialized) = true)
    (hok : ((wrap "box" n.alone).run 0).result.isOk = true) : (withBoxed n).Tended := by
  have hinner : n.alone.Tended := (Net.Tended.empty "inner" {}).add (.plain hp hn)
  have hcold : n.alone.IsCold := isCold_of_isTidy rfl (by simpa using hidle) hinner.isTidy
  have hboxed : n.alone.boxed.Tended := by
    obtain ⟨m, hm⟩ := exists_ok_of_isOk hok
    rw [boxed, hm]
    exact .wrapped hinner hcold hm
  have hsource : sampleSource.Tended :=
    .plain ((Operation.source (.scalar .int) 7).isNew_panel "source" 0).isFresh rfl
  exact ((Net.Tended.empty "outer" {}).add hsource).add hboxed

theorem Net.cold_of_tidy_withBoxed :
    (withBoxed sampleFuse).Reachable ∧
    Net.IsCold ((withBoxed sampleFuse).release 0).result ∧
    (∃ name cause, ((withBoxed sampleFuse).compile 0).result.1 = .error (.initFailed name cause)) ∧
    Net.IsCold ((withBoxed sampleFuse).compile 0).result.2 ∧
    ∃ n, ((wrap "deep" (withBoxed sampleFuse)).run 0).result = .ok n ∧ n.behaviour.Tidy false := by
  have htended := tended_withBoxed (Panel.isNew_bare "fuse" "Fuse").isFresh
    (rfl : sampleFuse.inner? = none) (by decide +kernel) (by decide +kernel)
  have hsource : (withBoxed sampleFuse).IsCold :=
    isCold_of_isTidy (by decide +kernel) (by decide +kernel) htended.isTidy
  obtain ⟨hrelease, hcompile, htidy, hwrap⟩ := htended.reachable.cold_of_tidy 0
  obtain ⟨name, cause, he⟩ : ∃ name cause, ((withBoxed sampleFuse).compile 0).result.1 =
      .error (.initFailed name cause) := exists_initFailed (by decide +kernel)
  obtain ⟨n, hn⟩ : ∃ n, ((wrap "deep" (withBoxed sampleFuse)).run 0).result = .ok n :=
    exists_ok_of_isOk (by decide +kernel)
  exact ⟨htended.reachable, hrelease.mpr (htidy htended), ⟨name, cause, he⟩,
    hcompile (htidy htended) name cause he, n, hn, (hwrap "deep" n hn).mpr hsource⟩

/-! ## Nets that were compiled before they were wrapped up -/

/-- A net with a source that was compiled. -/
def sampleCompiled : Net := [.addNode sampleSource, .compile].foldl Net.ask { name := "inner" }

/-- An empty net that was compiled. -/
def sampleBlank : Net := Net.ask { name := "blank" } .compile

/-- A node that holds a net, behind one that fails to get ready. -/
def Net.behindFuse (g : Net) : Net :=
  [.addNode sampleFuse, .addNode g.boxed].foldl Net.ask { name := "outer" }

/-- Whether a net in a node of a net is ready or has a node that is initialised. -/
def Net.isWarmInside (g : Net) : Bool :=
  g.slots.any fun s ↦ s.node.inner?.any fun k ↦
    k.isReady || k.slots.any (·.node.panel.isInitialized)

theorem Net.not_isCold_of_isWarmInside {g : Net} (h : g.isWarmInside = true) : ¬ g.IsCold := by
  intro hc
  simp only [isWarmInside, List.any_eq_true, Option.any_eq_true, Bool.or_eq_true] at h
  obtain ⟨s, hs, k, hk, hwarm⟩ := h
  obtain ⟨inputs, outputs, hb⟩ := Node.behaviour_of_inner? hk
  obtain ⟨hready, hidle⟩ := hc k (.single ⟨s, hs, inputs, outputs, hb⟩)
  rcases hwarm with hwarm | ⟨r, hr, hwarm⟩
  · exact absurd (hwarm.symm.trans hready) (by simp)
  · exact absurd (hwarm.symm.trans (hidle r hr)) (by simp)

theorem Net.account_behindFuse {g : Net} {l : Ledger} (h : g.Account l)
    (hok : ((wrap "box" g).run 0).result.isOk = true) : ∃ l', g.behindFuse.Account l' := by
  obtain ⟨_, houter⟩ := (Net.Account.empty "outer" {}).add account_sampleFuse
  exact houter.add (account_boxed h hok)

/-- **What was got ready before it was wrapped up stays so**: the nodes of a net that was compiled, and
an empty net itself.  No release gets there, and no failed compilation. -/
theorem not_isCold_behindFuse :
    (∃ l, sampleCompiled.behindFuse.Account l) ∧
    ¬ Net.IsCold (sampleCompiled.behindFuse.release 0).result ∧
    (∃ name cause, (sampleCompiled.behindFuse.compile 0).result.1 =
      .error (.initFailed name cause)) ∧
    ¬ Net.IsCold (sampleCompiled.behindFuse.compile 0).result.2 ∧
    (∃ l, sampleBlank.behindFuse.Account l) ∧
    ¬ Net.IsCold (sampleBlank.behindFuse.release 0).result := by
  obtain ⟨_, hcompiled⟩ := (Net.Account.empty "inner" {}).add account_sampleSource
  obtain ⟨_, hcompiled⟩ := hcompiled.ask .compile (by simp) (by simp)
  obtain ⟨_, hblank⟩ := (Net.Account.empty "blank" {}).ask .compile (by simp) (by simp)
  exact ⟨Net.account_behindFuse hcompiled (by decide +kernel),
    Net.not_isCold_of_isWarmInside (by decide +kernel), exists_initFailed (by decide +kernel),
    Net.not_isCold_of_isWarmInside (by decide +kernel),
    Net.account_behindFuse hblank (by decide +kernel),
    Net.not_isCold_of_isWarmInside (by decide +kernel)⟩

end PortGraph
