import PortGraph.Graph.Lifecycle
import PortGraph.Proofs.Graph.Plan

/-!
# What calling its nodes does to a graph

A graph calls its nodes one at a time and puts each back where it was, so of a whole compilation,
pass or release no more has to be known than what a single call keeps.

* A lifecycle that keeps outlines (`Lifecycle.KeepsOutline`) keeps the skeleton of the graph, and
  sees to it that after a compilation every node is initialised or none.
* A property of nodes that every call keeps (`Lifecycle.Keeps`) goes on holding of all nodes of the
  graph (`Graph.Every`).
-/

set_option autoImplicit false

namespace PortGraph

/-! ## Lists -/

theorem map_modify_of_eq {α γ : Type} {f : α → γ} {F : α → α} {i : Nat} {l : List α}
    (h : ∀ a, l[i]? = some a → f (F a) = f a) : (l.modify i F).map f = l.map f := by
  refine List.ext_getElem? fun j ↦ ?_
  rw [List.getElem?_map, List.getElem?_map, List.getElem?_modify]
  split
  · rename_i hij
    subst hij
    cases hl : l[i]? with
    | none => rfl
    | some a => exact congrArg some (h a hl)
  · simp

theorem mem_modify {α : Type} {F : α → α} {i : Nat} {l : List α} {a : α} (h : a ∈ l.modify i F) :
    a ∈ l ∨ ∃ b, l[i]? = some b ∧ a = F b := by
  obtain ⟨j, hj⟩ := List.mem_iff_getElem?.mp h
  rw [List.getElem?_modify] at hj
  split at hj
  · rename_i hij
    subst hij
    obtain ⟨b, hb, rfl⟩ := Option.map_eq_some_iff.mp hj
    exact .inr ⟨b, hb, rfl⟩
  · exact .inl (List.mem_of_getElem? (by simpa using hj))

theorem map_eq_of_forall₂ {α γ : Type} {f : α → γ} {l l' : List α}
    (h : List.Forall₂ (fun a b ↦ f b = f a) l l') : l'.map f = l.map f := by
  induction h with
  | nil => rfl
  | cons hab _ ih => rw [List.map_cons, List.map_cons, hab, ih]

theorem forall_of_forall₂ {α : Type} {P Q : α → Prop} {l l' : List α}
    (h : List.Forall₂ (fun a b ↦ P a → Q b) l l') (hl : ∀ a ∈ l, P a) : ∀ b ∈ l', Q b := by
  induction h with
  | nil => simp
  | cons hab _ ih =>
    rw [List.forall_mem_cons] at hl ⊢
    exact ⟨hab hl.1, ih hl.2⟩

/-- What no single change touches is not touched by one change after another. -/
theorem eq_of_reflTransGen {α γ : Type} {R : α → α → Prop} {f : α → γ}
    (h : ∀ a b, R a b → f b = f a) {a b : α} (hab : Relation.ReflTransGen R a b) : f b = f a := by
  induction hab with
  | refl => rfl
  | tail _ hbc ih => exact (h _ _ hbc).trans ih

/-! ## Nodes -/

theorem Panel.outline_modifyPortAt_store (panel : Panel) (side : Direction) (i : Nat)
    (packet : Option Packet) :
    (panel.modifyPortAt side i (·.store packet)).outline = panel.outline := by
  rw [Panel.modifyPortAt]
  exact Panel.outline_withPorts_of_map (map_modify_of_eq fun _ _ ↦ rfl)

theorem Panel.outline_resetOutputs (panel : Panel) :
    panel.resetOutputs.outline = panel.outline := by
  rw [Panel.resetOutputs, Panel.outline, Panel.outline, List.map_map]
  rfl

namespace Lifecycle

variable {β : Type} {life : Lifecycle β}

/-- Calling nodes keeps a property of what they compute with and whether they are initialised, and
an initialised node fails for no other reasons than given. -/
structure Keeps (life : Lifecycle β) (Q : β → Bool → Prop) (E : NodeError → Prop) : Prop where
  /-- A node that got ready counts as initialised. -/
  init : ∀ n stamp, Q n.behaviour false →
    Q (life.init n stamp).result.2.behaviour (life.init n stamp).result.1.isOk
  /-- A pass leaves a node initialised or not. -/
  execute : ∀ n stamp, Q n.behaviour n.panel.isInitialized →
    Q (life.execute n stamp).result.2.behaviour n.panel.isInitialized
  /-- Why an initialised node fails. -/
  fails : ∀ n stamp e, Q n.behaviour true → (life.execute n stamp).result.1 = .error e → E e
  /-- A destroyed node counts as not initialised. -/
  destroy : ∀ n stamp, Q n.behaviour true → Q (life.destroy n stamp).result.behaviour false

theorem bare_init (hk : life.KeepsOutline) (n : Node β) (stamp : Nat) :
    (life.init n stamp).result.2.panel.bare = n.panel.bare :=
  Panel.bare_eq_of_outline_eq (hk.init n stamp)

theorem isInitialized_init (hk : life.KeepsOutline) (n : Node β) (stamp : Nat) :
    (life.init n stamp).result.2.panel.isInitialized = n.panel.isInitialized := by
  have h := congrArg Panel.isInitialized (hk.init n stamp)
  exact h

theorem isInitialized_execute (hk : life.KeepsOutline) (n : Node β) (stamp : Nat) :
    (life.execute n stamp).result.2.panel.isInitialized = n.panel.isInitialized := by
  have h := congrArg Panel.isInitialized (hk.execute n stamp)
  exact h

@[simp] theorem isInitialized_release (life : Lifecycle β) (n : Node β) (stamp : Nat) :
    (life.release n stamp).result.panel.isInitialized = false := by
  rw [Lifecycle.release]
  split
  · rfl
  · rename_i h
    exact Bool.eq_false_iff.mpr h

theorem bare_release (hk : life.KeepsOutline) (n : Node β) (stamp : Nat) :
    (life.release n stamp).result.panel.bare = n.panel.bare := by
  rw [Lifecycle.release]
  split
  · have h := Panel.bare_eq_of_outline_eq (hk.destroy n stamp)
    exact h
  · rfl

theorem Keeps.release {Q : β → Bool → Prop} {E : NodeError → Prop} (hq : life.Keeps Q E)
    {n : Node β} (h : Q n.behaviour n.panel.isInitialized) (stamp : Nat) :
    Q (life.release n stamp).result.behaviour false := by
  rw [Lifecycle.release]
  split
  · rename_i hinit
    exact hq.destroy n stamp (hinit ▸ h)
  · rename_i hinit
    exact Bool.eq_false_iff.mpr hinit ▸ h

/-- Releasing all nodes does to each what releasing it does. -/
theorem forall₂_releaseAll {R : Node β → Node β → Prop}
    (h : ∀ n stamp, R n (life.release n stamp).result) (slots : List (Slot β)) (stamp : Nat) :
    List.Forall₂ (fun s s' ↦ s'.key = s.key ∧ R s.node s'.node) slots
      (life.releaseAll slots stamp).result := by
  induction slots generalizing stamp with
  | nil => exact .nil
  | cons s slots ih =>
    rw [releaseAll]
    exact .cons ⟨rfl, h _ _⟩ (ih stamp)

end Lifecycle

/-! ## Graphs -/

namespace Graph

variable {β : Type} {life : Lifecycle β} {g k : Graph β}

/-- Which nodes are initialised. -/
def flags (g : Graph β) : List Bool := g.slots.map (·.node.panel.isInitialized)

/-- A property holds of every node, of what it computes with and whether it is initialised. -/
def Every (Q : β → Bool → Prop) (g : Graph β) : Prop :=
  ∀ s ∈ g.slots, Q s.node.behaviour s.node.panel.isInitialized

/-- What a graph is called, what it makes nodes with, and whether it is to be saved and protected. -/
def settings (g : Graph β) : String × FactorySet × Bool × Bool :=
  (g.name, g.factories, g.isModified, g.isProtected)

/-- Two graphs differ in no more than the values on their ports and what their nodes compute
with. -/
structure Agrees (g k : Graph β) : Prop where
  /-- They have one skeleton. -/
  skeleton : k.skeleton = g.skeleton
  /-- The same nodes are initialised. -/
  flags : k.flags = g.flags
  /-- They have one schedule. -/
  schedule : k.schedule = g.schedule
  /-- Both are ready or none. -/
  isReady : k.isReady = g.isReady

theorem Agrees.rfl : g.Agrees g := ⟨.refl _, .refl _, .refl _, .refl _⟩

theorem Agrees.trans {j : Graph β} (h : g.Agrees j) (h' : j.Agrees k) : g.Agrees k :=
  ⟨h'.skeleton.trans h.skeleton, h'.flags.trans h.flags, h'.schedule.trans h.schedule,
    h'.isReady.trans h.isReady⟩

/-- Changing nodes so that each keeps its outline. -/
theorem agrees_of_map_outline {slots : List (Slot β)}
    (h : slots.map (fun s ↦ (s.key, s.node.panel.outline)) =
      g.slots.map fun s ↦ (s.key, s.node.panel.outline)) : g.Agrees { g with slots } := by
  refine ⟨?_, ?_, .refl _, .refl _⟩
  · have hs := congrArg (List.map fun o : String × Panel ↦
      (⟨o.1, ⟨{ o.2 with isInitialized := false }, ()⟩⟩ : Slot Unit)) h
    rw [List.map_map, List.map_map] at hs
    exact congrArg (fun slots ↦ ({ name := "", slots, links := g.links } : Graph Unit)) hs
  · have hf := congrArg (List.map fun o : String × Panel ↦ o.2.isInitialized) h
    rw [List.map_map, List.map_map] at hf
    exact hf

@[simp] theorem length_flags (g : Graph β) : g.flags.length = g.slots.length := List.length_map _

theorem length_slots_of_skeleton_eq (h : k.skeleton = g.skeleton) :
    k.slots.length = g.slots.length := by
  rw [← length_slots_skeleton, h, length_slots_skeleton]

theorem forall_initialized_iff : (∀ s ∈ g.slots, s.node.panel.isInitialized = true) ↔
    ∀ b ∈ g.flags, b = true := by
  rw [flags, List.forall_mem_map]

/-! ## Putting a node back -/

theorem skeleton_setNodeAt {i : Nat} {s : Slot β} {n : Node β} (hs : g.slots[i]? = some s)
    (hn : n.panel.bare = s.node.panel.bare) : (g.setNodeAt i n).skeleton = g.skeleton := by
  rw [skeleton, setNodeAt, skeleton]
  dsimp only
  rw [map_modify_of_eq]
  intro s' hs'
  obtain rfl : s = s' := Option.some.inj (hs.symm.trans hs')
  rw [Slot.mapNode, hn]

theorem flags_setNodeAt (i : Nat) (n : Node β) :
    (g.setNodeAt i n).flags = g.flags.set i n.panel.isInitialized := by
  rw [flags, setNodeAt, flags]
  refine List.ext_getElem? fun j ↦ ?_
  rw [List.getElem?_map, List.getElem?_modify, List.getElem?_set, List.getElem?_map,
    List.length_map]
  split
  · rename_i hij
    subst hij
    split
    · rename_i hlt
      simp [Slot.mapNode, hlt]
    · rename_i hge
      simp [hge]
  · simp

theorem isInitialized_eq_false_of_flags {i : Nat} {s : Slot β} (hs : g.slots[i]? = some s)
    (h : g.flags[i]? ≠ some true) : s.node.panel.isInitialized = false := by
  rw [flags, List.getElem?_map, hs] at h
  simpa using h

theorem agrees_setNodeAt {i : Nat} {s : Slot β} {n : Node β} (hs : g.slots[i]? = some s)
    (hn : n.panel.outline = s.node.panel.outline) : g.Agrees (g.setNodeAt i n) := by
  refine agrees_of_map_outline (map_modify_of_eq fun s' hs' ↦ ?_)
  obtain rfl : s = s' := Option.some.inj (hs.symm.trans hs')
  rw [Slot.mapNode, hn]

theorem Every.setNodeAt {Q : β → Bool → Prop} {i : Nat} {n : Node β} (h : g.Every Q)
    (hn : Q n.behaviour n.panel.isInitialized) : (g.setNodeAt i n).Every Q := by
  intro s hs
  rcases mem_modify hs with hs | ⟨s', -, rfl⟩
  · exact h s hs
  · exact hn

/-! ## Releasing -/

theorem skeleton_release (hk : life.KeepsOutline) (g : Graph β) (stamp : Nat) :
    (g.release life stamp).result.skeleton = g.skeleton := by
  have hall := Lifecycle.forall₂_releaseAll (R := fun n n' ↦ n'.panel.bare = n.panel.bare)
    (Lifecycle.bare_release hk) g.slots stamp
  have hmap := map_eq_of_forall₂ (hall.imp (S := fun s s' ↦
    (⟨s'.key, ⟨s'.node.panel.bare, ()⟩⟩ : Slot Unit) = ⟨s.key, ⟨s.node.panel.bare, ()⟩⟩)
      fun _ _ h ↦ by rw [h.1, h.2])
  exact congrArg (fun slots ↦ ({ name := "", slots, links := g.links } : Graph Unit)) hmap

theorem flags_release (life : Lifecycle β) (g : Graph β) (stamp : Nat) :
    ∀ b ∈ (g.release life stamp).result.flags, b = false := by
  have hall := Lifecycle.forall₂_releaseAll (R := fun _ n' ↦ n'.panel.isInitialized = false)
    (Lifecycle.isInitialized_release life) g.slots stamp
  rw [flags, List.forall_mem_map]
  exact forall_of_forall₂ (P := fun _ ↦ True) (hall.imp fun _ _ h _ ↦ h.2) fun _ _ ↦ trivial

theorem Every.release {Q : β → Bool → Prop} {E : NodeError → Prop} (hq : life.Keeps Q E)
    (h : g.Every Q) (stamp : Nat) : (g.release life stamp).result.Every Q := by
  have hall := Lifecycle.forall₂_releaseAll (R := fun n n' ↦
    Q n.behaviour n.panel.isInitialized → Q n'.behaviour n'.panel.isInitialized)
    (fun n stamp hn ↦ Lifecycle.isInitialized_release life n stamp ▸ hq.release hn stamp)
    g.slots stamp
  exact forall_of_forall₂ (hall.imp fun _ _ h ↦ h.2) h

/-! ## Initialising -/

theorem agrees_resetOutputs (g : Graph β) : g.Agrees g.resetOutputs := by
  refine agrees_of_map_outline ?_
  rw [List.map_map]
  exact List.map_congr_left fun s _ ↦ congrArg (s.key, ·) s.node.panel.outline_resetOutputs

theorem Every.resetOutputs {Q : β → Bool → Prop} (h : g.Every Q) : g.resetOutputs.Every Q :=
  List.forall_mem_map.mpr h

/-- What comes of initialising the node at the first of some positions. -/
theorem initAll_cons (life : Lifecycle β) (i : Nat) (is : List Nat) (g : Graph β) (stamp : Nat) :
    (g.slots[i]? = none ∧
      (initAll life (i :: is) g stamp).result = (initAll life is g stamp).result) ∨
    ∃ s, g.slots[i]? = some s ∧
      (((life.init s.node stamp).result.1 = .ok () ∧ ∃ stamp',
          (initAll life (i :: is) g stamp).result =
            (initAll life is (g.setNodeAt i
              ((life.init s.node stamp).result.2.setInitialized true)) stamp').result) ∨
        ∃ e stamp', (life.init s.node stamp).result.1 = .error e ∧
          (initAll life (i :: is) g stamp).result = (.error (.initFailed s.key e),
            ((g.setNodeAt i (life.init s.node stamp).result.2).release life stamp').result)) := by
  rw [initAll]
  cases hs : g.slots[i]? with
  | none => exact .inl ⟨rfl, rfl⟩
  | some s =>
    refine .inr ⟨s, rfl, ?_⟩
    have hcall : (life.callInit s.node stamp).result = (life.init s.node stamp).result := rfl
    cases hr : (life.init s.node stamp).result.1 with
    | ok _ =>
      refine .inl ⟨rfl, (life.init s.node stamp).stamp, ?_⟩
      simp only [Act.bind_apply, hcall, hr]
      rfl
    | error e =>
      refine .inr ⟨e, (life.init s.node stamp).stamp, rfl, ?_⟩
      simp only [Act.bind_apply, hcall, hr]
      rfl

/-- One of the changes that a graph makes to itself while it is compiled. -/
inductive Prepares (life : Lifecycle β) (g : Graph β) : Graph β → Prop
  /-- The nodes give back what they took. -/
  | released (stamp : Nat) : Prepares life g (g.release life stamp).result
  /-- The outputs are emptied. -/
  | emptied : Prepares life g g.resetOutputs
  /-- A node is told to get ready. -/
  | told {i : Nat} {s : Slot β} (hs : g.slots[i]? = some s) (stamp : Nat) :
      Prepares life g (g.setNodeAt i (life.init s.node stamp).result.2)
  /-- A node is told to get ready, and counts as initialised. -/
  | readied {i : Nat} {s : Slot β} (hs : g.slots[i]? = some s) (stamp : Nat) :
      Prepares life g (g.setNodeAt i ((life.init s.node stamp).result.2.setInitialized true))
  /-- The schedule is set. -/
  | scheduled (schedule : List Step) : Prepares life g { g with schedule, isReady := true }

theorem prepares_initAll (life : Lifecycle β) (is : List Nat) (g : Graph β) (stamp : Nat) :
    Relation.ReflTransGen (Prepares life) g (initAll life is g stamp).result.2 := by
  induction is generalizing g stamp with
  | nil => exact .refl
  | cons i is ih =>
    rcases initAll_cons life i is g stamp with ⟨-, h⟩ | ⟨s, hs, ⟨-, stamp', h⟩ | ⟨e, stamp', -, h⟩⟩
    · rw [h]
      exact ih g stamp
    · rw [h]
      exact (ih _ stamp').head (.readied hs stamp)
    · rw [h]
      exact .head (.told hs stamp) (.single (.released stamp'))

/-- If no node fails, all are initialised that were to be and all that were before. -/
theorem flags_initAll (is : List Nat) (g : Graph β) (stamp : Nat)
    (hok : (initAll life is g stamp).result.1 = .ok ()) (j : Nat) (hj : j < g.slots.length)
    (h : j ∈ is ∨ g.flags[j]? = some true) :
    (initAll life is g stamp).result.2.flags[j]? = some true := by
  induction is generalizing g stamp with
  | nil => exact h.resolve_left (by simp)
  | cons i is ih =>
    rcases initAll_cons life i is g stamp with
      ⟨hs, heq⟩ | ⟨s, hs, ⟨-, stamp', heq⟩ | ⟨e, stamp', -, heq⟩⟩
    · rw [heq] at hok ⊢
      refine ih g stamp hok hj (h.imp_left fun hm ↦ (List.mem_cons.mp hm).resolve_left ?_)
      rintro rfl
      rw [List.getElem?_eq_none_iff] at hs
      omega
    · rw [heq] at hok ⊢
      refine ih _ _ hok (by rw [setNodeAt, List.length_modify]; exact hj) ?_
      rw [flags_setNodeAt, List.getElem?_set]
      -- either the node got ready now, or its flag is what it was
      by_cases hij : i = j
      · have hlen : j < g.flags.length := by rw [flags, List.length_map]; exact hj
        exact .inr (by rw [if_pos hij, hij, if_pos hlen]; rfl)
      · rw [if_neg hij]
        exact h.imp_left fun hm ↦ (List.mem_cons.mp hm).resolve_left (Ne.symm hij)
    · rw [heq] at hok
      exact absurd hok (by simp)

/-- **If a node fails to get ready**, the graph with that node in it is released. -/
theorem initAll_eq_error {is : List Nat} {g k : Graph β} {stamp : Nat} {e : GraphError}
    (h : (initAll life is g stamp).result = (.error e, k)) :
    ∃ j i s n stamp₁ stamp₂ cause, Relation.ReflTransGen (Prepares life) g j ∧
      j.slots[i]? = some s ∧ (life.init s.node stamp₁).result = (.error cause, n) ∧
      e = .initFailed s.key cause ∧ k = ((j.setNodeAt i n).release life stamp₂).result := by
  induction is generalizing g stamp with
  | nil => exact absurd (congrArg Prod.fst h) (by simp [initAll])
  | cons i is ih =>
    rcases initAll_cons life i is g stamp with
      ⟨-, heq⟩ | ⟨s, hs, ⟨-, stamp', heq⟩ | ⟨cause, stamp', hcause, heq⟩⟩
    · exact ih (heq ▸ h)
    · obtain ⟨j, i', r, n, stamp₁, stamp₂, cause, hj, hrest⟩ := ih (heq ▸ h)
      exact ⟨j, i', r, n, stamp₁, stamp₂, cause, hj.head (.readied hs stamp), hrest⟩
    · obtain ⟨he, rfl⟩ := Prod.mk.inj (heq.symm.trans h)
      exact ⟨g, i, s, _, stamp, stamp', cause, .refl, hs, Prod.ext hcause rfl,
        (Except.error.inj he).symm, rfl⟩

theorem initAll_error {is : List Nat} {g k : Graph β} {stamp : Nat} {e : GraphError}
    (h : (initAll life is g stamp).result = (.error e, k)) :
    (∃ name cause, e = .initFailed name cause) ∧ k.isReady = false ∧ k.schedule = [] ∧
      ∀ b ∈ k.flags, b = false := by
  obtain ⟨j, i, s, n, -, stamp₂, cause, -, -, -, rfl, rfl⟩ := initAll_eq_error h
  exact ⟨⟨s.key, cause, rfl⟩, rfl, rfl, flags_release life _ stamp₂⟩

theorem Every.initAll {Q : β → Bool → Prop} {E : NodeError → Prop} (hk : life.KeepsOutline)
    (hq : life.Keeps Q E) {is : List Nat} (hnd : is.Nodup) {g : Graph β} (h : g.Every Q)
    (hnew : ∀ i ∈ is, g.flags[i]? ≠ some true) (stamp : Nat) :
    (Graph.initAll life is g stamp).result.2.Every Q := by
  induction is generalizing g stamp with
  | nil => exact h
  | cons i is ih =>
    obtain ⟨hi, hnd⟩ := List.nodup_cons.mp hnd
    -- no position comes twice, so the node is not initialised yet
    have hflag : ∀ s, g.slots[i]? = some s → s.node.panel.isInitialized = false := fun s hs ↦
      isInitialized_eq_false_of_flags hs (hnew i List.mem_cons_self)
    have hcall : ∀ s, g.slots[i]? = some s →
        Q (life.init s.node stamp).result.2.behaviour (life.init s.node stamp).result.1.isOk := by
      intro s hs
      exact hq.init _ _ (hflag s hs ▸ h s (List.mem_of_getElem? hs))
    rcases initAll_cons life i is g stamp with
      ⟨-, heq⟩ | ⟨s, hs, ⟨hok, stamp', heq⟩ | ⟨cause, stamp', herr, heq⟩⟩
    · rw [heq]
      exact ih hnd h (fun j hj ↦ hnew j (List.mem_cons_of_mem _ hj)) stamp
    · rw [heq]
      refine ih hnd (h.setNodeAt ?_) (fun j hj ↦ ?_) stamp'
      · have hq' := hcall s hs
        rw [hok] at hq'
        exact hq'
      · have hij : i ≠ j := fun hij ↦ hi (hij ▸ hj)
        rw [flags_setNodeAt, List.getElem?_set, if_neg hij]
        exact hnew j (List.mem_cons_of_mem _ hj)
    · rw [heq]
      refine Every.release hq (h.setNodeAt ?_) stamp'
      have hq' := hcall s hs
      rw [herr] at hq'
      rw [Lifecycle.isInitialized_init hk, hflag s hs]
      exact hq'

/-! ## Compiling -/

theorem compile_of_ready (h : g.isReady = true) (stamp : Nat) :
    (g.compile life stamp).result = (.ok (), g) := by
  rw [compile, if_pos h]
  rfl

theorem compile_of_error (h : g.isReady = false) {e : GraphError} (hp : g.plan = .error e)
    (stamp : Nat) : (g.compile life stamp).result = (.error e, g) := by
  rw [compile, if_neg (by simp [h]), hp]
  cases e <;> rfl

/-- A graph with a plan is released, and its nodes are initialised in the planned order. -/
theorem compile_of_plan (life : Lifecycle β) (h : g.isReady = false) {schedule : List Step}
    (hp : g.plan = .ok schedule) (stamp : Nat) :
    ∃ stamp₁ stamp₂, (g.compile life stamp).result =
      match (initAll life (schedule.map Step.node)
        (g.release life stamp₁).result.resetOutputs stamp₂).result with
      | (.ok (), k) => (.ok (), { k with schedule, isReady := true })
      | (.error e, k) => (.error e, k) := by
  let stamp₁ := (g.warnUnlinked stamp).stamp
  refine ⟨stamp₁, (g.release life stamp₁).stamp, ?_⟩
  rw [compile, if_neg (by simp [h]), hp]
  simp only [Act.bind_apply]
  split
  · rename_i k hk
    simp only [stamp₁] at hk
    simp only [hk]
    rfl
  · rename_i e k hk
    simp only [stamp₁] at hk
    simp only [hk]
    rfl

/-- **Why a graph does not compile**: it has no plan, or a node of it failed to get ready. -/
theorem compile_eq_error {stamp : Nat} {e : GraphError}
    (h : (g.compile life stamp).result = (.error e, k)) : g.isReady = false ∧
      ((g.plan = .error e ∧ k = g) ∨ ∃ schedule stamp₁ stamp₂, g.plan = .ok schedule ∧
        (initAll life (schedule.map Step.node)
          (g.release life stamp₁).result.resetOutputs stamp₂).result = (.error e, k)) := by
  cases hr : g.isReady with
  | true =>
    rw [compile_of_ready hr] at h
    exact absurd (congrArg Prod.fst h) (by simp)
  | false =>
    refine ⟨rfl, ?_⟩
    cases hp : g.plan with
    | error e' =>
      obtain ⟨he, rfl⟩ := Prod.mk.inj ((compile_of_error hr hp stamp).symm.trans h)
      exact .inl ⟨congrArg _ (Except.error.inj he), rfl⟩
    | ok schedule =>
      obtain ⟨stamp₁, stamp₂, heq⟩ := compile_of_plan life hr hp stamp
      refine .inr ⟨schedule, stamp₁, stamp₂, rfl, ?_⟩
      rw [heq] at h
      split at h
      · exact absurd (congrArg Prod.fst h) (by simp)
      · rename_i hi
        exact hi.trans h

/-- Compiling is a number of such changes, whatever comes of it. -/
theorem prepares_compile (life : Lifecycle β) (g : Graph β) (stamp : Nat) :
    Relation.ReflTransGen (Prepares life) g (g.compile life stamp).result.2 := by
  cases hr : g.isReady with
  | true => rw [compile_of_ready hr]
  | false =>
    cases hp : g.plan with
    | error e => rw [compile_of_error hr hp]
    | ok schedule =>
      obtain ⟨stamp₁, stamp₂, heq⟩ := compile_of_plan life hr hp stamp
      have hall := ((prepares_initAll life (schedule.map Step.node) _ stamp₂).head .emptied).head
        (Prepares.released stamp₁ (g := g))
      rw [heq]
      split
      · rename_i k hi
        rw [hi] at hall
        exact hall.tail (.scheduled schedule)
      · rename_i e k hi
        rw [hi] at hall
        exact hall

theorem Prepares.skeleton (hk : life.KeepsOutline) (h : Prepares life g k) :
    k.skeleton = g.skeleton := by
  cases h with
  | released stamp => exact skeleton_release hk g stamp
  | emptied => exact (agrees_resetOutputs g).skeleton
  | told hs stamp => exact skeleton_setNodeAt hs (Lifecycle.bare_init hk _ stamp)
  | readied hs stamp => exact skeleton_setNodeAt hs (Lifecycle.bare_init hk _ stamp)
  | scheduled => rfl

/-- Compiling keeps the skeleton, whatever comes of it. -/
theorem skeleton_compile (hk : life.KeepsOutline) (g : Graph β) (stamp : Nat) :
    (g.compile life stamp).result.2.skeleton = g.skeleton :=
  eq_of_reflTransGen (fun _ _ h ↦ h.skeleton hk) (prepares_compile life g stamp)

theorem settings_compile (life : Lifecycle β) (g : Graph β) (stamp : Nat) :
    (g.compile life stamp).result.2.settings = g.settings :=
  eq_of_reflTransGen (fun _ _ h ↦ by cases h <;> rfl) (prepares_compile life g stamp)

/-- **What compiling comes to** for a graph that is not ready: it has no plan, or all of its nodes
are initialised, or one of them failed. -/
theorem compile_cases (hk : life.KeepsOutline) (hg : g.WellLinked) (h : g.isReady = false)
    (stamp : Nat) :
    (∃ e, g.plan = .error e ∧ (g.compile life stamp).result = (.error e, g)) ∨
    (g.compile life stamp).result.2.skeleton = g.skeleton ∧
      ((∃ schedule, g.plan = .ok schedule ∧ (g.compile life stamp).result.1 = .ok () ∧
          (g.compile life stamp).result.2.schedule = schedule ∧
          (g.compile life stamp).result.2.isReady = true ∧
          ∀ b ∈ (g.compile life stamp).result.2.flags, b = true) ∨
        ∃ name cause, (g.compile life stamp).result.1 = .error (.initFailed name cause) ∧
          (g.compile life stamp).result.2.schedule = [] ∧
          (g.compile life stamp).result.2.isReady = false) := by
  cases hp : g.plan with
  | error e => exact .inl ⟨e, rfl, compile_of_error h hp stamp⟩
  | ok schedule =>
    refine .inr ?_
    obtain ⟨stamp₁, stamp₂, heq⟩ := compile_of_plan life h hp stamp
    have hreset : (g.release life stamp₁).result.resetOutputs.skeleton = g.skeleton :=
      (agrees_resetOutputs _).skeleton.trans (skeleton_release hk g stamp₁)
    have hskeleton := skeleton_compile hk g stamp
    cases hr : (initAll life (schedule.map Step.node)
      (g.release life stamp₁).result.resetOutputs stamp₂).result with
    | mk result k =>
      rw [hr] at heq
      rw [heq] at hskeleton
      cases result with
      | error e =>
        obtain ⟨⟨name, cause, rfl⟩, hready, hschedule, -⟩ := initAll_error hr
        rw [heq]
        exact ⟨hskeleton, .inr ⟨name, cause, rfl, hschedule, hready⟩⟩
      | ok _ =>
        rw [heq]
        refine ⟨hskeleton, .inl ⟨schedule, rfl, rfl, rfl, rfl, fun b hb ↦ ?_⟩⟩
        obtain ⟨j, hj⟩ := List.mem_iff_getElem?.mp hb
        have hlt : j < g.slots.length := by
          have hlt := (List.getElem?_eq_some_iff.mp hj).1
          rw [length_flags, length_slots_of_skeleton_eq hskeleton] at hlt
          exact hlt
        -- the plan has a turn for every node
        have hturn := (hg.map_node_of_plan hp).2.symm.subset (List.mem_range.mpr hlt)
        have hflag := flags_initAll _ _ stamp₂ (congrArg Prod.fst hr) j
          (by rw [length_slots_of_skeleton_eq hreset]; exact hlt) (.inl hturn)
        rw [hr] at hflag
        exact Option.some.inj (hj.symm.trans hflag)

/-- A graph that compiles is ready. -/
theorem isReady_of_compile (hk : life.KeepsOutline) (hg : g.WellLinked) {stamp : Nat}
    (hok : (g.compile life stamp).result.1 = .ok ()) :
    (g.compile life stamp).result.2.isReady = true := by
  cases hr : g.isReady with
  | true => rw [compile_of_ready hr]; exact hr
  | false =>
    rcases compile_cases hk hg hr stamp with
      ⟨e, -, heq⟩ | ⟨-, ⟨_, -, -, -, hready, -⟩ | ⟨name, cause, herr, -⟩⟩
    · rw [heq] at hok
      exact absurd hok (by simp)
    · exact hready
    · rw [hok] at herr
      exact absurd herr (by simp)

/-- Compiling keeps what every call keeps. -/
theorem Every.compile {Q : β → Bool → Prop} {E : NodeError → Prop} (hk : life.KeepsOutline)
    (hq : life.Keeps Q E) (hg : g.WellLinked) (h : g.Every Q) (stamp : Nat) :
    (g.compile life stamp).result.2.Every Q := by
  cases hready : g.isReady with
  | true => rw [compile_of_ready hready]; exact h
  | false =>
    cases hp : g.plan with
    | error e => rw [compile_of_error hready hp]; exact h
    | ok schedule =>
      obtain ⟨stamp₁, stamp₂, heq⟩ := compile_of_plan life hready hp stamp
      have hnd : (schedule.map Step.node).Nodup :=
        (hg.map_node_of_plan hp).2.nodup_iff.mpr List.nodup_range
      have hnew : ∀ i ∈ schedule.map Step.node,
          (g.release life stamp₁).result.resetOutputs.flags[i]? ≠ some true := by
        intro i _ hi
        rw [(agrees_resetOutputs _).flags] at hi
        exact absurd (flags_release life g stamp₁ true (List.mem_of_getElem? hi)) (by simp)
      have hall := Every.initAll hk hq hnd (h.release hq stamp₁).resetOutputs hnew stamp₂
      rw [heq]
      split
      · rename_i k hr
        rw [hr] at hall
        exact hall
      · rename_i e k hr
        rw [hr] at hall
        exact hall

/-! ## Executing -/

theorem agrees_applyPull (node : Nat) (g : Graph β) (p : Pull) : g.Agrees (applyPull node g p) := by
  refine agrees_of_map_outline (map_modify_of_eq fun s _ ↦ ?_)
  exact congrArg (s.key, ·) (s.node.panel.outline_modifyPortAt_store _ _ _)

theorem agrees_foldl_applyPull (node : Nat) (pulls : List Pull) (g : Graph β) :
    g.Agrees (pulls.foldl (applyPull node) g) := by
  induction pulls generalizing g with
  | nil => exact .rfl
  | cons p pulls ih => exact (agrees_applyPull node g p).trans (ih _)

theorem Every.applyPull {Q : β → Bool → Prop} (h : g.Every Q) (node : Nat) (p : Pull) :
    (Graph.applyPull node g p).Every Q := by
  intro s hs
  rcases mem_modify hs with hs | ⟨s', hs', rfl⟩
  · exact h s hs
  · have hq := h s' (List.mem_of_getElem? hs')
    simpa [Slot.mapNode, Node.mapPanel, Panel.modifyPortAt] using hq

theorem Every.foldl_applyPull {Q : β → Bool → Prop} {node : Nat} {pulls : List Pull}
    (h : g.Every Q) : (pulls.foldl (Graph.applyPull node) g).Every Q := by
  induction pulls generalizing g with
  | nil => exact h
  | cons p pulls ih => exact ih (h.applyPull node p)

/-- What comes of the first of some turns. -/
theorem executeSteps_cons (life : Lifecycle β) (t : Step) (turns : List Step) (g : Graph β)
    (stamp : Nat) :
    ∃ k, k = t.pulls.foldl (applyPull t.node) g ∧
      ((k.slots[t.node]? = none ∧ (executeSteps life (t :: turns) g stamp).result =
        (executeSteps life turns k stamp).result) ∨
      ∃ s n, k.slots[t.node]? = some s ∧ n = (life.execute s.node stamp).result.2 ∧
        (((life.execute s.node stamp).result.1 = .ok () ∧ ∃ stamp',
          (executeSteps life (t :: turns) g stamp).result =
            (executeSteps life turns (k.setNodeAt t.node n) stamp').result) ∨
        ∃ e, (life.execute s.node stamp).result.1 = .error e ∧
          (executeSteps life (t :: turns) g stamp).result =
            (.error (.executionFailed s.key n.typeName e), k.setNodeAt t.node n))) := by
  refine ⟨_, rfl, ?_⟩
  rw [executeSteps]
  cases hs : (t.pulls.foldl (applyPull t.node) g).slots[t.node]? with
  | none => exact .inl ⟨rfl, rfl⟩
  | some s =>
    refine .inr ⟨s, _, rfl, rfl, ?_⟩
    have hcall : (life.callExecute s.node stamp).result = (life.execute s.node stamp).result := rfl
    cases hr : (life.execute s.node stamp).result.1 with
    | ok _ =>
      refine .inl ⟨rfl, (life.execute s.node stamp).stamp, ?_⟩
      simp only [Act.bind_apply, Act.log, Act.emit, hcall, hr]
      rfl
    | error e =>
      refine .inr ⟨e, rfl, ?_⟩
      simp only [Act.bind_apply, Act.log, Act.emit, hcall, hr]
      rfl

/-- One of the changes that a graph makes to itself in a pass. -/
inductive Advances (life : Lifecycle β) (g : Graph β) : Graph β → Prop
  /-- A value is carried over to an input. -/
  | pulled (node : Nat) (p : Pull) : Advances life g (applyPull node g p)
  /-- A node is executed. -/
  | executed {i : Nat} {s : Slot β} (hs : g.slots[i]? = some s) (stamp : Nat) :
      Advances life g (g.setNodeAt i (life.execute s.node stamp).result.2)

theorem advances_foldl_applyPull (life : Lifecycle β) (node : Nat) (pulls : List Pull)
    (g : Graph β) : Relation.ReflTransGen (Advances life) g (pulls.foldl (applyPull node) g) := by
  induction pulls generalizing g with
  | nil => exact .refl
  | cons p pulls ih => exact (ih _).head (.pulled node p)

theorem advances_executeSteps (life : Lifecycle β) (turns : List Step) (g : Graph β)
    (stamp : Nat) :
    Relation.ReflTransGen (Advances life) g (executeSteps life turns g stamp).result.2 := by
  induction turns generalizing g stamp with
  | nil => exact .refl
  | cons t turns ih =>
    have hpulls := advances_foldl_applyPull life t.node t.pulls g
    obtain ⟨k, rfl, ⟨-, heq⟩ | ⟨s, n, hs, rfl, ⟨-, stamp', heq⟩ | ⟨e, -, heq⟩⟩⟩ :=
      executeSteps_cons life t turns g stamp
    · rw [heq]
      exact hpulls.trans (ih _ _)
    · rw [heq]
      exact (hpulls.tail (.executed hs stamp)).trans (ih _ _)
    · rw [heq]
      exact hpulls.tail (.executed hs stamp)

/-- A pass is a number of such changes, whatever comes of it. -/
theorem advances_execute (life : Lifecycle β) (g : Graph β) (stamp : Nat) :
    Relation.ReflTransGen (Advances life) g (g.execute life stamp).result.2 := by
  rw [execute]
  split
  · exact advances_executeSteps life _ g stamp
  · exact .refl

/-- **A pass that fails ends with the node that failed.** -/
theorem executeSteps_eq_error {turns : List Step} {g k : Graph β} {stamp : Nat} {e : GraphError}
    (h : (executeSteps life turns g stamp).result = (.error e, k)) :
    ∃ j i s n stamp' cause, Relation.ReflTransGen (Advances life) g j ∧ j.slots[i]? = some s ∧
      (life.execute s.node stamp').result = (.error cause, n) ∧ k = j.setNodeAt i n ∧
      e = .executionFailed s.key n.typeName cause := by
  induction turns generalizing g stamp with
  | nil => exact absurd (congrArg Prod.fst h) (by simp [executeSteps])
  | cons t turns ih =>
    have hpulls := advances_foldl_applyPull life t.node t.pulls g
    obtain ⟨_, rfl, ⟨-, heq⟩ | ⟨s, n, hs, hn, ⟨-, stamp', heq⟩ | ⟨cause, hcause, heq⟩⟩⟩ :=
      executeSteps_cons life t turns g stamp
    · obtain ⟨j, i, s, n, stamp', cause, hj, hrest⟩ := ih (heq ▸ h)
      exact ⟨j, i, s, n, stamp', cause, hpulls.trans hj, hrest⟩
    · obtain ⟨j, i, s', n', stamp'', cause, hj, hrest⟩ := ih (heq ▸ h)
      exact ⟨j, i, s', n', stamp'', cause,
        (hpulls.tail (hn ▸ .executed hs stamp)).trans hj, hrest⟩
    · obtain ⟨he, rfl⟩ := Prod.mk.inj (heq.symm.trans h)
      exact ⟨_, t.node, s, n, stamp, cause, hpulls, hs, Prod.ext hcause hn.symm, rfl,
        (Except.error.inj he).symm⟩

theorem Advances.agrees (hk : life.KeepsOutline) (h : Advances life g k) : g.Agrees k := by
  cases h with
  | pulled node p => exact agrees_applyPull node g p
  | executed hs stamp => exact agrees_setNodeAt hs (hk.execute _ stamp)

theorem agrees_of_advances (hk : life.KeepsOutline)
    (h : Relation.ReflTransGen (Advances life) g k) : g.Agrees k := by
  induction h with
  | refl => exact .rfl
  | tail _ h ih => exact ih.trans (h.agrees hk)

/-- **A pass changes values only.** -/
theorem agrees_execute (hk : life.KeepsOutline) (g : Graph β) (stamp : Nat) :
    g.Agrees (g.execute life stamp).result.2 :=
  agrees_of_advances hk (advances_execute life g stamp)

theorem Advances.settings_eq (h : Advances life g k) : k.settings = g.settings := by
  cases h <;> rfl

theorem settings_execute (life : Lifecycle β) (g : Graph β) (stamp : Nat) :
    (g.execute life stamp).result.2.settings = g.settings :=
  eq_of_reflTransGen (fun _ _ h ↦ h.settings_eq) (advances_execute life g stamp)

theorem Every.of_advances {Q : β → Bool → Prop} {E : NodeError → Prop} (hk : life.KeepsOutline)
    (hq : life.Keeps Q E) (h : g.Every Q) (hadv : Relation.ReflTransGen (Advances life) g k) :
    k.Every Q := by
  induction hadv with
  | refl => exact h
  | tail _ hstep ih =>
    cases hstep with
    | pulled node p => exact ih.applyPull node p
    | executed hs stamp =>
      refine ih.setNodeAt ?_
      rw [Lifecycle.isInitialized_execute hk]
      exact hq.execute _ stamp (ih _ (List.mem_of_getElem? hs))

theorem Every.execute {Q : β → Bool → Prop} {E : NodeError → Prop} (hk : life.KeepsOutline)
    (hq : life.Keeps Q E) (h : g.Every Q) (stamp : Nat) :
    (g.execute life stamp).result.2.Every Q :=
  h.of_advances hk hq (advances_execute life g stamp)

/-- If all nodes are initialised, a pass fails for the reasons of one of them. -/
theorem executeSteps_error {Q : β → Bool → Prop} {E : NodeError → Prop} (hk : life.KeepsOutline)
    (hq : life.Keeps Q E) {turns : List Step} {g : Graph β} (h : g.Every Q)
    (hflags : ∀ b ∈ g.flags, b = true) {stamp : Nat} {e : GraphError}
    (he : (executeSteps life turns g stamp).result.1 = .error e) :
    ∃ name typeName cause, e = .executionFailed name typeName cause ∧ E cause := by
  obtain ⟨j, i, s, n, stamp', cause, hj, hs, hcall, -, rfl⟩ := executeSteps_eq_error (Prod.ext he rfl)
  have hmem := List.mem_of_getElem? hs
  have hinit : s.node.panel.isInitialized = true :=
    forall_initialized_iff.mpr ((agrees_of_advances hk hj).flags ▸ hflags) s hmem
  exact ⟨_, _, cause, rfl, hq.fails _ stamp' cause (hinit ▸ h.of_advances hk hq hj s hmem)
    (congrArg Prod.fst hcall)⟩

end Graph
end PortGraph
