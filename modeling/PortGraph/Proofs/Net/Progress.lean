import PortGraph.Proofs.Net.Reachable
import PortGraph.Proofs.Net.Verdict

/-!
# Passes do not fail

A net of built-in nodes executes as long as every input that no link touches is served
(`Net.IsLive.execute_filled`), and then every output at every depth holds a value of its data type
(`Net.IsFilled`).  The two go together: a node succeeds because the outputs its links come from
were filled before, and the net in a node is served by the inputs of the node.
-/

set_option autoImplicit false

namespace PortGraph

open PortGraph.Graph

/-! ## Outputs that are filled -/

/-- The port holds a value of its data type. -/
def Port.IsFilled (p : Port) : Prop :=
  ∃ packet, p.stored = some packet ∧ packet.dataType = p.dataType

/-- **Every output of a net is filled**, as are those of all nets in it. -/
def Net.IsFilled (g : Net) : Prop :=
  ∀ k, Relation.ReflTransGen Net.Holds g k →
    ∀ s ∈ k.slots, ∀ p ∈ s.node.panel.outputs, p.IsFilled

/-- Every output of a node is filled, as are those in it. -/
structure Node.IsFilled (n : Node Behaviour) : Prop where
  /-- Its own outputs are. -/
  outputs : ∀ p ∈ n.panel.outputs, p.IsFilled
  /-- Those of the net in it are. -/
  inner : ∀ (g : Net) (inputs outputs : List Endpoint),
    n.behaviour = .nested g inputs outputs → Net.IsFilled g

theorem Net.isFilled_iff {g : Net} : g.IsFilled ↔ ∀ s ∈ g.slots, s.node.IsFilled := by
  constructor
  · intro h s hs
    refine ⟨h g .refl s hs, fun k inputs outputs hb j hj ↦ ?_⟩
    exact h j (.head ⟨s, hs, inputs, outputs, hb⟩ hj)
  · intro h k hk
    rcases Relation.ReflTransGen.cases_head hk with rfl | ⟨j, ⟨s, hs, inputs, outputs, hb⟩, hj⟩
    · exact fun s hs ↦ (h s hs).outputs
    · exact (h s hs).inner j inputs outputs hb k hj

/-! ## What a success leaves -/

theorem Net.IsLive.isSome_outputs_of {level : Nat} {g k : Net}
    (hnode : ∀ {n m : Node Behaviour}, n.IsLive level → ∀ {stamp},
      ((Behaviour.life (level + 1)).execute n stamp).result = (.ok (), m) →
        ∀ p ∈ m.panel.outputs, p.stored.isSome = true)
    (hg : g.IsLive level) {stamp : Nat}
    (hok : (Graph.execute (Behaviour.life (level + 1)) g stamp).result = (.ok (), k)) :
    ∀ s ∈ k.slots, ∀ p ∈ s.node.panel.outputs, p.stored.isSome = true := by
  intro s hs
  have hk := keepsOutline_life (level + 1)
  have hskeleton := (agrees_execute hk g stamp).skeleton
  rw [hok] at hskeleton
  have hname : s.key ∈ g.nodeNames := nodeNames_of_skeleton_eq hskeleton ▸ List.mem_map_of_mem hs
  obtain ⟨r, hr, hkey⟩ := List.mem_map.mp hname
  obtain ⟨stamp', n, hrun, hn⟩ := hg.wellLinked.settled_of_ok hg.plan hg.isReady hk hok hr
  rw [hkey, (hg.wellLinked.of_skeleton_eq hskeleton).node?_of_mem hs] at hn
  rw [Option.some.inj hn]
  exact hnode (hg.supplied hr g.links k.held) hrun

/-- **A node that succeeds leaves a value on every output.** -/
theorem Node.IsLive.isSome_outputs {level : Nat} {n m : Node Behaviour} (hn : n.IsLive level)
    {stamp : Nat} (hok : ((Behaviour.life (level + 1)).execute n stamp).result = (.ok (), m)) :
    ∀ p ∈ m.panel.outputs, p.stored.isSome = true := by
  induction level using Nat.strong_induction_on generalizing n m stamp with
  | _ level ih =>
    cases hn.isBuiltin with
    | @operation _ op hb h =>
      rw [Behaviour.execute_operation hb] at hok
      rcases op.execute_spec h stamp with ⟨-, e, heq⟩ | ⟨packet, -, heq⟩
      · rw [heq] at hok
        exact absurd hok (by simp)
      · rw [heq] at hok
        obtain rfl := (Prod.mk.inj hok).2
        exact List.forall_mem_map.mpr fun p _ ↦ rfl
    | @nested _ g inputs outputs hb h _ =>
      obtain ⟨inner, fed, rfl, hfed, -, -, ⟨e, _, -, herr⟩ | ⟨k, hrun, hk, hmirrors, heq⟩⟩ :=
        hn.execute_nested hb stamp
      · rw [hok] at herr
        exact absurd herr (by simp)
      · obtain rfl := (Prod.mk.inj (hok.symm.trans heq)).2
        intro q hq
        obtain ⟨e, p, hp, -, hstored⟩ := hmirrors.takeOver hk.wellLinked hk.isBuiltin hq
        obtain ⟨s, hs, hmem, -⟩ := hk.wellLinked.exists_slot hp
        rw [hstored]
        exact hfed.isSome_outputs_of (fun hn _ ↦ ih inner (Nat.lt_succ_self inner) hn) hrun s hs p
          hmem

theorem Net.IsLive.isSome_outputs {level : Nat} {g k : Net} (hg : g.IsLive level) {stamp : Nat}
    (hok : (Graph.execute (Behaviour.life (level + 1)) g stamp).result = (.ok (), k)) :
    ∀ s ∈ k.slots, ∀ p ∈ s.node.panel.outputs, p.stored.isSome = true :=
  hg.isSome_outputs_of (fun hn _ ↦ hn.isSome_outputs) hok

/-- There is something at the source of every link after a success. -/
theorem Net.IsLive.isSome_held {level : Nat} {g k : Net} (hg : g.IsLive level) {stamp : Nat}
    (hok : (Graph.execute (Behaviour.life (level + 1)) g stamp).result = (.ok (), k)) {l : Link}
    (hl : l ∈ g.links) : (k.held l.source).isSome = true := by
  have hskeleton := (agrees_execute (keepsOutline_life (level + 1)) g stamp).skeleton
  rw [hok] at hskeleton
  have hk := hg.wellLinked.of_skeleton_eq hskeleton
  obtain ⟨p, hp, -⟩ := hk.exists_source (links_of_skeleton_eq hskeleton ▸ hl)
  obtain ⟨s, hs, hmem, -⟩ := hk.exists_slot hp
  rw [held, hp, Option.bind_some]
  exact hg.isSome_outputs hok s hs p hmem

/-! ## Progress -/

theorem Port.data_of_isExposed {p : Port} (h : p.isExposed = true) : p.data = p.stored := by
  rw [data, isSatisfied, h, Bool.or_true]
  cases p.direction <;> rfl

/-- An input that nothing supplies falls back on its default. -/
theorem Port.data_of_free {p : Port} (hd : p.direction = .input) (hl : p.isLinked = false)
    (he : p.isExposed = false) : p.data = p.stored.or p.default := by
  rw [data, hd, isSatisfied, hl, he]
  rfl

/-- An input that was fed is served if the input is that it mirrors. -/
theorem Port.IsServed.of_fed {p q : Port} (hq : q.IsServed)
    (hdeclared : q.declared = p.declared.mirrored .input q.name) (hexposed : p.isExposed = true)
    (hfree : p.isLinked = false) (hstored : p.stored = q.data) : p.IsServed := by
  have htype : q.dataType = p.declared.dataType := dataType_of_declared hdeclared
  have hrequired : q.isRequired = p.isRequired := congrArg (·.isRequired) hdeclared
  have hdefault : q.default.isSome = p.default.isSome := by
    have h := congrArg (fun p : Port ↦ p.default.isSome) hdeclared
    simpa [Port.mirrored] using h
  have hdata : p.data = q.data := (data_of_isExposed hexposed).trans hstored
  constructor
  · intro packet hpacket
    exact (hq.typed packet (hdata ▸ hpacket)).trans htype
  · rw [hdata, ← hrequired, ← hdefault, hfree]
    rintro (hr | hl | hd)
    · exact hq.present (.inl hr)
    · exact absurd hl (by simp)
    · exact hq.present (.inr (.inr hd))

/-- **A net whose open inputs are served executes, and fills its outputs**, if its nodes do. -/
theorem Net.IsLive.execute_filled_of {level : Nat} {g : Net}
    (hnode : ∀ {n : Node Behaviour}, n.IsLive level → (∀ p ∈ n.panel.inputs, p.IsServed) →
      ∀ stamp, ((Behaviour.life (level + 1)).execute n stamp).result.1 = .ok () ∧
        Node.IsFilled ((Behaviour.life (level + 1)).execute n stamp).result.2)
    (hg : g.IsLive level)
    (hserved : ∀ s ∈ g.slots, ∀ p ∈ s.node.panel.inputs, p.isLinked = false → p.IsServed)
    (stamp : Nat) :
    (Graph.execute (Behaviour.life (level + 1)) g stamp).result.1 = .ok () ∧
      Net.IsFilled (Graph.execute (Behaviour.life (level + 1)) g stamp).result.2 := by
  have hprogress : Progresses (Behaviour.life (level + 1)) g fun _ n ↦ n.IsFilled := by
    intro s hs k hskeleton hsources stamp
    have hk := hg.wellLinked.of_skeleton_eq hskeleton
    refine hnode (hg.supplied hs g.links k.held) (List.forall_mem_map.mpr fun p hp ↦ ?_) stamp
    rcases hg.wellLinked.supplied_cases hs hp k.held with
      ⟨hlinked, l, hl, ht, htype, heq⟩ | ⟨hfree, heq⟩
    · -- the output at the other end of the link was filled before
      obtain ⟨q, hq, hqtype, -⟩ := hk.exists_source (links_of_skeleton_eq hskeleton ▸ hl)
      obtain ⟨n, hn, hfind⟩ := Option.bind_eq_some_iff.mp hq
      obtain ⟨packet, hstored, hpacket⟩ :=
        (hsources l hl (congrArg Endpoint.node ht) n hn).outputs q (Port.mem_of_named? hfind).1
      have hdata : (p.store (k.held l.source)).data = some packet := by
        have hheld : k.held l.source = some packet := by rw [held, hq, Option.bind_some, hstored]
        rw [hheld]
        exact Port.data_store_of_isLinked hlinked _
      rw [heq]
      refine ⟨fun packet' h ↦ ?_, fun _ ↦ by rw [hdata]; rfl⟩
      rw [hdata, Option.some.injEq] at h
      rw [← h, hpacket, hqtype, htype]
      rfl
    · rw [heq]
      exact hserved s hs p hp hfree
  obtain ⟨hok, hfilled⟩ := hprogress.execute hg.wellLinked hg.plan hg.isReady
    (keepsOutline_life (level + 1)) stamp
  exact ⟨hok, isFilled_iff.mpr hfilled⟩

/-- **A node whose inputs are served executes, and fills its outputs.** -/
theorem Node.IsLive.execute_filled {level : Nat} {n : Node Behaviour} (hn : n.IsLive level)
    (hserved : ∀ p ∈ n.panel.inputs, p.IsServed) (stamp : Nat) :
    ((Behaviour.life (level + 1)).execute n stamp).result.1 = .ok () ∧
      Node.IsFilled ((Behaviour.life (level + 1)).execute n stamp).result.2 := by
  induction level using Nat.strong_induction_on generalizing n stamp with
  | _ level ih =>
    cases hn.isBuiltin with
    | @operation _ op hb h =>
      obtain ⟨v, hv, htype⟩ := op.compute_of_isServed h hserved
      rw [Behaviour.execute_operation hb]
      rcases op.execute_spec h stamp with ⟨hnone, -⟩ | ⟨packet, hsome, heq⟩
      · rw [hv] at hnone
        exact absurd hnone (by simp)
      · rw [heq]
        refine ⟨rfl, List.forall_mem_map.mpr fun p hp ↦ ⟨packet, rfl, ?_⟩, fun k _ _ hk ↦
          absurd hk (by simp)⟩
        obtain ⟨q, hout, hq⟩ := h.exists_output
        rw [hout, List.mem_singleton] at hp
        have hpacket : packet.value = v := Option.some.inj (hsome.symm.trans hv)
        have hp : p.dataType = op.output.dataType := by
          rw [hp]
          exact congrArg (·.dataType) hq
        exact (congrArg Value.dataType hpacket).trans (htype.trans hp.symm)
    | @nested _ g inputs outputs hb h _ =>
      obtain ⟨inner, fed, rfl, hfed, hfeeds, -, hrest⟩ := hn.execute_nested hb stamp
      obtain ⟨hok, hfilled⟩ := hfed.execute_filled_of
        (fun hn hs stamp ↦ ih inner (Nat.lt_succ_self inner) hn hs stamp) (fun s hs p hp hfree ↦ by
          obtain ⟨i, q, hq, -, hdeclared, hexposed, hstored⟩ :=
            hfeeds _ p (hfed.wellLinked.input?_of_mem hs hp)
              hfree
          exact (hserved q (List.mem_of_getElem? hq)).of_fed hdeclared hexposed hfree hstored) stamp
      rcases hrest with ⟨e, k, hrun, -⟩ | ⟨k, hrun, hk, hmirrors, heq⟩
      · rw [hrun] at hok
        exact absurd hok (by simp)
      · rw [hrun] at hfilled
        rw [heq]
        refine ⟨rfl, fun q hq ↦ ?_, fun j _ _ hj ↦ ?_⟩
        · obtain ⟨e, p, hp, hdeclared, hstored⟩ := hmirrors.takeOver hk.wellLinked hk.isBuiltin hq
          obtain ⟨s, hs, hmem, -⟩ := hk.wellLinked.exists_slot hp
          obtain ⟨packet, hpacket, htype⟩ := (Net.isFilled_iff.mp hfilled s hs).outputs p hmem
          exact ⟨packet, hstored.trans hpacket,
            htype.trans (Port.dataType_of_declared hdeclared).symm⟩
        · rw [← (Behaviour.nested.inj hj).1]
          exact hfilled

/-- **A net whose open inputs are served executes, and fills its outputs.** -/
theorem Net.IsLive.execute_filled {level : Nat} {g : Net} (hg : g.IsLive level)
    (hserved : ∀ s ∈ g.slots, ∀ p ∈ s.node.panel.inputs, p.isLinked = false → p.IsServed)
    (stamp : Nat) :
    (Graph.execute (Behaviour.life (level + 1)) g stamp).result.1 = .ok () ∧
      Net.IsFilled (Graph.execute (Behaviour.life (level + 1)) g stamp).result.2 :=
  hg.execute_filled_of (fun hn hs stamp ↦ hn.execute_filled hs stamp) hserved stamp

end PortGraph
