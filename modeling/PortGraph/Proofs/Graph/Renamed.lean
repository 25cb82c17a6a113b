import PortGraph.Proofs.Graph.Relocated

/-!
# A node takes a new name

Renaming a node is a case of calling nodes anew: the name is changed wherever it stands, and nothing
else is (`WellLinked.relabel_eq`).  `Graph.Relabels` says what that comes to.  The graph compiles as it
did before, in the new names, or is refused for the reason for which it was refused before; and giving
the old name back undoes it all (`Reachable.relabels_of_renameNode`).
-/

set_option autoImplicit false

namespace PortGraph

/-- A node that is called by its own name is the one it was. -/
theorem Slot.Regular.relocate_eq_self {β : Type} {ρ : String → String} {s : Slot β} (h : s.Regular)
    (hρ : ρ s.key = s.key) : s.relocate ρ = s := by
  have hname : s.node.rename s.key = s.node := by rw [← h.name_eq]; rfl
  rw [Slot.relocate, hρ, hname]

namespace Graph

variable {β : Type} {g k : Graph β} {old new : String} {ρ : String → String}

/-! ## Calling nodes anew -/

theorem relocate_relocate (ρ σ : String → String) (g : Graph β) :
    (g.relocate ρ).relocate σ = g.relocate (σ ∘ ρ) := by
  rw [relocate, relocate, relocate]
  simp only [List.map_map]
  rfl

/-- Nothing changes if every node is called by its own name. -/
theorem WellLinked.relocate_eq_self (h : g.WellLinked) (hρ : ∀ name ∈ g.nodeNames, ρ name = name) :
    g.relocate ρ = g := by
  have hslots : g.slots.map (·.relocate ρ) = g.slots := by
    refine (List.map_congr_left fun s hs ↦ ?_).trans g.slots.map_id
    exact (h.regular s hs).relocate_eq_self (hρ s.key (List.mem_map_of_mem hs))
  have hlinks : g.links.map (·.relocate ρ) = g.links := by
    refine (List.map_congr_left fun l hl ↦ ?_).trans g.links.map_id
    have hsource : ρ l.source.node = l.source.node := hρ _ (h.node_mem hl .output)
    have htarget : ρ l.target.node = l.target.node := hρ _ (h.node_mem hl .input)
    rw [Link.relocate, Endpoint.relocate, Endpoint.relocate, hsource, htarget]
    rfl
  rw [relocate, hslots, hlinks]

/-! ## Renaming -/

/-- **Only the name is new.** -/
theorem WellLinked.relabel_eq (h : g.WellLinked) (old new : String) :
    g.relabel old new = (g.relocate (renamed old new)).invalidate := by
  have hslots : g.slots.map (·.rename old new) = g.slots.map (·.relocate (renamed old new)) := by
    refine List.map_congr_left fun s hs ↦ ?_
    rw [Slot.rename]
    split
    · rename_i hkey
      rw [Slot.relocate, renamed, if_pos hkey]
    · rename_i hkey
      exact ((h.regular s hs).relocate_eq_self (if_neg hkey)).symm
  have hlinks : g.links.map (·.rename old new) = g.links.map (·.relocate (renamed old new)) :=
    List.map_congr_left fun l _ ↦ l.rename_eq_relocate old new
  rw [Graph.relabel, hslots, hlinks]
  rfl

theorem renameNode_of_fresh (hne : old ≠ new) (hold : old ∈ g.nodeNames) (hnew : new ∉ g.nodeNames) :
    g.renameNode old new = (.ok (), g.relabel old new) := by
  have hfresh : ¬g.contains new = true := fun hc ↦ hnew (contains_iff_mem.mp hc)
  rw [renameNode, if_neg hne, contains_iff_mem.mpr hold, if_neg (by simp), if_neg hfresh]

/-- A node that takes another name was there, and no node had the name. -/
theorem of_renameNode_eq_ok (hne : old ≠ new) (hok : g.renameNode old new = (.ok (), k)) :
    old ∈ g.nodeNames ∧ new ∉ g.nodeNames := by
  rw [renameNode, if_neg hne] at hok
  split at hok
  · exact absurd (congrArg Prod.fst hok) (by simp)
  · rename_i hold
    split at hok
    · exact absurd (congrArg Prod.fst hok) (by simp)
    · rename_i hnew
      exact ⟨contains_iff_mem.mp (by simpa using hold), fun hm ↦ hnew (contains_iff_mem.mpr hm)⟩

theorem Reachable.of_renameNode (h : g.Reachable) {r : Except GraphError Unit}
    (hk : g.renameNode old new = (r, k)) : k.Reachable := by
  have hstep : ((Request.renameNode old new).perform .idle (fun _ _ ↦ throw (.unknownType "")) g
      0).result.Reachable :=
    .step _ h keepsOutline_idle (fun _ hn ↦ hn.elim) fun _ _ hr ↦ absurd hr (by simp)
  have hleft : (g.renameNode old new).2 = k := congrArg Prod.snd hk
  exact hleft ▸ hstep

/-- A name that is given and taken back is the one of before. -/
theorem renamed_renamed {name : String} (h : name ≠ new) :
    renamed new old (renamed old new name) = name := by
  by_cases hname : name = old
  · rw [renamed, renamed, if_pos hname, if_pos rfl, hname]
  · rw [renamed, renamed, if_neg hname, if_neg h]

/-! ## Graphs that differ in names only -/

/-- **The graph `k` is the graph `g` with its nodes called anew**, and compiles as that does. -/
structure Relabels (ρ : String → String) (g k : Graph β) : Prop where
  /-- It is the same but for the names, and to be compiled and saved as after any change. -/
  eq_relocate : k = (g.relocate ρ).invalidate
  /-- What keeps it from compiling, before any node is called, is what kept the other from it. -/
  refused : ∀ (life life' : Lifecycle β) (stamp stamp' : Nat) (e : GraphError),
    (∀ name cause, e ≠ .initFailed name cause) →
    ((k.compile life' stamp').result.1 = .error e ↔
      ∃ e', (g.compile life stamp).result.1 = .error e' ∧ e = e'.relocate ρ)
  /-- Its nodes run in the same order, on the same levels. -/
  ordered : ∀ (life life' : Lifecycle β), life.KeepsOutline → life'.KeepsOutline →
    ∀ (stamp stamp' : Nat) (j j' : Graph β), (g.compile life stamp).result = (.ok (), j) →
    (k.compile life' stamp').result = (.ok (), j') →
    j'.order = j.order.map ρ ∧ j'.levels = j.levels.map (List.map ρ)
  /-- If its nodes do not go by their names, it comes to the same whatever they do. -/
  compiled : ∀ life : Lifecycle β, life.IgnoresNames → ∀ stamp,
    (k.compile life stamp).result =
      (g.invalidate.compile life stamp).result.map (Except.mapError (·.relocate ρ)) (·.relocate ρ)

theorem Reachable.relabels (h : g.Reachable) (hk : k.Reachable)
    (hnd : (g.nodeNames.map ρ).Nodup) (heq : k = (g.relocate ρ).invalidate) : g.Relabels ρ k where
  eq_relocate := heq
  refused life life' stamp stamp' e he := by
    have hplan : k.plan = g.plan.mapError (·.relocate ρ) := heq ▸ h.wellLinked.plan_relocate hnd
    have hready : k.isReady = false := heq ▸ rfl
    rw [compile_eq_error_iff hready he, hplan]
    -- a ready graph has a plan, so neither side can be refused
    cases hr : g.isReady with
    | true =>
      rw [h.cached.plan hr, compile_of_ready hr]
      exact ⟨fun hc ↦ absurd hc (by simp [Except.mapError]), fun ⟨_, hc, _⟩ ↦ absurd hc (by simp)⟩
    | false =>
      have hother : ∀ e', e = e'.relocate ρ →
          ((g.compile life stamp).result.1 = .error e' ↔ g.plan = .error e') := by
        rintro e' rfl
        refine compile_eq_error_iff hr (fun name cause hc ↦ ?_) stamp
        exact he (ρ name) cause (congrArg (·.relocate ρ) hc)
      constructor
      · intro hk
        cases hp : g.plan with
        | error e' =>
          rw [hp] at hk
          have hee : e = e'.relocate ρ := (Except.error.inj hk).symm
          exact ⟨e', (hother e' hee).mpr hp, hee⟩
        | ok schedule =>
          rw [hp] at hk
          exact absurd hk (by simp [Except.mapError])
      · rintro ⟨e', he', hee⟩
        rw [(hother e' hee).mp he', hee]
        rfl
  ordered life life' hlife hlife' stamp stamp' j j' hj hj' := by
    obtain ⟨-, hplan, hskel⟩ := h.compiled hlife hj
    obtain ⟨-, hplan', hskel'⟩ := hk.compiled hlife' hj'
    have hnames : j'.nodeNames = j.nodeNames.map ρ := by
      rw [nodeNames_of_skeleton_eq hskel', nodeNames_of_skeleton_eq hskel, heq]
      exact nodeNames_relocate ρ g
    have hschedule : j'.schedule = j.schedule := by
      have hrelocate : k.plan = g.plan.mapError (·.relocate ρ) :=
        heq ▸ h.wellLinked.plan_relocate hnd
      rw [plan_of_skeleton_eq hskel'] at hplan'
      rw [plan_of_skeleton_eq hskel] at hplan
      rw [hplan', hplan] at hrelocate
      exact Except.ok.inj hrelocate
    exact ⟨order_eq_map hschedule hnames, levels_eq_map hschedule hnames⟩
  compiled life hi stamp := by
    have hinv : g.invalidate.WellLinked := h.wellLinked.of_skeleton_eq rfl
    exact heq ▸ hinv.compile_relocate hnd hi stamp

/-- **A node that takes a new name takes it everywhere, and nothing else changes.**  The graph compiles
as before, in the new names; when the node takes its old name again, the graph is the one of before, but
that it is to be compiled and saved. -/
theorem Reachable.relabels_of_renameNode (h : g.Reachable) (hne : old ≠ new)
    (hok : g.renameNode old new = (.ok (), k)) :
    g.Relabels (renamed old new) k ∧ k.renameNode new old = (.ok (), g.invalidate) := by
  have hg := h.wellLinked
  obtain ⟨hold, hnew⟩ := of_renameNode_eq_ok hne hok
  obtain rfl : g.relabel old new = k :=
    congrArg Prod.snd ((renameNode_of_fresh hne hold hnew).symm.trans hok)
  have hk : (g.relabel old new).WellLinked := hg.relabel hnew
  have hreach := h.of_renameNode hok
  have hnames : (g.relabel old new).nodeNames = g.nodeNames.map (renamed old new) :=
    nodeNames_relabel old new
  have hnd := hnames ▸ hk.keys_nodup
  refine ⟨h.relabels hreach hnd (hg.relabel_eq old new), ?_⟩
  -- the new name is taken, the old one is free
  have hmem : new ∈ (g.relabel old new).nodeNames := by
    rw [hnames]
    exact List.mem_map.mpr ⟨old, hold, if_pos rfl⟩
  have hfree : old ∉ (g.relabel old new).nodeNames := by
    rw [hnames]
    intro hm
    obtain ⟨name, -, hname⟩ := List.mem_map.mp hm
    rw [renamed] at hname
    split at hname
    · exact hne hname.symm
    · rename_i hother
      exact hother hname
  have hback : g.relocate (renamed new old ∘ renamed old new) = g :=
    hg.relocate_eq_self fun name hm ↦ renamed_renamed fun heq ↦ hnew (heq ▸ hm)
  rw [renameNode_of_fresh hne.symm hmem hfree, hk.relabel_eq, hg.relabel_eq]
  have hrelocate : ((g.relocate (renamed old new)).invalidate.relocate (renamed new old)).invalidate =
      ((g.relocate (renamed old new)).relocate (renamed new old)).invalidate := rfl
  rw [hrelocate, relocate_relocate, hback]

theorem relabels_of_renameNode_sampleRing : "a" ≠ "c" ∧
    ∃ k, sampleRing.renameNode "a" "c" = (.ok (), k) ∧ sampleRing.Relabels (renamed "a" "c") k ∧
      k.renameNode "c" "a" = (.ok (), sampleRing.invalidate) ∧
      k.links.map (fun l ↦ (l.source.node, l.target.node)) = [("c", "b"), ("c", "c")] := by
  have hne : "a" ≠ "c" := by decide
  have hok := renameNode_of_fresh (g := sampleRing) hne (by decide) (by decide)
  obtain ⟨hrelabels, hback⟩ := reachable_sampleRing.relabels_of_renameNode hne hok
  exact ⟨hne, _, hok, hrelabels, hback, by decide⟩

end Graph
end PortGraph
