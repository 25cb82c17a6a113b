import PortGraph.Graph.Access
import PortGraph.Proofs.Graph.Links

/-!
# Links when nodes come, go and take new names

A node that comes brings no links and one that goes leaves none behind, so the links and the ports
of the others go on belonging together.  A new name is put in the place of the old one everywhere,
at the node as well as at the ends of its links: `port?_relabel_iff` says that every endpoint is
found again under its new name, and nothing else is.
-/

set_option autoImplicit false

namespace PortGraph
namespace Graph

variable {β : Type} {g : Graph β}

/-! ## A node comes -/

@[simp] theorem nodeNames_pushNode (n : Node β) :
    (g.pushNode n).nodeNames = g.nodeNames ++ [n.name] := by
  rw [nodeNames, pushNode, List.map_append, nodeNames]
  rfl

theorem port?_pushNode (n : Node β) (side : Direction) (e : Endpoint) (hnew : e.node ≠ n.name) :
    (g.pushNode n).port? side e = g.port? side e := by
  rw [port?, port?, node?, node?, pushNode, List.find?_append]
  simp [Ne.symm hnew]

theorem port?_pushNode_self (n : Node β) (side : Direction) (e : Endpoint)
    (hnew : n.name ∉ g.nodeNames) (he : e.node = n.name) :
    (g.pushNode n).port? side e = n.panel.port? side e.port := by
  have hnone : g.slots.find? (fun s ↦ s.key = n.name) = none := by
    rw [List.find?_eq_none]
    intro s hs hk
    exact hnew (List.mem_map.mpr ⟨s, hs, by simpa using hk⟩)
  rw [port?, node?, pushNode, List.find?_append, he, hnone]
  simp

/-- **A node comes** that no link touches. -/
theorem WellLinked.pushNode (h : g.WellLinked) {n : Node β} (hn : n.panel.IsDetached)
    (hnew : n.name ∉ g.nodeNames) : (g.pushNode n).WellLinked := by
  refine ⟨?_, fun s hs ↦ ?_, h.ids_nodup, fun l hl side ↦ ?_, fun side e p hp ↦ ?_, h.once⟩
  · rw [nodeNames_pushNode, ← List.concat_eq_append]
    exact h.keys_nodup.concat hnew
  · rcases List.mem_append.mp hs with hs | hs
    · exact h.regular s hs
    · rw [List.mem_singleton.mp hs]
      exact ⟨rfl, hn.ports_nodup⟩
  · obtain ⟨p, hp, ht⟩ := h.ends l hl side
    refine ⟨p, ?_, ht⟩
    rw [port?_pushNode n side _ fun he ↦ hnew (he ▸ h.node_mem hl side), hp]
  · by_cases he : e.node = n.name
    · rw [port?_pushNode_self n side e hnew he] at hp
      have hdeg : g.degree side e = 0 := h.degree_eq_zero (he ▸ hnew)
      rw [hn.unlinked side p (Port.mem_of_named? hp).1]
      exact hdeg.symm
    · rw [port?_pushNode n side e he] at hp
      exact h.counted side e p hp

/-! ## A node goes -/

theorem node?_eraseNode (name m : String) :
    (g.eraseNode name).node? m = if m = name then none else g.node? m := by
  rw [node?, eraseNode, List.find?_filter]
  split
  · rename_i hm
    subst hm
    rw [Option.map_eq_none_iff, List.find?_eq_none]
    simp
  · rename_i hm
    rw [node?]
    congr 2
    funext s
    by_cases hs : s.key = m <;> simp [hs, hm]

/-- **A node goes** that no link touches. -/
theorem WellLinked.eraseNode (h : g.WellLinked) {name : String}
    (hno : ∀ l ∈ g.links, l.touches name = false) : (g.eraseNode name).WellLinked := by
  have hport : ∀ side e, e.node ≠ name → (g.eraseNode name).port? side e = g.port? side e := by
    intro side e he
    rw [port?, node?_eraseNode, if_neg he, port?]
  have hplace : ∀ l ∈ g.links, ∀ side, (l.place side).node ≠ name := by
    intro l hl side he
    have ht := hno l hl
    rw [Link.touches, Bool.or_eq_false_iff] at ht
    cases side
    · exact of_decide_eq_false ht.2 he
    · exact of_decide_eq_false ht.1 he
  refine ⟨h.keys_nodup.sublist (List.filter_sublist.map _),
    fun s hs ↦ h.regular s (List.mem_filter.mp hs).1, h.ids_nodup, fun l hl side ↦ ?_,
    fun side e p hp ↦ ?_, h.once⟩
  · rw [hport side _ (hplace l hl side)]
    exact h.ends l hl side
  · by_cases he : e.node = name
    · rw [port?, node?_eraseNode, if_pos he] at hp
      exact absurd hp (by simp)
    · exact h.counted side e p (hport side e he ▸ hp)

theorem WellLinked.dropLinksOf (h : g.WellLinked) (name : String) :
    (g.dropLinksOf name).WellLinked :=
  h.foldl_dropLink _

theorem WellLinked.touches_eq_false (h : g.WellLinked) {name : String} {l : Link}
    (hl : l ∈ (g.dropLinksOf name).links) : l.touches name = false := by
  rw [links_dropLinksOf h.ids_nodup] at hl
  simpa using (List.mem_filter.mp hl).2

/-- **A node goes together with its links.** -/
theorem WellLinked.eraseNode_dropLinksOf (h : g.WellLinked) (name : String) :
    ((g.dropLinksOf name).eraseNode name).WellLinked :=
  (h.dropLinksOf name).eraseNode fun _ hl ↦ h.touches_eq_false hl

/-- A node whose links were taken out is as free of links as a new one. -/
theorem WellLinked.isDetached (h : g.WellLinked) {name : String}
    (hno : ∀ l ∈ g.links, l.touches name = false) {n : Node β} (hn : g.node? name = some n) :
    n.panel.IsDetached := by
  have hs := mem_of_node? hn
  refine ⟨(h.regular _ hs).ports_nodup, fun side p hp ↦ ?_⟩
  rw [h.linkCount_eq hs hp, degree, List.countP_eq_zero]
  intro l hl he
  have ht := hno l hl
  rw [decide_eq_true_eq] at he
  rw [Link.touches, Bool.or_eq_false_iff, decide_eq_false_iff_not, decide_eq_false_iff_not] at ht
  cases side
  · exact ht.2 (congrArg Endpoint.node he)
  · exact ht.1 (congrArg Endpoint.node he)

/-- Removing a node is refused, or the node is released and its place is gone. -/
theorem removeNode_cases (life : Lifecycle β) (name : String) (g : Graph β) (stamp : Nat) :
    (∃ e, (removeNode life name g stamp).result = (.error e, g) ∧
      (removeNode life name g stamp).events = []) ∨
    ∃ n line, (g.dropLinksOf name).node? name = some n ∧
      (removeNode life name g stamp).result =
        (.ok (life.release n stamp).result, (g.dropLinksOf name).eraseNode name) ∧
      (removeNode life name g stamp).events = (life.release n stamp).events ++ [.log line] := by
  rw [removeNode]
  split
  · exact .inl ⟨_, rfl, rfl⟩
  · dsimp only
    cases hn : (g.dropLinksOf name).node? name with
    | none => exact .inl ⟨_, rfl, rfl⟩
    | some n => exact .inr ⟨n, _, rfl, rfl, rfl⟩

/-- **A node that is taken out was there**, and it was released. -/
theorem removeNode_eq_ok {life : Lifecycle β} {name : String} {g : Graph β} {stamp : Nat}
    {n : Node β} (h : (removeNode life name g stamp).result.1 = .ok n) :
    ∃ m line, (g.dropLinksOf name).node? name = some m ∧ n = (life.release m stamp).result ∧
      (removeNode life name g stamp).result.2 = (g.dropLinksOf name).eraseNode name ∧
      (removeNode life name g stamp).events = (life.release m stamp).events ++ [.log line] := by
  rcases removeNode_cases life name g stamp with ⟨e, heq, -⟩ | ⟨m, line, hm, heq, hevents⟩
  · rw [heq] at h
    exact absurd h (by simp)
  · rw [heq] at h
    exact ⟨m, line, hm, (Except.ok.inj h).symm, congrArg Prod.snd heq, hevents⟩

/-! ## A node takes a new name -/

@[simp] theorem rename_place (l : Link) (old new : String) (side : Direction) :
    (l.rename old new).place side = (l.place side).rename old new := by
  cases side <;> rfl

/-- Endpoints of nodes that are not called by the new name do not fall together. -/
theorem rename_inj {old new : String} {e e' : Endpoint} (he : e.node ≠ new) (he' : e'.node ≠ new)
    (h : e.rename old new = e'.rename old new) : e = e' := by
  obtain ⟨node, port⟩ := e
  obtain ⟨node', port'⟩ := e'
  simp only [Endpoint.rename] at h he he'
  split at h <;> split at h <;> simp_all

theorem key_rename {old new : String} (s : Slot β) :
    (s.rename old new).key = if s.key = old then new else s.key := by
  rw [Slot.rename]
  split <;> rfl

theorem ports_rename {old new : String} (s : Slot β) (side : Direction) :
    (s.rename old new).node.panel.ports side = s.node.panel.ports side := by
  rw [Slot.rename]
  split
  · cases side <;> rfl
  · rfl

theorem regular_rename {old new : String} {s : Slot β} (h : s.Regular) :
    (s.rename old new).Regular := by
  refine ⟨?_, fun side ↦ (ports_rename s side).symm ▸ h.ports_nodup side⟩
  rw [Slot.rename]
  split
  · rfl
  · exact h.name_eq

theorem nodeNames_relabel (old new : String) :
    (g.relabel old new).nodeNames = g.nodeNames.map fun m ↦ if m = old then new else m := by
  rw [nodeNames, relabel, nodeNames, List.map_map, List.map_map]
  exact List.map_congr_left fun s _ ↦ key_rename s

theorem nodup_nodeNames_relabel {old new : String} (hnd : g.nodeNames.Nodup)
    (hnew : new ∉ g.nodeNames) : (g.relabel old new).nodeNames.Nodup := by
  rw [nodeNames_relabel]
  refine hnd.map_on fun a ha b hb hab ↦ ?_
  have hane : a ≠ new := fun h ↦ hnew (h ▸ ha)
  have hbne : b ≠ new := fun h ↦ hnew (h ▸ hb)
  split at hab <;> split at hab <;> simp_all

/-- Every endpoint is found again under its new name, and nothing else is. -/
theorem port?_relabel_iff {old new : String} (h : g.WellLinked) (hnew : new ∉ g.nodeNames)
    {side : Direction} {e' : Endpoint} {p : Port} :
    (g.relabel old new).port? side e' = some p ↔
      ∃ e : Endpoint, e.node ∈ g.nodeNames ∧ e.rename old new = e' ∧ g.port? side e = some p := by
  have hfind : ∀ e, g.port? side e = some p ↔
      ∃ s ∈ g.slots, s.key = e.node ∧ p ∈ s.node.panel.ports side ∧ p.name = e.port := fun e ↦
    port?_eq_some_iff h.keys_nodup fun s hs ↦ (h.regular s hs).ports_nodup side
  rw [port?_eq_some_iff (nodup_nodeNames_relabel h.keys_nodup hnew)]
  · constructor
    · rintro ⟨s', hs', hk, hp, hm⟩
      obtain ⟨s, hs, rfl⟩ := List.mem_map.mp hs'
      rw [ports_rename] at hp
      rw [key_rename] at hk
      refine ⟨⟨s.key, p.name⟩, List.mem_map_of_mem hs, ?_, (hfind _).mpr ⟨s, hs, rfl, hp, rfl⟩⟩
      rw [Endpoint.rename]
      obtain ⟨node, port⟩ := e'
      split at hk <;> simp_all
    · rintro ⟨e, -, rfl, he⟩
      obtain ⟨s, hs, hk, hp, hm⟩ := (hfind e).mp he
      refine ⟨s.rename old new, List.mem_map_of_mem hs, ?_, ?_, ?_⟩
      · rw [key_rename, Endpoint.rename, hk]
        split <;> rfl
      · rw [ports_rename]; exact hp
      · rw [hm, Endpoint.rename]
        split <;> rfl
  · intro s' hs'
    obtain ⟨s, hs, rfl⟩ := List.mem_map.mp hs'
    rw [ports_rename]
    exact (h.regular s hs).ports_nodup side

theorem degree_relabel {old new : String} (h : g.WellLinked) (hnew : new ∉ g.nodeNames)
    (side : Direction) {e : Endpoint} (he : e.node ∈ g.nodeNames) :
    (g.relabel old new).degree side (e.rename old new) = g.degree side e := by
  rw [degree, relabel, List.countP_map, degree]
  refine List.countP_congr fun l hl ↦ ?_
  rw [Function.comp_apply, decide_eq_true_eq, decide_eq_true_eq, rename_place]
  refine ⟨rename_inj (fun hn ↦ hnew (hn ▸ h.node_mem hl side)) fun hn ↦ hnew (hn ▸ he), ?_⟩
  exact fun heq ↦ heq ▸ rfl

/-- **A node takes a new name.** -/
theorem WellLinked.relabel (h : g.WellLinked) {old new : String} (hnew : new ∉ g.nodeNames) :
    (g.relabel old new).WellLinked := by
  refine ⟨nodup_nodeNames_relabel h.keys_nodup hnew, fun s' hs' ↦ ?_, ?_, fun l' hl' side ↦ ?_,
    fun side e' p hp ↦ ?_, fun e' ↦ ?_⟩
  · obtain ⟨s, hs, rfl⟩ := List.mem_map.mp hs'
    exact regular_rename (h.regular s hs)
  · rw [Graph.relabel, List.map_map]
    exact h.ids_nodup
  · obtain ⟨l, hl, rfl⟩ := List.mem_map.mp hl'
    obtain ⟨p, hp, ht⟩ := h.ends l hl side
    exact ⟨p, (port?_relabel_iff h hnew).mpr
      ⟨l.place side, h.node_mem hl side, (rename_place l old new side).symm, hp⟩, ht⟩
  · obtain ⟨e, he, rfl, hold⟩ := (port?_relabel_iff h hnew).mp hp
    rw [degree_relabel h hnew side he]
    exact h.counted side e p hold
  · by_cases hex : ∃ l ∈ g.links, (l.target.rename old new) = e'
    · obtain ⟨l, hl, rfl⟩ := hex
      have hdeg : (g.relabel old new).degree .input (l.target.rename old new) =
          g.degree .input l.target := degree_relabel h hnew .input (h.node_mem hl .input)
      exact hdeg ▸ h.once l.target
    · have hzero : (g.relabel old new).degree .input e' = 0 := by
        rw [degree, List.countP_eq_zero]
        intro l' hl' heq
        obtain ⟨l, hl, rfl⟩ := List.mem_map.mp hl'
        exact hex ⟨l, hl, of_decide_eq_true heq⟩
      exact hzero ▸ Nat.zero_le 1

end Graph
end PortGraph
