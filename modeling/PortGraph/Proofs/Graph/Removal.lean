import PortGraph.Proofs.Graph.Compilation
import PortGraph.Proofs.Graph.Effects
import PortGraph.Proofs.Graph.Levels
import PortGraph.Proofs.Graph.Persists

/-!
# A node is taken out

A node goes together with the links that touch it.  `Graph.Departs` says what that leaves of the other
nodes, and in which state the node is handed back.  Its links may be removed before it, one after the
other and in any order: both ways come to the graph without these links, so the same graph is left and
the same node is handed back (`Reachable.departs_removeNode`).
-/

set_option autoImplicit false

namespace PortGraph
namespace Graph

variable {β : Type} {life : Lifecycle β} {g j k : Graph β} {name : String} {m o : Node β}
  {ids : List LinkId}

/-! ## Removing links one after the other -/

/-- Remove the links of some ids, one after the other. -/
def removeLinks : List LinkId → Graph β → Act (Reply GraphError (Graph β) (List Link))
  | [], g => return (.ok [], g)
  | id :: ids, g => do
    let (result, g) ← g.removeLinkById id
    match result with
    | .error e => return (.error e, g)
    | .ok l => do
      let (result, g) ← removeLinks ids g
      return (result.map (l :: ·), g)

/-- **The links of some ids are removed**, the links `ls`: each is found when it is its turn, no node is
called, and the graph `k` is left. -/
structure Unlinks (g : Graph β) (ids : List LinkId) (stamp : Nat) (ls : List Link) (k : Graph β) :
    Prop where
  /-- No removal is refused. -/
  result : (removeLinks ids g stamp).result = (.ok ls, k)
  /-- The links have these ids. -/
  map_id : ls.map Link.id = ids
  /-- No stamp is drawn. -/
  stamp_eq : (removeLinks ids g stamp).stamp = stamp
  /-- No node is called. -/
  calls_eq : (removeLinks ids g stamp).calls = []

/-- One link, and then the others. -/
theorem Unlinks.cons (hp : g.isProtected = false) {id : LinkId} {l : Link} (hl : g.link? id = some l)
    {stamp : Nat} {ls : List Link} (h : (g.dropLink id).invalidate.Unlinks ids stamp ls k) :
    g.Unlinks (id :: ids) stamp (l :: ls) k := by
  have hfirst : ∃ line, g.removeLinkById id stamp =
      ⟨(.ok l, (g.dropLink id).invalidate), stamp, [.log line]⟩ := by
    rw [removeLinkById, hp, hl]
    exact ⟨_, rfl⟩
  obtain ⟨line, hfirst⟩ := hfirst
  have hevents := h.calls_eq
  rw [Outcome.calls] at hevents
  constructor
  · simp only [removeLinks, Act.bind_apply, hfirst, h.result]
    rfl
  · rw [List.map_cons, h.map_id, (link?_eq_some hl).2]
  · simp only [removeLinks, Act.bind_apply, hfirst, h.stamp_eq]
    rfl
  · simp only [removeLinks, Act.bind_apply, Act.pure_apply, hfirst, Outcome.calls, List.append_nil,
      List.filterMap_append, hevents]
    rfl

/-- **Links of a graph can be removed in any order**, and the graph is left without them. -/
theorem WellLinked.unlinks (h : g.WellLinked) (hp : g.isProtected = false) (hnd : ids.Nodup)
    (hids : ∀ id ∈ ids, id ∈ g.links.map Link.id) (stamp : Nat) :
    ∃ ls k, g.Unlinks ids stamp ls k ∧
      k.invalidate = (g.without fun l ↦ l.id ∈ ids).invalidate := by
  -- the links are taken out one by one, and the ids that are left still name links
  induction ids generalizing g with
  | nil =>
    refine ⟨[], g, ⟨rfl, rfl, rfl, rfl⟩, ?_⟩
    rw [without_eq_self fun l _ ↦ by simp]
  | cons id ids ih =>
    rw [List.nodup_cons] at hnd
    rw [List.forall_mem_cons] at hids
    obtain ⟨l, hl⟩ : ∃ l, g.link? id = some l := by
      obtain ⟨l, hl, rfl⟩ := List.mem_map.mp hids.1
      exact Option.isSome_iff_exists.mp (List.find?_isSome.mpr ⟨l, hl, by simp⟩)
    have hdrop := h.dropLink_eq id
    have hwell : (g.dropLink id).invalidate.WellLinked := (h.dropLink id).of_skeleton_eq rfl
    have hopen : (g.dropLink id).invalidate.isProtected = false := hdrop ▸ hp
    have hrest : ∀ id' ∈ ids, id' ∈ (g.dropLink id).invalidate.links.map Link.id := by
      intro id' hid'
      obtain ⟨l', hl', rfl⟩ := List.mem_map.mp (hids.2 id' hid')
      have hne : l'.id ≠ id := fun he ↦ hnd.1 (he ▸ hid')
      rw [hdrop]
      exact List.mem_map_of_mem (List.mem_filter.mpr ⟨hl', by simpa using hne⟩)
    obtain ⟨ls, k, hunlinks, hk⟩ := ih hwell hopen hnd.2 hrest
    refine ⟨l :: ls, k, hunlinks.cons hp hl, ?_⟩
    have hboth : (g.without fun l ↦ l.id = id).without (fun l ↦ l.id ∈ ids) =
        g.without fun l ↦ l.id ∈ id :: ids :=
      (without_without _ _ g).trans (without_congr fun l _ ↦ by simp)
    rw [hk, ← hboth, ← hdrop]
    rfl

/-! ## Removing the node -/

theorem removeNode_of_node? (life : Lifecycle β) (hp : g.isProtected = false)
    (hm : (g.dropLinksOf name).node? name = some m) (stamp : Nat) :
    (g.removeNode life name stamp).result =
        (.ok (life.release m stamp).result, (g.dropLinksOf name).eraseNode name) ∧
      (g.removeNode life name stamp).calls = (life.release m stamp).calls := by
  rw [removeNode, if_neg (by simp [hp]), hm]
  simp only [Act.bind_apply, Act.pure_apply, Outcome.calls, List.append_nil, List.filterMap_append,
    true_and]
  exact List.append_nil _

/-- If the same is left of two graphs without the links of a node, the same comes of removing it. -/
theorem removeNode_eq_of_dropLinksOf (hp : g.isProtected = false) (hp' : j.isProtected = false)
    (hm : (g.dropLinksOf name).node? name = some m) (hname : j.name = g.name)
    (h : (j.dropLinksOf name).invalidate = (g.dropLinksOf name).invalidate) (stamp : Nat) :
    j.removeNode life name stamp = g.removeNode life name stamp := by
  have hslots : (j.dropLinksOf name).slots = (g.dropLinksOf name).slots := (congrArg slots h :)
  have hm' : (j.dropLinksOf name).node? name = some m := by rw [← hm, node?, hslots, node?]
  have herase : (j.dropLinksOf name).eraseNode name = (g.dropLinksOf name).eraseNode name :=
    (congrArg (eraseNode name) h :)
  rw [removeNode, removeNode, if_neg (by simp [hp']), if_neg (by simp [hp]), hm, hm', herase, hname]

/-- A node of a graph when the links that touch it are taken from it. -/
def unlinked (g : Graph β) (m : Node β) : Node β :=
  m.mapPanel (·.mapPorts fun side p ↦ p.lose side (g.lost (·.touches m.name) side ⟨m.name, p.name⟩))

theorem WellLinked.node?_dropLinksOf (h : g.WellLinked) (hm : g.node? name = some m) :
    (g.dropLinksOf name).node? name = some (g.unlinked m) := by
  obtain rfl : m.name = name := (h.regular _ (mem_of_node? hm)).name_eq
  rw [h.dropLinksOf_eq]
  exact (node?_mapPorts _ g m.name).trans (congrArg _ hm)

/-- **The links of a node may be removed before it**, in any order. -/
theorem WellLinked.removeNode_of_unlinks (h : g.WellLinked) (hp : g.isProtected = false)
    (hm : g.node? name = some m) (hnd : ids.Nodup)
    (hids : ∀ id ∈ ids, id ∈ (g.links.filter (·.touches name)).map Link.id) (stamp : Nat) :
    ∃ ls j, g.Unlinks ids stamp ls j ∧ ∀ (life : Lifecycle β) stamp',
      j.removeNode life name stamp' = g.removeNode life name stamp' := by
  have hlinks : ∀ id ∈ ids, id ∈ g.links.map Link.id := fun id hid ↦
    (List.filter_sublist.map Link.id).subset (hids id hid)
  obtain ⟨ls, j, hunlinks, hj⟩ := h.unlinks hp hnd hlinks stamp
  refine ⟨ls, j, hunlinks, fun life stamp' ↦ ?_⟩
  have hwell : j.WellLinked := by
    have hwithout : (g.without fun l ↦ l.id ∈ ids).WellLinked :=
      h.foldl_dropLink_eq ids ▸ h.foldl_dropLink ids
    exact hwithout.of_skeleton_eq (congrArg skeleton hj :)
  -- the links that were removed touch the node, so they would have gone with it
  have hall : (g.without fun l ↦ l.id ∈ ids).without (·.touches name) = g.without (·.touches name) := by
    refine (without_without _ _ g).trans (without_congr fun l hl ↦ ?_)
    by_cases hid : l.id ∈ ids
    · rw [h.of_id_mem hl (hids _ hid), Bool.or_true]
    · rw [decide_eq_false hid, Bool.false_or]
  have hdrop : (j.dropLinksOf name).invalidate = (g.dropLinksOf name).invalidate := by
    rw [hwell.dropLinksOf_eq, h.dropLinksOf_eq, ← hall]
    exact (congrArg (fun k : Graph β ↦ (k.without (·.touches name)).invalidate) hj :)
  have hopen : j.isProtected = g.isProtected := (congrArg isProtected hj :)
  have hname : j.name = g.name := (congrArg Graph.name hj :)
  exact removeNode_eq_of_dropLinksOf hp (hopen.trans hp) (h.node?_dropLinksOf hm) hname hdrop stamp'

/-! ## What is left -/

/-- **What comes of taking the node `m` out of the graph `g`**: the node `o` is handed back, and the
graph `k` is left. -/
structure Departs (g : Graph β) (m o : Node β) (k : Graph β) : Prop where
  /-- The other links are left as they were, in their order. -/
  links : k.links = g.links.filter (!·.touches m.name)
  /-- So are the other nodes, but that their ports lost the links that went. -/
  slots : k.slots = (g.slots.filter (·.key ≠ m.name)).map
    (·.mapPorts fun side e p ↦ p.lose side (g.lost (·.touches m.name) side e))
  /-- For the rest the graph is the one of before, to be compiled and saved as after any change. -/
  settings : k = { g.invalidate with slots := k.slots, links := k.links }
  /-- A port counts as many links less as went from it. -/
  counts : ∀ side e p, g.port? side e = some p →
    (p.lose side (g.lost (·.touches m.name) side e)).linkCount + g.lost (·.touches m.name) side e =
      p.linkCount
  /-- It is the inputs that the node fed that lost a link, and with it what they held. -/
  fed : ∀ e : Endpoint, e.node ≠ m.name → (0 < g.lost (·.touches m.name) .input e ↔
    ∃ l ∈ g.links, l.source.node = m.name ∧ l.target = e)
  /-- No link touches the node any more. -/
  free : ∀ side, ∀ p ∈ o.panel.ports side, p.linkCount = 0
  /-- It is not initialised. -/
  idle : o.panel.isInitialized = false

theorem lost_le_degree (gone : Link → Bool) (g : Graph β) (side : Direction) (e : Endpoint) :
    g.lost gone side e ≤ g.degree side e :=
  List.filter_sublist.countP_le

/-- What a node loses of the links that enter another one are those that it fed. -/
theorem lost_touches_pos_iff {e : Endpoint} (he : e.node ≠ name) :
    0 < g.lost (·.touches name) .input e ↔
      ∃ l ∈ g.links, l.source.node = name ∧ l.target = e := by
  rw [lost, List.countP_pos_iff]
  constructor
  · rintro ⟨l, hl, hplace⟩
    obtain ⟨hl, htouches⟩ := List.mem_filter.mp hl
    obtain rfl : l.target = e := of_decide_eq_true hplace
    rw [Link.touches, Bool.or_eq_true, decide_eq_true_eq, decide_eq_true_eq] at htouches
    exact ⟨l, hl, htouches.resolve_right he, rfl⟩
  · rintro ⟨l, hl, hsource, rfl⟩
    refine ⟨l, List.mem_filter.mpr ⟨hl, ?_⟩, decide_eq_true rfl⟩
    rw [Link.touches, decide_eq_true hsource, Bool.true_or]

/-- **A node is taken out together with its links**, destroyed if it is initialised. -/
theorem WellLinked.departs (h : g.WellLinked) (hp : g.isProtected = false)
    (hlife : life.KeepsOutline) (hm : g.node? name = some m) (stamp : Nat) :
    ∃ o k, o = (life.release (g.unlinked m) stamp).result ∧
      (g.removeNode life name stamp).result = (.ok o, k) ∧ g.Departs m o k ∧
      (g.removeNode life name stamp).calls =
        if m.panel.isInitialized then [(name, .destroy, true)] else [] := by
  obtain rfl : m.name = name := (h.regular _ (mem_of_node? hm)).name_eq
  obtain ⟨hresult, hcalls⟩ := removeNode_of_node? life hp (h.node?_dropLinksOf hm) stamp
  have hok := congrArg Prod.fst hresult
  refine ⟨_, _, rfl, hresult, ?_, hcalls.trans (calls_releaseNode life (g.unlinked m) stamp)⟩
  refine ⟨links_dropLinksOf h.ids_nodup m.name, ?_, ?_, fun side e p hport ↦ ?_,
    fun e he ↦ lost_touches_pos_iff he, (h.isDetached_of_removeNode hlife hok).unlinked,
    Lifecycle.isInitialized_release life _ stamp⟩
  · rw [h.dropLinksOf_eq]
    exact List.filter_map
  · rw [h.dropLinksOf_eq]
    rfl
  · refine Nat.sub_add_cancel ?_
    rw [h.counted side e p hport]
    exact lost_le_degree _ g side e

/-- **Taking a node out is taking its links out, in any order, and then the node.**  Neither is refused
unless the graph is protected; the other links and nodes are left as they were, but for the links and the
values that went, and the node is handed back without links and destroyed. -/
theorem Reachable.departs_removeNode (h : g.Reachable) (hp : g.isProtected = false)
    (hlife : life.KeepsOutline) (hm : g.node? name = some m) (stamp : Nat) :
    (∃ o k, o = (life.release (g.unlinked m) stamp).result ∧
      (g.removeNode life name stamp).result = (.ok o, k) ∧ g.Departs m o k ∧
      (g.removeNode life name stamp).calls =
        if m.panel.isInitialized then [(name, .destroy, true)] else []) ∧
    ∀ ids : List LinkId, ids.Perm ((g.links.filter (·.touches name)).map Link.id) →
      ∃ ls j, g.Unlinks ids stamp ls j ∧
        j.removeNode life name stamp = g.removeNode life name stamp := by
  have hg := h.wellLinked
  refine ⟨hg.departs hp hlife hm stamp, fun ids hids ↦ ?_⟩
  have hnd : ids.Nodup :=
    hids.nodup_iff.mpr (hg.ids_nodup.sublist (List.filter_sublist.map Link.id))
  obtain ⟨ls, j, hunlinks, hremove⟩ :=
    hg.removeNode_of_unlinks hp hm hnd (fun id hid ↦ hids.subset hid) stamp
  exact ⟨ls, j, hunlinks, hremove life stamp⟩

theorem departs_removeNode_sampleBraided : sampleBraided.isProtected = false ∧
    ∃ m, sampleBraided.node? "b" = some m ∧ m.panel.isInitialized = true ∧
      (∃ o k, (sampleBraided.removeNode .idle "b" 4).result = (.ok o, k) ∧
        sampleBraided.Departs m o k ∧
        (sampleBraided.removeNode .idle "b" 4).calls = [("b", .destroy, true)] ∧
        k.links.map Link.id = [⟨2⟩]) ∧
      ∃ ls j, sampleBraided.Unlinks [⟨3⟩, ⟨1⟩] 4 ls j ∧
        j.removeNode .idle "b" 4 = sampleBraided.removeNode .idle "b" 4 := by
  obtain ⟨m, hm⟩ : ∃ m, sampleBraided.node? "b" = some m :=
    Option.isSome_iff_exists.mp (by decide +kernel)
  have hinit : (sampleBraided.node? "b").all (·.panel.isInitialized) = true := by decide +kernel
  rw [hm] at hinit
  have hp : sampleBraided.isProtected = false := by decide +kernel
  obtain ⟨⟨o, k, -, hresult, hdeparts, hcalls⟩, horder⟩ :=
    reachable_sampleBraided.departs_removeNode hp keepsOutline_idle hm 4
  obtain ⟨ls, j, hunlinks, hremove⟩ := horder [⟨3⟩, ⟨1⟩] (by decide +kernel)
  have hname : m.name = "b" :=
    (reachable_sampleBraided.wellLinked.regular _ (mem_of_node? hm)).name_eq
  refine ⟨hp, m, hm, hinit, ⟨o, k, hresult, hdeparts, hcalls.trans (if_pos hinit), ?_⟩, ls, j, hunlinks,
    hremove⟩
  rw [hdeparts.links, hname]
  decide +kernel

end Graph
end PortGraph
