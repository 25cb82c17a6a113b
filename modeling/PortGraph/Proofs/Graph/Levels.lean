import Mathlib.Order.Bounds.Basic
import PortGraph.Proofs.Graph.Compiled
import PortGraph.Proofs.Graph.Consistent

/-!
# The levels of a compiled graph

The depth of a node is found in one sweep over the schedule, and counts the links of the longest chain
that ends at the node (`WellLinked.isGreatest_depth`).  Two things are needed for that: the depth of a
node that is pulled from was noted before (`depthOf_depths`), and a node is one link deeper than the
deepest node that feeds it (`WellLinked.depth_eq`).

`Graph.levels` groups the nodes of the order by depth (`WellLinked.levels_eq`).  `Graph.Layered` says
what is to be expected of levels, and `Reachable.layered_levels` that those of a graph that is ready
have it.
-/

set_option autoImplicit false

namespace PortGraph
namespace Graph

variable {β : Type} {g : Graph β}

/-! ## Depths along a schedule -/

/-- The greatest of some naturals is one of them, unless it is the one to start with. -/
theorem foldl_max_spec (ns : List Nat) :
    ns.foldl max 0 ∈ 0 :: ns ∧ ∀ n ∈ ns, n ≤ ns.foldl max 0 := by
  have hmax : (0 :: ns).max? = some (ns.foldl max 0) := List.max?_cons'
  obtain ⟨hmem, hle⟩ := List.max?_eq_some_iff.mp hmax
  exact ⟨hmem, fun n hn ↦ hle n (List.mem_cons_of_mem 0 hn)⟩

theorem depths_concat (schedule : List Step) (t : Step) :
    depths (schedule ++ [t]) = depths schedule ++
      [(t.node, (t.pulls.map fun p ↦ depthOf (depths schedule) p.source + 1).foldl max 0)] :=
  List.foldl_concat ..

theorem map_fst_depths (schedule : List Step) :
    (depths schedule).map Prod.fst = schedule.map Step.node := by
  induction schedule using List.reverseRecOn with
  | nil => rfl
  | append_singleton schedule t ih => rw [depths_concat, List.map_append, List.map_append, ih]; rfl

/-- What was noted of a node is found again. -/
theorem depthOf_of_mem {known : List (Nat × Nat)} (hnd : (known.map Prod.fst).Nodup)
    {e : Nat × Nat} (he : e ∈ known) : depthOf known e.1 = e.2 := by
  obtain ⟨before, after, rfl⟩ := List.append_of_mem he
  rw [List.map_append, List.map_cons, List.nodup_middle, List.nodup_cons] at hnd
  have hfound : (before ++ e :: after).lookup e.1 = some e.2 := by
    refine List.lookup_eq_some_iff.mpr ⟨before, after, rfl, fun d hd ↦ bne_iff_ne.mpr fun heq ↦ ?_⟩
    exact hnd.1 (List.mem_append_left _ (heq ▸ List.mem_map_of_mem hd))
  rw [depthOf, hfound, Option.getD_some]

/-- What is noted later of other nodes does not count. -/
theorem depthOf_append {known later : List (Nat × Nat)}
    (hnd : ((known ++ later).map Prod.fst).Nodup) {node : Nat} (h : node ∈ known.map Prod.fst) :
    depthOf (known ++ later) node = depthOf known node := by
  obtain ⟨e, he, rfl⟩ := List.mem_map.mp h
  rw [depthOf_of_mem hnd (List.mem_append_left _ he),
    depthOf_of_mem (List.map_append ▸ hnd).of_append_left he]

/-- **The depth of a node was noted when it is asked for**, if every node is pulled from after its own
turn: a node is one deeper than the deepest node it pulls from. -/
theorem depthOf_depths {schedule : List Step} (hnd : (schedule.map Step.node).Nodup)
    (hbefore : ∀ before t after, schedule = before ++ t :: after →
      ∀ p ∈ t.pulls, p.source ∈ before.map Step.node) :
    ∀ t ∈ schedule, depthOf (depths schedule) t.node =
      (t.pulls.map fun p ↦ depthOf (depths schedule) p.source + 1).foldl max 0 := by
  induction schedule using List.reverseRecOn with
  | nil => simp
  | append_singleton schedule last ih =>
    have hnoted : ((depths (schedule ++ [last])).map Prod.fst).Nodup := map_fst_depths _ ▸ hnd
    have hkeep : ∀ node ∈ schedule.map Step.node,
        depthOf (depths (schedule ++ [last])) node = depthOf (depths schedule) node := by
      intro node hnode
      rw [depths_concat] at hnoted ⊢
      exact depthOf_append hnoted (map_fst_depths schedule ▸ hnode)
    -- the sources of a turn stand before it, where a later turn changes nothing
    have hsources : ∀ t : Step, (∀ p ∈ t.pulls, p.source ∈ schedule.map Step.node) →
        (t.pulls.map fun p ↦ depthOf (depths (schedule ++ [last])) p.source + 1) =
          t.pulls.map fun p ↦ depthOf (depths schedule) p.source + 1 := fun t hpulls ↦
      List.map_congr_left fun p hp ↦ by rw [hkeep _ (hpulls p hp)]
    intro t ht
    rcases List.mem_append.mp ht with ht | ht
    · have hearlier : ∀ before u after, schedule = before ++ u :: after →
          ∀ p ∈ u.pulls, p.source ∈ before.map Step.node := fun before u after hsplit ↦
        hbefore before u (after ++ [last]) (by rw [hsplit, List.append_assoc, List.cons_append])
      obtain ⟨before, after, hsplit⟩ := List.append_of_mem ht
      rw [hkeep _ (List.mem_map_of_mem ht), hsources t fun p hp ↦ ?_]
      · exact ih (List.map_append ▸ hnd).of_append_left hearlier t ht
      · rw [hsplit, List.map_append]
        exact List.mem_append_left _ (hearlier before t after hsplit p hp)
    · obtain rfl := List.mem_singleton.mp ht
      rw [hsources t (hbefore schedule t [] rfl)]
      have hlast : (t.node, (t.pulls.map fun p ↦ depthOf (depths schedule) p.source + 1).foldl max 0) ∈
          depths (schedule ++ [t]) := by
        rw [depths_concat]
        exact List.mem_append_right _ (List.mem_singleton_self _)
      exact depthOf_of_mem hnoted hlast

/-! ## Depths of nodes -/

/-- The depth that was noted for a node. -/
def depth (g : Graph β) (name : String) : Nat := depthOf (depths g.schedule) (g.rank name)

/-- Every node has its turn. -/
theorem WellLinked.exists_step (h : g.WellLinked) (hp : g.plan = .ok g.schedule) {name : String}
    (hname : name ∈ g.nodeNames) : ∃ t ∈ g.schedule, t.node = g.rank name := by
  have hmem : g.rank name ∈ g.schedule.map Step.node :=
    (h.map_node_of_plan hp).2.symm.subset (List.mem_range.mpr (rank_lt hname))
  exact List.mem_map.mp hmem

/-- A pull leads back to the node at which its link starts. -/
theorem Draws.rank_source (hnd : g.nodeNames.Nodup) {node : Nat} {p : Pull} {l : Link}
    (h : g.Draws node p l) : g.rank l.source.node = p.source := by
  obtain ⟨s, hs, hsource⟩ := Option.bind_eq_some_iff.mp h.1
  obtain ⟨q, -, hq⟩ := Option.map_eq_some_iff.mp hsource
  exact rank_eq_of_getElem? hnd ((getElem?_nodeNames hs).trans (by rw [← hq]))

/-- A turn pulls from the nodes at which the links into its node start. -/
theorem WellLinked.map_source (h : g.WellLinked) (hp : g.plan = .ok g.schedule) {t : Step}
    (ht : t ∈ g.schedule) {name : String} (hname : g.nodeNames[t.node]? = some name) :
    t.pulls.map Pull.source =
      (g.links.filter fun l ↦ l.target.node = name).map fun l ↦ g.rank l.source.node := by
  have hfilter : g.links.filter (fun l ↦ g.nodeNames[t.node]? = some l.target.node) =
      g.links.filter fun l ↦ l.target.node = name := by
    refine List.filter_congr fun l _ ↦ ?_
    rw [hname, decide_eq_decide, Option.some.injEq, eq_comm]
  have hdraws := hfilter ▸ h.forall₂_draws hp ht
  rw [← List.forall₂_eq_eq_eq, List.forall₂_map_left_iff, List.forall₂_map_right_iff]
  exact hdraws.imp fun _ _ hpl ↦ (hpl.rank_source h.keys_nodup).symm

/-- **A node is one link deeper than the deepest node that feeds it.** -/
theorem WellLinked.depth_eq (h : g.WellLinked) (hp : g.plan = .ok g.schedule) {name : String}
    (hname : name ∈ g.nodeNames) :
    g.depth name = ((g.links.filter fun l ↦ l.target.node = name).map fun l ↦
      g.depth l.source.node + 1).foldl max 0 := by
  obtain ⟨t, ht, hnode⟩ := h.exists_step hp hname
  have hat : g.nodeNames[t.node]? = some name := hnode ▸ getElem?_rank hname
  have hnd : (g.schedule.map Step.node).Nodup :=
    (h.map_node_of_plan hp).2.nodup_iff.mpr List.nodup_range
  have hrec := depthOf_depths hnd (fun before u after hsplit p hpull ↦ ?_) t ht
  · have hsources := congrArg (List.map fun i ↦ depthOf (depths g.schedule) i + 1)
      (h.map_source hp ht hat)
    rw [List.map_map, List.map_map] at hsources
    rw [depth, ← hnode, hrec]
    exact congrArg (List.foldl max 0) hsources
  · -- the pull stands for a link, whose source had its turn before
    have hu : u ∈ g.schedule := hsplit ▸ List.mem_append_right _ List.mem_cons_self
    obtain ⟨l, hl, hdraws⟩ := (h.fits hp u hu).2 p hpull
    obtain ⟨w, hw, hsource⟩ := h.source_before hp hsplit hl hdraws.nodeNames_eq
    rw [← hdraws.rank_source h.keys_nodup, rank_eq_of_getElem? h.keys_nodup hsource]
    exact List.mem_map_of_mem hw

/-- Every link leads to a deeper node. -/
theorem WellLinked.depth_lt (h : g.WellLinked) (hp : g.plan = .ok g.schedule) {l : Link}
    (hl : l ∈ g.links) : g.depth l.source.node < g.depth l.target.node := by
  have htarget : l.target.node ∈ g.nodeNames := h.node_mem hl .input
  rw [h.depth_eq hp htarget]
  refine (foldl_max_spec _).2 _ (List.mem_map.mpr ⟨l, ?_, rfl⟩)
  exact List.mem_filter.mpr ⟨hl, decide_eq_true rfl⟩

/-- A node that is not at the top is fed by one that is just above it. -/
theorem WellLinked.exists_depth_eq (h : g.WellLinked) (hp : g.plan = .ok g.schedule) {name : String}
    (hname : name ∈ g.nodeNames) {n : Nat} (hn : g.depth name = n + 1) :
    ∃ l ∈ g.links, l.target.node = name ∧ g.depth l.source.node = n := by
  have hdepth := h.depth_eq hp hname
  have hmem := (foldl_max_spec ((g.links.filter fun l ↦ l.target.node = name).map fun l ↦
    g.depth l.source.node + 1)).1
  rw [← hdepth, hn] at hmem
  rcases List.mem_cons.mp hmem with hzero | hmem
  · exact absurd hzero (by omega)
  · obtain ⟨l, hl, heq⟩ := List.mem_map.mp hmem
    obtain ⟨hl, htarget⟩ := List.mem_filter.mp hl
    exact ⟨l, hl, of_decide_eq_true htarget, Nat.succ.inj heq⟩

/-- Nodes are found at every depth above one of them. -/
theorem WellLinked.exists_depth_of_le (h : g.WellLinked) (hp : g.plan = .ok g.schedule) {name : String}
    (hname : name ∈ g.nodeNames) {n : Nat} (hn : n ≤ g.depth name) :
    ∃ v ∈ g.nodeNames, g.depth v = n := by
  induction hd : g.depth name generalizing name with
  | zero => exact ⟨name, hname, by omega⟩
  | succ d ih =>
    by_cases heq : n = d + 1
    · exact ⟨name, hname, hd.trans heq.symm⟩
    · obtain ⟨l, hl, rfl, hsource⟩ := h.exists_depth_eq hp hname hd
      have hmem : l.source.node ∈ g.nodeNames := h.node_mem hl .output
      exact ih hmem (by omega) hsource

/-! ## Chains of links -/

/-- Links one after the other, each of which starts at the node where the one before it ends, and the
node where the last one ends. -/
inductive Chain (g : Graph β) : List Link → String → Prop
  /-- There is no link yet. -/
  | start {name : String} (h : name ∈ g.nodeNames) : Chain g [] name
  /-- A link leads on. -/
  | extend {ls : List Link} {l : Link} (h : Chain g ls l.source.node) (hl : l ∈ g.links) :
      Chain g (ls ++ [l]) l.target.node

/-- A node is as deep as a chain that ends at it is long. -/
def IsDepth (g : Graph β) (name : String) (n : Nat) : Prop :=
  IsGreatest {k | ∃ ls, g.Chain ls name ∧ ls.length = k} n

theorem Chain.length_le_depth {ls : List Link} {name : String} (hc : g.Chain ls name)
    (h : g.WellLinked) (hp : g.plan = .ok g.schedule) : ls.length ≤ g.depth name := by
  induction hc with
  | start _ => exact Nat.zero_le _
  | @extend ls l _ hl ih =>
    rw [List.length_append, List.length_singleton]
    exact Nat.lt_of_le_of_lt ih (h.depth_lt hp hl)

theorem WellLinked.exists_chain (h : g.WellLinked) (hp : g.plan = .ok g.schedule) {name : String}
    (hname : name ∈ g.nodeNames) : ∃ ls, g.Chain ls name ∧ ls.length = g.depth name := by
  induction hn : g.depth name generalizing name with
  | zero => exact ⟨[], .start hname, rfl⟩
  | succ n ih =>
    obtain ⟨l, hl, rfl, hdepth⟩ := h.exists_depth_eq hp hname hn
    obtain ⟨ls, hc, hlen⟩ := ih (h.node_mem hl .output) hdepth
    exact ⟨ls ++ [l], hc.extend hl, by rw [List.length_append, hlen]; rfl⟩

/-- **The depth of a node is the length of the longest chain that ends at it.** -/
theorem WellLinked.isGreatest_depth (h : g.WellLinked) (hp : g.plan = .ok g.schedule) {name : String}
    (hname : name ∈ g.nodeNames) : g.IsDepth name (g.depth name) := by
  refine ⟨h.exists_chain hp hname, ?_⟩
  rintro _ ⟨ls, hc, rfl⟩
  exact hc.length_le_depth h hp

/-- At a node that nothing feeds every chain is empty. -/
theorem isDepth_zero {name : String} (hname : name ∈ g.nodeNames)
    (hno : ∀ l ∈ g.links, l.target.node ≠ name) : g.IsDepth name 0 := by
  refine ⟨⟨[], .start hname, rfl⟩, ?_⟩
  rintro _ ⟨ls, hc, rfl⟩
  cases hc with
  | start _ => exact Nat.le_refl 0
  | extend _ hl => exact absurd rfl (hno _ hl)

/-! ## Levels -/

/-- A node stands on a level. -/
def StandsAt (levels : List (List String)) (name : String) (i : Nat) : Prop :=
  ∃ level, levels[i]? = some level ∧ name ∈ level

theorem mem_flatten_iff {levels : List (List String)} {v : String} :
    v ∈ levels.flatten ↔ ∃ i, StandsAt levels v i := by
  rw [List.mem_flatten]
  constructor
  · rintro ⟨level, hlevel, hv⟩
    obtain ⟨i, hi⟩ := List.mem_iff_getElem?.mp hlevel
    exact ⟨i, level, hi, hv⟩
  · rintro ⟨i, level, hlevel, hv⟩
    exact ⟨level, List.mem_of_getElem? hlevel, hv⟩

/-- What stands on an earlier level stands earlier in the whole. -/
theorem idxOf_flatten_lt {levels : List (List String)} (hnd : levels.flatten.Nodup) {u v : String}
    {i j : Nat} (hu : StandsAt levels u i) (hv : StandsAt levels v j) (hij : i < j) :
    levels.flatten.idxOf u < levels.flatten.idxOf v := by
  obtain ⟨level, hlevel, hu⟩ := hu
  obtain ⟨level', hlevel', hv⟩ := hv
  have hsplit : levels.flatten = (levels.take j).flatten ++ (levels.drop j).flatten := by
    rw [← List.flatten_append, List.take_append_drop]
  have hbefore : u ∈ (levels.take j).flatten :=
    List.mem_flatten.mpr ⟨level, List.mem_of_getElem? ((List.getElem?_take_of_lt hij).trans hlevel), hu⟩
  have hafter : v ∈ (levels.drop j).flatten := by
    refine List.mem_flatten.mpr ⟨level', List.mem_of_getElem? (i := 0) ?_, hv⟩
    rw [List.getElem?_drop, Nat.add_zero]
    exact hlevel'
  have hnew : v ∉ (levels.take j).flatten := fun hm ↦
    (List.nodup_append.mp (hsplit ▸ hnd)).2.2 v hm v hafter rfl
  rw [hsplit, List.idxOf_append_of_mem hbefore, List.idxOf_append_of_notMem hnew]
  exact Nat.lt_of_lt_of_le (List.idxOf_lt_length_of_mem hbefore) (Nat.le_add_right _ _)

/-- Names in groups, one for each natural below a bound. -/
def grouped (names : List String) (d : String → Nat) (height : Nat) : List (List String) :=
  (List.range height).map fun n ↦ names.filter fun v ↦ d v = n

section Grouped

variable {names : List String} {d : String → Nat} {height : Nat}

theorem getElem?_grouped {i : Nat} {level : List String} :
    (grouped names d height)[i]? = some level ↔
      i < height ∧ level = names.filter fun v ↦ d v = i := by
  rw [grouped, List.getElem?_map]
  by_cases hi : i < height
  · simp [hi, eq_comm]
  · simp [hi]

theorem standsAt_grouped {v : String} {i : Nat} :
    StandsAt (grouped names d height) v i ↔ i < height ∧ v ∈ names ∧ d v = i := by
  rw [StandsAt]
  constructor
  · rintro ⟨level, hlevel, hv⟩
    obtain ⟨hi, rfl⟩ := getElem?_grouped.mp hlevel
    exact ⟨hi, (List.mem_filter.mp hv).1, of_decide_eq_true (List.mem_filter.mp hv).2⟩
  · rintro ⟨hi, hv, hd⟩
    exact ⟨_, getElem?_grouped.mpr ⟨hi, rfl⟩, List.mem_filter.mpr ⟨hv, decide_eq_true hd⟩⟩

theorem nodup_flatten_grouped (hnd : names.Nodup) : (grouped names d height).flatten.Nodup := by
  rw [List.nodup_flatten, grouped]
  refine ⟨fun level hlevel ↦ ?_, ?_⟩
  · obtain ⟨n, -, rfl⟩ := List.mem_map.mp hlevel
    exact hnd.filter _
  · refine List.pairwise_map.mpr (List.nodup_range.imp fun hne v hv hv' ↦ hne ?_)
    rw [List.mem_filter, decide_eq_true_eq] at hv hv'
    exact hv.2.symm.trans hv'.2

end Grouped

/-- The nodes at some positions of a depth are the nodes of this depth at the positions. -/
theorem WellLinked.namesAt_filter_depth (h : g.WellLinked) (positions : List Nat) (n : Nat) :
    g.namesAt (positions.filter fun i ↦ depthOf (depths g.schedule) i = n) =
      (g.namesAt positions).filter fun v ↦ g.depth v = n := by
  rw [namesAt_eq, namesAt_eq, List.filterMap_filter, List.filter_filterMap]
  refine List.filterMap_congr fun i _ ↦ ?_
  cases hname : g.nodeNames[i]? with
  | none => simp
  | some v =>
    rw [Option.filter_some, depth, rank_eq_of_getElem? h.keys_nodup hname]

/-- The depths are noted under distinct positions. -/
theorem WellLinked.nodup_depths (h : g.WellLinked) (hp : g.plan = .ok g.schedule) :
    ((depths g.schedule).map Prod.fst).Nodup :=
  map_fst_depths _ ▸ (h.map_node_of_plan hp).2.nodup_iff.mpr List.nodup_range

/-- What was noted is the depth of a node. -/
theorem WellLinked.exists_of_mem_depths (h : g.WellLinked) (hp : g.plan = .ok g.schedule)
    {d : Nat × Nat} (hd : d ∈ depths g.schedule) : ∃ v ∈ g.nodeNames, g.depth v = d.2 := by
  have hfst : d.1 ∈ g.schedule.map Step.node :=
    map_fst_depths g.schedule ▸ List.mem_map_of_mem hd
  have hlt : d.1 < g.nodeNames.length := by
    rw [nodeNames, List.length_map]
    exact List.mem_range.mp ((h.map_node_of_plan hp).2.subset hfst)
  refine ⟨g.nodeNames[d.1], List.getElem_mem hlt, ?_⟩
  rw [depth, rank_eq_of_getElem? h.keys_nodup (List.getElem?_eq_getElem hlt),
    depthOf_of_mem (h.nodup_depths hp) hd]

theorem WellLinked.mem_depths (h : g.WellLinked) (hp : g.plan = .ok g.schedule) {v : String}
    (hv : v ∈ g.nodeNames) : (g.rank v, g.depth v) ∈ depths g.schedule := by
  obtain ⟨t, ht, hnode⟩ := h.exists_step hp hv
  have hmem : g.rank v ∈ (depths g.schedule).map Prod.fst :=
    map_fst_depths g.schedule ▸ hnode ▸ List.mem_map_of_mem ht
  obtain ⟨d, hd, hfst⟩ := List.mem_map.mp hmem
  rw [depth, ← hfst, depthOf_of_mem (h.nodup_depths hp) hd]
  exact hd

/-- The levels of a graph that keeps to its plan are the nodes of the order by depth, as far down as
there are nodes. -/
theorem WellLinked.levels_eq (h : g.WellLinked) (hp : g.plan = .ok g.schedule) :
    ∃ height, (∀ n, n < height ↔ ∃ v ∈ g.nodeNames, n ≤ g.depth v) ∧
      g.levels = grouped g.order g.depth height := by
  obtain ⟨hreached, hbound⟩ := foldl_max_spec ((depths g.schedule).map fun d ↦ d.2 + 1)
  refine ⟨((depths g.schedule).map fun d ↦ d.2 + 1).foldl max 0, fun n ↦ ⟨fun hn ↦ ?_, ?_⟩, ?_⟩
  · rcases List.mem_cons.mp hreached with hzero | hmem
    · omega
    · obtain ⟨d, hd, heq⟩ := List.mem_map.mp hmem
      obtain ⟨v, hv, hdepth⟩ := h.exists_of_mem_depths hp hd
      exact ⟨v, hv, by omega⟩
  · rintro ⟨v, hv, hle⟩
    have hnoted := hbound _ (List.mem_map_of_mem (h.mem_depths hp hv))
    exact Nat.lt_of_succ_le (Nat.le_trans (Nat.succ_le_succ hle) hnoted)
  · rw [levels]
    refine List.map_congr_left fun n _ ↦ ?_
    have hfilter : (depths g.schedule).filter (fun d ↦ d.2 = n) =
        (depths g.schedule).filter fun d ↦ depthOf (depths g.schedule) d.1 = n :=
      List.filter_congr fun d hd ↦ by rw [depthOf_of_mem (h.nodup_depths hp) hd]
    rw [hfilter, order, ← h.namesAt_filter_depth, ← map_fst_depths, List.filter_map]
    rfl

/-- A node stands on the level of its depth. -/
theorem WellLinked.standsAt_levels_iff (h : g.WellLinked) (hp : g.plan = .ok g.schedule) {v : String}
    {i : Nat} : StandsAt g.levels v i ↔ v ∈ g.nodeNames ∧ g.depth v = i := by
  obtain ⟨height, hheight, hlevels⟩ := h.levels_eq hp
  rw [hlevels, standsAt_grouped, (h.isOrder_order hp).1.mem_iff]
  exact ⟨fun ⟨_, hv, hd⟩ ↦ ⟨hv, hd⟩, fun ⟨hv, hd⟩ ↦ ⟨(hheight i).mpr ⟨v, hv, hd.ge⟩, hv, hd⟩⟩

/-- Level by level there is every node once. -/
theorem WellLinked.perm_flatten_levels (h : g.WellLinked) (hp : g.plan = .ok g.schedule) :
    g.levels.flatten.Perm g.nodeNames := by
  have hnd : g.levels.flatten.Nodup := by
    obtain ⟨height, -, hlevels⟩ := h.levels_eq hp
    rw [hlevels]
    exact nodup_flatten_grouped ((h.isOrder_order hp).1.nodup_iff.mpr h.keys_nodup)
  refine (List.perm_ext_iff_of_nodup hnd h.keys_nodup).mpr fun v ↦ ?_
  rw [mem_flatten_iff]
  exact ⟨fun ⟨_, hi⟩ ↦ ((h.standsAt_levels_iff hp).mp hi).1,
    fun hv ↦ ⟨_, (h.standsAt_levels_iff hp).mpr ⟨hv, rfl⟩⟩⟩

/-- The levels end where there are no deeper nodes. -/
theorem WellLinked.nil_notMem_levels (h : g.WellLinked) (hp : g.plan = .ok g.schedule) :
    [] ∉ g.levels := by
  intro hempty
  obtain ⟨height, hheight, hlevels⟩ := h.levels_eq hp
  obtain ⟨n, hn⟩ := List.mem_iff_getElem?.mp hempty
  obtain ⟨hlt, -⟩ := getElem?_grouped.mp (hlevels ▸ hn)
  -- there is a node at every depth down to the last level
  obtain ⟨u, hu, hle⟩ := (hheight n).mp hlt
  obtain ⟨v, hv, hd⟩ := h.exists_depth_of_le hp hu hle
  obtain ⟨level, hlevel, hmem⟩ := (h.standsAt_levels_iff hp).mpr ⟨hv, hd⟩
  obtain rfl : [] = level := Option.some.inj (hn.symm.trans hlevel)
  exact List.not_mem_nil hmem

/-- **Levels that are as deep as the chains of links are long.** -/
structure Layered (g : Graph β) (levels : List (List String)) : Prop where
  /-- Every node stands there once. -/
  once : levels.flatten.Nodup ∧ ∀ v, v ∈ levels.flatten ↔ v ∈ g.nodeNames
  /-- A node stands on the level that is the length of the longest chain that ends at it. -/
  deep : ∀ v ∈ g.nodeNames, ∀ i, StandsAt levels v i ↔ g.IsDepth v i
  /-- A node that nothing feeds stands on the first level. -/
  first : ∀ v ∈ g.nodeNames, (∀ l ∈ g.links, l.target.node ≠ v) → StandsAt levels v 0
  /-- Every link leads from a level to a later one. -/
  forward : ∀ l ∈ g.links, ∃ i j, StandsAt levels l.source.node i ∧
    StandsAt levels l.target.node j ∧ i < j
  /-- No level is empty. -/
  inhabited : [] ∉ levels
  /-- The nodes of a level stand in the order in which they run. -/
  ordered : ∀ level ∈ levels, level.Sublist g.order
  /-- Level by level the nodes are in an order, too. -/
  flat : levels.flatten.Perm g.order ∧ g.IsOrder levels.flatten

/-- **The levels of a graph that is ready are as deep as its chains of links are long.** -/
theorem Reachable.layered_levels (h : g.Reachable) (hr : g.isReady = true) : g.Layered g.levels := by
  have hg := h.wellLinked
  have hp := h.cached.plan hr
  have hall := hg.perm_flatten_levels hp
  have hnd : g.levels.flatten.Nodup := hall.nodup_iff.mpr hg.keys_nodup
  have hdeep : ∀ v ∈ g.nodeNames, ∀ i, StandsAt g.levels v i ↔ g.IsDepth v i := by
    intro v hv i
    rw [hg.standsAt_levels_iff hp]
    exact ⟨fun ⟨_, hd⟩ ↦ hd ▸ hg.isGreatest_depth hp hv,
      fun hd ↦ ⟨hv, (hg.isGreatest_depth hp hv).unique hd⟩⟩
  have hlink : ∀ l ∈ g.links, ∃ i j, StandsAt g.levels l.source.node i ∧
      StandsAt g.levels l.target.node j ∧ i < j := fun l hl ↦
    ⟨_, _, (hg.standsAt_levels_iff hp).mpr ⟨hg.node_mem hl .output, rfl⟩,
      (hg.standsAt_levels_iff hp).mpr ⟨hg.node_mem hl .input, rfl⟩, hg.depth_lt hp hl⟩
  refine ⟨⟨hnd, fun v ↦ hall.mem_iff⟩, hdeep,
    fun v hv hno ↦ (hdeep v hv 0).mpr (isDepth_zero hv hno), hlink, hg.nil_notMem_levels hp,
    fun level hlevel ↦ ?_, hall.trans (hg.isOrder_order hp).1.symm, hall, fun u v hf ↦ ?_⟩
  · obtain ⟨height, -, hlevels⟩ := hg.levels_eq hp
    rw [hlevels] at hlevel
    obtain ⟨n, -, rfl⟩ := List.mem_map.mp hlevel
    exact List.filter_sublist
  · obtain ⟨l, hl, rfl, rfl⟩ := hf
    obtain ⟨i, j, hi, hj, hij⟩ := hlink l hl
    exact idxOf_flatten_lt hnd hi hj hij

/-! ## A node that is fed from two levels -/

/-- A node that does nothing, with the inputs `left` and `right` and an output `out`. -/
def sampleJoin (name : String) : Node Unit where
  panel :=
    { name
      typeName := "Join"
      inputs := [{ name := "left", direction := .input, dataType := ⟨"int"⟩ },
        { name := "right", direction := .input, dataType := ⟨"int"⟩ }]
      outputs := [{ name := "out", direction := .output, dataType := ⟨"int"⟩ }] }
  behaviour := ()

theorem isDetached_sampleJoin (name : String) : (sampleJoin name).panel.IsDetached where
  ports_nodup side := by cases side <;> simp [sampleJoin, Panel.ports]
  unlinked side := by cases side <;> simp [sampleJoin, Panel.ports]

/-- The graph of a node that feeds another one, and of a third that both of them feed. -/
def sampleBraid : Graph Unit :=
  let three := ((Request.addNode (sampleJoin "c")).perform .idle makeNone sample 0).result
  let left := ((Request.addLink ⟨"a", "out"⟩ ⟨"c", "left"⟩).perform .idle makeNone three 1).result
  ((Request.addLink ⟨"b", "out"⟩ ⟨"c", "right"⟩).perform .idle makeNone left 2).result

theorem reachable_sampleBraid : sampleBraid.Reachable := by
  have hthree : ((Request.addNode (sampleJoin "c")).perform .idle makeNone sample 0).result.Reachable :=
    reachable_sample.step _ keepsOutline_idle (fun n hn ↦ hn ▸ isDetached_sampleJoin "c")
      fun _ _ hr ↦ absurd hr (by simp)
  refine .step _ (.step _ hthree keepsOutline_idle (fun _ hn ↦ hn.elim) fun _ _ _ ↦ ?_)
    keepsOutline_idle (fun _ hn ↦ hn.elim) fun _ _ _ ↦ ?_
  · decide +kernel
  · decide +kernel

/-- That graph, compiled. -/
def sampleBraided : Graph Unit := (Request.compile.perform .idle makeNone sampleBraid 3).result

theorem reachable_sampleBraided : sampleBraided.Reachable :=
  reachable_sampleBraid.step _ keepsOutline_idle (fun _ hn ↦ hn.elim) fun _ _ hr ↦ absurd hr (by simp)

theorem layered_levels_sampleBraided : sampleBraided.isReady = true ∧
    sampleBraided.Layered sampleBraided.levels ∧
    sampleBraided.levels = [["a"], ["b"], ["c"]] := by
  have hready : sampleBraided.isReady = true := by decide +kernel
  exact ⟨hready, reachable_sampleBraided.layered_levels hready, by decide +kernel⟩

end Graph
end PortGraph
