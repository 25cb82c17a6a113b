import PortGraph.Proofs.Net.Flat

/-!
# Nets put together in another order

The same nodes and links may be added to a net in any order, and the order in which they were added
decides which of the possible schedules a net gets.  `Net.Reorders` says of two nets that they differ
in no more than this order.  Then they compile or fail to compile together, as neither the cycles of
links nor the inputs that nothing supplies depend on it; and they execute or fail to execute together,
and every node comes out in the one as in the other (`Net.Reachable.reordered_runs`).

Two schedules are not compared turn by turn.  What a node was handed over with in the one net it is
handed over with in the other as soon as the nodes that its links come from came out alike, and these
have their turns before it in either schedule: so the one net has been rehearsed in the other
(`Net.Reorders.rehearsed`).
-/

set_option autoImplicit false

namespace PortGraph

open PortGraph.Graph

theorem Node.IsCopy.symm {m n : Node Behaviour} (h : m.IsCopy n) : n.IsCopy m :=
  ⟨fun side ↦ (h.ports side).symm, h.behaviour.symm⟩

namespace Net

/-- **The second net is the first one put together in another order**: it has the same nodes, made
and exposed alike, the same links under whatever ids, and the same values on the inputs without
links. -/
structure Reorders (g k : Net) : Prop where
  /-- There are the same names. -/
  names : k.nodeNames.Perm g.nodeNames
  /-- Nodes of one name are made alike. -/
  nodes : ∀ name n, g.node? name = some n → ∃ m, k.node? name = some m ∧ m.IsCopy n
  /-- The links join the same ports. -/
  links : (k.links.map Link.ends).Perm (g.links.map Link.ends)
  /-- The same inputs are exposed. -/
  exposed : ∀ e p q, g.port? .input e = some p → k.port? .input e = some q → q.isExposed = p.isExposed
  /-- Inputs without links hold the same values. -/
  values : ∀ e p q, g.port? .input e = some p → k.port? .input e = some q → p.isLinked = false →
    q.stored.map Packet.value = p.stored.map Packet.value

namespace Reorders

variable {g k g' k' : Net}

/-- The nodes of the one net are found in the other. -/
theorem exists_slot (h : Reorders g k) (hg : g.WellLinked) (hk : k.WellLinked) {s : Slot Behaviour}
    (hs : s ∈ k.slots) : ∃ r ∈ g.slots, r.key = s.key ∧ s.node.IsCopy r.node := by
  obtain ⟨r, hr, hkey⟩ := List.mem_map.mp (h.names.subset (List.mem_map_of_mem hs))
  obtain ⟨m, hm, hcopy⟩ := h.nodes r.key r.node (hg.node?_of_mem hr)
  rw [hkey, hk.node?_of_mem hs, Option.some.injEq] at hm
  exact ⟨r, hr, hkey, hm ▸ hcopy⟩

/-- So are the inputs. -/
theorem exists_input (h : Reorders g k) (hg : g.WellLinked) (hk : k.WellLinked) {e : Endpoint}
    {q : Port} (hq : k.port? .input e = some q) :
    ∃ p, g.port? .input e = some p ∧ p.declared = q.declared := by
  obtain ⟨s, hs, hmem, rfl⟩ := hk.exists_slot hq
  obtain ⟨r, hr, hkey, hcopy⟩ := h.exists_slot hg hk hs
  obtain ⟨p, hp, heq⟩ := hcopy.exists_declared hmem
  have hname : p.name = q.name := congrArg (·.name) heq
  exact ⟨p, hkey ▸ hname ▸ hg.port?_of_mem hr hp, heq⟩

theorem mem_ends_iff (h : Reorders g k) (ends : Endpoint × Endpoint) :
    ends ∈ k.links.map (fun l ↦ (l.source, l.target)) ↔
      ends ∈ g.links.map fun l ↦ (l.source, l.target) :=
  h.links.mem_iff

/-- A link ends at the same inputs. -/
theorem isLinked_eq (h : Reorders g k) (hg : g.WellLinked) (hk : k.WellLinked) {e : Endpoint}
    {p q : Port} (hp : g.port? .input e = some p) (hq : k.port? .input e = some q) :
    q.isLinked = p.isLinked := by
  have hends : ∀ {i j : Net}, (∀ ends, ends ∈ i.links.map (fun l ↦ (l.source, l.target)) →
      ends ∈ j.links.map fun l ↦ (l.source, l.target)) → (∃ l ∈ i.links, l.place .input = e) →
      ∃ l ∈ j.links, l.place .input = e := by
    rintro i j hij ⟨l, hl, rfl⟩
    obtain ⟨l', hl', heq⟩ := List.mem_map.mp (hij _ (List.mem_map_of_mem hl))
    exact ⟨l', hl', (Prod.mk.inj heq).2⟩
  rw [Bool.eq_iff_iff, hk.isLinked_iff hq, hg.isLinked_iff hp]
  exact ⟨hends fun ends ↦ (h.mem_ends_iff ends).mp, hends fun ends ↦ (h.mem_ends_iff ends).mpr⟩

/-- **It does not matter which of the nets comes first.** -/
theorem symm (h : Reorders g k) (hg : g.WellLinked) (hk : k.WellLinked) : Reorders k g where
  names := h.names.symm
  nodes name m hm := by
    obtain ⟨r, hr, hkey, hcopy⟩ := h.exists_slot hg hk (mem_of_node? hm)
    have hname : r.key = name := hkey
    exact ⟨r.node, hname ▸ hg.node?_of_mem hr, hcopy.symm⟩
  links := h.links.symm
  exposed e q p hq hp := (h.exposed e p q hp hq).symm
  values e q p hq hp hfree := (h.values e p q hp hq ((h.isLinked_eq hg hk hp hq).symm.trans hfree)).symm

/-- Calls that leave the forms and the inputs as they are leave the nets in their relation. -/
theorem congr (h : Reorders g k) (hg : through .form g' = through .form g) (hgi : g'.inputs = g.inputs)
    (hk : through .form k' = through .form k) (hki : k'.inputs = k.inputs) : Reorders g' k' := by
  refine ⟨?_, fun name n hn ↦ ?_, ?_, fun e p q hp hq ↦ ?_, fun e p q hp hq hfree ↦ ?_⟩
  · rw [nodeNames_form_eq hg, nodeNames_form_eq hk]
    exact h.names
  · obtain ⟨n', hn', hnn⟩ := node?_form_eq hg hn
    obtain ⟨m', hm', hcopy⟩ := h.nodes name n' hn'
    obtain ⟨m, hm, hmm⟩ := node?_form_eq hk.symm hm'
    exact ⟨m, hm, (Node.isCopy_of_form_eq hmm.symm).trans
      (hcopy.trans (Node.isCopy_of_form_eq hnn).symm)⟩
  · have hgends : g'.links.map Link.ends = g.links.map Link.ends := map_ends_form_eq hg
    have hkends : k'.links.map Link.ends = k.links.map Link.ends := map_ends_form_eq hk
    rw [hgends, hkends]
    exact h.links
  · rw [port?_of_inputs_eq hgi] at hp
    rw [port?_of_inputs_eq hki] at hq
    exact h.exposed e p q hp hq
  · rw [port?_of_inputs_eq hgi] at hp
    rw [port?_of_inputs_eq hki] at hq
    exact h.values e p q hp hq hfree

theorem isBuiltin (h : Reorders g k) (hg : g.WellLinked) (hk : k.WellLinked) (hb : g.IsBuiltin) :
    k.IsBuiltin := by
  intro s hs
  obtain ⟨r, hr, -, hcopy⟩ := h.exists_slot hg hk hs
  exact (hb r hr).congr hcopy.ports hcopy.behaviour

/-! ## Compiling -/

theorem feeds (h : Reorders g k) {u v : String} (hf : k.Feeds u v) : g.Feeds u v := by
  obtain ⟨l, hl, rfl, rfl⟩ := hf
  obtain ⟨l', hl', heq⟩ := List.mem_map.mp ((h.mem_ends_iff _).mp (List.mem_map_of_mem hl))
  obtain ⟨hsource, htarget⟩ := Prod.mk.inj heq
  exact ⟨l', hl', by rw [hsource], by rw [htarget]⟩

/-- **If one of the nets compiles, so does the other.** -/
theorem verdict (h : Reorders g k) (hg : g.WellLinked) (hk : k.WellLinked)
    (hv : g.verdict = .ok ()) : k.verdict = .ok () := by
  obtain ⟨hplan, hnodes⟩ := (verdict_eq_ok_iff hg).mp hv
  obtain ⟨hacyclic, hsupplied⟩ := hg.exists_plan_iff.mp hplan
  refine (verdict_eq_ok_iff hk).mpr ⟨hk.exists_plan_iff.mpr ⟨?_, fun s hs q hq hrequired ↦ ?_⟩,
    fun s hs ↦ ?_⟩
  · rintro ⟨v, hcycle⟩
    exact hacyclic ⟨v, hcycle.lift id fun _ _ ↦ h.feeds⟩
  · have hport := hk.input?_of_mem hs hq
    obtain ⟨p, hp, hdeclared⟩ := h.exists_input hg hk hport
    obtain ⟨r, hr, hmem, -⟩ := hg.exists_slot hp
    have hsat := hsupplied r hr p hmem ((congrArg (·.isRequired) hdeclared).trans hrequired)
    rw [Port.isSatisfied, h.isLinked_eq hg hk hp hport, h.exposed _ p q hp hport]
    exact hsat
  · obtain ⟨r, hr, -, hcopy⟩ := h.exists_slot hg hk hs
    rw [hcopy.verdict_eq, hnodes r hr]

/-! ## Executing -/

/-- The inputs without links read alike. -/
theorem reading (h : Reorders g k) (hg : g.WellLinked) (hgb : g.IsBuiltin) (hk : k.WellLinked)
    (hkb : k.IsBuiltin) : ∀ e p q, g.port? .input e = some p → k.port? .input e = some q →
      q.isLinked = false → q.data.map Packet.value = p.data.map Packet.value := by
  intro e p q hp hq hfree
  have hunlinked : p.isLinked = false := (h.isLinked_eq hg hk hp hq).symm.trans hfree
  have hstored := h.values e p q hp hq hunlinked
  have hexposed := h.exposed e p q hp hq
  cases hx : p.isExposed with
  | true => rw [Port.data_of_isExposed hx, Port.data_of_isExposed (hexposed.trans hx), hstored]
  | false =>
    obtain ⟨r, hr, hmem, -⟩ := hg.exists_slot hp
    obtain ⟨s, hs, hmem', -⟩ := hk.exists_slot hq
    obtain ⟨p', hp', hdeclared⟩ := h.exists_input hg hk hq
    obtain rfl := Option.some.inj (hp.symm.trans hp')
    have hdefault : q.default.map Packet.value = p.default.map Packet.value :=
      Port.map_unstamped_eq_iff.mp (congrArg (·.default) hdeclared).symm
    rw [Port.data_of_free ((hgb r hr).direction .input hmem) hunlinked hx,
      Port.data_of_free ((hkb s hs).direction .input hmem') hfree (hexposed.trans hx),
      Option.map_or, Option.map_or, hstored, hdefault]

/-- **The one net is rehearsed** when the other one succeeds. -/
theorem rehearsed {level level' stamp : Nat} (h : Reorders g k) (hg : g.IsLive level')
    (hk : k.IsLive level)
    (hok : (Graph.execute (Behaviour.life (level' + 1)) g stamp).result = (.ok (), g')) :
    k.Rehearsed g'.node? := by
  intro s hs
  obtain ⟨r, hr, hkey, hcopy⟩ := h.exists_slot hg.wellLinked hk.wellLinked hs
  obtain ⟨stamp', n', hrun, hn'⟩ := hg.wellLinked.settled_of_ok hg.plan hg.isReady
    (keepsOutline_life (level' + 1)) hok hr
  refine ⟨level', _, n', stamp', hg.supplied hr g.links g'.held, hrun, hkey ▸ hn', fun read hread ↦ ?_⟩
  refine sameTask_supplied hg.wellLinked hk.wellLinked hr hs hkey hcopy.ports hcopy.behaviour
    h.mem_ends_iff (h.reading hg.wellLinked hg.isBuiltin hk.wellLinked hk.isBuiltin)
    fun l hl ht ↦ ?_
  rw [hread l hl ht, map_value_held]

/-- **If a pass over one of the nets succeeds, so does a pass over the other**, and the nodes come out
alike. -/
theorem execute {level level' stamp : Nat} (h : Reorders g k) (hg : g.IsLive level')
    (hk : k.IsLive level)
    (hok : (Graph.execute (Behaviour.life (level' + 1)) g stamp).result = (.ok (), g'))
    (stamp' : Nat) :
    ∃ k', (Graph.execute (Behaviour.life (level + 1)) k stamp').result = (.ok (), k') ∧
      ∀ name n, g'.node? name = some n → ∃ m, k'.node? name = some m ∧ n.Alike m := by
  obtain ⟨hsuccess, halike⟩ := hk.execute_rehearsed (h.rehearsed hg hk hok) stamp'
  have hfinal := (hk.execute stamp').wellLinked
  have hknames := nodeNames_form_eq (form_execute (level + 1) k stamp')
  have hgnames := nodeNames_form_eq (form_execute (level' + 1) g stamp)
  rw [hok] at hgnames
  refine ⟨_, Prod.ext hsuccess rfl, fun name n hn ↦ ?_⟩
  have hmem : name ∈ k.nodeNames :=
    h.names.symm.subset (hgnames ▸ List.mem_map_of_mem (mem_of_node? hn))
  obtain ⟨s, hs, rfl⟩ := List.mem_map.mp (hknames ▸ hmem)
  obtain ⟨n', hn', hlike⟩ := halike s hs
  obtain rfl := Option.some.inj (hn.symm.trans hn')
  exact ⟨s.node, hfinal.node?_of_mem hs, hlike⟩

end Reorders

variable {g k : Net}

/-- **What a net computes does not depend on the order in which it was put together.**  Let two nets
of built-in nodes have the same nodes and links and the same values on their inputs, added in
whatever orders.  Then both compile or none does.  If they compile, a pass over both succeeds or over
none; and if it succeeds, nodes of one name come out alike, with the same values on all outputs, at
every depth. -/
theorem Reachable.reordered_runs (hg : g.Reachable) (hb : g.IsBuiltin) (hk : k.Reachable)
    (h : Reorders g k) (stamp₁ stamp₂ : Nat) :
    ((g.compile stamp₁).result.1 = .ok () ↔ (k.compile stamp₂).result.1 = .ok ()) ∧
    ∀ g₁ k₁, (g.compile stamp₁).result = (.ok (), g₁) → (k.compile stamp₂).result = (.ok (), k₁) →
      ∀ stamp₃ stamp₄,
        ((g₁.execute stamp₃).result.1 = .ok () ↔ (k₁.execute stamp₄).result.1 = .ok ()) ∧
        ∀ g₂ k₂, (g₁.execute stamp₃).result = (.ok (), g₂) →
          (k₁.execute stamp₄).result = (.ok (), k₂) →
          ∀ name n, g₂.node? name = some n → ∃ m, k₂.node? name = some m ∧ n.Alike m := by
  have hgwell := (coherent_iff.mp hg.coherent).1
  have hkwell := (coherent_iff.mp hk.coherent).1
  have hkb := h.isBuiltin hgwell hkwell hb
  have hsymm := h.symm hgwell hkwell
  refine ⟨?_, fun g₁ k₁ hg₁ hk₁ stamp₃ stamp₄ ↦ ?_⟩
  · rw [show (g.compile stamp₁).result.1 = g.verdict from
        hg.coherent.compile_verdict hb (Nat.le_refl _) stamp₁,
      show (k.compile stamp₂).result.1 = k.verdict from
        hk.coherent.compile_verdict hkb (Nat.le_refl _) stamp₂]
    exact ⟨h.verdict hgwell hkwell, hsymm.verdict hkwell hgwell⟩
  · obtain ⟨hglive, hgform, hginputs⟩ := hg.coherent.isLive_of_compile hb hg₁
    obtain ⟨hklive, hkform, hkinputs⟩ := hk.coherent.isLive_of_compile hkb hk₁
    have h₁ := h.congr hgform hginputs hkform hkinputs
    refine ⟨⟨fun hok ↦ ?_, fun hok ↦ ?_⟩, fun g₂ k₂ hg₂ hk₂ ↦ ?_⟩
    · obtain ⟨k₂, hk₂, -⟩ := h₁.execute hglive hklive (Prod.ext hok rfl) stamp₄
      exact congrArg Prod.fst hk₂
    · obtain ⟨g₂, hg₂, -⟩ := (h₁.symm hglive.wellLinked hklive.wellLinked).execute hklive hglive
        (Prod.ext hok rfl) stamp₃
      exact congrArg Prod.fst hg₂
    · obtain ⟨k₂', hk₂', halike⟩ := h₁.execute hglive hklive hg₂ stamp₄
      obtain rfl := (Prod.mk.inj (hk₂.symm.trans hk₂')).2
      exact halike

/-! ## The box of nodes that add one, without the box, in another order -/

/-- The flat description from its end. -/
def turnedDescription : GraphDescription where
  name := "turned"
  nodes := flatDescription.nodes.reverse
  links := flatDescription.links.reverse

/-- Nets of nodes that add one. -/
theorem reorders_of_isPlain {g k : Net} (hg : g.WellLinked) (hgs : IsStock g) (hk : k.WellLinked)
    (hks : IsStock k) (hgp : (g.slots.all fun s ↦ s.node.isPlain) = true)
    (hkp : (k.slots.all fun s ↦ s.node.isPlain) = true) (hnames : k.nodeNames.Perm g.nodeNames)
    (hlinks : (k.links.map Link.ends).Perm (g.links.map Link.ends)) : Reorders g k := by
  refine ⟨hnames, fun name n hn ↦ ?_, hlinks, fun e p q hp hq ↦ ?_, fun e p q hp hq _ ↦ ?_⟩
  · have hr := mem_of_node? hn
    obtain ⟨s, hs, rfl⟩ := List.mem_map.mp (hnames.symm.subset (List.mem_map_of_mem hr))
    exact ⟨s.node, hk.node?_of_mem hs, (hks.isBuiltin s hs).isCopy (hgs.isBuiltin _ hr)
      (Node.behaviour_of_isPlain (List.all_eq_true.mp hkp s hs))
      (Node.behaviour_of_isPlain (List.all_eq_true.mp hgp _ hr))⟩
  · obtain ⟨r, hr, hmem, -⟩ := hg.exists_slot hp
    obtain ⟨s, hs, hmem', -⟩ := hk.exists_slot hq
    rw [hgs.isOutermost r hr p hmem, hks.isOutermost s hs q hmem']
  · obtain ⟨r, hr, hmem, -⟩ := hg.exists_slot hp
    obtain ⟨s, hs, hmem', -⟩ := hk.exists_slot hq
    rw [hgs.isVacant r hr p hmem, hks.isVacant s hs q hmem']

theorem reordered_runs_turned :
    Reorders (loaded flatDescription) (loaded turnedDescription) ∧
    ∃ g₁ g₂ k₁ k₂, ((loaded flatDescription).compile 0).result = (.ok (), g₁) ∧
      (g₁.execute 0).result = (.ok (), g₂) ∧
      ((loaded turnedDescription).compile 0).result = (.ok (), k₁) ∧
      (k₁.execute 0).result = (.ok (), k₂) ∧ g₁.schedule ≠ k₁.schedule ∧
      ∀ name n, g₂.node? name = some n → ∃ m, k₂.node? name = some m ∧ n.Alike m := by
  obtain ⟨hg, hgs⟩ := reachable_loaded (d := flatDescription) (by decide +kernel)
  obtain ⟨hk, hks⟩ := reachable_loaded (d := turnedDescription) (by decide +kernel)
  have h : Reorders (loaded flatDescription) (loaded turnedDescription) :=
    reorders_of_isPlain (coherent_iff.mp hg.coherent).1 hgs (coherent_iff.mp hk.coherent).1 hks
      (by decide +kernel) (by decide +kernel) (by decide +kernel) (by decide +kernel)
  have hverdict : ((loaded flatDescription).compile 0).result.1.isOk = true := by decide +kernel
  have hok : ((loaded flatDescription).compile 0).result.1 = .ok () :=
    (exists_ok_of_isOk hverdict).elim fun _ h ↦ h
  have hschedules : ((loaded flatDescription).compile 0).result.2.schedule ≠
      ((loaded turnedDescription).compile 0).result.2.schedule := by decide +kernel
  obtain ⟨g₁, g₂, hc, he⟩ := (isHosted_of_isStock hg.coherent hgs).exists_pass hok 0
  obtain ⟨hcompile, hruns⟩ := hg.reordered_runs hgs.isBuiltin hk h 0 0
  have hkc : ((loaded turnedDescription).compile 0).result =
      (.ok (), ((loaded turnedDescription).compile 0).result.2) := Prod.ext (hcompile.mp hok) rfl
  obtain ⟨hexecute, halike⟩ := hruns g₁ _ hc hkc 0 0
  have hke := hexecute.mp (congrArg Prod.fst he)
  rw [hc] at hschedules
  exact ⟨h, g₁, g₂, _, _, hc, he, hkc, Prod.ext hke rfl, hschedules,
    halike g₂ _ he (Prod.ext hke rfl)⟩

end Net

end PortGraph
