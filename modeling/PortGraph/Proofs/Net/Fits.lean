import PortGraph.Proofs.Net.Brackets
import PortGraph.Proofs.Net.Create
import PortGraph.Proofs.Net.Quiet
import PortGraph.Proofs.Net.Wrapped

/-!
# Chronicles and what is asked of a net

A chronicle fits a net if the calls on each of its nodes, from when the node was new, may be made in
their order and leave the node as it is (`Chronicle.Fits`).

Here nodes come and go: a chronicle goes on fitting if a node is added with its own, if one takes
another name, is taken out or wrapped up with its net, and nodes that factories made have no calls
behind them (`FactorySet.fits_of_createNode`).
-/

set_option autoImplicit false

namespace PortGraph

open PortGraph.Graph
open PortGraph.Event (callsAtAll)

/-! ## Chronicles -/

/-- The chronicle when a node with a chronicle of its own is put under a name. -/
def Chronicle.put (c : Chronicle) (name : String) (new : Chronicle) : Chronicle
  | [] => c []
  | key :: path => if key = name then new path else c (key :: path)

/-- The chronicle of a new node, with that of the net in it. -/
def Chronicle.within (c : Chronicle) : Chronicle
  | [] => []
  | name :: path => c (name :: path)

/-- The calls on every node may be made in their order, from when it was new, and leave it as it is. -/
def Chronicle.Fits (c : Chronicle) (f : List String → Option Bool) : Prop :=
  ∀ path flag, f path = some flag → Call.leavesAll false (c path) = some flag

namespace Chronicle.Fits

variable {c c' : Chronicle} {f f' : List String → Option Bool}

theorem tracks (h : c.Fits f) (ht : Tracks f c' f') : Fits (fun path ↦ c path ++ c' path) f' := by
  intro path flag' hf'
  obtain ⟨flag, hf, hleaves⟩ := ht.exists_flag_before hf'
  rw [Call.leavesAll_append, h path flag hf]
  exact hleaves

theorem quiet (h : c.Fits f) (hc : ∀ path, c' path = []) : Fits (fun path ↦ c path ++ c' path) f :=
  h.tracks (.of_quiet hc)

theorem alternates (h : c.Fits f) {path : List String} {flag : Bool} (hf : f path = some flag) :
    Call.Alternates (c path) flag :=
  Call.alternates_of_leavesAll (h path flag hf)

/-- If no node stays initialised, nothing is left to be given back. -/
theorem closed (h : c.Fits f) (ht : Tracks f c' fun path ↦ (f path).map fun _ ↦ false)
    {path : List String} (hpath : (f path).isSome) :
    Call.leavesAll false (c path ++ c' path) = some false := by
  obtain ⟨flag, hf⟩ := Option.isSome_iff_exists.mp hpath
  exact h.tracks ht path false (by rw [hf]; rfl)

end Chronicle.Fits

/-- Nodes that were never called. -/
theorem Chronicle.fits_nil_iff {f : List String → Option Bool} :
    Chronicle.Fits (fun _ ↦ []) f ↔ ∀ path flag, f path = some flag → flag = false :=
  ⟨fun h path flag hf ↦ (Option.some.inj (h path flag hf)).symm,
    fun h path flag hf ↦ congrArg some (h path flag hf).symm⟩

namespace Net

variable {g k : Net} {c new : Chronicle}

/-! ## Links and values -/

theorem flagAt_of_slots_eq (h : k.slots = g.slots) : flagAt k = flagAt g :=
  flagAt_of_cores_eq (by rw [h])

@[simp] theorem flagAt_dropLink (id : LinkId) (g : Net) : flagAt (g.dropLink id) = flagAt g := by
  rw [dropLink]
  split
  · rfl
  · rw [changeEnds, flagAt_modifyPort, flagAt_modifyPort]
    exact flagAt_of_slots_eq rfl

@[simp] theorem flagAt_dropLinksOf (name : String) (g : Net) :
    flagAt (g.dropLinksOf name) = flagAt g := by
  rw [dropLinksOf]
  generalize (g.links.filter (·.touches name)).map Link.id = ids
  induction ids generalizing g with
  | nil => rfl
  | cons id ids ih => rw [List.foldl_cons, ih, flagAt_dropLink]

theorem flagAt_insertLink (l : Link) (g : Net) : flagAt (g.insertLink l) = flagAt g := by
  refine (flagAt_of_slots_eq (g := changeEnds Port.attach l g) rfl).trans ?_
  rw [changeEnds, flagAt_modifyPort, flagAt_modifyPort]

/-! ## Nodes come and go -/

theorem flagAt_pushNode {n : Node Behaviour} (hnew : n.name ∉ g.nodeNames) (name : String)
    (path : List String) : flagAt (g.pushNode n) (name :: path) =
      if n.name = name then n.flagAt path else flagAt g (name :: path) := by
  rw [flagAt, node?, pushNode, List.find?_append]
  split
  · rename_i h
    have hnone : g.slots.find? (fun s ↦ s.key = name) = none := by
      refine List.find?_eq_none.mpr fun s hs hkey ↦ hnew ?_
      exact h ▸ (of_decide_eq_true hkey ▸ List.mem_map_of_mem hs)
    simp [hnone, h]
  · rename_i h
    simp [h, flagAt, node?]

theorem fits_pushNode {n : Node Behaviour} (hnew : n.name ∉ g.nodeNames) (h : c.Fits (flagAt g))
    (hn : new.Fits n.flagAt) : (c.put n.name new).Fits (flagAt (g.pushNode n)) := by
  intro path flag hf
  cases path with
  | nil => exact absurd hf (by simp [flagAt])
  | cons name path =>
    rw [flagAt_pushNode hnew] at hf
    rw [Chronicle.put]
    by_cases hname : n.name = name
    · rw [if_pos hname] at hf
      rw [if_pos hname.symm]
      exact hn path flag hf
    · rw [if_neg hname] at hf
      rw [if_neg (Ne.symm hname)]
      exact h (name :: path) flag hf

/-- A node that takes another name takes its calls along. -/
theorem fits_relabel {old name : String} (hnd : g.nodeNames.Nodup) (hnew : name ∉ g.nodeNames)
    (h : c.Fits (flagAt g)) :
    (c.put name fun path ↦ c (old :: path)).Fits (flagAt (g.relabel old name)) := by
  intro path flag hf
  cases path with
  | nil => exact absurd hf (by simp [flagAt])
  | cons key path =>
    obtain ⟨m, hm, hf⟩ := Option.bind_eq_some_iff.mp hf
    obtain ⟨s, hs, hslot⟩ := List.mem_map.mp (mem_of_node? hm)
    have hold := flagAt_of_mem hnd hs path
    rw [Slot.rename] at hslot
    rw [Chronicle.put]
    by_cases hkey : s.key = old
    · rw [if_pos hkey] at hslot
      obtain ⟨rfl, rfl⟩ := Slot.mk.inj hslot
      rw [if_pos rfl]
      refine h (old :: path) flag (hkey ▸ hold.trans ?_)
      rw [← hf]
      exact Node.flagAt_congr (m := s.node) (n := s.node.rename name) rfl rfl path
    · rw [if_neg hkey] at hslot
      obtain rfl : s = ⟨key, m⟩ := hslot
      rw [if_neg fun heq : key = name ↦ hnew (heq ▸ List.mem_map_of_mem hs)]
      exact h (key :: path) flag (hold.trans hf)

theorem fits_eraseNode (name : String) (h : c.Fits (flagAt g)) :
    c.Fits (flagAt (g.eraseNode name)) := by
  intro path flag hf
  refine h path flag ?_
  cases path with
  | nil => exact absurd hf (by simp [flagAt])
  | cons key path =>
    rw [flagAt, node?_eraseNode] at hf
    split at hf
    · exact absurd hf (by simp)
    · exact hf

/-! ## Wrapping up -/

theorem cores_addOuterInputs {setters : List Accessor} {panel panel' : Panel}
    (h : addOuterInputs setters panel g = .ok (panel', k)) :
    k.slots.map Slot.core = g.slots.map Slot.core := by
  induction setters generalizing panel g with
  | nil =>
    obtain ⟨-, rfl⟩ := Prod.mk.inj (Except.ok.inj h)
    rfl
  | cons inner rest ih =>
    rw [addOuterInputs] at h
    obtain ⟨⟨panel₁, g₁⟩, hadd, h⟩ := bind_eq_ok h
    obtain ⟨hexpose, -⟩ := addOuterInput_eq_ok hadd
    obtain rfl := expose_eq_ok hexpose
    exact (ih h).trans (cores_modifyPort g .input inner.place _)

/-- The nodes inside a node that holds a net are those of the net. -/
theorem inside_of_wrap {name : String} {n : Node Behaviour} {stamp : Nat}
    (h : ((wrap name g).run stamp).result = .ok n) : n.inside = flagAt g := by
  obtain ⟨_, _, k, hinputs, -, rfl⟩ := parts_of_wrap h
  exact (Node.inside_nested rfl).trans (flagAt_of_cores_eq (cores_addOuterInputs hinputs))

theorem fits_of_wrap (hg : g.Coherent) {name : String} {n : Node Behaviour} {stamp : Nat}
    (h : ((wrap name g).run stamp).result = .ok n) (hc : c.Fits (flagAt g)) :
    Chronicle.Fits (Chronicle.within fun path ↦
      c path ++ callsAtAll ((wrap name g).run stamp).events path) n.flagAt := by
  intro path flag hf
  cases path with
  | nil => exact hf ▸ congrArg some (isFresh_of_wrap hg h).idle.symm
  | cons key path =>
    rw [Node.flagAt_cons, inside_of_wrap h] at hf
    exact hc.quiet (isQuiet_wrap name g stamp) (key :: path) flag hf

end Net

/-! ## Making nodes -/

/-- A node without a net in it that is not initialised. -/
theorem Node.fits_of_leaf {n : Node Behaviour} (h : n.panel.isInitialized = false)
    (hn : n.inner? = none) : Chronicle.Fits (fun _ ↦ []) n.flagAt := by
  intro path flag hf
  cases path with
  | nil => exact hf ▸ congrArg some h.symm
  | cons name path =>
    rw [flagAt_cons, inside_of_inner?_eq_none hn] at hf
    exact absurd hf (by simp)

theorem Net.fits_of_slots_eq_nil {c : Chronicle} {g : Net} (h : g.slots = []) :
    c.Fits (flagAt g) :=
  fun path _ hf ↦ absurd hf (by cases path <;> simp [flagAt, node?, h])

/-- A net that is made of nodes that were never called. -/
theorem Net.fits_of_ofDescription {create : NodeDescription → Attempt (Node Behaviour)}
    {factories : FactorySet} {d : GraphDescription} {g : Net} {stamp : Nat}
    (hcreate : ∀ d stamp n, ((create d).run stamp).result = .ok n →
      Chronicle.Fits (fun _ ↦ []) n.flagAt)
    (h : ((Graph.ofDescription create factories d).run stamp).result = .ok g) :
    Chronicle.Fits (fun _ ↦ []) (flagAt g) := by
  obtain ⟨k, hk, rfl⟩ := assembled_ofDescription hcreate h
  change Chronicle.Fits _ (flagAt k)
  clear h
  induction hk with
  | empty => exact fits_of_slots_eq_nil rfl
  | push _ hn new ih =>
    refine Chronicle.fits_nil_iff.mpr fun path flag hf ↦ ?_
    have hput := fits_pushNode new ih hn path flag hf
    cases path with
    | nil => exact (Option.some.inj hput).symm
    | cons name path =>
      rw [Chronicle.put] at hput
      split at hput
      · exact (Option.some.inj hput).symm
      · exact (Option.some.inj hput).symm
  | insert _ _ _ ih =>
    rw [flagAt_insertLink]
    exact ih

/-- What a maker makes was never called, if the nets it rebuilds were not. -/
theorem Maker.fits_of_make {maker : Maker} {factories : FactorySet}
    {rebuild : GraphDescription → Attempt Net} {d : NodeDescription} {n : Node Behaviour}
    {stamp : Nat} (hrebuild : ∀ d stamp g, ((rebuild d).run stamp).result = .ok g →
      Net.Coherent g ∧ Chronicle.Fits (fun _ ↦ []) (Net.flagAt g))
    (h : ((maker.make factories rebuild d).run stamp).result = .ok n) :
    Chronicle.Fits (fun _ ↦ []) n.flagAt := by
  have hidle := (isFresh_of_make (fun d stamp g hg ↦ (hrebuild d stamp g hg).1) h).idle
  rcases make_cases h with ⟨-, hnone⟩ | ⟨g, name, stamp', hwrap, hg⟩
  · exact Node.fits_of_leaf hidle hnone
  · have hfits : Chronicle.Fits (fun _ ↦ []) (Net.flagAt g) := by
      rcases hg with rfl | ⟨d', stamp'', hg⟩
      · exact Net.fits_of_slots_eq_nil rfl
      · exact (hrebuild _ _ g hg).2
    intro path flag hf
    cases path with
    | nil => exact hf ▸ congrArg some hidle.symm
    | cons key path =>
      rw [Node.flagAt_cons, Net.inside_of_wrap hwrap] at hf
      exact hfits (key :: path) flag hf

theorem Node.flagAt_labelled (n : Node Behaviour) (d : NodeDescription) :
    (n.labelled d).flagAt = n.flagAt :=
  funext fun path ↦ flagAt_congr (m := n.labelled d) (n := n) rfl rfl path

/-- **A node that factories made was never called**, and neither was any node inside. -/
theorem FactorySet.fits_of_createNode (set : FactorySet) {d : NodeDescription}
    {n : Node Behaviour} {stamp : Nat} (h : ((set.createNode d).run stamp).result = .ok n) :
    Chronicle.Fits (fun _ ↦ []) n.flagAt := by
  refine createWithin_induction_of_isFresh (P := fun n ↦ Chronicle.Fits (fun _ ↦ []) n.flagAt)
    (R := fun g ↦ Chronicle.Fits (fun _ ↦ []) (Net.flagAt g))
    (fun hcreate _ _ _ hg ↦ ?_) (fun _ hrebuild hm ↦ ?_) _ h
  · exact Net.fits_of_ofDescription (fun d stamp n hn ↦ (hcreate d stamp n hn).2) hg
  · rw [Node.flagAt_labelled]
    exact Maker.fits_of_make hrebuild hm

theorem FactorySet.name_of_createNode (set : FactorySet) {d : NodeDescription}
    {n : Node Behaviour} {stamp : Nat} (h : ((set.createNode d).run stamp).result = .ok n) :
    n.name = d.instanceName := by
  rw [createNode] at h
  generalize (d.config.map Json.depth).getD 0 = level at h
  cases level <;>
  · rw [createWithin] at h
    cases hf : set.find? d.model with
    | none =>
      rw [hf] at h
      exact absurd h (by simp)
    | some entry =>
      rw [hf] at h
      obtain ⟨m, -, h⟩ := Attempt.of_bind_eq_ok h
      obtain rfl := Except.ok.inj h
      rfl

/-! ## What is asked of a net -/

/-- The request concerns links, values or settings. -/
def Request.IsLinking {β : Type} : Request β → Prop
  | .addLink .. | .removeLink _ | .removeLinkById _ | .setInput .. | .setProtected _
  | .addFactory _ => True
  | _ => False

namespace Net

variable {g k : Net} {c new : Chronicle} {life : Lifecycle Behaviour}
  {make : FactorySet → NodeDescription → Attempt (Node Behaviour)} {r : Request Behaviour}
  {stamp : Nat}

theorem flagAt_of_isLinking (hg : g.WellLinked) (hr : r.IsLinking)
    (h : r.MayLeave life make g stamp k) : flagAt k = flagAt g := by
  cases h with
  | same | guarded | furnished => rfl
  | pushed brings => cases r <;> first | exact hr.elim | exact brings.elim
  | inserted ht => exact flagAt_insertLink _ g
  | dropped r id => exact (flagAt_of_slots_eq rfl).trans (flagAt_dropLink id g)
  | stored hn =>
    rw [modifyPanel_const_eq hg.keys_nodup hn]
    exact flagAt_modifyPort ..
  | _ => exact hr.elim

theorem isQuiet_of_isLinking (hr : r.IsLinking) : (r.perform life make g).IsQuiet := by
  cases r with
  | addLink source target =>
    exact (g.isQuiet_addLink source target).bind fun _ ↦ Act.isQuiet_pure _
  | removeLink target => exact (g.isQuiet_removeLink target).bind fun _ ↦ Act.isQuiet_pure _
  | removeLinkById id => exact (g.isQuiet_removeLinkById id).bind fun _ ↦ Act.isQuiet_pure _
  | setInput | setProtected | addFactory => exact Act.isQuiet_pure _
  | _ => exact hr.elim

/-- Nothing about the nodes changes. -/
theorem fits_of_isLinking (hg : g.WellLinked) (hr : r.IsLinking) (h : c.Fits (flagAt g)) :
    Chronicle.Fits (fun path ↦ c path ++ callsAtAll (r.perform life make g stamp).events path)
      (flagAt (r.perform life make g stamp).result) := by
  rw [flagAt_of_isLinking hg hr r.perform_mayLeave]
  exact h.quiet (isQuiet_of_isLinking hr stamp)

/-- A node is added, unless its name is taken. -/
theorem fits_addNode (n : Node Behaviour) (h : c.Fits (flagAt g)) (hn : new.Fits n.flagAt) :
    Chronicle.Fits (fun path ↦ (if g.contains n.name then c else c.put n.name new) path ++
      callsAtAll (Graph.addNode n g stamp).events path)
      (flagAt (Graph.addNode n g stamp).result.2) := by
  refine Chronicle.Fits.quiet (c := if g.contains n.name then c else c.put n.name new) ?_
    (g.isQuiet_addNode n stamp)
  rw [Graph.addNode]
  by_cases hcontains : g.contains n.name
  · rw [if_pos hcontains, if_pos hcontains]
    exact h
  · rw [if_neg hcontains, if_neg hcontains]
    exact fits_pushNode (fun hm ↦ hcontains (contains_iff_mem.mpr hm)) h hn

/-- A name that no node bears has no calls. -/
theorem fits_put_of_notMem {name : String} (hnew : name ∉ g.nodeNames) (h : c.Fits (flagAt g)) :
    (c.put name new).Fits (flagAt g) := by
  intro path flag hf
  cases path with
  | nil => exact absurd hf (by simp [flagAt])
  | cons key path =>
    have hne : key ≠ name := fun heq ↦
      absurd hf (by rw [heq, flagAt_eq_none hnew]; simp)
    rw [Chronicle.put, if_neg hne]
    exact h (key :: path) flag hf

/-- If nothing comes of a request, it does not matter which name it asked for. -/
theorem fits_of_refused (name : String) (h : c.Fits (flagAt g)) :
    Chronicle.Fits (if g.contains name then c else c.put name new) (flagAt g) := by
  by_cases hcontains : g.contains name
  · rw [if_pos hcontains]
    exact h
  · rw [if_neg hcontains]
    exact fits_put_of_notMem (fun hm ↦ hcontains (contains_iff_mem.mpr hm)) h

/-- A node is made and added. -/
theorem fits_createNode (d : NodeDescription) (h : c.Fits (flagAt g)) :
    Chronicle.Fits (fun path ↦ (if g.contains d.instanceName then c
      else c.put d.instanceName fun _ ↦ []) path ++
        callsAtAll (Graph.createNode g.factories.createNode d g stamp).events path)
      (flagAt (Graph.createNode g.factories.createNode d g stamp).result.2) := by
  have hquiet := g.factories.isQuiet_createNode d stamp
  rw [Graph.createNode]
  simp only [Act.bind_apply, Event.callsAtAll_append]
  simp only [hquiet, List.nil_append]
  cases hn : ((g.factories.createNode d).run stamp).result with
  | error e => exact (fits_of_refused d.instanceName h).quiet fun _ ↦ rfl
  | ok n =>
    have hname := g.factories.name_of_createNode hn
    rw [← hname]
    exact fits_addNode n h (g.factories.fits_of_createNode hn)

/-- A node takes another name, unless it is taken. -/
theorem fits_renameNode (hg : g.WellLinked) (old name : String) (h : c.Fits (flagAt g)) :
    Chronicle.Fits (if g.contains name then c else c.put name fun path ↦ c (old :: path))
      (flagAt (g.renameNode old name).2) := by
  rw [renameNode]
  by_cases hsame : old = name
  · rw [if_pos hsame]
    exact fits_of_refused name h
  · rw [if_neg hsame]
    by_cases hmissing : (!g.contains old) = true
    · rw [if_pos hmissing]
      exact fits_of_refused name h
    · rw [if_neg hmissing]
      by_cases hcontains : g.contains name
      · rw [if_pos hcontains, if_pos hcontains]
        exact h
      · rw [if_neg hcontains, if_neg hcontains]
        exact fits_relabel hg.keys_nodup (fun hm ↦ hcontains (contains_iff_mem.mpr hm)) h

variable {life : Lifecycle Behaviour} {Q : Behaviour → Bool → Prop} {E : NodeError → Prop}
  {r : Request Behaviour} {stamp : Nat}

/-- The nodes that stay are not called. -/
theorem fits_removeNode (hg : g.WellLinked) (name : String) (h : c.Fits (flagAt g)) :
    Chronicle.Fits (fun path ↦ c path ++ callsAtAll (Graph.removeNode life name g stamp).events path)
      (flagAt (Graph.removeNode life name g stamp).result.2) := by
  rcases Graph.removeNode_cases life name g stamp with ⟨e, hr, hevents⟩ | ⟨n, line, hn, hr, hevents⟩
  · rw [hr, hevents]
    exact h.quiet fun _ ↦ rfl
  · have hname : n.name = name :=
      ((hg.dropLinksOf name).regular _ (mem_of_node? hn)).name_eq
    have hleft := fits_eraseNode (c := c) (g := g.dropLinksOf name) name (by
      rw [flagAt_dropLinksOf]
      exact h)
    rw [hr, hevents]
    intro path flag hf
    cases path with
    | nil => exact absurd hf (by simp [flagAt])
    | cons key path =>
      have hne : n.name ≠ key := by
        rintro rfl
        rw [flagAt, node?_eraseNode, if_pos hname] at hf
        exact absurd hf (by simp)
      dsimp only
      rw [Event.callsAtAll_append, Lifecycle.callsAtAll_release_of_ne hne, callsAtAll,
        Event.callsAt_log, callsAtAll, List.append_nil, List.append_nil, List.append_nil]
      exact hleft (key :: path) flag hf

/-- The node that goes takes its calls along. -/
theorem fits_of_removeNode (hb : life.Brackets Q) (hg : g.WellLinked) (hall : g.Every Q)
    {name : String} {n : Node Behaviour} (h : c.Fits (flagAt g))
    (hn : (Graph.removeNode life name g stamp).result.1 = .ok n) :
    Chronicle.Fits (fun path ↦ c (name :: path) ++
      callsAtAll (Graph.removeNode life name g stamp).events (name :: path)) n.flagAt := by
  obtain ⟨m, line, hm, rfl, -, hevents⟩ := removeNode_eq_ok hn
  have hwell := hg.dropLinksOf name
  have hmem := mem_of_node? hm
  have hname : m.name = name := (hwell.regular _ hmem).name_eq
  have hbefore : Chronicle.Fits (fun path ↦ c (name :: path)) m.flagAt := fun path flag hf ↦
    h (name :: path) flag (by
      rw [← flagAt_dropLinksOf name g]
      exact (flagAt_of_mem hwell.keys_nodup hmem path).trans hf)
  have hrelease := hb.release (n := m) (hall.dropLinksOf name _ hmem) stamp
  rw [hname] at hrelease
  rw [hevents]
  intro path flag hf
  dsimp only
  rw [Event.callsAtAll_append, callsAtAll, Event.callsAt_log, callsAtAll, List.append_nil,
    List.append_nil]
  exact hbefore.tracks hrelease path flag hf

/-- A net that is cleared has no nodes left. -/
theorem fits_clear (h : c.Fits (flagAt g)) :
    Chronicle.Fits (fun path ↦ c path ++ callsAtAll (Graph.clear life g stamp).events path)
      (flagAt (Graph.clear life g stamp).result.2) := by
  rw [Graph.clear]
  split
  · exact h.quiet fun _ ↦ rfl
  · exact fits_of_slots_eq_nil rfl

end Net

end PortGraph
