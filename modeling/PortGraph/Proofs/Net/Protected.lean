import PortGraph.Proofs.Graph.Persists
import PortGraph.Proofs.Net.Form
import PortGraph.Proofs.Net.Inline
import PortGraph.Proofs.Net.Unsaved

/-!
# Protection

A protected graph refuses to remove a node or a link, and to be cleared.  `Graph.Shelters` follows a
graph for as long as it stays protected, whatever is asked of it meanwhile, and composes the names that
its nodes are given on the way.  Nothing is lost (`Graph.Shelters.spares`): every node that was there is
still in its place, under the name it has come to, and so is every link, between ports of the same nodes.

A step may bring nodes and links, and these come behind the others; it may change a name, and then it
does so in place (`Graph.spares_reply`).  The refusals alone would not do: it matters as well that
nothing else that can be asked takes anything out or puts it elsewhere.
-/

set_option autoImplicit false

namespace PortGraph

open PortGraph.Graph

variable {β γ : Type}

/-! ## New names -/

/-- What becomes of the names of nodes by a request that had this result. -/
def Request.renaming : Request β → Except GraphError Unit → String → String
  | .renameNode old new, .ok () => renamed old new
  | _, _ => id

/-! ## What is spared -/

namespace Graph

variable {T : β → γ} {life : Lifecycle β}
  {make : FactorySet → NodeDescription → Attempt (Node β)} {g j k : Graph β}
  {ρ ρ' : String → String} {stamp : Nat}

/-- **Nothing was taken out**: all nodes and links of `g` are in `k`, at the positions that they had.
The nodes go by the names that `ρ` gives them. -/
structure Spares (T : β → γ) (ρ : String → String) (g k : Graph β) : Prop where
  /-- Every node is in its place.  If it was kept under the name that it bears, it still is. -/
  nodes : ∀ (i : Nat) (s : Slot β), g.slots[i]? = some s →
    ∃ r : Slot β, k.slots[i]? = some r ∧ r.key = ρ s.key ∧
      (s.node.name = s.key → r.node.name = r.key) ∧ s.node.Persists T r.node
  /-- Every link is in its place, between ports of the same nodes. -/
  links : ∀ (i : Nat) (l : Link), g.links[i]? = some l → k.links[i]? = some (l.relocate ρ)

theorem Spares.trans (h : g.Spares T ρ j) (h' : j.Spares T ρ' k) : g.Spares T (ρ' ∘ ρ) k where
  nodes i s hs := by
    obtain ⟨o, ho, hkey, hname, hpersists⟩ := h.nodes i s hs
    obtain ⟨r, hr, hkey', hname', hpersists'⟩ := h'.nodes i o ho
    exact ⟨r, hr, by rw [hkey', hkey, Function.comp_apply], hname' ∘ hname,
      hpersists.trans hpersists'⟩
  links i l hl := h'.links i _ (h.links i l hl)

theorem getElem?_of_prefix {α : Type} {xs ys : List α} (h : xs <+: ys) {i : Nat} {x : α}
    (hx : xs[i]? = some x) : ys[i]? = some x := by
  obtain ⟨hlt, rfl⟩ := List.getElem?_eq_some_iff.mp hx
  exact List.prefix_iff_getElem?.mp h i hlt

/-- The nodes were kept, and new links come behind the others. -/
theorem spares_of_keepsNodes (h : g.KeepsNodes T k) (hl : g.links <+: k.links) :
    g.Spares T id k where
  nodes i s hs := by
    obtain ⟨r, hr, hkey, hname, hpersists⟩ := Pairs.getElem? h hs
    exact ⟨r, hr, hkey, fun hs ↦ by rw [hname, hs, hkey], hpersists⟩
  links i l hi := getElem?_of_prefix hl hi

/-- No node was touched, and new ones come behind the others. -/
theorem spares_of_prefix (hs : g.slots <+: k.slots) (hl : k.links = g.links) :
    g.Spares T id k where
  nodes _ s hi := ⟨s, getElem?_of_prefix hs hi, rfl, id, .refl T s.node⟩
  links _ _ hi := hl ▸ hi

theorem spares_of_eq (hs : k.slots = g.slots) (hl : k.links = g.links) : g.Spares T id k :=
  spares_of_prefix (hs ▸ List.prefix_rfl) hl

theorem spares_of_image_eq (h : k.image T = g.image T) : g.Spares T id k :=
  spares_of_keepsNodes (keepsNodes_of_image_eq h)
    (links_of_skeleton_eq (skeleton_of_image_eq h) ▸ List.prefix_rfl)

theorem spares_relabel (old new : String) (g : Graph β) :
    g.Spares T (renamed old new) (g.relabel old new) where
  nodes i s hs := by
    refine ⟨s.rename old new, ?_, ?_, fun hname ↦ ?_, persists_rename T old new s⟩
    · rw [relabel, List.getElem?_map, hs]
      rfl
    · rw [Slot.rename, renamed]
      split <;> rfl
    · rw [Slot.rename]
      split
      · rfl
      · exact hname
  links i l hl := by
    rw [relabel, List.getElem?_map, hl]
    exact congrArg some (l.rename_eq_relocate old new)

theorem spares_addNode (n : Node β) (g : Graph β) (stamp : Nat) :
    g.Spares T id (g.addNode n stamp).result.2 := by
  rw [addNode]
  split
  · exact spares_of_eq rfl rfl
  · exact spares_of_prefix (List.prefix_append g.slots [⟨n.name, n⟩]) rfl

theorem spares_renameNode (old new : String) (g : Graph β) :
    g.Spares T ((Request.renameNode old new : Request β).renaming (g.renameNode old new).1)
      (g.renameNode old new).2 := by
  rw [renameNode]
  split
  · -- The node takes the name that it has, which is a change in no name.
    rename_i hsame
    have hid : renamed old new = id := by
      funext name
      rw [renamed, hsame]
      split
      · rename_i hname
        exact hname.symm
      · rfl
    change g.Spares T (renamed old new) g
    rw [hid]
    exact spares_of_eq rfl rfl
  · split
    · exact spares_of_eq rfl rfl
    · split
      · exact spares_of_eq rfl rfl
      · exact spares_relabel old new g

theorem spares_setInput (hnd : g.nodeNames.Nodup) (place : Endpoint) (packet : Packet) :
    g.Spares T id (g.setInput place packet).2 := by
  rw [setInput, node]
  cases hn : g.node? place.node with
  | none => exact spares_of_eq rfl rfl
  | some n =>
    dsimp only
    rw [Panel.inject]
    cases n.panel.port .input place.port with
    | error e => exact spares_of_eq rfl rfl
    | ok p =>
      dsimp only
      by_cases hl : p.isLinked
      · rw [if_pos hl]
        exact spares_of_eq rfl rfl
      · rw [if_neg hl]
        dsimp only
        rw [modifyPanel_const_eq hnd hn]
        exact spares_of_image_eq (image_modifyPort_store g .input place (some packet))

/-! ## Refusals -/

/-- What a graph replies that does not do what it is asked as it is protected. -/
def refusal (α : Type) (g : Graph β) (stamp : Nat) : Outcome (Reply GraphError (Graph β) α) :=
  ⟨(.error (.protectedGraph g.name), g), stamp, []⟩

theorem removeNode_of_isProtected (hp : g.isProtected = true) (life : Lifecycle β) (name : String)
    (stamp : Nat) : g.removeNode life name stamp = g.refusal (Node β) stamp := by
  rw [removeNode, if_pos hp]
  rfl

theorem removeLinkById_of_isProtected (hp : g.isProtected = true) (id : LinkId) (stamp : Nat) :
    g.removeLinkById id stamp = g.refusal Link stamp := by
  rw [removeLinkById, if_pos hp]
  rfl

theorem removeLink_of_isProtected (hp : g.isProtected = true) {l : Link} (hl : l ∈ g.links)
    (stamp : Nat) : g.removeLink l.target stamp = g.refusal Link stamp := by
  obtain ⟨l', hl'⟩ : ∃ l', g.linkTo? l.target = some l' :=
    Option.isSome_iff_exists.mp (List.find?_isSome.mpr ⟨l, hl, by simp⟩)
  rw [removeLink, hl']
  exact removeLinkById_of_isProtected hp l'.id stamp

theorem clear_of_isProtected (hp : g.isProtected = true) (life : Lifecycle β) (stamp : Nat) :
    g.clear life stamp = g.refusal Unit stamp := by
  rw [clear, if_pos hp]
  rfl

theorem removeLink_result_of_isProtected (hp : g.isProtected = true) (target : Endpoint)
    (stamp : Nat) : (g.removeLink target stamp).result.2 = g := by
  rw [removeLink]
  cases g.linkTo? target with
  | none => rfl
  | some l => exact congrArg (·.result.2) (removeLinkById_of_isProtected hp l.id stamp)

/-! ## Under protection -/

/-- **A protected graph takes nothing out**, whatever is asked of it. -/
theorem spares_reply (hp : g.isProtected = true) (hnd : g.nodeNames.Nodup)
    (hlife : life.KeepsOutline) (ht : life.KeepsTrait T) (r : Request β) :
    g.Spares T (r.renaming (r.reply life make g stamp).result.1)
      (r.reply life make g stamp).result.2 := by
  have hsame : ∀ {j : Graph β}, j = g → g.Spares T id j := fun h ↦ h ▸ spares_of_eq rfl rfl
  cases r with
  | addNode n => exact spares_addNode n g stamp
  | createNode d =>
    simp only [Request.reply, Request.renaming, createNode, Act.bind_apply]
    cases ((make g.factories d).run stamp).result with
    | error e => exact spares_of_eq rfl rfl
    | ok n => exact spares_addNode n g _
  | removeNode name =>
    exact hsame (congrArg (·.result.2) (removeNode_of_isProtected hp life name stamp))
  | renameNode old new => exact spares_renameNode old new g
  | addLink source target =>
    simp only [Request.reply, Request.renaming, addLink, Act.bind_apply, Act.pure_apply]
    cases g.linkType source target with
    | error e => exact spares_of_eq rfl rfl
    | ok t => exact spares_of_keepsNodes (keepsNodes_insertLink _ g) (List.prefix_append g.links _)
  | removeLink target => exact hsame (removeLink_result_of_isProtected hp target stamp)
  | removeLinkById id =>
    exact hsame (congrArg (·.result.2) (removeLinkById_of_isProtected hp id stamp))
  | setInput place packet => exact spares_setInput hnd place packet
  | setProtected b => exact spares_of_eq rfl rfl
  | addFactory factory =>
    simp only [Request.reply, Request.renaming, addFactory, Act.pure_apply]
    cases g.factories.add factory with
    | error e => exact spares_of_eq rfl rfl
    | ok factories => exact spares_of_eq rfl rfl
  | compile => exact spares_of_image_eq (image_compile hlife ht g stamp)
  | execute => exact spares_of_image_eq (image_execute hlife ht g stamp)
  | release => exact spares_of_image_eq (image_release hlife ht g stamp)
  | clear => exact hsame (congrArg (·.result.2) (clear_of_isProtected hp life stamp))

/-- **What comes of a graph while it stays protected**, and of the names of its nodes.  It may be asked
for anything meanwhile, and refuse it or not; its nodes may fail, as long as no call changes a trait of
what they compute with. -/
inductive Shelters (T : β → γ) (g : Graph β) : (String → String) → Graph β → Prop
  /-- The graph is protected. -/
  | start (h : g.isProtected = true) : Shelters T g id g
  /-- The host asked for something, and the graph is still protected. -/
  | step {ρ : String → String} {k : Graph β} {life : Lifecycle β}
      {make : FactorySet → NodeDescription → Attempt (Node β)} {stamp : Nat} (r : Request β)
      (h : Shelters T g ρ k) (hlife : life.KeepsOutline) (ht : life.KeepsTrait T)
      (hp : (r.reply life make k stamp).result.2.isProtected = true) :
      Shelters T g (r.renaming (r.reply life make k stamp).result.1 ∘ ρ)
        (r.reply life make k stamp).result.2
  /-- It was recorded that the graph is saved. -/
  | saved {ρ : String → String} {k : Graph β} (h : Shelters T g ρ k) :
      Shelters T g ρ { k with isModified := false }
  /-- A node that holds the graph exposed one of its inputs. -/
  | exposed {ρ : String → String} {j k : Graph β} {place : Endpoint} (h : Shelters T g ρ j)
      (hk : j.expose place = .ok k) : Shelters T g ρ k
  /-- A node that holds the graph fed one of its inputs. -/
  | fed {ρ : String → String} {j k : Graph β} {place : Endpoint} {packet : Option Packet}
      (h : Shelters T g ρ j) (hk : j.feed place packet = .ok k) : Shelters T g ρ k

theorem Shelters.isProtected (h : g.Shelters T ρ k) : k.isProtected = true := by
  induction h with
  | start h => exact h
  | step r _ _ _ hp _ => exact hp
  | saved _ ih => exact ih
  | exposed _ hk ih =>
    obtain rfl := expose_eq_ok hk
    exact ih
  | fed _ hk ih =>
    obtain rfl := feed_eq_ok hk
    exact ih

theorem Shelters.nodup_nodeNames (h : g.Shelters T ρ k) (hnd : g.nodeNames.Nodup) :
    k.nodeNames.Nodup := by
  induction h with
  | start _ => exact hnd
  | @step _ k life make stamp r _ hlife _ _ ih =>
    rw [← Request.perform_eq_reply]
    exact Request.nodup_nodeNames hlife ih r
  | saved _ ih => exact ih
  | exposed _ hk ih =>
    rw [nodeNames_expose hk]
    exact ih
  | fed _ hk ih =>
    rw [nodeNames_feed hk]
    exact ih

/-- **Nothing is taken out of a graph for as long as it is protected.** -/
theorem Shelters.spares (h : g.Shelters T ρ k) (hnd : g.nodeNames.Nodup) : g.Spares T ρ k := by
  induction h with
  | start _ => exact spares_of_eq rfl rfl
  | step r h hlife ht _ ih =>
    exact ih.trans (spares_reply h.isProtected (h.nodup_nodeNames hnd) hlife ht r)
  | @saved _ k _ ih =>
    have hsame : k.Spares T id { k with isModified := false } := spares_of_eq rfl rfl
    exact ih.trans hsame
  | @exposed _ j k place _ hk ih =>
    obtain rfl := expose_eq_ok hk
    have hport := keepsNodes_modifyPort (T := T) (f := fun p ↦ { p with isExposed := true })
      (fun _ ↦ rfl) j .input place
    have hexposed : j.Spares T id (j.modifyPort .input place fun p ↦
      { p with isExposed := true }).unschedule := spares_of_keepsNodes hport List.prefix_rfl
    exact ih.trans hexposed
  | @fed _ j _ place packet _ hk ih =>
    obtain rfl := feed_eq_ok hk
    exact ih.trans (spares_of_image_eq (image_modifyPort_store j .input place packet))

/-- **Protection prevents every removal.**  For as long as a graph stays protected, whatever it is asked
for, every node is still at its position, under the name that it was given, and every link is still at
its position, between the same ports of the same nodes.  The graph refuses to remove a node or a link
that it has, and to be cleared; it stays exactly what it is, and nothing happens. -/
theorem Reachable.spared_of_shelters (hg : g.Reachable) (h : g.Shelters T ρ k) :
    (∀ (i : Nat) (s : Slot β), g.slots[i]? = some s → ∃ r : Slot β, k.slots[i]? = some r ∧
      r.key = ρ s.key ∧ r.node.name = ρ s.key ∧ s.node.Persists T r.node) ∧
    (∀ (i : Nat) (l : Link), g.links[i]? = some l → k.links[i]? = some (l.relocate ρ)) ∧
    (∀ life name stamp, k.removeNode life name stamp = k.refusal (Node β) stamp) ∧
    (∀ life stamp, k.clear life stamp = k.refusal Unit stamp) ∧
    ∀ l ∈ k.links, ∀ stamp, k.removeLinkById l.id stamp = k.refusal Link stamp ∧
      k.removeLink l.target stamp = k.refusal Link stamp := by
  have hp := h.isProtected
  have hspares := h.spares hg.wellLinked.keys_nodup
  refine ⟨fun i s hs ↦ ?_, hspares.links, removeNode_of_isProtected hp, clear_of_isProtected hp,
    fun l hl stamp ↦ ⟨removeLinkById_of_isProtected hp l.id stamp,
      removeLink_of_isProtected hp hl stamp⟩⟩
  obtain ⟨r, hr, hkey, hname, hpersists⟩ := hspares.nodes i s hs
  have hnamed := (hg.linksMatch.named.2 s (List.mem_of_getElem? hs)).symm
  exact ⟨r, hr, hkey, (hname hnamed).trans hkey, hpersists⟩

/-! ## A graph of two nodes that is protected -/

/-- The graph of the nodes `a` and `b`, protected. -/
def sampleProtected : Graph Unit :=
  ((Request.setProtected true).perform .idle makeNone sample 0).result

/-- The graph once `a` took the name `c`. -/
def sampleRenamed : Graph Unit :=
  ((Request.renameNode "a" "c").reply .idle makeNone sampleProtected 0).result.2

/-- The graph once `b` failed to get ready. -/
def sampleFailed : Graph Unit := (Request.compile.reply reluctant makeNone sampleRenamed 0).result.2

theorem shelters_sampleFailed :
    sampleProtected.Shelters (fun _ ↦ ()) (renamed "a" "c") sampleFailed := by
  have hidle : (Lifecycle.idle : Lifecycle Unit).KeepsTrait (fun _ ↦ ()) :=
    ⟨fun _ _ ↦ rfl, fun _ _ ↦ rfl, fun _ _ ↦ rfl⟩
  have hreluctant : reluctant.KeepsTrait (fun _ ↦ ()) :=
    ⟨fun _ _ ↦ rfl, fun _ _ ↦ rfl, fun _ _ ↦ rfl⟩
  have hrenamed : sampleProtected.Shelters (fun _ ↦ ()) _ sampleRenamed :=
    .step (.renameNode "a" "c") (.start (by decide +kernel)) keepsOutline_idle hidle
      (by decide +kernel)
  obtain ⟨⟨⟩, hok⟩ := exists_ok_of_isOk (x :=
    ((Request.renameNode "a" "c").reply .idle makeNone sampleProtected 0).result.1)
      (by decide +kernel)
  rw [hok] at hrenamed
  exact .step .compile hrenamed keepsOutline_reluctant hreluctant (by decide +kernel)

theorem spared_of_shelters_sampleFailed :
    sampleProtected.nodeNames = ["a", "b"] ∧
    (∃ r, sampleFailed.slots[0]? = some r ∧ r.key = "c" ∧ r.node.typeName = "Sample") ∧
    (∀ (i : Nat) (l : Link), sampleProtected.links[i]? = some l →
      sampleFailed.links[i]? = some (l.relocate (renamed "a" "c"))) ∧
    sampleFailed.removeNode .idle "c" 0 = sampleFailed.refusal (Node Unit) 0 ∧
    sampleFailed.clear .idle 0 = sampleFailed.refusal Unit 0 := by
  have hreachable : sampleProtected.Reachable :=
    .step (.setProtected true) reachable_sample keepsOutline_idle (fun _ hn ↦ hn.elim)
      fun _ _ hr ↦ absurd hr (by simp)
  obtain ⟨hnodes, hlinks, hremove, hclear, -⟩ :=
    hreachable.spared_of_shelters shelters_sampleFailed
  obtain ⟨s, hs⟩ : ∃ s, sampleProtected.slots[0]? = some s := ⟨_, rfl⟩
  obtain ⟨r, hr, hkey, -, hpersists⟩ := hnodes 0 s hs
  have hs' : s.key = "a" ∧ s.node.typeName = "Sample" := by
    obtain rfl := Option.some.inj hs
    decide +kernel
  refine ⟨by decide +kernel, ⟨r, hr, ?_, hpersists.typeName.trans hs'.2⟩, hlinks,
    hremove .idle "c" 0, hclear .idle 0⟩
  rw [hkey, hs'.1]
  decide

end Graph

/-! ## Nets -/

/-- **A protected net is saved as any other**, and keeps its protection: whether or not its file can be
written, saving takes nothing out. -/
theorem Net.shelters_save {T : Behaviour → γ} {ρ : String → String} {g k : Net} (h : g.Shelters T ρ k)
    (files : FileAccess Id) (path : String) (stamp : Nat) :
    Graph.Shelters T g ρ ((save files path k).run stamp).result.2 := by
  rcases save_cases files path k stamp with ⟨e, heq⟩ | heq
  · rw [heq]
    exact h
  · rw [heq]
    exact h.saved

/-- What is asked of a protected net, while it stays protected, is a step that keeps the forms of its
nodes. -/
theorem Net.shelters_reply {ρ : String → String} {g k : Net}
    (h : g.Shelters (Behaviour.through .form) ρ k) (r : Request Behaviour) (stamp : Nat)
    (hp : (r.reply k.life FactorySet.createNode k stamp).result.2.isProtected = true) :
    g.Shelters (Behaviour.through .form)
      (r.renaming (r.reply k.life FactorySet.createNode k stamp).result.1 ∘ ρ)
      (r.reply k.life FactorySet.createNode k stamp).result.2 :=
  .step r h (keepsOutline_life _) (Behaviour.keepsTrait_form _) hp

end PortGraph
