import PortGraph.Proofs.Graph.Inputs
import PortGraph.Proofs.Graph.Refusals

/-!
# What the host put on the inputs

A ledger notes for every input the packet that the host put there last.  It is kept by looking at what
is asked of a graph and at its links, never at what the ports hold (`Request.book`): an entry is made
when a packet is put on an input, it moves along when a node takes a new name, and it is struck out
when a link to the input is made or taken away, be it because a node goes that fed it.

`Graph.Accounts` says that an input that neither a link nor an enclosing graph supplies holds what its
ledger says and nothing else.  Every request keeps this (`Accounts.reply`), whether it is granted or
not and whether a pass succeeds or breaks off: what a link brought is gone when the link is.
-/

set_option autoImplicit false

namespace PortGraph

/-- What the host put last on each input, as far as it still counts. -/
abbrev Ledger : Type := Endpoint → Option Packet

namespace Ledger

/-- The ledger with a packet entered for an input. -/
def enter (l : Ledger) (place : Endpoint) (packet : Packet) : Ledger :=
  fun e ↦ if e = place then some packet else l e

/-- The ledger with the entries for some inputs struck out. -/
def without (l : Ledger) (places : List Endpoint) : Ledger :=
  fun e ↦ if e ∈ places then none else l e

/-- The ledger when the node `old` takes the name `new`. -/
def relabel (l : Ledger) (old new : String) : Ledger :=
  fun e ↦ if e.node = new then l ⟨old, e.port⟩ else l e

/-- The ledger of some nodes when another one joins them, which comes with entries of its own. -/
def join (l : Ledger) (present : String → Bool) (new : String → Option Packet) : Ledger :=
  fun e ↦ if present e.node then l e else new e.port

theorem without_congr {l : Ledger} {places places' : List Endpoint}
    (h : ∀ e, e ∈ places ↔ e ∈ places') : l.without places = l.without places' := by
  funext e
  simp only [without, h e]

theorem without_without (l : Ledger) (places places' : List Endpoint) :
    (l.without places).without places' = l.without (places ++ places') := by
  funext e
  by_cases he : e ∈ places' <;> simp [without, he]

@[simp] theorem without_nil (l : Ledger) : l.without [] = l := by
  funext e
  simp [without]

@[simp] theorem relabel_self (l : Ledger) (name : String) : l.relabel name name = l := by
  funext e
  rw [relabel]
  split
  · rename_i he
    rw [← he]
  · rfl

/-- The ledger of a host that put nothing anywhere. -/
def blank : Ledger := fun _ ↦ none

@[simp] theorem without_blank (places : List Endpoint) : blank.without places = blank := by
  funext e
  rw [without]
  exact ite_self _

@[simp] theorem join_blank (present : String → Bool) : blank.join present (fun _ ↦ none) = blank := by
  funext e
  rw [join]
  exact ite_self _

end Ledger

/-! ## Keeping a ledger -/

namespace Request

variable {β : Type}

/-- The inputs whose link is made or taken away when the request is granted. -/
def relinked (g : Graph β) : Request β → List Endpoint
  | .addLink _ target => [target]
  | .removeLink target => [target]
  | .removeLinkById id => (g.link? id).toList.map Link.target
  | .removeNode name => (g.links.filter (·.touches name)).map Link.target
  | .clear => g.links.map Link.target
  | _ => []

/-- What the host put on the inputs of a node that the request brings along: `new` if it is the host's
own, and nothing if the node is made on the way. -/
def brought (new : String → Option Packet) : Request β → String → Option Packet
  | .addNode _ => new
  | _ => fun _ ↦ none

/-- The ledger after a request that was granted. -/
def enter (g : Graph β) (new : String → Option Packet) (l : Ledger) (r : Request β) : Ledger :=
  match r with
  | .addNode _ | .createNode _ => l.join g.contains (r.brought new)
  | .renameNode old name => l.relabel old name
  | .setInput place packet => l.enter place packet
  | _ => l.without (r.relinked g)

/-- The ledger after a request, whose result is given: a request that fails puts nothing anywhere. -/
def book {ε : Type} (r : Request β) (g : Graph β) (new : String → Option Packet) (l : Ledger)
    (result : Except ε Unit) : Ledger :=
  if result.isOk then r.enter g new l else l

theorem book_ok {ε : Type} {r : Request β} {g : Graph β} {new : String → Option Packet} {l : Ledger} :
    r.book g new l (.ok () : Except ε Unit) = r.enter g new l :=
  rfl

/-- What touches neither nodes nor links leaves the ledger as it is. -/
theorem book_of_enter_eq {ε : Type} {r : Request β} {g : Graph β} {new : String → Option Packet}
    {l : Ledger} (h : r.enter g new l = l) (result : Except ε Unit) : r.book g new l result = l := by
  rw [book, h, ite_self]

end Request

/-! ## Ports, panels and graphs -/

/-- An input that nothing supplies holds what was entered for it. -/
structure Port.IsBooked (p : Port) (entry : Option Packet) : Prop where
  /-- It is an input. -/
  input : p.direction = .input
  /-- It holds what was entered. -/
  stored : p.isSatisfied = false → p.stored = entry

/-- What is read off such an input is what was entered, or else its default. -/
theorem Port.IsBooked.data_eq {p : Port} {entry : Option Packet} (h : p.IsBooked entry)
    (hp : p.isSatisfied = false) : p.data = entry.or p.default := by
  rw [Port.data, h.input]
  simp only [hp, h.stored hp, Bool.false_eq_true, if_false]

/-- The inputs of a panel hold what was entered for them. -/
def Panel.Accounts (panel : Panel) (l : String → Option Packet) : Prop :=
  ∀ p ∈ panel.inputs, p.IsBooked (l p.name)

namespace Graph

variable {β : Type} {life : Lifecycle β} {g k : Graph β} {l : Ledger}

/-- **A ledger accounts for a graph**: the inputs that nothing supplies hold what it says. -/
def Accounts (g : Graph β) (l : Ledger) : Prop :=
  ∀ e p, g.port? .input e = some p → p.IsBooked (l e)

theorem contains_of_port? {side : Direction} {e : Endpoint} {p : Port}
    (h : g.port? side e = some p) : g.contains e.node = true := by
  obtain ⟨n, hn, -⟩ := Option.bind_eq_some_iff.mp h
  rw [contains, hn]
  rfl

theorem accounts_of_no_slots (h : g.slots = []) : g.Accounts l := by
  intro e p hp
  rw [port?, node?, h] at hp
  exact absurd hp (by simp)

theorem Accounts.of_inputs_eq (ha : g.Accounts l) (h : k.inputs = g.inputs) : k.Accounts l :=
  fun e p hp ↦ ha e p (port?_of_inputs_eq h e ▸ hp)

/-- The inputs of a node in its place are accounted for. -/
theorem Accounts.panel (ha : g.Accounts l) (hg : g.WellLinked) {s : Slot β} (hs : s ∈ g.slots) :
    s.node.panel.Accounts fun port ↦ l ⟨s.key, port⟩ :=
  fun _ hp ↦ ha _ _ (hg.input?_of_mem hs hp)

/-! ## Nodes come and go -/

theorem Accounts.pushNode (ha : g.Accounts l) {n : Node β} {new : String → Option Packet}
    (hn : n.panel.Accounts new) (hfresh : g.contains n.name = false) :
    (g.pushNode n).Accounts (l.join g.contains new) := by
  intro e p hp
  by_cases he : e.node = n.name
  · have hnew : n.name ∉ g.nodeNames := fun hm ↦ by simp [contains_iff_mem.mpr hm] at hfresh
    rw [port?_pushNode_self n .input e hnew he] at hp
    obtain ⟨hmem, hname⟩ := Port.mem_of_named? hp
    rw [Ledger.join, he, hfresh, ← hname]
    exact hn p hmem
  · rw [port?_pushNode n .input e he] at hp
    rw [Ledger.join, if_pos (contains_of_port? hp)]
    exact ha e p hp

theorem Accounts.eraseNode (ha : g.Accounts l) (name : String) : (g.eraseNode name).Accounts l := by
  intro e p hp
  rw [port?, node?_eraseNode] at hp
  split at hp
  · exact absurd hp (by simp)
  · exact ha e p hp

theorem Accounts.relabel (ha : g.Accounts l) (hg : g.WellLinked) {old new : String}
    (hnew : new ∉ g.nodeNames) : (g.relabel old new).Accounts (l.relabel old new) := by
  intro e' p hp
  obtain ⟨e, he, rfl, hport⟩ := (port?_relabel_iff hg hnew).mp hp
  have hbooked := ha e p hport
  rw [Endpoint.rename, Ledger.relabel]
  by_cases hold : e.node = old
  · have heq : e = ⟨old, e.port⟩ := by rw [← hold]
    rw [if_pos hold, if_pos rfl, ← heq]
    exact hbooked
  · have hne : e.node ≠ new := fun h ↦ hnew (h ▸ he)
    rw [if_neg hold, if_neg hne]
    exact hbooked

/-! ## Links come and go -/

/-- The input at the end of a link is emptied, and its entry struck out. -/
theorem Accounts.changeEnds (ha : g.Accounts l) {f : Port → Port} (hname : ∀ p, (f p).name = p.name)
    (hdir : ∀ p, (f p).direction = p.direction) (m : Link) :
    (changeEnds f m g).Accounts (l.without [m.target]) := by
  intro e p hp
  rw [port?_changeEnds hname] at hp
  by_cases he : e = m.target
  · rw [if_pos (show e = m.place .input from he)] at hp
    obtain ⟨q, hq, rfl⟩ := Option.map_eq_some_iff.mp hp
    refine ⟨(hdir q).trans (ha e q hq).input, fun _ ↦ ?_⟩
    rw [Ledger.without, if_pos (List.mem_singleton.mpr he)]
    rfl
  · rw [if_neg (show e ≠ m.place .input from he)] at hp
    rw [Ledger.without, if_neg fun hm ↦ he (List.mem_singleton.mp hm)]
    exact ha e p hp

theorem Accounts.insertLink (ha : g.Accounts l) (m : Link) :
    (g.insertLink m).Accounts (l.without [m.target]) :=
  ha.changeEnds Port.attach_name (fun _ ↦ rfl) m

theorem Accounts.dropLink (ha : g.Accounts l) (id : LinkId) :
    (g.dropLink id).Accounts (l.without ((g.link? id).toList.map Link.target)) := by
  rw [Graph.dropLink]
  cases hm : g.link? id with
  | none => exact l.without_nil.symm ▸ ha
  | some m =>
    exact Accounts.changeEnds (g := { g with links := g.links.filter (fun k ↦ k.id ≠ id) }) ha
      Port.detach_name (fun _ ↦ rfl) m

/-- The entries of all inputs are struck out at which one of the links ended. -/
theorem Accounts.foldl_dropLink (ha : g.Accounts l) (hg : g.WellLinked) (ids : List LinkId) :
    (ids.foldl (fun g id ↦ g.dropLink id) g).Accounts
      (l.without ((g.links.filter (fun m ↦ m.id ∈ ids)).map Link.target)) := by
  induction ids generalizing g l with
  | nil =>
    rw [show g.links.filter (fun m ↦ m.id ∈ []) = [] by simp]
    exact l.without_nil.symm ▸ ha
  | cons id ids ih =>
    have hrest := ih (ha.dropLink id) (hg.dropLink id)
    rw [links_dropLink, Ledger.without_without] at hrest
    refine Ledger.without_congr (fun e ↦ ?_) ▸ hrest
    -- no two links have one id, so the link that was found is the one meant
    have hfound : ∀ m ∈ g.links, m.id = id → g.link? id = some m := by
      intro m hm hid
      obtain ⟨m', hm'⟩ := Option.isSome_iff_exists.mp
        (show (g.link? id).isSome from List.find?_isSome.mpr ⟨m, hm, decide_eq_true hid⟩)
      obtain ⟨hmem, hid'⟩ := link?_eq_some hm'
      rw [List.inj_on_of_nodup_map hg.ids_nodup hm hmem (hid.trans hid'.symm)]
      exact hm'
    simp only [List.mem_append, List.mem_map, Option.mem_toList, List.mem_filter,
      decide_eq_true_eq, List.mem_cons]
    constructor
    · rintro (⟨m, hm, rfl⟩ | ⟨m, ⟨⟨hm, -⟩, hid⟩, rfl⟩)
      · obtain ⟨hmem, hid⟩ := link?_eq_some hm
        exact ⟨m, ⟨hmem, .inl hid⟩, rfl⟩
      · exact ⟨m, ⟨hm, .inr hid⟩, rfl⟩
    · rintro ⟨m, ⟨hm, hid⟩, rfl⟩
      by_cases hsame : m.id = id
      · exact .inl ⟨m, hfound m hm hsame, rfl⟩
      · exact .inr ⟨m, ⟨⟨hm, hsame⟩, hid.resolve_left hsame⟩, rfl⟩

/-- Taking a node out strikes out what was entered for the inputs that its links ended at, its own as
well as those it was feeding. -/
theorem Accounts.dropLinksOf (ha : g.Accounts l) (hg : g.WellLinked) (name : String) :
    (g.dropLinksOf name).Accounts (l.without ((Request.removeNode name).relinked g)) := by
  have hrest := ha.foldl_dropLink hg ((g.links.filter (·.touches name)).map Link.id)
  have hlinks : g.links.filter (fun m ↦ m.id ∈ (g.links.filter (·.touches name)).map Link.id) =
      g.links.filter (·.touches name) := by
    refine List.filter_congr fun m hm ↦ ?_
    rw [Bool.eq_iff_iff, decide_eq_true_eq]
    refine ⟨fun hid ↦ ?_, fun ht ↦ List.mem_map_of_mem (List.mem_filter.mpr ⟨hm, ht⟩)⟩
    obtain ⟨m', hm', hid⟩ := List.mem_map.mp hid
    obtain ⟨hm', ht⟩ := List.mem_filter.mp hm'
    exact List.inj_on_of_nodup_map hg.ids_nodup hm' hm hid ▸ ht
  rw [hlinks] at hrest
  exact hrest

theorem accounts_of_assembled {Made : Node β → Prop}
    (hmade : ∀ n, Made n → n.panel.Accounts fun _ ↦ none) (h : Assembled Made g) :
    g.Accounts Ledger.blank := by
  induction h with
  | empty name factories => exact accounts_of_no_slots rfl
  | @push g n _ hn hfresh ih =>
    have hnew : g.contains n.name = false := by
      rw [← Bool.not_eq_true]
      exact fun hc ↦ hfresh (contains_iff_mem.mp hc)
    exact Ledger.join_blank g.contains ▸ ih.pushNode (hmade n hn) hnew
  | @insert g m _ _ _ ih => exact Ledger.without_blank [m.target] ▸ ih.insertLink m

/-! ## Packets -/

theorem Accounts.store (ha : g.Accounts l) (place : Endpoint) (packet : Packet) :
    (g.modifyPort .input place (·.store (some packet))).Accounts (l.enter place packet) := by
  intro e p hp
  rw [Graph.port?_modifyPort (fun p ↦ p.store_name (some packet))] at hp
  by_cases he : e = place
  · rw [if_pos ⟨rfl, he⟩] at hp
    obtain ⟨q, hq, rfl⟩ := Option.map_eq_some_iff.mp hp
    rw [Ledger.enter, if_pos he]
    exact ⟨(ha place q hq).input, fun _ ↦ rfl⟩
  · rw [if_neg fun h ↦ he h.2] at hp
    rw [Ledger.enter, if_neg he]
    exact ha e p hp

/-- A pass writes on inputs that have a link, and nowhere else. -/
theorem Accounts.execute (ha : g.Accounts l) (hg : g.WellLinked) (hc : g.Cached)
    (hk : life.KeepsOutline) (hi : life.KeepsInputs) (stamp : Nat) :
    (g.execute life stamp).result.2.Accounts l := by
  intro e p hp
  cases hr : g.isReady with
  | false =>
    rw [Graph.execute, hr] at hp
    exact ha e p hp
  | true =>
    cases hlinked : p.isLinked with
    | false =>
      exact ha e p (hg.port?_of_execute (hc.plan hr) hr hk hi rfl hp hlinked)
    | true =>
      have hport := congrArg (Graph.port? · .input e) (agrees_execute hk g stamp).skeleton
      rw [port?_skeleton, port?_skeleton, hp, Option.map_some] at hport
      obtain ⟨q, hq, heq⟩ := Option.map_eq_some_iff.mp hport.symm
      have hdir : (q.store none).direction = (p.store none).direction := congrArg _ heq
      refine ⟨hdir.symm.trans (ha e q hq).input, fun hfree ↦ ?_⟩
      rw [Port.isSatisfied, hlinked] at hfree
      exact absurd hfree (by simp)

/-! ## Requests -/

variable {make : FactorySet → NodeDescription → Attempt (Node β)} {new : String → Option Packet}
  {stamp : Nat}

theorem Accounts.addNode (ha : g.Accounts l) {n : Node β} (hn : n.panel.Accounts new) :
    (g.addNode n stamp).result.2.Accounts
      (if (g.addNode n stamp).result.1.isOk then l.join g.contains new else l) := by
  rw [Graph.addNode]
  split
  · exact ha
  · rename_i hfresh
    exact ha.pushNode hn (by simpa using hfresh)

/-- Removing a link is refused, or the link is gone. -/
theorem removeLinkById_cases (id : LinkId) (g : Graph β) (stamp : Nat) :
    (∃ e, (g.removeLinkById id stamp).result = (.error e, g)) ∨
      ∃ m, g.link? id = some m ∧
        (g.removeLinkById id stamp).result = (.ok m, (g.dropLink id).invalidate) := by
  rw [removeLinkById]
  split
  · exact .inl ⟨_, rfl⟩
  · cases g.link? id with
    | none => exact .inl ⟨_, rfl⟩
    | some m => exact .inr ⟨m, rfl, rfl⟩

/-- **Every request keeps the account**, whether it is granted or not. -/
theorem Accounts.reply (ha : g.Accounts l) (hg : g.WellLinked) (hc : g.Cached)
    (hk : life.KeepsOutline) (hi : life.KeepsInputs) (r : Request β)
    (hnode : ∀ n, r.Brings make g n → n.panel.Accounts (r.brought new)) :
    (r.reply life make g stamp).result.2.Accounts
      (r.book g new l (r.reply life make g stamp).result.1) := by
  cases r with
  | addNode n => exact ha.addNode (hnode n rfl)
  | createNode d =>
    simp only [Request.reply, Graph.createNode, Act.bind_apply]
    cases hd : ((make g.factories d).run stamp).result with
    | error e => exact ha
    | ok n => exact ha.addNode (hnode n ⟨stamp, hd⟩)
  | removeNode name =>
    simp only [Request.reply, Act.bind_apply, Act.pure_apply]
    rcases removeNode_cases life name g stamp with ⟨e, heq, -⟩ | ⟨n, -, -, heq, -⟩
    · rw [heq]
      exact ha
    · rw [heq]
      exact (ha.dropLinksOf hg name).eraseNode name
  | renameNode old name =>
    simp only [Request.reply, Act.pure_apply, Graph.renameNode]
    split
    · rename_i hsame
      rw [Request.book_ok, Request.enter, hsame, Ledger.relabel_self]
      exact ha
    · split
      · exact ha
      · split
        · exact ha
        · rename_i hfresh
          exact ha.relabel hg fun hm ↦ hfresh (contains_iff_mem.mpr hm)
  | addLink source target =>
    simp only [Request.reply, Act.bind_apply, Act.pure_apply, Graph.addLink]
    cases g.linkType source target with
    | error e => exact ha
    | ok t => exact ha.insertLink _
  | removeLink target =>
    simp only [Request.reply, Act.bind_apply, Act.pure_apply, Graph.removeLink]
    cases hm : g.linkTo? target with
    | none => exact ha
    | some m =>
      dsimp only
      rcases removeLinkById_cases m.id g stamp with ⟨e, heq⟩ | ⟨m', hm', heq⟩
      · rw [heq]
        exact ha
      · obtain ⟨hmem, hid⟩ := link?_eq_some hm'
        obtain rfl : m' = m :=
          List.inj_on_of_nodup_map hg.ids_nodup hmem (List.mem_of_find?_eq_some hm) hid
        have htarget : m'.target = target := by simpa using List.find?_some hm
        have hdropped := ha.dropLink m'.id
        rw [hm', Option.toList_some, List.map_singleton, htarget] at hdropped
        rw [heq]
        exact hdropped
  | removeLinkById id =>
    simp only [Request.reply, Act.bind_apply, Act.pure_apply]
    rcases removeLinkById_cases id g stamp with ⟨e, heq⟩ | ⟨m, -, heq⟩
    · rw [heq]
      exact ha
    · rw [heq]
      exact ha.dropLink id
  | setInput place packet =>
    simp only [Request.reply, Act.pure_apply]
    rcases hg.setInput_cases place packet with ⟨e, heq⟩ | ⟨-, heq⟩
    · rw [heq]
      exact ha
    · rw [heq]
      exact ha.store place packet
  | setProtected b => exact l.without_nil.symm ▸ ha.of_inputs_eq rfl
  | addFactory factory =>
    simp only [Request.reply, Act.pure_apply, Graph.addFactory]
    cases g.factories.add factory with
    | error e => exact ha
    | ok set => exact l.without_nil.symm ▸ ha.of_inputs_eq rfl
  | compile =>
    rw [Request.book_of_enter_eq (show Request.enter g new l .compile = l from l.without_nil)]
    exact ha.of_inputs_eq (inputs_compile hi g stamp)
  | execute =>
    rw [Request.book_of_enter_eq (show Request.enter g new l .execute = l from l.without_nil)]
    exact ha.execute hg hc hk hi stamp
  | release =>
    rw [Request.book_of_enter_eq (show Request.enter g new l .release = l from l.without_nil)]
    exact ha.of_inputs_eq (inputs_release hi g stamp)
  | clear =>
    simp only [Request.reply, Graph.clear]
    split
    · exact ha
    · exact accounts_of_no_slots rfl

end Graph
end PortGraph
