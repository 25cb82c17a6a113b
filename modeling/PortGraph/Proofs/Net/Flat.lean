import PortGraph.Proofs.Net.Alike
import PortGraph.Proofs.Net.Driven
import PortGraph.Proofs.Net.Inline

/-!
# A flat net does what the nested one does

A pass over a net in whose place a node holds another one has a pass over the inner net in it
(`Net.PassThrough`): the inner net is fed what is read off the inputs of the node, and the outputs
of the node take over what the inner ones hold.  So if the pass succeeds it is a rehearsal of the
flat net (`Net.Unfolds.rehearsed`): the nodes of both nets have succeeded with the tasks they have
in it, in whichever order they come there.

`Net.inlined_runs` is the whole of it: if a net compiles and executes, so does what comes of it
when the net in one of its nodes takes the place of the node, and the same values are on all
outputs.
-/

set_option autoImplicit false

namespace PortGraph

open PortGraph.Graph

/-! ## Copies and calls -/

theorem Node.isCopy_of_form_eq {m n : Node Behaviour} (h : m.through .form = n.through .form) :
    m.IsCopy n :=
  ⟨Panel.map_eq_of_form_eq Port.declared_form (Node.through_eq_iff.mp h).1,
    (Node.through_eq_iff.mp h).2⟩

theorem Node.IsCopy.trans {m n o : Node Behaviour} (h : m.IsCopy n) (h' : n.IsCopy o) : m.IsCopy o :=
  ⟨fun side ↦ (h.ports side).trans (h'.ports side), h.behaviour.trans h'.behaviour⟩

/-- Which inner port a port stands for is a matter of the form. -/
theorem Node.binding?_form (n : Node Behaviour) (side : Direction) (port : String) :
    (n.through .form).binding? side port = n.binding? side port := by
  have hposition : (n.through .form).panel.position? side port = n.panel.position? side port := by
    cases side <;> exact Port.position?_map Port.form_name
  cases hb : n.behaviour with
  | operation op => rw [binding?, binding?, through, hb]; rfl
  | probe p => rw [binding?, binding?, through, hb]; rfl
  | nested g inputs outputs =>
    have hnested : (n.through .form).behaviour = .nested (Net.through .form g) inputs outputs := by
      rw [through, hb, Behaviour.through_nested]
    rw [binding?, binding?, hnested, hb, hposition]

theorem Node.binding?_congr {m n : Node Behaviour} (h : m.through .form = n.through .form)
    (side : Direction) (port : String) : m.binding? side port = n.binding? side port := by
  rw [← binding?_form m, h, binding?_form]

namespace Net

theorem node?_form_eq {g k : Net} (h : through .form k = through .form g) {name : String}
    {m : Node Behaviour} (hm : k.node? name = some m) :
    ∃ m', g.node? name = some m' ∧ m.through .form = m'.through .form := by
  have hnode := node?_through .form k name
  rw [h, node?_through, hm, Option.map_some, Option.map_eq_some_iff] at hnode
  obtain ⟨m', hm', heq⟩ := hnode
  exact ⟨m', hm', heq.symm⟩

theorem nodeNames_form_eq {g k : Net} (h : through .form k = through .form g) :
    k.nodeNames = g.nodeNames := by
  rw [← nodeNames_through .form k, h, nodeNames_through]

/-- Calls that leave the forms and the inputs as they are leave the flat net what it is. -/
theorem Inlines.congr {ρ : String → String} {n n' : Node Behaviour} {h h' g g' f f' : Net}
    (hi : Inlines ρ n h g f) (hname : n'.name = n.name) (hn : n'.through .form = n.through .form)
    (hh : through .form h' = through .form h) (hg : through .form g' = through .form g)
    (hgi : g'.inputs = g.inputs) (hf : through .form f' = through .form f)
    (hfi : f'.inputs = f.inputs) : Inlines ρ n' h' g' f' := by
  have hinlined : n'.inlined ρ = n.inlined ρ := by
    funext side e
    rw [Node.inlined, Node.inlined, hname, Node.binding?_congr hn]
  have hends : ∀ {γ : Type} (φ : Endpoint → Endpoint → γ) {j k : Net},
      through .form j = through .form k →
      j.links.map (fun l ↦ φ l.source l.target) = k.links.map fun l ↦ φ l.source l.target := by
    intro γ φ j k hjk
    have hlinks : j.links.map Link.unnumbered = k.links.map Link.unnumbered :=
      congrArg Graph.links hjk
    have hmap := congrArg (List.map fun l : Link ↦ φ l.source l.target) hlinks
    rwa [List.map_map, List.map_map] at hmap
  refine ⟨?_, fun name m hne hm ↦ ?_, fun name m hm ↦ ?_, ?_, fun e p hp hfree ↦ ?_⟩
  · rw [nodeNames_form_eq hf, nodeNames_form_eq hg, nodeNames_form_eq hh, hname]
    exact hi.names
  · obtain ⟨o, ho, hmo⟩ := node?_form_eq hg hm
    obtain ⟨q, hq, hqo⟩ := hi.outer name o (hname ▸ hne) ho
    obtain ⟨q', hq', hqq⟩ := node?_form_eq hf.symm hq
    exact ⟨q', hq', (Node.isCopy_of_form_eq hqq.symm).trans
      (hqo.trans (Node.isCopy_of_form_eq hmo.symm))⟩
  · obtain ⟨o, ho, hmo⟩ := node?_form_eq hh hm
    obtain ⟨q, hq, hqo⟩ := hi.inner name o ho
    obtain ⟨q', hq', hqq⟩ := node?_form_eq hf.symm hq
    exact ⟨q', hq', (Node.isCopy_of_form_eq hqq.symm).trans
      (hqo.trans (Node.isCopy_of_form_eq hmo.symm))⟩
  · change (f'.links.map fun l ↦ (l.source, l.target)).Perm _
    rw [hends (fun source target ↦ (source, target)) hf, hinlined,
      hends (fun source target ↦ (n.inlined ρ .output source, n.inlined ρ .input target)) hg,
      hends (fun source target ↦ (source.relocate ρ, target.relocate ρ)) hh]
    exact hi.links
  · rw [port?_of_inputs_eq hgi] at hp
    rw [hinlined, port?_of_inputs_eq hfi]
    exact hi.values e p hp hfree

/-! ## A pass in a pass -/

/-- **A pass over the net `g` led to `g'`, and in it a pass over the net in its node `n` led to
`h'`**: `h` is what the node made of that net when it had fed it. -/
structure PassThrough (n : Node Behaviour) (h h' g g' : Net) : Prop where
  /-- An open inner input was fed what is read off the input that stands for it. -/
  fed : ∀ e p, h.port? .input e = some p → p.isLinked = false → ∃ q ∈ n.panel.inputs,
    n.binding? .input q.name = some e ∧ q.declared = p.declared.mirrored .input q.name ∧
      p.isExposed = true ∧ p.stored = (q.supplied g.links g'.held n.name).data
  /-- An output took over what the inner output holds that it stands for. -/
  taken : ∀ q ∈ n.panel.outputs, ∀ e, n.binding? .output q.name = some e →
    g'.held ⟨n.name, q.name⟩ = h'.held e

/-- A net with another one in a node passes through it if it succeeds. -/
theorem IsLive.exists_passThrough {level : Nat} {g g' h : Net} (hg : g.IsLive level) {stamp : Nat}
    (hok : (Graph.execute (Behaviour.life (level + 1)) g stamp).result = (.ok (), g'))
    {n : Node Behaviour} (hn : g.node? n.name = some n) {inputs outputs : List Endpoint}
    (hb : n.behaviour = .nested h inputs outputs) :
    ∃ inner fed k n' stamp', fed.IsLive inner ∧ through .form fed = through .form h ∧
      (Graph.execute (Behaviour.life (inner + 1)) fed stamp').result = (.ok (), k) ∧
      PassThrough n fed k g g' ∧ g'.node? n.name = some n' ∧
      n'.behaviour = .nested k inputs outputs := by
  have hslot := mem_of_node? hn
  have hmirrors := ((hg.node hslot).isBuiltin.mirrors hb).1
  have hnd : ∀ side, ((n.panel.ports side).map Port.name).Nodup :=
    (hg.wellLinked.regular _ hslot).ports_nodup
  obtain ⟨stamp', n', hrun, hn'⟩ := hg.wellLinked.settled_of_ok hg.plan hg.isReady
    (keepsOutline_life (level + 1)) hok hslot
  -- the node was handed over with its inputs supplied, and executed its net from there
  obtain ⟨inner, fed, rfl, hfed, hfeeds, hseen, hrest⟩ :=
    (hg.supplied hslot g.links g'.held).execute_nested hb stamp'
  rcases hrest with ⟨e, k, -, herr⟩ | ⟨k, hpass, hk, -, heq⟩
  · rw [hrun] at herr
    exact absurd herr (by simp)
  obtain rfl := (Prod.mk.inj (hrun.symm.trans heq)).2
  have hform := hseen .form
  have hkform := form_execute (inner + 1) fed stamp'
  rw [hpass] at hkform
  have hsame := hmirrors.congr (fun _ ↦ rfl) hform
  have hkm := hmirrors.congr (fun _ ↦ rfl) (hkform.trans hform)
  refine ⟨inner, fed, k, _, stamp', hfed, hform, hpass, ⟨fun e p hp hfree ↦ ?_,
    fun q hq e he ↦ ?_⟩, hn', rfl⟩
  · obtain ⟨i, o, ho, hi, hdeclared, hexposed, hstored⟩ := hfeeds e p hp hfree
    have hinputs : (n.panel.inputs.map (Port.supplied g.links g'.held n.name))[i]? = some o := ho
    rw [List.getElem?_map, Option.map_eq_some_iff] at hinputs
    obtain ⟨q, hq, rfl⟩ := hinputs
    rw [Port.declared_supplied, Port.supplied_name] at hdeclared
    refine ⟨q, List.mem_of_getElem? hq, ?_, hdeclared, hexposed, hstored⟩
    exact (Node.binding?_eq_some_iff hb hsame (hnd .input)).mpr
      ⟨i, q, hq, rfl, hsame.inputPlaces ▸ hi⟩
  · obtain ⟨i, o, ho, hname, hi⟩ := (Node.binding?_eq_some_iff hb hkm (hnd .output)).mp he
    have hlength : n.panel.outputs.length = outputs.length := by
      rw [hmirrors.outputPlaces, List.length_map]
      exact (hmirrors.forall₂ .output).length_eq
    -- the output at the position of the inner one took over what that holds
    have hmem : o.store (k.held e) ∈ Behaviour.takeOver k n.panel.outputs outputs := by
      rw [Behaviour.takeOver_held hk.wellLinked hk.isBuiltin hlength]
      refine List.mem_of_getElem? (i := i) ?_
      rw [List.getElem?_zipWith_eq_some]
      exact ⟨o, e, ho, hkm.outputPlaces ▸ hi, rfl⟩
    have hg' := hg.execute stamp
    rw [hok] at hg'
    have hport := hg'.wellLinked.port?_of_mem (mem_of_node? hn')
      (show _ ∈ Panel.ports _ .output from hmem)
    have hplace : (⟨n.name, (o.store (k.held e)).name⟩ : Endpoint) = ⟨n.name, q.name⟩ := by
      rw [Port.store_name, hname]
    rw [← hplace, held, hport, Option.bind_some]
    rfl

/-! ## The flat net is rehearsed -/

namespace Unfolds

variable {ρ : String → String} {n : Node Behaviour} {h h' g g' f : Net}

/-- What became of the nodes of both nets. -/
def done (ρ : String → String) (h h' g' : Net) (name : String) : Option (Node Behaviour) :=
  match h.nodeNames.find? (fun a ↦ ρ a = name) with
  | some a => h'.node? a
  | none => g'.node? name

theorem done_outer (u : Unfolds ρ n h g f) {a : String} (ha : a ∈ g.nodeNames) (hne : a ≠ n.name) :
    done ρ h h' g' a = g'.node? a := by
  have hnone : h.nodeNames.find? (fun b ↦ ρ b = a) = none :=
    List.find?_eq_none.mpr fun b hb hab ↦ u.ne ha hne hb (of_decide_eq_true hab).symm
  rw [done, hnone]

theorem done_inner (u : Unfolds ρ n h g f) {a : String} (ha : a ∈ h.nodeNames) :
    done ρ h h' g' (ρ a) = h'.node? a := by
  have hsome : (h.nodeNames.find? fun b ↦ ρ b = ρ a).isSome = true :=
    List.find?_isSome.mpr ⟨a, ha, decide_eq_true rfl⟩
  obtain ⟨b, hb⟩ := Option.isSome_iff_exists.mp hsome
  have hba := List.find?_some hb
  obtain rfl := u.inj (List.mem_of_find?_eq_some hb) ha (of_decide_eq_true hba)
  rw [done, hb]

/-- An output of the outer net holds what is found where it went. -/
theorem output_inlined (u : Unfolds ρ n h g f) (hpass : PassThrough n h h' g g') {e : Endpoint}
    {p : Port} (hp : g.port? .output e = some p) :
    (done ρ h h' g' (n.inlined ρ .output e).node).bind (·.output? (n.inlined ρ .output e).port) =
      (g'.held e).map Packet.value := by
  rcases u.inlined_cases hp with ⟨hmem, hne, hat⟩ | ⟨i, q, hnode, hmem, hbinding, hat, hq, -⟩
  · rw [hat, u.done_outer hmem hne, map_value_held]
  · have hheld : g'.held e = h'.held i := by
      rw [← hpass.taken p hmem i hbinding]
      obtain ⟨m, -, hport⟩ := Option.bind_eq_some_iff.mp hp
      have hplace : e = ⟨n.name, p.name⟩ := Endpoint.eq_of hnode (Port.mem_of_named? hport).2.symm
      rw [hplace]
    rw [hat, hheld, map_value_held]
    exact congrArg (Option.bind · _) (u.done_inner (node_mem_of_port? hq))

/-- What is read off an input of the outer net is read off it where it went. -/
theorem supplied_inlined (u : Unfolds ρ n h g f) (hpass : PassThrough n h h' g g')
    (hgb : g.IsBuiltin) (hgo : g.IsOutermost) (hfb : f.IsBuiltin) (hfo : f.IsOutermost)
    (read : Endpoint → Option Packet) {e : Endpoint} {p q : Port}
    (hp : g.port? .input e = some p) (hq : f.port? .input (n.inlined ρ .input e) = some q)
    (hdefault : q.default.map Packet.unstamped = p.default.map Packet.unstamped)
    (hread : ∀ l ∈ f.links, l.target.node = (n.inlined ρ .input e).node →
      (read l.source).map Packet.value =
        (done ρ h h' g' l.source.node).bind (·.output? l.source.port)) :
    (q.supplied f.links read (n.inlined ρ .input e).node).data.map Packet.value =
      (p.supplied g.links g'.held e.node).data.map Packet.value := by
  have hlinked := u.isLinked_inlined hp hq
  obtain ⟨r, hr, hmem, rfl⟩ := u.outer.exists_slot hp
  obtain ⟨s, hs, hmem', hplace⟩ := u.flat.exists_slot hq
  rcases u.outer.supplied_cases hr hmem g'.held with ⟨hl, k, hk, ht, -, heq⟩ | ⟨hfree, heq⟩
  · obtain ⟨l, hlf, hs', ht'⟩ := u.exists_outer_link hk
    obtain ⟨o, ho, -⟩ := u.outer.exists_source hk
    have htarget : l.target = ⟨(n.inlined ρ .input ⟨r.key, p.name⟩).node, q.name⟩ := by
      rw [ht', ht, hplace]
    have hsupplied : q.supplied f.links read _ = q.store (read l.source) :=
      Port.supplied_of_mem (u.flat.once _) hlf htarget
    rw [heq, hsupplied, Port.data_store_of_isLinked hl,
      Port.data_store_of_isLinked (hlinked.trans hl), hread l hlf (congrArg (·.node) htarget), hs',
      u.output_inlined hpass ho]
  · have hfree' : q.isLinked = false := hlinked.trans hfree
    rcases u.flat.supplied_cases hs hmem' read with ⟨hl, -⟩ | ⟨-, heq'⟩
    · exact absurd (hl.symm.trans hfree') (by simp)
    obtain ⟨q', hq', hvalue⟩ := u.inlines.values _ p hp hfree
    obtain rfl : q = q' := Option.some.inj (hq.symm.trans hq')
    have hdefault' := Port.map_unstamped_eq_iff.mp hdefault
    have hkey : (n.inlined ρ .input ⟨r.key, p.name⟩).node = s.key := congrArg Endpoint.node hplace
    rw [heq, hkey, heq',
      Port.data_of_free ((hgb r hr).direction .input hmem) hfree (hgo r hr p hmem),
      Port.data_of_free ((hfb s hs).direction .input hmem') hfree' (hfo s hs q hmem'),
      Option.map_or, Option.map_or, hvalue, hdefault']

/-- An input of a copied outer node reads what it reads in the outer net. -/
theorem reading_outer (u : Unfolds ρ n h g f) (hpass : PassThrough n h h' g g')
    (hgb : g.IsBuiltin) (hgo : g.IsOutermost) (hfb : f.IsBuiltin) (hfo : f.IsOutermost)
    (read : Endpoint → Option Packet) {s r : Slot Behaviour} (hs : s ∈ f.slots) (hr : r ∈ g.slots)
    (hkey : s.key = r.key) (hne : r.key ≠ n.name) {p q : Port} (hp : p ∈ r.node.panel.inputs)
    (hq : q ∈ s.node.panel.inputs) (hpq : q.declared = p.declared)
    (hread : ∀ l ∈ f.links, l.target.node = s.key →
      (read l.source).map Packet.value =
        (done ρ h h' g' l.source.node).bind (·.output? l.source.port)) :
    (q.supplied f.links read s.key).reading = (p.supplied g.links g'.held r.key).reading := by
  have hname : q.name = p.name := congrArg (·.name) hpq
  have hinlined : n.inlined ρ .input ⟨r.key, p.name⟩ = ⟨s.key, q.name⟩ := by
    rw [inlined_of_ne hne, hkey, hname]
  have hport := u.outer.input?_of_mem hr hp
  have hport' := hinlined ▸ u.flat.input?_of_mem hs hq
  have hvalue := u.supplied_inlined hpass hgb hgo hfb hfo read hport hport'
    (congrArg (·.default) hpq)
  rw [hinlined] at hvalue
  refine Port.reading_congr ?_ ?_ (hvalue hread)
  · rw [Port.declared_supplied, Port.declared_supplied, hpq]
  · rw [Port.isLinked_supplied, Port.isLinked_supplied, u.isLinked_inlined hport hport']

/-- An input of a copied inner node reads what it reads in the inner net: what comes along its link, or
what the inner net was fed. -/
theorem reading_inner {level stamp : Nat} (u : Unfolds ρ n h g f)
    (hpass : PassThrough n h h' g g') (hg : g.IsLive level) (hgo : g.IsOutermost)
    (hok : (Graph.execute (Behaviour.life (level + 1)) g stamp).result = (.ok (), g'))
    (hfb : f.IsBuiltin) (hfo : f.IsOutermost) (read : Endpoint → Option Packet)
    {s r : Slot Behaviour} (hs : s ∈ f.slots) (hr : r ∈ h.slots) (hkey : s.key = ρ r.key)
    {p q : Port} (hp : p ∈ r.node.panel.inputs) (hq : q ∈ s.node.panel.inputs)
    (hpq : q.declared = p.declared)
    (hread : ∀ l ∈ f.links, l.target.node = s.key →
      (read l.source).map Packet.value =
        (done ρ h h' g' l.source.node).bind (·.output? l.source.port)) :
    (q.supplied f.links read s.key).reading = (p.supplied h.links h'.held r.key).reading := by
  have hname : q.name = p.name := congrArg (·.name) hpq
  have hplace : (⟨r.key, p.name⟩ : Endpoint).relocate ρ = ⟨s.key, q.name⟩ := by
    rw [Endpoint.relocate, hkey, hname]
  have hport := u.inner.input?_of_mem hr hp
  have hport' := hplace ▸ u.flat.input?_of_mem hs hq
  rcases u.inner.supplied_cases hr hp h'.held with ⟨hlinked, k, hk, ht, -, heq⟩ | ⟨hfree, heq⟩
  · -- a link of the inner net leads to both
    obtain ⟨l, hl, hsource, htarget⟩ := u.exists_inner_link hk
    have hlinked' := u.isLinked_relocate hport hlinked hport'
    have hends : l.target = ⟨s.key, q.name⟩ := by rw [htarget, ht, hplace]
    obtain ⟨o, ho, -⟩ := u.inner.exists_source hk
    rw [heq, Port.supplied_of_mem (u.flat.once _) hl hends]
    refine Port.reading_congr (by rw [Port.declared_store, Port.declared_store, hpq])
      (hlinked'.trans hlinked.symm) ?_
    rw [Port.data_store_of_isLinked hlinked, Port.data_store_of_isLinked hlinked',
      hread l hl (congrArg Endpoint.node hends), hsource, map_value_held]
    exact congrArg (Option.bind · _) (u.done_inner (node_mem_of_port? ho))
  · -- the inner input was fed what is read off the input that stands for it
    obtain ⟨o, ho, hbinding, hmirror, hexposed, hstored⟩ := hpass.fed _ p hport hfree
    have hat := inlined_of_binding (ρ := ρ) hbinding
    have hnode := u.outer.input?_of_mem (mem_of_node? u.node) ho
    rw [← hat] at hport'
    have hdefault : q.default.map Packet.unstamped = o.default.map Packet.unstamped := by
      have hp' : q.default.map Packet.unstamped = p.default.map Packet.unstamped :=
        congrArg (·.default) hpq
      have ho' : o.default.map Packet.unstamped = p.default.map Packet.unstamped :=
        congrArg (·.default) hmirror
      rw [hp', ho']
    have hvalue := u.supplied_inlined hpass hg.isBuiltin hgo hfb hfo read hnode hport' hdefault
    rw [hat, hplace] at hvalue
    have harrival : (o.supplied g.links g'.held n.name).data = p.data := by
      rw [Port.data_of_isExposed hexposed, hstored]
    have hsame : (q.supplied f.links read s.key).data.map Packet.value = p.data.map Packet.value :=
      (hvalue hread).trans (congrArg (Option.map Packet.value) harrival)
    rw [heq]
    refine Port.reading_eq_of_arrived (by rw [Port.declared_supplied, hpq]) hfree (fun hlinked ↦ ?_)
      hsame
    -- if there is a link now, a value came along the one that it was
    rw [Port.isLinked_supplied, u.isLinked_inlined hnode hport'] at hlinked
    rw [← Option.isSome_map (f := Packet.value), hsame, Option.isSome_map, ← harrival]
    rcases u.outer.supplied_cases (mem_of_node? u.node) ho g'.held with
      ⟨-, k, hk, -, -, heq'⟩ | ⟨hfree', -⟩
    · rw [heq', Port.data_store_of_isLinked hlinked]
      exact hg.isSome_held hok hk
    · exact absurd (hlinked.symm.trans hfree') (by simp)

/-- **The flat net is rehearsed** when the nested one succeeds. -/
theorem rehearsed {level level' inner stamp stamp' : Nat} (u : Unfolds ρ n h g f)
    (hpass : PassThrough n h h' g g') (hg : g.IsLive level) (hgo : g.IsOutermost)
    (hok : (Graph.execute (Behaviour.life (level + 1)) g stamp).result = (.ok (), g'))
    (hh : h.IsLive inner)
    (hrun : (Graph.execute (Behaviour.life (inner + 1)) h stamp').result = (.ok (), h'))
    (hf : f.IsLive level') (hfo : f.IsOutermost) : f.Rehearsed (done ρ h h' g') := by
  intro s hs
  -- each node of the flat net does what the node does that it is a copy of
  rcases u.slot_cases hs with ⟨r, hr, hkey, hne, hcopy⟩ | ⟨r, hr, hkey, hcopy⟩
  · obtain ⟨stamp₁, m, hm, hput⟩ := hg.wellLinked.settled_of_ok hg.plan hg.isReady
      (keepsOutline_life (level + 1)) hok hr
    have hdone : done ρ h h' g' s.key = some m := by
      rw [hkey, u.done_outer (List.mem_map_of_mem hr) hne, hput]
    refine ⟨level, _, m, stamp₁, hg.supplied hr g.links g'.held, hm, hdone, fun read hread ↦
      ⟨?_, hcopy.ports .output, hcopy.behaviour⟩⟩
    rw [Slot.supplied, Slot.supplied, Node.mapPanel, Node.mapPanel, List.map_map, List.map_map]
    exact map_eq_of_map_eq (hcopy.ports .input) fun p hp q hq hpq ↦
      u.reading_outer hpass hg.isBuiltin hgo hf.isBuiltin hfo read hs hr hkey hne hp hq hpq hread
  · obtain ⟨stamp₁, m, hm, hput⟩ := hh.wellLinked.settled_of_ok hh.plan hh.isReady
      (keepsOutline_life (inner + 1)) hrun hr
    have hdone : done ρ h h' g' s.key = some m := by
      rw [hkey, u.done_inner (List.mem_map_of_mem hr), hput]
    refine ⟨inner, _, m, stamp₁, hh.supplied hr h.links h'.held, hm, hdone, fun read hread ↦
      ⟨?_, hcopy.ports .output, hcopy.behaviour⟩⟩
    rw [Slot.supplied, Slot.supplied, Node.mapPanel, Node.mapPanel, List.map_map, List.map_map]
    exact map_eq_of_map_eq (hcopy.ports .input) fun p hp q hq hpq ↦
      u.reading_inner hpass hg hgo hok hf.isBuiltin hfo read hs hr hkey hp hq hpq hread

/-- **The flat net executes if the nested one does**, and its nodes come out alike. -/
theorem execute {level level' inner stamp stamp' : Nat} (u : Unfolds ρ n h g f)
    (hpass : PassThrough n h h' g g') (hg : g.IsLive level) (hgo : g.IsOutermost)
    (hok : (Graph.execute (Behaviour.life (level + 1)) g stamp).result = (.ok (), g'))
    (hh : h.IsLive inner)
    (hrun : (Graph.execute (Behaviour.life (inner + 1)) h stamp').result = (.ok (), h'))
    (hf : f.IsLive level') (hfo : f.IsOutermost) (stamp'' : Nat) :
    ∃ f', (Graph.execute (Behaviour.life (level' + 1)) f stamp'').result = (.ok (), f') ∧
      (∀ name m, name ≠ n.name → g'.node? name = some m →
        ∃ m', f'.node? name = some m' ∧ m.Alike m') ∧
      ∀ name m, h'.node? name = some m → ∃ m', f'.node? (ρ name) = some m' ∧ m.Alike m' := by
  obtain ⟨hsuccess, halike⟩ :=
    hf.execute_rehearsed (u.rehearsed hpass hg hgo hok hh hrun hf hfo) stamp''
  have hfinal := hf.execute stamp''
  have hfnames := nodeNames_form_eq (form_execute (level' + 1) f stamp'')
  have hgnames := nodeNames_form_eq (form_execute (level + 1) g stamp)
  have hhnames := nodeNames_form_eq (form_execute (inner + 1) h stamp')
  rw [hok] at hgnames
  rw [hrun] at hhnames
  -- what became of a node is found in the flat net
  have hfind : ∀ {name : String} {m : Node Behaviour},
      name ∈ g.nodeNames.filter (· ≠ n.name) ++ h.nodeNames.map ρ →
      done ρ h h' g' name = some m → ∃ m',
        (Graph.execute (Behaviour.life (level' + 1)) f stamp'').result.2.node? name = some m' ∧
          m.Alike m' := by
    intro name m hmem hdone
    have hname := hfnames ▸ u.inlines.names.symm.subset hmem
    obtain ⟨s, hs, rfl⟩ := List.mem_map.mp hname
    obtain ⟨m', hm', hlike⟩ := halike s hs
    rw [hdone, Option.some.injEq] at hm'
    exact ⟨s.node, hfinal.wellLinked.node?_of_mem hs, hm' ▸ hlike⟩
  refine ⟨_, Prod.ext hsuccess rfl, fun name m hne hm ↦ ?_, fun name m hm ↦ ?_⟩
  · have hmem : name ∈ g.nodeNames := hgnames ▸ List.mem_map_of_mem (mem_of_node? hm)
    refine hfind (List.mem_append_left _ (List.mem_filter.mpr ⟨hmem, decide_eq_true hne⟩)) ?_
    rw [u.done_outer hmem hne, hm]
  · have hmem : name ∈ h.nodeNames := hhnames ▸ List.mem_map_of_mem (mem_of_node? hm)
    refine hfind (List.mem_append_right _ (List.mem_map_of_mem hmem)) ?_
    rw [u.done_inner hmem, hm]

/-- An output of the node holds the value of the inner output that it stands for. -/
theorem exists_held {level stamp : Nat} (u : Unfolds ρ n h g f) (hpass : PassThrough n h h' g g')
    (hg : g.IsLive level)
    (hok : (Graph.execute (Behaviour.life (level + 1)) g stamp).result = (.ok (), g'))
    {n' : Node Behaviour} (hn : g'.node? n.name = some n') {q : Port} (hq : q ∈ n'.panel.outputs) :
    ∃ e packet, n.binding? .output q.name = some e ∧ h'.held e = some packet ∧
      q.stored = some packet := by
  have hslot := mem_of_node? hn
  obtain ⟨packet, hpacket⟩ := Option.isSome_iff_exists.mp (hg.isSome_outputs hok _ hslot q hq)
  have hfinal := hg.execute stamp
  have hform := form_execute (level + 1) g stamp
  rw [hok] at hfinal hform
  have hport := hfinal.wellLinked.port?_of_mem hslot (show q ∈ n'.panel.ports .output from hq)
  -- the output is one that the node had before
  have hports := port?_form_eq hform .output ⟨n.name, q.name⟩
  rw [hport, Option.map_some] at hports
  obtain ⟨p, hp, hpq⟩ := Option.map_eq_some_iff.mp hports.symm
  have hname : p.name = q.name := congrArg (·.name) hpq
  rcases u.inlined_cases hp with ⟨-, hne, -⟩ | ⟨e, -, -, hmem, hbinding, -⟩
  · exact absurd rfl hne
  have hheld := hpass.taken p hmem e hbinding
  rw [hname, held, hport, Option.bind_some, hpacket] at hheld
  exact ⟨e, packet, hname ▸ hbinding, hheld.symm, hpacket⟩

theorem isBuiltin (u : Unfolds ρ n h g f) (hg : g.IsBuiltin) (hh : h.IsBuiltin) : f.IsBuiltin := by
  have hcopy : ∀ {m m' : Node Behaviour}, m'.IsCopy m → m.IsBuiltin → m'.IsBuiltin :=
    fun hcopy hm ↦ hm.congr hcopy.ports hcopy.behaviour
  intro s hs
  rcases u.slot_cases hs with ⟨r, hr, -, -, hr'⟩ | ⟨r, hr, -, hr'⟩
  · exact hcopy hr' (hg r hr)
  · exact hcopy hr' (hh r hr)

end Unfolds

/-! ## Compiling and executing -/

/-- A net that compiled can be executed by its nodes. -/
theorem Coherent.isLive_of_compile {g g' : Net} (h : g.Coherent) (hb : g.IsBuiltin) {stamp : Nat}
    (hc : (g.compile stamp).result = (.ok (), g')) :
    g'.IsLive (Behaviour.slotsDepth g'.slots) ∧ through .form g' = through .form g ∧
      g'.inputs = g.inputs := by
  have hc' : (Graph.compile (Behaviour.life (Behaviour.slotsDepth g.slots + 1)) g stamp).result =
    (.ok (), g') := hc
  have hcoherent := (h.compileWith (Behaviour.keeps_life (Behaviour.slotsDepth g.slots + 1))
    (Nat.le_succ _) stamp).1
  have hready := Graph.isReady_of_compile (keepsOutline_life _) (coherent_iff.mp h).1
    (congrArg Prod.fst hc')
  have hform := form_compile (Behaviour.slotsDepth g.slots + 1) g stamp
  have hinputs := inputs_compile (keepsInputs_life (Behaviour.slotsDepth g.slots + 1)) g stamp
  rw [hc'] at hcoherent hready hform hinputs
  exact ⟨⟨hcoherent, hready, Nat.le_refl _, hb.congr hform⟩, hform, hinputs⟩

/-- The net in a node compiles if the whole net does. -/
theorem verdict_of_nested {g h : Net} (hg : g.WellLinked) (hv : g.verdict = .ok ())
    {s : Slot Behaviour} (hs : s ∈ g.slots) {inputs outputs : List Endpoint}
    (hb : s.node.behaviour = .nested h inputs outputs) : h.verdict = .ok () := by
  have hnode := ((verdict_eq_ok_iff hg).mp hv).2 s hs
  rw [hb, Behaviour.verdict] at hnode
  rw [verdict]
  cases hh : h.verdictWith (Behaviour.verdicts h.slots) with
  | ok _ => rfl
  | error e => exact absurd hnode (by simp [hh, Except.mapError])

/-- **A node that holds a net does what the net would do in its place.**  Let a net of built-in
nodes compile and execute, and let a flat net be what comes of it when the net in one of its nodes
takes the place of the node.  Then the flat net compiles and executes as well.  The outer nodes come
out as they do in the nested net and the inner nodes as they do in the inner net, with the same
values on all outputs at every depth; and every output of the node holds the value of the inner
output that it stands for. -/
theorem inlined_runs {ρ : String → String} {n : Node Behaviour} {h g f g₁ g₂ : Net}
    {inputs outputs : List Endpoint} {stamp₁ stamp₂ : Nat} (hg : g.Reachable) (hb : g.IsBuiltin)
    (ho : g.IsOutermost) (hn : g.node? n.name = some n)
    (hnested : n.behaviour = .nested h inputs outputs) (hf : f.Reachable) (hfo : f.IsOutermost)
    (hi : Inlines ρ n h g f) (hc : (g.compile stamp₁).result = (.ok (), g₁))
    (he : (g₁.execute stamp₂).result = (.ok (), g₂)) (stamp₃ stamp₄ : Nat) :
    ∃ f₁ f₂, (f.compile stamp₃).result = (.ok (), f₁) ∧
      (f₁.execute stamp₄).result = (.ok (), f₂) ∧
      (∀ name m, name ≠ n.name → g₂.node? name = some m →
        ∃ m', f₂.node? name = some m' ∧ m.Alike m') ∧
      ∃ n₂ h₂, g₂.node? n.name = some n₂ ∧ n₂.behaviour = .nested h₂ inputs outputs ∧
        (∀ name m, h₂.node? name = some m → ∃ m', f₂.node? (ρ name) = some m' ∧ m.Alike m') ∧
        ∀ q ∈ n₂.panel.outputs, ∃ e packet, n.binding? .output q.name = some e ∧
          h₂.held e = some packet ∧ q.stored = some packet := by
  have hslot := mem_of_node? hn
  obtain ⟨hgwell, -, hgsound⟩ := coherent_iff.mp hg.coherent
  obtain ⟨hmirrors, hhb⟩ := (hb _ hslot).mirrors hnested
  have hhwell := (coherent_iff.mp (hgsound _ hslot h inputs outputs hnested).1).1
  have u : Unfolds ρ n h g f :=
    ⟨hi, hgwell, hhwell, (coherent_iff.mp hf.coherent).1, hn, h, inputs, outputs, hnested, hmirrors⟩
  -- the flat net compiles
  have hfb := u.isBuiltin hb hhb
  have hgv : g.verdict = .ok () :=
    (hg.coherent.compile_verdict hb (Nat.le_refl _) stamp₁).symm.trans (congrArg Prod.fst hc)
  have hfv : (f.compile stamp₃).result.1 = .ok () :=
    (hf.coherent.compile_verdict hfb (Nat.le_refl _) stamp₃).trans
      (u.verdict ho hgv (verdict_of_nested hgwell hgv hslot hnested))
  obtain ⟨f₁, hf₁⟩ : ∃ f₁, (f.compile stamp₃).result = (.ok (), f₁) := ⟨_, Prod.ext hfv rfl⟩
  obtain ⟨hglive, hgform, hginputs⟩ := hg.coherent.isLive_of_compile hb hc
  obtain ⟨hflive, hfform, hfinputs⟩ := hf.coherent.isLive_of_compile hfb hf₁
  -- the node when its net is compiled, and what it does in the pass
  obtain ⟨n₁, hn₁, hnform⟩ := node?_form_eq hgform.symm hn
  have hname : n₁.name = n.name := (hglive.wellLinked.regular _ (mem_of_node? hn₁)).name_eq
  obtain ⟨h₁, hnested₁, hhform⟩ := Behaviour.eq_nested_of_form_eq
    ((Node.through_eq_iff.mp hnform.symm).2.trans (congrArg (Behaviour.through .form) hnested))
  rw [← hname] at hn₁
  obtain ⟨inner, fed, h₂, n₂, stamp, hfed, hfedform, hrun, hpass, hn₂, hnested₂⟩ :=
    hglive.exists_passThrough he hn₁ hnested₁
  have hmirrors₁ := ((hglive.node (mem_of_node? hn₁)).isBuiltin.mirrors hnested₁).1
  have u₁ : Unfolds ρ n₁ fed g₁ f₁ := ⟨hi.congr hname hnform.symm (hfedform.trans hhform) hgform
    hginputs hfform hfinputs, hglive.wellLinked, hfed.wellLinked, hflive.wellLinked, hn₁, h₁, inputs,
    outputs, hnested₁, hmirrors₁.congr (fun _ ↦ rfl) hfedform⟩
  obtain ⟨f₂, hf₂, houter, hinner⟩ := u₁.execute hpass hglive (ho.congr hgform) he hfed hrun hflive
    (hfo.congr hfform) stamp₄
  refine ⟨f₁, f₂, hf₁, hf₂, hname ▸ houter, n₂, h₂, hname ▸ hn₂, hnested₂, hinner, fun q hq ↦ ?_⟩
  obtain ⟨e, packet, hbinding, hheld, hstored⟩ := u₁.exists_held hpass hglive he hn₂ hq
  exact ⟨e, packet, Node.binding?_congr hnform.symm .output q.name ▸ hbinding, hheld, hstored⟩

end Net

/-! ## A box of nodes that add one -/

/-- A set that knows nodes that add one, and nodes that hold nets of such. -/
def plainSet : FactorySet :=
  ⟨[⟨"plain", [⟨"Plain", "Plain", .increment⟩, ⟨nestedType, "Graphs", .nested⟩]⟩]⟩

/-- Two nodes in a row and one apart from them, in a box with one node before it and one behind. -/
def boxedDescription : GraphDescription where
  name := "boxed"
  nodes :=
    [⟨"first", "Plain", none, none⟩,
      ⟨"box", "Graph", some ({
          name := "inner"
          nodes := ["step", "next", "apart"].map (⟨·, "Plain", none, none⟩)
          links := [⟨"step", "out", "next", "in"⟩] : GraphDescription }).toConfig, none⟩,
      ⟨"last", "Plain", none, none⟩]
  links := [⟨"first", "out", "box", "in"⟩, ⟨"box", "out", "last", "in"⟩]

/-- The same nodes without the box. -/
def flatDescription : GraphDescription where
  name := "flat"
  nodes := ["box.step", "first", "box.next", "box.apart", "last"].map (⟨·, "Plain", none, none⟩)
  links := [⟨"first", "out", "box.step", "in"⟩, ⟨"box.next", "out", "last", "in"⟩,
    ⟨"box.step", "out", "box.next", "in"⟩]

/-- The net of a description, if it can be made. -/
def Net.loaded (d : GraphDescription) : Net :=
  ((Net.ofDescription plainSet d).run 0).result.toOption.getD { name := "" }

/-- The box. -/
def boxNode : Node Behaviour := ((Net.loaded boxedDescription).node? "box").getD sampleStep

/-- The net in the box. -/
def boxNet : Net := boxNode.inner?.getD { name := "" }

/-- Whether a node adds one. -/
def Node.isPlain (n : Node Behaviour) : Bool :=
  match n.behaviour with
  | .operation .increment => true
  | _ => false

theorem Node.behaviour_of_isPlain {n : Node Behaviour} (h : n.isPlain = true) :
    n.behaviour = .operation .increment := by
  rw [isPlain] at h
  split at h
  · assumption
  · exact absurd h (by simp)

/-- Built-in nodes with one operation are made alike. -/
theorem Node.IsBuiltin.isCopy {m n : Node Behaviour} {op : Operation} (hm : m.IsBuiltin)
    (hn : n.IsBuiltin) (hbm : m.behaviour = .operation op) (hbn : n.behaviour = .operation op) :
    m.IsCopy n := by
  have hm' := hm.declares hbm
  have hn' := hn.declares hbn
  refine ⟨fun side ↦ ?_, by rw [hbm, hbn]⟩
  cases side with
  | input => exact hm'.inputs.trans hn'.inputs.symm
  | output => exact hm'.outputs.trans hn'.outputs.symm

namespace Net

theorem reachable_loaded {d : GraphDescription}
    (h : ((Net.ofDescription plainSet d).run 0).result.isOk = true) :
    (loaded d).Reachable ∧ Net.IsStock (loaded d) := by
  obtain ⟨g, hg⟩ := exists_ok_of_isOk h
  have heq : loaded d = g := by
    rw [loaded, hg]
    rfl
  rw [heq]
  exact ⟨.described hg, isStock_of_load (by simp [FactorySet.IsProbeless, plainSet]) hg⟩

theorem boxNode_spec : (loaded boxedDescription).node? boxNode.name = some boxNode ∧
    ∃ inputs outputs, boxNode.behaviour = .nested boxNet inputs outputs := by
  have hname : boxNode.name = "box" := by decide +kernel
  have hfound : ((loaded boxedDescription).node? "box").isSome = true := by decide +kernel
  have hinner : boxNode.inner?.isSome = true := by decide +kernel
  obtain ⟨n, hn⟩ := Option.isSome_iff_exists.mp hfound
  obtain ⟨h, hh⟩ := Option.isSome_iff_exists.mp hinner
  have hbox : boxNode = n := by rw [boxNode, hn, Option.getD_some]
  have hnet : boxNet = h := by rw [boxNet, hh, Option.getD_some]
  refine ⟨by rw [hname, hn, hbox], ?_⟩
  rw [hnet]
  rw [Node.inner?] at hh
  split at hh
  · rename_i g inputs outputs hb
    exact ⟨inputs, outputs, Option.some.inj hh ▸ hb⟩
  · exact absurd hh (by simp)

theorem inlines_boxed : Inlines ("box." ++ ·) boxNode boxNet (loaded boxedDescription)
    (loaded flatDescription) := by
  obtain ⟨hg, hgstock⟩ := reachable_loaded (d := boxedDescription) (by decide +kernel)
  obtain ⟨hf, hfstock⟩ := reachable_loaded (d := flatDescription) (by decide +kernel)
  obtain ⟨hn, inputs, outputs, hb⟩ := boxNode_spec
  have hhb := ((hgstock.isBuiltin _ (mem_of_node? hn)).mirrors hb).2
  have hgwell := (coherent_iff.mp hg.coherent).1
  have hfwell := (coherent_iff.mp hf.coherent).1
  have hgplain : ((loaded boxedDescription).slots.all fun s ↦
      s.key = boxNode.name || s.node.isPlain) = true := by decide +kernel
  have hhplain : (boxNet.slots.all fun s ↦ s.node.isPlain) = true := by decide +kernel
  have hfplain : ((loaded flatDescription).slots.all fun s ↦ s.node.isPlain) = true := by
    decide +kernel
  have hnames : (loaded flatDescription).nodeNames.Perm
      ((loaded boxedDescription).nodeNames.filter (· ≠ boxNode.name) ++
        boxNet.nodeNames.map ("box." ++ ·)) := by decide +kernel
  -- every node but the box adds one
  have hcopy : ∀ {name : String} {m : Node Behaviour}, name ∈ (loaded flatDescription).nodeNames →
      m.IsBuiltin → m.isPlain = true →
      ∃ m', (loaded flatDescription).node? name = some m' ∧ m'.IsCopy m := by
    intro name m hmem hm hplain
    obtain ⟨s, hs, rfl⟩ := List.mem_map.mp hmem
    exact ⟨s.node, hfwell.node?_of_mem hs, (hfstock.isBuiltin s hs).isCopy hm
      (Node.behaviour_of_isPlain (List.all_eq_true.mp hfplain s hs)) (Node.behaviour_of_isPlain hplain)⟩
  refine ⟨hnames, fun name m hne hm ↦ ?_, fun name m hm ↦ ?_, by decide +kernel, fun e p hp hfree ↦ ?_⟩
  · have hs := mem_of_node? hm
    have hplain : m.isPlain = true := by simpa [hne] using List.all_eq_true.mp hgplain _ hs
    refine hcopy (hnames.symm.subset (List.mem_append_left _ ?_)) (hgstock.isBuiltin _ hs) hplain
    exact List.mem_filter.mpr ⟨List.mem_map_of_mem hs, decide_eq_true hne⟩
  · have hs := mem_of_node? hm
    refine hcopy (hnames.symm.subset (List.mem_append_right _ ?_)) (hhb _ hs)
      (List.all_eq_true.mp hhplain _ hs)
    exact List.mem_map_of_mem (List.mem_map_of_mem hs)
  · have hports : ((loaded boxedDescription).slots.all fun s ↦ s.node.panel.inputs.all fun p ↦
        ((loaded flatDescription).port? .input
          (boxNode.inlined ("box." ++ ·) .input ⟨s.key, p.name⟩)).isSome) = true := by
      decide +kernel
    obtain ⟨s, hs, hmem, rfl⟩ := hgwell.exists_slot hp
    obtain ⟨q, hq⟩ := Option.isSome_iff_exists.mp
      (List.all_eq_true.mp (List.all_eq_true.mp hports s hs) p hmem)
    obtain ⟨r, hr, hmem', -⟩ := hfwell.exists_slot hq
    exact ⟨q, hq, by rw [hgstock.isVacant s hs p hmem, hfstock.isVacant r hr q hmem']⟩

theorem inlined_runs_boxed :
    Inlines ("box." ++ ·) boxNode boxNet (loaded boxedDescription) (loaded flatDescription) ∧
    ∃ g₁ g₂ f₁ f₂, ((loaded boxedDescription).compile 0).result = (.ok (), g₁) ∧
      (g₁.execute 0).result = (.ok (), g₂) ∧
      ((loaded flatDescription).compile 0).result = (.ok (), f₁) ∧
      (f₁.execute 0).result = (.ok (), f₂) ∧
      ∀ name m, name ≠ boxNode.name → g₂.node? name = some m →
        ∃ m', f₂.node? name = some m' ∧ m.Alike m' := by
  obtain ⟨hg, hgstock⟩ := reachable_loaded (d := boxedDescription) (by decide +kernel)
  obtain ⟨hf, hfstock⟩ := reachable_loaded (d := flatDescription) (by decide +kernel)
  obtain ⟨hn, inputs, outputs, hb⟩ := boxNode_spec
  have hverdict : ((loaded boxedDescription).compile 0).result.1.isOk = true := by decide +kernel
  have hok : ((loaded boxedDescription).compile 0).result.1 = .ok () :=
    (exists_ok_of_isOk hverdict).elim fun _ h ↦ h
  obtain ⟨g₁, g₂, hc, he⟩ := (isHosted_of_isStock hg.coherent hgstock).exists_pass hok 0
  obtain ⟨f₁, f₂, hf₁, hf₂, houter, -⟩ := inlined_runs hg hgstock.isBuiltin hgstock.isOutermost hn hb
    hf hfstock.isOutermost inlines_boxed hc he 0 0
  exact ⟨inlines_boxed, g₁, g₂, f₁, f₂, hc, he, hf₁, hf₂, houter⟩

end Net

end PortGraph
