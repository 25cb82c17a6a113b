import PortGraph.Proofs.Net.Flat

/-!
# Passes have no memory

A pass writes on the outputs of the nodes and leaves them there, and on the ports of the nets in the
nodes as well.  None of that is ever read: an output that a link starts at is written before the link
brings it on, and the inputs of a net in a node are fed before the net executes.  So what a pass does
depends on the form of the net and on the values of the inputs that nothing supplies
(`Net.Reachable.execute_oblivious`).

If a pass succeeds, another one over such a net succeeds as well (`Net.IsLive.execute_congr`).  If it
fails, it has halted in the turn of a node (`Graph.Halted`), and the other one halts in the turn of
the same node for the same reason (`Net.Counterparts.execute_of_error_of`), as the nodes that had their
turns before came out alike.  That nodes with one task fail alike is proved by induction on the
levels of nesting (`Behaviour.fails`).
-/

set_option autoImplicit false

namespace PortGraph

open PortGraph.Graph

/-- Two splits of one list at an element: they are one, or one of the elements stands before the
other. -/
theorem split_cases {α : Type} {l₁ r₁ l₂ r₂ : List α} {a b : α}
    (h : l₁ ++ a :: r₁ = l₂ ++ b :: r₂) :
    (l₁ = l₂ ∧ a = b ∧ r₁ = r₂) ∨ (∃ c, l₂ = l₁ ++ a :: c) ∨ ∃ c, l₁ = l₂ ++ b :: c := by
  rcases List.append_eq_append_iff.mp h with ⟨c, rfl, hc⟩ | ⟨c, rfl, hc⟩
  · cases c with
    | nil =>
      obtain ⟨rfl, rfl⟩ := List.cons.inj hc
      exact .inl ⟨(List.append_nil _).symm, rfl, rfl⟩
    | cons d c =>
      obtain ⟨rfl, -⟩ := List.cons.inj hc
      exact .inr (.inl ⟨c, rfl⟩)
  · cases c with
    | nil =>
      obtain ⟨rfl, rfl⟩ := List.cons.inj hc
      exact .inl ⟨List.append_nil _, rfl, rfl⟩
    | cons d c =>
      obtain ⟨rfl, -⟩ := List.cons.inj hc
      exact .inr (.inr ⟨c, rfl⟩)

/-! ## Passes that fail -/

namespace Graph

variable {β : Type} {life : Lifecycle β} {g k : Graph β}

/-- **A pass over `g` that came to `k` halted** in the turn of a node that failed. -/
structure Halted (life : Lifecycle β) (g k : Graph β) (before : List Step) (t : Step)
    (after : List Step) (s : Slot β) (r : Run β) (e : NodeError) : Prop where
  /-- It was the turn of the node. -/
  schedule : g.schedule = before ++ t :: after
  /-- The nodes that had their turns before succeeded. -/
  settled : ∀ u ∈ before, ∃ r, g.Settled life k u r
  /-- The node is that of the turn. -/
  slot : g.slots[t.node]? = some s
  /-- It was handed over with what its links brought. -/
  handed : r.node = s.supplied g.links k.held
  /-- It failed. -/
  failed : (r.reply life).1 = .error e
  /-- It was put back. -/
  put : k.slots[t.node]? = some ⟨s.key, (r.reply life).2⟩
  /-- The nodes behind it had no turn. -/
  rest : ∀ u ∈ after, k.slots[u.node]? = g.slots[u.node]?

/-- What a pass reports that halted. -/
def haltError (life : Lifecycle β) (s : Slot β) (r : Run β) (e : NodeError) : GraphError :=
  .executionFailed s.key (r.reply life).2.typeName e

theorem Passed.exists_halted {runs : List (Run β)} {e : GraphError}
    (h : g.Passed life k runs (.error e)) :
    ∃ before t after s r cause, g.Halted life k before t after s r cause ∧
      e = haltError life s r cause := by
  cases h with
  | broken hschedule hsettled hs hr he hk hafter =>
    exact ⟨_, _, _, _, _, _, ⟨hschedule, exists_of_forall₂_left hsettled, hs, hr, he, hk, hafter⟩, rfl⟩

end Graph

/-! ## Nodes with one task -/

theorem Node.SameTask.symm {n m : Node Behaviour} (h : n.SameTask m) : m.SameTask n :=
  ⟨h.inputs.symm, h.outputs.symm, h.behaviour.symm⟩

/-- Nodes that are live at a level fail like all that have the same task and the same name; and what
has come out like the other one does so again. -/
def Behaviour.FailsAt (level : Nat) : Prop :=
  ∀ {n m n' : Node Behaviour} {level' stamp : Nat} {e : NodeError}, n.SameTask m → m.name = n.name →
    n.IsLive level' → m.IsLive level →
    ((Behaviour.life (level' + 1)).execute n stamp).result = (.error e, n') →
    ∀ stamp', ((Behaviour.life (level + 1)).execute m stamp').result.1 = .error e ∧
      (n'.Alike m → n'.Alike ((Behaviour.life (level + 1)).execute m stamp').result.2)

namespace Net

/-- **Two nets that a pass does not tell apart**: they have one form, and their inputs without links
read alike.  Each can be executed by its nodes. -/
structure Counterparts (level level' : Nat) (g k : Net) : Prop where
  /-- The first one can be executed. -/
  left : g.IsLive level'
  /-- The second one can be executed. -/
  right : k.IsLive level
  /-- They have one form. -/
  form : through .form k = through .form g
  /-- Their inputs without links read alike. -/
  reading : ∀ e p q, g.port? .input e = some p → k.port? .input e = some q → q.isLinked = false →
    q.data.map Packet.value = p.data.map Packet.value

namespace Counterparts

variable {level level' : Nat} {g g' k k' : Net} {before after : List Step} {t : Step}
  {r s : Slot Behaviour} {a b : Run Behaviour}

theorem symm (h : Counterparts level level' g k) : Counterparts level' level k g where
  left := h.right
  right := h.left
  form := h.form.symm
  reading e q p hq hp hfree := by
    have hpq := port?_form_eq h.form .input e
    rw [hp, hq, Option.map_some, Option.map_some, Option.some.injEq] at hpq
    have hlinked : q.form.isLinked = p.form.isLinked := congrArg Port.isLinked hpq
    exact (h.reading e p q hp hq (hlinked.trans hfree)).symm

theorem schedule_eq (h : Counterparts level level' g k) : k.schedule = g.schedule := by
  have hshape := through_after_eq (b := .shape) h.form
  rw [Lens.shape_after_form] at hshape
  exact Except.ok.inj (h.right.plan.symm.trans ((plan_congr hshape).trans h.left.plan))

/-- The nodes at one position have one name and one form. -/
theorem slot_eq (h : Counterparts level level' g k) {i : Nat} (hr : g.slots[i]? = some r)
    (hs : k.slots[i]? = some s) : r.key = s.key ∧ s.node.through .form = r.node.through .form := by
  have hslot : (⟨s.key, s.node.through .form⟩ : Slot Behaviour) = ⟨r.key, r.node.through .form⟩ := by
    have hat := congrArg (·.slots[i]?) h.form
    simpa only [through, List.getElem?_map, hr, hs, Option.map_some, Option.some.injEq] using hat
  obtain ⟨hkey, hnode⟩ := Slot.mk.inj hslot
  exact ⟨hkey.symm, hnode⟩

/-! ### Turns -/

/-- **What is handed over in a turn has one task**, if the nodes that had their turns before came out
alike. -/
theorem sameTask (h : Counterparts level level' g k) (hg' : g'.skeleton = g.skeleton)
    (hk' : k'.skeleton = k.skeleton)
    (hbefore : ∀ t ∈ before, ∀ name, g.nodeNames[t.node]? = some name → ∀ n m,
      g'.node? name = some n → k'.node? name = some m → n.Alike m)
    (hschedule : g.schedule = before ++ t :: after) (hr : g.slots[t.node]? = some r)
    (hs : k.slots[t.node]? = some s) :
    (r.supplied g.links g'.held).SameTask (s.supplied k.links k'.held) := by
  have hgwell := h.left.wellLinked
  have hkwell := h.right.wellLinked
  have hends := map_ends_form_eq h.form
  obtain ⟨hkey, hnode⟩ := h.slot_eq hr hs
  obtain ⟨hpanel, hbehaviour⟩ := Node.through_eq_iff.mp hnode
  refine sameTask_supplied hgwell hkwell (List.mem_of_getElem? hr) (List.mem_of_getElem? hs) hkey
    (fun side ↦ Panel.map_eq_of_form_eq Port.declared_form hpanel side) hbehaviour
    (fun ends ↦ by rw [hends]) h.reading fun l hl ht ↦ ?_
  -- the source of the link had its turn before
  obtain ⟨l', hl', hll⟩ := List.mem_map.mp (hends ▸ List.mem_map_of_mem hl)
  obtain ⟨hsource, htarget⟩ := Prod.mk.inj hll
  have hname : g.nodeNames[t.node]? = some l'.target.node := by
    rw [getElem?_nodeNames hr, htarget, ht, hkey]
  obtain ⟨u, hu, hat⟩ := hgwell.source_before h.left.plan hschedule hl' hname
  obtain ⟨p, hp, -⟩ := (hgwell.of_skeleton_eq hg').exists_source (links_of_skeleton_eq hg' ▸ hl')
  obtain ⟨q, hq, -⟩ := (hkwell.of_skeleton_eq hk').exists_source (links_of_skeleton_eq hk' ▸ hl)
  obtain ⟨n, hn, -⟩ := Option.bind_eq_some_iff.mp hp
  obtain ⟨m, hm, -⟩ := Option.bind_eq_some_iff.mp hq
  rw [hsource] at hat hn
  rw [map_value_held, map_value_held, hn, hm, Option.bind_some, Option.bind_some,
    (hbefore u hu _ hat n m hn hm).output?_eq]

/-- **Nodes that had their turns in both nets came out alike.** -/
theorem alike_of_settled (h : Counterparts level level' g k) (hg' : g'.skeleton = g.skeleton)
    (hk' : k'.skeleton = k.skeleton) (hschedule : g.schedule = before ++ after)
    (hleft : ∀ t ∈ before, ∃ r, g.Settled (Behaviour.life (level' + 1)) g' t r)
    (hright : ∀ t ∈ before, ∃ r, k.Settled (Behaviour.life (level + 1)) k' t r) :
    ∀ t ∈ before, ∀ name, g.nodeNames[t.node]? = some name → ∀ n m,
      g'.node? name = some n → k'.node? name = some m → n.Alike m := by
  -- from the first turn on: the sources of a node had their turns before it
  induction before using List.reverseRecOn generalizing after with
  | nil => exact fun t ht ↦ absurd ht (by simp)
  | append_singleton before t ih =>
    rw [List.append_assoc, List.singleton_append] at hschedule
    have hsources := ih hschedule (fun u hu ↦ hleft u (List.mem_append_left _ hu))
      fun u hu ↦ hright u (List.mem_append_left _ hu)
    intro u hu name hname n m hn hm
    rcases List.mem_append.mp hu with hu | hu
    · exact hsources u hu name hname n m hn hm
    · obtain rfl := List.mem_singleton.mp hu
      obtain ⟨a, r, hr, hanode, haok, haput⟩ := hleft u (List.mem_append_right _ hu)
      obtain ⟨b, s, hs, hbnode, -, hbput⟩ := hright u (List.mem_append_right _ hu)
      have hkey := (h.slot_eq hr hs).1
      have htask := h.sameTask hg' hk' hsources hschedule hr hs
      rw [getElem?_nodeNames hr, Option.some.injEq] at hname
      subst hname
      have hgslot := (h.left.wellLinked.of_skeleton_eq hg').node?_of_mem (List.mem_of_getElem? haput)
      have hkslot := (h.right.wellLinked.of_skeleton_eq hk').node?_of_mem (List.mem_of_getElem? hbput)
      obtain rfl := Option.some.inj (hgslot.symm.trans hn)
      obtain rfl := Option.some.inj (hkslot.symm.trans (hkey ▸ hm))
      have hrun : ((Behaviour.life (level' + 1)).execute (r.supplied g.links g'.held)
          a.stamp).result = (.ok (), (a.reply (Behaviour.life (level' + 1))).2) :=
        hanode ▸ Prod.ext haok rfl
      have halike := (Behaviour.follows level htask (h.left.supplied (List.mem_of_getElem? hr) _ _)
        (h.right.supplied (List.mem_of_getElem? hs) _ _) hrun b.stamp).2
      rw [← hbnode] at halike
      exact halike

/-- A node succeeds in the one net if it did in the other, where the nodes that had their turns before
succeeded in both. -/
theorem succeeds_of_settled (h : Counterparts level level' g k) (hg' : g'.skeleton = g.skeleton)
    (hk' : k'.skeleton = k.skeleton) (hschedule : g.schedule = before ++ t :: after)
    (hleft : ∀ u ∈ before, ∃ a, g.Settled (Behaviour.life (level' + 1)) g' u a)
    (hright : ∀ u ∈ before, ∃ b, k.Settled (Behaviour.life (level + 1)) k' u b)
    (ha : g.Settled (Behaviour.life (level' + 1)) g' t a) (hs : k.slots[t.node]? = some s)
    (stamp : Nat) :
    ((Behaviour.life (level + 1)).execute (s.supplied k.links k'.held) stamp).result.1 = .ok () := by
  obtain ⟨r, hr, hnode, hok, -⟩ := ha
  have htask := h.sameTask hg' hk' (h.alike_of_settled hg' hk' hschedule hleft hright) hschedule hr hs
  have hrun : ((Behaviour.life (level' + 1)).execute (r.supplied g.links g'.held) a.stamp).result =
      (.ok (), (a.reply (Behaviour.life (level' + 1))).2) := hnode ▸ Prod.ext hok rfl
  exact (Behaviour.follows level htask (h.left.supplied (List.mem_of_getElem? hr) _ _)
    (h.right.supplied (List.mem_of_getElem? hs) _ _) hrun stamp).1

/-! ### Halting -/

variable {e e' : NodeError}

/-- **If a pass over the one net halts, so does a pass over the other, in the same turn.** -/
theorem exists_halted (h : Counterparts level level' g k) (hg' : g'.skeleton = g.skeleton)
    (hk' : k'.skeleton = k.skeleton)
    (hg : g.Halted (Behaviour.life (level' + 1)) g' before t after r a e) {runs : List (Run Behaviour)}
    {result : Except GraphError Unit}
    (hpassed : k.Passed (Behaviour.life (level + 1)) k' runs result) :
    ∃ s b e', k.Halted (Behaviour.life (level + 1)) k' before t after s b e' ∧
      result = .error (haltError (Behaviour.life (level + 1)) s b e') := by
  -- the node that failed in `g` did not succeed in `k`
  have hcontra : ∀ b, (∀ u ∈ before, ∃ b, k.Settled (Behaviour.life (level + 1)) k' u b) →
      ¬ k.Settled (Behaviour.life (level + 1)) k' t b := by
    intro b hright hb
    have hok := h.symm.succeeds_of_settled hk' hg' (h.schedule_eq.trans hg.schedule) hright
      hg.settled hb hg.slot a.stamp
    rw [← hg.handed] at hok
    exact absurd (hok.symm.trans hg.failed) (by simp)
  cases hpassed with
  | complete hsettled =>
    have hright := exists_of_forall₂_left hsettled
    rw [h.schedule_eq, hg.schedule] at hright
    obtain ⟨b, hb⟩ := hright t (by simp)
    exact absurd hb (hcontra b fun u hu ↦ hright u (List.mem_append_left _ hu))
  | @broken before' after' t' runs b s e' hschedule hsettled hs hnode herr hput hafter =>
    have hright := exists_of_forall₂_left hsettled
    rcases split_cases (hg.schedule.symm.trans (h.schedule_eq.symm.trans hschedule)) with
      ⟨rfl, rfl, rfl⟩ | ⟨c, rfl⟩ | ⟨c, rfl⟩
    · exact ⟨s, b, e', ⟨hschedule, hright, hs, hnode, herr, hput, hafter⟩, rfl⟩
    · obtain ⟨b, hb⟩ := hright t (by simp)
      exact absurd hb (hcontra b fun u hu ↦ hright u (List.mem_append_left _ hu))
    · -- the node that failed in `k` succeeded in `g`
      obtain ⟨c', hc'⟩ := hg.settled t' (by simp)
      have hturn := hg.schedule
      rw [List.append_assoc, List.cons_append] at hturn
      have hok := h.succeeds_of_settled hg' hk' hturn
        (fun u hu ↦ hg.settled u (List.mem_append_left _ hu)) hright hc' hs b.stamp
      rw [← hnode] at hok
      exact absurd (hok.symm.trans herr) (by simp)

/-- The nodes at which two passes halt have one task. -/
theorem sameTask_of_halted (h : Counterparts level level' g k) (hg' : g'.skeleton = g.skeleton)
    (hk' : k'.skeleton = k.skeleton)
    (hg : g.Halted (Behaviour.life (level' + 1)) g' before t after r a e)
    (hk : k.Halted (Behaviour.life (level + 1)) k' before t after s b e') :
    (r.supplied g.links g'.held).SameTask (s.supplied k.links k'.held) :=
  h.sameTask hg' hk' (h.alike_of_settled hg' hk' hg.schedule hg.settled hk.settled) hg.schedule
    hg.slot hk.slot

/-- What comes of the node at which the second pass halts. -/
theorem fails_of_halted (hfail : Behaviour.FailsAt level) (h : Counterparts level level' g k)
    (hg' : g'.skeleton = g.skeleton) (hk' : k'.skeleton = k.skeleton)
    (hg : g.Halted (Behaviour.life (level' + 1)) g' before t after r a e)
    (hk : k.Halted (Behaviour.life (level + 1)) k' before t after s b e') :
    e' = e ∧ ((a.reply (Behaviour.life (level' + 1))).2.Alike s.node →
      (a.reply (Behaviour.life (level' + 1))).2.Alike (b.reply (Behaviour.life (level + 1))).2) := by
  have hgslot := List.mem_of_getElem? hg.slot
  have hkslot := List.mem_of_getElem? hk.slot
  have hname : (s.supplied k.links k'.held).name = (r.supplied g.links g'.held).name := by
    rw [Slot.name_supplied, Slot.name_supplied, (h.left.wellLinked.regular r hgslot).name_eq,
      (h.right.wellLinked.regular s hkslot).name_eq, (h.slot_eq hg.slot hk.slot).1]
  have hrun : ((Behaviour.life (level' + 1)).execute (r.supplied g.links g'.held) a.stamp).result =
      (.error e, (a.reply (Behaviour.life (level' + 1))).2) := hg.handed ▸ Prod.ext hg.failed rfl
  obtain ⟨herr, hkeeps⟩ := hfail (h.sameTask_of_halted hg' hk' hg hk) hname
    (h.left.supplied hgslot _ _) (h.right.supplied hkslot _ _) hrun b.stamp
  rw [← hk.handed] at herr hkeeps
  refine ⟨Except.error.inj (hk.failed.symm.trans herr), fun halike ↦ hkeeps ?_⟩
  rw [hk.handed]
  exact ⟨halike.outputs, halike.behaviour⟩

/-- **Both passes report the same.** -/
theorem haltError_eq (hfail : Behaviour.FailsAt level) (h : Counterparts level level' g k)
    (hg' : g'.skeleton = g.skeleton) (hk' : k'.skeleton = k.skeleton)
    (hg : g.Halted (Behaviour.life (level' + 1)) g' before t after r a e)
    (hk : k.Halted (Behaviour.life (level + 1)) k' before t after s b e') :
    haltError (Behaviour.life (level + 1)) s b e' = haltError (Behaviour.life (level' + 1)) r a e := by
  obtain ⟨rfl, -⟩ := fails_of_halted hfail h hg' hk' hg hk
  obtain ⟨hkey, hnode⟩ := h.slot_eq hg.slot hk.slot
  have htype : ∀ (level : Nat) (c : Run Behaviour),
      (c.reply (Behaviour.life level)).2.typeName = c.node.typeName := by
    intro level c
    have hout := congrArg Panel.typeName ((keepsOutline_life level).execute c.node c.stamp)
    exact hout
  have hsame : s.node.typeName = r.node.typeName := congrArg (fun n ↦ n.panel.typeName) hnode
  rw [haltError, haltError, htype, htype, hg.handed, hk.handed, ← hkey]
  exact congrArg (GraphError.executionFailed r.key · e') hsame

/-- **A net that is what a pass has left, is so after another pass**: the nodes that have their turns
come out alike again, and those that have none keep what they hold. -/
theorem outcome_of_halted (hfail : Behaviour.FailsAt level) (h : Counterparts level level' g k)
    (hg' : g'.skeleton = g.skeleton) (hk' : k'.skeleton = k.skeleton)
    (hg : g.Halted (Behaviour.life (level' + 1)) g' before t after r a e)
    (hk : k.Halted (Behaviour.life (level + 1)) k' before t after s b e')
    (hform : through .form k' = through .form g') (houtcome : through .outcome k = through .outcome g') :
    through .outcome k' = through .outcome g' := by
  have hgfinal := h.left.wellLinked.of_skeleton_eq hg'
  have hkfinal := h.right.wellLinked.of_skeleton_eq hk'
  refine outcome_eq_of_alike hform fun q hq w hw hqw ↦ ?_
  have hmem : q.key ∈ g.nodeNames := nodeNames_of_skeleton_eq hg' ▸ List.mem_map_of_mem hq
  obtain ⟨x, hx, hxq⟩ := List.mem_map.mp hmem
  obtain ⟨u, hturn, hxat⟩ := h.left.wellLinked.exists_turn h.left.plan hx
  -- what the node was in `k`
  have hlt := (h.right.wellLinked.fits h.right.plan u (h.schedule_eq ▸ hturn)).1
  have hat : k.slots[u.node]? = some k.slots[u.node] := List.getElem?_eq_getElem hlt
  obtain ⟨hykey, -⟩ := h.slot_eq hxat hat
  obtain ⟨p, hp, hpkey, hlike⟩ := exists_alike_of_outcome_eq houtcome (List.mem_of_getElem? hat)
  have hpq := hgfinal.node_inj hp hq (hpkey.trans (hykey.symm.trans hxq))
  rw [hg.schedule, List.mem_append, List.mem_cons] at hturn
  rcases hturn with hu | rfl | hu
  · refine h.alike_of_settled hg' hk' hg.schedule hg.settled hk.settled u hu q.key ?_ _ _
      (hgfinal.node?_of_mem hq) (hqw ▸ hkfinal.node?_of_mem hw)
    rw [getElem?_nodeNames hxat, hxq]
  · -- the node at which the pass halted
    obtain rfl := Option.some.inj (hg.slot.symm.trans hxat)
    have hs := Option.some.inj (hk.slot.symm.trans hat)
    have hqnode : (a.reply (Behaviour.life (level' + 1))).2 = q.node :=
      hgfinal.node_inj (List.mem_of_getElem? hg.put) hq hxq
    have hwnode : (b.reply (Behaviour.life (level + 1))).2 = w.node :=
      hkfinal.node_inj (List.mem_of_getElem? hk.put) hw ((hs ▸ hykey.symm).trans (hxq.trans hqw))
    rw [hpq, ← hqnode, ← hs] at hlike
    rw [← hqnode, ← hwnode]
    exact (fails_of_halted hfail h hg' hk' hg hk).2 hlike
  · -- the nodes behind it had no turn
    have hlater := List.mem_of_getElem? ((hk.rest u hu).trans hat)
    rw [← hpq, ← hkfinal.node_inj hlater hw (hykey.symm.trans (hxq.trans hqw))]
    exact hlike

/-- A pass over the one net that fails, and a pass over the other. -/
theorem execute_of_error_of (hfail : Behaviour.FailsAt level) (h : Counterparts level level' g k)
    {stamp : Nat} {cause : GraphError}
    (he : (Graph.execute (Behaviour.life (level' + 1)) g stamp).result = (.error cause, g'))
    (stamp' : Nat) :
    (Graph.execute (Behaviour.life (level + 1)) k stamp').result.1 = .error cause ∧
      (through .outcome k = through .outcome g' →
        through .outcome (Graph.execute (Behaviour.life (level + 1)) k stamp').result.2 =
          through .outcome g') := by
  have hgkeeps := keepsOutline_life (level' + 1)
  have hkkeeps := keepsOutline_life (level + 1)
  obtain ⟨runs, hgpassed, -⟩ :=
    h.left.wellLinked.passed_execute h.left.plan h.left.isReady hgkeeps stamp
  obtain ⟨runs', hkpassed, -⟩ :=
    h.right.wellLinked.passed_execute h.right.plan h.right.isReady hkkeeps stamp'
  have hg' := (agrees_execute hgkeeps g stamp).skeleton
  have hk' := (agrees_execute hkkeeps k stamp').skeleton
  have hform := (form_execute (level + 1) k stamp').trans
    (h.form.trans (form_execute (level' + 1) g stamp).symm)
  rw [he] at hgpassed hg' hform
  obtain ⟨before, t, after, r, a, e, hg, rfl⟩ := hgpassed.exists_halted
  obtain ⟨s, b, e', hk, hresult⟩ := h.exists_halted hg' hk' hg hkpassed
  rw [hresult, haltError_eq hfail h hg' hk' hg hk]
  exact ⟨rfl, outcome_of_halted hfail h hg' hk' hg hk hform⟩

end Counterparts
end Net

/-- A node behind whose panel the same operation is fails for the same reason, and is left as it
is. -/
theorem Behaviour.fails_operation {level level' stamp : Nat} {n m n' : Node Behaviour}
    {op : Operation} {e : NodeError} (htask : n.SameTask m) (hname : m.name = n.name)
    (hb : n.behaviour = .operation op) (hn : op.Declares n.panel) (hm : m.IsLive level)
    (herr : ((life (level' + 1)).execute n stamp).result = (.error e, n')) (stamp' : Nat) :
    ((life (level + 1)).execute m stamp').result.1 = .error e ∧
      (n'.Alike m → n'.Alike ((life (level + 1)).execute m stamp').result.2) := by
  have hbm : m.behaviour = .operation op :=
    eq_operation_of_form_eq (htask.behaviour.trans (congrArg (through .form) hb))
  have hm' := hm.isBuiltin.declares hbm
  rw [execute_operation hb] at herr
  rw [execute_operation hbm]
  have hfst : (op.execute m.panel stamp').result.1 = .error e := by
    have hpublication := congrArg (Except.map fun _ ↦ ())
      (op.map_value_publication hn hm' hname htask.inputs)
    rw [op.execute_fst hm', ← (Prod.mk.inj herr).1, op.execute_fst hn]
    rcases hp : op.publication n.panel with x | x <;>
      rcases hq : op.publication m.panel with y | y <;> rw [hp, hq] at hpublication
    · rw [Except.error.inj hpublication]
    · exact absurd hpublication (by simp [Except.map])
    · exact absurd hpublication (by simp [Except.map])
    · rfl
  refine ⟨hfst, fun halike ↦ ?_⟩
  -- an operation that fails leaves its panel as it is
  rcases op.execute_spec hm' stamp' with ⟨-, cause, heq⟩ | ⟨packet, -, heq⟩
  · rw [heq, ← hbm]
    exact halike
  · rw [heq] at hfst
    exact absurd hfst (by simp)

/-- **Nodes with one task and one name fail for the same reason**, and what one of them has come to
they leave as it is. -/
theorem Behaviour.fails (level : Nat) : FailsAt level := by
  induction level using Nat.strong_induction_on with
  | _ level ih =>
    intro n m n' level' stamp e htask hname hn hm herr stamp'
    cases hn.isBuiltin with
    | operation hb h => exact fails_operation htask hname hb h hm herr stamp'
    | @nested _ g inputs outputs hb hmirrors _ =>
      obtain ⟨k, hbm, hform⟩ :=
        eq_nested_of_form_eq (htask.behaviour.trans (congrArg (through .form) hb))
      obtain ⟨inner, fed, rfl, hfed, hfeeds, hseen, hleft⟩ := hn.execute_nested hb stamp
      obtain ⟨inner', fed', rfl, hfed', hfeeds', hseen', hright⟩ := hm.execute_nested hbm stamp'
      rcases hleft with ⟨cause, j, hrun, heq⟩ | ⟨j, -, -, -, heq⟩
      swap
      · exact absurd (herr.symm.trans heq) (by simp)
      obtain ⟨herror, hn'⟩ := Prod.mk.inj (herr.symm.trans heq)
      obtain rfl := Except.error.inj herror
      subst hn'
      obtain ⟨hsame, hdata⟩ := hfeeds.alike hmirrors hfed.wellLinked (hseen .form)
        ((hseen' .form).trans hform) hfeeds' htask.inputs
      have hpair : Net.Counterparts inner' inner fed fed' := ⟨hfed, hfed', hsame, hdata⟩
      obtain ⟨hfails, hkeeps⟩ :=
        hpair.execute_of_error_of (ih inner' (Nat.lt_succ_self inner')) hrun stamp'
      rcases hright with ⟨cause', j', hrun', heq'⟩ | ⟨j', hrun', -⟩
      · rw [hrun'] at hfails hkeeps
        rw [heq']
        refine ⟨congrArg (fun e ↦ Except.error (NodeError.graph e)) (Except.error.inj hfails),
          fun halike ↦ ⟨halike.outputs, ?_⟩⟩
        have hinner := halike.behaviour
        rw [hbm, through_nested, through_nested] at hinner
        rw [through_nested, through_nested,
          hkeeps ((hseen' .outcome).trans (Behaviour.nested.inj hinner).1)]
      · rw [hrun'] at hfails
        exact absurd hfails (by simp)

/-! ## Two states of a net -/

namespace Net

variable {g j k : Net}

/-- **A pass does not tell counterparts apart**: it succeeds on both or fails on both for the same
reason.  If it succeeds it leaves the same on all outputs; and what a pass over the one has left, a
pass over the other leaves as it is. -/
theorem Counterparts.execute {level level' : Nat} (h : Counterparts level level' g k)
    (stamp stamp' : Nat) :
    (Graph.execute (Behaviour.life (level + 1)) k stamp').result.1 =
        (Graph.execute (Behaviour.life (level' + 1)) g stamp).result.1 ∧
      ((Graph.execute (Behaviour.life (level' + 1)) g stamp).result.1 = .ok () ∨
          through .outcome k =
            through .outcome (Graph.execute (Behaviour.life (level' + 1)) g stamp).result.2 →
        through .outcome (Graph.execute (Behaviour.life (level + 1)) k stamp').result.2 =
          through .outcome (Graph.execute (Behaviour.life (level' + 1)) g stamp).result.2) := by
  rcases hrun : (Graph.execute (Behaviour.life (level' + 1)) g stamp).result with ⟨e | _, g'⟩
  · obtain ⟨herr, hkeeps⟩ := h.execute_of_error_of (Behaviour.fails level) hrun stamp'
    exact ⟨herr, fun hor ↦ hkeeps (hor.resolve_left (by simp))⟩
  · obtain ⟨hok, houtcome⟩ := h.left.execute_congr h.right h.form h.reading hrun stamp'
    exact ⟨hok, fun _ ↦ houtcome⟩

/-- **Two states of one net**: the nets have one form, and the inputs that neither a link nor an
enclosing net supplies hold the same values. -/
structure SameSetup (g k : Net) : Prop where
  /-- They have one form. -/
  form : through .form k = through .form g
  /-- The inputs that nothing supplies hold the same values. -/
  values : ∀ e p q, g.port? .input e = some p → k.port? .input e = some q → p.isSatisfied = false →
    q.stored.map Packet.value = p.stored.map Packet.value

/-- A pass over the one net leaves the other. -/
def Repass (g k : Net) : Prop := ∃ stamp, (Net.execute g stamp).result.2 = k

namespace SameSetup

theorem port?_form_eq (h : SameSetup g k) {e : Endpoint} {q : Port}
    (hq : k.port? .input e = some q) : ∃ p, g.port? .input e = some p ∧ q.form = p.form := by
  have hpq := Net.port?_form_eq h.form .input e
  rw [hq, Option.map_some] at hpq
  obtain ⟨p, hp, heq⟩ := Option.map_eq_some_iff.mp hpq.symm
  exact ⟨p, hp, heq.symm⟩

theorem trans (h : SameSetup g j) (h' : SameSetup j k) : SameSetup g k := by
  refine ⟨h'.form.trans h.form, fun e p q hp hq hfree ↦ ?_⟩
  obtain ⟨o, ho, -⟩ := h'.port?_form_eq hq
  obtain ⟨p', hp', hform⟩ := h.port?_form_eq ho
  obtain rfl := Option.some.inj (hp.symm.trans hp')
  have hsatisfied : o.form.isSatisfied = p.form.isSatisfied := congrArg Port.isSatisfied hform
  exact (h'.values e o q ho hq (hsatisfied.trans hfree)).trans (h.values e p o hp ho hfree)

/-- If the inputs stay what they are, so does the setup. -/
theorem of_port? (hform : through .form k = through .form g)
    (h : ∀ e q, k.port? .input e = some q → q.isLinked = false → g.port? .input e = some q) :
    SameSetup g k := by
  refine ⟨hform, fun e p q hp hq hfree ↦ ?_⟩
  have hpq := Net.port?_form_eq hform .input e
  rw [hp, hq, Option.map_some, Option.map_some, Option.some.injEq] at hpq
  have hlinked : q.form.isLinked = p.form.isLinked := congrArg Port.isLinked hpq
  have hunlinked : p.isLinked = false := (Bool.or_eq_false_iff.mp hfree).1
  rw [Option.some.inj (hp.symm.trans (h e q hq (hlinked.trans hunlinked)))]

theorem execute (hg : g.IsLive (Behaviour.slotsDepth g.slots)) (stamp : Nat) :
    SameSetup g (Net.execute g stamp).result.2 :=
  of_port? (form_execute _ g stamp) fun _ _ hq hfree ↦ hg.wellLinked.port?_of_execute hg.plan
    hg.isReady (keepsOutline_life _) (keepsInputs_life _) rfl hq hfree

theorem compile (g : Net) (stamp : Nat) : SameSetup g (Net.compile g stamp).result.2 :=
  of_port? (form_compile _ g stamp) fun e _ hq _ ↦
    (port?_of_inputs_eq (inputs_compile (keepsInputs_life _) g stamp) e).symm.trans hq

/-- In an outermost net there is nothing else that passes read. -/
theorem counterparts {level level' : Nat} (h : SameSetup g k) (hg : g.IsLive level')
    (hk : k.IsLive level) (ho : g.IsOutermost) : Counterparts level level' g k := by
  refine ⟨hg, hk, h.form, fun e p q hp hq hfree ↦ ?_⟩
  obtain ⟨s, hs, hmem, -⟩ := hg.wellLinked.exists_slot hp
  obtain ⟨r, hr, hmem', -⟩ := hk.wellLinked.exists_slot hq
  have hpq := Net.port?_form_eq h.form .input e
  rw [hp, hq, Option.map_some, Option.map_some, Option.some.injEq] at hpq
  have hlinked : q.form.isLinked = p.form.isLinked := congrArg Port.isLinked hpq
  have hunlinked : p.isLinked = false := hlinked.symm.trans hfree
  have hexposed := ho s hs p hmem
  have hdefault : q.default.map Packet.value = p.default.map Packet.value :=
    Port.map_unstamped_eq_iff.mp (congrArg Port.default hpq)
  have hstored := h.values e p q hp hq (Bool.or_eq_false_iff.mpr ⟨hunlinked, hexposed⟩)
  rw [Port.data_of_free ((hg.isBuiltin s hs).direction .input hmem) hunlinked hexposed,
    Port.data_of_free ((hk.isBuiltin r hr).direction .input hmem') hfree
      (ho.congr h.form r hr q hmem'), Option.map_or, Option.map_or, hstored, hdefault]

end SameSetup

theorem IsLive.self {level : Nat} (h : g.IsLive level) : g.IsLive (Behaviour.slotsDepth g.slots) :=
  ⟨h.coherent, h.isReady, Nat.le_refl _, h.isBuiltin⟩

/-- **Any number of further passes** leave the outputs as the first pass left them. -/
theorem IsLive.outcome_of_repasses (hg : g.IsLive (Behaviour.slotsDepth g.slots))
    (ho : g.IsOutermost) (stamp : Nat)
    (hk : Relation.ReflTransGen Repass (Net.execute g stamp).result.2 k) :
    k.IsLive (Behaviour.slotsDepth k.slots) ∧ SameSetup g k ∧
      through .outcome k = through .outcome (Net.execute g stamp).result.2 := by
  induction hk with
  | refl => exact ⟨(hg.execute stamp).self, .execute hg stamp, rfl⟩
  | @tail j k _ hpass ih =>
    obtain ⟨stamp', rfl⟩ := hpass
    obtain ⟨hlive, hsetup, houtcome⟩ := ih
    exact ⟨(hlive.execute stamp').self, hsetup.trans (.execute hlive stamp'),
      ((hsetup.counterparts hg hlive ho).execute stamp stamp').2 (.inr houtcome)⟩

/-- **Passes have no memory.**  Let two outermost nets of built-in nodes be states of one net: they
are ready, have one form, and hold the same values on the inputs that nothing supplies, whatever is on
all other ports, at every depth.  Then a pass over the one has the result of a pass over the other,
and if it succeeds it leaves the same values on all outputs, at every depth.  Any number of further
passes leave them what the first one left.  And a state of the net that is compiled anew compiles, and
the pass over it has that result as well, and leaves these values. -/
theorem Reachable.execute_oblivious (hg : g.Reachable) (hgr : g.isReady = true) (hb : g.IsBuiltin)
    (ho : g.IsOutermost) (hk : k.Reachable) (hkr : k.isReady = true) (h : SameSetup g k)
    (stamp stamp' : Nat) :
    (Net.execute k stamp').result.1 = (Net.execute g stamp).result.1 ∧
    ((Net.execute g stamp).result.1 = .ok () →
      through .outcome (Net.execute k stamp').result.2 =
        through .outcome (Net.execute g stamp).result.2) ∧
    (∀ j, Relation.ReflTransGen Repass (Net.execute g stamp).result.2 j →
      through .outcome j = through .outcome (Net.execute g stamp).result.2) ∧
    ∀ j, Net.Reachable j → SameSetup g j → ∀ stamp₁ stamp₂, ∃ i,
      (Net.compile j stamp₁).result = (.ok (), i) ∧
      (Net.execute i stamp₂).result.1 = (Net.execute g stamp).result.1 ∧
      ((Net.execute g stamp).result.1 = .ok () →
        through .outcome (Net.execute i stamp₂).result.2 =
          through .outcome (Net.execute g stamp).result.2) := by
  have hlive : g.IsLive (Behaviour.slotsDepth g.slots) := ⟨hg.coherent, hgr, Nat.le_refl _, hb⟩
  -- whatever state the net is in, if it is set up alike and can execute
  have hsame : ∀ {i : Net}, SameSetup g i → i.IsLive (Behaviour.slotsDepth i.slots) →
      ∀ stamp', (Net.execute i stamp').result.1 = (Net.execute g stamp).result.1 ∧
        ((Net.execute g stamp).result.1 = .ok () →
          through .outcome (Net.execute i stamp').result.2 =
            through .outcome (Net.execute g stamp).result.2) := by
    intro i hi hilive stamp'
    obtain ⟨hresult, houtcome⟩ := (hi.counterparts hlive hilive ho).execute stamp stamp'
    exact ⟨hresult, fun hok ↦ houtcome (.inl hok)⟩
  have hklive : k.IsLive (Behaviour.slotsDepth k.slots) :=
    ⟨hk.coherent, hkr, Nat.le_refl _, hb.congr h.form⟩
  obtain ⟨hresult, houtcome⟩ := hsame h hklive stamp'
  refine ⟨hresult, houtcome, fun j hj ↦ (hlive.outcome_of_repasses ho stamp hj).2.2,
    fun j hj hsetup stamp₁ stamp₂ ↦ ?_⟩
  have hshape := through_after_eq (b := .shape) hsetup.form
  rw [Lens.shape_after_form] at hshape
  have hok : (Net.compile j stamp₁).result.1 = .ok () := by
    rw [← hg.coherent.verdict_of_isReady hgr hb, ← verdict_congr hshape]
    exact hj.coherent.compile_verdict (hb.congr hsetup.form) (Nat.le_refl _) stamp₁
  have hcompile : (Net.compile j stamp₁).result = (.ok (), (Net.compile j stamp₁).result.2) :=
    Prod.ext hok rfl
  exact ⟨_, hcompile, hsame (hsetup.trans (.compile j stamp₁))
    (hj.coherent.isLive_of_compile (hb.congr hsetup.form) hcompile).1 stamp₂⟩

/-! ## A box that is executed twice -/

/-- The net with a box, compiled. -/
def boxedReady : Net := (Net.compile (loaded boxedDescription) 0).result.2

/-- The same net with a number of the wrong kind on its input. -/
def boxedMisfed : Net := (boxedReady.setInput ⟨"first", "in"⟩ ⟨⟨.scalar .int, (3 : Int64)⟩, 0⟩).2

theorem Reachable.compile (hg : g.Reachable) (stamp : Nat) :
    Net.Reachable (Net.compile g stamp).result.2 :=
  @Reachable.step g stamp .compile hg (fun _ hr ↦ absurd hr (by simp)) fun _ _ hr ↦
    absurd hr (by simp)

theorem Reachable.execute (hg : g.Reachable) (stamp : Nat) :
    Net.Reachable (Net.execute g stamp).result.2 :=
  @Reachable.step g stamp .execute hg (fun _ hr ↦ absurd hr (by simp)) fun _ _ hr ↦
    absurd hr (by simp)

theorem Reachable.setInput (hg : g.Reachable) (place : Endpoint) (packet : Packet) :
    Net.Reachable (g.setInput place packet).2 :=
  @Reachable.step g 0 (.setInput place packet) hg (fun _ hr ↦ absurd hr (by simp)) fun _ _ hr ↦
    absurd hr (by simp)

theorem form_setInput {g : Net} (hg : g.WellLinked) (place : Endpoint) (packet : Packet) :
    through .form (g.setInput place packet).2 = through .form g := by
  rcases hg.setInput_cases place packet with ⟨e, heq⟩ | ⟨-, heq⟩
  · rw [heq]
  · rw [heq, through_modifyPort_store]

theorem reachable_boxedReady : boxedReady.Reachable ∧ boxedReady.IsBuiltin ∧
    boxedReady.IsOutermost := by
  obtain ⟨hg, hstock⟩ := reachable_loaded (d := boxedDescription) (by decide +kernel)
  have hform : through .form boxedReady = through .form (loaded boxedDescription) :=
    (SameSetup.compile (loaded boxedDescription) 0).form
  exact ⟨hg.compile 0, hstock.isBuiltin.congr hform, hstock.isOutermost.congr hform⟩

theorem reachable_boxedMisfed : boxedMisfed.Reachable ∧ boxedMisfed.IsBuiltin ∧
    boxedMisfed.IsOutermost := by
  obtain ⟨hg, hb, ho⟩ := reachable_boxedReady
  have hform : through .form boxedMisfed = through .form boxedReady :=
    form_setInput (coherent_iff.mp hg.coherent).1 ⟨"first", "in"⟩ ⟨⟨.scalar .int, (3 : Int64)⟩, 0⟩
  exact ⟨hg.setInput _ _, hb.congr hform, ho.congr hform⟩

/-- A pass fills the outputs of the box and another one leaves them; and a pass that fails does so
again, for the same reason. -/
theorem execute_oblivious_boxed :
    (boxedReady.held ⟨"last", "out"⟩).isSome = false ∧
    ((Net.execute boxedReady 0).result.2.held ⟨"last", "out"⟩).isSome = true ∧
    (Net.execute boxedReady 0).result.1.isOk = true ∧
    SameSetup boxedReady (Net.execute boxedReady 0).result.2 ∧
    through .outcome (Net.execute (Net.execute boxedReady 0).result.2 9).result.2 =
      through .outcome (Net.execute boxedReady 0).result.2 ∧
    (Net.execute boxedMisfed 0).result.1.isOk = false ∧
    SameSetup boxedMisfed (Net.execute boxedMisfed 0).result.2 ∧
    (Net.execute (Net.execute boxedMisfed 0).result.2 9).result.1 =
      (Net.execute boxedMisfed 0).result.1 := by
  have hready : boxedReady.isReady = true := by decide +kernel
  have hmisfed : boxedMisfed.isReady = true := by decide +kernel
  have hok : (Net.execute boxedReady 0).result.1.isOk = true := by decide +kernel
  obtain ⟨hg, hb, ho⟩ := reachable_boxedReady
  obtain ⟨hk, hkb, hko⟩ := reachable_boxedMisfed
  have hsetup : ∀ {g : Net}, g.Reachable → g.IsBuiltin → g.isReady = true →
      SameSetup g (Net.execute g 0).result.2 := fun hg hb hr ↦
    .execute ⟨hg.coherent, hr, Nat.le_refl _, hb⟩ 0
  have htwice := hg.execute_oblivious hready hb ho (hg.execute 0) (by decide +kernel)
    (hsetup hg hb hready) 0 9
  have hfail := hk.execute_oblivious hmisfed hkb hko (hk.execute 0) (by decide +kernel)
    (hsetup hk hkb hmisfed) 0 9
  exact ⟨by decide +kernel, by decide +kernel, hok, hsetup hg hb hready,
    htwice.2.1 ((exists_ok_of_isOk hok).elim fun _ h ↦ h), by decide +kernel, hsetup hk hkb hmisfed,
    hfail.1⟩

end Net

end PortGraph
