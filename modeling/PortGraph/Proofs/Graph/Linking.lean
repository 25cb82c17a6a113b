import PortGraph.Proofs.Graph.Effects
import PortGraph.Proofs.Graph.Reachable

/-!
# A link is made and taken back

Whether a link may be made is asked twice: of the two ports (`Port.canLinkTo`), and of the graph, which
looks the ports up first.  `Graph.HandlesLink` says that the answers agree with each other and with the
links that there are, what making the link changes, and that removing it undoes the change.  A graph does
so whose links and ports belong together, if its ports are on the sides that they are made for
(`WellLinked.handlesLink_of_isSided`).
-/

set_option autoImplicit false

namespace PortGraph

/-- Every port is on the side that it is made for. -/
def Panel.IsSided (panel : Panel) : Prop := ∀ side, ∀ p ∈ panel.ports side, p.direction = side

namespace Graph

variable {β : Type} {g : Graph β} {source target : Endpoint} {p q : Port}

/-- Every port of the graph is on the side that it is made for. -/
def IsSided (g : Graph β) : Prop := ∀ s ∈ g.slots, s.node.panel.IsSided

theorem IsSided.direction_eq (h : g.IsSided) {side : Direction} {e : Endpoint}
    (hp : g.port? side e = some p) : p.direction = side := by
  obtain ⟨n, hn, hp⟩ := Option.bind_eq_some_iff.mp hp
  exact h _ (mem_of_node? hn) side p (Port.mem_of_named? hp).1

/-! ## Whether a link may be made -/

/-- The ports may be linked just when they carry the same and no link ends at the input. -/
theorem canLinkTo_iff (h : g.WellLinked) (hs : g.IsSided) (hp : g.port? .output source = some p)
    (hq : g.port? .input target = some q) : p.canLinkTo q = true ↔
      p.dataType = q.dataType ∧ ∀ l ∈ g.links, l.target ≠ target := by
  have hfree : q.isLinked = false ↔ ∀ l ∈ g.links, l.target ≠ target := by
    rw [← Bool.not_eq_true, h.isLinked_iff hq]
    simp [Link.place]
  rw [Port.canLinkTo, hs.direction_eq hp, hs.direction_eq hq, ← hfree]
  simp

theorem linkType_eq_ok_iff (hs : g.IsSided) {t : DataType} : g.linkType source target = .ok t ↔
    ∃ p q, g.port? .output source = some p ∧ g.port? .input target = some q ∧
      p.canLinkTo q = true ∧ p.dataType = t := by
  constructor
  · intro h
    obtain ⟨p, q, hp, hq, hpt, hqt, hfree⟩ := linkType_eq_ok h
    refine ⟨p, q, hp, hq, ?_, hpt⟩
    rw [Port.canLinkTo, hs.direction_eq hp, hs.direction_eq hq, hpt, hqt, Port.isLinked, hfree]
    simp
  · rintro ⟨p, q, hp, hq, hcan, rfl⟩
    simp only [Port.canLinkTo, Bool.and_eq_true, decide_eq_true_eq, Bool.not_eq_true'] at hcan
    obtain ⟨⟨-, ht⟩, hfree⟩ := hcan
    exact ht ▸ linkType_of_ports hp hq ht hfree

theorem addLink_of_linkType {t : DataType} (ht : g.linkType source target = .ok t) (stamp : Nat) :
    (g.addLink source target stamp).result =
      (.ok ⟨stamp + 1⟩, g.insertLink ⟨⟨stamp + 1⟩, source, target, t⟩) := by
  rw [addLink, ht]
  rfl

/-! ## Making a link and removing it -/

/-- **How a graph handles a link** from an output to an input. -/
structure HandlesLink (g : Graph β) (source target : Endpoint) : Prop where
  /-- It is made just when the ports are there and may be linked. -/
  accepted : ∀ stamp, (∃ id, (g.addLink source target stamp).result.1 = .ok id) ↔
    ∃ p q, g.port? .output source = some p ∧ g.port? .input target = some q ∧
      p.canLinkTo q = true
  /-- The ports may be linked just when they carry the same and no link ends at the input. -/
  fitting : ∀ p q, g.port? .output source = some p → g.port? .input target = some q →
    (p.canLinkTo q = true ↔ p.dataType = q.dataType ∧ ∀ l ∈ g.links, l.target ≠ target)
  /-- It comes behind the others.  Its ends count it, and the input is emptied; nothing else changes, but
  that the graph is to be compiled and saved. -/
  made : ∀ stamp id k, (g.addLink source target stamp).result = (.ok id, k) →
    ∃ p, g.port? .output source = some p ∧ k =
      { (g.mapPorts fun side e p ↦
          if side = .output ∧ e = source then p.attach
          else if side = .input ∧ e = target then p.attach.store none
          else p).invalidate with
        links := g.links ++ [⟨id, source, target, p.dataType⟩] }
  /-- Whether it is removed by its id, which is new, or by its input: what stays is that the input is
  empty and that the graph is to be compiled and saved. -/
  undone : ∀ stamp id k, (g.addLink source target stamp).result = (.ok id, k) →
    (∀ l ∈ g.links, l.id ≠ id) → g.isProtected = false → ∀ stamp', ∃ l,
      l ∈ k.links ∧ l.id = id ∧
      (k.removeLinkById id stamp').result =
        (.ok l, (g.modifyPort .input target (·.store none)).invalidate) ∧
      (k.removeLink target stamp').result =
        (.ok l, (g.modifyPort .input target (·.store none)).invalidate)

theorem removeLinkById_insertLink (h : g.WellLinked) (hp : g.isProtected = false) {l : Link}
    (hfresh : ∀ j ∈ g.links, j.id ≠ l.id) (stamp : Nat) :
    ((g.insertLink l).removeLinkById l.id stamp).result =
      (.ok l, (g.modifyPort .input l.target (·.store none)).invalidate) := by
  have hopen : (g.insertLink l).isProtected = false := hp
  have hdrop := congrArg invalidate (dropLink_insertLink h.regular hfresh)
  rw [removeLinkById, hopen, link?_insertLink hfresh]
  exact congrArg (Prod.mk (Except.ok l)) hdrop

/-- **Making a link is undone by removing it.** -/
theorem WellLinked.handlesLink_of_isSided (h : g.WellLinked) (hs : g.IsSided) (source target : Endpoint) :
    g.HandlesLink source target where
  accepted stamp := by
    constructor
    · rintro ⟨id, hok⟩
      obtain ⟨-, t, ht, -⟩ := addLink_eq_ok (Prod.ext hok rfl : _ = (Except.ok id, _))
      obtain ⟨p, q, hp, hq, hcan, -⟩ := (linkType_eq_ok_iff hs).mp ht
      exact ⟨p, q, hp, hq, hcan⟩
    · rintro ⟨p, q, hp, hq, hcan⟩
      have ht := (linkType_eq_ok_iff hs).mpr ⟨p, q, hp, hq, hcan, rfl⟩
      exact ⟨_, congrArg Prod.fst (addLink_of_linkType ht stamp)⟩
  fitting p q hp hq := canLinkTo_iff h hs hp hq
  made stamp id k hk := by
    obtain ⟨-, t, ht, -⟩ := addLink_eq_ok hk
    obtain ⟨p, q, hp, -, -, rfl⟩ := (linkType_eq_ok_iff hs).mp ht
    obtain ⟨hid, rfl⟩ := Prod.mk.inj (hk.symm.trans (addLink_of_linkType ht stamp))
    obtain rfl := Except.ok.inj hid
    refine ⟨p, hp, ?_⟩
    rw [insertLink_eq h.regular]
    simp only [atEnd_place_eq]
  undone stamp id k hk hfresh hopen stamp' := by
    obtain ⟨-, t, ht, -⟩ := addLink_eq_ok hk
    obtain ⟨p, q, hp, hq, hcan, -⟩ := (linkType_eq_ok_iff hs).mp ht
    obtain ⟨hid, rfl⟩ := Prod.mk.inj (hk.symm.trans (addLink_of_linkType ht stamp))
    obtain rfl := Except.ok.inj hid
    have hremove := removeLinkById_insertLink h hopen (l := ⟨⟨stamp + 1⟩, source, target, t⟩) hfresh
      stamp'
    refine ⟨⟨⟨stamp + 1⟩, source, target, t⟩, List.mem_append_right _ (List.mem_singleton_self _), rfl,
      hremove, ?_⟩
    -- no other link ends at the input
    have hnone : g.links.find? (fun l ↦ l.target = target) = none :=
      List.find?_eq_none.mpr fun l hl ↦ by simpa using ((canLinkTo_iff h hs hp hq).mp hcan).2 l hl
    have hfound : (g.insertLink ⟨⟨stamp + 1⟩, source, target, t⟩).linkTo? target =
        some ⟨⟨stamp + 1⟩, source, target, t⟩ := by
      rw [linkTo?, Graph.insertLink, List.find?_append, hnone]
      simp
    rw [removeLink, hfound]
    exact hremove

end Graph
end PortGraph
