import Mathlib.Data.List.Induction
import PortGraph.Graph.Edit
import PortGraph.Graph.Saved

/-!
# Which calls a node receives

The events of an operation show every call that a graph makes on a node, and what happens during a
call stands inside its event.  So the calls on one node, in whatever graph inside the node of another
graph it may be, are found along the path of the names that lead to it (`Event.callsAt`).

A graph may not call its nodes in any order.  `Call.leaves` says which call may come next, and what it
leaves: whether the node is initialised then.  In a row of calls that keep to this, the successful
calls to get ready and those to give back alternate (`Call.alternates_of_leavesAll`).
-/

set_option autoImplicit false

namespace PortGraph

/-! ## Calls in a row -/

namespace Call

/-- Whether a node is initialised after a call, if the call may be made: one that is not initialised
may only be initialised, which may fail, and one that is may be executed and destroyed. -/
def leaves : Bool → Call × Bool → Option Bool
  | false, (.init, succeeded) => some succeeded
  | true, (.execute, _) => some true
  | true, (.destroy, _) => some false
  | _, _ => none

/-- Whether a node is initialised after some calls, if they may be made in this order. -/
def leavesAll (flag : Bool) (calls : List (Call × Bool)) : Option Bool := calls.foldlM leaves flag

@[simp] theorem leavesAll_singleton (flag : Bool) (call : Call × Bool) :
    leavesAll flag [call] = leaves flag call := by
  rw [leavesAll, List.foldlM_cons]
  exact bind_pure _

theorem leavesAll_append (flag : Bool) (calls more : List (Call × Bool)) :
    leavesAll flag (calls ++ more) = (leavesAll flag calls).bind (leavesAll · more) :=
  List.foldlM_append

/-- What turns a node: a call that gets it ready, or one to give back. -/
def turn? : Call × Bool → Option Call
  | (.init, true) => some .init
  | (.destroy, _) => some .destroy
  | _ => none

/-- Successful calls to get ready and calls to give back alternate, and the first one is to get ready.
If `ready`, the last one is, too. -/
def Alternates (calls : List (Call × Bool)) (ready : Bool) : Prop :=
  ∃ rounds, calls.filterMap turn? =
    (List.replicate rounds [.init, .destroy]).flatten ++ if ready then [.init] else []

/-- **In calls that may be made in their order, getting ready and giving back alternate**, and the node
is initialised if the last of the two was to get ready. -/
theorem alternates_of_leavesAll {calls : List (Call × Bool)} {flag : Bool}
    (h : leavesAll false calls = some flag) : Alternates calls flag := by
  induction calls using List.reverseRecOn generalizing flag with
  | nil =>
    obtain rfl := Option.some.inj h
    exact ⟨0, rfl⟩
  | append_singleton calls call ih =>
    rw [leavesAll_append, Option.bind_eq_some_iff] at h
    obtain ⟨before, hbefore, h⟩ := h
    obtain ⟨rounds, hrounds⟩ := ih hbefore
    rw [leavesAll_singleton] at h
    rw [Alternates, List.filterMap_append, hrounds]
    obtain ⟨call, succeeded⟩ := call
    cases before with
    | false =>
      -- nothing but getting ready may come next
      cases call with
      | init =>
        obtain rfl := Option.some.inj h
        refine ⟨rounds, ?_⟩
        cases succeeded <;> simp [turn?]
      | execute => exact absurd h (by simp [leaves])
      | destroy => exact absurd h (by simp [leaves])
    | true =>
      cases call with
      | init => exact absurd h (by simp [leaves])
      | execute =>
        obtain rfl := Option.some.inj h
        exact ⟨rounds, by simp [turn?]⟩
      | destroy =>
        obtain rfl := Option.some.inj h
        exact ⟨rounds + 1, by simp [turn?, List.replicate_succ']⟩

end Call

/-! ## Calls on a node -/

/-- The calls on nodes, by the paths that lead to them: the names of the nodes that hold one another,
the outermost first. -/
abbrev Chronicle : Type := List String → List (Call × Bool)

namespace Event

mutual

/-- The calls that an event shows of the node at a path. -/
def callsAt : Event → Chronicle
  | .call node c succeeded events, name :: path =>
    if node = name then (if path = [] then [(c, succeeded)] else []) ++ callsAtAll events path
    else []
  | .discard node events, name :: path => if node = name then callsAtAll events path else []
  | _, _ => []

/-- The calls that several events show of the node at a path. -/
def callsAtAll : List Event → Chronicle
  | [], _ => []
  | e :: es, path => callsAt e path ++ callsAtAll es path

end

theorem callsAtAll_append (es es' : List Event) (path : List String) :
    callsAtAll (es ++ es') path = callsAtAll es path ++ callsAtAll es' path := by
  induction es with
  | nil => rfl
  | cons e es ih => rw [List.cons_append, callsAtAll, callsAtAll, ih, List.append_assoc]

@[simp] theorem callsAt_nil (e : Event) : callsAt e [] = [] := by cases e <;> rfl

@[simp] theorem callsAt_log (line : LogLine) (path : List String) : callsAt (.log line) path = [] := by
  cases path <;> rfl

theorem callsAtAll_nil (es : List Event) : callsAtAll es [] = [] := by
  induction es with
  | nil => rfl
  | cons e es ih => rw [callsAtAll, callsAt_nil, ih, List.nil_append]

end Event

/-! ## Actions without calls -/

/-- While an action happens no graph calls a node. -/
def Act.IsQuiet {α : Type} (x : Act α) : Prop :=
  ∀ stamp path, Event.callsAtAll (x stamp).events path = []

namespace Act

variable {α γ : Type}

theorem isQuiet_pure (a : α) : (pure a : Act α).IsQuiet := fun _ _ ↦ rfl

theorem isQuiet_log (level : Level) (topic : Topic) (message : String) :
    (log level topic message).IsQuiet := fun _ path ↦ by
  rw [log, emit, Event.callsAtAll, Event.callsAt_log]
  rfl

theorem isQuiet_fresh : fresh.IsQuiet := fun _ _ ↦ rfl

theorem IsQuiet.bind {x : Act α} {f : α → Act γ} (hx : x.IsQuiet) (hf : ∀ a, (f a).IsQuiet) :
    (x >>= f).IsQuiet := fun stamp path ↦ by
  rw [bind_apply, Event.callsAtAll_append, hx, hf]
  rfl

theorem isQuiet_publish (v : Value) : (publish v).IsQuiet :=
  isQuiet_fresh.bind fun _ ↦ isQuiet_pure _

theorem isQuiet_newLinkId : newLinkId.IsQuiet := isQuiet_fresh.bind fun _ ↦ isQuiet_pure _

end Act

namespace Graph

variable {β : Type} (g : Graph β)

theorem isQuiet_addNode (n : Node β) : (g.addNode n).IsQuiet := by
  rw [addNode]
  split
  · exact Act.isQuiet_pure _
  · exact (Act.isQuiet_log _ _ _).bind fun _ ↦ Act.isQuiet_pure _

theorem isQuiet_addLink (source target : Endpoint) : (g.addLink source target).IsQuiet := by
  rw [addLink]
  split
  · exact Act.isQuiet_pure _
  · exact Act.isQuiet_newLinkId.bind fun _ ↦ (Act.isQuiet_log _ _ _).bind fun _ ↦ Act.isQuiet_pure _

theorem isQuiet_removeLinkById (id : LinkId) : (g.removeLinkById id).IsQuiet := by
  rw [removeLinkById]
  split
  · exact Act.isQuiet_pure _
  · split
    · exact Act.isQuiet_pure _
    · exact (Act.isQuiet_log _ _ _).bind fun _ ↦ Act.isQuiet_pure _

theorem isQuiet_removeLink (target : Endpoint) : (g.removeLink target).IsQuiet := by
  rw [removeLink]
  split
  · exact Act.isQuiet_pure _
  · exact g.isQuiet_removeLinkById _

theorem isQuiet_warnUnlinked : g.warnUnlinked.IsQuiet := by
  rw [warnUnlinked]
  split
  · induction g.slots.filter fun s ↦ s.node.panel.isSource && s.node.panel.isSink with
    | nil => exact Act.isQuiet_pure _
    | cons s slots ih => exact (Act.isQuiet_log _ _ _).bind fun _ ↦ ih
  · exact Act.isQuiet_pure _

end Graph

end PortGraph
