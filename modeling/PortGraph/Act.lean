import PortGraph.Error

/-!
# Actions

What an operation does besides giving a result: it writes log lines, calls the nodes of a graph,
lets probes leave marks, and draws stamps for new values and links.  An `Act` is a function from
the next free stamp to an `Outcome`, which holds the result and all events in the order in which
they happened; it depends on nothing that happened before.

Events form a tree: what happens while a node is called stands inside the event of the call, and
what happens while one is thrown away inside the event of that.
-/

set_option autoImplicit false

namespace PortGraph

/-! ## Log lines -/

/-- How important a log line is. -/
inductive Level where
  | error
  | warn
  | info
  | debug
  | trace
  deriving DecidableEq, Repr

namespace Level

/-- The place of a level, the most important first. -/
def rank : Level → Nat
  | .error => 1
  | .warn => 2
  | .info => 3
  | .debug => 4
  | .trace => 5

/-- The name of a level. -/
def name : Level → String
  | .error => "ERROR"
  | .warn => "WARN"
  | .info => "INFO"
  | .debug => "DEBUG"
  | .trace => "TRACE"

/-- All levels, the most important first. -/
def all : List Level := [.error, .warn, .info, .debug, .trace]

end Level

/-- What a log line is about. -/
inductive Topic where
  /-- A graph. -/
  | graph
  /-- A factory. -/
  | factory
  /-- The node types that come with the library. -/
  | builtins
  /-- A graph inside a node. -/
  | nesting
  /-- A saved graph. -/
  | description
  /-- The command line. -/
  | command
  deriving DecidableEq, Repr

/-- The target under which the lines of a topic are logged. -/
def Topic.target : Topic → String
  | .graph => "nodeflow_graph::graph"
  | .factory => "nodeflow_graph::factory"
  | .builtins => "nodeflow_graph::nodes"
  | .nesting => "nodeflow_graph::nodes::graph_node"
  | .description => "nodeflow_graph::description"
  | .command => "nodeflow"

/-- A log line. -/
structure LogLine where
  /-- How important it is. -/
  level : Level
  /-- What it is about. -/
  topic : Topic
  /-- What it says. -/
  message : String
  deriving DecidableEq, Repr

/-! ## Events -/

/-- The calls a graph makes on its nodes. -/
inductive Call where
  /-- Get ready to execute. -/
  | init
  /-- Take the inputs and publish outputs. -/
  | execute
  /-- Give back what was taken by `init`. -/
  | destroy
  deriving DecidableEq, Repr

/-- Something that happens during an operation. -/
inductive Event where
  /-- A log line was written. -/
  | log (line : LogLine)
  /-- A probe left a mark. -/
  | mark (text : String)
  /-- A graph called one of its nodes; `events` happened during the call. -/
  | call (node : String) (call : Call) (succeeded : Bool) (events : List Event)
  /-- A graph threw one of its nodes away; `events` happened meanwhile. -/
  | discard (node : String) (events : List Event)

namespace Event

mutual

/-- The marks left by an event. -/
def marks : Event → List String
  | .log _ => []
  | .mark text => [text]
  | .call _ _ _ events => marksOfAll events
  | .discard _ events => marksOfAll events

/-- The marks left by several events. -/
def marksOfAll : List Event → List String
  | [] => []
  | e :: es => marks e ++ marksOfAll es

end

mutual

/-- The log lines written by an event. -/
def lines : Event → List LogLine
  | .log line => [line]
  | .mark _ => []
  | .call _ _ _ events => linesOfAll events
  | .discard _ events => linesOfAll events

/-- The log lines written by several events. -/
def linesOfAll : List Event → List LogLine
  | [] => []
  | e :: es => lines e ++ linesOfAll es

end

end Event

/-! ## Actions -/

/-- What an action gives. -/
structure Outcome (α : Type) where
  /-- Its result. -/
  result : α
  /-- The next free stamp. -/
  stamp : Nat
  /-- What happened. -/
  events : List Event

/-- An action with a result. -/
def Act (α : Type) : Type := Nat → Outcome α

namespace Act

variable {α β : Type}

instance : Monad Act where
  pure a := fun stamp ↦ ⟨a, stamp, []⟩
  bind x f := fun stamp ↦
    let first := x stamp
    let second := f first.result first.stamp
    ⟨second.result, second.stamp, first.events ++ second.events⟩

@[simp] theorem pure_apply (a : α) (stamp : Nat) : (pure a : Act α) stamp = ⟨a, stamp, []⟩ := rfl

@[simp] theorem bind_apply (x : Act α) (f : α → Act β) (stamp : Nat) :
    (x >>= f) stamp =
      ⟨(f (x stamp).result (x stamp).stamp).result, (f (x stamp).result (x stamp).stamp).stamp,
        (x stamp).events ++ (f (x stamp).result (x stamp).stamp).events⟩ := rfl

instance : LawfulMonad Act := LawfulMonad.mk' Act
  (by intro α x; funext s; simp [Functor.map, Function.comp])
  (by intro α β a f; funext s; simp [Bind.bind, Pure.pure])
  (by intro α β γ x f g; funext s; simp [Bind.bind])

/-- Draw a stamp that nothing else has. -/
def fresh : Act Nat := fun stamp ↦ ⟨stamp, stamp + 1, []⟩

/-- Let an event happen. -/
def emit (e : Event) : Act Unit := fun stamp ↦ ⟨(), stamp, [e]⟩

/-- Write a log line. -/
def log (level : Level) (topic : Topic) (message : String) : Act Unit :=
  emit (.log ⟨level, topic, message⟩)

/-- Leave a mark. -/
def mark (text : String) : Act Unit := emit (.mark text)

/-- Call a node; everything that happens meanwhile belongs to the call. -/
def calling (node : String) (call : Call) (succeeded : α → Bool) (x : Act α) : Act α :=
  fun stamp ↦
    let outcome := x stamp
    { outcome with events := [.call node call (succeeded outcome.result) outcome.events] }

/-- Throw a node away; everything that happens meanwhile belongs to it. -/
def discarding (node : String) (x : Act Unit) : Act Unit := fun stamp ↦
  let outcome := x stamp
  { outcome with events := [.discard node outcome.events] }

/-- Publish a value. -/
def publish (v : Value) : Act Packet := do
  let stamp ← fresh
  return ⟨v, stamp⟩

/-- Draw the id of a new link, which is never the nil one. -/
def newLinkId : Act LinkId := do
  let stamp ← fresh
  return ⟨stamp + 1⟩

end Act

/-- An action that a graph may refuse. -/
abbrev Attempt (α : Type) : Type := ExceptT GraphError Act α

/-- Two attempts that succeed in a row succeed one after the other. -/
theorem Attempt.of_bind_eq_ok {α β : Type} {x : Attempt α} {f : α → Attempt β} {stamp : Nat} {b : β}
    (h : ((x >>= f).run stamp).result = .ok b) :
    ∃ a, (x.run stamp).result = .ok a ∧ ((f a).run (x.run stamp).stamp).result = .ok b := by
  rw [ExceptT.run_bind, Act.bind_apply] at h
  cases hx : (x.run stamp).result with
  | error e =>
    rw [hx] at h
    exact absurd h (by simp)
  | ok a =>
    rw [hx] at h
    exact ⟨a, rfl, h⟩

/-- Of two attempts in a row the first fails, or the second after it. -/
theorem Attempt.of_bind_eq_error {α β : Type} {x : Attempt α} {f : α → Attempt β} {stamp : Nat}
    {e : GraphError} (h : ((x >>= f).run stamp).result = .error e) :
    (x.run stamp).result = .error e ∨
      ∃ a, (x.run stamp).result = .ok a ∧ ((f a).run (x.run stamp).stamp).result = .error e := by
  rw [ExceptT.run_bind, Act.bind_apply] at h
  cases hx : (x.run stamp).result with
  | error cause =>
    rw [hx] at h
    exact .inl (congrArg Except.error (Except.error.inj h))
  | ok a =>
    rw [hx] at h
    exact .inr ⟨a, rfl, h⟩

/-- An attempt goes on with the result of its first part. -/
theorem Attempt.run_bind_of_ok {α γ : Type} {x : Attempt α} {f : α → Attempt γ} {stamp : Nat}
    {a : α} (h : (x.run stamp).result = .ok a) :
    ((x >>= f).run stamp).result = ((f a).run (x.run stamp).stamp).result := by
  rw [ExceptT.run_bind, Act.bind_apply, h]

end PortGraph
