import PortGraph.Proofs.Graph.Topology
import PortGraph.Proofs.Net.Reachable

/-!
# Changes that are not saved

`Net.Since` lists the nets that come about, each with the topology that it had when it was made,
loaded or last saved.  Whatever is asked of a net, and whether or not it is refused, a net that says
it need not be saved has that topology still (`Net.Since.tells_changes`).
-/

set_option autoImplicit false

namespace PortGraph

open PortGraph.Graph

namespace Net

/-- The nets that come about, each with the topology that it had when it was made, loaded or last
saved.  What is read from files and whether they can be written is up to the files. -/
inductive Since : Net → Topology → Prop
  /-- A new net is empty. -/
  | empty (name : String) (factories : FactorySet) : Since { name, factories } {}
  /-- A net was made of a description. -/
  | described {factories : FactorySet} {d : GraphDescription} {stamp : Nat} {g : Net}
      (h : ((ofDescription factories d).run stamp).result = .ok g) : Since g g.topology
  /-- A net was loaded from a file. -/
  | loaded {files : FileAccess Id} {path : String} {factories : FactorySet} {stamp : Nat} {g : Net}
      (h : (((load files path).run factories).run stamp).result = .ok g) : Since g g.topology
  /-- The host asked for something. -/
  | step {g : Net} {t : Topology} (r : Request Behaviour) (stamp : Nat) (h : Since g t) :
      Since (r.perform g.life FactorySet.createNode g stamp).result t
  /-- The net was saved. -/
  | saved {g : Net} {t : Topology} {files : FileAccess Id} {path : String} {stamp : Nat}
      (h : Since g t)
      (hok : ((save files path g).run stamp).result.1 = .ok ()) :
      Since ((save files path g).run stamp).result.2
        (Graph.topology ((save files path g).run stamp).result.2)
  /-- The net could not be saved. -/
  | unsaved {g : Net} {t : Topology} {files : FileAccess Id} {path : String} {stamp : Nat}
      {e : GraphError} (h : Since g t)
      (he : ((save files path g).run stamp).result.1 = .error e) :
      Since ((save files path g).run stamp).result.2 t
  /-- A node that holds the net exposed one of its inputs. -/
  | exposed {g k : Net} {t : Topology} {place : Endpoint} (h : Since g t)
      (hk : g.expose place = .ok k) : Since k t
  /-- A node that holds the net fed one of its inputs. -/
  | fed {g k : Net} {t : Topology} {place : Endpoint} {packet : Option Packet} (h : Since g t)
      (hk : g.feed place packet = .ok k) : Since k t

/-! ## Files -/

/-- A net that was loaded was made of a description. -/
theorem load_eq_ok {files : FileAccess Id} {path : String} {factories : FactorySet} {stamp : Nat}
    {g : Net} (h : (((load files path).run factories).run stamp).result = .ok g) :
    ∃ d stamp', ((ofDescription factories d).run stamp').result = .ok g := by
  rw [load] at h
  cases hf : FileFormat.ofPath path with
  | error e =>
    rw [hf] at h
    exact absurd (show Except.error e = Except.ok g from h) (by simp)
  | ok format =>
    rw [hf] at h
    cases hr : (files.read path).run with
    | error e =>
      have hread : files.read path = .error e := hr
      simp only [hread] at h
      exact absurd (show Except.error (GraphError.file e) = Except.ok g from h) (by simp)
    | ok text =>
      have hread : files.read path = .ok text := hr
      simp only [hread] at h
      obtain ⟨d, -, h⟩ := Attempt.of_bind_eq_ok (show ((ofFileText path format text factories).run
        stamp).result = .ok g from h)
      obtain ⟨-, -, h⟩ := Attempt.of_bind_eq_ok h
      obtain ⟨k, hk, h⟩ := Attempt.of_bind_eq_ok h
      obtain ⟨-, -, h⟩ := Attempt.of_bind_eq_ok h
      exact ⟨d, _, hk.trans h⟩

/-- Saving fails and leaves the net, or it is recorded. -/
theorem save_cases (files : FileAccess Id) (path : String) (g : Net) (stamp : Nat) :
    (∃ e, ((save files path g).run stamp).result = (.error e, g)) ∨
      ((save files path g).run stamp).result = (.ok (), { g with isModified := false }) := by
  rw [save]
  cases g.fileText path with
  | error e => exact .inl ⟨e, rfl⟩
  | ok text =>
    cases hw : (files.write path text).run with
    | error e =>
      have hwrite : files.write path text = .error e := hw
      simp only [hwrite]
      exact .inl ⟨_, rfl⟩
    | ok _ =>
      have hwrite : files.write path text = .ok () := hw
      simp only [hwrite]
      exact .inr rfl

/-! ## The record -/

theorem nodup_nodeNames_of_ofDescription {factories : FactorySet} {d : GraphDescription}
    {stamp : Nat} {g : Net} (h : ((ofDescription factories d).run stamp).result = .ok g) :
    g.nodeNames.Nodup :=
  (coherent_iff.mp (Reachable.described h).coherent).1.keys_nodup

/-- What a node does to a net that it holds is no matter of its topology. -/
theorem undisturbed_expose {g k : Net} {place : Endpoint} (hk : g.expose place = .ok k) :
    g.Undisturbed k ∧ k.nodeNames = g.nodeNames := by
  refine ⟨?_, nodeNames_expose hk⟩
  obtain rfl := expose_eq_ok hk
  have hport := undisturbed_modifyPort g .input place fun p ↦ { p with isExposed := true }
  exact ⟨hport.topology, hport.isModified⟩

theorem undisturbed_feed {g k : Net} {place : Endpoint} {packet : Option Packet}
    (hk : g.feed place packet = .ok k) : g.Undisturbed k ∧ k.nodeNames = g.nodeNames := by
  refine ⟨?_, nodeNames_feed hk⟩
  obtain rfl := feed_eq_ok hk
  exact undisturbed_modifyPort g .input place _

/-- A request is recorded, or the net still has the topology that it had. -/
theorem topology_perform {g : Net} {t : Topology} (hnd : g.nodeNames.Nodup)
    (h : g.isModified = false → g.topology = t) (r : Request Behaviour) (stamp : Nat)
    (hm : (r.perform g.life FactorySet.createNode g stamp).result.isModified = false) :
    (r.perform g.life FactorySet.createNode g stamp).result.topology = t := by
  have hk := keepsOutline_life (Behaviour.slotsDepth g.slots + 1)
  rw [Request.perform_eq_reply] at hm ⊢
  by_cases hr : r.edits = true ∧ (r.reply g.life FactorySet.createNode g stamp).result.1 = .ok ()
  · rw [Request.isModified_of_edits hr.1 hr.2] at hm
    exact absurd hm (by simp)
  · refine (Request.undisturbed hk hnd fun hedits ↦ ?_).topology_eq h hm
    cases hx : (r.reply g.life FactorySet.createNode g stamp).result.1 with
    | error e => exact ⟨e, hx⟩
    | ok _ => exact absurd ⟨hedits, hx⟩ hr

theorem Since.topology_eq {g : Net} {t : Topology} (h : Since g t) :
    g.nodeNames.Nodup ∧ (g.isModified = false → g.topology = t) := by
  induction h with
  | empty name factories => exact ⟨List.nodup_nil, fun _ ↦ rfl⟩
  | described h => exact ⟨nodup_nodeNames_of_ofDescription h, fun _ ↦ rfl⟩
  | loaded h =>
    obtain ⟨d, stamp', hd⟩ := load_eq_ok h
    exact ⟨nodup_nodeNames_of_ofDescription hd, fun _ ↦ rfl⟩
  | @step g t r stamp _ ih =>
    have hk := keepsOutline_life (Behaviour.slotsDepth g.slots + 1)
    exact ⟨Request.nodup_nodeNames hk ih.1 r, topology_perform ih.1 ih.2 r stamp⟩
  | @saved g t files path stamp _ hok ih =>
    refine ⟨?_, fun _ ↦ rfl⟩
    rcases save_cases files path g stamp with ⟨e, heq⟩ | heq
    · rw [heq]
      exact ih.1
    · rw [heq]
      exact ih.1
  | @unsaved g t files path stamp e _ he ih =>
    rcases save_cases files path g stamp with ⟨e, heq⟩ | heq
    · rw [heq]
      exact ih
    · rw [heq] at he
      exact absurd he (by simp)
  | exposed _ hk ih =>
    obtain ⟨hsame, hnames⟩ := undisturbed_expose hk
    exact ⟨hnames ▸ ih.1, hsame.topology_eq ih.2⟩
  | fed _ hk ih =>
    obtain ⟨hsame, hnames⟩ := undisturbed_feed hk
    exact ⟨hnames ▸ ih.1, hsame.topology_eq ih.2⟩

/-- **A net that says it need not be saved has the topology that it had** when it was made, loaded
or last saved.  Whatever changes nodes or links makes it say that it is to be saved; any other
request, one that is refused, and a file that cannot be written leave what it says. -/
theorem Since.tells_changes {g : Net} {t : Topology} (h : Since g t) :
    (g.isModified = false → g.topology = t) ∧
    (∀ (r : Request Behaviour) (stamp : Nat), r.edits = true →
      (r.reply g.life FactorySet.createNode g stamp).result.1 = .ok () →
      (r.reply g.life FactorySet.createNode g stamp).result.2.isModified = true) ∧
    (∀ (r : Request Behaviour) (stamp : Nat),
      (r.edits = false ∨ ∃ e, (r.reply g.life FactorySet.createNode g stamp).result.1 = .error e) →
      (r.reply g.life FactorySet.createNode g stamp).result.2.isModified = g.isModified) ∧
    ∀ (files : FileAccess Id) (path : String) (stamp : Nat) (e : GraphError),
      ((save files path g).run stamp).result.1 = .error e →
      (((save files path g).run stamp).result.2).isModified = g.isModified := by
  obtain ⟨hnd, ht⟩ := h.topology_eq
  refine ⟨ht, fun r stamp hr hok ↦ Request.isModified_of_edits hr hok, fun r stamp hr ↦ ?_,
    fun files path stamp e he ↦ ?_⟩
  · have hk := keepsOutline_life (Behaviour.slotsDepth g.slots + 1)
    exact (Request.undisturbed hk hnd fun hedits ↦ hr.resolve_left (by simp [hedits])).isModified
  · rcases save_cases files path g stamp with ⟨e, heq⟩ | heq
    · rw [heq]
    · rw [heq] at he
      exact absurd he (by simp)

/-! ## A net that is saved -/

/-- Files of which none is there, and each can be written. -/
def sampleFiles : FileAccess Id where
  read _ := .error .notFound
  write _ _ := .ok ()
  isPresent _ := false

/-- A net of one node that was saved and compiled. -/
def sampleSaved : Net :=
  let g := ((save sampleFiles "net.json" (withNode "net" sampleStep)).run 0).result.2
  (Request.compile.perform g.life FactorySet.createNode g 0).result

theorem since_sampleSaved : Since sampleSaved ⟨[("step", "Plain")], []⟩ := by
  have hok : ((save sampleFiles "net.json" (withNode "net" sampleStep)).run 0).result.1 =
      .ok () := by
    obtain ⟨⟨⟩, hok⟩ := exists_ok_of_isOk (x :=
      ((save sampleFiles "net.json" (withNode "net" sampleStep)).run 0).result.1)
        (by decide +kernel)
    exact hok
  have hnew : Since (withNode "net" sampleStep) {} :=
    .step (.addNode sampleStep) 0 (.empty "net" {})
  have ht : Graph.topology ((save sampleFiles "net.json" (withNode "net" sampleStep)).run
      0).result.2 = ⟨[("step", "Plain")], []⟩ := by decide +kernel
  exact .step .compile 0 (ht ▸ hnew.saved hok)

theorem tells_changes_sampleSaved :
    sampleSaved.isModified = false ∧ sampleSaved.topology = ⟨[("step", "Plain")], []⟩ ∧
    ((Request.removeNode "step").reply sampleSaved.life FactorySet.createNode sampleSaved
      0).result.2.isModified = true ∧
    (Request.execute.reply sampleSaved.life FactorySet.createNode sampleSaved
      0).result.2.isModified = false := by
  have hsaved : sampleSaved.isModified = false := by decide +kernel
  obtain ⟨ht, hedits, hrest, -⟩ := since_sampleSaved.tells_changes
  obtain ⟨⟨⟩, hremoved⟩ := exists_ok_of_isOk (x := ((Request.removeNode "step").reply
    sampleSaved.life FactorySet.createNode sampleSaved 0).result.1) (by decide +kernel)
  exact ⟨hsaved, ht hsaved, hedits _ 0 rfl hremoved, (hrest .execute 0 (.inl rfl)).trans hsaved⟩

end Net
end PortGraph
