import PortGraph.Proofs.Net.Operators
import PortGraph.Proofs.Net.Restored

/-!
# Saving and loading

A net of savable nodes that is saved and loaded again comes back: it has the shape it had, and is
saved as the same description once more (`Net.exists_reloaded`).  So it compiles as before
(`Net.compile_congr`); and if it had no operators but those that come with its operations, and no
values on its inputs, then pass for pass it computes what the other one computes (`Net.InStep`).
-/

set_option autoImplicit false

namespace PortGraph

open PortGraph.Graph

namespace Net

variable {g k : Net} {set : FactorySet}

/-! ## The net that comes back -/

/-- **A net of savable nodes that is saved and loaded again comes back.** -/
theorem exists_reloaded {stamp₀ : Nat} (hset : (FactorySet.builtins.run stamp₀).result = .ok set)
    (hg : g.Coherent) (hb : g.IsBuiltin) (ho : g.IsOutermost) (hs : g.IsSavable) (stamp : Nat) :
    ∃ d k, g.description = .ok d ∧ ((Net.ofDescription set d).run stamp).result = .ok k ∧
      description k = .ok d ∧ through .form k = through .shape g := by
  have hwell := (coherent_iff.mp hg).1
  obtain ⟨nodes, hnodes⟩ := hs.exists_descriptions
  obtain ⟨d, hd⟩ : ∃ d : GraphDescription,
    d = { name := g.name, nodes, links := g.links.map Link.description } := ⟨_, rfl⟩
  have hrestored : List.Forall₂ (fun (s : Slot Behaviour) d ↦ s.ToldBy d ∧ ∀ stamp, ∃ m,
      ((set.createNode d).run stamp).result = .ok m ∧ s.RestoredBy d m) g.slots nodes := by
    refine forall₂_of_map_eq hnodes fun s hmem d _ hsd ↦ ?_
    have htold := (Slot.description_eq_ok_iff.mp hsd).1
    refine ⟨htold, fun stamp ↦ ?_⟩
    refine FactorySet.exists_restored hset (hb s hmem) (hs s hmem) (hg.sound_of_mem hmem) htold
      (fun config hconfig ↦ ?_) stamp
    rw [hconfig]
    exact Nat.le_refl _
  obtain ⟨k, hk, hdescribed, hmade, hlinks, hname⟩ := exists_rebuilt
    (fun _ _ _ hn ↦ (FactorySet.isFresh_of_createWithin _ _ hn).detached) hwell (d := d)
    (by rw [hd]) (by rw [hd]; exact hrestored) set stamp
  have hosted := isHosted_of_load (FactorySet.isProbeless_builtins hset) hk
  refine ⟨d, k, hd ▸ description_of_map hnodes, hk, ?_, ?_⟩
  · rw [description_of_map hdescribed, hname, Link.map_description_congr hlinks, hd]
  · exact form_of_made hwell (coherent_iff.mp hosted.coherent).1 hmade hlinks (fun _ ↦ false) ho
      hosted.isOutermost

/-! ## Compiling -/

/-- **Nets of one shape compile alike**: with the same result, and into the same order. -/
theorem compile_congr (hg : g.Coherent) (hgb : g.IsBuiltin) (hk : k.Coherent) (hkb : k.IsBuiltin)
    (h : through .shape k = through .shape g) (stamp stamp' : Nat) :
    (Net.compile k stamp').result.1 = (Net.compile g stamp).result.1 ∧
      (Net.compile k stamp').result.2.order = (Net.compile g stamp).result.2.order := by
  have hverdict : ∀ {j : Net}, j.Coherent → j.IsBuiltin → ∀ stamp,
      (Net.compile j stamp).result.1 = j.verdict :=
    fun hj hjb ↦ hj.compile_verdict hjb (Nat.le_refl _)
  have horder : ∀ {j : Net}, j.Coherent → j.IsBuiltin → ∀ stamp,
      (Net.compile j stamp).result.2.order = match j.verdict with
        | .ok () => ((j.plan.toOption.getD []).map Step.node).filterMap (j.nodeNames[·]?)
        | .error _ => [] := by
    intro j hj hjb stamp
    obtain ⟨hwell, hcached, -⟩ := coherent_iff.mp hj
    have hkeeps := keepsOutline_life (Behaviour.slotsDepth j.slots + 1)
    have hnames : (Net.compile j stamp).result.2.nodeNames = j.nodeNames :=
      nodeNames_of_skeleton_eq (skeleton_compile hkeeps _ stamp)
    obtain ⟨hplan, hnone⟩ := hcached.schedule_compile hkeeps hwell stamp
    rw [order, namesAt_eq, hnames, ← hverdict hj hjb stamp]
    cases hr : (Net.compile j stamp).result.1 with
    | ok _ =>
      rw [hplan hr]
      rfl
    | error e =>
      rw [show (Net.compile j stamp).result.2.schedule = [] from hnone e hr]
      rfl
  have hnames : nodeNames k = g.nodeNames := by
    rw [← nodeNames_through .shape k, h, nodeNames_through]
  rw [hverdict hg hgb, hverdict hk hkb, horder hg hgb, horder hk hkb, verdict_congr h, plan_congr h,
    hnames]
  exact ⟨rfl, rfl⟩

/-! ## Executing -/

/-- **Two nets are in step**: they have one form, and the same values can be read off their inputs
that no link touches. -/
structure InStep (g k : Net) : Prop where
  /-- They have one form. -/
  form : through .form k = through .form g
  /-- Their inputs without links read alike. -/
  reading : ∀ e p q, g.port? .input e = some p → k.port? .input e = some q → q.isLinked = false →
    q.data.map Packet.value = p.data.map Packet.value

/-- Nets of one form on whose inputs their hosts have put no values are in step. -/
theorem inStep_of_isUnfed (hg : g.IsHosted) (hgu : g.IsUnfed) (hk : k.IsHosted) (hku : k.IsUnfed)
    (h : through .form k = through .form g) : InStep g k := by
  refine ⟨h, fun e p q hp hq hfree ↦ ?_⟩
  have hform := port?_form_eq h .input e
  rw [hp, hq, Option.map_some, Option.map_some, Option.some.injEq] at hform
  have hfree' : p.isLinked = false := (congrArg Port.isLinked hform).symm.trans hfree
  have hdata : ∀ {j : Net}, j.IsHosted → j.IsUnfed → ∀ {p : Port}, j.port? .input e = some p →
      p.isLinked = false → p.data = p.default := by
    intro j hj hju p hp hfree
    obtain ⟨s, hs, hmem, -⟩ := (coherent_iff.mp hj.coherent).1.exists_slot hp
    rw [Port.data_of_free ((hj.isBuiltin s hs).direction .input hmem) hfree
      (hj.isOutermost s hs p hmem), hju s hs p hmem hfree, Option.none_or]
  rw [hdata hk hku hq hfree, hdata hg hgu hp hfree']
  exact Port.map_unstamped_eq_iff.mp (congrArg Port.default hform)

namespace InStep

theorem compile (h : InStep g k) (stamp stamp' : Nat) :
    InStep (Net.compile g stamp).result.2 (Net.compile k stamp').result.2 := by
  have hport : ∀ (j : Net) (stamp : Nat) e,
      (Net.compile j stamp).result.2.port? .input e = j.port? .input e := fun j stamp e ↦
    port?_of_inputs_eq (inputs_compile (keepsInputs_life (Behaviour.slotsDepth j.slots + 1)) j stamp) e
  refine ⟨(form_compile _ k stamp').trans (h.form.trans (form_compile _ g stamp).symm),
    fun e p q hp hq ↦ ?_⟩
  rw [hport] at hp hq
  exact h.reading e p q hp hq

/-- **Nets in step stay in step**: a pass over both succeeds, and leaves the same values on all
outputs, at every depth. -/
theorem execute (h : InStep g k) (hg : g.IsHosted) (hgr : g.isReady = true) (hk : k.IsHosted)
    (hkr : k.isReady = true) (stamp stamp' : Nat) :
    ∃ g' k', (Net.execute g stamp).result = (.ok (), g') ∧
      (Net.execute k stamp').result = (.ok (), k') ∧
      through .outcome k' = through .outcome g' ∧ InStep g' k' := by
  obtain ⟨g', hg'⟩ : ∃ g', (Net.execute g stamp).result = (.ok (), g') :=
    ⟨_, Prod.ext (hg.execute_filled hgr stamp).1 rfl⟩
  obtain ⟨hok, houtcome⟩ := (hg.isLive hgr).execute_congr (hk.isLive hkr) h.form h.reading hg' stamp'
  obtain ⟨k', hk'⟩ : ∃ k', (Net.execute k stamp').result = (.ok (), k') := ⟨_, Prod.ext hok rfl⟩
  have houtcome : through .outcome k' = through .outcome g' := by
    rw [← houtcome]
    exact congrArg (fun r ↦ through .outcome r.2) hk'.symm
  have hform : through .form k' = through .form g' := by
    have hthrough := through_after_eq (b := .form) houtcome
    rwa [Lens.form_after_outcome] at hthrough
  refine ⟨g', k', hg', hk', houtcome, hform, fun e p q hp hq hfree ↦ ?_⟩
  have hpq := port?_form_eq hform .input e
  rw [hp, hq, Option.map_some, Option.map_some, Option.some.injEq] at hpq
  have hfree' : p.isLinked = false := (congrArg Port.isLinked hpq).symm.trans hfree
  -- a pass leaves the inputs as they are that no link touches
  have hkept : ∀ {j j' : Net} {stamp : Nat}, j.IsHosted → j.isReady = true →
      (Net.execute j stamp).result = (.ok (), j') → ∀ {p : Port}, j'.port? .input e = some p →
      p.isLinked = false → j.port? .input e = some p := fun hj hjr hok _ hp hfree ↦
    (hj.isLive hjr).wellLinked.port?_of_execute (hj.isLive hjr).plan hjr (keepsOutline_life _)
      (keepsInputs_life _) (congrArg Prod.snd hok) hp hfree
  exact h.reading e p q (hkept hg hgr hg' hp hfree') (hkept hk hkr hk' hq hfree) hfree

/-- Nets in step are in step after any number of passes. -/
theorem passes (h : InStep g k) (hg : g.IsHosted) (hgr : g.isReady = true) (hk : k.IsHosted)
    (hkr : k.isReady = true) (total left stamp stamp' : Nat) :
    ∃ g' k', ((Command.passes total left g).run stamp).result = .ok g' ∧
      ((Command.passes total left k).run stamp').result = .ok k' ∧ InStep g' k' ∧
      (g'.IsHosted ∧ g'.isReady = true) ∧ (k'.IsHosted ∧ k'.isReady = true) := by
  induction left generalizing g k stamp stamp' with
  | zero => exact ⟨g, k, rfl, rfl, h, ⟨hg, hgr⟩, hk, hkr⟩
  | succ left ih =>
    obtain ⟨g', k', hg', hk', -, hstep⟩ := h.execute hg hgr hk hkr stamp stamp'
    obtain ⟨hghosted, hgready⟩ := hg.of_execute hgr hg'
    obtain ⟨hkhosted, hkready⟩ := hk.of_execute hkr hk'
    obtain ⟨stamp₁, hgrun⟩ := passes_succ_of_ok hg' total left
    obtain ⟨stamp₂, hkrun⟩ := passes_succ_of_ok hk' total left
    rw [hgrun, hkrun]
    exact ih hstep hghosted hgready hkhosted hkready stamp₁ stamp₂

end InStep

/-! ## The round trip -/

/-- **Saving a net and loading it again loses nothing but operators and values.**  Let a net be the
outermost one, of nodes that are built-in and savable at every depth.  Then it has a description,
which can be loaded, and the net that comes of it has the same description.  At every depth, it has
the same nodes in the same order, with the same ports, which are exposed and linked as before, and
the same links in the same order, under other ids: its form is what the form of the first net is
apart from operators.  It compiles with the same result, and into the same order.  If the first net
has default operators and its host has put no values on its inputs, then after any number of passes
one more pass over both succeeds, and leaves the same values on all outputs, at every depth. -/
theorem Reachable.reload {stamp₀ : Nat} (h : g.Reachable) (hb : g.IsBuiltin) (ho : g.IsOutermost)
    (hs : g.IsSavable) (hset : (FactorySet.builtins.run stamp₀).result = .ok set) (stamp : Nat) :
    ∃ d k, g.description = .ok d ∧ ((Net.ofDescription set d).run stamp).result = .ok k ∧
      description k = .ok d ∧ through .form k = through .shape g ∧
      (∀ stamp₁ stamp₂, (Net.compile k stamp₂).result.1 = (Net.compile g stamp₁).result.1 ∧
        (Net.compile k stamp₂).result.2.order = (Net.compile g stamp₁).result.2.order) ∧
      (g.HasDefaultOperators → g.IsUnfed → ∀ stamp₁ stamp₂ g₁ k₁,
        (Net.compile g stamp₁).result = (.ok (), g₁) →
        (Net.compile k stamp₂).result = (.ok (), k₁) →
        ∀ total passes stamp₃ stamp₄, ∃ g₂ k₂,
          ((Command.passes total passes g₁).run stamp₃).result = .ok g₂ ∧
          ((Command.passes total passes k₁).run stamp₄).result = .ok k₂ ∧
          ∀ stamp₅ stamp₆, ∃ g₃ k₃, (Net.execute g₂ stamp₅).result = (.ok (), g₃) ∧
            (Net.execute k₂ stamp₆).result = (.ok (), k₃) ∧
            through .outcome k₃ = through .outcome g₃) := by
  obtain ⟨d, k, hd, hk, hkd, hform⟩ := exists_reloaded hset h.coherent hb ho hs stamp
  have hprobeless := FactorySet.isProbeless_builtins hset
  have hhosted := isHosted_of_load hprobeless hk
  have hstock := isStock_of_load hprobeless hk
  have hshape : through .shape k = through .shape g := by
    have hthrough := congrArg (through .shape) hform
    rwa [through_through, through_through, Lens.shape_after_form, Lens.shape_after_shape] at hthrough
  refine ⟨d, k, hd, hk, hkd, hform, fun stamp₁ stamp₂ ↦
    compile_congr h.coherent hb hhosted.coherent hhosted.isBuiltin hshape stamp₁ stamp₂, ?_⟩
  intro hdefault hunfed stamp₁ stamp₂ g₁ k₁ hg₁ hk₁ total passes stamp₃ stamp₄
  have hghosted := isHosted_of_isUnfed h.coherent hb ho hunfed
  -- operators that are not saved are the default ones, and so both nets go in step
  have hstep := (inStep_of_isUnfed hghosted hunfed hhosted
    (fun s hs p hp _ ↦ hstock.isVacant s hs p hp) (hform.trans hdefault.symm)).compile stamp₁ stamp₂
  have hcompiled : ∀ {j j' : Net} {stamp : Nat}, j.IsHosted →
      (Net.compile j stamp).result = (.ok (), j') → j'.IsHosted ∧ j'.isReady = true := by
    intro j j' stamp hj hok
    have hcompile := hj.compile stamp
    have hready := hj.isReady_of_compile (congrArg Prod.fst hok)
    rw [hok] at hcompile hready
    exact ⟨hcompile, hready⟩
  obtain ⟨hg₁hosted, hg₁ready⟩ := hcompiled hghosted hg₁
  obtain ⟨hk₁hosted, hk₁ready⟩ := hcompiled hhosted hk₁
  rw [hg₁, hk₁] at hstep
  obtain ⟨g₂, k₂, hg₂, hk₂, hstep, ⟨hg₂hosted, hg₂ready⟩, hk₂hosted, hk₂ready⟩ :=
    hstep.passes hg₁hosted hg₁ready hk₁hosted hk₁ready total passes stamp₃ stamp₄
  refine ⟨g₂, k₂, hg₂, hk₂, fun stamp₅ stamp₆ ↦ ?_⟩
  obtain ⟨g₃, k₃, hg₃, hk₃, houtcome, -⟩ :=
    hstep.execute hg₂hosted hg₂ready hk₂hosted hk₂ready stamp₅ stamp₆
  exact ⟨g₃, k₃, hg₃, hk₃, houtcome⟩

end Net

/-! ## Numbers that are summed up in a box -/

/-- Two numbers, and a net that sums them up. -/
def sumDescription : GraphDescription where
  name := "outer"
  nodes :=
    [⟨"numbers", "FloatVectorSource",
        some (.object [("value", .array [.float 0.5, .float 2.5])]), none⟩,
      ⟨"box", "Graph",
        some ({ name := "inner",
                nodes := [⟨"sum", "FloatReduce", some (.object [("init", .float 1.5)]),
                  some (.string "in the box")⟩] } : GraphDescription).toConfig,
        some (.string "holds a net")⟩]
  links := [⟨"numbers", "to", "box", "in"⟩]

/-- Loading the description, with the types that come with the library. -/
def loadSum : Except GraphError Net :=
  ((Net.ofDescription ⟨[⟨"nodeflow.builtins", builtinEntries⟩]⟩ sumDescription).run 0).result

theorem loadSum_ok : ∃ g, loadSum = .ok g ∧ g.IsSavable ∧ (g.compile 0).result.1 = .ok () ∧
    g.description.toOption = some sumDescription := by
  have hall : (loadSum.toOption.any fun g ↦ decide g.IsSavable && (g.compile 0).result.1.isOk &&
      g.description.toOption = some sumDescription) = true := by
    decide +kernel
  cases hg : loadSum with
  | error e =>
    rw [hg] at hall
    exact absurd hall (by simp [Except.toOption])
  | ok g =>
    rw [hg] at hall
    obtain ⟨hcompiled, hdescription⟩ := (Bool.and_eq_true _ _).mp hall
    obtain ⟨hsavable, hok⟩ := (Bool.and_eq_true _ _).mp hcompiled
    exact ⟨g, rfl, of_decide_eq_true hsavable, (exists_ok_of_isOk hok).elim fun _ h ↦ h,
      of_decide_eq_true hdescription⟩

/-- The net that sums numbers up in a box comes back, and computes the same. -/
theorem Net.reload_sum : ∃ g k, loadSum = .ok g ∧ g.description.toOption = some sumDescription ∧
    description k = g.description ∧ through .form k = through .shape g ∧
    ∃ g₁ g₂ k₁ k₂, (Net.compile g 0).result = (.ok (), g₁) ∧
      (Net.execute g₁ 0).result = (.ok (), g₂) ∧ (Net.compile k 0).result = (.ok (), k₁) ∧
      (Net.execute k₁ 0).result = (.ok (), k₂) ∧ through .outcome k₂ = through .outcome g₂ := by
  obtain ⟨g, hg, hsavable, hok, hdescription⟩ := loadSum_ok
  have hset := FactorySet.builtins_eq_ok 0
  have hprobeless := FactorySet.isProbeless_builtins hset
  have hstock := isStock_of_load hprobeless hg
  obtain ⟨d, k, hd, hk, hkd, hform, hcompile, hexecute⟩ := Reachable.reload (.described hg)
    hstock.isBuiltin hstock.isOutermost hsavable hset 0
  obtain ⟨g₁, hg₁⟩ : ∃ g₁, (Net.compile g 0).result = (.ok (), g₁) := ⟨_, Prod.ext hok rfl⟩
  obtain ⟨k₁, hk₁⟩ : ∃ k₁, (Net.compile k 0).result = (.ok (), k₁) :=
    ⟨_, Prod.ext ((hcompile 0 0).1.trans hok) rfl⟩
  obtain ⟨g₂, k₂, hpasses, hpasses', hpass⟩ := hexecute (hasDefaultOperators_of_load hprobeless hg)
    (fun s hs p hp _ ↦ hstock.isVacant s hs p hp) 0 0 g₁ k₁ hg₁ hk₁ 0 0 0 0
  obtain rfl := Except.ok.inj hpasses
  obtain rfl := Except.ok.inj hpasses'
  obtain ⟨g₃, k₃, hg₃, hk₃, houtcome⟩ := hpass 0 0
  exact ⟨g, k, hg, hdescription, hkd.trans hd.symm, hform, g₁, g₃, k₁, k₃, hg₁, hg₃, hk₁, hk₃,
    houtcome⟩

end PortGraph
