import Provision.Service
import Provision.Proofs.Adoption
import Provision.Proofs.Decommissioning
import Provision.Proofs.Families
import Provision.Proofs.Ordering

/-!
# Sessions with a service

A session is any sequence of requests to one service, each taken up whatever
has become of those before. Most requests are plain work of a strategy; only
those that need a catalog or an order are more (`perform_keeps`). If the
registry has been built as usual, every order that is placed in a session has
just been accepted (`session_verified`): its strategies are wired so that
selector and machine make the same orders.
-/

namespace Provision

variable {τ : Type}

open Run (Unordered unordered_steady call_unordered)

/-! ## Wiring -/

/-- Selector and machine make their orders from the same parts. -/
structure Strategy.Wired (s : Strategy τ) : Prop where
  defaults : s.machine.defaults = s.selector.defaults
  catalog : s.machine.catalog = s.selector.catalog

namespace Registry

def Wired (r : Registry τ) : Prop := ∀ s ∈ r.strategies, s.Wired

/-- Where the registry has a cache, strategies that all get in stand in a row. -/
theorem of_registerAll_ok {r r' : Registry τ} {strategies : List (Strategy τ)} {cache : CacheName}
    (hcache : r.cache = some cache) (h : r.registerAll strategies = .ok r') :
    r' = { strategies := r.strategies ++ strategies, cache := some cache } := by
  induction strategies generalizing r with
  | nil =>
      cases h
      rw [List.append_nil, ← hcache]
  | cons s rest ih =>
      obtain ⟨next, hnext, hrest⟩ := ok_of_bind h
      rcases r.register_cases s with ⟨-, cause, hrefused⟩ | ⟨-, -, hdone⟩
      · rw [hrefused] at hnext
        cases hnext
      · rw [hdone, hcache, Option.some_or] at hnext
        cases hnext
        rw [ih rfl hrest, List.append_assoc, List.singleton_append]

/-- A registry that is built has a strategy for every supported family, all with one cache. -/
theorem of_build_ok [Duration τ] {config : Config τ} {cache : CacheName} {w : World τ}
    {r : Registry τ} (h : (build config cache w).1 = .ok r) :
    ∃ specs, FamilySpec.supported config = .ok specs ∧
      r = { strategies := specs.map fun spec =>
              Strategy.build spec cache config.session config.powerOffFirst
            cache := some cache } := by
  obtain ⟨specs, w₁, hspecs, h⟩ := Run.of_bind_ok h
  obtain ⟨built, w₂, hbuilt, h⟩ := Run.of_bind_ok h
  obtain ⟨_, w₃, -, h⟩ := Run.of_bind_ok h
  cases h
  refine ⟨specs, ?_, of_registerAll_ok rfl (Run.of_ofFault_ok hbuilt)⟩
  cases hsupported : FamilySpec.supported config with
  | error e =>
      rw [hsupported] at hspecs
      cases hspecs
  | ok found =>
      rw [hsupported] at hspecs
      cases hspecs
      rfl

theorem wired_of_build [Duration τ] {config : Config τ} {cache : CacheName} {w : World τ}
    {r : Registry τ} (h : (build config cache w).1 = .ok r) : r.Wired := by
  obtain ⟨specs, -, rfl⟩ := of_build_ok h
  intro s hs
  obtain ⟨spec, -, rfl⟩ := List.mem_map.mp hs
  exact ⟨rfl, rfl⟩

/-- A family that is registered is served. -/
theorem get_of_mem {r : Registry τ} {family : Int} (h : family ∈ r.families) :
    ∃ s, r.get family = .ok s := by
  obtain ⟨s, hs⟩ := Option.isSome_iff_exists.mp (contains_iff.mpr h)
  unfold get
  rw [hs]
  exact ⟨s, rfl⟩

theorem find?_of_get {r : Registry τ} {family : Int} {s : Strategy τ}
    (h : r.get family = .ok s) : r.find? family = some s := by
  unfold Registry.get at h
  cases hfind : r.find? family with
  | none =>
      rw [hfind] at h
      cases h
  | some found =>
      rw [hfind] at h
      cases h
      rfl

theorem mem_of_get {r : Registry τ} {family : Int} {s : Strategy τ}
    (h : r.get family = .ok s) : s ∈ r.strategies :=
  List.mem_of_find?_eq_some (find?_of_get h)

theorem family_of_get {r : Registry τ} {family : Int} {s : Strategy τ}
    (h : r.get family = .ok s) : s.family = family := by
  simpa using List.find?_some (find?_of_get h)

end Registry

/-! ## Requests -/

/-- What callers may ask of a service. -/
inductive Request where
  | profiles (family : Int)
  | select (family : Int) (candidates : String) (template : Template)
  | provision (family : Int) (template : Template)
  | destroy (family node : Int)
  | refresh (family : Option Int)
  | reboot (family node : Int)
  | suspend (family node : Int)
  | resume (family node : Int)
  | nodes (family : Int)
  | node (family node : Int)

namespace Service

variable [Duration τ]

/-- Does what is asked for, and drops the result. -/
def perform (s : Service τ) : Request → Run τ Unit
  | .profiles family => discard (s.profiles family)
  | .select family candidates template => discard (s.select family candidates template)
  | .provision family template => discard (s.provision family template)
  | .destroy family node => discard (s.destroy family node)
  | .refresh family => discard (s.refresh family)
  | .reboot family node => discard (s.reboot family node)
  | .suspend family node => discard (s.suspend family node)
  | .resume family node => discard (s.resume family node)
  | .nodes family => discard (s.nodes family)
  | .node family node => discard (s.node? family node)

/-- Performs requests one after the other, whatever becomes of each. -/
def session (s : Service τ) : List Request → Run τ Unit
  | [] => pure ()
  | request :: rest => Run.attempt (s.perform request) fun _ => s.session rest

variable (s : Service τ)

/-! ## What a request amounts to -/

section Silent

omit [Duration τ]

theorem strategy_of_get {family : Int} {strategy : Strategy τ}
    (h : s.registry.get family = .ok strategy) (w : World τ) :
    s.strategy family w = (.ok strategy, w) := by
  unfold Service.strategy
  rw [h]
  rfl

theorem strategy_bind {α : Type} {family : Int} {strategy : Strategy τ}
    (h : s.registry.get family = .ok strategy) (f : Strategy τ → Run τ α) :
    s.strategy family >>= f = f strategy :=
  funext fun w => Run.bind_of_ok (s.strategy_of_get h w)

section Frames

variable {α : Type} {F : Run.Frame τ}

/-- What becomes of a result does not matter to a frame. -/
theorem keeps_discard {x : Run τ α} (hx : x.Keeps F) : (discard x).Keeps F := by
  refine (Run.Satisfies.bind hx fun _ => Run.satisfies_pure ()).mono ?_
  intro w made r w' h
  cases h with
  | failed first => exact first
  | went first second =>
      obtain ⟨rfl, -, rfl⟩ := second
      rw [List.append_nil]
      exact first

theorem discard_world (x : Run τ α) (w : World τ) : (discard x w).2 = (x w).2 := by
  show ((x >>= fun _ => pure ()) w).2 = (x w).2
  rcases hx : x w with ⟨e | a, w'⟩
  · rw [Run.bind_of_error hx]
  · rw [Run.bind_of_ok hx]
    rfl

/-- Work that is left to the strategy of a family. -/
theorem keeps_of_strategy (hF : Run.Steady F) (family : Int) {f : Strategy τ → Run τ α}
    (hf : ∀ strategy, s.registry.get family = .ok strategy → (f strategy).Keeps F) :
    (s.strategy family >>= f).Keeps F := by
  cases hget : s.registry.get family with
  | error fault =>
      have hrun : s.strategy family >>= f = Run.fail (.fault fault) := by
        unfold Service.strategy
        rw [hget]
        rfl
      rw [hrun]
      exact hF.fail _
  | ok strategy =>
      rw [s.strategy_bind hget]
      exact hf strategy hget

end Frames

end Silent

/-- A frame that bears plain work is kept by a request if it is kept where catalogs are looked up
or dropped and where orders are made. -/
theorem perform_keeps {F : Run.Frame τ} (hF : Run.Trackable F) {request : Request}
    (hprofiles : ∀ family strategy, request = .profiles family →
      s.registry.get family = .ok strategy → strategy.profiles.Keeps F)
    (hselect : ∀ family candidates template strategy, request = .select family candidates template →
      s.registry.get family = .ok strategy →
        (strategy.selector.select candidates template).Keeps F)
    (hprovision : ∀ family template strategy, request = .provision family template →
      s.registry.get family = .ok strategy →
        (strategy.selector.select template.hardwareId template >>= fun combination =>
          strategy.machine.provision template combination).Keeps F)
    (hrefresh : ∀ family, request = .refresh family → (s.refresh family).Keeps F) :
    (s.perform request).Keeps F := by
  have hsteady := hF.steady
  cases request with
  | profiles family =>
      refine keeps_discard (s.keeps_of_strategy hsteady family fun strategy hget => ?_)
      refine hsteady.bind (hprofiles family strategy rfl hget) fun e => ?_
      cases e.failure with
      | some fault => exact hsteady.fail _
      | none => exact hsteady.bind (hsteady.log _) fun _ => hsteady.pure _
  | select family candidates template =>
      exact keeps_discard (s.keeps_of_strategy hsteady family fun strategy hget =>
        hselect family candidates template strategy rfl hget)
  | provision family template =>
      refine keeps_discard (s.keeps_of_strategy hsteady family fun strategy hget => ?_)
      exact hsteady.bind (hsteady.log _) fun _ => hprovision family template strategy rfl hget
  | refresh family => exact keeps_discard (hrefresh family rfl)
  | destroy family node =>
      exact keeps_discard (s.keeps_of_strategy hsteady family fun strategy _ =>
        strategy.machine.destroy_keeps hF node)
  | reboot family node =>
      exact keeps_discard (s.keeps_of_strategy hsteady family fun _ _ => hF.called rfl)
  | suspend family node =>
      exact keeps_discard (s.keeps_of_strategy hsteady family fun _ _ =>
        .ite (hF.called rfl) (hsteady.fail _))
  | resume family node =>
      exact keeps_discard (s.keeps_of_strategy hsteady family fun _ _ =>
        .ite (hF.called rfl) (hsteady.fail _))
  | nodes family =>
      exact keeps_discard (s.keeps_of_strategy hsteady family fun _ _ =>
        hsteady.bind (hF.called rfl) fun _ => hsteady.pure _)
  | node family node =>
      exact keeps_discard (s.keeps_of_strategy hsteady family fun _ _ => hF.called rfl)

/-! ## Requests that order nothing -/

omit [Duration τ] in
theorem refresh_unordered (family : Option Int) : (s.refresh family).Keeps Unordered := by
  have hdrop : Run.Keeps (if s.hasCache then Run.dropCatalogs family else pure 0)
      (Unordered : Run.Frame τ) :=
    .ite (dropCatalogs_unordered family) (unordered_steady.pure 0)
  cases family with
  | none => exact hdrop
  | some f => exact unordered_steady.bind (unordered_steady.ofFault _) fun _ => hdrop

theorem perform_unordered {request : Request}
    (h : ∀ family template, request ≠ .provision family template) :
    (s.perform request).Keeps Unordered := by
  refine s.perform_keeps Run.unordered_trackable ?_ ?_ ?_ ?_
  · intro family strategy _ _
    refine unordered_steady.bind (listing_unordered.fetch strategy.catalog) fun catalog => ?_
    exact unordered_steady.bind (unordered_steady.logAll _) fun _ => unordered_steady.pure _
  · intro family candidates template strategy _ _
    exact (strategy.selector.select_satisfies candidates template).mono fun _ _ _ _ h => h.1
  · intro family template strategy hrequest _
    exact absurd hrequest (h family template)
  · exact fun family _ => s.refresh_unordered family

/-! ## Ordering a node -/

/-- What the selection finds in a provisioning request, which is announced in the log by then. -/
def selected (family : Int) (template : Template) (w : World τ) : Except (Failure τ) String :=
  (s.select family template.hardwareId template
    (inform s!"Provisioning {template.hostname} in family {family}" family w).2).1

theorem provision_verified (hwired : s.registry.Wired) (family : Int) (template : Template) :
    (s.provision family template).Satisfies fun w made _ _ =>
      Verified made ∧ (orders made).length ≤ 1 ∧
        (orders made ≠ [] → ∃ combination, s.selected family template w = .ok combination) := by
  intro w
  cases hget : s.registry.get family with
  | error fault =>
      have hrun : s.provision family template w = (.error (.fault fault), w) := by
        unfold Service.provision Service.strategy
        rw [hget]
        rfl
      rw [hrun]
      exact ⟨[], rfl, verified_of_unordered rfl, Nat.zero_le 1, fun h => absurd rfl h⟩
  | ok strategy =>
      have hwires := hwired strategy (Registry.mem_of_get hget)
      let announced := (inform s!"Provisioning {template.hostname} in family {family}" family w).2
      have hrun : s.provision family template w
          = (strategy.selector.select template.hardwareId template >>= fun combination =>
              strategy.machine.provision template combination) announced := by
        unfold Service.provision
        rw [Run.bind_of_ok (s.strategy_of_get hget w)]
        rfl
      have hselected : s.selected family template w
          = (strategy.selector.select template.hardwareId template announced).1 := by
        unfold selected Service.select
        rw [Run.bind_of_ok (s.strategy_of_get hget _)]
      obtain ⟨made, htrace, hverified, honce, hsome⟩ :=
        ordering_satisfies hwires.defaults hwires.catalog template.hardwareId template announced
      rw [hrun]
      refine ⟨made, htrace, hverified, honce, ?_⟩
      rw [hselected]
      exact hsome

/-! ## Sessions -/

theorem perform_verified (hwired : s.registry.Wired) (request : Request) :
    (s.perform request).Satisfies fun w made _ _ =>
      Verified made ∧ (orders made).length ≤ 1 ∧ (orders made ≠ [] →
        ∃ family template combination, request = .provision family template
          ∧ s.selected family template w = .ok combination) := by
  by_cases hprovision : ∃ family template, request = .provision family template
  · obtain ⟨family, template, rfl⟩ := hprovision
    refine keeps_discard ((s.provision_verified hwired family template).mono ?_)
    rintro w made r w' ⟨hverified, honce, hselected⟩
    refine ⟨hverified, honce, fun hsome => ?_⟩
    obtain ⟨combination, hcombination⟩ := hselected hsome
    exact ⟨family, template, combination, rfl, hcombination⟩
  · have hother : ∀ family template, request ≠ .provision family template :=
      fun family template h => hprovision ⟨family, template, h⟩
    refine (s.perform_unordered hother).mono ?_
    intro w made r w' hunordered
    refine ⟨verified_of_unordered hunordered, ?_, fun hsome => absurd hunordered hsome⟩
    rw [hunordered]
    exact Nat.zero_le 1

theorem session_satisfies (hwired : s.registry.Wired) (requests : List Request) :
    (s.session requests).Satisfies fun _ made _ _ => Verified made := by
  induction requests with
  | nil => exact fun w => ⟨[], rfl, verified_of_unordered rfl⟩
  | cons request rest ih =>
      refine ((s.perform_verified hwired request).attempt fun _ => ih).mono ?_
      rintro w _ r w' ⟨hfirst, hrest⟩
      exact hfirst.1.append hrest

/-- In a session with a service whose registry was built as usual, an order is placed only right
after the same order was accepted. A single request places at most one; and it places one only if it
asks for a node, and the selection for it has succeeded. -/
theorem session_verified {config : Config τ} {cache : CacheName} {w₀ : World τ}
    {registry : Registry τ} (hbuilt : (Registry.build config cache w₀).1 = .ok registry) :
    let s : Service τ := { registry }
    (∀ requests w, ∃ made, (s.session requests w).2.exchanges = made.reverse ++ w.exchanges ∧
      Verified made) ∧
    ∀ request w, ∃ made, (s.perform request w).2.exchanges = made.reverse ++ w.exchanges ∧
      (orders made).length ≤ 1 ∧ (orders made ≠ [] →
        ∃ family template combination, request = .provision family template ∧
          s.selected family template w = .ok combination) := by
  have hwired := Registry.wired_of_build hbuilt
  refine ⟨fun requests w => ?_, fun request w => ?_⟩
  · exact Service.session_satisfies { registry } hwired requests w
  · obtain ⟨made, htrace, -, honce, hselected⟩ :=
      Service.perform_verified { registry } hwired request w
    exact ⟨made, htrace, honce, hselected⟩

/-- The usual configuration does give a registry. -/
theorem session_verified_usual : ∃ registry : Registry Rat,
    (Registry.build (τ := Rat) Config.usual "catalogs"
      { remote := Remote.scripted {}, clock := 0, patience := 3 }).1 = .ok registry ∧
    let s : Service Rat := { registry }
    (∀ requests w, ∃ made, (s.session requests w).2.exchanges = made.reverse ++ w.exchanges ∧
      Verified made) ∧
    ∀ request w, ∃ made, (s.perform request w).2.exchanges = made.reverse ++ w.exchanges ∧
      (orders made).length ≤ 1 ∧ (orders made ≠ [] →
        ∃ family template combination, request = .provision family template ∧
          s.selected family template w = .ok combination) := by
  have hok : (Registry.build (τ := Rat) Config.usual "catalogs"
      { remote := Remote.scripted {}, clock := 0, patience := 3 }).1.isOk = true := by
    decide +kernel
  cases hbuilt : (Registry.build (τ := Rat) Config.usual "catalogs"
      { remote := Remote.scripted {}, clock := 0, patience := 3 }).1 with
  | error e =>
      rw [hbuilt] at hok
      cases hok
  | ok registry => exact ⟨registry, rfl, session_verified hbuilt⟩

end Service

end Provision
