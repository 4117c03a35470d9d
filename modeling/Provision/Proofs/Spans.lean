import Provision.Proofs.Epochs
import Provision.Proofs.Sessions

/-!
# Catalogs in a session

Whatever is requested of a service, between two requests that drop a family's
catalog there is one epoch of it (`catalog_epochs`). It is a step for each
request and an induction on the session. A request for the family keeps the
frame `Epoch`, and a request for another family stays `Apart`, since the
strategies of a registry look up each their own family in one cache.
-/

namespace Provision

variable {τ α : Type}

/-! ## Requests and the catalog of a family -/

namespace Request

/-- The family that a request is for, if it is for one. -/
def family? : Request → Option Int
  | profiles family | select family _ _ | provision family _ | destroy family _ | reboot family _
  | suspend family _ | resume family _ | nodes family | node family _ => some family
  | refresh family => family

/-- The request drops the catalog of the family. -/
def Drops (family : Int) (q : Request) : Prop := q = .refresh none ∨ q = .refresh (some family)

/-- The request asks for an order from a template and a combination. -/
inductive Asks (family : Int) (template : Template) (combination : String) : Request → Prop
  | select {candidates : String} (listed : combination ∈ Price.split candidates) :
      Asks family template combination (.select family candidates template)
  | provision (listed : combination ∈ Price.split template.hardwareId) :
      Asks family template combination (.provision family template)

/-- The request cannot do without the catalog. -/
def Needs (defaults : OrderDefaults) : Request → Prop
  | profiles family => family = defaults.family
  | select family _ _ | provision family _ =>
    family = defaults.family ∧ defaults.extraItems.isEmpty = false
  | _ => False

end Request

/-- All strategies of the registry look up catalogs in the cache, under the same session. -/
def Registry.Cached (r : Registry τ) (session : String) : Prop :=
  ∀ s ∈ r.strategies, s.Cached session

namespace Service

open Run

variable [Duration τ] {s : Service τ} {family : Int} {session : String} {q : Request}

theorem perform_apart (hcached : s.registry.Cached session)
    (hother : q.family? ≠ some family) (hall : q ≠ .refresh none) :
    (s.perform q).Keeps (Apart family session) := by
  have hsteady := (apart_trackable (τ := τ) family session).steady
  have hserves : ∀ {g strategy}, s.registry.get g = .ok strategy → some g ≠ some family →
      strategy.Cached session ∧ strategy.family ≠ family := by
    intro g strategy hget hg
    refine ⟨hcached strategy (Registry.mem_of_get hget), fun hsame => hg ?_⟩
    rw [← Registry.family_of_get hget, hsame]
  refine s.perform_keeps (apart_trackable family session) ?_ ?_ ?_ ?_
  · rintro g strategy rfl hget
    obtain ⟨hstrategy, hg⟩ := hserves hget hother
    exact hstrategy.profiles_apart hg
  · rintro g candidates template strategy rfl hget
    obtain ⟨hstrategy, hg⟩ := hserves hget hother
    exact hstrategy.select_apart hg candidates template
  · rintro g template strategy rfl hget
    obtain ⟨hstrategy, hg⟩ := hserves hget hother
    exact hstrategy.ordering_apart hg template
  · rintro (_ | g) rfl
    · exact absurd rfl hall
    · refine hsteady.bind (hsteady.ofFault _) fun _ => .ite ?_ (hsteady.pure 0)
      refine (dropCatalogs_drops (some g)).mono ?_
      rintro w _ r w' ⟨rfl, hcache⟩
      refine ⟨?_, fun _ => nofun⟩
      unfold World.catalog?
      rw [hcache, CatalogCache.find?_drop_other w.cache fun hsame => hother (congrArg some hsame)]

variable {strategy : Strategy τ} {asked : Template → String → Prop}

theorem perform_epoch (hcached : s.registry.Cached session)
    (hget : s.registry.get family = .ok strategy) (hdrops : ¬ q.Drops family)
    (hasked : ∀ template combination, q.Asks family template combination →
      asked template combination) :
    (s.perform q).Keeps (Epoch strategy.spec.orderDefaults session asked) := by
  have hfamily : strategy.family = family := Registry.family_of_get hget
  have hstrategy := hcached strategy (Registry.mem_of_get hget)
  by_cases hown : q.family? = some family
  · have hsame : ∀ {g found}, s.registry.get g = .ok found → some g = some family →
        found = strategy := by
      rintro g found hfound ⟨⟩
      rw [hget] at hfound
      cases hfound
      rfl
    -- A request for the family is left to its own strategy.
    refine s.perform_keeps (epoch_trackable _ session asked) ?_ ?_ ?_ ?_
    · rintro g found rfl hfound
      rw [hsame hfound hown]
      exact (hstrategy.profiles_achieves asked).keeps
    · rintro g candidates template found rfl hfound
      rw [hsame hfound hown]
      cases hown
      exact (hstrategy.select_achieves fun combination hlisted =>
        hasked template combination (.select hlisted)).keeps
    · rintro g template found rfl hfound
      rw [hsame hfound hown]
      cases hown
      exact hstrategy.ordering_epoch fun combination hlisted =>
        hasked template combination (.provision hlisted)
    · rintro dropped rfl
      exact absurd (Or.inr (congrArg Request.refresh hown)) hdrops
  · have hall : q ≠ .refresh none := fun hq => hdrops (Or.inl hq)
    rw [← hfamily] at hown
    exact (perform_apart hcached hown hall).mono fun _ _ _ _ h => h.epoch

/-- A request that cannot do without the catalog asks for it where none is kept. -/
theorem perform_inquires (hcached : s.registry.Cached session)
    (hget : s.registry.get family = .ok strategy) (hneeds : q.Needs strategy.spec.orderDefaults) :
    (s.perform q).Keeps (Inquires family session) := by
  have hstrategy := hcached strategy (Registry.mem_of_get hget)
  have hfamily : strategy.spec.family = family := Registry.family_of_get hget
  have hselect : strategy.spec.orderDefaults.extraItems.isEmpty = false →
      ∀ candidates template, (strategy.selector.select candidates template : Run τ String).Keeps
        (Inquires strategy.family session) := by
    intro hextras candidates template
    rw [hstrategy.selector]
    exact select_inquires rfl hextras candidates template
  cases q with
  | profiles g =>
      obtain rfl : g = family := Eq.trans hneeds hfamily
      show (discard (s.profiles g)).Keeps _
      unfold Service.profiles
      rw [s.strategy_bind hget, ← Registry.family_of_get hget]
      refine inquires_bind (inquires_bind (Q := fun _ _ _ _ _ => True) hstrategy.profiles_inquires
        fun e w => ?_) fun _ => satisfies_pure ()
      cases e.failure <;> exact ⟨[], rfl, trivial⟩
  | select g candidates template =>
      obtain ⟨hg, hextras⟩ := hneeds
      obtain rfl : g = family := hg.trans hfamily
      show (discard (s.select g candidates template)).Keeps _
      unfold Service.select
      rw [s.strategy_bind hget, ← Registry.family_of_get hget]
      exact inquires_bind (hselect hextras candidates template) fun _ => satisfies_pure ()
  | provision g template =>
      obtain ⟨hg, hextras⟩ := hneeds
      obtain rfl : g = family := hg.trans hfamily
      show (discard (s.provision g template)).Keeps _
      unfold Service.provision
      rw [s.strategy_bind hget, ← Registry.family_of_get hget]
      have hordering := inquires_bind (hselect hextras template.hardwareId template)
        fun combination => strategy.machine.provision_at_once template combination
      refine inquires_bind ?_ fun _ => satisfies_pure ()
      exact Satisfies.logged (f := fun _ => _) hordering (fun _ _ _ _ _ h => h) _
  | _ => cases hneeds

/-- A request that drops the catalog calls nobody, and no catalog is kept afterwards. -/
theorem perform_drops (hcache : s.registry.cache.isSome = true)
    (hget : s.registry.get family = .ok strategy) (hdrops : q.Drops family) :
    (s.perform q).Satisfies fun _ made _ w' =>
      made = [] ∧ w'.catalog? family session = none := by
  obtain ⟨dropped, hconcerned, rfl⟩ :
      ∃ dropped, (dropped = none ∨ dropped = some family) ∧ q = .refresh dropped :=
    hdrops.elim (fun h => ⟨none, Or.inl rfl, h⟩) fun h => ⟨some family, Or.inr rfl, h⟩
  have hrefresh : s.refresh dropped = dropCatalogs dropped := by
    rcases hconcerned with rfl | rfl
    · exact if_pos hcache
    · exact (s.strategy_bind hget _).trans (if_pos hcache)
  have hdropped : (s.refresh dropped).Keeps fun (_ : World τ) made w' =>
      made = [] ∧ w'.catalog? family session = none := by
    rw [hrefresh]
    refine (dropCatalogs_drops dropped).mono ?_
    rintro w made r w' ⟨hmade, hcached⟩
    refine ⟨hmade, ?_⟩
    unfold World.catalog?
    rw [hcached, CatalogCache.find?_drop w.cache hconcerned]
    rfl
  exact keeps_discard hdropped

/-! ## Sessions -/

theorem session_append (s : Service τ) (before later : List Request) (w : World τ) :
    s.session (before ++ later) w = s.session later (s.session before w).2 := by
  induction before generalizing w with
  | nil => rfl
  | cons q rest ih => exact ih (s.perform q w).2

theorem session_profiles (s : Service τ) (family : Int) (later : List Request) (w : World τ) :
    s.session (.profiles family :: later) w = s.session later (s.profiles family w).2 :=
  congrArg (s.session later) (discard_world (s.profiles family) w)

theorem session_epoch (hcached : s.registry.Cached session)
    (hget : s.registry.get family = .ok strategy) (requests : List Request)
    (hspan : ∀ q ∈ requests, ¬ q.Drops family)
    (hasked : ∀ q ∈ requests, ∀ template combination, q.Asks family template combination →
      asked template combination) :
    (s.session requests).Keeps (Epoch strategy.spec.orderDefaults session asked) := by
  have hsteady := epoch_steady (τ := τ) strategy.spec.orderDefaults session asked
  induction requests with
  | nil => exact hsteady.pure ()
  | cons q rest ih =>
      obtain ⟨hq, hrest⟩ := List.forall_mem_cons.mp hspan
      obtain ⟨haskedq, haskedrest⟩ := List.forall_mem_cons.mp hasked
      exact hsteady.attempt (perform_epoch hcached hget hq haskedq) fun _ => ih hrest haskedrest

omit [Duration τ] in
theorem profiles_listed (hcached : s.registry.Cached session)
    (hget : s.registry.get family = .ok strategy) (asked : Template → String → Prop) :
    (s.profiles family).Achieves (Epoch strategy.spec.orderDefaults session asked) (fun _ => True)
      fun profiles w => ∃ catalog, w.catalog? strategy.family session = some catalog ∧
        profiles = (strategy.spec.rules.enumerate strategy.family catalog).profiles := by
  have hsteady := epoch_steady (τ := τ) strategy.spec.orderDefaults session asked
  have hstrategy := hcached strategy (Registry.mem_of_get hget)
  unfold Service.profiles
  rw [s.strategy_bind hget]
  refine hsteady.achieves_bind (hstrategy.profiles_achieves asked) fun e => ?_
  cases e.failure with
  | some fault => exact hsteady.achieves_fail _
  | none =>
      intro w
      refine ⟨[], rfl, ?_⟩
      rintro ⟨catalog, hkept, rfl⟩
      refine ⟨hsteady.idle w _ w.clock w.sleeps, ?_⟩
      rintro _ ⟨⟩
      exact ⟨catalog, hkept, rfl⟩

/-- What a service makes of the catalogs of one family. -/
structure KeepsEpochs (s : Service τ) (strategy : Strategy τ) (session : String) : Prop where
  /-- As long as no request drops the family's catalog, one listing is kept, and all orders that
  are built for the family are asked for by one of the requests and made with this listing. -/
  span : ∀ before requests, (∀ q ∈ requests, ¬ q.Drops strategy.family) → ∀ w,
    let begun := (s.session before w).2
    let ended := (s.session (before ++ requests) w).2
    ∃ made, ended.exchanges = made.reverse ++ begun.exchanges ∧
      Epoch strategy.spec.orderDefaults session
        (fun template combination => ∃ q ∈ requests, q.Asks strategy.family template combination)
        begun made ended
  /-- Profiles are those of the catalog that is kept until a request drops it. -/
  listed : ∀ before requests, (∀ q ∈ requests, ¬ q.Drops strategy.family) → ∀ w profiles,
    (s.profiles strategy.family (s.session before w).2).1 = .ok profiles →
      ∃ catalog, (s.session (before ++ .profiles strategy.family :: requests) w).2.catalog?
          strategy.family session = some catalog ∧
        profiles = (strategy.spec.rules.enumerate strategy.family catalog).profiles
  /-- Where no catalog is kept, whoever needs it asks for it. -/
  retried : ∀ q : Request, q.Needs strategy.spec.orderDefaults →
    (s.perform q).Keeps (Inquires strategy.family session)
  /-- Requests for other families make no call about this one and leave its catalog alone. -/
  elsewhere : ∀ q : Request, q.family? ≠ some strategy.family → q ≠ .refresh none →
    (s.perform q).Keeps (Apart strategy.family session)
  /-- After a request that drops it no catalog is kept. -/
  dropped : ∀ q : Request, q.Drops strategy.family → (s.perform q).Satisfies fun _ made _ w' =>
    made = [] ∧ w'.catalog? strategy.family session = none

theorem keeps_epochs (hcached : s.registry.Cached session)
    (hcache : s.registry.cache.isSome = true) (hget : s.registry.get family = .ok strategy) :
    s.KeepsEpochs strategy session := by
  obtain rfl := Registry.family_of_get hget
  refine ⟨?_, ?_, ?_, ?_, ?_⟩
  · intro before requests hspan w
    show ∃ made, (s.session (before ++ requests) w).2.exchanges = _ ∧ _
    rw [session_append]
    exact session_epoch hcached hget requests hspan
      (fun q hq _ _ hasks => ⟨q, hq, hasks⟩) (s.session before w).2
  · intro before requests hspan w profiles hprofiles
    obtain ⟨_, -, hboth⟩ :=
      profiles_listed hcached hget (fun _ _ => True) (s.session before w).2
    obtain ⟨catalog, hkept, hlisted⟩ := (hboth trivial).2 profiles hprofiles
    -- What is kept after the profiles were listed is still kept when the span is over.
    have hlater : (s.session requests).Keeps
        (Epoch strategy.spec.orderDefaults session fun _ _ => True) :=
      session_epoch hcached hget requests hspan fun _ _ _ _ _ => trivial
    obtain ⟨_, -, hepoch⟩ := hlater (s.profiles strategy.family (s.session before w).2).2
    refine ⟨catalog, ?_, hlisted⟩
    rw [session_append, session_profiles]
    have hfilled := hepoch.filled
    rw [show strategy.spec.orderDefaults.family = strategy.family from rfl, hkept] at hfilled
    exact hfilled.kept
  · exact fun q hneeds => perform_inquires hcached hget hneeds
  · exact fun q hother hall => perform_apart hcached hother hall
  · exact fun q hdrops => perform_drops hcache hget hdrops

/-- **One catalog for an epoch.** A service whose registry was built as usual serves all six
families, and it keeps the epochs of their catalogs, whatever is requested and whatever the remote
side answers. -/
theorem catalog_epochs {config : Config τ} {cache : CacheName} {w₀ : World τ}
    {registry : Registry τ} (hbuilt : (Registry.build config cache w₀).1 = .ok registry)
    {family : Int} (hfamily : family ∈ FamilySpec.packages) :
    ∃ strategy, registry.get family = .ok strategy ∧
      ({ registry } : Service τ).KeepsEpochs strategy config.session := by
  obtain ⟨specs, hspecs, hregistry⟩ := Registry.of_build_ok hbuilt
  have hfamilies : registry.families = FamilySpec.packages := by
    rw [hregistry, ← FamilySpec.supported_packages hspecs]
    exact List.map_map
  rw [← hfamilies] at hfamily
  obtain ⟨strategy, hget⟩ := Registry.get_of_mem hfamily
  refine ⟨strategy, hget, keeps_epochs ?_ (by rw [hregistry]; rfl) hget⟩
  intro s hs
  rw [hregistry] at hs
  obtain ⟨spec, -, rfl⟩ := List.mem_map.mp hs
  exact ⟨rfl, rfl, rfl, rfl⟩

/-- The usual configuration does give a registry, which serves dual Xeon servers. -/
theorem catalog_epochs_usual : ∃ registry : Registry Rat,
    (Registry.build (τ := Rat) Config.usual "catalogs"
      { remote := Remote.scripted {}, clock := 0, patience := 3 }).1 = .ok registry ∧
    (42 : Int) ∈ FamilySpec.packages ∧
    ∃ strategy, registry.get 42 = .ok strategy ∧
      ({ registry } : Service Rat).KeepsEpochs strategy (Config.usual : Config Rat).session := by
  have hok : (Registry.build (τ := Rat) Config.usual "catalogs"
      { remote := Remote.scripted {}, clock := 0, patience := 3 }).1.isOk = true := by
    decide +kernel
  have hservers : (42 : Int) ∈ FamilySpec.packages := by decide
  cases hbuilt : (Registry.build (τ := Rat) Config.usual "catalogs"
      { remote := Remote.scripted {}, clock := 0, patience := 3 }).1 with
  | error e =>
      rw [hbuilt] at hok
      cases hok
  | ok registry => exact ⟨registry, rfl, hservers, catalog_epochs hbuilt hservers⟩

end Service

end Provision
