import Provision.Family.Registry
import Provision.Proofs.Families
import Provision.Proofs.Listings
import Provision.Proofs.Ordering

/-!
# Epochs of a catalog

An epoch of a family's catalog is a time in which nothing drops it. The frame
`Epoch` says what it amounts to: the calls for the catalog fit to what is kept
(`Filled`), and the family's orders are made with what is kept in the end.
Enumeration, selection and ordering look up the catalog independently, but each
of them keeps this frame, since what was found once stays and makes the same
orders as before.

Work for another family is `Apart`: it makes no call about the family and leaves
its catalog alone. And where no catalog is kept, whoever cannot do without it
`Inquires`.
-/

namespace Provision

variable {τ α : Type}

/-! ## Orders made with a catalog -/

/-- With the same extras the same orders are made. -/
theorem Template.order_congr {defaults : OrderDefaults} {catalog catalog' : Option Catalog}
    (h : defaults.allExtraPrices catalog = defaults.allExtraPrices catalog') (template : Template)
    (combination : String) :
    template.order defaults combination catalog = template.order defaults combination catalog' := by
  unfold Template.order
  rw [h]

theorem Template.order_family {template : Template} {defaults : OrderDefaults}
    {combination : String} {catalog : Option Catalog} {order : Order}
    (h : template.order defaults combination catalog = .ok order) :
    order.family = defaults.family := by
  obtain ⟨_, -, h⟩ := ok_of_bind h
  obtain ⟨_, -, h⟩ := ok_of_bind h
  cases h
  rfl

theorem OrderDefaults.allExtraPrices_of_isEmpty {defaults : OrderDefaults}
    (h : defaults.extraItems.isEmpty = true) (catalog : Option Catalog) :
    defaults.allExtraPrices catalog = .ok defaults.extraPrices := if_pos h

/-- An order made with a catalog, from a template and a combination that were asked for. -/
def Suits (defaults : OrderDefaults) (asked : Template → String → Prop) (catalog : Option Catalog)
    (order : Order) : Prop :=
  ∃ template combination, asked template combination ∧
    template.order defaults combination catalog = .ok order

namespace Suits

variable {defaults : OrderDefaults} {asked : Template → String → Prop}
  {catalog catalog' : Option Catalog} {order : Order}

theorem congr (hsuits : Suits defaults asked catalog order)
    (h : defaults.allExtraPrices catalog = defaults.allExtraPrices catalog') :
    Suits defaults asked catalog' order := by
  obtain ⟨template, combination, hasked, horder⟩ := hsuits
  exact ⟨template, combination, hasked, Template.order_congr h template combination ▸ horder⟩

/-- An order made without a catalog needs none. -/
theorem of_none (h : Suits defaults asked none order) (catalog : Option Catalog) :
    Suits defaults asked catalog order := by
  cases hextras : defaults.extraItems.isEmpty with
  | true =>
      refine h.congr ?_
      rw [OrderDefaults.allExtraPrices_of_isEmpty hextras,
        OrderDefaults.allExtraPrices_of_isEmpty hextras]
  | false =>
      -- Extras given as items cannot be had without a catalog.
      obtain ⟨template, combination, -, horder⟩ := h
      obtain ⟨_, -, horder⟩ := ok_of_bind horder
      obtain ⟨_, hprices, -⟩ := ok_of_bind horder
      unfold OrderDefaults.allExtraPrices at hprices
      rw [hextras] at hprices
      cases hprices

/-- As long as nothing is dropped, an order made with what was kept is one made with what is. -/
theorem filled {replies : List (CatalogReply τ)} (h : Suits defaults asked catalog order)
    (hfilled : Filled catalog replies catalog') : Suits defaults asked catalog' order := by
  cases catalog with
  | none => exact h.of_none catalog'
  | some c =>
      rw [hfilled.kept]
      exact h

end Suits

/-! ## Frames -/

namespace Run

/-- No call is about the family, and its catalog is as before. -/
structure Apart (family : Int) (session : String) (w : World τ) (made : List (Exchange τ))
    (w' : World τ) : Prop where
  catalog : w'.catalog? family session = w.catalog? family session
  calls : ∀ x ∈ made, x.call.family? ≠ some family

/-- The calls for the family's catalog fit to what is kept, and its orders are made with what is
kept in the end. -/
structure Epoch (defaults : OrderDefaults) (session : String) (asked : Template → String → Prop)
    (w : World τ) (made : List (Exchange τ)) (w' : World τ) : Prop where
  filled : Filled (w.catalog? defaults.family session) (listings defaults.family made)
    (w'.catalog? defaults.family session)
  suited : ∀ x ∈ made, ∀ order, x.call.built? = some order → order.family = defaults.family →
    Suits defaults asked (w'.catalog? defaults.family session) order

section Frames

variable {family other : Int} {session session' : String} {defaults : OrderDefaults}
  {asked : Template → String → Prop} {w w' : World τ} {made : List (Exchange τ)}

/-- An order made for one family is not about another. -/
theorem family?_of_order {c : Call} {order : Order} (hbuilt : c.built? = some order)
    {template : Template} {combination : String} {catalog : Option Catalog}
    (horder : template.order defaults combination catalog = .ok order)
    (hother : defaults.family ≠ family) : c.family? ≠ some family := by
  rw [Call.family?_of_built hbuilt, Template.order_family horder]
  exact fun hsame => hother (Option.some.inj hsame)

theorem call_apart {c : Call} (hc : c.family? ≠ some family) :
    (call c : Run τ c.Reply).Keeps (Apart family session) := by
  refine (satisfies_call c).mono ?_
  rintro w _ r w' ⟨rfl, hkept⟩
  refine ⟨?_, List.forall_mem_singleton.mpr hc⟩
  rw [hkept]
  rfl

theorem apart_trackable (family : Int) (session : String) :
    Trackable (Apart family session : Frame τ) where
  steady :=
    { idle _ _ _ _ := ⟨rfl, fun _ => nofun⟩
      trans h h' :=
        ⟨h'.catalog.trans h.catalog, List.forall_mem_append.mpr ⟨h.calls, h'.calls⟩⟩ }
  called hc := call_apart (by rw [Call.family?_of_isPlain hc]; nofun)
  noted _ _ := ⟨rfl, fun _ => nofun⟩
  tracked w kind t :=
    ⟨by rw [World.catalog?, setTracker_cache]; rfl, fun _ => nofun⟩

theorem Apart.listings (h : Apart family session w made w') : listings family made = [] :=
  listings_eq_nil fun x hx => Exchange.listing?_of_family (h.calls x hx)

theorem Apart.epoch (h : Apart defaults.family session w made w') :
    Epoch defaults session asked w made w' where
  filled := by
    rw [h.catalog, h.listings]
    exact .refl _
  suited x hx order hbuilt hfamily := by
    refine absurd ?_ (h.calls x hx)
    rw [Call.family?_of_built hbuilt, hfamily]

theorem epoch_steady (defaults : OrderDefaults) (session : String)
    (asked : Template → String → Prop) : Steady (Epoch defaults session asked : Frame τ) where
  idle w records clock sleeps := ((apart_trackable _ _).steady.idle w records clock sleeps).epoch
  trans {w made w₁ made' w'} h h' := by
    refine ⟨?_, fun x hx order hbuilt hfamily => ?_⟩
    · rw [listings_append]
      exact h.filled.trans h'.filled
    · rcases List.mem_append.mp hx with hx | hx
      · exact (h.suited x hx order hbuilt hfamily).filled h'.filled
      · exact h'.suited x hx order hbuilt hfamily

theorem epoch_trackable (defaults : OrderDefaults) (session : String)
    (asked : Template → String → Prop) : Trackable (Epoch defaults session asked : Frame τ) where
  steady := epoch_steady defaults session asked
  called hc := ((apart_trackable _ _).called hc).mono fun _ _ _ _ h => h.epoch
  noted w progress := ((apart_trackable _ _).noted w progress).epoch
  tracked w kind t := ((apart_trackable _ _).tracked w kind t).epoch

/-- The extras are the same with this catalog as with the one that is kept. -/
def Current (defaults : OrderDefaults) (session : String) (catalog : Option Catalog)
    (w : World τ) : Prop :=
  defaults.allExtraPrices catalog = defaults.allExtraPrices (w.catalog? defaults.family session)

/-- A call with an order that was made with a catalog. -/
def Orders (defaults : OrderDefaults) (asked : Template → String → Prop)
    (catalog : Option Catalog) (c : Call) : Prop :=
  ∃ order, c.built? = some order ∧ Suits defaults asked catalog order

/-- Nothing is looked up in such a run, so what is kept in the end was kept all along. -/
theorem Calm.epoch {catalog : Option Catalog} (h : Calm (Orders defaults asked catalog) w made w')
    (hcurrent : Current defaults session catalog w) : Epoch defaults session asked w made w' := by
  have hkept : w'.catalog? defaults.family session = w.catalog? defaults.family session := by
    unfold World.catalog?
    rw [h.cache]
  have hunlisted : ∀ x ∈ made, x.listing? defaults.family = none := by
    intro x hx
    rcases h.calls x hx with hplain | ⟨order, hbuilt, -⟩
    · exact Exchange.listing?_of_family (by rw [Call.family?_of_isPlain hplain]; nofun)
    · exact Exchange.listing?_of_built hbuilt _
  refine ⟨?_, fun x hx order hbuilt _ => ?_⟩
  · rw [hkept, listings_eq_nil hunlisted]
    exact .refl _
  · rw [hkept]
    rcases h.calls x hx with hplain | ⟨order', hbuilt', hsuits⟩
    · have hnone := Call.family?_of_isPlain hplain
      rw [Call.family?_of_built hbuilt] at hnone
      cases hnone
    · rw [hbuilt] at hbuilt'
      cases hbuilt'
      exact hsuits.congr hcurrent

variable {r : Except (Failure τ) Catalog}

theorem LooksUp.apart (h : LooksUp other session' w made r w') (hother : other ≠ family) :
    Apart family session w made w' := by
  have hcall : (Call.listCatalogItems other).family? ≠ some family :=
    fun hsame => hother (Option.some.inj hsame)
  cases h with
  | held kept => exact ⟨rfl, fun _ => nofun⟩
  | listed missing cache =>
      refine ⟨?_, List.forall_mem_singleton.mpr hcall⟩
      unfold World.catalog?
      rw [cache, CatalogCache.find?_add_other w.cache hother]
  | failed missing unlisted cache =>
      refine ⟨?_, List.forall_mem_singleton.mpr hcall⟩
      unfold World.catalog?
      rw [cache]

theorem LooksUp.epoch (h : LooksUp defaults.family session w made r w') :
    Epoch defaults session asked w made w' where
  filled := h.filled
  suited x hx order hbuilt _ := by
    rw [h.unbuilt x hx] at hbuilt
    cases hbuilt

end Frames

/-! ## Looking up the catalog of the family -/

theorem fetch_achieves (defaults : OrderDefaults) (session : String)
    (asked : Template → String → Prop) :
    ((CatalogSource.cached defaults.family session).fetch : Run τ Catalog).Achieves
      (Epoch defaults session asked) (fun _ => True) fun catalog w =>
        w.catalog? defaults.family session = some catalog :=
  (fetch_looks_up defaults.family session).mono fun _ _ _ _ h _ =>
    ⟨h.epoch, fun _ hr => h.kept hr⟩

theorem catalogFor_achieves (defaults : OrderDefaults) (session : String)
    (asked : Template → String → Prop) :
    (Selector.catalogFor defaults (some (.cached defaults.family session))
      : Run τ (Option Catalog)).Achieves
      (Epoch defaults session asked) (fun _ => True) (Current defaults session) := by
  have hsteady := epoch_steady (τ := τ) defaults session asked
  cases hextras : defaults.extraItems.isEmpty with
  | true =>
      simp only [Selector.catalogFor, hextras, if_true]
      refine hsteady.achieves_pure fun w _ => ?_
      unfold Current
      rw [OrderDefaults.allExtraPrices_of_isEmpty hextras,
        OrderDefaults.allExtraPrices_of_isEmpty hextras]
  | false =>
      simp only [Selector.catalogFor, hextras, Bool.false_eq_true, if_false]
      refine hsteady.achieves_bind (fetch_achieves defaults session asked) fun catalog => ?_
      refine hsteady.achieves_pure fun w hkept => ?_
      unfold Current
      rw [hkept]

/-! ## Calls where no catalog is kept -/

section Inquiries

variable {β : Type} {family : Int} {session : String}

/-- Where no catalog is kept, it is asked for. -/
def Inquires (family : Int) (session : String) : Frame τ := fun w made _ =>
  w.catalog? family session = none → listings family made ≠ []

theorem inquires_bind {x : Run τ α} {f : α → Run τ β} {Q : α → Post τ β}
    (hx : x.Keeps (Inquires family session)) (hf : ∀ a, (f a).Satisfies (Q a)) :
    (x >>= f).Keeps (Inquires family session) := by
  refine (Satisfies.bind hx hf).mono ?_
  intro w made r w' h hnone
  cases h with
  | failed first => exact first hnone
  | went first second =>
      rw [listings_append]
      exact List.append_ne_nil_of_left_ne_nil (first hnone) _

theorem fetch_inquires (family : Int) (session : String) :
    ((CatalogSource.cached family session).fetch : Run τ Catalog).Keeps
      (Inquires family session) :=
  (fetch_looks_up family session).mono fun _ _ _ _ h => h.asks

theorem select_inquires {s : Selector} (hcatalog : s.catalog = some (.cached family session))
    (hextras : s.defaults.extraItems.isEmpty = false) (candidates : String) (template : Template) :
    (s.select candidates template : Run τ String).Keeps (Inquires family session) := by
  have hlookup : (Selector.catalogFor s.defaults s.catalog : Run τ (Option Catalog)).Keeps
      (Inquires family session) := by
    rw [hcatalog]
    simp only [Selector.catalogFor, hextras, Bool.false_eq_true, if_false]
    exact inquires_bind (fetch_inquires family session) fun catalog => satisfies_pure _
  have hverify := fun catalog : Option Catalog => s.verifyFrom_satisfies (τ := τ) template catalog
    (Price.split candidates) [] (Price.split candidates)
  exact inquires_bind (inquires_bind hlookup hverify) fun chosen => satisfies_pure chosen.1

end Inquiries

end Run

namespace Selector

open Run

/-- What becomes of one candidate: it is chosen, or one of those that remain may be. -/
theorem judge_keeps {F : Frame τ} (hF : Steady F) (s : Selector) (template : Template)
    (catalog : Option Catalog) (all : List String) (rejections : List (String × String))
    (candidate : String) (order : Order) {rest : List String}
    (hrest : ∀ rejections, (s.verifyFrom template catalog all rejections rest
      : Run τ (String × Order)).Satisfies fun w made r w' =>
        F w made w' ∧ ∀ chosen, r = .ok chosen → chosen.1 ∈ rest)
    (reply : Except (Failure τ) Unit) :
    (s.judge template catalog all rejections candidate order rest reply).Satisfies
      fun w made r w' => F w made w' ∧ ∀ chosen, r = .ok chosen → chosen.1 ∈ candidate :: rest := by
  have hfail : ∀ e : Failure τ, (fail e : Run τ (String × Order)).Satisfies fun w made r w' =>
      F w made w' ∧ ∀ chosen, r = .ok chosen → chosen.1 ∈ candidate :: rest :=
    fun e w => ⟨[], rfl, hF.refl w, fun _ => nofun⟩
  rcases reply with e | _
  · cases e with
    | provider f =>
        show Satisfies (if f.trouble = .rejection then _ else _) _
        by_cases htrouble : f.trouble = .rejection
        · rw [if_pos htrouble]
          refine Satisfies.logged ((hrest _).mono ?_) ?_ _
          · exact fun _ _ _ _ h => ⟨h.1, fun chosen hr => List.mem_cons_of_mem _ (h.2 chosen hr)⟩
          · exact fun w records _ _ _ h => ⟨hF.trans (hF.idle w records w.clock w.sleeps) h.1, h.2⟩
        · rw [if_neg htrouble]
          exact hfail _
    | _ => exact hfail _
  · refine fun w => ⟨[], rfl, hF.idle w _ w.clock w.sleeps, ?_⟩
    rintro _ ⟨⟩
    exact List.mem_cons_self ..

/-- The orders of the candidates are sent one by one, and who is chosen is one of them. -/
theorem verifyFrom_keeps {F : Frame τ} (hF : Steady F) (s : Selector) (template : Template)
    (catalog : Option Catalog) (all : List String) (rejections : List (String × String))
    (candidates : List String)
    (hsent : ∀ candidate ∈ candidates, ∀ order,
      template.order s.defaults candidate catalog = .ok order →
        (call (.verifyOrder order)).Keeps F) :
    (s.verifyFrom template catalog all rejections candidates
      : Run τ (String × Order)).Satisfies fun w made r w' =>
        F w made w' ∧ ∀ chosen, r = .ok chosen → chosen.1 ∈ candidates := by
  induction candidates generalizing rejections with
  | nil => exact fun w => ⟨[], rfl, hF.refl w, fun _ => nofun⟩
  | cons candidate rest ih =>
      have hrest := fun rejections =>
        ih rejections fun later hlater => hsent later (List.mem_cons_of_mem _ hlater)
      rw [verifyFrom_cons]
      cases horder : template.order s.defaults candidate catalog with
      | error fault => exact fun w => ⟨[], rfl, hF.refl w, fun _ => nofun⟩
      | ok order =>
          have hjudge := s.judge_keeps hF template catalog all rejections candidate order hrest
          refine ((hsent candidate (List.mem_cons_self ..) order horder).attempt hjudge).mono ?_
          rintro w _ r w' ⟨hcalled, hkept, hmem⟩
          exact ⟨hF.trans hcalled hkept, hmem⟩

/-! ## Selecting and ordering for the family -/

section Own

variable {s : Selector} {session : String} {asked : Template → String → Prop} {template : Template}

theorem select_achieves (hcatalog : s.catalog = some (.cached s.defaults.family session))
    {candidates : String}
    (hasked : ∀ combination ∈ Price.split candidates, asked template combination) :
    (s.select candidates template : Run τ String).Achieves (Epoch s.defaults session asked)
      (fun _ => True) fun combination _ => combination ∈ Price.split candidates := by
  have hsteady := epoch_steady (τ := τ) s.defaults session asked
  have hverify : ∀ catalog, (s.verifyFrom template catalog (Price.split candidates) []
      (Price.split candidates) : Run τ (String × Order)).Achieves (Epoch s.defaults session asked)
        (Current s.defaults session catalog) fun chosen _ => chosen.1 ∈ Price.split candidates := by
    intro catalog
    refine (s.verifyFrom_keeps (calm_trackable (Orders s.defaults asked catalog)).steady template
      catalog _ _ _ ?_).mono fun _ _ _ _ h hcurrent => ⟨h.1.epoch hcurrent, h.2⟩
    intro candidate hcandidate order horder
    exact calm_call (.inr ⟨order, rfl, template, candidate, hasked candidate hcandidate, horder⟩)
  have hselect := hsteady.achieves_bind (catalogFor_achieves s.defaults session asked) hverify
  rw [← hcatalog] at hselect
  exact hsteady.achieves_bind hselect fun chosen => hsteady.achieves_pure fun _ h => h

end Own

section Other

variable {s : Selector} {family : Int} {session session' : String}

theorem catalogFor_apart {defaults : OrderDefaults} (hother : defaults.family ≠ family)
    (session session' : String) :
    (catalogFor defaults (some (.cached defaults.family session')) : Run τ (Option Catalog)).Keeps
      (Apart family session) := by
  have hsteady := (apart_trackable (τ := τ) family session).steady
  have hfetch : ((CatalogSource.cached defaults.family session').fetch : Run τ Catalog).Keeps
      (Apart family session) := (fetch_looks_up _ _).mono fun _ _ _ _ h => h.apart hother
  exact .ite (hsteady.pure none) (hsteady.bind hfetch fun catalog => hsteady.pure (some catalog))

theorem select_apart (hother : s.defaults.family ≠ family)
    (hcatalog : s.catalog = some (.cached s.defaults.family session')) (candidates : String)
    (template : Template) :
    (s.select candidates template : Run τ String).Keeps (Apart family session) := by
  have hsteady := (apart_trackable (τ := τ) family session).steady
  have hlookup := catalogFor_apart (τ := τ) hother session session'
  rw [← hcatalog] at hlookup
  refine hsteady.bind (hsteady.bind hlookup fun catalog => ?_) fun chosen => hsteady.pure chosen.1
  refine (s.verifyFrom_keeps hsteady template catalog _ _ _ ?_).mono fun _ _ _ _ h => h.1
  exact fun candidate _ order horder => call_apart (family?_of_order rfl horder hother)

end Other

end Selector

namespace Machine

open Run

variable [Duration τ] {m : Machine τ} {session : String}

theorem provision_epoch {asked : Template → String → Prop}
    (hcatalog : m.catalog = some (.cached m.defaults.family session)) {template : Template}
    {combination : String} (hasked : asked template combination) :
    (m.provision template combination).Keeps (Epoch m.defaults session asked) := by
  have hsteady := epoch_steady (τ := τ) m.defaults session asked
  refine m.provision_keeps (epoch_trackable m.defaults session asked) ?_ none
  have hlookup := catalogFor_achieves (τ := τ) m.defaults session asked
  rw [← hcatalog] at hlookup
  unfold prepare
  rw [bind_assoc]
  refine (hsteady.achieves_bind (Q := fun _ _ => True) hlookup fun catalog => ?_).keeps
  cases horder : template.order m.defaults combination catalog with
  | error fault => exact hsteady.achieves_fail _
  | ok order =>
      have hplaced : (call (.placeOrder order) : Run τ _).Keeps
          (Calm (Orders m.defaults asked catalog)) :=
        calm_call (.inr ⟨order, rfl, template, combination, hasked, horder⟩)
      refine (m.pursue_keeps (calm_trackable _) template combination hplaced).mono ?_
      exact fun _ _ _ _ h hcurrent => ⟨h.epoch hcurrent, fun _ _ => trivial⟩

theorem provision_apart {family : Int} {session' : String} (hother : m.defaults.family ≠ family)
    (hcatalog : m.catalog = some (.cached m.defaults.family session')) (template : Template)
    (combination : String) :
    (m.provision template combination).Keeps (Apart family session) := by
  have hsteady := (apart_trackable (τ := τ) family session).steady
  refine m.provision_keeps (apart_trackable family session) ?_ none
  have hlookup := Selector.catalogFor_apart (τ := τ) hother session session'
  rw [← hcatalog] at hlookup
  unfold prepare
  rw [bind_assoc]
  refine hsteady.bind hlookup fun catalog => ?_
  cases horder : template.order m.defaults combination catalog with
  | error fault => exact hsteady.fail _
  | ok order =>
      exact m.pursue_keeps (apart_trackable family session) template combination
        (call_apart (family?_of_order rfl horder hother))

end Machine

/-! ## Strategies -/

namespace Strategy

open Run

/-- All parts look up the family's catalog in the cache, and make orders with the same defaults. -/
structure Cached (s : Strategy τ) (session : String) : Prop where
  catalog : s.catalog = .cached s.family session
  selector : s.selector = { defaults := s.spec.orderDefaults
                            catalog := some (.cached s.family session) }
  defaults : s.machine.defaults = s.spec.orderDefaults
  machine : s.machine.catalog = some (.cached s.family session)

namespace Cached

variable {s : Strategy τ} {family : Int} {session session' : String}
  {asked : Template → String → Prop}

theorem profiles_achieves (h : s.Cached session) (asked : Template → String → Prop) :
    s.profiles.Achieves (Epoch s.spec.orderDefaults session asked) (fun _ => True) fun e w =>
      ∃ catalog, w.catalog? s.family session = some catalog ∧
        e = s.spec.rules.enumerate s.family catalog := by
  have hsteady := epoch_steady (τ := τ) s.spec.orderDefaults session asked
  have hfetch := fetch_achieves (τ := τ) s.spec.orderDefaults session asked
  unfold profiles
  rw [h.catalog]
  refine hsteady.achieves_bind hfetch fun catalog => ?_
  intro w
  refine ⟨[], rfl, fun hkept => ⟨hsteady.idle w _ w.clock w.sleeps, ?_⟩⟩
  rintro _ ⟨⟩
  exact ⟨catalog, hkept, rfl⟩

theorem profiles_inquires (h : s.Cached session) :
    s.profiles.Keeps (Inquires s.family session) := by
  unfold profiles
  rw [h.catalog]
  exact inquires_bind (Q := fun _ _ _ _ _ => True) (fetch_inquires s.family session)
    fun _ _ => ⟨[], rfl, trivial⟩

theorem profiles_apart (h : s.Cached session') (hother : s.family ≠ family) :
    s.profiles.Keeps (Apart family session) := by
  have hsteady := (apart_trackable (τ := τ) family session).steady
  have hfetch : s.catalog.fetch.Keeps (Apart (τ := τ) family session) := by
    rw [h.catalog]
    exact (fetch_looks_up s.family session').mono fun _ _ _ _ h => h.apart hother
  refine hsteady.bind hfetch fun catalog => ?_
  exact hsteady.bind (hsteady.logAll _) fun _ => hsteady.pure _

theorem select_achieves (h : s.Cached session) {candidates : String} {template : Template}
    (hasked : ∀ combination ∈ Price.split candidates, asked template combination) :
    (s.selector.select candidates template : Run τ String).Achieves
      (Epoch s.spec.orderDefaults session asked) (fun _ => True) fun combination _ =>
        combination ∈ Price.split candidates := by
  rw [h.selector]
  exact Selector.select_achieves rfl hasked

theorem select_apart (h : s.Cached session') (hother : s.family ≠ family) (candidates : String)
    (template : Template) :
    (s.selector.select candidates template : Run τ String).Keeps (Apart family session) := by
  rw [h.selector]
  exact Selector.select_apart hother rfl candidates template

variable [Duration τ]

theorem provision_epoch (h : s.Cached session) {template : Template} {combination : String}
    (hasked : asked template combination) :
    (s.machine.provision template combination).Keeps
      (Epoch s.spec.orderDefaults session asked) := by
  rw [← h.defaults]
  exact Machine.provision_epoch (by rw [h.machine, h.defaults]; rfl) hasked

theorem ordering_epoch (h : s.Cached session) {template : Template}
    (hasked : ∀ combination ∈ Price.split template.hardwareId, asked template combination) :
    (s.selector.select template.hardwareId template >>= fun combination =>
      s.machine.provision template combination).Keeps
        (Epoch s.spec.orderDefaults session asked) := by
  have hsteady := epoch_steady (τ := τ) s.spec.orderDefaults session asked
  refine (hsteady.achieves_bind (Q := fun _ _ => True) (h.select_achieves hasked) ?_).keeps
  intro combination
  by_cases hcombination : combination ∈ Price.split template.hardwareId
  · exact (h.provision_epoch (hasked combination hcombination)).achieves
  · -- The selection gives no such combination; all that counts here is that calls are added.
    have hkept : (s.machine.provision template combination).Keeps
        (Epoch s.spec.orderDefaults session fun _ _ => True) := h.provision_epoch trivial
    exact hkept.mono fun _ _ _ _ _ hmem => absurd hmem hcombination

theorem ordering_apart (h : s.Cached session') (hother : s.family ≠ family) (template : Template) :
    (s.selector.select template.hardwareId template >>= fun combination =>
      s.machine.provision template combination).Keeps (Apart family session) := by
  have hcatalog : s.machine.catalog = some (.cached s.machine.defaults.family session') := by
    rw [h.machine, h.defaults]
    rfl
  refine (apart_trackable family session).steady.bind
    (h.select_apart hother template.hardwareId template) fun combination => ?_
  refine Machine.provision_apart ?_ hcatalog template combination
  rw [h.defaults]
  exact hother

end Cached

end Strategy

end Provision
