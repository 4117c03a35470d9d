import Provision.Proofs.Enumeration

/-!
# Templates and candidates

The items of a profile are written in two ways. Its template takes the first
price of every item by itself; its candidates come from a search over the items
with different ids. The two agree because all items of a profile come from one
index, also those that fill several slots or are configured in addition. In an
index equal ids mean the same item, so the prices that count for an id are those
of the item itself (`pricesOf_own`). The first candidate is then the template
(`template_eq`), whether a family offers all candidates or this one
(`hardware_ids_agree`).
-/

namespace Provision

/-! ## First prices -/

namespace Price

/-- The assignment that gives every item the first of the prices that count for its id. -/
def firstPriceOf (items : List Item) (id : Int) : Int := (pricesOf items id).headD 0

theorem choices_head? {items : List Item} (h : ∀ item ∈ items, pricesOf items item.id ≠ []) :
    (choices items).head?
      = some ((Item.firsts items).map fun first => firstPriceOf items first.id) := by
  refine head?_product fun first hfirst => ?_
  have hmem := List.mem_of_find?_eq_some (Item.mem_firsts_iff.mp hfirst)
  have hsome := h first hmem
  rw [head?_distinct, firstPriceOf]
  rw [pricesOf_first hfirst] at hsome ⊢
  obtain ⟨price, more, hprices⟩ := List.exists_cons_of_ne_nil hsome
  rw [hprices]
  rfl

/-- The search begins with the first prices. -/
theorem candidates_head? {items : List Item} (h : ∀ item ∈ items, pricesOf items item.id ≠ []) :
    (candidates items).head? = some (candidateOf items (firstPriceOf items)) := by
  rw [candidates, List.head?_map, choices_head? h, Option.map_some, candidate_choice]

/-- Every item has itself the prices that count for its id. -/
def Own (items : List Item) : Prop := ∀ item ∈ items, pricesOf items item.id = item.prices

/-- A text that has one piece for every item: one of the item's own prices. -/
def Priced (items : List Item) (text : String) : Prop :=
  List.Forall₂ (fun item piece => ∃ price ∈ item.prices, piece = toString price)
    items (Text.splitOn ',' text)

variable {items : List Item}

theorem priced_candidateOf (hown : Own items) (hne : items ≠ []) {f : Int → Int}
    (hf : Assigns items f) : Priced items (candidateOf items f) := by
  rw [Priced, splitOn_candidateOf hne, List.forall₂_map_right_iff, List.forall₂_same]
  intro item hitem
  have hprice := hf item hitem
  rw [hown item hitem] at hprice
  exact ⟨f item.id, hprice, rfl⟩

/-- The first prices of the items, taken one by one. -/
theorem template_eq (hown : Own items) {text : String} (h : template items = .ok text) :
    (∀ item ∈ items, pricesOf items item.id ≠ [])
      ∧ text = candidateOf items (firstPriceOf items) := by
  cases hprices : items.mapM Item.firstPrice with
  | error fault =>
      rw [template, hprices] at h
      cases h
  | ok prices =>
      rw [template, hprices] at h
      cases h
      have hfirst : List.Forall₂ (fun item price => item.prices.head? = some price) items prices :=
        forall₂_of_mapM_ok (fun _ _ => Item.firstPrice_eq_ok_iff.mp) hprices
      have hsome : ∀ item ∈ items, pricesOf items item.id ≠ [] := by
        intro item hitem hnone
        obtain ⟨price, -, hprice⟩ := exists_of_forall₂ hfirst.flip hitem
        rw [← hown item hitem, hnone] at hprice
        cases hprice
      have hheads : items.map (fun item => item.prices.headD 0) = prices := by
        rw [← List.forall₂_eq_eq_eq, List.forall₂_map_left_iff]
        refine hfirst.imp fun item price hprice => ?_
        rw [List.headD_eq_head?_getD, hprice]
        rfl
      refine ⟨hsome, ?_⟩
      rw [candidateOf_eq, ← hheads]
      refine congrArg writeIds (List.map_congr_left fun item hitem => ?_)
      rw [firstPriceOf, hown item hitem]

/-- The template is the first of all candidates. -/
theorem split_head? (hown : Own items) (hne : items ≠ []) {text : String}
    (h : template items = .ok text) :
    ∃ all, allCombinations items = .ok all ∧ (split all).head? = some text
      ∧ ∀ candidate ∈ split all, Priced items candidate := by
  obtain ⟨hsome, rfl⟩ := template_eq hown h
  have hok := combinations_eq hne hsome
  obtain ⟨all, hall, hsplit⟩ := split_allCombinations hne hok
  refine ⟨all, hall, ?_, fun candidate hcandidate => ?_⟩
  · rw [hsplit, candidates_head? hsome]
  · rw [hsplit] at hcandidate
    obtain ⟨f, hf, rfl⟩ := mem_candidates.mp hcandidate
    exact priced_candidateOf hown hne hf

end Price

/-! ## The items of a profile -/

/-- Among items of one index, an id stands for one item. -/
theorem Price.own_of_indexed {listing items : List Item}
    (h : ∀ item ∈ items, item ∈ (Catalog.ofItems listing).items) : Own items := by
  intro item hitem
  cases hfind : items.find? (·.id == item.id) with
  | none =>
      have hnone := List.find?_eq_none.mp hfind item hitem
      exact absurd (beq_self_eq_true item.id) hnone
  | some found =>
      have hid : found.id = item.id := by simpa using List.find?_some hfind
      have hsame : found = item := List.inj_on_of_nodup_map (Catalog.nodup_ids listing)
        (h found (List.mem_of_find?_eq_some hfind)) (h item hitem) hid
      rw [pricesOf, hfind, hsame]
      rfl

namespace Rules

variable {rules : Rules} {family : Int} {extras : List Item} {listing : List Item}

theorem mem_of_findConfigured {text : String} {pool : List Item} {item : Item}
    (h : findConfigured family text pool = .ok (some item)) : item ∈ pool := by
  unfold findConfigured at h
  cases hnumber : Text.readInteger? text with
  | none =>
      rw [hnumber] at h
      cases h
  | some n =>
      rw [hnumber] at h
      cases hprice : pool.find? (·.hasPrice n) with
      | some found =>
          simp only [hprice] at h
          cases h
          exact List.mem_of_find?_eq_some hprice
      | none =>
          simp only [hprice] at h
          exact List.mem_of_find?_eq_some (Except.ok.inj h)

/-- Every extra disk was found by its id among the items of certain categories. -/
theorem found_of_extraDiskItems {catalog : Catalog} {disks : List Item}
    (h : rules.extraDiskItems family catalog = .ok disks) :
    (rules.extraDiskIds = [] ∧ disks = [])
      ∨ ∃ e, rules.extraDisks = some e ∧ List.Forall₂ (fun text disk =>
        findConfigured family text (catalog.inCategoriesMatching e.pattern) = .ok (some disk))
        rules.extraDiskIds disks := by
  unfold extraDiskItems at h
  by_cases hnone : rules.extraDiskIds.isEmpty = true
  · rw [if_pos hnone] at h
    cases h
    exact Or.inl ⟨List.isEmpty_iff.mp hnone, rfl⟩
  · rw [if_neg hnone] at h
    cases hextra : rules.extraDisks with
    | none =>
        rw [hextra] at h
        cases h
    | some e =>
        simp only [hextra] at h
        refine Or.inr ⟨e, rfl, forall₂_of_mapM_ok (fun text disk hdisk => ?_) h⟩
        obtain ⟨found, hfound, hdisk⟩ := ok_of_bind hdisk
        cases found with
        | none => cases hdisk
        | some item =>
            cases hdisk
            exact hfound

theorem mem_of_extraDiskItems {catalog : Catalog} {disks : List Item}
    (h : rules.extraDiskItems family catalog = .ok disks) :
    ∀ disk ∈ disks, disk ∈ catalog.items := by
  intro disk hdisk
  rcases found_of_extraDiskItems h with ⟨-, rfl⟩ | ⟨e, -, hfound⟩
  · cases hdisk
  · obtain ⟨text, -, hpool⟩ := exists_of_forall₂ hfound hdisk
    exact (List.mem_filter.mp (mem_of_findConfigured hpool)).1

theorem mem_of_controllerItems {controller : List Item}
    (h : rules.controllerItems family (.ofItems listing) = .ok controller) :
    ∀ item ∈ controller, item ∈ (Catalog.ofItems listing).items := by
  unfold controllerItems at h
  cases hcategory : rules.controllerCategory with
  | none =>
      rw [hcategory] at h
      cases h
      exact fun _ => nofun
  | some code =>
      cases hid : rules.controllerId with
      | none =>
          simp only [hcategory, hid] at h
          cases h
      | some text =>
          simp only [hcategory, hid] at h
          by_cases hempty : (text == "") = true
          · rw [if_pos hempty] at h
            cases h
          · rw [if_neg hempty] at h
            obtain ⟨found, hfound, h⟩ := ok_of_bind h
            cases found with
            | none => cases h
            | some item =>
                cases h
                have hpool := mem_of_findConfigured hfound
                rw [Catalog.inCategory_ofItems] at hpool
                exact List.forall_mem_singleton.mpr (List.mem_filter.mp hpool).1

/-- What was chosen for the slots are candidates of the slots. -/
theorem mem_of_chosen {slots : List Slot} {c : List (Option Item)}
    (hc : List.Forall₂ (· ∈ ·) c (slots.map (Slot.fillings (.ofItems listing)))) :
    ∀ item ∈ chosenItems c, item ∈ (Catalog.ofItems listing).items := by
  intro item hitem
  obtain ⟨filling, hfilling, rfl⟩ := List.mem_filterMap.mp hitem
  obtain ⟨_, hmem, hfills⟩ := exists_of_forall₂ hc.flip hfilling
  obtain ⟨slot, -, rfl⟩ := List.mem_map.mp hmem
  by_cases hnone : slot.candidates (.ofItems listing) = []
  · rw [Slot.fillings_of_nil hnone, List.mem_singleton] at hfills
    cases hfills
  · rw [Slot.fillings_of_ne_nil hnone] at hfills
    obtain ⟨candidate, hcandidate, hsame⟩ := List.mem_map.mp hfills
    obtain rfl := Option.some.inj hsame
    exact (slot.candidates_sublist listing).subset hcandidate

theorem of_mem_profilesOf {combinations : List (List (Option Item))} {profile : Profile}
    (h : profile ∈ (rules.profilesOf family extras combinations).profiles) :
    ∃ c ∈ combinations, rules.outcome family extras c = .ok profile := by
  obtain ⟨through, rest, rfl, -, hprofiles, -⟩ :=
    rules.profilesOf_stops family extras combinations
  rw [hprofiles] at h
  obtain ⟨c, hc, hyielded⟩ := List.mem_filterMap.mp h
  exact ⟨c, List.mem_append_left rest hc, ok_of_toOption hyielded⟩

/-- A profile that is yielded describes a combination, completed by extras. -/
theorem of_mem_enumerate {catalog : Catalog} {profile : Profile}
    (h : profile ∈ (rules.enumerate family catalog).profiles) :
    ∃ disks controller c, rules.extraDiskItems family catalog = .ok disks
      ∧ rules.controllerItems family catalog = .ok controller
      ∧ List.Forall₂ (· ∈ ·) c (rules.slots.map (Slot.fillings catalog))
      ∧ rules.outcome family (disks ++ controller) c = .ok profile := by
  unfold enumerate at h
  rw [choices_eq] at h
  cases hvacant : rules.slots.find? (·.isVacant catalog) with
  | some slot =>
      rw [hvacant] at h
      cases h
  | none =>
      simp only [hvacant] at h
      cases hextras : rules.extras family catalog with
      | error fault =>
          rw [hextras] at h
          cases h
      | ok extras =>
          simp only [hextras] at h
          obtain ⟨disks, hdisks, hrest⟩ := ok_of_bind hextras
          obtain ⟨controller, hcontroller, hrest⟩ := ok_of_bind hrest
          cases hrest
          obtain ⟨c, hc, houtcome⟩ := of_mem_profilesOf h
          exact ⟨disks, controller, c, hdisks, hcontroller, mem_product.mp hc, houtcome⟩

theorem ids_of_buildProfile {items : List Item} {roles : Roles} {profile : Profile}
    (h : rules.buildProfile family items roles = .ok profile) :
    rules.hardwareId items = .ok profile.id ∧ Price.template items = .ok profile.template := by
  obtain ⟨cpu, -, h⟩ := ok_of_bind h
  obtain ⟨ram, -, h⟩ := ok_of_bind h
  obtain ⟨id, hid, h⟩ := ok_of_bind h
  obtain ⟨template, htemplate, h⟩ := ok_of_bind h
  cases h
  exact ⟨hid, htemplate⟩

/-- **One candidate or all of them.** The template of a profile is the first of the candidates for
its items. A family that offers all candidates offers just these, and one that offers a single one
offers the first. Ids and candidates have one piece for every item, and in a candidate it is one of
the item's own prices. -/
theorem hardware_ids_agree {profile : Profile}
    (hprofile : profile ∈ (rules.enumerate family (.ofItems listing)).profiles)
    (hne : profile.items ≠ []) :
    ∃ all, Price.allCombinations profile.items = .ok all
      ∧ (Price.split all).head? = some profile.template
      ∧ (rules.strategy = .multi → profile.id = all)
      ∧ (rules.strategy = .single → (Price.split all).head? = some profile.id)
      ∧ Text.splitOn ',' profile.itemIds = profile.items.map (fun item => toString item.id)
      ∧ Price.Priced profile.items profile.template
      ∧ ∀ candidate ∈ Price.split all, Price.Priced profile.items candidate := by
  obtain ⟨disks, controller, c, hdisks, hcontroller, hc, houtcome⟩ := of_mem_enumerate hprofile
  obtain ⟨hitems, hitemIds⟩ := of_buildProfile_ok houtcome
  obtain ⟨hid, htemplate⟩ := ids_of_buildProfile houtcome
  rw [← hitems] at hitemIds hid htemplate
  have hindexed : ∀ item ∈ profile.items, item ∈ (Catalog.ofItems listing).items := by
    intro item hitem
    rw [hitems, List.mem_append, List.mem_append] at hitem
    rcases hitem with hchosen | hdisk | hcontrols
    · exact mem_of_chosen hc item hchosen
    · exact mem_of_extraDiskItems hdisks item hdisk
    · exact mem_of_controllerItems hcontroller item hcontrols
  obtain ⟨all, hall, hhead, hpriced⟩ :=
    Price.split_head? (Price.own_of_indexed hindexed) hne htemplate
  refine ⟨all, hall, hhead, fun hmulti => ?_, fun hsingle => ?_, ?_, ?_, hpriced⟩
  · unfold hardwareId at hid
    rw [hmulti] at hid
    exact Except.ok.inj (hid.symm.trans hall)
  · unfold hardwareId at hid
    rw [hsingle] at hid
    rw [hhead, Except.ok.inj (hid.symm.trans htemplate)]
  · have hpieces := Price.splitOn_candidateOf hne id
    rw [Price.candidateOf_eq] at hpieces
    rw [hitemIds]
    exact hpieces
  · exact hpriced _ (List.mem_of_mem_head? hhead)

/-- The mirrored profiles of a family that offers all candidates. -/
def mirroredOffers (rules : Rules) : List Profile :=
  (({ rules with strategy := .multi } : Rules).enumerate 1 (.ofItems mirroredListing)).profiles

theorem mirroredOffers_eq : (mirroredRules.toOption.map mirroredOffers).bind (fun offers =>
    offers[1]?.map fun profile =>
      (profile.itemIds, profile.template, profile.id, profile.items.isEmpty))
    = some ("1,3,4,5,5,6", "10,13,14,15,15,17",
      "10,13,14,15,15,17;10,13,14,16,16,17;10,13,13,15,15,17;10,13,13,16,16,17", false) := by
  decide +kernel

/-- A disk that is configured twice and has two prices, and a price that two items share. -/
theorem hardware_ids_agree_mirrored :
    ∃ rules, mirroredRules = .ok rules ∧ ∃ profile ∈ mirroredOffers rules,
      profile.itemIds = "1,3,4,5,5,6" ∧ profile.template = "10,13,14,15,15,17"
        ∧ Price.allCombinations profile.items = .ok profile.id
        ∧ (Price.split profile.id).head? = some profile.template
        ∧ Price.Priced profile.items "10,13,13,16,16,17" := by
  obtain ⟨offers, hoffers, hsecond⟩ := Option.bind_eq_some_iff.mp mirroredOffers_eq
  obtain ⟨rules, hrules, rfl⟩ := Option.map_eq_some_iff.mp hoffers
  obtain ⟨profile, hprofile, hids⟩ := Option.map_eq_some_iff.mp hsecond
  simp only [Prod.mk.injEq, List.isEmpty_eq_false_iff] at hids
  obtain ⟨hitemIds, htemplate, hid, hne⟩ := hids
  have hmem : profile ∈ mirroredOffers rules := List.mem_of_getElem? hprofile
  obtain ⟨all, hall, hhead, hmulti, -, -, -, hpriced⟩ := hardware_ids_agree hmem hne
  obtain rfl : profile.id = all := hmulti rfl
  refine ⟨rules, ok_of_toOption hrules, profile, hmem, hitemIds, htemplate, hall, hhead, ?_⟩
  refine hpriced _ ?_
  rw [hid]
  decide +kernel

end Rules

end Provision
