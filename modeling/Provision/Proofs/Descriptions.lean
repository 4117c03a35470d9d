import Provision.Proofs.Templates

/-!
# The same items in other words

A description is read in three places only: by the pattern of a slot, by the
processor rule, and where the kind of a volume is told. So a catalog whose items
are worded differently yields the same profiles in the same order, as long as
these three take no notice (`enumerate_reworded`). Only the wording of the items
themselves, and of what is said about skipped combinations, is another one.

Two computations `Agree` if they come to the same, or if both fail in a way that
only rules out what they are about. Everything that a profile is built from
agrees on items in other words.
-/

namespace Provision

/-! ## Agreement -/

section Agree

variable {α β α' β' : Type} {R : α → α' → Prop} {S : β → β' → Prop}

/-- The same comes of both, or both rule out what they are about. -/
inductive Agree (R : α → α' → Prop) : Except Fault α → Except Fault α' → Prop
  | ok {a : α} {a' : α'} (h : R a a') : Agree R (.ok a) (.ok a')
  | ruledOut (cause cause' : ResolutionFault) :
      Agree R (.error (.resolution cause)) (.error (.resolution cause'))
  | failed (fault : Fault) : Agree R (.error fault) (.error fault)

theorem Agree.refl (x : Except Fault α) : Agree Eq x x := by
  cases x with
  | ok a => exact .ok rfl
  | error fault => exact .failed fault

theorem Agree.bind {x : Except Fault α} {x' : Except Fault α'} {f : α → Except Fault β}
    {f' : α' → Except Fault β'} (hx : Agree R x x')
    (hf : ∀ a a', R a a' → Agree S (f a) (f' a')) : Agree S (x >>= f) (x' >>= f') := by
  cases hx with
  | ok h => exact hf _ _ h
  | ruledOut cause cause' => exact .ruledOut cause cause'
  | failed fault => exact .failed fault

theorem Agree.map {x x' : Except Fault α} (hx : Agree Eq x x') (f : α → β) :
    Agree Eq (x.map f) (x'.map f) := by
  cases hx with
  | ok h => exact .ok (congrArg f h)
  | ruledOut cause cause' => exact .ruledOut cause cause'
  | failed fault => exact .failed fault

end Agree

/-! ## Items -/

namespace Item

variable {text : Item → String}

/-- An item with another description. -/
def reworded (text : Item → String) (item : Item) : Item := { item with description := text item }

@[simp] theorem reworded_id (item : Item) : (item.reworded text).id = item.id := rfl

@[simp] theorem reworded_prices (item : Item) : (item.reworded text).prices = item.prices := rfl

@[simp] theorem reworded_categories (item : Item) :
    (item.reworded text).categories = item.categories := rfl

@[simp] theorem reworded_capacity (item : Item) : (item.reworded text).capacity = item.capacity := rfl

@[simp] theorem reworded_place (item : Item) : (item.reworded text).place = item.place := rfl

@[simp] theorem reworded_description (item : Item) :
    (item.reworded text).description = text item := rfl

theorem firstsFrom_reworded (seen : List Int) (items : List Item) :
    firstsFrom seen (items.map (reworded text)) = (firstsFrom seen items).map (reworded text) := by
  induction items generalizing seen with
  | nil => rfl
  | cons item rest ih =>
      rw [List.map_cons, firstsFrom, firstsFrom, reworded_id]
      split
      · exact ih seen
      · rw [List.map_cons, ih]

theorem firsts_reworded (items : List Item) :
    firsts (items.map (reworded text)) = (firsts items).map (reworded text) :=
  firstsFrom_reworded [] items

theorem firstPrice_agree (item : Item) :
    Agree Eq item.firstPrice (item.reworded text).firstPrice := by
  unfold firstPrice
  rw [reworded_prices]
  cases item.prices with
  | nil => exact .ruledOut _ _
  | cons price more => exact .ok rfl

end Item

open Item (reworded)

variable {text : Item → String}

/-! ## Prices -/

namespace Price

theorem itemIds_reworded (items : List Item) :
    itemIds (items.map (reworded text)) = itemIds items := by
  rw [itemIds, itemIds, List.map_map]
  rfl

theorem template_agree (items : List Item) :
    Agree Eq (template items) (template (items.map (reworded text))) := by
  refine Agree.map ?_ writeIds
  induction items with
  | nil => exact .ok rfl
  | cons item rest ih =>
      rw [List.map_cons, List.mapM_cons, List.mapM_cons]
      refine (item.firstPrice_agree).bind ?_
      rintro price _ rfl
      refine ih.bind ?_
      rintro prices _ rfl
      exact .ok rfl

theorem blank_reworded (items : List Item) : blank (items.map (reworded text)) = blank items := by
  rw [blank, blank, itemIds_reworded, List.zipWith_map_left, List.isEmpty_map]
  rfl

theorem candidate_reworded (items firsts : List Item) (prices : List String) :
    candidate (items.map (reworded text)) (firsts.map (reworded text)) prices
      = candidate items firsts prices := by
  unfold candidate
  rw [blank_reworded, List.zip_map_left, List.foldl_map]
  rfl

theorem combinations_agree (items : List Item) :
    Agree Eq (combinations items) (combinations (items.map (reworded text))) := by
  unfold combinations
  rw [List.isEmpty_map, Item.firsts_reworded]
  by_cases hnone : items.isEmpty = true
  · rw [if_pos hnone, if_pos hnone]
    exact .ok rfl
  · have hprices : (fun item : Item => item.prices.isEmpty) ∘ reworded text
        = fun item => item.prices.isEmpty := rfl
    simp only [if_neg hnone, List.find?_map, hprices]
    cases (Item.firsts items).find? (·.prices.isEmpty) with
    | some item => exact .ruledOut _ _
    | none =>
        refine .ok ?_
        have hcandidate : candidate (items.map (reworded text))
            ((Item.firsts items).map (reworded text)) = candidate items (Item.firsts items) :=
          funext (candidate_reworded items (Item.firsts items))
        rw [hcandidate, List.map_map]
        rfl

theorem allCombinations_agree (items : List Item) :
    Agree Eq (allCombinations items) (allCombinations (items.map (reworded text))) :=
  (combinations_agree items).map _

end Price

/-! ## Profiles -/

/-- A profile of items with other descriptions. -/
def Profile.reworded (text : Item → String) (profile : Profile) : Profile :=
  { profile with
    items := profile.items.map (Item.reworded text)
    additionalDisks := profile.additionalDisks.map (Item.reworded text) }

/-- An enumeration yields the same profiles in the same order, and the same failure ends it. -/
structure Enumeration.Reworded (text : Item → String) (e e' : Enumeration) : Prop where
  profiles : e'.profiles = e.profiles.map (Profile.reworded text)
  failure : e'.failure = e.failure

theorem Roles.item?_reworded (roles : Roles) (role : String) :
    Roles.item? (roles.map (Prod.map id (reworded text))) role
      = (roles.item? role).map (reworded text) := by
  unfold Roles.item?
  rw [← List.map_reverse, List.find?_map, Option.map_map, Option.map_map]
  rfl

namespace Rules

variable {rules : Rules} {family : Int}

/-- Rules that take no notice of the wording. -/
structure Blind (rules : Rules) (text : Item → String) : Prop where
  cpu : ∀ item : Item, rules.cpu.describe (some (item.reworded text))
    = rules.cpu.describe (some item)
  volume : ∀ item : Item, rules.volume (item.reworded text) = rules.volume item

theorem disksOf_reworded (items : List Item) :
    rules.disksOf (items.map (reworded text)) = (rules.disksOf items).map (reworded text) := by
  rw [disksOf, disksOf, List.filter_map]
  rfl

theorem withoutFirst_reworded (entry : Item) (items : List Item) :
    withoutFirst (entry.reworded text) (items.map (reworded text))
      = (withoutFirst entry items).map (reworded text) := by
  induction items with
  | nil => rfl
  | cons item rest ih =>
      have hentry : (item.reworded text).isEntry (entry.reworded text) = item.isEntry entry := rfl
      rw [List.map_cons, withoutFirst, withoutFirst, hentry]
      split
      · rfl
      · rw [List.map_cons, ih]

theorem entriesFrom_reworded (seen items : List Item) :
    entriesFrom (seen.map (reworded text)) (items.map (reworded text))
      = (entriesFrom seen items).map (reworded text) := by
  induction items generalizing seen with
  | nil => rfl
  | cons item rest ih =>
      have hseen : (seen.map (reworded text)).any (item.reworded text).isEntry
          = seen.any item.isEntry := by
        rw [List.any_map]
        rfl
      rw [List.map_cons, entriesFrom, entriesFrom, hseen]
      split
      · exact ih seen
      · rw [List.map_cons, ← ih (item :: seen)]
        rfl

theorem additionalDisks_reworded (items : List Item) (primary : Option Item) :
    rules.additionalDisks (items.map (reworded text)) (primary.map (reworded text))
      = (rules.additionalDisks items primary).map (reworded text) := by
  unfold additionalDisks
  rw [disksOf_reworded, ← entriesFrom_reworded]
  cases primary with
  | none => rfl
  | some entry =>
      rw [← withoutFirst_reworded]
      rfl

theorem ramOf_reworded (cpu : Cpu) (roles : Roles) :
    rules.ramOf cpu (roles.map (Prod.map id (reworded text))) = rules.ramOf cpu roles := by
  unfold ramOf
  rw [Roles.item?_reworded]
  cases roles.item? "ram" <;> rfl

theorem hardwareId_agree (items : List Item) :
    Agree Eq (rules.hardwareId items) (rules.hardwareId (items.map (reworded text))) := by
  unfold hardwareId
  cases rules.strategy with
  | single => exact Price.template_agree items
  | multi => exact Price.allCombinations_agree items

theorem buildProfile_agree (hblind : rules.Blind text) (items : List Item) (roles : Roles) :
    Agree (fun profile profile' => profile' = profile.reworded text)
      (rules.buildProfile family items roles)
      (rules.buildProfile family (items.map (reworded text))
        (roles.map (Prod.map id (reworded text)))) := by
  have hcpu : rules.cpu.describe (Roles.item? (roles.map (Prod.map id (reworded text))) "cpu")
      = rules.cpu.describe (roles.item? "cpu") := by
    rw [Roles.item?_reworded]
    cases roles.item? "cpu" with
    | none => rfl
    | some item => exact hblind.cpu item
  have hvolumes : (rules.disksOf (items.map (reworded text))).map rules.volume
      = (rules.disksOf items).map rules.volume := by
    rw [disksOf_reworded, List.map_map]
    exact List.map_congr_left fun item _ => hblind.volume item
  unfold buildProfile
  rw [hcpu]
  refine (Agree.refl _).bind ?_
  rintro cpu _ rfl
  rw [ramOf_reworded]
  refine (Agree.refl _).bind ?_
  rintro ram _ rfl
  refine (hardwareId_agree items).bind ?_
  rintro hardware _ rfl
  refine (Price.template_agree items).bind ?_
  rintro template _ rfl
  refine .ok ?_
  rw [Price.itemIds_reworded, hvolumes, Roles.item?_reworded, additionalDisks_reworded]
  rfl

/-! ## Combinations -/

/-- A combination of items with other descriptions. -/
def rewordedChoice (text : Item → String) (c : List (Option Item)) : List (Option Item) :=
  c.map (Option.map (Item.reworded text))

theorem chosenItems_reworded (c : List (Option Item)) :
    chosenItems (rewordedChoice text c) = (chosenItems c).map (reworded text) := by
  rw [chosenItems, chosenItems, rewordedChoice, List.filterMap_map, List.map_filterMap]
  rfl

theorem chosenRoles_reworded (slots : List Slot) (c : List (Option Item)) :
    chosenRoles slots (rewordedChoice text c)
      = (chosenRoles slots c).map (Prod.map id (reworded text)) := by
  rw [chosenRoles, chosenRoles, rewordedChoice, List.zip_map_right, List.filterMap_map,
    List.map_filterMap]
  congr 1
  funext ⟨slot, item⟩
  cases item <;> rfl

theorem outcome_agree (hblind : rules.Blind text) (extras : List Item) (c : List (Option Item)) :
    Agree (fun profile profile' => profile' = profile.reworded text)
      (rules.outcome family extras c)
      (rules.outcome family (extras.map (reworded text)) (rewordedChoice text c)) := by
  unfold outcome
  rw [chosenItems_reworded, chosenRoles_reworded, ← List.map_append]
  exact buildProfile_agree hblind _ _

theorem profilesOf_reworded (hblind : rules.Blind text) (extras : List Item)
    (combinations : List (List (Option Item))) :
    Enumeration.Reworded text (rules.profilesOf family extras combinations)
      (rules.profilesOf family (extras.map (reworded text))
        (combinations.map (rewordedChoice text))) := by
  induction combinations with
  | nil => exact ⟨rfl, rfl⟩
  | cons c rest ih =>
      rw [List.map_cons, profilesOf_cons, profilesOf_cons]
      have hagree : Agree (fun profile profile' => profile' = profile.reworded text)
          (rules.outcome family extras c)
          (rules.outcome family (extras.map (reworded text)) (rewordedChoice text c)) :=
        outcome_agree hblind extras c
      generalize rules.outcome family extras c = x at hagree ⊢
      generalize rules.outcome family (extras.map (reworded text)) (rewordedChoice text c) = x'
        at hagree ⊢
      cases hagree with
      | ok h =>
          subst h
          exact ⟨congrArg (_ :: ·) ih.profiles, ih.failure⟩
      | ruledOut cause cause' => exact ⟨ih.profiles, ih.failure⟩
      | failed fault =>
          cases fault with
          | resolution cause => exact ⟨ih.profiles, ih.failure⟩
          | _ => exact ⟨rfl, rfl⟩

end Rules

/-! ## Catalogs -/

/-- A catalog of the same items in other words. -/
structure Catalog.Reworded (text : Item → String) (catalog catalog' : Catalog) : Prop where
  items : catalog'.items = catalog.items.map (Item.reworded text)
  inCategory : ∀ code, catalog'.inCategory code
    = (catalog.inCategory code).map (Item.reworded text)

theorem Catalog.reworded_of_placed {listing listing' : List Item}
    (h : placed listing' = (placed listing).map (Item.reworded text)) :
    Reworded text (.ofItems listing) (.ofItems listing') := by
  have hitems : (ofItems listing').items = (ofItems listing).items.map (Item.reworded text) := by
    rw [items_ofItems, items_ofItems, h, Item.firsts_reworded]
  refine ⟨hitems, fun code => ?_⟩
  rw [inCategory_ofItems, inCategory_ofItems, hitems, List.filter_map]
  rfl

variable {catalog catalog' : Catalog} {family : Int} {rules : Rules}

namespace Slot

/-- The candidates for a slot are the same in other words. -/
def SameCandidates (text : Item → String) (catalog catalog' : Catalog) (slot : Slot) : Prop :=
  slot.candidates catalog' = (slot.candidates catalog).map (reworded text)

/-- A slot without a pattern does not look at descriptions. -/
theorem sameCandidates_of_none (h : Catalog.Reworded text catalog catalog') {slot : Slot}
    (hdescription : slot.description = none) : slot.SameCandidates text catalog catalog' := by
  unfold SameCandidates candidates
  rw [hdescription]
  cases slot.category with
  | none => exact h.items
  | some code =>
      by_cases hcode : (code == "") = true
      · simp only [if_pos hcode]
        exact h.items
      · simp only [if_neg hcode]
        exact h.inCategory code

theorem SameCandidates.isVacant {slot : Slot} (h : slot.SameCandidates text catalog catalog') :
    slot.isVacant catalog' = slot.isVacant catalog := by
  rw [Slot.isVacant, Slot.isVacant, h, List.isEmpty_map]

theorem SameCandidates.fillings {slot : Slot} (h : slot.SameCandidates text catalog catalog') :
    slot.fillings catalog' = (slot.fillings catalog).map (Option.map (reworded text)) := by
  by_cases hnone : slot.candidates catalog = []
  · have hnone' : slot.candidates catalog' = [] := by rw [h, hnone, List.map_nil]
    rw [fillings_of_nil hnone, fillings_of_nil hnone']
    rfl
  · have hsome : slot.candidates catalog' ≠ [] := by rwa [h, ne_eq, List.map_eq_nil_iff]
    rw [fillings_of_ne_nil hnone, fillings_of_ne_nil hsome, h, List.map_map, List.map_map]
    rfl

end Slot

namespace Rules

theorem choices_reworded {slots : List Slot}
    (h : ∀ slot ∈ slots, slot.SameCandidates text catalog catalog') :
    choices catalog' slots = (choices catalog slots).map (List.map (rewordedChoice text)) := by
  induction slots with
  | nil => rfl
  | cons slot rest ih =>
      obtain ⟨hslot, hrest⟩ := List.forall_mem_cons.mp h
      rw [choices, choices, Slot.slotChoices?_eq, Slot.slotChoices?_eq, hslot.isVacant,
        hslot.fillings, ih hrest]
      cases slot.isVacant catalog with
      | true => rfl
      | false => cases choices catalog rest <;> rfl

theorem findConfigured_reworded (idText : String) (pool : List Item) :
    findConfigured family idText (pool.map (reworded text))
      = (findConfigured family idText pool).map (Option.map (reworded text)) := by
  have hprice (n : Int) : (fun item : Item => item.hasPrice n) ∘ reworded text
      = fun item => item.hasPrice n := rfl
  have hid (n : Int) : (fun item : Item => item.id == n) ∘ reworded text
      = fun item => item.id == n := rfl
  unfold findConfigured
  cases Text.readInteger? idText with
  | none => rfl
  | some n =>
      simp only [List.find?_map, hprice, hid]
      cases pool.find? (·.hasPrice n) <;> rfl

theorem controllerItems_reworded (h : Catalog.Reworded text catalog catalog') :
    rules.controllerItems family catalog'
      = (rules.controllerItems family catalog).map (List.map (reworded text)) := by
  unfold controllerItems
  cases rules.controllerCategory with
  | none => rfl
  | some code =>
      cases rules.controllerId with
      | none => rfl
      | some idText =>
          by_cases hnone : (idText == "") = true
          · simp only [if_pos hnone]
            rfl
          · simp only [if_neg hnone, h.inCategory, findConfigured_reworded]
            cases findConfigured family idText (catalog.inCategory code) with
            | error fault => rfl
            | ok found => cases found <;> rfl

theorem extras_reworded (h : Catalog.Reworded text catalog catalog')
    (hnone : rules.extraDiskIds = []) :
    rules.extras family catalog' = (rules.extras family catalog).map (List.map (reworded text)) := by
  have hdisks (c : Catalog) : rules.extraDiskItems family c = .ok [] := by
    rw [extraDiskItems, hnone]
    rfl
  unfold extras
  rw [hdisks, hdisks, controllerItems_reworded h]
  cases rules.controllerItems family catalog <;> rfl

/-- Where the slots, the processor rule and the volumes take no notice of the wording, nor do the
profiles. -/
theorem enumerate_reworded (hblind : rules.Blind text) (h : Catalog.Reworded text catalog catalog')
    (hslots : ∀ slot ∈ rules.slots, slot.SameCandidates text catalog catalog')
    (hnone : rules.extraDiskIds = []) :
    Enumeration.Reworded text (rules.enumerate family catalog)
      (rules.enumerate family catalog') := by
  unfold enumerate
  rw [choices_reworded hslots, extras_reworded h hnone]
  cases choices catalog rules.slots with
  | error slot => exact ⟨rfl, rfl⟩
  | ok lists =>
      cases rules.extras family catalog with
      | error fault => exact ⟨rfl, rfl⟩
      | ok extras =>
          have hproduct : product (lists.map (rewordedChoice text))
              = (product lists).map (rewordedChoice text) :=
            product_map (Option.map (reworded text)) lists
          have hprofiles : Enumeration.Reworded text
              (rules.profilesOf family extras (product lists)) _ :=
            profilesOf_reworded hblind extras (product lists)
          rw [← hproduct] at hprofiles
          exact hprofiles

end Rules

end Provision
