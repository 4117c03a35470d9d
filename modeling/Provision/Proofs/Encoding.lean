import Provision.Order
import Provision.Proofs.Combinations

/-!
# Hardware ids read back

A hardware id passes through a text on its way to an order: candidates are
joined with semicolons, the prices of a candidate with commas, and both are
split again elsewhere. Nothing is lost on the way. Splitting drops empty
pieces, but none was written (`filter_splitOn_joinWith`), and the prices of a
candidate are read off as they were assigned (`readIds_candidateOf`); so an
order holds them one by one, in item order (`hardware_ids_lossless`).
-/

namespace Provision

namespace Text

/-- Pieces that are all worth keeping are found again, as long as an empty piece is not. -/
theorem filter_splitOn_joinWith {sep : Char} {pieces : List String} {worth : String → Bool}
    (hempty : worth "" = false) (h : ∀ piece ∈ pieces, sep ∉ piece.toList ∧ worth piece = true) :
    (splitOn sep (joinWith sep pieces)).filter worth = pieces := by
  cases pieces with
  | nil =>
      have hnone : splitOn sep (joinWith sep []) = [""] := rfl
      rw [hnone, List.filter_cons_of_neg (Bool.eq_false_iff.mp hempty), List.filter_nil]
  | cons piece rest =>
      rw [splitOn_joinWith (List.cons_ne_nil piece rest) fun p hp => (h p hp).1]
      exact List.filter_eq_self.mpr fun p hp => (h p hp).2

theorem mem_joinChars {sep c : Char} {pieces : List (List Char)} (h : c ∈ joinChars sep pieces) :
    c = sep ∨ ∃ piece ∈ pieces, c ∈ piece := by
  induction pieces with
  | nil => cases h
  | cons piece rest ih =>
      by_cases hrest : rest = []
      · subst hrest
        exact Or.inr ⟨piece, List.mem_singleton_self piece, h⟩
      · rw [joinChars_cons hrest, List.mem_append, List.mem_cons] at h
        rcases h with h | rfl | h
        · exact Or.inr ⟨piece, List.mem_cons_self .., h⟩
        · exact Or.inl rfl
        · rcases ih h with hsep | ⟨p, hp, hc⟩
          · exact Or.inl hsep
          · exact Or.inr ⟨p, List.mem_cons_of_mem _ hp, hc⟩

/-- Trimming leaves a written integer as it is, and it is not empty. -/
theorem trim_writeInteger (n : Int) : trim (writeInteger n) = writeInteger n := by
  rw [trim, trimBy_of_forall fun c hc => isBlank_eq_false (mem_writeInteger hc), String.ofList_toList]

theorem writeInteger_ne_empty (n : Int) : writeInteger n ≠ "" := by
  intro h
  have hread := readInteger?_writeInteger n
  rw [h] at hread
  revert hread
  exact nofun

end Text

namespace Price

/-! ## One candidate -/

/-- Joined ids are read back, also if there are none. -/
theorem readIds_writeIds (ids : List Int) : readIds (writeIds ids) = .ok ids := by
  have hpieces : (Text.splitOn ',' (writeIds ids)).filter (fun piece => Text.trim piece != "")
      = ids.map Text.writeInteger := by
    refine Text.filter_splitOn_joinWith rfl fun piece hpiece => ?_
    obtain ⟨n, -, rfl⟩ := List.mem_map.mp hpiece
    refine ⟨Text.comma_not_mem_writeInteger n, ?_⟩
    rw [Text.trim_writeInteger, bne_iff_ne]
    exact Text.writeInteger_ne_empty n
  rw [readIds, hpieces]
  clear hpieces
  induction ids with
  | nil => rfl
  | cons n rest ih =>
      rw [List.map_cons, List.mapM_cons, ih]
      simp only [Text.readInteger?_writeInteger]
      rfl

theorem candidateOf_eq (items : List Item) (f : Int → Int) :
    candidateOf items f = writeIds (items.map fun item => f item.id) := by
  rw [candidateOf, writeIds, Text.joinWith_eq_intercalate, List.map_map]
  rfl

/-- A candidate gives the prices of its assignment, one per item. -/
theorem readIds_candidateOf (items : List Item) (f : Int → Int) :
    readIds (candidateOf items f) = .ok (items.map fun item => f item.id) := by
  rw [candidateOf_eq, readIds_writeIds]

theorem semicolon_not_mem_candidateOf (items : List Item) (f : Int → Int) :
    ';' ∉ (candidateOf items f).toList := by
  rw [candidateOf_eq, writeIds, Text.joinWith, String.toList_ofList]
  intro h
  rcases Text.mem_joinChars h with hcomma | ⟨_, hpiece, hmem⟩
  · exact absurd hcomma (by decide)
  · simp only [List.mem_map] at hpiece
    obtain ⟨_, ⟨_, ⟨item, -, rfl⟩, rfl⟩, rfl⟩ := hpiece
    exact absurd (Text.mem_writeInteger hmem) (by decide)

theorem candidateOf_ne_empty {items : List Item} (hne : items ≠ []) (f : Int → Int) :
    candidateOf items f ≠ "" := by
  intro h
  have hread := readIds_candidateOf items f
  rw [h] at hread
  have hnone : items.map (fun item => f item.id) = [] := Except.ok.inj (hread.symm.trans rfl)
  exact hne (List.map_eq_nil_iff.mp hnone)

/-! ## All candidates -/

theorem pricesOf_ne_nil_of_ok {items : List Item} {texts : List String}
    (hok : combinations items = .ok texts) : ∀ item ∈ items, pricesOf items item.id ≠ [] := by
  intro item hitem hnone
  obtain ⟨cause, herror⟩ := combinations_eq_error_iff.mpr ⟨item, hitem, hnone⟩
  rw [hok] at herror
  cases herror

/-- What the search finds are the candidates of the assignments. -/
theorem mem_iff_assigned {items : List Item} (hne : items ≠ []) {texts : List String}
    (hok : combinations items = .ok texts) {text : String} :
    text ∈ texts ↔ ∃ f, Assigns items f ∧ text = candidateOf items f := by
  rw [combinations_eq hne (pricesOf_ne_nil_of_ok hok)] at hok
  rw [← Except.ok.inj hok]
  exact mem_candidates

theorem split_allCombinations {items : List Item} (hne : items ≠ []) {texts : List String}
    (hok : combinations items = .ok texts) :
    ∃ id, allCombinations items = .ok id ∧ split id = texts := by
  refine ⟨Text.joinWith ';' texts, by rw [allCombinations, hok]; rfl, ?_⟩
  refine Text.filter_splitOn_joinWith rfl fun text htext => ?_
  obtain ⟨f, -, rfl⟩ := (mem_iff_assigned hne hok).mp htext
  exact ⟨semicolon_not_mem_candidateOf items f, bne_iff_ne.mpr (candidateOf_ne_empty hne f)⟩

/-- Different candidates have different prices. -/
theorem eq_of_readIds_eq {items : List Item} (hne : items ≠ []) {texts : List String}
    (hok : combinations items = .ok texts) {s t : String} (hs : s ∈ texts) (ht : t ∈ texts)
    (h : readIds s = readIds t) : s = t := by
  obtain ⟨f, -, rfl⟩ := (mem_iff_assigned hne hok).mp hs
  obtain ⟨g, -, rfl⟩ := (mem_iff_assigned hne hok).mp ht
  rw [readIds_candidateOf, readIds_candidateOf] at h
  rw [candidateOf_eq, candidateOf_eq, Except.ok.inj h]

end Price

/-! ## Orders -/

/-- The first item with an id in a catalog, if there is a catalog, has this first price. -/
def Sells (catalog : Option Catalog) (id price : Int) : Prop :=
  ∃ known item, catalog = some known ∧ known.withId? id = some item ∧
    item.prices.head? = some price

theorem OrderDefaults.itemPrice_ok {defaults : OrderDefaults} {catalog : Catalog} {id price : Int}
    (h : defaults.itemPrice catalog id = .ok price) : Sells (some catalog) id price := by
  unfold OrderDefaults.itemPrice at h
  cases hfound : catalog.withId? id with
  | none =>
      rw [hfound] at h
      cases h
  | some item =>
      rw [hfound] at h
      exact ⟨catalog, item, rfl, hfound, Item.firstPrice_eq_ok_iff.mp h⟩

/-- The extras of a family are its prices, followed by the first prices of its items. -/
theorem OrderDefaults.allExtraPrices_ok {defaults : OrderDefaults} {catalog : Option Catalog}
    {prices : List Int} (h : defaults.allExtraPrices catalog = .ok prices) :
    ∃ extras, prices = defaults.extraPrices ++ extras ∧
      List.Forall₂ (Sells catalog) defaults.extraItems extras := by
  unfold OrderDefaults.allExtraPrices at h
  by_cases hnone : defaults.extraItems.isEmpty = true
  · rw [if_pos hnone] at h
    cases h
    rw [List.isEmpty_iff.mp hnone]
    exact ⟨[], (List.append_nil _).symm, .nil⟩
  · rw [if_neg hnone] at h
    cases catalog with
    | none => cases h
    | some known =>
        cases hprices : defaults.extraItems.mapM (defaults.itemPrice known) with
        | error fault =>
            simp only [hprices] at h
            cases h
        | ok extras =>
            simp only [hprices] at h
            cases h
            exact ⟨extras, rfl, forall₂_of_mapM_ok (fun _ _ => itemPrice_ok) hprices⟩

theorem Template.mem_imagePrices {template : Template} {price : Int} :
    price ∈ template.imagePrices ↔ template.imagePrice = some price
      ∧ template.imageTemplate = none ∧ template.imageTemplateGlobal.getD "" = "" := by
  unfold Template.imagePrices Template.usesImageTemplate
  cases template.imageTemplate <;> cases template.imageTemplateGlobal <;> simp [and_comm]

theorem Template.length_imagePrices (template : Template) : template.imagePrices.length ≤ 1 := by
  unfold Template.imagePrices
  cases template.usesImageTemplate <;> cases template.imagePrice <;> simp

theorem Template.order_ok {template : Template} {defaults : OrderDefaults} {combination : String}
    {catalog : Option Catalog} {order : Order}
    (h : template.order defaults combination catalog = .ok order) :
    ∃ hardware extras, Price.readIds combination = .ok hardware
      ∧ order.prices = template.imagePrices ++ hardware ++ defaults.extraPrices ++ extras
      ∧ List.Forall₂ (Sells catalog) defaults.extraItems extras := by
  unfold Template.order at h
  cases hread : Price.readIds combination with
  | error fault =>
      rw [hread] at h
      cases h
  | ok hardware =>
      cases hextras : defaults.allExtraPrices catalog with
      | error fault =>
          rw [hread, hextras] at h
          cases h
      | ok prices =>
          rw [hread, hextras] at h
          cases h
          obtain ⟨extras, rfl, hsells⟩ := OrderDefaults.allExtraPrices_ok hextras
          exact ⟨hardware, extras, rfl, (List.append_assoc ..).symm, hsells⟩

/-! ## From the hardware id to the order -/

namespace Price

/-- **Nothing is lost between a hardware id and an order.** The hardware id of some items falls apart
into their candidates again. A candidate gives the prices of its assignment, one per item and in
item order, and different candidates give different prices. An order for it has the price of the
operating system in front, if one is set and no image template is used, then these prices, then the
extras of the family. And ids that are joined with commas are always read back, whatever they are. -/
theorem hardware_ids_lossless {items : List Item} (hne : items ≠ []) {texts : List String}
    (hok : combinations items = .ok texts) :
    (∃ id, allCombinations items = .ok id ∧ split id = texts)
      ∧ (∀ f, Assigns items f → candidateOf items f ∈ texts
          ∧ readIds (candidateOf items f) = .ok (items.map fun item => f item.id))
      ∧ (∀ s ∈ texts, ∀ t ∈ texts, s ≠ t → readIds s ≠ readIds t)
      ∧ (∀ f, Assigns items f → ∀ (template : Template) (defaults : OrderDefaults)
          (catalog : Option Catalog) (order : Order),
          template.order defaults (candidateOf items f) catalog = .ok order →
          ∃ system extras,
            order.prices
                = system ++ (items.map fun item => f item.id) ++ defaults.extraPrices ++ extras
              ∧ (∀ price, price ∈ system ↔ template.imagePrice = some price
                  ∧ template.imageTemplate = none ∧ template.imageTemplateGlobal.getD "" = "")
              ∧ system.length ≤ 1
              ∧ List.Forall₂ (Sells catalog) defaults.extraItems extras)
      ∧ (∀ ids : List Int, readIds (",".intercalate (ids.map toString)) = .ok ids)
      ∧ ∀ text ids, readIds text = .ok ids →
          readIds (",".intercalate (ids.map toString)) = readIds text := by
  have hwritten : ∀ ids : List Int, readIds (",".intercalate (ids.map toString)) = .ok ids := by
    intro ids
    have hjoined := readIds_writeIds ids
    rwa [writeIds, Text.joinWith_eq_intercalate] at hjoined
  refine ⟨split_allCombinations hne hok, fun f hf => ⟨?_, readIds_candidateOf items f⟩,
    fun s hs t ht hst h => hst (eq_of_readIds_eq hne hok hs ht h), ?_, hwritten, ?_⟩
  · exact (mem_iff_assigned hne hok).mpr ⟨f, hf, rfl⟩
  · intro f _ template defaults catalog order horder
    obtain ⟨hardware, extras, hread, hprices, hsells⟩ := Template.order_ok horder
    obtain rfl := Except.ok.inj ((readIds_candidateOf items f).symm.trans hread)
    exact ⟨template.imagePrices, extras, hprices, fun _ => Template.mem_imagePrices,
      template.length_imagePrices, hsells⟩
  · intro text ids hread
    rw [hwritten, hread]

/-- An item that occurs twice, prices that are negative, huge or equal to the id of another item. -/
theorem hardware_ids_lossless_colliding :
    let items : List Item :=
      [{ id := 11, prices := [12, -5] }, { id := 12, prices := [10 ^ 30, 11] },
        { id := 11, prices := [9] }]
    items ≠ [] ∧ ∃ texts id, combinations items = .ok texts ∧ texts.length = 4
      ∧ allCombinations items = .ok id ∧ split id = texts
      ∧ readIds "-5,1000000000000000000000000000000,-5" = .ok [-5, 10 ^ 30, -5] := by
  intro items
  have hne : items ≠ [] := by simp [items]
  have hok : combinations items = .ok (candidates items) :=
    combinations_eq hne (by unfold items; decide)
  obtain ⟨⟨id, hid, hsplit⟩, hread, -⟩ := hardware_ids_lossless hne hok
  refine ⟨hne, _, id, hok, (length_candidates items).trans (by decide), hid, hsplit, ?_⟩
  have hassigns : Assigns items fun id => if id = 11 then -5 else 10 ^ 30 := by
    unfold Assigns items
    decide
  have htext : candidateOf items (fun id => if id = 11 then -5 else 10 ^ 30)
      = "-5,1000000000000000000000000000000,-5" := by decide +kernel
  rw [← htext]
  exact (hread _ hassigns).2

end Price

end Provision
