import Provision.Proofs.Gates
import Provision.Proofs.Index
import Provision.Proofs.Legibility

/-!
# Inherited categories

An item that is listed without category codes takes those of its prices. Its own
codes are kept as they come and those of prices are merged, but blank codes count
in neither place (`itemCodes_eq`). So under which codes an item is found can be
told from the listing (`inCategory_listing`).
-/

namespace Provision

/-! ## Codes of buckets -/

namespace Bucket

theorem code_of_mem_add {code : String} {item : Item} {b : Bucket} {buckets : List Bucket}
    (h : b ∈ add code item buckets) : b.code = code ∨ ∃ old ∈ buckets, old.code = b.code := by
  induction buckets with
  | nil =>
      obtain rfl := List.mem_singleton.mp h
      exact Or.inl rfl
  | cons first rest ih =>
      rw [add] at h
      split_ifs at h with hcode
      · rcases List.mem_cons.mp h with rfl | hrest
        · exact Or.inl (beq_iff_eq.mp hcode)
        · exact Or.inr ⟨b, List.mem_cons_of_mem _ hrest, rfl⟩
      · rcases List.mem_cons.mp h with rfl | hrest
        · exact Or.inr ⟨b, List.mem_cons_self, rfl⟩
        · rcases ih hrest with hcode | ⟨old, hold, hsame⟩
          · exact Or.inl hcode
          · exact Or.inr ⟨old, List.mem_cons_of_mem _ hold, hsame⟩

end Bucket

namespace Catalog

/-- A bucket is there for the code of some item. -/
theorem exists_item_of_mem_buckets {listing : List Item} {b : Bucket}
    (h : b ∈ (ofItems listing).buckets) :
    ∃ item ∈ (ofItems listing).items, b.code ∈ item.categories := by
  have hadd (item : Item) (codes : List String) (buckets : List Bucket)
      (hb : ∃ old ∈ codes.foldl (fun bs code => Bucket.add code item bs) buckets,
        old.code = b.code) :
      b.code ∈ codes ∨ ∃ old ∈ buckets, old.code = b.code := by
    induction codes generalizing buckets with
    | nil => exact Or.inr hb
    | cons code rest ih =>
        rcases ih _ hb with hrest | ⟨old, hold, hsame⟩
        · exact Or.inl (List.mem_cons_of_mem _ hrest)
        · rw [← hsame]
          exact (Bucket.code_of_mem_add hold).imp_left fun hcode => by simp [hcode]
  have hfile (items : List Item) (buckets : List Bucket)
      (hb : ∃ old ∈ items.foldl file buckets, old.code = b.code) :
      (∃ item ∈ items, b.code ∈ item.categories) ∨ ∃ old ∈ buckets, old.code = b.code := by
    induction items generalizing buckets with
    | nil => exact Or.inr hb
    | cons item rest ih =>
        rcases ih _ hb with ⟨other, hother, hcode⟩ | hfiled
        · exact Or.inl ⟨other, List.mem_cons_of_mem _ hother, hcode⟩
        · exact (hadd item _ _ hfiled).imp_left fun hcode =>
            ⟨item, List.mem_cons_self, mem_distinct.mp hcode⟩
  exact (hfile _ [] ⟨b, h, rfl⟩).resolve_right nofun

theorem map_id_placed (listing : List Item) : (placed listing).map Item.id = listing.map Item.id :=
  List.ext_getElem (by simp [placed]) fun i hi hi' => by simp [placed]

/-- Of items with ids of their own all are indexed. -/
theorem items_ofItems_of_nodup {listing : List Item} (h : (listing.map Item.id).Nodup) :
    (ofItems listing).items = placed listing := by
  have hall : (Item.firsts (placed listing)).map Item.id = (placed listing).map Item.id := by
    rw [Item.map_id_firsts, map_id_placed, distinct_of_nodup h]
  rw [items_ofItems]
  exact (Item.firsts_sublist _).eq_of_length (by simpa using congrArg List.length hall)

end Catalog

namespace Rest

variable {P : Fields → Prop} {Q R : Value → Prop} {v : Value} {fields : Fields}

/-! ## What is listed -/

/-- The entries of a list. Nothing else has any. -/
def entriesOf : Value → List Value
  | .list entries => entries
  | _ => []

/-- What an object lists under a key. -/
def listed (key : String) : Value → List Value
  | .object fields => entriesOf (entry key fields)
  | _ => []

/-- The code of a category. -/
def codeOf? : Value → Option String
  | .object fields =>
    match entry "categoryCode" fields with
    | .text code => some code
    | _ => none
  | _ => none

/-- The codes that an item or a price is listed with, blank ones and repetitions included. -/
def codesOf (v : Value) : List String := (listed "categories" v).filterMap codeOf?

theorem OrEmpty.imp (h : ∀ x, Q x → R x) (hv : OrEmpty (Each Q) v) : OrEmpty (Each R) v := by
  intro htruthy
  obtain ⟨entries, rfl, hentries⟩ := hv htruthy
  exact ⟨entries, rfl, fun x hx => h x (hentries x hx)⟩

theorem parts_of_orEmpty (h : OrEmpty (Each Q) v) :
    parts v = .ok (entriesOf v) ∧ ∀ x ∈ entriesOf v, Q x := by
  cases htruthy : v.truthy with
  | true =>
      obtain ⟨entries, rfl, hentries⟩ := h htruthy
      exact ⟨by simp [parts, htruthy, entriesOf], hentries⟩
  | false =>
      have hnone : entriesOf v = [] := by
        cases v with
        | list entries => simpa [Value.truthy, entriesOf] using htruthy
        | _ => rfl
      simp [parts, htruthy, hnone]

theorem orEmpty_list {entries : List Value} :
    OrEmpty (Each Q) (.list entries) ↔ ∀ x ∈ entries, Q x := by
  constructor
  · exact fun h => (parts_of_orEmpty h).2
  · exact fun h _ => ⟨entries, rfl, h⟩

/-- A category whose code is a text, if it has one. -/
def Coded : Value → Prop :=
  Object fun category => OrEmpty (fun code => ∃ s, code = .text s) (entry "categoryCode" category)

/-- A price with an integer for an id. -/
def Priced : Value → Prop :=
  Object fun price => (∃ n, Value.lookup? "id" price = some (.int n))
    ∧ OrEmpty (Each Coded) (entry "categories" price)

/-- An item whose description is a text, if it has one. -/
def Described : Value → Prop :=
  Object fun item => OrEmpty (fun text => ∃ s, text = .text s) (entry "description" item)

/-- An item with a given id and with prices that have ids. -/
structure ListedAs (id : Int) (fields : Fields) : Prop where
  id : Value.lookup? "id" fields = some (.int id)
  categories : OrEmpty (Each Coded) (entry "categories" fields)
  prices : OrEmpty (Each Priced) (entry "prices" fields)

/-! ## Codes -/

/-- The code of a category, unless it is blank. -/
def soundCode? (category : Value) : Option String := (codeOf? category).filter (· != "")

/-- The codes that an item or a price carries, without blank ones. -/
def soundCodes (v : Value) : List String := (listed "categories" v).filterMap soundCode?

theorem mem_soundCodes {code : String} : code ∈ soundCodes v ↔ code ≠ "" ∧ code ∈ codesOf v := by
  simp only [soundCodes, soundCode?, codesOf, List.mem_filterMap, Option.filter_eq_some_iff]
  constructor
  · rintro ⟨category, hcategory, hcode, hsome⟩
    exact ⟨by simpa using hsome, category, hcategory, hcode⟩
  · rintro ⟨hsome, category, hcategory, hcode⟩
    exact ⟨category, hcategory, hcode, by simpa using hsome⟩

/-- What is read as the code of a category is empty or the text of its code. -/
theorem code_of_coded {category : Value} (h : Coded category) : ∃ code,
    field "categoryCode" category = .ok code
      ∧ (code.truthy = false ∧ soundCode? category = none
        ∨ ∃ s, code = .text s ∧ code.truthy = true ∧ soundCode? category = some s) := by
  obtain ⟨fields, rfl, hcode⟩ := h
  refine ⟨_, field_object, ?_⟩
  cases htruthy : (entry "categoryCode" fields).truthy with
  | true =>
      obtain ⟨s, hs⟩ := hcode htruthy
      have hsome : s ≠ "" := by simpa [hs, Value.truthy] using htruthy
      exact Or.inr ⟨s, hs, rfl, by simp [soundCode?, codeOf?, hs, hsome]⟩
  | false =>
      refine Or.inl ⟨rfl, ?_⟩
      cases hcode : entry "categoryCode" fields with
      | text s => simpa [soundCode?, codeOf?, hcode, Value.truthy] using htruthy
      | _ => simp [soundCode?, codeOf?, hcode]

theorem ownCodes_eq {categories : List Value} (h : ∀ category ∈ categories, Coded category) :
    ownCodes categories = .ok ((categories.filterMap soundCode?).map Value.text) := by
  have hread : ∃ codes, categories.mapM (field "categoryCode") = .ok codes
      ∧ codes.filter Value.truthy = (categories.filterMap soundCode?).map Value.text := by
    induction categories with
    | nil => exact ⟨[], rfl, rfl⟩
    | cons category rest ih =>
        obtain ⟨hcategory, hrest⟩ := List.forall_mem_cons.mp h
        obtain ⟨codes, hcodes, hsound⟩ := ih hrest
        obtain ⟨code, hcode, hcases⟩ := code_of_coded hcategory
        refine ⟨code :: codes, by rw [List.mapM_cons, hcode, hcodes]; rfl, ?_⟩
        rcases hcases with ⟨hempty, hnone⟩ | ⟨s, rfl, htruthy, hsome⟩
        · rw [List.filter_cons_of_neg (by simp [hempty]), List.filterMap_cons_none hnone, hsound]
        · rw [List.filter_cons_of_pos htruthy, List.filterMap_cons_some hsome, hsound,
            List.map_cons]
  obtain ⟨codes, hcodes, hsound⟩ := hread
  rw [ownCodes, hcodes, ← hsound]
  rfl

theorem any_same_text (s : String) (found : List String) :
    (found.map Value.text).any (·.same (.text s)) = found.contains s := by
  rw [Bool.eq_iff_iff, List.any_eq_true, List.contains_iff_mem]
  simp [Value.same_text_iff]

/-- A price adds the codes that are not among those found so far. -/
theorem priceCodes_eq {price : Value} (h : Priced price) (found : List String) :
    priceCodes (found.map Value.text) price
      = .ok (((soundCodes price).foldl (fun found code => keep code found) found).map
        Value.text) := by
  obtain ⟨fields, rfl, -, hcategories⟩ := h
  obtain ⟨hparts, hcoded⟩ := parts_of_orEmpty hcategories
  simp only [priceCodes, fieldParts, field_object, ok_bind, hparts, soundCodes, listed]
  generalize entriesOf (entry "categories" fields) = categories at hcoded
  induction categories generalizing found with
  | nil => rfl
  | cons category rest ih =>
      obtain ⟨hcategory, hrest⟩ := List.forall_mem_cons.mp hcoded
      obtain ⟨code, hcode, hcases⟩ := code_of_coded hcategory
      rw [List.foldlM_cons, hcode]
      rcases hcases with ⟨hempty, hnone⟩ | ⟨s, rfl, htruthy, hsome⟩
      · rw [List.filterMap_cons_none hnone]
        simpa [hempty] using ih found hrest
      · rw [List.filterMap_cons_some hsome, List.foldl_cons, ← ih _ hrest]
        simp only [ok_bind, htruthy, any_same_text, keep]
        cases found.contains s <;> simp

theorem foldlM_priceCodes {prices : List Value} (h : ∀ price ∈ prices, Priced price)
    (found : List String) :
    prices.foldlM priceCodes (found.map Value.text)
      = .ok (((prices.flatMap soundCodes).foldl (fun found code => keep code found) found).map
        Value.text) := by
  induction prices generalizing found with
  | nil => rfl
  | cons price rest ih =>
      obtain ⟨hprice, hrest⟩ := List.forall_mem_cons.mp h
      rw [List.foldlM_cons, priceCodes_eq hprice, ok_bind, ih hrest, List.flatMap_cons,
        List.foldl_append]

/-- The codes that an item comes to: its own, or those of its prices, each once. -/
def resolvedCodes (v : Value) : List String :=
  if (soundCodes v).isEmpty then distinct ((listed "prices" v).flatMap soundCodes) else soundCodes v

theorem mem_resolvedCodes {code : String} : code ∈ resolvedCodes v ↔
    code ≠ "" ∧ (code ∈ codesOf v
      ∨ (∀ own ∈ codesOf v, own = "") ∧ ∃ price ∈ listed "prices" v, code ∈ codesOf price) := by
  have hempty : (soundCodes v).isEmpty = true ↔ ∀ own ∈ codesOf v, own = "" := by
    rw [List.isEmpty_iff, List.eq_nil_iff_forall_not_mem]
    simp only [mem_soundCodes, not_and']
    exact forall_congr' fun own => imp_congr_right fun _ => not_not
  rw [resolvedCodes, ← hempty]
  split_ifs with hown
  · have hnone : code ≠ "" → code ∉ codesOf v := fun hsome hcode => hsome (hempty.mp hown _ hcode)
    simp only [mem_distinct, List.mem_flatMap, mem_soundCodes]
    constructor
    · rintro ⟨price, hprice, hsome, hcode⟩
      exact ⟨hsome, Or.inr ⟨hown, price, hprice, hcode⟩⟩
    · rintro ⟨hsome, hcode | ⟨-, price, hprice, hcode⟩⟩
      · exact absurd hcode (hnone hsome)
      · exact ⟨price, hprice, hsome, hcode⟩
  · rw [mem_soundCodes]
    exact and_congr_right fun _ => (or_iff_left fun h => hown h.1).symm

theorem itemCodes_eq {id : Int} (h : ListedAs id fields) :
    itemCodes (.object fields) (entry "prices" fields)
      = .ok ((resolvedCodes (.object fields)).map Value.text) := by
  obtain ⟨hparts, hcoded⟩ := parts_of_orEmpty h.categories
  obtain ⟨hprices, hpriced⟩ := parts_of_orEmpty h.prices
  simp only [itemCodes, fieldParts, field_object, ok_bind, hparts, ownCodes_eq hcoded, hprices]
  have hown : (entriesOf (entry "categories" fields)).filterMap soundCode?
      = soundCodes (.object fields) := rfl
  have hinherited := foldlM_priceCodes hpriced []
  rw [foldl_keep_nil] at hinherited
  rw [hown, List.isEmpty_map, resolvedCodes]
  split_ifs
  · exact hinherited
  · rfl

/-! ## Items -/

/-- Whether an item is the one that was reported, whatever it is described as. -/
structure ReportedItem.Yields (r : ReportedItem) (item : Item) : Prop where
  id : item.id = r.id
  capacity : item.capacity = r.capacity
  units : item.units = r.units
  categories : item.categories.map Value.text = r.categories
  prices : item.prices = r.prices

theorem ReportedItem.exists_yields_of_texts {r : ReportedItem} {codes : List String}
    (h : r.categories = codes.map Value.text) : ∃ item, r.Yields item :=
  ⟨{ id := r.id, capacity := r.capacity, units := r.units, categories := codes
     prices := r.prices }, rfl, rfl, rfl, h.symm, rfl⟩

theorem textOf_eq_ok {s : String} : textOf v = .ok s ↔ v = .text s := by
  constructor
  · intro h
    cases v with
    | text t => exact congrArg Value.text (Except.ok.inj h)
    | _ => cases h
  · rintro rfl
    rfl

theorem succeeds_textOf : Succeeds (textOf v) ↔ ∃ s, v = .text s :=
  exists_congr fun _ => textOf_eq_ok

theorem ReportedItem.yields_of_item {r : ReportedItem} {item : Item} (h : r.item = .ok item) :
    r.Yields item := by
  obtain ⟨description, -, h⟩ := ok_of_bind h
  obtain ⟨categories, hcategories, h⟩ := ok_of_bind h
  cases h
  refine ⟨rfl, rfl, rfl, ?_, rfl⟩
  have htexts : List.Forall₂ (fun v s => v = Value.text s) r.categories categories :=
    forall₂_of_mapM_ok (fun _ _ => textOf_eq_ok.mp) hcategories
  exact (List.forall₂_eq_eq_eq ▸ List.forall₂_map_right_iff.mpr htexts).symm

theorem ReportedItem.succeeds_item {r : ReportedItem} : Succeeds r.item ↔
    (∃ s, r.description = .text s) ∧ ∀ code ∈ r.categories, ∃ s, code = .text s := by
  refine succeeds_then succeeds_textOf fun _ => succeeds_then_pure.trans ?_
  simp only [succeeds_mapM, succeeds_textOf]

/-- Something that has a given id. -/
def HasId (id : Int) : Value → Prop :=
  Object fun fields => Value.lookup? "id" fields = some (.int id)

theorem hasId_of_priceId {price : Value} {n : Int} (h : Priced price)
    (hread : priceId price = .ok n) : HasId n price := by
  obtain ⟨fields, rfl, ⟨m, hm⟩, -⟩ := h
  have hid : priceId (.object fields) = .ok m := by simp [priceId, required, hm, toInteger]
  cases hid.symm.trans hread
  exact ⟨fields, rfl, hm⟩

/-- An item that is made of what is listed: its codes are resolved, and its prices are those that
are listed. -/
structure ItemOf (v : Value) (item : Item) : Prop where
  categories : item.categories = resolvedCodes v
  prices : List.Forall₂ HasId item.prices (listed "prices" v)

theorem readItem_ok {n : Int} {r : ReportedItem} (h : Object (ListedAs n) v)
    (hread : readItem v = .ok r) :
    r.id = n ∧ ((∃ s, r.description = .text s) ↔ Described v)
      ∧ r.categories = (resolvedCodes v).map Value.text
      ∧ List.Forall₂ HasId r.prices (listed "prices" v) := by
  obtain ⟨fields, rfl, h⟩ := h
  obtain ⟨hparts, hpriced⟩ := parts_of_orEmpty h.prices
  have hid : (required "id" (.object fields) >>= toInteger) = .ok n := by
    simp [required, h.id, toInteger]
  simp only [readItem, field_object, ok_bind, itemCodes_eq h, hparts] at hread
  rw [← bind_assoc, hid, ok_bind] at hread
  obtain ⟨capacity, -, hread⟩ := ok_of_bind hread
  obtain ⟨prices, hprices, hread⟩ := ok_of_bind hread
  cases hread
  refine ⟨rfl, ?_, rfl, ?_⟩
  · rw [Described, object_object, OrEmpty]
    cases htruthy : (entry "description" fields).truthy <;> simp
  have hids : List.Forall₂ (fun price id => priceId price = .ok id)
      (entriesOf (entry "prices" fields)) prices := forall₂_of_mapM_ok (fun _ _ => id) hprices
  refine List.Forall₂.flip (List.Forall₂.imp (fun price id hprice => ?_)
    ((List.forall₂_and_left ..).mpr ⟨hpriced, hids⟩))
  exact hasId_of_priceId hprice.1 hprice.2

/-- What is read of a listed item is an item just if its description is a text. -/
theorem succeeds_item_iff {n : Int} {r : ReportedItem} (h : Object (ListedAs n) v)
    (hread : readItem v = .ok r) : Succeeds r.item ↔ Described v := by
  obtain ⟨-, hdescription, hcategories, -⟩ := readItem_ok h hread
  have hcodes : ∀ code ∈ r.categories, ∃ s, code = .text s := by
    rw [hcategories]
    simp
  rw [ReportedItem.succeeds_item, and_iff_left hcodes, hdescription]

theorem succeeds_listed {n : Int} (h : Object (ListedAs n) v) :
    Succeeds (readItem v) ↔ Object (fun fields => Measured (entry "capacity" fields)) v := by
  obtain ⟨fields, rfl, h⟩ := h
  rw [succeeds_readItem, object_object, object_object]
  refine ⟨ItemFields.capacity, fun hcapacity => ?_⟩
  exact {
    categories := h.categories.imp fun _ => Object.isObject
    codes := fun _ => h.prices.imp fun price ⟨fields, hprice, hfields⟩ =>
      ⟨fields, hprice, hfields.2.imp fun _ => Object.isObject⟩
    id := ⟨_, h.id, trivial⟩
    capacity := hcapacity
    prices := h.prices.imp fun price ⟨fields, hprice, ⟨n, hn⟩, _⟩ =>
      ⟨fields, hprice, _, hn, trivial⟩ }

/-! ## Listings -/

section Listing

variable {ids : List Int} {listing : List Value} {reported : List ReportedItem} {items : List Item}

theorem exists_yields (hlisting : List.Forall₂ (fun id => Object (ListedAs id)) ids listing)
    (hread : List.Forall₂ (fun v r => readItem v = .ok r) listing reported) :
    ∃ items, List.Forall₂ ReportedItem.Yields reported items := by
  induction hlisting generalizing reported with
  | nil =>
      cases hread
      exact ⟨[], .nil⟩
  | cons hv _ ih =>
      obtain _ | ⟨hr, hread⟩ := hread
      obtain ⟨item, hitem⟩ := ReportedItem.exists_yields_of_texts (readItem_ok hv hr).2.2.1
      obtain ⟨items, hitems⟩ := ih hread
      exact ⟨item :: items, .cons hitem hitems⟩

theorem accept_items_eq {family : Int} :
    accept (.listCatalogItems family) reported = .ok (some items)
      ↔ reported.mapM ReportedItem.item = .ok items := by
  rw [accept]
  cases reported.mapM ReportedItem.item <;> simp [Except.map]

/-- The items of a reply are those that were reported. -/
theorem yields_of_accept {family : Int}
    (h : accept (.listCatalogItems family) reported = .ok (some items)) :
    List.Forall₂ ReportedItem.Yields reported items :=
  forall₂_of_mapM_ok (fun _ _ => ReportedItem.yields_of_item) (accept_items_eq.mp h)

/-- The items are handed over just if each of them can be described. -/
theorem accepts_items_iff (hlisting : List.Forall₂ (fun id => Object (ListedAs id)) ids listing)
    (hread : List.Forall₂ (fun v r => readItem v = .ok r) listing reported) (family : Int) :
    (∃ items, accept (.listCatalogItems family) reported = .ok (some items))
      ↔ ∀ v ∈ listing, Described v := by
  refine (exists_congr fun _ => accept_items_eq).trans (succeeds_mapM.trans ?_)
  induction hlisting generalizing reported with
  | nil =>
      cases hread
      exact iff_of_true nofun nofun
  | cons hv _ ih =>
      obtain _ | ⟨hr, hread⟩ := hread
      rw [List.forall_mem_cons, List.forall_mem_cons]
      exact and_congr (succeeds_item_iff hv hr) (ih hread)

/-- What is made of a listing, item by item. -/
theorem forall₂_itemOf (hlisting : List.Forall₂ (fun id => Object (ListedAs id)) ids listing)
    (hread : List.Forall₂ (fun v r => readItem v = .ok r) listing reported)
    (hitems : List.Forall₂ ReportedItem.Yields reported items) :
    items.map Item.id = ids ∧ List.Forall₂ ItemOf listing items := by
  induction hlisting generalizing reported items with
  | nil =>
      cases hread
      cases hitems
      exact ⟨rfl, .nil⟩
  | cons hv _ ih =>
      obtain _ | ⟨hr, hread⟩ := hread
      obtain _ | ⟨hitem, hitems⟩ := hitems
      obtain ⟨hid, -, hcategories, hprices⟩ := readItem_ok hv hr
      obtain ⟨hrest, hof⟩ := ih hread hitems
      refine ⟨by rw [List.map_cons, hitem.id, hid, hrest], .cons ⟨?_, ?_⟩ hof⟩
      · exact List.map_injective_iff.mpr (fun _ _ => Value.text.inj)
          (hitem.categories.trans hcategories)
      · rw [hitem.prices]
        exact hprices

theorem forall₂_itemOf_placed (h : List.Forall₂ ItemOf listing items) :
    List.Forall₂ ItemOf listing (Catalog.placed items) := by
  rw [List.forall₂_iff_get] at h ⊢
  refine ⟨by simpa [Catalog.placed] using h.1, fun i hv hi => ?_⟩
  have hi' : i < items.length := by simpa [Catalog.placed] using hi
  obtain ⟨hcategories, hprices⟩ := h.2 i hv hi'
  exact ⟨by simpa [Catalog.placed] using hcategories, by simpa [Catalog.placed] using hprices⟩

/-- **Categories are inherited.** Of a listing of items that have ids of their own and prices with
ids, every item can be read just if its capacity can. Then all of them are indexed, each once,
whatever they are described as, and they are handed over just if the descriptions are texts. An item
is found under every code of its own, or where it has none, under the codes of its prices; the blank
code is none. Its prices are those that are listed, in their order. -/
theorem inCategory_listing (hids : ids.Nodup)
    (hlisting : List.Forall₂ (fun id => Object (ListedAs id)) ids listing) :
    (Succeeds (readItems (.list listing))
      ↔ ∀ v ∈ listing, Object (fun fields => Measured (entry "capacity" fields)) v)
    ∧ ∀ reported, readItems (.list listing) = .ok reported →
      (∃ items, List.Forall₂ ReportedItem.Yields reported items)
      ∧ (∀ family, (∃ items, accept (.listCatalogItems family) reported = .ok (some items))
        ↔ ∀ v ∈ listing, Described v)
      ∧ (∀ family items, accept (.listCatalogItems family) reported = .ok (some items) →
        List.Forall₂ ReportedItem.Yields reported items)
      ∧ ∀ items, List.Forall₂ ReportedItem.Yields reported items →
        let catalog := Catalog.ofItems items
        catalog.items.map Item.id = ids
        ∧ (∀ bucket ∈ catalog.buckets, bucket.code ≠ "")
        ∧ (∀ code, (catalog.inCategory code).Sublist catalog.items
          ∧ ((catalog.inCategory code).map Item.id).Nodup)
        ∧ List.Forall₂ (fun v item =>
            (∀ code, item ∈ catalog.inCategory code ↔ code ≠ "" ∧ (code ∈ codesOf v
              ∨ (∀ own ∈ codesOf v, own = "")
                ∧ ∃ price ∈ listed "prices" v, code ∈ codesOf price))
            ∧ List.Forall₂ HasId item.prices (listed "prices" v))
          listing catalog.items := by
  have hparts : parts (.list listing) = .ok listing := by
    cases listing <;> simp [parts, Value.truthy]
  constructor
  · rw [readItems, hparts, ok_bind, succeeds_mapM]
    refine forall₂_congr fun v hv => ?_
    obtain ⟨id, -, hid⟩ := exists_of_forall₂ hlisting hv
    exact succeeds_listed hid
  · intro reported hreported
    rw [readItems, hparts, ok_bind] at hreported
    have hread : List.Forall₂ (fun v r => readItem v = .ok r) listing reported :=
      forall₂_of_mapM_ok (fun _ _ => id) hreported
    refine ⟨exists_yields hlisting hread, accepts_items_iff hlisting hread,
      fun _ _ => yields_of_accept, fun items hitems => ?_⟩
    intro catalog
    obtain ⟨hsame, hof⟩ := forall₂_itemOf hlisting hread hitems
    have hplaced : catalog.items = Catalog.placed items :=
      Catalog.items_ofItems_of_nodup (by rwa [hsame])
    have hindexed : List.Forall₂ ItemOf listing catalog.items := by
      rw [hplaced]
      exact forall₂_itemOf_placed hof
    refine ⟨?_, ?_, ?_, ?_⟩
    · rw [hplaced, Catalog.map_id_placed, hsame]
    · intro bucket hbucket
      obtain ⟨item, hitem, hcode⟩ := Catalog.exists_item_of_mem_buckets hbucket
      obtain ⟨v, -, hv⟩ := exists_of_forall₂ hindexed hitem
      rw [hv.categories] at hcode
      exact (mem_resolvedCodes.mp hcode).1
    · intro code
      have hsublist : (catalog.inCategory code).Sublist catalog.items := by
        rw [Catalog.inCategory_ofItems]
        exact List.filter_sublist
      exact ⟨hsublist, (hsublist.map Item.id).nodup (Catalog.nodup_ids items)⟩
    · refine List.Forall₂.flip (List.Forall₂.imp (fun item v hitem => ⟨fun code => ?_, ?_⟩)
        ((List.forall₂_and_left ..).mpr ⟨fun _ => id, hindexed.flip⟩))
      · obtain ⟨hmem, hv⟩ := hitem
        rw [Catalog.inCategory_ofItems, List.mem_filter, and_iff_right hmem, Item.hasCategory,
          List.contains_iff_mem, hv.categories, mem_resolvedCodes]
      · exact hitem.2.prices

/-- Categories with given codes. -/
def tagged (codes : List String) : Value :=
  .list (codes.map fun code => .object [("categoryCode", .text code)])

theorem orEmpty_tagged (codes : List String) : OrEmpty (Each Coded) (tagged codes) := by
  refine orEmpty_list.mpr fun category hcategory => ?_
  obtain ⟨code, -, rfl⟩ := List.mem_map.mp hcategory
  exact ⟨_, rfl, fun _ => ⟨code, rfl⟩⟩

/-- An item as it is listed, by its codes and by the ids and codes of its prices. -/
def listedItem (id : Int) (codes : List String) (prices : List (Int × List String)) : Value :=
  .object [("id", .int id), ("categories", tagged codes),
    ("prices", .list (prices.map fun (id, codes) =>
      .object [("id", .int id), ("categories", tagged codes)]))]

theorem listedAs_listedItem (id : Int) (codes : List String) (prices : List (Int × List String)) :
    Object (ListedAs id) (listedItem id codes prices) := by
  refine ⟨_, rfl, rfl, orEmpty_tagged codes, orEmpty_list.mpr fun price hprice => ?_⟩
  obtain ⟨⟨id, codes⟩, -, rfl⟩ := List.mem_map.mp hprice
  exact ⟨_, rfl, ⟨id, rfl⟩, orEmpty_tagged codes⟩

/-- The first item has a code of its own, the second one only a blank one. -/
theorem inCategory_listing_two :
    let listing := [listedItem 1 ["", "ram"] [(11, ["other"])],
      listedItem 2 [""] [(21, ["disk0"]), (22, ["disk0", "disk1"])]]
    ([1, 2] : List Int).Nodup ∧ List.Forall₂ (fun id => Object (ListedAs id)) [1, 2] listing
    ∧ ∃ reported items a b, readItems (.list listing) = .ok reported
      ∧ accept (.listCatalogItems 46) reported = .ok (some items)
      ∧ List.Forall₂ ReportedItem.Yields reported items ∧ (Catalog.ofItems items).items = [a, b]
      ∧ a ∈ (Catalog.ofItems items).inCategory "ram"
      ∧ a ∉ (Catalog.ofItems items).inCategory "other"
      ∧ b ∈ (Catalog.ofItems items).inCategory "disk1" := by
  intro listing
  have hids : [(1 : Int), 2].Nodup := by decide
  have hlisting : List.Forall₂ (fun id => Object (ListedAs id)) [1, 2] listing :=
    .cons (listedAs_listedItem ..) (.cons (listedAs_listedItem ..) .nil)
  obtain ⟨hread, hlaw⟩ := inCategory_listing hids hlisting
  have hcapacity : ∀ v ∈ listing, Object (fun fields => Measured (entry "capacity" fields)) v := by
    simp [listing, listedItem, Object, entry, Value.lookup?, Value.ofOption, Measured]
  obtain ⟨reported, hreported⟩ := hread.mpr hcapacity
  have hdescribed : ∀ v ∈ listing, Described v := by
    simp [listing, listedItem, Described, Object, entry, Value.lookup?, Value.ofOption, OrEmpty,
      Value.truthy]
  obtain ⟨-, haccept, hyields, hlaw⟩ := hlaw reported hreported
  obtain ⟨items, haccepted⟩ := (haccept 46).mpr hdescribed
  have hitems := hyields 46 items haccepted
  obtain ⟨-, -, -, hfound⟩ := hlaw items hitems
  obtain ⟨a, _, ⟨ha, -⟩, hrest, hindexed⟩ := List.forall₂_cons_left_iff.mp hfound
  obtain ⟨b, _, ⟨hb, -⟩, ⟨⟩, rfl⟩ := List.forall₂_cons_left_iff.mp hrest
  refine ⟨hids, hlisting, reported, items, a, b, hreported, haccepted, hitems, hindexed, ?_, ?_,
    ?_⟩
  · exact (ha "ram").mpr ⟨by decide, Or.inl (by decide)⟩
  · exact fun h => ((ha "other").mp h).2.elim (by decide) fun h => absurd h.1 (by decide)
  · refine (hb "disk1").mpr ⟨by decide, Or.inr ⟨by decide, ?_⟩⟩
    exact ⟨_, List.mem_cons_of_mem _ List.mem_cons_self, by decide⟩

end Listing

end Rest

end Provision
