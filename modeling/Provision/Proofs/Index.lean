import Provision.Catalog.Rules
import Provision.Proofs.Distinct

/-!
# The index and the listing

An index is built from a listing item by item. Its buckets say nothing that the
items do not say themselves: the bucket of a code holds just the items that
carry it, in catalog order (`inCategory_ofItems`). Whatever an index is asked
for is therefore a part of its items, and no id occurs twice in it
(`nodup_candidates`). An item whose id was listed before leaves no trace in it:
every lookup gives what a scan of the listing gives (`lookups_scan`).
-/

namespace Provision

/-! ## Buckets -/

namespace Bucket

/-- The items in the bucket of a code. -/
def itemsOf (code : String) (buckets : List Bucket) : List Item :=
  match buckets.find? (·.code == code) with
  | some bucket => bucket.items
  | none => []

theorem itemsOf_cons (code : String) (b : Bucket) (rest : List Bucket) :
    itemsOf code (b :: rest) = if b.code = code then b.items else itemsOf code rest := by
  unfold itemsOf
  by_cases hcode : b.code = code <;> simp [hcode]

/-- Adding an item to a bucket makes no difference to the others. -/
theorem itemsOf_add (code other : String) (item : Item) (buckets : List Bucket) :
    itemsOf other (add code item buckets)
      = itemsOf other buckets ++ if code = other then [item] else [] := by
  induction buckets with
  | nil =>
      rw [add, itemsOf_cons]
      by_cases hcode : code = other <;> simp [hcode, itemsOf]
  | cons b rest ih =>
      by_cases hb : b.code = code
      · rw [add, if_pos (beq_iff_eq.mpr hb), itemsOf_cons, itemsOf_cons, hb]
        by_cases hcode : code = other <;> simp [hcode]
      · rw [add, if_neg (by simpa using hb), itemsOf_cons, itemsOf_cons, ih]
        by_cases hother : b.code = other
        · have hcode : code ≠ other := fun h => hb (hother.trans h.symm)
          simp [hother, hcode]
        · rw [if_neg hother, if_neg hother]

/-- An item that is filed under distinct codes is in the bucket of each of them, once. -/
theorem itemsOf_foldl_add (other : String) (item : Item) {codes : List String}
    (hcodes : codes.Nodup) (buckets : List Bucket) :
    itemsOf other (codes.foldl (fun bs code => add code item bs) buckets)
      = itemsOf other buckets ++ if other ∈ codes then [item] else [] := by
  induction codes generalizing buckets with
  | nil => simp
  | cons code rest ih =>
      obtain ⟨hcode, hrest⟩ := List.nodup_cons.mp hcodes
      rw [List.foldl_cons, ih hrest, itemsOf_add, List.append_assoc]
      by_cases hother : code = other
      · subst hother
        simp [hcode]
      · simp [hother, Ne.symm hother]

end Bucket

namespace Catalog

open Bucket (itemsOf)

theorem itemsOf_file (code : String) (buckets : List Bucket) (item : Item) :
    itemsOf code (file buckets item)
      = itemsOf code buckets ++ [item].filter (·.hasCategory code) := by
  rw [file, Bucket.itemsOf_foldl_add code item (nodup_distinct item.categories)]
  by_cases hcode : code ∈ item.categories <;> simp [Item.hasCategory, hcode]

theorem itemsOf_foldl_file (code : String) (items : List Item) (buckets : List Bucket) :
    itemsOf code (items.foldl file buckets)
      = itemsOf code buckets ++ items.filter (·.hasCategory code) := by
  induction items generalizing buckets with
  | nil => simp
  | cons item rest ih =>
      rw [List.foldl_cons, ih, itemsOf_file, List.append_assoc, ← List.filter_append]
      rfl

/-- The bucket of a code holds the items that carry it. -/
theorem inCategory_ofItems (listing : List Item) (code : String) :
    (ofItems listing).inCategory code
      = (ofItems listing).items.filter (·.hasCategory code) :=
  itemsOf_foldl_file code (ofItems listing).items []

/-- No id is indexed twice. -/
theorem nodup_ids (listing : List Item) : ((ofItems listing).items.map Item.id).Nodup :=
  Item.nodup_map_id_firsts (Item.numberedFrom 0 listing)

/-! ## Scanning the listing -/

/-- A listing whose items know their places in it. -/
def placed (listing : List Item) : List Item :=
  listing.mapIdx fun place item => { item with place }

theorem numberedFrom_eq_mapIdx (n : Nat) (items : List Item) :
    Item.numberedFrom n items = items.mapIdx fun i item => { item with place := n + i } := by
  induction items generalizing n with
  | nil => rfl
  | cons item rest ih =>
      rw [Item.numberedFrom, ih, List.mapIdx_cons]
      simp only [Nat.add_zero, Nat.add_assoc, Nat.add_comm 1]

theorem items_ofItems (listing : List Item) :
    (ofItems listing).items = Item.firsts (placed listing) := by
  have hplaced : Item.numberedFrom 0 listing = placed listing := by
    simp only [numberedFrom_eq_mapIdx, Nat.zero_add, placed]
  rw [← hplaced]
  rfl

theorem placed_pairwise (listing : List Item) :
    (placed listing).Pairwise fun a b => a.place < b.place := by
  rw [List.pairwise_iff_getElem]
  intro i j hi hj hij
  simpa [placed] using hij

/-- The items with a property, each once and in the order of a listing. -/
structure Scan (items : List Item) (p : Item → Prop) (found : List Item) : Prop where
  sublist : found.Sublist items
  mem_iff : ∀ item, item ∈ found ↔ item ∈ items ∧ p item
  ordered : found.Pairwise fun a b => a.place < b.place

theorem scan_filter {items : List Item} (hitems : items.Pairwise fun a b => a.place < b.place)
    {p : Item → Prop} (keeps : Item → Bool) (hp : ∀ item ∈ items, keeps item = true ↔ p item) :
    Scan items p (items.filter keeps) where
  sublist := List.filter_sublist
  mem_iff := by
    intro item
    rw [List.mem_filter]
    exact and_congr_right fun hitem => hp item hitem
  ordered := hitems.sublist List.filter_sublist

theorem scan_items (listing : List Item) :
    Scan (placed listing) (fun item => (placed listing).find? (·.id == item.id) = some item)
      (ofItems listing).items := by
  rw [items_ofItems]
  constructor
  · exact Item.firsts_sublist _
  · intro item
    rw [Item.mem_firsts_iff]
    exact ⟨fun h => ⟨List.mem_of_find?_eq_some h, h⟩, And.right⟩
  · exact (placed_pairwise listing).sublist (Item.firsts_sublist _)

theorem scan_inCategoriesWhere (listing : List Item) (accepts : String → Bool) :
    Scan (ofItems listing).items
      (fun item => ∃ code, accepts code = true ∧ item ∈ (ofItems listing).inCategory code)
      ((ofItems listing).inCategoriesWhere accepts) := by
  refine scan_filter (scan_items listing).ordered _ fun item hitem => ?_
  rw [List.any_eq_true]
  constructor
  · rintro ⟨code, hcode, haccepts⟩
    refine ⟨code, haccepts, ?_⟩
    rw [inCategory_ofItems, List.mem_filter]
    exact ⟨hitem, by simpa [Item.hasCategory] using hcode⟩
  · rintro ⟨code, haccepts, hmem⟩
    rw [inCategory_ofItems, List.mem_filter] at hmem
    exact ⟨code, by simpa [Item.hasCategory] using hmem.2, haccepts⟩

theorem withId?_ofItems (listing : List Item) (id : Int) :
    (ofItems listing).withId? id = (placed listing).find? (·.id == id) := by
  rw [withId?, items_ofItems, Item.find?_firsts]

/-- **Lookups are scans.** The index keeps the first item of every id, in the order of the listing.
By category it gives the items that carry the code; by a property of codes, the items that are found
under some code with this property; and by id, the first item of the listing with this id, if there
is one. -/
theorem lookups_scan (listing : List Item) :
    let source := placed listing
    let catalog := ofItems listing
    Scan source (fun item => source.find? (·.id == item.id) = some item) catalog.items
    ∧ (∀ code, catalog.inCategory code = catalog.items.filter (·.hasCategory code)
      ∧ (catalog.inCategory code).Pairwise fun a b => a.place < b.place)
    ∧ (∀ accepts, Scan catalog.items
      (fun item => ∃ code, accepts code = true ∧ item ∈ catalog.inCategory code)
      (catalog.inCategoriesWhere accepts))
    ∧ (∀ pattern, catalog.inCategoriesMatching pattern
      = catalog.inCategoriesWhere pattern.matchesWhole)
    ∧ ∀ id, catalog.withId? id = source.find? (·.id == id)
      ∧ ((catalog.withId? id).isSome = true ↔ ∃ item ∈ listing, item.id = id) := by
  intro source catalog
  refine ⟨scan_items listing, fun code => ⟨inCategory_ofItems listing code, ?_⟩,
    scan_inCategoriesWhere listing, fun _ => rfl, fun id => ⟨withId?_ofItems listing id, ?_⟩⟩
  · rw [inCategory_ofItems]
    exact (scan_items listing).ordered.sublist List.filter_sublist
  · rw [withId?_ofItems, List.find?_isSome]
    constructor
    · rintro ⟨item, hitem, hid⟩
      obtain ⟨i, hi, rfl⟩ := List.mem_mapIdx.mp hitem
      exact ⟨listing[i], List.getElem_mem hi, by simpa using hid⟩
    · rintro ⟨item, hitem, rfl⟩
      obtain ⟨i, hi, rfl⟩ := List.getElem_of_mem hitem
      exact ⟨_, List.mem_mapIdx.mpr ⟨i, hi, rfl⟩, by simp⟩

end Catalog

/-! ## Candidates for a slot -/

namespace Slot

theorem candidates_sublist (slot : Slot) (listing : List Item) :
    (slot.candidates (.ofItems listing)).Sublist (Catalog.ofItems listing).items := by
  have hcategory : ∀ code,
      ((Catalog.ofItems listing).inCategory code).Sublist (Catalog.ofItems listing).items := by
    intro code
    rw [Catalog.inCategory_ofItems]
    exact List.filter_sublist
  unfold candidates
  cases slot.category with
  | none =>
      cases slot.description with
      | none => exact List.Sublist.refl _
      | some e => exact List.filter_sublist
  | some code =>
      have hsource : (if code == "" then (Catalog.ofItems listing).items
          else (Catalog.ofItems listing).inCategory code).Sublist
            (Catalog.ofItems listing).items := by
        by_cases hcode : (code == "") = true
        · rw [if_pos hcode]
        · rw [if_neg hcode]
          exact hcategory code
      cases slot.description with
      | none => exact hsource
      | some e => exact List.filter_sublist.trans hsource

theorem nodup_candidates (slot : Slot) (listing : List Item) :
    ((slot.candidates (.ofItems listing)).map Item.id).Nodup :=
  ((slot.candidates_sublist listing).map Item.id).nodup (Catalog.nodup_ids listing)

end Slot

end Provision
