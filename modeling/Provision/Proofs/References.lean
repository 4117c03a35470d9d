import Provision.Proofs.Disks
import Provision.Proofs.Numerals

/-!
# References to disks

A family's extra disks are configured by ids, and an id may be that of a price or
that of an item. `Denotes` says which item of a pool a number stands for: prices
come first, and of several items that a price belongs to the first one in catalog
order is meant. Ids are unique in a catalog, so a number stands for one item at
most.

A configured text `RefersTo` the item that its number stands for, and otherwise it
is `Dangling`. Each text is looked up by itself (`configuredDisk_ok_iff`,
`configuredDisk_error_iff`); all of them together give one disk each, in the
configured order, or the fault of the first text that dangles
(`extra_disks_resolved`). Which codes make the pool does not matter for it.
-/

namespace Provision

/-- The item of a pool that a number stands for: the first one with this price or, if it is no
price in the pool, the one with this id. -/
inductive Denotes (pool : List Item) (n : Int) (item : Item) : Prop
  | price {before after : List Item} (split : pool = before ++ item :: after)
      (sold : n ∈ item.prices) (first : ∀ other ∈ before, n ∉ other.prices)
  | id (mem : item ∈ pool) (unsold : ∀ other ∈ pool, n ∉ other.prices) (same : item.id = n)

theorem Denotes.mem {pool : List Item} {n : Int} {item : Item} (h : Denotes pool n item) :
    item ∈ pool := by
  cases h with
  | price split => simp [split]
  | id mem => exact mem

/-- The item of a pool that a text refers to by the number that it writes. -/
def RefersTo (pool : List Item) (text : String) (item : Item) : Prop :=
  ∃ n, Text.Writes text n ∧ Denotes pool n item

/-- Why a configured text refers to no item of a pool: it writes no number, or one that is neither
price nor id there. -/
inductive Dangling (family : Int) (pool : List Item) (categories text : String) : Fault → Prop
  | malformed (h : ∀ n, ¬ Text.Writes text n) :
      Dangling family pool categories text (.configuration (.malformedId text family))
  | missing {n : Int} (h : Text.Writes text n) (unknown : ∀ item ∈ pool, n ∉ item.prices ∧ item.id ≠ n) :
      Dangling family pool categories text (.resolution (.extraDiskMissing text categories))

namespace Rules

variable {family n : Int} {pool : List Item} {item : Item} {categories text : String}

/-! ## A number in a pool -/

/-- The item with a price, else the item with an id. -/
def denoted? (pool : List Item) (n : Int) : Option Item :=
  (pool.find? (·.hasPrice n)).or (pool.find? (·.id == n))

theorem find?_id_eq_some_iff (hids : (pool.map Item.id).Nodup) :
    pool.find? (·.id == n) = some item ↔ item ∈ pool ∧ item.id = n := by
  constructor
  · exact fun h => ⟨List.mem_of_find?_eq_some h, by simpa using List.find?_some h⟩
  · rintro ⟨hitem, hid⟩
    cases hfind : pool.find? (·.id == n) with
    | none => exact absurd hid (by simpa using List.find?_eq_none.mp hfind item hitem)
    | some other =>
        have hother : other.id = n := by simpa using List.find?_some hfind
        rw [List.inj_on_of_nodup_map hids (List.mem_of_find?_eq_some hfind) hitem
          (hother.trans hid.symm)]

theorem find?_price_eq_none_iff :
    pool.find? (·.hasPrice n) = none ↔ ∀ other ∈ pool, n ∉ other.prices := by
  simp [List.find?_eq_none, Item.hasPrice]

theorem denoted?_eq_some_iff (hids : (pool.map Item.id).Nodup) :
    denoted? pool n = some item ↔ Denotes pool n item := by
  constructor
  · intro h
    rw [denoted?, Option.or_eq_some_iff] at h
    rcases h with hprice | ⟨hnone, hid⟩
    · obtain ⟨hsold, before, after, hsplit, hfirst⟩ := List.find?_eq_some_iff_append.mp hprice
      refine .price hsplit ?_ fun other hother => ?_
      · simpa [Item.hasPrice] using hsold
      · simpa [Item.hasPrice] using hfirst other hother
    · obtain ⟨hitem, hsame⟩ := (find?_id_eq_some_iff hids).mp hid
      exact .id hitem (find?_price_eq_none_iff.mp hnone) hsame
  · intro h
    rw [denoted?, Option.or_eq_some_iff]
    cases h with
    | @price before after hsplit hsold hfirst =>
        refine Or.inl (List.find?_eq_some_iff_append.mpr ⟨?_, before, after, hsplit, ?_⟩)
        · simpa [Item.hasPrice] using hsold
        · intro other hother
          simpa [Item.hasPrice] using hfirst other hother
    | id hitem hunsold hsame =>
        exact Or.inr ⟨find?_price_eq_none_iff.mpr hunsold,
          (find?_id_eq_some_iff hids).mpr ⟨hitem, hsame⟩⟩

theorem denoted?_eq_none_iff :
    denoted? pool n = none ↔ ∀ item ∈ pool, n ∉ item.prices ∧ item.id ≠ n := by
  rw [denoted?, Option.or_eq_none_iff, find?_price_eq_none_iff, List.find?_eq_none,
    ← forall₂_and]
  simp

/-! ## A text in a pool -/

theorem findConfigured_of_writes (h : Text.Writes text n) :
    findConfigured family text pool = .ok (denoted? pool n) := by
  unfold findConfigured denoted?
  rw [Text.readInteger?_eq_some_iff.mpr h]
  cases hprice : pool.find? (·.hasPrice n) with
  | none => simp only [hprice, Option.none_or]
  | some item => simp only [hprice, Option.some_or]

theorem findConfigured_of_malformed (h : ∀ n, ¬ Text.Writes text n) :
    findConfigured family text pool = .error (.configuration (.malformedId text family)) := by
  rw [findConfigured, Text.readInteger?_eq_none_iff.mpr h]

/-- The disk that a configured text refers to. -/
def configuredDisk (family : Int) (pool : List Item) (categories text : String) :
    Except Fault Item := do
  match ← findConfigured family text pool with
  | some item => pure item
  | none => .error (.resolution (.extraDiskMissing text categories))

theorem configuredDisk_of_writes (h : Text.Writes text n) :
    configuredDisk family pool categories text = match denoted? pool n with
      | some item => .ok item
      | none => .error (.resolution (.extraDiskMissing text categories)) := by
  rw [configuredDisk, findConfigured_of_writes h]
  rfl

theorem configuredDisk_of_malformed (h : ∀ n, ¬ Text.Writes text n) :
    configuredDisk family pool categories text
      = .error (.configuration (.malformedId text family)) := by
  rw [configuredDisk, findConfigured_of_malformed h]
  rfl

/-- A text refers to an item or dangles, and the look-up tells which. -/
theorem configuredDisk_decides (hids : (pool.map Item.id).Nodup) (family : Int)
    (categories text : String) :
    (∃ item, configuredDisk family pool categories text = .ok item ∧ RefersTo pool text item)
      ∨ ∃ fault, configuredDisk family pool categories text = .error fault
        ∧ Dangling family pool categories text fault := by
  by_cases hwrites : ∃ n, Text.Writes text n
  · obtain ⟨n, hn⟩ := hwrites
    have hdisk : configuredDisk family pool categories text = match denoted? pool n with
      | some item => .ok item
      | none => .error (.resolution (.extraDiskMissing text categories)) :=
      configuredDisk_of_writes hn
    cases hdenoted : denoted? pool n with
    | none =>
        rw [hdenoted] at hdisk
        exact Or.inr ⟨_, hdisk, .missing hn (denoted?_eq_none_iff.mp hdenoted)⟩
    | some item =>
        rw [hdenoted] at hdisk
        exact Or.inl ⟨item, hdisk, n, hn, (denoted?_eq_some_iff hids).mp hdenoted⟩
  · have hnone := not_exists.mp hwrites
    exact Or.inr ⟨_, configuredDisk_of_malformed hnone, .malformed hnone⟩

theorem configuredDisk_ok_iff (hids : (pool.map Item.id).Nodup) :
    configuredDisk family pool categories text = .ok item ↔ RefersTo pool text item := by
  constructor
  · intro h
    rcases configuredDisk_decides hids family categories text with
      ⟨found, hfound, hrefers⟩ | ⟨fault, hfault, -⟩
    · obtain rfl : found = item := Except.ok.inj (hfound.symm.trans h)
      exact hrefers
    · cases hfault.symm.trans h
  · rintro ⟨n, hn, hdenotes⟩
    rw [configuredDisk_of_writes hn, (denoted?_eq_some_iff hids).mpr hdenotes]

theorem configuredDisk_error_iff (hids : (pool.map Item.id).Nodup) {fault : Fault} :
    configuredDisk family pool categories text = .error fault
      ↔ Dangling family pool categories text fault := by
  constructor
  · intro h
    rcases configuredDisk_decides hids family categories text with
      ⟨found, hfound, -⟩ | ⟨other, hother, hdangling⟩
    · cases hfound.symm.trans h
    · obtain rfl : other = fault := Except.error.inj (hother.symm.trans h)
      exact hdangling
  · intro h
    cases h with
    | malformed h => exact configuredDisk_of_malformed h
    | missing hn hunknown =>
        rw [configuredDisk_of_writes hn, denoted?_eq_none_iff.mpr hunknown]

/-! ## All configured texts -/

/-- The disks that configured texts refer to, in their order. -/
def configuredDisks (family : Int) (pool : List Item) (categories : String) (texts : List String) :
    Except Fault (List Item) :=
  texts.mapM (configuredDisk family pool categories)

/-- The extra disks are looked up among the items with a code that their pattern accepts. -/
theorem extraDiskItems_eq {rules : Rules} {e : Expression} (h : rules.extraDisks = some e)
    (catalog : Catalog) : rules.extraDiskItems family catalog
      = configuredDisks family (catalog.inCategoriesWhere e.accepts) e.text rules.extraDiskIds := by
  unfold extraDiskItems
  by_cases hnone : rules.extraDiskIds.isEmpty = true
  · rw [if_pos hnone, List.isEmpty_iff.mp hnone]
    rfl
  · rw [if_neg hnone, h]
    rfl

/-- The message about a missing extra disk names the configured text. -/
theorem text_infix_message (text categories : String) :
    text.toList <:+: (ResolutionFault.extraDiskMissing text categories).message.toList := by
  have hmessage : (ResolutionFault.extraDiskMissing text categories).message
      = "Could not find extra disk item with id " ++ text ++ " in categories " ++ categories := rfl
  rw [hmessage, String.toList_append, String.toList_append, String.toList_append,
    List.append_assoc _ _ categories.toList]
  exact List.infix_append _ _ _

theorem configuredDisks_mem {texts : List String}
    {disks : List Item} (h : List.Forall₂ (RefersTo pool) texts disks) : ∀ disk ∈ disks, disk ∈ pool := by
  intro disk hdisk
  obtain ⟨text, -, n, -, hdenotes⟩ := exists_of_forall₂ h hdisk
  exact hdenotes.mem

/-- **Configured ids resolve in order.** The pool may be made of any codes. The rules with a
pattern for these codes find the extra disks that the configured texts refer to in the pool, one
for each text and in the same order. If there are no such disks, it is because of a text that
refers to none, and the first one of these decides why. -/
theorem extra_disks_resolved (family : Int) (listing : List Item) (accepts : String → Bool)
    (categories : String) (texts : List String) :
    let catalog := Catalog.ofItems listing
    let pool := catalog.inCategoriesWhere accepts
    let resolved := configuredDisks family pool categories texts
    (∀ (rules : Rules) (e : Expression), rules.extraDisks = some e → e.accepts = accepts →
        e.text = categories → rules.extraDiskIds = texts →
        rules.extraDiskItems family catalog = resolved)
      ∧ Catalog.Scan catalog.items (fun item => ∃ code ∈ item.categories, accepts code = true) pool
      ∧ (∀ disks, resolved = .ok disks ↔ List.Forall₂ (RefersTo pool) texts disks)
      ∧ (∀ fault, resolved = .error fault ↔ ∃ before text after, texts = before ++ text :: after
        ∧ (∀ earlier ∈ before, ∃ disk, RefersTo pool earlier disk)
        ∧ Dangling family pool categories text fault)
      ∧ (∀ disks, resolved = .ok disks →
        disks.length = texts.length ∧ ∀ disk ∈ disks, disk ∈ pool)
      ∧ ∀ text, text.toList <:+: (ResolutionFault.extraDiskMissing text categories).message.toList := by
  intro catalog pool resolved
  -- An index holds every id once, so a text refers to one item of the pool at most.
  have hids : (pool.map Item.id).Nodup :=
    (List.filter_sublist.map Item.id).nodup (Catalog.nodup_ids listing)
  have hok : ∀ disks, resolved = .ok disks ↔ List.Forall₂ (RefersTo pool) texts disks := by
    intro disks
    refine mapM_eq_ok_iff.trans (iff_of_eq (congrArg (List.Forall₂ · texts disks) ?_))
    funext text disk
    exact propext (configuredDisk_ok_iff hids)
  refine ⟨?_, ?_, hok, ?_, ?_, ?_⟩
  · rintro rules e hextra rfl rfl rfl
    exact extraDiskItems_eq hextra catalog
  · exact Catalog.scan_filter (Catalog.scan_items listing).ordered _ fun _ _ => List.any_eq_true
  · intro fault
    refine mapM_eq_error_iff.trans ?_
    simp only [configuredDisk_ok_iff hids, configuredDisk_error_iff hids]
  · intro disks h
    have hall := (hok disks).mp h
    exact ⟨hall.length_eq.symm, configuredDisks_mem hall⟩
  · exact fun text => text_infix_message text categories

/-- A listing in which prices and items share their numbers. -/
def sharedListing : List Item :=
  [{ id := 10, categories := ["disk1"], prices := [7, 20] },
    { id := 7, categories := ["disk2", "disk3"], prices := [30, 20] },
    { id := 30, categories := ["ram"], prices := [40] }]

def serverDisks : Expression :=
  ⟨"disk([1-9]|1[01])", .upToEleven "disk".toList, Pattern.parse_serverExtra⟩

/-- Rules of a server with these extra disks. -/
def sharedRules (texts : List String) : Rules :=
  { slots := [], cpu := .fixed 1 1, bootDisk := "disk0", disks := serverDisks
    extraDisks := some serverDisks, extraDiskIds := texts }

/-- The ids of the disks that are found, or the text that refers to none. -/
def sharedDisks (texts : List String) : Option (List Int ⊕ String) :=
  match (sharedRules texts).extraDiskItems 42 (.ofItems sharedListing) with
  | .ok disks => some (.inl (disks.map Item.id))
  | .error (.resolution (.extraDiskMissing text _)) => some (.inr text)
  | .error _ => none

theorem sharedDisks_found :
    sharedDisks ["7", " +3_0", "10", "20"] = some (.inl [10, 7, 10, 10]) := by
  decide +kernel

theorem sharedDisks_missing : sharedDisks ["7", "40", "seven"] = some (.inr "40") := by
  decide +kernel

/-- A price is preferred to an id, also where items share it; and what is sold outside of the pool
is missing in it, before a malformed text is looked at. -/
theorem extra_disks_resolved_shared :
    let catalog := Catalog.ofItems sharedListing
    let pool := catalog.inCategoriesWhere serverDisks.accepts
    (∃ disks, (sharedRules ["7", " +3_0", "10", "20"]).extraDiskItems 42 catalog = .ok disks
        ∧ disks.map Item.id = [10, 7, 10, 10]
        ∧ List.Forall₂ (RefersTo pool) ["7", " +3_0", "10", "20"] disks)
      ∧ ∃ categories, (sharedRules ["7", "40", "seven"]).extraDiskItems 42 catalog
          = .error (.resolution (.extraDiskMissing "40" categories))
        ∧ ∃ before text after, ["7", "40", "seven"] = before ++ text :: after
          ∧ (∀ earlier ∈ before, ∃ disk, RefersTo pool earlier disk)
          ∧ Dangling 42 pool serverDisks.text text
            (.resolution (.extraDiskMissing "40" categories)) := by
  intro catalog pool
  constructor
  · obtain ⟨hrules, -, hok, -⟩ := extra_disks_resolved 42 sharedListing serverDisks.accepts
      serverDisks.text ["7", " +3_0", "10", "20"]
    have hresolved := hrules (sharedRules _) serverDisks rfl rfl rfl rfl
    have hfound := sharedDisks_found
    unfold sharedDisks at hfound
    split at hfound
    · rename_i disks hdisks
      refine ⟨disks, hdisks, by simpa using hfound, (hok disks).mp ?_⟩
      rw [← hresolved, hdisks]
    · cases hfound
    · cases hfound
  · obtain ⟨hrules, -, -, herror, -⟩ := extra_disks_resolved 42 sharedListing serverDisks.accepts
      serverDisks.text ["7", "40", "seven"]
    have hresolved := hrules (sharedRules _) serverDisks rfl rfl rfl rfl
    have hmissing := sharedDisks_missing
    unfold sharedDisks at hmissing
    split at hmissing
    · cases hmissing
    · rename_i text categories hfault
      obtain rfl : text = "40" := by simpa using hmissing
      refine ⟨categories, hfault, (herror _).mp ?_⟩
      rw [← hresolved, hfault]
    · cases hmissing

end Rules

end Provision
