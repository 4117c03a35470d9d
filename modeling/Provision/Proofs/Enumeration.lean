import Provision.Proofs.Encoding
import Provision.Proofs.Index
import Provision.Proofs.Profiles

/-!
# Enumeration as a product

An enumeration goes through the product of what may fill its slots, in the
order of the slots' candidates (`product_fillings_pairwise`), until a
combination ends it. What it went through was yielded or skipped
(`profilesOf_stops`). No two profiles have the same items: the ids in an index
differ, so the ids of a profile tell where its items stand among the candidates
(`ranks_eq_of_ids`).
-/

namespace Provision

/-- Lists of ids with the same text are the same. -/
theorem Price.writeIds_injective {ids ids' : List Int} (h : writeIds ids = writeIds ids') :
    ids = ids' := by
  have hread := readIds_writeIds ids
  rw [h, readIds_writeIds] at hread
  exact (Except.ok.inj hread).symm

/-! ## Slots -/

namespace Slot

variable {catalog : Catalog} {slot : Slot}

/-- A slot that has to be filled, and nothing to fill it with. -/
def isVacant (catalog : Catalog) (slot : Slot) : Bool :=
  !slot.optional && (slot.candidates catalog).isEmpty

/-- What may fill a slot: one of its candidates, or nothing if there are none. -/
def fillings (catalog : Catalog) (slot : Slot) : List (Option Item) :=
  match slot.candidates catalog with
  | [] => [none]
  | items => items.map some

/-- Where a filling stands among the candidates. -/
def rank (catalog : Catalog) (slot : Slot) : Option Item → Nat
  | some item => ((slot.candidates catalog).map Item.id).idxOf item.id
  | none => 0

theorem isVacant_iff :
    slot.isVacant catalog = true ↔ slot.optional = false ∧ slot.candidates catalog = [] := by
  simp [isVacant]

theorem fillings_of_nil (h : slot.candidates catalog = []) : slot.fillings catalog = [none] := by
  rw [fillings, h]

theorem fillings_of_ne_nil (h : slot.candidates catalog ≠ []) :
    slot.fillings catalog = (slot.candidates catalog).map some := by
  unfold fillings
  cases hcandidates : slot.candidates catalog with
  | nil => exact absurd hcandidates h
  | cons item more => rfl

theorem length_fillings :
    (slot.fillings catalog).length = max 1 (slot.candidates catalog).length := by
  unfold fillings
  cases slot.candidates catalog <;> simp

/-- The choices of a slot are its fillings, unless it is vacant. -/
theorem slotChoices?_eq : Rules.slotChoices? catalog slot
    = if slot.isVacant catalog then none else some (slot.fillings catalog) := by
  unfold Rules.slotChoices? isVacant fillings
  cases slot.candidates catalog with
  | nil => cases slot.optional <;> rfl
  | cons item more => simp

/-- The fillings stand in the order of their ranks, since no id is indexed twice. -/
theorem fillings_pairwise (slot : Slot) (listing : List Item) :
    (slot.fillings (.ofItems listing)).Pairwise fun x y =>
      slot.rank (.ofItems listing) x < slot.rank (.ofItems listing) y := by
  by_cases hnone : slot.candidates (.ofItems listing) = []
  · rw [fillings_of_nil hnone]
    exact List.pairwise_singleton ..
  · have hids := distinct_pairwise ((slot.candidates (.ofItems listing)).map Item.id)
    rw [distinct_of_nodup (slot.nodup_candidates listing)] at hids
    rw [fillings_of_ne_nil hnone, List.pairwise_map]
    exact (List.pairwise_map.mp hids).imp id

end Slot

namespace Rules

variable {rules : Rules} {family : Int} {extras : List Item} {catalog : Catalog}

/-- Without a vacant slot there are choices for all slots, and the first vacant slot is the one
that is missed. -/
theorem choices_eq (catalog : Catalog) (slots : List Slot) :
    choices catalog slots = match slots.find? (·.isVacant catalog) with
      | some slot => .error slot
      | none => .ok (slots.map (Slot.fillings catalog)) := by
  induction slots with
  | nil => rfl
  | cons slot rest ih =>
      rw [choices, Slot.slotChoices?_eq, ih]
      by_cases hvacant : slot.isVacant catalog = true
      · rw [if_pos hvacant, List.find?_cons_of_pos hvacant]
      · rw [if_neg hvacant, List.find?_cons_of_neg hvacant]
        cases rest.find? (·.isVacant catalog) <;> rfl

/-! ## Combinations -/

/-- Where the items of a combination stand among the candidates of their slots. -/
def ranks (catalog : Catalog) (slots : List Slot) (combination : List (Option Item)) : List Nat :=
  List.zipWith (Slot.rank catalog) slots combination

/-- The first slot varies slowest. -/
theorem product_fillings_pairwise (listing : List Item) (slots : List Slot) :
    (product (slots.map (Slot.fillings (.ofItems listing)))).Pairwise fun c c' =>
      ranks (.ofItems listing) slots c < ranks (.ofItems listing) slots c' :=
  product_pairwise (Slot.rank (.ofItems listing)) fun slot _ => slot.fillings_pairwise listing

theorem length_product_fillings (catalog : Catalog) (slots : List Slot) :
    (product (slots.map (Slot.fillings catalog))).length
      = (slots.map fun slot => max 1 (slot.candidates catalog).length).prod := by
  rw [length_product, List.map_map]
  congr 1
  exact List.map_congr_left fun slot _ => slot.length_fillings

/-- An item is chosen for a slot just if there is a candidate for it, so the ids that were chosen
belong to the same slots in every combination. -/
theorem ranks_eq_of_ids {slots : List Slot} {c c' : List (Option Item)}
    (hc : List.Forall₂ (· ∈ ·) c (slots.map (Slot.fillings catalog)))
    (hc' : List.Forall₂ (· ∈ ·) c' (slots.map (Slot.fillings catalog)))
    (hids : (chosenItems c).map Item.id = (chosenItems c').map Item.id) :
    ranks catalog slots c = ranks catalog slots c' := by
  induction slots generalizing c c' with
  | nil =>
      cases hc
      cases hc'
      rfl
  | cons slot rest ih =>
      obtain ⟨x, tail, hx, htail, rfl⟩ := List.forall₂_cons_right_iff.mp hc
      obtain ⟨x', tail', hx', htail', rfl⟩ := List.forall₂_cons_right_iff.mp hc'
      by_cases hnone : slot.candidates catalog = []
      · rw [Slot.fillings_of_nil hnone, List.mem_singleton] at hx hx'
        subst hx hx'
        exact congrArg (0 :: ·) (ih htail htail' hids)
      · rw [Slot.fillings_of_ne_nil hnone] at hx hx'
        obtain ⟨item, -, rfl⟩ := List.mem_map.mp hx
        obtain ⟨item', -, rfl⟩ := List.mem_map.mp hx'
        obtain ⟨hid, hrest⟩ := List.cons_eq_cons.mp hids
        have hrank : slot.rank catalog (some item) = slot.rank catalog (some item') := by
          rw [Slot.rank, Slot.rank, hid]
        exact congrArg₂ List.cons hrank (ih htail htail' hrest)

/-! ## Going through combinations -/

/-- An enumeration goes through its combinations up to the first one with a failure that cannot be
skipped. -/
theorem profilesOf_stops (rules : Rules) (family : Int) (extras : List Item)
    (combinations : List (List (Option Item))) :
    let e := rules.profilesOf family extras combinations
    ∃ through rest, combinations = through ++ rest
      ∧ (∀ c ∈ through, Skippable (rules.outcome family extras c))
      ∧ e.profiles = through.filterMap (rules.yielded? family extras)
      ∧ e.log = through.filterMap (rules.skipped? family extras)
      ∧ ((rest = [] ∧ e.failure = none) ∨ ∃ c later fault, rest = c :: later
        ∧ rules.outcome family extras c = .error fault ∧ (∀ cause, fault ≠ .resolution cause)
        ∧ e.failure = some fault) := by
  classical
  let skippable : List (Option Item) → Bool := fun c => Skippable (rules.outcome family extras c)
  have hthrough : ∀ c ∈ combinations.takeWhile skippable,
      Skippable (rules.outcome family extras c) :=
    fun c hc => of_decide_eq_true (List.mem_takeWhile_imp (p := skippable) hc)
  have hends := List.head?_dropWhile_not skippable combinations
  have hsplit : combinations
      = combinations.takeWhile skippable ++ combinations.dropWhile skippable :=
    List.takeWhile_append_dropWhile.symm
  generalize combinations.takeWhile skippable = through at hthrough hsplit
  generalize combinations.dropWhile skippable = rest at hends hsplit
  subst hsplit
  simp only [profilesOf_append hthrough]
  refine ⟨through, rest, rfl, hthrough, ?_⟩
  cases rest with
  | nil => exact ⟨List.append_nil _, List.append_nil _, Or.inl ⟨rfl, rfl⟩⟩
  | cons c later =>
      have hfatal : ¬ Skippable (rules.outcome family extras c) := of_decide_eq_false hends
      rw [profilesOf_cons]
      cases houtcome : rules.outcome family extras c with
      | ok profile =>
          rw [houtcome] at hfatal
          exact absurd (skippable_ok profile) hfatal
      | error fault =>
          rw [houtcome] at hfatal
          cases fault with
          | resolution cause => exact absurd (skippable_resolution cause) hfatal
          | configuration cause =>
              exact ⟨List.append_nil _, List.append_nil _,
                Or.inr ⟨c, later, _, rfl, houtcome, fun _ => nofun, rfl⟩⟩
          | data cause =>
              exact ⟨List.append_nil _, List.append_nil _,
                Or.inr ⟨c, later, _, rfl, houtcome, fun _ => nofun, rfl⟩⟩

/-- Whatever was gone through is a profile or a record, and not both. -/
theorem length_yielded_add_skipped {through : List (List (Option Item))}
    (h : ∀ c ∈ through, Skippable (rules.outcome family extras c)) :
    (through.filterMap (rules.yielded? family extras)).length
      + (through.filterMap (rules.skipped? family extras)).length = through.length := by
  induction through with
  | nil => rfl
  | cons c more ih =>
      obtain ⟨hfirst, hmore⟩ := List.forall_mem_cons.mp h
      have hlength := ih hmore
      cases houtcome : rules.outcome family extras c with
      | ok profile =>
          rw [List.filterMap_cons_some (yielded?_of_ok houtcome),
            List.filterMap_cons_none (skipped?_of_ok houtcome), List.length_cons, List.length_cons]
          omega
      | error fault =>
          obtain ⟨cause, rfl⟩ := hfirst fault houtcome
          rw [List.filterMap_cons_none (yielded?_of_error houtcome),
            List.filterMap_cons_some (skipped?_of_resolution houtcome), List.length_cons,
            List.length_cons]
          omega

theorem warning_of_skipped {combinations : List (List (Option Item))} {record : Log.Record}
    (h : record ∈ combinations.filterMap (rules.skipped? family extras)) :
    record.level = .warning := by
  obtain ⟨c, -, hskipped⟩ := List.mem_filterMap.mp h
  unfold skipped? at hskipped
  split at hskipped
  · cases hskipped
    rfl
  · cases hskipped

/-! ## Profiles apart -/

theorem of_buildProfile_ok {items : List Item} {roles : Roles} {profile : Profile}
    (h : rules.buildProfile family items roles = .ok profile) :
    profile.items = items ∧ profile.itemIds = Price.itemIds items := by
  obtain ⟨cpu, -, h⟩ := ok_of_bind h
  obtain ⟨ram, -, h⟩ := ok_of_bind h
  obtain ⟨id, -, h⟩ := ok_of_bind h
  obtain ⟨template, -, h⟩ := ok_of_bind h
  cases h
  exact ⟨rfl, rfl⟩

theorem of_yielded {c : List (Option Item)} {profile : Profile}
    (h : rules.yielded? family extras c = some profile) :
    profile.items = chosenItems c ++ extras
      ∧ profile.itemIds = Price.itemIds (chosenItems c ++ extras) := by
  unfold yielded? at h
  cases houtcome : rules.outcome family extras c with
  | error fault =>
      rw [houtcome] at h
      cases h
  | ok other =>
      rw [houtcome] at h
      cases h
      exact of_buildProfile_ok houtcome

/-- The ids of a profile can be read off its text, and no two combinations have the same. -/
theorem nodup_itemIds {listing : List Item} {through rest : List (List (Option Item))}
    (hproduct : product (rules.slots.map (Slot.fillings (.ofItems listing))) = through ++ rest) :
    ((through.filterMap (rules.yielded? family extras)).map Profile.itemIds).Nodup := by
  have hranks := product_fillings_pairwise listing rules.slots
  have hmem : ∀ c ∈ through, List.Forall₂ (· ∈ ·) c
      (rules.slots.map (Slot.fillings (.ofItems listing))) := fun c hc =>
    mem_product.mp (hproduct ▸ List.mem_append_left rest hc)
  rw [hproduct] at hranks
  rw [List.Nodup, List.pairwise_map, List.pairwise_filterMap]
  refine (hranks.sublist (List.sublist_append_left through rest)).imp_of_mem ?_
  intro c c' hc hc' hlt profile hprofile profile' hprofile' hsame
  rw [(of_yielded hprofile).2, (of_yielded hprofile').2] at hsame
  have hids := Price.writeIds_injective hsame
  rw [List.map_append, List.map_append, List.append_left_inj] at hids
  rw [ranks_eq_of_ids (hmem c hc) (hmem c' hc') hids] at hlt
  exact List.lt_irrefl _ hlt

/-! ## The whole enumeration -/

/-- **The product and what becomes of it.** With a required slot left vacant there are no profiles.
Otherwise the enumeration goes through the product of the fillings in order, up to the first
combination with a failure that cannot be skipped; it yields a profile or leaves a warning for each
one that it goes through. In any case no two profiles have the same item ids. -/
theorem enumerate_product {listing disks controller : List Item}
    (hdisks : rules.extraDiskItems family (.ofItems listing) = .ok disks)
    (hcontroller : rules.controllerItems family (.ofItems listing) = .ok controller) :
    let catalog := Catalog.ofItems listing
    let e := rules.enumerate family catalog
    let fillings := rules.slots.map (Slot.fillings catalog)
    let outcome := rules.outcome family (disks ++ controller)
    ((∃ slot ∈ rules.slots, slot.optional = false ∧ slot.candidates catalog = []) →
      e.profiles = [] ∧ e.failure = none)
    ∧ ((∀ slot ∈ rules.slots, slot.candidates catalog = [] → slot.optional = true) →
      (∀ c, c ∈ product fillings ↔ List.Forall₂ (· ∈ ·) c fillings)
      ∧ ((product fillings).Pairwise fun c c' =>
        ranks catalog rules.slots c < ranks catalog rules.slots c')
      ∧ (product fillings).length
        = (rules.slots.map fun slot => max 1 (slot.candidates catalog).length).prod
      ∧ ∃ through rest, product fillings = through ++ rest
        ∧ (∀ c ∈ through, (∃ profile, outcome c = .ok profile
            ∧ profile.items = chosenItems c ++ disks ++ controller)
          ∨ ∃ cause, outcome c = .error (.resolution cause))
        ∧ e.profiles = through.filterMap (rules.yielded? family (disks ++ controller))
        ∧ e.log = through.filterMap (rules.skipped? family (disks ++ controller))
        ∧ (∀ record ∈ e.log, record.level = .warning)
        ∧ e.profiles.length + e.log.length = through.length
        ∧ ((rest = [] ∧ e.failure = none) ∨ ∃ c later fault, rest = c :: later
          ∧ outcome c = .error fault ∧ (∀ cause, fault ≠ .resolution cause)
          ∧ e.failure = some fault))
    ∧ (e.profiles.map Profile.itemIds).Nodup := by
  intro catalog e fillings outcome
  have hextras : rules.extras family catalog = .ok (disks ++ controller) := by
    unfold extras
    rw [hdisks, hcontroller]
    rfl
  have hchoices := choices_eq catalog rules.slots
  cases hvacant : rules.slots.find? (·.isVacant catalog) with
  | some slot =>
      rw [hvacant] at hchoices
      have he : e = { log := [emptySlotRecord family slot] } := by
        show rules.enumerate family catalog = _
        unfold enumerate
        rw [hchoices]
      obtain ⟨hrequired, hnone⟩ := Slot.isVacant_iff.mp (List.find?_some hvacant)
      rw [he]
      refine ⟨fun _ => ⟨rfl, rfl⟩, fun hfilled => ?_, List.nodup_nil⟩
      rw [hfilled slot (List.mem_of_find?_eq_some hvacant) hnone] at hrequired
      cases hrequired
  | none =>
      rw [hvacant] at hchoices
      have he : e = rules.profilesOf family (disks ++ controller) (product fillings) := by
        show rules.enumerate family catalog = _
        unfold enumerate
        simp only [hchoices, hextras]
        rfl
      obtain ⟨through, rest, hproduct, hthrough, hprofiles, hlog, hends⟩ :=
        rules.profilesOf_stops family (disks ++ controller) (product fillings)
      rw [← he] at hprofiles hlog hends
      refine ⟨fun ⟨slot, hslot, hmissing⟩ => ?_, fun _ => ⟨fun c => mem_product,
        product_fillings_pairwise listing rules.slots, length_product_fillings catalog rules.slots,
        through, rest, hproduct, fun c hc => ?_, hprofiles, hlog, ?_, ?_, hends⟩, ?_⟩
      · exact absurd (Slot.isVacant_iff.mpr hmissing) (List.find?_eq_none.mp hvacant slot hslot)
      · cases houtcome : outcome c with
        | ok profile =>
            refine Or.inl ⟨profile, rfl, ?_⟩
            rw [List.append_assoc]
            exact (of_buildProfile_ok houtcome).1
        | error fault =>
            obtain ⟨cause, rfl⟩ := hthrough c hc fault houtcome
            exact Or.inr ⟨cause, rfl⟩
      · rw [hlog]
        exact fun record => warning_of_skipped
      · rw [hprofiles, hlog]
        exact length_yielded_add_skipped hthrough
      · rw [hprofiles]
        exact nodup_itemIds hproduct

/-- A listing with two processors, one of which has no price, two memory items, one of which is
listed twice, a disk and a controller. -/
def mirroredListing : List Item :=
  [{ id := 1, categories := ["cpu"], prices := [10] }, { id := 2, categories := ["cpu"] },
    { id := 3, categories := ["ram", "ram"], prices := [13] },
    { id := 4, categories := ["ram"], prices := [14, 13] },
    { id := 3, categories := ["cpu"], prices := [18] },
    { id := 5, categories := ["disk1"], prices := [15, 16] },
    { id := 6, categories := ["raid"], prices := [17] }]

/-- Rules with two slots for memory and one that stays empty. -/
def mirroredRules : Except Fault Rules :=
  make [{ role := "cpu", category := some "cpu" }, { role := "ram", category := some "ram" },
      { role := "backup", category := some "backup", optional := true },
      { role := "spare", category := some "ram" }]
    (.fixed 4 2)
    { bootDisk := "disk0", disks := "disk[0-9]", extraDisks := some "disk[1-9]"
      extraDiskIds := ["16", "5"], controllerCategory := some "raid", controllerId := some "6" }

/-- Whether the extra disks and the controller were found, and no slot is vacant; how many
combinations there are; the ids of the profiles, the number of records, and whether the enumeration
failed. -/
def mirroredCounts (rules : Rules) : (Bool × Bool × Bool) × Nat × List String × Nat × Bool :=
  let catalog := Catalog.ofItems mirroredListing
  let e := rules.enumerate 1 catalog
  (((rules.extraDiskItems 1 catalog).isOk, (rules.controllerItems 1 catalog).isOk,
      !rules.slots.any (·.isVacant catalog)),
    (product (rules.slots.map (Slot.fillings catalog))).length,
    e.profiles.map Profile.itemIds, e.log.length, e.failure.isSome)

theorem mirroredCounts_eq : mirroredRules.toOption.map mirroredCounts
    = some ((true, true, true), 8,
      ["1,3,3,5,5,6", "1,3,4,5,5,6", "1,4,3,5,5,6", "1,4,4,5,5,6"], 4, false) := by
  decide +kernel

/-- Eight combinations: four profiles, and a warning for each of the other four. -/
theorem enumerate_product_mirrored :
    ∃ rules disks controller, mirroredRules = .ok rules
      ∧ rules.extraDiskItems 1 (.ofItems mirroredListing) = .ok disks
      ∧ rules.controllerItems 1 (.ofItems mirroredListing) = .ok controller
      ∧ let catalog := Catalog.ofItems mirroredListing
        let e := rules.enumerate 1 catalog
        let combinations := product (rules.slots.map (Slot.fillings catalog))
        (∀ slot ∈ rules.slots, slot.candidates catalog = [] → slot.optional = true)
          ∧ combinations.length = 8
          ∧ e.profiles = combinations.filterMap (rules.yielded? 1 (disks ++ controller))
          ∧ e.profiles.map Profile.itemIds
            = ["1,3,3,5,5,6", "1,3,4,5,5,6", "1,4,3,5,5,6", "1,4,4,5,5,6"]
          ∧ e.log.length = 4 ∧ (∀ record ∈ e.log, record.level = .warning)
          ∧ (e.profiles.map Profile.itemIds).Nodup := by
  obtain ⟨rules, hrules, hcounts⟩ := Option.map_eq_some_iff.mp mirroredCounts_eq
  simp only [mirroredCounts, Prod.mk.injEq, Bool.not_eq_true', List.any_eq_false] at hcounts
  obtain ⟨⟨hdisks, hcontroller, hvacant⟩, hlength, hids, hlog, hfailure⟩ := hcounts
  cases hdisksFound : rules.extraDiskItems 1 (.ofItems mirroredListing) with
  | error fault =>
      rw [hdisksFound] at hdisks
      cases hdisks
  | ok disks =>
      cases hcontrollerFound : rules.controllerItems 1 (.ofItems mirroredListing) with
      | error fault =>
          rw [hcontrollerFound] at hcontroller
          cases hcontroller
      | ok controller =>
          have hfilled : ∀ slot ∈ rules.slots, slot.candidates (.ofItems mirroredListing) = [] →
              slot.optional = true := by
            intro slot hslot hnone
            refine Bool.eq_true_of_not_eq_false fun hrequired => ?_
            exact hvacant slot hslot (Slot.isVacant_iff.mpr ⟨hrequired, hnone⟩)
          obtain ⟨-, hall, hdistinct⟩ := enumerate_product hdisksFound hcontrollerFound
          obtain ⟨-, -, -, through, rest, hproduct, -, hprofiles, -, hwarnings, -, hends⟩ :=
            hall hfilled
          rcases hends with ⟨rfl, -⟩ | ⟨c, later, fault, -, -, -, hfault⟩
          · rw [List.append_nil] at hproduct
            refine ⟨rules, disks, controller, ok_of_toOption hrules, hdisksFound, hcontrollerFound,
              hfilled, hlength, ?_, hids, hlog, hwarnings, hdistinct⟩
            rw [hproduct]
            exact hprofiles
          · rw [hfault] at hfailure
            cases hfailure

end Rules

end Provision
