import Provision.Proofs.Disks

/-!
# Additional disks by place

Whether two items of a combination are one and the same entry is told by their
places, not by their ids: items with equal ids may come from different entries, and
one entry may be chosen several times. `Spares` says which of some places are left
when the primary disk is taken away once, and in which order. The additional disks
of a profile are left in this sense (`additional_disks_by_place`), whatever items it
is built from and whichever of them are disks; so the primary disk is an additional
one as well just if it was chosen twice.
-/

namespace Provision

/-! ## Places -/

/-- The places without the first occurrence of the primary one. -/
def withoutPrimary (places : List Nat) (primary : Option Nat) : List Nat :=
  primary.elim places places.erase

/-- Each place once, in the order of first occurrences, but one occurrence of the primary place
does not count. -/
structure Spares (places : List Nat) (primary : Option Nat) (found : List Nat) : Prop where
  subset : ∀ place ∈ found, place ∈ places
  nodup : found.Nodup
  once : ∀ place ∈ places, primary ≠ some place → found.count place = 1
  primary_mem_iff : ∀ place, primary = some place → (place ∈ found ↔ 2 ≤ places.count place)
  ordered : found.Pairwise fun a b =>
    (withoutPrimary places primary).idxOf a < (withoutPrimary places primary).idxOf b

theorem mem_withoutPrimary {places : List Nat} {primary : Option Nat} {place : Nat}
    (h : place ∈ withoutPrimary places primary) : place ∈ places := by
  cases primary with
  | none => exact h
  | some entry => exact List.mem_of_mem_erase h

theorem mem_withoutPrimary_of_ne {places : List Nat} {primary : Option Nat} {place : Nat}
    (hplace : place ∈ places) (hne : primary ≠ some place) :
    place ∈ withoutPrimary places primary := by
  cases primary with
  | none => exact hplace
  | some entry =>
      refine (List.mem_erase_of_ne fun heq => ?_).mpr hplace
      exact hne (congrArg some heq.symm)

theorem primary_mem_withoutPrimary_iff {places : List Nat} {place : Nat} :
    place ∈ withoutPrimary places (some place) ↔ 2 ≤ places.count place := by
  have hcount : (withoutPrimary places (some place)).count place = places.count place - 1 :=
    List.count_erase_self
  rw [← List.count_pos_iff, hcount]
  omega

/-- What is left are the distinct places, after the primary one was taken away once. -/
theorem spares_distinct (places : List Nat) (primary : Option Nat) :
    Spares places primary (distinct (withoutPrimary places primary)) where
  subset place hplace := mem_withoutPrimary (mem_distinct.mp hplace)
  nodup := nodup_distinct _
  once place hplace hne := by
    refine List.count_eq_one_of_mem (nodup_distinct _) (mem_distinct.mpr ?_)
    exact mem_withoutPrimary_of_ne hplace hne
  primary_mem_iff place hprimary := by
    rw [mem_distinct, hprimary]
    exact primary_mem_withoutPrimary_iff
  ordered := distinct_pairwise _

namespace Rules

/-! ## Entries and their places -/

theorem map_place_withoutFirst (entry : Item) (items : List Item) :
    (withoutFirst entry items).map Item.place = (items.map Item.place).erase entry.place := by
  induction items with
  | nil => rfl
  | cons item rest ih =>
      rw [withoutFirst, List.map_cons, List.erase_cons, ← ih, Item.isEntry]
      split <;> rfl

theorem withoutFirst_sublist (entry : Item) (items : List Item) :
    (withoutFirst entry items).Sublist items := by
  induction items with
  | nil => exact List.Sublist.refl _
  | cons item rest ih =>
      rw [withoutFirst]
      split
      · exact List.sublist_cons_self item rest
      · exact ih.cons_cons item

theorem map_place_entriesFrom (seen items : List Item) :
    (entriesFrom seen items).map Item.place
      = distinctFrom (seen.map Item.place) (items.map Item.place) := by
  induction items generalizing seen with
  | nil => rfl
  | cons item rest ih =>
      have hseen : seen.any item.isEntry = (seen.map Item.place).contains item.place := by
        rw [Bool.eq_iff_iff, List.any_eq_true, List.contains_iff_mem, List.mem_map]
        refine exists_congr fun other => and_congr_right fun _ => ?_
        rw [Item.isEntry, beq_iff_eq, eq_comm]
      rw [entriesFrom, List.map_cons, distinctFrom, hseen]
      split
      · exact ih seen
      · rw [List.map_cons, ih, List.map_cons]

theorem entriesFrom_sublist (seen items : List Item) : (entriesFrom seen items).Sublist items := by
  induction items generalizing seen with
  | nil => exact List.Sublist.refl _
  | cons item rest ih =>
      rw [entriesFrom]
      split
      · exact (ih seen).cons item
      · exact (ih _).cons_cons item

/-- The disks that are left when the primary one is taken away once, each entry once. -/
def spareDisks (disks : List Item) (primary : Option Item) : List Item :=
  entriesFrom [] (primary.elim disks fun entry => withoutFirst entry disks)

theorem additionalDisks_eq (rules : Rules) (items : List Item) (primary : Option Item) :
    rules.additionalDisks items primary = spareDisks (rules.disksOf items) primary := by
  cases primary <;> rfl

theorem spareDisks_sublist (disks : List Item) (primary : Option Item) :
    (spareDisks disks primary).Sublist disks := by
  refine (entriesFrom_sublist [] _).trans ?_
  cases primary with
  | none => exact List.Sublist.refl _
  | some entry => exact withoutFirst_sublist entry disks

theorem spareDisks_spares (disks : List Item) (primary : Option Item) :
    Spares (disks.map Item.place) (primary.map Item.place)
      ((spareDisks disks primary).map Item.place) := by
  have hplaces : (spareDisks disks primary).map Item.place
      = distinct (withoutPrimary (disks.map Item.place) (primary.map Item.place)) := by
    rw [spareDisks, map_place_entriesFrom]
    cases primary with
    | none => rfl
    | some entry =>
        rw [Option.elim_some, map_place_withoutFirst]
        rfl
  rw [hplaces]
  exact spares_distinct _ _

/-- **Additional disks are told apart by their places.** Let some of the items of a profile be
disks, by any property of their categories. The additional disks are some of them: no entry twice;
every entry other than the primary disk, once; the primary disk just if it is there at least twice;
in the order of first occurrences after the primary disk was taken away once. Entries with equal
ids are not confused: both of them are there, unless one is the primary disk and occurs once. -/
theorem additional_disks_by_place (items : List Item) (roles : Roles) (accepts : String → Bool) :
    let disks := items.filter fun item => item.categories.any accepts
    let primary := roles.item? "disk0"
    let additional := spareDisks disks primary
    let places := disks.map Item.place
    let found := additional.map Item.place
    (∀ (rules : Rules) (family : Int) (profile : Profile), rules.disks.accepts = accepts →
        rules.buildProfile family items roles = .ok profile → profile.additionalDisks = additional)
      ∧ additional.Sublist disks
      ∧ Spares places (primary.map Item.place) found
      ∧ ∀ a ∈ disks, ∀ b ∈ disks, a.place ≠ b.place → a.id = b.id →
        (∀ entry ∈ [a, b], primary.map Item.place = some entry.place →
          2 ≤ places.count entry.place) →
        a.place ∈ found ∧ b.place ∈ found := by
  intro disks primary additional places found
  have hspares : Spares places (primary.map Item.place) found := spareDisks_spares disks primary
  -- Ids play no part: what counts is whether an entry is the primary one, and how often it occurs.
  have hleft : ∀ entry ∈ disks, (primary.map Item.place = some entry.place →
      2 ≤ places.count entry.place) → entry.place ∈ found := by
    intro entry hentry htwice
    by_cases hprimary : primary.map Item.place = some entry.place
    · exact (hspares.primary_mem_iff _ hprimary).mpr (htwice hprimary)
    · refine List.count_pos_iff.mp ?_
      rw [hspares.once _ (List.mem_map_of_mem hentry) hprimary]
      exact Nat.one_pos
  refine ⟨?_, spareDisks_sublist disks primary, hspares, ?_⟩
  · rintro rules family profile rfl hprofile
    rw [(disks_of_buildProfile hprofile).2, additionalDisks_eq]
    rfl
  · intro a ha b hb _ _ htwice
    exact ⟨hleft a ha (htwice a (by simp)), hleft b hb (htwice b (by simp))⟩

/-- Two entries with one id. -/
def pairedEntry (place : Nat) : Item :=
  { id := 1, categories := ["disk1"], prices := [11], place }

def pairedItems : List Item := [pairedEntry 0, pairedEntry 1, pairedEntry 0, pairedEntry 1]

def pairedRules : Rules :=
  { slots := [], cpu := .fixed 1 1, bootDisk := "disk0", ramFromCpu := true
    disks := ⟨"disk[0-9]+", .numbered "disk".toList, Pattern.parse_serverDisk⟩ }

theorem pairedPlaces_eq :
    (pairedRules.buildProfile 42 pairedItems [("disk0", pairedEntry 0)]).toOption.map
      (·.additionalDisks.map Item.place) = some [1, 0] := by
  decide +kernel

/-- Both entries are chosen twice. The primary one is an additional disk for its second
occurrence, behind the other one. -/
theorem additional_disks_by_place_paired :
    ∃ profile, pairedRules.buildProfile 42 pairedItems [("disk0", pairedEntry 0)] = .ok profile
      ∧ profile.additionalDisks.map Item.place = [1, 0]
      ∧ Spares ((pairedRules.disksOf pairedItems).map Item.place) (some 0)
        (profile.additionalDisks.map Item.place) := by
  obtain ⟨profile, hprofile, hplaces⟩ := Option.map_eq_some_iff.mp pairedPlaces_eq
  obtain ⟨hbuilt, -, hspares, -⟩ := additional_disks_by_place pairedItems
    [("disk0", pairedEntry 0)] pairedRules.disks.accepts
  have hadditional := hbuilt pairedRules 42 profile rfl (ok_of_toOption hprofile)
  refine ⟨profile, ok_of_toOption hprofile, hplaces, ?_⟩
  rw [hadditional]
  exact hspares

end Rules

end Provision
