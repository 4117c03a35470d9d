import Provision.Proofs.Templates

/-!
# Disks of a profile

Extra disks are looked up among the items of some categories, and among the
items of a combination a disk is told by another pattern of categories. For every
family that takes extra disks the first pattern is contained in the second
(`ending_mono`, `numbered_of_upToEleven`), so each disk that is looked up is told
as one. `Rules.Recognizing` is what the rules of these families have in common.

The disks of a combination are then those of its slots and the extra ones behind
them. If the slots hold no disk but the primary one, that one is the first of the
volumes, and it is the only one that is left out of the additional disks, also
when it is an extra disk as well (`extra_disks_kept`). The others are listed
`Once`: entries of a catalog are told apart by their places, which amounts to
their ids there.
-/

namespace Provision

/-! ## Codes of disks -/

namespace Pattern

variable {c d : Cursor} {set : CharSet} {text : List Char} {s : String}

/-- A text and a character of a set after it. -/
def ending (text : List Char) (set : CharSet) : Pattern := sequence (literal text ++ [.char set])

/-- A text and a number after it. -/
def numbered (text : List Char) : Pattern := sequence (literal text ++ [many digits])

/-- A text and a number from one to eleven after it. -/
def upToEleven (text : List Char) : Pattern :=
  sequence (literal text ++ [.group 1 (.either (.char { ranges := [.between '1' '9'] })
    (sequence [.char (.single '1'), .char { ranges := [.single '0', .single '1'] }]))])

theorem parse_guestDisk : parse? "guest_disk[0-9]" = some (ending "guest_disk".toList digits) := by
  decide +kernel

theorem parse_guestExtra : parse? "guest_disk[1-5]"
    = some (ending "guest_disk".toList { ranges := [.between '1' '5'] }) := by
  decide +kernel

theorem parse_serverDisk : parse? "disk[0-9]+" = some (numbered "disk".toList) := by
  decide +kernel

theorem parse_serverExtra : parse? "disk([1-9]|1[01])" = some (upToEleven "disk".toList) := by
  decide +kernel

theorem matchesWhole_iff {p : Pattern} : p.matchesWhole s = true
    ↔ ∃ d, p.run (.start s) (fun c => if c.rest.isEmpty then some c else none) = some d :=
  Option.isSome_iff_exists

/-- What follows a literal text is matched with the rest. -/
theorem matchesWhole_literal_iff {p : Pattern} :
    (sequence (literal text ++ [p])).matchesWhole s = true
      ↔ ∃ ys d, s.toList = text ++ ys ∧ p.run ((Cursor.start s).past text)
        (fun c => if c.rest.isEmpty then some c else none) = some d := by
  simp only [matchesWhole_iff, run_sequence_append, run_literal_iff]
  constructor
  · rintro ⟨d, ys, hrest, hd⟩
    exact ⟨ys, d, hrest, hd⟩
  · rintro ⟨ys, d, hrest, hd⟩
    exact ⟨d, ys, hrest, hd⟩

theorem run_char_iff {α : Type} {k : Cursor → Option α} {a : α} :
    (Pattern.char set).run c k = some a
      ↔ ∃ x ys, c.rest = x :: ys ∧ set.contains x = true ∧ k (c.past [x]) = some a := by
  constructor
  · intro h
    obtain ⟨e, hstep, he⟩ := Option.bind_eq_some_iff.mp h
    obtain ⟨x, ys, hrest, hx, rfl⟩ := Cursor.step?_eq_some hstep
    exact ⟨x, ys, hrest, hx, he⟩
  · rintro ⟨x, ys, hrest, hx, hk⟩
    have hstep : c.step? set = some (c.past [x]) := by
      rw [Cursor.step?_cons hrest, if_pos hx]
    exact Option.bind_eq_some_iff.mpr ⟨_, hstep, hk⟩

theorem ending_iff : (ending text set).matchesWhole s = true
    ↔ ∃ x, set.contains x = true ∧ s.toList = text ++ [x] := by
  rw [ending, matchesWhole_literal_iff]
  simp only [run_char_iff, ended_iff]
  constructor
  · rintro ⟨ys, d, hline, x, zs, hrest, hx, hnone, -⟩
    rw [Cursor.past_rest hline] at hrest
    subst hrest
    rw [Cursor.past_cons_rest (Cursor.past_rest hline)] at hnone
    subst hnone
    exact ⟨x, hx, hline⟩
  · rintro ⟨x, hx, hline⟩
    have hrest : ((Cursor.start s).past text).rest = [x] := Cursor.past_rest hline
    exact ⟨[x], _, hline, x, [], hrest, hx, Cursor.past_cons_rest hrest, rfl⟩

theorem numbered_iff : (numbered text).matchesWhole s = true
    ↔ ∃ xs, xs ≠ [] ∧ (∀ x ∈ xs, digits.contains x = true) ∧ s.toList = text ++ xs := by
  have hbarred : Barred digits fun c : Cursor => if c.rest.isEmpty then some c else none := by
    intro d x ys hrest _
    simp [hrest]
  rw [numbered, matchesWhole_literal_iff]
  simp only [run_many_iff hbarred, ended_iff]
  constructor
  · rintro ⟨ys, d, hline, xs, zs, hne, hxs, hrest, hnone, -⟩
    rw [Cursor.past_rest hrest] at hnone
    subst hnone
    rw [Cursor.past_rest hline, List.append_nil] at hrest
    subst hrest
    exact ⟨ys, hne, hxs, hline⟩
  · rintro ⟨xs, hne, hxs, hline⟩
    have hrest : ((Cursor.start s).past text).rest = xs ++ [] := by
      rw [List.append_nil]
      exact Cursor.past_rest hline
    exact ⟨xs, _, hline, xs, [], hne, hxs, hrest, Cursor.past_rest hrest, rfl⟩

theorem ending_mono {other : CharSet} (h : ∀ x, set.contains x = true → other.contains x = true)
    (hs : (ending text set).matchesWhole s = true) : (ending text other).matchesWhole s = true := by
  obtain ⟨x, hx, hline⟩ := ending_iff.mp hs
  exact ending_iff.mpr ⟨x, h x hx, hline⟩

theorem contains_digits_of_between {low high x : Char} (hlow : 48 ≤ low.toNat)
    (hhigh : high.toNat ≤ 57)
    (hx : ({ ranges := [.between low high] } : CharSet).contains x = true) :
    digits.contains x = true := by
  have hbounds : low.toNat ≤ x.toNat ∧ x.toNat ≤ high.toNat := by
    simpa [CharSet.contains, CharSet.covers, CharRange.contains] using hx
  rw [contains_digits, isDigit_iff]
  omega

/-- Numbers from one to eleven are numbers. -/
theorem numbered_of_upToEleven (h : (upToEleven text).matchesWhole s = true) :
    (numbered text).matchesWhole s = true := by
  rw [upToEleven, matchesWhole_literal_iff] at h
  obtain ⟨ys, d, hline, hrun⟩ := h
  have hys : ((Cursor.start s).past text).rest = ys := Cursor.past_rest hline
  rw [numbered_iff]
  -- Closing the group leaves the rest of the text as it is.
  rcases of_orElse hrun with hone | htwo
  · obtain ⟨x, zs, hrest, hx, hend⟩ := run_char_iff.mp hone
    have hnone : (((Cursor.start s).past text).past [x]).rest = [] := (ended_iff.mp hend).1
    rw [Cursor.past_cons_rest hrest] at hnone
    subst hnone
    refine ⟨[x], List.cons_ne_nil _ _, ?_, ?_⟩
    · exact List.forall_mem_singleton.mpr
        (contains_digits_of_between (by decide) (by decide) hx)
    · rw [hline, ← hys, hrest]
  · rw [run_sequence_cons] at htwo
    obtain ⟨x, zs, hrest, hx, hnext⟩ := run_char_iff.mp htwo
    obtain ⟨y, ws, hrest', hy, hend⟩ := run_char_iff.mp hnext
    have hnone : ((((Cursor.start s).past text).past [x]).past [y]).rest = [] :=
      (ended_iff.mp hend).1
    rw [Cursor.past_cons_rest hrest'] at hnone
    subst hnone
    rw [Cursor.past_cons_rest hrest] at hrest'
    subst hrest'
    obtain rfl : x = '1' := by simpa using hx
    have hbit : y = '0' ∨ y = '1' := by
      simpa [CharSet.contains, CharSet.covers, CharRange.contains] using hy
    refine ⟨['1', y], List.cons_ne_nil _ _, ?_, ?_⟩
    · rcases hbit with rfl | rfl <;> exact List.all_eq_true.mp (by decide)
    · rw [hline, ← hys, hrest]

end Pattern

/-! ## Rules with extra disks -/

theorem Expression.pattern_of_ofText {text : String} {e : Expression} {p : Pattern}
    (h : Expression.ofText text = .ok e) (hp : Pattern.parse? text = some p) : e.pattern = p := by
  have hparses := e.parses
  rw [text_of_ofText h, hp] at hparses
  exact (Option.some.inj hparses).symm

theorem Expression.ofText_of_parse {text : String} {p : Pattern} (h : Pattern.parse? text = some p) :
    ∃ e, Expression.ofText text = .ok e ∧ e.pattern = p := by
  refine ⟨⟨text, p, h⟩, ?_, rfl⟩
  unfold ofText
  split
  · rename_i p' h'
    rw [h] at h'
    cases h'
    rfl
  · rename_i h'
    rw [h] at h'
    cases h'

theorem Expression.of_ofText?_ok {text : String} {found : Option Expression}
    (h : Expression.ofText? (some text) = .ok found) :
    ∃ e, Expression.ofText text = .ok e ∧ found = some e := by
  cases he : Expression.ofText text with
  | error fault =>
      rw [ofText?, he] at h
      cases h
  | ok e =>
      rw [ofText?, he] at h
      cases h
      exact ⟨e, rfl, rfl⟩

theorem Slot.source_of_make_ok {role : String} {category description : Option String}
    {optional : Bool} {slot : Slot} (h : Slot.make role category description optional = .ok slot) :
    slot.category = category ∧ Expression.ofText? description = .ok slot.description := by
  unfold Slot.make at h
  by_cases hsource : (category.isNone && description.isNone) = true
  · rw [if_pos hsource] at h
    cases h
  · rw [if_neg hsource] at h
    obtain ⟨e, hdescription, h⟩ := ok_of_bind h
    cases h
    exact ⟨rfl, hdescription⟩

namespace Rules

theorem disks_of_make_ok {slots : List Slot} {cpu : CpuRule} {settings : Settings} {rules : Rules}
    (h : Rules.make slots cpu settings = .ok rules) :
    Expression.ofText settings.disks = .ok rules.disks
      ∧ Expression.ofText? settings.extraDisks = .ok rules.extraDisks := by
  unfold Rules.make at h
  by_cases hroles : ((distinct (slots.map Slot.role)).length != (slots.map Slot.role).length) = true
  · simp only [if_pos hroles] at h
    cases h
  · simp only [if_neg hroles] at h
    obtain ⟨disks, hdisks, h⟩ := ok_of_bind h
    obtain ⟨extraDisks, hextra, h⟩ := ok_of_bind h
    cases h
    exact ⟨hdisks, hextra⟩

/-- A slot for the primary disk: it has to be filled, and its category is one of a disk. -/
structure DiskSlot (rules : Rules) (slot : Slot) : Prop where
  role : slot.role = "disk0"
  required : slot.optional = false
  category : ∃ code, slot.category = some code ∧ code ≠ "" ∧ rules.disks.accepts code = true

/-- Rules that know a disk by its categories wherever it comes from: as the primary disk, for which
there is one slot, or as one of the extra disks with these ids. -/
structure Recognizing (rules : Rules) (texts : List String) : Prop where
  slots : ∃ before slot after, rules.slots = before ++ slot :: after ∧ rules.DiskSlot slot
    ∧ ∀ other ∈ before ++ after, other.role ≠ "disk0"
  extra : ∃ e, rules.extraDisks = some e
    ∧ ∀ code, e.accepts code = true → rules.disks.accepts code = true
  texts : rules.extraDiskIds = texts

/-- How hardware ids are made has no part in it. -/
theorem Recognizing.withStrategy {rules : Rules} {texts : List String} (h : rules.Recognizing texts)
    (strategy : HardwareIdStrategy) : { rules with strategy : Rules }.Recognizing texts := by
  obtain ⟨⟨before, slot, after, hslots, hslot, hothers⟩, hextra, htexts⟩ := h
  exact ⟨⟨before, slot, after, hslots, ⟨hslot.role, hslot.required, hslot.category⟩, hothers⟩,
    hextra, htexts⟩

end Rules

namespace FamilySpec

variable {τ : Type} {c : Config τ} {rules : Rules}

theorem guestRules_recognizing (h : guestRules c = .ok rules) :
    rules.Recognizing (Price.idTexts c.externalDiskIds) := by
  obtain ⟨parts⟩ := guestParts h
  obtain ⟨hcpu, hram, hdisk, huplink, hbandwidth⟩ := parts.roles
  obtain ⟨hslots, -, hids, -⟩ := Rules.of_make_ok parts.made
  obtain ⟨hdisks, hextra⟩ := Rules.disks_of_make_ok parts.made
  obtain ⟨e, he, hextra⟩ := Expression.of_ofText?_ok hextra
  have hpattern : rules.disks.pattern = .ending "guest_disk".toList Pattern.digits :=
    Expression.pattern_of_ofText hdisks Pattern.parse_guestDisk
  refine ⟨⟨[parts.cpu, parts.ram], parts.disk, [parts.uplink, parts.bandwidth], hslots,
    ⟨hdisk, ?_, "guest_disk0", ?_, ?_, ?_⟩, ?_⟩, ⟨e, hextra, fun code hcode => ?_⟩, hids⟩
  · exact (Slot.of_make_ok parts.disk_made).2
  · exact (Slot.source_of_make_ok parts.disk_made).1
  · decide
  · rw [Expression.accepts, hpattern]
    decide
  · simp only [List.cons_append, List.nil_append, List.forall_mem_cons, hcpu, hram, huplink,
      hbandwidth]
    decide
  · rw [Expression.accepts, Expression.pattern_of_ofText he Pattern.parse_guestExtra] at hcode
    rw [Expression.accepts, hpattern]
    refine Pattern.ending_mono (fun x hx => ?_) hcode
    exact Pattern.contains_digits_of_between (by decide) (by decide) hx

theorem dualXeonRules_recognizing (h : dualXeonRules c = .ok rules) :
    rules.Recognizing (Price.idTexts c.externalDiskIds) := by
  obtain ⟨slots, hmade, h⟩ := ok_of_bind h
  obtain ⟨hslots, -, hids, -⟩ := Rules.of_make_ok h
  obtain ⟨hdisks, hextra⟩ := Rules.disks_of_make_ok h
  obtain ⟨e, he, hextra⟩ := Expression.of_ofText?_ok hextra
  have hpattern : rules.disks.pattern = .numbered "disk".toList :=
    Expression.pattern_of_ofText hdisks Pattern.parse_serverDisk
  have hpairs := forall₂_of_mapM_ok (R := fun (pair : String × String) slot =>
    (slot.role = pair.1 ∧ slot.optional = false) ∧ slot.category = some pair.2)
    (fun _ _ hslot => ⟨Slot.of_make_ok hslot, (Slot.source_of_make_ok hslot).1⟩) hmade
  simp only [List.forall₂_cons_left_iff, List.forall₂_nil_left_iff] at hpairs
  obtain ⟨cpu, _, hcpu, ⟨ram, _, hram, ⟨disk, _, hdisk, ⟨uplink, _, huplink, ⟨bandwidth, _,
    hbandwidth, rfl, rfl⟩, rfl⟩, rfl⟩, rfl⟩, rfl⟩ := hpairs
  refine ⟨⟨[cpu, ram], disk, [uplink, bandwidth], hslots, ⟨hdisk.1.1, hdisk.1.2, "disk0", hdisk.2,
    by decide, ?_⟩, ?_⟩, ⟨e, hextra, fun code hcode => ?_⟩, hids⟩
  · rw [Expression.accepts, hpattern]
    decide
  · simp only [List.cons_append, List.nil_append, List.forall_mem_cons, hcpu.1.1, hram.1.1,
      huplink.1.1, hbandwidth.1.1]
    decide
  · rw [Expression.accepts, Expression.pattern_of_ofText he Pattern.parse_serverExtra] at hcode
    rw [Expression.accepts, hpattern]
    exact Pattern.numbered_of_upToEleven hcode

/-- The families that take extra disks know them all. -/
theorem supported_recognizing [Duration τ] {specs : List (FamilySpec τ)}
    (hspecs : supported c = .ok specs) {spec : FamilySpec τ} (hspec : spec ∈ specs)
    (hfamily : spec.family ∈ [46, 42, 44]) :
    spec.rules.Recognizing (Price.idTexts c.externalDiskIds) := by
  obtain ⟨s, hbuilt, hconfigured⟩ := mem_supported hspecs hspec
  obtain ⟨policies, -, rfl⟩ := of_configured_ok hconfigured
  show s.rules.Recognizing _
  have hfamily : s.family = 46 ∨ s.family = 42 ∨ s.family = 44 := by simpa using hfamily
  rcases built_of_builders hbuilt with h | h | h | h
  · obtain ⟨rules, strategy, hrules, heq⟩ := h.rules
    rw [heq]
    exact (guestRules_recognizing hrules).withStrategy strategy
  · have hother : s.family = 50 := by simpa using h.family
    omega
  · have hother : s.family = 23 ∨ s.family = 142 := by simpa using h.family
    omega
  · obtain ⟨rules, strategy, hrules, heq⟩ := h.rules
    rw [heq]
    exact (dualXeonRules_recognizing hrules).withStrategy strategy

end FamilySpec

/-! ## Entries of a catalog -/

namespace Catalog

/-- In one catalog, to be the same entry is to have the same id. -/
theorem isEntry_eq {listing : List Item} {a b : Item} (ha : a ∈ (ofItems listing).items)
    (hb : b ∈ (ofItems listing).items) : a.isEntry b = (a.id == b.id) := by
  have hplaces : ((ofItems listing).items.map Item.place).Nodup :=
    (List.pairwise_map.mpr (scan_items listing).ordered).imp Nat.ne_of_lt
  rw [Item.isEntry, Bool.eq_iff_iff, beq_iff_eq, beq_iff_eq]
  constructor
  · intro hplace
    rw [List.inj_on_of_nodup_map hplaces ha hb hplace]
  · intro hid
    rw [List.inj_on_of_nodup_map (nodup_ids listing) ha hb hid]

end Catalog

/-- Each of some disks once, in the order in which they first occur. -/
structure Once (disks found : List Item) : Prop where
  mem_iff : ∀ disk, disk ∈ found ↔ disk ∈ disks
  nodup : (found.map Item.id).Nodup
  ordered : found.Pairwise fun a b =>
    (disks.map Item.id).idxOf a.id < (disks.map Item.id).idxOf b.id

/-- The role that was given last counts. -/
theorem Roles.item?_append {earlier later : Roles} {role : String} {item : Item}
    (h : later.item? role = some item) : (earlier ++ later : Roles).item? role = some item := by
  obtain ⟨entry, hfind, hentry⟩ := Option.map_eq_some_iff.mp h
  unfold Roles.item?
  rw [List.reverse_append, List.find?_append, hfind, Option.some_or, Option.map_some, hentry]

namespace Rules

variable {rules : Rules} {family : Int} {listing : List Item}

theorem entriesFrom_eq {seen items : List Item}
    (hseen : ∀ item ∈ seen, item ∈ (Catalog.ofItems listing).items)
    (hitems : ∀ item ∈ items, item ∈ (Catalog.ofItems listing).items) :
    entriesFrom seen items = Item.firstsFrom (seen.map Item.id) items := by
  induction items generalizing seen with
  | nil => rfl
  | cons item rest ih =>
      obtain ⟨hitem, hrest⟩ := List.forall_mem_cons.mp hitems
      have hknown : seen.any item.isEntry = (seen.map Item.id).contains item.id := by
        rw [Bool.eq_iff_iff, List.any_eq_true, List.contains_iff_mem, List.mem_map]
        refine exists_congr fun other => and_congr_right fun hother => ?_
        rw [Catalog.isEntry_eq hitem (hseen other hother), beq_iff_eq, eq_comm]
      rw [entriesFrom, Item.firstsFrom, hknown, ih hseen hrest,
        ih (List.forall_mem_cons.mpr ⟨hitem, hseen⟩) hrest]
      rfl

/-- Entries of a catalog that are told apart by their places are just told apart by their ids. -/
theorem once_entries {disks : List Item}
    (h : ∀ disk ∈ disks, disk ∈ (Catalog.ofItems listing).items) :
    Once disks (entriesFrom [] disks) := by
  have hseen : ∀ item ∈ ([] : List Item), item ∈ (Catalog.ofItems listing).items := fun _ => nofun
  have hfirsts : entriesFrom [] disks = Item.firsts disks := entriesFrom_eq hseen h
  rw [hfirsts]
  refine ⟨fun disk => ?_, Item.nodup_map_id_firsts disks, ?_⟩
  · constructor
    · exact fun hmem => (Item.firsts_sublist disks).subset hmem
    · intro hdisk
      obtain ⟨first, hfirst, hid⟩ := Item.exists_first hdisk
      have hmem := (Item.firsts_sublist disks).subset hfirst
      rwa [← List.inj_on_of_nodup_map (Catalog.nodup_ids listing) (h first hmem) (h disk hdisk) hid]
  · have hids := distinct_pairwise (disks.map Item.id)
    rw [← Item.map_id_firsts, List.pairwise_map] at hids
    exact hids

theorem isDisk_of_mem {catalog : Catalog} {texts : List String} (hrules : rules.Recognizing texts)
    {disks : List Item} (h : rules.extraDiskItems family catalog = .ok disks) :
    ∀ disk ∈ disks, rules.isDisk disk = true := by
  intro disk hdisk
  rcases found_of_extraDiskItems h with ⟨-, rfl⟩ | ⟨e, hextra, hfound⟩
  · cases hdisk
  · obtain ⟨e', hextra', hcontained⟩ := hrules.extra
    obtain rfl : e = e' := Option.some.inj (hextra.symm.trans hextra')
    obtain ⟨text, -, hpool⟩ := exists_of_forall₂ hfound hdisk
    obtain ⟨code, hcode, haccepts⟩ :=
      List.any_eq_true.mp (List.mem_filter.mp (mem_of_findConfigured hpool)).2
    exact List.any_eq_true.mpr ⟨code, hcode, hcontained code haccepts⟩

theorem DiskSlot.isDisk {slot : Slot} (h : rules.DiskSlot slot) {item : Item}
    (hitem : item ∈ slot.candidates (.ofItems listing)) : rules.isDisk item = true := by
  obtain ⟨code, hcategory, hnonempty, haccepts⟩ := h.category
  have hbucket : item ∈ (Catalog.ofItems listing).inCategory code := by
    unfold Slot.candidates at hitem
    rw [hcategory] at hitem
    simp only [beq_iff_eq, if_neg hnonempty] at hitem
    cases hdescription : slot.description with
    | none =>
        rw [hdescription] at hitem
        exact hitem
    | some e =>
        rw [hdescription] at hitem
        exact (List.mem_filter.mp hitem).1
  rw [Catalog.inCategory_ofItems, List.mem_filter] at hbucket
  exact List.any_eq_true.mpr ⟨code, List.contains_iff_mem.mp hbucket.2, haccepts⟩

/-! ## The disks of a combination -/

/-- Nothing that was chosen for another slot than that of the primary disk is a disk. -/
def Apart (rules : Rules) (c : List (Option Item)) : Prop :=
  ∀ slot item, (slot, some item) ∈ rules.slots.zip c → slot.role ≠ "disk0" →
    rules.isDisk item = false

theorem disksOf_chosen {slots : List Slot} {c : List (Option Item)}
    (hlength : c.length = slots.length)
    (h : ∀ slot item, (slot, some item) ∈ slots.zip c → rules.isDisk item = false) :
    rules.disksOf (chosenItems c) = [] := by
  rw [disksOf, List.filter_eq_nil_iff]
  intro item hitem
  obtain ⟨_, hmem, rfl⟩ := List.mem_filterMap.mp hitem
  rw [← List.map_snd_zip hlength.le, List.mem_map] at hmem
  obtain ⟨⟨slot, _⟩, hpair, rfl⟩ := hmem
  rw [h slot item hpair]
  exact Bool.false_ne_true

/-- The item for the primary disk is where its slot is. -/
theorem split_at_disk {slots before after : List Slot} {slot : Slot} {c : List (Option Item)}
    {catalog : Catalog} (hslots : slots = before ++ slot :: after)
    (hc : List.Forall₂ (· ∈ ·) c (slots.map (Slot.fillings catalog)))
    (hfilled : slot.candidates catalog ≠ []) :
    ∃ c₁ primary c₂, c = c₁ ++ some primary :: c₂ ∧ c₁.length = before.length
      ∧ c₂.length = after.length ∧ primary ∈ slot.candidates catalog := by
  rw [hslots, List.map_append, List.map_cons] at hc
  have hbefore := List.forall₂_take_append c _ _ hc
  have hafter := List.forall₂_drop_append c _ _ hc
  have hsplit := (List.take_append_drop (before.map (Slot.fillings catalog)).length c).symm
  cases hdrop : c.drop (before.map (Slot.fillings catalog)).length with
  | nil =>
      rw [hdrop] at hafter
      cases hafter
  | cons x c₂ =>
      rw [hdrop] at hafter hsplit
      cases hafter with
      | cons hx htail =>
          rw [Slot.fillings_of_ne_nil hfilled] at hx
          obtain ⟨primary, hprimary, rfl⟩ := List.mem_map.mp hx
          refine ⟨_, primary, c₂, hsplit, ?_, ?_, hprimary⟩
          · simpa using hbefore.length_eq
          · simpa using htail.length_eq

theorem disks_of_buildProfile {items : List Item} {roles : Roles} {profile : Profile}
    (h : rules.buildProfile family items roles = .ok profile) :
    profile.volumes = (rules.disksOf items).map rules.volume
      ∧ profile.additionalDisks = rules.additionalDisks items (roles.item? "disk0") := by
  obtain ⟨cpu, -, h⟩ := ok_of_bind h
  obtain ⟨ram, -, h⟩ := ok_of_bind h
  obtain ⟨id, -, h⟩ := ok_of_bind h
  obtain ⟨template, -, h⟩ := ok_of_bind h
  cases h
  exact ⟨rfl, rfl⟩

/-- A required slot of an enumeration with profiles has candidates. -/
theorem filled_of_mem_enumerate {catalog : Catalog} {profile : Profile}
    (h : profile ∈ (rules.enumerate family catalog).profiles) {slot : Slot}
    (hslot : slot ∈ rules.slots) (hrequired : slot.optional = false) :
    slot.candidates catalog ≠ [] := by
  intro hnone
  unfold enumerate at h
  rw [choices_eq] at h
  cases hvacant : rules.slots.find? (·.isVacant catalog) with
  | some other =>
      rw [hvacant] at h
      cases h
  | none =>
      exact List.find?_eq_none.mp hvacant slot hslot (Slot.isVacant_iff.mpr ⟨hrequired, hnone⟩)

section Split

variable {before after : List Slot} {slot : Slot} {c₁ c₂ : List (Option Item)} {primary : Item}

theorem zip_split (hlength : c₁.length = before.length) :
    (before ++ slot :: after).zip (c₁ ++ some primary :: c₂)
      = before.zip c₁ ++ (slot, some primary) :: after.zip c₂ := by
  rw [List.zip_append hlength.symm, List.zip_cons_cons]

theorem item?_split (hlength : c₁.length = before.length)
    (hothers : ∀ other ∈ after, other.role ≠ slot.role) :
    (chosenRoles (before ++ slot :: after) (c₁ ++ some primary :: c₂)).item? slot.role
      = some primary := by
  have hroles : chosenRoles (before ++ slot :: after) (c₁ ++ some primary :: c₂)
      = chosenRoles before c₁ ++ chosenRoles (slot :: after) (some primary :: c₂) := by
    rw [chosenRoles, zip_split hlength, List.filterMap_append]
    rfl
  rw [hroles]
  exact Roles.item?_append (item?_chosenRoles hothers primary c₂)

theorem disksOf_split (hslots : rules.slots = before ++ slot :: after)
    (hbefore : c₁.length = before.length) (hafter : c₂.length = after.length)
    (hothers : ∀ other ∈ before ++ after, other.role ≠ "disk0")
    (hapart : rules.Apart (c₁ ++ some primary :: c₂)) (hprimary : rules.isDisk primary = true) :
    rules.disksOf (chosenItems (c₁ ++ some primary :: c₂)) = [primary] := by
  unfold Apart at hapart
  rw [hslots, zip_split hbefore] at hapart
  have hnone₁ : rules.disksOf (chosenItems c₁) = [] := by
    refine disksOf_chosen hbefore fun other item hpair => ?_
    refine hapart other item (List.mem_append_left _ hpair) ?_
    exact hothers other (List.mem_append_left _ (List.of_mem_zip hpair).1)
  have hnone₂ : rules.disksOf (chosenItems c₂) = [] := by
    refine disksOf_chosen hafter fun other item hpair => ?_
    refine hapart other item (List.mem_append_right _ (List.mem_cons_of_mem _ hpair)) ?_
    exact hothers other (List.mem_append_right _ (List.of_mem_zip hpair).1)
  have hchosen : chosenItems (c₁ ++ some primary :: c₂)
      = chosenItems c₁ ++ primary :: chosenItems c₂ := by
    simp [chosenItems]
  unfold disksOf at hnone₁ hnone₂ ⊢
  rw [hchosen, List.filter_append, List.filter_cons_of_pos hprimary, hnone₁, hnone₂,
    List.nil_append]

end Split

/-- The disks of a combination are the primary one and the extra ones, if nothing else is one. -/
theorem disks_of_combination {texts : List String} (hrules : rules.Recognizing texts)
    {disks controller : List Item} {c : List (Option Item)} {profile : Profile}
    (hfilled : ∀ slot ∈ rules.slots, slot.optional = false → slot.candidates (.ofItems listing) ≠ [])
    (hdisks : rules.extraDiskItems family (.ofItems listing) = .ok disks)
    (hc : List.Forall₂ (· ∈ ·) c (rules.slots.map (Slot.fillings (.ofItems listing))))
    (houtcome : rules.outcome family (disks ++ controller) c = .ok profile) (hapart : rules.Apart c)
    (hcontroller : ∀ item ∈ controller, rules.isDisk item = false) :
    ∃ primary, (chosenRoles rules.slots c).item? "disk0" = some primary
      ∧ profile.volumes = (primary :: disks).map rules.volume
      ∧ profile.additionalDisks = entriesFrom [] disks := by
  obtain ⟨before, slot, after, hslots, hslot, hothers⟩ := hrules.slots
  have hmem : slot ∈ rules.slots := by simp [hslots]
  obtain ⟨c₁, primary, c₂, rfl, hbefore, hafter, hprimary⟩ :=
    split_at_disk hslots hc (hfilled slot hmem hslot.required)
  have hrole : (chosenRoles rules.slots (c₁ ++ some primary :: c₂)).item? "disk0"
      = some primary := by
    rw [hslots, ← hslot.role]
    refine item?_split hbefore fun other hother => ?_
    rw [hslot.role]
    exact hothers other (List.mem_append_right _ hother)
  have hchosen : rules.disksOf (chosenItems (c₁ ++ some primary :: c₂)) = [primary] :=
    disksOf_split hslots hbefore hafter hothers hapart (hslot.isDisk hprimary)
  have hextra : rules.disksOf disks = disks :=
    List.filter_eq_self.mpr (isDisk_of_mem hrules hdisks)
  have hnone : rules.disksOf controller = [] := by
    rw [disksOf, List.filter_eq_nil_iff]
    intro item hitem
    rw [hcontroller item hitem]
    exact Bool.false_ne_true
  have hall : rules.disksOf (chosenItems (c₁ ++ some primary :: c₂) ++ (disks ++ controller))
      = primary :: disks := by
    unfold disksOf at hchosen hextra hnone ⊢
    rw [List.filter_append, List.filter_append, hchosen, hextra, hnone, List.append_nil,
      List.singleton_append]
  obtain ⟨hvolumes, hadditional⟩ := disks_of_buildProfile houtcome
  have hself : primary.isEntry primary = true := by simp [Item.isEntry]
  refine ⟨primary, hrole, ?_, ?_⟩
  · rw [hvolumes, hall]
  · rw [hadditional, hrole, additionalDisks, hall]
    simp only [withoutFirst, hself, if_true]

/-- To keep disks apart it is enough that no candidate for another slot is one. -/
theorem apart_of_candidates {catalog : Catalog}
    (h : ∀ slot ∈ rules.slots, slot.role ≠ "disk0" → ∀ item ∈ slot.candidates catalog,
      rules.isDisk item = false) {c : List (Option Item)}
    (hc : List.Forall₂ (· ∈ ·) c (rules.slots.map (Slot.fillings catalog))) : rules.Apart c := by
  intro slot item hpair hrole
  have hfills : some item ∈ slot.fillings catalog :=
    (List.forall₂_iff_zip.mp (List.forall₂_map_right_iff.mp hc).flip).2 hpair
  refine h slot (List.of_mem_zip hpair).1 hrole item ?_
  by_cases hnone : slot.candidates catalog = []
  · rw [Slot.fillings_of_nil hnone, List.mem_singleton] at hfills
    cases hfills
  · rw [Slot.fillings_of_ne_nil hnone, List.mem_map] at hfills
    obtain ⟨_, hmem, ⟨⟩⟩ := hfills
    exact hmem

end Rules

namespace FamilySpec

variable {τ : Type} [Duration τ] {c : Config τ}

/-- **No extra disk is lost.** In the families that take extra disks, a profile completes some
combination by the extra disks, each found by its configured id, and by the controller. If nothing
else that was chosen is a disk, and no controller is one, the volumes are the primary disk and then
all extra disks as they are configured; and the additional disks are the extra ones, each once. The
primary disk may be an extra one as well. -/
theorem extra_disks_kept {specs : List (FamilySpec τ)} (hspecs : supported c = .ok specs)
    {spec : FamilySpec τ} (hspec : spec ∈ specs) (hfamily : spec.family ∈ [46, 42, 44])
    {listing : List Item} {profile : Profile}
    (hprofile : profile ∈ (spec.rules.enumerate spec.family (.ofItems listing)).profiles) :
    let rules := spec.rules
    let catalog := Catalog.ofItems listing
    ∃ e disks controller, rules.extraDisks = some e
      ∧ rules.extraDiskItems spec.family catalog = .ok disks
      ∧ rules.controllerItems spec.family catalog = .ok controller
      ∧ List.Forall₂ (fun text disk => Rules.findConfigured spec.family text
          (catalog.inCategoriesMatching e.pattern) = .ok (some disk))
          (Price.idTexts c.externalDiskIds) disks
      ∧ let describes (chosen : List (Option Item)) : Prop :=
          List.Forall₂ (· ∈ ·) chosen (rules.slots.map (Slot.fillings catalog))
            ∧ rules.outcome spec.family (disks ++ controller) chosen = .ok profile
        (∃ chosen, describes chosen)
        ∧ ∀ chosen, describes chosen → rules.Apart chosen →
          (∀ item ∈ controller, rules.isDisk item = false) →
          ∃ primary, (Rules.chosenRoles rules.slots chosen).item? "disk0" = some primary
            ∧ profile.volumes = (primary :: disks).map rules.volume
            ∧ Once disks profile.additionalDisks := by
  intro rules catalog
  have hrules : rules.Recognizing (Price.idTexts c.externalDiskIds) :=
    supported_recognizing hspecs hspec hfamily
  obtain ⟨disks, controller, chosen, hdisks, hcontroller, hchosen, houtcome⟩ :=
    Rules.of_mem_enumerate hprofile
  obtain ⟨e, hextra, -⟩ := hrules.extra
  refine ⟨e, disks, controller, hextra, hdisks, hcontroller, ?_, ⟨chosen, hchosen, houtcome⟩, ?_⟩
  · rw [← hrules.texts]
    rcases Rules.found_of_extraDiskItems hdisks with ⟨hnone, rfl⟩ | ⟨e', hextra', hfound⟩
    · rw [show spec.rules.extraDiskIds = [] from hnone]
      exact .nil
    · obtain rfl : e' = e := Option.some.inj (hextra'.symm.trans hextra)
      exact hfound
  · rintro other ⟨hother, hsame⟩ hapart hcontrols
    obtain ⟨primary, hprimary, hvolumes, hadditional⟩ :=
      Rules.disks_of_combination hrules
        (fun slot hslot hrequired => Rules.filled_of_mem_enumerate hprofile hslot hrequired)
        hdisks hother hsame hapart hcontrols
    refine ⟨primary, hprimary, hvolumes, ?_⟩
    rw [hadditional]
    exact Rules.once_entries (Rules.mem_of_extraDiskItems hdisks)

/-- A listing for servers with a disk that can be the primary one and an extra one. -/
def twinListing : List Item :=
  [{ id := 1, categories := ["server"], prices := [11] },
    { id := 2, categories := ["ram"], prices := [12] },
    { id := 3, description := "250GB SATA II", categories := ["disk0", "disk1"], prices := [13] },
    { id := 4, categories := ["port_speed"], prices := [14] },
    { id := 5, description := "100 GB (SAN)", categories := ["disk2", "disk10"], prices := [15] },
    { id := 6, categories := ["bandwidth"], prices := [16] },
    { id := 487, categories := ["disk_controller"], prices := [17] }]

/-- That disk is configured, between two of another kind. -/
def twinConfig : Config Rat := { Config.usual with externalDiskIds := "5,3,5" }

/-- Whether the disks are kept apart from everything else, and the ids of volumes and additional
disks by profile. -/
def twinDisks (specs : List (FamilySpec Rat)) : Option (Bool × List (List Int × List Int)) := do
  let spec ← specs.find? (·.family == 42)
  let catalog := Catalog.ofItems twinListing
  let plain (items : List Item) : Bool := items.all fun item => !spec.rules.isDisk item
  let chosen := spec.rules.slots.all fun slot => slot.role == "disk0" || plain (slot.candidates catalog)
  let controls := (spec.rules.controllerItems spec.family catalog).toOption.any plain
  pure (chosen && controls, (spec.rules.enumerate spec.family catalog).profiles.map fun profile =>
    (profile.volumes.map Volume.item, profile.additionalDisks.map Item.id))

theorem twinDisks_eq : (supported twinConfig).toOption.bind twinDisks
    = some (true, [([3, 5, 3, 5], [5, 3])]) := by
  decide +kernel

/-- The primary disk is configured as an extra one as well, and the other extra one twice. -/
theorem extra_disks_kept_twin :
    ∃ specs, supported twinConfig = .ok specs ∧ ∃ spec ∈ specs, spec.family = 42
      ∧ ∃ profile ∈ (spec.rules.enumerate spec.family (.ofItems twinListing)).profiles,
        ∃ primary disks, profile.volumes = (primary :: disks).map spec.rules.volume
          ∧ Once disks profile.additionalDisks
          ∧ profile.volumes.map Volume.item = [3, 5, 3, 5]
          ∧ profile.additionalDisks.map Item.id = [5, 3] := by
  obtain ⟨specs, hspecs, htwin⟩ := Option.bind_eq_some_iff.mp twinDisks_eq
  obtain ⟨spec, hspec, htwin⟩ := Option.bind_eq_some_iff.mp htwin
  simp only [Option.pure_def, Option.some.injEq, Prod.mk.injEq, Bool.and_eq_true,
    List.all_eq_true, Bool.or_eq_true, beq_iff_eq, Bool.not_eq_true'] at htwin
  obtain ⟨⟨hchosen, hcontrols⟩, hprofiles⟩ := htwin
  obtain ⟨profile, hsingle, hids⟩ := List.map_eq_singleton_iff.mp hprofiles
  have hprofile : profile ∈ (spec.rules.enumerate spec.family (.ofItems twinListing)).profiles := by
    rw [hsingle]
    exact List.mem_singleton_self profile
  have hfamily : spec.family = 42 := by simpa using List.find?_some hspec
  obtain ⟨e, disks, controller, -, -, hcontroller, -, ⟨chosen, hdescribes⟩, hkept⟩ :=
    extra_disks_kept (ok_of_toOption hspecs) (List.mem_of_find?_eq_some hspec)
      (by rw [hfamily]; decide) hprofile
  have hapart : spec.rules.Apart chosen := by
    refine Rules.apart_of_candidates (fun slot hslot hrole => ?_) hdescribes.1
    exact (hchosen slot hslot).resolve_left hrole
  rw [hcontroller] at hcontrols
  obtain ⟨primary, -, hvolumes, honce⟩ :=
    hkept chosen hdescribes hapart (by simpa [Except.toOption] using hcontrols)
  exact ⟨specs, ok_of_toOption hspecs, spec, List.mem_of_find?_eq_some hspec, hfamily, profile,
    hprofile, primary, disks, hvolumes, honce, (Prod.mk.inj hids).1, (Prod.mk.inj hids).2⟩

end FamilySpec

end Provision
