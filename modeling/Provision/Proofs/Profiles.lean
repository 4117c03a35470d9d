import Provision.Catalog.Enumeration
import Provision.Proofs.Families
import Provision.Proofs.Processors

/-!
# Profiles of a catalog

A combination whose failure can only be skipped never keeps the enumeration
from the combinations after it (`profilesOf_exhausts`), and any other failure
ends it (`profilesOf_failure_iff`). Prices, memory and hardware id always fail
in the first way, so the processor decides (`buildProfile_skippable_iff`). The
rules of the supported families put the processor in front and read it by a
standard rule (`supported_plain`). Hence an enumeration fails just if one of the
candidates for the processor has a garbled line (`enumerate_exhausts_iff`).
-/

namespace Provision

/-! ## Prices and memory -/

theorem Item.firstPrice_skippable (item : Item) : Skippable item.firstPrice := by
  unfold Item.firstPrice
  cases item.prices with
  | nil => exact skippable_resolution _
  | cons price more => exact skippable_ok price

theorem Price.template_skippable (items : List Item) : Skippable (Price.template items) :=
  (skippable_map_iff _).mpr (skippable_mapM Item.firstPrice_skippable items)

theorem Price.allCombinations_skippable (items : List Item) :
    Skippable (Price.allCombinations items) := by
  refine (skippable_map_iff _).mpr ?_
  unfold Price.combinations
  by_cases hnone : items.isEmpty = true
  · rw [if_pos hnone]
    exact skippable_ok []
  · rw [if_neg hnone]
    cases hfind : (Item.firsts items).find? (·.prices.isEmpty) with
    | some item =>
        simp only [hfind]
        exact skippable_resolution _
    | none =>
        simp only [hfind]
        exact skippable_ok _

namespace Rules

variable {rules : Rules}

theorem ramOf_skippable (cpu : Cpu) (roles : Roles) : Skippable (rules.ramOf cpu roles) := by
  unfold ramOf
  by_cases hcpu : rules.ramFromCpu = true
  · rw [if_pos hcpu]
    exact skippable_ok _
  · rw [if_neg hcpu]
    cases roles.item? "ram" with
    | none => exact skippable_resolution _
    | some item => exact skippable_ok _

theorem hardwareId_skippable (items : List Item) : Skippable (rules.hardwareId items) := by
  unfold hardwareId
  cases rules.strategy with
  | single => exact Price.template_skippable items
  | multi => exact Price.allCombinations_skippable items

/-- Only the processor can make more trouble than that. -/
theorem buildProfile_skippable_iff (family : Int) (items : List Item) (roles : Roles) :
    Skippable (rules.buildProfile family items roles)
      ↔ Skippable (rules.cpu.describe (roles.item? "cpu")) := by
  refine skippable_bind_iff fun cpu => ?_
  refine (skippable_bind_iff fun ram => ?_).mpr (ramOf_skippable cpu roles)
  refine (skippable_bind_iff fun id => ?_).mpr (hardwareId_skippable items)
  exact (skippable_bind_iff fun template => skippable_ok _).mpr (Price.template_skippable items)

/-! ## What comes of a combination -/

def outcome (rules : Rules) (family : Int) (extras : List Item) (combination : List (Option Item)) :
    Except Fault Profile :=
  rules.buildProfile family (chosenItems combination ++ extras)
    (chosenRoles rules.slots combination)

/-- The profile of a combination, unless it is skipped. -/
def yielded? (rules : Rules) (family : Int) (extras : List Item)
    (combination : List (Option Item)) : Option Profile :=
  (rules.outcome family extras combination).toOption

/-- The record of a combination that is skipped. -/
def skipped? (rules : Rules) (family : Int) (extras : List Item)
    (combination : List (Option Item)) : Option Log.Record :=
  match rules.outcome family extras combination with
  | .error (.resolution cause) => some (skipRecord family (chosenItems combination ++ extras) cause)
  | _ => none

variable {family : Int} {extras : List Item} {combination : List (Option Item)}

/-- A combination is either yielded or skipped, or it ends the enumeration. -/
theorem yielded_or_skipped (h : Skippable (rules.outcome family extras combination)) :
    (rules.yielded? family extras combination).isSome
      = !(rules.skipped? family extras combination).isSome := by
  unfold yielded? skipped?
  cases houtcome : rules.outcome family extras combination with
  | ok profile => rfl
  | error fault =>
      obtain ⟨cause, rfl⟩ := h fault houtcome
      rfl

/-- An enumeration that went through all combinations: each of them was yielded or skipped. -/
structure Exhausts (rules : Rules) (family : Int) (extras : List Item)
    (combinations : List (List (Option Item))) (e : Enumeration) : Prop where
  failure : e.failure = none
  profiles : e.profiles = combinations.filterMap (rules.yielded? family extras)
  log : e.log = combinations.filterMap (rules.skipped? family extras)
  each : ∀ combination ∈ combinations, (rules.yielded? family extras combination).isSome
    = !(rules.skipped? family extras combination).isSome

theorem profilesOf_cons (combination : List (Option Item)) (rest : List (List (Option Item))) :
    rules.profilesOf family extras (combination :: rest)
      = match rules.outcome family extras combination with
        | .ok profile =>
          let e := rules.profilesOf family extras rest
          { e with profiles := profile :: e.profiles }
        | .error (.resolution cause) =>
          let e := rules.profilesOf family extras rest
          { e with log := skipRecord family (chosenItems combination ++ extras) cause :: e.log }
        | .error fault => { failure := some fault } := rfl

theorem yielded?_of_ok {profile : Profile}
    (h : rules.outcome family extras combination = .ok profile) :
    rules.yielded? family extras combination = some profile := by
  unfold yielded?
  rw [h]
  rfl

theorem skipped?_of_ok {profile : Profile}
    (h : rules.outcome family extras combination = .ok profile) :
    rules.skipped? family extras combination = none := by
  unfold skipped?
  rw [h]

theorem yielded?_of_error {fault : Fault}
    (h : rules.outcome family extras combination = .error fault) :
    rules.yielded? family extras combination = none := by
  unfold yielded?
  rw [h]
  rfl

theorem skipped?_of_resolution {cause : ResolutionFault}
    (h : rules.outcome family extras combination = .error (.resolution cause)) :
    rules.skipped? family extras combination
      = some (skipRecord family (chosenItems combination ++ extras) cause) := by
  unfold skipped?
  rw [h]

/-- Combinations that are yielded or skipped leave those behind them as they are. -/
theorem profilesOf_append {through : List (List (Option Item))}
    (h : ∀ combination ∈ through, Skippable (rules.outcome family extras combination))
    (rest : List (List (Option Item))) :
    rules.profilesOf family extras (through ++ rest)
      = { profiles := through.filterMap (rules.yielded? family extras)
            ++ (rules.profilesOf family extras rest).profiles
          log := through.filterMap (rules.skipped? family extras)
            ++ (rules.profilesOf family extras rest).log
          failure := (rules.profilesOf family extras rest).failure } := by
  induction through with
  | nil => rfl
  | cons combination more ih =>
      obtain ⟨hfirst, hmore⟩ := List.forall_mem_cons.mp h
      rw [List.cons_append, profilesOf_cons, ih hmore]
      cases houtcome : rules.outcome family extras combination with
      | ok profile =>
          rw [List.filterMap_cons_some (yielded?_of_ok houtcome),
            List.filterMap_cons_none (skipped?_of_ok houtcome)]
          rfl
      | error fault =>
          obtain ⟨cause, rfl⟩ := hfirst fault houtcome
          rw [List.filterMap_cons_none (yielded?_of_error houtcome),
            List.filterMap_cons_some (skipped?_of_resolution houtcome)]
          rfl

/-- The enumeration goes through all combinations, unless one of them ends it. -/
theorem profilesOf_exhausts {combinations : List (List (Option Item))}
    (h : ∀ combination ∈ combinations, Skippable (rules.outcome family extras combination)) :
    rules.Exhausts family extras combinations (rules.profilesOf family extras combinations) := by
  have happend := profilesOf_append h []
  rw [List.append_nil] at happend
  rw [happend]
  exact ⟨rfl, List.append_nil _, List.append_nil _,
    fun combination hmem => yielded_or_skipped (h combination hmem)⟩

theorem profilesOf_failure_iff (combinations : List (List (Option Item))) :
    (rules.profilesOf family extras combinations).failure = none
      ↔ ∀ combination ∈ combinations, Skippable (rules.outcome family extras combination) := by
  constructor
  · intro h
    induction combinations with
    | nil => exact fun _ => nofun
    | cons combination rest ih =>
        rw [profilesOf_cons] at h
        cases houtcome : rules.outcome family extras combination with
        | ok profile =>
            rw [houtcome] at h
            refine List.forall_mem_cons.mpr ⟨?_, ih h⟩
            rw [houtcome]
            exact skippable_ok profile
        | error fault =>
            rw [houtcome] at h
            cases fault with
            | resolution cause =>
                refine List.forall_mem_cons.mpr ⟨?_, ih h⟩
                rw [houtcome]
                exact skippable_resolution cause
            | _ => cases h
  · exact fun h => (profilesOf_exhausts h).failure

/-! ## The processor of a combination -/

/-- The first slot is that of the processor. It has to be filled, and there is no other one. -/
def CpuFirst (rules : Rules) : Prop :=
  ∃ slot rest, rules.slots = slot :: rest ∧ slot.role = "cpu" ∧ slot.optional = false
    ∧ ∀ other ∈ rest, other.role ≠ "cpu"

theorem item?_chosenRoles {slot : Slot} {rest : List Slot} (hrest : ∀ other ∈ rest, other.role ≠ slot.role)
    (item : Item) (combination : List (Option Item)) :
    (chosenRoles (slot :: rest) (some item :: combination)).item? slot.role = some item := by
  -- The last entry with a role counts, so no slot of the rest may have it.
  have hother : ∀ entry ∈ chosenRoles rest combination, ¬ (entry.1 == slot.role) = true := by
    intro entry hentry
    obtain ⟨⟨other, found⟩, hmem, hentry⟩ := List.mem_filterMap.mp hentry
    obtain ⟨_, -, rfl⟩ := Option.map_eq_some_iff.mp hentry
    simpa using hrest other (List.of_mem_zip hmem).1
  have hnone : (chosenRoles rest combination).reverse.find? (·.1 == slot.role) = none :=
    List.find?_eq_none.mpr fun entry hentry => hother entry (List.mem_reverse.mp hentry)
  have hcons : chosenRoles (slot :: rest) (some item :: combination)
      = (slot.role, item) :: chosenRoles rest combination := rfl
  unfold Roles.item?
  rw [hcons, List.reverse_cons, List.find?_append, hnone]
  simp

theorem slotChoices?_of_required {catalog : Catalog} {slot : Slot} {items : List (Option Item)}
    (hrequired : slot.optional = false) (h : slotChoices? catalog slot = some items) :
    items = (slot.candidates catalog).map some := by
  unfold slotChoices? at h
  cases hcandidates : slot.candidates catalog with
  | nil =>
      rw [hcandidates, hrequired] at h
      cases h
  | cons item more =>
      rw [hcandidates] at h
      exact (Option.some.inj h).symm

theorem slotChoices?_ne_nil {catalog : Catalog} {slot : Slot} {items : List (Option Item)}
    (h : slotChoices? catalog slot = some items) : items ≠ [] := by
  unfold slotChoices? at h
  cases hcandidates : slot.candidates catalog with
  | nil =>
      rw [hcandidates] at h
      by_cases hoptional : slot.optional = true
      · rw [if_pos hoptional] at h
        cases h
        exact List.cons_ne_nil _ _
      · rw [if_neg hoptional] at h
        cases h
  | cons item more =>
      rw [hcandidates] at h
      cases h
      exact List.cons_ne_nil _ _

theorem of_choices_cons {catalog : Catalog} {slot : Slot} {rest : List Slot}
    {lists : List (List (Option Item))} (h : choices catalog (slot :: rest) = .ok lists) :
    ∃ items tails, slotChoices? catalog slot = some items ∧ choices catalog rest = .ok tails
      ∧ lists = items :: tails := by
  unfold choices at h
  cases hitems : slotChoices? catalog slot with
  | none =>
      rw [hitems] at h
      cases h
  | some items =>
      cases htails : choices catalog rest with
      | error other =>
          rw [hitems, htails] at h
          cases h
      | ok tails =>
          rw [hitems, htails] at h
          cases h
          exact ⟨items, tails, rfl, rfl, rfl⟩

/-- Where every slot has a choice, there is a combination. -/
theorem product_choices_ne_nil {catalog : Catalog} {slots : List Slot}
    {lists : List (List (Option Item))} (h : choices catalog slots = .ok lists) :
    product lists ≠ [] := by
  induction slots generalizing lists with
  | nil =>
      cases h
      exact List.cons_ne_nil _ _
  | cons slot rest ih =>
      obtain ⟨items, tails, hitems, htails, rfl⟩ := of_choices_cons h
      obtain ⟨x, hx⟩ := List.exists_mem_of_ne_nil _ (slotChoices?_ne_nil hitems)
      obtain ⟨tail, htail⟩ := List.exists_mem_of_ne_nil _ (ih htails)
      exact List.ne_nil_of_mem
        (mem_product.mpr (List.Forall₂.cons hx (mem_product.mp htail)))

/-- The candidates for the processor decide, and each of them is in some combination. -/
theorem outcomes_skippable_iff (hfirst : rules.CpuFirst) {catalog : Catalog}
    {lists : List (List (Option Item))} (hchoices : choices catalog rules.slots = .ok lists) :
    (∀ combination ∈ product lists, Skippable (rules.outcome family extras combination))
      ↔ ∀ slot ∈ rules.slots, slot.role = "cpu" → ∀ item ∈ slot.candidates catalog,
        Skippable (rules.cpu.describe (some item)) := by
  obtain ⟨slot, rest, hslots, hrole, hrequired, hrest⟩ := hfirst
  rw [hslots] at hchoices ⊢
  obtain ⟨items, tails, hitems, htails, rfl⟩ := of_choices_cons hchoices
  obtain rfl := slotChoices?_of_required hrequired hitems
  have houtcome : ∀ item combination,
      Skippable (rules.outcome family extras (some item :: combination))
        ↔ Skippable (rules.cpu.describe (some item)) := by
    intro item combination
    have hitem : (chosenRoles (slot :: rest) (some item :: combination)).item? slot.role
        = some item := item?_chosenRoles (hrole ▸ hrest) item combination
    rw [hrole] at hitem
    unfold outcome
    rw [buildProfile_skippable_iff, hslots, hitem]
  constructor
  · intro h other hother hcpu item hitem
    obtain rfl : other = slot := by
      rcases List.mem_cons.mp hother with hsame | hmem
      · exact hsame
      · exact absurd hcpu (hrest other hmem)
    -- Any choice for the other slots will do.
    obtain ⟨tail, htail⟩ := List.exists_mem_of_ne_nil _ (product_choices_ne_nil htails)
    refine (houtcome item tail).mp (h _ (mem_product.mpr ?_))
    exact List.Forall₂.cons (List.mem_map_of_mem hitem) (mem_product.mp htail)
  · intro h combination hmem
    cases mem_product.mp hmem with
    | cons hchosen _ =>
        obtain ⟨item, hitem, rfl⟩ := List.mem_map.mp hchosen
        exact (houtcome item _).mpr (h slot (List.mem_cons_self ..) hrole item hitem)

end Rules

/-! ## The rules of the supported families -/

theorem Slot.of_make_ok {role : String} {category description : Option String} {optional : Bool}
    {slot : Slot} (h : Slot.make role category description optional = .ok slot) :
    slot.role = role ∧ slot.optional = optional := by
  unfold Slot.make at h
  by_cases hsource : (category.isNone && description.isNone) = true
  · rw [if_pos hsource] at h
    cases h
  · rw [if_neg hsource] at h
    obtain ⟨e, -, h⟩ := ok_of_bind h
    cases h
    exact ⟨rfl, rfl⟩

theorem Rules.of_make_ok {slots : List Slot} {cpu : CpuRule} {settings : Settings} {rules : Rules}
    (h : Rules.make slots cpu settings = .ok rules) :
    rules.slots = slots ∧ rules.cpu = cpu ∧ rules.extraDiskIds = settings.extraDiskIds
      ∧ rules.controllerCategory = settings.controllerCategory := by
  unfold Rules.make at h
  by_cases hroles : ((distinct (slots.map Slot.role)).length != (slots.map Slot.role).length) = true
  · simp only [if_pos hroles] at h
    cases h
  · simp only [if_neg hroles] at h
    obtain ⟨disks, -, h⟩ := ok_of_bind h
    obtain ⟨extraDisks, -, h⟩ := ok_of_bind h
    cases h
    exact ⟨rfl, rfl, rfl, rfl⟩

theorem Expression.text_of_ofText {text : String} {e : Expression}
    (h : Expression.ofText text = .ok e) : e.text = text := by
  unfold Expression.ofText at h
  split at h
  · cases h
    rfl
  · cases h

/-- Rules with a processor slot in front, a standard processor rule, and no disks added. -/
structure Rules.Plain (rules : Rules) : Prop where
  cpuFirst : rules.CpuFirst
  standard : rules.cpu.Standard
  noDisks : rules.extraDiskIds = []

namespace CpuRule

theorem of_makeCapacity_ok {text : String} {default : Float} {rule : CpuRule}
    (h : makeCapacity text default = .ok rule) :
    ∃ e, Expression.ofText text = .ok e ∧ rule = .capacity e default := by
  unfold makeCapacity at h
  cases he : Expression.ofText text with
  | error fault =>
      rw [he] at h
      cases h
  | ok e =>
      rw [he] at h
      cases h
      exact ⟨e, rfl, rfl⟩

theorem standard_of_makeCapacity {default : Float} {rule : CpuRule}
    (h : makeCapacity defaultSpeedPattern default = .ok rule) : rule.Standard := by
  obtain ⟨e, he, rfl⟩ := of_makeCapacity_ok h
  exact Expression.text_of_ofText he

theorem standard_of_makeBareMetal {rule : CpuRule}
    (h : makeBareMetal defaultBareMetalPattern = .ok rule) : rule.Standard := by
  obtain ⟨e, he, h⟩ := ok_of_bind h
  by_cases hgroups : e.pattern.groups < 3
  · rw [if_pos hgroups] at h
    cases h
  · rw [if_neg hgroups] at h
    cases h
    exact Expression.text_of_ofText he

end CpuRule

namespace FamilySpec

/-- Required slots of some roles and categories. -/
theorem slots_of_mapM {pairs : List (String × String)} {slots : List Slot}
    (h : pairs.mapM (fun (role, category) => Slot.make role (some category) none false) = .ok slots) :
    List.Forall₂ (fun pair slot => slot.role = pair.1 ∧ slot.optional = false) pairs slots :=
  forall₂_of_mapM_ok (fun _ _ => Slot.of_make_ok) h

theorem cpuFirst_of_slots {category : String} {pairs : List (String × String)} {rules : Rules}
    (h : List.Forall₂ (fun pair slot => slot.role = pair.1 ∧ slot.optional = false)
      (("cpu", category) :: pairs) rules.slots) (hpairs : ∀ pair ∈ pairs, pair.1 ≠ "cpu") :
    rules.CpuFirst := by
  cases hslots : rules.slots with
  | nil =>
      rw [hslots] at h
      cases h
  | cons slot rest =>
      rw [hslots] at h
      cases h with
      | cons hfirst hrest =>
          refine ⟨slot, rest, hslots, hfirst.1, hfirst.2, fun other hother => ?_⟩
          obtain ⟨pair, hpair, hrole, -⟩ := exists_of_forall₂ hrest hother
          rw [hrole]
          exact hpairs pair hpair

/-- Every slot for guests has a role of its own. -/
theorem GuestParts.roles {τ : Type} {c : Config τ} {rules : Rules} (parts : GuestParts c rules) :
    parts.cpu.role = "cpu" ∧ parts.ram.role = "ram" ∧ parts.disk.role = "disk0"
      ∧ parts.uplink.role = "uplink" ∧ parts.bandwidth.role = "bandwidth" :=
  ⟨(Slot.of_make_ok parts.cpu_made).1, (Slot.of_make_ok parts.ram_made).1,
    (Slot.of_make_ok parts.disk_made).1, (Slot.of_make_ok parts.uplink_made).1,
    (Slot.of_make_ok parts.bandwidth_made).1⟩

theorem guestRules_plain {τ : Type} {c : Config τ} (hdisks : Price.idTexts c.externalDiskIds = [])
    {rules : Rules} (h : guestRules c = .ok rules) :
    rules.Plain ∧ rules.controllerCategory = none := by
  obtain ⟨parts⟩ := guestParts h
  obtain ⟨hcpu, hram, hdisk, huplink, hbandwidth⟩ := parts.roles
  obtain ⟨hslots, hcpuRule, hids, hcontroller⟩ := Rules.of_make_ok parts.made
  refine ⟨⟨⟨parts.cpu, _, hslots, hcpu, (Slot.of_make_ok parts.cpu_made).2, ?_⟩, ?_,
    hids.trans hdisks⟩, hcontroller⟩
  · simp only [List.forall_mem_cons, hram, hdisk, huplink, hbandwidth]
    decide
  · rw [hcpuRule]
    exact CpuRule.standard_of_makeCapacity parts.rule_made

theorem bareMetalRules_plain {rules : Rules} (h : bareMetalRules = .ok rules) :
    rules.Plain ∧ rules.controllerCategory = none := by
  obtain ⟨slots, hmade, h⟩ := ok_of_bind h
  obtain ⟨rule, hrule, h⟩ := ok_of_bind h
  obtain ⟨hslots, hcpuRule, hids, hcontroller⟩ := Rules.of_make_ok h
  refine ⟨⟨cpuFirst_of_slots (hslots ▸ slots_of_mapM hmade) (by decide), ?_, hids⟩, hcontroller⟩
  rw [hcpuRule]
  exact CpuRule.standard_of_makeBareMetal hrule

theorem singleXeonRules_plain {rules : Rules} (h : singleXeonRules = .ok rules) :
    rules.Plain ∧ rules.controllerCategory = none := by
  obtain ⟨slots, hmade, h⟩ := ok_of_bind h
  obtain ⟨hslots, hcpuRule, hids, hcontroller⟩ := Rules.of_make_ok h
  refine ⟨⟨cpuFirst_of_slots (hslots ▸ slots_of_mapM hmade) (by decide), ?_, hids⟩, hcontroller⟩
  rw [hcpuRule]
  trivial

theorem dualXeonRules_plain {τ : Type} {c : Config τ}
    (hdisks : Price.idTexts c.externalDiskIds = []) {rules : Rules}
    (h : dualXeonRules c = .ok rules) : rules.Plain := by
  obtain ⟨slots, hmade, h⟩ := ok_of_bind h
  obtain ⟨hslots, hcpuRule, hids, -⟩ := Rules.of_make_ok h
  refine ⟨cpuFirst_of_slots (hslots ▸ slots_of_mapM hmade) (by decide), ?_, hids.trans hdisks⟩
  rw [hcpuRule]
  trivial

/-- Unless disks are added, the rules of all supported families are plain; and only two families ask
for a controller. -/
theorem supported_plain {τ : Type} [Duration τ] {c : Config τ}
    (hdisks : Price.idTexts c.externalDiskIds = []) {specs : List (FamilySpec τ)}
    (hspecs : supported c = .ok specs) {spec : FamilySpec τ} (hspec : spec ∈ specs) :
    spec.rules.Plain
      ∧ (spec.rules.controllerCategory = none ∨ spec.family = 42 ∨ spec.family = 44) := by
  obtain ⟨s, hbuilt, hconfigured⟩ := mem_supported hspecs hspec
  obtain ⟨policies, -, rfl⟩ := of_configured_ok hconfigured
  have hstrategy : ∀ {rules : Rules} {strategy}, rules.Plain →
      { rules with strategy : Rules }.Plain := fun h => ⟨h.cpuFirst, h.standard, h.noDisks⟩
  show s.rules.Plain ∧ (s.rules.controllerCategory = none ∨ s.family = 42 ∨ s.family = 44)
  rcases built_of_builders hbuilt with h | h | h | h
  · obtain ⟨rules, strategy, hrules, heq⟩ := h.rules
    obtain ⟨hplain, hnone⟩ := guestRules_plain hdisks hrules
    rw [heq]
    exact ⟨hstrategy hplain, Or.inl hnone⟩
  · obtain ⟨rules, strategy, hrules, heq⟩ := h.rules
    obtain ⟨hplain, hnone⟩ := bareMetalRules_plain hrules
    rw [heq]
    exact ⟨hstrategy hplain, Or.inl hnone⟩
  · obtain ⟨rules, strategy, hrules, heq⟩ := h.rules
    obtain ⟨hplain, hnone⟩ := singleXeonRules_plain hrules
    rw [heq]
    exact ⟨hstrategy hplain, Or.inl hnone⟩
  · obtain ⟨rules, strategy, hrules, heq⟩ := h.rules
    rw [heq]
    exact ⟨hstrategy (dualXeonRules_plain hdisks hrules), Or.inr (by simpa using h.family)⟩

theorem extras_ok {rules : Rules} (hplain : rules.Plain) {family : Int} {catalog : Catalog}
    (hcontroller : rules.controllerCategory = none
      ∨ ∃ found, rules.controllerItems family catalog = .ok found) :
    ∃ extras, rules.extras family catalog = .ok extras := by
  have hdisks : rules.extraDiskItems family catalog = .ok [] := by
    unfold Rules.extraDiskItems
    rw [hplain.noDisks]
    rfl
  have hfound : ∃ found, rules.controllerItems family catalog = .ok found := by
    rcases hcontroller with hnone | hfound
    · refine ⟨[], ?_⟩
      unfold Rules.controllerItems
      rw [hnone]
    · exact hfound
  obtain ⟨found, hfound⟩ := hfound
  refine ⟨[] ++ found, ?_⟩
  unfold Rules.extras
  rw [hdisks, hfound]
  rfl

/-- **What ends an enumeration.** With the usual configuration, and a controller where one is asked
for, an enumeration goes through all combinations, unless a candidate for the processor has a line
with something else where a number should be; then it fails. It has nothing to go through if a
required slot is empty. -/
theorem enumerate_exhausts_iff {τ : Type} [Duration τ] {specs : List (FamilySpec τ)}
    (hspecs : supported Config.usual = .ok specs) {spec : FamilySpec τ} (hspec : spec ∈ specs)
    (catalog : Catalog) (hcontroller : spec.family = 42 ∨ spec.family = 44 →
      ∃ found, spec.rules.controllerItems spec.family catalog = .ok found) :
    let rules := spec.rules
    let e := rules.enumerate spec.family catalog
    (∀ slot, Rules.choices catalog rules.slots = .error slot →
      e = { log := [Rules.emptySlotRecord spec.family slot] })
    ∧ ∀ lists, Rules.choices catalog rules.slots = .ok lists →
      ∃ extras, rules.extras spec.family catalog = .ok extras
        ∧ (rules.Exhausts spec.family extras (product lists) e ∨ e.failure ≠ none)
        ∧ (e.failure ≠ none ↔ ∃ slot ∈ rules.slots, slot.role = "cpu"
          ∧ ∃ item ∈ slot.candidates catalog, rules.cpu.Garbled item.description) := by
  have hdisks : Price.idTexts (Config.usual : Config τ).externalDiskIds = [] := by
    show Price.idTexts "" = []
    decide
  obtain ⟨hplain, hfamily⟩ := supported_plain hdisks hspecs hspec
  obtain ⟨extras, hextras⟩ := extras_ok hplain (hfamily.imp_right hcontroller)
  refine ⟨fun slot hslot => ?_, fun lists hlists => ⟨extras, hextras, ?_⟩⟩
  · unfold Rules.enumerate
    rw [hslot]
  · have henumerate : spec.rules.enumerate spec.family catalog
        = spec.rules.profilesOf spec.family extras (product lists) := by
      unfold Rules.enumerate
      simp only [hlists, hextras]
    rw [henumerate]
    have hends : (spec.rules.profilesOf spec.family extras (product lists)).failure = none
        ↔ ∀ combination ∈ product lists,
          Skippable (spec.rules.outcome spec.family extras combination) :=
      Rules.profilesOf_failure_iff (product lists)
    refine ⟨?_, ?_⟩
    · by_cases hall : ∀ combination ∈ product lists,
          Skippable (spec.rules.outcome spec.family extras combination)
      · exact Or.inl (Rules.profilesOf_exhausts hall)
      · exact Or.inr (mt hends.mp hall)
    · rw [ne_eq, hends, Rules.outcomes_skippable_iff hplain.cpuFirst hlists]
      simp only [CpuRule.describe_skippable_iff hplain.standard]
      push Not
      rfl

/-- A listing for bare metal instances with two processors, the first of them described like this. -/
def bareMetalListing (description : String) : List Item :=
  [{ id := 1, description, categories := ["server_core"], prices := [11] },
    { id := 2, description := "16 x 2.0 GHz Core Bare Metal Instance - 64 GB Ram"
      categories := ["server_core"], prices := [12] },
    { id := 3, description := "250GB SATA II", categories := ["disk0"], prices := [13] },
    { id := 4, description := "100 Mbps", categories := ["port_speed"], prices := [14] }]

/-- What comes of such a listing: how many combinations, profiles and records there are, and whether
the enumeration failed. -/
def bareMetalCounts (description : String) (specs : List (FamilySpec Rat)) :
    Option (Nat × Nat × Nat × Bool) := do
  let spec ← specs.find? (·.family == 50)
  let catalog := Catalog.ofItems (bareMetalListing description)
  let lists ← (Rules.choices catalog spec.rules.slots).toOption
  let e := spec.rules.enumerate spec.family catalog
  pure ((product lists).length, e.profiles.length, e.log.length, e.failure.isSome)

theorem of_bareMetalCounts {description : String} {combinations profiles records : Nat}
    {failed : Bool} (h : (supported (Config.usual : Config Rat)).toOption.bind
      (bareMetalCounts description) = some (combinations, profiles, records, failed)) :
    ∃ specs, supported (Config.usual : Config Rat) = .ok specs ∧ ∃ spec ∈ specs, spec.family = 50
      ∧ ∃ lists, Rules.choices (Catalog.ofItems (bareMetalListing description)) spec.rules.slots
        = .ok lists
      ∧ let e := spec.rules.enumerate spec.family (Catalog.ofItems (bareMetalListing description))
        (product lists).length = combinations ∧ e.profiles.length = profiles
          ∧ e.log.length = records ∧ e.failure.isSome = failed := by
  obtain ⟨specs, hspecs, h⟩ := Option.bind_eq_some_iff.mp h
  obtain ⟨spec, hspec, h⟩ := Option.bind_eq_some_iff.mp h
  obtain ⟨lists, hlists, h⟩ := Option.bind_eq_some_iff.mp h
  cases h
  exact ⟨specs, ok_of_toOption hspecs, spec, List.mem_of_find?_eq_some hspec,
    by simpa using List.find?_some hspec, lists, ok_of_toOption hlists, rfl, rfl, rfl, rfl⟩

theorem counts_windows : (supported (Config.usual : Config Rat)).toOption.bind
    (bareMetalCounts "Windows") = some (2, 1, 1, false) := by
  decide +kernel

/-- An item that is no processor line at all is skipped. -/
theorem enumerate_exhausts_skipping :
    ∃ specs, supported (Config.usual : Config Rat) = .ok specs ∧ ∃ spec ∈ specs, spec.family = 50
      ∧ ∃ lists extras, (product lists).length = 2
        ∧ let e := spec.rules.enumerate spec.family (Catalog.ofItems (bareMetalListing "Windows"))
          spec.rules.Exhausts spec.family extras (product lists) e
            ∧ e.profiles.length = 1 ∧ e.log.length = 1 := by
  obtain ⟨specs, hspecs, spec, hspec, hfamily, lists, hlists, htwo, hone, hrecord, hfailed⟩ :=
    of_bareMetalCounts counts_windows
  have hother : spec.family = 42 ∨ spec.family = 44 → ∃ found, spec.rules.controllerItems
      spec.family (Catalog.ofItems (bareMetalListing "Windows")) = .ok found := by
    rw [hfamily]
    exact fun h => absurd h (by decide)
  obtain ⟨-, hall⟩ := enumerate_exhausts_iff hspecs hspec _ hother
  obtain ⟨extras, -, hexhausts | hends, -⟩ := hall lists hlists
  · exact ⟨specs, hspecs, spec, hspec, hfamily, lists, extras, htwo, hexhausts, hone, hrecord⟩
  · exact absurd (Option.isSome_eq_false_iff.mp hfailed) (by simpa using hends)

theorem counts_twoPoints : (supported (Config.usual : Config Rat)).toOption.bind
    (bareMetalCounts "8 x 2..5 GHz Core Bare Metal Instance - 32 GB Ram") = some (2, 0, 0, true) := by
  decide +kernel

/-- A speed with two points ends the enumeration at its first combination. The other one, with which
nothing is wrong, is neither yielded nor skipped. -/
theorem enumerate_cut_short :
    ∃ specs, supported (Config.usual : Config Rat) = .ok specs ∧ ∃ spec ∈ specs, spec.family = 50
      ∧ ∃ lists, Rules.choices (Catalog.ofItems (bareMetalListing
          "8 x 2..5 GHz Core Bare Metal Instance - 32 GB Ram")) spec.rules.slots = .ok lists
        ∧ let e := spec.rules.enumerate spec.family (Catalog.ofItems (bareMetalListing
            "8 x 2..5 GHz Core Bare Metal Instance - 32 GB Ram"))
          (product lists).length = 2 ∧ e.profiles.length = 0 ∧ e.log.length = 0
            ∧ e.failure.isSome = true :=
  of_bareMetalCounts counts_twoPoints

end FamilySpec

end Provision
