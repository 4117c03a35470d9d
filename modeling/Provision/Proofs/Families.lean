import Provision.Family.Builtin
import Provision.Proofs.Product

/-!
# Supported families

A supported family is one of the built-in ones with the settings of the
configuration applied to it (`mem_supported`). The settings change its timing
and its pricing, and leave the rest alone (`of_configured_ok`). The rules for
guests are taken apart here (`guestParts`), for most properties of guests are
about one of their slots.
-/

namespace Provision

section Steps

variable {ε α β : Type} {x : Except ε α} {f : α → Except ε β}

@[simp] theorem ok_bind (a : α) (f : α → Except ε β) : (Except.ok a >>= f) = f a := rfl

@[simp] theorem error_bind (e : ε) (f : α → Except ε β) :
    ((Except.error e : Except ε α) >>= f) = .error e := rfl

/-- What succeeds has succeeded in its first part. -/
theorem ok_of_bind {b : β} (h : (x >>= f) = .ok b) : ∃ a, x = .ok a ∧ f a = .ok b := by
  cases x with
  | error e => cases h
  | ok a => exact ⟨a, rfl, h⟩

theorem ok_of_toOption {a : α} (h : x.toOption = some a) : x = .ok a := by
  cases x with
  | error e => cases h
  | ok b =>
      cases h
      rfl

end Steps

namespace FamilySpec

variable {τ : Type} [Duration τ] {c : Config τ} {s s' : FamilySpec τ}
  {p p' : StagePolicies τ}

theorem of_configuredPolicies_ok (h : configuredPolicies p c = .ok p') :
    (overridden p.orderApproved (c.timeoutOf .orderApproved) (c.intervalOf .orderApproved)
        = .ok p'.orderApproved
      ∧ overridden p.transactionsStarted (c.timeoutOf .transactionsStarted)
          (c.intervalOf .transactionsStarted) = .ok p'.transactionsStarted
      ∧ overridden p.transactionsEnded (c.timeoutOf .transactionsEnded)
          (c.intervalOf .transactionsEnded) = .ok p'.transactionsEnded
      ∧ overridden p.loginReady (c.timeoutOf .loginReady) (c.intervalOf .loginReady)
        = .ok p'.loginReady)
    ∧ p'.poweredOff = p.poweredOff := by
  obtain ⟨approved, happroved, h⟩ := ok_of_bind h
  obtain ⟨started, hstarted, h⟩ := ok_of_bind h
  obtain ⟨ended, hended, h⟩ := ok_of_bind h
  obtain ⟨login, hlogin, h⟩ := ok_of_bind h
  cases h
  exact ⟨⟨happroved, hstarted, hended, hlogin⟩, rfl⟩

theorem of_configured_ok (h : s.configured c = .ok s') :
    ∃ policies, configuredPolicies s.policies c = .ok policies
      ∧ s' = { s with policies, hourly := c.hourly.getD s.hourly } := by
  obtain ⟨policies, hpolicies, h⟩ := ok_of_bind h
  cases h
  exact ⟨policies, hpolicies, rfl⟩

/-- The parts that the rules for guests are made of. -/
structure GuestParts (c : Config τ) (rules : Rules) where
  cpu : Slot
  ram : Slot
  disk : Slot
  uplink : Slot
  bandwidth : Slot
  rule : CpuRule
  cpu_made : Slot.make "cpu" none (some c.cpuPattern) false = .ok cpu
  ram_made : Slot.make "ram" (some "ram") none false = .ok ram
  disk_made :
    Slot.make "disk0" (some "guest_disk0") (primaryDiskPattern? c.disk0Type) false = .ok disk
  uplink_made : Slot.make "uplink" (some "port_speed") none false = .ok uplink
  bandwidth_made : Slot.make "bandwidth" (some "bandwidth") none true = .ok bandwidth
  rule_made : CpuRule.makeCapacity CpuRule.defaultSpeedPattern 2 = .ok rule
  made : Rules.make [cpu, ram, disk, uplink, bandwidth] rule
    { bootDisk := "guest_disk0"
      disks := "guest_disk[0-9]"
      strategy := .multi
      extraDisks := some "guest_disk[1-5]"
      extraDiskIds := Price.idTexts c.externalDiskIds } = .ok rules

omit [Duration τ] in
theorem guestParts {rules : Rules} (h : guestRules c = .ok rules) :
    Nonempty (GuestParts c rules) := by
  obtain ⟨cpu, hcpu, h⟩ := ok_of_bind h
  obtain ⟨ram, hram, h⟩ := ok_of_bind h
  obtain ⟨disk, hdisk, h⟩ := ok_of_bind h
  obtain ⟨uplink, huplink, h⟩ := ok_of_bind h
  obtain ⟨bandwidth, hbandwidth, h⟩ := ok_of_bind h
  obtain ⟨rule, hrule, h⟩ := ok_of_bind h
  exact ⟨⟨cpu, ram, disk, uplink, bandwidth, rule, hcpu, hram, hdisk, huplink, hbandwidth, hrule, h⟩⟩

/-- One of some families with these rules, the strategy of disks apart, and this timing. -/
structure Built (families : List Int) (rules : Except Fault Rules) (policies : StagePolicies τ)
    (s : FamilySpec τ) : Prop where
  family : s.family ∈ families
  rules : ∃ made strategy, rules = .ok made ∧ s.rules = { made with strategy }
  policies : s.policies = policies

theorem virtualGuest_built (h : virtualGuest c = .ok s) :
    Built [46] (guestRules c) (timing 1 1 1 (Duration.ofTenths 1) (Duration.ofTenths 10)) s := by
  obtain ⟨rules, hrules, h⟩ := ok_of_bind h
  cases h
  exact ⟨List.mem_singleton_self _, ⟨rules, _, hrules, rfl⟩, rfl⟩

theorem bareMetal_built (h : bareMetal = .ok s) :
    Built [50] bareMetalRules (serverTiming 10 10 10) s := by
  obtain ⟨rules, hrules, h⟩ := ok_of_bind h
  cases h
  exact ⟨List.mem_singleton_self _, ⟨rules, _, hrules, rfl⟩, rfl⟩

theorem singleXeon3200_built (h : singleXeon3200 = .ok s) :
    Built [23, 142] singleXeonRules (serverTiming 10 10 10) s := by
  obtain ⟨rules, hrules, h⟩ := ok_of_bind h
  cases h
  exact ⟨List.mem_cons_self .., ⟨rules, _, hrules, rfl⟩, rfl⟩

theorem singleXeon2000_built (h : singleXeon2000 = .ok s) :
    Built [23, 142] singleXeonRules (serverTiming 10 10 10) s := by
  obtain ⟨earlier, hearlier, h⟩ := ok_of_bind h
  have hbuilt := singleXeon3200_built hearlier
  cases h
  exact ⟨show (142 : Int) ∈ [23, 142] by decide, hbuilt.rules, hbuilt.policies⟩

theorem dualXeon5500_built (h : dualXeon5500 c = .ok s) :
    Built [42, 44] (dualXeonRules c) (serverTiming 50 50 10) s := by
  obtain ⟨rules, hrules, h⟩ := ok_of_bind h
  cases h
  exact ⟨List.mem_cons_self .., ⟨rules, _, hrules, rfl⟩, rfl⟩

theorem dualXeon5500MultiDisk_built (h : dualXeon5500MultiDisk c = .ok s) :
    Built [42, 44] (dualXeonRules c) (serverTiming 50 50 10) s := by
  obtain ⟨earlier, hearlier, h⟩ := ok_of_bind h
  have hbuilt := dualXeon5500_built hearlier
  obtain ⟨rules, strategy, hrules, heq⟩ := hbuilt.rules
  cases h
  exact ⟨show (44 : Int) ∈ [42, 44] by decide, ⟨rules, .multi, hrules, by rw [heq]⟩,
    hbuilt.policies⟩

/-- The rules and the timing of the built-in families. -/
theorem built_of_builders (h : .ok s ∈ builders c) :
    Built [46] (guestRules c) (timing 1 1 1 (Duration.ofTenths 1) (Duration.ofTenths 10)) s
      ∨ Built [50] bareMetalRules (serverTiming 10 10 10) s
      ∨ Built [23, 142] singleXeonRules (serverTiming 10 10 10) s
      ∨ Built [42, 44] (dualXeonRules c) (serverTiming 50 50 10) s := by
  simp only [builders, List.mem_cons, List.not_mem_nil, or_false] at h
  rcases h with h | h | h | h | h | h
  · exact Or.inl (virtualGuest_built h.symm)
  · exact Or.inr (Or.inl (bareMetal_built h.symm))
  · exact Or.inr (Or.inr (Or.inl (singleXeon3200_built h.symm)))
  · exact Or.inr (Or.inr (Or.inl (singleXeon2000_built h.symm)))
  · exact Or.inr (Or.inr (Or.inr (dualXeon5500_built h.symm)))
  · exact Or.inr (Or.inr (Or.inr (dualXeon5500MultiDisk_built h.symm)))

theorem forall₂_supported {specs : List (FamilySpec τ)} (h : supported c = .ok specs) :
    List.Forall₂ (fun builder s' => ∃ s, builder = .ok s ∧ s.configured c = .ok s')
      (builders c) specs := by
  refine forall₂_of_mapM_ok ?_ h
  intro builder s' hbuild
  cases builder with
  | error fault => cases hbuild
  | ok s =>
      refine ⟨s, rfl, ?_⟩
      cases hconfigured : s.configured c with
      | error fault =>
          rw [build, hconfigured] at hbuild
          cases hbuild
      | ok done =>
          rw [build, hconfigured] at hbuild
          cases hbuild
          rfl

/-- A supported family is a built-in one with the settings applied. -/
theorem mem_supported {specs : List (FamilySpec τ)} (h : supported c = .ok specs)
    (hs' : s' ∈ specs) : ∃ s, .ok s ∈ builders c ∧ s.configured c = .ok s' := by
  obtain ⟨builder, hbuilder, s, rfl, hconfigured⟩ := exists_of_forall₂ (forall₂_supported h) hs'
  exact ⟨s, hbuilder, hconfigured⟩

/-- The rules of the guests among the supported families. -/
theorem guestRules_of_supported {specs : List (FamilySpec τ)} (h : supported c = .ok specs)
    (hs' : s' ∈ specs) (hfamily : s'.family = 46) :
    ∃ rules strategy, guestRules c = .ok rules ∧ s'.rules = { rules with strategy } := by
  obtain ⟨s, hbuilt, hconfigured⟩ := mem_supported h hs'
  obtain ⟨policies, -, rfl⟩ := of_configured_ok hconfigured
  have hguest : s.family = 46 := hfamily
  rcases built_of_builders hbuilt with h | h | h | h
  · exact h.rules
  · have hother : s.family = 50 := by simpa using h.family
    omega
  · have hother : s.family = 23 ∨ s.family = 142 := by simpa using h.family
    omega
  · have hother : s.family = 42 ∨ s.family = 44 := by simpa using h.family
    omega

/-- The packages of the supported families. -/
def packages : List Int := [46, 50, 23, 142, 42, 44]

/-- The same families are supported under every configuration. -/
theorem supported_packages {specs : List (FamilySpec τ)} (h : supported c = .ok specs) :
    specs.map FamilySpec.family = packages := by
  have hfamily : List.Forall₂ (fun builder s' => ∃ s, builder = .ok s ∧ s'.family = s.family)
      (builders c) specs := by
    refine (forall₂_supported h).imp ?_
    rintro builder s' ⟨s, hbuilder, hconfigured⟩
    obtain ⟨policies, -, rfl⟩ := of_configured_ok hconfigured
    exact ⟨s, hbuilder, rfl⟩
  simp only [builders, List.forall₂_cons_left_iff, List.forall₂_nil_left_iff] at hfamily
  obtain ⟨guest, _, ⟨_, hguest, h46⟩, ⟨bare, _, ⟨_, hbare, h50⟩, ⟨single, _, ⟨_, hsingle, h23⟩,
    ⟨later, _, ⟨_, hlater, h142⟩, ⟨dual, _, ⟨_, hdual, h42⟩, ⟨many, _, ⟨_, hmany, h44⟩, rfl, rfl⟩,
    rfl⟩, rfl⟩, rfl⟩, rfl⟩, rfl⟩ := hfamily
  -- Every family is made in one step from its rules or from an earlier variant.
  obtain ⟨_, -, hguest⟩ := ok_of_bind hguest
  obtain ⟨_, -, hbare⟩ := ok_of_bind hbare
  obtain ⟨_, -, hsingle⟩ := ok_of_bind hsingle
  obtain ⟨_, -, hlater⟩ := ok_of_bind hlater
  obtain ⟨_, -, hdual⟩ := ok_of_bind hdual
  obtain ⟨_, -, hmany⟩ := ok_of_bind hmany
  cases hguest
  cases hbare
  cases hsingle
  cases hlater
  cases hdual
  cases hmany
  simp only [List.map_cons, List.map_nil, h46, h50, h23, h142, h42, h44, packages]

/-- If any families are supported, then guests are. -/
theorem exists_guest (h : (supported c).toOption.isSome = true) :
    ∃ specs, supported c = .ok specs ∧ ∃ spec ∈ specs, spec.family = 46 := by
  obtain ⟨specs, hspecs⟩ := Option.isSome_iff_exists.mp h
  have hok := ok_of_toOption hspecs
  refine ⟨specs, hok, ?_⟩
  rw [← List.mem_map, supported_packages hok]
  decide

end FamilySpec

end Provision
