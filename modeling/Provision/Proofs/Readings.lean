import Provision.Proofs.Padding

/-!
# Readings of processor lines

What a standard rule makes of a description is settled by how the line can be
read. A line for a bare metal instance can be read in one way at most
(`BareMetalReading.unique`). If there is one, its figures are the processor,
and if there is none, the item is ruled out (`describe_bareMetal_exact`).

For guests there are two patterns to agree, and a third one for the number of
cores. The slot takes the lines that can be read as a speed, and whatever it
takes the rule reads in the same way, so that the speed by default is never
needed (`guest_cpu_one_grammar`).
-/

namespace Provision

/-- An item with nothing but a description. -/
def Item.describedAs (description : String) : Item := { id := 1, description }

/-- Figures end where the next blank is. -/
theorem IsFigures.split_unique {cs cs' rest rest' : List Char} (h : IsFigures cs)
    (h' : IsFigures cs') (hline : cs ++ ' ' :: rest = cs' ++ ' ' :: rest') :
    cs = cs' ∧ rest = rest' := by
  have htake : ∀ {ds more : List Char}, IsFigures ds →
      (ds ++ ' ' :: more).takeWhile (· != ' ') = ds := by
    intro ds more hds
    have hno : ∀ c ∈ ds, (c != ' ') = true := by
      intro c hc
      rw [bne_iff_ne]
      rintro rfl
      exact absurd (hds.2 _ hc) (by decide)
    rw [List.takeWhile_append_of_pos hno, List.takeWhile_cons_of_neg (by simp), List.append_nil]
  obtain rfl : cs = cs' := by rw [← htake h, hline, htake h']
  exact ⟨rfl, (List.cons.inj (List.append_cancel_left hline)).2⟩

/-! ## Bare metal instances -/

/-- The figures in a line for a bare metal instance. -/
structure BareMetalReading (line cores speed ram : List Char) : Prop where
  shape : line = bareMetalLine cores speed ram
  cores : IsCount cores
  speed : IsFigures speed
  ram : IsFigures ram

/-- There is no more than one reading, for every number ends where the next blank is. -/
theorem BareMetalReading.unique {line cores speed ram cores' speed' ram' : List Char}
    (h : BareMetalReading line cores speed ram) (h' : BareMetalReading line cores' speed' ram') :
    cores = cores' ∧ speed = speed' ∧ ram = ram' := by
  have hsplit : ∀ cores speed ram, bareMetalLine cores speed ram
      = cores ++ ' ' :: ("x ".toList ++ (speed ++ ' ' :: ("GHz Core Bare Metal Instance - ".toList
        ++ (ram ++ ' ' :: "GB Ram".toList)))) := by
    intro cores speed ram
    simp [bareMetalLine]
  have hline := h.shape.symm.trans h'.shape
  rw [hsplit, hsplit] at hline
  obtain ⟨hcores, hline⟩ := h.cores.isFigures.split_unique h'.cores.isFigures hline
  obtain ⟨hspeed, hline⟩ := h.speed.split_unique h'.speed (List.append_cancel_left hline)
  obtain ⟨hram, -⟩ := h.ram.split_unique h'.ram (List.append_cancel_left hline)
  exact ⟨hcores, hspeed, hram⟩

namespace CpuRule

/-- The default rule for bare metal instances is well formed. -/
theorem makeBareMetal_default :
    ∃ e, e.pattern = .bareMetal ∧ e.text = defaultBareMetalPattern
      ∧ makeBareMetal defaultBareMetalPattern = .ok (.bareMetal e) := by
  obtain ⟨e, he, hpattern⟩ := Expression.ofText_of_parse Pattern.parse_bareMetal
  have hgroups : ¬ Pattern.bareMetal.groups < 3 := by decide
  refine ⟨e, hpattern, Expression.text_of_ofText he, ?_⟩
  simp only [makeBareMetal, he, ok_bind, hpattern, if_neg hgroups]

theorem describe_bareMetal_reading {e : Expression} (he : e.pattern = .bareMetal) {item : Item}
    {cores speed ram : List Char}
    (h : BareMetalReading (Text.trim item.description).toList cores speed ram) :
    (bareMetal e).describe (some item) = if IsNumber speed ∧ IsNumber ram
      then .ok
        { cores := item.capacity.getD (Decimal.ofFigures cores).toFloat
          speed := (Decimal.ofFigures speed).toFloat
          ram := some (Decimal.ofFigures ram).toFloat }
      else .error (.data .notNumeric) := by
  rw [describe_bareMetal_line he h.cores h.speed h.ram h.shape]
  by_cases hspeed : IsNumber speed
  · by_cases hram : IsNumber ram
    · rw [groupNumber_ok h.speed hspeed, groupNumber_ok h.ram hram, if_pos ⟨hspeed, hram⟩]
      rfl
    · rw [groupNumber_ok h.speed hspeed, groupNumber_error h.ram hram, if_neg fun h => hram h.2]
      rfl
  · rw [groupNumber_error h.speed hspeed, if_neg fun h => hspeed h.1]
    rfl

/-- **Bare metal descriptions.** The default rule describes an item just if its line, with no blanks
around it, can be read with numbers for speed and memory. There is no more than one reading, and the
processor is what it says, but for the cores of an item with a capacity. With a reading that shows
something else for a number the data are at fault, and without a reading the item is ruled out. -/
theorem describe_bareMetal_exact :
    ∃ rule, makeBareMetal defaultBareMetalPattern = .ok rule ∧ ∀ item : Item,
      let line := (Text.trim item.description).toList
      ((∃ cpu, rule.describe (some item) = .ok cpu) ↔ ∃ cores speed ram,
        BareMetalReading line cores speed ram ∧ IsNumber speed ∧ IsNumber ram)
      ∧ (∀ cores speed ram, BareMetalReading line cores speed ram →
        (∀ cores' speed' ram', BareMetalReading line cores' speed' ram' →
          cores' = cores ∧ speed' = speed ∧ ram' = ram)
        ∧ rule.describe (some item) = if IsNumber speed ∧ IsNumber ram
          then .ok
            { cores := item.capacity.getD (Decimal.ofFigures cores).toFloat
              speed := (Decimal.ofFigures speed).toFloat
              ram := some (Decimal.ofFigures ram).toFloat }
          else .error (.data .notNumeric))
      ∧ ((¬ ∃ cores speed ram, BareMetalReading line cores speed ram) →
        rule.describe (some item) = .error (.resolution
          (.undescribedCpu (Text.trim item.description) defaultBareMetalPattern))) := by
  obtain ⟨e, hpattern, htext, hmade⟩ := makeBareMetal_default
  refine ⟨_, hmade, fun item => ?_⟩
  intro line
  have hcases : (bareMetal e).describe (some item) = .error (.resolution
        (.undescribedCpu (Text.trim item.description) defaultBareMetalPattern))
      ∨ ∃ cores speed ram, BareMetalReading line cores speed ram := by
    rw [← htext]
    refine (describe_bareMetal_cases hpattern item).imp_right ?_
    rintro ⟨cores, speed, ram, hcores, hspeed, hram, hline⟩
    exact ⟨cores, speed, ram, hline, hcores, hspeed, hram⟩
  refine ⟨⟨?_, ?_⟩, fun cores speed ram h => ⟨fun _ _ _ h' => h'.unique h,
    describe_bareMetal_reading hpattern h⟩, fun hnone => hcases.resolve_right hnone⟩
  · rintro ⟨cpu, hcpu⟩
    rcases hcases with hfault | ⟨cores, speed, ram, h⟩
    · rw [hfault] at hcpu
      cases hcpu
    · refine ⟨cores, speed, ram, h, ?_⟩
      by_contra hnumbers
      rw [describe_bareMetal_reading hpattern h, if_neg hnumbers] at hcpu
      cases hcpu
  · rintro ⟨cores, speed, ram, h, hnumbers⟩
    exact ⟨_, (describe_bareMetal_reading hpattern h).trans (if_pos hnumbers)⟩

/-- A line with blanks around it, one with a speed that is no number, and another line. -/
theorem describe_bareMetal_exact_lines :
    ∃ rule, makeBareMetal defaultBareMetalPattern = .ok rule
      ∧ rule.describe (some (.describedAs " 8 x 3.4 GHz Core Bare Metal Instance - 32 GB Ram\n"))
        = .ok { cores := 8, speed := 3.4, ram := some 32 }
      ∧ rule.describe (some (.describedAs "8 x 3.4. GHz Core Bare Metal Instance - 32 GB Ram"))
        = .error (.data .notNumeric)
      ∧ rule.describe (some (.describedAs "8 x 3.4 GHz Cores"))
        = .error (.resolution (.undescribedCpu "8 x 3.4 GHz Cores" defaultBareMetalPattern)) := by
  obtain ⟨rule, hrule, hexact⟩ := describe_bareMetal_exact
  refine ⟨rule, hrule, ?_, ?_, ?_⟩
  · exact ((hexact _).2.1 ['8'] ['3', '.', '4'] ['3', '2']
      ⟨by decide +kernel, by decide, by decide, by decide⟩).2
  · exact ((hexact _).2.1 ['8'] ['3', '.', '4', '.'] ['3', '2']
      ⟨by decide +kernel, by decide, by decide, by decide⟩).2
  · refine (hexact (.describedAs "8 x 3.4 GHz Cores")).2.2 ?_
    rintro ⟨cores, speed, ram, h⟩
    have hlength := congrArg List.length h.shape
    have hshort : (Text.trim (Item.describedAs "8 x 3.4 GHz Cores").description).toList.length = 17 := by
      decide +kernel
    rw [hshort] at hlength
    simp [bareMetalLine] at hlength
    omega

end CpuRule

/-! ## Guests -/

/-- The figures in a line for a guest. -/
structure SpeedReading (line cores speed : List Char) : Prop where
  shape : ∃ plural : Bool, line = speedLine false plural cores speed
  cores : IsCount cores
  speed : IsFigures speed

theorem Solid.trim_eq {s : String} (h : Solid s.toList) : Text.trim s = s := by
  obtain ⟨c, rest, hhead, hc⟩ := h.head
  obtain ⟨init, d, hlast, hd⟩ := h.last
  have hfront : s.toList.dropWhile Text.isBlank = s.toList := by
    rw [hhead, List.dropWhile_cons_of_neg (by simp [hc])]
  have hback : s.toList.reverse.dropWhile Text.isBlank = s.toList.reverse := by
    rw [hlast, List.reverse_append, List.reverse_singleton, List.singleton_append,
      List.dropWhile_cons_of_neg (by simp [hd])]
  rw [Text.trim, Text.trimBy, hfront, hback, List.reverse_reverse, String.ofList_toList]

namespace CpuRule

variable {item : Item} {cores speed : List Char}

theorem cores_of_reading (h : SpeedReading item.description.toList cores speed) :
    CpuRule.cores item = .ok (item.capacity.getD (Decimal.ofFigures cores).toFloat) := by
  cases hcapacity : item.capacity with
  | some x =>
      simp only [CpuRule.cores, hcapacity]
      rfl
  | none =>
      obtain ⟨plural, hline⟩ := h.shape
      have hfront : item.description.toList = [] ++ Pattern.countLine false cores
          ++ ' ' :: (speed ++ " GHz Core".toList ++ if plural then ['s'] else []) := by
        rw [hline]
        simp [speedLine, Pattern.countLine]
      have hcount := Pattern.coreCount_iff.mpr
        ⟨false, h.cores, [], _, List.forall_mem_nil _, hfront⟩
      rw [Padding.cores_of_none hcapacity, hcount]
      exact groupNumber_ok h.cores.isFigures h.cores.isNumber

/-- What can be read as a speed needs no default. -/
theorem describe_capacity_line {e : Expression} (he : e.pattern = .coreSpeed) (default : Float)
    (h : SpeedReading item.description.toList cores speed) :
    (capacity e default).describe (some item) = if IsNumber speed
      then .ok
        { cores := item.capacity.getD (Decimal.ofFigures cores).toFloat
          speed := (Decimal.ofFigures speed).toFloat }
      else .error (.data .notNumeric) := by
  obtain ⟨plural, hline⟩ := h.shape
  have hsolid : Solid item.description.toList := hline ▸ Pattern.solid_speedLine h.cores
  have hspeed := speedOf_line he default h.cores h.speed hline
  simp only [describe, hsolid.trim_eq, hspeed, cores_of_reading h]
  by_cases hnumber : IsNumber speed
  · rw [groupNumber_ok h.speed hnumber, if_pos hnumber]
    rfl
  · rw [groupNumber_error h.speed hnumber, if_neg hnumber]
    rfl

end CpuRule

namespace FamilySpec

variable {τ : Type} [Duration τ] {c : Config τ}

/-- **One grammar for guests.** The first slot for guests is the one for the processor. With the
usual pattern it takes the items with a line that can be read as a number of cores and a speed, and
no others. However the line is read, the processor rule reads it so: the speed is what the line says
if that is a number, and otherwise the data are at fault, whatever the speed by default; the cores
are the capacity or, without one, the number in the line. -/
theorem guest_cpu_one_grammar (hc : c.cpuPattern = (Config.usual : Config τ).cpuPattern)
    {specs : List (FamilySpec τ)} (hspecs : supported c = .ok specs) {spec : FamilySpec τ}
    (hspec : spec ∈ specs) (hguest : spec.family = 46) :
    ∃ cpu rest e, spec.rules.slots = cpu :: rest ∧ cpu.role = "cpu"
      ∧ (∀ slot ∈ rest, slot.role ≠ "cpu") ∧ spec.rules.cpu = .capacity e 2
      ∧ (∀ (catalog : Catalog) (item : Item), item ∈ cpu.candidates catalog
        ↔ item ∈ catalog.items ∧ ∃ cores speed, SpeedReading item.description.toList cores speed)
      ∧ ∀ (item : Item) cores speed, SpeedReading item.description.toList cores speed →
        ∀ default, (CpuRule.capacity e default).describe (some item) = if IsNumber speed
          then .ok
            { cores := item.capacity.getD (Decimal.ofFigures cores).toFloat
              speed := (Decimal.ofFigures speed).toFloat }
          else .error (.data .notNumeric) := by
  obtain ⟨rules, strategy, hrules, heq⟩ := guestRules_of_supported hspecs hspec hguest
  obtain ⟨parts⟩ := guestParts hrules
  obtain ⟨hcpu, hram, hdisk, huplink, hbandwidth⟩ := parts.roles
  obtain ⟨hslots, hrule, -⟩ := Rules.of_make_ok parts.made
  obtain ⟨hcategory, hdescription⟩ := Slot.source_of_make_ok parts.cpu_made
  rw [hc] at hdescription
  obtain ⟨asked, hasked, hdescription⟩ := Expression.of_ofText?_ok hdescription
  obtain ⟨e, he, hspeed⟩ := CpuRule.of_makeCapacity_ok parts.rule_made
  have hguestCpu := Expression.pattern_of_ofText hasked Pattern.parse_guestCpu
  have hcoreSpeed := Expression.pattern_of_ofText he Pattern.parse_coreSpeed
  refine ⟨parts.cpu, [parts.ram, parts.disk, parts.uplink, parts.bandwidth], e, ?_, hcpu, ?_, ?_, ?_,
    ?_⟩
  · rw [heq]
    exact hslots
  · simp only [List.forall_mem_cons, hram, hdisk, huplink, hbandwidth]
    decide
  · rw [heq]
    exact hrule.trans hspeed
  · intro catalog item
    simp only [Slot.candidates, hcategory, hdescription, List.mem_filter, Expression.accepts,
      hguestCpu, Pattern.guestCpu_iff]
    refine and_congr_right fun _ => exists_congr fun cores => exists_congr fun speed => ?_
    constructor
    · rintro ⟨plural, hcores, hfigures, hline⟩
      exact ⟨⟨plural, hline⟩, hcores, hfigures⟩
    · rintro ⟨⟨plural, hline⟩, hcores, hfigures⟩
      exact ⟨plural, hcores, hfigures, hline⟩
  · intro item cores speed h default
    exact CpuRule.describe_capacity_line hcoreSpeed default h

/-- Two guests, the second one with a speed that is no number. -/
theorem guest_cpu_one_grammar_usual :
    let good : Item := .describedAs "16 x 2.5 GHz Cores"
    let garbled : Item := .describedAs "2 x 2.0.1 GHz Core"
    ∃ specs, supported (Config.usual : Config Rat) = .ok specs ∧ ∃ spec ∈ specs, spec.family = 46
      ∧ ∃ cpu ∈ spec.rules.slots, cpu.role = "cpu"
        ∧ good ∈ cpu.candidates (.ofItems [good]) ∧ garbled ∈ cpu.candidates (.ofItems [garbled])
        ∧ spec.rules.cpu.describe (some good) = .ok { cores := 16, speed := 2.5 }
        ∧ spec.rules.cpu.describe (some garbled) = .error (.data .notNumeric) := by
  intro good garbled
  obtain ⟨specs, hspecs, spec, hspec, hfamily⟩ :=
    exists_guest (c := (Config.usual : Config Rat)) (by decide +kernel)
  obtain ⟨cpu, rest, e, hslots, hrole, -, hrule, hcandidates, hdescribe⟩ :=
    guest_cpu_one_grammar rfl hspecs hspec hfamily
  have hgood : SpeedReading good.description.toList ['1', '6'] ['2', '.', '5'] :=
    ⟨⟨true, by decide +kernel⟩, by decide, by decide⟩
  have hgarbled : SpeedReading garbled.description.toList ['2'] ['2', '.', '0', '.', '1'] :=
    ⟨⟨false, by decide +kernel⟩, by decide, by decide⟩
  refine ⟨specs, hspecs, spec, hspec, hfamily, cpu, ?_, hrole, ?_, ?_, ?_, ?_⟩
  · rw [hslots]
    exact List.mem_cons_self ..
  · exact (hcandidates _ _).mpr ⟨List.mem_cons_self .., _, _, hgood⟩
  · exact (hcandidates _ _).mpr ⟨List.mem_cons_self .., _, _, hgarbled⟩
  · rw [hrule]
    exact hdescribe good _ _ hgood 2
  · rw [hrule]
    exact hdescribe garbled _ _ hgarbled 2

end FamilySpec

end Provision
