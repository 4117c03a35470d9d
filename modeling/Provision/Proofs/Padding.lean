import Provision.Proofs.Descriptions
import Provision.Proofs.Disks

/-!
# Blanks around descriptions

A `Padding` puts blanks around the descriptions of a listing, other ones around
each. The processor rules take no notice of it: they strip a description before
they read a speed in it, and they skip the blanks in front of a number of cores.
So the padded listing yields the same profiles, as long as the slots take the
same items from it.

A slot that looks at descriptions need not do so, since it reads them as they
are. There is one such slot among the supported families, that for the processor
of a guest, and what it asks for neither begins nor ends with a blank. It takes
the items that are spared, and no others, so what is left of an enumeration are
the combinations with a spared processor (`enumerate_padded`). If it is one blank
that the processor has behind its description, no guest is left at all
(`guest_lost_to_blank`).
-/

namespace Provision

/-! ## Texts in blanks -/

namespace Text

variable {front back part cs : List Char}

theorem ne_of_isBlank {c b : Char} (hc : isBlank c = false) (hb : isBlank b = true) : c ≠ b := by
  rintro rfl
  rw [hc] at hb
  cases hb

theorem isPrefixOf_padded (hpart : ∀ c ∈ part, isBlank c = false)
    (hback : ∀ c ∈ back, isBlank c = true) :
    part.isPrefixOf (cs ++ back) = part.isPrefixOf cs := by
  induction part generalizing cs with
  | nil => rfl
  | cons p rest ih =>
      obtain ⟨hp, hrest⟩ := List.forall_mem_cons.mp hpart
      cases cs with
      | cons c more =>
          rw [List.cons_append, List.isPrefixOf_cons_cons, List.isPrefixOf_cons_cons, ih hrest]
      | nil =>
          cases back with
          | nil => rfl
          | cons b more =>
              have hb : (p == b) = false :=
                beq_false_of_ne (ne_of_isBlank hp (hback b (List.mem_cons_self ..)))
              rw [List.nil_append, List.isPrefixOf_cons_cons, hb]
              rfl

/-- A word is found in a text with blanks around it just where it is found without. -/
theorem holds_padded (hne : part ≠ []) (hpart : ∀ c ∈ part, isBlank c = false)
    (hfront : ∀ c ∈ front, isBlank c = true) (hback : ∀ c ∈ back, isBlank c = true) :
    holds part (front ++ cs ++ back) = holds part cs := by
  have hlead : ∀ {blanks more : List Char}, (∀ c ∈ blanks, isBlank c = true) →
      holds part (blanks ++ more) = holds part more := by
    intro blanks more hblanks
    induction blanks with
    | nil => rfl
    | cons b rest ih =>
        obtain ⟨hb, hrest⟩ := List.forall_mem_cons.mp hblanks
        have hhead : part.isPrefixOf (b :: (rest ++ more)) = false := by
          obtain ⟨p, ps, rfl⟩ := List.exists_cons_of_ne_nil hne
          have hp : (p == b) = false :=
            beq_false_of_ne (ne_of_isBlank (hpart p (List.mem_cons_self ..)) hb)
          rw [List.isPrefixOf_cons_cons, hp]
          rfl
        rw [List.cons_append, holds, hhead, Bool.false_or, ih hrest]
  rw [List.append_assoc, hlead hfront]
  induction cs with
  | nil =>
      have hnone : holds part (back ++ []) = holds part [] := hlead hback
      rwa [List.append_nil] at hnone
  | cons c more ih =>
      rw [List.cons_append, holds, holds, ih, ← List.cons_append, isPrefixOf_padded hpart hback]

end Text

/-! ## Numbers in front -/

/-- A text that begins and ends with something else than a blank. -/
structure Solid (body : List Char) : Prop where
  head : ∃ c rest, body = c :: rest ∧ Text.isBlank c = false
  last : ∃ rest c, body = rest ++ [c] ∧ Text.isBlank c = false

namespace Solid

variable {body blanks cs back ys : List Char}

theorem eq_nil_of_front (h : Solid (blanks ++ cs)) (hblanks : ∀ c ∈ blanks, Text.isBlank c = true) :
    blanks = [] := by
  cases blanks with
  | nil => rfl
  | cons b more =>
      obtain ⟨c, rest, hhead, hc⟩ := h.head
      have hb := hblanks b (List.mem_cons_self ..)
      exact absurd (List.cons.inj hhead).1.symm (Text.ne_of_isBlank hc hb)

theorem eq_nil_of_back (h : Solid (cs ++ blanks)) (hblanks : ∀ c ∈ blanks, Text.isBlank c = true) :
    blanks = [] := by
  rcases List.eq_nil_or_concat blanks with hnil | ⟨more, b, rfl⟩
  · exact hnil
  · obtain ⟨init, c, hlast, hc⟩ := h.last
    rw [List.concat_eq_append, ← List.append_assoc] at hlast
    have hsame := List.append_inj_right' hlast rfl
    have hb := hblanks b (by simp)
    exact absurd (List.cons.inj hsame).1.symm (Text.ne_of_isBlank hc hb)

/-- In front of a text with blanks behind it, something solid is in front of the text. -/
theorem front_of_append (hbody : Solid body) (hback : ∀ c ∈ back, Text.isBlank c = true)
    (h : cs ++ back = body ++ ys) : ∃ zs, cs = body ++ zs := by
  rcases List.append_eq_append_iff.mp h with ⟨as, hbody', hback'⟩ | ⟨as, hcs, -⟩
  · have has : as = [] := by
      refine eq_nil_of_back (hbody' ▸ hbody) fun c hc => hback c ?_
      rw [hback']
      exact List.mem_append_left _ hc
    exact ⟨[], by rw [hbody', has, List.append_nil, List.append_nil]⟩
  · exact ⟨as, hcs⟩

end Solid

/-- With blanks around a text, something solid is found behind its leading blanks just if it was
found there before. -/
theorem leading_padded_iff {front back body cs : List Char} (hbody : Solid body)
    (hfront : ∀ c ∈ front, Text.isBlank c = true) (hback : ∀ c ∈ back, Text.isBlank c = true) :
    (∃ bs ys, (∀ b ∈ bs, Text.isBlank b = true) ∧ front ++ cs ++ back = bs ++ body ++ ys)
      ↔ ∃ bs ys, (∀ b ∈ bs, Text.isBlank b = true) ∧ cs = bs ++ body ++ ys := by
  constructor
  · rintro ⟨bs, ys, hbs, hline⟩
    obtain ⟨h, rest, hhead, hh⟩ := hbody.head
    -- Past the leading blanks, `body` is in front on both sides.
    have hdrop : (cs ++ back).dropWhile Text.isBlank = body ++ ys := by
      have hboth := congrArg (List.dropWhile Text.isBlank) hline
      rw [List.append_assoc, List.append_assoc, List.dropWhile_append_of_pos hfront,
        List.dropWhile_append_of_pos hbs] at hboth
      rw [hboth, hhead, List.cons_append, List.dropWhile_cons_of_neg (by simp [hh])]
    rw [List.dropWhile_append] at hdrop
    by_cases hnone : (cs.dropWhile Text.isBlank).isEmpty = true
    · rw [if_pos hnone, List.dropWhile_eq_nil_iff.mpr hback, hhead] at hdrop
      cases hdrop
    · rw [if_neg hnone] at hdrop
      obtain ⟨zs, hzs⟩ := hbody.front_of_append hback hdrop
      refine ⟨cs.takeWhile Text.isBlank, zs, fun b hb => List.mem_takeWhile_imp hb, ?_⟩
      rw [List.append_assoc, ← hzs, List.takeWhile_append_dropWhile]
  · rintro ⟨bs, ys, hbs, rfl⟩
    refine ⟨front ++ bs, ys ++ back, ?_, ?_⟩
    · exact List.forall_mem_append.mpr ⟨hfront, hbs⟩
    · simp only [List.append_assoc]

namespace Pattern

variable {α : Type} {c d : Cursor} {k : Cursor → Option α} {a : α} {set : CharSet} {s : String}

/-- A run of characters that may be empty is as long as it can be, where nothing can go on in its
middle. -/
theorem run_any_iff (hk : Barred set k) :
    (times true 0 none (.char set)).run c k = some a ↔ ∃ xs ys, (∀ x ∈ xs, set.contains x = true)
      ∧ c.rest = xs ++ ys ∧ k (c.past xs) = some a := by
  have hrun : ∀ {xs ys}, (∀ x ∈ xs, set.contains x = true) → c.rest = xs ++ ys →
      (∀ y zs, ys = y :: zs → set.contains y = false) →
      (times true 0 none (.char set)).run c k = k (c.past xs) := by
    intro xs ys hxs hrest hys
    refine repeatTurns_all hk hxs hys hrest ?_ nofun
    rw [hrest, List.length_append]
    omega
  constructor
  · intro h
    have hsplit := (List.takeWhile_append_dropWhile (p := set.contains) (l := c.rest)).symm
    have hall : ∀ x ∈ c.rest.takeWhile set.contains, set.contains x = true :=
      fun x hx => List.mem_takeWhile_imp hx
    rw [hrun hall hsplit ?_] at h
    · exact ⟨_, _, hall, hsplit, h⟩
    · intro y zs hys
      have hhead := List.head?_dropWhile_not set.contains c.rest
      rw [hys] at hhead
      simpa using hhead
  · rintro ⟨xs, ys, hxs, hrest, hgo⟩
    rw [hrun hxs hrest ?_]
    · exact hgo
    · rintro y zs rfl
      by_contra hy
      have hstuck := hk _ y zs (Cursor.past_rest hrest) (by simpa using hy)
      rw [hstuck] at hgo
      cases hgo

def blanks : CharSet := { ranges := [.blank true] }

theorem contains_blanks {x : Char} : blanks.contains x = true ↔ Text.isBlank x = true := by
  simp [blanks, CharSet.contains, CharSet.covers, CharRange.contains]

/-- A number of cores, perhaps with the word Private in front, up to the sign behind it. -/
def countLine (shared : Bool) (cores : List Char) : List Char :=
  (if shared then "Private ".toList else []) ++ cores ++ " x".toList

theorem solid_countLine {shared : Bool} {cores : List Char} (hcores : IsCount cores) :
    Solid (countLine shared cores) := by
  constructor
  · cases shared with
    | true => exact ⟨'P', _, rfl, by decide⟩
    | false =>
        obtain ⟨x, more, rfl⟩ := List.exists_cons_of_ne_nil hcores.1
        exact ⟨x, _, rfl, Text.isBlank_eq_false (.inl (hcores.2 x (List.mem_cons_self ..)))⟩
  · refine ⟨(if shared then "Private ".toList else []) ++ cores ++ [' '], 'x', ?_, by decide⟩
    rw [countLine, List.append_assoc _ [' ']]
    rfl

/-- The part of the pattern behind the blanks. -/
def counted : List Pattern :=
  .times true 0 (some 1) (sequence (literal "Private ".toList)) :: field 1 digits (' ' :: ['x'])

theorem coreCount_eq :
    CpuRule.coreCount = sequence (.times true 0 none (.char blanks) :: counted) := rfl

theorem run_counted_iff : (sequence counted).run c k = some a
    ↔ ∃ shared : Bool, ∃ cores ys, IsCount cores ∧ c.rest = countLine shared cores ++ ys
      ∧ k (((if shared then c.past "Private ".toList else c).past (cores ++ " x".toList)).hold 1
        cores) = some a := by
  have hdigits : digits.contains ' ' = false := by decide
  rw [counted, run_sequence_cons]
  refine (run_optional_iff "Private ".toList (fun _ => run_literal_iff) ?_).trans ?_
  · intro ys hrest
    -- A number of cores does not begin like the word.
    cases hrun : (sequence (field 1 digits (' ' :: ['x']))).run c k with
    | none => rfl
    | some b =>
        obtain ⟨cores, zs, hcores, hrest', -⟩ := (run_count_iff hdigits).mp hrun
        obtain ⟨x, more, rfl⟩ := List.exists_cons_of_ne_nil hcores.1
        have hhead : 'P' :: ("rivate ".toList ++ ys) = x :: _ := hrest.symm.trans hrest'
        have hx := hcores.2 x (List.mem_cons_self ..)
        rw [← (List.cons.inj hhead).1] at hx
        exact absurd hx (by decide)
  · simp only [run_count_iff hdigits]
    constructor
    · rintro (⟨ys, hrest, cores, zs, hcores, hrest', hk⟩ | ⟨cores, zs, hcores, hrest', hk⟩)
      · rw [Cursor.past_rest hrest] at hrest'
        refine ⟨true, cores, zs, hcores, ?_, hk⟩
        rw [hrest, hrest']
        simp [countLine]
      · refine ⟨false, cores, zs, hcores, ?_, hk⟩
        rw [hrest']
        simp [countLine]
    · rintro ⟨_ | _, cores, zs, hcores, hrest, hk⟩
      · refine Or.inr ⟨cores, zs, hcores, ?_, hk⟩
        rw [hrest]
        simp [countLine]
      · have hrest' : c.rest = "Private ".toList ++ (cores ++ " x".toList ++ zs) := by
          rw [hrest]
          simp [countLine]
        exact Or.inl ⟨_, hrest', cores, zs, hcores, Cursor.past_rest hrest', hk⟩

theorem barred_counted : Barred blanks fun c => (sequence counted).run c k := by
  intro d x ys hrest hx
  cases hrun : (sequence counted).run d k with
  | none => exact hrun
  | some b =>
      obtain ⟨shared, cores, zs, hcores, hline, -⟩ := run_counted_iff.mp hrun
      have hsolid : Solid (countLine shared cores) := solid_countLine hcores
      obtain ⟨h, rest, hhead, hh⟩ := hsolid.head
      rw [hrest, hhead, List.cons_append] at hline
      rw [contains_blanks, (List.cons.inj hline).1, hh] at hx
      cases hx

/-- The number of cores that is read is the one behind the leading blanks. -/
theorem coreCount_iff {cores : List Char} :
    (CpuRule.coreCount.matchFront? s).bind (·.group? 1) = some cores
      ↔ ∃ shared, IsCount cores ∧ ∃ bs ys, (∀ b ∈ bs, Text.isBlank b = true)
        ∧ s.toList = bs ++ countLine shared cores ++ ys := by
  have hgroup (e : Cursor) (xs : List Char) : (e.hold 1 xs).group? 1 = some xs := by
    simp [Cursor.group?, Cursor.hold]
  rw [Option.bind_eq_some_iff]
  simp only [matchFront?, coreCount_eq, run_sequence_cons _ counted, run_any_iff barred_counted,
    run_counted_iff, contains_blanks]
  constructor
  · rintro ⟨c, ⟨bs, ys, hbs, hline, shared, found, zs, hfound, hrest, hc⟩, hcores⟩
    obtain rfl : found = cores := by
      rw [← Option.some.inj hc, hgroup] at hcores
      exact Option.some.inj hcores
    rw [Cursor.past_rest hline] at hrest
    refine ⟨shared, hfound, bs, zs, hbs, ?_⟩
    rw [List.append_assoc, ← hrest]
    exact hline
  · rintro ⟨shared, hcores, bs, zs, hbs, hline⟩
    rw [List.append_assoc] at hline
    refine ⟨_, ⟨bs, _, hbs, hline, shared, cores, zs, hcores, ?_, rfl⟩, hgroup _ _⟩
    exact Cursor.past_rest (c := .start s) hline

/-! ## Guests -/

/-- The figures of a speed, as the slot for guests has them. -/
def speedFigures : CharSet := { ranges := [.between '0' '9', .single '.'] }

/-- What the slot for the processor of a guest asks for. -/
def guestCpu : Pattern :=
  sequence (stretch digits (' ' :: "x ".toList) ++ (field 1 speedFigures (' ' :: "GHz Core".toList)
    ++ [.times true 0 (some 1) (.char (.single 's'))]))

theorem parse_guestCpu : parse? "[0-9]+ x ([0-9.]+) GHz Core[s]?" = some guestCpu := by
  decide +kernel

theorem contains_speedFigures {x : Char} :
    speedFigures.contains x = true ↔ x.isDigit = true ∨ x = '.' := by
  rw [isDigit_iff]
  simp [speedFigures, CharSet.contains, CharSet.covers, CharRange.contains]

/-- The slot takes the lines that the processor rule can read, but for those with a word in front. -/
theorem guestCpu_iff : guestCpu.matchesWhole s = true ↔ ∃ cores speed, ∃ plural : Bool,
    IsCount cores ∧ IsFigures speed ∧ s.toList = speedLine false plural cores speed := by
  rw [matchesWhole_iff, guestCpu]
  simp only [run_speedLine_iff contains_speedFigures]
  constructor
  · rintro ⟨d, cores, speed, plural, hcores, hspeed, hline, -⟩
    exact ⟨cores, speed, plural, hcores, hspeed, hline⟩
  · rintro ⟨cores, speed, plural, hcores, hspeed, hline⟩
    exact ⟨_, cores, speed, plural, hcores, hspeed, hline, rfl⟩

/-- Such a line has no blanks around it. -/
theorem solid_speedLine {plural : Bool} {cores speed : List Char} (hcores : IsCount cores) :
    Solid (speedLine false plural cores speed) := by
  constructor
  · obtain ⟨x, more, rfl⟩ := List.exists_cons_of_ne_nil hcores.1
    exact ⟨x, _, rfl, Text.isBlank_eq_false (.inl (hcores.2 x (List.mem_cons_self ..)))⟩
  · have hcore : " GHz Core".toList = " GHz Cor".toList ++ ['e'] := rfl
    rw [speedLine, hcore]
    cases plural with
    | true => exact ⟨_, 's', rfl, by decide⟩
    | false =>
        refine ⟨cores ++ " x ".toList ++ speed ++ " GHz Cor".toList, 'e', ?_, by decide⟩
        simp only [List.append_assoc, List.append_nil, List.nil_append, Bool.false_eq_true, if_false]

theorem solid_of_guestCpu (h : guestCpu.matchesWhole s = true) : Solid s.toList := by
  obtain ⟨cores, speed, plural, hcores, -, hline⟩ := guestCpu_iff.mp h
  rw [hline]
  exact solid_speedLine hcores

end Pattern

/-! ## Padded listings -/

/-- Blanks to put around descriptions, by the place of the item. -/
structure Padding where
  front : Nat → List Char
  back : Nat → List Char
  front_blank : ∀ place, ∀ c ∈ front place, Text.isBlank c = true
  back_blank : ∀ place, ∀ c ∈ back place, Text.isBlank c = true

namespace Padding

variable {p : Padding}

/-- The description of an item with its blanks around it. -/
def text (p : Padding) (item : Item) : String :=
  String.ofList (p.front item.place ++ item.description.toList ++ p.back item.place)

/-- The listing with blanks around the descriptions. -/
def listing (p : Padding) (items : List Item) : List Item :=
  items.mapIdx fun place item =>
    { item with
      description := String.ofList (p.front place ++ item.description.toList ++ p.back place) }

/-- Whether the description of an item is left as it is. -/
def spares (p : Padding) (item : Item) : Bool :=
  (p.front item.place).isEmpty && (p.back item.place).isEmpty

theorem toList_text (item : Item) :
    (p.text item).toList = p.front item.place ++ item.description.toList ++ p.back item.place :=
  String.toList_ofList

theorem placed_listing (items : List Item) :
    Catalog.placed (p.listing items) = (Catalog.placed items).map (Item.reworded p.text) := by
  refine List.ext_getElem (by simp [Catalog.placed, listing]) fun i hi hi' => ?_
  simp [Catalog.placed, listing, Item.reworded, text]

theorem trim_text (item : Item) : Text.trim (p.text item) = Text.trim item.description := by
  rw [Text.trim, toList_text, Text.trimBy_padded (p.front_blank _) (p.back_blank _)]
  rfl

theorem volume_reworded (rules : Rules) (item : Item) :
    rules.volume (item.reworded p.text) = rules.volume item := by
  have hsan : Text.holds ['S', 'A', 'N'] (p.text item).toList
      = Text.holds ['S', 'A', 'N'] item.description.toList := by
    rw [toList_text]
    refine Text.holds_padded (List.cons_ne_nil _ _) ?_ (p.front_blank _) (p.back_blank _)
    simp only [List.mem_cons, List.not_mem_nil, or_false, forall_eq_or_imp, forall_eq]
    decide
  rw [Rules.volume, Item.reworded_description, hsan]
  rfl

theorem cores_of_none {item : Item} (h : item.capacity = none) : CpuRule.cores item
    = match (CpuRule.coreCount.matchFront? item.description).bind (·.group? 1) with
      | some cs => CpuRule.groupNumber (some cs)
      | none => .ok 0 := by
  simp only [CpuRule.cores, h]
  cases hmatch : CpuRule.coreCount.matchFront? item.description with
  | none => rfl
  | some c =>
      obtain ⟨cs, -, hgroup⟩ := Pattern.group?_coreCount hmatch
      simp only [Option.bind_some, hgroup]

theorem cores_reworded (item : Item) :
    CpuRule.cores (item.reworded p.text) = CpuRule.cores item := by
  cases hcapacity : item.capacity with
  | some x => simp only [CpuRule.cores, Item.reworded_capacity, hcapacity]
  | none =>
      have hsame : (CpuRule.coreCount.matchFront? (p.text item)).bind (·.group? 1)
          = (CpuRule.coreCount.matchFront? item.description).bind (·.group? 1) := by
        ext cs
        rw [Pattern.coreCount_iff, Pattern.coreCount_iff, toList_text]
        refine exists_congr fun shared => and_congr_right fun hcount => ?_
        exact leading_padded_iff (Pattern.solid_countLine hcount) (p.front_blank _)
          (p.back_blank _)
      have hcapacity' : (item.reworded p.text).capacity = none := hcapacity
      rw [cores_of_none hcapacity, cores_of_none hcapacity',
        Item.reworded_description, hsame]

/-- Every processor rule reads a padded item as it reads the item. -/
theorem describe_reworded (rule : CpuRule) (item : Item) :
    rule.describe (some (item.reworded p.text)) = rule.describe (some item) := by
  cases rule with
  | capacity e default =>
      simp only [CpuRule.describe, Item.reworded_description, trim_text, cores_reworded]
  | bareMetal e =>
      simp only [CpuRule.describe, Item.reworded_description, Item.reworded_capacity, trim_text]
  | fixed cores speed => rfl

theorem blind (p : Padding) (rules : Rules) : rules.Blind p.text :=
  ⟨describe_reworded rules.cpu, volume_reworded rules⟩

theorem text_of_spares {item : Item} (h : p.spares item = true) : p.text item = item.description := by
  simp only [spares, Bool.and_eq_true, List.isEmpty_iff] at h
  rw [text, h.1, h.2, List.nil_append, List.append_nil, String.ofList_toList]

/-- The slot for the processor of a guest takes an item only without blanks around it. -/
theorem guestCpu_text (item : Item) : Pattern.guestCpu.matchesWhole (p.text item)
    = (p.spares item && Pattern.guestCpu.matchesWhole item.description) := by
  cases hspares : p.spares item with
  | true => rw [text_of_spares hspares, Bool.true_and]
  | false =>
      rw [Bool.false_and, Bool.eq_false_iff]
      intro hmatch
      have hsolid := Pattern.solid_of_guestCpu hmatch
      rw [toList_text] at hsolid
      have hback : p.back item.place = [] := hsolid.eq_nil_of_back (p.back_blank _)
      rw [List.append_assoc] at hsolid
      have hfront : p.front item.place = [] := hsolid.eq_nil_of_front (p.front_blank _)
      simp [spares, hfront, hback] at hspares

end Padding

/-! ## The slots of the supported families -/

theorem Slot.description_of_make_none {role : String} {category : Option String} {optional : Bool}
    {slot : Slot} (h : Slot.make role category none optional = .ok slot) :
    slot.description = none :=
  (Except.ok.inj (source_of_make_ok h).2).symm

/-- A slot in front that takes whatever item has a description like those of a guest's processor,
and slots behind it that do not look at descriptions. -/
structure Rules.GuestSlots (rules : Rules) (cpu : Slot) (rest : List Slot) : Prop where
  slots : rules.slots = cpu :: rest
  role : cpu.role = "cpu"
  required : cpu.optional = false
  category : cpu.category = none
  description : ∃ e, cpu.description = some e ∧ e.pattern = .guestCpu
  others : ∀ slot ∈ rest, slot.description = none

namespace FamilySpec

variable {τ : Type} [Duration τ] {rules : Rules}

theorem guestRules_slots (h : guestRules (Config.usual : Config τ) = .ok rules) :
    ∃ cpu rest, rules.GuestSlots cpu rest := by
  obtain ⟨parts⟩ := guestParts h
  obtain ⟨hslots, -⟩ := Rules.of_make_ok parts.made
  obtain ⟨hcategory, hdescription⟩ := Slot.source_of_make_ok parts.cpu_made
  obtain ⟨e, he, hdescription⟩ := Expression.of_ofText?_ok hdescription
  refine ⟨parts.cpu, [parts.ram, parts.disk, parts.uplink, parts.bandwidth], hslots, parts.roles.1,
    (Slot.of_make_ok parts.cpu_made).2, hcategory,
    ⟨e, hdescription, Expression.pattern_of_ofText he Pattern.parse_guestCpu⟩, ?_⟩
  have hdisk := @Slot.description_of_make_none _ (some "guest_disk0") _ _ parts.disk_made
  simp only [List.forall_mem_cons, Slot.description_of_make_none parts.ram_made, hdisk,
    Slot.description_of_make_none parts.uplink_made,
    Slot.description_of_make_none parts.bandwidth_made]
  simp

theorem descriptions_of_make {pairs : List (String × String)} {slots : List Slot} {cpu : CpuRule}
    {settings : Rules.Settings}
    (hslots : pairs.mapM (fun (role, category) => Slot.make role (some category) none false)
      = .ok slots) (h : Rules.make slots cpu settings = .ok rules) :
    ∀ slot ∈ rules.slots, slot.description = none := by
  rw [(Rules.of_make_ok h).1]
  intro slot hslot
  obtain ⟨pair, -, hnone⟩ := exists_of_forall₂ (forall₂_of_mapM_ok
    (R := fun (_ : String × String) (slot : Slot) => slot.description = none)
    (fun _ _ hmade => Slot.description_of_make_none hmade) hslots) hslot
  exact hnone

/-- Only guests have a slot that looks at descriptions. -/
theorem supported_slots {specs : List (FamilySpec τ)} (hspecs : supported Config.usual = .ok specs)
    {spec : FamilySpec τ} (hspec : spec ∈ specs) :
    (spec.family ≠ 46 ∧ ∀ slot ∈ spec.rules.slots, slot.description = none)
      ∨ (spec.family = 46 ∧ ∃ cpu rest, spec.rules.GuestSlots cpu rest) := by
  obtain ⟨s, hbuilt, hconfigured⟩ := mem_supported hspecs hspec
  obtain ⟨policies, -, rfl⟩ := of_configured_ok hconfigured
  show (s.family ≠ 46 ∧ ∀ slot ∈ s.rules.slots, slot.description = none)
    ∨ (s.family = 46 ∧ ∃ cpu rest, s.rules.GuestSlots cpu rest)
  rcases built_of_builders hbuilt with h | h | h | h
  · obtain ⟨rules, strategy, hrules, heq⟩ := h.rules
    obtain ⟨cpu, rest, hslots⟩ := guestRules_slots hrules
    rw [heq]
    exact Or.inr ⟨by simpa using h.family, cpu, rest, hslots.slots, hslots.role, hslots.required,
      hslots.category, hslots.description, hslots.others⟩
  · obtain ⟨rules, strategy, hrules, heq⟩ := h.rules
    have hfamily : s.family = 50 := by simpa using h.family
    obtain ⟨slots, hmade, hrules⟩ := ok_of_bind hrules
    obtain ⟨rule, -, hrules⟩ := ok_of_bind hrules
    have hnone := descriptions_of_make hmade hrules
    rw [heq]
    exact Or.inl ⟨by omega, hnone⟩
  · obtain ⟨rules, strategy, hrules, heq⟩ := h.rules
    have hfamily : s.family = 23 ∨ s.family = 142 := by simpa using h.family
    obtain ⟨slots, hmade, hrules⟩ := ok_of_bind hrules
    have hnone := descriptions_of_make hmade hrules
    rw [heq]
    exact Or.inl ⟨by omega, hnone⟩
  · obtain ⟨rules, strategy, hrules, heq⟩ := h.rules
    have hfamily : s.family = 42 ∨ s.family = 44 := by simpa using h.family
    obtain ⟨slots, hmade, hrules⟩ := ok_of_bind hrules
    have hnone := descriptions_of_make hmade hrules
    rw [heq]
    exact Or.inl ⟨by omega, hnone⟩

end FamilySpec

/-! ## A slot that loses candidates -/

namespace Rules

variable {rules : Rules} {family : Int} {catalog catalog' : Catalog} {text : Item → String}

/-- Whether the first item of a combination, if it has one, is kept. -/
def leads (keeps : Item → Bool) (c : List (Option Item)) : Bool := c.head?.join.all keeps

/-- With fewer candidates for the first slot, the combinations of the others are left. -/
theorem product_narrowed (keeps : Item → Bool) (items : List Item)
    (tails : List (List (Option Item))) : product ((items.filter keeps).map some :: tails)
      = (product (items.map some :: tails)).filter (leads keeps) := by
  have hrow (item : Item) : ((product tails).map (some item :: ·)).filter (leads keeps)
      = if keeps item then (product tails).map (some item :: ·) else [] := by
    have hleads (tail : List (Option Item)) : leads keeps (some item :: tail) = keeps item := rfl
    rw [List.filter_map]
    cases hkeeps : keeps item <;> simp [Function.comp_def, hleads, hkeeps]
  induction items with
  | nil => rfl
  | cons item rest ih =>
      have hcons (items : List Item) : product ((item :: items).map some :: tails)
          = (product tails).map (some item :: ·) ++ product (items.map some :: tails) := rfl
      rw [hcons, List.filter_append, ← ih, hrow, List.filter_cons]
      cases keeps item with
      | true => exact hcons _
      | false => rfl

theorem choices_of_vacant {slot : Slot} {slots : List Slot} (hrequired : slot.optional = false)
    (hnone : slot.candidates catalog = []) : choices catalog (slot :: slots) = .error slot := by
  have hvacant : slot.isVacant catalog = true := Slot.isVacant_iff.mpr ⟨hrequired, hnone⟩
  rw [choices, Slot.slotChoices?_eq, if_pos hvacant]

theorem choices_of_filled {slot : Slot} {slots : List Slot} (hsome : slot.candidates catalog ≠ []) :
    choices catalog (slot :: slots)
      = (choices catalog slots).map ((slot.candidates catalog).map some :: ·) := by
  have hvacant : ¬ slot.isVacant catalog = true := fun h => hsome (Slot.isVacant_iff.mp h).2
  rw [choices, Slot.slotChoices?_eq, if_neg hvacant, Slot.fillings_of_ne_nil hsome]

/-- With fewer candidates for the first slot there may be no combination any more, or there are
those that it leaves. -/
theorem choices_narrowed {cpu : Slot} {rest : List Slot} (hrequired : cpu.optional = false)
    {keeps : Item → Bool} (hcpu : cpu.candidates catalog'
      = ((cpu.candidates catalog).filter keeps).map (Item.reworded text))
    (hrest : ∀ slot ∈ rest, slot.SameCandidates text catalog catalog') :
    match choices catalog (cpu :: rest) with
    | .error _ => ∃ slot, choices catalog' (cpu :: rest) = .error slot
    | .ok lists =>
      (∃ slot, choices catalog' (cpu :: rest) = .error slot
        ∧ (product lists).filter (leads keeps) = [])
      ∨ ∃ lists', choices catalog' (cpu :: rest) = .ok lists'
        ∧ product lists' = ((product lists).filter (leads keeps)).map (rewordedChoice text) := by
  by_cases hnil : cpu.candidates catalog = []
  · rw [choices_of_vacant hrequired hnil]
    refine ⟨cpu, choices_of_vacant hrequired ?_⟩
    rw [hcpu, hnil]
    rfl
  · rw [choices_of_filled hnil]
    by_cases hnil' : cpu.candidates catalog' = []
    · have hfiltered : (cpu.candidates catalog).filter keeps = [] := by
        rw [hcpu, List.map_eq_nil_iff] at hnil'
        exact hnil'
      cases choices catalog rest with
      | error slot => exact ⟨cpu, choices_of_vacant hrequired hnil'⟩
      | ok tails =>
          refine Or.inl ⟨cpu, choices_of_vacant hrequired hnil', ?_⟩
          rw [← product_narrowed, hfiltered]
          rfl
    · rw [choices_of_filled hnil', choices_reworded hrest]
      cases choices catalog rest with
      | error slot => exact ⟨slot, rfl⟩
      | ok tails =>
          refine Or.inr ⟨_, rfl, ?_⟩
          rw [← product_narrowed, hcpu]
          have hmap := product_map (Option.map (Item.reworded text))
            (((cpu.candidates catalog).filter keeps).map some :: tails)
          rw [List.map_cons, List.map_map] at hmap
          rw [List.map_map]
          exact hmap

theorem extras_of_none (hdisks : rules.extraDiskIds = [])
    (hcontroller : rules.controllerCategory = none) : rules.extras family catalog = .ok [] := by
  simp only [extras, extraDiskItems, hdisks, controllerItems, hcontroller]
  rfl

theorem enumerate_of_error {slot : Slot} (h : choices catalog rules.slots = .error slot) :
    rules.enumerate family catalog = { log := [emptySlotRecord family slot] } := by
  unfold enumerate
  rw [h]

theorem enumerate_of_ok {lists : List (List (Option Item))} {extras : List Item}
    (h : choices catalog rules.slots = .ok lists)
    (hextras : rules.extras family catalog = .ok extras) :
    rules.enumerate family catalog = rules.profilesOf family extras (product lists) := by
  unfold enumerate
  simp only [h, hextras]

/-- If the first slot loses candidates, what is left of an enumeration are the combinations that the
others lead. -/
theorem enumerate_narrowed (hblind : rules.Blind text) {cpu : Slot} {rest : List Slot}
    (hslots : rules.slots = cpu :: rest) (hrequired : cpu.optional = false) {keeps : Item → Bool}
    (hcpu : cpu.candidates catalog'
      = ((cpu.candidates catalog).filter keeps).map (Item.reworded text))
    (hrest : ∀ slot ∈ rest, slot.SameCandidates text catalog catalog')
    (hextras : rules.extras family catalog' = .ok []) :
    let e' := rules.enumerate family catalog'
    (∀ slot, choices catalog rules.slots = .error slot → e'.profiles = [] ∧ e'.failure = none)
      ∧ ∀ lists, choices catalog rules.slots = .ok lists →
        (rules.profilesOf family [] ((product lists).filter (leads keeps))).Reworded text e' := by
  intro e'
  have hchoices := choices_narrowed hrequired hcpu hrest
  rw [← hslots] at hchoices
  constructor
  · intro slot hslot
    rw [hslot] at hchoices
    obtain ⟨missing, hmissing⟩ := hchoices
    rw [show e' = _ from enumerate_of_error hmissing]
    exact ⟨rfl, rfl⟩
  · intro lists hlists
    rw [hlists] at hchoices
    rcases hchoices with ⟨missing, hmissing, hnil⟩ | ⟨lists', hlists', hproduct⟩
    · rw [show e' = _ from enumerate_of_error hmissing, hnil]
      exact ⟨rfl, rfl⟩
    · rw [show e' = _ from enumerate_of_ok hlists' hextras, hproduct]
      exact profilesOf_reworded hblind [] _

/-- The slot for the processor of a guest takes the items that are spared. -/
theorem GuestSlots.candidates_padded {p : Padding} {cpu : Slot} {rest : List Slot}
    (h : rules.GuestSlots cpu rest) (hreworded : Catalog.Reworded p.text catalog catalog') :
    cpu.candidates catalog'
      = ((cpu.candidates catalog).filter p.spares).map (Item.reworded p.text) := by
  obtain ⟨e, hdescription, hpattern⟩ := h.description
  simp only [Slot.candidates, h.category, hdescription, hreworded.items, List.filter_map,
    List.filter_filter, Expression.accepts, hpattern]
  refine congrArg (List.map _) (List.filter_congr fun item _ => ?_)
  exact Padding.guestCpu_text item

end Rules

/-! ## Padded enumerations -/

namespace FamilySpec

variable {τ : Type} [Duration τ]

theorem usual_plain {specs : List (FamilySpec τ)} (hspecs : supported Config.usual = .ok specs)
    {spec : FamilySpec τ} (hspec : spec ∈ specs) :
    spec.rules.Plain
      ∧ (spec.rules.controllerCategory = none ∨ spec.family = 42 ∨ spec.family = 44) := by
  refine supported_plain ?_ hspecs hspec
  show Price.idTexts "" = []
  decide

/-- **Blanks around descriptions.** Every processor rule reads an item with blanks around its
description as it reads the item. In all families but that of guests the same profiles are yielded
in the same order, whatever descriptions have blanks around them. The slot for the processor of a
guest takes only those items whose descriptions are left as they are, so an enumeration of guests
is one of the combinations with such a processor. -/
theorem enumerate_padded {specs : List (FamilySpec τ)} (hspecs : supported Config.usual = .ok specs)
    {spec : FamilySpec τ} (hspec : spec ∈ specs) (p : Padding) (listing : List Item) :
    let rules := spec.rules
    let catalog := Catalog.ofItems listing
    let catalog' := Catalog.ofItems (p.listing listing)
    let e := rules.enumerate spec.family catalog
    let e' := rules.enumerate spec.family catalog'
    (∀ item : Item, rules.cpu.describe (some (item.reworded p.text))
      = rules.cpu.describe (some item))
    ∧ (spec.family ≠ 46 → e.Reworded p.text e')
    ∧ (spec.family = 46 → ∃ cpu rest, rules.slots = cpu :: rest ∧ cpu.role = "cpu"
      ∧ cpu.candidates catalog'
        = ((cpu.candidates catalog).filter p.spares).map (Item.reworded p.text)
      ∧ (∀ slot, Rules.choices catalog rules.slots = .error slot →
        e'.profiles = [] ∧ e'.failure = none)
      ∧ ∀ lists, Rules.choices catalog rules.slots = .ok lists →
        (rules.profilesOf spec.family [] ((product lists).filter (Rules.leads p.spares))).Reworded
          p.text e') := by
  intro rules catalog catalog' e e'
  obtain ⟨hplain, hcontroller⟩ := usual_plain hspecs hspec
  have hreworded : Catalog.Reworded p.text catalog catalog' :=
    Catalog.reworded_of_placed (p.placed_listing listing)
  refine ⟨Padding.describe_reworded rules.cpu, ?_⟩
  rcases supported_slots hspecs hspec with ⟨hother, hslots⟩ | ⟨hguest, cpu, rest, hslots⟩
  · refine ⟨fun _ => ?_, fun hguest => absurd hguest hother⟩
    exact Rules.enumerate_reworded (p.blind rules) hreworded
      (fun slot hslot => Slot.sameCandidates_of_none hreworded (hslots slot hslot)) hplain.noDisks
  · refine ⟨fun hother => absurd hguest hother, fun _ => ?_⟩
    have hcpu := hslots.candidates_padded hreworded
    have hrest : ∀ slot ∈ rest, slot.SameCandidates p.text catalog catalog' :=
      fun slot hslot => Slot.sameCandidates_of_none hreworded (hslots.others slot hslot)
    have hnone : rules.controllerCategory = none := hcontroller.resolve_right (by omega)
    have hextras : rules.extras spec.family catalog' = .ok [] :=
      Rules.extras_of_none hplain.noDisks hnone
    exact ⟨cpu, rest, hslots.slots, hslots.role, hcpu,
      Rules.enumerate_narrowed (p.blind rules) hslots.slots hslots.required hcpu hrest hextras⟩

/-- A blank in front of every description and two behind it. -/
def indented : Padding where
  front := fun _ => ['\t']
  back := fun _ => [' ', '\n']
  front_blank := fun _ => List.all_eq_true.mp (by decide)
  back_blank := fun _ => List.all_eq_true.mp (by decide)

/-- Bare metal instances are listed with blanks around all descriptions. -/
theorem enumerate_padded_indented :
    ∃ specs, supported (Config.usual : Config Rat) = .ok specs ∧ ∃ spec ∈ specs, spec.family = 50
      ∧ let listing := bareMetalListing "Windows"
        let e := spec.rules.enumerate spec.family (.ofItems listing)
        let e' := spec.rules.enumerate spec.family (.ofItems (indented.listing listing))
        e.profiles.length = 1 ∧ e'.profiles = e.profiles.map (Profile.reworded indented.text)
          ∧ e'.failure = none := by
  obtain ⟨specs, hspecs, spec, hspec, hfamily, -, -, -, hone, -, hfailed⟩ :=
    of_bareMetalCounts counts_windows
  obtain ⟨-, hsame, -⟩ := enumerate_padded hspecs hspec indented (bareMetalListing "Windows")
  obtain ⟨hprofiles, hfailure⟩ := hsame (by omega)
  refine ⟨specs, hspecs, spec, hspec, hfamily, hone, hprofiles, ?_⟩
  rw [hfailure]
  simpa using hfailed

/-- A listing for guests, with this description of the processor. -/
def guestListing (description : String) : List Item :=
  [{ id := 1, description, capacity := some 2, categories := ["guest_core"], prices := [123] },
    { id := 2, description := "2 GB", capacity := some 2, categories := ["ram"], prices := [456] },
    { id := 3, description := "100 GB (SAN)", capacity := some 100, categories := ["guest_disk0"]
      prices := [789] },
    { id := 4, description := "10 Mbps Public & Private Networks", capacity := some 10
      categories := ["port_speed"], prices := [272] }]

/-- The ids of the profiles that such a listing has. -/
def guestIds (description : String) (specs : List (FamilySpec Rat)) : Option (List String) :=
  (specs.find? (·.family == 46)).map fun spec =>
    (spec.rules.enumerate spec.family (.ofItems (guestListing description))).profiles.map Profile.id

theorem guestIds_eq : (supported (Config.usual : Config Rat)).toOption.map (fun specs =>
      (guestIds "2 x 2.0 GHz Cores" specs, guestIds "2 x 2.0 GHz Cores " specs))
    = some (some ["123,456,789,272"], some []) := by
  decide +kernel

/-- One blank behind the description of its processor, and a guest is offered no more. -/
theorem guest_lost_to_blank :
    ∃ specs, supported (Config.usual : Config Rat) = .ok specs ∧ ∃ spec ∈ specs, spec.family = 46
      ∧ (spec.rules.enumerate spec.family
          (.ofItems (guestListing "2 x 2.0 GHz Cores"))).profiles.map Profile.id
        = ["123,456,789,272"]
      ∧ (spec.rules.enumerate spec.family
          (.ofItems (guestListing "2 x 2.0 GHz Cores "))).profiles = [] := by
  obtain ⟨specs, hspecs, hids⟩ := Option.map_eq_some_iff.mp guestIds_eq
  obtain ⟨hplain, hblank⟩ := Prod.mk.inj hids
  obtain ⟨spec, hspec, hplain⟩ := Option.map_eq_some_iff.mp hplain
  obtain ⟨other, hother, hblank⟩ := Option.map_eq_some_iff.mp hblank
  obtain rfl : spec = other := Option.some.inj (hspec.symm.trans hother)
  refine ⟨specs, ok_of_toOption hspecs, spec, List.mem_of_find?_eq_some hspec,
    by simpa using List.find?_some hspec, hplain, ?_⟩
  exact List.map_eq_nil_iff.mp hblank

end FamilySpec

end Provision
