import Provision.Catalog.Rules
import Provision.Proofs.Figures
import Provision.Proofs.Matching

/-!
# Processor lines

The standard rules read the processor off a line such as 2 x 2.0 GHz Cores. A
match of their patterns is a reading of the line, and the only one
(`whole_coreSpeed_iff`, `whole_bareMetal_iff`). So it is known what stands
where a number is expected: for the cores it is a number in any case, but speed
and memory are just figures. An item whose line is `Garbled` in that way is
neither described nor ruled out, and it is the only kind of item of which this
is true (`describe_skippable_iff`). A failure that only rules out the item is
`Skippable`.
-/

namespace Provision

/-! ## Lines -/

/-- A line such as 2 x 2.0 GHz Cores, perhaps with the word Private in front. -/
def speedLine (shared plural : Bool) (cores speed : List Char) : List Char :=
  (if shared then "Private ".toList else []) ++ cores ++ " x ".toList ++ speed
    ++ " GHz Core".toList ++ if plural then ['s'] else []

/-- A line such as 16 x 2.0 GHz Core Bare Metal Instance - 64 GB Ram. -/
def bareMetalLine (cores speed ram : List Char) : List Char :=
  cores ++ " x ".toList ++ speed ++ " GHz Core Bare Metal Instance - ".toList ++ ram
    ++ " GB Ram".toList

namespace Pattern

def digits : CharSet := { ranges := [.between '0' '9'] }

def figures : CharSet := { ranges := [.single '.', .between '0' '9'] }

theorem isDigit_iff {c : Char} : c.isDigit = true ↔ 48 ≤ c.toNat ∧ c.toNat ≤ 57 := by
  simp only [Char.isDigit, Bool.and_eq_true, decide_eq_true_eq]
  exact Iff.rfl

theorem contains_digits {c : Char} : digits.contains c = true ↔ c.isDigit = true := by
  rw [isDigit_iff]
  simp [digits, CharSet.contains, CharSet.covers, CharRange.contains]

theorem contains_figures {c : Char} :
    figures.contains c = true ↔ c.isDigit = true ∨ c = '.' := by
  rw [isDigit_iff, or_comm]
  simp [figures, CharSet.contains, CharSet.covers, CharRange.contains]

def coreSpeed : Pattern :=
  sequence (.times true 0 (some 1) (.group 1 (sequence (literal "Private ".toList)))
    :: (stretch digits (' ' :: "x ".toList) ++ (field 2 figures (' ' :: "GHz Core".toList)
      ++ [.times true 0 (some 1) (.char (.single 's'))])))

theorem parse_coreSpeed : parse? CpuRule.defaultSpeedPattern = some coreSpeed := by
  decide +kernel

def bareMetal : Pattern :=
  sequence (field 1 digits (' ' :: "x ".toList)
    ++ (field 2 figures (' ' :: "GHz Core Bare Metal Instance - ".toList)
      ++ field 3 figures (' ' :: "GB Ram".toList)))

theorem parse_bareMetal : parse? CpuRule.defaultBareMetalPattern = some bareMetal := by
  decide +kernel

variable {α : Type} {c d : Cursor} {k : Cursor → Option α} {a : α}

theorem run_count_iff {x : Char} (hx : digits.contains x = false) {number : Nat} {text : List Char} :
    (sequence (field number digits (x :: text))).run c k = some a
      ↔ ∃ xs ys, IsCount xs ∧ c.rest = xs ++ x :: text ++ ys
        ∧ k ((c.past (xs ++ x :: text)).hold number xs) = some a := by
  rw [run_field_iff hx]
  simp only [contains_digits, IsCount, and_assoc]

theorem run_figures_iff {x : Char} (hx : figures.contains x = false) {number : Nat}
    {text : List Char} :
    (sequence (field number figures (x :: text))).run c k = some a
      ↔ ∃ xs ys, IsFigures xs ∧ c.rest = xs ++ x :: text ++ ys
        ∧ k ((c.past (xs ++ x :: text)).hold number xs) = some a := by
  rw [run_field_iff hx]
  simp only [contains_figures, IsFigures, and_assoc]

/-- A match of the whole text has nothing left over. -/
theorem whole_iff {p : Pattern} {s : String} :
    p.matchWhole? s = some d
      ↔ p.run (.start s) (fun c => if c.rest.isEmpty then some c else none) = some d := Iff.rfl

theorem ended_iff : (if c.rest.isEmpty then some c else none) = some d ↔ c.rest = [] ∧ c = d := by
  cases c.rest <;> simp

/-- Where the match of such a line ends. -/
def bareMetalEnd (s : String) (cores speed ram : List Char) : Cursor :=
  let c := ((Cursor.start s).past (cores ++ " x ".toList)).hold 1 cores
  let c := (c.past (speed ++ " GHz Core Bare Metal Instance - ".toList)).hold 2 speed
  (c.past (ram ++ " GB Ram".toList)).hold 3 ram

theorem whole_bareMetal_iff {s : String} :
    bareMetal.matchWhole? s = some d ↔ ∃ cores speed ram, IsCount cores ∧ IsFigures speed
      ∧ IsFigures ram ∧ s.toList = bareMetalLine cores speed ram
      ∧ bareMetalEnd s cores speed ram = d := by
  have hdigits : digits.contains ' ' = false := by decide
  have hfigures : figures.contains ' ' = false := by decide
  rw [whole_iff, bareMetal]
  simp only [run_sequence_append, run_count_iff hdigits, run_figures_iff hfigures, ended_iff]
  constructor
  · rintro ⟨cores, afterCores, hcores, hrest, speed, afterSpeed, hspeed, hrest', ram, afterRam, hram,
      hrest'', hnone, rfl⟩
    have h1 : afterCores = speed ++ " GHz Core Bare Metal Instance - ".toList ++ afterSpeed :=
      (Cursor.past_rest hrest).symm.trans hrest'
    have h2 : afterSpeed = ram ++ " GB Ram".toList ++ afterRam :=
      (Cursor.past_rest hrest').symm.trans hrest''
    have h3 : afterRam = [] := (Cursor.past_rest hrest'').symm.trans hnone
    refine ⟨cores, speed, ram, hcores, hspeed, hram, ?_, rfl⟩
    rw [h1, h2, h3] at hrest
    exact hrest.trans (by simp [bareMetalLine])
  · rintro ⟨cores, speed, ram, hcores, hspeed, hram, hline, rfl⟩
    have hrest : (Cursor.start s).rest = cores ++ ' ' :: "x ".toList
        ++ (speed ++ ' ' :: "GHz Core Bare Metal Instance - ".toList
          ++ (ram ++ ' ' :: "GB Ram".toList ++ [])) :=
      hline.trans (by simp [bareMetalLine])
    have hrest' := Cursor.past_rest hrest
    have hrest'' := Cursor.past_rest (c := (Cursor.past _ _).hold 1 cores) hrest'
    exact ⟨cores, _, hcores, hrest, speed, _, hspeed, hrest', ram, _, hram, hrest'',
      Cursor.past_rest (c := (Cursor.past _ _).hold 2 speed) hrest'', rfl⟩

theorem run_ending_iff :
    (sequence [.times true 0 (some 1) (.char (.single 's'))]).run c
        (fun c => if c.rest.isEmpty then some c else none) = some d
      ↔ ∃ plural : Bool, c.rest = (if plural then ['s'] else [])
        ∧ c.past (if plural then ['s'] else []) = d := by
  refine (run_optional_iff ['s'] (fun _ => run_literal_iff) ?_).trans ?_
  · intro ys hrest
    rw [hrest]
    rfl
  · simp only [ended_iff]
    constructor
    · rintro (⟨ys, hrest, hnone, rfl⟩ | ⟨hnone, rfl⟩)
      · rw [Cursor.past_rest hrest] at hnone
        rw [hnone] at hrest
        exact ⟨true, hrest, rfl⟩
      · exact ⟨false, hnone, rfl⟩
    · rintro ⟨_ | _, hrest, rfl⟩
      · exact Or.inr ⟨hrest, rfl⟩
      · exact Or.inl ⟨[], hrest, Cursor.past_cons_rest hrest, rfl⟩

/-- Where the match of such a line ends, after what may stand in front. -/
def speedEnd (c : Cursor) (cores speed : List Char) (plural : Bool) : Cursor :=
  (((c.past (cores ++ " x ".toList)).past (speed ++ " GHz Core".toList)).hold 2 speed).past
    (if plural then ['s'] else [])

/-- What can be read of such a line, whatever number the group of its speed has. -/
theorem run_speedLine_iff {number : Nat} {set : CharSet}
    (hset : ∀ {x}, set.contains x = true ↔ x.isDigit = true ∨ x = '.') :
    (sequence (stretch digits (' ' :: "x ".toList) ++ (field number set (' ' :: "GHz Core".toList)
      ++ [.times true 0 (some 1) (.char (.single 's'))]))).run c
        (fun c => if c.rest.isEmpty then some c else none) = some d
      ↔ ∃ cores speed, ∃ plural : Bool, IsCount cores ∧ IsFigures speed
        ∧ c.rest = speedLine false plural cores speed
        ∧ (((c.past (cores ++ " x ".toList)).past (speed ++ " GHz Core".toList)).hold number
          speed).past (if plural then ['s'] else []) = d := by
  have hdigits : digits.contains ' ' = false := by decide
  have hblank : set.contains ' ' = false := by
    rw [Bool.eq_false_iff, Ne, hset]
    decide
  simp only [run_sequence_append, run_stretch_iff hdigits, run_field_iff hblank, run_ending_iff,
    contains_digits, hset]
  constructor
  · rintro ⟨cores, afterCores, hne, hcores, hrest, speed, afterSpeed, hne', hspeed, hrest', plural,
      hrest'', rfl⟩
    have h1 : afterCores = speed ++ " GHz Core".toList ++ afterSpeed :=
      (Cursor.past_rest hrest).symm.trans hrest'
    have h2 : afterSpeed = if plural then ['s'] else [] :=
      (Cursor.past_rest hrest').symm.trans hrest''
    refine ⟨cores, speed, plural, ⟨hne, hcores⟩, ⟨hne', hspeed⟩, ?_, rfl⟩
    rw [h1, h2] at hrest
    exact hrest.trans (by simp [speedLine])
  · rintro ⟨cores, speed, plural, hcores, hspeed, hline, rfl⟩
    have hrest : c.rest = cores ++ ' ' :: "x ".toList
        ++ (speed ++ ' ' :: "GHz Core".toList ++ if plural then ['s'] else []) :=
      hline.trans (by simp [speedLine])
    have hrest' := Cursor.past_rest hrest
    exact ⟨cores, _, hcores.1, hcores.2, hrest, speed, _, hspeed.1, hspeed.2, hrest', plural,
      Cursor.past_rest hrest', rfl⟩

theorem run_coreSpeed_iff :
    (sequence (stretch digits (' ' :: "x ".toList) ++ (field 2 figures (' ' :: "GHz Core".toList)
      ++ [.times true 0 (some 1) (.char (.single 's'))]))).run c
        (fun c => if c.rest.isEmpty then some c else none) = some d
      ↔ ∃ cores speed, ∃ plural : Bool, IsCount cores ∧ IsFigures speed
        ∧ c.rest = speedLine false plural cores speed ∧ speedEnd c cores speed plural = d :=
  run_speedLine_iff contains_figures

/-- Where a word in front leaves the match. -/
def sharedEnd (c : Cursor) (shared : Bool) : Cursor :=
  if shared then (c.past "Private ".toList).hold 1 "Private ".toList else c

theorem whole_coreSpeed_iff {s : String} :
    coreSpeed.matchWhole? s = some d ↔ ∃ shared plural : Bool, ∃ cores speed, IsCount cores
      ∧ IsFigures speed ∧ s.toList = speedLine shared plural cores speed
      ∧ speedEnd (sharedEnd (.start s) shared) cores speed plural = d := by
  have hline : ∀ {plural : Bool} {cores speed}, speedLine true plural cores speed
      = "Private ".toList ++ speedLine false plural cores speed := by
    intro plural cores speed
    simp [speedLine]
  rw [whole_iff, coreSpeed, run_sequence_cons]
  refine (run_optional_iff "Private ".toList
    (e := ((Cursor.start s).past "Private ".toList).hold 1 "Private ".toList) ?_ ?_).trans ?_
  · intro a
    refine run_literal_iff.trans (exists_congr fun ys => and_congr_right fun hrest => ?_)
    rw [Cursor.past_close hrest]
  · intro ys hrest
    -- What begins with the word cannot be read without it: a number of cores begins with a digit.
    cases hrun : (sequence (stretch digits (' ' :: "x ".toList)
      ++ (field 2 figures (' ' :: "GHz Core".toList)
        ++ [.times true 0 (some 1) (.char (.single 's'))]))).run (.start s)
          (fun c => if c.rest.isEmpty then some c else none) with
    | none => rfl
    | some d =>
        obtain ⟨cores, speed, plural, hcores, -, hrest', -⟩ := run_coreSpeed_iff.mp hrun
        obtain ⟨x, more, rfl⟩ := List.exists_cons_of_ne_nil hcores.1
        have hhead : 'P' :: ("rivate ".toList ++ ys) = x :: _ := hrest.symm.trans hrest'
        have hx := hcores.2 x (List.mem_cons_self ..)
        rw [← (List.cons.inj hhead).1] at hx
        exact absurd hx (by decide)
  · constructor
    · rintro (⟨ys, hrest, hrun⟩ | hrun)
      · obtain ⟨cores, speed, plural, hcores, hspeed, hrest', rfl⟩ := run_coreSpeed_iff.mp hrun
        refine ⟨true, plural, cores, speed, hcores, hspeed, ?_, rfl⟩
        have hys : ys = speedLine false plural cores speed :=
          (Cursor.past_rest hrest).symm.trans hrest'
        rw [hline, ← hys]
        exact hrest
      · obtain ⟨cores, speed, plural, hcores, hspeed, hrest', rfl⟩ := run_coreSpeed_iff.mp hrun
        exact ⟨false, plural, cores, speed, hcores, hspeed, hrest', rfl⟩
    · rintro ⟨_ | _, plural, cores, speed, hcores, hspeed, hrest, rfl⟩
      · exact Or.inr (run_coreSpeed_iff.mpr
          ⟨cores, speed, plural, hcores, hspeed, hrest, rfl⟩)
      · have hrest' : (Cursor.start s).rest = "Private ".toList ++ speedLine false plural cores speed :=
          hrest.trans hline
        exact Or.inl ⟨_, hrest', run_coreSpeed_iff.mpr
          ⟨cores, speed, plural, hcores, hspeed, Cursor.past_rest hrest', rfl⟩⟩

theorem lastGroup?_speedEnd (cores speed : List Char) (plural : Bool) :
    (speedEnd c cores speed plural).lastGroup? = some speed := by
  simp [speedEnd, Cursor.lastGroup?, Cursor.hold]

theorem group?_bareMetalEnd (s : String) (cores speed ram : List Char) :
    (bareMetalEnd s cores speed ram).group? 1 = some cores
      ∧ (bareMetalEnd s cores speed ram).group? 2 = some speed
      ∧ (bareMetalEnd s cores speed ram).group? 3 = some ram := by
  simp [bareMetalEnd, Cursor.group?, Cursor.hold]

/-- Whatever stands in front, the number of cores is a run of digits. -/
theorem group?_coreCount {s : String} (h : CpuRule.coreCount.matchFront? s = some c) :
    ∃ cores, IsCount cores ∧ c.group? 1 = some cores := by
  have hdigits : digits.contains ' ' = false := by decide
  unfold CpuRule.coreCount matchFront? at h
  rw [run_sequence_cons] at h
  obtain ⟨c₁, h⟩ := exists_of_run h
  rw [run_sequence_cons] at h
  obtain ⟨c₂, h⟩ := exists_of_run h
  have hfield : (sequence (field 1 digits [' ', 'x'])).run c₂ some = some c := h
  obtain ⟨cores, _, hcores, -, hc⟩ := (run_count_iff hdigits).mp hfield
  refine ⟨cores, hcores, ?_⟩
  rw [← Option.some.inj hc]
  simp [Cursor.group?, Cursor.hold]

end Pattern

/-! ## What may only be skipped -/

section Skippable

variable {α β : Type}

/-- A failure, if there is one, only rules out the combination that it is about. -/
def Skippable (x : Except Fault α) : Prop :=
  ∀ fault, x = .error fault → ∃ cause, fault = .resolution cause

theorem skippable_ok (a : α) : Skippable (.ok a : Except Fault α) := fun _ => nofun

theorem skippable_resolution (cause : ResolutionFault) :
    Skippable (.error (.resolution cause) : Except Fault α) := by
  rintro fault ⟨⟩
  exact ⟨cause, rfl⟩

theorem not_skippable_data {x : Except Fault α} {cause : DataFault}
    (h : x = .error (.data cause)) : ¬ Skippable x := by
  intro hskip
  obtain ⟨other, hother⟩ := hskip _ h
  cases hother

/-- What comes afterwards does not matter, if it can only be skipped itself. -/
theorem skippable_bind_iff {x : Except Fault α} {f : α → Except Fault β}
    (hf : ∀ a, Skippable (f a)) : Skippable (x >>= f) ↔ Skippable x := by
  cases x with
  | ok a => exact iff_of_true (hf a) (skippable_ok a)
  | error fault => exact ⟨fun h e he => h e (by cases he; rfl), fun h e he => h e (by cases he; rfl)⟩

theorem skippable_map_iff {x : Except Fault α} (f : α → β) :
    Skippable (x.map f) ↔ Skippable x := by
  cases x with
  | ok a => exact iff_of_true (skippable_ok _) (skippable_ok a)
  | error fault => exact ⟨fun h e he => h e (by cases he; rfl), fun h e he => h e (by cases he; rfl)⟩

theorem skippable_mapM {f : α → Except Fault β} (hf : ∀ a, Skippable (f a)) (as : List α) :
    Skippable (as.mapM f) := by
  induction as with
  | nil => exact skippable_ok []
  | cons a as ih =>
      rw [List.mapM_cons]
      refine (skippable_bind_iff fun b => ?_).mpr (hf a)
      exact (skippable_bind_iff fun bs => skippable_ok (b :: bs)).mpr ih

end Skippable

/-! ## Descriptions -/

namespace CpuRule

/-- A rule with the pattern that its kind has by default. -/
def Standard : CpuRule → Prop
  | capacity e _ => e.text = defaultSpeedPattern
  | bareMetal e => e.text = defaultBareMetalPattern
  | fixed _ _ => True

/-- A line for a standard rule that shows something else where a number should be. -/
def Garbled (rule : CpuRule) (description : String) : Prop :=
  let line := (Text.trim description).toList
  match rule with
  | capacity _ _ => ∃ shared plural : Bool, ∃ cores speed, IsCount cores ∧ IsFigures speed
      ∧ line = speedLine shared plural cores speed ∧ ¬ IsNumber speed
  | bareMetal _ => ∃ cores speed ram, IsCount cores ∧ IsFigures speed ∧ IsFigures ram
      ∧ line = bareMetalLine cores speed ram ∧ ¬ (IsNumber speed ∧ IsNumber ram)
  | fixed _ _ => False

theorem groupNumber_ok {cs : List Char} (h : IsFigures cs) (hnumber : IsNumber cs) :
    groupNumber (some cs) = .ok (Decimal.ofFigures cs).toFloat := by
  simp only [groupNumber, Decimal.read?_figures h, if_pos hnumber]

theorem groupNumber_error {cs : List Char} (h : IsFigures cs) (hnumber : ¬ IsNumber cs) :
    groupNumber (some cs) = .error (.data .notNumeric) := by
  simp only [groupNumber, Decimal.read?_figures h, if_neg hnumber]

theorem cores_ok (item : Item) : ∃ x, cores item = .ok x := by
  unfold cores
  cases item.capacity with
  | some x => exact ⟨x, rfl⟩
  | none =>
      cases hmatch : coreCount.matchFront? item.description with
      | none => exact ⟨0, rfl⟩
      | some c =>
          obtain ⟨cs, hcs, hgroup⟩ := Pattern.group?_coreCount hmatch
          simp only [hgroup]
          exact ⟨_, groupNumber_ok hcs.isFigures hcs.isNumber⟩

theorem speedOf_line {e : Expression} (he : e.pattern = .coreSpeed) (default : Float)
    {description : String} {shared plural : Bool} {cores speed : List Char} (hcores : IsCount cores)
    (hspeed : IsFigures speed) (hline : description.toList = speedLine shared plural cores speed) :
    speedOf e default description = groupNumber (some speed) := by
  have hmatch := Pattern.whole_coreSpeed_iff.mpr
    ⟨shared, plural, cores, speed, hcores, hspeed, hline, rfl⟩
  obtain ⟨x, more, rfl⟩ := List.exists_cons_of_ne_nil hspeed.1
  unfold speedOf
  rw [he, hmatch, Option.bind_some, Pattern.lastGroup?_speedEnd]

theorem speedOf_cases {e : Expression} (he : e.pattern = .coreSpeed) (default : Float)
    (description : String) : speedOf e default description = .ok default
      ∨ ∃ shared plural : Bool, ∃ cores speed, IsCount cores ∧ IsFigures speed
        ∧ description.toList = speedLine shared plural cores speed := by
  cases hmatch : e.pattern.matchWhole? description with
  | none =>
      left
      unfold speedOf
      rw [hmatch]
      rfl
  | some c =>
      rw [he] at hmatch
      obtain ⟨shared, plural, cores, speed, hcores, hspeed, hline, -⟩ :=
        Pattern.whole_coreSpeed_iff.mp hmatch
      exact Or.inr ⟨shared, plural, cores, speed, hcores, hspeed, hline⟩

theorem describe_capacity_skippable_iff {e : Expression} (he : e.pattern = .coreSpeed)
    (default : Float) (item : Item) : Skippable ((capacity e default).describe (some item))
      ↔ ¬ (capacity e default).Garbled item.description := by
  obtain ⟨x, hx⟩ := cores_ok item
  have hdescribe : (capacity e default).describe (some item)
      = (speedOf e default (Text.trim item.description)).map fun speed => { cores := x, speed } := by
    simp only [describe, hx]
    cases speedOf e default (Text.trim item.description) <;> rfl
  rw [hdescribe]
  constructor
  · rintro hskip ⟨shared, plural, cores, speed, hcores, hspeed, hline, hnumber⟩
    rw [speedOf_line he default hcores hspeed hline, groupNumber_error hspeed hnumber] at hskip
    exact not_skippable_data rfl hskip
  · intro hgarbled
    rcases speedOf_cases he default (Text.trim item.description) with
      hdefault | ⟨shared, plural, cores, speed, hcores, hspeed, hline⟩
    · rw [hdefault]
      exact skippable_ok _
    · have hnumber : IsNumber speed := by
        by_contra hnot
        exact hgarbled ⟨shared, plural, cores, speed, hcores, hspeed, hline, hnot⟩
      rw [speedOf_line he default hcores hspeed hline, groupNumber_ok hspeed hnumber]
      exact skippable_ok _

theorem describe_bareMetal_line {e : Expression} (he : e.pattern = .bareMetal) {item : Item}
    {cores speed ram : List Char} (hcores : IsCount cores) (hspeed : IsFigures speed)
    (hram : IsFigures ram)
    (hline : (Text.trim item.description).toList = bareMetalLine cores speed ram) :
    (bareMetal e).describe (some item) =
      (groupNumber (some speed)).bind fun speed => (groupNumber (some ram)).map fun ram =>
        { cores := item.capacity.getD (Decimal.ofFigures cores).toFloat, speed, ram := some ram } := by
  have hmatch := Pattern.whole_bareMetal_iff.mpr ⟨cores, speed, ram, hcores, hspeed, hram, hline, rfl⟩
  obtain ⟨hfirst, hsecond, hthird⟩ :=
    Pattern.group?_bareMetalEnd (Text.trim item.description) cores speed ram
  have hcount := groupNumber_ok hcores.isFigures hcores.isNumber
  simp only [describe, he, hmatch, hfirst, hsecond, hthird, hcount]
  generalize groupNumber (some speed) = measured, groupNumber (some ram) = memory
  cases item.capacity <;> cases measured <;> cases memory <;> rfl

theorem describe_bareMetal_cases {e : Expression} (he : e.pattern = .bareMetal) (item : Item) :
    (bareMetal e).describe (some item)
        = .error (.resolution (.undescribedCpu (Text.trim item.description) e.text))
      ∨ ∃ cores speed ram, IsCount cores ∧ IsFigures speed ∧ IsFigures ram
        ∧ (Text.trim item.description).toList = bareMetalLine cores speed ram := by
  cases hmatch : e.pattern.matchWhole? (Text.trim item.description) with
  | none =>
      left
      simp only [describe, hmatch]
  | some c =>
      rw [he] at hmatch
      obtain ⟨cores, speed, ram, hcores, hspeed, hram, hline, -⟩ :=
        Pattern.whole_bareMetal_iff.mp hmatch
      exact Or.inr ⟨cores, speed, ram, hcores, hspeed, hram, hline⟩

theorem describe_bareMetal_skippable_iff {e : Expression} (he : e.pattern = .bareMetal)
    (item : Item) : Skippable ((bareMetal e).describe (some item))
      ↔ ¬ (bareMetal e).Garbled item.description := by
  constructor
  · rintro hskip ⟨cores, speed, ram, hcores, hspeed, hram, hline, hnumbers⟩
    rw [describe_bareMetal_line he hcores hspeed hram hline] at hskip
    by_cases hnumber : IsNumber speed
    · rw [groupNumber_ok hspeed hnumber, groupNumber_error hram fun h => hnumbers ⟨hnumber, h⟩]
        at hskip
      exact not_skippable_data rfl hskip
    · rw [groupNumber_error hspeed hnumber] at hskip
      exact not_skippable_data rfl hskip
  · intro hgarbled
    rcases describe_bareMetal_cases he item with
      hcause | ⟨cores, speed, ram, hcores, hspeed, hram, hline⟩
    · rw [hcause]
      exact skippable_resolution _
    · have hnumbers : IsNumber speed ∧ IsNumber ram := by
        by_contra hnot
        exact hgarbled ⟨cores, speed, ram, hcores, hspeed, hram, hline, hnot⟩
      rw [describe_bareMetal_line he hcores hspeed hram hline, groupNumber_ok hspeed hnumbers.1,
        groupNumber_ok hram hnumbers.2]
      exact skippable_ok _

/-- A standard rule describes any item, or rules it out, unless its line is garbled. -/
theorem describe_skippable_iff {rule : CpuRule} (hrule : rule.Standard) (item : Item) :
    Skippable (rule.describe (some item)) ↔ ¬ rule.Garbled item.description := by
  have hpattern : ∀ {e : Expression} {text : String} {p : Pattern}, e.text = text →
      Pattern.parse? text = some p → e.pattern = p := by
    rintro e _ p rfl hp
    exact Option.some.inj (e.parses.symm.trans hp)
  cases rule with
  | capacity e default =>
      exact describe_capacity_skippable_iff (hpattern hrule Pattern.parse_coreSpeed) default item
  | bareMetal e =>
      exact describe_bareMetal_skippable_iff (hpattern hrule Pattern.parse_bareMetal) item
  | fixed cores speed => exact iff_of_true (skippable_ok _) id

end CpuRule

end Provision
