import Provision.Proofs.Padding

/-!
# Filters by a word

An operator can ask for primary disks of a type. The type is made part of a
pattern that looks for it anywhere in a description, and for disks on the storage
network as well. If the type is a word of letters and digits, the pattern is well
formed and looks for just this word (`parse_containing`); and since anything may
stand around the word, the matcher has to go back from every place where it took
too much. What it finds in the end are the texts that have the word in them
(`containing_iff`), line feeds apart.
-/

namespace Provision

namespace Pattern

/-! ## Anything in between -/

section Anything

variable {α : Type} {c : Cursor} {k : Cursor → Option α} {set : CharSet}

theorem exists_orElse_iff {x : Option α} {y : Unit → Option α} :
    (∃ a, x.orElse y = some a) ↔ (∃ a, x = some a) ∨ ∃ a, y () = some a := by
  cases x with
  | none => simp
  | some a => simp

/-- The turns may stop behind any character of the set, so long as it goes on from there. -/
theorem exists_repeatTurns_iff {fuel : Nat} {last : Option Nat} (hfuel : c.rest.length < fuel)
    (hlast : last ≠ some c.position) :
    (∃ a, repeatTurns true (fun d turn => (Pattern.char set).run d turn) k fuel 0 none last c
        = some a)
      ↔ ∃ xs ys, (∀ x ∈ xs, set.contains x = true) ∧ c.rest = xs ++ ys
        ∧ ∃ a, k (c.past xs) = some a := by
  induction hrest : c.rest generalizing c fuel last with
  | nil =>
      obtain ⟨fuel, rfl⟩ := Nat.exists_eq_succ_of_ne_zero (Nat.ne_zero_of_lt hfuel)
      have hstop : c.step? set = none := by
        unfold Cursor.step?
        rw [hrest]
      rw [repeatTurns_succ fuel hlast, exists_orElse_iff, run, hstop, Option.bind_none]
      constructor
      · rintro (⟨a, ha⟩ | hk)
        · cases ha
        · exact ⟨[], [], List.forall_mem_nil _, rfl, hk⟩
      · rintro ⟨xs, ys, -, hnil, hk⟩
        rw [(List.append_eq_nil_iff.mp hnil.symm).1] at hk
        exact Or.inr hk
  | cons x rest ih =>
      obtain ⟨fuel, rfl⟩ := Nat.exists_eq_succ_of_ne_zero (Nat.ne_zero_of_lt hfuel)
      have hmoved : some c.position ≠ some (c.past [x]).position := by
        rw [Cursor.past_position]
        simp
      have hlength : (c.past [x]).rest.length < fuel := by
        rw [Cursor.past_cons_rest hrest]
        rw [hrest, List.length_cons] at hfuel
        omega
      have hturn := ih hlength hmoved (Cursor.past_cons_rest hrest)
      rw [repeatTurns_succ fuel hlast, exists_orElse_iff, run, Cursor.step?_cons hrest]
      constructor
      · rintro (hmore | hk)
        · by_cases hx : set.contains x = true
          · rw [if_pos hx, Option.bind_some] at hmore
            obtain ⟨xs, ys, hxs, rfl, hk⟩ := hturn.mp hmore
            exact ⟨x :: xs, ys, List.forall_mem_cons.mpr ⟨hx, hxs⟩, rfl, hk⟩
          · rw [if_neg hx] at hmore
            obtain ⟨a, ha⟩ := hmore
            cases ha
        · exact ⟨[], x :: rest, List.forall_mem_nil _, rfl, hk⟩
      · rintro ⟨xs, ys, hxs, hys, hk⟩
        cases xs with
        | nil => exact Or.inr hk
        | cons y xs =>
            obtain ⟨rfl, hrest'⟩ := List.cons.inj hys
            obtain ⟨hx, hxs⟩ := List.forall_mem_cons.mp hxs
            rw [if_pos hx, Option.bind_some]
            exact Or.inl (hturn.mpr ⟨xs, ys, hxs, hrest', hk⟩)

/-- Anything that does not end a line. -/
def anything : Pattern := .times true 0 none (.char .notNewline)

theorem exists_run_anything_iff : (∃ a, anything.run c k = some a)
    ↔ ∃ xs ys, '\n' ∉ xs ∧ c.rest = xs ++ ys ∧ ∃ a, k (c.past xs) = some a := by
  have hlength : c.rest.length < 0 + c.rest.length + 2 := by omega
  have hlast : (none : Option Nat) ≠ some c.position := nofun
  refine (exists_repeatTurns_iff hlength hlast).trans ?_
  refine exists_congr fun xs => exists_congr fun ys => and_congr_left fun _ => ?_
  simp only [CharSet.contains_notNewline, bne_iff_ne]
  exact ⟨fun h hmem => h _ hmem rfl, fun h x hx hline => h (hline ▸ hx)⟩

end Anything

/-! ## A word anywhere -/

variable {s : String}

/-- A word, and anything around it. -/
def containing (word : List Char) : Pattern :=
  sequence (anything :: (literal word ++ [anything]))

/-- The word may be found anywhere, with no line feed before or behind it. -/
theorem containing_iff {word : List Char} : (containing word).matchesWhole s = true
    ↔ ∃ front back, '\n' ∉ front ∧ '\n' ∉ back ∧ s.toList = front ++ word ++ back := by
  rw [matchesWhole_iff, containing, run_sequence_cons, exists_run_anything_iff]
  constructor
  · rintro ⟨front, rest, hfront, hline, d, hd⟩
    rw [run_sequence_append] at hd
    obtain ⟨more, hrest, hend⟩ := run_literal_iff.mp hd
    obtain ⟨back, tail, hback, hmore, e, he⟩ := exists_run_anything_iff.mp ⟨d, hend⟩
    obtain ⟨hnone, -⟩ := ended_iff.mp he
    rw [Cursor.past_rest hmore] at hnone
    rw [Cursor.past_rest hrest] at hmore
    rw [Cursor.past_rest hline] at hrest
    refine ⟨front, back, hfront, hback, ?_⟩
    have hs : s.toList = front ++ rest := hline
    rw [hs, hrest, hmore, hnone, List.append_nil, List.append_assoc]
  · rintro ⟨front, back, hfront, hback, hline⟩
    rw [List.append_assoc] at hline
    have hrest : ((Cursor.start s).past front).rest = word ++ back := Cursor.past_rest hline
    have hback' : (((Cursor.start s).past front).past word).rest = back ++ [] := by
      rw [Cursor.past_rest hrest, List.append_nil]
    have hend := ended_iff.mpr ⟨Cursor.past_rest hback', rfl⟩
    obtain ⟨d, hd⟩ : ∃ d, anything.run (((Cursor.start s).past front).past word)
        (fun c => if c.rest.isEmpty then some c else none) = some d :=
      exists_run_anything_iff.mpr ⟨back, [], hback, hback', _, hend⟩
    refine ⟨front, word ++ back, hfront, hline, d, ?_⟩
    rw [run_sequence_append]
    exact run_literal_iff.mpr ⟨back, hrest, hd⟩

/-- In a text of one line the word is found if it is there. -/
theorem containing_iff_infix {word : List Char} (hline : '\n' ∉ s.toList) :
    (containing word).matchesWhole s = true ↔ word <:+: s.toList := by
  rw [containing_iff]
  constructor
  · rintro ⟨front, back, -, -, hs⟩
    exact ⟨front, back, hs.symm⟩
  · rintro ⟨front, back, hs⟩
    rw [← hs, List.mem_append, List.mem_append, not_or, not_or] at hline
    exact ⟨front, back, hline.1.1, hline.2, hs.symm⟩

theorem either_matchesWhole (p q : Pattern) :
    (either p q).matchesWhole s = (p.matchesWhole s || q.matchesWhole s) := by
  unfold matchesWhole matchWhole?
  rw [run]
  cases p.run (.start s) fun c => if c.rest.isEmpty then some c else none <;> rfl

/-! ## Words as patterns -/

section Reading

variable {c : Char} {rest word more : List Char} {r : Reader} {before : List Item}

theorem cons_ne_of_letter {d : Char} {ds : List Char} (hc : c.isAlphanum = true)
    (hd : d.isAlphanum = false) : c :: rest ≠ d :: ds := by
  intro h
  rw [(List.cons.inj h).1, hd] at hc
  cases hc

theorem readRepetition_letter (hc : c.isAlphanum = true) :
    readRepetition (c :: rest) = .absent := by
  unfold readRepetition
  split
  · exact absurd ‹_› (cons_ne_of_letter hc rfl)
  · exact absurd ‹_› (cons_ne_of_letter hc rfl)
  · exact absurd ‹_› (cons_ne_of_letter hc rfl)
  · exact absurd ‹_› (cons_ne_of_letter hc rfl)
  · rfl

theorem repeated_letter {b : Bounds} {p : Pattern} (hc : c.isAlphanum = true) :
    repeated b p (c :: rest) = (.times true b.least b.most p, c :: rest) := by
  unfold repeated
  split
  · exact absurd ‹_› (cons_ne_of_letter hc rfl)
  · exact absurd ‹_› (cons_ne_of_letter hc rfl)
  · rfl

theorem simple?_letter (hc : c.isAlphanum = true) :
    r.simple? (c :: rest) = some (r.char (.single c), rest) := by
  unfold Reader.simple?
  split
  · exact absurd ‹_› (cons_ne_of_letter hc rfl)
  · exact absurd ‹_› (cons_ne_of_letter hc rfl)
  · exact absurd ‹_› (cons_ne_of_letter hc rfl)
  · exact absurd ‹_› (cons_ne_of_letter hc rfl)
  · exact absurd ‹_› (cons_ne_of_letter hc rfl)
  · exact absurd ‹_› (cons_ne_of_letter hc rfl)
  · cases ‹c :: rest = _›
    rfl
  · cases ‹c :: rest = _›

/-- A letter or a digit stands for itself. -/
theorem readItems?_letter (hc : c.isAlphanum = true) (fuel : Nat) :
    readItems? (fuel + 1) r before (c :: rest)
      = readItems? fuel r (r.char (.single c) :: before) rest := by
  rw [readItems?.eq_def]
  simp only [readRepetition_letter hc, simple?_letter hc]
  split
  · cases ‹c :: rest = []›
  · exact absurd ‹_› (cons_ne_of_letter hc rfl)
  · exact absurd ‹_› (cons_ne_of_letter hc rfl)
  · exact absurd ‹_› (cons_ne_of_letter hc rfl)
  · exact absurd ‹_› (cons_ne_of_letter hc rfl)
  · exact absurd ‹_› (cons_ne_of_letter hc rfl)
  · exact absurd ‹_› (cons_ne_of_letter hc rfl)
  · rfl

theorem readItems?_word (hword : ∀ c ∈ word, c.isAlphanum = true) (fuel : Nat) :
    readItems? (fuel + word.length) r before (word ++ rest)
      = readItems? fuel r ((word.map fun c => r.char (.single c)).reverse ++ before) rest := by
  induction word generalizing before with
  | nil => rfl
  | cons c word ih =>
      obtain ⟨hc, hword⟩ := List.forall_mem_cons.mp hword
      rw [List.length_cons, ← Nat.add_assoc, List.cons_append, readItems?_letter hc, ih hword]
      simp only [List.map_cons, List.reverse_cons, List.append_assoc, List.singleton_append]

/-- What may be repeated as often as it can. -/
theorem readItems?_anything (hrest : repeated ⟨0, none⟩ (.char .notNewline) rest
    = (anything, rest)) (fuel : Nat) :
    readItems? (fuel + 2) r before ('.' :: '*' :: rest)
      = readItems? fuel r (⟨anything, .repetition⟩ :: before) rest := by
  have hstar : readItems? (fuel + 2) r before ('.' :: '*' :: rest)
      = readItems? fuel r (⟨(repeated ⟨0, none⟩ (.char .notNewline) rest).1, .repetition⟩ :: before)
        (repeated ⟨0, none⟩ (.char .notNewline) rest).2 := rfl
  rw [hstar, hrest]

theorem readItems?_containing (hne : word ≠ []) (hword : ∀ c ∈ word, c.isAlphanum = true)
    (hcase : r.anyCase = false) (hrest : rest = [] ∨ ∃ more, rest = '|' :: more) (fuel : Nat) :
    readItems? (fuel + word.length + 5) r [] ('.' :: '*' :: (word ++ '.' :: '*' :: rest))
      = some (containing word, r, rest) := by
  have hfront : repeated ⟨0, none⟩ (.char .notNewline) (word ++ '.' :: '*' :: rest)
      = (anything, word ++ '.' :: '*' :: rest) := by
    obtain ⟨c, more, rfl⟩ := List.exists_cons_of_ne_nil hne
    exact repeated_letter (hword c (List.mem_cons_self ..))
  have hback : repeated ⟨0, none⟩ (.char .notNewline) rest = (anything, rest) := by
    rcases hrest with rfl | ⟨more, rfl⟩ <;> rfl
  have hended : ∀ items, readItems? (fuel + 1) r items rest = some (assemble items, r, rest) := by
    intro items
    rcases hrest with rfl | ⟨more, rfl⟩ <;> rfl
  have hsum : fuel + word.length + 5 = fuel + 3 + word.length + 2 := by omega
  rw [hsum, readItems?_anything hfront, readItems?_word hword, readItems?_anything hback, hended]
  have hchar : ∀ c, (r.char (.single c)).pattern = .char (.single c) := by
    intro c
    rw [Reader.char, hcase]
    rfl
  simp [assemble, containing, literal, hchar, Function.comp_def]

theorem readChoice?_last {fuel : Nat} {cs : List Char} {p : Pattern} {r' : Reader}
    (h : readItems? fuel r [] cs = some (p, r', [])) :
    readChoice? (fuel + 1) r cs = some (p, r', []) := by
  rw [readChoice?, h]

theorem readChoice?_bar {fuel : Nat} {cs : List Char} {p q : Pattern} {r' : Reader}
    (h : readItems? fuel r [] cs = some (p, r, '|' :: rest))
    (hq : readChoice? fuel r rest = some (q, r', [])) :
    readChoice? (fuel + 1) r cs = some (.either p q, r', []) := by
  rw [readChoice?, h]
  simp only [hq, Option.map_some]

/-- A choice between two words, each of them anywhere. -/
theorem parse_containing {other : List Char} {text : String} (hne : word ≠ [])
    (hword : ∀ c ∈ word, c.isAlphanum = true) (hne' : other ≠ [])
    (hother : ∀ c ∈ other, c.isAlphanum = true) (htext : text.toList
      = '.' :: '*' :: (word ++ '.' :: '*' :: '|' :: '.' :: '*' :: (other ++ ['.', '*']))) :
    parse? text = some (.either (containing word) (containing other)) := by
  obtain ⟨fuel, hfuel⟩ : ∃ fuel, 3 * text.toList.length + 3 = fuel + word.length + other.length + 7 := by
    refine ⟨2 * word.length + 2 * other.length + 23, ?_⟩
    rw [htext]
    simp only [List.length_cons, List.length_append, List.length_nil]
    omega
  have hcase : splitCaseSigns text.toList = (false, text.toList) := by
    rw [htext]
    rfl
  have hfirst := readItems?_containing (r := {}) hne hword rfl
    (Or.inr ⟨'.' :: '*' :: (other ++ ['.', '*']), rfl⟩) (fuel + other.length + 1)
  have hsecond := readItems?_containing (r := {}) hne' hother rfl (Or.inl rfl) (fuel + word.length)
  have hchoice : readChoice? (fuel + word.length + other.length + 7) {} text.toList
      = some (.either (containing word) (containing other), {}, []) := by
    have hsum : fuel + other.length + 1 + word.length + 5 = fuel + word.length + other.length + 6 := by
      omega
    rw [hsum, ← htext] at hfirst
    exact readChoice?_bar hfirst (readChoice?_last hsecond)
  unfold parse?
  simp only [hcase, hfuel, hchoice]

end Reading

end Pattern

/-! ## Primary disks of a type -/

theorem Expression.ofText?_ok {text : String} {e : Expression} (h : Expression.ofText text = .ok e) :
    Expression.ofText? (some text) = .ok (some e) := by
  rw [ofText?, h]
  rfl

theorem Slot.make_ok {role : String} {category description : Option String} {optional : Bool}
    {found : Option Expression} (hsource : (category.isNone && description.isNone) = false)
    (h : Expression.ofText? description = .ok found) :
    Slot.make role category description optional
      = .ok { role, category, description := found, optional } := by
  rw [Slot.make, hsource, h]
  rfl

theorem Rules.make_ok {slots : List Slot} {cpu : CpuRule} {settings : Settings} {disks : Expression}
    {extra : Option Expression}
    (hroles : (distinct (slots.map Slot.role)).length = (slots.map Slot.role).length)
    (hdisks : Expression.ofText settings.disks = .ok disks)
    (hextra : Expression.ofText? settings.extraDisks = .ok extra) :
    ∃ rules, Rules.make slots cpu settings = .ok rules := by
  simp only [Rules.make, hroles, hdisks, hextra, bne_self_eq_false]
  exact ⟨_, rfl⟩

namespace FamilySpec

variable {τ : Type} {c : Config τ} {rules : Rules}

theorem parse_primaryDisk {type : String} (hne : type ≠ "")
    (hword : ∀ x ∈ type.toList, x.isAlphanum = true) :
    ∃ text, primaryDiskPattern? type = some text ∧ Pattern.parse? text
      = some (.either (.containing type.toList) (.containing "SAN".toList)) := by
  refine ⟨".*" ++ type ++ ".*|.*SAN.*", by simp [primaryDiskPattern?, hne], ?_⟩
  refine Pattern.parse_containing (by simpa using hne) hword (by decide)
    (List.all_eq_true.mp (by decide)) ?_
  simp [String.toList_append]

/-- The descriptions of processors and primary disks are all that can be wrong with the rules. -/
theorem guestRules_ok {cpu disk : Option Expression}
    (hcpu : Expression.ofText? (some c.cpuPattern) = .ok cpu)
    (hdisk : Expression.ofText? (primaryDiskPattern? c.disk0Type) = .ok disk) :
    ∃ rules, guestRules c = .ok rules := by
  obtain ⟨speed, hspeed, -⟩ := Expression.ofText_of_parse Pattern.parse_coreSpeed
  obtain ⟨disks, hdisks, -⟩ := Expression.ofText_of_parse Pattern.parse_guestDisk
  obtain ⟨extra, hextra, -⟩ := Expression.ofText_of_parse Pattern.parse_guestExtra
  have hrule : CpuRule.makeCapacity CpuRule.defaultSpeedPattern 2 = .ok (.capacity speed 2) := by
    rw [CpuRule.makeCapacity, hspeed]
    rfl
  have hslot (role category : String) (optional : Bool) : Slot.make role (some category) none optional
      = .ok { role, category := some category, optional } := rfl
  have hfirst : Slot.make "cpu" none (some c.cpuPattern) false = .ok _ := Slot.make_ok rfl hcpu
  have hthird : Slot.make "disk0" (some "guest_disk0") (primaryDiskPattern? c.disk0Type) false
      = .ok _ := Slot.make_ok rfl hdisk
  simp only [guestRules, hfirst, hslot, hthird, hrule, ok_bind]
  exact Rules.make_ok rfl hdisks (Expression.ofText?_ok hextra)

/-- The slot for primary disks, when it looks at descriptions. -/
theorem disk_candidates (parts : GuestParts c rules) {text : String} {p : Pattern}
    (htext : primaryDiskPattern? c.disk0Type = some text) (hp : Pattern.parse? text = some p)
    (listing : List Item) : parts.disk.candidates (.ofItems listing)
      = (Catalog.ofItems listing).items.filter fun item =>
        p.matchesWhole item.description && item.hasCategory "guest_disk0" := by
  obtain ⟨hcategory, hdescription⟩ := Slot.source_of_make_ok parts.disk_made
  rw [htext] at hdescription
  obtain ⟨e, he, hdescription⟩ := Expression.of_ofText?_ok hdescription
  have hnamed : ("guest_disk0" == "") = false := rfl
  simp only [Slot.candidates, hcategory, hdescription, hnamed, Catalog.inCategory_ofItems,
    Expression.accepts, Expression.pattern_of_ofText he hp]
  rw [if_neg Bool.false_ne_true, List.filter_filter]

/-- **Primary disks of a type.** A type that is a word of letters and digits is never what is wrong
with the family of guests. The one slot for primary disks takes the items for primary disks that
have the type in their description, or that are on the storage network by their description, in
the order of the catalog, if every description is a single line. -/
theorem primary_disks_by_type [Duration τ] (hne : c.disk0Type ≠ "")
    (hword : ∀ x ∈ c.disk0Type.toList, x.isAlphanum = true) :
    (∀ e, Expression.ofText c.cpuPattern = .ok e → ∃ spec, virtualGuest c = .ok spec)
    ∧ ∀ specs, supported c = .ok specs → ∀ spec ∈ specs, spec.family = 46 →
      ∃ before slot after, spec.rules.slots = before ++ slot :: after
        ∧ slot.role = "disk0" ∧ (∀ other ∈ before ++ after, other.role ≠ "disk0")
        ∧ ∀ listing : List Item, let catalog := Catalog.ofItems listing
          (∀ item ∈ catalog.items, '\n' ∉ item.description.toList) →
            slot.candidates catalog = catalog.items.filter fun item =>
              item.hasCategory "guest_disk0" ∧ (c.disk0Type.toList <:+: item.description.toList
                ∨ "SAN".toList <:+: item.description.toList) := by
  obtain ⟨text, htext, hp⟩ := parse_primaryDisk hne hword
  constructor
  · intro e he
    obtain ⟨disk, hdisk, -⟩ := Expression.ofText_of_parse hp
    have hdisk' : Expression.ofText? (primaryDiskPattern? c.disk0Type) = .ok (some disk) :=
      htext ▸ Expression.ofText?_ok hdisk
    obtain ⟨rules, hrules⟩ := guestRules_ok (Expression.ofText?_ok he) hdisk'
    rw [virtualGuest, hrules]
    exact ⟨_, rfl⟩
  · intro specs hspecs spec hspec hfamily
    obtain ⟨rules, strategy, hrules, heq⟩ := guestRules_of_supported hspecs hspec hfamily
    obtain ⟨parts⟩ := guestParts hrules
    obtain ⟨hcpu, hram, hdisk, huplink, hbandwidth⟩ := parts.roles
    refine ⟨[parts.cpu, parts.ram], parts.disk, [parts.uplink, parts.bandwidth], ?_, hdisk, ?_, ?_⟩
    · rw [heq]
      exact (Rules.of_make_ok parts.made).1
    · simp only [List.cons_append, List.nil_append, List.forall_mem_cons, hcpu, hram, huplink,
        hbandwidth]
      decide
    · intro listing catalog hlines
      rw [disk_candidates parts htext hp]
      refine List.filter_congr fun item hitem => ?_
      have hline := hlines item hitem
      rw [Bool.eq_iff_iff, Pattern.either_matchesWhole, Bool.and_eq_true, Bool.or_eq_true,
        Pattern.containing_iff_infix hline, Pattern.containing_iff_infix hline, decide_eq_true_iff,
        and_comm]

/-- A configuration that asks for local disks. -/
def localOnly : Config Rat := { Config.usual with disk0Type := "LOCAL" }

/-- Two disks of another kind, one of them on the storage network, and two local ones. -/
def disksOnSale : List Item :=
  [{ id := 1, description := "25 GB", categories := ["guest_disk0"] },
    { id := 2, description := "100 GB (SAN)", categories := ["guest_disk0"] },
    { id := 3, description := "25 GB (LOCAL)", categories := ["guest_disk0"] },
    { id := 4, description := "100 GB (LOCAL)", categories := ["guest_disk1"] }]

/-- Of these, a guest with a local disk can have the second and the third. -/
theorem primary_disks_by_type_local :
    ∃ specs, supported localOnly = .ok specs ∧ ∃ spec ∈ specs, spec.family = 46
      ∧ ∃ slot ∈ spec.rules.slots, slot.role = "disk0"
        ∧ (slot.candidates (.ofItems disksOnSale)).map Item.id = [2, 3] := by
  obtain ⟨specs, hspecs, spec, hspec, hfamily⟩ := exists_guest (c := localOnly) (by decide +kernel)
  obtain ⟨-, hslots⟩ := primary_disks_by_type (c := localOnly) (by decide)
    (List.all_eq_true.mp (by decide))
  obtain ⟨before, slot, after, hsplit, hrole, -, hcandidates⟩ :=
    hslots specs hspecs spec hspec hfamily
  refine ⟨specs, hspecs, spec, hspec, hfamily, slot, ?_, hrole, ?_⟩
  · rw [hsplit]
    exact List.mem_append_right _ (List.mem_cons_self ..)
  · rw [hcandidates disksOnSale (by decide)]
    decide +kernel

end FamilySpec

end Provision
