import Mathlib.Data.Nat.Digits.Defs
import Provision.Proofs.Text

/-!
# Numerals

Which texts write an integer, and which one: `Writes` is the grammar. There may be
white space on both sides and a sign in front, the digits may be of any script, and
an underscore may stand between two of them. Nothing else is a numeral, and the
reader of integers reads just these, as the number of their digits in base ten
(`readInteger?_eq_some_iff`). The rest is refused (`readInteger?_eq_none_iff`).
-/

namespace Provision.Text

/-- The digits of a numeral and their values, with at most one underscore between two digits. -/
inductive Digits : List Char → List Nat → Prop
  | last {c : Char} {d : Nat} (h : digitValue? c = some d) : Digits [c] [d]
  | next {c : Char} {d : Nat} {cs : List Char} {ds : List Nat} (h : digitValue? c = some d)
      (rest : Digits cs ds) : Digits (c :: cs) (d :: ds)
  | spaced {c : Char} {d : Nat} {cs : List Char} {ds : List Nat} (h : digitValue? c = some d)
      (rest : Digits cs ds) : Digits (c :: '_' :: cs) (d :: ds)

/-- The number of some digits in base ten, the last digit the lowest. -/
def numberOf (ds : List Nat) : Nat := Nat.ofDigits 10 ds.reverse

/-- Digits with a sign in front, if any, and the number that they write. -/
inductive Signed : List Char → Int → Prop
  | plain {cs : List Char} {ds : List Nat} (h : Digits cs ds) : Signed cs (numberOf ds)
  | plus {cs : List Char} {ds : List Nat} (h : Digits cs ds) : Signed ('+' :: cs) (numberOf ds)
  | minus {cs : List Char} {ds : List Nat} (h : Digits cs ds) : Signed ('-' :: cs) (-(numberOf ds : Int))

/-- A text that writes an integer has nothing but white space around it. -/
def Writes (s : String) (n : Int) : Prop :=
  ∃ front cs back, s.toList = front ++ cs ++ back ∧ (∀ c ∈ front, isSpace c = true)
    ∧ (∀ c ∈ back, isSpace c = true) ∧ Signed cs n

/-! ## Digits -/

theorem digitValue?_underscore : digitValue? '_' = none := by decide

theorem digitValue?_minus : digitValue? '-' = none := by decide

theorem digitValue?_plus : digitValue? '+' = none := by decide

/-- Digits begin with a digit. -/
theorem Digits.head {cs : List Char} {ds : List Nat} (h : Digits cs ds) :
    ∃ c more d, cs = c :: more ∧ digitValue? c = some d := by
  cases h with
  | last h => exact ⟨_, _, _, rfl, h⟩
  | next h => exact ⟨_, _, _, rfl, h⟩
  | spaced h => exact ⟨_, _, _, rfl, h⟩

theorem digits_of_readDigits? {cs : List Char} {ds : List Nat} (h : readDigits? cs = some ds) :
    Digits cs ds := by
  fun_induction readDigits? cs generalizing ds with
  | case1 => cases h
  | case2 c =>
      obtain ⟨d, hd, rfl⟩ := Option.map_eq_some_iff.mp h
      exact .last hd
  | case3 c rest ih =>
      obtain ⟨d, hd, h⟩ := Option.bind_eq_some_iff.mp h
      obtain ⟨more, hmore, h⟩ := Option.bind_eq_some_iff.mp h
      cases h
      exact .spaced hd (ih hmore)
  | case4 c rest _ _ ih =>
      obtain ⟨d, hd, h⟩ := Option.bind_eq_some_iff.mp h
      obtain ⟨more, hmore, h⟩ := Option.bind_eq_some_iff.mp h
      cases h
      exact .next hd (ih hmore)

theorem readDigits?_of_digits {cs : List Char} {ds : List Nat} (h : Digits cs ds) :
    readDigits? cs = some ds := by
  induction h with
  | last h => simp [readDigits?, h]
  | @next c d cs ds h rest ih =>
      -- The rest begins with a digit, so it is not the underscore that is read first.
      obtain ⟨c', more, d', rfl, hd'⟩ := rest.head
      have hplain : c' ≠ '_' := by
        rintro rfl
        rw [digitValue?_underscore] at hd'
        cases hd'
      rw [readDigits?, h, ih]
      · rfl
      · exact nofun
      · rintro more' hmore
        exact hplain (List.cons.inj hmore).1
  | spaced h _ ih =>
      rw [readDigits?, h, ih]
      rfl

theorem digitsValue_eq (ds : List Nat) : digitsValue ds = numberOf ds := by
  rw [digitsValue, numberOf, Nat.ofDigits_eq_foldr, List.foldr_reverse]
  simp only [Nat.cast_id, Nat.add_comm]

/-! ## Signs -/

theorem splitSign_of_digit {c : Char} {d : Nat} (h : digitValue? c = some d) (cs : List Char) :
    splitSign (c :: cs) = (false, c :: cs) := by
  have hminus : c ≠ '-' := by
    rintro rfl
    exact absurd (h.symm.trans digitValue?_minus) nofun
  have hplus : c ≠ '+' := by
    rintro rfl
    exact absurd (h.symm.trans digitValue?_plus) nofun
  unfold splitSign
  split
  · rename_i heq
    exact absurd (List.cons.inj heq).1 hminus
  · rename_i heq
    exact absurd (List.cons.inj heq).1 hplus
  · rfl

/-- A sign is split off, and the digits behind it are read. -/
theorem signed_iff {cs : List Char} {n : Int} : Signed cs n
    ↔ (readDigits? (splitSign cs).2).map (fun ds =>
        if (splitSign cs).1 then -(digitsValue ds : Int) else digitsValue ds) = some n := by
  constructor
  · intro h
    cases h with
    | plain h =>
        obtain ⟨c, more, d, rfl, hd⟩ := h.head
        rw [splitSign_of_digit hd, readDigits?_of_digits h, Option.map_some, digitsValue_eq]
        rfl
    | plus h =>
        rw [splitSign, readDigits?_of_digits h, Option.map_some, digitsValue_eq]
        rfl
    | minus h =>
        rw [splitSign, readDigits?_of_digits h, Option.map_some, digitsValue_eq]
        rfl
  · intro h
    obtain ⟨ds, hds, rfl⟩ := Option.map_eq_some_iff.mp h
    have hdigits := digits_of_readDigits? hds
    rw [digitsValue_eq]
    unfold splitSign at hdigits ⊢
    split at hdigits
    · exact .minus hdigits
    · exact .plus hdigits
    · exact .plain hdigits

/-! ## White space -/

/-- No script has its digits where the white space is. -/
theorem zeros_apart : ∀ z ∈ zeros, 48 ≤ z ∧ (z + 9 < 0x85 ∨ 0x85 < z) ∧ (z + 9 < 0xA0 ∨ 0xA0 < z)
    ∧ (z + 9 < 0x1680 ∨ 0x1680 < z) ∧ (z + 9 < 0x2000 ∨ 0x205F < z)
    ∧ (z + 9 < 0x3000 ∨ 0x3000 < z) := by
  decide

theorem isSpace_of_digit {c : Char} {d : Nat} (h : digitValue? c = some d) : isSpace c = false := by
  have hrange : ∃ z ∈ zeros, z ≤ c.toNat ∧ c.toNat < z + 10 := by
    unfold digitValue? at h
    split at h
    · rename_i hascii
      refine ⟨48, by decide, ?_⟩
      simpa [isAsciiDigit, Nat.lt_succ_iff] using hascii
    · split at h
      · cases h
      · obtain ⟨z, hz, -⟩ := Option.map_eq_some_iff.mp h
        exact ⟨z, List.mem_of_find?_eq_some hz, by simpa using List.find?_some hz⟩
  obtain ⟨z, hz, hlow, hhigh⟩ := hrange
  obtain ⟨h48, h85, hA0, h1680, h2000, h3000⟩ := zeros_apart z hz
  simp only [isSpace, Bool.or_eq_false_iff, Bool.and_eq_false_iff, decide_eq_false_iff_not,
    beq_eq_false_iff_ne]
  omega

theorem isSpace_of_digits {cs : List Char} {ds : List Nat} (h : Digits cs ds) :
    ∀ c ∈ cs, isSpace c = false := by
  induction h with
  | last h => simpa using isSpace_of_digit h
  | next h _ ih => exact List.forall_mem_cons.mpr ⟨isSpace_of_digit h, ih⟩
  | spaced h _ ih =>
      exact List.forall_mem_cons.mpr ⟨isSpace_of_digit h,
        List.forall_mem_cons.mpr ⟨by decide, ih⟩⟩

theorem isSpace_of_signed {cs : List Char} {n : Int} (h : Signed cs n) :
    ∀ c ∈ cs, isSpace c = false := by
  cases h with
  | plain h => exact isSpace_of_digits h
  | plus h => exact List.forall_mem_cons.mpr ⟨by decide, isSpace_of_digits h⟩
  | minus h => exact List.forall_mem_cons.mpr ⟨by decide, isSpace_of_digits h⟩

/-- What is trimmed off stood around the rest. -/
theorem exists_trimmed (skip : Char → Bool) (cs : List Char) :
    ∃ front back, cs = front ++ trimBy skip cs ++ back ∧ (∀ c ∈ front, skip c = true)
      ∧ ∀ c ∈ back, skip c = true := by
  refine ⟨cs.takeWhile skip, ((cs.dropWhile skip).reverse.takeWhile skip).reverse, ?_, ?_, ?_⟩
  · rw [trimBy, List.append_assoc, ← List.reverse_append, List.takeWhile_append_dropWhile,
      List.reverse_reverse, List.takeWhile_append_dropWhile]
  · exact fun c hc => List.mem_takeWhile_imp hc
  · exact fun c hc => List.mem_takeWhile_imp (List.mem_reverse.mp hc)

/-! ## Reading -/

/-- The reader reads numerals, as the number that they write. -/
theorem readInteger?_eq_some_iff {s : String} {n : Int} : readInteger? s = some n ↔ Writes s n := by
  have hread : readInteger? s = some n ↔ Signed (trimBy isSpace s.toList) n := by
    rw [signed_iff]
    rfl
  rw [hread]
  constructor
  · intro h
    obtain ⟨front, back, hshape, hfront, hback⟩ := exists_trimmed isSpace s.toList
    exact ⟨front, _, back, hshape, hfront, hback, h⟩
  · rintro ⟨front, cs, back, hshape, hfront, hback, h⟩
    rwa [hshape, trimBy_padded hfront hback, trimBy_of_forall (isSpace_of_signed h)]

theorem readInteger?_eq_none_iff {s : String} : readInteger? s = none ↔ ∀ n, ¬ Writes s n := by
  rw [Option.eq_none_iff_forall_ne_some]
  exact forall_congr' fun n => not_congr readInteger?_eq_some_iff

end Provision.Text
