import Mathlib.Data.List.Basic
import Mathlib.Data.List.TakeWhile
import Provision.Text.Integer
import Provision.Text.Pieces
import Std.Data.String.ToInt

/-!
# Joined texts and written integers

A text that was joined falls apart into the same pieces again as long as no
piece contains the separator. The digits and the sign of a written integer
contain neither comma nor semicolon, and different integers are written
differently; so a list of integers can be read off its joined text. Reading is
lenient, but on what was written it is exact (`readInteger?_writeInteger`).
-/

namespace Provision.Text

/-! ## Joining -/

theorem joinWith_cons {sep : Char} {piece : String} {pieces : List String} (h : pieces ≠ []) :
    joinWith sep (piece :: pieces) = piece ++ String.singleton sep ++ joinWith sep pieces := by
  have hne : pieces.map String.toList ≠ [] := by simpa using h
  apply String.toList_injective
  simp [joinWith, joinChars_cons hne]

theorem joinWith_eq_intercalate (sep : Char) (pieces : List String) :
    joinWith sep pieces = (String.singleton sep).intercalate pieces := by
  induction pieces with
  | nil => rfl
  | cons piece rest ih =>
      cases rest with
      | nil => simp [joinWith, joinChars]
      | cons next more =>
          have hne : next :: more ≠ [] := by simp
          rw [joinWith_cons hne, ih, String.intercalate_cons_of_ne_nil hne]

/-- Splitting undoes joining. -/
theorem splitOn_joinWith {sep : Char} {pieces : List String} (hne : pieces ≠ [])
    (hsep : ∀ piece ∈ pieces, sep ∉ piece.toList) :
    splitOn sep (joinWith sep pieces) = pieces := by
  have hchars : splitChars sep (joinChars sep (pieces.map String.toList))
      = pieces.map String.toList := by
    refine splitChars_joinChars (by simpa using hne) fun cs hcs => ?_
    obtain ⟨piece, hpiece, rfl⟩ := List.mem_map.mp hcs
    exact hsep piece hpiece
  rw [splitOn, joinWith, String.toList_ofList, hchars, List.map_map]
  simp [Function.comp_def]

/-! ## Written integers -/

theorem writeInteger_injective {m n : Int} (h : writeInteger m = writeInteger n) : m = n :=
  Int.repr_injective h

/-- A written integer consists of digits and at most a minus sign. -/
theorem mem_writeInteger {n : Int} {c : Char} (h : c ∈ (writeInteger n).toList) :
    c.isDigit = true ∨ c = '-' := by
  have hnat : ∀ k : Nat, c ∈ k.repr.toList → c.isDigit = true := fun k hk => by
    rw [Nat.toList_repr] at hk
    exact Nat.isDigit_of_mem_toDigits (by decide) (by decide) hk
  cases n with
  | ofNat k => exact Or.inl (hnat k h)
  | negSucc k =>
      have h' : c = '-' ∨ c ∈ (k + 1).repr.toList := by
        simpa [writeInteger, toString, Int.repr] using h
      exact h'.symm.imp_left (hnat (k + 1))

theorem comma_not_mem_writeInteger (n : Int) : ',' ∉ (writeInteger n).toList := by
  intro h
  have := mem_writeInteger h
  revert this
  decide

/-! ## Reading back -/

theorem toNat_of_isDigit {c : Char} (h : c.isDigit = true) : 48 ≤ c.toNat ∧ c.toNat ≤ 57 := by
  simp only [Char.isDigit, Bool.and_eq_true, decide_eq_true_eq] at h
  exact ⟨h.1, h.2⟩

theorem digitValue?_of_isDigit {c : Char} (h : c.isDigit = true) :
    digitValue? c = some (c.toNat - 48) := by
  have hbounds := toNat_of_isDigit h
  simp [digitValue?, isAsciiDigit, hbounds]

/-- Nothing of a written integer is blank. -/
theorem isBlank_eq_false {c : Char} (h : c.isDigit = true ∨ c = '-') : isBlank c = false := by
  have hcode : 45 ≤ c.toNat ∧ c.toNat ≤ 57 := by
    rcases h with h | rfl
    · have hbounds := toNat_of_isDigit h
      omega
    · decide
  simp only [isBlank, isSpace, Bool.or_eq_false_iff, Bool.and_eq_false_iff, decide_eq_false_iff_not,
    beq_eq_false_iff_ne]
  omega

theorem trimBy_of_forall {skip : Char → Bool} {cs : List Char} (h : ∀ c ∈ cs, skip c = false) :
    trimBy skip cs = cs := by
  have hkeep : ∀ ds : List Char, (∀ c ∈ ds, skip c = false) → ds.dropWhile skip = ds := by
    intro ds hds
    cases ds with
    | nil => rfl
    | cons d rest => simp [hds d (List.mem_cons_self ..)]
  rw [trimBy, hkeep cs h, hkeep _ (by simpa using h), List.reverse_reverse]

/-- What is skipped on both sides makes no difference. -/
theorem trimBy_padded {skip : Char → Bool} {front cs back : List Char}
    (hfront : ∀ c ∈ front, skip c = true) (hback : ∀ c ∈ back, skip c = true) :
    trimBy skip (front ++ cs ++ back) = trimBy skip cs := by
  have hback' : ∀ c ∈ back.reverse, skip c = true := by simpa using hback
  unfold trimBy
  rw [List.append_assoc, List.dropWhile_append_of_pos hfront, List.dropWhile_append]
  by_cases hnone : (cs.dropWhile skip).isEmpty = true
  · rw [if_pos hnone, List.isEmpty_iff.mp hnone, List.dropWhile_eq_nil_iff.mpr hback]
  · rw [if_neg hnone, List.reverse_append, List.dropWhile_append_of_pos hback']

/-- Plain digits are read one by one. -/
theorem readDigits?_of_isDigit {cs : List Char} (hne : cs ≠ [])
    (h : ∀ c ∈ cs, c.isDigit = true) : readDigits? cs = some (cs.map fun c => c.toNat - 48) := by
  fun_induction readDigits? cs with
  | case1 => exact absurd rfl hne
  | case2 c => simp [digitValue?_of_isDigit (h c (by simp))]
  | case3 c rest =>
      exact absurd (h '_' (by simp)) (by decide)
  | case4 c rest hrest hplain ih =>
      have hdigits : ∀ d ∈ rest, d.isDigit = true := fun d hd => h d (List.mem_cons_of_mem _ hd)
      rw [ih (fun hnil => hrest (by rw [hnil])) hdigits, digitValue?_of_isDigit (h c (by simp))]
      rfl

theorem digitsValue_map (cs : List Char) :
    digitsValue (cs.map fun c => c.toNat - 48) = Nat.ofDigitChars 10 cs 0 := by
  rw [digitsValue, Nat.ofDigitChars, List.foldl_map]
  rfl

theorem readDigits?_toDigits (n : Nat) :
    (readDigits? (Nat.toDigits 10 n)).map digitsValue = some n := by
  have hdigits : ∀ c ∈ Nat.toDigits 10 n, c.isDigit = true := fun c hc =>
    Nat.isDigit_of_mem_toDigits (by decide) (by decide) hc
  rw [readDigits?_of_isDigit Nat.toDigits_ne_nil hdigits, Option.map_some, digitsValue_map,
    Nat.ofDigitChars_toDigits (by decide) (by decide)]

theorem splitSign_of_isDigit {cs : List Char} (h : ∀ c ∈ cs, c.isDigit = true) :
    splitSign cs = (false, cs) := by
  cases cs with
  | nil => rfl
  | cons c rest =>
      have hc := h c (List.mem_cons_self ..)
      unfold splitSign
      split
      · exact absurd hc (by simp_all)
      · exact absurd hc (by simp_all)
      · rfl

/-- Reading undoes writing. -/
theorem readInteger?_writeInteger (n : Int) : readInteger? (writeInteger n) = some n := by
  have htrim : trimBy isSpace (writeInteger n).toList = (writeInteger n).toList := by
    refine trimBy_of_forall fun c hc => ?_
    have hblank := isBlank_eq_false (mem_writeInteger hc)
    exact Bool.eq_false_iff.mpr fun hspace => by simp [isBlank_of_isSpace hspace] at hblank
  have hdigits : ∀ k c, c ∈ Nat.toDigits 10 k → c.isDigit = true := fun k c hc =>
    Nat.isDigit_of_mem_toDigits (by decide) (by decide) hc
  have hread := readDigits?_toDigits
  rw [readInteger?, htrim]
  cases n with
  | ofNat k =>
      have hchars : (writeInteger (.ofNat k)).toList = Nat.toDigits 10 k := Nat.toList_repr
      rw [hchars, splitSign_of_isDigit (hdigits k)]
      obtain ⟨ds, hds, hvalue⟩ := Option.map_eq_some_iff.mp (hread k)
      simp [hds, hvalue]
  | negSucc k =>
      have hchars : (writeInteger (.negSucc k)).toList = '-' :: Nat.toDigits 10 (k + 1) := by
        simp [writeInteger, toString, Int.repr]
      rw [hchars, splitSign]
      obtain ⟨ds, hds, hvalue⟩ := Option.map_eq_some_iff.mp (hread (k + 1))
      simp [hds, hvalue, Int.negSucc_eq]

end Provision.Text
