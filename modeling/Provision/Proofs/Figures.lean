import Mathlib.Data.List.TakeDrop
import Mathlib.Data.List.TakeWhile
import Provision.Decimal.Reading
import Provision.Proofs.Text

/-!
# Figures

Patterns ask for digits and points where they expect a number, but not every
run of digits and points is one: it may hold several points, or nothing else.
These are the only exceptions. All others are read as the number of their digits,
scaled down by those behind the point (`Decimal.parse?_figures`).
-/

namespace Provision

/-! ## Numbers -/

/-- A non-empty run of digits. -/
def IsCount (cs : List Char) : Prop := cs ≠ [] ∧ ∀ c ∈ cs, c.isDigit = true

/-- A non-empty run of digits and points. -/
def IsFigures (cs : List Char) : Prop := cs ≠ [] ∧ ∀ c ∈ cs, c.isDigit = true ∨ c = '.'

/-- One point at most, and something else. -/
def IsNumber (cs : List Char) : Prop := cs.count '.' ≤ 1 ∧ ∃ c ∈ cs, c ≠ '.'

instance (cs : List Char) : Decidable (IsCount cs) :=
  decidable_of_iff (cs ≠ [] ∧ cs.all Char.isDigit = true) (by simp [IsCount])

instance (cs : List Char) : Decidable (IsFigures cs) :=
  decidable_of_iff (cs ≠ [] ∧ (cs.all fun c => c.isDigit || c == '.') = true) (by simp [IsFigures])

instance (cs : List Char) : Decidable (IsNumber cs) :=
  decidable_of_iff (cs.count '.' ≤ 1 ∧ (cs.any fun c => c != '.') = true) (by simp [IsNumber])

theorem IsCount.isFigures {cs : List Char} (h : IsCount cs) : IsFigures cs :=
  ⟨h.1, fun c hc => Or.inl (h.2 c hc)⟩

theorem IsCount.isNumber {cs : List Char} (h : IsCount cs) : IsNumber cs := by
  obtain ⟨c, more, rfl⟩ := List.exists_cons_of_ne_nil h.1
  have hpoint : ∀ d ∈ c :: more, d ≠ '.' := by
    rintro d hd rfl
    exact absurd (h.2 _ hd) (by decide)
  refine ⟨?_, c, List.mem_cons_self .., hpoint c (List.mem_cons_self ..)⟩
  rw [List.count_eq_zero.mpr fun hmem => hpoint '.' hmem rfl]
  exact Nat.zero_le 1

/-- Digits end at the first point. -/
theorem split_at_point {cs : List Char} (h : ∀ c ∈ cs, c.isDigit = true ∨ c = '.') :
    (∀ c ∈ cs, c.isDigit = true)
      ∨ ∃ whole more, cs = whole ++ '.' :: more ∧ ∀ c ∈ whole, c.isDigit = true := by
  induction cs with
  | nil => exact Or.inl fun _ => nofun
  | cons c cs ih =>
      obtain ⟨hc, hcs⟩ := List.forall_mem_cons.mp h
      rcases hc with hc | rfl
      · rcases ih hcs with hall | ⟨whole, more, rfl, hwhole⟩
        · exact Or.inl (List.forall_mem_cons.mpr ⟨hc, hall⟩)
        · exact Or.inr ⟨c :: whole, more, rfl, List.forall_mem_cons.mpr ⟨hc, hwhole⟩⟩
      · exact Or.inr ⟨[], cs, rfl, fun _ => nofun⟩

namespace Decimal

open Text

theorem isDigit_of_isDigit {c : Char} (h : c.isDigit = true) : Text.isDigit c = true := by
  unfold Text.isDigit
  rw [digitValue?_of_isDigit h]
  rfl

/-- Digits are taken up to a point, or to the end. -/
theorem digitRun_append {whole rest : List Char} (hwhole : ∀ c ∈ whole, c.isDigit = true)
    (hrest : rest = [] ∨ ∃ more, rest = '.' :: more) :
    digitRun (whole ++ rest) = (whole, rest) := by
  have hall : ∀ c ∈ whole, (Text.isDigit c || c == '_') = true := fun c hc => by
    rw [isDigit_of_isDigit (hwhole c hc), Bool.true_or]
  have hpoint : (Text.isDigit '.' || '.' == '_') = false := by decide
  unfold digitRun
  rw [List.span_eq_takeWhile_dropWhile, List.takeWhile_append_of_pos hall,
    List.dropWhile_append_of_pos hall]
  rcases hrest with rfl | ⟨more, rfl⟩
  · rw [List.takeWhile_nil, List.dropWhile_nil, List.append_nil]
  · rw [List.takeWhile_cons, List.dropWhile_cons, hpoint]
    simp

theorem runDigits?_of_isDigit {cs : List Char} (h : ∀ c ∈ cs, c.isDigit = true) :
    runDigits? cs = some (cs.map fun c => c.toNat - 48) := by
  unfold runDigits?
  cases cs with
  | nil => rfl
  | cons c more => exact readDigits?_of_isDigit (List.cons_ne_nil c more) h

theorem mantissa?_of_isDigit {whole fraction : List Char} (hwhole : ∀ c ∈ whole, c.isDigit = true)
    (hfraction : ∀ c ∈ fraction, c.isDigit = true) : mantissa? whole fraction
      = if whole ++ fraction = [] then none
        else some (Nat.ofDigitChars 10 (whole ++ fraction) 0, -(fraction.length : Int)) := by
  unfold mantissa?
  rw [runDigits?_of_isDigit hwhole, runDigits?_of_isDigit hfraction, ← digitsValue_map,
    List.map_append]
  cases whole <;> cases fraction <;> simp

theorem toLower_of_figure {c : Char} (h : c.isDigit = true ∨ c = '.') : c.toLower = c := by
  rcases h with h | rfl
  · have hbounds := toNat_of_isDigit h
    unfold Char.toLower
    rw [dif_neg]
    rintro ⟨hupper, -⟩
    have hlow : 65 ≤ c.toNat := hupper
    omega
  · rfl

/-- Figures are no word. -/
theorem unsigned?_figures {cs whole rest fraction tail : List Char} (h : IsFigures cs)
    (minus : Bool) (hwhole : digitRun cs = (whole, rest))
    (hrest : (rest = [] ∧ fraction = [] ∧ tail = [])
      ∨ ∃ more, rest = '.' :: more ∧ digitRun more = (fraction, tail)) :
    unsigned? minus cs = (mantissa? whole fraction).bind fun (n, scale) =>
      (exponent? tail).map fun power => .finite minus n (scale + power) := by
  have hlower : cs.map Char.toLower = cs := by
    refine (List.map_congr_left fun c hc => ?_).trans (List.map_id cs)
    exact toLower_of_figure (h.2 c hc)
  have hword : ∀ w : String, (∃ c ∈ w.toList, ¬ (c.isDigit = true ∨ c = '.')) →
      (String.ofList (cs.map Char.toLower) == w) = false := by
    rintro w ⟨c, hc, hother⟩
    refine beq_eq_false_iff_ne.mpr ?_
    rintro rfl
    rw [String.toList_ofList, hlower] at hc
    exact hother (h.2 c hc)
  have hinf := hword "inf" ⟨'i', by decide, by decide⟩
  have hinfinity := hword "infinity" ⟨'i', by decide, by decide⟩
  have hnan := hword "nan" ⟨'n', by decide, by decide⟩
  unfold unsigned?
  rcases hrest with ⟨rfl, rfl, rfl⟩ | ⟨more, rfl, hfraction⟩
  · simp only [hinf, hinfinity, hnan, hwhole]
    cases mantissa? whole [] <;> rfl
  · simp only [hinf, hinfinity, hnan, hwhole, hfraction]
    cases mantissa? whole fraction <;> cases exponent? tail <;> rfl

/-! ## The number written -/

/-- The number of the digits, scaled down by those behind the point. -/
def ofFigures (cs : List Char) : Decimal :=
  .finite false (Nat.ofDigitChars 10 (cs.filter (· != '.')) 0)
    (-((cs.dropWhile (· != '.')).tail.length : Int))

theorem not_point_of_isDigit {cs : List Char} (h : ∀ c ∈ cs, c.isDigit = true) :
    ∀ c ∈ cs, (c != '.') = true := by
  intro c hc
  rw [bne_iff_ne]
  rintro rfl
  exact absurd (h _ hc) (by decide)

theorem count_point {cs : List Char} (h : ∀ c ∈ cs, c.isDigit = true) : cs.count '.' = 0 :=
  List.count_eq_zero.mpr fun hmem => by simpa using not_point_of_isDigit h _ hmem

theorem ofFigures_whole {whole : List Char} (hwhole : ∀ c ∈ whole, c.isDigit = true) :
    ofFigures whole = .finite false (Nat.ofDigitChars 10 whole 0) 0 := by
  have hno := not_point_of_isDigit hwhole
  rw [ofFigures, List.filter_eq_self.mpr hno, List.dropWhile_eq_nil_iff.mpr hno]
  rfl

theorem ofFigures_point {whole fraction : List Char} (hwhole : ∀ c ∈ whole, c.isDigit = true)
    (hfraction : ∀ c ∈ fraction, c.isDigit = true) : ofFigures (whole ++ '.' :: fraction)
      = .finite false (Nat.ofDigitChars 10 (whole ++ fraction) 0) (-(fraction.length : Int)) := by
  have hno := not_point_of_isDigit hwhole
  rw [ofFigures, List.filter_append, List.filter_eq_self.mpr hno, List.filter_cons_of_neg (by simp),
    List.filter_eq_self.mpr (not_point_of_isDigit hfraction), List.dropWhile_append_of_pos hno,
    List.dropWhile_cons_of_neg (by simp), List.tail_cons]

theorem isNumber_point_iff {whole fraction : List Char} (hwhole : ∀ c ∈ whole, c.isDigit = true)
    (hfraction : ∀ c ∈ fraction, c.isDigit = true) :
    IsNumber (whole ++ '.' :: fraction) ↔ whole ++ fraction ≠ [] := by
  unfold IsNumber
  rw [List.count_append, List.count_cons_self, count_point hwhole, count_point hfraction]
  constructor
  · rintro ⟨-, c, hc, hne⟩
    refine List.ne_nil_of_mem (a := c) ?_
    simp only [List.mem_append, List.mem_cons] at hc ⊢
    exact hc.imp_right (Or.resolve_left · hne)
  · intro hne
    obtain ⟨c, hc⟩ := List.exists_mem_of_ne_nil _ hne
    have hdigits := List.forall_mem_append.mpr ⟨hwhole, hfraction⟩
    refine ⟨Nat.le_refl 1, c, ?_, by simpa using not_point_of_isDigit hdigits c hc⟩
    simp only [List.mem_append, List.mem_cons] at hc ⊢
    exact hc.imp_right Or.inr

theorem not_isNumber_of_points (whole fraction tail : List Char) :
    ¬ IsNumber (whole ++ '.' :: (fraction ++ '.' :: tail)) := by
  rintro ⟨hone, -⟩
  rw [List.count_append, List.count_cons_self, List.count_append, List.count_cons_self] at hone
  omega

/-- There is nothing around figures, and no sign in front. -/
theorem parse?_eq_unsigned {cs : List Char} (h : IsFigures cs) :
    parse? (String.ofList cs) = unsigned? false cs := by
  have htrim : trimBy isSpace cs = cs := by
    refine trimBy_of_forall fun c hc => Bool.eq_false_iff.mpr fun hspace => ?_
    have hblank := isBlank_of_isSpace hspace
    rcases h.2 c hc with hdigit | rfl
    · rw [isBlank_eq_false (Or.inl hdigit)] at hblank
      cases hblank
    · exact absurd hblank (by decide)
  have hsign : splitSign cs = (false, cs) := by
    obtain ⟨c, more, rfl⟩ := List.exists_cons_of_ne_nil h.1
    unfold splitSign
    split
    · exact absurd (h.2 '-' (by simp_all)) (by decide)
    · exact absurd (h.2 '+' (by simp_all)) (by decide)
    · rfl
  unfold parse?
  rw [String.toList_ofList, htrim, hsign]

/-- Figures write the number of their digits, unless there are several points or nothing but a
point. -/
theorem parse?_figures {cs : List Char} (h : IsFigures cs) :
    parse? (String.ofList cs) = if IsNumber cs then some (ofFigures cs) else none := by
  rw [parse?_eq_unsigned h]
  rcases split_at_point h.2 with hall | ⟨whole, more, rfl, hwhole⟩
  · have hrun := digitRun_append hall (Or.inl rfl)
    rw [List.append_nil] at hrun
    rw [unsigned?_figures h false hrun (Or.inl ⟨rfl, rfl, rfl⟩),
      mantissa?_of_isDigit hall (List.forall_mem_nil _), List.append_nil, if_neg h.1,
      if_pos (IsCount.isNumber ⟨h.1, hall⟩), ofFigures_whole hall]
    rfl
  · have hrun := digitRun_append hwhole (Or.inr ⟨more, rfl⟩)
    have hmore : ∀ c ∈ more, c.isDigit = true ∨ c = '.' := fun c hc =>
      h.2 c (List.mem_append_right _ (List.mem_cons_of_mem _ hc))
    rcases split_at_point hmore with hall | ⟨fraction, tail, rfl, hfraction⟩
    · have hrun' := digitRun_append hall (Or.inl rfl)
      rw [List.append_nil] at hrun'
      have hnumber := isNumber_point_iff hwhole hall
      rw [unsigned?_figures h false hrun (Or.inr ⟨more, rfl, hrun'⟩),
        mantissa?_of_isDigit hwhole hall, ofFigures_point hwhole hall]
      by_cases hnone : whole ++ more = []
      · rw [if_pos hnone, if_neg (by simpa [hnumber] using hnone)]
        rfl
      · rw [if_neg hnone, if_pos (hnumber.mpr hnone)]
        simp [exponent?]
    · have hrun' := digitRun_append hfraction (Or.inr ⟨tail, rfl⟩)
      -- The second point is left over for the exponent, which does not begin like that.
      have hnone : exponent? ('.' :: tail) = none := rfl
      rw [unsigned?_figures h false hrun (Or.inr ⟨_, rfl, hrun'⟩), hnone,
        if_neg (not_isNumber_of_points whole fraction tail)]
      cases mantissa? whole fraction <;> rfl

theorem read?_figures {cs : List Char} (h : IsFigures cs) :
    read? (String.ofList cs) = if IsNumber cs then some (ofFigures cs).toFloat else none := by
  rw [read?, parse?_figures h]
  by_cases hnumber : IsNumber cs
  · rw [if_pos hnumber, if_pos hnumber, Option.map_some]
  · rw [if_neg hnumber, if_neg hnumber, Option.map_none]

end Decimal

end Provision
