import Mathlib.Algebra.BigOperators.Group.List.Basic
import Provision.Catalog.Price
import Provision.Proofs.Distinct

/-!
# Products of lists

The elements of `product ls` take one element of each list, in lexicographic
order of the positions. Dropping repetitions from a product is the same as
dropping them from every factor (`distinct_product`), which is what makes the
number of elements left a product again.
-/

namespace Provision

variable {α β ι : Type}

/-- A list that was mapped without a failure was mapped element by element. -/
theorem forall₂_of_mapM_ok {ε : Type} {f : α → Except ε β} {R : α → β → Prop}
    (hf : ∀ a b, f a = .ok b → R a b) {as : List α} {bs : List β} (h : as.mapM f = .ok bs) :
    List.Forall₂ R as bs := by
  induction as generalizing bs with
  | nil =>
      cases h
      exact .nil
  | cons a rest ih =>
      rw [List.mapM_cons] at h
      cases ha : f a with
      | error e =>
          rw [ha] at h
          cases h
      | ok b =>
          cases hrest : rest.mapM f with
          | error e =>
              rw [ha, hrest] at h
              cases h
          | ok bs' =>
              rw [ha, hrest] at h
              cases h
              exact .cons (hf a b ha) (ih hrest)

/-- To map a list without a failure is to map its elements so. -/
theorem mapM_eq_ok_iff {ε : Type} {f : α → Except ε β} {as : List α} {bs : List β} :
    as.mapM f = .ok bs ↔ List.Forall₂ (fun a b => f a = .ok b) as bs := by
  refine ⟨forall₂_of_mapM_ok fun _ _ => id, fun h => ?_⟩
  induction h with
  | nil => rfl
  | cons hfirst _ ih =>
      rw [List.mapM_cons, hfirst, ih]
      rfl

/-- It is the first failure that a list is not mapped for. -/
theorem mapM_eq_error_iff {ε : Type} {f : α → Except ε β} {as : List α} {e : ε} :
    as.mapM f = .error e ↔ ∃ before a after, as = before ++ a :: after
      ∧ (∀ earlier ∈ before, ∃ b, f earlier = .ok b) ∧ f a = .error e := by
  constructor
  · intro h
    induction as with
    | nil => cases h
    | cons a rest ih =>
        rw [List.mapM_cons] at h
        cases ha : f a with
        | error e' =>
            rw [ha] at h
            cases h
            exact ⟨[], a, rest, rfl, fun _ => nofun, ha⟩
        | ok b =>
            have hrest : rest.mapM f = .error e := by
              cases hrest : rest.mapM f with
              | error e' =>
                  rw [ha, hrest] at h
                  cases h
                  rfl
              | ok bs =>
                  rw [ha, hrest] at h
                  cases h
            obtain ⟨before, failing, after, rfl, hbefore, hfails⟩ := ih hrest
            exact ⟨a :: before, failing, after, rfl, List.forall_mem_cons.mpr ⟨⟨b, ha⟩, hbefore⟩, hfails⟩
  · rintro ⟨before, a, after, rfl, hbefore, hfails⟩
    induction before with
    | nil =>
        rw [List.nil_append, List.mapM_cons, hfails]
        rfl
    | cons earlier before ih =>
        obtain ⟨⟨b, hb⟩, hbefore⟩ := List.forall_mem_cons.mp hbefore
        rw [List.cons_append, List.mapM_cons, hb, ih hbefore]
        rfl

theorem exists_of_forall₂ {R : α → β → Prop} {as : List α} {bs : List β} (h : List.Forall₂ R as bs)
    {b : β} (hb : b ∈ bs) : ∃ a ∈ as, R a b := by
  induction h with
  | nil => cases hb
  | @cons a _ _ _ hfirst _ ih =>
      rcases List.mem_cons.mp hb with rfl | hb
      · exact ⟨a, List.mem_cons_self .., hfirst⟩
      · obtain ⟨a, ha, hR⟩ := ih hb
        exact ⟨a, List.mem_cons_of_mem _ ha, hR⟩

theorem mem_product {xs : List α} {ls : List (List α)} :
    xs ∈ product ls ↔ List.Forall₂ (· ∈ ·) xs ls := by
  induction ls generalizing xs with
  | nil => simp [product]
  | cons l ls ih =>
      simp only [product, List.mem_flatMap, List.mem_map, ih]
      constructor
      · rintro ⟨x, hx, tail, htail, rfl⟩
        exact List.Forall₂.cons hx htail
      · intro h
        cases h with
        | cons hx htail => exact ⟨_, hx, _, htail, rfl⟩

theorem length_product (ls : List (List α)) :
    (product ls).length = (ls.map List.length).prod := by
  induction ls with
  | nil => rfl
  | cons l ls ih => simp [product, List.length_flatMap, ih]

theorem product_map (f : α → β) (ls : List (List α)) :
    product (ls.map (List.map f)) = (product ls).map (List.map f) := by
  induction ls with
  | nil => rfl
  | cons l ls ih =>
      simp [product, ih, List.flatMap_map, List.map_flatMap, Function.comp_def]

/-- The first element of a product takes the first element of every factor. -/
theorem head?_product {is : List ι} {choices : ι → List α} {first : ι → α}
    (h : ∀ i ∈ is, (choices i).head? = some (first i)) :
    (product (is.map choices)).head? = some (is.map first) := by
  induction is with
  | nil => rfl
  | cons i is ih =>
      obtain ⟨hi, hrest⟩ := List.forall_mem_cons.mp h
      obtain ⟨more, hmore⟩ := List.head?_eq_some_iff.mp hi
      rw [List.map_cons, product, hmore, List.flatMap_cons, List.head?_append, List.head?_map,
        ih hrest]
      rfl

/-- Where the choices of every factor stand in the order of their ranks, the elements of the
product stand in the lexicographic order of their ranks. -/
theorem product_pairwise {is : List ι} {choices : ι → List α} (rank : ι → α → Nat)
    (h : ∀ i ∈ is, (choices i).Pairwise fun x y => rank i x < rank i y) :
    (product (is.map choices)).Pairwise fun xs ys =>
      List.zipWith rank is xs < List.zipWith rank is ys := by
  induction is with
  | nil => simp [product]
  | cons i is ih =>
      have htails := ih fun j hj => h j (List.mem_cons_of_mem _ hj)
      simp only [product, List.map_cons, List.pairwise_flatMap]
      refine ⟨fun x _ => ?_, (h i List.mem_cons_self).imp fun {x y} hxy xs hxs ys hys => ?_⟩
      · rw [List.pairwise_map]
        exact htails.imp fun hlt => by simpa using hlt
      · obtain ⟨xs, -, rfl⟩ := List.mem_map.mp hxs
        obtain ⟨ys, -, rfl⟩ := List.mem_map.mp hys
        exact List.Lex.rel hxy

section Distinct

variable [BEq α] [LawfulBEq α]

/-- Repetitions among the first elements, where `S` holds exactly those lists of the product that
begin with an element of `seen`. -/
theorem distinctFrom_flatMap_cons {tails S : List (List α)} {seen : List α} (l : List α)
    (hS : ∀ x, ∀ tail ∈ tails, x :: tail ∈ S ↔ x ∈ seen) :
    distinctFrom S (l.flatMap fun x => tails.map (x :: ·))
      = (distinctFrom seen l).flatMap fun x => (distinct tails).map (x :: ·) := by
  induction l generalizing S seen with
  | nil => rfl
  | cons x l ih =>
      have hinj : Function.Injective (x :: · : List α → List α) := List.cons_injective
      rw [List.flatMap_cons, distinctFrom_concat, distinctFrom_eq_filter S, distinct_map hinj]
      by_cases hx : x ∈ seen
      · have hnone : ((distinct tails).map (x :: ·)).filter (fun y => !S.contains y) = [] := by
          simp only [List.filter_eq_nil_iff, List.mem_map, mem_distinct]
          rintro _ ⟨tail, htail, rfl⟩
          simp [(hS x tail htail).mpr hx]
        rw [hnone, List.nil_append, distinctFrom, List.contains_iff_mem.mpr hx, if_pos rfl]
        refine ih fun y tail htail => ?_
        rw [List.mem_append, hS y tail htail]
        refine ⟨fun h => h.elim (fun hmem => ?_) id, Or.inr⟩
        obtain ⟨_, _, heq⟩ := List.mem_map.mp hmem
        exact (List.cons.inj heq).1 ▸ hx
      · have hall : ((distinct tails).map (x :: ·)).filter (fun y => !S.contains y)
            = (distinct tails).map (x :: ·) := by
          simp only [List.filter_eq_self, List.mem_map, mem_distinct]
          rintro _ ⟨tail, htail, rfl⟩
          simpa using mt (hS x tail htail).mp hx
        have hseen : seen.contains x = false := by simpa using hx
        rw [hall, distinctFrom, hseen, if_neg Bool.false_ne_true, List.flatMap_cons]
        congr 1
        refine ih fun y tail htail => ?_
        rw [List.mem_append, hS y tail htail, List.mem_cons]
        refine or_congr_left ⟨fun hmem => ?_, fun heq => ?_⟩
        · obtain ⟨_, _, heq⟩ := List.mem_map.mp hmem
          exact (List.cons.inj heq).1.symm
        · exact heq ▸ List.mem_map_of_mem htail

/-- The distinct elements of a product are the product of the distinct elements. -/
theorem distinct_product (ls : List (List α)) :
    distinct (product ls) = product (ls.map distinct) := by
  induction ls with
  | nil => rfl
  | cons l ls ih =>
      rw [distinct, product, List.map_cons, product, ← ih]
      exact distinctFrom_flatMap_cons l (by simp)

end Distinct

end Provision
