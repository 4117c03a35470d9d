import Mathlib.Data.Finset.Card
import Mathlib.Data.List.Nodup
import Provision.Catalog.Index

/-!
# Repetitions and first occurrences

`distinct` keeps every element at its first occurrence, `keep` builds such a
list element by element, and `Item.firsts` does for the ids of items what
`distinct` does for elements. The facts below say which elements are left, that
none is left twice, and in which order they stand.
-/

namespace Provision

variable {α : Type} [BEq α] [LawfulBEq α]

/-! ## Distinct elements -/

theorem mem_distinctFrom {x : α} {seen xs : List α} :
    x ∈ distinctFrom seen xs ↔ x ∈ xs ∧ x ∉ seen := by
  induction xs generalizing seen with
  | nil => simp [distinctFrom]
  | cons y ys ih =>
      by_cases hy : y ∈ seen
      · simp only [distinctFrom, List.contains_iff_mem, hy, if_true, ih, List.mem_cons]
        constructor
        · exact fun h => ⟨Or.inr h.1, h.2⟩
        · rintro ⟨rfl | h, hx⟩
          · exact absurd hy hx
          · exact ⟨h, hx⟩
      · simp only [distinctFrom, List.contains_iff_mem, hy, if_false, List.mem_cons, ih, not_or]
        constructor
        · rintro (rfl | ⟨h, -, hx⟩)
          · exact ⟨Or.inl rfl, hy⟩
          · exact ⟨Or.inr h, hx⟩
        · rintro ⟨rfl | h, hx⟩
          · exact Or.inl rfl
          · by_cases hxy : x = y
            · exact Or.inl hxy
            · exact Or.inr ⟨h, hxy, hx⟩

@[simp] theorem mem_distinct {x : α} {xs : List α} : x ∈ distinct xs ↔ x ∈ xs := by
  simp [distinct, mem_distinctFrom]

/-- Distinct elements stand in the order of their first occurrences. -/
theorem distinctFrom_pairwise (seen xs : List α) :
    (distinctFrom seen xs).Pairwise fun x y => xs.idxOf x < xs.idxOf y := by
  induction xs generalizing seen with
  | nil => simp [distinctFrom]
  | cons x xs ih =>
      -- What is left of the tail differs from `x`, so its positions are one higher in the whole.
      have lift : ∀ seen', x ∈ seen' → (distinctFrom seen' xs).Pairwise fun y z =>
          (x :: xs).idxOf y < (x :: xs).idxOf z := fun seen' hx => by
        refine (ih seen').imp_of_mem fun {y z} hy hz hyz => ?_
        have hyx : x ≠ y := fun h => (mem_distinctFrom.mp hy).2 (h ▸ hx)
        have hzx : x ≠ z := fun h => (mem_distinctFrom.mp hz).2 (h ▸ hx)
        rw [List.idxOf_cons_ne _ hyx, List.idxOf_cons_ne _ hzx]
        omega
      by_cases hx : x ∈ seen
      · simpa [distinctFrom, hx] using lift seen hx
      · simp only [distinctFrom, List.contains_iff_mem, hx, if_false, List.pairwise_cons]
        refine ⟨fun y hy => ?_, lift _ List.mem_cons_self⟩
        have hxy : x ≠ y := fun h => (mem_distinctFrom.mp hy).2 (h ▸ List.mem_cons_self)
        rw [List.idxOf_cons_self, List.idxOf_cons_ne _ hxy]
        omega

theorem distinct_pairwise (xs : List α) :
    (distinct xs).Pairwise fun x y => xs.idxOf x < xs.idxOf y :=
  distinctFrom_pairwise [] xs

theorem nodup_distinct (xs : List α) : (distinct xs).Nodup :=
  (distinct_pairwise xs).imp fun h heq => absurd (heq ▸ h) (Nat.lt_irrefl _)

theorem distinctFrom_of_nodup {seen xs : List α} (hnd : xs.Nodup) (hseen : ∀ x ∈ xs, x ∉ seen) :
    distinctFrom seen xs = xs := by
  induction xs generalizing seen with
  | nil => rfl
  | cons x xs ih =>
      obtain ⟨hx, hxs⟩ := List.nodup_cons.mp hnd
      have hrest : distinctFrom (x :: seen) xs = xs := ih hxs fun y hy => by
        rw [List.mem_cons, not_or]
        exact ⟨fun h => hx (h ▸ hy), hseen y (List.mem_cons_of_mem _ hy)⟩
      simp [distinctFrom, hseen x List.mem_cons_self, hrest]

/-- Without repetitions nothing is dropped. -/
theorem distinct_of_nodup {xs : List α} (hnd : xs.Nodup) : distinct xs = xs :=
  distinctFrom_of_nodup hnd (by simp)

theorem head?_distinct (xs : List α) : (distinct xs).head? = xs.head? := by
  cases xs with
  | nil => rfl
  | cons x xs => simp [distinct, distinctFrom]

theorem distinctFrom_congr {seen seen' : List α} (h : ∀ x, x ∈ seen ↔ x ∈ seen') (xs : List α) :
    distinctFrom seen xs = distinctFrom seen' xs := by
  induction xs generalizing seen seen' with
  | nil => rfl
  | cons x xs ih =>
      have hcons : ∀ y, y ∈ x :: seen ↔ y ∈ x :: seen' := by simp [h]
      simp only [distinctFrom, List.contains_iff_mem, h x, ih h, ih hcons]

/-- Elements seen before are filtered out of the distinct ones. -/
theorem distinctFrom_append (seen seen' xs : List α) :
    distinctFrom (seen ++ seen') xs = (distinctFrom seen' xs).filter fun x => !seen.contains x := by
  induction xs generalizing seen' with
  | nil => rfl
  | cons x xs ih =>
      have hcons : ∀ y, y ∈ x :: (seen ++ seen') ↔ y ∈ seen ++ x :: seen' := by
        intro y
        simp only [List.mem_cons, List.mem_append]
        tauto
      by_cases hx' : x ∈ seen'
      · simp [distinctFrom, hx', ih]
      · by_cases hx : x ∈ seen
        · have hsame : ∀ y, y ∈ seen ++ seen' ↔ y ∈ seen ++ x :: seen' := fun y => by
            rw [← hcons y, List.mem_cons]
            exact ⟨Or.inr, fun h => h.elim (fun heq => by simp [heq, hx]) id⟩
          simpa [distinctFrom, hx, hx', distinctFrom_congr hsame] using ih (x :: seen')
        · simpa [distinctFrom, hx, hx', distinctFrom_congr hcons] using ih (x :: seen')

theorem distinctFrom_eq_filter (seen xs : List α) :
    distinctFrom seen xs = (distinct xs).filter fun x => !seen.contains x := by
  simpa [distinct] using distinctFrom_append seen [] xs

theorem distinctFrom_concat (seen xs ys : List α) :
    distinctFrom seen (xs ++ ys) = distinctFrom seen xs ++ distinctFrom (xs ++ seen) ys := by
  induction xs generalizing seen with
  | nil => rfl
  | cons x xs ih =>
      by_cases hx : x ∈ seen
      · have hsame : ∀ y, y ∈ xs ++ seen ↔ y ∈ x :: xs ++ seen := fun y => by
          simp only [List.cons_append, List.mem_cons, List.mem_append]
          exact ⟨Or.inr, fun h => h.elim (fun heq => Or.inr (heq ▸ hx)) id⟩
        simp [distinctFrom, hx, ih, distinctFrom_congr hsame]
      · have hsame : ∀ y, y ∈ xs ++ x :: seen ↔ y ∈ x :: xs ++ seen := fun y => by
          simp only [List.cons_append, List.mem_cons, List.mem_append]
          tauto
        simp [distinctFrom, hx, ih, distinctFrom_congr hsame]

theorem distinctFrom_map {β : Type} [BEq β] [LawfulBEq β] {f : α → β}
    (hf : Function.Injective f) (seen xs : List α) :
    distinctFrom (seen.map f) (xs.map f) = (distinctFrom seen xs).map f := by
  induction xs generalizing seen with
  | nil => rfl
  | cons x xs ih =>
      have hmem : (seen.map f).contains (f x) = seen.contains x := by
        rw [Bool.eq_iff_iff, List.contains_iff_mem, List.contains_iff_mem]
        exact List.mem_map_of_injective hf
      simp only [distinctFrom, List.map_cons, hmem]
      split
      · exact ih seen
      · rw [List.map_cons, ← ih (x :: seen), List.map_cons]

theorem distinct_map {β : Type} [BEq β] [LawfulBEq β] {f : α → β}
    (hf : Function.Injective f) (xs : List α) :
    distinct (xs.map f) = (distinct xs).map f :=
  distinctFrom_map hf [] xs

theorem distinctFrom_eq_eraseDups (seen xs : List α) :
    distinctFrom seen xs = (xs.filter fun x => !seen.contains x).eraseDups := by
  induction xs generalizing seen with
  | nil => rfl
  | cons x xs ih =>
      by_cases hx : x ∈ seen
      · simp [distinctFrom, hx, ih]
      · have hfilter : (xs.filter fun y => !(x :: seen).contains y)
            = (xs.filter fun y => !seen.contains y).filter fun y => !y == x := by
          rw [List.filter_filter]
          exact List.filter_congr fun y _ => by by_cases hy : y = x <;> simp [hy]
        have hhead : (x :: xs).filter (fun y => !seen.contains y)
            = x :: xs.filter fun y => !seen.contains y := by
          simp [hx]
        rw [hhead, List.eraseDups_cons, ← hfilter, ← ih]
        simp [distinctFrom, hx]

theorem distinct_eq_eraseDups (xs : List α) : distinct xs = xs.eraseDups := by
  simpa [distinct] using distinctFrom_eq_eraseDups [] xs

/-! ## Building a list without repetitions -/

theorem foldl_keep (xs found : List α) :
    xs.foldl (fun found x => keep x found) found = found ++ distinctFrom found xs := by
  induction xs generalizing found with
  | nil => simp [distinctFrom]
  | cons x xs ih =>
      rw [List.foldl_cons, ih]
      by_cases hx : x ∈ found
      · simp [keep, distinctFrom, hx]
      · have hsame : distinctFrom (found ++ [x]) xs = distinctFrom (x :: found) xs :=
          distinctFrom_congr (by simp [or_comm]) xs
        simp [keep, distinctFrom, hx, hsame]

/-- Keeping the elements one after the other leaves the distinct ones. -/
theorem foldl_keep_nil (xs : List α) :
    xs.foldl (fun found x => keep x found) [] = distinct xs := by
  rw [foldl_keep, List.nil_append, distinct]

theorem length_distinct [DecidableEq α] (xs : List α) :
    (distinct xs).length = xs.toFinset.card := by
  rw [← List.toFinset_card_of_nodup (nodup_distinct xs)]
  exact congrArg Finset.card (by ext x; simp)

/-! ## First items -/

namespace Item

theorem map_id_firstsFrom (seen : List Int) (items : List Item) :
    (firstsFrom seen items).map Item.id = distinctFrom seen (items.map Item.id) := by
  induction items generalizing seen with
  | nil => rfl
  | cons item rest ih =>
      simp only [firstsFrom, distinctFrom, List.map_cons]
      split
      · exact ih seen
      · rw [List.map_cons, ih]

theorem map_id_firsts (items : List Item) :
    (firsts items).map Item.id = distinct (items.map Item.id) :=
  map_id_firstsFrom [] items

theorem nodup_map_id_firsts (items : List Item) : ((firsts items).map Item.id).Nodup := by
  rw [map_id_firsts]
  exact nodup_distinct _

theorem find?_of_mem_firstsFrom {seen : List Int} {items : List Item} {first : Item}
    (h : first ∈ firstsFrom seen items) :
    first.id ∉ seen ∧ items.find? (·.id == first.id) = some first := by
  induction items generalizing seen with
  | nil => simp [firstsFrom] at h
  | cons item rest ih =>
      by_cases hseen : item.id ∈ seen
      · have hrest : first ∈ firstsFrom seen rest := by simpa [firstsFrom, hseen] using h
        obtain ⟨hfirst, hfind⟩ := ih hrest
        have hne : item.id ≠ first.id := fun heq => hfirst (heq ▸ hseen)
        exact ⟨hfirst, by simpa [hne] using hfind⟩
      · simp only [firstsFrom, List.contains_iff_mem, hseen, if_false, List.mem_cons] at h
        rcases h with rfl | hrest
        · exact ⟨hseen, by simp⟩
        · obtain ⟨hfirst, hfind⟩ := ih hrest
          rw [List.mem_cons, not_or] at hfirst
          exact ⟨hfirst.2, by simpa [Ne.symm hfirst.1] using hfind⟩

/-- An item is among the first ones exactly if it is the first with its id. -/
theorem mem_firsts_iff {items : List Item} {first : Item} :
    first ∈ firsts items ↔ items.find? (·.id == first.id) = some first := by
  refine ⟨fun h => (find?_of_mem_firstsFrom h).2, fun h => ?_⟩
  have hid : first.id ∈ (firsts items).map Item.id := by
    rw [map_id_firsts, mem_distinct]
    exact List.mem_map_of_mem (List.mem_of_find?_eq_some h)
  obtain ⟨other, hother, heq⟩ := List.mem_map.mp hid
  have hfind := (find?_of_mem_firstsFrom hother).2
  rw [heq, h] at hfind
  exact Option.some.inj hfind ▸ hother

theorem firstsFrom_sublist (seen : List Int) (items : List Item) :
    (firstsFrom seen items).Sublist items := by
  induction items generalizing seen with
  | nil => exact List.Sublist.refl _
  | cons item rest ih =>
      unfold firstsFrom
      split
      · exact (ih seen).cons item
      · exact (ih _).cons_cons item

theorem firsts_sublist (items : List Item) : (firsts items).Sublist items :=
  firstsFrom_sublist [] items

/-- An id is found among the first items just where it is found among all. -/
theorem find?_firsts (items : List Item) (id : Int) :
    (firsts items).find? (·.id == id) = items.find? (·.id == id) := by
  cases hfind : items.find? (·.id == id) with
  | none =>
      rw [List.find?_eq_none] at hfind ⊢
      intro item hitem
      exact hfind item ((firsts_sublist items).subset hitem)
  | some first =>
      have hid : first.id = id := by simpa using List.find?_some hfind
      have hfirst : first ∈ firsts items := mem_firsts_iff.mpr (by rw [hid, hfind])
      cases hother : (firsts items).find? (·.id == id) with
      | none =>
          have hnone := List.find?_eq_none.mp hother first hfirst
          simp [hid] at hnone
      | some other =>
          have hsame : other.id = id := by simpa using List.find?_some hother
          have hmem := mem_firsts_iff.mp (List.mem_of_find?_eq_some hother)
          rw [hsame, hfind] at hmem
          exact hmem.symm

theorem exists_first {items : List Item} {item : Item} (h : item ∈ items) :
    ∃ first ∈ firsts items, first.id = item.id := by
  have hid : item.id ∈ (firsts items).map Item.id := by
    rw [map_id_firsts, mem_distinct]
    exact List.mem_map_of_mem h
  exact List.mem_map.mp hid

end Item

end Provision
