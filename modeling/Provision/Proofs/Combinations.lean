import Mathlib.Algebra.BigOperators.Group.Finset.Basic
import Provision.Proofs.Product
import Provision.Proofs.Text

/-!
# Price combinations as a product

The search for candidates goes through the prices of the distinct items and
rewrites a text of item ids place by place. What comes out is a product: an
*assignment* gives one price to every item id, chosen from the prices of the
first item with that id, and the candidates are the texts of the assignments.

`expand_eq` reduces the search to a product of lists, `candidate_eq` the
rewriting to a plain join: the ids of the first items differ, so every place is
written exactly once, by the price of its own item. The order, the number and
the absence of repetitions are then facts about products and about the joined
text, from which the assignment can be read off (`candidateOf_injective`).
-/

namespace Provision.Price

/-! ## Assignments -/

/-- The prices that count for an id: those of the first item with it. -/
def pricesOf (items : List Item) (id : Int) : List Int :=
  ((items.find? (·.id == id)).map Item.prices).getD []

/-- `f` gives every item one of the prices that count for its id. -/
def Assigns (items : List Item) (f : Int → Int) : Prop :=
  ∀ item ∈ items, f item.id ∈ pricesOf items item.id

/-- The text of an assignment: the price of every item, joined with commas. -/
def candidateOf (items : List Item) (f : Int → Int) : String :=
  ",".intercalate (items.map fun item => toString (f item.id))

/-- Where the prices of an assignment stand in their lists, for the distinct ids in item order. -/
def positions (items : List Item) (f : Int → Int) : List Nat :=
  (items.map Item.id).eraseDups.map fun id => (pricesOf items id).idxOf (f id)

theorem pricesOf_first {items : List Item} {first : Item} (h : first ∈ Item.firsts items) :
    pricesOf items first.id = first.prices := by
  rw [pricesOf, Item.mem_firsts_iff.mp h]
  rfl

/-- An assignment is decided by the first items. -/
theorem assigns_iff {items : List Item} {f : Int → Int} :
    Assigns items f ↔ ∀ first ∈ Item.firsts items, f first.id ∈ first.prices := by
  constructor
  · intro h first hfirst
    rw [← pricesOf_first hfirst]
    exact h first (List.mem_of_find?_eq_some (Item.mem_firsts_iff.mp hfirst))
  · intro h item hitem
    obtain ⟨first, hfirst, hid⟩ := Item.exists_first hitem
    rw [← hid, pricesOf_first hfirst]
    exact h first hfirst

theorem map_firsts_congr {items : List Item} {f g : Int → Int}
    (h : ∀ item ∈ items, f item.id = g item.id) :
    (Item.firsts items).map (fun first => f first.id)
      = (Item.firsts items).map fun first => g first.id := by
  refine List.map_congr_left fun first hfirst => ?_
  exact h first (List.mem_of_find?_eq_some (Item.mem_firsts_iff.mp hfirst))

/-! ## The search -/

theorem expand_eq (sets : List (List String)) (chosen : List String)
    (found : List (List String)) :
    expand sets chosen found
      = ((product sets).map (chosen ++ ·)).foldl (fun found x => keep x found) found := by
  induction sets generalizing chosen found with
  | nil => simp [expand, product]
  | cons set sets ih =>
      simp only [expand, product, ih]
      induction set generalizing found with
      | nil => rfl
      | cons price set ihset =>
          rw [List.foldl_cons, ihset, List.flatMap_cons, List.map_append, List.foldl_append]
          simp [Function.comp_def]

/-- The search finds the product of the sets, each choice once. -/
theorem expand_nil (sets : List (List String)) : expand sets [] [] = distinct (product sets) := by
  rw [expand_eq, ← foldl_keep_nil]
  simp

/-! ## The template -/

theorem blank_eq (items : List Item) :
    blank items = items.map fun item => { item := item.id, text := Text.writeInteger item.id } := by
  have hsplit : (if items.isEmpty then [] else Text.splitOn ',' (itemIds items))
      = items.map fun item => Text.writeInteger item.id := by
    cases items with
    | nil => rfl
    | cons item rest =>
        rw [List.isEmpty_cons, if_neg Bool.false_ne_true, itemIds, writeIds, List.map_map]
        refine Text.splitOn_joinWith (by simp) fun piece hpiece => ?_
        obtain ⟨other, -, rfl⟩ := List.mem_map.mp hpiece
        exact Text.comma_not_mem_writeInteger other.id
  rw [blank, hsplit, List.zipWith_map_right]
  exact List.zipWith_self

/-- A place after all prices were offered to it, one item after the other. -/
def Cell.settle (cell : Cell) (prices : List (Item × String)) : Cell :=
  prices.foldl (fun cell (item, price) => cell.write item.id price) cell

theorem Cell.settle_cons (cell : Cell) (item : Item) (price : String)
    (prices : List (Item × String)) :
    cell.settle ((item, price) :: prices) = (cell.write item.id price).settle prices := rfl

theorem foldl_map_write (prices : List (Item × String)) (cells : List Cell) :
    prices.foldl (fun cells (item, price) => cells.map (Cell.write item.id price)) cells
      = cells.map (·.settle prices) := by
  induction prices generalizing cells with
  | nil => simp [Cell.settle]
  | cons p prices ih =>
      obtain ⟨item, price⟩ := p
      simp [ih, Cell.settle_cons, Function.comp_def]

/-- A place that holds a price is not written again. -/
theorem Cell.settle_of_priced {cell : Cell} (h : cell.priced = true)
    (prices : List (Item × String)) : cell.settle prices = cell := by
  induction prices with
  | nil => rfl
  | cons p prices ih =>
      have hp : cell.write p.1.id p.2 = cell := by simp [Cell.write, h]
      rw [Cell.settle_cons, hp, ih]

/-- A place takes the price of its own item, whatever other ids that price may look like. -/
theorem Cell.text_settle {firsts : List Item} {f : Int → String} {cell : Cell}
    (hnew : cell.priced = false) (hitem : cell.item ∈ firsts.map Item.id) :
    (cell.settle (firsts.zip (firsts.map fun first => f first.id))).text = f cell.item := by
  induction firsts with
  | nil => simp at hitem
  | cons first firsts ih =>
      rw [List.map_cons, List.zip_cons_cons, Cell.settle_cons]
      by_cases hid : cell.item = first.id
      · have hwrite : (cell.write first.id (f first.id)).priced = true := by
          simp [Cell.write, hnew, hid]
        rw [Cell.settle_of_priced hwrite]
        simp [Cell.write, hnew, hid]
      · have hwrite : cell.write first.id (f first.id) = cell := by
          simp [Cell.write, hid]
        rw [hwrite]
        exact ih (by simpa [hid] using hitem)

/-- Writing the prices of an assignment into the template gives the text of the assignment. -/
theorem candidate_eq (items : List Item) (f : Int → Int) :
    candidate items (Item.firsts items)
      ((Item.firsts items).map fun first => Text.writeInteger (f first.id))
        = candidateOf items f := by
  rw [candidate, candidateOf, blank_eq, foldl_map_write, List.map_map, List.map_map,
    Text.joinWith_eq_intercalate]
  congr 1
  refine List.map_congr_left fun item hitem => ?_
  obtain ⟨first, hfirst, hid⟩ := Item.exists_first hitem
  have hmem : item.id ∈ (Item.firsts items).map Item.id := hid ▸ List.mem_map_of_mem hfirst
  exact Cell.text_settle (f := fun id => Text.writeInteger (f id)) rfl hmem

/-! ## Reading an assignment off its text -/

theorem splitOn_candidateOf {items : List Item} (hne : items ≠ []) (f : Int → Int) :
    Text.splitOn ',' (candidateOf items f) = items.map fun item => toString (f item.id) := by
  rw [candidateOf, show "," = String.singleton ',' from rfl, ← Text.joinWith_eq_intercalate]
  refine Text.splitOn_joinWith (by simpa using hne) fun piece hpiece => ?_
  obtain ⟨item, -, rfl⟩ := List.mem_map.mp hpiece
  exact Text.comma_not_mem_writeInteger (f item.id)

/-- Assignments with the same text agree on all items. -/
theorem candidateOf_injective {items : List Item} (hne : items ≠ []) {f g : Int → Int}
    (h : candidateOf items f = candidateOf items g) : ∀ item ∈ items, f item.id = g item.id := by
  have hpieces := congrArg (Text.splitOn ',') h
  rw [splitOn_candidateOf hne, splitOn_candidateOf hne, List.map_inj_left] at hpieces
  exact fun item hitem => Text.writeInteger_injective (hpieces item hitem)

/-! ## All candidates -/

/-- The choices of one price per first item, as lists in the order of these items. -/
def choices (items : List Item) : List (List Int) :=
  product ((Item.firsts items).map fun first => distinct first.prices)

/-- A choice lists the prices of an assignment. -/
theorem mem_choices {items : List Item} {choice : List Int} :
    choice ∈ choices items ↔
      ∃ f, Assigns items f ∧ choice = (Item.firsts items).map fun first => f first.id := by
  have hnd := Item.nodup_map_id_firsts items
  simp only [assigns_iff, choices, mem_product]
  generalize Item.firsts items = firsts at hnd
  constructor
  · intro h
    induction firsts generalizing choice with
    | nil =>
        cases h
        exact ⟨id, by simp, rfl⟩
    | cons first firsts ih =>
        obtain ⟨price, rest, hprice, hrest, rfl⟩ := List.forall₂_cons_right_iff.mp h
        obtain ⟨hid, hnd'⟩ := List.nodup_cons.mp hnd
        obtain ⟨f, hf, rfl⟩ := ih hnd' hrest
        -- The ids differ, so the choice for the first item can be laid over `f`.
        have hother : ∀ other ∈ firsts, other.id ≠ first.id := fun other hother heq =>
          hid (heq ▸ List.mem_map_of_mem hother)
        refine ⟨fun id => if id = first.id then price else f id, ?_, ?_⟩
        · intro other hmem
          rcases List.mem_cons.mp hmem with rfl | hmem
          · simpa using hprice
          · simpa [hother other hmem] using hf other hmem
        · simp only [List.map_cons, if_true, List.cons.injEq, true_and]
          exact List.map_congr_left fun other hmem => by simp [hother other hmem]
  · rintro ⟨f, hf, rfl⟩
    rw [List.forall₂_map_left_iff, List.forall₂_map_right_iff, List.forall₂_same]
    exact fun first hfirst => mem_distinct.mpr (hf first hfirst)

/-- The texts of the choices. -/
def candidates (items : List Item) : List String :=
  (choices items).map fun choice =>
    candidate items (Item.firsts items) (choice.map Text.writeInteger)

theorem candidate_choice (items : List Item) (f : Int → Int) :
    candidate items (Item.firsts items)
      (((Item.firsts items).map fun first => f first.id).map Text.writeInteger)
        = candidateOf items f := by
  rw [List.map_map]
  exact candidate_eq items f

theorem mem_candidates {items : List Item} {text : String} :
    text ∈ candidates items ↔ ∃ f, Assigns items f ∧ text = candidateOf items f := by
  simp only [candidates, List.mem_map, mem_choices]
  constructor
  · rintro ⟨_, ⟨f, hf, rfl⟩, rfl⟩
    exact ⟨f, hf, candidate_choice items f⟩
  · rintro ⟨f, hf, rfl⟩
    exact ⟨_, ⟨f, hf, rfl⟩, candidate_choice items f⟩

theorem positions_eq (items : List Item) (f : Int → Int) :
    positions items f
      = (Item.firsts items).map fun first => first.prices.idxOf (f first.id) := by
  rw [positions, ← distinct_eq_eraseDups, ← Item.map_id_firsts, List.map_map]
  exact List.map_congr_left fun first hfirst => by simp [pricesOf_first hfirst]

/-- Candidates stand in the lexicographic order of the positions of their prices. -/
theorem candidates_pairwise {items : List Item} (hne : items ≠ []) :
    (candidates items).Pairwise fun s t => ∀ f g, Assigns items f → Assigns items g →
      s = candidateOf items f → t = candidateOf items g →
      positions items f < positions items g := by
  have hlex := product_pairwise (fun (first : Item) price => first.prices.idxOf price)
    fun first (_ : first ∈ Item.firsts items) => distinct_pairwise first.prices
  refine List.pairwise_map.mpr (hlex.imp_of_mem fun {c d} hc hd hlt f g _ _ hs ht => ?_)
  obtain ⟨f', -, rfl⟩ := mem_choices.mp hc
  obtain ⟨g', -, rfl⟩ := mem_choices.mp hd
  rw [candidate_choice] at hs ht
  rw [← map_firsts_congr (candidateOf_injective hne hs.symm),
    ← map_firsts_congr (candidateOf_injective hne ht.symm)] at hlt
  simpa [positions_eq, List.zipWith_map_right, List.zipWith_self] using hlt

theorem nodup_candidates {items : List Item} (hne : items ≠ []) : (candidates items).Nodup := by
  refine (candidates_pairwise hne).imp_of_mem fun {s t} hs _ hlt heq => ?_
  obtain ⟨f, hf, rfl⟩ := mem_candidates.mp hs
  exact List.lt_irrefl _ (hlt f f hf hf rfl heq.symm)

theorem length_candidates (items : List Item) :
    (candidates items).length
      = ∏ id ∈ (items.map Item.id).toFinset, (pricesOf items id).toFinset.card := by
  have hids : (items.map Item.id).toFinset = ((Item.firsts items).map Item.id).toFinset := by
    rw [Item.map_id_firsts]
    ext id
    simp
  rw [hids, List.prod_toFinset _ (Item.nodup_map_id_firsts items), candidates, List.length_map,
    choices, length_product, List.map_map, List.map_map]
  congr 1
  refine List.map_congr_left fun first hfirst => ?_
  rw [Function.comp_apply, Function.comp_apply, length_distinct, pricesOf_first hfirst]

/-! ## What the search gives -/

theorem combinations_eq {items : List Item} (hne : items ≠ [])
    (hprices : ∀ item ∈ items, pricesOf items item.id ≠ []) :
    combinations items = .ok (candidates items) := by
  have hfind : (Item.firsts items).find? (·.prices.isEmpty) = none := by
    refine List.find?_eq_none.mpr fun first hfirst => ?_
    have hmem := List.mem_of_find?_eq_some (Item.mem_firsts_iff.mp hfirst)
    have := hprices first hmem
    rw [pricesOf_first hfirst] at this
    simpa using this
  have hwrite : Function.Injective Text.writeInteger := fun _ _ => Text.writeInteger_injective
  have hfound : expand ((Item.firsts items).map fun item => item.prices.map Text.writeInteger) [] []
      = (choices items).map (List.map Text.writeInteger) := by
    rw [expand_nil, distinct_product, List.map_map, choices, ← product_map, List.map_map]
    congr 1
    exact List.map_congr_left fun first _ => distinct_map hwrite first.prices
  have hempty : items.isEmpty = false := by simpa using hne
  simp only [combinations, hempty, if_neg Bool.false_ne_true, hfind, hfound, List.map_map]
  congr 1
  exact distinct_of_nodup (nodup_candidates hne)

/-- There are no candidates exactly if some item has no price that counts for its id. -/
theorem combinations_eq_error_iff {items : List Item} :
    (∃ cause, combinations items = .error (.resolution cause))
      ↔ ∃ item ∈ items, pricesOf items item.id = [] := by
  constructor
  · rintro ⟨cause, h⟩
    by_contra hall
    simp only [not_exists, not_and] at hall
    cases items with
    | nil => simp [combinations] at h
    | cons item rest =>
        rw [combinations_eq (by simp) hall] at h
        cases h
  · rintro ⟨item, hitem, hnone⟩
    obtain ⟨first, hfirst, hid⟩ := Item.exists_first hitem
    rw [← hid, pricesOf_first hfirst] at hnone
    have hempty : items.isEmpty = false := by
      simpa using List.ne_nil_of_mem hitem
    cases hfind : (Item.firsts items).find? (·.prices.isEmpty) with
    | some found =>
        refine ⟨.noPrice found.id found.description, ?_⟩
        simp only [combinations, hempty, if_neg Bool.false_ne_true, hfind]
    | none =>
        have := List.find?_eq_none.mp hfind first hfirst
        simp [hnone] at this

/-- **Candidates are exactly the assignments.** There are none only if the first item of some id has
no price. Otherwise the texts are those of all assignments, each once, in the order of the prices
with the first id varying slowest; at every place of a text stands the price of its item; and there
are as many texts as there are ways to choose a different price for each id. -/
theorem combinations_exact {items : List Item} (hne : items ≠ []) :
    ((∃ cause, combinations items = .error (.resolution cause))
        ↔ ∃ item ∈ items, pricesOf items item.id = [])
      ∧ ((∀ item ∈ items, pricesOf items item.id ≠ []) →
        ∃ texts, combinations items = .ok texts
          ∧ (∀ text, text ∈ texts ↔ ∃ f, Assigns items f ∧ text = candidateOf items f)
          ∧ texts.Nodup
          ∧ texts.Pairwise (fun s t => ∀ f g, Assigns items f → Assigns items g →
              s = candidateOf items f → t = candidateOf items g →
              positions items f < positions items g)
          ∧ (∀ text ∈ texts, ∃ f, Assigns items f
              ∧ Text.splitOn ',' text = items.map fun item => toString (f item.id))
          ∧ texts.length = ∏ id ∈ (items.map Item.id).toFinset,
              (pricesOf items id).toFinset.card) := by
  refine ⟨combinations_eq_error_iff, fun hprices => ⟨_, combinations_eq hne hprices,
    fun _ => mem_candidates, nodup_candidates hne, candidates_pairwise hne, fun text htext => ?_,
    length_candidates items⟩⟩
  obtain ⟨f, hf, rfl⟩ := mem_candidates.mp htext
  exact ⟨f, hf, splitOn_candidateOf hne f⟩

/-- An item that occurs twice with different prices, a price that is listed twice, and prices that
are ids of items. -/
theorem combinations_exact_colliding :
    let items : List Item :=
      [{ id := 11, prices := [12, 5, 12] }, { id := 12, prices := [5, 11] },
        { id := 11, prices := [9] }]
    items ≠ [] ∧ ∃ texts, combinations items = .ok texts ∧ texts.length = 4
      ∧ texts.Nodup ∧ "12,11,12" ∈ texts := by
  intro items
  have hne : items ≠ [] := by simp [items]
  obtain ⟨-, hall⟩ := combinations_exact hne
  obtain ⟨texts, hok, hmem, hnodup, -, -, hlen⟩ := hall (by decide)
  refine ⟨hne, texts, hok, hlen.trans (by decide), hnodup, ?_⟩
  exact (hmem _).mpr ⟨fun id => if id = 11 then 12 else 11, by unfold Assigns; decide, by decide⟩

end Provision.Price
