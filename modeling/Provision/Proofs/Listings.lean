import Provision.Proofs.Catalogs
import Provision.Proofs.Operations

/-!
# Listings and what is kept of them

A catalog is asked for only while none is kept, and the first listing that is
answered is kept. So as long as nothing is dropped, the catalog kept and the
answers to the calls for it go together (`Filled`): calls fail until one
succeeds, and after that there are no more.

To look up a catalog is one such step (`fetch_looks_up`). The catalogs of other
families have no part in it, and dropping one spares the others.
-/

namespace Provision

variable {τ : Type}

/-! ## The cache -/

namespace CatalogCache

variable (cache : CatalogCache) {family other : Int} {session : String}

theorem find?_add_other (h : other ≠ family) (session' : String) (catalog : Catalog) :
    (cache.add other session' catalog).2.find? family session = cache.find? family session := by
  unfold find? add
  rw [List.find?_append, List.find?_singleton]
  simp [h]

theorem find?_drop {dropped : Option Int} (h : dropped = none ∨ dropped = some family) :
    (cache.drop dropped).2.find? family session = none := by
  refine List.find?_eq_none.mpr fun entry hentry => ?_
  have hspared := (List.mem_filter.mp hentry).2
  rcases h with rfl | rfl
  · cases hspared
  · simp_all [concerns]

theorem find?_drop_other (h : other ≠ family) :
    (cache.drop (some other)).2.find? family session = cache.find? family session := by
  unfold find? drop
  rw [List.find?_filter]
  congr 1
  funext entry
  by_cases hfamily : entry.family = family
  · have hspared : concerns (some other) entry = false := by simp [concerns, hfamily, h.symm]
    rw [hspared]
    simp only [Bool.not_false, true_and, Bool.decide_eq_true]
  · simp [hfamily]

end CatalogCache

/-- The catalog that is kept for a family. -/
def World.catalog? (w : World τ) (family : Int) (session : String) : Option Catalog :=
  (w.cache.find? family session).map CachedCatalog.catalog

/-! ## Calls for a catalog -/

/-- What a call for a catalog is answered with. -/
abbrev CatalogReply (τ : Type) : Type := Except (Failure τ) (Option (List Item))

/-- The family that a call is about, if it asks for a catalog or comes with an order. -/
def Call.family? : Call → Option Int
  | listCatalogItems family => some family
  | verifyOrder order | placeOrder order => some order.family
  | _ => none

theorem Call.family?_of_isPlain {c : Call} (h : c.isPlain = true) : c.family? = none := by
  cases c <;> first | rfl | cases h

/-- The order that a call comes with, to be verified or to be placed. -/
def Call.built? : Call → Option Order
  | verifyOrder order | placeOrder order => some order
  | _ => none

theorem Call.family?_of_built {c : Call} {order : Order} (h : c.built? = some order) :
    c.family? = some order.family := by
  cases c <;> cases h <;> rfl

/-- The answer to a call for the catalog of a family. -/
def Exchange.listing? (family : Int) : Exchange τ → Option (CatalogReply τ)
  | ⟨.listCatalogItems f, reply⟩ => if f = family then some reply else none
  | _ => none

theorem Exchange.listing?_of_built {x : Exchange τ} {order : Order} (h : x.call.built? = some order)
    (family : Int) : x.listing? family = none := by
  rcases x with ⟨c, reply⟩
  cases c <;> first | rfl | cases h

theorem Exchange.listing?_of_family {x : Exchange τ} {family : Int}
    (h : x.call.family? ≠ some family) : x.listing? family = none := by
  rcases x with ⟨c, reply⟩
  cases c with
  | listCatalogItems f => exact if_neg fun hsame => h (congrArg some hsame)
  | _ => rfl

/-- The answers to the calls for the catalog of a family. -/
def listings (family : Int) (made : List (Exchange τ)) : List (CatalogReply τ) :=
  made.filterMap (·.listing? family)

@[simp] theorem listings_append (family : Int) (made made' : List (Exchange τ)) :
    listings family (made ++ made') = listings family made ++ listings family made' :=
  List.filterMap_append

theorem listings_eq_nil {family : Int} {made : List (Exchange τ)}
    (h : ∀ x ∈ made, x.listing? family = none) : listings family made = [] :=
  List.filterMap_eq_nil_iff.mpr h

theorem listings_single (family : Int) (reply : CatalogReply τ) :
    listings family [⟨.listCatalogItems family, reply⟩] = [reply] := by
  simp [listings, Exchange.listing?]

/-- Nothing was listed: the call failed, or it was answered with nothing. -/
def Unlisted (reply : CatalogReply τ) : Prop := ∀ items, reply ≠ .ok (some items)

/-- From the catalog kept before, by the answers to the calls for it, to the catalog kept
afterwards. A catalog that is kept is not asked for. Otherwise it is asked for until something is
listed, and then this is the catalog. -/
inductive Filled : Option Catalog → List (CatalogReply τ) → Option Catalog → Prop
  | held (catalog : Catalog) : Filled (some catalog) [] (some catalog)
  | missing {replies : List (CatalogReply τ)} (unlisted : ∀ reply ∈ replies, Unlisted reply) :
      Filled none replies none
  | listed {replies : List (CatalogReply τ)} (unlisted : ∀ reply ∈ replies, Unlisted reply)
      (items : List Item) : Filled none (replies ++ [.ok (some items)]) (some (.ofItems items))

namespace Filled

theorem refl (catalog : Option Catalog) : Filled (τ := τ) catalog [] catalog := by
  cases catalog with
  | none => exact .missing fun _ => nofun
  | some c => exact .held c

theorem trans {catalog catalog₁ catalog' : Option Catalog}
    {replies replies' : List (CatalogReply τ)} (h : Filled catalog replies catalog₁)
    (h' : Filled catalog₁ replies' catalog') :
    Filled catalog (replies ++ replies') catalog' := by
  cases h with
  | held c =>
      rw [List.nil_append]
      exact h'
  | missing unlisted =>
      cases h' with
      | missing unlisted' => exact .missing (List.forall_mem_append.mpr ⟨unlisted, unlisted'⟩)
      | listed unlisted' items =>
          rw [← List.append_assoc]
          exact .listed (List.forall_mem_append.mpr ⟨unlisted, unlisted'⟩) items
  | listed unlisted items =>
      cases h'
      rw [List.append_nil]
      exact .listed unlisted items

/-- What is kept stays. -/
theorem kept {c : Catalog} {replies : List (CatalogReply τ)} {catalog' : Option Catalog}
    (h : Filled (some c) replies catalog') : catalog' = some c := by
  cases h
  rfl

end Filled

/-! ## Looking up a catalog -/

namespace Run

/-- A catalog is looked up: it is at hand, or one call asks for it and what is listed is kept. -/
inductive LooksUp (family : Int) (session : String) : Post τ Catalog
  | held {w : World τ} {catalog} (kept : w.catalog? family session = some catalog) :
      LooksUp family session w [] (.ok catalog) w
  | listed {w : World τ} {items w'} (missing : w.cache.find? family session = none)
      (cache : w'.cache = (w.cache.add family session (.ofItems items)).2) :
      LooksUp family session w [⟨.listCatalogItems family, .ok (some items)⟩]
        (.ok (.ofItems items)) w'
  | failed {w : World τ} {reply e w'} (missing : w.cache.find? family session = none)
      (unlisted : Unlisted reply) (cache : w'.cache = w.cache) :
      LooksUp family session w [⟨.listCatalogItems family, reply⟩] (.error e) w'

theorem fetch_looks_up (family : Int) (session : String) :
    ((CatalogSource.cached family session).fetch : Run τ Catalog).Satisfies
      (LooksUp family session) := by
  intro w
  have hrun : (CatalogSource.cached family session).fetch w
      = (cachedCatalog family session (call (.listCatalogItems family)) >>= fun entry =>
          pure entry.catalog) w := rfl
  cases hfind : w.cache.find? family session with
  | some entry =>
      rw [hrun, bind_of_ok ((cachedCatalog_eq family session w).trans (by rw [hfind]))]
      refine ⟨[], rfl, .held ?_⟩
      unfold World.catalog?
      rw [hfind]
      rfl
  | none =>
      let begun : World τ :=
        { w with records := CatalogCache.loadingRecord family :: w.records }
      have hload : cachedCatalog family session (call (.listCatalogItems family)) w
          = (call (.listCatalogItems family) >>= fun items => do
              let catalog ← ofFault (Catalog.ofItems? items)
              log (CatalogCache.loadedRecord family catalog)
              let cache ← read (·.cache)
              update ({ · with cache := (cache.add family session catalog).2 })
              pure (cache.add family session catalog).1) begun := by
        rw [cachedCatalog_eq, hfind]
        rfl
      obtain ⟨reply, remote, hcalled⟩ := call_eq (.listCatalogItems family) begun
      rcases reply with e | _ | items
      · rw [hrun, bind_of_error (hload.trans (bind_of_error hcalled))]
        exact ⟨[_], rfl, .failed hfind (fun _ => nofun) rfl⟩
      · rw [hrun, bind_of_error (hload.trans (bind_of_ok hcalled))]
        exact ⟨[_], rfl, .failed hfind (fun _ => nofun) rfl⟩
      · rw [hrun, bind_of_ok (hload.trans (bind_of_ok hcalled))]
        exact ⟨[_], rfl, .listed hfind rfl⟩

namespace LooksUp

variable {family : Int} {session : String} {w w' : World τ} {made : List (Exchange τ)}
  {r : Except (Failure τ) Catalog}

theorem filled (h : LooksUp family session w made r w') :
    Filled (w.catalog? family session) (listings family made) (w'.catalog? family session) := by
  unfold World.catalog?
  cases h with
  | held kept => exact .refl _
  | listed missing cache =>
      rw [cache, CatalogCache.find?_add missing, missing, listings_single]
      have hnone : ∀ reply ∈ ([] : List (CatalogReply τ)), Unlisted reply := fun _ => nofun
      exact .listed hnone _
  | failed missing unlisted cache =>
      rw [cache, missing, listings_single]
      exact .missing (List.forall_mem_singleton.mpr unlisted)

/-- What was found is kept. -/
theorem kept (h : LooksUp family session w made r w') {catalog : Catalog}
    (hr : r = .ok catalog) : w'.catalog? family session = some catalog := by
  cases h with
  | held kept =>
      cases hr
      exact kept
  | listed missing cache =>
      cases hr
      unfold World.catalog?
      rw [cache, CatalogCache.find?_add missing]
      rfl
  | failed => cases hr

/-- Where no catalog is kept, it is asked for. -/
theorem asks (h : LooksUp family session w made r w') (hnone : w.catalog? family session = none) :
    listings family made ≠ [] := by
  cases h with
  | held kept =>
      rw [hnone] at kept
      cases kept
  | _ =>
      rw [listings_single]
      exact List.cons_ne_nil _ _

theorem unbuilt (h : LooksUp family session w made r w') : ∀ x ∈ made, x.call.built? = none := by
  cases h with
  | held => exact fun _ => nofun
  | _ => exact List.forall_mem_singleton.mpr rfl

end LooksUp

/-! ## Dropping catalogs -/

theorem dropCatalogs_drops (dropped : Option Int) :
    (dropCatalogs dropped : Run τ Nat).Satisfies fun w made _ w' =>
      made = [] ∧ w'.cache = (w.cache.drop dropped).2 := by
  intro w
  have hdropped : (dropCatalogs dropped w).2.exchanges = w.exchanges
      ∧ (dropCatalogs dropped w).2.cache = (w.cache.drop dropped).2 := by
    have hrun : dropCatalogs dropped w
        = (do
            if (w.cache.drop dropped).1 != 0 then
              log (CatalogCache.droppedRecord (w.cache.drop dropped).1)
            pure (w.cache.drop dropped).1) { w with cache := (w.cache.drop dropped).2 } := rfl
    rw [hrun]
    split <;> exact ⟨rfl, rfl⟩
  exact ⟨[], hdropped.1, rfl, hdropped.2⟩

end Run

end Provision
