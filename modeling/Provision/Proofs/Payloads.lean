import Mathlib.Data.List.Perm.Subperm
import Provision.Rest.Client

/-!
# What a payload tells

An order is sent as an object. Its fields have keys that differ, so nothing is
overwritten, and every part of the order stands under a key of its own; what is
left out is left out under one condition only. So the payload tells the order
apart from any other, up to what an order does not mean to tell: an empty global
identifier is none, and a target with an id has no other name
(`payload_eq_iff`).

Two payloads can be equal as they are written, or equal as values, where the
order of keys does not count. That is the same for payloads. The values of equal
objects agree key by key (`Value.rel_lookup?_of_same`).
-/

namespace Provision

namespace Value

/-! ## Equal values -/

theorem sameEntries_iff {xs ys : List Value} :
    sameEntries xs ys = true ↔ List.Forall₂ (fun x y => same x y = true) xs ys := by
  induction xs generalizing ys with
  | nil => cases ys <;> simp [sameEntries]
  | cons x xs ih => cases ys <;> simp [sameEntries, ih]

theorem same_list_iff {xs ys : List Value} :
    same (.list xs) (.list ys) = true ↔ List.Forall₂ (fun x y => same x y = true) xs ys := by
  rw [same, sameEntries_iff]

@[simp] theorem same_int (m n : Int) : same (.int m) (.int n) = (m == n) := by
  simp [same, sameNumber?]

@[simp] theorem same_bool (a b : Bool) : same (.bool a) (.bool b) = (a == b) := by
  simp [same, sameNumber?]

theorem same_ofText?_iff {s t : Option String} : same (ofText? s) (ofText? t) = true ↔ s = t := by
  cases s <;> cases t <;> simp [ofText?, same, sameNumber?]

/-! ## Fields of equal objects -/

variable {key : String} {v : Value} {fs gs : List (String × Value)}

theorem mem_of_lookup?_eq_some (h : lookup? key fs = some v) : (key, v) ∈ fs := by
  induction fs with
  | nil => cases h
  | cons f rest ih =>
      rw [lookup?] at h
      by_cases hkey : (f.1 == key) = true
      · rw [if_pos hkey, Option.some.injEq] at h
        rw [← beq_iff_eq.mp hkey, ← h]
        exact List.mem_cons_self
      · rw [if_neg hkey] at h
        exact List.mem_cons_of_mem f (ih h)

theorem lookup?_eq_none_iff : lookup? key fs = none ↔ key ∉ fs.map Prod.fst := by
  induction fs with
  | nil => simp [lookup?]
  | cons f rest ih => by_cases hkey : f.1 = key <;> simp [lookup?, hkey, ih, eq_comm (a := key)]

theorem lookup?_of_mem (hkeys : (fs.map Prod.fst).Nodup) (h : (key, v) ∈ fs) :
    lookup? key fs = some v := by
  induction fs with
  | nil => cases h
  | cons f rest ih =>
      rw [List.map_cons, List.nodup_cons] at hkeys
      rcases List.mem_cons.mp h with rfl | hrest
      · simp [lookup?]
      · have hkey : f.1 ≠ key := fun heq => hkeys.1 (heq ▸ List.mem_map_of_mem hrest)
        simpa [lookup?, hkey] using ih hkeys.2 hrest

theorem lookup?_append (key : String) (fs gs : List (String × Value)) :
    lookup? key (fs ++ gs) = (lookup? key fs).or (lookup? key gs) := by
  induction fs with
  | nil => rfl
  | cons f rest ih => by_cases hkey : f.1 = key <;> simp [lookup?, hkey, ih]

theorem sameFields_iff : sameFields fs gs = true
    ↔ ∀ f ∈ fs, ∃ w, lookup? f.1 gs = some w ∧ same f.2 w = true := by
  induction fs with
  | nil => simp [sameFields]
  | cons f rest ih =>
      rw [sameFields, Bool.and_eq_true, ih, List.forall_mem_cons]
      cases lookup? f.1 gs <;> simp

theorem same_object_iff : same (.object fs) (.object gs) = true
    ↔ fs.length = gs.length ∧ ∀ f ∈ fs, ∃ w, lookup? f.1 gs = some w ∧ same f.2 w = true := by
  rw [same, Bool.and_eq_true, beq_iff_eq, sameFields_iff]

/-- Equal objects agree key by key. -/
theorem rel_lookup?_of_same (hkeys : (fs.map Prod.fst).Nodup)
    (h : same (.object fs) (.object gs) = true) (key : String) :
    Option.Rel (fun v w => same v w = true) (lookup? key fs) (lookup? key gs) := by
  obtain ⟨hlength, hfields⟩ := same_object_iff.mp h
  cases hfs : lookup? key fs with
  | some v =>
      obtain ⟨w, hgs, hsame⟩ := hfields _ (mem_of_lookup?_eq_some hfs)
      rw [hgs]
      exact .some hsame
  | none =>
      have hgs : lookup? key gs = none := by
        rw [lookup?_eq_none_iff] at hfs ⊢
        -- With this key the second object would have more keys than the first.
        intro hmem
        have hsub : key :: fs.map Prod.fst ⊆ gs.map Prod.fst := by
          refine List.cons_subset.mpr ⟨hmem, fun k hk => ?_⟩
          obtain ⟨f, hf, rfl⟩ := List.mem_map.mp hk
          obtain ⟨w, hw, -⟩ := hfields f hf
          exact List.mem_map.mpr ⟨_, mem_of_lookup?_eq_some hw, rfl⟩
        have hle := ((List.nodup_cons.mpr ⟨hfs, hkeys⟩).subperm hsub).length_le
        rw [List.length_cons, List.length_map, List.length_map] at hle
        omega
      rw [hgs]
      exact .none

theorem same_object_self (hkeys : (fs.map Prod.fst).Nodup)
    (h : ∀ f ∈ fs, same f.2 f.2 = true) : same (.object fs) (.object fs) = true :=
  same_object_iff.mpr ⟨rfl, fun f hf => ⟨f.2, lookup?_of_mem hkeys hf, h f hf⟩⟩

end Value

/-! ## Orders that say the same -/

/-- Two targets that go by the same id, or both by hostname and domain, which are then the same. -/
def OrderTarget.Matches (t u : OrderTarget) : Prop :=
  (∃ id, t.id = some id ∧ u.id = some id)
    ∨ t.id = none ∧ u.id = none ∧ t.hostname = u.hostname ∧ t.domain = u.domain

theorem OrderTarget.Matches.refl (t : OrderTarget) : t.Matches t := by
  cases h : t.id with
  | none => exact .inr ⟨h, h, rfl, rfl⟩
  | some id => exact .inl ⟨id, h, h⟩

/-- Two orders that say the same. -/
structure Order.Agrees (o p : Order) : Prop where
  family : o.family = p.family
  location : o.location = p.location
  quantity : o.quantity = p.quantity
  hourly : o.hourly = p.hourly
  kind : o.kind = p.kind
  prices : o.prices = p.prices
  imageTemplate : o.imageTemplate = p.imageTemplate
  imageTemplateGlobal : o.imageTemplateGlobal.getD "" = p.imageTemplateGlobal.getD ""
  scripts : o.scripts = p.scripts
  targets : List.Forall₂ OrderTarget.Matches o.targets p.targets

namespace Rest

open Value (lookup? same)

/-! ## Parts of a payload -/

theorem same_targetPayload_iff {t u : OrderTarget} :
    same (targetPayload t) (targetPayload u) = true ↔ t.Matches u := by
  unfold targetPayload OrderTarget.Matches
  cases t.id with
  | none => cases u.id <;> simp [Value.same_object_iff, lookup?]
  | some id =>
      cases u.id with
      | none => simp [Value.same_object_iff, lookup?]
      | some other => simpa [Value.same_object_iff, lookup?] using eq_comm

theorem targetPayload_eq_of_matches {t u : OrderTarget} (h : t.Matches u) :
    targetPayload t = targetPayload u := by
  unfold targetPayload
  rcases h with ⟨id, ht, hu⟩ | ⟨ht, hu, hhostname, hdomain⟩
  · rw [ht, hu]
  · rw [ht, hu, hhostname, hdomain]

def pricesPayload (o : Order) : Value :=
  .list (o.prices.map fun price => .object [("id", .int price)])

def targetsPayload (o : Order) : Value := .list (o.targets.map targetPayload)

def scriptsPayload (o : Order) : Value := .list (o.scripts.map Value.text)

theorem same_pricesPayload_iff {o p : Order} :
    same (pricesPayload o) (pricesPayload p) = true ↔ o.prices = p.prices := by
  rw [pricesPayload, pricesPayload, Value.same_list_iff, List.forall₂_map_left_iff,
    List.forall₂_map_right_iff]
  simp [Value.same_object_iff, lookup?, List.forall₂_eq_eq_eq]

theorem same_targetsPayload_iff {o p : Order} : same (targetsPayload o) (targetsPayload p) = true
    ↔ List.Forall₂ OrderTarget.Matches o.targets p.targets := by
  rw [targetsPayload, targetsPayload, Value.same_list_iff, List.forall₂_map_left_iff,
    List.forall₂_map_right_iff]
  simp only [same_targetPayload_iff]

theorem same_scriptsPayload_iff {o p : Order} :
    same (scriptsPayload o) (scriptsPayload p) = true ↔ o.scripts = p.scripts := by
  rw [scriptsPayload, scriptsPayload, Value.same_list_iff, List.forall₂_map_left_iff,
    List.forall₂_map_right_iff]
  simp [List.forall₂_eq_eq_eq]

/-! ## The fields of a payload -/

/-- A field that may be left out. -/
def optional (key : String) (v : Option Value) : List (String × Value) := (v.map (key, ·)).toList

theorem lookup?_optional (key other : String) (v : Option Value) :
    lookup? other (optional key v) = if key = other then v else none := by
  cases v <;> by_cases hkey : key = other <;> simp [optional, lookup?, hkey]

theorem keys_optional_sublist (key : String) (v : Option Value) :
    ((optional key v).map Prod.fst).Sublist [key] := by
  cases v <;> simp [optional]

/-- Two optional fields are equal just if what they are made of is. -/
theorem rel_map_iff {α : Type} {f : α → Value} (hf : ∀ x y, same (f x) (f y) = true ↔ x = y)
    {a b : Option α} :
    Option.Rel (fun v w => same v w = true) (a.map f) (b.map f) ↔ a = b := by
  cases a <;> cases b <;> simp [hf]

theorem filter_ne_empty_eq_iff {s t : Option String} :
    s.filter (· != "") = t.filter (· != "") ↔ s.getD "" = t.getD "" := by
  have hfilter : ∀ u : Option String,
      u.filter (· != "") = if u.getD "" = "" then none else some (u.getD "") := by
    intro u
    cases u with
    | none => rfl
    | some id => by_cases hid : id = "" <;> simp [Option.filter, hid]
  rw [hfilter, hfilter]
  by_cases hs : s.getD "" = "" <;> by_cases ht : t.getD "" = "" <;> grind

/-- The fields that describe an order. -/
def orderFields (o : Order) : List (String × Value) :=
  [("complexType", .text "SoftLayer_Container_Product_Order"),
    ("packageId", .int o.family),
    ("location", .ofText? o.location),
    ("quantity", .int o.quantity),
    ("useHourlyPricing", .bool o.hourly),
    ("prices", pricesPayload o),
    (nodesKey o.kind, targetsPayload o)]
    ++ (optional "imageTemplateId" (o.imageTemplate.map Value.int)
    ++ (optional "imageTemplateGlobalIdentifier"
      ((o.imageTemplateGlobal.filter (· != "")).map Value.text)
    ++ optional "provisionScripts" (if o.scripts.isEmpty then none else some (scriptsPayload o))))

theorem orderPayload_eq (o : Order) :
    orderPayload o = .object [("parameters", .list [.object (orderFields o)])] := by
  have hoptional : optionalPayload o = optional "imageTemplateId" (o.imageTemplate.map Value.int)
      ++ (optional "imageTemplateGlobalIdentifier"
        ((o.imageTemplateGlobal.filter (· != "")).map Value.text)
      ++ optional "provisionScripts"
        (if o.scripts.isEmpty then none else some (scriptsPayload o))) := by
    rw [optionalPayload, List.append_assoc]
    congr 1
    · cases o.imageTemplate <;> rfl
    congr 1
    · cases o.imageTemplateGlobal with
      | none => rfl
      | some id => by_cases hid : id = "" <;> simp [optional, Option.filter, hid]
    · cases hscripts : o.scripts <;> simp [optional, scriptsPayload, hscripts]
  rw [orderPayload, hoptional]
  rfl

theorem nodup_keys_orderFields (o : Order) : ((orderFields o).map Prod.fst).Nodup := by
  have hkeys : ((orderFields o).map Prod.fst).Sublist
      (["complexType", "packageId", "location", "quantity", "useHourlyPricing", "prices",
        nodesKey o.kind] ++ (["imageTemplateId"] ++ (["imageTemplateGlobalIdentifier"]
          ++ ["provisionScripts"]))) := by
    rw [orderFields, List.map_append, List.map_append, List.map_append]
    exact (List.Sublist.refl _).append ((keys_optional_sublist _ _).append
      ((keys_optional_sublist _ _).append (keys_optional_sublist _ _)))
  refine hkeys.nodup ?_
  cases o.kind <;> decide

/-- The targets stand under the key of the order's kind, and of no other. -/
theorem lookup?_nodesKey (kind : NodeKind) (o : Order) :
    lookup? (nodesKey kind) (orderFields o)
      = if o.kind = kind then some (targetsPayload o) else none := by
  cases hkind : o.kind <;> cases kind
    <;> simp [orderFields, nodesKey, hkind, lookup?, lookup?_optional, Value.lookup?_append]

theorem lookup?_optionals (o : Order) :
    lookup? "imageTemplateId" (orderFields o) = o.imageTemplate.map Value.int
      ∧ lookup? "imageTemplateGlobalIdentifier" (orderFields o)
        = (o.imageTemplateGlobal.filter (· != "")).map Value.text
      ∧ lookup? "provisionScripts" (orderFields o)
        = if o.scripts.isEmpty then none else some (scriptsPayload o) := by
  cases hkind : o.kind
    <;> simp [orderFields, nodesKey, hkind, lookup?, lookup?_optional, Value.lookup?_append]

/-- The fields of a payload are equal to themselves: there are no doubles in it. -/
theorem same_orderFields_self (o : Order) : ∀ f ∈ orderFields o, same f.2 f.2 = true := by
  have hoptional : ∀ key (v : Option Value), (∀ w, v = some w → same w w = true) →
      ∀ f ∈ optional key v, same f.2 f.2 = true := by
    intro key v hv
    cases v with
    | none => exact fun _ => nofun
    | some w => exact List.forall_mem_singleton.mpr (hv w rfl)
  have htargets : same (targetsPayload o) (targetsPayload o) = true :=
    same_targetsPayload_iff.mpr (List.forall₂_same.mpr fun t _ => .refl t)
  rw [orderFields]
  refine List.forall_mem_append.mpr ⟨?_, List.forall_mem_append.mpr ⟨hoptional _ _ ?_,
    List.forall_mem_append.mpr ⟨hoptional _ _ ?_, hoptional _ _ ?_⟩⟩⟩
  · simp [Value.same_ofText?_iff, same_pricesPayload_iff, htargets]
  · rintro w hw
    obtain ⟨id, -, rfl⟩ := Option.map_eq_some_iff.mp hw
    simp
  · rintro w hw
    obtain ⟨id, -, rfl⟩ := Option.map_eq_some_iff.mp hw
    simp
  · rintro w hw
    rw [Option.ite_none_left_eq_some, Option.some.injEq] at hw
    rw [← hw.2, same_scriptsPayload_iff]

/-! ## The payload as a whole -/

theorem same_orderPayload (o p : Order) : same (orderPayload o) (orderPayload p)
    = same (.object (orderFields o)) (.object (orderFields p)) := by
  rw [orderPayload_eq, orderPayload_eq, Bool.eq_iff_iff, Value.same_object_iff]
  simp [lookup?, Value.same_list_iff]

theorem agrees_of_same {o p : Order}
    (h : same (.object (orderFields o)) (.object (orderFields p)) = true) : o.Agrees p := by
  have hfield := Value.rel_lookup?_of_same (nodup_keys_orderFields o) h
  have hkind : p.kind = o.kind := by
    by_contra hne
    have hnodes := hfield (nodesKey o.kind)
    rw [lookup?_nodesKey, lookup?_nodesKey, if_pos rfl, if_neg hne] at hnodes
    cases hnodes
  obtain ⟨himage, hglobal, hscripts⟩ := lookup?_optionals o
  obtain ⟨himage', hglobal', hscripts'⟩ := lookup?_optionals p
  constructor
  case family => simpa [orderFields, lookup?] using hfield "packageId"
  case location => simpa [orderFields, lookup?, Value.same_ofText?_iff] using hfield "location"
  case quantity => simpa [orderFields, lookup?] using hfield "quantity"
  case hourly => simpa [orderFields, lookup?] using hfield "useHourlyPricing"
  case prices => simpa [orderFields, lookup?, same_pricesPayload_iff] using hfield "prices"
  case kind => exact hkind.symm
  case targets =>
    have hnodes := hfield (nodesKey o.kind)
    rwa [lookup?_nodesKey, lookup?_nodesKey, if_pos rfl, if_pos hkind, Option.rel_some_some,
      same_targetsPayload_iff] at hnodes
  case imageTemplate =>
    have hsame := hfield "imageTemplateId"
    rw [himage, himage'] at hsame
    exact (rel_map_iff (by simp)).mp hsame
  case imageTemplateGlobal =>
    have hsame := hfield "imageTemplateGlobalIdentifier"
    rw [hglobal, hglobal'] at hsame
    exact filter_ne_empty_eq_iff.mp ((rel_map_iff (by simp)).mp hsame)
  case scripts =>
    have hsame := hfield "provisionScripts"
    rw [hscripts, hscripts'] at hsame
    by_cases ho : o.scripts.isEmpty = true <;> by_cases hp : p.scripts.isEmpty = true
    · rw [List.isEmpty_iff.mp ho, List.isEmpty_iff.mp hp]
    · rw [if_pos ho, if_neg hp] at hsame
      cases hsame
    · rw [if_neg ho, if_pos hp] at hsame
      cases hsame
    · rwa [if_neg ho, if_neg hp, Option.rel_some_some, same_scriptsPayload_iff] at hsame

theorem orderFields_eq_of_agrees {o p : Order} (h : o.Agrees p) :
    orderFields o = orderFields p := by
  have htargets : targetsPayload o = targetsPayload p := by
    have hmap : o.targets.map targetPayload = p.targets.map targetPayload := by
      rw [← List.forall₂_eq_eq_eq, List.forall₂_map_left_iff, List.forall₂_map_right_iff]
      exact h.targets.imp fun _ _ => targetPayload_eq_of_matches
    rw [targetsPayload, hmap, targetsPayload]
  have hglobal : o.imageTemplateGlobal.filter (· != "") = p.imageTemplateGlobal.filter (· != "") :=
    filter_ne_empty_eq_iff.mpr h.imageTemplateGlobal
  have hprices : pricesPayload o = pricesPayload p := by rw [pricesPayload, h.prices, pricesPayload]
  have hscripts : scriptsPayload o = scriptsPayload p := by
    rw [scriptsPayload, h.scripts, scriptsPayload]
  rw [orderFields, orderFields, h.family, h.location, h.quantity, h.hourly, h.kind,
    h.imageTemplate, h.scripts, htargets, hglobal, hprices, hscripts]

/-- **The payload tells the order.** Two payloads are equal, as they are written or as values, just
if the orders say the same. -/
theorem payload_eq_iff (o p : Order) :
    (orderPayload o = orderPayload p ↔ o.Agrees p)
      ∧ (same (orderPayload o) (orderPayload p) = true ↔ o.Agrees p) := by
  have hequal : o.Agrees p → orderPayload o = orderPayload p := by
    intro h
    rw [orderPayload_eq, orderPayload_eq, orderFields_eq_of_agrees h]
  have hself : same (orderPayload o) (orderPayload o) = true := by
    rw [same_orderPayload]
    exact Value.same_object_self (nodup_keys_orderFields o) (same_orderFields_self o)
  have hagrees : same (orderPayload o) (orderPayload p) = true → o.Agrees p := by
    rw [same_orderPayload]
    exact agrees_of_same
  exact ⟨⟨fun h => hagrees (h ▸ hself), hequal⟩, hagrees, fun h => hequal h ▸ hself⟩

end Rest

end Provision
