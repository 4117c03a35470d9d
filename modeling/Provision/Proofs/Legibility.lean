import Provision.Rest.Client
import Provision.Proofs.Families

/-!
# Legible answers

An answer of the service is a value of any shape. Which shapes an operation can
read is said here without its reader: what may be missing or empty, what must be
an object or a list of objects, and which ids and capacities are numbers
(`Legible`). A reader succeeds on these values and on no others
(`succeeds_report`). So an operation that gets a response it cannot read fails
with a bare data fault, and otherwise it returns or fails as its provider does
(`settle_bare_iff`).
-/

namespace Provision

/-! ## Success -/

/-- A computation that gives a result. -/
def Succeeds {ε α : Type} (x : Except ε α) : Prop := ∃ a, x = .ok a

section Succeeds

variable {ε α β : Type}

@[simp] theorem succeeds_ok (a : α) : Succeeds (.ok a : Except ε α) := ⟨a, rfl⟩

@[simp] theorem succeeds_pure (a : α) : Succeeds (pure a : Except ε α) := ⟨a, rfl⟩

@[simp] theorem not_succeeds_error (e : ε) : ¬ Succeeds (.error e : Except ε α) := nofun

theorem succeeds_bind {x : Except ε α} {f : α → Except ε β} :
    Succeeds (x >>= f) ↔ ∃ a, x = .ok a ∧ Succeeds (f a) := by
  constructor
  · rintro ⟨b, hb⟩
    obtain ⟨a, ha, hf⟩ := ok_of_bind hb
    exact ⟨a, ha, b, hf⟩
  · rintro ⟨a, rfl, b, hb⟩
    exact ⟨b, hb⟩

/-- A computation whose second part succeeds or not whatever the first part gave. -/
theorem succeeds_then {x : Except ε α} {f : α → Except ε β} {P Q : Prop}
    (hx : Succeeds x ↔ P) (hf : ∀ a, Succeeds (f a) ↔ Q) : Succeeds (x >>= f) ↔ P ∧ Q := by
  rw [succeeds_bind, ← hx]
  simp only [hf]
  exact exists_and_right

theorem succeeds_then_pure {x : Except ε α} {f : α → β} :
    Succeeds (x >>= fun a => pure (f a)) ↔ Succeeds x := by
  rw [succeeds_then Iff.rfl fun a => iff_true_intro (succeeds_pure (f a)), and_true]

@[simp] theorem succeeds_map {x : Except ε α} {f : α → β} : Succeeds (x.map f) ↔ Succeeds x := by
  cases x <;> simp [Except.map]

theorem succeeds_mapM {f : α → Except ε β} {l : List α} :
    Succeeds (l.mapM f) ↔ ∀ a ∈ l, Succeeds (f a) := by
  induction l with
  | nil => simp
  | cons a rest ih =>
      rw [List.mapM_cons, List.forall_mem_cons, ← ih]
      exact succeeds_then Iff.rfl fun b => succeeds_then_pure

/-- A fold in which a step succeeds or not whatever was folded before. -/
theorem succeeds_foldlM {f : β → α → Except ε β} {P : α → Prop}
    (h : ∀ b a, Succeeds (f b a) ↔ P a) {l : List α} {b : β} :
    Succeeds (l.foldlM f b) ↔ ∀ a ∈ l, P a := by
  induction l generalizing b with
  | nil => simp
  | cons a rest ih =>
      rw [List.foldlM_cons, List.forall_mem_cons]
      exact succeeds_then (h b a) fun b => ih

end Succeeds

namespace Rest

/-! ## Shapes -/

abbrev Fields := List (String × Value)

/-- The value of a field, null if it is absent. -/
def entry (key : String) (fields : Fields) : Value := .ofOption (Value.lookup? key fields)

/-- An object whose fields fit. -/
def Object (P : Fields → Prop) (v : Value) : Prop := ∃ fields, v = .object fields ∧ P fields

def IsObject : Value → Prop := Object fun _ => True

/-- A list whose entries fit. -/
def Each (P : Value → Prop) (v : Value) : Prop :=
  ∃ entries, v = .list entries ∧ ∀ x ∈ entries, P x

def OrEmpty (P : Value → Prop) (v : Value) : Prop := v.truthy = true → P v

/-- What counts as an integer: a logical value, a finite number, or the text of an integer. -/
def Whole : Value → Prop
  | .bool _ | .int _ => True
  | .real x => (Decimal.truncate? x).isSome
  | .text s => (Text.readInteger? s).isSome
  | _ => False

/-- What counts as a capacity: nothing, a logical value, or a number in the range of doubles, also
as a text. -/
def Measured : Value → Prop
  | .null | .bool _ | .real _ => True
  | .int n => (Decimal.ofInt? n).isSome
  | .text s => s = "" ∨ (Decimal.read? s).isSome
  | _ => False

/-- The fields of something that has an id. -/
def Identified (fields : Fields) : Prop := ∃ id, Value.lookup? "id" fields = some id ∧ Whole id

/-- A category that carries no code. -/
def Uncoded : Value → Prop := Object fun fields => (entry "categoryCode" fields).truthy = false

/-- A price whose categories can be read. -/
def Categorized : Value → Prop :=
  Object fun price => OrEmpty (Each IsObject) (entry "categories" price)

@[mk_iff]
structure ItemFields (fields : Fields) : Prop where
  categories : OrEmpty (Each IsObject) (entry "categories" fields)
  /-- Only an item without codes of its own takes those of its prices. -/
  codes : OrEmpty (Each Uncoded) (entry "categories" fields) →
    OrEmpty (Each Categorized) (entry "prices" fields)
  id : Identified fields
  capacity : Measured (entry "capacity" fields)
  prices : OrEmpty (Each (Object Identified)) (entry "prices" fields)

@[mk_iff]
structure NodeFields (fields : Fields) : Prop where
  passwords : OrEmpty (Object fun system => OrEmpty (Each IsObject) (entry "passwords" system))
    (entry "operatingSystem" fields)
  id : Identified fields
  billingItem : OrEmpty IsObject (entry "billingItem" fields)
  datacenter : OrEmpty IsObject (entry "datacenter" fields)
  powerState : OrEmpty IsObject (entry "powerState" fields)

/-- Only nodes with an id count in a receipt. -/
def ReceiptFields (kind : NodeKind) (fields : Fields) : Prop :=
  OrEmpty
    (Object fun details => OrEmpty
      (Each (Object fun node => (entry "id" node).isNull = false → NodeFields node))
      (entry (nodesKey kind) details))
    (entry "orderDetails" fields)

def TransactionFields (fields : Fields) : Prop :=
  OrEmpty IsObject (entry "transactionStatus" fields)

/-- What an operation can read. Operations that only do something can read everything. -/
def Legible : Call → Value → Prop
  | .listCatalogItems _ => OrEmpty (Each (Object ItemFields))
  | .placeOrder order => OrEmpty (Object (ReceiptFields order.kind))
  | .listNodes _ => OrEmpty (Each (Object NodeFields))
  | .getNode _ _ => OrEmpty (Object NodeFields)
  | .getActiveTransaction _ _ => OrEmpty (Object TransactionFields)
  | .getBillingOrderStatus _ => OrEmpty IsObject
  | _ => fun _ => True

/-! ## Access to fields -/

variable {P : Fields → Prop} {Q : Value → Prop} {key : String} {fields : Fields} {v : Value}

@[simp] theorem object_object : Object P (.object fields) ↔ P fields := by simp [Object]

theorem Object.isObject (h : Object P v) : IsObject v := by
  obtain ⟨fields, rfl, -⟩ := h
  simp [IsObject]

@[simp] theorem field_object : field key (.object fields) = .ok (entry key fields) := rfl

theorem field_eq_ok_iff {w : Value} :
    field key v = .ok w ↔ Object (fun fields => entry key fields = w) v := by
  cases v <;> simp [field, Object, entry]

theorem succeeds_field : Succeeds (field key v) ↔ IsObject v := by
  cases v <;> simp [field, IsObject, Object]

theorem orObject_of_truthy (h : v.truthy = true) : orObject v = v := if_pos h

theorem orObject_of_empty (h : v.truthy = false) : orObject v = .object [] := by simp [orObject, h]

theorem isObject_orObject : IsObject (orObject v) ↔ OrEmpty IsObject v := by
  cases h : v.truthy with
  | false => simp [orObject_of_empty h, OrEmpty, h, IsObject]
  | true => simp [orObject_of_truthy h, OrEmpty, h]

/-- What consists of objects only is a list of them. -/
theorem parts_iff (hQ : ∀ x, Q x → IsObject x) :
    (∃ entries, parts v = .ok entries ∧ ∀ x ∈ entries, Q x) ↔ OrEmpty (Each Q) v := by
  have text {s : String} : ¬ Q (.text s) := fun h => by simpa [IsObject, Object] using hQ _ h
  cases h : v.truthy with
  | false => simp [parts, OrEmpty, h]
  | true =>
      rw [OrEmpty, imp_iff_right h]
      cases v with
      | list entries => simp [parts, h, Each]
      | text s =>
          have hsome : s.toList ≠ [] := by simpa [Value.truthy] using h
          simpa [parts, h, Each, text] using List.exists_mem_of_ne_nil _ hsome
      | object fields =>
          have hsome : fields ≠ [] := by simpa [Value.truthy] using h
          simpa [parts, h, Each, text] using List.exists_mem_of_ne_nil _ hsome
      | _ => simp [parts, h, Each]

theorem succeeds_parts {β : Type} {f : Value → Except DataFault β}
    (hf : ∀ x, Succeeds (f x) ↔ Q x) (hQ : ∀ x, Q x → IsObject x) :
    Succeeds (parts v >>= fun entries => entries.mapM f) ↔ OrEmpty (Each Q) v := by
  rw [succeeds_bind, ← parts_iff hQ]
  simp only [succeeds_mapM, hf]

/-- The parts of a field of a value that may be empty. -/
theorem succeeds_fieldParts {β : Type} {f : Value → Except DataFault β}
    (hf : ∀ x, Succeeds (f x) ↔ Q x) (hQ : ∀ x, Q x → IsObject x) :
    Succeeds (fieldParts key (orObject v) >>= fun entries => entries.mapM f)
      ↔ OrEmpty (Object fun fields => OrEmpty (Each Q) (entry key fields)) v := by
  have parts_null : parts (entry key []) = .ok [] := rfl
  cases h : v.truthy with
  | false => simp [fieldParts, orObject_of_empty h, OrEmpty, h, parts_null]
  | true =>
      rw [orObject_of_truthy h, OrEmpty, imp_iff_right h]
      cases v with
      | object fields => simpa [fieldParts] using succeeds_parts hf hQ
      | _ => simp [fieldParts, field, Object]

/-! ## Readers -/

theorem succeeds_toInteger : Succeeds (toInteger v) ↔ Whole v := by
  cases v with
  | text s => cases h : Text.readInteger? s <;> simp [toInteger, Whole, h]
  | real x =>
      rw [toInteger, Whole, Decimal.truncate?]
      cases Decimal.anatomy x <;> simp
  | _ => simp [toInteger, Whole]

theorem succeeds_capacityOf : Succeeds (capacityOf v) ↔ Measured v := by
  cases v with
  | int n => cases h : Decimal.ofInt? n <;> simp [capacityOf, toDouble, Measured, h]
  | text s =>
      by_cases hs : s = ""
      · simp [capacityOf, Measured, hs]
      · cases h : Decimal.read? s <;> simp [capacityOf, toDouble, Measured, hs, h]
  | _ => simp [capacityOf, toDouble, Measured]

/-- The id of something that must have one. -/
theorem succeeds_id : Succeeds (required "id" v >>= toInteger) ↔ Object Identified v := by
  cases v with
  | object fields =>
      rw [object_object, Identified]
      cases h : Value.lookup? "id" fields <;> simp [required, h, succeeds_toInteger]
  | _ => simp [required, Object]

theorem succeeds_readCredentials : Succeeds (readCredentials v) ↔ IsObject v := by
  cases v <;> simp [readCredentials, fieldOr, IsObject, Object]

theorem succeeds_readNode : Succeeds (readNode v) ↔ Object NodeFields v := by
  cases v with
  | object fields =>
      have inner {key outer : String} : Succeeds (field key (orObject (entry outer fields)))
          ↔ OrEmpty IsObject (entry outer fields) := succeeds_field.trans isObject_orObject
      rw [object_object, nodeFields_iff]
      simp only [readNode, field_object, fieldOr, ok_bind]
      rw [← bind_assoc]
      refine succeeds_then (succeeds_fieldParts (fun _ => succeeds_readCredentials) fun _ h => h)
        fun passwords => ?_
      rw [← bind_assoc]
      refine succeeds_then (succeeds_id.trans object_object) fun id => ?_
      refine succeeds_then inner fun billingItem => succeeds_then inner fun datacenter => ?_
      exact succeeds_then_pure.trans inner
  | _ => simp [readNode, field, Object]

theorem succeeds_readNodes : Succeeds (readNodes v) ↔ OrEmpty (Each (Object NodeFields)) v :=
  succeeds_parts (fun _ => succeeds_readNode) fun _ => Object.isObject

theorem succeeds_readTransaction : Succeeds (readTransaction v) ↔ Object TransactionFields v := by
  cases v with
  | object fields =>
      rw [object_object, TransactionFields, ← isObject_orObject]
      simp only [readTransaction, field_object, ok_bind]
      refine (succeeds_then succeeds_field fun name =>
        succeeds_then_pure.trans succeeds_field).trans ?_
      exact and_self_iff
  | _ => simp [readTransaction, field, Object]

theorem succeeds_readReceiptNode : Succeeds (readReceiptNode v)
    ↔ Object (fun node => (entry "id" node).isNull = false → NodeFields node) v := by
  cases v with
  | object fields =>
      rw [object_object]
      cases h : (entry "id" fields).isNull <;> simp [readReceiptNode, h, succeeds_readNode]
  | _ => simp [readReceiptNode, field, Object]

theorem succeeds_readReceipt {kind : NodeKind} :
    Succeeds (readReceipt kind v) ↔ OrEmpty (Object (ReceiptFields kind)) v := by
  cases h : v.truthy with
  | false => simp [readReceipt, OrEmpty, h]
  | true =>
      rw [OrEmpty, imp_iff_right h, readReceipt, if_pos h]
      cases v with
      | object fields =>
          rw [object_object, ReceiptFields]
          simp only [field_object, ok_bind]
          rw [← bind_assoc]
          exact succeeds_then_pure.trans
            (succeeds_fieldParts (fun _ => succeeds_readReceiptNode) fun _ => Object.isObject)
      | _ => simp [field, Object]

theorem succeeds_ownCodes {categories : List Value} :
    Succeeds (ownCodes categories) ↔ ∀ category ∈ categories, IsObject category := by
  rw [ownCodes, succeeds_map, succeeds_mapM]
  simp only [succeeds_field]

theorem ownCodes_isEmpty {categories own : List Value} (h : ownCodes categories = .ok own) :
    own.isEmpty = true ↔ ∀ category ∈ categories, Uncoded category := by
  cases hcodes : categories.mapM (field "categoryCode") with
  | error cause =>
      rw [ownCodes, hcodes] at h
      cases h
  | ok codes =>
      rw [ownCodes, hcodes] at h
      cases h
      have hread : List.Forall₂ (fun category code => field "categoryCode" category = .ok code)
          categories codes := forall₂_of_mapM_ok (fun _ _ => id) hcodes
      simp only [List.isEmpty_iff, List.filter_eq_nil_iff, Bool.not_eq_true]
      constructor
      · intro hempty category hcategory
        obtain ⟨code, hcode, hfield⟩ := exists_of_forall₂ hread.flip hcategory
        obtain ⟨fields, rfl, rfl⟩ := field_eq_ok_iff.mp hfield
        exact ⟨fields, rfl, hempty _ hcode⟩
      · intro huncoded code hcode
        obtain ⟨category, hcategory, hfield⟩ := exists_of_forall₂ hread hcode
        obtain ⟨fields, rfl, hnone⟩ := huncoded category hcategory
        rw [← Except.ok.inj hfield]
        exact hnone

theorem succeeds_priceCodes {found : List Value} :
    Succeeds (priceCodes found v) ↔ Categorized v := by
  cases v with
  | object fields =>
      rw [Categorized, object_object, ← parts_iff fun _ h => h]
      simp only [priceCodes, fieldParts, field_object, ok_bind, succeeds_bind]
      refine exists_congr fun categories => and_congr_right fun _ => ?_
      exact succeeds_foldlM (P := IsObject) fun found category =>
        succeeds_then_pure.trans succeeds_field
  | _ => simp [priceCodes, fieldParts, field, Categorized, Object]

theorem succeeds_itemCodes {prices : Value} : Succeeds (itemCodes (.object fields) prices)
    ↔ OrEmpty (Each IsObject) (entry "categories" fields)
      ∧ (OrEmpty (Each Uncoded) (entry "categories" fields) →
        OrEmpty (Each Categorized) prices) := by
  have huncoded : ∀ x, Uncoded x → IsObject x := fun _ => Object.isObject
  have hcategorized : ∀ x, Categorized x → IsObject x := fun _ => Object.isObject
  rw [← parts_iff fun _ h => h, ← parts_iff huncoded, ← parts_iff hcategorized]
  simp only [itemCodes, fieldParts, field_object, ok_bind, succeeds_bind]
  cases parts (entry "categories" fields) with
  | error cause => simp
  | ok categories =>
      simp only [Except.ok.injEq, exists_eq_left', ← succeeds_ownCodes]
      cases hown : ownCodes categories with
      | error cause => simp
      | ok own =>
          rw [← ownCodes_isEmpty hown]
          cases own with
          | nil =>
              have hfold (entries : List Value) : Succeeds (entries.foldlM priceCodes [])
                  ↔ ∀ price ∈ entries, Categorized price :=
                succeeds_foldlM (P := Categorized) fun _ _ => succeeds_priceCodes
              simp [succeeds_bind, hfold]
          | cons code more => simp

theorem succeeds_readItem : Succeeds (readItem v) ↔ Object ItemFields v := by
  cases v with
  | object fields =>
      rw [object_object, itemFields_iff, ← and_assoc]
      simp only [readItem, field_object, ok_bind]
      refine succeeds_then succeeds_itemCodes fun codes => ?_
      rw [← bind_assoc]
      refine succeeds_then (succeeds_id.trans object_object) fun id => ?_
      refine succeeds_then succeeds_capacityOf fun capacity => ?_
      rw [← bind_assoc]
      exact succeeds_then_pure.trans
        (succeeds_parts (fun _ => succeeds_id) fun _ => Object.isObject)
  | _ => simp [readItem, field, Object]

theorem succeeds_readItems : Succeeds (readItems v) ↔ OrEmpty (Each (Object ItemFields)) v :=
  succeeds_parts (fun _ => succeeds_readItem) fun _ => Object.isObject

/-- What an operation can read are just the legible values. -/
theorem succeeds_report {call : Call} : Succeeds (report call v) ↔ Legible call v := by
  cases call with
  | listCatalogItems family => exact succeeds_readItems
  | placeOrder order => exact succeeds_readReceipt
  | listNodes kind => exact succeeds_readNodes
  | getBillingOrderStatus order => exact succeeds_field.trans isObject_orObject
  | getNode kind node =>
      cases h : v.truthy <;> simp [report, Legible, OrEmpty, h, succeeds_readNode]
  | getActiveTransaction kind node =>
      cases h : v.truthy <;> simp [report, Legible, OrEmpty, h, succeeds_readTransaction]
  | _ => exact iff_true_intro (succeeds_ok _)

/-! ## Outcomes -/

/-- A response of success with a value in it. -/
def Outcome.Carries (outcome : Outcome) (v : Value) : Prop :=
  ∃ status body, outcome = .response status body ∧ (200 ≤ status ∧ status < 300) ∧ body ≠ ""
    ∧ Json.read? body = some v

namespace Outcome

variable {outcome : Outcome} {path : String}

theorem result_of_carries (h : outcome.Carries v) : outcome.result path = .ok v := by
  obtain ⟨status, body, rfl, ⟨hlow, hhigh⟩, hbody, hread⟩ := h
  have hrest : ¬ (status < 200 ∨ 300 ≤ status) := by omega
  simp [result, hbody, hread, hrest, show status ≠ 401 by omega, show status ≠ 404 by omega,
    show status ≠ 429 by omega]

/-- The result of a request is null, or the value in the response. -/
theorem of_result_ok (h : outcome.result path = .ok v) : v = .null ∨ outcome.Carries v := by
  cases outcome with
  | broken text => cases h
  | response status body =>
      simp only [result] at h
      split_ifs at h with h401 h404 h429 hrefused hempty
      · exact .inl (Except.ok.inj h).symm
      · cases hread : Json.read? body with
        | none =>
            rw [hread] at h
            cases h
        | some w =>
            rw [hread] at h
            cases h
            simp only [Bool.or_eq_true, decide_eq_true_eq, not_or] at hrefused
            refine .inr ⟨status, body, rfl, by omega, ?_, hread⟩
            simpa using hempty

end Outcome

theorem legible_null (call : Call) : Legible call .null := by
  cases call <;> simp [Legible, OrEmpty, Value.truthy]

/-- **Failures of an operation.** An operation fails with a failure of its provider or with a bare
data fault, and with the latter just if a response of success carries a value that the operation
cannot read. -/
theorem settle_bare_iff {τ : Type} (call : Call) (outcome : Outcome) :
    (∀ f : Failure τ, settle call outcome = .error f →
        (∃ reported, f = .provider reported) ∨ ∃ cause, f = .fault (.data cause))
      ∧ ((∃ cause, settle call outcome = .error (.fault (.data cause) : Failure τ))
        ↔ ∃ v, outcome.Carries v ∧ ¬ Legible call v) := by
  unfold settle
  cases hresult : outcome.result (request call).path with
  | error failure =>
      have hcarries : ¬ ∃ v, outcome.Carries v ∧ ¬ Legible call v := by
        rintro ⟨v, hcarries, -⟩
        have hok : outcome.result (request call).path = .ok v := Outcome.result_of_carries hcarries
        rw [hresult] at hok
        cases hok
      simp only [hcarries, iff_false, not_exists]
      split
      · exact ⟨nofun, fun _ => nofun⟩
      · exact ⟨fun f h => .inl ⟨failure, (Except.error.inj h).symm⟩, fun _ => nofun⟩
  | ok v =>
      have hunique : (∃ w, outcome.Carries w ∧ ¬ Legible call w) ↔ ¬ Legible call v := by
        constructor
        · rintro ⟨w, hcarries, hillegible⟩
          have hok : outcome.result (request call).path = .ok w :=
            Outcome.result_of_carries hcarries
          rw [hresult] at hok
          cases hok
          exact hillegible
        · intro hillegible
          rcases Outcome.of_result_ok hresult with rfl | hcarries
          · exact absurd (legible_null call) hillegible
          · exact ⟨v, hcarries, hillegible⟩
      rw [hunique, ← succeeds_report]
      cases hreport : report call v with
      | ok r => simp [hreport]
      | error cause => simp [hreport]

/-- The cause of a failure that is a bare data fault. -/
def bareCause? {τ α : Type} : Except (Failure τ) α → Option DataFault
  | .error (.fault (.data cause)) => some cause
  | _ => none

theorem of_bareCause? {τ α : Type} {x : Except (Failure τ) α} {cause : DataFault}
    (h : bareCause? x = some cause) : x = .error (.fault (.data cause)) := by
  unfold bareCause? at h
  split at h
  · cases h
    rfl
  · cases h

/-- A node that is reported without its id. -/
theorem settle_node_without_id :
    settle (.getNode .virtualGuest 1001) (.response 200 "\x7b\"hostname\": \"web-1\"\x7d")
      = .error (.fault (.data .fieldMissing) : Failure Seconds) :=
  of_bareCause? (by decide +kernel)

end Rest

end Provision
