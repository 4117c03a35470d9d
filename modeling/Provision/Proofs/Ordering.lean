import Provision.Proofs.Provisioning
import Provision.Proofs.Selection

/-!
# What is placed was verified

An order is `Verified` if the call before it has seen the very same order
accepted. Selection and ordering make their order independently. They agree
where both read the same defaults and the same catalog: what the selection has
looked up is settled, so that no call lies between the acceptance of the order
and its placing (`ordering_satisfies`). To look up a catalog orders nothing.
-/

namespace Provision

variable {τ α : Type}

/-! ## Verified calls -/

/-- Whatever order is placed, the call before has seen it accepted. -/
def Verified (made : List (Exchange τ)) : Prop :=
  ∀ before order reply after,
    made = before ++ ⟨.placeOrder order, reply⟩ :: after → Accepted order before

theorem verified_of_unordered {made : List (Exchange τ)} (h : orders made = []) :
    Verified made := by
  rintro before order reply after rfl
  rw [orders_append, orders_placeOrder_cons] at h
  exact absurd h (List.append_ne_nil_of_right_ne_nil _ (List.cons_ne_nil _ _))

theorem Verified.append {made made' : List (Exchange τ)} (h : Verified made)
    (h' : Verified made') : Verified (made ++ made') := by
  intro before order reply after hmade
  rcases List.append_eq_append_iff.mp hmade with ⟨between, rfl, hlater⟩ | ⟨between, rfl, hrest⟩
  · exact (h' between order reply after hlater).after made
  · cases between with
    | nil =>
        obtain ⟨earlier, hempty⟩ := h' [] order reply after hrest.symm
        exact absurd hempty.symm (List.append_ne_nil_of_right_ne_nil _ (List.cons_ne_nil _ _))
    | cons x between =>
        obtain ⟨rfl, -⟩ := List.cons_eq_cons.mp hrest
        exact h before order reply between rfl

theorem verified_pair (order : Order) (reply : Except (Failure τ) (Option Receipt)) :
    Verified [⟨.verifyOrder order, .ok ()⟩, ⟨.placeOrder order, reply⟩] := by
  intro before order' reply' after hsplit
  rcases before with _ | ⟨x, _ | ⟨y, before⟩⟩
  · cases hsplit
  · cases hsplit
    exact ⟨[], rfl⟩
  · have hrest := (List.cons_eq_cons.mp (List.cons_eq_cons.mp hsplit).2).2
    exact absurd hrest.symm (List.append_ne_nil_of_right_ne_nil _ (List.cons_ne_nil _ _))

/-- An order placed right after its acceptance, with no other order around. -/
theorem verified_placed {order : Order} {made later : List (Exchange τ)}
    (haccepted : Accepted order made) (hmade : orders made = []) (hlater : orders later = [])
    (reply : Except (Failure τ) (Option Receipt)) :
    Verified (made ++ ⟨.placeOrder order, reply⟩ :: later) := by
  obtain ⟨earlier, rfl⟩ := haccepted
  rw [orders_append] at hmade
  have hearlier := verified_of_unordered (List.append_eq_nil_iff.mp hmade).1
  have hboth := (hearlier.append (verified_pair order reply)).append (verified_of_unordered hlater)
  rw [List.append_assoc] at hboth ⊢
  exact hboth

/-! ## Ordering what was selected -/

namespace Machine

/-- With a settled catalog the order is made without a call. -/
theorem prepare_at_once (m : Machine τ) (template : Template) (combination : String) :
    (m.prepare template combination).Satisfies fun w made r _ => ∀ catalog order,
      Selector.Settled m.defaults m.catalog catalog w.cache →
        template.order m.defaults combination catalog = .ok order → made = [] ∧ r = .ok order := by
  intro w
  obtain ⟨made, htrace, -⟩ := m.prepare_aside template combination w
  refine ⟨made, htrace, fun catalog order hsettled horder => ?_⟩
  have hrun : m.prepare template combination w = (.ok order, w) := by
    unfold prepare
    rw [Run.bind_of_ok (hsettled τ w rfl), horder]
    rfl
  rw [hrun] at htrace ⊢
  exact ⟨Run.made_eq_nil htrace, rfl⟩

variable [Duration τ]

theorem provision_at_once (m : Machine τ) (template : Template) (combination : String) :
    (m.provision template combination).Satisfies fun w made _ _ => ∀ catalog order,
      Selector.Settled m.defaults m.catalog catalog w.cache →
        template.order m.defaults combination catalog = .ok order →
          ∃ reply later, made = ⟨.placeOrder order, reply⟩ :: later ∧ orders later = [] := by
  have hboth : (m.prepare template combination >>= m.pursue template combination).Satisfies
      fun w made _ _ => ∀ catalog order,
        Selector.Settled m.defaults m.catalog catalog w.cache →
          template.order m.defaults combination catalog = .ok order →
            ∃ reply later, made = ⟨.placeOrder order, reply⟩ :: later ∧ orders later = [] := by
    refine ((m.prepare_at_once template combination).bind
      (m.pursue_orders template combination)).mono ?_
    intro w made r w' h catalog order hsettled horder
    cases h with
    | failed first => cases (first catalog order hsettled horder).2
    | went first second =>
        obtain ⟨rfl, hsame⟩ := first catalog order hsettled horder
        cases hsame
        exact second
  intro w
  exact hboth { w with progress := .fresh template.hostname }

end Machine

/-- Selecting and then ordering, with the same defaults and catalog on both sides. -/
theorem ordering_satisfies {selector : Selector} {m : Machine τ} [Duration τ]
    (hdefaults : m.defaults = selector.defaults) (hcatalog : m.catalog = selector.catalog)
    (combinations : String) (template : Template) :
    (selector.select combinations template
        >>= fun combination => m.provision template combination).Satisfies fun w made _ _ =>
      Verified made ∧ (orders made).length ≤ 1 ∧ (orders made ≠ [] →
        ∃ combination, (selector.select combinations template w).1 = .ok combination) := by
  refine ((selector.select_satisfies combinations template).result.bind
    (m.provision_at_once template)).mono ?_
  intro w made r w' h
  cases h with
  | failed first =>
      obtain ⟨⟨hunordered, -⟩, -⟩ := first
      refine ⟨verified_of_unordered hunordered, ?_, fun hsome => absurd hunordered hsome⟩
      rw [hunordered]
      exact Nat.zero_le 1
  | @went _ before combination w₁ made _ _ first second =>
      obtain ⟨⟨hunordered, hchosen⟩, hresult⟩ := first
      obtain ⟨order, ⟨catalog, hsettled, horder⟩, haccepted⟩ := hchosen combination rfl
      rw [← hdefaults, ← hcatalog] at hsettled
      rw [← hdefaults] at horder
      obtain ⟨reply, later, rfl, hlater⟩ := second catalog order hsettled horder
      refine ⟨verified_placed haccepted hunordered hlater reply, ?_, fun _ => ⟨_, hresult⟩⟩
      rw [orders_append, hunordered, orders_placeOrder_cons, hlater]
      exact Nat.le_refl 1

/-! ## Catalogs -/

open Run (Unordered unordered_steady call_unordered)

theorem listing_unordered : Run.Listing (Unordered : Run.Frame τ) where
  steady := unordered_steady
  listed _ := call_unordered rfl
  cached _ := Run.update_unordered fun _ => rfl

theorem dropCatalogs_unordered (family : Option Int) :
    (Run.dropCatalogs family : Run τ Nat).Keeps Unordered := by
  refine unordered_steady.bind (unordered_steady.read _) fun cache => ?_
  refine unordered_steady.bind (Run.update_unordered fun _ => rfl) fun _ => ?_
  refine Run.Keeps.ite ?_ (unordered_steady.pure _)
  exact unordered_steady.bind (unordered_steady.log _) fun _ => unordered_steady.pure _

end Provision
