import Provision.Proofs.Catalogs

/-!
# Selection

A selection that succeeds has seen the remote side accept an order, in the last
call that it made: the order of the combination it returns, with a catalog that
is settled by then (`select_satisfies`). It is an induction on the candidates;
a rejected one leaves nothing behind but its call.
-/

namespace Provision

variable {τ : Type}

/-- These calls end with the acceptance of an order. -/
def Accepted (order : Order) (made : List (Exchange τ)) : Prop :=
  ∃ earlier, made = earlier ++ [⟨.verifyOrder order, .ok ()⟩]

theorem Accepted.after {order : Order} {made : List (Exchange τ)} (h : Accepted order made)
    (before : List (Exchange τ)) : Accepted order (before ++ made) := by
  obtain ⟨earlier, rfl⟩ := h
  exact ⟨before ++ earlier, (List.append_assoc ..).symm⟩

namespace Selector

/-- What is known of a selection with a given catalog, and with the order in its result. -/
def Verifies (s : Selector) (template : Template) (catalog : Option Catalog) :
    Post τ (String × Order) := fun w made r w' =>
  Run.Still w made w' ∧ ∀ chosen, r = .ok chosen →
    template.order s.defaults chosen.1 catalog = .ok chosen.2 ∧ Accepted chosen.2 made

/-- What is done with the answer to a candidate's order. -/
def judge (s : Selector) (template : Template) (catalog : Option Catalog) (all : List String)
    (rejections : List (String × String)) (candidate : String) (order : Order)
    (rest : List String) : Except (Failure τ) Unit → Run τ (String × Order)
  | .ok _ => do
    Run.log (verifiedRecord s.defaults.family candidate template.hostname)
    pure (candidate, order)
  | .error (.provider f) =>
    if f.trouble = .rejection then do
      Run.log (rejectedRecord s.defaults.family candidate f.text)
      s.verifyFrom template catalog all ((candidate, f.text) :: rejections) rest
    else Run.fail (.provider f)
  | .error e => Run.fail e

theorem verifyFrom_cons (s : Selector) (template : Template) (catalog : Option Catalog)
    (all : List String) (rejections : List (String × String)) (candidate : String)
    (rest : List String) :
    (s.verifyFrom template catalog all rejections (candidate :: rest) : Run τ (String × Order))
      = (do
          let order ← Run.ofFault (template.order s.defaults candidate catalog)
          Run.attempt (Run.call (.verifyOrder order))
            (s.judge template catalog all rejections candidate order rest)) := by
  rw [verifyFrom]
  congr 1
  funext order
  congr 1
  funext r
  rcases r with e | u
  · cases e <;> rfl
  · rfl

/-- Either the order just accepted is chosen, or a later one. -/
def Judges (s : Selector) (template : Template) (catalog : Option Catalog) (candidate : String)
    (order : Order) (reply : Except (Failure τ) Unit) : Post τ (String × Order) :=
  fun w made r w' => Run.Still w made w' ∧ ∀ chosen, r = .ok chosen →
    (reply = .ok () ∧ made = [] ∧ chosen = (candidate, order)) ∨
      (template.order s.defaults chosen.1 catalog = .ok chosen.2 ∧ Accepted chosen.2 made)

theorem judge_satisfies (s : Selector) (template : Template) (catalog : Option Catalog)
    (all : List String) (rejections : List (String × String)) (candidate : String)
    (order : Order) (rest : List String)
    (hrest : ∀ rejections, (s.verifyFrom template catalog all rejections rest
      : Run τ (String × Order)).Satisfies (s.Verifies template catalog))
    (reply : Except (Failure τ) Unit) :
    (s.judge template catalog all rejections candidate order rest reply).Satisfies
      (s.Judges template catalog candidate order reply) := by
  have hfail : ∀ e : Failure τ, (Run.fail e : Run τ (String × Order)).Satisfies
      (s.Judges template catalog candidate order reply) :=
    fun e w => ⟨[], rfl, Run.still_steady.refl w, fun _ => nofun⟩
  rcases reply with e | _
  · cases e with
    | provider f =>
        show Run.Satisfies (if f.trouble = .rejection then _ else _) _
        by_cases htrouble : f.trouble = .rejection
        · rw [if_pos htrouble]
          refine Run.Satisfies.logged ((hrest _).mono ?_) ?_ _
          · exact fun w made r w' h => ⟨h.1, fun chosen hr => Or.inr (h.2 chosen hr)⟩
          · exact fun w records made r w' h =>
              ⟨⟨⟨h.1.aside.unordered, h.1.aside.progress⟩, h.1.cache⟩, h.2⟩
        · rw [if_neg htrouble]
          exact hfail _
    | _ => exact hfail _
  · intro w
    refine ⟨[], rfl, ⟨⟨rfl, rfl⟩, rfl⟩, ?_⟩
    rintro _ ⟨⟩
    exact Or.inl ⟨rfl, rfl, rfl⟩

theorem verifyFrom_satisfies (s : Selector) (template : Template) (catalog : Option Catalog)
    (all : List String) (rejections : List (String × String)) (candidates : List String) :
    (s.verifyFrom template catalog all rejections candidates
      : Run τ (String × Order)).Satisfies (s.Verifies template catalog) := by
  induction candidates generalizing rejections with
  | nil => exact fun w => ⟨[], rfl, Run.still_steady.refl w, fun _ => nofun⟩
  | cons candidate rest ih =>
      rw [verifyFrom_cons]
      have htry : ∀ order, (Run.attempt (Run.call (.verifyOrder order))
          (s.judge template catalog all rejections candidate order rest)).Satisfies
            fun (w : World τ) made r w' => Run.Still w made w' ∧ ∀ chosen, r = .ok chosen →
              (template.order s.defaults candidate catalog = .ok order →
                template.order s.defaults chosen.1 catalog = .ok chosen.2)
              ∧ Accepted chosen.2 made := by
        intro order
        refine (((Run.call_still rfl).and (Run.satisfies_call _)).attempt
          (s.judge_satisfies template catalog all rejections candidate order rest ih)).mono ?_
        rintro w _ r w' ⟨⟨hstill, rfl, -⟩, hstill', hchosen⟩
        refine ⟨Run.still_steady.trans hstill hstill', fun chosen hr => ?_⟩
        rcases hchosen chosen hr with ⟨rfl, rfl, rfl⟩ | ⟨horder, haccepted⟩
        · exact ⟨id, [], rfl⟩
        · exact ⟨fun _ => horder, haccepted.after _⟩
      refine ((Run.satisfies_ofFault _).bind htry).mono ?_
      intro w made r w' h
      cases h with
      | failed first =>
          obtain ⟨rfl, rfl, -⟩ := first
          exact ⟨Run.still_steady.refl _, fun _ => nofun⟩
      | went first second =>
          obtain ⟨rfl, rfl, horder⟩ := first
          refine ⟨second.1, fun chosen hr => ?_⟩
          obtain ⟨hfrom, haccepted⟩ := second.2 chosen hr
          exact ⟨hfrom (horder _ rfl), haccepted⟩

/-- A combination is chosen for an order: it makes this order, it will make it again as long as the
cache stays as it is, and the order has just been accepted. -/
structure Chosen (defaults : OrderDefaults) (source : Option CatalogSource) (template : Template)
    (combination : String) (order : Order) (made : List (Exchange τ)) (cache : CatalogCache) :
    Prop where
  orders : ∃ catalog, Settled defaults source catalog cache
    ∧ template.order defaults combination catalog = .ok order
  accepted : Accepted order made

theorem selectOrder_satisfies (s : Selector) (combinations : String) (template : Template) :
    (s.selectOrder combinations template : Run τ (String × Order)).Satisfies fun w made r w' =>
      Run.Unordered w made w' ∧ ∀ chosen, r = .ok chosen →
        Chosen s.defaults s.catalog template chosen.1 chosen.2 made w'.cache := by
  have hverify : ∀ catalog : Option Catalog,
      (s.verifyFrom template catalog (Price.split combinations) [] (Price.split combinations)
        : Run τ (String × Order)).Satisfies (s.Verifies template catalog) :=
    fun catalog => s.verifyFrom_satisfies template catalog _ _ _
  refine ((catalogFor_satisfies s.defaults s.catalog).bind hverify).mono ?_
  intro w made r w' h
  cases h with
  | failed first => exact ⟨first.1.unordered, fun _ => nofun⟩
  | @went _ _ catalog _ _ _ _ first second =>
      obtain ⟨haside, hsettled⟩ := first
      obtain ⟨hstill, hchosen⟩ := second
      refine ⟨Run.unordered_steady.trans haside.unordered hstill.aside.unordered, ?_⟩
      intro chosen hr
      obtain ⟨horder, haccepted⟩ := hchosen chosen hr
      refine ⟨⟨catalog, ?_, horder⟩, haccepted.after _⟩
      rw [hstill.cache]
      exact hsettled catalog rfl

theorem select_satisfies (s : Selector) (combinations : String) (template : Template) :
    (s.select combinations template : Run τ String).Satisfies fun w made r w' =>
      Run.Unordered w made w' ∧ ∀ combination, r = .ok combination →
        ∃ order, Chosen s.defaults s.catalog template combination order made w'.cache := by
  have hfirst : ∀ chosen : String × Order, (pure chosen.1 : Run τ String).Satisfies
      fun w made r w' => made = [] ∧ r = .ok chosen.1 ∧ w' = w :=
    fun chosen => Run.satisfies_pure chosen.1
  refine ((s.selectOrder_satisfies combinations template).bind hfirst).mono ?_
  intro w made r w' h
  cases h with
  | failed first => exact ⟨first.1, fun _ => nofun⟩
  | @went _ _ chosen _ _ _ _ first second =>
      obtain ⟨hunordered, hchosen⟩ := first
      obtain ⟨rfl, rfl, rfl⟩ := second
      rw [List.append_nil]
      refine ⟨hunordered, ?_⟩
      rintro _ ⟨⟩
      exact ⟨chosen.2, hchosen chosen rfl⟩

end Selector

end Provision
