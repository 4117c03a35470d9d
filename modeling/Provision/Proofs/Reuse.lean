import Provision.Proofs.Provisioning
import Provision.Proofs.Refusals

/-!
# Used records

A stage is entered when its action is over. A progress record that has a state
refuses the first stage, and so no run gets beyond it. But by then the order
has been placed, whatever record is given: only an order that cannot be made is
not placed. The run ends with the answer to it, of which nothing is kept
(`provision_used`).
-/

namespace Provision

variable {τ : Type} [Duration τ]

theorem Progress.mayEnter_first_iff (p : Progress) :
    p.mayEnter (.reached .orderPlaced) = true ↔ p.state = none := by
  unfold mayEnter
  rcases p.state with _ | ⟨current⟩ | _
  · exact iff_of_true rfl rfl
  · exact iff_of_false nofun nofun
  · exact iff_of_false nofun nofun

theorem Progress.refuses_first {p : Progress} (h : p.state ≠ none) :
    ∃ cause, p.advance (.reached .orderPlaced) = .error cause := by
  cases hadvance : p.advance (.reached .orderPlaced) with
  | error cause => exact ⟨cause, rfl⟩
  | ok entered => exact absurd (p.mayEnter_first_iff.mp (mayEnter_of_advance hadvance)) h

namespace Machine

/-- What becomes of an order that was placed with a used record. A receipt is dropped, and the run
ends in the refusal; a failure is treated as that of any stage. -/
inductive Wasted (p : Progress) :
    Except (Failure τ) (Option Receipt) → Failure τ → Progress → Prop
  | dropped {receipt cause} (refused : p.advance (.reached .orderPlaced) = .error cause) :
      Wasted p (.ok receipt) (.progress cause) p
  | failed (e) : Wasted p (.error e) e (p.stopped .orderPlaced e)

variable {w : World τ}

/-- The order is placed before the stage is refused. -/
theorem stage_used (m : Machine τ) (order : Order) (hused : w.progress.state ≠ none) :
    ∃ reply e w', m.stage .orderPlaced (Run.call (.placeOrder order)) w = (.error e, w')
      ∧ w'.exchanges = ⟨.placeOrder order, reply⟩ :: w.exchanges
      ∧ Wasted w.progress reply e w'.progress := by
  obtain ⟨reply, remote, hcall⟩ := Run.call_eq (.placeOrder order) w
  rw [stage_eq]
  unfold Run.attempt
  rw [hcall]
  refine ⟨reply, ?_⟩
  cases reply with
  | ok receipt =>
      obtain ⟨cause, hrefused⟩ := Progress.refuses_first hused
      refine ⟨.progress cause,
        { w with remote, exchanges := ⟨.placeOrder order, .ok receipt⟩ :: w.exchanges },
        ?_, rfl, .dropped hrefused⟩
      show m.record .orderPlaced (.ok receipt) _ = _
      rw [record_ok, hrefused]
  | error e =>
      obtain ⟨records, hrecord⟩ := m.record_error (α := Option Receipt) .orderPlaced e
        { w with remote, exchanges := ⟨.placeOrder order, .error e⟩ :: w.exchanges }
      exact ⟨e, _, hrecord, rfl, .failed e⟩

theorem pursue_used (m : Machine τ) (template : Template) (combination : String) (order : Order)
    (hused : w.progress.state ≠ none) :
    ∃ reply e w', m.pursue template combination order w = (.error e, w')
      ∧ w'.exchanges = ⟨.placeOrder order, reply⟩ :: w.exchanges
      ∧ Wasted w.progress reply e w'.progress := by
  let message := s!"Placing order for {template.hostname} with prices "
    ++ Text.bracketed (order.prices.map toString)
  let announced := (inform message m.familyFields w).2
  obtain ⟨reply, e, w', hstage, htrace, hwasted⟩ := m.stage_used order (w := announced) hused
  have hinformed : inform message m.familyFields w = (.ok (), announced) := rfl
  have hplace : m.place template order w = (.error e, w') :=
    (Run.bind_of_ok hinformed).trans (Run.bind_of_error hstage)
  exact ⟨reply, e, w', Run.bind_of_error hplace, htrace, hwasted⟩

/-- **A run that leads nowhere still orders.** Given a record that has a state, as one kept from an
earlier run, provisioning fails. But it places its order if it can make one. The order is the last
call of the run, and where it was accepted the record does not even show its id. -/
theorem provision_used (m : Machine τ) (template : Template) (combination : String)
    {p : Progress} (hused : p.state ≠ none) (w : World τ) :
    let prepared := (m.prepare template combination { w with progress := p }).1
    let out := m.provision template combination (some p) w
    ∃ made e, out.2.exchanges = made.reverse ++ w.exchanges ∧ out.1 = .error e
      ∧ (∀ cause, prepared = .error cause →
        e = cause ∧ orders made = [] ∧ out.2.progress = p)
      ∧ ∀ order, prepared = .ok order → ∃ before reply,
        made = before ++ [⟨.placeOrder order, reply⟩] ∧ orders before = []
          ∧ Wasted p reply e out.2.progress := by
  intro prepared out
  have hrun : out = (m.prepare template combination >>= m.pursue template combination)
      { w with progress := p } := m.provision_eq template combination (some p) w
  obtain ⟨made, htrace, haside⟩ := m.prepare_aside template combination { w with progress := p }
  rcases hprepare : m.prepare template combination { w with progress := p } with ⟨cause | order, w₁⟩
  · rw [hprepare] at htrace haside
    rw [Run.bind_of_error hprepare] at hrun
    rw [hrun]
    refine ⟨made, cause, htrace, rfl, fun cause' hcause => ?_, fun order horder => ?_⟩
    · have hsame : prepared = .error cause := congrArg Prod.fst hprepare
      rw [hsame] at hcause
      cases hcause
      exact ⟨rfl, haside.unordered, haside.progress⟩
    · have hsame : prepared = .error cause := congrArg Prod.fst hprepare
      rw [hsame] at horder
      cases horder
  · rw [hprepare] at htrace haside
    rw [Run.bind_of_ok hprepare] at hrun
    have hkept : w₁.progress = p := haside.progress
    have hstate : w₁.progress.state ≠ none := by
      rw [hkept]
      exact hused
    obtain ⟨reply, e, w', hpursue, hplaced, hwasted⟩ :=
      m.pursue_used template combination order hstate
    rw [hrun, hpursue]
    rw [hkept] at hwasted
    have hsame : prepared = .ok order := congrArg Prod.fst hprepare
    refine ⟨made ++ [⟨.placeOrder order, reply⟩], e, ?_, rfl, fun cause hcause => ?_,
      fun order' horder => ?_⟩
    · rw [hplaced, htrace, List.reverse_append]
      rfl
    · rw [hsame] at hcause
      cases hcause
    · rw [hsame] at horder
      cases horder
      exact ⟨made, reply, rfl, haside.unordered, hwasted⟩

/-! ## Trying again -/

def webHost : Template := { hostname := "web-1", domain := "example.com", hardwareId := "19,123" }

/-- The order for the host in a family without extras. -/
def webOrder : Order :=
  { family := 46, location := none, prices := [19, 123]
    targets := [{ hostname := "web-1", domain := "example.com" }] }

/-- Any order is accepted, under one id. -/
def accepting : Remote Rat :=
  .scripted { placeOrder := .always (some { orderId := .int 78 }) }

/-- The record of a run whose order was rejected. -/
def rejectedRun : Progress := (Progress.fresh "web-1").fail "ORDER_PLACED" "Out of stock"

theorem provision_used_rejected :
    let w : World Rat := { remote := accepting, clock := 0, patience := 20 }
    let out := guests.provision webHost "19,123" (some rejectedRun) w
    rejectedRun.state ≠ none
    ∧ (guests.prepare webHost "19,123" { w with progress := rejectedRun }).1 = .ok webOrder
    ∧ ∃ before reply e, out.1 = .error e ∧ orders before = []
      ∧ out.2.exchanges = ⟨.placeOrder webOrder, reply⟩ :: before
      ∧ Wasted rejectedRun reply e out.2.progress := by
  intro w out
  have hused : rejectedRun.state ≠ none := nofun
  have hprepared : (guests.prepare webHost "19,123" { w with progress := rejectedRun }).1
      = .ok webOrder := rfl
  obtain ⟨made, e, htrace, hfailed, -, hplaced⟩ :=
    guests.provision_used webHost "19,123" hused w
  obtain ⟨before, reply, rfl, hbefore, hwasted⟩ := hplaced webOrder hprepared
  rw [List.append_nil, List.reverse_append] at htrace
  refine ⟨hused, hprepared, before.reverse, reply, e, hfailed, ?_, htrace, hwasted⟩
  rw [orders, List.filterMap_reverse, ← orders, hbefore, List.reverse_nil]

/-- A second attempt with the record of the first one fails, but its order was accepted. The record
does not tell. -/
theorem retry_orders_unnoticed :
    let w : World Rat := { remote := accepting, clock := 0, patience := 20 }
    let out := guests.provision webHost "19,123" (some rejectedRun) w
    rejectedRun.state = some .failed
    ∧ out.1 = .error (.progress (.alreadyFailed "web-1" "ORDER_PLACED"))
    ∧ out.2.exchanges = [⟨.placeOrder webOrder, .ok (some { orderId := .int 78 })⟩]
    ∧ out.2.progress = rejectedRun :=
  ⟨rfl, rfl, rfl, rfl⟩

end Machine

end Provision
