import Provision.Proofs.Gates
import Provision.Proofs.Operations

/-!
# Decommissioning

What is called, and in which order, to be rid of a node. A billed node is
disposed of in two parts: where it is to be powered off first, this has to
succeed (`powerOff_looks`), and then its billing item is cancelled and its
transactions are waited for (`cancel_looks`). So there is one cancellation at
most, and it is for the item that the first look showed (`destroy_guarded`).
-/

namespace Provision

variable {τ α : Type}

/-- The billing item that a call cancels, if it does. -/
def Call.cancelled? : Call → Option Value
  | cancelBillingItem item => some item
  | _ => none

namespace Machine

/-! ## Waits for something to be seen -/

theorem Looked.of_ok {c : Call} {see : c.Reply → α} {made : List (Exchange τ)} {a : α}
    (h : Looked c see made (.ok a)) : ∃ reply, made = [⟨c, .ok reply⟩] ∧ see reply = a := by
  cases h with
  | answered reply => exact ⟨reply, rfl, rfl⟩

theorem checkHalted_looks (m : Machine τ) (node : Int) :
    (m.checkHalted node).Satisfies (Looks (.getNode m.kind node)
      fun current => if current.any Node.isHalted then some () else none) := by
  refine call_bind_looks rfl fun current w => ?_
  exact ⟨[], rfl, Run.aside_steady.refl w, rfl, rfl⟩

variable [Duration τ]

/-- The same look again and again, the last one with the answer that ends the wait. -/
theorem await_looks {c : Call} {see : c.Reply → Option α} {check : Run τ (Option α)}
    (hcheck : check.Satisfies (Looks c see)) (stage : String) (policy : StagePolicy τ)
    (subject : Value) (wording : String) :
    (await check stage policy subject wording).Satisfies fun _ made r _ =>
      (∀ x ∈ made, x.call = c)
        ∧ ∀ a, r = .ok a → ∃ waiting reply, made = waiting ++ [⟨c, .ok reply⟩]
          ∧ see reply = some a := by
  have hlook : check.Satisfies fun w made r w' =>
      Run.Only (· = c) w made w' ∧ Looked c see made r := by
    refine hcheck.mono ?_
    rintro w made r w' ⟨-, hlooked⟩
    refine ⟨?_, hlooked⟩
    cases hlooked with
    | answered | failed => exact List.forall_mem_singleton.mpr rfl
  refine (Run.await_satisfies (Run.only_steady _) hlook stage policy subject wording).mono ?_
  rintro w made _ w' ⟨honly, plain, hpolled, rfl⟩
  refine ⟨honly, fun a ha => ?_⟩
  cases hpolled with
  | found earlier hlooked =>
      cases ha
      obtain ⟨reply, rfl, hseen⟩ := hlooked.of_ok
      exact ⟨earlier, reply, rfl, hseen⟩
  | broken | late | unfinished => cases ha

theorem awaitStarted_looks (m : Machine τ) (node : Int) (hostname : Value) :
    (m.awaitStarted node hostname).Satisfies fun _ made r _ =>
      (∀ x ∈ made, x.call = .getActiveTransaction m.kind node)
        ∧ ∀ transaction, r = .ok transaction → ∃ waiting,
          made = waiting ++ [⟨.getActiveTransaction m.kind node, .ok (some transaction)⟩] := by
  have hlook : (Run.call (.getActiveTransaction m.kind node)).Satisfies
      (Looks (τ := τ) (.getActiveTransaction m.kind node) id) := call_looks rfl
  have hwait := await_looks hlook Stage.transactionsStarted.name m.policies.transactionsStarted
    hostname
    ("host " ++ hostname.display ++ " did not start its transactions within configured delay")
  refine (hwait.observed m.kind node hostname).mono ?_
  rintro w made r w' ⟨w₁, ⟨honly, hends⟩, -⟩
  refine ⟨honly, fun transaction hr => ?_⟩
  obtain ⟨waiting, reply, rfl, rfl⟩ := hends transaction hr
  exact ⟨waiting, rfl⟩

theorem awaitEnded_looks (m : Machine τ) (node : Int) (hostname : Value) :
    (m.awaitEnded node hostname).Satisfies fun _ made r _ =>
      (∀ x ∈ made, x.call = .getActiveTransaction m.kind node)
        ∧ (r = .ok () → ∃ waiting,
          made = waiting ++ [⟨.getActiveTransaction m.kind node, .ok none⟩]) := by
  have hwait := await_looks (m.checkIdle_looks node hostname) Stage.transactionsEnded.name
    m.policies.transactionsEnded hostname
    ("host " ++ hostname.display ++ " did not finish its transactions within configured delay")
  refine (hwait.ensuring (Run.forget m.kind node) fun w =>
    Run.setTracker_exchanges w m.kind _).mono ?_
  rintro w made r w' ⟨w₁, ⟨honly, hends⟩, -⟩
  refine ⟨honly, fun hr => ?_⟩
  obtain ⟨waiting, reply, rfl, hidle⟩ := hends () hr
  cases reply with
  | none => exact ⟨waiting, rfl⟩
  | some transaction => cases hidle

/-! ## Powering off -/

/-- These calls switched the node off, and the last answer showed it halted. -/
def Halts (m : Machine τ) (node : Node) (made : List (Exchange τ)) : Prop :=
  ∃ answer waiting current, made = ⟨.powerOffNode m.kind node.id, .ok answer⟩
      :: (waiting ++ [⟨.getNode m.kind node.id, .ok (some current)⟩])
    ∧ current.powerState = .text "HALTED"

theorem powerOff_looks (m : Machine τ) (node : Node) :
    (m.powerOff node).Satisfies fun _ made r _ =>
      (∀ x ∈ made, x.call = .powerOffNode m.kind node.id ∨ x.call = .getNode m.kind node.id)
        ∧ (r = .ok () → m.Halts node made) := by
  have hwait := await_looks (m.checkHalted_looks node.id) "POWERED_OFF" m.policies.poweredOff
    node.hostname
    ("host " ++ node.hostname.display ++ " did not power off within configured delay")
  refine ((Run.satisfies_call (.powerOffNode m.kind node.id)).bind fun _ => hwait).mono ?_
  intro w made r w' h
  cases h with
  | failed first =>
      obtain ⟨rfl, -⟩ := first
      exact ⟨List.forall_mem_singleton.mpr (Or.inl rfl), nofun⟩
  | went first second =>
      obtain ⟨rfl, -⟩ := first
      obtain ⟨honly, hends⟩ := second
      refine ⟨List.forall_mem_cons.mpr ⟨Or.inl rfl, fun x hx => Or.inr (honly x hx)⟩, fun hr => ?_⟩
      obtain ⟨waiting, reply, rfl, hseen⟩ := hends () hr
      cases reply with
      | none => cases hseen
      | some current =>
          have hhalted : current.isHalted = true := by
            cases hstate : current.isHalted with
            | true => rfl
            | false =>
                rw [Option.any_some, hstate] at hseen
                cases hseen
          exact ⟨_, waiting, current, rfl, (Value.same_text_iff _ _).mp hhalted⟩

/-! ## Cancelling -/

/-- Cancels the billing item of a node and waits until the node is gone. -/
def cancel (m : Machine τ) (id : Int) (node : Node) : Run τ Bool := do
  inform ("Cancelling billing item " ++ node.billingItem.display ++ s!" of node {id}")
    [(.node, .int id)]
  let _ ← Run.call (.cancelBillingItem node.billingItem)
  let _ ← m.awaitStarted node.id node.hostname
  m.awaitEnded node.id node.hostname
  pure true

/-- A transaction was seen to run against the node, and at last none was. -/
def Settles (m : Machine τ) (node : Node) (made : List (Exchange τ)) : Prop :=
  ∃ waiting transaction waiting₁, made
    = waiting ++ ⟨.getActiveTransaction m.kind node.id, .ok (some transaction)⟩
      :: (waiting₁ ++ [⟨.getActiveTransaction m.kind node.id, .ok none⟩])

/-- What follows the cancellation. -/
theorem settle_looks (m : Machine τ) (node : Node) :
    Run.Satisfies (do
      let _ ← m.awaitStarted node.id node.hostname
      m.awaitEnded node.id node.hostname
      pure true) fun (_ : World τ) made r _ =>
        (∀ x ∈ made, x.call = .getActiveTransaction m.kind node.id)
          ∧ ∀ gone, r = .ok gone → gone = true ∧ m.Settles node made := by
  have hended : Run.Satisfies (do
      m.awaitEnded node.id node.hostname
      pure true) fun (_ : World τ) made r _ =>
        (∀ x ∈ made, x.call = .getActiveTransaction m.kind node.id)
          ∧ ∀ gone, r = .ok gone → gone = true ∧ ∃ waiting,
            made = waiting ++ [⟨.getActiveTransaction m.kind node.id, .ok none⟩] := by
    refine ((m.awaitEnded_looks node.id node.hostname).bind fun _ =>
      Run.satisfies_pure true).mono ?_
    intro w made r w' h
    cases h with
    | failed first => exact ⟨first.1, fun _ => nofun⟩
    | went first second =>
        obtain ⟨rfl, rfl, rfl⟩ := second
        rw [List.append_nil]
        refine ⟨first.1, ?_⟩
        rintro _ ⟨⟩
        exact ⟨rfl, first.2 rfl⟩
  refine ((m.awaitStarted_looks node.id node.hostname).bind fun _ => hended).mono ?_
  intro w made r w' h
  cases h with
  | failed first => exact ⟨first.1, fun _ => nofun⟩
  | went first second =>
      refine ⟨List.forall_mem_append.mpr ⟨first.1, second.1⟩, fun gone hr => ?_⟩
      obtain ⟨hgone, waiting₁, rfl⟩ := second.2 gone hr
      obtain ⟨waiting, rfl⟩ := first.2 _ rfl
      exact ⟨hgone, waiting, _, waiting₁, List.append_assoc ..⟩

theorem cancel_looks (m : Machine τ) (id : Int) (node : Node) :
    (m.cancel id node).Satisfies fun _ made r _ =>
      ∃ answer rest, made = ⟨.cancelBillingItem node.billingItem, answer⟩ :: rest
        ∧ (∀ x ∈ rest, x.call = .getActiveTransaction m.kind node.id)
        ∧ ∀ gone, r = .ok gone → gone = true ∧ (∃ b, answer = .ok b) ∧ m.Settles node rest := by
  refine Run.Satisfies.logged ?_ (fun _ _ _ _ _ h => h) _
  refine ((Run.satisfies_call (.cancelBillingItem node.billingItem)).bind
    fun _ => m.settle_looks node).mono ?_
  intro w made r w' h
  cases h with
  | @failed _ _ e _ first =>
      obtain ⟨rfl, -⟩ := first
      exact ⟨.error e, [], rfl, fun _ => nofun, fun _ => nofun⟩
  | @went _ _ b _ rest _ _ first second =>
      obtain ⟨rfl, -⟩ := first
      refine ⟨.ok b, rest, rfl, second.1, fun gone hr => ?_⟩
      obtain ⟨hgone, hsettles⟩ := second.2 gone hr
      exact ⟨hgone, ⟨b, rfl⟩, hsettles⟩

/-! ## A billed node -/

/-- What is done with a node that is billed. -/
def dispose (m : Machine τ) (id : Int) (node : Node) : Run τ Bool :=
  if m.powerOffFirst then m.powerOff node >>= fun _ => m.cancel id node else m.cancel id node

/-- The calls made to dispose of a billed node. Either it was to be powered off first and this
failed, or its billing item was cancelled, once. -/
inductive Disposal (m : Machine τ) (node : Node) : Post τ Bool
  | spared {w made e w'} (first : m.powerOffFirst = true)
      (failed : (m.powerOff node w).1 = .error e)
      (calls : ∀ x ∈ made,
        x.call = .powerOffNode m.kind node.id ∨ x.call = .getNode m.kind node.id) :
      Disposal m node w made (.error e) w'
  | cancelled {w guard answer rest r w'} (unasked : m.powerOffFirst = false → guard = [])
      (halted : m.powerOffFirst = true → (m.powerOff node w).1 = .ok () ∧ m.Halts node guard)
      (before : ∀ x ∈ guard,
        x.call = .powerOffNode m.kind node.id ∨ x.call = .getNode m.kind node.id)
      (after : ∀ x ∈ rest, x.call = .getActiveTransaction m.kind node.id)
      (gone : ∀ gone, r = .ok gone → gone = true ∧ (∃ b, answer = .ok b) ∧ m.Settles node rest) :
      Disposal m node w (guard ++ ⟨.cancelBillingItem node.billingItem, answer⟩ :: rest) r w'

theorem dispose_satisfies (m : Machine τ) (id : Int) (node : Node) :
    (m.dispose id node).Satisfies (m.Disposal node) := by
  unfold dispose
  by_cases hfirst : m.powerOffFirst = true
  · rw [if_pos hfirst]
    refine ((m.powerOff_looks node).result.bind fun _ => m.cancel_looks id node).mono ?_
    intro w made r w' h
    cases h with
    | failed first => exact .spared hfirst first.2 first.1.1
    | went first second =>
        obtain ⟨answer, rest, rfl, hafter, hgone⟩ := second
        refine .cancelled (fun hnot => ?_) (fun _ => ⟨first.2, first.1.2 rfl⟩) first.1.1 hafter
          hgone
        rw [hfirst] at hnot
        cases hnot
  · rw [if_neg hfirst]
    refine (m.cancel_looks id node).mono ?_
    rintro w made r w' ⟨answer, rest, rfl, hafter, hgone⟩
    rw [← List.nil_append (_ :: rest)]
    exact .cancelled (fun _ => rfl) (fun h => absurd h hfirst) (fun _ => nofun) hafter hgone

namespace Disposal

variable {m : Machine τ} {node : Node} {w w' : World τ} {made : List (Exchange τ)}
  {r : Except (Failure τ) Bool}

theorem orderless (h : m.Disposal node w made r w') :
    ∀ x ∈ made, ∀ order, x.call ≠ .verifyOrder order ∧ x.call ≠ .placeOrder order := by
  intro x hx order
  have hcall : x.call = .powerOffNode m.kind node.id ∨ x.call = .getNode m.kind node.id
      ∨ x.call = .cancelBillingItem node.billingItem
      ∨ x.call = .getActiveTransaction m.kind node.id := by
    cases h with
    | spared _ _ calls => exact (calls x hx).imp_right Or.inl
    | cancelled _ _ before after _ =>
        rcases List.mem_append.mp hx with hguard | hrest
        · exact (before x hguard).imp_right Or.inl
        · rcases List.mem_cons.mp hrest with rfl | hrest
          · exact Or.inr (Or.inr (Or.inl rfl))
          · exact Or.inr (Or.inr (Or.inr (after x hrest)))
  rcases hcall with hcall | hcall | hcall | hcall <;> rw [hcall] <;> exact ⟨nofun, nofun⟩

/-- Apart from the one cancellation no call cancels anything. -/
theorem cancels_once (h : m.Disposal node w made r w') :
    (∃ e, m.powerOffFirst = true ∧ (m.powerOff node w).1 = .error e ∧ r = .error e
        ∧ ∀ x ∈ made, x.call.cancelled? = none)
      ∨ ∃ guard answer rest,
        made = guard ++ ⟨.cancelBillingItem node.billingItem, answer⟩ :: rest
          ∧ (∀ x ∈ guard ++ rest, x.call.cancelled? = none)
          ∧ (m.powerOffFirst = false → guard = [])
          ∧ (m.powerOffFirst = true → (m.powerOff node w).1 = .ok () ∧ m.Halts node guard)
          ∧ ∀ gone, r = .ok gone →
            gone = true ∧ (∃ b, answer = .ok b) ∧ m.Settles node rest := by
  have hspares : ∀ c : Call,
      c = .powerOffNode m.kind node.id ∨ c = .getNode m.kind node.id → c.cancelled? = none := by
    rintro _ (rfl | rfl) <;> rfl
  cases h with
  | @spared _ _ e _ first failed calls =>
      exact Or.inl ⟨e, first, failed, rfl, fun x hx => hspares _ (calls x hx)⟩
  | @cancelled _ guard answer rest _ _ unasked halted before after gone =>
      refine Or.inr ⟨guard, answer, rest, rfl, fun x hx => ?_, unasked, halted, gone⟩
      rcases List.mem_append.mp hx with hguard | hrest
      · exact hspares _ (before x hguard)
      · rw [after x hrest]
        rfl

end Disposal

/-! ## All nodes -/

/-- A node that is not there, or is not billed any more, is gone already. -/
def Gone (found : Option Node) : Prop := ∀ node, found = some node → node.billingItem = .null

theorem gone_or_billed (found : Option Node) :
    Gone found ∨ ∃ node, found = some node ∧ node.billingItem ≠ .null := by
  cases found with
  | none => exact Or.inl fun _ => nofun
  | some node =>
      by_cases hitem : node.billingItem = .null
      · refine Or.inl ?_
        rintro _ ⟨⟩
        exact hitem
      · exact Or.inr ⟨node, rfl, hitem⟩

/-- Destroying a node is over after the first look at it, or the node is disposed of. -/
theorem destroy_cases {m : Machine τ} {id : Int} {w w₁ : World τ}
    {reply : Except (Failure τ) (Option Node)}
    (hlooked : Run.call (.getNode m.kind id) w = (reply, w₁)) :
    (∃ e, reply = .error e ∧ m.destroy id w = (.error e, w₁))
      ∨ (∃ found records, reply = .ok found ∧ Gone found
        ∧ m.destroy id w = (.ok true, { w₁ with records }))
      ∨ ∃ node, reply = .ok (some node) ∧ node.billingItem ≠ .null
        ∧ m.destroy id w = m.dispose id node w₁ := by
  cases reply with
  | error e => exact Or.inl ⟨e, rfl, Run.bind_of_error hlooked⟩
  | ok found =>
      refine Or.inr ?_
      unfold destroy
      rw [Run.bind_of_ok hlooked]
      rcases gone_or_billed found with hgone | ⟨node, rfl, hbilled⟩
      · cases found with
        | none => exact Or.inl ⟨none, _, rfl, hgone, rfl⟩
        | some node =>
            have hunbilled : node.isBilled = false := by
              rw [Node.isBilled, hgone node rfl]
              rfl
            simp only [hunbilled]
            exact Or.inl ⟨some node, _, rfl, hgone, rfl⟩
      · have hisBilled : node.isBilled = true := by
          rw [Node.isBilled, Value.isNull_eq_false hbilled]
          rfl
        simp only [hisBilled]
        exact Or.inr ⟨node, rfl, hbilled, rfl⟩

section Frames

variable {F : Run.Frame τ} (hF : Run.Trackable F)
include hF

theorem cancel_keeps (m : Machine τ) (id : Int) (node : Node) : (m.cancel id node).Keeps F := by
  refine hF.steady.bind (hF.steady.log _) fun _ => hF.steady.bind (hF.called rfl) fun _ => ?_
  refine hF.steady.bind (m.awaitStarted_keeps hF node.id node.hostname) fun _ => ?_
  exact hF.steady.bind (m.awaitEnded_keeps hF node.id node.hostname) fun _ => hF.steady.pure true

theorem destroy_keeps (m : Machine τ) (id : Int) : (m.destroy id).Keeps F := by
  refine hF.steady.bind (hF.called rfl) fun found => ?_
  cases found with
  | none => exact hF.steady.bind (hF.steady.log _) fun _ => hF.steady.pure true
  | some node =>
      have hcancel := m.cancel_keeps hF id node
      refine .ite (hF.steady.bind (hF.steady.log _) fun _ => hF.steady.pure true) (.ite ?_ hcancel)
      exact hF.steady.bind (m.powerOff_keeps hF.toWorkable node) fun _ => hcancel

end Frames

/-- **Nodes are destroyed with care.** The node is looked at first. If it is gone already, nothing
else is done. Otherwise its billing item is cancelled at most once, and only when it has been seen
halted where it is to be powered off first. The node counts as destroyed only if a transaction was
seen after that, and later none. -/
theorem destroy_guarded (m : Machine τ) (id : Int) (w : World τ) :
    let looked := Run.call (.getNode m.kind id) w
    let out := m.destroy id w
    ∃ later, out.2.exchanges = later.reverse ++ ⟨.getNode m.kind id, looked.1⟩ :: w.exchanges
      ∧ (∀ x ∈ later, ∀ order, x.call ≠ .verifyOrder order ∧ x.call ≠ .placeOrder order)
      ∧ (∀ e, looked.1 = .error e → later = [] ∧ out.1 = .error e)
      ∧ (∀ found, looked.1 = .ok found → Gone found →
        later = [] ∧ out.1 = .ok true ∧ out.2.sleeps = w.sleeps ∧ out.2.clock = w.clock
          ∧ ∀ kind, out.2.tracker kind = w.tracker kind)
      ∧ ∀ node, looked.1 = .ok (some node) → node.billingItem ≠ .null →
        (∃ e, m.powerOffFirst = true ∧ (m.powerOff node looked.2).1 = .error e
            ∧ out.1 = .error e ∧ ∀ x ∈ later, x.call.cancelled? = none)
          ∨ ∃ guard answer rest,
            later = guard ++ ⟨.cancelBillingItem node.billingItem, answer⟩ :: rest
              ∧ (∀ x ∈ guard ++ rest, x.call.cancelled? = none)
              ∧ (m.powerOffFirst = false → guard = [])
              ∧ (m.powerOffFirst = true →
                (m.powerOff node looked.2).1 = .ok () ∧ m.Halts node guard)
              ∧ ∀ gone, out.1 = .ok gone →
                gone = true ∧ (∃ b, answer = .ok b) ∧ m.Settles node rest := by
  obtain ⟨reply, remote, hlooked⟩ := Run.call_eq (.getNode m.kind id) w
  rw [hlooked]
  rcases destroy_cases hlooked with
    ⟨e, rfl, hrun⟩ | ⟨found, records, rfl, hgone, hrun⟩ | ⟨node, rfl, hbilled, hrun⟩
  · rw [hrun]
    refine ⟨[], rfl, fun _ => nofun, ?_, fun _ => nofun, fun _ => nofun⟩
    rintro _ ⟨⟩
    exact ⟨rfl, rfl⟩
  · rw [hrun]
    refine ⟨[], rfl, fun _ => nofun, fun _ => nofun,
      fun _ _ _ => ⟨rfl, rfl, rfl, rfl, fun _ => rfl⟩, ?_⟩
    rintro node ⟨⟩ hbilled
    exact absurd (hgone node rfl) hbilled
  · rw [hrun]
    obtain ⟨later, htrace, hdisposal⟩ := m.dispose_satisfies id node _
    refine ⟨later, htrace, hdisposal.orderless, fun _ => nofun, ?_, ?_⟩
    · rintro _ ⟨⟩ hgone
      exact absurd (hgone node rfl) hbilled
    · rintro _ ⟨⟩ -
      exact hdisposal.cancels_once

end Machine

end Provision
