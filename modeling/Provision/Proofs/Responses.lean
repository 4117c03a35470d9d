import Provision.Proofs.Legibility
import Provision.Proofs.Verdicts

/-!
# Responses

Every outcome of a request belongs to one class: it is a value, or a failure of
one of five kinds. `Outcome.Sorted` is the table of these classes, in terms of
the status and the body alone, and `sorted_iff` says that a request comes to
what the table has for its outcome. No outcome is in two classes, and none is in
no class.

A selection that verifies its candidates over such a peer then follows the
responses: one that declines an order leads on to the next candidate, and every
other one is the last (`selectOrder_by_response`). The peer is any peer, and the
responses are those that it gives to the orders as they are sent, after whatever
it was asked before.
-/

namespace Provision

namespace Rest

/-! ## Classes of outcomes -/

/-- A status of success. -/
def Fulfils (status : Int) : Prop := 200 ≤ status ∧ status < 300

/-- A status of failure that has no meaning of its own. -/
def Refuses (status : Int) : Prop :=
  ¬ Fulfils status ∧ status ≠ 401 ∧ status ≠ 404 ∧ status ≠ 429

/-- A body in which the service reports an error: an object with a field for it. -/
def Reports (body : String) (fields : List (String × Value)) (error : Value) : Prop :=
  Json.read? body = some (.object fields) ∧ Value.lookup? "error" fields = some error
    ∧ error.truthy = true

namespace Outcome

variable {path : String} {outcome : Outcome} {status : Int} {body : String}

/-- The failure that is made of a reported error. -/
def rejection (status : Int) (fields : List (String × Value)) (error : Value) : ProviderFailure :=
  failure .rejection error.display
    [("code", Value.ofOption (Value.lookup? "code" fields)), ("status", .int status)]

/-- The classes of outcomes, each with what comes of it. -/
inductive Sorted (path : String) : Outcome → Except ProviderFailure Value → Prop
  | unauthorized (body : String) :
      Sorted path (.response 401 body) (.error (failure .authorization "Authentication failed"))
  | missing (body : String) :
      Sorted path (.response 404 body) (.error (failure .resource ("Resource not found: " ++ path)))
  | throttled (body : String) :
      Sorted path (.response 429 body) (.error (failure .quota "Rate limit exceeded"))
  | rejected {status : Int} {body : String} {fields : List (String × Value)} {error : Value}
      (hrefuses : Refuses status) (hreports : Reports body fields error) :
      Sorted path (.response status body) (.error (rejection status fields error))
  | refused {status : Int} {body : String} (hrefuses : Refuses status)
      (hsilent : ∀ fields error, ¬ Reports body fields error) :
      Sorted path (.response status body) (.error (failure .general s!"API error: HTTP {status}"))
  | broken (text : String) :
      Sorted path (.broken text) (.error (failure .general ("Request failed: " ++ text)))
  | garbled {status : Int} {body : String} (hfulfils : Fulfils status) (hbody : body ≠ "")
      (hread : Json.read? body = none) : Sorted path (.response status body)
        (.error (failure .general ("Invalid response from " ++ path)))
  | empty {status : Int} (hfulfils : Fulfils status) : Sorted path (.response status "") (.ok .null)
  | decoded {status : Int} {body : String} {v : Value} (hfulfils : Fulfils status)
      (hbody : body ≠ "") (hread : Json.read? body = some v) :
      Sorted path (.response status body) (.ok v)

theorem refusal_of_reports {fields : List (String × Value)} {error : Value}
    (h : Reports body fields error) : refusal status body = rejection status fields error := by
  obtain ⟨hread, herror, htruthy⟩ := h
  simp only [refusal, hread, herror, Value.ofOption, htruthy, if_true, rejection]

theorem refusal_of_silent (h : ∀ fields error, ¬ Reports body fields error) :
    refusal status body = failure .general s!"API error: HTTP {status}" := by
  unfold refusal
  split
  · rename_i fields hread
    have hfalse : ¬ (Value.ofOption (Value.lookup? "error" fields)).truthy = true := by
      intro htruthy
      cases herror : Value.lookup? "error" fields with
      | none => simp [herror, Value.ofOption, Value.truthy] at htruthy
      | some error =>
          rw [herror] at htruthy
          exact h fields error ⟨hread, herror, htruthy⟩
    exact if_neg hfalse
  · rfl

theorem result_of_refuses (h : Refuses status) :
    (response status body).result path = .error (refusal status body) := by
  obtain ⟨hfails, h401, h404, h429⟩ := h
  have hrest : status < 200 ∨ 300 ≤ status := by
    unfold Fulfils at hfails
    omega
  simp [result, h401, h404, h429, hrest]

theorem result_of_fulfils (h : Fulfils status) :
    (response status body).result path = if body = "" then .ok .null
      else (Json.read? body).elim (.error (failure .general ("Invalid response from " ++ path)))
        .ok := by
  obtain ⟨hlow, hhigh⟩ := h
  have hrest : ¬ (status < 200 ∨ 300 ≤ status) := by omega
  simp only [result, hrest, show status ≠ 401 by omega, show status ≠ 404 by omega,
    show status ≠ 429 by omega, beq_iff_eq, Bool.or_eq_true, decide_eq_true_eq, if_false]
  cases Json.read? body <;> rfl

theorem Sorted.result_eq {r : Except ProviderFailure Value} (h : Sorted path outcome r) :
    outcome.result path = r := by
  cases h with
  | unauthorized body => rfl
  | missing body => rfl
  | throttled body => rfl
  | rejected hrefuses hreports => rw [result_of_refuses hrefuses, refusal_of_reports hreports]
  | refused hrefuses hsilent => rw [result_of_refuses hrefuses, refusal_of_silent hsilent]
  | broken text => rfl
  | garbled hfulfils hbody hread =>
      rw [result_of_fulfils hfulfils, if_neg hbody, hread, Option.elim_none]
  | empty hfulfils => exact result_of_fulfils hfulfils
  | decoded hfulfils hbody hread =>
      rw [result_of_fulfils hfulfils, if_neg hbody, hread, Option.elim_some]

/-- Every outcome is in a class. -/
theorem sorted_result (path : String) (outcome : Outcome) :
    Sorted path outcome (outcome.result path) := by
  have hsorted {r : Except ProviderFailure Value} (h : Sorted path outcome r) :
      Sorted path outcome (outcome.result path) := h.result_eq ▸ h
  cases outcome with
  | broken text => exact hsorted (.broken text)
  | response status body =>
      by_cases hfulfils : Fulfils status
      · by_cases hbody : body = ""
        · subst hbody
          exact hsorted (.empty hfulfils)
        · cases hread : Json.read? body with
          | none => exact hsorted (.garbled hfulfils hbody hread)
          | some v => exact hsorted (.decoded hfulfils hbody hread)
      · by_cases hrefuses : Refuses status
        · by_cases hreports : ∃ fields error, Reports body fields error
          · obtain ⟨fields, error, hreports⟩ := hreports
            exact hsorted (.rejected hrefuses hreports)
          · push Not at hreports
            exact hsorted (.refused hrefuses hreports)
        · have hmeant : status = 401 ∨ status = 404 ∨ status = 429 := by
            unfold Refuses at hrefuses
            tauto
          rcases hmeant with rfl | rfl | rfl
          · exact hsorted (.unauthorized body)
          · exact hsorted (.missing body)
          · exact hsorted (.throttled body)

theorem sorted_iff {r : Except ProviderFailure Value} :
    Sorted path outcome r ↔ outcome.result path = r := by
  constructor
  · exact Sorted.result_eq
  · rintro rfl
    exact sorted_result path outcome

/-- A request fails in a certain way. -/
def Fails (path : String) (outcome : Outcome) (trouble : ProviderTrouble) : Prop :=
  ∃ f, outcome.result path = .error f ∧ f.trouble = trouble

/-- Which outcomes lead to which failure, and which to a value. -/
structure Classified (path : String) (outcome : Outcome) : Prop where
  unauthorized : outcome.Fails path .authorization ↔ ∃ body, outcome = .response 401 body
  missing : outcome.Fails path .resource ↔ ∃ body, outcome = .response 404 body
  throttled : outcome.Fails path .quota ↔ ∃ body, outcome = .response 429 body
  rejected : ∀ f, (outcome.result path = .error f ∧ f.trouble = .rejection) ↔
    ∃ status body fields error, outcome = .response status body ∧ Refuses status
      ∧ Reports body fields error ∧ f = rejection status fields error
  general : outcome.Fails path .general ↔
    (∃ text, outcome = .broken text)
    ∨ (∃ status body, outcome = .response status body ∧ Refuses status
      ∧ ∀ fields error, ¬ Reports body fields error)
    ∨ ∃ status body, outcome = .response status body ∧ Fulfils status ∧ body ≠ ""
      ∧ Json.read? body = none
  returned : ∀ v, outcome.result path = .ok v ↔
    ∃ status body, outcome = .response status body ∧ Fulfils status
      ∧ ((body = "" ∧ v = .null) ∨ (body ≠ "" ∧ Json.read? body = some v))

theorem Sorted.fails {f : ProviderFailure} (h : Sorted path outcome (.error f)) :
    outcome.Fails path f.trouble :=
  ⟨f, sorted_iff.mp h, rfl⟩

theorem classified (path : String) (outcome : Outcome) : Classified path outcome where
  unauthorized := by
    constructor
    · rintro ⟨f, hresult, htrouble⟩
      cases sorted_iff.mpr hresult with
      | unauthorized body => exact ⟨body, rfl⟩
      | _ => cases htrouble
    · rintro ⟨body, rfl⟩
      exact (Sorted.unauthorized body).fails
  missing := by
    constructor
    · rintro ⟨f, hresult, htrouble⟩
      cases sorted_iff.mpr hresult with
      | missing body => exact ⟨body, rfl⟩
      | _ => cases htrouble
    · rintro ⟨body, rfl⟩
      exact (Sorted.missing body).fails
  throttled := by
    constructor
    · rintro ⟨f, hresult, htrouble⟩
      cases sorted_iff.mpr hresult with
      | throttled body => exact ⟨body, rfl⟩
      | _ => cases htrouble
    · rintro ⟨body, rfl⟩
      exact (Sorted.throttled body).fails
  rejected f := by
    constructor
    · rintro ⟨hresult, htrouble⟩
      cases sorted_iff.mpr hresult with
      | rejected hrefuses hreports => exact ⟨_, _, _, _, rfl, hrefuses, hreports, rfl⟩
      | _ => cases htrouble
    · rintro ⟨status, body, fields, error, rfl, hrefuses, hreports, rfl⟩
      exact ⟨(Sorted.rejected hrefuses hreports).result_eq, rfl⟩
  general := by
    constructor
    · rintro ⟨f, hresult, htrouble⟩
      cases sorted_iff.mpr hresult with
      | broken text => exact .inl ⟨text, rfl⟩
      | refused hrefuses hsilent => exact .inr (.inl ⟨_, _, rfl, hrefuses, hsilent⟩)
      | garbled hfulfils hbody hread => exact .inr (.inr ⟨_, _, rfl, hfulfils, hbody, hread⟩)
      | _ => cases htrouble
    · rintro (⟨text, rfl⟩ | ⟨status, body, rfl, hrefuses, hsilent⟩
        | ⟨status, body, rfl, hfulfils, hbody, hread⟩)
      · exact (Sorted.broken text).fails
      · exact (Sorted.refused hrefuses hsilent).fails
      · exact (Sorted.garbled hfulfils hbody hread).fails
  returned v := by
    rw [← sorted_iff]
    constructor
    · intro h
      cases h with
      | empty hfulfils => exact ⟨_, _, rfl, hfulfils, .inl ⟨rfl, rfl⟩⟩
      | decoded hfulfils hbody hread => exact ⟨_, _, rfl, hfulfils, .inr ⟨hbody, hread⟩⟩
    · rintro ⟨status, body, rfl, hfulfils, ⟨rfl, rfl⟩ | ⟨hbody, hread⟩⟩
      · exact .empty hfulfils
      · exact .decoded hfulfils hbody hread

/-! ## Responses to orders -/

/-- A response that declines what was asked for, with the reason that it gives. -/
def Declines (outcome : Outcome) (reason : String) : Prop :=
  ∃ status body fields error, outcome = .response status body ∧ Refuses status
    ∧ Reports body fields error ∧ reason = error.display

/-- Where orders are sent for verification. -/
def verifyPath : String := "/SoftLayer_Product_Order/verifyOrder.json"

/-- The verdict on an order, by the outcome of its verification. -/
def verdict {τ : Type} (outcome : Outcome) : Verdict τ :=
  match outcome.result verifyPath with
  | .ok _ => .ok ()
  | .error f => .error (.provider f)

theorem reply_verifyOrder {τ : Type} (order : Order) (outcome : Outcome) :
    (reply (.verifyOrder order) outcome : Verdict τ) = outcome.verdict := by
  have hpath : (request (.verifyOrder order)).path = verifyPath := rfl
  unfold reply settle verdict
  rw [hpath]
  cases outcome.result verifyPath with
  | ok v => rfl
  | error f =>
      cases hf : f.trouble <;> simp [hf, notFound?]

theorem Declines.verdict_eq {τ : Type} {reason : String} (h : outcome.Declines reason) :
    ∃ f : ProviderFailure, (outcome.verdict : Verdict τ) = .error (.provider f)
      ∧ f.trouble = .rejection ∧ f.text = reason := by
  obtain ⟨status, body, fields, error, rfl, hrefuses, hreports, rfl⟩ := h
  refine ⟨rejection status fields error, ?_, rfl, rfl⟩
  rw [verdict, (Sorted.rejected hrefuses hreports).result_eq]

/-- Only a response that declines is a rejection. -/
theorem declines_iff {τ : Type} {reason : String} :
    outcome.Declines reason ↔ (outcome.verdict : Verdict τ).reason? = some reason := by
  constructor
  · intro h
    obtain ⟨f, hverdict, htrouble, rfl⟩ := h.verdict_eq (τ := τ)
    rw [hverdict]
    exact if_pos htrouble
  · intro h
    have hrejects : (outcome.verdict : Verdict τ).settles = false := by
      rw [Verdict.settles, h]
      rfl
    obtain ⟨f, hverdict, htrouble⟩ := Verdict.settles_eq_false_iff.mp hrejects
    rw [hverdict, Verdict.reason?, if_pos htrouble] at h
    cases h
    unfold verdict at hverdict
    split at hverdict
    · cases hverdict
    · rename_i f' hresult
      cases hverdict
      obtain ⟨status, body, fields, error, houtcome, hrefuses, hreports, rfl⟩ :=
        ((classified verifyPath outcome).rejected f).mp ⟨hresult, htrouble⟩
      exact ⟨status, body, fields, error, houtcome, hrefuses, hreports, rfl⟩

theorem settles_of_accepts {τ : Type} (h : ¬ ∃ reason, outcome.Declines reason) :
    (outcome.verdict : Verdict τ).settles = true := by
  rw [Verdict.settles, Option.isNone_iff_eq_none, Option.eq_none_iff_forall_not_mem]
  exact fun reason hreason => h ⟨reason, declines_iff.mpr hreason⟩

end Outcome

/-! ## Peers -/

namespace Peer

/-- The peer once some calls were made to it. -/
def after (p : Peer) (calls : List Call) : Peer :=
  calls.foldl (fun p call => (p.answer (request call)).2) p

/-- The outcomes of verifying some orders, one after the other. -/
def verifying (p : Peer) : List Order → List Outcome
  | [] => []
  | order :: rest =>
    (p.answer (request (.verifyOrder order))).1 :: (p.after [.verifyOrder order]).verifying rest

theorem verifying_take (p : Peer) (orders : List Order) (n : Nat) :
    p.verifying (orders.take n) = (p.verifying orders).take n := by
  induction orders generalizing p n with
  | nil => rw [List.take_nil, verifying, List.take_nil]
  | cons order orders ih =>
      cases n with
      | zero => rfl
      | succ n => exact congrArg (_ :: ·) (ih _ n)

@[simp] theorem length_verifying (p : Peer) (orders : List Order) :
    (p.verifying orders).length = orders.length := by
  induction orders generalizing p with
  | nil => rfl
  | cons order orders ih => exact congrArg (· + 1) (ih _)

end Peer

theorem remote_answer {τ : Type} (peer : Peer) (call : Call) :
    (remote peer : Remote τ).answer call
      = (reply call (peer.answer (request call)).1, remote (peer.after [call])) := rfl

/-- The remote side is the peer, as it is after the calls that were made. -/
def OverPeer {τ : Type} : Run.Frame τ := fun w made w' =>
  ∀ peer, w.remote = remote peer → w'.remote = remote (peer.after (made.map Exchange.call))

theorem overPeer_listing {τ : Type} : Run.Listing (OverPeer : Run.Frame τ) where
  steady :=
    { idle _ _ _ _ _ h := h
      trans := by
        intro w made w₁ made' w' h h' peer hpeer
        rw [List.map_append, Peer.after, List.foldl_append]
        exact h' _ (h peer hpeer) }
  listed family w := by
    refine ⟨[_], rfl, fun peer hpeer => ?_⟩
    show (w.remote.answer _).2 = _
    rw [hpeer]
    rfl
  cached cache w := ⟨[], rfl, fun peer hpeer => hpeer⟩

end Rest

/-! ## Selection over a peer -/

namespace Selector

open Rest

variable {τ : Type}

/-- How a selection ends that has sent some orders and got these outcomes: one candidate was left
after the other, each declined, until there was none, or none that an order can be made for, or one
that was not declined. -/
inductive Ends (s : Selector) (template : Template) (catalog : Option Catalog) (all : List String)
    (rejections : List (String × String)) (candidates : List String) :
    List Order → List Outcome → Except (Failure τ) (String × Order) → Prop
  | exhausted {built : List Order} {outcomes : List Outcome} {reasons : List String}
      (hall : built.length = candidates.length)
      (hdeclined : List.Forall₂ Outcome.Declines outcomes reasons) :
      Ends s template catalog all rejections candidates built outcomes
        (.error (.exhausted ⟨all, rejections.reverse ++ candidates.zip reasons⟩))
  | unmade {built : List Order} {outcomes : List Outcome} {candidate : String} {fault : Fault}
      (hdeclined : ∀ outcome ∈ outcomes, ∃ reason, outcome.Declines reason)
      (hnext : candidates[built.length]? = some candidate)
      (hfault : template.order s.defaults candidate catalog = .error fault) :
      Ends s template catalog all rejections candidates built outcomes (.error (.fault fault))
  | stopped {built : List Order} {earlier : List Outcome} {last : Outcome} {candidate : String}
      {order : Order} (hdeclined : ∀ outcome ∈ earlier, ∃ reason, outcome.Declines reason)
      (hlast : ¬ ∃ reason, last.Declines reason)
      (hcandidate : candidates[earlier.length]? = some candidate)
      (horder : built[earlier.length]? = some order) :
      Ends s template catalog all rejections candidates built (earlier ++ [last])
        (last.verdict.map fun _ => (candidate, order))

variable {s : Selector} {template : Template} {catalog : Option Catalog} {all : List String}
  {rejections : List (String × String)} {candidate : String} {candidates : List String}
  {order : Order} {built : List Order} {outcome : Outcome} {outcomes : List Outcome}
  {r : Except (Failure τ) (String × Order)}

theorem verifications_cons (order : Order) (orders : List Order) (verdict : Verdict τ)
    (verdicts : List (Verdict τ)) : verifications (order :: orders) (verdict :: verdicts)
      = ⟨.verifyOrder order, verdict⟩ :: verifications orders verdicts := rfl

/-- A candidate that was declined comes before the others. -/
theorem Ends.declined {reason : String} (hdeclines : outcome.Declines reason)
    (h : Ends s template catalog all ((candidate, reason) :: rejections) candidates built outcomes r) :
    Ends s template catalog all rejections (candidate :: candidates) (order :: built)
      (outcome :: outcomes) r := by
  cases h with
  | @exhausted _ reasons hall hdeclined =>
      have haccount : ((candidate, reason) :: rejections).reverse ++ candidates.zip reasons
          = rejections.reverse ++ (candidate :: candidates).zip (reason :: reasons) := by simp
      rw [haccount]
      exact .exhausted (by simpa using hall) (.cons hdeclines hdeclined)
  | unmade hdeclined hnext hfault =>
      exact .unmade (List.forall_mem_cons.mpr ⟨⟨reason, hdeclines⟩, hdeclined⟩) hnext hfault
  | stopped hdeclined hlast hcandidate horder =>
      rw [← List.cons_append]
      exact .stopped
        (List.forall_mem_cons.mpr ⟨⟨reason, hdeclines⟩, hdeclined⟩) hlast hcandidate horder

/-- A response that does not decline is the last one. -/
theorem Ends.stops (h : Ends s template catalog all rejections candidates built outcomes r) {k : Nat}
    (hk : outcomes[k]? = some outcome) (haccepts : ¬ ∃ reason, outcome.Declines reason) :
    outcomes.length = k + 1 ∧ ∃ candidate order, candidates[k]? = some candidate
      ∧ built[k]? = some order ∧ r = outcome.verdict.map fun _ => (candidate, order) := by
  have hmem := List.mem_of_getElem? hk
  cases h with
  | exhausted _ hdeclined =>
      obtain ⟨reason, -, hreason⟩ := exists_of_forall₂ hdeclined.flip hmem
      exact absurd ⟨reason, hreason⟩ haccepts
  | unmade hdeclined _ _ => exact absurd (hdeclined outcome hmem) haccepts
  | @stopped earlier last candidate order hdeclined _ hcandidate horder =>
      have hlast : ¬ k < earlier.length := by
        intro hlt
        rw [List.getElem?_append_left hlt] at hk
        exact haccepts (hdeclined outcome (List.mem_of_getElem? hk))
      rw [List.getElem?_append_right (Nat.le_of_not_lt hlast), List.getElem?_singleton] at hk
      split_ifs at hk with hend
      cases hk
      obtain rfl : k = earlier.length := by omega
      exact ⟨List.length_append, candidate, order, hcandidate, horder, rfl⟩

/-- Where there is an order for every candidate and all responses decline, none is left out. -/
theorem Ends.goes_on (h : Ends s template catalog all rejections candidates built outcomes r)
    (hmade : ∀ candidate ∈ candidates, ∃ order,
      template.order s.defaults candidate catalog = .ok order)
    (hdeclined : ∀ outcome ∈ outcomes, ∃ reason, outcome.Declines reason) :
    built.length = candidates.length := by
  cases h with
  | exhausted hall _ => exact hall
  | unmade _ hnext hfault =>
      obtain ⟨order, horder⟩ := hmade _ (List.mem_of_getElem? hnext)
      cases horder.symm.trans hfault
  | stopped _ hlast _ _ =>
      exact absurd (hdeclined _ (List.mem_append_right _ (List.mem_singleton_self _))) hlast

/-- Where there is an order for every candidate, the first response that does not decline is the
last one: the orders up to it are sent. -/
theorem Ends.stops_first {peer : Peer} {orders : List Order}
    (h : Ends s template catalog all rejections candidates built (peer.verifying built) r)
    (hmade : List.Forall₂ (fun candidate order =>
      template.order s.defaults candidate catalog = .ok order) candidates orders)
    (hbuilt : List.Forall₂ (fun candidate order =>
      template.order s.defaults candidate catalog = .ok order) (candidates.take built.length) built)
    {k : Nat} (hdeclined : ∀ earlier ∈ (peer.verifying orders).take k,
      ∃ reason, earlier.Declines reason)
    (hk : (peer.verifying orders)[k]? = some outcome)
    (haccepts : ¬ ∃ reason, outcome.Declines reason) :
    built = orders.take (k + 1) ∧ ∃ candidate order, candidates[k]? = some candidate
      ∧ orders[k]? = some order ∧ r = outcome.verdict.map fun _ => (candidate, order) := by
  have hbegun : built = orders.take built.length :=
    Relator.RightUnique.forall₂ (fun _ _ _ h h' => Except.ok.inj (h.symm.trans h')) hbuilt
      (List.forall₂_take built.length hmade)
  have houtcomes : peer.verifying built = (peer.verifying orders).take built.length := by
    conv_lhs => rw [hbegun, Peer.verifying_take]
  have hwithin : k < orders.length := by
    have hlt := (List.getElem?_eq_some_iff.mp hk).1
    rwa [Peer.length_verifying] at hlt
  have hbeyond : k < built.length := by
    by_contra hshort
    have hall : ∀ candidate ∈ candidates, ∃ order,
        template.order s.defaults candidate catalog = .ok order := by
      intro candidate hcandidate
      obtain ⟨order, -, horder⟩ := exists_of_forall₂ hmade.flip hcandidate
      exact ⟨order, horder⟩
    have hlength := h.goes_on hall fun earlier hearlier => by
      rw [houtcomes] at hearlier
      exact hdeclined earlier (List.take_subset_take_left _ (Nat.le_of_not_lt hshort) hearlier)
    have hsame := hmade.length_eq
    omega
  have hreached : (peer.verifying built)[k]? = some outcome := by
    rw [houtcomes, List.getElem?_take_of_lt hbeyond, hk]
  obtain ⟨hlast, candidate, order, hcandidate, horder, hresult⟩ := h.stops hreached haccepts
  rw [Peer.length_verifying] at hlast
  rw [hlast] at hbegun
  rw [hbegun, List.getElem?_take_of_lt (Nat.lt_succ_self k)] at horder
  exact ⟨hbegun, candidate, order, hcandidate, horder, hresult⟩

/-- An order that is sent to a peer is judged by its response. -/
theorem sent_over_peer {peer : Peer} {w : World τ} (hpeer : w.remote = remote peer)
    (houtcome : (peer.answer (request (.verifyOrder order))).1 = outcome) :
    (w.remote.answer (.verifyOrder order)).1 = outcome.verdict
      ∧ (sent order w).exchanges = ⟨.verifyOrder order, outcome.verdict⟩ :: w.exchanges
      ∧ (sent order w).remote = remote (peer.after [.verifyOrder order]) := by
  have hanswer : (w.remote.answer (.verifyOrder order)).1 = outcome.verdict := by
    rw [hpeer, remote_answer, houtcome]
    exact Outcome.reply_verifyOrder order outcome
  refine ⟨hanswer, ?_, ?_⟩
  · rw [← hanswer]
    rfl
  · show (w.remote.answer _).2 = _
    rw [hpeer]
    rfl

/-- What a selection over a peer sends, and how it ends. -/
theorem verifyFrom_over_peer (s : Selector) (template : Template) (catalog : Option Catalog)
    (all : List String) (candidates : List String) (rejections : List (String × String))
    (peer : Peer) (w : World τ) (hpeer : w.remote = remote peer) :
    let out := s.verifyFrom template catalog all rejections candidates w
    ∃ built, List.Forall₂ (fun candidate order =>
        template.order s.defaults candidate catalog = .ok order) (candidates.take built.length) built
      ∧ out.2.exchanges
        = (verifications built ((peer.verifying built).map Outcome.verdict)).reverse ++ w.exchanges
      ∧ Ends s template catalog all rejections candidates built (peer.verifying built) out.1 := by
  induction candidates generalizing rejections peer w with
  | nil =>
      refine ⟨[], .nil, rfl, ?_⟩
      have hends : Ends s template catalog all rejections [] [] []
          (.error (.exhausted ⟨all, rejections.reverse ++ [].zip []⟩) : Except (Failure τ) _) :=
        .exhausted rfl .nil
      rw [List.zip_nil_left, List.append_nil] at hends
      exact hends
  | cons candidate candidates ih =>
      cases horder : template.order s.defaults candidate catalog with
      | error fault =>
          have hout : s.verifyFrom template catalog all rejections (candidate :: candidates) w
              = (.error (.fault fault), w) := by
            rw [verifyFrom_cons, horder]
            rfl
          rw [hout]
          exact ⟨[], .nil, rfl, .unmade (fun _ => nofun) rfl horder⟩
      | ok order =>
          obtain ⟨outcome, houtcome⟩ :
              ∃ outcome, (peer.answer (request (.verifyOrder order))).1 = outcome := ⟨_, rfl⟩
          obtain ⟨hanswer, hsent, hpeer'⟩ := sent_over_peer hpeer houtcome
          have hverifying (built : List Order) : peer.verifying (order :: built)
              = outcome :: (peer.after [.verifyOrder order]).verifying built := by
            rw [← houtcome]
            rfl
          rw [verifyFrom_judges horder, hanswer]
          by_cases hdeclines : ∃ reason, outcome.Declines reason
          · obtain ⟨reason, hdeclines⟩ := hdeclines
            obtain ⟨f, hverdict, htrouble, rfl⟩ := hdeclines.verdict_eq (τ := τ)
            rw [hverdict, judge_rejected htrouble]
            obtain ⟨built, hbuilt, htrace, hends⟩ := ih ((candidate, f.text) :: rejections)
              (peer.after [.verifyOrder order])
              { sent order w with
                records := rejectedRecord s.defaults.family candidate f.text
                  :: (sent order w).records } hpeer'
            refine ⟨order :: built, .cons horder hbuilt, ?_, ?_⟩
            · rw [htrace, hverifying, List.map_cons, verifications_cons, List.reverse_cons,
                List.append_assoc]
              exact congrArg (_ ++ ·) hsent
            · rw [hverifying]
              exact hends.declined hdeclines
          · have hsettles := Outcome.settles_of_accepts (τ := τ) hdeclines
            obtain ⟨hresult, hquiet⟩ :=
              s.judge_settled template catalog all rejections candidate order candidates hsettles
                (sent order w)
            refine ⟨[order], .cons horder .nil, ?_, ?_⟩
            · rw [hquiet, hsent, hverifying]
              rfl
            · have hlast : outcome :: (peer.after [.verifyOrder order]).verifying []
                  = [] ++ [outcome] := rfl
              rw [hresult, hverifying, hlast]
              exact .stopped (fun _ => nofun) hdeclines rfl rfl

/-- **Outcomes of requests, and what a selection does on them.** Every outcome is classified by its
status and body alone: three statuses of their own, other failures that report an error or do not,
failures on the way, bodies that cannot be read, and values. A selection over a peer, after it has
looked up the catalog if it needs one, sends the orders of its candidates in a row. It goes on after
a response that declines the order and after no other: the result is that of the first outcome that
does not decline, and where there is none, all candidates were sent, unless for one of them there is
no order. -/
theorem selectOrder_by_response (s : Selector) (combinations : String) (template : Template)
    (peer : Peer) (w : World τ) :
    (∀ path outcome, Outcome.Classified path outcome)
      ∧ let start := { w with remote := remote peer }
        let candidates := Price.split combinations
        let looked := catalogFor s.defaults s.catalog start
        let out := s.selectOrder combinations template start
        ∃ consulted, Consults consulted ∧ looked.2.exchanges = consulted.reverse ++ w.exchanges
          ∧ (∀ e, looked.1 = .error e → out = (.error e, looked.2))
          ∧ ∀ catalog, looked.1 = .ok catalog → ∃ built,
            List.Forall₂ (fun candidate order =>
              template.order s.defaults candidate catalog = .ok order)
              (candidates.take built.length) built
            ∧ let outcomes := (peer.after (consulted.map Exchange.call)).verifying built
              out.2.exchanges
                = (consulted ++ verifications built (outcomes.map Outcome.verdict)).reverse
                  ++ w.exchanges
              ∧ Ends s template catalog candidates [] candidates built outcomes out.1 := by
  refine ⟨Outcome.classified, ?_⟩
  intro start candidates looked out
  obtain ⟨consulted, hconsulted, hconsults, hpeer⟩ :=
    (catalogFor_consults s.defaults s.catalog).and (overPeer_listing.catalogFor s.defaults s.catalog)
      start
  refine ⟨consulted, hconsults, hconsulted, fun e he => ?_, fun catalog hcatalog => ?_⟩
  · exact Run.bind_of_error (Prod.ext he rfl)
  · have hout : out = s.verifyFrom template catalog candidates [] candidates looked.2 :=
      Run.bind_of_ok (Prod.ext hcatalog rfl)
    obtain ⟨built, hbuilt, htrace, hends⟩ :=
      s.verifyFrom_over_peer template catalog candidates candidates []
        (peer.after (consulted.map Exchange.call)) looked.2 (hpeer peer rfl)
    refine ⟨built, hbuilt, ?_, hout ▸ hends⟩
    rw [hout, htrace, hconsulted, List.reverse_append, List.append_assoc]

/-- The first order is declined and the second one is not, so the third one is never sent. -/
theorem selectOrder_by_response_second :
    let s : Selector := { defaults := { family := 46, kind := .virtualGuest } }
    let template : Template :=
      { hostname := "web-1", domain := "example.com", hardwareId := "1;2;3" }
    let declining : Outcome := .response 500 "\x7b\"error\": \"Sold out\"\x7d"
    let accepting : Outcome := .response 200 "true"
    let peer : Peer := ⟨Bool, false, fun asked _ => (if asked then accepting else declining, true)⟩
    let w : World Rat := { remote := .scripted {}, clock := 0, patience := 3 }
    let order (price : Int) : Order :=
      { family := 46, location := none, prices := [price]
        targets := [⟨"web-1", "example.com", none⟩] }
    let out := s.selectOrder "1;2;3" template { w with remote := remote peer }
    declining.Declines "Sold out" ∧ (¬ ∃ reason, accepting.Declines reason)
      ∧ out.1 = .ok ("2", order 2)
      ∧ out.2.exchanges
        = [⟨.verifyOrder (order 2), .ok ()⟩, ⟨.verifyOrder (order 1), declining.verdict⟩] := by
  intro s template declining accepting peer w order out
  have hdeclines : declining.Declines "Sold out" :=
    Outcome.declines_iff.mpr (by decide +kernel : (declining.verdict : Verdict Rat).reason? = _)
  have haccepted : (accepting.verdict : Verdict Rat) = .ok () := ok_of_toOption (by decide +kernel)
  have haccepts : ¬ ∃ reason, accepting.Declines reason := by
    rintro ⟨reason, hreason⟩
    rw [Outcome.declines_iff, haccepted] at hreason
    cases hreason
  have hsplit : Price.split "1;2;3" = ["1", "2", "3"] := by decide +kernel
  have hmade : List.Forall₂ (fun candidate order => template.order s.defaults candidate none
      = .ok order) (Price.split "1;2;3") [order 1, order 2, order 3] :=
    mapM_eq_ok_iff.mp (ok_of_toOption (by decide +kernel))
  obtain ⟨-, consulted, -, hlooked, -, hlaw⟩ := s.selectOrder_by_response "1;2;3" template peer w
  obtain ⟨built, hbuilt, htrace, hends⟩ := hlaw none rfl
  obtain rfl : consulted = [] := Run.made_eq_nil hlooked
  have houtcomes : peer.verifying [order 1, order 2, order 3] = [declining, accepting, accepting] :=
    rfl
  have hfirst : ∀ earlier ∈ (peer.verifying [order 1, order 2, order 3]).take 1,
      ∃ reason, earlier.Declines reason := by
    rw [houtcomes]
    exact List.forall_mem_singleton.mpr ⟨_, hdeclines⟩
  have hsecond : (peer.verifying [order 1, order 2, order 3])[1]? = some accepting := rfl
  obtain ⟨rfl, candidate, chosen, hcandidate, hchosen, hresult⟩ :=
    hends.stops_first hmade hbuilt hfirst hsecond haccepts
  rw [hsplit] at hcandidate
  cases hcandidate
  cases hchosen
  rw [haccepted] at hresult
  have hsent : [order 1, order 2, order 3].take (1 + 1) = [order 1, order 2] := rfl
  have hnone : ([] : List (Exchange Rat)).map Exchange.call = [] := rfl
  have hverdicts : ((peer.after []).verifying [order 1, order 2]).map Outcome.verdict
      = ([declining.verdict, .ok ()] : List (Verdict Rat)) := by
    rw [← haccepted]
    rfl
  refine ⟨hdeclines, haccepts, hresult, ?_⟩
  rw [htrace, hsent, hnone, hverdicts]
  rfl

end Selector

end Provision
