import Provision.Proofs.Epochs

/-!
# Verdicts on candidates

The remote side gives a verdict on every order that it is asked to verify, and
its next verdict may depend on all that it was asked before. A rejection comes
with a reason; an acceptance and any other failure settle the selection.

`Remote.verdicts` are the verdicts on some orders in a row, the second side of
what is said here: the verdict that is the first to settle decides how the
selection ends, and no candidate behind it is looked at. If there is none, every
candidate is listed with the reason of its own rejection
(`selectOrder_first_accepted`). The orders are all made from one catalog, which
is looked up before the first of them is sent.
-/

namespace Provision

variable {τ : Type}

/-! ## Verdicts -/

/-- What an order that is sent for verification is answered with. -/
abbrev Verdict (τ : Type) : Type := Except (Failure τ) Unit

namespace Verdict

/-- The reason of a rejection. An acceptance has none, and no other failure counts as a rejection. -/
def reason? : Verdict τ → Option String
  | .error (.provider f) => if f.trouble = .rejection then some f.text else none
  | _ => none

/-- Whether the selection ends with this verdict. -/
def settles (v : Verdict τ) : Bool := (reason? v).isNone

theorem settles_eq_false_iff {v : Verdict τ} :
    settles v = false ↔ ∃ f, v = .error (.provider f) ∧ f.trouble = .rejection := by
  rcases v with e | _
  · cases e with
    | provider f => by_cases h : f.trouble = .rejection <;> simp [settles, reason?, h]
    | _ => simp [settles, reason?]
  · simp [settles, reason?]

end Verdict

/-- The verdicts on some orders, one after the other. -/
def Remote.verdicts (r : Remote τ) : List Order → List (Verdict τ)
  | [] => []
  | order :: rest =>
    (r.answer (.verifyOrder order)).1 :: (r.answer (.verifyOrder order)).2.verdicts rest

@[simp] theorem Remote.length_verdicts (r : Remote τ) (orders : List Order) :
    (r.verdicts orders).length = orders.length := by
  induction orders generalizing r with
  | nil => rfl
  | cons order rest ih => simp [verdicts, ih]

theorem orders_eq_nil {made : List (Exchange τ)} (h : ∀ x ∈ made, x.call.order? = none) :
    orders made = [] :=
  List.filterMap_eq_nil_iff.mpr h

/-- Some orders were sent for verification, and these were the verdicts. -/
def verifications (orders : List Order) (verdicts : List (Verdict τ)) : List (Exchange τ) :=
  List.zipWith (fun order verdict => ⟨.verifyOrder order, verdict⟩) orders verdicts

/-! ## One candidate -/

namespace Selector

variable {s : Selector} {template : Template} {catalog : Option Catalog} {all : List String}
  {rejections : List (String × String)} {candidate : String} {order : Order} {rest : List String}

/-- The world once an order was sent for verification. -/
def sent (order : Order) (w : World τ) : World τ := (Run.call (.verifyOrder order) w).2

theorem verifyFrom_judges (horder : template.order s.defaults candidate catalog = .ok order)
    (w : World τ) :
    s.verifyFrom template catalog all rejections (candidate :: rest) w
      = s.judge template catalog all rejections candidate order rest
          (w.remote.answer (.verifyOrder order)).1 (sent order w) := by
  rw [verifyFrom_cons, horder]
  rfl

theorem judge_rejected {f : ProviderFailure} (h : f.trouble = .rejection) (w : World τ) :
    s.judge template catalog all rejections candidate order rest (.error (.provider f)) w
      = s.verifyFrom template catalog all ((candidate, f.text) :: rejections) rest
          { w with records := rejectedRecord s.defaults.family candidate f.text :: w.records } := by
  show (if f.trouble = .rejection then _ else _ : Run τ _) w = _
  rw [if_pos h]
  rfl

/-- A verdict that settles the selection decides its result, and nobody is called any more. -/
theorem judge_settled (s : Selector) (template : Template) (catalog : Option Catalog)
    (all : List String) (rejections : List (String × String)) (candidate : String) (order : Order)
    (rest : List String) {verdict : Verdict τ} (h : verdict.settles = true) (w : World τ) :
    let out := s.judge template catalog all rejections candidate order rest verdict w
    out.1 = verdict.map (fun _ => (candidate, order)) ∧ out.2.exchanges = w.exchanges := by
  rcases verdict with e | _
  · cases e with
    | provider f =>
        have hother : ¬ f.trouble = .rejection := by
          intro hrejection
          simp [Verdict.settles, Verdict.reason?, hrejection] at h
        show ((if f.trouble = .rejection then _ else _ : Run τ _) w).1 = _
          ∧ ((if f.trouble = .rejection then _ else _ : Run τ _) w).2.exchanges = _
        rw [if_neg hother]
        exact ⟨rfl, rfl⟩
    | _ => exact ⟨rfl, rfl⟩
  · exact ⟨rfl, rfl⟩

/-! ## All candidates -/

/-- How a selection ends by the verdicts that are still to come, and what is sent until then. -/
structure EndsBy (all : List String) (rejections : List (String × String))
    (candidates : List String) (orders : List Order) (verdicts : List (Verdict τ))
    (r : Except (Failure τ) (String × Order)) (made : List (Exchange τ)) : Prop where
  settled : ∀ i, verdicts.findIdx? Verdict.settles = some i →
    made = (verifications orders verdicts).take (i + 1)
    ∧ (verdicts[i]? = some (.ok ()) → ∃ candidate order,
        candidates[i]? = some candidate ∧ orders[i]? = some order ∧ r = .ok (candidate, order))
    ∧ ∀ e, verdicts[i]? = some (.error e) → r = .error e
  exhausted : verdicts.findIdx? Verdict.settles = none →
    made = verifications orders verdicts
    ∧ ∃ reasons, verdicts.map Verdict.reason? = reasons.map some
      ∧ r = .error (.exhausted ⟨all, rejections.reverse ++ candidates.zip reasons⟩)

namespace EndsBy

variable {candidates : List String} {orders : List Order} {verdicts : List (Verdict τ)}

theorem of_none (all : List String) (rejections : List (String × String)) :
    EndsBy (τ := τ) all rejections [] [] [] (.error (.exhausted ⟨all, rejections.reverse⟩)) [] where
  settled := by simp
  exhausted := by
    intro _
    exact ⟨rfl, [], rfl, by simp⟩

theorem of_settles {verdict : Verdict τ} (h : verdict.settles = true) :
    EndsBy all rejections (candidate :: candidates) (order :: orders) (verdict :: verdicts)
      (verdict.map fun _ => (candidate, order)) [⟨.verifyOrder order, verdict⟩] := by
  have hfirst : (verdict :: verdicts).findIdx? Verdict.settles = some 0 := by
    simp [List.findIdx?_cons, h]
  constructor
  · intro i hi
    obtain rfl : 0 = i := by simpa [hfirst] using hi
    refine ⟨by simp [verifications], ?_, ?_⟩
    · rintro ⟨⟩
      exact ⟨candidate, order, rfl, rfl, rfl⟩
    · rintro e ⟨⟩
      rfl
  · rw [hfirst]
    nofun

/-- A rejection is one more line in the account of the rest. -/
theorem of_rejection {f : ProviderFailure} (hrejection : f.trouble = .rejection)
    {r : Except (Failure τ) (String × Order)} {made : List (Exchange τ)}
    (h : EndsBy all ((candidate, f.text) :: rejections) candidates orders verdicts r made) :
    EndsBy all rejections (candidate :: candidates) (order :: orders)
      (.error (.provider f) :: verdicts) r
      (⟨.verifyOrder order, .error (.provider f)⟩ :: made) := by
  have hreason : Verdict.reason? (.error (.provider f) : Verdict τ) = some f.text := by
    simp [Verdict.reason?, hrejection]
  have hlater : (.error (.provider f) :: verdicts).findIdx? Verdict.settles
      = (verdicts.findIdx? Verdict.settles).map (· + 1) := by
    simp [List.findIdx?_cons, Verdict.settles, hreason]
  constructor
  · intro i hi
    rw [hlater, Option.map_eq_some_iff] at hi
    obtain ⟨j, hj, rfl⟩ := hi
    obtain ⟨rfl, haccepted, hbroken⟩ := h.settled j hj
    exact ⟨rfl, by simpa using haccepted, by simpa using hbroken⟩
  · intro hnone
    rw [hlater, Option.map_eq_none_iff] at hnone
    obtain ⟨rfl, reasons, hreasons, rfl⟩ := h.exhausted hnone
    refine ⟨rfl, f.text :: reasons, ?_, by simp⟩
    rw [List.map_cons, List.map_cons, hreason, hreasons]

end EndsBy

theorem verifyFrom_endsBy (s : Selector) (template : Template) (catalog : Option Catalog)
    (all : List String) {candidates : List String} {orders : List Order}
    (horders : List.Forall₂ (fun candidate order =>
      template.order s.defaults candidate catalog = .ok order) candidates orders)
    (rejections : List (String × String)) (w : World τ) :
    let out := s.verifyFrom template catalog all rejections candidates w
    ∃ made, out.2.exchanges = made.reverse ++ w.exchanges
      ∧ EndsBy all rejections candidates orders (w.remote.verdicts orders) out.1 made := by
  induction horders generalizing rejections w with
  | nil => exact ⟨[], rfl, .of_none all rejections⟩
  | @cons candidate order candidates orders horder _ ih =>
      have hverdicts : w.remote.verdicts (order :: orders)
          = (w.remote.answer (.verifyOrder order)).1 :: (sent order w).remote.verdicts orders := rfl
      have hsent : (sent order w).exchanges
          = ⟨.verifyOrder order, (w.remote.answer (.verifyOrder order)).1⟩ :: w.exchanges := rfl
      rw [verifyFrom_judges horder, hverdicts]
      generalize (w.remote.answer (.verifyOrder order)).1 = verdict at hsent ⊢
      cases hsettles : Verdict.settles verdict with
      | true =>
          obtain ⟨hresult, hquiet⟩ :=
            s.judge_settled template catalog all rejections candidate order candidates hsettles
              (sent order w)
          refine ⟨[⟨.verifyOrder order, verdict⟩], hquiet.trans hsent, ?_⟩
          rw [hresult]
          exact .of_settles hsettles
      | false =>
          obtain ⟨f, rfl, hrejection⟩ := Verdict.settles_eq_false_iff.mp hsettles
          rw [judge_rejected hrejection]
          obtain ⟨made, htrace, hends⟩ := ih ((candidate, f.text) :: rejections)
            { sent order w with
              records := rejectedRecord s.defaults.family candidate f.text
                :: (sent order w).records }
          refine ⟨⟨.verifyOrder order, .error (.provider f)⟩ :: made, ?_, hends.of_rejection hrejection⟩
          rw [htrace, List.reverse_cons, List.append_assoc]
          exact congrArg (made.reverse ++ ·) hsent

/-! ## The catalog beforehand -/

/-- At most one call was made, and it asked for a catalog. -/
def Consults (made : List (Exchange τ)) : Prop :=
  made.length ≤ 1 ∧ ∀ x ∈ made, ∃ family, x.call = .listCatalogItems family

theorem consults_nil : Consults (τ := τ) [] := ⟨Nat.zero_le 1, fun _ => nofun⟩

theorem Consults.unordered {made : List (Exchange τ)} (h : Consults made) : orders made = [] := by
  refine orders_eq_nil fun x hx => ?_
  obtain ⟨family, hcall⟩ := h.2 x hx
  rw [hcall]
  rfl

theorem consults_of_looks_up {family : Int} {session : String} {w w' : World τ}
    {made : List (Exchange τ)} {r : Except (Failure τ) Catalog}
    (h : Run.LooksUp family session w made r w') : Consults made := by
  cases h with
  | held => exact consults_nil
  | _ => exact ⟨Nat.le_refl 1, List.forall_mem_singleton.mpr ⟨family, rfl⟩⟩

theorem catalogFor_consults (defaults : OrderDefaults) (source : Option CatalogSource) :
    (catalogFor defaults source : Run τ (Option Catalog)).Satisfies fun _ made _ _ =>
      Consults made := by
  have hsilent : ∀ catalog : Option Catalog, (pure catalog : Run τ (Option Catalog)).Satisfies
      fun _ made _ _ => Consults made := fun catalog w => ⟨[], rfl, consults_nil⟩
  cases source with
  | none => exact hsilent none
  | some source =>
      cases hextras : defaults.extraItems.isEmpty with
      | true =>
          simp only [catalogFor, hextras, if_true]
          exact hsilent none
      | false =>
          simp only [catalogFor, hextras, Bool.false_eq_true, if_false]
          cases source with
          | given catalog => exact hsilent (some catalog)
          | cached family session =>
              refine ((Run.fetch_looks_up family session).bind fun catalog =>
                Run.satisfies_pure (some catalog)).mono ?_
              intro w made r w' h
              cases h with
              | failed first => exact consults_of_looks_up first
              | went first second =>
                  obtain ⟨rfl, -, -⟩ := second
                  rw [List.append_nil]
                  exact consults_of_looks_up first

/-! ## The whole selection -/

theorem lastReason_zip {candidates reasons : List String}
    (h : reasons.length = candidates.length) :
    Exhaustion.lastReason ⟨candidates, candidates.zip reasons⟩ = reasons.getLast? := by
  rw [Exhaustion.lastReason, ← List.getLast?_map, List.map_snd_zip h.le]

/-- **The first verdict that settles the selection decides it.** At most one call asks for a
catalog, all others come after it and send orders for verification; none is placed. Where every
candidate has an order, take the verdicts on these orders in a row. If one of them is no rejection,
the first such verdict is the last one asked for: the selection gives its candidate and order if it
accepts, and fails as it does otherwise. If all are rejections, or there is no candidate, all orders
were sent, and the selection fails with the candidates, each with the reason of its rejection. -/
theorem selectOrder_first_accepted (s : Selector) (combinations : String) (template : Template)
    (w : World τ) :
    let candidates := Price.split combinations
    let looked := catalogFor s.defaults s.catalog w
    let out := s.selectOrder combinations template w
    ∃ consulted asked, looked.2.exchanges = consulted.reverse ++ w.exchanges
      ∧ out.2.exchanges = (consulted ++ asked).reverse ++ w.exchanges
      ∧ Consults consulted ∧ (∀ x ∈ asked, ∃ order, x.call = .verifyOrder order)
      ∧ orders (consulted ++ asked) = []
      ∧ ∀ catalog built, looked.1 = .ok catalog →
        candidates.mapM (template.order s.defaults · catalog) = .ok built →
          let verdicts := looked.2.remote.verdicts built
          let sent := verifications built verdicts
          (∀ i, verdicts.findIdx? Verdict.settles = some i →
            asked = sent.take (i + 1) ∧ asked.length = i + 1
            ∧ (verdicts[i]? = some (.ok ()) → ∃ candidate order,
                candidates[i]? = some candidate ∧ built[i]? = some order
                  ∧ out.1 = .ok (candidate, order))
            ∧ ∀ e, verdicts[i]? = some (.error e) → out.1 = .error e)
          ∧ (verdicts.findIdx? Verdict.settles = none →
            asked = sent ∧ asked.length = candidates.length
            ∧ ∃ reasons cause, verdicts.map Verdict.reason? = reasons.map some
              ∧ out.1 = .error (.exhausted cause) ∧ cause.candidates = candidates
              ∧ cause.rejections = candidates.zip reasons
              ∧ cause.lastReason = reasons.getLast?) := by
  intro candidates looked out
  obtain ⟨consulted, hconsulted, hconsults⟩ := catalogFor_consults s.defaults s.catalog w
  rcases hlooked : looked with ⟨e | catalog, w₁⟩
  · have hout : out = (.error e, w₁) := Run.bind_of_error hlooked
    rw [show (catalogFor s.defaults s.catalog w).2 = w₁ from congrArg Prod.snd hlooked] at hconsulted
    refine ⟨consulted, [], hconsulted, ?_, hconsults, fun _ => nofun, ?_, fun _ _ => nofun⟩
    · rw [hout, List.append_nil]
      exact hconsulted
    · rw [List.append_nil]
      exact hconsults.unordered
  · have hout : out = s.verifyFrom template catalog candidates [] candidates w₁ :=
      Run.bind_of_ok hlooked
    rw [show (catalogFor s.defaults s.catalog w).2 = w₁ from congrArg Prod.snd hlooked] at hconsulted
    obtain ⟨asked, hasked, hverified, -⟩ :=
      s.verifyFrom_keeps (Run.only_steady fun c => ∃ order, c = .verifyOrder order) template catalog
        candidates [] candidates (fun _ _ order _ => Run.call_only ⟨order, rfl⟩) w₁
    rw [← hout] at hasked
    refine ⟨consulted, asked, hconsulted, ?_, hconsults, hverified, ?_, ?_⟩
    · rw [hasked, hconsulted, List.reverse_append, List.append_assoc]
    · rw [orders_append, hconsults.unordered, List.nil_append]
      refine orders_eq_nil fun x hx => ?_
      obtain ⟨order, hcall⟩ := hverified x hx
      rw [hcall]
      rfl
    · rintro _ built ⟨⟩ hbuilt verdicts sent
      have hforall := forall₂_of_mapM_ok (fun _ _ h => h) hbuilt
      have hlength : built.length = candidates.length := hforall.length_eq.symm
      have hsent : sent.length = candidates.length := by
        simp [sent, verdicts, verifications, hlength]
      obtain ⟨made, hmade, hends⟩ :=
        s.verifyFrom_endsBy template catalog candidates hforall [] w₁
      rw [← hout] at hmade hends
      obtain rfl : asked = made := by
        rw [hasked] at hmade
        exact List.reverse_inj.mp (List.append_cancel_right hmade)
      constructor
      · intro i hi
        obtain ⟨hasked, haccepted, hbroken⟩ := hends.settled i hi
        refine ⟨hasked, ?_, haccepted, hbroken⟩
        have hbound : i < verdicts.length := (List.findIdx?_eq_some_iff_getElem.mp hi).1
        have hcount : verdicts.length = candidates.length := by simp [verdicts, hlength]
        rw [hasked, List.length_take]
        change min (i + 1) sent.length = i + 1
        omega
      · intro hnone
        obtain ⟨rfl, reasons, hreasons, hresult⟩ := hends.exhausted hnone
        have hcount : reasons.length = candidates.length := by
          have hsame := congrArg List.length hreasons
          simp only [List.length_map, Remote.length_verdicts] at hsame
          omega
        refine ⟨rfl, hsent, reasons, _, hreasons, hresult, rfl, rfl, ?_⟩
        exact lastReason_zip hcount

/-- The first of three candidates is rejected and the second accepted; the third is never sent. -/
theorem selectOrder_first_accepted_second :
    let s : Selector := { defaults := { family := 46, kind := .virtualGuest, extraPrices := [21] } }
    let template : Template :=
      { hostname := "web-1", domain := "example.com", hardwareId := "1,4;2,4;3,4" }
    let rejected : Failure Rat :=
      .provider { trouble := .rejection, provider := "softlayer", text := "Invalid" }
    let w : World Rat :=
      { remote := .scripted { verifyOrder := ⟨.error rejected, [.ok ()]⟩ }, clock := 0
        patience := 3 }
    let order (prices : List Int) : Order :=
      { family := 46, location := none, prices, targets := [⟨"web-1", "example.com", none⟩] }
    let built := [order [1, 4, 21], order [2, 4, 21], order [3, 4, 21]]
    (catalogFor s.defaults s.catalog w).1 = .ok none
      ∧ (Price.split "1,4;2,4;3,4").mapM (template.order s.defaults · none) = .ok built
      ∧ (w.remote.verdicts built).findIdx? Verdict.settles = some 1
      ∧ (s.selectOrder "1,4;2,4;3,4" template w).1 = .ok ("2,4", order [2, 4, 21])
      ∧ (s.selectOrder "1,4;2,4;3,4" template w).2.exchanges
        = [⟨.verifyOrder (order [2, 4, 21]), .ok ()⟩,
          ⟨.verifyOrder (order [1, 4, 21]), .error rejected⟩] := by
  intro s template rejected w order built
  have hbuilt : (Price.split "1,4;2,4;3,4").mapM (template.order s.defaults · none) = .ok built :=
    ok_of_toOption (by decide +kernel)
  have hsettled : (w.remote.verdicts built).findIdx? Verdict.settles = some 1 := rfl
  obtain ⟨consulted, asked, hlooked, htrace, -, -, -, hends⟩ :=
    s.selectOrder_first_accepted "1,4;2,4;3,4" template w
  obtain ⟨hasked, -, haccepted, -⟩ := (hends none built rfl hbuilt).1 1 hsettled
  obtain ⟨candidate, chosen, hcandidate, hchosen, hresult⟩ := haccepted rfl
  have hsecond : (Price.split "1,4;2,4;3,4")[1]? = some "2,4" := by decide +kernel
  obtain rfl : "2,4" = candidate := Option.some.inj (hsecond.symm.trans hcandidate)
  obtain rfl : order [2, 4, 21] = chosen := Option.some.inj hchosen
  obtain rfl : consulted = [] := Run.made_eq_nil hlooked
  refine ⟨rfl, hbuilt, hsettled, hresult, ?_⟩
  rw [htrace, hasked]
  rfl

end Selector

end Provision
