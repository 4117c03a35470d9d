import Provision.Proofs.Workflow

/-!
# Gates

What the actions of the stages do. Each one ends in a `Gate`: either its last
call lets the run pass to the next phase, or there is one of the known reasons
to stop. A wait gets its gate from its check (`await_gate`), which need only
say what a single look can see (`Glimpse`). No action places an order, but for
the one that is there to do so, and none touches the progress record.
-/

namespace Provision

variable {τ α β : Type}

theorem Value.same_text_iff (v : Value) (s : String) : v.same (.text s) = true ↔ v = .text s := by
  cases v with
  | text t => rw [Value.same_text, beq_iff_eq, Value.text.injEq]
  | _ => simp [Value.same, Value.sameNumber?]

theorem Value.isNull_eq_false {v : Value} (h : v ≠ .null) : v.isNull = false := by
  cases v with
  | null => exact absurd rfl h
  | _ => rfl

theorem Node.goesBy_iff (node : Node) (template : Template) :
    node.goesBy template.hostname template.domain = true ↔ node.Fits template := by
  unfold Node.goesBy Node.Fits
  rw [Bool.and_eq_true, Bool.or_eq_true, Bool.or_eq_true, Value.same_text_iff,
    Value.same_text_iff, beq_iff_eq, Bool.not_eq_true', or_assoc]

theorem firstFit_of_find? {template : Template} {nodes : List Node} {node : Node}
    (h : nodes.find? (·.goesBy template.hostname template.domain) = some node) :
    FirstFit template nodes node := by
  obtain ⟨hfits, before, after, rfl, hbefore⟩ := List.find?_eq_some_iff_append.mp h
  refine ⟨before, after, rfl, (node.goesBy_iff template).mp hfits, fun other hother hfit => ?_⟩
  have hmiss := hbefore other hother
  rw [(other.goesBy_iff template).mpr hfit] at hmiss
  cases hmiss

theorem failing_single (c : Call) (e : Failure τ) : Failing [(⟨c, .error e⟩ : Exchange τ)] :=
  ⟨[], c, e, rfl⟩

theorem Failing.after {made : List (Exchange τ)} (h : Failing made)
    (before : List (Exchange τ)) : Failing (before ++ made) := by
  obtain ⟨earlier, c, e, rfl⟩ := h
  exact ⟨before ++ earlier, c, e, (List.append_assoc ..).symm⟩

namespace Machine

variable {m : Machine τ} {template : Template} {φ : Phase}

/-- What one look of a wait sees. What it finds lets the run pass, whatever was called before. -/
inductive Glimpse (m : Machine τ) (template : Template) (φ : Phase) (ψ : α → Phase) :
    List (Exchange τ) → Except (Failure τ) (Option α) → Prop
  | found {made a} (passes : ∀ earlier, m.Passes template φ (earlier ++ made) (ψ a)) :
      Glimpse m template φ ψ made (.ok (some a))
  | nothing {made} : Glimpse m template φ ψ made (.ok none)
  | broken {made e} (failing : Failing made) : Glimpse m template φ ψ made (.error e)

/-- A warning in the log makes no difference. -/
theorem warned_satisfies {c : Prop} [Decidable c] {record : Log.Record} {x : Run τ α}
    {P : List (Exchange τ) → Except (Failure τ) α → Prop}
    (hx : x.Satisfies fun w made r w' => Run.Aside w made w' ∧ P made r) :
    (if c then Run.log record >>= fun _ => x else x).Satisfies fun w made r w' =>
      Run.Aside w made w' ∧ P made r := by
  by_cases hc : c
  · rw [if_pos hc]
    exact hx.logged (fun w records made r w' h => ⟨⟨h.1.unordered, h.1.progress⟩, h.2⟩) record
  · rw [if_neg hc]
    exact hx

/-! ## Looks -/

/-- The calls of a look: a single one, whose answer is read in some way. -/
inductive Looked (c : Call) (see : c.Reply → α) :
    List (Exchange τ) → Except (Failure τ) α → Prop
  | answered (reply) : Looked c see [⟨c, .ok reply⟩] (.ok (see reply))
  | failed (e) : Looked c see [⟨c, .error e⟩] (.error e)

def Looks (c : Call) (see : c.Reply → α) : Post τ α := fun w made r w' =>
  Run.Aside w made w' ∧ Looked c see made r

theorem call_looks {c : Call} (hc : c.order? = none) :
    (Run.call c : Run τ c.Reply).Satisfies (Looks c id) := by
  refine ((Run.call_aside hc).and (Run.satisfies_call c)).mono ?_
  rintro w _ r w' ⟨haside, rfl, -⟩
  cases r with
  | ok reply => exact ⟨haside, .answered reply⟩
  | error e => exact ⟨haside, .failed e⟩

theorem call_bind_looks {c : Call} (hc : c.order? = none) {see : c.Reply → α}
    {f : c.Reply → Run τ α}
    (hf : ∀ reply, (f reply).Satisfies fun w made r w' =>
      Run.Aside w made w' ∧ made = [] ∧ r = .ok (see reply)) :
    (Run.call c >>= f).Satisfies (Looks c see) := by
  refine ((call_looks hc).bind hf).mono ?_
  intro w made r w' h
  cases h with
  | failed first =>
      obtain ⟨haside, hlooked⟩ := first
      cases hlooked with
      | failed => exact ⟨haside, .failed _⟩
  | went first second =>
      obtain ⟨haside, hlooked⟩ := first
      obtain ⟨haside', rfl, rfl⟩ := second
      cases hlooked with
      | answered reply => exact ⟨Run.aside_steady.trans haside haside', .answered reply⟩

theorem glimpse_of_looks {c : Call} {see : c.Reply → Option α} {ψ : α → Phase}
    {check : Run τ (Option α)} (hcheck : check.Satisfies (Looks c see))
    (hsee : ∀ reply a, see reply = some a →
      ∀ earlier, m.Passes template φ (earlier ++ [⟨c, .ok reply⟩]) (ψ a)) :
    check.Satisfies fun w made r w' => Run.Aside w made w' ∧ m.Glimpse template φ ψ made r := by
  refine hcheck.mono ?_
  rintro w made r w' ⟨haside, hlooked⟩
  refine ⟨haside, ?_⟩
  cases hlooked with
  | failed e => exact .broken (failing_single c e)
  | answered reply =>
      cases hseen : see reply with
      | none => exact .nothing
      | some a => exact .found (hsee reply a hseen)

/-! ## What the checks see -/

theorem findNode_looks (m : Machine τ) (template : Template) :
    (m.findNode template).Satisfies (Looks (.listNodes m.kind)
      fun nodes => nodes.find? (·.goesBy template.hostname template.domain)) := by
  refine call_bind_looks rfl fun nodes w => ?_
  exact ⟨[], rfl, Run.aside_steady.refl w, rfl, rfl⟩

/-- A look at the listing finds the first node that fits. -/
theorem findNode_glimpse (m : Machine τ) (template : Template) {receipt : Option Receipt}
    (known : List (Exchange τ))
    (hknown : ∀ r, receipt = some r → r.orderId ≠ .null → m.requiresApproval = true →
      ∃ before, known = before ++ [⟨.getBillingOrderStatus r.orderId, .ok (.text "APPROVED")⟩]) :
    (m.findNode template).Satisfies fun w made r w' =>
      Run.Aside w made w' ∧ m.Glimpse template (.locating receipt) .starting (known ++ made) r := by
  refine (m.findNode_looks template).mono ?_
  rintro w made r w' ⟨haside, hlooked⟩
  refine ⟨haside, ?_⟩
  cases hlooked with
  | failed e => exact .broken ((failing_single _ e).after known)
  | answered nodes =>
      cases hfound : nodes.find? (·.goesBy template.hostname template.domain) with
      | none => exact .nothing
      | some node =>
          refine .found fun earlier => ?_
          rw [← List.append_assoc]
          refine .located (.listed (firstFit_of_find? hfound) fun r hr hid hneeds => ?_)
          obtain ⟨before, hbefore⟩ := hknown r hr hid hneeds
          exact ⟨earlier ++ before, by rw [hbefore, List.append_assoc]⟩

/-- The listing is asked for only if the order's status allows it. -/
theorem findApproved_glimpse (m : Machine τ) (template : Template) (receipt : Option Receipt)
    {orderId : Value} (hid : ∀ r, receipt = some r → r.orderId = orderId) (status : Value) :
    Run.Satisfies (if status.same (.text "APPROVED") then m.findNode template else pure none)
      fun w made r w' => Run.Aside w made w' ∧ m.Glimpse template (.locating receipt) .starting
        ([⟨.getBillingOrderStatus orderId, .ok status⟩] ++ made) r := by
  by_cases hstatus : status.same (.text "APPROVED") = true
  · rw [if_pos hstatus]
    obtain rfl := (status.same_text_iff "APPROVED").mp hstatus
    refine m.findNode_glimpse template _ fun r hr _ _ => ⟨[], ?_⟩
    rw [hid r hr, List.nil_append]
  · rw [if_neg hstatus]
    exact fun w => ⟨[], rfl, Run.aside_steady.refl w, .nothing⟩

theorem locate_glimpse (m : Machine τ) (template : Template) (receipt : Option Receipt)
    (orderId : Value) (hid : ∀ r, receipt = some r → r.orderId = orderId) :
    (m.locate template orderId).Satisfies fun w made r w' =>
      Run.Aside w made w' ∧ m.Glimpse template (.locating receipt) .starting made r := by
  unfold locate
  by_cases hneeds : (!orderId.isNull && m.requiresApproval) = true
  · rw [if_pos hneeds]
    refine ((call_looks rfl).bind (m.findApproved_glimpse template receipt hid)).mono ?_
    intro w made r w' h
    cases h with
    | failed first =>
        obtain ⟨haside, hlooked⟩ := first
        cases hlooked with
        | failed => exact ⟨haside, .broken (failing_single _ _)⟩
    | went first second =>
        obtain ⟨haside, hlooked⟩ := first
        cases hlooked with
        | answered status => exact ⟨Run.aside_steady.trans haside second.1, second.2⟩
  · rw [if_neg hneeds]
    refine m.findNode_glimpse template [] fun r hr hsome happroval => ?_
    rw [← hid r hr, Value.isNull_eq_false hsome, happroval] at hneeds
    exact absurd rfl hneeds

theorem active_glimpse (m : Machine τ) (template : Template) (node : Node) :
    (Run.call (.getActiveTransaction m.kind node.id)).Satisfies fun w made r w' =>
      Run.Aside w made w'
        ∧ m.Glimpse template (.starting node) (fun _ : Transaction => .ending node) made r := by
  refine glimpse_of_looks (call_looks rfl) ?_
  rintro _ transaction rfl earlier
  exact .started node earlier transaction

theorem checkIdle_looks (m : Machine τ) (node : Int) (hostname : Value) :
    (m.checkIdle node hostname).Satisfies (Looks (.getActiveTransaction m.kind node)
      fun seen => if seen.isNone then some () else none) := by
  refine call_bind_looks rfl fun seen => ?_
  refine ((Run.observe_aside m.kind node hostname seen).bind fun idle =>
    Run.satisfies_pure (if idle then some () else none)).mono ?_
  intro w made r w' h
  cases h with
  | failed first => cases first.2.2
  | went first second =>
      obtain ⟨haside, rfl, hidle⟩ := first
      obtain ⟨rfl, rfl, rfl⟩ := second
      cases hidle
      exact ⟨haside, rfl, rfl⟩

theorem checkIdle_glimpse (m : Machine τ) (template : Template) (node : Node) (hostname : Value) :
    (m.checkIdle node.id hostname).Satisfies fun w made r w' =>
      Run.Aside w made w'
        ∧ m.Glimpse template (.ending node) (fun _ => .loggingIn node) made r := by
  refine glimpse_of_looks (m.checkIdle_looks node.id hostname) ?_
  intro seen _ hseen earlier
  cases seen with
  | none => exact .ended node earlier
  | some transaction => cases hseen

theorem reachableNode_looks (m : Machine τ) (template : Template) (node : Int) :
    (m.reachableNode node template).Satisfies (Looks (.getNode m.kind node)
      fun found => found.filter (·.isReachable template.privateOnly)) := by
  refine call_bind_looks rfl fun found w => ?_
  exact ⟨[], rfl, Run.aside_steady.refl w, rfl, rfl⟩

theorem reachableNode_glimpse (m : Machine τ) (template : Template) (node : Node) :
    (m.reachableNode node.id template).Satisfies fun w made r w' =>
      Run.Aside w made w'
        ∧ m.Glimpse template (.loggingIn node) (fun _ => .confirming node) made r := by
  refine glimpse_of_looks (m.reachableNode_looks template node.id) ?_
  intro reply found hfound earlier
  obtain ⟨rfl, hreachable⟩ := Option.filter_eq_some_iff.mp hfound
  exact .loggedIn node earlier hreachable

/-! ## Waits -/

variable [Duration τ]

/-- How the action of a stage ends. -/
inductive Gate (m : Machine τ) (template : Template) (s : Stage) (φ : Phase) (ψ : α → Phase) :
    List (Exchange τ) → Except (Failure τ) α → Prop
  | passed {made a} (passes : m.Passes template φ made (ψ a)) :
      Gate m template s φ ψ made (.ok a)
  | stopped {made e} (trouble : m.Trouble s made e) : Gate m template s φ ψ made (.error e)

theorem overdue_reworded {s : Stage} {policy : StagePolicy τ}
    (hpolicy : m.policies.get? s = some policy) (subject : Value) (wording : String) :
    ∃ t, Run.reworded subject wording
        (.timeout { stage := s.name, timeout := policy.timeout, subject }) = .timeout t
      ∧ m.Overdue s t := by
  refine ⟨_, rfl, rfl, policy, hpolicy, rfl, wording, ?_⟩
  have hlength :
      (s.name ++ ": " ++ wording ++ " (" ++ Duration.text policy.timeout ++ "s)") ≠ "" := by
    intro hempty
    have hzero := congrArg String.length hempty
    simp only [String.length_append] at hzero
    have hcolon : ": ".length = 2 := rfl
    have hnone : "".length = 0 := rfl
    omega
  unfold StageTimeout.message
  exact if_pos (bne_iff_ne.mpr hlength)

/-- A wait passes with the first look that sees something. If its time is up, the timeout is the
policy's own, whatever wording it gets. -/
theorem await_gate {s : Stage} {policy : StagePolicy τ}
    (hpolicy : m.policies.get? s = some policy) {ψ : α → Phase} {check : Run τ (Option α)}
    (hcheck : check.Satisfies fun w made r w' =>
      Run.Aside w made w' ∧ m.Glimpse template φ ψ made r) (subject : Value) (wording : String) :
    (await check s.name policy subject wording).Satisfies fun w made r w' =>
      Run.Aside w made w' ∧ m.Gate template s φ ψ made r := by
  refine (Run.await_satisfies Run.aside_steady hcheck s.name policy subject wording).mono ?_
  rintro w made _ w' ⟨haside, plain, hpolled, rfl⟩
  refine ⟨haside, ?_⟩
  cases hpolled with
  | found earlier hglimpse =>
      cases hglimpse with
      | found passes => exact .passed (passes earlier)
  | broken earlier hglimpse =>
      cases hglimpse with
      | broken failing => exact .stopped (.answered (failing.after earlier))
  | late earlier hglimpse =>
      obtain ⟨t, hreworded, hoverdue⟩ := overdue_reworded hpolicy subject wording
      show m.Gate template s φ ψ _ (.error (Run.reworded subject wording _))
      rw [hreworded]
      exact .stopped (.overdue hoverdue)
  | unfinished => exact .stopped .unfinished

/-! ## Actions -/

/-- Without a node in the receipt the action is the wait for one. -/
theorem awaitOrder_gate (m : Machine τ) (template : Template) (receipt : Option Receipt) :
    (m.awaitOrder template receipt).Satisfies fun w made r w' =>
      Run.Aside w made w'
        ∧ m.Gate template .orderApproved (.locating receipt) .starting made r := by
  unfold awaitOrder
  cases hnode : receipt.bind (·.nodes.head?) with
  | some node =>
      obtain ⟨known, hknown, hfirst⟩ := Option.bind_eq_some_iff.mp hnode
      obtain ⟨more, hmore⟩ := List.head?_eq_some_iff.mp hfirst
      intro w
      exact ⟨[], rfl, Run.aside_steady.refl w, .passed (.located (.received hknown hmore))⟩
  | none =>
      refine warned_satisfies (await_gate rfl (m.locate_glimpse template receipt _ ?_) _ _)
      rintro r rfl
      rfl

/-- A node that the receipt names is taken at once. -/
theorem awaitOrder_received (m : Machine τ) (template : Template) (receipt : Option Receipt) :
    (m.awaitOrder template receipt).Satisfies fun _ made r _ =>
      ∀ known node more, receipt = some known → known.nodes = node :: more →
        made = [] ∧ r = .ok node := by
  intro w
  obtain ⟨made, htrace, -⟩ := m.awaitOrder_gate template receipt w
  refine ⟨made, htrace, ?_⟩
  rintro known node more rfl hfirst
  have hrun : m.awaitOrder template (some known) w = (.ok node, w) := by
    simp only [awaitOrder, Option.bind_some, hfirst, List.head?_cons]
    rfl
  rw [hrun] at htrace ⊢
  exact ⟨Run.made_eq_nil htrace, rfl⟩

theorem awaitStarted_gate (m : Machine τ) (template : Template) (node : Node) (hostname : Value) :
    (m.awaitStarted node.id hostname).Satisfies fun w made r w' =>
      Run.Aside w made w'
        ∧ m.Gate template .transactionsStarted (.starting node) (fun _ => .ending node) made r := by
  have hpolicy : m.policies.get? .transactionsStarted = some m.policies.transactionsStarted := rfl
  have hwait := await_gate hpolicy (m.active_glimpse template node) hostname
    ("host " ++ hostname.display ++ " did not start its transactions within configured delay")
  refine (hwait.observed m.kind node.id hostname).mono ?_
  rintro w made r w' ⟨w₁, ⟨haside, hgate⟩, ⟨e, rfl, rfl⟩ | ⟨transaction, rfl, rfl⟩⟩
  · exact ⟨haside, hgate⟩
  · exact ⟨⟨haside.unordered, (Run.setTracker_progress w₁ m.kind _).trans haside.progress⟩, hgate⟩

theorem awaitEnded_gate (m : Machine τ) (template : Template) (node : Node) (hostname : Value) :
    (m.awaitEnded node.id hostname).Satisfies fun w made r w' =>
      Run.Aside w made w'
        ∧ m.Gate template .transactionsEnded (.ending node) (fun _ => .loggingIn node) made r := by
  unfold awaitEnded
  have hpolicy : m.policies.get? .transactionsEnded = some m.policies.transactionsEnded := rfl
  have hwait := await_gate hpolicy (m.checkIdle_glimpse template node hostname) hostname
    ("host " ++ hostname.display ++ " did not finish its transactions within configured delay")
  refine (hwait.ensuring (Run.forget m.kind node.id) fun w =>
    Run.setTracker_exchanges w m.kind _).mono ?_
  rintro w made r w' ⟨w₁, ⟨haside, hgate⟩, rfl⟩
  refine ⟨⟨haside.unordered, ?_⟩, hgate⟩
  rw [← haside.progress]
  exact Run.setTracker_progress w₁ m.kind _

theorem awaitLogin_gate (m : Machine τ) (template : Template) (node : Node) :
    (m.awaitLogin node.id template).Satisfies fun w made r w' =>
      Run.Aside w made w'
        ∧ m.Gate template .loginReady (.loggingIn node) (fun _ => .confirming node) made r :=
  await_gate rfl (m.reachableNode_glimpse template node) _ _

theorem confirm_gate (m : Machine τ) (template : Template) (node : Node) :
    (m.confirm node.id template).Satisfies fun w made r w' =>
      Run.Aside w made w'
        ∧ m.Gate template .complete (.confirming node) (.ready node) made r := by
  refine ((m.reachableNode_looks template node.id).bind
    (Q := fun found w made r w' => Run.Aside w made w' ∧ made = [] ∧
      ((∃ final, found = some final ∧ r = .ok final)
        ∨ r = .error (.progress (.loginLost node.id)))) ?_).mono ?_
  · intro found w
    cases found with
    | some final => exact ⟨[], rfl, Run.aside_steady.refl w, rfl, Or.inl ⟨final, rfl, rfl⟩⟩
    | none => exact ⟨[], rfl, Run.aside_steady.refl w, rfl, Or.inr rfl⟩
  · intro w made r w' h
    cases h with
    | failed first =>
        obtain ⟨haside, hlooked⟩ := first
        cases hlooked with
        | failed => exact ⟨haside, .stopped (.answered (failing_single _ _))⟩
    | went first second =>
        obtain ⟨haside, hlooked⟩ := first
        obtain ⟨haside', rfl, hend⟩ := second
        refine ⟨Run.aside_steady.trans haside haside', ?_⟩
        rw [List.append_nil]
        cases hlooked with
        | answered reply =>
            rcases hend with ⟨final, hfinal, rfl⟩ | rfl
            · obtain ⟨rfl, hreachable⟩ := Option.filter_eq_some_iff.mp hfinal
              exact .passed (.confirmed node hreachable)
            · exact .stopped (.lost node.id)

end Machine

end Provision
