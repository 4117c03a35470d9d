import Mathlib.Logic.ExistsUnique
import Provision.Proofs.Provisioning

/-!
# What a history tells

The progress record of a run begun afresh can be trusted. A stage in its
history has its evidence among the calls, in order and for one and the same
node (`provision_gates`). And the record, the calls and the result agree on how
the run ended, for which there are four ways (`provision_ends`).
-/

namespace Provision

variable {τ α : Type} [Duration τ]

namespace Machine

variable {m : Machine τ} {template : Template} {φ χ : Phase} {made : List (Exchange τ)}

/-! ## Evidence -/

/-- The record of an outcome, read against the path: the stages in it are those passed, the node in
it is the one followed, and behind the last stage nothing can stop the run. -/
theorem Outcome.account {goal : α → Phase → Prop} {r : Except (Failure τ) α} {p : Progress}
    (h : m.Outcome template φ goal made r p) :
    ∃ along rest χ, made = along ++ rest ∧ m.Path template φ along χ ∧
      (∀ s, .reached s ∈ p.history ↔ s.position < χ.position) ∧
      (∀ node, χ.node? = some node → p.nodeId = some node.id) ∧
      (5 < χ.position → rest = [] ∧ ∃ a, r = .ok a ∧ goal a χ) := by
  cases h with
  | @reached _ χ a _ path stands there =>
      exact ⟨made, [], χ, (List.append_nil _).symm, path, stands.at_position.reached_iff,
        stands.follows, fun _ => ⟨rfl, a, rfl, there⟩⟩
  | @stopped along rest χ s e p _ path stands here trouble record =>
      refine ⟨along, rest, χ, rfl, path, fun s' => ?_, fun node hnode => ?_, fun hlast => ?_⟩
      · rw [record, Progress.reached_mem_stopped]
        exact stands.at_position.reached_iff s'
      · rw [record, Progress.stopped_nodeId]
        exact stands.follows node hnode
      · have hbound := s.position_lt
        omega

/-- Every stage in the history of a run begun afresh has its evidence among the calls. The order was
placed before; the node followed is the first one of the receipt, or the last listing showed it to
be the first one that fits, asked for right after the order's approval where that is needed; a
transaction was seen to run against this node, and later none; later it was reachable; and one more
look, the last call of all, showed it as it is handed over. -/
theorem provision_gates (m : Machine τ) (template : Template) (combination : String)
    (host : Option String) (w : World τ) :
    let out := m.provision template combination (host.map .fresh) w
    let history := out.2.progress.history
    ∃ made, out.2.exchanges = made.reverse ++ w.exchanges ∧
      (∃ k, ∀ s, .reached s ∈ history ↔ s.position < k) ∧
      (.reached .orderApproved ∈ history → ∃ before order receipt located node after,
        made = before ++ ⟨.placeOrder order, .ok receipt⟩ :: (located ++ after) ∧
        out.2.progress.nodeId = some node.id ∧ m.Located template receipt located node ∧
        (.reached .transactionsStarted ∈ history → ∃ waiting transaction after₁,
          after = waiting ++
            ⟨.getActiveTransaction m.kind node.id, .ok (some transaction)⟩ :: after₁ ∧
          (.reached .transactionsEnded ∈ history → ∃ waiting₁ after₂,
            after₁ = waiting₁ ++ ⟨.getActiveTransaction m.kind node.id, .ok none⟩ :: after₂ ∧
            (.reached .loginReady ∈ history → ∃ waiting₂ found after₃,
              after₂ = waiting₂ ++ ⟨.getNode m.kind node.id, .ok (some found)⟩ :: after₃ ∧
              found.isReachable template.privateOnly = true ∧
              (.reached .complete ∈ history → ∃ final done,
                after₃ = [⟨.getNode m.kind node.id, .ok (some final)⟩] ∧
                final.isReachable template.privateOnly = true ∧
                out.1 = .ok done ∧ done.node = final))))) := by
  have hrun := m.provision_eq template combination (host.map .fresh) w
  have hfresh := Progress.fresh_getD_at host template.hostname
  obtain ⟨made, htrace, hcourse⟩ := m.provision_course template combination
    { w with progress := (host.map .fresh).getD (.fresh template.hostname) }
  rw [← hrun] at htrace hcourse
  generalize m.provision template combination (host.map .fresh) w = out at htrace hcourse ⊢
  obtain ⟨r, w'⟩ := out
  refine ⟨made, htrace, ?_⟩
  cases hcourse with
  | unprepared failed unordered kept =>
      have hnone : ∀ s, RunState.reached s ∉ w'.progress.history := by
        intro s hmem
        rw [kept, hfresh.history] at hmem
        cases hmem
      exact ⟨⟨0, fun s => iff_of_false (hnone s) (Nat.not_lt_zero _)⟩, fun h => absurd h (hnone _)⟩
  | @pursued _ prepared order _ _ _ _ prepares unordered once outcome =>
      obtain ⟨along, rest, χ, hmade, hpath, hhistory, hnode, hlast⟩ := (outcome hfresh).account
      refine ⟨⟨χ.position, hhistory⟩, fun happroved => ?_⟩
      -- A stage in the history is a position passed, so the path can be read one step further.
      have hbeyond := (hhistory _).mp happroved
      obtain ⟨receipt, rest₁, rfl, hlocating⟩ := hpath.past_placing (Nat.lt_of_succ_lt hbeyond)
      obtain ⟨located, rest₂, node, rfl, hlocated, hstarting⟩ := hlocating.past_locating hbeyond
      refine ⟨prepared, order, receipt, located, node, rest₂ ++ rest, ?_, ?_, hlocated, ?_⟩
      · rw [hmade, List.cons_append, List.append_assoc]
      · exact hnode node (hstarting.follows rfl)
      intro hstarted
      obtain ⟨waiting, transaction, rest₃, rfl, hending⟩ :=
        hstarting.past_starting ((hhistory _).mp hstarted)
      refine ⟨waiting, transaction, rest₃ ++ rest, by rw [List.append_assoc]; rfl, fun hended => ?_⟩
      obtain ⟨waiting₁, rest₄, rfl, hlogging⟩ := hending.past_ending ((hhistory _).mp hended)
      refine ⟨waiting₁, rest₄ ++ rest, by rw [List.append_assoc]; rfl, fun hlogin => ?_⟩
      obtain ⟨waiting₂, found, rest₅, rfl, hreachable, hconfirming⟩ :=
        hlogging.past_loggingIn ((hhistory _).mp hlogin)
      refine ⟨waiting₂, found, rest₅ ++ rest, by rw [List.append_assoc]; rfl, hreachable,
        fun hcomplete => ?_⟩
      obtain ⟨final, rfl, hfinal, rfl⟩ := hconfirming.past_confirming ((hhistory _).mp hcomplete)
      obtain ⟨rfl, done, rfl, node', hdone⟩ := hlast (Nat.lt_succ_self 5)
      cases hdone
      exact ⟨_, done, rfl, hfinal, rfl, rfl⟩

/-! ## Endings -/

/-- How provisioning ends: without an order, with a node, in a failure that is one of the program's
own, or in a foreign one. -/
inductive Ending where
  | unordered
  | completed
  | failed
  | interrupted

/-- What an ending means for the calls made, for the result and for the progress record. A wait that
has used up its checks never came to an end by itself; it counts as interrupted. -/
def Ending.Describes (m : Machine τ) (template : Template) (combination : String)
    (begun : World τ) (made : List (Exchange τ)) (r : Except (Failure τ) Provisioned)
    (p : Progress) : Ending → Prop
  | unordered =>
    orders made = [] ∧ p = begun.progress ∧
      ∃ e, (m.prepare template combination begun).1 = .error e ∧ r = .error e
  | completed =>
    (∃ order, orders made = [order]) ∧ (∃ done, r = .ok done) ∧
      p.history = Stage.all.map .reached ∧ p.state = some (.reached .complete)
  | failed =>
    (∃ order, orders made = [order]) ∧ ∃ e, ∃ s : Stage, r = .error e ∧ e.isOwn = true ∧
      p.history = (Stage.all.take s.position).map .reached ++ [.failed] ∧
      p.state = some .failed ∧ p.failedStage = some s.name ∧ p.failureReason = some e.message ∧
      -- The remote side did not report this timeout, so it is the one of the stage's own wait.
      ∀ t, e = .timeout t → ¬ Failing made → m.Overdue s t ∧
        ∃ reason, e.message = s.name ++ ": " ++ reason ++ " (" ++ Duration.text t.timeout ++ "s)"
  | interrupted =>
    (∃ order, orders made = [order]) ∧ ∃ e, ∃ s : Stage, r = .error e ∧ e.isOwn = false ∧
      p.history = (Stage.all.take s.position).map .reached ∧
      p.state = p.history.getLast? ∧ p.failedStage = none ∧ p.failureReason = none

/-- An outcome is the goal with a complete record, or a failure in the stage where the record is. -/
theorem Outcome.ends {goal : α → Phase → Prop} {r : Except (Failure τ) α} {p : Progress}
    (hgoal : ∀ a χ, goal a χ → χ.position = 6) (h : m.Outcome template φ goal made r p) :
    (∃ a, r = .ok a ∧ p.At 6) ∨ ∃ e, ∃ s : Stage, ∃ q : Progress, r = .error e ∧ q.At s.position
      ∧ p = q.stopped s e ∧ ∀ t, e = .timeout t → ¬ Failing made → m.Overdue s t := by
  cases h with
  | reached path stands there =>
      refine Or.inl ⟨_, rfl, ?_⟩
      rw [← hgoal _ _ there]
      exact stands.at_position
  | @stopped along rest χ s e q _ path stands here trouble record =>
      refine Or.inr ⟨e, s, q, rfl, ?_, record, ?_⟩
      · rw [here]
        exact stands.at_position
      · rintro t rfl hanswered
        cases trouble with
        | answered failing => exact absurd (failing.after along) hanswered
        | overdue overdue => exact overdue

/-- The text of a timeout tells its stage and how long the stage waited. -/
theorem Overdue.text {s : Stage} {t : StageTimeout τ} (h : m.Overdue s t) :
    ∃ reason, (Failure.timeout t).message
      = s.name ++ ": " ++ reason ++ " (" ++ Duration.text t.timeout ++ "s)" := by
  obtain ⟨-, policy, -, htimeout, reason, hreason⟩ := h
  refine ⟨reason, ?_⟩
  rw [htimeout]
  exact hreason

/-- The ending can be read off the orders and the result. -/
def Ending.of (placed : List Order) (r : Except (Failure τ) α) : Ending :=
  match placed, r with
  | [], _ => unordered
  | _ :: _, .ok _ => completed
  | _ :: _, .error e => if e.isOwn then failed else interrupted

theorem Ending.Describes.eq_of {combination : String} {begun : World τ}
    {r : Except (Failure τ) Provisioned} {p : Progress} {ending : Ending}
    (h : ending.Describes m template combination begun made r p) :
    ending = Ending.of (orders made) r := by
  cases ending with
  | unordered =>
      obtain ⟨hnone, -⟩ := h
      rw [hnone]
      rfl
  | completed =>
      obtain ⟨⟨order, horder⟩, ⟨done, rfl⟩, -⟩ := h
      rw [horder]
      rfl
  | failed =>
      obtain ⟨⟨order, horder⟩, e, s, rfl, hown, -⟩ := h
      rw [horder]
      exact (if_pos hown).symm
  | interrupted =>
      obtain ⟨⟨order, horder⟩, e, s, rfl, hforeign, -⟩ := h
      rw [horder]
      exact (if_neg (Bool.eq_false_iff.mp hforeign)).symm

theorem provision_ends (m : Machine τ) (template : Template) (combination : String)
    (host : Option String) (w : World τ) :
    let begun := { w with progress := (host.map Progress.fresh).getD (.fresh template.hostname) }
    let out := m.provision template combination (host.map .fresh) w
    ∃ made, out.2.exchanges = made.reverse ++ w.exchanges ∧
      ∃! ending : Ending,
        ending.Describes m template combination begun made out.1 out.2.progress := by
  intro begun
  have hrun := m.provision_eq template combination (host.map .fresh) w
  have hfresh := Progress.fresh_getD_at host template.hostname
  obtain ⟨made, htrace, hcourse⟩ := m.provision_course template combination begun
  rw [← hrun] at htrace hcourse
  generalize m.provision template combination (host.map .fresh) w = out at htrace hcourse ⊢
  obtain ⟨r, w'⟩ := out
  refine ⟨made, htrace, ?_⟩
  suffices hexists : ∃ ending : Ending,
      ending.Describes m template combination begun made r w'.progress by
    obtain ⟨ending, hdescribes⟩ := hexists
    refine ⟨ending, hdescribes, fun other hother => ?_⟩
    rw [hother.eq_of, hdescribes.eq_of]
  cases hcourse with
  | unprepared failed unordered kept => exact ⟨.unordered, unordered, kept, _, failed, rfl⟩
  | @pursued _ prepared order reply later _ _ prepares unordered once outcome =>
      have hone : orders (prepared ++ ⟨.placeOrder order, reply⟩ :: later) = [order] := by
        rw [orders_append, unordered, orders_placeOrder_cons, once]
        rfl
      have hgoal : ∀ (done : Provisioned) (χ : Phase), (∃ node, χ = .ready node done.node) →
          χ.position = 6 := by
        rintro done _ ⟨node, rfl⟩
        rfl
      rcases (outcome hfresh).ends hgoal with
        ⟨done, rfl, hat⟩ | ⟨e, s, q, rfl, hat, hrecord, hoverdue⟩
      · refine ⟨.completed, ⟨order, hone⟩, ⟨done, rfl⟩, hat.history, ?_⟩
        rw [hat.state_eq]
        rfl
      · cases hown : e.isOwn with
        | true =>
            have hfailed : w'.progress = q.fail s.name e.message := by
              rw [hrecord]
              exact if_pos hown
            refine ⟨.failed, ⟨order, hone⟩, e, s, rfl, hown, ?_⟩
            rw [hfailed]
            refine ⟨?_, rfl, rfl, rfl, ?_⟩
            · rw [← hat.history]
              rfl
            · rintro t rfl hanswered
              have hlate : m.Overdue s t :=
                hoverdue t rfl fun hfailing => hanswered (hfailing.after prepared)
              exact ⟨hlate, hlate.text⟩
        | false =>
            have hkept : w'.progress = q := by
              rw [hrecord]
              exact if_neg (Bool.eq_false_iff.mp hown)
            refine ⟨.interrupted, ⟨order, hone⟩, e, s, rfl, hown, ?_⟩
            rw [hkept]
            exact ⟨hat.history, hat.state, hat.failedStage, hat.failureReason⟩

end Machine

end Provision
