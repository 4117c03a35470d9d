import Provision.Proofs.Indifference
import Provision.Proofs.Provisioning

/-!
# Tracking

The trackers are there for the log only. A run is blind to them: with other
trackers it does the same (`Indifferent.blind`). And it leaves nothing behind in
them. Only the two waits for transactions touch a tracker at all, and only the
entry of the node that they wait for; the second one drops this entry, however
it ends. In between nothing can go wrong, since a stage that follows the one
entered last is not refused (`follow_spends`).
-/

namespace Provision

variable {τ α β : Type}

/-! ## Blindness -/

/-- Remote sides that are the same, with the same calls made to them. -/
def Pairing.same : Pairing τ := fun r made r' made' => r' = r ∧ made' = made

theorem Pairing.same_keeps (c : Call) : (same : Pairing τ).Keeps c := by
  rintro r made _ _ ⟨rfl, rfl⟩
  exact ⟨rfl, rfl, rfl⟩

theorem Pairing.same_tolerates (c : Call) : (same : Pairing τ).Tolerates c := by
  rintro r made _ _ ⟨rfl, rfl⟩
  exact ⟨rfl, rfl, rfl⟩

theorem World.Alike.eq_of_same {w w' : World τ} (h : w.Alike .same w') :
    w' = { w with guests := w'.guests, servers := w'.servers, records := w'.records } := by
  obtain ⟨⟨hremote, hmade⟩, hclock, hsleeps, hcache, hprogress, hpatience⟩ := h
  rw [← hremote, ← hmade, ← hclock, ← hsleeps, ← hcache, ← hprogress, ← hpatience]

namespace Run

/-- Whatever is tracked beforehand, the run does the same; only its log may differ. -/
def Blind (x : Run τ α) : Prop := ∀ w guests servers,
  let out := x w
  let out' := x { w with guests, servers }
  out'.1 = out.1 ∧ out'.2 = { out.2 with
    guests := out'.2.guests
    servers := out'.2.servers
    records := out'.2.records }

theorem Indifferent.blind {x : Run τ α} (h : Indifferent .same x) : x.Blind := by
  intro w guests servers
  obtain ⟨hresult, halike⟩ := h w { w with guests, servers } ⟨⟨rfl, rfl⟩, rfl, rfl, rfl, rfl, rfl⟩
  exact ⟨hresult, halike.eq_of_same⟩

end Run

/-! ## What is seen of the trackers -/

/-- A way to look at trackers. -/
abbrev View := NodeKind → Tracker → Tracker

namespace View

/-- All there is. -/
def everything : View := fun _ t => t

/-- All but the entry of one node. -/
def allBut (kind : NodeKind) (node : Int) : View := fun k t => if k = kind then t.forget node else t

end View

theorem Tracker.forget_forget (t : Tracker) (node : Int) :
    (t.forget node).forget node = t.forget node := by
  simp [forget]

theorem Tracker.forget_remember (t : Tracker) (node : Int) (transaction : Transaction) :
    (t.remember node transaction).forget node = t.forget node := by
  simp [remember, forget]

/-- An observation is about one node. -/
theorem Tracker.forget_observe (t : Tracker) (node : Int) (hostname : Value)
    (seen : Option Transaction) : (t.observe node hostname seen).1.forget node = t.forget node := by
  cases seen with
  | none => exact t.forget_forget node
  | some transaction => exact t.forget_remember node transaction

namespace Run

/-- In this view the trackers are as before. -/
def Shows (view : View) : Frame τ := fun w _ w' =>
  ∀ kind, view kind (w'.tracker kind) = view kind (w.tracker kind)

theorem shows_steady (view : View) : Steady (Shows view : Frame τ) where
  idle _ _ _ _ := fun _ => rfl
  trans h h' := fun kind => (h' kind).trans (h kind)

section Rules

variable {view : View}

theorem call_shows (c : Call) : (call c : Run τ c.Reply).Keeps (Shows view) := by
  refine (satisfies_call c).mono ?_
  rintro w made r w' ⟨-, hkept⟩ kind
  rw [hkept]
  rfl

theorem update_shows {f : World τ → World τ} (hmade : ∀ w, (f w).exchanges = w.exchanges)
    (htracked : ∀ w kind, view kind ((f w).tracker kind) = view kind (w.tracker kind)) :
    (update f).Keeps (Shows view) :=
  fun w => ⟨[], hmade w, htracked w⟩

theorem setTracker_shows {kind : NodeKind} {node : Int} {w : World τ} {t : Tracker}
    (h : t.forget node = (w.tracker kind).forget node) :
    Shows (.allBut kind node) w [] (w.setTracker kind t) := by
  intro k
  cases kind <;> cases k <;> simp_all [View.allBut, World.setTracker, World.tracker]

theorem observe_shows (kind : NodeKind) (node : Int) (hostname : Value)
    (seen : Option Transaction) :
    (observe kind node hostname seen : Run τ Bool).Keeps (Shows (.allBut kind node)) := by
  intro w
  have hshows := setTracker_shows (Tracker.forget_observe (w.tracker kind) node hostname seen)
  exact ⟨[], setTracker_exchanges w kind _, hshows⟩

/-- Trackers that are as before are so in any view. -/
theorem Shows.narrow {w w' : World τ} {made : List (Exchange τ)}
    (h : Shows .everything w made w') : Shows view w made w' :=
  fun kind => congrArg (view kind) (h kind)

end Rules

end Run

/-! ## Parts that track nothing -/

section Parts

open Run

theorem listing_shows : Listing (Shows (τ := τ) .everything) where
  steady := shows_steady .everything
  listed _ := call_shows _
  cached _ := update_shows (fun _ => rfl) fun _ _ => rfl

/-- Where no transaction is observed, the trackers are as before. -/
theorem shows_workable : Workable (Shows .everything : Frame τ) where
  steady := shows_steady .everything
  called _ := call_shows _
  noted _ _ := fun _ => rfl

end Parts

/-! ## Waiting for transactions -/

namespace Run

/-- A frame for which it makes no difference what is done first, if the trackers are left alone. -/
structure Lenient (F : Frame τ) : Prop where
  kept : ∀ {w made w'}, Shows .everything w made w' → F w made w'
  after : ∀ {w made w₁ made' w'}, Shows .everything w made w₁ → F w₁ made' w' →
    F w (made ++ made') w'

theorem Lenient.bind {F : Frame τ} (hF : Lenient F) {x : Run τ α} {f : α → Run τ β}
    (hx : x.Keeps (Shows .everything)) (hf : ∀ a, (f a).Keeps F) : (x >>= f).Keeps F := by
  refine (Satisfies.bind hx hf).mono ?_
  intro w made r w' h
  cases h with
  | failed first => exact hF.kept first
  | went first second => exact hF.after first second

/-- The entry of one node was dropped, and nothing else was done to the trackers. -/
def Clears (kind : NodeKind) (node : Int) : Frame τ := fun w _ w' =>
  ∀ k, w'.tracker k = View.allBut kind node k (w.tracker k)

section Clears

variable {kind : NodeKind} {node : Int} {w w₁ w' : World τ} {made made' : List (Exchange τ)}

/-- What was seen of the node in between is dropped as well. -/
theorem Clears.after (h : Shows (.allBut kind node) w made w₁) (h' : Clears kind node w₁ made' w') :
    Clears kind node w (made ++ made') w' :=
  fun k => (h' k).trans (h k)

theorem Clears.untouched (h : Clears kind node w made w₁) (h' : Shows .everything w₁ made' w') :
    Clears kind node w (made ++ made') w' :=
  fun k => (h' k).trans (h k)

theorem forget_clears (kind : NodeKind) (node : Int) :
    (forget kind node : Run τ Unit).Keeps (Clears kind node) := by
  intro w
  refine ⟨[], setTracker_exchanges w kind _, fun k => ?_⟩
  cases kind <;> cases k <;> rfl

theorem clears_bind {x : Run τ α} {f : α → Run τ β} (hx : x.Keeps (Clears kind node))
    (hf : ∀ a, (f a).Keeps (Shows .everything)) : (x >>= f).Keeps (Clears kind node) := by
  refine (Satisfies.bind hx hf).mono ?_
  intro w made r w' h
  cases h with
  | failed first => exact first
  | went first second => exact first.untouched second

/-- The trackers are as before, or the entry of one node was dropped. -/
def Spent (kind : NodeKind) (node : Int) : Frame τ := fun w made w' =>
  Shows .everything w made w' ∨ Clears kind node w made w'

theorem spent_lenient (kind : NodeKind) (node : Int) : Lenient (Spent kind node : Frame τ) where
  kept h := Or.inl h
  after h h' := h'.imp ((shows_steady _).trans h) (Clears.after h.narrow)

theorem Spent.untouched (h : Spent kind node w made w₁) (h' : Shows .everything w₁ made' w') :
    Spent kind node w (made ++ made') w' :=
  h.imp (fun h => (shows_steady _).trans h h') (fun h => h.untouched h')

/-- Two runs in a row. What the first one leaves in the trackers when it succeeds is dropped by the
second one, and when it fails it leaves nothing. -/
theorem spent_bind {pre : World τ → Prop} {x : Run τ α} {f : α → Run τ β}
    (hx : x.Satisfies fun w made r w' => Shows (.allBut kind node) w made w'
      ∧ (pre w → ∀ e, r = .error e → Shows .everything w made w'))
    (hf : ∀ a, (f a).Keeps (Clears kind node)) :
    (x >>= f).Satisfies fun w made _ w' => pre w → Spent kind node w made w' := by
  refine (Satisfies.bind hx hf).mono ?_
  intro w made r w' h hpre
  cases h with
  | failed first => exact Or.inl (first.2 hpre _ rfl)
  | went first second => exact Or.inr (Clears.after first.1 second)

end Clears

end Run

namespace Machine

open Run

variable [Duration τ]

/-- The node is tracked only once its transaction has been seen. -/
theorem awaitStarted_tracks (m : Machine τ) (node : Int) (hostname : Value) :
    (m.awaitStarted node hostname).Satisfies fun w made r w' =>
      Shows (.allBut m.kind node) w made w'
        ∧ ∀ e, r = .error e → Shows .everything w made w' := by
  have hwait := await_keeps (shows_steady .everything)
    (call_shows (τ := τ) (.getActiveTransaction m.kind node)) Stage.transactionsStarted.name
    m.policies.transactionsStarted hostname
    ("host " ++ hostname.display ++ " did not start its transactions within configured delay")
  refine (Satisfies.observed hwait m.kind node hostname).mono ?_
  rintro w made r w' ⟨w₁, hshows, ⟨e, rfl, rfl⟩ | ⟨transaction, rfl, rfl⟩⟩
  · exact ⟨hshows.narrow, fun _ _ => hshows⟩
  · obtain ⟨made', -, hseen⟩ := observe_shows m.kind node hostname (some transaction) w₁
    exact ⟨fun kind => (hseen kind).trans (hshows.narrow kind), fun _ => nofun⟩

theorem awaitEnded_clears (m : Machine τ) (node : Int) (hostname : Value) :
    (m.awaitEnded node hostname).Keeps (Clears m.kind node) := by
  have hsteady := shows_steady (τ := τ) (.allBut m.kind node)
  have hcheck : (m.checkIdle node hostname).Keeps (Shows (.allBut m.kind node)) :=
    hsteady.bind (call_shows _) fun seen =>
      hsteady.bind (observe_shows _ _ _ _) fun idle => hsteady.pure _
  have hwait := await_keeps hsteady hcheck Stage.transactionsEnded.name
    m.policies.transactionsEnded hostname
    ("host " ++ hostname.display ++ " did not finish its transactions within configured delay")
  refine (hwait.ensuring (forget m.kind node) fun w => setTracker_exchanges w m.kind _).mono ?_
  rintro w made r w' ⟨w₁, hshows, rfl⟩
  obtain ⟨made', -, hclears⟩ := forget_clears m.kind node w₁
  exact Clears.after hshows hclears

/-! ## Provisioning -/

/-- From the moment it is known the node stays the same. -/
def Follows : Frame τ := fun w _ w' => w'.progress.nodeId = w.progress.nodeId

omit [Duration τ] in
theorem follows_steady : Steady (Follows : Frame τ) where
  idle _ _ _ _ := rfl
  trans h h' := Eq.trans h' h

theorem stage_follows (m : Machine τ) (s : Stage) {action : Run τ α}
    (haction : action.Keeps Aside) : (m.stage s action).Keeps Follows := by
  refine (m.stage_records s haction).mono ?_
  rintro w made r w' ⟨r₁, w₁, haside, ⟨progress, records, rfl, hnode⟩, -⟩
  exact hnode.trans (congrArg Progress.nodeId haside.progress)

theorem follow_follows (m : Machine τ) (template : Template) (node : Node) :
    (m.follow template node).Keeps Follows := by
  have hsteady := follows_steady (τ := τ)
  have hstarted := m.awaitStarted_gate template node (.text template.hostname)
  have hended := m.awaitEnded_gate template node (.text template.hostname)
  have hlogin := m.awaitLogin_gate template node
  have hconfirmed := m.confirm_gate template node
  refine hsteady.bind (m.stage_follows _ (hstarted.mono fun _ _ _ _ h => h.1)) fun _ => ?_
  refine hsteady.bind (m.stage_follows _ (hended.mono fun _ _ _ _ h => h.1)) fun _ => ?_
  refine hsteady.bind (m.stage_follows _ (hlogin.mono fun _ _ _ _ h => h.1)) fun _ => ?_
  exact m.stage_follows _ (hconfirmed.mono fun _ _ _ _ h => h.1)

theorem follow_spends (m : Machine τ) (template : Template) (node : Node) :
    (m.follow template node).Satisfies fun w made _ w' =>
      w.progress.state = some (.reached .orderApproved) → Spent m.kind node.id w made w' := by
  let hostname := Value.text template.hostname
  have hsteady := shows_steady (τ := τ) .everything
  have hstarted : (m.stage .transactionsStarted (m.awaitStarted node.id hostname)).Satisfies
      fun w made r w' => Shows (.allBut m.kind node.id) w made w'
        ∧ (w.progress.state = some (.reached .orderApproved) →
          ∀ e, r = .error e → Shows .everything w made w') := by
    refine (m.stage_records .transactionsStarted ((m.awaitStarted_tracks node.id hostname).and
      (m.awaitStarted_gate template node hostname))).mono ?_
    rintro w made r w' ⟨r₁, w₁, ⟨⟨hshows, hfails⟩, haside, -⟩, ⟨progress, records, rfl, -⟩, -, hmay⟩
    refine ⟨hshows, fun hstate e he => hfails e ?_⟩
    -- The wait has not touched the record, so the stage is not refused: it is the wait that failed.
    rw [← he]
    refine (hmay ?_).symm
    rw [haside.progress, Progress.mayEnter, hstate]
    rfl
  have hended : (m.stage .transactionsEnded (m.awaitEnded node.id hostname)).Keeps
      (Clears m.kind node.id) := by
    refine (m.stage_records .transactionsEnded (m.awaitEnded_clears node.id hostname)).mono ?_
    rintro w made r w' ⟨r₁, w₁, hclears, ⟨progress, records, rfl, -⟩, -⟩
    exact hclears
  have hlogin : (m.awaitLogin node.id template).Keeps (Shows .everything) :=
    await_keeps hsteady (m.reachableNode_keeps shows_workable node.id template) _ _ _ _
  refine spent_bind hstarted fun _ => clears_bind hended fun _ => ?_
  exact hsteady.bind (m.stage_keeps shows_workable .loginReady hlogin) fun _ =>
    m.stage_keeps shows_workable .complete (m.confirm_keeps shows_workable node.id template)

theorem followed_spends (m : Machine τ) (template : Template) (combination : String)
    (node : Node) :
    Run.Satisfies (do
      let final ← m.follow template node
      m.handOver combination node final) fun (w : World τ) made _ w' =>
        Follows w made w' ∧
          (w.progress.state = some (.reached .orderApproved) → Spent m.kind node.id w made w') := by
  have hdone : ∀ final, (m.handOver combination node final).Satisfies fun w made _ w' =>
      Follows w made w' ∧ Shows .everything w made w' := by
    intro final
    refine ((m.handOver_satisfies combination node final).and
      (m.handOver_keeps shows_workable combination node final)).mono ?_
    rintro w made r w' ⟨⟨-, hprogress, -⟩, hshows⟩
    exact ⟨congrArg Progress.nodeId hprogress, hshows⟩
  have hfollow := (m.follow_follows template node).and (m.follow_spends template node)
  refine (hfollow.bind hdone).mono ?_
  intro w made r w' h
  cases h with
  | failed first => exact first
  | went first second =>
      exact ⟨follows_steady.trans first.1 second.1,
        fun hstate => (first.2 hstate).untouched second.2⟩

theorem approve_shows (m : Machine τ) (template : Template) (receipt : Option Receipt) :
    (m.approve template receipt).Satisfies fun w made r w' =>
      Shows .everything w made w' ∧ ∀ node, r = .ok node →
        w'.progress.state = some (.reached .orderApproved) ∧ w'.progress.nodeId = some node.id := by
  have hnoted : ∀ node, Run.Satisfies (do
      Run.update fun w => { w with progress := { w.progress with nodeId := some node.id } }
      inform s!"Order for {template.hostname} approved, node {node.id}" (m.nodeFields node)
      pure node) fun (w : World τ) made r w' => Shows .everything w made w' ∧ r = .ok node
        ∧ w'.progress.state = w.progress.state ∧ w'.progress.nodeId = some node.id :=
    fun node w => ⟨[], rfl, fun _ => rfl, rfl, rfl, rfl⟩
  have hwait : (m.awaitOrder template receipt).Keeps (Shows .everything) :=
    m.awaitOrder_keeps shows_workable template receipt
  refine ((m.stage_records .orderApproved hwait).bind hnoted).mono ?_
  intro w made r w' h
  cases h with
  | failed first =>
      obtain ⟨r₁, w₁, hshows, ⟨progress, records, rfl, -⟩, -⟩ := first
      exact ⟨hshows, fun _ => nofun⟩
  | went first second =>
      obtain ⟨r₁, w₁, hshows, ⟨progress, records, rfl, -⟩, hdone, -⟩ := first
      obtain ⟨hshows', rfl, hstate, hnode⟩ := second
      refine ⟨fun kind => (hshows' kind).trans (hshows kind), ?_⟩
      rintro _ ⟨⟩
      exact ⟨hstate.trans (hdone _ rfl).2, hnode⟩

/-- Nothing is left of a run in the trackers: they are as before, or without the entry of the node
that the run has followed. -/
def Settled (m : Machine τ) : Frame τ := fun w made w' =>
  Shows .everything w made w'
    ∨ ∃ node, w'.progress.nodeId = some node ∧ Clears m.kind node w made w'

omit [Duration τ] in
theorem settled_lenient (m : Machine τ) : Lenient m.Settled where
  kept h := Or.inl h
  after h h' := by
    rcases h' with hshows | ⟨node, hnode, hclears⟩
    · exact Or.inl ((shows_steady _).trans h hshows)
    · exact Or.inr ⟨node, hnode, Clears.after h.narrow hclears⟩

theorem provision_settles (m : Machine τ) (template : Template) (combination : String)
    (progress : Option Progress) :
    (m.provision template combination progress).Keeps m.Settled := by
  have hlenient := m.settled_lenient
  refine hlenient.bind (update_shows (fun _ => rfl) fun _ _ => rfl) fun _ => ?_
  refine hlenient.bind (m.prepare_keeps listing_shows template combination) fun order => ?_
  refine hlenient.bind (m.place_keeps shows_workable template (call_shows _)) fun receipt => ?_
  refine ((m.approve_shows template receipt).bind
    (m.followed_spends template combination)).mono ?_
  intro w made r w' h
  cases h with
  | failed first => exact Or.inl first.1
  | @went _ _ node _ _ _ _ first second =>
      obtain ⟨hstate, hnode⟩ := first.2 _ rfl
      rcases second.2 hstate with hshows | hclears
      · exact Or.inl ((shows_steady _).trans first.1 hshows)
      · exact Or.inr ⟨node.id, second.1.trans hnode, Clears.after first.1.narrow hclears⟩

/-! ## Destroying -/

theorem cancel_spends (m : Machine τ) (id : Int) (node : Node) :
    (m.cancel id node).Keeps (Spent m.kind node.id) := by
  have hstarted : (m.awaitStarted node.id node.hostname).Satisfies fun w made r w' =>
      Shows (.allBut m.kind node.id) w made w'
        ∧ (True → ∀ e, r = .error e → Shows .everything w made w') :=
    (m.awaitStarted_tracks node.id node.hostname).mono fun _ _ _ _ h => ⟨h.1, fun _ => h.2⟩
  have hended : Run.Keeps (do
      m.awaitEnded node.id node.hostname
      pure true) (Clears (τ := τ) m.kind node.id) :=
    clears_bind (m.awaitEnded_clears node.id node.hostname) fun _ =>
      (shows_steady .everything).pure true
  have hlenient := spent_lenient (τ := τ) m.kind node.id
  refine hlenient.bind ((shows_steady _).log _) fun _ => hlenient.bind (call_shows _) fun _ => ?_
  exact (spent_bind hstarted fun _ => hended).mono fun _ _ _ _ h => h trivial

theorem dispose_spends (m : Machine τ) (id : Int) (node : Node) :
    (m.dispose id node).Keeps (Spent m.kind node.id) :=
  .ite ((spent_lenient _ _).bind (m.powerOff_keeps shows_workable node) fun _ => m.cancel_spends id node)
    (m.cancel_spends id node)

/-- **Tracking is for the log only.** Provisioning and destroying are blind to what is tracked, and
they leave the trackers as they were, but for the entry of the node that they were about, which may
have been dropped. -/
theorem tracking_diagnostic (m : Machine τ) (template : Template) (combination : String)
    (progress : Option Progress) (id : Int) :
    (m.provision template combination progress).Blind
    ∧ (m.destroy id).Blind
    ∧ (∀ w, let out := m.provision template combination progress w
      (∀ kind, out.2.tracker kind = w.tracker kind)
        ∨ ∃ node, out.2.progress.nodeId = some node ∧ ∀ kind, out.2.tracker kind
          = if kind = m.kind then (w.tracker kind).forget node else w.tracker kind)
    ∧ ∀ w, let out := m.destroy id w
      (∀ kind, out.2.tracker kind = w.tracker kind)
        ∨ ∃ node, (Run.call (.getNode m.kind id) w).1 = .ok (some node)
          ∧ ∀ kind, out.2.tracker kind
            = if kind = m.kind then (w.tracker kind).forget node.id else w.tracker kind := by
  have hsame : ∀ c : Call, c.cancelled? = none → (Pairing.same : Pairing τ).Keeps c :=
    fun c _ => Pairing.same_keeps c
  refine ⟨(m.provision_indifferent hsame template combination progress).blind,
    (m.destroy_indifferent hsame (fun _ => Pairing.same_tolerates _) id).blind,
    fun w => ?_, fun w => ?_⟩
  · obtain ⟨made, -, hsettled⟩ := m.provision_settles template combination progress w
    exact hsettled
  · obtain ⟨reply, remote, hlooked⟩ := call_eq (.getNode m.kind id) w
    rw [hlooked]
    rcases destroy_cases hlooked with
      ⟨e, rfl, hrun⟩ | ⟨found, records, rfl, -, hrun⟩ | ⟨node, rfl, -, hrun⟩
    · rw [hrun]
      exact Or.inl fun _ => rfl
    · rw [hrun]
      exact Or.inl fun _ => rfl
    · rw [hrun]
      obtain ⟨made, -, hspent⟩ := m.dispose_spends id node _
      exact hspent.imp_right fun hclears => ⟨node, rfl, hclears⟩

end Machine

end Provision
