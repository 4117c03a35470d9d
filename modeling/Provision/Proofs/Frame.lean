import Provision.Machine
import Provision.Proofs.Run

/-!
# What runs leave alone

A frame relates the world before, the calls made and the world after; the
result does not matter to it. A `Steady` frame holds of a run as soon as it
holds of the calls that the run makes and of its changes to the kept state:
logging, sleeping and doing one thing after the other cannot break it.

Three frames are used. `Unordered` says that no order was placed, and `Only`
that all calls made are of a kind. `Aside` says that no order was placed and
that the progress record is as before, which is what the waits of a machine
have in common.
-/

namespace Provision

variable {τ α β : Type}

/-- The order that a call places, if it does. -/
def Call.order? : Call → Option Order
  | placeOrder order => some order
  | _ => none

/-- The orders placed by some calls, whatever the answers. -/
def orders (made : List (Exchange τ)) : List Order := made.filterMap (·.call.order?)

@[simp] theorem orders_append (made made' : List (Exchange τ)) :
    orders (made ++ made') = orders made ++ orders made' := List.filterMap_append

theorem orders_placeOrder_cons (order : Order) (reply : Except (Failure τ) (Option Receipt))
    (later : List (Exchange τ)) :
    orders (⟨.placeOrder order, reply⟩ :: later) = order :: orders later := rfl

theorem orders_single {c : Call} (hc : c.order? = none) (reply : Except (Failure τ) c.Reply) :
    orders [⟨c, reply⟩] = [] := by
  simp only [orders, List.filterMap_cons, hc, List.filterMap_nil]

namespace Run

/-- A relation between the world before, the calls made and the world after. -/
abbrev Frame (τ : Type) : Type 1 := World τ → List (Exchange τ) → World τ → Prop

/-- Neither the log nor the passing of time can break the frame. -/
structure Steady (F : Frame τ) : Prop where
  idle : ∀ w records clock sleeps, F w [] { w with records, clock, sleeps }
  trans : ∀ {w made w₁ made' w'}, F w made w₁ → F w₁ made' w' → F w (made ++ made') w'

theorem Steady.refl {F : Frame τ} (hF : Steady F) (w : World τ) : F w [] w :=
  hF.idle w w.records w.clock w.sleeps

def Keeps (x : Run τ α) (F : Frame τ) : Prop := x.Satisfies fun w made _ w' => F w made w'

theorem Keeps.ite {F : Frame τ} {c : Prop} [Decidable c] {x y : Run τ α} (hx : x.Keeps F)
    (hy : y.Keeps F) : (if c then x else y).Keeps F := by
  by_cases hc : c
  · rw [if_pos hc]
    exact hx
  · rw [if_neg hc]
    exact hy

section Rules

variable {F : Frame τ}

theorem Steady.pure (hF : Steady F) (a : α) : (pure a : Run τ α).Keeps F :=
  fun w => ⟨[], rfl, hF.refl w⟩

theorem Steady.fail (hF : Steady F) (e : Failure τ) : (fail e : Run τ α).Keeps F :=
  fun w => ⟨[], rfl, hF.refl w⟩

theorem Steady.read (hF : Steady F) (f : World τ → α) : (read f).Keeps F :=
  fun w => ⟨[], rfl, hF.refl w⟩

theorem Steady.log (hF : Steady F) (record : Log.Record) : (log record : Run τ Unit).Keeps F :=
  fun w => ⟨[], rfl, hF.idle w _ w.clock w.sleeps⟩

theorem Steady.logAll (hF : Steady F) (records : List Log.Record) :
    (logAll records : Run τ Unit).Keeps F :=
  fun w => ⟨[], rfl, hF.idle w _ w.clock w.sleeps⟩

theorem Steady.ofFault (hF : Steady F) (x : Except Fault α) : (ofFault x : Run τ α).Keeps F := by
  cases x with
  | ok a => exact hF.pure a
  | error f => exact hF.fail (.fault f)

theorem Steady.attempt (hF : Steady F) {x : Run τ α} {f : Except (Failure τ) α → Run τ β}
    (hx : x.Keeps F) (hf : ∀ r, (f r).Keeps F) : (Run.attempt x f).Keeps F := by
  refine (Satisfies.attempt hx hf).mono ?_
  rintro _ _ _ _ ⟨hfirst, hsecond⟩
  exact hF.trans hfirst hsecond

theorem Steady.bind (hF : Steady F) {x : Run τ α} {f : α → Run τ β} (hx : x.Keeps F)
    (hf : ∀ a, (f a).Keeps F) : (x >>= f).Keeps F := by
  refine (Satisfies.bind hx hf).mono ?_
  intro w made r w' h
  cases h with
  | failed hfirst => exact hfirst
  | went hfirst hsecond => exact hF.trans hfirst hsecond

end Rules

/-! ## No order -/

/-- No order was placed. -/
def Unordered : Frame τ := fun _ made _ => orders made = []

theorem unordered_steady : Steady (Unordered : Frame τ) where
  idle _ _ _ _ := rfl
  trans h h' := by
    show orders (_ ++ _) = []
    rw [orders_append, h, h', List.append_nil]

theorem call_unordered {c : Call} (hc : c.order? = none) :
    (call c : Run τ c.Reply).Keeps Unordered := by
  refine (satisfies_call c).mono ?_
  rintro w _ r w' ⟨rfl, -⟩
  exact orders_single hc r

/-- A change of the kept state that calls nobody places no order. -/
theorem update_unordered {f : World τ → World τ} (hf : ∀ w, (f w).exchanges = w.exchanges) :
    (update f).Keeps Unordered :=
  fun w => ⟨[], hf w, rfl⟩

/-! ## Calls of a kind -/

/-- All calls made were of a kind. -/
def Only (p : Call → Prop) : Frame τ := fun _ made _ => ∀ x ∈ made, p x.call

theorem only_steady (p : Call → Prop) : Steady (Only p : Frame τ) where
  idle _ _ _ _ := fun _ => nofun
  trans h h' := List.forall_mem_append.mpr ⟨h, h'⟩

theorem call_only {p : Call → Prop} {c : Call} (hc : p c) :
    (call c : Run τ c.Reply).Keeps (Only p) := by
  refine (satisfies_call c).mono ?_
  rintro w _ r w' ⟨rfl, -⟩
  exact List.forall_mem_singleton.mpr hc

/-! ## Nothing but the wait -/

/-- No order was placed, and the progress record is as before. -/
structure Aside (w : World τ) (made : List (Exchange τ)) (w' : World τ) : Prop where
  unordered : Unordered w made w'
  progress : w'.progress = w.progress

theorem aside_steady : Steady (Aside : Frame τ) where
  idle _ _ _ _ := ⟨rfl, rfl⟩
  trans h h' :=
    ⟨unordered_steady.trans h.unordered h'.unordered, h'.progress.trans h.progress⟩

theorem call_aside {c : Call} (hc : c.order? = none) :
    (call c : Run τ c.Reply).Keeps Aside := by
  refine (satisfies_call c).mono ?_
  rintro w _ r w' ⟨rfl, hw'⟩
  exact ⟨orders_single hc r, by rw [hw']⟩

/-- The trackers have no part in it. -/
theorem setTracker_progress (w : World τ) (kind : NodeKind) (t : Tracker) :
    (w.setTracker kind t).progress = w.progress := by
  cases kind <;> rfl

theorem setTracker_exchanges (w : World τ) (kind : NodeKind) (t : Tracker) :
    (w.setTracker kind t).exchanges = w.exchanges := by
  cases kind <;> rfl

theorem observe_aside (kind : NodeKind) (node : Int) (hostname : Value)
    (seen : Option Transaction) :
    (observe kind node hostname seen : Run τ Bool).Satisfies fun w made r w' =>
      Aside w made w' ∧ made = [] ∧ r = .ok seen.isNone :=
  fun w => ⟨[], setTracker_exchanges w kind _, ⟨rfl, setTracker_progress w kind _⟩, rfl, rfl⟩

/-- Keeping an eye on a transaction changes neither the calls made nor the result. -/
theorem Satisfies.observed {x : Run τ Transaction} {P : Post τ Transaction} (hx : x.Satisfies P)
    (kind : NodeKind) (node : Int) (hostname : Value) :
    Run.Satisfies (do
      let transaction ← x
      let _ ← observe kind node hostname (some transaction)
      pure transaction) fun w made r w' =>
        ∃ w₁, P w made r w₁ ∧ ((∃ e, r = .error e ∧ w' = w₁)
          ∨ ∃ transaction, r = .ok transaction
            ∧ w' = (observe kind node hostname (some transaction) w₁).2) := by
  intro w
  obtain ⟨made, htrace, hP⟩ := hx w
  rcases hrun : x w with ⟨e | transaction, w₁⟩
  · rw [hrun] at htrace hP
    rw [bind_of_error hrun]
    exact ⟨made, htrace, w₁, hP, Or.inl ⟨e, rfl, rfl⟩⟩
  · rw [hrun] at htrace hP
    rw [bind_of_ok hrun]
    exact ⟨made, (setTracker_exchanges w₁ kind _).trans htrace, w₁, hP,
      Or.inr ⟨transaction, rfl, rfl⟩⟩

end Run

end Provision
