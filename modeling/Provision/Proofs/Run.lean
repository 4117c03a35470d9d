import Provision.Polling

/-!
# What runs do

A run only ever adds calls to the trace. `x.Satisfies post` says that, begun in
any world, `x` adds some calls to it, and that `post` holds of the world before,
of these calls, of the result and of the world after. Nothing is assumed of the
remote side, so a statement of this kind holds whatever the answers are.

There is one rule for every way to build a run. Runs one after the other
satisfy what their parts do (`Satisfies.bind`); and a run may be described
twice, since the calls that it makes are determined (`Satisfies.and`).
-/

namespace Provision

/-- A statement about the world before, the calls made, the result and the world after. -/
abbrev Post (τ α : Type) : Type 1 :=
  World τ → List (Exchange τ) → Except (Failure τ) α → World τ → Prop

namespace Run

variable {τ α β : Type}

def Satisfies (x : Run τ α) (post : Post τ α) : Prop :=
  ∀ w, ∃ made, (x w).2.exchanges = made.reverse ++ w.exchanges ∧ post w made (x w).1 (x w).2

theorem Satisfies.mono {x : Run τ α} {P Q : Post τ α} (h : x.Satisfies P)
    (hPQ : ∀ w made r w', P w made r w' → Q w made r w') : x.Satisfies Q := by
  intro w
  obtain ⟨made, htrace, hP⟩ := h w
  exact ⟨made, htrace, hPQ w made _ _ hP⟩

/-- Two statements about a run speak of the same calls. -/
theorem Satisfies.and {x : Run τ α} {P Q : Post τ α} (hP : x.Satisfies P) (hQ : x.Satisfies Q) :
    x.Satisfies fun w made r w' => P w made r w' ∧ Q w made r w' := by
  intro w
  obtain ⟨made, htrace, hp⟩ := hP w
  obtain ⟨made', htrace', hq⟩ := hQ w
  have hsame : made = made' := by
    rw [htrace] at htrace'
    exact List.reverse_inj.mp (List.append_cancel_right htrace')
  exact ⟨made, htrace, hp, hsame ▸ hq⟩

/-- Where the trace is as it was, nobody was called. -/
theorem made_eq_nil {made before : List (Exchange τ)} (h : before = made.reverse ++ before) :
    made = [] :=
  List.reverse_eq_nil_iff.mp (List.self_eq_append_left.mp h)

/-- The result of a run is the one that it has in its world. -/
theorem Satisfies.result {x : Run τ α} {P : Post τ α} (h : x.Satisfies P) :
    x.Satisfies fun w made r w' => P w made r w' ∧ (x w).1 = r := by
  intro w
  obtain ⟨made, htrace, hP⟩ := h w
  exact ⟨made, htrace, hP, rfl⟩

/-! ## Runs that call nobody -/

theorem satisfies_pure (a : α) :
    (pure a : Run τ α).Satisfies fun w made r w' => made = [] ∧ r = .ok a ∧ w' = w :=
  fun _ => ⟨[], rfl, rfl, rfl, rfl⟩

theorem satisfies_fail (e : Failure τ) :
    (fail e : Run τ α).Satisfies fun w made r w' => made = [] ∧ r = .error e ∧ w' = w :=
  fun _ => ⟨[], rfl, rfl, rfl, rfl⟩

theorem satisfies_ofExcept (x : Except (Failure τ) α) :
    (ofExcept x).Satisfies fun w made r w' => made = [] ∧ r = x ∧ w' = w := by
  cases x with
  | ok a => exact satisfies_pure a
  | error e => exact satisfies_fail e

theorem satisfies_ofFault (x : Except Fault α) :
    (ofFault x : Run τ α).Satisfies fun w made r w' =>
      made = [] ∧ w' = w ∧ ∀ a, r = .ok a → x = .ok a := by
  cases x with
  | ok a =>
      refine fun w => ⟨[], rfl, rfl, rfl, ?_⟩
      rintro _ ⟨⟩
      rfl
  | error f => exact fun w => ⟨[], rfl, rfl, rfl, fun _ => nofun⟩

/-! ## Calls -/

/-- A call is made once, whatever the answer, and changes the remote side only. -/
theorem satisfies_call (c : Call) :
    (call c : Run τ c.Reply).Satisfies fun w made r w' =>
      made = [⟨c, r⟩] ∧ w' = { w with remote := w'.remote, exchanges := w'.exchanges } :=
  fun _ => ⟨[_], rfl, rfl, rfl⟩

theorem call_eq (c : Call) (w : World τ) : ∃ reply remote,
    call c w = (reply, { w with remote, exchanges := ⟨c, reply⟩ :: w.exchanges }) :=
  ⟨_, _, rfl⟩

/-! ## Runs in a row -/

/-- Runs compose as those of a state with failures do. -/
instance : LawfulMonad (Run τ) :=
  LawfulMonad.mk' (Run τ)
    (fun x => by
      funext w
      show (match x w with
        | (.ok a, w) => (.ok (id a), w)
        | (.error e, w) => (.error e, w)) = x w
      rcases x w with ⟨_ | _, _⟩ <;> rfl)
    (fun _ _ => rfl)
    (fun x f g => by
      funext w
      show (match match x w with
          | (.ok a, w) => f a w
          | (.error e, w) => (.error e, w) with
        | (.ok b, w) => g b w
        | (.error e, w) => (.error e, w)) = match x w with
          | (.ok a, w) => (f a >>= g) w
          | (.error e, w) => (.error e, w)
      rcases x w with ⟨_ | _, _⟩ <;> rfl)

/-- A run whose result, a failure included, was handed on to another one. -/
inductive Resumed (P : Post τ α) (Q : Except (Failure τ) α → Post τ β) : Post τ β
  | intro {w made₁ r w₁ made₂ r' w'} (first : P w made₁ r w₁) (second : Q r w₁ made₂ r' w') :
      Resumed P Q w (made₁ ++ made₂) r' w'

theorem Satisfies.attempt {x : Run τ α} {f : Except (Failure τ) α → Run τ β} {P : Post τ α}
    {Q : Except (Failure τ) α → Post τ β} (hx : x.Satisfies P)
    (hf : ∀ r, (f r).Satisfies (Q r)) : (Run.attempt x f).Satisfies (Resumed P Q) := by
  intro w
  obtain ⟨made₁, htrace₁, hP⟩ := hx w
  obtain ⟨made₂, htrace₂, hQ⟩ := hf (x w).1 (x w).2
  refine ⟨made₁ ++ made₂, ?_, .intro hP hQ⟩
  rw [List.reverse_append, List.append_assoc, ← htrace₁]
  exact htrace₂

/-- Two runs in a row: either the first failed, or the second went on with its result. -/
inductive Chained (P : Post τ α) (Q : α → Post τ β) : Post τ β
  | failed {w made e w'} (first : P w made (.error e) w') : Chained P Q w made (.error e) w'
  | went {w made₁ a w₁ made₂ r w'} (first : P w made₁ (.ok a) w₁) (second : Q a w₁ made₂ r w') :
      Chained P Q w (made₁ ++ made₂) r w'

theorem bind_eq_attempt (x : Run τ α) (f : α → Run τ β) :
    x >>= f = attempt x fun
      | .ok a => f a
      | .error e => fail e := by
  funext w
  show (match x w with
    | (.ok a, w) => f a w
    | (.error e, w) => (.error e, w)) = _
  rw [attempt]
  rcases x w with ⟨_ | _, _⟩ <;> rfl

theorem bind_of_ok {x : Run τ α} {f : α → Run τ β} {w w' : World τ} {a : α}
    (h : x w = (.ok a, w')) : (x >>= f) w = f a w' := by
  show (match x w with
    | (.ok a, w) => f a w
    | (.error e, w) => (.error e, w)) = f a w'
  rw [h]

theorem bind_of_error {x : Run τ α} {f : α → Run τ β} {w w' : World τ} {e : Failure τ}
    (h : x w = (.error e, w')) : (x >>= f) w = (.error e, w') := by
  rw [bind_eq_attempt, attempt, h]
  rfl

/-- Of several runs in a row the first one succeeds, and so do the rest in the world it leaves. -/
theorem mapM_cons_of_ok.{u} {ι : Type u} {f : ι → Run τ β} {i : ι} {rest : List ι} {w w' : World τ}
    {b : β} {bs : List β} (hfirst : f i w = (.ok b, w')) (hrest : (rest.mapM f w').1 = .ok bs) :
    (i :: rest).mapM f w = (.ok (b :: bs), (rest.mapM f w').2) := by
  rw [List.mapM_cons, bind_of_ok hfirst, bind_of_ok (Prod.ext hrest rfl)]
  rfl

theorem of_ofFault_ok {x : Except Fault α} {w w' : World τ} {a : α}
    (h : ofFault x w = (.ok a, w')) : x = .ok a := by
  cases x with
  | ok b =>
      cases h
      rfl
  | error f => cases h

/-- A run that succeeds has succeeded in its first part. -/
theorem of_bind_ok {x : Run τ α} {f : α → Run τ β} {w : World τ} {b : β}
    (h : ((x >>= f) w).1 = .ok b) : ∃ a w', x w = (.ok a, w') ∧ (f a w').1 = .ok b := by
  rcases hx : x w with ⟨e | a, w'⟩
  · rw [bind_of_error hx] at h
    cases h
  · rw [bind_of_ok hx] at h
    exact ⟨a, w', rfl, h⟩

theorem Satisfies.bind {x : Run τ α} {f : α → Run τ β} {P : Post τ α} {Q : α → Post τ β}
    (hx : x.Satisfies P) (hf : ∀ a, (f a).Satisfies (Q a)) :
    (x >>= f).Satisfies (Chained P Q) := by
  rw [bind_eq_attempt]
  have hnext : ∀ r : Except (Failure τ) α, Satisfies (match r with
      | .ok a => f a
      | .error e => fail e) fun w made r' w' =>
        (∃ a, r = .ok a ∧ Q a w made r' w')
          ∨ ∃ e, r = .error e ∧ made = [] ∧ r' = .error e ∧ w' = w := by
    intro r
    cases r with
    | ok a => exact (hf a).mono fun _ _ _ _ h => Or.inl ⟨a, rfl, h⟩
    | error e => exact (satisfies_fail e).mono fun _ _ _ _ h => Or.inr ⟨e, rfl, h⟩
  refine (hx.attempt hnext).mono ?_
  rintro w _ r w' ⟨hP, ⟨a, rfl, hQ⟩ | ⟨e, rfl, rfl, rfl, rfl⟩⟩
  · exact .went hP hQ
  · rw [List.append_nil]
    exact .failed hP

/-- A word to the log beforehand makes no difference to what does not speak of the log. -/
theorem Satisfies.logged {f : Unit → Run τ α} {P : Post τ α} (hf : (f ()).Satisfies P)
    (hP : ∀ w records made r w', P { w with records } made r w' → P w made r w')
    (record : Log.Record) : (log record >>= f).Satisfies P := by
  intro w
  obtain ⟨made, htrace, h⟩ := hf { w with records := record :: w.records }
  exact ⟨made, htrace, hP w _ made _ _ h⟩

/-- What is done in any case afterwards leaves the result alone. -/
theorem Satisfies.ensuring {x : Run τ α} {P : Post τ α} (hx : x.Satisfies P) (after : Run τ Unit)
    (hafter : ∀ w, (after w).2.exchanges = w.exchanges) :
    (Run.ensuring x after).Satisfies fun w made r w' =>
      ∃ w₁, P w made r w₁ ∧ w' = (after w₁).2 := by
  intro w
  obtain ⟨made, htrace, hP⟩ := hx w
  exact ⟨made, (hafter _).trans htrace, _, hP, rfl⟩

end Run

end Provision
