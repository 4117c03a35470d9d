import Mathlib.Data.List.TakeWhile
import Provision.Pattern.Match

/-!
# Matching without going back

A pattern is matched by trying its ways one after the other, but many patterns
leave nothing to choose. What comes after a run of characters begins with one
that is not of the run, so the run is as long as it can be
(`run_many_iff`), and what a sequence of such runs and fixed characters
consumes can be read off the text (`run_field_iff`).

Whatever the pattern, a match that succeeds has handed some cursor on
(`exists_of_run`).
-/

namespace Provision

/-! ## Moving on -/

namespace Cursor

/-- Past some characters. -/
def past (c : Cursor) : List Char → Cursor
  | [] => c
  | x :: xs =>
    past { c with before := some x, position := c.position + 1, rest := c.rest.tail } xs

theorem past_append (c : Cursor) (xs ys : List Char) : c.past (xs ++ ys) = (c.past xs).past ys := by
  induction xs generalizing c with
  | nil => rfl
  | cons x xs ih => exact ih _

theorem past_rest {c : Cursor} {xs ys : List Char} (h : c.rest = xs ++ ys) :
    (c.past xs).rest = ys := by
  induction xs generalizing c with
  | nil => exact h
  | cons x xs ih =>
      refine ih ?_
      rw [h]
      rfl

theorem past_cons_rest {c : Cursor} {x : Char} {ys : List Char} (h : c.rest = x :: ys) :
    (c.past [x]).rest = ys :=
  past_rest h

theorem past_position (c : Cursor) (xs : List Char) :
    (c.past xs).position = c.position + xs.length := by
  induction xs generalizing c with
  | nil => rfl
  | cons x xs ih =>
      rw [past, ih, List.length_cons]
      show c.position + 1 + xs.length = c.position + (xs.length + 1)
      omega

/-- With some characters held in a group. -/
def hold (c : Cursor) (number : Nat) (xs : List Char) : Cursor :=
  { c with held := (number, xs) :: c.held }

theorem past_hold (c : Cursor) (number : Nat) (xs ys : List Char) :
    (c.hold number xs).past ys = (c.past ys).hold number xs := by
  induction ys generalizing c with
  | nil => rfl
  | cons y ys ih => exact ih { c with before := some y, position := c.position + 1, rest := c.rest.tail }

@[simp] theorem past_held (c : Cursor) (xs : List Char) : (c.past xs).held = c.held := by
  induction xs generalizing c with
  | nil => rfl
  | cons x xs ih =>
      rw [past, ih]

theorem past_close {c : Cursor} {xs ys : List Char} (h : c.rest = xs ++ ys) (number : Nat) :
    (c.past xs).close number c = (c.past xs).hold number xs := by
  have htake : c.rest.take ((c.past xs).position - c.position) = xs := by
    rw [past_position, Nat.add_sub_cancel_left, h, List.take_left]
  unfold close hold
  rw [htake]

theorem step?_cons {c : Cursor} {x : Char} {ys : List Char} (h : c.rest = x :: ys)
    (set : CharSet) : c.step? set = if set.contains x then some (c.past [x]) else none := by
  unfold step? past past
  rw [h]
  rfl

theorem step?_eq_some {set : CharSet} {c d : Cursor} (h : c.step? set = some d) :
    ∃ x ys, c.rest = x :: ys ∧ set.contains x = true ∧ d = c.past [x] := by
  cases hrest : c.rest with
  | nil =>
      unfold step? at h
      rw [hrest] at h
      cases h
  | cons x ys =>
      rw [step?_cons hrest] at h
      by_cases hx : set.contains x = true
      · rw [if_pos hx] at h
        exact ⟨x, ys, rfl, hx, (Option.some.inj h).symm⟩
      · rw [if_neg hx] at h
        cases h

end Cursor

namespace Pattern

variable {α : Type} {c : Cursor} {k : Cursor → Option α} {a : α} {set : CharSet}

/-! ## Any pattern -/

theorem of_orElse {x : Option α} {y : Unit → Option α} (h : x.orElse y = some a) :
    x = some a ∨ y () = some a := by
  cases x with
  | none => exact Or.inr h
  | some b => exact Or.inl h

theorem exists_of_repeatTurns {greedy : Bool} {turn : Cursor → (Cursor → Option α) → Option α}
    (hturn : ∀ c (k : Cursor → Option α) a, turn c k = some a → ∃ d, k d = some a)
    {fuel least : Nat} {most last : Option Nat} {c : Cursor}
    (h : repeatTurns greedy turn k fuel least most last c = some a) : ∃ d, k d = some a := by
  induction fuel generalizing least most last c with
  | zero =>
      unfold repeatTurns at h
      exact ⟨c, h⟩
  | succ fuel ih =>
      cases least with
      | succ least =>
          obtain ⟨d, hd⟩ := hturn _ _ _ h
          exact ih hd
      | zero =>
          unfold repeatTurns at h
          by_cases hover : (most == some 0 || last == some c.position) = true
          · rw [if_pos hover] at h
            exact ⟨c, h⟩
          · rw [if_neg hover] at h
            have hway : turn c (repeatTurns greedy turn k fuel 0 (most.map (· - 1))
                (some c.position)) = some a ∨ k c = some a := by
              cases greedy with
              | true => exact of_orElse h
              | false => exact (of_orElse h).symm
            rcases hway with hmore | hdone
            · obtain ⟨d, hd⟩ := hturn _ _ _ hmore
              exact ih hd
            · exact ⟨c, hdone⟩

/-- A match that succeeds has handed some cursor on. -/
theorem exists_of_run {p : Pattern} {c : Cursor} {k : Cursor → Option α}
    (h : p.run c k = some a) : ∃ d, k d = some a := by
  induction p generalizing c k a with
  | empty => exact ⟨c, h⟩
  | char set =>
      obtain ⟨d, -, hd⟩ := Option.bind_eq_some_iff.mp h
      exact ⟨d, hd⟩
  | anchor place =>
      unfold run at h
      by_cases hat : c.isAt place = true
      · rw [if_pos hat] at h
        exact ⟨c, h⟩
      · rw [if_neg hat] at h
        cases h
  | follow p q ihp ihq =>
      obtain ⟨d, hd⟩ := ihp h
      exact ihq hd
  | either p q ihp ihq =>
      rcases of_orElse h with hp | hq
      · exact ihp hp
      · exact ihq hq
  | group number p ih =>
      obtain ⟨d, hd⟩ := ih h
      exact ⟨_, hd⟩
  | once p ih =>
      obtain ⟨d, -, hd⟩ := Option.bind_eq_some_iff.mp h
      exact ⟨d, hd⟩
  | times greedy least most p ih =>
      exact exists_of_repeatTurns (fun c k a hturn => ih hturn) h

/-! ## Sequences -/

theorem run_sequence_cons (p : Pattern) (ps : List Pattern) (c : Cursor) (k : Cursor → Option α) :
    (sequence (p :: ps)).run c k = p.run c fun d => (sequence ps).run d k := by
  cases ps <;> rfl

theorem run_sequence_append (ps qs : List Pattern) (c : Cursor) (k : Cursor → Option α) :
    (sequence (ps ++ qs)).run c k = (sequence ps).run c fun d => (sequence qs).run d k := by
  induction ps generalizing c with
  | nil => rfl
  | cons p ps ih =>
      rw [List.cons_append, run_sequence_cons, run_sequence_cons]
      congr 1
      funext d
      exact ih d

/-- Characters that stand for themselves. -/
def literal (xs : List Char) : List Pattern := xs.map fun x => .char (.single x)

theorem run_literal_iff {xs : List Char} :
    (sequence (literal xs)).run c k = some a
      ↔ ∃ ys, c.rest = xs ++ ys ∧ k (c.past xs) = some a := by
  induction xs generalizing c with
  | nil => exact ⟨fun h => ⟨c.rest, rfl, h⟩, fun ⟨_, _, h⟩ => h⟩
  | cons x xs ih =>
      rw [literal, List.map_cons, run_sequence_cons]
      constructor
      · intro h
        obtain ⟨d, hstep, hd⟩ := Option.bind_eq_some_iff.mp h
        obtain ⟨y, zs, hrest, hy, rfl⟩ := Cursor.step?_eq_some hstep
        obtain rfl : y = x := by simpa using hy
        obtain ⟨ys, hys, hk⟩ := ih.mp hd
        rw [Cursor.past_cons_rest hrest] at hys
        exact ⟨ys, by rw [hrest, hys]; rfl, hk⟩
      · rintro ⟨ys, hrest, hk⟩
        have hstep : c.step? (.single x) = some (c.past [x]) := by
          rw [Cursor.step?_cons hrest]
          simp
        refine Option.bind_eq_some_iff.mpr ⟨_, hstep, ih.mpr ⟨ys, ?_, hk⟩⟩
        exact Cursor.past_cons_rest hrest

/-! ## Repetitions -/

theorem run_optional (p : Pattern) (c : Cursor) (k : Cursor → Option α) :
    (times true 0 (some 1) p).run c k = (p.run c k).orElse fun _ => k c := by
  show repeatTurns true (fun d turn => p.run d turn) k (0 + c.rest.length + 2) 0 (some 1) none c = _
  rw [Nat.zero_add]
  rfl

/-- What may be left out is taken where it is there. The cursor `e` is behind it. -/
theorem run_optional_iff {p : Pattern} (xs : List Char) {e : Cursor}
    (hp : ∀ a, p.run c k = some a ↔ ∃ ys, c.rest = xs ++ ys ∧ k e = some a)
    (hk : ∀ ys, c.rest = xs ++ ys → k c = none) :
    (times true 0 (some 1) p).run c k = some a
      ↔ (∃ ys, c.rest = xs ++ ys ∧ k e = some a) ∨ k c = some a := by
  rw [run_optional, ← hp]
  constructor
  · exact of_orElse
  · rintro (hrun | hskip)
    · rw [hrun]
      rfl
    · cases hrun : p.run c k with
      | none => exact hskip
      | some b =>
          obtain ⟨ys, hrest, -⟩ := (hp b).mp hrun
          rw [hk ys hrest] at hskip
          cases hskip

/-- Some characters of a set, one at least. -/
def many (set : CharSet) : Pattern := .times true 1 none (.char set)

/-- Nothing can go on in the middle of a run of these characters. -/
def Barred (set : CharSet) (k : Cursor → Option α) : Prop :=
  ∀ d x ys, d.rest = x :: ys → set.contains x = true → k d = none

theorem repeatTurns_succ {turn : Cursor → (Cursor → Option α) → Option α} (fuel : Nat)
    {last : Option Nat} (hlast : last ≠ some c.position) :
    repeatTurns true turn k (fuel + 1) 0 none last c
      = (turn c (repeatTurns true turn k fuel 0 none (some c.position))).orElse fun _ => k c := by
  rw [repeatTurns, if_neg (by simpa using hlast), if_pos rfl]
  rfl

/-- Where nothing can go on in the middle of a run, the turns take all of it. -/
theorem repeatTurns_all (hk : Barred set k) {xs ys : List Char}
    (hxs : ∀ x ∈ xs, set.contains x = true) (hys : ∀ y zs, ys = y :: zs → set.contains y = false)
    {fuel : Nat} {last : Option Nat} {c : Cursor} (hrest : c.rest = xs ++ ys)
    (hfuel : xs.length < fuel) (hlast : last ≠ some c.position) :
    repeatTurns true (fun d turn => (Pattern.char set).run d turn) k fuel 0 none last c
      = k (c.past xs) := by
  induction xs generalizing c fuel last with
  | nil =>
      obtain ⟨fuel, rfl⟩ := Nat.exists_eq_succ_of_ne_zero (Nat.ne_zero_of_lt hfuel)
      have hstop : c.step? set = none := by
        cases hys' : ys with
        | nil =>
            rw [List.nil_append, hys'] at hrest
            unfold Cursor.step?
            rw [hrest]
        | cons y zs =>
            rw [List.nil_append, hys'] at hrest
            rw [Cursor.step?_cons hrest, hys y zs hys']
            rfl
      rw [repeatTurns_succ fuel hlast, run, hstop]
      rfl
  | cons x xs ih =>
      obtain ⟨fuel, rfl⟩ := Nat.exists_eq_succ_of_ne_zero (Nat.ne_zero_of_lt hfuel)
      have hx : set.contains x = true := hxs x (List.mem_cons_self ..)
      have hstep : c.step? set = some (c.past [x]) := by
        rw [Cursor.step?_cons hrest, if_pos hx]
      have hmoved : some c.position ≠ some (c.past [x]).position := by
        rw [Cursor.past_position]
        simp
      have hturns := ih (fun y hy => hxs y (List.mem_cons_of_mem x hy))
        (Cursor.past_cons_rest hrest) (Nat.lt_of_succ_lt_succ hfuel) hmoved
      -- To stop here is tried only after the longer run, and `x` bars it.
      rw [repeatTurns_succ fuel hlast, run, hstep, Option.bind_some, hturns,
        hk c x (xs ++ ys) hrest hx]
      show (k (c.past (x :: xs))).orElse (fun _ => none) = k (c.past (x :: xs))
      cases k (c.past (x :: xs)) <;> rfl

/-- A run of characters is as long as it can be, where nothing can go on in its middle. -/
theorem run_many_iff (hk : Barred set k) :
    (many set).run c k = some a ↔ ∃ xs ys, xs ≠ [] ∧ (∀ x ∈ xs, set.contains x = true)
      ∧ c.rest = xs ++ ys ∧ k (c.past xs) = some a := by
  have hfirst : (many set).run c k = (Pattern.char set).run c
      (repeatTurns true (fun d turn => (Pattern.char set).run d turn) k (c.rest.length + 2) 0 none
        none) := by
    show repeatTurns true (fun d turn => (Pattern.char set).run d turn) k (1 + c.rest.length + 2) 1
      none none c = _
    rw [Nat.add_comm 1, Nat.add_right_comm]
    rfl
  have hrun : ∀ {x xs ys}, c.rest = x :: (xs ++ ys) → (∀ y ∈ xs, set.contains y = true) →
      set.contains x = true → (∀ y zs, ys = y :: zs → set.contains y = false) →
      (many set).run c k = k (c.past (x :: xs)) := by
    intro x xs ys hrest hxs hx hys
    have hlength : xs.length < c.rest.length + 2 := by
      rw [hrest, List.length_cons, List.length_append]
      omega
    rw [hfirst, run, Cursor.step?_cons hrest, if_pos hx, Option.bind_some]
    exact repeatTurns_all hk hxs hys (Cursor.past_cons_rest hrest) hlength nofun
  constructor
  · intro h
    rw [hfirst] at h
    obtain ⟨d, hstep, -⟩ := Option.bind_eq_some_iff.mp h
    obtain ⟨x, zs, hrest, hx, -⟩ := Cursor.step?_eq_some hstep
    have hsplit : c.rest = x :: (zs.takeWhile set.contains ++ zs.dropWhile set.contains) := by
      rw [hrest, List.takeWhile_append_dropWhile]
    have hall : ∀ y ∈ zs.takeWhile set.contains, set.contains y = true :=
      fun y hy => List.mem_takeWhile_imp hy
    rw [← hfirst, hrun hsplit hall hx ?_] at h
    · exact ⟨_, _, List.cons_ne_nil _ _, List.forall_mem_cons.mpr ⟨hx, hall⟩, hsplit, h⟩
    · intro y ws hys
      have hhead := List.head?_dropWhile_not set.contains zs
      rw [hys] at hhead
      simpa using hhead
  · rintro ⟨xs, ys, hne, hxs, hrest, hgo⟩
    obtain ⟨x, xs, rfl⟩ := List.exists_cons_of_ne_nil hne
    obtain ⟨hx, hxs⟩ := List.forall_mem_cons.mp hxs
    rw [hrun hrest hxs hx ?_]
    · exact hgo
    · rintro y zs rfl
      by_contra hy
      have hstuck := hk _ y zs (Cursor.past_rest hrest) (by simpa using hy)
      rw [hstuck] at hgo
      cases hgo

/-- What is handed on at the end of a run begins with a character that is not of the set. The run may
be closed as a group before that. -/
theorem run_many_literal_iff {x : Char} (hx : set.contains x = false) {text : List Char}
    {f : Cursor → Cursor} (hf : ∀ d, (f d).rest = d.rest) :
    (many set).run c (fun d => (sequence (literal (x :: text))).run (f d) k) = some a
      ↔ ∃ xs ys, xs ≠ [] ∧ (∀ y ∈ xs, set.contains y = true) ∧ c.rest = xs ++ x :: text ++ ys
        ∧ k ((f (c.past xs)).past (x :: text)) = some a := by
  have hbarred : Barred set fun d => (sequence (literal (x :: text))).run (f d) k := by
    intro d y ys hrest hy
    cases hrun : (sequence (literal (x :: text))).run (f d) k with
    | none => exact hrun
    | some a =>
        obtain ⟨zs, hzs, -⟩ := run_literal_iff.mp hrun
        rw [hf, hrest] at hzs
        rw [(List.cons.inj hzs).1, hx] at hy
        cases hy
  refine (run_many_iff hbarred).trans ⟨?_, ?_⟩
  · rintro ⟨xs, ys, hne, hxs, hrest, hrun⟩
    obtain ⟨zs, hzs, hk⟩ := run_literal_iff.mp hrun
    rw [hf, Cursor.past_rest hrest] at hzs
    exact ⟨xs, zs, hne, hxs, by rw [hrest, hzs, List.append_assoc], hk⟩
  · rintro ⟨xs, ys, hne, hxs, hrest, hk⟩
    rw [List.append_assoc] at hrest
    refine ⟨xs, _, hne, hxs, hrest, run_literal_iff.mpr ⟨ys, ?_, hk⟩⟩
    rw [hf, Cursor.past_rest hrest]

/-- Some characters of a set, followed by a text. -/
def stretch (set : CharSet) (text : List Char) : List Pattern := many set :: literal text

theorem run_stretch_iff {x : Char} (hx : set.contains x = false) {text : List Char} :
    (sequence (stretch set (x :: text))).run c k = some a
      ↔ ∃ xs ys, xs ≠ [] ∧ (∀ y ∈ xs, set.contains y = true) ∧ c.rest = xs ++ x :: text ++ ys
        ∧ k (c.past (xs ++ x :: text)) = some a := by
  rw [stretch, run_sequence_cons]
  simp only [Cursor.past_append]
  exact run_many_literal_iff hx fun d => rfl

/-- A group of characters of a set, followed by a text. -/
def field (number : Nat) (set : CharSet) (text : List Char) : List Pattern :=
  .group number (many set) :: literal text

/-- Where the text begins with a character that is not of the set, a field can be read off. -/
theorem run_field_iff {number : Nat} {x : Char} (hx : set.contains x = false) {text : List Char} :
    (sequence (field number set (x :: text))).run c k = some a
      ↔ ∃ xs ys, xs ≠ [] ∧ (∀ y ∈ xs, set.contains y = true) ∧ c.rest = xs ++ x :: text ++ ys
        ∧ k ((c.past (xs ++ x :: text)).hold number xs) = some a := by
  rw [field, run_sequence_cons]
  refine (run_many_literal_iff (f := (·.close number c)) hx fun d => rfl).trans ?_
  have hclosed : ∀ {xs ys : List Char}, c.rest = xs ++ x :: text ++ ys →
      ((c.past xs).close number c).past (x :: text) = (c.past (xs ++ x :: text)).hold number xs := by
    intro xs ys hrest
    rw [List.append_assoc] at hrest
    rw [Cursor.past_close hrest, Cursor.past_hold, ← Cursor.past_append]
  constructor
  · rintro ⟨xs, ys, hne, hxs, hrest, hk⟩
    exact ⟨xs, ys, hne, hxs, hrest, hclosed hrest ▸ hk⟩
  · rintro ⟨xs, ys, hne, hxs, hrest, hk⟩
    exact ⟨xs, ys, hne, hxs, hrest, (hclosed hrest).symm ▸ hk⟩

end Pattern

end Provision
