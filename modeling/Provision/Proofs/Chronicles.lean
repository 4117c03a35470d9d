import Mathlib.Data.List.DropRight
import Mathlib.Data.List.SplitBy
import Provision.Proofs.Frame

/-!
# What a shared tracker tells of one node

A tracker is told about many nodes in any order. All that it does about one of
them depends on the transaction last seen there and on nothing else
(`chronicle_of_node`), so what it says of a node is what it would say if it were
told of this node alone. And what it says is a story: since the node was last
idle or forgotten, each name that its transactions went by in a row has begun,
and all but the last have ended (`changes_eq_story`).
-/

namespace Provision

/-- The node that a record is about. -/
def Log.Record.node? (r : Log.Record) : Option Int :=
  match r.fields.get .node with
  | .int n => some n
  | _ => none

namespace Tracker

@[simp] theorem node?_record (node : Int) (message : String) :
    (record node message).node? = some node := rfl

/-! ## The transaction last seen -/

theorem last?_forget (t : Tracker) (node n : Int) :
    (t.forget node).last? n = if node = n then none else t.last? n := by
  unfold last? forget
  rw [List.find?_filter]
  by_cases h : node = n
  · have hnone : t.entries.find? (fun e => decide ((e.1 != node) = true ∧ (e.1 == n) = true))
        = none := by
      simp [h]
    rw [hnone, if_pos h]
    rfl
  · rw [if_neg h]
    congr 2
    funext e
    by_cases he : e.1 = n
    · simp [he, Ne.symm h]
    · simp [he]

theorem last?_remember (t : Tracker) (node n : Int) (transaction : Transaction) :
    (t.remember node transaction).last? n = if node = n then some transaction else t.last? n := by
  have hlast : (t.remember node transaction).last? n
      = ((t.forget node).last? n).or (if node = n then some transaction else none) := by
    unfold last? remember
    rw [List.find?_append, Option.map_or, List.find?_singleton]
    by_cases h : node = n <;> simp [h]
  rw [hlast, last?_forget]
  by_cases h : node = n
  · rw [if_pos h, if_pos h, if_pos h]
    rfl
  · rw [if_neg h, if_neg h, if_neg h, Option.or_none]

/-! ## Events -/

/-- What a tracker is told. -/
inductive Event where
  | observe (node : Int) (hostname : Value) (seen : Option Transaction)
  | forget (node : Int)

namespace Event

def node : Event → Int
  | observe node _ _ => node
  | forget node => node

/-- The transaction that is observed, if there is one; otherwise the node is idle or forgotten. -/
def seen? : Event → Option Transaction
  | observe _ _ seen => seen
  | forget _ => none

/-- Whether the node is idle, where this is asked. -/
def answer : Event → Option Bool
  | observe _ _ seen => some seen.isNone
  | forget _ => none

/-- The records of an event where `previous` was seen last. -/
def lines (previous : Option Transaction) : Event → List Log.Record
  | observe node hostname none => [idleRecord node hostname]
  | observe node _ (some seen) => changeRecords node previous seen
  | forget _ => []

/-- An event as it is told to the tracker of the nodes of some kind. -/
def perform {τ : Type} (kind : NodeKind) : Event → Run τ (Option Bool)
  | observe node hostname seen => some <$> Run.observe kind node hostname seen
  | forget node => do
    Run.forget kind node
    pure none

theorem node?_of_mem_lines {e : Event} {previous : Option Transaction} {r : Log.Record}
    (h : r ∈ e.lines previous) : r.node? = some e.node := by
  cases e with
  | forget node => cases h
  | observe node hostname seen =>
      cases seen with
      | none =>
          obtain rfl := List.mem_singleton.mp h
          rfl
      | some seen =>
          cases previous with
          | none =>
              obtain rfl := List.mem_singleton.mp h
              rfl
          | some p =>
              simp only [lines, changeRecords] at h
              split at h
              · cases h
              · rcases List.mem_cons.mp h with rfl | h
                · rfl
                · obtain rfl := List.mem_singleton.mp h
                  rfl

end Event

def performAll {τ : Type} (kind : NodeKind) (events : List Event) : Run τ (List (Option Bool)) :=
  events.mapM (Event.perform kind)

def after (t : Tracker) : Event → Tracker
  | .observe node hostname seen => (t.observe node hostname seen).1
  | .forget node => t.forget node

/-- What some events say in the log. -/
def chronicle (t : Tracker) : List Event → List Log.Record
  | [] => []
  | e :: rest => e.lines (t.last? e.node) ++ (t.after e).chronicle rest

/-- An event is about one node, and tells all there is to know about it. -/
theorem last?_after (t : Tracker) (e : Event) (n : Int) :
    (t.after e).last? n = if e.node = n then e.seen? else t.last? n := by
  cases e with
  | forget node => exact t.last?_forget node n
  | observe node hostname seen =>
      cases seen with
      | none => exact t.last?_forget node n
      | some seen => exact t.last?_remember node n seen

theorem node?_of_mem_chronicle {t : Tracker} {events : List Event} {r : Log.Record}
    (h : r ∈ t.chronicle events) : ∃ e ∈ events, r.node? = some e.node := by
  induction events generalizing t with
  | nil => cases h
  | cons e rest ih =>
      rcases List.mem_append.mp h with hfirst | hrest
      · exact ⟨e, List.mem_cons_self .., Event.node?_of_mem_lines hfirst⟩
      · obtain ⟨e', he', hr⟩ := ih hrest
        exact ⟨e', List.mem_cons_of_mem _ he', hr⟩

/-! ## Running events -/

section Running

variable {τ : Type} (kind : NodeKind)

theorem perform_eq (e : Event) (w : World τ) :
    e.perform kind w
      = (.ok e.answer,
          { w.setTracker kind ((w.tracker kind).after e) with
            records := (e.lines ((w.tracker kind).last? e.node)).reverse ++ w.records }) := by
  cases e with
  | forget node => cases kind <;> rfl
  | observe node hostname seen => cases kind <;> cases seen <;> rfl

theorem performAll_runs (events : List Event) (w : World τ) :
    (performAll kind events w).1 = .ok (events.map Event.answer)
      ∧ (performAll kind events w).2.tracker kind = events.foldl after (w.tracker kind)
      ∧ (performAll kind events w).2.log = w.log ++ (w.tracker kind).chronicle events := by
  induction events generalizing w with
  | nil => exact ⟨rfl, rfl, (List.append_nil _).symm⟩
  | cons e rest ih =>
      have hstep := perform_eq kind e w
      -- Of the world in between only the tracker and the log matter.
      generalize hw₁ : ({ w.setTracker kind ((w.tracker kind).after e) with
        records := (e.lines ((w.tracker kind).last? e.node)).reverse ++ w.records } : World τ)
          = w₁ at hstep
      have htracker : w₁.tracker kind = (w.tracker kind).after e := by
        rw [← hw₁]
        cases kind <;> rfl
      have hlog : w₁.log = w.log ++ e.lines ((w.tracker kind).last? e.node) := by
        rw [← hw₁]
        simp only [World.log, List.reverse_append, List.reverse_reverse]
      obtain ⟨hresult, hlast, hlines⟩ := ih w₁
      have hrun : performAll kind (e :: rest) w
          = (.ok (e.answer :: rest.map Event.answer), (performAll kind rest w₁).2) :=
        Run.mapM_cons_of_ok hstep hresult
      rw [hrun]
      refine ⟨rfl, ?_, ?_⟩
      · rw [hlast, htracker, List.foldl_cons]
      · rw [hlines, hlog, htracker, List.append_assoc]
        rfl

end Running

/-! ## One node among many -/

/-- The transaction seen last on a node, by its own events. -/
def lastSeen (previous : Option Transaction) (own : List Event) : Option Transaction :=
  own.foldl (fun _ e => e.seen?) previous

/-- What the log says of a node, by its own events. -/
def account (previous : Option Transaction) : List Event → List Log.Record
  | [] => []
  | e :: rest => e.lines previous ++ account e.seen? rest

/-- The events of one node. -/
def own (n : Int) (events : List Event) : List Event := events.filter fun e => e.node == n

theorem own_cons (n : Int) (e : Event) (rest : List Event) :
    own n (e :: rest) = if e.node = n then e :: own n rest else own n rest := by
  simp only [own, List.filter_cons, beq_iff_eq]

theorem last?_of_node (t : Tracker) (events : List Event) (n : Int) :
    (events.foldl after t).last? n
      = lastSeen (t.last? n) (own n events) := by
  induction events generalizing t with
  | nil => rfl
  | cons e rest ih =>
      rw [List.foldl_cons, ih, last?_after]
      by_cases h : e.node = n
      · rw [own_cons, if_pos h, if_pos h]
        rfl
      · rw [own_cons, if_neg h, if_neg h]

theorem chronicle_of_node (t : Tracker) (events : List Event) (n : Int) :
    (t.chronicle events).filter (fun r => r.node? == some n)
      = account (t.last? n) (own n events) := by
  induction events generalizing t with
  | nil => rfl
  | cons e rest ih =>
      rw [chronicle, List.filter_append, ih, last?_after, own_cons]
      by_cases h : e.node = n
      · have hall : (e.lines (t.last? e.node)).filter (fun r => r.node? == some n)
            = e.lines (t.last? e.node) := by
          refine List.filter_eq_self.mpr fun r hr => ?_
          rw [Event.node?_of_mem_lines hr, h]
          exact beq_self_eq_true _
        rw [hall, if_pos h, if_pos h, account, h]
      · have hnone : (e.lines (t.last? e.node)).filter (fun r => r.node? == some n) = [] := by
          refine List.filter_eq_nil_iff.mpr fun r hr hsame => h ?_
          rw [Event.node?_of_mem_lines hr] at hsame
          exact Option.some.inj (beq_iff_eq.mp hsame)
        rw [hnone, if_neg h, if_neg h, List.nil_append]

/-! ## The story of a node -/

/-- The records of some transactions, one seen after the other. -/
def changes (node : Int) (previous : Option Transaction) : List Transaction → List Log.Record
  | [] => []
  | t :: rest => changeRecords node previous t ++ changes node (some t) rest

/-- Transactions parted wherever the name changes. -/
def spells (ts : List Transaction) : List (List Transaction) :=
  ts.splitBy fun a b => a.name.same b.name

/-- A spell has begun with its first transaction, and ended with its last one. -/
def spellRecords (node : Int) (spell : List Transaction) : List Log.Record :=
  (spell.head?.map (beginRecord node)).toList ++ (spell.getLast?.map (endRecord node)).toList

/-- All spells have begun and ended, but the last one has not ended yet. -/
def story (node : Int) (spells : List (List Transaction)) : List Log.Record :=
  (spells.flatMap (spellRecords node)).dropLast

/-- No spell is empty, the name stays within a spell, and it changes from each to the next. -/
structure Parted (m : List (List Transaction)) : Prop where
  nonempty : [] ∉ m
  stays : ∀ spell ∈ m, spell.IsChain fun a b => a.name.same b.name
  changes : m.IsChain fun x y => ∃ hx hy, (x.getLast hx).name.same (y.head hy).name = false

theorem parted_spells (ts : List Transaction) : Parted (spells ts) where
  nonempty := List.nil_notMem_splitBy _ ts
  stays _ := List.isChain_of_mem_splitBy
  changes := List.isChain_getLast_head_splitBy (fun a b => a.name.same b.name) ts

section Story

variable {node : Int} {a p : Transaction} {spell : List Transaction} {m : List (List Transaction)}

theorem Parted.tail (h : Parted (spell :: m)) : Parted m where
  nonempty := List.not_mem_of_not_mem_cons h.nonempty
  stays := (List.forall_mem_cons.mp h.stays).2
  changes := h.changes.tail

/-- After the last transaction of a spell the name changes. -/
theorem Parted.next (h : Parted ((a :: spell) :: m)) :
    ∀ later ∈ m.head?, ∀ b ∈ later.head?,
      (spell.getLast?.getD a).name.same b.name = false := by
  intro later hlater b hb
  obtain ⟨ha, hne, hchange⟩ := (List.isChain_cons.mp h.changes).1 later hlater
  have hlast : (a :: spell).getLast ha = spell.getLast?.getD a :=
    Option.some.inj ((List.getLast?_eq_some_getLast ha).symm.trans List.getLast?_cons)
  rwa [hlast, List.head_of_mem_head? hb] at hchange

/-- While the name stays, nothing is said. -/
theorem changes_spell (hspell : (a :: spell).IsChain fun a b => a.name.same b.name)
    (previous : Option Transaction) (rest : List Transaction) :
    changes node previous (a :: spell ++ rest)
      = changeRecords node previous a
        ++ changes node (some (spell.getLast?.getD a)) rest := by
  induction spell generalizing a previous with
  | nil => rfl
  | cons b spell ih =>
      obtain ⟨hsame, hspell⟩ := List.isChain_cons_cons.mp hspell
      have hquiet : changeRecords node (some a) b = [] := if_pos hsame
      have hrest := ih hspell (some a)
      rw [hquiet, List.nil_append] at hrest
      rw [List.cons_append, changes, hrest, List.getLast?_cons]
      rfl

theorem spellRecords_cons (node : Int) (a : Transaction) (spell : List Transaction) :
    spellRecords node (a :: spell)
      = [beginRecord node a, endRecord node (spell.getLast?.getD a)] := by
  rw [spellRecords, List.head?_cons, List.getLast?_cons]
  rfl

/-- A spell in words: by the first transaction of a name it has begun, and by the last one it is
known how long it took. -/
theorem spellRecords_wording (node : Int) (hspell : spell ≠ []) :
    ∃ first last, spell.head? = some first ∧ spell.getLast? = some last
      ∧ spellRecords node spell =
        [{ level := .info, source := .transactions, fields := [(.node, .int node)]
           message := "Current transaction is " ++ first.name.display
            ++ ". Average completion time is " ++ first.averageDuration.display ++ " minutes." },
         { level := .info, source := .transactions, fields := [(.node, .int node)]
           message := "Successfully completed transaction " ++ last.name.display ++ " in "
            ++ last.elapsedSeconds.display ++ " seconds." }] := by
  obtain ⟨a, spell, rfl⟩ := List.exists_cons_of_ne_nil hspell
  refine ⟨a, spell.getLast?.getD a, rfl, List.getLast?_cons, ?_⟩
  rw [spellRecords_cons]
  rfl

/-- After `p` was seen, each new spell ends the one before. The last one is ended by hand here. -/
theorem changes_spells (hm : Parted m)
    (hp : ∀ later ∈ m.head?, ∀ a ∈ later.head?, p.name.same a.name = false) :
    changes node (some p) m.flatten ++ [endRecord node (m.flatten.getLast?.getD p)]
      = endRecord node p :: m.flatMap (spellRecords node) := by
  induction m generalizing p with
  | nil => rfl
  | cons spell m ih =>
      rcases spell with _ | ⟨a, spell⟩
      · exact absurd (List.mem_cons_self ..) hm.nonempty
      · have hchange : changeRecords node (some p) a = [endRecord node p, beginRecord node a] :=
          if_neg (by rw [hp (a :: spell) rfl a rfl]; exact Bool.false_ne_true)
        have hend : (a :: spell ++ m.flatten).getLast?.getD p
            = m.flatten.getLast?.getD (spell.getLast?.getD a) := by
          rw [List.getLast?_append, List.getLast?_cons]
          cases m.flatten.getLast? <;> rfl
        rw [List.flatten_cons, hend, changes_spell (hm.stays _ (List.mem_cons_self ..)), hchange,
          List.append_assoc, ih hm.tail hm.next, List.flatMap_cons, spellRecords_cons]
        rfl

/-- Where nothing was seen before, the records are those of the spells. -/
theorem changes_eq_story (node : Int) (ts : List Transaction) :
    changes node none ts = story node (spells ts) := by
  have hflatten : (spells ts).flatten = ts := List.flatten_splitBy _ ts
  have hparted := parted_spells ts
  rcases hspells : spells ts with _ | ⟨_ | ⟨a, spell⟩, m⟩
  · rw [hspells] at hflatten
    rw [← hflatten]
    rfl
  · rw [hspells] at hparted
    exact absurd (List.mem_cons_self ..) hparted.nonempty
  · rw [hspells] at hparted hflatten
    have hall : ((a :: spell) :: m).flatMap (spellRecords node)
        = (beginRecord node a :: changes node (some (spell.getLast?.getD a)) m.flatten)
          ++ [endRecord node (m.flatten.getLast?.getD (spell.getLast?.getD a))] := by
      rw [List.cons_append, changes_spells hparted.tail hparted.next, List.flatMap_cons,
        spellRecords_cons]
      rfl
    rw [← hflatten, List.flatten_cons, changes_spell (hparted.stays _ (List.mem_cons_self ..)),
      story, hall, List.dropLast_concat]
    rfl

theorem same_of_text {s : String} {v : Value} (h : (Value.text s).same v = true) :
    v = .text s := by
  cases v with
  | text s' => rw [beq_iff_eq.mp ((Value.same_text s s').symm.trans h)]
  | _ => simp [Value.same, Value.sameNumber?] at h

/-- What begins under a text goes by it throughout. -/
theorem name_of_mem_spell (hspell : (a :: spell).IsChain fun a b => a.name.same b.name)
    {s : String} (ha : a.name = .text s) : ∀ t ∈ a :: spell, t.name = .text s := by
  induction spell generalizing a with
  | nil => exact List.forall_mem_singleton.mpr ha
  | cons b spell ih =>
      obtain ⟨hsame, hspell⟩ := List.isChain_cons_cons.mp hspell
      rw [ha] at hsame
      exact List.forall_mem_cons.mpr ⟨ha, ih hspell (same_of_text hsame)⟩

end Story

/-! ## Since the node was last idle or forgotten -/

/-- The events of a node up to the last one without a transaction. -/
def concluded (own : List Event) : List Event := own.rdropWhile fun e => e.seen?.isSome

/-- The transactions observed after that. -/
def recent (own : List Event) : List Transaction :=
  (own.rtakeWhile fun e => e.seen?.isSome).filterMap Event.seen?

theorem account_append (previous : Option Transaction) (earlier later : List Event) :
    account previous (earlier ++ later)
      = account previous earlier ++ account (lastSeen previous earlier) later := by
  induction earlier generalizing previous with
  | nil => rfl
  | cons e earlier ih => rw [List.cons_append, account, ih, account, List.append_assoc]; rfl

theorem lastSeen_append (previous : Option Transaction) (earlier later : List Event) :
    lastSeen previous (earlier ++ later) = lastSeen (lastSeen previous earlier) later :=
  List.foldl_append

/-- Nothing is left of what was seen before. -/
theorem lastSeen_concluded (own : List Event) : lastSeen none (concluded own) = none := by
  induction own using List.reverseRecOn with
  | nil => rfl
  | append_singleton own e ih =>
      unfold concluded
      rw [List.rdropWhile_concat]
      by_cases hseen : e.seen?.isSome = true
      · rw [if_pos hseen]
        exact ih
      · rw [if_neg hseen, lastSeen, List.foldl_append]
        exact Option.not_isSome_iff_eq_none.mp hseen

/-- Where only transactions are observed, the records are theirs. -/
theorem account_of_transactions {n : Int} {events : List Event} (hnode : ∀ e ∈ events, e.node = n)
    (hseen : ∀ e ∈ events, e.seen?.isSome = true) (previous : Option Transaction) :
    account previous events = changes n previous (events.filterMap Event.seen?)
      ∧ lastSeen previous events = (events.filterMap Event.seen?).getLast?.or previous := by
  induction events generalizing previous with
  | nil => exact ⟨rfl, rfl⟩
  | cons e events ih =>
      obtain ⟨rfl, hnode⟩ := List.forall_mem_cons.mp hnode
      obtain ⟨he, hseen⟩ := List.forall_mem_cons.mp hseen
      obtain ⟨haccount, hlast⟩ := ih hnode hseen e.seen?
      cases e with
      | forget node => cases he
      | observe node hostname seen =>
          cases seen with
          | none => cases he
          | some t =>
              have hcons : (Event.observe node hostname (some t) :: events).filterMap Event.seen?
                  = t :: events.filterMap Event.seen? := rfl
              rw [hcons, account, haccount, List.getLast?_cons]
              refine ⟨rfl, hlast.trans ?_⟩
              cases (events.filterMap Event.seen?).getLast? <;> rfl

/-- What was said before stays said, and since then the story of the node is told. -/
theorem account_eq_story (n : Int) (events : List Event) :
    account none (own n events)
        = account none (concluded (own n events)) ++ story n (spells (recent (own n events)))
      ∧ lastSeen none (own n events) = (recent (own n events)).getLast? := by
  let seen : Event → Bool := fun e => e.seen?.isSome
  have hsplit : own n events = concluded (own n events) ++ (own n events).rtakeWhile seen :=
    List.rdropWhile_append_rtakeWhile.symm
  have hnode : ∀ e ∈ (own n events).rtakeWhile seen, e.node = n := by
    intro e he
    have hmem := (List.rtakeWhile_suffix seen (own n events)).subset he
    exact beq_iff_eq.mp (List.mem_filter.mp hmem).2
  have hseen : ∀ e ∈ (own n events).rtakeWhile seen, seen e = true :=
    fun _ => List.mem_rtakeWhile_imp
  obtain ⟨haccount, hlast⟩ := account_of_transactions hnode hseen none
  constructor
  · conv_lhs => rw [hsplit]
    rw [account_append, lastSeen_concluded, haccount, changes_eq_story]
    rfl
  · conv_lhs => rw [hsplit]
    rw [lastSeen_append, lastSeen_concluded, hlast, Option.or_none]
    rfl

/-! ## The whole -/

section Whole

variable {τ : Type} (kind : NodeKind) (n : Int) (w : World τ)

/-- The same world with an empty log and nothing tracked. -/
def fresh : World τ := w.untraced.setTracker kind {}

theorem fresh_tracker : (fresh kind w).tracker kind = {} := by
  cases kind <;> rfl

theorem fresh_log : (fresh kind w).log = [] := by
  cases kind <;> rfl

/-- All that a tracker comes to when it begins with nothing. -/
theorem performAll_fresh (events : List Event) :
    (performAll kind events (fresh kind w)).1 = .ok (events.map Event.answer)
      ∧ ((performAll kind events (fresh kind w)).2.tracker kind).last? n
        = lastSeen none (own n events)
      ∧ (performAll kind events (fresh kind w)).2.log.filter (fun r => r.node? == some n)
        = account none (own n events) := by
  obtain ⟨hresult, htracker, hlog⟩ := performAll_runs kind events (fresh kind w)
  rw [fresh_tracker] at htracker hlog
  rw [fresh_log, List.nil_append] at hlog
  refine ⟨hresult, ?_, ?_⟩
  · rw [htracker, last?_of_node]
    rfl
  · rw [hlog, chronicle_of_node]
    rfl

/-- Of a node that is alone the log speaks throughout. -/
theorem performAll_alone {events : List Event} (hnode : ∀ e ∈ events, e.node = n) :
    ((performAll kind events (fresh kind w)).2.tracker kind).last? n = lastSeen none events
      ∧ (performAll kind events (fresh kind w)).2.log = account none events := by
  obtain ⟨-, hlast, hfiltered⟩ := performAll_fresh kind n w events
  have hown : own n events = events :=
    List.filter_eq_self.mpr fun e he => beq_iff_eq.mpr (hnode e he)
  have hall : (performAll kind events (fresh kind w)).2.log.filter (fun r => r.node? == some n)
      = (performAll kind events (fresh kind w)).2.log := by
    obtain ⟨-, -, hlog⟩ := performAll_runs kind events (fresh kind w)
    refine List.filter_eq_self.mpr fun r hr => ?_
    rw [hlog, fresh_log, List.nil_append] at hr
    obtain ⟨e, he, hr⟩ := node?_of_mem_chronicle hr
    rw [hr, hnode e he]
    exact beq_self_eq_true _
  rw [hown] at hlast hfiltered
  exact ⟨hlast, hall.symm.trans hfiltered⟩

/-- **A shared tracker, one node at a time.** Whatever it is told about other nodes in between, what
it answers about a node, what it has seen there last, and what the log says of the node is as if it
had been told of this node alone. It has seen last the latest transaction since the node was last
idle or forgotten. Since then the log has told a story of its own: one name after the other that
the transactions went by has begun, and each but the last has ended. The line with which a name
begins carries it, and so does the line with which it ends, with the time that was observed last
under this name. -/
theorem tells_of_node (events : List Event) :
    let shared := performAll kind events (fresh kind w)
    let alone := performAll kind (own n events) (fresh kind w)
    let before := performAll kind (concluded (own n events)) (fresh kind w)
    let since := recent (own n events)
    shared.1 = .ok (events.map Event.answer)
      ∧ alone.1 = .ok ((own n events).map Event.answer)
      ∧ (shared.2.tracker kind).last? n = (alone.2.tracker kind).last? n
      ∧ shared.2.log.filter (fun r => r.node? == some n) = alone.2.log
      ∧ (shared.2.tracker kind).last? n = since.getLast?
      ∧ alone.2.log = before.2.log ++ story n (spells since)
      ∧ (spells since).flatten = since ∧ Parted (spells since)
      ∧ (∀ spell ∈ spells since, ∀ first ∈ spell.head?, ∀ s, first.name = .text s →
          ∀ t ∈ spell, t.name = .text s)
      ∧ ∀ spell ∈ spells since, ∃ first last,
        spell.head? = some first ∧ spell.getLast? = some last
          ∧ spellRecords n spell =
            [{ level := .info, source := .transactions, fields := [(.node, .int n)]
               message := "Current transaction is " ++ first.name.display
                ++ ". Average completion time is " ++ first.averageDuration.display
                ++ " minutes." },
             { level := .info, source := .transactions, fields := [(.node, .int n)]
               message := "Successfully completed transaction " ++ last.name.display ++ " in "
                ++ last.elapsedSeconds.display ++ " seconds." }] := by
  have hnode : ∀ e ∈ own n events, e.node = n :=
    fun e he => beq_iff_eq.mp (List.mem_filter.mp he).2
  have hconcluded : ∀ e ∈ concluded (own n events), e.node = n :=
    fun e he => hnode e ((List.rdropWhile_prefix _ _).subset he)
  obtain ⟨hresult, hlast, hfiltered⟩ := performAll_fresh kind n w events
  obtain ⟨hlast', hlog'⟩ := performAll_alone kind n w hnode
  obtain ⟨-, hbefore⟩ := performAll_alone kind n w hconcluded
  obtain ⟨hstory, hrecent⟩ := account_eq_story n events
  have hparted := parted_spells (recent (own n events))
  refine ⟨hresult, (performAll_runs kind _ _).1, ?_, ?_, ?_, ?_, List.flatten_splitBy _ _,
    hparted, ?_, ?_⟩
  · rw [hlast, hlast']
  · rw [hfiltered, hlog']
  · rw [hlast, hrecent]
  · rw [hlog', hbefore, hstory]
  · intro spell hspell first hfirst s hname
    rcases spell with _ | ⟨a, spell⟩
    · cases hfirst
    · cases hfirst
      exact name_of_mem_spell (hparted.stays _ hspell) hname
  · intro spell hspell
    exact spellRecords_wording n (ne_of_mem_of_not_mem hspell hparted.nonempty)

/-- Two nodes at work at once: the first is set up, then reloaded. -/
theorem tells_of_node_one_of_two :
    let setup (seconds : Int) : Transaction := { name := "Setup", elapsedSeconds := seconds }
    let reload : Transaction := { name := "Reload" }
    let events : List Event := [.observe 1 "web-1" (setup 5), .observe 2 "web-2" (setup 7),
      .observe 1 "web-1" (setup 12), .observe 2 "web-2" none, .observe 1 "web-1" reload]
    let w : World Rat := { remote := .scripted {}, clock := 0, patience := 0 }
    let told := (performAll .virtualGuest events (fresh .virtualGuest w)).2.log.filter
      (fun r => r.node? == some 1)
    told = [beginRecord 1 (setup 5), endRecord 1 (setup 12), beginRecord 1 reload]
    ∧ told.map (·.message)
      = ["Current transaction is Setup. Average completion time is None minutes.",
        "Successfully completed transaction Setup in 12 seconds.",
        "Current transaction is Reload. Average completion time is None minutes."]
    ∧ ∀ t ∈ [setup 5, setup 12], t.name = .text "Setup" := by
  intro setup reload events w told
  obtain ⟨-, -, -, hlog, -, hstory, -, -, hnames, -⟩ := tells_of_node .virtualGuest 1 w events
  have hspells : spells (recent (own 1 events)) = [[setup 5, setup 12], [reload]] := by
    rfl
  rw [hspells] at hstory hnames
  have htold : told = [beginRecord 1 (setup 5), endRecord 1 (setup 12), beginRecord 1 reload] :=
    hlog.trans (hstory.trans rfl)
  refine ⟨htold, ?_, ?_⟩
  · rw [htold]
    decide +kernel
  · exact hnames _ (List.mem_cons_self ..) (setup 5) rfl "Setup" rfl

end Whole

end Tracker

end Provision
