import Mathlib.Data.List.TakeWhile
import Provision.Proofs.Encoding
import Provision.Proofs.Verdicts

/-!
# Candidates that buy nothing

A text falls apart into candidates at its semicolons, and a candidate into ids
at its commas. The two do not agree on what is empty: a piece of the text is a
candidate if it has any character, but blank pieces of a candidate are dropped.
So a piece of commas and blanks only, a hollow one, is a candidate without any
price (`readIds_eq_nil_iff`). Its order holds nothing but the operating system
and the extras, and it is sent for verification like any other.

An order that is sent holds a price of its candidate just if the candidate is
not hollow. Whatever the remote side answers, this goes well for a text just if
no piece of it is hollow before the first one that cannot be read
(`submissions_purchase_iff`).
-/

namespace Provision

namespace Text

/-- What holds of the characters in all pieces holds of all characters but the separator. -/
theorem forall_mem_splitChars {P : Char → Prop} {sep : Char} {cs : List Char} :
    (∀ piece ∈ splitChars sep cs, ∀ c ∈ piece, P c) ↔ ∀ c ∈ cs, c = sep ∨ P c := by
  induction cs with
  | nil => simp [splitChars]
  | cons c rest ih =>
      by_cases hc : c = sep
      · simp [splitChars, hc, ih]
      · rw [splitChars, if_neg hc, List.forall_mem_cons, or_iff_right hc, ← ih]
        cases hrest : splitChars sep rest with
        | nil => exact absurd hrest (splitChars_ne_nil sep rest)
        | cons piece pieces => simp [and_assoc]

theorem trim_eq_empty_iff {s : String} : trim s = "" ↔ ∀ c ∈ s.toList, isBlank c = true := by
  have hchars : trim s = "" ↔ (s.toList.dropWhile isBlank).reverse.dropWhile isBlank = [] := by
    rw [trim, trimBy, ← String.toList_inj, String.toList_ofList, String.toList_empty,
      List.reverse_eq_nil_iff]
  rw [hchars, List.dropWhile_eq_nil_iff]
  simp only [List.mem_reverse]
  constructor
  · intro hrest c hc
    rw [← List.takeWhile_append_dropWhile (p := isBlank) (l := s.toList), List.mem_append] at hc
    exact hc.elim List.mem_takeWhile_imp (hrest c)
  · exact fun h c hc => h c ((List.dropWhile_sublist isBlank).subset hc)

end Text

/-! ## Hollow candidates -/

/-- A candidate that consists of commas and blanks. -/
def Hollow (candidate : String) : Prop :=
  ∀ c ∈ candidate.toList, c = ',' ∨ Text.isBlank c = true

/-- Just the hollow candidates have no price. -/
theorem Price.readIds_eq_nil_iff {candidate : String} :
    readIds candidate = .ok [] ↔ Hollow candidate := by
  have hpieces : Hollow candidate
      ↔ (Text.splitOn ',' candidate).filter (fun piece => Text.trim piece != "") = [] := by
    rw [Hollow, ← Text.forall_mem_splitChars, List.filter_eq_nil_iff]
    simp [Text.splitOn, Text.trim_eq_empty_iff]
  rw [hpieces, readIds]
  cases (Text.splitOn ',' candidate).filter fun piece => Text.trim piece != "" with
  | nil => exact iff_of_true rfl rfl
  | cons piece rest =>
      refine iff_of_false (fun h => ?_) (List.cons_ne_nil piece rest)
      have hread := forall₂_of_mapM_ok (fun _ _ => id) h
      cases hread

/-! ## Orders sent for verification -/

/-- A candidate whose order was sent, and the verdict on it. -/
structure Submission (τ : Type) where
  candidate : String
  order : Order
  verdict : Verdict τ

namespace Submission

variable {τ : Type}

def exchange (x : Submission τ) : Exchange τ := ⟨.verifyOrder x.order, x.verdict⟩

/-- The order holds a price that was read from the candidate. -/
def Purchases (x : Submission τ) : Prop :=
  ∃ ids, Price.readIds x.candidate = .ok ids ∧ ∃ id ∈ ids, id ∈ x.order.prices

theorem purchases_iff {x : Submission τ} {template : Template} {defaults : OrderDefaults}
    {catalog : Option Catalog} (h : template.order defaults x.candidate catalog = .ok x.order) :
    x.Purchases ↔ ¬ Hollow x.candidate := by
  obtain ⟨hardware, extras, hread, hprices, -⟩ := Template.order_ok h
  rw [← Price.readIds_eq_nil_iff, hread, Except.ok.injEq]
  constructor
  · rintro ⟨ids, hids, id, hid, -⟩ rfl
    obtain rfl : [] = ids := Except.ok.inj (hread.symm.trans hids)
    cases hid
  · intro hne
    obtain ⟨id, hid⟩ := List.exists_mem_of_ne_nil hardware hne
    refine ⟨hardware, hread, id, hid, ?_⟩
    rw [hprices]
    simp [hid]

end Submission

namespace Selector

variable {τ : Type}

/-- What is sent for some candidates: their orders in turn, up to the first candidate that has no
order or the first verdict that settles the selection. -/
structure Submits (s : Selector) (template : Template) (catalog : Option Catalog)
    (remote : Remote τ) (candidates : List String) (sent : List (Submission τ)) : Prop where
  inTurn : sent.map Submission.candidate <+: candidates
  built : ∀ x ∈ sent, template.order s.defaults x.candidate catalog = .ok x.order
  answered : sent.map Submission.verdict = remote.verdicts (sent.map Submission.order)
  stopped : ∀ next, candidates[sent.length]? = some next →
    (∀ order, template.order s.defaults next catalog ≠ .ok order)
      ∨ ∃ x ∈ sent, x.verdict.settles = true

namespace Submits

variable {s : Selector} {template : Template} {catalog : Option Catalog} {remote : Remote τ}
  {candidate : String} {rest : List String} {order : Order}

theorem of_order_error {fault : Fault}
    (h : template.order s.defaults candidate catalog = .error fault) :
    s.Submits template catalog remote (candidate :: rest) [] where
  inTurn := List.nil_prefix
  built := fun _ => nofun
  answered := rfl
  stopped := by
    rintro next ⟨⟩
    exact .inl fun order horder => nomatch h.symm.trans horder

theorem of_settles (h : template.order s.defaults candidate catalog = .ok order)
    (hsettles : Verdict.settles (remote.answer (.verifyOrder order)).1 = true) :
    s.Submits template catalog remote (candidate :: rest)
      [⟨candidate, order, (remote.answer (.verifyOrder order)).1⟩] where
  inTurn := ⟨rest, rfl⟩
  built := List.forall_mem_singleton.mpr h
  answered := rfl
  stopped := fun _ _ => .inr ⟨_, List.mem_singleton_self _, hsettles⟩

theorem cons {sent : List (Submission τ)}
    (h : template.order s.defaults candidate catalog = .ok order)
    (hrest : s.Submits template catalog (remote.answer (.verifyOrder order)).2 rest sent) :
    s.Submits template catalog remote (candidate :: rest)
      (⟨candidate, order, (remote.answer (.verifyOrder order)).1⟩ :: sent) where
  inTurn := (List.prefix_cons_inj candidate).mpr hrest.inTurn
  built := List.forall_mem_cons.mpr ⟨h, hrest.built⟩
  answered := congrArg (_ :: ·) hrest.answered
  stopped := by
    intro next hnext
    refine (hrest.stopped next hnext).imp_right ?_
    rintro ⟨x, hx, hsettles⟩
    exact ⟨x, List.mem_cons_of_mem _ hx, hsettles⟩

end Submits

theorem verifyFrom_submits (s : Selector) (template : Template) (catalog : Option Catalog)
    (all : List String) (candidates : List String) (rejections : List (String × String))
    (w : World τ) :
    ∃ sent, (s.verifyFrom template catalog all rejections candidates w).2.exchanges
        = (sent.map Submission.exchange).reverse ++ w.exchanges
      ∧ s.Submits template catalog w.remote candidates sent := by
  induction candidates generalizing rejections w with
  | nil => exact ⟨[], rfl, List.nil_prefix, fun _ => nofun, rfl, fun _ => nofun⟩
  | cons candidate rest ih =>
      cases horder : template.order s.defaults candidate catalog with
      | error fault =>
          refine ⟨[], ?_, .of_order_error horder⟩
          rw [verifyFrom_cons, horder]
          rfl
      | ok order =>
          rw [verifyFrom_judges horder]
          cases hsettles : Verdict.settles (w.remote.answer (.verifyOrder order)).1 with
          | true =>
              obtain ⟨-, hquiet⟩ := s.judge_settled template catalog all rejections candidate order
                rest hsettles (sent order w)
              exact ⟨_, hquiet.trans rfl, .of_settles horder hsettles⟩
          | false =>
              obtain ⟨f, hverdict, hrejection⟩ := Verdict.settles_eq_false_iff.mp hsettles
              rw [hverdict, judge_rejected hrejection]
              obtain ⟨later, htrace, hlater⟩ := ih ((candidate, f.text) :: rejections)
                { sent order w with
                  records := rejectedRecord s.defaults.family candidate f.text
                    :: (sent order w).records }
              refine ⟨_, ?_, hlater.cons horder⟩
              rw [htrace, List.map_cons, List.reverse_cons, List.append_assoc]
              rfl

/-- Where no verdict settles the selection, every candidate gets its turn up to the first one that
has no order. -/
theorem Submits.reaches {s : Selector} {template : Template} {catalog : Option Catalog}
    {remote : Remote τ} {candidates : List String} {sent : List (Submission τ)}
    (h : s.Submits template catalog remote candidates sent)
    (hopen : ∀ x ∈ sent, x.verdict.settles = false) {before after : List String} {piece : String}
    (hsplit : candidates = before ++ piece :: after)
    (horders : ∀ candidate ∈ before ++ [piece],
      ∃ order, template.order s.defaults candidate catalog = .ok order) :
    ∃ x ∈ sent, x.candidate = piece := by
  have hpassed : before.length < sent.length := by
    by_contra hle
    have hbound : sent.length < (before ++ [piece]).length := by
      rw [List.length_append, List.length_singleton]
      omega
    have hnext : candidates[sent.length]? = some (before ++ [piece])[sent.length] := by
      rw [hsplit, List.append_cons, List.getElem?_append_left hbound,
        List.getElem?_eq_getElem hbound]
    obtain ⟨order, horder⟩ := horders _ (List.getElem_mem hbound)
    rcases h.stopped _ hnext with hnone | ⟨x, hx, hsettles⟩
    · exact hnone order horder
    · rw [hopen x hx] at hsettles
      cases hsettles
  have hpiece : piece ∈ sent.map Submission.candidate := by
    have hplace : before.length < min sent.length candidates.length := by
      rw [hsplit, List.length_append, List.length_cons]
      omega
    rw [List.prefix_iff_eq_take.mp h.inTurn, List.length_map, List.mem_take_iff_getElem]
    exact ⟨before.length, hplace, by simp [hsplit]⟩
  exact List.mem_map.mp hpiece

/-- These orders, and no others, were sent for verification in a selection. -/
def Submitted (s : Selector) (text : String) (template : Template) (w : World τ)
    (sent : List (Submission τ)) : Prop :=
  ∃ consulted catalog, (s.selectOrder text template w).2.exchanges
      = (consulted ++ sent.map Submission.exchange).reverse ++ w.exchanges
    ∧ Consults consulted ∧ sent.map Submission.candidate <+: Price.split text
    ∧ ∀ x ∈ sent, template.order s.defaults x.candidate catalog = .ok x.order

theorem selectOrder_submitted (s : Selector) (text : String) (template : Template) (w : World τ) :
    ∃ sent, s.Submitted text template w sent := by
  obtain ⟨consulted, hconsulted, hconsults⟩ := catalogFor_consults s.defaults s.catalog w
  rcases hlooked : catalogFor s.defaults s.catalog w with ⟨e | catalog, w₁⟩
  · rw [hlooked] at hconsulted
    refine ⟨[], consulted, none, ?_, hconsults, List.nil_prefix, fun _ => nofun⟩
    rw [selectOrder, Run.bind_of_error hlooked, List.map_nil, List.append_nil]
    exact hconsulted
  · rw [hlooked] at hconsulted
    obtain ⟨sent, htrace, hsubmits⟩ :=
      s.verifyFrom_submits template catalog (Price.split text) (Price.split text) [] w₁
    refine ⟨sent, consulted, catalog, ?_, hconsults, hsubmits.inTurn, hsubmits.built⟩
    rw [selectOrder, Run.bind_of_ok hlooked, htrace, hconsulted, List.reverse_append,
      List.append_assoc]

/-! ## Texts that are safe -/

/-- A remote side that rejects everything. -/
def refusing : Remote τ where
  State := Unit
  state := ()
  respond _ _ := (.error (.provider { trouble := .rejection, provider := "", text := "" }), ())

theorem settles_refusing {orders : List Order} {verdict : Verdict τ}
    (h : verdict ∈ refusing.verdicts orders) : verdict.settles = false := by
  induction orders with
  | nil => cases h
  | cons order rest ih =>
      rcases List.mem_cons.mp h with rfl | hrest
      · rfl
      · exact ih hrest

/-- An order without extras can be made for every candidate that can be read. -/
theorem exists_order {candidate : String} {ids : List Int}
    (h : Price.readIds candidate = .ok ids) (template : Template) (family : Int) (kind : NodeKind) :
    ∃ order, template.order { family, kind } candidate none = .ok order := by
  rw [Template.order, h]
  exact ⟨_, rfl⟩

/-- **A hollow candidate buys nothing and is sent all the same.** An order that is sent for
verification holds a price of its candidate just if the candidate is not hollow. So all orders do,
for every selector, template and remote side, just if no piece of the text is hollow, apart from
those behind a piece that cannot be read. -/
theorem submissions_purchase_iff [Duration τ] (text : String) :
    (∀ (s : Selector) (template : Template) (w : World τ),
      (∃ sent, s.Submitted text template w sent)
      ∧ ∀ sent, s.Submitted text template w sent →
        ∀ x ∈ sent, x.Purchases ↔ ¬ Hollow x.candidate)
    ∧ ((∀ (s : Selector) (template : Template) (w : World τ) (sent : List (Submission τ)),
        s.Submitted text template w sent → ∀ x ∈ sent, x.Purchases)
      ↔ ∀ before piece after, Price.split text = before ++ piece :: after →
        (∀ candidate ∈ before, ∃ ids, Price.readIds candidate = .ok ids) → ¬ Hollow piece) := by
  have hpurchases (s : Selector) (template : Template) (w : World τ)
      (sent : List (Submission τ)) :
      s.Submitted text template w sent → ∀ x ∈ sent, x.Purchases ↔ ¬ Hollow x.candidate := by
    rintro ⟨consulted, catalog, -, -, -, hbuilt⟩ x hx
    exact Submission.purchases_iff (hbuilt x hx)
  refine ⟨fun s template w =>
    ⟨s.selectOrder_submitted text template w, hpurchases s template w⟩, ?_, ?_⟩
  · -- Without extras, and with everything rejected, all pieces are sent up to the unreadable one.
    intro hsafe before piece after hsplit hread hhollow
    let s : Selector := { defaults := { family := 0, kind := .virtualGuest } }
    let template : Template := { hostname := "", domain := "", hardwareId := text }
    let w : World τ := { remote := refusing, clock := Duration.ofInt 0, patience := 0 }
    obtain ⟨sent, htrace, hsubmits⟩ :=
      s.verifyFrom_submits template none (Price.split text) (Price.split text) [] w
    have hsubmitted : s.Submitted text template w sent :=
      ⟨[], none, htrace, consults_nil, hsubmits.inTurn, hsubmits.built⟩
    have hopen : ∀ x ∈ sent, x.verdict.settles = false := by
      intro x hx
      have hverdict := List.mem_map_of_mem (f := Submission.verdict) hx
      rw [hsubmits.answered] at hverdict
      exact settles_refusing hverdict
    obtain ⟨x, hx, rfl⟩ := hsubmits.reaches hopen hsplit fun candidate hcandidate => by
      rcases List.mem_append.mp hcandidate with hbefore | hpiece
      · obtain ⟨ids, hids⟩ := hread candidate hbefore
        exact exists_order hids template 0 .virtualGuest
      · obtain rfl := List.mem_singleton.mp hpiece
        exact exists_order (Price.readIds_eq_nil_iff.mpr hhollow) template 0 .virtualGuest
    have hpurchased : x.Purchases := hsafe s template w sent hsubmitted x hx
    exact (hpurchases s template w sent hsubmitted x hx).mp hpurchased hhollow
  · rintro hsolid s template w sent hsubmitted x hx
    refine (hpurchases s template w sent hsubmitted x hx).mpr ?_
    obtain ⟨consulted, catalog, -, -, ⟨after, hsplit⟩, hbuilt⟩ := hsubmitted
    obtain ⟨before, later, rfl⟩ := List.append_of_mem hx
    refine hsolid (before.map Submission.candidate) x.candidate
      (later.map Submission.candidate ++ after) (by simp [← hsplit]) ?_
    intro candidate hcandidate
    obtain ⟨y, hy, rfl⟩ := List.mem_map.mp hcandidate
    obtain ⟨hardware, -, hread, -⟩ := Template.order_ok (hbuilt y (List.mem_append_left _ hy))
    exact ⟨hardware, hread⟩

/-- A comma alone is a candidate, and its order is accepted: an operating system and two extras. -/
theorem comma_accepted :
    let s : Selector :=
      { defaults := { family := 46, kind := .virtualGuest, extraPrices := [21, 55] } }
    let template : Template :=
      { hostname := "web-1", domain := "example.com", hardwareId := ",", imagePrice := some 1684 }
    let w : World Rat := { remote := .scripted {}, clock := 0, patience := 1 }
    let order : Order :=
      { family := 46, location := none, prices := [1684, 21, 55]
        targets := [⟨"web-1", "example.com", none⟩] }
    (s.selectOrder "," template w).1 = .ok (",", order)
      ∧ ¬ ∀ sent, s.Submitted "," template w sent → ∀ x ∈ sent, x.Purchases := by
  intro s template w order
  have hsplit : Price.split "," = [","] := by decide +kernel
  have horder : template.order s.defaults "," none = .ok order :=
    ok_of_toOption (by decide +kernel)
  have hresult : s.selectOrder "," template w
      = s.verifyFrom template none [","] [] [","] w := by
    rw [← hsplit]
    rfl
  have haccepted : s.selectOrder "," template w
      = (.ok (",", order), { sent order w with
          records := [verifiedRecord 46 "," "web-1"] }) := by
    rw [hresult, verifyFrom_judges horder]
    rfl
  rw [haccepted]
  refine ⟨rfl, fun h => ?_⟩
  let x : Submission Rat := ⟨",", order, .ok ()⟩
  have hsubmitted : s.Submitted "," template w [x] := by
    refine ⟨[], none, ?_, consults_nil, ?_, List.forall_mem_singleton.mpr horder⟩
    · rw [haccepted]
      rfl
    · rw [hsplit]
      exact List.prefix_refl _
  have hpurchases : x.Purchases := h [x] hsubmitted x (List.mem_singleton_self x)
  have hhollow : Hollow "," := by simp [Hollow]
  exact (Submission.purchases_iff (x := x) horder).mp hpurchases hhollow

end Selector

end Provision
