/-!
# Texts in pieces

Splitting at a separator and joining with one. `splitOn sep` always gives at
least one piece (`splitChars_ne_nil`), so the pieces of the empty text are one
empty piece. Pieces in which the separator does not occur are found again once
they are joined (`splitChars_joinChars`).
-/

namespace Provision.Text

/-- The pieces between the occurrences of `sep`. -/
def splitChars (sep : Char) : List Char → List (List Char)
  | [] => [[]]
  | c :: rest =>
    if c = sep then [] :: splitChars sep rest
    else match splitChars sep rest with
      | [] => [[c]]
      | piece :: pieces => (c :: piece) :: pieces

/-- The pieces with one `sep` between neighbours. -/
def joinChars (sep : Char) : List (List Char) → List Char
  | [] => []
  | [piece] => piece
  | piece :: pieces => piece ++ sep :: joinChars sep pieces

def splitOn (sep : Char) (s : String) : List String :=
  (splitChars sep s.toList).map String.ofList

def joinWith (sep : Char) (pieces : List String) : String :=
  String.ofList (joinChars sep (pieces.map String.toList))

theorem splitChars_ne_nil (sep : Char) (cs : List Char) : splitChars sep cs ≠ [] := by
  cases cs with
  | nil => simp [splitChars]
  | cons c rest =>
    simp only [splitChars]
    split
    · simp
    · split <;> simp

theorem joinChars_cons {sep : Char} {piece : List Char} {pieces : List (List Char)}
    (h : pieces ≠ []) : joinChars sep (piece :: pieces) = piece ++ sep :: joinChars sep pieces := by
  cases pieces with
  | nil => exact absurd rfl h
  | cons _ _ => rfl

/-- Pieces without the separator are found again after joining. -/
theorem splitChars_joinChars {sep : Char} {pieces : List (List Char)} (hne : pieces ≠ [])
    (hsep : ∀ piece ∈ pieces, sep ∉ piece) : splitChars sep (joinChars sep pieces) = pieces := by
  have one : ∀ piece : List Char, sep ∉ piece → splitChars sep piece = [piece] := by
    intro piece
    induction piece with
    | nil => intro _; rfl
    | cons c rest ih =>
      intro h
      simp only [List.mem_cons, not_or] at h
      simp [splitChars, Ne.symm h.1, ih h.2]
  have step : ∀ (piece rest : List Char), sep ∉ piece →
      splitChars sep (piece ++ sep :: rest) = piece :: splitChars sep rest := by
    intro piece rest
    induction piece with
    | nil => intro _; simp [splitChars]
    | cons c more ih =>
      intro h
      simp only [List.mem_cons, not_or] at h
      simp [splitChars, Ne.symm h.1, ih h.2]
  induction pieces with
  | nil => exact absurd rfl hne
  | cons piece rest ih =>
    cases rest with
    | nil => exact one piece (hsep piece (by simp))
    | cons q qs =>
      rw [joinChars_cons (by simp), step piece _ (hsep piece (by simp)),
        ih (by simp) (fun p hp => hsep p (List.mem_cons_of_mem _ hp))]

/-! ## Where a text lies in another -/

/-- Whether `part` stands somewhere in the text. -/
def holds (part : List Char) : List Char → Bool
  | [] => part.isEmpty
  | c :: rest => part.isPrefixOf (c :: rest) || holds part rest

end Provision.Text
