/-
Cutting a sequence at separators: a source at its line breaks, a path at its slashes.
-/
namespace ByteTape.Text

/-- A sequence cut at its separators, which belong to no piece. There is always a piece, and one
more than there are separators. -/
def pieces {α : Type} (isSeparator : α → Bool) : List α → List (List α)
  | [] => [[]]
  | a :: rest =>
    if isSeparator a then [] :: pieces isSeparator rest
    else match pieces isSeparator rest with
      | [] => [[a]]
      | piece :: more => (a :: piece) :: more

theorem pieces_ne_nil {α : Type} (isSeparator : α → Bool) (l : List α) :
    pieces isSeparator l ≠ [] := by
  cases l with
  | nil => simp [pieces]
  | cons a rest =>
    unfold pieces
    split
    · simp
    · split <;> simp

/-! ## One element at a time -/

section

variable {α : Type} {isSeparator : α → Bool} {a : α} {l : List α}

theorem pieces_cons_separator (h : isSeparator a) (l : List α) :
    pieces isSeparator (a :: l) = [] :: pieces isSeparator l := by
  rw [pieces, if_pos h]

/-- An element that is no separator goes in front of the first piece. -/
theorem pieces_cons {piece : List α} {more : List (List α)} (h : isSeparator a = false)
    (hl : pieces isSeparator l = piece :: more) :
    pieces isSeparator (a :: l) = (a :: piece) :: more := by
  rw [pieces, if_neg (by simp [h]), hl]

/-- The first piece begins as the whole does, unless that begins with a separator. -/
theorem any_head?_pieces {q : α → Bool} {piece : List α} {more : List (List α)}
    (hq : ∀ a, q a → isSeparator a = false) (hl : pieces isSeparator l = piece :: more) :
    piece.head?.any q = l.head?.any q := by
  cases l with
  | nil => cases hl; rfl
  | cons a rest =>
    obtain ⟨first, others, hrest⟩ := List.exists_cons_of_ne_nil (pieces_ne_nil isSeparator rest)
    by_cases ha : isSeparator a = true
    · rw [pieces_cons_separator ha] at hl
      cases hl
      cases hqa : q a with
      | false => simp [hqa]
      | true => exact absurd ha (by simp [hq a hqa])
    · rw [pieces_cons (by simpa using ha) hrest] at hl
      cases hl
      rfl

end

/-! ## The whole -/

/-- Together the pieces are what is left without the separators. -/
theorem flatten_pieces {α : Type} (isSeparator : α → Bool) (l : List α) :
    (pieces isSeparator l).flatten = l.filter fun a => !isSeparator a := by
  induction l with
  | nil => rfl
  | cons a rest ih =>
    obtain ⟨piece, more, hrest⟩ := List.exists_cons_of_ne_nil (pieces_ne_nil isSeparator rest)
    by_cases ha : isSeparator a = true
    · rw [pieces_cons_separator ha, List.flatten_cons, ih]
      simp [ha]
    · rw [pieces_cons (by simpa using ha) hrest]
      rw [hrest] at ih
      simp [ha, ← ih]

/-- The pieces of a list of images are the images of the pieces. -/
theorem pieces_map {α β : Type} (f : α → β) (isSeparator : β → Bool) (l : List α) :
    pieces isSeparator (l.map f) = (pieces (fun a => isSeparator (f a)) l).map (List.map f) := by
  induction l with
  | nil => rfl
  | cons a rest ih =>
    obtain ⟨piece, more, hrest⟩ :=
      List.exists_cons_of_ne_nil (pieces_ne_nil (fun a => isSeparator (f a)) rest)
    rw [List.map_cons]
    by_cases ha : isSeparator (f a) = true
    · have hcut : pieces (fun a => isSeparator (f a)) (a :: rest) =
          [] :: pieces (fun a => isSeparator (f a)) rest := by rw [pieces, if_pos ha]
      rw [pieces_cons_separator ha, hcut, ih]
      rfl
    · have ha : isSeparator (f a) = false := by simpa using ha
      have hcut : pieces (fun a => isSeparator (f a)) (a :: rest) = (a :: piece) :: more :=
        pieces_cons ha hrest
      rw [hrest] at ih
      rw [pieces_cons ha ih, hcut]
      rfl

/-- The pieces are those into which the library cuts a list. -/
theorem pieces_eq_splitOnP {α : Type} (isSeparator : α → Bool) (l : List α) :
    pieces isSeparator l = l.splitOnP isSeparator := by
  induction l with
  | nil => rfl
  | cons a rest ih =>
    rw [List.splitOnP_cons_eq_if_modifyHead, ← ih, pieces]
    split
    · rfl
    · cases h : pieces isSeparator rest with
      | nil => exact absurd h (pieces_ne_nil isSeparator rest)
      | cons piece more => rfl

/-- A separator between two lists cuts them apart. -/
theorem pieces_append_cons {α : Type} {isSeparator : α → Bool} {a : α} (h : isSeparator a)
    (l m : List α) :
    pieces isSeparator (l ++ a :: m) = pieces isSeparator l ++ pieces isSeparator m := by
  simp only [pieces_eq_splitOnP, List.splitOnP_append_cons l m h]

end ByteTape.Text
