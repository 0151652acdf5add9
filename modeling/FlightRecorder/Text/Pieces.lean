/-!
# Texts cut at a separator

A separator cuts a text into pieces, some of which may be empty. There is one piece more than there
are separators, and putting separators between the pieces gives the text back.

* `pieces` — the pieces of a list of characters
* `namesOf` — the pieces of a path
-/

namespace FlightRecorder

/-- The first piece of a text and the pieces behind it. -/
def cut (separator : Char) (text : List Char) : List Char × List (List Char) :=
  text.foldr
    (fun c behind =>
      if c = separator then ([], behind.1 :: behind.2) else (c :: behind.1, behind.2))
    ([], [])

/-- The pieces of a text, in order. -/
def pieces (separator : Char) (text : List Char) : List (List Char) :=
  (cut separator text).1 :: (cut separator text).2

/-- The names in a path, in order; two slashes in a row have an empty name between them. -/
def namesOf (path : String) : List String := (pieces '/' path.toList).map String.ofList

@[simp]
theorem pieces_nil (separator : Char) : pieces separator [] = [[]] := rfl

/-- A separator ends the piece in front of it. -/
@[simp]
theorem pieces_cons_self (separator : Char) (rest : List Char) :
    pieces separator (separator :: rest) = [] :: pieces separator rest := by
  simp [pieces, cut]

/-- Any other character belongs to the piece that it stands in. -/
theorem pieces_cons_ne {separator c : Char} (h : c ≠ separator) (rest : List Char) :
    pieces separator (c :: rest) = (c :: (cut separator rest).1) :: (cut separator rest).2 := by
  simp [pieces, cut, h]

/-- There is one piece more than there are separators. -/
theorem length_pieces (separator : Char) (text : List Char) :
    (pieces separator text).length = text.count separator + 1 := by
  induction text with
  | nil => rfl
  | cons c rest ih =>
    by_cases h : c = separator
    · subst h
      simp [ih]
    · rw [pieces_cons_ne h, List.count_cons_of_ne h]
      exact ih

/-- Nothing of a text is lost in its pieces. -/
theorem intercalate_pieces (separator : Char) (text : List Char) :
    [separator].intercalate (pieces separator text) = text := by
  induction text with
  | nil => rfl
  | cons c rest ih =>
    by_cases h : c = separator
    · subst h
      rw [pieces_cons_self, pieces, List.intercalate_cons_cons]
      exact congrArg (c :: ·) ih
    · rw [pieces_cons_ne h]
      refine Eq.trans ?_ (congrArg (c :: ·) ih)
      rw [pieces]
      cases (cut separator rest).2 <;> simp

end FlightRecorder
