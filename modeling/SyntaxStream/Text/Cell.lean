namespace SyntaxStream.Text

-- One byte of a UTF-8 text: the character it belongs to, and whether it is the first byte of it.
structure Cell where
  char : Char
  opens : Bool
deriving Repr, DecidableEq

def cellsOf (c : Char) : List Cell :=
  ⟨c, true⟩ :: List.replicate (c.utf8Size - 1) ⟨c, false⟩

def cells (cs : List Char) : List Cell :=
  cs.flatMap cellsOf

-- The characters whose first byte is in the list.
def opened (bytes : List Cell) : List Char :=
  bytes.filterMap fun b => if b.opens then some b.char else none

def byteLength : List Char → Nat
  | [] => 0
  | c :: cs => c.utf8Size + byteLength cs

def between (bytes : List Cell) (a b : Nat) : List Cell :=
  (bytes.drop a).take (b - a)

def slice (bytes : List Cell) (a b : Nat) : String :=
  String.ofList (opened (between bytes a b))

theorem length_cellsOf (c : Char) : (cellsOf c).length = c.utf8Size := by
  have := c.utf8Size_pos
  simp only [cellsOf, List.length_cons, List.length_replicate]
  omega

theorem cells_cons (c : Char) (cs : List Char) : cells (c :: cs) = cellsOf c ++ cells cs := rfl

theorem cells_append (xs ys : List Char) : cells (xs ++ ys) = cells xs ++ cells ys := by
  simp [cells]

theorem length_cells (cs : List Char) : (cells cs).length = byteLength cs := by
  induction cs with
  | nil => rfl
  | cons c cs ih => simp [cells_cons, byteLength, length_cellsOf, ih]

theorem opened_append (xs ys : List Cell) : opened (xs ++ ys) = opened xs ++ opened ys := by
  simp [opened]

theorem opened_cellsOf (c : Char) : opened (cellsOf c) = [c] := by
  simp [opened, cellsOf]

theorem opened_cells (cs : List Char) : opened (cells cs) = cs := by
  induction cs with
  | nil => rfl
  | cons c cs ih => rw [cells_cons, opened_append, opened_cellsOf, ih]; rfl

end SyntaxStream.Text
