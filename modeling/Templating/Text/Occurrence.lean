/-!
Occurrences of one text in another: whether there is one, the first, the last, and the pieces
between the leftmost occurrences that do not overlap. Indices count characters.
-/
namespace Templating.Text

def occurs (p : List Char) : List Char → Bool
  | [] => p.isEmpty
  | c :: cs => p.isPrefixOf (c :: cs) || occurs p cs

def firstIndex? (p : List Char) : List Char → Option Nat
  | [] => if p.isEmpty then some 0 else none
  | c :: cs => if p.isPrefixOf (c :: cs) then some 0 else (firstIndex? p cs).map (· + 1)

def lastIndex? (p : List Char) : List Char → Option Nat
  | [] => if p.isEmpty then some 0 else none
  | c :: cs =>
    match lastIndex? p cs with
    | some i => some (i + 1)
    | none => if p.isPrefixOf (c :: cs) then some 0 else none

def consFirst (c : Char) : List (List Char) → List (List Char)
  | [] => [[c]]
  | piece :: pieces => (c :: piece) :: pieces

/-- Here `skip` characters of an occurrence are still to be passed over. -/
def piecesFrom (p : List Char) : Nat → List Char → List (List Char)
  | _, [] => [[]]
  | skip + 1, _ :: cs => piecesFrom p skip cs
  | 0, c :: cs =>
    if p.isPrefixOf (c :: cs) then [] :: piecesFrom p (p.length - 1) cs
    else consFirst c (piecesFrom p 0 cs)

/-- The text cut at each occurrence of `p`; the empty text occurs before every character and at the
end. -/
def pieces (p cs : List Char) : List (List Char) :=
  if p.isEmpty then [] :: cs.map ([·]) ++ [[]] else piecesFrom p 0 cs

theorem piecesFrom_skip (p : List Char) (skip : Nat) (cs : List Char) :
    piecesFrom p skip cs = piecesFrom p 0 (cs.drop skip) := by
  induction cs generalizing skip with
  | nil => cases skip <;> simp [piecesFrom]
  | cons c cs ih => cases skip with
    | zero => rfl
    | succ skip => simp [piecesFrom, ih skip]

theorem occurs_eq_isSome_firstIndex? (p cs : List Char) :
    occurs p cs = (firstIndex? p cs).isSome := by
  induction cs with
  | nil => cases p <;> simp [occurs, firstIndex?]
  | cons c cs ih => by_cases h : p.isPrefixOf (c :: cs) <;> simp [occurs, firstIndex?, h, ih]

end Templating.Text
