/-!
Sizes and offsets of texts in bytes of UTF-8, the unit in which every position of a template is
given, and the lines they fall on.
-/
namespace Templating.Text

def utf8Size (cs : List Char) : Nat := cs.foldr (fun c n => c.utf8Size + n) 0

@[simp] theorem utf8Size_nil : utf8Size [] = 0 := rfl

@[simp] theorem utf8Size_cons (c : Char) (cs : List Char) :
    utf8Size (c :: cs) = c.utf8Size + utf8Size cs := rfl

@[simp] theorem utf8Size_append (cs ds : List Char) :
    utf8Size (cs ++ ds) = utf8Size cs + utf8Size ds := by
  induction cs with
  | nil => simp
  | cons c cs ih => simp [ih, Nat.add_assoc]

theorem length_le_utf8Size (cs : List Char) : cs.length ≤ utf8Size cs := by
  induction cs with
  | nil => simp
  | cons c cs ih => have := c.utf8Size_pos; simp; omega

theorem utf8Size_ofList (cs : List Char) : utf8Size cs = (String.ofList cs).utf8ByteSize := by
  induction cs with
  | nil => simp
  | cons c cs ih =>
    have h : String.ofList (c :: cs) = String.singleton c ++ String.ofList cs := by
      rw [String.singleton_eq_ofList, ← String.ofList_append]
      rfl
    rw [utf8Size_cons, ih, h, String.utf8ByteSize_append, String.utf8ByteSize_singleton]

@[simp] theorem utf8Size_toList (s : String) : utf8Size s.toList = s.utf8ByteSize := by
  rw [utf8Size_ofList, String.ofList_toList]

def lineFeeds (cs : List Char) : Nat := cs.count '\n'

def utf8Bytes (cs : List Char) : List Nat :=
  cs.flatMap fun c => (String.utf8EncodeChar c).map UInt8.toNat

/-- The characters that begin before byte `offset` and end at or before it. -/
def takeBytes : Nat → List Char → List Char
  | _, [] => []
  | offset, c :: cs =>
    if c.utf8Size ≤ offset then c :: takeBytes (offset - c.utf8Size) cs else []

theorem takeBytes_utf8Size (cs ds : List Char) : takeBytes (utf8Size cs) (cs ++ ds) = cs := by
  induction cs with
  | nil =>
    cases ds with
    | nil => rfl
    | cons d ds => have := d.utf8Size_pos; simp [takeBytes]; omega
  | cons c cs ih => simp [takeBytes, ih]

theorem takeBytes_isPrefix (offset : Nat) (cs : List Char) : takeBytes offset cs <+: cs := by
  induction cs generalizing offset with
  | nil => simp [takeBytes]
  | cons c cs ih =>
    simp only [takeBytes]
    split
    · exact List.cons_prefix_cons.mpr ⟨rfl, ih _⟩
    · exact List.nil_prefix

theorem utf8Size_takeBytes_le (offset : Nat) (cs : List Char) :
    utf8Size (takeBytes offset cs) ≤ offset := by
  induction cs generalizing offset with
  | nil => simp [takeBytes]
  | cons c cs ih =>
    simp only [takeBytes]
    split
    · have := ih (offset - c.utf8Size)
      rw [utf8Size_cons]
      omega
    · simp

/-- Whatever the text begins with in at most `offset` bytes is among the characters taken. -/
theorem prefix_takeBytes {offset : Nat} {before cs : List Char} (hbefore : before <+: cs)
    (hsize : utf8Size before ≤ offset) : before <+: takeBytes offset cs := by
  induction cs generalizing offset before with
  | nil => simpa [takeBytes] using hbefore
  | cons c cs ih =>
    cases before with
    | nil => exact List.nil_prefix
    | cons b before =>
      obtain ⟨rfl, hrest⟩ := List.cons_prefix_cons.mp hbefore
      rw [utf8Size_cons] at hsize
      rw [takeBytes, if_pos (by omega)]
      exact List.cons_prefix_cons.mpr ⟨rfl, ih hrest (by omega)⟩

theorem takeBytes_mono {m n : Nat} (h : m ≤ n) (cs : List Char) :
    takeBytes m cs <+: takeBytes n cs :=
  prefix_takeBytes (takeBytes_isPrefix m cs) (Nat.le_trans (utf8Size_takeBytes_le m cs) h)

end Templating.Text
