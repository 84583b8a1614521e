import Templating.Proofs.Occurrences
import Templating.Proofs.TextLengths

/-!
Splitting a text and replacing in it. Both cut it at the same places, those that are met from the
left, each behind the one before: the parts with the separator between them are the text, and with
another text between them what replacing all gives. A function that replaces is called once for each
place, from the left.
-/
namespace Templating.Text

variable {p cs : List Char} {start i width : Nat} {is : List Nat}

/-- The places of `p` from some place on: each is the first that is not before the end of the one
before. The empty text is met once at every place. -/
inductive Places (p cs : List Char) : Nat → List Nat → Prop
  | none {start : Nat} (h : ∀ k, BeginsAt p cs k → k < start) : Places p cs start []
  | first {start i : Nat} {is : List Nat} (least : IsLeast {k | start ≤ k ∧ BeginsAt p cs k} i)
      (more : Places p cs (max (i + p.length) (i + 1)) is) : Places p cs start (i :: is)

/-- The parts of a text from one place up to others, leaving out so many characters at each. -/
def piecesAt (width : Nat) (cs : List Char) : Nat → List Nat → List (List Char)
  | start, [] => [cs.drop start]
  | start, i :: is => between cs start i :: piecesAt width cs (i + width) is

theorem isLeast_of_firstIndex? (hstart : start ≤ cs.length)
    (h : firstIndex? p (cs.drop start) = some i) :
    IsLeast {k | start ≤ k ∧ BeginsAt p cs k} (start + i) := by
  obtain ⟨hbegins, hleast⟩ := firstIndex?_isLeast h
  refine ⟨⟨Nat.le_add_right start i, (beginsAt_drop hstart).mp hbegins⟩, ?_⟩
  rintro k ⟨hk, hbegins⟩
  obtain ⟨j, rfl⟩ := Nat.exists_eq_add_of_le hk
  exact Nat.add_le_add_left (hleast ((beginsAt_drop hstart).mpr hbegins)) start

theorem lt_of_firstIndex? (hstart : start ≤ cs.length)
    (h : firstIndex? p (cs.drop start) = none) {k : Nat} (hk : BeginsAt p cs k) : k < start := by
  by_contra hge
  obtain ⟨j, rfl⟩ := Nat.exists_eq_add_of_le (Nat.le_of_not_lt hge)
  exact firstIndex?_eq_none_iff.mp h j ((beginsAt_drop hstart).mpr hk)

theorem piecesFrom_of_none (h : firstIndex? p cs = none) : piecesFrom p 0 cs = [cs] := by
  induction cs with
  | nil => rfl
  | cons c cs ih =>
    rw [firstIndex?] at h
    split_ifs at h with hp
    rw [piecesFrom, if_neg hp, ih (Option.map_eq_none_iff.mp h), consFirst]

theorem piecesFrom_of_some (hne : p ≠ []) (h : firstIndex? p cs = some i) :
    piecesFrom p 0 cs = cs.take i :: piecesFrom p 0 (cs.drop (i + p.length)) := by
  induction cs generalizing i with
  | nil =>
    rw [firstIndex?, if_neg (by simpa using hne)] at h
    cases h
  | cons c cs ih =>
    rw [firstIndex?] at h
    split_ifs at h with hp
    · cases h
      obtain ⟨width, hwidth⟩ := Nat.exists_eq_succ_of_ne_zero (List.length_pos_iff.mpr hne).ne'
      rw [piecesFrom, if_pos hp, piecesFrom_skip, hwidth]
      simp
    · obtain ⟨j, hj, rfl⟩ := Option.map_eq_some_iff.mp h
      rw [piecesFrom, if_neg hp, ih hj, consFirst, List.take_succ_cons, Nat.succ_add,
        List.drop_succ_cons]

/-- Cutting goes from place to place. -/
theorem exists_places_piecesFrom (hne : p ≠ []) (hstart : start ≤ cs.length) :
    ∃ is, Places p cs start is ∧
      piecesFrom p 0 (cs.drop start) = piecesAt p.length cs start is := by
  have hpos := List.length_pos_iff.mpr hne
  induction hleft : cs.length - start using Nat.strong_induction_on generalizing start with
  | _ left ih =>
    cases hfirst : firstIndex? p (cs.drop start) with
    | none =>
      exact ⟨[], .none fun k => lt_of_firstIndex? hstart hfirst, piecesFrom_of_none hfirst⟩
    | some i =>
      have hleast := isLeast_of_firstIndex? hstart hfirst
      have hnext : start + i + p.length ≤ cs.length := hleast.1.2.length_le
      obtain ⟨is, hplaces, hpieces⟩ := ih _ (by omega) hnext rfl
      refine ⟨(start + i) :: is, .first hleast ?_, ?_⟩
      · rwa [Nat.max_eq_left (by omega)]
      · rw [piecesFrom_of_some hne hfirst, List.drop_drop, ← Nat.add_assoc, hpieces, piecesAt,
          between_add]

/-- The empty text cuts off every character. -/
theorem piecesAt_range' (cs : List Char) {n : Nat} (h : start + n = cs.length) :
    piecesAt 0 cs start (List.range' (start + 1) n) = (cs.drop start).map ([·]) ++ [[]] := by
  induction n generalizing start with
  | zero =>
    obtain rfl : start = cs.length := h
    simp [piecesAt]
  | succ n ih =>
    have hlt : start < cs.length := by omega
    have hpart : between cs start (start + 1) = [cs[start]] := by
      rw [between_add, List.drop_eq_getElem_cons hlt]
      rfl
    rw [List.range'_succ, piecesAt, Nat.add_zero, hpart, ih (by omega),
      List.drop_eq_getElem_cons hlt, List.map_cons, List.cons_append]

theorem places_range' (cs : List Char) {n : Nat} (h : start + n = cs.length + 1) :
    Places [] cs start (List.range' start n) := by
  induction n generalizing start with
  | zero =>
    refine .none fun k hk => ?_
    have hwithin := hk.within
    omega
  | succ n ih =>
    have hleast : IsLeast {k | start ≤ k ∧ BeginsAt [] cs k} start :=
      ⟨⟨le_refl _, by omega, List.nil_prefix⟩, fun k hk => hk.1⟩
    refine .first hleast ?_
    rw [List.length_nil, Nat.add_zero, Nat.max_eq_right (Nat.le_succ start)]
    exact ih (by omega)

/-- A text is cut at the places that are met from its beginning. -/
theorem exists_places_pieces (p cs : List Char) :
    ∃ is, Places p cs 0 is ∧ pieces p cs = piecesAt p.length cs 0 is := by
  rcases eq_or_ne p [] with rfl | hne
  · refine ⟨List.range' 0 (cs.length + 1), places_range' cs (Nat.zero_add _), ?_⟩
    have hrest := piecesAt_range' cs (Nat.zero_add cs.length)
    rw [List.range'_succ, List.length_nil, piecesAt, Nat.add_zero, hrest]
    rfl
  · rw [pieces, if_neg (by simpa using hne)]
    exact exists_places_piecesFrom hne (Nat.zero_le _)

def spliced (width : Nat) (cs : List Char) : Nat → List Nat → List (List Char) → List Char
  | start, i :: is, t :: ts => between cs start i ++ t ++ spliced width cs (i + width) is ts
  | start, _, _ => cs.drop start

theorem exists_piecesAt_cons (width : Nat) (cs : List Char) (start : Nat) (is : List Nat) :
    ∃ part parts, piecesAt width cs start is = part :: parts := by
  cases is with
  | nil => exact ⟨_, _, rfl⟩
  | cons i is => exact ⟨_, _, rfl⟩

/-- The same text between all parts. -/
theorem intercalate_piecesAt (r : List Char) (width : Nat) (cs : List Char) (start : Nat)
    (is : List Nat) : r.intercalate (piecesAt width cs start is) =
      spliced width cs start is (List.replicate is.length r) := by
  induction is generalizing start with
  | nil => simp [piecesAt, spliced]
  | cons i is ih =>
    obtain ⟨part, parts, hparts⟩ := exists_piecesAt_cons width cs (i + width) is
    rw [piecesAt, List.length_cons, List.replicate_succ, spliced, ← ih, hparts,
      List.intercalate_cons_cons]

/-- The text that was cut at gives the whole again. -/
theorem Places.spliced_self (h : Places p cs start is) {before : Nat} (hle : before ≤ start) :
    spliced p.length cs before is (List.replicate is.length p) = cs.drop before := by
  induction h generalizing before with
  | none => rfl
  | @first start i is least more ih =>
    have hmore : spliced p.length cs (i + p.length) is (List.replicate is.length p) =
        cs.drop (i + p.length) := ih (le_max_left _ _)
    obtain ⟨n, rfl⟩ := Nat.exists_eq_add_of_le (hle.trans least.1.1)
    have hpart : (cs.drop (before + n)).take p.length = p :=
      (List.prefix_iff_eq_take.mp least.1.2.begins).symm
    rw [List.length_cons, List.replicate_succ, spliced, hmore, between_add]
    calc (cs.drop before).take n ++ p ++ cs.drop (before + n + p.length)
        = (cs.drop before).take n ++ (cs.drop (before + n)).take p.length ++
            (cs.drop (before + n)).drop p.length := by rw [hpart, List.drop_drop]
      _ = (cs.drop before).take n ++ (cs.drop before).drop n := by
          rw [List.append_assoc, List.take_append_drop, List.drop_drop]
      _ = cs.drop before := List.take_append_drop n _

end Templating.Text

namespace Templating.StringMethod
open Text

variable {σ : Type} {s p r : String}

theorem joinReplaced_pure (t : List Char) (width index : Nat) (parts : List (List Char)) :
    joinReplaced (fun _ => (pure t : EvalM σ (List Char))) width index parts =
      pure (t.intercalate parts) := by
  induction parts generalizing index with
  | nil => rfl
  | cons part parts ih =>
    cases parts with
    | nil => simp [joinReplaced]
    | cons part' parts =>
      rw [joinReplaced, ih, pure_bind, pure_bind, List.intercalate_cons_cons]
      · simp

/-- The texts that are put in are asked for from place to place, at all of them or at the first ones
only. -/
theorem joinReplaced_piecesAt (act : Nat → EvalM σ Value) {q cs : List Char} {start : Nat}
    {is : List Nat} (h : Places q cs start is) (n : Nat) {before : Nat} (hle : before ≤ start) :
    joinReplaced (fun i => do return (← act i).toText.toList) q.length before
        (piecesAt q.length cs before (is.take n)) = (do
      let results ← (is.take n).mapM act
      return spliced q.length cs before (is.take n) (results.map (·.toText.toList))) := by
  induction h generalizing n before with
  | none => simp [piecesAt, joinReplaced, spliced]
  | @first start i is least more ih =>
    cases n with
    | zero => simp [piecesAt, joinReplaced, spliced]
    | succ n =>
      obtain ⟨part, parts, hparts⟩ := exists_piecesAt_cons q.length cs (i + q.length) (is.take n)
      have hwithin := least.1.2.within
      have hindex : before + (between cs before i).length = i := by
        have hbefore := hle.trans least.1.1
        rw [between, List.length_drop, List.length_take]
        omega
      have hmore := ih n (le_max_left _ _)
      rw [List.take_succ_cons, piecesAt, hparts, joinReplaced, hindex, ← hparts, hmore]
      · simp [spliced]
      · simp

theorem firstPieces_eq {q cs : List Char} {is : List Nat} (h : Places q cs 0 is) :
    firstPieces q cs = piecesAt q.length cs 0 (is.take 1) := by
  cases h with
  | none h =>
    have hnone : firstIndex? q cs = none :=
      firstIndex?_eq_none_iff.mpr fun k hk => Nat.not_lt_zero k (h k hk)
    rw [firstPieces, hnone]
    rfl
  | @first _ i is least more =>
    have hsome : firstIndex? q cs = some i := by simpa [firstIndex?_eq_some_iff] using least
    rw [firstPieces, hsome]
    rfl

def splitJoin (call : Caller σ) (s p r : String) : EvalM σ (Option Value) := do
  match ← callMethod call (.string s) "split" [.string p] with
  | some parts => callMethod call parts "join" [.string r]
  | none => return none

/-- Splitting at `p` and joining with `r` gives a text, whatever functions do; only the array of the
parts is new. -/
def SplitJoins (s p r t : String) : Prop :=
  ∀ (σ : Type) (call : Caller σ) (st : EvalState σ), (splitJoin call s p r).run.run st =
    (.ok (some (.string t)), { st with identity := st.identity + 1 })

theorem join_ofChars (r : String) (parts : List (List Char)) :
    ArrayMethod.join (.string r) (parts.map ofChars) =
      String.ofList (r.toList.intercalate parts) := by
  have htexts : (parts.map ofChars).map (fun item => if item.isNullish then "" else item.toText) =
      parts.map String.ofList := by
    rw [List.map_map]
    rfl
  have hjoin : ArrayMethod.join (.string r) (parts.map ofChars) =
      r.intercalate (parts.map String.ofList) := congrArg (String.intercalate r) htexts
  rw [hjoin, ← String.toList_inj, String.toList_intercalate, String.toList_ofList, List.map_map]
  simp [Function.comp_def]

theorem splitJoins (s p r : String) : SplitJoins s p r
    (String.ofList (r.toList.intercalate (splitParts s.toList (.string p)))) := by
  intro σ call st
  rw [← join_ofChars]
  rfl

theorem splitParts_of_ne (h : p ≠ "") (cs : List Char) :
    splitParts cs (.string p) = pieces p.toList cs := by
  have hlist : ¬p.toList.isEmpty = true := by simpa using h
  exact if_neg hlist

theorem intercalate_chars (cs : List Char) : [].intercalate (cs.map ([·])) = cs := by
  induction cs with
  | nil => rfl
  | cons c cs ih =>
    cases cs with
    | nil => rfl
    | cons c' cs =>
      rw [List.map_cons] at ih
      rw [List.map_cons, List.map_cons, List.intercalate_cons_cons, ih]
      rfl

/-- The separator between the parts is the text again. -/
theorem intercalate_splitParts (p : String) (cs : List Char) :
    p.toList.intercalate (splitParts cs (.string p)) = cs := by
  rcases eq_or_ne p "" with rfl | hne
  · exact intercalate_chars cs
  · obtain ⟨is, hplaces, hpieces⟩ := exists_places_pieces p.toList cs
    rw [splitParts_of_ne hne, hpieces, intercalate_piecesAt, hplaces.spliced_self (le_refl 0)]
    rfl

theorem replace_string (call : Caller σ) (every : Bool) (cs : List Char) (p r : String) :
    replace call every cs [.string p, .string r] = pure (r.toList.intercalate
      (if every then pieces p.toList cs else firstPieces p.toList cs)) :=
  joinReplaced_pure r.toList p.toList.length 0 _

theorem answers_replaceAll (s p r : String) :
    Answers s "replaceAll" [.string p, .string r]
      (.ok (ofChars (r.toList.intercalate (pieces p.toList s.toList)))) := by
  intro σ call st
  have hrun : callMethod call (.string s) "replaceAll" [.string p, .string r] = (do
      return some (ofChars (← replace call true s.toList [.string p, .string r]))) := rfl
  rw [hrun, replace_string]
  rfl

theorem answers_replace (s p r : String) :
    Answers s "replace" [.string p, .string r]
      (.ok (ofChars (r.toList.intercalate (firstPieces p.toList s.toList)))) := by
  intro σ call st
  have hrun : callMethod call (.string s) "replace" [.string p, .string r] = (do
      return some (ofChars (← replace call false s.toList [.string p, .string r]))) := rfl
  rw [hrun, replace_string]
  rfl

/-- Replacing puts another text in the first place where `p` stands, and there only. -/
structure ReplacesFirst (s p r : String) : Prop where
  absent : (∀ k, ¬BeginsAt p.toList s.toList k) →
    Answers s "replace" [.string p, .string r] (.ok (.string s))
  present : ∀ i, IsLeast {k | BeginsAt p.toList s.toList k} i → ∃ before after : String,
    s = before ++ p ++ after ∧ before.length = i ∧
      Answers s "replace" [.string p, .string r] (.ok (.string (before ++ r ++ after)))

theorem replacesFirst (s p r : String) : ReplacesFirst s p r where
  absent h := by
    have hanswer := answers_replace s p r
    rw [firstPieces, firstIndex?_eq_none_iff.mpr h, List.intercalate_singleton, ofChars,
      String.ofList_toList] at hanswer
    exact hanswer
  present i h := by
    refine ⟨String.ofList (s.toList.take i), String.ofList (s.toList.drop (i + p.toList.length)),
      ?_, ?_, ?_⟩
    · rw [← String.toList_inj]
      simpa using h.1.splits
    · have hwithin := h.1.within
      rw [String.length_ofList, List.length_take, Nat.min_eq_left hwithin]
    · have hanswer := answers_replace s p r
      rw [firstPieces, firstIndex?_eq_some_iff.mpr h, List.intercalate_cons_cons,
        List.intercalate_singleton, ofChars, String.ofList_append, String.ofList_append,
        String.ofList_toList] at hanswer
      exact hanswer

/-- Calls a function for one place after the other, with the text that stands there, the place and
the whole text, and puts the texts of its results in. -/
def replacedBy (call : Caller σ) (f : Function) (s p : String) (places : List Nat) :
    EvalM σ Value := do
  let results ← places.mapM fun i => call f [.string p, .nat i, .string s]
  return .string (String.ofList
    (spliced p.length s.toList 0 places (results.map (·.toText.toList))))

theorem joinReplaced_replacement {places : List Nat} (h : Places p.toList s.toList 0 places)
    (n : Nat) (call : Caller σ) (f : Function) : (do
      let cs ← joinReplaced (replacement call p.toList s.toList (.function f)) p.toList.length 0
        (piecesAt p.toList.length s.toList 0 (places.take n))
      return some (ofChars cs)) = some <$> replacedBy call f s p (places.take n) := by
  have hreplacement : replacement call p.toList s.toList (.function f) = fun i => do
      return (← call f [.string p, .nat i, .string s]).toText.toList := by
    funext i
    simp only [replacement, ofChars, String.ofList_toList]
  rw [hreplacement, joinReplaced_piecesAt _ h n (le_refl 0), replacedBy, String.length_toList]
  simp [ofChars]

/-- A text that is split and joined with the separator is the same text, and joined with another one
it is the text with all places replaced. Replacing without all changes the first place only, and a
function that replaces is called for each place that is replaced, from the left. -/
theorem split_and_replace (s p r : String) :
    SplitJoins s p p s ∧
    (p ≠ "" → ∃ t, SplitJoins s p r t ∧
      Answers s "replaceAll" [.string p, .string r] (.ok (.string t))) ∧
    ReplacesFirst s p r ∧
    ∃ places, Places p.toList s.toList 0 places ∧
      ∀ (σ : Type) (call : Caller σ) (f : Function),
        callMethod call (.string s) "replaceAll" [.string p, .function f] =
          some <$> replacedBy call f s p places ∧
        callMethod call (.string s) "replace" [.string p, .function f] =
          some <$> replacedBy call f s p (places.take 1) := by
  refine ⟨?_, ?_, replacesFirst s p r, ?_⟩
  · have hjoin := splitJoins s p p
    rwa [intercalate_splitParts, String.ofList_toList] at hjoin
  · intro hne
    have hjoin := splitJoins s p r
    rw [splitParts_of_ne hne] at hjoin
    exact ⟨_, hjoin, answers_replaceAll s p r⟩
  · obtain ⟨places, hplaces, hpieces⟩ := exists_places_pieces p.toList s.toList
    refine ⟨places, hplaces, fun σ call f => ⟨?_, ?_⟩⟩
    · have hall := joinReplaced_replacement hplaces places.length call f
      rw [List.take_length, ← hpieces] at hall
      exact hall
    · have hfirst := joinReplaced_replacement hplaces 1 call f
      rw [← firstPieces_eq hplaces] at hfirst
      exact hfirst

end Templating.StringMethod
