import Templating.Proofs.TokenTiles

/-!
The scans for the end of a literal and of a substitution. Each of them goes through its own text,
and where another literal or substitution begins it leaves that to a scan of its own, and goes on
after the end of it. Every scan of every text comes to one outcome, and the length that is counted
with a stack of open enclosures is that of the text it goes through.
-/
namespace Templating
open Text

namespace Enclosure

/-- Whether a backslash takes the next character with it. -/
def hasEscapes : Enclosure → Bool
  | quoted _ | template => true
  | substitution _ => false

def endsHere : Enclosure → Prop
  | quoted quote => quote ≠ '\\'
  | template => True
  | substitution depth => depth ≤ 1

/-- A step of a scan over some characters of its own. Only the count of open braces changes. -/
inductive Step : Enclosure → List Char → Enclosure → List Char → Prop
  | escape {e : Enclosure} {c : Char} {cs : List Char} (he : e.hasEscapes = true) :
      Step e ['\\', c] e cs
  | quoted {quote c : Char} {cs : List Char} (hc : c ≠ '\\') (hquote : c ≠ quote) :
      Step (.quoted quote) [c] (.quoted quote) cs
  | template {c : Char} {cs : List Char} (hc : c ≠ '\\') (hback : c ≠ '\x60')
      (hdollar : c = '$' → cs.head? ≠ some '\x7b') : Step .template [c] .template cs
  | opens {depth : Nat} {cs : List Char} :
      Step (.substitution depth) ['\x7b'] (.substitution (depth + 1)) cs
  | closes {depth : Nat} {cs : List Char} (hdepth : ¬depth ≤ 1) :
      Step (.substitution depth) ['\x7d'] (.substitution (depth - 1)) cs
  | inert {depth : Nat} {c : Char} {cs : List Char} (hc : isInert c = true) :
      Step (.substitution depth) [c] (.substitution depth) cs

/-- Where one scan leaves the text to another one. -/
inductive Opens : Enclosure → List Char → Enclosure → Prop
  | substitution : Opens .template ['$', '\x7b'] (.substitution 1)
  | string {depth : Nat} {c : Char} (hc : c = '\x22' ∨ c = '\x27') :
      Opens (.substitution depth) [c] (.quoted c)
  | template {depth : Nat} : Opens (.substitution depth) ['\x60'] .template

/-- What a scan comes to: nothing when the text ends first, and otherwise the text up to the closing
character and the text after that. -/
abbrev Outcome := Option (List Char × List Char)

def Outcome.after (piece : List Char) (r : Outcome) : Outcome := r.map fun p => (piece ++ p.1, p.2)

/-- A scan of a text, from the beginning of the inside of an enclosure on. -/
inductive Scan : Enclosure → List Char → Outcome → Prop
  | ends (e : Enclosure) : Scan e [] none
  | escapeEnds {e : Enclosure} (he : e.hasEscapes = true) : Scan e ['\\'] none
  | closes {e : Enclosure} {cs : List Char} (he : e.endsHere) :
      Scan e (e.closer :: cs) (some ([], cs))
  | step {e e' : Enclosure} {piece cs : List Char} {r : Outcome} (h : Step e piece e' cs)
      (hrest : Scan e' cs r) : Scan e (piece ++ cs) (r.after piece)
  | nested {e inner : Enclosure} {opener body cs rest : List Char} {r : Outcome}
      (h : Opens e opener inner) (hinner : Scan inner cs (some (body, rest)))
      (hrest : Scan e rest r) :
      Scan e (opener ++ cs) (r.after (opener ++ body ++ [inner.closer]))
  | unended {e inner : Enclosure} {opener cs : List Char} (h : Opens e opener inner)
      (hinner : Scan inner cs none) : Scan e (opener ++ cs) none

section Scans

variable {e e' inner : Enclosure} {opener piece body cs rest : List Char} {r : Outcome}

theorem Step.closer_eq (h : Step e piece e' cs) : e'.closer = e.closer := by
  cases h <;> rfl

theorem Step.ne_nil (h : Step e piece e' cs) : piece ≠ [] := by
  cases h <;> exact List.cons_ne_nil _ _

/-- A scan goes through its own text, the closing character and nothing else. -/
theorem Scan.eq_append (h : Scan e cs (some (body, rest))) : cs = body ++ e.closer :: rest := by
  generalize hr : some (body, rest) = r at h
  induction h generalizing body rest with
  | ends | escapeEnds | unended => cases hr
  | closes =>
    cases hr
    rfl
  | step hstep _ ih =>
    obtain ⟨⟨body', rest'⟩, rfl, hp⟩ := Option.map_eq_some_iff.mp hr.symm
    cases hp
    rw [ih rfl, hstep.closer_eq, List.append_assoc]
  | nested hopens _ _ ihinner ih =>
    obtain ⟨⟨body', rest'⟩, rfl, hp⟩ := Option.map_eq_some_iff.mp hr.symm
    cases hp
    rw [ihinner rfl, ih rfl]
    simp

def ScansUpTo (n : Nat) : Prop :=
  ∀ (e : Enclosure) (cs : List Char), cs.length ≤ n → ∃ r, Scan e cs r

theorem Step.exists_scan {n : Nat} (hn : ScansUpTo n) (h : Step e piece e' cs)
    (hlength : (piece ++ cs).length ≤ n + 1) : ∃ r, Scan e (piece ++ cs) r := by
  have hpiece := List.length_pos_iff.mpr h.ne_nil
  rw [List.length_append] at hlength
  obtain ⟨r, hrest⟩ := hn e' cs (by omega)
  exact ⟨_, .step h hrest⟩

theorem Opens.exists_scan {n : Nat} (hn : ScansUpTo n) (h : Opens e opener inner)
    (hlength : (opener ++ cs).length ≤ n + 1) : ∃ r, Scan e (opener ++ cs) r := by
  have hopener : 0 < opener.length := by cases h <;> exact Nat.zero_lt_succ _
  rw [List.length_append] at hlength
  obtain ⟨outcome, hinner⟩ := hn inner cs (by omega)
  cases outcome with
  | none => exact ⟨none, .unended h hinner⟩
  | some p =>
    -- what is left of the text is shorter
    have hcs := congrArg List.length hinner.eq_append
    rw [List.length_append, List.length_cons] at hcs
    obtain ⟨r, hrest⟩ := hn e p.2 (by omega)
    exact ⟨_, .nested h hinner hrest⟩

theorem exists_scan_cons {n : Nat} (hn : ScansUpTo n) {c : Char} (hlength : cs.length ≤ n) :
    ∃ r, Scan e (c :: cs) r := by
  have hcs : (c :: cs).length ≤ n + 1 := Nat.succ_le_succ hlength
  by_cases hslash : e.hasEscapes = true ∧ c = '\\'
  · obtain ⟨he, rfl⟩ := hslash
    cases cs with
    | nil => exact ⟨none, .escapeEnds he⟩
    | cons d ds =>
      have hstep : Step e ['\\', d] e ds := .escape he
      exact hstep.exists_scan hn hcs
  · cases e with
    | quoted quote =>
      have hc : c ≠ '\\' := fun hc => hslash ⟨rfl, hc⟩
      by_cases hquote : c = quote
      · subst hquote
        exact ⟨_, .closes (e := .quoted c) hc⟩
      · exact (Step.quoted hc hquote).exists_scan hn hcs
    | template =>
      have hc : c ≠ '\\' := fun hc => hslash ⟨rfl, hc⟩
      by_cases hback : c = '\x60'
      · subst hback
        exact ⟨_, .closes (e := .template) trivial⟩
      · by_cases hdollar : c = '$' ∧ cs.head? = some '\x7b'
        · obtain ⟨rfl, hhead⟩ := hdollar
          obtain ⟨ds, rfl⟩ := List.head?_eq_some_iff.mp hhead
          exact Opens.substitution.exists_scan hn hcs
        · have hplain : c = '$' → cs.head? ≠ some '\x7b' := fun hc hhead => hdollar ⟨hc, hhead⟩
          exact (Step.template hc hback hplain).exists_scan hn hcs
    | substitution depth =>
      by_cases hopen : c = '\x7b'
      · subst hopen
        exact Step.opens.exists_scan hn hcs
      · by_cases hclose : c = '\x7d'
        · subst hclose
          by_cases hdepth : depth ≤ 1
          · exact ⟨_, .closes (e := .substitution depth) hdepth⟩
          · exact (Step.closes hdepth).exists_scan hn hcs
        · by_cases hquote : c = '\x22' ∨ c = '\x27'
          · exact (Opens.string hquote).exists_scan hn hcs
          · by_cases hback : c = '\x60'
            · subst hback
              exact Opens.template.exists_scan hn hcs
            · have hinert : isInert c = true := by
                simp [isInert, fences, hopen, hclose, not_or.mp hquote, hback]
              exact (Step.inert hinert).exists_scan hn hcs

theorem exists_scan (e : Enclosure) (cs : List Char) : ∃ r, Scan e cs r := by
  have hall : ∀ n, ScansUpTo n := by
    intro n
    induction n with
    | zero =>
      intro e cs hlength
      rw [List.length_eq_zero_iff.mp (Nat.le_zero.mp hlength)]
      exact ⟨none, .ends e⟩
    | succ n ih =>
      intro e cs hlength
      cases cs with
      | nil => exact ⟨none, .ends e⟩
      | cons c cs => exact exists_scan_cons ih (Nat.le_of_succ_le_succ hlength)
  exact hall cs.length e cs (Nat.le_refl _)

/-- The length up to the end of the outermost enclosure, after a scan for the end of the innermost.
-/
def Outcome.lengthIn (outer : List Enclosure) (r : Outcome) : Option Nat :=
  r.bind fun p => (closingLength? outer p.2).map (· + (p.1.length + 1))

theorem Outcome.lengthIn_after (outer : List Enclosure) (r : Outcome) (piece : List Char) :
    (r.after piece).lengthIn outer = (r.lengthIn outer).map (· + piece.length) := by
  cases r with
  | none => rfl
  | some p =>
    simp only [lengthIn, after, Option.map_some, Option.bind_some, Option.map_map,
      List.length_append]
    congr 1
    funext n
    simp only [Function.comp_apply]
    omega

theorem closingLength?_dollar (outer : List Enclosure) (hcs : cs.head? ≠ some '\x7b') :
    closingLength? (.template :: outer) ('$' :: cs) =
      (closingLength? (.template :: outer) cs).map (· + 1) := by
  cases cs with
  | nil => simp [closingLength?]
  | cons c cs =>
    have hc : c ≠ '\x7b' := fun hc => hcs (congrArg some hc)
    rw [closingLength?.eq_def]
    simp [hc]

theorem Step.closingLength?_eq (h : Step e piece e' cs) (outer : List Enclosure) :
    closingLength? (e :: outer) (piece ++ cs) =
      (closingLength? (e' :: outer) cs).map (· + piece.length) := by
  cases h with
  | escape he =>
    cases e with
    | quoted quote => exact Keeps.quoted_escaped outer cs
    | template => exact Keeps.template_escaped outer cs
    | substitution => cases he
  | quoted hc hquote => exact Keeps.quoted_plain hc hquote outer cs
  | @template c _ hc hback hdollar =>
    by_cases hd : c = '$'
    · subst hd
      exact closingLength?_dollar outer (hdollar rfl)
    · exact Keeps.template_plain (by simp [isTemplateSpecial, hc, hback, hd]) outer cs
  | opens => exact Leads.opens_brace outer cs
  | closes hdepth => exact Leads.closes_brace hdepth outer cs
  | inert hc => exact Keeps.inert (by simpa using hc) outer cs

theorem Opens.leads (h : Opens e opener inner) : Leads [e] opener [inner, e] := by
  cases h with
  | substitution => exact Leads.opens_substitution
  | string hc => exact Leads.opens_quote hc
  | template => exact Leads.opens_template

theorem leads_closer (he : e.endsHere) : Leads [e] [e.closer] [] := by
  cases e with
  | quoted quote => exact (Closes.ofQuote quote he).leads
  | template => exact Closes.backquote.leads
  | substitution depth => exact Leads.closes_last he

/-- The length that is counted with the stack is told by the scan. -/
theorem Scan.closingLength?_eq (h : Scan e cs r) (outer : List Enclosure) :
    closingLength? (e :: outer) cs = r.lengthIn outer := by
  induction h generalizing outer with
  | ends => rfl
  | @escapeEnds e he =>
    cases e with
    | quoted | template => simp [closingLength?, Outcome.lengthIn]
    | substitution => cases he
  | closes he => exact leads_closer he outer _
  | step hstep _ ih => rw [hstep.closingLength?_eq, ih, Outcome.lengthIn_after]
  | @nested e inner opener body cs rest r hopens _ _ ihinner ih =>
    have hopen := hopens.leads outer cs
    simp only [List.cons_append, List.nil_append, ihinner] at hopen
    rw [hopen, Outcome.lengthIn_after, ← ih, Outcome.lengthIn, Option.bind_some, Option.map_map]
    congr 1
    funext n
    simp only [Function.comp_apply, List.length_append, List.length_singleton]
    omega
  | @unended e inner opener cs hopens _ ih =>
    have hopen := hopens.leads outer cs
    simp only [List.cons_append, List.nil_append, ih] at hopen
    exact hopen

theorem Scan.closingLength?_of_some (h : Scan e cs (some (body, rest))) :
    closingLength? [e] cs = some (body.length + 1) := by
  rw [h.closingLength?_eq, Outcome.lengthIn, Option.bind_some, closingLength?]
  simp

/-- The outcome is told by the length up to the end. -/
theorem Scan.eq_map (h : Scan e cs r) :
    r = (closingLength? [e] cs).map fun n => (cs.take (n - 1), cs.drop n) := by
  cases r with
  | none =>
    rw [h.closingLength?_eq]
    rfl
  | some p =>
    have hcs := h.eq_append
    rw [h.closingLength?_of_some, Option.map_some, Nat.add_sub_cancel, hcs, List.take_left,
      List.drop_length_add_append]
    rfl

theorem Scan.unique {r' : Outcome} (h : Scan e cs r) (h' : Scan e cs r') : r' = r := by
  rw [h.eq_map, h'.eq_map]

/-- A scan comes to the text before the character that ends the enclosure. -/
theorem scan_of_closingLength? (hcs : cs = body ++ e.closer :: rest)
    (hclosing : closingLength? [e] cs = some (body.length + 1)) :
    Scan e cs (some (body, rest)) := by
  obtain ⟨r, h⟩ := exists_scan e cs
  have hr := h.eq_map
  rw [hclosing, Option.map_some, Nat.add_sub_cancel, hcs, List.take_left,
    List.drop_length_add_append] at hr
  rwa [hr] at h

theorem scan_of_eq_none (h : closingLength? [e] cs = none) : Scan e cs none := by
  obtain ⟨r, hscan⟩ := exists_scan e cs
  have hr := hscan.eq_map
  rw [h] at hr
  rwa [hr] at hscan

theorem exists_scan_of_eq_some {n : Nat} (h : closingLength? [e] cs = some n) :
    ∃ body rest, Scan e cs (some (body, rest)) ∧ n = body.length + 1 := by
  obtain ⟨r, hscan⟩ := exists_scan e cs
  cases r with
  | none =>
    rw [hscan.closingLength?_eq] at h
    cases h
  | some p => exact ⟨p.1, p.2, hscan, Option.some.inj (h.symm.trans hscan.closingLength?_of_some)⟩

/-- Where a scan ends does not depend on what comes after that. -/
theorem Scan.replace_rest (h : Scan e cs (some (body, rest))) (rest' : List Char) :
    Scan e (body ++ e.closer :: rest') (some (body, rest')) := by
  have hleads := (leads_of_closingLength? h.closingLength?_of_some).2
  have htake : cs.take (body.length + 1) = body ++ [e.closer] := by
    rw [h.eq_append, List.take_length_add_append]
    rfl
  have hend := hleads [] rest'
  rw [htake, List.append_assoc] at hend
  refine scan_of_closingLength? rfl (hend.trans ?_)
  simp [closingLength?]

end Scans

end Enclosure
end Templating
