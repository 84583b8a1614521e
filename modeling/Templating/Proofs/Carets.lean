import Templating.Proofs.Locations

/-!
What a diagnostic points at. It prints the text of the line with the place, without the ending of
the line, and as many characters stand before the caret as before the place on its line, tabs where
the line has tabs. Only on a line feed after a carriage return there is no room for that: the
carriage return counts in the column, and is not printed.
-/
namespace Templating
open Text

section

variable {source more : List Char} {offset : Nat}

/-- The offset is that of a line feed with a carriage return before it. -/
def OnPairFeed (source : List Char) (offset : Nat) : Prop :=
  ∃ front after, source = front ++ '\r' :: '\n' :: after ∧ offset = utf8Size front + 1

theorem OnPairFeed.exists_taken (h : OnPairFeed source offset) :
    ∃ front after, source = front ++ '\r' :: '\n' :: after ∧
      takeBytes offset source = front ++ ['\r'] := by
  obtain ⟨front, after, rfl, rfl⟩ := h
  have hsize : utf8Size (front ++ ['\r']) = utf8Size front + 1 := by
    rw [utf8Size_append]
    rfl
  have htake := takeBytes_utf8Size (front ++ ['\r']) ('\n' :: after)
  rw [hsize, List.append_assoc] at htake
  exact ⟨front, after, rfl, htake⟩

theorem onPairFeed_iff (hsource : takeBytes offset source ++ more = source) :
    OnPairFeed source offset ↔
      (takeBytes offset source).getLast? = some '\r' ∧ more.head? = some '\n' := by
  constructor
  · intro h
    obtain ⟨front, after, hpair, htaken⟩ := h.exists_taken
    rw [htaken, hpair, List.append_assoc, List.append_cancel_left_eq] at hsource
    obtain ⟨-, rfl⟩ := List.cons.inj hsource
    simp [htaken]
  · rintro ⟨hreturn, hfeed⟩
    obtain ⟨front, hfront⟩ := List.getLast?_eq_some_iff.mp hreturn
    obtain ⟨after, rfl⟩ := List.head?_eq_some_iff.mp hfeed
    have hcut : source = front ++ '\r' :: '\n' :: after := by
      rw [hfront, List.append_assoc] at hsource
      exact hsource.symm
    have hle := utf8Size_takeBytes_le offset source
    have hlt : offset < utf8Size (front ++ ['\r', '\n']) := by
      by_contra hge
      have hpair : front ++ ['\r', '\n'] <+: source := ⟨after, by simp [hcut]⟩
      have hlength := (prefix_takeBytes hpair (Nat.le_of_not_lt hge)).length_le
      simp [hfront] at hlength
    have hsize : '\r'.utf8Size = 1 ∧ '\n'.utf8Size = 1 := by decide
    simp only [hfront, utf8Size_append, utf8Size_cons, utf8Size_nil, hsize] at hle hlt
    exact ⟨front, after, hcut, by omega⟩

instance (source : List Char) (offset : Nat) : Decidable (OnPairFeed source offset) :=
  decidable_of_iff _
    (onPairFeed_iff (List.prefix_iff_eq_append.mp (takeBytes_isPrefix offset source))).symm

end

section

variable {before last more text : List Char} {lines : List (List Char)}

theorem Lined.append_flat (h : Lined before lines last) (hmore : '\n' ∉ more) :
    Lined (before ++ more) lines (last ++ more) where
  eq := by rw [h.eq, List.append_assoc]
  lines_flat := h.lines_flat
  last_flat := by simp [h.last_flat, hmore]

theorem Lined.exists_lineAfter (h : Lined before lines last) (more : List Char) :
    ∃ text, LineAfter (before ++ more) lines text := by
  obtain ⟨text, rest, hcut, hflat, hend⟩ := exists_lineEnd (last ++ more)
  refine ⟨text, h.lines_flat, hflat, rest, ?_, hend⟩
  rw [h.eq, List.append_assoc, hcut, List.append_assoc]

/-- What stands before a place on its line is in the text of the line, unless the place is within
the ending. -/
theorem LineAfter.prefix_or (h : LineAfter (before ++ more) lines text)
    (hlined : Lined before lines last) :
    last <+: text ∨ last = text ++ ['\r'] ∧ more.head? = some '\n' := by
  obtain ⟨-, -, rest, hcut, hend⟩ := h
  rw [hlined.eq, List.append_assoc, List.append_assoc, List.append_cancel_left_eq] at hcut
  rcases List.append_eq_append_iff.mp hcut with ⟨further, rfl, -⟩ | ⟨extra, hlast, hrest⟩
  · exact .inl (List.prefix_append _ _)
  -- what the text lacks is the beginning of the ending, up to the line feed
  have hflat : '\n' ∉ extra := fun hmem =>
    hlined.last_flat (hlast ▸ List.mem_append_right text hmem)
  match extra, hend with
  | [], _ => exact .inl (by simp [hlast])
  | c :: extra, .nothing => simp at hrest
  | c :: extra, .feed after _ =>
    obtain ⟨rfl, -⟩ := List.cons.inj hrest
    simp at hflat
  | [c], .pair after =>
    obtain ⟨rfl, hafter⟩ := List.cons.inj hrest
    exact .inr ⟨hlast, by simpa using congrArg List.head? hafter.symm⟩
  | c :: d :: extra, .pair after =>
    obtain ⟨rfl, -⟩ := List.cons.inj (List.cons.inj hrest).2
    simp at hflat

end

theorem length_indentation (column : Nat) (text : List Char) :
    (indentation column text).length = min (column - 1) text.length := by
  simp [indentation]

theorem getElem?_indentation {column i : Nat} {text : List Char}
    (h : i < (indentation column text).length) :
    (indentation column text)[i]? = some (if text[i]? = some '\t' then '\t' else ' ') := by
  rw [length_indentation, Nat.lt_min] at h
  simp [indentation, h]

namespace Diagnostic

/-- On a line feed after a carriage return the caret comes one character short. -/
theorem length_indentation_of_onPairFeed {d : Diagnostic}
    (h : OnPairFeed d.source.toList d.offset) :
    (indentation d.location.column (lineAt (d.location.line - 1) d.source.toList)).length + 2 =
      d.location.column := by
  obtain ⟨front, after, hsource, htaken⟩ := h.exists_taken
  obtain ⟨lines, last, hlined⟩ := exists_lined front
  have hlocation : d.location = ⟨lines.length + 1, (last ++ ['\r']).length + 1⟩ :=
    Location.ofOffset_eq (htaken ▸ hlined.append_flat (by simp))
  have hline : LineAfter d.source.toList lines last :=
    ⟨hlined.lines_flat, hlined.last_flat, _, by rw [hsource, hlined.eq], .pair after⟩
  rw [hlocation, Nat.add_sub_cancel, hline.lineAt_eq, length_indentation]
  simp

/-- The location of a diagnostic leads back to its offset, or to the place that the offset is moved
to, and later offsets have no earlier locations. The text that is printed is that of the line of the
location. Before the caret there is one character for each that stands before the place on its line,
a tab for a tab and a space for any other. -/
theorem render_points (d : Diagnostic) (hplace : ¬OnPairFeed d.source.toList d.offset) :
    IsGreatest {place | Boundary d.source.toList place ∧ place ≤ min d.offset d.source.utf8ByteSize}
        (d.location.place d.source) ∧
      Monotone (Location.ofOffset d.source) ∧
      ∃ lines text indent, LineAfter d.source.toList lines text ∧
        d.location.line = lines.length + 1 ∧ d.location.column = indent.length + 1 ∧
        indent.length ≤ text.length ∧
        d.location.place d.source = utf8Size (withFeeds lines ++ text.take indent.length) ∧
        (∀ i < indent.length, indent[i]? = some (if text[i]? = some '\t' then '\t' else ' ')) ∧
        d.render = d.heading ++ toString d.location.line ++ " | " ++ String.ofList text ++ "\n" ++
          d.gutter ++ " | " ++ String.ofList indent ++ "^" ++ d.remarks := by
  obtain ⟨lines, last, hlined⟩ := exists_lined (takeBytes d.offset d.source.toList)
  obtain ⟨more, hsource⟩ := takeBytes_isPrefix d.offset d.source.toList
  obtain ⟨text, hline⟩ := hlined.exists_lineAfter more
  -- only on the line feed of a pair is the place behind what is printed
  have hprefix : last <+: text := by
    rcases hline.prefix_or hlined with hprefix | ⟨hlast, hfeed⟩
    · exact hprefix
    · refine absurd ((onPairFeed_iff hsource).mpr ⟨?_, hfeed⟩) hplace
      simp [hlined.eq, hlast]
  rw [hsource] at hline
  have hlocation : d.location = ⟨lines.length + 1, last.length + 1⟩ := Location.ofOffset_eq hlined
  have htext : lineAt (d.location.line - 1) d.source.toList = text := by
    rw [hlocation, Nat.add_sub_cancel, hline.lineAt_eq]
  have hlength : (indentation d.location.column text).length = last.length := by
    rw [length_indentation, hlocation, Nat.add_sub_cancel, min_eq_left hprefix.length_le]
  have hback : d.location.place d.source = utf8Size (takeBytes d.offset d.source.toList) :=
    Location.place_ofOffset d.source d.offset
  refine ⟨?_, Location.ofOffset_monotone d.source, lines, text, indentation d.location.column text,
    hline, by rw [hlocation], by rw [hlength, hlocation], hlength ▸ hprefix.length_le, ?_,
    fun i hi => getElem?_indentation hi, ?_⟩
  · rw [hback, ← utf8Size_toList]
    exact takeBytes_isGreatest d.offset d.source.toList
  · rw [hback, hlined.eq, hlength, ← List.prefix_iff_eq_take.mp hprefix]
  · rw [render, htext]

/-- The second line begins with a tab, and the offset is within its third character. -/
def indented : Diagnostic :=
  { message := "unexpected token", source := "\xe9\r\n\t\xe9\u65e5x\r\n", offset := 8 }

theorem indented_points :
    ¬OnPairFeed indented.source.toList indented.offset ∧
      IsGreatest {place | Boundary indented.source.toList place ∧
        place ≤ min indented.offset indented.source.utf8ByteSize} 7 ∧
      ∃ lines indent, LineAfter indented.source.toList lines "\t\xe9\u65e5x".toList ∧
        lines.length = 1 ∧ utf8Size (withFeeds lines ++ "\t\xe9".toList) = 7 ∧
        indent.length = 2 ∧ indent[0]? = some '\t' ∧ indent[1]? = some ' ' ∧
        indented.render = indented.heading ++ "2" ++ " | " ++ "\t\xe9\u65e5x" ++ "\n" ++
          indented.gutter ++ " | " ++ String.ofList indent ++ "^" ++ indented.remarks := by
  have hplace : ¬OnPairFeed indented.source.toList indented.offset := by decide
  have hlocation : indented.location = ⟨2, 3⟩ := by decide
  have hback : indented.location.place indented.source = 7 := by decide
  obtain ⟨hgreatest, -, lines, text, indent, hline, hnumber, hcolumn, -, hends, htabs, hrender⟩ :=
    render_points indented hplace
  rw [hback] at hgreatest hends
  rw [hlocation] at hnumber hcolumn hrender
  have hlines : lines.length = 1 := (Nat.succ.inj hnumber).symm
  have hindent : indent.length = 2 := (Nat.succ.inj hcolumn).symm
  have htext : text = "\t\xe9\u65e5x".toList := by
    rw [← hline.lineAt_eq, hlines]
    decide
  subst htext
  refine ⟨hplace, hgreatest, lines, indent, hline, hlines, ?_, hindent, ?_, ?_, ?_⟩
  · rw [hends, hindent]
    rfl
  · exact htabs 0 (by omega)
  · exact htabs 1 (by omega)
  · rw [hrender, String.ofList_toList]
    rfl

end Diagnostic

end Templating
