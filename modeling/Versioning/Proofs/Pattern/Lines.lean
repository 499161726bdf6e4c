import Versioning.Proofs.Pattern.Words

/-!
# Lines

The anchors of a pattern can be tied to the lines of a text, which are the pieces between its line
feeds. A piece of a text is one of its lines if it has no line feed itself and stands between line
feeds or the ends of the text (`IsLine`, `mem_splitOn_iff`).

A pattern whose words stand on a single line matches whole lines if it is tied to both ends of a
line, and beginnings of lines if anything may follow. So it can be searched for line by line:
`isMatch_opening_iff` says so of beginnings, and `firstGroup?_wholeLine` that the group of a pattern for
whole lines is the first line among its words.
-/

namespace Versioning.Pattern

/-! ### The lines of a text -/

/-- A piece of a text is a line of it, given what stands in front of it and behind it. -/
structure IsLine (before line after : List Char) : Prop where
  single : '\n' ∉ line
  start : before = [] ∨ ['\n'] <:+ before
  stop : after = [] ∨ ['\n'] <+: after

/-- A text is a single line, or a line in front of another text. -/
@[elab_as_elim]
theorem line_induction {motive : List Char → Prop} (last : ∀ line, '\n' ∉ line → motive line)
    (line : ∀ line rest, '\n' ∉ line → motive rest → motive (line ++ '\n' :: rest))
    (text : List Char) : motive text := by
  induction hlength : text.length using Nat.strong_induction_on generalizing text with
  | _ n ih =>
    by_cases hfeed : '\n' ∈ text
    · obtain ⟨first, rest, rfl, hfirst⟩ := List.eq_append_cons_of_mem hfeed
      refine line first rest hfirst (ih rest.length ?_ rest rfl)
      rw [← hlength, List.length_append, List.length_cons]
      omega
    · exact last text hfeed

/-- The first line ends at the first line feed. -/
theorem exists_splitOn_append {line after : List Char} (hline : '\n' ∉ line)
    (hafter : after = [] ∨ ['\n'] <+: after) :
    ∃ back, (line ++ after).splitOn '\n' = line :: back := by
  obtain rfl | ⟨rest, rfl⟩ := hafter
  · exact ⟨[], by rw [List.append_nil, List.splitOn_eq_singleton hline]⟩
  · exact ⟨rest.splitOn '\n', by
      rw [List.singleton_append, List.splitOn_append_cons_self, List.splitOn_eq_singleton hline,
        List.singleton_append]⟩

/-- Every piece between line feeds is a line. -/
theorem exists_isLine_of_mem {text line : List Char} (h : line ∈ text.splitOn '\n') :
    ∃ before after, text = before ++ (line ++ after) ∧ IsLine before line after := by
  induction text using line_induction with
  | last text hsingle =>
    rw [List.splitOn_eq_singleton hsingle, List.mem_singleton] at h
    subst h
    exact ⟨[], [], (List.append_nil line).symm, hsingle, .inl rfl, .inl rfl⟩
  | line first rest hfirst ih =>
    rw [List.splitOn_append_cons_self, List.splitOn_eq_singleton hfirst, List.singleton_append,
      List.mem_cons] at h
    obtain rfl | h := h
    · exact ⟨[], '\n' :: rest, rfl, hfirst, .inl rfl, .inr (List.prefix_append ['\n'] rest)⟩
    · obtain ⟨before, after, rfl, hsingle, hstart, hstop⟩ := ih h
      refine ⟨first ++ '\n' :: before, after, by simp, hsingle, .inr ?_, hstop⟩
      refine List.suffix_append_of_suffix ?_
      obtain rfl | hstart := hstart
      · exact List.suffix_rfl
      · exact hstart.trans (List.suffix_cons _ _)

/-- The lines in front of a line start earlier in the text. -/
theorem exists_splitOn_of_isLine {before line after : List Char} (h : IsLine before line after) :
    ∃ front back, (before ++ (line ++ after)).splitOn '\n' = front ++ line :: back ∧
      ∀ earlier ∈ front, ∃ before' after', before ++ (line ++ after) =
        before' ++ (earlier ++ after') ∧ IsLine before' earlier after' ∧
          before'.length < before.length := by
  obtain ⟨hsingle, hstart, hstop⟩ := h
  obtain ⟨back, hback⟩ := exists_splitOn_append hsingle hstop
  obtain rfl | ⟨front, rfl⟩ := hstart
  · exact ⟨[], back, hback, by simp⟩
  · refine ⟨front.splitOn '\n', back, ?_, fun earlier hearlier => ?_⟩
    · rw [List.append_assoc, List.singleton_append, List.splitOn_append_cons_self, hback]
    · obtain ⟨before', after', rfl, hline, hbegin, hend⟩ := exists_isLine_of_mem hearlier
      refine ⟨before', after' ++ '\n' :: (line ++ after), by simp, ⟨hline, hbegin, .inr ?_⟩, ?_⟩
      · obtain rfl | hend := hend
        · exact List.prefix_append ['\n'] _
        · exact hend.trans (List.prefix_append _ _)
      · simp only [List.length_append, List.length_singleton]
        omega

/-- The pieces between line feeds are the lines of a text. -/
theorem mem_splitOn_iff {text line : List Char} : line ∈ text.splitOn '\n' ↔
    ∃ before after, text = before ++ (line ++ after) ∧ IsLine before line after := by
  refine ⟨exists_isLine_of_mem, ?_⟩
  rintro ⟨before, after, rfl, h⟩
  obtain ⟨front, back, hsplit, -⟩ := exists_splitOn_of_isLine h
  simp [hsplit]

/-- A text behind the start of a line begins with that line. -/
theorem exists_isLine_of_start {before rest : List Char} (h : before = [] ∨ ['\n'] <:+ before) :
    ∃ line after, rest = line ++ after ∧ IsLine before line after := by
  induction rest using line_induction with
  | last rest hsingle => exact ⟨rest, [], (List.append_nil rest).symm, hsingle, h, .inl rfl⟩
  | line first rest hfirst =>
    exact ⟨first, '\n' :: rest, rfl, hfirst, h, .inr (List.prefix_append ['\n'] rest)⟩

/-! ### Anchors of lines -/

variable {before after : List Char} {c? : Option Char}

/-- A line starts behind a line feed, and at the start of the text. -/
theorem holds_lineStart_iff :
    Look.lineStart.holds (charBefore (before ++ after).toArray before.length) c? = true ↔
      before = [] ∨ ['\n'] <:+ before := by
  obtain rfl | ⟨front, c, rfl⟩ := List.eq_nil_or_concat before
  · simp [Look.holds, charBefore]
  · have hsuffix : ['\n'] <:+ front ++ [c] ↔ c = '\n' := by
      constructor
      · rintro ⟨rest, hrest⟩
        exact (List.singleton_inj.1 (List.append_inj' hrest rfl).2).symm
      · rintro rfl
        exact List.suffix_append front ['\n']
    simp [Look.holds, charBefore, hsuffix]

/-- A line ends in front of a line feed, and at the end of the text. -/
theorem holds_lineEnd_iff :
    Look.lineEnd.holds c? (before ++ after).toArray[before.length]? = true ↔
      after = [] ∨ ['\n'] <+: after := by
  cases after with
  | nil => simp [Look.holds]
  | cons c rest => simp [Look.holds, eq_comm (a := c)]

/-! ### Groups -/

namespace Node

/-- Whether there is no capture group anywhere in a pattern. -/
def ungrouped : Node → Bool
  | empty => true
  | one _ => true
  | look _ => true
  | seq a b => a.ungrouped && b.ungrouped
  | alt a b => a.ungrouped && b.ungrouped
  | capture _ _ => false
  | optional _ a => a.ungrouped
  | star _ a => a.ungrouped
  | plus _ a => a.ungrouped

/-- Only groups are noted. -/
theorem Leads.marks_eq {a : Node} {text : Array Char} {s s' : Spot} (ha : a.ungrouped = true)
    (h : a.Leads text s s') : s'.marks = s.marks := by
  induction a generalizing s s' with
  | empty => rw [show s = s' from h]
  | one set =>
    obtain ⟨c, -, -, rfl⟩ := h
    rfl
  | look condition =>
    obtain ⟨-, rfl⟩ := h
    rfl
  | seq a b iha ihb =>
    rw [ungrouped, Bool.and_eq_true] at ha
    obtain ⟨between, hfirst, hsecond⟩ := h
    rw [ihb ha.2 hsecond, iha ha.1 hfirst]
  | alt a b iha ihb =>
    rw [ungrouped, Bool.and_eq_true] at ha
    exact h.elim (iha ha.1) (ihb ha.2)
  | capture n a => cases ha
  | optional greedy a ih =>
    cases h with
    | refl => rfl
    | single h => exact ih ha h
  | star greedy a ih =>
    induction h with
    | refl => rfl
    | tail _ hlast ihrest => rw [ih ha hlast, ihrest]
  | plus greedy a ih =>
    induction h with
    | single h => exact ih ha h
    | tail _ hlast ihrest => rw [ih ha hlast, ihrest]

/-- A pattern without conditions and groups leads on as far as its words reach. -/
theorem leads_iff_passes {a : Node} {text : Array Char} {s s' : Spot} (ha : a.unconditional = true)
    (hgroups : a.ungrouped = true) : a.Leads text s s' ↔
      Passes text a.language s.position s'.position ∧ s'.marks = s.marks := by
  constructor
  · exact fun h => ⟨h.passes, h.marks_eq hgroups⟩
  · rintro ⟨hpasses, hmarks⟩
    obtain ⟨⟨position, marks⟩, hposition, hleads⟩ := exists_leads_of_passes ha hpasses
    obtain rfl : position = s'.position := hposition
    obtain rfl : marks = s'.marks := (hleads.marks_eq hgroups).trans hmarks.symm
    exact hleads

end Node

/-! ### Patterns for lines -/

variable {nodes parts : List Node} {line word : List Char} {s s' : Spot}

/-- What is passed from a position is a beginning of the text behind it. -/
theorem passes_append_iff {language : Language Char} {stop : Nat} :
    Passes (before ++ after).toArray language before.length stop ↔
      ∃ word ∈ language, ∃ rest, after = word ++ rest ∧ stop = (before ++ word).length := by
  simp only [Passes, List.drop_left, List.length_append]
  constructor
  · rintro ⟨word, hword, ⟨rest, rfl⟩, rfl⟩
    exact ⟨word, hword, rest, rfl, rfl⟩
  · rintro ⟨word, hword, rest, rfl, rfl⟩
    exact ⟨word, hword, List.prefix_append word rest, rfl⟩

/-- A pattern that is tied to the start of a line leads on from there only. -/
theorem leads_lineStart_iff {marks : List (Nat × Nat)} :
    (Node.sequence (.look .lineStart :: nodes)).Leads (before ++ after).toArray
        ⟨before.length, marks⟩ s' ↔
      (before = [] ∨ ['\n'] <:+ before) ∧
        (Node.sequence nodes).Leads (before ++ after).toArray ⟨before.length, marks⟩ s' := by
  rw [Node.leads_sequence_cons]
  constructor
  · rintro ⟨_, ⟨hstart, rfl⟩, hleads⟩
    exact ⟨holds_lineStart_iff.1 hstart, hleads⟩
  · rintro ⟨hstart, hleads⟩
    exact ⟨_, ⟨holds_lineStart_iff.2 hstart, rfl⟩, hleads⟩

/-- A beginning of the text behind the start of a line is one of the line, if it has no line feed. -/
theorem IsLine.prefix_of_prefix (h : IsLine before line after) (hsingle : '\n' ∉ word)
    (hword : word <+: line ++ after) : word <+: line := by
  obtain ⟨rest, hrest⟩ := hword
  obtain ⟨between, rfl, -⟩ | ⟨between, rfl, hafter⟩ := List.append_eq_append_iff.1 hrest
  · exact List.prefix_append word between
  · -- A longer word would go on with the line feed behind the line.
    cases between with
    | nil => rw [List.append_nil]
    | cons c between =>
      obtain hnil | ⟨_, hfeed⟩ := h.stop
      · rw [hafter] at hnil
        cases hnil
      · obtain ⟨rfl, -⟩ := List.cons.inj (hfeed.trans hafter)
        exact absurd (List.mem_append_right line List.mem_cons_self) hsingle

/-- Anything leads up to the end of the text, where a line ends. -/
theorem exists_leads_any {text : List Char} (h : s.position ≤ text.length) :
    ∃ s', (Node.sequence [.star true (.one (.property .any)), .look .lineEnd]).Leads
      text.toArray s s' := by
  have hpasses : Passes text.toArray (Node.star true (.one (.property .any))).language
      s.position text.length :=
    ⟨text.drop s.position, Node.mem_language_star_one.2 fun _ _ => rfl, List.prefix_rfl,
      by rw [List.length_drop, Nat.add_sub_cancel' h]⟩
  obtain ⟨s', hstop, hleads⟩ := exists_leads_of_passes rfl hpasses
  refine ⟨s', s', hleads, ?_, rfl⟩
  simp [Look.holds, hstop]

/-- The pattern of the beginnings of lines; anything may follow them. -/
def opening (parts : List Node) : Node :=
  .sequence (.look .lineStart :: (parts ++ [.star true (.one (.property .any)), .look .lineEnd]))

/-- A pattern of beginnings, whose words stand on one line, matches the texts with a line that begins
    with one of its words. -/
theorem isMatch_opening_iff {p : Pattern} (hnode : p.node = opening parts)
    (hparts : (Node.sequence parts).unconditional = true)
    (hsingle : ∀ word ∈ (Node.sequence parts).language, '\n' ∉ word) {text : String} :
    p.isMatch text = true ↔ ∃ line ∈ text.toList.splitOn '\n',
      ∃ word ∈ (Node.sequence parts).language, word <+: line := by
  rw [isMatch_iff, hnode, opening]
  generalize text.toList = chars
  constructor
  · rintro ⟨position, hle, s, hleads⟩
    obtain ⟨before, after, rfl, rfl⟩ : ∃ before after, chars = before ++ after ∧
        before.length = position :=
      ⟨_, _, (List.take_append_drop position chars).symm, List.length_take_of_le hle⟩
    rw [leads_lineStart_iff, Node.leads_sequence_append] at hleads
    obtain ⟨hstart, between, hleads, -⟩ := hleads
    obtain ⟨word, hword, rest, rfl, -⟩ := passes_append_iff.1 hleads.passes
    obtain ⟨line, after, hrest, hline⟩ : ∃ line after, word ++ rest = line ++ after ∧
        IsLine before line after := exists_isLine_of_start hstart
    refine ⟨line, mem_splitOn_iff.2 ⟨before, after, by rw [hrest], hline⟩, word, hword, ?_⟩
    exact hline.prefix_of_prefix (hsingle word hword) (hrest ▸ List.prefix_append word rest)
  · rintro ⟨_, hmem, word, hword, rest, rfl⟩
    obtain ⟨before, after, rfl, hline⟩ := mem_splitOn_iff.1 hmem
    have hpasses : Passes (before ++ (word ++ rest ++ after)).toArray
        (Node.sequence parts).language before.length (before ++ word).length :=
      passes_append_iff.2 ⟨word, hword, rest ++ after, List.append_assoc _ _ _, rfl⟩
    obtain ⟨between, hbetween, hleads⟩ := exists_leads_of_passes (s := ⟨_, []⟩) hparts hpasses
    have hwithin : between.position ≤ (before ++ (word ++ rest ++ after)).length := by
      simp [hbetween]
    obtain ⟨s', hrest⟩ := exists_leads_any hwithin
    refine ⟨before.length, by simp, s', leads_lineStart_iff.2 ⟨hline.start, ?_⟩⟩
    exact Node.leads_sequence_append.2 ⟨between, hleads, hrest⟩

/-! ### Whole lines -/

/-- The pattern whose first group is a whole line. -/
def wholeLine (body : Node) : Node :=
  .sequence [.look .lineStart, .capture 1 body, .look .lineEnd]

section WholeLine

variable {body : Node} (hbody : body.unconditional = true) (hgroups : body.ungrouped = true)
  (hsingle : ∀ word ∈ body.language, '\n' ∉ word)

include hbody hgroups hsingle

/-- From the start of a line such a pattern leads to its end, if the line is one of its words, and
    notes the line. -/
theorem leads_wholeLine_iff :
    (wholeLine body).Leads (before ++ after).toArray ⟨before.length, []⟩ s' ↔
      ∃ line rest, after = line ++ rest ∧ IsLine before line rest ∧ line ∈ body.language ∧
        s' = ⟨(before ++ line).length, [(3, (before ++ line).length), (2, before.length)]⟩ := by
  rw [wholeLine, leads_lineStart_iff, Node.leads_sequence_cons]
  constructor
  · rintro ⟨hstart, _, ⟨⟨position, marks⟩, hleads, rfl⟩, hend, rfl⟩
    obtain ⟨hpasses, rfl⟩ := (Node.leads_iff_passes hbody hgroups).1 hleads
    obtain ⟨line, hline, rest, rfl, rfl⟩ := passes_append_iff.1 hpasses
    rw [← List.append_assoc] at hend
    exact ⟨line, rest, rfl, ⟨hsingle line hline, hstart, holds_lineEnd_iff.1 hend⟩, hline, rfl⟩
  · rintro ⟨line, rest, rfl, ⟨-, hstart, hstop⟩, hline, rfl⟩
    have hleads : body.Leads (before ++ (line ++ rest)).toArray
        ⟨before.length, [(2, before.length)]⟩ ⟨(before ++ line).length, [(2, before.length)]⟩ :=
      (Node.leads_iff_passes hbody hgroups).2
        ⟨passes_append_iff.2 ⟨line, hline, rest, rfl, rfl⟩, rfl⟩
    refine ⟨hstart, _, ⟨_, hleads, rfl⟩, ?_, rfl⟩
    rw [← List.append_assoc]
    exact holds_lineEnd_iff.2 hstop

theorem exists_leads_wholeLine (hline : IsLine before line after) (hmem : line ∈ body.language) :
    ∃ s, (wholeLine body).Leads (before ++ (line ++ after)).toArray ⟨before.length, []⟩ s :=
  ⟨_, (leads_wholeLine_iff hbody hgroups hsingle).2 ⟨line, after, rfl, hline, hmem, rfl⟩⟩

/-- The first group of a pattern for whole lines is the first line among its words. -/
theorem firstGroup?_wholeLine {p : Pattern} (hnode : p.node = wholeLine body)
    {isWord : List Char → Bool} (hword : ∀ line, isWord line = true ↔ line ∈ body.language)
    (text : String) : p.firstGroup? text =
      ((text.toList.splitOn '\n').find? isWord).map String.ofList := by
  rw [firstGroup?]
  generalize text.toList = chars
  have hcases := p.search_cases chars.toArray
  rw [hnode] at hcases
  obtain ⟨hnone, hfails⟩ | ⟨position, hle, s, hearlier, hleads, hfound⟩ := hcases
  · have hfind : (chars.splitOn '\n').find? isWord = none := by
      rw [List.find?_eq_none]
      intro line hmem hline
      obtain ⟨before, after, rfl, hisLine⟩ := mem_splitOn_iff.1 hmem
      obtain ⟨s, hleads⟩ :=
        exists_leads_wholeLine hbody hgroups hsingle hisLine ((hword line).1 hline)
      exact hfails before.length (by simp) s hleads
    rw [hnone, hfind]
    rfl
  · obtain ⟨before, after, rfl, rfl⟩ : ∃ before after, chars = before ++ after ∧
        before.length = position :=
      ⟨_, _, (List.take_append_drop position chars).symm, List.length_take_of_le hle⟩
    obtain ⟨line, rest, rfl, hisLine, hline, rfl⟩ :=
      (leads_wholeLine_iff hbody hgroups hsingle).1 hleads
    -- The lines in front of it are none of the words, since they start earlier.
    obtain ⟨front, back, hsplit, hfront⟩ := exists_splitOn_of_isLine hisLine
    have hfind : (front ++ line :: back).find? isWord = some line := by
      rw [List.find?_append, List.find?_eq_none.2, Option.none_or, List.find?_cons_of_pos]
      · exact (hword line).2 hline
      · intro earlier hmem hearly
        obtain ⟨before', after', htext, hisLine', hlt⟩ := hfront earlier hmem
        obtain ⟨s', hleads'⟩ :=
          exists_leads_wholeLine hbody hgroups hsingle hisLine' ((hword earlier).1 hearly)
        exact hearlier before'.length hlt s' (htext ▸ hleads')
    have hspan : spanText (before ++ (line ++ rest)) (before.length, (before ++ line).length) =
        line := by
      simp [spanText]
    rw [hfound, hsplit, hfind, Option.map_some, Option.map_some]
    exact congrArg (some ∘ String.ofList) hspan

end WholeLine

end Versioning.Pattern
