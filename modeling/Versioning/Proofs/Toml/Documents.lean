import Versioning.Proofs.Toml.Strings

/-!
# Documents that are read back

A document of tables of strings, as it is written, is read as these tables with these strings
(`ofText?_writtenDocument`), provided that no table and no key in a table comes twice.

The text is read line by line: a header opens a table behind the others
(`openTable_ofTables`), and a key enters its string behind the others of the last table
(`put_ofTables`). `LinesTo` puts the lines together, from the last one to the first.
-/

namespace Versioning.Toml

/-! ### Keys -/

/-- A character that a key or a string begins with: one that can stand in a bare key, or a quote. -/
def isStart (c : Char) : Bool :=
  isBareKeyChar c || c == '"' || c == '\''

theorem ne_of_isStart {c d : Char} (h : isStart c = true) (hd : isStart d = false) : c ≠ d := by
  rintro rfl
  cases h.symm.trans hd

/-- A string begins with a quote, whichever way it is written. -/
theorem exists_first_of_writtenAs (style : Style) (text : List Char) :
    ∃ first others, writtenAs style text = first :: others ∧ (first = '"' ∨ first = '\'') := by
  cases style with
  | basic | multilineBasic => exact ⟨'"', _, rfl, .inl rfl⟩
  | literal | multilineLiteral => exact ⟨'\'', _, rfl, .inr rfl⟩

theorem exists_start_of_writtenAs (style : Style) (text : List Char) :
    ∃ first others, writtenAs style text = first :: others ∧ isStart first = true := by
  obtain ⟨first, others, hwritten, hfirst⟩ := exists_first_of_writtenAs style text
  exact ⟨first, others, hwritten, by rcases hfirst with rfl | rfl <;> rfl⟩

theorem exists_start_of_writtenKey (key : List Char) :
    ∃ first others, writtenKey key = first :: others ∧ isStart first = true := by
  rw [writtenKey]
  split_ifs with hbare
  · cases key with
    | nil => simp at hbare
    | cons c key =>
      simp at hbare
      exact ⟨c, key, rfl, by simp [isStart, hbare.1]⟩
  · exact exists_start_of_writtenAs .basic key
  · exact exists_start_of_writtenAs .literal key
  · exact exists_start_of_writtenAs .basic key

/-- A bare key goes on as long as it can. -/
theorem simpleKey_bare {key : List Char} (hne : key ≠ []) (hall : ∀ c ∈ key, isBareKeyChar c = true)
    {c : Char} (hc : isBareKeyChar c = false) (rest : List Char) :
    simpleKey (key ++ c :: rest) = .ok (String.ofList key, c :: rest) := by
  have htake : (key ++ c :: rest).takeWhile isBareKeyChar = key := by
    rw [List.takeWhile_append_of_pos hall, List.takeWhile_cons_of_neg (by simp [hc]),
      List.append_nil]
  have hdrop : (key ++ c :: rest).dropWhile isBareKeyChar = c :: rest := by
    rw [List.dropWhile_append_of_pos hall, List.dropWhile_cons_of_neg (by simp [hc])]
  cases key with
  | nil => exact absurd rfl hne
  | cons first others =>
    have hfirst := hall first List.mem_cons_self
    have hdouble : first ≠ '"' := by rintro rfl; cases hfirst
    have hsingle : first ≠ '\'' := by rintro rfl; cases hfirst
    rw [simpleKey, htake, hdrop]
    · intro _ h
      exact hdouble (List.cons.inj h).1
    · intro _ h
      exact hsingle (List.cons.inj h).1

theorem simpleKey_basic (key rest : List Char) :
    simpleKey (writtenAs .basic key ++ rest) = .ok (String.ofList key, rest) := by
  rw [writtenAs_basic_append, simpleKey, basicString_flatMap]
  rfl

theorem simpleKey_literal {key : List Char} (h : ∀ c ∈ key, isPlainChar c = true ∧ c ≠ '\'')
    (rest : List Char) :
    simpleKey (writtenAs .literal key ++ rest) = .ok (String.ofList key, rest) := by
  rw [writtenAs_literal_append, simpleKey, literalString_append rest h]
  rfl

/-- A key is read back if no character comes after it that it could go on with. -/
theorem simpleKey_writtenKey (key : List Char) {c : Char} (hc : isBareKeyChar c = false)
    (rest : List Char) :
    simpleKey (writtenKey key ++ c :: rest) = .ok (String.ofList key, c :: rest) := by
  rw [writtenKey]
  split_ifs with hbare hbasic hliteral
  · simp only [Bool.and_eq_true, List.all_eq_true] at hbare
    exact simpleKey_bare (by simpa using hbare.1) hbare.2 hc rest
  · exact simpleKey_basic key _
  · simp only [Bool.and_eq_true, Bool.not_eq_true', List.any_eq_false, Bool.or_eq_true,
      not_or, beq_iff_eq] at hliteral
    obtain ⟨hcontrol, hquote⟩ := hliteral
    refine simpleKey_literal (fun x hx => ⟨?_, ?_⟩) _
    · exact isPlainChar_of_not_isControl (by simpa using (hcontrol x hx).1) (hcontrol x hx).2
    · rintro rfl
      simp [hx] at hquote
  · exact simpleKey_basic key _

/-! ### Blanks -/

/-- Nothing is skipped before a key or a string. -/
theorem skipBlanks_of_isStart {first : Char} {others : List Char} (h : isStart first = true) :
    skipBlanks (first :: others) = first :: others := by
  have hspace : first ≠ ' ' := ne_of_isStart h rfl
  have htab : first ≠ '\t' := ne_of_isStart h rfl
  simp [skipBlanks, hspace, htab]

theorem skipBlanks_writtenKey (key rest : List Char) :
    skipBlanks (writtenKey key ++ rest) = writtenKey key ++ rest := by
  obtain ⟨first, others, hwritten, hfirst⟩ := exists_start_of_writtenKey key
  rw [hwritten, List.cons_append, skipBlanks_of_isStart hfirst]

/-- A key with no dot behind it is a path of its own. -/
theorem keyPath_writtenKey (key : List Char) {c d : Char} (hc : isBareKeyChar c = false)
    {rest rest' : List Char} (hskip : skipBlanks (c :: rest) = d :: rest') (hdot : d ≠ '.') :
    keyPath nestingLimit (writtenKey key ++ c :: rest) = .ok ([String.ofList key], d :: rest') := by
  simp [nestingLimit, keyPath, skipBlanks_writtenKey, simpleKey_writtenKey key hc, hskip, hdot,
    bind, Except.bind, pure, Except.pure]

/-! ### Values -/

/-- A string is read back as a value. -/
theorem value_writtenString (fuel depth : Nat) (text : List Char) {rest : List Char}
    (h : Unquoted rest) :
    value (fuel + 1) depth (writtenString text ++ rest) =
      .ok (.string (String.ofList text), rest) := by
  have hread := string_writtenString text h
  obtain ⟨first, others, hwritten, hfirst⟩ := exists_first_of_writtenAs (styleOf text) text
  rw [writtenString, hwritten, List.cons_append] at hread ⊢
  rcases hfirst with rfl | rfl <;> simp [value, hread, Except.map]

/-! ### Lines -/

variable {d d' : Draft} {rest : List Char}

theorem endOfLine_break (rest : List Char) : endOfLine ('\n' :: rest) = .ok rest := by
  simp [endOfLine, skipBlanks, skipComment, lineBreak?]

/-- A line with a key and its value enters the value. -/
theorem keyValue_writtenEntry (d : Draft) (key value : String) (rest : List Char) :
    keyValue d (writtenEntry key value ++ rest) =
      (d.put [key] (.string value)).map fun d => (d, rest) := by
  let string := writtenString value.toList ++ '\n' :: rest
  have hstart : writtenEntry key value ++ rest =
      writtenKey key.toList ++ ' ' :: '=' :: ' ' :: string := by
    simp [writtenEntry, string]
  have hkey : keyPath nestingLimit (writtenKey key.toList ++ ' ' :: '=' :: ' ' :: string) =
      .ok ([key], '=' :: ' ' :: string) := by
    have hbehind : skipBlanks (' ' :: '=' :: ' ' :: string) = '=' :: ' ' :: string := rfl
    rw [keyPath_writtenKey key.toList rfl hbehind (by decide), String.ofList_toList]
  have hskip : skipBlanks (' ' :: string) = string := by
    obtain ⟨first, others, hwritten, hfirst⟩ :=
      exists_start_of_writtenAs (styleOf value.toList) value.toList
    have hstring : string = first :: (others ++ '\n' :: rest) := by
      rw [← List.cons_append, ← hwritten]
      rfl
    rw [hstring]
    exact skipBlanks_of_isStart hfirst
  have hend : Unquoted ('\n' :: rest) := ⟨nofun, nofun⟩
  have hvalue := value_writtenString (2 * string.length + 1) nestingLimit value.toList hend
  rw [String.ofList_toList] at hvalue
  rw [hstart, keyValue, hkey]
  simp only [bind, Except.bind, hskip]
  rw [hvalue]
  simp only [endOfLine_break]
  cases d.put [key] (.string value) <;> rfl

/-- A line that begins like a key is one with a key. -/
theorem line_writtenEntry (d : Draft) (key value : String) (rest : List Char) :
    line d (writtenEntry key value ++ rest) =
      (d.put [key] (.string value)).map fun d => (d, rest) := by
  obtain ⟨first, others, hwritten, hfirst⟩ := exists_start_of_writtenKey key.toList
  rw [← keyValue_writtenEntry]
  have hstart : writtenEntry key value ++ rest =
      first :: (others ++ ' ' :: '=' :: ' ' :: (writtenString value.toList ++ '\n' :: rest)) := by
    simp [writtenEntry, hwritten]
  have hheader : first ≠ '[' := ne_of_isStart hfirst rfl
  have hcomment : first ≠ '#' := ne_of_isStart hfirst rfl
  have hbreak : first ≠ '\n' := ne_of_isStart hfirst rfl
  have hreturn : first ≠ '\r' := ne_of_isStart hfirst rfl
  rw [hstart]
  simp [line, hheader, hcomment, hbreak, hreturn]

/-- A line with a header opens a table. -/
theorem line_header (d : Draft) (name : String) (rest : List Char) :
    line d ('[' :: (writtenKey name.toList ++ ']' :: '\n' :: rest)) =
      (d.root.openTable [] name).map fun root => (⟨root, [name]⟩, rest) := by
  obtain ⟨first, others, hwritten, hfirst⟩ := exists_start_of_writtenKey name.toList
  have hfirst' : first ≠ '[' := ne_of_isStart hfirst rfl
  have hheader : line d ('[' :: (writtenKey name.toList ++ ']' :: '\n' :: rest)) =
      tableHeader d (writtenKey name.toList ++ ']' :: '\n' :: rest) := by
    rw [hwritten, List.cons_append]
    simp [line, hfirst']
  have hbehind : skipBlanks (']' :: '\n' :: rest) = ']' :: '\n' :: rest := rfl
  rw [hheader, tableHeader, keyPath_writtenKey name.toList rfl hbehind (by decide),
    String.ofList_toList]
  simp only [bind, Except.bind, endOfLine_break]
  cases h : d.root.openTable [] name <;> simp [splitPath, h, Except.map, pure, Except.pure]

/-- The lines bring a document about, whatever the fuel, if it is enough for all of them. -/
def LinesTo (d : Draft) (text : List Char) (root : Section) : Prop :=
  ∀ fuel, text.length < fuel → ∃ header, lines fuel d text = .ok ⟨root, header⟩

theorem LinesTo.nil (d : Draft) : LinesTo d [] d.root := by
  intro fuel hfuel
  obtain _ | fuel := fuel
  · cases hfuel
  · exact ⟨d.header, rfl⟩

/-- What the first line makes of the document is where the other lines go on. -/
theorem LinesTo.line {text : List Char} {root : Section} (hskip : skipBlanks text = text)
    (hrest : rest.length < text.length) (hline : line d text = .ok (d', rest))
    (h : LinesTo d' rest root) : LinesTo d text root := by
  intro fuel hfuel
  obtain _ | fuel := fuel
  · cases hfuel
  · obtain ⟨header, hlines⟩ := h fuel (by omega)
    refine ⟨header, ?_⟩
    rw [lines, hskip]
    cases text with
    | nil => cases hrest
    | cons c text =>
      simp only [bind, Except.bind, hline, hlines]

/-! ### Sections -/

theorem lookup_append_of_not_mem {α : Type} {key : String} {before : List (String × α)}
    (after : List (String × α)) (h : key ∉ before.map Prod.fst) :
    (before ++ after).lookup key = after.lookup key := by
  have hnone : before.lookup key = none := by
    rw [List.lookup_eq_none_iff]
    intro e he
    have hne : e.1 ≠ key := fun heq => h (heq ▸ List.mem_map_of_mem he)
    simpa using Ne.symm hne
  rw [List.lookup_append, hnone, Option.none_or]

theorem replaceEntry_append_of_not_mem {key : String} (item : Item)
    {before : List (String × Item)} (after : List (String × Item))
    (h : key ∉ before.map Prod.fst) :
    Section.replaceEntry key item (before ++ after) =
      before ++ Section.replaceEntry key item after := by
  induction before with
  | nil => rfl
  | cons e before ih =>
    obtain ⟨k, old⟩ := e
    rw [List.map_cons, List.mem_cons, not_or] at h
    rw [List.cons_append, Section.replaceEntry, if_neg (Ne.symm h.1), ih h.2, List.cons_append]

/-- The section with some strings. -/
def Section.ofStrings (entries : List (String × String)) : Section :=
  mk (entries.map fun (key, text) => (key, .value (.string text))) false false

/-- The document with some tables of strings. -/
def Section.ofTables (tables : List (String × List (String × String))) : Section :=
  mk (tables.map fun (name, entries) => (name, .section (ofStrings entries))) false false

@[simp] theorem Section.keys_ofStrings (entries : List (String × String)) :
    (ofStrings entries).entries.map Prod.fst = entries.map Prod.fst := by
  simp [ofStrings, Section.entries]

@[simp] theorem Section.keys_ofTables (tables : List (String × List (String × String))) :
    (ofTables tables).entries.map Prod.fst = tables.map Prod.fst := by
  simp [ofTables, Section.entries]

/-- A string under a new key is put behind the others. -/
theorem put_ofStrings {entries : List (String × String)} {key : String} (text : String)
    (h : key ∉ entries.map Prod.fst) :
    (Section.ofStrings entries).put [] key (.string text) =
      .ok (.ofStrings (entries ++ [(key, text)])) := by
  rw [← Section.keys_ofStrings] at h
  have hlookup := lookup_append_of_not_mem [] h
  have hset := replaceEntry_append_of_not_mem (.value (.string text)) [] h
  rw [List.append_nil] at hlookup hset
  rw [Section.put, Section.alter, Section.get?, hlookup, Section.set, hset]
  simp [Section.ofStrings, Section.dotted, Section.implicit, Section.entries, Section.replaceEntry]
  rfl

/-- A header of a new table adds the table. -/
theorem openTable_ofTables {tables : List (String × List (String × String))} {name : String}
    (h : name ∉ tables.map Prod.fst) :
    (Section.ofTables tables).openTable [] name =
      .ok (.ofTables (tables ++ [(name, [])])) := by
  rw [← Section.keys_ofTables] at h
  have hlookup := lookup_append_of_not_mem [] h
  have hset := replaceEntry_append_of_not_mem (.section .fresh) [] h
  rw [List.append_nil] at hlookup hset
  rw [Section.openTable, Section.alter, Section.get?, hlookup, Section.set, hset]
  simp [Section.ofTables, Section.dotted, Section.implicit, Section.entries, Section.replaceEntry]
  rfl

/-- A string under a new key is put behind the others in the last table. -/
theorem put_ofTables {tables : List (String × List (String × String))} {name : String}
    {entries : List (String × String)} {key : String} (text : String)
    (hname : name ∉ tables.map Prod.fst) (hkey : key ∉ entries.map Prod.fst) :
    Draft.put ⟨.ofTables (tables ++ [(name, entries)]), [name]⟩ [key] (.string text) =
      .ok ⟨.ofTables (tables ++ [(name, entries ++ [(key, text)])]), [name]⟩ := by
  rw [← Section.keys_ofTables] at hname
  have hentries (entries : List (String × String)) :
      (Section.ofTables (tables ++ [(name, entries)])).entries =
        (Section.ofTables tables).entries ++ [(name, .section (.ofStrings entries))] := by
    simp [Section.ofTables, Section.entries]
  have hlookup : (Section.ofTables (tables ++ [(name, entries)])).get? name =
      some (.section (.ofStrings entries)) := by
    rw [Section.get?, hentries, lookup_append_of_not_mem _ hname, List.lookup_cons_self]
  have hset (child : List (String × String)) :
      (Section.ofTables (tables ++ [(name, entries)])).set name (.section (.ofStrings child)) =
        .ofTables (tables ++ [(name, child)]) := by
    rw [Section.set, hentries, replaceEntry_append_of_not_mem _ _ hname]
    simp [Section.ofTables, Section.dotted, Section.implicit, Section.entries,
      Section.replaceEntry]
  simp only [Draft.put, splitPath, List.dropLast_singleton, List.getLast?_singleton,
    Option.getD_some, Section.alter, hlookup, put_ofStrings text hkey, bind, Except.bind,
    Bool.false_and, Bool.false_eq_true, if_false, pure, Except.pure, hset]

/-! ### Documents -/

/-- The value that a table of strings is read as. -/
def Table.ofStrings (entries : List (String × String)) : Table :=
  entries.map fun (key, text) => (key, .string text)

/-- The table that a document of tables of strings is read as. -/
def Table.ofTables (tables : List (String × List (String × String))) : Table :=
  tables.map fun (name, entries) => (name, .table (ofStrings entries))

theorem toTable_ofStrings (entries : List (String × String)) :
    (Section.ofStrings entries).toTable = .ofStrings entries := by
  rw [Section.ofStrings, Section.toTable]
  induction entries with
  | nil => rfl
  | cons e entries ih =>
    rw [List.map_cons, entriesOf, ih, Item.toValue]
    rfl

theorem toTable_ofTables (tables : List (String × List (String × String))) :
    (Section.ofTables tables).toTable = .ofTables tables := by
  rw [Section.ofTables, Section.toTable]
  induction tables with
  | nil => rfl
  | cons e tables ih =>
    rw [List.map_cons, entriesOf, ih, Item.toValue, toTable_ofStrings]
    rfl

/-- A line with a new header adds a table without keys. -/
theorem LinesTo.header {tables : List (String × List (String × String))} {name : String}
    {header : List String} {root : Section} (hname : name ∉ tables.map Prod.fst)
    (h : LinesTo ⟨.ofTables (tables ++ [(name, [])]), [name]⟩ rest root) :
    LinesTo ⟨.ofTables tables, header⟩
      ('[' :: (writtenKey name.toList ++ ']' :: '\n' :: rest)) root := by
  have hline := line_header ⟨.ofTables tables, header⟩ name rest
  rw [openTable_ofTables hname] at hline
  refine LinesTo.line rfl ?_ hline h
  simp
  omega

theorem skipBlanks_writtenEntry (key value : String) (rest : List Char) :
    skipBlanks (writtenEntry key value ++ rest) = writtenEntry key value ++ rest := by
  rw [writtenEntry, List.append_assoc, List.append_assoc, List.append_assoc,
    skipBlanks_writtenKey]

/-- The lines of some keys add them to the last table. -/
theorem LinesTo.entries {tables : List (String × List (String × String))} {name : String}
    {before entries : List (String × String)} {root : Section} (hname : name ∉ tables.map Prod.fst)
    (hkeys : ((before ++ entries).map Prod.fst).Nodup)
    (h : LinesTo ⟨.ofTables (tables ++ [(name, before ++ entries)]), [name]⟩ rest root) :
    LinesTo ⟨.ofTables (tables ++ [(name, before)]), [name]⟩
      (entries.flatMap (fun (k, v) => writtenEntry k v) ++ rest) root := by
  induction entries generalizing before with
  | nil => simpa using h
  | cons e entries ih =>
    obtain ⟨key, text⟩ := e
    have hfresh : key ∉ before.map Prod.fst := by
      rw [List.map_append, List.nodup_append] at hkeys
      exact fun hmem => hkeys.2.2 key hmem key List.mem_cons_self rfl
    have hline := line_writtenEntry ⟨.ofTables (tables ++ [(name, before)]), [name]⟩ key text
      (entries.flatMap (fun (k, v) => writtenEntry k v) ++ rest)
    rw [put_ofTables text hname hfresh] at hline
    rw [List.append_cons before] at hkeys h
    rw [List.flatMap_cons, List.append_assoc]
    refine LinesTo.line (skipBlanks_writtenEntry _ _ _) ?_ hline (ih hkeys h)
    simp [writtenEntry]
    omega

/-- The lines of a new table add the table. -/
theorem LinesTo.table {tables : List (String × List (String × String))} {name : String}
    {entries : List (String × String)} {header : List String} {root : Section}
    (hname : name ∉ tables.map Prod.fst) (hkeys : (entries.map Prod.fst).Nodup)
    (h : LinesTo ⟨.ofTables (tables ++ [(name, entries)]), [name]⟩ rest root) :
    LinesTo ⟨.ofTables tables, header⟩ (writtenTable name entries ++ rest) root := by
  rw [← List.nil_append entries] at hkeys h
  have hentries := LinesTo.entries hname hkeys h
  have hlines : LinesTo ⟨.ofTables tables, header⟩ _ root := hentries.header hname
  simpa [writtenTable] using hlines

/-- A blank line changes nothing. -/
theorem LinesTo.blank {root : Section} (h : LinesTo d rest root) : LinesTo d ('\n' :: rest) root :=
  .line rfl (by simp) rfl h

/-- The lines of some tables add them to the document. -/
theorem LinesTo.tables {before tables : List (String × List (String × String))}
    {header : List String} (hnames : ((before ++ tables).map Prod.fst).Nodup)
    (hkeys : ∀ t ∈ tables, (t.2.map Prod.fst).Nodup) :
    LinesTo ⟨.ofTables before, header⟩
      (List.intercalate ['\n'] (tables.map fun (name, entries) => writtenTable name entries))
      (.ofTables (before ++ tables)) := by
  induction tables generalizing before header with
  | nil => simpa using LinesTo.nil _
  | cons t tables ih =>
    obtain ⟨name, entries⟩ := t
    have hfresh : name ∉ before.map Prod.fst := by
      rw [List.map_append, List.nodup_append] at hnames
      exact fun hmem => hnames.2.2 name hmem name List.mem_cons_self rfl
    obtain ⟨hentries, hkeys⟩ := List.forall_mem_cons.1 hkeys
    rw [List.append_cons before] at hnames ⊢
    have hrest : LinesTo ⟨.ofTables (before ++ [(name, entries)]), [name]⟩ _ _ := ih hnames hkeys
    cases tables with
    | nil =>
      have htable : LinesTo ⟨.ofTables before, header⟩ _ _ := hrest.table hfresh hentries
      simpa [List.intercalate] using htable
    | cons t tables =>
      -- A blank line stands before the other tables.
      have htable : LinesTo ⟨.ofTables before, header⟩ _ _ := hrest.blank.table hfresh hentries
      simpa [List.intercalate] using htable

/-- A document of tables of strings is read back if no name and no key in a table comes twice. -/
theorem ofText?_writtenDocument {tables : List (String × List (String × String))}
    (hnames : (tables.map Prod.fst).Nodup) (hkeys : ∀ t ∈ tables, (t.2.map Prod.fst).Nodup) :
    Table.ofText? (writtenDocument tables) = .ok (.ofTables tables) := by
  -- The first character, if there is one, is a bracket and no byte-order mark.
  have hmark (rest : List Char) :
      List.intercalate ['\n'] (tables.map fun (name, entries) => writtenTable name entries) ≠
        '\uFEFF' :: rest := by
    cases tables with
    | nil => nofun
    | cons t tables => cases tables <;> simp [List.intercalate, writtenTable]
  have hlines : LinesTo ⟨.ofTables [], []⟩ _ (.ofTables ([] ++ tables)) := .tables hnames hkeys
  obtain ⟨header, hread⟩ := hlines _ (Nat.lt_succ_self _)
  rw [Table.ofText?, writtenDocument, String.toList_ofList, document]
  · show (lines _ ⟨.ofTables [], []⟩ _ >>= fun d => _) = _
    rw [hread]
    exact congrArg Except.ok (toTable_ofTables tables)
  · exact hmark

end Versioning.Toml
