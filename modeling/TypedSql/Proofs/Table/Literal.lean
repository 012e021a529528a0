import TypedSql.Proofs.Column.Decoding
import TypedSql.Proofs.Table.Ddl
import TypedSql.Proofs.Table.Derived
import TypedSql.Proofs.Text.Literal

/-!
# Literals in the statements about tables

Comments, text defaults, the values of enumerations and text settings stand as literals in types, in
statements that create tables and in the texts of columns. `literals_read_iff` says where, and that
a database reads each of them as what it was made of, up to its closing quote, exactly if there is
no backslash in that.
-/

namespace TypedSql.Table

open TypedSql.Number TypedSql.Outcome TypedSql.Text

section Standing

/-- `Stands sql lead chars` says that the literal of a text stands behind a lead, and that no other
quote follows it. -/
def Stands (sql lead chars : String) : Prop :=
  ∃ before after, sql = before ++ lead ++ quoteLiteral chars ++ after ∧ IsClear after

/-- `HoldsLiteral sql lead chars` says that the literal of a text stands behind a lead. Whatever
escapes denote, it is read as the text, up to its closing quote, exactly if the text has no
backslash. -/
def HoldsLiteral (sql lead chars : String) : Prop :=
  ∃ before after, sql = before ++ lead ++ quoteLiteral chars ++ after ∧
    ∀ escaped, readLiteral? escaped (quoteLiteral chars ++ after) = some (chars, after) ↔
      '\\' ∉ chars.toList

variable {sql lead chars : String}

theorem Stands.holdsLiteral (h : Stands sql lead chars) : HoldsLiteral sql lead chars := by
  obtain ⟨before, after, hsql, hafter⟩ := h
  exact ⟨before, after, hsql, fun escaped => readLiteral?_quoteLiteral_iff escaped chars hafter⟩

theorem stands_quoteLiteral (lead chars : String) :
    Stands (lead ++ quoteLiteral chars) lead chars :=
  ⟨"", "", by simp, by decide⟩

/-- A literal stands as well in a text with something in front. -/
theorem Stands.append_left (h : Stands sql lead chars) (other : String) :
    Stands (other ++ sql) lead chars := by
  obtain ⟨before, after, rfl, hafter⟩ := h
  exact ⟨other ++ before, after, by simp only [String.append_assoc], hafter⟩

/-- A literal stands as well in a text with something behind that does not start with a quote. -/
theorem Stands.append_right (h : Stands sql lead chars) {other : String} (hother : IsClear other) :
    Stands (sql ++ other) lead chars := by
  obtain ⟨before, after, rfl, hafter⟩ := h
  exact ⟨before, after ++ other, by simp only [String.append_assoc], hafter.append hother⟩

/-- A literal that stands in a part stands in the parts put together. -/
theorem Stands.intercalate {part separator : String} {parts : List String}
    (h : Stands part lead chars) (hpart : part ∈ parts) (hseparator : separator ≠ "")
    (hclear : IsClear separator) : Stands (separator.intercalate parts) lead chars := by
  obtain ⟨earlier, later, rfl⟩ := List.append_of_mem hpart
  have hlast : Stands (separator.intercalate (part :: later)) lead chars := by
    by_cases hlater : later = []
    · rwa [hlater, String.intercalate_singleton]
    · rw [String.intercalate_cons_of_ne_nil hlater, String.append_assoc]
      exact h.append_right (hclear.append_of_ne_empty hseparator _)
  by_cases hearlier : earlier = []
  · rwa [hearlier, List.nil_append]
  · rw [String.intercalate_append_of_ne_nil hearlier (List.cons_ne_nil _ _)]
    exact hlast.append_left _

end Standing

section Parts

variable {column : Column} {type : String}

/-- What stands in front of a value in the type of an enumeration, behind some others. -/
def membersLead (kind : Kind) (earlier : List String) : String :=
  kind.name ++ "(" ++ if earlier = [] then ""
    else Value.commaSeparated (Column.enumMembers earlier) ++ ", "

/-- A text holds the values of an enumeration, each behind the earlier ones. -/
def HoldsMembers (sql : String) (column : Column) : Prop :=
  column.kind.isEnum = true → ∀ earlier value later,
    column.enumValues = some (earlier ++ value :: later) →
      HoldsLiteral sql (membersLead column.kind earlier) value

/-- A text holds the comment of a column behind a lead, if there is one. -/
def HoldsComment (sql lead : String) (column : Column) : Prop :=
  ∀ comment, column.comment = some comment → comment ≠ "" →
    HoldsLiteral sql (lead ++ " COMMENT ") comment

/-- The members of an enumeration are those of the earlier values, that of a value, and others. -/
theorem exists_enumMembers_append (earlier later : List String) (value : String) :
    ∃ others, Column.enumMembers (earlier ++ value :: later) =
      Column.enumMembers earlier ++ Column.enumMember value earlier.length :: others := by
  refine ⟨(later.zipIdx (earlier.length + 1)).map fun entry =>
    Column.enumMember entry.1 entry.2, ?_⟩
  simp [Column.enumMembers, List.zipIdx_append]

/-- A value stands in the type of an enumeration behind the earlier ones. -/
theorem stands_member (kind : Kind) (earlier later : List String) (value : String) :
    Stands (Column.applyType kind.name (Column.enumMembers (earlier ++ value :: later)))
      (membersLead kind earlier) value := by
  obtain ⟨others, hmembers⟩ := exists_enumMembers_append earlier later value
  set member := Column.enumMember value earlier.length with hmember
  -- the member starts with the literal, and the others follow it behind commas
  have hothers : ∃ after, Value.commaSeparated (member :: others) = quoteLiteral value ++ after ∧
      IsClear after := by
    have hordinal : IsClear (" = " ++ toString (earlier.length + 1)) :=
      IsClear.append_of_ne_empty (by decide) (by decide) _
    by_cases hnone : others = []
    · refine ⟨_, ?_, hordinal⟩
      rw [hnone, Value.commaSeparated_singleton, hmember, Column.enumMember, String.append_assoc]
    · have hcomma : IsClear (", " ++ Value.commaSeparated others) :=
        IsClear.append_of_ne_empty (by decide) (by decide) _
      refine ⟨_, ?_, hordinal.append hcomma⟩
      rw [Value.commaSeparated, String.intercalate_cons_of_ne_nil hnone, hmember, Column.enumMember]
      simp only [String.append_assoc, Value.commaSeparated]
  obtain ⟨after, hafter, hclear⟩ := hothers
  have hall : Value.commaSeparated (Column.enumMembers (earlier ++ value :: later)) =
      (if earlier = [] then "" else Value.commaSeparated (Column.enumMembers earlier) ++ ", ") ++
        (quoteLiteral value ++ after) := by
    rw [hmembers, ← hafter]
    by_cases hnone : earlier = []
    · simp [hnone, Column.enumMembers]
    · have hearlier : Column.enumMembers earlier ≠ [] := by simpa [Column.enumMembers] using hnone
      rw [if_neg hnone, Value.commaSeparated,
        String.intercalate_append_of_ne_nil hearlier (List.cons_ne_nil _ _)]
      rfl
  refine ⟨"", after ++ ")", ?_, hclear.append (by decide)⟩
  simp only [Column.applyType, Value.applied, hall, membersLead, String.append_assoc,
    String.empty_append]

/-- A value stands in the type of an enumeration column behind the earlier ones. -/
theorem stands_typeText {earlier later : List String} {value : String}
    (henum : column.kind.isEnum = true)
    (hvalues : column.enumValues = some (earlier ++ value :: later))
    (h : column.typeText = .ok type) : Stands type (membersLead column.kind earlier) value := by
  have hmember := stands_member column.kind earlier later value
  rw [Column.typeText_of_isEnum henum hvalues h]
  split
  · rw [Column.nullableText, Column.applyType, Value.applied, Value.commaSeparated_singleton]
    exact (hmember.append_left _).append_right (by decide)
  · exact hmember

/-- The comment of a column leaves a literal in front of it alone. -/
theorem isClear_commentText (column : Column) : IsClear (commentText column) := by
  unfold commentText
  split
  · decide
  · decide
  · exact IsClear.append_of_ne_empty (by decide) (by decide) _

/-- A comment that is not empty stands in the text of the comment. -/
theorem stands_commentText {comment : String} (hcomment : column.comment = some comment)
    (h : comment ≠ "") (lead : String) :
    Stands (lead ++ commentText column) (lead ++ " COMMENT ") comment := by
  have htext : commentText column = " COMMENT " ++ quoteLiteral comment := by
    rw [commentText, hcomment]
    split
    · next hnone => cases hnone
    · next hempty => exact absurd (Option.some.inj hempty) h
    · next known _ hknown => rw [Option.some.inj hknown]
  rw [htext, ← String.append_assoc]
  exact stands_quoteLiteral _ _

end Parts

section Lines

variable {table : Table} {column : Column} {name sql type : String}

/-- The literals in the line of a column stand in it. -/
theorem stands_columnLine {line : String} (h : columnLine name column = .ok line) :
    ∃ type, column.typeText = .ok type ∧
      (∀ lead chars, Stands type lead chars → Stands line lead chars) ∧
        ∀ comment, column.comment = some comment → comment ≠ "" →
          Stands line (Identifier.backquoted name ++ " " ++ type ++ " COMMENT ") comment := by
  simp only [columnLine, bind_eq_ok, pure_eq_ok] at h
  obtain ⟨quoted, hquoted, type, htype, rfl⟩ := h
  obtain rfl : quoted = Identifier.backquoted name := (Identifier.quote_eq_ok.1 hquoted).2
  refine ⟨type, htype, fun lead chars hstands => ?_, fun comment hcomment hnonempty => ?_⟩
  · exact (hstands.append_left _).append_right (isClear_commentText column)
  · exact stands_commentText hcomment hnonempty _

/-- What stands in a line of a statement stands in the statement. -/
theorem stands_createText {options : CreateOptions} (h : table.createText options = .ok sql) :
    (∀ entry ∈ table.columns, ∃ line, columnLine entry.1 entry.2 = .ok line ∧
      ∀ lead chars, Stands line lead chars → Stands sql lead chars) ∧
      ∃ settings, settingsLine options.settings = .ok settings ∧
        ∀ line ∈ settings, ∀ lead chars, Stands line lead chars → Stands sql lead chars := by
  simp only [createText, bind_eq_ok, pure_eq_ok] at h
  obtain ⟨quoted, hquoted, lines, hlines, engine, -, order, -, partition, -, settings, hsettings,
    rfl⟩ := h
  refine ⟨fun entry hentry => ?_, settings, hsettings, fun line hline lead chars hstands => ?_⟩
  · obtain ⟨line, hline, hcolumn⟩ := exists_of_mem_right (mapM_eq_ok_iff.1 hlines).flip hentry
    refine ⟨line, hcolumn, fun lead chars hstands => ?_⟩
    have hjoined : Stands (",\n  ".intercalate lines) lead chars :=
      hstands.intercalate hline (by decide) (by decide)
    have hclosing : IsClear "\n)" := by decide
    exact ((hjoined.append_left ("CREATE TABLE " ++ (if options.ifNotExists then "IF NOT EXISTS "
      else "") ++ quoted ++ " (\n  ")).append_right hclosing).intercalate (by simp) (by decide)
        (by decide)
  · exact hstands.intercalate (by simp [hline]) (by decide) (by decide)

/-- A text setting stands in the line of the settings behind its name. -/
theorem stands_setting {settings : Entries} {shown : List String} {key value : Value}
    {chars : String} (h : settingsLine (.map settings) = .ok shown) (hmem : (key, value) ∈ settings)
    (hchars : value.asText? = some chars) :
    ∃ text, key.displayed = .ok text ∧ ∃ line ∈ shown, Stands line (text ++ " = ") chars := by
  obtain ⟨assignments, hassignments, rfl⟩ := settingsLine_eq_ok.1 h
  obtain ⟨assigned, hassigned, hassignment⟩ := exists_of_mem_right hassignments.flip hmem
  simp only [assignment, bind_eq_ok, pure_eq_ok] at hassignment
  obtain ⟨text, htext, shownValue, hvalue, rfl⟩ := hassignment
  have hliteral : settingText value = .ok (quoteLiteral chars) := by
    unfold settingText
    split
    · cases hchars
    · rw [hchars]
  obtain rfl := Except.ok.inj (hliteral.symm.trans hvalue)
  refine ⟨text, htext, "SETTINGS " ++ Value.commaSeparated assignments, ?_, ?_⟩
  · rw [if_neg (List.ne_nil_of_mem hassigned)]
    exact List.mem_singleton_self _
  · exact ((stands_quoteLiteral _ _).intercalate hassigned (by decide) (by decide)).append_left _

end Lines

section Default

variable {table : Table} {column : Column} {name value : Value} {draws : Draws} {sql : String}

/-- Whether a default is written as the literal of a text. -/
def isLiteral : Value → Bool
  | .bool _ | .int _ | .float _ | .decimal _ => false
  | _ => true

/-- The text in the literal of a default: a text is its own, other values have their JSON. -/
def literalText (value : Value) : Except Fault String :=
  match value.asText? with
  | some chars => .ok chars
  | none => value.jsonText

theorem defaultLiteral_of_isLiteral (h : isLiteral value = true) :
    defaultLiteral value = (literalText value).map quoteLiteral := by
  have hliteral : defaultLiteral value =
      match value.asText? with
      | some chars => .ok (quoteLiteral chars)
      | none => value.jsonText.map quoteLiteral := by
    cases value with
    | bool | int | float | decimal => cases h
    | _ => rfl
  rw [hliteral, literalText]
  cases value.asText? <;> rfl

/-- The part of the text of a column that shows its default. -/
def defaultText (column : Column) (draws : Draws) : Except Fault String :=
  if column.hasDefault then
    (defaultLiteral (column.resolveDefault.run draws).1).map (" DEFAULT " ++ ·)
  else .ok ""

/-- The text of a column up to its default. -/
def columnHead (name : Value) (type : String) (column : Column) : String :=
  Identifier.backquoted name.display ++ " " ++ type ++ if column.nullable then "" else " NOT NULL"

section Runs

variable {α β : Type} {result : β}

/-- Behind a step that may fail, a run with draws goes on with the result of the step. -/
theorem run_ofExcept_eq_ok {first : Except Fault α} {second : α → ExceptT Fault (StateM Draws) β} :
    ((ofExcept first >>= second).run.run draws).1 = .ok result ↔
      ∃ given, first = .ok given ∧ ((second given).run.run draws).1 = .ok result := by
  cases first with
  | ok given =>
      constructor
      · intro h
        exact ⟨given, rfl, h⟩
      · rintro ⟨_, hgiven, h⟩
        cases hgiven
        exact h
  | error fault => exact iff_of_false (fun h => nomatch h) (fun ⟨_, hgiven, _⟩ => nomatch hgiven)

/-- Behind a drawing step, a run goes on with what is drawn and with the draws then. -/
theorem run_drawn (first : StateM Draws α) (second : α → ExceptT Fault (StateM Draws) β) :
    ((liftM first >>= second).run.run draws).1 =
      ((second (first.run draws).1).run.run (first.run draws).2).1 := rfl

/-- A run that ends gives what it ends with. -/
theorem run_pure_eq_ok {given : β} :
    ((pure given : ExceptT Fault (StateM Draws) β).run.run draws).1 = .ok result ↔ given = result :=
  ⟨Except.ok.inj, congrArg Except.ok⟩

end Runs

/-- The text of a column is made of its head, its default and its comment. -/
theorem columnText_eq_ok :
    ((table.columnText name).run.run draws).1 = .ok sql ↔
      ∃ column type default, table.requireColumn name = .ok column ∧
        Identifier.isNameValue name = true ∧ column.typeText = .ok type ∧
          defaultText column draws = .ok default ∧
            columnHead name type column ++ default ++ commentText column = sql := by
  have hrest : ∀ (column : Column) (type : String),
      ((if column.hasDefault = true then do
          let value ← (liftM column.resolveDefault : ExceptT Fault (StateM Draws) Value)
          let literal ← ofExcept (defaultLiteral value)
          let default ← pure (" DEFAULT " ++ literal)
          pure (columnHead name type column ++ default ++ commentText column)
        else do
          let default ← pure ""
          pure (columnHead name type column ++ default ++ commentText column)).run.run draws).1 =
            .ok sql ↔
        ∃ default, defaultText column draws = .ok default ∧
          columnHead name type column ++ default ++ commentText column = sql := by
    intro column type
    unfold defaultText
    split
    · simp only [run_drawn, pure_bind, run_ofExcept_eq_ok, run_pure_eq_ok, map_eq_ok,
        exists_exists_and_eq_and]
    · simp only [pure_bind, run_pure_eq_ok, Except.ok.injEq, exists_eq_left']
  unfold columnText
  simp only [run_ofExcept_eq_ok, Identifier.quote_eq_ok]
  constructor
  · rintro ⟨column, hcolumn, quoted, ⟨hname, rfl⟩, type, htype, h⟩
    obtain ⟨default, hdefault, hsql⟩ := (hrest column type).1 h
    exact ⟨column, type, default, hcolumn, hname, htype, hdefault, hsql⟩
  · rintro ⟨column, type, default, hcolumn, hname, htype, hdefault, hsql⟩
    exact ⟨column, hcolumn, _, ⟨hname, rfl⟩, type, htype,
      (hrest column type).2 ⟨default, hdefault, hsql⟩⟩

/-- The literals of a column stand in its text: those in its type, that of its default, and its
comment. -/
theorem stands_columnText {type default : String}
    (hdefault : defaultText column draws = .ok default)
    (hsql : columnHead name type column ++ default ++ commentText column = sql) :
    (∀ lead chars, Stands type lead chars → Stands sql lead chars) ∧
      (column.hasDefault = true → isLiteral (column.resolveDefault.run draws).1 = true →
        ∃ text, literalText (column.resolveDefault.run draws).1 = .ok text ∧
          Stands sql (columnHead name type column ++ " DEFAULT ") text) ∧
        ∀ comment, column.comment = some comment → comment ≠ "" →
          Stands sql (columnHead name type column ++ default ++ " COMMENT ") comment := by
  subst hsql
  refine ⟨fun lead chars hstands => ?_, fun hsome hliteral => ?_, fun comment hcomment hnonempty =>
    stands_commentText hcomment hnonempty _⟩
  · have hnotNull : IsClear (if column.nullable = true then "" else " NOT NULL") := by
      split <;> decide
    have hclear : IsClear default := by
      unfold defaultText at hdefault
      split at hdefault
      · obtain ⟨literal, -, rfl⟩ := map_eq_ok.1 hdefault
        exact IsClear.append_of_ne_empty (by decide) (by decide) _
      · obtain rfl := Except.ok.inj hdefault
        decide
    exact (((hstands.append_left _).append_right hnotNull).append_right hclear).append_right
      (isClear_commentText column)
  · rw [defaultText, if_pos hsome, defaultLiteral_of_isLiteral hliteral] at hdefault
    obtain ⟨literal, hmapped, rfl⟩ := map_eq_ok.1 hdefault
    obtain ⟨text, htext, rfl⟩ := map_eq_ok.1 hmapped
    refine ⟨text, htext, Stands.append_right ?_ (isClear_commentText column)⟩
    rw [← String.append_assoc]
    exact stands_quoteLiteral _ _

end Default

section Reading

/-- A text holds the literals of a column: the values of an enumeration, and the comment behind a
lead. -/
structure HoldsColumn (sql lead : String) (column : Column) : Prop where
  members : HoldsMembers sql column
  comment : HoldsComment sql lead column

/-- A text holds the literals of a column if those in its type and its comment stand in the text. -/
theorem holdsColumn_of_stands {column : Column} {sql lead type : String}
    (htype : column.typeText = .ok type)
    (hmembers : ∀ front chars, Stands type front chars → Stands sql front chars)
    (hcomment : ∀ comment, column.comment = some comment → comment ≠ "" →
      Stands sql (lead ++ " COMMENT ") comment) : HoldsColumn sql lead column where
  members henum _ _ _ hvalues :=
    (hmembers _ _ (stands_typeText henum hvalues htype)).holdsLiteral
  comment comment hgiven hnonempty := (hcomment comment hgiven hnonempty).holdsLiteral

/-- Every text literal in a type, in a statement that creates a table and in the text of a column is
read as what it was made of, up to its closing quote, exactly if that has no backslash. This holds
for the values of enumerations, for comments, for text settings and for defaults, where a default
that is no text has its JSON in the literal. -/
theorem literals_read_iff (column : Column) (table : Table) (options : CreateOptions) (name : Value)
    (draws : Draws) (sql : String) :
    (column.typeText = .ok sql → HoldsMembers sql column) ∧
      (table.createText options = .ok sql →
        (∀ entry ∈ table.columns, ∃ type, entry.2.typeText = .ok type ∧
          HoldsColumn sql (Identifier.backquoted entry.1 ++ " " ++ type) entry.2) ∧
        ∀ settings key value chars, options.settings = .map settings → (key, value) ∈ settings →
          value.asText? = some chars →
            ∃ text, key.displayed = .ok text ∧ HoldsLiteral sql (text ++ " = ") chars) ∧
      (((table.columnText name).run.run draws).1 = .ok sql →
        ∃ column type default, table.requireColumn name = .ok column ∧
          column.typeText = .ok type ∧ defaultText column draws = .ok default ∧
            HoldsColumn sql (columnHead name type column ++ default) column ∧
              (column.hasDefault = true → isLiteral (column.resolveDefault.run draws).1 = true →
                ∃ text, literalText (column.resolveDefault.run draws).1 = .ok text ∧
                  HoldsLiteral sql (columnHead name type column ++ " DEFAULT ") text)) := by
  refine ⟨fun htype henum earlier value later hvalues =>
    (stands_typeText henum hvalues htype).holdsLiteral, fun h => ?_, fun h => ?_⟩
  · obtain ⟨hcolumns, shown, hshown, hlines⟩ := stands_createText h
    constructor
    · intro entry hentry
      obtain ⟨line, hline, hsql⟩ := hcolumns entry hentry
      obtain ⟨type, htype, hmembers, hcomment⟩ := stands_columnLine hline
      exact ⟨type, htype, holdsColumn_of_stands htype
        (fun _ _ hstands => hsql _ _ (hmembers _ _ hstands))
        fun comment hgiven hnonempty => hsql _ _ (hcomment comment hgiven hnonempty)⟩
    · intro settings key value chars hsettings hmem hchars
      rw [hsettings] at hshown
      obtain ⟨text, htext, line, hline, hstands⟩ := stands_setting hshown hmem hchars
      exact ⟨text, htext, (hlines line hline _ _ hstands).holdsLiteral⟩
  · obtain ⟨column, type, default, hcolumn, -, htype, hdefault, hsql⟩ := columnText_eq_ok.1 h
    obtain ⟨hmembers, hliteral, hcomment⟩ := stands_columnText hdefault hsql
    refine ⟨column, type, default, hcolumn, htype, hdefault,
      holdsColumn_of_stands htype hmembers hcomment, ?_⟩
    intro hsome hvalue
    obtain ⟨text, htext, hstands⟩ := hliteral hsome hvalue
    exact ⟨text, htext, hstands.holdsLiteral⟩

/-- An answer, with values, a comment and a default that have quotes in them. -/
def answer : Column :=
  { kind := .enum8
    comment := some "it's theirs"
    enumValues := some ["yes", "that's all"]
    default := some (.literal (.text "that's all")) }

/-- A table of answers. -/
def answers : Table := { name := "answers", columns := [("answer", answer)] }

/-- Options with a text setting. -/
def tiered : CreateOptions := { settings := .map [(.text "storage_policy", .text "it's hot")] }

/-- Quotes in values, comments, settings and defaults are read back. -/
theorem answers_read :
    (∃ sql type, answers.createText tiered = .ok sql ∧
      HoldsLiteral sql (membersLead .enum8 ["yes"]) "that's all" ∧
      HoldsLiteral sql (Identifier.backquoted "answer" ++ " " ++ type ++ " COMMENT ")
        "it's theirs" ∧
      HoldsLiteral sql "storage_policy = " "it's hot") ∧
      ∃ sql type, ((answers.columnText (.text "answer")).run.run []).1 = .ok sql ∧
        HoldsLiteral sql (columnHead (.text "answer") type answer ++ " DEFAULT ") "that's all" := by
  have hcreated : ∃ sql, answers.createText tiered = .ok sql := ⟨_, rfl⟩
  have hanswer : answers.requireColumn (.text "answer") = .ok answer :=
    requireColumn_eq_ok.2 ⟨"answer", rfl, rfl⟩
  have hwritten : ∃ sql, ((answers.columnText (.text "answer")).run.run []).1 = .ok sql :=
    ⟨_, columnText_eq_ok.2 ⟨answer, _, _, hanswer, rfl, rfl, rfl, rfl⟩⟩
  obtain ⟨sql, hsql⟩ := hcreated
  obtain ⟨other, hother⟩ := hwritten
  obtain ⟨-, hcreation, -⟩ := literals_read_iff answer answers tiered .null [] sql
  obtain ⟨-, -, hcolumn⟩ := literals_read_iff answer answers tiered (.text "answer") [] other
  obtain ⟨hcolumns, hsettings⟩ := hcreation hsql
  obtain ⟨type, -, hholds⟩ := hcolumns ("answer", answer) List.mem_cons_self
  obtain ⟨text, htext, hsetting⟩ := hsettings _ _ _ _ rfl List.mem_cons_self rfl
  obtain ⟨column, known, default, hrequired, -, -, -, hdefault⟩ := hcolumn hother
  obtain rfl : answer = column := Except.ok.inj (hanswer.symm.trans hrequired)
  obtain ⟨chars, hchars, hliteral⟩ := hdefault rfl rfl
  obtain rfl : "that's all" = chars := Except.ok.inj hchars
  obtain rfl : "storage_policy" = text := Except.ok.inj htext
  exact ⟨⟨sql, type, hsql, hholds.members rfl ["yes"] _ [] rfl,
    hholds.comment _ rfl (by decide), hsetting⟩, other, known, hother, hliteral⟩

/-- A text of one backslash escapes the quote that should close its literal. With such a comment the
literal does not end in the statement that creates the table. -/
theorem backslash_escapes_quote :
    ∃ table, ofDefinition (.text "t") (.map [(.text "a",
        .map [(.text "type", .text "String"), (.text "comment", .text "\\")])]) = .ok table ∧
      ∃ before after, table.createText {} = .ok (before ++ quoteLiteral "\\" ++ after) ∧
        before = "CREATE TABLE \x60t\x60 (\n  \x60a\x60 String COMMENT " ∧
          ∀ escaped, readLiteral? escaped (quoteLiteral "\\" ++ after) = none :=
  ⟨_, rfl, _, "\n)\nENGINE = MergeTree()\nORDER BY \x60a\x60", rfl, rfl, fun _ => rfl⟩

end Reading

end TypedSql.Table
