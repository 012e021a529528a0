import TypedSql.Proofs.Condition.Placeholder
import TypedSql.Proofs.Model.Composition
import TypedSql.Proofs.Model.Selection
import TypedSql.Runtime

/-!
# Placeholders of statements

Every statement of a model shows one placeholder for each of its parameters, numbered from zero in
the order of the parameters. The first ones have the types of the columns that are written, the
others the types inferred for the values of the condition. The types of columns show the dimensions
of the columns, and nothing else is read as a placeholder as long as these are whole numbers:
`placeholders_agree_with_parameters`. A dimension that is a text can pretend to be one more:
`text_precision_shows_placeholder`.
-/

namespace TypedSql

open TypedSql.Sql TypedSql.Outcome TypedSql.Statement TypedSql.Condition

namespace Model

variable {model : Model} {before after : Builder} {parameters : List (String × Value)}

section Selections

/-- The texts of a clause, of which a trivial one has none, show a placeholder for each of its
values. -/
theorem shows_clause {given : Value} {bound : Nat} {clause : Clause}
    (hraw : IsRawFree (model.effective given))
    (hclause : model.clause given (.number bound) = .ok clause) :
    ∃ texts values, (if clause.isTrivial then [] else [.text clause.sql]) = texts.map Value.text ∧
      ShowsEach texts (slotsFrom bound (values.map Wire.placeholderType)) ∧
      clause.parameters = numbered bound values := by
  obtain ⟨values, hshows, hparameters⟩ := shows_compile hraw hclause
  cases htrivial : clause.isTrivial with
  | false => exact ⟨[clause.sql], values, rfl, ShowsEach.single hshows, hparameters⟩
  | true =>
      -- a trivial clause is left out; without a brace in its text it has no value to lose
      have hsql : clause.sql = alwaysTrue := by simpa [Clause.isTrivial] using htrivial
      rw [hsql] at hshows
      have hnone : slotsFrom bound (values.map Wire.placeholderType) = [] :=
        hshows.eq_nil_of_isPlain (by decide)
      refine ⟨[], values, rfl, ?_, hparameters⟩
      rw [hnone]
      exact ShowsEach.nil

/-- The condition in force adds texts that show a placeholder for each of its values, numbered
behind the values bound before. -/
theorem runs_applyCondition_shows {given : Value} (hraw : IsRawFree (model.effective given))
    (hstart : before.start = .zero)
    (h : Runs (model.applyCondition given) before parameters after) :
    ∃ texts values, after = { before with conditions := before.conditions ++ texts.map .text } ∧
      ShowsEach texts (slotsFrom before.bound.length (values.map Wire.placeholderType)) ∧
      parameters = numbered before.bound.length values := by
  obtain ⟨clause, hclause, rfl, rfl⟩ := runs_applyCondition hstart h
  obtain ⟨texts, values, htexts, hshows, hparameters⟩ := shows_clause hraw hclause
  exact ⟨texts, values, by rw [htexts], hshows, hparameters⟩

/-- A selection agrees with the parameters of its conditions, for it binds no others. -/
theorem agrees_of_isSelection {builder : Builder} {conditions : List String}
    (hselection : IsSelection builder conditions) (hbound : builder.bound = [])
    {values : List Value}
    (hconditions : ShowsEach conditions (slotsFrom 0 (values.map Wire.placeholderType)))
    {query : Query} (h : builder.build = .ok query) :
    Agrees 0 [] query.sql (numbered 0 query.parameters ++ numbered 0 values) := by
  obtain ⟨hshows, hparameters⟩ := hselection.shows_build hconditions h
  rw [hparameters, hbound]
  exact agrees_values hshows

theorem isPlain_table (h : Identifier.isNameValue (.text model.name) = true) {table : String}
    (htable : some (Identifier.backquoted (Value.text model.name).display) = some table) :
    IsPlain table := by
  cases htable
  exact isPlain_backquoted h

/-- Quoted names are plain. -/
theorem isPlain_of_mem_backquoted {names : List String}
    (h : ∀ name ∈ names, Identifier.isNameValue (.text name) = true) :
    ∀ text ∈ names.map Identifier.backquoted, IsPlain text := by
  refine List.forall_mem_map.2 fun name hname => ?_
  have hplain : IsPlain (Identifier.backquoted (Value.text name).display) :=
    isPlain_backquoted (h name hname)
  exact hplain

/-- The selection of rows shows the parameters of the condition in force. -/
theorem select_agrees {statement : Bound} (hraw : IsRawFree (model.effective .null))
    (h : model.selectStatement = .ok statement) :
    Agrees 0 [] statement.sql statement.parameters := by
  obtain ⟨names, clause, orders, query, -, hplain, hname, hclause, hgrouping, horders, hbuild,
    rfl⟩ := select_eq_ok h
  obtain ⟨texts, values, htexts, hshows, hparameters⟩ := shows_clause hraw hclause
  rw [hparameters]
  -- limit and offset are written as numerals and bind nothing
  refine agrees_of_isSelection (?_ : IsSelection _ texts) rfl hshows hbuild
  constructor
  case verb => rfl
  case table => exact fun table => isPlain_table hname
  case selected => exact ⟨_, rfl, hplain⟩
  case conditions => exact htexts
  case grouping => exact isPlain_of_mem_backquoted hgrouping
  case ordering =>
    intro text htext
    obtain ⟨_, -, horder⟩ := exists_of_mem_right horders htext
    exact horder.isPlain
  case endings => rfl

/-- The count of rows shows the parameters of the condition in force. -/
theorem count_agrees {statement : Bound} (hraw : IsRawFree (model.effective .null))
    (h : model.countStatement = .ok statement) :
    Agrees 0 [] statement.sql statement.parameters := by
  obtain ⟨parameters, builder, query, hruns, hbuild, rfl⟩ := bound_eq_ok.1 h
  obtain ⟨_, _, hselect, hruns⟩ := Runs.bind_iff.1 hruns
  obtain rfl := runs_selectRaw hselect
  obtain ⟨_, _, htable, hruns⟩ := Runs.bind_iff.1 hruns
  obtain ⟨hname, rfl⟩ := runs_setTable htable
  obtain ⟨texts, values, rfl, hshows, rfl⟩ := runs_applyCondition_shows hraw rfl hruns
  refine agrees_of_isSelection (?_ : IsSelection _ texts) rfl hshows hbuild
  constructor
  case verb => rfl
  case table => exact fun table => isPlain_table hname
  case selected => exact ⟨["COUNT(*) AS " ++ Identifier.backquoted "count"], rfl, by decide⟩
  case conditions => rfl
  case grouping => simp
  case ordering => simp
  case endings => rfl

/-- The text of a summary has no braces. -/
theorem isPlain_aggregateText {label summary : Value} {text : String}
    (h : model.aggregateText label summary = .ok text) : IsPlain text := by
  obtain ⟨⟨capitals, field⟩, -, h⟩ := bind_eq_ok.1 h
  -- a star and a quoted field are written by the same last step
  have hwritten : ∀ {function target : String}, IsPlain (function ++ "(") → IsPlain target →
      (do return function ++ "(" ++ target ++ ") AS " ++ (← Identifier.quote label)) = .ok text →
      IsPlain text := by
    intro function target hfunction htarget h
    obtain ⟨aliased, haliased, h⟩ := bind_eq_ok.1 h
    obtain rfl := pure_eq_ok.1 h
    have hquoted : IsPlain aliased := isPlain_of_isQuoted (Identifier.isQuoted_of_quote haliased).2
    exact ((hfunction.append htarget).append (by decide)).append hquoted
  have hfunctions : ∀ known ∈ aggregateFunctions, IsPlain (known ++ "(") := by decide
  simp only at h
  split at h
  · next known hknown =>
      obtain ⟨function, hfunction, h⟩ := bind_eq_ok.1 h
      obtain rfl := pure_eq_ok.1 hfunction
      have hmem : known ∈ aggregateFunctions := by
        simpa using (Option.filter_eq_some_iff.1 hknown).2
      split at h
      · exact hwritten (hfunctions known hmem) (show IsPlain "*" by decide) h
      · obtain ⟨_, -, h⟩ := bind_eq_ok.1 h
        obtain ⟨target, htarget, h⟩ := bind_eq_ok.1 h
        exact hwritten (hfunctions known hmem)
          (isPlain_of_isQuoted (Identifier.isQuoted_of_quote htarget).2) h
  · cases h

/-- The summary of rows shows the parameters of the condition in force. -/
theorem aggregate_agrees {aggregates : Value} {statement : Bound}
    (hraw : IsRawFree (model.effective .null))
    (h : model.aggregateStatement aggregates = .ok statement) :
    Agrees 0 [] statement.sql statement.parameters := by
  unfold aggregateStatement at h
  split at h
  · cases h
  · cases aggregates with
    | map entries =>
        obtain ⟨expressions, hexpressions, h⟩ := bind_eq_ok.1 h
        have hplain : ∀ text ∈ expressions, IsPlain text := by
          intro text htext
          obtain ⟨entry, -, haggregate⟩ := exists_of_mem_mapM hexpressions htext
          exact isPlain_aggregateText haggregate
        obtain ⟨parameters, builder, query, hruns, hbuild, rfl⟩ := bound_eq_ok.1 h
        obtain ⟨_, _, hselect, hruns⟩ := Runs.bind_iff.1 hruns
        obtain rfl := runs_selectRaw hselect
        obtain ⟨_, _, htable, hruns⟩ := Runs.bind_iff.1 hruns
        obtain ⟨hname, rfl⟩ := runs_setTable htable
        obtain ⟨_, _, hcondition, hruns⟩ := Runs.bind_iff.1 hruns
        obtain ⟨texts, values, rfl, hshows, rfl⟩ := runs_applyCondition_shows hraw rfl hcondition
        obtain ⟨_, _, hgrouping, hruns⟩ := Runs.bind_iff.1 hruns
        obtain ⟨hgroupingNames, rfl⟩ := runs_applyGrouping hgrouping
        obtain ⟨rfl, rfl⟩ := Runs.pure_iff.1 hruns
        refine agrees_of_isSelection (?_ : IsSelection _ texts) rfl hshows hbuild
        constructor
        case verb => rfl
        case table => exact fun table => isPlain_table hname
        case selected => exact ⟨_, rfl, hplain⟩
        case conditions => rfl
        case grouping => exact isPlain_of_mem_backquoted hgroupingNames
        case ordering => simp
        case endings => rfl
    | _ => cases h

end Selections

section Changes

/-- A deletion shows the parameters of its condition. -/
theorem delete_agrees {given : Value} {statement : Bound}
    (hraw : IsRawFree (model.effective given))
    (h : model.deleteStatement given = .ok statement) :
    Agrees 0 [] statement.sql statement.parameters := by
  obtain ⟨clause, hclause, -, hsql, hparameters, hname⟩ := delete_eq_ok h
  obtain ⟨values, hshows, hvalues⟩ := shows_compile hraw hclause
  have hhead : IsPlain (deletionHead (Identifier.backquoted model.name) ++ " WHERE ") :=
    ((show IsPlain "DELETE FROM " by decide).append (isPlain_backquoted hname)).append (by decide)
  rw [hsql, hparameters, hvalues]
  exact agrees_values ((Shows.plain hhead).append hshows)

/-- An update shows the parameters of its assignments, of the types of the assigned columns, and
behind them those of its condition. -/
theorem update_agrees {data given : Value} {statement : Bound}
    (hraw : IsRawFree (model.effective given))
    (h : model.updateStatement data given = .ok statement) :
    ∃ entries types, data = .map entries ∧
      (entries.mapM fun entry => model.wireType entry.1) = .ok (types.map .text) ∧
      Agrees 0 types statement.sql statement.parameters := by
  obtain ⟨entries, values, types, clause, hdata, hvalues, htypes, hclause, -, hsql, hparameters,
    hname, hnames⟩ := update_eq_ok h
  obtain ⟨bound, hshows, hbound⟩ := shows_compile hraw hclause
  have htypesLength : types.length = entries.length := by
    simpa using length_of_mapM htypes
  have hvaluesLength : values.length = entries.length := length_of_mapM hvalues
  have hhead : Shows (updateHead (Identifier.backquoted model.name)
      ((quotedNames (entries.map Prod.fst)).zip (slotsFrom 0 types))) (slotsFrom 0 types) := by
    refine shows_updateHead (isPlain_backquoted hname)
      (fun text htext => isPlain_of_mem_quotedNames hnames htext) ?_
    rw [length_slotsFrom, htypesLength, quotedNames, List.length_map, List.length_map]
  have hwhole : Shows statement.sql
      (slotsFrom 0 (types ++ bound.map Wire.placeholderType)) := by
    have hwritten := (hhead.append (Shows.plain (show IsPlain " WHERE " by decide))).append hshows
    rw [List.append_nil] at hwritten
    rw [hsql, slotsFrom_append, Int.zero_add, htypesLength]
    exact hwritten
  have hnumbered : statement.parameters = numbered 0 (values ++ bound) := by
    rw [hparameters, hbound, numbered_append, Int.zero_add, hvaluesLength]
  refine ⟨entries, types, hdata, htypes, ?_⟩
  rw [hnumbered]
  exact agrees_numbered (hvaluesLength.trans htypesLength.symm) hwhole

/-- The wire values of records are rows. -/
theorem mapM_rowOf {columns : List String} {records rows : List Value}
    (h : records.mapM (model.rowOf columns) = .ok rows) :
    ∃ lists : List (List Value), rows = lists.map .list := by
  have hlist : ∀ row ∈ rows, ∃ items, row = .list items := by
    intro row hrow
    obtain ⟨record, -, hrecord⟩ := exists_of_mem_mapM h hrow
    obtain ⟨entries, -, hrecord⟩ := bind_eq_ok.1 hrecord
    obtain ⟨values, -, hrecord⟩ := bind_eq_ok.1 hrecord
    exact ⟨values, (pure_eq_ok.1 hrecord).symm⟩
  clear h
  induction rows with
  | nil => exact ⟨[], rfl⟩
  | cons row rest ih =>
      obtain ⟨items, rfl⟩ := hlist row List.mem_cons_self
      obtain ⟨lists, rfl⟩ := ih fun other hother => hlist other (List.mem_cons_of_mem _ hother)
      exact ⟨items :: lists, rfl⟩

/-- Rows of one width have together as many values as the width, once for each row. -/
theorem length_flatten_of_width {lists : List (List Value)} {types : List String}
    (h : ∀ items ∈ lists, items.length = types.length) :
    lists.flatten.length = (List.replicate lists.length types).flatten.length := by
  induction lists with
  | nil => rfl
  | cons items rest ih =>
      have hrest := ih fun other hother => h other (List.mem_cons_of_mem items hother)
      have hitems := h items List.mem_cons_self
      simp only [List.length_cons, List.replicate_succ, List.flatten_cons, List.length_append,
        hitems, hrest]

/-- The columns that records are inserted into. -/
def insertedColumns (model : Model) (records : List Value) : List String :=
  match records.mapM mentionedKeys with
  | .ok mentions => model.presentColumns mentions
  | .error _ => []

/-- An insertion shows the parameters of its rows, row by row, of the types of the columns. -/
theorem insertRecords_agrees {records : List Value} {statement : Bound}
    (h : model.insertRecords records = .ok statement) :
    ∃ types, ((model.insertedColumns records).mapM fun name => model.wireType (.text name)) =
        .ok (types.map .text) ∧
      Agrees 0 (List.replicate records.length types).flatten statement.sql
        statement.parameters := by
  obtain ⟨mentions, hmentions, h⟩ := bind_eq_ok.1 h
  obtain ⟨_, -, h⟩ := bind_eq_ok.1 h
  obtain ⟨rows, hrows, h⟩ := bind_eq_ok.1 h
  obtain ⟨types, htypes, h⟩ := bind_eq_ok.1 h
  have hcolumns : model.insertedColumns records = model.presentColumns mentions := by
    rw [insertedColumns, hmentions]
  rw [hcolumns]
  -- nothing below depends on how the columns were chosen
  generalize model.presentColumns mentions = columns at htypes hrows h
  have hrecords := length_of_mapM hrows
  obtain ⟨lists, rfl⟩ := mapM_rowOf hrows
  obtain ⟨htypesEq, hwire⟩ := mapM_wireType htypes
  subst htypesEq
  let types := columns.map fun name => model.typeFor (.text name)
  have hnonempty : ∀ type ∈ types, type ≠ "" := by
    intro type htype
    obtain ⟨name, hname, rfl⟩ := List.mem_map.1 htype
    exact (wireType_eq_typeFor (hwire name hname)).2
  obtain ⟨parameters, builder, query, hruns, hbuild, rfl⟩ := bound_eq_ok.1 h
  obtain ⟨_, _, hinsert, hruns⟩ := Runs.bind_iff.1 hruns
  obtain ⟨hname, names, hnames, hnamesPlain, rfl⟩ := runs_insertInto_iff.1 hinsert
  obtain ⟨_, _, hvalues, hruns⟩ := Runs.bind_iff.1 hruns
  obtain ⟨rfl, rfl⟩ := Runs.pure_iff.1 hruns
  -- the builder refuses a row that is not as wide as its columns
  have hwidth : (quotedNames names).length = types.length := by
    cases hnames
    simp [quotedNames, types]
  obtain ⟨hlengths, -, rfl⟩ :=
    (runs_values_iff (next_eq_number (by rfl)) hnonempty hwidth).1 hvalues
  obtain ⟨hshows, hbound⟩ := shows_insertion (isPlain_backquoted hname)
    (fun text htext => isPlain_of_mem_quotedNames hnamesPlain htext) hbuild
  refine ⟨types, htypes, ?_⟩
  rw [List.length_map] at hrecords
  rw [List.nil_append, flatten_rowsFrom, hrecords] at hshows
  rw [hbound, List.nil_append, List.append_nil, ← List.append_nil lists.flatten]
  refine agrees_numbered ?_ ?_
  · rw [← hrecords]
    exact length_flatten_of_width hlengths
  · simpa using hshows

end Changes

/-- A statement that a model can be asked for. -/
inductive Request where
  | select
  | count
  | aggregate (aggregates : Value)
  | delete (given : Value)
  | update (data given : Value)
  | insert (records : Value)

namespace Request

/-- The statement that is asked for. -/
def compile (model : Model) : Request → Except Fault Bound
  | select => model.selectStatement
  | count => model.countStatement
  | aggregate aggregates => model.aggregateStatement aggregates
  | delete given => model.deleteStatement given
  | update data given => model.updateStatement data given
  | insert records => model.insertStatement records

/-- The condition of the statement; an insertion has none. -/
def condition (model : Model) : Request → Value
  | select | count | aggregate _ => model.effective .null
  | delete given | update _ given => model.effective given
  | insert _ => .null

/-- The names of the columns that the statement writes, one for each value that it writes. -/
def written (model : Model) : Request → List Value
  | update (.map entries) _ => entries.map Prod.fst
  | insert records =>
    match records.elements? with
    | some items =>
      (List.replicate items.length ((model.insertedColumns items).map .text)).flatten
    | none => []
  | _ => []

/-- Every statement shows its parameters, those of the written columns first. -/
theorem agrees {request : Request} {statement : Bound} (hraw : IsRawFree (request.condition model))
    (h : request.compile model = .ok statement) :
    ∃ types, ((request.written model).mapM model.wireType) = .ok (types.map .text) ∧
      Agrees 0 types statement.sql statement.parameters := by
  cases request with
  | select => exact ⟨[], rfl, select_agrees hraw h⟩
  | count => exact ⟨[], rfl, count_agrees hraw h⟩
  | aggregate aggregates => exact ⟨[], rfl, aggregate_agrees hraw h⟩
  | delete given => exact ⟨[], rfl, delete_agrees hraw h⟩
  | update data given =>
      obtain ⟨entries, types, rfl, htypes, hagrees⟩ := update_agrees hraw h
      exact ⟨types, by rw [written, List.mapM_map]; exact htypes, hagrees⟩
  | insert records =>
      replace h : model.insertStatement records = .ok statement := h
      unfold insertStatement at h
      split at h
      · cases h
      · split at h
        · next items helements =>
            obtain ⟨types, htypes, hagrees⟩ := insertRecords_agrees h
            have hnames : ((model.insertedColumns items).map .text).mapM model.wireType =
                .ok (types.map .text) := by
              rw [List.mapM_map]
              exact htypes
            have hall := mapM_replicate_eq_ok hnames items.length
            refine ⟨_, ?_, hagrees⟩
            simp only [written, helements, hall, List.map_flatten, List.map_replicate]
        · cases h

end Request

/-- Where no dimension is loose, no type of a written column has a closing brace. -/
theorem not_mem_wireType {names : List Value} {types : List String}
    (hloose : ∀ entry ∈ model.table.columns, entry.2.loose = [])
    (h : names.mapM model.wireType = .ok (types.map .text)) :
    ∀ type ∈ types, '\x7d' ∉ type.toList := by
  intro type htype
  obtain ⟨name, -, hname⟩ := exists_of_mem_mapM h (List.mem_map_of_mem htype)
  obtain ⟨column, text, hcolumn, htext, heq⟩ := wireType_eq_ok.1 hname
  cases heq
  obtain ⟨key, -, hmem⟩ := Table.mem_of_column? hcolumn
  exact Column.not_mem_placeholderType (hloose _ hmem) htext

/-- Every clause and every statement without raw SQL shows one placeholder for each of its
parameters, in their order and numbered without a gap. The values that a statement writes come
first and have the types of their columns; the values of conditions have the types inferred for
them. -/
theorem placeholders_agree_with_parameters :
    (∀ (condition : Value) (index : Int) (clause : Clause), IsRawFree condition →
      Condition.compile condition (.number index) = .ok clause →
      Agrees index [] clause.sql clause.parameters ∧
        placeholders clause.sql = slotsOf index [] clause.parameters ∧
        (clause.parameters.map Prod.fst).Nodup) ∧
    ∀ (model : Model) (request : Request) (statement : Bound),
      IsRawFree (request.condition model) → request.compile model = .ok statement →
      ∃ types, (request.written model).mapM model.wireType = .ok (types.map .text) ∧
        Agrees 0 types statement.sql statement.parameters ∧
        ((∀ entry ∈ model.table.columns, entry.2.loose = []) →
          placeholders statement.sql = slotsOf 0 types statement.parameters) ∧
        (statement.parameters.map Prod.fst).Nodup := by
  constructor
  · intro condition index clause hraw h
    have hagrees := agrees_compile hraw h
    exact ⟨hagrees, hagrees.placeholders_eq (by simp), hagrees.nodup_names⟩
  · intro model request statement hraw h
    obtain ⟨types, htypes, hagrees⟩ := Request.agrees hraw h
    exact ⟨types, htypes, hagrees,
      fun hloose => hagrees.placeholders_eq (not_mem_wireType hloose htypes),
      hagrees.nodup_names⟩

/-- A condition with empty parts behind two assignments and by itself from another number, and an
insertion of two records that mention different columns. -/
theorem accounts_placeholders_agree :
    let given : Value := .map [(.text "or", .list [
      .map [(.text "id", .map [(.text "in", .list [.int 1, .int 2])])], .map [],
      .negation (.map [(.text "name", .null),
        (.text "id", .map [(.text "between", .list [.int 3, .int 4])])])])]
    let update : Request := .update (.map [(.text "name", .text "x"), (.text "id", .int 7)]) given
    let insert : Request := .insert (.list [.map [(.text "id", .int 1)],
      .map [(.text "name", .text "b"), (.text "id", .int 2)]])
    (IsRawFree given ∧ ∃ clause, Condition.compile given (.number 3) = .ok clause ∧
      Agrees 3 [] clause.sql clause.parameters ∧
      placeholders clause.sql = slotsOf 3 [] clause.parameters ∧
      (clause.parameters.map Prod.fst).Nodup) ∧
    ∀ request ∈ [update, insert], IsRawFree (request.condition accounts) ∧
      (∀ entry ∈ accounts.table.columns, entry.2.loose = []) ∧
      ∃ statement types, request.compile accounts = .ok statement ∧
        (request.written accounts).mapM accounts.wireType = .ok (types.map .text) ∧
        Agrees 0 types statement.sql statement.parameters ∧
        placeholders statement.sql = slotsOf 0 types statement.parameters ∧
        (statement.parameters.map Prod.fst).Nodup := by
  intro given update insert
  have hraw : IsRawFree given := by simp [given, IsRawFree, EveryRaw, EachRaw, EntriesRaw]
  have hloose : ∀ entry ∈ accounts.table.columns, entry.2.loose = [] := by decide +kernel
  have hclause : ((Condition.compile given (.number 3)).map fun clause =>
      clause.parameters.map Prod.fst).toOption =
        some ["param3", "param4", "param5", "param6"] := by
    decide +kernel
  have hupdate : ((update.compile accounts).map Bound.sql).toOption =
      some ("UPDATE \x60accounts\x60 SET \x60name\x60 = \x7bparam0:Nullable(String)\x7d, " ++
        "\x60id\x60 = \x7bparam1:Int32\x7d WHERE " ++
        "(\x60id\x60 IN (\x7bparam2:Int32\x7d, \x7bparam3:Int32\x7d) OR " ++
        "NOT (\x60name\x60 IS NULL AND " ++
        "\x60id\x60 BETWEEN \x7bparam4:Int32\x7d AND \x7bparam5:Int32\x7d))") := by
    decide +kernel
  have hinsert : ((insert.compile accounts).map Bound.sql).toOption =
      some ("INSERT INTO \x60accounts\x60 (\x60id\x60, \x60name\x60) VALUES " ++
        "(\x7bparam0:Int32\x7d, \x7bparam1:Nullable(String)\x7d), " ++
        "(\x7bparam2:Int32\x7d, \x7bparam3:Nullable(String)\x7d)") := by
    decide +kernel
  obtain ⟨clause, hclause, -⟩ := toOption_map_eq_some.1 hclause
  refine ⟨⟨hraw, clause, hclause,
    placeholders_agree_with_parameters.1 given 3 clause hraw hclause⟩, fun request hrequest => ?_⟩
  have hcompiled : IsRawFree (request.condition accounts) ∧
      ∃ statement, request.compile accounts = .ok statement := by
    simp only [List.mem_cons, List.not_mem_nil, or_false] at hrequest
    rcases hrequest with rfl | rfl
    · obtain ⟨statement, hstatement, -⟩ := toOption_map_eq_some.1 hupdate
      exact ⟨hraw, statement, hstatement⟩
    · obtain ⟨statement, hstatement, -⟩ := toOption_map_eq_some.1 hinsert
      exact ⟨trivial, statement, hstatement⟩
  obtain ⟨hrequestRaw, statement, hstatement⟩ := hcompiled
  obtain ⟨types, htypes, hagrees, hread, hnames⟩ :=
    placeholders_agree_with_parameters.2 accounts request statement hrequestRaw hstatement
  exact ⟨hrequestRaw, hloose, statement, types, hstatement, htypes, hagrees, hread hloose, hnames⟩

/-- Events at times with a precision that closes its placeholder and opens another one. -/
def events : Model where
  table :=
    { name := "events"
      columns := [("at", { kind := .dateTime64
                           loose := [(.precision, .text "3)\x7d\x7bparam9:String")] })] }

/-- The table of events is accepted, for the precision is what a member of an enumeration holds. An
insertion shows a placeholder that no parameter belongs to. -/
theorem text_precision_shows_placeholder :
    let precision : Value := .member "A" (.text "3)\x7d\x7bparam9:String")
    let definition : Value := .map [(.text "at",
      .map [(.text "type", .text "DateTime64"), (.text "precision", precision)])]
    Table.ofDefinition (.text "events") definition = .ok events.table ∧
      ∃ statement,
        events.insertStatement (.list [.map [(.text "at", .text "2024-01-02 03:04:05")]]) =
          .ok statement ∧
        (placeholders statement.sql).map Slot.name = ["param0", "param9"] ∧
        statement.parameters.map Prod.fst = ["param0"] := by
  intro precision definition
  have hdefined : Table.ofDefinition (.text "events") definition = .ok events.table := by rfl
  have hinsert :
      ((events.insertStatement (.list [.map [(.text "at", .text "2024-01-02 03:04:05")]])).map
        fun statement => (statement.sql, statement.parameters.map Prod.fst)).toOption =
      some ("INSERT INTO \x60events\x60 (\x60at\x60) VALUES " ++
        "(\x7bparam0:DateTime64(3)\x7d\x7bparam9:String)\x7d)", ["param0"]) := by
    decide +kernel
  obtain ⟨statement, hstatement, hshown⟩ := toOption_map_eq_some.1 hinsert
  obtain ⟨hsql, hparameters⟩ := Prod.mk.inj hshown
  refine ⟨hdefined, statement, hstatement, ?_, hparameters⟩
  rw [hsql]
  decide +kernel

end Model

end TypedSql
