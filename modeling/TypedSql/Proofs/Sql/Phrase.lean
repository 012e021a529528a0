import TypedSql.Proofs.Identifier
import TypedSql.Proofs.Sql.Formula

/-!
# Phrases of conditions

The texts that a database reads as phrases of a condition. `Expresses parameters level text value`
says that a text is a phrase of a level with a truth; there is one lemma for every form of phrase
and `Expresses.ofText?` for the text as a whole.
-/

namespace TypedSql.Sql

open TypedSql.Condition TypedSql.Identifier

/-- `Expresses parameters level text value` says that `text` is a phrase of a level and that
`value` is its truth. -/
def Expresses (parameters : Parameters) (level : Level) (text : String)
    (value : (Test → Bool) → Bool) : Prop :=
  ∃ tokens, Scans text tokens ∧ Denotes parameters level tokens value

/-- `Supplies parameters slot value` says that `slot` is the text of a placeholder to which the
parameters give a value. -/
def Supplies (parameters : Parameters) (slot : String) (value : Value) : Prop :=
  ∃ name type, Scans slot [.slot name type] ∧ parameters.lookup name = some value

/-- A placeholder whose name and type hold no mark of a placeholder is supplied by a parameter. -/
theorem Supplies.placeholderOf {parameters : Parameters} {name type : String} {value : Value}
    (hcolon : ':' ∉ name.toList) (hclosing : '\x7d' ∉ name.toList) (htype : '\x7d' ∉ type.toList)
    (hvalue : parameters.lookup name = some value) :
    Supplies parameters (placeholderOf name type) value :=
  ⟨name, type, Scans.slot hcolon hclosing htype, hvalue⟩

/-- `Members parameters text values` says that `text` is a list of placeholders to which the
parameters give values. -/
def Members (parameters : Parameters) (text : String) (values : List Value) : Prop :=
  ∃ tokens, Scans text tokens ∧
    ∀ rest, readMembers parameters (tokens ++ .closing :: rest) = some (values, rest)

namespace Members

variable {parameters : Parameters} {slot text : String} {value : Value} {values : List Value}

theorem single (h : Supplies parameters slot value) : Members parameters slot [value] := by
  obtain ⟨name, type, hscans, hvalue⟩ := h
  exact ⟨_, hscans, fun rest => by simp [readMembers, hvalue]⟩

theorem cons (h : Supplies parameters slot value) (hrest : Members parameters text values) :
    Members parameters (slot ++ ", " ++ text) (value :: values) := by
  obtain ⟨name, type, hscans, hvalue⟩ := h
  obtain ⟨tokens, hothers, hread⟩ := hrest
  exact ⟨_, hscans.separated hothers, fun rest => by simp [readMembers, hvalue, hread]⟩

end Members

/-- A quoted name is read as one. -/
theorem scans_isQuoted {column : String} (h : IsQuoted column) : Scans column [.name column] := by
  obtain ⟨name, rfl, hname⟩ := h
  refine Scans.name fun hbacktick => ?_
  have hshown := hname _ hbacktick
  cases hshown

/-- Every text that compares a column with a value. -/
def comparisons : List String := comparisonSymbols ++ ["LIKE", "NOT LIKE", "ILIKE"]

/-- The text of a comparison is read as the comparison of a column with the placeholder behind. -/
theorem readTest_comparison {comparison : String} (h : comparison ∈ comparisons) :
    ∃ words, Scans comparison words ∧
      ∀ parameters column name type rest,
        readTest parameters column (words ++ .slot name type :: rest) =
          readComparison parameters column comparison name rest := by
  simp only [comparisons, List.mem_append, List.mem_cons, List.not_mem_nil, or_false] at h
  rcases h with h | rfl | rfl | rfl
  · exact ⟨_, Scans.comparison h, fun _ _ _ _ _ => rfl⟩
  · exact ⟨_, Scans.keyword .like, fun _ _ _ _ _ => rfl⟩
  · exact ⟨_, (Scans.keyword .not).blank (Scans.keyword .like), fun _ _ _ _ _ => rfl⟩
  · exact ⟨_, Scans.keyword .ilike, fun _ _ _ _ _ => rfl⟩

namespace Expresses

variable {parameters : Parameters} {text other column : String}
variable {value second : (Test → Bool) → Bool}

/-- A phrase that is a member of a chain is a chain. -/
theorem single {joiner : Joiner} (h : Expresses parameters (memberLevel joiner) text value) :
    Expresses parameters (.chain joiner) text value := by
  obtain ⟨tokens, hscans, hdenotes⟩ := h
  exact ⟨tokens, hscans, hdenotes.single⟩

/-- An operand is a conjunction. -/
theorem toConjunction (h : Expresses parameters .operand text value) :
    Expresses parameters (.chain .and) text value :=
  Expresses.single h

/-- A conjunction is a chain of either joiner. -/
theorem ofConjunction (joiner : Joiner) (h : Expresses parameters (.chain .and) text value) :
    Expresses parameters (.chain joiner) text value := by
  cases joiner with
  | and => exact h
  | or => exact Expresses.single h

/-- A chain of either joiner is a disjunction. -/
theorem toDisjunction {joiner : Joiner} (h : Expresses parameters (.chain joiner) text value) :
    Expresses parameters (.chain .or) text value := by
  cases joiner with
  | and => exact h.ofConjunction .or
  | or => exact h

/-- Two chains with their joiner between them are a chain. -/
theorem joined {joiner : Joiner} (htext : Expresses parameters (.chain joiner) text value)
    (hother : Expresses parameters (.chain joiner) other second) :
    Expresses parameters (.chain joiner) (text ++ joiner.separator ++ other)
      fun truth => joinTruth joiner (value truth) (second truth) := by
  obtain ⟨tokens, hscans, hdenotes⟩ := htext
  obtain ⟨others, hothers, hsecond⟩ := hother
  have hseparator : joiner.separator = " " ++ (joinerWord joiner).text ++ " " := by
    cases joiner <;> rfl
  have hwhole := hscans.blank ((Scans.keyword (joinerWord joiner)).blank hothers)
  refine ⟨_, ?_, hdenotes.joined hsecond⟩
  simpa only [hseparator, String.append_assoc, List.singleton_append] using hwhole

/-- A condition in parentheses is an operand. -/
theorem group (h : Expresses parameters (.chain .or) text value) :
    Expresses parameters .operand ("(" ++ text ++ ")") value := by
  obtain ⟨tokens, hscans, hdenotes⟩ := h
  exact ⟨_, hscans.opened.closed, hdenotes.group⟩

/-- The negation of a condition in parentheses is an operand. -/
theorem negation (h : Expresses parameters (.chain .or) text value) :
    Expresses parameters .operand ("NOT (" ++ text ++ ")") fun truth => !value truth := by
  obtain ⟨tokens, hscans, hdenotes⟩ := h.group
  have hwhole := (Scans.keyword .not).blank hscans
  refine ⟨_, ?_, hdenotes.negation⟩
  rw [show "NOT (" = Keyword.not.text ++ " " ++ "(" from rfl]
  simpa only [String.append_assoc, List.singleton_append] using hwhole

/-- The two constant conditions are operands. -/
theorem constant (truth : Bool) :
    Expresses parameters .operand (if truth then alwaysTrue else alwaysFalse) fun _ => truth := by
  refine ⟨[.number 1, .comparison "=", .number truth.toNat], ?_, ?_⟩
  · intro read
    -- no blank parts these tokens: each begins with a character of another run
    have hparts : Scan.through { read } (if truth then alwaysTrue else alwaysFalse) =
        some { read := read ++ [.number 1] ++ [.comparison "="] ++ [.number truth.toNat] } := by
      cases truth <;> rfl
    simpa using hparts
  · have hread : ∀ rest, readPrimary parameters
        ([.number 1, .comparison "=", .number truth.toNat] ++ rest) =
          some (.constant truth, rest) := by
      intro rest
      cases truth <;> rfl
    exact Denotes.primary hread

/-- A column with a test behind it is an operand. -/
theorem test {behind : String} {words : List Token} {test : Test} (hcolumn : IsQuoted column)
    (hbehind : Scans behind words)
    (hread : ∀ rest, readTest parameters column (words ++ rest) = some (.test test, rest)) :
    Expresses parameters .operand (column ++ " " ++ behind) fun truth => truth test := by
  have hprimary : ∀ rest, readPrimary parameters (.name column :: words ++ rest) =
      some (.test test, rest) := hread
  exact ⟨_, (scans_isQuoted hcolumn).blank hbehind, Denotes.primary hprimary⟩

/-- A test for null is an operand. -/
theorem isNull (hcolumn : IsQuoted column) (negated : Bool) :
    Expresses parameters .operand (column ++ " " ++ nullKeyword negated)
      fun truth => truth (.isNull column negated) := by
  cases negated with
  | false => exact test hcolumn ((Scans.keyword .is).blank (Scans.keyword .null)) fun _ => rfl
  | true =>
      exact test hcolumn
        ((Scans.keyword .is).blank ((Scans.keyword .not).blank (Scans.keyword .null))) fun _ => rfl

/-- A comparison with a placeholder is an operand. -/
theorem compare {comparison slot : String} {operand : Value} (hcolumn : IsQuoted column)
    (hcomparison : comparison ∈ comparisons) (hslot : Supplies parameters slot operand) :
    Expresses parameters .operand (column ++ " " ++ comparison ++ " " ++ slot)
      fun truth => truth (.compare column comparison operand) := by
  obtain ⟨words, hwords, hread⟩ := readTest_comparison hcomparison
  obtain ⟨name, type, hscans, hvalue⟩ := hslot
  have hbehind : ∀ rest, readTest parameters column (words ++ [.slot name type] ++ rest) =
      some (.test (.compare column comparison operand), rest) := by
    intro rest
    rw [List.append_assoc]
    simp [hread, readComparison, hvalue]
  simpa only [String.append_assoc] using test hcolumn (hwords.blank hscans) hbehind

/-- A test for a place between two placeholders is an operand. -/
theorem between {first last : String} {low high : Value} (hcolumn : IsQuoted column)
    (hfirst : Supplies parameters first low) (hlast : Supplies parameters last high) :
    Expresses parameters .operand (column ++ " BETWEEN " ++ first ++ " AND " ++ last)
      fun truth => truth (.between column low high) := by
  obtain ⟨name, type, hscans, hlow⟩ := hfirst
  obtain ⟨other, otherType, hothers, hhigh⟩ := hlast
  have hbehind : ∀ rest, readTest parameters column
      ([.keyword .between] ++ ([.slot name type] ++ ([.keyword .and] ++ [.slot other otherType])) ++
        rest) = some (.test (.between column low high), rest) := by
    intro rest
    simp [readTest, hlow, hhigh]
  have h := test hcolumn
    ((Scans.keyword .between).blank (hscans.blank ((Scans.keyword .and).blank hothers))) hbehind
  rw [show " BETWEEN " = " " ++ Keyword.between.text ++ " " from rfl,
    show " AND " = " " ++ Keyword.and.text ++ " " from rfl]
  simpa only [String.append_assoc] using h

/-- A membership test is an operand. -/
theorem within {members : String} {values : List Value} (hcolumn : IsQuoted column)
    (negated : Bool) (hmembers : Members parameters members values) :
    Expresses parameters .operand (column ++ " " ++ withinKeyword negated ++ " (" ++ members ++ ")")
      fun truth => truth (.within column negated values) := by
  obtain ⟨tokens, hscans, hread⟩ := hmembers
  have hmembers : Scans ("(" ++ members ++ ")") (.opening :: tokens ++ [.closing]) :=
    hscans.opened.closed
  have htext : column ++ " " ++ withinKeyword negated ++ " (" ++ members ++ ")" =
      column ++ " " ++ (withinKeyword negated ++ " " ++ ("(" ++ members ++ ")")) := by
    rw [show " (" = " " ++ "(" from rfl]
    simp only [String.append_assoc]
  rw [htext]
  cases negated with
  | false =>
      refine test hcolumn ((Scans.keyword .isIn).blank hmembers) fun rest => ?_
      simp [readTest, readWithin, hread]
  | true =>
      -- the negated keyword is two tokens
      have hwords : Scans "NOT IN" [.keyword .not, .keyword .isIn] :=
        (Scans.keyword .not).blank (Scans.keyword .isIn)
      refine test hcolumn (hwords.blank hmembers) fun rest => ?_
      simp [readTest, readWithin, hread]

/-- A text that is a condition is read as one, with its truth. -/
theorem ofText? (h : Expresses parameters (.chain .or) text value) :
    ∃ formula, Formula.ofText? parameters text = some formula ∧
      ∀ truth, formula.holds truth = value truth := by
  obtain ⟨tokens, hscans, hdenotes⟩ := h
  obtain ⟨formula, hformula, hvalue⟩ := hdenotes.ofTokens?
  exact ⟨formula, by simp [Formula.ofText?, hscans.tokens_eq, hformula], hvalue⟩

end Expresses

end TypedSql.Sql
