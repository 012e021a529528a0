import TypedSql.Condition.Predicate
import TypedSql.Proofs.Sql.Token

/-!
# Formulas

How a database reads the tokens of a condition: a negation binds more tightly than a conjunction
and a conjunction more tightly than a disjunction, the `AND` behind a `BETWEEN` belongs to it, and
parentheses group. `Formula.ofText?` reads a text with its parameters. `Denotes` is the grammar that
the reader follows, with the truth of every phrase; `Denotes.ofTokens?` says that the reader gives
each phrase that truth.
-/

namespace TypedSql.Sql

open TypedSql.Condition (Joiner)

/-- A test of a column. -/
inductive Test where
  | isNull (column : String) (negated : Bool)
  | compare (column comparison : String) (value : Value)
  | within (column : String) (negated : Bool) (members : List Value)
  | between (column : String) (low high : Value)

/-- A condition as a database reads it. -/
inductive Formula where
  | constant (truth : Bool)
  | test (test : Test)
  | negation (inner : Formula)
  | joined (joiner : Joiner) (left right : Formula)

/-- Two truths joined. -/
def joinTruth : Joiner → Bool → Bool → Bool
  | .and, left, right => left && right
  | .or, left, right => left || right

theorem joinTruth_assoc (joiner : Joiner) (first second third : Bool) :
    joinTruth joiner (joinTruth joiner first second) third =
      joinTruth joiner first (joinTruth joiner second third) := by
  cases joiner
  · exact Bool.and_assoc first second third
  · exact Bool.or_assoc first second third

/-- The truth of a formula under an assignment of truths to tests. -/
def Formula.holds (truth : Test → Bool) : Formula → Bool
  | constant known => known
  | test known => truth known
  | negation inner => !inner.holds truth
  | joined joiner left right => joinTruth joiner (left.holds truth) (right.holds truth)

/-- The keyword of a joiner. -/
def joinerWord : Joiner → Keyword
  | .and => .and
  | .or => .or

/-- What is read at a time: an operand, or operands with a joiner between them. -/
inductive Level where
  | operand
  | chain (joiner : Joiner)

/-- What a joiner joins: conjunctions join operands and disjunctions join conjunctions. -/
def memberLevel : Joiner → Level
  | .and => .operand
  | .or => .chain .and

/-- The parameters of a text, by name. -/
abbrev Parameters := List (String × Value)

/-- The values of a list of placeholders up to the closing parenthesis, and the rest. -/
def readMembers (parameters : Parameters) : List Token → Option (List Value × List Token)
  | .slot name _ :: .closing :: rest => do
    let value ← parameters.lookup name
    return ([value], rest)
  | .slot name _ :: .comma :: rest => do
    let value ← parameters.lookup name
    let (values, rest) ← readMembers parameters rest
    return (value :: values, rest)
  | _ => none

/-- A comparison of a column with the value of a placeholder, and the rest. -/
def readComparison (parameters : Parameters) (column comparison name : String)
    (rest : List Token) : Option (Formula × List Token) :=
  (parameters.lookup name).map fun value => (.test (.compare column comparison value), rest)

/-- A membership test behind its opening parenthesis, and the rest. -/
def readWithin (parameters : Parameters) (column : String) (negated : Bool)
    (rest : List Token) : Option (Formula × List Token) :=
  (readMembers parameters rest).map fun (values, rest) =>
    (.test (.within column negated values), rest)

/-- A test of a column, from the token behind its name on, and the rest. -/
def readTest (parameters : Parameters) (column : String) :
    List Token → Option (Formula × List Token)
  | .keyword .is :: .keyword .null :: rest => some (.test (.isNull column false), rest)
  | .keyword .is :: .keyword .not :: .keyword .null :: rest =>
    some (.test (.isNull column true), rest)
  | .comparison symbol :: .slot name _ :: rest => readComparison parameters column symbol name rest
  | .keyword .like :: .slot name _ :: rest => readComparison parameters column "LIKE" name rest
  | .keyword .ilike :: .slot name _ :: rest => readComparison parameters column "ILIKE" name rest
  | .keyword .not :: .keyword .like :: .slot name _ :: rest =>
    readComparison parameters column "NOT LIKE" name rest
  | .keyword .isIn :: .opening :: rest => readWithin parameters column false rest
  | .keyword .not :: .keyword .isIn :: .opening :: rest => readWithin parameters column true rest
  | .keyword .between :: .slot low _ :: .keyword .and :: .slot high _ :: rest => do
    let low ← parameters.lookup low
    let high ← parameters.lookup high
    return (.test (.between column low high), rest)
  | _ => none

/-- An operand without parentheses around it, and the rest. -/
def readPrimary (parameters : Parameters) : List Token → Option (Formula × List Token)
  | .number left :: .comparison "=" :: .number right :: rest =>
    some (.constant (left = right), rest)
  | .name column :: rest => readTest parameters column rest
  | _ => none

/-- Reads as much as belongs to a level, with fuel. -/
def readLevel (parameters : Parameters) : Nat → Level → List Token → Option (Formula × List Token)
  | 0, _, _ => none
  | fuel + 1, .chain joiner, tokens => do
    let (left, rest) ← readLevel parameters fuel (memberLevel joiner) tokens
    match rest with
    | .keyword word :: more =>
      if word = joinerWord joiner then
        let (right, rest) ← readLevel parameters fuel (.chain joiner) more
        return (.joined joiner left right, rest)
      else return (left, rest)
    | _ => return (left, rest)
  | fuel + 1, .operand, .keyword .not :: rest => do
    let (inner, rest) ← readLevel parameters fuel .operand rest
    return (.negation inner, rest)
  | fuel + 1, .operand, .opening :: rest => do
    let (inner, rest) ← readLevel parameters fuel (.chain .or) rest
    match rest with
    | .closing :: rest => return (inner, rest)
    | _ => none
  | _ + 1, .operand, tokens => readPrimary parameters tokens

/-- How many levels there are below a level, itself included. -/
def Level.rank : Level → Nat
  | operand => 1
  | chain .and => 2
  | chain .or => 3

/-- Fuel enough to read tokens at a level. -/
def fuelFor (level : Level) (tokens : List Token) : Nat := 3 * tokens.length + level.rank

/-- The formula that tokens are, all of them. -/
def Formula.ofTokens? (parameters : Parameters) (tokens : List Token) : Option Formula :=
  match readLevel parameters (fuelFor (.chain .or) tokens) (.chain .or) tokens with
  | some (formula, []) => some formula
  | _ => none

/-- The formula that a text with its parameters is. -/
def Formula.ofText? (parameters : Parameters) (text : String) : Option Formula :=
  (tokens text).bind (ofTokens? parameters)

/-- `Reads parameters level tokens formula rest` says that the reader takes `formula` off `tokens`
at `level` and leaves `rest`, with all fuel that is enough for the tokens. -/
def Reads (parameters : Parameters) (level : Level) (tokens : List Token) (formula : Formula)
    (rest : List Token) : Prop :=
  ∀ fuel, fuelFor level tokens ≤ fuel →
    readLevel parameters fuel level tokens = some (formula, rest)

namespace Reads

variable {parameters : Parameters} {tokens rest more : List Token} {formula other : Formula}

/-- A negation is read as that of the operand behind it. -/
theorem negation (h : Reads parameters .operand tokens formula rest) :
    Reads parameters .operand (.keyword .not :: tokens) (.negation formula) rest := by
  intro fuel hfuel
  simp only [fuelFor, List.length_cons] at hfuel
  -- the token that is taken here pays for three steps, of which one is used up
  obtain ⟨fuel, rfl⟩ : ∃ less, fuel = less + 1 := ⟨fuel - 1, by omega⟩
  have hinner := h fuel (by simp only [fuelFor]; omega)
  simp [readLevel, hinner]

/-- Parentheses are read as the formula between them. -/
theorem group (h : Reads parameters (.chain .or) tokens formula (.closing :: rest)) :
    Reads parameters .operand (.opening :: tokens) formula rest := by
  intro fuel hfuel
  simp only [fuelFor, List.length_cons, Level.rank] at hfuel
  obtain ⟨fuel, rfl⟩ : ∃ less, fuel = less + 1 := ⟨fuel - 1, by omega⟩
  have hinner := h fuel (by simp only [fuelFor, Level.rank]; omega)
  simp [readLevel, hinner]

/-- Fuel for a chain is one more than fuel for its members. -/
theorem fuelFor_memberLevel (joiner : Joiner) (tokens : List Token) :
    fuelFor (.chain joiner) tokens = fuelFor (memberLevel joiner) tokens + 1 := by
  cases joiner <;> rfl

/-- A member with no joiner behind it is a chain by itself. -/
theorem single {joiner : Joiner} (h : Reads parameters (memberLevel joiner) tokens formula rest)
    (hrest : rest.head? ≠ some (.keyword (joinerWord joiner))) :
    Reads parameters (.chain joiner) tokens formula rest := by
  intro fuel hfuel
  rw [fuelFor_memberLevel] at hfuel
  obtain ⟨fuel, rfl⟩ : ∃ less, fuel = less + 1 := ⟨fuel - 1, by omega⟩
  have hmember := h fuel (by omega)
  simp only [readLevel, hmember, Option.bind_eq_bind, Option.bind_some]
  split
  · next word more =>
      have hword : word ≠ joinerWord joiner := by simpa using hrest
      simp [hword]
  · rfl

/-- A member with a joiner behind it is joined with the chain that follows. -/
theorem joined {joiner : Joiner}
    (h : Reads parameters (memberLevel joiner) tokens formula
      (.keyword (joinerWord joiner) :: more))
    (hmore : Reads parameters (.chain joiner) more other rest)
    (hlength : more.length < tokens.length) :
    Reads parameters (.chain joiner) tokens (.joined joiner formula other) rest := by
  intro fuel hfuel
  have hfollowing : fuelFor (.chain joiner) more + 3 ≤ fuelFor (.chain joiner) tokens := by
    simp only [fuelFor]
    omega
  rw [fuelFor_memberLevel joiner tokens] at hfuel hfollowing
  obtain ⟨fuel, rfl⟩ : ∃ less, fuel = less + 1 := ⟨fuel - 1, by omega⟩
  simp [readLevel, h fuel (by omega), hmore fuel (by omega)]

/-- An operand that is no negation and no group is read as such. -/
theorem primary (h : readPrimary parameters tokens = some (formula, rest)) :
    Reads parameters .operand tokens formula rest := by
  intro fuel hfuel
  simp only [fuelFor, Level.rank] at hfuel
  obtain ⟨fuel, rfl⟩ : ∃ less, fuel = less + 1 := ⟨fuel - 1, by omega⟩
  unfold readPrimary at h
  split at h
  · simpa [readLevel, readPrimary] using h
  · simpa [readLevel, readPrimary] using h
  · cases h

end Reads

/-- `Denotes parameters level tokens value` says that `tokens` are a phrase of a level and that
`value` is its truth under each assignment of truths to tests. -/
inductive Denotes (parameters : Parameters) : Level → List Token → ((Test → Bool) → Bool) → Prop
  | primary {tokens : List Token} {formula : Formula}
      (h : ∀ rest, readPrimary parameters (tokens ++ rest) = some (formula, rest)) :
      Denotes parameters .operand tokens formula.holds
  | negation {tokens : List Token} {value : (Test → Bool) → Bool}
      (h : Denotes parameters .operand tokens value) :
      Denotes parameters .operand (.keyword .not :: tokens) fun truth => !value truth
  | group {tokens : List Token} {value : (Test → Bool) → Bool}
      (h : Denotes parameters (.chain .or) tokens value) :
      Denotes parameters .operand (.opening :: tokens ++ [.closing]) value
  | single {joiner : Joiner} {tokens : List Token} {value : (Test → Bool) → Bool}
      (h : Denotes parameters (memberLevel joiner) tokens value) :
      Denotes parameters (.chain joiner) tokens value
  | joined {joiner : Joiner} {left right : List Token} {first second : (Test → Bool) → Bool}
      (hleft : Denotes parameters (.chain joiner) left first)
      (hright : Denotes parameters (.chain joiner) right second) :
      Denotes parameters (.chain joiner) (left ++ .keyword (joinerWord joiner) :: right)
        fun truth => joinTruth joiner (first truth) (second truth)

/-- Whether tokens can follow a phrase of a level without belonging to it. -/
def Level.endsAt : Level → List Token → Prop
  | operand, _ => True
  | chain .and, rest => rest.head? ≠ some (.keyword .and)
  | chain .or, rest => rest.head? ≠ some (.keyword .and) ∧ rest.head? ≠ some (.keyword .or)

/-- What ends a chain is not its own joiner. -/
theorem Level.endsAt_chain {joiner : Joiner} {rest : List Token}
    (h : (Level.chain joiner).endsAt rest) :
    rest.head? ≠ some (.keyword (joinerWord joiner)) := by
  cases joiner with
  | and => exact h
  | or => exact h.2

/-- What ends a chain ends its last member too. -/
theorem Level.endsAt_member {joiner : Joiner} {rest : List Token}
    (h : (Level.chain joiner).endsAt rest) : (memberLevel joiner).endsAt rest := by
  cases joiner with
  | and => trivial
  | or => exact h.1

/-- A joiner ends the member in front of it. -/
theorem Level.endsAt_joiner (joiner : Joiner) (more : List Token) :
    (memberLevel joiner).endsAt (.keyword (joinerWord joiner) :: more) := by
  cases joiner <;> simp [memberLevel, endsAt, joinerWord]

/-- Tokens that the reader takes as one phrase of a level, with a truth. -/
def ReadsAs (parameters : Parameters) (level : Level) (tokens : List Token)
    (value : (Test → Bool) → Bool) : Prop :=
  ∀ rest, level.endsAt rest → ∃ formula, Reads parameters level (tokens ++ rest) formula rest ∧
    ∀ truth, formula.holds truth = value truth

/-- Tokens that the reader joins with a chain behind them. -/
def ReadsOnto (parameters : Parameters) (joiner : Joiner) (tokens : List Token)
    (value : (Test → Bool) → Bool) : Prop :=
  ∀ more other rest, Reads parameters (.chain joiner) more other rest →
    ∃ formula,
      Reads parameters (.chain joiner) (tokens ++ .keyword (joinerWord joiner) :: more) formula
        rest ∧
      ∀ truth, formula.holds truth = joinTruth joiner (value truth) (other.holds truth)

section Completeness

variable {parameters : Parameters} {joiner : Joiner} {tokens left right : List Token}
variable {value first second : (Test → Bool) → Bool}

theorem ReadsAs.single (h : ReadsAs parameters (memberLevel joiner) tokens value) :
    ReadsAs parameters (.chain joiner) tokens value := by
  intro rest hrest
  obtain ⟨formula, hformula, hvalue⟩ := h rest (Level.endsAt_member hrest)
  exact ⟨formula, hformula.single (Level.endsAt_chain hrest), hvalue⟩

theorem ReadsAs.onto (h : ReadsAs parameters (memberLevel joiner) tokens value) :
    ReadsOnto parameters joiner tokens value := by
  intro more other rest hmore
  obtain ⟨formula, hformula, hvalue⟩ :=
    h (.keyword (joinerWord joiner) :: more) (Level.endsAt_joiner joiner more)
  -- the rest behind the joiner is shorter, which is what the fuel of the chain asks for
  refine ⟨.joined joiner formula other, hformula.joined hmore ?_, ?_⟩
  · simp only [List.length_append, List.length_cons]
    omega
  · intro truth
    simp [Formula.holds, hvalue truth]

theorem ReadsOnto.joined (hleft : ReadsOnto parameters joiner left first)
    (hright : ReadsAs parameters (.chain joiner) right second) :
    ReadsAs parameters (.chain joiner) (left ++ .keyword (joinerWord joiner) :: right)
      fun truth => joinTruth joiner (first truth) (second truth) := by
  intro rest hrest
  obtain ⟨other, hother, hsecond⟩ := hright rest hrest
  obtain ⟨formula, hformula, hfirst⟩ := hleft (right ++ rest) other rest hother
  refine ⟨formula, by simpa using hformula, ?_⟩
  intro truth
  rw [hfirst, hsecond]

theorem ReadsOnto.onto (hleft : ReadsOnto parameters joiner left first)
    (hright : ReadsOnto parameters joiner right second) :
    ReadsOnto parameters joiner (left ++ .keyword (joinerWord joiner) :: right)
      fun truth => joinTruth joiner (first truth) (second truth) := by
  intro more other rest hmore
  obtain ⟨last, hlast, hsecond⟩ := hright more other rest hmore
  obtain ⟨formula, hformula, hfirst⟩ := hleft _ last rest hlast
  refine ⟨formula, by simpa using hformula, ?_⟩
  intro truth
  rw [hfirst, hsecond, joinTruth_assoc]

/-- The reader takes every phrase of the grammar as one, with its truth; a phrase that is a chain
is joined with a chain behind it. -/
theorem Denotes.reads {level : Level} (h : Denotes parameters level tokens value) :
    ReadsAs parameters level tokens value ∧
      ∀ joiner, level = .chain joiner → ReadsOnto parameters joiner tokens value := by
  induction h with
  | primary h =>
      refine ⟨fun rest _ => ⟨_, .primary (h rest), fun _ => rfl⟩, ?_⟩
      intro joiner hlevel
      cases hlevel
  | negation _ ih =>
      refine ⟨fun rest _ => ?_, fun joiner hlevel => by cases hlevel⟩
      obtain ⟨formula, hformula, hvalue⟩ := ih.1 rest trivial
      exact ⟨_, hformula.negation, fun truth => by simp [Formula.holds, hvalue truth]⟩
  | group _ ih =>
      refine ⟨fun rest _ => ?_, fun joiner hlevel => by cases hlevel⟩
      obtain ⟨formula, hformula, hvalue⟩ := ih.1 (.closing :: rest) (by simp [Level.endsAt])
      exact ⟨formula, by simpa using hformula.group, hvalue⟩
  | single _ ih =>
      refine ⟨ih.1.single, ?_⟩
      intro joiner hlevel
      cases hlevel
      exact ih.1.onto
  | @joined joiner _ _ _ _ _ _ ihleft ihright =>
      -- the reader nests to the right: it reads the right part before it can join the left one
      refine ⟨(ihleft.2 joiner rfl).joined ihright.1, ?_⟩
      intro other hlevel
      cases hlevel
      exact (ihleft.2 joiner rfl).onto (ihright.2 joiner rfl)

/-- The reader gives every disjunction of the grammar its truth. -/
theorem Denotes.ofTokens? (h : Denotes parameters (.chain .or) tokens value) :
    ∃ formula, Formula.ofTokens? parameters tokens = some formula ∧
      ∀ truth, formula.holds truth = value truth := by
  obtain ⟨formula, hformula, hvalue⟩ := h.reads.1 [] (by simp [Level.endsAt])
  rw [List.append_nil] at hformula
  exact ⟨formula, by simp [Formula.ofTokens?, hformula _ (Nat.le_refl _)], hvalue⟩

end Completeness

end TypedSql.Sql
