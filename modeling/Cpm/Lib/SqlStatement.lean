import Cpm.Lib.SqlText

/-! Statements of SQL, what is read of the tokens of one, and what it does to the rows of a table. -/
namespace Lib.Sql

inductive Statement where
  | insert (table : String) (columns : List (String × Value))
  | update (table : String) (set conditions : List (String × Value))

def names : List Token → Option (List String × List Token)
  | .word name :: .mark ')' :: rest => some ([name], rest)
  | .word name :: .mark ',' :: rest => (names rest).map fun more => (name :: more.1, more.2)
  | _ => none

section
variable (reals : Reals)

def values : List Token → Option (List Value × List Token)
  | token :: .mark ')' :: rest => (token.value reals).map fun value => ([value], rest)
  | token :: .mark ',' :: rest =>
    (token.value reals).bind fun value =>
      (values rest).map fun more => (value :: more.1, more.2)
  | _ => none

def assignments : List Token → Option (List (String × Value) × List Token)
  | .word name :: .mark '=' :: token :: .word "WHERE" :: rest =>
    (token.value reals).map fun value => ([(name, value)], rest)
  | .word name :: .mark '=' :: token :: .mark ',' :: rest =>
    (token.value reals).bind fun value =>
      (assignments rest).map fun more => ((name, value) :: more.1, more.2)
  | _ => none

def conditions : List Token → Option (List (String × Value))
  | [.word name, .mark '=', token] => (token.value reals).map fun value => [(name, value)]
  | .word name :: .mark '=' :: token :: .word "AND" :: rest =>
    (token.value reals).bind fun value => (conditions rest).map fun more => (name, value) :: more
  | _ => none

def statement : List Token → Option Statement
  | .word "INSERT" :: .word "INTO" :: .word table :: .mark '(' :: rest =>
    match names rest with
    | some (columns, .word "VALUES" :: .mark '(' :: rest) =>
      match values reals rest with
      | some (values, []) =>
        if columns.length = values.length then some (.insert table (columns.zip values)) else none
      | _ => none
    | _ => none
  | .word "UPDATE" :: .word table :: .word "SET" :: rest =>
    (assignments reals rest).bind fun set =>
      (conditions reals set.2).map fun conditions => .update table set.1 conditions
  | _ => none

end

/- The tokens of statements. -/

def namesTokens : List String → List Token
  | [] => []
  | [name] => [.word name, .mark ')']
  | name :: rest => .word name :: .mark ',' :: namesTokens rest

section
variable (reals : Reals)

def valuesTokens : List Arg → List Token
  | [] => []
  | [arg] => [arg.token reals, .mark ')']
  | arg :: rest => arg.token reals :: .mark ',' :: valuesTokens rest

def assignmentsTokens : List (String × Arg) → List Token
  | [] => []
  | [(name, arg)] => [.word name, .mark '=', arg.token reals, .word "WHERE"]
  | (name, arg) :: rest =>
    .word name :: .mark '=' :: arg.token reals :: .mark ',' :: assignmentsTokens rest

def conditionsTokens : List (String × Arg) → List Token
  | [] => []
  | [(name, arg)] => [.word name, .mark '=', arg.token reals]
  | (name, arg) :: rest =>
    .word name :: .mark '=' :: arg.token reals :: .word "AND" :: conditionsTokens rest

def insertTokens (table : String) (columns : List (String × Arg)) : List Token :=
  .word "INSERT" :: .word "INTO" :: .word table :: .mark '(' ::
    (namesTokens (columns.map Prod.fst) ++
      .word "VALUES" :: .mark '(' :: valuesTokens reals (columns.map Prod.snd))

def updateTokens (table : String) (set conditions : List (String × Arg)) : List Token :=
  .word "UPDATE" :: .word table :: .word "SET" ::
    (assignmentsTokens reals set ++ conditionsTokens reals conditions)

def valued (columns : List (String × Arg)) : List (String × Value) :=
  columns.map fun column => (column.1, column.2.value reals)

end

theorem names_tokens (list : List String) (some : list ≠ []) (rest : List Token) :
    names (namesTokens list ++ rest) = Option.some (list, rest) := by
  induction list with
  | nil => exact absurd rfl some
  | cons name list ih =>
    cases list with
    | nil => rfl
    | cons next list =>
      have further := ih (List.cons_ne_nil _ _)
      rw [namesTokens, List.cons_append, List.cons_append, names, further]
      · rfl
      · exact List.cons_ne_nil _ _

section
variable {reals : Reals}

theorem values_tokens (args : List Arg) (some : args ≠ [])
    (prints : ∀ arg ∈ args, arg.Prints reals) :
    values reals (valuesTokens reals args) = Option.some (args.map (Arg.value reals), []) := by
  induction args with
  | nil => exact absurd rfl some
  | cons arg args ih =>
    rw [List.forall_mem_cons] at prints
    have here := value_token prints.1
    cases args with
    | nil =>
      rw [valuesTokens, values, here]
      rfl
    | cons next args =>
      have further := ih (List.cons_ne_nil _ _) prints.2
      rw [valuesTokens, values, here, Option.bind_some, further]
      · rfl
      · exact List.cons_ne_nil _ _

theorem assignments_tokens (set : List (String × Arg)) (some : set ≠ [])
    (prints : ∀ column ∈ set, column.2.Prints reals) (rest : List Token) :
    assignments reals (assignmentsTokens reals set ++ rest) = Option.some (valued reals set, rest) := by
  induction set with
  | nil => exact absurd rfl some
  | cons column set ih =>
    rw [List.forall_mem_cons] at prints
    have here := value_token prints.1
    cases set with
    | nil =>
      rw [assignmentsTokens, List.cons_append, List.cons_append, List.cons_append, List.cons_append,
        assignments, here]
      rfl
    | cons next set =>
      have further := ih (List.cons_ne_nil _ _) prints.2
      rw [assignmentsTokens, List.cons_append, List.cons_append, List.cons_append, List.cons_append,
        assignments, here, Option.bind_some, further]
      · rfl
      · exact List.cons_ne_nil _ _

theorem conditions_tokens (list : List (String × Arg)) (some : list ≠ [])
    (prints : ∀ column ∈ list, column.2.Prints reals) :
    conditions reals (conditionsTokens reals list) = Option.some (valued reals list) := by
  induction list with
  | nil => exact absurd rfl some
  | cons column list ih =>
    rw [List.forall_mem_cons] at prints
    have here := value_token prints.1
    cases list with
    | nil =>
      rw [conditionsTokens, conditions, here]
      rfl
    | cons next list =>
      have further := ih (List.cons_ne_nil _ _) prints.2
      rw [conditionsTokens, conditions, here, Option.bind_some, further]
      · rfl
      · exact List.cons_ne_nil _ _

theorem statement_insert (table : String) {columns : List (String × Arg)} (some : columns ≠ [])
    (prints : ∀ column ∈ columns, column.2.Prints reals) :
    statement reals (insertTokens reals table columns) =
      Option.some (.insert table (valued reals columns)) := by
  have args : ∀ arg ∈ columns.map Prod.snd, arg.Prints reals := by
    intro arg inside
    obtain ⟨column, there, rfl⟩ := List.mem_map.mp inside
    exact prints column there
  have pairs : (columns.map Prod.fst).zip ((columns.map Prod.snd).map (Arg.value reals)) =
      valued reals columns := by
    rw [List.map_map, List.zip_map']
    rfl
  rw [insertTokens, statement, names_tokens _ (by simpa using some)]
  simp only
  rw [values_tokens _ (by simpa using some) args]
  dsimp only
  rw [if_pos (by simp), pairs]

theorem statement_update (table : String) {set list : List (String × Arg)} (some : set ≠ [])
    (listed : list ≠ []) (prints : ∀ column ∈ set ++ list, column.2.Prints reals) :
    statement reals (updateTokens reals table set list) =
      Option.some (.update table (valued reals set) (valued reals list)) := by
  rw [List.forall_mem_append] at prints
  rw [updateTokens, statement, assignments_tokens set some prints.1, Option.bind_some,
    conditions_tokens list listed prints.2]
  rfl

end

/- Rows. -/

abbrev Row := String → Value

/-- A column of numbers does not keep each real number as it is. -/
def Value.stored (reals : Reals) : Value → Value
  | .real bits => .real (reals.kept bits)
  | value => value

def Row.set (reals : Reals) (row : Row) (columns : List (String × Value)) : Row := fun name =>
  match columns.lookup name with
  | some value => value.stored reals
  | none => row name

def Row.new (reals : Reals) (columns : List (String × Value)) : Row :=
  Row.set reals (fun _ => .null) columns

section
variable {reals : Reals}

/-- Rows of the same columns are equal in all of them if what is stored is. -/
theorem Row.new_zip_iff {names : List String} {values others : List Value} (distinct : names.Nodup)
    (length : values.length = names.length) (length' : others.length = names.length) :
    (∀ name ∈ names, Row.new reals (names.zip values) name = Row.new reals (names.zip others) name) ↔
      values.map (Value.stored reals) = others.map (Value.stored reals) := by
  induction names generalizing values others with
  | nil =>
    obtain rfl := List.length_eq_zero_iff.mp length
    obtain rfl := List.length_eq_zero_iff.mp length'
    simp
  | cons name names ih =>
    obtain ⟨value, values, rfl⟩ := List.exists_cons_of_length_eq_add_one length
    obtain ⟨other, others, rfl⟩ := List.exists_cons_of_length_eq_add_one length'
    rw [List.nodup_cons] at distinct
    have here (value : Value) (values : List Value) :
        Row.new reals ((name :: names).zip (value :: values)) name = value.stored reals := by
      simp [Row.new, Row.set]
    have behind (value : Value) (values : List Value) : ∀ next ∈ names,
        Row.new reals ((name :: names).zip (value :: values)) next =
          Row.new reals (names.zip values) next := by
      intro next inside
      have apart : (next == name) = false := beq_false_of_ne (ne_of_mem_of_not_mem inside distinct.1)
      simp [Row.new, Row.set, List.lookup_cons, apart]
    rw [List.forall_mem_cons, here, here, List.map_cons, List.map_cons, List.cons.injEq,
      ← ih distinct.2 (by simpa using length) (by simpa using length')]
    refine and_congr_right fun _ => forall₂_congr fun next inside => ?_
    rw [behind value values next inside, behind other others next inside]

end

/-- Rows with the same key; NULL is not the same as NULL. -/
def clash (key : List String) (a b : Row) : Bool :=
  key.all fun name => a name ≠ .null && a name = b name

def Row.meets (row : Row) (conditions : List (String × Value)) : Bool :=
  conditions.all fun condition => row condition.1 = condition.2

/-- One table, with a unique key and further constraints on its rows. -/
structure Schema where
  table : String
  key : List String
  check : Row → Bool

def execute (reals : Reals) (schema : Schema) (rows : List Row) : Statement → Option (List Row)
  | .insert table columns =>
    let row := Row.new reals columns
    if table ≠ schema.table || rows.any (clash schema.key · row) || !schema.check row then none
    else some (rows ++ [row])
  | .update table set conditions =>
    let changed := rows.map fun row => if row.meets conditions then row.set reals set else row
    if table ≠ schema.table then none
    else if changed.Pairwise (fun a b => clash schema.key a b = false) ∧
        ∀ row ∈ rows, row.meets conditions = true → schema.check (row.set reals set) = true then
      some changed
    else none

end Lib.Sql
