import TableStore.Proofs.Statement.Steps

/-
What can be written on a command line.

`Statement.Written` lists the forms of the commands over whole lists of tokens.  The reader takes one
token after the other and stops at the first that does not fit, and what it reads in the end is
exactly these forms.  Only a line that ends with a quote open has no list of tokens, and it is no
statement, whatever it starts with.
-/
namespace TableStore

/-! ## The forms of the commands -/

/-- What names a command: a word without its quoting, and a symbol as it is written. -/
def Token.command : Token → String
  | word w => unquote w
  | symbol => symbol.text

namespace Statement

/-- The names of the commands. -/
def commands : List String :=
  ["help", "exit", "list_tables", "create_table", "drop_table", "insert", "select", "update",
    "delete", "info"]

/-- The token lists of each statement.  Names of commands, tables and columns are taken without their
quoting, keywords and values as they are written. -/
inductive Written : List Token → Statement → Prop where
  | help {c : String} (hc : unquote c = "help") (rest : List Token) :
    Written (.word c :: rest) .help
  | exit {c : String} (hc : unquote c = "exit") (rest : List Token) :
    Written (.word c :: rest) .exit
  | listTables {c : String} (hc : unquote c = "list_tables") (rest : List Token) :
    Written (.word c :: rest) .listTables
  | createTable {c : String} (hc : unquote c = "create_table") (table : String)
      (declarations : List String) :
    Written (.word c :: .word table :: declarations.map .word)
      (.createTable (unquote table) (declarations.map unquote))
  | dropTable {c : String} (hc : unquote c = "drop_table") (table : String) (rest : List Token) :
    Written (.word c :: .word table :: rest) (.dropTable (unquote table))
  | insert {c : String} (hc : unquote c = "insert") (table : String) {words : List String}
      {values : List Value} (hvalues : List.Forall₂ (Literal.read · = .ok ·) words values) :
    Written (.word c :: .word "into" :: .word table :: .word "values" :: .openParen :: listing words)
      (.insert (unquote table) values)
  | select {c : String} (hc : unquote c = "select") (table : String) :
    Written [.word c, .word "from", .word table] (.select (unquote table) none)
  | selectWhere {c : String} (hc : unquote c = "select") (table column : String) {word : String}
      {value : Value} (hvalue : Literal.read word = .ok value) :
    Written (.word c :: .word "from" :: .word table :: .word "where" :: assigning column word)
      (.select (unquote table) (some (.singleton (unquote column) value)))
  | update {c : String} (hc : unquote c = "update") (table column : String) {word : String}
      {value : Value} (hvalue : Literal.read word = .ok value) (whereColumn : String)
      {whereWord : String} {whereValue : Value}
      (hwhere : Literal.read whereWord = .ok whereValue) :
    Written (.word c :: .word table :: .word "set" :: (assigning column word ++
        .word "where" :: assigning whereColumn whereWord))
      (.update (unquote table) (.singleton (unquote column) value)
        (.singleton (unquote whereColumn) whereValue))
  | delete {c : String} (hc : unquote c = "delete") (table column : String) {word : String}
      {value : Value} (hvalue : Literal.read word = .ok value) :
    Written (.word c :: .word "from" :: .word table :: .word "where" :: assigning column word)
      (.delete (unquote table) (.singleton (unquote column) value))
  | info {c : String} (hc : unquote c = "info") (table : String) :
    Written [.word c, .word table] (.info (unquote table))
  | unknown {token : Token} (htoken : token.command ∉ commands) (rest : List Token) :
    Written (token :: rest) (.unknown token.text)

namespace Reading

variable {tokens rest : Tokens}

/-! ## Whole commands -/

theorem createTable_eq_ok {s : Statement} :
    createTable.run tokens = .ok (s, rest) ↔
      rest = .nil ∧ ∃ (table : String) (declarations : List String),
      tokens = .ofList (.word table :: declarations.map .word) ∧
        s = .createTable (unquote table) (declarations.map unquote) := by
  simp only [createTable, run_bind_eq_ok, name_eq_ok, declarations_eq_ok, run_pure_eq_ok]
  constructor
  · rintro ⟨_, _, ⟨table, rfl, rfl⟩, _, _, ⟨rfl, declarations, rfl, rfl⟩, rfl, rfl⟩
    exact ⟨rfl, table, declarations, rfl, rfl⟩
  · rintro ⟨rfl, table, declarations, rfl, rfl⟩
    exact ⟨_, _, ⟨table, rfl, rfl⟩, _, _, ⟨rfl, declarations, rfl, rfl⟩, rfl, rfl⟩

theorem dropTable_eq_ok {s : Statement} :
    dropTable.run tokens = .ok (s, rest) ↔ rest = .nil ∧ ∃ table behind,
      tokens = .ofList (.word table :: behind) ∧ s = .dropTable (unquote table) := by
  simp only [dropTable, run_bind_eq_ok, name_eq_ok, skipRest_eq_ok, run_pure_eq_ok]
  constructor
  · rintro ⟨_, _, ⟨table, rfl, rfl⟩, _, _, ⟨⟨behind, rfl⟩, rfl⟩, rfl, rfl⟩
    exact ⟨rfl, table, behind, rfl, rfl⟩
  · rintro ⟨rfl, table, behind, rfl, rfl⟩
    exact ⟨_, _, ⟨table, rfl, rfl⟩, (), _, ⟨⟨behind, rfl⟩, rfl⟩, rfl, rfl⟩

theorem insert_eq_ok {s : Statement} :
    insert.run tokens = .ok (s, rest) ↔ rest = .nil ∧ ∃ table words values,
      tokens = .ofList (.word "into" :: .word table :: .word "values" :: .openParen ::
        listing words) ∧
      List.Forall₂ (Literal.read · = .ok ·) words values ∧ s = .insert (unquote table) values := by
  simp only [insert, keyword, run_bind_eq_ok, expect_eq_ok, name_eq_ok, valueList_eq_ok,
    atEnd_eq_ok, run_pure_eq_ok]
  constructor
  · rintro ⟨_, _, rfl, _, _, ⟨table, rfl, rfl⟩, _, _, rfl, _, _, rfl, values, _,
      ⟨words, rfl, hvalues⟩, _, _, ⟨rfl, rfl⟩, rfl, rfl⟩
    exact ⟨rfl, table, words, values, rfl, hvalues, rfl⟩
  · rintro ⟨rfl, table, words, values, rfl, hvalues, rfl⟩
    exact ⟨(), _, rfl, _, _, ⟨table, rfl, rfl⟩, (), _, rfl, (), _, rfl, values, _,
      ⟨words, rfl, hvalues⟩, (), _, ⟨rfl, rfl⟩, rfl, rfl⟩

theorem select_eq_ok {s : Statement} :
    select.run tokens = .ok (s, rest) ↔ rest = .nil ∧ ∃ table,
      (tokens = .ofList [.word "from", .word table] ∧ s = .select (unquote table) none) ∨
      ∃ column word value, tokens = .ofList
          (.word "from" :: .word table :: .word "where" :: assigning column word) ∧
        Literal.read word = .ok value ∧
        s = .select (unquote table) (some (.singleton (unquote column) value)) := by
  simp only [select, keyword, run_bind_eq_ok, expect_eq_ok, name_eq_ok]
  constructor
  · rintro ⟨_, _, rfl, _, behind, ⟨table, rfl, rfl⟩, _, _, ⟨⟩, h⟩
    split at h
    · obtain ⟨rfl, rfl⟩ := run_pure_eq_ok.mp h
      exact ⟨rfl, table, .inl ⟨rfl, rfl⟩⟩
    · obtain ⟨_, _, hcondition, h⟩ := run_bind_eq_ok.mp h
      obtain ⟨column, word, value, rfl, hvalue, rfl⟩ := condition_eq_ok.mp hcondition
      obtain ⟨_, _, hend, h⟩ := run_bind_eq_ok.mp h
      obtain ⟨rfl, rfl⟩ := atEnd_eq_ok.mp hend
      obtain ⟨rfl, rfl⟩ := run_pure_eq_ok.mp h
      exact ⟨rfl, table, .inr ⟨column, word, value, rfl, hvalue, rfl⟩⟩
  · rintro ⟨rfl, table, ⟨rfl, rfl⟩ | ⟨column, word, value, rfl, hvalue, rfl⟩⟩
    · exact ⟨(), _, rfl, _, _, ⟨table, rfl, rfl⟩, _, _, rfl, rfl⟩
    · exact ⟨(), _, rfl, _, _, ⟨table, rfl, rfl⟩, _, _, rfl, run_bind_eq_ok.mpr
        ⟨_, _, condition_eq_ok.mpr ⟨column, word, value, rfl, hvalue, rfl⟩, run_bind_eq_ok.mpr
          ⟨(), _, atEnd_eq_ok.mpr ⟨rfl, rfl⟩, run_pure_eq_ok.mpr ⟨rfl, rfl⟩⟩⟩⟩

theorem update_eq_ok {s : Statement} :
    update.run tokens = .ok (s, rest) ↔ rest = .nil ∧ ∃ table column word value whereColumn
        whereWord whereValue,
      tokens = .ofList (.word table :: .word "set" :: (assigning column word ++
        .word "where" :: assigning whereColumn whereWord)) ∧
      Literal.read word = .ok value ∧ Literal.read whereWord = .ok whereValue ∧
      s = .update (unquote table) (.singleton (unquote column) value)
        (.singleton (unquote whereColumn) whereValue) := by
  simp only [update, keyword, run_bind_eq_ok, name_eq_ok, expect_eq_ok, assignment_eq_ok,
    condition_eq_ok, atEnd_eq_ok, run_pure_eq_ok]
  constructor
  · rintro ⟨_, _, ⟨table, rfl, rfl⟩, _, _, rfl, _, _, ⟨column, word, value, rfl, hvalue, rfl⟩, _, _,
      ⟨whereColumn, whereWord, whereValue, rfl, hwhere, rfl⟩, _, _, ⟨rfl, rfl⟩, rfl, rfl⟩
    exact ⟨rfl, table, column, word, value, whereColumn, whereWord, whereValue, rfl, hvalue, hwhere,
      rfl⟩
  · rintro ⟨rfl, table, column, word, value, whereColumn, whereWord, whereValue, rfl, hvalue, hwhere,
      rfl⟩
    exact ⟨_, _, ⟨table, rfl, rfl⟩, (), _, rfl, _, _, ⟨column, word, value, rfl, hvalue, rfl⟩, _, _,
      ⟨whereColumn, whereWord, whereValue, rfl, hwhere, rfl⟩, (), _, ⟨rfl, rfl⟩, rfl, rfl⟩

theorem delete_eq_ok {s : Statement} :
    delete.run tokens = .ok (s, rest) ↔ rest = .nil ∧ ∃ table column word value,
      tokens = .ofList (.word "from" :: .word table :: .word "where" :: assigning column word) ∧
      Literal.read word = .ok value ∧
      s = .delete (unquote table) (.singleton (unquote column) value) := by
  simp only [delete, keyword, run_bind_eq_ok, name_eq_ok, expect_eq_ok, condition_eq_ok,
    atEnd_eq_ok, run_pure_eq_ok]
  constructor
  · rintro ⟨_, _, rfl, _, _, ⟨table, rfl, rfl⟩, _, _, ⟨column, word, value, rfl, hvalue, rfl⟩, _, _,
      ⟨rfl, rfl⟩, rfl, rfl⟩
    exact ⟨rfl, table, column, word, value, rfl, hvalue, rfl⟩
  · rintro ⟨rfl, table, column, word, value, rfl, hvalue, rfl⟩
    exact ⟨(), _, rfl, _, _, ⟨table, rfl, rfl⟩, _, _, ⟨column, word, value, rfl, hvalue, rfl⟩, (), _,
      ⟨rfl, rfl⟩, rfl, rfl⟩

theorem info_eq_ok {s : Statement} :
    info.run tokens = .ok (s, rest) ↔ rest = .nil ∧ ∃ table,
      tokens = .ofList [.word table] ∧ s = .info (unquote table) := by
  simp only [info, run_bind_eq_ok, name_eq_ok, atEnd_eq_ok, run_pure_eq_ok]
  constructor
  · rintro ⟨_, _, ⟨table, rfl, rfl⟩, _, _, ⟨rfl, rfl⟩, rfl, rfl⟩
    exact ⟨rfl, table, rfl, rfl⟩
  · rintro ⟨rfl, table, rfl, rfl⟩
    exact ⟨_, _, ⟨table, rfl, rfl⟩, (), _, ⟨rfl, rfl⟩, rfl, rfl⟩

theorem bare_eq_ok {s s' : Statement} :
    (bare s).run tokens = .ok (s', rest) ↔
      rest = .nil ∧ (∃ behind, tokens = .ofList behind) ∧ s' = s := by
  simp only [bare, run_bind_eq_ok, skipRest_eq_ok, run_pure_eq_ok]
  constructor
  · rintro ⟨_, _, ⟨hbehind, rfl⟩, rfl, rfl⟩
    exact ⟨rfl, hbehind, rfl⟩
  · rintro ⟨rfl, hbehind, rfl⟩
    exact ⟨(), _, ⟨hbehind, rfl⟩, rfl, rfl⟩

theorem command_of_not_mem {word : String} (h : word ∉ commands) (written : String) :
    command word written = bare (.unknown written) := by
  unfold command
  split <;> first | rfl | exact absurd (by decide) h

theorem written_of_command {token : Token} {s : Statement}
    (h : (command token.command token.text).run tokens = .ok (s, rest)) :
    rest = .nil ∧ ∃ ts, tokens = .ofList ts ∧ Written (token :: ts) s := by
  by_cases hcommand : token.command ∈ commands
  · obtain ⟨c, rfl⟩ : ∃ c, token = .word c := by
      cases token with
      | word c => exact ⟨c, rfl⟩
      | openParen => exact absurd hcommand (by decide)
      | closeParen => exact absurd hcommand (by decide)
      | comma => exact absurd hcommand (by decide)
      | equal => exact absurd hcommand (by decide)
    change (command (unquote c) c).run tokens = _ at h
    unfold command at h
    split at h
    · rename_i hc
      obtain ⟨rfl, ⟨ts, rfl⟩, rfl⟩ := bare_eq_ok.mp h
      exact ⟨rfl, ts, rfl, .help hc ts⟩
    · rename_i hc
      obtain ⟨rfl, ⟨ts, rfl⟩, rfl⟩ := bare_eq_ok.mp h
      exact ⟨rfl, ts, rfl, .exit hc ts⟩
    · rename_i hc
      obtain ⟨rfl, ⟨ts, rfl⟩, rfl⟩ := bare_eq_ok.mp h
      exact ⟨rfl, ts, rfl, .listTables hc ts⟩
    · rename_i hc
      obtain ⟨rfl, table, declarations, rfl, rfl⟩ := createTable_eq_ok.mp h
      exact ⟨rfl, _, rfl, .createTable hc table declarations⟩
    · rename_i hc
      obtain ⟨rfl, table, ts, rfl, rfl⟩ := dropTable_eq_ok.mp h
      exact ⟨rfl, _, rfl, .dropTable hc table ts⟩
    · rename_i hc
      obtain ⟨rfl, table, words, values, rfl, hvalues, rfl⟩ := insert_eq_ok.mp h
      exact ⟨rfl, _, rfl, .insert hc table hvalues⟩
    · rename_i hc
      obtain ⟨rfl, table, ⟨rfl, rfl⟩ | ⟨column, word, value, rfl, hvalue, rfl⟩⟩ :=
        select_eq_ok.mp h
      · exact ⟨rfl, _, rfl, .select hc table⟩
      · exact ⟨rfl, _, rfl, .selectWhere hc table column hvalue⟩
    · rename_i hc
      obtain ⟨rfl, table, column, word, value, whereColumn, whereWord, whereValue, rfl, hvalue,
        hwhere, rfl⟩ := update_eq_ok.mp h
      exact ⟨rfl, _, rfl, .update hc table column hvalue whereColumn hwhere⟩
    · rename_i hc
      obtain ⟨rfl, table, column, word, value, rfl, hvalue, rfl⟩ := delete_eq_ok.mp h
      exact ⟨rfl, _, rfl, .delete hc table column hvalue⟩
    · rename_i hc
      obtain ⟨rfl, table, rfl, rfl⟩ := info_eq_ok.mp h
      exact ⟨rfl, _, rfl, .info hc table⟩
    · exact absurd hcommand (by simp_all [commands, Token.command])
  · rw [command_of_not_mem hcommand] at h
    obtain ⟨rfl, ⟨ts, rfl⟩, rfl⟩ := bare_eq_ok.mp h
    exact ⟨rfl, ts, rfl, .unknown hcommand ts⟩

theorem command_of_written {token : Token} {ts : List Token} {s : Statement}
    (h : Written (token :: ts) s) :
    (command token.command token.text).run (.ofList ts) = .ok (s, .nil) := by
  cases h with
  | help hc rest =>
    rw [Token.command, hc]
    exact bare_eq_ok.mpr ⟨rfl, ⟨_, rfl⟩, rfl⟩
  | exit hc rest =>
    rw [Token.command, hc]
    exact bare_eq_ok.mpr ⟨rfl, ⟨_, rfl⟩, rfl⟩
  | listTables hc rest =>
    rw [Token.command, hc]
    exact bare_eq_ok.mpr ⟨rfl, ⟨_, rfl⟩, rfl⟩
  | createTable hc table declarations =>
    rw [Token.command, hc]
    exact createTable_eq_ok.mpr ⟨rfl, _, _, rfl, rfl⟩
  | dropTable hc table rest =>
    rw [Token.command, hc]
    exact dropTable_eq_ok.mpr ⟨rfl, _, _, rfl, rfl⟩
  | insert hc table hvalues =>
    rw [Token.command, hc]
    exact insert_eq_ok.mpr ⟨rfl, _, _, _, rfl, hvalues, rfl⟩
  | select hc table =>
    rw [Token.command, hc]
    exact select_eq_ok.mpr ⟨rfl, _, .inl ⟨rfl, rfl⟩⟩
  | selectWhere hc table column hvalue =>
    rw [Token.command, hc]
    exact select_eq_ok.mpr ⟨rfl, _, .inr ⟨_, _, _, rfl, hvalue, rfl⟩⟩
  | update hc table column hvalue whereColumn hwhere =>
    rw [Token.command, hc]
    exact update_eq_ok.mpr ⟨rfl, _, _, _, _, _, _, _, rfl, hvalue, hwhere, rfl⟩
  | delete hc table column hvalue =>
    rw [Token.command, hc]
    exact delete_eq_ok.mpr ⟨rfl, _, _, _, _, rfl, hvalue, rfl⟩
  | info hc table =>
    rw [Token.command, hc]
    exact info_eq_ok.mpr ⟨rfl, _, rfl, rfl⟩
  | unknown htoken rest =>
    rw [command_of_not_mem htoken]
    exact bare_eq_ok.mpr ⟨rfl, ⟨_, rfl⟩, rfl⟩

theorem line_eq_ok {result : Option Statement} :
    line.run tokens = .ok (result, rest) ↔
      (tokens = .nil ∧ result = none ∧ rest = .nil) ∨
      ∃ token behind s, tokens = .cons token behind ∧
        (command token.command token.text).run behind = .ok (s, rest) ∧ result = some s := by
  cases tokens with
  | nil =>
    show Except.ok (none, Tokens.nil) = _ ↔ _
    simp [eq_comm]
  | unclosed word => exact ⟨nofun, by simp⟩
  | cons token behind =>
    have hrun : line.run (.cons token behind) =
        (some <$> command token.command token.text).run behind := by
      cases token <;> rfl
    simp only [hrun, map_eq_pure_bind, run_bind_eq_ok, run_pure_eq_ok]
    constructor
    · rintro ⟨s, _, h, rfl, rfl⟩
      exact .inr ⟨token, behind, s, rfl, h, rfl⟩
    · rintro (⟨⟨⟩, -⟩ | ⟨_, _, s, ⟨⟩, h, rfl⟩)
      exact ⟨s, rest, h, rfl, rfl⟩

theorem line_eq_none :
    line.run tokens = .ok (none, rest) ↔ tokens = .nil ∧ rest = .nil := by
  simp [line_eq_ok]

theorem line_eq_some {s : Statement} :
    line.run tokens = .ok (some s, rest) ↔
      rest = .nil ∧ ∃ ts, tokens = .ofList ts ∧ Written ts s := by
  simp only [line_eq_ok]
  constructor
  · rintro (⟨-, ⟨⟩, -⟩ | ⟨token, behind, _, rfl, h, ⟨⟩⟩)
    obtain ⟨rfl, ts, rfl, hwritten⟩ := written_of_command h
    exact ⟨rfl, token :: ts, rfl, hwritten⟩
  · rintro ⟨rfl, _ | ⟨token, ts⟩, rfl, h⟩
    · cases h
    · exact .inr ⟨token, _, s, rfl, command_of_written h, rfl⟩

end Reading

/-! ## Lines -/

theorem read_eq_ok {text : String} {result : Option Statement} :
    read text = .ok result ↔
      ∃ rest, Reading.line.run (Tokens.ofText text) = .ok (result, rest) := by
  show (Reading.line.run (Tokens.ofText text)).map Prod.fst = _ ↔ _
  cases h : Reading.line.run (Tokens.ofText text) with
  | error e => exact ⟨nofun, nofun⟩
  | ok p =>
    show Except.ok p.1 = _ ↔ _
    constructor
    · rintro ⟨⟩
      exact ⟨p.2, rfl⟩
    · rintro ⟨rest, ⟨⟩⟩
      rfl

/-- A line on which a quote stays open is refused.  Every other line is a list of tokens: without any
it is no statement, in a form of a command it is that statement, and otherwise it is refused. -/
theorem read_exact (text : String) :
    (Tokens.openQuote none text.toList ≠ none → ∃ refusal, read text = .error refusal) ∧
    (Tokens.openQuote none text.toList = none → ∃ ts, Tokens.ofText text = .ofList ts ∧
      (read text = .ok none ↔ ts = []) ∧
      (∀ s, read text = .ok (some s) ↔ Written ts s) ∧
      ((∃ refusal, read text = .error refusal) ↔ ts ≠ [] ∧ ∀ s, ¬ Written ts s)) := by
  have hnone : read text = .ok none ↔ Tokens.ofText text = .ofList [] := by
    simp [read_eq_ok, Reading.line_eq_none]
  have hsome : ∀ s, read text = .ok (some s) ↔
      ∃ ts, Tokens.ofText text = .ofList ts ∧ Written ts s := by
    simp [read_eq_ok, Reading.line_eq_some]
  refine ⟨fun hopen => ?_, fun hclosed => ?_⟩
  · rw [Ne, ← Tokens.ofText_eq_ofList] at hopen
    cases hread : read text with
    | error refusal => exact ⟨refusal, rfl⟩
    | ok result =>
      cases result with
      | none => exact absurd ⟨_, hnone.mp hread⟩ hopen
      | some s =>
        obtain ⟨ts, hts, -⟩ := (hsome s).mp hread
        exact absurd ⟨ts, hts⟩ hopen
  · obtain ⟨ts, hts⟩ := Tokens.ofText_eq_ofList.mpr hclosed
    simp only [hts, Tokens.ofList_inj, exists_eq_left'] at hnone hsome
    refine ⟨ts, hts, hnone, hsome, ?_⟩
    rw [Ne, ← hnone, ← forall_congr' fun s => (hsome s).not]
    cases read text with
    | error refusal => simp
    | ok result => cases result <;> simp

end Statement
end TableStore
