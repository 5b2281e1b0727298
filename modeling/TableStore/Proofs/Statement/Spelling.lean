import TableStore.Proofs.Literal
import TableStore.Proofs.Statement.Grammar
import TableStore.Proofs.Statement.Scanning

/-
How statements are written as command lines.

A text is written between two quotes of a kind that it does not hold, so a text that holds both
kinds cannot be written in this way; everything else in it, white space and symbols too, is safe inside
of its quotes.  `Statement.Spelled` writes every command in this way, and `Statement.read_spelled`
reads it back.
-/
namespace TableStore

open Token (IsWord Scans)

/-! ## Texts in quotes -/

/-- A text between two quotes of a kind that it does not hold. -/
inductive Quoted (text : String) : String → Prop where
  | between {quote : Char} (hquote : isQuote quote = true) (habsent : quote ∉ text.toList) :
    Quoted text (String.ofList (quote :: (text.toList ++ [quote])))

/-- Whether there is a kind of quote left to write a text with. -/
def Quotable (text : String) : Prop := '"' ∉ text.toList ∨ '\'' ∉ text.toList

theorem exists_quoted {text : String} : (∃ word, Quoted text word) ↔ Quotable text := by
  constructor
  · rintro ⟨_, hquote, habsent⟩
    rcases eq_of_isQuote hquote with rfl | rfl
    · exact .inl habsent
    · exact .inr habsent
  · rintro (habsent | habsent)
    · exact ⟨_, .between (by decide) habsent⟩
    · exact ⟨_, .between (by decide) habsent⟩

theorem unquoteFrom_section {quote : Char} {inside : List Char} (h : quote ∉ inside) :
    unquoteFrom (some quote) (inside ++ [quote]) = inside := by
  induction inside with
  | nil => simp [unquoteFrom]
  | cons c rest ih =>
    rw [List.mem_cons, not_or] at h
    rw [List.cons_append, unquoteFrom, if_neg (Ne.symm h.1), ih h.2]

namespace Quoted

variable {text word : String}

theorem isWord (h : Quoted text word) : IsWord word := by
  obtain ⟨hquote, habsent⟩ := h
  constructor
  · simp
  · rw [String.toList_ofList]
    have hinside := Token.inWord_of_section habsent
    rcases eq_of_isQuote hquote with rfl | rfl
    · exact ⟨by decide, by decide, hinside⟩
    · exact ⟨by decide, by decide, hinside⟩

theorem unquote_eq (h : Quoted text word) : unquote word = text := by
  obtain ⟨hquote, habsent⟩ := h
  rw [unquote, String.toList_ofList, unquoteFrom, if_pos hquote, unquoteFrom_section habsent,
    String.ofList_toList]

theorem read_eq (h : Quoted text word) : Literal.read word = .ok (.str text) := by
  obtain ⟨hquote, -⟩ := h
  exact Literal.read_eq_str_iff.mpr ⟨_, hquote, String.toList_ofList ..⟩

end Quoted

/-! ## Values -/

namespace Value

variable {v : Value} {word : String}

/-- The literals of a value. -/
inductive Spelled : Value → String → Prop where
  | yes : Spelled (.bool true) "true"
  | no : Spelled (.bool false) "false"
  | int (n : Int64) : Spelled (.int n) (Decimal.write n)
  | str {text word : String} (h : Quoted text word) : Spelled (.str text) word

def Quotable : Value → Prop
  | str text => TableStore.Quotable text
  | _ => True

theorem exists_spelled : (∃ word, Spelled v word) ↔ v.Quotable := by
  cases v with
  | bool b =>
    refine iff_of_true ?_ trivial
    cases b with
    | true => exact ⟨_, .yes⟩
    | false => exact ⟨_, .no⟩
  | int n => exact iff_of_true ⟨_, .int n⟩ trivial
  | str text =>
    refine Iff.trans ⟨?_, ?_⟩ exists_quoted
    · rintro ⟨word, hword⟩
      cases hword with
      | str h => exact ⟨word, h⟩
    · rintro ⟨word, h⟩
      exact ⟨word, .str h⟩

theorem Spelled.isWord (h : Spelled v word) : IsWord word := by
  cases h with
  | yes => exact Token.isWord_of_bare (by decide)
  | no => exact Token.isWord_of_bare (by decide)
  | int n =>
    have hdigits : "-0123456789".toList.all Token.isBare = true := by decide
    have hbare : (Decimal.write n).toList.all Token.isBare = true :=
      List.all_eq_true.mpr fun c hc =>
        List.all_eq_true.mp hdigits c (Decimal.mem_write_of_digits hc)
    exact Token.isWord_of_bare ⟨Decimal.write_ne_nil n, hbare⟩
  | str h => exact h.isWord

theorem Spelled.read_eq (h : Spelled v word) : Literal.read word = .ok v := by
  cases h with
  | yes => rfl
  | no => rfl
  | int n => exact Literal.read_eq_int_iff.mpr (Decimal.numeral_write n)
  | str h => exact h.read_eq

end Value

/-! ## Statements -/

namespace Statement

/-- The lines of a statement.  Names, declarations and strings stand in quotes, each in a kind of
its own choice. -/
inductive Spelled : Statement → String → Prop where
  | createTable {table name : String} {declarations words : List String} (hname : Quoted table name)
      (hwords : List.Forall₂ Quoted declarations words) :
    Spelled (.createTable table declarations) (" ".intercalate ("create_table" :: name :: words))
  | dropTable {table name : String} (hname : Quoted table name) :
    Spelled (.dropTable table) (" ".intercalate ["drop_table", name])
  | insert {table name : String} {values : List Value} {words : List String}
      (hname : Quoted table name) (hwords : List.Forall₂ Value.Spelled values words) :
    Spelled (.insert table values) (" ".intercalate
      ["insert", "into", name, "values", "(" ++ ",".intercalate words ++ ")"])
  | select {table name : String} (hname : Quoted table name) :
    Spelled (.select table none) (" ".intercalate ["select", "from", name])
  | selectWhere {table name column : String} {value : Value} {whereName word : String}
      (hname : Quoted table name) (hwhere : Quoted column whereName) (hword : value.Spelled word) :
    Spelled (.select table (some (.singleton column value))) (" ".intercalate
      ["select", "from", name, "where", whereName, "=", word])
  | update {table name column : String} {value : Value} {setName setWord whereColumn : String}
      {whereValue : Value} {whereName whereWord : String} (hname : Quoted table name)
      (hset : Quoted column setName) (hsetWord : value.Spelled setWord)
      (hwhere : Quoted whereColumn whereName) (hwhereWord : whereValue.Spelled whereWord) :
    Spelled (.update table (.singleton column value) (.singleton whereColumn whereValue))
      (" ".intercalate ["update", name, "set", setName, "=", setWord, "where", whereName, "=",
        whereWord])
  | delete {table name column : String} {value : Value} {whereName word : String}
      (hname : Quoted table name) (hwhere : Quoted column whereName) (hword : value.Spelled word) :
    Spelled (.delete table (.singleton column value)) (" ".intercalate
      ["delete", "from", name, "where", whereName, "=", word])
  | info {table name : String} (hname : Quoted table name) :
    Spelled (.info table) (" ".intercalate ["info", name])

/-- One entry that can be written. -/
def QuotableEntry (fields : Fields) : Prop :=
  ∃ column value, fields = .singleton column value ∧ TableStore.Quotable column ∧ value.Quotable

/-- The commands with arguments, if none of their texts holds both kinds of quotes. -/
def Quotable : Statement → Prop
  | createTable table declarations =>
    TableStore.Quotable table ∧ ∀ declaration ∈ declarations, TableStore.Quotable declaration
  | dropTable table => TableStore.Quotable table
  | insert table values => TableStore.Quotable table ∧ ∀ value ∈ values, value.Quotable
  | select table none => TableStore.Quotable table
  | select table (some condition) => TableStore.Quotable table ∧ QuotableEntry condition
  | update table assignments condition =>
    TableStore.Quotable table ∧ QuotableEntry assignments ∧ QuotableEntry condition
  | delete table condition => TableStore.Quotable table ∧ QuotableEntry condition
  | info table => TableStore.Quotable table
  | _ => False

/-- The words of a line that are written without quotes. -/
def keywords : List String := commands ++ ["into", "values", "from", "where", "set"]

theorem spaced_keyword {word : String} (h : word ∈ keywords) {pieces : List String}
    {tokens : List Token} (hpieces : Token.Spaced pieces tokens) :
    Token.Spaced (word :: pieces) (.word word :: tokens) := by
  have hbare : ∀ word ∈ keywords, word.toList ≠ [] ∧ word.toList.all Token.isBare = true := by
    decide
  exact .word (Token.isWord_of_bare (hbare word h)) hpieces

/-- The condition that a command ends with. -/
theorem spaced_where {column name : String} {value : Value} {word : String}
    (hname : Quoted column name) (hword : value.Spelled word) :
    Token.Spaced ["where", name, "=", word] (.word "where" :: assigning name word) :=
  spaced_keyword (by decide) (.entry hname.isWord hword.isWord .nil)

theorem unquote_of_mem_commands {word : String} (h : word ∈ commands) : unquote word = word := by
  revert h
  revert word
  decide

theorem isWord_of_quoted {texts words : List String} (h : List.Forall₂ Quoted texts words) :
    ∀ word ∈ words, IsWord word := by
  induction h with
  | nil => nofun
  | cons hword _ ih =>
    rw [List.forall_mem_cons]
    exact ⟨hword.isWord, ih⟩

theorem map_unquote_of_quoted {texts words : List String} (h : List.Forall₂ Quoted texts words) :
    words.map unquote = texts := by
  induction h with
  | nil => rfl
  | cons hword _ ih => rw [List.map_cons, hword.unquote_eq, ih]

theorem isWord_of_spelled {values : List Value} {words : List String}
    (h : List.Forall₂ Value.Spelled values words) : ∀ word ∈ words, IsWord word := by
  induction h with
  | nil => nofun
  | cons hword _ ih =>
    rw [List.forall_mem_cons]
    exact ⟨hword.isWord, ih⟩

/-- A line of a statement has the tokens of a command that is this statement. -/
theorem Spelled.written {s : Statement} {text : String} (h : Spelled s text) :
    ∃ ts, Tokens.ofText text = .ofList ts ∧ Written ts s := by
  suffices hspaced : ∃ pieces ts, text = " ".intercalate pieces ∧ Token.Spaced pieces ts ∧
      Written ts s by
    obtain ⟨pieces, ts, rfl, hts, hwritten⟩ := hspaced
    exact ⟨ts, hts.scans.ofText, hwritten⟩
  cases h with
  | @createTable table name declarations words hname hwords =>
    have hspaced := Token.Spaced.word hname.isWord (.words (isWord_of_quoted hwords))
    rw [← hname.unquote_eq, ← map_unquote_of_quoted hwords]
    exact ⟨_, _, rfl, spaced_keyword (by decide) hspaced,
      .createTable (unquote_of_mem_commands (by decide)) name words⟩
  | @dropTable table name hname =>
    have hspaced := Token.Spaced.word hname.isWord .nil
    rw [← hname.unquote_eq]
    exact ⟨_, _, rfl, spaced_keyword (by decide) hspaced,
      .dropTable (unquote_of_mem_commands (by decide)) name []⟩
  | @insert table name values words hname hwords =>
    have hread : List.Forall₂ (Literal.read · = .ok ·) words values :=
      hwords.flip.imp fun _ _ hword => hword.read_eq
    have hlist := Token.Spaced.cons (Scans.listed (isWord_of_spelled hwords)) .nil
    rw [List.append_nil] at hlist
    have hvalues : "values" ∈ keywords := by decide
    have hspaced := Token.Spaced.word hname.isWord (spaced_keyword hvalues hlist)
    rw [← hname.unquote_eq]
    exact ⟨_, _, rfl, spaced_keyword (by decide) (spaced_keyword (by decide) hspaced),
      .insert (unquote_of_mem_commands (by decide)) name hread⟩
  | @select table name hname =>
    have hspaced := Token.Spaced.word hname.isWord .nil
    rw [← hname.unquote_eq]
    exact ⟨_, _, rfl, spaced_keyword (by decide) (spaced_keyword (by decide) hspaced),
      .select (unquote_of_mem_commands (by decide)) name⟩
  | @selectWhere table name column value whereName word hname hwhere hword =>
    have hspaced := Token.Spaced.word hname.isWord (spaced_where hwhere hword)
    rw [← hname.unquote_eq, ← hwhere.unquote_eq]
    exact ⟨_, _, rfl, spaced_keyword (by decide) (spaced_keyword (by decide) hspaced),
      .selectWhere (unquote_of_mem_commands (by decide)) name whereName hword.read_eq⟩
  | @update table name column value setName setWord whereColumn whereValue whereName whereWord hname
      hset hsetWord hwhere hwhereWord =>
    have hkeyword : "set" ∈ keywords := by decide
    have hspaced := Token.Spaced.word hname.isWord (spaced_keyword hkeyword
      (.entry hset.isWord hsetWord.isWord (spaced_where hwhere hwhereWord)))
    rw [← hname.unquote_eq, ← hset.unquote_eq, ← hwhere.unquote_eq]
    exact ⟨_, _, rfl, spaced_keyword (by decide) hspaced,
      .update (unquote_of_mem_commands (by decide)) name setName hsetWord.read_eq whereName
        hwhereWord.read_eq⟩
  | @delete table name column value whereName word hname hwhere hword =>
    have hspaced := Token.Spaced.word hname.isWord (spaced_where hwhere hword)
    rw [← hname.unquote_eq, ← hwhere.unquote_eq]
    exact ⟨_, _, rfl, spaced_keyword (by decide) (spaced_keyword (by decide) hspaced),
      .delete (unquote_of_mem_commands (by decide)) name whereName hword.read_eq⟩
  | @info table name hname =>
    have hspaced := Token.Spaced.word hname.isWord .nil
    rw [← hname.unquote_eq]
    exact ⟨_, _, rfl, spaced_keyword (by decide) hspaced,
      .info (unquote_of_mem_commands (by decide)) name⟩

theorem exists_forall₂ {α β : Type} {R : α → β → Prop} {as : List α} :
    (∃ bs, List.Forall₂ R as bs) ↔ ∀ a ∈ as, ∃ b, R a b := by
  induction as with
  | nil => exact ⟨fun _ => nofun, fun _ => ⟨[], .nil⟩⟩
  | cons a as ih =>
    rw [List.forall_mem_cons, ← ih]
    constructor
    · rintro ⟨bs, h⟩
      cases h with
      | cons hb hbs => exact ⟨⟨_, hb⟩, _, hbs⟩
    · rintro ⟨⟨b, hb⟩, bs, hbs⟩
      exact ⟨b :: bs, .cons hb hbs⟩

theorem exists_quoted_words {texts : List String} :
    (∃ words, List.Forall₂ Quoted texts words) ↔ ∀ text ∈ texts, TableStore.Quotable text :=
  exists_forall₂.trans (forall₂_congr fun _ _ => exists_quoted)

theorem exists_spelled_values {values : List Value} :
    (∃ words, List.Forall₂ Value.Spelled values words) ↔ ∀ value ∈ values, value.Quotable :=
  exists_forall₂.trans (forall₂_congr fun _ _ => Value.exists_spelled)

theorem quotableEntry_singleton {column name : String} {value : Value} {word : String}
    (hname : Quoted column name) (hword : value.Spelled word) :
    QuotableEntry (.singleton column value) :=
  ⟨column, value, rfl, exists_quoted.mp ⟨name, hname⟩, Value.exists_spelled.mp ⟨word, hword⟩⟩

theorem QuotableEntry.exists_words {fields : Fields} (h : QuotableEntry fields) :
    ∃ column value name word, fields = .singleton column value ∧ Quoted column name ∧
      Value.Spelled value word := by
  obtain ⟨column, value, hfields, hcolumn, hvalue⟩ := h
  obtain ⟨name, hname⟩ := exists_quoted.mpr hcolumn
  obtain ⟨word, hword⟩ := Value.exists_spelled.mpr hvalue
  exact ⟨column, value, name, word, hfields, hname, hword⟩

theorem Spelled.quotable {s : Statement} {text : String} (h : Spelled s text) : s.Quotable := by
  cases h with
  | createTable hname hwords =>
    exact ⟨exists_quoted.mp ⟨_, hname⟩, exists_quoted_words.mp ⟨_, hwords⟩⟩
  | dropTable hname => exact exists_quoted.mp ⟨_, hname⟩
  | insert hname hwords =>
    exact ⟨exists_quoted.mp ⟨_, hname⟩, exists_spelled_values.mp ⟨_, hwords⟩⟩
  | select hname => exact exists_quoted.mp ⟨_, hname⟩
  | selectWhere hname hwhere hword =>
    exact ⟨exists_quoted.mp ⟨_, hname⟩, quotableEntry_singleton hwhere hword⟩
  | update hname hset hsetWord hwhere hwhereWord =>
    exact ⟨exists_quoted.mp ⟨_, hname⟩, quotableEntry_singleton hset hsetWord,
      quotableEntry_singleton hwhere hwhereWord⟩
  | delete hname hwhere hword =>
    exact ⟨exists_quoted.mp ⟨_, hname⟩, quotableEntry_singleton hwhere hword⟩
  | info hname => exact exists_quoted.mp ⟨_, hname⟩

theorem Quotable.exists_spelled {s : Statement} (h : s.Quotable) : ∃ text, Spelled s text := by
  cases s with
  | createTable table declarations =>
    obtain ⟨name, hname⟩ := exists_quoted.mpr h.1
    obtain ⟨words, hwords⟩ := exists_quoted_words.mpr h.2
    exact ⟨_, .createTable hname hwords⟩
  | dropTable table =>
    obtain ⟨name, hname⟩ := exists_quoted.mpr h
    exact ⟨_, .dropTable hname⟩
  | insert table values =>
    obtain ⟨name, hname⟩ := exists_quoted.mpr h.1
    obtain ⟨words, hwords⟩ := exists_spelled_values.mpr h.2
    exact ⟨_, .insert hname hwords⟩
  | select table condition =>
    cases condition with
    | none =>
      obtain ⟨name, hname⟩ := exists_quoted.mpr h
      exact ⟨_, .select hname⟩
    | some condition =>
      obtain ⟨name, hname⟩ := exists_quoted.mpr h.1
      obtain ⟨column, value, whereName, word, rfl, hwhere, hword⟩ := h.2.exists_words
      exact ⟨_, .selectWhere hname hwhere hword⟩
  | update table assignments condition =>
    obtain ⟨name, hname⟩ := exists_quoted.mpr h.1
    obtain ⟨_, _, _, _, rfl, hset, hsetWord⟩ := h.2.1.exists_words
    obtain ⟨_, _, _, _, rfl, hwhere, hwhereWord⟩ := h.2.2.exists_words
    exact ⟨_, .update hname hset hsetWord hwhere hwhereWord⟩
  | delete table condition =>
    obtain ⟨name, hname⟩ := exists_quoted.mpr h.1
    obtain ⟨_, _, _, _, rfl, hwhere, hword⟩ := h.2.exists_words
    exact ⟨_, .delete hname hwhere hword⟩
  | info table =>
    obtain ⟨name, hname⟩ := exists_quoted.mpr h
    exact ⟨_, .info hname⟩
  | listTables => exact h.elim
  | help => exact h.elim
  | exit => exact h.elim
  | unknown word => exact h.elim

/-- A statement can be written exactly if a kind of quotes is left for each of its texts, and
whatever line it is written as is read as this statement. -/
theorem read_spelled (s : Statement) :
    (s.Quotable ↔ ∃ text, Spelled s text) ∧
    ∀ text, Spelled s text → read text = .ok (some s) := by
  refine ⟨⟨Quotable.exists_spelled, fun ⟨text, h⟩ => h.quotable⟩, fun text h => ?_⟩
  obtain ⟨ts, hts, hwritten⟩ := h.written
  exact read_eq_ok.mpr ⟨.nil, Reading.line_eq_some.mpr ⟨rfl, ts, hts, hwritten⟩⟩

/-- Keywords, symbols, a line break and the other kind of quote stand inside of the quotes. -/
theorem read_spelled_odd_texts :
    Spelled (.insert "it's (a, b) = where\n"
        [.str "", .int Int64.minValue, .str "\"42\"", .bool true])
      "insert into \"it's (a, b) = where\n\" values ('',-9223372036854775808,'\"42\"',true)" ∧
    read "insert into \"it's (a, b) = where\n\" values ('',-9223372036854775808,'\"42\"',true)" =
      .ok (some (.insert "it's (a, b) = where\n"
        [.str "", .int Int64.minValue, .str "\"42\"", .bool true])) := by
  have hspelled : Spelled
      (.insert "it's (a, b) = where\n" [.str "", .int Int64.minValue, .str "\"42\"", .bool true])
      "insert into \"it's (a, b) = where\n\" values ('',-9223372036854775808,'\"42\"',true)" :=
    .insert (@Quoted.between _ '"' (by decide) (by decide))
      (.cons (.str (@Quoted.between _ '\'' (by decide) (by decide))) <| .cons (.int _) <|
        .cons (.str (@Quoted.between _ '\'' (by decide) (by decide))) <| .cons .yes .nil)
  exact ⟨hspelled, (read_spelled _).2 _ hspelled⟩

end Statement
end TableStore
