import GoSync.Lib.SqlText
import GoSync.Server.Statements

/-!
# The texts of row statements

`applyRow` builds a text from the names and types of the columns and passes their values as arguments. Here
the text is read back with PostgreSQL's lexer. The names are those of catalog rows: `columnTypes` finds the
schema, the table and the columns there before a statement is built.
-/

namespace GoSync.Server.Sql

open SqlText (Token Piece)

def quote (name : String) : String :=
  String.ofList (Quoting.enclose '"' name.toList)

section Texts

/-- The text of a placeholder. Its type is `bytea` where the argument is bytes. -/
def valueText (placeholder : Placeholder) (number : Nat) : String :=
  match placeholder.arg with
  | .bytes _ => "$" ++ toString number ++ "::bytea"
  | .text _ => "$" ++ toString number ++ "::text::" ++ placeholder.type

def assignmentText (placeholder : Placeholder) (number : Nat) : String :=
  quote placeholder.name ++ "=" ++ valueText placeholder number

def predicateText (placeholder : Placeholder) (number : Nat) : String :=
  quote placeholder.name ++ " IS NOT DISTINCT FROM " ++ valueText placeholder number

def texts (text : Placeholder → Nat → String) (placeholders : List Placeholder) (start : Nat) : List String :=
  (placeholders.zipIdx start).map fun (placeholder, number) => text placeholder number

def predicates (keys : List Placeholder) (start : Nat) : String :=
  " AND ".intercalate (texts predicateText keys start)

def Command.text (schema table : String) : Command → String
  | .insert values =>
      "INSERT INTO " ++ (quote schema ++ "." ++ quote table) ++ " ("
        ++ ",".intercalate (values.map fun value => quote value.name) ++ ") VALUES ("
        ++ ",".intercalate (texts valueText values 1) ++ ")"
  | .update values keys =>
      "UPDATE " ++ (quote schema ++ "." ++ quote table) ++ " SET "
        ++ ",".intercalate (texts assignmentText values 1) ++ " WHERE ctid IN (SELECT ctid FROM "
        ++ (quote schema ++ "." ++ quote table) ++ " WHERE " ++ predicates keys (values.length + 1)
        ++ " LIMIT 1)"
  | .delete keys =>
      "DELETE FROM " ++ (quote schema ++ "." ++ quote table) ++ " WHERE ctid IN (SELECT ctid FROM "
        ++ (quote schema ++ "." ++ quote table) ++ " WHERE " ++ predicates keys 1 ++ " LIMIT 1)"

def Command.placeholders : Command → List Placeholder
  | .insert values => values
  | .update values keys => values ++ keys
  | .delete keys => keys

def Command.args (command : Command) : List Arg :=
  command.placeholders.map Placeholder.arg

end Texts

section Tokens

def name (text : String) : Token := .quoted text.toList

def word (text : String) : Token := .word text.toList

def typeTokens (type : String) : List Token :=
  (SqlText.lex type.toList).getD []

def valueTokens (placeholder : Placeholder) (number : Nat) : List Token :=
  match placeholder.arg with
  | .bytes _ => [.parameter number, .typecast, word "bytea"]
  | .text _ => [.parameter number, .typecast, word "text", .typecast] ++ typeTokens placeholder.type

def assignmentTokens (placeholder : Placeholder) (number : Nat) : List Token :=
  name placeholder.name :: (SqlText.equals ++ valueTokens placeholder number)

def predicateTokens (placeholder : Placeholder) (number : Nat) : List Token :=
  name placeholder.name :: (SqlText.notDistinct ++ valueTokens placeholder number)

def tokenLists (tokens : Placeholder → Nat → List Token) (placeholders : List Placeholder) (start : Nat) :
    List (List Token) :=
  (placeholders.zipIdx start).map fun (placeholder, number) => tokens placeholder number

def comma : List Token := [.punctuation ',']

def nameTokens (placeholders : List Placeholder) : List Token :=
  comma.intercalate (placeholders.map fun placeholder => [name placeholder.name])

def targetTokens (schema table : String) : List Token :=
  [name schema, .punctuation '.', name table]

def whereTokens (schema table : String) (keys : List Placeholder) (start : Nat) : List Token :=
  [word "where", word "ctid", word "in", .punctuation '(', word "select", word "ctid", word "from"]
    ++ (targetTokens schema table ++ ([word "where"]
    ++ ([word "and"].intercalate (tokenLists predicateTokens keys start)
    ++ [word "limit", .integer 1, .punctuation ')'])))

def Command.tokens (schema table : String) : Command → List Token
  | .insert values =>
      [word "insert", word "into"] ++ (targetTokens schema table ++ ([.punctuation '(']
        ++ (nameTokens values ++ ([.punctuation ')', word "values", .punctuation '(']
        ++ (comma.intercalate (tokenLists valueTokens values 1) ++ [.punctuation ')'])))))
  | .update values keys =>
      [word "update"] ++ (targetTokens schema table ++ ([word "set"]
        ++ (comma.intercalate (tokenLists assignmentTokens values 1)
        ++ whereTokens schema table keys (values.length + 1))))
  | .delete keys =>
      [word "delete", word "from"] ++ (targetTokens schema table ++ whereTokens schema table keys 1)

end Tokens

section Catalog

def IsName (text : String) : Prop :=
  text ≠ "" ∧ identifier text = text

/-- A type as `format_type` writes it: whole tokens without a parameter, before a blank, a comma or a
closing bracket. -/
structure IsType (type : String) : Prop where
  piece : ∃ first, Piece first (fun c => c = ' ' ∨ c = ',' ∨ c = ')') type.toList (typeTokens type)
  parameters : SqlText.parameters (typeTokens type) = []

structure Catalog where
  schema : String
  columns : String → List (String × String)
  named : ∀ table, columns table ≠ [] → IsName schema ∧ IsName table
  typed : ∀ table, ∀ column ∈ columns table, IsName column.1 ∧ IsType column.2

def Catalog.columnTypes (catalog : Catalog) (table : String) : Except TargetError (List (String × String)) :=
  if catalog.columns table = [] then .error (.missingTable table) else .ok (catalog.columns table)

structure Known (placeholder : Placeholder) : Prop where
  name : IsName placeholder.name
  type : IsType placeholder.type

end Catalog

variable {placeholders : List Placeholder} {tokens : Placeholder → Nat → List Token}

section Pieces

variable {placeholder : Placeholder} {number : Nat}

def Ends (c : Char) : Prop := c = ' ' ∨ c = ',' ∨ c = ')'

theorem toList_quote (text : String) : (quote text).toList = Quoting.enclose '"' text.toList :=
  String.toList_ofList

theorem quote_piece {text : String} (h : IsName text) :
    Piece '"' (· ≠ '"') (quote text).toList [name text] := by
  rw [toList_quote]
  refine Piece.enclose ?_ ?_
  · exact fun hnil => h.1 (String.toList_eq_nil_iff.mp hnil)
  · have hclip := congrArg String.toList h.2
    rwa [identifier, String.toList_ofList] at hclip

theorem toList_valueText : (valueText placeholder number).toList = '$' :: Nat.toDigits 10 number
    ++ match placeholder.arg with
      | .bytes _ => "::bytea".toList
      | .text _ => "::text::".toList ++ placeholder.type.toList := by
  unfold valueText
  cases placeholder.arg <;> simp [Nat.repr]

theorem value_piece (number : Nat) (htype : IsType placeholder.type) :
    Piece '$' Ends (valueText placeholder number).toList (valueTokens placeholder number) := by
  rw [toList_valueText, valueTokens]
  have hnumber := Piece.parameter number
  cases placeholder.arg with
  | bytes value =>
      have hscan : "::bytea".toList.head? = some ':'
          ∧ SqlText.scan .blank "::bytea".toList = some ([.typecast], .word "bytea".toList) := by
        decide
      refine (hnumber.append (Piece.of_word hscan) rfl).mono ?_
      rintro c (rfl | rfl | rfl) <;> decide
  | text value =>
      have hcast : Piece ':' (fun _ => True) "::text::".toList [.typecast, word "text", .typecast] :=
        Piece.of_blank (by decide)
      obtain ⟨first, hpiece⟩ := htype.piece
      exact hnumber.append (hcast.append hpiece trivial) rfl

theorem assignment_piece (number : Nat) (h : Known placeholder) :
    Piece '"' Ends (assignmentText placeholder number).toList (assignmentTokens placeholder number) := by
  have hequals : Piece '=' (· = '$') "=".toList SqlText.equals :=
    ⟨by decide, [], .operator ['='], SqlText.equals, by decide, rfl, by rintro c rfl; decide, rfl⟩
  rw [assignmentText, String.toList_append, String.toList_append, List.append_assoc]
  exact (quote_piece h.name).append (hequals.append (value_piece number h.type) rfl) (by decide)

theorem predicate_piece (number : Nat) (h : Known placeholder) :
    Piece '"' Ends (predicateText placeholder number).toList (predicateTokens placeholder number) := by
  have hrelation : Piece ' ' (fun _ => True) " IS NOT DISTINCT FROM ".toList SqlText.notDistinct :=
    Piece.of_blank (by decide)
  rw [predicateText, String.toList_append, String.toList_append, List.append_assoc]
  exact (quote_piece h.name).append (hrelation.append (value_piece number h.type) trivial) (by decide)

theorem target_piece {schema table : String} (hschema : IsName schema) (htable : IsName table) :
    Piece '"' (· ≠ '"') (quote schema ++ "." ++ quote table).toList (targetTokens schema table) := by
  have hdot : Piece '.' (· = '"') ".".toList [.punctuation '.'] :=
    ⟨by decide, [], .dot, [.punctuation '.'], by decide, rfl, by rintro c rfl; decide, rfl⟩
  rw [String.toList_append, String.toList_append, List.append_assoc]
  exact (quote_piece hschema).append (hdot.append (quote_piece htable) rfl) (by decide)

theorem texts_piece (start : Nat) {text : Placeholder → Nat → String}
    {a b : Char} {separator : String} {between : List Token}
    (hknown : ∀ placeholder ∈ placeholders, Known placeholder)
    (hne : placeholders ≠ []) (hseparator : Piece b (fun _ => True) separator.toList between)
    (hends : Ends b) (hpiece : ∀ placeholder number, Known placeholder →
      Piece a Ends (text placeholder number).toList (tokens placeholder number)) :
    Piece a Ends (separator.intercalate (texts text placeholders start)).toList
      (between.intercalate (tokenLists tokens placeholders start)) := by
  have hitems : ∀ item ∈ placeholders.zipIdx start,
      Piece a Ends (text item.1 item.2).toList (tokens item.1 item.2) := fun item hitem =>
    hpiece item.1 item.2 (hknown item.1 (List.fst_mem_of_mem_zipIdx hitem))
  have hjoined := Piece.join hitems hseparator hends (by simpa using hne)
  simpa only [String.toList_intercalate, texts, tokenLists, List.map_map, Function.comp_def] using hjoined

theorem comma_piece : Piece ',' (fun _ => True) ",".toList comma :=
  Piece.of_blank (by decide)

section Statements

variable {schema table : String} {values keys : List Placeholder}

theorem where_piece (start : Nat) (hschema : IsName schema) (htable : IsName table)
    (hkeys : ∀ key ∈ keys, Known key) (hne : keys ≠ []) :
    Piece ' ' (fun _ => True) (" WHERE ctid IN (SELECT ctid FROM ".toList
        ++ ((quote schema ++ "." ++ quote table).toList ++ (" WHERE ".toList
        ++ ((predicates keys start).toList ++ " LIMIT 1)".toList))))
      (whereTokens schema table keys start) := by
  have hopen : Piece ' ' (fun _ => True) " WHERE ctid IN (SELECT ctid FROM ".toList
      [word "where", word "ctid", word "in", .punctuation '(', word "select", word "ctid", word "from"] :=
    Piece.of_blank (by decide)
  have hwhere : Piece ' ' (fun _ => True) " WHERE ".toList [word "where"] := Piece.of_blank (by decide)
  have hlimit : Piece ' ' (fun _ => True) " LIMIT 1)".toList
      [word "limit", .integer 1, .punctuation ')'] := Piece.of_blank (by decide)
  have hand : Piece ' ' (fun _ => True) " AND ".toList [word "and"] := Piece.of_blank (by decide)
  have hpredicates := texts_piece start hkeys hne hand (.inl rfl)
    fun key number hknown => predicate_piece number hknown
  have hlast := hpredicates.append hlimit (.inl rfl)
  have hrest := (target_piece hschema htable).append (hwhere.append hlast trivial) (by decide)
  exact hopen.append hrest trivial

theorem toList_insert : ((Command.insert values).text schema table).toList = "INSERT INTO ".toList
    ++ ((quote schema ++ "." ++ quote table).toList ++ (" (".toList
    ++ (",".toList.intercalate (values.map fun value => (quote value.name).toList)
    ++ (") VALUES (".toList ++ ((",".intercalate (texts valueText values 1)).toList ++ ")".toList))))) := by
  change ("INSERT INTO " ++ (quote schema ++ "." ++ quote table) ++ " ("
    ++ ",".intercalate (values.map fun value => quote value.name) ++ ") VALUES ("
    ++ ",".intercalate (texts valueText values 1) ++ ")").toList = _
  simp only [String.toList_append, String.toList_intercalate, List.map_map, Function.comp_def,
    List.append_assoc]

theorem toList_update : ((Command.update values keys).text schema table).toList = "UPDATE ".toList
    ++ ((quote schema ++ "." ++ quote table).toList ++ (" SET ".toList
    ++ ((",".intercalate (texts assignmentText values 1)).toList
    ++ (" WHERE ctid IN (SELECT ctid FROM ".toList ++ ((quote schema ++ "." ++ quote table).toList
    ++ (" WHERE ".toList ++ ((predicates keys (values.length + 1)).toList ++ " LIMIT 1)".toList))))))) := by
  change ("UPDATE " ++ (quote schema ++ "." ++ quote table) ++ " SET "
    ++ ",".intercalate (texts assignmentText values 1) ++ " WHERE ctid IN (SELECT ctid FROM "
    ++ (quote schema ++ "." ++ quote table) ++ " WHERE " ++ predicates keys (values.length + 1)
    ++ " LIMIT 1)").toList = _
  simp only [String.toList_append, List.append_assoc]

theorem toList_delete : ((Command.delete keys).text schema table).toList = "DELETE FROM ".toList
    ++ ((quote schema ++ "." ++ quote table).toList
    ++ (" WHERE ctid IN (SELECT ctid FROM ".toList ++ ((quote schema ++ "." ++ quote table).toList
    ++ (" WHERE ".toList ++ ((predicates keys 1).toList ++ " LIMIT 1)".toList))))) := by
  change ("DELETE FROM " ++ (quote schema ++ "." ++ quote table) ++ " WHERE ctid IN (SELECT ctid FROM "
    ++ (quote schema ++ "." ++ quote table) ++ " WHERE " ++ predicates keys 1 ++ " LIMIT 1)").toList = _
  simp only [String.toList_append, List.append_assoc]

/-- The text of an insert is read back as its tokens. -/
theorem insert_piece (hschema : IsName schema) (htable : IsName table)
    (hvalues : ∀ value ∈ values, Known value) (hne : values ≠ []) :
    Piece 'I' (fun _ => True) ((Command.insert values).text schema table).toList
      ((Command.insert values).tokens schema table) := by
  have hinsert : Piece 'I' (fun _ => True) "INSERT INTO ".toList [word "insert", word "into"] :=
    Piece.of_blank (by decide)
  have hopen : Piece ' ' (fun _ => True) " (".toList [.punctuation '('] := Piece.of_blank (by decide)
  have hmiddle : Piece ')' (fun _ => True) ") VALUES (".toList
      [.punctuation ')', word "values", .punctuation '('] := Piece.of_blank (by decide)
  have hclose : Piece ')' (fun _ => True) ")".toList [.punctuation ')'] := Piece.of_blank (by decide)
  have htexts := texts_piece 1 hvalues hne comma_piece (.inr (.inl rfl))
    fun value number hknown => value_piece number hknown.type
  have hnames : ∀ value ∈ values, Piece '"' (· ≠ '"') (quote value.name).toList [name value.name] :=
    fun value hvalue => quote_piece (hvalues value hvalue).name
  have hlist := Piece.join hnames comma_piece (by decide) hne
  have hlast := hmiddle.append (htexts.append hclose (.inr (.inr rfl))) trivial
  have hlists := hopen.append (hlist.append hlast (by decide)) trivial
  have hwhole := hinsert.append ((target_piece hschema htable).append hlists (by decide)) trivial
  rw [toList_insert]
  exact hwhole

theorem update_piece (hschema : IsName schema) (htable : IsName table)
    (hvalues : ∀ value ∈ values, Known value) (hne : values ≠ []) (hkeys : ∀ key ∈ keys, Known key)
    (hne' : keys ≠ []) :
    Piece 'U' (fun _ => True) ((Command.update values keys).text schema table).toList
      ((Command.update values keys).tokens schema table) := by
  have hupdate : Piece 'U' (fun _ => True) "UPDATE ".toList [word "update"] := Piece.of_blank (by decide)
  have hset : Piece ' ' (fun _ => True) " SET ".toList [word "set"] := Piece.of_blank (by decide)
  have htexts := texts_piece 1 hvalues hne comma_piece (.inr (.inl rfl))
    fun value number hknown => assignment_piece number hknown
  have hassigned := htexts.append (where_piece (values.length + 1) hschema htable hkeys hne') (.inl rfl)
  have htarget := (target_piece hschema htable).append (hset.append hassigned trivial) (by decide)
  rw [toList_update]
  exact hupdate.append htarget trivial

theorem delete_piece (hschema : IsName schema) (htable : IsName table) (hkeys : ∀ key ∈ keys, Known key)
    (hne : keys ≠ []) :
    Piece 'D' (fun _ => True) ((Command.delete keys).text schema table).toList
      ((Command.delete keys).tokens schema table) := by
  have hdelete : Piece 'D' (fun _ => True) "DELETE FROM ".toList [word "delete", word "from"] :=
    Piece.of_blank (by decide)
  have htarget := (target_piece hschema htable).append (where_piece 1 hschema htable hkeys hne) (by decide)
  rw [toList_delete]
  exact hdelete.append htarget trivial

end Statements

end Pieces

variable {placeholder : Placeholder}

section Reading

open SqlText (parameters uses quotedNames listed bindings)

variable {schema table : String} {values keys : List Placeholder}

theorem parameters_valueTokens (number : Nat) (htype : IsType placeholder.type) :
    parameters (valueTokens placeholder number) = [number] := by
  unfold valueTokens
  cases placeholder.arg with
  | bytes value => rfl
  | text value => simp [parameters, htype.parameters, word]

theorem parameters_intercalate {between : List Token} (start : Nat) (hbetween : parameters between = [])
    (htokens : ∀ placeholder ∈ placeholders, ∀ number, parameters (tokens placeholder number) = [number]) :
    parameters (between.intercalate (tokenLists tokens placeholders start))
      = List.range' start placeholders.length := by
  induction placeholders generalizing start with
  | nil => rfl
  | cons placeholder rest ih =>
      obtain ⟨hfirst, hrest⟩ := List.forall_mem_cons.mp htokens
      cases rest with
      | nil => simpa [tokenLists, List.intercalate] using hfirst start
      | cons other rest =>
          have hjoined : between.intercalate (tokenLists tokens (placeholder :: other :: rest) start)
              = tokens placeholder start
                ++ (between ++ between.intercalate (tokenLists tokens (other :: rest) (start + 1))) := by
            simp [tokenLists, List.intercalate]
          rw [hjoined, SqlText.parameters_append, SqlText.parameters_append, hfirst, hbetween, ih _ hrest]
          rfl

theorem parameters_whereTokens (start : Nat) (hkeys : ∀ key ∈ keys, Known key) :
    parameters (whereTokens schema table keys start) = List.range' start keys.length := by
  have hlist : parameters ([word "and"].intercalate (tokenLists predicateTokens keys start))
      = List.range' start keys.length := by
    refine parameters_intercalate start rfl fun key hkey number => ?_
    exact parameters_valueTokens number (hkeys key hkey).type
  unfold whereTokens
  simp only [SqlText.parameters_append, hlist]
  exact List.append_nil _

theorem nameTokens_cons (value other : Placeholder) (rest : List Placeholder) :
    nameTokens (value :: other :: rest) = [name value.name] ++ (comma ++ nameTokens (other :: rest)) := by
  simp [nameTokens, List.intercalate]

theorem parameters_nameTokens (values : List Placeholder) : parameters (nameTokens values) = [] := by
  induction values with
  | nil => rfl
  | cons value rest ih =>
      cases rest with
      | nil => rfl
      | cons other rest =>
          rw [nameTokens_cons, SqlText.parameters_append, SqlText.parameters_append, ih]
          rfl

/-- The numbers in the text are those of the arguments, in order. -/
theorem parameters_tokens {command : Command}
    (hknown : ∀ placeholder ∈ command.placeholders, Known placeholder) :
    parameters (command.tokens schema table) = List.range' 1 command.args.length := by
  rw [Command.args, List.length_map]
  cases command with
  | insert values =>
      have hvalues : parameters (comma.intercalate (tokenLists valueTokens values 1))
          = List.range' 1 values.length :=
        parameters_intercalate 1 rfl fun value hvalue number =>
          parameters_valueTokens number (hknown value hvalue).type
      unfold Command.tokens
      simp only [SqlText.parameters_append, parameters_nameTokens, hvalues]
      exact List.append_nil _
  | update values keys =>
      obtain ⟨hknownValues, hknownKeys⟩ := List.forall_mem_append.mp hknown
      have hvalues : parameters (comma.intercalate (tokenLists assignmentTokens values 1))
          = List.range' 1 values.length :=
        parameters_intercalate 1 rfl fun value hvalue number =>
          parameters_valueTokens number (hknownValues value hvalue).type
      unfold Command.tokens
      simp only [SqlText.parameters_append, hvalues, parameters_whereTokens _ hknownKeys]
      change List.range' 1 values.length ++ List.range' (values.length + 1) keys.length
        = List.range' 1 (values ++ keys).length
      rw [List.length_append, Nat.add_comm values.length 1, List.range'_append_1]
  | delete keys =>
      have hkeys : ∀ key ∈ keys, Known key := hknown
      unfold Command.tokens
      simp only [SqlText.parameters_append, parameters_whereTokens _ hkeys]
      rfl

def bound (placeholders : List Placeholder) (start : Nat) : List (List Char × Nat) :=
  (placeholders.zipIdx start).map fun (placeholder, number) => (placeholder.name.toList, number)

structure Stops (token : Token) : Prop where
  comparator : SqlText.isComparator token = false
  parameter : ∀ number, token ≠ .parameter number
  quoted : ∀ name, token ≠ .quoted name

theorem Stops.uses_cons {token : Token} (h : Stops token) (rest : List Token) :
    uses (token :: rest) = uses rest := by
  cases token with
  | quoted name => exact absurd rfl (h.quoted name)
  | _ => rfl

variable {number : Nat}

theorem uses_valueTokens {token : Token} {rest : List Token}
    (htype : IsType placeholder.type) (htoken : Stops token) :
    ∃ tail, valueTokens placeholder number = .parameter number :: tail
      ∧ uses (tail ++ token :: rest) = uses rest := by
  unfold valueTokens
  cases placeholder.arg with
  | bytes value => exact ⟨_, rfl, htoken.uses_cons rest⟩
  | text value =>
      refine ⟨_, rfl, ?_⟩
      rw [SqlText.uses_append ?_ htoken.comparator htoken.parameter, htoken.uses_cons]
      simpa [parameters, word] using htype.parameters

theorem uses_assignmentTokens {token : Token} {rest : List Token}
    (h : Known placeholder) (htoken : Stops token) :
    uses (assignmentTokens placeholder number ++ token :: rest)
      = (placeholder.name.toList, number) :: uses rest := by
  obtain ⟨tail, htail, huses⟩ := @uses_valueTokens _ number token rest h.type htoken
  rw [assignmentTokens, htail, List.cons_append, List.append_assoc, List.cons_append]
  exact (SqlText.uses_equals _ number _).trans (congrArg _ huses)

theorem uses_predicateTokens {token : Token} {rest : List Token}
    (h : Known placeholder) (htoken : Stops token) :
    uses (predicateTokens placeholder number ++ token :: rest)
      = (placeholder.name.toList, number) :: uses rest := by
  obtain ⟨tail, htail, huses⟩ := @uses_valueTokens _ number token rest h.type htoken
  rw [predicateTokens, htail, List.cons_append, List.append_assoc, List.cons_append]
  exact (SqlText.uses_notDistinct _ number _).trans (congrArg _ huses)

theorem uses_intercalate {between token : Token}
    {rest : List Token} (start : Nat) (hbetween : Stops between) (htoken : Stops token)
    (htokens : ∀ placeholder ∈ placeholders, ∀ number token rest, Stops token →
      uses (tokens placeholder number ++ token :: rest) = (placeholder.name.toList, number) :: uses rest) :
    uses ([between].intercalate (tokenLists tokens placeholders start) ++ token :: rest)
      = bound placeholders start ++ uses rest := by
  induction placeholders generalizing start with
  | nil => exact htoken.uses_cons rest
  | cons placeholder others ih =>
      obtain ⟨hfirst, hrest⟩ := List.forall_mem_cons.mp htokens
      cases others with
      | nil => simpa [tokenLists, List.intercalate, bound] using hfirst start token rest htoken
      | cons other others =>
          have hjoined : [between].intercalate (tokenLists tokens (placeholder :: other :: others) start)
                ++ token :: rest
              = tokens placeholder start ++ between
                :: ([between].intercalate (tokenLists tokens (other :: others) (start + 1))
                  ++ token :: rest) := by
            simp [tokenLists, List.intercalate]
          rw [hjoined, hfirst _ _ _ hbetween, ih _ hrest]
          rfl

theorem word_stops {text : String} (h : SqlText.isComparator (word text) = false) : Stops (word text) :=
  ⟨h, fun _ heq => Token.noConfusion heq, fun _ heq => Token.noConfusion heq⟩

theorem uses_whereTokens (start : Nat) (hkeys : ∀ key ∈ keys, Known key) :
    uses (whereTokens schema table keys start) = bound keys start := by
  have hlist : uses ([word "and"].intercalate (tokenLists predicateTokens keys start)
      ++ [word "limit", .integer 1, .punctuation ')']) = bound keys start ++ [] :=
    uses_intercalate start (word_stops (by decide)) (word_stops (by decide))
      fun key hkey _ _ _ hstops => uses_predicateTokens (hkeys key hkey) hstops
  rw [List.append_nil] at hlist
  -- Neither the key words nor the name of the table come to a comparison.
  rw [← hlist]
  rfl

theorem quotedNames_nameTokens (values : List Placeholder) :
    quotedNames (nameTokens values) = values.map fun value => value.name.toList := by
  induction values with
  | nil => rfl
  | cons value rest ih =>
      cases rest with
      | nil => rfl
      | cons other rest =>
          rw [nameTokens_cons, SqlText.quotedNames_append, SqlText.quotedNames_append, ih]
          rfl

theorem nameTokens_ne_bracket (values : List Placeholder) :
    ∀ token ∈ nameTokens values, token ≠ .punctuation ')' := by
  induction values with
  | nil => exact fun token htoken => absurd htoken List.not_mem_nil
  | cons value rest ih =>
      cases rest with
      | nil => simp [nameTokens, List.intercalate, name]
      | cons other rest =>
          rw [nameTokens_cons]
          intro token htoken
          rcases List.mem_append.mp htoken with hname | hrest
          · rw [List.mem_singleton.mp hname]
            exact fun heq => Token.noConfusion heq
          · rcases List.mem_append.mp hrest with hcomma | hmore
            · rw [List.mem_singleton.mp hcomma]
              decide
            · exact ih token hmore

theorem listed_insert (values : List Placeholder) :
    listed ((Command.insert values).tokens schema table) = values.map fun value => value.name.toList := by
  have hopened : ((Command.insert values).tokens schema table).dropWhile (· ≠ .punctuation '(')
      = Token.punctuation '(' :: (nameTokens values
        ++ ([Token.punctuation ')', word "values", .punctuation '(']
        ++ (comma.intercalate (tokenLists valueTokens values 1) ++ [.punctuation ')']))) := by
    rfl
  have hinside : (nameTokens values ++ ([Token.punctuation ')', word "values", .punctuation '(']
        ++ (comma.intercalate (tokenLists valueTokens values 1) ++ [Token.punctuation ')']))).takeWhile
          (· ≠ Token.punctuation ')') = nameTokens values := by
    rw [List.takeWhile_append_of_pos (by simpa using nameTokens_ne_bracket values)]
    exact List.append_nil _
  rw [listed, hopened, List.takeWhile_cons_of_pos (by decide), hinside, quotedNames]
  · exact quotedNames_nameTokens values
  · exact fun _ heq => Token.noConfusion heq

/-- The text binds the placeholders in order, starting at one. -/
theorem bindings_tokens {command : Command}
    (hknown : ∀ placeholder ∈ command.placeholders, Known placeholder) :
    bindings (command.tokens schema table) = bound command.placeholders 1 := by
  cases command with
  | insert values =>
      have hparameters : parameters ((Command.insert values).tokens schema table)
          = List.range' 1 values.length := by
        rw [parameters_tokens hknown, Command.args, List.length_map]
        rfl
      have hinsert : ((Command.insert values).tokens schema table).head? = some (.word "insert".toList) := rfl
      rw [bindings, if_pos hinsert, listed_insert, hparameters, bound, Command.placeholders,
        List.zipIdx_eq_zip_range', List.zip_map_left]
      rfl
  | update values keys =>
      obtain ⟨hknownValues, hknownKeys⟩ := List.forall_mem_append.mp hknown
      have hwhere := @uses_whereTokens schema table keys (values.length + 1) hknownKeys
      have hcomma : Stops (.punctuation ',') :=
        ⟨by decide, fun _ heq => Token.noConfusion heq, fun _ heq => Token.noConfusion heq⟩
      -- The key word after the assignments is the first token of the condition.
      have hassigned : uses (comma.intercalate (tokenLists assignmentTokens values 1)
          ++ word "where" :: (whereTokens schema table keys (values.length + 1)).tail)
          = bound values 1 ++ uses (whereTokens schema table keys (values.length + 1)).tail :=
        uses_intercalate 1 hcomma (word_stops (by decide))
          fun value hvalue _ _ _ hstops => uses_assignmentTokens (hknownValues value hvalue) hstops
      have hupdate : ((Command.update values keys).tokens schema table).head?
          ≠ some (.word "insert".toList) := fun heq => absurd (Option.some.inj heq) (by decide)
      rw [bindings, if_neg hupdate]
      calc
        uses ((Command.update values keys).tokens schema table)
          = bound values 1 ++ uses (whereTokens schema table keys (values.length + 1)).tail := hassigned
        _ = bound values 1 ++ bound keys (values.length + 1) := by
          rw [← hwhere]
          rfl
        _ = bound (values ++ keys) 1 := by
          rw [bound, bound, bound, List.zipIdx_append, List.map_append, Nat.add_comm values.length 1]
  | delete keys =>
      have hkeys : ∀ key ∈ keys, Known key := hknown
      have hdelete : ((Command.delete keys).tokens schema table).head? ≠ some (.word "insert".toList) :=
        fun heq => absurd (Option.some.inj heq) (by decide)
      rw [bindings, if_neg hdelete]
      exact uses_whereTokens 1 hkeys

end Reading

section Rows

variable {cfg : Syncer} {row : Row}

/-- What the target has for a column of a row event: the column, or the source column of an embedded file and
its content column. -/
inductive Carries (cfg : Syncer) (row : Row) (column : Column) : List AppliedColumn → Prop
  | plain (h : cfg.fileMapping row.schema row.table column.name = none ∨ column.encoding ≠ "base64") :
      Carries cfg row column [{ name := column.name, value := .text column.value }]
  | file {content : String} (decoded : Option (List UInt8))
      (hmapping : cfg.fileMapping row.schema row.table column.name = some content)
      (hencoding : column.encoding = "base64") (hvalue : column.value.map base64Decode = decoded.map some) :
      Carries cfg row column [{ name := column.name, value := .text column.sourceValue },
        { name := content, value := .bytes decoded, binary := true }]

variable {applied : List AppliedColumn}

theorem appliedColumns_carries {column : Column}
    (h : appliedColumns cfg row column = .ok applied) : Carries cfg row column applied := by
  unfold appliedColumns at h
  split at h
  · rename_i hmapping
    cases h
    exact .plain (.inl hmapping)
  · rename_i content hmapping
    split_ifs at h with hencoding
    · split at h
      · rename_i hvalue
        cases h
        exact .file none hmapping hencoding (by rw [hvalue]; rfl)
      · rename_i value hvalue
        split at h
        · cases h
        · rename_i decoded hdecoded
          cases h
          exact .file (some decoded) hmapping hencoding (by rw [hvalue, Option.map_some, hdecoded]; rfl)
    · cases h
      exact .plain (.inr hencoding)

theorem transform_carries {columns : List Column} (h : transform cfg row columns = .ok applied) :
    ∃ parts, List.Forall₂ (Carries cfg row) columns parts ∧ applied = parts.flatten := by
  induction columns generalizing applied with
  | nil =>
      cases h
      exact ⟨[], .nil, rfl⟩
  | cons column columns ih =>
      rw [transform] at h
      obtain ⟨first, hfirst, h⟩ := Except.bind_eq_ok.mp h
      obtain ⟨rest, hrest, h⟩ := Except.bind_eq_ok.mp h
      cases h
      obtain ⟨parts, hparts, rfl⟩ := ih hrest
      exact ⟨first :: parts, .cons (appliedColumns_carries hfirst) hparts, rfl⟩

/-- A placeholder for a column: its name, its type and its value, which is decoded where the column is
`bytea`. -/
structure Holds (types : List (String × String)) (column : AppliedColumn) (placeholder : Placeholder) :
    Prop where
  name : placeholder.name = column.name
  type : types.lookup column.name = some placeholder.type
  arg : argument placeholder.type column = .ok placeholder.arg

variable {types : List (String × String)} {columns : List AppliedColumn}

theorem expressions_holds (h : expressions types columns = .ok placeholders) :
    List.Forall₂ (Holds types) columns placeholders := by
  refine (Except.mapM_eq_ok_iff.mp h).imp ?_
  intro column placeholder hcolumn
  unfold expression at hcolumn
  split at hcolumn
  · cases hcolumn
  · rename_i type htype
    obtain ⟨arg, harg, hcolumn⟩ := Except.bind_eq_ok.mp hcolumn
    cases hcolumn
    exact ⟨rfl, htype, harg⟩

def writes (row : Row) : List Column :=
  match row.operation with
  | .read | .insert => row.columns
  | .update => row.columns ++ keySource row
  | _ => keySource row

/-- A command with a placeholder for each column of an event that it needs. -/
structure Prepared (cfg : Syncer) (catalog : Catalog) (row : Row) (command : Command)
    (applied : List AppliedColumn) : Prop where
  columns : catalog.columns row.table ≠ []
  parts : ∃ parts, List.Forall₂ (Carries cfg row) (writes row) parts ∧ applied = parts.flatten
  placeholders : List.Forall₂ (Holds (catalog.columns row.table)) applied command.placeholders
  nonempty : match command with
    | .insert values => values ≠ []
    | .update values keys => values ≠ [] ∧ keys ≠ []
    | .delete keys => keys ≠ []

variable {catalog : Catalog} {issued : Command}

/-- A command that is issued is prepared from the row and the catalog. -/
theorem command_prepared (h : command cfg catalog.columnTypes row = .ok issued) :
    ∃ applied, Prepared cfg catalog row issued applied := by
  unfold command at h
  split at h
  · cases h
  obtain ⟨types, htypes, h⟩ := Except.bind_eq_ok.mp h
  obtain ⟨columns, hcolumns, h⟩ := Except.bind_eq_ok.mp h
  obtain ⟨keys, hkeys, h⟩ := Except.bind_eq_ok.mp h
  obtain ⟨hexists, rfl⟩ : catalog.columns row.table ≠ [] ∧ catalog.columns row.table = types := by
    unfold Catalog.columnTypes at htypes
    split_ifs at htypes with hempty
    exact ⟨hempty, Except.ok.inj htypes⟩
  obtain ⟨parts, hparts, rfl⟩ := transform_carries hcolumns
  obtain ⟨keyParts, hkeyParts, rfl⟩ := transform_carries hkeys
  have hnonempty : ∀ {applied : List AppliedColumn} {placeholders : List Placeholder},
      List.Forall₂ (Holds (catalog.columns row.table)) applied placeholders → applied ≠ [] →
        placeholders ≠ [] := by
    intro applied placeholders hholds hne hnil
    subst hnil
    exact hne (List.forall₂_nil_right_iff.mp hholds)
  cases hoperation : row.operation with
  | read | insert =>
      rw [hoperation] at h
      dsimp only at h
      split_ifs at h with hempty
      obtain ⟨values, hvalues, h⟩ := Except.bind_eq_ok.mp h
      cases h
      have hholds := expressions_holds hvalues
      refine ⟨_, hexists, ⟨parts, ?_, rfl⟩, hholds, hnonempty hholds hempty⟩
      simpa only [writes, hoperation] using hparts
  | update =>
      rw [hoperation] at h
      dsimp only at h
      split_ifs at h with hempty
      rw [not_or] at hempty
      obtain ⟨values, hvalues, h⟩ := Except.bind_eq_ok.mp h
      obtain ⟨conditions, hconditions, h⟩ := Except.bind_eq_ok.mp h
      cases h
      have hholds := expressions_holds hvalues
      have hholds' := expressions_holds hconditions
      refine ⟨_, hexists, ⟨parts ++ keyParts, ?_, rfl⟩, ?_,
        hnonempty hholds hempty.1, hnonempty hholds' hempty.2⟩
      · have hwrites : writes row = row.columns ++ keySource row := by simp only [writes, hoperation]
        rw [hwrites]
        exact List.rel_append hparts hkeyParts
      · rw [List.flatten_append]
        exact List.rel_append hholds hholds'
  | delete =>
      rw [hoperation] at h
      dsimp only at h
      split_ifs at h with hempty
      obtain ⟨conditions, hconditions, h⟩ := Except.bind_eq_ok.mp h
      cases h
      have hholds := expressions_holds hconditions
      have hwrites : writes row = keySource row := by simp only [writes, hoperation]
      exact ⟨_, hexists, ⟨keyParts, hwrites ▸ hkeyParts, rfl⟩, hholds, hnonempty hholds hempty⟩
  | other name =>
      rw [hoperation] at h
      cases h

theorem bound_eq {start : Nat} (h : List.Forall₂ (Holds types) columns placeholders) :
    bound placeholders start
      = (columns.zipIdx start).map fun (column, number) => (column.name.toList, number) := by
  induction h generalizing start with
  | nil => rfl
  | cons hfirst _ ih =>
      exact List.cons_eq_cons.mpr ⟨congrArg (fun name : String => (name.toList, start)) hfirst.name, ih⟩

theorem holds_of_mem
    (h : List.Forall₂ (Holds types) columns placeholders) (hmem : placeholder ∈ placeholders) :
    ∃ column, Holds types column placeholder := by
  induction h with
  | nil => cases hmem
  | cons hfirst _ ih =>
      rcases List.mem_cons.mp hmem with rfl | hrest
      · exact ⟨_, hfirst⟩
      · exact ih hrest

theorem Prepared.known (h : Prepared cfg catalog row issued applied) :
    ∀ placeholder ∈ issued.placeholders, Known placeholder := by
  intro placeholder hmem
  obtain ⟨column, hholds⟩ := holds_of_mem h.placeholders hmem
  obtain ⟨before, after, hcolumns, -⟩ := List.lookup_eq_some_iff.mp hholds.type
  obtain ⟨hname, htype⟩ := catalog.typed row.table (column.name, placeholder.type) (by
    rw [hcolumns]
    exact List.mem_append_right _ List.mem_cons_self)
  exact ⟨hholds.name ▸ hname, htype⟩

theorem Prepared.piece (h : Prepared cfg catalog row issued applied) :
    ∃ first, Piece first (fun _ => True) (issued.text catalog.schema row.table).toList
      (issued.tokens catalog.schema row.table) := by
  obtain ⟨hschema, htable⟩ := catalog.named row.table h.columns
  have hknown := h.known
  have hnonempty := h.nonempty
  cases issued with
  | insert values => exact ⟨_, insert_piece hschema htable hknown hnonempty⟩
  | update values keys =>
      obtain ⟨hvalues, hkeys⟩ := List.forall_mem_append.mp hknown
      exact ⟨_, update_piece hschema htable hvalues hnonempty.1 hkeys hnonempty.2⟩
  | delete keys => exact ⟨_, delete_piece hschema htable hknown hnonempty⟩

end Rows

section Values

def Placeholder.mapArg (values : Arg → Arg) (placeholder : Placeholder) : Placeholder :=
  { placeholder with arg := values placeholder.arg }

def Command.mapArgs (values : Arg → Arg) : Command → Command
  | .insert placeholders => .insert (placeholders.map (Placeholder.mapArg values))
  | .update placeholders keys =>
      .update (placeholders.map (Placeholder.mapArg values)) (keys.map (Placeholder.mapArg values))
  | .delete keys => .delete (keys.map (Placeholder.mapArg values))

def isBytes : Arg → Bool
  | .bytes _ => true
  | .text _ => false

variable {values : Arg → Arg}

theorem valueText_mapArg (hkind : ∀ arg, isBytes (values arg) = isBytes arg) (placeholder : Placeholder)
    (number : Nat) : valueText (Placeholder.mapArg values placeholder) number = valueText placeholder number := by
  obtain ⟨name, type, arg⟩ := placeholder
  have hsame := hkind arg
  unfold valueText Placeholder.mapArg
  cases arg <;> cases hvalue : values _ <;> rw [hvalue] at hsame <;> simp_all [isBytes]

theorem texts_mapArg {text : Placeholder → Nat → String}
    (htext : ∀ placeholder number,
      text (Placeholder.mapArg values placeholder) number = text placeholder number)
    (placeholders : List Placeholder) (start : Nat) :
    texts text (placeholders.map (Placeholder.mapArg values)) start = texts text placeholders start := by
  unfold texts
  rw [List.zipIdx_map, List.map_map]
  apply List.map_congr_left
  intro item _
  exact htext item.1 item.2

/-- The text does not depend on the values. -/
theorem text_mapArgs (hkind : ∀ arg, isBytes (values arg) = isBytes arg) (issued : Command)
    (schema table : String) : (issued.mapArgs values).text schema table = issued.text schema table := by
  have hvalue := texts_mapArg (valueText_mapArg hkind)
  have hassignment : ∀ placeholders start, texts assignmentText (placeholders.map (Placeholder.mapArg values)) start
      = texts assignmentText placeholders start := by
    refine texts_mapArg fun placeholder number => ?_
    rw [assignmentText, assignmentText, valueText_mapArg hkind]
    rfl
  have hpredicate : ∀ placeholders start, texts predicateText (placeholders.map (Placeholder.mapArg values)) start
      = texts predicateText placeholders start := by
    refine texts_mapArg fun placeholder number => ?_
    rw [predicateText, predicateText, valueText_mapArg hkind]
    rfl
  rw [← String.toList_inj]
  cases issued with
  | insert placeholders =>
      rw [Command.mapArgs, toList_insert, toList_insert, hvalue, List.map_map]
      rfl
  | update placeholders keys =>
      rw [Command.mapArgs, toList_update, toList_update, hassignment, predicates, hpredicate,
        List.length_map]
      rfl
  | delete keys =>
      rw [Command.mapArgs, toList_delete, toList_delete, predicates, hpredicate]
      rfl

end Values

/-- The text of a statement is read by PostgreSQL as the statement meant: each name is a quoted identifier
read as that name, the parameters are numbered as the arguments are, the argument of a number is the value of
the column it is set to or compared with, and the text is the same for other values. -/
theorem row_sql_aligned (cfg : Syncer) (catalog : Catalog) (row : Row) (issued : Command)
    (h : command cfg catalog.columnTypes row = .ok issued) :
    SqlText.lex (issued.text catalog.schema row.table).toList = some (issued.tokens catalog.schema row.table)
      ∧ SqlText.parameters (issued.tokens catalog.schema row.table) = List.range' 1 issued.args.length
      ∧ (∃ parts, List.Forall₂ (Carries cfg row) (writes row) parts
        ∧ SqlText.bindings (issued.tokens catalog.schema row.table)
          = (parts.flatten.zipIdx 1).map (fun (column, number) => (column.name.toList, number))
        ∧ List.Forall₂ (fun column arg => ∃ type,
            (catalog.columns row.table).lookup column.name = some type ∧ argument type column = .ok arg)
          parts.flatten issued.args)
      ∧ ∀ values : Arg → Arg, (∀ arg, isBytes (values arg) = isBytes arg) →
        (issued.mapArgs values).text catalog.schema row.table = issued.text catalog.schema row.table := by
  obtain ⟨applied, hprepared⟩ := command_prepared h
  obtain ⟨parts, hparts, rfl⟩ := hprepared.parts
  have hholds := hprepared.placeholders
  obtain ⟨first, hpiece⟩ := hprepared.piece
  refine ⟨hpiece.lex_eq, parameters_tokens hprepared.known, ⟨parts, hparts, ?_, ?_⟩,
    fun values hkind => text_mapArgs hkind issued _ _⟩
  · rw [bindings_tokens hprepared.known, bound_eq hholds]
  · exact List.forall₂_map_right_iff.mpr (hholds.imp fun column placeholder holds =>
      ⟨placeholder.type, holds.type, holds.arg⟩)

section Example

theorem isType_of_word {type : String} {first : Char} (hscan : type.toList.head? = some first
      ∧ SqlText.scan .blank type.toList = some ([], .word type.toList)) : IsType type := by
  have hpiece := Piece.of_word hscan
  have htokens : typeTokens type = [.word (Quoting.clip SqlText.maxName (type.toList.map Char.toLower))] := by
    rw [typeTokens, hpiece.lex_eq]
    rfl
  refine ⟨⟨first, ?_⟩, ?_⟩
  · rw [htokens]
    refine hpiece.mono ?_
    rintro c (rfl | rfl | rfl) <;> decide
  · rw [htokens]
    rfl

def documents : Catalog where
  schema := "public"
  columns := fun table =>
    if table = "documents" then [("a\"b", "integer"), ("path", "text"), ("content", "bytea")] else []
  named := by
    intro table hcolumns
    by_cases htable : table = "documents"
    · subst htable
      exact ⟨⟨by decide, by decide⟩, by decide, by decide⟩
    · exact absurd (if_neg htable) hcolumns
  typed := by
    intro table column hcolumn
    by_cases htable : table = "documents"
    · rw [if_pos htable] at hcolumn
      simp only [List.mem_cons, List.not_mem_nil, or_false] at hcolumn
      rcases hcolumn with rfl | rfl | rfl
      · exact ⟨⟨by decide, by decide⟩, isType_of_word ⟨rfl, by decide⟩⟩
      · exact ⟨⟨by decide, by decide⟩, isType_of_word ⟨rfl, by decide⟩⟩
      · exact ⟨⟨by decide, by decide⟩, isType_of_word ⟨rfl, by decide⟩⟩
    · rw [if_neg htable] at hcolumn
      cases hcolumn

def documentsSyncer : Syncer where
  id := "s"
  tables := [⟨"public", "documents"⟩]
  fileColumns := [⟨"public", "documents", "path", "content"⟩]

def movedDocument : Row where
  schema := "public"
  table := "documents"
  operation := .update
  key := [{ name := "a\"b", value := some "1" }]
  columns := [{ name := "path", value := some "", encoding := "base64", sourceValue := some "/x" }]

def movedCommand : Command :=
  .update [⟨"path", "text", .text (some "/x")⟩, ⟨"content", "bytea", .bytes (some [])⟩]
    [⟨"a\"b", "integer", .text (some "1")⟩]

theorem row_sql_aligned_documents :
    command documentsSyncer documents.columnTypes movedDocument = .ok movedCommand
      ∧ SqlText.parameters (movedCommand.tokens "public" "documents") = [1, 2, 3] :=
  have h : command documentsSyncer documents.columnTypes movedDocument = .ok movedCommand := by decide
  ⟨h, (row_sql_aligned documentsSyncer documents movedDocument movedCommand h).2.1⟩

example : movedCommand.text "public" "documents"
    = "UPDATE \"public\".\"documents\" SET \"path\"=$1::text::text,\"content\"=$2::bytea"
      ++ " WHERE ctid IN (SELECT ctid FROM \"public\".\"documents\""
      ++ " WHERE \"a\"\"b\" IS NOT DISTINCT FROM $3::text::integer LIMIT 1)" := by
  decide +kernel

end Example

end GoSync.Server.Sql
